import Flodex.Proxy.Relay
import Flodex.Proxy.Traffic

/-!
# What a proxy accepts

Whatever the network does, the message of a proxy is a completion of its request by a provider of
the node (`proxy_authentic`). The seal alone does not give this, since both directions are sealed
under one key: it is that no kind of message is read as another one (`replies_apart`).
-/

namespace Flodex.Proxy

open Function Node

variable {W : Type*} {site : Site W} {h : List (Scene W)} {p q : Node.State × Clients}
  {e : Scene W} {key : KeyId} {t t' : List UInt8} {k : ℕ}

/-! ## Texts -/

theorem fromSlice_eq_ok {α : Type*} {json : JsonText} {type : String} {ofValue : Value → Option α}
    {bytes : List UInt8} {a : α} (hread : json.fromSlice type ofValue bytes = .ok a) :
    ∃ v, json.read bytes = some v ∧ ofValue v = some a :=
  Option.bind_eq_some_iff.1 (orThrow_eq_ok.1 hread)

/-- What the node reads where it wrote a value. -/
theorem ofValue_of_write {α : Type*} {json : JsonText} (faithful : json.Faithful) {type : String}
    {ofValue : Value → Option α} {v : Value} {a : α}
    (hread : json.fromSlice type ofValue (json.write v) = .ok a) :
    ofValue (v.mapFloats json.reread) = some a := by
  obtain ⟨w, hw, ha⟩ := fromSlice_eq_ok hread
  rwa [faithful v w hw] at ha

/-! ## Replies -/

/-- A request that has not failed is a step. -/
theorem step_of_flight {cfg : Config W} {h : List (Node.Step W)} {s : Node.State}
    {req : EncryptedRequest} {stage : Stage} (r : Run (Node.machine cfg) .start h s)
    (hk : s.flights k = some ⟨req, stage⟩) (going : ∀ err, stage ≠ .done (.error err)) :
    ∃ step, openRequest cfg req = .ok step := by
  refine request_invariant
    (fun _ _ req stage => (∀ err, stage ≠ .done (.error err)) →
      ∃ step, openRequest cfg req = .ok step)
    (fun _ _ => True) r (fun _ _ _ _ => trivial) ?_ ?_ ?_ hk going
  · intro h t req now _ harrival
    unfold arrival at harrival
    cases hopen : openRequest cfg req with
    | ok step => exact ⟨step, rfl⟩
    | error err =>
      simp only [hopen] at harrival
      exact absurd rfl (harrival err)
  · intro h t a k req stage _ ih _
    exact ih
  · intro h t a k req stage stage' _ _ _ ih _ hprogress hgoing
    refine ih fun err hstage => ?_
    generalize (Node.next cfg t a).channels = channels at hprogress
    subst hstage
    cases hprogress with
    | failed err' going => exact absurd rfl (going _)

/-- `/proxy/complete` gets a result for a request. -/
structure Completes (site : Site W) (e : Scene W) (key : KeyId) (opened : List UInt8)
    (result : ChatResult) : Prop where
  act : ∃ req w nonce, e.act = .inr (.complete req w nonce) ∧ key.2 = req.sessionId ∧
    (completion site.toCompleter req w).1 = .ok (key.1, opened, result)

/-- `/execute` answers a request. -/
structure Answers (site : Site W) (e : Scene W) (key : KeyId) (opened : List UInt8)
    (response : AgentResponse) : Prop where
  act : ∃ k now req receipt, e.act = .inl (.respond k now) ∧ key.2 = req.sessionId ∧
    openBox site.cfg req = .ok (key.1, opened) ∧
    e.pre.1.flights k = some ⟨req, .answered response⟩ ∧
    e.post.1.flights k = some ⟨req, .done (.ok ⟨req.sessionId, response, receipt⟩)⟩

theorem opens_eq_some {req : EncryptedRequest} {f : KeyId → List UInt8 → Use} {u : Use}
    (hopens : opens site req f = some u) :
    ∃ clientPub opened, openBox site.cfg req = .ok (clientPub, opened) ∧
      u = f (clientPub, req.sessionId) opened := by
  obtain ⟨⟨clientPub, opened⟩, hbox, rfl⟩ := Option.map_eq_some_iff.1 hopens
  cases hopen : openBox site.cfg req with
  | error err => simp [hopen, Except.toOption] at hbox
  | ok box =>
    simp only [hopen, Except.toOption, Option.some.injEq] at hbox
    exact ⟨clientPub, opened, by rw [hbox], rfl⟩

/-- The stage after an answer. -/
theorem flight_of_respond {cfg : Config W} {s : Node.State} {now : ℤ} {req req' : EncryptedRequest}
    {response : AgentResponse} {reply : Reply} (hk : s.flights k = some ⟨req, .answered response⟩)
    (hpost : (Node.next cfg s (.respond k now)).flights k = some ⟨req', .done (.ok reply)⟩) :
    req' = req ∧ ∃ receipt, reply = ⟨req.sessionId, response, receipt⟩ := by
  rcases next_request cfg s (a := .respond k now) rfl with
    hidle | ⟨req₀, stage, stage', hstage, hprogress, hflights, -⟩
  · rw [hidle, hk] at hpost
    simp at hpost
  · obtain ⟨rfl, rfl⟩ : req₀ = req ∧ stage = .answered response := by
      rw [hk] at hstage
      simpa [eq_comm] using hstage
    rw [hflights, update_self] at hpost
    obtain ⟨rfl, rfl⟩ : req₀ = req' ∧ stage' = .done (.ok reply) := by simpa using hpost
    generalize (Node.next cfg s (.respond k now)).channels = channels at hprogress
    cases hprogress with
    | replied free => exact ⟨rfl, none, rfl⟩
    | charged bound built => exact ⟨rfl, _, rfl⟩

/-- The node replies to a step when it responds to it. -/
theorem answers_of_reply {e : Scene W} (hact : e.act = .inl a)
    (hpost : e.post.1 = Node.next site.cfg e.pre.1 a)
    (huse : nodeUse site ⟨e.pre.1, a, e.post.1⟩ = some (.reply key t t')) :
    ∃ response, Answers site e key t response ∧ t' = site.json.write response.toValue := by
  cases a with
  | respond k now =>
    simp only [nodeUse] at huse
    split at huse
    · rename_i req response req' reply hpre hdone
      obtain ⟨clientPub, opened, hbox, hu⟩ := opens_eq_some huse
      injection hu with hkey hopened hsealed
      rw [hpost] at hdone
      obtain ⟨rfl, receipt, rfl⟩ := flight_of_respond hpre hdone
      subst hkey hopened
      exact ⟨response, ⟨k, now, _, receipt, hact, rfl, hbox, hpre, hpost ▸ hdone⟩, hsealed⟩
    · cases huse
  | receive req now =>
    obtain ⟨_, _, _, hu⟩ := opens_eq_some (show opens site req .take = _ from huse)
    cases hu
  | _ => cases huse

/-- A proxy and a page reply to nothing. -/
theorem complete_of_reply {s : Clients} {a : Action W}
    (huse : clientUse site s a = some (.reply key t t')) : ∃ req w nonce,
      a = .complete req w nonce ∧ completeUse site req w nonce = some (.reply key t t') := by
  cases a with
  | complete req w nonce => exact ⟨req, w, nonce, rfl, huse⟩
  | messages k req matched draw =>
    simp only [clientUse] at huse
    split at huse
    · split_ifs at huse
      cases huse
    · cases huse
  | respond k fetched id =>
    simp only [clientUse] at huse
    split at huse
    · split_ifs at huse
      obtain ⟨_, _, hu⟩ := Option.map_eq_some_iff.1 huse
      cases hu
    · cases huse
  | setBackend kind => cases huse
  | send k opts clientPriv =>
    simp only [clientUse] at huse
    split at huse
    · split_ifs at huse
      cases huse
    · cases huse
  | answer k fetched =>
    simp only [clientUse] at huse
    split at huse
    · split_ifs at huse
      obtain ⟨_, _, hu⟩ := Option.map_eq_some_iff.1 huse
      cases hu
    · cases huse

/-- The node replies to a request of a proxy when it completes it. -/
theorem completion_of_reply {req : EncryptedRequest} {w : W} {nonce : Bytes 24}
    (huse : completeUse site req w nonce = some (.reply key t t')) : ∃ result,
      key.2 = req.sessionId ∧ (completion site.toCompleter req w).1 = .ok (key.1, t, result) ∧
      t' = site.json.write result.toValue := by
  simp only [completeUse] at huse
  split at huse
  · obtain ⟨_, _, _, hu⟩ := opens_eq_some huse
    cases hu
  · rename_i clientPub opened result hcompletion
    split at huse
    · cases huse
    · injection huse with hu
      injection hu with hkey hopened hsealed
      subst hkey hopened
      exact ⟨result, rfl, hcompletion, hsealed.symm⟩

/-- **The node replies in two ways**: with the result of a completion, or with the response to a
step. -/
theorem reply_cases (R : Run (traffic site) p h q) (hreply : Replies (uses site h) key t t') :
    (∃ e ∈ h, ∃ result, Completes site e key t result ∧ t' = site.json.write result.toValue) ∨
      ∃ e ∈ h, ∃ response, Answers site e key t response ∧
        t' = site.json.write response.toValue := by
  obtain ⟨e, he, huse⟩ := List.mem_filterMap.1 hreply
  have hpost := R.post_eq he
  obtain ⟨pre, act, post⟩ := e
  cases act with
  | inl a =>
    right
    obtain ⟨response, answers, hsealed⟩ :=
      answers_of_reply (e := ⟨pre, .inl a, post⟩) rfl (congrArg Prod.fst hpost) huse
    exact ⟨_, he, response, answers, hsealed⟩
  | inr a =>
    left
    obtain ⟨req, w, nonce, rfl, huse⟩ := complete_of_reply huse
    obtain ⟨result, hsession, hcompletion, hsealed⟩ := completion_of_reply huse
    exact ⟨_, he, result, ⟨req, w, nonce, rfl, hsession, hcompletion⟩, hsealed⟩

/-- What is completed is a request to the chat. -/
theorem Completes.chat {opened : List UInt8} {result : ChatResult}
    (completes : Completes site e key opened result) :
    ∃ req w nonce chatReq agent w', e.act = .inr (.complete req w nonce) ∧
      site.json.fromSlice "ChatRequest" ChatRequest.ofValue opened = .ok chatReq ∧
      agentOf site.cfg req.backend = .ok agent ∧ agent.complete w chatReq = (.ok result, w') := by
  obtain ⟨req, w, nonce, hact, -, hcompletion⟩ := completes.act
  obtain ⟨-, chatReq, agent, w', hchat, hagent, hcomplete⟩ := completion_eq_ok hcompletion
  exact ⟨req, w, nonce, chatReq, agent, w', hact, hchat, hagent, hcomplete⟩

/-- What is answered is a step. -/
theorem Answers.step (R : Run (traffic site) (.start, p.2) h q) (he : e ∈ h) {opened : List UInt8}
    {response : AgentResponse} (answers : Answers site e key opened response) :
    ∃ step, site.json.fromSlice "AgentStep" AgentStep.ofValue opened = .ok step := by
  obtain ⟨k, now, req, receipt, -, -, hbox, hpre, -⟩ := answers.act
  obtain ⟨h₁, r⟩ := R.exists_upTo he
  obtain ⟨step, hopen⟩ := step_of_flight r.left hpre fun _ => by simp
  rw [openRequest_eq, hbox] at hopen
  simp only [site.envelope, Transport.envelope, bind, Except.bind, mapError_eq_ok] at hopen
  exact ⟨step, hopen⟩

/-- **No reply is replied to**: what the node writes is neither a request to the chat nor a step. -/
theorem replies_apart (faithful : site.json.Faithful) (R : Run (traffic site) (.start, p.2) h q)
    {key' : KeyId} {t'' : List UInt8} (hreply : Replies (uses site h) key t t') :
    ¬ Replies (uses site h) key' t' t'' := by
  intro hreply'
  have hread : (∃ chatReq, site.json.fromSlice "ChatRequest" ChatRequest.ofValue t' = .ok chatReq) ∨
      ∃ step, site.json.fromSlice "AgentStep" AgentStep.ofValue t' = .ok step := by
    obtain ⟨e, -, result, completes, -⟩ | ⟨e, he, response, answers, -⟩ := reply_cases R hreply'
    · obtain ⟨_, _, _, chatReq, _, _, -, hchat, -⟩ := completes.chat
      exact .inl ⟨chatReq, hchat⟩
    · exact .inr (answers.step R he)
  obtain ⟨_, -, result, -, rfl⟩ | ⟨_, -, response, -, rfl⟩ := reply_cases R hreply
  · obtain ⟨_, hchat⟩ | ⟨_, hstep⟩ := hread
    · simpa using ofValue_of_write faithful hchat
    · simpa using ofValue_of_write faithful hstep
  · obtain ⟨_, hchat⟩ | ⟨_, hstep⟩ := hread
    · simpa using ofValue_of_write faithful hchat
    · simpa using ofValue_of_write faithful hstep

/-! ## Messages -/

theorem mem_uses_concat {u : Use} (hu : u ∈ uses site h) : u ∈ uses site (h ++ [e]) := by
  rw [uses, List.filterMap_append]
  exact List.mem_append_left _ hu

theorem mem_uses_last {u : Use} (hu : use site e = some u) : u ∈ uses site (h ++ [e]) := by
  rw [uses, List.filterMap_append]
  exact List.mem_append_right _ (List.mem_filterMap.2 ⟨e, by simp, hu⟩)

/-- What a proxy did for a request to a node: it sealed the conversation, and put the result that it
opened into a message. -/
structure Handled (site : Site W) (h : List (Scene W)) (a : Ask) : Prop where
  asked : .ask (a.keyId site) (plaintext site.json a.req) ∈ uses site h
  taken : ∀ body, a.response = some (.ok body) → ∃ t result id,
    .take (a.keyId site) t ∈ uses site h ∧ parseResult site.json t = .ok result ∧
      body = repackage a.backend a.req.model id result

theorem Handled.concat {a : Ask} (handled : Handled site h a) : Handled site (h ++ [e]) a where
  asked := mem_uses_concat handled.asked
  taken body hbody := by
    obtain ⟨t, result, id, htake, hparse, hmessage⟩ := handled.taken body hbody
    exact ⟨t, result, id, mem_uses_concat htake, hparse, hmessage⟩

theorem handled (R : Run (traffic site) p h q) (init : (traffic site).Init p) :
    ∀ k a out, q.2.asks k = some a → a.out = .ok out → out.nodePub = site.publicKey →
      Handled site h a := by
  refine R.invariantHistory (fun h q => ∀ k a out, q.2.asks k = some a → a.out = .ok out →
    out.nodePub = site.publicKey → Handled site h a) (fun _ _ => True) (fun _ _ _ _ => trivial)
    ?_ ?_
  · intro k a out hk
    rw [init.2.2.1] at hk
    cases hk
  · rintro h ⟨s, c⟩ act - ih - - k a out hk hout hnode
    -- an action that leaves the request as it was
    have hsame : c.asks k = some a →
        Handled site (h ++ [⟨(s, c), act, (traffic site).next (s, c) act⟩]) a :=
      fun hk => (ih k a out hk hout hnode).concat
    cases act with
    | inl act => exact hsame hk
    | inr act =>
      change (next site c act).asks k = some a at hk
      cases act with
      | messages j req matched draw =>
        simp only [next] at hk
        by_cases hkj : k = j
        · subst hkj
          obtain rfl : ask site c.backend req matched draw = a := by simpa using hk
          refine ⟨mem_uses_last (clientUse_messages k rfl hout hnode), fun body hbody => ?_⟩
          · simp only [ask] at hbody hout
            simp [hout] at hbody
        · rw [update_of_ne hkj] at hk
          exact hsame hk
      | respond j fetched id =>
        simp only [next] at hk
        split at hk
        · rename_i req backend draw out' hj
          dsimp only at hk
          by_cases hkj : k = j
          · subst hkj
            rw [update_self] at hk
            obtain rfl := Option.some.inj hk
            obtain rfl : out' = out := by simpa using hout
            refine ⟨(ih k _ out' hj rfl hnode).concat.asked, fun body hbody => ?_⟩
            have hfinish := Option.some.inj hbody
            simp only [finish, bind_eq_ok, pure_eq_ok] at hfinish
            obtain ⟨t, hopen, result, hparse, rfl⟩ := hfinish
            have huse := clientUse_respond id hj hnode hopen
            exact ⟨t, result, id, mem_uses_last huse, hparse, rfl⟩
          · rw [update_of_ne hkj] at hk
            exact hsame hk
        · exact hsame hk
      | complete req w nonce => exact hsame hk
      | setBackend kind =>
        simp only [next] at hk
        split at hk <;> exact hsame hk
      | send j opts clientPriv => exact hsame hk
      | answer j fetched =>
        simp only [next] at hk
        split at hk <;> exact hsame hk

/-- **A proxy's message is a completion of its request.** Whatever the network delivers, and however
the requests interleave, the message that a proxy returns for a request to the node repackages the
result of one of the node's providers for exactly the conversation of the request. -/
theorem proxy_authentic (faithful : site.json.Faithful) (H : (traffic site).History h q)
    (secure : Secure (uses site h)) {a : Ask} {out : Outgoing} {body : Value}
    (hask : q.2.asks k = some a) (hout : a.out = .ok out) (hnode : out.nodePub = site.publicKey)
    (hbody : a.response = some (.ok body)) :
    ∃ e ∈ h, ∃ req w nonce agent result w' id, e.act = .inr (.complete req w nonce) ∧
      agentOf site.cfg req.backend = .ok agent ∧
      agent.complete w ((chatRequest a.req).mapFloats site.json.reread) = (.ok result, w') ∧
      body = repackage a.backend a.req.model id (result.mapFloats site.json.reread) := by
  obtain ⟨⟨s, c⟩, init, R⟩ := H
  have hs : s = .start := init.1
  subst hs
  have handled := handled R init k a out hask hout hnode
  obtain ⟨t, result, id, htake, hparse, rfl⟩ := handled.taken body hbody
  obtain ⟨before, rest, hsplit⟩ := List.append_of_mem htake
  have hparse' := mapError_eq_ok.1 hparse
  obtain rfl | hreply := secure.origin_of_apart (u := .take (a.keyId site) t) hsplit rfl
    handled.asked fun _ _ _ hreply => replies_apart (p := (.start, c)) faithful R hreply
  · -- its own request is no result
    simpa [plaintext] using ofValue_of_write faithful hparse'
  · have hreply : Replies (uses site h) (a.keyId site) (plaintext site.json a.req) t := by
      rw [Replies, hsplit]
      exact List.mem_append_left _ hreply
    obtain ⟨e, he, result', completes, rfl⟩ | ⟨e, he, response, answers, rfl⟩ :=
      reply_cases R hreply
    · obtain ⟨req, w, nonce, chatReq, agent, w', hact, hchat, hagent, hcomplete⟩ := completes.chat
      have hchat := ofValue_of_write faithful hchat
      rw [ChatRequest.ofValue_toValue, Option.some.injEq] at hchat
      have hresult := ofValue_of_write faithful hparse'
      rw [ChatResult.ofValue_toValue, Option.some.injEq] at hresult
      subst hchat hresult
      exact ⟨e, he, req, w, nonce, agent, result', w', id, hact, hagent, hcomplete, rfl⟩
    · obtain ⟨step, hstep⟩ := answers.step (p := (.start, c)) R he
      simpa [plaintext] using ofValue_of_write faithful hstep

/-! ## A request and its reply -/

namespace Deployment

/-- A page that uses the transport, and knows the texts of a prompt and its answer. -/
def page : Page where
  publicKey := transport.publicKey
  sessionKey priv nodePub sessionId := do
    let nodePub ← orThrow (Bytes.ofList? 32 nodePub) "bad public key"
    pure (transport.deriveKey (transport.diffieHellman priv nodePub) sessionId)
  decrypt key enc := do
    let nonce ← orThrow (enc.getStr "nonce") "no nonce"
    let ciphertext ← orThrow (enc.getStr "ciphertext") "no ciphertext"
    transport.decrypt key (← transport.b64Decode nonce) (← transport.b64Decode ciphertext)
  stringify
    | .object [("type", .string "prompt"), ("prompt", .string "hi")] => bytesOf stepJson
    | _ => []
  parse bytes :=
    if bytes = bytesOf stepJson then .ok (.object promptFields)
    else if bytes = bytesOf finalJson then .ok response.toValue
    else .error "SyntaxError"

def claudeSite : Site (List Value) where
  toCompleter := claudeNode
  coordUrl := "http://coordinator"
  page := page

/-- The proxy asks for the hosted provider. -/
def start : Node.State × Clients := (.start, ⟨.MockTee, fun _ => none, fun _ => none⟩)

theorem init : (traffic claudeSite).Init start := ⟨rfl, ⟨some "mock-tee", rfl⟩, rfl, rfl⟩

def matched : Fetched JobMatch := naming claudeNode "http://node" "200 OK" none

/-- The request for the node. -/
def greeted : Outgoing :=
  outgoing claudeNode "http://node" .MockTee drawn (sealedText (bytesOf chatJson))

/-- The reply of the node. -/
def replied : Fetched EncryptedResponse :=
  .ok ⟨true, "200 OK", none, .ok (incoming claudeNode drawn drawn.nonce
    (sealedText (bytesOf resultJson)))⟩

/-- The message for the caller. -/
def greetMessage : Value := repackage .MockTee none (.replicate 12 5) result

/-- The request of the proxy, with the response. -/
def asking (response : Option (Except ProxyError Value)) : Ask :=
  ⟨greet, .MockTee, drawn, .ok greeted, response⟩

/-- The clients with the request. -/
def asked (response : Option (Except ProxyError Value)) : Clients :=
  ⟨.MockTee, update (fun _ => none) 0 (some (asking response)), fun _ => none⟩

theorem ask_greet : ask claudeSite .MockTee greet matched drawn = asking none := by
  have hout : prepare transport json "http://coordinator" .MockTee greet matched drawn =
      .ok greeted := prepare_naming lawful_transport seal_sent
  simp only [ask, claudeSite, claudeNode, hout, asking]

theorem mapFloats_result : result.mapFloats json.reread = result := by
  simp [result, hello, ChatResult.mapFloats, Value.mapFloats, Value.mapFloatsFields_eq]

theorem finish_greet : finish transport json .MockTee greet greeted replied (.replicate 12 5) =
    .ok greetMessage := by
  have h := @finish_out _ claudeNode "http://node" "200 OK" none .MockTee greet drawn drawn.nonce
    lawful_transport faithful_json (sealedText (bytesOf chatJson)) _ result seal_received
    isSome_read_received (.replicate 12 5)
  have hresult : result.mapFloats claudeNode.json.reread = result := mapFloats_result
  rw [hresult] at h
  exact h

theorem completion_greet : completion claudeNode greeted.encReq [] =
    (.ok (drawn.secret, plaintext json greet, result), [apiRequest json "claude" greet]) := by
  have hcomplete : claude.complete [] ((chatRequest greet).mapFloats json.reread) =
      (.ok result, [apiRequest json "claude" greet]) := by
    rw [AgentLoop.complete, provider_claude, toValue_messagesRequest]
    rfl
  exact completion_out lawful_transport faithful_json seal_sent isSome_read_sent rfl hcomplete

theorem sealResult_greet : sealResult claudeNode greeted.encReq drawn.secret drawn.nonce result =
    .ok (incoming claudeNode drawn drawn.nonce (sealedText (bytesOf resultJson))) :=
  sealResult_out lawful_transport seal_received

theorem openReply_greet : openReply transport greeted replied = .ok (json.write result.toValue) :=
  @openReply_out _ claudeNode "http://node" "200 OK" none .MockTee drawn drawn.nonce
    lawful_transport _ _ _ seal_received

/-- The network delivers the request and the reply. -/
def messaging : List (Scene (List Value)) :=
  [] ++ [⟨start, .inr (.messages 0 greet matched drawn), (.start, asked none)⟩] ++
    [⟨(.start, asked none), .inr (.complete greeted.encReq [] drawn.nonce),
      (.start, asked none)⟩] ++
    [⟨(.start, asked none), .inr (.respond 0 replied (.replicate 12 5)),
      (.start, asked (some (.ok greetMessage)))⟩]

theorem history_messaging :
    (traffic claudeSite).History messaging (.start, asked (some (.ok greetMessage))) := by
  have hask : (traffic claudeSite).next start (.inr (.messages 0 greet matched drawn)) =
      (.start, asked none) := by
    simp only [traffic, Machine.couple, clients, next, start, ask_greet, asked]
  have hrespond : (traffic claudeSite).next (.start, asked none)
      (.inr (.respond 0 replied (.replicate 12 5))) =
        (.start, asked (some (.ok greetMessage))) := by
    have hfinish : finish claudeSite.transport claudeSite.json .MockTee greet greeted replied
      (.replicate 12 5) = .ok greetMessage := finish_greet
    simp only [traffic, Machine.couple, clients, next, asked, asking, update_self, update_idem,
      hfinish]
  have legal₁ : (traffic claudeSite).Legal start (.inr (.messages 0 greet matched drawn)) :=
    ⟨rfl, trivial⟩
  have legal₂ : (traffic claudeSite).Legal (.start, asked none)
    (.inr (.complete greeted.encReq [] drawn.nonce)) := ⟨trivial, trivial⟩
  have legal₃ : (traffic claudeSite).Legal (.start, asked none)
    (.inr (.respond 0 replied (.replicate 12 5))) := ⟨trivial, trivial⟩
  exact ⟨start, init, ((Run.nil.snoc_eq legal₁ hask).snoc_eq legal₂ rfl).snoc_eq legal₃ hrespond⟩

/-- The key of the request. -/
def greetKey : KeyId := (drawn.secret, sessionId transport drawn)

theorem uses_messaging : uses claudeSite messaging =
    [] ++ [.ask greetKey (plaintext json greet)] ++
      [.reply greetKey (plaintext json greet) (json.write result.toValue)] ++
      [.take greetKey (json.write result.toValue)] := by
  have hask : use claudeSite ⟨start, .inr (.messages 0 greet matched drawn),
      (.start, asked none)⟩ = some (.ask greetKey (plaintext json greet)) :=
    clientUse_messages (s := start.2) 0 ask_greet rfl rfl
  have hcomplete : use claudeSite ⟨(.start, asked none),
      .inr (.complete greeted.encReq [] drawn.nonce), (.start, asked none)⟩ =
        some (.reply greetKey (plaintext json greet) (json.write result.toValue)) :=
    completeUse_of_seal completion_greet sealResult_greet
  have hrespond : use claudeSite ⟨(.start, asked none), .inr (.respond 0 replied (.replicate 12 5)),
      (.start, asked (some (.ok greetMessage)))⟩ =
        some (.take greetKey (json.write result.toValue)) := by
    have hk : (asked none).asks 0 = some (asking none) := by simp only [asked, update_self]
    have hopen : openReply claudeSite.transport greeted replied =
      .ok (json.write result.toValue) := openReply_greet
    exact clientUse_respond (.replicate 12 5) hk rfl hopen
  rw [uses, messaging, List.filterMap_append, List.filterMap_append, List.filterMap_append,
    List.filterMap_cons_some hask, List.filterMap_cons_some hcomplete,
    List.filterMap_cons_some hrespond]
  rfl

theorem secure_messaging : Secure (uses claudeSite messaging) := by
  rw [uses_messaging]
  refine ((Secure.nil.ask (by simp)).opens (by simp) fun t ht => ?_).opens (by simp)
    fun t ht => ?_
  · obtain rfl := Option.some.inj ht
    exact ⟨_, .head _, rfl, rfl⟩
  · obtain rfl := Option.some.inj ht
    exact ⟨_, .tail _ (.head _), rfl, rfl⟩

end Deployment

open Deployment in
/-- The message that the proxy returns is the provider's completion of the greeting. -/
theorem proxy_authentic_greeted : ∃ e ∈ messaging, ∃ enc asked nonce agent result' asked' id,
    e.act = .inr (.complete enc asked nonce) ∧ agentOf claudeNode.cfg enc.backend = .ok agent ∧
      agent.complete asked ((chatRequest greet).mapFloats json.reread) = (.ok result', asked') ∧
      greetMessage = repackage .MockTee none id (result'.mapFloats json.reread) := by
  have hask : (asked (some (.ok greetMessage))).asks 0 =
      some (asking (some (.ok greetMessage))) := by
    simp only [asked, update_self]
  exact proxy_authentic faithful_json history_messaging secure_messaging hask rfl rfl rfl

end Flodex.Proxy
