import Flodex.Client.Loop
import Flodex.Foundations.Coupled
import Flodex.Foundations.Exchange
import Flodex.Node.Complete
import Flodex.Node.Stages
import Flodex.Proxy.Server

/-!
# The traffic of a node

A node with both of its endpoints among its two kinds of clients: proxies, which post to
`/proxy/complete`, and pages with `sendStep`, which post to `/execute`. Between them is a network
that delivers what it likes: every request to the node, and every response to a client, is up to the
environment.

`uses` is what the ends do with their keys in a run. A key is given by what it is derived from: the
public key that a client draws, and the session id.
-/

namespace Flodex.Proxy

open Function Node

variable {W : Type*}

/-! ## The page -/

/-- The fields of the step that the page writes. -/
def stepFields : Client.AgentStep → List (String × Value)
  | .prompt text => [("type", .string "prompt"), ("prompt", .string text)]
  | .toolResult toolUseId content isError =>
    [("type", .string "toolResult")] ++ (toolUseId.map fun id => ("toolUseId", id)).toList ++
      [("content", .string content), ("isError", .bool isError)]

/-- What a page computes with: `x25519.getPublicKey`, `getSharedSecret` with `hkdf`, the decryption
of the nonce and the ciphertext of an answer, `JSON.stringify` and `JSON.parse`. -/
structure Page where
  publicKey : Bytes32 → Bytes32
  sessionKey : Bytes32 → List UInt8 → String → Except String Bytes32
  decrypt : Bytes32 → Value → Except String (List UInt8)
  stringify : Value → List UInt8
  parse : List UInt8 → Except String Value

namespace Page

variable (page : Page)

/-- The plaintext of an answer, and the answer. -/
def openAnswer (nodeUrl : String) (key : Bytes32) (fetched : Except String Client.FetchResponse) :
    Except String (List UInt8 × Value) := do
  let res ← fetched
  Client.checkOk (nodeUrl ++ "/execute") res
  let enc ← res.json
  let plaintext ← page.decrypt key enc
  pure (plaintext, enc)

/-- What `sendStep` returns for an answer. -/
def readAnswer (nodeUrl : String) (key : Bytes32) (fetched : Except String Client.FetchResponse) :
    Except String Client.SendStepResult := do
  let (plaintext, enc) ← page.openAnswer nodeUrl key fetched
  let response ← page.parse plaintext
  let receipt ← Client.property enc "receipt"
  pure ⟨response, Client.nullish receipt⟩

end Page

/-! ## Clients -/

/-- A node, the coordinator that its proxies ask, and the page of its other clients. -/
structure Site (W : Type*) extends Completer W where
  coordUrl : String
  page : Page

/-- A request to `/v1/messages`, and its response once there is one. -/
structure Ask where
  req : AnthropicMessagesRequest
  backend : BackendType
  draw : Draw
  out : Except ProxyError Outgoing
  response : Option (Except ProxyError Value)

/-- A call of `sendStep`, and what it returns once it does. -/
structure Call where
  opts : Client.SendStepOptions
  clientPriv : Bytes32
  key : Except String Bytes32
  result : Option (Except String Client.SendStepResult)

structure Clients where
  backend : BackendType
  asks : ℕ → Option Ask
  calls : ℕ → Option Call

/-- What the environment lets happen. A request to a proxy comes with the answer of the coordinator
and the randomness. -/
inductive Action (W : Type*)
  | messages (k : ℕ) (req : AnthropicMessagesRequest) (matched : Fetched JobMatch) (draw : Draw)
  | complete (req : EncryptedRequest) (w : W) (nonce : Bytes 24)
  | respond (k : ℕ) (fetched : Fetched EncryptedResponse) (id : Bytes 12)
  | setBackend (kind : Option String)
  | send (k : ℕ) (opts : Client.SendStepOptions) (clientPriv : Bytes32)
  | answer (k : ℕ) (fetched : Except String Client.FetchResponse)

variable (site : Site W)

/-- The request is prepared for the backend that the proxy is set to. -/
def ask (backend : BackendType) (req : AnthropicMessagesRequest) (matched : Fetched JobMatch)
    (draw : Draw) : Ask :=
  let out := prepare site.transport site.json site.coordUrl backend req matched draw
  ⟨req, backend, draw, out, match out with
    | .ok _ => none
    | .error e => some (.error e)⟩

/-- A step is sent, or throws where the node has no key. -/
def call (opts : Client.SendStepOptions) (clientPriv : Bytes32) : Call :=
  let key := site.page.sessionKey clientPriv opts.nodePub opts.sessionId
  ⟨opts, clientPriv, key, match key with
    | .ok _ => none
    | .error e => some (.error e)⟩

/-- The clients after an action. `/proxy/complete` leaves nothing behind. -/
def next (s : Clients) : Action W → Clients
  | .messages k req matched draw =>
    { s with asks := update s.asks k (some (ask site s.backend req matched draw)) }
  | .complete .. => s
  | .respond k fetched id =>
    match s.asks k with
    | some ⟨req, backend, draw, .ok out, none⟩ =>
      { s with asks := update s.asks k (some ⟨req, backend, draw, .ok out,
        some (finish site.transport site.json backend req out fetched id)⟩) }
    | _ => s
  | .setBackend kind =>
    match setBackend kind with
    | .ok backend => { s with backend := backend }
    | .error _ => s
  | .send k opts clientPriv =>
    { s with calls := update s.calls k (some (call site opts clientPriv)) }
  | .answer k fetched =>
    match s.calls k with
    | some ⟨opts, clientPriv, .ok key, none⟩ =>
      { s with calls := update s.calls k (some ⟨opts, clientPriv, .ok key,
        some (site.page.readAnswer opts.nodeUrl key fetched)⟩) }
    | _ => s

/-- The clients of the node. -/
def clients : Machine Clients (Action W) where
  Init s := (∃ env, s.backend = initialBackend env) ∧ s.asks = (fun _ => none) ∧
    s.calls = fun _ => none
  Legal s
    | .messages k .. => s.asks k = none
    | .send k .. => s.calls k = none
    | _ => True
  next := next site

/-- The node and its clients. -/
def traffic : Machine (Node.State × Clients) (Node.Action W ⊕ Action W) :=
  (Node.machine site.cfg).couple (clients site) fun _ _ => True

/-- The events of the traffic. -/
abbrev Scene (W : Type*) := Event (Node.State × Clients) (Node.Action W ⊕ Action W)

/-! ## Keys -/

/-- What a key between a client and the node is derived from. -/
abbrev KeyId := Bytes32 × String

abbrev Use := KeyUse KeyId (List UInt8)

/-- The key of a proxy's request. -/
def Ask.keyId (a : Ask) : KeyId :=
  (site.transport.publicKey a.draw.secret, sessionId site.transport a.draw)

/-- The key of a step. -/
def Call.keyId (c : Call) : KeyId := (site.page.publicKey c.clientPriv, c.opts.sessionId)

/-- What a page seals. -/
def Call.plaintext (c : Call) : List UInt8 :=
  site.page.stringify (.object (stepFields c.opts.step))

/-- The use of a request that the node opens. -/
def opens (req : EncryptedRequest) (use : KeyId → List UInt8 → Use) : Option Use :=
  (openBox site.cfg req).toOption.map fun box => use (box.1, req.sessionId) box.2

/-- What the node does with keys for `/execute`. -/
def nodeUse (e : Node.Step W) : Option Use :=
  match e.act with
  | .receive req _ => opens site req .take
  | .respond k _ =>
    match e.pre.flights k, e.post.flights k with
    | some ⟨req, .answered response⟩, some ⟨_, .done (.ok _)⟩ =>
      opens site req fun key opened => .reply key opened (site.json.write response.toValue)
    | _, _ => none
  | _ => none

/-- What the node does with keys for `/proxy/complete`. -/
def completeUse (req : EncryptedRequest) (w : W) (nonce : Bytes 24) : Option Use :=
  match (completion site.toCompleter req w).1 with
  | .error _ => opens site req .take
  | .ok (clientPub, plaintext, result) =>
    match sealResult site.toCompleter req clientPub nonce result with
    | .error _ => some (.take (clientPub, req.sessionId) plaintext)
    | .ok _ => some (.reply (clientPub, req.sessionId) plaintext (site.json.write result.toValue))

/-- What the clients do with the keys that they have for the node. -/
def clientUse (s : Clients) : Action W → Option Use
  | .messages _ req matched draw =>
    let a := ask site s.backend req matched draw
    match a.out with
    | .ok out =>
      if out.nodePub = site.publicKey then some (.ask (a.keyId site) (plaintext site.json req))
      else none
    | .error _ => none
  | .complete req w nonce => completeUse site req w nonce
  | .respond k fetched _ =>
    match s.asks k with
    | some ⟨req, backend, draw, .ok out, none⟩ =>
      if out.nodePub = site.publicKey then
        (openReply site.transport out fetched).toOption.map
          (.take (Ask.keyId site ⟨req, backend, draw, .ok out, none⟩))
      else none
    | _ => none
  | .setBackend _ => none
  | .send _ opts clientPriv =>
    let c := call site opts clientPriv
    match c.key with
    | .ok _ =>
      if opts.nodePub = site.publicKey.toList then some (.ask (c.keyId site) (c.plaintext site))
      else none
    | .error _ => none
  | .answer k fetched =>
    match s.calls k with
    | some ⟨opts, clientPriv, .ok key, none⟩ =>
      if opts.nodePub = site.publicKey.toList then
        (site.page.openAnswer opts.nodeUrl key fetched).toOption.map fun opened =>
          .take (Call.keyId site ⟨opts, clientPriv, .ok key, none⟩) opened.1
      else none
    | _ => none

section Uses

variable {site : Site W} {s : Clients} {k : ℕ} {req : AnthropicMessagesRequest}
  {backend : BackendType} {draw : Draw} {out : Outgoing} {enc : EncryptedRequest} {w : W}
  {nonce : Bytes 24} {clientPriv : Bytes32}

theorem clientUse_messages (k : ℕ) {matched : Fetched JobMatch} {a : Ask}
    (hask : ask site s.backend req matched draw = a) (hout : a.out = .ok out)
    (hnode : out.nodePub = site.publicKey) :
    clientUse site s (.messages k req matched draw) =
      some (.ask (a.keyId site) (plaintext site.json req)) := by
  simp only [clientUse, hask, hout, hnode, if_true]

theorem clientUse_respond (id : Bytes 12) {fetched : Fetched EncryptedResponse}
    {opened : List UInt8} (hk : s.asks k = some ⟨req, backend, draw, .ok out, none⟩)
    (hnode : out.nodePub = site.publicKey)
    (hopen : openReply site.transport out fetched = .ok opened) :
    clientUse site s (.respond k fetched id) =
      some (.take (Ask.keyId site ⟨req, backend, draw, .ok out, none⟩) opened) := by
  simp only [clientUse, hk, hnode, if_true, hopen]
  rfl

theorem completeUse_of_seal {clientPub : Bytes32} {opened : List UInt8} {result : ChatResult}
    {w' : W} {reply : EncryptedResponse}
    (hcompletion : completion site.toCompleter enc w = (.ok (clientPub, opened, result), w'))
    (hseal : sealResult site.toCompleter enc clientPub nonce result = .ok reply) :
    completeUse site enc w nonce =
      some (.reply (clientPub, enc.sessionId) opened (site.json.write result.toValue)) := by
  simp only [completeUse, hcompletion, hseal]

theorem clientUse_send (s : Clients) (k : ℕ) {opts : Client.SendStepOptions} {c : Call}
    {key : Bytes32} (hcall : call site opts clientPriv = c) (hkey : c.key = .ok key)
    (hnode : opts.nodePub = site.publicKey.toList) :
    clientUse site s (.send k opts clientPriv) =
      some (.ask (c.keyId site) (c.plaintext site)) := by
  simp only [clientUse, hcall, hkey, hnode, if_true]

theorem clientUse_answer {opts : Client.SendStepOptions} {key : Bytes32}
    {fetched : Except String Client.FetchResponse} {opened : List UInt8} {enc : Value}
    (hk : s.calls k = some ⟨opts, clientPriv, .ok key, none⟩)
    (hnode : opts.nodePub = site.publicKey.toList)
    (hopen : site.page.openAnswer opts.nodeUrl key fetched = .ok (opened, enc)) :
    clientUse site s (.answer k fetched) =
      some (.take (Call.keyId site ⟨opts, clientPriv, .ok key, none⟩) opened) := by
  simp only [clientUse, hk, hnode, if_true, hopen]
  rfl

end Uses

/-- The use of an event. -/
def use (e : Scene W) : Option Use :=
  match e.act with
  | .inl a => nodeUse site ⟨e.pre.1, a, e.post.1⟩
  | .inr a => clientUse site e.pre.2 a

/-- What the ends do with the keys in a run. -/
def uses (h : List (Scene W)) : List Use := h.filterMap (use site)

end Flodex.Proxy
