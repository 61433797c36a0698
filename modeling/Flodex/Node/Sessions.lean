import Flodex.Node.Stagewise

/-!
# Sessions between clients

Two runs with the same requests of one client, and other prompts of the others. `Agree` is what
the client's sessions and channels have in common in the two; `confidential` says that its replies
are the same as long as no other client's request names a session or a channel that one of its own
does. `disclosed` are two runs where it names a session of another client, and two where it names
a channel of one.
-/

namespace Flodex.Node

open Function

variable {W : Type*}

/-! ## The property -/

/-- The request that arrives or goes on at an event. -/
def requestAt (e : Step W) : Option EncryptedRequest :=
  match e.act with
  | .receive req _ => some req
  | a => a.request.bind fun k => (e.pre.flights k).map Flight.req

/-- A request of the history. -/
def AtWork (h : List (Step W)) (req : EncryptedRequest) : Prop :=
  ∃ e ∈ h, requestAt e = some req

/-- Two requests name a session of the same backend, or a channel. -/
def Shares (req req' : EncryptedRequest) : Prop :=
  (req.backend = req'.backend ∧ req.sessionId = req'.sessionId) ∨
    ∃ id, req.OnChannel id ∧ req'.OnChannel id

variable (keys : String → Bool)

/-- What the client with the keys sees of a request. -/
def seen (f : Option Flight) : Option Flight := f.filter fun f => keys f.req.clientPublicKey

/-- The reply that the client gets to a request. -/
def replyTo (t : State) (k : ℕ) : Option (Except ApiError Reply) :=
  (seen keys (t.flights k)).bind fun f => match f.stage with
    | .done reply => some reply
    | _ => none

/-- The arrivals and the acks, and the progress of the client's own requests. -/
def concerns (e : Step W) : Bool :=
  match e.act with
  | .receive .. => true
  | .ack _ => true
  | .snapshot _ => false
  | a => a.request.any fun k => (seen keys (e.pre.flights k)).isSome

/-- The same action, or the arrival of a request of another client with another plaintext in its
envelope. -/
inductive Alike : Action W → Action W → Prop
  | same (a : Action W) : Alike a a
  | payload {req : EncryptedRequest} {now : ℤ} (nonce ciphertext : String)
    (other : keys req.clientPublicKey = false) :
    Alike (.receive req now)
      (.receive { req with nonce := nonce, ciphertext := ciphertext } now)

/-! ## Frames -/

variable {keys} {cfg : Config W} {s s' t t' : State} {a b : Action W} {k : ℕ}
  {req : EncryptedRequest} {stage : Stage} {step : AgentStep} {now : ℤ} {id : Bytes32}

theorem seen_eq_some {o : Option Flight} {f : Flight} :
    seen keys o = some f ↔ o = some f ∧ keys f.req.clientPublicKey = true :=
  Option.filter_eq_some_iff

theorem seen_of_other {f : Flight} (h : keys f.req.clientPublicKey = false) :
    seen keys (some f) = none := Option.filter_some_neg (by simp [h])

theorem replyTo_of_flight {reply : Except ApiError Reply}
    (hk : t.flights k = some ⟨req, .done reply⟩) (hkeys : keys req.clientPublicKey = true) :
    replyTo keys t k = some reply := by
  rw [replyTo, hk, seen_eq_some.2 ⟨rfl, hkeys⟩]
  rfl

@[simp] theorem passGate_sessions (idHex : String) (deposit cumOwed : ℕ) :
    (passGate s k req step now idHex deposit cumOwed).sessions = s.sessions := by
  unfold passGate
  split <;> rfl

@[simp] theorem gate_sessions : (gate cfg s k req step now).sessions = s.sessions := by
  unfold gate
  split
  · rfl
  · split
    · rfl
    · split
      · exact passGate_sessions ..
      · rfl

@[simp] theorem gateFetched_sessions (cumOwed : ℕ) (returndata : Except String (List UInt8)) :
    (gateFetched cfg s k req step now cumOwed returndata).sessions = s.sessions := by
  unfold gateFetched
  split
  · rfl
  · split
    · rfl
    · split
      · rfl
      · split
        · rfl
        · exact passGate_sessions ..

@[simp] theorem respond_sessions (response : AgentResponse) :
    (respond cfg s k req response now).sessions = s.sessions := by
  unfold respond
  split
  · rfl
  · split <;> rfl

@[simp] theorem receive_sessions : (receive cfg s req now).sessions = s.sessions := by
  unfold receive
  dsimp only
  split <;> rfl

theorem backendStep_sessions (fuel : ℕ) (w : W) {b : BackendType} {sessionId : String}
    (h : ¬ (b = req.backend ∧ sessionId = req.sessionId)) :
    (backendStep cfg s k req step fuel w now).sessions b sessionId = s.sessions b sessionId := by
  have hupdate : ∀ session, update s.sessions req.backend (update (s.sessions req.backend)
      req.sessionId (some session)) b sessionId = s.sessions b sessionId := by
    intro session
    by_cases hb : b = req.backend
    · subst hb
      rw [update_self, update_of_ne fun hs => h ⟨rfl, hs⟩]
    · rw [update_of_ne hb]
  unfold backendStep
  split
  · rfl
  · dsimp only
    split
    · rfl
    · split <;> exact hupdate _

/-- **An action on a request** leaves the other sessions. -/
theorem next_sessions (ha : a.request = some k) (hk : s.flights k = some ⟨req, stage⟩)
    {b : BackendType} {sessionId : String}
    (h : ¬ (b = req.backend ∧ sessionId = req.sessionId)) :
    (next cfg s a).sessions b sessionId = s.sessions b sessionId := by
  cases a with
  | receive | ack | snapshot => simp [Action.request] at ha
  | gate k' now =>
    obtain rfl := Option.some.inj ha
    cases stage <;> simp only [next, hk, gate_sessions]
  | ethCall k' returndata =>
    obtain rfl := Option.some.inj ha
    cases stage <;> simp only [next, hk, State.setStage]
  | gateFetched k' now =>
    obtain rfl := Option.some.inj ha
    cases stage <;> simp only [next, hk, gateFetched_sessions]
  | backendStep k' fuel w now =>
    obtain rfl := Option.some.inj ha
    cases stage <;> simp only [next, hk, backendStep_sessions fuel w h]
  | respond k' now =>
    obtain rfl := Option.some.inj ha
    cases stage <;> simp only [next, hk, respond_sessions]

theorem marks_eq_nil {cfg : ChannelConfig} (ha : a.request = some k)
    (hk : s.flights k = some ⟨req, stage⟩) (hid : ¬ req.OnChannel id) :
    marks cfg id ⟨s, a, t⟩ = [] := by
  have hne : ∀ idHex ∈ req.channelId.toList, ∀ {unset noChannel badAddress chainId channelAddr id'},
      resolveChannel cfg unset noChannel badAddress idHex = .ok (chainId, channelAddr, id') →
        id' ≠ id := by
    rintro idHex hidHex unset noChannel badAddress chainId channelAddr id' hch rfl
    exact hid ⟨idHex, Option.mem_toList.1 hidHex, (resolveChannel_eq_ok.1 hch).2⟩
  unfold marks
  cases a with
  | receive | ack | snapshot => simp [Action.request] at ha
  | gate | ethCall | backendStep => rfl
  | gateFetched k' now =>
    obtain rfl := Option.some.inj ha
    cases stage with
    | fetched step cumOwed returndata =>
      simp only [hk]
      refine List.flatMap_eq_nil_iff.2 fun idHex hidHex => ?_
      unfold cacheMarks
      split
      · rename_i hch _
        rw [if_neg (hne idHex hidHex hch)]
      · rfl
    | opened | asked | admitted | answered | done => simp only [hk]
  | respond k' now =>
    obtain rfl := Option.some.inj ha
    cases stage with
    | answered response =>
      simp only [hk]
      refine List.flatMap_eq_nil_iff.2 fun idHex hidHex => ?_
      unfold receiptMarks
      split
      · rename_i hch _
        rw [if_neg (hne idHex hidHex hch)]
      · rfl
    | opened | asked | fetched | admitted | done => simp only [hk]

/-- **An action on a request** leaves the other channels. -/
theorem next_channels (ha : a.request = some k) (hk : s.flights k = some ⟨req, stage⟩)
    (hid : ¬ req.OnChannel id) :
    (next cfg s a).channels.state id = s.channels.state id := by
  obtain ⟨h, r, hmarks⟩ : Marked cfg.toChannelConfig id _ _ _ := marked_next s a id
  rw [marks_eq_nil ha hk hid] at hmarks
  obtain rfl := List.map_eq_nil_iff.1 hmarks
  exact r.eq_of_nil

/-! ## What the client has -/

variable (keys) in
/-- The sessions and channels of the client. -/
structure Scope where
  session : BackendType → String → Prop
  channel : Bytes32 → Prop

namespace Scope

variable (scope : Scope)

/-- The session and the channel of the request are the client's. -/
def Inside (req : EncryptedRequest) : Prop :=
  scope.session req.backend req.sessionId ∧ ∀ id, req.OnChannel id → scope.channel id

/-- Neither the session nor the channel of the request is the client's. -/
def Outside (req : EncryptedRequest) : Prop :=
  ¬ scope.session req.backend req.sessionId ∧ ∀ id, req.OnChannel id → ¬ scope.channel id

/-- The request of the event is the client's and names what the client has, or neither. -/
def Respects (keys : String → Bool) (e : Step W) : Prop :=
  ∀ req, requestAt e = some req → (keys req.clientPublicKey = true → scope.Inside req) ∧
    (keys req.clientPublicKey = false → scope.Outside req)

end Scope

/-- Two states agree on what the client has and sees. -/
structure Agree (keys : String → Bool) (scope : Scope) (s s' : State) : Prop where
  received : s.received = s'.received
  flights : ∀ k, seen keys (s.flights k) = seen keys (s'.flights k)
  sessions : ∀ b sessionId, scope.session b sessionId →
    s.sessions b sessionId = s'.sessions b sessionId
  channels : ∀ id, scope.channel id → s.channels.state id = s'.channels.state id

namespace Agree

variable {scope : Scope}

theorem refl (keys : String → Bool) (scope : Scope) (s : State) : Agree keys scope s s :=
  ⟨rfl, fun _ => rfl, fun _ _ _ => rfl, fun _ _ => rfl⟩

theorem symm (A : Agree keys scope s s') : Agree keys scope s' s :=
  ⟨A.received.symm, fun k => (A.flights k).symm, fun b i h => (A.sessions b i h).symm,
    fun id h => (A.channels id h).symm⟩

theorem setStage (A : Agree keys scope s s') (k : ℕ) (req : EncryptedRequest) (stage : Stage) :
    Agree keys scope (s.setStage k req stage) (s'.setStage k req stage) := by
  refine ⟨A.received, fun k' => ?_, A.sessions, A.channels⟩
  by_cases h : k' = k
  · subst h
    simp
  · simp only [setStage_flights, update_of_ne h]
    exact A.flights k'

theorem fail (A : Agree keys scope s s') (k : ℕ) (req : EncryptedRequest) (now : ℤ)
    (e : ApiError) : Agree keys scope (s.fail k req now e) (s'.fail k req now e) :=
  let B := A.setStage k req (.done (.error e))
  ⟨B.received, B.flights, B.sessions, B.channels⟩

theorem reply (A : Agree keys scope s s') (response : AgentResponse)
    (receipt : Option NodeSignedReceipt) :
    Agree keys scope (reply s k req response receipt now)
      (reply s' k req response receipt now) :=
  let B := A.setStage k req (.done (.ok ⟨req.sessionId, response, receipt⟩))
  ⟨B.received, B.flights, B.sessions, B.channels⟩

theorem withChannels (A : Agree keys scope s s') {channels channels' : ChannelMap}
    (h : ∀ id, scope.channel id → channels.state id = channels'.state id) :
    Agree keys scope { s with channels := channels } { s' with channels := channels' } :=
  ⟨A.received, A.flights, A.sessions, h⟩

theorem state_update_congr {channels channels' : ChannelMap} {id' : Bytes32} {c : ChannelState}
    (h : channels.state id' = channels'.state id') :
    ChannelMap.state (update channels id (some c)) id' =
      ChannelMap.state (update channels' id (some c)) id' := by
  by_cases hid : id' = id
  · subst hid
    rw [state_update_self, state_update_self]
  · rw [state_update_of_ne _ _ hid, state_update_of_ne _ _ hid, h]

theorem passGate (A : Agree keys scope s s') (idHex : String) (deposit cumOwed : ℕ) :
    Agree keys scope (passGate s k req step now idHex deposit cumOwed)
      (passGate s' k req step now idHex deposit cumOwed) := by
  unfold Node.passGate
  split
  · exact A.setStage ..
  · exact A.fail ..

theorem gate (A : Agree keys scope s s') (hreq : scope.Inside req) :
    Agree keys scope (gate cfg s k req step now) (gate cfg s' k req step now) := by
  unfold Node.gate
  split
  · exact A.setStage ..
  · rename_i idHex hbound
    split
    · exact A.fail ..
    · rename_i hch
      have hid := hreq.2 _ ⟨idHex, hbound, (resolveChannel_eq_ok.1 hch).2⟩
      rw [gateRead_eq, gateRead_eq, A.channels _ hid]
      split
      · exact A.passGate ..
      · exact A.setStage ..

theorem gateFetched (A : Agree keys scope s s') (cumOwed : ℕ)
    (returndata : Except String (List UInt8)) :
    Agree keys scope (gateFetched cfg s k req step now cumOwed returndata)
      (gateFetched cfg s' k req step now cumOwed returndata) := by
  unfold Node.gateFetched
  split
  · exact A
  · split
    · exact A.fail ..
    · rename_i id _
      split
      · exact A.fail ..
      · split
        · exact A.fail ..
        · refine (A.withChannels fun id' hid' => ?_).passGate ..
          unfold cacheDeposit
          by_cases h : id' = id
          · subst h
            rw [state_update_self, state_update_self, A.channels _ hid']
          · rw [state_update_of_ne _ _ h, state_update_of_ne _ _ h, A.channels _ hid']

theorem backendStep (A : Agree keys scope s s') (hreq : scope.Inside req) (fuel : ℕ) (w : W) :
    Agree keys scope (backendStep cfg s k req step fuel w now)
      (backendStep cfg s' k req step fuel w now) := by
  unfold Node.backendStep
  split
  · exact A.fail ..
  · dsimp only
    rw [A.sessions _ _ hreq.1]
    split
    · exact A
    · rename_i r session w' _
      have B : Agree keys scope
          { s with
            sessions := update s.sessions req.backend
              (update (s.sessions req.backend) req.sessionId (some session)) }
          { s' with
            sessions := update s'.sessions req.backend
              (update (s'.sessions req.backend) req.sessionId (some session)) } := by
        refine ⟨A.received, A.flights, fun b sessionId h => ?_, A.channels⟩
        by_cases hb : b = req.backend
        · subst hb
          by_cases hs : sessionId = req.sessionId
          · subst hs
            simp
          · simpa [update_of_ne hs] using A.sessions _ _ h
        · simpa [update_of_ne hb] using A.sessions _ _ h
      split
      · exact B.fail ..
      · exact B.setStage ..

theorem buildReceipt_congr (cfg : ChannelConfig) {channels channels' : ChannelMap}
    {C : Bytes32 → Prop} (h : ∀ id, C id → channels.state id = channels'.state id)
    {idHex : String} (hid : ∀ id, channelIdFromHex idHex = .ok id → C id) (backend : BackendType)
    (sessionId : String) (usage : Usage) (prevAck : Option ClientAck) :
    (buildReceipt cfg channels idHex backend sessionId usage prevAck).2 =
        (buildReceipt cfg channels' idHex backend sessionId usage prevAck).2 ∧
      ∀ id, C id →
        (buildReceipt cfg channels idHex backend sessionId usage prevAck).1.state id =
          (buildReceipt cfg channels' idHex backend sessionId usage prevAck).1.state id := by
  unfold buildReceipt
  split
  · exact ⟨rfl, h⟩
  · rename_i hch
    dsimp only
    rw [h _ (hid _ (resolveChannel_eq_ok.1 hch).2)]
    split
    · exact ⟨rfl, fun id' hC => state_update_congr (h id' hC)⟩
    · split
      · exact ⟨rfl, fun id' hC => state_update_congr (h id' hC)⟩
      · exact ⟨rfl, fun id' hC => state_update_congr (h id' hC)⟩

theorem respond (A : Agree keys scope s s') (hreq : scope.Inside req) (response : AgentResponse) :
    Agree keys scope (respond cfg s k req response now) (respond cfg s' k req response now) := by
  unfold Node.respond
  split
  · exact A.reply ..
  · rename_i idHex hbound
    obtain ⟨hresult, hchannels⟩ := buildReceipt_congr cfg.toChannelConfig A.channels
      (fun id hid => hreq.2 id ⟨idHex, hbound, hid⟩) req.backend req.sessionId response.usage
      req.prevAck
    generalize buildReceipt cfg.toChannelConfig s.channels idHex req.backend req.sessionId
      response.usage req.prevAck = r at hresult hchannels ⊢
    generalize buildReceipt cfg.toChannelConfig s'.channels idHex req.backend req.sessionId
      response.usage req.prevAck = r' at hresult hchannels ⊢
    obtain ⟨channels, r⟩ := r
    obtain ⟨channels', r'⟩ := r'
    obtain rfl : r = r' := hresult
    cases r with
    | error e => exact (A.withChannels hchannels).fail ..
    | ok receipt => exact (A.withChannels hchannels).reply ..

theorem ack_congr (cfg : ChannelConfig) {channels channels' : ChannelMap} (a : ClientAck)
    (h : channels.state id = channels'.state id) :
    (ack cfg channels a).1.state id = (ack cfg channels' a).1.state id := by
  unfold ack
  split
  · exact h
  · rename_i id' _
    dsimp only
    by_cases hid : id = id'
    · subst hid
      rw [h]
      split <;> rw [state_update_self, state_update_self]
    · split <;> split <;> rw [state_update_of_ne _ _ hid, state_update_of_ne _ _ hid, h]

theorem receive (A : Agree keys scope s s') (req : EncryptedRequest) (now : ℤ) :
    Agree keys scope (receive cfg s req now) (receive cfg s' req now) := by
  have B : Agree keys scope
      { s with
        received := s.received + 1
        activity := s.activity.beginStep now req.sessionId req.backend }
      { s' with
        received := s'.received + 1
        activity := s'.activity.beginStep now req.sessionId req.backend } :=
    ⟨congrArg (· + 1) A.received, A.flights, A.sessions, A.channels⟩
  unfold Node.receive
  dsimp only
  rw [A.received] at B ⊢
  split
  · exact B.setStage ..
  · exact B.fail ..
  · exact B.fail ..

/-- Requests of another client arrive. -/
theorem receive_other (A : Agree keys scope s s') {req' : EncryptedRequest}
    (hreq : keys req.clientPublicKey = false) (hreq' : keys req'.clientPublicKey = false) :
    Agree keys scope (Node.receive cfg s req now) (Node.receive cfg s' req' now) := by
  obtain ⟨hflights, hreceived⟩ := receive_spec cfg s req now
  obtain ⟨hflights', hreceived'⟩ := receive_spec cfg s' req' now
  refine ⟨by rw [hreceived, hreceived', A.received], fun k => ?_, fun b sessionId h => ?_,
    fun id h => ?_⟩
  · rw [hflights, hflights', A.received]
    by_cases hk : k = s'.received
    · subst hk
      rw [update_self, update_self, seen_of_other hreq, seen_of_other hreq']
    · rw [update_of_ne hk, update_of_ne hk, A.flights k]
  · rw [receive_sessions, receive_sessions, A.sessions b sessionId h]
  · rw [receive_channels, receive_channels, A.channels id h]

/-- **An event that does not concern the client** leaves what it has. -/
theorem left (A : Agree keys scope s s') (hrespects : scope.Respects keys ⟨s, a, next cfg s a⟩)
    (hconcerns : concerns keys ⟨s, a, next cfg s a⟩ = false) :
    Agree keys scope (next cfg s a) s' := by
  cases ha : a.request with
  | none =>
    cases a with
    | receive | ack => simp [concerns] at hconcerns
    | snapshot now => exact ⟨A.received, A.flights, A.sessions, A.channels⟩
    | gate | ethCall | gateFetched | backendStep | respond => simp [Action.request] at ha
  | some k =>
    rcases next_request cfg s ha with hidle | ⟨req, stage, stage', hk, -, hflights, hreceived⟩
    · rw [hidle]
      exact A
    · have hat : requestAt ⟨s, a, next cfg s a⟩ = some req := by
        cases a <;> simp_all [requestAt, Action.request]
      have hkeys : keys req.clientPublicKey = false := by
        cases a <;> simp_all [concerns, Action.request, seen]
      obtain ⟨hsession, hchannel⟩ := (hrespects req hat).2 hkeys
      refine ⟨hreceived.trans A.received, fun k' => ?_, fun b sessionId h => ?_, fun id h => ?_⟩
      · rw [hflights]
        by_cases hkk : k' = k
        · subst hkk
          rw [update_self, ← A.flights, hk, seen_of_other hkeys, seen_of_other hkeys]
        · rw [update_of_ne hkk]
          exact A.flights k'
      · rw [next_sessions ha hk (by rintro ⟨rfl, rfl⟩; exact hsession h)]
        exact A.sessions b sessionId h
      · rw [next_channels ha hk fun hid => hchannel id hid h]
        exact A.channels id h

/-- The same actions concern the client. -/
theorem concerns_eq (A : Agree keys scope s s') (a : Action W) :
    concerns keys ⟨s, a, t⟩ = concerns keys ⟨s', a, t'⟩ := by
  cases a <;> simp only [concerns, Action.request, Option.any_some, A.flights]

/-- An event that concerns the client is on one of its requests, unless it is an arrival or an
ack. -/
theorem own_flight (A : Agree keys scope s s') (ha : a.request = some k)
    (hconcerns : concerns keys ⟨s, a, t⟩ = true) : ∃ req stage,
      s.flights k = some ⟨req, stage⟩ ∧ s'.flights k = some ⟨req, stage⟩ ∧
        keys req.clientPublicKey = true ∧ requestAt ⟨s, a, t⟩ = some req := by
  have hsome : (seen keys (s.flights k)).isSome = true := by
    cases a <;> simp_all [concerns, Action.request]
  obtain ⟨f, hf⟩ := Option.isSome_iff_exists.1 hsome
  obtain ⟨hk, hkeys⟩ := seen_eq_some.1 hf
  obtain ⟨hk', -⟩ := seen_eq_some.1 ((A.flights k).symm.trans hf)
  refine ⟨f.req, f.stage, hk, hk', hkeys, ?_⟩
  cases a <;> simp_all [requestAt, Action.request]

/-- **An action that concerns the client** does the same to what it has. -/
theorem same (A : Agree keys scope s s') (hrespects : scope.Respects keys ⟨s, a, next cfg s a⟩)
    (hconcerns : concerns keys ⟨s, a, next cfg s a⟩ = true) :
    Agree keys scope (next cfg s a) (next cfg s' a) := by
  cases ha : a.request with
  | none =>
    cases a with
    | receive req now => exact A.receive req now
    | ack a => exact A.withChannels fun id h => ack_congr _ a (A.channels id h)
    | snapshot => simp [concerns] at hconcerns
    | gate | ethCall | gateFetched | backendStep | respond => simp [Action.request] at ha
  | some k =>
    obtain ⟨req, stage, hk, hk', hkeys, hat⟩ := A.own_flight ha hconcerns
    have hin := (hrespects req hat).1 hkeys
    have S : Stagewise cfg (Agree keys scope) s s' k k req stage :=
      { left := hk
        right := hk'
        idle := A
        setStage := A.setStage k req
        gate := fun _ _ => A.gate hin
        gateFetched := fun _ _ => A.gateFetched
        backendStep := fun _ fuel w _ => A.backendStep hin fuel w
        respond := fun response _ => A.respond hin response }
    have hnext := S.next ha
    rwa [onRequest_self ha] at hnext

/-- **Alike actions** do the same to what the client has. -/
theorem both (A : Agree keys scope s s') (hleft : scope.Respects keys ⟨s, a, next cfg s a⟩)
    (hright : scope.Respects keys ⟨s', b, next cfg s' b⟩) (halike : Alike keys a b) :
    Agree keys scope (next cfg s a) (next cfg s' b) := by
  cases halike with
  | payload nonce ciphertext other => exact A.receive_other other other
  | same =>
    cases hconcerns : concerns keys ⟨s, a, next cfg s a⟩ with
    | true => exact A.same hleft hconcerns
    | false =>
      have hconcerns' : concerns keys ⟨s', a, next cfg s' a⟩ = false :=
        (A.concerns_eq a).symm.trans hconcerns
      exact ((A.left hleft hconcerns).symm.left hright hconcerns').symm

end Agree

/-! ## Confidentiality -/

/-- The sessions and channels that the client's requests name. -/
def scopeOf (keys : String → Bool) (h : List (Step W)) : Scope where
  session b sessionId := ∃ req, AtWork h req ∧ keys req.clientPublicKey = true ∧
    req.backend = b ∧ req.sessionId = sessionId
  channel id := ∃ req, AtWork h req ∧ keys req.clientPublicKey = true ∧ req.OnChannel id

variable {h h' : List (Step W)}

theorem respects_scopeOf
    (hapart : ∀ req req', AtWork h req → AtWork h req' → keys req.clientPublicKey = true →
      keys req'.clientPublicKey = false → ¬ Shares req req') {e : Step W} (he : e ∈ h) :
    (scopeOf keys h).Respects keys e := by
  intro req hreq
  have hwork : AtWork h req := ⟨e, he, hreq⟩
  constructor
  · intro hkeys
    exact ⟨⟨req, hwork, hkeys, rfl, rfl⟩, fun id hid => ⟨req, hwork, hkeys, hid⟩⟩
  · intro hkeys
    constructor
    · rintro ⟨own, hown, hkeys', hbackend, hsession⟩
      exact hapart own req hown hwork hkeys' hkeys (.inl ⟨hbackend, hsession⟩)
    · rintro id hid ⟨own, hown, hkeys', hid'⟩
      exact hapart own req hown hwork hkeys' hkeys (.inr ⟨id, hid', hid⟩)

/-- **Confidentiality**: in two runs with the same requests of a client, and other plaintexts of
the others, the client gets the same replies, as long as no other client's request names a session
or a channel that one of its own does. The providers and the tools are functions of what they
are asked. -/
theorem confidential {cfg : Config Unit} {h h' : List (Step Unit)} (r : Run (machine cfg) s h t)
    (r' : Run (machine cfg) s h' t')
    (halike : Run.Aligned (Alike keys) (fun e => concerns keys e) (fun e => concerns keys e) h h')
    (hapart : ∀ req req', AtWork (h ++ h') req → AtWork (h ++ h') req' →
      keys req.clientPublicKey = true → keys req'.clientPublicKey = false → ¬ Shares req req')
    (k : ℕ) : replyTo keys t k = replyTo keys t' k := by
  have hleft : ∀ e ∈ h, (scopeOf keys (h ++ h')).Respects keys e := fun e he =>
    respects_scopeOf hapart (List.mem_append_left _ he)
  have hright : ∀ e ∈ h', (scopeOf keys (h ++ h')).Respects keys e := fun e he =>
    respects_scopeOf hapart (List.mem_append_right _ he)
  have A : Agree keys (scopeOf keys (h ++ h')) t t' := by
    refine Run.unwind (Agree keys (scopeOf keys (h ++ h'))) r r' halike hleft hright
      (Agree.refl keys _ s) ?_ ?_ ?_
    · intro t t' a A hrespects hconcerns
      exact A.left hrespects (Bool.eq_false_iff.2 hconcerns)
    · intro t t' a A hrespects hconcerns
      exact (A.symm.left hrespects (Bool.eq_false_iff.2 hconcerns)).symm
    · intro t t' a b A hleft hright halike
      exact A.both hleft hright halike
  unfold replyTo
  rw [A.flights k]

/-- A request of a run of a new node arrived in it. -/
theorem received_of_flight (r : Run (machine cfg) .start h t)
    (hk : t.flights k = some ⟨req, stage⟩) : ∃ e ∈ h, ∃ now, e.act = .receive req now := by
  refine request_invariant (fun h _ req _ => ∃ e ∈ h, ∃ now, e.act = .receive req now)
    (fun _ _ => True) r (fun _ _ _ _ => trivial) ?_ ?_ ?_ hk
  · intro h t req now _
    exact ⟨_, List.mem_append_right _ (.head _), now, rfl⟩
  · intro h t a k req stage _ ih _
    obtain ⟨e, he, hact⟩ := ih
    exact ⟨e, List.mem_append_left _ he, hact⟩
  · intro h t a k req stage stage' _ _ _ ih _ _
    obtain ⟨e, he, hact⟩ := ih
    exact ⟨e, List.mem_append_left _ he, hact⟩

theorem received_of_atWork (r : Run (machine cfg) .start h t) (hwork : AtWork h req) :
    ∃ e ∈ h, ∃ now, e.act = .receive req now := by
  obtain ⟨⟨s, a, s'⟩, he, hat⟩ := hwork
  cases a with
  | receive req' now =>
    obtain rfl : req' = req := by simpa [requestAt] using hat
    exact ⟨_, he, now, rfl⟩
  | ack | snapshot => simp [requestAt, Action.request] at hat
  | gate | ethCall | gateFetched | backendStep | respond =>
    simp only [requestAt, Action.request, Option.bind_some, Option.map_eq_some_iff] at hat
    obtain ⟨f, hf, rfl⟩ := hat
    obtain ⟨h₁, h₂, rfl⟩ := List.append_of_mem he
    obtain ⟨e, he, hact⟩ := received_of_flight r.split.1 hf
    exact ⟨e, List.mem_append_left _ he, hact⟩

/-! ## Two clients -/

namespace Deployment

/-- A prompt without a channel, up to its reply. -/
def roundTrip (k : ℕ) (key : Bytes32) (sessionId : String) (text : List UInt8) :
    List (Action Unit) :=
  [.receive (prompt key sessionId text none) 0, .gate k 0, .backendStep k 1 () 0, .respond k 0]

/-- A prompt is answered in its session. -/
theorem roundTrip_spec {agent : AgentLoop Unit} {s : State} {k : ℕ} (hk : s.received = k)
    (key : Bytes32) (sessionId : String) (text : List UInt8) {outcome : AgentStepOutcome}
    {session : List Value}
    (hstep : agent.step 1 () ((s.sessions .Local sessionId).getD []) (.ofStep (stepOf text)) =
      some (.ok outcome, session, ())) :
    let t := (machine (node agent)).final s (roundTrip k key sessionId text)
    t.received = k + 1 ∧ t.sessions .Local sessionId = some session ∧
      t.channels = s.channels ∧ t.flights = update s.flights k
        (some ⟨prompt key sessionId text none,
          .done (.ok ⟨sessionId, outcome.toResponse, none⟩)⟩) := by
  subst hk
  obtain ⟨hflights, hreceived⟩ := next_receive (node agent) s 0
    (openRequest_prompt agent key sessionId text none) rfl
  have hsessions : (next (node agent) s
      (.receive (prompt key sessionId text none) 0)).sessions = s.sessions := receive_sessions
  have hchannels : (next (node agent) s
      (.receive (prompt key sessionId text none) 0)).channels = s.channels := receive_channels ..
  simp only [roundTrip, Machine.final, List.foldl_cons, List.foldl_nil, machine]
  generalize next (node agent) s (.receive (prompt key sessionId text none) 0) = s₁ at *
  rw [next_gate_unbound 0 (by rw [hflights, update_self]) rfl]
  rw [next_backendStep (node agent) 0 (by rw [setStage_flights, update_self]) rfl
    (by rw [State.setStage, hsessions]; exact hstep)]
  rw [next_respond_free 0 (by rw [setStage_flights, update_self]) rfl]
  refine ⟨hreceived, ?_, hchannels, ?_⟩
  · change update s₁.sessions .Local (update (s₁.sessions .Local) sessionId (some session)) .Local
      sessionId = some session
    rw [update_self, update_self]
  · simp only [reply_flights, setStage_flights, hflights, update_idem]
    rfl

/-- What the first message of a session says. -/
def firstContent : List Value → List Value
  | [] => []
  | m :: _ => match m.get "content" with
    | some (.array items) => items
    | _ => []

/-- An agent that repeats the first message of the session. -/
def echo : AgentLoop Unit :=
  { parrot with
    provider := fun w req =>
      (.ok ⟨firstContent req.messages, "end_turn", ⟨10, 0, none, none⟩⟩, w) }

theorem extractText_firstContent (text : String) (rest : List Value) :
    extractText (firstContent (inputToUserMessage (.prompt text) :: rest)) = text := by
  simp [extractText, firstContent, inputToUserMessage, message, Value.get, Value.getStr,
    Value.asStr]

theorem step_echo (session : List Value) (input : AgentStepInput) {rest : List Value}
    {text : String}
    (h : session ++ [inputToUserMessage input] = inputToUserMessage (.prompt text) :: rest) :
    ∃ rest', echo.step 1 () session input = some (.ok (.final text ⟨10, 0, none, none⟩),
      inputToUserMessage (.prompt text) :: rest', ()) := by
  refine ⟨rest ++ [message "assistant"
    (firstContent (inputToUserMessage (.prompt text) :: rest))], ?_⟩
  rw [AgentLoop.step, h]
  simp only [AgentLoop.steps, AgentLoop.turn, AgentLoop.respond, AgentLoop.request, echo,
    extractText_firstContent, if_true]
  rfl

/-- The key of the other client, and the key of the client. -/
def theirKey : Bytes32 := .replicate 32 3

def ownKey : Bytes32 := .replicate 32 4

def ownKeys (key : String) : Bool := key = (prompt ownKey "" [] none).clientPublicKey

theorem ownKeys_theirs (sessionId : String) (text : List UInt8) (channelId : Option String) :
    ownKeys (prompt theirKey sessionId text channelId).clientPublicKey = false := by
  have hne : Text.hexEncode theirKey.toList ≠ Text.hexEncode ownKey.toList := by decide
  refine decide_eq_false fun h => hne ?_
  exact String.ofList_injective h

theorem ownKeys_own (sessionId : String) (text : List UInt8) (channelId : Option String) :
    ownKeys (prompt ownKey sessionId text channelId).clientPublicKey = true := decide_eq_true rfl

/-- The other client's prompt in a session, and then the client's own in the same one. -/
def sharedSession (text : List UInt8) : List (Action Unit) :=
  roundTrip 0 theirKey "session" text ++ roundTrip 1 ownKey "session" [63]

/-- The client is told what the other one said. -/
theorem replyTo_sharedSession (text : List UInt8) (said : String)
    (hsaid : stepOf text = .prompt said) :
    replyTo ownKeys (final echo (sharedSession text)) 1 =
      some (.ok ⟨"session", .final said ⟨10, 0, none, none⟩, none⟩) := by
  have hfirst : [] ++ [inputToUserMessage (.ofStep (stepOf text))] =
      [inputToUserMessage (.prompt said)] := by
    rw [hsaid]
    rfl
  obtain ⟨rest, hstep⟩ := step_echo [] _ hfirst
  obtain ⟨hreceived, hsession, -, -⟩ :=
    roundTrip_spec (s := .start) (k := 0) rfl theirKey "session" text hstep
  rw [final, sharedSession, Machine.final_append]
  generalize (machine (node echo)).final .start (roundTrip 0 theirKey "session" text) = s₁
    at hreceived hsession ⊢
  -- the client's prompt comes after what the other one said
  obtain ⟨rest', hstep'⟩ := step_echo (inputToUserMessage (.prompt said) :: rest)
    (.ofStep (stepOf [63])) rfl
  obtain ⟨-, -, -, hflights⟩ := roundTrip_spec hreceived ownKey "session" [63]
    (by rw [hsession]; exact hstep')
  exact replyTo_of_flight ((congrFun hflights 1).trans (update_self ..)) (ownKeys_own ..)

/-- Two runs of the same actions up to the other client's plaintexts are aligned. -/
theorem aligned_trace {agent : AgentLoop Unit} {as as' : List (Action Unit)}
    (h : List.Forall₂ (Alike ownKeys) as as') :
    Run.Aligned (Alike ownKeys) (fun e => concerns ownKeys e) (fun e => concerns ownKeys e)
      (trace agent as) (trace agent as') := by
  refine Run.aligned_of_forall₂ ?_
  rw [trace, trace, Machine.map_act_trace, Machine.map_act_trace]
  exact h

theorem alike_refl (as : List (Action Unit)) : List.Forall₂ (Alike ownKeys) as as :=
  List.forall₂_same.2 fun a _ => .same a

theorem alike_theirs (sessionId : String) (text text' : List UInt8) (channelId : Option String)
    (as : List (Action Unit)) : List.Forall₂ (Alike ownKeys)
      (.receive (prompt theirKey sessionId text channelId) 0 :: as)
      (.receive (prompt theirKey sessionId text' channelId) 0 :: as) :=
  .cons (.payload _ _ (ownKeys_theirs ..)) (alike_refl as)

/-- What the last message of a session says. -/
def lastContent (messages : List Value) : List Value := firstContent messages.reverse

/-- An agent that answers every prompt, for a token for each of its characters. -/
def metered : AgentLoop Unit :=
  { parrot with
    provider := fun w req => (.ok ⟨[], "end_turn",
      ⟨UInt32.ofNat (extractText (lastContent req.messages)).length, 0, none, none⟩⟩, w) }

theorem step_metered (session : List Value) {text : List UInt8} {n : ℕ} (hn : text.length = n) :
    ∃ session' w', metered.step 1 () session (.ofStep (stepOf text)) =
      some (.ok (.final "" (Usage.zero.add ⟨UInt32.ofNat n, 0, none, none⟩)), session', w') := by
  have hlast : extractText (lastContent (session ++
      [inputToUserMessage (.ofStep (stepOf text))])) =
      String.ofList (text.map fun b => Char.ofNat b.toNat) := by
    rw [lastContent, List.reverse_append]
    exact extractText_firstContent ..
  refine ⟨session ++ [inputToUserMessage (.ofStep (stepOf text))] ++ [message "assistant" []], (),
    ?_⟩
  simp only [AgentLoop.step, AgentLoop.steps, AgentLoop.turn, AgentLoop.respond,
    AgentLoop.request, metered, hlast, String.length_ofList, List.length_map, hn, if_true]
  rfl

/-- The other client's prompt on the channel, and the arrival of the client's own. -/
def theirs (text : List UInt8) : List (Action Unit) :=
  [.receive (bound theirKey "theirs" text) 0, .gate 0 0, .ethCall 0 (.ok (returndata 60)),
    .gateFetched 0 0, .backendStep 0 1 () 0, .respond 0 0, .receive (bound ownKey "own" [63]) 0]

/-- The two clients on the same channel. -/
def sharedChannel (text : List UInt8) : List (Action Unit) :=
  theirs text ++ [.gate 1 0] ++ [.backendStep 1 1 () 0] ++ [.respond 1 0]

/-- The other client's prompt is charged by its length. -/
theorem standing_theirs {text : List UInt8} {n : ℕ} (hn : text.length = n) (cost : ℕ)
    (hcost : roundTripCost (Usage.zero.add ⟨UInt32.ofNat n, 0, none, none⟩) 1000 = cost) :
    ∃ flights receipt, Standing metered (theirs text) flights 2
        ([] ++ [.cached 60] ++ [.issued receipt cost]) ∧
      flights 1 = some ⟨bound ownKey "own" [63], .opened (stepOf [63])⟩ := by
  have S₁ := ((standing_nil metered).arrive theirKey "theirs" text _).ask (update_self ..) rfl
  have S₂ := (S₁.ethCall (update_self ..) (.ok (returndata 60))).fetch (update_self ..)
    (decode_returndata (by omega)) (by decide)
  obtain ⟨receipt, S₃, -, -⟩ := (S₂.answer (update_self ..) fun session =>
    step_metered session hn).respond (update_self ..)
  subst hcost
  have S₄ := S₃.arrive ownKey "own" [63] (some (hexText JobChannel.Deployment.channelId.toList))
  simp only [List.nil_append, List.cons_append] at S₄
  exact ⟨_, receipt, S₄, update_self ..⟩

/-- The client is answered after a short prompt of the other one. -/
theorem replyTo_sharedChannel_short (text : List UInt8) (hn : text.length = 2) :
    ∃ reply, replyTo ownKeys (final metered (sharedChannel text)) 1 = some (.ok reply) := by
  obtain ⟨flights, receipt, S, hk⟩ := standing_theirs hn 2 rfl
  have S₁ := S.pass (d := 60) hk rfl (show 2 < 60 by omega)
  obtain ⟨receipt', S₂, -, -⟩ := (S₁.answer (update_self ..) fun session =>
    step_metered session (n := 1) rfl).respond (update_self ..)
  have S₃ : Standing metered (sharedChannel text) _ _ _ := S₂
  have hflight : (final metered (sharedChannel text)).flights 1 = _ :=
    (congrFun S₃.flights_eq 1).trans (update_self ..)
  exact ⟨_, replyTo_of_flight hflight (ownKeys_own ..)⟩

/-- The client is refused after a long one. -/
theorem replyTo_sharedChannel_long (text : List UInt8) (hn : text.length = 60) :
    ∃ e, replyTo ownKeys (final metered (sharedChannel text)) 1 = some (.error e) := by
  obtain ⟨flights, receipt, S, hk⟩ := standing_theirs hn 60 rfl
  obtain ⟨msg, S₁⟩ := S.exhaust (d := 60) hk rfl (show 60 ≤ 60 from le_rfl)
  have S₂ := (S₁.idle (update_self ..) (a := .backendStep 1 1 () 0) rfl).idle (update_self ..)
    (a := .respond 1 0) rfl
  have S₃ : Standing metered (sharedChannel text) _ _ _ := S₂
  have hflight : (final metered (sharedChannel text)).flights 1 = _ :=
    (congrFun S₃.flights_eq 1).trans (update_self ..)
  exact ⟨_, replyTo_of_flight hflight (ownKeys_own ..)⟩

/-- The two clients in sessions of their own. -/
def ownSessions (text : List UInt8) : List (Action Unit) :=
  roundTrip 0 theirKey "theirs" text ++ roundTrip 1 ownKey "own" [63]

theorem atWork_ownSessions {text : List UInt8} {req : EncryptedRequest}
    (h : AtWork (trace echo (ownSessions text)) req) :
    req = prompt theirKey "theirs" text none ∨ req = prompt ownKey "own" [63] none := by
  obtain ⟨e, he, now, hact⟩ := received_of_atWork (run echo (ownSessions text)) h
  have hmem := ((machine (node echo)).mem_trace .start (ownSessions text) _).1 ⟨e, he, hact⟩
  simp only [ownSessions, roundTrip, List.cons_append, List.nil_append, List.mem_cons,
    Action.receive.injEq, reduceCtorEq, List.not_mem_nil, false_or, or_false] at hmem
  exact hmem.imp And.left And.left

end Deployment

open Deployment

theorem confidential_ownSessions : replyTo ownKeys (final echo (ownSessions [104, 105])) 1 =
    replyTo ownKeys (final echo (ownSessions [104, 111])) 1 := by
  refine confidential (run echo _) (run echo _) (aligned_trace (alike_theirs ..)) ?_ 1
  intro req req' hreq hreq' hown hother hshares
  have hcases : ∀ req, AtWork (trace echo (ownSessions [104, 105]) ++
      trace echo (ownSessions [104, 111])) req → req = prompt ownKey "own" [63] none ∨
        ∃ text, req = prompt theirKey "theirs" text none := by
    rintro req ⟨e, he, hat⟩
    rcases List.mem_append.1 he with he | he
    · exact (atWork_ownSessions ⟨e, he, hat⟩).symm.imp_right fun h => ⟨_, h⟩
    · exact (atWork_ownSessions ⟨e, he, hat⟩).symm.imp_right fun h => ⟨_, h⟩
  rcases hcases req hreq with rfl | ⟨text, rfl⟩
  · rcases hcases req' hreq' with rfl | ⟨text, rfl⟩
    · simp [ownKeys_own] at hother
    · rcases hshares with ⟨-, hsession⟩ | ⟨id, ⟨idHex, hidHex, -⟩, -⟩
      · exact absurd (show "own" = "theirs" from hsession) (by decide)
      · simp [prompt] at hidHex
  · simp [ownKeys_theirs] at hown

/-- **What a client gets shows what another one said**, when it names a session of the other, and
whether the other one said much, when it names a channel of the other. -/
theorem disclosed :
    (Run.Aligned (Alike ownKeys) (fun e => concerns ownKeys e) (fun e => concerns ownKeys e)
        (trace echo (sharedSession [104, 105])) (trace echo (sharedSession [104, 111])) ∧
      replyTo ownKeys (final echo (sharedSession [104, 105])) 1 ≠
        replyTo ownKeys (final echo (sharedSession [104, 111])) 1) ∧
    (Run.Aligned (Alike ownKeys) (fun e => concerns ownKeys e) (fun e => concerns ownKeys e)
        (trace metered (sharedChannel (.replicate 2 104)))
        (trace metered (sharedChannel (.replicate 60 104))) ∧
      replyTo ownKeys (final metered (sharedChannel (.replicate 2 104))) 1 ≠
        replyTo ownKeys (final metered (sharedChannel (.replicate 60 104))) 1) := by
  refine ⟨⟨aligned_trace (alike_theirs ..), ?_⟩, aligned_trace (alike_theirs ..), ?_⟩
  · rw [replyTo_sharedSession [104, 105] "hi" rfl, replyTo_sharedSession [104, 111] "ho" rfl]
    simp
  · obtain ⟨reply, hreply⟩ := replyTo_sharedChannel_short (.replicate 2 104) rfl
    obtain ⟨e, he⟩ := replyTo_sharedChannel_long (.replicate 60 104) rfl
    rw [hreply, he]
    simp

end Flodex.Node
