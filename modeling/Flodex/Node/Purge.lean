import Flodex.Foundations.Values
import Flodex.Node.LastAcks
import Flodex.Node.Sessions
import Flodex.Node.Signers

/-!
# A client among strangers

`purge` keeps of a history what concerns one client: the actions on its own requests, numbered as
if no one else had sent any, and the acks that tell the node whose signatures count on its channels.
`purged` says that the client's requests fare in the history as they do in the run of these actions
alone, as long as no request of a stranger names a session or a channel of the client; so two
histories with the same purge are the same to the client.
-/

namespace Flodex.Node

open Function

variable {W : Type*}

/-! ## The purge of a history -/

/-- The client's requests among those that arrived before the `k`-th. -/
def ownBefore (keys : String → Bool) (s : State) (k : ℕ) : List Flight :=
  values (fun j => seen keys (s.flights j)) k

/-- The client's requests, in the order they arrived, and how far they got. -/
def ownFlights (keys : String → Bool) (s : State) : List Flight := ownBefore keys s s.received

variable (cfg : Config W) (keys : String → Bool) (scope : Scope)

/-- The node learns from the ack whose signatures count on a channel of the client. -/
def learnsFrom [DecidablePred scope.channel] (channels : ChannelMap) (a : ClientAck) : Bool :=
  match ackChannel cfg.toChannelConfig a with
  | .ok (_, _, id) =>
    scope.channel id && ((ack cfg.toChannelConfig channels a).1.state id).clientAddress ≠
      (channels.state id).clientAddress
  | .error _ => false

/-- The action of the event, if it concerns the client. -/
def ownAction [DecidablePred scope.channel] (e : Step W) : Option (Action W) :=
  match e.act with
  | .receive req now => if keys req.clientPublicKey then some (.receive req now) else none
  | .ack a => if learnsFrom cfg scope e.pre.channels a then some (.ack a) else none
  | .snapshot _ => none
  | a => a.request.bind fun k => (seen keys (e.pre.flights k)).map fun _ =>
    a.onRequest (ownBefore keys e.pre k).length

/-- What concerns the client. -/
def purge [DecidablePred scope.channel] (h : List (Step W)) : List (Action W) :=
  h.filterMap (ownAction cfg keys scope)

variable {cfg keys scope} {s t u : State} {a : Action W} {j k : ℕ} {req : EncryptedRequest}
  {stage : Stage} {step : AgentStep} {now : ℤ} {h h' : List (Step W)}

/-! ## The number of a request -/

/-- The states are the same to a request, up to its number. -/
structure Similar (k j : ℕ) (u t : State) : Prop where
  sessions : u.sessions = t.sessions
  channels : u.channels = t.channels
  flight : u.flights k = t.flights j

namespace Similar

theorem setStage (S : Similar k j u t) (req : EncryptedRequest) (stage : Stage) :
    Similar k j (u.setStage k req stage) (t.setStage j req stage) :=
  ⟨S.sessions, S.channels, by rw [setStage_flights, setStage_flights, update_self, update_self]⟩

theorem fail (S : Similar k j u t) (req : EncryptedRequest) (now : ℤ) (e : ApiError) :
    Similar k j (u.fail k req now e) (t.fail j req now e) :=
  let T := S.setStage req (.done (.error e))
  ⟨T.sessions, T.channels, T.flight⟩

theorem withChannels (S : Similar k j u t) (channels : ChannelMap) :
    Similar k j { u with channels := channels } { t with channels := channels } :=
  ⟨S.sessions, rfl, S.flight⟩

theorem passGate (S : Similar k j u t) (idHex : String) (deposit cumOwed : ℕ) :
    Similar k j (passGate u k req step now idHex deposit cumOwed)
      (passGate t j req step now idHex deposit cumOwed) := by
  unfold Node.passGate
  split
  · exact S.setStage ..
  · exact S.fail ..

theorem gate (S : Similar k j u t) :
    Similar k j (gate cfg u k req step now) (gate cfg t j req step now) := by
  unfold Node.gate
  rw [S.channels]
  split
  · exact S.setStage ..
  · split
    · exact S.fail ..
    · split
      · exact S.passGate ..
      · exact S.setStage ..

theorem gateFetched (S : Similar k j u t) (cumOwed : ℕ)
    (returndata : Except String (List UInt8)) :
    Similar k j (gateFetched cfg u k req step now cumOwed returndata)
      (gateFetched cfg t j req step now cumOwed returndata) := by
  unfold Node.gateFetched
  rw [S.channels]
  split
  · exact S
  · split
    · exact S.fail ..
    · split
      · exact S.fail ..
      · split
        · exact S.fail ..
        · exact (S.withChannels _).passGate ..

theorem backendStep (S : Similar k j u t) (fuel : ℕ) (w : W) :
    Similar k j (backendStep cfg u k req step fuel w now)
      (backendStep cfg t j req step fuel w now) := by
  have hrun : ∀ sessions, Similar k j { u with sessions := sessions }
      { t with sessions := sessions } := fun _ => ⟨rfl, S.channels, S.flight⟩
  unfold Node.backendStep
  rw [S.sessions]
  split
  · exact S.fail ..
  · dsimp only
    split
    · exact S
    · split
      · exact (hrun _).fail ..
      · exact (hrun _).setStage ..

theorem respond (S : Similar k j u t) (response : AgentResponse) :
    Similar k j (respond cfg u k req response now) (respond cfg t j req response now) := by
  have hreply : ∀ {u t : State}, Similar k j u t → ∀ receipt,
      Similar k j (reply u k req response receipt now) (reply t j req response receipt now) :=
    fun S receipt =>
      let T := S.setStage req (.done (.ok ⟨req.sessionId, response, receipt⟩))
      ⟨T.sessions, T.channels, T.flight⟩
  unfold Node.respond
  rw [S.channels]
  split
  · exact hreply S none
  · split
    · exact (S.withChannels _).fail ..
    · exact hreply (S.withChannels _) _

/-- **An action on a request does not depend on its number.** -/
theorem next (S : Similar k j u t) (ha : a.request = some k)
    (hk : u.flights k = some ⟨req, stage⟩) :
    Similar k j (next cfg u a) (next cfg t (a.onRequest j)) := by
  have T : Stagewise cfg (Similar k j) u t k j req stage :=
    { left := hk
      right := S.flight.symm.trans hk
      idle := S
      setStage := S.setStage req
      gate := fun _ _ => S.gate
      gateFetched := fun _ _ => S.gateFetched
      backendStep := fun _ fuel w _ => S.backendStep fuel w
      respond := fun response _ => S.respond response }
  exact T.next ha

end Similar

/-- An action leaves its request the same, and the others. -/
theorem exists_stage (cfg : Config W) (ha : a.request = some k)
    (hk : s.flights k = some ⟨req, stage⟩) :
    ∃ stage', (next cfg s a).flights = update s.flights k (some ⟨req, stage'⟩) ∧
      (next cfg s a).received = s.received := by
  rcases next_request cfg s ha with hidle | ⟨req', stage₀, stage', hk', -, hflights, hreceived⟩
  · exact ⟨stage, by rw [hidle, ← hk, update_eq_self], by rw [hidle]⟩
  · obtain ⟨rfl, rfl⟩ : req' = req ∧ stage₀ = stage := by simpa [hk] using hk'.symm
    exact ⟨stage', hflights, hreceived⟩

theorem seen_of_own {f : Flight} (h : keys f.req.clientPublicKey = true) :
    seen keys (some f) = some f := seen_eq_some.2 ⟨rfl, h⟩

theorem seen_update (flights : ℕ → Option Flight) (k : ℕ) (o : Option Flight) :
    (fun j => seen keys (update flights k o j)) =
      update (fun j => seen keys (flights j)) k (seen keys o) :=
  comp_update (seen keys) flights k o

/-- The requests before one do not depend on it. -/
theorem ownBefore_update {o : Option Flight} (hflights : t.flights = update s.flights k o) :
    ownBefore keys t k = ownBefore keys s k := by
  rw [ownBefore, hflights, seen_update, values_update_of_le le_rfl]
  rfl

/-- A request of the client is its last one. -/
theorem ownFlights_own {f : Flight} (hk : s.received = k)
    (hflights : t.flights = update s.flights k (some f)) (hreceived : t.received = k + 1)
    (hkeys : keys f.req.clientPublicKey = true) :
    ownFlights keys t = ownFlights keys s ++ [f] := by
  subst hk
  rw [ownFlights, ownBefore, hreceived, hflights, seen_update, seen_of_own hkeys,
    values_update_succ]
  rfl

/-- One of a stranger is none of the client's. -/
theorem ownFlights_stranger {f : Flight} (hk : s.received = k)
    (hflights : t.flights = update s.flights k (some f)) (hreceived : t.received = k + 1)
    (hkeys : keys f.req.clientPublicKey = false) : ownFlights keys t = ownFlights keys s := by
  subst hk
  rw [ownFlights, hreceived, ownBefore, values_succ, ← ownBefore, ownBefore_update hflights,
    hflights, update_self, seen_of_other hkeys, Option.toList_none, List.append_nil]
  rfl

/-- An ack changes nothing else that is read. -/
theorem forget_of_not_learnsFrom [DecidablePred scope.channel] {channels : ChannelMap}
    {a : ClientAck} (hack : learnsFrom cfg scope channels a = false) {id : Bytes32}
    (hid : scope.channel id) : ((ack cfg.toChannelConfig channels a).1.state id).forget =
      (channels.state id).forget := by
  rcases state_ack cfg.toChannelConfig channels a id with h | ⟨signer, _, _, hch, h⟩
  · rw [h]
  · simp only [learnsFrom, hch, hid, h, ChannelState.record] at hack
    have hknown : some signer = (channels.state id).clientAddress := by simpa using hack
    rw [h, forget_record hknown.symm]

/-! ## The run without the strangers -/

/-- What the client has in one state is what there is of it in the other, where its requests are
the only ones. -/
structure Purged (keys : String → Bool) (scope : Scope) (s t : State) : Prop where
  received : t.received = (ownFlights keys s).length
  flights : ∀ i, t.flights i = (ownFlights keys s)[i]?
  sessions : ∀ b sessionId, scope.session b sessionId →
    s.sessions b sessionId = t.sessions b sessionId
  channels : ∀ id, scope.channel id → s.channels.state id = t.channels.state id

namespace Purged

theorem start : Purged keys scope .start .start :=
  ⟨rfl, fun _ => rfl, fun _ _ _ => rfl, fun _ _ => rfl⟩

/-- The client's request has its place in the run without the strangers. -/
theorem place (P : Purged keys scope s t) (hk : s.flights k = some ⟨req, stage⟩)
    (hlt : k < s.received) (hkeys : keys req.clientPublicKey = true) :
    t.flights (ownBefore keys s k).length = some ⟨req, stage⟩ := by
  rw [P.flights]
  exact getElem?_values hlt (seen_eq_some.2 ⟨hk, hkeys⟩)

/-- **An action on a request of the client** has the same effect in the run without the
strangers. -/
theorem own (P : Purged keys scope s t) (ha : a.request = some k) (hlt : k < s.received)
    (hk : s.flights k = some ⟨req, stage⟩) (hkeys : keys req.clientPublicKey = true)
    (hrespects : scope.Respects keys ⟨s, a, next cfg s a⟩) :
    Purged keys scope (next cfg s a)
      (next cfg t (a.onRequest (ownBefore keys s k).length)) := by
  have hj := P.place hk hlt hkeys
  generalize hplace : (ownBefore keys s k).length = j at hj ⊢
  have hseen : seen keys (s.flights k) = some ⟨req, stage⟩ := seen_eq_some.2 ⟨hk, hkeys⟩
  have hconcerns : concerns keys ⟨s, a, next cfg s a⟩ = true := by
    cases a <;> simp_all [concerns, Action.request]
  -- the same numbers, with what the sessions and channels are without the strangers
  have A : Agree keys scope s { s with sessions := t.sessions, channels := t.channels } :=
    ⟨rfl, fun _ => rfl, P.sessions, P.channels⟩
  have A' := A.same hrespects hconcerns
  have S : Similar k j { s with sessions := t.sessions, channels := t.channels } t :=
    ⟨rfl, rfl, hk.trans hj.symm⟩
  have S' : Similar k j (Node.next cfg _ a) (Node.next cfg t (a.onRequest j)) := S.next ha hk
  generalize Node.next cfg { s with sessions := t.sessions, channels := t.channels } a = u at A' S'
  obtain ⟨stage₁, hflights₁, hreceived₁⟩ := exists_stage cfg ha hk
  obtain ⟨stage₂, hflights₂, hreceived₂⟩ :=
    exists_stage cfg (request_onRequest ha j) hj
  have hstage : stage₁ = stage₂ := by
    have hflight := A'.flights k
    rw [S'.flight, hflights₁, hflights₂, update_self, update_self, seen_of_own hkeys,
      seen_of_own hkeys] at hflight
    simpa using hflight
  subst hstage
  have hown : ownFlights keys (next cfg s a) = (ownFlights keys s).set j ⟨req, stage₁⟩ := by
    rw [ownFlights, ownBefore, hreceived₁, hflights₁, seen_update, seen_of_own hkeys,
      values_update hlt hseen, ← hplace]
    rfl
  refine ⟨?_, fun i => ?_, fun b sessionId hb => ?_, fun id hid => ?_⟩
  · rw [hreceived₂, P.received, hown, List.length_set]
  · have hlen : j < (ownFlights keys s).length :=
      (List.getElem?_eq_some_iff.1 ((P.flights j).symm.trans hj)).1
    rw [hflights₂, hown]
    by_cases hi : i = j
    · subst hi
      rw [update_self, List.getElem?_set_self hlen]
    · rw [update_of_ne hi, List.getElem?_set_ne (Ne.symm hi), P.flights]
  · rw [A'.sessions b sessionId hb, S'.sessions]
  · rw [A'.channels id hid, S'.channels]

/-- What the client does not notice. -/
theorem of_agree (P : Purged keys scope s t) (A : Agree keys scope u s) :
    Purged keys scope u t := by
  have hown : ownFlights keys u = ownFlights keys s := by
    rw [ownFlights, ownBefore, funext A.flights, A.received]
    rfl
  exact ⟨hown ▸ P.received, fun i => hown ▸ P.flights i,
    fun b sessionId hb => (A.sessions b sessionId hb).trans (P.sessions b sessionId hb),
    fun id hid => (A.channels id hid).trans (P.channels id hid)⟩

/-- A request of the client arrives. -/
theorem arrive (P : Purged keys scope s t) (now : ℤ) (hkeys : keys req.clientPublicKey = true) :
    Purged keys scope (next cfg s (.receive req now)) (next cfg t (.receive req now)) := by
  obtain ⟨hflights, hreceived⟩ := receive_spec cfg s req now
  obtain ⟨hflights', hreceived'⟩ := receive_spec cfg t req now
  have hown := ownFlights_own rfl hflights hreceived hkeys
  rw [next, next]
  refine ⟨?_, fun i => ?_, fun b sessionId hb => ?_, fun id hid => ?_⟩
  · rw [hreceived', P.received, hown, List.length_append, List.length_singleton]
  · rw [hflights', P.received, hown]
    by_cases hi : i = (ownFlights keys s).length
    · subst hi
      rw [update_self, List.getElem?_concat_length]
    · rw [update_of_ne hi, P.flights]
      rcases Nat.lt_or_gt_of_ne hi with hlt | hgt
      · rw [List.getElem?_append_left hlt]
      · rw [List.getElem?_eq_none hgt.le, List.getElem?_eq_none (by simp; omega)]
  · rw [receive_sessions, receive_sessions, P.sessions b sessionId hb]
  · rw [receive_channels, receive_channels, P.channels id hid]

/-- A request of a stranger arrives. -/
theorem stranger (P : Purged keys scope s t) (now : ℤ) (hkeys : keys req.clientPublicKey = false) :
    Purged keys scope (next cfg s (.receive req now)) t := by
  obtain ⟨hflights, hreceived⟩ := receive_spec cfg s req now
  have hown := ownFlights_stranger rfl hflights hreceived hkeys
  refine ⟨hown ▸ P.received, fun i => hown ▸ P.flights i, fun b sessionId hb => ?_,
    fun id hid => ?_⟩
  · rw [next, receive_sessions, P.sessions b sessionId hb]
  · rw [next, receive_channels, P.channels id hid]

/-- An ack from which the node learns. -/
theorem ack (P : Purged keys scope s t) (a : ClientAck) :
    Purged keys scope (next cfg s (.ack a)) (next cfg t (.ack a)) :=
  ⟨P.received, P.flights, P.sessions, fun id hid => Agree.ack_congr _ a (P.channels id hid)⟩

theorem forget (P : Purged keys scope s t) : Purged keys scope s.forget t.forget := by
  refine ⟨P.received, P.flights, P.sessions, fun id hid => ?_⟩
  rw [s.channels_forget, t.channels_forget, state_forget, state_forget, P.channels id hid]

/-- An ack from which the node does not learn a signer, or on a channel of no concern. -/
theorem ack_of_not [DecidablePred scope.channel] (P : Purged keys scope s.forget t) {a : ClientAck}
    (hack : learnsFrom cfg scope s.channels a = false) :
    Purged keys scope (next cfg s (.ack a)).forget t := by
  refine ⟨P.received, P.flights, P.sessions, fun id hid => ?_⟩
  rw [← P.channels id hid, State.channels_forget, State.channels_forget, state_forget, state_forget]
  exact forget_of_not_learnsFrom hack hid

end Purged

theorem purge_append [DecidablePred scope.channel] (h h' : List (Step W)) :
    purge cfg keys scope (h ++ h') = purge cfg keys scope h ++ purge cfg keys scope h' :=
  List.filterMap_append

theorem purge_concat [DecidablePred scope.channel] (e : Step W) :
    purge cfg keys scope (h ++ [e]) =
      purge cfg keys scope h ++ (ownAction cfg keys scope e).toList := by
  cases he : ownAction cfg keys scope e <;> simp [purge, he]

theorem ownAction_receive [DecidablePred scope.channel] (req : EncryptedRequest) (now : ℤ) :
    ownAction cfg keys scope ⟨s, .receive req now, t⟩ =
      if keys req.clientPublicKey then some (.receive req now) else none := rfl

theorem ownAction_ack [DecidablePred scope.channel] (a : ClientAck) :
    ownAction cfg keys scope ⟨s, .ack a, t⟩ =
      if learnsFrom cfg scope s.channels a then some (.ack a) else none := rfl

theorem ownAction_of_request [DecidablePred scope.channel] (ha : a.request = some k) :
    ownAction cfg keys scope ⟨s, a, t⟩ =
      (seen keys (s.flights k)).map fun _ => a.onRequest (ownBefore keys s k).length := by
  cases a with
  | receive | ack | snapshot => simp [Action.request] at ha
  | gate | ethCall | gateFetched | backendStep | respond =>
    obtain rfl := Option.some.inj ha
    rfl

theorem lt_received (R : Run (machine cfg) .start h s) {f : Flight} (hk : s.flights k = some f) :
    k < s.received := by
  by_contra hle
  simp [flights_of_le R (Nat.le_of_not_lt hle)] at hk

/-- A step from the states without the last acks. -/
theorem Purged.both {b : Action W}
    (P : Purged keys scope (next cfg s.forget a) (next cfg t.forget b)) :
    Purged keys scope (next cfg s a).forget (next cfg t b).forget := by
  rw [← forget_next cfg s, ← forget_next cfg t]
  exact P.forget

theorem Purged.alone (P : Purged keys scope (next cfg s.forget a) t.forget) :
    Purged keys scope (next cfg s a).forget t.forget := by
  rw [← forget_next, ← t.forget_forget]
  exact P.forget

/-- **The client's requests fare as they do without the strangers.** -/
theorem purged [DecidablePred scope.channel] (R : Run (machine cfg) .start h s)
    (hrespects : ∀ e ∈ h, scope.Respects keys e) :
    Purged keys scope s.forget ((machine cfg).final .start (purge cfg keys scope h)).forget := by
  refine R.invariantHistory
    (fun h s => Purged keys scope s.forget
      ((machine cfg).final .start (purge cfg keys scope h)).forget)
    (fun _ e => scope.Respects keys e) (along_of_forall hrespects) Purged.start.forget ?_
  intro h s a R P _ hrespects
  change Purged keys scope (next cfg s a).forget _
  have hrespects : scope.Respects keys ⟨s, a, next cfg s a⟩ := hrespects
  have hrespects' : scope.Respects keys ⟨s.forget, a, next cfg s.forget a⟩ := hrespects
  rw [purge_concat, Machine.final_append]
  generalize (machine cfg).final .start (purge cfg keys scope h) = t at P ⊢
  cases ha : a.request with
  | some k =>
    rw [ownAction_of_request ha]
    cases hseen : seen keys (s.flights k) with
    | some f =>
      obtain ⟨hk, hkeys⟩ := seen_eq_some.1 hseen
      have hlt : k < s.received := lt_received R hk
      exact (P.own ha hlt hk hkeys hrespects').both
    | none =>
      refine (P.of_agree ((Agree.refl keys scope s.forget).left hrespects' ?_)).alone
      cases a <;> simp_all [concerns, Action.request, State.flights_forget]
  | none =>
    cases a with
    | receive req now =>
      cases hkeys : keys req.clientPublicKey with
      | true =>
        rw [ownAction_receive, if_pos hkeys]
        exact (P.arrive now hkeys).both
      | false =>
        rw [ownAction_receive, if_neg (by simp [hkeys])]
        exact (P.stranger now hkeys).alone
    | ack a =>
      cases hack : learnsFrom cfg scope s.channels a with
      | true =>
        rw [ownAction_ack, if_pos hack]
        exact (P.ack a).both
      | false =>
        rw [ownAction_ack, if_neg (by simp [hack])]
        exact P.ack_of_not hack
    | snapshot now => exact P.of_agree ⟨rfl, fun _ => rfl, fun _ _ _ => rfl, fun _ _ => rfl⟩
    | gate | ethCall | gateFetched | backendStep | respond => simp [Action.request] at ha

/-! ## The purge of a list of actions -/

/-- The actions on a request of the client concern it, and those on a stranger's do not. -/
theorem purge_trace [DecidablePred scope.channel] {as : List (Action W)}
    (has : ∀ a ∈ as, a.request = some k) (hk : s.flights k = some ⟨req, stage⟩) :
    purge cfg keys scope ((machine cfg).trace s as) = if keys req.clientPublicKey
      then as.map (.onRequest (ownBefore keys s k).length) else [] := by
  induction as generalizing s stage with
  | nil => simp [Machine.trace, purge]
  | cons a as ih =>
    obtain ⟨ha, has⟩ := List.forall_mem_cons.1 has
    obtain ⟨stage', hflights, -⟩ := exists_stage cfg ha hk
    have hrest : purge cfg keys scope ((machine cfg).trace ((machine cfg).next s a) as) = _ :=
      ih has (by rw [machine, hflights, update_self])
    rw [machine, ownBefore_update hflights, ← machine] at hrest
    rw [Machine.trace, purge, List.filterMap_cons, ownAction_of_request ha, hk, ← purge]
    cases hkeys : keys req.clientPublicKey with
    | true =>
      rw [seen_of_own hkeys]
      simpa [hkeys] using hrest
    | false =>
      rw [seen_of_other hkeys]
      simpa [hkeys] using hrest

/-- A request and the actions on it. -/
theorem purge_request [DecidablePred scope.channel] {as : List (Action W)} (hk : s.received = k)
    (has : ∀ a ∈ as, a.request = some k) (req : EncryptedRequest) (now : ℤ) :
    purge cfg keys scope ((machine cfg).trace s (.receive req now :: as)) =
      if keys req.clientPublicKey
      then .receive req now :: as.map (.onRequest (ownFlights keys s).length) else [] := by
  subst hk
  have hflights : (next cfg s (.receive req now)).flights = _ := (receive_spec cfg s req now).1
  have hrest : purge cfg keys scope
      ((machine cfg).trace ((machine cfg).next s (.receive req now)) as) = _ :=
    purge_trace has (by rw [machine, hflights, update_self])
  rw [machine, ownBefore_update hflights, ← ownFlights, ← machine] at hrest
  rw [Machine.trace, purge, List.filterMap_cons, ownAction_receive, ← purge]
  cases hkeys : keys req.clientPublicKey with
  | true => simpa [hkeys] using hrest
  | false => simpa [hkeys] using hrest

/-! ## What strangers can do -/

namespace Deployment

open JobChannel.Deployment (testnet client channelId)

/-- A request from its arrival to its reply, on a channel with the deposit. -/
def handling (k deposit : ℕ) (req : EncryptedRequest) : List (Action Unit) :=
  [.receive req 0, .gate k 0, .ethCall k (.ok (returndata deposit)), .gateFetched k 0,
    .backendStep k 1 () 0, .respond k 0]

section Handling

variable {agent : AgentLoop Unit} {outcome : AgentStepOutcome} {session : List Value} {d : ℕ}
  (hk : s.received = k) (hopen : openRequest (node agent) req = .ok step)
  (hbackend : req.backend = .Local) (hbound : req.channelId = some (hexText channelId.toList))

include hk hopen hbackend hbound

/-- The node knows the deposit, and all of it is owed. -/
theorem handling_exhausted (hdeposit : (s.channels.state channelId).deposit = some d)
    (hle : d ≤ (s.channels.state channelId).cumOwed) :
    let t := (machine (node agent)).final s (handling k d req)
    t.received = k + 1 ∧ ∃ msg,
      t.flights = update s.flights k (some ⟨req, .done (.error (.paymentRequired msg))⟩) := by
  subst hk
  have hagent : agentOf (node agent) req.backend = .ok agent := by rw [hbackend]; rfl
  obtain ⟨hflights, hreceived⟩ := next_receive (node agent) s 0 hopen hagent
  have hchannels : (next (node agent) s (.receive req 0)).channels = s.channels :=
    receive_channels ..
  simp only [handling, Machine.final, List.foldl_cons, List.foldl_nil, machine]
  generalize next (node agent) s (.receive req 0) = s₁ at *
  rw [← hchannels] at hdeposit hle
  obtain ⟨msg, hmsg⟩ := next_gate_exhausted 0 (by rw [hflights, update_self]) hbound
    (resolveChannel_node agent _ _ _) hdeposit hle
  have hdone : (s₁.fail s.received req 0 (.paymentRequired msg)).flights s.received =
      some ⟨req, .done (.error (.paymentRequired msg))⟩ := update_self ..
  rw [hmsg, next_done hdone rfl, next_done hdone rfl, next_done hdone rfl, next_done hdone rfl]
  refine ⟨hreceived, msg, ?_⟩
  change update s₁.flights s.received _ = _
  rw [hflights, update_idem]

variable (hdeposit : (s.channels.state channelId).deposit = none) (hd : d < 2 ^ 128)
  (hbelow : (s.channels.state channelId).cumOwed < d)
  (hstep : agent.step 1 () ((s.sessions .Local req.sessionId).getD []) (.ofStep step) =
    some (.ok outcome, session, ()))

include hdeposit hd hbelow hstep

/-- The deposit is fetched, and the request is answered, up to its receipt. -/
theorem handling_spec :
    ∃ u, (machine (node agent)).final s (handling k d req) = next (node agent) u (.respond k 0) ∧
      u.received = k + 1 ∧
      u.flights = update s.flights k (some ⟨req, .answered outcome.toResponse⟩) ∧
      u.channels.state channelId = { s.channels.state channelId with deposit := some d } := by
  subst hk
  have hagent : agentOf (node agent) req.backend = .ok agent := by rw [hbackend]; rfl
  obtain ⟨hflights, hreceived⟩ := next_receive (node agent) s 0 hopen hagent
  have hsessions : (next (node agent) s (.receive req 0)).sessions = s.sessions := receive_sessions
  have hchannels : (next (node agent) s (.receive req 0)).channels = s.channels :=
    receive_channels ..
  simp only [handling, Machine.final, List.foldl_cons, List.foldl_nil, machine]
  generalize next (node agent) s (.receive req 0) = s₁ at *
  rw [← hchannels] at hdeposit hbelow ⊢
  rw [next_gate_asked 0 (by rw [hflights, update_self]) hbound (resolveChannel_node agent _ _ _)
    hdeposit]
  rw [next_ethCall _ (by rw [setStage_flights, update_self])]
  rw [next_gateFetched 0 (by rw [setStage_flights, update_self]) hbound
    (resolveChannel_node agent _ _ _) (decode_returndata hd) hbelow]
  generalize hadmitted : State.setStage _ _ _ (Stage.admitted step) = s₂
  have hsessions₂ : s₂.sessions = s.sessions := by
    rw [← hadmitted]
    exact hsessions
  have hflights₂ : s₂.flights = update s.flights s.received (some ⟨req, .admitted step⟩) := by
    simp only [← hadmitted, setStage_flights, hflights, update_idem]
  have hchannels₂ : s₂.channels.state channelId =
      { s₁.channels.state channelId with deposit := some d } := by
    rw [← hadmitted]
    exact state_update_self ..
  have hreceived₂ : s₂.received = s.received + 1 := by
    rw [← hadmitted]
    exact hreceived
  rw [← hbackend, ← hsessions₂] at hstep
  rw [next_backendStep (node agent) 0 (by rw [hflights₂, update_self]) hagent hstep]
  refine ⟨_, rfl, hreceived₂, ?_, hchannels₂⟩
  rw [setStage_flights]
  dsimp only
  rw [hflights₂, update_idem]

/-- The node charges the request, and its receipt is on the charged state. -/
theorem handling_served {entry : ChannelState}
    (hrec : recordPrevAck (node agent).toChannelConfig
      { s.channels.state channelId with deposit := some d } req.prevAck (hexText channelId.toList)
      84532 testnet.this = .ok entry) :
    let t := (machine (node agent)).final s (handling k d req)
    let charged := entry.charge (roundTripCost outcome.toResponse.usage 1000)
    ∃ receipt, t.received = k + 1 ∧
      t.flights = update s.flights k
        (some ⟨req, .done (.ok ⟨req.sessionId, outcome.toResponse, some receipt⟩)⟩) ∧
      receipt.update.cumOwed = charged.cumOwed.repr ∧ t.channels.state channelId = charged := by
  obtain ⟨u, hfinal, hreceived, hflights, hstate⟩ :=
    handling_spec hk hopen hbackend hbound hdeposit hd hbelow hstep
  have hch : receiptChannel (node agent).toChannelConfig (hexText channelId.toList) =
    .ok (84532, testnet.this, channelId) := resolveChannel_node agent _ _ _
  have hprice : priceFor (node agent).pricing req.backend = 1000 := by
    rw [hbackend]
    exact priceFor_node agent
  rw [← hstate] at hrec
  obtain ⟨receipt, hbuilt, hupdate, -⟩ := buildReceipt_ok hch hrec req.backend req.sessionId
    outcome.toResponse.usage
  rw [hprice] at hbuilt hupdate
  dsimp only
  rw [hfinal, next_respond 0 (by rw [hflights, update_self]) hbound hbuilt]
  refine ⟨receipt, hreceived, ?_, by rw [hupdate, ChannelState.update], state_update_self ..⟩
  rw [reply_flights]
  dsimp only
  rw [hflights, update_idem]

/-- The node refuses the ack that comes with the request, and the client gets no response. -/
theorem handling_disputed {e : ProtocolError}
    (hrec : recordPrevAck (node agent).toChannelConfig
      { s.channels.state channelId with deposit := some d } req.prevAck (hexText channelId.toList)
      84532 testnet.this = .error e) :
    let t := (machine (node agent)).final s (handling k d req)
    t.received = k + 1 ∧ t.flights = update s.flights k
      (some ⟨req, .done (.error (.badRequest "invalid prev_ack: " (some (.protocol e))))⟩) := by
  obtain ⟨u, hfinal, hreceived, hflights, hstate⟩ :=
    handling_spec hk hopen hbackend hbound hdeposit hd hbelow hstep
  have hch : receiptChannel (node agent).toChannelConfig (hexText channelId.toList) =
    .ok (84532, testnet.this, channelId) := resolveChannel_node agent _ _ _
  rw [← hstate] at hrec
  have hbuilt : buildReceipt (node agent).toChannelConfig u.channels (hexText channelId.toList)
      req.backend req.sessionId outcome.toResponse.usage req.prevAck =
      (update u.channels channelId (some (u.channels.state channelId)),
        .error (.badRequest "invalid prev_ack: " (some (.protocol e)))) := by
    simp only [buildReceipt, hch, hrec]
  dsimp only
  rw [hfinal, next_respond_error 0 (by rw [hflights, update_self]) hbound hbuilt]
  refine ⟨hreceived, ?_⟩
  change update u.flights k _ = _
  rw [hflights, update_idem]

end Handling

/-- What the client has: a session and a channel. -/
def ownScope : Scope :=
  ⟨fun b sessionId => b = .Local ∧ sessionId = "own", fun id => id = channelId⟩

instance : DecidablePred ownScope.channel := fun id => inferInstanceAs (Decidable (id = channelId))

/-- An agent that answers every prompt, for ten tokens for each message of the session. -/
def counting : AgentLoop Unit :=
  { parrot with
    provider := fun w req => (.ok ⟨[], "end_turn",
      ⟨UInt32.ofNat (10 * req.messages.length), 0, none, none⟩⟩, w) }

theorem step_counting (session : List Value) (step : AgentStep) :
    counting.step 1 () session (.ofStep step) = some
      (.ok (.final "" (Usage.zero.add ⟨UInt32.ofNat (10 * (session.length + 1)), 0, none, none⟩)),
        session ++ [inputToUserMessage (.ofStep step)] ++ [message "assistant" []], ()) := by
  rw [← List.length_singleton (a := inputToUserMessage (.ofStep step)), ← List.length_append]
  rfl

/-- The client's request, with an ack or without. -/
def own (prevAck : Option ClientAck) : EncryptedRequest :=
  { bound ownKey "own" [63] with prevAck := prevAck }

theorem openRequest_own (prevAck : Option ClientAck) :
    openRequest (node counting) (own prevAck) = .ok (stepOf [63]) :=
  openRequest_prompt counting ownKey "own" [63] (some (hexText channelId.toList))

/-- A request of a stranger in a session of its own, and the client's. -/
def apart : List (Action Unit) :=
  roundTrip 0 theirKey "theirs" [63] ++ handling 1 10 (own none)

/-- A request of a stranger on the client's channel, and the client's. -/
def charged : List (Action Unit) :=
  handling 0 10 (bound theirKey "theirs" [63]) ++ handling 1 10 (own none)

/-- A request of a stranger in the client's session, and the client's. -/
def intruded : List (Action Unit) :=
  roundTrip 0 theirKey "own" [63] ++ handling 1 100 (own none)

/-- An ack of a stranger on the client's channel, and the client's request with its own. -/
def overtaken : List (Action Unit) :=
  [.ack (ackOn stranger 1 10)] ++ handling 0 100 (own (some (ackOn client 1 10)))

end Deployment

open Deployment

open JobChannel.Deployment (testnet client channelId)

/-- What the node decides about a request: it is served, with the amount that its receipt names, or
refused since the deposit is spent. -/
inductive Decision
  | served (cumOwed : Option String)
  | unpaid
  | other
  deriving DecidableEq, Repr

def decision (f : Flight) : Decision :=
  match f.stage with
  | .done (.ok reply) => .served (reply.receipt.map fun r => r.update.cumOwed)
  | .done (.error (.paymentRequired _)) => .unpaid
  | _ => .other

/-- The decisions about the client's requests. -/
def decisions (keys : String → Bool) (s : State) : List Decision := (ownFlights keys s).map decision

/-- The client's request is served on a channel that nothing is owed on. -/
theorem decisions_own {s : State} {prevAck : Option ClientAck} {k d cost : ℕ}
    (hk : s.received = k) (hd : d < 2 ^ 128) (hpos : 0 < d)
    (hstate : s.channels.state channelId = .new) {entry : ChannelState}
    (hrec : recordPrevAck (node counting).toChannelConfig
      { ChannelState.new with deposit := some d } prevAck (hexText channelId.toList) 84532
      testnet.this = .ok entry) (howed : entry.cumOwed = 0)
    {outcome : AgentStepOutcome} {session : List Value}
    (hstep : counting.step 1 () ((s.sessions .Local "own").getD []) (.ofStep (stepOf [63])) =
      some (.ok outcome, session, ()))
    (hcost : saturatingAdd 128 0 (roundTripCost outcome.toResponse.usage 1000) = cost) :
    decisions ownKeys ((machine (node counting)).final s (handling k d (own prevAck))) =
      decisions ownKeys s ++ [.served (some cost.repr)] := by
  obtain ⟨receipt, hreceived, hflights, hreceipt, -⟩ :=
    handling_served hk (openRequest_own prevAck) rfl rfl (by rw [hstate]; rfl) hd
      (by rw [hstate]; exact hpos) hstep (by rw [hstate]; exact hrec)
  rw [decisions, ownFlights_own hk hflights hreceived (ownKeys_own "own" [63] none),
    List.map_append, ← decisions, List.map_singleton, decision]
  dsimp only
  rw [Option.map_some, hreceipt, ChannelState.charge]
  dsimp only
  rw [howed, hcost]

/-- The cost of the client's request in a session with a number of messages. -/
theorem cost_counting {session : List Value} {n cost : ℕ} (hn : session.length = n)
    (hcost : saturatingAdd 128 0 (roundTripCost
      (Usage.zero.add ⟨UInt32.ofNat (10 * (n + 1)), 0, none, none⟩) 1000) = cost) :
    saturatingAdd 128 0 (roundTripCost (AgentStepOutcome.final ""
      (Usage.zero.add ⟨UInt32.ofNat (10 * (session.length + 1)), 0, none, none⟩)).toResponse.usage
        1000) = cost := by
  rw [hn, AgentStepOutcome.usage_toResponse]
  exact hcost

theorem decisions_alone (d : ℕ) (hd : d < 2 ^ 128) (hpos : 0 < d) :
    decisions ownKeys (final counting (handling 0 d (own none))) = [.served (some "10")] := by
  have hrec : recordPrevAck (node counting).toChannelConfig
      { ChannelState.new with deposit := some d } none (hexText channelId.toList) 84532
      testnet.this = .ok { ChannelState.new with deposit := some d } := rfl
  exact decisions_own (s := .start) rfl hd hpos rfl hrec rfl (step_counting [] _)
    (cost_counting rfl (by decide : _ = 10))

/-- The client's request with an ack, on a channel that the node knows no ack of. -/
theorem decisions_acking :
    decisions ownKeys (final counting (handling 0 100 (own (some (ackOn client 1 10))))) =
      [.served (some "10")] := by
  obtain ⟨entry, hrec, howed⟩ : ∃ entry, recordPrevAck (node counting).toChannelConfig
      { ChannelState.new with deposit := some 100 } (some (ackOn client 1 10))
      (hexText channelId.toList) 84532 testnet.this = .ok entry ∧ entry.cumOwed = 0 :=
    ⟨_, (verifyAndRecordAck_eq_ok (contract_node counting) (channelIdFromHex_hexText channelId)).2
      ⟨client, signedBy_ackOn counting client 1 (by omega), by simp [ChannelState.new], rfl⟩, rfl⟩
  exact decisions_own (s := .start) rfl (by omega) (by omega) rfl hrec howed (step_counting [] _)
    (cost_counting rfl (by decide : _ = 10))

theorem decisions_charged : decisions ownKeys (final counting charged) = [.unpaid] := by
  have hcost : saturatingAdd 128 0 (roundTripCost (AgentStepOutcome.final "" (Usage.zero.add
      ⟨UInt32.ofNat 10, 0, none, none⟩)).toResponse.usage 1000) = 10 := by decide
  obtain ⟨receipt, hreceived, hflights, -, hstate⟩ := handling_served (s := .start) (k := 0) rfl
    (openRequest_prompt counting theirKey "theirs" [63] _) rfl rfl rfl (show 10 < 2 ^ 128 by omega)
    (show 0 < 10 by omega) (step_counting [] _) rfl
  have hstranger :=
    ownFlights_stranger (s := .start) rfl hflights hreceived (ownKeys_theirs "theirs" [63] none)
  rw [charged, final, Machine.final_append]
  change _ = [] at hstranger
  generalize (machine (node counting)).final .start (handling 0 10 _) = s₁ at *
  have hreceived : s₁.received = 1 := hreceived
  have hdeposit : (s₁.channels.state channelId).deposit = some 10 := by rw [hstate]; rfl
  have howed : (s₁.channels.state channelId).cumOwed = 10 := by
    rw [hstate]
    exact hcost
  obtain ⟨hreceived', msg, hflights'⟩ :=
    handling_exhausted hreceived (openRequest_own none) rfl rfl hdeposit howed.ge
  rw [decisions, ownFlights_own hreceived hflights' hreceived' (ownKeys_own "own" [63] none),
    hstranger]
  rfl

theorem decisions_intruded :
    decisions ownKeys (final counting intruded) = [.served (some "30")] := by
  obtain ⟨hreceived, hsession, hchannels, hflights⟩ := roundTrip_spec (s := .start) (k := 0) rfl
    theirKey "own" [63] (step_counting [] _)
  have hstranger :=
    ownFlights_stranger (s := .start) rfl hflights hreceived (ownKeys_theirs "own" [63] none)
  rw [intruded, final, Machine.final_append]
  change _ = [] at hstranger
  generalize (machine (node counting)).final .start (roundTrip 0 theirKey "own" [63]) = s₁ at *
  have hreceived : s₁.received = 1 := hreceived
  have hrec : recordPrevAck (node counting).toChannelConfig
      { ChannelState.new with deposit := some 100 } none (hexText channelId.toList) 84532
      testnet.this = .ok { ChannelState.new with deposit := some 100 } := rfl
  rw [decisions_own hreceived (by omega) (by omega) (by rw [hchannels]; rfl) hrec rfl
    (by rw [hsession]; exact step_counting _ _) (cost_counting rfl (by decide : _ = 30)), decisions,
    hstranger]
  rfl

/-- The client's request is not served where the node has recorded an ack of someone else. -/
theorem decisions_disputed {s : State} {k d : ℕ} (hk : s.received = k) (hd : d < 2 ^ 128)
    (hdeposit : (s.channels.state channelId).deposit = none)
    (hbelow : (s.channels.state channelId).cumOwed < d)
    (hknown : (s.channels.state channelId).clientAddress = some stranger) :
    decisions ownKeys
        ((machine (node counting)).final s (handling k d (own (some (ackOn client 1 10))))) =
      decisions ownKeys s ++ [.other] := by
  obtain ⟨e, hrec⟩ : ∃ e, recordPrevAck (node counting).toChannelConfig
      { s.channels.state channelId with deposit := some d } (some (ackOn client 1 10))
      (hexText channelId.toList) 84532 testnet.this = .error e := by
    cases hrec : recordPrevAck _ { s.channels.state channelId with deposit := some d }
      (some (ackOn client 1 10)) _ _ _ with
    | error e => exact ⟨e, rfl⟩
    | ok entry =>
      obtain ⟨signer, hsigned, hclient, -⟩ :=
        (verifyAndRecordAck_eq_ok (contract_node counting) (channelIdFromHex_hexText channelId)).1
          hrec
      obtain rfl := hsigned.unique (signedBy_ackOn counting client 1 (by omega))
      exact absurd (hclient stranger hknown) (by decide)
  obtain ⟨hreceived, hflights⟩ := handling_disputed hk (openRequest_own _) rfl rfl hdeposit hd
    hbelow (step_counting _ _) hrec
  rw [decisions, ownFlights_own hk hflights hreceived (ownKeys_own "own" [63] none),
    List.map_append]
  rfl

theorem decisions_overtaken : decisions ownKeys (final counting overtaken) = [.other] := by
  have S : Standing counting [.ack (ackOn stranger 1 10)] (fun _ => none) 0
      [.acked (ackOn stranger 1 10) stranger] :=
    (standing_nil counting).ack stranger 1 (by omega) (by simp [ChannelState.new])
  have hreceived := S.received_eq
  have hstate := S.state_eq
  have hnone : decisions ownKeys (final counting [.ack (ackOn stranger 1 10)]) = [] := by
    rw [decisions, ownFlights, hreceived]
    rfl
  rw [overtaken, final, Machine.final_append]
  dsimp only [final] at hreceived hstate hnone
  generalize (machine (node counting)).final .start [.ack (ackOn stranger 1 10)] = s₁ at *
  rw [decisions_disputed hreceived (by omega) (by rw [hstate]; rfl) (by rw [hstate]; decide)
    (by rw [hstate]; rfl), hnone]
  rfl

theorem ownKeys_bound (prevAck : Option ClientAck) :
    ownKeys (own prevAck).clientPublicKey = true := ownKeys_own "own" [63] none

/-- The client's request is its first. -/
theorem purge_handling {s : State} {k : ℕ} (hk : s.received = k) (hown : ownFlights ownKeys s = [])
    (d : ℕ) (prevAck : Option ClientAck) :
    purge (node counting) ownKeys ownScope
        ((machine (node counting)).trace s (handling k d (own prevAck))) =
      handling 0 d (own prevAck) := by
  have has : ∀ a ∈ (handling k d (own prevAck)).tail, a.request = some k := by
    simp [handling, Action.request]
  refine (purge_request hk has (own prevAck) 0).trans ?_
  rw [if_pos (ownKeys_bound prevAck), hown]
  rfl

theorem purge_apart : purge (node counting) ownKeys ownScope (trace counting apart) =
    handling 0 10 (own none) := by
  obtain ⟨hreceived, -, -, hflights⟩ := roundTrip_spec (s := .start) (k := 0) rfl theirKey
    "theirs" [63] (step_counting [] _)
  have hstranger :=
    ownFlights_stranger (s := .start) rfl hflights hreceived (ownKeys_theirs "theirs" [63] none)
  have has : ∀ a ∈ (roundTrip 0 theirKey "theirs" [63]).tail, a.request = some 0 := by
    simp [roundTrip, Action.request]
  have htheirs : purge (node counting) ownKeys ownScope
      (trace counting (roundTrip 0 theirKey "theirs" [63])) = [] :=
    (purge_request (s := .start) rfl has (prompt theirKey "theirs" [63] none) 0).trans
      (if_neg (by simp [ownKeys_theirs]))
  rw [apart, trace, Machine.trace_append, purge_append, htheirs, List.nil_append]
  exact purge_handling hreceived hstranger 10 none

/-- The stranger names nothing that the client has. -/
theorem respects_apart {as : List (Action Unit)} (has : ∀ req now, Action.receive req now ∈ as →
    req = prompt theirKey "theirs" [63] none ∨ req = own none) :
    ∀ e ∈ trace counting as, ownScope.Respects ownKeys e := by
  intro e he req hat
  obtain ⟨e', he', now, hact⟩ := received_of_atWork (run counting as) ⟨e, he, hat⟩
  rcases has req now (((machine (node counting)).mem_trace .start as _).1 ⟨e', he', hact⟩) with
    rfl | rfl
  · refine ⟨fun h => ?_, fun _ => ⟨by simp [ownScope, prompt], ?_⟩⟩
    · simp [ownKeys_theirs] at h
    · rintro id ⟨idHex, hidHex, -⟩
      simp [prompt] at hidHex
  · refine ⟨fun _ => ⟨⟨rfl, rfl⟩, ?_⟩, fun h => ?_⟩
    · rintro id ⟨idHex, hidHex, hid⟩
      obtain rfl : idHex = hexText channelId.toList := (Option.some.inj hidHex).symm
      exact Except.ok.inj (hid.symm.trans (channelIdFromHex_hexText channelId))
    · simp [ownKeys_bound] at h

/-- **Two histories with the same purge are the same to the client.** -/
theorem undisturbed [DecidablePred scope.channel] (R : Run (machine cfg) .start h s)
    (R' : Run (machine cfg) .start h' t) (hrespects : ∀ e ∈ h, scope.Respects keys e)
    (hrespects' : ∀ e ∈ h', scope.Respects keys e)
    (hsame : purge cfg keys scope h = purge cfg keys scope h') :
    ownFlights keys s = ownFlights keys t := by
  have P := purged R hrespects
  have P' := purged R' hrespects'
  rw [← hsame] at P'
  -- the requests are the flights of the run without the strangers, in both
  have hown : ownFlights keys s.forget = ownFlights keys t.forget :=
    List.ext_getElem? fun i => (P.flights i).symm.trans (P'.flights i)
  exact hown

theorem undisturbed_apart : ownFlights ownKeys (final counting apart) =
    ownFlights ownKeys (final counting (handling 0 10 (own none))) := by
  refine undisturbed (run counting apart) (run counting _)
    (respects_apart fun req now hmem => ?_) (respects_apart fun req now hmem => ?_)
    (purge_apart.trans (purge_handling (s := .start) rfl rfl 10 none).symm)
  · simp only [apart, roundTrip, handling, List.cons_append, List.nil_append, List.mem_cons,
      Action.receive.injEq, reduceCtorEq, List.not_mem_nil, false_or, or_false] at hmem
    exact hmem.imp And.left And.left
  · simp only [handling, List.mem_cons, Action.receive.injEq, reduceCtorEq, List.not_mem_nil,
      or_false] at hmem
    exact .inr hmem.1

/-- **Strangers spend the channel of a client**: a request on it is charged to it, one in the
client's session makes its own dearer, and an ack makes the node refuse the client's. -/
theorem channel_spent :
    (decisions ownKeys (final counting (handling 0 10 (own none))) = [.served (some "10")] ∧
      decisions ownKeys (final counting charged) = [.unpaid]) ∧
    (decisions ownKeys (final counting (handling 0 100 (own none))) = [.served (some "10")] ∧
      decisions ownKeys (final counting intruded) = [.served (some "30")]) ∧
    (decisions ownKeys (final counting (handling 0 100 (own (some (ackOn client 1 10))))) =
        [.served (some "10")] ∧
      decisions ownKeys (final counting overtaken) = [.other]) :=
  ⟨⟨decisions_alone 10 (by omega) (by omega), decisions_charged⟩,
    ⟨decisions_alone 100 (by omega) (by omega), decisions_intruded⟩, decisions_acking,
    decisions_overtaken⟩

end Flodex.Node
