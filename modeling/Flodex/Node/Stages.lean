import Flodex.Contracts.ChannelRuns
import Flodex.Node.Book

/-!
# The stages of a request

`Progress` is what an action does to the request it lets go on and to the channels, with one
constructor for each way from a stage to the next. `next_request` is the inversion: an action on a
request does nothing, or it is such a progress. What holds of a request along a run is read off
it.
-/

namespace Flodex

/-- The channel that a request is bound to. -/
def EncryptedRequest.OnChannel (req : EncryptedRequest) (id : Bytes32) : Prop :=
  ∃ idHex ∈ req.channelId, channelIdFromHex idHex = .ok id

theorem EncryptedRequest.OnChannel.unique {req : EncryptedRequest} {id id' : Bytes32}
    (h : req.OnChannel id) (h' : req.OnChannel id') : id = id' := by
  obtain ⟨idHex, hmem, hid⟩ := h
  obtain ⟨idHex', hmem', hid'⟩ := h'
  obtain rfl := Option.mem_unique hmem hmem'
  exact Except.ok.inj (hid.symm.trans hid')

namespace Node

open Function

variable {W : Type*}

/-! ## The deposit as the contract returns it -/

/-- **The node reads the deposit of the record** that the contract returns, where it fits. -/
theorem decode_encodeChannel {c : JobChannel.Channel} (hc : c.deposit < 2 ^ 256) {deposit : ℕ} :
    decodeChannelDeposit (JobChannel.encodeChannel c) = .ok deposit ↔
      c.deposit = deposit ∧ deposit < 2 ^ 128 := by
  have hlen : ¬ (JobChannel.encodeChannel c).length < 96 := by
    simp [JobChannel.encodeChannel, JobChannel.addressWord, JobChannel.uintWord]
  have hslot : ((JobChannel.encodeChannel c).drop 64).take 32 =
      beBytes 16 (c.deposit / 256 ^ 16) ++ beBytes 16 c.deposit := by
    rw [← beBytes_split 16 16 c.deposit]
    simp only [JobChannel.encodeChannel, List.append_assoc]
    rw [← List.append_assoc (JobChannel.addressWord c.client)]
    exact take_drop_field (by simp [JobChannel.addressWord]) (by simp [JobChannel.uintWord])
  have hhigh : c.deposit / 256 ^ 16 < 256 ^ 16 := by omega
  simp only [decodeChannelDeposit, if_neg hlen, hslot]
  rw [List.take_left' (length_beBytes ..), List.drop_left' (length_beBytes ..)]
  split
  · rename_i hany
    simp only [reduceCtorEq, false_iff, not_and]
    rintro rfl hlt
    rw [(any_ne_zero_beBytes hhigh).2 (by omega)] at hany
    simp at hany
  · rename_i hany
    have hzero := (any_ne_zero_beBytes hhigh).1 (by simpa using hany)
    rw [beNat_beBytes_of_lt (by omega), Except.ok.injEq]
    constructor
    · rintro rfl
      exact ⟨rfl, by omega⟩
    · exact fun h => h.1

/-- The request that an action lets go on. -/
def Action.request : Action W → Option ℕ
  | .gate k _ => some k
  | .ethCall k _ => some k
  | .gateFetched k _ => some k
  | .backendStep k _ _ _ => some k
  | .respond k _ => some k
  | .receive .. => none
  | .ack _ => none
  | .snapshot _ => none

/-! ## Progress -/

/-- A request goes from a stage to the next, and the channels are the ones after it. -/
inductive Progress (cfg : Config W) (s : State) (k : ℕ) (req : EncryptedRequest) :
    Action W → Stage → Stage → ChannelMap → Prop
  | unbound {now : ℤ} {step : AgentStep} (free : req.channelId = none) :
    Progress cfg s k req (.gate k now) (.opened step) (.admitted step) s.channels
  | asked {now : ℤ} {step : AgentStep} {id : Bytes32} (bound : req.OnChannel id)
    (unknown : (s.channels.state id).deposit = none) :
    Progress cfg s k req (.gate k now) (.opened step)
      (.asked step (s.channels.state id).cumOwed) s.channels
  | solvent {now : ℤ} {step : AgentStep} {id : Bytes32} {deposit : ℕ} (bound : req.OnChannel id)
    (cached : (s.channels.state id).deposit = some deposit)
    (below : (s.channels.state id).cumOwed < deposit) :
    Progress cfg s k req (.gate k now) (.opened step) (.admitted step) s.channels
  | called {step : AgentStep} {cumOwed : ℕ} {returndata : Except String (List UInt8)} :
    Progress cfg s k req (.ethCall k returndata) (.asked step cumOwed)
      (.fetched step cumOwed returndata) s.channels
  | fetched {now : ℤ} {step : AgentStep} {cumOwed : ℕ} {data : List UInt8} {id : Bytes32}
    {deposit : ℕ} (bound : req.OnChannel id) (decoded : decodeChannelDeposit data = .ok deposit)
    (below : cumOwed < deposit) :
    Progress cfg s k req (.gateFetched k now) (.fetched step cumOwed (.ok data)) (.admitted step)
      (cacheDeposit s.channels id deposit)
  | ran {fuel : ℕ} {w : W} {now : ℤ} {step : AgentStep} {agent : AgentLoop W}
    {outcome : AgentStepOutcome} {session : List Value} {w' : W}
    (configured : agentOf cfg req.backend = .ok agent)
    (returned : agent.step fuel w ((s.sessions req.backend req.sessionId).getD []) (.ofStep step) =
      some (.ok outcome, session, w')) :
    Progress cfg s k req (.backendStep k fuel w now) (.admitted step)
      (.answered outcome.toResponse) s.channels
  | replied {now : ℤ} {response : AgentResponse} (free : req.channelId = none) :
    Progress cfg s k req (.respond k now) (.answered response)
      (.done (.ok ⟨req.sessionId, response, none⟩)) s.channels
  | charged {now : ℤ} {response : AgentResponse} {idHex : String} {channels : ChannelMap}
    {receipt : NodeSignedReceipt} (bound : req.channelId = some idHex)
    (built : buildReceipt cfg.toChannelConfig s.channels idHex req.backend req.sessionId
      response.usage req.prevAck = (channels, .ok receipt)) :
    Progress cfg s k req (.respond k now) (.answered response)
      (.done (.ok ⟨req.sessionId, response, some receipt⟩)) channels
  | failed {a : Action W} {stage : Stage} {channels : ChannelMap} (e : ApiError)
    (going : ∀ reply, stage ≠ .done reply)
    (unchanged : ∀ id, (channels.state id).cumOwed = (s.channels.state id).cumOwed) :
    Progress cfg s k req a stage (.done (.error e)) channels

variable {cfg : Config W} {s t : State} {k : ℕ} {req : EncryptedRequest} {a : Action W}
  {stage stage' : Stage} {h : List (Step W)}

theorem checkSolvent_eq_ok (idHex : String) {deposit cumOwed : ℕ} :
    checkSolvent idHex deposit cumOwed = .ok () ↔ cumOwed < deposit := by
  simp only [checkSolvent, bind_eq_ok, require_eq_ok]
  constructor
  · rintro ⟨-, -, h⟩
    exact h
  · intro h
    exact ⟨(), Nat.ne_zero_of_lt h, h⟩

theorem checkSolvent_eq_error (idHex : String) {deposit cumOwed : ℕ} (hle : deposit ≤ cumOwed) :
    ∃ msg, checkSolvent idHex deposit cumOwed = .error (.paymentRequired msg) := by
  by_cases hzero : deposit = 0
  · subst hzero
    exact ⟨_, rfl⟩
  · simp only [checkSolvent, require, if_pos hzero, if_neg (Nat.not_lt.2 hle)]
    exact ⟨_, rfl⟩

theorem cumOwed_cacheDeposit (channels : ChannelMap) (id id' : Bytes32) (d : ℕ) :
    ((cacheDeposit channels id d).state id').cumOwed = (channels.state id').cumOwed := by
  unfold cacheDeposit
  by_cases h : id' = id
  · subst h
    rw [state_update_self]
  · rw [state_update_of_ne _ _ h]

/-- How far a request gets as it arrives. -/
def arrival (cfg : Config W) (req : EncryptedRequest) : Stage :=
  match openRequest cfg req, agentOf cfg req.backend with
  | .ok step, .ok _ => .opened step
  | .error e, _ => .done (.error e)
  | .ok _, .error e => .done (.error e)

theorem arrival_cases (cfg : Config W) (req : EncryptedRequest) :
    (∃ step, arrival cfg req = .opened step) ∨ ∃ e, arrival cfg req = .done (.error e) := by
  unfold arrival
  split
  · exact .inl ⟨_, rfl⟩
  · exact .inr ⟨_, rfl⟩
  · exact .inr ⟨_, rfl⟩

/-- A request that arrives is opened or fails. -/
theorem receive_spec (cfg : Config W) (s : State) (req : EncryptedRequest) (now : ℤ) :
    (receive cfg s req now).flights =
        update s.flights s.received (some ⟨req, arrival cfg req⟩) ∧
      (receive cfg s req now).received = s.received + 1 := by
  cases hopen : openRequest cfg req with
  | error e =>
    simp only [receive, arrival, hopen]
    exact ⟨rfl, rfl⟩
  | ok step =>
    cases hagent : agentOf cfg req.backend with
    | error e =>
      simp only [receive, arrival, hopen, hagent]
      exact ⟨rfl, rfl⟩
    | ok agent =>
      simp only [receive, arrival, hopen, hagent]
      exact ⟨rfl, rfl⟩

/-- What an action leaves of its request, when it is not nothing. -/
def Progresses (cfg : Config W) (s : State) (k : ℕ) (a : Action W) (t : State) : Prop :=
  ∃ req stage stage', s.flights k = some ⟨req, stage⟩ ∧
    Progress cfg s k req a stage stage' t.channels ∧
    t.flights = update s.flights k (some ⟨req, stage'⟩) ∧ t.received = s.received

theorem progresses_fail {now : ℤ} (e : ApiError) (hflight : s.flights k = some ⟨req, stage⟩)
    (going : ∀ reply, stage ≠ .done reply) {s' : State} (hflights : s'.flights = s.flights)
    (hreceived : s'.received = s.received)
    (unchanged : ∀ id, (s'.channels.state id).cumOwed = (s.channels.state id).cumOwed) :
    Progresses cfg s k a (s'.fail k req now e) := by
  refine ⟨req, stage, _, hflight, .failed e going unchanged, ?_, hreceived⟩
  rw [← hflights]
  rfl

theorem progresses_gate {step : AgentStep} {now : ℤ}
    (hflight : s.flights k = some ⟨req, .opened step⟩) :
    Progresses cfg s k (.gate k now) (gate cfg s k req step now) := by
  unfold gate
  split
  · rename_i hfree
    exact ⟨req, _, _, hflight, .unbound hfree, rfl, rfl⟩
  · rename_i idHex hbound
    split
    · exact progresses_fail _ hflight (by simp) rfl rfl fun _ => rfl
    · rename_i chainId channelAddr id hch
      have hid : req.OnChannel id := ⟨idHex, hbound, (resolveChannel_eq_ok.1 hch).2⟩
      rw [gateRead_eq]
      cases hdep : (s.channels.state id).deposit with
      | none => exact ⟨req, _, _, hflight, .asked hid hdep, rfl, rfl⟩
      | some deposit =>
        dsimp only [passGate]
        split
        · rename_i hsolvent
          exact ⟨req, _, _, hflight, .solvent hid hdep ((checkSolvent_eq_ok idHex).1 hsolvent), rfl,
            rfl⟩
        · exact progresses_fail _ hflight (by simp) rfl rfl fun _ => rfl

theorem progresses_gateFetched {step : AgentStep} {now : ℤ} {cumOwed : ℕ}
    {returndata : Except String (List UInt8)}
    (hflight : s.flights k = some ⟨req, .fetched step cumOwed returndata⟩) :
    gateFetched cfg s k req step now cumOwed returndata = s ∨
      Progresses cfg s k (.gateFetched k now)
        (gateFetched cfg s k req step now cumOwed returndata) := by
  unfold gateFetched
  split
  · exact .inl rfl
  · rename_i idHex hbound
    right
    split
    · exact progresses_fail _ hflight (by simp) rfl rfl fun _ => rfl
    · rename_i chainId channelAddr id hch
      have hid : req.OnChannel id := ⟨idHex, hbound, (resolveChannel_eq_ok.1 hch).2⟩
      cases returndata with
      | error e => exact progresses_fail _ hflight (by simp) rfl rfl fun _ => rfl
      | ok data =>
        dsimp only
        split
        · exact progresses_fail _ hflight (by simp) rfl rfl fun _ => rfl
        · rename_i deposit hdecode
          unfold passGate
          split
          · rename_i hsolvent
            exact ⟨req, _, _, hflight,
              .fetched hid hdecode ((checkSolvent_eq_ok idHex).1 hsolvent), rfl, rfl⟩
          · exact progresses_fail _ hflight (by simp) rfl rfl
              fun id' => cumOwed_cacheDeposit s.channels id id' deposit

theorem progresses_backendStep {step : AgentStep} {fuel : ℕ} {w : W} {now : ℤ}
    (hflight : s.flights k = some ⟨req, .admitted step⟩) :
    backendStep cfg s k req step fuel w now = s ∨
      Progresses cfg s k (.backendStep k fuel w now) (backendStep cfg s k req step fuel w now) := by
  unfold backendStep
  split
  · exact .inr (progresses_fail _ hflight (by simp) rfl rfl fun _ => rfl)
  · rename_i agent hagent
    dsimp only
    split
    · exact .inl rfl
    · rename_i r session w' hstep
      right
      cases r with
      | error e => exact progresses_fail _ hflight (by simp) rfl rfl fun _ => rfl
      | ok outcome => exact ⟨req, _, _, hflight, .ran hagent hstep, rfl, rfl⟩

theorem progresses_respond {response : AgentResponse} {now : ℤ}
    (hflight : s.flights k = some ⟨req, .answered response⟩) :
    Progresses cfg s k (.respond k now) (respond cfg s k req response now) := by
  unfold respond
  split
  · rename_i hfree
    exact ⟨req, _, _, hflight, .replied hfree, rfl, rfl⟩
  · rename_i idHex hbound
    split
    · rename_i channels e hbuilt
      refine progresses_fail _ hflight (by simp) rfl rfl fun id => ?_
      -- a receipt that fails leaves every channel's state
      rcases buildReceipt_spec _ _ _ _ _ hbuilt with ⟨-, -, hsame⟩ | ⟨_, _, _, _, _, -, -, hr, -⟩
      · rw [hsame]
      · simp at hr
    · rename_i channels receipt hbuilt
      exact ⟨req, _, _, hflight, .charged hbound hbuilt, rfl, rfl⟩

/-- **What an action does to its request**: nothing, or it progresses. -/
theorem next_request (cfg : Config W) (s : State) (ha : a.request = some k) :
    next cfg s a = s ∨ Progresses cfg s k a (next cfg s a) := by
  cases a with
  | receive req now => simp [Action.request] at ha
  | ack ack => simp [Action.request] at ha
  | snapshot now => simp [Action.request] at ha
  | gate k' now =>
    obtain rfl := Option.some.inj ha
    simp only [next]
    split
    · rename_i hflight
      exact .inr (progresses_gate hflight)
    · exact .inl rfl
  | ethCall k' returndata =>
    obtain rfl := Option.some.inj ha
    simp only [next]
    split
    · rename_i hflight
      exact .inr ⟨_, _, _, hflight, .called, rfl, rfl⟩
    · exact .inl rfl
  | gateFetched k' now =>
    obtain rfl := Option.some.inj ha
    simp only [next]
    split
    · rename_i hflight
      exact progresses_gateFetched hflight
    · exact .inl rfl
  | backendStep k' fuel w now =>
    obtain rfl := Option.some.inj ha
    simp only [next]
    split
    · rename_i hflight
      exact progresses_backendStep hflight
    · exact .inl rfl
  | respond k' now =>
    obtain rfl := Option.some.inj ha
    simp only [next]
    split
    · rename_i hflight
      exact .inr (progresses_respond hflight)
    · exact .inl rfl

/-! ## What holds of a request along a run -/

/-- Requests get their numbers in the order they arrive. -/
theorem flights_of_le (r : Run (machine cfg) .start h t) (hk : t.received ≤ k) :
    t.flights k = none := by
  refine r.invariant (fun t => ∀ k, t.received ≤ k → t.flights k = none) (fun _ _ => rfl)
    (fun t a ih _ => ?_) k hk
  intro k hk
  cases hreq : a.request with
  | some j =>
    rcases next_request cfg t hreq with hidle | ⟨req, stage, stage', hj, -, hflights, hrec⟩
    · change (next cfg t a).received ≤ k at hk
      change (next cfg t a).flights k = none
      rw [hidle] at hk ⊢
      exact ih k hk
    · change (next cfg t a).received ≤ k at hk
      change (next cfg t a).flights k = none
      rw [hrec] at hk
      have hne : k ≠ j := by
        rintro rfl
        simp [ih k hk] at hj
      rw [hflights, update_of_ne hne]
      exact ih k hk
  | none =>
    cases a with
    | receive req now =>
      obtain ⟨hflights, hreceived⟩ := receive_spec cfg t req now
      change (receive cfg t req now).received ≤ k at hk
      change (receive cfg t req now).flights k = none
      rw [hreceived] at hk
      rw [hflights, update_of_ne (by omega)]
      exact ih k (by omega)
    | ack a => exact ih k hk
    | snapshot now => exact ih k hk
    | gate | ethCall | gateFetched | backendStep | respond => simp [Action.request] at hreq

/-- An action leaves the other requests. -/
theorem flights_next_of_ne {f : Flight} (r : Run (machine cfg) .start h t)
    (hk : t.flights k = some f) (hreq : a.request ≠ some k) :
    (next cfg t a).flights k = some f := by
  cases hj : a.request with
  | some j =>
    have hne : k ≠ j := by
      rintro rfl
      exact hreq hj
    rcases next_request cfg t hj with hidle | ⟨req, stage, stage', -, -, hflights, -⟩
    · rw [hidle]
      exact hk
    · rw [hflights, update_of_ne hne]
      exact hk
  | none =>
    cases a with
    | receive req now =>
      obtain ⟨hflights, -⟩ := receive_spec cfg t req now
      have hne : k ≠ t.received := by
        rintro rfl
        simp [flights_of_le r le_rfl] at hk
      rw [next, hflights, update_of_ne hne]
      exact hk
    | ack a => exact hk
    | snapshot now => exact hk
    | gate | ethCall | gateFetched | backendStep | respond => simp [Action.request] at hj

/-- **What every progress keeps holds of every request**: a property of the history and of the
stage that the request got to. -/
theorem request_invariant (J : List (Step W) → ℕ → EncryptedRequest → Stage → Prop)
    (P : List (Step W) → Step W → Prop) (r : Run (machine cfg) .start h t) (hP : Along P h)
    (arrives : ∀ {h t req now}, Run (machine cfg) .start h t →
      J (h ++ [⟨t, .receive req now, next cfg t (.receive req now)⟩]) t.received req
        (arrival cfg req))
    (waits : ∀ {h t a k req stage}, t.flights k = some ⟨req, stage⟩ → J h k req stage →
      (a.request = some k → next cfg t a = t) → J (h ++ [⟨t, a, next cfg t a⟩]) k req stage)
    (progresses : ∀ {h t a k req stage stage'}, Run (machine cfg) .start h t →
      P h ⟨t, a, next cfg t a⟩ → t.flights k = some ⟨req, stage⟩ → J h k req stage →
      a.request = some k → Progress cfg t k req a stage stage' (next cfg t a).channels →
      J (h ++ [⟨t, a, next cfg t a⟩]) k req stage')
    (hk : t.flights k = some ⟨req, stage⟩) : J h k req stage := by
  refine r.invariantHistory
    (fun h t => ∀ k req stage, t.flights k = some ⟨req, stage⟩ → J h k req stage) P hP
    (fun _ _ _ h => by simp [State.start] at h) (fun h t a run ih _ hP k req stage hk => ?_)
    k req stage hk
  change (next cfg t a).flights k = _ at hk
  cases hreq : a.request with
  | some j =>
    rcases next_request cfg t hreq with
      hidle | ⟨req', stage₀, stage', hj, hprogress, hflights, -⟩
    · rw [hidle] at hk
      exact waits hk (ih k req stage hk) fun _ => hidle
    · rw [hflights] at hk
      by_cases hkj : k = j
      · subst hkj
        rw [update_self] at hk
        obtain ⟨rfl, rfl⟩ : req' = req ∧ stage' = stage := by simpa using hk
        exact progresses run hP hj (ih k req' stage₀ hj) hreq hprogress
      · rw [update_of_ne hkj] at hk
        exact waits hk (ih k req stage hk) fun h =>
          absurd (Option.some.inj (hreq.symm.trans h).symm) hkj
  | none =>
    cases a with
    | receive req' now =>
      obtain ⟨hflights, -⟩ := receive_spec cfg t req' now
      change (receive cfg t req' now).flights k = _ at hk
      rw [hflights] at hk
      by_cases hkr : k = t.received
      · subst hkr
        rw [update_self] at hk
        obtain ⟨rfl, rfl⟩ : req' = req ∧ arrival cfg req' = stage := by simpa using hk
        exact arrives run
      · rw [update_of_ne hkr] at hk
        exact waits hk (ih k req stage hk) (by simp [Action.request])
    | ack a => exact waits hk (ih k req stage hk) (by simp [Action.request])
    | snapshot now => exact waits hk (ih k req stage hk) (by simp [Action.request])
    | gate | ethCall | gateFetched | backendStep | respond => simp [Action.request] at hreq

/-! ## How a request gets on -/

section Forward

variable {step : AgentStep} {now : ℤ} {idHex : String} {chainId : UInt64} {channelAddr : Address}
  {id : Bytes32} {deposit cumOwed : ℕ}

theorem next_receive (cfg : Config W) {agent : AgentLoop W} (s : State) (now : ℤ)
    (hopen : openRequest cfg req = .ok step) (hagent : agentOf cfg req.backend = .ok agent) :
    (next cfg s (.receive req now)).flights =
        update s.flights s.received (some ⟨req, .opened step⟩) ∧
      (next cfg s (.receive req now)).received = s.received + 1 := by
  rw [next, show Stage.opened step = arrival cfg req by simp only [arrival, hopen, hagent]]
  exact receive_spec cfg s req now

theorem next_gate_asked (now : ℤ) (hk : s.flights k = some ⟨req, .opened step⟩)
    (hbound : req.channelId = some idHex)
    (hch : gateChannel cfg.toChannelConfig idHex = .ok (chainId, channelAddr, id))
    (hdeposit : (s.channels.state id).deposit = none) :
    next cfg s (.gate k now) = s.setStage k req (.asked step (s.channels.state id).cumOwed) := by
  simp only [next, hk, gate, hbound, hch, gateRead_eq, hdeposit]

theorem next_gate_solvent (now : ℤ) (hk : s.flights k = some ⟨req, .opened step⟩)
    (hbound : req.channelId = some idHex)
    (hch : gateChannel cfg.toChannelConfig idHex = .ok (chainId, channelAddr, id))
    (hdeposit : (s.channels.state id).deposit = some deposit)
    (hbelow : (s.channels.state id).cumOwed < deposit) :
    next cfg s (.gate k now) = s.setStage k req (.admitted step) := by
  simp only [next, hk, gate, hbound, hch, gateRead_eq, hdeposit, passGate,
    (checkSolvent_eq_ok idHex).2 hbelow]

theorem next_gate_exhausted (now : ℤ) (hk : s.flights k = some ⟨req, .opened step⟩)
    (hbound : req.channelId = some idHex)
    (hch : gateChannel cfg.toChannelConfig idHex = .ok (chainId, channelAddr, id))
    (hdeposit : (s.channels.state id).deposit = some deposit)
    (hle : deposit ≤ (s.channels.state id).cumOwed) :
    ∃ msg, next cfg s (.gate k now) = s.fail k req now (.paymentRequired msg) := by
  obtain ⟨msg, hmsg⟩ := checkSolvent_eq_error idHex hle
  refine ⟨msg, ?_⟩
  simp only [next, hk, gate, hbound, hch, gateRead_eq, hdeposit, passGate, hmsg]

theorem next_gate_unbound (now : ℤ) (hk : s.flights k = some ⟨req, .opened step⟩)
    (hfree : req.channelId = none) :
    next cfg s (.gate k now) = s.setStage k req (.admitted step) := by
  simp only [next, hk, gate, hfree]

theorem next_ethCall (returndata : Except String (List UInt8))
    (hk : s.flights k = some ⟨req, .asked step cumOwed⟩) :
    next cfg s (.ethCall k returndata) =
      s.setStage k req (.fetched step cumOwed returndata) := by
  simp only [next, hk]

theorem next_gateFetched {data : List UInt8} (now : ℤ)
    (hk : s.flights k = some ⟨req, .fetched step cumOwed (.ok data)⟩)
    (hbound : req.channelId = some idHex)
    (hch : gateChannel cfg.toChannelConfig idHex = .ok (chainId, channelAddr, id))
    (hdecode : decodeChannelDeposit data = .ok deposit) (hbelow : cumOwed < deposit) :
    next cfg s (.gateFetched k now) =
      { s with channels := cacheDeposit s.channels id deposit }.setStage k req
        (.admitted step) := by
  simp only [next, hk, gateFetched, hbound, hch, hdecode, passGate,
    (checkSolvent_eq_ok idHex).2 hbelow]

theorem next_gateFetched_exhausted {data : List UInt8} (now : ℤ)
    (hk : s.flights k = some ⟨req, .fetched step cumOwed (.ok data)⟩)
    (hbound : req.channelId = some idHex)
    (hch : gateChannel cfg.toChannelConfig idHex = .ok (chainId, channelAddr, id))
    (hdecode : decodeChannelDeposit data = .ok deposit) (hle : deposit ≤ cumOwed) :
    ∃ msg, next cfg s (.gateFetched k now) =
      { s with channels := cacheDeposit s.channels id deposit }.fail k req now
        (.paymentRequired msg) := by
  obtain ⟨msg, hmsg⟩ := checkSolvent_eq_error idHex hle
  refine ⟨msg, ?_⟩
  simp only [next, hk, gateFetched, hbound, hch, hdecode, passGate, hmsg]

theorem next_backendStep (cfg : Config W) {agent : AgentLoop W} {fuel : ℕ} {w w' : W}
    {outcome : AgentStepOutcome} {session : List Value} (now : ℤ)
    (hk : s.flights k = some ⟨req, .admitted step⟩)
    (hagent : agentOf cfg req.backend = .ok agent)
    (hstep : agent.step fuel w ((s.sessions req.backend req.sessionId).getD []) (.ofStep step) =
      some (.ok outcome, session, w')) :
    next cfg s (.backendStep k fuel w now) =
      { s with
        sessions := update s.sessions req.backend
          (update (s.sessions req.backend) req.sessionId (some session)) }.setStage k req
        (.answered outcome.toResponse) := by
  simp only [next, hk, backendStep, hagent, hstep]

theorem next_backendStep_error (cfg : Config W) {agent : AgentLoop W} {fuel : ℕ} {w w' : W}
    {e : AgentError} {session : List Value} (now : ℤ)
    (hk : s.flights k = some ⟨req, .admitted step⟩)
    (hagent : agentOf cfg req.backend = .ok agent)
    (hstep : agent.step fuel w ((s.sessions req.backend req.sessionId).getD []) (.ofStep step) =
      some (.error e, session, w')) :
    (next cfg s (.backendStep k fuel w now)).flights = update s.flights k
        (some ⟨req, .done (.error (.internal "backend step: " (some (.agent e))))⟩) ∧
      (next cfg s (.backendStep k fuel w now)).received = s.received := by
  simp only [next, hk, backendStep, hagent, hstep]
  exact ⟨rfl, rfl⟩

theorem next_respond {response : AgentResponse} {channels : ChannelMap}
    {receipt : NodeSignedReceipt} (now : ℤ) (hk : s.flights k = some ⟨req, .answered response⟩)
    (hbound : req.channelId = some idHex)
    (hbuilt : buildReceipt cfg.toChannelConfig s.channels idHex req.backend req.sessionId
      response.usage req.prevAck = (channels, .ok receipt)) :
    next cfg s (.respond k now) =
      reply { s with channels := channels } k req response (some receipt) now := by
  simp only [next, hk, respond, hbound, hbuilt]

theorem next_respond_error {response : AgentResponse} {channels : ChannelMap} {e : ApiError}
    (now : ℤ) (hk : s.flights k = some ⟨req, .answered response⟩)
    (hbound : req.channelId = some idHex)
    (hbuilt : buildReceipt cfg.toChannelConfig s.channels idHex req.backend req.sessionId
      response.usage req.prevAck = (channels, .error e)) :
    next cfg s (.respond k now) = { s with channels := channels }.fail k req now e := by
  simp only [next, hk, respond, hbound, hbuilt]

theorem next_respond_free {response : AgentResponse} (now : ℤ)
    (hk : s.flights k = some ⟨req, .answered response⟩) (hfree : req.channelId = none) :
    next cfg s (.respond k now) = reply s k req response none now := by
  simp only [next, hk, respond, hfree]

/-- A request that is done stays so. -/
theorem next_done {r : Except ApiError Reply} (hk : s.flights k = some ⟨req, .done r⟩)
    (ha : a.request = some k) : next cfg s a = s := by
  rcases next_request cfg s ha with hidle | ⟨req', stage, stage', hk', hprogress, -, -⟩
  · exact hidle
  · obtain ⟨rfl, rfl⟩ : req' = req ∧ stage = .done r := by simpa [hk] using hk'.symm
    generalize (next cfg s a).channels = channels at hprogress
    cases hprogress with
    | failed e going => exact absurd rfl (going r)

theorem next_ack (cfg : Config W) (s : State) (a : ClientAck) :
    (next cfg s (.ack a)).flights = s.flights ∧ (next cfg s (.ack a)).received = s.received := by
  rw [next]
  exact ⟨rfl, rfl⟩

end Forward

/-! ## A node to run -/

namespace Deployment

open Text

open JobChannel.Deployment (testnet client channelId)

def hexText (l : List UInt8) : String := String.ofList ('0' :: 'x' :: hexEncode l)

/-- Texts of bytes are their hexadecimal digits, and a box names the key it opens with. -/
def envelope : Envelope where
  b64Decode s := (hexDecode (utf8 s.toList)).mapError fun _ => "invalid text"
  deriveKey pub _ := pub
  decrypt key _ ct := if ct.take 32 = key.toList then .ok (ct.drop 32) else .error "aead::Error"
  parseStep bytes := .ok (.prompt (String.ofList (bytes.map fun b => Char.ofNat b.toNat)))

/-- The node of the deployed contract, with one backend, at one base unit for each token. -/
def node (agent : AgentLoop W) : Config W where
  crypto := Crypto.symbolic
  fold _ c _ := [c]
  signEip191 canonical :=
    Crypto.symbolicSign JobChannel.Deployment.node (Crypto.symbolic.eip191Digest canonical)
  pricing := [⟨.Local, "1000"⟩]
  chain := some ⟨84532, some (hexText testnet.this.toList)⟩
  envelope := envelope
  mockTee := none
  localLlm := some agent

/-- An agent that answers every prompt, for ten tokens. -/
def parrot : AgentLoop Unit where
  provider w _ := (.ok ⟨[], "end_turn", ⟨10, 0, none, none⟩⟩, w)
  maxTokens := 16000
  systemPrompt := ""
  registry := []

/-- A prompt in a box of the key. -/
def prompt (key : Bytes32) (sessionId : String) (text : List UInt8) (channelId : Option String) :
    EncryptedRequest where
  sessionId := sessionId
  clientPublicKey := String.ofList (hexEncode key.toList)
  nonce := String.ofList (hexEncode [])
  ciphertext := String.ofList (hexEncode (key.toList ++ text))
  backend := .Local
  channelId := channelId
  prevAck := none

/-- The step in the box. -/
def stepOf (text : List UInt8) : AgentStep :=
  .prompt (String.ofList (text.map fun b => Char.ofNat b.toNat))

/-- A prompt on the channel. -/
abbrev bound (key : Bytes32) (sessionId : String) (text : List UInt8) : EncryptedRequest :=
  prompt key sessionId text (some (hexText channelId.toList))

/-- A request on the channel. -/
def request : EncryptedRequest := bound (.replicate 32 3) "session" [104, 105]

/-- What the contract returns for a channel with the deposit. -/
def returndata (deposit : ℕ) : List UInt8 :=
  JobChannel.encodeChannel { JobChannel.Channel.zero with deposit := deposit }

/-- The digest of a state of the channel. -/
def ackDigest (nonce : UInt64) (cumOwed : ℕ) : Bytes32 :=
  Crypto.symbolic.eip191Digest (canonicalChannelUpdateBytes Crypto.symbolic 84532 testnet.this
    channelId nonce (List.replicate 16 0 ++ beBytes 16 cumOwed))

/-- The ack of a key on a state of the channel. -/
def ackOn (key : Address) (nonce : UInt64) (cumOwed : ℕ) : ClientAck :=
  ⟨⟨hexText channelId.toList, nonce, cumOwed.repr⟩,
    hexText (Crypto.symbolicSign key (ackDigest nonce cumOwed))⟩

/-- A request from its arrival to the gate's decision. -/
def entering (k deposit : ℕ) : List (Action W) :=
  [.receive request 0, .gate k 0, .ethCall k (.ok (returndata deposit)), .gateFetched k 0]

/-- The work on an admitted request, and its receipt. -/
def finish (k : ℕ) : List (Action Unit) := [.backendStep k 1 () 0, .respond k 0]

theorem hexDecode_hexText (l : List UInt8) :
    hexDecode (utf8 (stripPrefix (hexText l).toList)) = .ok l := by
  simp only [hexText, String.toList_ofList, stripPrefix, hexDecode_hexEncode]

theorem channelIdFromHex_hexText (id : Bytes32) : channelIdFromHex (hexText id.toList) = .ok id :=
  channelIdFromHex_eq_ok.2 (hexDecode_hexText _)

theorem contract_node (agent : AgentLoop W) :
    (node agent).toChannelConfig.contract = some (84532, testnet.this) := by
  have haddr : parseAddr (hexText testnet.this.toList) = .ok testnet.this := by
    simp only [parseAddr, hexField, hexDecode_hexText, Bytes.ofList?_toList]
    rfl
  simp [ChannelConfig.contract, node, haddr, Except.toOption]

theorem resolveChannel_node (agent : AgentLoop W) (unset noChannel badAddress : String) :
    resolveChannel (node agent).toChannelConfig unset noChannel badAddress
      (hexText channelId.toList) = .ok (84532, testnet.this, channelId) :=
  resolveChannel_eq_ok.2 ⟨contract_node agent, channelIdFromHex_hexText _⟩

theorem decode_returndata {d : ℕ} (hd : d < 2 ^ 128) :
    decodeChannelDeposit (returndata d) = .ok d :=
  (decode_encodeChannel (show d < 2 ^ 256 by omega)).2 ⟨rfl, hd⟩

theorem priceFor_node (agent : AgentLoop W) : priceFor (node agent).pricing .Local = 1000 := by
  change (parseUnsigned (2 ^ 128) (Nat.repr 1000).toList).getD 0 = 1000
  rw [parseUnsigned_repr (by omega)]
  rfl

/-- The boxes open. -/
theorem openRequest_prompt (agent : AgentLoop W) (key : Bytes32) (sessionId : String)
    (text : List UInt8) (channelId : Option String) :
    openRequest (node agent) (prompt key sessionId text channelId) = .ok (stepOf text) := by
  have hb64 : ∀ l, envelope.b64Decode (String.ofList (hexEncode l)) = .ok l := fun l => by
    simp [envelope, hexDecode_hexEncode, Except.mapError]
  have hbox : envelope.decrypt key [] (key.toList ++ text) = .ok text := by
    simp [envelope]
  simp only [openRequest, decodeClientPub, node, prompt, hb64, Except.mapError, bind, Except.bind,
    Bytes.ofList?_toList, orThrow, Option.elim]
  simp only [show envelope.deriveKey key sessionId = key from rfl, hbox]
  rfl

theorem channelIdFromHex_ackOn (key : Address) (nonce : UInt64) (m : ℕ) :
    channelIdFromHex (ackOn key nonce m).update.channelId = .ok channelId :=
  channelIdFromHex_hexText channelId

/-- The key signed the ack. -/
theorem signedBy_ackOn (agent : AgentLoop W) (key : Address) (nonce : UInt64) {n : ℕ}
    (hn : n < 2 ^ 128) :
    SignedBy (node agent).toChannelConfig channelId (ackOn key nonce n) key := by
  have hsig : hexDecode (utf8 (trimStart (ackOn key nonce n).clientSig.toList)) =
      .ok (Crypto.symbolicSign key (ackDigest nonce n)) := by
    simp only [ackOn, hexText, String.toList_ofList, trimStart, trimStart_hexEncode,
      hexDecode_hexEncode]
  exact ⟨84532, testnet.this, _, _, contract_node agent, channelIdFromHex_hexText _,
    channelUpdateCanonicalFor_eq_ok.2 ⟨channelId, n, channelIdFromHex_hexText _,
      parseUnsigned_repr hn, rfl⟩, hsig, Crypto.symbolic_recover_sign _ _⟩

/-! ### What a list of actions leads to -/

abbrev trace (agent : AgentLoop W) (as : List (Action W)) : List (Step W) :=
  (machine (node agent)).trace .start as

abbrev final (agent : AgentLoop W) (as : List (Action W)) : State :=
  (machine (node agent)).final .start as

/-- Any list of actions is run. -/
theorem run_trace (cfg : Config W) (as : List (Action W)) :
    Run (machine cfg) .start ((machine cfg).trace .start as) ((machine cfg).final .start as) :=
  Run.of_legalFrom as .start ((machine cfg).legalFrom_of_forall (fun _ _ => trivial) _ _)

theorem run (agent : AgentLoop W) (as : List (Action W)) :
    Run (machine (node agent)) .start (trace agent as) (final agent as) := run_trace _ as

theorem trace_concat (agent : AgentLoop W) (as : List (Action W)) (a : Action W) :
    trace agent (as ++ [a]) =
      trace agent as ++ [⟨final agent as, a, final agent (as ++ [a])⟩] := by
  rw [trace, Machine.trace_concat, final, final, Machine.final_concat]

theorem run_concat (agent : AgentLoop W) (as : List (Action W)) (a : Action W) :
    Run (machine (node agent)) (final agent as)
      [⟨final agent as, a, final agent (as ++ [a])⟩] (final agent (as ++ [a])) := by
  rw [final, final, Machine.final_concat]
  exact .single trivial

/-- What happened to the channel. -/
def chronicleOf (agent : AgentLoop W) (as : List (Action W)) : List Mark :=
  chronicle (node agent).toChannelConfig channelId (trace agent as)

/-- Where a list of actions leaves the node: its requests and the marks of the channel. -/
structure Standing (agent : AgentLoop W) (as : List (Action W)) (flights : ℕ → Option Flight)
    (received : ℕ) (L : List Mark) : Prop where
  flights_eq : (final agent as).flights = flights
  received_eq : (final agent as).received = received
  chronicle_eq : chronicleOf agent as = L

theorem standing_nil (agent : AgentLoop W) : Standing agent [] (fun _ => none) 0 [] :=
  ⟨rfl, rfl, rfl⟩

variable {agent : AgentLoop W} {as : List (Action W)} {flights flights' : ℕ → Option Flight}
  {n n' k : ℕ} {L ms : List Mark} {key : Bytes32} {sessionId : String} {text : List UInt8}

namespace Standing

theorem state_eq (S : Standing agent as flights n L) :
    (final agent as).channels.state channelId = after L := by
  rw [(kept_chronicle (run agent as) channelId).2]
  exact congrArg after S.chronicle_eq

/-- One action more. -/
theorem concat {a : Action W} (S : Standing agent as flights n L)
    (h : ∀ s, s = final agent as → s.flights = flights → s.received = n →
      s.channels.state channelId = after L →
      (next (node agent) s a).flights = flights' ∧ (next (node agent) s a).received = n' ∧
      marks (node agent).toChannelConfig channelId ⟨s, a, next (node agent) s a⟩ = ms) :
    Standing agent (as ++ [a]) flights' n' (L ++ ms) := by
  obtain ⟨hflights, hreceived, hmarks⟩ := h _ rfl S.flights_eq S.received_eq S.state_eq
  refine ⟨?_, ?_, ?_⟩
  · rw [final, Machine.final_concat]
    exact hflights
  · rw [final, Machine.final_concat]
    exact hreceived
  · rw [← S.chronicle_eq, ← hmarks]
    rw [chronicleOf, trace_concat, chronicle_append, final, final, Machine.final_concat]
    simp only [chronicle, List.flatMap_cons, List.flatMap_nil, List.append_nil]
    rfl

/-- One action more that does not concern the channel. -/
theorem concatNil {a : Action W} (S : Standing agent as flights n L)
    (h : ∀ s, s = final agent as → s.flights = flights → s.received = n →
      s.channels.state channelId = after L →
      (next (node agent) s a).flights = flights' ∧ (next (node agent) s a).received = n' ∧
      marks (node agent).toChannelConfig channelId ⟨s, a, next (node agent) s a⟩ = []) :
    Standing agent (as ++ [a]) flights' n' L := by
  simpa only [List.append_nil] using S.concat h

/-- A prompt arrives. -/
theorem arrive (S : Standing agent as flights n L) (key : Bytes32) (sessionId : String)
    (text : List UInt8) (chan : Option String) :
    Standing agent (as ++ [.receive (prompt key sessionId text chan) 0])
      (update flights n (some ⟨prompt key sessionId text chan, .opened (stepOf text)⟩)) (n + 1)
      L := by
  refine S.concatNil fun s _ hflights hreceived _ => ?_
  obtain ⟨hflights', hreceived'⟩ := next_receive (node agent) s 0
    (openRequest_prompt agent key sessionId text chan) rfl
  rw [hflights, hreceived] at hflights'
  rw [hreceived] at hreceived'
  exact ⟨hflights', hreceived', by rw [marks]⟩

theorem receive (S : Standing agent as flights n L) :
    Standing agent (as ++ [.receive request 0])
      (update flights n (some ⟨request, .opened (stepOf [104, 105])⟩)) (n + 1) L :=
  S.arrive ..

/-- The gate asks the chain for the deposit of a channel it does not know. -/
theorem ask {step : AgentStep} (S : Standing agent as flights n L)
    (hk : flights k = some ⟨bound key sessionId text, .opened step⟩)
    (hdeposit : (after L).deposit = none) :
    Standing agent (as ++ [.gate k 0])
      (update flights k (some ⟨bound key sessionId text, .asked step (after L).cumOwed⟩)) n L := by
  refine S.concatNil fun s _ hflights hreceived hstate => ?_
  rw [← hflights] at hk ⊢
  rw [← hstate] at hdeposit ⊢
  rw [next_gate_asked 0 hk rfl (resolveChannel_node agent _ _ _) hdeposit]
  exact ⟨setStage_flights _, hreceived, by rw [marks]⟩

theorem ethCall {step : AgentStep} {cumOwed : ℕ} (S : Standing agent as flights n L)
    (hk : flights k = some ⟨bound key sessionId text, .asked step cumOwed⟩)
    (returndata : Except String (List UInt8)) :
    Standing agent (as ++ [.ethCall k returndata])
      (update flights k (some ⟨bound key sessionId text, .fetched step cumOwed returndata⟩)) n
      L := by
  refine S.concatNil fun s _ hflights hreceived _ => ?_
  rw [← hflights] at hk ⊢
  rw [next_ethCall returndata hk]
  exact ⟨setStage_flights _, hreceived, by rw [marks]⟩

theorem fetch {step : AgentStep} {cumOwed d : ℕ} {data : List UInt8}
    (S : Standing agent as flights n L)
    (hk : flights k = some ⟨bound key sessionId text, .fetched step cumOwed (.ok data)⟩)
    (hdecode : decodeChannelDeposit data = .ok d) (hbelow : cumOwed < d) :
    Standing agent (as ++ [.gateFetched k 0])
      (update flights k (some ⟨bound key sessionId text, .admitted step⟩)) n
      (L ++ [.cached d]) := by
  refine S.concat fun s _ hflights hreceived _ => ?_
  have hbound : (bound key sessionId text).channelId = some (hexText channelId.toList) := rfl
  rw [← hflights] at hk ⊢
  rw [next_gateFetched 0 hk hbound (resolveChannel_node agent _ _ _) hdecode hbelow]
  refine ⟨setStage_flights _, hreceived, ?_⟩
  simp only [marks, hk, hbound, Option.toList_some, List.flatMap_cons, List.flatMap_nil,
    List.append_nil, cacheMarks, gateChannel, resolveChannel_node, Except.bind, hdecode, if_true]

/-- The gate knows the deposit. -/
theorem pass {step : AgentStep} {d : ℕ} (S : Standing agent as flights n L)
    (hk : flights k = some ⟨bound key sessionId text, .opened step⟩)
    (hdeposit : (after L).deposit = some d) (hbelow : (after L).cumOwed < d) :
    Standing agent (as ++ [.gate k 0])
      (update flights k (some ⟨bound key sessionId text, .admitted step⟩)) n L := by
  refine S.concatNil fun s _ hflights hreceived hstate => ?_
  rw [← hflights] at hk ⊢
  rw [← hstate] at hdeposit hbelow
  rw [next_gate_solvent 0 hk rfl (resolveChannel_node agent _ _ _) hdeposit hbelow]
  exact ⟨setStage_flights _, hreceived, by rw [marks]⟩

/-- The gate knows the deposit, and all of it is owed. -/
theorem exhaust {step : AgentStep} {d : ℕ} (S : Standing agent as flights n L)
    (hk : flights k = some ⟨bound key sessionId text, .opened step⟩)
    (hdeposit : (after L).deposit = some d) (hle : d ≤ (after L).cumOwed) :
    ∃ msg, Standing agent (as ++ [.gate k 0]) (update flights k
      (some ⟨bound key sessionId text, .done (.error (.paymentRequired msg))⟩)) n L := by
  have hk' : (final agent as).flights k = _ := (congrFun S.flights_eq k).trans hk
  rw [← S.state_eq] at hdeposit hle
  obtain ⟨msg, hmsg⟩ := next_gate_exhausted 0 hk' rfl (resolveChannel_node agent _ _ _) hdeposit hle
  refine ⟨msg, S.concatNil fun s hs hflights hreceived _ => ?_⟩
  rw [hs, hmsg, ← hs]
  refine ⟨?_, hreceived, by rw [marks]⟩
  rw [← hflights]
  rfl

/-- The gate learns the deposit, and all of it is owed. -/
theorem decline {step : AgentStep} {cumOwed d : ℕ} {data : List UInt8}
    (S : Standing agent as flights n L)
    (hk : flights k = some ⟨bound key sessionId text, .fetched step cumOwed (.ok data)⟩)
    (hdecode : decodeChannelDeposit data = .ok d) (hle : d ≤ cumOwed) :
    ∃ msg, Standing agent (as ++ [.gateFetched k 0]) (update flights k
      (some ⟨bound key sessionId text, .done (.error (.paymentRequired msg))⟩)) n
      (L ++ [.cached d]) := by
  have hbound : (bound key sessionId text).channelId = some (hexText channelId.toList) := rfl
  have hk' : (final agent as).flights k = _ := (congrFun S.flights_eq k).trans hk
  obtain ⟨msg, hmsg⟩ := next_gateFetched_exhausted 0 hk' hbound (resolveChannel_node agent _ _ _)
    hdecode hle
  refine ⟨msg, S.concat fun s hs hflights hreceived _ => ?_⟩
  rw [hs, hmsg, ← hs]
  refine ⟨?_, hreceived, ?_⟩
  · rw [← hflights]
    rfl
  · rw [← hs] at hk'
    simp only [marks, hk', hbound, Option.toList_some, List.flatMap_cons, List.flatMap_nil,
      List.append_nil, cacheMarks, gateChannel, resolveChannel_node, Except.bind, hdecode, if_true]

/-- A request that is done is done. -/
theorem idle {req : EncryptedRequest} {r : Except ApiError Reply}
    (S : Standing agent as flights n L) (hk : flights k = some ⟨req, .done r⟩) {a : Action W}
    (ha : a.request = some k) : Standing agent (as ++ [a]) flights n L := by
  refine S.concatNil fun s _ hflights hreceived _ => ?_
  rw [← hflights] at hk
  rw [next_done hk ha]
  refine ⟨hflights, hreceived, ?_⟩
  cases a with
  | receive | ack | snapshot => simp [Action.request] at ha
  | gate | ethCall | backendStep => rw [marks]
  | gateFetched k' now =>
    obtain rfl := Option.some.inj ha
    simp only [marks, hk]
  | respond k' now =>
    obtain rfl := Option.some.inj ha
    simp only [marks, hk]

/-- A step that the agent ends with an answer. -/
theorem answer {step : AgentStep} {outcome : AgentStepOutcome} {fuel : ℕ} {w : W}
    (S : Standing agent as flights n L)
    (hk : flights k = some ⟨bound key sessionId text, .admitted step⟩)
    (hstep : ∀ session, ∃ session' w', agent.step fuel w session (.ofStep step) =
      some (.ok outcome, session', w')) :
    Standing agent (as ++ [.backendStep k fuel w 0])
      (update flights k (some ⟨bound key sessionId text, .answered outcome.toResponse⟩)) n L := by
  refine S.concatNil fun s _ hflights hreceived _ => ?_
  obtain ⟨session', w', hstep⟩ := hstep ((s.sessions BackendType.Local sessionId).getD [])
  rw [← hflights] at hk ⊢
  rw [next_backendStep (node agent) 0 hk rfl hstep]
  exact ⟨setStage_flights _, hreceived, by rw [marks]⟩

/-- A step that the agent fails. -/
theorem quit {step : AgentStep} {e : AgentError} {w : W}
    (S : Standing agent as flights n L)
    (hk : flights k = some ⟨bound key sessionId text, .admitted step⟩)
    (hstep : ∀ session, ∃ session' w', agent.step 1 w session (.ofStep step) =
      some (.error e, session', w')) :
    Standing agent (as ++ [.backendStep k 1 w 0]) (update flights k
      (some ⟨bound key sessionId text,
        .done (.error (.internal "backend step: " (some (.agent e))))⟩)) n L := by
  refine S.concatNil fun s _ hflights hreceived _ => ?_
  obtain ⟨session', w', hstep⟩ := hstep ((s.sessions BackendType.Local sessionId).getD [])
  rw [← hflights] at hk ⊢
  obtain ⟨hflights', hreceived'⟩ := next_backendStep_error (node agent) 0 hk rfl hstep
  exact ⟨hflights', hreceived'.trans hreceived, by rw [marks]⟩

theorem respond {response : AgentResponse} (S : Standing agent as flights n L)
    (hk : flights k = some ⟨bound key sessionId text, .answered response⟩) :
    ∃ receipt,
      Standing agent (as ++ [.respond k 0])
        (update flights k (some ⟨bound key sessionId text,
          .done (.ok ⟨sessionId, response, some receipt⟩)⟩)) n
        (L ++ [.issued receipt (roundTripCost response.usage 1000)]) ∧
      receipt.update = ((after L).charge (roundTripCost response.usage 1000)).update
        (hexText channelId.toList) ∧
      receipt.breakdown.roundTripCost = (roundTripCost response.usage 1000).repr := by
  have hbound : (bound key sessionId text).channelId = some (hexText channelId.toList) := rfl
  have hack : (bound key sessionId text).prevAck = none := rfl
  have hprice : priceFor (node agent).pricing (bound key sessionId text).backend = 1000 :=
    priceFor_node agent
  have hch : receiptChannel (node agent).toChannelConfig (hexText channelId.toList) =
    .ok (84532, testnet.this, channelId) := resolveChannel_node agent _ _ _
  have hrec : recordPrevAck (node agent).toChannelConfig ((final agent as).channels.state channelId)
      none (hexText channelId.toList) 84532 testnet.this = .ok (after L) := by
    rw [S.state_eq]
    rfl
  obtain ⟨receipt, hbuilt, hupdate, hbreakdown⟩ := buildReceipt_ok hch hrec
    (bound key sessionId text).backend (bound key sessionId text).sessionId response.usage
  rw [hprice] at hbuilt hupdate hbreakdown
  refine ⟨receipt, S.concat fun s hs hflights hreceived _ => ?_, hupdate, by rw [hbreakdown]⟩
  rw [← hs, ← hack] at hbuilt
  rw [← hflights] at hk ⊢
  rw [next_respond 0 hk hbound hbuilt]
  refine ⟨reply_flights _ _, hreceived, ?_⟩
  simp only [marks, hk, hbound, Option.toList_some, List.flatMap_cons, List.flatMap_nil,
    List.append_nil, receiptMarks, hch, hbuilt, if_true, hprice]
  rw [hack]
  rfl

/-- What the node does with an ack of the key. -/
theorem ackMarks_eq {s : State} (hstate : s.channels.state channelId = after L) (key : Address)
    (nonce : UInt64) {m : ℕ} (hm : m < 2 ^ 128) :
    ackMarks (node agent).toChannelConfig s.channels channelId (ackOn key nonce m) =
      if ∀ known ∈ (after L).clientAddress, known = key then [.acked (ackOn key nonce m) key]
      else [] := by
  have hch : ackChannel (node agent).toChannelConfig (ackOn key nonce m) =
      .ok (84532, testnet.this, channelId) := resolveChannel_node ..
  have hid := channelIdFromHex_ackOn key nonce m
  simp only [ackMarks, hch, if_true, hstate]
  split
  · rename_i hknown
    rw [(verifyAndRecordAck_eq_ok (contract_node agent) hid).2
      ⟨key, signedBy_ackOn agent key nonce hm, hknown, rfl⟩]
    rfl
  · rename_i hknown
    generalize hv : verifyAndRecordAck _ _ _ _ _ _ = v
    cases v with
    | error e => rfl
    | ok entry =>
      obtain ⟨signer, hsigned, hsigner, -⟩ :=
        (verifyAndRecordAck_eq_ok (contract_node agent) hid).1 hv
      rw [hsigned.unique (signedBy_ackOn agent key nonce hm)] at hsigner
      exact absurd hsigner hknown

theorem ack (S : Standing agent as flights n L) (key : Address) (nonce : UInt64) {m : ℕ}
    (hm : m < 2 ^ 128) (hknown : ∀ known ∈ (after L).clientAddress, known = key) :
    Standing agent (as ++ [.ack (ackOn key nonce m)]) flights n
      (L ++ [.acked (ackOn key nonce m) key]) := by
  refine S.concat fun s _ hflights hreceived hstate => ?_
  obtain ⟨hflights', hreceived'⟩ := next_ack (node agent) s (ackOn key nonce m)
  refine ⟨hflights'.trans hflights, hreceived'.trans hreceived, ?_⟩
  rw [marks_ack, ackMarks_eq hstate key nonce hm, if_pos hknown]

/-- A request up to the agent, on a channel whose deposit the node asks for. -/
theorem enter (S : Standing agent as flights n L) {d : ℕ} (hdeposit : (after L).deposit = none)
    (hd : d < 2 ^ 128) (hbelow : (after L).cumOwed < d) :
    Standing agent (as ++ Deployment.entering n d)
      (update flights n (some ⟨request, .admitted (stepOf [104, 105])⟩)) (n + 1)
      (L ++ [.cached d]) := by
  have S₁ := S.receive.ask (update_self ..) hdeposit
  have S₂ := (S₁.ethCall (update_self ..) (.ok (returndata d))).fetch (update_self ..)
    (decode_returndata hd) hbelow
  simp only [update_idem, List.append_assoc] at S₂
  exact S₂

/-- The answer of the parrot, and its receipt. -/
theorem finish {as : List (Action Unit)}
    (S : Standing parrot as flights n L)
    (hk : flights k = some ⟨request, .admitted (stepOf [104, 105])⟩) :
    ∃ receipt response,
      Standing parrot (as ++ Deployment.finish k)
        (update flights k (some ⟨request, .done (.ok ⟨"session", response, some receipt⟩)⟩)) n
        (L ++ [.issued receipt 10]) ∧
      receipt.update = ((after L).charge 10).update (hexText channelId.toList) ∧
      receipt.breakdown.roundTripCost = (10 : ℕ).repr := by
  have hanswer : ∀ session, ∃ session' w', parrot.step 1 () session (.ofStep (stepOf [104, 105])) =
    some (.ok (.final "" ⟨10, 0, none, none⟩), session', w') := fun _ => ⟨_, _, rfl⟩
  obtain ⟨receipt, S₂, hupdate, hcost⟩ := (S.answer hk hanswer).respond (update_self ..)
  simp only [update_idem, List.append_assoc] at S₂
  exact ⟨receipt, _, S₂, hupdate, hcost⟩

end Standing

/-! ### Two requests -/

/-- Two requests, and an ack on the receipt of the first. -/
def served : List (Action Unit) :=
  entering 0 100 ++ finish 0 ++ [.ack (ackOn client 1 10)] ++ [.receive request 0, .gate 1 0] ++
    finish 1

/-- Two requests, each acked. -/
def acked : List (Action Unit) := served ++ [.ack (ackOn client 2 20)]

/-- The marks of the two requests and their acks. -/
def marksAcked (r₁ r₂ : NodeSignedReceipt) : List Mark :=
  [] ++ [.cached 100] ++ [.issued r₁ 10] ++ [.acked (ackOn client 1 10) client] ++
    [.issued r₂ 10] ++ [.acked (ackOn client 2 20) client]

/-- The receipt is on a state of the channel, for a round trip of ten tokens. -/
def ReceiptOn (receipt : NodeSignedReceipt) (nonce : UInt64) (cumOwed : ℕ) : Prop :=
  receipt.update.nonce = nonce ∧ receipt.update.owed = some cumOwed ∧ costOf receipt = some 10

theorem receiptOn_of_update {receipt : NodeSignedReceipt} {c : ChannelState}
    (hupdate : receipt.update = c.update (hexText channelId.toList))
    (hcost : receipt.breakdown.roundTripCost = (10 : ℕ).repr) (hlt : c.cumOwed < 2 ^ 128) :
    ReceiptOn receipt c.nonce c.cumOwed := by
  rw [ReceiptOn, hupdate, costOf, hcost, parseUnsigned_repr (by omega)]
  exact ⟨rfl, owed_update hlt _, rfl⟩

theorem standing_acked : ∃ flights r₁ r₂, Standing parrot acked flights 2 (marksAcked r₁ r₂) ∧
    ReceiptOn r₁ 1 10 ∧ ReceiptOn r₂ 2 20 := by
  have S₁ := (standing_nil parrot).enter (d := 100) rfl (by omega) (by decide)
  obtain ⟨r₁, _, S₂, hr₁, hc₁⟩ := S₁.finish (update_self ..)
  have S₃ := S₂.ack client 1 (m := 10) (by omega) nofun
  obtain ⟨r₂, _, S₄, hr₂, hc₂⟩ := (S₃.receive.pass (d := 100) (update_self ..) rfl
    (show 10 < 100 by omega)).finish (update_self ..)
  have S₅ := S₄.ack client 2 (m := 20) (by omega) (by rintro known ⟨⟩; rfl)
  exact ⟨_, r₁, r₂, S₅, receiptOn_of_update hr₁ hc₁ (show 10 < 2 ^ 128 by omega),
    receiptOn_of_update hr₂ hc₂ (show 20 < 2 ^ 128 by omega)⟩

theorem owed_ackOn (key : Address) (nonce : UInt64) {m : ℕ} (hm : m < 2 ^ 128) :
    (ackOn key nonce m).update.owed = some m := parseUnsigned_repr hm

end Deployment

end Node

end Flodex
