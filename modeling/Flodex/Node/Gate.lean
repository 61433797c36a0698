import Flodex.Node.Stages

/-!
# What a request knows of its gate

The gate compares an amount and a deposit that it read at other moments than the one at which it
lets the request through: the amount when the check began, the deposit when some check fetched it.
`gated` follows the amount from the stage of a request back to the event that read it, and
`cached_marks` the deposit to the fetch. `admits_cases` is the inversion of the gate: the two ways
in which it lets a request through.
-/

namespace Flodex.Node

variable {W : Type*}

/-! ## The deposit -/

/-- The deposit that the node knows is one that it cached. -/
theorem cached_mem {L : List Mark} {d : ℕ} (h : (after L).deposit = some d) : .cached d ∈ L := by
  induction L using List.reverseRecOn with
  | nil => simp [ChannelState.new] at h
  | append_singleton L m ih =>
    rw [after_concat] at h
    rw [List.mem_append, List.mem_singleton]
    cases m with
    | cached deposit =>
      obtain rfl := Option.some.inj h
      exact .inr rfl
    | acked a signer => exact .inl (ih h)
    | issued receipt cost => exact .inl (ih h)

theorem not_cached_ackedMarks {d : ℕ} (a : ClientAck) (r : Except ProtocolError ChannelState) :
    .cached d ∉ ackedMarks a r := by
  cases r <;> simp [ackedMarks]

/-- **An event that caches a deposit** is a gate that fetched it. -/
theorem cached_marks {cfg : ChannelConfig} {id : Bytes32} {d : ℕ} {e : Step W}
    (h : .cached d ∈ marks cfg id e) : ∃ k now req step cumOwed data, e.act = .gateFetched k now ∧
      e.pre.flights k = some ⟨req, .fetched step cumOwed (.ok data)⟩ ∧ req.OnChannel id ∧
      decodeChannelDeposit data = .ok d := by
  obtain ⟨s, a, t⟩ := e
  unfold marks at h
  cases a with
  | gateFetched k now =>
    dsimp only at h
    split at h
    · rename_i req step cumOwed returndata hflight
      obtain ⟨idHex, hbound, hcache⟩ := List.mem_flatMap.1 h
      unfold cacheMarks at hcache
      split at hcache
      · rename_i hch hdecode
        obtain ⟨data, rfl, hdecode⟩ := bind_eq_ok.1 hdecode
        split at hcache
        · rename_i heq
          subst heq
          obtain rfl : d = _ := by simpa using hcache
          exact ⟨k, now, req, step, cumOwed, data, rfl, hflight,
            ⟨idHex, Option.mem_toList.1 hbound, (resolveChannel_eq_ok.1 hch).2⟩, hdecode⟩
        · simp at hcache
      · simp at hcache
    · simp at h
  | respond k now =>
    dsimp only at h
    split at h
    · obtain ⟨idHex, -, hreceipt⟩ := List.mem_flatMap.1 h
      unfold receiptMarks at hreceipt
      split at hreceipt
      · split at hreceipt
        · simp [not_cached_ackedMarks] at hreceipt
        · simp at hreceipt
      · simp at hreceipt
    · simp at h
  | ack a =>
    dsimp only [ackMarks] at h
    split at h
    · split at h
      · exact absurd h (not_cached_ackedMarks a _)
      · simp at h
    · simp at h
  | receive | gate | ethCall | backendStep | snapshot => simp at h

/-! ## The amount -/

/-- At this event the gate of the request reads its channel. -/
def ReadsGate (k : ℕ) (e : Step W) : Prop :=
  (∃ now, e.act = .gate k now) ∧ ∃ req step, e.pre.flights k = some ⟨req, .opened step⟩

/-- The request passed the gate, or waits for the deposit. -/
def BehindGate : Stage → Prop
  | .opened _ => False
  | .asked .. => True
  | .fetched .. => True
  | .admitted _ => True
  | .answered _ => True
  | .done _ => False

/-- What the stage says about the amount that the gate read, with the deposits that the node
cached. -/
def Saw (L : List Mark) (cumOwed : ℕ) : Stage → Prop
  | .opened _ => True
  | .asked _ seen => seen = cumOwed
  | .fetched _ seen _ => seen = cumOwed
  | .admitted _ => ∃ deposit, .cached deposit ∈ L ∧ cumOwed < deposit
  | .answered _ => ∃ deposit, .cached deposit ∈ L ∧ cumOwed < deposit
  | .done _ => True

/-- A request on the channel that is behind the gate went through it at some event. -/
def Gated (cfg : ChannelConfig) (id : Bytes32) (h : List (Step W)) (k : ℕ)
    (req : EncryptedRequest) (stage : Stage) : Prop :=
  req.OnChannel id → BehindGate stage → ∃ h₁ g h₂, h = h₁ ++ g :: h₂ ∧ ReadsGate k g ∧
    Saw (chronicle cfg id h) (g.pre.channels.state id).cumOwed stage

variable {config : Config W} {h : List (Step W)} {s t : State} {k : ℕ} {req : EncryptedRequest}
  {stage stage' : Stage} {id : Bytes32}

theorem Saw.mono {L L' : List Mark} {n : ℕ} (h : Saw L n stage) (hsub : L ⊆ L') :
    Saw L' n stage := by
  cases stage with
  | opened | asked | fetched | done => exact h
  | admitted | answered =>
    obtain ⟨d, hd, hlt⟩ := h
    exact ⟨d, hsub hd, hlt⟩

theorem Gated.later {cfg : ChannelConfig} (hgated : Gated cfg id h k req stage) (e : Step W)
    (hbehind : BehindGate stage' → BehindGate stage)
    (hsaw : ∀ n, Saw (chronicle cfg id (h ++ [e])) n stage →
      Saw (chronicle cfg id (h ++ [e])) n stage') : Gated cfg id (h ++ [e]) k req stage' := by
  intro hid hstage'
  obtain ⟨h₁, g, h₂, rfl, hg, hs⟩ := hgated hid (hbehind hstage')
  refine ⟨h₁, g, h₂ ++ [e], by simp, hg, hsaw _ (hs.mono ?_)⟩
  rw [chronicle_append (h₁ ++ g :: h₂)]
  exact List.subset_append_left ..

/-- **A request behind the gate** was compared with the amount that the gate read. -/
theorem gated (r : Run (machine config) .start h t) (id : Bytes32)
    (hk : t.flights k = some ⟨req, stage⟩) :
    Gated config.toChannelConfig id h k req stage := by
  refine request_invariant (Gated config.toChannelConfig id) (fun _ _ => True) r
    (fun _ _ _ _ => trivial) ?_ ?_ ?_ hk
  · intro h t req now _ _ hbehind
    rcases arrival_cases config req with ⟨step, h⟩ | ⟨e, h⟩
    · rw [h] at hbehind
      exact hbehind.elim
    · rw [h] at hbehind
      exact hbehind.elim
  · intro h t a k req stage _ hgated _
    exact hgated.later _ (fun hb => hb) fun _ hs => hs
  · intro h t a k req stage stage' run _ hflight hgated hreq hprogress
    -- the deposit that the node knows after the action is among those that it cached
    have hknown : ∀ d, ((next config t a).channels.state id).deposit = some d →
        .cached d ∈ chronicle config.toChannelConfig id (h ++ [⟨t, a, next config t a⟩]) := by
      intro d hd
      have hstate : (next config t a).channels.state id = _ :=
        (kept_chronicle (run.snoc (a := a) trivial) id).2
      rw [hstate] at hd
      exact cached_mem hd
    generalize hch : (next config t a).channels = channels at hprogress hknown
    intro hid hbehind
    cases hprogress with
    | unbound free =>
      obtain ⟨idHex, hbound, -⟩ := hid
      simp [free] at hbound
    | @asked now step id' bound unknown =>
      obtain rfl := hid.unique bound
      exact ⟨h, _, [], rfl, ⟨⟨now, rfl⟩, req, step, hflight⟩, rfl⟩
    | @solvent now step id' d bound cached below =>
      obtain rfl := hid.unique bound
      exact ⟨h, _, [], rfl, ⟨⟨now, rfl⟩, req, step, hflight⟩, d, hknown d cached, below⟩
    | called => exact hgated.later _ (fun _ => trivial) (fun _ hs => hs) hid hbehind
    | @fetched now step seen data id' d bound decoded below =>
      obtain rfl := hid.unique bound
      refine hgated.later _ (fun _ => trivial) (fun n hs => ?_) hid hbehind
      obtain rfl := hs
      exact ⟨d, hknown d (by simp [cacheDeposit]), below⟩
    | ran => exact hgated.later _ (fun _ => trivial) (fun _ hs => hs) hid hbehind
    | replied => exact hbehind.elim
    | charged => exact hbehind.elim
    | failed => exact hbehind.elim

/-! ## The decision -/

/-- At this event the gate lets the request on the channel through. -/
def Admits (id : Bytes32) (k : ℕ) (e : Step W) : Prop :=
  ∃ req stage step, e.pre.flights k = some ⟨req, stage⟩ ∧ (∀ step', stage ≠ .admitted step') ∧
    e.post.flights k = some ⟨req, .admitted step⟩ ∧ req.OnChannel id

/-- The gate lets the request through on the deposit that it knows, or on the one that it
fetched. -/
theorem admits_cases {a : Action W} (r : Run (machine config) .start h s)
    (hadmits : Admits id k ⟨s, a, next config s a⟩) :
    (∃ deposit, ReadsGate k ⟨s, a, next config s a⟩ ∧
      (s.channels.state id).deposit = some deposit ∧ (s.channels.state id).cumOwed < deposit) ∨
    ∃ now req step cumOwed data deposit, a = .gateFetched k now ∧
      s.flights k = some ⟨req, .fetched step cumOwed (.ok data)⟩ ∧ req.OnChannel id ∧
      decodeChannelDeposit data = .ok deposit ∧ cumOwed < deposit := by
  obtain ⟨req, stage, step, hpre, hstage, hpost, hid⟩ := hadmits
  change s.flights k = _ at hpre
  change (next config s a).flights k = _ at hpost
  by_cases hreq : a.request = some k
  · rcases next_request config s hreq with
      hidle | ⟨req', stage₀, stage', hk, hprogress, hflights, -⟩
    · rw [hidle, hpre, Option.some.injEq, Flight.mk.injEq] at hpost
      exact absurd hpost.2 (hstage step)
    · obtain ⟨rfl, rfl⟩ : req' = req ∧ stage₀ = stage := by simpa [hk] using hpre
      obtain rfl : stage' = .admitted step := by simpa [hflights] using hpost
      generalize (next config s a).channels = channels at hprogress
      cases hprogress with
      | unbound free =>
        obtain ⟨idHex, hbound, -⟩ := hid
        simp [free] at hbound
      | @solvent now _ id' d bound cached below =>
        obtain rfl := hid.unique bound
        exact .inl ⟨d, ⟨⟨now, rfl⟩, req', step, hk⟩, cached, below⟩
      | @fetched now _ seen data id' d bound decoded below =>
        exact .inr ⟨now, req', step, seen, data, d, rfl, hk, hid, decoded, below⟩
  · rw [flights_next_of_ne r hpre hreq, Option.some.injEq, Flight.mk.injEq] at hpost
    exact absurd hpost.2 (hstage step)

/-- A request waits with the answer of an `eth_call` since that call. -/
theorem fetched_next (config : Config W) {a : Action W} {step : AgentStep} {cumOwed : ℕ}
    {returndata : Except String (List UInt8)}
    (hk : (next config s a).flights k = some ⟨req, .fetched step cumOwed returndata⟩) :
    s.flights k = some ⟨req, .fetched step cumOwed returndata⟩ ∨
      a = .ethCall k returndata ∧ s.flights k = some ⟨req, .asked step cumOwed⟩ := by
  cases hreq : a.request with
  | some j =>
    rcases next_request config s hreq with
      hidle | ⟨req', stage₀, stage', hj, hprogress, hflights, -⟩
    · rw [hidle] at hk
      exact .inl hk
    · rw [hflights] at hk
      by_cases hkj : k = j
      · subst hkj
        obtain ⟨rfl, rfl⟩ : req' = req ∧ stage' = .fetched step cumOwed returndata := by
          simpa using hk
        generalize (next config s a).channels = channels at hprogress
        cases hprogress with
        | called => exact .inr ⟨rfl, hj⟩
      · rw [Function.update_of_ne hkj] at hk
        exact .inl hk
  | none =>
    cases a with
    | receive req' now =>
      obtain ⟨hflights, -⟩ := receive_spec config s req' now
      change (receive config s req' now).flights k = _ at hk
      rw [hflights] at hk
      by_cases hkr : k = s.received
      · subst hkr
        obtain ⟨-, hstage⟩ : req' = req ∧
            arrival config req' = .fetched step cumOwed returndata := by
          simpa using hk
        rcases arrival_cases config req' with ⟨_, h⟩ | ⟨_, h⟩ <;> simp [hstage] at h
      · rw [Function.update_of_ne hkr] at hk
        exact .inl hk
    | ack a => exact .inl hk
    | snapshot now => exact .inl hk
    | gate | ethCall | gateFetched | backendStep | respond => simp [Action.request] at hreq

end Flodex.Node
