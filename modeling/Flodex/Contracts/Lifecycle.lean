import Flodex.Contracts.ChannelRuns

/-!
# The life of a channel

The record of a channel goes from `None` over `Open` and `Challenged` to `Closed`, and each of
its fields only moves one way. `Advances` is the order on records in which every call is a step
up; `Channel.WellFormed` is the invariant it needs, above all that the nonce is `0` while the
channel is open, which is why a challenge of an open channel need not compare nonces.
-/

namespace Flodex.JobChannel

variable (cfg : Config)

/-- The channel a call is about. -/
def Call.channel (msg : Msg) : Call → Bytes32
  | .openChannel node channelNonce _ => channelIdOf cfg msg.sender node channelNonce.toNat
  | .topUp channelId _ => channelId
  | .cooperativeClose channelId .. => channelId
  | .challengeClose channelId .. => channelId
  | .submitChallenge channelId .. => channelId
  | .finalize channelId => channelId
  | .reclaim channelId => channelId

/-! ## The property -/

/-- What every record satisfies. -/
structure Channel.WellFormed (c : Channel) : Prop where
  unopened : c.status = .None → c = .zero
  opened : c.status = .Open → c.latestNonce = 0 ∧ c.challengeDeadline = 0
  closed : c.status = .Closed → c.deposit = 0

/-- The ways in which a record may change, by any number of calls. -/
structure Advances (c c' : Channel) : Prop where
  status : c.status.toNat ≤ c'.status.toNat
  closed : c.status = .Closed → c' = c
  parties : c.status ≠ .None →
    c'.client = c.client ∧ c'.node = c.node ∧ c'.openedAt = c.openedAt
  nonce : c.latestNonce ≤ c'.latestNonce
  deadline : c.status = .Challenged → c'.challengeDeadline = c.challengeDeadline
  deposit : c'.status ≠ .Closed → c.deposit ≤ c'.deposit
  frozen : c.status = .Challenged → c'.status = .Challenged → c'.deposit = c.deposit

/-- What an event does to the record of a channel beyond `Advances`: a call that reverts and a call
on another channel change nothing of it, a challenge raises the nonce, and the deposit grows only
while the channel is open. -/
structure Moves (id : Bytes32) (e : Step) : Prop where
  reverted : ∀ msg call, e.act = .call msg call → emitted cfg e = none → e.post = e.pre
  others : ∀ msg call, e.act = .call msg call → call.channel cfg msg ≠ id →
    e.post.channels id = e.pre.channels id
  raises : ∀ msg nonce cumOwed clientSig nodeSig,
    e.act = .call msg (.submitChallenge id nonce cumOwed clientSig nodeSig) →
    emitted cfg e ≠ none → (e.pre.channels id).latestNonce < (e.post.channels id).latestNonce
  grows : (e.pre.channels id).deposit < (e.post.channels id).deposit →
    (e.pre.channels id).status.toNat ≤ Status.Open.toNat ∧ (e.post.channels id).status = .Open

variable {cfg} {s t u : State} {h k : List Step} {e : Step} {msg : Msg} {call : Call} {log : Log}
  {id : Bytes32} {c c' c'' : Channel}

/-! ## The order of the records -/

namespace Advances

theorem refl (c : Channel) : Advances c c :=
  ⟨le_rfl, fun _ => rfl, fun _ => ⟨rfl, rfl, rfl⟩, le_rfl, fun _ => rfl, fun _ => le_rfl,
    fun _ _ => rfl⟩

theorem opened (h : Advances c c') (hc : c.status ≠ .None) : c'.status ≠ .None := by
  have := h.status
  intro hc'
  cases hs : c.status with
  | None => exact hc hs
  | _ => simp [hs, hc', Status.toNat] at this

theorem challenged (h : Advances c c') (hc : c.status = .Challenged) :
    c'.status = .Challenged ∨ c'.status = .Closed := by
  have := h.status
  cases hs : c'.status with
  | None | Open => simp [hc, hs, Status.toNat] at this
  | Challenged => exact .inl rfl
  | Closed => exact .inr rfl

theorem live (h : Advances c c') (hc' : c'.status ≠ .Closed) : c.status ≠ .Closed := by
  intro hc
  rw [h.closed hc] at hc'
  exact hc' hc

/-- Records advance step by step. -/
theorem trans (h : Advances c c') (h' : Advances c' c'') : Advances c c'' where
  status := h.status.trans h'.status
  closed hc := by rw [h'.closed (h.closed hc ▸ hc), h.closed hc]
  parties hc := by
    obtain ⟨hclient, hnode, hopened⟩ := h.parties hc
    obtain ⟨hclient', hnode', hopened'⟩ := h'.parties (h.opened hc)
    exact ⟨hclient'.trans hclient, hnode'.trans hnode, hopened'.trans hopened⟩
  nonce := h.nonce.trans h'.nonce
  deadline hc := by
    rcases h.challenged hc with hc' | hc'
    · exact (h'.deadline hc').trans (h.deadline hc)
    · rw [h'.closed hc', h.deadline hc]
  deposit hc := (h.deposit (h'.live hc)).trans (h'.deposit hc)
  frozen hc hc'' := by
    have hc' := (h.challenged hc).resolve_right (h'.live (by simp [hc'']))
    exact (h'.frozen hc' hc'').trans (h.frozen hc hc')

end Advances

/-! ## A step -/

/-- **Every change of a record is a step up.** -/
theorem Change.advances (change : Change cfg msg id c call c' log) (wf : c.WellFormed) :
    Advances c c' ∧ c'.WellFormed := by
  cases change with
  | openChannel node channelNonce deposit none =>
    rw [wf.unopened none]
    refine ⟨⟨by simp [Status.toNat], by simp, fun h => absurd rfl h, le_rfl, by simp,
      fun _ => Nat.zero_le _, by simp⟩, ?_⟩
    exact ⟨by simp, fun _ => ⟨rfl, rfl⟩, by simp⟩
  | topUp amount opened fits =>
    refine ⟨⟨le_rfl, ?_, fun _ => ⟨rfl, rfl, rfl⟩, le_rfl, fun _ => rfl,
      fun _ => Nat.le_add_right .., ?_⟩, ?_⟩
    · simp [opened]
    · simp [opened]
    · exact ⟨by simp [opened], fun _ => wf.opened opened, by simp [opened]⟩
  | cooperativeClose nonce cumOwed clientSig nodeSig live fresh sigs hsigned =>
    subst hsigned
    have hle : c.status.toNat ≤ Status.Closed.toNat := by
      rcases live with h | h <;> simp [h, Status.toNat]
    refine ⟨⟨hle, ?_, fun _ => ⟨rfl, rfl, rfl⟩, fresh, fun _ => rfl, fun h => absurd rfl h,
      by simp⟩, ?_⟩
    · rcases live with h | h <;> simp [h]
    · exact ⟨by simp, by simp, fun _ => rfl⟩
  | challengeClose nonce cumOwed clientSig nodeSig opened sigs fits =>
    -- the nonce is not compared: it is `0` while the channel is open
    have hzero := (wf.opened opened).1
    refine ⟨⟨by simp [opened, Status.toNat], ?_, fun _ => ⟨rfl, rfl, rfl⟩, ?_, ?_,
      fun _ => le_rfl, ?_⟩, ?_⟩
    · simp [opened]
    · rw [hzero]
      exact Nat.zero_le _
    · simp [opened]
    · simp [opened]
    · exact ⟨by simp, by simp, by simp⟩
  | submitChallenge nonce cumOwed clientSig nodeSig challenged inWindow fresh sigs =>
    refine ⟨⟨le_rfl, ?_, fun _ => ⟨rfl, rfl, rfl⟩, fresh.le, fun _ => rfl, fun _ => le_rfl,
      fun _ _ => rfl⟩, ?_⟩
    · simp [challenged]
    · exact ⟨by simp [challenged], by simp [challenged], by simp [challenged]⟩
  | finalize challenged elapsed =>
    refine ⟨⟨by simp [challenged, Status.toNat], ?_, fun _ => ⟨rfl, rfl, rfl⟩, le_rfl,
      fun _ => rfl, fun h => absurd rfl h, by simp⟩, ?_⟩
    · simp [challenged]
    · exact ⟨by simp, by simp, fun _ => rfl⟩
  | reclaim opened byClient fits elapsed =>
    refine ⟨⟨by simp [opened, Status.toNat], ?_, fun _ => ⟨rfl, rfl, rfl⟩, le_rfl,
      fun _ => rfl, fun h => absurd rfl h, by simp⟩, ?_⟩
    · simp [opened]
    · exact ⟨by simp, by simp, fun _ => rfl⟩

/-- A change that raises the deposit is one of an open channel, or opens it. -/
theorem Change.grows (change : Change cfg msg id c call c' log) (hlt : c.deposit < c'.deposit) :
    c.status.toNat ≤ Status.Open.toNat ∧ c'.status = .Open := by
  cases change with
  | openChannel _ _ _ none => exact ⟨by simp [none, Status.toNat], rfl⟩
  | topUp _ opened => exact ⟨by simp [opened], opened⟩
  | cooperativeClose | finalize | reclaim => exact absurd hlt (Nat.not_lt_zero _)
  | challengeClose | submitChallenge => exact absurd hlt (lt_irrefl _)

/-- The log is of a call that raises the deposit of its channel. -/
def Log.Raises : Log → Prop
  | .channelOpened .. => True
  | .channelToppedUp .. => True
  | .channelChallenged .. => False
  | .channelClosed .. => False
  | .channelReclaimed .. => False

theorem Change.raises (change : Change cfg msg id c call c' log) (hlt : c.deposit < c'.deposit) :
    log.Raises := by
  cases change with
  | openChannel | topUp => trivial
  | cooperativeClose | finalize | reclaim => exact absurd hlt (Nat.not_lt_zero _)
  | challengeClose | submitChallenge => exact absurd hlt (lt_irrefl _)

/-- The event of a call is about its channel. -/
theorem Call.channel_of_exec {s' : State} (h : call.exec cfg s msg = .ok (s', log)) :
    log.channel = call.channel cfg msg := by
  cases call with
  | openChannel node channelNonce deposit =>
    simp only [Call.exec, JobChannel.openChannel, bind_eq_ok, require_eq_ok, orThrow_eq_ok,
      pure_eq_ok, Prod.mk.injEq] at h
    obtain ⟨_, _, _, _, _, _, -, rfl⟩ := h
    rfl
  | topUp channelId amount =>
    simp only [Call.exec, JobChannel.topUp, bind_eq_ok, require_eq_ok, orThrow_eq_ok,
      checkedAdd_eq_ok, pure_eq_ok, Prod.mk.injEq] at h
    obtain ⟨_, _, _, _, _, _, -, rfl⟩ := h
    rfl
  | cooperativeClose channelId nonce cumOwed clientSig nodeSig =>
    simp only [Call.exec, JobChannel.cooperativeClose, bind_eq_ok, require_eq_ok,
      settle_eq_ok msg] at h
    obtain ⟨_, _, _, _, _, _, rfl, -⟩ := h
    rfl
  | challengeClose channelId nonce cumOwed clientSig nodeSig =>
    simp only [Call.exec, JobChannel.challengeClose, bind_eq_ok, require_eq_ok,
      checkedAdd_eq_ok, pure_eq_ok, Prod.mk.injEq] at h
    obtain ⟨_, _, _, _, _, _, -, rfl⟩ := h
    rfl
  | submitChallenge channelId nonce cumOwed clientSig nodeSig =>
    simp only [Call.exec, JobChannel.submitChallenge, bind_eq_ok, require_eq_ok, pure_eq_ok,
      Prod.mk.injEq] at h
    obtain ⟨_, _, _, _, _, _, _, _, -, rfl⟩ := h
    rfl
  | finalize channelId =>
    simp only [Call.exec, JobChannel.finalize, bind_eq_ok, require_eq_ok, settle_eq_ok msg] at h
    obtain ⟨_, _, _, _, rfl, -⟩ := h
    rfl
  | reclaim channelId =>
    simp only [Call.exec, JobChannel.reclaim, bind_eq_ok, require_eq_ok, checkedAdd_eq_ok,
      pure_eq_ok, Prod.mk.injEq] at h
    obtain ⟨_, _, _, _, _, _, _, _, _, _, -, rfl⟩ := h
    rfl

theorem emitted_channel (hact : e.act = .call msg call) (hlog : emitted cfg e = some log) :
    log.channel = call.channel cfg msg := by
  simp only [emitted, hact] at hlog
  split at hlog
  · rename_i s' log' hexec
    obtain rfl := Option.some.inj hlog
    exact Call.channel_of_exec hexec
  · simp at hlog

/-- **A call on one channel** changes no other. -/
theorem channels_of_others (r : Run (machine cfg) s h t) (he : e ∈ h)
    (hne : ∀ msg call, e.act = .call msg call → call.channel cfg msg ≠ id) :
    e.post.channels id = e.pre.channels id := by
  have out := (outcome_of_mem r he).channel id
  generalize e.post.channels id = c' at out
  generalize ha : e.act = a at out
  generalize ho : emitted cfg e = o at out
  cases out with
  | change about =>
    rw [emitted_channel ha ho] at about
    exact absurd about (hne _ _ ha)
  | frame => rfl

/-- A call that does not fail changes the record of its channel. -/
theorem change_of_call (r : Run (machine cfg) s h t) (he : e ∈ h) (hact : e.act = .call msg call)
    (hsome : emitted cfg e ≠ none) : ∃ log, Change cfg msg (call.channel cfg msg)
      (e.pre.channels (call.channel cfg msg)) call (e.post.channels (call.channel cfg msg))
      log := by
  obtain ⟨log, hlog⟩ := Option.ne_none_iff_exists'.1 hsome
  obtain ⟨msg', call', hact', succ⟩ := success_of_emitted r he hlog
  obtain ⟨rfl, rfl⟩ := Action.call.inj (hact.symm.trans hact')
  rw [← emitted_channel hact hlog]
  exact ⟨log, succ.change⟩

theorem moves_of_mem (r : Run (machine cfg) s h t) (he : e ∈ h) (id : Bytes32) :
    Moves cfg id e where
  reverted msg call hact hnone := by
    have out := outcome_of_mem r he
    rw [hact, hnone] at out
    obtain ⟨u, a, v⟩ := e
    change Outcome cfg u _ v none at out
    cases out
    rfl
  others msg call hact hne := channels_of_others r he fun msg' call' hact' => by
    obtain ⟨rfl, rfl⟩ := Action.call.inj (hact.symm.trans hact')
    exact hne
  raises msg nonce cumOwed clientSig nodeSig hact hsome := by
    obtain ⟨log, change⟩ := change_of_call r he hact hsome
    change Change cfg msg id _ _ (e.post.channels id) log at change
    generalize e.post.channels id = c' at change ⊢
    cases change with
    | submitChallenge _ _ _ _ _ _ fresh => exact fresh
  grows hlt := by
    have out := (outcome_of_mem r he).channel id
    generalize e.post.channels id = c' at out hlt ⊢
    generalize e.act = a at out
    generalize emitted cfg e = o at out
    cases out with
    | change _ change => exact change.grows hlt
    | frame => exact absurd hlt (lt_irrefl _)

/-! ## A run -/

/-- A run of the contract moves every record up. -/
theorem advances (r : Run (machine cfg) s h t) (wf : (s.channels id).WellFormed) :
    Advances (s.channels id) (t.channels id) ∧ (t.channels id).WellFormed := by
  refine channel_invariant (fun c => Advances (s.channels id) c ∧ c.WellFormed) r
    ⟨.refl _, wf⟩ ?_
  intro c c' msg call log ⟨hadv, wf⟩ change
  obtain ⟨hadv', wf'⟩ := change.advances wf
  exact ⟨hadv.trans hadv', wf'⟩

theorem wellFormed (r : Run (machine cfg) s h t) (init : (machine cfg).Init s) (id : Bytes32) :
    (t.channels id).WellFormed := by
  refine (advances r ?_).2
  rw [init.1 id]
  exact ⟨fun _ => rfl, nofun, nofun⟩

/-- **A deposit that grew** was raised by an `openChannel` or a `topUp`. -/
theorem deposit_raised (r : Run (machine cfg) s h t)
    (hlt : (s.channels id).deposit < (t.channels id).deposit) :
    ∃ e ∈ h, ∃ log, emitted cfg e = some log ∧ log.channel = id ∧ log.Raises := by
  by_contra hnone
  refine absurd (r.stable (fun t => (t.channels id).deposit ≤ (s.channels id).deposit)
    (fun e => ∃ log, emitted cfg e = some log ∧ log.channel = id ∧ log.Raises)
    (fun e he hraised => hnone ⟨e, he, hraised⟩) le_rfl ?_).1 (Nat.not_le.2 hlt)
  intro t a hle _ hquiet
  have out := outcome_channel cfg t a id
  change ((next cfg t a).channels id).deposit ≤ _
  change ¬ ∃ log, emitted cfg ⟨t, a, next cfg t a⟩ = some log ∧ _ at hquiet
  generalize (next cfg t a).channels id = c' at out ⊢
  generalize emitted cfg ⟨t, a, next cfg t a⟩ = o at out hquiet
  cases out with
  | change about hchange =>
    refine (Nat.le_of_not_lt fun hgrew => ?_).trans hle
    exact hquiet ⟨_, rfl, about, hchange.raises hgrew⟩
  | frame => exact hle

/-- **The state machine of a channel is monotone**: from every reachable state, every run moves the
record of every channel up, and each of its events moves it as the calls are meant to. -/
theorem channel_monotone (r : Run (machine cfg) s h u) (init : (machine cfg).Init s)
    (r' : Run (machine cfg) u k t) (id : Bytes32) :
    (u.channels id).WellFormed ∧ Advances (u.channels id) (t.channels id) ∧
      ∀ e ∈ k, Moves cfg id e :=
  ⟨wellFormed r init id, (advances r' (wellFormed r init id)).1,
    fun _ he => moves_of_mem r' he id⟩

open Deployment in
theorem channel_monotone_settling :
    (start.channels channelId).WellFormed ∧
      Advances (start.channels channelId) ((final settling).channels channelId) ∧
      ∀ e ∈ trace settling, Moves testnet channelId e :=
  channel_monotone .nil init (run settling legal_settling) channelId

end Flodex.JobChannel
