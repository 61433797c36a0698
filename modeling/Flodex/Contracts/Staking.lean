import Flodex.Contracts.Listing
import Flodex.Foundations.Escrow

/-!
# The stakes of the `NodeRegistry` contract

The registry refines an escrow whose accounts are the addresses and whose pool is its token
balance (`simulates`): registering funds an account, leaving and slashing release one, and tokens
that others send to the contract are gifts to the pool. That the pool covers the stakes, and where
each stake went, are the escrow's own.
-/

namespace Flodex.NodeRegistry

variable (cfg : Config)

/-! ## Observations -/

/-- What an event stakes for the address. -/
def Log.staked (a : Address) : Log → ℕ
  | .registered node _ _ _ stake => if node = a then stake else 0
  | _ => 0

/-- What an event returns to the address. -/
def Log.returned (a : Address) : Log → ℕ
  | .unregistered node returnedStake => if node = a then returnedStake else 0
  | _ => 0

/-- What an event slashes from the address. -/
def Log.slashedFrom (a : Address) : Log → ℕ
  | .slashed node _ amount => if node = a then amount else 0
  | _ => 0

/-- What an event pays to the contract itself. -/
def Log.toSelf : Log → ℕ
  | .unregistered node returnedStake => if node = cfg.this then returnedStake else 0
  | .slashed _ recipient amount => if recipient = cfg.this then amount else 0
  | _ => 0

/-- The sum of an amount over the events of a history. -/
def tally (f : Log → ℕ) (h : List Step) : ℕ := (h.map fun e => (emitted cfg e).elim 0 f).sum

/-- The tokens that reached the contract other than by its own calls. -/
def donation (e : Step) : ℕ :=
  match e.act with
  | .token .. => e.post.stakeToken.balanceOf cfg.this - e.pre.stakeToken.balanceOf cfg.this
  | _ => 0

/-- All the tokens that reached the contract other than by its own calls. -/
def donated (h : List Step) : ℕ := (h.map (donation cfg)).sum

/-! ## The escrow -/

/-- The escrow of a state of the contract. -/
def escrow (s : State) : Escrow Address :=
  ⟨fun a => (s.nodes a).stake, s.stakeToken.balanceOf cfg.this⟩

/-- The moves of an event. -/
def moves (e : Step) : List (Escrow.Move Address) :=
  match emitted cfg e with
  | some (.registered node _ _ _ stake) => [.fund node stake]
  | some (.unregistered node v) => [.release node v ((Log.unregistered node v).toSelf cfg)]
  | some (.slashed node recipient v) =>
    [.release node v ((Log.slashed node recipient v).toSelf cfg)]
  | some _ => []
  | none => [.donate (donation cfg e)]

variable {cfg} {s s' t : State} {h : List Step} {e : Step} {call : Call} {log : Log}
  {sender a : Address} {o : Option Log} {act : Action}

theorem moves_into (e : Step) (a : Address) :
    ((moves cfg e).map (Escrow.Move.into a)).sum = (emitted cfg e).elim 0 (Log.staked a) := by
  unfold moves
  cases emitted cfg e with
  | none => rfl
  | some log => cases log <;> rfl

theorem moves_outOf (e : Step) (a : Address) : ((moves cfg e).map (Escrow.Move.outOf a)).sum =
    (emitted cfg e).elim 0 (Log.returned a) + (emitted cfg e).elim 0 (Log.slashedFrom a) := by
  unfold moves
  cases emitted cfg e with
  | none => rfl
  | some log => cases log <;> simp [Escrow.Move.outOf, Log.returned, Log.slashedFrom]

theorem donation_eq_zero (h : (emitted cfg e).isSome) : donation cfg e = 0 := by
  unfold emitted at h
  unfold donation
  split
  · rename_i hact
    simp [hact] at h
  · rfl

theorem moves_surplus (e : Step) : ((moves cfg e).map Escrow.Move.surplus).sum =
    donation cfg e + (emitted cfg e).elim 0 (Log.toSelf cfg) := by
  have hd : (emitted cfg e).isSome → donation cfg e = 0 := donation_eq_zero
  unfold moves
  cases h : emitted cfg e with
  | none => simp [Escrow.Move.surplus]
  | some log =>
    rw [h] at hd
    rw [hd rfl, Nat.zero_add]
    cases log <;> rfl

/-! ## The token -/

/-- The contract approves no spender, and an active node is the only one with a stake; the
contract itself has none. -/
structure Staked (cfg : Config) (s : State) : Prop where
  allowance : ∀ a, s.stakeToken.allowance cfg.this a = 0
  inactive : ∀ a, (s.nodes a).active = false → (s.nodes a).stake = 0
  this : (s.nodes cfg.this).stake = 0

@[simp] theorem setNode_stake (node : Address) (n : Node) (b : Address) :
    ((s.setNode node n).nodes b).stake = if b = node then n.stake else (s.nodes b).stake := by
  unfold State.setNode
  by_cases hb : b = node
  · simp [hb]
  · simp [hb]

/-- The transfers of a call that emits the event. -/
def Log.transfers (cfg : Config) (token : Ledger Address) : Log → Option (Ledger Address)
  | .registered node _ _ _ stake => token.transferFrom cfg.this node cfg.this stake
  | .unregistered node returnedStake => token.transfer cfg.this node returnedStake
  | .slashed _ recipient amount => token.transfer cfg.this recipient amount
  | _ => some token

theorem Success.transfers (succ : Success cfg s sender call s' log) :
    log.transfers cfg s.stakeToken = some s'.stakeToken := by
  cases succ with
  | setEscrow | setMinStake | update => rfl
  | register _ _ pulled => exact pulled
  | unregister _ _ paid => exact paid
  | slash _ _ _ _ paid => exact paid
  | drain _ _ _ _ paid => exact paid

/-- The record of one node changes, and no allowance of the contract grows. -/
theorem Staked.setNode (hs : Staked cfg s) {node : Address} {n : Node} {l : NodeList}
    {token : Ledger Address} (allowance : ∀ b, token.allowance cfg.this b = 0)
    (inactive : n.active = false → n.stake = 0) (this : node = cfg.this → n.stake = 0) :
    Staked cfg { s.setNode node n with toNodeList := l, stakeToken := token } where
  allowance := allowance
  inactive b hb := by
    simp only [setNode_active, setNode_stake] at hb ⊢
    split
    · rename_i h
      exact inactive (by rwa [if_pos h] at hb)
    · rename_i h
      exact hs.inactive b (by rwa [if_neg h] at hb)
  this := by
    simp only [setNode_stake]
    split
    · rename_i h
      exact this h.symm
    · exact hs.this

theorem Success.staked (succ : Success cfg s sender call s' log) (hs : Staked cfg s) :
    Staked cfg s' := by
  cases succ with
  | setEscrow | setMinStake => exact ⟨hs.allowance, hs.inactive, hs.this⟩
  | register _ _ pulled =>
    refine hs.setNode (fun b => ?_) nofun ?_
    · have := Ledger.allowance_le_of_transferFrom pulled cfg.this b
      have := hs.allowance b
      omega
    · rintro rfl
      obtain ⟨hle, -⟩ := (Ledger.transferFrom_eq_some _).1 pulled
      rw [hs.allowance] at hle
      exact Nat.le_zero.1 hle
  | update active =>
    refine hs.setNode hs.allowance (fun h => ?_) fun h => ?_
    · exact hs.inactive sender h
    · exact h ▸ hs.this
  | unregister _ _ paid =>
    refine hs.setNode (fun b => ?_) (fun _ => rfl) fun _ => rfl
    rw [Ledger.allowance_of_transfer paid]
    exact hs.allowance b
  | slash _ active _ _ paid =>
    refine hs.setNode (fun b => ?_) (fun h => ?_) fun h => ?_
    · rw [Ledger.allowance_of_transfer paid]
      exact hs.allowance b
    · exact absurd h (by simp [active])
    · subst h
      simp [hs.this]
  | drain _ _ _ _ paid =>
    refine hs.setNode (fun b => ?_) (fun _ => rfl) fun _ => rfl
    rw [Ledger.allowance_of_transfer paid]
    exact hs.allowance b

theorem staked_run (r : Run (machine cfg) s h t) (init : (machine cfg).Init s) : Staked cfg t := by
  refine r.invariant (Staked cfg) ?_ fun t a ih legal => ?_
  · obtain ⟨⟨minStake, stakeToken, rfl⟩, hallow⟩ := init
    exact ⟨hallow, fun _ _ => rfl, rfl⟩
  · have out := outcome cfg t a
    change Staked cfg (next cfg t a)
    generalize next cfg t a = t' at out ⊢
    generalize emitted cfg _ = o at out
    cases out with
    | success succ => exact succ.staked ih
    | revert => exact ih
    | token => exact ⟨Ledger.apply_allowance_eq_zero legal ih.allowance, ih.inactive, ih.this⟩

/-! ## The refinement -/

/-- The stakes after the record of one node changed. -/
theorem stakes_setNode (node : Address) (n : Node) :
    (fun b => ((s.setNode node n).nodes b).stake) =
      Function.update (fun b => (s.nodes b).stake) node n.stake := by
  funext b
  rw [setNode_stake, Function.update_apply]

/-- A payment out of a stake is a release. -/
theorem escrow_release {node dst : Address} {v : ℕ} {n : Node} {l : NodeList}
    {token : Ledger Address} (hv : v ≤ (s.nodes node).stake)
    (hn : n.stake = (s.nodes node).stake - v)
    (paid : s.stakeToken.transfer cfg.this dst v = some token) :
    ∃ k, Run (Escrow.machine Address) (escrow cfg s) k
        (escrow cfg { s.setNode node n with toNodeList := l, stakeToken := token }) ∧
      k.map Event.act = [.release node v (if dst = cfg.this then v else 0)] := by
  have hbal := Ledger.balanceOf_src_of_transfer paid
  have hheld := (Ledger.transfer_eq_some _).1 paid
  refine Run.exists_single ⟨hv, by split <;> omega⟩ ?_
  simp only [escrow, Escrow.machine, Escrow.mk.injEq]
  refine ⟨?_, ?_⟩
  · rw [stakes_setNode, hn]
  · split at hbal <;> rename_i h <;> simp only [h, if_true, if_false] <;> omega

/-- Every event of the contract is a move of the escrow, or none. -/
theorem escrow_step (r : Run (machine cfg) s h t) (init : (machine cfg).Init s)
    (legal : (machine cfg).Legal t act) :
    ∃ k, Run (Escrow.machine Address) (escrow cfg t) k (escrow cfg ((machine cfg).next t act)) ∧
      k.map Event.act = moves cfg ⟨t, act, (machine cfg).next t act⟩ := by
  have hs := staked_run r init
  have out := outcome cfg t act
  change ∃ k, Run _ _ k (escrow cfg (next cfg t act)) ∧
    k.map _ = moves cfg ⟨t, act, next cfg t act⟩
  unfold moves
  simp only [donation]
  generalize next cfg t act = t' at out ⊢
  generalize emitted cfg ⟨t, act, t'⟩ = o at out ⊢
  cases out with
  | success succ =>
    rename_i sender call log
    cases succ with
    | setEscrow | setMinStake => exact ⟨[], .nil, rfl⟩
    | register _ inactive pulled =>
      have hbal := Ledger.balanceOf_dst_of_transferFrom pulled (hs.allowance cfg.this)
      have hzero := hs.inactive sender inactive
      refine Run.exists_single trivial ?_
      simp only [escrow, Escrow.machine, Escrow.mk.injEq]
      refine ⟨?_, hbal.symm⟩
      rw [stakes_setNode, hzero, Nat.zero_add]
    | @update m active =>
      have hsame : escrow cfg (t.setNode sender { t.nodes sender with toMetadata := m }) =
          escrow cfg t := by
        simp only [escrow, stakes_setNode, Escrow.mk.injEq]
        exact ⟨Function.update_eq_self .., rfl⟩
      exact ⟨[], hsame ▸ .nil, rfl⟩
    | unregister active removed paid =>
      exact escrow_release le_rfl (Nat.sub_self _).symm paid
    | slash _ _ less same paid => exact escrow_release less.le rfl paid
    | drain _ _ all _ paid =>
      exact escrow_release all.le (by rw [all, Nat.sub_self]) paid
  | revert => exact Run.exists_single trivial rfl
  | @token sender request =>
    refine Run.exists_single trivial ?_
    have hle := Ledger.le_balanceOf_apply (r := request) legal hs.allowance
    simp only [escrow, Escrow.machine, Escrow.mk.injEq, true_and]
    exact Nat.add_sub_cancel' hle

/-- **Refinement**: a run of the contract is a run of the escrow. -/
theorem simulates (r : Run (machine cfg) s h t) (init : (machine cfg).Init s) :
    ∃ k, Run (Escrow.machine Address) (escrow cfg s) k (escrow cfg t) ∧
      k.map Event.act = h.flatMap (moves cfg) :=
  r.simulates (escrow cfg) (moves cfg) fun _ _ _ run legal => escrow_step run init legal

/-! ## Solvency -/

/-- **The balance of the contract** is the stakes, what it had and was given, and what it paid to
itself. -/
theorem balanceOf_this (r : Run (machine cfg) s h t) (init : (machine cfg).Init s) :
    t.stakeToken.balanceOf cfg.this = ∑ a, (t.nodes a).stake +
      (s.stakeToken.balanceOf cfg.this + donated cfg h + tally cfg (Log.toSelf cfg) h) := by
  obtain ⟨k, hk, hacts⟩ := simulates r init
  have htotal : (escrow cfg s).total = 0 := by
    obtain ⟨⟨minStake, stakeToken, rfl⟩, -⟩ := init
    exact Finset.sum_eq_zero fun a _ => rfl
  have hpool := Escrow.solvent hk (x := s.stakeToken.balanceOf cfg.this) (by
    rw [htotal, Nat.zero_add]
    rfl)
  have hsurplus : (h.map fun e => ((moves cfg e).map Escrow.Move.surplus).sum).sum =
      donated cfg h + tally cfg (Log.toSelf cfg) h := by
    simp only [moves_surplus]
    exact List.sum_map_add
  rw [Escrow.sum_of_simulates hacts, hsurplus, ← Nat.add_assoc (s.stakeToken.balanceOf _)] at hpool
  exact hpool

/-- **Where the stakes went**: everything an address ever staked is its stake, what was returned to
it and what was slashed from it. -/
theorem staked_eq (r : Run (machine cfg) s h t) (init : (machine cfg).Init s) (a : Address) :
    tally cfg (Log.staked a) h = (t.nodes a).stake + tally cfg (Log.returned a) h +
      tally cfg (Log.slashedFrom a) h := by
  obtain ⟨k, hk, hacts⟩ := simulates r init
  have hheld := Escrow.conserves hk a
  rw [Escrow.sum_of_simulates hacts (Escrow.Move.outOf a),
    Escrow.sum_of_simulates hacts (Escrow.Move.into a)] at hheld
  have hempty : (escrow cfg s).held a = 0 := by
    obtain ⟨⟨minStake, stakeToken, rfl⟩, -⟩ := init
    rfl
  simp only [moves_outOf, moves_into, List.sum_map_add, hempty, Nat.zero_add] at hheld
  simp only [tally, ← hheld, Nat.add_assoc]
  rfl

theorem stake_le_balanceOf (r : Run (machine cfg) s h t) (init : (machine cfg).Init s)
    (a : Address) : (t.nodes a).stake ≤ t.stakeToken.balanceOf cfg.this := by
  have hbal := balanceOf_this r init
  have hle : (t.nodes a).stake ≤ ∑ a, (t.nodes a).stake := (escrow cfg t).held_le_total a
  omega

/-- The events of a run are outcomes. -/
theorem outcome_of_mem (r : Run (machine cfg) s h t) (he : e ∈ h) :
    Outcome cfg e.pre e.act e.post (emitted cfg e) := by
  obtain ⟨u, act, v⟩ := e
  obtain rfl : v = next cfg u act := r.post_eq he
  exact outcome cfg u act

/-- An event that emitted a log is a successful call. -/
theorem success_of_emitted (r : Run (machine cfg) s h t) (he : e ∈ h)
    (hlog : emitted cfg e = some log) :
    ∃ sender call, e.act = .call sender call ∧ Success cfg e.pre sender call e.post log := by
  have out := outcome_of_mem r he
  rw [hlog] at out
  obtain ⟨u, act, v⟩ := e
  change Outcome cfg u act v (some log) at out
  cases out with
  | success succ => exact ⟨_, _, rfl, succ⟩

/-- Only a slash pays the contract itself: it has no stake that could be returned. -/
theorem Success.toSelf_eq_zero (succ : Success cfg s sender call s' log) (hs : Staked cfg s)
    (hslash : ∀ node amount, log ≠ .slashed node cfg.this amount) : log.toSelf cfg = 0 := by
  cases succ with
  | setEscrow | setMinStake | register | update => rfl
  | unregister =>
    by_cases hthis : sender = cfg.this
    · subst hthis
      simp [Log.toSelf, hs.this]
    · simp [Log.toSelf, hthis]
  | slash | drain =>
    refine if_neg ?_
    rintro rfl
    exact hslash _ _ rfl

theorem tally_toSelf_eq_zero (r : Run (machine cfg) s h t) (init : (machine cfg).Init s)
    (hslash : ∀ e ∈ h, ∀ node amount, emitted cfg e ≠ some (.slashed node cfg.this amount)) :
    tally cfg (Log.toSelf cfg) h = 0 := by
  refine List.sum_eq_zero fun v hv => ?_
  obtain ⟨e, he, rfl⟩ := List.mem_map.1 hv
  cases hlog : emitted cfg e with
  | none => rfl
  | some log =>
    obtain ⟨sender, call, -, succ⟩ := success_of_emitted r he hlog
    obtain ⟨h₁, h₂, rfl⟩ := List.append_of_mem he
    refine succ.toSelf_eq_zero (staked_run r.split.1 init) fun node amount hne => ?_
    exact hslash e he node amount (hlog.trans (congrArg some hne))

/-- An active node leaves with its whole stake. -/
theorem exec_unregister (r : Run (machine cfg) s h t) (init : (machine cfg).Init s)
    (active : (t.nodes sender).active = true) : ∃ t', Call.unregister.exec cfg t sender =
      .ok (t', .unregistered sender (t.nodes sender).stake) := by
  obtain ⟨l, removed, -⟩ := removeFromList_eq_ok (listed_run r init).indexed sender
  exact ⟨_, Call.exec_eq_ok.2 (.unregister active removed
    ((Ledger.transfer_eq_some _).2 ⟨stake_le_balanceOf r init sender, rfl⟩))⟩

/-- Any part of the stake of an active node can be slashed. -/
theorem exec_slash (r : Run (machine cfg) s h t) (init : (machine cfg).Init s)
    {node recipient : Address} {amount : BitVec 256}
    (authorized : sender = t.escrow ∨ sender = cfg.owner) (active : (t.nodes node).active = true)
    (within : amount.toNat ≤ (t.nodes node).stake) :
    ∃ t', (Call.slash node recipient amount).exec cfg t sender =
      .ok (t', .slashed node recipient amount.toNat) := by
  obtain ⟨l, removed, -⟩ := removeFromList_eq_ok (listed_run r init).indexed node
  have paid : t.stakeToken.transfer cfg.this recipient amount.toNat =
      some (t.stakeToken.move cfg.this recipient amount.toNat) :=
    (Ledger.transfer_eq_some t.stakeToken).2
      ⟨within.trans (stake_le_balanceOf r init node), rfl⟩
  rcases Nat.lt_or_eq_of_le within with less | all
  · exact ⟨_, Call.exec_eq_ok.2 (.slash authorized active less rfl paid)⟩
  · exact ⟨_, Call.exec_eq_ok.2 (.drain authorized active all removed paid)⟩

/-- **The stakes.** In every run from the deployment of the registry: its balance less what it was
given covers the stakes of all addresses, and equals them when nothing was slashed to the registry
itself; inactive addresses have no stake; everything an address ever staked is its stake, what was
returned to it and what was slashed from it; every call makes exactly the transfers its event
names; and leaving and slashing up to the stake never fail for want of funds. -/
theorem staking (r : Run (machine cfg) s h t) (init : (machine cfg).Init s) :
    ∑ a, (t.nodes a).stake + (s.stakeToken.balanceOf cfg.this + donated cfg h) ≤
        t.stakeToken.balanceOf cfg.this ∧
      ((∀ e ∈ h, ∀ node amount, emitted cfg e ≠ some (.slashed node cfg.this amount)) →
        t.stakeToken.balanceOf cfg.this =
          ∑ a, (t.nodes a).stake + (s.stakeToken.balanceOf cfg.this + donated cfg h)) ∧
      (∀ a, (t.nodes a).active = false → (t.nodes a).stake = 0) ∧
      (∀ a, tally cfg (Log.staked a) h = (t.nodes a).stake + tally cfg (Log.returned a) h +
        tally cfg (Log.slashedFrom a) h) ∧
      (∀ e ∈ h, ∀ log ∈ emitted cfg e,
        log.transfers cfg e.pre.stakeToken = some e.post.stakeToken) ∧
      (∀ sender, (t.nodes sender).active = true → ∃ t', Call.unregister.exec cfg t sender =
        .ok (t', .unregistered sender (t.nodes sender).stake)) ∧
      ∀ sender node recipient (amount : BitVec 256), sender = t.escrow ∨ sender = cfg.owner →
        (t.nodes node).active = true → amount.toNat ≤ (t.nodes node).stake →
        ∃ t', (Call.slash node recipient amount).exec cfg t sender =
          .ok (t', .slashed node recipient amount.toNat) := by
  have hbal := balanceOf_this r init
  refine ⟨by omega, fun hslash => ?_, (staked_run r init).inactive, staked_eq r init, ?_,
    fun sender => exec_unregister r init, fun sender node recipient amount => exec_slash r init⟩
  · have := tally_toSelf_eq_zero r init hslash
    omega
  · intro e he log hlog
    obtain ⟨sender, call, -, succ⟩ := success_of_emitted r he hlog
    exact succ.transfers

theorem staking_churning :
    ∑ a, ((Deployment.final Deployment.churning).nodes a).stake +
        (Deployment.start.stakeToken.balanceOf Deployment.testnet.this +
          donated Deployment.testnet (Deployment.trace Deployment.churning)) ≤
      (Deployment.final Deployment.churning).stakeToken.balanceOf Deployment.testnet.this :=
  (staking (Deployment.run _ Deployment.legal_churning) Deployment.init).1

end Flodex.NodeRegistry
