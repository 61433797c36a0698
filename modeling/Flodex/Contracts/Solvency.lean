import Flodex.Contracts.ChannelRuns
import Flodex.Foundations.Escrow

/-!
# Solvency of the `JobChannel` contract

The contract refines an escrow whose accounts are the channels and whose pool is its token
balance (`simulates`): opening and topping up fund an account, closing and reclaiming release
one, and tokens that others send to the contract are gifts to the pool. Solvency and the
conservation of each channel's money are the escrow's own.
-/

namespace Flodex.JobChannel

variable (cfg : Config)

/-! ## Observations -/

/-- What an event puts into the channel. -/
def Log.deposited (id : Bytes32) : Log → ℕ
  | .channelOpened id' _ _ _ deposit => if id' = id then deposit else 0
  | .channelToppedUp id' amount _ => if id' = id then amount else 0
  | _ => 0

/-- What an event pays out of the channel, to the node and to the client. -/
def Log.withdrawn (id : Bytes32) : Log → ℕ
  | .channelClosed id' _ paid refunded => if id' = id then paid + refunded else 0
  | .channelReclaimed id' amount => if id' = id then amount else 0
  | _ => 0

/-- What an event for a channel with the record `c` pays to the contract itself. -/
def Log.toSelf (c : Channel) : Log → ℕ
  | .channelClosed _ _ paid refunded =>
    (if c.node = cfg.this then paid else 0) + if c.client = cfg.this then refunded else 0
  | .channelReclaimed _ amount => if c.client = cfg.this then amount else 0
  | _ => 0

/-- The sum of an amount over the events of a history. -/
def tally (f : Step → Log → ℕ) (h : List Step) : ℕ :=
  (h.map fun e => (emitted cfg e).elim 0 (f e)).sum

/-- The tokens that reached the contract other than by its own calls. -/
def donation (e : Step) : ℕ :=
  match e.act with
  | .token .. => e.post.usdc.balanceOf cfg.this - e.pre.usdc.balanceOf cfg.this
  | _ => 0

/-- All the tokens that reached the contract other than by its own calls. -/
def donated (h : List Step) : ℕ := (h.map (donation cfg)).sum

/-! ## The escrow -/

/-- The escrow of a state of the contract. -/
def escrow (s : State) : Escrow Bytes32 :=
  ⟨fun id => (s.channels id).deposit, s.usdc.balanceOf cfg.this⟩

/-- The moves of an event. -/
def moves (e : Step) : List (Escrow.Move Bytes32) :=
  match emitted cfg e with
  | some (.channelOpened id _ _ _ deposit) => [.fund id deposit]
  | some (.channelToppedUp id amount _) => [.fund id amount]
  | some (.channelChallenged ..) => []
  | some (.channelClosed id n paid refunded) =>
    [.release id (paid + refunded)
      ((Log.channelClosed id n paid refunded).toSelf cfg (e.pre.channels id))]
  | some (.channelReclaimed id amount) =>
    [.release id amount ((Log.channelReclaimed id amount).toSelf cfg (e.pre.channels id))]
  | none => [.donate (donation cfg e)]

variable {cfg} {s t : State} {h : List Step} {e : Step} {msg : Msg} {call : Call} {log : Log}
  {id : Bytes32} {c c' : Channel} {usdc usdc' : Ledger Address}

theorem moves_outOf (e : Step) (id : Bytes32) :
    ((moves cfg e).map (Escrow.Move.outOf id)).sum = (emitted cfg e).elim 0 (Log.withdrawn id) := by
  unfold moves
  cases emitted cfg e with
  | none => rfl
  | some log => cases log <;> rfl

theorem moves_into (e : Step) (id : Bytes32) :
    ((moves cfg e).map (Escrow.Move.into id)).sum = (emitted cfg e).elim 0 (Log.deposited id) := by
  unfold moves
  cases emitted cfg e with
  | none => rfl
  | some log => cases log <;> rfl

/-! ## The token -/

/-- What a call that emits `log` leaves of the contract's balance. -/
theorem balanceOf_of_transfers (h : log.transfers cfg msg c usdc = some usdc')
    (ha : ∀ a, usdc.allowance cfg.this a = 0) :
    usdc'.balanceOf cfg.this + log.withdrawn log.channel =
      usdc.balanceOf cfg.this + log.deposited log.channel + log.toSelf cfg c := by
  cases log with
  | channelOpened => simpa [Log.withdrawn, Log.deposited, Log.toSelf] using
      Ledger.balanceOf_dst_of_transferFrom h (ha _)
  | channelToppedUp => simpa [Log.withdrawn, Log.deposited, Log.toSelf] using
      Ledger.balanceOf_dst_of_transferFrom h (ha _)
  | channelChallenged =>
    obtain rfl := Option.some.inj h
    rfl
  | channelClosed id n paid refunded =>
    obtain ⟨u, hn, hc⟩ := Option.bind_eq_some_iff.1 h
    have hn := Ledger.balanceOf_src_of_transfer hn
    have hc := Ledger.balanceOf_src_of_transfer hc
    simp only [Log.withdrawn, Log.deposited, Log.toSelf, Log.channel, if_true]
    omega
  | channelReclaimed id amount =>
    have hc := Ledger.balanceOf_src_of_transfer h
    simpa [Log.withdrawn, Log.deposited, Log.toSelf] using hc

theorem allowance_le_of_transfers (h : log.transfers cfg msg c usdc = some usdc')
    (a b : Address) : usdc'.allowance a b ≤ usdc.allowance a b := by
  cases log with
  | channelOpened => exact Ledger.allowance_le_of_transferFrom h a b
  | channelToppedUp => exact Ledger.allowance_le_of_transferFrom h a b
  | channelChallenged =>
    obtain rfl := Option.some.inj h
    exact le_rfl
  | channelClosed =>
    obtain ⟨u, hn, hc⟩ := Option.bind_eq_some_iff.1 h
    rw [Ledger.allowance_of_transfer hc, Ledger.allowance_of_transfer hn]
  | channelReclaimed => rw [Ledger.allowance_of_transfer h]

/-- The contract never approves a spender. -/
theorem allowance_this (r : Run (machine cfg) s h t) (init : (machine cfg).Init s) (a : Address) :
    t.usdc.allowance cfg.this a = 0 := by
  refine r.invariant (fun t => ∀ a, t.usdc.allowance cfg.this a = 0) init.2
    (fun t act ih legal a => ?_) a
  have out := outcome cfg t act
  change (next cfg t act).usdc.allowance cfg.this a = 0
  generalize next cfg t act = t' at out ⊢
  generalize emitted cfg ⟨t, act, t'⟩ = o at out
  cases out with
  | success succ =>
    have := allowance_le_of_transfers succ.transfers cfg.this a
    have := ih a
    omega
  | token => exact Ledger.apply_allowance_eq_zero legal ih a
  | _ => exact ih a

/-! ## The refinement -/

/-- The deposit of a record after a change, and what the change put in and took out. -/
theorem Change.deposit (change : Change cfg msg id c call c' log)
    (hc : c.status = .None → c = Channel.zero) :
    c'.deposit + log.withdrawn id = c.deposit + log.deposited id := by
  cases change with
  | openChannel _ _ _ none =>
    rw [hc none]
    simp [Log.withdrawn, Log.deposited, Channel.zero]
  | topUp => simp [Log.withdrawn, Log.deposited]
  | cooperativeClose _ _ _ _ _ _ _ hsigned =>
    subst hsigned
    simp [Log.withdrawn, Log.deposited, Channel.paid_add_refund]
  | finalize => simp [Log.withdrawn, Log.deposited, Channel.paid_add_refund]
  | _ => simp [Log.withdrawn, Log.deposited]

theorem Log.toSelf_le_withdrawn (cfg : Config) (log : Log) (c : Channel) :
    log.toSelf cfg c ≤ log.withdrawn log.channel := by
  cases log <;> simp only [Log.toSelf, Log.withdrawn, Log.channel, if_true] <;> grind

/-- A successful call changes the deposit of its channel only. -/
theorem Success.deposits {s' : State} (succ : Success cfg s msg call s' log) :
    (fun id => (s'.channels id).deposit) = Function.update (fun id => (s.channels id).deposit)
      log.channel (s'.channels log.channel).deposit := by
  funext id
  by_cases h : id = log.channel
  · subst h
    rw [Function.update_self]
  · rw [Function.update_of_ne h, succ.put, State.put_channels_of_ne _ _ _ _ h]

/-- Every event of the contract is a move of the escrow, or none. -/
theorem escrow_step (r : Run (machine cfg) s h t) (init : (machine cfg).Init s) {a : Action}
    (legal : (machine cfg).Legal t a) :
    ∃ k, Run (Escrow.machine Bytes32) (escrow cfg t) k (escrow cfg ((machine cfg).next t a)) ∧
      k.map Event.act = moves cfg ⟨t, a, (machine cfg).next t a⟩ := by
  have ha := allowance_this r init
  have hzero := channels_of_none r init
  have out := outcome cfg t a
  change ∃ k, Run _ _ k (escrow cfg (next cfg t a)) ∧ k.map _ = moves cfg ⟨t, a, next cfg t a⟩
  unfold moves
  simp only [donation]
  generalize next cfg t a = t' at out ⊢
  generalize emitted cfg ⟨t, a, t'⟩ = o at out ⊢
  cases out with
  | success succ =>
    rename_i msg call log
    have hdep := succ.change.deposit (hzero _)
    have hbal := balanceOf_of_transfers succ.transfers ha
    have hself := log.toSelf_le_withdrawn cfg (t.channels log.channel)
    have hupd := succ.deposits
    cases log with
    | channelOpened id _ _ _ v | channelToppedUp id v _ =>
      refine Run.exists_single trivial ?_
      simp only [Log.withdrawn, Log.deposited, Log.channel, Log.toSelf, if_true] at hdep hbal hupd
      simp only [escrow, Escrow.machine, Escrow.mk.injEq]
      rw [hupd]
      exact ⟨congrArg _ hdep.symm, by omega⟩
    | channelChallenged id =>
      simp only [Log.withdrawn, Log.deposited, Log.channel, Log.toSelf] at hdep hbal hupd
      have : escrow cfg t' = escrow cfg t := by
        simp only [escrow, Escrow.mk.injEq]
        rw [hupd, show (t'.channels id).deposit = (t.channels id).deposit by omega,
          Function.update_eq_self]
        exact ⟨rfl, by omega⟩
      exact ⟨[], this ▸ .nil, rfl⟩
    | channelClosed id _ _ _ | channelReclaimed id _ =>
      simp only [Log.withdrawn, Log.deposited, Log.channel, if_true] at hdep hbal hupd hself
      refine Run.exists_single ⟨?_, hself⟩ ?_
      · simp only [escrow]
        omega
      · simp only [escrow, Escrow.machine, Escrow.mk.injEq]
        rw [hupd]
        exact ⟨congrArg _ (by omega), by omega⟩
  | @token sender request =>
    refine Run.exists_single trivial ?_
    have hle := Ledger.le_balanceOf_apply (r := request) legal ha
    simp only [escrow, Escrow.machine, Escrow.mk.injEq, true_and]
    exact Nat.add_sub_cancel' hle
  | _ => exact Run.exists_single trivial rfl

/-- **Refinement**: a run of the contract is a run of the escrow. -/
theorem simulates (r : Run (machine cfg) s h t) (init : (machine cfg).Init s) :
    ∃ k, Run (Escrow.machine Bytes32) (escrow cfg s) k (escrow cfg t) ∧
      k.map Event.act = h.flatMap (moves cfg) :=
  r.simulates (escrow cfg) (moves cfg) fun _ _ _ run legal => escrow_step run init legal

/-! ## Solvency -/

/-- What the events of a history paid to the contract itself. -/
def toSelf (cfg : Config) (h : List Step) : ℕ :=
  tally cfg (fun e log => log.toSelf cfg (e.pre.channels log.channel)) h

theorem moves_surplus (e : Step) (hd : (emitted cfg e).isSome → donation cfg e = 0) :
    ((moves cfg e).map Escrow.Move.surplus).sum = donation cfg e +
      (emitted cfg e).elim 0 fun log => log.toSelf cfg (e.pre.channels log.channel) := by
  unfold moves
  cases h : emitted cfg e with
  | none => simp [Escrow.Move.surplus]
  | some log =>
    rw [h] at hd
    rw [hd rfl, Nat.zero_add]
    cases log <;> rfl

theorem donation_eq_zero (h : (emitted cfg e).isSome) : donation cfg e = 0 := by
  unfold emitted at h
  unfold donation
  split
  · rename_i hact
    simp [hact] at h
  · rfl

/-- **The balance of the contract** is the money of its channels, what it had and was given, and
what it paid to itself. -/
theorem balanceOf_this (r : Run (machine cfg) s h t) (init : (machine cfg).Init s) :
    t.usdc.balanceOf cfg.this = ∑ id, (t.channels id).deposit +
      (s.usdc.balanceOf cfg.this + donated cfg h + toSelf cfg h) := by
  obtain ⟨k, hk, hacts⟩ := simulates r init
  have htotal : (escrow cfg s).total = 0 :=
    Finset.sum_eq_zero fun id _ => by simp [escrow, init.1 id, Channel.zero]
  have hpool := Escrow.solvent hk (x := s.usdc.balanceOf cfg.this) (by rw [htotal]; simp [escrow])
  have hsurplus : (h.map fun e => ((moves cfg e).map Escrow.Move.surplus).sum).sum =
      donated cfg h + toSelf cfg h := by
    simp only [moves_surplus _ donation_eq_zero]
    exact List.sum_map_add
  rw [Escrow.sum_of_simulates hacts, hsurplus, ← Nat.add_assoc (s.usdc.balanceOf _)] at hpool
  exact hpool

/-- The contract can pay out any of its channels. -/
theorem deposit_le_balanceOf (r : Run (machine cfg) s h t) (init : (machine cfg).Init s)
    (id : Bytes32) : (t.channels id).deposit ≤ t.usdc.balanceOf cfg.this := by
  have hbal := balanceOf_this r init
  have hle : (t.channels id).deposit ≤ ∑ id, (t.channels id).deposit :=
    (escrow cfg t).held_le_total id
  omega

/-- A settlement of a deposit the contract holds can be paid. -/
theorem transfers_channelClosed (msg : Msg) (id : Bytes32) (n : ℕ) (c : Channel)
    {paid refunded : ℕ} (hle : paid + refunded ≤ usdc.balanceOf cfg.this) :
    ∃ usdc', (Log.channelClosed id n paid refunded).transfers cfg msg c usdc = some usdc' := by
  have hpaid : usdc.transfer cfg.this c.node paid = some (usdc.move cfg.this c.node paid) :=
    (usdc.transfer_eq_some).2 ⟨Nat.le_of_add_right_le hle, rfl⟩
  have hleft := Ledger.balanceOf_src_of_transfer hpaid
  have hrefund : refunded ≤ (usdc.move cfg.this c.node paid).balanceOf cfg.this := by omega
  exact ⟨_, Option.bind_eq_some_iff.2 ⟨_, hpaid, (Ledger.transfer_eq_some _).2 ⟨hrefund, rfl⟩⟩⟩

/-- **The money of a channel**: what it holds and what was paid out of it is what was put in. -/
theorem withdrawn_add_deposit (r : Run (machine cfg) s h t) (init : (machine cfg).Init s)
    (id : Bytes32) : tally cfg (fun _ => Log.withdrawn id) h + (t.channels id).deposit =
      tally cfg (fun _ => Log.deposited id) h := by
  obtain ⟨k, hk, hacts⟩ := simulates r init
  have hheld := Escrow.conserves hk id
  rw [Escrow.sum_of_simulates hacts (Escrow.Move.outOf id),
    Escrow.sum_of_simulates hacts (Escrow.Move.into id)] at hheld
  have hempty : (s.channels id).deposit = 0 := by rw [init.1 id]; rfl
  simp only [moves_outOf, moves_into, escrow, hempty, Nat.zero_add] at hheld
  rw [Nat.add_comm]
  exact hheld

/-- A change that pays anything to the contract itself is one of an opened channel. -/
theorem Change.status_or_toSelf (change : Change cfg msg id c call c' log) :
    c.status ≠ .None ∨ log.toSelf cfg c = 0 := by
  cases change with
  | openChannel => exact .inr rfl
  | topUp => exact .inr rfl
  | cooperativeClose _ _ _ _ live => exact .inl (by rcases live with h | h <;> simp [h])
  | challengeClose _ _ _ _ opened => exact .inl (by simp [opened])
  | submitChallenge _ _ _ _ challenged => exact .inl (by simp [challenged])
  | finalize challenged => exact .inl (by simp [challenged])
  | reclaim opened => exact .inl (by simp [opened])

theorem Log.toSelf_eq_zero (log : Log) (hc : c.client ≠ cfg.this) (hn : c.node ≠ cfg.this) :
    log.toSelf cfg c = 0 := by
  cases log <;> simp [Log.toSelf, hc, hn]

/-- A contract that is party to none of its channels pays nothing to itself. -/
theorem toSelf_eq_zero (r : Run (machine cfg) s h t)
    (parties : ∀ id, (t.channels id).status ≠ .None →
      (t.channels id).client ≠ cfg.this ∧ (t.channels id).node ≠ cfg.this) :
    toSelf cfg h = 0 := by
  refine List.sum_eq_zero fun v hv => ?_
  obtain ⟨e, he, rfl⟩ := List.mem_map.1 hv
  cases hlog : emitted cfg e with
  | none => rfl
  | some log =>
    obtain ⟨msg, call, -, succ⟩ := success_of_emitted r he hlog
    rcases succ.change.status_or_toSelf with hstatus | hself
    · obtain ⟨h₁, h₂, rfl⟩ := List.append_of_mem he
      have same := sameParties r.rest hstatus
      obtain ⟨hc, hn⟩ := parties log.channel same.status
      rw [same.client] at hc
      rw [same.node] at hn
      exact log.toSelf_eq_zero hc hn
    · exact hself

/-- **Solvency and conservation.** In every run from the deployment of the contract, its balance
less what it was given covers the deposits of all channels, and equals them when no party is the
contract itself; what was paid out of a channel and what it holds is its opening deposit and its
top-ups; and every call makes exactly the transfers its event names. -/
theorem solvency (r : Run (machine cfg) s h t) (init : (machine cfg).Init s) :
    ∑ id, (t.channels id).deposit + (s.usdc.balanceOf cfg.this + donated cfg h) ≤
        t.usdc.balanceOf cfg.this ∧
      ((∀ id, (t.channels id).status ≠ .None →
          (t.channels id).client ≠ cfg.this ∧ (t.channels id).node ≠ cfg.this) →
        t.usdc.balanceOf cfg.this =
          ∑ id, (t.channels id).deposit + (s.usdc.balanceOf cfg.this + donated cfg h)) ∧
      (∀ id, tally cfg (fun _ => Log.withdrawn id) h + (t.channels id).deposit =
        tally cfg (fun _ => Log.deposited id) h) ∧
      ∀ e ∈ h, ∀ log ∈ emitted cfg e, ∃ msg call, e.act = .call msg call ∧
        log.transfers cfg msg (e.pre.channels log.channel) e.pre.usdc = some e.post.usdc := by
  have hbal := balanceOf_this r init
  refine ⟨by omega, fun parties => ?_, withdrawn_add_deposit r init, ?_⟩
  · have := toSelf_eq_zero r parties
    omega
  · intro e he log hlog
    obtain ⟨msg, call, hact, succ⟩ := success_of_emitted r he hlog
    exact ⟨msg, call, hact, succ.transfers⟩

theorem solvency_settling :
    ∑ id, ((Deployment.final Deployment.settling).channels id).deposit +
        (Deployment.start.usdc.balanceOf Deployment.testnet.this +
          donated Deployment.testnet (Deployment.trace Deployment.settling)) ≤
      (Deployment.final Deployment.settling).usdc.balanceOf Deployment.testnet.this :=
  (solvency (Deployment.run _ Deployment.legal_settling) Deployment.init).1

end Flodex.JobChannel
