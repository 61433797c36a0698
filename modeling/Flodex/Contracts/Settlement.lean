import Flodex.Contracts.Solvency

/-!
# Authorised payouts of the `JobChannel` contract

A channel is paid out by settling it or by its client reclaiming it. `finalize` checks no
signature: it pays on the state the record holds, and `Account.verified` is the invariant that a
call before it checked the signatures of both parties on that state.
-/

namespace Flodex.JobChannel

variable (cfg : Config)

/-! ## Payouts -/

/-- The event pays the channel out. -/
def PaysOut (id : Bytes32) (e : Step) : Prop :=
  (∃ n paid refunded, emitted cfg e = some (.channelClosed id n paid refunded)) ∨
    ∃ amount, emitted cfg e = some (.channelReclaimed id amount)

/-- The event is a challenge of the channel. -/
def Challenges (id : Bytes32) (e : Step) : Prop :=
  ∃ n cumOwed deadline, emitted cfg e = some (.channelChallenged id n cumOwed deadline)

/-- The state of a channel and the signatures a call carries. -/
def Call.signedState : Call → Option (Bytes32 × ℕ × ℕ × List UInt8 × List UInt8)
  | .cooperativeClose id nonce cumOwed clientSig nodeSig
  | .challengeClose id nonce cumOwed clientSig nodeSig
  | .submitChallenge id nonce cumOwed clientSig nodeSig =>
    some (id, nonce.toNat, cumOwed.toNat, clientSig, nodeSig)
  | _ => none

/-- The event is a successful call with the signatures of the parties of the record `c` on a
state. -/
def Verifies (c : Channel) (id : Bytes32) (nonce cumOwed : ℕ) (e : Step) : Prop :=
  ∃ msg call log clientSig nodeSig, e.act = .call msg call ∧ emitted cfg e = some log ∧
    call.signedState = some (id, nonce, cumOwed, clientSig, nodeSig) ∧
    CoSignature cfg c id nonce cumOwed clientSig nodeSig

/-- The event settles the channel on a state that it or an event before it verified: it pays the
node `min cumOwed deposit` and the client the rest. -/
def Settles (id : Bytes32) (h : List Step) (e : Step) : Prop :=
  ∃ nonce cumOwed, (∃ e' ∈ h ++ [e], Verifies cfg (e.pre.channels id) id nonce cumOwed e') ∧
    let c := e.pre.channels id
    let paid := min cumOwed c.deposit
    emitted cfg e = some (.channelClosed id nonce paid (c.deposit - paid)) ∧
      ∃ u, e.pre.usdc.transfer cfg.this c.node paid = some u ∧
        u.transfer cfg.this c.client (c.deposit - paid) = some e.post.usdc

/-- The event is the client's own reclaim of a channel that was never challenged, after the
timeout. -/
def Reclaims (id : Bytes32) (h : List Step) (e : Step) : Prop :=
  ∃ msg, e.act = .call msg (.reclaim id) ∧
    let c := e.pre.channels id
    msg.sender = c.client ∧ c.openedAt + cfg.reclaimTimeout.toNat ≤ msg.now ∧
      (∀ e' ∈ h, ¬ Challenges cfg id e') ∧
      emitted cfg e = some (.channelReclaimed id c.deposit) ∧
      e.pre.usdc.transfer cfg.this c.client c.deposit = some e.post.usdc

variable {cfg} {s t : State} {h h₁ h₂ : List Step} {e : Step} {msg : Msg} {call : Call} {log : Log}
  {id : Bytes32} {c c' : Channel}

theorem not_paysOut (about : ∀ log ∈ emitted cfg e, log.channel ≠ id) : ¬ PaysOut cfg id e := by
  rintro (⟨n, paid, refunded, hlog⟩ | ⟨amount, hlog⟩) <;> exact about _ hlog rfl

theorem not_challenges (about : ∀ log ∈ emitted cfg e, log.channel ≠ id) :
    ¬ Challenges cfg id e := by
  rintro ⟨n, cumOwed, deadline, hlog⟩
  exact about _ hlog rfl

theorem Verifies.congr {nonce cumOwed : ℕ} (hv : Verifies cfg c id nonce cumOwed e)
    (hc : c'.client = c.client) (hn : c'.node = c.node) : Verifies cfg c' id nonce cumOwed e := by
  obtain ⟨msg, call, log, clientSig, nodeSig, hact, hlog, hsigned, hsigs⟩ := hv
  refine ⟨msg, call, log, clientSig, nodeSig, hact, hlog, hsigned, ?_⟩
  rwa [CoSignature, hc, hn]

/-! ## The account of a channel -/

/-- What the history of a channel says about its record. -/
structure Account (cfg : Config) (id : Bytes32) (h : List Step) (c : Channel) : Prop where
  verified : c.status = .Challenged →
    ∃ e ∈ h, Verifies cfg c id c.latestNonce c.latestCumOwed e
  unchallenged : c.status = .None ∨ c.status = .Open → ∀ e ∈ h, ¬ Challenges cfg id e
  paidOut : (∃ e ∈ h, PaysOut cfg id e) → c.status = .Closed

theorem Account.frame (acc : Account cfg id h c) (about : ∀ log ∈ emitted cfg e, log.channel ≠ id) :
    Account cfg id (h ++ [e]) c where
  verified hc := by
    obtain ⟨e', he', hv⟩ := acc.verified hc
    exact ⟨e', List.mem_append_left _ he', hv⟩
  unchallenged hc e' he' := by
    rcases List.mem_append.1 he' with he' | he'
    · exact acc.unchallenged hc e' he'
    · obtain rfl := List.mem_singleton.1 he'
      exact not_challenges about
  paidOut := by
    rintro ⟨e', he', hpays⟩
    rcases List.mem_append.1 he' with he' | he'
    · exact acc.paidOut ⟨e', he', hpays⟩
    · obtain rfl := List.mem_singleton.1 he'
      exact absurd hpays (not_paysOut about)

/-- A call that leaves a channel open neither challenges it nor pays it out. -/
theorem Account.opened (acc : Account cfg id h c) (hc : c.status = .None ∨ c.status = .Open)
    (hc' : c'.status = .Open) (hchal : ¬ Challenges cfg id e) (hpays : ¬ PaysOut cfg id e) :
    Account cfg id (h ++ [e]) c' where
  verified hch := by simp [hc'] at hch
  unchallenged _ e' he' := by
    rcases List.mem_append.1 he' with he' | he'
    · exact acc.unchallenged hc e' he'
    · obtain rfl := List.mem_singleton.1 he'
      exact hchal
  paidOut := by
    rintro ⟨e', he', hp⟩
    rcases List.mem_append.1 he' with he' | he'
    · have := acc.paidOut ⟨e', he', hp⟩
      rcases hc with hc | hc <;> simp [hc] at this
    · obtain rfl := List.mem_singleton.1 he'
      exact absurd hp hpays

/-- A challenge records a state it verified. -/
theorem Account.challenged (acc : Account cfg id h c) (hc : c.status ≠ .Closed)
    (hc' : c'.status = .Challenged) (hpays : ¬ PaysOut cfg id e)
    (hv : Verifies cfg c' id c'.latestNonce c'.latestCumOwed e) :
    Account cfg id (h ++ [e]) c' where
  verified _ := ⟨e, by simp, hv⟩
  unchallenged hopen := by rcases hopen with h | h <;> simp [hc'] at h
  paidOut := by
    rintro ⟨e', he', hp⟩
    rcases List.mem_append.1 he' with he' | he'
    · exact absurd (acc.paidOut ⟨e', he', hp⟩) hc
    · obtain rfl := List.mem_singleton.1 he'
      exact absurd hp hpays

theorem Account.closed (hc' : c'.status = .Closed) : Account cfg id h c' where
  verified hch := by simp [hc'] at hch
  unchallenged hopen := by rcases hopen with h | h <;> simp [hc'] at h
  paidOut _ := hc'

/-- **Every channel has an account.** -/
theorem account (r : Run (machine cfg) s h t) (init : (machine cfg).Init s) (id : Bytes32) :
    Account cfg id h (t.channels id) := by
  refine channelHistory (Account cfg id) r ?_ (fun h e c acc _ _ about => acc.frame about) ?_
  · rw [init.1 id]
    exact ⟨nofun, by simp, by simp⟩
  · intro h e c c' msg call log acc _ _ hact hlog _ change
    have hpays : (∀ n paid refunded, log ≠ .channelClosed id n paid refunded) →
        (∀ amount, log ≠ .channelReclaimed id amount) → ¬ PaysOut cfg id e := by
      rintro h₁ h₂ (⟨n, paid, refunded, hl⟩ | ⟨amount, hl⟩)
      · exact h₁ n paid refunded (Option.some.inj (hlog.symm.trans hl))
      · exact h₂ amount (Option.some.inj (hlog.symm.trans hl))
    have hchal : (∀ n cumOwed deadline, log ≠ .channelChallenged id n cumOwed deadline) →
        ¬ Challenges cfg id e := by
      rintro h₁ ⟨n, cumOwed, deadline, hl⟩
      exact h₁ n cumOwed deadline (Option.some.inj (hlog.symm.trans hl))
    cases change with
    | openChannel _ _ _ none => exact acc.opened (.inl none) rfl (hchal nofun) (hpays nofun nofun)
    | topUp _ opened => exact acc.opened (.inr opened) opened (hchal nofun) (hpays nofun nofun)
    | cooperativeClose => exact .closed rfl
    | challengeClose nonce cumOwed clientSig nodeSig opened sigs =>
      exact acc.challenged (by simp [opened]) rfl (hpays nofun nofun)
        ⟨msg, _, _, clientSig, nodeSig, hact, hlog, rfl, sigs⟩
    | submitChallenge nonce cumOwed clientSig nodeSig challenged _ _ sigs =>
      exact acc.challenged (by simp [challenged]) challenged (hpays nofun nofun)
        ⟨msg, _, _, clientSig, nodeSig, hact, hlog, rfl, sigs⟩
    | finalize => exact .closed rfl
    | reclaim => exact .closed rfl

/-! ## One payout, and an authorised one -/

/-- A payout is one of a channel that was not closed, and settles it or reclaims it. -/
theorem paysOut_authorised (r : Run (machine cfg) s (h₁ ++ e :: h₂) t)
    (init : (machine cfg).Init s) (hpays : PaysOut cfg id e) :
    (e.pre.channels id).status ≠ .Closed ∧ (Settles cfg id h₁ e ∨ Reclaims cfg id h₁ e) := by
  have acc := account r.split.1 init id
  have hlog : ∃ log, emitted cfg e = some log ∧ log.channel = id ∧
      (∀ n cumOwed deadline, log ≠ .channelChallenged id n cumOwed deadline) ∧
      (∀ client node n deposit, log ≠ .channelOpened id client node n deposit) ∧
      ∀ amount deposit, log ≠ .channelToppedUp id amount deposit := by
    rcases hpays with ⟨n, paid, refunded, hl⟩ | ⟨amount, hl⟩ <;>
      exact ⟨_, hl, rfl, nofun, nofun, nofun⟩
  obtain ⟨log, hlog, rfl, hnc, hno, hnt⟩ := hlog
  obtain ⟨msg, call, hact, succ⟩ := success_of_emitted r (by simp) hlog
  obtain ⟨change, transfers, -, -⟩ := succ
  generalize log.channel = id at *
  generalize e.post.channels id = c' at change
  cases change with
  | openChannel => exact absurd rfl (hno _ _ _ _)
  | topUp => exact absurd rfl (hnt _ _)
  | challengeClose => exact absurd rfl (hnc _ _ _)
  | submitChallenge => exact absurd rfl (hnc _ _ _)
  | @cooperativeClose nonce cumOwed clientSig nodeSig signed live _ sigs hsigned =>
    subst hsigned
    refine ⟨by rcases live with h | h <;> simp [h], .inl ⟨nonce.toNat, cumOwed.toNat,
      ⟨e, by simp, msg, _, _, clientSig, nodeSig, hact, hlog, rfl, sigs⟩, hlog, ?_⟩⟩
    exact Option.bind_eq_some_iff.1 transfers
  | finalize challenged =>
    obtain ⟨e', he', hv⟩ := acc.verified challenged
    refine ⟨by simp [challenged], .inl ⟨_, _, ⟨e', by simp [he'], hv⟩, hlog, ?_⟩⟩
    exact Option.bind_eq_some_iff.1 transfers
  | reclaim opened byClient _ elapsed =>
    exact ⟨by simp [opened], .inr ⟨msg, hact, byClient, elapsed, acc.unchallenged (.inr opened),
      hlog, transfers⟩⟩

/-- No event before a payout of a channel paid it out. -/
theorem not_paysOut_before (r : Run (machine cfg) s (h₁ ++ e :: h₂) t)
    (init : (machine cfg).Init s) (hpays : PaysOut cfg id e) : ∀ e' ∈ h₁, ¬ PaysOut cfg id e' :=
  fun e' he' hp => (paysOut_authorised r init hpays).1
    ((account r.split.1 init id).paidOut ⟨e', he', hp⟩)

/-- No event after a payout of a channel pays it out. -/
theorem not_paysOut_after (r : Run (machine cfg) s (h₁ ++ e :: h₂) t)
    (init : (machine cfg).Init s) (hpays : PaysOut cfg id e) : ∀ e' ∈ h₂, ¬ PaysOut cfg id e' := by
  intro e' he' hp
  obtain ⟨k₁, k₂, rfl⟩ := List.append_of_mem he'
  rw [← List.cons_append, ← List.append_assoc] at r
  exact not_paysOut_before r init hp e (by simp) hpays

/-- An event that lowers a deposit pays the channel out. -/
theorem paysOut_of_deposit_lt (r : Run (machine cfg) s (h₁ ++ e :: h₂) t)
    (init : (machine cfg).Init s)
    (hlt : (e.post.channels id).deposit < (e.pre.channels id).deposit) : PaysOut cfg id e := by
  have hzero := channels_of_none r.split.1 init id
  have out := (outcome_of_mem r (e := e) (by simp)).channel id
  generalize e.post.channels id = c' at out hlt
  generalize e.act = a at out
  generalize hlog : emitted cfg e = o at out
  cases out with
  | change about change =>
    have hdep := change.deposit hzero
    rename_i log
    cases log with
    | channelClosed id' => exact .inl ⟨_, _, _, by rw [hlog, ← about]; rfl⟩
    | channelReclaimed id' => exact .inr ⟨_, by rw [hlog, ← about]; rfl⟩
    | _ =>
      simp only [Log.withdrawn] at hdep
      omega
  | frame => exact absurd hlt (lt_irrefl _)

/-- An event that lowers the balance of the contract pays some channel out. -/
theorem paysOut_of_balanceOf_lt (r : Run (machine cfg) s (h₁ ++ e :: h₂) t)
    (init : (machine cfg).Init s)
    (hlt : e.post.usdc.balanceOf cfg.this < e.pre.usdc.balanceOf cfg.this) :
    ∃ id, PaysOut cfg id e := by
  have ha := allowance_this r.split.1 init
  have legal := r.legal (e := e) (by simp)
  have out := outcome_of_mem r (e := e) (by simp)
  obtain ⟨u, a, v⟩ := e
  change Outcome cfg u a v _ at out
  change v.usdc.balanceOf cfg.this < u.usdc.balanceOf cfg.this at hlt
  generalize hlog : emitted cfg ⟨u, a, v⟩ = o at out
  cases out with
  | success succ =>
    have hbal := balanceOf_of_transfers succ.transfers ha
    rename_i log
    cases log with
    | channelClosed id => exact ⟨id, .inl ⟨_, _, _, hlog⟩⟩
    | channelReclaimed id => exact ⟨id, .inr ⟨_, hlog⟩⟩
    | _ =>
      simp only [Log.withdrawn, Log.toSelf, Log.deposited] at hbal
      omega
  | @token sender request =>
    have hle := Ledger.le_balanceOf_apply (r := request) legal ha
    exact absurd hlt (Nat.not_lt.2 hle)
  | _ => exact absurd hlt (lt_irrefl _)

/-- **Every outflow is authorised.** In every run, a channel is paid out at most once: by a
settlement on a state whose two signatures were verified, or by its client's reclaim after the
timeout of a channel that was never challenged; after a challenge only by a settlement. Nothing
else lowers a deposit or the balance of the contract. -/
theorem outflow_authorised (r : Run (machine cfg) s h t) (init : (machine cfg).Init s) :
    (∀ id h₁ e h₂, h = h₁ ++ e :: h₂ → PaysOut cfg id e →
      (∀ e' ∈ h₁ ++ h₂, ¬ PaysOut cfg id e') ∧
      (Settles cfg id h₁ e ∨ Reclaims cfg id h₁ e) ∧
      ((∃ e' ∈ h₁, Challenges cfg id e') → Settles cfg id h₁ e)) ∧
    ∀ e ∈ h, (e.post.usdc.balanceOf cfg.this < e.pre.usdc.balanceOf cfg.this →
        ∃ id, PaysOut cfg id e) ∧
      ∀ id, (e.post.channels id).deposit < (e.pre.channels id).deposit → PaysOut cfg id e := by
  constructor
  · rintro id h₁ e h₂ rfl hpays
    have hauth := (paysOut_authorised r init hpays).2
    refine ⟨fun e' he' => ?_, hauth, fun ⟨e', he', hchal⟩ => ?_⟩
    · rcases List.mem_append.1 he' with he' | he'
      · exact not_paysOut_before r init hpays e' he'
      · exact not_paysOut_after r init hpays e' he'
    · refine hauth.resolve_right fun ⟨_, _, _, _, hnever, _⟩ => hnever e' he' hchal
  · intro e he
    obtain ⟨h₁, h₂, rfl⟩ := List.append_of_mem he
    exact ⟨paysOut_of_balanceOf_lt r init, fun _ => paysOut_of_deposit_lt r init⟩

open Deployment in
theorem outflow_authorised_settling :
    (∀ e ∈ trace (opening ++ coSign 1 25) ++ [], ¬ PaysOut testnet channelId e) ∧
      (Settles testnet channelId (trace (opening ++ coSign 1 25))
          ⟨final (opening ++ coSign 1 25), closeOn 20 1 25, final settling⟩ ∨
        Reclaims testnet channelId (trace (opening ++ coSign 1 25))
          ⟨final (opening ++ coSign 1 25), closeOn 20 1 25, final settling⟩) := by
  have h := (outflow_authorised (run settling legal_settling) init).1 channelId _ _ []
    (Machine.trace_concat (machine testnet) start (opening ++ coSign 1 25) (closeOn 20 1 25))
    (.inl ⟨1, 25, 35, by decide +kernel⟩)
  rw [← Machine.final_concat] at h
  exact ⟨h.1, h.2.1⟩

end Flodex.JobChannel
