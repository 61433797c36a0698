import Flodex.Contracts.Settlement

/-!
# Superseded states

A state of a channel is superseded once both parties signed one with a higher nonce. `finalize`
pays on a superseded state only after the challenge window (`challengedFor`). `cooperativeClose`
compares the nonce with the one the record holds, which is `0` until a challenge, and does not
look at the deadline: it pays on a superseded state at once. `settlesAfterWindow_iff` says exactly
in which runs no superseded state is paid before the window has passed.
-/

namespace Flodex.JobChannel

variable (cfg : Config)

/-- The party signed the state. -/
def Signed (h : List Step) (party : Address) (id : Bytes32) (nonce : UInt64)
    (cumOwed : BitVec 256) : Prop := ∃ e ∈ h, e.act = .sign party id nonce cumOwed

/-- Both parties of the record `c` signed a state with a nonce above `n`. -/
def Superseded (h : List Step) (c : Channel) (id : Bytes32) (n : ℕ) : Prop :=
  ∃ nonce cumOwed, n < nonce.toNat ∧ Signed h c.client id nonce cumOwed ∧
    Signed h c.node id nonce cumOwed

/-- The event challenges the open channel. -/
def OpensChallenge (id : Bytes32) (msg : Msg) (e : Step) : Prop :=
  (∃ nonce cumOwed clientSig nodeSig,
    e.act = .call msg (.challengeClose id nonce cumOwed clientSig nodeSig)) ∧
    (emitted cfg e).isSome

/-- The channel was challenged at least `challengeWindow` before `now`, and in status
`Challenged` ever since. -/
def ChallengedFor (id : Bytes32) (now : ℕ) (h : List Step) : Prop :=
  ∃ h₁ e h₂ msg, h = h₁ ++ e :: h₂ ∧ OpensChallenge cfg id msg e ∧
    msg.now + cfg.challengeWindow.toNat ≤ now ∧
    ∀ e' ∈ e :: h₂, (e'.post.channels id).status = .Challenged

/-- A payout on a superseded state comes after the challenge window. -/
def SettlesAfterWindow (h : List Step) : Prop :=
  Along (fun h e => ∀ id msg call n paid refunded, e.act = .call msg call →
    emitted cfg e = some (.channelClosed id n paid refunded) →
    Superseded h (e.pre.channels id) id n → ChallengedFor cfg id msg.now h) h

/-- The event is a `cooperativeClose` that the guards of the code let pass, on a superseded state,
of a channel that is not past a challenge deadline. -/
def ClosesEarly (h : List Step) (e : Step) : Prop :=
  ∃ msg id nonce cumOwed clientSig nodeSig,
    e.act = .call msg (.cooperativeClose id nonce cumOwed clientSig nodeSig) ∧
    let c := e.pre.channels id
    (c.status = .Open ∨ c.status = .Challenged) ∧ c.latestNonce ≤ nonce.toNat ∧
      CoSignature cfg c id nonce.toNat cumOwed.toNat clientSig nodeSig ∧
      Superseded h c id nonce.toNat ∧ ¬ (c.status = .Challenged ∧ c.challengeDeadline ≤ msg.now)

/-- No signature is forged: every state the contract verified was signed by both parties. -/
def Unforged (h : List Step) : Prop :=
  Along (fun h e => ∀ msg call id nonce cumOwed clientSig nodeSig, e.act = .call msg call →
    (emitted cfg e).isSome →
    call.signedState = some (id, UInt64.toNat nonce, BitVec.toNat cumOwed, clientSig, nodeSig) →
    Signed h (e.pre.channels id).client id nonce cumOwed ∧
      Signed h (e.pre.channels id).node id nonce cumOwed) h

variable {cfg} {s t : State} {h h₁ h₂ : List Step} {e : Step} {msg : Msg} {call : Call} {log : Log}
  {id : Bytes32} {c c' : Channel}

/-! ## The deadline -/

theorem challenged_concat {e' : Step}
    (hsince : ∀ f ∈ e :: h₂, (f.post.channels id).status = .Challenged)
    (hnow : (e'.post.channels id).status = .Challenged) :
    ∀ f ∈ e :: (h₂ ++ [e']), (f.post.channels id).status = .Challenged := by
  intro f hf
  rw [← List.cons_append] at hf
  rcases List.mem_append.1 hf with hf | hf
  · exact hsince f hf
  · obtain rfl := List.mem_singleton.1 hf
    exact hnow

/-- The deadline of a challenged channel is that of a challenge since which it was challenged. -/
theorem challengedSince (r : Run (machine cfg) s h t) (init : (machine cfg).Init s)
    (hc : (t.channels id).status = .Challenged) :
    ∃ h₁ e h₂ msg, h = h₁ ++ e :: h₂ ∧ OpensChallenge cfg id msg e ∧
      (t.channels id).challengeDeadline = msg.now + cfg.challengeWindow.toNat ∧
      ∀ e' ∈ e :: h₂, (e'.post.channels id).status = .Challenged := by
  refine channelHistory (fun h c => c.status = .Challenged →
    ∃ h₁ e h₂ msg, h = h₁ ++ e :: h₂ ∧ OpensChallenge cfg id msg e ∧
      c.challengeDeadline = msg.now + cfg.challengeWindow.toNat ∧
      ∀ e' ∈ e :: h₂, (e'.post.channels id).status = .Challenged) r ?_ ?_ ?_ hc
  · rw [init.1 id]
    exact nofun
  · -- the last event leaves the record as it was
    intro h e c ih _ hpost _ hc
    obtain ⟨h₁, e₀, h₂, msg, rfl, hopens, hdeadline, hsince⟩ := ih hc
    have hnow : (e.post.channels id).status = .Challenged := by rw [hpost, hc]
    exact ⟨h₁, e₀, h₂ ++ [e], msg, by simp, hopens, hdeadline, challenged_concat hsince hnow⟩
  · intro h e c c' msg call log ih _ hpost hact hlog _ change hc'
    cases change with
    | openChannel => simp at hc'
    | topUp _ opened => simp [opened] at hc'
    | cooperativeClose => simp at hc'
    | challengeClose nonce cumOwed clientSig nodeSig =>
      refine ⟨h, e, [], msg, rfl, ⟨⟨nonce, cumOwed, clientSig, nodeSig, hact⟩, by simp [hlog]⟩,
        rfl, fun e' he' => ?_⟩
      obtain rfl := List.mem_singleton.1 he'
      rw [hpost]
    | submitChallenge _ _ _ _ challenged =>
      obtain ⟨h₁, e₀, h₂, msg, rfl, hopens, hdeadline, hsince⟩ := ih challenged
      have hnow : (e.post.channels id).status = .Challenged := by
        rw [hpost]
        exact hc'
      exact ⟨h₁, e₀, h₂ ++ [e], msg, by simp, hopens, hdeadline, challenged_concat hsince hnow⟩
    | finalize => simp at hc'
    | reclaim => simp at hc'

/-- Past its deadline, a challenged channel was challenged for the window. -/
theorem challengedFor (r : Run (machine cfg) s h t) (init : (machine cfg).Init s) {now : ℕ}
    (hc : (t.channels id).status = .Challenged) (hnow : (t.channels id).challengeDeadline ≤ now) :
    ChallengedFor cfg id now h := by
  obtain ⟨h₁, e, h₂, msg, hh, hopens, hdeadline, hsince⟩ := challengedSince r init hc
  exact ⟨h₁, e, h₂, msg, hh, hopens, by omega, hsince⟩

/-- A challenged channel keeps its deadline until it is closed. -/
theorem deadline_stable (r : Run (machine cfg) s h t) (hs : (s.channels id).status = .Challenged) :
    (t.channels id).status = .Closed ∨ ((t.channels id).status = .Challenged ∧
      (t.channels id).challengeDeadline = (s.channels id).challengeDeadline) := by
  refine channel_invariant (fun c => c.status = .Closed ∨ (c.status = .Challenged ∧
    c.challengeDeadline = (s.channels id).challengeDeadline)) r (.inr ⟨hs, rfl⟩) ?_
  intro c c' msg call log ih change
  cases change with
  | openChannel _ _ _ none => rcases ih with h | h <;> simp [none] at h
  | topUp _ opened => rcases ih with h | h <;> simp [opened] at h
  | cooperativeClose => exact .inl rfl
  | challengeClose _ _ _ _ opened => rcases ih with h | h <;> simp [opened] at h
  | submitChallenge => exact ih
  | finalize => exact .inl rfl
  | reclaim => exact .inl rfl

/-! ## When no superseded state is paid early -/

/-- A cooperative close that passes the guards is paid. -/
theorem emitted_cooperativeClose (r : Run (machine cfg) s h t) (init : (machine cfg).Init s)
    {nonce : UInt64} {cumOwed : BitVec 256} {clientSig nodeSig : List UInt8}
    (hpre : e.pre = t)
    (hact : e.act = .call msg (.cooperativeClose id nonce cumOwed clientSig nodeSig))
    (live : (t.channels id).status = .Open ∨ (t.channels id).status = .Challenged)
    (fresh : (t.channels id).latestNonce ≤ nonce.toNat)
    (sigs : CoSignature cfg (t.channels id) id nonce.toNat cumOwed.toNat clientSig nodeSig) :
    ∃ paid refunded, emitted cfg e = some (.channelClosed id nonce.toNat paid refunded) := by
  let c := { t.channels id with latestNonce := nonce.toNat, latestCumOwed := cumOwed.toNat }
  have hle : c.paid + c.refund ≤ t.usdc.balanceOf cfg.this := by
    rw [c.paid_add_refund]
    exact deposit_le_balanceOf r init id
  obtain ⟨usdc, hpay⟩ := transfers_channelClosed msg id nonce.toNat c hle
  have hexec := exec_cooperativeClose live fresh sigs rfl hpay
  refine ⟨c.paid, c.refund, ?_⟩
  simp only [emitted, hact, hpre, hexec]
  rfl

/-- A challenge of an open channel sets its deadline. -/
theorem deadline_of_opensChallenge (r : Run (machine cfg) s h t) (he : e ∈ h) {nonce : UInt64}
    {cumOwed : BitVec 256} {clientSig nodeSig : List UInt8}
    (hact : e.act = .call msg (.challengeClose id nonce cumOwed clientSig nodeSig))
    (hok : (emitted cfg e).isSome) :
    (e.post.channels id).challengeDeadline = msg.now + cfg.challengeWindow.toNat := by
  obtain ⟨log, hlog⟩ := Option.isSome_iff_exists.1 hok
  obtain ⟨msg', call, hact', succ⟩ := success_of_emitted r he hlog
  obtain ⟨rfl, rfl⟩ := Action.call.inj (hact.symm.trans hact')
  have change := succ.change
  generalize hid : log.channel = id' at change
  generalize hc' : e.post.channels id' = c' at change
  cases change with
  | challengeClose => rw [hc']

/-- **When the window protects the latest state.** In a run no superseded state is paid before the
challenge window has passed exactly when no `cooperativeClose` that the guards let pass is made on
one, while the channel is open or before its deadline. -/
theorem settlesAfterWindow_iff (r : Run (machine cfg) s h t) (init : (machine cfg).Init s) :
    SettlesAfterWindow cfg h ↔ Along (fun h e => ¬ ClosesEarly cfg h e) h := by
  constructor
  · rintro hwindow h₁ e h₂ rfl ⟨msg, id, nonce, cumOwed, clientSig, nodeSig, hact, live, fresh,
      sigs, hsup, hearly⟩
    have run := r.split.1
    obtain ⟨paid, refunded, hlog⟩ :=
      emitted_cooperativeClose run init rfl hact live fresh sigs
    obtain ⟨k₁, e₀, k₂, msg₀, rfl, ⟨⟨_, _, _, _, hopens⟩, hok⟩, helapsed, hsince⟩ :=
      hwindow h₁ e h₂ rfl id msg _ _ _ _ hact hlog hsup
    have hdeadline := deadline_of_opensChallenge run (by simp) hopens hok
    -- the channel is still in the challenge that set the deadline
    rcases deadline_stable run.split.2.2.2 (hsince e₀ (by simp)) with hclosed | ⟨hchal, hsame⟩
    · rcases live with hl | hl <;> simp [hclosed] at hl
    · exact hearly ⟨hchal, by omega⟩
  · rintro hlate h₁ e h₂ rfl id msg call n paid refunded hact hlog hsup
    have run := r.split.1
    obtain ⟨msg', call', hact', succ⟩ := success_of_emitted r (by simp) hlog
    obtain ⟨rfl, rfl⟩ := Action.call.inj (hact.symm.trans hact')
    have change : Change cfg msg id (e.pre.channels id) call _ _ := succ.change
    generalize e.post.channels _ = c' at change
    generalize hlog' : Log.channelClosed id n paid refunded = log at change
    cases change with
    | @cooperativeClose nonce cumOwed clientSig nodeSig _ live fresh sigs =>
      injection hlog' with _ hn
      subst hn
      have hpast := of_not_not fun hearly => hlate h₁ e h₂ rfl
        ⟨msg, id, nonce, cumOwed, clientSig, nodeSig, hact, live, fresh, sigs, hsup, hearly⟩
      exact challengedFor run init hpast.1 hpast.2
    | finalize challenged elapsed => exact challengedFor run init challenged elapsed
    | _ => cases hlog'

open Deployment

theorem settlesAfterWindow_iff_settling :
    SettlesAfterWindow testnet (trace settling) ↔
      Along (fun h e => ¬ ClosesEarly testnet h e) (trace settling) :=
  settlesAfterWindow_iff (run settling legal_settling) init

/-! ## A superseded state paid at once -/

/-- What the parties do before the close. -/
def beforeStale : List Action := opening ++ coSign 1 25 ++ coSign 2 40

/-- The channel is closed on the first of two states, from status `Open`. -/
def stale : List Action := beforeStale ++ [closeOn 20 1 25]

theorem legal_stale : (machine testnet).LegalFrom start stale := by
  refine ⟨?_, ?_, trivial, trivial, trivial, trivial, trivial, trivial, trivial, trivial⟩ <;>
    exact show client ≠ testnet.this by decide

theorem signed_beforeStale {party : Address} {nonce : UInt64} {cumOwed : BitVec 256}
    (h : .sign party channelId nonce cumOwed ∈ beforeStale) :
    Signed (trace beforeStale) party channelId nonce cumOwed :=
  ((machine testnet).mem_trace start beforeStale _).2 h

theorem parties_beforeStale :
    ((final beforeStale).channels channelId).client = client ∧
      ((final beforeStale).channels channelId).node = node := by
  decide +kernel

theorem not_signedState_of_mem {a : Action} (ha : a ∈ beforeStale) {msg : Msg} {call : Call}
    (hact : a = .call msg call) : call.signedState = none := by
  subst hact
  simp only [beforeStale, opening, openingToward, coSign, List.mem_append, List.mem_cons,
    List.not_mem_nil,
    reduceCtorEq, Action.call.injEq, false_or, or_false] at ha
  rw [ha.2]
  rfl

theorem unforged_stale : Unforged testnet (trace stale) := by
  unfold Unforged stale trace
  rw [Machine.trace_concat, along_concat]
  constructor
  · rintro h₁ e h₂ hh msg call id nonce cumOwed clientSig nodeSig hact - hsigned
    have hmem := ((machine testnet).mem_trace start beforeStale e.act).1
      ⟨e, by rw [hh]; simp, rfl⟩
    rw [not_signedState_of_mem hmem hact] at hsigned
    simp at hsigned
  · rintro msg call id nonce cumOwed clientSig nodeSig hact - hsigned
    obtain ⟨rfl, rfl⟩ := Action.call.inj hact
    simp only [Call.signedState, Option.some.injEq, Prod.mk.injEq, UInt64.toNat_inj,
      BitVec.toNat_inj] at hsigned
    obtain ⟨rfl, rfl, rfl, -⟩ := hsigned
    obtain ⟨hc, hn⟩ := parties_beforeStale
    rw [hc, hn]
    exact ⟨signed_beforeStale (by simp [beforeStale, coSign]),
      signed_beforeStale (by simp [beforeStale, coSign])⟩

/-- **A cooperative close on a superseded state** pays from an open channel, with no window. -/
theorem superseded_paid_at_once :
    Run (machine testnet) start (trace stale) (final stale) ∧ Unforged testnet (trace stale) ∧
      ¬ SettlesAfterWindow testnet (trace stale) := by
  refine ⟨run stale legal_stale, unforged_stale, fun hwindow => ?_⟩
  obtain ⟨hc, hn⟩ := parties_beforeStale
  obtain ⟨h₁, e, h₂, msg, hh, ⟨⟨nonce, cumOwed, clientSig, nodeSig, hact⟩, -⟩, -⟩ :=
    hwindow _ _ [] ((machine testnet).trace_concat start beforeStale (closeOn 20 1 25))
      channelId _ _ 1 25 35 rfl (by decide +kernel)
      ⟨2, 40, by decide, by rw [hc]; exact signed_beforeStale (by simp [beforeStale, coSign]),
        by rw [hn]; exact signed_beforeStale (by simp [beforeStale, coSign])⟩
  have hmem := ((machine testnet).mem_trace start beforeStale e.act).1
    ⟨e, by rw [hh]; simp, rfl⟩
  have := not_signedState_of_mem hmem hact
  simp [Call.signedState] at this

end Flodex.JobChannel
