import Flodex.Contracts.Lifecycle
import Flodex.Contracts.Solvency
import Flodex.Foundations.MaxRegister

/-!
# The challenge race

Between a challenge and its deadline, the record of a channel is a register of signed states that
takes the ones with a higher nonce (`contested`), so that the state it is finalized on is the
highest one that was submitted, in whatever order.
-/

namespace Flodex.JobChannel

variable (cfg : Config)

/-! ## The property -/

/-- The event tries a state of the channel with the record `c` before the deadline, with the
signatures of both parties. -/
def Tries (c : Channel) (id : Bytes32) (x : ℕ × ℕ) (e : Step) : Prop :=
  ∃ msg nonce cumOwed clientSig nodeSig,
    e.act = .call msg (.submitChallenge id nonce cumOwed clientSig nodeSig) ∧
    x = (UInt64.toNat nonce, BitVec.toNat cumOwed) ∧
    CoSignature cfg c id x.1 x.2 clientSig nodeSig ∧ msg.now < c.challengeDeadline

/-- The event challenges the open channel on a state. -/
def ChallengesOn (id : Bytes32) (x : ℕ × ℕ) (e : Step) : Prop :=
  ∃ msg nonce cumOwed clientSig nodeSig,
    e.act = .call msg (.challengeClose id nonce cumOwed clientSig nodeSig) ∧
    x = (UInt64.toNat nonce, BitVec.toNat cumOwed) ∧ emitted cfg e ≠ none

/-- The calls on the channel are tries of the states of `S`, and all of these are tried. -/
structure Contest (c : Channel) (id : Bytes32) (S : Set (ℕ × ℕ)) (k : List Step) : Prop where
  tries : ∀ f ∈ k, ∀ msg call, f.act = .call msg call → call.channel cfg msg = id →
    ∃ x ∈ S, Tries cfg c id x f
  all : ∀ x ∈ S, ∃ f ∈ k, Tries cfg c id x f

/-- A call of `finalize` succeeds, pays the node `paid` of the deposit of the channel and the client
the rest. -/
def FinalizesOn (t : State) (id : Bytes32) (msg : Msg) (nonce paid : ℕ) : Prop :=
  let c := t.channels id
  ∃ t', (Call.finalize id).exec cfg t msg =
      .ok (t', .channelClosed id nonce paid (c.deposit - paid)) ∧
    (t'.channels id).status = .Closed ∧
    ∃ u, t.usdc.transfer cfg.this c.node paid = some u ∧
      u.transfer cfg.this c.client (c.deposit - paid) = some t'.usdc

variable {cfg} {s t u : State} {h k : List Step} {e : Step} {msg : Msg} {id : Bytes32}
  {a : Action} {c : Channel} {x y : ℕ × ℕ} {S : Set (ℕ × ℕ)}

/-! ## The register of a channel -/

/-- The record with another state. -/
def Channel.withState (c : Channel) (x : ℕ × ℕ) : Channel :=
  { c with latestNonce := x.1, latestCumOwed := x.2 }

/-- A try offers its state to the register. -/
theorem channels_of_tries (htries : Tries cfg c id x ⟨t, a, next cfg t a⟩)
    (hc : c.status = .Challenged) (ht : t.channels id = c.withState y) :
    (next cfg t a).channels id = c.withState (MaxRegister.offer y x) := by
  obtain ⟨msg, nonce, cumOwed, clientSig, nodeSig, hact, rfl, sigs, inWindow⟩ := htries
  obtain rfl : a = _ := hact
  have hsigs : CoSignature cfg (t.channels id) id nonce.toNat cumOwed.toNat clientSig nodeSig := by
    rw [ht]
    exact sigs
  by_cases fresh : y.1 < nonce.toNat
  · have hexec := exec_submitChallenge (by rw [ht]; exact hc)
      (by rw [ht]; exact inWindow) (by rw [ht]; exact fresh) hsigs
    simp only [next, hexec, State.put_channels_self, ht, MaxRegister.offer, if_pos fresh]
    rfl
  · -- the nonce is stale, and the call reverts
    have hstale : ∀ r, (Call.submitChallenge id nonce cumOwed clientSig nodeSig).exec cfg t msg ≠
        .ok r := by
      rintro ⟨t', log⟩ hexec
      have succ := Call.exec_eq_ok hexec
      have change := succ.change
      rw [Call.channel_of_exec hexec] at change
      change Change cfg msg id (t.channels id) _ (t'.channels id) log at change
      generalize t'.channels id = c' at change
      rw [ht] at change
      cases change with
      | submitChallenge _ _ _ _ _ _ fresh' => exact fresh fresh'
    simp only [next]
    split
    · rename_i t' log hexec
      exact absurd hexec (hstale _)
    · rw [ht, MaxRegister.offer, if_neg fresh]

theorem Tries.call (htries : Tries cfg c id x e) :
    ∃ msg call, e.act = .call msg call ∧ call.channel cfg msg = id := by
  obtain ⟨msg, _, _, _, _, hact, -⟩ := htries
  exact ⟨msg, _, hact, rfl⟩

/-- An event tries one state. -/
theorem Tries.unique (h : Tries cfg c id x e) (h' : Tries cfg c id y e) : x = y := by
  obtain ⟨msg, nonce, cumOwed, clientSig, nodeSig, hact, rfl, -⟩ := h
  obtain ⟨msg', nonce', cumOwed', clientSig', nodeSig', hact', rfl, -⟩ := h'
  obtain ⟨-, hcall⟩ := Action.call.inj (hact.symm.trans hact')
  obtain ⟨-, rfl, rfl, -, -⟩ := Call.submitChallenge.inj hcall
  rfl

/-- **A challenged channel is a register** of the states that are tried. -/
theorem contested (r : Run (machine cfg) u k t) (hc : c.status = .Challenged)
    (hu : u.channels id = c.withState x)
    (htries : ∀ f ∈ k, ∀ msg call, f.act = .call msg call → call.channel cfg msg = id →
      ∃ z ∈ S, Tries cfg c id z f) :
    ∃ l y, Run (MaxRegister.machine ℕ ℕ) x l y ∧ t.channels id = c.withState y ∧
      (∀ o ∈ l, o.act ∈ S) ∧ ∀ f ∈ k, ∀ z, Tries cfg c id z f → ∃ o ∈ l, o.act = z := by
  refine r.invariantHistory (fun k t => ∃ l y, Run (MaxRegister.machine ℕ ℕ) x l y ∧
      t.channels id = c.withState y ∧ (∀ o ∈ l, o.act ∈ S) ∧
      ∀ f ∈ k, ∀ z, Tries cfg c id z f → ∃ o ∈ l, o.act = z)
    (fun _ f => ∀ msg call, f.act = .call msg call → call.channel cfg msg = id →
      ∃ z ∈ S, Tries cfg c id z f)
    (along_of_forall htries) ⟨[], x, .nil, hu, by simp, by simp⟩ ?_
  rintro k t a - ⟨l, y, run, ht, hmem, hall⟩ legal hcall
  by_cases htry : ∃ z ∈ S, Tries cfg c id z ⟨t, a, next cfg t a⟩
  · obtain ⟨z, hz, htry⟩ := htry
    refine ⟨l ++ [⟨y, z, MaxRegister.offer y z⟩], _, run.snoc trivial,
      channels_of_tries htry hc ht, ?_, ?_⟩
    · simpa [or_imp, forall_and, hz] using hmem
    · intro f hf w hw
      rcases List.mem_append.1 hf with hf | hf
      · obtain ⟨o, ho, hact⟩ := hall f hf w hw
        exact ⟨o, List.mem_append_left _ ho, hact⟩
      · obtain rfl := List.mem_singleton.1 hf
        exact ⟨_, List.mem_append_right _ (.head _), htry.unique hw⟩
  · have hsame : (next cfg t a).channels id = t.channels id :=
      channels_of_others (Run.single legal) (.head _) fun msg call hact hid =>
        htry (hcall msg call hact hid)
    refine ⟨l, y, run, hsame.trans ht, hmem, fun f hf w hw => ?_⟩
    rcases List.mem_append.1 hf with hf | hf
    · exact hall f hf w hw
    · obtain rfl := List.mem_singleton.1 hf
      obtain ⟨msg, call, hact, hid⟩ := hw.call
      exact absurd (hcall msg call hact hid) htry

/-! ## The race -/

/-- A challenge puts its state into the register. -/
theorem challengesOn_post (r : Run (machine cfg) s h t) (he : e ∈ h)
    (hchal : ChallengesOn cfg id x e) : (e.post.channels id).status = .Challenged ∧
      e.post.channels id = (e.post.channels id).withState x ∧
      (e.post.channels id).deposit = (e.pre.channels id).deposit := by
  obtain ⟨msg, nonce, cumOwed, clientSig, nodeSig, hact, rfl, hsome⟩ := hchal
  obtain ⟨log, change⟩ := change_of_call r he hact hsome
  change Change cfg msg id _ _ (e.post.channels id) log at change
  generalize e.post.channels id = c' at change ⊢
  cases change with
  | challengeClose => exact ⟨rfl, rfl, rfl⟩

/-- A challenged channel is finalized after its deadline. -/
theorem finalizesOn (r : Run (machine cfg) s h t) (init : (machine cfg).Init s)
    (hc : (t.channels id).status = .Challenged)
    (elapsed : (t.channels id).challengeDeadline ≤ msg.now) :
    FinalizesOn cfg t id msg (t.channels id).latestNonce (t.channels id).paid := by
  have hle : (t.channels id).paid + (t.channels id).refund ≤ t.usdc.balanceOf cfg.this := by
    rw [Channel.paid_add_refund]
    exact deposit_le_balanceOf r init id
  obtain ⟨usdc, hpay⟩ := transfers_channelClosed msg id (t.channels id).latestNonce
    (t.channels id) hle
  refine ⟨_, exec_finalize hc elapsed rfl hpay, by simp, ?_⟩
  exact Option.bind_eq_some_iff.1 hpay

/-- **The race is decided by the nonce.** However the states of `S` are submitted between a
challenge on one of them and its deadline, the channel is finalized on the one with the highest
nonce. -/
theorem race_decided (r : Run (machine cfg) s (h ++ e :: k) t) (init : (machine cfg).Init s)
    (unique : MaxRegister.Unique S) (hx : x ∈ S) (hchal : ChallengesOn cfg id x e)
    (contest : Contest cfg (e.post.channels id) id S k) :
    ∃ y, MaxRegister.IsHighest S y ∧ (t.channels id).latestNonce = y.1 ∧
      (t.channels id).latestCumOwed = y.2 ∧
      ∀ msg, (e.post.channels id).challengeDeadline ≤ msg.now →
        FinalizesOn cfg t id msg y.1 (min y.2 (e.pre.channels id).deposit) := by
  obtain ⟨hstatus, hstate, hdeposit⟩ := challengesOn_post r (by simp) hchal
  obtain ⟨l, y, run, ht, hmem, hall⟩ := contested r.split.2.2.2 hstatus hstate contest.tries
  have hy := MaxRegister.highest run unique hx hmem fun z hz => by
    obtain ⟨f, hf, htries⟩ := contest.all z hz
    exact hall f hf z htries
  refine ⟨y, hy, by rw [ht]; rfl, by rw [ht]; rfl, fun msg elapsed => ?_⟩
  have hfinal : FinalizesOn cfg t id msg _ _ :=
    finalizesOn r init (by rw [ht]; exact hstatus) (by rw [ht]; exact elapsed)
  rw [show (t.channels id).latestNonce = y.1 by rw [ht]; rfl,
    show (t.channels id).paid = min y.2 (e.post.channels id).deposit by rw [ht]; rfl,
    hdeposit] at hfinal
  exact hfinal

/-! ## Two states in a race -/

namespace Deployment

/-- A challenge on a state both parties signed. -/
def challengeOn (time nonce : UInt64) (cumOwed : BitVec 256) : Action :=
  .call ⟨client, time⟩ (.challengeClose channelId nonce cumOwed
    (signature client nonce.toNat cumOwed.toNat) (signature node nonce.toNat cumOwed.toNat))

/-- A state both parties signed, against the challenge. -/
def submitOn (time nonce : UInt64) (cumOwed : BitVec 256) : Action :=
  .call ⟨node, time⟩ (.submitChallenge channelId nonce cumOwed
    (signature client nonce.toNat cumOwed.toNat) (signature node nonce.toNat cumOwed.toNat))

/-- The client challenges on the lower state, and the node submits the higher one. -/
def challenging : List Action := opening ++ [challengeOn 20 1 25]

def submissions : List Action := [submitOn 30 2 40, submitOn 40 1 25]

theorem legal_racing : (machine testnet).LegalFrom start (challenging ++ submissions) := by
  refine ⟨?_, ?_, trivial, trivial, trivial, trivial, trivial, trivial⟩ <;>
    exact show client ≠ testnet.this by decide

theorem coSignature_signature (hclient : c.client = client) (hnode : c.node = node) (n m : ℕ) :
    CoSignature testnet c channelId n m (signature client n m) (signature node n m) := by
  rw [CoSignature, hclient, hnode]
  exact ⟨Crypto.symbolic_recover_sign .., Crypto.symbolic_recover_sign ..⟩

theorem tries_submitOn (time nonce : UInt64) (cumOwed : BitVec 256) (hclient : c.client = client)
    (hnode : c.node = node) (htime : time.toNat < c.challengeDeadline) (t t' : State) :
    Tries testnet c channelId (nonce.toNat, cumOwed.toNat)
      ⟨t, submitOn time nonce cumOwed, t'⟩ :=
  ⟨⟨node, time⟩, nonce, cumOwed, _, _, rfl, rfl, coSignature_signature hclient hnode .., htime⟩

theorem record_challenging : ((final challenging).channels channelId).client = client ∧
    ((final challenging).channels channelId).node = node ∧
    ((final challenging).channels channelId).challengeDeadline = 3620 := by
  decide +kernel

theorem trace_racing : trace (challenging ++ submissions) =
    trace opening ++ ⟨final opening, challengeOn 20 1 25, final challenging⟩ ::
      (machine testnet).trace (final challenging) submissions := by
  rw [trace, Machine.trace_append, challenging, Machine.trace_concat, ← Machine.final_concat,
    List.append_assoc, List.singleton_append]

theorem emitted_challenging :
    emitted testnet ⟨final opening, challengeOn 20 1 25, final challenging⟩ =
      some (.channelChallenged channelId 1 25 3620) := by
  decide +kernel

theorem contest_submissions :
    Contest testnet ((final challenging).channels channelId) channelId {(1, 25), (2, 40)}
      ((machine testnet).trace (final challenging) submissions) := by
  obtain ⟨hclient, hnode, hdeadline⟩ := record_challenging
  generalize (final challenging).channels channelId = c at *
  have higher := tries_submitOn 30 2 40 hclient hnode (by rw [hdeadline]; decide)
  have lower := tries_submitOn 40 1 25 hclient hnode (by rw [hdeadline]; decide)
  constructor
  · intro f hf _ _ _ _
    simp only [submissions, Machine.trace, List.mem_cons, List.not_mem_nil, or_false] at hf
    rcases hf with rfl | rfl
    · exact ⟨_, .inr rfl, higher _ _⟩
    · exact ⟨_, .inl rfl, lower _ _⟩
  · rintro x (rfl | rfl)
    · exact ⟨_, .tail _ (.head _), lower _ _⟩
    · exact ⟨_, .head _, higher _ _⟩

end Deployment

open Deployment in
theorem race_decided_racing : ∃ y, MaxRegister.IsHighest {(1, 25), (2, 40)} y ∧
    ((final (challenging ++ submissions)).channels channelId).latestNonce = y.1 ∧
      FinalizesOn testnet (final (challenging ++ submissions)) channelId ⟨client, 4000⟩ y.1
        (min y.2 60) := by
  have r := run (challenging ++ submissions) legal_racing
  rw [trace_racing] at r
  have hdeposit : ((final opening).channels channelId).deposit = 60 := by decide +kernel
  have hchal : ChallengesOn testnet channelId (1, 25)
      ⟨final opening, challengeOn 20 1 25, final challenging⟩ :=
    ⟨⟨client, 20⟩, 1, 25, _, _, rfl, rfl, by rw [emitted_challenging]; nofun⟩
  have unique : MaxRegister.Unique ({(1, 25), (2, 40)} : Set (ℕ × ℕ)) := by
    simp [MaxRegister.Unique]
  have hrace := race_decided r init unique (Set.mem_insert ..) hchal
  dsimp only at hrace
  obtain ⟨y, hy, hnonce, -, hfinal⟩ := hrace contest_submissions
  have hpays := hfinal ⟨client, 4000⟩ (by decide +kernel)
  rw [hdeposit] at hpays
  exact ⟨y, hy, hnonce, hpays⟩

end Flodex.JobChannel
