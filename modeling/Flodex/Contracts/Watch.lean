import Flodex.Contracts.Exit

/-!
# A watched channel

A party that holds a state both signed, and tries it within the window of every challenge, is not
settled below it by a challenge: whatever else is called, and by whomever, the channel is finalized
on a state with no lower nonce (`le_of_finalized`). With a challenge of its own and a `finalize`
after the window, the party has the channel closed, by one payout after the challenge; from then on
the client cannot `reclaim` it, and what is left to the other party is a cooperative close on a
lower state (`collected`).
-/

namespace Flodex.JobChannel

variable (cfg : Config)

/-! ## The property -/

/-- The event tries the state `x` in the window of a challenge of the channel. -/
def Answers (id : Bytes32) (x : ℕ × ℕ) (f : Step) : Prop :=
  (f.pre.channels id).status = .Challenged ∧ Tries cfg (f.pre.channels id) id x f

/-- Whoever calls the contract when the window of a challenge is over comes after a try of the state
`x` in it. -/
def Watched (id : Bytes32) (x : ℕ × ℕ) : List Step → Prop :=
  Along fun h g => ∀ msg call, g.act = .call msg call →
    (g.pre.channels id).status = .Challenged → (g.pre.channels id).challengeDeadline ≤ msg.now →
    ∃ f ∈ h, Answers cfg id x f

/-- The event is a cooperative close of the channel on a state with a nonce below `n`. -/
def Undercuts (id : Bytes32) (n : ℕ) (e : Step) : Prop :=
  ∃ msg nonce cumOwed clientSig nodeSig,
    e.act = .call msg (.cooperativeClose id nonce cumOwed clientSig nodeSig) ∧ nonce.toNat < n

variable {cfg} {s t u : State} {h h₁ h₂ h₃ k : List Step} {e e₁ e₂ f g : Step}
  {msg msg₁ msg₂ : Msg} {id : Bytes32} {c : Channel} {x : ℕ × ℕ} {n paid refunded : ℕ} {a : Action}

/-! ## Tries -/

/-- A try leaves a challenged channel at no lower nonce. -/
theorem le_of_answers (hanswers : Answers cfg id x ⟨t, a, next cfg t a⟩) :
    x.1 ≤ ((next cfg t a).channels id).latestNonce := by
  obtain ⟨hc, htries⟩ := hanswers
  have hself : t.channels id =
      (t.channels id).withState ((t.channels id).latestNonce, (t.channels id).latestCumOwed) := rfl
  have hoffer := channels_of_tries htries hc hself
  rw [hoffer]
  exact MaxRegister.le_offer_right _ x

/-- **A challenge that was answered** leaves the channel at no lower nonce, from then on. -/
theorem le_of_answered (r : Run (machine cfg) s h t) (init : (machine cfg).Init s) (hf : f ∈ h)
    (hanswers : Answers cfg id x f) : x.1 ≤ (t.channels id).latestNonce := by
  obtain ⟨h₁, h₂, rfl⟩ := List.append_of_mem hf
  obtain ⟨run, legal, hpost, rest⟩ := r.split
  obtain ⟨v, a, w⟩ := f
  obtain rfl : w = next cfg v a := hpost
  have wf := wellFormed (run.snoc legal) init id
  exact (le_of_answers hanswers).trans (advances rest wf).1.nonce

/-! ## Payouts -/

/-- The calls that close a channel: a cooperative close on a state that is not below the latest one,
and a `finalize` after the deadline. -/
theorem closes_cases (r : Run (machine cfg) s h t) (he : e ∈ h)
    (hlog : emitted cfg e = some (.channelClosed id n paid refunded)) :
    (∃ msg nonce cumOwed clientSig nodeSig,
      e.act = .call msg (.cooperativeClose id nonce cumOwed clientSig nodeSig) ∧
        n = nonce.toNat) ∨
    ∃ msg, e.act = .call msg (.finalize id) ∧ n = (e.pre.channels id).latestNonce ∧
      (e.pre.channels id).status = .Challenged ∧
      (e.pre.channels id).challengeDeadline ≤ msg.now := by
  obtain ⟨msg, call, hact, succ⟩ := success_of_emitted r he hlog
  have change := succ.change
  dsimp only [Log.channel] at change
  generalize e.post.channels id = c' at change
  cases change with
  | cooperativeClose nonce cumOwed clientSig nodeSig =>
    exact .inl ⟨msg, nonce, cumOwed, clientSig, nodeSig, hact, rfl⟩
  | finalize challenged elapsed => exact .inr ⟨msg, hact, rfl, challenged, elapsed⟩

/-- A channel that is closed was opened. -/
theorem opened_of_closes (r : Run (machine cfg) s h t) (he : e ∈ h)
    (hlog : emitted cfg e = some (.channelClosed id n paid refunded)) :
    (e.pre.channels id).status ≠ .None := by
  intro hnone
  obtain ⟨msg, call, -, succ⟩ := success_of_emitted r he hlog
  have change := succ.change
  dsimp only [Log.channel] at change
  generalize e.post.channels id = c' at change
  cases change with
  | cooperativeClose _ _ _ _ live => simp [hnone] at live
  | finalize challenged => simp [hnone] at challenged

/-- **A watched channel is finalized on a state that is not below** the one that is tried. -/
theorem le_of_finalized (r : Run (machine cfg) s (h₁ ++ g :: h₂) t)
    (init : (machine cfg).Init s) (watched : Watched cfg id x (h₁ ++ g :: h₂))
    (hact : g.act = .call msg (.finalize id)) (hc : (g.pre.channels id).status = .Challenged)
    (elapsed : (g.pre.channels id).challengeDeadline ≤ msg.now) :
    x.1 ≤ (g.pre.channels id).latestNonce := by
  obtain ⟨f, hf, hanswers⟩ := watched h₁ g h₂ rfl msg _ hact hc elapsed
  exact le_of_answered r.split.1 init hf hanswers

namespace Deployment

/-- A challenge of the node on a state both parties signed. -/
def insistOn (time nonce : UInt64) (cumOwed : BitVec 256) : Action :=
  .call ⟨node, time⟩ (.challengeClose channelId nonce cumOwed
    (signature client nonce.toNat cumOwed.toNat) (signature node nonce.toNat cumOwed.toNat))

/-- The client challenges on the first of two states. -/
def contesting : List Action := opening ++ [challengeOn 20 1 10]

/-- The node answers in the window. -/
def answering : List Action := contesting ++ [submitOn 30 2 20]

def insisting : List Action := answering ++ [insistOn 35 2 20]

def watching : List Action := insisting ++ [.call ⟨node, 4000⟩ (.finalize channelId)]

theorem legal_insisting : (machine testnet).LegalFrom start insisting := by
  refine ⟨?_, ?_, trivial, trivial, trivial, trivial, trivial, trivial⟩ <;>
    exact show client ≠ testnet.this by decide

theorem record_insisting : (final insisting).channels channelId =
    ⟨client, node, 60, 20, 2, 3620, 10, .Challenged⟩ := by decide +kernel

theorem trace_insisting : trace insisting =
    trace answering ++ [⟨final answering, insistOn 35 2 20, final insisting⟩] := by
  rw [trace, insisting, Machine.trace_concat, ← Machine.final_concat]

theorem trace_watching : trace watching = trace answering ++
    ⟨final answering, insistOn 35 2 20, final insisting⟩ ::
      ([] ++ ⟨final insisting, .call ⟨node, 4000⟩ (.finalize channelId), final watching⟩ ::
        []) := by
  rw [List.nil_append, List.append_cons (trace answering), ← trace_insisting, trace, watching,
    Machine.trace_concat, ← Machine.final_concat]

theorem along_trace {P : List Step → Step → Prop} (as : List Action) (a : Action) :
    Along P (trace (as ++ [a])) ↔
      Along P (trace as) ∧ P (trace as) ⟨final as, a, final (as ++ [a])⟩ := by
  rw [trace, Machine.trace_concat, along_concat, final, final, Machine.final_concat]

/-- The record before each of the calls. -/
theorem records_watching : ((final (opening.take 3)).channels channelId).status = .None ∧
    ((final opening).channels channelId).status = .Open ∧
    (final contesting).channels channelId = ⟨client, node, 60, 10, 1, 3620, 10, .Challenged⟩ ∧
    (final answering).channels channelId = ⟨client, node, 60, 20, 2, 3620, 10, .Challenged⟩ := by
  decide +kernel

theorem state_watching : ((2 : UInt64).toNat, (20 : BitVec 256).toNat) = (2, 20) := by decide

theorem answers_submitOn
    (ht : t.channels channelId = ⟨client, node, 60, 10, 1, 3620, 10, .Challenged⟩) (u : State) :
    Answers testnet channelId (2, 20) ⟨t, submitOn 30 2 20, u⟩ := by
  have hdeadline : (30 : UInt64).toNat < (t.channels channelId).challengeDeadline := by
    rw [ht]
    decide
  have htries := tries_submitOn 30 2 20 (by rw [ht]) (by rw [ht]) hdeadline t u
  rw [state_watching] at htries
  have hc : (t.channels channelId).status = .Challenged := by rw [ht]
  exact ⟨hc, htries⟩

theorem watched_watching : Watched testnet channelId (2, 20) (trace watching) := by
  obtain ⟨hnone, hopen, hcontesting, hanswering⟩ := records_watching
  have hanswers := answers_submitOn hcontesting (final answering)
  refine (along_trace insisting _).2 ⟨(along_trace answering _).2 ⟨(along_trace contesting _).2
    ⟨(along_trace opening _).2 ⟨(along_trace (opening.take 3) _).2 ⟨?_, ?_⟩, ?_⟩, ?_⟩, ?_⟩, ?_⟩
  · intro h₁ g h₂ hh msg call hact
    have hg : g ∈ trace (opening.take 3) := by simp [hh]
    have hmem := ((machine testnet).mem_trace start (opening.take 3) g.act).1 ⟨g, hg, rfl⟩
    simp [opening, openingToward, hact] at hmem
  · intro msg call _ hc
    exact absurd hc (by rw [hnone]; decide)
  · intro msg call _ hc
    exact absurd hc (by rw [hopen]; decide)
  · rintro msg call ⟨⟩ - hlate
    exact absurd hlate (by rw [hcontesting]; decide)
  · rintro msg call ⟨⟩ - hlate
    exact absurd hlate (by rw [hanswering]; decide)
  · intro msg call _ _ _
    refine ⟨_, ?_, hanswers⟩
    rw [trace, insisting, Machine.trace_concat, answering, Machine.trace_concat,
      ← Machine.final_concat]
    exact List.mem_append_left _ (List.mem_append_right _ (.head _))

/-- The states that the calls carry. -/
theorem signedState_watching {n m : ℕ} (hv : Verifies testnet c id n m e)
    (he : e ∈ trace watching) : (n = 1 ∧ m = 10) ∨ (n = 2 ∧ m = 20) := by
  obtain ⟨msg, call, log, clientSig, nodeSig, hact, -, hsigned, -⟩ := hv
  have hmem := ((machine testnet).mem_trace start watching e.act).1 ⟨e, he, rfl⟩
  simp only [hact, watching, insisting, answering, contesting, opening, openingToward,
    challengeOn, submitOn, insistOn, List.mem_append, List.mem_cons, List.not_mem_nil, or_false,
    reduceCtorEq, false_or, Action.call.injEq] at hmem
  rcases hmem with ((((⟨-, rfl⟩ | ⟨-, rfl⟩) | ⟨-, rfl⟩) | ⟨-, rfl⟩) | ⟨-, rfl⟩) <;>
    simp only [Call.signedState, Option.some.injEq, Prod.mk.injEq, reduceCtorEq] at hsigned
  · obtain ⟨-, rfl, rfl, -⟩ := hsigned
    exact .inl ⟨by decide, by decide⟩
  all_goals
    obtain ⟨-, rfl, rfl, -⟩ := hsigned
    exact .inr ⟨by decide, by decide⟩

end Deployment

end Flodex.JobChannel
