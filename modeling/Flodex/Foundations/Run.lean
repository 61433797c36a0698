import Mathlib.Algebra.Order.Ring.Nat
import Mathlib.Data.List.Forall2
import Mathlib.Data.List.Induction

/-!
# Runs of a labelled machine

A machine answers every action of its environment with a next state. A run is recorded as its
history: the list of the events taken, each with the state before it, the action and the state
after it, so that a property of the whole run can speak about any moment of it.

* `Run.invariant`, `Run.invariantHistory`: what every step preserves holds along every run, the
  second for properties that relate the state to the history that led to it.
* `Run.split`: a run through an event is a run up to it, the event, and a run from it.
* `Run.simulates`: a machine whose every step is matched by a run of another one is simulated by
  it along whole runs.
* `Run.unwind`: a relation between the states of two runs holds at their ends, when pairs of
  related actions keep it and the other actions of each run do.
-/

namespace Flodex

variable {σ τ α β : Type*}

/-- A machine: its initial states, the actions its environment may take, and its next state. -/
structure Machine (σ α : Type*) where
  Init : σ → Prop
  Legal : σ → α → Prop
  next : σ → α → σ

/-- One event of a run. -/
structure Event (σ α : Type*) where
  pre : σ
  act : α
  post : σ

/-- `Run M s h t`: the events `h`, in order, lead from `s` to `t`. -/
inductive Run (M : Machine σ α) (s : σ) : List (Event σ α) → σ → Prop
  | nil : Run M s [] s
  | snoc {h : List (Event σ α)} {t : σ} {a : α} (run : Run M s h t) (legal : M.Legal t a) :
    Run M s (h ++ [⟨t, a, M.next t a⟩]) (M.next t a)

/-- A history of the machine, from one of its initial states to `t`. -/
def Machine.History (M : Machine σ α) (h : List (Event σ α)) (t : σ) : Prop :=
  ∃ s, M.Init s ∧ Run M s h t

variable {M : Machine σ α} {s t u : σ} {h h₁ h₂ : List (Event σ α)} {e : Event σ α}

/-! ## Every moment of a history -/

section Along

variable {γ : Type*} {P : List γ → γ → Prop} {l l' : List γ} {x : γ}

/-- `P` holds of every element of the list and the elements before it. -/
def Along (P : List γ → γ → Prop) (l : List γ) : Prop :=
  ∀ l₁ x l₂, l = l₁ ++ x :: l₂ → P l₁ x

theorem along_nil : Along P [] := by
  intro l₁ x l₂ h
  simp at h

theorem along_concat : Along P (l ++ [x]) ↔ Along P l ∧ P l x := by
  constructor
  · intro hP
    refine ⟨fun l₁ y l₂ hl => hP l₁ y (l₂ ++ [x]) (by simp [hl]), hP l x [] rfl⟩
  · rintro ⟨hP, hlast⟩ l₁ y l₂ hl
    rcases List.eq_nil_or_concat l₂ with rfl | ⟨l₂, z, rfl⟩
    · obtain ⟨rfl, hx⟩ := List.append_inj' hl rfl
      obtain rfl := List.singleton_inj.1 hx
      exact hlast
    · rw [List.concat_eq_append, ← List.cons_append, ← List.append_assoc] at hl
      obtain ⟨rfl, -⟩ := List.append_inj' hl rfl
      exact hP l₁ y l₂ rfl

theorem Along.left (h : Along P (l ++ l')) : Along P l :=
  fun l₁ x l₂ hl => h l₁ x (l₂ ++ l') (by simp [hl])

theorem Along.last (h : Along P (l ++ [x])) : P l x := (along_concat.1 h).2

theorem along_of_forall {P : γ → Prop} (hP : ∀ x ∈ l, P x) : Along (fun _ x => P x) l := by
  rintro l₁ x l₂ rfl
  exact hP x (by simp)

end Along

/-! ## The last of a kind -/

section LastOf

variable {γ : Type*} {Q : γ → Prop} {l before before' : List γ} {x x' y : γ}

/-- `x`, after the elements `before`, is the last element of the list that satisfies `Q`. -/
def LastOf (Q : γ → Prop) (l before : List γ) (x : γ) : Prop :=
  Q x ∧ ∃ rest, l = before ++ x :: rest ∧ ∀ y ∈ rest, ¬ Q y

theorem lastOf_concat (hx : Q x) : LastOf Q (l ++ [x]) l x := ⟨hx, [], rfl, by simp⟩

theorem LastOf.concat (h : LastOf Q l before x) (hy : ¬ Q y) : LastOf Q (l ++ [y]) before x := by
  obtain ⟨hx, rest, rfl, hrest⟩ := h
  refine ⟨hx, rest ++ [y], by simp, fun z hz => ?_⟩
  rcases List.mem_append.1 hz with hz | hz
  · exact hrest z hz
  · obtain rfl := List.mem_singleton.1 hz
    exact hy

/-- The last element of the list is the last of its kind. -/
theorem LastOf.eq_of_concat (h : LastOf Q (l ++ [y]) before x) (hy : Q y) :
    before = l ∧ x = y := by
  obtain ⟨-, rest, heq, hrest⟩ := h
  rcases List.eq_nil_or_concat rest with rfl | ⟨rest, z, rfl⟩
  · obtain ⟨rfl, hyx⟩ := List.append_inj' heq rfl
    exact ⟨rfl, (List.singleton_inj.1 hyx).symm⟩
  · rw [List.concat_eq_append, ← List.cons_append, ← List.append_assoc] at heq
    obtain ⟨-, hyz⟩ := List.append_inj' heq rfl
    obtain rfl := List.singleton_inj.1 hyz
    exact absurd hy (hrest y (by simp))

/-- An element of the kind is the last one or before it. -/
theorem LastOf.mem_before (h : LastOf Q l before x) (hy : y ∈ l) (hQ : Q y) :
    y ∈ before ∨ y = x := by
  obtain ⟨-, rest, rfl, hrest⟩ := h
  rcases List.mem_append.1 hy with hy | hy
  · exact .inl hy
  · rcases List.mem_cons.1 hy with rfl | hy
    · exact .inr rfl
    · exact absurd hQ (hrest y hy)

end LastOf

namespace Run

theorem single {a : α} (legal : M.Legal s a) : Run M s [⟨s, a, M.next s a⟩] (M.next s a) :=
  snoc nil legal

/-- A step more, with a name for its event. -/
theorem exists_snoc (r : Run M s h t) {a : α} (legal : M.Legal t a) :
    ∃ e, Run M s (h ++ [e]) e.post ∧ e.pre = t ∧ e.act = a ∧ e.post = M.next t a :=
  ⟨_, r.snoc legal, rfl, rfl, rfl⟩

theorem trans (r₁ : Run M s h₁ t) (r₂ : Run M t h₂ u) : Run M s (h₁ ++ h₂) u := by
  induction r₂ with
  | nil => simpa using r₁
  | snoc _ legal ih =>
    rw [← List.append_assoc]
    exact ih.snoc legal

theorem eq_of_nil (r : Run M s [] t) : t = s := by
  generalize hh : ([] : List (Event σ α)) = h at r
  cases r with
  | nil => rfl
  | snoc => simp at hh

/-- The last event of a run is a step of the machine from the state the others reach. -/
theorem of_concat (r : Run M s (h ++ [e]) t) :
    Run M s h e.pre ∧ M.Legal e.pre e.act ∧ e.post = M.next e.pre e.act ∧ t = e.post := by
  generalize hh : h ++ [e] = h' at r
  cases r with
  | nil => simp at hh
  | snoc run legal =>
    obtain ⟨rfl, hl⟩ := List.append_inj' hh rfl
    obtain rfl := List.singleton_inj.1 hl
    exact ⟨run, legal, rfl, rfl⟩

/-- **A run through an event** is a run up to it, the event, and a run from it. -/
theorem split (r : Run M s (h₁ ++ e :: h₂) t) :
    Run M s h₁ e.pre ∧ M.Legal e.pre e.act ∧ e.post = M.next e.pre e.act ∧
      Run M e.post h₂ t := by
  induction h₂ using List.reverseRecOn generalizing t with
  | nil =>
    obtain ⟨run, legal, hpost, rfl⟩ := r.of_concat
    exact ⟨run, legal, hpost, nil⟩
  | append_singleton h₂ e' ih =>
    rw [← List.cons_append, ← List.append_assoc] at r
    obtain ⟨run, legal', hpost', rfl⟩ := r.of_concat
    obtain ⟨run₁, legal, hpost, run₂⟩ := ih run
    refine ⟨run₁, legal, hpost, ?_⟩
    have := run₂.snoc legal'
    rwa [← hpost'] at this

theorem splitAppend (r : Run M s (h₁ ++ h₂) t) : ∃ u, Run M s h₁ u ∧ Run M u h₂ t := by
  cases h₂ with
  | nil => exact ⟨t, by simpa using r, nil⟩
  | cons e h₂ =>
    obtain ⟨run₁, legal, hpost, run₂⟩ := r.split
    refine ⟨e.pre, run₁, ?_⟩
    have := single legal
    rw [← hpost] at this
    exact this.trans run₂

/-- The rest of a run, from before one of its events. -/
theorem rest (r : Run M s (h₁ ++ e :: h₂) t) : Run M e.pre (e :: h₂) t := by
  obtain ⟨-, legal, hpost, run₂⟩ := r.split
  obtain ⟨u, a, v⟩ := e
  obtain rfl : v = M.next u a := hpost
  exact (single legal).trans run₂

/-- The events of a run are steps of the machine. -/
theorem post_eq (r : Run M s h t) (he : e ∈ h) : e.post = M.next e.pre e.act := by
  obtain ⟨h₁, h₂, rfl⟩ := List.append_of_mem he
  exact r.split.2.2.1

theorem legal (r : Run M s h t) (he : e ∈ h) : M.Legal e.pre e.act := by
  obtain ⟨h₁, h₂, rfl⟩ := List.append_of_mem he
  exact r.split.2.1

/-- The run up to an event. -/
theorem exists_upTo (r : Run M s h t) (he : e ∈ h) : ∃ h₁, Run M s h₁ e.pre := by
  obtain ⟨h₁, h₂, rfl⟩ := List.append_of_mem he
  exact ⟨h₁, r.split.1⟩

/-! ## Invariants -/

/-- **A property of the history and the state that every step preserves holds along every run.**
The condition `P` is on each event and the events before it. -/
theorem invariantHistory (I : List (Event σ α) → σ → Prop)
    (P : List (Event σ α) → Event σ α → Prop) (r : Run M s h t) (hP : Along P h) (init : I [] s)
    (step : ∀ h t a, Run M s h t → I h t → M.Legal t a → P h ⟨t, a, M.next t a⟩ →
      I (h ++ [⟨t, a, M.next t a⟩]) (M.next t a)) : I h t := by
  induction r with
  | nil => exact init
  | snoc run legal ih =>
    obtain ⟨hP, hlast⟩ := along_concat.1 hP
    exact step _ _ _ run (ih hP) legal hlast

/-- **What every step preserves holds along every run.** -/
theorem invariant (I : σ → Prop) (r : Run M s h t) (init : I s)
    (step : ∀ t a, I t → M.Legal t a → I (M.next t a)) : I t :=
  r.invariantHistory (fun _ t => I t) (fun _ _ => True) (fun _ _ _ _ => trivial) init
    fun _ t a _ ht legal _ => step t a ht legal

/-- A property that a step can only give up at an event `Q`, and that holds at the start of a run
without such an event, holds at every moment of it. -/
theorem stable (I : σ → Prop) (Q : Event σ α → Prop) (r : Run M s h t)
    (hQ : ∀ e ∈ h, ¬ Q e) (init : I s)
    (step : ∀ t a, I t → M.Legal t a → ¬ Q ⟨t, a, M.next t a⟩ → I (M.next t a)) :
    I t ∧ ∀ e ∈ h, I e.pre ∧ I e.post := by
  refine r.invariantHistory (fun h t => I t ∧ ∀ e ∈ h, I e.pre ∧ I e.post) (fun _ e => ¬ Q e)
    (along_of_forall hQ) ⟨init, by simp⟩ fun h t a _ ih legal hq => ?_
  have hnext := step t a ih.1 legal hq
  refine ⟨hnext, fun e he => ?_⟩
  rcases List.mem_append.1 he with he | he
  · exact ih.2 e he
  · obtain rfl := List.mem_singleton.1 he
    exact ⟨ih.1, hnext⟩

/-! ## Two machines, two runs -/

theorem forall₂_concat {A : α → β → Prop} {l : List α} {l' : List β} {a : α} {b : β} :
    List.Forall₂ A (l ++ [a]) (l' ++ [b]) ↔ List.Forall₂ A l l' ∧ A a b := by
  rw [← List.forall₂_reverse_iff, List.reverse_concat, List.reverse_concat, List.forall₂_cons,
    List.forall₂_reverse_iff, and_comm]

/-- **Simulation**: when every step of `M` is matched by a run of `N` over the actions `g` of the
event, every run of `M` is matched by a run of `N`. -/
theorem simulates {N : Machine τ β} (f : σ → τ) (g : Event σ α → List β)
    (r : Run M s h t)
    (step : ∀ h t a, Run M s h t → M.Legal t a →
      ∃ k, Run N (f t) k (f (M.next t a)) ∧ k.map Event.act = g ⟨t, a, M.next t a⟩) :
    ∃ k, Run N (f s) k (f t) ∧ k.map Event.act = h.flatMap g := by
  induction r with
  | nil => exact ⟨[], nil, rfl⟩
  | snoc run legal ih =>
    obtain ⟨k, hk, hg⟩ := ih
    obtain ⟨k', hk', hg'⟩ := step _ _ _ run legal
    exact ⟨k ++ k', hk.trans hk', by simp [hg, hg']⟩

/-- A run goes on to a given state. -/
theorem snoc_eq (r : Run M s h t) {a : α} (legal : M.Legal t a) (hnext : M.next t a = u) :
    Run M s (h ++ [⟨t, a, u⟩]) u :=
  hnext ▸ r.snoc legal

/-- A step to a given state, as a run of its action. -/
theorem exists_single {a : α} (legal : M.Legal s a) (hnext : M.next s a = t) :
    ∃ k, Run M s k t ∧ k.map Event.act = [a] := by
  have r := single legal
  rw [hnext] at r
  exact ⟨_, r, rfl⟩

/-- The events of two histories, matched in order: events with actions in `A`, and on either side
others that are not in `V` or `V'`. -/
inductive Aligned (A : α → β → Prop) (V : Event σ α → Prop) (V' : Event τ β → Prop) :
    List (Event σ α) → List (Event τ β) → Prop
  | nil : Aligned A V V' [] []
  | left {h : List (Event σ α)} {k : List (Event τ β)} {e : Event σ α} (rest : Aligned A V V' h k)
    (free : ¬ V e) : Aligned A V V' (h ++ [e]) k
  | right {h : List (Event σ α)} {k : List (Event τ β)} {f : Event τ β}
    (rest : Aligned A V V' h k) (free : ¬ V' f) : Aligned A V V' h (k ++ [f])
  | both {h : List (Event σ α)} {k : List (Event τ β)} {e : Event σ α} {f : Event τ β}
    (rest : Aligned A V V' h k) (matched : A e.act f.act) : Aligned A V V' (h ++ [e]) (k ++ [f])

/-- Histories of related actions are aligned. -/
theorem aligned_of_forall₂ {A : α → β → Prop} {V : Event σ α → Prop} {V' : Event τ β → Prop}
    {k : List (Event τ β)} (hA : List.Forall₂ A (h.map Event.act) (k.map Event.act)) :
    Aligned A V V' h k := by
  induction h using List.reverseRecOn generalizing k with
  | nil =>
    obtain rfl : k = [] := by simpa using hA
    exact .nil
  | append_singleton h e ih =>
    rcases List.eq_nil_or_concat k with rfl | ⟨k, f, rfl⟩
    · simp at hA
    · simp only [List.concat_eq_append, List.map_append, List.map_cons, List.map_nil,
        forall₂_concat] at hA ⊢
      exact (ih hA.1).both hA.2

/-- **Unwinding**: a relation between the states of two runs that the events outside `V` keep on
either side, and that pairs of related actions keep, relates the ends of two aligned runs. The
conditions `P` are on the events of each run. -/
theorem unwind {N : Machine τ β} {s' t' : τ} {k : List (Event τ β)} (R : σ → τ → Prop)
    {A : α → β → Prop} {V P : Event σ α → Prop} {V' P' : Event τ β → Prop} (r : Run M s h t)
    (r' : Run N s' k t') (hA : Aligned A V V' h k) (hP : ∀ e ∈ h, P e) (hP' : ∀ e ∈ k, P' e)
    (init : R s s')
    (left : ∀ t t' a, R t t' → P ⟨t, a, M.next t a⟩ → ¬ V ⟨t, a, M.next t a⟩ →
      R (M.next t a) t')
    (right : ∀ t t' b, R t t' → P' ⟨t', b, N.next t' b⟩ → ¬ V' ⟨t', b, N.next t' b⟩ →
      R t (N.next t' b))
    (both : ∀ t t' a b, R t t' → P ⟨t, a, M.next t a⟩ → P' ⟨t', b, N.next t' b⟩ → A a b →
      R (M.next t a) (N.next t' b)) : R t t' := by
  induction hA generalizing t t' with
  | nil =>
    obtain rfl := r.eq_of_nil
    obtain rfl := r'.eq_of_nil
    exact init
  | @left h k e _ free ih =>
    obtain ⟨run, -, hpost, rfl⟩ := r.of_concat
    have hR := ih run r' (fun e he => hP e (List.mem_append_left _ he)) hP'
    obtain ⟨u, a, v⟩ := e
    obtain rfl : v = M.next u a := hpost
    exact left u t' a hR (hP _ (by simp)) free
  | @right h k f _ free ih =>
    obtain ⟨run', -, hpost, rfl⟩ := r'.of_concat
    have hR := ih r run' hP fun e he => hP' e (List.mem_append_left _ he)
    obtain ⟨u, b, v⟩ := f
    obtain rfl : v = N.next u b := hpost
    exact right t u b hR (hP' _ (by simp)) free
  | @both h k e f _ matched ih =>
    obtain ⟨run, -, hpost, rfl⟩ := r.of_concat
    obtain ⟨run', -, hpost', rfl⟩ := r'.of_concat
    have hR := ih run run' (fun e he => hP e (List.mem_append_left _ he)) fun e he =>
      hP' e (List.mem_append_left _ he)
    obtain ⟨u, a, v⟩ := e
    obtain ⟨u', b, v'⟩ := f
    obtain rfl : v = M.next u a := hpost
    obtain rfl : v' = N.next u' b := hpost'
    exact both u u' a b hR (hP _ (by simp)) (hP' _ (by simp)) matched

end Run

/-- A step more. -/
theorem Machine.History.concat {a : α} (H : M.History h t) (legal : M.Legal t a) :
    M.History (h ++ [⟨t, a, M.next t a⟩]) (M.next t a) := by
  obtain ⟨s, init, r⟩ := H
  exact ⟨s, init, r.snoc legal⟩

theorem Machine.History.trans (H : M.History h t) (r : Run M t h₁ u) :
    M.History (h ++ h₁) u := by
  obtain ⟨s, init, r₀⟩ := H
  exact ⟨s, init, r₀.trans r⟩

/-! ## The run of a list of actions -/

/-- The history of a list of actions from a state. -/
def Machine.trace (M : Machine σ α) (s : σ) : List α → List (Event σ α)
  | [] => []
  | a :: as => ⟨s, a, M.next s a⟩ :: M.trace (M.next s a) as

/-- The state a list of actions leads to. -/
def Machine.final (M : Machine σ α) (s : σ) (as : List α) : σ := as.foldl M.next s

theorem Machine.trace_concat (M : Machine σ α) (s : σ) (as : List α) (a : α) :
    M.trace s (as ++ [a]) = M.trace s as ++ [⟨M.final s as, a, M.next (M.final s as) a⟩] := by
  induction as generalizing s with
  | nil => rfl
  | cons b as ih => exact congrArg _ (ih _)

theorem Machine.trace_append (M : Machine σ α) (s : σ) (as as' : List α) :
    M.trace s (as ++ as') = M.trace s as ++ M.trace (M.final s as) as' := by
  induction as generalizing s with
  | nil => rfl
  | cons b as ih => exact congrArg _ (ih _)

theorem Machine.map_act_trace (M : Machine σ α) (s : σ) (as : List α) :
    (M.trace s as).map Event.act = as := by
  induction as generalizing s with
  | nil => rfl
  | cons b as ih => exact congrArg _ (ih _)

/-- The actions of the history of a list of actions are the list. -/
theorem Machine.mem_trace (M : Machine σ α) (s : σ) (as : List α) (a : α) :
    (∃ e ∈ M.trace s as, e.act = a) ↔ a ∈ as := by
  conv_rhs => rw [← M.map_act_trace s as]
  exact List.mem_map.symm

theorem Machine.final_concat (M : Machine σ α) (s : σ) (as : List α) (a : α) :
    M.final s (as ++ [a]) = M.next (M.final s as) a := List.foldl_concat ..

theorem Machine.final_append (M : Machine σ α) (s : σ) (as as' : List α) :
    M.final s (as ++ as') = M.final (M.final s as) as' := List.foldl_append

/-- A list of actions is legal when each is at the state the ones before it lead to. -/
def Machine.LegalFrom (M : Machine σ α) (s : σ) : List α → Prop
  | [] => True
  | a :: as => M.Legal s a ∧ M.LegalFrom (M.next s a) as

theorem Machine.legalFrom_of_forall (M : Machine σ α) (legal : ∀ s a, M.Legal s a) :
    ∀ (as : List α) (s : σ), M.LegalFrom s as
  | [], _ => trivial
  | a :: as, s => ⟨legal s a, M.legalFrom_of_forall legal as (M.next s a)⟩

theorem Run.of_legalFrom : ∀ (as : List α) (s : σ), M.LegalFrom s as →
    Run M s (M.trace s as) (M.final s as)
  | [], _, _ => .nil
  | a :: as, s, ⟨ha, has⟩ => by
    have := (Run.single ha).trans (Run.of_legalFrom as (M.next s a) has)
    exact this

end Flodex
