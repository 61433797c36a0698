import Flodex.Foundations.Run

/-!
# Two machines side by side

`M.couple N C` lets two machines take turns. What an action of the one may do is also up to the
state of the other, by the coupling `C`; what it does is not, so that each sees a run of its own
(`Run.left`, `Run.right`) over the events it took part in.
-/

namespace Flodex

variable {σ τ α β : Type*}

/-- Two machines that take turns. -/
def Machine.couple (M : Machine σ α) (N : Machine τ β) (C : σ × τ → α ⊕ β → Prop) :
    Machine (σ × τ) (α ⊕ β) where
  Init p := M.Init p.1 ∧ N.Init p.2
  Legal p
    | .inl a => M.Legal p.1 a ∧ C p (.inl a)
    | .inr b => N.Legal p.2 b ∧ C p (.inr b)
  next p
    | .inl a => (M.next p.1 a, p.2)
    | .inr b => (p.1, N.next p.2 b)

/-- What the left machine sees of an event. -/
def Event.left? (e : Event (σ × τ) (α ⊕ β)) : Option (Event σ α) :=
  match e.act with
  | .inl a => some ⟨e.pre.1, a, e.post.1⟩
  | .inr _ => none

/-- What the right machine sees of an event. -/
def Event.right? (e : Event (σ × τ) (α ⊕ β)) : Option (Event τ β) :=
  match e.act with
  | .inl _ => none
  | .inr b => some ⟨e.pre.2, b, e.post.2⟩

variable {M : Machine σ α} {N : Machine τ β} {C : σ × τ → α ⊕ β → Prop} {p q : σ × τ}
  {h h₁ h₂ : List (Event (σ × τ) (α ⊕ β))} {e : Event (σ × τ) (α ⊕ β)}

theorem Event.mem_right? {f : Event τ β} (hf : f ∈ h.filterMap Event.right?) :
    ∃ e ∈ h, e.act = .inr f.act ∧ e.pre.2 = f.pre ∧ e.post.2 = f.post := by
  obtain ⟨⟨p, a, q⟩, he, hright⟩ := List.mem_filterMap.1 hf
  cases a with
  | inl a => simp [Event.right?] at hright
  | inr b =>
    obtain rfl := Option.some.inj hright
    exact ⟨_, he, rfl, rfl, rfl⟩

theorem Event.pre_of_right? {f : Event τ β} (hf : e.right? = some f) : e.pre.2 = f.pre := by
  obtain ⟨p, a, q⟩ := e
  cases a with
  | inl a => simp [Event.right?] at hf
  | inr b =>
    obtain rfl := Option.some.inj hf
    rfl

/-- A split of what the right machine sees is a split of the events. -/
theorem Event.split_right? {f : Event τ β} {l₁ l₂ : List (Event τ β)}
    (hh : h.filterMap Event.right? = l₁ ++ f :: l₂) :
    ∃ h₁ e h₂, h = h₁ ++ e :: h₂ ∧ e.right? = some f ∧ h₁.filterMap Event.right? = l₁ ∧
      h₂.filterMap Event.right? = l₂ := by
  obtain ⟨h₁, h', rfl, hl₁, hrest⟩ := List.filterMap_eq_append_iff.1 hh
  obtain ⟨idle, e, h₂, rfl, hidle, he, hl₂⟩ := List.filterMap_eq_cons_iff.1 hrest
  refine ⟨h₁ ++ idle, e, h₂, by simp, he, ?_, hl₂⟩
  rw [List.filterMap_append, hl₁, List.filterMap_eq_nil_iff.2 hidle, List.append_nil]

namespace Run

/-- **The run of the left machine** in a run of the two. -/
theorem left (r : Run (M.couple N C) p h q) : Run M p.1 (h.filterMap Event.left?) q.1 := by
  induction r with
  | nil => exact nil
  | @snoc h q a run legal ih =>
    cases a with
    | inl a =>
      simp only [List.filterMap_append, List.filterMap_cons, Event.left?, List.filterMap_nil]
      exact ih.snoc legal.1
    | inr b =>
      simp only [List.filterMap_append, List.filterMap_cons, Event.left?, List.filterMap_nil,
        List.append_nil]
      exact ih

/-- **The run of the right machine** in a run of the two. -/
theorem right (r : Run (M.couple N C) p h q) : Run N p.2 (h.filterMap Event.right?) q.2 := by
  induction r with
  | nil => exact nil
  | @snoc h q a run legal ih =>
    cases a with
    | inl a =>
      simp only [List.filterMap_append, List.filterMap_cons, Event.right?, List.filterMap_nil,
        List.append_nil]
      exact ih
    | inr b =>
      simp only [List.filterMap_append, List.filterMap_cons, Event.right?, List.filterMap_nil]
      exact ih.snoc legal.1

/-- A run of the left machine, while the right one waits. -/
theorem inl {s t : σ} {k : List (Event σ α)} (r : Run M s k t) (u : τ)
    (hC : ∀ e ∈ k, C (e.pre, u) (.inl e.act)) :
    ∃ h, Run (M.couple N C) (s, u) h (t, u) ∧ h.filterMap Event.right? = [] := by
  induction r with
  | nil => exact ⟨[], nil, rfl⟩
  | @snoc k t a run legal ih =>
    obtain ⟨h, hr, hright⟩ := ih fun e he => hC e (List.mem_append_left _ he)
    have hlast := hC ⟨t, a, M.next t a⟩ (by simp)
    have hlegal : (M.couple N C).Legal (t, u) (.inl a) := ⟨legal, hlast⟩
    refine ⟨_, hr.snoc hlegal, ?_⟩
    simp only [List.filterMap_append, hright, List.filterMap_cons, Event.right?, List.filterMap_nil,
      List.append_nil]

end Run

end Flodex
