import Mathlib.Data.List.Basic

/-!
# Computations with effects

A computation that acts on its environment, by effects in an order, and is answered by it: what it
does next depends on the history. It ends with a value or with an error, and it can only add to the
history, since what it returns is what it adds.

`bind_cases` takes a run of a sequence apart, and `Only` says which effects a computation has.
-/

namespace Flodex

universe u

/-- A computation with effects `E` and errors `ε`: from the history before it, its result and its
effects. -/
def Traced (E ε : Type*) (α : Type u) := List E → Except ε α × List E

namespace Traced

variable {E ε : Type*} {α β : Type u}

instance : Monad (Traced E ε) where
  pure a := fun _ => (.ok a, [])
  bind x f := fun h =>
    match x h with
    | (.error e, es) => (.error e, es)
    | (.ok a, es) => ((f a (h ++ es)).1, es ++ (f a (h ++ es)).2)

/-- One effect. -/
def perform (e : E) : Traced E ε PUnit.{u + 1} := fun _ => (.ok ⟨⟩, [e])

/-- What the environment answers after a history. -/
def ask (f : List E → Except ε α) : Traced E ε α := fun h => (f h, [])

/-- A computation without effects. -/
def ofExcept (x : Except ε α) : Traced E ε α := fun _ => (x, [])

/-- The end with an error. -/
def fail (e : ε) : Traced E ε α := fun _ => (.error e, [])

/-- `try`, and what is done where it throws. -/
def handle (x : Traced E ε α) (f : ε → Traced E ε α) : Traced E ε α := fun h =>
  match x h with
  | (.ok a, es) => (.ok a, es)
  | (.error e, es) => ((f e (h ++ es)).1, es ++ (f e (h ++ es)).2)

variable {x : Traced E ε α} {f : α → Traced E ε β} {g : ε → Traced E ε α} {h es : List E} {a : α}
  {e : ε} {r : Except ε β}

/-! ## Runs -/

@[simp] theorem pure_apply (a : α) : (pure a : Traced E ε α) h = (.ok a, []) := rfl

@[simp] theorem perform_apply (e : E) : (perform e : Traced E ε PUnit.{u + 1}) h = (.ok ⟨⟩, [e]) :=
  rfl

@[simp] theorem ask_apply (f : List E → Except ε α) : ask f h = (f h, []) := rfl

@[simp] theorem ofExcept_apply (x : Except ε α) : (ofExcept x : Traced E ε α) h = (x, []) := rfl

@[simp] theorem fail_apply (e : ε) : (fail e : Traced E ε α) h = (.error e, []) := rfl

theorem bind_of_ok (hx : x h = (.ok a, es)) :
    (x >>= f) h = ((f a (h ++ es)).1, es ++ (f a (h ++ es)).2) := by
  simp only [bind, hx]

theorem bind_of_error (hx : x h = (.error e, es)) : (x >>= f) h = (.error e, es) := by
  simp only [bind, hx]

theorem handle_of_ok (hx : x h = (.ok a, es)) : handle x g h = (.ok a, es) := by
  simp only [handle, hx]

theorem handle_of_error (hx : x h = (.error e, es)) :
    handle x g h = ((g e (h ++ es)).1, es ++ (g e (h ++ es)).2) := by
  simp only [handle, hx]

/-- What is looked at in the history is there. -/
theorem ask_bind (look : List E → α) :
    ((ask fun h => .ok (look h) : Traced E ε α) >>= f) h = f (look h) h := by
  have hask : (ask fun h => .ok (look h) : Traced E ε α) h = (.ok (look h), []) := rfl
  rw [bind_of_ok hask, List.append_nil]
  rfl

/-- Sequences associate. -/
theorem bind_assoc {γ : Type u} (x : Traced E ε α) (f : α → Traced E ε β) (k : β → Traced E ε γ) :
    (x >>= f) >>= k = x >>= fun a => f a >>= k := by
  funext h
  cases hx : x h with
  | mk r es =>
    cases r with
    | error e => rw [bind_of_error hx, bind_of_error (bind_of_error hx)]
    | ok a =>
      rw [bind_of_ok hx]
      cases hf : f a (h ++ es) with
      | mk r es' =>
        have hxf : (x >>= f) h = (r, es ++ es') := by rw [bind_of_ok hx, hf]
        cases r with
        | error e => rw [bind_of_error hf, bind_of_error hxf]
        | ok b => rw [bind_of_ok hf, bind_of_ok hxf, List.append_assoc, List.append_assoc]

/-- A sequence fails in its first part, or runs both parts. -/
theorem bind_cases (hrun : (x >>= f) h = (r, es)) :
    (∃ e, x h = (.error e, es) ∧ r = .error e) ∨
      ∃ a es₁ es₂, x h = (.ok a, es₁) ∧ f a (h ++ es₁) = (r, es₂) ∧ es = es₁ ++ es₂ := by
  cases hx : x h with
  | mk s es₁ =>
    cases s with
    | error e =>
      rw [bind_of_error hx] at hrun
      obtain ⟨rfl, rfl⟩ := Prod.mk.inj hrun
      exact .inl ⟨e, rfl, rfl⟩
    | ok a =>
      rw [bind_of_ok hx] at hrun
      obtain ⟨rfl, rfl⟩ := Prod.mk.inj hrun
      exact .inr ⟨a, es₁, _, rfl, rfl, rfl⟩

/-- A sequence that succeeds runs both parts. -/
theorem bind_eq_ok {b : β} (hrun : (x >>= f) h = (.ok b, es)) :
    ∃ a es₁ es₂, x h = (.ok a, es₁) ∧ f a (h ++ es₁) = (.ok b, es₂) ∧ es = es₁ ++ es₂ := by
  obtain ⟨e, -, he⟩ | hrun := bind_cases hrun
  · cases he
  · exact hrun

/-- An effect comes first. -/
theorem perform_bind {f : PUnit.{u + 1} → Traced E ε β} {e : E}
    (hrun : ((perform e : Traced E ε PUnit.{u + 1}) >>= f) h = (r, es)) :
    ∃ es', f ⟨⟩ (h ++ [e]) = (r, es') ∧ es = e :: es' := by
  obtain ⟨e, hperform, -⟩ | ⟨⟨⟩, es₁, es₂, hperform, hrest, rfl⟩ := bind_cases hrun
  · cases hperform
  · cases hperform
    exact ⟨es₂, hrest, rfl⟩

/-- A computation under `try` returns, or throws and is handled. -/
theorem handle_cases {r : Except ε α} (hrun : handle x g h = (r, es)) :
    (∃ a, x h = (.ok a, es) ∧ r = .ok a) ∨
      ∃ e es₁ es₂, x h = (.error e, es₁) ∧ g e (h ++ es₁) = (r, es₂) ∧ es = es₁ ++ es₂ := by
  cases hx : x h with
  | mk s es₁ =>
    cases s with
    | error e =>
      rw [handle_of_error hx] at hrun
      obtain ⟨rfl, rfl⟩ := Prod.mk.inj hrun
      exact .inr ⟨e, es₁, _, rfl, rfl, rfl⟩
    | ok a =>
      rw [handle_of_ok hx] at hrun
      obtain ⟨rfl, rfl⟩ := Prod.mk.inj hrun
      exact .inl ⟨a, rfl, rfl⟩

/-! ## The effects of a computation -/

/-- Every effect of the computation satisfies `P`. -/
def Only (P : E → Prop) (x : Traced E ε α) : Prop := ∀ h, ∀ e ∈ (x h).2, P e

variable {P : E → Prop}

theorem Only.pure (a : α) : Only P (pure a : Traced E ε α) := fun _ _ h => by cases h

theorem Only.ofExcept (x : Except ε α) : Only P (ofExcept x : Traced E ε α) :=
  fun _ _ h => by cases h

theorem Only.ask (f : List E → Except ε α) : Only P (ask f) := fun _ _ h => by cases h

theorem Only.perform {e : E} (he : P e) : Only P (perform e : Traced E ε PUnit.{u + 1}) := by
  intro h e' he'
  rw [List.mem_singleton.1 he']
  exact he

theorem Only.bind (hx : Only P x) (hf : ∀ a, Only P (f a)) : Only P (x >>= f) := by
  intro h e he
  cases hrun : x h with
  | mk s es =>
    have hes : ∀ e ∈ es, P e := by
      have := hx h
      rwa [hrun] at this
    cases s with
    | error e' =>
      rw [bind_of_error hrun] at he
      exact hes e he
    | ok a =>
      rw [bind_of_ok hrun] at he
      obtain he | he := List.mem_append.1 he
      · exact hes e he
      · exact hf a _ e he

theorem Only.handle (hx : Only P x) (hg : ∀ e, Only P (g e)) : Only P (x.handle g) := by
  intro h e he
  cases hrun : x h with
  | mk s es =>
    have hes : ∀ e ∈ es, P e := by
      have := hx h
      rwa [hrun] at this
    cases s with
    | ok a =>
      rw [handle_of_ok hrun] at he
      exact hes e he
    | error e' =>
      rw [handle_of_error hrun] at he
      obtain he | he := List.mem_append.1 he
      · exact hes e he
      · exact hg e' _ e he

theorem Only.fail (e : ε) : Only P (fail e : Traced E ε α) := fun _ _ h => by cases h

end Traced

end Flodex
