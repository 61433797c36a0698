import Mathlib.Algebra.Order.Ring.Nat

/-!
# Fallible computations

The guards of a program written in `Except`, and what it means for a sequence of them to
succeed: `bind_eq_ok` and `require_eq_ok` turn the success of a block of guards into the
conjunction of what they check.
-/

namespace Flodex

universe u

variable {ε : Type*} {α β : Type u}

/-- Fail with `e` unless `p` holds. -/
def require (p : Prop) [Decidable p] (e : ε) : Except ε Unit := if p then .ok () else .error e

/-- The value of an option, or the error `e`. -/
def orThrow (o : Option α) (e : ε) : Except ε α := o.elim (.error e) .ok

/-- The sum of two unsigned numbers of `w` bits, or the error `e` when it does not fit. -/
def checkedAdd (w a b : ℕ) (e : ε) : Except ε ℕ := if a + b < 2 ^ w then .ok (a + b) else .error e

/-- The difference of two unsigned numbers, or the error `e` when it is negative. -/
def checkedSub (a b : ℕ) (e : ε) : Except ε ℕ := if b ≤ a then .ok (a - b) else .error e

/-- The product of two unsigned numbers of `w` bits, or the error `e` when it does not fit. -/
def checkedMul (w a b : ℕ) (e : ε) : Except ε ℕ := if a * b < 2 ^ w then .ok (a * b) else .error e

/-- The sum of two unsigned numbers of `w` bits, or the largest one when it does not fit. -/
def saturatingAdd (w a b : ℕ) : ℕ := min (a + b) (2 ^ w - 1)

/-- The product of two unsigned numbers of `w` bits, or the largest one when it does not fit. -/
def saturatingMul (w a b : ℕ) : ℕ := min (a * b) (2 ^ w - 1)

@[simp] theorem bind_eq_ok {x : Except ε α} {f : α → Except ε β} {b : β} :
    x >>= f = .ok b ↔ ∃ a, x = .ok a ∧ f a = .ok b := by
  cases x with
  | error e => simp [bind, Except.bind]
  | ok a => simp [bind, Except.bind]

@[simp] theorem pure_eq_ok {a b : α} : (pure a : Except ε α) = .ok b ↔ a = b := by
  simp [pure, Except.pure]

@[simp] theorem require_eq_ok {p : Prop} [Decidable p] {e : ε} {u : Unit} :
    require p e = .ok u ↔ p := by
  by_cases h : p <;> simp [require, h]

@[simp] theorem orThrow_eq_ok {o : Option α} {e : ε} {a : α} :
    orThrow o e = .ok a ↔ o = some a := by
  cases o <;> simp [orThrow]

@[simp] theorem mapError_eq_ok {δ : Type*} {x : Except ε α} {f : ε → δ} {a : α} :
    x.mapError f = .ok a ↔ x = .ok a := by
  cases x <;> simp [Except.mapError]

@[simp] theorem checkedAdd_eq_ok {w a b c : ℕ} {e : ε} :
    checkedAdd w a b e = .ok c ↔ a + b < 2 ^ w ∧ a + b = c := by
  by_cases h : a + b < 2 ^ w <;> simp [checkedAdd, h]

@[simp] theorem checkedMul_eq_ok {w a b c : ℕ} {e : ε} :
    checkedMul w a b e = .ok c ↔ a * b < 2 ^ w ∧ a * b = c := by
  by_cases h : a * b < 2 ^ w <;> simp [checkedMul, h]

@[simp] theorem checkedSub_eq_ok {a b c : ℕ} {e : ε} :
    checkedSub a b e = .ok c ↔ b ≤ a ∧ a - b = c := by
  by_cases h : b ≤ a <;> simp [checkedSub, h]

/-! ## Failures -/

/-- A computation fails, if it does, with an error that satisfies `P`. -/
def FailsWith (P : ε → Prop) (x : Except ε α) : Prop := ∀ e, x = .error e → P e

namespace FailsWith

variable {P : ε → Prop} {x : Except ε α} {f : α → Except ε β} {e : ε}

theorem of_ok {a : α} (h : x = .ok a) : FailsWith P x := by
  intro e he
  rw [h] at he
  cases he

theorem error (h : P e) : FailsWith P (.error e : Except ε α) := fun _ he =>
  Except.error.inj he ▸ h

theorem pure (a : α) : FailsWith P (Pure.pure a : Except ε α) := of_ok rfl

theorem bind (hx : FailsWith P x) (hf : ∀ a, x = .ok a → FailsWith P (f a)) :
    FailsWith P (x >>= f) := by
  intro e he
  cases x with
  | error e' =>
    obtain rfl : e' = e := by simpa [Bind.bind, Except.bind] using he
    exact hx _ rfl
  | ok a => exact hf a rfl e he

theorem require {p : Prop} [Decidable p] (h : ¬ p → P e) : FailsWith P (require p e) := by
  intro e' he
  by_cases hp : p
  · simp [Flodex.require, hp] at he
  · obtain rfl : e = e' := by simpa [Flodex.require, hp] using he
    exact h hp

theorem orThrow {o : Option α} (h : o = none → P e) : FailsWith P (orThrow o e) := by
  intro e' he
  cases o with
  | none =>
    obtain rfl : e = e' := by simpa [Flodex.orThrow] using he
    exact h rfl
  | some a => simp [Flodex.orThrow] at he

theorem mapError {δ : Type*} {g : δ → ε} {y : Except δ α} (h : ∀ e, y = .error e → P (g e)) :
    FailsWith P (y.mapError g) := by
  intro e' he
  cases y with
  | error e =>
    obtain rfl : g e = e' := by simpa [Except.mapError] using he
    exact h e rfl
  | ok a => simp [Except.mapError] at he

theorem checkedSub {a b : ℕ} (h : a < b → P e) : FailsWith P (checkedSub a b e) := by
  intro e' he
  by_cases hle : b ≤ a
  · simp [Flodex.checkedSub, hle] at he
  · obtain rfl : e = e' := by simpa [Flodex.checkedSub, hle] using he
    exact h (Nat.lt_of_not_le hle)

end FailsWith

theorem saturatingAdd_lt (w a b : ℕ) : saturatingAdd w a b < 2 ^ w := by
  have := Nat.two_pow_pos w
  unfold saturatingAdd
  omega

theorem saturatingAdd_of_lt {w a b : ℕ} (h : a + b < 2 ^ w) : saturatingAdd w a b = a + b := by
  unfold saturatingAdd
  omega

end Flodex
