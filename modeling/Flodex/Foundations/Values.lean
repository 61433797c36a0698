import Mathlib.Data.List.Basic
import Mathlib.Logic.Function.Basic

/-!
# The values of a partial table

`values g n` lists the values of a table of which not all entries below `n` are filled, in order.
The number of values before an entry is its place in the list.
-/

namespace Flodex

open Function

variable {β : Type*} {g : ℕ → Option β} {k n : ℕ} {x : β}

/-- The values of the entries below `n`. -/
def values (g : ℕ → Option β) (n : ℕ) : List β := (List.range n).filterMap g

theorem values_succ (g : ℕ → Option β) (n : ℕ) : values g (n + 1) = values g n ++ (g n).toList := by
  rw [values, List.range_succ, List.filterMap_append, ← values]
  cases h : g n <;> simp [h]

/-- An entry from the bound on does not count. -/
theorem values_update_of_le (h : n ≤ k) (o : Option β) : values (update g k o) n = values g n := by
  refine List.filterMap_congr fun j hj => ?_
  have := List.mem_range.1 hj
  rw [update_of_ne (by omega)]

/-- **The place of an entry** is the number of values before it. -/
theorem getElem?_values (hk : k < n) (hx : g k = some x) :
    (values g n)[(values g k).length]? = some x := by
  induction n with
  | zero => omega
  | succ n ih =>
    rw [values_succ]
    by_cases h : k = n
    · subst h
      simp [hx]
    · have := ih (by omega)
      rw [List.getElem?_append_left (List.getElem?_eq_some_iff.1 this).1]
      exact this

/-- An entry that is filled gets another value. -/
theorem values_update (hk : k < n) (hx : g k = some x) (y : β) :
    values (update g k (some y)) n = (values g n).set (values g k).length y := by
  induction n with
  | zero => omega
  | succ n ih =>
    rw [values_succ, values_succ]
    by_cases h : k = n
    · subst h
      rw [update_self, values_update_of_le (Nat.le_refl _), hx]
      simp
    · have hlt : (values g k).length < (values g n).length :=
        (List.getElem?_eq_some_iff.1 (getElem?_values (by omega) hx)).1
      rw [ih (by omega), update_of_ne (Ne.symm h), List.set_append_left _ _ hlt]

/-- The next entry is filled. -/
theorem values_update_succ (y : β) : values (update g n (some y)) (n + 1) = values g n ++ [y] := by
  rw [values_succ, update_self, values_update_of_le (Nat.le_refl _)]
  rfl

end Flodex
