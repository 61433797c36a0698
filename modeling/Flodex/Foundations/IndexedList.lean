import Mathlib.Data.List.Basic
import Mathlib.Data.List.Nodup
import Mathlib.Logic.Function.Basic

/-!
# A list with the position of each element

A list of distinct elements next to a table of their positions, counted from one, with `0` for
what is not in the list. `Indexes.concat` and `Indexes.remove` are the two ways in which it
changes: an element is added at the end, or the last element moves into the place of the one that
is removed.
-/

namespace Flodex

open Function

variable {α : Type*} [DecidableEq α] {index : α → ℕ} {l : List α} {a b : α} {i : ℕ}

/-- The table has the position of every element of the list, and `0` for everything else. -/
def Indexes (index : α → ℕ) (l : List α) : Prop := ∀ a i, index a = i + 1 ↔ l[i]? = some a

namespace Indexes

omit [DecidableEq α] in
theorem nil : Indexes (fun _ : α => 0) [] := by
  intro a i
  simp

omit [DecidableEq α] in
theorem mem_iff (h : Indexes index l) : a ∈ l ↔ index a ≠ 0 := by
  rw [List.mem_iff_getElem?]
  constructor
  · rintro ⟨i, hi⟩
    rw [(h a i).2 hi]
    exact Nat.succ_ne_zero i
  · intro hne
    obtain ⟨i, hi⟩ := Nat.exists_eq_succ_of_ne_zero hne
    exact ⟨i, (h a i).1 hi⟩

omit [DecidableEq α] in
theorem eq_zero_iff (h : Indexes index l) : index a = 0 ↔ a ∉ l := by
  rw [h.mem_iff, not_not]

omit [DecidableEq α] in
/-- An indexed list has no duplicates: an element has one position. -/
theorem nodup (h : Indexes index l) : l.Nodup := by
  rw [List.nodup_iff_injective_get]
  intro i j hij
  have hi := (h (l.get i) i).2 (by simp)
  have hj := (h (l.get i) j).2 (by rw [hij]; simp)
  exact Fin.ext (by omega)

omit [DecidableEq α] in
theorem lt_length (h : Indexes index l) (ha : index a = i + 1) : i < l.length :=
  (List.getElem?_eq_some_iff.1 ((h a i).1 ha)).1

/-- **An element is added** at the end. -/
theorem concat (h : Indexes index l) (ha : index a = 0) :
    Indexes (update index a (l.length + 1)) (l ++ [a]) := by
  have hmem := h.eq_zero_iff.1 ha
  intro b i
  by_cases hb : b = a
  · subst hb
    rw [update_self]
    constructor
    · intro hi
      obtain rfl : i = l.length := by omega
      simp
    · intro hi
      obtain ⟨hlt, hget⟩ := List.getElem?_eq_some_iff.1 hi
      rcases Nat.lt_or_ge i l.length with hl | hl
      · rw [List.getElem_append_left hl] at hget
        exact absurd (hget ▸ List.getElem_mem hl) hmem
      · simp only [List.length_append, List.length_singleton] at hlt
        omega
  · rw [update_of_ne hb, h b i]
    rcases Nat.lt_trichotomy i l.length with hl | rfl | hl
    · rw [List.getElem?_append_left hl]
    · simp [Ne.symm hb]
    · rw [List.getElem?_eq_none (Nat.le_of_lt hl), List.getElem?_eq_none (by simp; omega)]

/-- The last element is in the place after it. -/
theorem remove_last (h : Indexes index (l ++ [a])) : Indexes (update index a 0) l := by
  have hlen : index a = l.length + 1 := (h a l.length).2 (by simp)
  intro b i
  by_cases hb : b = a
  · subst hb
    rw [update_self]
    constructor
    · intro hi
      omega
    · intro hi
      have hlt := (List.getElem?_eq_some_iff.1 hi).1
      have := (h b i).2 (by rw [List.getElem?_append_left hlt, hi])
      omega
  · rw [update_of_ne hb, h b i]
    rcases Nat.lt_trichotomy i l.length with hl | rfl | hl
    · rw [List.getElem?_append_left hl]
    · simp [Ne.symm hb]
    · rw [List.getElem?_eq_none (by simp; omega), List.getElem?_eq_none (Nat.le_of_lt hl)]

/-- An element of the list makes room for the last one. -/
theorem remove_swap (h : Indexes index (l ++ [b])) (ha : index a = i + 1) (hi : i < l.length) :
    Indexes (update (update index b (i + 1)) a 0) (l.set i b) := by
  have hget : l[i]? = some a := by rw [← List.getElem?_append_left hi, ← h a i, ha]
  have hb : index b = l.length + 1 := (h b l.length).2 (by simp)
  have hne : a ≠ b := by
    rintro rfl
    omega
  intro c j
  rw [List.getElem?_set]
  by_cases hca : c = a
  · subst hca
    rw [update_self]
    constructor
    · intro hj
      omega
    · split
      · rename_i hij
        subst hij
        simp [Ne.symm hne]
      · rename_i hij
        intro hj
        have hlt := (List.getElem?_eq_some_iff.1 hj).1
        have := (h c j).2 (by rw [List.getElem?_append_left hlt, hj])
        omega
  · rw [update_of_ne hca]
    by_cases hcb : c = b
    · subst hcb
      rw [update_self]
      split
      · rename_i hij
        subst hij
        simp
      · rename_i hij
        constructor
        · intro hj
          omega
        · intro hj
          have hlt := (List.getElem?_eq_some_iff.1 hj).1
          have := (h c j).2 (by rw [List.getElem?_append_left hlt, hj])
          omega
    · rw [update_of_ne hcb, h c j]
      split
      · rename_i hij
        subst hij
        rw [List.getElem?_append_left hi, hget]
        simp [Ne.symm hca, Ne.symm hcb]
      · rcases Nat.lt_trichotomy j l.length with hl | rfl | hl
        · rw [List.getElem?_append_left hl]
        · simp [Ne.symm hcb]
        · rw [List.getElem?_eq_none (by simp; omega), List.getElem?_eq_none (Nat.le_of_lt hl)]

omit [DecidableEq α] in
/-- What is in the list after a removal. -/
theorem mem_removed {index' : α → ℕ} {l' : List α} (h : Indexes index l) (h' : Indexes index' l')
    (hidx : ∀ b, index' b = 0 ↔ b = a ∨ index b = 0) (b : α) : b ∈ l' ↔ b ∈ l ∧ b ≠ a := by
  rw [h'.mem_iff, h.mem_iff, ne_eq, hidx, not_or, and_comm]

end Indexes

end Flodex
