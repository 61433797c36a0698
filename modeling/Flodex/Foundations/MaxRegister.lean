import Flodex.Foundations.Run

/-!
# A register that keeps the highest version

A register holds a version and a value, and takes an offer exactly when its version is above the
one it holds. `highest`: when there is one value to each version, the register ends with the
highest version that was offered, in whatever order and however often the offers were made.
-/

namespace Flodex.MaxRegister

variable {κ β : Type*} [LinearOrder κ] {x y z : κ × β} {S : Set (κ × β)}

/-- What the register holds after an offer. -/
def offer (x y : κ × β) : κ × β := if x.1 < y.1 then y else x

/-- The register. -/
def machine (κ β : Type*) [LinearOrder κ] : Machine (κ × β) (κ × β) where
  Init _ := True
  Legal _ _ := True
  next := offer

/-- There is one value to each version. -/
def Unique (S : Set (κ × β)) : Prop := ∀ x ∈ S, ∀ y ∈ S, x.1 = y.1 → x = y

/-- Every other element has a lower version. -/
structure IsHighest (S : Set (κ × β)) (x : κ × β) : Prop where
  mem : x ∈ S
  above : ∀ y ∈ S, y ≠ x → y.1 < x.1

theorem IsHighest.unique (hx : IsHighest S x) (hy : IsHighest S y) : x = y := by
  by_contra hne
  exact lt_asymm (hx.above y hy.mem (Ne.symm hne)) (hy.above x hx.mem hne)

theorem le_offer_left (x y : κ × β) : x.1 ≤ (offer x y).1 := by
  unfold offer
  split
  · rename_i h
    exact h.le
  · exact le_rfl

theorem le_offer_right (x y : κ × β) : y.1 ≤ (offer x y).1 := by
  unfold offer
  split
  · exact le_rfl
  · rename_i h
    exact not_lt.1 h

theorem offer_mem (hx : x ∈ S) (hy : y ∈ S) : offer x y ∈ S := by
  unfold offer
  split
  · exact hy
  · exact hx

variable {h : List (Event (κ × β) (κ × β))}

theorem mem_of_run (r : Run (machine κ β) x h y) (hx : x ∈ S) (hS : ∀ e ∈ h, e.act ∈ S) :
    y ∈ S :=
  r.invariantHistory (fun _ y => y ∈ S) (fun _ e => e.act ∈ S) (along_of_forall hS) hx
    fun _ _ _ _ hy _ ha => offer_mem hy ha

theorem le_of_run (r : Run (machine κ β) x h y) : ∀ e ∈ h, e.act.1 ≤ y.1 := by
  refine r.invariantHistory (fun h y => ∀ e ∈ h, e.act.1 ≤ y.1) (fun _ _ => True)
    (fun _ _ _ _ => trivial) (by simp) fun h y z _ ih _ _ e he => ?_
  rcases List.mem_append.1 he with he | he
  · exact (ih e he).trans (le_offer_left y z)
  · obtain rfl := List.mem_singleton.1 he
    exact le_offer_right y z

/-- **The highest version wins**, in every order of the offers. -/
theorem highest (r : Run (machine κ β) x h y) (unique : Unique S) (hx : x ∈ S)
    (hS : ∀ e ∈ h, e.act ∈ S) (hall : ∀ z ∈ S, ∃ e ∈ h, e.act = z) : IsHighest S y := by
  have hy := mem_of_run r hx hS
  refine ⟨hy, fun z hz hne => ?_⟩
  obtain ⟨e, he, rfl⟩ := hall z hz
  have hle := le_of_run r e he
  exact lt_of_le_of_ne hle fun heq => hne (unique _ hz _ hy heq)

end Flodex.MaxRegister
