import Flodex.Foundations.Run
import Mathlib.Algebra.BigOperators.Group.Finset.Basic
import Mathlib.Algebra.BigOperators.Pi
import Mathlib.Algebra.Order.BigOperators.Group.Finset

/-!
# Many accounts in one pool

An escrow holds the money of many accounts in one pool. Money enters the pool for an account,
leaves it from an account, or is given to the pool for nobody. What leaves an account may be paid
to the owner of the pool itself, and then stays in it.

`conserves`: what an account holds and what was released from it is what was put into it.
`solvent`: the pool holds the sum of the accounts, and beyond it exactly the gifts and what was
paid to the pool itself.
-/

namespace Flodex

/-- The accounts and the pool. -/
structure Escrow (ι : Type*) where
  held : ι → ℕ
  pool : ℕ

namespace Escrow

variable {ι : Type*} [DecidableEq ι]

/-- The moves of money. -/
inductive Move (ι : Type*)
  | fund (i : ι) (v : ℕ)
  /-- Release `v` from the account; `kept` of it is paid to the pool itself. -/
  | release (i : ι) (v kept : ℕ)
  | donate (v : ℕ)

/-- What a move puts into an account. -/
def Move.into (i : ι) : Move ι → ℕ
  | .fund j v => if j = i then v else 0
  | _ => 0

/-- What a move releases from an account. -/
def Move.outOf (i : ι) : Move ι → ℕ
  | .release j v _ => if j = i then v else 0
  | _ => 0

/-- What a move leaves in the pool for nobody. -/
def Move.surplus : Move ι → ℕ
  | .fund _ _ => 0
  | .release _ _ kept => kept
  | .donate v => v

/-- The escrow. It starts with empty accounts, and only what an account holds is released. -/
def machine (ι : Type*) [DecidableEq ι] : Machine (Escrow ι) (Move ι) where
  Init s := ∀ i, s.held i = 0
  Legal s
    | .release i v kept => v ≤ s.held i ∧ kept ≤ v
    | _ => True
  next s
    | .fund i v => ⟨Function.update s.held i (s.held i + v), s.pool + v⟩
    | .release i v kept => ⟨Function.update s.held i (s.held i - v), s.pool - (v - kept)⟩
    | .donate v => ⟨s.held, s.pool + v⟩

variable {s t : Escrow ι} {h : List (Event (Escrow ι) (Move ι))}

theorem conserves_step {a : Move ι} (legal : (machine ι).Legal s a) (i : ι) :
    ((machine ι).next s a).held i + a.outOf i = s.held i + a.into i := by
  cases a with
  | fund j v =>
    by_cases hj : j = i
    · subst hj
      simp [machine, Move.outOf, Move.into]
    · simp [machine, Move.outOf, Move.into, hj, Function.update_of_ne (Ne.symm hj)]
  | release j v kept =>
    by_cases hj : j = i
    · subst hj
      have : v ≤ s.held j := legal.1
      simp only [machine, Function.update_self, Move.outOf, Move.into, if_true]
      omega
    · simp [machine, Move.outOf, Move.into, hj, Function.update_of_ne (Ne.symm hj)]
  | donate v => rfl

/-- **Conservation**: what an account holds and what was released from it is what it held and what
was put into it. -/
theorem conserves (r : Run (machine ι) s h t) (i : ι) :
    t.held i + (h.map fun e => e.act.outOf i).sum =
      s.held i + (h.map fun e => e.act.into i).sum := by
  induction r with
  | nil => rfl
  | snoc run legal ih =>
    have := conserves_step legal i
    simp only [List.map_append, List.map_cons, List.map_nil, List.sum_append, List.sum_singleton]
    omega

omit [DecidableEq ι] in
/-- What the moves of a run that simulates another one add up to, event by event. -/
theorem sum_of_simulates {σ α : Type*} {l : List (Event σ α)} {moves : Event σ α → List (Move ι)}
    (hl : h.map Event.act = l.flatMap moves) (f : Move ι → ℕ) :
    (h.map fun e => f e.act).sum = (l.map fun e => ((moves e).map f).sum).sum := by
  rw [← Function.comp_def, ← List.map_map, hl]
  clear hl
  induction l with
  | nil => rfl
  | cons e l ih => simp [ih]

variable [Fintype ι]

/-- The money of all accounts. -/
def total (s : Escrow ι) : ℕ := ∑ i, s.held i

omit [DecidableEq ι] in
theorem held_le_total (s : Escrow ι) (i : ι) : s.held i ≤ s.total :=
  Finset.single_le_sum (f := s.held) (fun _ _ => Nat.zero_le _) (Finset.mem_univ i)

/-- Changing one account changes the total by as much. -/
theorem sum_update_add (f : ι → ℕ) (i : ι) (v : ℕ) :
    ∑ j, Function.update f i v j + f i = ∑ j, f j + v := by
  have h₁ := Finset.sum_update_of_mem (Finset.mem_univ i) f v
  have h₂ := Finset.add_sum_erase Finset.univ f (Finset.mem_univ i)
  rw [Finset.sdiff_singleton_eq_erase] at h₁
  omega

theorem solvent_step {a : Move ι} (legal : (machine ι).Legal s a) {x : ℕ}
    (hs : s.pool = s.total + x) :
    ((machine ι).next s a).pool = ((machine ι).next s a).total + (x + a.surplus) := by
  cases a with
  | fund j v =>
    have := sum_update_add s.held j (s.held j + v)
    simp only [machine, total, Move.surplus] at hs ⊢
    omega
  | release j v kept =>
    obtain ⟨hv, hk⟩ : v ≤ s.held j ∧ kept ≤ v := legal
    have hle := s.held_le_total j
    have := sum_update_add s.held j (s.held j - v)
    simp only [machine, total, Move.surplus] at hs hle ⊢
    omega
  | donate v =>
    simp only [machine, total, Move.surplus] at hs ⊢
    omega

/-- **Solvency**: the pool holds the money of all accounts, and beyond it exactly what it held
beyond it at the start, the gifts and what was paid to the pool itself. -/
theorem solvent (r : Run (machine ι) s h t) {x : ℕ} (hs : s.pool = s.total + x) :
    t.pool = t.total + (x + (h.map fun e => e.act.surplus).sum) := by
  induction r with
  | nil => simpa using hs
  | snoc run legal ih =>
    have := solvent_step legal ih
    simp only [List.map_append, List.map_cons, List.map_nil, List.sum_append, List.sum_singleton]
    omega

end Escrow

end Flodex
