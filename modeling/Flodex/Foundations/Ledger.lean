import Mathlib.Algebra.Order.Ring.Nat
import Mathlib.Logic.Function.Basic

/-!
# The ledger of a fungible token

The balances and allowances of a standard ERC-20 token over an arbitrary type of accounts:
transfers move the exact amount or fail, and spend an allowance unless it is the unlimited one.
`Ledger.le_balanceOf_apply` is what an account that never approves a spender relies on: whatever
other accounts ask of the token, its balance does not go down.
-/

namespace Flodex

/-- The balances of a token, and the allowances from an owner to a spender. -/
structure Ledger (A : Type*) where
  balanceOf : A → ℕ
  allowance : A → A → ℕ

namespace Ledger

variable {A : Type*} [DecidableEq A] (l : Ledger A) {src dst a p : A} {v : ℕ}

/-- The allowance that is not spent. -/
def unlimited : ℕ := 2 ^ 256 - 1

/-- Debit `v` from `src` and credit it to `dst`. -/
def move (src dst : A) (v : ℕ) : Ledger A :=
  let debited := Function.update l.balanceOf src (l.balanceOf src - v)
  { l with balanceOf := Function.update debited dst (debited dst + v) }

/-- Transfer `v` from `src` to `dst`, if `src` holds it. -/
def transfer (src dst : A) (v : ℕ) : Option (Ledger A) :=
  if v ≤ l.balanceOf src then some (l.move src dst v) else none

/-- The ledger after `spender` used `v` of what `src` allows it. -/
def spend (spender src : A) (v : ℕ) : Ledger A :=
  if l.allowance src spender = unlimited then l
  else
    let rest := Function.update (l.allowance src) spender (l.allowance src spender - v)
    { l with allowance := Function.update l.allowance src rest }

/-- Transfer `v` from `src` to `dst` on the account of `spender`'s allowance. -/
def transferFrom (spender src dst : A) (v : ℕ) : Option (Ledger A) :=
  if v ≤ l.allowance src spender then (l.spend spender src v).transfer src dst v else none

/-! ## Moves -/

@[simp] theorem move_allowance : (l.move src dst v).allowance = l.allowance := rfl

theorem move_balanceOf_src (h : src ≠ dst) :
    (l.move src dst v).balanceOf src = l.balanceOf src - v := by
  simp [move, Function.update_of_ne h]

theorem move_balanceOf_dst (h : src ≠ dst) :
    (l.move src dst v).balanceOf dst = l.balanceOf dst + v := by
  simp [move, Function.update_of_ne h.symm]

theorem move_balanceOf_of_ne (hs : a ≠ src) (hd : a ≠ dst) :
    (l.move src dst v).balanceOf a = l.balanceOf a := by
  simp [move, Function.update_of_ne hs, Function.update_of_ne hd]

theorem move_self (h : v ≤ l.balanceOf src) : (l.move src src v).balanceOf = l.balanceOf := by
  funext a
  by_cases ha : a = src
  · subst ha
    simp only [move, Function.update_self]
    omega
  · exact l.move_balanceOf_of_ne ha ha

@[simp] theorem move_zero : l.move src dst 0 = l := by
  have : (l.move src dst 0).balanceOf = l.balanceOf := by
    funext a
    by_cases h : src = dst
    · subst h
      exact congrFun (l.move_self (Nat.zero_le _)) a
    · by_cases hd : a = dst
      · subst hd
        exact l.move_balanceOf_dst h
      · by_cases hs : a = src
        · subst hs
          exact l.move_balanceOf_src h
        · exact l.move_balanceOf_of_ne hs hd
  rw [move] at this ⊢
  exact congrArg (Ledger.mk · l.allowance) this

/-- A move never debits any account but its source. -/
theorem le_move_balanceOf (h : a = src → src = dst ∧ v ≤ l.balanceOf src) :
    l.balanceOf a ≤ (l.move src dst v).balanceOf a := by
  by_cases hs : a = src
  · obtain ⟨rfl, hv⟩ := h hs
    exact Nat.le_of_eq (congrFun (l.move_self hv) a).symm
  · by_cases hd : a = dst
    · subst hd
      rw [l.move_balanceOf_dst (Ne.symm hs)]
      omega
    · exact Nat.le_of_eq (l.move_balanceOf_of_ne hs hd).symm

/-! ## Transfers -/

theorem transfer_eq_some {l' : Ledger A} :
    l.transfer src dst v = some l' ↔ v ≤ l.balanceOf src ∧ l' = l.move src dst v := by
  unfold transfer
  split
  · rename_i h
    simp [h, eq_comm]
  · rename_i h
    simp [h]

@[simp] theorem spend_balanceOf (spender : A) :
    (l.spend spender src v).balanceOf = l.balanceOf := by
  unfold spend
  split <;> rfl

theorem spend_allowance_le (spender b : A) :
    (l.spend spender src v).allowance a b ≤ l.allowance a b := by
  unfold spend
  split
  · exact le_rfl
  · by_cases ha : a = src
    · subst ha
      by_cases hb : b = spender
      · subst hb
        simp
      · simp [Function.update_of_ne hb]
    · simp [Function.update_of_ne ha]

theorem transferFrom_eq_some {spender : A} {l' : Ledger A} :
    l.transferFrom spender src dst v = some l' ↔ v ≤ l.allowance src spender ∧
      v ≤ l.balanceOf src ∧ l' = (l.spend spender src v).move src dst v := by
  unfold transferFrom
  split
  · rename_i h
    simp [h, transfer_eq_some]
  · rename_i h
    simp [h]

variable {l} {l' : Ledger A} {spender : A}

theorem balanceOf_src_of_transfer (h : l.transfer src dst v = some l') :
    l'.balanceOf src + v = l.balanceOf src + if dst = src then v else 0 := by
  obtain ⟨hv, rfl⟩ := l.transfer_eq_some.1 h
  by_cases hd : dst = src
  · subst hd
    rw [l.move_self hv, if_pos rfl]
  · rw [l.move_balanceOf_src (Ne.symm hd), if_neg hd]
    omega

theorem balanceOf_of_transfer (h : l.transfer src dst v = some l') (ha : a ≠ src) :
    l'.balanceOf a = l.balanceOf a + if a = dst then v else 0 := by
  obtain ⟨-, rfl⟩ := l.transfer_eq_some.1 h
  by_cases hd : a = dst
  · subst hd
    rw [l.move_balanceOf_dst ha.symm, if_pos rfl]
  · rw [l.move_balanceOf_of_ne ha hd, if_neg hd, Nat.add_zero]

/-- The recipient of a transfer on an allowance gets the amount, unless it is itself the source;
then it allowed the transfer. -/
theorem balanceOf_dst_of_transferFrom (h : l.transferFrom spender src dst v = some l')
    (hd : l.allowance dst spender = 0) : l'.balanceOf dst = l.balanceOf dst + v := by
  obtain ⟨ha, -, rfl⟩ := l.transferFrom_eq_some.1 h
  by_cases hs : src = dst
  · subst hs
    obtain rfl : v = 0 := by omega
    simp
  · rw [move_balanceOf_dst _ hs, spend_balanceOf]

theorem allowance_of_transfer (h : l.transfer src dst v = some l') :
    l'.allowance = l.allowance := by
  obtain ⟨-, rfl⟩ := l.transfer_eq_some.1 h
  rfl

theorem allowance_le_of_transferFrom (h : l.transferFrom spender src dst v = some l') (a b : A) :
    l'.allowance a b ≤ l.allowance a b := by
  obtain ⟨-, -, rfl⟩ := l.transferFrom_eq_some.1 h
  exact l.spend_allowance_le spender b

variable (l)

/-! ## The requests of other accounts -/

/-- A request to the token. -/
inductive Request (A : Type*)
  | transfer (dst : A) (v : ℕ)
  | approve (spender : A) (v : ℕ)
  | transferFrom (src dst : A) (v : ℕ)
  /-- The issuer creates `v` for `dst`. -/
  | mint (dst : A) (v : ℕ)

/-- The ledger after `sender`'s request; a request that fails changes nothing. -/
def apply (sender : A) : Request A → Ledger A
  | .transfer dst v => (l.transfer sender dst v).getD l
  | .approve spender v =>
    let allowed := Function.update (l.allowance sender) spender v
    { l with allowance := Function.update l.allowance sender allowed }
  | .transferFrom src dst v => (l.transferFrom sender src dst v).getD l
  | .mint dst v =>
    { l with balanceOf := Function.update l.balanceOf dst (l.balanceOf dst + v) }

variable {l} {sender : A} {r : Request A}

/-- Nobody else sets the allowances of an account. -/
theorem apply_allowance_eq_zero (hs : sender ≠ p) (hp : ∀ a, l.allowance p a = 0) (a : A) :
    (l.apply sender r).allowance p a = 0 := by
  cases r with
  | transfer dst v =>
    cases h : l.transfer sender dst v with
    | none => simp [apply, h, hp a]
    | some l' =>
      obtain ⟨-, rfl⟩ := (l.transfer_eq_some).1 h
      simp [apply, h, hp a]
  | approve spender v => simp [apply, Function.update_of_ne hs.symm, hp a]
  | transferFrom src dst v =>
    cases h : l.transferFrom sender src dst v with
    | none => simp [apply, h, hp a]
    | some l' =>
      obtain ⟨-, -, rfl⟩ := (l.transferFrom_eq_some).1 h
      have : (l.spend sender src v).allowance p a ≤ l.allowance p a :=
        l.spend_allowance_le sender a
      simp only [apply, h, Option.getD_some, move_allowance]
      have := hp a
      omega
  | mint dst v => exact hp a

/-- **An account that approves no spender keeps its balance**, whatever others request. -/
theorem le_balanceOf_apply (hs : sender ≠ p) (hp : ∀ a, l.allowance p a = 0) :
    l.balanceOf p ≤ (l.apply sender r).balanceOf p := by
  cases r with
  | transfer dst v =>
    cases h : l.transfer sender dst v with
    | none => simp [apply, h]
    | some l' =>
      obtain ⟨-, rfl⟩ := (l.transfer_eq_some).1 h
      simpa [apply, h] using l.le_move_balanceOf fun e => absurd e.symm hs
  | approve => exact le_rfl
  | transferFrom src dst v =>
    cases h : l.transferFrom sender src dst v with
    | none => simp [apply, h]
    | some l' =>
      obtain ⟨ha, -, rfl⟩ := (l.transferFrom_eq_some).1 h
      simp only [apply, h, Option.getD_some]
      by_cases hv : v = 0
      · subst hv
        simp
      · have hne : p ≠ src := by
          rintro rfl
          rw [hp sender] at ha
          omega
        have hle : (l.spend sender src v).balanceOf p ≤
            ((l.spend sender src v).move src dst v).balanceOf p :=
          le_move_balanceOf _ fun e => absurd e hne
        simpa using hle
  | mint dst v =>
    by_cases h : p = dst
    · subst h
      simp [apply]
    · simp [apply, Function.update_of_ne h]

end Ledger

end Flodex
