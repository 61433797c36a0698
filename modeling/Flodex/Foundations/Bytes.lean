import Mathlib.Data.Fintype.Vector
import Mathlib.Data.FinEnum
import Mathlib.Tactic.Ring

/-!
# Byte strings

Byte arrays of a fixed length, and the big-endian encoding of a natural number in a fixed number
of bytes. `beNat_beBytes` is the round trip, and `beBytes_add` splits off the leading zeros of a
number that fits in fewer bytes than the field it is written to. `minBytes` is the encoding in as
few bytes as there are, the one without leading zeros.
-/

namespace Flodex

/-- Byte arrays of length `n`. -/
@[ext] structure Bytes (n : ℕ) where
  toList : List UInt8
  length_toList : toList.length = n
  deriving DecidableEq, Repr

namespace Bytes

attribute [simp] length_toList

variable {n : ℕ}

/-- Byte arrays are the vectors of bytes. -/
def equivVector (n : ℕ) : List.Vector UInt8 n ≃ Bytes n where
  toFun v := ⟨v.1, v.2⟩
  invFun b := ⟨b.toList, b.length_toList⟩
  left_inv _ := rfl
  right_inv _ := rfl

instance (n : ℕ) : Fintype (Bytes n) := Fintype.ofEquiv _ (equivVector n)

/-- The array that holds `b` everywhere. -/
def replicate (n : ℕ) (b : UInt8) : Bytes n := ⟨List.replicate n b, List.length_replicate⟩

/-- The array of a byte string of the right length. -/
def ofList? (n : ℕ) (l : List UInt8) : Option (Bytes n) :=
  if h : l.length = n then some ⟨l, h⟩ else none

theorem ofList?_eq_some {l : List UInt8} {b : Bytes n} : ofList? n l = some b ↔ l = b.toList := by
  unfold ofList?
  split
  · rw [Option.some.injEq, Bytes.ext_iff]
  · rename_i h
    simp only [reduceCtorEq, false_iff]
    rintro rfl
    exact h b.length_toList

@[simp] theorem ofList?_toList (b : Bytes n) : ofList? n b.toList = some b :=
  ofList?_eq_some.2 rfl

end Bytes

/-- The `k` low-order bytes of `n`, most significant first. -/
def beBytes : ℕ → ℕ → List UInt8
  | 0, _ => []
  | k + 1, n => beBytes k (n / 256) ++ [UInt8.ofNat n]

/-- The number a byte string writes, most significant byte first. -/
def beNat (l : List UInt8) : ℕ := l.foldl (fun n b => 256 * n + b.toNat) 0

@[simp] theorem length_beBytes (k n : ℕ) : (beBytes k n).length = k := by
  induction k generalizing n with
  | zero => rfl
  | succ k ih => simp [beBytes, ih]

@[simp] theorem beNat_append_singleton (l : List UInt8) (b : UInt8) :
    beNat (l ++ [b]) = 256 * beNat l + b.toNat := by
  simp [beNat]

theorem beNat_lt (l : List UInt8) : beNat l < 256 ^ l.length := by
  induction l using List.reverseRecOn with
  | nil => simp [beNat]
  | append_singleton l b ih =>
    have hb := b.toNat_lt
    rw [beNat_append_singleton, List.length_append, List.length_singleton, pow_succ']
    omega

/-- **Round trip**: the bytes of `n` write `n`, up to the width of the field. -/
theorem beNat_beBytes (k n : ℕ) : beNat (beBytes k n) = n % 256 ^ k := by
  induction k generalizing n with
  | zero => simp [beBytes, beNat, Nat.mod_one]
  | succ k ih =>
    have byte : (UInt8.ofNat n).toNat = n % 256 := UInt8.toNat_ofNat'
    rw [beBytes, beNat_append_singleton, ih, byte, pow_succ' 256 k, Nat.mod_mul]
    exact Nat.add_comm _ _

theorem beNat_beBytes_of_lt {k n : ℕ} (h : n < 256 ^ k) : beNat (beBytes k n) = n := by
  rw [beNat_beBytes, Nat.mod_eq_of_lt h]

/-- **Round trip** on bytes. -/
theorem beBytes_beNat (l : List UInt8) : beBytes l.length (beNat l) = l := by
  induction l using List.reverseRecOn with
  | nil => rfl
  | append_singleton l b ih =>
    have hb := b.toNat_lt
    have hbyte : UInt8.ofNat (256 * beNat l + b.toNat) = b := by
      apply UInt8.toNat_inj.1
      rw [UInt8.toNat_ofNat', Nat.mul_add_mod, Nat.mod_eq_of_lt hb]
    rw [List.length_append, List.length_singleton, beNat_append_singleton, beBytes, hbyte,
      show (256 * beNat l + b.toNat) / 256 = beNat l by omega, ih]

theorem beBytes_inj {k m n : ℕ} (hm : m < 256 ^ k) (hn : n < 256 ^ k)
    (h : beBytes k m = beBytes k n) : m = n := by
  rw [← beNat_beBytes_of_lt hm, h, beNat_beBytes_of_lt hn]

@[simp] theorem beBytes_zero (k : ℕ) : beBytes k 0 = List.replicate k 0 := by
  induction k with
  | zero => rfl
  | succ k ih =>
    rw [beBytes, Nat.zero_div, ih, List.replicate_succ']
    rfl

/-- A wide field is the field of the high digits and the one of the low digits. -/
theorem beBytes_split (m k n : ℕ) : beBytes (m + k) n = beBytes m (n / 256 ^ k) ++ beBytes k n := by
  induction k generalizing n with
  | zero => simp [beBytes]
  | succ k ih =>
    rw [← Nat.add_assoc, beBytes, ih, beBytes, List.append_assoc, Nat.div_div_eq_div_mul,
      pow_succ']

/-- A number that fits in `k` bytes is written to a wider field behind zeros. -/
theorem beBytes_add (m : ℕ) {k n : ℕ} (h : n < 256 ^ k) :
    beBytes (m + k) n = List.replicate m 0 ++ beBytes k n := by
  rw [beBytes_split, Nat.div_eq_of_lt h, beBytes_zero]

/-- A field that writes `0` in zeros only. -/
theorem any_ne_zero_beBytes {k n : ℕ} (h : n < 256 ^ k) :
    ((beBytes k n).any fun b => b ≠ 0) = false ↔ n = 0 := by
  constructor
  · intro hany
    have hzero : beBytes k n = List.replicate k 0 := by
      refine List.eq_replicate_iff.2 ⟨length_beBytes k n, fun b hb => ?_⟩
      by_contra hne
      simp only [List.any_eq_false, decide_eq_true_eq] at hany
      exact hany b hb hne
    rw [← beBytes_zero] at hzero
    exact beBytes_inj h (Nat.pow_pos (by omega)) hzero
  · rintro rfl
    simp

/-! ## Without leading zeros -/

/-- The bytes of `n`, most significant first, without leading zeros. -/
def minBytes (n : ℕ) : List UInt8 :=
  if n = 0 then [] else minBytes (n / 256) ++ [UInt8.ofNat n]

@[simp] theorem minBytes_zero : minBytes 0 = [] := by
  rw [minBytes, if_pos rfl]

theorem minBytes_of_pos {n : ℕ} (h : 0 < n) :
    minBytes n = minBytes (n / 256) ++ [UInt8.ofNat n] := by
  rw [minBytes, if_neg (Nat.ne_of_gt h)]

@[simp] theorem beNat_minBytes (n : ℕ) : beNat (minBytes n) = n := by
  fun_induction minBytes n with
  | case1 => rfl
  | case2 n hn ih =>
    have byte : (UInt8.ofNat n).toNat = n % 256 := UInt8.toNat_ofNat'
    rw [beNat_append_singleton, ih, byte]
    omega

theorem minBytes_injective : Function.Injective minBytes := by
  intro m n h
  rw [← beNat_minBytes m, h, beNat_minBytes]

/-- The number of bytes of a number. -/
theorem length_minBytes_le {n k : ℕ} (h : n < 256 ^ k) : (minBytes n).length ≤ k := by
  induction k generalizing n with
  | zero =>
    obtain rfl : n = 0 := by simpa using h
    simp
  | succ k ih =>
    rcases Nat.eq_zero_or_pos n with rfl | hn
    · simp
    · have hk : n / 256 < 256 ^ k := Nat.div_lt_of_lt_mul (by rwa [← pow_succ'])
      rw [minBytes_of_pos hn, List.length_append, List.length_singleton]
      exact Nat.succ_le_succ (ih hk)

/-- A number is its bytes without leading zeros. -/
theorem minBytes_beNat {l : List UInt8} (h : l.head? ≠ some 0) : minBytes (beNat l) = l := by
  induction l using List.reverseRecOn with
  | nil => simp [beNat]
  | append_singleton l b ih =>
    rw [beNat_append_singleton]
    have hb := b.toNat_lt
    cases l with
    | nil =>
      have hne : b ≠ 0 := by simpa using h
      have hpos : 0 < b.toNat := Nat.pos_of_ne_zero fun h0 => hne (UInt8.toNat_inj.1 h0)
      rw [minBytes_of_pos (by simpa [beNat] using hpos)]
      simp [beNat, Nat.div_eq_of_lt hb]
    | cons c l =>
      have ih' := ih (by simpa using h)
      have hpos : 0 < beNat (c :: l) := by
        rw [Nat.pos_iff_ne_zero]
        intro h0
        rw [h0, minBytes_zero] at ih'
        simp at ih'
      rw [minBytes_of_pos (by omega),
        show (256 * beNat (c :: l) + b.toNat) / 256 = beNat (c :: l) by omega, ih']
      congr 2
      apply UInt8.toNat_inj.1
      simp

theorem head_minBytes (n : ℕ) : (minBytes n).head? ≠ some 0 := by
  fun_induction minBytes n with
  | case1 => simp
  | case2 n hn ih =>
    cases hl : minBytes (n / 256) with
    | nil =>
      have hsmall : n / 256 = 0 := by rw [← beNat_minBytes (n / 256), hl]; rfl
      have hbyte : (UInt8.ofNat n).toNat = n := UInt8.toNat_ofNat_of_lt' (show n < 256 by omega)
      intro h
      obtain h : UInt8.ofNat n = 0 := by simpa using h
      rw [h] at hbyte
      exact hn hbyte.symm
    | cons b l => simpa [hl] using ih

theorem exists_cons_minBytes {n : ℕ} (h : 0 < n) : ∃ b l, minBytes n = b :: l ∧ b ≠ 0 := by
  have hhead := head_minBytes n
  have hnat := beNat_minBytes n
  cases hl : minBytes n with
  | nil =>
    rw [hl] at hnat
    exact absurd hnat (Nat.ne_of_lt h)
  | cons b l => exact ⟨b, l, rfl, fun hb => hhead (by rw [hl, hb]; rfl)⟩

/-- Leading zeros do not count. -/
theorem beNat_dropWhile (l : List UInt8) : beNat (l.dropWhile (· = 0)) = beNat l := by
  induction l with
  | nil => rfl
  | cons b l ih =>
    by_cases hb : b = 0
    · subst hb
      rw [List.dropWhile_cons_of_pos (by simp), ih]
      rfl
    · rw [List.dropWhile_cons_of_neg (by simpa using hb)]

theorem dropWhile_zeros (l : List UInt8) : l.dropWhile (· = 0) = minBytes (beNat l) := by
  rw [← beNat_dropWhile, minBytes_beNat]
  intro h
  have := List.head?_dropWhile_not (fun b : UInt8 => b = 0) l
  simp [h] at this

/-! ## Fields of a record -/

/-- A field of a record is where the fields before it end. -/
theorem take_drop_field {α : Type*} {a b c : List α} {i k : ℕ} (ha : a.length = i)
    (hb : b.length = k) : ((a ++ (b ++ c)).drop i).take k = b := by
  subst ha hb
  rw [List.drop_left, List.take_left]

end Flodex
