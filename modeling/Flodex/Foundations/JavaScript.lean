import Flodex.Foundations.Text
import Mathlib.Data.List.ReduceOption

/-!
# Numbers and byte arrays in JavaScript

What the language does where a program turns text into bytes and numbers: strings are sequences
of UTF-16 code units, `parseInt` reads as many digits as it finds, `BigInt` reads all of a text or
throws, a typed array keeps the low byte of what is stored in it, and a number is a double.

`parseHex_pair` and `bigInt_of_parseUnsigned` say that these agree with stricter readers on what
those accept.
-/

namespace Flodex.Js

open Text

/-! ## Strings -/

/-- The code units of a character. -/
def utf16EncodeChar (c : Char) : List UInt16 :=
  if c.toNat < 0x10000 then [UInt16.ofNat c.toNat]
  else
    [UInt16.ofNat (0xD800 + (c.toNat - 0x10000) / 0x400),
      UInt16.ofNat (0xDC00 + (c.toNat - 0x10000) % 0x400)]

/-- The code units of a string. -/
def utf16 (s : List Char) : List UInt16 := s.flatMap utf16EncodeChar

/-- White space and line terminators. -/
def isWhiteSpace (u : UInt16) : Bool :=
  [9, 10, 11, 12, 13, 32, 0xA0, 0x1680, 0x2028, 0x2029, 0x202F, 0x205F, 0x3000, 0xFEFF].contains
    u.toNat || (0x2000 ≤ u.toNat && u.toNat ≤ 0x200A)

/-- `String.prototype.trimStart`. -/
def trimStart (s : List UInt16) : List UInt16 := s.dropWhile isWhiteSpace

/-- `String.prototype.trim`. -/
def trim (s : List UInt16) : List UInt16 := (trimStart (trimStart s).reverse).reverse

/-- The value of a digit or a letter as a digit. -/
def digitVal (u : UInt16) : Option ℕ :=
  if 48 ≤ u.toNat ∧ u.toNat ≤ 57 then some (u.toNat - 48)
  else if 65 ≤ u.toNat ∧ u.toNat ≤ 90 then some (u.toNat - 55)
  else if 97 ≤ u.toNat ∧ u.toNat ≤ 122 then some (u.toNat - 87)
  else none

/-- The value of a digit in a radix. -/
def digitIn (radix : ℕ) (u : UInt16) : Option ℕ := (digitVal u).filter (· < radix)

/-- The number that digits write. -/
def digitsValue (radix : ℕ) (ds : List ℕ) : ℕ := ds.foldl (fun n d => radix * n + d) 0

/-! ## Numbers -/

/-- The double nearest to an integer below `2 ^ 1023`, which `JSON.parse` reads. -/
def number (n : ℕ) : ℕ :=
  if n < 2 ^ 53 then n
  else
    let e := n.log2 - 52
    let r := n % 2 ^ e
    let q := n / 2 ^ e
    if 2 * r < 2 ^ e ∨ 2 * r = 2 ^ e ∧ q % 2 = 0 then q * 2 ^ e else (q + 1) * 2 ^ e

/-- The sign in front of a number, and what follows it. -/
def sign : List UInt16 → ℤ × List UInt16
  | [] => (1, [])
  | u :: s => if u = 45 then (-1, s) else if u = 43 then (1, s) else (1, u :: s)

/-- Remove one `0x` or `0X` in front. -/
def stripHexPrefix : List UInt16 → List UInt16
  | u :: v :: s => if u = 48 ∧ (v = 120 ∨ v = 88) then s else u :: v :: s
  | s => s

/-- `parseInt(s, 16)`: `none` is `NaN`. -/
def parseHex (s : List UInt16) : Option ℤ :=
  let (sgn, s) := sign (trimStart s)
  match ((stripHexPrefix s).map (digitIn 16)).takeWhile Option.isSome with
  | [] => none
  | ds => some (sgn * digitsValue 16 ds.reduceOption)

/-- The byte a typed array keeps of a number: `NaN` is zero. -/
def toUint8 : Option ℤ → UInt8
  | none => 0
  | some n => UInt8.ofNat (n % 256).toNat

/-- The radix of a literal such as `0xff`, and its digits. -/
def nonDecimal : List UInt16 → Option (ℕ × List UInt16)
  | u :: v :: s =>
    if u ≠ 48 then none
    else if v = 120 ∨ v = 88 then some (16, s)
    else if v = 111 ∨ v = 79 then some (8, s)
    else if v = 98 ∨ v = 66 then some (2, s)
    else none
  | _ => none

/-- One digit or more, and nothing else. -/
def readDigits (radix : ℕ) (s : List UInt16) : Option ℕ :=
  if s = [] then none else (s.mapM (digitIn radix)).map (digitsValue radix)

/-- `BigInt(s)`: `none` is a `SyntaxError`. -/
def bigInt (s : List UInt16) : Option ℤ :=
  match trim s with
  | [] => some 0
  | s =>
    match nonDecimal s with
    | some (radix, ds) => (readDigits radix ds).map (↑·)
    | none =>
      let (sgn, ds) := sign s
      (readDigits 10 ds).map (sgn * ↑·)

/-! ## Byte arrays -/

/-- `new Uint8Array(n)`. -/
def uint8Array (n : ℕ) : List UInt8 := List.replicate n 0

/-- `array.set(bytes, offset)`: `none` is a `RangeError`. -/
def set (array bytes : List UInt8) (offset : ℕ) : Option (List UInt8) :=
  if offset + bytes.length ≤ array.length then
    some (array.take offset ++ bytes ++ array.drop (offset + bytes.length))
  else none

/-! ## What agrees with stricter readers -/

@[simp] theorem utf16_nil : utf16 [] = [] := rfl

theorem utf16_cons_of_ascii {c : Char} (h : c.toNat < 128) (s : List Char) :
    utf16 (c :: s) = UInt16.ofNat c.toNat :: utf16 s := by
  have hc : c.toNat < 0x10000 := by omega
  rw [utf16, List.flatMap_cons, utf16EncodeChar, if_pos hc]
  rfl

theorem utf16_of_ascii {s : List Char} (h : ∀ c ∈ s, c.toNat < 128) :
    utf16 s = s.map fun c => UInt16.ofNat c.toNat := by
  induction s with
  | nil => rfl
  | cons c s ih =>
    rw [utf16_cons_of_ascii (h c (by simp)), ih fun d hd => h d (by simp [hd]), List.map_cons]

theorem trimStart_cons {u : UInt16} (h : isWhiteSpace u = false) (s : List UInt16) :
    trimStart (u :: s) = u :: s := List.dropWhile_cons_of_neg (by simp [h])

theorem trim_eq_self {s : List UInt16} (h : ∀ u ∈ s, isWhiteSpace u = false) : trim s = s := by
  have key : ∀ t : List UInt16, (∀ u ∈ t, isWhiteSpace u = false) → trimStart t = t := by
    intro t ht
    cases t with
    | nil => rfl
    | cons u t => exact trimStart_cons (ht u (by simp)) t
  rw [trim, key s h, key s.reverse (by simpa using h), List.reverse_reverse]

theorem sign_cons {u : UInt16} (h : u ∉ [45, 43]) (s : List UInt16) :
    sign (u :: s) = (1, u :: s) := by
  simp only [List.mem_cons, List.not_mem_nil, or_false, not_or] at h
  rw [sign, if_neg h.1, if_neg h.2]

/-- A hexadecimal digit is one for `parseInt`, and nothing that `parseInt` skips. -/
theorem hexDigit_unit {c : Char} (h : c.toNat < 128) {m : ℕ}
    (hm : hexVal (UInt8.ofNat c.toNat) = some m) :
    digitIn 16 (UInt16.ofNat c.toNat) = some m ∧ isWhiteSpace (UInt16.ofNat c.toNat) = false ∧
      UInt16.ofNat c.toNat ∉ ([45, 43] : List UInt16) ∧
      UInt16.ofNat c.toNat ∉ ([120, 88] : List UInt16) := by
  have key : ∀ n < 128, (hexVal (UInt8.ofNat n)).isSome →
      digitIn 16 (UInt16.ofNat n) = hexVal (UInt8.ofNat n) ∧
        isWhiteSpace (UInt16.ofNat n) = false ∧ UInt16.ofNat n ∉ ([45, 43] : List UInt16) ∧
        UInt16.ofNat n ∉ ([120, 88] : List UInt16) := by decide +kernel
  have := key c.toNat h (by simp [hm])
  rwa [hm] at this

/-- **Two hexadecimal digits** are read as the byte they write. -/
theorem parseHex_pair {c d : Char} (hc : c.toNat < 128) (hd : d.toNat < 128) {m n : ℕ}
    (hm : hexVal (UInt8.ofNat c.toNat) = some m) (hn : hexVal (UInt8.ofNat d.toNat) = some n) :
    toUint8 (parseHex [UInt16.ofNat c.toNat, UInt16.ofNat d.toNat]) =
      UInt8.ofNat (16 * m + n) := by
  obtain ⟨hcv, hcw, hsign, -⟩ := hexDigit_unit hc hm
  obtain ⟨hdv, -, -, hprefix⟩ := hexDigit_unit hd hn
  have hm16 := (hexVal_lt hm).1
  have hn16 := (hexVal_lt hn).1
  simp only [List.mem_cons, List.not_mem_nil, or_false] at hprefix
  have hval : parseHex [UInt16.ofNat c.toNat, UInt16.ofNat d.toNat] =
      some ((16 * m + n : ℕ) : ℤ) := by
    rw [parseHex, trimStart_cons hcw, sign_cons hsign]
    simp [stripHexPrefix, hprefix, hcv, hdv, digitsValue]
  rw [hval]
  simp only [toUint8]
  rw [show ((16 * m + n : ℕ) : ℤ) % 256 = (16 * m + n : ℕ) by omega]
  rfl

theorem isDigit_lt {c : Char} (h : c.isDigit = true) : c.toNat < 128 := by
  have : 48 ≤ c.toNat ∧ c.toNat ≤ 57 := by simpa [Char.isDigit, UInt32.le_iff_toNat_le] using h
  omega

/-- A decimal digit is one for `BigInt`, and nothing else. -/
theorem isDigit_unit {c : Char} (h : c.isDigit = true) :
    digitIn 10 (UInt16.ofNat c.toNat) = some (c.toNat - 48) ∧
      isWhiteSpace (UInt16.ofNat c.toNat) = false ∧
      UInt16.ofNat c.toNat ∉ ([45, 43] : List UInt16) ∧
      UInt16.ofNat c.toNat ∉ ([120, 88, 111, 79, 98, 66] : List UInt16) := by
  have key : ∀ n < 58, 48 ≤ n → digitIn 10 (UInt16.ofNat n) = some (n - 48) ∧
      isWhiteSpace (UInt16.ofNat n) = false ∧ UInt16.ofNat n ∉ ([45, 43] : List UInt16) ∧
      UInt16.ofNat n ∉ ([120, 88, 111, 79, 98, 66] : List UInt16) := by decide +kernel
  have : 48 ≤ c.toNat ∧ c.toNat ≤ 57 := by simpa [Char.isDigit, UInt32.le_iff_toNat_le] using h
  exact key c.toNat (by omega) this.1

/-- The digits of a number below a bound are the digits of a number. -/
theorem mapM_digitIn {bound acc n : ℕ} {ds : List Char}
    (h : ds.foldlM (decStep bound) acc = some n) :
    ∃ vs, (utf16 ds).mapM (digitIn 10) = some vs ∧ vs.foldl (fun n d => 10 * n + d) acc = n ∧
      ∀ c ∈ ds, c.isDigit = true := by
  induction ds generalizing acc with
  | nil => exact ⟨[], rfl, Option.some.inj h, nofun⟩
  | cons c ds ih =>
    rw [List.foldlM_cons, Option.bind_eq_bind, Option.bind_eq_some_iff] at h
    obtain ⟨m, hm, h⟩ := h
    unfold decStep at hm
    split_ifs at hm with hc
    obtain rfl := Option.some.inj hm
    obtain ⟨vs, hvs, hval, hdigits⟩ := ih h
    refine ⟨(c.toNat - 48) :: vs, ?_, hval, by simpa using ⟨hc.1, hdigits⟩⟩
    rw [utf16_cons_of_ascii (isDigit_lt hc.1), List.mapM_cons, (isDigit_unit hc.1).1, hvs]
    rfl

theorem readDigits_of_foldlM {bound n : ℕ} {ds : List Char} (hne : ds ≠ [])
    (h : ds.foldlM (decStep bound) 0 = some n) : readDigits 10 (utf16 ds) = some n := by
  obtain ⟨vs, hvs, hval, hdigits⟩ := mapM_digitIn h
  have hunits : utf16 ds ≠ [] := by
    cases ds with
    | nil => exact absurd rfl hne
    | cons c ds =>
      rw [utf16_cons_of_ascii (isDigit_lt (hdigits c (by simp)))]
      exact List.cons_ne_nil _ _
  rw [readDigits, if_neg hunits, hvs, Option.map_some, digitsValue, hval]

/-- Digits are no literal in another radix. -/
theorem nonDecimal_eq_none {ds : List Char} (h : ∀ c ∈ ds, c.isDigit = true) :
    nonDecimal (utf16 ds) = none := by
  rw [utf16_of_ascii fun c hc => isDigit_lt (h c hc)]
  match ds with
  | [] => rfl
  | [c] => rfl
  | c :: d :: ds =>
    have := (isDigit_unit (h d (by simp))).2.2.2
    simp only [List.mem_cons, List.not_mem_nil, or_false, not_or] at this
    simp [nonDecimal, this]

/-- What `BigInt` reads behind white space, a radix and a sign. -/
theorem bigInt_of_readDigits {s ds : List UInt16} {sgn : ℤ} {n : ℕ} (hne : s ≠ [])
    (hspace : ∀ u ∈ s, isWhiteSpace u = false) (hradix : nonDecimal s = none)
    (hsign : sign s = (sgn, ds)) (hread : readDigits 10 ds = some n) :
    bigInt s = some (sgn * n) := by
  rw [bigInt, trim_eq_self hspace]
  cases s with
  | nil => exact absurd rfl hne
  | cons u s =>
    simp only [hradix, hsign, hread]
    rfl

/-- **A decimal text** that a reader of unsigned numbers accepts is the same number for
`BigInt`. -/
theorem bigInt_of_parseUnsigned {bound n : ℕ} {s : List Char} (h : parseUnsigned bound s = some n) :
    bigInt (utf16 s) = some (n : ℤ) := by
  obtain ⟨ds, hs, hne, hfold⟩ : ∃ ds, (s = '+' :: ds ∨ s = ds) ∧ ds ≠ [] ∧
      ds.foldlM (decStep bound) 0 = some n := by
    simp only [parseUnsigned] at h
    split at h
    · split_ifs at h with hne
      exact ⟨_, .inl rfl, hne, h⟩
    · split_ifs at h with hne
      exact ⟨_, .inr rfl, hne, h⟩
  obtain ⟨vs, -, -, hdigits⟩ := mapM_digitIn hfold
  have hread := readDigits_of_foldlM hne hfold
  have hspace : ∀ u ∈ utf16 ds, isWhiteSpace u = false := by
    intro u hu
    rw [utf16_of_ascii fun c hc => isDigit_lt (hdigits c hc)] at hu
    obtain ⟨c, hc, rfl⟩ := List.mem_map.1 hu
    exact (isDigit_unit (hdigits c hc)).2.1
  obtain ⟨c, ds, rfl⟩ := List.exists_cons_of_ne_nil hne
  have hc := hdigits c (by simp)
  have hcons := utf16_cons_of_ascii (isDigit_lt hc) ds
  rw [← Int.one_mul n]
  rcases hs with rfl | rfl
  · rw [utf16_cons_of_ascii (by decide)]
    refine bigInt_of_readDigits (List.cons_ne_nil _ _) ?_ ?_ rfl hread
    · simpa using ⟨by decide, hspace⟩
    · rw [hcons]
      rfl
  · refine bigInt_of_readDigits (by simp [hcons]) hspace (nonDecimal_eq_none hdigits) ?_ hread
    rw [hcons, sign_cons (isDigit_unit hc).2.2.1]

end Flodex.Js
