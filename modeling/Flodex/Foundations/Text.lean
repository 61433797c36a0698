import Flodex.Foundations.Bytes
import Mathlib.Data.Char

/-!
# Numbers and byte strings as text

The textual forms in which programs exchange byte strings and numbers: hexadecimal with an
optional `0x`, and decimal. Strings are sequences of characters, and the hexadecimal decoder
works on the bytes of their UTF-8 encoding.

`normalize_eq_iff` compares two spellings of a byte string: after lower-casing and removing
the prefix they are the same text exactly when they decode to the same bytes.
-/

namespace Flodex.Text

/-- The bytes of a string. -/
def utf8 (s : List Char) : List UInt8 := s.flatMap String.utf8EncodeChar

/-- Remove one `0x` in front. -/
def stripPrefix : List Char → List Char
  | '0' :: 'x' :: s => s
  | s => s

/-- Remove every `0x` in front. -/
def trimStart : List Char → List Char
  | '0' :: 'x' :: s => trimStart s
  | s => s

/-- The lower case of a string. ASCII characters are lowered by themselves; `fold` is the rest of
the Unicode tables, which may look at the text before and after the character. -/
def toLowercase (fold : List Char → Char → List Char → List Char) (s : List Char) : List Char :=
  go [] s
where
  /-- The lower case of the characters after `before`. -/
  go (before : List Char) : List Char → List Char
    | [] => []
    | c :: s => (if c.toNat < 128 then [c.toLower] else fold before c s) ++ go (before ++ [c]) s

/-- Different texts have different bytes. -/
theorem utf8_injective : Function.Injective utf8 := by
  intro s t h
  have hbytes : s.utf8Encode = t.utf8Encode := congrArg List.toByteArray h
  exact String.ofList_injective (String.toByteArray_inj.1 hbytes)

/-! ## Hexadecimal -/

/-- Why a text is not the hexadecimal form of a byte string. -/
inductive FromHexError
  | invalidHexCharacter (c : UInt8) (index : ℕ)
  | oddLength
  deriving DecidableEq, Repr

/-- The value of a hexadecimal digit. -/
def hexVal (c : UInt8) : Option ℕ :=
  if 65 ≤ c.toNat ∧ c.toNat ≤ 70 then some (c.toNat - 55)
  else if 97 ≤ c.toNat ∧ c.toNat ≤ 102 then some (c.toNat - 87)
  else if 48 ≤ c.toNat ∧ c.toNat ≤ 57 then some (c.toNat - 48)
  else none

/-- Decode the digits from position `i` on, two to a byte. -/
def hexPairs : ℕ → List UInt8 → Except FromHexError (List UInt8)
  | _, [] => .ok []
  | _, [_] => .ok []
  | i, c :: d :: l =>
    match hexVal c with
    | none => .error (.invalidHexCharacter c i)
    | some m =>
      match hexVal d with
      | none => .error (.invalidHexCharacter d (i + 1))
      | some n => (hexPairs (i + 2) l).map (UInt8.ofNat (16 * m + n) :: ·)

/-- Decode a hexadecimal text. -/
def hexDecode (l : List UInt8) : Except FromHexError (List UInt8) :=
  if l.length % 2 = 0 then hexPairs 0 l else .error .oddLength

/-- The hexadecimal digit of a number below 16. -/
def hexDigit (n : ℕ) : Char := n.digitChar

/-- The lower-case hexadecimal text of a byte string. -/
def hexEncode (l : List UInt8) : List Char :=
  l.flatMap fun b => [hexDigit (b.toNat / 16), hexDigit (b.toNat % 16)]

theorem hexVal_lt {c : UInt8} {m : ℕ} (h : hexVal c = some m) : m < 16 ∧ c.toNat < 128 := by
  unfold hexVal at h
  split_ifs at h <;> simp only [Option.some.injEq] at h <;> omega

@[simp] theorem hexVal_hexDigit {m : ℕ} (h : m < 16) :
    hexVal (UInt8.ofNat (hexDigit m).toNat) = some m := by
  revert m
  decide

theorem hexDigit_toNat_lt {m : ℕ} (h : m < 16) : (hexDigit m).toNat < 128 := by
  revert m
  decide

/-- A text that decodes consists of digits, and their values are the digits of the bytes. -/
theorem hexPairs_ok {i : ℕ} {l bs : List UInt8} (hl : l.length % 2 = 0)
    (h : hexPairs i l = .ok bs) : (∀ b ∈ l, (hexVal b).isSome) ∧
      l.map (fun b => hexDigit ((hexVal b).getD 0)) = hexEncode bs := by
  fun_induction hexPairs i l generalizing bs with
  | case1 =>
    obtain rfl : [] = bs := by simpa using h
    exact ⟨by simp, rfl⟩
  | case2 => simp at hl
  | case3 => simp at h
  | case4 => simp at h
  | case5 i c d l m hm n hn ih =>
    cases hp : hexPairs (i + 2) l with
    | error => simp [hp, Except.map] at h
    | ok bs' =>
      have hl' : l.length % 2 = 0 := by
        simp only [List.length_cons] at hl
        omega
      obtain ⟨hall, hmap⟩ := ih hl' hp
      obtain rfl : UInt8.ofNat (16 * m + n) :: bs' = bs := by simpa [hp, Except.map] using h
      have hm16 := (hexVal_lt hm).1
      have hn16 := (hexVal_lt hn).1
      have hbyte : (UInt8.ofNat (16 * m + n)).toNat = 16 * m + n :=
        UInt8.toNat_ofNat_of_lt' (show 16 * m + n < 256 by omega)
      refine ⟨by simpa [hm, hn] using hall, ?_⟩
      rw [List.map_cons, List.map_cons, hmap, hexEncode, hexEncode, List.flatMap_cons, hbyte, hm,
        hn, show (16 * m + n) / 16 = m by omega, show (16 * m + n) % 16 = n by omega]
      rfl

/-- **Round trip**: the hexadecimal text of a byte string decodes to it. -/
theorem hexPairs_hexEncode (i : ℕ) (bs : List UInt8) :
    hexPairs i ((hexEncode bs).map fun c => UInt8.ofNat c.toNat) = .ok bs := by
  induction bs generalizing i with
  | nil => rfl
  | cons b bs ih =>
    have hb := b.toNat_lt
    have hi := ih (i + 2)
    rw [hexEncode] at hi
    simp only [hexEncode, List.flatMap_cons, List.map_cons, List.cons_append, List.nil_append,
      hexPairs, hexVal_hexDigit (show b.toNat / 16 < 16 by omega),
      hexVal_hexDigit (show b.toNat % 16 < 16 by omega), hi]
    rw [show 16 * (b.toNat / 16) + b.toNat % 16 = b.toNat by omega, UInt8.ofNat_toNat]
    rfl

@[simp] theorem length_hexEncode (bs : List UInt8) : (hexEncode bs).length = 2 * bs.length := by
  induction bs with
  | nil => rfl
  | cons b bs ih =>
    simp only [hexEncode, List.flatMap_cons, List.length_append] at ih ⊢
    simp [ih]
    omega

/-! ### The bytes of a hexadecimal text -/

theorem utf8EncodeChar_of_lt {c : Char} (h : c.toNat < 128) :
    String.utf8EncodeChar c = [UInt8.ofNat c.toNat] := by
  have : c.val.toNat ≤ 127 := Nat.le_of_lt_succ h
  simp only [String.utf8EncodeChar, this, if_true]
  rfl

theorem le_of_mem_utf8EncodeChar {c : Char} (h : 128 ≤ c.toNat) :
    ∀ b ∈ String.utf8EncodeChar c, 128 ≤ b.toNat := by
  have h' : ¬ c.val.toNat ≤ 127 := Nat.not_le.2 h
  intro b hb
  simp only [String.utf8EncodeChar, h', if_false] at hb
  split_ifs at hb <;> simp only [List.mem_cons, List.not_mem_nil, or_false] at hb <;>
    rcases hb with rfl | rfl | rfl | rfl <;> simp <;> omega

theorem utf8_of_ascii {s : List Char} (h : ∀ c ∈ s, c.toNat < 128) :
    utf8 s = s.map fun c => UInt8.ofNat c.toNat := by
  induction s with
  | nil => rfl
  | cons c s ih =>
    have hs := ih fun d hd => h d (by simp [hd])
    rw [utf8] at hs
    rw [utf8, List.flatMap_cons, utf8EncodeChar_of_lt (h c (by simp)), hs]
    rfl

/-- The lower case of a hexadecimal digit is the digit of its value. -/
theorem toLower_of_hexVal {c : Char} (h : c.toNat < 128) {m : ℕ}
    (hm : hexVal (UInt8.ofNat c.toNat) = some m) : c.toLower = hexDigit m := by
  have key : ∀ n < 128, ∀ m < 16, hexVal (UInt8.ofNat n) = some m →
      (Char.ofNat n).toLower = hexDigit m := by decide
  have := key c.toNat h m (hexVal_lt hm).1 hm
  rwa [Char.ofNat_toNat] at this

theorem ascii_of_hexDecode {s : List Char} {bs : List UInt8} (h : hexDecode (utf8 s) = .ok bs) :
    ∀ c ∈ s, c.toNat < 128 := by
  unfold hexDecode at h
  split at h
  · rename_i hl
    intro c hc
    by_contra hge
    have hmem : ∀ b ∈ String.utf8EncodeChar c, (hexVal b).isSome := fun b hb =>
      (hexPairs_ok hl h).1 b (List.mem_flatMap.2 ⟨c, hc, hb⟩)
    obtain ⟨b, hb⟩ := List.exists_mem_of_ne_nil _ (String.utf8EncodeChar_ne_nil (c := c))
    obtain ⟨m, hm⟩ := Option.isSome_iff_exists.1 (hmem b hb)
    have := le_of_mem_utf8EncodeChar (Nat.le_of_not_lt hge) b hb
    have := (hexVal_lt hm).2
    omega
  · simp at h

/-- **Lower-casing a hexadecimal text** gives the text the bytes are written as. -/
theorem map_toLower_of_hexDecode {s : List Char} {bs : List UInt8}
    (h : hexDecode (utf8 s) = .ok bs) : s.map Char.toLower = hexEncode bs := by
  have hascii := ascii_of_hexDecode h
  rw [utf8_of_ascii hascii] at h
  unfold hexDecode at h
  split at h
  · rename_i hl
    obtain ⟨hall, hmap⟩ := hexPairs_ok hl h
    rw [← hmap, List.map_map]
    refine List.map_congr_left fun c hc => ?_
    obtain ⟨m, hm⟩ := Option.isSome_iff_exists.1 (hall _ (List.mem_map_of_mem hc))
    rw [toLower_of_hexVal (hascii c hc) hm, Function.comp_apply, hm]
    rfl
  · simp at h

theorem ascii_hexEncode (bs : List UInt8) : ∀ c ∈ hexEncode bs, c.toNat < 128 := by
  intro c hc
  obtain ⟨b, -, hb⟩ := List.mem_flatMap.1 hc
  have := b.toNat_lt
  simp only [List.mem_cons, List.not_mem_nil, or_false] at hb
  rcases hb with rfl | rfl <;> exact hexDigit_toNat_lt (by omega)

/-- **Round trip** on the text itself. -/
theorem hexDecode_hexEncode (bs : List UInt8) : hexDecode (utf8 (hexEncode bs)) = .ok bs := by
  rw [utf8_of_ascii (ascii_hexEncode bs), hexDecode, if_pos (by simp), hexPairs_hexEncode]

theorem hexEncode_injective : Function.Injective hexEncode := fun a b h => by
  have := hexDecode_hexEncode a
  rw [h, hexDecode_hexEncode b] at this
  exact (Except.ok.inj this).symm

/-! ### Two spellings of one byte string -/

theorem toLowercase_of_ascii (fold : List Char → Char → List Char → List Char) {s : List Char}
    (h : ∀ c ∈ s, c.toNat < 128) : toLowercase fold s = s.map Char.toLower := by
  suffices ∀ before, toLowercase.go fold before s = s.map Char.toLower from this []
  induction s with
  | nil => exact fun _ => rfl
  | cons c s ih =>
    intro before
    rw [toLowercase.go, if_pos (h c (by simp)), ih fun d hd => h d (by simp [hd])]
    rfl

theorem trimStart_hexEncode (bs : List UInt8) : trimStart (hexEncode bs) = hexEncode bs := by
  have hx : ∀ c ∈ hexEncode bs, c ≠ 'x' := by
    intro c hc
    obtain ⟨b, -, hb⟩ := List.mem_flatMap.1 hc
    have := b.toNat_lt
    have key : ∀ m < 16, hexDigit m ≠ 'x' := by decide
    simp only [List.mem_cons, List.not_mem_nil, or_false] at hb
    rcases hb with rfl | rfl <;> exact key _ (by omega)
  rw [trimStart.eq_def]
  split
  · rename_i s hs
    exact absurd rfl (hx 'x' (by simp [hs]))
  · rfl

theorem stripPrefix_cases (s : List Char) :
    (∃ t, s = '0' :: 'x' :: t ∧ stripPrefix s = t) ∨ stripPrefix s = s := by
  unfold stripPrefix
  split
  · exact .inl ⟨_, rfl, rfl⟩
  · exact .inr rfl

/-- The normal form of a spelling: lower case, without prefix. -/
def normalize (fold : List Char → Char → List Char → List Char) (s : List Char) : List Char :=
  trimStart (toLowercase fold s)

theorem normalize_of_hexDecode (fold : List Char → Char → List Char → List Char) {s : List Char}
    {bs : List UInt8} (h : hexDecode (utf8 (stripPrefix s)) = .ok bs) :
    normalize fold s = hexEncode bs := by
  have hlow := map_toLower_of_hexDecode h
  have hascii := ascii_of_hexDecode h
  rw [normalize]
  rcases stripPrefix_cases s with ⟨t, rfl, ht⟩ | hs
  · rw [ht] at hlow hascii
    have h0x : ∀ c ∈ '0' :: 'x' :: t, c.toNat < 128 := by
      simpa only [List.forall_mem_cons] using ⟨by decide, by decide, hascii⟩
    rw [toLowercase_of_ascii fold h0x, List.map_cons, List.map_cons, hlow,
      show ('0' : Char).toLower = '0' by decide, show ('x' : Char).toLower = 'x' by decide,
      trimStart, trimStart_hexEncode]
  · rw [hs] at hlow hascii
    rw [toLowercase_of_ascii fold hascii, hlow, trimStart_hexEncode]

/-- **Two spellings agree** exactly when they decode to the same bytes. -/
theorem normalize_eq_iff (fold : List Char → Char → List Char → List Char) {s s' : List Char}
    {bs bs' : List UInt8} (h : hexDecode (utf8 (stripPrefix s)) = .ok bs)
    (h' : hexDecode (utf8 (stripPrefix s')) = .ok bs') :
    normalize fold s = normalize fold s' ↔ bs = bs' := by
  rw [normalize_of_hexDecode fold h, normalize_of_hexDecode fold h', hexEncode_injective.eq_iff]

/-! ## Decimal -/

/-- One digit more of a decimal number below `bound`. -/
def decStep (bound acc : ℕ) (c : Char) : Option ℕ :=
  if c.isDigit ∧ 10 * acc + (c.toNat - 48) < bound then some (10 * acc + (c.toNat - 48)) else none

/-- Parse an unsigned decimal number below `bound`. -/
def parseUnsigned (bound : ℕ) (s : List Char) : Option ℕ :=
  let digits := match s with
    | '+' :: s => s
    | s => s
  if digits = [] then none else digits.foldlM (decStep bound) 0

theorem decStep_bound {bound acc : ℕ} {c : Char} {n : ℕ} (h : decStep bound acc c = some n) :
    n < bound := by
  unfold decStep at h
  split_ifs at h with hc
  obtain rfl := Option.some.inj h
  exact hc.2

theorem foldlM_decStep_eq_some {bound : ℕ} {ds : List Char} {acc n : ℕ} (hds : ds ≠ [])
    (h : ds.foldlM (decStep bound) acc = some n) : n < bound := by
  induction ds generalizing acc with
  | nil => exact absurd rfl hds
  | cons c ds ih =>
    rw [List.foldlM_cons, Option.bind_eq_bind, Option.bind_eq_some_iff] at h
    obtain ⟨m, hm, h⟩ := h
    cases ds with
    | nil =>
      obtain rfl : m = n := by simpa using h
      exact decStep_bound hm
    | cons d ds => exact ih (by simp) h

/-- What parses is below the bound. -/
theorem parseUnsigned_lt {bound : ℕ} {s : List Char} {n : ℕ} (h : parseUnsigned bound s = some n) :
    n < bound := by
  simp only [parseUnsigned] at h
  split_ifs at h with hne
  exact foldlM_decStep_eq_some hne h

theorem foldlM_decStep {bound : ℕ} {ds : List Char} (hds : ∀ c ∈ ds, c.isDigit) (acc : ℕ)
    (hb : Nat.ofDigitChars 10 ds acc < bound) (h10 : 0 < ds.length) :
    ds.foldlM (decStep bound) acc = some (Nat.ofDigitChars 10 ds acc) := by
  induction ds generalizing acc with
  | nil => simp at h10
  | cons c ds ih =>
    have hle : 10 * acc + (c.toNat - 48) ≤ Nat.ofDigitChars 10 (c :: ds) acc := by
      rw [Nat.ofDigitChars_cons, Nat.ofDigitChars_eq_ofDigitChars_zero]
      have : 1 ≤ 10 ^ ds.length := Nat.one_le_pow _ _ (by norm_num)
      have := Nat.mul_le_mul_right (10 * acc + (c.toNat - 48)) this
      have e : ('0' : Char).toNat = 48 := rfl
      rw [e]
      omega
    have hstep : decStep bound acc c = some (10 * acc + (c.toNat - 48)) :=
      if_pos ⟨hds c (by simp), by omega⟩
    rw [List.foldlM_cons, hstep, Option.bind_eq_bind, Option.bind_some]
    cases ds with
    | nil =>
      rw [Nat.ofDigitChars_cons, Nat.ofDigitChars_nil]
      rfl
    | cons d ds =>
      rw [Nat.ofDigitChars_cons] at hb ⊢
      exact ih (fun e he => hds e (by simp [he])) _ hb (by simp)

/-- **Round trip**: a number in its range parses back from its decimal text. -/
theorem parseUnsigned_repr {bound n : ℕ} (h : n < bound) :
    parseUnsigned bound n.repr.toList = some n := by
  have hdigit : ∀ c ∈ Nat.toDigits 10 n, c.isDigit := fun c hc =>
    Nat.isDigit_of_mem_toDigits (by norm_num) (by norm_num) hc
  have hplus : ∀ s, Nat.toDigits 10 n ≠ '+' :: s := fun s hs => by
    have := hdigit '+' (by simp [hs])
    simp at this
  simp only [Nat.toList_repr, parseUnsigned]
  rw [if_neg Nat.toDigits_ne_nil,
    foldlM_decStep hdigit 0 (by rwa [Nat.ofDigitChars_ten_toDigits]) Nat.length_toDigits_pos,
    Nat.ofDigitChars_ten_toDigits]

end Flodex.Text
