import Flodex.Foundations.Text

/-!
# Decoding bytes that may not be text

The lossy decoder of UTF-8: what is not the encoding of a character is replaced, one replacement
for the longest start of an encoding that the bytes have. `fromUtf8Lossy_utf8` says that text is
decoded as it was, and `fromUtf8Lossy_take` what becomes of text that is cut off after a number of
bytes: the characters that are whole, and one replacement if one is cut.
-/

namespace Flodex.Text

/-- U+FFFD. -/
def replacement : Char := '\ufffd'

/-- A byte after the first one of a character. -/
def isCont (b : UInt8) : Bool := 0x80 ≤ b.toNat ∧ b.toNat ≤ 0xBF

/-- The bounds on the second byte of a character, by its first byte. -/
def secondBounds (b : UInt8) : ℕ × ℕ :=
  if b.toNat = 0xE0 then (0xA0, 0xBF)
  else if b.toNat = 0xED then (0x80, 0x9F)
  else if b.toNat = 0xF0 then (0x90, 0xBF)
  else if b.toNat = 0xF4 then (0x80, 0x8F)
  else (0x80, 0xBF)

def isSecond (b c : UInt8) : Bool :=
  (secondBounds b).1 ≤ c.toNat ∧ c.toNat ≤ (secondBounds b).2

/-- The six bits of a byte after the first one. -/
def bits (b : UInt8) : ℕ := b.toNat % 64

/-- The first character of the bytes, and how many of them after the first one it takes. -/
def nextChar (b : UInt8) (l : List UInt8) : Char × ℕ :=
  if b.toNat < 0x80 then (.ofNat b.toNat, 0)
  else if 0xC2 ≤ b.toNat ∧ b.toNat ≤ 0xDF then
    match l with
    | c :: _ => if isCont c then (.ofNat (b.toNat % 32 * 64 + bits c), 1) else (replacement, 0)
    | [] => (replacement, 0)
  else if 0xE0 ≤ b.toNat ∧ b.toNat ≤ 0xEF then
    match l with
    | c :: l =>
      if isSecond b c then
        match l with
        | d :: _ =>
          if isCont d then (.ofNat (b.toNat % 16 * 4096 + bits c * 64 + bits d), 2)
          else (replacement, 1)
        | [] => (replacement, 1)
      else (replacement, 0)
    | [] => (replacement, 0)
  else if 0xF0 ≤ b.toNat ∧ b.toNat ≤ 0xF4 then
    match l with
    | c :: l =>
      if isSecond b c then
        match l with
        | d :: l =>
          if isCont d then
            match l with
            | e :: _ =>
              if isCont e then
                (.ofNat (b.toNat % 8 * 262144 + bits c * 4096 + bits d * 64 + bits e), 3)
              else (replacement, 2)
            | [] => (replacement, 2)
          else (replacement, 1)
        | [] => (replacement, 1)
      else (replacement, 0)
    | [] => (replacement, 0)
  else (replacement, 0)

/-- `String::from_utf8_lossy`. -/
def fromUtf8Lossy (l : List UInt8) : List Char := go 0 l
where
  /-- The characters after the next `skip` bytes. -/
  go (skip : ℕ) : List UInt8 → List Char
    | [] => []
    | b :: l =>
      match skip with
      | skip + 1 => go skip l
      | 0 => (nextChar b l).1 :: go (nextChar b l).2 l

theorem toNat_ofNat {n : ℕ} (h : n < 256) : (UInt8.ofNat n).toNat = n :=
  UInt8.toNat_ofNat_of_lt' h

/-- The scalar values are the code points without the surrogates. -/
theorem toNat_scalar (c : Char) : c.toNat < 0x110000 ∧ (c.toNat < 0xD800 ∨ 0xE000 ≤ c.toNat) := by
  have hvalid := c.valid
  simp only [UInt32.isValidChar, Nat.isValidChar] at hvalid
  change c.val.toNat < _ ∧ (c.val.toNat < _ ∨ _ ≤ c.val.toNat)
  omega

theorem isCont_low (n : ℕ) : isCont (UInt8.ofNat (n % 64 + 128)) = true := by
  rw [isCont, toNat_ofNat (by omega), decide_eq_true_eq]
  omega

theorem bits_low (n : ℕ) : bits (UInt8.ofNat (n % 64 + 128)) = n % 64 := by
  rw [bits, toNat_ofNat (by omega)]
  omega

theorem nextChar_two {n : ℕ} (hlow : 0x80 ≤ n) (hhigh : n < 0x800) (l : List UInt8) :
    nextChar (UInt8.ofNat (n / 64 % 32 + 192)) (UInt8.ofNat (n % 64 + 128) :: l) =
      (.ofNat n, 1) := by
  have hb : (UInt8.ofNat (n / 64 % 32 + 192)).toNat = n / 64 % 32 + 192 :=
    toNat_ofNat (by omega)
  rw [nextChar.eq_def, if_neg (by omega), if_pos (by omega)]
  dsimp only
  rw [if_pos (isCont_low n), bits_low, hb]
  congr 2
  omega

theorem isSecond_three {n : ℕ} (hlow : 0x800 ≤ n) (hhigh : n < 0x10000)
    (hscalar : n < 0xD800 ∨ 0xE000 ≤ n) :
    isSecond (UInt8.ofNat (n / 4096 % 16 + 224)) (UInt8.ofNat (n / 64 % 64 + 128)) = true := by
  have hb : (UInt8.ofNat (n / 4096 % 16 + 224)).toNat = n / 4096 % 16 + 224 :=
    toNat_ofNat (by omega)
  have hc : (UInt8.ofNat (n / 64 % 64 + 128)).toNat = n / 64 % 64 + 128 :=
    toNat_ofNat (by omega)
  rw [isSecond, secondBounds, hb, hc, decide_eq_true_eq]
  split_ifs <;> dsimp only <;> omega

theorem isSecond_four {n : ℕ} (hlow : 0x10000 ≤ n) (hhigh : n < 0x110000) :
    isSecond (UInt8.ofNat (n / 262144 % 8 + 240)) (UInt8.ofNat (n / 4096 % 64 + 128)) = true := by
  have hb : (UInt8.ofNat (n / 262144 % 8 + 240)).toNat = n / 262144 % 8 + 240 :=
    toNat_ofNat (by omega)
  have hc : (UInt8.ofNat (n / 4096 % 64 + 128)).toNat = n / 4096 % 64 + 128 :=
    toNat_ofNat (by omega)
  rw [isSecond, secondBounds, hb, hc, decide_eq_true_eq]
  split_ifs <;> dsimp only <;> omega

theorem nextChar_three {n : ℕ} (hlow : 0x800 ≤ n) (hhigh : n < 0x10000)
    (hscalar : n < 0xD800 ∨ 0xE000 ≤ n) (l : List UInt8) :
    nextChar (UInt8.ofNat (n / 4096 % 16 + 224))
        (UInt8.ofNat (n / 64 % 64 + 128) :: UInt8.ofNat (n % 64 + 128) :: l) =
      (.ofNat n, 2) := by
  have hb : (UInt8.ofNat (n / 4096 % 16 + 224)).toNat = n / 4096 % 16 + 224 :=
    toNat_ofNat (by omega)
  have hsecond := isSecond_three hlow hhigh hscalar
  rw [nextChar.eq_def, if_neg (by omega), if_neg (by omega), if_pos (by omega)]
  dsimp only
  rw [if_pos hsecond, if_pos (isCont_low n), bits_low, bits_low, hb]
  congr 2
  omega

theorem nextChar_four {n : ℕ} (hlow : 0x10000 ≤ n) (hhigh : n < 0x110000) (l : List UInt8) :
    nextChar (UInt8.ofNat (n / 262144 % 8 + 240))
        (UInt8.ofNat (n / 4096 % 64 + 128) :: UInt8.ofNat (n / 64 % 64 + 128) ::
          UInt8.ofNat (n % 64 + 128) :: l) =
      (.ofNat n, 3) := by
  have hb : (UInt8.ofNat (n / 262144 % 8 + 240)).toNat = n / 262144 % 8 + 240 :=
    toNat_ofNat (by omega)
  have hsecond := isSecond_four hlow hhigh
  rw [nextChar.eq_def, if_neg (by omega), if_neg (by omega), if_neg (by omega), if_pos (by omega)]
  dsimp only
  rw [if_pos hsecond, if_pos (isCont_low _), if_pos (isCont_low n), bits_low, bits_low, bits_low,
    hb]
  congr 2
  omega

/-- The encoding of a character is decoded as the character, whatever follows it. -/
theorem nextChar_utf8 (c : Char) (l : List UInt8) : ∃ b rest, String.utf8EncodeChar c = b :: rest ∧
    nextChar b (rest ++ l) = (c, rest.length) := by
  obtain ⟨hlt, hscalar⟩ := toNat_scalar c
  have hc : Char.ofNat c.toNat = c := Char.ofNat_toNat c
  have hval : c.val.toNat = c.toNat := rfl
  unfold String.utf8EncodeChar
  rw [hval]
  dsimp only
  split_ifs with hone htwo hthree
  · refine ⟨_, _, rfl, ?_⟩
    have hb : (UInt8.ofNat c.toNat).toNat = c.toNat := toNat_ofNat (by omega)
    rw [nextChar.eq_def, hb, if_pos (by omega), hc]
    rfl
  · refine ⟨_, _, rfl, (nextChar_two (by omega) (by omega) l).trans ?_⟩
    rw [hc]
    rfl
  · refine ⟨_, _, rfl, (nextChar_three (by omega) (by omega) hscalar l).trans ?_⟩
    rw [hc]
    rfl
  · refine ⟨_, _, rfl, (nextChar_four (by omega) hlt l).trans ?_⟩
    rw [hc]
    rfl

theorem fromUtf8Lossy_go_append (l l' : List UInt8) :
    fromUtf8Lossy.go l.length (l ++ l') = fromUtf8Lossy.go 0 l' := by
  induction l with
  | nil => rfl
  | cons b l ih => exact ih

theorem nextChar_two_cut {n : ℕ} (hlow : 0x80 ≤ n) (hhigh : n < 0x800) :
    nextChar (UInt8.ofNat (n / 64 % 32 + 192)) [] = (replacement, 0) := by
  have hb : (UInt8.ofNat (n / 64 % 32 + 192)).toNat = n / 64 % 32 + 192 :=
    toNat_ofNat (by omega)
  rw [nextChar.eq_def, if_neg (by omega), if_pos (by omega)]

theorem nextChar_three_cut {n : ℕ} (hlow : 0x800 ≤ n) (hhigh : n < 0x10000)
    (hscalar : n < 0xD800 ∨ 0xE000 ≤ n) {k : ℕ} (hk : k < 2) :
    nextChar (UInt8.ofNat (n / 4096 % 16 + 224))
        ([UInt8.ofNat (n / 64 % 64 + 128), UInt8.ofNat (n % 64 + 128)].take k) =
      (replacement, k) := by
  have hb : (UInt8.ofNat (n / 4096 % 16 + 224)).toNat = n / 4096 % 16 + 224 :=
    toNat_ofNat (by omega)
  have hsecond := isSecond_three hlow hhigh hscalar
  rw [nextChar.eq_def, if_neg (by omega), if_neg (by omega), if_pos (by omega)]
  match k, hk with
  | 0, _ => rfl
  | 1, _ =>
    dsimp only [List.take]
    rw [if_pos hsecond]

theorem nextChar_four_cut {n : ℕ} (hlow : 0x10000 ≤ n) (hhigh : n < 0x110000) {k : ℕ}
    (hk : k < 3) : nextChar (UInt8.ofNat (n / 262144 % 8 + 240))
        ([UInt8.ofNat (n / 4096 % 64 + 128), UInt8.ofNat (n / 64 % 64 + 128),
          UInt8.ofNat (n % 64 + 128)].take k) = (replacement, k) := by
  have hb : (UInt8.ofNat (n / 262144 % 8 + 240)).toNat = n / 262144 % 8 + 240 :=
    toNat_ofNat (by omega)
  have hsecond := isSecond_four hlow hhigh
  rw [nextChar.eq_def, if_neg (by omega), if_neg (by omega), if_neg (by omega), if_pos (by omega)]
  match k, hk with
  | 0, _ => rfl
  | 1, _ =>
    dsimp only [List.take]
    rw [if_pos hsecond]
  | 2, _ =>
    dsimp only [List.take]
    rw [if_pos hsecond, if_pos (isCont_low _)]

/-- A character that is cut off is replaced, all of it that is left. -/
theorem nextChar_cut {c : Char} {b : UInt8} {rest : List UInt8}
    (hc : String.utf8EncodeChar c = b :: rest) {k : ℕ} (hk : k < rest.length) :
    nextChar b (rest.take k) = (replacement, k) := by
  obtain ⟨hlt, hscalar⟩ := toNat_scalar c
  have hval : c.val.toNat = c.toNat := rfl
  unfold String.utf8EncodeChar at hc
  rw [hval] at hc
  dsimp only at hc
  split_ifs at hc with hone htwo hthree
  · obtain ⟨rfl, rfl⟩ := List.cons.inj hc
    cases hk
  · obtain ⟨rfl, rfl⟩ := List.cons.inj hc
    obtain rfl : k = 0 := Nat.lt_one_iff.1 hk
    exact nextChar_two_cut (by omega) (by omega)
  · obtain ⟨rfl, rfl⟩ := List.cons.inj hc
    exact nextChar_three_cut (by omega) (by omega) hscalar hk
  · obtain ⟨rfl, rfl⟩ := List.cons.inj hc
    exact nextChar_four_cut (by omega) hlt hk

theorem fromUtf8Lossy_go_length (l : List UInt8) : fromUtf8Lossy.go l.length l = [] := by
  have happend := fromUtf8Lossy_go_append l []
  rwa [List.append_nil] at happend

theorem utf8_cons {c : Char} {b : UInt8} {rest : List UInt8}
    (hc : String.utf8EncodeChar c = b :: rest) (s : List Char) :
    utf8 (c :: s) = b :: (rest ++ utf8 s) := by
  rw [utf8, List.flatMap_cons, hc]
  rfl

/-- **Text is decoded as it was.** -/
theorem fromUtf8Lossy_utf8 (s : List Char) : fromUtf8Lossy (utf8 s) = s := by
  induction s with
  | nil => rfl
  | cons c s ih =>
    obtain ⟨b, rest, hc, hnext⟩ := nextChar_utf8 c (utf8 s)
    rw [utf8_cons hc, fromUtf8Lossy, fromUtf8Lossy.go, hnext, fromUtf8Lossy_go_append]
    exact congrArg _ ih

/-- The part of a text that is whole among its first bytes, and the rest of it. -/
structure Cut (s : List Char) (n : ℕ) (shown rest : List Char) : Prop where
  eq : s = shown ++ rest
  whole : (utf8 shown).length ≤ n
  longest : ∀ c ∈ rest.head?, n < (utf8 (shown ++ [c])).length

/-- Nothing is left of a text that fits, and only of that. -/
theorem Cut.rest_eq_nil_iff {s shown rest : List Char} {n : ℕ} (cut : Cut s n shown rest) :
    rest = [] ↔ (utf8 s).length ≤ n := by
  have happend : ∀ l l' : List Char, (utf8 (l ++ l')).length = (utf8 l).length + (utf8 l').length :=
    fun l l' => by rw [utf8, List.flatMap_append, List.length_append]; rfl
  constructor
  · rintro rfl
    have hwhole := cut.whole
    rwa [cut.eq, List.append_nil]
  · intro hle
    cases rest with
    | nil => rfl
    | cons c rest =>
      have hlong := cut.longest c rfl
      rw [cut.eq, List.append_cons, happend] at hle
      omega

/-- A character that is cut, after its first byte or later, is replaced as a whole. -/
theorem fromUtf8Lossy_cut {c : Char} {b : UInt8} {enc : List UInt8} {k : ℕ}
    (hc : String.utf8EncodeChar c = b :: enc) (hk : k < enc.length) :
    fromUtf8Lossy (b :: enc.take k) = [replacement] := by
  have hskip : fromUtf8Lossy.go k (enc.take k) = [] := by
    have hgo := fromUtf8Lossy_go_length (enc.take k)
    rwa [List.length_take_of_le hk.le] at hgo
  rw [fromUtf8Lossy, fromUtf8Lossy.go, nextChar_cut hc hk, hskip]

/-- **Text that is cut off**: the whole characters are as they were, and one that is cut is
replaced. -/
theorem fromUtf8Lossy_take (s : List Char) (n : ℕ) : ∃ shown rest, Cut s n shown rest ∧
    fromUtf8Lossy ((utf8 s).take n) =
      shown ++ if (utf8 shown).length < n ∧ rest ≠ [] then [replacement] else [] := by
  induction s generalizing n with
  | nil =>
    refine ⟨[], [], ⟨rfl, Nat.zero_le n, by simp⟩, ?_⟩
    simp [utf8, fromUtf8Lossy, fromUtf8Lossy.go]
  | cons c s ih =>
    obtain ⟨b, enc, hc, -⟩ := nextChar_utf8 c []
    have hlength : ∀ shown, (utf8 (c :: shown)).length = enc.length + 1 + (utf8 shown).length := by
      intro shown
      rw [utf8_cons hc, List.length_cons, List.length_append]
      omega
    rw [utf8_cons hc]
    rcases Nat.lt_or_ge n (enc.length + 1) with hcut | hwhole
    · -- the first character is cut
      refine ⟨[], c :: s, ⟨rfl, Nat.zero_le n, ?_⟩, ?_⟩
      · rintro d hd
        obtain rfl : c = d := Option.some.inj hd
        rw [List.nil_append, hlength]
        exact hcut
      · cases n with
        | zero => rfl
        | succ k =>
          have hk : k < enc.length := by omega
          have htake : (b :: (enc ++ utf8 s)).take (k + 1) = b :: enc.take k := by
            rw [List.take_succ_cons, List.take_append_of_le_length hk.le]
          rw [htake, fromUtf8Lossy_cut hc hk]
          simp [utf8]
    · obtain ⟨shown, rest, hrest, hdecode⟩ := ih (n - (enc.length + 1))
      obtain ⟨b', enc', hc', hnext⟩ := nextChar_utf8 c ((utf8 s).take (n - (enc.length + 1)))
      obtain ⟨rfl, rfl⟩ := List.cons.inj (hc.symm.trans hc')
      have htake : (b :: (enc ++ utf8 s)).take n =
          b :: (enc ++ (utf8 s).take (n - (enc.length + 1))) := by
        rw [← List.cons_append, List.take_append, List.take_of_length_le hwhole, List.length_cons,
          List.cons_append]
      refine ⟨c :: shown, rest, ⟨by rw [hrest.eq, List.cons_append], ?_, ?_⟩, ?_⟩
      · have hle := hrest.whole
        rw [hlength]
        omega
      · intro d hd
        have hlt := hrest.longest d hd
        rw [List.cons_append, hlength]
        omega
      · rw [htake, fromUtf8Lossy, fromUtf8Lossy.go, hnext, fromUtf8Lossy_go_append, hlength]
        have hlt : enc.length + 1 + (utf8 shown).length < n ↔
          (utf8 shown).length < n - (enc.length + 1) := by omega
        simp only [hlt]
        exact congrArg (c :: ·) hdecode

end Flodex.Text
