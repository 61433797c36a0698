import Flodex.Foundations.Text

/-!
# Compact JSON

The text that a serializer writes for strings, numbers, arrays and objects: no white space, the
fields of an object in the order given, and in strings an escape for quotes, backslashes and
control characters.

`Tree.write` puts these together for a whole document. It is unambiguous: `Tree.readable` takes a
document and what follows it apart again, by induction on the document, and `write_injective` is
the case of a text that is one document.
-/

namespace Flodex.Json

open Text

/-- A character of a string. -/
def escape (c : Char) : List Char :=
  match c.toNat with
  | 8 => "\\b".toList
  | 9 => "\\t".toList
  | 10 => "\\n".toList
  | 12 => "\\f".toList
  | 13 => "\\r".toList
  | 34 => "\\\"".toList
  | 92 => "\\\\".toList
  | n => if n < 32 then "\\u00".toList ++ [hexDigit (n / 16), hexDigit (n % 16)] else [c]

def string (s : String) : List Char := "\"".toList ++ s.toList.flatMap escape ++ "\"".toList

def number (n : ℕ) : List Char := n.repr.toList

def array (items : List (List Char)) : List Char :=
  "[".toList ++ List.intercalate ",".toList items ++ "]".toList

/-- An object, from the keys and the texts of its fields. -/
def object (fields : List (String × List Char)) : List Char :=
  "\x7b".toList ++
    List.intercalate ",".toList (fields.map fun f => string f.1 ++ ":".toList ++ f.2) ++
    "\x7d".toList

/-! ## Documents -/

/-- A document, as a serializer walks through it. -/
inductive Tree
  | string (s : String)
  | number (n : ℕ)
  | array (items : List Tree)
  | object (fields : List (String × Tree))

mutual

/-- The text of a document. -/
def Tree.write : Tree → List Char
  | .string s => Json.string s
  | .number n => Json.number n
  | .array items => Json.array (writeItems items)
  | .object fields => Json.object (writeFields fields)

def writeItems : List Tree → List (List Char)
  | [] => []
  | t :: items => t.write :: writeItems items

def writeFields : List (String × Tree) → List (String × List Char)
  | [] => []
  | (key, t) :: fields => (key, t.write) :: writeFields fields

end

theorem writeItems_eq (items : List Tree) : writeItems items = items.map Tree.write := by
  induction items with
  | nil => rfl
  | cons t items ih => rw [writeItems, ih, List.map_cons]

theorem writeFields_eq (fields : List (String × Tree)) :
    writeFields fields = fields.map fun f => (f.1, f.2.write) := by
  induction fields with
  | nil => rfl
  | cons f fields ih => rw [writeFields, ih, List.map_cons]

/-! ## Strings are read back -/

/-- Read one character of a string. -/
def unescape : List Char → Option (Char × List Char)
  | '"' :: _ => none
  | '\\' :: 'b' :: s => some (Char.ofNat 8, s)
  | '\\' :: 't' :: s => some (Char.ofNat 9, s)
  | '\\' :: 'n' :: s => some (Char.ofNat 10, s)
  | '\\' :: 'f' :: s => some (Char.ofNat 12, s)
  | '\\' :: 'r' :: s => some (Char.ofNat 13, s)
  | '\\' :: 'u' :: _ :: _ :: c :: d :: s =>
    match hexVal (UInt8.ofNat c.toNat), hexVal (UInt8.ofNat d.toNat) with
    | some m, some n => some (Char.ofNat (16 * m + n), s)
    | _, _ => none
  | '\\' :: c :: s => some (c, s)
  | c :: s => some (c, s)
  | [] => none

theorem unescape_plain {c : Char} (hquote : c ≠ '"') (hback : c ≠ '\\') (s : List Char) :
    unescape (c :: s) = some (c, s) := by
  rw [unescape.eq_def]
  split <;> grind

theorem unescape_escape (c : Char) (s : List Char) : unescape (escape c ++ s) = some (c, s) := by
  have hc := Char.ofNat_toNat c
  -- the short escapes are read by their letters
  have short : ∀ n, c.toNat = n → c = Char.ofNat n := by
    rintro n rfl
    exact hc.symm
  unfold escape
  split
  case h_1 h => rw [short 8 h]; rfl
  case h_2 h => rw [short 9 h]; rfl
  case h_3 h => rw [short 10 h]; rfl
  case h_4 h => rw [short 12 h]; rfl
  case h_5 h => rw [short 13 h]; rfl
  case h_6 h => rw [short 34 h]; rfl
  case h_7 h => rw [short 92 h]; rfl
  case h_8 h34 h92 =>
    split_ifs with hlt
    · have hhi : c.toNat / 16 < 16 := by omega
      have hlo : c.toNat % 16 < 16 := by omega
      change unescape ('\\' :: 'u' :: '0' :: '0' :: hexDigit (c.toNat / 16) ::
        hexDigit (c.toNat % 16) :: s) = _
      simp only [unescape, hexVal_hexDigit hhi, hexVal_hexDigit hlo]
      rw [show 16 * (c.toNat / 16) + c.toNat % 16 = c.toNat by omega, hc]
    · have hquote : c ≠ '"' := by
        rintro rfl
        exact h34 rfl
      have hback : c ≠ '\\' := by
        rintro rfl
        exact h92 rfl
      exact unescape_plain hquote hback s

theorem escape_inj {c d : Char} {s t : List Char} (h : escape c ++ s = escape d ++ t) :
    c = d ∧ s = t := by
  have := congrArg unescape h
  rw [unescape_escape, unescape_escape] at this
  simpa using this

/-- No character is written as a quote. -/
theorem escape_ne_quote (c : Char) (s t : List Char) : escape c ++ s ≠ '"' :: t := by
  intro h
  have := congrArg unescape h
  rw [unescape_escape] at this
  simp [unescape] at this

theorem flatMap_escape_inj {s t : List Char} {r r' : List Char}
    (h : s.flatMap escape ++ '"' :: r = t.flatMap escape ++ '"' :: r') : s = t ∧ r = r' := by
  induction s generalizing t with
  | nil =>
    cases t with
    | nil => simpa using h
    | cons d t =>
      rw [List.flatMap_cons, List.append_assoc] at h
      exact absurd h.symm (escape_ne_quote _ _ _)
  | cons c s ih =>
    rw [List.flatMap_cons, List.append_assoc] at h
    cases t with
    | nil => exact absurd h (escape_ne_quote _ _ _)
    | cons d t =>
      rw [List.flatMap_cons, List.append_assoc] at h
      obtain ⟨rfl, hrest⟩ := escape_inj h
      obtain ⟨rfl, hr⟩ := ih hrest
      exact ⟨rfl, hr⟩

theorem string_append (s : String) (r : List Char) :
    string s ++ r = '"' :: (s.toList.flatMap escape ++ '"' :: r) := by
  simp [string]

theorem string_inj {s t : String} {r r' : List Char} (h : string s ++ r = string t ++ r') :
    s = t ∧ r = r' := by
  rw [string_append, string_append] at h
  obtain ⟨hst, hr⟩ := flatMap_escape_inj (List.cons.inj h).2
  exact ⟨String.toList_inj.1 hst, hr⟩

/-! ## Numbers are read back -/

/-- What follows a number in a document: not a digit. -/
def Ended (r : List Char) : Prop := ∀ c ∈ r.head?, c.isDigit = false

theorem ended_cons {c : Char} (h : c.isDigit = false) (r : List Char) : Ended (c :: r) := by
  simpa [Ended] using h

theorem isDigit_of_mem_number {n : ℕ} {c : Char} (h : c ∈ number n) : c.isDigit := by
  rw [number, Nat.toList_repr] at h
  exact Nat.isDigit_of_mem_toDigits (by norm_num) (by norm_num) h

theorem takeWhile_number (n : ℕ) {r : List Char} (hr : Ended r) :
    (number n ++ r).takeWhile Char.isDigit = number n := by
  have hrest : r.takeWhile Char.isDigit = [] := by
    cases r with
    | nil => rfl
    | cons c r => rw [List.takeWhile_cons, hr c rfl]; rfl
  rw [List.takeWhile_append_of_pos fun c hc => isDigit_of_mem_number hc, hrest, List.append_nil]

theorem number_inj {n m : ℕ} {r r' : List Char} (hr : Ended r) (hr' : Ended r')
    (h : number n ++ r = number m ++ r') : n = m ∧ r = r' := by
  have hdigits : number n = number m := by
    rw [← takeWhile_number n hr, h, takeWhile_number m hr']
  refine ⟨?_, List.append_cancel_left (hdigits ▸ h)⟩
  rw [number, number, Nat.toList_repr, Nat.toList_repr] at hdigits
  have hn : Nat.ofDigitChars 10 (Nat.toDigits 10 n) 0 = n := Nat.ofDigitChars_ten_toDigits
  rw [← hn, hdigits, Nat.ofDigitChars_ten_toDigits]

/-! ## Lists are read back -/

section List

variable {α : Type*} {e : α → List Char}

/-- An item that is taken apart from what follows it. -/
def Readable (e : α → List Char) (x : α) : Prop :=
  ∀ y r r', Ended r → Ended r' → e x ++ r = e y ++ r' → x = y ∧ r = r'

/-- The items of a list after its first, and its end. -/
def tail (e : α → List Char) (xs : List α) (r : List Char) : List Char :=
  xs.flatMap (fun x => ',' :: e x) ++ r

theorem tail_cons (x : α) (xs : List α) (r : List Char) :
    tail e (x :: xs) r = ',' :: (e x ++ tail e xs r) := by
  simp [tail]

theorem intercalate_append (x : α) (xs : List α) (r : List Char) :
    List.intercalate ",".toList ((x :: xs).map e) ++ r = e x ++ tail e xs r := by
  induction xs generalizing x with
  | nil => simp [tail]
  | cons y xs ih =>
    have hy := ih y
    rw [List.map_cons] at hy
    rw [List.map_cons, List.map_cons, List.intercalate_cons_cons, List.append_assoc, hy, tail_cons,
      List.append_assoc]
    rfl

/-- The character that ends a list. -/
structure Closes (e : α → List Char) (close : Char) : Prop where
  notComma : close ≠ ','
  notDigit : close.isDigit = false
  notItem : ∀ x r r', e x ++ r ≠ close :: r'

variable {close : Char}

theorem ended_tail (hclose : Closes e close) (xs : List α) (r : List Char) :
    Ended (tail e xs (close :: r)) := by
  cases xs with
  | nil => exact ended_cons hclose.notDigit r
  | cons x xs =>
    rw [tail_cons]
    exact ended_cons (by decide) _

theorem tail_inj (hclose : Closes e close) {xs ys : List α} (h : ∀ x ∈ xs, Readable e x)
    {r r' : List Char} (htail : tail e xs (close :: r) = tail e ys (close :: r')) :
    xs = ys ∧ r = r' := by
  induction xs generalizing ys with
  | nil =>
    cases ys with
    | nil => exact ⟨rfl, (List.cons.inj htail).2⟩
    | cons y ys =>
      rw [tail_cons] at htail
      exact absurd (List.cons.inj htail).1 hclose.notComma
  | cons x xs ih =>
    cases ys with
    | nil =>
      rw [tail_cons] at htail
      exact absurd (List.cons.inj htail).1.symm hclose.notComma
    | cons y ys =>
      rw [tail_cons, tail_cons] at htail
      obtain ⟨rfl, hrest⟩ := h x (by simp) y _ _ (ended_tail hclose xs r) (ended_tail hclose ys r')
        (List.cons.inj htail).2
      obtain ⟨rfl, hr⟩ := ih (fun z hz => h z (by simp [hz])) hrest
      exact ⟨rfl, hr⟩

/-- **A list is read back** when its items are. -/
theorem intercalate_inj (hclose : Closes e close) {xs ys : List α} (h : ∀ x ∈ xs, Readable e x)
    {r r' : List Char} (hlist : List.intercalate ",".toList (xs.map e) ++ close :: r =
      List.intercalate ",".toList (ys.map e) ++ close :: r') : xs = ys ∧ r = r' := by
  cases xs with
  | nil =>
    cases ys with
    | nil => exact ⟨rfl, (List.cons.inj hlist).2⟩
    | cons y ys =>
      rw [intercalate_append] at hlist
      exact absurd hlist.symm (hclose.notItem _ _ _)
  | cons x xs =>
    rw [intercalate_append] at hlist
    cases ys with
    | nil => exact absurd hlist (hclose.notItem _ _ _)
    | cons y ys =>
      rw [intercalate_append] at hlist
      obtain ⟨rfl, hrest⟩ := h x (by simp) y _ _ (ended_tail hclose xs r) (ended_tail hclose ys r')
        hlist
      obtain ⟨rfl, hr⟩ := tail_inj hclose (fun z hz => h z (by simp [hz])) hrest
      exact ⟨rfl, hr⟩

end List

/-! ## Documents are read back -/

/-- The character that a document starts with, one for all numbers. -/
def Tree.opener : Tree → Char
  | .string _ => '"'
  | .number _ => '0'
  | .array _ => '['
  | .object _ => '{'

theorem Tree.write_head (t : Tree) (r : List Char) :
    ((t.write ++ r).head?).map (fun c => if c.isDigit then '0' else c) = some t.opener := by
  cases t with
  | string s => rw [write, string_append]; rfl
  | number n =>
    obtain ⟨c, s, hn⟩ : ∃ c s, Json.number n = c :: s := by
      rw [Json.number, Nat.toList_repr]
      exact List.exists_cons_of_ne_nil Nat.toDigits_ne_nil
    have hc : c.isDigit := isDigit_of_mem_number (n := n) (by simp [hn])
    simp [write, hn, hc, opener]
  | array items => rfl
  | object fields => rfl

theorem Tree.opener_eq {t u : Tree} {r r' : List Char} (h : t.write ++ r = u.write ++ r') :
    t.opener = u.opener := by
  have ht := t.write_head r
  rw [h, u.write_head r'] at ht
  exact (Option.some.inj ht).symm

/-- A field of an object. -/
def field (f : String × Tree) : List Char := string f.1 ++ ":".toList ++ f.2.write

theorem write_array (items : List Tree) (r : List Char) : (Tree.array items).write ++ r =
    '[' :: (List.intercalate ",".toList (items.map Tree.write) ++ ']' :: r) := by
  simp [Tree.write, array, writeItems_eq]

theorem write_object (fields : List (String × Tree)) (r : List Char) :
    (Tree.object fields).write ++ r =
      '\x7b' :: (List.intercalate ",".toList (fields.map field) ++ '\x7d' :: r) := by
  have hfields : (writeFields fields).map (fun f => string f.1 ++ ":".toList ++ f.2) =
      fields.map field := by
    rw [writeFields_eq, List.map_map]
    rfl
  rw [Tree.write, object, hfields]
  simp

theorem closes_array : Closes Tree.write ']' where
  notComma := by decide
  notDigit := by decide
  notItem t r r' h := by
    have := t.write_head r
    rw [h] at this
    cases t <;> simp [Tree.opener] at this

theorem closes_object : Closes field '\x7d' where
  notComma := by decide
  notDigit := by decide
  notItem f r r' h := by
    rw [field, List.append_assoc, List.append_assoc, string_append] at h
    exact absurd (List.cons.inj h).1 (by decide)

theorem readable_field {f : String × Tree} (h : Readable Tree.write f.2) : Readable field f := by
  intro g r r' hr hr' hfg
  rw [field, field, List.append_assoc, List.append_assoc, List.append_assoc,
    List.append_assoc] at hfg
  obtain ⟨hkey, hrest⟩ := string_inj hfg
  obtain ⟨hval, hrest⟩ := h g.2 r r' hr hr' (List.cons.inj hrest).2
  exact ⟨Prod.ext hkey hval, hrest⟩

mutual

/-- **A document is read back**: from the text of a document and what follows it, there is one
way to tell both. -/
theorem Tree.readable : (t : Tree) → Readable Tree.write t
  | .string s, u, r, r', _, _, h => by
    have hopen := Tree.opener_eq h
    cases u with
    | string s' =>
      obtain ⟨rfl, hr⟩ := string_inj h
      exact ⟨rfl, hr⟩
    | number | array | object => simp [Tree.opener] at hopen
  | .number n, u, r, r', hr, hr', h => by
    have hopen := Tree.opener_eq h
    cases u with
    | number n' =>
      obtain ⟨rfl, hr⟩ := number_inj hr hr' h
      exact ⟨rfl, hr⟩
    | string | array | object => simp [Tree.opener] at hopen
  | .array items, u, r, r', _, _, h => by
    have hopen := Tree.opener_eq h
    cases u with
    | array items' =>
      rw [write_array, write_array] at h
      obtain ⟨rfl, hr⟩ := intercalate_inj closes_array (readableItems items) (List.cons.inj h).2
      exact ⟨rfl, hr⟩
    | string | number | object => simp [Tree.opener] at hopen
  | .object fields, u, r, r', _, _, h => by
    have hopen := Tree.opener_eq h
    cases u with
    | object fields' =>
      rw [write_object, write_object] at h
      obtain ⟨rfl, hr⟩ := intercalate_inj closes_object
        (fun f hf => readable_field (readableFields fields f hf)) (List.cons.inj h).2
      exact ⟨rfl, hr⟩
    | string | number | array => simp [Tree.opener] at hopen

theorem readableItems : (items : List Tree) → ∀ t ∈ items, Readable Tree.write t
  | [] => by simp
  | t :: items => List.forall_mem_cons.2 ⟨t.readable, readableItems items⟩

theorem readableFields : (fields : List (String × Tree)) → ∀ f ∈ fields, Readable Tree.write f.2
  | [] => by simp
  | (_, t) :: fields => List.forall_mem_cons.2 ⟨t.readable, readableFields fields⟩

end

/-- **Different documents are written differently.** -/
theorem write_injective : Function.Injective Tree.write := by
  intro t u h
  have hend : Ended [] := by simp [Ended]
  exact (t.readable u [] [] hend hend (by rw [h])).1

end Flodex.Json
