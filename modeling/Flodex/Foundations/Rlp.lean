import Flodex.Foundations.Bytes

/-!
# Recursive length prefixes

Items are byte strings and lists of items. `encode` writes an item behind the length of its
payload, and `decode` is the strict reader: it rejects lengths that are not written in as few
bytes as there are, and a byte that could have stood for itself.

`decode_encode` reads an item back from what starts with its encoding, and `encode_of_decode`
says that nothing else is read as that item.
-/

namespace Flodex.Rlp

inductive Item
  | bytes (b : List UInt8)
  | list (items : List Item)

/-- The item of a number. -/
def Item.uint (n : ℕ) : Item := .bytes (minBytes n)

/-- The number that an item is, if it has no leading zeros. -/
def Item.asUint : Item → Option ℕ
  | .bytes b => if b.head? = some 0 then none else some (beNat b)
  | .list _ => none

@[simp] theorem Item.asUint_uint (n : ℕ) : (Item.uint n).asUint = some n := by
  simp [uint, asUint, head_minBytes]

theorem Item.uint_injective : Function.Injective Item.uint := by
  intro m n h
  exact minBytes_injective (Item.bytes.inj h)

/-! ## Headers -/

/-- What an item starts with. -/
inductive Header
  | byte (b : UInt8)
  | bytes (len : ℕ)
  | list (len : ℕ)

/-- The length of a payload, after the offset of its kind. -/
def length (offset len : ℕ) : List UInt8 :=
  if len < 56 then [UInt8.ofNat (offset + len)]
  else UInt8.ofNat (offset + 55 + (minBytes len).length) :: minBytes len

def Header.write : Header → List UInt8
  | .byte b => [b]
  | .bytes len => length 0x80 len
  | .list len => length 0xc0 len

/-- Read a length of `k` bytes. -/
def readLength (k : ℕ) (s : List UInt8) : Option (ℕ × List UInt8) :=
  let len := beNat (s.take k)
  if s.length < k ∨ s.head? = some 0 ∨ len < 56 then none else some (len, s.drop k)

def readHeader : List UInt8 → Option (Header × List UInt8)
  | [] => none
  | b :: s =>
    let n := b.toNat
    if n < 0x80 then some (.byte b, s)
    else if n < 0xb8 then some (.bytes (n - 0x80), s)
    else if n < 0xc0 then (readLength (n - 0xb7) s).map fun p => (.bytes p.1, p.2)
    else if n < 0xf8 then some (.list (n - 0xc0), s)
    else (readLength (n - 0xf7) s).map fun p => (.list p.1, p.2)

theorem readLength_minBytes {len : ℕ} (h : 56 ≤ len) (s : List UInt8) :
    readLength (minBytes len).length (minBytes len ++ s) = some (len, s) := by
  obtain ⟨b, l, hl, hb⟩ := exists_cons_minBytes (show 0 < len by omega)
  have hhead : (minBytes len ++ s).head? ≠ some 0 := by simpa [hl] using hb
  have hshort : ¬(minBytes len ++ s).length < (minBytes len).length := by simp
  rw [readLength, List.take_left, List.drop_left, beNat_minBytes, if_neg]
  rintro (h' | h' | h')
  · exact hshort h'
  · exact hhead h'
  · omega

theorem length_minBytes_pos_le {len : ℕ} (h : ¬len < 56) (hlen : len < 256 ^ 8) :
    0 < (minBytes len).length ∧ (minBytes len).length ≤ 8 := by
  obtain ⟨b, l, hl, -⟩ := exists_cons_minBytes (show 0 < len by omega)
  exact ⟨by simp [hl], length_minBytes_le hlen⟩

/-- A header is read back, if its length fits in eight bytes. -/
theorem readHeader_bytes {len : ℕ} (h : len < 256 ^ 8) (s : List UInt8) :
    readHeader ((Header.bytes len).write ++ s) = some (.bytes len, s) := by
  rw [Header.write, length]
  split_ifs with hshort
  · have hb : (UInt8.ofNat (0x80 + len)).toNat = 0x80 + len :=
      UInt8.toNat_ofNat_of_lt' (show 0x80 + len < 256 by omega)
    simp only [List.singleton_append, readHeader, hb]
    rw [if_neg (by omega), if_pos (by omega), Nat.add_sub_cancel_left]
  · obtain ⟨hpos, hlen⟩ := length_minBytes_pos_le hshort h
    have hb : (UInt8.ofNat (0x80 + 55 + (minBytes len).length)).toNat =
        0x80 + 55 + (minBytes len).length :=
      UInt8.toNat_ofNat_of_lt' (show 0x80 + 55 + (minBytes len).length < 256 by omega)
    simp only [List.cons_append, readHeader, hb]
    rw [if_neg (by omega), if_neg (by omega), if_pos (by omega), Nat.add_sub_cancel_left,
      readLength_minBytes (Nat.not_lt.1 hshort)]
    rfl

theorem readHeader_list {len : ℕ} (h : len < 256 ^ 8) (s : List UInt8) :
    readHeader ((Header.list len).write ++ s) = some (.list len, s) := by
  rw [Header.write, length]
  split_ifs with hshort
  · have hb : (UInt8.ofNat (0xc0 + len)).toNat = 0xc0 + len :=
      UInt8.toNat_ofNat_of_lt' (show 0xc0 + len < 256 by omega)
    simp only [List.singleton_append, readHeader, hb]
    rw [if_neg (by omega), if_neg (by omega), if_neg (by omega), if_pos (by omega),
      Nat.add_sub_cancel_left]
  · obtain ⟨hpos, hlen⟩ := length_minBytes_pos_le hshort h
    have hb : (UInt8.ofNat (0xc0 + 55 + (minBytes len).length)).toNat =
        0xc0 + 55 + (minBytes len).length :=
      UInt8.toNat_ofNat_of_lt' (show 0xc0 + 55 + (minBytes len).length < 256 by omega)
    simp only [List.cons_append, readHeader, hb]
    rw [if_neg (by omega), if_neg (by omega), if_neg (by omega), if_neg (by omega),
      Nat.add_sub_cancel_left, readLength_minBytes (Nat.not_lt.1 hshort)]
    rfl

theorem readHeader_byte {b : UInt8} (h : b.toNat < 0x80) (s : List UInt8) :
    readHeader (b :: s) = some (.byte b, s) := if_pos h

/-- A length that is read is one of at most eight bytes, written without leading zeros. -/
theorem readLength_eq_some {k : ℕ} {s r : List UInt8} {len : ℕ}
    (h : readLength k s = some (len, r)) :
    s = minBytes len ++ r ∧ (minBytes len).length = k ∧ 56 ≤ len := by
  simp only [readLength] at h
  split_ifs at h with hguard
  obtain ⟨hlen, rfl⟩ := Prod.mk.inj (Option.some.inj h)
  simp only [not_or, Nat.not_lt] at hguard
  obtain ⟨hk, hhead, h56⟩ := hguard
  have htake : minBytes len = s.take k := by
    rw [← hlen]
    refine minBytes_beNat ?_
    cases s with
    | nil => simp
    | cons b s =>
      cases k with
      | zero => simp
      | succ k => simpa using hhead
  exact ⟨by rw [htake, List.take_append_drop], by rw [htake, List.length_take_of_le hk],
    hlen ▸ h56⟩

/-- The headers that are read: a byte that stands for itself, or a length of at most eight
bytes. -/
def Header.Fits : Header → Prop
  | .byte b => b.toNat < 0x80
  | .bytes len => len < 256 ^ 8
  | .list len => len < 256 ^ 8

/-- A header that is read is written so. -/
theorem readHeader_eq_some {s r : List UInt8} {hd : Header} (h : readHeader s = some (hd, r)) :
    s = hd.write ++ r ∧ hd.Fits := by
  cases s with
  | nil => simp [readHeader] at h
  | cons b s =>
    have hb := b.toNat_lt
    simp only [readHeader] at h
    split_ifs at h with h80 hb8 hc0 hf8
    · obtain ⟨rfl, rfl⟩ := Prod.mk.inj (Option.some.inj h)
      exact ⟨rfl, h80⟩
    · obtain ⟨rfl, rfl⟩ := Prod.mk.inj (Option.some.inj h)
      refine ⟨?_, show b.toNat - 0x80 < 256 ^ 8 by omega⟩
      rw [Header.write, length, if_pos (by omega),
        show 0x80 + (b.toNat - 0x80) = b.toNat by omega, UInt8.ofNat_toNat]
      rfl
    · obtain ⟨⟨len, r'⟩, hlen, h⟩ := Option.map_eq_some_iff.1 h
      obtain ⟨rfl, rfl⟩ := Prod.mk.inj h
      obtain ⟨rfl, hk, h56⟩ := readLength_eq_some hlen
      have hlt := beNat_lt (minBytes len)
      rw [beNat_minBytes, hk] at hlt
      refine ⟨?_, hlt.trans_le (Nat.pow_le_pow_right (by omega) (by omega))⟩
      rw [Header.write, length, if_neg (by omega), hk,
        show 0x80 + 55 + (b.toNat - 0xb7) = b.toNat by omega, UInt8.ofNat_toNat]
      rfl
    · obtain ⟨rfl, rfl⟩ := Prod.mk.inj (Option.some.inj h)
      refine ⟨?_, show b.toNat - 0xc0 < 256 ^ 8 by omega⟩
      rw [Header.write, length, if_pos (by omega),
        show 0xc0 + (b.toNat - 0xc0) = b.toNat by omega, UInt8.ofNat_toNat]
      rfl
    · obtain ⟨⟨len, r'⟩, hlen, h⟩ := Option.map_eq_some_iff.1 h
      obtain ⟨rfl, rfl⟩ := Prod.mk.inj h
      obtain ⟨rfl, hk, h56⟩ := readLength_eq_some hlen
      have hlt := beNat_lt (minBytes len)
      rw [beNat_minBytes, hk] at hlt
      refine ⟨?_, hlt.trans_le (Nat.pow_le_pow_right (by omega) (by omega))⟩
      rw [Header.write, length, if_neg (by omega), hk,
        show 0xc0 + 55 + (b.toNat - 0xf7) = b.toNat by omega, UInt8.ofNat_toNat]
      rfl

/-! ## Items -/

/-- The encoding of a byte string: a single byte below `0x80` stands for itself. -/
def encodeString (b : List UInt8) : List UInt8 :=
  if b.length = 1 ∧ ∀ x ∈ b.head?, x.toNat < 0x80 then b
  else (Header.bytes b.length).write ++ b

mutual

/-- The encoding of an item. -/
def encode : Item → List UInt8
  | .bytes b => encodeString b
  | .list items => (Header.list (encodeItems items).length).write ++ encodeItems items

def encodeItems : List Item → List UInt8
  | [] => []
  | i :: items => encode i ++ encodeItems items

end

theorem encodeItems_append (items items' : List Item) :
    encodeItems (items ++ items') = encodeItems items ++ encodeItems items' := by
  induction items with
  | nil => rfl
  | cons i items ih => rw [List.cons_append, encodeItems, encodeItems, ih, List.append_assoc]

mutual

/-- Read an item, with fuel for the nesting. -/
def decodeItem : ℕ → List UInt8 → Option (Item × List UInt8)
  | 0, _ => none
  | fuel + 1, s =>
    match readHeader s with
    | none => none
    | some (.byte b, s) => some (.bytes [b], s)
    | some (.bytes len, s) =>
      if s.length < len then none
      -- a single byte below `0x80` has to stand for itself
      else if len = 1 ∧ ∀ b ∈ s.head?, b.toNat < 0x80 then none
      else some (.bytes (s.take len), s.drop len)
    | some (.list len, s) =>
      if s.length < len then none
      else (decodeItems fuel (s.take len)).map fun items => (.list items, s.drop len)

/-- Read items to the end. -/
def decodeItems : ℕ → List UInt8 → Option (List Item)
  | 0, _ => none
  | fuel + 1, s =>
    if s = [] then some []
    else
      match decodeItem fuel s with
      | none => none
      | some (i, s) => (decodeItems fuel s).map (i :: ·)

end

/-- The strict reader: the item that a byte string starts with, and the rest. -/
def decode (s : List UInt8) : Option (Item × List UInt8) := decodeItem (2 * s.length) s

/-- The length of the payload of an item. -/
def Item.payload : Item → ℕ
  | .bytes b => b.length
  | .list items => (encodeItems items).length

theorem length_length_pos (offset len : ℕ) : 0 < (length offset len).length := by
  rw [length]
  split_ifs <;> simp

theorem length_write_pos (hd : Header) : 0 < hd.write.length := by
  cases hd with
  | byte b => exact Nat.one_pos
  | bytes len => exact length_length_pos 0x80 len
  | list len => exact length_length_pos 0xc0 len

theorem payload_le (i : Item) : i.payload ≤ (encode i).length := by
  cases i with
  | bytes b =>
    rw [Item.payload, encode, encodeString]
    split_ifs <;> simp
  | list items => simp [Item.payload, encode]

theorem length_encode_pos (i : Item) : 0 < (encode i).length := by
  cases i with
  | bytes b =>
    rw [encode, encodeString]
    split_ifs with hb
    · omega
    · have := length_write_pos (.bytes b.length)
      simp only [List.length_append]
      omega
  | list items =>
    have := length_write_pos (.list (encodeItems items).length)
    simp only [encode, List.length_append]
    omega

/-- A byte string takes at most nine bytes more. -/
theorem length_encode_bytes_le {b : List UInt8} (h : b.length < 256 ^ 8) :
    (encode (.bytes b)).length ≤ b.length + 9 := by
  rw [encode, encodeString]
  split_ifs
  · omega
  · have := length_minBytes_le h
    rw [Header.write, length]
    split_ifs <;> simp only [List.length_append, List.length_cons, List.length_nil] <;> omega

theorem decodeItem_string {b : List UInt8} (hb : b.length < 256 ^ 8) (fuel : ℕ) (r : List UInt8) :
    decodeItem (fuel + 1) (encodeString b ++ r) = some (.bytes b, r) := by
  rw [encodeString]
  split_ifs with hlow
  · obtain ⟨x, rfl⟩ := List.length_eq_one_iff.1 hlow.1
    have hx : x.toNat < 0x80 := hlow.2 x rfl
    rw [List.singleton_append, decodeItem, readHeader_byte hx]
  · rw [List.append_assoc, decodeItem, readHeader_bytes hb]
    have hlen : ¬(b ++ r).length < b.length := by simp
    have hlow' : ¬(b.length = 1 ∧ ∀ x ∈ (b ++ r).head?, x.toNat < 0x80) := by
      rintro ⟨hone, hx⟩
      obtain ⟨x, rfl⟩ := List.length_eq_one_iff.1 hone
      exact hlow ⟨hone, hx⟩
    simp only [hlen, hlow', if_false, List.take_left, List.drop_left]

mutual

theorem decodeItem_encode : (i : Item) → i.payload < 256 ^ 8 →
    ∀ fuel, 2 * (encode i).length ≤ fuel → ∀ r, decodeItem fuel (encode i ++ r) = some (i, r)
  | .bytes b, hfits, fuel, hfuel, r => by
    have hpos := length_encode_pos (.bytes b)
    obtain ⟨fuel, rfl⟩ := Nat.exists_eq_succ_of_ne_zero (show fuel ≠ 0 by omega)
    exact decodeItem_string hfits fuel r
  | .list items, hfits, fuel, hfuel, r => by
    have hpos := length_write_pos (.list (encodeItems items).length)
    simp only [encode, List.length_append] at hfuel
    obtain ⟨fuel, rfl⟩ := Nat.exists_eq_succ_of_ne_zero (show fuel ≠ 0 by omega)
    have hitems := decodeItems_encode items hfits fuel (by omega)
    have hlen : ¬(encodeItems items ++ r).length < (encodeItems items).length := by simp
    have hread := readHeader_list hfits (encodeItems items ++ r)
    rw [Item.payload] at hread
    rw [encode, List.append_assoc, decodeItem, hread]
    simp only [hlen, if_false, List.take_left, List.drop_left, hitems, Option.map_some]

theorem decodeItems_encode : (items : List Item) → (encodeItems items).length < 256 ^ 8 →
    ∀ fuel, 2 * (encodeItems items).length < fuel →
      decodeItems fuel (encodeItems items) = some items
  | [], _, fuel, hfuel => by
    obtain ⟨fuel, rfl⟩ := Nat.exists_eq_succ_of_ne_zero (show fuel ≠ 0 by omega)
    rfl
  | i :: items, hfits, fuel, hfuel => by
    have hpos := length_encode_pos i
    have hpayload := payload_le i
    simp only [encodeItems, List.length_append] at hfits hfuel
    obtain ⟨fuel, rfl⟩ := Nat.exists_eq_succ_of_ne_zero (show fuel ≠ 0 by omega)
    have hi := decodeItem_encode i (by omega) fuel (by omega) (encodeItems items)
    have hitems := decodeItems_encode items (by omega) fuel (by omega)
    have hne : encode i ++ encodeItems items ≠ [] := by
      simp [List.ne_nil_of_length_pos hpos]
    rw [encodeItems, decodeItems, if_neg hne, hi]
    simp only [hitems, Option.map_some]

end

/-- **Round trip**: what starts with the encoding of an item is read as the item, and the rest is
left. -/
theorem decode_encode {i : Item} (h : i.payload < 256 ^ 8) (r : List UInt8) :
    decode (encode i ++ r) = some (i, r) :=
  decodeItem_encode i h _ (by simp) r

mutual

theorem encode_of_decodeItem : (fuel : ℕ) → ∀ {s r i}, decodeItem fuel s = some (i, r) →
    s = encode i ++ r ∧ i.payload < 256 ^ 8
  | 0, s, r, i, h => by simp [decodeItem] at h
  | fuel + 1, s, r, i, h => by
    rw [decodeItem] at h
    split at h
    case h_1 => simp at h
    case h_2 b s' hread =>
      obtain ⟨rfl, hb⟩ := readHeader_eq_some hread
      obtain ⟨rfl, rfl⟩ := Prod.mk.inj (Option.some.inj h)
      refine ⟨?_, by simp [Item.payload]⟩
      rw [encode, encodeString, if_pos ⟨rfl, by rintro x ⟨⟩; exact hb⟩]
      rfl
    case h_3 len s' hread =>
      obtain ⟨rfl, hlen⟩ := readHeader_eq_some hread
      split_ifs at h with hshort hlow
      obtain ⟨rfl, rfl⟩ := Prod.mk.inj (Option.some.inj h)
      have htake : (s'.take len).length = len := List.length_take_of_le (Nat.not_lt.1 hshort)
      refine ⟨?_, by rwa [Item.payload, htake]⟩
      rw [encode, encodeString, htake, if_neg, List.append_assoc, List.take_append_drop]
      rintro ⟨rfl, hx⟩
      refine hlow ⟨rfl, fun x hx' => hx x ?_⟩
      cases s' with
      | nil => simp at hx'
      | cons y s' => simpa using hx'
    case h_4 len s' hread =>
      obtain ⟨rfl, hlen⟩ := readHeader_eq_some hread
      split_ifs at h with hshort
      obtain ⟨items, hitems, h⟩ := Option.map_eq_some_iff.1 h
      obtain ⟨rfl, rfl⟩ := Prod.mk.inj h
      have htake : (s'.take len).length = len := List.length_take_of_le (Nat.not_lt.1 hshort)
      have hpayload := encodeItems_of_decodeItems fuel hitems
      refine ⟨?_, by rwa [Item.payload, ← hpayload, htake]⟩
      rw [encode, ← hpayload, htake, List.append_assoc, List.take_append_drop]

theorem encodeItems_of_decodeItems : (fuel : ℕ) → ∀ {s items}, decodeItems fuel s = some items →
    s = encodeItems items
  | 0, s, items, h => by simp [decodeItems] at h
  | fuel + 1, s, items, h => by
    rw [decodeItems] at h
    split at h
    case isTrue hs =>
      obtain rfl := Option.some.inj h
      exact hs
    case isFalse =>
      split at h
      case h_1 => simp at h
      case h_2 i s' hi =>
        obtain ⟨rest, hrest, rfl⟩ := Option.map_eq_some_iff.1 h
        rw [(encode_of_decodeItem fuel hi).1, encodeItems_of_decodeItems fuel hrest, encodeItems]

end

/-- **The reader is strict**: an item is read only from its own encoding. -/
theorem encode_of_decode {s r : List UInt8} {i : Item} (h : decode s = some (i, r)) :
    s = encode i ++ r ∧ i.payload < 256 ^ 8 :=
  encode_of_decodeItem _ h

end Flodex.Rlp
