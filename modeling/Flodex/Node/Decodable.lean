import Flodex.Foundations.Checked
import Flodex.Node.Transaction

/-!
# Items of any depth

The encoder of a node on every item, not only on the ones that a transaction consists of: a byte
string is written by `encodeBytes`, and a list by `encodeList` from the encodings of its items.

`uniquely_decodable` says that the strict reader takes every item off the front of what follows
it, that a number is the item of its digits, and that the length prefixes stay within a byte.
-/

namespace Flodex.Eth

open Rlp (Item)

mutual

/-- An item as the encoder writes it. -/
def encodeItem : Item → List UInt8
  | .bytes b => encodeBytes b
  | .list items => encodeList (encodeEach items)

/-- The items of a list, each encoded by itself. -/
def encodeEach : List Item → List (List UInt8)
  | [] => []
  | i :: items => encodeItem i :: encodeEach items

end

/-- The length in front of an item. -/
def payloadLen : Item → ℕ
  | .bytes b => b.length
  | .list items => ((encodeEach items).map List.length).sum

/-- `encode_length` as it panics: where a sum does not fit in a byte, and where there is nothing to
unwrap. -/
def encodeLengthChecked (len : ℕ) (offset : UInt8) : Except String (List UInt8) := do
  if len < 56 then
    let b ← checkedAdd 8 offset.toNat len "attempt to add with overflow"
    pure [UInt8.ofNat b]
  else
    let lenBytes := beBytes 8 len
    let first ← orThrow (lenBytes.findIdx? (· ≠ 0)) "called Option::unwrap() on a None value"
    let lenBe := lenBytes.drop first
    let b ← checkedAdd 8 offset.toNat 55 "attempt to add with overflow"
    let b ← checkedAdd 8 b lenBe.length "attempt to add with overflow"
    pure (UInt8.ofNat b :: lenBe)

/-! ## Lengths -/

/-- No addition overflows behind the offsets of the two kinds. -/
theorem encodeLengthChecked_eq {len : ℕ} (h : len < 256 ^ 8) {offset : UInt8}
    (hoffset : offset.toNat ≤ 0xc0) :
    encodeLengthChecked len offset = .ok (encodeLength len offset) := by
  rw [encodeLengthChecked, encodeLength]
  by_cases hshort : len < 56
  · rw [if_pos hshort, if_pos hshort]
    simp only [bind_eq_ok, checkedAdd_eq_ok, pure_eq_ok]
    refine ⟨_, ⟨by omega, rfl⟩, ?_⟩
    rw [UInt8.ofNat_add, UInt8.ofNat_toNat]
  · have hany : ((beBytes 8 len).findIdx? (· ≠ 0)).isSome := by
      rw [List.findIdx?_isSome]
      by_contra hnone
      have hzero := (any_ne_zero_beBytes h).1 (Bool.eq_false_iff.2 hnone)
      omega
    obtain ⟨first, hfirst⟩ := Option.isSome_iff_exists.1 hany
    have hlen : ((beBytes 8 len).drop first).length ≤ 8 := by
      rw [List.length_drop, length_beBytes]
      exact Nat.sub_le 8 first
    rw [if_neg hshort, if_neg hshort]
    simp only [hfirst, Option.getD_some, bind_eq_ok, orThrow_eq_ok, checkedAdd_eq_ok, pure_eq_ok]
    refine ⟨first, rfl, _, ⟨by omega, rfl⟩, _, ⟨by omega, rfl⟩, ?_⟩
    rw [UInt8.ofNat_add, UInt8.ofNat_add, UInt8.ofNat_toNat]
    rfl

/-- An item is at least as long as its payload. -/
theorem payloadLen_le (i : Item) : payloadLen i ≤ (encodeItem i).length := by
  cases i with
  | bytes b =>
    rw [payloadLen, encodeItem, encodeBytes]
    split_ifs with hlow
    · exact hlow.1.le
    · rw [List.length_append]
      exact Nat.le_add_left b.length _
  | list items =>
    rw [payloadLen, encodeItem, encodeList, List.length_append, List.length_flatten]
    exact Nat.le_add_left _ _

/-! ## Items -/

mutual

/-- The encoder follows the specification, as long as lengths fit in a `usize`. -/
theorem encodeItem_eq : (i : Item) → payloadLen i < 256 ^ 8 → encodeItem i = Rlp.encode i
  | .bytes b, h => encodeBytes_eq h
  | .list items, h => by
    have heach := encodeEach_eq items h
    rw [payloadLen, heach, ← List.length_flatten, flatten_map_encode] at h
    rw [encodeItem, heach, encodeList_eq h]

theorem encodeEach_eq : (items : List Item) →
    ((encodeEach items).map List.length).sum < 256 ^ 8 → encodeEach items = items.map Rlp.encode
  | [], _ => rfl
  | i :: items, h => by
    rw [encodeEach, List.map_cons, List.sum_cons] at h
    have hi := payloadLen_le i
    rw [encodeEach, encodeItem_eq i (by omega), encodeEach_eq items (by omega), List.map_cons]

end

theorem payload_eq {i : Item} (h : payloadLen i < 256 ^ 8) : i.payload = payloadLen i := by
  cases i with
  | bytes b => rfl
  | list items =>
    rw [payloadLen, encodeEach_eq items h, ← List.length_flatten, flatten_map_encode, Item.payload]

/-- **Encodings are uniquely decodable**: the strict reader gives back every item whose lengths fit
in a `usize`, and what follows it. A number is the item of its digits, and `encode_length` does not
overflow. -/
theorem uniquely_decodable :
    (∀ i, payloadLen i < 2 ^ 64 → ∀ r, Rlp.decode (encodeItem i ++ r) = some (i, r)) ∧
      (∀ n : BitVec 128, encodeUint n = encodeItem (.bytes (minBytes n.toNat))) ∧
      ∀ len < 2 ^ 64, ∀ offset ∈ [(0x80 : UInt8), 0xc0],
        encodeLengthChecked len offset = .ok (encodeLength len offset) := by
  refine ⟨fun i hi r => ?_, fun n => ?_, fun len hlen offset hoffset => ?_⟩
  · rw [encodeItem_eq i hi, Rlp.decode_encode ((payload_eq hi).trans_lt hi)]
  · have hlen : (minBytes n.toNat).length ≤ 16 := length_minBytes_le n.isLt
    rw [encodeUint_eq, encodeItem, encodeBytes_eq (by omega), Item.uint]
  · refine encodeLengthChecked_eq hlen ?_
    obtain rfl | hoffset := List.mem_cons.1 hoffset
    · decide
    · rw [List.mem_singleton.1 hoffset]
      decide

/-- A list in a list. -/
theorem uniquely_decodable_nested : payloadLen (.list [.list [.bytes [0x80]], .bytes []]) < 2 ^ 64 ∧
    Rlp.decode (encodeItem (.list [.list [.bytes [0x80]], .bytes []]) ++ [0xc0]) =
      some (.list [.list [.bytes [0x80]], .bytes []], [0xc0]) :=
  ⟨by decide, uniquely_decodable.1 _ (by decide) _⟩

/-! ## What is accepted -/

mutual

/-- The length in front of an item is that of its payload. -/
theorem payloadLen_eq : (i : Item) → i.payload < 256 ^ 8 → payloadLen i = i.payload
  | .bytes _, _ => rfl
  | .list items, h => by
    rw [Item.payload] at h
    rw [payloadLen, encodeEach_of_payload items h, ← List.length_flatten, flatten_map_encode,
      Item.payload]

theorem encodeEach_of_payload : (items : List Item) →
    (Rlp.encodeItems items).length < 256 ^ 8 → encodeEach items = items.map Rlp.encode
  | [], _ => rfl
  | i :: items, h => by
    rw [Rlp.encodeItems, List.length_append] at h
    have hpayload := Rlp.payload_le i
    have hlen := payloadLen_eq i (by omega)
    rw [encodeEach, encodeItem_eq i (by omega), encodeEach_of_payload items (by omega),
      List.map_cons]

end

/-- **What is accepted is an encoding**: the strict reader takes an item off the front of exactly
those byte strings that start with what the encoder writes for it. -/
theorem decode_iff_encodeItem (s r : List UInt8) (i : Item) :
    Rlp.decode s = some (i, r) ↔ s = encodeItem i ++ r ∧ payloadLen i < 2 ^ 64 := by
  constructor
  · intro hdecode
    obtain ⟨rfl, hpayload⟩ := Rlp.encode_of_decode hdecode
    have hlen : payloadLen i < 256 ^ 8 := payloadLen_eq i hpayload ▸ hpayload
    exact ⟨by rw [encodeItem_eq i hlen], hlen⟩
  · rintro ⟨rfl, hlen⟩
    have hpayload : i.payload < 256 ^ 8 := (payload_eq hlen).trans_lt hlen
    rw [encodeItem_eq i hlen, Rlp.decode_encode hpayload]

end Flodex.Eth
