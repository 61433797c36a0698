import Flodex.Crypto.Scheme
import Flodex.Foundations.Rlp

/-!
# The transactions of a node

The hand-rolled encoder of EIP-1559 transactions. Each of its functions writes the encoding of an
item, as long as lengths fit in a `usize`; so the bytes that are signed and the bytes that are
sent are a type byte and one list, which the strict reader takes apart into the fields of the
transaction.
-/

namespace Flodex.Eth

/-! ## The encoder -/

def encodeLength (len : ℕ) (offset : UInt8) : List UInt8 :=
  if len < 56 then [offset + UInt8.ofNat len]
  else
    let lenBytes := beBytes 8 len
    -- some byte is not zero: see `dropWhile_zeros` and `exists_cons_minBytes`
    let first := (lenBytes.findIdx? (· ≠ 0)).getD 0
    let lenBe := lenBytes.drop first
    (offset + 55 + UInt8.ofNat lenBe.length) :: lenBe

/-- The encoding of a byte string. -/
def encodeBytes (bytes : List UInt8) : List UInt8 :=
  if bytes.length = 1 ∧ bytes.headD 0 < 0x80 then [bytes.headD 0]
  else encodeLength bytes.length 0x80 ++ bytes

/-- The encoding of a list of encoded items. -/
def encodeList (items : List (List UInt8)) : List UInt8 :=
  let payloadLen := (items.map List.length).sum
  encodeLength payloadLen 0xc0 ++ items.flatten

def encodeUint (value : BitVec 128) : List UInt8 :=
  if value = 0 then encodeBytes []
  else
    let bytes := beBytes 16 value.toNat
    let first := (bytes.findIdx? (· ≠ 0)).getD 15
    encodeBytes (bytes.drop first)

/-- `ETH_TX_SIG_SIZE`: the length of a signature `r‖s‖v`. -/
def ethTxSigSize : ℕ := 65

/-- A transaction. The calldata are a vector, of at most `isize::MAX` bytes. -/
structure Eip1559Tx where
  chainId : UInt64
  nonce : UInt64
  maxPriorityFeePerGas : BitVec 128
  maxFeePerGas : BitVec 128
  gasLimit : UInt64
  toAddress : Address
  value : BitVec 128
  data : List UInt8
  length_data : data.length < 2 ^ 63

def stripLeadingZerosUint (bytes : List UInt8) : List UInt8 :=
  let first := (bytes.findIdx? (· ≠ 0)).getD (bytes.length - 1)
  encodeBytes (bytes.drop first)

namespace Eip1559Tx

variable (tx : Eip1559Tx)

def unsignedItems : List (List UInt8) := [
  encodeUint (.ofNat 128 tx.chainId.toNat),
  encodeUint (.ofNat 128 tx.nonce.toNat),
  encodeUint tx.maxPriorityFeePerGas,
  encodeUint tx.maxFeePerGas,
  encodeUint (.ofNat 128 tx.gasLimit.toNat),
  encodeBytes tx.toAddress.toList,
  encodeUint tx.value,
  encodeBytes tx.data,
  encodeList []]

def signingPayload : List UInt8 := 0x02 :: encodeList tx.unsignedItems

def encodeSigned (sig : Bytes ethTxSigSize) : List UInt8 :=
  let r := sig.toList.take 32
  let s := (sig.toList.drop 32).take 32
  let v := sig.toList.get ⟨64, by rw [sig.length_toList]; decide⟩
  let items := tx.unsignedItems ++
    [encodeUint (.ofNat 128 v.toNat), stripLeadingZerosUint r, stripLeadingZerosUint s]
  0x02 :: encodeList items

end Eip1559Tx

/-! ## What it encodes -/

/-- The bytes from the first that is not zero on. -/
theorem drop_findIdx {l : List UInt8} (h : beNat l ≠ 0) (d : ℕ) :
    l.drop ((l.findIdx? (· ≠ 0)).getD d) = minBytes (beNat l) := by
  have hidx : l.findIdx (fun b => !decide (b = 0)) = (l.findIdx? (· ≠ 0)).getD l.length := by
    rw [List.findIdx_eq_getD_findIdx?]
    simp
  have hdrop : l.drop ((l.findIdx? (· ≠ 0)).getD l.length) = minBytes (beNat l) := by
    rw [← hidx, ← List.dropWhile_eq_drop_findIdx_not, dropWhile_zeros]
  cases hl : l.findIdx? (· ≠ 0) with
  | none =>
    rw [hl, Option.getD_none, List.drop_length] at hdrop
    have := beNat_minBytes (beNat l)
    rw [← hdrop] at this
    exact absurd this.symm h
  | some i =>
    rw [hl] at hdrop
    exact hdrop

theorem encodeLength_eq {len : ℕ} (h : len < 256 ^ 8) (offset : UInt8) :
    encodeLength len offset = Rlp.length offset.toNat len := by
  rw [encodeLength, Rlp.length]
  split_ifs with hshort
  · rw [UInt8.ofNat_add, UInt8.ofNat_toNat]
  · have hne : beNat (beBytes 8 len) ≠ 0 := by
      rw [beNat_beBytes_of_lt h]
      omega
    simp only [drop_findIdx hne]
    rw [beNat_beBytes_of_lt h, UInt8.ofNat_add, UInt8.ofNat_add, UInt8.ofNat_toNat]
    rfl

theorem encodeBytes_eq {bytes : List UInt8} (h : bytes.length < 256 ^ 8) :
    encodeBytes bytes = Rlp.encode (.bytes bytes) := by
  rw [encodeBytes, Rlp.encode, Rlp.encodeString, encodeLength_eq h]
  by_cases hone : bytes.length = 1
  · obtain ⟨b, rfl⟩ := List.length_eq_one_iff.1 hone
    simp only [List.headD_cons, List.head?_cons, Option.mem_some_iff, forall_eq', hone, true_and,
      UInt8.lt_iff_toNat_lt]
    rfl
  · rw [if_neg fun hlow => hone hlow.1, if_neg fun hlow => hone hlow.1]
    rfl

theorem flatten_map_encode (items : List Rlp.Item) :
    (items.map Rlp.encode).flatten = Rlp.encodeItems items := by
  induction items with
  | nil => rfl
  | cons i items ih => rw [List.map_cons, List.flatten_cons, ih, Rlp.encodeItems]

/-- A list is encoded from the encodings of its items. -/
theorem encodeList_eq {items : List Rlp.Item} (h : (Rlp.encodeItems items).length < 256 ^ 8) :
    encodeList (items.map Rlp.encode) = Rlp.encode (.list items) := by
  rw [encodeList, ← List.length_flatten, flatten_map_encode, encodeLength_eq h, Rlp.encode]
  rfl

theorem encodeUint_eq (value : BitVec 128) : encodeUint value = Rlp.encode (.uint value.toNat) := by
  have hlt := value.isLt
  rw [encodeUint, Rlp.Item.uint]
  split_ifs with hzero
  · rw [hzero, show minBytes (0 : BitVec 128).toNat = [] from minBytes_zero]
    exact encodeBytes_eq (by simp)
  · have hval : beNat (beBytes 16 value.toNat) = value.toNat := beNat_beBytes_of_lt (by omega)
    have hne : beNat (beBytes 16 value.toNat) ≠ 0 := by
      rw [hval]
      exact fun h0 => hzero (BitVec.eq_of_toNat_eq h0)
    have hlen : (minBytes value.toNat).length ≤ 16 := length_minBytes_le (by omega)
    simp only [drop_findIdx hne, hval]
    exact encodeBytes_eq (by omega)

theorem stripLeadingZerosUint_eq {bytes : List UInt8} (hlen : bytes.length < 256 ^ 8)
    (h : beNat bytes ≠ 0) :
    stripLeadingZerosUint bytes = Rlp.encode (.uint (beNat bytes)) := by
  have hlt := beNat_lt bytes
  rw [stripLeadingZerosUint, drop_findIdx h,
    encodeBytes_eq ((length_minBytes_le hlt).trans_lt hlen)]
  rfl

/-! ## Transactions as items -/

open Rlp (Item)

/-- The fields of a signed transaction, as a reader of the chain sees them. -/
structure SignedFields where
  chainId : ℕ
  nonce : ℕ
  maxPriorityFeePerGas : ℕ
  maxFeePerGas : ℕ
  gasLimit : ℕ
  toAddress : List UInt8
  value : ℕ
  data : List UInt8
  accessList : List Item
  v : ℕ
  r : ℕ
  s : ℕ

/-- The strict reader of the twelve items: numbers have no leading zeros. -/
def SignedFields.ofItems : List Item → Option SignedFields
  | [chainId, nonce, maxPriorityFeePerGas, maxFeePerGas, gasLimit, .bytes toAddress, value,
      .bytes data, .list accessList, v, r, s] => do
    let chainId ← chainId.asUint
    let nonce ← nonce.asUint
    let maxPriorityFeePerGas ← maxPriorityFeePerGas.asUint
    let maxFeePerGas ← maxFeePerGas.asUint
    let gasLimit ← gasLimit.asUint
    let value ← value.asUint
    let v ← v.asUint
    let r ← r.asUint
    let s ← s.asUint
    pure ⟨chainId, nonce, maxPriorityFeePerGas, maxFeePerGas, gasLimit, toAddress, value, data,
      accessList, v, r, s⟩
  | _ => none

/-- The words `r` and `s` of a signature, and its parity `v`. -/
def sigR (sig : Bytes ethTxSigSize) : ℕ := beNat (sig.toList.take 32)

def sigS (sig : Bytes ethTxSigSize) : ℕ := beNat ((sig.toList.drop 32).take 32)

def sigV (sig : Bytes ethTxSigSize) : ℕ := beNat (sig.toList.drop 64)

namespace Eip1559Tx

variable (tx : Eip1559Tx)

/-- The items that are signed. -/
def items : List Item := [
  .uint tx.chainId.toNat,
  .uint tx.nonce.toNat,
  .uint tx.maxPriorityFeePerGas.toNat,
  .uint tx.maxFeePerGas.toNat,
  .uint tx.gasLimit.toNat,
  .bytes tx.toAddress.toList,
  .uint tx.value.toNat,
  .bytes tx.data,
  .list []]

/-- The fields of the transaction with a signature. -/
def signedFields (sig : Bytes ethTxSigSize) : SignedFields where
  chainId := tx.chainId.toNat
  nonce := tx.nonce.toNat
  maxPriorityFeePerGas := tx.maxPriorityFeePerGas.toNat
  maxFeePerGas := tx.maxFeePerGas.toNat
  gasLimit := tx.gasLimit.toNat
  toAddress := tx.toAddress.toList
  value := tx.value.toNat
  data := tx.data
  accessList := []
  v := sigV sig
  r := sigR sig
  s := sigS sig

/-- The items that are sent. -/
def signedItems (sig : Bytes ethTxSigSize) : List Item :=
  tx.items ++ [.uint (sigV sig), .uint (sigR sig), .uint (sigS sig)]

theorem ofItems_signedItems (sig : Bytes ethTxSigSize) :
    SignedFields.ofItems (tx.signedItems sig) = some (tx.signedFields sig) := by
  simp [signedItems, items, SignedFields.ofItems, signedFields]

theorem toNat_ofNat_u64 (n : UInt64) : (BitVec.ofNat 128 n.toNat).toNat = n.toNat := by
  have hn := n.toNat_lt
  rw [BitVec.toNat_ofNat, Nat.mod_eq_of_lt (hn.trans (by omega))]

theorem unsignedItems_eq : tx.unsignedItems = tx.items.map Rlp.encode := by
  have hdata : tx.data.length < 256 ^ 8 := tx.length_data.trans (by omega)
  have hto : tx.toAddress.toList.length < 256 ^ 8 := by simp
  simp only [unsignedItems, items, encodeUint_eq, toNat_ofNat_u64, encodeBytes_eq hdata,
    encodeBytes_eq hto, List.map_cons, List.map_nil]
  rfl

theorem length_encode_uint_le {n k : ℕ} (h : n < 256 ^ k) (hk : k < 256) :
    (Rlp.encode (.uint n)).length ≤ k + 9 := by
  have hlen := length_minBytes_le h
  have := Rlp.length_encode_bytes_le (b := minBytes n) (by omega)
  exact this.trans (by omega)

theorem sigR_lt (sig : Bytes ethTxSigSize) : sigR sig < 256 ^ 32 := by
  refine (beNat_lt _).trans_le (Nat.pow_le_pow_right (by omega) ?_)
  exact List.length_take_le 32 sig.toList

theorem sigS_lt (sig : Bytes ethTxSigSize) : sigS sig < 256 ^ 32 := by
  refine (beNat_lt _).trans_le (Nat.pow_le_pow_right (by omega) ?_)
  exact List.length_take_le 32 (sig.toList.drop 32)

theorem sigV_lt (sig : Bytes ethTxSigSize) : sigV sig < 256 ^ 1 := by
  refine (beNat_lt _).trans_le (Nat.pow_le_pow_right (by omega) ?_)
  simp [ethTxSigSize]

/-- The signed payload fits in a `usize`. -/
theorem length_signedItems (sig : Bytes ethTxSigSize) :
    (Rlp.encodeItems (tx.signedItems sig)).length < 256 ^ 8 := by
  have hchain := length_encode_uint_le (k := 8) (n := tx.chainId.toNat) tx.chainId.toNat_lt
    (by omega)
  have hnonce := length_encode_uint_le (k := 8) (n := tx.nonce.toNat) tx.nonce.toNat_lt (by omega)
  have hgas := length_encode_uint_le (k := 8) (n := tx.gasLimit.toNat) tx.gasLimit.toNat_lt
    (by omega)
  have hprio := length_encode_uint_le (k := 16) (n := tx.maxPriorityFeePerGas.toNat)
    tx.maxPriorityFeePerGas.isLt (by omega)
  have hfee := length_encode_uint_le (k := 16) (n := tx.maxFeePerGas.toNat) tx.maxFeePerGas.isLt
    (by omega)
  have hvalue := length_encode_uint_le (k := 16) (n := tx.value.toNat) tx.value.isLt (by omega)
  have hto := Rlp.length_encode_bytes_le (b := tx.toAddress.toList) (by simp)
  have hdata := Rlp.length_encode_bytes_le (b := tx.data) (tx.length_data.trans (by omega))
  have hr := length_encode_uint_le (sigR_lt sig) (by omega)
  have hs := length_encode_uint_le (sigS_lt sig) (by omega)
  have hv := length_encode_uint_le (sigV_lt sig) (by omega)
  have hlen := tx.length_data
  have hlist : (Rlp.encode (.list [])).length = 1 := rfl
  rw [tx.toAddress.length_toList] at hto
  simp only [signedItems, items, List.cons_append, List.nil_append, Rlp.encodeItems,
    List.length_append, List.length_nil, hlist]
  omega

theorem length_items : (Rlp.encodeItems tx.items).length < 256 ^ 8 := by
  have h := tx.length_signedItems (.replicate ethTxSigSize 0)
  simp only [signedItems, Rlp.encodeItems_append, List.length_append] at h
  omega

theorem signingPayload_eq : tx.signingPayload = 0x02 :: Rlp.encode (.list tx.items) := by
  rw [signingPayload, unsignedItems_eq, encodeList_eq tx.length_items]

/-- What is sent, if the signature has no zero in it. -/
theorem encodeSigned_eq {sig : Bytes ethTxSigSize} (hr : sigR sig ≠ 0) (hs : sigS sig ≠ 0) :
    tx.encodeSigned sig = 0x02 :: Rlp.encode (.list (tx.signedItems sig)) := by
  have hlen : sig.toList.length = 65 := sig.length_toList
  have hv : sigV sig = (sig.toList.get ⟨64, by omega⟩).toNat := by
    rw [sigV, List.drop_eq_getElem_cons (show 64 < sig.toList.length by omega),
      List.drop_of_length_le (by omega)]
    simp [beNat]
  have hrlen : (sig.toList.take 32).length < 256 ^ 8 := by
    rw [List.length_take]
    omega
  have hslen : ((sig.toList.drop 32).take 32).length < 256 ^ 8 := by
    rw [List.length_take]
    omega
  have hparity : (BitVec.ofNat 128 (sigV sig)).toNat = sigV sig := by
    have := sigV_lt sig
    rw [BitVec.toNat_ofNat, Nat.mod_eq_of_lt (by omega)]
  rw [encodeSigned, ← hv, unsignedItems_eq, encodeUint_eq, hparity,
    stripLeadingZerosUint_eq hrlen hr, stripLeadingZerosUint_eq hslen hs,
    ← encodeList_eq (tx.length_signedItems sig), signedItems,
    List.map_append]
  rfl

/-- The items determine the transaction. -/
theorem items_injective : Function.Injective items := by
  intro tx tx' h
  simp only [items, List.cons.injEq, Item.uint_injective.eq_iff, Item.bytes.injEq, UInt64.toNat_inj,
    BitVec.toNat_inj, and_true] at h
  cases tx
  cases tx'
  simp only [Eip1559Tx.mk.injEq, Bytes.ext_iff]
  exact h

theorem signingPayload_injective : Function.Injective signingPayload := by
  intro tx tx' h
  rw [signingPayload_eq, signingPayload_eq] at h
  have hread := Rlp.decode_encode (i := .list tx.items) tx.length_items []
  rw [(List.cons.inj h).2, Rlp.decode_encode (i := .list tx'.items) tx'.length_items] at hread
  simp only [Option.some.injEq, Prod.mk.injEq, Item.list.injEq, and_true] at hread
  exact items_injective hread.symm

/-- **The encoding is canonical**: what a node sends for a transaction is a type byte and one list,
which the strict reader accepts and whose twelve items are the fields of the transaction and of
the signature; what it signs is the type byte and the list of the first nine of these items, and
no other transaction has that payload. -/
theorem encodeSigned_canonical (sig : Bytes ethTxSigSize) (hr : sigR sig ≠ 0) (hs : sigS sig ≠ 0) :
    ∃ items rlp payload, items.length = 12 ∧
      tx.encodeSigned sig = 0x02 :: rlp ∧ Rlp.decode rlp = some (.list items, []) ∧
      SignedFields.ofItems items = some (tx.signedFields sig) ∧
      tx.signingPayload = 0x02 :: payload ∧
      Rlp.decode payload = some (.list (items.take 9), []) ∧
      ∀ tx', signingPayload tx' = tx.signingPayload → tx' = tx := by
  have hsigned := Rlp.decode_encode (i := .list (tx.signedItems sig)) (tx.length_signedItems sig) []
  have hunsigned := Rlp.decode_encode (i := .list tx.items) tx.length_items []
  rw [List.append_nil] at hsigned hunsigned
  exact ⟨tx.signedItems sig, _, _, rfl, tx.encodeSigned_eq hr hs, hsigned,
    tx.ofItems_signedItems sig, tx.signingPayload_eq, hunsigned,
    fun tx' h => signingPayload_injective h⟩

/-- A transfer without calldata, with a signature whose words are one. -/
theorem encodeSigned_transfer :
    let tx : Eip1559Tx := ⟨84532, 0, 1000000, 5000000, 21000, .replicate 20 0x11, 0, [], by decide⟩
    let sig : Bytes ethTxSigSize :=
      ⟨List.replicate 31 0 ++ [1] ++ List.replicate 31 0 ++ [1] ++ [0], by decide⟩
    ∃ items rlp payload, items.length = 12 ∧
      tx.encodeSigned sig = 0x02 :: rlp ∧ Rlp.decode rlp = some (.list items, []) ∧
      SignedFields.ofItems items = some (tx.signedFields sig) ∧
      tx.signingPayload = 0x02 :: payload ∧
      Rlp.decode payload = some (.list (items.take 9), []) ∧
      ∀ tx', signingPayload tx' = tx.signingPayload → tx' = tx :=
  encodeSigned_canonical _ _ (by decide) (by decide)

end Eip1559Tx

example : (⟨84532, 7, 1, 2, 100000, .replicate 20 0x22, 0, [0xde, 0xad], by decide⟩ :
    Eip1559Tx).signingPayload.take 4 = [0x02, 0xe5, 0x83, 0x01] := by decide

end Flodex.Eth
