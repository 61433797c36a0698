import Flodex.Contracts.NodeRegistry
import Flodex.Foundations.Abi
import Flodex.Node.Channels

/-!
# Registering on-chain

A node registers itself with a transaction to the `NodeRegistry`, whose data it lays out by hand:
`encodeRegister` and `encodeUpdate`, with its backends as a bitmap and its prices as an array.

`registered_as_billed` says that the contract decodes what the node encoded, and that the record it
then stores has the backends of the node and the prices that its receipts are computed with.
-/

namespace Flodex.Eth.Registry

open Text

/-! ## The encoder -/

/-- First 4 bytes of the hash of a signature. -/
def selector (crypto : Crypto) (signature : String) : List UInt8 :=
  (crypto.keccak256 (utf8 signature.toList)).toList.take 4

/-- `pad_left`, which asserts that there are at most 32 bytes. -/
def padLeft (bytes : List UInt8) : List UInt8 := .replicate (32 - bytes.length) 0 ++ bytes

/-- `encode_uint` of a `u128`. -/
def encodeUint (value : ℕ) : List UInt8 := padLeft (beBytes 16 value)

def encodeString (s : String) : List UInt8 :=
  let bytes := utf8 s.toList
  let pad := (32 - bytes.length % 32) % 32
  encodeUint bytes.length ++ bytes ++ .replicate pad 0

def registerSignature : String := "register(string,bytes32,uint8,uint64,uint256[4],uint256)"

def updateSignature : String := "update(string,bytes32,uint8,uint64,uint256[4])"

variable (crypto : Crypto)

def encodeRegister (url : String) (ecdhPubkey : Bytes32) (backendBitmap : UInt8)
    (maxTokens : UInt64) (pricePer1k : Vector Bytes32 4) (stake : Bytes32) : List UInt8 :=
  let urlOffset := 9 * 32
  selector crypto registerSignature ++ encodeUint urlOffset ++ ecdhPubkey.toList ++
    encodeUint backendBitmap.toNat ++ encodeUint maxTokens.toNat ++
    pricePer1k.toList.flatMap Bytes.toList ++ stake.toList ++ encodeString url

def encodeUpdate (url : String) (ecdhPubkey : Bytes32) (backendBitmap : UInt8)
    (maxTokens : UInt64) (pricePer1k : Vector Bytes32 4) : List UInt8 :=
  let urlOffset := 8 * 32
  selector crypto updateSignature ++ encodeUint urlOffset ++ ecdhPubkey.toList ++
    encodeUint backendBitmap.toNat ++ encodeUint maxTokens.toNat ++
    pricePer1k.toList.flatMap Bytes.toList ++ encodeString url

/-! ## Backends and prices -/

/-- The place of the price of a backend. -/
def pricingIndex : BackendType → Fin 4
  | .MockTee => 0
  | .Fhe => 1
  | .Mcp => 2
  | .Local => 3

/-- `out[idx][16..].copy_from_slice(&units.to_be_bytes())`. -/
def copyLow (w : Bytes32) (units : ℕ) : Bytes32 :=
  ⟨w.toList.take 16 ++ beBytes 16 units, by simp⟩

/-- One entry of the pricing. -/
def setPrice (out : Vector Bytes32 4) (p : BackendPrice) : Except String (Vector Bytes32 4) := do
  let idx := pricingIndex p.backend
  let units ← orThrow (parseUnsigned (2 ^ 128) p.pricePer1k.toList)
    ("invalid price_per_1k: " ++ p.pricePer1k)
  pure (out.set idx (copyLow (out.get idx) units))

def pricingToArray (pricing : List BackendPrice) : Except String (Vector Bytes32 4) :=
  pricing.foldlM setPrice (.replicate 4 (.replicate 32 0))

/-- The bit of a backend. -/
def bitmapIndex : BackendType → UInt8
  | .MockTee => 0
  | .Fhe => 1
  | .Mcp => 2
  | .Local => 3

def backendBitmap (backends : List BackendType) : UInt8 :=
  backends.foldl (fun bm b => bm ||| 1 <<< bitmapIndex b) 0

/-! ## The decoder -/

open NodeRegistry (Metadata Backend)

/-- The metadata in front of the arguments of a call, and the arguments behind it. -/
def metadataOf : List Abi.Arg → Option (Metadata × List Abi.Arg)
  | .string url :: .bytes32 ecdhPubkey :: .uint backendBitmap :: .uint maxTokens ::
      .uints pricePer1k :: rest =>
    if h : pricePer1k.length = NodeRegistry.backendCount then
      some (⟨url, ecdhPubkey, .ofNat backendBitmap, .ofNat maxTokens,
        ⟨(pricePer1k.map (BitVec.ofNat 256)).toArray, by simpa using h⟩⟩, rest)
    else none
  | _ => none

/-- The types of the metadata. -/
def metadataTypes : List Abi.Ty := [.string, .bytes32, .uint 8, .uint 64, .uints 4 256]

/-- The arguments of the types behind a selector. -/
def decodeArguments (signature : String) (types : List Abi.Ty) (data : List UInt8) :
    Option (List Abi.Arg) :=
  if data.take 4 = selector crypto signature then Abi.decode types (data.drop 4) else none

/-- The call of `register` in the data of a transaction. -/
def decodeRegister (data : List UInt8) : Option NodeRegistry.Call :=
  match (decodeArguments crypto registerSignature (metadataTypes ++ [.uint 256]) data).bind
    metadataOf with
  | some (m, [.uint stake]) => some (.register m (.ofNat 256 stake))
  | _ => none

/-- The call of `update` in the data of a transaction. -/
def decodeUpdate (data : List UInt8) : Option NodeRegistry.Call :=
  match (decodeArguments crypto updateSignature metadataTypes data).bind metadataOf with
  | some (m, []) => some (.update m)
  | _ => none

/-- The backend of the contract with the name of one of the node. -/
def backendOf : BackendType → Backend
  | .MockTee => .MockTee
  | .Fhe => .Fhe
  | .Mcp => .Mcp
  | .Local => .Local

/-! ## What is encoded -/

/-- The metadata of a node as arguments of a call. -/
def metadataArgs (url : String) (ecdhPubkey : Bytes32) (backendBitmap : UInt8) (maxTokens : UInt64)
    (pricePer1k : Vector Bytes32 4) : List Abi.Arg :=
  [.string (utf8 url.toList), .bytes32 ecdhPubkey, .uint backendBitmap.toNat,
    .uint maxTokens.toNat, .uints (pricePer1k.toList.map fun w => beNat w.toList)]

/-- The metadata of a node as the contract has it. -/
def metadata (url : String) (ecdhPubkey : Bytes32) (backendBitmap : UInt8) (maxTokens : UInt64)
    (pricePer1k : Vector Bytes32 4) : Metadata :=
  ⟨utf8 url.toList, ecdhPubkey, backendBitmap, maxTokens,
    pricePer1k.map fun w => .ofNat 256 (beNat w.toList)⟩

variable {crypto} {url : String} {ecdhPubkey stake : Bytes32} {bitmap : UInt8} {maxTokens : UInt64}
  {prices : Vector Bytes32 4} {n : ℕ}

theorem encodeUint_eq (h : n < 2 ^ 128) : encodeUint n = Abi.word n := by
  have h' : n < 256 ^ 16 := h
  rw [Abi.word, encodeUint, padLeft, length_beBytes, ← beBytes_add 16 h']

theorem toList_eq_word (w : Bytes32) : w.toList = Abi.word (beNat w.toList) := by
  have hw := beBytes_beNat w.toList
  rw [w.length_toList] at hw
  exact hw.symm

theorem flatMap_toList (ws : List Bytes32) : ws.flatMap Bytes.toList =
    (ws.map fun w => beNat w.toList).flatMap Abi.word := by
  rw [List.flatMap_map]
  exact List.flatMap_congr fun w _ => toList_eq_word w

/-- The string is encoded as its tail. -/
theorem encodeString_eq (h : (utf8 url.toList).length < 2 ^ 63) :
    encodeString url = (Abi.Arg.string (utf8 url.toList)).tail := by
  rw [encodeString, encodeUint_eq (by omega), List.append_assoc]
  rfl

/-- **The layout of `register`** is the encoding of its arguments. -/
theorem encodeRegister_eq (h : (utf8 url.toList).length < 2 ^ 63) :
    encodeRegister crypto url ecdhPubkey bitmap maxTokens prices stake =
      selector crypto registerSignature ++
        Abi.encode (metadataArgs url ecdhPubkey bitmap maxTokens prices ++
          [.uint (beNat stake.toList)]) := by
  have hbitmap := bitmap.toNat_lt
  have htokens := maxTokens.toNat_lt
  rw [encodeRegister, encodeUint_eq (by omega), encodeUint_eq (by omega), encodeUint_eq (by omega),
    encodeString_eq h, flatMap_toList]
  simp [Abi.encode, metadataArgs, Abi.heads, Abi.headSize, Abi.tails, Abi.Arg.head, Abi.Arg.tail,
    Abi.Arg.headSize, ← toList_eq_word]

/-- **The layout of `update`** is the encoding of its arguments. -/
theorem encodeUpdate_eq (h : (utf8 url.toList).length < 2 ^ 63) :
    encodeUpdate crypto url ecdhPubkey bitmap maxTokens prices =
      selector crypto updateSignature ++
        Abi.encode (metadataArgs url ecdhPubkey bitmap maxTokens prices) := by
  have hbitmap := bitmap.toNat_lt
  have htokens := maxTokens.toNat_lt
  rw [encodeUpdate, encodeUint_eq (by omega), encodeUint_eq (by omega), encodeUint_eq (by omega),
    encodeString_eq h, flatMap_toList]
  simp [Abi.encode, metadataArgs, Abi.heads, Abi.headSize, Abi.tails, Abi.Arg.head, Abi.Arg.tail,
    Abi.Arg.headSize]

/-! ## What is decoded -/

theorem beNat_lt_word (w : Bytes32) : beNat w.toList < 2 ^ 256 := by
  have h := beNat_lt w.toList
  rw [w.length_toList] at h
  exact h

theorem hasTy_metadataArgs (h : (utf8 url.toList).length < 2 ^ 63) :
    List.Forall₂ Abi.Arg.HasTy (metadataArgs url ecdhPubkey bitmap maxTokens prices)
      metadataTypes := by
  have hurl : (utf8 url.toList).length < 2 ^ 64 := by omega
  have hprices : ∀ x ∈ prices.toList.map fun w => beNat w.toList, x < 2 ^ 256 := by
    intro x hx
    obtain ⟨w, -, rfl⟩ := List.mem_map.1 hx
    exact beNat_lt_word w
  exact .cons hurl (.cons trivial (.cons ⟨bitmap.toNat_lt, by decide⟩
    (.cons ⟨maxTokens.toNat_lt, by decide⟩ (.cons ⟨by simp, hprices, by decide⟩ .nil))))

/-- The arguments of a call, behind its selector. -/
theorem decodeArguments_encode {signature : String} {args : List Abi.Arg} {types : List Abi.Ty}
    (hargs : List.Forall₂ Abi.Arg.HasTy args types) (hsize : (Abi.encode args).length < 2 ^ 64) :
    decodeArguments crypto signature types (selector crypto signature ++ Abi.encode args) =
      some args := by
  have hselector : (selector crypto signature).length = 4 := by simp [selector]
  have hdecode := Abi.decode_encode hargs hsize []
  rw [List.append_nil] at hdecode
  rw [decodeArguments, if_pos (List.take_left' hselector), List.drop_left' hselector, hdecode]

theorem metadataOf_args (rest : List Abi.Arg) :
    metadataOf (metadataArgs url ecdhPubkey bitmap maxTokens prices ++ rest) =
      some (metadata url ecdhPubkey bitmap maxTokens prices, rest) := by
  simp only [metadataArgs, List.cons_append, List.nil_append, metadataOf]
  rw [dif_pos (by simp [NodeRegistry.backendCount]), UInt8.ofNat_toNat, UInt64.ofNat_toNat]
  have hprices : (⟨((prices.toList.map fun w => beNat w.toList).map (BitVec.ofNat 256)).toArray,
      by simp [NodeRegistry.backendCount]⟩ : Vector (BitVec 256) NodeRegistry.backendCount) =
      prices.map fun w => .ofNat 256 (beNat w.toList) := by
    apply Vector.toArray_inj.1
    apply Array.toList_inj.1
    rw [Vector.toArray_map, Array.toList_map]
    exact List.map_map
  rw [hprices]
  rfl

theorem length_encode_metadataArgs (h : (utf8 url.toList).length < 2 ^ 63) :
    (Abi.encode (metadataArgs url ecdhPubkey bitmap maxTokens prices)).length + 32 < 2 ^ 64 := by
  simp [Abi.length_encode, metadataArgs, Abi.headSize, Abi.tails, Abi.Arg.tail, Abi.Arg.headSize,
    Abi.padding]
  omega

/-- **The contract decodes what the node encodes** for `register`. -/
theorem decodeRegister_encodeRegister (h : (utf8 url.toList).length < 2 ^ 63) :
    decodeRegister crypto (encodeRegister crypto url ecdhPubkey bitmap maxTokens prices stake) =
      some (.register (metadata url ecdhPubkey bitmap maxTokens prices)
        (.ofNat 256 (beNat stake.toList))) := by
  have hargs : List.Forall₂ Abi.Arg.HasTy (metadataArgs url ecdhPubkey bitmap maxTokens prices ++
      [.uint (beNat stake.toList)]) (metadataTypes ++ [.uint 256]) :=
    List.rel_append (hasTy_metadataArgs h) (.cons ⟨beNat_lt_word stake, le_rfl⟩ .nil)
  have hsize : (Abi.encode (metadataArgs url ecdhPubkey bitmap maxTokens prices ++
      [.uint (beNat stake.toList)])).length < 2 ^ 64 := by
    rw [Abi.length_encode_append, Abi.length_encode [_],
      show Abi.headSize [.uint (beNat stake.toList)] = 32 from rfl,
      show Abi.tails [.uint (beNat stake.toList)] = [] from rfl]
    exact length_encode_metadataArgs h
  rw [decodeRegister, encodeRegister_eq h, decodeArguments_encode hargs hsize, Option.bind_some,
    metadataOf_args]

/-- **The contract decodes what the node encodes** for `update`. -/
theorem decodeUpdate_encodeUpdate (h : (utf8 url.toList).length < 2 ^ 63) :
    decodeUpdate crypto (encodeUpdate crypto url ecdhPubkey bitmap maxTokens prices) =
      some (.update (metadata url ecdhPubkey bitmap maxTokens prices)) := by
  have hsize : (Abi.encode (metadataArgs url ecdhPubkey bitmap maxTokens prices)).length < 2 ^ 64 :=
    lt_of_le_of_lt (Nat.le_add_right _ 32) (length_encode_metadataArgs h)
  have hargs : metadataOf (metadataArgs url ecdhPubkey bitmap maxTokens prices) =
      some (metadata url ecdhPubkey bitmap maxTokens prices, []) := by
    rw [← metadataOf_args, List.append_nil]
  rw [decodeUpdate, encodeUpdate_eq h, decodeArguments_encode (hasTy_metadataArgs h) hsize,
    Option.bind_some, hargs]

/-! ## Backends -/

theorem or_and_shift (bm : UInt8) (b b' : BackendType) :
    (bm ||| 1 <<< bitmapIndex b') &&& (1 <<< (backendOf b).toUInt8) ≠ 0 ↔
      bm &&& (1 <<< (backendOf b).toUInt8) ≠ 0 ∨ b = b' := by
  have hdistrib : (bm ||| 1 <<< bitmapIndex b') &&& (1 <<< (backendOf b).toUInt8) =
      (bm &&& (1 <<< (backendOf b).toUInt8)) |||
        ((1 <<< bitmapIndex b') &&& (1 <<< (backendOf b).toUInt8)) := by
    apply UInt8.toBitVec_inj.1
    exact BitVec.and_or_distrib_right
  have hbits : (1 <<< bitmapIndex b') &&& (1 <<< (backendOf b).toUInt8) = 0 ↔ b ≠ b' := by
    cases b <;> cases b' <;> decide
  rw [hdistrib, Ne, UInt8.or_eq_zero_iff, hbits, not_and_or, not_not]

theorem foldl_bitmap (backends : List BackendType) (bm : UInt8) (b : BackendType) :
    backends.foldl (fun bm b => bm ||| 1 <<< bitmapIndex b) bm &&&
        (1 <<< (backendOf b).toUInt8) ≠ 0 ↔
      bm &&& (1 <<< (backendOf b).toUInt8) ≠ 0 ∨ b ∈ backends := by
  induction backends generalizing bm with
  | nil => simp
  | cons b' backends ih => rw [List.foldl_cons, ih, or_and_shift, List.mem_cons, or_assoc]

/-- **The bitmap has the bits of the backends**, at the places where the contract looks. -/
theorem backendBitmap_spec (backends : List BackendType) (b : BackendType) :
    backendBitmap backends &&& (1 <<< (backendOf b).toUInt8) ≠ 0 ↔ b ∈ backends := by
  rw [backendBitmap, foldl_bitmap, UInt8.zero_and]
  simp

/-! ## Prices -/

/-- The price in a slot of the array. -/
def priceAt (out : Vector Bytes32 4) (b : BackendType) : ℕ :=
  beNat (out.get (pricingIndex b)).toList

/-- The upper half of every slot is zero. -/
def Narrow (out : Vector Bytes32 4) : Prop := ∀ i, (out.get i).toList.take 16 = .replicate 16 0

theorem pricingIndex_injective : Function.Injective pricingIndex := by
  intro b b' h
  cases b <;> cases b' <;> first | rfl | cases h

theorem get_set (out : Vector Bytes32 4) (i j : Fin 4) (w : Bytes32) :
    (out.set i w).get j = if i = j then w else out.get j := by
  change (out.set i w)[j.1] = if i = j then w else out[j.1]
  simp only [Vector.getElem_set, Fin.ext_iff]

/-- A slot of which the lower half is written. -/
theorem beNat_copyLow {w : Bytes32} {units : ℕ} (hw : w.toList.take 16 = .replicate 16 0)
    (hunits : units < 2 ^ 128) : beNat (copyLow w units).toList = units := by
  have hunits' : units < 256 ^ 16 := hunits
  change beNat (w.toList.take 16 ++ beBytes 16 units) = units
  rw [hw, ← beBytes_add 16 hunits']
  exact beNat_beBytes_of_lt (lt_trans hunits' (by decide))

/-- What an entry of the pricing does to the array. -/
theorem setPrice_spec {out : Vector Bytes32 4} {p : BackendPrice} {units : ℕ} (hout : Narrow out)
    (hunits : parseUnsigned (2 ^ 128) p.pricePer1k.toList = some units) :
    ∃ out', setPrice out p = .ok out' ∧ Narrow out' ∧
      ∀ b, priceAt out' b = if b = p.backend then units else priceAt out b := by
  refine ⟨out.set (pricingIndex p.backend) (copyLow (out.get (pricingIndex p.backend)) units),
    ?_, fun i => ?_, fun b => ?_⟩
  · simp only [setPrice, hunits]
    rfl
  · rw [get_set]
    split_ifs
    · change ((out.get (pricingIndex p.backend)).toList.take 16 ++ beBytes 16 units).take 16 = _
      rw [hout, List.take_left' List.length_replicate]
    · exact hout i
  · rw [priceAt, get_set]
    by_cases hb : b = p.backend
    · rw [if_pos (congrArg _ hb.symm), if_pos hb, beNat_copyLow (hout _) (parseUnsigned_lt hunits)]
    · rw [if_neg fun h => hb (pricingIndex_injective h).symm, if_neg hb, priceAt]

/-- **The array has the prices** of a pricing with one entry for a backend at most. -/
theorem pricingToArray_spec {pricing : List BackendPrice} {out : Vector Bytes32 4}
    (hout : Narrow out) (hnodup : (pricing.map BackendPrice.backend).Nodup)
    (hparses : ∀ p ∈ pricing, (parseUnsigned (2 ^ 128) p.pricePer1k.toList).isSome) :
    ∃ out', pricing.foldlM setPrice out = .ok out' ∧
      ∀ b, priceAt out' b = if b ∈ pricing.map BackendPrice.backend then Node.priceFor pricing b
        else priceAt out b := by
  induction pricing generalizing out with
  | nil => exact ⟨out, rfl, fun b => by simp⟩
  | cons p pricing ih =>
    rw [List.forall_mem_cons] at hparses
    rw [List.map_cons, List.nodup_cons] at hnodup
    obtain ⟨units, hunits⟩ := Option.isSome_iff_exists.1 hparses.1
    obtain ⟨out₁, hset, hout₁, hprice⟩ := setPrice_spec hout hunits
    obtain ⟨out', hfold, hprices⟩ := ih hout₁ hnodup.2 hparses.2
    refine ⟨out', ?_, fun b => ?_⟩
    · rw [List.foldlM_cons, hset]
      exact hfold
    · rw [hprices, hprice]
      by_cases hb : b = p.backend
      · subst hb
        rw [if_neg hnodup.1, if_pos rfl, if_pos (by simp), Node.priceFor,
          List.find?_cons_of_pos (by simp), Option.bind_some, hunits, Option.getD_some]
      · have hfor : Node.priceFor (p :: pricing) b = Node.priceFor pricing b := by
          rw [Node.priceFor, Node.priceFor, List.find?_cons_of_neg (by simpa using Ne.symm hb)]
        have hmem : b ∈ (p :: pricing).map BackendPrice.backend ↔
            b ∈ pricing.map BackendPrice.backend := by
          rw [List.map_cons, List.mem_cons, or_iff_right hb]
        simp only [hfor, hmem, if_neg hb]

theorem priceFor_of_not_mem {pricing : List BackendPrice} {b : BackendType}
    (h : b ∉ pricing.map BackendPrice.backend) : Node.priceFor pricing b = 0 := by
  have hnone : pricing.find? (fun p => p.backend = b) = none := by
    rw [List.find?_eq_none]
    intro p hp hb
    exact h (List.mem_map.2 ⟨p, hp, by simpa using hb⟩)
  rw [Node.priceFor, hnone]
  rfl

/-- **The array has the prices that receipts are computed with.** -/
theorem exists_pricingToArray {pricing : List BackendPrice}
    (hnodup : (pricing.map BackendPrice.backend).Nodup)
    (hparses : ∀ p ∈ pricing, (parseUnsigned (2 ^ 128) p.pricePer1k.toList).isSome) :
    ∃ prices, pricingToArray pricing = .ok prices ∧
      ∀ b, priceAt prices b = Node.priceFor pricing b := by
  have hget : ∀ i, (Vector.replicate 4 (Bytes.replicate 32 0)).get i = .replicate 32 0 :=
    fun i => Vector.getElem_replicate i.2
  have hzero : Narrow (.replicate 4 (.replicate 32 0)) := fun i => by rw [hget]; rfl
  obtain ⟨prices, hprices, hspec⟩ := pricingToArray_spec hzero hnodup hparses
  refine ⟨prices, hprices, fun b => ?_⟩
  rw [hspec]
  split_ifs with hb
  · rfl
  · rw [priceFor_of_not_mem hb, priceAt, hget]
    rfl

/-! ## The record -/

/-- The price that the contract finds is the one in the slot. -/
theorem priceFor_metadata {s : NodeRegistry.State} {node : Address}
    (hnode : (s.nodes node).toMetadata = metadata url ecdhPubkey bitmap maxTokens prices)
    (b : BackendType) :
    (NodeRegistry.priceFor s node (backendOf b)).toNat = priceAt prices b := by
  have hindex : (⟨(backendOf b).toUInt8.toNat, (backendOf b).toUInt8_lt⟩ : Fin 4) =
      pricingIndex b := by
    cases b <;> rfl
  have hprice : NodeRegistry.priceFor s node (backendOf b) =
      .ofNat 256 (beNat (prices.get (pricingIndex b)).toList) := by
    rw [NodeRegistry.priceFor, hnode, ← hindex]
    exact Vector.getElem_map _ _
  rw [hprice, BitVec.toNat_ofNat, Nat.mod_eq_of_lt (beNat_lt_word _), priceAt]

/-- What a call with the metadata of a node stores. -/
theorem toMetadata_of_exec {cfg : NodeRegistry.Config} {s s' : NodeRegistry.State}
    {sender : Address} {log : NodeRegistry.Log} {m : Metadata} {call : NodeRegistry.Call}
    (hcall : call = .update m ∨ ∃ stake, call = .register m stake)
    (hexec : call.exec cfg s sender = .ok (s', log)) : (s'.nodes sender).toMetadata = m := by
  have hsuccess := NodeRegistry.Call.exec_eq_ok.1 hexec
  obtain rfl | ⟨stake, rfl⟩ := hcall
  · cases hsuccess with
    | update =>
      change (Function.update s.nodes sender _ sender).toMetadata = m
      rw [Function.update_self]
  · cases hsuccess with
    | register =>
      change (Function.update s.nodes sender _ sender).toMetadata = m
      rw [Function.update_self]

/-- **What the node registers is what the contract stores and what the node bills**: the contract
decodes the data of `register` and of `update` to what the node advertises, laid out as its
arguments are encoded; and after such a call it supports the backends of the node, at the prices of
its receipts. A string has less than `2 ^ 63` bytes. -/
theorem registered_as_billed {backends : List BackendType} {pricing : List BackendPrice}
    (hurl : (utf8 url.toList).length < 2 ^ 63)
    (hnodup : (pricing.map BackendPrice.backend).Nodup)
    (hparses : ∀ p ∈ pricing, (parseUnsigned (2 ^ 128) p.pricePer1k.toList).isSome) :
    ∃ prices, pricingToArray pricing = .ok prices ∧
      encodeRegister crypto url ecdhPubkey (backendBitmap backends) maxTokens prices stake =
        selector crypto registerSignature ++ Abi.encode
          (metadataArgs url ecdhPubkey (backendBitmap backends) maxTokens prices ++
            [.uint (beNat stake.toList)]) ∧
      decodeRegister crypto
        (encodeRegister crypto url ecdhPubkey (backendBitmap backends) maxTokens prices stake) =
        some (.register (metadata url ecdhPubkey (backendBitmap backends) maxTokens prices)
          (.ofNat 256 (beNat stake.toList))) ∧
      encodeUpdate crypto url ecdhPubkey (backendBitmap backends) maxTokens prices =
        selector crypto updateSignature ++
          Abi.encode (metadataArgs url ecdhPubkey (backendBitmap backends) maxTokens prices) ∧
      decodeUpdate crypto
        (encodeUpdate crypto url ecdhPubkey (backendBitmap backends) maxTokens prices) =
        some (.update (metadata url ecdhPubkey (backendBitmap backends) maxTokens prices)) ∧
      ∀ cfg s sender s' log call,
        (call = .update (metadata url ecdhPubkey (backendBitmap backends) maxTokens prices) ∨
          ∃ stake, call =
            .register (metadata url ecdhPubkey (backendBitmap backends) maxTokens prices) stake) →
        NodeRegistry.Call.exec cfg s sender call = .ok (s', log) →
        ∀ b, (NodeRegistry.supportsBackend s' sender (backendOf b) = true ↔ b ∈ backends) ∧
          (NodeRegistry.priceFor s' sender (backendOf b)).toNat = Node.priceFor pricing b := by
  obtain ⟨prices, hprices, hspec⟩ := exists_pricingToArray hnodup hparses
  refine ⟨prices, hprices, encodeRegister_eq hurl, decodeRegister_encodeRegister hurl,
    encodeUpdate_eq hurl, decodeUpdate_encodeUpdate hurl, ?_⟩
  intro cfg s sender s' log call hcall hexec b
  have hnode := toMetadata_of_exec hcall hexec
  refine ⟨?_, by rw [priceFor_metadata hnode, hspec]⟩
  rw [NodeRegistry.supportsBackend, bne_iff_ne, ← backendBitmap_spec backends b, hnode]
  rfl

/-- A node with one backend, named twice. -/
theorem registered_as_billed_local :
    ∃ prices, pricingToArray [⟨.Local, "5"⟩] = .ok prices ∧
      decodeUpdate .symbolic
        (encodeUpdate .symbolic "node" (.replicate 32 0) (backendBitmap [.Local, .Local]) 4096
          prices) =
        some (.update
          (metadata "node" (.replicate 32 0) (backendBitmap [.Local, .Local]) 4096 prices)) := by
  obtain ⟨prices, hprices, -, -, -, hupdate, -⟩ := @registered_as_billed .symbolic "node"
    (.replicate 32 0) (.replicate 32 0) 4096 [.Local, .Local] [⟨.Local, "5"⟩] (by decide)
    (by decide) (by decide)
  exact ⟨prices, hprices, hupdate⟩

end Flodex.Eth.Registry
