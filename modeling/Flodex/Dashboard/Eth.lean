import Flodex.Contracts.ChannelRuns
import Flodex.Foundations.JavaScript
import Flodex.Protocol.Canonical

/-!
# One canonical channel update in three languages

The dashboard builds the bytes that a client signs from text and integers of the browser. They are
the words that the contract hashes and the bytes that the node and the client build in Rust
(`canonical_agree`), and no other state of any channel of any contract has the same.
-/

namespace Flodex.Dashboard

open Js Text JobChannel

variable (crypto : Crypto)

/-! ## The code -/

/-- The bytes of `hexToBytes`, two code units to a byte. -/
def hexBytes : List UInt16 → List UInt8
  | c :: d :: hex => toUint8 (parseHex [c, d]) :: hexBytes hex
  | _ => []

/-- `hexToBytes`: `none` is a throw. -/
def hexToBytes (hex : List UInt16) : Option (List UInt8) :=
  if hex.length % 2 ≠ 0 then none else some (hexBytes hex)

/-- The loop of `u256BeBytes`, from the last byte to the first. -/
def beBytesLoop : ℕ → ℤ → List UInt8 → List UInt8
  | 0, _, bytes => bytes
  | i + 1, v, bytes => beBytesLoop i (v / 256) (toUint8 (some (v % 256)) :: bytes)

def u256BeBytes (n : ℤ) : List UInt8 := beBytesLoop 32 n []

/-- `channelUpdateCanonical`. -/
def channelUpdateCanonical (chainId : ℤ) (channelContract channelId : List UInt16)
    (nonce cumOwed : ℤ) : Option (List UInt8) := do
  let out := uint8Array 192
  let domain := crypto.keccak256 (utf8 "fldx-v0-channel-update".toList)
  let out ← set out domain.toList 0
  let out ← set out (u256BeBytes chainId) 32
  let contract ← hexToBytes (channelContract.drop 2)
  let out ← set out contract (64 + 12)
  let id ← hexToBytes (channelId.drop 2)
  let out ← set out id 96
  let out ← set out (u256BeBytes nonce) 128
  set out (u256BeBytes cumOwed) 160

/-- The bytes `signReceipt` signs, for the update of a receipt as `JSON.parse` reads it. -/
def signReceiptCanonical (chainId : ℕ) (channelContract : List UInt16) (update : ChannelUpdate) :
    Option (List UInt8) := do
  let cumOwed ← bigInt (utf16 update.cumOwed.toList)
  channelUpdateCanonical crypto chainId channelContract (utf16 update.channelId.toList)
    (number update.nonce.toNat) cumOwed

/-! ## What it builds -/

theorem beBytesLoop_eq (k n : ℕ) (bytes : List UInt8) :
    beBytesLoop k n bytes = beBytes k n ++ bytes := by
  induction k generalizing n bytes with
  | zero => rfl
  | succ k ih =>
    have hbyte : toUint8 (some ((n : ℤ) % 256)) = UInt8.ofNat n := by
      rw [toUint8, show (((n : ℤ) % 256) % 256).toNat = n % 256 by omega]
      exact UInt8.ofNat_mod_size
    rw [beBytesLoop, hbyte, show (n : ℤ) / 256 = ((n / 256 : ℕ) : ℤ) by omega, ih, beBytes,
      List.append_assoc]
    rfl

theorem u256BeBytes_eq (n : ℕ) : u256BeBytes n = beBytes 32 n := by
  rw [u256BeBytes, beBytesLoop_eq, List.append_nil]

theorem hexBytes_of_hexPairs : ∀ (hex : List Char) (i : ℕ) (bs : List UInt8),
    (∀ c ∈ hex, c.toNat < 128) → hexPairs i (hex.map fun c => UInt8.ofNat c.toNat) = .ok bs →
    hexBytes (hex.map fun c => UInt16.ofNat c.toNat) = bs
  | [], i, bs, _, h => by
    obtain rfl : [] = bs := by simpa [hexPairs] using h
    rfl
  | [c], i, bs, _, h => by
    obtain rfl : [] = bs := by simpa [hexPairs] using h
    rfl
  | c :: d :: hex, i, bs, hascii, h => by
    simp only [List.map_cons, hexPairs] at h
    cases hm : hexVal (UInt8.ofNat c.toNat) with
    | none => simp [hm] at h
    | some m =>
      cases hn : hexVal (UInt8.ofNat d.toNat) with
      | none => simp [hm, hn] at h
      | some n =>
        cases hp : hexPairs (i + 2) (hex.map fun c => UInt8.ofNat c.toNat) with
        | error => simp [hm, hn, hp, Except.map] at h
        | ok bs' =>
          obtain rfl : UInt8.ofNat (16 * m + n) :: bs' = bs := by
            simpa [hm, hn, hp, Except.map] using h
          have ih := hexBytes_of_hexPairs hex (i + 2) bs'
            (fun e he => hascii e (by simp [he])) hp
          rw [List.map_cons, List.map_cons, hexBytes, ih,
            parseHex_pair (hascii c (by simp)) (hascii d (by simp)) hm hn]

/-- **A hexadecimal text** that decodes has the same bytes on the dashboard. -/
theorem hexToBytes_of_hexDecode {hex : List Char} {bs : List UInt8}
    (h : hexDecode (utf8 hex) = .ok bs) : hexToBytes (utf16 hex) = some bs := by
  have hascii := ascii_of_hexDecode h
  rw [utf8_of_ascii hascii, hexDecode] at h
  split at h
  · rename_i heven
    rw [List.length_map] at heven
    rw [utf16_of_ascii hascii, hexToBytes, List.length_map, if_neg (by omega),
      hexBytes_of_hexPairs hex 0 bs hascii h]
  · simp at h

/-- Bytes are written behind a gap into what nothing was written to yet. -/
theorem set_zeros (written bytes : List UInt8) (gap k k' offset : ℕ)
    (hoffset : written.length + gap = offset) (hk : gap + bytes.length + k' = k) :
    Js.set (written ++ uint8Array k) bytes offset =
      some (written ++ (uint8Array gap ++ bytes) ++ uint8Array k') := by
  subst hoffset hk
  have hlen : (written ++ uint8Array (gap + bytes.length + k')).length =
      written.length + (gap + bytes.length + k') := by simp [uint8Array]
  have htake : (uint8Array (gap + bytes.length + k')).take gap = uint8Array gap := by
    simp [uint8Array, List.take_replicate]
    omega
  rw [Js.set, if_pos (by omega), List.take_length_add_append, htake, Nat.add_assoc,
    List.drop_length_add_append]
  simp [uint8Array, List.append_assoc]

/-- A text is `0x` and the hexadecimal digits, in any case, of the bytes. -/
def Spells (text : List Char) (bytes : List UInt8) : Prop :=
  ∃ hex, text = '0' :: 'x' :: hex ∧ hexDecode (utf8 hex) = .ok bytes

theorem hexToBytes_of_spells {text : List Char} {bytes : List UInt8} (h : Spells text bytes) :
    hexToBytes ((utf16 text).drop 2) = some bytes := by
  obtain ⟨hex, rfl, hhex⟩ := h
  rw [utf16_cons_of_ascii (by decide), utf16_cons_of_ascii (by decide)]
  exact hexToBytes_of_hexDecode hhex

variable {crypto} {cfg : JobChannel.Config} {chainId : UInt64} {id : Bytes32}
  {contractText idText : List Char} {update : ChannelUpdate} {bytes : List UInt8}

/-- **The dashboard builds the words that the contract hashes.** -/
theorem channelUpdateCanonical_eq (hcontract : Spells contractText cfg.this.toList)
    (hid : Spells idText id.toList) (nonce cumOwed : ℕ) :
    channelUpdateCanonical cfg.crypto cfg.chainid (utf16 contractText) (utf16 idText) nonce
        cumOwed =
      some (updateWords cfg id nonce cumOwed) := by
  have hid32 := id.length_toList
  have hthis := cfg.this.length_toList
  simp only [channelUpdateCanonical, hexToBytes_of_spells hcontract, hexToBytes_of_spells hid,
    u256BeBytes_eq, Option.bind_eq_bind, Option.bind_some]
  rw [← List.nil_append (uint8Array 192), set_zeros _ _ 0 192 160 0 rfl (by simp),
    Option.bind_some, set_zeros _ _ 0 160 128 32 (by simp [uint8Array]) (by simp),
    Option.bind_some, set_zeros _ _ 12 128 96 _ (by simp [uint8Array]) (by simp),
    Option.bind_some, set_zeros _ _ 0 96 64 96 (by simp [uint8Array]) (by simp),
    Option.bind_some, set_zeros _ _ 0 64 32 128 (by simp [uint8Array]) (by simp),
    Option.bind_some, set_zeros _ _ 0 32 0 160 (by simp [uint8Array]) (by simp)]
  simp only [updateWords, channelUpdateDomain, uintWord, addressWord, uint8Array,
    List.replicate_zero, List.nil_append, List.append_nil]

/-- A number below `2 ^ 53` is a double. -/
theorem number_of_lt {n : ℕ} (h : n < 2 ^ 53) : number n = n := if_pos h

/-- **A receipt is signed on the words that the contract hashes**, if its nonce is a double. -/
theorem signReceiptCanonical_eq (hcontract : Spells contractText cfg.this.toList)
    (hid : Spells update.channelId.toList id.toList) (hnonce : update.nonce.toNat < 2 ^ 53) {n : ℕ}
    (howed : update.owed = some n) :
    signReceiptCanonical cfg.crypto cfg.chainid (utf16 contractText) update =
      some (updateWords cfg id update.nonce.toNat n) := by
  rw [signReceiptCanonical, bigInt_of_parseUnsigned howed, Option.bind_eq_bind, Option.bind_some,
    number_of_lt hnonce, channelUpdateCanonical_eq hcontract hid]

/-- An amount that Rust accepts is the same number for `BigInt`. -/
theorem bigInt_of_u256BeFromDecimal {s : String} (h : u256BeFromDecimal s = .ok bytes) :
    bigInt (utf16 s.toList) = some (beNat bytes : ℤ) := by
  obtain ⟨n, hn, rfl⟩ := u256BeFromDecimal_eq_ok.1 h
  have hlt : n < 256 ^ 16 := lt_of_lt_of_eq (parseUnsigned_lt hn) (by norm_num)
  rw [bigInt_of_parseUnsigned hn, ← beBytes_add 16 hlt,
    beNat_beBytes_of_lt (hlt.trans (Nat.pow_lt_pow_right (by omega) (by omega)))]

/-- **One canonical channel update.** The contract, the node and the dashboard build the same 192
bytes from a chain id, a contract, a channel, a nonce and an amount; the wire form of an update
gives them for every spelling of the channel that is accepted and the decimal text of every amount
below `2 ^ 128`, and every amount that Rust reads is the same number on the dashboard; and no two
updates have the same bytes. -/
theorem canonical_agree (cfg : JobChannel.Config) (chainId : UInt64)
    (hchain : cfg.chainid = chainId.toNat) :
    (∀ (id : Bytes32) (nonce : UInt64) (cumOwed : BitVec 256),
      (updateWords cfg id nonce.toNat cumOwed.toNat).length = 192 ∧
      canonicalChannelUpdateBytes cfg.crypto chainId cfg.this id nonce
          (beBytes 32 cumOwed.toNat) = updateWords cfg id nonce.toNat cumOwed.toNat ∧
      ∀ contractText idText, Spells contractText cfg.this.toList → Spells idText id.toList →
        channelUpdateCanonical cfg.crypto chainId.toNat (utf16 contractText) (utf16 idText)
            nonce.toNat cumOwed.toNat =
          some (updateWords cfg id nonce.toNat cumOwed.toNat)) ∧
    (∀ (s : String) (id : Bytes32) (nonce : UInt64) (n : ℕ), channelIdFromHex s = .ok id →
      n < 2 ^ 128 → channelUpdateCanonicalFor cfg.crypto ⟨s, nonce, n.repr⟩ chainId cfg.this =
        .ok (updateWords cfg id nonce.toNat n)) ∧
    (∀ (s : String) (bytes : List UInt8), u256BeFromDecimal s = .ok bytes →
      bigInt (utf16 s.toList) = some (beNat bytes : ℤ)) ∧
    (∀ (update : ChannelUpdate) (id : Bytes32) (contractText : List Char) (n : ℕ),
      update.nonce.toNat < 2 ^ 53 → Spells contractText cfg.this.toList →
      Spells update.channelId.toList id.toList → update.owed = some n →
        signReceiptCanonical cfg.crypto chainId.toNat (utf16 contractText) update =
          some (updateWords cfg id update.nonce.toNat n)) ∧
    ∀ (cfg' : JobChannel.Config) (chainId' : UInt64), cfg'.chainid = chainId'.toNat →
      ∀ (id id' : Bytes32) (nonce nonce' : UInt64) (cumOwed cumOwed' : BitVec 256),
        updateWords cfg id nonce.toNat cumOwed.toNat =
            updateWords cfg' id' nonce'.toNat cumOwed'.toNat →
          chainId = chainId' ∧ cfg.this = cfg'.this ∧ id = id' ∧ nonce = nonce' ∧
            cumOwed = cumOwed' := by
  rw [← hchain]
  refine ⟨fun id nonce cumOwed => ⟨length_updateWords, canonicalChannelUpdateBytes_eq hchain _ _ _,
      fun contractText idText hcontract hid => channelUpdateCanonical_eq hcontract hid _ _⟩,
    fun s id nonce n hid hn => ?_, fun s bytes => bigInt_of_u256BeFromDecimal,
    fun update id contractText n hnonce hcontract hid howed =>
      signReceiptCanonical_eq hcontract hid hnonce howed, ?_⟩
  · have howed : (⟨s, nonce, n.repr⟩ : ChannelUpdate).owed = some n := parseUnsigned_repr hn
    exact channelUpdateCanonicalFor_eq hchain hid howed
  · intro cfg' chainId' hchain' id id' nonce nonce' cumOwed cumOwed' h
    have hword : ∀ k : UInt64, k.toNat < 2 ^ 256 := fun k => by
      have := k.toNat_lt
      omega
    obtain ⟨hc, hthis, hid, hnonce, howed⟩ := updateWords_inj (hchain ▸ hword chainId)
      (hchain' ▸ hword chainId') (hword nonce) (hword nonce') cumOwed.isLt cumOwed'.isLt h
    exact ⟨UInt64.toNat.inj (by omega), hthis, hid, UInt64.toNat.inj hnonce,
      BitVec.eq_of_toNat_eq howed⟩

/-- The update of a receipt, with the channel in mixed case. -/
def receiptUpdate : ChannelUpdate where
  channelId := "0xaBaBaBaBaBaBaBaBaBaBaBaBaBaBaBaBaBaBaBaBaBaBaBaBaBaBaBaBaBaBaBaB"
  nonce := 7
  cumOwed := "+040"

theorem canonical_agree_receipt :
    signReceiptCanonical Deployment.testnet.crypto 84532
        (utf16 "0x0909090909090909090909090909090909090909".toList) receiptUpdate =
      some (updateWords Deployment.testnet (.replicate 32 0xAB) 7 40) :=
  (canonical_agree Deployment.testnet 84532 rfl).2.2.2.1 receiptUpdate (.replicate 32 0xAB) _ 40
    (by decide) ⟨_, rfl, by decide +kernel⟩ ⟨_, rfl, by decide +kernel⟩ (by decide)

end Flodex.Dashboard
