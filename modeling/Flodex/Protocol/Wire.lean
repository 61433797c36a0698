import Flodex.Agent.Value
import Flodex.Crypto.Scheme
import Flodex.Foundations.Checked

/-!
# The wire types

What clients and nodes exchange, and the bytes both parties sign. `channelUpdateCanonicalFor` is
the Rust side of the layout the contract hashes.
-/

namespace Flodex

open Text

/-! ## Types -/

inductive BackendType
  | MockTee
  | Fhe
  | Mcp
  | Local
  deriving DecidableEq, Repr

/-- Token usage of one round trip. -/
structure Usage where
  inputTokens : UInt32
  outputTokens : UInt32
  cacheCreationInputTokens : Option UInt32
  cacheReadInputTokens : Option UInt32
  deriving DecidableEq, Repr

/-- The plaintext of a request. -/
inductive AgentStep
  | prompt (prompt : String)
  | toolResult (toolUseId content : String) (isError : Bool)
  deriving DecidableEq, Repr

/-- The plaintext of a response. -/
inductive AgentResponse
  | final (content : String) (usage : Usage)
  | toolCall (toolUseId name : String) (input : Value) (usage : Usage)
  deriving Repr

/-- `usage_of`. -/
def AgentResponse.usage : AgentResponse → Usage
  | .final _ usage => usage
  | .toolCall _ _ _ usage => usage

/-- What both parties sign for a round trip. -/
structure ChannelUpdate where
  channelId : String
  nonce : UInt64
  cumOwed : String
  deriving DecidableEq, Repr

/-- The client's signature on an update. -/
structure ClientAck where
  update : ChannelUpdate
  clientSig : String
  deriving DecidableEq, Repr

/-- What a round trip cost, and why. -/
structure ReceiptBreakdown where
  sessionId : String
  backend : BackendType
  usage : Usage
  pricePer1k : String
  roundTripCost : String
  deriving DecidableEq, Repr

/-- The node's signature on an update. -/
structure NodeSignedReceipt where
  update : ChannelUpdate
  breakdown : ReceiptBreakdown
  nodeSig : String
  deriving DecidableEq, Repr

structure EncryptedRequest where
  sessionId : String
  clientPublicKey : String
  nonce : String
  ciphertext : String
  backend : BackendType
  channelId : Option String
  prevAck : Option ClientAck
  deriving DecidableEq, Repr

/-- The node's price for a backend. -/
structure BackendPrice where
  backend : BackendType
  pricePer1k : String
  deriving DecidableEq, Repr

inductive RequestStatus
  | Running
  | WaitingTool
  | Final
  | Error
  deriving DecidableEq, Repr

/-- What the node publishes about a session. -/
structure RequestRecord where
  sessionId : String
  backend : BackendType
  startedAtMs : ℤ
  lastUpdateMs : ℤ
  endedAtMs : Option ℤ
  status : RequestStatus
  stepCount : ℕ
  lastToolName : Option String
  deriving DecidableEq, Repr

/-! ## Usage -/

/-- The sum of two counters, or the largest one. -/
def saturatingAdd32 (a b : UInt32) : UInt32 := UInt32.ofNat (saturatingAdd 32 a.toNat b.toNat)

def sumOpt : Option UInt32 → Option UInt32 → Option UInt32
  | none, none => none
  | some x, none => some x
  | none, some y => some y
  | some x, some y => some (saturatingAdd32 x y)

namespace Usage

/-- `Usage::default`. -/
def zero : Usage := ⟨0, 0, none, none⟩

/-- Add the usage of another provider call. -/
def add (u other : Usage) : Usage where
  inputTokens := saturatingAdd32 u.inputTokens other.inputTokens
  outputTokens := saturatingAdd32 u.outputTokens other.outputTokens
  cacheCreationInputTokens := sumOpt u.cacheCreationInputTokens other.cacheCreationInputTokens
  cacheReadInputTokens := sumOpt u.cacheReadInputTokens other.cacheReadInputTokens

end Usage

/-! ## Canonical bytes -/

/-- Why an update has no canonical bytes, or an ack is refused. -/
inductive ProtocolError
  | invalidChannelIdHex (e : FromHexError)
  | channelIdLength (got : ℕ)
  | invalidAddressHex (e : FromHexError)
  | addressLength (got : ℕ)
  | invalidDecimal (s : String)
  | ackChannelIdMismatch
  | invalidSigHex (e : FromHexError)
  | sigLength (got : ℕ)
  | recoveryFailed
  | ackSignerDiffers
  deriving DecidableEq, Repr

/-- The bytes of a hexadecimal text with or without a prefix. -/
def hexField (n : ℕ) (badHex : FromHexError → ProtocolError) (badLength : ℕ → ProtocolError)
    (s : String) : Except ProtocolError (Bytes n) :=
  match hexDecode (utf8 (stripPrefix s.toList)) with
  | .error e => .error (badHex e)
  | .ok bytes => orThrow (Bytes.ofList? n bytes) (badLength bytes.length)

/-- Parse a channel id. -/
def channelIdFromHex : String → Except ProtocolError Bytes32 :=
  hexField 32 .invalidChannelIdHex .channelIdLength

/-- `parse_addr`: parse an address. -/
def parseAddr : String → Except ProtocolError Address :=
  hexField 20 .invalidAddressHex .addressLength

/-- Decimal text to a big-endian word. -/
def u256BeFromDecimal (s : String) : Except ProtocolError (List UInt8) := do
  let n ← orThrow (parseUnsigned (2 ^ 128) s.toList) (.invalidDecimal s)
  pure (List.replicate 16 0 ++ beBytes 16 n)

variable (crypto : Crypto)

def channelUpdateDomainHash : Bytes32 := crypto.keccak256 (utf8 "fldx-v0-channel-update".toList)

/-- The 192 bytes that both parties sign. -/
def canonicalChannelUpdateBytes (chainId : UInt64) (contract : Address) (channelId : Bytes32)
    (nonce : UInt64) (cumOwed : List UInt8) : List UInt8 :=
  (channelUpdateDomainHash crypto).toList ++
    (List.replicate 24 0 ++ beBytes 8 chainId.toNat) ++
    (List.replicate 12 0 ++ contract.toList) ++
    channelId.toList ++
    (List.replicate 24 0 ++ beBytes 8 nonce.toNat) ++
    cumOwed

/-- The canonical bytes of an update. -/
def channelUpdateCanonicalFor (update : ChannelUpdate) (chainId : UInt64) (contract : Address) :
    Except ProtocolError (List UInt8) := do
  let channelId ← channelIdFromHex update.channelId
  let cumOwed ← u256BeFromDecimal update.cumOwed
  pure (canonicalChannelUpdateBytes crypto chainId contract channelId update.nonce cumOwed)

/-! ## What the parsers accept -/

/-- The amount an update names. -/
def ChannelUpdate.owed (update : ChannelUpdate) : Option ℕ :=
  parseUnsigned (2 ^ 128) update.cumOwed.toList

variable {crypto} {s s' : String} {id id' : Bytes32} {update : ChannelUpdate} {chainId : UInt64}
  {contract : Address} {bytes : List UInt8}

theorem channelIdFromHex_eq_ok : channelIdFromHex s = .ok id ↔
    hexDecode (utf8 (stripPrefix s.toList)) = .ok id.toList := by
  unfold channelIdFromHex hexField
  split
  · rename_i e h
    simp [h]
  · rename_i l h
    rw [orThrow_eq_ok, Bytes.ofList?_eq_some, h, Except.ok.injEq]

/-- **Spellings of a channel id** agree up to case and prefix exactly when they name one
channel. -/
theorem normalize_channelId_iff (fold : List Char → Char → List Char → List Char)
    (h : channelIdFromHex s = .ok id) (h' : channelIdFromHex s' = .ok id') :
    normalize fold s.toList = normalize fold s'.toList ↔ id = id' := by
  rw [normalize_eq_iff fold (channelIdFromHex_eq_ok.1 h) (channelIdFromHex_eq_ok.1 h'),
    Bytes.ext_iff]

theorem u256BeFromDecimal_eq_ok {l : List UInt8} : u256BeFromDecimal s = .ok l ↔
    ∃ n, parseUnsigned (2 ^ 128) s.toList = some n ∧ List.replicate 16 0 ++ beBytes 16 n = l := by
  simp only [u256BeFromDecimal, bind_eq_ok, orThrow_eq_ok, pure_eq_ok]

theorem channelUpdateCanonicalFor_eq_ok :
    channelUpdateCanonicalFor crypto update chainId contract = .ok bytes ↔
      ∃ id n, channelIdFromHex update.channelId = .ok id ∧ update.owed = some n ∧
        canonicalChannelUpdateBytes crypto chainId contract id update.nonce
          (List.replicate 16 0 ++ beBytes 16 n) = bytes := by
  simp only [channelUpdateCanonicalFor, bind_eq_ok, u256BeFromDecimal_eq_ok, pure_eq_ok,
    ChannelUpdate.owed]
  constructor
  · rintro ⟨id, hid, _, ⟨n, hn, rfl⟩, hbytes⟩
    exact ⟨id, n, hid, hn, hbytes⟩
  · rintro ⟨id, n, hid, hn, hbytes⟩
    exact ⟨id, hid, _, ⟨n, hn, rfl⟩, hbytes⟩

end Flodex
