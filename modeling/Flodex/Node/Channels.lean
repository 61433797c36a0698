import Flodex.Agent.Loop

/-!
# The channels of a node

What the node keeps for each payment channel, and the three places that read or write it: the gate
in front of the backend (`gateRead`, `cacheDeposit`, `checkSolvent`), the receipt behind it
(`buildReceipt`), and the client's signatures (`verifyAndRecordAck`), which arrive with the next
request or by themselves (`ack`).
-/

namespace Flodex.Node

open Text Function

/-! ## State -/

/-- What the node keeps for a channel. -/
structure ChannelState where
  nonce : UInt64
  cumOwed : ℕ
  lastAcked : Option ClientAck
  clientAddress : Option Address
  deposit : Option ℕ
  deriving DecidableEq

/-- The entry of a channel the node has not seen. -/
def ChannelState.new : ChannelState := ⟨0, 0, none, none, none⟩

/-- The channels the node has seen. -/
abbrev ChannelMap := Bytes32 → Option ChannelState

/-- The state of a channel, seen or not. -/
def ChannelMap.state (channels : ChannelMap) (id : Bytes32) : ChannelState :=
  (channels id).getD .new

/-- The chain the node is configured for, and the `JobChannel` contract there. -/
structure ChainConfig where
  chainId : UInt64
  channel : Option String

/-- The part of the node's configuration that the channels use. `fold` is the part of the Unicode
lower-case tables outside ASCII. -/
structure ChannelConfig where
  crypto : Crypto
  fold : List Char → Char → List Char → List Char
  signEip191 : List UInt8 → List UInt8
  pricing : List BackendPrice
  chain : Option ChainConfig

/-- What an error message ends with. -/
inductive Cause
  | protocol (e : ProtocolError)
  | agent (e : AgentError)
  | text (s : String)

/-- The errors of the endpoints, by status code. -/
inductive ApiError
  | badRequest (msg : String) (cause : Option Cause)
  | paymentRequired (msg : String)
  | notImplemented (msg : String)
  | internal (msg : String) (cause : Option Cause)

variable (cfg : ChannelConfig) (channels : ChannelMap)

/-- The chain, the contract and the channel of a request; the endpoints differ in the texts of
their errors. -/
def resolveChannel (unset noChannel badAddress idHex : String) :
    Except ApiError (UInt64 × Address × Bytes32) := do
  let chain ← orThrow cfg.chain (.badRequest unset none)
  let channelAddrHex ← orThrow chain.channel (.badRequest noChannel none)
  let channelAddr ← (parseAddr channelAddrHex).mapError fun e =>
    .internal badAddress (some (.protocol e))
  let channelId ← (channelIdFromHex idHex).mapError fun e =>
    .badRequest "invalid channel_id: " (some (.protocol e))
  pure (chain.chainId, channelAddr, channelId)

/-! ## The gate -/

/-- The channel and the contract of a request with a channel. -/
def gateChannel (idHex : String) : Except ApiError (UInt64 × Address × Bytes32) :=
  resolveChannel cfg "channel_id supplied but FLDX_CHAIN_ID is unset"
    "channel_id supplied but no channel contract on this chain" "invalid channel address: " idHex

/-- The cached deposit and the amount owed, as the gate reads them under the lock. -/
def gateRead (id : Bytes32) : Option ℕ × ℕ :=
  match channels id with
  | some s => (s.deposit, s.cumOwed)
  | none => (none, 0)

/-- The slot of the deposit in the returned record. -/
def decodeChannelDeposit (returndata : List UInt8) : Except String ℕ :=
  if returndata.length < 96 then
    .error s!"channels() return too short: got {returndata.length} bytes, want ≥ 96"
  else
    let slot := (returndata.drop 64).take 32
    if (slot.take 16).any fun b => b ≠ 0 then
      .error s!"channels.deposit > u128::MAX (high bytes nonzero): {slot.take 16}"
    else .ok (beNat (slot.drop 16))

/-- Cache the deposit of a channel. -/
def cacheDeposit (id : Bytes32) (d : ℕ) : ChannelMap :=
  update channels id (some { channels.state id with deposit := some d })

/-- Whether the channel can still pay. -/
def checkSolvent (idHex : String) (deposit cumOwed : ℕ) : Except ApiError Unit := do
  require (deposit ≠ 0)
    (.paymentRequired s!"channel {idHex} has zero deposit (or doesn't exist on-chain)")
  require (cumOwed < deposit)
    (.paymentRequired s!"channel {idHex} exhausted: cum_owed {cumOwed} ≥ deposit {deposit}")

/-! ## Acks -/

/-- Check the client's signature on an update, and record it as the latest. -/
def verifyAndRecordAck (entry : ChannelState) (ack : ClientAck) (expectedChannelIdHex : String)
    (chainId : UInt64) (channelAddr : Address) : Except ProtocolError ChannelState := do
  require (normalize cfg.fold ack.update.channelId.toList =
    normalize cfg.fold expectedChannelIdHex.toList) .ackChannelIdMismatch
  let canonical ← channelUpdateCanonicalFor cfg.crypto ack.update chainId channelAddr
  let sigBytes ← (hexDecode (utf8 (trimStart ack.clientSig.toList))).mapError .invalidSigHex
  require (sigBytes.length = eip191SigSize) (.sigLength sigBytes.length)
  let recovered ← orThrow (cfg.crypto.recoverEip191 canonical sigBytes) .recoveryFailed
  require (∀ known ∈ entry.clientAddress, known = recovered) .ackSignerDiffers
  -- the nonce is compared with `entry.nonce`, with nothing done in either case
  pure { entry with clientAddress := some recovered, lastAcked := some ack }

/-- The channel of a standalone ack. -/
def ackChannel (ack : ClientAck) : Except ApiError (UInt64 × Address × Bytes32) :=
  resolveChannel cfg "FLDX_CHAIN_ID unset — channels disabled" "no channel contract on this chain"
    "invalid channel address: " ack.update.channelId

/-- `POST /ack`. -/
def ack (ack : ClientAck) : ChannelMap × Except ApiError Unit :=
  match ackChannel cfg ack with
  | .error e => (channels, .error e)
  | .ok (chainId, channelAddr, id) =>
    let entry := channels.state id
    match verifyAndRecordAck cfg entry ack ack.update.channelId chainId channelAddr with
    | .error e =>
      (update channels id (some entry), .error (.badRequest "invalid ack: " (some (.protocol e))))
    | .ok entry => (update channels id (some entry), .ok ())

/-! ## Receipts -/

/-- The first price listed for the backend, `0` without one that parses. -/
def priceFor (pricing : List BackendPrice) (backend : BackendType) : ℕ :=
  ((pricing.find? fun p => p.backend = backend).bind fun p =>
    parseUnsigned (2 ^ 128) p.pricePer1k.toList).getD 0

def totalTokens (usage : Usage) : ℕ :=
  usage.inputTokens.toNat + usage.outputTokens.toNat +
    (usage.cacheCreationInputTokens.getD 0).toNat + (usage.cacheReadInputTokens.getD 0).toNat

/-- The cost of a round trip; the product wraps at 128 bits, as in a release build. -/
def roundTripCost (usage : Usage) (priceUnits : ℕ) : ℕ :=
  totalTokens usage * priceUnits % 2 ^ 128 / 1000

/-- The channel of a receipt. -/
def receiptChannel (idHex : String) : Except ApiError (UInt64 × Address × Bytes32) :=
  resolveChannel cfg "channel_id supplied but FLDX_CHAIN_ID is unset"
    "channel_id supplied but no channel contract on this chain"
    "invalid channel address in chain config: " idHex

/-- The entry after the ack that came with a request, if one did. -/
def recordPrevAck (entry : ChannelState) (prevAck : Option ClientAck) (idHex : String)
    (chainId : UInt64) (channelAddr : Address) : Except ProtocolError ChannelState :=
  match prevAck with
  | some ack => verifyAndRecordAck cfg entry ack idHex chainId channelAddr
  | none => .ok entry

/-- The entry after a charge. -/
def ChannelState.charge (entry : ChannelState) (cost : ℕ) : ChannelState :=
  { entry with
    nonce := UInt64.ofNat (saturatingAdd 64 entry.nonce.toNat 1)
    cumOwed := saturatingAdd 128 entry.cumOwed cost }

/-- The update that the node signs for the state of an entry. -/
def ChannelState.update (entry : ChannelState) (idHex : String) : ChannelUpdate :=
  ⟨idHex, entry.nonce, entry.cumOwed.repr⟩

/-- Charge a round trip to its channel and sign the new state. -/
def buildReceipt (idHex : String) (backend : BackendType) (sessionId : String) (usage : Usage)
    (prevAck : Option ClientAck) : ChannelMap × Except ApiError NodeSignedReceipt :=
  match receiptChannel cfg idHex with
  | .error e => (channels, .error e)
  | .ok (chainId, channelAddr, id) =>
    let priceUnits := priceFor cfg.pricing backend
    let cost := roundTripCost usage priceUnits
    let entry := channels.state id
    match recordPrevAck cfg entry prevAck idHex chainId channelAddr with
    | .error e =>
      (Function.update channels id (some entry),
        .error (.badRequest "invalid prev_ack: " (some (.protocol e))))
    | .ok entry =>
      let charged := entry.charge cost
      let update := charged.update idHex
      match channelUpdateCanonicalFor cfg.crypto update chainId channelAddr with
      | .error e =>
        (Function.update channels id (some entry),
          .error (.internal "canonical bytes: " (some (.protocol e))))
      | .ok canonical =>
        let nodeSig := String.ofList ('0' :: 'x' :: hexEncode (cfg.signEip191 canonical))
        let breakdown := ⟨sessionId, backend, usage, priceUnits.repr, cost.repr⟩
        (Function.update channels id (some charged), .ok ⟨update, breakdown, nodeSig⟩)

/-! ## What the checks accept -/

/-- The contract the node is configured for. -/
def ChannelConfig.contract : Option (UInt64 × Address) := do
  let chain ← cfg.chain
  let channelAddrHex ← chain.channel
  let channelAddr ← (parseAddr channelAddrHex).toOption
  pure (chain.chainId, channelAddr)

/-- The signer of an ack on an update of the channel, on the node's chain and contract. -/
def SignedBy (id : Bytes32) (ack : ClientAck) (signer : Address) : Prop :=
  ∃ chainId channelAddr canonical sigBytes, cfg.contract = some (chainId, channelAddr) ∧
    channelIdFromHex ack.update.channelId = .ok id ∧
    channelUpdateCanonicalFor cfg.crypto ack.update chainId channelAddr = .ok canonical ∧
    hexDecode (utf8 (trimStart ack.clientSig.toList)) = .ok sigBytes ∧
    cfg.crypto.recoverEip191 canonical sigBytes = some signer

/-- The entry with an ack recorded. -/
def ChannelState.record (entry : ChannelState) (ack : ClientAck) (signer : Address) :
    ChannelState :=
  { entry with clientAddress := some signer, lastAcked := some ack }

variable {cfg channels} {idHex unset noChannel badAddress : String} {chainId : UInt64}
  {channelAddr : Address} {id : Bytes32} {entry entry' : ChannelState} {ack : ClientAck}

theorem resolveChannel_eq_ok :
    resolveChannel cfg unset noChannel badAddress idHex = .ok (chainId, channelAddr, id) ↔
      cfg.contract = some (chainId, channelAddr) ∧ channelIdFromHex idHex = .ok id := by
  simp only [resolveChannel, ChannelConfig.contract, bind_eq_ok, orThrow_eq_ok, mapError_eq_ok,
    pure_eq_ok, Prod.mk.injEq]
  constructor
  · rintro ⟨chain, hchain, hex, hhex, addr, haddr, id, hid, rfl, rfl, rfl⟩
    exact ⟨by simp [hchain, hhex, haddr, Except.toOption], hid⟩
  · rintro ⟨hcontract, hid⟩
    simp only [Option.bind_eq_bind, Option.bind_eq_some_iff] at hcontract
    obtain ⟨chain, hchain, hex, hhex, addr, haddr, hpure⟩ := hcontract
    obtain ⟨rfl, rfl⟩ := Prod.mk.inj (Option.some.inj hpure)
    refine ⟨chain, hchain, hex, hhex, addr, ?_, id, hid, rfl, rfl, rfl⟩
    cases h : parseAddr hex with
    | error e => simp [h, Except.toOption] at haddr
    | ok a => simpa [h, Except.toOption] using haddr

/-- **What the node accepts as an ack**: a signature on an update of the channel, by the signer it
knows if it knows one. -/
theorem verifyAndRecordAck_eq_ok (hcontract : cfg.contract = some (chainId, channelAddr))
    (hid : channelIdFromHex idHex = .ok id) :
    verifyAndRecordAck cfg entry ack idHex chainId channelAddr = .ok entry' ↔
      ∃ signer, SignedBy cfg id ack signer ∧ (∀ known ∈ entry.clientAddress, known = signer) ∧
        entry' = entry.record ack signer := by
  simp only [verifyAndRecordAck, bind_eq_ok, require_eq_ok, mapError_eq_ok, orThrow_eq_ok,
    pure_eq_ok, SignedBy, hcontract, Option.some.injEq, Prod.mk.injEq]
  constructor
  · rintro ⟨_, hnorm, canonical, hcanonical, sigBytes, hsig, _, -, signer, hrec, _, hknown, rfl⟩
    obtain ⟨id', n, hid', howed, hbytes⟩ := channelUpdateCanonicalFor_eq_ok.1 hcanonical
    obtain rfl := (normalize_channelId_iff cfg.fold hid' hid).1 hnorm
    exact ⟨signer, ⟨chainId, channelAddr, canonical, sigBytes, ⟨rfl, rfl⟩, hid', hcanonical, hsig,
      hrec⟩, hknown, rfl⟩
  · rintro ⟨signer, ⟨_, _, canonical, sigBytes, ⟨rfl, rfl⟩, hid', hcanonical, hsig, hrec⟩, hknown,
      rfl⟩
    exact ⟨(), (normalize_channelId_iff cfg.fold hid' hid).2 rfl, canonical, hcanonical, sigBytes,
      hsig, (), cfg.crypto.length_of_recover hrec, signer, hrec, (), hknown, rfl⟩

/-- An ack has one signer. -/
theorem SignedBy.unique {signer signer' : Address} (h : SignedBy cfg id ack signer)
    (h' : SignedBy cfg id ack signer') : signer = signer' := by
  obtain ⟨chainId, channelAddr, canonical, sigBytes, hcontract, -, hcanonical, hsig, hrec⟩ := h
  obtain ⟨_, _, canonical', sigBytes', hcontract', -, hcanonical', hsig', hrec'⟩ := h'
  obtain ⟨rfl, rfl⟩ := Prod.mk.inj (Option.some.inj (hcontract.symm.trans hcontract'))
  obtain rfl := Except.ok.inj (hcanonical.symm.trans hcanonical')
  obtain rfl := Except.ok.inj (hsig.symm.trans hsig')
  exact Option.some.inj (hrec.symm.trans hrec')

/-- The node can always sign the state of an entry: its amount has 128 bits. -/
theorem channelUpdateCanonicalFor_charge (cfg : ChannelConfig) (entry : ChannelState) (cost : ℕ)
    (chainId : UInt64) (channelAddr : Address) (hid : channelIdFromHex idHex = .ok id) :
    ∃ canonical, channelUpdateCanonicalFor cfg.crypto ((entry.charge cost).update idHex) chainId
      channelAddr = .ok canonical :=
  ⟨_, channelUpdateCanonicalFor_eq_ok.2
    ⟨id, _, hid, parseUnsigned_repr (saturatingAdd_lt 128 entry.cumOwed cost), rfl⟩⟩

end Flodex.Node
