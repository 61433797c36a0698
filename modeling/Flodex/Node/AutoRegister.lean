import Flodex.Node.Registration
import Flodex.Node.Rpc
import Flodex.Node.Transaction

/-!
# The auto-registration of a node

On start a node registers itself: it compares the chain, asks whether it is active, approves the
stake, waits, registers, waits. `Ran` is what a run can be, from which the results follow.
-/

namespace Flodex.Eth

open Rpc

/-! ## Signed transactions -/

/-- What recovery reads: the two words, and the parity in its legacy form. -/
def recoverable (r s v : ℕ) : List UInt8 := beBytes 32 r ++ beBytes 32 s ++ [.ofNat (27 + v)]

/-- The key of a node, as it signs transactions: with ECDSA, whose words are not zero and whose
parity recovers the address. -/
structure NodeIdentity (crypto : Crypto) where
  ethAddress : Address
  signEthTxDigest : Bytes32 → Bytes ethTxSigSize
  sigR_ne_zero : ∀ digest, sigR (signEthTxDigest digest) ≠ 0
  sigS_ne_zero : ∀ digest, sigS (signEthTxDigest digest) ≠ 0
  recover_sign : ∀ digest, crypto.recover digest (recoverable (sigR (signEthTxDigest digest))
    (sigS (signEthTxDigest digest)) (sigV (signEthTxDigest digest))) = some ethAddress

variable {crypto : Crypto} (identity : NodeIdentity crypto)

namespace Eip1559Tx

variable (crypto) in
def signingHash (tx : Eip1559Tx) : Bytes32 := crypto.keccak256 tx.signingPayload

/-- The signature of the node. -/
def signature (tx : Eip1559Tx) : Bytes ethTxSigSize :=
  identity.signEthTxDigest (tx.signingHash crypto)

def sign (tx : Eip1559Tx) : List UInt8 := tx.encodeSigned (tx.signature identity)

end Eip1559Tx

variable (crypto) in
/-- A transaction as the chain reads it, strictly, with the account that signed it. -/
def readTransaction : List UInt8 → Option (SignedFields × Address)
  | [] => none
  | type :: rlp =>
    match type, Rlp.decode rlp with
    | 0x02, some (.list items, []) => do
      let fields ← SignedFields.ofItems items
      let payload := 0x02 :: Rlp.encode (.list (items.take 9))
      let sender ← crypto.recover (crypto.keccak256 payload)
        (recoverable fields.r fields.s fields.v)
      pure (fields, sender)
    | _, _ => none

/-- **The chain reads what the node signs**, and whose it is. -/
theorem readTransaction_sign (tx : Eip1559Tx) : readTransaction crypto (tx.sign identity) =
    some (tx.signedFields (tx.signature identity), identity.ethAddress) := by
  have hread := Rlp.decode_encode (i := .list (tx.signedItems (tx.signature identity)))
    (tx.length_signedItems _) []
  rw [List.append_nil] at hread
  have hpayload : (2 : UInt8) ::
      Rlp.encode (.list ((tx.signedItems (tx.signature identity)).take 9)) = tx.signingPayload :=
    tx.signingPayload_eq.symm
  have hrecover : crypto.recover (crypto.keccak256 tx.signingPayload)
      (recoverable (sigR (tx.signature identity)) (sigS (tx.signature identity))
        (sigV (tx.signature identity))) = some identity.ethAddress := identity.recover_sign _
  have hsend : tx.sign identity =
      0x02 :: Rlp.encode (.list (tx.signedItems (tx.signature identity))) :=
    tx.encodeSigned_eq (identity.sigR_ne_zero _) (identity.sigS_ne_zero _)
  rw [hsend]
  simp only [readTransaction, hread, tx.ofItems_signedItems, hpayload, Option.bind_eq_bind,
    Option.bind_some, Eip1559Tx.signedFields, hrecover]
  rfl

namespace Registry

/-! ## The code -/

variable (crypto) in
def encodeApprove (spender : Address) (amount : Bytes32) : List UInt8 :=
  selector crypto "approve(address,uint256)" ++ padLeft spender.toList ++ amount.toList

variable (crypto) in
def encodeIsActive (node : Address) : List UInt8 :=
  selector crypto "isActive(address)" ++ padLeft node.toList

/-- `out.len() >= 32 && out[31] != 0`. -/
def decodeBool (out : List UInt8) : Bool := 32 ≤ out.length ∧ out.getD 31 0 ≠ 0

/-- `POLL_INTERVAL`, in seconds. -/
def pollInterval : ℕ := 2

/-- `TX_TIMEOUT`, in seconds. -/
def txTimeout : ℕ := 120

/-- What a node registers with. The calldata of `register` fit in a vector. -/
structure RegisterParams where
  rpcUrl : String
  chainId : UInt64
  usdc : Address
  registry : Address
  url : String
  ecdhPubkey : Bytes32
  backendBitmap : UInt8
  maxTokens : UInt64
  pricePer1k : Vector Bytes32 4
  stake : Bytes32
  length_url : (Text.utf8 url.toList).length + 355 < 2 ^ 63

/-- Calldata, a vector. -/
abbrev Calldata := {l : List UInt8 // l.length < 2 ^ 63}

/-- The gas limit: the estimate and 20% more. -/
def padGas (estimate : UInt64) : UInt64 :=
  .ofNat (saturatingMul 64 estimate.toNat 120 / 100)

/-- The fee cap: twice the base fee and the priority fee. -/
def feeCap (baseFee priority : BitVec 128) : BitVec 128 :=
  .ofNat 128 (saturatingAdd 128 (saturatingMul 128 baseFee.toNat 2) priority.toNat)

variable (E : Env) (rpc : EthRpc)

def sendTx (toAddress : Address) (data : Calldata) (chainId : UInt64) : Client Bytes32 := do
  let nonce ← withContext "nonce" (nonce E rpc identity.ethAddress)
  let priority ← (maxPriorityFeePerGas E rpc).handle fun _ => pure 1000000000
  let baseFee ← withContext "base fee" (pendingBaseFee E rpc)
  let estimate ← withContext "estimateGas"
    (estimateGas E rpc identity.ethAddress toAddress data 0)
  let tx : Eip1559Tx := {
    chainId, nonce,
    maxPriorityFeePerGas := priority
    maxFeePerGas := feeCap baseFee priority
    gasLimit := padGas estimate
    toAddress
    value := 0
    data
    length_data := data.2 }
  sendRaw E rpc (tx.sign identity)

variable (crypto) in
theorem length_encodeRegister (p : RegisterParams) :
    (encodeRegister crypto p.url p.ecdhPubkey p.backendBitmap p.maxTokens p.pricePer1k
      p.stake).length < 2 ^ 63 := by
  have hurl := p.length_url
  have hprices : (p.pricePer1k.toList.flatMap Bytes.toList).length = 128 := by
    rw [List.length_flatMap]
    simp
  simp only [encodeRegister, encodeString, encodeUint, padLeft, selector, List.length_append,
    List.length_take, List.length_replicate, length_beBytes, Bytes.length_toList, hprices]
  omega

variable (crypto) in
theorem length_encodeApprove (spender : Address) (amount : Bytes32) :
    (encodeApprove crypto spender amount).length < 2 ^ 63 := by
  simp only [encodeApprove, padLeft, selector, List.length_append, List.length_take,
    List.length_replicate, Bytes.length_toList]
  omega

variable (crypto) in
/-- The data of `approve`. -/
def approveData (p : RegisterParams) : Calldata :=
  ⟨encodeApprove crypto p.registry p.stake, length_encodeApprove ..⟩

variable (crypto) in
/-- The data of `register`. -/
def registerData (p : RegisterParams) : Calldata :=
  ⟨encodeRegister crypto p.url p.ecdhPubkey p.backendBitmap p.maxTokens p.pricePer1k p.stake,
    length_encodeRegister crypto p⟩

def ensureRegistered (p : RegisterParams) : Client Unit := do
  let rpc : EthRpc := ⟨p.rpcUrl⟩
  let onChainId ← withContext s!"eth_chainId against {p.rpcUrl}" (chainId E rpc)
  if onChainId ≠ p.chainId then
    .fail (.message (s!"RPC chain id mismatch: configured {p.chainId} " ++
      s!"but RPC reports {onChainId}"))
  else do
    let isActiveData := encodeIsActive crypto identity.ethAddress
    let isActiveOut ← withContext "isActive(address) eth_call"
      (ethCall E rpc p.registry isActiveData (some identity.ethAddress))
    if decodeBool isActiveOut then pure ()
    else do
      let approveHash ← withContext "approve tx"
        (sendTx identity E rpc p.usdc (approveData crypto p) p.chainId)
      withContext "approve receipt" (waitForReceipt E rpc approveHash pollInterval txTimeout)
      let registerHash ← withContext "register tx"
        (sendTx identity E rpc p.registry (registerData crypto p) p.chainId)
      withContext "register receipt" (waitForReceipt E rpc registerHash pollInterval txTimeout)

/-! ## What is sent -/

/-- The raw transaction of a request, if it sends one. -/
def rawOf : Effect → Option (List UInt8)
  | .post _ body =>
    if body.getStr "method" = some "eth_sendRawTransaction" then
      match body.getArray "params" with
      | some [.string s] => (parseHexBytes s).toOption
      | _ => none
    else none
  | .sleep _ => none

/-- The raw transactions among effects. -/
def sends (es : List Effect) : List (List UInt8) := es.filterMap rawOf

/-- The request that sends a transaction. -/
def rawRequest (rpc : EthRpc) (raw : List UInt8) : Effect :=
  request rpc "eth_sendRawTransaction" [.string (bytesHex raw)]

/-- The hash in the last reply of a history. -/
def hashAt (h : List Effect) : Except Error Bytes32 :=
  readReply E rpc "eth_sendRawTransaction" (E.reply h) >>= readHash

variable {E rpc} {method : String} {params : List Value} {h es es' : List Effect}
  {raw : List UInt8} {hash : Bytes32} {α β : Type} {e : Error}

theorem rawOf_request (hmethod : method ≠ "eth_sendRawTransaction") :
    rawOf (request rpc method params) = none := by
  simp [rawOf, request, requestBody, Value.getStr, Value.get, Value.asStr, hmethod]

@[simp] theorem rawOf_rawRequest : rawOf (rawRequest rpc raw) = some raw := by
  simp [rawOf, rawRequest, request, requestBody, Value.getStr, Value.getArray, Value.get,
    Value.asStr, Value.asArray, parseHexBytes_bytesHex, Except.toOption]

@[simp] theorem sends_nil : sends [] = [] := rfl

@[simp] theorem sends_append : sends (es ++ es') = sends es ++ sends es' := List.filterMap_append

@[simp] theorem sends_rawRequest : sends (rawRequest rpc raw :: es) = raw :: sends es := by
  simp [sends]

/-- Nothing is sent by a query. -/
theorem sends_request (hmethod : method ≠ "eth_sendRawTransaction") :
    sends [request rpc method params] = [] := by
  simp [sends, rawOf_request hmethod]

/-! ## Queries -/

/-- A context changes the error. -/
theorem withContext_apply (text : String) (x : Client α) :
    withContext text x h = ((x h).1.mapError (.within text), (x h).2) := by
  cases hx : x h with
  | mk r es =>
    cases r with
    | ok a => exact Traced.handle_of_ok hx
    | error e =>
      rw [withContext, Traced.handle_of_error hx]
      simp [Except.mapError]

theorem withContext_cases {text : String} {x : Client α} {r : Except Error α}
    (hrun : withContext text x h = (r, es)) :
    ∃ r', x h = (r', es) ∧ r = r'.mapError (.within text) := by
  rw [withContext_apply] at hrun
  obtain ⟨rfl, rfl⟩ := Prod.mk.inj hrun
  exact ⟨_, rfl, rfl⟩

/-- A context around a query that is not a transaction: one request. -/
structure Asks (x : Client α) (e : Effect) : Prop where
  effects : ∀ h, (x h).2 = [e]
  quiet : sends [e] = []
  one : requests [e] = 1
  genuine : ∀ h, FailsWith Error.Genuine (x h).1

theorem asks_query {read : Value → Except Error α} (hmethod : method ≠ "eth_sendRawTransaction")
    (hread : ∀ v, FailsWith Error.Genuine (read v)) :
    Asks (query E rpc method params read) (request rpc method params) where
  effects h := by rw [query_apply]
  quiet := sends_request hmethod
  one := by simp
  genuine h := by
    rw [query_apply]
    exact .bind (readReply_genuine _) fun v _ => hread v

theorem Asks.withContext {x : Client α} {q : Effect} (hx : Asks x q) (text : String) :
    Asks (withContext text x) q where
  effects h := by rw [withContext_apply, hx.effects]
  quiet := hx.quiet
  one := hx.one
  genuine h := by
    rw [withContext_apply]
    exact .mapError fun e he => hx.genuine h e he

/-- After a query the run fails, or goes on. -/
theorem Asks.bind_cases {x : Client α} {q : Effect} {f : α → Client β} {r : Except Error β}
    (hx : Asks x q) (hrun : (x >>= f) h = (r, es)) :
    (∃ e, e.Genuine ∧ r = .error e ∧ es = [q]) ∨
      ∃ a es', (x h).1 = .ok a ∧ f a (h ++ [q]) = (r, es') ∧ es = [q] ++ es' := by
  obtain ⟨e, hask, rfl⟩ | ⟨a, es₁, es₂, hask, hrest, rfl⟩ := Traced.bind_cases hrun
  · have heffects := hx.effects h
    rw [hask] at heffects
    exact .inl ⟨e, hx.genuine h e (by rw [hask]), rfl, heffects⟩
  · have heffects := hx.effects h
    rw [hask] at heffects
    obtain rfl : es₁ = [q] := heffects
    exact .inr ⟨a, es₂, by rw [hask], hrest, rfl⟩

/-- `unwrap_or` around a query. -/
theorem Asks.handle_pure {x : Client α} {q : Effect} (hx : Asks x q) (d : α) :
    Asks (x.handle fun _ => pure d) q := by
  have happly : ∀ h, ∃ a, (x.handle fun _ => pure d) h = (.ok a, [q]) := fun h => by
    have heffects := hx.effects h
    cases hrun : x h with
    | mk r es =>
      rw [hrun] at heffects
      obtain rfl : es = [q] := heffects
      cases r with
      | ok a => exact ⟨a, Traced.handle_of_ok hrun⟩
      | error e => exact ⟨d, Traced.handle_of_error hrun⟩
  refine ⟨fun h => ?_, hx.quiet, hx.one, fun h => ?_⟩
  · obtain ⟨a, ha⟩ := happly h
    rw [ha]
  · obtain ⟨a, ha⟩ := happly h
    rw [ha]
    exact .of_ok rfl

section

variable (E rpc)

theorem asks_chainId : Asks (chainId E rpc) (request rpc "eth_chainId" []) :=
  asks_query (by decide) fun v => .bind (text_genuine v _) fun _ _ => parseHexU64_genuine _

theorem asks_nonce (addr : Address) : Asks (nonce E rpc addr)
    (request rpc "eth_getTransactionCount" [.string (addrHex addr), .string "pending"]) :=
  asks_query (by decide) fun v => .bind (text_genuine v _) fun _ _ => parseHexU64_genuine _

theorem asks_maxPriorityFeePerGas : Asks (maxPriorityFeePerGas E rpc)
    (request rpc "eth_maxPriorityFeePerGas" []) :=
  asks_query (by decide) fun v => .bind (text_genuine v _) fun _ _ => parseHex_genuine 128 _

theorem asks_pendingBaseFee : Asks (pendingBaseFee E rpc)
    (request rpc "eth_getBlockByNumber" [.string "pending", .bool false]) :=
  asks_query (by decide) fun _ => .bind (.orThrow fun _ => nofun) fun _ _ => parseHex_genuine 128 _

theorem asks_estimateGas (sender toAddress : Address) (data : List UInt8) (value : BitVec 128) :
    Asks (estimateGas E rpc sender toAddress data value) (request rpc "eth_estimateGas" [.object [
      ("data", .string (bytesHex data)), ("from", .string (addrHex sender)),
      ("to", .string (addrHex toAddress)), ("value", .string (uintHex value))]]) :=
  asks_query (by decide) fun v => .bind (text_genuine v _) fun _ _ => parseHexU64_genuine _

theorem asks_ethCall (toAddress : Address) (data : List UInt8) (sender : Option Address) :
    Asks (ethCall E rpc toAddress data sender)
      (request rpc "eth_call" [callObject toAddress data sender, .string "latest"]) :=
  asks_query (by decide) readCall_genuine

end

theorem sendRaw_apply : sendRaw E rpc raw h =
    (hashAt E rpc (h ++ [rawRequest rpc raw]), [rawRequest rpc raw]) := query_apply

theorem hashAt_genuine (h : List Effect) : FailsWith Error.Genuine (hashAt E rpc h) :=
  .bind (readReply_genuine _) fun v _ => readHash_genuine v

/-! ## Sending a transaction -/

/-- The fields a transaction of the node has. -/
structure Fits (p : RegisterParams) (toAddress : Address) (data : List UInt8) (t : SignedFields) :
    Prop where
  chainId : t.chainId = p.chainId.toNat
  toAddress : t.toAddress = toAddress.toList
  value : t.value = 0
  data : t.data = data
  accessList : t.accessList = []
  fees : t.maxPriorityFeePerGas ≤ t.maxFeePerGas

/-- The transaction is one the chain reads as the node's. -/
def Reads (crypto : Crypto) (node : Address) (p : RegisterParams) (toAddress : Address)
    (data : List UInt8) (raw : List UInt8) : Prop :=
  ∃ t, readTransaction crypto raw = some (t, node) ∧ Fits p toAddress data t

theorem le_feeCap (baseFee priority : BitVec 128) :
    priority.toNat ≤ (feeCap baseFee priority).toNat := by
  have hpriority := priority.isLt
  rw [feeCap, saturatingAdd, BitVec.toNat_ofNat, Nat.mod_eq_of_lt (by omega)]
  omega

/-- What sending a transaction can do: fail before it, or send it after four queries. -/
inductive Sent (E : Env) (rpc : EthRpc) (P : List UInt8 → Prop) (h : List Effect)
    (r : Except Error Bytes32) : List Effect → Prop
  | unsent {es : List Effect} (failed : ∀ hash, r ≠ .ok hash) (quiet : sends es = [])
      (few : requests es ≤ 4) : Sent E rpc P h r es
  | sent {es : List Effect} {raw : List UInt8} (reads : P raw) (quiet : sends es = [])
      (few : requests es = 4) (accepted : ∀ hash, r = .ok hash →
        hashAt E rpc (h ++ (es ++ [rawRequest rpc raw])) = .ok hash) :
      Sent E rpc P h r (es ++ [rawRequest rpc raw])

variable {identity} {p : RegisterParams} {toAddress : Address} {data : Calldata}
  {r : Except Error Bytes32}

theorem sendTx_cases (hrun : sendTx identity E rpc toAddress data p.chainId h = (r, es)) :
    FailsWith Error.Genuine r ∧
      Sent E rpc (Reads crypto identity.ethAddress p toAddress data) h r es := by
  rw [sendTx] at hrun
  have hnonce := (asks_nonce E rpc identity.ethAddress).withContext "nonce"
  have hpriority := (asks_maxPriorityFeePerGas E rpc).handle_pure 1000000000
  have hbase := (asks_pendingBaseFee E rpc).withContext "base fee"
  have hestimate := (asks_estimateGas E rpc identity.ethAddress toAddress data
    0).withContext "estimateGas"
  obtain ⟨e, he, rfl, rfl⟩ | ⟨nonce, es₁, -, hrun₁, rfl⟩ := hnonce.bind_cases hrun
  · refine ⟨.error he, .unsent nofun hnonce.quiet ?_⟩
    rw [hnonce.one]
    omega
  obtain ⟨e, he, rfl, rfl⟩ | ⟨priority, es₂, -, hrun₂, rfl⟩ := hpriority.bind_cases hrun₁
  · refine ⟨.error he, .unsent nofun ?_ ?_⟩
    · rw [sends_append, hnonce.quiet, hpriority.quiet, List.append_nil]
    · rw [requests_append, hnonce.one, hpriority.one]
      omega
  obtain ⟨e, he, rfl, rfl⟩ | ⟨baseFee, es₃, -, hrun₃, rfl⟩ := hbase.bind_cases hrun₂
  · refine ⟨.error he, .unsent nofun ?_ ?_⟩
    · simp only [sends_append, hnonce.quiet, hpriority.quiet, hbase.quiet, List.append_nil]
    · simp only [requests_append, hnonce.one, hpriority.one, hbase.one]
      omega
  obtain ⟨e, he, rfl, rfl⟩ | ⟨estimate, es₄, -, hrun₄, rfl⟩ := hestimate.bind_cases hrun₃
  · refine ⟨.error he, .unsent nofun ?_ ?_⟩
    · simp only [sends_append, hnonce.quiet, hpriority.quiet, hbase.quiet, hestimate.quiet,
        List.append_nil]
    · simp only [requests_append, hnonce.one, hpriority.one, hbase.one, hestimate.one]
      omega
  rw [sendRaw_apply] at hrun₄
  obtain ⟨rfl, rfl⟩ := Prod.mk.inj hrun₄
  simp only [← List.append_assoc]
  refine ⟨hashAt_genuine _, .sent ⟨_, readTransaction_sign identity _, ?_⟩ ?_ ?_ ?_⟩
  · exact ⟨rfl, rfl, rfl, rfl, rfl, le_feeCap baseFee priority⟩
  · simp only [sends_append, hnonce.quiet, hpriority.quiet, hbase.quiet, hestimate.quiet,
      List.append_nil]
  · simp only [requests_append, hnonce.one, hpriority.one, hbase.one, hestimate.one]
  · simp only [← List.append_assoc]
    exact fun hash => id

/-- The transaction is sent, and the history ends with a reply that it is mined without a
revert, asked for by the hash that the endpoint gave it. -/
def Confirmed (E : Env) (rpc : EthRpc) (raw : List UInt8) (h : List Effect) : Prop :=
  ∃ before between hash,
    h = before ++ [rawRequest rpc raw] ++ between ++ [receiptRequest rpc hash] ∧
      hashAt E rpc (before ++ [rawRequest rpc raw]) = .ok hash ∧
        statusAt E rpc h = .ok (some true)

variable (identity E rpc) in
/-- A transaction is sent and waited for. -/
def submit (toAddress : Address) (data : Calldata) (chainId : UInt64) (tx receipt : String) :
    Client Unit := do
  let hash ← withContext tx (sendTx identity E rpc toAddress data chainId)
  withContext receipt (waitForReceipt E rpc hash pollInterval txTimeout)

/-- What sending and waiting can do. -/
structure Submitted (E : Env) (rpc : EthRpc) (P : List UInt8 → Prop) (h : List Effect)
    (r : Except Error Unit) (es : List Effect) : Prop where
  genuine : FailsWith Error.Genuine r
  few : requests es ≤ 66
  sends : sends es = [] ∧ r ≠ .ok () ∨
    ∃ raw, P raw ∧ sends es = [raw] ∧ (r = .ok () → Confirmed E rpc raw (h ++ es))

/-- Waiting sends nothing. -/
theorem sends_waited {r : Except Error Unit} {seconds timeout : ℕ}
    (hwait : Waited E rpc hash seconds timeout h r es) : sends es = [] := by
  rw [sends, List.filterMap_eq_nil_iff]
  intro e he
  obtain rfl | rfl := hwait.only e he
  · exact rawOf_request (by decide)
  · rfl

theorem submit_cases {r : Except Error Unit} {tx receipt : String}
    (hrun : submit identity E rpc toAddress data p.chainId tx receipt h = (r, es)) :
    Submitted E rpc (Reads crypto identity.ethAddress p toAddress data) h r es := by
  obtain ⟨e, hsend, rfl⟩ | ⟨hash, es₁, es₂, hsend, hwait, rfl⟩ := Traced.bind_cases hrun
  · obtain ⟨r', hsend, herror⟩ := withContext_cases hsend
    obtain ⟨hgenuine, hsent⟩ := sendTx_cases hsend
    have hgenuine' : e.Genuine := by
      refine FailsWith.mapError (g := Error.within tx) (fun e he => ?_) e herror.symm
      exact hgenuine e he
    refine ⟨.error hgenuine', ?_, ?_⟩
    · cases hsent with
      | unsent _ _ few => omega
      | sent _ _ few =>
        rw [requests_append, few, rawRequest, requests_request]
        simp
    · cases hsent with
      | unsent _ quiet => exact .inl ⟨quiet, nofun⟩
      | @sent es raw reads quiet => exact .inr ⟨raw, reads, by simp [quiet], nofun⟩
  · obtain ⟨r₁, hsend, hhash⟩ := withContext_cases hsend
    obtain ⟨r₂, hwait', rfl⟩ := withContext_cases hwait
    obtain rfl := mapError_eq_ok.1 hhash.symm
    have hwaited := waitForReceipt_cases (by decide : 0 < pollInterval) hwait'
    obtain ⟨-, hsent⟩ := sendTx_cases hsend
    have hpolls : polls pollInterval txTimeout = 61 := rfl
    have hfew := hwaited.requests
    refine ⟨.mapError fun e he => hwaited.genuine e he, ?_, ?_⟩
    · cases hsent with
      | unsent failed => exact absurd rfl (failed hash)
      | sent _ _ few =>
        rw [requests_append, requests_append, few, rawRequest, requests_request, requests_nil]
        omega
    · cases hsent with
      | unsent failed => exact absurd rfl (failed hash)
      | @sent es raw reads quiet few accepted =>
        refine .inr ⟨raw, reads, by simp [quiet, sends_waited hwaited], fun hok => ?_⟩
        obtain ⟨es', rfl, hstatus⟩ := hwaited.mined (by simpa using hok)
        refine ⟨h ++ es, es', hash, by simp, ?_, by simpa using hstatus⟩
        rw [List.append_assoc]
        exact accepted hash rfl

/-! ## A run -/

variable (E p)

def chainIdRequest : Effect := request ⟨p.rpcUrl⟩ "eth_chainId" []

variable (crypto) in
/-- The request whether a node is active. -/
def isActiveRequest (node : Address) : Effect :=
  request ⟨p.rpcUrl⟩ "eth_call"
    [callObject p.registry (encodeIsActive crypto node) (some node), .string "latest"]

/-- The chain in the last reply of a history. -/
def chainIdAt (h : List Effect) : Except Error UInt64 :=
  readReply E ⟨p.rpcUrl⟩ "eth_chainId" (E.reply h) >>= fun v => do
    parseHexU64 (← text v "chainId: not string")

/-- Whether the node is active, in the last reply of a history. -/
def activeAt (h : List Effect) : Except Error Bool :=
  (readReply E ⟨p.rpcUrl⟩ "eth_call" (E.reply h) >>= readCall).map decodeBool

variable (crypto) in
/-- What the node does first. -/
def asked (node : Address) : List Effect := [chainIdRequest p, isActiveRequest crypto p node]

variable (crypto) in
/-- What the registration needs before it sends anything. -/
structure Cleared (node : Address) : Prop where
  chainId : chainIdAt E p [chainIdRequest p] = .ok p.chainId
  inactive : activeAt E p (asked crypto p node) = .ok false

variable (identity) in
/-- What the registration can do: stop before it sends anything, find the node active, stop while
it approves, or get to the registration. -/
inductive Ran : Except Error Unit → List Effect → Prop
  | refused {r : Except Error Unit} {es : List Effect} (genuine : FailsWith Error.Genuine r)
      (failed : r ≠ .ok ()) (quiet : sends es = []) (few : requests es ≤ 2) : Ran r es
  | already (active : activeAt E p (asked crypto p identity.ethAddress) = .ok true) :
      Ran (.ok ()) (asked crypto p identity.ethAddress)
  | approving {r : Except Error Unit} {es : List Effect} (failed : r ≠ .ok ())
      (cleared : Cleared crypto E p identity.ethAddress)
      (approve : Submitted E ⟨p.rpcUrl⟩ (Reads crypto identity.ethAddress p p.usdc
        (approveData crypto p)) (asked crypto p identity.ethAddress) r es) :
      Ran r (asked crypto p identity.ethAddress ++ es)
  | registering {r : Except Error Unit} {es es' : List Effect}
      (cleared : Cleared crypto E p identity.ethAddress)
      (approve : Submitted E ⟨p.rpcUrl⟩ (Reads crypto identity.ethAddress p p.usdc
        (approveData crypto p)) (asked crypto p identity.ethAddress) (.ok ()) es)
      (register : Submitted E ⟨p.rpcUrl⟩ (Reads crypto identity.ethAddress p p.registry
        (registerData crypto p)) (asked crypto p identity.ethAddress ++ es) r es') :
      Ran r (asked crypto p identity.ethAddress ++ es ++ es')

variable {E p}

/-- The code after the two questions, with what is sent and waited for as one. -/
theorem ensureRegistered_eq : ensureRegistered identity E p = (do
    let onChainId ← withContext s!"eth_chainId against {p.rpcUrl}" (chainId E ⟨p.rpcUrl⟩)
    if onChainId ≠ p.chainId then
      .fail (.message (s!"RPC chain id mismatch: configured {p.chainId} " ++
        s!"but RPC reports {onChainId}"))
    else do
      let isActiveOut ← withContext "isActive(address) eth_call" (ethCall E ⟨p.rpcUrl⟩ p.registry
        (encodeIsActive crypto identity.ethAddress) (some identity.ethAddress))
      if decodeBool isActiveOut then pure ()
      else
        submit identity E ⟨p.rpcUrl⟩ p.usdc (approveData crypto p) p.chainId "approve tx"
          "approve receipt" >>= fun _ =>
        submit identity E ⟨p.rpcUrl⟩ p.registry (registerData crypto p) p.chainId "register tx"
          "register receipt" : Client Unit) := by
  simp only [ensureRegistered, submit, Traced.bind_assoc]

theorem ensureRegistered_cases {r : Except Error Unit}
    (hrun : ensureRegistered identity E p [] = (r, es)) : Ran identity E p r es := by
  have hchain := (asks_chainId E ⟨p.rpcUrl⟩).withContext
    s!"eth_chainId against {p.rpcUrl}"
  have hactive := (asks_ethCall E ⟨p.rpcUrl⟩ p.registry
    (encodeIsActive crypto identity.ethAddress) (some identity.ethAddress)).withContext
    "isActive(address) eth_call"
  rw [ensureRegistered_eq] at hrun
  obtain ⟨e, he, rfl, rfl⟩ | ⟨onChainId, es₁, hid, hrun₁, rfl⟩ := hchain.bind_cases hrun
  · exact .refused (.error he) nofun hchain.quiet (by rw [hchain.one]; omega)
  split_ifs at hrun₁ with hmatch
  · obtain ⟨rfl, rfl⟩ := Prod.mk.inj hrun₁
    refine .refused (.error nofun) nofun (by simpa using hchain.quiet) ?_
    rw [requests_append, hchain.one]
    simp
  · rw [not_not] at hmatch
    rw [withContext_apply, mapError_eq_ok, Rpc.chainId, query_apply, hmatch] at hid
    obtain ⟨e, he, rfl, rfl⟩ | ⟨isActiveOut, es₂, hout, hrun₂, rfl⟩ := hactive.bind_cases hrun₁
    · refine .refused (.error he) nofun ?_ ?_
      · rw [sends_append, hchain.quiet, hactive.quiet, List.append_nil]
      · rw [requests_append, hchain.one, hactive.one]
    · rw [withContext_apply, mapError_eq_ok, ethCall, query_apply] at hout
      have hanswer : activeAt E p (asked crypto p identity.ethAddress) =
          .ok (decodeBool isActiveOut) := congrArg (Except.map decodeBool) hout
      split_ifs at hrun₂ with hbool
      · obtain ⟨rfl, rfl⟩ := Prod.mk.inj hrun₂
        exact .already (hbool ▸ hanswer)
      · rw [Bool.not_eq_true] at hbool
        have hcleared : Cleared crypto E p identity.ethAddress := ⟨hid, hbool ▸ hanswer⟩
        obtain ⟨e, happrove, rfl⟩ | ⟨⟨⟩, es₃, es₄, happrove, hregister, rfl⟩ :=
          Traced.bind_cases hrun₂
        · exact .approving nofun hcleared (submit_cases happrove)
        · have hran := Ran.registering hcleared (submit_cases happrove) (submit_cases hregister)
          rw [List.append_assoc] at hran
          exact hran

/-! ## The transactions of a run -/

/-- What the code of the registration does: requests to its endpoint, and sleeps between polls. -/
def Addressed (p : RegisterParams) (e : Effect) : Prop :=
  (∃ method params, e = request ⟨p.rpcUrl⟩ method params) ∨ e = .sleep pollInterval

theorem withContext_only {P : Effect → Prop} {x : Client α} (hx : x.Only P) (text : String) :
    (withContext text x).Only P := hx.handle fun _ => .fail _

theorem query_only {read : Value → Except Error α} :
    (query E ⟨p.rpcUrl⟩ method params read).Only (Addressed p) := by
  intro h e he
  rw [query_apply, List.mem_singleton] at he
  exact .inl ⟨method, params, he⟩

theorem waitForReceipt_only : (waitForReceipt E ⟨p.rpcUrl⟩ hash pollInterval txTimeout).Only
    (Addressed p) := by
  intro h e he
  have hwaited := waitForReceipt_cases (by decide : 0 < pollInterval)
    (Prod.mk.eta (p := waitForReceipt E ⟨p.rpcUrl⟩ hash pollInterval txTimeout h)).symm
  obtain rfl | rfl := hwaited.only e he
  · exact .inl ⟨_, _, rfl⟩
  · exact .inr rfl

theorem submit_only {tx receipt : String} :
    (submit identity E ⟨p.rpcUrl⟩ toAddress data p.chainId tx receipt).Only (Addressed p) := by
  refine .bind (withContext_only ?_ _) fun _ => withContext_only waitForReceipt_only _
  exact .bind (withContext_only query_only _) fun _ => .bind (query_only.handle fun _ => .pure _)
    fun _ => .bind (withContext_only query_only _) fun _ =>
      .bind (withContext_only query_only _) fun _ => query_only

theorem ensureRegistered_only : (ensureRegistered identity E p).Only (Addressed p) := by
  rw [ensureRegistered_eq]
  refine .bind (withContext_only query_only _) fun onChainId => ?_
  split_ifs
  · exact .fail _
  · refine .bind (withContext_only query_only _) fun isActiveOut => ?_
    split_ifs
    · exact .pure _
    · exact .bind submit_only fun _ => submit_only

variable (identity E p) in
/-- The transactions of a registration: none, or the node has asked its two questions first, sending
nothing, and the chain is the configured one and the registry says that the node is not active; then
come the approval of the stake, and the registration only after the endpoint has confirmed the
approval. -/
def Orderly (es : List Effect) : Prop :=
  sends es = [] ∨ ∃ rest, es = asked crypto p identity.ethAddress ++ rest ∧
    sends (asked crypto p identity.ethAddress) = [] ∧ Cleared crypto E p identity.ethAddress ∧
    ∃ approve, Reads crypto identity.ethAddress p p.usdc (approveData crypto p) approve ∧
      (sends rest = [approve] ∨ ∃ before after register, rest = before ++ after ∧
        sends before = [approve] ∧
        Confirmed E ⟨p.rpcUrl⟩ approve (asked crypto p identity.ethAddress ++ before) ∧
        sends after = [register] ∧
        Reads crypto identity.ethAddress p p.registry (registerData crypto p) register)

/-- The two questions send nothing. -/
theorem sends_asked (node : Address) : sends (asked crypto p node) = [] := by
  rw [asked, chainIdRequest, isActiveRequest, ← List.singleton_append, sends_append,
    sends_request (by decide), sends_request (by decide), List.append_nil]

variable (identity E p) in
/-- **The transactions of a registration.** Whatever the endpoint answers, the node sends its
transactions in their order, each one that the chain reads as a transaction of the node, for that
chain and without value. Whatever else the code does is to make requests to the configured endpoint,
of which reqwest may follow redirects, and to sleep between polls. -/
theorem transactions : Orderly identity E p (ensureRegistered identity E p []).2 ∧
    ∀ e ∈ (ensureRegistered identity E p []).2, Addressed p e := by
  refine ⟨?_, ensureRegistered_only []⟩
  cases hrun : ensureRegistered identity E p [] with
  | mk r es =>
    cases ensureRegistered_cases hrun with
    | refused _ _ quiet => exact .inl quiet
    | already => exact .inl (sends_asked _)
    | @approving _ es _ cleared submitted =>
      obtain ⟨quiet, -⟩ | ⟨approve, reads, sent, -⟩ := submitted.sends
      · exact .inl (by rw [sends_append, sends_asked, quiet, List.append_nil])
      · exact .inr ⟨es, rfl, sends_asked _, cleared, approve, reads, .inl sent⟩
    | @registering _ es₁ es₂ cleared submitted submitted' =>
      obtain ⟨-, hne⟩ | ⟨approve, reads, sent, confirmed⟩ := submitted.sends
      · exact absurd rfl hne
      refine .inr ⟨es₁ ++ es₂, List.append_assoc .., sends_asked _, cleared, approve, reads, ?_⟩
      obtain ⟨quiet, -⟩ | ⟨register, reads', sent', -⟩ := submitted'.sends
      · exact .inl (by rw [sends_append, sent, quiet]; rfl)
      · exact .inr ⟨es₁, es₂, register, rfl, sent, confirmed rfl, sent', reads'⟩

variable (identity E p) in
/-- **The registration ends**, whatever the endpoint answers, when every request is answered or
fails: the code makes at most 134 requests, and no loop has run out of fuel. -/
theorem registration_ends : requests (ensureRegistered identity E p []).2 ≤ 134 ∧
    FailsWith Error.Genuine (ensureRegistered identity E p []).1 := by
  have hasked : requests (asked crypto p identity.ethAddress) = 2 := by
    rw [asked, chainIdRequest, isActiveRequest, requests_request, requests_request, requests_nil]
  cases hrun : ensureRegistered identity E p [] with
  | mk r es =>
    cases ensureRegistered_cases hrun with
    | refused genuine _ _ few => exact ⟨few.trans (by omega), genuine⟩
    | already => exact ⟨hasked.trans_le (by omega), .of_ok rfl⟩
    | approving _ _ submitted =>
      have := submitted.few
      exact ⟨by rw [requests_append, hasked]; omega, submitted.genuine⟩
    | registering _ submitted submitted' =>
      have := submitted.few
      have := submitted'.few
      exact ⟨by rw [requests_append, requests_append, hasked]; omega, submitted'.genuine⟩

end Registry

end Flodex.Eth
