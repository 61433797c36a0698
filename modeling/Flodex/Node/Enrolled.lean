import Flodex.Contracts.Listing
import Flodex.Node.AutoRegister

/-!
# What a registration leaves on-chain

The start of the registration with the settings of a node, and the registration against an endpoint
that is honest about the registry: when the node is told that it is active, and when a receipt says
that a transaction succeeded, the run of the contract has it.
-/

namespace Flodex.Eth.Registry

open Rpc
open NodeRegistry (State Step Config machine emitted)

/-! ## The settings -/

def u256FromU128 (v : BitVec 128) : Bytes32 := ⟨.replicate 16 0 ++ beBytes 16 v.toNat, by simp⟩

/-- Why `spawn_register` does not register. -/
inductive Skip
  | badUsdcAddress (usdcHex : String) (e : ProtocolError)
  | badRegistryAddress (registryHex : String) (e : ProtocolError)
  | invalidPricing (e : String)
  deriving DecidableEq, Repr

/-- `spawn_register`: what the node registers with. -/
def registerParams (chainId : UInt64) (rpcUrl usdcHex registryHex : String)
    (advertiseUrl : {s : String // (Text.utf8 s.toList).length + 355 < 2 ^ 63})
    (ecdhPubkey : Bytes32) (backends : List BackendType) (maxTokens : UInt32)
    (pricing : List BackendPrice) (stake : BitVec 128) : Except Skip RegisterParams := do
  let usdc ← (parseAddr usdcHex).mapError (.badUsdcAddress usdcHex)
  let registry ← (parseAddr registryHex).mapError (.badRegistryAddress registryHex)
  let bitmap := backendBitmap backends
  let priceArray ← (pricingToArray pricing).mapError .invalidPricing
  pure {
    rpcUrl, chainId, usdc, registry
    url := advertiseUrl
    ecdhPubkey
    backendBitmap := bitmap
    maxTokens := maxTokens.toUInt64
    pricePer1k := priceArray
    stake := u256FromU128 stake
    length_url := advertiseUrl.2 }

theorem registerParams_of {chainId : UInt64} {rpcUrl usdcHex registryHex : String}
    {advertiseUrl : {s : String // (Text.utf8 s.toList).length + 355 < 2 ^ 63}}
    {ecdhPubkey : Bytes32} {backends : List BackendType} {maxTokens : UInt32}
    {pricing : List BackendPrice} {stake : BitVec 128} {usdc registry : Address}
    {prices : Vector Bytes32 4} (husdc : parseAddr usdcHex = .ok usdc)
    (hregistry : parseAddr registryHex = .ok registry)
    (hprices : pricingToArray pricing = .ok prices) :
    registerParams chainId rpcUrl usdcHex registryHex advertiseUrl ecdhPubkey backends
      maxTokens pricing stake = .ok ⟨rpcUrl, chainId, usdc, registry, advertiseUrl, ecdhPubkey,
        backendBitmap backends, maxTokens.toUInt64, prices, u256FromU128 stake,
        advertiseUrl.2⟩ := by
  simp only [registerParams, husdc, hregistry, hprices]
  rfl

/-! ## An honest endpoint -/

/-- The endpoint is honest about the registry in a history: what it had seen of the run of the
contract at every moment; whether the node was active then; and that what it confirms was run and
did not revert. -/
structure Honest (crypto : Crypto) (node : Address) (E : Env) (cfg : Config) (p : RegisterParams)
    (runs : List Effect → List Step) (state : List Effect → State) (es : List Effect) : Prop where
  deployed : cfg.this = p.registry
  run : ∀ h, h <+: es → ∃ s, (machine cfg).Init s ∧ Run (machine cfg) s (runs h) (state h)
  isActive : ∀ h active, h ++ [isActiveRequest crypto p node] <+: es →
    activeAt E p (h ++ [isActiveRequest crypto p node]) = .ok active →
    ((state (h ++ [isActiveRequest crypto p node])).nodes node).active = active
  mined : ∀ h raw t sender call, h <+: es → Confirmed E ⟨p.rpcUrl⟩ raw h →
    readTransaction crypto raw = some (t, sender) → t.toAddress = cfg.this.toList →
    decodeRegister crypto t.data = some call →
    ∃ e ∈ runs h, e.act = .call sender call ∧ (emitted cfg e).isSome

section

variable {crypto : Crypto} {identity : NodeIdentity crypto} {E : Env} {cfg : Config}
  {p : RegisterParams} {runs : List Effect → List Step} {state : List Effect → State}
  {es : List Effect}

/-- What the node registers. -/
def registerCall (p : RegisterParams) : NodeRegistry.Call :=
  .register (metadata p.url p.ecdhPubkey p.backendBitmap p.maxTokens p.pricePer1k)
    (.ofNat 256 (beNat p.stake.toList))

variable (crypto) in
theorem decodeRegister_registerData (p : RegisterParams) :
    decodeRegister crypto (registerData crypto p) = some (registerCall p) := by
  have hurl := p.length_url
  exact decodeRegister_encodeRegister (by omega)

/-- The node was active when it asked, or its registration has been run. -/
theorem registered_of_ok (honest : Honest crypto identity.ethAddress E cfg p runs state es)
    (hok : ensureRegistered identity E p [] = (.ok (), es)) :
    ((state (asked crypto p identity.ethAddress)).nodes identity.ethAddress).active = true ∨
      ∃ e ∈ runs es, e.act = .call identity.ethAddress (registerCall p) ∧
        (emitted cfg e).isSome := by
  generalize hr : (.ok () : Except Error Unit) = r at hok
  cases ensureRegistered_cases hok with
  | refused _ failed => exact absurd hr.symm failed
  | already active =>
    exact .inl (honest.isActive [chainIdRequest p] _ (List.prefix_refl _) active)
  | approving failed => exact absurd hr.symm failed
  | registering _ _ submitted =>
    obtain ⟨-, hne⟩ | ⟨raw, ⟨t, hread, fits⟩, -, confirmed⟩ := submitted.sends
    · exact absurd hr.symm hne
    have htarget : t.toAddress = cfg.this.toList := by rw [fits.toAddress, honest.deployed]
    have hcall : decodeRegister crypto t.data = some (registerCall p) := by
      rw [fits.data, decodeRegister_registerData]
    exact .inr (honest.mined _ _ _ _ _ (List.prefix_refl _) (confirmed hr.symm) hread htarget hcall)

/-! ## The record on the contract -/

theorem parses_of_foldlM {pricing : List BackendPrice} {out out' : Vector Bytes32 4}
    (h : pricing.foldlM setPrice out = .ok out') :
    ∀ b ∈ pricing, (Text.parseUnsigned (2 ^ 128) b.pricePer1k.toList).isSome := by
  induction pricing generalizing out with
  | nil => simp
  | cons b pricing ih =>
    rw [List.foldlM_cons, bind_eq_ok] at h
    obtain ⟨out₁, hset, hrest⟩ := h
    rw [List.forall_mem_cons]
    refine ⟨?_, ih hrest⟩
    simp only [setPrice, bind_eq_ok, orThrow_eq_ok] at hset
    obtain ⟨units, hunits, -⟩ := hset
    exact Option.isSome_iff_exists.2 ⟨units, hunits⟩

/-- The prices that the node registers are those it bills. -/
theorem priceAt_of_pricingToArray {pricing : List BackendPrice} {prices : Vector Bytes32 4}
    (hnodup : (pricing.map BackendPrice.backend).Nodup) (h : pricingToArray pricing = .ok prices)
    (b : BackendType) : priceAt prices b = Node.priceFor pricing b := by
  obtain ⟨prices', hprices, hspec⟩ := exists_pricingToArray hnodup (parses_of_foldlM h)
  obtain rfl := Except.ok.inj (h.symm.trans hprices)
  exact hspec b

theorem beNat_u256FromU128 (v : BitVec 128) : beNat (u256FromU128 v).toList = v.toNat := by
  have hv : v.toNat < 256 ^ 16 := v.isLt
  change beNat (.replicate 16 0 ++ beBytes 16 v.toNat) = v.toNat
  rw [← beBytes_add 16 hv, beNat_beBytes_of_lt (hv.trans (by decide))]

/-- What a call that is run leaves of a registration. -/
theorem record_of_emitted {s t : State} {h : List Step} {e : Step} {sender : Address}
    {m : NodeRegistry.Metadata} {stake : BitVec 256} (r : Run (machine cfg) s h t) (he : e ∈ h)
    (hact : e.act = .call sender (.register m stake)) (hrun : (emitted cfg e).isSome) :
    e.post.nodes sender = ⟨m, stake.toNat, true⟩ := by
  have hpost := r.post_eq he
  obtain ⟨pre, act, post⟩ := e
  obtain rfl := hact
  obtain rfl : post = NodeRegistry.next cfg pre (.call sender (.register m stake)) := hpost
  obtain ⟨log, hlog⟩ := Option.isSome_iff_exists.1 hrun
  have out := NodeRegistry.outcome cfg pre (.call sender (.register m stake))
  rw [hlog] at out
  change (NodeRegistry.next cfg pre (.call sender (.register m stake))).nodes sender = _
  clear hlog hrun he
  generalize NodeRegistry.next cfg pre (.call sender (.register m stake)) = post at out ⊢
  cases out with
  | success succ =>
    cases succ with
    | register => exact Function.update_self ..

/-- **A registration that succeeds is on the chain.** If the endpoint is honest and the node takes
its registration to have succeeded, then it was active when it asked, or the contract has run its
registration: with the stake of its settings, under its url and key, for its backends and no others
and at the prices it computes receipts with. -/
theorem registered_on_chain {chainId : UInt64} {rpcUrl usdcHex registryHex : String}
    {advertiseUrl : {s : String // (Text.utf8 s.toList).length + 355 < 2 ^ 63}}
    {ecdhPubkey : Bytes32} {backends : List BackendType} {maxTokens : UInt32}
    {pricing : List BackendPrice} {stake : BitVec 128}
    (hparams : registerParams chainId rpcUrl usdcHex registryHex advertiseUrl ecdhPubkey backends
      maxTokens pricing stake = .ok p)
    (hnodup : (pricing.map BackendPrice.backend).Nodup)
    (honest : Honest crypto identity.ethAddress E cfg p runs state es)
    (hok : ensureRegistered identity E p [] = (.ok (), es)) :
    ((state (asked crypto p identity.ethAddress)).nodes identity.ethAddress).active = true ∨
      ∃ e ∈ runs es, ∃ n, e.post.nodes identity.ethAddress = n ∧ n.active = true ∧
        n.stake = stake.toNat ∧ n.url = Text.utf8 advertiseUrl.1.toList ∧
        n.ecdhPubkey = ecdhPubkey ∧ n.maxTokens = maxTokens.toUInt64 ∧
        ∀ b, (NodeRegistry.supportsBackend e.post identity.ethAddress (backendOf b) = true ↔
            b ∈ backends) ∧
          (NodeRegistry.priceFor e.post identity.ethAddress (backendOf b)).toNat =
            Node.priceFor pricing b := by
  obtain active | ⟨e, he, hact, hlog⟩ := registered_of_ok honest hok
  · exact .inl active
  simp only [registerParams, bind_eq_ok, mapError_eq_ok, pure_eq_ok] at hparams
  obtain ⟨usdc, -, registry, -, prices, hprices, rfl⟩ := hparams
  obtain ⟨s, -, r⟩ := honest.run es (List.prefix_refl es)
  have hrecord := record_of_emitted r he hact hlog
  have hstake : (BitVec.ofNat 256 (beNat (u256FromU128 stake).toList)).toNat = stake.toNat := by
    have := stake.isLt
    rw [beNat_u256FromU128, BitVec.toNat_ofNat, Nat.mod_eq_of_lt (by omega)]
  refine .inr ⟨e, he, _, hrecord, rfl, hstake, rfl, rfl, rfl, fun b => ⟨?_, ?_⟩⟩
  · rw [NodeRegistry.supportsBackend, bne_iff_ne, ← backendBitmap_spec backends b, hrecord]
    rfl
  · have hmetadata := congrArg NodeRegistry.Node.toMetadata hrecord
    rw [priceFor_metadata hmetadata, priceAt_of_pricingToArray hnodup hprices]

end

/-! ## A registration -/

namespace Deployment

def node : Address := NodeRegistry.Deployment.node 1

/-- The words of a symbolic signature, which has ones behind the digest. -/
def wordR (digest : Bytes32) : List UInt8 := node.toList ++ digest.toList.take 12

def wordS (digest : Bytes32) : List UInt8 := digest.toList.drop 12 ++ List.replicate 12 1

theorem length_wordR (digest : Bytes32) : (wordR digest).length = 32 := by simp [wordR]

theorem length_wordS (digest : Bytes32) : (wordS digest).length = 32 := by simp [wordS]

def signTx (digest : Bytes32) : Bytes ethTxSigSize :=
  ⟨wordR digest ++ wordS digest ++ [0], by simp [length_wordR, length_wordS, ethTxSigSize]⟩

theorem beNat_ne_zero {l : List UInt8} (h : 1 ∈ l) : beNat l ≠ 0 := by
  intro hzero
  have hl := beBytes_beNat l
  rw [hzero, beBytes_zero] at hl
  rw [← hl] at h
  exact absurd (List.eq_of_mem_replicate h) (by decide)

theorem toList_signTx (digest : Bytes32) :
    (signTx digest).toList = wordR digest ++ (wordS digest ++ [0]) := List.append_assoc ..

theorem sigR_signTx (digest : Bytes32) : sigR (signTx digest) = beNat (wordR digest) := by
  rw [sigR, toList_signTx, List.take_left' (length_wordR digest)]

theorem sigS_signTx (digest : Bytes32) : sigS (signTx digest) = beNat (wordS digest) := by
  rw [sigS, toList_signTx, List.drop_left' (length_wordR digest),
    List.take_left' (length_wordS digest)]

theorem sigV_signTx (digest : Bytes32) : sigV (signTx digest) = 0 := by
  have hlen : (wordR digest ++ wordS digest).length = 64 := by
    rw [List.length_append, length_wordR, length_wordS]
  rw [sigV, toList_signTx, ← List.append_assoc, List.drop_left' hlen]
  rfl

theorem beBytes_word {l : List UInt8} (h : l.length = 32) : beBytes 32 (beNat l) = l := by
  have hl := beBytes_beNat l
  rwa [h] at hl

theorem recover_signTx (digest : Bytes32) : Crypto.symbolic.recover digest
    (recoverable (sigR (signTx digest)) (sigS (signTx digest)) (sigV (signTx digest))) =
      some node := by
  have hsig : recoverable (sigR (signTx digest)) (sigS (signTx digest)) (sigV (signTx digest)) =
      node.toList ++ (digest.toList ++ (List.replicate 12 1 ++ [27])) := by
    rw [recoverable, sigR_signTx, sigS_signTx, sigV_signTx, beBytes_word (length_wordR digest),
      beBytes_word (length_wordS digest), wordR, wordS]
    simp only [List.append_assoc]
    rw [← List.append_assoc (digest.toList.take 12), List.take_append_drop]
    rfl
  have hdigest : ((node.toList ++ (digest.toList ++ (List.replicate 12 1 ++ [27]))).drop 20).take
      32 = digest.toList := take_drop_field node.length_toList digest.length_toList
  have hlen : (node.toList ++ (digest.toList ++ (List.replicate 12 1 ++ [27]))).length =
      eip191SigSize := by simp [eip191SigSize]
  rw [hsig, Crypto.symbolic]
  simp only [hlen, hdigest, and_self, if_true, List.take_left' node.length_toList,
    Bytes.ofList?_toList]

def identity : NodeIdentity .symbolic where
  ethAddress := node
  signEthTxDigest := signTx
  sigR_ne_zero digest := by
    rw [sigR_signTx]
    exact beNat_ne_zero (List.mem_append_left _ (by decide))
  sigS_ne_zero digest := by
    rw [sigS_signTx]
    exact beNat_ne_zero (List.mem_append_right _ (by decide))
  recover_sign := recover_signTx

/-- The text of a reply with a result. -/
def replyText (result : String) : String :=
  "\x7b\"jsonrpc\":\"2.0\",\"id\":1,\"result\":" ++ result ++ "\x7d"

/-- A word with one byte that is not zero. -/
def wordText (b : UInt8) : String := bytesHex (List.replicate 31 0 ++ [b])

/-- The texts of the results of the endpoint, and what they are. -/
def results : List (String × Value) := [
  ("\"0x0\"", .string "0x0"),
  ("\"0x1\"", .string "0x1"),
  ("\x7b\"baseFeePerGas\":\"0x1\"\x7d", .object [("baseFeePerGas", .string "0x1")]),
  ("\x7b\"status\":\"0x1\"\x7d", .object [("status", .string "0x1")]),
  ("\"" ++ wordText 0 ++ "\"", .string (wordText 0)),
  ("\"" ++ wordText 1 ++ "\"", .string (wordText 1)),
  ("\"" ++ wordText 2 ++ "\"", .string (wordText 2))]

def fromStr (text : String) : Except String Value :=
  match results.find? fun r => replyText r.1 = text with
  | some r =>
    .ok (.object [("id", .number (.posInt 1)), ("jsonrpc", .string "2.0"), ("result", r.2)])
  | none => .error "expected value at line 1 column 1"

/-- The endpoint answers from the requests it had: transactions are mined at once, the seventh
request sends the first one, and the second one makes the node active. -/
def resultText (method : String) (h : List Effect) : String :=
  if method = "eth_getTransactionCount" then if h.length ≤ 7 then "\"0x0\"" else "\"0x1\""
  else if method = "eth_getBlockByNumber" then "\x7b\"baseFeePerGas\":\"0x1\"\x7d"
  else if method = "eth_getTransactionReceipt" then "\x7b\"status\":\"0x1\"\x7d"
  else if method = "eth_sendRawTransaction" then
    "\"" ++ wordText (if h.length ≤ 7 then 1 else 2) ++ "\""
  else if method = "eth_call" then "\"" ++ wordText (if 2 ≤ (sends h).length then 1 else 0) ++ "\""
  else "\"0x1\""

def reply (h : List Effect) : Reply :=
  match h.getLast? with
  | some (.post _ body) =>
    .ok (200, .ok (replyText (resultText ((body.getStr "method").getD "") h)))
  | _ => .error "closed"

/-- A clock that only a sleep moves. -/
def slept (h : List Effect) : ℕ := (h.map fun
  | .post .. => 0
  | .sleep seconds => seconds * 10 ^ 9).sum

def env : Env where
  reply := reply
  fromStr := fromStr
  display _ := ""
  displayStatus code := toString code
  now := slept
  now_post h url body := by simp [slept]
  now_sleep h seconds := by simp [slept]

/-- The price of the one backend. -/
def prices : Vector Bytes32 4 :=
  (Vector.replicate 4 (.replicate 32 0)).set 3 (copyLow (.replicate 32 0) 5)

def params : RegisterParams where
  rpcUrl := "http://127.0.0.1:8545"
  chainId := 1
  usdc := .replicate 20 5
  registry := NodeRegistry.Deployment.testnet.this
  url := "http://n"
  ecdhPubkey := .replicate 32 1
  backendBitmap := backendBitmap [.Local]
  maxTokens := 4096
  pricePer1k := prices
  stake := u256FromU128 10
  length_url := by decide

theorem result_params : (ensureRegistered identity env params []).1 = .ok () := by
  have h : (match (ensureRegistered identity env params []).1 with
    | .ok _ => true
    | .error _ => false) = true := by decide +kernel
  generalize (ensureRegistered identity env params []).1 = r at h
  cases r with
  | ok => rfl
  | error => cases h

/-- What the contract has run when the endpoint has two transactions. -/
def funding : List NodeRegistry.Action :=
  [.token node (.mint node 100), .token node (.approve params.registry 100)]

def running : List NodeRegistry.Action := funding ++ [.call node (registerCall params)]

def before (h : List Effect) : List NodeRegistry.Action :=
  if 2 ≤ (sends h).length then running else []

def runs (h : List Effect) : List Step := NodeRegistry.Deployment.trace (before h)

def state (h : List Effect) : State := NodeRegistry.Deployment.final (before h)

theorem legal_before (h : List Effect) : (machine NodeRegistry.Deployment.testnet).LegalFrom
    NodeRegistry.Deployment.start (before h) := by
  unfold before
  split
  · exact ⟨NodeRegistry.Deployment.node_ne_this (by decide),
      NodeRegistry.Deployment.node_ne_this (by decide), trivial, trivial⟩
  · exact trivial

theorem emitted_running : (emitted NodeRegistry.Deployment.testnet
    ⟨NodeRegistry.Deployment.final funding, .call node (registerCall params),
      NodeRegistry.Deployment.final running⟩).isSome := by decide +kernel

theorem active_state (h : List Effect) :
    ((state h).nodes node).active = decide (2 ≤ (sends h).length) := by
  unfold state before
  split
  · rename_i hsent
    rw [decide_eq_true hsent]
    decide +kernel
  · rename_i hsent
    rw [decide_eq_false hsent]
    rfl

theorem activeAt_env (h : List Effect) : activeAt env params
    (h ++ [isActiveRequest .symbolic params node]) =
      .ok (decide (2 ≤ (sends (h ++ [isActiveRequest .symbolic params node])).length)) := by
  have hreply : env.reply (h ++ [isActiveRequest .symbolic params node]) = .ok (200, .ok (replyText
      (resultText "eth_call" (h ++ [isActiveRequest .symbolic params node])))) := by
    change reply _ = _
    rw [reply, List.getLast?_concat]
    rfl
  rw [activeAt, hreply]
  generalize h ++ [isActiveRequest .symbolic params node] = h
  by_cases hsent : 2 ≤ (sends h).length
  · have htext : resultText "eth_call" h = "\"" ++ wordText 1 ++ "\"" := by
      simp [resultText, hsent]
    rw [htext, decide_eq_true hsent]
    decide +kernel
  · have htext : resultText "eth_call" h = "\"" ++ wordText 0 ++ "\"" := by
      simp [resultText, hsent]
    rw [htext, decide_eq_false hsent]
    decide +kernel

theorem parseAddr_addrHex (addr : Address) : parseAddr (addrHex addr) = .ok addr := by
  have hstrip : Text.stripPrefix (addrHex addr).toList = Text.hexEncode addr.toList := by
    rw [addrHex, String.toList_ofList]
    rfl
  rw [parseAddr, hexField, hstrip, Text.hexDecode_hexEncode]
  simp [orThrow]

/-- What the node does against the endpoint. -/
def effects : List Effect := (ensureRegistered identity env params []).2

theorem run_params : ensureRegistered identity env params [] = (.ok (), effects) :=
  Prod.ext result_params rfl

/-- The two transactions of the run. -/
theorem sends_effects : ∃ approve register,
    sends effects = [approve, register] ∧
      Reads .symbolic node params params.usdc (approveData .symbolic params) approve ∧
      Reads .symbolic node params params.registry (registerData .symbolic params) register := by
  have hrun := run_params
  generalize hr : (.ok () : Except Error Unit) = r at hrun
  generalize effects = es at hrun ⊢
  cases ensureRegistered_cases hrun with
  | refused _ failed => exact absurd hr.symm failed
  | already active =>
    have := activeAt_env [chainIdRequest params]
    rw [show [chainIdRequest params] ++ [isActiveRequest .symbolic params node] =
      asked .symbolic params node from rfl, sends_asked] at this
    exact absurd (active.symm.trans this) (by decide)
  | approving failed => exact absurd hr.symm failed
  | registering _ submitted submitted' =>
    obtain ⟨-, hne⟩ | ⟨approve, reads, sent, -⟩ := submitted.sends
    · exact absurd rfl hne
    obtain ⟨-, hne⟩ | ⟨register, reads', sent', -⟩ := submitted'.sends
    · exact absurd hr.symm hne
    refine ⟨approve, register, ?_, reads, reads'⟩
    rw [sends_append, sends_append, sent, sent']
    exact congrArg (· ++ [approve] ++ [register]) (sends_asked node)

theorem honest_env : Honest .symbolic node env NodeRegistry.Deployment.testnet params runs state
    effects where
  deployed := rfl
  run h _ := ⟨_, NodeRegistry.Deployment.init, NodeRegistry.Deployment.run _ (legal_before h)⟩
  isActive h active _ hactive := by
    rw [activeAt_env] at hactive
    rw [active_state]
    exact Except.ok.inj hactive
  mined h raw t sender call hpre hconfirmed hread htarget hcall := by
    obtain ⟨approve, register, hsends, ⟨t₁, hread₁, fits₁⟩, t₂, hread₂, fits₂⟩ := sends_effects
    have hne : params.usdc.toList ≠ params.registry.toList := by decide +kernel
    -- the transaction is the second one, since the first is for the token
    have hmem : raw ∈ sends h := by
      obtain ⟨before, between, hash, rfl, -⟩ := hconfirmed
      simp
    have hprefix : sends h <+: [approve, register] := hsends ▸ hpre.filterMap rawOf
    have happrove : raw ≠ approve := by
      rintro rfl
      obtain ⟨rfl, -⟩ := Prod.mk.inj (Option.some.inj (hread.symm.trans hread₁))
      exact hne (fits₁.toAddress.symm.trans htarget)
    obtain rfl : raw = register := by
      have := hprefix.subset hmem
      simpa [happrove] using this
    have hlen : 2 ≤ (sends h).length := by
      obtain ⟨k, hk⟩ : ∃ k, sends h = [approve, raw].take k :=
        ⟨_, List.prefix_iff_eq_take.1 hprefix⟩
      match k, hk with
      | 0, hk => simp [hk] at hmem
      | 1, hk => exact absurd (by simpa [hk] using hmem) happrove
      | k + 2, hk => simp [hk]
    obtain ⟨rfl, rfl⟩ := Prod.mk.inj (Option.some.inj (hread.symm.trans hread₂))
    have hdecode : decodeRegister .symbolic t.data = some (registerCall params) := by
      rw [fits₂.data, decodeRegister_registerData]
    obtain rfl := Option.some.inj (hcall.symm.trans hdecode)
    have hruns : runs h = NodeRegistry.Deployment.trace running := by
      rw [runs, before, if_pos hlen]
    rw [hruns, running, NodeRegistry.Deployment.trace, Machine.trace_concat]
    refine ⟨_, List.mem_append_right _ (List.mem_singleton_self _), rfl, ?_⟩
    rw [← Machine.final_concat]
    exact emitted_running

theorem registerParams_eq : registerParams 1 "http://127.0.0.1:8545" (addrHex params.usdc)
    (addrHex params.registry) ⟨"http://n", params.length_url⟩ (.replicate 32 1) [.Local] 4096
    [⟨.Local, "5"⟩] 10 = .ok params :=
  registerParams_of (parseAddr_addrHex params.usdc) (parseAddr_addrHex params.registry)
    (by decide +kernel)

end Deployment

open Deployment in
/-- A node that is not active registers its one backend. -/
theorem registered_on_chain_running : ∃ e ∈ runs effects,
    NodeRegistry.supportsBackend e.post node .Local = true ∧
      (NodeRegistry.priceFor e.post node .Local).toNat = 5 := by
  obtain active | ⟨e, he, n, -, -, -, -, -, -, hspec⟩ := @registered_on_chain .symbolic identity env
    NodeRegistry.Deployment.testnet params runs state effects _ _ _ _ _ _ _ _ _ _
    registerParams_eq (by decide) honest_env run_params
  · have hasked : (2 ≤ (sends (asked .symbolic params node)).length) = False := by
      rw [sends_asked]
      simp
    have hstate := active_state (asked .symbolic params node)
    simp only [hasked, decide_false] at hstate
    exact absurd (active.symm.trans hstate) nofun
  · obtain ⟨hbackend, hprice⟩ := hspec .Local
    exact ⟨e, he, hbackend.2 (List.mem_singleton_self _), hprice.trans (by decide)⟩

end Flodex.Eth.Registry
