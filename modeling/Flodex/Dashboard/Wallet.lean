import Flodex.Dashboard.Eth
import Flodex.Node.Channels

/-!
# The wallet co-signs receipts

`signReceipt` of the channel hook has the wallet sign the update of a receipt, and stores the ack.
Nothing of the receipt is compared with the channel, with the last ack or with the signature of the
node, so an ack is as honest as the receipt: `acks_honest_iff` says that all acks of a run are for
honest updates exactly when the receipts are an honest chain.
-/

namespace Flodex.Dashboard

open Js Text

/-! ## Types -/

/-- An update as it is parsed: the number can be no integer. -/
structure Update where
  channelId : String
  nonce : Option ℤ
  cumOwed : String

/-- The update of a node, parsed. -/
def Update.parse (update : ChannelUpdate) : Update :=
  ⟨update.channelId, some (number update.nonce.toNat), update.cumOwed⟩

/-- `NodeSignedReceipt`. -/
structure Receipt where
  update : Update
  breakdown : ReceiptBreakdown
  nodeSig : String

/-- `ClientAck`. -/
structure Ack where
  update : Update
  clientSig : String

structure ChannelState where
  channelId : String
  client : String
  nodeAddress : String
  lastReceipt : Option Receipt
  lastAck : Option Ack

/-- What `useChannel` is rendered with. -/
structure Hook where
  crypto : Crypto
  chainId : ℕ
  hasWallet : Bool
  channelContract : Option String
  address : Option String
  nodeAddress : Option String

/-- The state of the hook, and its entry in the local storage. -/
structure Store where
  state : Option ChannelState
  stored : Option ChannelState

/-- Why nothing is signed: the wallet is not ready, an update has no canonical bytes, or the wallet
throws. -/
inductive Thrown
  | notReady
  | malformed
  | rejected (message : String)

/-! ## The code -/

/-- The loop of `u64BeBytes`. -/
def u64BeBytes (n : ℤ) : List UInt8 := beBytesLoop 8 n []

/-- `CHANNEL_NONCE`. -/
def channelNonce : ℤ := 0

def channelIdOf (crypto : Crypto) (client node : List UInt16) (channelNonce : ℤ) :
    Option (List UInt16) := do
  let buf := uint8Array 96
  let client ← hexToBytes (client.drop 2)
  let buf ← set buf client 12
  let node ← hexToBytes (node.drop 2)
  let buf ← set buf node (32 + 12)
  let buf ← set buf (u64BeBytes channelNonce) (64 + 24)
  pure (utf16 ('0' :: 'x' :: hexEncode (crypto.keccak256 buf).toList))

namespace Hook

variable (hook : Hook)

/-- The channel of the hook. -/
def channelId : Option (List UInt16) := do
  let address ← hook.address
  let nodeAddress ← hook.nodeAddress
  channelIdOf hook.crypto (utf16 address.toList) (utf16 nodeAddress.toList) channelNonce

/-- The contract, if the wallet is ready. -/
def ready : Option String := do
  guard hook.hasWallet
  let channelContract ← hook.channelContract
  let _ ← hook.address
  let _ ← hook.nodeAddress
  pure channelContract

/-- The canonical bytes of an update, unless `BigInt` or `hexToBytes` throws. -/
def canonical (contract : String) (update : Update) : Option (List UInt8) := do
  let nonce ← update.nonce
  let cumOwed ← bigInt (utf16 update.cumOwed.toList)
  channelUpdateCanonical hook.crypto hook.chainId (utf16 contract.toList)
    (utf16 update.channelId.toList) nonce cumOwed

/-- The ack of a receipt; `signMessage` is the wallet. -/
def coSign (receipt : Receipt) (signMessage : Bytes32 → Except String String) :
    Except Thrown Ack := do
  let contract ← orThrow hook.ready .notReady
  let canonical ← orThrow (hook.canonical contract receipt.update) .malformed
  let innerHash := hook.crypto.keccak256 canonical
  let sig ← (signMessage innerHash).mapError .rejected
  pure ⟨receipt.update, sig⟩

end Hook

/-- `persist`, which is not called before there is an address and a node. -/
def persist (next : ChannelState) : Store := ⟨some next, some next⟩

/-- A receipt for the wallet. -/
structure Call where
  receipt : Receipt
  signMessage : Bytes32 → Except String String

variable (hook : Hook)

def signReceipt (store : Store) (call : Call) : Except Thrown Ack × Store :=
  match hook.coSign call.receipt call.signMessage with
  | .error e => (.error e, store)
  | .ok ack =>
    match store.state with
    | none => (.ok ack, store)
    | some state =>
      (.ok ack, persist { state with lastReceipt := some call.receipt, lastAck := some ack })

/-- The wallet, called with one receipt after the other. -/
def wallet : Machine Store Call where
  Init _ := True
  Legal _ _ := True
  next store call := (signReceipt hook store call).2

/-! ## Honest receipts -/

/-- The last ack. -/
def Store.lastAck (store : Store) : Option Ack := store.state.bind ChannelState.lastAck

/-- The update of the last ack. -/
def Store.lastUpdate (store : Store) : Option Update := store.lastAck.map Ack.update

/-- What was owed, nothing at first. -/
def owed (prev : Option Update) : ℤ := (prev.bind fun u => bigInt (utf16 u.cumOwed.toList)).getD 0

/-- The update is the next one of the channel: of this channel, newer than the one before, signed by
the node, and for the price of a round trip more. -/
structure Honest (prev : Option Update) (update : Update) (breakdown : ReceiptBreakdown)
    (nodeSig : String) : Prop where
  own : ∃ id, hook.channelId = some id ∧
    hexToBytes ((utf16 update.channelId.toList).drop 2) = hexToBytes (id.drop 2)
  newer : ∀ u ∈ prev, ∃ m n, u.nonce = some m ∧ update.nonce = some n ∧ m < n
  signed : ∃ contract canonical sig node nodeAddress, hook.ready = some contract ∧
    hook.canonical contract update = some canonical ∧
    hexDecode (utf8 (stripPrefix nodeSig.toList)) = .ok sig ∧
    hook.crypto.recoverEip191 canonical sig = some node ∧ hook.nodeAddress = some nodeAddress ∧
    hexToBytes ((utf16 nodeAddress.toList).drop 2) = some node.toList
  charged : ∃ cumOwed price cost, bigInt (utf16 update.cumOwed.toList) = some cumOwed ∧
    bigInt (utf16 breakdown.pricePer1k.toList) = some price ∧
    bigInt (utf16 breakdown.roundTripCost.toList) = some cost ∧ cumOwed = owed prev + cost ∧
    cost = Node.totalTokens breakdown.usage * price / 1000

/-- Each receipt is honest after the one before it. Where acks are not stored, that is always the
one before the first. -/
def HonestFrom (stored : Bool) : Option Update → List Receipt → Prop
  | _, [] => True
  | prev, r :: rs => Honest hook prev r.update r.breakdown r.nodeSig ∧
    HonestFrom stored (if stored then some r.update else prev) rs

/-- The wallet is ready and answers, and the update has canonical bytes. -/
def Call.signable (call : Call) : Bool :=
  match hook.ready with
  | none => false
  | some contract =>
    match hook.canonical contract call.receipt.update with
    | none => false
    | some canonical => (call.signMessage (hook.crypto.keccak256 canonical)).isOk

/-! ## What is signed -/

variable {hook} {store : Store} {call : Call}

/-- The canonical bytes of an update that was parsed. -/
theorem canonical_parse (contract : String) (update : ChannelUpdate) :
    hook.canonical contract (.parse update) =
      signReceiptCanonical hook.crypto hook.chainId (utf16 contract.toList) update := rfl

theorem coSign_of_signable (h : call.signable hook = true) :
    ∃ sig, hook.coSign call.receipt call.signMessage = .ok ⟨call.receipt.update, sig⟩ := by
  rw [Call.signable] at h
  cases hready : hook.ready with
  | none => simp only [hready, reduceCtorEq] at h
  | some contract =>
    cases hcanonical : hook.canonical contract call.receipt.update with
    | none => simp only [hready, hcanonical, reduceCtorEq] at h
    | some canonical =>
      cases hsig : call.signMessage (hook.crypto.keccak256 canonical) with
      | error message => simp only [hready, hcanonical, hsig, Except.isOk, Except.toBool,
          reduceCtorEq] at h
      | ok sig =>
        refine ⟨sig, ?_⟩
        simp only [Hook.coSign, bind_eq_ok, orThrow_eq_ok, mapError_eq_ok, pure_eq_ok]
        exact ⟨contract, hready, canonical, hcanonical, sig, hsig, rfl⟩

theorem signable_of_coSign {ack : Ack}
    (h : hook.coSign call.receipt call.signMessage = .ok ack) : call.signable hook = true := by
  simp only [Hook.coSign, bind_eq_ok, orThrow_eq_ok, mapError_eq_ok] at h
  obtain ⟨contract, hready, canonical, hcanonical, sig, hsig, -⟩ := h
  simp only [Call.signable, hready, hcanonical, hsig]
  rfl

/-- The last ack moves to the update of a receipt that is signed, where there is a state to store it
in. -/
theorem signReceipt_of_signable (h : call.signable hook = true) (store : Store) :
    ∃ sig, (signReceipt hook store call).1 = .ok ⟨call.receipt.update, sig⟩ ∧
      (signReceipt hook store call).2.state.isSome = store.state.isSome ∧
      (signReceipt hook store call).2.lastAck =
        if store.state.isSome then some ⟨call.receipt.update, sig⟩ else store.lastAck := by
  obtain ⟨sig, hsig⟩ := coSign_of_signable h
  refine ⟨sig, ?_⟩
  rw [signReceipt, hsig]
  cases hstate : store.state with
  | none => exact ⟨rfl, by rw [hstate], rfl⟩
  | some state => exact ⟨rfl, rfl, rfl⟩

theorem signReceipt_of_not_signable (h : call.signable hook = false) (store : Store) :
    (∀ ack, (signReceipt hook store call).1 ≠ .ok ack) ∧
      (signReceipt hook store call).2 = store := by
  rw [signReceipt]
  cases hsign : hook.coSign call.receipt call.signMessage with
  | error e => exact ⟨fun ack => by rintro ⟨⟩, rfl⟩
  | ok ack =>
    rw [signable_of_coSign hsign] at h
    cases h

/-! ## Runs -/

/-- The update of the ack, if there is one, is the next one of the channel. -/
def AckHonest (hook : Hook) (store : Store) (call : Call) : Prop :=
  ∀ ack, (signReceipt hook store call).1 = .ok ack →
    Honest hook store.lastUpdate ack.update call.receipt.breakdown call.receipt.nodeSig

theorem ackHonest_iff (h : call.signable hook = true) : AckHonest hook store call ↔
    Honest hook store.lastUpdate call.receipt.update call.receipt.breakdown
      call.receipt.nodeSig := by
  obtain ⟨sig, hsig, -⟩ := signReceipt_of_signable h store
  constructor
  · intro hack
    exact hack _ hsig
  · intro hhonest ack hack
    rw [hsig] at hack
    cases hack
    exact hhonest

/-- The acks of a run are honest if the receipts that are signed are. -/
theorem forall_trace_iff (calls : List Call) (store : Store) :
    (∀ e ∈ (wallet hook).trace store calls, AckHonest hook e.pre e.act) ↔
      HonestFrom hook store.state.isSome store.lastUpdate
        ((calls.filter (Call.signable hook)).map Call.receipt) := by
  induction calls generalizing store with
  | nil => simp [Machine.trace, HonestFrom]
  | cons call calls ih =>
    rw [Machine.trace, List.forall_mem_cons, ih]
    cases h : call.signable hook with
    | true =>
      obtain ⟨sig, -, hstate, hack⟩ := signReceipt_of_signable h store
      rw [List.filter_cons_of_pos h, List.map_cons, HonestFrom]
      refine and_congr (ackHonest_iff h) ?_
      have hupdate : ((wallet hook).next store call).lastUpdate =
          if store.state.isSome then some call.receipt.update else store.lastUpdate := by
        change (signReceipt hook store call).2.lastAck.map Ack.update = _
        rw [hack]
        split_ifs <;> rfl
      rw [hupdate]
      change HonestFrom hook (signReceipt hook store call).2.state.isSome _ _ ↔ _
      rw [hstate]
    | false =>
      obtain ⟨hnone, hstore⟩ := signReceipt_of_not_signable h store
      rw [List.filter_cons_of_neg (by rw [h]; decide)]
      refine (and_iff_right fun ack hack => absurd hack (hnone ack)).trans ?_
      change HonestFrom hook (signReceipt hook store call).2.state.isSome
        (signReceipt hook store call).2.lastUpdate _ ↔ _
      rw [hstore]

/-- **Acks are as honest as receipts.** In every run of `signReceipt` the acks are for updates of
the hook's channel, each newer than the last ack, signed by the node and for the price of its round
trip more, if and only if the receipts that get signed are; and then the last ack moves to nothing
else. -/
theorem acks_honest_iff (hook : Hook) (store : Store) (calls : List Call) :
    ((∀ e ∈ (wallet hook).trace store calls, ∀ ack, (signReceipt hook e.pre e.act).1 = .ok ack →
        Honest hook e.pre.lastUpdate ack.update e.act.receipt.breakdown e.act.receipt.nodeSig) ↔
      HonestFrom hook store.state.isSome store.lastUpdate
        ((calls.filter (Call.signable hook)).map Call.receipt)) ∧
    (HonestFrom hook store.state.isSome store.lastUpdate
        ((calls.filter (Call.signable hook)).map Call.receipt) →
      ∀ e ∈ (wallet hook).trace store calls, e.post.lastAck = e.pre.lastAck ∨
        ∃ ack, e.post.lastAck = some ack ∧ Honest hook e.pre.lastUpdate ack.update
          e.act.receipt.breakdown e.act.receipt.nodeSig) := by
  refine ⟨forall_trace_iff calls store, fun hhonest e he => ?_⟩
  have hack := (forall_trace_iff calls store).2 hhonest e he
  have hlegal := Machine.legalFrom_of_forall (wallet hook) (fun _ _ => trivial) calls store
  have hpost : e.post = (signReceipt hook e.pre e.act).2 :=
    (Run.of_legalFrom calls store hlegal).post_eq he
  cases h : e.act.signable hook with
  | true =>
    obtain ⟨sig, hsig, -, hlast⟩ := signReceipt_of_signable h e.pre
    rw [hpost, hlast]
    split_ifs
    · exact .inr ⟨_, rfl, hack _ hsig⟩
    · exact .inl rfl
  | false => exact .inl (by rw [hpost, (signReceipt_of_not_signable h e.pre).2])

/-! ## A stale receipt -/

def staleHook : Hook where
  crypto := Crypto.symbolic
  chainId := 84532
  hasWallet := true
  channelContract := some "0x0909090909090909090909090909090909090909"
  address := some "0x0101010101010101010101010101010101010101"
  nodeAddress := some "0x0202020202020202020202020202020202020202"

/-- A receipt that no node signed, for another channel. -/
def staleReceipt : Receipt where
  update := .parse receiptUpdate
  breakdown := ⟨"s", .Local, .zero, "0", "0"⟩
  nodeSig := ""

/-- The update of a receipt with nonce 8 was signed before. -/
def staleStore : Store :=
  let ack := some ⟨⟨receiptUpdate.channelId, some 8, "50"⟩, ""⟩
  ⟨some ⟨receiptUpdate.channelId, "", "", none, ack⟩, none⟩

theorem canonical_staleReceipt :
    staleHook.canonical "0x0909090909090909090909090909090909090909" staleReceipt.update =
      some (JobChannel.updateWords JobChannel.Deployment.testnet (.replicate 32 0xAB) 7 40) := by
  have hcontract : Spells "0x0909090909090909090909090909090909090909".toList
      (Bytes.replicate 20 9).toList := ⟨_, rfl, by decide +kernel⟩
  have hid : Spells receiptUpdate.channelId.toList (Bytes.replicate 32 0xAB).toList :=
    ⟨_, rfl, by decide +kernel⟩
  rw [staleReceipt, canonical_parse]
  exact @signReceiptCanonical_eq JobChannel.Deployment.testnet _ _ _ hcontract hid (by decide) 40
    (by decide)

/-- The wallet signs a receipt that is older than the last ack. -/
theorem stale_signed :
    (signReceipt staleHook staleStore ⟨staleReceipt, fun _ => .ok "sig"⟩).1 =
        .ok ⟨staleReceipt.update, "sig"⟩ ∧
      ¬Honest staleHook staleStore.lastUpdate staleReceipt.update staleReceipt.breakdown
        staleReceipt.nodeSig := by
  constructor
  · have hsign : staleHook.coSign staleReceipt (fun _ => .ok "sig") =
        .ok ⟨staleReceipt.update, "sig"⟩ := by
      simp only [Hook.coSign, bind_eq_ok, orThrow_eq_ok, mapError_eq_ok, pure_eq_ok]
      exact ⟨_, rfl, _, canonical_staleReceipt, "sig", rfl, rfl⟩
    rw [signReceipt, hsign]
    rfl
  · intro hhonest
    obtain ⟨m, n, hm, hn, hlt⟩ := hhonest.newer _ rfl
    cases hm
    cases hn
    exact absurd hlt (by decide)

end Flodex.Dashboard
