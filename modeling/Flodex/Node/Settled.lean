import Flodex.Contracts.Exit
import Flodex.Node.Admission
import Flodex.Node.Receipts
import Flodex.Node.Signers

/-!
# From the receipts to the payment

The node signs receipts, the client acks them, and the contract pays on both signatures.
`billedSettlement` puts the three together: the last receipt of a channel and the client's ack of
it close the channel, and what the contract then pays the node is what its receipts cost, up to
the deposit.
-/

namespace Flodex

namespace Node

open Text

variable {W : Type*}

/-! ## The property -/

/-- What the requests cost that the receipts are for, at the prices of the node. -/
def costs (cfg : ChannelConfig) (R : List NodeSignedReceipt) : ℕ :=
  (R.map fun receipt =>
    roundTripCost receipt.breakdown.usage (priceFor cfg.pricing receipt.breakdown.backend)).sum

/-- What a receipt of the node and the client's ack of it are as arguments of
`cooperativeClose`. -/
structure Submits (receipt : NodeSignedReceipt) (ack : ClientAck) (cumOwed : ℕ)
    (clientSig nodeSig : List UInt8) : Prop where
  owed : receipt.update.owed = some cumOwed
  clientSig_eq : hexDecode (utf8 (trimStart ack.clientSig.toList)) = .ok clientSig
  nodeSig_eq : hexDecode (utf8 (trimStart receipt.nodeSig.toList)) = .ok nodeSig

/-- The balances after the contract paid out a channel: the node and the client got their parts,
and the contract gave as much, unless it is a party itself. -/
structure PaidOut (contract : JobChannel.Config) (c : JobChannel.Channel)
    (usdc usdc' : Ledger Address) (paid refund : ℕ) : Prop where
  parties : ∀ a ≠ contract.this, usdc'.balanceOf a =
    usdc.balanceOf a + (if a = c.node then paid else 0) + if a = c.client then refund else 0
  contract : usdc'.balanceOf contract.this + (paid + refund) = usdc.balanceOf contract.this +
    (if c.node = contract.this then paid else 0) +
    if c.client = contract.this then refund else 0

/-! ## The receipts -/

variable {cfg : ChannelConfig} {config : Config W} {contract : JobChannel.Config}
  {chainId : UInt64} {id : Bytes32} {h : List (Step W)} {L : List Mark} {R : List NodeSignedReceipt}
  {receipt : NodeSignedReceipt} {a : ClientAck} {n : ℕ} {node : Address} {sig : List UInt8}

/-- A receipt names the cost of the usage that it reports. -/
theorem costOf_of_mem (hmem : receipt ∈ receipts (chronicle cfg id h)) : costOf receipt =
    some (roundTripCost receipt.breakdown.usage
      (priceFor cfg.pricing receipt.breakdown.backend)) := by
  obtain ⟨e, -, hmem⟩ := mem_receipts_chronicle.1 hmem
  obtain ⟨k, now, req, response, idHex, -, -, -, -, hbuilt⟩ := mem_receipts_marks.1 hmem
  rcases buildReceipt_spec idHex req.backend req.sessionId response.usage req.prevAck rfl with
    ⟨err, herr, -⟩ | ⟨chainId, channelAddr, id', entry, receipt', -, -, hr, -, hbreakdown⟩
  · rw [herr] at hbuilt
    cases hbuilt
  · rw [hr] at hbuilt
    obtain rfl := Except.ok.inj hbuilt
    rw [costOf, hbreakdown]
    exact parseUnsigned_repr (roundTripCost_lt _ _)

theorem reported_eq_costs (hR : ∀ receipt ∈ R, costOf receipt =
    some (roundTripCost receipt.breakdown.usage
      (priceFor cfg.pricing receipt.breakdown.backend))) : reported R = costs cfg R := by
  induction R with
  | nil => rfl
  | cons receipt R ih =>
    have hrest := ih fun r hr => hR r (List.mem_cons_of_mem _ hr)
    rw [reported] at hrest
    rw [reported, costs, List.filterMap_cons_some (hR receipt (.head _)), List.sum_cons, hrest,
      List.map_cons, List.sum_cons, costs]

/-- What a channel owes is what its receipts report, and its last receipt says so. -/
theorem owed_of_last (hkept : Kept cfg id L) (htotal : reported (receipts L) < 2 ^ 128) :
    (after L).cumOwed = reported (receipts L) ∧ ∀ receipt ∈ (receipts L).getLast?,
      channelIdFromHex receipt.update.channelId = .ok id ∧
        receipt.update.owed = some (reported (receipts L)) := by
  refine hkept.receiptsInduction (P := fun c R => reported R < 2 ^ 128 → c.cumOwed = reported R ∧
    ∀ receipt ∈ R.getLast?, channelIdFromHex receipt.update.channelId = .ok id ∧
      receipt.update.owed = some (reported R)) ?_ ?_ ?_ htotal
  · intro _
    exact ⟨rfl, nofun⟩
  · intro c c' R ih _ howed htotal
    obtain ⟨ho, hlast⟩ := ih htotal
    exact ⟨howed.trans ho, hlast⟩
  · intro c R receipt cost idHex ih hid hupdate hcost htotal
    rw [reported_concat hcost] at htotal ⊢
    have howed : (c.charge cost).cumOwed = reported R + cost := by
      rw [ChannelState.charge, (ih (by omega)).1, saturatingAdd_of_lt htotal]
    refine ⟨howed, fun receipt' hlast => ?_⟩
    obtain rfl : receipt = receipt' := by simpa using hlast
    rw [hupdate, ← howed]
    exact ⟨hid, owed_update (howed ▸ htotal) idHex⟩

/-! ## The signatures -/

/-- The contract recovers the node from its signature on a receipt. -/
theorem recover_nodeSig (serves : Serves cfg chainId contract)
    (signs : ∀ message, cfg.crypto.recoverEip191 message (cfg.signEip191 message) = some node)
    (signed : SignedByNode cfg receipt) (hid : channelIdFromHex receipt.update.channelId = .ok id)
    (howed : receipt.update.owed = some n) :
    ∃ nodeSig, hexDecode (utf8 (trimStart receipt.nodeSig.toList)) = .ok nodeSig ∧
      contract.crypto.recover (JobChannel.updateDigest contract id receipt.update.nonce.toNat n)
        nodeSig = some node := by
  obtain ⟨_, _, canonical, hcontract, hcanonical, hsig⟩ := signed
  obtain ⟨rfl, rfl⟩ := Prod.mk.inj (Option.some.inj (serves.contract_eq.symm.trans hcontract))
  rw [← serves.crypto_eq, channelUpdateCanonicalFor_eq serves.chainid_eq hid howed] at hcanonical
  obtain rfl := Except.ok.inj hcanonical
  refine ⟨cfg.signEip191 (JobChannel.updateWords contract id receipt.update.nonce.toNat n), ?_, ?_⟩
  · rw [hsig, String.toList_ofList]
    simp only [trimStart, trimStart_hexEncode, hexDecode_hexEncode]
  · rw [serves.crypto_eq]
    exact serves.crypto_eq ▸ signs _

/-- The contract recovers the client from its ack of the receipt. -/
theorem recover_clientSig (serves : Serves cfg chainId contract) {client : Address}
    (hid : channelIdFromHex receipt.update.channelId = .ok id)
    (acked : a.update = receipt.update) (byClient : SignedBy cfg id a client)
    (howed : receipt.update.owed = some n) :
    ∃ clientSig, hexDecode (utf8 (trimStart a.clientSig.toList)) = .ok clientSig ∧
      contract.crypto.recover (JobChannel.updateDigest contract id receipt.update.nonce.toNat n)
        clientSig = some client := by
  obtain ⟨n', clientSig, howed', hsig, hrec⟩ := (signedBy_iff serves (acked ▸ hid)).1 byClient
  rw [acked] at howed' hrec
  obtain rfl := Option.some.inj (howed.symm.trans howed')
  exact ⟨clientSig, hsig, hrec⟩

/-! ## The payment -/

theorem paidOut_of_transfers {msg : JobChannel.Msg} {c : JobChannel.Channel}
    {usdc usdc' : Ledger Address} {m paid refund : ℕ}
    (hpay : (JobChannel.Log.channelClosed id m paid refund).transfers contract msg c usdc =
      some usdc') : PaidOut contract c usdc usdc' paid refund := by
  obtain ⟨u, hnode, hclient⟩ := Option.bind_eq_some_iff.1 hpay
  refine ⟨fun a ha => ?_, ?_⟩
  · rw [Ledger.balanceOf_of_transfer hclient ha, Ledger.balanceOf_of_transfer hnode ha]
  · have hn := Ledger.balanceOf_src_of_transfer hnode
    have hc := Ledger.balanceOf_src_of_transfer hclient
    omega

/-- Two signatures on a state of an open channel close it. -/
theorem closes_of_coSigned {s₀ s : JobChannel.State} {k : List JobChannel.Step}
    (r : Run (JobChannel.machine contract) s₀ k s) (init : (JobChannel.machine contract).Init s₀)
    (opened : (s.channels id).status = .Open) {nonce : UInt64} (hn : n < 2 ^ 256)
    {clientSig nodeSig : List UInt8}
    (sigs : JobChannel.CoSignature contract (s.channels id) id nonce.toNat n clientSig nodeSig)
    (msg : JobChannel.Msg) {deposit : ℕ} (hdeposit : deposit = (s.channels id).deposit) :
    ∃ s', (JobChannel.Call.cooperativeClose id nonce (BitVec.ofNat 256 n) clientSig nodeSig).exec
        contract s msg =
        .ok (s', .channelClosed id nonce.toNat (min n deposit) (deposit - min n deposit)) ∧
      PaidOut contract (s.channels id) s.usdc s'.usdc (min n deposit)
        (deposit - min n deposit) := by
  subst hdeposit
  have hzero := ((JobChannel.wellFormed r init id).opened opened).1
  have hamount : (BitVec.ofNat 256 n).toNat = n := Nat.mod_eq_of_lt hn
  set c : JobChannel.Channel :=
    { s.channels id with latestNonce := nonce.toNat, latestCumOwed := n } with hc
  have hle : c.paid + c.refund ≤ s.usdc.balanceOf contract.this :=
    c.paid_add_refund.trans_le (JobChannel.deposit_le_balanceOf r init id)
  obtain ⟨usdc, hpay⟩ := JobChannel.transfers_channelClosed msg id nonce.toNat c hle
  have hpaid := paidOut_of_transfers hpay
  refine ⟨_, JobChannel.exec_cooperativeClose (.inl opened) ?_ ?_ ?_ hpay,
    hpaid.parties, hpaid.contract⟩
  · rw [hzero]
    exact Nat.zero_le _
  · rwa [hamount]
  · rw [hc, hamount]

/-- **What is billed is what is paid.** When the channel is open toward the node and the node
issued receipts for it of less than `2 ^ 128` in total, the last of them closes the channel with
the client's ack of it, whoever submits them: the contract pays the node what the receipts cost,
up to all that was put into the channel, and the client gets the rest. -/
theorem billedSettlement {h : List (Scene W)} {p : JobChannel.State × State}
    (H : (network contract config).History h p)
    (serves : Serves config.toChannelConfig chainId contract)
    (signs : ∀ message,
      config.crypto.recoverEip191 message (config.signEip191 message) = some node)
    (opened : (p.1.channels id).status = .Open) (toward : (p.1.channels id).node = node)
    (last : (receipts (chronicle config.toChannelConfig id
      (h.filterMap Event.right?))).getLast? = some receipt)
    (acked : a.update = receipt.update)
    (byClient : SignedBy config.toChannelConfig id a (p.1.channels id).client)
    (htotal : costs config.toChannelConfig (receipts (chronicle config.toChannelConfig id
      (h.filterMap Event.right?))) < 2 ^ 128) (msg : JobChannel.Msg) :
    let total := costs config.toChannelConfig (receipts (chronicle config.toChannelConfig id
      (h.filterMap Event.right?)))
    let deposit := JobChannel.tally contract (fun _ => JobChannel.Log.deposited id)
      (h.filterMap Event.left?)
    ∃ cumOwed clientSig nodeSig s', Submits receipt a cumOwed clientSig nodeSig ∧
      (JobChannel.Call.cooperativeClose id receipt.update.nonce (BitVec.ofNat 256 cumOwed) clientSig
        nodeSig).exec contract p.1 msg = .ok (s', .channelClosed id receipt.update.nonce.toNat
          (min total deposit) (deposit - min total deposit)) ∧
      PaidOut contract (p.1.channels id) p.1.usdc s'.usdc (min total deposit)
        (deposit - min total deposit) := by
  intro total deposit
  have hreported : reported (receipts (chronicle config.toChannelConfig id
      (h.filterMap Event.right?))) = total := reported_eq_costs fun _ hmem => costOf_of_mem hmem
  have hmem := List.mem_of_getLast? last
  obtain ⟨c₀, init, run⟩ := history_left H
  -- the receipt owes what all of them cost
  obtain ⟨-, howed⟩ := owed_of_last (kept_chronicle (history_right H) id).1 (hreported ▸ htotal)
  obtain ⟨hid, howed⟩ := howed receipt last
  rw [hreported] at howed
  obtain ⟨nodeSig, hnodeSig, hnode⟩ := recover_nodeSig serves signs (signed_of_mem hmem) hid howed
  obtain ⟨clientSig, hclientSig, hclient⟩ := recover_clientSig serves hid acked byClient howed
  -- all that was put into an open channel is its deposit
  have hdeposit : deposit = (p.1.channels id).deposit :=
    (JobChannel.deposited run init id).2.1 (by simp [opened])
  have htotal : total < 2 ^ 128 := htotal
  obtain ⟨s', hexec, hpaid⟩ := closes_of_coSigned run init opened (n := total) (by omega)
    ⟨hclient, toward ▸ hnode⟩ msg hdeposit
  exact ⟨total, clientSig, nodeSig, s', ⟨howed, hclientSig, hnodeSig⟩, hexec, hpaid⟩

namespace Deployment

open JobChannel.Deployment (testnet client channelId)

variable {agent : AgentLoop Unit} {c : JobChannel.State} {as : List (Action Unit)}

theorem Reached.finish (R : Reached agent c as) (k : ℕ) :
    Reached agent c (as ++ Deployment.finish k) := by
  have := (R.concat (.backendStep k 1 () 0) trivial).concat (.respond k 0) trivial
  rwa [List.append_assoc] at this

/-- Two requests on the channel that the client opened, the first one acked. -/
theorem reached_billed : ∃ as flights r₁ r₂,
    Reached parrot (opened JobChannel.Deployment.node) as ∧
    Standing parrot as flights 2 ([] ++ [.cached 60] ++ [.issued r₁ 10] ++
      [.acked (ackOn client 1 10) client] ++ [.issued r₂ 10]) ∧
    costOf r₁ = some 10 ∧ costOf r₂ = some 10 ∧ (ackOn client 2 20).update = r₂.update := by
  obtain ⟨as, R, S⟩ := (reached_opened parrot JobChannel.Deployment.node).fetch
    (standing_nil parrot) rfl rfl
  have S₁ := S.fetch (Function.update_self ..) (decode_opened (by decide +kernel)) (by decide)
  obtain ⟨r₁, _, S₂, -, hc₁⟩ := S₁.finish (Function.update_self ..)
  have S₃ := S₂.ack client 1 (m := 10) (by omega) nofun
  have R₃ := ((R.concat (.gateFetched 0 0) trivial).finish 0).concat
    (.ack (ackOn client 1 10)) trivial
  obtain ⟨r₂, _, S₄, hr₂, hc₂⟩ := (S₃.receive.pass (d := 60) (Function.update_self ..) rfl
    (show 10 < 60 by omega)).finish (Function.update_self ..)
  have R₄ := ((R₃.concat (.receive request 0) trivial).concat (.gate 1 0) trivial).finish 1
  refine ⟨_, _, r₁, r₂, R₄, S₄, ?_, ?_, ?_⟩
  · rw [costOf, hc₁, parseUnsigned_repr (by omega)]
  · rw [costOf, hc₂, parseUnsigned_repr (by omega)]
  · rw [hr₂]
    rfl

end Deployment

open Deployment in
/-- The two requests cost twenty of the sixty that the client put into its channel. -/
theorem billedSettlement_billed : ∃ (receipt : NodeSignedReceipt) (cumOwed : ℕ)
    (clientSig nodeSig : List UInt8) (s' : JobChannel.State),
    (JobChannel.Call.cooperativeClose JobChannel.Deployment.channelId receipt.update.nonce
      (BitVec.ofNat 256 cumOwed) clientSig nodeSig).exec JobChannel.Deployment.testnet
      (opened JobChannel.Deployment.node) ⟨JobChannel.Deployment.client, 20⟩ =
    .ok (s', .channelClosed JobChannel.Deployment.channelId receipt.update.nonce.toNat 20 40) := by
  obtain ⟨as, flights, r₁, r₂, ⟨h, H, hright⟩, S, hc₁, hc₂, hupdate⟩ := reached_billed
  have hreceipts : receipts (chronicle (Deployment.node parrot).toChannelConfig
      JobChannel.Deployment.channelId (h.filterMap Event.right?)) = [r₁, r₂] := by
    rw [hright]
    exact congrArg receipts S.chronicle_eq
  have hcosts : costs (Deployment.node parrot).toChannelConfig (receipts (chronicle
      (Deployment.node parrot).toChannelConfig JobChannel.Deployment.channelId
      (h.filterMap Event.right?))) = 20 := by
    rw [← reported_eq_costs fun _ hmem => costOf_of_mem hmem, hreceipts]
    simp [reported, hc₁, hc₂]
  have hrecord : (opened JobChannel.Deployment.node).channels JobChannel.Deployment.channelId = _ :=
    JobChannel.Deployment.record_opening
  obtain ⟨c₀, init, run⟩ := history_left H
  have hdeposit := (JobChannel.deposited run init JobChannel.Deployment.channelId).2.1
    (by simp [hrecord])
  rw [hrecord] at hdeposit
  obtain ⟨cumOwed, clientSig, nodeSig, s', -, hexec, -⟩ := billedSettlement H (serves_node parrot)
    (recoverEip191_node parrot) (by rw [hrecord]) (by rw [hrecord]) (by rw [hreceipts]; rfl)
    hupdate (by rw [hrecord]; exact signedBy_ackOn parrot _ 2 (by omega)) (by rw [hcosts]; omega)
    ⟨JobChannel.Deployment.client, 20⟩
  rw [hcosts, hdeposit] at hexec
  exact ⟨r₂, cumOwed, clientSig, nodeSig, s', hexec⟩

end Node

end Flodex
