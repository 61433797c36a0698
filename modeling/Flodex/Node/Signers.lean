import Flodex.Node.Stages
import Flodex.Protocol.Canonical

/-!
# Whose signatures count

The node learns the client of a channel from the first ack that it accepts, and the contract from
the call that opened the channel. `signedBy_iff` says that both recover a signature from the same
digest; `ackAccepted_iff` what the node accepts in the terms of the contract.
-/

namespace Flodex.Node

open Text

variable {W : Type*}

/-! ## One digest -/

/-- The node is configured for the contract. -/
structure Serves (cfg : ChannelConfig) (chainId : UInt64) (contract : JobChannel.Config) :
    Prop where
  crypto_eq : contract.crypto = cfg.crypto
  contract_eq : cfg.contract = some (chainId, contract.this)
  chainid_eq : contract.chainid = chainId.toNat

/-- The signature of the ack recovers to the signer, on the digest that the contract hashes for
the update. -/
def SignsFor (contract : JobChannel.Config) (id : Bytes32) (a : ClientAck) (signer : Address) :
    Prop :=
  ∃ cumOwed sig, a.update.owed = some cumOwed ∧
    hexDecode (utf8 (trimStart a.clientSig.toList)) = .ok sig ∧
    contract.crypto.recover (JobChannel.updateDigest contract id a.update.nonce.toNat cumOwed) sig =
      some signer

variable {cfg : ChannelConfig} {chainId : UInt64} {contract : JobChannel.Config} {id : Bytes32}
  {a : ClientAck} {signer : Address}

/-- **The node recovers the signer that the contract recovers.** -/
theorem signedBy_iff (hserves : Serves cfg chainId contract)
    (hid : channelIdFromHex a.update.channelId = .ok id) :
    SignedBy cfg id a signer ↔ SignsFor contract id a signer := by
  obtain ⟨hcrypto, hcontract, hchain⟩ := hserves
  simp only [SignedBy, ← hcrypto]
  constructor
  · rintro ⟨_, _, canonical, sig, hcontract', -, hcanonical, hsig, hrec⟩
    obtain ⟨rfl, rfl⟩ := Prod.mk.inj (Option.some.inj (hcontract.symm.trans hcontract'))
    obtain ⟨-, n, -, howed, -⟩ := channelUpdateCanonicalFor_eq_ok.1 hcanonical
    rw [channelUpdateCanonicalFor_eq hchain hid howed] at hcanonical
    obtain rfl := Except.ok.inj hcanonical
    exact ⟨n, sig, howed, hsig, hrec⟩
  · rintro ⟨n, sig, howed, hsig, hrec⟩
    exact ⟨chainId, contract.this, _, sig, hcontract, hid,
      channelUpdateCanonicalFor_eq hchain hid howed, hsig, hrec⟩

/-! ## The first signer -/

def Mark.signer? : Mark → Option Address
  | .acked _ signer => some signer
  | _ => none

/-- The signer of the first accepted ack. -/
def firstSigner (L : List Mark) : Option Address := L.findSome? Mark.signer?

variable {L : List Mark}

/-- The node knows the signer of the first ack, and every later one has the same. -/
theorem clientAddress_after (h : Kept cfg id L) :
    (after L).clientAddress = firstSigner L := by
  induction L using List.reverseRecOn with
  | nil => rfl
  | append_singleton L m ih =>
    have ih := ih h.left
    rw [after_concat, firstSigner, List.findSome?_append]
    change _ = (firstSigner L).or _
    rw [← ih]
    cases m with
    | cached deposit => exact (Option.or_none).symm
    | issued receipt cost => exact (Option.or_none).symm
    | acked a signer =>
      obtain ⟨-, hknown⟩ := h.last
      cases hclient : (after L).clientAddress with
      | none => rfl
      | some known =>
        obtain rfl := hknown known hclient
        rfl

/-! ## What the node accepts -/

/-- The node records the ack, with the request of this channel id or by itself. -/
def Accepts (cfg : ChannelConfig) (entry : ChannelState) (a : ClientAck) (idHex : String)
    (chainId : UInt64) (channelAddr : Address) : Prop :=
  ∃ entry', verifyAndRecordAck cfg entry a idHex chainId channelAddr = .ok entry'

/-- What `_verifySigs` checks of the client's signature, where the node's is valid. -/
theorem verifySigs_eq_ok {nonce cumOwed : ℕ} {clientSig nodeSig : List UInt8}
    {client node : Address}
    (hnode : contract.crypto.recover (JobChannel.updateDigest contract id nonce cumOwed) nodeSig =
      some node) :
    JobChannel.verifySigs contract id nonce cumOwed clientSig nodeSig client node = .ok () ↔
      contract.crypto.recover (JobChannel.updateDigest contract id nonce cumOwed) clientSig =
        some client := by
  simp only [JobChannel.verifySigs, bind_eq_ok, orThrow_eq_ok, require_eq_ok, hnode,
    Option.some.injEq]
  constructor
  · rintro ⟨recovered, hrec, -, rfl, -⟩
    exact hrec
  · intro hrec
    exact ⟨client, hrec, (), rfl, node, rfl, rfl⟩

variable {config : Config W} {h : List (Step W)} {t : State} {idHex : String}

/-- **What the node accepts, in the terms of the contract**: signatures by the signer of the first
ack that it accepted for the channel, and by anyone while there is none. Where the first signer is
the client of the contract, the node accepts what `_verifySigs` accepts. -/
theorem ackAccepted_iff (r : Run (machine config) .start h t)
    (hserves : Serves config.toChannelConfig chainId contract)
    (hidHex : channelIdFromHex idHex = .ok id)
    (hid : channelIdFromHex a.update.channelId = .ok id) :
    let first := firstSigner (chronicle config.toChannelConfig id h)
    (Accepts config.toChannelConfig (t.channels.state id) a idHex chainId contract.this ↔
      ∃ signer, SignsFor contract id a signer ∧ ∀ known ∈ first, known = signer) ∧
    ∀ client ∈ first, ∀ cumOwed sig node nodeSig, a.update.owed = some cumOwed →
      hexDecode (utf8 (trimStart a.clientSig.toList)) = .ok sig →
      contract.crypto.recover (JobChannel.updateDigest contract id a.update.nonce.toNat cumOwed)
        nodeSig = some node →
      (Accepts config.toChannelConfig (t.channels.state id) a idHex chainId contract.this ↔
        JobChannel.verifySigs contract id a.update.nonce.toNat cumOwed sig nodeSig client node =
          .ok ()) := by
  obtain ⟨hkept, hstate⟩ := kept_chronicle r id
  have hfirst : (t.channels.state id).clientAddress = _ := hstate ▸ clientAddress_after hkept
  have haccepts : Accepts config.toChannelConfig (t.channels.state id) a idHex chainId
      contract.this ↔ ∃ signer, SignsFor contract id a signer ∧
        ∀ known ∈ firstSigner (chronicle config.toChannelConfig id h), known = signer := by
    simp only [Accepts, verifyAndRecordAck_eq_ok hserves.contract_eq hidHex,
      signedBy_iff hserves hid, hfirst]
    constructor
    · rintro ⟨_, signer, hsigns, hknown, rfl⟩
      exact ⟨signer, hsigns, hknown⟩
    · rintro ⟨signer, hsigns, hknown⟩
      exact ⟨_, signer, hsigns, hknown, rfl⟩
  refine ⟨haccepts, fun client hclient cumOwed sig node nodeSig howed hsig hnode => ?_⟩
  rw [haccepts, verifySigs_eq_ok hnode]
  constructor
  · rintro ⟨signer, ⟨cumOwed', sig', howed', hsig', hrec⟩, hknown⟩
    obtain rfl := Option.some.inj (howed.symm.trans howed')
    obtain rfl := Except.ok.inj (hsig.symm.trans hsig')
    rwa [← hknown client hclient] at hrec
  · intro hrec
    refine ⟨client, ⟨cumOwed, sig, howed, hsig, hrec⟩, fun known hknown => ?_⟩
    exact Option.mem_unique hknown hclient

namespace Deployment

open JobChannel.Deployment (testnet client channelId opening)

theorem serves_node (agent : AgentLoop W) :
    Serves (node agent).toChannelConfig 84532 testnet := ⟨rfl, contract_node agent, rfl⟩

theorem signsFor_ackOn (key : Address) (nonce : UInt64) {m : ℕ} (hm : m < 2 ^ 128) :
    SignsFor testnet channelId (ackOn key nonce m) key :=
  (signedBy_iff (serves_node parrot) (channelIdFromHex_ackOn key nonce m)).1
    (signedBy_ackOn parrot key nonce hm)

/-- The node that runs the parrot records the ack in the state that the actions lead to. -/
def AcceptsAfter (as : List (Action Unit)) (a : ClientAck) : Prop :=
  Accepts (node parrot).toChannelConfig ((final parrot as).channels.state channelId) a
    (hexText channelId.toList) 84532 testnet.this

theorem standing_first (key : Address) :
    Standing parrot [.ack (ackOn key 1 10)] (fun _ => none) 0 [.acked (ackOn key 1 10) key] :=
  (standing_nil parrot).ack key 1 (by omega) (by simp [ChannelState.new])

def stranger : Address := .replicate 20 5

end Deployment

open Deployment

open JobChannel.Deployment (testnet client channelId opening)

theorem ackAccepted_client : AcceptsAfter [.ack (ackOn client 1 10)] (ackOn client 2 20) := by
  have hchronicle : chronicle _ channelId (trace parrot _) = _ :=
    (standing_first client).chronicle_eq
  obtain ⟨haccepts, -⟩ := ackAccepted_iff (run parrot [.ack (ackOn client 1 10)])
    (serves_node parrot) (channelIdFromHex_hexText channelId)
    (channelIdFromHex_ackOn client 2 20)
  refine haccepts.2 ⟨client, signsFor_ackOn client 2 (by omega), ?_⟩
  rw [hchronicle]
  rintro known ⟨⟩
  rfl

/-- A stranger who acks first is taken for the client of a channel that the client opened, and the
client is refused. -/
theorem stranger_first :
    (((JobChannel.Deployment.final opening).channels channelId).client = client ∧
      ((JobChannel.Deployment.final opening).channels channelId).status = .Open) ∧
    SignsFor testnet channelId (ackOn client 1 10) client ∧
    AcceptsAfter [] (ackOn stranger 1 10) ∧
    ¬ AcceptsAfter [.ack (ackOn stranger 1 10)] (ackOn client 1 10) := by
  refine ⟨by decide +kernel, signsFor_ackOn client 1 (by omega), ?_, ?_⟩
  · exact ⟨_, (verifyAndRecordAck_eq_ok (contract_node parrot)
      (channelIdFromHex_hexText channelId)).2
      ⟨stranger, signedBy_ackOn parrot stranger 1 (by omega), nofun, rfl⟩⟩
  · rintro ⟨entry, hentry⟩
    obtain ⟨signer, hsigned, hknown, -⟩ :=
      (verifyAndRecordAck_eq_ok (contract_node parrot)
        (channelIdFromHex_hexText channelId)).1 hentry
    rw [(standing_first stranger).state_eq] at hknown
    obtain rfl := hsigned.unique (signedBy_ackOn parrot client 1 (by omega))
    exact absurd (hknown stranger rfl) (by decide)

end Flodex.Node
