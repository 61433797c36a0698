import Flodex.Node.LastAcks
import Flodex.Node.Stages

/-!
# Acks are filed under their own channel

The node looks a channel up by the bytes of its id, and compares the id of an ack with it as a text.
`ack_filed` says that both mean the same: what is recorded is recorded under the bytes of its own
id, and no ack with these bytes fails the comparison, however the two ids are spelled.
-/

namespace Flodex.Node

open Function

variable {W : Type*}

/-- A channel with another last ack than before has this one, which is its own. -/
def Files (channels channels' : ChannelMap) (ack : ClientAck) : Prop :=
  ∀ id, (channels'.state id).lastAcked = (channels.state id).lastAcked ∨
    (channels'.state id).lastAcked = some ack ∧ channelIdFromHex ack.update.channelId = .ok id

variable {cfg : ChannelConfig} {channels : ChannelMap} {entry entry' : ChannelState}
  {a : ClientAck} {idHex : String} {chainId : UInt64} {channelAddr : Address} {key : Bytes32}

/-! ## One ack -/

/-- What is recorded in the entry of a channel is an ack of that channel. -/
theorem verifyAndRecordAck_own (hkey : channelIdFromHex idHex = .ok key)
    (h : verifyAndRecordAck cfg entry a idHex chainId channelAddr = .ok entry') :
    channelIdFromHex a.update.channelId = .ok key ∧ entry'.lastAcked = some a := by
  simp only [verifyAndRecordAck, bind_eq_ok, require_eq_ok, pure_eq_ok] at h
  obtain ⟨_, hnorm, canonical, hcanonical, sigBytes, -, _, -, signer, -, _, -, rfl⟩ := h
  obtain ⟨id, n, hid, -⟩ := channelUpdateCanonicalFor_eq_ok.1 hcanonical
  obtain rfl := (normalize_channelId_iff cfg.fold hid hkey).1 hnorm
  exact ⟨hid, rfl⟩

theorem hexField_ne_mismatch {n : ℕ} {badHex : Text.FromHexError → ProtocolError}
    {badLength : ℕ → ProtocolError} (hhex : ∀ e, badHex e ≠ .ackChannelIdMismatch)
    (hlength : ∀ n, badLength n ≠ .ackChannelIdMismatch) (s : String) :
    FailsWith (· ≠ .ackChannelIdMismatch) (hexField n badHex badLength s) := by
  unfold hexField
  split
  · rintro _ ⟨⟩
    exact hhex _
  · exact .orThrow fun _ => hlength _

/-- The comparison of the texts is the only step that finds a mismatch. -/
theorem normalize_ne_of_mismatch
    (h : verifyAndRecordAck cfg entry a idHex chainId channelAddr = .error .ackChannelIdMismatch) :
    Text.normalize cfg.fold a.update.channelId.toList ≠
      Text.normalize cfg.fold idHex.toList := by
  have hfails : FailsWith
      (fun e => e = .ackChannelIdMismatch → Text.normalize cfg.fold a.update.channelId.toList ≠
        Text.normalize cfg.fold idHex.toList)
      (verifyAndRecordAck cfg entry a idHex chainId channelAddr) := by
    refine .bind (.require fun hne _ => hne) fun _ _ => .bind ?_ fun canonical _ =>
      .bind (.mapError fun _ _ he => by cases he) fun sigBytes _ =>
      .bind (.require fun _ he => by cases he) fun _ _ =>
      .bind (.orThrow fun _ he => by cases he) fun recovered _ =>
      .bind (.require fun _ he => by cases he) fun _ _ => .pure _
    have hcanonical : FailsWith (· ≠ .ackChannelIdMismatch)
        (channelUpdateCanonicalFor cfg.crypto a.update chainId channelAddr) :=
      .bind (hexField_ne_mismatch (by simp) (by simp) _) fun channelId _ =>
        .bind (.bind (.orThrow fun _ => by simp) fun n _ => .pure _) fun cumOwed _ => .pure _
    exact fun e he hmismatch => absurd hmismatch (hcanonical e he)
  exact hfails _ h rfl

theorem files_buildReceipt (cfg : ChannelConfig) (channels : ChannelMap) (a : ClientAck)
    (idHex : String) (backend : BackendType) (sessionId : String) (usage : Usage) :
    Files channels (buildReceipt cfg channels idHex backend sessionId usage (some a)).1 a := by
  intro id
  rcases buildReceipt_spec idHex backend sessionId usage (some a) rfl with
    ⟨e, -, hsame⟩ | ⟨chainId, channelAddr, id', entry, receipt, hch, hrec, hr, -⟩
  · rw [hsame]
    exact .inl rfl
  · obtain ⟨-, hid⟩ := resolveChannel_eq_ok.1 hch
    rw [hr]
    by_cases h : id = id'
    · subst h
      rw [state_update_self]
      exact .inr (verifyAndRecordAck_own hid hrec).symm
    · rw [state_update_of_ne _ _ h]
      exact .inl rfl

theorem files_ack (cfg : ChannelConfig) (channels : ChannelMap) (a : ClientAck) :
    Files channels (Node.ack cfg channels a).1 a := by
  intro id
  rcases state_ack cfg channels a id with hsame | ⟨signer, chainId, channelAddr, hch, hrecord⟩
  · rw [hsame]
    exact .inl rfl
  · rw [hrecord]
    exact .inr ⟨rfl, (resolveChannel_eq_ok.1 hch).2⟩

/-- **An ack is filed under its own channel**: with the request of an accepted channel id or by
itself, it is recorded only under the bytes that its own id decodes to, and if these are the bytes
of the request it does not fail for its spelling. -/
theorem ack_filed (cfg : ChannelConfig) (channels : ChannelMap) (entry : ChannelState)
    (a : ClientAck) (chainId : UInt64) (channelAddr : Address) (backend : BackendType)
    (sessionId : String) (usage : Usage) (hkey : channelIdFromHex idHex = .ok key) :
    (∀ entry', verifyAndRecordAck cfg entry a idHex chainId channelAddr = .ok entry' →
        channelIdFromHex a.update.channelId = .ok key ∧ entry'.lastAcked = some a) ∧
      (channelIdFromHex a.update.channelId = .ok key →
        verifyAndRecordAck cfg entry a idHex chainId channelAddr ≠ .error .ackChannelIdMismatch) ∧
      Files channels (buildReceipt cfg channels idHex backend sessionId usage (some a)).1 a ∧
      Files channels (Node.ack cfg channels a).1 a := by
  refine ⟨fun entry' h => verifyAndRecordAck_own hkey h, fun hid hmismatch => ?_,
    files_buildReceipt cfg channels a idHex backend sessionId usage, files_ack cfg channels a⟩
  exact normalize_ne_of_mismatch hmismatch ((normalize_channelId_iff cfg.fold hid hkey).2 rfl)

open JobChannel.Deployment Deployment in
/-- The ack has its channel id in lower case with a prefix, and the request has it in upper case
without one. -/
theorem ack_filed_upper : ∃ entry',
    verifyAndRecordAck (node parrot).toChannelConfig .new (ackOn client 1 10)
        (.ofList ((Text.hexEncode channelId.toList).map Char.toUpper)) 84532 testnet.this =
      .ok entry' ∧
    entry'.lastAcked = some (ackOn client 1 10) := by
  have hkey : channelIdFromHex (.ofList ((Text.hexEncode channelId.toList).map Char.toUpper)) =
      .ok channelId := by
    decide +kernel
  obtain ⟨hfiled, -, -, -⟩ := ack_filed (node parrot).toChannelConfig (fun _ => none) .new
    (ackOn client 1 10) 84532 testnet.this .Local "s" .zero hkey
  have hsigned : SignedBy (node parrot).toChannelConfig channelId (ackOn client 1 10) client :=
    signedBy_ackOn parrot client 1 (by omega)
  have hknown : ∀ known ∈ ChannelState.new.clientAddress, known = client := by
    rintro known ⟨⟩
  have hverify := (verifyAndRecordAck_eq_ok (contract_node parrot) hkey).2
    ⟨client, hsigned, hknown, rfl⟩
  exact ⟨_, hverify, (hfiled _ hverify).2⟩

end Flodex.Node
