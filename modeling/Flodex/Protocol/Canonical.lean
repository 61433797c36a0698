import Flodex.Contracts.JobChannel
import Flodex.Protocol.Wire

/-!
# The words of a channel update

The bytes that node and client sign in Rust are the words that the contract hashes
(`canonicalChannelUpdateBytes_eq`), also from the wire form of an update
(`channelUpdateCanonicalFor_eq`), and no two updates of any channels of any contracts have the
same words (`updateWords_inj`).
-/

namespace Flodex

open Text JobChannel

variable {contract contract' : JobChannel.Config} {chainId : UInt64} {id id' : Bytes32}
  {nonce : UInt64} {n n' m m' : ℕ} {update : ChannelUpdate}

theorem length_updateWords : (updateWords contract id m n).length = 192 := by
  simp [updateWords, uintWord, addressWord]

/-- **The node signs the words that the contract hashes.** -/
theorem canonicalChannelUpdateBytes_eq (hchain : contract.chainid = chainId.toNat) (id : Bytes32)
    (nonce : UInt64) (n : ℕ) :
    canonicalChannelUpdateBytes contract.crypto chainId contract.this id nonce (beBytes 32 n) =
      updateWords contract id nonce.toNat n := by
  have hword : ∀ k : UInt64, List.replicate 24 0 ++ beBytes 8 k.toNat = uintWord k.toNat :=
    fun k => (beBytes_add 24 (show k.toNat < 256 ^ 8 from k.toNat_lt)).symm
  rw [canonicalChannelUpdateBytes, hword, hword, updateWords, hchain]
  rfl

/-- The wire form of an update has the words of its channel, nonce and amount. -/
theorem channelUpdateCanonicalFor_eq (hchain : contract.chainid = chainId.toNat)
    (hid : channelIdFromHex update.channelId = .ok id) (howed : update.owed = some n) :
    channelUpdateCanonicalFor contract.crypto update chainId contract.this =
      .ok (updateWords contract id update.nonce.toNat n) := by
  have hn : n < 256 ^ 16 := lt_of_lt_of_eq (parseUnsigned_lt howed) (by norm_num)
  refine channelUpdateCanonicalFor_eq_ok.2 ⟨id, n, hid, howed, ?_⟩
  rw [← beBytes_add 16 hn, canonicalChannelUpdateBytes_eq hchain]

/-- **No two updates have the same words.** -/
theorem updateWords_inj (hchain : contract.chainid < 2 ^ 256)
    (hchain' : contract'.chainid < 2 ^ 256) (hm : m < 2 ^ 256) (hm' : m' < 2 ^ 256)
    (hn : n < 2 ^ 256) (hn' : n' < 2 ^ 256)
    (h : updateWords contract id m n = updateWords contract' id' m' n') :
    contract.chainid = contract'.chainid ∧ contract.this = contract'.this ∧ id = id' ∧ m = m' ∧
      n = n' := by
  have hpow : 256 ^ 32 = 2 ^ 256 := by norm_num
  rw [← hpow] at hchain hchain' hm hm' hn hn'
  obtain ⟨h, howed⟩ := List.append_inj' h (by simp [uintWord])
  obtain ⟨h, hnonce⟩ := List.append_inj' h (by simp [uintWord])
  obtain ⟨h, hid⟩ := List.append_inj' h (by simp)
  obtain ⟨h, hthis⟩ := List.append_inj' h (by simp [addressWord])
  obtain ⟨-, hchainid⟩ := List.append_inj' h (by simp [uintWord])
  exact ⟨beBytes_inj hchain hchain' hchainid, Bytes.ext (List.append_cancel_left hthis),
    Bytes.ext hid, beBytes_inj hm hm' hnonce, beBytes_inj hn hn' howed⟩

end Flodex
