import Flodex.Node.Stages

/-!
# The node's best collectible state

`last_acked` is what the node would settle a channel on. It is overwritten by every ack the node
accepts, whatever its nonce and whether the node ever signed it. `collectible` says that it is the
highest of the node's own updates that the client signed as long as the acks come in order: each
on an update the node issued, none below the last.
-/

namespace Flodex.Node

variable {W : Type*}

/-! ## The property -/

/-- The node issued the update, whatever the spelling of its numbers and its channel. -/
def Issued (L : List Mark) (u : ChannelUpdate) : Prop :=
  ∃ r ∈ receipts L, r.update.nonce = u.nonce ∧ r.update.owed = u.owed

/-- The ack is the highest on an update that the node issued, among the accepted ones. -/
def Best (L : List Mark) : Option ClientAck → Prop
  | none => ∀ a ∈ acks L, ¬ Issued L a.update
  | some last => last ∈ acks L ∧ Issued L last.update ∧
    ∀ a ∈ acks L, Issued L a.update → a.update.nonce ≤ last.update.nonce

/-- The later ack is no lower than the earlier one. -/
def NotLower (earlier later : Option ClientAck) : Prop :=
  ∀ a ∈ earlier, ∃ b ∈ later, a.update.nonce ≤ b.update.nonce ∧
    ∃ m n, a.update.owed = some m ∧ b.update.owed = some n ∧ m ≤ n

/-! ## The condition -/

/-- Every accepted ack is on an update that the node issued before, and not below the last one. -/
def AcksInOrder : List Mark → Prop :=
  Along fun L m => ∀ a ∈ m.ack?, Issued L a.update ∧
    ∀ last ∈ (after L).lastAcked, last.update.nonce ≤ a.update.nonce

variable {L L' : List Mark} {m : Mark} {cfg : ChannelConfig} {id : Bytes32} {u : ChannelUpdate}

theorem Issued.append (h : Issued L u) (L' : List Mark) : Issued (L ++ L') u := by
  obtain ⟨r, hr, h⟩ := h
  exact ⟨r, by simp [hr], h⟩

/-! ## The last ack -/

/-- What the acks of a channel say about the last one, when they come in order. -/
def LastHighest (L : List Mark) : Option ClientAck → Prop
  | none => acks L = []
  | some last => last ∈ acks L ∧ Issued L last.update ∧
    ∀ a ∈ acks L, a.update.nonce ≤ last.update.nonce

theorem LastHighest.best {last : Option ClientAck} (h : LastHighest L last) : Best L last := by
  cases last with
  | none =>
    intro a ha
    rw [h] at ha
    simp at ha
  | some last => exact ⟨h.1, h.2.1, fun a ha _ => h.2.2 a ha⟩

theorem LastHighest.frame {last : Option ClientAck} (h : LastHighest L last)
    (hm : acks [m] = []) : LastHighest (L ++ [m]) last := by
  cases last with
  | none =>
    change acks (L ++ [m]) = []
    rw [acks_append, hm, List.append_nil]
    exact h
  | some last =>
    refine ⟨?_, h.2.1.append _, ?_⟩
    · rw [acks_append, hm, List.append_nil]
      exact h.1
    · rw [acks_append, hm, List.append_nil]
      exact h.2.2

theorem lastHighest (h : AcksInOrder L) : LastHighest L (after L).lastAcked := by
  induction L using List.reverseRecOn with
  | nil => exact acks_nil
  | append_singleton L m ih =>
    have ih := ih h.left
    rw [after_concat]
    cases m with
    | cached deposit => exact ih.frame acks_cached
    | issued receipt cost => exact ih.frame acks_issued
    | acked a signer =>
      obtain ⟨hissued, hlast⟩ := h.last a rfl
      refine ⟨by simp, hissued.append _, fun b hb => ?_⟩
      rw [acks_append, acks_acked] at hb
      rcases List.mem_append.1 hb with hb | hb
      · -- an earlier ack is not above the last one before, and that one is not above this one
        cases hl : (after L).lastAcked with
        | none =>
          rw [hl] at ih
          rw [show acks L = [] from ih] at hb
          simp at hb
        | some last =>
          rw [hl] at ih
          exact UInt64.le_trans (ih.2.2 b hb) (hlast last hl)
      · obtain rfl := List.mem_singleton.1 hb
        exact UInt64.le_refl _

/-! ## The receipts -/

/-- The receipts of a channel that issued fewer than `2 ^ 64`: their amounts are in the order of
their nonces, and the state of the channel is not below any of them. -/
structure Chain (L : List Mark) (c : ChannelState) : Prop where
  nonce : c.nonce.toNat = (receipts L).length
  cumOwed : c.cumOwed < 2 ^ 128
  below : ∀ r ∈ receipts L, r.update.nonce.toNat ≤ c.nonce.toNat ∧
    ∃ n, r.update.owed = some n ∧ n ≤ c.cumOwed
  sorted : ∀ r ∈ receipts L, ∀ r' ∈ receipts L, r.update.nonce ≤ r'.update.nonce →
    ∃ n n', r.update.owed = some n ∧ r'.update.owed = some n' ∧ n ≤ n'

theorem Chain.congr {c c' : ChannelState} (h : Chain L c) (hr : receipts L' = receipts L)
    (hn : c'.nonce = c.nonce) (ho : c'.cumOwed = c.cumOwed) : Chain L' c' := by
  obtain ⟨hnonce, howed, hbelow, hsorted⟩ := h
  rw [← hn, ← hr] at hnonce
  rw [← ho] at howed
  rw [← hn, ← ho, ← hr] at hbelow
  rw [← hr] at hsorted
  exact ⟨hnonce, howed, hbelow, hsorted⟩

/-- The next receipt has the highest nonce, and the largest amount. -/
theorem Chain.issue {c : ChannelState} {receipt : NodeSignedReceipt} {cost : ℕ} {idHex : String}
    (h : Chain L c) (hcount : (receipts L).length + 1 < 2 ^ 64)
    (hupdate : receipt.update = (c.charge cost).update idHex) :
    Chain (L ++ [.issued receipt cost]) (c.charge cost) := by
  obtain ⟨hnonce, howed, hbelow, hsorted⟩ := h
  have hadd : saturatingAdd 64 c.nonce.toNat 1 = c.nonce.toNat + 1 :=
    saturatingAdd_of_lt (by omega)
  have hnonce' : (c.charge cost).nonce.toNat = c.nonce.toNat + 1 := by
    rw [ChannelState.charge, hadd, UInt64.toNat_ofNat_of_lt' (by rw [UInt64.size]; omega)]
  have howed' : (c.charge cost).cumOwed < 2 ^ 128 := saturatingAdd_lt ..
  have hle : c.cumOwed ≤ (c.charge cost).cumOwed := by
    simp only [ChannelState.charge, saturatingAdd]
    omega
  have hrnonce : receipt.update.nonce.toNat = c.nonce.toNat + 1 := by
    rw [hupdate]
    exact hnonce'
  have hrowed : receipt.update.owed = some (c.charge cost).cumOwed := by
    rw [hupdate]
    exact owed_update howed' idHex
  have hmem : ∀ r ∈ receipts (L ++ [.issued receipt cost]), r ∈ receipts L ∨ r = receipt := by
    intro r hr
    rw [receipts_append, List.mem_append] at hr
    exact hr.imp_right List.mem_singleton.1
  refine ⟨?_, howed', fun r hr => ?_, fun r hr r' hr' hle' => ?_⟩
  · rw [hnonce', hnonce, receipts_append, List.length_append]
    rfl
  · rcases hmem r hr with hr | rfl
    · obtain ⟨hn, n, hown, hno⟩ := hbelow r hr
      exact ⟨by omega, n, hown, hno.trans hle⟩
    · exact ⟨by omega, _, hrowed, le_rfl⟩
  · rw [UInt64.le_iff_toNat_le] at hle'
    rcases hmem r hr with hold | rfl <;> rcases hmem r' hr' with hold' | rfl
    · exact hsorted r hold r' hold' (UInt64.le_iff_toNat_le.2 hle')
    · obtain ⟨-, n, hown, hno⟩ := hbelow r hold
      exact ⟨n, _, hown, hrowed, hno.trans hle⟩
    · have := (hbelow r' hold').1
      omega
    · exact ⟨_, _, hrowed, hrowed, le_rfl⟩

theorem chain (h : Kept cfg id L) (hcount : (receipts L).length < 2 ^ 64) :
    Chain L (after L) := by
  induction L using List.reverseRecOn with
  | nil => exact ⟨rfl, by norm_num [ChannelState.new], by simp, by simp⟩
  | append_singleton L m ih =>
    rw [receipts_append, List.length_append] at hcount
    have ih := ih h.left (by omega)
    rw [after_concat]
    cases m with
    | cached deposit => exact ih.congr (by simp) rfl rfl
    | acked a signer => exact ih.congr (by simp) rfl rfl
    | issued receipt cost =>
      obtain ⟨⟨idHex, -, hupdate⟩, -, -⟩ := h.last
      exact ih.issue hcount hupdate

/-! ## The best collectible state -/

/-- Issued updates have their amounts in the order of their nonces. -/
theorem Chain.owed_le {c : ChannelState} {u u' : ChannelUpdate} (h : Chain L c) (hu : Issued L u)
    (hu' : Issued L u') (hle : u.nonce ≤ u'.nonce) :
    ∃ m n, u.owed = some m ∧ u'.owed = some n ∧ m ≤ n := by
  obtain ⟨r, hr, hnonce, howed⟩ := hu
  obtain ⟨r', hr', hnonce', howed'⟩ := hu'
  rw [← howed, ← howed']
  exact h.sorted r hr r' hr' (by rwa [hnonce, hnonce'])

theorem notLower (hkept : Kept cfg id (L ++ L')) (hacks : AcksInOrder (L ++ L'))
    (hcount : (receipts (L ++ L')).length < 2 ^ 64) :
    NotLower (after L).lastAcked (after (L ++ L')).lastAcked := by
  intro a ha
  have hlast := lastHighest hacks.left
  rw [show (after L).lastAcked = some a from ha] at hlast
  obtain ⟨hmem, hissued, -⟩ := hlast
  have hmem' : a ∈ acks (L ++ L') := by simp [hmem]
  have hlast' := lastHighest hacks
  cases hl : (after (L ++ L')).lastAcked with
  | none =>
    rw [hl] at hlast'
    rw [show acks (L ++ L') = [] from hlast'] at hmem'
    simp at hmem'
  | some b =>
    rw [hl] at hlast'
    obtain ⟨-, hissued', hhighest⟩ := hlast'
    have hle := hhighest a hmem'
    exact ⟨b, rfl, hle, (chain hkept hcount).owed_le (hissued.append L') hissued' hle⟩

/-- **The node's best collectible state does not regress** while the acks come in order: the last
ack is the highest of the node's updates that the client signed, and is never replaced by a lower
one. -/
theorem collectible {config : Config W} {h₁ h₂ : List (Step W)} {s t : State}
    (r₁ : Run (machine config) .start h₁ s) (r₂ : Run (machine config) s h₂ t) (id : Bytes32)
    (hacks : AcksInOrder (chronicle config.toChannelConfig id (h₁ ++ h₂)))
    (hcount : (receipts (chronicle config.toChannelConfig id (h₁ ++ h₂))).length < 2 ^ 64) :
    Best (chronicle config.toChannelConfig id (h₁ ++ h₂)) (t.channels.state id).lastAcked ∧
      NotLower (s.channels.state id).lastAcked (t.channels.state id).lastAcked := by
  obtain ⟨-, hs⟩ := kept_chronicle r₁ id
  obtain ⟨hkept, ht⟩ := kept_chronicle (r₁.trans r₂) id
  rw [hs, ht]
  refine ⟨(lastHighest hacks).best, ?_⟩
  rw [chronicle_append] at hkept hacks hcount ⊢
  exact notLower hkept hacks hcount

namespace Deployment

open JobChannel.Deployment (client channelId)

/-- The last ack of the channel after some actions. -/
def lastAcked (as : List (Action Unit)) : Option ClientAck :=
  ((final parrot as).channels.state channelId).lastAcked

end Deployment

open Deployment

open JobChannel.Deployment (client channelId)

theorem collectible_acked : Best (chronicleOf parrot acked) (lastAcked acked) ∧
    NotLower (lastAcked served) (lastAcked acked) := by
  obtain ⟨_, r₁, r₂, S, ⟨hn₁, ho₁, -⟩, hn₂, ho₂, -⟩ := standing_acked
  have hchronicle := S.chronicle_eq
  have hacks : AcksInOrder (marksAcked r₁ r₂) := by
    simp only [marksAcked, AcksInOrder, along_concat]
    refine ⟨⟨⟨⟨⟨along_nil, nofun⟩, nofun⟩, ?_⟩, nofun⟩, ?_⟩
    · rintro a ⟨⟩
      exact ⟨⟨r₁, .head _, hn₁, ho₁.trans (owed_ackOn client 1 (by omega)).symm⟩, nofun⟩
    · rintro a ⟨⟩
      refine ⟨⟨r₂, .tail _ (.head _), hn₂, ho₂.trans (owed_ackOn client 2 (by omega)).symm⟩, ?_⟩
      rintro last ⟨⟩
      exact (by decide : (1 : UInt64) ≤ 2)
  have hcount : (receipts (marksAcked r₁ r₂)).length < 2 ^ 64 := (by omega : 2 < 2 ^ 64)
  rw [lastAcked, lastAcked, chronicleOf, acked]
  rw [← hchronicle, acked, chronicleOf, trace_concat] at hacks hcount
  have := collectible (run parrot served) (run_concat parrot served _) channelId hacks hcount
  rwa [← trace_concat] at this

/-- A replayed ack lowers the last ack, though the node issued both updates. -/
theorem replayed_ack_collected :
    let replayed := acked ++ [.ack (ackOn client 1 10)]
    ¬ Best (chronicleOf parrot replayed) (lastAcked replayed) ∧
      ¬ NotLower (lastAcked acked) (lastAcked replayed) := by
  obtain ⟨_, r₁, r₂, S, -, hn₂, ho₂, -⟩ := standing_acked
  have S' := S.ack client 1 (m := 10) (by omega) (by rintro known ⟨⟩; rfl)
  have hacked : lastAcked acked = some (ackOn client 2 20) := by
    rw [lastAcked, S.state_eq]
    rfl
  have hreplayed : lastAcked (acked ++ [.ack (ackOn client 1 10)]) = some (ackOn client 1 10) := by
    rw [lastAcked, S'.state_eq]
    rfl
  dsimp only
  rw [hacked, hreplayed, S'.chronicle_eq]
  constructor
  · rintro ⟨-, -, hhighest⟩
    have hissued : Issued (marksAcked r₁ r₂ ++ [.acked (ackOn client 1 10) client])
        (ackOn client 2 20).update :=
      ⟨r₂, .tail _ (.head _), hn₂, ho₂.trans (owed_ackOn client 2 (by omega)).symm⟩
    have : (2 : UInt64) ≤ 1 := hhighest (ackOn client 2 20) (.tail _ (.head _)) hissued
    exact absurd this (by decide)
  · intro h
    obtain ⟨b, hb, hle, -⟩ := h _ rfl
    obtain rfl := Option.some.inj hb
    have : (2 : UInt64) ≤ 1 := hle
    exact absurd this (by decide)

end Flodex.Node
