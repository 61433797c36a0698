import Flodex.Node.Stages

/-!
# The debt of a channel

What a client owes beyond its last ack. Nothing in the node makes a client ack: `exposed` bounds
the debt by the cost of one round trip for the channels whose acks keep up with the receipts, and
`unacked_debt` is a client that never acks.
-/

namespace Flodex.Node

variable {W : Type*}

/-- The amount of the last ack, `0` without one. -/
def ackedOwed (c : ChannelState) : ℕ := (c.lastAcked.bind fun a => a.update.owed).getD 0

/-- **At most one round trip of bad debt**: beyond the last ack, no more is owed than the latest
receipt cost. -/
def Exposed (L : List Mark) (c : ChannelState) : Prop := c.cumOwed - ackedOwed c ≤ latestCost L

/-- The acks keep up: a receipt is issued when all that is owed was acked, and an ack is for no
less than what was owed before the latest receipt. -/
def AcksKeepUp : List Mark → Prop :=
  Along fun L m => match m with
    | .cached _ => True
    | .issued _ _ => (after L).cumOwed ≤ ackedOwed (after L)
    | .acked a _ => ∃ n, a.update.owed = some n ∧ (after L).cumOwed - latestCost L ≤ n

variable {L : List Mark} {cfg : ChannelConfig} {id : Bytes32} {c : ChannelState} {a : ClientAck}
  {signer : Address} {n : ℕ}

theorem ackedOwed_record (h : a.update.owed = some n) :
    ackedOwed (c.record a signer) = n := by
  simp [ackedOwed, ChannelState.record, h]

theorem exposed_after (hkept : Kept cfg id L) (hacks : AcksKeepUp L) : Exposed L (after L) := by
  induction L using List.reverseRecOn with
  | nil => exact Nat.zero_le _
  | append_singleton L m ih =>
    have ih := ih hkept.left hacks.left
    have hm := hacks.last
    rw [after_concat]
    cases m with
    | cached deposit =>
      have hcost : latestCost (L ++ [.cached deposit]) = latestCost L := by simp [latestCost]
      rw [Exposed, hcost]
      exact ih
    | issued receipt cost =>
      have hcost : latestCost (L ++ [.issued receipt cost]) = cost := latestCost_issued hkept
      have hadd : saturatingAdd 128 (after L).cumOwed cost ≤ (after L).cumOwed + cost :=
        Nat.min_le_left ..
      have hacked : (after L).cumOwed ≤ ackedOwed (after L) := hm
      rw [Exposed, hcost]
      change saturatingAdd 128 (after L).cumOwed cost - ackedOwed (after L) ≤ cost
      omega
    | acked a signer =>
      obtain ⟨n, howed, hn⟩ := hm
      have hcost : latestCost (L ++ [.acked a signer]) = latestCost L := by simp [latestCost]
      rw [Exposed, hcost, Mark.apply, ackedOwed_record howed]
      change (after L).cumOwed - n ≤ latestCost L
      omega

/-- **A channel whose acks keep up owes at most one round trip** beyond its last ack. -/
theorem exposed {config : Config W} {h : List (Step W)} {t : State}
    (r : Run (machine config) .start h t) (id : Bytes32)
    (hacks : AcksKeepUp (chronicle config.toChannelConfig id h)) :
    Exposed (chronicle config.toChannelConfig id h) (t.channels.state id) := by
  obtain ⟨hkept, hstate⟩ := kept_chronicle r id
  rw [hstate]
  exact exposed_after hkept hacks

open Deployment

open JobChannel.Deployment (client channelId)

theorem exposed_acked :
    Exposed (chronicleOf parrot acked) ((final parrot acked).channels.state channelId) := by
  obtain ⟨_, r₁, r₂, S, -, -, -, hc₂⟩ := standing_acked
  have hacks : AcksKeepUp (marksAcked r₁ r₂) := by
    simp only [marksAcked, AcksKeepUp, along_concat]
    refine ⟨⟨⟨⟨⟨along_nil, trivial⟩, le_rfl⟩, ?_⟩, ?_⟩, ?_⟩
    · exact ⟨10, owed_ackOn client 1 (by omega), Nat.sub_le ..⟩
    · change 10 ≤ ackedOwed (ChannelState.record _ (ackOn client 1 10) client)
      rw [ackedOwed_record (owed_ackOn client 1 (by omega))]
    · exact ⟨20, owed_ackOn client 2 (by omega), Nat.sub_le ..⟩
  rw [← S.chronicle_eq] at hacks
  exact exposed (run parrot acked) channelId hacks

/-- Two requests of a client that does not ack. -/
def Deployment.unacked : List (Action Unit) :=
  entering 0 100 ++ finish 0 ++ [.receive request 0, .gate 1 0] ++ finish 1

/-- A client that never acks owes two round trips. -/
theorem unacked_debt :
    ¬ Exposed (chronicleOf parrot unacked) ((final parrot unacked).channels.state channelId) := by
  have S₁ := (standing_nil parrot).enter (d := 100) rfl (by omega) (by decide)
  obtain ⟨r₁, _, S₂, -, -⟩ := S₁.finish (Function.update_self ..)
  obtain ⟨r₂, _, S₃, -, hcost⟩ := (S₂.receive.pass (d := 100) (Function.update_self ..) rfl
    (show 10 < 100 by omega)).finish (Function.update_self ..)
  have S : Standing parrot unacked _ _ _ := S₃
  have hr₂ : costOf r₂ = some 10 := by rw [costOf, hcost, Text.parseUnsigned_repr (by omega)]
  have hlatest : latestCost ([] ++ [.cached 100] ++ [.issued r₁ 10] ++ [.issued r₂ 10]) = 10 := by
    change (costOf r₂).getD 0 = 10
    rw [hr₂]
    rfl
  rw [S.state_eq, S.chronicle_eq, Exposed, hlatest]
  exact (by omega : ¬ 20 - 0 ≤ 10)

end Flodex.Node
