import Flodex.Node.Gate

/-!
# The deposit as a cap

The gate compares the amount owed with the deposit when a request arrives, and the receipt charges
it when the work is done. In between, other requests of the channel pass the gate and are charged.
`depositCap` is the cap for the requests whose overlap stays within the credit their gate saw, and
`overlap_past_deposit` two requests that go past the deposit together.
-/

namespace Flodex.Node

variable {W : Type*}

/-! ## The property -/

/-- The event charges the channel. -/
def Charges (cfg : ChannelConfig) (id : Bytes32) (e : Step W) : Prop :=
  ∃ receipt cost, .issued receipt cost ∈ marks cfg id e

/-- Every charge finds the amount owed below the deposit, so that the last one alone goes past
it. -/
structure Capped (cfg : ChannelConfig) (id : Bytes32) (deposit : ℕ) (h : List (Step W))
    (t : State) : Prop where
  before : ∀ e ∈ h, Charges cfg id e → (e.pre.channels.state id).cumOwed < deposit
  final : receipts (chronicle cfg id h) ≠ [] →
    (t.channels.state id).cumOwed < deposit + latestCost (chronicle cfg id h)

/-! ## The condition -/

/-- What was charged to the channel since the gate of the request read it, if anything, is within
the credit that the gate saw. -/
def WithinCredit (cfg : ChannelConfig) (id : Bytes32) (deposit : ℕ) (h : List (Step W))
    (e : Step W) : Prop :=
  ∀ k now h₁ g h₂, e.act = .respond k now → Charges cfg id e → h = h₁ ++ g :: h₂ → ReadsGate k g →
    spent (chronicle cfg id (g :: h₂)) = 0 ∨
      spent (chronicle cfg id (g :: h₂)) < deposit - (g.pre.channels.state id).cumOwed

variable {L L' : List Mark} {cfg : ChannelConfig} {id : Bytes32} {config : Config W}
  {h : List (Step W)} {t : State} {deposit : ℕ}

/-! ## The cap -/

theorem receipts_of_charges {e : Step W} (h : Charges cfg id e) :
    receipts (marks cfg id e) ≠ [] := by
  obtain ⟨receipt, cost, hmem⟩ := h
  intro hnil
  have : receipt ∈ receipts (marks cfg id e) := List.mem_filterMap.2 ⟨_, hmem, rfl⟩
  simp [hnil] at this

theorem cumOwed_of_no_receipts (L : List Mark) (h : receipts L' = []) :
    (after (L ++ L')).cumOwed = (after L).cumOwed := by
  induction L' using List.reverseRecOn with
  | nil => simp
  | append_singleton L' m ih =>
    rw [receipts_append, List.append_eq_nil_iff] at h
    rw [← List.append_assoc, after_concat, ← ih h.1]
    cases m with
    | cached deposit => rfl
    | acked a signer => rfl
    | issued receipt cost => simp at h

/-- A charge whose gate saw credit for what was charged meanwhile finds the amount owed below the
deposit. -/
theorem below_of_charges {e : Step W} (r : Run (machine config) .start h t)
    (hdeposit : ∀ d, .cached d ∈ chronicle config.toChannelConfig id h → d = deposit)
    (hcredit : Along (WithinCredit config.toChannelConfig id deposit) h) (he : e ∈ h)
    (hcharges : Charges config.toChannelConfig id e) :
    (e.pre.channels.state id).cumOwed < deposit := by
  obtain ⟨h₁, h₂, rfl⟩ := List.append_of_mem he
  obtain ⟨run, -, -, -⟩ := r.split
  rcases receipts_marks config.toChannelConfig id e with
    hnil | ⟨k, now, req, response, idHex, -, -, hact, hflight, hid, -, -⟩
  · exact absurd hnil (receipts_of_charges hcharges)
  have hdeposit' : ∀ d, .cached d ∈ chronicle config.toChannelConfig id h₁ → d = deposit := by
    intro d hd
    refine hdeposit d ?_
    rw [chronicle_append]
    exact List.mem_append_left _ hd
  obtain ⟨l₁, g, l₂, rfl, hg, d, hd, hgate⟩ := gated run id hflight ⟨idHex, hid⟩ trivial
  obtain rfl := hdeposit' d hd
  -- what is owed now is what the gate read and what was charged since
  have hnow := (kept_chronicle run id).2
  have hthen := (kept_chronicle run.split.1 id).2
  have hle := cumOwed_append_le (chronicle config.toChannelConfig id l₁)
    (chronicle config.toChannelConfig id (g :: l₂))
  rw [← chronicle_append, ← hnow, ← hthen] at hle
  have := hcredit _ e h₂ rfl k now l₁ g l₂ hact hcharges rfl hg
  omega

/-- **The deposit caps the charges** of the requests whose overlap stays within the credit their
gate saw. -/
theorem depositCap (r : Run (machine config) .start h t)
    (hdeposit : ∀ d, .cached d ∈ chronicle config.toChannelConfig id h → d = deposit)
    (hcredit : Along (WithinCredit config.toChannelConfig id deposit) h) :
    Capped config.toChannelConfig id deposit h t := by
  have hbefore : ∀ e ∈ h, Charges config.toChannelConfig id e →
      (e.pre.channels.state id).cumOwed < deposit := fun e he hcharges =>
    below_of_charges r hdeposit hcredit he hcharges
  refine ⟨hbefore, ?_⟩
  refine r.invariantHistory (fun h t => receipts (chronicle config.toChannelConfig id h) ≠ [] →
      (t.channels.state id).cumOwed < deposit + latestCost (chronicle config.toChannelConfig id h))
    (fun _ e => Charges config.toChannelConfig id e → (e.pre.channels.state id).cumOwed < deposit)
    (along_of_forall hbefore) (fun h => absurd rfl h) fun h t a run ih legal hbelow hreceipts => ?_
  set e : Step W := ⟨t, a, (machine config).next t a⟩ with he
  have hpre := (kept_chronicle run id).2
  obtain ⟨hkept, hpost⟩ := kept_chronicle (run.snoc legal) id
  rw [chronicle_append, show chronicle config.toChannelConfig id [e] =
    marks config.toChannelConfig id e from List.append_nil _] at hkept hreceipts hpost ⊢
  rw [hpost]
  rcases receipts_marks config.toChannelConfig id e with
    hnil | ⟨k, now, req, response, idHex, L, receipt, -, -, -, hmarks, hL⟩
  · rw [receipts_append, hnil, List.append_nil] at hreceipts
    rw [cumOwed_of_no_receipts _ hnil, ← hpre, latestCost, receipts_append, hnil, List.append_nil]
    exact ih hreceipts
  · have hlt : (t.channels.state id).cumOwed < deposit :=
      hbelow ⟨receipt, _, by rw [hmarks]; exact List.mem_append_right _ (.head _)⟩
    rw [hmarks, ← List.append_assoc] at hkept ⊢
    rw [latestCost_issued hkept, after_concat]
    have hadd : saturatingAdd 128 (after (chronicle config.toChannelConfig id h ++ L)).cumOwed
        (roundTripCost response.usage (priceFor config.pricing req.backend)) ≤ _ :=
      Nat.min_le_left ..
    rw [cumOwed_of_no_receipts _ hL, ← hpre] at hadd
    change saturatingAdd 128 (after (chronicle config.toChannelConfig id h ++ L)).cumOwed _ < _
    rw [cumOwed_of_no_receipts _ hL, ← hpre]
    omega

/-- Receipts that cost less than the deposit in total are within the credit of every gate. -/
theorem withinCredit_of_spent (r : Run (machine config) .start h t)
    (hspent : spent (chronicle config.toChannelConfig id h) < deposit) :
    Along (WithinCredit config.toChannelConfig id deposit) h := by
  rintro _ e h₂ rfl k now l₁ g l₂ - - rfl -
  right
  have hgate := (kept_chronicle r.split.1.split.1 id).2
  have hle := cumOwed_append_le [] (chronicle config.toChannelConfig id l₁)
  rw [List.nil_append, ← hgate] at hle
  change _ ≤ 0 + _ at hle
  rw [chronicle_append, chronicle_append, spent_append, spent_append] at hspent
  omega

open Deployment

open JobChannel.Deployment (client channelId)

/-- Two requests that pass the gate before either is charged, under a deposit. -/
def Deployment.overlappingUnder (d : ℕ) : List (Action Unit) :=
  entering 0 d ++ [.receive request 0, .gate 1 0] ++ finish 0 ++ finish 1

/-- Both are served and charged. -/
theorem standing_overlapping {d : ℕ} (hpos : 0 < d) (hfits : d < 2 ^ 128) :
    ∃ r₁ r₂, chronicle (node parrot).toChannelConfig channelId
        (trace parrot (overlappingUnder d)) = [.cached d, .issued r₁ 10, .issued r₂ 10] ∧
      ((final parrot (overlappingUnder d)).channels.state channelId).cumOwed = 20 ∧
      costOf r₂ = some 10 := by
  have S₁ := ((standing_nil parrot).enter (d := d) rfl hfits hpos).receive.pass (d := d)
    (Function.update_self ..) rfl hpos
  obtain ⟨r₁, _, S₂, -, -⟩ := S₁.finish (k := 0) rfl
  obtain ⟨r₂, _, S₃, -, hcost⟩ := S₂.finish (k := 1) rfl
  have S : Standing parrot (overlappingUnder d) _ _ _ := S₃
  have hr₂ : costOf r₂ = some 10 := by rw [costOf, hcost, Text.parseUnsigned_repr (by omega)]
  exact ⟨r₁, r₂, S.chronicle_eq, by rw [S.state_eq]; rfl, hr₂⟩

/-- Two overlapping requests stay within the credit of a deposit of a hundred. -/
theorem depositCap_served :
    Capped (node parrot).toChannelConfig channelId 100 (trace parrot (overlappingUnder 100))
        (final parrot (overlappingUnder 100)) ∧
      ((final parrot (overlappingUnder 100)).channels.state channelId).cumOwed = 20 := by
  obtain ⟨r₁, r₂, hchronicle, howed, -⟩ := standing_overlapping (d := 100) (by omega) (by omega)
  refine ⟨depositCap (run parrot _) ?_ ?_, howed⟩
  · intro d hd
    rw [hchronicle] at hd
    simpa using hd
  · refine withinCredit_of_spent (run parrot _) ?_
    rw [hchronicle]
    exact (by omega : 20 < 100)

/-- Two requests whose work each costs more than the deposit. -/
def Deployment.overlapping : List (Action Unit) := overlappingUnder 5

/-- The second request is charged on a channel that owes twice its deposit. -/
theorem overlap_past_deposit :
    ¬ Capped (node parrot).toChannelConfig channelId 5 (trace parrot overlapping)
      (final parrot overlapping) := by
  obtain ⟨r₁, r₂, hchronicle, howed, hr₂⟩ := standing_overlapping (d := 5) (by omega) (by omega)
  have hlatest : latestCost [.cached 5, .issued r₁ 10, .issued r₂ 10] = 10 := by
    change (costOf r₂).getD 0 = 10
    rw [hr₂]
    rfl
  rintro ⟨-, hfinal⟩
  rw [overlapping, howed, hchronicle, hlatest] at hfinal
  have : 20 < 5 + 10 := hfinal (List.cons_ne_nil r₁ [r₂])
  omega

end Flodex.Node
