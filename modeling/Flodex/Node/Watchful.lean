import Flodex.Contracts.Watch
import Flodex.Node.Settled

/-!
# What a node is paid in the end

The node beside the contract, whatever others call: a channel that nobody challenged can be
reclaimed by its client after the timeout, and otherwise it is settled on one of the node's
receipts, so that the node is paid what its first requests cost, up to the receipt's one. A node
that submits a receipt with the client's ack in the window of every challenge is not settled below
it by a challenge (`watchful_paid`).
-/

namespace Flodex.Node

open JobChannel (Watched Undercuts PaysOut Reclaims tally)

variable {W : Type*}

/-! ## The property -/

/-- Every state of the channel that the contract verified for the record `c` is one of the
receipts: the node's key signs nothing else. -/
def SignsReceiptsOnly (contract : JobChannel.Config) (id : Bytes32) (c : JobChannel.Channel)
    (k : List JobChannel.Step) (R : List NodeSignedReceipt) : Prop :=
  ∀ e ∈ k, ∀ n m, JobChannel.Verifies contract c id n m e →
    ∃ receipt ∈ R, receipt.update.nonce.toNat = n ∧ receipt.update.owed = some m

/-- The event pays `paid` to the node and `refunded` to the client of the channel. -/
def Pays (contract : JobChannel.Config) (id : Bytes32) (e : JobChannel.Step) (paid refunded : ℕ) :
    Prop :=
  let c := e.pre.channels id
  ∃ u, e.pre.usdc.transfer contract.this c.node paid = some u ∧
    u.transfer contract.this c.client refunded = some e.post.usdc

variable {contract : JobChannel.Config} {config : Config W} {cfg : ChannelConfig} {id : Bytes32}
  {c : JobChannel.Channel} {k : List JobChannel.Step} {R : List NodeSignedReceipt} {n m i : ℕ}
  {e : JobChannel.Step}

/-- A state that was verified owes what the receipts up to its nonce report. -/
theorem SignsReceiptsOnly.owed (signs : SignsReceiptsOnly contract id c k R)
    (hR : Chained id R) (he : e ∈ k) (hv : JobChannel.Verifies contract c id n m e) :
    0 < n ∧ n ≤ R.length ∧ m = reported (R.take n) := by
  obtain ⟨receipt, hmem, rfl, howed⟩ := signs e he n m hv
  obtain ⟨i, hi⟩ := List.mem_iff_getElem?.1 hmem
  obtain ⟨-, hnonce, howed'⟩ := hR i receipt hi
  obtain ⟨hlt, -⟩ := List.getElem?_eq_some_iff.1 hi
  rw [howed', Option.some.injEq] at howed
  rw [hnonce]
  exact ⟨Nat.succ_pos i, hlt, howed.symm⟩

/-- What settles a channel of the node is one of its receipts. -/
theorem settles_on_receipt {s t : JobChannel.State} {k₁ k₂ : List JobChannel.Step}
    {paid refunded : ℕ} (r : Run (JobChannel.machine contract) s (k₁ ++ e :: k₂) t)
    (init : (JobChannel.machine contract).Init s)
    (signs : SignsReceiptsOnly contract id (t.channels id) (k₁ ++ e :: k₂) R) (hR : Chained id R)
    (hlog : JobChannel.emitted contract e = some (.channelClosed id n paid refunded)) :
    0 < n ∧ n ≤ R.length ∧ paid = min (reported (R.take n)) (e.pre.channels id).deposit ∧
      refunded = (e.pre.channels id).deposit - paid ∧ Pays contract id e paid refunded := by
  have hpays : PaysOut contract id e := .inl ⟨n, paid, refunded, hlog⟩
  obtain ⟨-, hsettles | ⟨msg, -, -, -, -, hreclaimed, -⟩⟩ :=
    JobChannel.paysOut_authorised r init hpays
  · obtain ⟨n', cumOwed, ⟨f, hf, hv⟩, hlog', hpaid⟩ := hsettles
    obtain ⟨-, rfl, rfl, rfl⟩ := JobChannel.Log.channelClosed.inj
      (Option.some.inj (hlog.symm.trans hlog'))
    have same := JobChannel.sameParties r.rest (JobChannel.opened_of_closes r (by simp) hlog)
    have hmem : f ∈ k₁ ++ e :: k₂ := by
      have : f ∈ (k₁ ++ [e]) ++ k₂ := List.mem_append_left _ hf
      simpa using this
    obtain ⟨hpos, hle, rfl⟩ := signs.owed hR hmem (hv.congr same.client same.node)
    exact ⟨hpos, hle, rfl, rfl, hpaid⟩
  · cases hlog.symm.trans hreclaimed

/-- **What a node is paid in the end.** While the node's key signs nothing but receipts, of which
there are fewer than `2 ^ 64` and that cost less than `2 ^ 128` in total, a payout of a channel is
one of two. Either its client reclaims it after the timeout, though nobody challenged it, and gets
all that was put into it. Or it is settled: it pays the node exactly what its first `n` requests
cost, up to all that was put into it, and the client the rest. And for every receipt that is
submitted in the window of every challenge, `n` is no less than its place, unless somebody closes
the channel cooperatively on a receipt before. -/
theorem watchful_paid {h : List (Scene W)} {p : JobChannel.State × State}
    (H : (network contract config).History h p)
    (hcount : (receipts (chronicle config.toChannelConfig id
      (h.filterMap Event.right?))).length < 2 ^ 64)
    (htotal : costs config.toChannelConfig (receipts (chronicle config.toChannelConfig id
      (h.filterMap Event.right?))) < 2 ^ 128)
    (signs : SignsReceiptsOnly contract id (p.1.channels id) (h.filterMap Event.left?)
      (receipts (chronicle config.toChannelConfig id (h.filterMap Event.right?)))) :
    let R := receipts (chronicle config.toChannelConfig id (h.filterMap Event.right?))
    ∀ k₁ e k₂, h.filterMap Event.left? = k₁ ++ e :: k₂ → PaysOut contract id e →
      let deposit := tally contract (fun _ => JobChannel.Log.deposited id) k₁
      (Reclaims contract id k₁ e ∧
        JobChannel.emitted contract e = some (.channelReclaimed id deposit)) ∨
      ∃ n paid refunded,
        JobChannel.emitted contract e = some (.channelClosed id n paid refunded) ∧
        (0 < n ∧ n ≤ R.length) ∧ paid = min (costs config.toChannelConfig (R.take n)) deposit ∧
        refunded = deposit - paid ∧ Pays contract id e paid refunded ∧
        ∀ i, Watched contract id (i, costs config.toChannelConfig (R.take i))
          (h.filterMap Event.left?) → ¬ Undercuts id i e → i ≤ n := by
  intro R k₁ e k₂ hk hpaysOut deposit
  obtain ⟨c₀, init, run⟩ := history_left H
  have hcosts : ∀ R' ⊆ R, reported R' = costs config.toChannelConfig R' := fun R' hsub =>
    reported_eq_costs fun _ hmem => costOf_of_mem (hsub hmem)
  have hkept := (kept_chronicle (history_right H) id).1
  have hR : Chained id R := by
    refine (chainedTo hkept hcount ?_).chained
    change reported R < 2 ^ 128
    rw [hcosts R (List.Subset.refl R)]
    exact htotal
  rw [hk] at run signs
  obtain ⟨hlive, hauthorised⟩ := JobChannel.paysOut_authorised run init hpaysOut
  have hdeposit : deposit = (e.pre.channels id).deposit :=
    (JobChannel.deposited run.split.1 init id).2.1 hlive
  rcases hauthorised with ⟨n, cumOwed, -, hlog, -⟩ | hreclaims
  · obtain ⟨hpos, hle, hpaid, hrefunded, hpays⟩ := settles_on_receipt run init signs hR hlog
    rw [hcosts _ (List.take_subset n R)] at hpaid
    rw [hdeposit]
    refine .inr ⟨n, _, _, hlog, ⟨hpos, hle⟩, hpaid, hrefunded, hpays, fun i watched hcut => ?_⟩
    rw [hk] at watched
    rcases JobChannel.closes_cases run (by simp) hlog with ⟨msg, nonce, _, _, _, hact, rfl⟩ |
      ⟨msg, hact, rfl, hc, elapsed⟩
    · by_contra hlt
      exact hcut ⟨msg, nonce, _, _, _, hact, not_le.1 hlt⟩
    · exact JobChannel.le_of_finalized run init watched hact hc elapsed
  · rw [hdeposit]
    have ⟨_, _, _, _, _, hlog, _⟩ := hreclaims
    exact .inl ⟨hreclaims, hlog⟩

namespace Deployment

open Text

open JobChannel.Deployment (testnet client channelId opening challengeOn submitOn insistOn
  contesting answering insisting watching)

/-- The node and the contract take turns, the one over `as` and the other over `bs`. -/
def Ran (bs : List JobChannel.Action) (as : List (Action Unit)) : Prop :=
  ∃ h, (network testnet (node parrot)).History h
      (JobChannel.Deployment.final bs, final parrot as) ∧
    h.filterMap Event.left? = JobChannel.Deployment.trace bs ∧
    h.filterMap Event.right? = trace parrot as

variable {bs : List JobChannel.Action} {as : List (Action Unit)}

theorem ran_nil : Ran [] [] :=
  ⟨[], ⟨(JobChannel.Deployment.start, .start), ⟨JobChannel.Deployment.init, rfl⟩, .nil⟩, rfl, rfl⟩

/-- The contract goes on. -/
theorem Ran.chain (R : Ran bs as) (b : JobChannel.Action)
    (legal : (JobChannel.machine testnet).Legal (JobChannel.Deployment.final bs) b) :
    Ran (bs ++ [b]) as := by
  obtain ⟨h, H, hleft, hright⟩ := R
  have hlegal : (network testnet (node parrot)).Legal
    (JobChannel.Deployment.final bs, final parrot as) (.inl b) := ⟨legal, trivial⟩
  rw [Ran, JobChannel.Deployment.trace, Machine.trace_concat, JobChannel.Deployment.final,
    Machine.final_concat]
  refine ⟨_, H.concat hlegal, ?_, ?_⟩
  · simp only [List.filterMap_append, hleft, List.filterMap_cons, Event.left?, List.filterMap_nil]
    rfl
  · simp only [List.filterMap_append, hright, List.filterMap_cons, Event.right?,
      List.filterMap_nil, List.append_nil]

/-- The node goes on. -/
theorem Ran.step (R : Ran bs as) (a : Action Unit)
    (faithful : Faithful (JobChannel.Deployment.final bs, final parrot as) (.inr a)) :
    Ran bs (as ++ [a]) := by
  obtain ⟨h, H, hleft, hright⟩ := R
  have hlegal : (network testnet (node parrot)).Legal
    (JobChannel.Deployment.final bs, final parrot as) (.inr a) := ⟨trivial, faithful⟩
  rw [Ran, trace_concat, final, final, Machine.final_concat]
  refine ⟨_, H.concat hlegal, ?_, ?_⟩
  · simp only [List.filterMap_append, hleft, List.filterMap_cons, Event.left?, List.filterMap_nil,
      List.append_nil]
  · simp only [List.filterMap_append, hright, List.filterMap_cons, Event.right?, List.filterMap_nil]
    rfl

/-- The node goes on by itself. -/
theorem Ran.steps (R : Ran bs as) (as' : List (Action Unit))
    (faithful : ∀ a ∈ as', ∀ p : JobChannel.State × State, Faithful p (.inr a)) :
    Ran bs (as ++ as') := by
  induction as' generalizing as with
  | nil => simpa using R
  | cons a as' ih =>
    rw [List.append_cons]
    refine ih (R.step a (faithful a (.head _) _)) fun a' ha' => faithful a' (.tail _ ha')

theorem ran_opening : Ran opening [] := by
  have hclient : client ≠ testnet.this := by decide
  exact (((ran_nil.chain (.token client (.mint client 100)) hclient).chain
    (.token client (.approve testnet.this 100)) hclient).chain
    (.setActive JobChannel.Deployment.node true) trivial).chain
    (.call ⟨client, 10⟩ (.openChannel JobChannel.Deployment.node 1 60)) trivial

/-- Two requests on the channel, the first one acked. -/
def serving (data : List UInt8) : List (Action Unit) :=
  [.receive request 0] ++ [.gate 0 0] ++ [.ethCall 0 (.ok data)] ++ [.gateFetched 0 0] ++
    finish 0 ++ [.ack (ackOn client 1 10)] ++ [.receive request 0] ++ [.gate 1 0] ++ finish 1

theorem standing_serving {data : List UInt8} (hdecode : decodeChannelDeposit data = .ok 60) :
    ∃ flights r₁ r₂, Standing parrot (serving data) flights 2 ([] ++ [.cached 60] ++
      [.issued r₁ 10] ++ [.acked (ackOn client 1 10) client] ++ [.issued r₂ 10]) ∧
      ReceiptOn r₁ 1 10 ∧ ReceiptOn r₂ 2 20 := by
  have S₁ := (((standing_nil parrot).receive.ask (Function.update_self ..) rfl).ethCall
    (Function.update_self ..) (.ok data)).fetch (Function.update_self ..) hdecode (by decide)
  obtain ⟨r₁, _, S₂, hr₁, hc₁⟩ := S₁.finish (Function.update_self ..)
  have S₃ := S₂.ack client 1 (m := 10) (by omega) nofun
  obtain ⟨r₂, _, S₄, hr₂, hc₂⟩ := (S₃.receive.pass (d := 60) (Function.update_self ..) rfl
    (show 10 < 60 by omega)).finish (Function.update_self ..)
  exact ⟨_, r₁, r₂, S₄, receiptOn_of_update hr₁ hc₁ (show 10 < 2 ^ 128 by omega),
    receiptOn_of_update hr₂ hc₂ (show 20 < 2 ^ 128 by omega)⟩

/-- The node serves the two requests, and then the contract settles the channel. -/
theorem ran_serving {data : List UInt8} (hdata : data =
      JobChannel.encodeChannel ((JobChannel.Deployment.final opening).channels channelId)) :
    Ran watching (serving data) := by
  have S := (standing_nil parrot).receive.ask (Function.update_self ..) rfl
  have R₁ : Ran opening ([.receive request 0] ++ [.gate 0 0] ++ [.ethCall 0 (.ok data)]) :=
    ((ran_opening.step (.receive request 0) trivial).step (.gate 0 0) trivial).step
      (.ethCall 0 (.ok data)) (faithful_ethCall S (Function.update_self ..) hdata)
  have R₂ := R₁.steps ([.gateFetched 0 0] ++ finish 0 ++ [.ack (ackOn client 1 10)] ++
      [.receive request 0] ++ [.gate 1 0] ++ finish 1) fun a ha p => by
        simp only [finish, List.mem_append, List.mem_cons, List.not_mem_nil, or_false] at ha
        rcases ha with ((((rfl | rfl | rfl) | rfl) | rfl) | rfl) | rfl | rfl <;> trivial
  have hserving : [.receive request 0] ++ [.gate 0 0] ++ [.ethCall 0 (.ok data)] ++
      ([.gateFetched 0 0] ++ finish 0 ++ [.ack (ackOn client 1 10)] ++ [.receive request 0] ++
        [.gate 1 0] ++ finish 1) = serving data := by
    simp only [serving, List.append_assoc]
  rw [hserving] at R₂
  have R₃ : Ran contesting (serving data) := R₂.chain (challengeOn 20 1 10) trivial
  have R₄ : Ran answering (serving data) := R₃.chain (submitOn 30 2 20) trivial
  have R₅ : Ran insisting (serving data) := R₄.chain (insistOn 35 2 20) trivial
  exact R₅.chain _ trivial

/-- The states that are submitted to the contract are those of the two receipts. -/
theorem signs_watching {r₁ r₂ : NodeSignedReceipt} (h₁ : ReceiptOn r₁ 1 10)
    (h₂ : ReceiptOn r₂ 2 20) (c : JobChannel.Channel) :
    SignsReceiptsOnly testnet channelId c (JobChannel.Deployment.trace watching) [r₁, r₂] := by
  obtain ⟨hn₁, ho₁, -⟩ := h₁
  obtain ⟨hn₂, ho₂, -⟩ := h₂
  intro e he n m hv
  rcases JobChannel.Deployment.signedState_watching hv he with ⟨rfl, rfl⟩ | ⟨rfl, rfl⟩
  · exact ⟨r₁, .head _, by rw [hn₁]; rfl, ho₁⟩
  · exact ⟨r₂, .tail _ (.head _), by rw [hn₂]; rfl, ho₂⟩

/-- The two requests cost twenty. -/
theorem costs_serving {r₁ r₂ : NodeSignedReceipt} (h₁ : ReceiptOn r₁ 1 10)
    (h₂ : ReceiptOn r₂ 2 20) {h : List (Step Unit)}
    (hreceipts : receipts (chronicle (node parrot).toChannelConfig channelId h) = [r₁, r₂]) :
    costs (node parrot).toChannelConfig [r₁, r₂] = 20 := by
  have hcosts : reported [r₁, r₂] = costs (node parrot).toChannelConfig [r₁, r₂] :=
    reported_eq_costs fun r hr => costOf_of_mem (hreceipts ▸ hr)
  rw [← hcosts]
  simp [reported, h₁.2.2, h₂.2.2]

end Deployment

open Deployment in
open JobChannel.Deployment (testnet channelId opening insisting watching) in
/-- The two requests cost twenty, though the client challenges on the receipt of the first. -/
theorem watchful_paid_watching : JobChannel.emitted JobChannel.Deployment.testnet
      ⟨JobChannel.Deployment.final JobChannel.Deployment.insisting,
        .call ⟨JobChannel.Deployment.node, 4000⟩ (.finalize JobChannel.Deployment.channelId),
        JobChannel.Deployment.final JobChannel.Deployment.watching⟩ =
    some (.channelClosed JobChannel.Deployment.channelId 2 20 40) := by
  have run := JobChannel.Deployment.run insisting JobChannel.Deployment.legal_insisting
  have hrecord := JobChannel.Deployment.record_insisting
  obtain ⟨n, paid, refunded, hlog⟩ : ∃ n paid refunded, JobChannel.emitted testnet
      ⟨JobChannel.Deployment.final insisting,
        .call ⟨JobChannel.Deployment.node, 4000⟩ (.finalize channelId),
        JobChannel.Deployment.final watching⟩ = some (.channelClosed channelId n paid refunded) :=
    ⟨_, _, _, JobChannel.emitted_finalize run JobChannel.Deployment.init (by dsimp only) rfl
      (by rw [hrecord]) (by rw [hrecord]; exact (by omega : 3620 ≤ 4000))⟩
  obtain ⟨data, hdata⟩ : ∃ data, data = JobChannel.encodeChannel
    ((JobChannel.Deployment.final opening).channels channelId) := ⟨_, rfl⟩
  have hdecode : decodeChannelDeposit data = .ok 60 := by
    rw [hdata]
    refine decode_opened ?_
    exact (by decide +kernel :
      ((opened JobChannel.Deployment.node).channels JobChannel.Deployment.channelId).deposit = 60)
  obtain ⟨flights, r₁, r₂, S, h₁, h₂⟩ := standing_serving hdecode
  obtain ⟨h, H, hleft, hright⟩ := ran_serving hdata
  generalize (JobChannel.Deployment.final watching, final parrot (serving data)) = p at H
  have hreceipts : receipts (chronicle (node parrot).toChannelConfig channelId
      (h.filterMap Event.right?)) = [r₁, r₂] := by
    rw [hright]
    exact congrArg receipts S.chronicle_eq
  have htotal := costs_serving h₁ h₂ hreceipts
  have hcount : (receipts (chronicle (node parrot).toChannelConfig channelId
      (h.filterMap Event.right?))).length < 2 ^ 64 := by
    simp only [hreceipts, List.length_cons, List.length_nil]
    omega
  have hall := watchful_paid H hcount (by rw [hreceipts, htotal]; omega)
    (by rw [hreceipts, hleft]; exact signs_watching h₁ h₂ _)
  have hsplit := hleft.trans JobChannel.Deployment.trace_watching
  rw [List.nil_append, List.append_cons] at hsplit
  obtain ⟨-, hreclaimed⟩ | ⟨n', paid', refunded', hlog', ⟨-, hle⟩, hpaid, hrefunded, -, hwatched⟩ :=
    hall _ _ [] hsplit (.inl ⟨n, paid, refunded, hlog⟩)
  · cases hlog.symm.trans hreclaimed
  obtain ⟨-, rfl, rfl, rfl⟩ := JobChannel.Log.channelClosed.inj
    (Option.some.inj (hlog.symm.trans hlog'))
  rw [hreceipts] at hle hpaid hwatched
  have hcut : ¬ Undercuts channelId 2 ⟨JobChannel.Deployment.final insisting,
      .call ⟨JobChannel.Deployment.node, 4000⟩ (.finalize channelId),
      JobChannel.Deployment.final watching⟩ := by
    simp [Undercuts]
  have hn := hwatched 2 (by
    rw [show [r₁, r₂].take 2 = [r₁, r₂] from rfl, htotal, hleft]
    exact JobChannel.Deployment.watched_watching) hcut
  obtain rfl : n = 2 := le_antisymm hle hn
  -- the client put sixty into the channel
  have hdeposit := (JobChannel.deposited run JobChannel.Deployment.init channelId).2.1
    (by rw [hrecord]; decide)
  rw [hrecord] at hdeposit
  rw [← JobChannel.Deployment.trace_insisting, hdeposit] at hpaid hrefunded
  rw [show [r₁, r₂].take 2 = [r₁, r₂] from rfl, htotal] at hpaid
  obtain rfl : paid = 20 := hpaid
  obtain rfl : refunded = 40 := hrefunded
  exact hlog

end Flodex.Node
