import Flodex.Contracts.Race
import Flodex.Contracts.Supersession

/-!
# The client's way out

A client whose node is gone reclaims its channel after the timeout, and finalizes it after the
challenge window. One of the two closes the channel, whatever others call: an open channel is
reclaimed, and the deadline of a challenged one is at most a window after the challenge, which no
call pushes out (`unlocked`).
-/

namespace Flodex.JobChannel

variable (cfg : Config)

/-! ## The property -/

/-- The block time of an action. -/
def Action.time? : Action → Option ℕ
  | .call msg _ => some msg.now
  | _ => none

/-- Block times do not decrease along the history. -/
def Chronological (h : List Step) : Prop := (h.filterMap fun e => e.act.time?).Pairwise (· ≤ ·)

/-- The event pays `total` to the node and the client of the channel. -/
def PaysParties (id : Bytes32) (total : ℕ) (e : Step) : Prop :=
  let c := e.pre.channels id
  ∃ paid refunded u, paid + refunded = total ∧ e.pre.usdc.transfer cfg.this c.node paid = some u ∧
    u.transfer cfg.this c.client refunded = some e.post.usdc

/-- The client of an opened channel calls `reclaim` after the timeout. -/
structure ReclaimsLate (id : Bytes32) (msg : Msg) (e : Step) : Prop where
  act : e.act = .call msg (.reclaim id)
  opened : (e.pre.channels id).status ≠ .None
  byClient : msg.sender = (e.pre.channels id).client
  fits : (e.pre.channels id).openedAt + cfg.reclaimTimeout.toNat < 2 ^ 64
  elapsed : (e.pre.channels id).openedAt + cfg.reclaimTimeout.toNat ≤ msg.now

/-- How the two calls close the channel: the first one if it was open, and otherwise the second one
unless it was closed before. -/
def ClosedBy (id : Bytes32) (e₁ e₂ : Step) : Prop :=
  ((e₁.pre.channels id).status = .Open ∧ ∃ amount,
      emitted cfg e₁ = some (.channelReclaimed id amount)) ∨
    (e₁.pre.channels id).status = .Closed ∨
    (e₁.pre.channels id).status = .Challenged ∧ ((e₂.pre.channels id).status = .Closed ∨
      ∃ n paid refunded, emitted cfg e₂ = some (.channelClosed id n paid refunded))

variable {cfg} {s t : State} {h h₁ h₂ h₃ : List Step} {e e₁ e₂ : Step} {msg msg' msg₁ msg₂ : Msg}
  {id : Bytes32}

/-! ## What a closed channel paid out -/

theorem tally_concat (f : Step → Log → ℕ) (h : List Step) (e : Step) :
    tally cfg f (h ++ [e]) = tally cfg f h + (emitted cfg e).elim 0 (f e) := by
  simp [tally]

theorem deposited_frame (about : ∀ log ∈ emitted cfg e, log.channel ≠ id) :
    (emitted cfg e).elim 0 (Log.deposited id) = 0 := by
  cases hlog : emitted cfg e with
  | none => rfl
  | some log =>
    have hne := about log hlog
    cases log with
    | channelOpened | channelToppedUp => exact if_neg hne
    | channelChallenged | channelClosed | channelReclaimed => rfl

/-- All that was put into a channel is its deposit, until an event pays it out. -/
theorem deposited (r : Run (machine cfg) s h t) (init : (machine cfg).Init s) (id : Bytes32) :
    (t.channels id).WellFormed ∧
      ((t.channels id).status ≠ .Closed →
        tally cfg (fun _ => Log.deposited id) h = (t.channels id).deposit) ∧
      ((t.channels id).status = .Closed → ∃ e ∈ h, PaysOut cfg id e ∧
        tally cfg (fun _ => Log.deposited id) h = (e.pre.channels id).deposit) := by
  refine channelHistory (fun h c => c.WellFormed ∧
    (c.status ≠ .Closed → tally cfg (fun _ => Log.deposited id) h = c.deposit) ∧
    (c.status = .Closed → ∃ e ∈ h, PaysOut cfg id e ∧
      tally cfg (fun _ => Log.deposited id) h = (e.pre.channels id).deposit)) r ?_ ?_ ?_
  · rw [init.1 id]
    exact ⟨⟨fun _ => rfl, by simp, by simp⟩, fun _ => rfl, by simp⟩
  · rintro h e c ⟨wf, hlive, hclosed⟩ - - about
    rw [tally_concat, deposited_frame about, Nat.add_zero]
    refine ⟨wf, hlive, fun hc => ?_⟩
    obtain ⟨e', he', hpays⟩ := hclosed hc
    exact ⟨e', List.mem_append_left _ he', hpays⟩
  · rintro h e c c' msg call log ⟨wf, hlive, hclosed⟩ hpre - - hlog - change
    have wf' := (change.advances wf).2
    rw [tally_concat, hlog]
    have hlast : e ∈ h ++ [e] := List.mem_append_right _ (.head _)
    cases change with
    | openChannel node channelNonce deposit none =>
      refine ⟨wf', fun _ => ?_, by simp⟩
      rw [hlive (by simp [none]), wf.unopened none]
      simp [Log.deposited, Channel.zero]
    | topUp amount opened fits =>
      refine ⟨wf', fun _ => ?_, by simp [opened]⟩
      rw [hlive (by simp [opened])]
      simp [Log.deposited]
    | challengeClose _ _ _ _ opened => exact ⟨wf', fun _ => hlive (by simp [opened]), by simp⟩
    | submitChallenge _ _ _ _ challenged =>
      exact ⟨wf', fun _ => hlive (by simp [challenged]), by simp [challenged]⟩
    | cooperativeClose _ _ _ _ live =>
      refine ⟨wf', fun hc => absurd rfl hc, fun _ => ⟨e, hlast, .inl ⟨_, _, _, hlog⟩, ?_⟩⟩
      rw [hpre]
      exact hlive (by rcases live with h | h <;> simp [h])
    | finalize challenged =>
      refine ⟨wf', fun hc => absurd rfl hc, fun _ => ⟨e, hlast, .inl ⟨_, _, _, hlog⟩, ?_⟩⟩
      rw [hpre]
      exact hlive (by simp [challenged])
    | reclaim opened =>
      refine ⟨wf', fun hc => absurd rfl hc, fun _ => ⟨e, hlast, .inr ⟨_, hlog⟩, ?_⟩⟩
      rw [hpre]
      exact hlive (by simp [opened])

/-- **A closed channel paid all that was put into it** to its node and its client. -/
theorem paysParties (r : Run (machine cfg) s h t) (init : (machine cfg).Init s)
    (hc : (t.channels id).status = .Closed) :
    ∃ e ∈ h, PaysParties cfg id (tally cfg (fun _ => Log.deposited id) h) e := by
  obtain ⟨e, he, hpays, htotal⟩ := (deposited r init id).2.2 hc
  refine ⟨e, he, ?_⟩
  obtain ⟨h₁, h₂, rfl⟩ := List.append_of_mem he
  rw [htotal]
  rcases (paysOut_authorised r init hpays).2 with ⟨nonce, cumOwed, -, -, u, hnode, hclient⟩ |
    ⟨msg, -, -, -, -, -, hclient⟩
  · exact ⟨_, _, u, by omega, hnode, hclient⟩
  · refine ⟨0, _, e.pre.usdc, Nat.zero_add _, ?_, hclient⟩
    rw [Ledger.transfer_eq_some, Ledger.move_zero]
    exact ⟨Nat.zero_le _, rfl⟩

/-! ## The two calls -/

/-- The client of an open channel gets its deposit back after the timeout. -/
theorem emitted_reclaim (r : Run (machine cfg) s h t) (init : (machine cfg).Init s)
    (hpre : e.pre = t) (late : ReclaimsLate cfg id msg e)
    (opened : (t.channels id).status = .Open) :
    emitted cfg e = some (.channelReclaimed id (t.channels id).deposit) := by
  have hpay : t.usdc.transfer cfg.this (t.channels id).client (t.channels id).deposit =
      some (t.usdc.move cfg.this (t.channels id).client (t.channels id).deposit) :=
    (t.usdc.transfer_eq_some).2 ⟨deposit_le_balanceOf r init id, rfl⟩
  subst hpre
  have hexec := exec_reclaim opened late.byClient late.fits late.elapsed hpay
  simp only [emitted, late.act, hexec]

/-- A channel is finalized after its deadline. -/
theorem emitted_finalize (r : Run (machine cfg) s h t) (init : (machine cfg).Init s)
    (hpre : e.pre = t) (hact : e.act = .call msg (.finalize id))
    (challenged : (t.channels id).status = .Challenged)
    (elapsed : (t.channels id).challengeDeadline ≤ msg.now) :
    emitted cfg e = some (.channelClosed id (t.channels id).latestNonce (t.channels id).paid
      ((t.channels id).deposit - (t.channels id).paid)) := by
  obtain ⟨t', hexec, -⟩ := finalizesOn r init challenged elapsed
  subst hpre
  simp only [emitted, hact, hexec]

theorem Chronological.left (chron : Chronological (h₁ ++ h₂)) : Chronological h₁ := by
  rw [Chronological, List.filterMap_append, List.pairwise_append] at chron
  exact chron.1

/-- No call before another one has a later time. -/
theorem Chronological.le (chron : Chronological (h₁ ++ e₁ :: h₂)) {call call' : Call}
    (hact : e₁.act = .call msg call) (he : e ∈ h₁) (hact' : e.act = .call msg' call') :
    msg'.now ≤ msg.now := by
  rw [Chronological, List.filterMap_append, List.pairwise_append] at chron
  refine chron.2.2 msg'.now ?_ msg.now ?_
  · exact List.mem_filterMap.2 ⟨e, he, by rw [hact']; rfl⟩
  · exact List.mem_filterMap.2 ⟨e₁, .head _, by rw [hact]; rfl⟩

/-- A challenge is over a window after every later call. -/
theorem deadline_le (r : Run (machine cfg) s (h₁ ++ e₁ :: h₂) t) (init : (machine cfg).Init s)
    (chron : Chronological (h₁ ++ e₁ :: h₂)) {call : Call} (hact : e₁.act = .call msg call)
    (hc : (e₁.pre.channels id).status = .Challenged) :
    (e₁.pre.channels id).challengeDeadline ≤ msg.now + cfg.challengeWindow.toNat := by
  obtain ⟨k₁, e₀, k₂, msg₀, hh, ⟨⟨_, _, _, _, hact₀⟩, -⟩, hdeadline, -⟩ :=
    challengedSince r.split.1 init hc
  have hle := chron.le hact (by simp [hh]) hact₀
  omega

/-- A channel that an event pays out is closed. -/
theorem closed_of_paysOut (r : Run (machine cfg) s (h₁ ++ e :: h₂) t)
    (init : (machine cfg).Init s) (hpays : PaysOut cfg id e) :
    (t.channels id).status = .Closed :=
  (account r init id).paidOut ⟨e, by simp, hpays⟩

/-- A closed channel stays closed. -/
theorem closed_of_closed (r : Run (machine cfg) s h t) (hc : (s.channels id).status = .Closed)
    (wf : (s.channels id).WellFormed) : (t.channels id).status = .Closed := by
  rw [(advances r wf).1.closed hc]
  exact hc

theorem closedBy (r : Run (machine cfg) s (h₁ ++ e₁ :: (h₂ ++ [e₂])) t)
    (init : (machine cfg).Init s) (chron : Chronological (h₁ ++ e₁ :: (h₂ ++ [e₂])))
    (late : ReclaimsLate cfg id msg₁ e₁) (hact : e₂.act = .call msg₂ (.finalize id))
    (hlater : msg₁.now + cfg.challengeWindow.toNat ≤ msg₂.now) :
    ClosedBy cfg id e₁ e₂ ∧ (t.channels id).status = .Closed := by
  have run₁ := r.split.1
  have wf := wellFormed run₁ init id
  have rest : Run (machine cfg) e₁.pre ((e₁ :: h₂) ++ [e₂]) t := by simpa using r.rest
  cases hc : (e₁.pre.channels id).status with
  | None => exact absurd hc late.opened
  | Open =>
    have hlog := emitted_reclaim run₁ init rfl late hc
    exact ⟨.inl ⟨hc, _, hlog⟩, closed_of_paysOut r init (.inr ⟨_, hlog⟩)⟩
  | Closed => exact ⟨.inr (.inl hc), closed_of_closed rest hc wf⟩
  | Challenged =>
    have hdeadline := deadline_le r init chron late.act hc
    obtain ⟨mid, -, -, -⟩ := rest.of_concat
    rcases deadline_stable mid hc with hclosed | ⟨hchal, hsame⟩
    · refine ⟨.inr (.inr ⟨hc, .inl hclosed⟩), ?_⟩
      have last : Run (machine cfg) e₂.pre [e₂] t := rest.rest
      exact closed_of_closed last hclosed (advances mid wf).2
    · have hlog := emitted_finalize (run₁.trans mid) init rfl hact hchal (by omega)
      refine ⟨.inr (.inr ⟨hc, .inr ⟨_, _, _, hlog⟩⟩), ?_⟩
      have hpays : PaysOut cfg id e₂ := .inl ⟨_, _, _, hlog⟩
      have r' : Run (machine cfg) s ((h₁ ++ e₁ :: h₂) ++ e₂ :: []) t := by simpa using r
      exact closed_of_paysOut r' init hpays

/-- **No deposit can be locked without the node.** When the client of an opened channel calls
`reclaim` after the timeout and `finalize` a window later, the channel is closed from then on, and
all that was put into it was paid to its node and its client. -/
theorem unlocked (r : Run (machine cfg) s (h₁ ++ e₁ :: (h₂ ++ e₂ :: h₃)) t)
    (init : (machine cfg).Init s) (chron : Chronological (h₁ ++ e₁ :: (h₂ ++ e₂ :: h₃)))
    (late : ReclaimsLate cfg id msg₁ e₁) (hact : e₂.act = .call msg₂ (.finalize id))
    (hlater : msg₁.now + cfg.challengeWindow.toNat ≤ msg₂.now) :
    (t.channels id).status = .Closed ∧ ClosedBy cfg id e₁ e₂ ∧
      ∃ e ∈ h₁ ++ e₁ :: (h₂ ++ [e₂]), PaysParties cfg id
        (tally cfg (fun _ => Log.deposited id) (h₁ ++ e₁ :: (h₂ ++ [e₂]))) e := by
  have hsplit : h₁ ++ e₁ :: (h₂ ++ e₂ :: h₃) = (h₁ ++ e₁ :: (h₂ ++ [e₂])) ++ h₃ := by simp
  rw [hsplit] at r chron
  obtain ⟨u, run, rest⟩ := r.splitAppend
  obtain ⟨hby, hclosed⟩ := closedBy run init chron.left late hact hlater
  exact ⟨closed_of_closed rest hclosed (wellFormed run init id), hby, paysParties run init hclosed⟩

namespace Deployment

/-- The client waits for the timeout. -/
def reclaiming : List Action := opening ++ [.call ⟨client, 90000⟩ (.reclaim channelId)]

/-- And for the window. -/
def leaving : List Action := reclaiming ++ [.call ⟨client, 95000⟩ (.finalize channelId)]

theorem legal_leaving : (machine testnet).LegalFrom start leaving := by
  refine ⟨?_, ?_, trivial, trivial, trivial, trivial, trivial⟩ <;>
    exact show client ≠ testnet.this by decide

theorem chronological_trace {as : List Action}
    (h : (as.filterMap Action.time?).Pairwise (· ≤ ·)) : Chronological (trace as) := by
  rw [← Machine.map_act_trace (machine testnet) start as, List.filterMap_map] at h
  exact h

theorem trace_leaving : trace leaving = trace opening ++
    ⟨final opening, .call ⟨client, 90000⟩ (.reclaim channelId), final reclaiming⟩ ::
      ([] ++ [⟨final reclaiming, .call ⟨client, 95000⟩ (.finalize channelId), final leaving⟩]) := by
  rw [trace, leaving, Machine.trace_concat, reclaiming, Machine.trace_concat,
    ← Machine.final_concat, ← Machine.final_concat, List.append_assoc, List.nil_append,
    List.singleton_append]

theorem record_opening : (final opening).channels channelId =
    ⟨client, node, 60, 0, 0, 0, 10, .Open⟩ := by decide +kernel

theorem reclaimsLate_leaving : ReclaimsLate testnet channelId ⟨client, 90000⟩
    ⟨final opening, .call ⟨client, 90000⟩ (.reclaim channelId), final reclaiming⟩ := by
  have hrecord := record_opening
  constructor
  · rfl
  · simp [hrecord]
  · simp [hrecord]
  · simp only [hrecord]
    decide
  · simp only [hrecord]
    decide

end Deployment

open Deployment in
theorem unlocked_leaving : ((final leaving).channels channelId).status = .Closed := by
  have r := run leaving legal_leaving
  have chron : Chronological (trace leaving) := chronological_trace (by decide)
  rw [trace_leaving] at r chron
  exact (unlocked r init chron reclaimsLate_leaving rfl (by decide)).1

end Flodex.JobChannel
