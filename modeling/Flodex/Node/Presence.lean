import Flodex.Foundations.Lease
import Flodex.Node.Loops

/-!
# How a node stays listed

The entry of a node at a coordinator is a lease, which the registration loop renews and which the
sweeps end. So `Rounds.held` says when it does not lapse (`present`), and when no request fails
every round renews it (`recovers`), also at a coordinator that restarted and knows nobody.
-/

namespace Flodex.Presence

open Text Coordinator

variable {crypto : IdentityCrypto} {node : Node crypto} {timing : Timing}

/-! ## What the coordinator has of a node -/

section Seen

variable {s s' : State} {k : String} {a now nowSecs : ℕ} {m : Message} {bid : Bid}

/-- The identity has an entry of this time or later. -/
def Seen (s : State) (k : String) (a : ℕ) : Prop :=
  ∃ entry, s.nodes k = some entry ∧ a ≤ entry.lastSeen

theorem seen_accepted (hreceive : receive crypto s now m = .ok s') : Seen s' m.identity now := by
  cases receive_eq_ok.1 hreceive with
  | register => exact ⟨_, Function.update_self .., le_rfl⟩
  | heartbeat => exact ⟨_, Function.update_self .., le_rfl⟩

/-- A message refreshes the entry of its identity, and leaves the others. -/
theorem Seen.receive (seen : Seen s k a) (hreceive : receive crypto s now m = .ok s')
    (hle : a ≤ now) : Seen s' k a := by
  by_cases hk : k = m.identity
  · subst hk
    obtain ⟨entry, hentry, hseen⟩ := seen_accepted hreceive
    exact ⟨entry, hentry, hle.trans hseen⟩
  · obtain ⟨entry, hentry, hseen⟩ := seen
    refine ⟨entry, ?_, hseen⟩
    cases receive_eq_ok.1 hreceive with
    | register => exact (Function.update_of_ne hk ..).trans hentry
    | heartbeat => exact (Function.update_of_ne hk ..).trans hentry

theorem Seen.postBid (seen : Seen s k a)
    (hpost : Coordinator.postBid crypto s nowSecs bid = .ok s') : Seen s' k a := by
  obtain ⟨-, -, rfl⟩ := postBid_eq_ok.1 hpost
  exact seen

/-- No input takes an entry away that has not timed out. -/
theorem Seen.input {w : World} (seen : Seen w.coord k a) {i : Input} (timely : Timely timing w i)
    (hle : a ≤ w.clock) (fresh : w.clock < a + heartbeatTimeout) :
    Seen ((books crypto).next w.coord i) k a := by
  cases i with
  | message now m =>
    obtain rfl : now = w.clock := timely
    simp only [books, handle]
    split
    · rename_i s' hreceive
      exact seen.receive hreceive hle
    · exact seen
  | postBid nowSecs bid =>
    simp only [books, handle]
    split
    · rename_i s' hpost
      exact seen.postBid hpost
    · exact seen
  | gcNodes shard now =>
    obtain ⟨entry, hentry, hseen⟩ := seen
    have hnow : now ≤ w.clock := timely
    have hkept : now - entry.lastSeen < heartbeatTimeout := by omega
    exact ⟨entry, Option.filter_eq_some_iff.2 ⟨hentry, by simp [hkept]⟩, hseen⟩
  | gcBids shard nowSecs => exact seen

end Seen

/-! ## The registration loop -/

variable {w : World} {a : Action}

/-- The registration loop is on time, and its request is one of its messages. -/
structure Sound (node : Node crypto) (timing : Timing) (w : World) : Prop where
  prompt : w.clock ≤ w.registrar.wake + timing.delay
  awake : w.registrar.exchange ≠ .idle → w.registrar.wake ≤ w.clock
  own : ∀ m, w.registrar.exchange = .request m →
    ∃ nonce, m = w.registrar.phase.message node nonce

theorem Sound.finish (sound : Sound node timing w) (result : Option (Except Rejection Unit)) :
    Sound node timing { w with registrar := w.registrar.finish w.clock result } := by
  obtain ⟨hidle, hwake⟩ := w.registrar.finish_spec w.clock result
  refine ⟨?_, fun hne => absurd hidle hne, fun m hm => ?_⟩
  · obtain ⟨-, hwake⟩ | ⟨-, hwake, -⟩ := hwake
    · simpa only [hwake] using sound.prompt
    · exact hwake.trans (Nat.le_add_right ..)
  · cases hidle.symm.trans hm

theorem Sound.next (sound : Sound node timing w) (legal : (machine node timing).Legal w a) :
    Sound node timing (next node w a) := by
  cases a with
  | wait t =>
    exact ⟨legal.1, fun hne => (sound.awake hne).trans (Nat.le_add_right ..), sound.own⟩
  | post nonce =>
    refine ⟨sound.prompt, fun _ => legal.1, fun m hm => ⟨nonce, ?_⟩⟩
    exact (Exchange.request.inj hm).symm
  | handle =>
    obtain ⟨m, hm⟩ : ∃ m, w.registrar.exchange = .request m := legal
    simp only [Presence.next, hm]
    exact ⟨sound.prompt, fun _ => sound.awake (by simp [hm]), fun _ hm => by cases hm⟩
  | answer =>
    obtain ⟨r, hr⟩ : ∃ r, w.registrar.exchange = .response r := legal
    simp only [Presence.next, hr]
    exact sound.finish _
  | fail => exact sound.finish none
  | postBid nonce => exact ⟨sound.prompt, sound.awake, sound.own⟩
  | handleBid nowSecs =>
    simp only [Presence.next]
    split
    · exact ⟨sound.prompt, sound.awake, sound.own⟩
    · exact sound
  | answerBid => exact ⟨sound.prompt, sound.awake, sound.own⟩
  | failBid => exact ⟨sound.prompt, sound.awake, sound.own⟩
  | input i => exact ⟨sound.prompt, sound.awake, sound.own⟩
  | restart => exact ⟨sound.prompt, sound.awake, sound.own⟩

variable {h h₀ : List Scene} {s t : World} {e : Scene} {k : ℕ}

theorem Sound.run (r : Run (machine node timing) s h t) (sound : Sound node timing s) :
    Sound node timing t :=
  r.invariant (Sound node timing) sound fun _ _ ih legal => ih.next legal

theorem sound (H : (machine node timing).History h s) : Sound node timing s := by
  obtain ⟨s₀, ⟨hstart, -⟩, r⟩ := H
  refine Sound.run r ⟨?_, fun hne => ?_, fun m hm => ?_⟩
  · rw [hstart]
    exact Nat.le_add_right ..
  · rw [hstart] at hne
    exact absurd rfl hne
  · rw [hstart] at hm
    cases hm

/-! ## The lease of its entry -/

variable (crypto) in
/-- A request of the registration loop reaches the coordinator, which accepts it. -/
def Accepted (e : Scene) : Prop :=
  e.act = .handle ∧ ∃ m s, e.pre.registrar.exchange = .request m ∧
    receive crypto e.pre.coord e.pre.clock m = .ok s

variable (node timing) in
/-- The rounds of the registration loop, which end when it goes to sleep. -/
def heartbeats : Rounds World Action where
  clock := World.clock
  wake w := w.registrar.wake
  period := heartbeatInterval
  delay := timing.delay
  ends e := match e.act with
    | .answer => e.post.registrar.phase ≠ .reregistering
    | .fail => e.post.registrar.phase ≠ .reregistering
    | _ => false
  renews := Accepted crypto
  holds w a := a ≤ w.clock ∧ Seen w.coord node.cfg.identityPubkey a

/-- When the loop goes on after a request, the round is over, or it registers again. -/
theorem due_finish (r : Registrar) (now : ℕ) (result : Option (Except Rejection Unit)) :
    (r.finish now result).wake ≤ if (r.finish now result).phase ≠ .reregistering then
      now + heartbeatInterval else r.wake := by
  obtain ⟨-, ⟨hphase, hwake⟩ | ⟨hphase, -, hwake⟩⟩ := r.finish_spec now result
  · rw [if_neg (not_not.2 hphase), hwake]
  · rwa [if_pos hphase]

theorem due_next (legal : (machine node timing).Legal w a) :
    (next node w a).registrar.wake ≤ if (heartbeats node timing).ends ⟨w, a, next node w a⟩ then
      w.clock + heartbeatInterval else w.registrar.wake := by
  cases a with
  | answer =>
    obtain ⟨r, hr⟩ : ∃ r, w.registrar.exchange = .response r := legal
    simp only [heartbeats, next, hr, decide_eq_true_eq]
    exact due_finish ..
  | fail =>
    simp only [heartbeats, next, decide_eq_true_eq]
    exact due_finish ..
  | handle =>
    simp only [heartbeats, next]
    split <;> exact le_rfl
  | handleBid nowSecs =>
    simp only [heartbeats, next]
    split <;> exact le_rfl
  | _ => exact le_rfl

/-- Only a restart takes the entry away before it has timed out. -/
theorem seen_next (legal : (machine node timing).Legal w a) (up : a ≠ .restart) {k : String}
    {n : ℕ} (seen : Seen w.coord k n) (hle : n ≤ w.clock) (fresh : w.clock < n + heartbeatTimeout) :
    Seen (next node w a).coord k n := by
  cases a with
  | handle =>
    obtain ⟨m, hm⟩ : ∃ m, w.registrar.exchange = .request m := legal
    simp only [next, hm]
    cases hreceive : receive crypto w.coord w.clock m with
    | ok s => exact seen.receive hreceive hle
    | error r => exact seen
  | handleBid nowSecs =>
    obtain ⟨⟨bid, hbid⟩, -⟩ : (∃ bid, w.bidder.exchange = .request bid) ∧ _ := legal
    simp only [next, hbid]
    cases hpost : Coordinator.postBid crypto w.coord nowSecs bid with
    | ok s => exact seen.postBid hpost
    | error r => exact seen
  | answer =>
    simp only [next]
    split <;> exact seen
  | input i => exact seen.input legal hle fresh
  | restart => exact absurd rfl up
  | _ => exact seen

theorem clock_le_next : w.clock ≤ (next node w a).clock := by
  cases a with
  | wait t => exact Nat.le_add_right ..
  | handle =>
    simp only [next]
    split <;> exact le_rfl
  | answer =>
    simp only [next]
    split <;> exact le_rfl
  | handleBid nowSecs =>
    simp only [next]
    split <;> exact le_rfl
  | _ => exact le_rfl

/-- **An event of a run** without a restart is one of the rounds of the lease. -/
theorem step_heartbeats (sound : Sound node timing w) (legal : (machine node timing).Legal w a)
    (up : a ≠ .restart) :
    (heartbeats node timing).Step heartbeatTimeout ⟨w, a, next node w a⟩ where
  prompt := (sound.next legal).prompt
  due := due_next legal
  renewed := by
    rintro ⟨hact, m, s, hm, hreceive⟩
    obtain rfl : a = .handle := hact
    have hm : w.registrar.exchange = .request m := hm
    have hreceive : receive crypto w.coord w.clock m = .ok s := hreceive
    have hawake := sound.awake (by simp [hm])
    obtain ⟨nonce, hown⟩ := sound.own m hm
    obtain ⟨entry, hentry, hseen⟩ := seen_accepted hreceive
    rw [hown, (verified_message node _ nonce).2] at hentry
    refine ⟨rfl, ?_⟩
    simp only [heartbeats, next, hm, hreceive]
    exact ⟨hawake, entry, hentry, hawake.trans hseen⟩
  kept n hholds hfresh :=
    ⟨hholds.1.trans clock_le_next, seen_next legal up hholds.2 hholds.1 hfresh⟩

theorem steps_heartbeats (r : Run (machine node timing) s h t) (sound : Sound node timing s)
    (up : ∀ e ∈ h, e.act ≠ .restart) :
    ∀ e ∈ h, (heartbeats node timing).Step heartbeatTimeout e := by
  intro e he
  obtain ⟨h₁, h₂, rfl⟩ := List.append_of_mem he
  obtain ⟨run, legal, hpost, -⟩ := r.split
  have hstep := step_heartbeats (sound.run run) legal (up e he)
  obtain ⟨w, a, w'⟩ := e
  obtain rfl : w' = next node w a := hpost
  exact hstep

/-- The entry is there, when rounds missed at most so often in a row. -/
theorem seen_of_few (r : Run (machine node timing) s h t) (sound : Sound node timing s)
    (up : ∀ e ∈ h, e.act ≠ .restart) (few : (heartbeats node timing).MissesAtMost k h)
    (fast : (k + 1) * (heartbeatInterval + timing.delay) + timing.delay < heartbeatTimeout)
    (late : s.registrar.wake + (k + 1) * (heartbeatInterval + timing.delay) + timing.delay <
      t.clock) :
    ∃ n, Seen t.coord node.cfg.identityPubkey n ∧ t.clock < n + heartbeatTimeout := by
  obtain ⟨n, ⟨-, seen⟩, hfresh⟩ := Rounds.held (R := heartbeats node timing) r sound.prompt
    (steps_heartbeats r sound up) few fast late
  exact ⟨n, seen, hfresh⟩

/-! ## A network that does not fail -/

/-- The coordinator has not accepted anything in the round that the loop is in: there is no answer
yet, or the one that the node is not known. -/
def Pending (w : World) : Prop :=
  ∀ r, w.registrar.exchange = .response r →
    w.registrar.phase = .beating ∧ ∃ rejection, r = .error rejection ∧ rejection.status = .notFound

theorem Pending.next (pending : Pending w) (sound : Sound node timing w)
    (legal : (machine node timing).Legal w a) (works : a ≠ .fail)
    (hnone : ¬ Accepted crypto ⟨w, a, next node w a⟩) :
    Pending (next node w a) ∧
      (heartbeats node timing).ends ⟨w, a, Presence.next node w a⟩ = false := by
  cases a with
  | post nonce => exact ⟨fun _ hr => (by cases hr), rfl⟩
  | handle =>
    obtain ⟨m, hm⟩ : ∃ m, w.registrar.exchange = .request m := legal
    obtain ⟨nonce, hown⟩ := sound.own m hm
    refine ⟨?_, rfl⟩
    cases hreceive : receive crypto w.coord w.clock m with
    | ok s => exact absurd ⟨rfl, m, s, hm, hreceive⟩ hnone
    | error rejection =>
      obtain ⟨⟨hb, rfl⟩, hstatus⟩ := refused (hown ▸ (verified_message node _ nonce).1) hreceive
      have hphase : w.registrar.phase = .beating := by
        cases hphase : w.registrar.phase with
        | beating => rfl
        | registering => rw [hphase] at hown; cases hown
        | reregistering => rw [hphase] at hown; cases hown
      intro r hr
      simp only [Presence.next, hm, hreceive, answered] at hr ⊢
      exact ⟨hphase, rejection, (Exchange.response.inj hr).symm, hstatus⟩
  | answer =>
    obtain ⟨r, hr⟩ : ∃ r, w.registrar.exchange = .response r := legal
    obtain ⟨hphase, rejection, rfl, hstatus⟩ := pending r hr
    have hfinish : w.registrar.finish w.clock (some (.error rejection)) =
        ⟨.reregistering, w.registrar.wake, .idle⟩ := by
      simp only [Registrar.finish, hphase, hstatus, if_true]
    simp only [heartbeats, Presence.next, hr, hfinish]
    exact ⟨fun _ hr => (by cases hr), rfl⟩
  | fail => exact absurd rfl works
  | handleBid nowSecs =>
    refine ⟨?_, rfl⟩
    simp only [Presence.next]
    split <;> exact pending
  | _ => exact ⟨pending, rfl⟩

/-- A round that ends leaves nothing under way. -/
theorem pending_of_ends (legal : (machine node timing).Legal w a)
    (hends : (heartbeats node timing).ends ⟨w, a, next node w a⟩ = true) :
    Pending (next node w a) := by
  cases a with
  | answer =>
    obtain ⟨r, hr⟩ : ∃ r, w.registrar.exchange = .response r := legal
    simp only [Pending, next, hr, (w.registrar.finish_spec _ _).1]
    exact fun _ hr => by cases hr
  | fail =>
    simp only [Pending, next, (w.registrar.finish_spec _ _).1]
    exact fun _ hr => by cases hr
  | _ => cases hends

/-- If no request fails, no round misses. -/
theorem missesNone (r : Run (machine node timing) s h t) (sound : Sound node timing s)
    (works : ∀ e ∈ h, e.act ≠ .fail) : (heartbeats node timing).MissesAtMost 0 h := by
  refine Rounds.missesAtMost_zero Pending r (fun e he hends => ?_) fun e he pending hnone => ?_
  · have legal := r.legal he
    have hpost := r.post_eq he
    obtain ⟨w, a, w'⟩ := e
    obtain rfl : w' = next node w a := hpost
    exact pending_of_ends legal hends
  · have hwork := works e he
    obtain ⟨h₁, h₂, rfl⟩ := List.append_of_mem he
    obtain ⟨run, legal, hpost, -⟩ := r.split
    obtain ⟨w, a, w'⟩ := e
    obtain rfl : w' = next node w a := hpost
    exact (pending.next (sound.run run) legal hwork hnone).symm

/-! ## The results -/

/-- **A node stays listed.** In any part of a run in which the coordinator does not restart and at
most `k` rounds of the registration loop in a row miss, the node has an entry that has not timed out
from when `k + 1` rounds were over: even if the coordinator did not know it before, and whatever
others send. The rounds have to be fast enough that `k + 1` of them, each after the interval, and
one more delay fit into the timeout. -/
theorem present (H : (machine node timing).History h₀ s) (r : Run (machine node timing) s h t)
    (up : ∀ e ∈ h, e.act ≠ .restart) (few : (heartbeats node timing).MissesAtMost k h)
    (fast : (k + 1) * (heartbeatInterval + timing.delay) + timing.delay < heartbeatTimeout)
    (late : s.registrar.wake + (k + 1) * (heartbeatInterval + timing.delay) + timing.delay <
      t.clock) :
    ∃ entry, t.coord.nodes node.cfg.identityPubkey = some entry ∧
      t.clock < entry.lastSeen + heartbeatTimeout := by
  obtain ⟨n, ⟨entry, hentry, hseen⟩, hfresh⟩ := seen_of_few r (sound H) up few fast late
  exact ⟨entry, hentry, by omega⟩

open Deployment in
/-- A node whose loops run for twenty-four seconds, with rounds that take at most one: it would be
listed even if every other round had missed. -/
theorem present_beating : ∃ h t, (machine lone pace).History h t ∧
    t.clock = 2 * heartbeatInterval + 4 * second ∧
    ∃ entry, t.coord.nodes lone.cfg.identityPubkey = some entry ∧
      t.clock < entry.lastSeen + heartbeatTimeout := by
  obtain ⟨s, hs⟩ := works_first
  obtain ⟨s', hs'⟩ := works_beating s 0 (by omega)
  obtain ⟨h, r, quiet⟩ := hs.trans hs'
  have H₀ : (machine lone pace).History [] start := ⟨start, init, .nil⟩
  have few := (missesNone r (sound H₀) fun e he => (quiet e he).ne_fail).mono (Nat.zero_le 1)
  exact ⟨h, _, ⟨start, init, r⟩, rfl, present H₀ r (fun e he => (quiet e he).ne_restart) few
    (by decide)
    (by decide : 0 + (1 + 1) * (heartbeatInterval + second) + second <
      2 * heartbeatInterval + 4 * second)⟩

/-- **A node comes back.** While the coordinator does not restart, no request of the node fails and
a round of its requests is over in less than ten seconds, the node is listed from when the round
that it is in and the next one had the time to end, whatever the coordinator knew before: a
heartbeat for which it is not known makes it register again. -/
theorem recovers (H : (machine node timing).History h₀ s) (r : Run (machine node timing) s h t)
    (up : ∀ e ∈ h, e.act ≠ .restart) (works : ∀ e ∈ h, e.act ≠ .fail)
    (fast : timing.delay < 10 * second)
    (late : s.registrar.wake + heartbeatInterval + 2 * timing.delay < t.clock) :
    ∃ entry, t.coord.nodes node.cfg.identityPubkey = some entry ∧
      t.clock < entry.lastSeen + heartbeatTimeout := by
  have hsecond : second = 1000000000 := rfl
  have hfast : (0 + 1) * (heartbeatInterval + timing.delay) + timing.delay < heartbeatTimeout := by
    simp only [heartbeatInterval, heartbeatTimeout]
    omega
  obtain ⟨n, ⟨entry, hentry, hseen⟩, hfresh⟩ := seen_of_few r (sound H) up
    (missesNone r (sound H) works) hfast (by omega)
  exact ⟨entry, hentry, by omega⟩

open Deployment in
/-- The coordinator restarts after ten seconds, and knows the node again at thirty-four. -/
theorem recovers_beating : ∃ h s t, (machine lone pace).History h s ∧
    s.coord = .start ∧ (∃ h', Run (machine lone pace) s h' t) ∧
    t.clock = 3 * heartbeatInterval + 4 * second ∧
    ∃ entry, t.coord.nodes lone.cfg.identityPubkey = some entry ∧
      t.clock < entry.lastSeen + heartbeatTimeout := by
  obtain ⟨s₀, h₀⟩ := works_first
  obtain ⟨s₁, h₁⟩ := works_beats s₀ 0 1 (by decide)
  obtain ⟨h, r, -⟩ := h₀.trans h₁
  have H : (machine lone pace).History _ (asleep (1 * heartbeatInterval) (2 * heartbeatInterval)
    .start) := ⟨start, init, r.snoc (show (machine lone pace).Legal _ .restart from trivial)⟩
  obtain ⟨s₂, h', r', quiet⟩ := works_beating .start 1 (by omega)
  exact ⟨_, _, _, H, rfl, ⟨h', r'⟩, rfl, recovers H r' (fun e he => (quiet e he).ne_restart)
    (fun e he => (quiet e he).ne_fail) (by decide)
    (by decide : 2 * heartbeatInterval + heartbeatInterval + 2 * second <
      3 * heartbeatInterval + 4 * second)⟩

end Flodex.Presence
