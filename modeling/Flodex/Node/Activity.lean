import Flodex.Node.Server

/-!
# The activity of a node

Every `/execute` holds a `StepGuard`: it begins a step of its session in the activity log, and ends
it when it is resolved or dropped. Guards of one session can overlap, and a snapshot sweeps the
records of sessions that ended long enough ago.

`snapshot_reports_iff` says when the snapshots of a run report the sessions as they are: when at
none of them a step is unresolved in a session whose last step to begin or to end was one that ended
the session.
-/

namespace Flodex.Node

open Function

/-! ## Guards -/

/-- The log, the guards that are not resolved with their sessions, and the clock. -/
structure Tracker where
  log : ActivityLog
  guards : ℕ → Option String
  clock : ℤ

namespace StepGuard

variable (s : Tracker)

/-- `StepGuard::new`. -/
def new (k : ℕ) (sessionId : String) (backend : BackendType) (now : ℤ) : Tracker :=
  ⟨s.log.beginStep now sessionId backend, update s.guards k (some sessionId), now⟩

/-- The end of the step of a guard. -/
def close (k : ℕ) (status : RequestStatus) (toolName : Option String) (now : ℤ) : Tracker :=
  match s.guards k with
  | none => s
  | some sessionId => ⟨s.log.endStep now sessionId status toolName, update s.guards k none, now⟩

/-- `StepGuard::resolve`. -/
def resolve (k : ℕ) (status : RequestStatus) (toolName : Option String) (now : ℤ) : Tracker :=
  close s k status toolName now

/-- `StepGuard::drop` of a guard that is not resolved. -/
def drop (k : ℕ) (now : ℤ) : Tracker := close s k .Error none now

inductive Action
  | new (k : ℕ) (sessionId : String) (backend : BackendType) (now : ℤ)
  | resolve (k : ℕ) (status : RequestStatus) (toolName : Option String) (now : ℤ)
  | drop (k : ℕ) (now : ℤ)
  | snapshot (now : ℤ)

def Action.now : Action → ℤ
  | .new _ _ _ now => now
  | .resolve _ _ _ now => now
  | .drop _ now => now
  | .snapshot now => now

/-- The guard of an action: a new one, or one that is not resolved. -/
def Action.Guarded : Action → Prop
  | .new k .. => s.guards k = none
  | .resolve k .. => s.guards k ≠ none
  | .drop k _ => s.guards k ≠ none
  | .snapshot _ => True

/-- Guards in any order, and snapshots, under a clock that does not go back. -/
def machine : Machine Tracker Action where
  Init s := s.log = (fun _ => none) ∧ s.guards = fun _ => none
  Legal s a := s.clock ≤ a.now ∧ a.Guarded s
  next s
    | .new k sessionId backend now => new s k sessionId backend now
    | .resolve k status toolName now => resolve s k status toolName now
    | .drop k now => drop s k now
    | .snapshot now => { s with log := s.log.snapshot now, clock := now }

abbrev Step := Event Tracker Action

/-! ## Marks -/

/-- What the steps of a session did last. -/
inductive Mark
  | began
  | ended (status : RequestStatus) (time : ℤ)

/-- The last mark of a session, with an event more. -/
def remark (sessionId : String) (m : Option Mark) (e : Step) : Option Mark :=
  match e.act with
  | .new _ id _ _ => if id = sessionId then some .began else m
  | .resolve k status _ now =>
    if e.pre.guards k = some sessionId then some (.ended status now) else m
  | .drop k now => if e.pre.guards k = some sessionId then some (.ended .Error now) else m
  | .snapshot _ => m

/-- The last mark of a session. -/
def mark (sessionId : String) (h : List Step) : Option Mark := h.foldl (remark sessionId) none

/-- What is reported of a session without an unresolved step: the status of its last step, until
it ended long enough ago. -/
def Remains (now : ℤ) (reported : Option RequestRecord) : Option Mark → Prop
  | none => reported = none
  | some .began => False
  | some (.ended status time) => reported.map RequestRecord.status =
    if (status = .Final ∨ status = .Error) ∧ ActivityLog.retentionMs ≤ now - time then none
    else some status

/-- A snapshot reports the sessions as they are. -/
structure Reports (h : List Step) (s : Tracker) (now : ℤ) : Prop where
  unresolved : ∀ k sessionId, s.guards k = some sessionId →
    ∃ r, s.log.snapshot now sessionId = some r ∧ r.endedAtMs = none
  ended : ∀ sessionId r, s.log.snapshot now sessionId = some r →
    (r.endedAtMs.isSome ↔ r.status = .Final ∨ r.status = .Error)
  resolved : ∀ sessionId, (∀ k, s.guards k ≠ some sessionId) →
    Remains now (s.log.snapshot now sessionId) (mark sessionId h)

/-- No step is unresolved in a session that a step has ended since the last one began. -/
def Open (h : List Step) (s : Tracker) : Prop :=
  ∀ k sessionId, s.guards k = some sessionId →
    ∀ status time, mark sessionId h = some (.ended status time) → status ≠ .Final ∧ status ≠ .Error

/-! ## Records follow marks -/

namespace Mark

def status : Mark → RequestStatus
  | began => .Running
  | ended status _ => status

/-- When the session ended, if the last step ended it. -/
def endedAt : Mark → Option ℤ
  | began => none
  | ended status time => if status = .Final ∨ status = .Error then some time else none

theorem endedAt_eq_some {m : Mark} {time : ℤ} :
    m.endedAt = some time ↔
      ∃ status, m = ended status time ∧ (status = .Final ∨ status = .Error) := by
  cases m with
  | began => simp [endedAt]
  | ended st time' =>
    rw [endedAt]
    split_ifs with h
    · simp [h]
    · simp [h]

theorem isSome_endedAt (m : Mark) : m.endedAt.isSome ↔ m.status = .Final ∨ m.status = .Error := by
  cases m with
  | began => simp [endedAt, status]
  | ended st time =>
    rw [endedAt, status]
    split_ifs with h
    · exact iff_of_true rfl h
    · exact iff_of_false (by simp) h

end Mark

/-- Whether a record is kept or not, it says what the last mark says. -/
structure Follows (h : List Step) (s : Tracker) (sessionId : String) : Prop where
  record : ∀ r, s.log sessionId = some r →
    ∃ m, mark sessionId h = some m ∧ r.status = m.status ∧ r.endedAtMs = m.endedAt
  begun : ∀ k, s.guards k = some sessionId → mark sessionId h ≠ none
  running : mark sessionId h = some .began → ∃ k, s.guards k = some sessionId

/-- A record is kept, unless its session ended long enough ago. -/
def Kept (h : List Step) (s : Tracker) (sessionId : String) : Prop :=
  ∀ m, mark sessionId h = some m → (s.log sessionId).isSome ∨
    (∃ time, m.endedAt = some time ∧ ActivityLog.retentionMs ≤ s.clock - time) ∧
      ∀ k, s.guards k ≠ some sessionId

section

variable {h : List Step} {s t : Tracker} {k : ℕ} {sessionId id : String} {backend : BackendType}
  {status : RequestStatus} {toolName : Option String} {now : ℤ}

theorem mark_concat (e : Step) : mark id (h ++ [e]) = remark id (mark id h) e :=
  List.foldl_concat ..

theorem beginStep_self (log : ActivityLog) : ∃ r, log.beginStep now sessionId backend sessionId =
    some r ∧ r.status = .Running ∧ r.endedAtMs = none := by
  rw [ActivityLog.beginStep, update_self]
  exact ⟨_, rfl, rfl, rfl⟩

theorem beginStep_other (log : ActivityLog) (hne : id ≠ sessionId) :
    log.beginStep now sessionId backend id = log id := update_of_ne hne _ _

theorem endStep_self (log : ActivityLog) :
    (log.endStep now sessionId status toolName sessionId).isSome = (log sessionId).isSome ∧
      ∀ r, log.endStep now sessionId status toolName sessionId = some r →
        r.status = status ∧ r.endedAtMs = (Mark.ended status now).endedAt := by
  cases hlog : log sessionId with
  | none =>
    have hnone : log.endStep now sessionId status toolName = log := by
      rw [ActivityLog.endStep, hlog]
    rw [hnone, hlog]
    exact ⟨rfl, by rintro r ⟨⟩⟩
  | some entry =>
    obtain ⟨entry', hentry, hstatus, hended⟩ : ∃ entry',
        log.endStep now sessionId status toolName sessionId = some entry' ∧
          entry'.status = status ∧ entry'.endedAtMs = (Mark.ended status now).endedAt := by
      rw [ActivityLog.endStep, hlog]
      exact ⟨_, update_self .., rfl, rfl⟩
    rw [hentry]
    refine ⟨rfl, fun r hr => ?_⟩
    obtain rfl := Option.some.inj hr
    exact ⟨hstatus, hended⟩

theorem endStep_other (log : ActivityLog) (hne : id ≠ sessionId) :
    log.endStep now sessionId status toolName id = log id := by
  rw [ActivityLog.endStep]
  cases log sessionId with
  | none => rfl
  | some entry => exact update_of_ne hne _ _

theorem snapshot_eq_some {log : ActivityLog} {r : RequestRecord} :
    log.snapshot now id = some r ↔
      log id = some r ∧ ∀ time ∈ r.endedAtMs, now - time < ActivityLog.retentionMs := by
  rw [ActivityLog.snapshot, Option.filter_eq_some_iff]
  refine and_congr_right fun _ => ?_
  cases r.endedAtMs with
  | none => simp
  | some time => simp

/-- An unresolved step is in a session that has not ended. -/
theorem Open.endedAt_eq_none (hopen : Open h s) (hk : s.guards k = some id) {m : Mark}
    (hm : mark id h = some m) : m.endedAt = none := by
  rw [Option.eq_none_iff_forall_ne_some]
  intro time htime
  obtain ⟨st, rfl, hst⟩ := Mark.endedAt_eq_some.1 htime
  obtain ⟨hfinal, herror⟩ := hopen k id hk st time hm
  exact hst.elim hfinal herror

/-! ## Steps -/

variable {h' : List Step}

theorem guards_new (hk : s.guards k = none) (hid : sessionId ≠ id) (k' : ℕ) :
    (new s k sessionId backend now).guards k' = some id ↔ s.guards k' = some id := by
  change update s.guards k (some sessionId) k' = some id ↔ _
  by_cases hk' : k' = k
  · subst hk'
    rw [update_self, hk]
    simp [hid]
  · rw [update_of_ne hk']

theorem close_eq (hk : s.guards k = some sessionId) : close s k status toolName now =
    ⟨s.log.endStep now sessionId status toolName, update s.guards k none, now⟩ := by
  rw [close, hk]

theorem guards_close (hk : s.guards k = some sessionId) (hid : sessionId ≠ id) (k' : ℕ) :
    (close s k status toolName now).guards k' = some id ↔ s.guards k' = some id := by
  rw [close_eq hk]
  change update s.guards k none k' = some id ↔ _
  by_cases hk' : k' = k
  · subst hk'
    rw [update_self, hk]
    simp [hid]
  · rw [update_of_ne hk']

namespace Follows

/-- A session that nothing happens to. -/
theorem of_eq (F : Follows h s id) (hmark : mark id h' = mark id h)
    (hlog : ∀ r, t.log id = some r → s.log id = some r)
    (hguards : ∀ k, t.guards k = some id ↔ s.guards k = some id) : Follows h' t id where
  record r hr := by
    rw [hmark]
    exact F.record r (hlog r hr)
  begun k hk := by
    rw [hmark]
    exact F.begun k ((hguards k).1 hk)
  running hbegan := by
    rw [hmark] at hbegan
    obtain ⟨k, hk⟩ := F.running hbegan
    exact ⟨k, (hguards k).2 hk⟩

theorem new (F : Follows h s id) (hk : s.guards k = none)
    (hmark : mark id h' = if sessionId = id then some .began else mark id h) :
    Follows h' (new s k sessionId backend now) id := by
  by_cases hid : sessionId = id
  · subst hid
    rw [if_pos rfl] at hmark
    obtain ⟨r, hr, hstatus, hended⟩ := @beginStep_self sessionId backend now s.log
    refine ⟨fun r' hr' => ?_, fun _ _ => ?_, fun _ => ⟨k, update_self ..⟩⟩
    · obtain rfl := Option.some.inj (hr.symm.trans hr')
      exact ⟨.began, hmark, hstatus, hended⟩
    · rw [hmark]
      exact Option.some_ne_none _
  · rw [if_neg hid] at hmark
    refine F.of_eq hmark (fun r hr => ?_) (guards_new hk hid)
    rwa [← beginStep_other s.log (Ne.symm hid)]

theorem close (F : Follows h s id) (hk : s.guards k = some sessionId)
    (hmark : mark id h' = if s.guards k = some id then some (.ended status now) else mark id h) :
    Follows h' (close s k status toolName now) id := by
  rw [hk] at hmark
  by_cases hid : sessionId = id
  · subst hid
    rw [if_pos rfl] at hmark
    rw [close_eq hk]
    refine ⟨fun r hr => ⟨.ended status now, hmark, (endStep_self s.log).2 r hr⟩, fun _ _ => ?_,
      fun hbegan => ?_⟩
    · rw [hmark]
      exact Option.some_ne_none _
    · rw [hmark] at hbegan
      cases hbegan
  · rw [if_neg fun h => hid (Option.some.inj h)] at hmark
    refine F.of_eq hmark (fun r hr => ?_) (guards_close hk hid)
    rw [close_eq hk] at hr
    rwa [← endStep_other s.log (Ne.symm hid)]

theorem snapshot (F : Follows h s id) (hmark : mark id h' = mark id h) :
    Follows h' { s with log := s.log.snapshot now, clock := now } id :=
  F.of_eq hmark (fun _ hr => (snapshot_eq_some.1 hr).1) fun _ => Iff.rfl

end Follows

namespace Kept

theorem of_eq (K : Kept h s id) (hmark : mark id h' = mark id h) (hlog : t.log id = s.log id)
    (hclock : s.clock ≤ t.clock) (hguards : ∀ k, t.guards k = some id → s.guards k = some id) :
    Kept h' t id := by
  intro m hm
  rw [hmark] at hm
  rw [hlog]
  refine (K m hm).imp_right ?_
  rintro ⟨⟨time, htime, hlong⟩, hnone⟩
  exact ⟨⟨time, htime, by omega⟩, fun k hk => hnone k (hguards k hk)⟩

theorem new (K : Kept h s id) (hk : s.guards k = none) (hclock : s.clock ≤ now)
    (hmark : mark id h' = if sessionId = id then some .began else mark id h) :
    Kept h' (new s k sessionId backend now) id := by
  by_cases hid : sessionId = id
  · subst hid
    obtain ⟨r, hr, -⟩ := @beginStep_self sessionId backend now s.log
    exact fun _ _ => .inl (Option.isSome_iff_exists.2 ⟨r, hr⟩)
  · rw [if_neg hid] at hmark
    exact K.of_eq hmark (beginStep_other s.log (Ne.symm hid)) hclock
      fun k' => (guards_new hk hid k').1

/-- A record is there when a step of its session ends, since that step was unresolved. -/
theorem close (K : Kept h s id) (F : Follows h s id) (hk : s.guards k = some sessionId)
    (hclock : s.clock ≤ now)
    (hmark : mark id h' = if s.guards k = some id then some (.ended status now) else mark id h) :
    Kept h' (close s k status toolName now) id := by
  rw [hk] at hmark
  by_cases hid : sessionId = id
  · subst hid
    intro m _
    left
    obtain ⟨m', hm'⟩ := Option.ne_none_iff_exists'.1 (F.begun k hk)
    rw [close_eq hk, (endStep_self s.log).1]
    obtain hsome | ⟨-, hnone⟩ := K m' hm'
    · exact hsome
    · exact absurd hk (hnone k)
  · rw [if_neg fun h => hid (Option.some.inj h)] at hmark
    refine K.of_eq hmark ?_ ?_ fun k' => (guards_close hk hid k').1
    · rw [close_eq hk]
      exact endStep_other s.log (Ne.symm hid)
    · rw [close_eq hk]
      exact hclock

/-- A snapshot sweeps a record only if no step of its session is unresolved. -/
theorem snapshot (K : Kept h s id) (F : Follows h s id) (hclock : s.clock ≤ now) (hopen : Open h s)
    (hmark : mark id h' = mark id h) :
    Kept h' { s with log := s.log.snapshot now, clock := now } id := by
  intro m hm
  rw [hmark] at hm
  obtain hsome | ⟨⟨time, htime, hlong⟩, hnone⟩ := K m hm
  · obtain ⟨r, hr⟩ := Option.isSome_iff_exists.1 hsome
    obtain ⟨m', hm', -, hended⟩ := F.record r hr
    obtain rfl := Option.some.inj (hm.symm.trans hm')
    by_cases hkept : ∀ time ∈ r.endedAtMs, now - time < ActivityLog.retentionMs
    · exact .inl (Option.isSome_iff_exists.2 ⟨r, snapshot_eq_some.2 ⟨hr, hkept⟩⟩)
    · right
      simp only [not_forall, Int.not_lt] at hkept
      obtain ⟨time, htime, hlong⟩ := hkept
      rw [hended] at htime
      refine ⟨⟨time, htime, hlong⟩, fun k hk => ?_⟩
      rw [hopen.endedAt_eq_none hk hm] at htime
      cases htime
  · exact .inr ⟨⟨time, htime, by change ActivityLog.retentionMs ≤ now - time; omega⟩, hnone⟩

end Kept

/-! ## Runs -/

/-- **Records follow marks** in every run. -/
theorem follows (H : machine.History h t) (id : String) : Follows h t id := by
  obtain ⟨s, ⟨hlog, hguards⟩, r⟩ := H
  refine r.invariantHistory (fun h t => Follows h t id) (fun _ _ => True) (fun _ _ _ _ => trivial)
    ⟨fun r hr => ?_, fun k hk => ?_, by rintro ⟨⟩⟩ fun h t a _ F legal _ => ?_
  · rw [hlog] at hr
    cases hr
  · rw [hguards] at hk
    cases hk
  · cases a with
    | new k sessionId backend now => exact F.new legal.2 (mark_concat _)
    | resolve k status toolName now =>
      obtain ⟨sessionId, hk⟩ := Option.ne_none_iff_exists'.1 legal.2
      exact F.close hk (mark_concat _)
    | drop k now =>
      obtain ⟨sessionId, hk⟩ := Option.ne_none_iff_exists'.1 legal.2
      exact F.close hk (mark_concat _)
    | snapshot now => exact F.snapshot (mark_concat _)

/-- **Records are kept** while the snapshots find no step unresolved in a session that ended. -/
theorem kept (H : machine.History h t)
    (hopen : Along (fun h e => ∀ now, e.act = Action.snapshot now → Open h e.pre) h) (id : String) :
    Kept h t id := by
  obtain ⟨s, init, r⟩ := H
  refine r.invariantHistory (fun h t => Kept h t id) _ hopen (fun m hm => by cases hm)
    fun h t a r K legal hopen => ?_
  have F : Follows h t id := follows ⟨s, init, r⟩ id
  cases a with
  | new k sessionId backend now => exact K.new legal.2 legal.1 (mark_concat _)
  | resolve k status toolName now =>
    obtain ⟨sessionId, hk⟩ := Option.ne_none_iff_exists'.1 legal.2
    exact K.close F hk legal.1 (mark_concat _)
  | drop k now =>
    obtain ⟨sessionId, hk⟩ := Option.ne_none_iff_exists'.1 legal.2
    exact K.close F hk legal.1 (mark_concat _)
  | snapshot now => exact K.snapshot F legal.1 (hopen now rfl) (mark_concat _)

/-- What is reported of unresolved steps says that their sessions have not ended. -/
theorem open_of_reports (R : Reports h s now) (F : ∀ id, Follows h s id) : Open h s := by
  intro k id hk st time hmark
  obtain ⟨r, hr, hnone⟩ := R.unresolved k id hk
  obtain ⟨m, hm, -, hended⟩ := (F id).record r (snapshot_eq_some.1 hr).1
  obtain rfl := Option.some.inj (hmark.symm.trans hm)
  rw [hnone, Mark.endedAt] at hended
  by_contra hend
  rw [if_pos (by tauto)] at hended
  cases hended

/-- A session whose last step ended is reported until that is long enough ago. -/
theorem remains_of_ended (F : Follows h s id) (K : Kept h s id) (hclock : s.clock ≤ now) {time : ℤ}
    (hmark : mark id h = some (.ended status time)) :
    Remains now (s.log.snapshot now id) (some (.ended status time)) := by
  have hrecord : ∀ r, s.log id = some r →
      r.status = status ∧ r.endedAtMs = (Mark.ended status time).endedAt := by
    intro r hr
    obtain ⟨m, hm, hrm⟩ := F.record r hr
    obtain rfl := Option.some.inj (hmark.symm.trans hm)
    exact hrm
  rw [Remains]
  split_ifs with hlong
  · -- nothing that is reported ended so long ago
    rw [Option.map_eq_none_iff, Option.eq_none_iff_forall_ne_some]
    intro r hr
    obtain ⟨hr, hrecent⟩ := snapshot_eq_some.1 hr
    have htime : r.endedAtMs = some time := by rw [(hrecord r hr).2, Mark.endedAt, if_pos hlong.1]
    have := hrecent time htime
    omega
  · have hsome : (s.log id).isSome := by
      obtain hsome | ⟨⟨time', htime', hlong'⟩, -⟩ := K _ hmark
      · exact hsome
      · obtain ⟨st, hst, hend⟩ := Mark.endedAt_eq_some.1 htime'
        obtain ⟨rfl, rfl⟩ := Mark.ended.inj hst
        exact absurd ⟨hend, by omega⟩ hlong
    obtain ⟨r, hr⟩ := Option.isSome_iff_exists.1 hsome
    obtain ⟨hstatus, hended⟩ := hrecord r hr
    rw [Option.map_eq_some_iff]
    refine ⟨r, snapshot_eq_some.2 ⟨hr, fun time' htime' => ?_⟩, hstatus⟩
    rw [hended] at htime'
    obtain ⟨st, hst, hend⟩ := Mark.endedAt_eq_some.1 htime'
    obtain ⟨rfl, rfl⟩ := Mark.ended.inj hst
    exact Int.not_le.1 fun hle => hlong ⟨hend, hle⟩

theorem reports_of_open (hopen : Open h s) (F : ∀ id, Follows h s id) (K : ∀ id, Kept h s id)
    (hclock : s.clock ≤ now) : Reports h s now where
  unresolved k id hk := by
    obtain ⟨m, hm⟩ := Option.ne_none_iff_exists'.1 ((F id).begun k hk)
    obtain hsome | ⟨-, hnone⟩ := K id m hm
    · obtain ⟨r, hr⟩ := Option.isSome_iff_exists.1 hsome
      obtain ⟨m', hm', -, hended⟩ := (F id).record r hr
      obtain rfl := Option.some.inj (hm.symm.trans hm')
      rw [hopen.endedAt_eq_none hk hm] at hended
      refine ⟨r, snapshot_eq_some.2 ⟨hr, fun time htime => ?_⟩, hended⟩
      rw [hended] at htime
      cases htime
    · exact absurd hk (hnone k)
  ended id r hr := by
    obtain ⟨m, -, hstatus, hended⟩ := (F id).record r (snapshot_eq_some.1 hr).1
    rw [hended, hstatus]
    exact m.isSome_endedAt
  resolved id hno := by
    cases hmark : mark id h with
    | none =>
      change s.log.snapshot now id = none
      rw [Option.eq_none_iff_forall_ne_some]
      intro r hr
      obtain ⟨m, hm, -⟩ := (F id).record r (snapshot_eq_some.1 hr).1
      rw [hmark] at hm
      cases hm
    | some m =>
      cases m with
      | began =>
        obtain ⟨k, hk⟩ := (F id).running hmark
        exact absurd hk (hno k)
      | ended st time => exact remains_of_ended (F id) (K id) hclock hmark

/-- **Snapshots report the sessions as they are, if no step outlives its session.** In a run of
guards in any order, each snapshot reports every session with an unresolved step as not ended, has
an end exactly in the records that are final or failed, and reports a session without such a step
with the status of its last step until it ended long enough ago; if and only if at no snapshot a
step is unresolved in a session that another step has ended last. -/
theorem snapshot_reports_iff (H : machine.History h t) :
    Along (fun h e => ∀ now, e.act = Action.snapshot now → Reports h e.pre now) h ↔
      Along (fun h e => ∀ now, e.act = Action.snapshot now → Open h e.pre) h := by
  have hbefore : ∀ l₁ e l₂, h = l₁ ++ e :: l₂ →
      machine.History l₁ e.pre ∧ machine.Legal e.pre e.act := by
    rintro l₁ e l₂ rfl
    obtain ⟨s, init, r⟩ := H
    exact ⟨⟨s, init, r.split.1⟩, r.legal (by simp)⟩
  constructor
  · intro hreports l₁ e l₂ hl now hact
    exact open_of_reports (hreports l₁ e l₂ hl now hact) (follows (hbefore l₁ e l₂ hl).1)
  · intro hopen l₁ e l₂ hl now hact
    obtain ⟨H₁, legal⟩ := hbefore l₁ e l₂ hl
    have hclock : e.pre.clock ≤ now := by
      have := legal.1
      rwa [hact] at this
    have hopen₁ := hopen
    rw [hl] at hopen₁
    exact reports_of_open (hopen l₁ e l₂ hl now hact) (follows H₁) (kept H₁ hopen₁.left) hclock

end

/-- A node that just started. -/
def start : Tracker := ⟨fun _ => none, fun _ => none, 0⟩

/-- Steps of two sessions, with a snapshot while one of them runs and one behind both. -/
def answered : List Action :=
  [.new 0 "s" .Local 1, .new 1 "t" .Local 2, .resolve 0 .Final none 3, .snapshot 4, .drop 1 5,
    .snapshot 6]

theorem legal_answered : machine.LegalFrom start answered :=
  ⟨⟨by decide, rfl⟩, ⟨by decide, rfl⟩, ⟨by decide, Option.some_ne_none _⟩, ⟨by decide, trivial⟩,
    ⟨by decide, Option.some_ne_none _⟩, ⟨by decide, trivial⟩, trivial⟩

theorem open_answered : Along (fun h e => ∀ now, e.act = Action.snapshot now → Open h e.pre)
    (machine.trace start answered) := by
  change Along _ ([] ++ [_] ++ [_] ++ [_] ++ [_] ++ [_] ++ [_])
  refine along_concat.2 ⟨along_concat.2 ⟨along_concat.2 ⟨along_concat.2 ⟨along_concat.2
    ⟨along_concat.2 ⟨along_nil, ?_⟩, ?_⟩, ?_⟩, ?_⟩, ?_⟩, ?_⟩
  · rintro now ⟨⟩
  · rintro now ⟨⟩
  · rintro now ⟨⟩
  · -- the session that runs is the second one
    rintro now - k id hk status time hmark
    change update (update (update (fun _ => none) 0 (some "s")) 1 (some "t")) 0 none k =
      some id at hk
    by_cases hone : k = 1
    · obtain rfl : "t" = id := by simpa [hone] using hk
      cases (show mark "t" _ = some .began from rfl).symm.trans hmark
    · by_cases hzero : k = 0
      · simp [hzero] at hk
      · simp [hone, hzero] at hk
  · rintro now ⟨⟩
  · rintro now - k id hk
    change update (update (update (update (fun _ => none) 0 (some "s")) 1 (some "t")) 0 none) 1
      none k = some id at hk
    by_cases hone : k = 1
    · simp [hone] at hk
    · by_cases hzero : k = 0
      · simp [hzero] at hk
      · simp [hone, hzero] at hk

/-- The first snapshot is taken while the step of the second session runs. -/
theorem snapshot_reports_iff_answered :
    Along (fun h e => ∀ now, e.act = Action.snapshot now → Reports h e.pre now)
        (machine.trace start answered) ∧
      ∃ e ∈ machine.trace start answered, e.act = .snapshot 4 ∧ e.pre.guards 1 = some "t" := by
  refine ⟨(snapshot_reports_iff ⟨start, ⟨rfl, rfl⟩, .of_legalFrom answered start
    legal_answered⟩).2 open_answered, ?_⟩
  exact ⟨_, .tail _ (.tail _ (.tail _ (.head _))), rfl, rfl⟩

/-- Two steps of a session, the second of which fails while the first one runs. -/
def overlapping : List Action :=
  [.new 0 "s" .Local 1, .new 1 "s" .Local 2, .drop 1 3, .snapshot 4]

/-- A session with an unresolved step is reported as ended. -/
theorem unresolved_ended : machine.LegalFrom start overlapping ∧
    ¬Along (fun h e => ∀ now, e.act = Action.snapshot now → Reports h e.pre now)
      (machine.trace start overlapping) := by
  refine ⟨⟨⟨by decide, rfl⟩, ⟨by decide, rfl⟩, ⟨by decide, Option.some_ne_none _⟩,
    ⟨by decide, trivial⟩, trivial⟩, fun hreports => ?_⟩
  have R := hreports [_, _, _] _ [] rfl 4 rfl
  obtain ⟨r, hr, hnone⟩ := R.unresolved 0 "s" rfl
  let s₂ := StepGuard.new (StepGuard.new start 0 "s" .Local 1) 1 "s" .Local 2
  have hlog : (StepGuard.drop s₂ 1 3).log = s₂.log.endStep 3 "s" .Error none := by
    rw [drop, close_eq (show s₂.guards 1 = some "s" from rfl)]
  have hrecord : (StepGuard.drop s₂ 1 3).log "s" = some r := (snapshot_eq_some.1 hr).1
  rw [hlog] at hrecord
  have hended := ((endStep_self _).2 r hrecord).2
  rw [hnone] at hended
  cases hended

end StepGuard

end Flodex.Node
