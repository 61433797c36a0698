import Flodex.Agent.History
import Flodex.Node.Sessions

/-!
# Sessions that straddle backends

Each backend keeps the histories of its own sessions. `straddles_iff` says when a step of a session
is asked about all that the session has been through: when no earlier step of it ran on another
backend.
-/

namespace Flodex.Node

open Function

variable {W : Type*}

/-! ## The steps of a session -/

/-- A step of a session that has returned: the messages it first asked its provider about, the
message of the client, and all that it added to the history. -/
structure Round where
  backend : BackendType
  sessionId : String
  sent : Option (List Value)
  input : Value
  added : List Value

/-- The step that an event is. -/
def round (cfg : Config W) (e : Step W) : Option Round :=
  match e.act with
  | .backendStep k fuel w _ =>
    match e.pre.flights k with
    | some ⟨req, .admitted step⟩ =>
      match agentOf cfg req.backend with
      | .ok agent =>
        let session := (e.pre.sessions req.backend req.sessionId).getD []
        match agent.step fuel w session (.ofStep step) with
        | some (_, session', _) => some {
            backend := req.backend
            sessionId := req.sessionId
            sent := (agent.requests fuel w session (.ofStep step)).head?.map ChatRequest.messages
            input := inputToUserMessage (.ofStep step)
            added := session'.drop session.length }
        | none => none
      | .error _ => none
    | _ => none
  | _ => none

/-- The steps of a session in a history. -/
def rounds (cfg : Config W) (sessionId : String) (h : List (Step W)) : List Round :=
  (h.filterMap (round cfg)).filter fun r => r.sessionId = sessionId

variable {cfg : Config W} {h : List (Step W)} {s t : State} {a : Action W} {r : Round}
  {backend : BackendType} {sessionId : String}

theorem rounds_concat (e : Step W) : rounds cfg sessionId (h ++ [e]) =
    rounds cfg sessionId h ++ (round cfg e).toList.filter fun r => r.sessionId = sessionId := by
  cases hround : round cfg e <;> simp [rounds, hround]

/-- A step asks about the session of its backend, and adds to it. -/
theorem round_spec (hround : round cfg ⟨s, a, next cfg s a⟩ = some r) :
    r.sent = some ((s.sessions r.backend r.sessionId).getD [] ++ [r.input]) ∧ r.added ≠ [] ∧
      (next cfg s a).sessions = update s.sessions r.backend (update (s.sessions r.backend)
        r.sessionId (some ((s.sessions r.backend r.sessionId).getD [] ++ r.added))) := by
  cases a with
  | backendStep k fuel w now =>
    rw [round] at hround
    dsimp only at hround
    split at hround
    · rename_i req step hflight
      split at hround
      · rename_i agent hagent
        split at hround
        · rename_i result session' w' hstep
          obtain rfl := Option.some.inj hround
          obtain ⟨calls, -, hconversation⟩ := agent.conversation_step fuel w
            ((s.sessions req.backend req.sessionId).getD []) (.ofStep step)
          rw [agent.messages_turns hstep] at hconversation
          obtain ⟨added, hadded⟩ := hconversation.exists_append
          rw [List.append_assoc] at hadded
          subst hadded
          refine ⟨by rw [agent.head?_requests hstep]; rfl, by simp, ?_⟩
          dsimp only
          rw [List.drop_left]
          cases result <;> simp only [next, hflight, backendStep, hagent, hstep] <;> rfl
        · cases hround
      · cases hround
    · cases hround
  | _ => cases hround

/-- An action that is no step of a session leaves the histories. -/
theorem sessions_of_round_eq_none (hround : round cfg ⟨s, a, next cfg s a⟩ = none) :
    (next cfg s a).sessions = s.sessions := by
  cases a with
  | backendStep k fuel w now =>
    cases hflight : s.flights k with
    | none => simp only [next, hflight]
    | some f =>
      obtain ⟨req, stage⟩ := f
      cases stage with
      | admitted step =>
        simp only [round, hflight] at hround
        simp only [next, hflight, backendStep]
        cases hagent : agentOf cfg req.backend with
        | error e => rfl
        | ok agent =>
          simp only [hagent] at hround
          dsimp only
          cases hstep : agent.step fuel w ((s.sessions req.backend req.sessionId).getD [])
            (.ofStep step) with
          | none => rfl
          | some result => simp [hstep] at hround
      | opened | asked | fetched | answered | done => simp only [next, hflight]
  | receive req now => exact receive_sessions ..
  | gate k now =>
    rw [next]
    split
    · exact gate_sessions ..
    · rfl
  | ethCall k returndata =>
    rw [next]
    split <;> rfl
  | gateFetched k now =>
    rw [next]
    split
    · exact gateFetched_sessions ..
    · rfl
  | respond k now =>
    rw [next]
    split
    · exact respond_sessions ..
    · rfl
  | ack a => rfl
  | snapshot now => rfl

/-! ## One history for each backend -/

/-- What the steps of a session on a backend added, in order. -/
def history (cfg : Config W) (backend : BackendType) (sessionId : String) (h : List (Step W)) :
    List Value :=
  ((rounds cfg sessionId h).filter fun r => r.backend = backend).flatMap Round.added

/-- **A backend's history of a session is what the steps of the session on it added.** -/
theorem sessions_eq_history (R : Run (machine cfg) .start h s) (backend : BackendType)
    (sessionId : String) :
    (s.sessions backend sessionId).getD [] = history cfg backend sessionId h := by
  refine R.invariantHistory (fun h s => (s.sessions backend sessionId).getD [] =
    history cfg backend sessionId h) (fun _ _ => True) (fun _ _ _ _ => trivial) rfl ?_
  intro h s a _ ih _ _
  rw [history, rounds_concat, List.filter_append, List.flatMap_append, ← history, ← ih]
  change ((next cfg s a).sessions backend sessionId).getD [] = _
  cases hround : round cfg ⟨s, a, next cfg s a⟩ with
  | none => simp [machine, hround, sessions_of_round_eq_none hround]
  | some r =>
    obtain ⟨-, -, hsessions⟩ := round_spec hround
    rw [hsessions]
    by_cases hsession : r.sessionId = sessionId
    · by_cases hbackend : r.backend = backend
      · subst hsession hbackend
        simp [machine, hround]
      · simp [machine, hround, hbackend, Ne.symm hbackend]
    · by_cases hbackend : r.backend = backend
      · subst hbackend
        simp [machine, hround, hsession, Ne.symm hsession]
      · simp [machine, hround, hbackend, Ne.symm hbackend]

/-- Each step of a run adds to the history. -/
theorem added_ne_nil (R : Run (machine cfg) .start h s) :
    ∀ r ∈ rounds cfg sessionId h, r.added ≠ [] := by
  intro r hr
  obtain ⟨e, he, hround⟩ := List.mem_filterMap.1 (List.mem_filter.1 hr).1
  obtain ⟨pre, a, post⟩ := e
  obtain rfl : post = next cfg pre a := R.post_eq he
  exact (round_spec hround).2.1

/-- Of lists that are not empty, a part joins to as much as all of them only if it is all. -/
theorem flatMap_filter_eq_iff {β γ : Type*} {f : β → List γ} {p : β → Bool} {l : List β}
    (hne : ∀ x ∈ l, f x ≠ []) : (l.filter p).flatMap f = l.flatMap f ↔ ∀ x ∈ l, p x := by
  constructor
  · intro heq x hx
    by_contra hp
    have hlen := ((List.filter_append_perm p l).flatMap_right f).length_eq
    rw [List.flatMap_append, List.length_append, heq] at hlen
    have hnil := List.length_eq_zero_iff.1 (Nat.add_eq_left.1 hlen)
    exact hne x hx (List.flatMap_eq_nil_iff.1 hnil x (List.mem_filter.2 ⟨hx, by simpa using hp⟩))
  · intro hp
    rw [List.filter_eq_self.2 hp]

/-! ## A call that another backend is told the result of -/

namespace Deployment

open AgentLoop

/-- The node with two backends; an empty text is the result of the client's tool. -/
def hybrid : Config ℕ :=
  { node caller with
    mockTee := some caller
    envelope := { envelope with
      parseStep := fun bytes => match bytes with
        | [] => .ok (.toolResult "toolu_2" "text" false)
        | _ => envelope.parseStep bytes } }

/-- A step of a session that is bound to no channel. -/
def stepping (k : ℕ) (backend : BackendType) (text : List UInt8) : List (Action ℕ) :=
  [.receive { prompt (.replicate 32 3) "session" text none with backend := backend } 0, .gate k 0,
    .backendStep k 1 1 0]

/-- The client's tool is called on one backend, and its result goes to another. -/
def straddling : List (Action ℕ) := stepping 0 .MockTee [104, 105] ++ stepping 1 .Local []

/-- One backend is told the result of its call. -/
def staying : List (Action ℕ) := stepping 0 .Local [104, 105] ++ stepping 1 .Local []

end Deployment

open Deployment

/-- **A step is asked about all that its session has been through exactly if no step of the session
has run on another backend before.** -/
theorem straddles_iff (R : Run (machine cfg) .start h s) (sessionId : String) :
    Along (fun before e => ∀ r ∈ round cfg e, r.sessionId = sessionId →
      (r.sent = some ((rounds cfg sessionId before).flatMap Round.added ++ [r.input]) ↔
        ∀ r' ∈ rounds cfg sessionId before, r'.backend = r.backend)) h := by
  rintro before ⟨pre, a, post⟩ rest rfl r hround rfl
  obtain ⟨R, -, hpost, -⟩ := R.split
  obtain rfl : post = next cfg pre a := hpost
  obtain ⟨hsent, -, -⟩ := round_spec (Option.mem_def.1 hround)
  rw [hsent, sessions_eq_history R, Option.some.injEq, List.append_left_inj, history,
    flatMap_filter_eq_iff (added_ne_nil R)]
  simp

/-- A backend is told the result of a call of its own. -/
theorem straddles_iff_staying : ∃ r₁ r₂,
    rounds hybrid "session" ((machine hybrid).trace .start staying) = [r₁, r₂] ∧
    r₂.sent = some (r₁.added ++ [r₂.input]) := by
  have hstraddles := straddles_iff (run_trace hybrid staying) "session"
  have hlast := hstraddles.last (l := (machine hybrid).trace .start
    (stepping 0 .Local [104, 105] ++ (stepping 1 .Local []).dropLast))
  exact ⟨_, _, rfl, (hlast _ rfl rfl).2 (List.forall_mem_singleton.2 rfl)⟩

/-- The result of a call goes to another backend, which is asked about the result only. -/
theorem result_straddles : ∃ r₁ r₂,
    rounds hybrid "session" ((machine hybrid).trace .start straddling) = [r₁, r₂] ∧
    r₁.backend = .MockTee ∧ r₂.backend = .Local ∧
    (∀ k ∈ [0, 1], ∃ req, ((machine hybrid).final .start straddling).flights k =
      some ⟨req, .answered (.toolCall "toolu_2" "ask" (.object []) .zero)⟩) ∧
    r₂.input = inputToUserMessage (.toolResult "toolu_2" "text" false) ∧
    r₂.sent = some [r₂.input] ∧ r₂.sent ≠ some (r₁.added ++ [r₂.input]) := by
  refine ⟨_, _, rfl, rfl, rfl, ?_, rfl, rfl, ?_⟩
  · exact List.forall_mem_cons.2 ⟨⟨_, rfl⟩, List.forall_mem_singleton.2 ⟨_, rfl⟩⟩
  · intro h
    have hlen : some 1 = some 3 := congrArg (Option.map List.length) h
    simp at hlen

end Flodex.Node
