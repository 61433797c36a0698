import Flodex.Agent.Loop

/-!
# What an agent does

`AgentLoop.traced` is the agent with a record of its calls: what it asked the provider and which
tools it ran, with what came back. `conversation_step` reads the record of the first turns of a
step as a conversation: each request is for the messages so far, each response is appended as it
is, and the calls of a response that the step goes on from are run in order, each once, and
answered in one message.
-/

namespace Flodex

variable {W : Type*}

/-! ## The record -/

inductive Call
  | asked (req : ChatRequest) (res : Except String ChatResult)
  | ran (name : String) (input : Value) (res : Except String String)

def Tool.traced : Tool W → Tool (W × List Call)
  | .node d execute => .node d fun w v =>
    let (r, w') := execute w.1 v
    (r, (w', w.2 ++ [.ran d.name v r]))
  | .client d => .client d

namespace AgentLoop

variable (agent : AgentLoop W)

/-- The agent that records its calls. -/
def traced : AgentLoop (W × List Call) where
  provider w req :=
    let (r, w') := agent.provider w.1 req
    (r, (w', w.2 ++ [.asked req r]))
  maxTokens := agent.maxTokens
  systemPrompt := agent.systemPrompt
  registry := agent.registry.map Tool.traced

/-! ## Conversations -/

/-- A call of a response, and what the node's tool gave for it if there is one. -/
abbrev ToolRun := ToolUse × Option (Except String String)

/-- The block that answers a call. -/
def ToolRun.answer (r : ToolRun) : Value :=
  match r.2 with
  | some (.ok s) => toolResultBlock r.1.id s false
  | some (.error e) => toolResultBlock r.1.id ("tool error: " ++ e) true
  | none => toolResultBlock r.1.id ("unknown tool `" ++ r.1.name ++ "`") true

/-- The calls of tools among those of a response. -/
def executions (runs : List ToolRun) : List Call :=
  runs.filterMap fun r => r.2.map (.ran r.1.name r.1.input)

/-- A call of a node's tool is run, and one of no tool is not. -/
def Runs (r : ToolRun) : Prop :=
  match agent.find r.1.name with
  | some (.node ..) => r.2.isSome
  | some (.client _) => False
  | none => r.2 = none

/-- A response that the provider gave to the request for some messages. -/
def Answers (messages : List Value) (resp : ChatResult) : Prop :=
  ∃ w, (agent.provider w (agent.request messages)).1 = .ok resp

/-- A response that the step fails with. -/
inductive Refused (resp : ChatResult) : AgentError → Prop
  | noToolUse (hstop : resp.stopReason = "tool_use") (huses : collectToolUses resp.content = []) :
    Refused resp .noToolUse
  | mixedTools (hstop : resp.stopReason = "tool_use")
    (hmany : 1 < (collectToolUses resp.content).length)
    (hclient : ∃ u ∈ collectToolUses resp.content, agent.callsClient u) : Refused resp .mixedTools
  | unexpected (hstop : resp.stopReason ∉ ["end_turn", "tool_use", "pause_turn"]) :
    Refused resp (.unexpectedStopReason resp.stopReason)

/-- The calls of the first turns of a step that starts from some messages, its result if it has
returned by then, and the messages after these turns. -/
inductive Conversation : List Value → List Call → Option (Except AgentError AgentStepOutcome) →
    List Value → Prop
  | going {messages : List Value} : Conversation messages [] none messages
  | failed {messages : List Value} {e : String} : Conversation messages
    [.asked (agent.request messages) (.error e)] (some (.error (.provider e))) messages
  | refused {messages : List Value} {resp : ChatResult} {e : AgentError}
    (answers : agent.Answers messages resp) (refused : agent.Refused resp e) : Conversation messages
      [.asked (agent.request messages) (.ok resp)] (some (.error e))
      (messages ++ [message "assistant" resp.content])
  | final {messages : List Value} {resp : ChatResult} {usage : Usage}
    (answers : agent.Answers messages resp) (hstop : resp.stopReason = "end_turn") :
    Conversation messages [.asked (agent.request messages) (.ok resp)]
      (some (.ok (.final (extractText resp.content) usage)))
      (messages ++ [message "assistant" resp.content])
  | clientTool {messages : List Value} {resp : ChatResult} {u : ToolUse} {usage : Usage}
    (answers : agent.Answers messages resp) (hstop : resp.stopReason = "tool_use")
    (huses : collectToolUses resp.content = [u]) (hclient : agent.callsClient u) :
    Conversation messages [.asked (agent.request messages) (.ok resp)]
      (some (.ok (.needsClientTool u.id u.name u.input usage)))
      (messages ++ [message "assistant" resp.content])
  | paused {messages messages' : List Value} {resp : ChatResult} {calls : List Call}
    {exit : Option (Except AgentError AgentStepOutcome)} (answers : agent.Answers messages resp)
    (hstop : resp.stopReason = "pause_turn")
    (rest : Conversation (messages ++ [message "assistant" resp.content]) calls exit messages') :
    Conversation messages (.asked (agent.request messages) (.ok resp) :: calls) exit messages'
  | tools {messages messages' : List Value} {resp : ChatResult} {runs : List ToolRun}
    {calls : List Call} {exit : Option (Except AgentError AgentStepOutcome)}
    (answers : agent.Answers messages resp) (hstop : resp.stopReason = "tool_use") (hne : runs ≠ [])
    (huses : runs.map Prod.fst = collectToolUses resp.content) (hruns : ∀ r ∈ runs, agent.Runs r)
    (rest : Conversation (messages ++ [message "assistant" resp.content,
      message "user" (runs.map ToolRun.answer)]) calls exit messages') :
    Conversation messages
      (.asked (agent.request messages) (.ok resp) :: (executions runs ++ calls)) exit messages'

/-- A conversation that is still going goes on with another. -/
theorem Conversation.append {agent : AgentLoop W} {messages messages' messages'' : List Value}
    {calls calls' : List Call} {exit : Option (Except AgentError AgentStepOutcome)}
    (h : agent.Conversation messages calls none messages')
    (h' : agent.Conversation messages' calls' exit messages'') :
    agent.Conversation messages (calls ++ calls') exit messages'' := by
  generalize hexit : (none : Option (Except AgentError AgentStepOutcome)) = exit' at h
  induction h with
  | going => exact h'
  | paused answers hstop rest ih => exact .paused answers hstop (ih h' hexit)
  | tools answers hstop hne huses hruns rest ih =>
    rw [List.cons_append, List.append_assoc]
    exact .tools answers hstop hne huses hruns (ih h' hexit)
  | failed | refused | final | clientTool => cases hexit

/-- The messages of a conversation are only added to. -/
theorem Conversation.exists_append {agent : AgentLoop W} {messages messages' : List Value}
    {calls : List Call} {exit : Option (Except AgentError AgentStepOutcome)}
    (h : agent.Conversation messages calls exit messages') :
    ∃ added, messages' = messages ++ added := by
  induction h with
  | going | failed => exact ⟨[], by simp⟩
  | refused | final | clientTool => exact ⟨_, rfl⟩
  | paused answers hstop rest ih =>
    obtain ⟨added, rfl⟩ := ih
    exact ⟨_, List.append_assoc ..⟩
  | tools answers hstop hne huses hruns rest ih =>
    obtain ⟨added, rfl⟩ := ih
    exact ⟨_, List.append_assoc ..⟩

/-- One that has ended has asked about the messages it started from. -/
theorem Conversation.exists_asked {agent : AgentLoop W} {messages messages' : List Value}
    {calls : List Call} {r : Except AgentError AgentStepOutcome}
    (h : agent.Conversation messages calls (some r) messages') :
    ∃ res rest, calls = .asked (agent.request messages) res :: rest := by
  cases h <;> exact ⟨_, _, rfl⟩

/-! ## Turn after turn -/

/-- A step before its first turn. -/
def Turn.start (w : W) (messages : List Value) : Turn W := ⟨w, messages, .zero, none⟩

/-- What the first turns of a step leave. -/
def turns : ℕ → Turn W → Turn W
  | 0, t => t
  | n + 1, t =>
    match t.exit with
    | some _ => t
    | none => turns n (agent.turn t.world t.messages t.totalUsage)

/-- What a step returns, once it does. -/
def Turn.result (t : Turn W) : Option (Except AgentError AgentStepOutcome × List Value × W) :=
  t.exit.map fun r => (r, t.messages, t.world)

theorem turns_of_exit {t : Turn W} {r : Except AgentError AgentStepOutcome} (h : t.exit = some r)
    (n : ℕ) : agent.turns n t = t := by
  cases n with
  | zero => rfl
  | succ n => rw [turns, h]

theorem steps_eq_result (n : ℕ) (w : W) (messages : List Value) (u : Usage) :
    agent.steps n w messages u = (agent.turns n ⟨w, messages, u, none⟩).result := by
  induction n generalizing w messages u with
  | zero => rfl
  | succ n ih =>
    rw [steps, turns]
    dsimp only
    generalize agent.turn w messages u = t
    obtain ⟨w', messages', u', exit⟩ := t
    cases exit with
    | some r => rw [agent.turns_of_exit rfl]; rfl
    | none => exact ih w' messages' u'

/-- A step is its turns until it returns. -/
theorem step_eq_result (n : ℕ) (w : W) (session : List Value) (input : AgentStepInput) :
    agent.step n w session input =
      (agent.turns n (.start w (session ++ [inputToUserMessage input]))).result :=
  agent.steps_eq_result ..

/-- The session that a step leaves is the one of its turns. -/
theorem messages_turns {n : ℕ} {w w' : W} {session session' : List Value} {input : AgentStepInput}
    {r : Except AgentError AgentStepOutcome}
    (h : agent.step n w session input = some (r, session', w')) :
    (agent.turns n (.start w (session ++ [inputToUserMessage input]))).messages = session' := by
  rw [step_eq_result, Turn.result, Option.map_eq_some_iff] at h
  obtain ⟨r', -, hr⟩ := h
  exact congrArg (fun p => p.2.1) hr

/-! ## The traced agent -/

theorem wraps_traced : Wraps Tool.traced agent agent.traced where
  maxTokens := rfl
  systemPrompt := rfl
  registry := rfl
  toolDef t := by cases t <;> rfl
  isClient t := by cases t <;> rfl

/-- The turn with a record of the calls. -/
def Turn.record (t : Turn W) (log : List Call) : Turn (W × List Call) :=
  ⟨(t.world, log), t.messages, t.totalUsage, t.exit⟩

theorem provider_traced (w : W) (log : List Call) (req : ChatRequest) :
    agent.traced.provider (w, log) req = ((agent.provider w req).1,
      ((agent.provider w req).2, log ++ [.asked req (agent.provider w req).1])) := rfl

/-- A call that is not one of a client's tool: how it is answered, and what is recorded. -/
theorem exists_run (w : W) (log : List Call) {u : ToolUse} (hu : agent.callsClient u = false) :
    ∃ run : ToolRun, ∃ w', run.1 = u ∧ agent.Runs run ∧ agent.runTool w u = (run.answer, w') ∧
      agent.traced.runTool (w, log) u = (run.answer, (w', log ++ executions [run])) := by
  cases hfind : agent.find u.name with
  | none =>
    refine ⟨(u, none), w, rfl, by simp [Runs, hfind], by simp [runTool, hfind, ToolRun.answer], ?_⟩
    simp [runTool, agent.wraps_traced.find, hfind, ToolRun.answer, executions]
  | some t =>
    have hname : t.toolDef.name = u.name := by simpa using List.find?_some hfind
    cases t with
    | client d => simp [callsClient, hfind, Tool.isClient] at hu
    | node d execute =>
      have hname : d.name = u.name := hname
      refine ⟨(u, some (execute w u.input).1), (execute w u.input).2, rfl, by simp [Runs, hfind],
        ?_⟩
      cases hexec : execute w u.input with
      | mk r w' =>
        cases r <;>
          simp [runTool, agent.wraps_traced.find, hfind, Tool.traced, hexec, hname, ToolRun.answer,
            executions]

/-- Calls that are none of a client's tool are run in order, each once. -/
theorem exists_runs (w : W) (log : List Call) {us : List ToolUse}
    (hus : ∀ u ∈ us, agent.callsClient u = false) :
    ∃ runs : List ToolRun, ∃ w', runs.map Prod.fst = us ∧ (∀ r ∈ runs, agent.Runs r) ∧
      agent.runTools w us = (runs.map ToolRun.answer, w') ∧
      agent.traced.runTools (w, log) us =
        (runs.map ToolRun.answer, (w', log ++ executions runs)) := by
  induction us generalizing w log with
  | nil => exact ⟨[], w, rfl, by simp, rfl, by simp [runTools, executions]⟩
  | cons u us ih =>
    obtain ⟨run, w₁, rfl, hrun, hplain, htraced⟩ := agent.exists_run w log (hus u (by simp))
    obtain ⟨runs, w₂, rfl, hruns, hplain', htraced'⟩ :=
      ih w₁ (log ++ executions [run]) fun v hv => hus v (by simp [hv])
    refine ⟨run :: runs, w₂, rfl, List.forall_mem_cons.2 ⟨hrun, hruns⟩, ?_, ?_⟩
    · simp only [runTools, hplain, hplain', List.map_cons]
    · simp only [runTools, htraced, htraced', List.map_cons, List.append_assoc]
      rw [executions, executions, ← List.filterMap_append]
      rfl

/-- Several calls, with one of a client's tool among them. -/
theorem mixed_of_count {p : ToolUse → Bool} {us : List ToolUse}
    (h : 0 < us.countP p ∧ (us.any (fun u => !p u) = true ∨ 1 < us.countP p)) :
    1 < us.length ∧ ∃ u ∈ us, p u := by
  refine ⟨?_, List.countP_pos_iff.1 h.1⟩
  rcases h.2 with hnode | hmany
  · have hpos : 0 < us.countP fun u => !p u := by
      simpa [List.countP_pos_iff] using hnode
    have := List.length_eq_countP_add_countP p (l := us)
    simp only [Bool.not_eq_true, Bool.decide_eq_false] at this
    omega
  · exact hmany.trans_le List.countP_le_length

/-- If calls are not mixed, one of a client's tool is the only one. -/
theorem eq_of_find {p : ToolUse → Bool} {us : List ToolUse} {u : ToolUse}
    (h : ¬(0 < us.countP p ∧ (us.any (fun u => !p u) = true ∨ 1 < us.countP p)))
    (hfind : us.find? p = some u) : us = [u] := by
  have hmem := List.mem_of_find?_eq_some hfind
  have hpos : 0 < us.countP p := List.countP_pos_iff.2 ⟨u, hmem, List.find?_some hfind⟩
  simp only [hpos, true_and, not_or, Bool.not_eq_true, List.any_eq_false, Bool.not_eq_true',
    Bool.not_eq_false] at h
  have hlen : us.countP p = us.length := List.countP_eq_length.2 h.1
  obtain ⟨v, rfl⟩ := List.length_eq_one_iff.1 (show us.length = 1 by omega)
  rw [List.mem_singleton.1 hmem]

/-- What the traced agent does with a response. -/
theorem respond_traced (w : W) (log : List Call) (messages : List Value) (u : Usage)
    {resp : ChatResult} (answers : agent.Answers messages resp) :
    ∃ calls, agent.traced.respond (w, log) messages u resp =
      (agent.respond w messages u resp).record (log ++ calls) ∧
      agent.Conversation messages (.asked (agent.request messages) (.ok resp) :: calls)
        (agent.respond w messages u resp).exit (agent.respond w messages u resp).messages := by
  unfold respond
  simp only [agent.wraps_traced.callsClient]
  split_ifs with hend htool hnone hmixed hpause
  · exact ⟨[], by simp [Turn.record], .final answers hend⟩
  · exact ⟨[], by simp [Turn.record], .refused answers (.noToolUse htool (by simpa using hnone))⟩
  · obtain ⟨hmany, hclient⟩ := mixed_of_count hmixed
    exact ⟨[], by simp [Turn.record], .refused answers (.mixedTools htool hmany hclient)⟩
  · cases hfind : (collectToolUses resp.content).find? agent.callsClient with
    | some u =>
      have huses := eq_of_find hmixed hfind
      exact ⟨[], by simp [Turn.record], .clientTool answers htool huses (List.find?_some hfind)⟩
    | none =>
      have hnode : ∀ u ∈ collectToolUses resp.content, agent.callsClient u = false := by
        simpa using hfind
      obtain ⟨runs, w', huses, hruns, hplain, htraced⟩ := agent.exists_runs w log hnode
      have hne : runs ≠ [] := by
        rintro rfl
        exact hnone (by simp [← huses])
      refine ⟨executions runs, by simp only [hplain, htraced, Turn.record], ?_⟩
      simp only [hplain, List.append_assoc, List.singleton_append]
      have h := Conversation.tools answers htool hne huses hruns .going
      rwa [List.append_nil] at h
  · exact ⟨[], by simp [Turn.record], .paused answers hpause .going⟩
  · exact ⟨[], by simp [Turn.record],
      .refused answers (.unexpected (by simp [hend, htool, hpause]))⟩

theorem turn_traced (w : W) (log : List Call) (messages : List Value) (u : Usage) :
    ∃ calls, agent.traced.turn (w, log) messages u =
      (agent.turn w messages u).record (log ++ calls) ∧
      agent.Conversation messages calls (agent.turn w messages u).exit
        (agent.turn w messages u).messages := by
  simp only [turn, agent.wraps_traced.request, provider_traced]
  cases hp : agent.provider w (agent.request messages) with
  | mk r w' =>
    cases r with
    | error e => exact ⟨_, rfl, .failed⟩
    | ok resp =>
      obtain ⟨calls, hrespond, hconversation⟩ :=
        agent.respond_traced w' (log ++ [.asked (agent.request messages) (.ok resp)]) messages u
          ⟨w, by rw [hp]⟩
      refine ⟨_, ?_, hconversation⟩
      rw [List.append_assoc] at hrespond
      exact hrespond

/-- **The record of the turns of a step is a conversation.** -/
theorem conversation_turns (n : ℕ) {t : Turn W} (log : List Call) (ht : t.exit = none) :
    ∃ calls, agent.traced.turns n (t.record log) = (agent.turns n t).record (log ++ calls) ∧
      agent.Conversation t.messages calls (agent.turns n t).exit (agent.turns n t).messages := by
  induction n generalizing t log with
  | zero =>
    refine ⟨[], by simp [turns], ?_⟩
    rw [turns, ht]
    exact .going
  | succ n ih =>
    obtain ⟨calls, hturn, hfirst⟩ := agent.turn_traced t.world log t.messages t.totalUsage
    have hrec : agent.traced.turns (n + 1) (t.record log) =
        agent.traced.turns n
          ((agent.turn t.world t.messages t.totalUsage).record (log ++ calls)) := by
      simp only [turns, Turn.record, ht, hturn]
    rw [hrec, turns, ht]
    dsimp only
    generalize agent.turn t.world t.messages t.totalUsage = t₁ at hfirst ⊢
    cases hexit : t₁.exit with
    | some r =>
      rw [agent.turns_of_exit hexit, agent.traced.turns_of_exit (r := r) hexit, hexit]
      exact ⟨calls, rfl, hexit ▸ hfirst⟩
    | none =>
      obtain ⟨calls', hturns, hrest⟩ := ih (log ++ calls) hexit
      rw [hexit] at hfirst
      exact ⟨calls ++ calls', by rw [hturns, List.append_assoc], hfirst.append hrest⟩

/-- The turns of a step and its record. -/
theorem conversation_step (n : ℕ) (w : W) (session : List Value) (input : AgentStepInput) :
    ∃ calls, agent.traced.turns n (.start (w, []) (session ++ [inputToUserMessage input])) =
        (agent.turns n (.start w (session ++ [inputToUserMessage input]))).record calls ∧
      agent.Conversation (session ++ [inputToUserMessage input]) calls
        ((agent.step n w session input).map Prod.fst)
        (agent.turns n (.start w (session ++ [inputToUserMessage input]))).messages := by
  obtain ⟨calls, hturns, hconversation⟩ := agent.conversation_turns n
    (t := .start w (session ++ [inputToUserMessage input])) [] rfl
  refine ⟨calls, hturns, ?_⟩
  have hexit : (agent.step n w session input).map Prod.fst =
      (agent.turns n (.start w (session ++ [inputToUserMessage input]))).exit := by
    simp [step_eq_result, Turn.result, Function.comp_def]
  rw [hexit]
  exact hconversation

/-! ## The requests of a step -/

/-- The requests that a step sends in its first turns. -/
def requests (n : ℕ) (w : W) (session : List Value) (input : AgentStepInput) : List ChatRequest :=
  (agent.traced.turns n (.start (w, []) (session ++ [inputToUserMessage input]))).world.2.filterMap
    fun
    | .asked req _ => some req
    | .ran .. => none

/-- **A step first asks about the session with its input.** -/
theorem head?_requests {n : ℕ} {w w' : W} {session session' : List Value} {input : AgentStepInput}
    {r : Except AgentError AgentStepOutcome}
    (h : agent.step n w session input = some (r, session', w')) :
    (agent.requests n w session input).head? =
      some (agent.request (session ++ [inputToUserMessage input])) := by
  obtain ⟨calls, htraced, hconversation⟩ := agent.conversation_step n w session input
  rw [requests, htraced, Turn.record]
  rw [h, Option.map_some] at hconversation
  obtain ⟨res, rest, rfl⟩ := hconversation.exists_asked
  rfl

end AgentLoop

end Flodex
