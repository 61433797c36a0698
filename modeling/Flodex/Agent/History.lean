import Flodex.Agent.Trace
import Mathlib.Data.List.Chain

/-!
# The history of a session

A history is well formed when each message with calls of tools is followed by one that has their
results, in the same order. `WellFormed messages pending` is that, up to a last message whose one
call is pending at the client.

From a well-formed history and an input that fits it, a step asks its provider about well-formed
histories only, and leaves one (`step_wellFormed`). A step that fails leaves its input and what
followed it in the session (`step_failed`), and one that fails on mixed calls a session that no
input continues.
-/

namespace Flodex

variable {W : Type*}

/-! ## Calls and results in a message -/

/-- The blocks of a message of a role. -/
def blocksOf (role : String) (m : Value) : List Value :=
  if m.getStr "role" = some role then
    match m.get "content" with
    | some (.array blocks) => blocks
    | _ => []
  else []

/-- The ids of the calls in a message of the assistant. -/
def toolUseIds (m : Value) : List (Option String) :=
  ((blocksOf "assistant" m).filter fun b => b.getStr "type" = some "tool_use").map
    (Value.getStr "id")

/-- The ids of the calls whose results are in a message of the user. -/
def toolResultIds (m : Value) : List (Option String) :=
  ((blocksOf "user" m).filter fun b => b.getStr "type" = some "tool_result").map
    (Value.getStr "tool_use_id")

theorem blocksOf_message (role role' : String) (content : List Value) :
    blocksOf role (message role' content) = if role' = role then content else [] := by
  simp [blocksOf, message, Value.getStr, Value.get, Value.asStr]

@[simp] theorem toolUseIds_user (content : List Value) :
    toolUseIds (message "user" content) = [] := by
  simp [toolUseIds, blocksOf_message]

@[simp] theorem toolUseIds_input (input : AgentStepInput) :
    toolUseIds (inputToUserMessage input) = [] := by
  cases input <;> exact toolUseIds_user _

theorem toolUseIds_assistant (content : List Value) : toolUseIds (message "assistant" content) =
    (content.filter fun b => b.getStr "type" = some "tool_use").map (Value.getStr "id") := by
  simp [toolUseIds, blocksOf_message]

theorem getStr_toolResultBlock (id content : String) (isError : Bool) :
    (toolResultBlock id content isError).getStr "type" = some "tool_result" ∧
      (toolResultBlock id content isError).getStr "tool_use_id" = some id := by
  cases isError with
  | false => exact ⟨rfl, rfl⟩
  | true =>
    -- the new field is the second one
    have hafter : ¬ "is_error" < "content" := by decide
    have hother : "is_error" ≠ "content" := by decide
    have hbefore : "is_error" < "tool_use_id" := by decide
    dsimp only [toolResultBlock, Value.set]
    rw [if_pos rfl, Value.insertField, if_neg hafter, if_neg hother, Value.insertField,
      if_pos hbefore]
    exact ⟨rfl, rfl⟩

theorem toolResultIds_toolResult (id content : String) (isError : Bool) :
    toolResultIds (inputToUserMessage (.toolResult id content isError)) = [some id] := by
  obtain ⟨htype, hid⟩ := getStr_toolResultBlock id content isError
  simp [toolResultIds, inputToUserMessage, blocksOf_message, htype, hid]

theorem length_toolResultIds_input (input : AgentStepInput) :
    (toolResultIds (inputToUserMessage input)).length ≤ 1 := by
  cases input with
  | prompt text => exact Nat.zero_le 1
  | toolResult id content isError => rw [toolResultIds_toolResult, List.length_singleton]

namespace AgentLoop

theorem ToolRun.exists_answer (r : ToolRun) :
    ∃ content isError, r.answer = toolResultBlock r.1.id content isError := by
  rcases r with ⟨u, _ | e | s⟩
  · exact ⟨"unknown tool `" ++ u.name ++ "`", true, rfl⟩
  · exact ⟨"tool error: " ++ e, true, rfl⟩
  · exact ⟨s, false, rfl⟩

theorem toolResultIds_answers (runs : List ToolRun) :
    toolResultIds (message "user" (runs.map ToolRun.answer)) = runs.map fun r => some r.1.id := by
  simp only [toolResultIds, blocksOf_message, if_true]
  induction runs with
  | nil => rfl
  | cons r runs ih =>
    obtain ⟨content, isError, hr⟩ := r.exists_answer
    obtain ⟨htype, hid⟩ := getStr_toolResultBlock r.1.id content isError
    rw [List.map_cons, List.filter_cons_of_pos (by simp [hr, htype]), List.map_cons, ih, hr, hid]
    rfl

end AgentLoop

/-! ## Well-formed histories -/

/-- The calls of the last message. -/
def lastCalls (messages : List Value) : List (Option String) :=
  (messages.getLast?.map toolUseIds).getD []

/-- Calls are answered by the message after them, except for the one that is pending. -/
structure WellFormed (messages : List Value) (pending : Option String) : Prop where
  answered : messages.IsChain fun m m' => toolUseIds m ≠ [] → toolResultIds m' = toolUseIds m
  last : lastCalls messages = pending.toList.map some

theorem wellFormed_nil : WellFormed [] none := ⟨.nil, rfl⟩

theorem lastCalls_concat (messages : List Value) (m : Value) :
    lastCalls (messages ++ [m]) = toolUseIds m := by simp [lastCalls]

/-- A message after others has the results of the last of them, if that has calls. -/
theorem answered_concat {messages : List Value} {m : Value} :
    ((messages ++ [m]).IsChain fun m m' => toolUseIds m ≠ [] → toolResultIds m' = toolUseIds m) ↔
      (messages.IsChain fun m m' => toolUseIds m ≠ [] → toolResultIds m' = toolUseIds m) ∧
      (lastCalls messages ≠ [] → toolResultIds m = lastCalls messages) := by
  have hnext : (∀ x ∈ messages.getLast?, ∀ y ∈ [m].head?,
      toolUseIds x ≠ [] → toolResultIds y = toolUseIds x) ↔
      (lastCalls messages ≠ [] → toolResultIds m = lastCalls messages) := by
    cases h : messages.getLast? <;> simp [lastCalls, h]
  rw [List.isChain_append, hnext]
  constructor
  · rintro ⟨hbefore, -, hjoin⟩
    exact ⟨hbefore, hjoin⟩
  · rintro ⟨hbefore, hjoin⟩
    exact ⟨hbefore, .singleton m, hjoin⟩

/-- Calls are answered by the message after them, except for those of the last message. -/
structure AnsweredUpTo (messages : List Value) (pending : List (Option String)) : Prop where
  answered : messages.IsChain fun m m' => toolUseIds m ≠ [] → toolResultIds m' = toolUseIds m
  last : lastCalls messages = pending

/-- A message with the results of the calls that are pending. -/
theorem AnsweredUpTo.concat {messages : List Value} {m : Value} {pending : List (Option String)}
    (h : AnsweredUpTo messages pending) (hresults : pending ≠ [] → toolResultIds m = pending) :
    AnsweredUpTo (messages ++ [m]) (toolUseIds m) := by
  refine ⟨answered_concat.2 ⟨h.answered, ?_⟩, lastCalls_concat ..⟩
  rw [h.last]
  exact hresults

theorem wellFormed_iff {messages : List Value} {pending : Option String} :
    WellFormed messages pending ↔ AnsweredUpTo messages (pending.toList.map some) :=
  ⟨fun h => ⟨h.answered, h.last⟩, fun h => ⟨h.answered, h.last⟩⟩

theorem wellFormed_concat {messages : List Value} {m : Value} {pending : Option String} :
    WellFormed (messages ++ [m]) pending ↔
      (messages.IsChain fun m m' => toolUseIds m ≠ [] → toolResultIds m' = toolUseIds m) ∧
      (lastCalls messages ≠ [] → toolResultIds m = lastCalls messages) ∧
      toolUseIds m = pending.toList.map some := by
  rw [← and_assoc, ← answered_concat, ← lastCalls_concat messages m]
  exact ⟨fun h => ⟨h.answered, h.last⟩, fun h => ⟨h.1, h.2⟩⟩

/-- The input that a session waits for. -/
def Fits : Option String → AgentStepInput → Prop
  | none, .prompt _ => True
  | some id, .toolResult id' _ _ => id' = id
  | _, _ => False

theorem WellFormed.input {session : List Value} {pending : Option String} {input : AgentStepInput}
    (h : WellFormed session pending) (hfits : Fits pending input) :
    WellFormed (session ++ [inputToUserMessage input]) none := by
  refine wellFormed_concat.2 ⟨h.answered, fun hne => ?_, toolUseIds_input input⟩
  cases pending with
  | none => exact absurd h.last hne
  | some id =>
    cases input with
    | prompt text => exact hfits.elim
    | toolResult id' content isError =>
      obtain rfl : id' = id := hfits
      rw [h.last, toolResultIds_toolResult]
      rfl

/-- The call that an outcome leaves pending. -/
def AgentStepOutcome.pending : AgentStepOutcome → Option String
  | .final .. => none
  | .needsClientTool toolUseId _ _ _ => some toolUseId

namespace AgentLoop

variable {agent : AgentLoop W}

/-! ## A step keeps its history well formed -/

/-- The provider stops for tools when it calls some, and its calls have an id and a name. -/
def Regular (agent : AgentLoop W) : Prop :=
  ∀ w req resp, (agent.provider w req).1 = .ok resp →
    (resp.stopReason = "tool_use" ↔ ∃ b ∈ resp.content, b.getStr "type" = some "tool_use") ∧
    ∀ b ∈ resp.content, b.getStr "type" = some "tool_use" →
      (b.getStr "id").isSome ∧ (b.getStr "name").isSome

variable {messages messages' : List Value} {resp : ChatResult}

/-- None of the calls of a regular provider is lost. -/
theorem Regular.toolUseIds (hregular : agent.Regular) (answers : agent.Answers messages resp) :
    toolUseIds (message "assistant" resp.content) =
      (collectToolUses resp.content).map fun u => some u.id := by
  obtain ⟨w, hw⟩ := answers
  obtain ⟨-, hnamed⟩ := hregular w _ resp hw
  rw [toolUseIds_assistant, collectToolUses]
  generalize resp.content = content at hnamed
  induction content with
  | nil => rfl
  | cons b content ih =>
    have ih := ih fun b' hb' => hnamed b' (by simp [hb'])
    by_cases htype : b.getStr "type" = some "tool_use"
    · obtain ⟨hid, hname⟩ := hnamed b (by simp) htype
      obtain ⟨id, hid⟩ := Option.isSome_iff_exists.1 hid
      obtain ⟨name, hname⟩ := Option.isSome_iff_exists.1 hname
      simp [htype, hid, hname, ih]
    · simp [htype, ih]

theorem Regular.no_calls (hregular : agent.Regular) (answers : agent.Answers messages resp)
    (hstop : resp.stopReason ≠ "tool_use") :
    Flodex.toolUseIds (message "assistant" resp.content) = [] := by
  obtain ⟨w, hw⟩ := answers
  have hnone := mt (hregular w _ resp hw).1.2 hstop
  simpa [toolUseIds_assistant] using hnone

/-- **What responses and answers keep**, of histories and the calls in them that wait for results,
holds of the history of each request with no call waiting, and of the one that is left where the
conversation succeeds. -/
theorem Conversation.invariant {P : List Value → List (Option String) → Prop}
    (hregular : agent.Regular)
    (respond : ∀ messages resp, P messages [] → agent.Answers messages resp →
      P (messages ++ [message "assistant" resp.content])
        (Flodex.toolUseIds (message "assistant" resp.content)))
    (answer : ∀ messages (runs : List ToolRun), P messages (runs.map fun r => some r.1.id) →
      P (messages ++ [message "user" (runs.map ToolRun.answer)]) [])
    {calls : List Call} {exit : Option (Except AgentError AgentStepOutcome)}
    (h : agent.Conversation messages calls exit messages') (hmessages : P messages []) :
    (∀ req res, Call.asked req res ∈ calls → P req.messages []) ∧
      ∀ o, exit = some (.ok o) → P messages' (o.pending.toList.map some) := by
  induction h with
  | going => exact ⟨by simp, by simp⟩
  | failed => exact ⟨by simp [AgentLoop.request, hmessages], by simp⟩
  | refused => exact ⟨by simp [AgentLoop.request, hmessages], by simp⟩
  | final answers hstop =>
    refine ⟨by simp [AgentLoop.request, hmessages], ?_⟩
    rintro o ⟨⟩
    have hleft := respond _ _ hmessages answers
    rwa [hregular.no_calls answers (by simp [hstop])] at hleft
  | clientTool answers hstop huses hclient =>
    refine ⟨by simp [AgentLoop.request, hmessages], ?_⟩
    rintro o ⟨⟩
    have hleft := respond _ _ hmessages answers
    rwa [hregular.toolUseIds answers, huses] at hleft
  | paused answers hstop rest ih =>
    have hleft := respond _ _ hmessages answers
    rw [hregular.no_calls answers (by simp [hstop])] at hleft
    obtain ⟨hasked, hok⟩ := ih hleft
    refine ⟨?_, hok⟩
    rintro req res (_ | ⟨_, hmem⟩)
    · exact hmessages
    · exact hasked req res hmem
  | @tools messages messages' resp runs calls exit answers hstop hne huses hruns rest ih =>
    have hleft := respond _ _ hmessages answers
    rw [hregular.toolUseIds answers, ← huses, List.map_map] at hleft
    have hnext := answer _ runs hleft
    rw [List.append_assoc, List.singleton_append] at hnext
    obtain ⟨hasked, hok⟩ := ih hnext
    refine ⟨?_, hok⟩
    rintro req res (_ | ⟨_, hmem⟩)
    · exact hmessages
    · rcases List.mem_append.1 hmem with hran | hmem
      · obtain ⟨r, -, hr⟩ := List.mem_filterMap.1 hran
        cases h : r.2 <;> simp [h] at hr
      · exact hasked req res hmem

/-- Of a conversation that starts from a well-formed history, so is what each request has, and
what is left where it succeeds. -/
theorem Conversation.wellFormed (hregular : agent.Regular) {calls : List Call}
    {exit : Option (Except AgentError AgentStepOutcome)}
    (h : agent.Conversation messages calls exit messages') (hmessages : WellFormed messages none) :
    (∀ req res, Call.asked req res ∈ calls → WellFormed req.messages none) ∧
      ∀ o, exit = some (.ok o) → WellFormed messages' o.pending := by
  have respond : ∀ messages resp, AnsweredUpTo messages [] → agent.Answers messages resp →
      AnsweredUpTo (messages ++ [message "assistant" resp.content])
        (Flodex.toolUseIds (message "assistant" resp.content)) :=
    fun messages resp hnone _ => hnone.concat fun hne => absurd rfl hne
  have answer : ∀ messages (runs : List ToolRun),
      AnsweredUpTo messages (runs.map fun r => some r.1.id) →
      AnsweredUpTo (messages ++ [message "user" (runs.map ToolRun.answer)]) [] := by
    intro messages runs hpending
    have hnext := hpending.concat fun _ => toolResultIds_answers runs
    rwa [toolUseIds_user] at hnext
  simp only [wellFormed_iff] at hmessages ⊢
  exact h.invariant hregular respond answer hmessages

/-- The block of a call. -/
def toolUseBlock (id name : String) : Value :=
  .object [("id", .string id), ("input", .object []), ("name", .string name),
    ("type", .string "tool_use")]

/-- An agent whose provider calls the tool of the node, the one of the client, and then both. -/
def caller : AgentLoop ℕ where
  provider
    | 0, _ => (.ok ⟨[toolUseBlock "toolu_1" "read"], "tool_use", .zero⟩, 1)
    | 1, _ => (.ok ⟨[toolUseBlock "toolu_2" "ask"], "tool_use", .zero⟩, 2)
    | w, _ => (.ok ⟨[toolUseBlock "toolu_3" "read", toolUseBlock "toolu_4" "ask"], "tool_use",
      .zero⟩, w)
  maxTokens := 16000
  systemPrompt := ""
  registry := [.client ⟨"ask", "", .null⟩, .node ⟨"read", "", .null⟩ fun w _ => (.ok "text", w)]

theorem regular_caller : caller.Regular := by
  have hblock : ∀ id name, (toolUseBlock id name).getStr "type" = some "tool_use" ∧
      (toolUseBlock id name).getStr "id" = some id ∧
      (toolUseBlock id name).getStr "name" = some name := fun _ _ => ⟨rfl, rfl, rfl⟩
  rintro (_ | _ | w) req resp ⟨⟩ <;> simp [hblock]

/-- **A step keeps its history well formed**, whatever its provider and its tools do: so are the
histories it asks about, and the one it leaves, with the call pending that it hands to the client.
Its record is a conversation. -/
theorem step_wellFormed (hregular : agent.Regular) {session : List Value} {pending : Option String}
    {input : AgentStepInput} (hsession : WellFormed session pending) (hfits : Fits pending input)
    (fuel : ℕ) (w : W) :
    ∃ calls, agent.traced.turns fuel (.start (w, []) (session ++ [inputToUserMessage input])) =
        (agent.turns fuel (.start w (session ++ [inputToUserMessage input]))).record calls ∧
      agent.Conversation (session ++ [inputToUserMessage input]) calls
        ((agent.step fuel w session input).map Prod.fst)
        (agent.turns fuel (.start w (session ++ [inputToUserMessage input]))).messages ∧
      (∀ req res, Call.asked req res ∈ calls → WellFormed req.messages none) ∧
      ∀ o session' w', agent.step fuel w session input = some (.ok o, session', w') →
        WellFormed session' o.pending := by
  obtain ⟨calls, htraced, hconversation⟩ := agent.conversation_step fuel w session input
  obtain ⟨hasked, hok⟩ := hconversation.wellFormed hregular (hsession.input hfits)
  refine ⟨calls, htraced, hconversation, hasked, ?_⟩
  intro o session' w' hstep
  exact agent.messages_turns hstep ▸ hok o (by rw [hstep]; rfl)

/-- The read of the node's tool is answered, and the client's call is left pending. -/
theorem step_wellFormed_caller : ∃ session' w',
    caller.step 2 0 [] (.prompt "go") =
      some (.ok (.needsClientTool "toolu_2" "ask" (.object []) .zero), session', w') ∧
    WellFormed session' (some "toolu_2") := by
  have hfits : Fits none (.prompt "go") := trivial
  obtain ⟨calls, -, -, -, hok⟩ := step_wellFormed regular_caller wellFormed_nil hfits 2 0
  exact ⟨_, _, rfl, hok _ _ _ rfl⟩

/-- Called together with the client's tool, the node's is not run. -/
theorem mixed_call_not_run : caller.Regular ∧ WellFormed [] none ∧ Fits none (.prompt "go") ∧
    ∃ req resp session', caller.step 1 2 [] (.prompt "go") =
      some (.error .mixedTools, session', 2) ∧
    (caller.traced.turns 1 (.start (2, []) ([] ++ [inputToUserMessage (.prompt "go")]))).world.2 =
      [.asked req (.ok resp)] ∧
    ∃ u ∈ collectToolUses resp.content, ∃ d execute, caller.find u.name = some (.node d execute) :=
  ⟨regular_caller, wellFormed_nil, trivial, _, _, _, rfl, rfl, ⟨"toolu_3", "read", .object []⟩,
    .head _, _, _, rfl⟩

/-! ## Steps that fail -/

theorem length_collectToolUses (content : List Value) : (collectToolUses content).length ≤
    (Flodex.toolUseIds (message "assistant" content)).length := by
  rw [toolUseIds_assistant, List.length_map, collectToolUses]
  exact List.length_filterMap_le ..

/-- A step that fails on mixed calls leaves at least two that wait for results. -/
theorem Conversation.mixedTools {calls : List Call}
    (h : agent.Conversation messages calls (some (.error .mixedTools)) messages') :
    1 < (lastCalls messages').length := by
  generalize hexit : some (Except.error AgentError.mixedTools) = exit at h
  induction h with
  | refused answers refused =>
    cases refused with
    | mixedTools hstop hmany hclient =>
      simpa [lastCalls] using hmany.trans_le (length_collectToolUses _)
    | noToolUse | unexpected => cases hexit
  | paused answers hstop rest ih => exact ih hexit
  | tools answers hstop hne huses hruns rest ih => exact ih hexit
  | going | failed | final | clientTool => cases hexit

/-- **A step that fails leaves its input in the session**, and what it got to after it. Where it
fails on mixed calls, no input continues the session any more. -/
theorem step_failed {fuel : ℕ} {w w' : W} {session session' : List Value} {input : AgentStepInput}
    {e : AgentError} (h : agent.step fuel w session input = some (.error e, session', w')) :
    session' ≠ session ∧ (∃ added, session' = session ++ inputToUserMessage input :: added) ∧
      (e = .mixedTools → ∀ next, ¬ WellFormed (session' ++ [inputToUserMessage next]) none) := by
  obtain ⟨calls, -, hconversation⟩ := agent.conversation_step fuel w session input
  rw [agent.messages_turns h, h] at hconversation
  obtain ⟨added, rfl⟩ := hconversation.exists_append
  refine ⟨by simp, ⟨added, by simp⟩, ?_⟩
  rintro rfl next hnext
  obtain ⟨-, hanswered, -⟩ := wellFormed_concat.1 hnext
  have hmany := hconversation.mixedTools
  have hresults := congrArg List.length (hanswered (List.ne_nil_of_length_pos (by omega)))
  have := length_toolResultIds_input next
  omega

/-- It does on mixed calls. -/
theorem step_failed_caller : ∃ session', caller.step 1 2 [] (.prompt "go") =
      some (.error .mixedTools, session', 2) ∧
    ∀ next, ¬ WellFormed (session' ++ [inputToUserMessage next]) none := by
  obtain ⟨session', hstep⟩ : ∃ session', caller.step 1 2 [] (.prompt "go") =
    some (.error .mixedTools, session', 2) := ⟨_, rfl⟩
  exact ⟨session', hstep, (step_failed hstep).2.2 rfl⟩

/-- Sent again, its input has its provider asked about calls without results. -/
theorem failed_step_retried : ∃ session', caller.step 1 2 [] (.prompt "go") =
      some (.error .mixedTools, session', 2) ∧ session' ≠ [] ∧ ∃ req res,
    (caller.traced.turns 1
        (.start (2, []) (session' ++ [inputToUserMessage (.prompt "go")]))).world.2 =
      [.asked req res] ∧ WellFormed [] none ∧ ¬ WellFormed req.messages none := by
  refine ⟨_, rfl, List.cons_ne_nil _ _, _, _, rfl, wellFormed_nil, fun h => ?_⟩
  obtain ⟨-, hanswered, -⟩ := wellFormed_concat.1 h
  have hcalls : ([] : List (Option String)) = [some "toolu_3", some "toolu_4"] :=
    hanswered (List.cons_ne_nil (some "toolu_3") _)
  cases hcalls

end AgentLoop

end Flodex
