import Flodex.Protocol.Wire

/-!
# The agent loop

`AgentLoop.step` drives a chat provider: it appends the user's message to the session, and asks
the provider until it ends its turn, hands a tool call to the client, or fails. Calls of the
node's own tools are executed and answered inside the loop.

The provider and the tools act in a world `W`, which each of their calls may read and change. The
loop has no bound of its own, so it is run with fuel: `none` means that it has not returned yet.

`AgentLoop.logged` is the same agent with a record of the usages its provider reported;
`logged_steps` erases the record, and `usage_logged` says that the outcome carries its sum.
-/

namespace Flodex

variable {W : Type*}

/-! ## Providers and tools -/

structure ChatRequest where
  system : String
  messages : List Value
  tools : List Value
  maxTokens : UInt32

structure ChatResult where
  content : List Value
  stopReason : String
  usage : Usage

structure ToolDef where
  name : String
  description : String
  inputSchema : Value

def ToolDef.toApiValue (d : ToolDef) : Value :=
  .object [("description", .string d.description), ("input_schema", d.inputSchema),
    ("name", .string d.name)]

/-- A tool that the node executes, or one that the client does. -/
inductive Tool (W : Type*)
  | node (toolDef : ToolDef) (execute : W → Value → Except String String × W)
  | client (toolDef : ToolDef)

def Tool.toolDef : Tool W → ToolDef
  | .node d _ => d
  | .client d => d

/-- Whether the client executes the tool. -/
def Tool.isClient : Tool W → Bool
  | .node .. => false
  | .client _ => true

/-- The agent: its provider, its prompt, and its tools in the order of the registry, by name. -/
structure AgentLoop (W : Type*) where
  provider : W → ChatRequest → Except String ChatResult × W
  maxTokens : UInt32
  systemPrompt : String
  registry : List (Tool W)

inductive AgentStepInput
  | prompt (text : String)
  | toolResult (toolUseId content : String) (isError : Bool)

inductive AgentStepOutcome
  | final (content : String) (usage : Usage)
  | needsClientTool (toolUseId name : String) (input : Value) (usage : Usage)

/-- Why a step fails. -/
inductive AgentError
  | provider (e : String)
  | noToolUse
  | mixedTools
  | unexpectedStopReason (other : String)

def AgentStepOutcome.usage : AgentStepOutcome → Usage
  | .final _ usage => usage
  | .needsClientTool _ _ _ usage => usage

def AgentStepInput.ofStep : AgentStep → AgentStepInput
  | .prompt text => .prompt text
  | .toolResult toolUseId content isError => .toolResult toolUseId content isError

def AgentStepOutcome.toResponse : AgentStepOutcome → AgentResponse
  | .final content usage => .final content usage
  | .needsClientTool toolUseId name input usage => .toolCall toolUseId name input usage

@[simp] theorem AgentStepOutcome.usage_toResponse (o : AgentStepOutcome) :
    o.toResponse.usage = o.usage := by
  cases o <;> rfl

/-! ## Messages -/

def toolResultBlock (toolUseId content : String) (isError : Bool) : Value :=
  let block := .object [("content", .string content), ("tool_use_id", .string toolUseId),
    ("type", .string "tool_result")]
  if isError then block.set "is_error" (.bool true) else block

/-- A message of a role. -/
def message (role : String) (content : List Value) : Value :=
  .object [("content", .array content), ("role", .string role)]

def inputToUserMessage : AgentStepInput → Value
  | .prompt text => message "user" [.object [("text", .string text), ("type", .string "text")]]
  | .toolResult toolUseId content isError =>
    message "user" [toolResultBlock toolUseId content isError]

/-- A call of a tool in a response. -/
structure ToolUse where
  id : String
  name : String
  input : Value

def collectToolUses (content : List Value) : List ToolUse :=
  (content.filter fun b => b.getStr "type" = some "tool_use").filterMap fun b => do
    let id ← b.getStr "id"
    let name ← b.getStr "name"
    pure ⟨id, name, (b.get "input").getD .null⟩

def extractText (content : List Value) : String :=
  "\n".intercalate (content.filterMap fun b =>
    if b.getStr "type" = some "text" then b.getStr "text" else none)

namespace AgentLoop

variable (agent : AgentLoop W)

/-! ## The loop -/

def find (name : String) : Option (Tool W) :=
  agent.registry.find? fun t => t.toolDef.name = name

/-- Whether a call is one of a client's tool. -/
def callsClient (u : ToolUse) : Bool := ((agent.find u.name).map Tool.isClient).getD false

/-- Execute a call of a node's tool, or of a tool nobody has. -/
def runTool (w : W) (u : ToolUse) : Value × W :=
  match agent.find u.name with
  | some (.node _ execute) =>
    match execute w u.input with
    | (.ok s, w) => (toolResultBlock u.id s false, w)
    | (.error e, w) => (toolResultBlock u.id ("tool error: " ++ e) true, w)
  -- a client's tool does not get here
  | _ => (toolResultBlock u.id ("unknown tool `" ++ u.name ++ "`") true, w)

/-- Execute calls in order. -/
def runTools (w : W) : List ToolUse → List Value × W
  | [] => ([], w)
  | u :: us =>
    let (block, w) := agent.runTool w u
    let (blocks, w) := runTools w us
    (block :: blocks, w)

/-- What one turn of the loop leaves: the world, the session, the usage so far, and the result
unless the loop goes on. -/
structure Turn (W : Type*) where
  world : W
  messages : List Value
  totalUsage : Usage
  exit : Option (Except AgentError AgentStepOutcome)

/-- The end of a turn with the response of the provider. -/
def respond (w : W) (messages : List Value) (totalUsage : Usage) (resp : ChatResult) : Turn W :=
  let totalUsage := totalUsage.add resp.usage
  let messages := messages ++ [message "assistant" resp.content]
  let stop := fun r => ⟨w, messages, totalUsage, some r⟩
  if resp.stopReason = "end_turn" then stop (.ok (.final (extractText resp.content) totalUsage))
  else if resp.stopReason = "tool_use" then
    let toolUses := collectToolUses resp.content
    let hasNode := toolUses.any fun u => !agent.callsClient u
    let clientCount := toolUses.countP agent.callsClient
    if toolUses.isEmpty then stop (.error .noToolUse)
    else if 0 < clientCount ∧ (hasNode ∨ 1 < clientCount) then stop (.error .mixedTools)
    else
      -- by the guard above, a client's call is the only call
      match toolUses.find? agent.callsClient with
      | some u => stop (.ok (.needsClientTool u.id u.name u.input totalUsage))
      | none =>
        let (blocks, w) := agent.runTools w toolUses
        ⟨w, messages ++ [message "user" blocks], totalUsage, none⟩
  else if resp.stopReason = "pause_turn" then ⟨w, messages, totalUsage, none⟩
  else stop (.error (.unexpectedStopReason resp.stopReason))

/-- The request of a turn. -/
def request (messages : List Value) : ChatRequest :=
  ⟨agent.systemPrompt, messages, agent.registry.map fun t => t.toolDef.toApiValue, agent.maxTokens⟩

/-- One turn of the loop. -/
def turn (w : W) (messages : List Value) (totalUsage : Usage) : Turn W :=
  match agent.provider w (agent.request messages) with
  | (.error e, w) => ⟨w, messages, totalUsage, some (.error (.provider e))⟩
  | (.ok resp, w) => agent.respond w messages totalUsage resp

/-- At most `fuel` turns of the loop: the result, the session and the world, once it returns. -/
def steps : ℕ → W → List Value → Usage →
    Option (Except AgentError AgentStepOutcome × List Value × W)
  | 0, _, _, _ => none
  | fuel + 1, w, messages, totalUsage =>
    let t := agent.turn w messages totalUsage
    match t.exit with
    | some r => some (r, t.messages, t.world)
    | none => steps fuel t.world t.messages t.totalUsage

/-- A step of a session. -/
def step (fuel : ℕ) (w : W) (session : List Value) (input : AgentStepInput) :
    Option (Except AgentError AgentStepOutcome × List Value × W) :=
  agent.steps fuel w (session ++ [inputToUserMessage input]) .zero

end AgentLoop

/-- The tools of an agent in another world, with the definitions they have, and the requests that
go with them. -/
structure AgentLoop.Wraps {V : Type*} (f : Tool W → Tool V) (agent : AgentLoop W)
    (agent' : AgentLoop V) : Prop where
  maxTokens : agent'.maxTokens = agent.maxTokens
  systemPrompt : agent'.systemPrompt = agent.systemPrompt
  registry : agent'.registry = agent.registry.map f
  toolDef : ∀ t, (f t).toolDef = t.toolDef
  isClient : ∀ t, (f t).isClient = t.isClient

namespace AgentLoop.Wraps

variable {V : Type*} {f : Tool W → Tool V} {agent : AgentLoop W} {agent' : AgentLoop V}

theorem find (h : Wraps f agent agent') (name : String) :
    agent'.find name = (agent.find name).map f := by
  simp only [AgentLoop.find, h.registry, List.find?_map]
  congr 2
  funext t
  simp [h.toolDef]

theorem callsClient (h : Wraps f agent agent') : agent'.callsClient = agent.callsClient := by
  funext u
  simp only [AgentLoop.callsClient, h.find, Option.map_map]
  congr 2
  funext t
  exact h.isClient t

theorem request (h : Wraps f agent agent') (messages : List Value) :
    agent'.request messages = agent.request messages := by
  simp [AgentLoop.request, h.maxTokens, h.systemPrompt, h.registry, h.toolDef]

end AgentLoop.Wraps

/-! ## The usage record -/

/-- The tool in a world with a record, which it does not touch. -/
def Tool.logged {L : Type*} : Tool W → Tool (W × L)
  | .node d execute => .node d fun w v =>
    let (r, w') := execute w.1 v
    (r, (w', w.2))
  | .client d => .client d

namespace AgentLoop

variable (agent : AgentLoop W)

/-- The agent that records the usages its provider reports. -/
def logged : AgentLoop (W × List Usage) where
  provider w req :=
    match agent.provider w.1 req with
    | (.ok resp, w') => (.ok resp, (w', w.2 ++ [resp.usage]))
    | (.error e, w') => (.error e, (w', w.2))
  maxTokens := agent.maxTokens
  systemPrompt := agent.systemPrompt
  registry := agent.registry.map Tool.logged

/-- The turn without the record. -/
def Turn.erase {L : Type*} (t : Turn (W × L)) : Turn W :=
  ⟨t.world.1, t.messages, t.totalUsage, t.exit⟩

theorem wraps_logged : Wraps Tool.logged agent agent.logged where
  maxTokens := rfl
  systemPrompt := rfl
  registry := rfl
  toolDef t := by cases t <;> rfl
  isClient t := by cases t <;> rfl

theorem runTool_logged (w : W) (log : List Usage) (u : ToolUse) :
    agent.logged.runTool (w, log) u = ((agent.runTool w u).1, ((agent.runTool w u).2, log)) := by
  simp only [runTool, agent.wraps_logged.find]
  cases agent.find u.name with
  | none => rfl
  | some t =>
    cases t with
    | client d => rfl
    | node d execute =>
      simp only [Option.map_some, Tool.logged]
      cases execute w u.input with
      | mk r w' => cases r <;> rfl

theorem runTools_logged (w : W) (log : List Usage) (us : List ToolUse) :
    agent.logged.runTools (w, log) us =
      ((agent.runTools w us).1, ((agent.runTools w us).2, log)) := by
  induction us generalizing w with
  | nil => rfl
  | cons u us ih => simp only [runTools, runTool_logged, ih]

theorem respond_logged (w : W) (log : List Usage) (messages : List Value) (u : Usage)
    (resp : ChatResult) : (agent.logged.respond (w, log) messages u resp).erase =
      agent.respond w messages u resp ∧
      (agent.logged.respond (w, log) messages u resp).world.2 = log := by
  unfold respond
  simp only [agent.wraps_logged.callsClient, runTools_logged]
  split_ifs
  · exact ⟨rfl, rfl⟩
  · exact ⟨rfl, rfl⟩
  · exact ⟨rfl, rfl⟩
  · cases (collectToolUses resp.content).find? agent.callsClient <;> exact ⟨rfl, rfl⟩
  · exact ⟨rfl, rfl⟩
  · exact ⟨rfl, rfl⟩

/-- The usage of a turn: it adds the one of its response, if it has one. -/
theorem totalUsage_respond (w : W) (messages : List Value) (u : Usage) (resp : ChatResult) :
    (agent.respond w messages u resp).totalUsage = u.add resp.usage ∧
      ∀ o, (agent.respond w messages u resp).exit = some (.ok o) → o.usage = u.add resp.usage := by
  unfold respond
  dsimp only
  split_ifs
  · exact ⟨rfl, by rintro o ⟨⟩; rfl⟩
  · exact ⟨rfl, nofun⟩
  · exact ⟨rfl, nofun⟩
  · split
    · exact ⟨rfl, by rintro o ⟨⟩; rfl⟩
    · exact ⟨rfl, nofun⟩
  · exact ⟨rfl, nofun⟩
  · exact ⟨rfl, nofun⟩

/-- A turn of the agent with the record is one of the agent, and the record grows by what the
turn adds to the usage. -/
theorem turn_logged (w : W) (log : List Usage) (messages : List Value) (u : Usage) :
    (agent.logged.turn (w, log) messages u).erase = agent.turn w messages u ∧
      ∃ us, (agent.logged.turn (w, log) messages u).world.2 = log ++ us ∧
        (agent.turn w messages u).totalUsage = us.foldl Usage.add u ∧
        ∀ o, (agent.turn w messages u).exit = some (.ok o) → o.usage = us.foldl Usage.add u := by
  simp only [turn, agent.wraps_logged.request]
  simp only [logged]
  cases agent.provider w (agent.request messages) with
  | mk r w' =>
    cases r with
    | error e => exact ⟨rfl, [], by simp, rfl, nofun⟩
    | ok resp =>
      obtain ⟨herase, hlog⟩ := agent.respond_logged w' (log ++ [resp.usage]) messages u resp
      obtain ⟨htotal, hexit⟩ := agent.totalUsage_respond w' messages u resp
      exact ⟨herase, [resp.usage], hlog, htotal, hexit⟩

/-- **The record does not change the agent.** -/
theorem logged_steps (fuel : ℕ) (w : W) (log : List Usage) (messages : List Value) (u : Usage) :
    (agent.logged.steps fuel (w, log) messages u).map (fun r => (r.1, r.2.1, r.2.2.1)) =
      agent.steps fuel w messages u := by
  induction fuel generalizing w log messages u with
  | zero => rfl
  | succ fuel ih =>
    obtain ⟨herase, -⟩ := agent.turn_logged w log messages u
    rw [steps, steps, ← herase]
    simp only [Turn.erase]
    generalize agent.logged.turn (w, log) messages u = t
    cases t.exit with
    | some r => rfl
    | none => exact ih t.world.1 t.world.2 t.messages t.totalUsage

/-- **The outcome carries the sum of the record.** -/
theorem usage_logged {fuel : ℕ} {w : W × List Usage} {messages messages' : List Value} {u : Usage}
    {o : AgentStepOutcome} {w' : W × List Usage}
    (h : agent.logged.steps fuel w messages u = some (.ok o, messages', w')) :
    ∃ us, w'.2 = w.2 ++ us ∧ o.usage = us.foldl Usage.add u := by
  induction fuel generalizing w messages u with
  | zero => simp [steps] at h
  | succ fuel ih =>
    obtain ⟨herase, us, hlog, htotal, hexit⟩ := agent.turn_logged w.1 w.2 messages u
    rw [← herase] at htotal hexit
    simp only [Turn.erase] at htotal hexit
    rw [steps] at h
    generalize agent.logged.turn w messages u = t at h hlog htotal hexit
    cases ht : t.exit with
    | some r =>
      simp only [ht, Option.some.injEq, Prod.mk.injEq] at h
      obtain ⟨rfl, -, rfl⟩ := h
      exact ⟨us, hlog, hexit o ht⟩
    | none =>
      simp only [ht] at h
      obtain ⟨vs, hvs, husage⟩ := ih h
      exact ⟨us ++ vs, by rw [hvs, hlog, List.append_assoc], by
        rw [husage, htotal, List.foldl_append]⟩

/-- The usages of the provider calls that a step makes, once it returns. -/
def calls (fuel : ℕ) (w : W) (session : List Value) (input : AgentStepInput) : List Usage :=
  match agent.logged.step fuel (w, []) session input with
  | some (_, _, w') => w'.2
  | none => []

theorem calls_of_none {fuel : ℕ} {w : W} {session : List Value} {input : AgentStepInput}
    (h : agent.step fuel w session input = none) : agent.calls fuel w session input = [] := by
  have hlogged := agent.logged_steps fuel w [] (session ++ [inputToUserMessage input]) .zero
  rw [show agent.steps fuel w (session ++ [inputToUserMessage input]) .zero = none from h,
    Option.map_eq_none_iff] at hlogged
  rw [calls, show agent.logged.step fuel (w, []) session input = none from hlogged]

/-- **A step that succeeds reports the sum of its calls.** -/
theorem usage_step {fuel : ℕ} {w w' : W} {session session' : List Value} {input : AgentStepInput}
    {o : AgentStepOutcome} (h : agent.step fuel w session input = some (.ok o, session', w')) :
    o.usage = (agent.calls fuel w session input).foldl Usage.add .zero := by
  have hlogged := agent.logged_steps fuel w [] (session ++ [inputToUserMessage input]) .zero
  rw [show agent.steps fuel w (session ++ [inputToUserMessage input]) .zero = _ from h,
    Option.map_eq_some_iff] at hlogged
  obtain ⟨⟨r, messages, w''⟩, hstep, hr⟩ := hlogged
  obtain ⟨rfl, -, -⟩ : r = .ok o ∧ messages = session' ∧ w''.1 = w' := by simpa using hr
  obtain ⟨us, hlog, husage⟩ := agent.usage_logged hstep
  rw [calls, show agent.logged.step fuel (w, []) session input = some (.ok o, messages, w'') from
    hstep]
  exact husage.trans (congrArg _ hlog.symm)

end AgentLoop

end Flodex
