import Flodex.Agent.Loop

/-!
# The provider for a local model

The agent loop keeps its history in blocks of the Anthropic shape. A local model is served with
chat completions of the OpenAI shape, so its provider translates the history on the way out
(`messagesAnthropicToOai`) and the completion on the way back (`responseOaiToAnthropic`).

`pushMessage_eq` says what the translation makes of one message: an assistant's message becomes one
message, and a user's the results of its tools and then its text.
-/

namespace Flodex.LocalLlm

/-- The serializer and the parser of JSON texts: `serde_json::to_string`, the `Display` of a value,
and `serde_json::from_str`. -/
structure SerdeJson where
  toString : Value → Option String
  display : Value → String
  fromStr : String → Except String Value

/-- A serializer and a parser for the empty object. -/
def SerdeJson.emptyObject : SerdeJson where
  toString _ := some "\x7b\x7d"
  display _ := "\x7b\x7d"
  fromStr _ := .ok (.object [])

/-! ## The history -/

/-- The role of a message. -/
def role (msg : Value) : String := (msg.getStr "role").getD ""

/-- The blocks of a message. -/
def content (msg : Value) : List Value := (msg.getArray "content").getD []

def blockType (block : Value) : String := (block.getStr "type").getD ""

section Serde

variable (serde : SerdeJson)

def toolResultContentToString (block : Value) : String :=
  match block.get "content" with
  | some (.string s) => s
  | some v => serde.display v
  | none => ""

/-- The message for a result of a tool. -/
def toolMessage (block : Value) : Value :=
  .object [("content", .string (toolResultContentToString serde block)), ("role", .string "tool"),
    ("tool_call_id", .string ((block.getStr "tool_use_id").getD ""))]

/-- The call of a tool in the message of an assistant. -/
def toolCall (block : Value) : Value :=
  let input := (block.get "input").getD .null
  let arguments := (serde.toString input).getD "\x7b\x7d"
  .object [("function", .object [("arguments", .string arguments),
      ("name", .string ((block.getStr "name").getD ""))]),
    ("id", .string ((block.getStr "id").getD "")), ("type", .string "function")]

/-- One block of a user: the messages so far and the texts so far. -/
def userBlock (st : List Value × List String) (block : Value) : List Value × List String :=
  if blockType block = "text" then
    match block.getStr "text" with
    | some t => (st.1, st.2 ++ [t])
    | none => st
  else if blockType block = "tool_result" then (st.1 ++ [toolMessage serde block], st.2)
  else st

/-- One block of an assistant: the texts so far and the calls so far. -/
def assistantBlock (st : List String × List Value) (block : Value) : List String × List Value :=
  if blockType block = "text" then
    match block.getStr "text" with
    | some t => (st.1 ++ [t], st.2)
    | none => st
  else if blockType block = "tool_use" then (st.1, st.2 ++ [toolCall serde block])
  -- thinking has no counterpart
  else st

/-- One message of the history. -/
def pushMessage (out : List Value) (msg : Value) : List Value :=
  if role msg = "user" then
    let (out, textParts) := (content msg).foldl (userBlock serde) (out, [])
    if textParts.isEmpty then out
    else out ++ [.object [("content", .string ("\n".intercalate textParts)),
      ("role", .string "user")]]
  else if role msg = "assistant" then
    let (textParts, toolCalls) := (content msg).foldl (assistantBlock serde) ([], [])
    let contentVal := if textParts.isEmpty then .null else .string ("\n".intercalate textParts)
    let msg := .object [("content", contentVal), ("role", .string "assistant")]
    let msg := if toolCalls.isEmpty then msg else msg.set "tool_calls" (.array toolCalls)
    out ++ [msg]
  else out

def systemMessage (system : String) : Value :=
  .object [("content", .string system), ("role", .string "system")]

def messagesAnthropicToOai (system : String) (messages : List Value) : List Value :=
  messages.foldl (pushMessage serde) [systemMessage system]

/-! ### What a message becomes -/

/-- The calls of tools in a message. -/
def toolUses (msg : Value) : List Value := (content msg).filter fun b => blockType b = "tool_use"

/-- The results of tools in a message. -/
def toolResults (msg : Value) : List Value :=
  (content msg).filter fun b => blockType b = "tool_result"

/-- The texts in a message. -/
def texts (msg : Value) : List String :=
  ((content msg).filter fun b => blockType b = "text").filterMap (Value.getStr "text")

/-- The message for the texts of a user. -/
def userMessage (texts : List String) : Value :=
  .object [("content", .string ("\n".intercalate texts)), ("role", .string "user")]

/-- The message for the texts and the calls of an assistant. -/
def assistantMessage (texts : List String) (calls : List Value) : Value :=
  let text := if texts = [] then .null else .string ("\n".intercalate texts)
  .object ([("content", text), ("role", .string "assistant")] ++
    if calls = [] then [] else [("tool_calls", .array calls)])

/-- The calls in a message for the model. -/
def toolCalls (m : Value) : List Value := (m.getArray "tool_calls").getD []

/-- The name or the arguments of a call. -/
def functionStr (key : String) (call : Value) : Option String :=
  (call.get "function").bind (Value.getStr key)

/-- The messages for a message of the history. -/
def translate (msg : Value) : List Value :=
  if role msg = "user" then (toolResults msg).map (toolMessage serde) ++
    if texts msg = [] then [] else [userMessage (texts msg)]
  else if role msg = "assistant" then
    [assistantMessage (texts msg) ((toolUses msg).map (toolCall serde))]
  else []

section Fields

variable {serde} {msg : Value}

theorem getStr_toolMessage (b : Value) :
    role (toolMessage serde b) = "tool" ∧
    (toolMessage serde b).getStr "tool_call_id" = some ((b.getStr "tool_use_id").getD "") ∧
    (toolMessage serde b).getStr "content" = some (toolResultContentToString serde b) :=
  ⟨rfl, rfl, rfl⟩

theorem getStr_toolCall (b : Value) :
    (toolCall serde b).getStr "id" = some ((b.getStr "id").getD "") ∧
    functionStr "name" (toolCall serde b) = some ((b.getStr "name").getD "") ∧
    functionStr "arguments" (toolCall serde b) =
      some ((serde.toString ((b.get "input").getD .null)).getD "\x7b\x7d") :=
  ⟨rfl, rfl, rfl⟩

theorem assistantMessage_spec (ts : List String) (calls : List Value) :
    role (assistantMessage ts calls) = "assistant" ∧
    toolCalls (assistantMessage ts calls) = calls ∧
    (assistantMessage ts calls).get "content" =
      some (if ts = [] then .null else .string ("\n".intercalate ts)) := by
  by_cases hcalls : calls = []
  · subst hcalls
    exact ⟨rfl, rfl, rfl⟩
  · simp only [assistantMessage, if_neg hcalls]
    exact ⟨rfl, rfl, rfl⟩

theorem userMessage_spec (ts : List String) :
    role (userMessage ts) = "user" ∧ toolCalls (userMessage ts) = [] ∧
    (userMessage ts).get "content" = some (.string ("\n".intercalate ts)) := ⟨rfl, rfl, rfl⟩

theorem translate_user (h : role msg = "user") : translate serde msg =
    (toolResults msg).map (toolMessage serde) ++
      if texts msg = [] then [] else [userMessage (texts msg)] := if_pos h

theorem translate_assistant (h : role msg = "assistant") : translate serde msg =
    [assistantMessage (texts msg) ((toolUses msg).map (toolCall serde))] := by
  rw [translate, if_neg (by rw [h]; decide), if_pos h]

theorem translate_other (huser : role msg ≠ "user") (hassistant : role msg ≠ "assistant") :
    translate serde msg = [] := by
  rw [translate, if_neg huser, if_neg hassistant]

end Fields

theorem foldl_userBlock (blocks : List Value) (out : List Value) (ts : List String) :
    blocks.foldl (userBlock serde) (out, ts) =
      (out ++ (blocks.filter fun b => blockType b = "tool_result").map (toolMessage serde),
        ts ++ (blocks.filter fun b => blockType b = "text").filterMap (Value.getStr "text")) := by
  induction blocks generalizing out ts with
  | nil => simp
  | cons b blocks ih =>
    rw [List.foldl_cons]
    by_cases htext : blockType b = "text"
    · cases ht : b.getStr "text" with
      | none =>
        rw [show userBlock serde (out, ts) b = (out, ts) by simp [userBlock, htext, ht], ih]
        simp [htext, ht]
      | some t =>
        rw [show userBlock serde (out, ts) b = (out, ts ++ [t]) by
          simp [userBlock, htext, ht], ih]
        simp [htext, ht]
    · by_cases hresult : blockType b = "tool_result"
      · rw [show userBlock serde (out, ts) b = (out ++ [toolMessage serde b], ts) by
          simp [userBlock, hresult], ih]
        simp [hresult]
      · rw [show userBlock serde (out, ts) b = (out, ts) by
          simp [userBlock, htext, hresult], ih]
        simp [htext, hresult]

theorem foldl_assistantBlock (blocks : List Value) (ts : List String) (calls : List Value) :
    blocks.foldl (assistantBlock serde) (ts, calls) =
      (ts ++ (blocks.filter fun b => blockType b = "text").filterMap (Value.getStr "text"),
        calls ++ (blocks.filter fun b => blockType b = "tool_use").map (toolCall serde)) := by
  induction blocks generalizing ts calls with
  | nil => simp
  | cons b blocks ih =>
    rw [List.foldl_cons]
    by_cases htext : blockType b = "text"
    · cases ht : b.getStr "text" with
      | none =>
        rw [show assistantBlock serde (ts, calls) b = (ts, calls) by
          simp [assistantBlock, htext, ht], ih]
        simp [htext, ht]
      | some t =>
        rw [show assistantBlock serde (ts, calls) b = (ts ++ [t], calls) by
          simp [assistantBlock, htext, ht], ih]
        simp [htext, ht]
    · by_cases huse : blockType b = "tool_use"
      · rw [show assistantBlock serde (ts, calls) b = (ts, calls ++ [toolCall serde b]) by
          simp [assistantBlock, huse], ih]
        simp [huse]
      · rw [show assistantBlock serde (ts, calls) b = (ts, calls) by
          simp [assistantBlock, htext, huse], ih]
        simp [htext, huse]

theorem set_toolCalls (text v : Value) :
    (Value.object [("content", text), ("role", .string "assistant")]).set "tool_calls" v =
      .object [("content", text), ("role", .string "assistant"), ("tool_calls", v)] := by
  have hcontent : ¬ "tool_calls" < "content" ∧ "tool_calls" ≠ "content" := by decide
  have hrole : ¬ "tool_calls" < "role" ∧ "tool_calls" ≠ "role" := by decide
  simp only [Value.set, Value.insertField, hcontent, hrole, if_false]

theorem foldl_content_user (out : List Value) (msg : Value) :
    (content msg).foldl (userBlock serde) (out, []) =
      (out ++ (toolResults msg).map (toolMessage serde), texts msg) := by
  rw [foldl_userBlock, List.nil_append]
  rfl

theorem foldl_content_assistant (msg : Value) :
    (content msg).foldl (assistantBlock serde) ([], []) =
      (texts msg, (toolUses msg).map (toolCall serde)) := by
  rw [foldl_assistantBlock, List.nil_append, List.nil_append]
  rfl

/-- **What a message becomes.** -/
theorem pushMessage_eq (out : List Value) (msg : Value) :
    pushMessage serde out msg = out ++ translate serde msg := by
  unfold pushMessage translate
  by_cases huser : role msg = "user"
  · rw [if_pos huser, if_pos huser, foldl_content_user]
    simp only [List.isEmpty_iff]
    by_cases htexts : texts msg = []
    · rw [if_pos htexts, if_pos htexts, List.append_nil]
    · rw [if_neg htexts, if_neg htexts, List.append_assoc, userMessage]
  · rw [if_neg huser, if_neg huser]
    by_cases hassistant : role msg = "assistant"
    · rw [if_pos hassistant, if_pos hassistant, foldl_content_assistant, assistantMessage]
      simp only [List.isEmpty_iff, set_toolCalls]
      by_cases hcalls : (toolUses msg).map (toolCall serde) = []
      · rw [if_pos hcalls, if_pos hcalls, List.append_nil]
      · rw [if_neg hcalls, if_neg hcalls]
        rfl
    · rw [if_neg hassistant, if_neg hassistant, List.append_nil]

/-- **The translation**: the prompt, and what each message becomes. -/
theorem messagesAnthropicToOai_eq (system : String) (messages : List Value) :
    messagesAnthropicToOai serde system messages =
      systemMessage system :: messages.flatMap (translate serde) := by
  rw [messagesAnthropicToOai]
  have key : ∀ out, messages.foldl (pushMessage serde) out =
      out ++ messages.flatMap (translate serde) := by
    intro out
    induction messages generalizing out with
    | nil => simp
    | cons msg messages ih => rw [List.foldl_cons, pushMessage_eq, ih, List.flatMap_cons,
        List.append_assoc]
  exact key _

end Serde

def toolAnthropicToOai (tool : Value) : Value :=
  .object [("function", .object [("description", (tool.get "description").getD .null),
      ("name", (tool.get "name").getD .null),
      ("parameters", (tool.get "input_schema").getD (.object [("type", .string "object")]))]),
    ("type", .string "function")]

/-! ## The completion -/

/-- The block for a call of a tool. -/
def toolUseBlock (serde : SerdeJson) (call : Value) : Value :=
  let id := (call.getStr "id").getD ""
  let name := (functionStr "name" call).getD ""
  let argumentsStr := (functionStr "arguments" call).getD "\x7b\x7d"
  let input := (serde.fromStr argumentsStr).toOption.getD .null
  .object [("id", .string id), ("input", input), ("name", .string name),
    ("type", .string "tool_use")]

def textBlock (text : String) : Value := .object [("text", .string text), ("type", .string "text")]

/-- `stop_reason` for a `finish_reason`. -/
def stopReason (finishReason : String) : String :=
  if finishReason = "stop" then "end_turn"
  else if finishReason = "tool_calls" then "tool_use"
  else if finishReason = "length" then "max_tokens"
  else finishReason

/-- A count of the usage, truncated to 32 bits. -/
def tokens (usage : Option Value) (key : String) : UInt32 :=
  .ofNat ((usage.bind fun u => (u.get key).bind Value.asU64).getD 0)

/-- The block for the text of a message. -/
def textBlocks (message : Value) : List Value :=
  match message.getStr "content" with
  | some text => if text = "" then [] else [textBlock text]
  | none => []

def responseOaiToAnthropic (serde : SerdeJson) (body : Value) : Except String ChatResult := do
  let choice ← orThrow ((body.getArray "choices").bind List.head?) "response missing choices[0]"
  let message ← orThrow (choice.get "message") "choice missing message"
  let finishReason := (choice.getStr "finish_reason").getD "stop"
  let content := textBlocks message ++ (toolCalls message).map (toolUseBlock serde)
  let usage := body.get "usage"
  pure ⟨content, stopReason finishReason,
    ⟨tokens usage "prompt_tokens", tokens usage "completion_tokens", none, none⟩⟩

/-- **A completion that is accepted** has a first choice with a message, whose text and calls become
the blocks of the result. -/
theorem responseOaiToAnthropic_eq_ok {serde : SerdeJson} {body : Value} {r : ChatResult} :
    responseOaiToAnthropic serde body = .ok r ↔ ∃ choice m,
      (body.getArray "choices").bind List.head? = some choice ∧ choice.get "message" = some m ∧
      ⟨textBlocks m ++ (toolCalls m).map (toolUseBlock serde),
        stopReason ((choice.getStr "finish_reason").getD "stop"),
        ⟨tokens (body.get "usage") "prompt_tokens", tokens (body.get "usage") "completion_tokens",
          none, none⟩⟩ = r := by
  simp only [responseOaiToAnthropic, bind_eq_ok, orThrow_eq_ok, pure_eq_ok]
  constructor
  · rintro ⟨choice, hchoice, m, hm, hr⟩
    exact ⟨choice, m, hchoice, hm, hr⟩
  · rintro ⟨choice, m, hchoice, hm, hr⟩
    exact ⟨choice, hchoice, m, hm, hr⟩

theorem blockType_toolUseBlock (serde : SerdeJson) (call : Value) :
    blockType (toolUseBlock serde call) = "tool_use" := rfl

theorem blockType_of_textBlocks {m b : Value} (hb : b ∈ textBlocks m) : blockType b = "text" := by
  unfold textBlocks at hb
  split at hb
  · split_ifs at hb
    · simp at hb
    · obtain rfl := List.mem_singleton.1 hb
      rfl
  · simp at hb

/-- A completion with a finish reason and calls. -/
def completionOf (finish : String) (calls : List Value) : Value :=
  .object [("choices", .array [.object [("finish_reason", .string finish),
    ("message", .object [("content", .string "ok"), ("role", .string "assistant"),
      ("tool_calls", .array calls)])]])]

/-- A call without arguments. -/
def currentTime : Value :=
  .object [("function", .object [("arguments", .string "\x7b\x7d"),
    ("name", .string "current_time")]), ("id", .string "call_1"), ("type", .string "function")]

/-! ## The provider -/

structure OpenAiProvider where
  baseUrl : String
  model : String

/-- What the server answers: the text of its status, whether that is a success, and its body, which
reading can fail. -/
structure HttpResponse where
  status : String
  isSuccess : Bool
  body : Except String String

namespace OpenAiProvider

variable {W : Type*} (self : OpenAiProvider) (serde : SerdeJson)

def requestBody (req : ChatRequest) : Value :=
  .object [("max_tokens", .number (.posInt req.maxTokens.toNat)),
    ("messages", .array (messagesAnthropicToOai serde req.system req.messages)),
    ("model", .string self.model), ("stream", .bool false), ("tool_choice", .string "auto"),
    ("tools", .array (req.tools.map toolAnthropicToOai))]

/-- `complete`, for a server that is reached with `post`. -/
def complete (post : W → String → Value → Except String HttpResponse × W) (w : W)
    (req : ChatRequest) : Except String ChatResult × W :=
  let url := self.baseUrl ++ "/v1/chat/completions"
  let (answer, w) := post w url (self.requestBody serde req)
  let result := do
    let res ← answer.mapError fun e => "POST " ++ url ++ ": " ++ e
    let bodyText ← res.body.mapError fun e => "reading response body: " ++ e
    require (res.isSuccess = true) ("llama-server " ++ res.status ++ ": " ++ bodyText)
    let body ← (serde.fromStr bodyText).mapError fun e =>
      "parse response: " ++ e ++ "; body: " ++ bodyText
    responseOaiToAnthropic serde body
  (result, w)

end OpenAiProvider

end Flodex.LocalLlm
