import Flodex.Agent.History
import Flodex.LocalLlm.Pairing
import Flodex.LocalLlm.StopReason

/-!
# What a local model is sent

An agent with a local model posts its history, translated, with each request. `posts_paired` says
that over a whole session the server gets conversations whose calls are answered: if the completions
of the server stop for tools exactly when they call some, then so do the responses of the provider,
each step goes on from a history that is paired (`PairedUpTo`), and so is every history that it asks
about, also in a step that fails.
-/

namespace Flodex.LocalLlm

variable {W : Type*} {serde : SerdeJson} {history : List Value} {msg : Value}

/-! ## Messages of a session -/

theorem blockType_eq_iff {b : Value} {s : String} (hs : s ≠ "") :
    blockType b = s ↔ b.getStr "type" = some s := by
  unfold blockType
  cases h : b.getStr "type" with
  | none => simpa using Ne.symm hs
  | some t => simp

theorem toolUses_message (role : String) (blocks : List Value) :
    toolUses (message role blocks) = blocks.filter fun b => b.getStr "type" = some "tool_use" := by
  refine List.filter_congr fun b _ => ?_
  simp only [blockType_eq_iff (show "tool_use" ≠ "" by decide)]

theorem toolResults_message (role : String) (blocks : List Value) :
    toolResults (message role blocks) =
      blocks.filter fun b => b.getStr "type" = some "tool_result" := by
  refine List.filter_congr fun b _ => ?_
  simp only [blockType_eq_iff (show "tool_result" ≠ "" by decide)]

theorem useIds_assistant (blocks : List Value) :
    useIds (message "assistant" blocks) = toolUseIds (message "assistant" blocks) := by
  rw [useIds, toolUses_message, toolUseIds_assistant]

theorem resultIds_user (blocks : List Value) :
    resultIds (message "user" blocks) = toolResultIds (message "user" blocks) := by
  rw [resultIds, toolResults_message, toolResultIds, blocksOf_message, if_pos rfl]

/-- The results of tools, and the texts, that a session is sent are no calls. -/
theorem toolUses_input (input : AgentStepInput) : toolUses (inputToUserMessage input) = [] := by
  cases input with
  | prompt text => rfl
  | toolResult id content isError =>
    have htype := (getStr_toolResultBlock id content isError).1
    rw [inputToUserMessage, toolUses_message]
    simp [htype]

theorem toolUses_answers (runs : List AgentLoop.ToolRun) :
    toolUses (message "user" (runs.map AgentLoop.ToolRun.answer)) = [] := by
  rw [toolUses_message, List.filter_eq_nil_iff]
  intro b hb
  obtain ⟨r, -, rfl⟩ := List.mem_map.1 hb
  obtain ⟨content, isError, hr⟩ := r.exists_answer
  rw [hr, (getStr_toolResultBlock r.1.id content isError).1]
  decide

/-! ## Histories that are paired up to their last message -/

/-- The calls in the message are an assistant's, with ids and names. -/
def Signed (msg : Value) : Prop :=
  (toolUses msg ≠ [] → role msg = "assistant") ∧
    ∀ b ∈ toolUses msg, (b.getStr "id").isSome ∧ (b.getStr "name").isSome

/-- The history is paired, but for the calls of its last message, which are pending. -/
structure PairedUpTo (history : List Value) (pending : List (Option String)) : Prop where
  signed : ∀ msg ∈ history, Signed msg
  answered : history.IsChain fun msg reply =>
    resultIds reply = useIds msg ∧ (toolUses msg ≠ [] → role reply = "user")
  first : ∀ msg ∈ history.head?, toolResults msg = []
  last : (history.getLast?.map useIds).getD [] = pending

variable {pending : List (Option String)}

theorem pairedUpTo_nil : PairedUpTo [] [] := ⟨by simp, .nil, by simp, rfl⟩

theorem signed_of_toolUses (h : toolUses msg = []) : Signed msg :=
  ⟨fun hne => absurd h hne, by simp [h]⟩

theorem toolUses_eq_nil_iff : toolUses msg = [] ↔ useIds msg = [] := List.map_eq_nil_iff.symm

theorem PairedUpTo.paired (h : PairedUpTo history []) : Paired history where
  assistant msg hmsg := (h.signed msg hmsg).1
  named msg hmsg := (h.signed msg hmsg).2
  answered := h.answered
  first := h.first
  last msg hmsg := by
    have hlast := h.last
    rw [Option.mem_def.1 hmsg] at hlast
    exact toolUses_eq_nil_iff.2 hlast

/-- A message with the results of the calls that are pending, whose own calls are pending then. -/
theorem PairedUpTo.concat (h : PairedUpTo history pending) (hsigned : Signed msg)
    (hresults : resultIds msg = pending) (huser : pending ≠ [] → role msg = "user") :
    PairedUpTo (history ++ [msg]) (useIds msg) where
  signed := by
    intro msg' hmsg'
    rcases List.mem_append.1 hmsg' with hmsg' | hmsg'
    · exact h.signed msg' hmsg'
    · obtain rfl := List.mem_singleton.1 hmsg'
      exact hsigned
  answered := by
    refine h.answered.append (.singleton msg) ?_
    rintro before hbefore reply hreply
    obtain rfl : msg = reply := by simpa using hreply
    have hlast := h.last
    rw [Option.mem_def.1 hbefore] at hlast
    have hlast : useIds before = pending := hlast
    refine ⟨hresults.trans hlast.symm, fun hcalls => huser ?_⟩
    rw [← hlast]
    exact mt toolUses_eq_nil_iff.2 hcalls
  first := by
    intro msg' hmsg'
    cases history with
    | nil =>
      obtain rfl : msg = msg' := by simpa using hmsg'
      have hnone : [] = pending := h.last
      exact eq_nil_of_resultIds (hresults.trans hnone.symm)
    | cons first rest => exact h.first msg' hmsg'
  last := by simp

/-- The input that a session waits for. -/
theorem PairedUpTo.input {call : Option String} {input : AgentStepInput}
    (h : PairedUpTo history (call.toList.map some)) (hfits : Fits call input) :
    PairedUpTo (history ++ [inputToUserMessage input]) [] := by
  have hnone := toolUses_input input
  have hresults : resultIds (inputToUserMessage input) = call.toList.map some := by
    cases call with
    | none =>
      cases input with
      | prompt text => rfl
      | toolResult id content isError => exact hfits.elim
    | some id =>
      cases input with
      | prompt text => exact hfits.elim
      | toolResult id' content isError =>
        obtain rfl : id' = id := hfits
        exact (resultIds_user _).trans (toolResultIds_toolResult id' content isError)
  have huser : role (inputToUserMessage input) = "user" := by cases input <;> rfl
  have hconcat := h.concat (signed_of_toolUses hnone) hresults fun _ => huser
  rwa [toolUses_eq_nil_iff.1 hnone] at hconcat

/-- The answers to the calls that are pending. -/
theorem PairedUpTo.answers {runs : List AgentLoop.ToolRun}
    (h : PairedUpTo history (runs.map fun r => some r.1.id)) :
    PairedUpTo (history ++ [message "user" (runs.map AgentLoop.ToolRun.answer)]) [] := by
  have hnone := toolUses_answers runs
  have hresults := (resultIds_user _).trans (AgentLoop.toolResultIds_answers runs)
  have hconcat := h.concat (signed_of_toolUses hnone) hresults fun _ => rfl
  rwa [toolUses_eq_nil_iff.1 hnone] at hconcat

/-! ## The provider -/

namespace OpenAiProvider

variable {self : OpenAiProvider} {post : W → String → Value → Except String HttpResponse × W}
  {w : W} {req : ChatRequest} {r : ChatResult}

/-- A request that succeeds was answered with a completion that is accepted. -/
theorem complete_eq_ok (h : (self.complete serde post w req).1 = .ok r) : ∃ res text completion,
    (post w (self.baseUrl ++ "/v1/chat/completions") (self.requestBody serde req)).1 = .ok res ∧
    res.body = .ok text ∧ serde.fromStr text = .ok completion ∧
    responseOaiToAnthropic serde completion = .ok r := by
  simp only [complete, bind_eq_ok, mapError_eq_ok] at h
  obtain ⟨res, hres, text, htext, -, -, completion, hcompletion, hr⟩ := h
  exact ⟨res, text, completion, hres, htext, hcompletion, hr⟩

theorem messages_requestBody (self : OpenAiProvider) (serde : SerdeJson) (req : ChatRequest) :
    (self.requestBody serde req).getArray "messages" =
      some (messagesAnthropicToOai serde req.system req.messages) := rfl

end OpenAiProvider

/-- An agent whose model is served at the URL of its provider: the completions that the server
answers with stop for tools exactly when they call some. -/
structure Serves (agent : AgentLoop W) (llama : OpenAiProvider) (serde : SerdeJson)
    (post : W → String → Value → Except String HttpResponse × W) : Prop where
  provider : agent.provider = llama.complete serde post
  agrees : ∀ w body res text completion,
    (post w (llama.baseUrl ++ "/v1/chat/completions") body).1 = .ok res → res.body = .ok text →
    serde.fromStr text = .ok completion →
    (stopReason (finishReason completion) = "tool_use" ↔ requestedCalls completion ≠ [])

namespace Serves

variable {agent : AgentLoop W} {llama : OpenAiProvider}
  {post : W → String → Value → Except String HttpResponse × W}

/-- What the provider of the agent answers with, from a completion whose fields agree. -/
theorem exists_completion (hserves : Serves agent llama serde post) {w : W} {req : ChatRequest}
    {resp : ChatResult} (h : (agent.provider w req).1 = .ok resp) : ∃ completion,
      responseOaiToAnthropic serde completion = .ok resp ∧
      (stopReason (finishReason completion) = "tool_use" ↔ requestedCalls completion ≠ []) := by
  rw [hserves.provider] at h
  obtain ⟨res, text, completion, hres, htext, hcompletion, hresp⟩ :=
    OpenAiProvider.complete_eq_ok h
  exact ⟨completion, hresp, hserves.agrees w _ res text completion hres htext hcompletion⟩

/-- A block of a response is a text or a call, with an id and a name. -/
theorem block_of_response {completion : Value} {resp : ChatResult}
    (h : responseOaiToAnthropic serde completion = .ok resp) {b : Value} (hb : b ∈ resp.content) :
    b.getStr "type" = some "text" ∨ ∃ call, b = toolUseBlock serde call := by
  obtain ⟨-, m, hcontent⟩ := response_spec h
  rw [hcontent] at hb
  rcases List.mem_append.1 hb with hb | hb
  · exact .inl ((blockType_eq_iff (by decide)).1 (blockType_of_textBlocks hb))
  · obtain ⟨call, -, rfl⟩ := List.mem_map.1 hb
    exact .inr ⟨call, rfl⟩

theorem regular (hserves : Serves agent llama serde post) : agent.Regular := by
  intro w req resp h
  obtain ⟨completion, hresp, hagrees⟩ := hserves.exists_completion h
  refine ⟨?_, ?_⟩
  · rw [(response_spec hresp).1, hagrees, ← exists_isCall hresp]
    simp only [IsCall, blockType_eq_iff (show "tool_use" ≠ "" by decide)]
  · intro b hb htype
    rcases block_of_response hresp hb with htext | ⟨call, rfl⟩
    · rw [htext] at htype
      exact absurd htype (by decide)
    · exact ⟨rfl, rfl⟩

/-- The message of a response has no results, and its calls have ids and names. -/
theorem response (hserves : Serves agent llama serde post) {messages : List Value}
    {resp : ChatResult} (answers : agent.Answers messages resp) :
    Signed (message "assistant" resp.content) ∧
      resultIds (message "assistant" resp.content) = [] := by
  obtain ⟨w, hw⟩ := answers
  obtain ⟨completion, hresp, -⟩ := hserves.exists_completion hw
  refine ⟨⟨fun _ => rfl, ?_⟩, ?_⟩
  · intro b hb
    rw [toolUses_message] at hb
    obtain ⟨hb, htype⟩ := List.mem_filter.1 hb
    exact (hserves.regular w _ resp hw).2 b hb (by simpa using htype)
  · rw [resultIds, toolResults_message, List.map_eq_nil_iff, List.filter_eq_nil_iff]
    intro b hb
    rcases block_of_response hresp hb with htext | ⟨call, rfl⟩
    · rw [htext]
      decide
    · exact (by decide : ¬ decide (some "tool_use" = some "tool_result") = true)

/-- The calls of a response are pending after it. -/
theorem respond (hserves : Serves agent llama serde post) {messages : List Value}
    {resp : ChatResult} (answers : agent.Answers messages resp) (h : PairedUpTo messages []) :
    PairedUpTo (messages ++ [message "assistant" resp.content])
      (toolUseIds (message "assistant" resp.content)) := by
  obtain ⟨hsigned, hresults⟩ := hserves.response answers
  rw [← useIds_assistant]
  exact h.concat hsigned hresults fun hne => absurd rfl hne

/-- **The turns of a step** ask about paired histories, and where the step succeeds, they leave one
that is paired up to the call that is handed to the client. -/
theorem conversation (hserves : Serves agent llama serde post) {messages messages' : List Value}
    {calls : List Call} {exit : Option (Except AgentError AgentStepOutcome)}
    (h : agent.Conversation messages calls exit messages') (hpaired : PairedUpTo messages []) :
    (∀ req res, Call.asked req res ∈ calls → PairedUpTo req.messages []) ∧
      ∀ o, exit = some (.ok o) → PairedUpTo messages' (o.pending.toList.map some) :=
  h.invariant hserves.regular (fun _ _ hpaired answers => hserves.respond answers hpaired)
    (fun _ _ hpending => hpending.answers) hpaired

end Serves

/-! ## Sessions -/

/-- The sessions that steps lead to which succeed, each on an input that the one before it waits
for, with the call that is pending in them. -/
inductive Session (agent : AgentLoop W) : List Value → Option String → Prop
  | new : Session agent [] none
  | step {session session' : List Value} {call : Option String} {input : AgentStepInput}
    {o : AgentStepOutcome} {fuel : ℕ} {w w' : W} (before : Session agent session call)
    (fits : Fits call input)
    (stepped : agent.step fuel w session input = some (.ok o, session', w')) :
    Session agent session' o.pending

variable {agent : AgentLoop W} {llama : OpenAiProvider}
  {post : W → String → Value → Except String HttpResponse × W}

theorem Serves.session (hserves : Serves agent llama serde post) {session : List Value}
    {call : Option String} (h : Session agent session call) :
    PairedUpTo session (call.toList.map some) := by
  induction h with
  | new => exact pairedUpTo_nil
  | @step session session' call input o fuel w w' before fits stepped ih =>
    obtain ⟨calls, -, hconversation⟩ := agent.conversation_step fuel w session input
    rw [agent.messages_turns stepped, stepped] at hconversation
    exact (hserves.conversation hconversation (ih.input fits)).2 o rfl

/-- The messages that the server is sent: each with calls is followed by exactly one for each of
them, with the result that the history has for it, and there are no others for results. -/
def Coherent (serde : SerdeJson) (history : List Value) (body : Value) : Prop :=
  ∃ messages, body.getArray "messages" = some messages ∧
    ∀ before m after, messages = before ++ m :: after →
      (toolCalls m ≠ [] → Answered serde history m after) ∧ (role m = "tool" → Asked before)

/-- **What a local model is sent is coherent**: in a session that got here by steps which succeeded,
whatever the next step comes to, each request that it makes is for messages in which every call is
answered, and nothing else is. -/
theorem posts_paired (hserves : Serves agent llama serde post) {session : List Value}
    {call : Option String} (hsession : Session agent session call) {input : AgentStepInput}
    (hfits : Fits call input) (fuel : ℕ) (w : W) :
    ∃ calls, agent.traced.turns fuel (.start (w, []) (session ++ [inputToUserMessage input])) =
        (agent.turns fuel (.start w (session ++ [inputToUserMessage input]))).record calls ∧
      ∀ req res, Call.asked req res ∈ calls →
        Coherent serde req.messages (llama.requestBody serde req) := by
  obtain ⟨calls, htraced, hconversation⟩ := agent.conversation_step fuel w session input
  refine ⟨calls, htraced, fun req res hreq => ?_⟩
  have hpaired : PairedUpTo req.messages [] :=
    (hserves.conversation hconversation ((hserves.session hsession).input hfits)).1 req res hreq
  exact ⟨_, llama.messages_requestBody serde req, fun before m after h =>
    pairing_of_split hpaired.paired h⟩

/-! ## A session of two steps -/

namespace Clock

/-- A parser for two completions and the empty object. -/
def twoTexts : SerdeJson where
  toString _ := some "\x7b\x7d"
  display _ := "\x7b\x7d"
  fromStr text :=
    if text = "calling" then .ok (completionOf "tool_calls" [currentTime])
    else if text = "stopping" then .ok (completionOf "stop" [])
    else .ok (.object [])

/-- A server that calls a tool in its first completion. -/
def answer : ℕ → String → Value → Except String HttpResponse × ℕ
  | 0, _, _ => (.ok ⟨"200 OK", true, .ok "calling"⟩, 1)
  | w, _, _ => (.ok ⟨"200 OK", true, .ok "stopping"⟩, w + 1)

def provider : OpenAiProvider := ⟨"http://127.0.0.1:8081", "qwen"⟩

/-- An agent with a tool of the client. -/
def asking : AgentLoop ℕ where
  provider := provider.complete twoTexts answer
  maxTokens := 16000
  systemPrompt := "sys"
  registry := [.client ⟨"current_time", "", .null⟩]

theorem serves : Serves asking provider twoTexts answer where
  provider := rfl
  agrees := by
    intro w body res text completion hres htext hcompletion
    have htext : text = "calling" ∨ text = "stopping" := by
      cases w with
      | zero =>
        obtain rfl := Except.ok.inj hres
        exact .inl (Except.ok.inj htext).symm
      | succ w =>
        obtain rfl := Except.ok.inj hres
        exact .inr (Except.ok.inj htext).symm
    rcases htext with rfl | rfl
    · obtain rfl := Except.ok.inj hcompletion
      exact ⟨fun _ => List.cons_ne_nil _ _, fun _ => rfl⟩
    · obtain rfl := Except.ok.inj hcompletion
      exact ⟨fun h => absurd h (by decide), fun h => absurd rfl h⟩

/-- What the result of the tool is answered with was asked about a prompt, a call and its result. -/
theorem posts_paired_stepped : ∃ usage session w,
    asking.step 1 0 [] (.prompt "What time is it?") =
      some (.ok (.needsClientTool "call_1" "current_time" (.object []) usage), session, w) ∧
    ∃ calls, asking.traced.turns 1
        (.start (w, []) (session ++ [inputToUserMessage (.toolResult "call_1" "12:00" false)])) =
      (asking.turns 1
        (.start w (session ++ [inputToUserMessage (.toolResult "call_1" "12:00" false)]))).record
          calls ∧
      ∀ req res, Call.asked req res ∈ calls →
        Coherent twoTexts req.messages (provider.requestBody twoTexts req) := by
  obtain ⟨usage, session, w, hstep⟩ : ∃ usage session w,
      asking.step 1 0 [] (.prompt "What time is it?") =
        some (.ok (.needsClientTool "call_1" "current_time" (.object []) usage), session, w) :=
    ⟨_, _, _, rfl⟩
  have hprompt : Fits none (.prompt "What time is it?") := trivial
  have hsession : Session asking session (some "call_1") := Session.new.step hprompt hstep
  have hresult : Fits (some "call_1") (.toolResult "call_1" "12:00" false) := rfl
  exact ⟨usage, session, w, hstep, posts_paired serves hsession hresult 1 w⟩

end Clock

end Flodex.LocalLlm
