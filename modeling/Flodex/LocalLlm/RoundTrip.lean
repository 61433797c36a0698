import Flodex.LocalLlm.OpenAi
import Mathlib.Data.List.Forall2

/-!
# A turn of the assistant comes back

What the model answers is translated to blocks, kept in the history, and translated back when the
history is sent again. `turn_roundTrip` says that the model then sees what it answered: the text,
and its calls, with arguments that parse to the same value.
-/

namespace Flodex.LocalLlm

/-- The message of the first choice. -/
def completion (body : Value) : Option Value :=
  ((body.getArray "choices").bind List.head?).bind (Value.get "message")

/-- Writing the value and parsing the text gives the value. -/
def SerdeJson.Inverts (serde : SerdeJson) (v : Value) : Prop :=
  ∃ t, serde.toString v = some t ∧ serde.fromStr t = .ok v

/-- A call with an id, a name and arguments that parse. -/
def Readable (serde : SerdeJson) (call : Value) : Prop :=
  (call.getStr "id").isSome ∧ (functionStr "name" call).isSome ∧
    ∃ arguments v, functionStr "arguments" call = some arguments ∧ serde.fromStr arguments = .ok v

/-- The same id and name, and arguments that parse to one value. -/
def SameCall (serde : SerdeJson) (call call' : Value) : Prop :=
  call'.getStr "id" = call.getStr "id" ∧ functionStr "name" call' = functionStr "name" call ∧
    ∃ arguments arguments' v, functionStr "arguments" call = some arguments ∧
      functionStr "arguments" call' = some arguments' ∧
      serde.fromStr arguments = .ok v ∧ serde.fromStr arguments' = .ok v

variable {serde : SerdeJson} {body m call : Value}

/-! ## One call -/

/-- **A call comes back.** -/
theorem sameCall_toolCall (hcall : Readable serde call)
    (hserde : ∀ v, (∃ arguments, functionStr "arguments" call = some arguments ∧
      serde.fromStr arguments = .ok v) → serde.Inverts v) :
    SameCall serde call (toolCall serde (toolUseBlock serde call)) := by
  obtain ⟨hid, hname, arguments, v, harguments, hv⟩ := hcall
  obtain ⟨id, hid⟩ := Option.isSome_iff_exists.1 hid
  obtain ⟨name, hname⟩ := Option.isSome_iff_exists.1 hname
  obtain ⟨t, ht, hback⟩ := hserde v ⟨arguments, harguments, hv⟩
  have hinput : (toolUseBlock serde call).get "input" = some v := by
    change some ((serde.fromStr ((functionStr "arguments" call).getD "\x7b\x7d")).toOption.getD
      .null) = some v
    rw [harguments, Option.getD_some, hv]
    rfl
  obtain ⟨hid', hname', hargs'⟩ := @getStr_toolCall serde (toolUseBlock serde call)
  refine ⟨?_, ?_, arguments, t, v, harguments, ?_, hv, hback⟩
  · rw [hid', hid]
    change some ((some ((call.getStr "id").getD "")).getD "") = some id
    rw [hid]
    rfl
  · rw [hname', hname]
    change some ((some ((functionStr "name" call).getD "")).getD "") = some name
    rw [hname]
    rfl
  · rw [hargs', hinput, Option.getD_some, ht, Option.getD_some]

/-! ## The turn -/

theorem content_message (blocks : List Value) : content (message "assistant" blocks) = blocks := rfl

theorem toolUses_response (m : Value) : toolUses (message "assistant"
    (textBlocks m ++ (toolCalls m).map (toolUseBlock serde))) =
      (toolCalls m).map (toolUseBlock serde) := by
  rw [toolUses, content_message, List.filter_append, List.filter_eq_nil_iff.2, List.nil_append,
    List.filter_eq_self.2]
  · intro b hb
    obtain ⟨c, -, rfl⟩ := List.mem_map.1 hb
    exact decide_eq_true (blockType_toolUseBlock serde c)
  · intro b hb
    rw [blockType_of_textBlocks hb]
    decide

theorem texts_response (m : Value) : texts (message "assistant"
    (textBlocks m ++ (toolCalls m).map (toolUseBlock serde))) =
      (textBlocks m).filterMap (Value.getStr "text") := by
  rw [texts, content_message, List.filter_append, List.filter_eq_self.2, List.filter_eq_nil_iff.2,
    List.append_nil]
  · intro b hb
    obtain ⟨c, -, rfl⟩ := List.mem_map.1 hb
    rw [blockType_toolUseBlock]
    decide
  · intro b hb
    exact decide_eq_true (blockType_of_textBlocks hb)

/-- The text of an answer, as the content of a message: null for none and for an empty one. -/
def answerText (m : Value) : Value :=
  match m.getStr "content" with
  | some text => if text = "" then .null else .string text
  | none => .null

theorem assistantMessage_response (m : Value) (calls : List Value) :
    (assistantMessage ((textBlocks m).filterMap (Value.getStr "text")) calls).get "content" =
      some (answerText m) := by
  rw [(assistantMessage_spec _ _).2.2, textBlocks, answerText]
  cases m.getStr "content" with
  | none => rfl
  | some text =>
    by_cases htext : text = ""
    · simp only [htext, if_true]
      rfl
    · simp only [if_neg htext]
      rfl

/-- **A turn of the assistant survives the round trip**: fed back, the blocks of a completion become
one message with its text and, in order, its calls. -/
theorem turn_roundTrip (system : String) (hm : completion body = some m)
    (hcalls : ∀ c ∈ toolCalls m, Readable serde c)
    (hserde : ∀ c ∈ toolCalls m, ∀ v, (∃ arguments, functionStr "arguments" c = some arguments ∧
      serde.fromStr arguments = .ok v) → serde.Inverts v) :
    ∃ r m', responseOaiToAnthropic serde body = .ok r ∧
      messagesAnthropicToOai serde system [message "assistant" r.content] =
        [systemMessage system, m'] ∧
      role m' = "assistant" ∧ m'.get "content" = some (answerText m) ∧
      List.Forall₂ (SameCall serde) (toolCalls m) (toolCalls m') := by
  obtain ⟨choice, hchoice, hmessage⟩ := Option.bind_eq_some_iff.1 hm
  refine ⟨_, assistantMessage ((textBlocks m).filterMap (Value.getStr "text"))
    (((toolCalls m).map (toolUseBlock serde)).map (toolCall serde)),
    responseOaiToAnthropic_eq_ok.2 ⟨choice, m, hchoice, hmessage, rfl⟩, ?_,
    (assistantMessage_spec _ _).1, assistantMessage_response m _, ?_⟩
  · rw [messagesAnthropicToOai_eq, List.flatMap_singleton, translate_assistant rfl,
      toolUses_response, texts_response]
  · rw [(assistantMessage_spec _ _).2.1, List.map_map, List.forall₂_map_right_iff,
      List.forall₂_same]
    exact fun c hc => sameCall_toolCall (hcalls c hc) (hserde c hc)

/-- The completion comes back with its text and its call. -/
theorem turn_roundTrip_calling : ∃ r m',
    responseOaiToAnthropic .emptyObject (completionOf "tool_calls" [currentTime]) = .ok r ∧
    messagesAnthropicToOai .emptyObject "sys" [message "assistant" r.content] =
      [systemMessage "sys", m'] ∧ role m' = "assistant" ∧
    m'.get "content" = some (.string "ok") ∧
    List.Forall₂ (SameCall .emptyObject) [currentTime] (toolCalls m') := by
  have hm : completion (completionOf "tool_calls" [currentTime]) = some _ := rfl
  refine turn_roundTrip "sys" hm ?_ ?_
  · intro c hc
    obtain rfl : c = currentTime := List.mem_singleton.1 hc
    exact ⟨rfl, rfl, _, _, rfl, rfl⟩
  · rintro c - v ⟨arguments, -, hv⟩
    exact ⟨_, rfl, hv⟩

end Flodex.LocalLlm
