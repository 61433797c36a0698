import Flodex.LocalLlm.OpenAi
import Mathlib.Data.List.Chain

/-!
# Calls and their results stay paired

In the Anthropic shape the results of an assistant's calls are blocks of the next message; in the
OpenAI shape they are messages of their own, after the assistant's. `tool_pairing` says that the
translation of a history whose calls are answered (`Paired`) is answered too: each message with
calls is followed by exactly one message for each of them, and there are no others.
-/

namespace Flodex.LocalLlm

/-! ## The two shapes -/

/-- The ids of the calls in a message of the history. -/
def useIds (msg : Value) : List (Option String) := (toolUses msg).map (Value.getStr "id")

/-- The ids of the calls whose results are in a message of the history. -/
def resultIds (msg : Value) : List (Option String) :=
  (toolResults msg).map (Value.getStr "tool_use_id")

/-- The calls of the history are an assistant's, with ids and names; those of a message are answered
by the next one, which is the user's, in the same order, and nothing else is answered. -/
structure Paired (history : List Value) : Prop where
  assistant : ∀ msg ∈ history, toolUses msg ≠ [] → role msg = "assistant"
  named : ∀ msg ∈ history, ∀ b ∈ toolUses msg,
    (b.getStr "id").isSome ∧ (b.getStr "name").isSome
  answered : history.IsChain fun msg reply =>
    resultIds reply = useIds msg ∧ (toolUses msg ≠ [] → role reply = "user")
  first : ∀ msg ∈ history.head?, toolResults msg = []
  last : ∀ msg ∈ history.getLast?, toolUses msg = []

/-- What follows a message with calls: a message for each of them, with the results that the history
has for them, and then none. -/
def Answered (serde : SerdeJson) (history : List Value) (m : Value) (after : List Value) : Prop :=
  role m = "assistant" ∧ ∃ answers rest, after = answers ++ rest ∧
    (∀ a ∈ answers, role a = "tool") ∧ (∀ a ∈ rest.head?, role a ≠ "tool") ∧
    answers.map (Value.getStr "tool_call_id") = (toolCalls m).map (Value.getStr "id") ∧
    ∃ before msg reply after', history = before ++ msg :: reply :: after' ∧
      (toolCalls m).map (Value.getStr "id") = useIds msg ∧
      toolCalls m = (toolUses msg).map (toolCall serde) ∧
      answers = (toolResults reply).map (toolMessage serde)

/-- What precedes a message for a result: a message with calls, and messages for fewer results than
it has calls. -/
def Asked (before : List Value) : Prop :=
  ∃ before' m earlier, before = before' ++ m :: earlier ∧ (∀ a ∈ earlier, role a = "tool") ∧
    earlier.length < (toolCalls m).length

variable {serde : SerdeJson} {history : List Value} {msg reply m : Value}

/-! ## What a message becomes -/

/-- A message with calls comes from the assistant's. -/
theorem eq_of_toolCalls (hm : m ∈ translate serde msg) (hcalls : toolCalls m ≠ []) :
    role msg = "assistant" ∧
      m = assistantMessage (texts msg) ((toolUses msg).map (toolCall serde)) := by
  by_cases huser : role msg = "user"
  · rw [translate_user huser] at hm
    exfalso
    rcases List.mem_append.1 hm with hm | hm
    · obtain ⟨b, -, rfl⟩ := List.mem_map.1 hm
      exact hcalls rfl
    · split_ifs at hm
      · simp at hm
      · obtain rfl := List.mem_singleton.1 hm
        exact hcalls rfl
  · by_cases hassistant : role msg = "assistant"
    · rw [translate_assistant hassistant] at hm
      exact ⟨hassistant, List.mem_singleton.1 hm⟩
    · rw [translate_other huser hassistant] at hm
      simp at hm

/-- A message for a result comes from the user's. -/
theorem exists_of_tool (hm : m ∈ translate serde msg) (htool : role m = "tool") :
    role msg = "user" ∧ ∃ b ∈ toolResults msg, m = toolMessage serde b := by
  by_cases huser : role msg = "user"
  · rw [translate_user huser] at hm
    refine ⟨huser, ?_⟩
    rcases List.mem_append.1 hm with hm | hm
    · obtain ⟨b, hb, rfl⟩ := List.mem_map.1 hm
      exact ⟨b, hb, rfl⟩
    · split_ifs at hm
      · simp at hm
      · obtain rfl := List.mem_singleton.1 hm
        rw [(userMessage_spec _).1] at htool
        exact absurd htool (by decide)
  · exfalso
    by_cases hassistant : role msg = "assistant"
    · rw [translate_assistant hassistant] at hm
      obtain rfl := List.mem_singleton.1 hm
      rw [(assistantMessage_spec _ _).1] at htool
      exact absurd htool (by decide)
    · rw [translate_other huser hassistant] at hm
      simp at hm

/-! ## Splitting the translation -/

/-- An element of a list of images, with the image that it is in. -/
theorem exists_of_flatMap_eq {α β : Type*} {f : α → List β} {l : List α} {before after : List β}
    {b : β} (h : l.flatMap f = before ++ b :: after) : ∃ l₁ a l₂ u v, l = l₁ ++ a :: l₂ ∧
      f a = u ++ b :: v ∧ before = l₁.flatMap f ++ u ∧ after = v ++ l₂.flatMap f := by
  induction l generalizing before with
  | nil => simp at h
  | cons a l ih =>
    rw [List.flatMap_cons, List.append_eq_append_iff] at h
    rcases h with ⟨u, rfl, hrest⟩ | ⟨v, ha, hrest⟩
    · obtain ⟨l₁, a', l₂, u', v, rfl, ha', rfl, rfl⟩ := ih hrest
      exact ⟨a :: l₁, a', l₂, u', v, rfl, ha', by simp, rfl⟩
    · cases v with
      | nil =>
        have hrest' : l.flatMap f = [] ++ b :: after := hrest.symm
        obtain ⟨l₁, a', l₂, u', v, rfl, ha', hu, rfl⟩ := ih hrest'
        refine ⟨a :: l₁, a', l₂, u', v, rfl, ha', ?_, rfl⟩
        rw [List.flatMap_cons, List.append_assoc, ← hu, ha]
        simp
      | cons b' v =>
        obtain ⟨rfl, rfl⟩ := List.cons.inj hrest
        exact ⟨[], a, l, before, v, rfl, ha, by simp, rfl⟩

/-! ## Neighbours in the history -/

/-- Of two messages in a row, the second has the results of the first. -/
theorem Paired.next {before after : List Value} (H : Paired (before ++ msg :: reply :: after)) :
    resultIds reply = useIds msg ∧ (toolUses msg ≠ [] → role reply = "user") :=
  (List.isChain_cons_cons.1 (List.isChain_append.1 H.answered).2.1).1

/-- A message with calls has a next one. -/
theorem Paired.exists_reply {before after : List Value} (H : Paired (before ++ msg :: after))
    (hcalls : toolUses msg ≠ []) : ∃ reply after', after = reply :: after' := by
  cases after with
  | nil => exact absurd (H.last msg (by simp)) hcalls
  | cons reply after' => exact ⟨reply, after', rfl⟩

theorem eq_nil_of_resultIds (h : resultIds msg = []) : toolResults msg = [] :=
  List.map_eq_nil_iff.1 h

/-- A message with results has one before it, with as many calls. -/
theorem Paired.exists_asked {before after : List Value} (H : Paired (before ++ msg :: after))
    (hresults : toolResults msg ≠ []) : ∃ before' asst, before = before' ++ [asst] ∧
      role asst = "assistant" ∧ (toolUses asst).length = (toolResults msg).length ∧
      role msg = "user" := by
  rcases List.eq_nil_or_concat before with rfl | ⟨before', asst, rfl⟩
  · exact absurd (H.first msg (by simp)) hresults
  · rw [List.concat_eq_append, List.append_assoc, List.singleton_append] at H
    obtain ⟨hids, huser⟩ := H.next
    have hlength : (toolUses asst).length = (toolResults msg).length := by
      simpa [resultIds, useIds] using (congrArg List.length hids).symm
    have hcalls : toolUses asst ≠ [] := by
      intro hnil
      rw [hnil] at hlength
      exact hresults (List.eq_nil_of_length_eq_zero hlength.symm)
    exact ⟨before', asst, List.concat_eq_append, H.assistant asst (by simp) hcalls, hlength,
      huser hcalls⟩

theorem Paired.role_of_results (H : Paired history) (hmsg : msg ∈ history)
    (hresults : toolResults msg ≠ []) : role msg = "user" := by
  obtain ⟨before, after, rfl⟩ := List.append_of_mem hmsg
  obtain ⟨-, -, -, -, -, huser⟩ := H.exists_asked hresults
  exact huser

/-- After a message without calls, the translation goes on with no result. -/
theorem Paired.head_ne_tool {before after : List Value} (H : Paired (before ++ msg :: after))
    (hcalls : toolUses msg = []) :
    ∀ a ∈ (after.flatMap (translate serde)).head?, role a ≠ "tool" := by
  induction after generalizing before msg with
  | nil => simp
  | cons next after ih =>
    have hids : resultIds next = [] := by
      rw [H.next.1, useIds, hcalls]
      rfl
    have hresults : toolResults next = [] := eq_nil_of_resultIds hids
    have Hnext : Paired ((before ++ [msg]) ++ next :: after) := by simpa using H
    rw [List.flatMap_cons]
    cases htranslate : translate serde next with
    | nil =>
      refine ih Hnext ?_
      by_contra hne
      rw [translate_assistant (H.assistant next (by simp) hne)] at htranslate
      simp at htranslate
    | cons a rest =>
      rintro a' ha' htool
      obtain rfl : a = a' := by simpa using ha'
      obtain ⟨-, b, hb, -⟩ := exists_of_tool (by rw [htranslate]; simp) htool
      simp [hresults] at hb

/-! ## The translation is answered -/

theorem some_getD {id : Option String} (h : id.isSome) : some (id.getD "") = id := by
  obtain ⟨s, rfl⟩ := Option.isSome_iff_exists.1 h
  rfl

/-- The ids of calls are kept. -/
theorem ids_of_named (h : ∀ b ∈ toolUses msg, (b.getStr "id").isSome ∧ (b.getStr "name").isSome) :
    ((toolUses msg).map (toolCall serde)).map (Value.getStr "id") = useIds msg := by
  rw [useIds, List.map_map]
  refine List.map_congr_left fun b hb => ?_
  rw [Function.comp_apply, (getStr_toolCall b).1]
  exact some_getD (h b hb).1

/-- The messages for the results of the next message have the ids of the calls, in order. -/
theorem Paired.ids_reply {before after : List Value}
    (H : Paired (before ++ msg :: reply :: after)) :
    ((toolResults reply).map (toolMessage serde)).map (Value.getStr "tool_call_id") =
      useIds msg := by
  have hresults : ((toolResults reply).map (toolMessage serde)).map (Value.getStr "tool_call_id") =
      (resultIds reply).map fun id => some (id.getD "") := by
    rw [resultIds, List.map_map, List.map_map]
    rfl
  rw [hresults, H.next.1, useIds, List.map_map]
  exact List.map_congr_left fun b hb => some_getD (H.named msg (by simp) b hb).1

/-- After the messages for its results, the translation of a message of the user goes on with no
result. -/
theorem Paired.head_after_results {before after : List Value} (H : Paired (before ++ msg :: after))
    (huser : role msg = "user") :
    ∀ a ∈ ((if texts msg = [] then [] else [userMessage (texts msg)]) ++
      after.flatMap (translate serde)).head?, role a ≠ "tool" := by
  split_ifs with htexts
  · refine H.head_ne_tool ?_
    by_contra hne
    have hassistant := H.assistant msg (by simp) hne
    rw [huser] at hassistant
    exact absurd hassistant (by decide)
  · intro a ha
    obtain rfl : userMessage (texts msg) = a := by simpa using ha
    rw [(userMessage_spec _).1]
    decide

/-- **A message with calls is answered.** -/
theorem answered_of_split (H : Paired history) {before after : List Value}
    (h : history.flatMap (translate serde) = before ++ m :: after) (hcalls : toolCalls m ≠ []) :
    Answered serde history m after := by
  obtain ⟨hb, msg, ha, u, v, rfl, hmsg, -, rfl⟩ := exists_of_flatMap_eq h
  obtain ⟨hassistant, hm⟩ := eq_of_toolCalls (by rw [hmsg]; simp) hcalls
  have hv : v = [] := by
    rw [translate_assistant hassistant] at hmsg
    cases u with
    | nil => exact (List.cons.inj hmsg).2.symm
    | cons => simp at hmsg
  subst hv
  have hcallsEq : toolCalls m = (toolUses msg).map (toolCall serde) := by
    rw [hm, (assistantMessage_spec _ _).2.1]
  have huses : toolUses msg ≠ [] := by
    rintro huses
    rw [hcallsEq, huses] at hcalls
    exact hcalls rfl
  obtain ⟨reply, after', rfl⟩ := H.exists_reply huses
  have huser := H.next.2 huses
  have Hreply : Paired ((hb ++ [msg]) ++ reply :: after') := by simpa using H
  have hids : ((toolUses msg).map (toolCall serde)).map (Value.getStr "id") = useIds msg :=
    ids_of_named (H.named msg (by simp))
  refine ⟨by rw [hm, (assistantMessage_spec _ _).1], (toolResults reply).map (toolMessage serde),
    (if texts reply = [] then [] else [userMessage (texts reply)]) ++
      after'.flatMap (translate serde), ?_, ?_, Hreply.head_after_results huser, ?_,
      hb, msg, reply, after', rfl, ?_, hcallsEq, rfl⟩
  · rw [List.nil_append, List.flatMap_cons, translate_user huser, List.append_assoc]
  · intro a ha
    obtain ⟨b, -, rfl⟩ := List.mem_map.1 ha
    rfl
  · rw [H.ids_reply, hcallsEq, hids]
  · rw [hcallsEq, hids]

/-- The messages before one for a result are for results before it. -/
theorem results_of_split {u v : List Value} (huser : role msg = "user")
    (hmsg : translate serde msg = u ++ m :: v) (htool : role m = "tool") :
    ∃ w, (toolResults msg).map (toolMessage serde) = u ++ m :: w := by
  have hnot : ∀ w, (if texts msg = [] then [] else [userMessage (texts msg)]) ≠ w ++ m :: v := by
    intro w hw
    have hmem : m ∈ if texts msg = [] then [] else [userMessage (texts msg)] := by
      rw [hw]
      simp
    split_ifs at hmem
    · simp at hmem
    · obtain rfl := List.mem_singleton.1 hmem
      rw [(userMessage_spec _).1] at htool
      exact absurd htool (by decide)
  rw [translate_user huser, List.append_eq_append_iff] at hmsg
  rcases hmsg with ⟨w, -, hw⟩ | ⟨w, hw, hrest⟩
  · exact absurd hw (hnot w)
  · cases w with
    | nil => exact absurd hrest.symm (hnot [])
    | cons m' w =>
      obtain ⟨rfl, -⟩ := List.cons.inj hrest
      exact ⟨w, hw⟩

/-- **A message for a result is asked for.** -/
theorem asked_of_split (H : Paired history) {before after : List Value}
    (h : history.flatMap (translate serde) = before ++ m :: after) (htool : role m = "tool") :
    Asked before := by
  obtain ⟨hb, msg, ha, u, v, rfl, hmsg, rfl, -⟩ := exists_of_flatMap_eq h
  obtain ⟨huser, b, hb', -⟩ := exists_of_tool (by rw [hmsg]; simp) htool
  obtain ⟨before', asst, rfl, hassistant, hlength, -⟩ :=
    H.exists_asked (List.ne_nil_of_mem hb')
  obtain ⟨w, hw⟩ := results_of_split huser hmsg htool
  refine ⟨before'.flatMap (translate serde),
    assistantMessage (texts asst) ((toolUses asst).map (toolCall serde)), u, ?_, ?_, ?_⟩
  · rw [List.flatMap_append, List.flatMap_singleton, translate_assistant hassistant,
      List.append_assoc, List.singleton_append]
  · intro a ha
    have hmem : a ∈ (toolResults msg).map (toolMessage serde) := by
      rw [hw]
      exact List.mem_append_left _ ha
    obtain ⟨b, -, rfl⟩ := List.mem_map.1 hmem
    rfl
  · have hlt : u.length < (toolResults msg).length := by
      have := congrArg List.length hw
      simp at this
      omega
    rw [(assistantMessage_spec _ _).2.1, List.length_map, hlength]
    exact hlt

/-! ## Nothing is lost and nothing is added -/

theorem flatMap_toolCalls (H : Paired history) (hmsg : msg ∈ history) :
    (translate serde msg).flatMap toolCalls = (toolUses msg).map (toolCall serde) := by
  by_cases hassistant : role msg = "assistant"
  · rw [translate_assistant hassistant, List.flatMap_singleton, (assistantMessage_spec _ _).2.1]
  · have huses : toolUses msg = [] := by
      by_contra hne
      exact hassistant (H.assistant msg hmsg hne)
    rw [huses, List.map_nil, List.flatMap_eq_nil_iff]
    intro m hm
    by_contra hcalls
    exact hassistant (eq_of_toolCalls hm hcalls).1

theorem filter_tool (H : Paired history) (hmsg : msg ∈ history) :
    (translate serde msg).filter (fun m => role m = "tool") =
      (toolResults msg).map (toolMessage serde) := by
  by_cases huser : role msg = "user"
  · rw [translate_user huser, List.filter_append, List.filter_eq_self.2, List.filter_eq_nil_iff.2,
      List.append_nil]
    · split_ifs
      · simp
      · simp [(userMessage_spec _).1]
    · intro m hm
      obtain ⟨b, -, rfl⟩ := List.mem_map.1 hm
      exact decide_eq_true rfl
  · have hresults : toolResults msg = [] := by
      by_contra hne
      exact huser (H.role_of_results hmsg hne)
    rw [hresults, List.map_nil, List.filter_eq_nil_iff]
    intro m hm htool
    exact huser (exists_of_tool hm (by simpa using htool)).1

/-- A message of the translation, the prompt before it included. -/
theorem pairing_of_split (H : Paired history) {system : String} {before after : List Value}
    (h : messagesAnthropicToOai serde system history = before ++ m :: after) :
    (toolCalls m ≠ [] → Answered serde history m after) ∧ (role m = "tool" → Asked before) := by
  rw [messagesAnthropicToOai_eq] at h
  cases before with
  | nil =>
    obtain ⟨rfl, -⟩ := List.cons.inj h
    refine ⟨fun hcalls => absurd rfl hcalls, fun htool => ?_⟩
    exact absurd (show "system" = "tool" from htool) (by decide)
  | cons m' before =>
    obtain ⟨rfl, hrest⟩ := List.cons.inj h
    refine ⟨answered_of_split H hrest, fun htool => ?_⟩
    obtain ⟨before', asst, earlier, rfl, hearlier, hlength⟩ := asked_of_split H hrest htool
    exact ⟨systemMessage system :: before', asst, earlier, rfl, hearlier, hlength⟩

/-- **Pairing is preserved**: in the translation of a history whose calls are answered, each message
with calls is followed by exactly one message for each of them, with its id and its result, and
there are no other messages for results; the calls and the results are those of the history, each
once and in order. -/
theorem tool_pairing (H : Paired history) (system : String) :
    (∀ before m after, messagesAnthropicToOai serde system history = before ++ m :: after →
      (toolCalls m ≠ [] → Answered serde history m after) ∧ (role m = "tool" → Asked before)) ∧
    (messagesAnthropicToOai serde system history).flatMap toolCalls =
      (history.flatMap toolUses).map (toolCall serde) ∧
    (messagesAnthropicToOai serde system history).filter (fun m => role m = "tool") =
      (history.flatMap toolResults).map (toolMessage serde) := by
  refine ⟨fun before m after h => pairing_of_split H h, ?_⟩
  rw [messagesAnthropicToOai_eq]
  refine ⟨?_, ?_⟩
  · rw [List.flatMap_cons, show toolCalls (systemMessage system) = [] from rfl, List.nil_append,
      List.flatMap_assoc, List.map_flatMap]
    exact List.flatMap_congr fun msg hmsg => flatMap_toolCalls H hmsg
  · have hsystem : role (systemMessage system) = "system" := rfl
    rw [List.filter_cons_of_neg (by simp [hsystem]), List.filter_flatMap, List.map_flatMap]
    exact List.flatMap_congr fun msg hmsg => filter_tool H hmsg

/-! ## A conversation -/

namespace Conversation

def call (id : String) : Value :=
  .object [("id", .string id), ("input", .object []), ("name", .string "current_time"),
    ("type", .string "tool_use")]

def thinking : Value := .object [("thinking", .string "..."), ("type", .string "thinking")]

/-- A prompt, two calls, and their results with a text between them. -/
def dialog : List Value :=
  [message "user" [textBlock "What time is it?"],
    message "assistant" [thinking, textBlock "ok", call "t1", call "t2"],
    message "user" [toolResultBlock "t1" "12:00" false, textBlock "quick",
      toolResultBlock "t2" "12:01" false]]

theorem paired : Paired dialog where
  assistant := by
    simp only [dialog, List.forall_mem_cons]
    exact ⟨fun h => absurd rfl h, fun _ => rfl, fun h => absurd rfl h, by simp⟩
  named := by
    simp only [dialog, List.forall_mem_cons]
    refine ⟨by rintro b ⟨⟩, ?_, by rintro b ⟨⟩, by simp⟩
    intro b hb
    have hb : b ∈ [call "t1", call "t2"] := hb
    simp only [List.mem_cons, List.not_mem_nil, or_false] at hb
    rcases hb with rfl | rfl <;> exact ⟨rfl, rfl⟩
  answered := by
    simp only [dialog, List.isChain_cons_cons, List.isChain_singleton, and_true]
    exact ⟨⟨rfl, fun h => absurd rfl h⟩, rfl, fun _ => rfl⟩
  first := by
    intro msg hmsg
    obtain rfl := Option.some.inj hmsg
    rfl
  last := by
    intro msg hmsg
    obtain rfl := Option.some.inj hmsg
    rfl

end Conversation

/-- The two calls of the conversation are answered in its translation. -/
theorem tool_pairing_conversation : ∃ before m after,
    messagesAnthropicToOai .emptyObject "sys" Conversation.dialog = before ++ m :: after ∧
    (toolCalls m).length = 2 ∧ Answered .emptyObject Conversation.dialog m after :=
  ⟨_, _, _, (show _ = [_, _] ++ _ :: _ from rfl), rfl,
    ((tool_pairing Conversation.paired "sys").1 [_, _] _ _ rfl).1 (by rintro ⟨⟩)⟩

end Flodex.LocalLlm
