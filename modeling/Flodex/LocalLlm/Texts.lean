import Flodex.LocalLlm.OpenAi

/-!
# Texts and the translation

The history of the agent loop has its texts in blocks, but what a proxy passes on may have a plain
string for the content of a message. The translation reads blocks only, and drops the string.
`texts_kept` says that it keeps the texts of exactly those histories in which nobody speaks with a
plain string.
-/

namespace Flodex.LocalLlm

/-- The content of the message is a plain string. -/
def Plain (msg : Value) : Prop := (msg.getStr "content").isSome

instance : DecidablePred Plain := fun _ => inferInstanceAs (Decidable (_ = true))

/-- What a message has to say: its content if that is a plain string, else its texts. -/
def text (msg : Value) : String :=
  (msg.getStr "content").getD ("\n".intercalate (texts msg))

/-- A message of the user or of the assistant that has something to say. -/
def Speaks (msg : Value) : Prop := (role msg = "user" ∨ role msg = "assistant") ∧ text msg ≠ ""

instance : DecidablePred Speaks := fun _ => inferInstanceAs (Decidable (_ ∧ _))

/-- What is said in a history, and by whom. -/
def spoken (messages : List Value) : List (String × String) :=
  (messages.filter fun m => Speaks m).map fun m => (role m, text m)

/-- What is said in the history is said in its translation, in the same order. -/
def Kept (serde : SerdeJson) (system : String) (messages : List Value) : Prop :=
  (spoken messages).Sublist (spoken (messagesAnthropicToOai serde system messages))

variable {serde : SerdeJson} {msg : Value}

/-! ## One message -/

theorem text_of_not_plain (h : ¬ Plain msg) : text msg = "\n".intercalate (texts msg) := by
  rw [text, Option.not_isSome_iff_eq_none.1 h, Option.getD_none]

/-- A plain string has no blocks. -/
theorem Plain.content_eq (h : Plain msg) : content msg = [] := by
  obtain ⟨s, hs⟩ := Option.isSome_iff_exists.1 h
  obtain ⟨v, hv, hstr⟩ := Option.bind_eq_some_iff.1 hs
  cases v with
  | string s => rw [content, Value.getArray, hv]; rfl
  | null | bool | number | array | object => cases hstr

theorem text_userMessage (ts : List String) : text (userMessage ts) = "\n".intercalate ts := rfl

theorem text_assistantMessage (ts : List String) (calls : List Value) :
    text (assistantMessage ts calls) = "\n".intercalate ts := by
  have hcontent := (assistantMessage_spec ts calls).2.2
  by_cases hnone : ts = []
  · rw [if_pos hnone] at hcontent
    rw [text, Value.getStr, texts, content, Value.getArray, hcontent, hnone]
    rfl
  · rw [if_neg hnone] at hcontent
    rw [text, Value.getStr, hcontent]
    rfl

theorem spoken_append (l l' : List Value) : spoken (l ++ l') = spoken l ++ spoken l' := by
  simp only [spoken, List.filter_append, List.map_append]

theorem spoken_single {r t : String} (hr : role msg = r) (ht : text msg = t)
    (hrole : r = "user" ∨ r = "assistant") :
    spoken [msg] = if t = "" then [] else [(r, t)] := by
  subst hr ht
  by_cases ht : text msg = ""
  · simp [spoken, Speaks, ht]
  · simp [spoken, Speaks, ht, hrole]

/-- The messages for results say nothing of their own. -/
theorem spoken_results (results : List Value) : spoken (results.map (toolMessage serde)) = [] := by
  rw [spoken, List.map_eq_nil_iff, List.filter_eq_nil_iff]
  intro m hm
  obtain ⟨b, -, rfl⟩ := List.mem_map.1 hm
  simp [Speaks, (getStr_toolMessage b).1]

/-- What a message becomes says what its blocks say. -/
theorem spoken_translate (h : ¬ Plain msg) : spoken (translate serde msg) = spoken [msg] := by
  have htext := text_of_not_plain h
  by_cases huser : role msg = "user"
  · rw [translate_user huser, spoken_append, spoken_results, List.nil_append,
      spoken_single huser htext (.inl rfl)]
    by_cases hnone : texts msg = []
    · rw [if_pos hnone, hnone]
      rfl
    · rw [if_neg hnone]
      exact spoken_single rfl (text_userMessage _) (.inl rfl)
  · by_cases hassistant : role msg = "assistant"
    · rw [translate_assistant hassistant, spoken_single hassistant htext (.inr rfl)]
      exact spoken_single (assistantMessage_spec _ _).1 (text_assistantMessage _ _) (.inr rfl)
    · rw [translate_other huser hassistant]
      simp [spoken, Speaks, huser, hassistant]

/-- A plain string is dropped. -/
theorem Plain.spoken_translate (h : Plain msg) : spoken (translate serde msg) = [] := by
  have htexts : texts msg = [] := by rw [texts, h.content_eq]; rfl
  have hresults : toolResults msg = [] := by rw [toolResults, h.content_eq]; rfl
  have huses : toolUses msg = [] := by rw [toolUses, h.content_eq]; rfl
  by_cases huser : role msg = "user"
  · rw [translate_user huser, htexts, hresults]
    rfl
  · by_cases hassistant : role msg = "assistant"
    · rw [translate_assistant hassistant, htexts, huses]
      rfl
    · rw [translate_other huser hassistant]
      rfl

/-! ## A history -/

/-- **What is said in the translation** is what is said in the history with blocks. -/
theorem spoken_messages (system : String) (messages : List Value) :
    spoken (messagesAnthropicToOai serde system messages) =
      spoken (messages.filter fun m => ¬ Plain m) := by
  rw [messagesAnthropicToOai_eq]
  change spoken (messages.flatMap (translate serde)) = _
  induction messages with
  | nil => rfl
  | cons msg messages ih =>
    rw [List.flatMap_cons, spoken_append, ih]
    by_cases h : Plain msg
    · rw [h.spoken_translate, List.filter_cons_of_neg (by simpa using h), List.nil_append]
    · rw [spoken_translate h, List.filter_cons_of_pos (by simpa using h), ← spoken_append]
      rfl

/-- **Texts are kept** exactly when nobody speaks with a plain string, and then nothing else is
said. -/
theorem texts_kept (system : String) (messages : List Value) :
    (Kept serde system messages ↔ ∀ msg ∈ messages, Speaks msg → ¬ Plain msg) ∧
    (Kept serde system messages →
      spoken (messagesAnthropicToOai serde system messages) = spoken messages) := by
  have hsub : (messages.filter fun m => ¬ Plain m).Sublist messages := List.filter_sublist
  have hspoken : (spoken (messages.filter fun m => ¬ Plain m)).Sublist (spoken messages) :=
    (hsub.filter _).map _
  have heq : Kept serde system messages →
      spoken (messagesAnthropicToOai serde system messages) = spoken messages := by
    intro hkept
    rw [Kept, spoken_messages] at hkept
    rw [spoken_messages]
    exact hspoken.antisymm hkept
  refine ⟨⟨?_, ?_⟩, heq⟩
  · intro hkept msg hmsg hspeaks
    have hlength := congrArg List.length (heq hkept)
    rw [spoken_messages, spoken, spoken, List.length_map, List.length_map] at hlength
    have hfilter := (hsub.filter fun m => Speaks m).eq_of_length hlength
    have hmem : msg ∈ (messages.filter fun m => ¬ Plain m).filter fun m => Speaks m := by
      rw [hfilter]
      exact List.mem_filter.2 ⟨hmsg, by simpa using hspeaks⟩
    simpa using (List.mem_filter.1 (List.mem_filter.1 hmem).1).2
  · intro hblocks
    rw [Kept, spoken_messages]
    have hfilter : (messages.filter fun m => ¬ Plain m).filter (fun m => Speaks m) =
        messages.filter fun m => Speaks m := by
      rw [List.filter_filter]
      refine List.filter_congr fun m hm => ?_
      by_cases hspeaks : Speaks m
      · simp [hspeaks, hblocks m hm hspeaks]
      · simp [hspeaks]
    rw [spoken, spoken, hfilter]

/-- A prompt with a plain string, as a proxy passes it on. -/
def plainPrompt : Value :=
  .object [("content", .string "What time is it?"), ("role", .string "user")]

/-- **A prompt is dropped**: of a history with one prompt, the model sees only the system prompt. -/
theorem prompt_dropped : spoken [plainPrompt] = [("user", "What time is it?")] ∧
    messagesAnthropicToOai .emptyObject "sys" [plainPrompt] = [systemMessage "sys"] ∧
    ¬ Kept .emptyObject "sys" [plainPrompt] := by
  refine ⟨rfl, rfl, fun hkept => ?_⟩
  have hlength : (spoken [plainPrompt]).length ≤ (spoken [systemMessage "sys"]).length :=
    hkept.length_le
  exact absurd hlength (by decide)

end Flodex.LocalLlm
