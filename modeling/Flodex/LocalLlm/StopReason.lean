import Flodex.LocalLlm.OpenAi

/-!
# The stop reason and the calls

The agent loop decides by the stop reason of a result what to do with its blocks: it runs the calls
of a `tool_use`, which must have some, and takes the text of an `end_turn`. The provider derives the
stop reason from one field of the completion and the calls from another, which a server can fill
independently. `stop_contract` says when the loop is served well: when the fields agree.
-/

namespace Flodex.LocalLlm

/-- The first choice of a completion. -/
def firstChoice (body : Value) : Option Value := (body.getArray "choices").bind List.head?

/-- The reason for which the completion ended. -/
def finishReason (body : Value) : String :=
  ((firstChoice body).bind (Value.getStr "finish_reason")).getD "stop"

/-- The calls that the completion asks for. -/
def requestedCalls (body : Value) : List Value :=
  (((firstChoice body).bind (Value.get "message")).map toolCalls).getD []

/-- The block is a call. -/
def IsCall (block : Value) : Prop := blockType block = "tool_use"

variable {W : Type*}

/-- What the agent loop relies on: the stop reason is `tool_use` exactly when there are calls. So
the loop never ends with calls in hand, and never misses them. -/
structure Contract (agent : AgentLoop W) (r : ChatResult) : Prop where
  toolUse_iff : r.stopReason = "tool_use" ↔ ∃ b ∈ r.content, IsCall b
  final : ∀ w messages usage text total,
    (agent.respond w messages usage r).exit = some (.ok (.final text total)) →
    ∀ b ∈ r.content, ¬ IsCall b
  noToolUse : ∀ w messages usage,
    (agent.respond w messages usage r).exit ≠ some (.error .noToolUse)

variable {agent : AgentLoop W} {serde : SerdeJson} {body : Value} {r : ChatResult}

/-! ## The loop -/

/-- The loop ends a turn with a text only when the stop reason tells it to. -/
theorem stopReason_of_final {w : W} {messages : List Value} {usage total : Usage} {text : String}
    (h : (agent.respond w messages usage r).exit = some (.ok (.final text total))) :
    r.stopReason = "end_turn" := by
  by_contra hend
  unfold AgentLoop.respond at h
  dsimp only at h
  rw [if_neg hend] at h
  split_ifs at h
  · cases h
  · cases h
  · cases hclient : (collectToolUses r.content).find? agent.callsClient with
    | none => simp only [hclient] at h; cases h
    | some u => simp only [hclient] at h; cases h
  · cases h

/-- The loop misses calls only when there are none. -/
theorem of_noToolUse {w : W} {messages : List Value} {usage : Usage}
    (h : (agent.respond w messages usage r).exit = some (.error .noToolUse)) :
    r.stopReason = "tool_use" ∧ collectToolUses r.content = [] := by
  unfold AgentLoop.respond at h
  dsimp only at h
  split_ifs at h with hend huse hempty
  · cases h
  · exact ⟨huse, List.isEmpty_iff.1 hempty⟩
  · cases h
  · cases hclient : (collectToolUses r.content).find? agent.callsClient with
    | none => simp only [hclient] at h; cases h
    | some u => simp only [hclient] at h; cases h
  · cases h

/-! ## The provider -/

theorem stopReason_eq_toolUse {finish : String} (h : finish = "stop" ∨ finish = "tool_calls") :
    stopReason finish = "tool_use" ↔ finish = "tool_calls" := by
  rcases h with rfl | rfl <;> decide

/-- What the provider makes of an accepted completion, by its finish reason and its calls. -/
theorem response_spec (hr : responseOaiToAnthropic serde body = .ok r) :
    r.stopReason = stopReason (finishReason body) ∧
    ∃ m, r.content = textBlocks m ++ (requestedCalls body).map (toolUseBlock serde) := by
  obtain ⟨choice, m, hchoice, hm, rfl⟩ := responseOaiToAnthropic_eq_ok.1 hr
  refine ⟨?_, m, ?_⟩
  · simp only [finishReason, firstChoice, hchoice, Option.bind_some]
  · simp only [requestedCalls, firstChoice, hchoice, Option.bind_some, hm, Option.map_some,
      Option.getD_some]

/-- The result has a call exactly when the completion has one. -/
theorem exists_isCall (hr : responseOaiToAnthropic serde body = .ok r) :
    (∃ b ∈ r.content, IsCall b) ↔ requestedCalls body ≠ [] := by
  obtain ⟨-, m, hcontent⟩ := response_spec hr
  rw [hcontent]
  constructor
  · rintro ⟨b, hb, hcall⟩ hnone
    rw [hnone, List.map_nil, List.append_nil] at hb
    rw [IsCall, blockType_of_textBlocks hb] at hcall
    exact absurd hcall (by decide)
  · intro hne
    obtain ⟨c, hc⟩ := List.exists_mem_of_ne_nil _ hne
    exact ⟨toolUseBlock serde c, List.mem_append_right _ (List.mem_map_of_mem hc), rfl⟩

/-- The loop sees every call of the result: the provider gives each an id and a name. -/
theorem collectToolUses_ne_nil (hr : responseOaiToAnthropic serde body = .ok r)
    (hne : requestedCalls body ≠ []) : collectToolUses r.content ≠ [] := by
  obtain ⟨-, m, hcontent⟩ := response_spec hr
  obtain ⟨c, hc⟩ := List.exists_mem_of_ne_nil _ hne
  let use : ToolUse := ⟨(c.getStr "id").getD "", (functionStr "name" c).getD "",
    (serde.fromStr ((functionStr "arguments" c).getD "\x7b\x7d")).toOption.getD .null⟩
  refine List.ne_nil_of_mem (a := use) ?_
  rw [collectToolUses, List.mem_filterMap]
  refine ⟨toolUseBlock serde c, List.mem_filter.2 ⟨?_, decide_eq_true rfl⟩, rfl⟩
  rw [hcontent]
  exact List.mem_append_right _ (List.mem_map_of_mem hc)

/-- **The contract is kept** by an accepted completion that stops or calls tools exactly when its
finish reason agrees with its calls. -/
theorem stop_contract (agent : AgentLoop W) (hr : responseOaiToAnthropic serde body = .ok r)
    (hfinish : finishReason body = "stop" ∨ finishReason body = "tool_calls") :
    Contract agent r ↔ (finishReason body = "tool_calls" ↔ requestedCalls body ≠ []) := by
  have hstop : r.stopReason = "tool_use" ↔ finishReason body = "tool_calls" := by
    rw [(response_spec hr).1, stopReason_eq_toolUse hfinish]
  constructor
  · intro hcontract
    rw [← hstop, ← exists_isCall hr]
    exact hcontract.toolUse_iff
  · intro hagree
    refine ⟨by rw [hstop, hagree, exists_isCall hr], ?_, ?_⟩
    · intro w messages usage text total hfinal b hb hcall
      have huse : r.stopReason = "tool_use" :=
        hstop.2 (hagree.2 ((exists_isCall hr).1 ⟨b, hb, hcall⟩))
      rw [stopReason_of_final hfinal] at huse
      exact absurd huse (by decide)
    · intro w messages usage herror
      obtain ⟨huse, hnone⟩ := of_noToolUse herror
      exact collectToolUses_ne_nil hr (hagree.1 (hstop.1 huse)) hnone

/-! ## Completions whose fields disagree -/

/-- An agent whose model answers with a completion. -/
def answering (body : Value) : AgentLoop Unit where
  provider w _ := (responseOaiToAnthropic .emptyObject body, w)
  maxTokens := 16000
  systemPrompt := "sys"
  registry := []

/-- **A call is dropped, and a turn is lost**: a completion that stops with a call in it ends the
step with its text, and one that calls tools without naming any fails the step. -/
theorem call_dropped :
    (∃ r, responseOaiToAnthropic .emptyObject (completionOf "stop" [currentTime]) = .ok r ∧
      (∃ b ∈ r.content, IsCall b) ∧ ∃ total session,
      (answering (completionOf "stop" [currentTime])).step 1 () [] (.prompt "What time is it?") =
        some (.ok (.final "ok" total), session, ())) ∧
    ∃ session,
      (answering (completionOf "tool_calls" [])).step 1 () [] (.prompt "What time is it?") =
        some (.error .noToolUse, session, ()) :=
  ⟨⟨_, rfl, ⟨_, List.mem_append_right _ (.head _), rfl⟩, _, _, rfl⟩, _, rfl⟩

/-- A completion that calls a tool and names it keeps the contract. -/
theorem stop_contract_calling : ∃ r,
    responseOaiToAnthropic .emptyObject (completionOf "tool_calls" [currentTime]) = .ok r ∧
    r.stopReason = "tool_use" ∧
      Contract (answering (completionOf "tool_calls" [currentTime])) r := by
  obtain ⟨r, hr⟩ : ∃ r, responseOaiToAnthropic .emptyObject
    (completionOf "tool_calls" [currentTime]) = .ok r := ⟨_, rfl⟩
  have hagree : finishReason (completionOf "tool_calls" [currentTime]) = "tool_calls" ↔
      requestedCalls (completionOf "tool_calls" [currentTime]) ≠ [] :=
    ⟨fun _ => List.cons_ne_nil _ _, fun _ => rfl⟩
  refine ⟨r, hr, ?_, (stop_contract _ hr (.inr rfl)).2 hagree⟩
  rw [(response_spec hr).1]
  rfl

end Flodex.LocalLlm
