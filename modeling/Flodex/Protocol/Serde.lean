import Flodex.Agent.Loop
import Flodex.Foundations.Checked

/-!
# Messages as JSON

What `Serialize` and `Deserialize` derive for the messages that travel sealed, and the step that the
browser writes. A struct is written as an object with its fields in order. It is read from an object
in any order, where a field that is there twice is an error and an unknown one is skipped, or from
an array.

The text itself is a parameter. Reading gives back what was written up to the last bits of the
floats (`JsonText.Faithful`). `ChatRequest.ofValue_toValue` and `ChatResult.ofValue_toValue` are the
round trips, and the lemmas after them say that no kind of message is read as another one.
-/

namespace Flodex

/-- The answer of a node, sealed. -/
structure EncryptedResponse where
  sessionId : String
  nonce : String
  ciphertext : String
  receipt : Option NodeSignedReceipt

/-! ## Floats -/

namespace Value

mutual

/-- The value with its floats changed. -/
def mapFloats (f : UInt64 → UInt64) : Value → Value
  | .null => .null
  | .bool b => .bool b
  | .number (.posInt n) => .number (.posInt n)
  | .number (.negInt i) => .number (.negInt i)
  | .number (.float bits) => .number (.float (f bits))
  | .string s => .string s
  | .array items => .array (mapFloatsItems f items)
  | .object fields => .object (mapFloatsFields f fields)

def mapFloatsItems (f : UInt64 → UInt64) : List Value → List Value
  | [] => []
  | v :: items => v.mapFloats f :: mapFloatsItems f items

def mapFloatsFields (f : UInt64 → UInt64) : List (String × Value) → List (String × Value)
  | [] => []
  | (key, v) :: fields => (key, v.mapFloats f) :: mapFloatsFields f fields

end

variable (f : UInt64 → UInt64)

theorem mapFloatsItems_eq (items : List Value) :
    mapFloatsItems f items = items.map (mapFloats f) := by
  induction items with
  | nil => rfl
  | cons v items ih => rw [mapFloatsItems, ih, List.map_cons]

theorem mapFloatsFields_eq (fields : List (String × Value)) :
    mapFloatsFields f fields = fields.map fun x => (x.1, x.2.mapFloats f) := by
  induction fields with
  | nil => rfl
  | cons x fields ih => rw [mapFloatsFields, ih, List.map_cons]

end Value

/-! ## Texts -/

/-- `serde_json`: the text of a value, with the fields of its objects as they come; the value of a
text; the message for a text that is no value of a type; and the float that is read where another
one was written. -/
structure JsonText where
  write : Value → List UInt8
  read : List UInt8 → Option Value
  complaint : String → List UInt8 → String
  reread : UInt64 → UInt64

/-- What is read from the text of a value is the value, but for its floats. -/
def JsonText.Faithful (json : JsonText) : Prop :=
  ∀ v w, json.read (json.write v) = some w → w = v.mapFloats json.reread

/-- A message of a type that has `Deserialize`. -/
def JsonText.fromSlice {α : Type*} (json : JsonText) (type : String) (ofValue : Value → Option α)
    (bytes : List UInt8) : Except String α :=
  orThrow ((json.read bytes).bind ofValue) (json.complaint type bytes)

namespace Serde

/-! ## Fields -/

/-- The values that a name has. -/
def named (name : String) : List (String × Value) → List Value
  | [] => []
  | f :: fields => if f.1 = name then f.2 :: named name fields else named name fields

/-- The only value. -/
def one : List Value → Option Value
  | [v] => some v
  | _ => none

/-- The only value, if there is one. -/
def atMostOne : List Value → Option (Option Value)
  | [] => some none
  | [v] => some (some v)
  | _ => none

/-- A field that has to be there, once. -/
def required (name : String) (fields : List (String × Value)) : Option Value :=
  one (named name fields)

/-- A field that can be missing. -/
def defaulted (name : String) (fields : List (String × Value)) : Option (Option Value) :=
  atMostOne (named name fields)

def u32 : Value → Option UInt32
  | .number (.posInt n) => if n < 2 ^ 32 then some (UInt32.ofNat n) else none
  | _ => none

/-- The value of a `u32`. -/
def ofU32 (n : UInt32) : Value := .number (.posInt n.toNat)

@[simp] theorem u32_ofU32 (n : UInt32) : u32 (ofU32 n) = some n := by
  have hn : n.toNat < 2 ^ 32 := n.toNat_lt
  simp only [ofU32, u32, hn, if_true, UInt32.ofNat_toNat]

/-- An `Option<u32>`, in a field that can be missing. -/
def optU32 : Option Value → Option (Option UInt32)
  | none => some none
  | some .null => some none
  | some v => (u32 v).map some

@[simp] theorem optU32_none : optU32 none = some none := rfl

@[simp] theorem optU32_ofU32 (n : UInt32) : optU32 (some (ofU32 n)) = some (some n) := by
  have := u32_ofU32 n
  simp only [ofU32] at this ⊢
  simp only [optU32, this, Option.map_some]

def bool : Value → Option Bool
  | .bool b => some b
  | _ => none

@[simp] theorem mapFloats_ofU32 (f : UInt64 → UInt64) (n : UInt32) :
    (ofU32 n).mapFloats f = ofU32 n := rfl

end Serde

open Serde

/-! ## Usage -/

namespace Usage

def toValue (u : Usage) : Value :=
  .object ([("inputTokens", ofU32 u.inputTokens), ("outputTokens", ofU32 u.outputTokens)] ++
    (u.cacheCreationInputTokens.map fun n => ("cacheCreationInputTokens", ofU32 n)).toList ++
    (u.cacheReadInputTokens.map fun n => ("cacheReadInputTokens", ofU32 n)).toList)

/-- From the fields as an array, of which the last two can be missing. -/
def ofItems : List Value → Option Usage
  | input :: output :: rest => do
    let inputTokens ← u32 input
    let outputTokens ← u32 output
    let cacheCreation ← optU32 rest[0]?
    let cacheRead ← optU32 rest[1]?
    if rest.length ≤ 2 then pure ⟨inputTokens, outputTokens, cacheCreation, cacheRead⟩ else none
  | _ => none

def ofValue : Value → Option Usage
  | .object fields => do
    let inputTokens ← (required "inputTokens" fields).bind u32
    let outputTokens ← (required "outputTokens" fields).bind u32
    let cacheCreation ← (defaulted "cacheCreationInputTokens" fields).bind optU32
    let cacheRead ← (defaulted "cacheReadInputTokens" fields).bind optU32
    pure ⟨inputTokens, outputTokens, cacheCreation, cacheRead⟩
  | .array items => ofItems items
  | _ => none

@[simp] theorem ofValue_toValue (u : Usage) : ofValue u.toValue = some u := by
  obtain ⟨i, o, c, r⟩ := u
  cases c <;> cases r <;>
    simp only [toValue, ofValue, Option.map_some, Option.map_none, Option.toList_some,
      Option.toList_none, List.cons_append, List.nil_append, List.append_nil, required,
      defaulted] <;>
    -- the names first, since the text of a name is long to compare
    simp only [named, String.reduceEq, ↓reduceIte] <;>
    simp [one, atMostOne]

@[simp] theorem mapFloats_toValue (f : UInt64 → UInt64) (u : Usage) :
    u.toValue.mapFloats f = u.toValue := by
  obtain ⟨i, o, c, r⟩ := u
  cases c <;> cases r <;>
    simp [toValue, Value.mapFloats, Value.mapFloatsFields_eq]

end Usage

/-! ## Completions -/

namespace ChatRequest

def toValue (r : ChatRequest) : Value :=
  .object [("system", .string r.system), ("messages", .array r.messages),
    ("tools", .array r.tools), ("max_tokens", ofU32 r.maxTokens)]

def ofParts (system messages tools maxTokens : Value) : Option ChatRequest := do
  pure ⟨← system.asStr, ← messages.asArray, ← tools.asArray, ← u32 maxTokens⟩

def ofValue : Value → Option ChatRequest
  | .object fields => do
    ofParts (← required "system" fields) (← required "messages" fields)
      (← required "tools" fields) (← required "max_tokens" fields)
  | .array [system, messages, tools, maxTokens] => ofParts system messages tools maxTokens
  | _ => none

/-- The request with its floats changed. -/
def mapFloats (f : UInt64 → UInt64) (r : ChatRequest) : ChatRequest :=
  { r with
    messages := r.messages.map (Value.mapFloats f)
    tools := r.tools.map (Value.mapFloats f) }

@[simp] theorem ofValue_toValue (f : UInt64 → UInt64) (r : ChatRequest) :
    ofValue (r.toValue.mapFloats f) = some (r.mapFloats f) := by
  simp [toValue, ofValue, ofParts, mapFloats, Value.mapFloats, Value.mapFloatsFields_eq,
    Value.mapFloatsItems_eq, required, named, one, Value.asStr, Value.asArray]

end ChatRequest

namespace ChatResult

def toValue (r : ChatResult) : Value :=
  .object [("content", .array r.content), ("stop_reason", .string r.stopReason),
    ("usage", r.usage.toValue)]

def ofParts (content stopReason usage : Value) : Option ChatResult := do
  pure ⟨← content.asArray, ← stopReason.asStr, ← Usage.ofValue usage⟩

def ofValue : Value → Option ChatResult
  | .object fields => do
    ofParts (← required "content" fields) (← required "stop_reason" fields)
      (← required "usage" fields)
  | .array [content, stopReason, usage] => ofParts content stopReason usage
  | _ => none

/-- The result with its floats changed. -/
def mapFloats (f : UInt64 → UInt64) (r : ChatResult) : ChatResult :=
  { r with content := r.content.map (Value.mapFloats f) }

@[simp] theorem ofValue_toValue (f : UInt64 → UInt64) (r : ChatResult) :
    ofValue (r.toValue.mapFloats f) = some (r.mapFloats f) := by
  simp [toValue, ofValue, ofParts, mapFloats, Value.mapFloats, Value.mapFloatsFields_eq,
    Value.mapFloatsItems_eq, required, named, one, Value.asStr, Value.asArray]

end ChatResult

/-! ## Steps -/

namespace AgentStep

/-- The fields of a step, as an object without its tag. -/
def ofFields (tag : String) (fields : List (String × Value)) : Option AgentStep :=
  if tag = "prompt" then do
    pure (.prompt (← (required "prompt" fields).bind Value.asStr))
  else if tag = "toolResult" then do
    let toolUseId ← (required "toolUseId" fields).bind Value.asStr
    let content ← (required "content" fields).bind Value.asStr
    let isError ← defaulted "isError" fields
    pure (.toolResult toolUseId content (← (isError.map bool).getD (some false)))
  else none

/-- The fields of a step, as an array without its tag. -/
def ofItems (tag : String) (items : List Value) : Option AgentStep :=
  match tag, items with
  | "prompt", [text] => text.asStr.map .prompt
  | "toolResult", [toolUseId, content] => do
    pure (.toolResult (← toolUseId.asStr) (← content.asStr) false)
  | "toolResult", [toolUseId, content, isError] => do
    pure (.toolResult (← toolUseId.asStr) (← content.asStr) (← bool isError))
  | _, _ => none

def ofValue : Value → Option AgentStep
  | .object fields => do
    let tag ← (required "type" fields).bind Value.asStr
    ofFields tag (fields.filter fun f => f.1 ≠ "type")
  | .array (tag :: items) => do ofItems (← tag.asStr) items
  | _ => none

end AgentStep

namespace AgentResponse

def toValue : AgentResponse → Value
  | .final content usage =>
    .object [("type", .string "final"), ("content", .string content), ("usage", usage.toValue)]
  | .toolCall toolUseId name input usage =>
    .object [("type", .string "toolCall"), ("toolUseId", .string toolUseId),
      ("name", .string name), ("input", input), ("usage", usage.toValue)]

end AgentResponse

/-! ## No message is read as another one -/

section Apart

variable (f : UInt64 → UInt64)

/-- A request is no step. -/
@[simp] theorem AgentStep.ofValue_chatRequest (r : ChatRequest) :
    ofValue (r.toValue.mapFloats f) = none := by
  simp [ChatRequest.toValue, ofValue, Value.mapFloats, Value.mapFloatsFields_eq, required, named,
    one]

/-- A result is no step. -/
@[simp] theorem AgentStep.ofValue_chatResult (r : ChatResult) :
    ofValue (r.toValue.mapFloats f) = none := by
  simp [ChatResult.toValue, ofValue, Value.mapFloats, Value.mapFloatsFields_eq, required, named,
    one]

/-- A response is no step. -/
@[simp] theorem AgentStep.ofValue_response (r : AgentResponse) :
    ofValue (r.toValue.mapFloats f) = none := by
  cases r <;> simp [AgentResponse.toValue, ofValue, ofFields, Value.mapFloats,
    Value.mapFloatsFields_eq, required, named, one, Value.asStr]

/-- A result is no request. -/
@[simp] theorem ChatRequest.ofValue_chatResult (r : ChatResult) :
    ofValue (r.toValue.mapFloats f) = none := by
  simp [ChatResult.toValue, ofValue, Value.mapFloats, Value.mapFloatsFields_eq, required, named,
    one]

/-- A response is no request. -/
@[simp] theorem ChatRequest.ofValue_response (r : AgentResponse) :
    ofValue (r.toValue.mapFloats f) = none := by
  cases r <;> simp [AgentResponse.toValue, ofValue, Value.mapFloats, Value.mapFloatsFields_eq,
    required, named, one]

/-- A request is no result. -/
@[simp] theorem ChatResult.ofValue_chatRequest (r : ChatRequest) :
    ofValue (r.toValue.mapFloats f) = none := by
  simp [ChatRequest.toValue, ofValue, Value.mapFloats, Value.mapFloatsFields_eq, required, named,
    one]

end Apart

end Flodex
