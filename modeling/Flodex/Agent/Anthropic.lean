import Flodex.Foundations.Text
import Flodex.Protocol.Serde

/-!
# The hosted provider

`AnthropicProvider` asks the Messages API: the conversation and the tools go there as they come, the
system prompt in a block that is cached, and the content and the stop reason come back as they are.
-/

namespace Flodex

open Text Serde

variable {W : Type*}

/-! ## Messages -/

structure MessagesRequest where
  model : String
  maxTokens : UInt32
  messages : List Value
  system : Option (List Value)
  tools : Option (List Value)
  thinking : Option Value

/-- An absent option is left out. -/
def MessagesRequest.toValue (r : MessagesRequest) : Value :=
  .object ([("model", .string r.model), ("max_tokens", ofU32 r.maxTokens),
      ("messages", .array r.messages)] ++
    (r.system.map fun blocks => ("system", Value.array blocks)).toList ++
    (r.tools.map fun tools => ("tools", Value.array tools)).toList ++
    (r.thinking.map fun v => ("thinking", v)).toList)

/-- `AnthropicUsage`, which has the names of the API. -/
def anthropicUsage : Value → Option Usage
  | .object fields => do
    let inputTokens ← defaulted "input_tokens" fields
    let outputTokens ← defaulted "output_tokens" fields
    let cacheCreation ← (defaulted "cache_creation_input_tokens" fields).bind optU32
    let cacheRead ← (defaulted "cache_read_input_tokens" fields).bind optU32
    pure ⟨← (inputTokens.map u32).getD (some 0), ← (outputTokens.map u32).getD (some 0),
      cacheCreation, cacheRead⟩
  | .array items =>
    if items.length ≤ 4 then do
      pure ⟨← (items[0]?.map u32).getD (some 0), ← (items[1]?.map u32).getD (some 0),
        ← optU32 items[2]?, ← optU32 items[3]?⟩
    else none
  | _ => none

structure MessagesResponse where
  content : List Value
  stopReason : String
  usage : Usage

def MessagesResponse.ofValue : Value → Option MessagesResponse
  | .object fields => do
    let content ← (required "content" fields).bind Value.asArray
    let stopReason ← (required "stop_reason" fields).bind Value.asStr
    let usage ← defaulted "usage" fields
    pure ⟨content, stopReason, ← (usage.map anthropicUsage).getD (some .zero)⟩
  | .array [content, stopReason] => do
    pure ⟨← content.asArray, ← stopReason.asStr, .zero⟩
  | .array [content, stopReason, usage] => do
    pure ⟨← content.asArray, ← stopReason.asStr, ← anthropicUsage usage⟩
  | _ => none

/-! ## The client -/

/-- A response whose body is read as text, which can fail. -/
structure TextResponse where
  success : Bool
  status : String
  text : Except String String

/-- The client of the API: its key, and the network that it posts a body with headers to. -/
structure AnthropicClient (W : Type*) where
  apiKey : String
  post : W → String → List (String × String) → Value → Except String TextResponse × W

namespace AnthropicClient

/-- `API_URL`. -/
def apiUrl : String := "https://api.anthropic.com/v1/messages"

/-- `API_VERSION`. -/
def apiVersion : String := "2023-06-01"

variable (client : AnthropicClient W) (json : JsonText)

def headers : List (String × String) :=
  [("x-api-key", client.apiKey), ("anthropic-version", apiVersion),
    ("content-type", "application/json")]

/-- What is made of a response. -/
def readResponse (res : TextResponse) : Except String MessagesResponse := do
  let body ← res.text.mapError fun e => "reading anthropic response body: " ++ e
  if res.success then
    (json.fromSlice "MessagesResponse" MessagesResponse.ofValue (utf8 body.toList)).mapError
      fun e => "parsing anthropic response: " ++ e ++ "; body: " ++ body
  else throw ("anthropic " ++ res.status ++ ": " ++ body)

/-- The response in a body that is a success. -/
theorem readResponse_of_read {json : JsonText} {status body : String} {v : Value}
    {resp : MessagesResponse} (hread : json.read (utf8 body.toList) = some v)
    (hvalue : MessagesResponse.ofValue v = some resp) :
    readResponse json ⟨true, status, .ok body⟩ = .ok resp := by
  simp only [readResponse, Except.mapError, bind, Except.bind, if_true, JsonText.fromSlice, hread,
    Option.bind_some, hvalue, orThrow, Option.elim_some]

def messages (w : W) (req : MessagesRequest) : Except String MessagesResponse × W :=
  match client.post w apiUrl client.headers req.toValue with
  | (.error e, w) => (.error ("anthropic request failed: " ++ e), w)
  | (.ok res, w) => (readResponse json res, w)

end AnthropicClient

/-! ## The provider -/

structure AnthropicProvider (W : Type*) where
  client : AnthropicClient W
  model : String

namespace AnthropicProvider

variable (provider : AnthropicProvider W) (json : JsonText)

/-- The request for the API. -/
def messagesRequest (req : ChatRequest) : MessagesRequest where
  model := provider.model
  maxTokens := req.maxTokens
  messages := req.messages
  system := some [.object [("cache_control", .object [("type", .string "ephemeral")]),
    ("text", .string req.system), ("type", .string "text")]]
  tools := some req.tools
  thinking := some (.object [("type", .string "adaptive")])

def complete (w : W) (req : ChatRequest) : Except String ChatResult × W :=
  match provider.client.messages json w (provider.messagesRequest req) with
  | (.error e, w) => (.error e, w)
  | (.ok resp, w) => (.ok ⟨resp.content, resp.stopReason, resp.usage⟩, w)

/-- The provider asks the API once. -/
theorem complete_of_post {provider : AnthropicProvider W} {json : JsonText} {w w' : W}
    {req : ChatRequest} {res : TextResponse} {resp : MessagesResponse}
    (hpost : provider.client.post w AnthropicClient.apiUrl provider.client.headers
      (provider.messagesRequest req).toValue = (.ok res, w'))
    (hresp : AnthropicClient.readResponse json res = .ok resp) :
    provider.complete json w req = (.ok ⟨resp.content, resp.stopReason, resp.usage⟩, w') := by
  simp only [complete, AnthropicClient.messages, hpost, hresp]

end AnthropicProvider

end Flodex
