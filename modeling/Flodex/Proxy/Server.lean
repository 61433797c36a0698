import Flodex.Crypto.Transport
import Flodex.Protocol.Discovery
import Flodex.Protocol.Serde

/-!
# The proxy

The proxy answers `POST /v1/messages` of the Messages API by a node: it has the coordinator match a
node, seals the conversation for it, posts it to `/proxy/complete`, and puts what it opens in the
reply into a message. `prepare` is the handler up to that request and `finish` the rest, with the
responses of the two servers as they come.

The backend is a setting of the proxy that `POST /backend` changes.
-/

namespace Flodex.Proxy

open Text

/-! ## Types -/

structure AnthropicMessagesRequest where
  model : Option String
  messages : List Value
  maxTokens : Option UInt32
  /-- A text or an array of blocks; `null` if it is missing. -/
  system : Value
  tools : List Value

inductive ProxyError
  | badRequest (msg : String)
  | coord (msg : String)
  | node (msg : String)
  | internal (msg : String)
  deriving DecidableEq

/-- A response of a server: whether its status is a success, the status as text, the body as text
(none if it is cut off), and the body as JSON. -/
structure HttpResponse (α : Type*) where
  success : Bool
  status : String
  text : Option String
  json : Except String α

/-- What a request to a server gives. -/
abbrev Fetched (α : Type*) := Except String (HttpResponse α)

/-! ## Helpers -/

def backendLabel : BackendType → String
  | .MockTee => "mock-tee"
  | .Local => "local"
  | .Fhe => "fhe"
  | .Mcp => "mcp"

def flattenSystem (v : Value) : String :=
  match v with
  | .string s => s
  | .array blocks => "\n\n".intercalate (blocks.filterMap (Value.getStr "text"))
  | _ => ""

/-- The tokens a conversation may need, from the length of its contents as JSON. -/
def estimateTokens (json : JsonText) (messages : List Value) : UInt32 :=
  let chars := (messages.map fun m =>
    ((m.get "content").map fun c => (json.write c).length).getD 0).sum
  -- the cast drops the high bits
  UInt32.ofNat (max 1 (min (chars / 4 % 2 ^ 32) 100000))

def decodePubkey (t : Transport) (b64 : String) : Except ProxyError Bytes32 := do
  let bytes ← (t.b64Decode b64).mapError fun e => .internal ("bad node pubkey b64: " ++ e)
  orThrow (Bytes.ofList? 32 bytes) (.internal "node pubkey not 32 bytes")

def hex (bytes : List UInt8) : String := .ofList (hexEncode bytes)

/-- The body of a response, if it is a success. -/
def receiveJson {α : Type*} (err : String → ProxyError) (posted refused parse : String) :
    Fetched α → Except ProxyError α
  | .error e => .error (err (posted ++ ": " ++ e))
  | .ok res =>
    if res.success then res.json.mapError fun e => err (parse ++ ": " ++ e)
    else .error (err (refused ++ " " ++ res.status ++ ": " ++ res.text.getD ""))

/-! ## `POST /v1/messages` -/

/-- What the handler draws at random for the seal: a secret, a session id and a nonce. -/
structure Draw where
  secret : Bytes32
  sid : Bytes 12
  nonce : Bytes 24

/-- A request on its way to a node. -/
structure Outgoing where
  execUrl : String
  encReq : EncryptedRequest
  nodePub : Bytes32
  key : Bytes32

variable (t : Transport) (json : JsonText)

/-- `f64::MAX`: the proxy takes a node at any price. -/
def anyPrice : PriceLimit := ⟨2 ^ 128 - 1, "17976931348623157" ++ "".pushn '0' 292⟩

/-- The node that the proxy asks the coordinator for. -/
def jobSpec (backend : BackendType) (req : AnthropicMessagesRequest) : JobSpec :=
  ⟨backend, estimateTokens json req.messages, anyPrice⟩

/-- What the node is asked to complete. -/
def chatRequest (req : AnthropicMessagesRequest) : ChatRequest :=
  ⟨flattenSystem req.system, req.messages, req.tools, req.maxTokens.getD 4096⟩

def sessionId (draw : Draw) : String := "proxy-" ++ t.b64Encode draw.sid.toList

/-- The plaintext of the request. -/
def plaintext (req : AnthropicMessagesRequest) : List UInt8 := json.write (chatRequest req).toValue

/-- The handler up to the request to the node, with the answer of the coordinator. -/
def prepare (coordUrl : String) (backend : BackendType) (req : AnthropicMessagesRequest)
    (matched : Fetched JobMatch) (draw : Draw) : Except ProxyError Outgoing := do
  let matchUrl := coordUrl ++ "/jobs/match"
  let jobMatch ← receiveJson .coord ("POST " ++ matchUrl) "coordinator match failed" "parse match"
    matched
  let nodePub ← decodePubkey t jobMatch.publicKey
  let key := t.deriveKey (t.diffieHellman draw.secret nodePub) (sessionId t draw)
  let ciphertext ← (t.encrypt key draw.nonce (plaintext json req)).mapError fun e =>
    .internal ("encrypt: " ++ e)
  pure
    { execUrl := jobMatch.url ++ "/proxy/complete"
      encReq :=
        { sessionId := sessionId t draw
          clientPublicKey := t.b64Encode (t.publicKey draw.secret).toList
          nonce := t.b64Encode draw.nonce.toList
          ciphertext := t.b64Encode ciphertext
          backend := backend
          channelId := none
          prevAck := none }
      nodePub := nodePub
      key := key }

/-- The plaintext of the reply. -/
def openReply (out : Outgoing) (fetched : Fetched EncryptedResponse) :
    Except ProxyError (List UInt8) := do
  let encResp ← receiveJson .node ("POST " ++ out.execUrl) ("node " ++ out.execUrl ++ " returned")
    "parse encrypted response" fetched
  let nonce ← (t.b64Decode encResp.nonce).mapError fun e => .internal ("bad nonce b64: " ++ e)
  let ciphertext ← (t.b64Decode encResp.ciphertext).mapError fun e =>
    .internal ("bad ciphertext b64: " ++ e)
  (t.decrypt out.key nonce ciphertext).mapError fun e => .internal ("decrypt: " ++ e)

/-- A counter of the usage, `null` if the provider has none. -/
def counter (n : Option UInt32) : Value := n.elim .null Serde.ofU32

/-- The message of a completion. -/
def repackage (backend : BackendType) (model : Option String) (id : Bytes 12)
    (result : ChatResult) : Value :=
  .object [("content", .array result.content), ("id", .string ("msg_fldx_" ++ hex id.toList)),
    ("model", .string (model.getD ("fldx-" ++ backendLabel backend))),
    ("role", .string "assistant"), ("stop_reason", .string result.stopReason),
    ("stop_sequence", .null), ("type", .string "message"),
    ("usage", .object
      [("cache_creation_input_tokens", counter result.usage.cacheCreationInputTokens),
        ("cache_read_input_tokens", counter result.usage.cacheReadInputTokens),
        ("input_tokens", Serde.ofU32 result.usage.inputTokens),
        ("output_tokens", Serde.ofU32 result.usage.outputTokens)])]

/-- The completion in a plaintext. -/
def parseResult (plaintext : List UInt8) : Except ProxyError ChatResult :=
  (json.fromSlice "ChatResult" ChatResult.ofValue plaintext).mapError fun e =>
    .internal ("parse ChatResult: " ++ e)

/-- The handler from the answer of the node on. -/
def finish (backend : BackendType) (req : AnthropicMessagesRequest) (out : Outgoing)
    (fetched : Fetched EncryptedResponse) (id : Bytes 12) : Except ProxyError Value := do
  let plaintext ← openReply t out fetched
  let result ← parseResult json plaintext
  pure (repackage backend req.model id result)

/-! ## `/backend` -/

/-- The backend that `FLDX_PROXY_BACKEND` sets. -/
def initialBackend : Option String → BackendType
  | some "mock-tee" => .MockTee
  | _ => .Local

/-- `POST /backend`: the new setting. -/
def setBackend (kind : Option String) : Except ProxyError BackendType := do
  let kind ← orThrow kind (.badRequest "missing ?type=local|mock-tee")
  if kind = "local" then pure .Local
  else if kind = "mock-tee" then pure .MockTee
  else throw (.badRequest ("unknown backend `" ++ kind ++ "`; want `local` or `mock-tee`"))

end Flodex.Proxy
