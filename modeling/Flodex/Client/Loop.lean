import Flodex.Foundations.Traced
import Flodex.Protocol.Wire

/-!
# The loop of the client

`runAgentLoop` drives an agent from the browser: it sends a step, has the receipt of the answer
signed, and goes on with the result of a tool until the answer is final. The acks it signs travel
with the requests that follow.

What a node answers is any JSON, and so is what the loop reads from it. The browser around the loop
answers every effect from all the effects before it.
-/

namespace Flodex.Client

/-! ## Values of the language -/

/-- A property of a parsed value, where `none` is `undefined`. `null` has no properties. -/
def property (v : Value) (key : String) : Except String (Option Value) :=
  match v with
  | .null => .error s!"Cannot read properties of null (reading '{key}')"
  | v => .ok (v.get key)

/-- Whether a value is truthy: a float is not if it is a zero or no number. -/
def truthy : Value → Bool
  | .null => false
  | .bool b => b
  | .number (.posInt n) => n ≠ 0
  | .number (.negInt i) => i ≠ 0
  | .number (.float bits) => bits <<< 1 ≠ 0 ∧ bits <<< 1 ≤ 0xffe0000000000000
  | .string s => s ≠ ""
  | .array _ => true
  | .object _ => true

/-- `v ?? undefined`. -/
def nullish : Option Value → Option Value
  | some .null => none
  | v => v

/-! ## Types -/

/-- `AgentStep`, with the id of a tool call as the node gave it. -/
inductive AgentStep
  | prompt (prompt : String)
  | toolResult (toolUseId : Option Value) (content : String) (isError : Bool)

structure SendStepOptions where
  nodeUrl : String
  backend : BackendType
  nodePub : List UInt8
  sessionId : String
  step : AgentStep
  channelId : Option String
  prevAck : Option ClientAck

structure SendStepResult where
  response : Value
  receipt : Option Value

/-- The events for the user interface. -/
inductive AgentEvent
  | requestStart (sessionId : String) (attempt : ℕ)
  | response (sessionId : String) (response : Value)
  | toolCallStart (sessionId : String) (name input : Option Value)
  | toolCallEnd (sessionId : String) (name : Option Value) (isError : Bool)
  | final (sessionId : String) (content : Option Value)
  | receipt (sessionId : String) (receipt : Value) (ack : Option ClientAck)
  | error (sessionId message : String)

/-- What happens in a run, in order: events, requests to `/execute` and to `/ack`, what `sendStep`
made of an answer, and signatures. -/
inductive Effect
  | event (event : AgentEvent)
  | execute (nodeUrl : String) (req : EncryptedRequest)
  | ack (nodeUrl : String) (ack : ClientAck)
  | answered (result : SendStepResult)
  | signed (receipt : Value) (ack : ClientAck)

/-- The computations of the browser. An error is the message of what is thrown. -/
abbrev Async := Traced Effect String

/-- A response of a server, whose body can be cut off. -/
structure FetchResponse where
  ok : Bool
  status : ℕ
  text : Except String String
  json : Except String Value

/-- A step for the node, and the key its answer is sealed with. -/
structure Sealed where
  clientPublicKey : String
  nonce : String
  ciphertext : String
  key : Bytes32

/-- What the loop is run in: the randomness and the encryption of requests, the network, the
decryption of answers, and the text of a value in a template. -/
structure Browser where
  encrypt : List Effect → List UInt8 → String → AgentStep → Except String Sealed
  fetch : List Effect → Except String FetchResponse
  decrypt : Bytes32 → Value → Except String Value
  text : Option Value → Except String String

structure ToolResult where
  content : String
  isError : Bool

/-- A tool, given its input. -/
abbrev ToolHandler := Option Value → List Effect → Except String ToolResult

/-- The arguments of `runAgentLoop`. `tools` is the lookup by any value of a name. -/
structure Args where
  nodeUrl : String
  nodePub : List UInt8
  backend : BackendType
  sessionId : String
  prompt : String
  tools : Option Value → Except String (Option ToolHandler)
  channelId : Option String
  signAck : Option (Value → List Effect → Except String ClientAck)

/-! ## Transport -/

variable (browser : Browser)

/-- The check of `res.ok`. -/
def checkOk (url : String) (res : FetchResponse) : Except String Unit :=
  if res.ok then .ok ()
  else do
    let text ← res.text
    throw s!"POST {url} failed: {res.status} {text}"

/-- What `sendStep` makes of the answer to its request. -/
def readAnswer (url : String) (key : Bytes32) (h : List Effect) :
    Except String SendStepResult := do
  let res ← browser.fetch h
  checkOk (url ++ "/execute") res
  let enc ← res.json
  let response ← browser.decrypt key enc
  let receipt ← property enc "receipt"
  pure ⟨response, nullish receipt⟩

def sendStep (opts : SendStepOptions) : Async SendStepResult := do
  let sealed ← Traced.ask fun h => browser.encrypt h opts.nodePub opts.sessionId opts.step
  Traced.perform (.execute opts.nodeUrl
    { sessionId := opts.sessionId, clientPublicKey := sealed.clientPublicKey,
      nonce := sealed.nonce, ciphertext := sealed.ciphertext, backend := opts.backend,
      channelId := opts.channelId.filter (· ≠ ""), prevAck := opts.prevAck })
  Traced.ask (readAnswer browser opts.nodeUrl sealed.key)

def postAck (nodeUrl : String) (ack : ClientAck) : Async Unit := do
  Traced.perform (.ack nodeUrl ack)
  Traced.ask fun h => do
    let res ← browser.fetch h
    checkOk (nodeUrl ++ "/ack") res

/-! ## The loop -/

variable (args : Args)

/-- The variables of the loop. -/
structure Loop where
  step : AgentStep
  attempt : ℕ
  prevAck : Option ClientAck

def emit (event : AgentEvent) : Async Unit := Traced.perform (.event event)

/-- The ack of a receipt. -/
def sign (signAck : Value → List Effect → Except String ClientAck) (receipt : Value) :
    Async ClientAck := do
  let ack ← Traced.ask (signAck receipt)
  Traced.perform (.signed receipt ack)
  pure ack

/-- `if (receipt) { … }`: the ack for the next request. -/
def acknowledge (prevAck : Option ClientAck) (receipt : Option Value) : Async (Option ClientAck) :=
  match receipt.filter truthy with
  | none => pure prevAck
  | some receipt => do
    let ack ← (match args.signAck with
      | none => pure none
      | some signAck =>
        Traced.handle (do let ack ← sign signAck receipt; pure (some ack)) fun message => do
          emit (.error args.sessionId ("signAck: " ++ message))
          pure none)
    emit (.receipt args.sessionId receipt ack)
    pure (ack.or prevAck)

/-- `response.type === "final"`. -/
def isFinal (response : Value) : Except String Bool := do
  let type ← property response "type"
  pure (type.bind Value.asStr = some "final")

/-- The tool that a response calls. -/
def callTool (response : Value) : Async AgentStep := do
  let name ← Traced.ofExcept (property response "name")
  let handler ← Traced.ofExcept (args.tools name)
  let input ← Traced.ofExcept (property response "input")
  emit (.toolCallStart args.sessionId name input)
  let result ← (match handler with
    | some handler => Traced.ask (handler input)
    | none => do
      let text ← Traced.ofExcept (browser.text name)
      pure ⟨"unknown client tool: " ++ text, true⟩)
  emit (.toolCallEnd args.sessionId name result.isError)
  let toolUseId ← Traced.ofExcept (property response "toolUseId")
  pure (.toolResult toolUseId result.content result.isError)

/-- What the loop does with a response: it returns its content, or calls a tool. -/
def proceed (response : Value) : Async (Option Value ⊕ AgentStep) := do
  let final ← Traced.ofExcept (isFinal response)
  if final then
    let content ← Traced.ofExcept (property response "content")
    emit (.final args.sessionId content)
    pure (.inl content)
  else
    let step ← callTool browser args response
    pure (.inr step)

/-- A round of the loop: what it returns, or how it goes on. -/
def round (s : Loop) : Async (Option Value ⊕ Loop) := do
  let attempt := s.attempt + 1
  emit (.requestStart args.sessionId attempt)
  let result ← Traced.handle
    (sendStep browser
      { nodeUrl := args.nodeUrl, backend := args.backend, nodePub := args.nodePub,
        sessionId := args.sessionId, step := s.step, channelId := args.channelId,
        prevAck := s.prevAck })
    fun message => do
      emit (.error args.sessionId message)
      Traced.fail message
  Traced.perform (.answered result)
  emit (.response args.sessionId result.response)
  let prevAck ← acknowledge args s.prevAck result.receipt
  let next ← proceed browser args result.response
  pure (next.map id fun step => ⟨step, attempt, prevAck⟩)

/-- The rounds of the loop, up to a number. -/
def rounds : ℕ → Loop → Async (Option (Option Value))
  | 0, _ => pure none
  | fuel + 1, s => do
    match ← round browser args s with
    | .inl content => pure (some content)
    | .inr s => rounds fuel s

/-- `runAgentLoop`: `none` says that it did not return within so many rounds. -/
def runAgentLoop (fuel : ℕ) : Async (Option (Option Value)) :=
  rounds browser args fuel ⟨.prompt args.prompt, 0, none⟩

end Flodex.Client
