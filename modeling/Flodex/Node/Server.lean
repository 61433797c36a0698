import Flodex.Foundations.Run
import Flodex.Node.Channels

/-!
# The node

The node answers `/execute` in stages: it opens the envelope, passes the gate, runs a step of the
agent, and charges the channel. Each stage ends where the code awaits or takes a lock, so that any
number of requests interleave between the stages. The environment decides the order, what
`eth_call` returns, and what the world of the providers and tools is in each step.

A step of the agent is one action, since the lock of its session is held until it returns; a step
with too little fuel has not returned, and leaves the state as it is.
-/

namespace Flodex.Node

open Function

variable {W : Type*}

/-! ## Configuration -/

/-- The encryption of requests: what stands behind `B64.decode`, the key agreement with
`derive_key`, `decrypt`, and the parser of the plaintext. -/
structure Envelope where
  b64Decode : String → Except String (List UInt8)
  deriveKey : Bytes32 → String → Bytes32
  decrypt : Bytes32 → List UInt8 → List UInt8 → Except String (List UInt8)
  parseStep : List UInt8 → Except String AgentStep

/-- The part of the node's state that never changes. -/
structure Config (W : Type*) extends ChannelConfig where
  envelope : Envelope
  mockTee : Option (AgentLoop W)
  localLlm : Option (AgentLoop W)

/-! ## The activity log -/

/-- The sessions the node reports. -/
abbrev ActivityLog := String → Option RequestRecord

namespace ActivityLog

/-- `ACTIVITY_RETENTION_MS`. -/
def retentionMs : ℤ := 30000

variable (log : ActivityLog) (now : ℤ) (sessionId : String)

def beginStep (backend : BackendType) : ActivityLog :=
  let entry := (log sessionId).getD ⟨sessionId, backend, now, now, none, .Running, 0, none⟩
  update log sessionId (some { entry with
    stepCount := saturatingAdd 32 entry.stepCount 1, lastUpdateMs := now, status := .Running,
    endedAtMs := none })

def endStep (status : RequestStatus) (toolName : Option String) : ActivityLog :=
  match log sessionId with
  | none => log
  | some entry => update log sessionId (some { entry with
      lastUpdateMs := now, status := status,
      lastToolName := if toolName.isSome then toolName else entry.lastToolName,
      endedAtMs := if status = .Final ∨ status = .Error then some now else none })

/-- The records that a snapshot keeps and reports. -/
def snapshot : ActivityLog := fun id =>
  (log id).filter fun r => match r.endedAtMs with
    | none => true
    | some ended => now - ended < retentionMs

end ActivityLog

/-! ## State -/

/-- The body of a response, before it is sealed for the client. -/
structure Reply where
  sessionId : String
  response : AgentResponse
  receipt : Option NodeSignedReceipt

/-- How far a request got. -/
inductive Stage
  | opened (step : AgentStep)
  | asked (step : AgentStep) (cumOwed : ℕ)
  | fetched (step : AgentStep) (cumOwed : ℕ) (returndata : Except String (List UInt8))
  | admitted (step : AgentStep)
  | answered (response : AgentResponse)
  | done (reply : Except ApiError Reply)

/-- A request and how far it got. -/
structure Flight where
  req : EncryptedRequest
  stage : Stage

structure State where
  sessions : BackendType → String → Option (List Value)
  activity : ActivityLog
  channels : ChannelMap
  flights : ℕ → Option Flight
  received : ℕ

/-- The state of a node that just started. -/
def State.start : State := ⟨fun _ _ => none, fun _ => none, fun _ => none, fun _ => none, 0⟩

namespace State

variable (s : State)

/-- The request got to the stage. -/
def setStage (k : ℕ) (req : EncryptedRequest) (stage : Stage) : State :=
  { s with flights := update s.flights k (some ⟨req, stage⟩) }

/-- The request fails: its guard is dropped. -/
def fail (k : ℕ) (req : EncryptedRequest) (now : ℤ) (e : ApiError) : State :=
  { s.setStage k req (.done (.error e)) with
    activity := s.activity.endStep now req.sessionId .Error none }

end State

/-! ## The stages of `/execute` -/

variable (cfg : Config W) (s : State)

def decodeClientPub (key : String) : Except ApiError Bytes32 := do
  let bytes ← (cfg.envelope.b64Decode key).mapError fun e =>
    .badRequest "invalid client public key b64: " (some (.text e))
  orThrow (Bytes.ofList? 32 bytes) (.badRequest "client public key must be 32 bytes" none)

/-- Open the envelope of a request. -/
def openRequest (req : EncryptedRequest) : Except ApiError AgentStep := do
  let clientPub ← decodeClientPub cfg req.clientPublicKey
  let key := cfg.envelope.deriveKey clientPub req.sessionId
  let nonce ← (cfg.envelope.b64Decode req.nonce).mapError fun e =>
    .badRequest "invalid nonce b64: " (some (.text e))
  let ciphertext ← (cfg.envelope.b64Decode req.ciphertext).mapError fun e =>
    .badRequest "invalid ciphertext b64: " (some (.text e))
  let plaintext ← (cfg.envelope.decrypt key nonce ciphertext).mapError fun e =>
    .badRequest "decrypt: " (some (.text e))
  (cfg.envelope.parseStep plaintext).mapError fun e =>
    .badRequest "plaintext is not a valid AgentStep: " (some (.text e))

/-- The agent of a backend. -/
def agentOf : BackendType → Except ApiError (AgentLoop W)
  | .MockTee => orThrow cfg.mockTee
    (.notImplemented "mock-tee not configured — set ANTHROPIC_API_KEY to enable")
  | .Local => orThrow cfg.localLlm
    (.notImplemented "local not configured — set FLDX_LLAMA_MODEL to enable")
  | .Fhe => .error (.notImplemented "backend Fhe not wired yet")
  | .Mcp => .error (.notImplemented "backend Mcp not wired yet")

/-- A request arrives and is opened. -/
def receive (req : EncryptedRequest) (now : ℤ) : State :=
  let k := s.received
  let s := { s with
    received := k + 1, activity := s.activity.beginStep now req.sessionId req.backend }
  match openRequest cfg req, agentOf cfg req.backend with
  | .ok step, .ok _ => s.setStage k req (.opened step)
  | .error e, _ => s.fail k req now e
  | .ok _, .error e => s.fail k req now e

/-- What the gate decides once it knows the deposit. -/
def passGate (k : ℕ) (req : EncryptedRequest) (step : AgentStep) (now : ℤ) (idHex : String)
    (deposit cumOwed : ℕ) : State :=
  match checkSolvent idHex deposit cumOwed with
  | .ok () => s.setStage k req (.admitted step)
  | .error e => s.fail k req now e

/-- The gate, up to the `eth_call` where it needs one. -/
def gate (k : ℕ) (req : EncryptedRequest) (step : AgentStep) (now : ℤ) : State :=
  match req.channelId with
  | none => s.setStage k req (.admitted step)
  | some idHex =>
    match gateChannel cfg.toChannelConfig idHex with
    | .error e => s.fail k req now e
    | .ok (_, _, id) =>
      match gateRead s.channels id with
      | (some deposit, cumOwed) => passGate s k req step now idHex deposit cumOwed
      | (none, cumOwed) => s.setStage k req (.asked step cumOwed)

/-- The gate after the `eth_call`: the deposit is cached and compared with the amount that was owed
before the call. -/
def gateFetched (k : ℕ) (req : EncryptedRequest) (step : AgentStep) (now : ℤ) (cumOwed : ℕ)
    (returndata : Except String (List UInt8)) : State :=
  match req.channelId with
  | none => s
  | some idHex =>
    match gateChannel cfg.toChannelConfig idHex with
    | .error e => s.fail k req now e
    | .ok (_, _, id) =>
      match returndata with
      | .error e => s.fail k req now (.internal "channels() eth_call: " (some (.text e)))
      | .ok data =>
        match decodeChannelDeposit data with
        | .error e => s.fail k req now (.internal "decode channels(): " (some (.text e)))
        | .ok deposit =>
          passGate { s with channels := cacheDeposit s.channels id deposit } k req step now idHex
            deposit cumOwed

/-- The step of the backend, on the session of the request. -/
def backendStep (k : ℕ) (req : EncryptedRequest) (step : AgentStep) (fuel : ℕ) (w : W) (now : ℤ) :
    State :=
  match agentOf cfg req.backend with
  | .error e => s.fail k req now e
  | .ok agent =>
    let session := (s.sessions req.backend req.sessionId).getD []
    match agent.step fuel w session (.ofStep step) with
    | none => s
    | some (r, session, _) =>
      let sessions := update s.sessions req.backend
        (update (s.sessions req.backend) req.sessionId (some session))
      let s := { s with sessions := sessions }
      match r with
      | .error e => s.fail k req now (.internal "backend step: " (some (.agent e)))
      | .ok outcome => s.setStage k req (.answered (outcome.toResponse))

/-- The status of the session after a response. -/
def resolution : AgentResponse → RequestStatus × Option String
  | .final .. => (.Final, none)
  | .toolCall _ name _ _ => (.WaitingTool, some name)

/-- The guard of the request is resolved, and the client gets its response. -/
def reply (k : ℕ) (req : EncryptedRequest) (response : AgentResponse)
    (receipt : Option NodeSignedReceipt) (now : ℤ) : State :=
  let (status, toolName) := resolution response
  { s.setStage k req (.done (.ok ⟨req.sessionId, response, receipt⟩)) with
    activity := s.activity.endStep now req.sessionId status toolName }

/-- The receipt and the response. -/
def respond (k : ℕ) (req : EncryptedRequest) (response : AgentResponse) (now : ℤ) : State :=
  match req.channelId with
  | none => reply s k req response none now
  | some idHex =>
    match buildReceipt cfg.toChannelConfig s.channels idHex req.backend req.sessionId
      response.usage req.prevAck with
    | (channels, .error e) => { s with channels := channels }.fail k req now e
    | (channels, .ok receipt) => reply { s with channels := channels } k req response receipt now

/-! ## The machine -/

/-- The actions of the environment, each on the request it lets go on. -/
inductive Action (W : Type*)
  | receive (req : EncryptedRequest) (now : ℤ)
  | gate (k : ℕ) (now : ℤ)
  | ethCall (k : ℕ) (returndata : Except String (List UInt8))
  | gateFetched (k : ℕ) (now : ℤ)
  | backendStep (k fuel : ℕ) (w : W) (now : ℤ)
  | respond (k : ℕ) (now : ℤ)
  | ack (ack : ClientAck)
  | snapshot (now : ℤ)

/-- The state after an action; one on a request that is not at its stage does nothing. -/
def next (s : State) : Action W → State
  | .receive req now => receive cfg s req now
  | .gate k now =>
    match s.flights k with
    | some ⟨req, .opened step⟩ => gate cfg s k req step now
    | _ => s
  | .ethCall k returndata =>
    match s.flights k with
    | some ⟨req, .asked step cumOwed⟩ => s.setStage k req (.fetched step cumOwed returndata)
    | _ => s
  | .gateFetched k now =>
    match s.flights k with
    | some ⟨req, .fetched step cumOwed returndata⟩ =>
      gateFetched cfg s k req step now cumOwed returndata
    | _ => s
  | .backendStep k fuel w now =>
    match s.flights k with
    | some ⟨req, .admitted step⟩ => backendStep cfg s k req step fuel w now
    | _ => s
  | .respond k now =>
    match s.flights k with
    | some ⟨req, .answered response⟩ => respond cfg s k req response now
    | _ => s
  | .ack a => { s with channels := (ack cfg.toChannelConfig s.channels a).1 }
  | .snapshot now => { s with activity := s.activity.snapshot now }

/-- The node among its clients. -/
def machine : Machine State (Action W) where
  Init s := s = .start
  Legal _ _ := True
  next := next cfg

/-- The events of the runs. -/
abbrev Step (W : Type*) := Event State (Action W)

end Flodex.Node
