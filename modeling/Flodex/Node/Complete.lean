import Flodex.Crypto.Transport
import Flodex.Node.Server
import Flodex.Protocol.Serde

/-!
# Completions for the proxy

`/proxy/complete` opens a request as `/execute` does, and has the provider of the backend complete
what is in it: without a session, without the tools of the node, and without a channel.
-/

namespace Flodex

variable {W : Type*}

/-- The provider by itself. -/
def AgentLoop.complete (agent : AgentLoop W) (w : W) (req : ChatRequest) :
    Except String ChatResult × W :=
  agent.provider w req

/-- The node's side of the transport, with the secret of the node. -/
def Transport.envelope (t : Transport) (json : JsonText) (secret : Bytes32) : Node.Envelope where
  b64Decode := t.b64Decode
  deriveKey clientPub sessionId := t.deriveKey (t.diffieHellman secret clientPub) sessionId
  decrypt := t.decrypt
  parseStep := json.fromSlice "AgentStep" AgentStep.ofValue

namespace Node

/-! ## What a request seals -/

section Box

variable (cfg : Config W) (req : EncryptedRequest)

/-- The client's key and the plaintext of a request. -/
def openBox : Except ApiError (Bytes32 × List UInt8) := do
  let clientPub ← decodeClientPub cfg req.clientPublicKey
  let key := cfg.envelope.deriveKey clientPub req.sessionId
  let nonce ← (cfg.envelope.b64Decode req.nonce).mapError fun e =>
    .badRequest "invalid nonce b64: " (some (.text e))
  let ciphertext ← (cfg.envelope.b64Decode req.ciphertext).mapError fun e =>
    .badRequest "invalid ciphertext b64: " (some (.text e))
  let plaintext ← (cfg.envelope.decrypt key nonce ciphertext).mapError fun e =>
    .badRequest "decrypt: " (some (.text e))
  pure (clientPub, plaintext)

/-- `/execute` opens the same box. -/
theorem openRequest_eq : openRequest cfg req = (do
    let box ← openBox cfg req
    (cfg.envelope.parseStep box.2).mapError fun e =>
      .badRequest "plaintext is not a valid AgentStep: " (some (.text e))) := by
  simp only [openRequest, openBox, bind_assoc, pure_bind]

end Box

/-! ## The handler -/

/-- The node as `/proxy/complete` sees it. -/
structure Completer (W : Type*) where
  cfg : Config W
  transport : Transport
  json : JsonText
  secret : Bytes32
  envelope : cfg.envelope = transport.envelope json secret

variable (node : Completer W)

/-- The key that clients seal for. -/
def Completer.publicKey : Bytes32 := node.transport.publicKey node.secret

/-- The client's key, the plaintext, and the completion that it asks for. -/
def openChat (req : EncryptedRequest) : Except ApiError (Bytes32 × List UInt8 × ChatRequest) := do
  let (clientPub, plaintext) ← openBox node.cfg req
  let chatReq ← (node.json.fromSlice "ChatRequest" ChatRequest.ofValue plaintext).mapError fun e =>
    .badRequest "plaintext is not a valid ChatRequest: " (some (.text e))
  pure (clientPub, plaintext, chatReq)

/-- What the provider makes of a request: the client's key, the plaintext, and the result. -/
def completion (req : EncryptedRequest) (w : W) :
    Except ApiError (Bytes32 × List UInt8 × ChatResult) × W :=
  match openChat node req, agentOf node.cfg req.backend with
  | .error e, _ => (.error e, w)
  | .ok _, .error e => (.error e, w)
  | .ok (clientPub, plaintext, chatReq), .ok agent =>
    match agent.complete w chatReq with
    | (.error e, w) => (.error (.internal "backend complete: " (some (.text e))), w)
    | (.ok result, w) => (.ok (clientPub, plaintext, result), w)

/-- The reply with a result, under the nonce that is drawn. -/
def sealResult (req : EncryptedRequest) (clientPub : Bytes32) (nonce : Bytes 24)
    (result : ChatResult) : Except ApiError EncryptedResponse := do
  let key := node.cfg.envelope.deriveKey clientPub req.sessionId
  let ciphertext ← (node.transport.encrypt key nonce (node.json.write result.toValue)).mapError
    fun e => .internal "encrypt: " (some (.text e))
  pure ⟨req.sessionId, node.transport.b64Encode nonce.toList, node.transport.b64Encode ciphertext,
    none⟩

/-- `POST /proxy/complete`. -/
def proxyComplete (req : EncryptedRequest) (w : W) (nonce : Bytes 24) :
    Except ApiError EncryptedResponse × W :=
  match completion node req w with
  | (.error e, w) => (.error e, w)
  | (.ok (clientPub, _, result), w) => (sealResult node req clientPub nonce result, w)

variable {node} {req : EncryptedRequest} {w : W} {clientPub : Bytes32} {plaintext : List UInt8}
  {result : ChatResult}

/-- What a completion comes from. -/
theorem completion_eq_ok (h : (completion node req w).1 = .ok (clientPub, plaintext, result)) :
    openBox node.cfg req = .ok (clientPub, plaintext) ∧
    ∃ chatReq agent w', node.json.fromSlice "ChatRequest" ChatRequest.ofValue plaintext =
        .ok chatReq ∧ agentOf node.cfg req.backend = .ok agent ∧
      agent.complete w chatReq = (.ok result, w') := by
  unfold completion at h
  split at h
  · cases h
  · cases h
  · rename_i clientPub' plaintext' chatReq agent hopen hagent
    simp only [openChat, bind_eq_ok, pure_eq_ok, Prod.exists, Prod.mk.injEq] at hopen
    obtain ⟨_, _, hbox, _, hchat, rfl, rfl, rfl⟩ := hopen
    split at h
    · cases h
    · rename_i result' w' hcomplete
      simp only [Except.ok.injEq, Prod.mk.injEq] at h
      obtain ⟨rfl, rfl, rfl⟩ := h
      exact ⟨hbox, _, _, w', mapError_eq_ok.1 hchat, hagent, hcomplete⟩

end Node

end Flodex
