import Flodex.Node.Straddle

/-!
# What the encryption of a request binds

The key of a request is derived from the key agreement and the session id. The other fields beside
the ciphertext are in no way authenticated.

`session_bound` says that a request whose session id was changed is rejected, and that one with
another backend, channel or ack is opened like the one that was sent. `rerouted` is one that is
answered by another backend than the client chose.
-/

namespace Flodex.Node

open Function

variable {W : Type*}

/-! ## The client's side -/

/-- What the client encrypts with: `x25519.getPublicKey`, `getSharedSecret` with `hkdf`,
`xchacha20poly1305`, `base64.encode` and `JSON.stringify`. -/
structure Sealing where
  publicKey : Bytes32 → Bytes32
  deriveKey : Bytes32 → Bytes32 → String → Bytes32
  encrypt : Bytes32 → Bytes 24 → List UInt8 → List UInt8
  b64Encode : List UInt8 → String
  stringify : AgentStep → List UInt8

structure SendStepOptions where
  backend : BackendType
  nodePub : Bytes32
  sessionId : String
  step : AgentStep
  channelId : Option String
  prevAck : Option ClientAck

/-- The request that `sendStep` posts, with the key pair and the nonce it draws. -/
def sendStep (c : Sealing) (opts : SendStepOptions) (clientPriv : Bytes32) (nonce : Bytes 24) :
    EncryptedRequest :=
  let key := c.deriveKey clientPriv opts.nodePub opts.sessionId
  { sessionId := opts.sessionId
    clientPublicKey := c.b64Encode (c.publicKey clientPriv).toList
    nonce := c.b64Encode nonce.toList
    ciphertext := c.b64Encode (c.encrypt key nonce (c.stringify opts.step))
    backend := opts.backend
    -- an empty id is dropped
    channelId := opts.channelId.filter (· ≠ "")
    prevAck := opts.prevAck }

/-- The libraries of the client and of the node fit, and what is decrypted was encrypted with the
key. -/
structure Ideal (e : Envelope) (c : Sealing) (nodePub : Bytes32) : Prop where
  b64Decode : ∀ bytes, e.b64Decode (c.b64Encode bytes) = .ok bytes
  agree : ∀ priv sessionId,
    e.deriveKey (c.publicKey priv) sessionId = c.deriveKey priv nodePub sessionId
  decrypt : ∀ key nonce text, e.decrypt key nonce.toList (c.encrypt key nonce text) = .ok text
  authentic : ∀ key key' nonce text, key' ≠ key →
    ∃ err, e.decrypt key' nonce.toList (c.encrypt key nonce text) = .error err

/-- The key derivation does not collide on two session ids. -/
def KeepsApart (c : Sealing) (clientPriv nodePub : Bytes32) (sessionId sessionId' : String) :
    Prop :=
  sessionId ≠ sessionId' →
    c.deriveKey clientPriv nodePub sessionId ≠ c.deriveKey clientPriv nodePub sessionId'

/-- The requests have the same ciphertext, and what it is opened with. -/
structure SameBox (req req' : EncryptedRequest) : Prop where
  clientPublicKey : req.clientPublicKey = req'.clientPublicKey
  nonce : req.nonce = req'.nonce
  ciphertext : req.ciphertext = req'.ciphertext

variable {cfg : Config W} {c : Sealing} {opts : SendStepOptions} {clientPriv : Bytes32}
  {nonce : Bytes 24} {req : EncryptedRequest}

/-- How the node opens a box that the client sealed: with the key of the session it is sent for. -/
theorem openRequest_box (ideal : Ideal cfg.envelope c opts.nodePub)
    (hbox : SameBox req (sendStep c opts clientPriv nonce)) :
    openRequest cfg req = (do
      let plaintext ← (cfg.envelope.decrypt (c.deriveKey clientPriv opts.nodePub req.sessionId)
        nonce.toList (c.encrypt (c.deriveKey clientPriv opts.nodePub opts.sessionId) nonce
          (c.stringify opts.step))).mapError fun e => .badRequest "decrypt: " (some (.text e))
      (cfg.envelope.parseStep plaintext).mapError fun e =>
        .badRequest "plaintext is not a valid AgentStep: " (some (.text e))) := by
  have hpub : decodeClientPub cfg req.clientPublicKey = .ok (c.publicKey clientPriv) := by
    simp only [decodeClientPub, hbox.clientPublicKey, sendStep, ideal.b64Decode, Except.mapError,
      bind, Except.bind, Bytes.ofList?_toList]
    rfl
  simp only [openRequest, hpub, hbox.nonce, hbox.ciphertext]
  simp only [sendStep, ideal.b64Decode, Except.mapError, ← ideal.agree]
  rfl

/-- The box opens to the step of the client, whatever else the request says. -/
theorem openRequest_sealed (ideal : Ideal cfg.envelope c opts.nodePub)
    (parses : cfg.envelope.parseStep (c.stringify opts.step) = .ok opts.step)
    (hbox : SameBox req (sendStep c opts clientPriv nonce))
    (hsession : req.sessionId = opts.sessionId) : openRequest cfg req = .ok opts.step := by
  rw [openRequest_box ideal hbox, hsession, ideal.decrypt]
  simp only [Except.mapError, bind, Except.bind, parses]

/-- With another session id it does not open. -/
theorem openRequest_moved (ideal : Ideal cfg.envelope c opts.nodePub)
    (hbox : SameBox req (sendStep c opts clientPriv nonce))
    (hkey : c.deriveKey clientPriv opts.nodePub req.sessionId ≠
      c.deriveKey clientPriv opts.nodePub opts.sessionId) :
    ∃ err, openRequest cfg req = .error (.badRequest "decrypt: " (some (.text err))) := by
  obtain ⟨err, herr⟩ := ideal.authentic _ _ nonce (c.stringify opts.step) hkey
  exact ⟨err, by rw [openRequest_box ideal hbox, herr]; rfl⟩

/-! ## A request that does not open -/

variable {h : List (Step W)} {s : State} {a : Action W} {k : ℕ} {stage : Stage} {err : ApiError}

/-- It fails as it arrives, and stays so. -/
theorem done_of_openRequest_eq_error (hopen : openRequest cfg req = .error err)
    (R : Run (machine cfg) .start h s) :
    ∀ k stage, s.flights k = some ⟨req, stage⟩ → stage = .done (.error err) := by
  intro k stage hk
  refine request_invariant (fun _ _ req' stage => req' = req → stage = .done (.error err))
    (fun _ _ => True) R (fun _ _ _ _ => trivial) ?_ ?_ ?_ hk rfl
  · rintro h t _ now - rfl
    simp only [arrival, hopen]
  · intro h t a k req' stage _ ih _
    exact ih
  · intro h t a k req' stage stage' _ _ _ ih _ hprogress hreq
    -- nothing progresses from where it is
    obtain rfl := ih hreq
    generalize (next cfg t a).channels = channels at hprogress
    cases hprogress with
    | failed e going => exact absurd rfl (going _)

/-- No backend is run for it. -/
theorem idle_of_openRequest_eq_error (hopen : openRequest cfg req = .error err)
    (R : Run (machine cfg) .start h s) {e : Step W} (he : e ∈ h) (hreq : requestAt e = some req)
    (ha : e.act.request = some k) : e.post = e.pre := by
  obtain ⟨h₁, h₂, rfl⟩ := List.append_of_mem he
  obtain ⟨R, -, hpost, -⟩ := R.split
  obtain ⟨f, hf, rfl⟩ : ∃ f, e.pre.flights k = some f ∧ f.req = req := by
    obtain ⟨pre, a, post⟩ := e
    cases a <;> simp_all [requestAt, Action.request]
  have hdone := done_of_openRequest_eq_error hopen R k f.stage hf
  rw [hpost]
  exact next_done (r := .error err) (by rw [hf, ← hdone]) ha

/-! ## A backend that the client did not choose -/

namespace Deployment

open AgentLoop

/-- The node with two backends, and keys that depend on the session. -/
def keyed : Config ℕ :=
  { hybrid with
    envelope := { hybrid.envelope with
      deriveKey := fun pub sessionId =>
        ⟨(Text.utf8 sessionId.toList ++ pub.toList).take 32, by simp⟩ } }

/-- A client whose boxes it opens. -/
def sealing : Sealing where
  publicKey priv := priv
  deriveKey priv _ sessionId := keyed.envelope.deriveKey priv sessionId
  encrypt key _ text := key.toList ++ text
  b64Encode bytes := String.ofList (Text.hexEncode bytes)
  stringify
    | .prompt text => text.toList.map fun c => UInt8.ofNat c.toNat
    | .toolResult .. => []

theorem ideal_sealing (nodePub : Bytes32) : Ideal keyed.envelope sealing nodePub where
  b64Decode bytes := by
    simp [keyed, hybrid, node, envelope, sealing, Text.hexDecode_hexEncode, Except.mapError]
  agree _ _ := rfl
  decrypt key nonce text := by simp [keyed, hybrid, node, envelope, sealing]
  authentic key key' nonce text hkey := by
    have hne : key.toList ≠ key'.toList := fun h => hkey (Bytes.ext h.symm)
    exact ⟨"aead::Error", by simp [keyed, hybrid, node, envelope, sealing, hne]⟩

/-- A prompt for the local model. -/
def options : SendStepOptions := ⟨.Local, .replicate 32 1, "session", .prompt "hi", none, none⟩

/-- The request of the client. -/
def sent : EncryptedRequest := sendStep sealing options (.replicate 32 3) (.replicate 24 0)

end Deployment

open Deployment

/-- **The encryption binds the session id.** In every run of the node, a request whose box a client
sealed for another session is rejected, and no backend is run for it. For the session of the client
it opens to the client's step, whatever its backend, channel and ack are. -/
theorem session_bound (ideal : Ideal cfg.envelope c opts.nodePub)
    (parses : cfg.envelope.parseStep (c.stringify opts.step) = .ok opts.step)
    (apart : KeepsApart c clientPriv opts.nodePub req.sessionId opts.sessionId)
    (hbox : SameBox req (sendStep c opts clientPriv nonce)) (R : Run (machine cfg) .start h s) :
    (req.sessionId ≠ opts.sessionId →
      (∃ err, ∀ k stage, s.flights k = some ⟨req, stage⟩ →
        stage = .done (.error (.badRequest "decrypt: " (some (.text err))))) ∧
      ∀ e ∈ h, ∀ k, requestAt e = some req → e.act.request = some k → e.post = e.pre) ∧
    (req.sessionId = opts.sessionId → openRequest cfg req = .ok opts.step) := by
  refine ⟨fun hmoved => ?_, openRequest_sealed ideal parses hbox⟩
  obtain ⟨err, hopen⟩ := openRequest_moved ideal hbox (apart hmoved)
  exact ⟨⟨err, done_of_openRequest_eq_error hopen R⟩, fun e he k hreq ha =>
    idle_of_openRequest_eq_error hopen R he hreq ha⟩

/-- The prompt is sent for another session. -/
theorem session_bound_moved : ∃ err,
    ((machine keyed).final .start [.receive { sent with sessionId := "other" } 0]).flights 0 =
      some ⟨{ sent with sessionId := "other" },
        .done (.error (.badRequest "decrypt: " (some (.text err))))⟩ := by
  have R := run_trace keyed [.receive { sent with sessionId := "other" } 0]
  have hbox : SameBox { sent with sessionId := "other" } (sendStep sealing options _ _) :=
    ⟨rfl, rfl, rfl⟩
  obtain ⟨⟨err, hdone⟩, -⟩ :=
    (session_bound (ideal_sealing options.nodePub) rfl (fun _ => by decide +kernel) hbox R).1
      (by decide)
  exact ⟨err, by rw [← hdone 0 _ rfl]; rfl⟩

/-- **A prompt for the local model is answered by the hosted one**: the node does not notice that
the backend of the request was changed. -/
theorem rerouted : sent.backend = .Local ∧
    ((machine keyed).final .start [.receive { sent with backend := .MockTee } 0, .gate 0 0,
      .backendStep 0 1 1 0]).flights 0 = some ⟨{ sent with backend := .MockTee },
        .answered (.toolCall "toolu_2" "ask" (.object []) .zero)⟩ ∧
    (rounds keyed "session" ((machine keyed).trace .start
      [.receive { sent with backend := .MockTee } 0, .gate 0 0, .backendStep 0 1 1 0])).map
        Round.backend = [.MockTee] :=
  ⟨rfl, rfl, rfl⟩

end Flodex.Node
