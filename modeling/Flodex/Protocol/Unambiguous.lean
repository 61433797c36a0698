import Flodex.Protocol.Discovery

/-!
# Signed messages are unambiguous

The canonical bytes of a registration, a heartbeat or a bid are those of a document, and
documents are read back from their text. So two messages have the same canonical bytes exactly
when they are of the same kind and agree on everything but the signature: a signature cannot be
moved to another message.
-/

namespace Flodex

open Text

/-! ## The documents -/

def BackendPrice.document (p : BackendPrice) : Json.Tree :=
  .object [("backend", .string p.backend.name), ("pricePer1k", .string p.pricePer1k)]

def NodeRegistration.document (reg : NodeRegistration) : Json.Tree :=
  .object [
    ("domain", .string domainRegister),
    ("identity_pubkey", .string reg.identityPubkey),
    ("public_key", .string reg.publicKey),
    ("url", .string reg.url),
    ("backends", .array (reg.backends.map fun b => .string b.name)),
    ("max_tokens", .number reg.maxTokens.toNat),
    ("pricing", .array (reg.pricing.map BackendPrice.document)),
    ("nonce", .string reg.nonce)]

def NodeHeartbeat.document (hb : NodeHeartbeat) : Json.Tree :=
  .object [
    ("domain", .string domainHeartbeat),
    ("identity_pubkey", .string hb.identityPubkey),
    ("nonce", .string hb.nonce)]

def Bid.document (bid : Bid) : Json.Tree :=
  .object [
    ("domain", .string domainBid),
    ("identity_pubkey", .string bid.identityPubkey),
    ("backend", .string bid.backend.name),
    ("price_per_1k", .string bid.pricePer1k),
    ("max_tokens", .number bid.maxTokens.toNat),
    ("valid_until", .number bid.validUntil.toNat),
    ("nonce", .string bid.nonce)]

theorem write_document_price (p : BackendPrice) : p.document.write = p.json := rfl

theorem canonicalRegisterBytes_eq (reg : NodeRegistration) :
    canonicalRegisterBytes reg = utf8 reg.document.write := by
  have hbackends : Json.writeItems (reg.backends.map fun b => .string b.name) =
      reg.backends.map fun b => Json.string b.name := by
    rw [Json.writeItems_eq, List.map_map]
    rfl
  have hpricing : Json.writeItems (reg.pricing.map BackendPrice.document) =
      reg.pricing.map BackendPrice.json := by
    rw [Json.writeItems_eq, List.map_map]
    exact List.map_congr_left fun p _ => write_document_price p
  simp only [canonicalRegisterBytes, NodeRegistration.document, Json.Tree.write, Json.writeFields,
    hbackends, hpricing]

theorem canonicalHeartbeatBytes_eq (hb : NodeHeartbeat) :
    canonicalHeartbeatBytes hb = utf8 hb.document.write := rfl

theorem canonicalBidBytes_eq (bid : Bid) : canonicalBidBytes bid = utf8 bid.document.write := rfl

/-! ## Documents determine messages -/

theorem name_injective : Function.Injective BackendType.name := by
  intro b b' h
  cases b <;> cases b' <;> first | rfl | exact absurd h (by decide)

theorem document_price_injective : Function.Injective BackendPrice.document := by
  intro p q h
  simp only [BackendPrice.document, Json.Tree.object.injEq, List.cons.injEq, Prod.mk.injEq,
    Json.Tree.string.injEq, true_and, and_true] at h
  cases p
  cases q
  obtain ⟨hbackend, rfl⟩ := h
  obtain rfl := name_injective hbackend
  rfl

theorem string_name_injective :
    Function.Injective fun b : BackendType => Json.Tree.string b.name := by
  intro b b' h
  exact name_injective (Json.Tree.string.inj h)

/-- A message for a coordinator that its sender signs. -/
inductive SignedMessage
  | register (reg : NodeRegistration)
  | heartbeat (hb : NodeHeartbeat)
  | bid (b : Bid)

namespace SignedMessage

/-- The bytes that the signature is for. -/
def canonicalBytes : SignedMessage → List UInt8
  | .register reg => canonicalRegisterBytes reg
  | .heartbeat hb => canonicalHeartbeatBytes hb
  | .bid b => canonicalBidBytes b

/-- The message with an empty signature: its kind and its signed fields. -/
def unsigned : SignedMessage → SignedMessage
  | .register reg => .register { reg with signature := "" }
  | .heartbeat hb => .heartbeat { hb with signature := "" }
  | .bid b => .bid { b with signature := "" }

def document : SignedMessage → Json.Tree
  | .register reg => reg.document
  | .heartbeat hb => hb.document
  | .bid b => b.document

theorem canonicalBytes_eq (m : SignedMessage) : m.canonicalBytes = utf8 m.document.write := by
  cases m with
  | register reg => exact canonicalRegisterBytes_eq reg
  | heartbeat hb => exact canonicalHeartbeatBytes_eq hb
  | bid b => exact canonicalBidBytes_eq b

theorem document_unsigned (m : SignedMessage) : m.unsigned.document = m.document := by
  cases m <;> rfl

/-- The document has the domain of its kind and all signed fields. -/
theorem unsigned_eq_of_document {m m' : SignedMessage} (h : m.document = m'.document) :
    m.unsigned = m'.unsigned := by
  cases m with
  | register reg =>
    cases m' with
    | register reg' =>
      cases reg
      cases reg'
      simp only [document, NodeRegistration.document, Json.Tree.object.injEq, List.cons.injEq,
        Prod.mk.injEq, Json.Tree.string.injEq, Json.Tree.array.injEq, Json.Tree.number.injEq,
        UInt32.toNat_inj, true_and, and_true] at h
      obtain ⟨rfl, rfl, rfl, hbackends, rfl, hpricing, rfl⟩ := h
      obtain rfl := string_name_injective.list_map hbackends
      obtain rfl := document_price_injective.list_map hpricing
      rfl
    | heartbeat hb => simp [document, NodeRegistration.document, NodeHeartbeat.document] at h
    | bid b => simp [document, NodeRegistration.document, Bid.document] at h
  | heartbeat hb =>
    cases m' with
    | register reg => simp [document, NodeRegistration.document, NodeHeartbeat.document] at h
    | heartbeat hb' =>
      cases hb
      cases hb'
      simp only [document, NodeHeartbeat.document, Json.Tree.object.injEq, List.cons.injEq,
        Prod.mk.injEq, Json.Tree.string.injEq, true_and, and_true] at h
      obtain ⟨rfl, rfl⟩ := h
      rfl
    | bid b => simp [document, NodeHeartbeat.document, Bid.document] at h
  | bid b =>
    cases m' with
    | register reg => simp [document, NodeRegistration.document, Bid.document] at h
    | heartbeat hb => simp [document, NodeHeartbeat.document, Bid.document] at h
    | bid b' =>
      cases b
      cases b'
      simp only [document, Bid.document, Json.Tree.object.injEq, List.cons.injEq, Prod.mk.injEq,
        Json.Tree.string.injEq, Json.Tree.number.injEq, UInt32.toNat_inj, UInt64.toNat_inj,
        true_and, and_true] at h
      obtain ⟨rfl, hbackend, rfl, rfl, rfl, rfl⟩ := h
      obtain rfl := name_injective hbackend
      rfl

/-- **Signed messages are unambiguous**: two messages have the same canonical bytes exactly when
they are of one kind and agree on every signed field. -/
theorem canonicalBytes_eq_iff (m m' : SignedMessage) :
    m.canonicalBytes = m'.canonicalBytes ↔ m.unsigned = m'.unsigned := by
  constructor
  · intro h
    rw [canonicalBytes_eq, canonicalBytes_eq] at h
    exact unsigned_eq_of_document (Json.write_injective (utf8_injective h))
  · intro h
    rw [canonicalBytes_eq, canonicalBytes_eq, ← document_unsigned m, h, document_unsigned]

end SignedMessage

end Flodex
