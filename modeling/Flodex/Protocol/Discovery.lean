import Flodex.Foundations.Json
import Flodex.Protocol.Wire

/-!
# What nodes tell a coordinator

Registrations, heartbeats and bids, each with a signature over its canonical bytes: the compact
JSON of a domain and of the other fields. And what a client asks a coordinator for.
-/

namespace Flodex

open Text

/-- A node advertises itself. -/
structure NodeRegistration where
  identityPubkey : String
  publicKey : String
  url : String
  backends : List BackendType
  maxTokens : UInt32
  pricing : List BackendPrice
  nonce : String
  signature : String
  deriving DecidableEq, Repr

/-- A node is still there. -/
structure NodeHeartbeat where
  identityPubkey : String
  nonce : String
  signature : String
  deriving DecidableEq, Repr

/-- A node offers a price for a while. -/
structure Bid where
  identityPubkey : String
  backend : BackendType
  pricePer1k : String
  maxTokens : UInt32
  validUntil : UInt64
  nonce : String
  signature : String
  deriving DecidableEq, Repr

/-- A limit on a price: the float of the source, as what is computed from it. -/
structure PriceLimit where
  /-- `(max_price_per_1k * 1_000_000.0) as u128` -/
  units : ℕ
  /-- The text of the float. -/
  text : String
  deriving DecidableEq, Repr

/-- A client looks for a node that fits. -/
structure JobSpec where
  backend : BackendType
  estimatedTokens : UInt32
  maxPricePer1k : PriceLimit
  deriving DecidableEq, Repr

/-- The node that a client should talk to. -/
structure JobMatch where
  url : String
  publicKey : String
  deriving DecidableEq, Repr

/-! ## Canonical bytes -/

/-- The name of a backend on the wire. -/
def BackendType.name : BackendType → String
  | .MockTee => "mock-tee"
  | .Fhe => "fhe"
  | .Mcp => "mcp"
  | .Local => "local"

/-- The name of a backend in a text for people. -/
def BackendType.debug : BackendType → String
  | .MockTee => "MockTee"
  | .Fhe => "Fhe"
  | .Mcp => "Mcp"
  | .Local => "Local"

def BackendPrice.json (p : BackendPrice) : List Char :=
  Json.object [("backend", Json.string p.backend.name), ("pricePer1k", Json.string p.pricePer1k)]

/-- `DOMAIN_REGISTER`. -/
def domainRegister : String := "fldx-v0-register"

/-- `DOMAIN_HEARTBEAT`. -/
def domainHeartbeat : String := "fldx-v0-heartbeat"

/-- `DOMAIN_BID`. -/
def domainBid : String := "fldx-v0-bid"

def canonicalRegisterBytes (reg : NodeRegistration) : List UInt8 :=
  utf8 (Json.object [
    ("domain", Json.string domainRegister),
    ("identity_pubkey", Json.string reg.identityPubkey),
    ("public_key", Json.string reg.publicKey),
    ("url", Json.string reg.url),
    ("backends", Json.array (reg.backends.map fun b => Json.string b.name)),
    ("max_tokens", Json.number reg.maxTokens.toNat),
    ("pricing", Json.array (reg.pricing.map BackendPrice.json)),
    ("nonce", Json.string reg.nonce)])

def canonicalHeartbeatBytes (hb : NodeHeartbeat) : List UInt8 :=
  utf8 (Json.object [
    ("domain", Json.string domainHeartbeat),
    ("identity_pubkey", Json.string hb.identityPubkey),
    ("nonce", Json.string hb.nonce)])

def canonicalBidBytes (bid : Bid) : List UInt8 :=
  utf8 (Json.object [
    ("domain", Json.string domainBid),
    ("identity_pubkey", Json.string bid.identityPubkey),
    ("backend", Json.string bid.backend.name),
    ("price_per_1k", Json.string bid.pricePer1k),
    ("max_tokens", Json.number bid.maxTokens.toNat),
    ("valid_until", Json.number bid.validUntil.toNat),
    ("nonce", Json.string bid.nonce)])

/-- The signature is not among the bytes that it is for. -/
theorem canonicalRegisterBytes_sign (reg : NodeRegistration) (signature : String) :
    canonicalRegisterBytes { reg with signature := signature } = canonicalRegisterBytes reg := rfl

theorem canonicalBidBytes_sign (bid : Bid) (signature : String) :
    canonicalBidBytes { bid with signature := signature } = canonicalBidBytes bid := rfl

example : canonicalHeartbeatBytes ⟨"02", "\"", ""⟩ = utf8 (String.toList
    "\x7b\"domain\":\"fldx-v0-heartbeat\",\"identity_pubkey\":\"02\",\"nonce\":\"\\\"\"\x7d") := by
  decide

end Flodex
