import Flodex.Crypto.Identity
import Flodex.Protocol.Discovery

/-!
# The coordinator

The coordinator keeps the registrations that nodes sent it, by the identity that they name, and
their bids. What a node sends has to verify against its identity; an entry that no registration or
heartbeat refreshes for `heartbeatTimeout` is dropped. Times are nanoseconds of a monotonic clock,
`nowSecs` the seconds of the wall clock.
-/

namespace Flodex.Coordinator

open Text Function

/-- `HEARTBEAT_TIMEOUT`, in nanoseconds. -/
def heartbeatTimeout : ℕ := 30000000000

structure Entry where
  reg : NodeRegistration
  lastSeen : ℕ
  deriving DecidableEq, Repr

structure State where
  nodes : String → Option Entry
  bids : String × BackendType → Option Bid

/-- The state of a coordinator that just started. -/
def State.start : State := ⟨fun _ => none, fun _ => none⟩

inductive StatusCode
  | badRequest
  | unauthorized
  | notFound
  deriving DecidableEq, Repr

/-- The status and the text of a refusal. -/
structure Rejection where
  status : StatusCode
  msg : String
  deriving DecidableEq, Repr

variable (crypto : IdentityCrypto) (s : State)

/-- Decode the identity and the signature, and verify the canonical bytes. -/
def verifySigned (identityPubkeyHex signatureHex : String) (canonical : List UInt8) :
    Except Rejection (List UInt8) := do
  let pubkey ← (hexDecode (utf8 identityPubkeyHex.toList)).mapError fun _ =>
    ⟨.badRequest, "identity_pubkey not hex"⟩
  let signature ← (hexDecode (utf8 signatureHex.toList)).mapError fun _ =>
    ⟨.badRequest, "signature not hex"⟩
  require (crypto.verifyIdentitySignature pubkey canonical signature = true)
    ⟨.unauthorized, "invalid signature"⟩
  pure pubkey

/-- `POST /nodes/register`. -/
def register (now : ℕ) (reg : NodeRegistration) : Except Rejection State := do
  let _ ← verifySigned crypto reg.identityPubkey reg.signature (canonicalRegisterBytes reg)
  pure { s with nodes := update s.nodes reg.identityPubkey (some ⟨reg, now⟩) }

/-- `POST /nodes/heartbeat`. -/
def heartbeat (now : ℕ) (hb : NodeHeartbeat) : Except Rejection State := do
  let _ ← verifySigned crypto hb.identityPubkey hb.signature (canonicalHeartbeatBytes hb)
  let entry ← orThrow (s.nodes hb.identityPubkey) ⟨.notFound, "unknown identity_pubkey"⟩
  pure { s with nodes := update s.nodes hb.identityPubkey (some { entry with lastSeen := now }) }

/-- `POST /bids`. -/
def postBid (nowSecs : ℕ) (bid : Bid) : Except Rejection State := do
  let _ ← verifySigned crypto bid.identityPubkey bid.signature (canonicalBidBytes bid)
  require (nowSecs < bid.validUntil.toNat) ⟨.badRequest, "bid already expired"⟩
  pure { s with bids := update s.bids (bid.identityPubkey, bid.backend) (some bid) }

/-- The sweep of the registry over some of its shards, with the time at which it began. -/
def gcNodes (shard : String → Bool) (now : ℕ) : State :=
  { s with nodes := fun id => (s.nodes id).filter fun entry =>
      !shard id || decide (now - entry.lastSeen < heartbeatTimeout) }

/-- The sweep of the bids over some of their shards. -/
def gcBids (shard : String × BackendType → Bool) (nowSecs : ℕ) : State :=
  { s with bids := fun key => (s.bids key).filter fun bid =>
      !shard key || decide (nowSecs < bid.validUntil.toNat) }

/-- `GET /nodes`, for the entries in the order in which the map is iterated. -/
def listNodes (entries : List (String × Entry)) : List NodeRegistration :=
  entries.map fun e => e.2.reg

/-- `GET /bids`, for the entries in the order in which the map is iterated. -/
def listBids (nowSecs : ℕ) (entries : List ((String × BackendType) × Bid)) : List Bid :=
  (entries.filter fun e => nowSecs < e.2.validUntil.toNat).map Prod.snd

/-! ## The matcher -/

/-- A node of the walk over the registry: its registration, and what the bids have for its identity
and the backend of the spec when it is visited. -/
abbrev Visit := NodeRegistration × Option Bid

/-- The best node so far. -/
structure Candidate where
  priceUnits : ℕ
  reg : NodeRegistration
  bidMaxTokens : Option UInt32
  deriving DecidableEq, Repr

/-- The price of a visited node, and the tokens of its bid if that is where it is from. -/
def priceOf (spec : JobSpec) (nowSecs : ℕ) (v : Visit) : Option (ℕ × Option UInt32) :=
  let bid := v.2.filter fun b => nowSecs < b.validUntil.toNat
  match bid with
  | some b => do
    let p ← parseUnsigned (2 ^ 128) b.pricePer1k.toList
    pure (p, some b.maxTokens)
  | none => do
    let price ← v.1.pricing.find? fun p => p.backend = spec.backend
    let p ← parseUnsigned (2 ^ 128) price.pricePer1k.toList
    pure (p, none)

/-- One iteration of the walk. -/
def consider (spec : JobSpec) (nowSecs : ℕ) (best : Option Candidate) (v : Visit) :
    Option Candidate :=
  if v.1.backends.contains spec.backend then
    match priceOf spec nowSecs v with
    | none => best
    | some (priceUnits, bidMaxTokens) =>
      let cap := bidMaxTokens.getD v.1.maxTokens
      if cap < spec.estimatedTokens then best
      else if spec.maxPricePer1k.units < priceUnits then best
      else
        let take := match best with
          | none => true
          | some cur => decide (priceUnits < cur.priceUnits)
        if take then some ⟨priceUnits, v.1, bidMaxTokens⟩ else best
  else best

/-- `POST /jobs/match`, for the nodes in the order in which the registry is iterated. -/
def matchJob (spec : JobSpec) (nowSecs : ℕ) (visits : List Visit) : Except Rejection JobMatch :=
  match visits.foldl (consider spec nowSecs) none with
  | some best => .ok ⟨best.reg.url, best.reg.publicKey⟩
  | none => .error ⟨.notFound, "no node matching spec (backend=" ++ spec.backend.debug ++
      ", estimated_tokens=" ++ toString spec.estimatedTokens ++ ", max_price_per_1k=" ++
      spec.maxPricePer1k.text ++ ")"⟩

/-- The walk over a registry that does not change meanwhile. -/
def visits (backend : BackendType) (entries : List (String × Entry)) : List Visit :=
  entries.map fun e => (e.2.reg, s.bids (e.2.reg.identityPubkey, backend))

/-! ## Facts about requests -/

/-- The entries are those of the registry, in some order. -/
def Iterates (entries : List (String × Entry)) : Prop :=
  (entries.map Prod.fst).Nodup ∧ ∀ id entry, (id, entry) ∈ entries ↔ s.nodes id = some entry

theorem iterates_nil {s : State} (h : s.nodes = fun _ => none) : Iterates s [] := by
  refine ⟨List.nodup_nil, fun id entry => ?_⟩
  rw [h]
  simp

/-- An entry of another identity is iterated with the others. -/
theorem Iterates.cons {s s' : State} {entries : List (String × Entry)} (h : Iterates s entries)
    {id : String} (hid : s.nodes id = none) {entry : Entry}
    (hnodes : s'.nodes = update s.nodes id (some entry)) :
    Iterates s' ((id, entry) :: entries) := by
  have hnew : id ∉ entries.map Prod.fst := by
    intro hmem
    obtain ⟨⟨_, entry'⟩, hentry, rfl⟩ := List.mem_map.1 hmem
    have hsome := (h.2 _ entry').1 hentry
    rw [hid] at hsome
    cases hsome
  refine ⟨List.nodup_cons.2 ⟨hnew, h.1⟩, fun id' entry' => ?_⟩
  rw [hnodes]
  by_cases heq : id' = id
  · subst heq
    have hmem : (id', entry') ∉ entries := fun hmem => hnew (List.mem_map_of_mem hmem)
    simp [hmem, eq_comm]
  · simp [heq, h.2]

/-- A map that holds one entry is iterated as that entry. -/
theorem iterates_single {s : State} {id : String} {entry : Entry}
    (h : s.nodes = update (fun _ => none) id (some entry)) : Iterates s [(id, entry)] :=
  (iterates_nil (s := .start) rfl).cons rfl h

/-- A symbolic signature over the canonical bytes verifies, under any text of the key. -/
theorem verifySigned_of_hexDecode {text : String} {key : List UInt8}
    (hdecode : hexDecode (utf8 text.toList) = .ok key) (hkey : key.length = identityPubkeySize)
    (canonical : List UInt8) :
    verifySigned .symbolic text (.ofList (hexEncode (IdentityCrypto.symbolicSign key canonical)))
      canonical = .ok key := by
  have hverify := IdentityCrypto.symbolic_verify_sign hkey canonical
  simp only [verifySigned, String.toList_ofList, hexDecode_hexEncode, bind_eq_ok, mapError_eq_ok,
    require_eq_ok, pure_eq_ok]
  exact ⟨key, hdecode, _, rfl, (), hverify, rfl⟩

theorem verifySigned_symbolic {key : List UInt8} (hkey : key.length = identityPubkeySize)
    (canonical : List UInt8) :
    verifySigned .symbolic (.ofList (hexEncode key))
      (.ofList (hexEncode (IdentityCrypto.symbolicSign key canonical))) canonical = .ok key :=
  verifySigned_of_hexDecode (by rw [String.toList_ofList, hexDecode_hexEncode]) hkey canonical

end Flodex.Coordinator
