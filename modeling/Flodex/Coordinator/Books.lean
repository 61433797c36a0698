import Flodex.Coordinator.Matching
import Flodex.Coordinator.Replay

/-!
# The books are authentic

Whatever is sent to a coordinator, in any order and between any sweeps, its registry and its bids
hold only what verifies under the key that it is stored under (`Authentic`). The requests that read
walk the maps while they change, so what they read is of any states of the run: each entry that
they find is authentic, and the matcher joins a registration with a bid of the same identity.
-/

namespace Flodex.Coordinator

open Text Function

/-! ## The inputs -/

/-- What can change the books. -/
inductive Input
  | message (now : ℕ) (m : Message)
  | postBid (nowSecs : ℕ) (bid : Bid)
  | gcNodes (shard : String → Bool) (now : ℕ)
  | gcBids (shard : String × BackendType → Bool) (nowSecs : ℕ)

variable (crypto : IdentityCrypto)

/-- The handler of an input. The sweeps refuse nothing. -/
def handle (s : State) : Input → Except Rejection State
  | .message now m => receive crypto s now m
  | .postBid nowSecs bid => postBid crypto s nowSecs bid
  | .gcNodes shard now => .ok (gcNodes s shard now)
  | .gcBids shard nowSecs => .ok (gcBids s shard nowSecs)

/-- The coordinator with arbitrary inputs. -/
def books : Machine State Input where
  Init s := s = State.start
  Legal _ _ := True
  next s i :=
    match handle crypto s i with
    | .ok s' => s'
    | .error _ => s

/-- The signature of a bid is one of its identity. -/
def VerifiedBid (bid : Bid) : Prop :=
  ∃ pubkey,
    verifySigned crypto bid.identityPubkey bid.signature (canonicalBidBytes bid) = .ok pubkey

/-- The key under which a bid is stored. -/
def slot (bid : Bid) : String × BackendType := (bid.identityPubkey, bid.backend)

/-- Everything is stored under the identity that it names, and verifies under it. -/
structure Authentic (s : State) : Prop where
  nodes : ∀ k entry, s.nodes k = some entry →
    entry.reg.identityPubkey = k ∧ Verified crypto (.register entry.reg)
  bids : ∀ key bid, s.bids key = some bid → slot bid = key ∧ VerifiedBid crypto bid

variable {crypto} {s s' : State}

/-- **A bid that the coordinator accepts** verifies, is valid, and replaces the bid of its slot. -/
theorem postBid_eq_ok {nowSecs : ℕ} {bid : Bid} : postBid crypto s nowSecs bid = .ok s' ↔
    VerifiedBid crypto bid ∧ nowSecs < bid.validUntil.toNat ∧
      { s with bids := update s.bids (slot bid) (some bid) } = s' := by
  simp only [postBid, bind_eq_ok, require_eq_ok, pure_eq_ok]
  constructor
  · rintro ⟨pubkey, verified, -, valid, rfl⟩
    exact ⟨⟨pubkey, verified⟩, valid, rfl⟩
  · rintro ⟨⟨pubkey, verified⟩, valid, rfl⟩
    exact ⟨pubkey, verified, (), valid, rfl⟩

/-! ## The invariant -/

theorem authentic_start : Authentic crypto State.start :=
  ⟨by rintro k entry ⟨⟩, by rintro key bid ⟨⟩⟩

theorem Authentic.setNode (h : Authentic crypto s) {k : String} {entry : Entry}
    (hk : entry.reg.identityPubkey = k) (hverified : Verified crypto (.register entry.reg)) :
    Authentic crypto { s with nodes := update s.nodes k (some entry) } := by
  refine ⟨fun k' entry' hentry => ?_, h.bids⟩
  by_cases hk' : k' = k
  · subst hk'
    obtain rfl : entry = entry' := by simpa using hentry
    exact ⟨hk, hverified⟩
  · exact h.nodes k' entry' (by simpa [hk'] using hentry)

theorem Authentic.setBid (h : Authentic crypto s) {bid : Bid} (hverified : VerifiedBid crypto bid) :
    Authentic crypto { s with bids := update s.bids (slot bid) (some bid) } := by
  refine ⟨h.nodes, fun key bid' hbid => ?_⟩
  by_cases hkey : key = slot bid
  · subst hkey
    obtain rfl : bid = bid' := by simpa using hbid
    exact ⟨rfl, hverified⟩
  · exact h.bids key bid' (by simpa [hkey] using hbid)

/-- A handler keeps the books authentic: a heartbeat keeps the registration of its entry, and a
sweep keeps what it does not drop. -/
theorem Authentic.handle (h : Authentic crypto s) {i : Input}
    (hi : handle crypto s i = .ok s') : Authentic crypto s' := by
  cases i with
  | message now m =>
    cases receive_eq_ok.1 hi with
    | register verified => exact h.setNode rfl verified
    | heartbeat verified listed =>
      obtain ⟨hk, hreg⟩ := h.nodes _ _ listed
      exact h.setNode hk hreg
  | postBid nowSecs bid =>
    obtain ⟨verified, -, rfl⟩ := postBid_eq_ok.1 hi
    exact h.setBid verified
  | gcNodes shard now =>
    obtain rfl := Except.ok.inj hi
    exact ⟨fun k entry hentry => h.nodes k entry (Option.filter_eq_some_iff.1 hentry).1, h.bids⟩
  | gcBids shard nowSecs =>
    obtain rfl := Except.ok.inj hi
    exact ⟨h.nodes, fun key bid hbid => h.bids key bid (Option.filter_eq_some_iff.1 hbid).1⟩

variable {h : List (Event State Input)}

/-- **The books are authentic** in every state of every run. -/
theorem reachable_authentic (H : (books crypto).History h s) : Authentic crypto s := by
  obtain ⟨s₀, rfl, r⟩ := H
  refine r.invariant (Authentic crypto) authentic_start fun t i ih _ => ?_
  simp only [books]
  split
  · rename_i t' ht'
    exact ih.handle ht'
  · exact ih

/-! ## What is read -/

variable (crypto)

/-- An entry that a walk over the registry can find at some moment of some run. -/
def Shown (k : String) (entry : Entry) : Prop :=
  ∃ h s, (books crypto).History h s ∧ s.nodes k = some entry

/-- What a look at the bids can find at some moment of some run. -/
def Found (key : String × BackendType) (bid : Option Bid) : Prop :=
  ∃ h s, (books crypto).History h s ∧ s.bids key = bid

/-- A price that an identity signed: in its registration, or in a bid that is still valid. -/
inductive Priced (spec : JobSpec) (nowSecs : ℕ) (reg : NodeRegistration) (price : ℕ) : Prop
  | bid {bid : Bid} (verified : VerifiedBid crypto bid)
    (slot_eq : slot bid = (reg.identityPubkey, spec.backend))
    (valid : nowSecs < bid.validUntil.toNat)
    (parses : parseUnsigned (2 ^ 128) bid.pricePer1k.toList = some price)
  | standing {p : BackendPrice} (mem : p ∈ reg.pricing) (backend : p.backend = spec.backend)
    (parses : parseUnsigned (2 ^ 128) p.pricePer1k.toList = some price)

variable {crypto} {k : String} {entry : Entry} {bid : Bid} {spec : JobSpec} {nowSecs : ℕ}

theorem Shown.authentic (hentry : Shown crypto k entry) :
    entry.reg.identityPubkey = k ∧ Verified crypto (.register entry.reg) := by
  obtain ⟨h, s, H, hentry⟩ := hentry
  exact (reachable_authentic H).nodes k entry hentry

theorem Found.authentic {key : String × BackendType} (hbid : Found crypto key (some bid)) :
    slot bid = key ∧ VerifiedBid crypto bid := by
  obtain ⟨h, s, H, hbid⟩ := hbid
  exact (reachable_authentic H).bids key bid hbid

/-- The price of a node is one that its identity signed. -/
theorem priced_of_eligible {reg : NodeRegistration} {found : Option Bid} {price : ℕ}
    (hfound : Found crypto (reg.identityPubkey, spec.backend) found)
    (heligible : Eligible spec nowSecs reg found price) : Priced crypto spec nowSecs reg price := by
  obtain ⟨text, cap, hoffer, htext, -⟩ := heligible.offers
  unfold offer at hoffer
  split at hoffer
  case h_1 bid hbid =>
    obtain ⟨rfl, hvalid⟩ := Option.filter_eq_some_iff.1 hbid
    obtain ⟨hslot, hverified⟩ := hfound.authentic
    obtain ⟨rfl, rfl⟩ := Prod.mk.inj (Option.some.inj hoffer)
    exact .bid hverified hslot (by simpa using hvalid) htext
  case h_2 =>
    obtain ⟨p, hp, hoffer⟩ := Option.map_eq_some_iff.1 hoffer
    obtain ⟨rfl, rfl⟩ := Prod.mk.inj hoffer
    have hbackend := List.find?_some hp
    exact .standing (List.mem_of_find?_eq_some hp) (by simpa using hbackend) htext

/-- **The books hold only what their identities signed**: the entries under their keys, what is
listed, and the node and the price of a match; bids that are listed or used are valid, and a
request that is refused changes nothing. -/
theorem books_authentic (H : (books crypto).History h s) :
    Authentic crypto s ∧
    (∀ entries : List (String × Entry), (∀ e ∈ entries, Shown crypto e.1 e.2) →
      ∀ reg ∈ listNodes entries, Verified crypto (.register reg)) ∧
    (∀ nowSecs (entries : List ((String × BackendType) × Bid)),
      (∀ e ∈ entries, Found crypto e.1 (some e.2)) → ∀ bid ∈ listBids nowSecs entries,
        VerifiedBid crypto bid ∧ nowSecs < bid.validUntil.toNat) ∧
    (∀ spec nowSecs (visits : List Visit) m,
      (∀ v ∈ visits, (∃ k entry, Shown crypto k entry ∧ entry.reg = v.1) ∧
        Found crypto (v.1.identityPubkey, spec.backend) v.2) →
      matchJob spec nowSecs visits = .ok m →
        ∃ reg price, Verified crypto (.register reg) ∧ m = ⟨reg.url, reg.publicKey⟩ ∧
          Priced crypto spec nowSecs reg price ∧
          ∃ v ∈ visits, v.1 = reg ∧ Eligible spec nowSecs reg v.2 price) ∧
    ∀ i r, handle crypto s i = .error r → (books crypto).next s i = s := by
  refine ⟨reachable_authentic H, ?_, ?_, ?_, ?_⟩
  · intro entries hentries reg hreg
    obtain ⟨e, he, rfl⟩ := List.mem_map.1 hreg
    exact (hentries e he).authentic.2
  · intro nowSecs entries hentries bid hbid
    obtain ⟨e, he, rfl⟩ := List.mem_map.1 hbid
    obtain ⟨he, hvalid⟩ := List.mem_filter.1 he
    exact ⟨(hentries e he).authentic.2, by simpa using hvalid⟩
  · intro spec nowSecs visits m hvisits hm
    obtain ⟨v, hv, price, heligible, rfl, -⟩ := matchJob_eq_ok hm
    obtain ⟨⟨k, entry, hentry, hreg⟩, hfound⟩ := hvisits v hv
    exact ⟨v.1, price, hreg ▸ hentry.authentic.2, rfl, priced_of_eligible hfound heligible, v, hv,
      rfl, heligible⟩
  · intro i r hi
    simp only [books, hi]

/-- What a registration that verifies does. -/
theorem next_message {now : ℕ} {reg : NodeRegistration}
    (verified : Verified crypto (.register reg)) :
    (books crypto).next s (.message now (.register reg)) =
      { s with nodes := update s.nodes reg.identityPubkey (some ⟨reg, now⟩) } := by
  have hreceived : Received crypto s now (.register reg) _ := .register verified
  simp only [books, handle, receive_eq_ok.2 hreceived]

theorem next_postBid {nowSecs : ℕ} {bid : Bid} (verified : VerifiedBid crypto bid)
    (valid : nowSecs < bid.validUntil.toNat) : (books crypto).next s (.postBid nowSecs bid) =
      { s with bids := update s.bids (slot bid) (some bid) } := by
  simp only [books, handle, postBid_eq_ok.2 ⟨verified, valid, rfl⟩]

open Deployment in
/-- A coordinator with one registration, which its node signed. -/
theorem books_authentic_registered : ∃ h s, (books .symbolic).History h s ∧
    s.nodes identity = some ⟨registration "a", 0⟩ ∧ Authentic .symbolic s := by
  have hstart : (books .symbolic).History [] State.start := ⟨State.start, rfl, .nil⟩
  have H := hstart.concat (a := .message 0 (.register (registration "a"))) trivial
  refine ⟨_, _, H, ?_, (books_authentic H).1⟩
  rw [next_message (verified_registration "a"), identity_registration]
  simp only [update_self]

end Flodex.Coordinator
