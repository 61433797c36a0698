import Flodex.Coordinator.Matching
import Flodex.Node.Presence

/-!
# The standing offers of a node

A bid of a node is a lease too: the bid loop renews it, and it lapses at its `valid_until`. So it
stands while at most `k` rounds of bids in a row miss (`standing`), where `k` is one for the
constants of the source. A node that is listed and has a standing offer is found: a job that fits
the offer is matched, with it or with a cheaper node (`matched`).
-/

namespace Flodex.Presence

open Text Coordinator

variable {crypto : IdentityCrypto} {node : Node crypto} {timing : Timing}

/-! ## The bid loop -/

section Bids

variable {w : World} {a : Action} {backend : BackendType} {nowSecs n : ℕ} {nonce : String}
  {bid : Bid}

variable (node) in
/-- A bid with the terms of the node for a backend. -/
structure OfferOf (backend : BackendType) (bid : Bid) : Prop where
  slot : slot bid = (node.cfg.identityPubkey, backend)
  price : ∃ p, node.cfg.pricing.find? (fun p => p.backend = backend) = some p ∧
    bid.pricePer1k = p.pricePer1k
  maxTokens : bid.maxTokens = node.cfg.maxTokens

/-- **A bid of the node** has its terms, verifies, and is valid for three minutes. -/
theorem offerOf_signedBid (hbid : signedBid node backend validFor nowSecs nonce = some bid) :
    OfferOf node backend bid ∧ VerifiedBid crypto bid ∧
      bid.validUntil.toNat = saturatingAdd 64 nowSecs validFor := by
  simp only [signedBid, Option.bind_eq_bind, Option.bind_eq_some_iff, Option.map_eq_some_iff,
    Option.pure_def, Option.some.injEq] at hbid
  obtain ⟨-, ⟨p, hp, rfl⟩, rfl⟩ := hbid
  refine ⟨⟨rfl, ⟨p, hp, rfl⟩, rfl⟩, ⟨_, verifySigned_sign node _⟩, ?_⟩
  exact UInt64.toNat_ofNat_of_lt' (saturatingAdd_lt 64 ..)

/-- The bid loop is on time, and its request is a bid that it signed in this round. -/
structure Offering (node : Node crypto) (timing : Timing) (w : World) : Prop where
  prompt : w.clock ≤ w.bidder.wake + timing.delay
  awake : w.bidder.exchange ≠ .idle → w.bidder.wake ≤ w.clock
  own : ∀ bid, w.bidder.exchange = .request bid → ∃ backend t nonce, w.bidder.wake ≤ t ∧
    t ≤ w.clock ∧ signedBid node backend validFor (t / second) nonce = some bid

variable (node) in
/-- What the loop does when it goes on: it sleeps, skips a backend or posts a bid. -/
theorem Bidder.post_cases (b : Bidder) (now : ℕ) (nonce : String) :
    b.todo = [] ∧ b.post node now nonce = ⟨node.cfg.backends, now + refresh, .idle⟩ ∨
      b.todo ≠ [] ∧ ((∃ rest, b.post node now nonce = { b with todo := rest }) ∨
        ∃ backend bid, signedBid node backend validFor (now / second) nonce = some bid ∧
          b.post node now nonce = { b with exchange := .request bid }) := by
  unfold Bidder.post
  split
  case h_1 htodo => exact .inl ⟨htodo, rfl⟩
  case h_2 backend rest htodo =>
    refine .inr ⟨by simp [htodo], ?_⟩
    split
    · exact .inl ⟨rest, rfl⟩
    · rename_i bid hbid
      exact .inr ⟨backend, bid, hbid, rfl⟩

theorem Offering.next (offering : Offering node timing w)
    (legal : (machine node timing).Legal w a) : Offering node timing (next node w a) := by
  cases a with
  | wait t =>
    refine ⟨legal.2, fun hne => (offering.awake hne).trans (Nat.le_add_right ..),
      fun bid hbid => ?_⟩
    obtain ⟨backend, t', nonce, hwake, hle, hsigned⟩ := offering.own bid hbid
    exact ⟨backend, t', nonce, hwake, hle.trans (Nat.le_add_right ..), hsigned⟩
  | postBid nonce =>
    obtain ⟨hwake, hidle⟩ : w.bidder.wake ≤ w.clock ∧ w.bidder.exchange = .idle := legal
    obtain ⟨-, hpost⟩ | ⟨-, ⟨rest, hpost⟩ | ⟨backend, bid, hsigned, hpost⟩⟩ :=
      w.bidder.post_cases node w.clock nonce
    · simp only [Presence.next, hpost]
      exact ⟨by dsimp only; omega, fun hne => absurd rfl hne, fun _ hbid => by cases hbid⟩
    · simp only [Presence.next, hpost]
      exact ⟨offering.prompt, offering.awake, offering.own⟩
    · simp only [Presence.next, hpost]
      refine ⟨offering.prompt, fun _ => hwake, fun bid' hbid' => ?_⟩
      obtain rfl := Exchange.request.inj hbid'
      exact ⟨backend, w.clock, nonce, hwake, le_rfl, hsigned⟩
  | handleBid nowSecs =>
    obtain ⟨⟨bid, hbid⟩, -⟩ : (∃ bid, w.bidder.exchange = .request bid) ∧ _ := legal
    simp only [Presence.next, hbid]
    exact ⟨offering.prompt, fun _ => offering.awake (by simp [hbid]), fun _ hbid => by cases hbid⟩
  | answerBid => exact ⟨offering.prompt, fun hne => absurd rfl hne, fun _ hbid => by cases hbid⟩
  | failBid => exact ⟨offering.prompt, fun hne => absurd rfl hne, fun _ hbid => by cases hbid⟩
  | handle =>
    simp only [Presence.next]
    split
    · exact ⟨offering.prompt, offering.awake, offering.own⟩
    · exact offering
  | answer =>
    simp only [Presence.next]
    split
    · exact ⟨offering.prompt, offering.awake, offering.own⟩
    · exact offering
  | post nonce => exact ⟨offering.prompt, offering.awake, offering.own⟩
  | fail => exact ⟨offering.prompt, offering.awake, offering.own⟩
  | input i => exact ⟨offering.prompt, offering.awake, offering.own⟩
  | restart => exact ⟨offering.prompt, offering.awake, offering.own⟩

end Bids

variable {h h₀ : List Scene} {s t : World} {e : Scene} {k : ℕ} {backend : BackendType} {w : World}
  {a : Action}

theorem Offering.run (r : Run (machine node timing) s h t) (offering : Offering node timing s) :
    Offering node timing t :=
  r.invariant (Offering node timing) offering fun _ _ ih legal => ih.next legal

theorem offering (H : (machine node timing).History h s) : Offering node timing s := by
  obtain ⟨s₀, ⟨-, hstart⟩, r⟩ := H
  refine Offering.run r ⟨?_, fun hne => ?_, fun bid hbid => ?_⟩
  · rw [hstart]
    exact Nat.le_add_right ..
  · rw [hstart] at hne
    exact absurd rfl hne
  · rw [hstart] at hbid
    cases hbid

/-! ## The lease of a bid -/

variable (node) in
/-- The coordinator has an offer of the node that was signed at this time or later. -/
def Offers (backend : BackendType) (s : State) (n : ℕ) : Prop :=
  ∃ bid, s.bids (node.cfg.identityPubkey, backend) = some bid ∧ OfferOf node backend bid ∧
    n / second + validFor ≤ bid.validUntil.toNat

variable (crypto) in
/-- A bid of the loop for a backend reaches the coordinator, which accepts it. -/
def AcceptedBid (backend : BackendType) (e : Scene) : Prop :=
  ∃ nowSecs bid s, e.act = .handleBid nowSecs ∧ e.pre.bidder.exchange = .request bid ∧
    bid.backend = backend ∧ Coordinator.postBid crypto e.pre.coord nowSecs bid = .ok s

variable (node timing) in
/-- The rounds of the bid loop, which end when it goes to sleep. -/
def bidding (backend : BackendType) : Rounds World Action where
  clock := World.clock
  wake w := w.bidder.wake
  period := refresh
  delay := timing.delay
  ends e := match e.act with
    | .postBid _ => e.pre.bidder.todo.isEmpty
    | _ => false
  renews := AcceptedBid crypto backend
  holds w n := n ≤ w.bidder.wake ∧ Offers node backend w.coord n

/-- What others post for the slot of an offer: bids of the node that are not older than the one
that the coordinator has. Nobody else can sign such bids, but whoever saw an old one could post it
again. -/
def NoneOutdated (node : Node crypto) (backend : BackendType) (e : Scene) : Prop :=
  ∀ nowSecs bid, e.act = .input (.postBid nowSecs bid) → VerifiedBid crypto bid →
    slot bid = (node.cfg.identityPubkey, backend) → OfferOf node backend bid ∧
      ∀ held, e.pre.coord.bids (slot bid) = some held → held.validUntil ≤ bid.validUntil

/-- The nanoseconds for which an offer is valid on every clock. -/
def lease (timing : Timing) : ℕ := (validFor - timing.skew - 1) * second

variable {n nowSecs : ℕ} {bid : Bid} {s' : State} {i : Input}

/-- Whoever reads the clock before the lease of an offer lapses finds it valid. -/
theorem valid_of_reads (reads : Reads timing w nowSecs) (fresh : w.clock < n + lease timing)
    (hskew : timing.skew + 1 < validFor) {validUntil : ℕ}
    (hvalid : n / second + validFor ≤ validUntil) : nowSecs < validUntil := by
  have hsecond : second = 1000000000 := rfl
  have hfor : validFor = 180 := rfl
  unfold Reads at reads
  unfold lease at fresh
  rw [hsecond] at reads fresh hvalid
  omega

theorem bids_of_receive {m : Message} {now : ℕ} {s : State}
    (hreceive : receive crypto s now m = .ok s') : s'.bids = s.bids := by
  cases receive_eq_ok.1 hreceive with
  | register => rfl
  | heartbeat => rfl

/-- A bid that is accepted leaves the other slots, and is in its own. -/
theorem Offers.postBid {s : State} (offers : Offers node backend s n)
    (hpost : Coordinator.postBid crypto s nowSecs bid = .ok s')
    (hbid : slot bid = (node.cfg.identityPubkey, backend) →
      OfferOf node backend bid ∧ n / second + validFor ≤ bid.validUntil.toNat) :
    Offers node backend s' n := by
  obtain ⟨-, -, rfl⟩ := postBid_eq_ok.1 hpost
  by_cases hslot : slot bid = (node.cfg.identityPubkey, backend)
  · rw [Offers, hslot]
    exact ⟨bid, Function.update_self .., hbid hslot⟩
  · obtain ⟨held, hheld, hoffer⟩ := offers
    exact ⟨held, (Function.update_of_ne (Ne.symm hslot) ..).trans hheld, hoffer⟩

/-- No input takes an offer away that has not lapsed. -/
theorem Offers.input (offers : Offers node backend w.coord n) (timely : Timely timing w i)
    (current : NoneOutdated node backend ⟨w, .input i, next node w (.input i)⟩)
    (fresh : w.clock < n + lease timing) (hskew : timing.skew + 1 < validFor) :
    Offers node backend ((books crypto).next w.coord i) n := by
  cases i with
  | message now m =>
    simp only [books, handle]
    split
    · rename_i s' hreceive
      rw [Offers, bids_of_receive hreceive]
      exact offers
    · exact offers
  | postBid nowSecs bid =>
    simp only [books, handle]
    split
    · rename_i s' hpost
      refine offers.postBid hpost fun hslot => ?_
      obtain ⟨hoffer, hheld⟩ := current nowSecs bid rfl (postBid_eq_ok.1 hpost).1 hslot
      obtain ⟨held, hbid, -, hvalid⟩ := offers
      exact ⟨hoffer, hvalid.trans (hheld held (hslot ▸ hbid))⟩
    · exact offers
  | gcNodes shard now => exact offers
  | gcBids shard nowSecs =>
    obtain ⟨bid, hbid, hoffer, hvalid⟩ := offers
    have hlt := valid_of_reads timely fresh hskew hvalid
    exact ⟨bid, Option.filter_eq_some_iff.2 ⟨hbid, by simp [hlt]⟩, hoffer, hvalid⟩

/-- A bid that the loop has under way is an offer signed since the round was due. -/
theorem Offering.offer (offering : Offering node timing w)
    (hbid : w.bidder.exchange = .request bid) (hclock : w.clock / second + validFor < 2 ^ 64)
    (hn : n ≤ w.bidder.wake) :
    OfferOf node bid.backend bid ∧ n / second + validFor ≤ bid.validUntil.toNat := by
  obtain ⟨backend, t, nonce, hwake, hle, hsigned⟩ := offering.own bid hbid
  obtain ⟨hoffer, -, hvalid⟩ := offerOf_signedBid hsigned
  have hbackend : bid.backend = backend := congrArg Prod.snd hoffer.slot
  have hsecs : n / second ≤ t / second := Nat.div_le_div_right (hn.trans hwake)
  have hsecs' : t / second ≤ w.clock / second := Nat.div_le_div_right hle
  rw [saturatingAdd_of_lt (by omega)] at hvalid
  exact ⟨hbackend ▸ hoffer, by omega⟩

/-- Only a restart takes an offer away before its lease lapses. -/
theorem offers_next (legal : (machine node timing).Legal w a) (up : a ≠ .restart)
    (offering : Offering node timing w) (current : NoneOutdated node backend ⟨w, a, next node w a⟩)
    (hclock : w.clock / second + validFor < 2 ^ 64) (hskew : timing.skew + 1 < validFor)
    (hn : n ≤ w.bidder.wake) (offers : Offers node backend w.coord n)
    (fresh : w.clock < n + lease timing) : Offers node backend (next node w a).coord n := by
  cases a with
  | handle =>
    obtain ⟨m, hm⟩ : ∃ m, w.registrar.exchange = .request m := legal
    simp only [next, hm]
    cases hreceive : receive crypto w.coord w.clock m with
    | ok s =>
      rw [Offers, answered, bids_of_receive hreceive]
      exact offers
    | error r => exact offers
  | handleBid nowSecs =>
    obtain ⟨⟨bid, hbid⟩, -⟩ : (∃ bid, w.bidder.exchange = .request bid) ∧ _ := legal
    simp only [next, hbid]
    cases hpost : Coordinator.postBid crypto w.coord nowSecs bid with
    | ok s =>
      refine offers.postBid hpost fun hslot => ?_
      obtain ⟨hoffer, hvalid⟩ := offering.offer hbid hclock hn
      have hbackend : bid.backend = backend := congrArg Prod.snd hslot
      exact ⟨hbackend ▸ hoffer, hvalid⟩
    | error r => exact offers
  | answer =>
    simp only [next]
    split <;> exact offers
  | input i => exact offers.input legal current fresh hskew
  | restart => exact absurd rfl up
  | _ => exact offers

variable (backend) in
theorem due_bids (legal : (machine node timing).Legal w a) :
    w.bidder.wake ≤ (next node w a).bidder.wake ∧ (next node w a).bidder.wake ≤
      if (bidding node timing backend).ends ⟨w, a, next node w a⟩ then w.clock + refresh
      else w.bidder.wake := by
  cases a with
  | postBid nonce =>
    have hwake : w.bidder.wake ≤ w.clock := legal.1
    simp only [bidding, next, List.isEmpty_iff]
    obtain ⟨htodo, hpost⟩ | ⟨htodo, ⟨rest, hpost⟩ | ⟨-, bid, -, hpost⟩⟩ :=
      w.bidder.post_cases node w.clock nonce
    · rw [hpost, if_pos htodo]
      exact ⟨hwake.trans (Nat.le_add_right ..), le_rfl⟩
    · rw [hpost, if_neg htodo]
      exact ⟨le_rfl, le_rfl⟩
    · rw [hpost, if_neg htodo]
      exact ⟨le_rfl, le_rfl⟩
  | handle =>
    simp only [bidding, next]
    split <;> exact ⟨le_rfl, le_rfl⟩
  | answer =>
    simp only [bidding, next]
    split <;> exact ⟨le_rfl, le_rfl⟩
  | handleBid nowSecs =>
    simp only [bidding, next]
    split <;> exact ⟨le_rfl, le_rfl⟩
  | _ => exact ⟨le_rfl, le_rfl⟩

/-- **An event of a run** without a restart is one of the rounds of the lease of an offer. -/
theorem step_bidding (legal : (machine node timing).Legal w a) (up : a ≠ .restart)
    (offering : Offering node timing w) (current : NoneOutdated node backend ⟨w, a, next node w a⟩)
    (hclock : w.clock / second + validFor < 2 ^ 64) (hskew : timing.skew + 1 < validFor) :
    (bidding node timing backend).Step (lease timing) ⟨w, a, next node w a⟩ where
  prompt := (offering.next legal).prompt
  due := (due_bids backend legal).2
  renewed := by
    rintro ⟨nowSecs, bid, s, hact, hbid, rfl, hpost⟩
    obtain rfl : a = .handleBid nowSecs := hact
    have hbid : w.bidder.exchange = .request bid := hbid
    have hpost : Coordinator.postBid crypto w.coord nowSecs bid = .ok s := hpost
    obtain ⟨hoffer, hvalid⟩ := offering.offer hbid hclock le_rfl
    refine ⟨rfl, ?_⟩
    simp only [bidding, next, hbid, hpost]
    obtain ⟨-, -, rfl⟩ := postBid_eq_ok.1 hpost
    refine ⟨le_rfl, bid, ?_, hoffer, hvalid⟩
    rw [answered, ← hoffer.slot]
    exact Function.update_self ..
  kept n hholds fresh := ⟨hholds.1.trans (due_bids backend legal).1,
    offers_next legal up offering current hclock hskew hholds.1 hholds.2 fresh⟩

/-- The lease of an offer has a length, so the clocks do not differ too much. -/
theorem skew_lt (hlease : 0 < lease timing) : timing.skew + 1 < validFor := by
  have hpos := Nat.pos_of_mul_pos_right hlease
  omega

theorem clock_le_run (r : Run (machine node timing) s h t) : s.clock ≤ t.clock :=
  r.invariant (fun t => s.clock ≤ t.clock) le_rfl fun _ _ ih _ => ih.trans clock_le_next

/-- An offer of the node is there, when rounds missed at most so often in a row. -/
theorem offers_of_few (r : Run (machine node timing) s h t) (offering : Offering node timing s)
    (up : ∀ e ∈ h, e.act ≠ .restart) (current : ∀ e ∈ h, NoneOutdated node backend e)
    (few : (bidding node timing backend).MissesAtMost k h)
    (fast : (k + 1) * (refresh + timing.delay) + timing.delay < lease timing)
    (late : s.bidder.wake + (k + 1) * (refresh + timing.delay) + timing.delay < t.clock)
    (hclock : t.clock / second + validFor < 2 ^ 64) :
    ∃ bid, t.coord.bids (node.cfg.identityPubkey, backend) = some bid ∧
      OfferOf node backend bid ∧
        ∀ nowSecs, Reads timing t nowSecs → nowSecs < bid.validUntil.toNat := by
  have hskew : timing.skew + 1 < validFor := skew_lt (by omega)
  have steps : ∀ e ∈ h, (bidding node timing backend).Step (lease timing) e := by
    intro e he
    obtain ⟨h₁, h₂, rfl⟩ := List.append_of_mem he
    obtain ⟨run, legal, hpost, -⟩ := r.split
    have hle : e.pre.clock ≤ t.clock := clock_le_run r.rest
    have hsecs : e.pre.clock / second ≤ t.clock / second := Nat.div_le_div_right hle
    have hup := up e he
    have hcurrent := current e he
    obtain ⟨w, a, w'⟩ := e
    obtain rfl : w' = next node w a := hpost
    exact step_bidding legal hup (offering.run run) hcurrent (by dsimp only at hsecs; omega) hskew
  obtain ⟨n, ⟨-, bid, hbid, hoffer, hvalid⟩, fresh⟩ := Rounds.held
    (R := bidding node timing backend) r offering.prompt steps few fast late
  exact ⟨bid, hbid, hoffer, fun nowSecs reads => valid_of_reads reads fresh hskew hvalid⟩

/-! ## Bids that do not fail -/

/-- The bid for the backend is still to be posted in this round, or under way. -/
structure ToBid (backend : BackendType) (w : World) : Prop where
  mem : backend ∈ w.bidder.todo
  request : ∀ bid, w.bidder.exchange = .request bid → w.bidder.todo.head? = some bid.backend
  response : ∀ r, w.bidder.exchange = .response r → backend ∈ w.bidder.todo.tail

theorem exists_signedBid (nonce : String)
    (hprice : ∃ p, node.cfg.pricing.find? (fun p => p.backend = backend) = some p) :
    ∃ bid, signedBid node backend validFor nowSecs nonce = some bid := by
  obtain ⟨p, hp⟩ := hprice
  simp only [signedBid, hp, Option.map_some, Option.bind_eq_bind, Option.bind_some]
  exact ⟨_, rfl⟩

/-- A bid of the loop is accepted, if rounds are over before it lapses. -/
theorem Offering.accepted (offering : Offering node timing w)
    (hbid : w.bidder.exchange = .request bid) (reads : Reads timing w nowSecs)
    (hclock : w.clock / second + validFor < 2 ^ 64) (fast : timing.delay < lease timing) :
    ∃ s, Coordinator.postBid crypto w.coord nowSecs bid = .ok s := by
  obtain ⟨-, hvalid⟩ := offering.offer hbid hclock le_rfl
  obtain ⟨backend, t, nonce, -, -, hsigned⟩ := offering.own bid hbid
  have hprompt := offering.prompt
  have hlt := valid_of_reads reads (by omega) (skew_lt (Nat.zero_lt_of_lt fast)) hvalid
  exact ⟨_, postBid_eq_ok.2 ⟨(offerOf_signedBid hsigned).2.1, hlt, rfl⟩⟩

theorem ToBid.next (toBid : ToBid backend w) (legal : (machine node timing).Legal w a)
    (works : a ≠ .failBid) (offering : Offering node timing w)
    (hprice : ∃ p, node.cfg.pricing.find? (fun p => p.backend = backend) = some p)
    (hclock : w.clock / second + validFor < 2 ^ 64) (fast : timing.delay < lease timing)
    (hnone : ¬ AcceptedBid crypto backend ⟨w, a, next node w a⟩) :
    (bidding node timing backend).ends ⟨w, a, Presence.next node w a⟩ = false ∧
      ToBid backend (next node w a) := by
  cases a with
  | postBid nonce =>
    have hidle : w.bidder.exchange = .idle := legal.2
    obtain ⟨b, rest, htodo⟩ := List.exists_cons_of_ne_nil (List.ne_nil_of_mem toBid.mem)
    have hmem := toBid.mem
    rw [htodo] at hmem
    refine ⟨by simp [bidding, htodo], ?_⟩
    simp only [Presence.next, Bidder.post, htodo]
    cases hbid : signedBid node b validFor (w.clock / second) nonce with
    | none =>
      -- a backend without a price is not this one
      have hrest : backend ∈ rest := (List.mem_cons.1 hmem).resolve_left fun heq => by
        obtain ⟨bid, hsome⟩ := exists_signedBid nonce hprice
        rw [heq, hbid] at hsome
        cases hsome
      refine ⟨hrest, fun bid hne => ?_, fun r hne => ?_⟩
      · cases hidle.symm.trans hne
      · cases hidle.symm.trans hne
    | some bid =>
      have hbackend : bid.backend = b := congrArg Prod.snd (offerOf_signedBid hbid).1.slot
      refine ⟨hmem, fun bid' hbid' => ?_, fun _ hr => by cases hr⟩
      obtain rfl := Exchange.request.inj hbid'
      exact congrArg some hbackend.symm
  | handleBid nowSecs =>
    obtain ⟨⟨bid, hbid⟩, reads⟩ : (∃ bid, w.bidder.exchange = .request bid) ∧ _ := legal
    obtain ⟨s, hpost⟩ := offering.accepted hbid reads hclock fast
    have hne : bid.backend ≠ backend := fun heq =>
      hnone ⟨nowSecs, bid, s, rfl, hbid, heq, hpost⟩
    obtain ⟨rest, htodo⟩ : ∃ rest, w.bidder.todo = bid.backend :: rest :=
      List.head?_eq_some_iff.1 (toBid.request bid hbid)
    have hmem : backend ∈ rest := by
      have := toBid.mem
      rw [htodo] at this
      exact (List.mem_cons.1 this).resolve_left (Ne.symm hne)
    refine ⟨rfl, ?_⟩
    simp only [Presence.next, hbid, hpost]
    refine ⟨toBid.mem, fun _ hb => (by cases hb), fun r _ => ?_⟩
    rw [htodo]
    exact hmem
  | answerBid =>
    obtain ⟨r, hr⟩ : ∃ r, w.bidder.exchange = .response r := legal
    exact ⟨rfl, toBid.response r hr, fun _ hb => (by cases hb), fun _ hr => by cases hr⟩
  | failBid => exact absurd rfl works
  | handle =>
    refine ⟨rfl, ?_⟩
    simp only [Presence.next]
    split
    · exact ⟨toBid.mem, toBid.request, toBid.response⟩
    · exact toBid
  | answer =>
    refine ⟨rfl, ?_⟩
    simp only [Presence.next]
    split
    · exact ⟨toBid.mem, toBid.request, toBid.response⟩
    · exact toBid
  | _ => exact ⟨rfl, toBid.mem, toBid.request, toBid.response⟩

/-- If no bid fails, no round misses. -/
theorem bidsMissNone (r : Run (machine node timing) s h t) (offering : Offering node timing s)
    (works : ∀ e ∈ h, e.act ≠ .failBid) (hmem : backend ∈ node.cfg.backends)
    (hprice : ∃ p, node.cfg.pricing.find? (fun p => p.backend = backend) = some p)
    (hclock : t.clock / second + validFor < 2 ^ 64) (fast : timing.delay < lease timing) :
    (bidding node timing backend).MissesAtMost 0 h := by
  refine Rounds.missesAtMost_zero (ToBid backend) r (fun e he hends => ?_)
    fun e he toBid hnone => ?_
  · have hpost := r.post_eq he
    obtain ⟨w, a, w'⟩ := e
    obtain rfl : w' = next node w a := hpost
    cases a with
    | postBid nonce =>
      have htodo : w.bidder.todo = [] := List.isEmpty_iff.1 hends
      simp only [next, Bidder.post, htodo]
      exact ⟨hmem, fun _ hb => (by cases hb), fun _ hr => by cases hr⟩
    | _ => cases hends
  · have hwork := works e he
    obtain ⟨h₁, h₂, rfl⟩ := List.append_of_mem he
    obtain ⟨run, legal, hpost, -⟩ := r.split
    have hle : e.pre.clock / second ≤ t.clock / second := Nat.div_le_div_right (clock_le_run r.rest)
    obtain ⟨w, a, w'⟩ := e
    obtain rfl : w' = next node w a := hpost
    have hclock : w.clock / second + validFor < 2 ^ 64 := by
      dsimp only at hle
      omega
    exact toBid.next legal hwork (offering.run run) hprice hclock fast hnone

/-! ## The registration of a node -/

variable (node) in
/-- A registration of the node, for a backend among others. -/
def RegistrationOf (backend : BackendType) (reg : NodeRegistration) : Prop :=
  reg.identityPubkey = node.cfg.identityPubkey ∧ backend ∈ reg.backends

variable (node) in
/-- What the coordinator has of the node is a registration for the backend. -/
def Lists (backend : BackendType) (s : State) : Prop :=
  ∀ entry, s.nodes node.cfg.identityPubkey = some entry → RegistrationOf node backend entry.reg

/-- What others send of the registrations of the node are some for the backend. Nobody else can
sign them. -/
def NoneForeign (node : Node crypto) (backend : BackendType) (e : Scene) : Prop :=
  ∀ now reg, e.act = .input (.message now (.register reg)) → Verified crypto (.register reg) →
    reg.identityPubkey = node.cfg.identityPubkey → backend ∈ reg.backends

theorem Lists.receive {s : State} {m : Message} {now : ℕ} (lists : Lists node backend s)
    (hreceive : receive crypto s now m = .ok s')
    (hreg : ∀ reg, m = .register reg → Verified crypto m →
      reg.identityPubkey = node.cfg.identityPubkey → backend ∈ reg.backends) :
    Lists node backend s' := by
  intro entry hentry
  have received := receive_eq_ok.1 hreceive
  obtain ⟨-, hold⟩ | ⟨hidentity, -, rfl | ⟨-, old, hold, hsame⟩⟩ := received.entry_cases hentry
  · exact lists entry hold
  · have verified : Verified crypto (.register entry.reg) := by
      cases received
      assumption
    exact ⟨hidentity, hreg entry.reg rfl verified hidentity⟩
  · exact hsame ▸ lists old hold

theorem lists_next (legal : (machine node timing).Legal w a) (sound : Sound node timing w)
    (own : NoneForeign node backend ⟨w, a, next node w a⟩) (hmem : backend ∈ node.cfg.backends)
    (lists : Lists node backend w.coord) : Lists node backend (next node w a).coord := by
  cases a with
  | handle =>
    obtain ⟨m, hm⟩ : ∃ m, w.registrar.exchange = .request m := legal
    obtain ⟨nonce, rfl⟩ := sound.own m hm
    simp only [next, hm]
    cases hreceive : receive crypto w.coord w.clock (w.registrar.phase.message node nonce) with
    | error r => exact lists
    | ok s =>
      refine lists.receive hreceive fun reg hreg _ _ => ?_
      cases hphase : w.registrar.phase with
      | beating => rw [hphase] at hreg; cases hreg
      | registering =>
        rw [hphase] at hreg
        obtain rfl := Message.register.inj hreg
        exact hmem
      | reregistering =>
        rw [hphase] at hreg
        obtain rfl := Message.register.inj hreg
        exact hmem
  | handleBid nowSecs =>
    obtain ⟨⟨bid, hbid⟩, -⟩ : (∃ bid, w.bidder.exchange = .request bid) ∧ _ := legal
    simp only [next, hbid]
    cases hpost : Coordinator.postBid crypto w.coord nowSecs bid with
    | error r => exact lists
    | ok s =>
      obtain ⟨-, -, rfl⟩ := postBid_eq_ok.1 hpost
      exact lists
  | answer =>
    simp only [next]
    split <;> exact lists
  | input i =>
    cases i with
    | message now m =>
      simp only [next, books, handle]
      split
      · rename_i s' hreceive
        refine lists.receive hreceive fun reg hreg => ?_
        subst hreg
        exact own now reg rfl
      · exact lists
    | postBid nowSecs bid =>
      simp only [next, books, handle]
      split
      · rename_i s' hpost
        obtain ⟨-, -, rfl⟩ := postBid_eq_ok.1 hpost
        exact lists
      · exact lists
    | gcNodes shard now =>
      exact fun entry hentry => lists entry (Option.filter_eq_some_iff.1 hentry).1
    | gcBids shard nowSecs => exact lists
  | restart => exact fun entry hentry => by cases hentry
  | _ => exact lists

theorem Lists.run (r : Run (machine node timing) s h t) (sound : Sound node timing s)
    (own : ∀ e ∈ h, NoneForeign node backend e) (hmem : backend ∈ node.cfg.backends)
    (lists : Lists node backend s.coord) : Lists node backend t.coord := by
  refine r.invariantHistory (fun _ t => Lists node backend t.coord)
    (fun _ e => NoneForeign node backend e) (along_of_forall own) lists ?_
  intro h t a run lists legal own
  exact lists_next legal (sound.run run) own hmem lists

/-! ## A minute of a deployment -/

namespace Deployment

/-- Seven rounds of heartbeats and two of bids, and three seconds. -/
theorem works_minute : ∃ s, Works lone pace start ⟨6 * heartbeatInterval + 3 * second,
    ⟨.beating, 7 * heartbeatInterval, .idle⟩,
    ⟨lone.cfg.backends, 6 * heartbeatInterval + refresh, .idle⟩, s⟩ := by
  obtain ⟨s₁, h₁⟩ := works_first
  obtain ⟨s₂, h₂⟩ := works_beats s₁ 0 6 (by decide)
  obtain ⟨s₃, h₃⟩ := works_bids (w := asleep (6 * heartbeatInterval) (7 * heartbeatInterval) s₂) rfl
    (by decide : refresh ≤ 6 * heartbeatInterval)
  have hregistrar : 6 * heartbeatInterval + 3 * second ≤ 7 * heartbeatInterval + second := by
    decide
  have hbidder : 6 * heartbeatInterval + 3 * second ≤ 6 * heartbeatInterval + refresh + second := by
    decide
  exact ⟨s₃, ((h₁.trans h₂).trans h₃).trans (works_wait hregistrar hbidder)⟩

variable (node) in
/-- The coordinator lists nobody but the node, and has no bids of others. -/
def Alone (s : State) : Prop := ∀ id, id ≠ node.cfg.identityPubkey →
  s.nodes id = none ∧ ∀ backend, s.bids (id, backend) = none

theorem Alone.receive {s : State} (alone : Alone node s) {m : Message}
    (hidentity : m.identity = node.cfg.identityPubkey) {now : ℕ}
    (hreceive : receive crypto s now m = .ok s') : Alone node s' := by
  intro id hid
  refine ⟨?_, bids_of_receive hreceive ▸ (alone id hid).2⟩
  rw [Option.eq_none_iff_forall_ne_some]
  intro entry hentry
  obtain ⟨-, hold⟩ | ⟨hm, -⟩ := (receive_eq_ok.1 hreceive).entry_cases hentry
  · cases (alone id hid).1.symm.trans hold
  · exact hid (hm.symm.trans hidentity)

theorem Alone.postBid {s : State} (alone : Alone node s)
    (hslot : slot bid = (node.cfg.identityPubkey, backend))
    (hpost : Coordinator.postBid crypto s nowSecs bid = .ok s') : Alone node s' := by
  obtain ⟨-, -, rfl⟩ := postBid_eq_ok.1 hpost
  intro id hid
  refine ⟨(alone id hid).1, fun backend' => ?_⟩
  have hne : (id, backend') ≠ slot bid := by
    rw [hslot]
    exact fun heq => hid (congrArg Prod.fst heq)
  exact (Function.update_of_ne hne ..).trans ((alone id hid).2 backend')

/-- Quiet actions let nobody else in. -/
theorem Alone.next (alone : Alone node w.coord) (legal : (machine node timing).Legal w a)
    (quiet : a.Quiet) (sound : Sound node timing w) (offering : Offering node timing w) :
    Alone node (next node w a).coord := by
  cases a with
  | handle =>
    obtain ⟨m, hm⟩ : ∃ m, w.registrar.exchange = .request m := legal
    obtain ⟨nonce, rfl⟩ := sound.own m hm
    simp only [Presence.next, hm]
    cases hreceive : Coordinator.receive crypto w.coord w.clock
      (w.registrar.phase.message node nonce) with
    | error r => exact alone
    | ok s => exact alone.receive (verified_message node _ nonce).2 hreceive
  | handleBid nowSecs =>
    obtain ⟨⟨bid, hbid⟩, -⟩ : (∃ bid, w.bidder.exchange = .request bid) ∧ _ := legal
    obtain ⟨backend, t, nonce, -, -, hsigned⟩ := offering.own bid hbid
    simp only [Presence.next, hbid]
    cases hpost : Coordinator.postBid crypto w.coord nowSecs bid with
    | error r => exact alone
    | ok s => exact alone.postBid (offerOf_signedBid hsigned).1.slot hpost
  | answer =>
    simp only [Presence.next]
    split <;> exact alone
  | fail => exact quiet.elim
  | failBid => exact quiet.elim
  | input i => exact quiet.elim
  | restart => exact quiet.elim
  | _ => exact alone

theorem Alone.run (alone : Alone node s.coord) (r : Run (machine node timing) s h t)
    (quiet : ∀ e ∈ h, e.act.Quiet) (sound : Sound node timing s)
    (offering : Offering node timing s) : Alone node t.coord := by
  refine r.invariantHistory (fun _ t => Alone node t.coord) (fun _ e => e.act.Quiet)
    (along_of_forall quiet) alone ?_
  intro h t a run alone legal quiet
  exact alone.next legal quiet (sound.run run) (offering.run run)

/-- Another node, which is dearer. -/
def rival : Presence.Node .symbolic where
  identity := ⟨.replicate identityPubkeySize 3,
    IdentityCrypto.symbolicSign (.replicate identityPubkeySize 3),
    IdentityCrypto.symbolic_verify_sign List.length_replicate⟩
  cfg := ⟨.ofList (Text.hexEncode (.replicate identityPubkeySize 3)), "", "http://127.0.0.1:7778",
    [.Local], 100000, [⟨.Local, "7"⟩]⟩
  identityPubkey_eq := rfl

theorem rival_ne_lone : rival.cfg.identityPubkey ≠ lone.cfg.identityPubkey := by
  intro heq
  have hdigits := String.ofList_injective heq
  revert hdigits
  decide +kernel

/-- The other node registers. -/
def arrival : NodeRegistration := signedRegistration rival ""

/-- The coordinator with both nodes. -/
def joined (w : World) : World :=
  { w with coord := { w.coord with
    nodes := Function.update w.coord.nodes rival.cfg.identityPubkey (some ⟨arrival, w.clock⟩) } }

theorem next_arrival (w : World) :
    next lone w (.input (.message w.clock (.register arrival))) = joined w := by
  have verified : Verified .symbolic (.register arrival) :=
    (verified_message rival .registering "").1
  have hidentity : arrival.identityPubkey = rival.cfg.identityPubkey :=
    (verified_message rival .registering "").2
  simp only [Presence.next, next_message verified, hidentity, joined]

/-- The offer of the other node, whose bids the coordinator does not have. -/
theorem price_of_arrival {spec : JobSpec} (hspec : spec.backend = .Local) {price : ℕ}
    (heligible : Eligible spec nowSecs arrival none price) : price = 7 := by
  obtain ⟨text, cap, hoffer, hparse, -⟩ := heligible.offers
  have hprice : offer spec nowSecs arrival none = some ("7", 100000) := by
    simp only [offer, hspec, Option.filter_none]
    decide
  obtain ⟨rfl, -⟩ : text = "7" ∧ cap = 100000 := by simpa [eq_comm] using hoffer.symm.trans hprice
  exact Option.some.inj (hparse.symm.trans (by decide))

/-- The other node is all that has come to those that the coordinator listed. -/
theorem iterates_joined {w : World} (alone : Alone lone w.coord) {entry : Coordinator.Entry}
    (hentry : (joined w).coord.nodes lone.cfg.identityPubkey = some entry) :
    Iterates (joined w).coord [(rival.cfg.identityPubkey, ⟨arrival, w.clock⟩),
      (lone.cfg.identityPubkey, entry)] := by
  have hlone : w.coord.nodes lone.cfg.identityPubkey = some entry := by
    simpa only [joined, Function.update_of_ne rival_ne_lone.symm] using hentry
  have hnodes : w.coord.nodes =
      Function.update (fun _ => none) lone.cfg.identityPubkey (some entry) := by
    funext id
    by_cases hid : id = lone.cfg.identityPubkey
    · rw [hid, Function.update_self, hlone]
    · rw [Function.update_of_ne hid, (alone id hid).1]
  exact (iterates_single hnodes).cons (alone _ rival_ne_lone).1 rfl

/-- It is dearer than the node. -/
theorem not_fits_arrival {w : World} (alone : Alone lone w.coord) {spec : JobSpec}
    (hspec : spec.backend = .Local) {price : ℕ} (hle : price ≤ 5) :
    ¬ Coordinator.Fits (joined w).coord spec nowSecs arrival price := by
  intro hfits
  have hbid : (joined w).coord.bids (rival.cfg.identityPubkey, spec.backend) = none :=
    (alone _ rival_ne_lone).2 spec.backend
  have heligible : Eligible spec nowSecs arrival none price := hbid ▸ hfits
  obtain rfl := price_of_arrival hspec heligible
  exact absurd hle (by decide)

/-- In a quiet run that the other node ends by registering, no other action is not quiet. -/
theorem quiet_or_arrival {h : List Scene} (quiet : ∀ e ∈ h, e.act.Quiet) (w : World) :
    ∀ e ∈ h ++ [⟨w, .input (.message w.clock (.register arrival)), joined w⟩],
      e.act.Quiet ∨ e.act = .input (.message w.clock (.register arrival)) := by
  intro e he
  rcases List.mem_append.1 he with he | he
  · exact .inl (quiet e he)
  · exact .inr (by rw [List.mem_singleton.1 he])

theorem noneForeign_arrival {e : Scene}
    (hact : e.act.Quiet ∨ e.act = .input (.message w.clock (.register arrival))) :
    NoneForeign lone .Local e := by
  intro now reg hregister _ hidentity
  rcases hact with quiet | harrival
  · exact absurd hregister (quiet.ne_input _)
  · cases hregister.symm.trans harrival
    exact absurd hidentity rival_ne_lone

theorem price_lone : lone.cfg.pricing.find? (fun p => p.backend = .Local) =
    some ⟨.Local, "5"⟩ := by decide

end Deployment

/-! ## The results -/

/-- **An offer stands.** In any part of a run in which the coordinator does not restart, at most `k`
rounds of the bid loop in a row miss and nobody posts an outdated bid again, the coordinator has a
bid with the terms of the node that is valid on every clock, from when `k + 1` rounds were over.
The rounds have to be fast enough that `k + 1` of them, each a minute after the other, and one more
delay fit into the 179 seconds of a lease less the skew of the clocks. -/
theorem standing (H : (machine node timing).History h₀ s) (r : Run (machine node timing) s h t)
    (up : ∀ e ∈ h, e.act ≠ .restart) (current : ∀ e ∈ h, NoneOutdated node backend e)
    (few : (bidding node timing backend).MissesAtMost k h)
    (fast : (k + 1) * (refresh + timing.delay) + timing.delay < lease timing)
    (late : s.bidder.wake + (k + 1) * (refresh + timing.delay) + timing.delay < t.clock)
    (hclock : t.clock / second + validFor < 2 ^ 64) :
    ∃ bid, t.coord.bids (node.cfg.identityPubkey, backend) = some bid ∧
      OfferOf node backend bid ∧
        ∀ nowSecs, Reads timing t nowSecs → nowSecs < bid.validUntil.toNat :=
  offers_of_few r (offering H) up current few fast late hclock

open Deployment in
/-- A node whose loops run for a minute. -/
theorem standing_minute : ∃ h t, (machine lone pace).History h t ∧
    ∃ bid, t.coord.bids (lone.cfg.identityPubkey, .Local) = some bid ∧ OfferOf lone .Local bid ∧
      ∀ nowSecs, Reads pace t nowSecs → nowSecs < bid.validUntil.toNat := by
  obtain ⟨s, h, r, quiet⟩ := works_minute
  have H₀ : (machine lone pace).History [] start := ⟨start, init, .nil⟩
  have hclock : (6 * heartbeatInterval + 3 * second) / second + validFor < 2 ^ 64 := by decide
  have few := bidsMissNone r (offering H₀) (fun e he => (quiet e he).ne_failBid) (.head _)
    ⟨_, price_lone⟩ hclock (by decide)
  exact ⟨h, _, ⟨start, init, r⟩, standing H₀ r (fun e he => (quiet e he).ne_restart)
    (fun e he _ _ hact => absurd hact ((quiet e he).ne_input _)) few (by decide)
    (by decide : 0 + (0 + 1) * (refresh + second) + second < 6 * heartbeatInterval + 3 * second)
    hclock⟩

/-- **A node is found.** When the loops of a node ran long enough with few misses in a row, no
restart of the coordinator and no outdated messages, a job that fits its offer for a backend is
matched, with a node that is no more expensive: whatever else is listed, and in whatever order the
coordinator walks over it. -/
theorem matched (H : (machine node timing).History h₀ s) (r : Run (machine node timing) s h t)
    (up : ∀ e ∈ h, e.act ≠ .restart) (own : ∀ e ∈ h, NoneForeign node backend e)
    (current : ∀ e ∈ h, NoneOutdated node backend e) (lists : Lists node backend s.coord)
    {k l : ℕ} (beats : (heartbeats node timing).MissesAtMost k h)
    (bids : (bidding node timing backend).MissesAtMost l h)
    (fastBeats : (k + 1) * (heartbeatInterval + timing.delay) + timing.delay < heartbeatTimeout)
    (fastBids : (l + 1) * (refresh + timing.delay) + timing.delay < lease timing)
    (lateBeats : s.registrar.wake + (k + 1) * (heartbeatInterval + timing.delay) + timing.delay <
      t.clock)
    (lateBids : s.bidder.wake + (l + 1) * (refresh + timing.delay) + timing.delay < t.clock)
    (hclock : t.clock / second + validFor < 2 ^ 64) {p : BackendPrice} {price : ℕ}
    (hmem : backend ∈ node.cfg.backends)
    (hprice : node.cfg.pricing.find? (fun p => p.backend = backend) = some p)
    (hparse : parseUnsigned (2 ^ 128) p.pricePer1k.toList = some price) {spec : JobSpec}
    (hspec : spec.backend = backend) (hcap : spec.estimatedTokens ≤ node.cfg.maxTokens)
    (haffordable : price ≤ spec.maxPricePer1k.units) {nowSecs : ℕ}
    (reads : Reads timing t nowSecs) {entries : List (String × Coordinator.Entry)}
    (hentries : Iterates t.coord entries) :
    ∃ id entry price', matchJob spec nowSecs (visits t.coord spec.backend entries) =
        .ok ⟨entry.reg.url, entry.reg.publicKey⟩ ∧
      t.coord.nodes id = some entry ∧ Coordinator.Fits t.coord spec nowSecs entry.reg price' ∧
        price' ≤ price := by
  subst hspec
  obtain ⟨n, ⟨entry, hentry, -⟩, -⟩ := seen_of_few r (sound H) up beats fastBeats lateBeats
  obtain ⟨bid, hbid, hoffer, hvalid⟩ := offers_of_few r (offering H) up current bids fastBids
    lateBids hclock
  obtain ⟨hidentity, hlists⟩ := (lists.run r (sound H) own hmem) entry hentry
  obtain ⟨p', hp', htext⟩ := hoffer.price
  obtain rfl : p' = p := Option.some.inj (hp'.symm.trans hprice)
  have hfits : Coordinator.Fits t.coord spec nowSecs entry.reg price := by
    refine ⟨hlists, ⟨bid.pricePer1k, bid.maxTokens, ?_, htext ▸ hparse, hoffer.maxTokens ▸ hcap⟩,
      haffordable⟩
    have hfilter : (some bid).filter (fun b => decide (nowSecs < b.validUntil.toNat)) = some bid :=
      Option.filter_eq_some_iff.2 ⟨rfl, by simp [hvalid nowSecs reads]⟩
    rw [offer, hidentity, hbid, hfilter]
  have hvisit : _ ∈ visits t.coord spec.backend entries :=
    (mem_visits hentries).2 ⟨_, entry, hentry, rfl⟩
  cases hmatch : matchJob spec nowSecs (visits t.coord spec.backend entries) with
  | error rejection => exact absurd hfits (matchJob_eq_error.1 ⟨_, hmatch⟩ _ hvisit price)
  | ok m =>
    obtain ⟨v, hv, price', heligible, rfl, hleast⟩ := matchJob_eq_ok hmatch
    obtain ⟨id, entry', hentry', rfl⟩ := (mem_visits hentries).1 hv
    exact ⟨id, entry', price', rfl, hentry', heligible, hleast _ hvisit price hfits⟩

open Deployment in
/-- A dearer node is listed too, and visited first, and the node of the minute is found. -/
theorem matched_minute : ∃ h t entry, (machine lone pace).History h t ∧
    t.coord.nodes lone.cfg.identityPubkey = some entry ∧
    t.coord.nodes rival.cfg.identityPubkey = some ⟨arrival, t.clock⟩ ∧
    matchJob ⟨.Local, 100, ⟨9, "0.000009"⟩⟩ 0 (visits t.coord .Local
      [(rival.cfg.identityPubkey, ⟨arrival, t.clock⟩), (lone.cfg.identityPubkey, entry)]) =
        .ok ⟨entry.reg.url, entry.reg.publicKey⟩ := by
  obtain ⟨s, h, r, quiet⟩ := works_minute
  have H₀ : (machine lone pace).History [] start := ⟨start, init, .nil⟩
  have alone := Alone.run (fun _ _ => ⟨rfl, fun _ => rfl⟩) r quiet (sound H₀) (offering H₀)
  generalize hw : (⟨6 * heartbeatInterval + 3 * second, _, _, s⟩ : World) = w at r alone
  have hclock : w.clock = 6 * heartbeatInterval + 3 * second := by rw [← hw]
  have legal : (machine lone pace).Legal w (.input (.message w.clock (.register arrival))) := rfl
  have r' := r.snoc_eq legal (next_arrival w)
  have acts := quiet_or_arrival quiet w
  have only : ∀ act, ¬ act.Quiet → act ≠ .input (.message w.clock (.register arrival)) →
      ∀ e ∈ h ++ [⟨w, .input (.message w.clock (.register arrival)), joined w⟩], e.act ≠ act := by
    rintro _ hquiet hne e he rfl
    exact (acts e he).elim hquiet hne
  have up := only .restart id (by simp)
  have current : ∀ e ∈ h ++ [⟨w, .input (.message w.clock (.register arrival)), joined w⟩],
      NoneOutdated lone .Local e := fun e he nowSecs bid hact =>
    absurd hact (only (.input (.postBid nowSecs bid)) id (by simp) e he)
  have beats := missesNone r' (sound H₀) (only .fail id (by simp))
  have hvalid : (joined w).clock / second + validFor < 2 ^ 64 := by
    rw [joined, hclock]
    decide
  have bids := bidsMissNone r' (offering H₀) (only .failBid id (by simp)) (.head _)
    ⟨_, price_lone⟩ hvalid (by decide)
  have fastBeats : (0 + 1) * (heartbeatInterval + second) + second < heartbeatTimeout := by decide
  have lateBeats : 0 + (0 + 1) * (heartbeatInterval + second) + second < (joined w).clock := by
    rw [joined, hclock]
    decide
  have lateBids : 0 + (0 + 1) * (refresh + second) + second < (joined w).clock := by
    rw [joined, hclock]
    decide
  obtain ⟨n, ⟨entry, hentry, -⟩, -⟩ := seen_of_few r' (sound H₀) up beats fastBeats lateBeats
  have hentries := iterates_joined alone hentry
  have hrival : (joined w).coord.nodes rival.cfg.identityPubkey = some ⟨arrival, w.clock⟩ := by
    simp only [joined, Function.update_self]
  obtain ⟨id, entry', price', hmatch, hentry', hfits, hle⟩ := matched H₀ r' up
    (fun e he => noneForeign_arrival (acts e he)) current nofun beats bids fastBeats (by decide)
    lateBeats lateBids hvalid (.head _) price_lone
    (by decide : parseUnsigned (2 ^ 128) "5".toList = some 5)
    (rfl : (⟨.Local, 100, ⟨9, "0.000009"⟩⟩ : JobSpec).backend = .Local) (by decide) (by decide)
    (Nat.zero_le _) hentries
  refine ⟨_, _, entry, ⟨start, init, r'⟩, hentry, hrival, hmatch.trans ?_⟩
  obtain hid | hid : (id, entry') = (rival.cfg.identityPubkey, ⟨arrival, w.clock⟩) ∨
      (id, entry') = (lone.cfg.identityPubkey, entry) := by
    simpa only [List.mem_cons, List.not_mem_nil, or_false] using (hentries.2 id entry').2 hentry'
  · obtain ⟨rfl, rfl⟩ := Prod.mk.inj hid
    exact absurd hfits (not_fits_arrival alone rfl hle)
  · obtain ⟨rfl, rfl⟩ := Prod.mk.inj hid
    rfl

end Flodex.Presence
