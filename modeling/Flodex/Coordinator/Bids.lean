import Flodex.Coordinator.Books

/-!
# The order of bids

Owners sign bids, each valid for longer than the ones before, and whoever has a bid can send it:
`GET /bids` shows it to everybody. The coordinator replaces the bid of a slot by any bid that it
accepts, so what the book holds is what was delivered last, which is what was signed last only if
no delivery is out of order (`latestWins_iff`).
-/

namespace Flodex.Coordinator

open Function

/-- The terms of a bid: all but the signature, of which one bid can have several. -/
def terms (bid : Bid) : Bid := { bid with signature := "" }

/-- The coordinator, the last time it read, and the bids that were signed, in order. -/
structure Market where
  coord : State
  clock : ℕ
  signed : List Bid

inductive Move
  | sign (bid : Bid)
  | input (i : Input)

/-- The time that an input reads, in seconds. -/
def Input.secs : Input → Option ℕ
  | .postBid nowSecs _ => some nowSecs
  | .gcBids _ nowSecs => some nowSecs
  | _ => none

variable (crypto : IdentityCrypto)

/-- The runs of a coordinator that just started. The clock does not go back, an owner signs for a
slot bids of increasing validity, and signatures are unforgeable: the terms of a bid that verifies
were signed. -/
def market : Machine Market Move where
  Init w := w.coord = State.start ∧ w.signed = []
  Legal w
    | .sign bid => ∀ b ∈ w.signed, slot b = slot bid → b.validUntil < bid.validUntil
    | .input i => (∀ t ∈ i.secs, w.clock ≤ t) ∧
        ∀ t bid, i = .postBid t bid → VerifiedBid crypto bid → ∃ b ∈ w.signed, terms b = terms bid
  next w
    | .sign bid => { w with signed := w.signed ++ [bid] }
    | .input i => { w with coord := (books crypto).next w.coord i, clock := i.secs.getD w.clock }

/-- The events of the runs. -/
abbrev Trade := Event Market Move

/-- A bid is delivered that verifies and is valid. -/
def AcceptsBid (e : Trade) (bid : Bid) : Prop :=
  ∃ t, e.act = .input (.postBid t bid) ∧ VerifiedBid crypto bid ∧ t < bid.validUntil.toNat

/-- The bid was accepted, and of those that were for its slot it was signed last. -/
def Newest (h : List Trade) (bid : Bid) : Prop :=
  (∃ e ∈ h, AcceptsBid crypto e bid) ∧
    ∀ e ∈ h, ∀ b, AcceptsBid crypto e b → slot b = slot bid → b.validUntil ≤ bid.validUntil

/-- The book holds the newest bid of each slot, as long as that is valid. -/
def LatestWins (h : List Trade) (w : Market) : Prop :=
  ∀ bid, Newest crypto h bid → w.clock < bid.validUntil.toNat →
    ∃ held, w.coord.bids (slot bid) = some held ∧ terms held = terms bid

/-- The condition on a delivery: a bid that will be accepted was not signed before one that was
accepted for its slot. -/
def InOrder (h : List Trade) (e : Trade) : Prop :=
  ∀ bid, AcceptsBid crypto e bid → ∀ e' ∈ h, ∀ b, AcceptsBid crypto e' b → slot b = slot bid →
    b.validUntil ≤ bid.validUntil

variable {crypto} {w w' : Market} {h : List Trade} {e : Trade} {bid b : Bid}

theorem AcceptsBid.unique (hbid : AcceptsBid crypto e bid) (hb : AcceptsBid crypto e b) :
    b = bid := by
  obtain ⟨t, hact, -⟩ := hbid
  obtain ⟨t', hact', -⟩ := hb
  cases hact.symm.trans hact'
  rfl

theorem slot_eq_of_terms (hterms : terms b = terms bid) : slot b = slot bid := by
  have := congrArg slot hterms
  exact this

theorem validUntil_eq_of_terms (hterms : terms b = terms bid) : b.validUntil = bid.validUntil := by
  have := congrArg Bid.validUntil hterms
  exact this

/-! ## What was signed -/

/-- The bids that were signed for a slot have different validities. -/
def Increasing (signed : List Bid) : Prop :=
  signed.Pairwise fun b bid => slot b = slot bid → b.validUntil < bid.validUntil

/-- In every run: what was signed is increasing, and what was accepted was signed. -/
theorem signed_spec (H : (market crypto).History h w) : Increasing w.signed ∧
    ∀ e ∈ h, ∀ bid, AcceptsBid crypto e bid → ∃ b ∈ w.signed, terms b = terms bid := by
  obtain ⟨w₀, ⟨-, hnil⟩, r⟩ := H
  refine r.invariantHistory (fun h w => Increasing w.signed ∧
    ∀ e ∈ h, ∀ bid, AcceptsBid crypto e bid → ∃ b ∈ w.signed, terms b = terms bid)
    (fun _ _ => True) (fun _ _ _ _ => trivial) ⟨by simp [hnil, Increasing], by simp⟩ ?_
  rintro h w a - ⟨hincr, haccepted⟩ hlegal -
  cases a with
  | sign bid =>
    refine ⟨?_, fun e he b hb => ?_⟩
    · simp only [market, Increasing, List.pairwise_append, List.pairwise_singleton, true_and,
        List.mem_singleton, forall_eq]
      exact ⟨hincr, hlegal⟩
    · rcases List.mem_append.1 he with he | he
      · obtain ⟨b', hb', hterms⟩ := haccepted e he b hb
        exact ⟨b', List.mem_append_left _ hb', hterms⟩
      · obtain rfl := List.mem_singleton.1 he
        obtain ⟨t, hact, -⟩ := hb
        cases hact
  | input i =>
    refine ⟨hincr, fun e he b hb => ?_⟩
    rcases List.mem_append.1 he with he | he
    · exact haccepted e he b hb
    · obtain rfl := List.mem_singleton.1 he
      obtain ⟨t, hact, hverified, -⟩ := hb
      exact hlegal.2 t b (Move.input.inj hact) hverified

/-- Of the bids that were signed for a slot, one has each validity. -/
theorem Increasing.eq {signed : List Bid} (hincr : Increasing signed) (hb : b ∈ signed)
    (hbid : bid ∈ signed) (hslot : slot b = slot bid) (hvalid : b.validUntil = bid.validUntil) :
    b = bid := by
  have hne : signed.Pairwise fun b bid => slot b = slot bid → b.validUntil ≠ bid.validUntil :=
    hincr.imp fun hlt hslot => UInt64.ne_of_lt (hlt hslot)
  have hsymm : Std.Symm fun b bid : Bid => slot b = slot bid → b.validUntil ≠ bid.validUntil :=
    ⟨fun _ _ hne hslot heq => hne hslot.symm heq.symm⟩
  by_contra hdiff
  exact hne.forall hb hbid hdiff hslot hvalid

/-- Bids of one slot and one validity that were accepted have the same terms. -/
theorem terms_eq (H : (market crypto).History h w) {e e' : Trade} (he : e ∈ h)
    (hbid : AcceptsBid crypto e bid) (he' : e' ∈ h) (hb : AcceptsBid crypto e' b)
    (hslot : slot b = slot bid) (hvalid : b.validUntil = bid.validUntil) :
    terms b = terms bid := by
  obtain ⟨hincr, haccepted⟩ := signed_spec H
  obtain ⟨c, hc, hcbid⟩ := haccepted e he bid hbid
  obtain ⟨d, hd, hdb⟩ := haccepted e' he' b hb
  have hslot' : slot d = slot c :=
    (slot_eq_of_terms hdb).trans (hslot.trans (slot_eq_of_terms hcbid).symm)
  have hvalid' : d.validUntil = c.validUntil :=
    (validUntil_eq_of_terms hdb).trans (hvalid.trans (validUntil_eq_of_terms hcbid).symm)
  rw [← hdb, ← hcbid, hincr.eq hd hc hslot' hvalid']

/-! ## What the book holds -/

/-- An input that is not an accepted bid replaces no bid, and drops none that is valid. -/
theorem bids_next {i : Input} (hnot : ∀ b, ¬ AcceptsBid crypto ⟨w, .input i, w'⟩ b)
    (hheld : w.coord.bids (slot bid) = some b) (hvalid : ∀ t ∈ i.secs, t < b.validUntil.toNat) :
    ((books crypto).next w.coord i).bids (slot bid) = some b := by
  cases i with
  | message now m =>
    simp only [books, handle]
    split
    · rename_i s hs
      cases receive_eq_ok.1 hs <;> exact hheld
    · exact hheld
  | postBid t b' =>
    simp only [books, handle]
    split
    · rename_i s hs
      obtain ⟨verified, valid, -⟩ := postBid_eq_ok.1 hs
      exact absurd ⟨t, rfl, verified, valid⟩ (hnot b')
    · exact hheld
  | gcNodes shard now => exact hheld
  | gcBids shard t =>
    have := hvalid t rfl
    simp [books, handle, gcBids, hheld, this]

/-- An accepted bid is what the book holds for its slot, and the others stay. -/
theorem bids_accepted {i : Input} (haccepts : AcceptsBid crypto ⟨w, .input i, w'⟩ bid) :
    ((books crypto).next w.coord i).bids = update w.coord.bids (slot bid) (some bid) ∧
      ∀ t ∈ i.secs, t < bid.validUntil.toNat := by
  obtain ⟨t, hact, verified, valid⟩ := haccepts
  obtain rfl := Move.input.inj hact
  have hpost := postBid_eq_ok (s := w.coord).2 ⟨verified, valid, rfl⟩
  refine ⟨?_, ?_⟩
  · simp only [books, handle, hpost]
  · rintro t' ⟨⟩
    exact valid

/-- The newest bid of another slot than that of the last event was so before. -/
theorem Newest.of_concat (hnewest : Newest crypto (h ++ [e]) bid)
    (hother : ∀ b, AcceptsBid crypto e b → slot b ≠ slot bid) : Newest crypto h bid := by
  obtain ⟨⟨e', he', hbid⟩, hlast⟩ := hnewest
  refine ⟨⟨e', ?_, hbid⟩, fun e'' he'' => hlast e'' (List.mem_append_left _ he'')⟩
  rcases List.mem_append.1 he' with he' | he'
  · exact he'
  · obtain rfl := List.mem_singleton.1 he'
    exact absurd rfl (hother bid hbid)

/-- A newest bid that is accepted in order has the validity of the last bid of its slot. -/
theorem Newest.validUntil_eq (hnewest : Newest crypto (h ++ [e]) bid)
    (hord : InOrder crypto h e) (hb : AcceptsBid crypto e b) (hslot : slot b = slot bid) :
    b.validUntil = bid.validUntil := by
  obtain ⟨⟨e', he', hbid⟩, hlast⟩ := hnewest
  refine UInt64.le_antisymm (hlast e (by simp) b hb hslot) ?_
  rcases List.mem_append.1 he' with he' | he'
  · exact hord b hb e' he' bid hbid hslot.symm
  · obtain rfl := List.mem_singleton.1 he'
    rw [hb.unique hbid]
    exact UInt64.le_refl _

/-- Where a bid was accepted, one for its slot is newest. -/
theorem exists_newest (he : e ∈ h) (hb : AcceptsBid crypto e b) :
    ∃ bid, Newest crypto h bid ∧ slot bid = slot b ∧ b.validUntil ≤ bid.validUntil := by
  classical
  obtain ⟨N, hN⟩ : ∃ N, ∀ bid : Bid, bid.validUntil.toNat ≤ N :=
    ⟨2 ^ 64, fun bid => bid.validUntil.toNat_lt.le⟩
  let Valid n := ∃ e ∈ h, ∃ bid, AcceptsBid crypto e bid ∧ slot bid = slot b ∧
    bid.validUntil.toNat = n
  have hgreatest : Valid (Nat.findGreatest Valid N) :=
    Nat.findGreatest_spec (hN b) ⟨e, he, b, hb, rfl, rfl⟩
  obtain ⟨e', he', bid, hbid, hslot, hvalid⟩ := hgreatest
  have hleast : ∀ e ∈ h, ∀ c, AcceptsBid crypto e c → slot c = slot b →
      c.validUntil ≤ bid.validUntil := by
    intro e he c hc hslot'
    rw [UInt64.le_iff_toNat_le, hvalid]
    exact Nat.le_findGreatest (hN c) ⟨e, he, c, hc, hslot', rfl⟩
  exact ⟨bid, ⟨⟨e', he', hbid⟩, fun e he c hc hslot' => hleast e he c hc (hslot'.trans hslot)⟩,
    hslot, hleast e he b hb rfl⟩

/-- **In order, the latest bid wins.** -/
theorem latestWins_of_inOrder (H : (market crypto).History h w)
    (hord : Along (InOrder crypto) h) : LatestWins crypto h w := by
  obtain ⟨w₀, hinit, r⟩ := H
  refine r.invariantHistory (LatestWins crypto) (InOrder crypto) hord ?_ ?_
  · rintro bid ⟨⟨e, he, -⟩, -⟩
    simp at he
  intro h w a r ih hlegal hord bid hnewest hclock
  have H : (market crypto).History (h ++ [⟨w, a, (market crypto).next w a⟩]) _ :=
    ⟨w₀, hinit, r.snoc hlegal⟩
  cases a with
  | sign b =>
    refine ih bid (hnewest.of_concat ?_) hclock
    rintro b' ⟨t, hact, -⟩
    cases hact
  | input i =>
    have hclock : i.secs.getD w.clock < bid.validUntil.toNat := hclock
    have hle : w.clock ≤ i.secs.getD w.clock := by
      cases hi : i.secs with
      | none => exact le_rfl
      | some t => exact hlegal.1 t hi
    by_cases haccepts : ∃ b, AcceptsBid crypto ⟨w, .input i, (market crypto).next w (.input i)⟩ b ∧
        slot b = slot bid
    · -- the accepted bid is of the validity of the newest, which has one set of terms
      obtain ⟨b, hb, hslot⟩ := haccepts
      have hvalid := hnewest.validUntil_eq hord hb hslot
      obtain ⟨e', he', hbid⟩ := hnewest.1
      refine ⟨b, ?_, terms_eq H he' hbid (by simp) hb hslot hvalid⟩
      simp only [market, (bids_accepted hb).1, hslot, update_self]
    · obtain ⟨held, hheld, hterms⟩ := ih bid (hnewest.of_concat fun b hb hslot =>
        haccepts ⟨b, hb, hslot⟩) (hle.trans_lt hclock)
      refine ⟨held, ?_, hterms⟩
      by_cases hother : ∃ b, AcceptsBid crypto ⟨w, .input i, (market crypto).next w (.input i)⟩ b
      · obtain ⟨b, hb⟩ := hother
        have hslot : slot bid ≠ slot b := fun heq => haccepts ⟨b, hb, heq.symm⟩
        simpa only [market, (bids_accepted hb).1, update_of_ne hslot] using hheld
      · refine bids_next (not_exists.1 hother) hheld fun t ht => ?_
        rw [validUntil_eq_of_terms hterms]
        rwa [show i.secs = some t from ht] at hclock

/-- Out of order, the latest bid loses. -/
theorem inOrder_of_latestWins (hpost : e.post = (market crypto).next e.pre e.act)
    (hwins : LatestWins crypto (h ++ [e]) e.post) : InOrder crypto h e := by
  intro bid hbid e' he' b hb hslot
  by_contra hlt
  obtain ⟨newest, hnewest, hslot', hle⟩ := exists_newest (List.mem_append_left [e] he') hb
  have hvalid : bid.validUntil < newest.validUntil :=
    UInt64.lt_of_lt_of_le (UInt64.not_le.1 hlt) hle
  -- the newest bid was replaced while it was valid
  obtain ⟨w, a, w'⟩ := e
  obtain ⟨i, rfl⟩ : ∃ i, a = .input i := ⟨_, hbid.choose_spec.1⟩
  obtain rfl : w' = (market crypto).next w (.input i) := hpost
  obtain ⟨hbids, hsecs⟩ := bids_accepted hbid
  have hclock : i.secs.getD w.clock < newest.validUntil.toNat := by
    obtain ⟨t, hact, -⟩ := hbid
    obtain rfl := Move.input.inj hact
    exact (hsecs t rfl).trans (UInt64.lt_iff_toNat_lt.1 hvalid)
  obtain ⟨held, hheld, hterms⟩ := hwins newest hnewest hclock
  simp only [market, hbids, hslot', hslot, update_self, Option.some.injEq] at hheld
  subst hheld
  exact UInt64.ne_of_lt hvalid (validUntil_eq_of_terms hterms)

/-- **The latest bid wins**, at every moment of a run, exactly when no bid is accepted after one
for its slot that was signed later. -/
theorem latestWins_iff (H : (market crypto).History h w) :
    Along (fun h e => LatestWins crypto (h ++ [e]) e.post) h ↔ Along (InOrder crypto) h := by
  obtain ⟨w₀, hinit, r⟩ := H
  constructor
  · rintro hwins h₁ e h₂ rfl
    exact inOrder_of_latestWins (r.post_eq (by simp)) (hwins h₁ e h₂ rfl)
  · rintro hord h₁ e h₂ rfl
    rw [List.append_cons] at r hord
    obtain ⟨w₁, r₁, -⟩ := r.splitAppend
    obtain ⟨-, -, -, rfl⟩ := r₁.of_concat
    exact latestWins_of_inOrder ⟨w₀, hinit, r₁⟩ hord.left

/-- The bid that was signed last for its slot is newest, once it was accepted. -/
theorem newest_of_lastSigned (H : (market crypto).History h w)
    (hlast : ∀ b ∈ w.signed, slot b = slot bid → b.validUntil ≤ bid.validUntil) (he : e ∈ h)
    (hb : AcceptsBid crypto e b) (hterms : terms b = terms bid) : Newest crypto h b := by
  refine ⟨⟨e, he, hb⟩, fun e' he' c hc hslot => ?_⟩
  obtain ⟨d, hd, hdterms⟩ := (signed_spec H).2 e' he' c hc
  have hslot' : slot d = slot bid :=
    (slot_eq_of_terms hdterms).trans (hslot.trans (slot_eq_of_terms hterms))
  rw [← validUntil_eq_of_terms hdterms, validUntil_eq_of_terms hterms]
  exact hlast d hd hslot'

/-- **The latest bid wins in order**: at every moment the book holds the newest bid of each slot
exactly when no bid is accepted after one that was signed later; then the bid that was signed last
is what the book holds, from when it is accepted for as long as it is valid. -/
theorem latest_bid_wins (H : (market crypto).History h w) :
    (Along (fun h e => LatestWins crypto (h ++ [e]) e.post) h ↔ Along (InOrder crypto) h) ∧
    (Along (InOrder crypto) h → ∀ bid ∈ w.signed,
      (∀ b ∈ w.signed, slot b = slot bid → b.validUntil ≤ bid.validUntil) →
      (∃ e ∈ h, ∃ b, AcceptsBid crypto e b ∧ terms b = terms bid) →
      w.clock < bid.validUntil.toNat →
      ∃ held, w.coord.bids (slot bid) = some held ∧ terms held = terms bid) := by
  refine ⟨latestWins_iff H, ?_⟩
  rintro hord bid - hlast ⟨e, he, b, hb, hterms⟩ hclock
  rw [← slot_eq_of_terms hterms, ← hterms]
  rw [← validUntil_eq_of_terms hterms] at hclock
  exact latestWins_of_inOrder H hord b (newest_of_lastSigned H hlast he hb hterms) hclock

/-! ## A bid that comes back -/

/-- The owner of a slot signs a bid. -/
theorem exists_sign (H : (market crypto).History h w)
    (hincr : ∀ b ∈ w.signed, slot b = slot bid → b.validUntil < bid.validUntil) :
    ∃ e, (market crypto).History (h ++ [e]) e.post ∧ (∀ b, ¬ AcceptsBid crypto e b) ∧
      e.post = { w with signed := w.signed ++ [bid] } := by
  refine ⟨_, H.concat (show (market crypto).Legal w (.sign bid) from hincr), ?_, rfl⟩
  rintro b ⟨t, hact, -⟩
  cases hact

/-- Somebody sends a bid that was signed. -/
theorem exists_postBid (H : (market crypto).History h w) (hverified : VerifiedBid crypto bid)
    (hsigned : bid ∈ w.signed) {t : ℕ} (ht : w.clock ≤ t) (hvalid : t < bid.validUntil.toNat) :
    ∃ e, (market crypto).History (h ++ [e]) e.post ∧ AcceptsBid crypto e bid ∧
      e.post = ⟨{ w.coord with bids := update w.coord.bids (slot bid) (some bid) }, t,
        w.signed⟩ := by
  have hlegal : (market crypto).Legal w (.input (.postBid t bid)) := by
    refine ⟨?_, ?_⟩
    · rintro t' ⟨⟩
      exact ht
    · rintro t' b ⟨⟩ -
      exact ⟨bid, hsigned, rfl⟩
  refine ⟨_, H.concat hlegal, ⟨t, rfl, hverified, hvalid⟩, ?_⟩
  simp only [market, next_postBid hverified hvalid]
  rfl

/-- The owner of a slot signs two bids and sends each, in order. -/
theorem exists_superseded {older newer : Bid} (hold : VerifiedBid crypto older)
    (hnew : VerifiedBid crypto newer) (hslot : slot older = slot newer)
    (hlt : older.validUntil < newer.validUntil) {t : ℕ} (ht : t < older.validUntil.toNat) :
    ∃ h w, (market crypto).History h w ∧ w.signed = [older, newer] ∧ w.clock = t ∧
      (∃ e ∈ h, AcceptsBid crypto e older) ∧ (∃ e ∈ h, AcceptsBid crypto e newer) ∧
      Along (InOrder crypto) h := by
  have htnew : t < newer.validUntil.toNat := ht.trans (UInt64.lt_iff_toNat_lt.1 hlt)
  have H₀ : (market crypto).History [] ⟨State.start, 0, []⟩ := ⟨_, ⟨rfl, rfl⟩, .nil⟩
  obtain ⟨e₁, H₁, hnot₁, hpost₁⟩ := exists_sign H₀ (show ∀ b ∈ _, slot b = slot older → _ by simp)
  obtain ⟨e₂, H₂, hnot₂, hpost₂⟩ :=
    exists_sign H₁ (show ∀ b ∈ _, slot b = slot newer → _ by simp [hpost₁, hlt])
  obtain ⟨e₃, H₃, hacc₃, hpost₃⟩ := exists_postBid H₂ hold (by simp [hpost₂, hpost₁])
    (by simp [hpost₂, hpost₁]) (Nat.zero_lt_of_lt ht)
  obtain ⟨e₄, H₄, hacc₄, hpost₄⟩ := exists_postBid H₃ hnew (by simp [hpost₃, hpost₂])
    (by simp [hpost₃]) htnew
  have hfirst : Along (InOrder crypto) ([] ++ [e₁] ++ [e₂]) :=
    along_concat.2 ⟨along_concat.2 ⟨along_nil, fun b hb => absurd hb (hnot₁ b)⟩,
      fun b hb => absurd hb (hnot₂ b)⟩
  have hsigns : ∀ e ∈ [] ++ [e₁] ++ [e₂], ∀ b, ¬ AcceptsBid crypto e b := by
    simp [hnot₁, hnot₂]
  refine ⟨_, _, H₄, by simp [hpost₄, hpost₃, hpost₂, hpost₁], by rw [hpost₄],
    ⟨e₃, by simp, hacc₃⟩, ⟨e₄, by simp, hacc₄⟩, along_concat.2
      ⟨along_concat.2 ⟨hfirst, fun b _ e he c hc => ?_⟩, fun b hb e he c hc _ => ?_⟩⟩
  · exact absurd hc (hsigns e he c)
  · -- before the newer bid only the older one was accepted
    obtain rfl := hacc₄.unique hb
    rcases List.mem_append.1 he with he | he
    · exact absurd hc (hsigns e he c)
    · obtain rfl := List.mem_singleton.1 he
      obtain rfl := hacc₃.unique hc
      exact UInt64.le_of_lt hlt

/-- While the first of them is valid somebody sends it again. -/
theorem exists_replayed {older newer : Bid} (hold : VerifiedBid crypto older)
    (hnew : VerifiedBid crypto newer) (hslot : slot older = slot newer)
    (hlt : older.validUntil < newer.validUntil) {t : ℕ} (ht : t < older.validUntil.toNat) :
    ∃ h e, (market crypto).History (h ++ [e]) e.post ∧ e.post.signed = [older, newer] ∧
      (∃ e' ∈ h, AcceptsBid crypto e' older) ∧ (∃ e' ∈ h, AcceptsBid crypto e' newer) ∧
      e.post.clock = t ∧ e.post.coord.bids (slot newer) = some older := by
  obtain ⟨h, w, H, hsigned, hclock, holder, hnewer, -⟩ := exists_superseded hold hnew hslot hlt ht
  obtain ⟨e, H', -, hpost⟩ := exists_postBid H hold (by simp [hsigned]) hclock.le ht
  refine ⟨h, e, H', by rw [hpost, hsigned], holder, hnewer, by rw [hpost], ?_⟩
  rw [hpost, ← hslot]
  exact update_self ..

namespace Deployment

/-- A bid of the node that is not signed yet. -/
def unsignedBid (validUntil : UInt64) : Bid := ⟨identity, .Local, "5", 8, validUntil, "", ""⟩

/-- The bid, signed. -/
def signedBid (validUntil : UInt64) : Bid :=
  { unsignedBid validUntil with signature := .ofList (Text.hexEncode
      (IdentityCrypto.symbolicSign key (canonicalBidBytes (unsignedBid validUntil)))) }

theorem verifiedBid (validUntil : UInt64) : VerifiedBid .symbolic (signedBid validUntil) := by
  have hcanonical : canonicalBidBytes (signedBid validUntil) =
      canonicalBidBytes (unsignedBid validUntil) := canonicalBidBytes_sign ..
  have hverify := verifySigned_symbolic (show key.length = _ from List.length_replicate)
    (canonicalBidBytes (signedBid validUntil))
  refine ⟨key, ?_⟩
  rw [hcanonical] at hverify ⊢
  exact hverify

end Deployment

open Deployment

/-- **An older bid replaces the newer one**: the bid until 180 comes back at 61, after the one until
240 was accepted, and is what the book holds. -/
theorem older_bid_wins : ∃ h e, (market .symbolic).History (h ++ [e]) e.post ∧
    e.post.signed = [signedBid 180, signedBid 240] ∧
    (∃ e' ∈ h, AcceptsBid .symbolic e' (signedBid 180)) ∧
    (∃ e' ∈ h, AcceptsBid .symbolic e' (signedBid 240)) ∧
    e.post.clock < (signedBid 240).validUntil.toNat ∧
    e.post.coord.bids (slot (signedBid 240)) = some (signedBid 180) ∧
    terms (signedBid 180) ≠ terms (signedBid 240) := by
  obtain ⟨h, e, H, hsigned, hold, hnew, hclock, hheld⟩ :=
    exists_replayed (verifiedBid 180) (verifiedBid 240) rfl (by decide)
      (show 61 < (signedBid 180).validUntil.toNat by decide)
  refine ⟨h, e, H, hsigned, hold, hnew, by rw [hclock]; decide, hheld, fun hterms => ?_⟩
  exact absurd (validUntil_eq_of_terms hterms) (by decide)

/-- Of two bids that are sent in the order in which they were signed, the book holds the later. -/
theorem latest_bid_wins_once : ∃ h w, (market .symbolic).History h w ∧
    w.signed = [signedBid 180, signedBid 240] ∧
    (∃ e ∈ h, AcceptsBid .symbolic e (signedBid 180)) ∧
    (∃ e ∈ h, AcceptsBid .symbolic e (signedBid 240)) ∧
    Along (fun h e => LatestWins .symbolic (h ++ [e]) e.post) h ∧
    ∃ held, w.coord.bids (slot (signedBid 240)) = some held ∧
      terms held = terms (signedBid 240) := by
  have ht : 61 < (signedBid 180).validUntil.toNat := by decide
  obtain ⟨h, w, H, hsigned, hclock, hold, ⟨e, he, hnew⟩, hord⟩ :=
    exists_superseded (verifiedBid 180) (verifiedBid 240) rfl (by decide) ht
  obtain ⟨hiff, hlast⟩ := latest_bid_wins H
  have hnewest : ∀ b ∈ w.signed, slot b = slot (signedBid 240) →
      b.validUntil ≤ (signedBid 240).validUntil := by
    rw [hsigned]
    rintro b hb -
    obtain rfl | rfl : b = signedBid 180 ∨ b = signedBid 240 := by simpa using hb
    · exact show (180 : UInt64) ≤ 240 by decide
    · exact UInt64.le_refl _
  have hvalid : w.clock < (signedBid 240).validUntil.toNat := by
    rw [hclock]
    decide
  exact ⟨h, w, H, hsigned, hold, ⟨e, he, hnew⟩, hiff.2 hord,
    hlast hord _ (by simp [hsigned]) hnewest ⟨e, he, _, hnew, rfl⟩ hvalid⟩

end Flodex.Coordinator
