import Flodex.Coordinator.Server
import Mathlib.Data.List.MinMax

/-!
# The matcher is exact

The walk of `matchJob` skips a node for six reasons, and keeps the first of the cheapest it did not
skip. So it is the `argmin` of the candidates of the nodes (`foldl_consider`), and a node has a
candidate exactly if it is eligible (`candidate_eq_some`). The answer is therefore a cheapest
eligible node, in whatever order the registry is walked.
-/

namespace Flodex.Coordinator

open Text

/-! ## Offers -/

/-- The price text and the cap that a node offers: those of its bid while that is valid, and
otherwise those of its registration. -/
def offer (spec : JobSpec) (nowSecs : ℕ) (reg : NodeRegistration) (found : Option Bid) :
    Option (String × UInt32) :=
  match found.filter fun b => nowSecs < b.validUntil.toNat with
  | some bid => some (bid.pricePer1k, bid.maxTokens)
  | none => (reg.pricing.find? fun p => p.backend = spec.backend).map fun p =>
      (p.pricePer1k, reg.maxTokens)

/-- A node that fits a spec, at a price. -/
structure Eligible (spec : JobSpec) (nowSecs : ℕ) (reg : NodeRegistration) (found : Option Bid)
    (price : ℕ) : Prop where
  lists : spec.backend ∈ reg.backends
  offers : ∃ text cap, offer spec nowSecs reg found = some (text, cap) ∧
    parseUnsigned (2 ^ 128) text.toList = some price ∧ spec.estimatedTokens ≤ cap
  affordable : price ≤ spec.maxPricePer1k.units

/-! ## The walk -/

/-- What a visited node is taken for, unless it is skipped. -/
def candidate (spec : JobSpec) (nowSecs : ℕ) (v : Visit) : Option Candidate :=
  if spec.backend ∈ v.1.backends then
    (priceOf spec nowSecs v).bind fun p =>
      if p.2.getD v.1.maxTokens < spec.estimatedTokens then none
      else if spec.maxPricePer1k.units < p.1 then none
      else some ⟨p.1, v.1, p.2⟩
  else none

theorem consider_eq (spec : JobSpec) (nowSecs : ℕ) (best : Option Candidate) (v : Visit) :
    consider spec nowSecs best v = match candidate spec nowSecs v with
      | none => best
      | some c => List.argAux (fun a b => a.priceUnits < b.priceUnits) best c := by
  unfold consider candidate
  simp only [List.contains_iff_mem]
  split_ifs with hlists
  · cases priceOf spec nowSecs v with
    | none => rfl
    | some p =>
      simp only [Option.bind_some]
      by_cases hcap : p.2.getD v.1.maxTokens < spec.estimatedTokens
      · simp [hcap]
      by_cases hprice : spec.maxPricePer1k.units < p.1
      · simp [hcap, hprice]
      simp only [hcap, hprice, if_false]
      cases best with
      | none => rfl
      | some cur => simp [List.argAux]
  · rfl

/-- **The walk finds the cheapest candidate**, the first of them. -/
theorem foldl_consider (spec : JobSpec) (nowSecs : ℕ) (visits : List Visit) :
    visits.foldl (consider spec nowSecs) none =
      (visits.filterMap (candidate spec nowSecs)).argmin Candidate.priceUnits := by
  suffices ∀ best, visits.foldl (consider spec nowSecs) best =
      (visits.filterMap (candidate spec nowSecs)).foldl
        (List.argAux fun a b => a.priceUnits < b.priceUnits) best from this none
  induction visits with
  | nil => exact fun _ => rfl
  | cons v visits ih =>
    intro best
    rw [List.foldl_cons, ih, consider_eq]
    cases hc : candidate spec nowSecs v with
    | none => rw [List.filterMap_cons_none hc]
    | some c => rw [List.filterMap_cons_some hc, List.foldl_cons]

theorem priceOf_eq_some {spec : JobSpec} {nowSecs : ℕ} {v : Visit} {p : ℕ × Option UInt32}
    (h : priceOf spec nowSecs v = some p) :
    ∃ text, offer spec nowSecs v.1 v.2 = some (text, p.2.getD v.1.maxTokens) ∧
      parseUnsigned (2 ^ 128) text.toList = some p.1 := by
  unfold priceOf at h
  unfold offer
  cases hbid : v.2.filter fun b => nowSecs < b.validUntil.toNat with
  | some bid =>
    simp only [hbid, Option.bind_eq_bind, Option.bind_eq_some_iff, Option.pure_def,
      Option.some.injEq] at h
    obtain ⟨n, hn, rfl⟩ := h
    exact ⟨bid.pricePer1k, rfl, hn⟩
  | none =>
    simp only [hbid, Option.bind_eq_bind, Option.bind_eq_some_iff, Option.pure_def,
      Option.some.injEq] at h
    obtain ⟨price, hprice, n, hn, rfl⟩ := h
    exact ⟨price.pricePer1k, by rw [hprice]; rfl, hn⟩

theorem exists_priceOf {spec : JobSpec} {nowSecs : ℕ} {v : Visit} {text : String} {cap : UInt32}
    {n : ℕ} (hoffer : offer spec nowSecs v.1 v.2 = some (text, cap))
    (hn : parseUnsigned (2 ^ 128) text.toList = some n) :
    ∃ t, priceOf spec nowSecs v = some (n, t) ∧ t.getD v.1.maxTokens = cap := by
  unfold offer at hoffer
  unfold priceOf
  cases hbid : v.2.filter fun b => nowSecs < b.validUntil.toNat with
  | some bid =>
    simp only [hbid, Option.some.injEq, Prod.mk.injEq] at hoffer
    obtain ⟨rfl, rfl⟩ := hoffer
    exact ⟨some bid.maxTokens, by simp only [hn]; rfl, rfl⟩
  | none =>
    simp only [hbid, Option.map_eq_some_iff, Prod.mk.injEq] at hoffer
    obtain ⟨price, hprice, rfl, rfl⟩ := hoffer
    exact ⟨none, by simp only [hprice, Option.bind_eq_bind, Option.bind_some, hn]; rfl, rfl⟩

/-- **A candidate is an eligible node**, at its price. -/
theorem candidate_eq_some {spec : JobSpec} {nowSecs : ℕ} {v : Visit} {c : Candidate}
    (h : candidate spec nowSecs v = some c) :
    c.reg = v.1 ∧ Eligible spec nowSecs v.1 v.2 c.priceUnits := by
  unfold candidate at h
  split_ifs at h with hlists
  obtain ⟨p, hp, h⟩ := Option.bind_eq_some_iff.1 h
  split_ifs at h with hcap hprice
  obtain rfl := Option.some.inj h
  obtain ⟨text, hoffer, htext⟩ := priceOf_eq_some hp
  exact ⟨rfl, hlists, ⟨text, _, hoffer, htext, UInt32.not_lt.1 hcap⟩,
    Nat.not_lt.1 hprice⟩

/-- **An eligible node is a candidate**, at its price. -/
theorem exists_candidate {spec : JobSpec} {nowSecs : ℕ} {v : Visit} {price : ℕ}
    (h : Eligible spec nowSecs v.1 v.2 price) :
    ∃ c, candidate spec nowSecs v = some c ∧ c.priceUnits = price := by
  obtain ⟨hlists, ⟨text, cap, hoffer, htext, hcap⟩, haffordable⟩ := h
  obtain ⟨t, hprice, rfl⟩ := exists_priceOf hoffer htext
  refine ⟨⟨price, v.1, t⟩, ?_, rfl⟩
  rw [candidate, if_pos hlists, hprice, Option.bind_some, if_neg (UInt32.not_lt.2 hcap),
    if_neg (Nat.not_lt.2 haffordable)]

/-! ## The answer -/

section Answer

variable {spec : JobSpec} {nowSecs : ℕ} {visits : List Visit}

/-- The node that is returned is a cheapest eligible one among the visited. -/
theorem matchJob_eq_ok {m : JobMatch} (h : matchJob spec nowSecs visits = .ok m) :
    ∃ v ∈ visits, ∃ price, Eligible spec nowSecs v.1 v.2 price ∧ m = ⟨v.1.url, v.1.publicKey⟩ ∧
      ∀ v' ∈ visits, ∀ price', Eligible spec nowSecs v'.1 v'.2 price' → price ≤ price' := by
  rw [matchJob, foldl_consider] at h
  split at h
  case h_1 best hbest =>
    obtain ⟨v, hv, hcandidate⟩ := List.mem_filterMap.1 (List.argmin_mem hbest)
    obtain ⟨hreg, heligible⟩ := candidate_eq_some hcandidate
    refine ⟨v, hv, best.priceUnits, heligible, ?_, fun v' hv' price' h' => ?_⟩
    · rw [← hreg]
      exact (Except.ok.inj h).symm
    · obtain ⟨c, hc, rfl⟩ := exists_candidate h'
      exact List.le_of_mem_argmin (List.mem_filterMap.2 ⟨v', hv', hc⟩) hbest
  case h_2 => cases h

/-- A refusal says that no node was found. -/
theorem status_of_matchJob {r : Rejection} (h : matchJob spec nowSecs visits = .error r) :
    r.status = .notFound := by
  rw [matchJob] at h
  split at h
  · cases h
  · cases h
    rfl

/-- There is no answer exactly when no visited node is eligible. -/
theorem matchJob_eq_error : (∃ r, matchJob spec nowSecs visits = .error r) ↔
    ∀ v ∈ visits, ∀ price, ¬ Eligible spec nowSecs v.1 v.2 price := by
  rw [matchJob, foldl_consider]
  constructor
  · intro h v hv price heligible
    obtain ⟨c, hc, -⟩ := exists_candidate heligible
    have hmem := List.mem_filterMap.2 ⟨v, hv, hc⟩
    split at h
    case h_1 => simp at h
    case h_2 hnone =>
      rw [List.argmin_eq_none] at hnone
      simp [hnone] at hmem
  · intro h
    have hnil : visits.filterMap (candidate spec nowSecs) = [] := by
      rw [List.filterMap_eq_nil_iff]
      intro v hv
      cases hc : candidate spec nowSecs v with
      | none => rfl
      | some c => exact absurd (candidate_eq_some hc).2 (h v hv _)
    rw [hnil]
    exact ⟨_, rfl⟩

end Answer

variable {s : State} {entries : List (String × Entry)}

/-- The nodes that are visited are those of the registry. -/
theorem mem_visits (hentries : Iterates s entries) {v : Visit} {backend : BackendType} :
    v ∈ visits s backend entries ↔ ∃ id entry, s.nodes id = some entry ∧
      v = (entry.reg, s.bids (entry.reg.identityPubkey, backend)) := by
  constructor
  · intro hv
    obtain ⟨⟨id, entry⟩, hmem, rfl⟩ := List.mem_map.1 hv
    exact ⟨id, entry, (hentries.2 id entry).1 hmem, rfl⟩
  · rintro ⟨id, entry, hentry, rfl⟩
    exact List.mem_map.2 ⟨(id, entry), (hentries.2 id entry).2 hentry, rfl⟩

/-- A node of the registry that fits a spec, at a price. -/
def Fits (s : State) (spec : JobSpec) (nowSecs : ℕ) (reg : NodeRegistration) (price : ℕ) : Prop :=
  Eligible spec nowSecs reg (s.bids (reg.identityPubkey, spec.backend)) price

/-- **The matcher is exact**: it returns a cheapest eligible node of the registry, and finds none
exactly when there is none. -/
theorem matchJob_exact (spec : JobSpec) (nowSecs : ℕ) (hentries : Iterates s entries) :
    (∀ m, matchJob spec nowSecs (visits s spec.backend entries) = .ok m →
      ∃ id entry price, s.nodes id = some entry ∧ Fits s spec nowSecs entry.reg price ∧
        m = ⟨entry.reg.url, entry.reg.publicKey⟩ ∧
        ∀ id' entry' price', s.nodes id' = some entry' →
          Fits s spec nowSecs entry'.reg price' → price ≤ price') ∧
    (∀ r, matchJob spec nowSecs (visits s spec.backend entries) = .error r →
      r.status = .notFound) ∧
    ((∃ r, matchJob spec nowSecs (visits s spec.backend entries) = .error r) ↔
      ∀ id entry price, s.nodes id = some entry → ¬ Fits s spec nowSecs entry.reg price) := by
  refine ⟨?_, fun r => status_of_matchJob, ?_⟩
  · intro m hm
    obtain ⟨v, hv, price, heligible, rfl, hleast⟩ := matchJob_eq_ok hm
    obtain ⟨id, entry, hentry, rfl⟩ := (mem_visits hentries).1 hv
    refine ⟨id, entry, price, hentry, heligible, rfl, fun id' entry' price' hentry' h' => ?_⟩
    exact hleast _ ((mem_visits hentries).2 ⟨id', entry', hentry', rfl⟩) price' h'
  · rw [matchJob_eq_error]
    constructor
    · intro h id entry price hentry
      exact h _ ((mem_visits hentries).2 ⟨id, entry, hentry, rfl⟩) price
    · intro h v hv price
      obtain ⟨id, entry, hentry, rfl⟩ := (mem_visits hentries).1 hv
      exact h id entry price hentry

/-- Of two nodes the one with the higher registration price is the match, since the other one has a
bid above that. -/
theorem matchJob_outbid :
    let dear : NodeRegistration := ⟨"02", "key", "url", [.Local], 8, [⟨.Local, "7"⟩], "", ""⟩
    let cheap : NodeRegistration := ⟨"03", "key'", "url'", [.Local], 8, [⟨.Local, "5"⟩], "", ""⟩
    let bid : Bid := ⟨"03", .Local, "9", 16, 180, "", ""⟩
    let s : State := ⟨Function.update (Function.update (fun _ => none) "02" (some ⟨dear, 0⟩)) "03"
      (some ⟨cheap, 0⟩), Function.update (fun _ => none) ("03", .Local) (some bid)⟩
    let spec : JobSpec := ⟨.Local, 8, ⟨10, "0.00001"⟩⟩
    Fits s spec 120 cheap 9 ∧
      matchJob spec 120 (visits s spec.backend [("03", ⟨cheap, 0⟩), ("02", ⟨dear, 0⟩)]) =
        .ok ⟨"url", "key"⟩ ∧
      ∃ id entry price, s.nodes id = some entry ∧ Fits s spec 120 entry.reg price ∧
        (⟨"url", "key"⟩ : JobMatch) = ⟨entry.reg.url, entry.reg.publicKey⟩ ∧
        ∀ id' entry' price', s.nodes id' = some entry' → Fits s spec 120 entry'.reg price' →
          price ≤ price' := by
  intro dear cheap bid s spec
  have hentries : Iterates s [("03", ⟨cheap, 0⟩), ("02", ⟨dear, 0⟩)] :=
    Iterates.cons (s := ⟨Function.update (fun _ => none) "02" (some ⟨dear, 0⟩), fun _ => none⟩)
      (iterates_single rfl) rfl rfl
  have hmatch : matchJob spec 120 (visits s spec.backend [("03", ⟨cheap, 0⟩), ("02", ⟨dear, 0⟩)]) =
      .ok ⟨"url", "key"⟩ := by decide
  have hfits : Fits s spec 120 cheap 9 :=
    ⟨by decide, ⟨"9", 16, by decide, by decide, by decide⟩, by decide⟩
  exact ⟨hfits, hmatch, (matchJob_exact spec 120 hentries).1 _ hmatch⟩

end Flodex.Coordinator
