import Flodex.Node.Channels

/-!
# The cost of a round trip

The counters of a usage have 32 bits, their sum has 64, and its product with the price has 128. The
sum always fits. `cost_exact_iff` says when the cost is what it should be: when the product fits,
which a price of 128 bits does not ensure.
-/

namespace Flodex.Node

/-- A sum or a product that has too many bits, where the build checks for it. -/
inductive Overflow
  | add
  | mul
  deriving DecidableEq

variable (usage : Usage) (priceUnits : ℕ)

/-- The four counters. -/
def counters : List UInt32 :=
  [usage.inputTokens, usage.outputTokens, usage.cacheCreationInputTokens.getD 0,
    usage.cacheReadInputTokens.getD 0]

/-- `total_tokens` in a release build, where the additions wrap. -/
def wrappingTotalTokens : UInt64 :=
  usage.inputTokens.toUInt64 + usage.outputTokens.toUInt64 +
    (usage.cacheCreationInputTokens.getD 0).toUInt64 +
    (usage.cacheReadInputTokens.getD 0).toUInt64

/-- `total_tokens` in a build that checks the additions. -/
def checkedTotalTokens : Except Overflow ℕ := do
  let n ← checkedAdd 64 usage.inputTokens.toNat usage.outputTokens.toNat .add
  let n ← checkedAdd 64 n (usage.cacheCreationInputTokens.getD 0).toNat .add
  checkedAdd 64 n (usage.cacheReadInputTokens.getD 0).toNat .add

/-- The cost of a round trip in a build that checks the product. -/
def checkedRoundTripCost : Except Overflow ℕ := do
  let total ← checkedTotalTokens usage
  let product ← checkedMul 128 total priceUnits .mul
  pure (product / 1000)

/-- The sum of the counters. -/
def tokenSum : ℕ := ((counters usage).map UInt32.toNat).sum

/-- The cost is exact: the counters are added up and multiplied as numbers, whatever the build, and
less of anything does not cost more. -/
structure CostExact : Prop where
  tokens : (wrappingTotalTokens usage).toNat = tokenSum usage
  checked : checkedRoundTripCost usage priceUnits = .ok (tokenSum usage * priceUnits / 1000)
  cost : roundTripCost usage priceUnits = tokenSum usage * priceUnits / 1000
  mono : ∀ usage' price', List.Forall₂ (· ≤ ·) (counters usage') (counters usage) →
    price' ≤ priceUnits → roundTripCost usage' price' ≤ roundTripCost usage priceUnits

variable {usage priceUnits}

/-! ## The sum -/

theorem tokenSum_eq (usage : Usage) : tokenSum usage = totalTokens usage := by
  simp only [tokenSum, counters, totalTokens, List.map_cons, List.map_nil, List.sum_cons,
    List.sum_nil]
  omega

/-- Four counters fit into 64 bits many times over. -/
theorem totalTokens_lt (usage : Usage) : totalTokens usage < 2 ^ 34 := by
  have hinput := usage.inputTokens.toNat_lt
  have houtput := usage.outputTokens.toNat_lt
  have hcreation := (usage.cacheCreationInputTokens.getD 0).toNat_lt
  have hread := (usage.cacheReadInputTokens.getD 0).toNat_lt
  rw [totalTokens]
  omega

theorem toNat_wrappingTotalTokens (usage : Usage) :
    (wrappingTotalTokens usage).toNat = totalTokens usage := by
  have hlt := totalTokens_lt usage
  simp only [wrappingTotalTokens, totalTokens, UInt64.toNat_add, UInt32.toNat_toUInt64] at hlt ⊢
  omega

theorem checkedTotalTokens_eq (usage : Usage) :
    checkedTotalTokens usage = .ok (totalTokens usage) := by
  have hlt := totalTokens_lt usage
  rw [totalTokens] at hlt ⊢
  simp only [checkedTotalTokens, bind_eq_ok, checkedAdd_eq_ok]
  exact ⟨_, ⟨by omega, rfl⟩, _, ⟨by omega, rfl⟩, by omega, rfl⟩

/-- Fewer tokens on each counter are fewer tokens. -/
theorem totalTokens_le {usage' : Usage}
    (h : List.Forall₂ (· ≤ ·) (counters usage') (counters usage)) :
    totalTokens usage' ≤ totalTokens usage := by
  simp only [counters, List.forall₂_cons, List.forall₂_nil_right_iff, and_true,
    UInt32.le_iff_toNat_le] at h
  obtain ⟨hinput, houtput, hcreation, hread⟩ := h
  rw [totalTokens, totalTokens]
  omega

/-! ## The product -/

theorem checkedRoundTripCost_eq_ok {cost : ℕ} :
    checkedRoundTripCost usage priceUnits = .ok cost ↔
      totalTokens usage * priceUnits < 2 ^ 128 ∧ totalTokens usage * priceUnits / 1000 = cost := by
  simp only [checkedRoundTripCost, checkedTotalTokens_eq, bind_eq_ok, Except.ok.injEq,
    checkedMul_eq_ok, pure_eq_ok]
  constructor
  · rintro ⟨_, rfl, _, ⟨hlt, rfl⟩, hcost⟩
    exact ⟨hlt, hcost⟩
  · rintro ⟨hlt, hcost⟩
    exact ⟨_, rfl, _, ⟨hlt, rfl⟩, hcost⟩

/-- An exact cost is one of a product that fits. -/
theorem CostExact.lt (h : CostExact usage priceUnits) : totalTokens usage * priceUnits < 2 ^ 128 :=
  (checkedRoundTripCost_eq_ok.1 h.checked).1

/-- **The cost is exact if and only if the product fits** into 128 bits. -/
theorem cost_exact_iff (usage : Usage) (pricing : List BackendPrice) (backend : BackendType) :
    CostExact usage (priceFor pricing backend) ↔
      tokenSum usage * priceFor pricing backend < 2 ^ 128 := by
  rw [tokenSum_eq]
  constructor
  · exact CostExact.lt
  · intro hlt
    refine ⟨?_, ?_, ?_, fun usage' price' hle hprice => ?_⟩
    · rw [tokenSum_eq, toNat_wrappingTotalTokens]
    · rw [tokenSum_eq]
      exact checkedRoundTripCost_eq_ok.2 ⟨hlt, rfl⟩
    · rw [tokenSum_eq, roundTripCost, Nat.mod_eq_of_lt hlt]
    · have hmul : totalTokens usage' * price' ≤ totalTokens usage * priceFor pricing backend :=
        Nat.mul_le_mul (totalTokens_le hle) hprice
      rw [roundTripCost, roundTripCost, Nat.mod_eq_of_lt hlt, Nat.mod_eq_of_lt (by omega)]
      exact Nat.div_le_div_right hmul

/-- **A bill wraps to nothing**: a thousand tokens at a price of 2^125 cost 0. -/
theorem cost_wraps :
    priceFor [⟨.Local, "42535295865117307932921825928971026432"⟩] .Local = 2 ^ 125 ∧
      roundTripCost ⟨1000, 0, none, none⟩ (2 ^ 125) = 0 ∧
      ¬CostExact ⟨1000, 0, none, none⟩
        (priceFor [⟨.Local, "42535295865117307932921825928971026432"⟩] .Local) := by
  have hprice :
      priceFor [⟨.Local, "42535295865117307932921825928971026432"⟩] .Local = 2 ^ 125 := by
    decide +kernel
  refine ⟨hprice, by decide, fun hexact => ?_⟩
  have hlt := hexact.lt
  rw [hprice] at hlt
  exact absurd hlt (by decide)

end Flodex.Node
