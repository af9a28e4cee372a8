/-
  Contract/Prices.lean --- the price and the reward against their documented formulas.

  Both are computed in binary64.  A price is a ceiling of thousandths, which no rounding
  reaches below `2^53`.  A reward is a floor of a product with a ratio that has no exact
  binary64 value, and a product that should be a whole number can end just below it.
-/
import Nuvonode.Contract.Ledger
import Nuvonode.Service.Pricing

set_option autoImplicit false

namespace Nuvonode.Contract

open Nuvonode.Foundation Nuvonode.Database Nuvonode.Service

/-! ## Prices -/

/-- Counts and prices whose products are integers that binary64 has. -/
structure ExactRange (inputTokens outputTokens : ℤ) (inputPer1K outputPer1K : Int64) : Prop where
  inputTokens_nonneg : 0 ≤ inputTokens
  outputTokens_nonneg : 0 ≤ outputTokens
  inputPer1K_nonneg : 0 ≤ inputPer1K.toInt
  outputPer1K_nonneg : 0 ≤ outputPer1K.toInt
  input : inputTokens * inputPer1K.toInt ≤ 2 ^ 53
  output : outputTokens * outputPer1K.toInt ≤ 2 ^ 53

/-- The documented price. -/
def documentedPrice (inputTokens outputTokens inputPer1K outputPer1K : ℤ) : ℤ :=
  ⌈(inputTokens * inputPer1K / 1000 : ℚ)⌉ + ⌈(outputTokens * outputPer1K / 1000 : ℚ)⌉

section Prices

variable {P : Platform} {inputTokens outputTokens : ℤ} {inputPer1K outputPer1K : Int64}

/-- A price term is the ceiling of a quotient. -/
theorem exactTerm_eq_ceil (tokens per1K : ℤ) :
    exactTerm tokens per1K = ⌈(tokens * per1K / 1000 : ℚ)⌉ := by
  have hquotient : 1000 * exactTerm tokens per1K ≤ tokens * per1K + 999 ∧
      tokens * per1K ≤ 1000 * exactTerm tokens per1K := by
    unfold exactTerm
    generalize tokens * per1K = product
    omega
  have hlow : (1000 : ℚ) * exactTerm tokens per1K ≤ tokens * per1K + 999 := by
    exact_mod_cast hquotient.1
  have hhigh : (tokens : ℚ) * per1K ≤ 1000 * exactTerm tokens per1K := by
    exact_mod_cast hquotient.2
  refine (Int.ceil_eq_iff.mpr ⟨?_, ?_⟩).symm
  · rw [lt_div_iff₀ (by norm_num)]
    linarith
  · rw [div_le_iff₀ (by norm_num)]
    linarith

theorem exactTerm_mono₂ {tokens more per1K dearer : ℤ} (htokens : 0 ≤ more) (hprice : 0 ≤ per1K)
    (hmore : tokens ≤ more) (hdearer : per1K ≤ dearer) :
    exactTerm tokens per1K ≤ exactTerm more dearer := by
  have hproduct : tokens * per1K ≤ more * dearer := mul_le_mul hmore hdearer hprice htokens
  exact Int.ediv_le_ediv (by norm_num) (by omega)

theorem exactTerm_pos {tokens per1K : ℤ} (htokens : 0 < tokens) (hprice : 0 < per1K) :
    0 < exactTerm tokens per1K := by
  have hproduct := mul_pos htokens hprice
  unfold exactTerm
  omega

theorem ExactRange.price_eq (h : ExactRange inputTokens outputTokens inputPer1K outputPer1K) :
    (priceCredits P inputTokens outputTokens inputPer1K outputPer1K).toInt =
      exactPrice inputTokens outputTokens inputPer1K.toInt outputPer1K.toInt :=
  priceCredits_eq h.inputTokens_nonneg h.outputTokens_nonneg h.inputPer1K_nonneg
    h.outputPer1K_nonneg h.input h.output

/-- **The price is the documented one**, monotone in every argument, and positive where some
positive count has a positive price. -/
theorem price_is_documented (P : Platform)
    (h : ExactRange inputTokens outputTokens inputPer1K outputPer1K) :
    (priceCredits P inputTokens outputTokens inputPer1K outputPer1K).toInt =
        documentedPrice inputTokens outputTokens inputPer1K.toInt outputPer1K.toInt ∧
    (∀ inputTokens' outputTokens' inputPer1K' outputPer1K',
      ExactRange inputTokens' outputTokens' inputPer1K' outputPer1K' →
      inputTokens ≤ inputTokens' → outputTokens ≤ outputTokens' →
      inputPer1K.toInt ≤ inputPer1K'.toInt → outputPer1K.toInt ≤ outputPer1K'.toInt →
        (priceCredits P inputTokens outputTokens inputPer1K outputPer1K).toInt ≤
          (priceCredits P inputTokens' outputTokens' inputPer1K' outputPer1K').toInt) ∧
    ((0 < inputTokens ∧ 0 < inputPer1K.toInt ∨ 0 < outputTokens ∧ 0 < outputPer1K.toInt) →
      0 < (priceCredits P inputTokens outputTokens inputPer1K outputPer1K).toInt) := by
  refine ⟨?_, fun inputTokens' outputTokens' inputPer1K' outputPer1K' h' hinput houtput
    hinputPrice houtputPrice => ?_, fun hpositive => ?_⟩
  · rw [h.price_eq, exactPrice, exactTerm_eq_ceil, exactTerm_eq_ceil, documentedPrice]
  · rw [h.price_eq, h'.price_eq]
    exact add_le_add
      (exactTerm_mono₂ h'.inputTokens_nonneg h.inputPer1K_nonneg hinput hinputPrice)
      (exactTerm_mono₂ h'.outputTokens_nonneg h.outputPer1K_nonneg houtput houtputPrice)
  · have hinput := (exactTerm_bounds h.inputTokens_nonneg h.inputPer1K_nonneg h.input).1
    have houtput := (exactTerm_bounds h.outputTokens_nonneg h.outputPer1K_nonneg h.output).1
    rw [h.price_eq, exactPrice]
    rcases hpositive with ⟨htokens, hprice⟩ | ⟨htokens, hprice⟩
    · have hpos := exactTerm_pos htokens hprice
      omega
    · have hpos := exactTerm_pos htokens hprice
      omega

/-- At the largest product a thousandth is one of `2^-10` credits. -/
theorem largest_price_is_documented :
    (priceCredits samplePlatform (2 ^ 53) 3 1 7).toInt = documentedPrice (2 ^ 53) 3 1 7 ∧
      0 < (priceCredits samplePlatform (2 ^ 53) 3 1 7).toInt := by
  have hrange : ExactRange (2 ^ 53) 3 1 7 := by
    constructor <;> decide
  obtain ⟨hprice, -, hpositive⟩ := price_is_documented samplePlatform hrange
  exact ⟨hprice, hpositive (.inl (by decide))⟩

end Prices

/-! ## Rewards -/

/-- The documented reward of a cost at a ratio of ten-thousandths. -/
def documentedReward (cost k : ℤ) : ℤ := ⌊(cost * k / 10000 : ℚ)⌋

/-- What the cost is multiplied by. -/
def storedRatio (k : ℤ) : ℚ := binary64 (k / 10000)

/-- The exact product of the cost and the stored ratio is rounded to the documented reward or
up from it, and not to the next integer. -/
def RoundsToReward (cost k : ℤ) : Prop :=
  (documentedReward cost k = 0 ∨ RoundsUpTo (documentedReward cost k) (cost * storedRatio k)) ∧
    ¬ RoundsUpTo (documentedReward cost k + 1) (cost * storedRatio k)

section Rewards

variable {P : Platform} {cost : Int64} {k : ℤ}

theorem storedRatio_bounds (hk : 0 ≤ k ∧ k ≤ 10000) : 0 ≤ storedRatio k ∧ storedRatio k ≤ 1 := by
  have hlow : (0 : ℚ) ≤ k := by exact_mod_cast hk.1
  have hhigh : (k : ℚ) ≤ 10000 := by exact_mod_cast hk.2
  have hratio : (k : ℚ) / 10000 ≤ 2 ^ (0 : ℤ) := by
    rw [zpow_zero, div_le_one (by norm_num)]
    exact hhigh
  have hround := binary64_le_two_zpow (by positivity) hratio
  rw [zpow_zero] at hround
  exact ⟨binary64_nonneg (by positivity), hround⟩

theorem documentedReward_bounds {cost : ℤ} (hcost : 0 ≤ cost) (hk : 0 ≤ k ∧ k ≤ 10000) :
    0 ≤ documentedReward cost k ∧ documentedReward cost k ≤ cost := by
  have hcost' : (0 : ℚ) ≤ cost := by exact_mod_cast hcost
  have hlow : (0 : ℚ) ≤ k := by exact_mod_cast hk.1
  have hhigh : (k : ℚ) ≤ 10000 := by exact_mod_cast hk.2
  refine ⟨Int.floor_nonneg.mpr (by positivity), ?_⟩
  have hle : (cost : ℚ) * k / 10000 ≤ cost := by
    rw [div_le_iff₀ (by norm_num)]
    exact mul_le_mul_of_nonneg_left hhigh hcost'
  have hfloor : (documentedReward cost k : ℚ) ≤ cost := (Int.floor_le _).trans hle
  exact_mod_cast hfloor

/-- The product that is rounded is between zero and the cost, and so is what it is rounded to. -/
theorem rounded_product_bounds (hcost : 0 ≤ cost.toInt ∧ cost.toInt ≤ 2 ^ 53)
    (hk : 0 ≤ k ∧ k ≤ 10000) :
    cost.toInt * storedRatio k ≤ cost.toInt ∧
    0 ≤ binary64 (cost.toInt * storedRatio k) ∧
      binary64 (cost.toInt * storedRatio k) ≤ cost.toInt := by
  obtain ⟨hlow, hhigh⟩ := storedRatio_bounds hk
  have hcost' : (0 : ℚ) ≤ cost.toInt := by exact_mod_cast hcost.1
  have hproduct : cost.toInt * storedRatio k ≤ cost.toInt := mul_le_of_le_one_right hcost' hhigh
  have hround := binary64_mono hproduct
  rw [binary64_intCast hcost.1 hcost.2] at hround
  exact ⟨hproduct, binary64_nonneg (mul_nonneg hcost' hlow), hround⟩

/-- The reward is the floor of that rounded product. -/
theorem providerReward_eq (hcost : 0 ≤ cost.toInt ∧ cost.toInt ≤ 2 ^ 53)
    (hk : 0 ≤ k ∧ k ≤ 10000) :
    (providerReward P cost (storedRatio k)).toInt =
      ⌊binary64 (cost.toInt * storedRatio k)⌋ := by
  obtain ⟨-, hlow, hhigh⟩ := rounded_product_bounds hcost hk
  have hfloor₀ := Int.floor_nonneg.mpr hlow
  have hfloor : ⌊binary64 (cost.toInt * storedRatio k)⌋ ≤ cost.toInt := by
    exact_mod_cast (Int.floor_le _).trans hhigh
  rw [providerReward, binary64_intCast hcost.1 hcost.2]
  exact toInt_int64OfFloat (by omega) (by omega)

/-- **When the reward is the documented share.**  It is never more than the cost. -/
theorem reward_is_documented_iff (P : Platform) (cost : Int64) (k : ℤ)
    (hcost : 0 ≤ cost.toInt ∧ cost.toInt ≤ 2 ^ 53) (hk : 0 ≤ k ∧ k ≤ 10000) :
    ((providerReward P cost (storedRatio k)).toInt = documentedReward cost.toInt k ↔
      RoundsToReward cost.toInt k) ∧
    (providerReward P cost (storedRatio k)).toInt ≤ cost.toInt := by
  obtain ⟨hproduct, hlow, hhigh⟩ := rounded_product_bounds hcost hk
  obtain ⟨hreward₀, hreward⟩ := documentedReward_bounds hcost.1 hk
  rw [providerReward_eq hcost hk]
  refine ⟨?_, by exact_mod_cast (Int.floor_le _).trans hhigh⟩
  have hreaches : (documentedReward cost.toInt k : ℚ) ≤
      binary64 (cost.toInt * storedRatio k) ↔ documentedReward cost.toInt k = 0 ∨
        RoundsUpTo (documentedReward cost.toInt k) (cost.toInt * storedRatio k) := by
    rcases hreward₀.eq_or_lt with hzero | hpos
    · rw [← hzero]
      exact iff_of_true (by exact_mod_cast hlow) (.inl rfl)
    · rw [le_binary64_iff_roundsUpTo hpos (hreward.trans hcost.2), or_iff_right (by omega)]
  have hpasses : ((documentedReward cost.toInt k + 1 : ℤ) : ℚ) ≤
      binary64 (cost.toInt * storedRatio k) ↔
        RoundsUpTo (documentedReward cost.toInt k + 1) (cost.toInt * storedRatio k) := by
    by_cases hmax : documentedReward cost.toInt k + 1 ≤ 2 ^ 53
    · exact le_binary64_iff_roundsUpTo (by omega) hmax
    · -- The reward is the cost, and both are `2^53`.
      have hcost' : cost.toInt = 2 ^ 53 := by omega
      have hreward' : documentedReward cost.toInt k = 2 ^ 53 := by omega
      have hproduct' : cost.toInt * storedRatio k ≤ 2 ^ 53 := by
        rw [hcost'] at hproduct ⊢
        exact_mod_cast hproduct
      rw [hreward']
      refine iff_of_false (fun hle => ?_) (not_roundsUpTo_of_le hproduct')
      rw [hcost'] at hhigh hle
      push_cast at hhigh hle
      linarith
  rw [Int.floor_eq_iff, RoundsToReward, hreaches]
  refine and_congr_right fun _ => ?_
  rw [← hpasses, not_le]
  push_cast
  exact Iff.rfl

/-- Seven tenths of a hundred credits are rounded to seventy, twenty-nine hundredths not to
twenty-nine. -/
theorem sample_shares_round :
    RoundsToReward (100 : Int64).toInt 7000 ∧ ¬ RoundsToReward (100 : Int64).toInt 2900 := by
  have hexact : (providerReward samplePlatform 100 (storedRatio 7000)).toInt =
      documentedReward (100 : Int64).toInt 7000 := by decide +kernel
  have hshort : ¬ (providerReward samplePlatform 100 (storedRatio 2900)).toInt =
      documentedReward (100 : Int64).toInt 2900 := by decide +kernel
  constructor
  · exact (reward_is_documented_iff samplePlatform 100 7000 (by decide) (by decide)).1.mp hexact
  · rw [← (reward_is_documented_iff samplePlatform 100 2900 (by decide) (by decide)).1]
    exact hshort

end Rewards

/-- Twenty-nine hundredths of a hundred credits are twenty-eight. -/
theorem reward_is_one_credit_short :
    (providerReward samplePlatform 100 (storedRatio 2900)).toInt = 28 ∧
      documentedReward 100 2900 = 29 ∧
      ¬ (providerReward samplePlatform 100 (storedRatio 2900)).toInt =
        documentedReward (100 : Int64).toInt 2900 := by
  decide +kernel

end Nuvonode.Contract
