/-
  Service/Pricing.lean --- token estimates, prices and rewards.

  From `metering/estimator.go` and the two money functions of
  `service/services.go`.  The money functions compute in `float64`: every operation
  is rounded, and the result is converted back to `int64`.
-/
import Nuvonode.Service.Config
import Nuvonode.Database.Schema

set_option autoImplicit false

namespace Nuvonode.Service

open Nuvonode.Foundation Nuvonode.Database

/-! ## Token counts -/

/-- One token for every four bytes, rounded up. -/
def estimateTokensFromChars (chars : ℤ) : ℤ := if chars ≤ 0 then 0 else (chars + 3) / 4

/-- Whether a reported count is plausible for that many bytes. -/
def inReasonableRange (chars reported : ℤ) : Bool :=
  if chars ≤ 0 then reported == 0
  else (chars + 7) / 8 ≤ reported && reported ≤ (chars + 1) / 2 + 100

/-- The counts to bill: the reported ones when both are plausible, else the estimates. -/
def validateReportedTokens (promptChars completionChars reportedPrompt reportedCompletion : ℤ) :
    ℤ × ℤ × TokenSource :=
  if inReasonableRange promptChars reportedPrompt &&
      inReasonableRange completionChars reportedCompletion then
    (reportedPrompt, reportedCompletion, .runtimeReported)
  else
    (estimateTokensFromChars promptChars, estimateTokensFromChars completionChars,
      .serverEstimated)

/-! ## Credits -/

/-- Go's conversion of a float to `int64`: truncation, where that fits. -/
def int64OfFloat (P : Platform) (q : ℚ) : Int64 :=
  let whole := if 0 ≤ q then ⌊q⌋ else ⌈q⌉
  if -(2 ^ 63) ≤ whole ∧ whole < 2 ^ 63 then Int64.ofInt whole else P.outOfRangeInt64 q

/-- `int64(math.Ceil(float64(tokens)*float64(per1K)/1000))`. -/
def priceTerm (P : Platform) (tokens : ℤ) (per1K : Int64) : Int64 :=
  let product := binary64 (binary64 tokens * binary64 per1K.toInt)
  int64OfFloat P ⌈binary64 (product / 1000)⌉

/-- The price of a number of input and output tokens. -/
def priceCredits (P : Platform) (inputTokens outputTokens : ℤ)
    (inputPer1K outputPer1K : Int64) : Int64 :=
  priceTerm P inputTokens inputPer1K + priceTerm P outputTokens outputPer1K

/-- The provider's share of a cost; `ratio` is a binary64 value. -/
def providerReward (P : Platform) (cost : Int64) (ratio : ℚ) : Int64 :=
  int64OfFloat P ⌊binary64 (binary64 cost.toInt * ratio)⌋

section Ranges

variable {P : Platform}

/-- The conversion of an integer in range is that integer. -/
theorem toInt_int64OfFloat {n : ℤ} (hlow : -(2 ^ 63) ≤ n) (hhigh : n < 2 ^ 63) :
    (int64OfFloat P n).toInt = n := by
  have hwhole : (if (0 : ℚ) ≤ n then ⌊(n : ℚ)⌋ else ⌈(n : ℚ)⌉) = n := by simp
  rw [int64OfFloat, hwhole, if_pos ⟨hlow, hhigh⟩]
  exact Int64.toInt_ofInt_of_le (by omega) (by omega)

/-! ## Exact prices -/

/-- A count that is plausible for that many bytes; no byte is no token. -/
structure Plausible (chars tokens : ℤ) : Prop where
  lower : (chars + 7) / 8 ≤ tokens
  upper : tokens ≤ (chars + 1) / 2 + 100
  zero : chars = 0 → tokens = 0

/-- An estimate is plausible. -/
theorem plausible_estimate {chars : ℤ} (h : 0 ≤ chars) :
    Plausible chars (estimateTokensFromChars chars) := by
  unfold estimateTokensFromChars
  split
  · exact ⟨by omega, by omega, fun _ => rfl⟩
  · exact ⟨by omega, by omega, by omega⟩

/-- A report that is accepted is plausible. -/
theorem plausible_reported {chars reported : ℤ} (h : 0 ≤ chars)
    (hin : inReasonableRange chars reported = true) : Plausible chars reported := by
  unfold inReasonableRange at hin
  split at hin
  · have hzero : reported = 0 := by simpa using hin
    exact ⟨by omega, by omega, fun _ => hzero⟩
  · have hboth : (chars + 7) / 8 ≤ reported ∧ reported ≤ (chars + 1) / 2 + 100 := by
      simpa using hin
    exact ⟨hboth.1, hboth.2, by omega⟩

/-- A report is taken as a whole or not at all. -/
theorem validateReportedTokens_cases (promptChars completionChars reportedPrompt
    reportedCompletion : ℤ) :
    (inReasonableRange promptChars reportedPrompt = true ∧
      inReasonableRange completionChars reportedCompletion = true ∧
      validateReportedTokens promptChars completionChars reportedPrompt reportedCompletion =
        (reportedPrompt, reportedCompletion, .runtimeReported)) ∨
    validateReportedTokens promptChars completionChars reportedPrompt reportedCompletion =
      (estimateTokensFromChars promptChars, estimateTokensFromChars completionChars,
        .serverEstimated) := by
  unfold validateReportedTokens
  split
  · rename_i hboth
    obtain ⟨hin₁, hin₂⟩ := Bool.and_eq_true_iff.mp hboth
    exact .inl ⟨hin₁, hin₂, rfl⟩
  · exact .inr rfl

/-- A price term in whole numbers. -/
def exactTerm (tokens per1K : ℤ) : ℤ := (tokens * per1K + 999) / 1000

/-- A price in whole numbers. -/
def exactPrice (inputTokens outputTokens inputPer1K outputPer1K : ℤ) : ℤ :=
  exactTerm inputTokens inputPer1K + exactTerm outputTokens outputPer1K

theorem exactTerm_mono {tokens more per1K : ℤ} (hprice : 0 ≤ per1K) (h : tokens ≤ more) :
    exactTerm tokens per1K ≤ exactTerm more per1K := by
  have hproduct := mul_le_mul_of_nonneg_right h hprice
  exact Int.ediv_le_ediv (by norm_num) (by omega)

theorem exactTerm_bounds {tokens per1K : ℤ} (htokens : 0 ≤ tokens) (hprice : 0 ≤ per1K)
    (h : tokens * per1K ≤ 2 ^ 53) :
    0 ≤ exactTerm tokens per1K ∧ exactTerm tokens per1K ≤ 2 ^ 44 := by
  have hproduct := mul_nonneg htokens hprice
  unfold exactTerm
  constructor <;> omega

/-- Where the product is at most `2^53`, floats compute the price term exactly. -/
theorem priceTerm_eq {tokens : ℤ} {per1K : Int64} (htokens : 0 ≤ tokens)
    (hprice : 0 ≤ per1K.toInt) (h : tokens * per1K.toInt ≤ 2 ^ 53) :
    (priceTerm P tokens per1K).toInt = exactTerm tokens per1K.toInt := by
  have hproduct : binary64 (binary64 tokens * binary64 per1K.toInt) =
      ((tokens * per1K.toInt : ℤ) : ℚ) := by
    rcases htokens.eq_or_lt with rfl | htokens'
    · simp
    rcases hprice.eq_or_lt with hzero | hprice'
    · simp [← hzero]
    -- Neither factor is zero, so neither exceeds the product.
    have htokens₁ : tokens ≤ tokens * per1K.toInt := le_mul_of_one_le_right htokens hprice'
    have hprice₁ : per1K.toInt ≤ tokens * per1K.toInt := le_mul_of_one_le_left hprice htokens'
    rw [binary64_intCast htokens (htokens₁.trans h), binary64_intCast hprice (hprice₁.trans h),
      ← Int.cast_mul, binary64_intCast (mul_nonneg htokens hprice) h]
  have hceil := ceil_binary64_thousandth (mul_nonneg htokens hprice) h
  have hbounds := exactTerm_bounds htokens hprice h
  rw [priceTerm, hproduct, hceil]
  exact toInt_int64OfFloat (by rw [← exactTerm]; omega) (by rw [← exactTerm]; omega)

theorem priceCredits_eq {inputTokens outputTokens : ℤ} {inputPer1K outputPer1K : Int64}
    (hinput : 0 ≤ inputTokens) (houtput : 0 ≤ outputTokens) (hinputPrice : 0 ≤ inputPer1K.toInt)
    (houtputPrice : 0 ≤ outputPer1K.toInt) (hin : inputTokens * inputPer1K.toInt ≤ 2 ^ 53)
    (hout : outputTokens * outputPer1K.toInt ≤ 2 ^ 53) :
    (priceCredits P inputTokens outputTokens inputPer1K outputPer1K).toInt =
      exactPrice inputTokens outputTokens inputPer1K.toInt outputPer1K.toInt := by
  have hbounds := exactTerm_bounds hinput hinputPrice hin
  have hbounds' := exactTerm_bounds houtput houtputPrice hout
  have hterm : (priceTerm P inputTokens inputPer1K).toInt = _ := priceTerm_eq hinput hinputPrice hin
  have hterm' : (priceTerm P outputTokens outputPer1K).toInt = _ :=
    priceTerm_eq houtput houtputPrice hout
  rw [priceCredits, toInt_add_of_fits (by omega) (by simp only [maxInt64]; omega), hterm, hterm',
    exactPrice]

end Ranges

end Nuvonode.Service
