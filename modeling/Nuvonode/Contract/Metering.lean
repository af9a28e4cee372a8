/-
  Contract/Metering.lean --- a provider's report cannot inflate the bill.

  A report is used as a whole or not at all, and every count that is used lies within
  bounds that the texts themselves give.  So does its price, whatever is reported.
-/
import Nuvonode.Contract.Reservations

set_option autoImplicit false

namespace Nuvonode.Contract

open Nuvonode.Foundation Nuvonode.Database Nuvonode.Repository Nuvonode.Service Nuvonode.Handler
  Nuvonode.Ws

/-- The largest plausible count for that many bytes. -/
def upperTokens (chars : ℤ) : ℤ := (chars + 1) / 2 + 100

/-- The cost that `ChatCompletions` makes of a price and any reservation. -/
def cappedCost (reservedCredits price : Int64) : Int64 :=
  if reservedCredits < price then reservedCredits else price

theorem actualCost_eq_cappedCost (P : Platform) (job : ChatJob) (result : JobResultPayload) :
    job.actualCost P result = cappedCost (job.reservedCredits P) (job.price P result) := rfl

theorem cappedCost_le_reserved (reservedCredits price : Int64) :
    (cappedCost reservedCredits price).toInt ≤ reservedCredits.toInt := by
  unfold cappedCost
  split
  · exact le_refl _
  · rename_i hle
    rw [Int64.lt_iff_toInt_lt] at hle
    omega

theorem cappedCost_le_price (reservedCredits price : Int64) :
    (cappedCost reservedCredits price).toInt ≤ price.toInt := by
  unfold cappedCost
  split
  · rename_i hlt
    rw [Int64.lt_iff_toInt_lt] at hlt
    omega
  · exact le_refl _

/-- The bytes of a completion. -/
def completionChars (result : JobResultPayload) : ℤ := result.content.utf8ByteSize

/-- The counts that a result is billed for are both those of its report, or both the
estimates of the server. -/
def BilledAlike (job : ChatJob) (result : JobResultPayload) : Prop :=
  (∃ usage, result.usage = some usage ∧ job.billedTokens result =
      (usage.promptTokens.toInt, usage.completionTokens.toInt, .runtimeReported)) ∨
    job.billedTokens result = (estimateTokensFromChars job.inputChars,
      estimateTokensFromChars (completionChars result), .serverEstimated)

/-- A message that passes the checks has a byte. -/
theorem inputChars_pos {body : Option ChatRequest} {job : ChatJob}
    (h : validate body = .ok job.request) : 0 < job.inputChars := by
  obtain ⟨hmessages, hcontent⟩ : job.request.messages ≠ [] ∧
      ∀ m ∈ job.request.messages, m.content ≠ "" := by
    unfold validate at h
    split at h
    · cases h
    · split at h
      · cases h
      split at h
      · cases h
      split at h
      · cases h
      · rename_i hempty hany
        cases h
        refine ⟨fun hnil => hempty (.inr hnil), fun m hm hcontent => hany ?_⟩
        exact List.any_eq_true.mpr ⟨m, hm, by simp [hcontent]⟩
  obtain ⟨m, rest, hcons⟩ := List.exists_cons_of_ne_nil hmessages
  have hpos : 0 < (m.content.utf8ByteSize : ℤ) := by
    have hne := hcontent m (hcons ▸ List.mem_cons_self)
    have hsize : m.content.utf8ByteSize ≠ 0 := fun hzero =>
      hne (String.utf8ByteSize_eq_zero_iff.mp hzero)
    omega
  have hrest : 0 ≤ (rest.map fun m => (m.content.utf8ByteSize : ℤ)).sum := by
    refine List.sum_nonneg fun x hx => ?_
    obtain ⟨m, -, rfl⟩ := List.mem_map.mp hx
    exact Int.natCast_nonneg _
  rw [ChatJob.inputChars, hcons, List.map_cons, List.sum_cons]
  omega

/-- Whatever is reported, the counts are taken alike and are plausible. -/
theorem billedTokens_plausible {job : ChatJob} (result : JobResultPayload)
    (hinput : 0 < job.inputChars) :
    BilledAlike job result ∧ Plausible job.inputChars (job.billedTokens result).1 ∧
      Plausible (completionChars result) (job.billedTokens result).2.1 := by
  have hcompletion : 0 ≤ completionChars result := Int.natCast_nonneg _
  -- The estimates are both plausible.
  have hestimate : job.billedTokens result = (estimateTokensFromChars job.inputChars,
      estimateTokensFromChars (completionChars result), .serverEstimated) →
      BilledAlike job result ∧ Plausible job.inputChars (job.billedTokens result).1 ∧
        Plausible (completionChars result) (job.billedTokens result).2.1 := by
    intro heq
    refine ⟨.inr heq, ?_, ?_⟩
    · rw [heq]
      exact plausible_estimate hinput.le
    · rw [heq]
      exact plausible_estimate hcompletion
  cases husage : result.usage with
  | none =>
      -- No prompt has zero tokens.
      have hbilled : job.billedTokens result =
          validateReportedTokens job.inputChars (completionChars result) 0 0 := by
        simp only [ChatJob.billedTokens, husage]
        rfl
      rcases validateReportedTokens_cases job.inputChars (completionChars result) 0 0 with
        ⟨hzero, -, -⟩ | heq
      · have hlower := (plausible_reported hinput.le hzero).lower
        omega
      · exact hestimate (hbilled.trans heq)
  | some usage =>
      have hbilled : job.billedTokens result =
          validateReportedTokens job.inputChars (completionChars result)
            usage.promptTokens.toInt usage.completionTokens.toInt := by
        simp only [ChatJob.billedTokens, husage]
        rfl
      rcases validateReportedTokens_cases job.inputChars (completionChars result)
        usage.promptTokens.toInt usage.completionTokens.toInt with ⟨hin₁, hin₂, heq⟩ | heq
      · refine ⟨.inl ⟨usage, husage, hbilled.trans heq⟩, ?_, ?_⟩
        · rw [hbilled.trans heq]
          exact plausible_reported hinput.le hin₁
        · rw [hbilled.trans heq]
          exact plausible_reported hcompletion hin₂
      · exact hestimate (hbilled.trans heq)

/-- The counts that are settled are both those of the report, or both the estimates of the
server, and the source says which. -/
def SettledAlike (job : ChatJob) (result : JobResultPayload) (input : UsageSettlement) : Prop :=
  (∃ usage, result.usage = some usage ∧ input.inputTokens = usage.promptTokens.toInt ∧
      input.outputTokens = usage.completionTokens.toInt ∧
      input.tokenSource = "runtime_reported") ∨
    input.inputTokens = estimateTokensFromChars job.inputChars ∧
      input.outputTokens = estimateTokensFromChars (completionChars result) ∧
      input.tokenSource = "server_estimated"

theorem SettledAlike.of_billed {P : Platform} {job : ChatJob} {result : JobResultPayload}
    {walletID jobID : UUID} (h : BilledAlike job result) :
    SettledAlike job result (job.settlement P walletID jobID result) := by
  unfold SettledAlike ChatJob.settlement
  rcases h with ⟨usage, husage, heq⟩ | heq
  · rw [heq]
    exact .inl ⟨usage, husage, rfl, rfl, rfl⟩
  · rw [heq]
    exact .inr ⟨rfl, rfl, rfl⟩

/-- For every request that passes its checks, every completion and every report: the counts
that are settled are both reported or both estimated, and plausible; and where their
products with the prices, which are not negative, are at most `2^53`, the cost under any
reservation is at most that reservation and at most the exact price of the largest
plausible counts, which is also the price that floats compute where its own products are
at most `2^53`. -/
theorem report_cannot_inflate_bill (P : Platform) (job : ChatJob) (result : JobResultPayload)
    (walletID jobID : UUID) {body : Option ChatRequest} (hbody : validate body = .ok job.request)
    (hinputPrice : 0 ≤ job.model.inputCreditPer1K.toInt)
    (houtputPrice : 0 ≤ job.model.outputCreditPer1K.toInt)
    (hinput : (job.settlement P walletID jobID result).inputTokens *
      job.model.inputCreditPer1K.toInt ≤ 2 ^ 53)
    (houtput : (job.settlement P walletID jobID result).outputTokens *
      job.model.outputCreditPer1K.toInt ≤ 2 ^ 53) :
    SettledAlike job result (job.settlement P walletID jobID result) ∧
      Plausible job.inputChars (job.settlement P walletID jobID result).inputTokens ∧
      Plausible (completionChars result) (job.settlement P walletID jobID result).outputTokens ∧
      (job.settlement P walletID jobID result).actualCostCredits =
        cappedCost (job.reservedCredits P) (job.price P result) ∧
      (∀ reservedCredits, (cappedCost reservedCredits (job.price P result)).toInt ≤
          reservedCredits.toInt ∧
        (cappedCost reservedCredits (job.price P result)).toInt ≤
          exactPrice (upperTokens job.inputChars) (upperTokens (completionChars result))
            job.model.inputCreditPer1K.toInt job.model.outputCreditPer1K.toInt) ∧
      (upperTokens job.inputChars * job.model.inputCreditPer1K.toInt ≤ 2 ^ 53 →
        upperTokens (completionChars result) * job.model.outputCreditPer1K.toInt ≤ 2 ^ 53 →
        (priceCredits P (upperTokens job.inputChars) (upperTokens (completionChars result))
            job.model.inputCreditPer1K job.model.outputCreditPer1K).toInt =
          exactPrice (upperTokens job.inputChars) (upperTokens (completionChars result))
            job.model.inputCreditPer1K.toInt job.model.outputCreditPer1K.toInt) := by
  have hpos := inputChars_pos hbody
  have hcompletion : 0 ≤ completionChars result := Int.natCast_nonneg _
  obtain ⟨halike, hprompt, hanswer⟩ := billedTokens_plausible result hpos
  have hprompt₀ : 0 ≤ (job.billedTokens result).1 := by
    have hlower := hprompt.lower
    omega
  have hanswer₀ : 0 ≤ (job.billedTokens result).2.1 := by
    have hlower := hanswer.lower
    omega
  have hprice : (job.price P result).toInt =
      exactPrice (job.billedTokens result).1 (job.billedTokens result).2.1
        job.model.inputCreditPer1K.toInt job.model.outputCreditPer1K.toInt :=
    priceCredits_eq hprompt₀ hanswer₀ hinputPrice houtputPrice hinput houtput
  have hupper : (job.price P result).toInt ≤
      exactPrice (upperTokens job.inputChars) (upperTokens (completionChars result))
        job.model.inputCreditPer1K.toInt job.model.outputCreditPer1K.toInt := by
    rw [hprice]
    exact add_le_add (exactTerm_mono hinputPrice hprompt.upper)
      (exactTerm_mono houtputPrice hanswer.upper)
  refine ⟨.of_billed halike, hprompt, hanswer, actualCost_eq_cappedCost P job result,
    fun reservedCredits => ⟨cappedCost_le_reserved _ _, (cappedCost_le_price _ _).trans hupper⟩,
    fun hin hout => ?_⟩
  refine priceCredits_eq ?_ ?_ hinputPrice houtputPrice hin hout
  · unfold upperTokens
    omega
  · unfold upperTokens
    omega

/-- The sample request with its rows. -/
def sampleJob : ChatJob where
  auth := ⟨21, 20, 1⟩
  request := ⟨"llama", [⟨"user", "hello"⟩], 50, none, false⟩
  model := sampleModel
  route := ⟨5, "prv_b", 24, 23, "llama3:8b"⟩
  publicID := "job_a"
  requestID := "req_a"

/-- A report of a hundred thousand tokens for eight bytes is billed as two estimated
tokens, under any reservation at the exact price of the largest plausible counts or less. -/
theorem huge_report_does_not_inflate :
    let result : JobResultPayload :=
      ⟨"job_a", "hi there", "stop", some ⟨100000, 100000, 200000, ""⟩, 900, "", ""⟩
    sampleJob.billedTokens result = (2, 2, .serverEstimated) ∧
      SettledAlike sampleJob result (sampleJob.settlement samplePlatform 2 7 result) ∧
      ∀ reservedCredits,
        (cappedCost reservedCredits (sampleJob.price samplePlatform result)).toInt ≤
            reservedCredits.toInt ∧
          (cappedCost reservedCredits (sampleJob.price samplePlatform result)).toInt ≤
            exactPrice (upperTokens 5) (upperTokens 8) 1000 1000 := by
  intro result
  have hprompt : (sampleJob.settlement samplePlatform 2 7 result).inputTokens *
      sampleJob.model.inputCreditPer1K.toInt ≤ 2 ^ 53 := by decide +kernel
  have hanswer : (sampleJob.settlement samplePlatform 2 7 result).outputTokens *
      sampleJob.model.outputCreditPer1K.toInt ≤ 2 ^ 53 := by decide +kernel
  have hbody : validate (some sampleJob.request) = .ok sampleJob.request := by decide +kernel
  obtain ⟨halike, -, -, -, hcost, -⟩ := report_cannot_inflate_bill samplePlatform sampleJob result
    2 7 hbody (by decide) (by decide) hprompt hanswer
  have hinput : sampleJob.inputChars = 5 := by decide +kernel
  have houtput : completionChars result = 8 := by decide +kernel
  rw [hinput, houtput] at hcost
  exact ⟨by decide +kernel, halike, hcost⟩

end Nuvonode.Contract
