/-
  Contract/Characters.lean --- whether metering counts characters.

  The estimator is told the number of characters and is given `len` of the texts, which
  is their number of bytes.  The two readings agree on few texts beyond ASCII.
-/
import Nuvonode.Contract.Metering
import Nuvonode.Foundation.Utf8

set_option autoImplicit false

namespace Nuvonode.Contract

open Nuvonode.Foundation Nuvonode.Database Nuvonode.Repository Nuvonode.Service Nuvonode.Handler
  Nuvonode.Ws

/-- The characters of all messages. -/
def promptText (job : ChatJob) : List Char :=
  job.request.messages.flatMap fun m => m.content.toList

/-- The counts that are reasonable for that many characters. -/
structure ReasonableFor (chars : ℕ) (tokens : ℤ) : Prop where
  lower : ⌈(chars : ℚ) / 8⌉ ≤ tokens
  upper : tokens ≤ ⌈(chars : ℚ) / 2⌉ + 100
  zero : chars = 0 → tokens = 0

/-- A request and its completion are metered by their characters. -/
structure CountsCharacters (job : ChatJob) (result : JobResultPayload) : Prop where
  estimate : job.inputTokens = ⌈((promptText job).length : ℚ) / 4⌉
  promptRange : ∀ tokens, inReasonableRange job.inputChars tokens = true ↔
    ReasonableFor (promptText job).length tokens
  completionRange : ∀ tokens, inReasonableRange (completionChars result) tokens = true ↔
    ReasonableFor result.content.toList.length tokens

/-- Two requests with their completions are metered alike. -/
structure MeteredAlike (job job' : ChatJob) (result result' : JobResultPayload) : Prop where
  estimate : job.inputTokens = job'.inputTokens
  acceptance : ∀ promptTokens completionTokens,
    (validateReportedTokens job.inputChars (completionChars result) promptTokens
        completionTokens).2.2 = .runtimeReported ↔
      (validateReportedTokens job'.inputChars (completionChars result') promptTokens
        completionTokens).2.2 = .runtimeReported
  reservation : ∀ P, job.maxTokens = job'.maxTokens →
    job.model.inputCreditPer1K = job'.model.inputCreditPer1K →
    job.model.outputCreditPer1K = job'.model.outputCreditPer1K →
      job.reservedCredits P = job'.reservedCredits P

section Ranges

variable {bytes bytes' : ℕ} {chars : List Char} {job job' : ChatJob}
  {result result' : JobResultPayload}

theorem inReasonableRange_pos (h : 0 < bytes) (tokens : ℤ) :
    inReasonableRange bytes tokens = true ↔
      ((bytes : ℤ) + 7) / 8 ≤ tokens ∧ tokens ≤ ((bytes : ℤ) + 1) / 2 + 100 := by
  unfold inReasonableRange
  rw [if_neg (by omega), Bool.and_eq_true, decide_eq_true_eq, decide_eq_true_eq]

theorem inReasonableRange_zero (tokens : ℤ) :
    inReasonableRange ((0 : ℕ) : ℤ) tokens = true ↔ tokens = 0 := by
  unfold inReasonableRange
  rw [if_pos (by omega), beq_iff_eq]

/-- The range for a number of bytes is what is reasonable for that many characters. -/
theorem inReasonableRange_iff (bytes : ℕ) (tokens : ℤ) :
    inReasonableRange bytes tokens = true ↔ ReasonableFor bytes tokens := by
  have heighth : ⌈(bytes : ℚ) / 8⌉ = -(-(bytes : ℤ) / 8) := by
    exact_mod_cast Rat.ceil_natCast_div_natCast bytes 8
  have hhalf : ⌈(bytes : ℚ) / 2⌉ = -(-(bytes : ℤ) / 2) := by
    exact_mod_cast Rat.ceil_natCast_div_natCast bytes 2
  rcases Nat.eq_zero_or_pos bytes with hzero | hpos
  · subst hzero
    rw [inReasonableRange_zero]
    exact ⟨fun htokens => ⟨by omega, by omega, fun _ => htokens⟩, fun h => h.zero rfl⟩
  · rw [inReasonableRange_pos hpos]
    constructor
    · rintro ⟨hlower, hupper⟩
      exact ⟨by omega, by omega, by omega⟩
    · intro h
      have hlower := h.lower
      have hupper := h.upper
      exact ⟨by omega, by omega⟩

/-- The largest count of a range, and the smallest, are in it. -/
theorem bounds_in_range (h : 0 < bytes) :
    inReasonableRange bytes ((bytes + 1) / 2 + 100) = true ∧
      inReasonableRange bytes ((bytes + 7) / 8) = true := by
  rw [inReasonableRange_pos h, inReasonableRange_pos h]
  omega

theorem range_nonempty (bytes : ℕ) : ∃ tokens, inReasonableRange bytes tokens = true := by
  rcases Nat.eq_zero_or_pos bytes with hzero | hpos
  · subst hzero
    exact ⟨0, rfl⟩
  · exact ⟨_, (bounds_in_range hpos).2⟩

/-- **Two ranges are the same exactly if half of the bytes, rounded up, is the same.** -/
theorem ranges_eq_iff :
    (∀ tokens, inReasonableRange bytes tokens = true ↔ inReasonableRange bytes' tokens = true) ↔
      (bytes + 1) / 2 = (bytes' + 1) / 2 := by
  rcases Nat.eq_zero_or_pos bytes with hzero | hpos
  · rcases Nat.eq_zero_or_pos bytes' with hzero' | hpos'
    · rw [hzero, hzero']
      exact iff_of_true (fun _ => Iff.rfl) rfl
    · -- No byte is no token, but a byte is one token or more.
      refine iff_of_false (fun hall => ?_) (by omega)
      have hmem := (hall ((bytes' + 7) / 8)).mpr (bounds_in_range hpos').2
      rw [hzero, inReasonableRange_zero] at hmem
      omega
  · rcases Nat.eq_zero_or_pos bytes' with hzero' | hpos'
    · refine iff_of_false (fun hall => ?_) (by omega)
      have hmem := (hall ((bytes + 7) / 8)).mp (bounds_in_range hpos).2
      rw [hzero', inReasonableRange_zero] at hmem
      omega
    · constructor
      · intro hall
        have hle := (hall _).mp (bounds_in_range hpos).1
        have hge := (hall _).mpr (bounds_in_range hpos').1
        rw [inReasonableRange_pos hpos'] at hle
        rw [inReasonableRange_pos hpos] at hge
        omega
      · intro hhalves tokens
        rw [inReasonableRange_pos hpos, inReasonableRange_pos hpos']
        omega

/-- A report is accepted exactly if both of its counts are in range. -/
theorem accepted_iff (promptChars completionChars promptTokens completionTokens : ℤ) :
    (validateReportedTokens promptChars completionChars promptTokens completionTokens).2.2 =
        .runtimeReported ↔
      inReasonableRange promptChars promptTokens = true ∧
        inReasonableRange completionChars completionTokens = true := by
  unfold validateReportedTokens
  split
  · rename_i hboth
    exact iff_of_true rfl (Bool.and_eq_true_iff.mp hboth)
  · rename_i hnot
    refine iff_of_false (fun hsource => ?_) fun hboth => hnot (Bool.and_eq_true_iff.mpr hboth)
    cases hsource

theorem inputChars_eq (job : ChatJob) : job.inputChars = (utf8Bytes (promptText job) : ℤ) := by
  unfold ChatJob.inputChars promptText
  induction job.request.messages with
  | nil => rfl
  | cons m rest ih =>
      rw [List.map_cons, List.sum_cons, List.flatMap_cons, utf8Bytes_append, ih, utf8ByteSize_eq]
      push_cast
      rfl

theorem completionChars_eq (result : JobResultPayload) :
    completionChars result = (utf8Bytes result.content.toList : ℤ) :=
  congrArg Nat.cast (utf8ByteSize_eq result.content)

/-- An estimate is a quarter of the characters, rounded up, where half of them is half of the
bytes. -/
theorem estimate_of_halves {chars : ℕ} (h : (bytes + 1) / 2 = (chars + 1) / 2) :
    estimateTokensFromChars bytes = ⌈(chars : ℚ) / 4⌉ := by
  have hquarter : ⌈(chars : ℚ) / 4⌉ = -(-(chars : ℤ) / 4) := by
    exact_mod_cast Rat.ceil_natCast_div_natCast chars 4
  unfold estimateTokensFromChars
  split <;> omega

theorem estimates_of_halves (h : (bytes + 1) / 2 = (bytes' + 1) / 2) :
    estimateTokensFromChars bytes = estimateTokensFromChars bytes' := by
  rw [estimate_of_halves h, estimate_of_halves rfl]

/-- **When a request and its completion are metered by their characters.** -/
theorem countsCharacters_iff : CountsCharacters job result ↔
    NearlyASCII (promptText job) ∧ NearlyASCII result.content.toList := by
  -- A range of bytes is one of characters exactly if the halves agree.
  have hrange : ∀ chars : List Char,
      (∀ tokens, inReasonableRange (utf8Bytes chars) tokens = true ↔
        ReasonableFor chars.length tokens) ↔ NearlyASCII chars := by
    intro chars
    rw [← halves_eq_iff, ← ranges_eq_iff]
    exact forall_congr' fun tokens => by rw [inReasonableRange_iff chars.length]
  constructor
  · intro h
    refine ⟨(hrange _).mp fun tokens => ?_, (hrange _).mp fun tokens => ?_⟩
    · rw [← inputChars_eq]
      exact h.promptRange tokens
    · rw [← completionChars_eq]
      exact h.completionRange tokens
  · rintro ⟨hprompt, hcompletion⟩
    refine ⟨?_, fun tokens => ?_, fun tokens => ?_⟩
    · rw [ChatJob.inputTokens, inputChars_eq]
      exact estimate_of_halves (halves_eq_iff.mpr hprompt)
    · rw [inputChars_eq]
      exact (hrange _).mpr hprompt tokens
    · rw [completionChars_eq]
      exact (hrange _).mpr hcompletion tokens

/-- **When two requests are metered alike.** -/
theorem meteredAlike_iff : MeteredAlike job job' result result' ↔
    (utf8Bytes (promptText job) + 1) / 2 = (utf8Bytes (promptText job') + 1) / 2 ∧
      (utf8Bytes result.content.toList + 1) / 2 =
        (utf8Bytes result'.content.toList + 1) / 2 := by
  constructor
  · intro h
    have haccepted := h.acceptance
    simp only [accepted_iff, inputChars_eq, completionChars_eq] at haccepted
    obtain ⟨p, hp⟩ := range_nonempty (utf8Bytes (promptText job))
    obtain ⟨c, hc⟩ := range_nonempty (utf8Bytes result.content.toList)
    obtain ⟨hp', hc'⟩ := (haccepted p c).mp ⟨hp, hc⟩
    refine ⟨ranges_eq_iff.mp fun tokens => ?_, ranges_eq_iff.mp fun tokens => ?_⟩
    · exact ⟨fun hin => ((haccepted tokens c).mp ⟨hin, hc⟩).1,
        fun hin => ((haccepted tokens c).mpr ⟨hin, hc'⟩).1⟩
    · exact ⟨fun hin => ((haccepted p tokens).mp ⟨hp, hin⟩).2,
        fun hin => ((haccepted p tokens).mpr ⟨hp', hin⟩).2⟩
  · rintro ⟨hprompt, hcompletion⟩
    have hestimate : job.inputTokens = job'.inputTokens := by
      rw [ChatJob.inputTokens, ChatJob.inputTokens, inputChars_eq, inputChars_eq]
      exact estimates_of_halves hprompt
    refine ⟨hestimate, fun p c => ?_, fun P hmax hinput houtput => ?_⟩
    · rw [accepted_iff, accepted_iff, inputChars_eq, inputChars_eq, completionChars_eq,
        completionChars_eq, ranges_eq_iff.mpr hprompt p, ranges_eq_iff.mpr hcompletion c]
    · rw [ChatJob.reservedCredits, ChatJob.reservedCredits, hestimate, hmax, hinput, houtput]

end Ranges

/-- **Metering counts characters.**  The estimate and both ranges are those of the characters
exactly for nearly ASCII texts, for each of which this makes two requests with as many characters
alike.  Any two requests are metered alike exactly if they have as many pairs of bytes. -/
theorem metering_counts_characters (job job' : ChatJob) (result result' : JobResultPayload) :
    (CountsCharacters job result ↔
      NearlyASCII (promptText job) ∧ NearlyASCII result.content.toList) ∧
    (CountsCharacters job result → CountsCharacters job' result' →
      (promptText job).length = (promptText job').length →
      result.content.toList.length = result'.content.toList.length →
        MeteredAlike job job' result result') ∧
    (MeteredAlike job job' result result' ↔
      (utf8Bytes (promptText job) + 1) / 2 = (utf8Bytes (promptText job') + 1) / 2 ∧
        (utf8Bytes result.content.toList + 1) / 2 =
          (utf8Bytes result'.content.toList + 1) / 2) := by
  refine ⟨countsCharacters_iff, fun h h' hprompt hcompletion => ?_, meteredAlike_iff⟩
  obtain ⟨hp, hc⟩ := countsCharacters_iff.mp h
  obtain ⟨hp', hc'⟩ := countsCharacters_iff.mp h'
  rw [← halves_eq_iff] at hp hc hp' hc'
  rw [hprompt] at hp
  rw [hcompletion] at hc
  exact meteredAlike_iff.mpr ⟨hp.trans hp'.symm, hc.trans hc'.symm⟩

/-! ## Four letters -/

/-- The sample request with another content. -/
def jobSaying (content : String) : ChatJob :=
  { sampleJob with request := ⟨"llama", [⟨"user", content⟩], 50, none, false⟩ }

/-- A completion without a report. -/
def completing (content : String) : JobResultPayload :=
  ⟨"job_a", content, "stop", none, 900, "", ""⟩

/-- Four ASCII letters are metered by their characters. -/
theorem ascii_counts_characters : CountsCharacters (jobSaying "agus") (completing "ok") :=
  (metering_counts_characters (jobSaying "agus") (jobSaying "agus") (completing "ok")
    (completing "ok")).1.mpr ⟨.inl (by decide +kernel), .inl (by decide +kernel)⟩

/-- Four Turkish letters are two tokens, where four ASCII letters are one. -/
theorem turkish_counts_twice :
    (promptText (jobSaying "ğüşı")).length = (promptText (jobSaying "agus")).length ∧
      (jobSaying "ğüşı").inputTokens = 2 ∧ (jobSaying "agus").inputTokens = 1 ∧
      ¬ CountsCharacters (jobSaying "ğüşı") (completing "ok") ∧
      ¬ MeteredAlike (jobSaying "ğüşı") (jobSaying "agus") (completing "ok") (completing "ok") := by
  have hturkish : (jobSaying "ğüşı").inputTokens = 2 := by decide +kernel
  have hascii : (jobSaying "agus").inputTokens = 1 := by decide +kernel
  have hfour : (promptText (jobSaying "ğüşı")).length = 4 := by decide +kernel
  refine ⟨by decide +kernel, hturkish, hascii, fun h => ?_, fun h => ?_⟩
  · have hestimate := h.estimate
    rw [hturkish, hfour] at hestimate
    norm_num at hestimate
  · have hestimate := h.estimate
    rw [hturkish, hascii] at hestimate
    exact absurd hestimate (by decide)

end Nuvonode.Contract
