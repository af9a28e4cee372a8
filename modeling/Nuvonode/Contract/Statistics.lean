/-
  Contract/Statistics.lean --- what the statistics of a provider say of its jobs.

  The counters and the mean latency are those of the provider's events.  The two derived
  columns are only written with a new row: the `UPDATE` around the upsert does not see
  the row that the upsert has changed.
-/
import Nuvonode.Contract.Metering
import Nuvonode.Contract.Settlement
import Nuvonode.Foundation.RunningMean
import Nuvonode.Service.Statistics

set_option autoImplicit false

namespace Nuvonode.Contract

open Nuvonode.Foundation Nuvonode.Database Nuvonode.Repository Nuvonode.Service Nuvonode.Handler
open Nuvonode.Ws

/-! ## Settled rows -/

section Rows

variable {providerID : UUID} {latencyMS : ℤ} {old row : StatsRow}

/-- A stored value is the rounded one. -/
theorem eq_of_numericStore {precision scale : ℕ} {q r : ℚ}
    (h : numericStore precision scale q = some r) :
    r = numericRound scale q ∧ |numericRound scale q| < 10 ^ (precision - scale) := by
  unfold numericStore at h
  split at h
  · rename_i hfits
    exact ⟨(Option.some.inj h).symm, hfits⟩
  · cases h

/-- The row that a first settlement inserts. -/
theorem settled_none (h : StatsRow.settled latencyMS providerID none = some row) :
    |(latencyMS : ℚ)| < 10 ^ 10 ∧
      row = ⟨providerID, 1, 1, 0, 0, some latencyMS, 1,
        numericRound 4 (min 100 (70 + max 0 (20 - numericDiv 0 latencyMS 500)))⟩ := by
  obtain ⟨avg, havg, h⟩ := Option.bind_eq_some_iff.mp h
  obtain ⟨trust, htrust, h⟩ := Option.bind_eq_some_iff.mp h
  obtain ⟨rfl, hfits⟩ := eq_of_numericStore havg
  obtain ⟨rfl, -⟩ := eq_of_numericStore htrust
  rw [numericRound_intCast] at hfits h
  cases h
  exact ⟨hfits, rfl⟩

/-- The row that a settlement updates. -/
theorem settled_some (h : StatsRow.settled latencyMS providerID (some old) = some row) :
    row = { old with
      totalJobs := old.totalJobs + 1
      succeededJobs := old.succeededJobs + 1
      avgLatencyMS := some (numericRound 2 (StatsRow.nextMean latencyMS old)) } := by
  obtain ⟨avg, havg, h⟩ := Option.bind_eq_some_iff.mp h
  obtain ⟨rfl, -⟩ := eq_of_numericStore havg
  cases h
  rfl

/-- A latency fits its column, so its quotient by 500 is computed to three decimals at least. -/
theorem three_le_numericDivScale (h : |(latencyMS : ℚ)| < 10 ^ 10) :
    3 ≤ numericDivScale 0 latencyMS 500 := by
  have hlatency : numericWeight latencyMS ≤ 2 := by
    rw [numericWeight]
    rcases (abs_nonneg (latencyMS : ℚ)).eq_or_lt with hzero | hpos
    · rw [← hzero, Int.log_zero_right]
      decide
    · have hlog : Int.log 10000 |(latencyMS : ℚ)| < 3 :=
        (Int.lt_zpow_iff_log_lt (by decide) hpos).mp (h.trans (by norm_num))
      omega
  have hfive : numericWeight 500 = 0 := by
    have hlow : 0 ≤ Int.log 10000 |(500 : ℚ)| :=
      (Int.zpow_le_iff_le_log (by decide) (by norm_num)).mp (by norm_num)
    have hhigh : Int.log 10000 |(500 : ℚ)| < 1 :=
      (Int.lt_zpow_iff_log_lt (by decide) (by norm_num)).mp (by norm_num)
    rw [numericWeight]
    omega
  unfold numericDivScale
  rw [hfive]
  simp only
  split <;> omega

theorem numericDiv_latency (h : |(latencyMS : ℚ)| < 10 ^ 10) :
    numericDiv 0 latencyMS 500 = latencyMS / 500 := by
  obtain ⟨more, hscale⟩ := Nat.exists_eq_add_of_le (three_le_numericDivScale h)
  have hint : (latencyMS : ℚ) / 500 * 10 ^ numericDivScale 0 latencyMS 500 =
      ((latencyMS * 2 * 10 ^ more : ℤ) : ℚ) := by
    rw [hscale, pow_add]
    push_cast
    ring
  rw [numericDiv]
  exact numericRound_eq_self hint

end Rows

/-! ## The derived columns -/

/-- `succeeded_jobs / total_jobs`, to the four decimals of its column. -/
def successRate (succeeded total : ℕ) : ℚ := numericRound 4 (succeeded / total)

/-- The trust score of a success rate and a mean latency, to the four decimals of its column. -/
def trustScore (rate : ℚ) (avgLatencyMS : Option ℚ) : ℚ :=
  numericRound 4 (max 0 (min 100 (rate * 70 + max 0 (20 - avgLatencyMS.getD 2500 / 500))))

/-- The derived columns of a row are those of its counters. -/
structure Derived (row : StatsRow) : Prop where
  rate : row.successRate = successRate row.succeededJobs row.totalJobs
  trust : row.trustScore = trustScore row.successRate row.avgLatencyMS

/-- An event that inserts a settled row, or that leaves the rounded rate and score of the
counters as they are. -/
def KeepsScores : Option StatsRow → StatsEvent → Prop
  | none, .settled _ => True
  | none, .failed _ => False
  | some old, .settled latencyMS =>
      successRate (old.succeededJobs + 1) (old.totalJobs + 1) =
          successRate old.succeededJobs old.totalJobs ∧
        trustScore (successRate (old.succeededJobs + 1) (old.totalJobs + 1))
            (some (numericRound 2 (StatsRow.nextMean latencyMS old))) =
          trustScore (successRate old.succeededJobs old.totalJobs) old.avgLatencyMS
  | some old, .failed _ =>
      successRate old.succeededJobs (old.totalJobs + 1) =
          successRate old.succeededJobs old.totalJobs ∧
        trustScore (successRate old.succeededJobs (old.totalJobs + 1)) old.avgLatencyMS =
          trustScore (successRate old.succeededJobs old.totalJobs) old.avgLatencyMS

instance : (stats : Option StatsRow) → (event : StatsEvent) → Decidable (KeepsScores stats event)
  | none, .settled _ => isTrue trivial
  | none, .failed _ => isFalse id
  | some _, .settled _ => inferInstanceAs (Decidable (_ ∧ _))
  | some _, .failed _ => inferInstanceAs (Decidable (_ ∧ _))

section Scores

variable {providerID : UUID} {row old : StatsRow}

/-- A first settlement inserts the scores of its counters. -/
theorem derived_of_settled_none {latencyMS : ℤ}
    (h : StatsRow.settled latencyMS providerID none = some row) : Derived row := by
  obtain ⟨hfits, rfl⟩ := settled_none h
  have hrate : successRate 1 1 = 1 := by
    have hone : ((1 : ℕ) : ℚ) / ((1 : ℕ) : ℚ) = ((1 : ℤ) : ℚ) := by norm_num
    rw [successRate, hone, numericRound_intCast, Int.cast_one]
  have hnonneg : 0 ≤ min 100 (70 + max 0 (20 - (latencyMS : ℚ) / 500)) :=
    le_min (by norm_num) (by linarith [le_max_left 0 (20 - (latencyMS : ℚ) / 500)])
  refine ⟨hrate.symm, ?_⟩
  rw [numericDiv_latency hfits, trustScore, one_mul, Option.getD_some, max_eq_right hnonneg]

/-- A first failure inserts no score, where an unknown latency gives fifteen. -/
theorem not_derived_of_failed_none {status : JobStatus} :
    ¬ Derived (StatsRow.failed status providerID none) := by
  intro h
  have hscore : trustScore 0 none = 15 := by
    have hvalue : max 0 (min 100 ((0 : ℚ) * 70 + max 0 (20 - (none : Option ℚ).getD 2500 / 500))) =
        ((15 : ℤ) : ℚ) := by norm_num
    rw [trustScore, hvalue, numericRound_intCast]
    norm_num
  have htrust : (0 : ℚ) = trustScore 0 none := h.trust
  rw [hscore] at htrust
  norm_num at htrust

/-- A row whose derived columns stay is derived from new counters as it was from the old ones. -/
theorem derived_iff_of_kept {succeeded total : ℕ} {avg : Option ℚ} (hold : Derived old)
    (hrate : row.successRate = old.successRate) (htrust : row.trustScore = old.trustScore)
    (hsucceeded : row.succeededJobs = succeeded) (htotal : row.totalJobs = total)
    (havg : row.avgLatencyMS = avg) :
    Derived row ↔
      successRate succeeded total = successRate old.succeededJobs old.totalJobs ∧
        trustScore (successRate succeeded total) avg =
          trustScore (successRate old.succeededJobs old.totalJobs) old.avgLatencyMS := by
  constructor
  · intro h
    have hsame : successRate succeeded total = successRate old.succeededJobs old.totalJobs := by
      rw [← hsucceeded, ← htotal, ← h.rate, hrate, hold.rate]
    refine ⟨hsame, ?_⟩
    rw [hsame, ← hold.rate, ← hold.trust, ← htrust, h.trust, hrate, havg]
  · rintro ⟨hsame, hscore⟩
    refine ⟨?_, ?_⟩
    · rw [hrate, hold.rate, hsucceeded, htotal, hsame]
    · rw [htrust, hold.trust, hold.rate, ← hscore, hrate, hold.rate, hsame, havg]

/-- **When an event keeps the scores those of the counters.** -/
theorem derived_iff_keepsScores {stats : Option StatsRow} {event : StatsEvent}
    (hstats : ∀ old ∈ stats, Derived old) (h : event.apply providerID stats = some row) :
    Derived row ↔ KeepsScores stats event := by
  cases stats with
  | none =>
      cases event with
      | settled latencyMS => exact iff_of_true (derived_of_settled_none h) trivial
      | failed status =>
          cases h
          exact iff_of_false not_derived_of_failed_none id
  | some old =>
      have hold : Derived old := hstats old rfl
      cases event with
      | settled latencyMS =>
          have hsettled : StatsRow.settled latencyMS providerID (some old) = some row := h
          obtain rfl := settled_some hsettled
          exact derived_iff_of_kept hold rfl rfl rfl rfl rfl
      | failed status =>
          cases h
          exact derived_iff_of_kept hold rfl rfl rfl rfl rfl

/-- **Derived scores follow the counters exactly as long as no event changes them.**  In a run
where every event of the provider keeps them, they are those of the counters throughout; and an
event that finds them so leaves them so exactly when it keeps them. -/
theorem scores_follow_counters_iff (P : Platform) (cfg : Config) (providerID : UUID) :
    (∀ es m, (serverMachine P cfg (Unrated providerID)).Reaches
        (OnStats providerID fun stats event _ => KeepsScores stats event) es m →
      ∀ row ∈ m.committed.stats providerID, Derived row) ∧
    ∀ stats event row, (∀ old ∈ stats, Derived old) →
      StatsEvent.apply providerID stats event = some row →
        (Derived row ↔ KeepsScores stats event) := by
  refine ⟨fun es m hreach => ?_, fun stats event row hstats h => derived_iff_keepsScores hstats h⟩
  refine stats_invariant (fun stats => ∀ row ∈ stats, Derived row) hreach ?_ ?_
  · exact fun row hrow => absurd hrow (by simp)
  · intro stats event row hstats happly hkeeps new hnew
    cases hnew
    exact (derived_iff_keepsScores hstats happly).mpr hkeeps

end Scores

/-! ## The events of a sample provider -/

/-- The market with a second job of the provider. -/
def twoJobsDB : DB :=
  { marketDB with
    inferenceJobs := Table.insert marketDB.inferenceJobs (openJobRow 8 "job_b" "req_b") }

/-- Another job fails. -/
def sampleFailure : Operation := .markFailed 8 .failed "provider_failed" "out of memory"

theorem unrated_fourJobsDB : Unrated 5 fourJobsDB := ⟨rfl, rfl⟩

/-- Three settlements with one latency leave the scores those of the counters. -/
theorem sample_scores_follow_counters :
    ∃ es m, (serverMachine samplePlatform sampleConfig (Unrated 5)).Reaches
        (OnStats 5 fun stats event _ => KeepsScores stats event) es m ∧
      m.committed.stats 5 = some ⟨5, 3, 3, 0, 0, some 900, 1, 441 / 5⟩ ∧
      ∀ row ∈ m.committed.stats 5, Derived row := by
  have hallowed : AllowedInTurn samplePlatform sampleConfig 5
      (fun stats event _ => KeepsScores stats event) fourJobsDB
      [settlementOf 7 900, settlementOf 9 900, settlementOf 10 900] := by decide +kernel
  have hstats : (afterAll samplePlatform sampleConfig fourJobsDB
      [settlementOf 7 900, settlementOf 9 900, settlementOf 10 900]).stats 5 =
        some ⟨5, 3, 3, 0, 0, some 900, 1, 441 / 5⟩ := by decide +kernel
  obtain ⟨es, hreach⟩ := reaches_of_operations unrated_fourJobsDB hallowed
  exact ⟨es, _, hreach.forget, hstats,
    (scores_follow_counters_iff samplePlatform sampleConfig 5).1 es _ hreach.forget⟩

def settledDB : DB := afterwards (finalizeUsage sampleSettlement) twoJobsDB

def failedDB (db : DB) : DB :=
  afterwards (markJobFailed 8 .failed "provider_failed" "out of memory") db

theorem unrated_twoJobsDB : Unrated 5 twoJobsDB := ⟨rfl, rfl⟩

/-- After a success and a failure the row still has the scores of the success, and after a
failure alone it has none, where those of its counters are not zero. -/
theorem success_then_failure_keeps_scores :
    (∃ es m, (serverMachine samplePlatform sampleConfig (Unrated 5)).Reaches Machine.anyStep es m ∧
      m.committed.stats 5 = some ⟨5, 2, 1, 1, 0, some 900, 1, 441 / 5⟩ ∧
      ¬ ∀ row ∈ m.committed.stats 5, Derived row) ∧
    ∃ es m, (serverMachine samplePlatform sampleConfig (Unrated 5)).Reaches Machine.anyStep es m ∧
      m.committed.stats 5 = some ⟨5, 1, 0, 1, 0, none, 0, 0⟩ ∧
      ¬ ∀ row ∈ m.committed.stats 5, Derived row := by
  have hsettle : (program samplePlatform sampleConfig (.finalize sampleSettlement)).exec
      twoJobsDB = .ok ((), settledDB) := by decide +kernel
  have hfail : (program samplePlatform sampleConfig sampleFailure).exec settledDB =
      .ok ((), failedDB settledDB) := by decide +kernel
  have hfailFirst : (program samplePlatform sampleConfig sampleFailure).exec twoJobsDB =
      .ok ((), failedDB twoJobsDB) := by decide +kernel
  constructor
  · have hstats : (failedDB settledDB).stats 5 = some ⟨5, 2, 1, 1, 0, some 900, 1, 441 / 5⟩ := by
      decide +kernel
    obtain ⟨es, -, hreach⟩ := reaches_of_exec unrated_twoJobsDB _ hsettle
    obtain ⟨n, hsteps⟩ := Server.steps_of_exec (m := idleServer settledDB) (fun _ => rfl) 0 _ hfail
    refine ⟨_, _, hreach.steps hsteps, hstats, fun hderived => ?_⟩
    exact absurd (hderived _ hstats).rate (by decide +kernel)
  · have hstats : (failedDB twoJobsDB).stats 5 = some ⟨5, 1, 0, 1, 0, none, 0, 0⟩ := by
      decide +kernel
    obtain ⟨es, -, hreach⟩ := reaches_of_exec unrated_twoJobsDB _ hfailFirst
    refine ⟨_, _, hreach, hstats, fun hderived => ?_⟩
    exact absurd (hderived _ hstats).trust (by decide +kernel)

/-! ## Counters and mean -/

/-- The latencies that the events of a provider report. -/
def latencies (log : List StatsEvent) : List ℚ :=
  List.map (fun latencyMS : ℤ => (latencyMS : ℚ)) (log.filterMap StatsEvent.latency)

/-- The quotient that a settlement stores, before it is rounded. -/
def exactMean (stats : Option StatsRow) (latencyMS : ℤ) : ℚ :=
  match stats.bind StatsRow.avgLatencyMS with
  | none => latencyMS
  | some avg =>
      let succeeded : ℚ := (stats.map StatsRow.succeededJobs).getD 0
      (avg * succeeded + latencyMS) / (succeeded + 1)

/-- A settlement stores its quotient up to `e`. -/
def RoundsWithin (e : ℚ) (stats : Option StatsRow) (event : StatsEvent) (row : StatsRow) : Prop :=
  ∀ latencyMS, event.latency = some latencyMS → ∀ avg ∈ row.avgLatencyMS,
    |avg - exactMean stats latencyMS| ≤ e

instance (e : ℚ) (stats : Option StatsRow) (event : StatsEvent) (row : StatsRow) :
    Decidable (RoundsWithin e stats event row) :=
  inferInstanceAs (Decidable (∀ latencyMS ∈ event.latency, ∀ avg ∈ row.avgLatencyMS,
    |avg - exactMean stats latencyMS| ≤ e))

/-- The row of a provider counts its events, and keeps the mean of their latencies. -/
structure Counted (e : ℚ) (log : List StatsEvent) (stats : Option StatsRow) : Prop where
  total : (stats.map StatsRow.totalJobs).getD 0 = log.length
  succeeded : (stats.map StatsRow.succeededJobs).getD 0 = (latencies log).length
  sum : ∀ row ∈ stats, row.totalJobs = row.succeededJobs + row.failedJobs + row.timeoutJobs
  mean : KeptMean e (latencies log) (stats.bind StatsRow.avgLatencyMS)

section Counters

variable {providerID : UUID} {e : ℚ} {log : List StatsEvent} {stats : Option StatsRow}
  {event : StatsEvent} {row : StatsRow}

theorem latencies_snoc {latencyMS : ℤ} :
    latencies (log ++ [.settled latencyMS]) = latencies log ++ [(latencyMS : ℚ)] := by
  simp [latencies, StatsEvent.latency]

theorem latencies_snoc_failed {status : JobStatus} :
    latencies (log ++ [.failed status]) = latencies log := by
  simp [latencies, StatsEvent.latency]

/-- The mean of one more latency is kept. -/
theorem keptMean_snoc {latencyMS : ℤ} {avg : ℚ} (h : Counted e log stats)
    (hround : |avg - exactMean stats latencyMS| ≤ e) :
    KeptMean e (latencies (log ++ [.settled latencyMS])) (some avg) := by
  have hmean := h.mean
  rw [latencies_snoc]
  unfold exactMean at hround
  cases hold : stats.bind StatsRow.avgLatencyMS with
  | none =>
      rw [hold] at hmean hround
      rw [hmean.eq_none_iff.mp rfl]
      exact .first hround
  | some old =>
      rw [hold] at hmean hround
      simp only [h.succeeded] at hround
      exact .next hmean hround

/-- An event is one more job: a success where it has a latency, and a failure or a timeout
where it has none. -/
theorem apply_counts (happly : event.apply providerID stats = some row) :
    row.totalJobs = (stats.map StatsRow.totalJobs).getD 0 + 1 ∧
      row.succeededJobs =
        (stats.map StatsRow.succeededJobs).getD 0 + event.latency.toList.length ∧
      ((∀ old ∈ stats, old.totalJobs = old.succeededJobs + old.failedJobs + old.timeoutJobs) →
        row.totalJobs = row.succeededJobs + row.failedJobs + row.timeoutJobs) := by
  cases event with
  | settled latencyMS =>
      have hsettled : StatsRow.settled latencyMS providerID stats = some row := happly
      cases stats with
      | none =>
          obtain ⟨-, rfl⟩ := settled_none hsettled
          exact ⟨rfl, rfl, fun _ => rfl⟩
      | some old =>
          obtain rfl := settled_some hsettled
          refine ⟨rfl, rfl, fun hsum => ?_⟩
          have hold := hsum old rfl
          simp only
          omega
  | failed status =>
      cases happly
      cases stats with
      | none =>
          refine ⟨rfl, rfl, fun _ => ?_⟩
          simp only [StatsRow.failed]
          split <;> rfl
      | some old =>
          refine ⟨rfl, rfl, fun hsum => ?_⟩
          have hold := hsum old rfl
          simp only [StatsRow.failed]
          split <;> omega

theorem length_latencies_snoc :
    (latencies (log ++ [event])).length = (latencies log).length + event.latency.toList.length := by
  cases event with
  | settled latencyMS =>
      rw [latencies_snoc, List.length_append]
      rfl
  | failed status =>
      rw [latencies_snoc_failed]
      rfl

/-- One event is counted, with its latency. -/
theorem Counted.step (h : Counted e log stats) (happly : event.apply providerID stats = some row)
    (hround : RoundsWithin e stats event row) : Counted e (log ++ [event]) (some row) := by
  obtain ⟨htotal, hsucceeded, hsum⟩ := apply_counts happly
  refine ⟨?_, ?_, fun new hnew => ?_, ?_⟩
  · rw [List.length_append, ← h.total]
    exact htotal
  · rw [length_latencies_snoc, ← h.succeeded]
    exact hsucceeded
  · cases hnew
    exact hsum h.sum
  · cases event with
    | settled latencyMS =>
        have hsettled : StatsRow.settled latencyMS providerID stats = some row := happly
        cases stats with
        | none =>
            obtain ⟨-, rfl⟩ := settled_none hsettled
            exact keptMean_snoc h (hround latencyMS rfl _ rfl)
        | some old =>
            obtain rfl := settled_some hsettled
            exact keptMean_snoc h (hround latencyMS rfl _ rfl)
    | failed status =>
        cases happly
        rw [latencies_snoc_failed]
        cases stats with
        | none => exact h.mean
        | some old => exact h.mean

theorem counted_of_statsRun (h : StatsRun providerID (RoundsWithin e) log stats) :
    Counted e log stats := by
  induction h with
  | start => exact ⟨rfl, rfl, fun row hrow => absurd hrow (by simp), .none⟩
  | step _ happly hround ih => exact ih.step happly hround

/-- **The counters count, and the mean is near the mean.**  In a run that records the events of
a provider, and stores no mean further than `e` from its quotient. -/
theorem counters_and_mean (P : Platform) (cfg : Config) (providerID : UUID) (e : ℚ)
    {es : List (ServerEvent Operation)} {m : Server store Err Operation Unit}
    {log : List StatsEvent}
    (h : ((serverMachine P cfg (Unrated providerID)).recorded (shownStats providerID)).Reaches
      (Machine.onState (OnStats providerID (RoundsWithin e))) es (m, log)) :
    (m.committed.stats providerID = none ↔ log = []) ∧
      usageRecordsOf providerID m.committed = (latencies log).length ∧
      ∀ row ∈ m.committed.stats providerID,
        row.totalJobs = row.succeededJobs + row.failedJobs + row.timeoutJobs ∧
        row.totalJobs = log.length ∧
        row.succeededJobs = usageRecordsOf providerID m.committed ∧
        (row.avgLatencyMS = none ↔ row.succeededJobs = 0) ∧
        ∀ avg ∈ row.avgLatencyMS,
          |avg - (latencies log).sum / row.succeededJobs| ≤ e * (row.succeededJobs + 1) / 2 ∧
          (e = 0 → avg = (latencies log).sum / row.succeededJobs) := by
  obtain ⟨hrun, husage⟩ := statsRun_of_reaches h
  have hcounted := counted_of_statsRun hrun
  have hlength : (latencies log).length = (log.filterMap StatsEvent.latency).length := by
    rw [latencies, List.length_map]
  have hrecords : usageRecordsOf providerID m.committed = (latencies log).length :=
    husage.trans hlength.symm
  refine ⟨hrun.eq_none_iff, hrecords, fun row hrow => ?_⟩
  have hstats : m.committed.stats providerID = some row := hrow
  rw [hstats] at hcounted
  have hsucceeded : row.succeededJobs = (latencies log).length := hcounted.succeeded
  have hmean : KeptMean e (latencies log) row.avgLatencyMS := hcounted.mean
  refine ⟨hcounted.sum row rfl, hcounted.total, hsucceeded.trans hrecords.symm, ?_, ?_⟩
  · rw [hmean.eq_none_iff, hsucceeded, List.length_eq_zero_iff]
  · intro avg havg
    rw [Option.mem_def.mp havg] at hmean
    rw [hsucceeded]
    refine ⟨hmean.drift, fun hzero => ?_⟩
    rw [hzero] at hmean
    exact hmean.exact

/-- Three settlements and a failure: the column keeps two decimals of the mean, which is within
twice the rounding of it. -/
theorem sample_provider_is_counted :
    ∃ es m log, ((serverMachine samplePlatform sampleConfig (Unrated 5)).recorded
        (shownStats 5)).Reaches (Machine.onState (OnStats 5 (RoundsWithin (1 / 200)))) es
        (m, log) ∧
      log = [.settled 900, .failed .failed, .settled 901, .settled 901] ∧
      usageRecordsOf 5 m.committed = 3 ∧
      m.committed.stats 5 = some ⟨5, 4, 3, 1, 0, some (90067 / 100), 1, 441 / 5⟩ ∧
      |(90067 / 100 : ℚ) - (latencies log).sum / 3| ≤ 1 / 100 := by
  have hallowed : AllowedInTurn samplePlatform sampleConfig 5 (RoundsWithin (1 / 200)) fourJobsDB
      [settlementOf 7 900, sampleFailure, settlementOf 9 901, settlementOf 10 901] := by
    decide +kernel
  have hlog : statsEvents samplePlatform sampleConfig 5 fourJobsDB
      [settlementOf 7 900, sampleFailure, settlementOf 9 901, settlementOf 10 901] =
        [.settled 900, .failed .failed, .settled 901, .settled 901] := by decide +kernel
  have hstats : (afterAll samplePlatform sampleConfig fourJobsDB
      [settlementOf 7 900, sampleFailure, settlementOf 9 901, settlementOf 10 901]).stats 5 =
        some ⟨5, 4, 3, 1, 0, some (90067 / 100), 1, 441 / 5⟩ := by decide +kernel
  obtain ⟨es, hreach⟩ := reaches_of_operations unrated_fourJobsDB hallowed
  rw [hlog] at hreach
  obtain ⟨-, hrecords, hrow⟩ := counters_and_mean samplePlatform sampleConfig 5 (1 / 200) hreach
  obtain ⟨-, -, -, -, hmean⟩ := hrow _ hstats
  have hdrift := (hmean _ rfl).1
  refine ⟨es, _, _, hreach, rfl, hrecords, hstats, ?_⟩
  norm_num at hdrift ⊢
  exact hdrift

end Counters

/-! ## Reported latencies -/

/-- The mean of a provider is not negative, and its score no more than a mean of zero gives. -/
structure Bounded (row : StatsRow) : Prop where
  mean : ∀ avg ∈ row.avgLatencyMS, 0 ≤ avg
  trust : row.trustScore ≤ 70 * row.successRate + 20

/-- A latency that leaves a mean which two decimals do not show as negative. -/
def NonnegativeMean (stats : Option StatsRow) (latencyMS : ℤ) : Prop :=
  match stats.bind StatsRow.avgLatencyMS with
  | none => 0 ≤ latencyMS
  | some avg =>
      let succeeded : ℚ := (stats.map StatsRow.succeededJobs).getD 0
      ¬ numericDiv 2 (avg * succeeded + latencyMS) (succeeded + 1) ≤ -(1 / 200)

/-- A failure, or a settlement with such a latency. -/
def ReportsNonnegative (stats : Option StatsRow) (event : StatsEvent) : Prop :=
  ∀ latencyMS ∈ event.latency, NonnegativeMean stats latencyMS

instance (stats : Option StatsRow) (latencyMS : ℤ) : Decidable (NonnegativeMean stats latencyMS) :=
  match h : stats.bind StatsRow.avgLatencyMS with
  | none => decidable_of_iff (0 ≤ latencyMS) (by rw [NonnegativeMean, h])
  | some avg =>
      decidable_of_iff
        (¬ numericDiv 2 (avg * ((stats.map StatsRow.succeededJobs).getD 0 : ℕ) + latencyMS)
            (((stats.map StatsRow.succeededJobs).getD 0 : ℕ) + 1) ≤ -(1 / 200))
        (by rw [NonnegativeMean, h])

instance (stats : Option StatsRow) (event : StatsEvent) :
    Decidable (ReportsNonnegative stats event) :=
  inferInstanceAs (Decidable (∀ latencyMS ∈ event.latency, NonnegativeMean stats latencyMS))

section Reports

variable {providerID : UUID} {latencyMS : ℤ} {stats : Option StatsRow} {event : StatsEvent}
  {old row : StatsRow}

/-- Every latency that is not negative itself is one. -/
theorem nonnegativeMean_of_nonneg (hstats : ∀ old ∈ stats, Bounded old) (h : 0 ≤ latencyMS) :
    NonnegativeMean stats latencyMS := by
  unfold NonnegativeMean
  split
  · exact h
  · rename_i avg havg
    obtain ⟨old, hold, hmean⟩ := Option.bind_eq_some_iff.mp havg
    have havg₀ : 0 ≤ avg := (hstats old hold).mean avg hmean
    have hlatency : (0 : ℚ) ≤ latencyMS := by exact_mod_cast h
    have hquotient : ((0 : ℤ) : ℚ) ≤
        (avg * ((stats.map StatsRow.succeededJobs).getD 0 : ℕ) + latencyMS) /
          (((stats.map StatsRow.succeededJobs).getD 0 : ℕ) + 1) := by
      push_cast
      positivity
    exact not_le.mpr (lt_of_lt_of_le (by norm_num) (le_numericRound hquotient))

/-- The bound of a first settlement is that of its latency. -/
theorem bounded_settled_none (h : StatsRow.settled latencyMS providerID none = some row) :
    Bounded row ↔ 0 ≤ latencyMS := by
  obtain ⟨hfits, rfl⟩ := settled_none h
  refine ⟨fun hbounded => by exact_mod_cast hbounded.mean latencyMS rfl, fun hlatency => ?_⟩
  have hlatency' : (0 : ℚ) ≤ latencyMS := by exact_mod_cast hlatency
  have hscore : min 100 (70 + max 0 (20 - numericDiv 0 latencyMS 500)) ≤ ((90 : ℤ) : ℚ) := by
    have hbonus : max 0 (20 - (latencyMS : ℚ) / 500) ≤ 20 := max_le (by norm_num) (by linarith)
    rw [numericDiv_latency hfits]
    exact (min_le_right _ _).trans (by push_cast; linarith)
  have hstored : numericRound 4 _ ≤ ((90 : ℤ) : ℚ) := numericRound_le hscore
  refine ⟨fun avg havg => ?_, ?_⟩
  · cases havg
    exact hlatency'
  · push_cast at hstored
    linarith

/-- The bound of a later settlement is that of the new mean. -/
theorem bounded_settled_some (hold : Bounded old)
    (h : StatsRow.settled latencyMS providerID (some old) = some row) :
    Bounded row ↔ NonnegativeMean (some old) latencyMS := by
  obtain rfl := settled_some h
  have hmean : 0 ≤ numericRound 2 (StatsRow.nextMean latencyMS old) ↔
      NonnegativeMean (some old) latencyMS := by
    unfold StatsRow.nextMean NonnegativeMean
    simp only [Option.bind_some]
    cases old.avgLatencyMS with
    | none =>
        simp only
        rw [numericRound_intCast]
        exact Int.cast_nonneg_iff
    | some avg =>
        simp only
        rw [numericRound_nonneg_iff, not_le]
        simp only [Option.map_some, Option.getD_some]
        constructor <;> intro hbound <;> linarith
  rw [← hmean]
  refine ⟨fun hbounded => hbounded.mean _ rfl, fun hnonneg => ⟨fun avg havg => ?_, hold.trust⟩⟩
  cases havg
  exact hnonneg

/-- A failure keeps the bound. -/
theorem bounded_failed {status : JobStatus} (hstats : ∀ old ∈ stats, Bounded old) :
    Bounded (StatsRow.failed status providerID stats) := by
  cases stats with
  | none =>
      refine ⟨fun avg havg => absurd havg (by simp [StatsRow.failed]), ?_⟩
      simp only [StatsRow.failed]
      norm_num
  | some old => exact ⟨(hstats old rfl).mean, (hstats old rfl).trust⟩

theorem bounded_iff_reportsNonnegative (hstats : ∀ old ∈ stats, Bounded old)
    (h : event.apply providerID stats = some row) :
    Bounded row ↔ ReportsNonnegative stats event := by
  cases event with
  | settled latencyMS =>
      have hevent : ReportsNonnegative stats (.settled latencyMS) ↔
          NonnegativeMean stats latencyMS :=
        ⟨fun hreports => hreports latencyMS rfl, fun hmean other hother => by
          cases hother
          exact hmean⟩
      have hsettled : StatsRow.settled latencyMS providerID stats = some row := h
      rw [hevent]
      cases stats with
      | none => exact bounded_settled_none hsettled
      | some old => exact bounded_settled_some (hstats old rfl) hsettled
  | failed status =>
      cases h
      exact iff_of_true (bounded_failed hstats) fun latencyMS hlatency =>
        absurd hlatency (by simp [StatsEvent.latency])

/-- **Trust is bounded exactly as long as no report makes the mean negative.**  In a run where
no settlement of the provider does, its mean is not negative and its score at most what a mean
of zero gives; a latency that is not negative never does; and an event that finds the row within
the bounds leaves it there exactly when it does not. -/
theorem trust_is_bounded_iff (P : Platform) (cfg : Config) (providerID : UUID) :
    (∀ es m, (serverMachine P cfg (Unrated providerID)).Reaches
        (OnStats providerID fun stats event _ => ReportsNonnegative stats event) es m →
      ∀ row ∈ m.committed.stats providerID, Bounded row) ∧
    ∀ stats, (∀ old ∈ stats, Bounded old) →
      (∀ latencyMS, 0 ≤ latencyMS → NonnegativeMean stats latencyMS) ∧
      ∀ event row, StatsEvent.apply providerID stats event = some row →
        (Bounded row ↔ ReportsNonnegative stats event) := by
  refine ⟨fun es m hreach => ?_, fun stats hstats => ⟨fun latencyMS hlatency => ?_, ?_⟩⟩
  · refine stats_invariant (fun stats => ∀ row ∈ stats, Bounded row) hreach ?_ ?_
    · exact fun row hrow => absurd hrow (by simp)
    · intro stats event row hstats happly hreports new hnew
      cases hnew
      exact (bounded_iff_reportsNonnegative hstats happly).mpr hreports
  · exact nonnegativeMean_of_nonneg hstats hlatency
  · exact fun event row happly => bounded_iff_reportsNonnegative hstats happly

end Reports

/-- Two settlements and a failure leave the score within its bound. -/
theorem sample_trust_is_bounded :
    ∃ es m, (serverMachine samplePlatform sampleConfig (Unrated 5)).Reaches
        (OnStats 5 fun stats event _ => ReportsNonnegative stats event) es m ∧
      m.committed.stats 5 = some ⟨5, 3, 2, 1, 0, some 450, 1, 441 / 5⟩ ∧
      ∀ row ∈ m.committed.stats 5, Bounded row := by
  have hallowed : AllowedInTurn samplePlatform sampleConfig 5
      (fun stats event _ => ReportsNonnegative stats event) fourJobsDB
      [settlementOf 7 900, sampleFailure, settlementOf 9 0] := by decide +kernel
  have hstats : (afterAll samplePlatform sampleConfig fourJobsDB
      [settlementOf 7 900, sampleFailure, settlementOf 9 0]).stats 5 =
        some ⟨5, 3, 2, 1, 0, some 450, 1, 441 / 5⟩ := by decide +kernel
  obtain ⟨es, hreach⟩ := reaches_of_operations unrated_fourJobsDB hallowed
  exact ⟨es, _, hreach.forget, hstats,
    (trust_is_bounded_iff samplePlatform sampleConfig 5).1 es _ hreach.forget⟩

/-- The sample request, by the consumer of the market. -/
def consumerJob : ChatJob := { sampleJob with auth := ⟨1, 20, 21⟩ }

/-- A result that took less than no time. -/
def bogusResult : JobResultPayload :=
  (CompletionFrame.jobResult "job_a" "hi there" "stop" none (-1000)).payload

def bogusSettlement : UsageSettlement := consumerJob.settlement samplePlatform 2 7 bogusResult

def boughtDB : DB := afterwards (finalizeUsage bogusSettlement) twoJobsDB

/-- One such result makes the mean negative, and the score better than that of any latency. -/
theorem negative_latency_buys_trust :
    (finalizeUsage bogusSettlement).exec twoJobsDB = .ok ((), boughtDB) ∧
    ∃ es m, (serverMachine samplePlatform sampleConfig (Unrated 5)).Reaches Machine.anyStep es m ∧
      m.committed.stats 5 = some ⟨5, 1, 1, 0, 0, some (-1000), 1, 92⟩ ∧
      ¬ ∀ row ∈ m.committed.stats 5, Bounded row := by
  have hsettle : (program samplePlatform sampleConfig (.finalize bogusSettlement)).exec
      twoJobsDB = .ok ((), boughtDB) := by decide +kernel
  have hstats : boughtDB.stats 5 = some ⟨5, 1, 1, 0, 0, some (-1000), 1, 92⟩ := by
    decide +kernel
  obtain ⟨es, -, hreach⟩ := reaches_of_exec unrated_twoJobsDB _ hsettle
  refine ⟨hsettle, _, _, hreach, hstats, fun hbounded => ?_⟩
  have htrust := (hbounded _ hstats).trust
  norm_num at htrust

end Nuvonode.Contract
