/-
  Service/Points.lean --- the score of a route in points.

  The points of a route are its shares of the score in exact arithmetic, taken from the
  columns of `provider_stats` and the age of the heartbeat.  The columns are `NUMERIC`, so
  points come in two hundred thousandths, and all the roundings of `RoutingScore` together
  are less than a millionth: routes with different points are scored in their order.
-/
import Mathlib.Tactic.Ring
import Nuvonode.Database.Schema
import Nuvonode.Service.Scoring

set_option autoImplicit false

namespace Nuvonode.Service

open Nuvonode.Foundation Nuvonode.Database

/-! ## Points -/

/-- What the score reads of a row of `provider_stats`, with the defaults for what is missing. -/
def trustColumn (stats : Option StatsRow) : ℚ := (stats.map StatsRow.trustScore).getD 20

def successColumn (stats : Option StatsRow) : ℚ := (stats.map StatsRow.successRate).getD (1 / 2)

def latencyColumn (stats : Option StatsRow) : ℚ := (stats.bind StatsRow.avgLatencyMS).getD 2500

/-- The points for the record of a provider: its shares of the score, in exact arithmetic. -/
def recordPoints (stats : Option StatsRow) : ℚ :=
  trustColumn stats * (35 / 100) + successColumn stats * 100 * (25 / 100) +
    clamp (100 - latencyColumn stats / 50) 0 100 * (20 / 100)

/-- The points for a heartbeat of an age in seconds. -/
def freshnessPoints (age : ℤ) : ℚ := if age ≤ 15 then 10 else if age ≤ 30 then 5 else 0

/-- A row of `provider_stats` that holds what its columns `NUMERIC(8,4)`, `NUMERIC(6,4)` and
`NUMERIC(12,2)` can. -/
structure StoredStats (row : StatsRow) : Prop where
  trustScore : numericStore 8 4 row.trustScore = some row.trustScore
  successRate : numericStore 6 4 row.successRate = some row.successRate
  avgLatencyMS : ∀ avg ∈ row.avgLatencyMS, numericStore 12 2 avg = some avg

section Columns

variable {stats : Option StatsRow}

theorem trustColumn_units (h : ∀ row ∈ stats, StoredStats row) :
    ∃ n : ℤ, trustColumn stats = n / 10 ^ 4 ∧ |trustColumn stats| ≤ 10 ^ 4 := by
  cases stats with
  | none => exact ⟨200000, by norm_num [trustColumn], by norm_num [trustColumn]⟩
  | some row => exact exists_units_of_stored (h row rfl).trustScore

theorem successColumn_units (h : ∀ row ∈ stats, StoredStats row) :
    ∃ n : ℤ, successColumn stats = n / 10 ^ 4 ∧ |successColumn stats| ≤ 10 ^ 2 := by
  cases stats with
  | none => exact ⟨5000, by norm_num [successColumn], by norm_num [successColumn]⟩
  | some row => exact exists_units_of_stored (h row rfl).successRate

theorem latencyColumn_units (h : ∀ row ∈ stats, StoredStats row) :
    ∃ n : ℤ, latencyColumn stats = n / 10 ^ 2 ∧ |latencyColumn stats| ≤ 10 ^ 10 := by
  cases hlatency : stats.bind StatsRow.avgLatencyMS with
  | none =>
      rw [latencyColumn, hlatency]
      exact ⟨250000, by norm_num, by norm_num⟩
  | some avg =>
      obtain ⟨row, hrow, havg⟩ := Option.bind_eq_some_iff.mp hlatency
      rw [latencyColumn, hlatency]
      exact exists_units_of_stored ((h row hrow).avgLatencyMS avg havg)

/-- Points come in two hundred thousandths. -/
theorem recordPoints_units (h : ∀ row ∈ stats, StoredStats row) :
    ∃ n : ℤ, recordPoints stats = n / 200000 := by
  obtain ⟨trust, htrust, -⟩ := trustColumn_units h
  obtain ⟨success, hsuccess, -⟩ := successColumn_units h
  obtain ⟨latency, hlatency, -⟩ := latencyColumn_units h
  obtain ⟨share, hshare⟩ : ∃ n : ℤ,
      clamp (100 - latencyColumn stats / 50) 0 100 * (20 / 100) = n / 200000 := by
    unfold clamp
    split_ifs
    · exact ⟨0, by norm_num⟩
    · exact ⟨4000000, by norm_num⟩
    · exact ⟨4000000 - 8 * latency, by rw [hlatency]; push_cast; ring⟩
  refine ⟨7 * trust + 500 * success + share, ?_⟩
  rw [recordPoints, hshare, htrust, hsuccess]
  push_cast
  ring

theorem freshnessPoints_units (age : ℤ) : ∃ n : ℤ, freshnessPoints age = n / 200000 := by
  unfold freshnessPoints
  split_ifs
  · exact ⟨2000000, by norm_num⟩
  · exact ⟨1000000, by norm_num⟩
  · exact ⟨0, by norm_num⟩

end Columns

/-! ## The error of a score -/

section Errors

variable {c : RouteCandidate} {stats : Option StatsRow}

/-- A candidate that was read from a row. -/
structure ReadsStats (c : RouteCandidate) (stats : Option StatsRow) : Prop where
  trust : valueOr c.trustScore 20 = binary64 (trustColumn stats)
  success : valueOr c.successRate (1 / 2) = binary64 (successColumn stats)
  latency : valueOr c.averageLatencyMS 2500 = binary64 (latencyColumn stats)

theorem clamp_near {x y e : ℚ} (h : |x - y| ≤ e) : |clamp x 0 100 - clamp y 0 100| ≤ e := by
  rw [abs_le] at h ⊢
  unfold clamp
  split_ifs <;> constructor <;> linarith

/-- The error of a weighed part. -/
theorem weigh_near {part exact weight e b : ℚ} (h : |part - exact| ≤ e) (hb : |exact| ≤ b)
    (he : e + b / 2 ^ 53 ≤ b) (hweight : 0 ≤ weight) (hweight' : weight ≤ 1) :
    |weigh part weight - exact * weight| ≤ e + 3 * b / 2 ^ 53 := by
  have hrounded : |binary64 weight| ≤ 1 := by
    rw [abs_of_nonneg (binary64_nonneg hweight)]
    exact binary64_le_two_zpow (k := 0) hweight hweight'
  have hshift : |binary64 weight - weight| ≤ 1 / 2 ^ 53 := by
    refine (abs_binary64_sub_le weight).trans (div_le_div_of_nonneg_right ?_ (by positivity))
    rwa [abs_of_nonneg hweight]
  have hproduct : |part * binary64 weight - exact * weight| ≤ e + b / 2 ^ 53 := by
    have hsplit : part * binary64 weight - exact * weight =
        (part - exact) * binary64 weight + exact * (binary64 weight - weight) := by ring
    rw [hsplit]
    refine (abs_add_le _ _).trans (add_le_add ?_ ?_)
    · rw [abs_mul]
      calc |part - exact| * |binary64 weight| ≤ e * 1 :=
            mul_le_mul h hrounded (abs_nonneg _) ((abs_nonneg _).trans h)
        _ = e := mul_one e
    · rw [abs_mul]
      calc |exact| * |binary64 weight - weight| ≤ b * (1 / 2 ^ 53) :=
            mul_le_mul hb hshift (abs_nonneg _) ((abs_nonneg _).trans hb)
        _ = b / 2 ^ 53 := by ring
  have hexact : |exact * weight| ≤ b := by
    rw [abs_mul, abs_of_nonneg hweight]
    calc |exact| * weight ≤ b * 1 :=
          mul_le_mul hb hweight' hweight ((abs_nonneg _).trans hb)
      _ = b := mul_one b
  have hround := abs_binary64_sub_le_of_near hproduct hexact he
  rw [weigh]
  calc |binary64 (part * binary64 weight) - exact * weight| ≤ e + b / 2 ^ 53 + b / 2 ^ 52 := hround
    _ = e + 3 * b / 2 ^ 53 := by ring

/-- The points of a candidate, and its share for capacity as the score has it. -/
def scorePoints (c : RouteCandidate) (stats : Option StatsRow) : ℚ :=
  recordPoints stats + freshnessPoints c.heartbeatAgeSeconds + weigh (capacityPart c) (10 / 100)

theorem trustPart_near (hreads : ReadsStats c stats) (hstored : ∀ row ∈ stats, StoredStats row) :
    |weigh (trustPart c) (35 / 100) - trustColumn stats * (35 / 100)| ≤ 1 / 10 ^ 10 := by
  obtain ⟨-, -, hbound⟩ := trustColumn_units hstored
  have hread : |trustPart c - trustColumn stats| ≤ 10 ^ 4 / 2 ^ 53 := by
    rw [trustPart, hreads.trust]
    exact (abs_binary64_sub_le _).trans (div_le_div_of_nonneg_right hbound (by positivity))
  refine (weigh_near hread hbound ?_ ?_ ?_).trans ?_ <;> norm_num

theorem successPart_near (hreads : ReadsStats c stats)
    (hstored : ∀ row ∈ stats, StoredStats row) :
    |weigh (successPart c) (25 / 100) - successColumn stats * 100 * (25 / 100)| ≤
      1 / 10 ^ 10 := by
  obtain ⟨-, -, hbound⟩ := successColumn_units hstored
  have hread : |binary64 (successColumn stats) * 100 - successColumn stats * 100| ≤
      10 ^ 4 / 2 ^ 53 := by
    rw [← sub_mul, abs_mul]
    have hrounded := (abs_binary64_sub_le (successColumn stats)).trans
      (div_le_div_of_nonneg_right hbound (by positivity))
    norm_num at hrounded ⊢
    linarith
  have hscaled : |successColumn stats * 100| ≤ 10 ^ 4 := by
    rw [abs_mul]
    norm_num at hbound ⊢
    linarith
  have hpart : |successPart c - successColumn stats * 100| ≤ 3 * 10 ^ 4 / 2 ^ 53 := by
    rw [successPart, hreads.success]
    refine (abs_binary64_sub_le_of_near hread hscaled ?_).trans ?_ <;> norm_num
  refine (weigh_near hpart hscaled ?_ ?_ ?_).trans ?_ <;> norm_num

theorem latencyPart_near (hreads : ReadsStats c stats)
    (hstored : ∀ row ∈ stats, StoredStats row) :
    |weigh (latencyPart c) (20 / 100) -
      clamp (100 - latencyColumn stats / 50) 0 100 * (20 / 100)| ≤ 2 / 10 ^ 7 := by
  obtain ⟨-, -, hbound⟩ := latencyColumn_units hstored
  have hread : |binary64 (latencyColumn stats) / 50 - latencyColumn stats / 50| ≤
      2 * 10 ^ 8 / 2 ^ 53 := by
    rw [← sub_div, abs_div]
    have hrounded := (abs_binary64_sub_le (latencyColumn stats)).trans
      (div_le_div_of_nonneg_right hbound (by positivity))
    norm_num at hrounded ⊢
    linarith
  have hscaled : |latencyColumn stats / 50| ≤ 2 * 10 ^ 8 := by
    rw [abs_div]
    norm_num at hbound ⊢
    linarith
  have hquotient : |binary64 (binary64 (latencyColumn stats) / 50) - latencyColumn stats / 50| ≤
      6 * 10 ^ 8 / 2 ^ 53 := by
    refine (abs_binary64_sub_le_of_near hread hscaled ?_).trans ?_ <;> norm_num
  have hdifference : |100 - binary64 (binary64 (latencyColumn stats) / 50) -
      (100 - latencyColumn stats / 50)| ≤ 6 * 10 ^ 8 / 2 ^ 53 := by
    rwa [sub_sub_sub_cancel_left, abs_sub_comm]
  have hleft : |100 - latencyColumn stats / 50| ≤ 3 * 10 ^ 8 := by
    rw [abs_le] at hscaled ⊢
    constructor <;> norm_num at hscaled ⊢ <;> linarith [hscaled.1, hscaled.2]
  have hpart : |latencyPart c - clamp (100 - latencyColumn stats / 50) 0 100| ≤
      12 * 10 ^ 8 / 2 ^ 53 := by
    rw [latencyPart, hreads.latency]
    refine clamp_near ((abs_binary64_sub_le_of_near hdifference hleft ?_).trans ?_) <;> norm_num
  have hshare : |clamp (100 - latencyColumn stats / 50) 0 100| ≤ 100 := by
    rw [abs_of_nonneg (le_clamp (by norm_num))]
    exact clamp_le (by norm_num)
  refine (weigh_near hpart hshare ?_ ?_ ?_).trans ?_ <;> norm_num

theorem freshnessPart_near :
    |weigh (freshnessPart c) (10 / 100) - freshnessPoints c.heartbeatAgeSeconds| ≤
      1 / 10 ^ 10 := by
  have hshare : |freshnessPart c| ≤ 100 := by
    unfold freshnessPart
    split_ifs <;> norm_num
  have hpoints : freshnessPoints c.heartbeatAgeSeconds = freshnessPart c * (10 / 100) := by
    unfold freshnessPoints freshnessPart
    split_ifs <;> norm_num
  rw [hpoints]
  refine (weigh_near (e := 0) (by simp) hshare ?_ ?_ ?_).trans ?_ <;> norm_num

theorem capacityShare_bounds :
    0 ≤ weigh (capacityPart c) (10 / 100) ∧ weigh (capacityPart c) (10 / 100) ≤ 128 := by
  have hpart : 0 ≤ capacityPart c ∧ capacityPart c ≤ 100 := by
    unfold capacityPart
    split
    · exact ⟨le_clamp (by norm_num), clamp_le (by norm_num)⟩
    · norm_num
  have hweight : (0 : ℚ) ≤ binary64 (10 / 100) := binary64_nonneg (by norm_num)
  have hweight' : binary64 (10 / 100) ≤ 1 :=
    binary64_le_two_zpow (k := 0) (by norm_num) (by norm_num)
  have hproduct : 0 ≤ capacityPart c * binary64 (10 / 100) := mul_nonneg hpart.1 hweight
  have hproduct' : capacityPart c * binary64 (10 / 100) ≤ 2 ^ (7 : ℤ) := by
    have hle := mul_le_mul hpart.2 hweight' hweight (by norm_num : (0 : ℚ) ≤ 100)
    norm_num at hle ⊢
    linarith
  have hround := binary64_le_two_zpow hproduct hproduct'
  exact ⟨binary64_nonneg hproduct, hround.trans (by norm_num)⟩

/-- The error of a sum. -/
theorem sum_near {x y w z e d b : ℚ} (hx : |x - y| ≤ e) (hw : |w - z| ≤ d) (hb : |y + z| ≤ b)
    (he : e + d ≤ b) : |binary64 (x + w) - (y + z)| ≤ e + d + b / 2 ^ 52 := by
  refine abs_binary64_sub_le_of_near ?_ hb he
  rw [add_sub_add_comm]
  exact (abs_add_le _ _).trans (add_le_add hx hw)

/-- The rounded score is within a millionth of the points. -/
theorem routingScore_near (hreads : ReadsStats c stats)
    (hstored : ∀ row ∈ stats, StoredStats row) :
    |routingScore c - scorePoints c stats| ≤ 1 / 10 ^ 6 := by
  have htrust := trustPart_near hreads hstored
  have hsuccess := successPart_near hreads hstored
  have hlatency := latencyPart_near hreads hstored
  have hfreshness := freshnessPart_near (c := c)
  obtain ⟨hcapacity, hcapacity'⟩ := capacityShare_bounds (c := c)
  -- What the exact shares can be.
  obtain ⟨-, -, htrusted⟩ := trustColumn_units hstored
  obtain ⟨-, -, hsucceeds⟩ := successColumn_units hstored
  have hshare : 0 ≤ clamp (100 - latencyColumn stats / 50) 0 100 := le_clamp (by norm_num)
  have hshare' : clamp (100 - latencyColumn stats / 50) 0 100 ≤ 100 := clamp_le (by norm_num)
  have hfresh : 0 ≤ freshnessPoints c.heartbeatAgeSeconds ∧
      freshnessPoints c.heartbeatAgeSeconds ≤ 10 := by
    unfold freshnessPoints
    split_ifs <;> norm_num
  rw [abs_le] at htrusted hsucceeds
  norm_num at htrusted hsucceeds
  -- The partial sums, one rounding after the other.
  have hfirst := sum_near htrust hsuccess
    (by rw [abs_le]; constructor <;> linarith [htrusted.1, htrusted.2, hsucceeds.1, hsucceeds.2] :
      |trustColumn stats * (35 / 100) + successColumn stats * 100 * (25 / 100)| ≤ 10 ^ 4)
    (by norm_num)
  have hsecond := sum_near hfirst hlatency
    (by rw [abs_le]; constructor <;> linarith [htrusted.1, htrusted.2, hsucceeds.1, hsucceeds.2] :
      |_| ≤ (10 : ℚ) ^ 4) (by norm_num)
  have hexact : |weigh (capacityPart c) (10 / 100) - weigh (capacityPart c) (10 / 100)| ≤ 0 := by
    simp
  have hthird := sum_near hsecond hexact
    (by rw [abs_le]; constructor <;> linarith [htrusted.1, htrusted.2, hsucceeds.1, hsucceeds.2] :
      |_| ≤ (10 : ℚ) ^ 4) (by norm_num)
  have hfourth := sum_near hthird hfreshness
    (by rw [abs_le]; constructor <;> linarith [htrusted.1, htrusted.2, hsucceeds.1, hsucceeds.2,
      hfresh.1, hfresh.2] : |_| ≤ (10 : ℚ) ^ 4) (by norm_num)
  have hpoints : scorePoints c stats = trustColumn stats * (35 / 100) +
      successColumn stats * 100 * (25 / 100) +
      clamp (100 - latencyColumn stats / 50) 0 100 * (20 / 100) +
      weigh (capacityPart c) (10 / 100) + freshnessPoints c.heartbeatAgeSeconds := by
    rw [scorePoints, recordPoints]
    ring
  rw [hpoints, routingScore]
  refine hfourth.trans ?_
  norm_num

/-- Points that differ differ by more than the errors of two scores. -/
theorem routingScore_lt {d : RouteCandidate} {other : Option StatsRow}
    (hreads : ReadsStats c stats) (hreads' : ReadsStats d other)
    (hstored : ∀ row ∈ stats, StoredStats row) (hstored' : ∀ row ∈ other, StoredStats row)
    (hqueue : c.queueDepth = d.queueDepth)
    (hless : recordPoints stats + freshnessPoints c.heartbeatAgeSeconds <
      recordPoints other + freshnessPoints d.heartbeatAgeSeconds) :
    routingScore c < routingScore d := by
  obtain ⟨record, hrecord⟩ := recordPoints_units hstored
  obtain ⟨record', hrecord'⟩ := recordPoints_units hstored'
  obtain ⟨lead, hlead⟩ := freshnessPoints_units c.heartbeatAgeSeconds
  obtain ⟨lead', hlead'⟩ := freshnessPoints_units d.heartbeatAgeSeconds
  have hgap : recordPoints stats + freshnessPoints c.heartbeatAgeSeconds + 1 / 200000 ≤
      recordPoints other + freshnessPoints d.heartbeatAgeSeconds := by
    rw [hrecord, hrecord', hlead, hlead'] at hless ⊢
    have hint : record + lead < record' + lead' := by
      have hcast : ((record + lead : ℤ) : ℚ) < ((record' + lead' : ℤ) : ℚ) := by
        push_cast
        linarith
      exact_mod_cast hcast
    have hnext : ((record + lead + 1 : ℤ) : ℚ) ≤ ((record' + lead' : ℤ) : ℚ) := by
      exact_mod_cast hint
    push_cast at hnext
    linarith
  have hcapacity : capacityPart c = capacityPart d := by
    unfold capacityPart
    rw [hqueue]
  have hnear := (abs_le.mp (routingScore_near hreads hstored)).2
  have hnear' := (abs_le.mp (routingScore_near hreads' hstored')).1
  rw [scorePoints] at hnear hnear'
  rw [hcapacity] at hnear
  norm_num at hnear hnear' hgap
  linarith

end Errors

end Nuvonode.Service
