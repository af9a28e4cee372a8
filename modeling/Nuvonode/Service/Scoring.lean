/-
  Service/Scoring.lean --- the score of a route.

  From `service/routing_service.go`: `RoutingScore` and `PreferRoute`, in binary64
  arithmetic with each operation rounded.  The score is monotone in each of its parts.
  The formula is also stated for any rounding of an operation, exact arithmetic included.
-/
import Nuvonode.Foundation.Rounding

set_option autoImplicit false

namespace Nuvonode.Service

open Nuvonode.Foundation

/-- A `float64` read from a `NUMERIC` column, which has no infinity. -/
inductive Float64 where
  | nan
  | value (q : ℚ)
  deriving DecidableEq

structure RouteCandidate where
  trustScore : Option Float64
  successRate : Option Float64
  averageLatencyMS : Option Float64
  queueDepth : ℤ
  heartbeatAgeSeconds : ℤ
  totalJobs : ℤ
  deriving DecidableEq

/-- `valueOr`. -/
def valueOr (v : Option Float64) (fallback : ℚ) : ℚ :=
  match v with
  | some (.value q) => q
  | _ => fallback

/-- `clamp`. -/
def clamp (v min max : ℚ) : ℚ := if v < min then min else if max < v then max else v

/-- The parts of the score, each out of a hundred. -/
def trustPart (c : RouteCandidate) : ℚ := valueOr c.trustScore 20

def successPart (c : RouteCandidate) : ℚ := binary64 (valueOr c.successRate (1 / 2) * 100)

def latencyPart (c : RouteCandidate) : ℚ :=
  clamp (binary64 (100 - binary64 (valueOr c.averageLatencyMS 2500 / 50))) 0 100

def capacityPart (c : RouteCandidate) : ℚ :=
  if 0 < c.queueDepth then clamp (binary64 (100 - binary64 (binary64 c.queueDepth * 50))) 0 100
  else 100

def freshnessPart (c : RouteCandidate) : ℚ :=
  if c.heartbeatAgeSeconds ≤ 15 then 100 else if c.heartbeatAgeSeconds ≤ 30 then 50 else 0

/-- A part times its weight, which is a `float64` constant. -/
def weigh (part weight : ℚ) : ℚ := binary64 (part * binary64 weight)

/-- `RoutingScore`; the sum is taken from the left. -/
def routingScore (c : RouteCandidate) : ℚ :=
  binary64 (binary64 (binary64 (binary64
    (weigh (trustPart c) (35 / 100) + weigh (successPart c) (25 / 100)) +
      weigh (latencyPart c) (20 / 100)) + weigh (capacityPart c) (10 / 100)) +
        weigh (freshnessPart c) (10 / 100))

/-- `PreferRoute`. -/
def preferRoute (a b : RouteCandidate) : Bool :=
  if routingScore a = routingScore b then a.totalJobs < b.totalJobs
  else routingScore b < routingScore a

/-- The score of the documented formula. -/
example : routingScore ⟨some (.value 80), some (.value (binary64 (9 / 10))), some (.value 500), 0,
    10, 0⟩ = 177 / 2 := by
  decide +kernel

/-! ## The formula under any rounding -/

/-- `RoutingScore`, where the result of every operation is rounded. -/
def scoreWith (round : ℚ → ℚ) (c : RouteCandidate) : ℚ :=
  let trustScore := valueOr c.trustScore 20
  let successScore := round (valueOr c.successRate (1 / 2) * 100)
  let latencyScore := clamp (round (100 - round (valueOr c.averageLatencyMS 2500 / 50))) 0 100
  let capacityScore :=
    if 0 < c.queueDepth then clamp (round (100 - round (round c.queueDepth * 50))) 0 100 else 100
  let freshnessScore :=
    if c.heartbeatAgeSeconds ≤ 15 then 100 else if c.heartbeatAgeSeconds ≤ 30 then 50 else 0
  let weighed (part weight : ℚ) := round (part * round weight)
  round (round (round (round (weighed trustScore (35 / 100) + weighed successScore (25 / 100)) +
    weighed latencyScore (20 / 100)) + weighed capacityScore (10 / 100)) +
      weighed freshnessScore (10 / 100))

/-- `PreferRoute`, where the result of every operation is rounded. -/
def preferWith (round : ℚ → ℚ) (a b : RouteCandidate) : Bool :=
  if scoreWith round a = scoreWith round b then a.totalJobs < b.totalJobs
  else scoreWith round b < scoreWith round a

/-- `float64` is one of the roundings. -/
theorem routingScore_eq (c : RouteCandidate) : routingScore c = scoreWith binary64 c := rfl

theorem preferRoute_eq (a b : RouteCandidate) : preferRoute a b = preferWith binary64 a b := rfl

/-- `RoutingScore` in exact rationals. -/
def exactScore (c : RouteCandidate) : ℚ := scoreWith id c

/-- `PreferRoute` with scores in exact rationals. -/
def exactPrefer (a b : RouteCandidate) : Bool := preferWith id a b

section AnyRounding

variable {round : ℚ → ℚ} {a b : RouteCandidate}

theorem clamp_mono {v w min max : ℚ} (hbounds : min ≤ max) (h : v ≤ w) :
    clamp v min max ≤ clamp w min max := by
  unfold clamp
  split_ifs <;> linarith

theorem freshnessPart_mono (h : b.heartbeatAgeSeconds ≤ a.heartbeatAgeSeconds) :
    freshnessPart a ≤ freshnessPart b := by
  unfold freshnessPart
  split_ifs <;> first | omega | norm_num

theorem clamp_le {v min max : ℚ} (h : min ≤ max) : clamp v min max ≤ max := by
  unfold clamp
  split_ifs <;> linarith

theorem le_clamp {v min max : ℚ} (h : min ≤ max) : min ≤ clamp v min max := by
  unfold clamp
  split_ifs <;> linarith

/-- A shorter queue leaves no less capacity. -/
theorem capacity_mono (hround : Monotone round) (h : b.queueDepth ≤ a.queueDepth) :
    (if 0 < a.queueDepth then clamp (round (100 - round (round a.queueDepth * 50))) 0 100
      else 100) ≤
      if 0 < b.queueDepth then clamp (round (100 - round (round b.queueDepth * 50))) 0 100
        else 100 := by
  by_cases hb : 0 < b.queueDepth
  · rw [if_pos hb, if_pos (hb.trans_le h)]
    have hdepth : round (b.queueDepth : ℚ) ≤ round a.queueDepth := hround (by exact_mod_cast h)
    have htaken : round (round b.queueDepth * 50) ≤ round (round a.queueDepth * 50) :=
      hround (mul_le_mul_of_nonneg_right hdepth (by norm_num))
    exact clamp_mono (by norm_num) (hround (sub_le_sub_left htaken 100))
  · rw [if_neg hb]
    split
    · exact clamp_le (by norm_num)
    · exact le_refl _

/-- A candidate that is better in no part has no higher score, whatever monotone rounding is
used that keeps the weights from being negative. -/
theorem scoreWith_mono (hround : Monotone round) (hpos : ∀ q, 0 ≤ q → 0 ≤ round q)
    (htrust : valueOr a.trustScore 20 ≤ valueOr b.trustScore 20)
    (hsuccess : valueOr a.successRate (1 / 2) ≤ valueOr b.successRate (1 / 2))
    (hlatency : valueOr b.averageLatencyMS 2500 ≤ valueOr a.averageLatencyMS 2500)
    (hqueue : b.queueDepth ≤ a.queueDepth)
    (hage : b.heartbeatAgeSeconds ≤ a.heartbeatAgeSeconds) :
    scoreWith round a ≤ scoreWith round b := by
  have hweighed : ∀ {part part' weight : ℚ}, 0 ≤ weight → part ≤ part' →
      round (part * round weight) ≤ round (part' * round weight) :=
    fun hweight h => hround (mul_le_mul_of_nonneg_right h (hpos _ hweight))
  have hsuccessScore : round (valueOr a.successRate (1 / 2) * 100) ≤
      round (valueOr b.successRate (1 / 2) * 100) :=
    hround (mul_le_mul_of_nonneg_right hsuccess (by norm_num))
  have htaken : round (valueOr b.averageLatencyMS 2500 / 50) ≤
      round (valueOr a.averageLatencyMS 2500 / 50) :=
    hround (div_le_div_of_nonneg_right hlatency (by norm_num))
  refine hround (add_le_add (hround (add_le_add (hround (add_le_add (hround (add_le_add
    ?_ ?_)) ?_)) ?_)) ?_)
  · exact hweighed (by norm_num) htrust
  · exact hweighed (by norm_num) hsuccessScore
  · exact hweighed (by norm_num)
      (clamp_mono (by norm_num) (hround (sub_le_sub_left htaken 100)))
  · exact hweighed (by norm_num) (capacity_mono hround hqueue)
  · exact hweighed (by norm_num) (freshnessPart_mono hage)

/-- The exact score is the sum of its weighed parts. -/
theorem exactScore_eq (c : RouteCandidate) : exactScore c =
    valueOr c.trustScore 20 * (35 / 100) + valueOr c.successRate (1 / 2) * 100 * (25 / 100) +
      clamp (100 - valueOr c.averageLatencyMS 2500 / 50) 0 100 * (20 / 100) +
      (if 0 < c.queueDepth then clamp (100 - c.queueDepth * 50) 0 100 else 100) * (10 / 100) +
      freshnessPart c * (10 / 100) := rfl

/-- Shares of a hundred make a score of at most a hundred. -/
theorem exactScore_bounds (htrust : 0 ≤ valueOr a.trustScore 20 ∧ valueOr a.trustScore 20 ≤ 100)
    (hsuccess : 0 ≤ valueOr a.successRate (1 / 2) ∧ valueOr a.successRate (1 / 2) ≤ 1) :
    0 ≤ exactScore a ∧ exactScore a ≤ 100 := by
  have hlatency : 0 ≤ clamp (100 - valueOr a.averageLatencyMS 2500 / 50) 0 100 ∧
      clamp (100 - valueOr a.averageLatencyMS 2500 / 50) 0 100 ≤ 100 :=
    ⟨le_clamp (by norm_num), clamp_le (by norm_num)⟩
  have hcapacity : 0 ≤ (if 0 < a.queueDepth then clamp (100 - (a.queueDepth : ℚ) * 50) 0 100
        else 100) ∧
      (if 0 < a.queueDepth then clamp (100 - (a.queueDepth : ℚ) * 50) 0 100 else 100) ≤ 100 := by
    split
    · exact ⟨le_clamp (by norm_num), clamp_le (by norm_num)⟩
    · norm_num
  have hfreshness : 0 ≤ freshnessPart a ∧ freshnessPart a ≤ 100 := by
    unfold freshnessPart
    split_ifs <;> norm_num
  rw [exactScore_eq]
  constructor <;> linarith

end AnyRounding

/-! ## Preferred routes -/

section Preferred

variable {a b : RouteCandidate}

/-- A candidate that is better in no part, at the same queue depth, has no higher score. -/
theorem routingScore_mono (htrust : valueOr a.trustScore 20 ≤ valueOr b.trustScore 20)
    (hsuccess : valueOr a.successRate (1 / 2) ≤ valueOr b.successRate (1 / 2))
    (hlatency : valueOr b.averageLatencyMS 2500 ≤ valueOr a.averageLatencyMS 2500)
    (hqueue : a.queueDepth = b.queueDepth)
    (hage : b.heartbeatAgeSeconds ≤ a.heartbeatAgeSeconds) : routingScore a ≤ routingScore b :=
  scoreWith_mono (fun _ _ h => binary64_mono h) (fun _ h => binary64_nonneg h) htrust hsuccess
    hlatency hqueue.ge hage

/-- What `a` has over `b`. -/
def Advantage (a b : RouteCandidate) : Prop :=
  valueOr b.trustScore 20 < valueOr a.trustScore 20 ∨
  valueOr b.successRate (1 / 2) < valueOr a.successRate (1 / 2) ∨
  valueOr a.averageLatencyMS 2500 < valueOr b.averageLatencyMS 2500 ∨
  a.heartbeatAgeSeconds < b.heartbeatAgeSeconds ∨ a.totalJobs < b.totalJobs

/-- A candidate with nothing over another one is not preferred to it. -/
theorem preferRoute_of_no_advantage (hqueue : a.queueDepth = b.queueDepth)
    (h : ¬ Advantage a b) : preferRoute a b = false := by
  unfold Advantage at h
  push Not at h
  obtain ⟨htrust, hsuccess, hlatency, hage, hjobs⟩ := h
  have hscore := routingScore_mono htrust hsuccess hlatency hqueue hage
  unfold preferRoute
  split
  · exact decide_eq_false (not_lt.mpr hjobs)
  · exact decide_eq_false (not_lt.mpr hscore)

end Preferred

end Nuvonode.Service
