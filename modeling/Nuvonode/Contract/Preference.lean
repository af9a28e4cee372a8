/-
  Contract/Preference.lean --- the preference of routes, with exact scores.

  Without rounding the score is a sum of clamped shares, and `PreferRoute` compares by
  it and then by the number of jobs.
-/
import Nuvonode.Foundation.Preference
import Nuvonode.Service.Scoring

set_option autoImplicit false

namespace Nuvonode.Contract

open Nuvonode.Foundation Nuvonode.Service

section Preference

variable {a b c : RouteCandidate} {q q' : ℚ} {n n' : ℤ}

theorem exactPrefer_iff :
    exactPrefer a b = true ↔ Prefers exactScore RouteCandidate.totalJobs a b := by
  unfold exactPrefer preferWith Prefers exactScore
  split
  · exact decide_eq_true_iff
  · exact decide_eq_true_iff

theorem exactPrefer_eq :
    (fun a b => exactPrefer a b = true) = Prefers exactScore RouteCandidate.totalJobs :=
  funext fun _ => funext fun _ => propext exactPrefer_iff

instance : Std.Asymm fun a b => exactPrefer a b = true :=
  exactPrefer_eq ▸ inferInstance

instance : IsOrderConnected RouteCandidate fun a b => exactPrefer a b = true :=
  exactPrefer_eq ▸ inferInstance

/-- A scan of the same candidates in another order ends with an equal one. -/
theorem scan_same {list list' : List RouteCandidate} {best : RouteCandidate}
    (h : list.Perm list') (hscan : scan exactPrefer list = some best) :
    ∃ best', scan exactPrefer list' = some best' ∧ exactScore best' = exactScore best ∧
      best'.totalJobs = best.totalJobs := by
  obtain ⟨best', hscan', hnot, hnot'⟩ := scan_perm h hscan
  rw [exactPrefer_iff] at hnot hnot'
  obtain ⟨hscore, hjobs⟩ := eq_of_not_prefers hnot hnot'
  exact ⟨best', hscan', hscore.symm, hjobs.symm⟩

/-- The exact score does not fall where a candidate gets better. -/
theorem exactScore_mono (htrust : valueOr a.trustScore 20 ≤ valueOr b.trustScore 20)
    (hsuccess : valueOr a.successRate (1 / 2) ≤ valueOr b.successRate (1 / 2))
    (hlatency : valueOr b.averageLatencyMS 2500 ≤ valueOr a.averageLatencyMS 2500)
    (hqueue : b.queueDepth ≤ a.queueDepth)
    (hage : b.heartbeatAgeSeconds ≤ a.heartbeatAgeSeconds) : exactScore a ≤ exactScore b :=
  scoreWith_mono monotone_id (fun _ h => h) htrust hsuccess hlatency hqueue hage

/-- A share that is null counts as its default, which is in range. -/
theorem valueOr_bounds {v : Option Float64} {fallback low high : ℚ}
    (hfallback : low ≤ fallback ∧ fallback ≤ high)
    (h : ∀ q, v = some (.value q) → low ≤ q ∧ q ≤ high) :
    low ≤ valueOr v fallback ∧ valueOr v fallback ≤ high := by
  cases v with
  | none => exact hfallback
  | some x =>
      cases x with
      | nan => exact hfallback
      | value q => exact h q rfl

end Preference

/-- **Route preference is a lawful order.**  `PreferRoute` with exact scores is a strict weak
order, so that a scan finds the same score and number of jobs in any order of the list.  The
score is monotone in each field, and between 0 and 100 where the shares are. -/
theorem route_preference_is_lawful :
    (IsStrictWeakOrder RouteCandidate (fun a b => exactPrefer a b = true) ∧
      ∀ a b, exactPrefer a b = true → exactPrefer b a = false) ∧
    (∀ (list list' : List RouteCandidate) (best : RouteCandidate), list.Perm list' →
      scan exactPrefer list = some best →
        ∃ best', scan exactPrefer list' = some best' ∧ exactScore best' = exactScore best ∧
          best'.totalJobs = best.totalJobs) ∧
    (∀ (c : RouteCandidate) (q q' : ℚ), q ≤ q' →
      exactScore { c with trustScore := some (.value q) } ≤
          exactScore { c with trustScore := some (.value q') } ∧
        exactScore { c with successRate := some (.value q) } ≤
          exactScore { c with successRate := some (.value q') } ∧
        exactScore { c with averageLatencyMS := some (.value q') } ≤
          exactScore { c with averageLatencyMS := some (.value q) }) ∧
    (∀ (c : RouteCandidate) (n n' : ℤ), n ≤ n' →
      exactScore { c with queueDepth := n' } ≤ exactScore { c with queueDepth := n } ∧
        exactScore { c with heartbeatAgeSeconds := n' } ≤
          exactScore { c with heartbeatAgeSeconds := n }) ∧
    ∀ c : RouteCandidate,
      (∀ q, c.trustScore = some (.value q) → 0 ≤ q ∧ q ≤ 100) →
      (∀ q, c.successRate = some (.value q) → 0 ≤ q ∧ q ≤ 1) →
        0 ≤ exactScore c ∧ exactScore c ≤ 100 := by
  refine ⟨⟨isStrictWeakOrder_of_isOrderConnected, fun a b h => ?_⟩,
    fun list list' best h hscan => scan_same h hscan, fun c q q' h => ⟨?_, ?_, ?_⟩,
    fun c n n' h => ⟨?_, ?_⟩, fun c htrust hsuccess => ?_⟩
  · refine Bool.eq_false_iff.mpr fun h' => ?_
    rw [exactPrefer_iff] at h h'
    exact Std.Asymm.asymm a b h h'
  · exact exactScore_mono h (le_refl _) (le_refl _) (le_refl _) (le_refl _)
  · exact exactScore_mono (le_refl _) h (le_refl _) (le_refl _) (le_refl _)
  · exact exactScore_mono (le_refl _) (le_refl _) h (le_refl _) (le_refl _)
  · exact exactScore_mono (le_refl _) (le_refl _) (le_refl _) h (le_refl _)
  · exact exactScore_mono (le_refl _) (le_refl _) (le_refl _) (le_refl _) h
  · exact exactScore_bounds (valueOr_bounds (by norm_num) htrust)
      (valueOr_bounds (by norm_num) hsuccess)

/-- The candidate of the documented formula, with some jobs. -/
def documentedCandidate (totalJobs : ℤ) : RouteCandidate :=
  ⟨some (.value 80), some (.value (9 / 10)), some (.value 500), 0, 10, totalJobs⟩

/-- Of two candidates with one score a scan finds the one with fewer jobs, in either order. -/
theorem scan_of_tie :
    ∃ best, scan exactPrefer [documentedCandidate 2, documentedCandidate 1] = some best ∧
      exactScore best = exactScore (documentedCandidate 1) ∧ best.totalJobs = 1 :=
  route_preference_is_lawful.2.1 [documentedCandidate 1, documentedCandidate 2] _
    (documentedCandidate 1) (List.Perm.swap _ _ _) (by decide +kernel)

example : exactScore (documentedCandidate 1) = 177 / 2 := by decide +kernel

end Nuvonode.Contract
