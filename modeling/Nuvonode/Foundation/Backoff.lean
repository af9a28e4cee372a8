/-
  Foundation/Backoff.lean --- doubling delays, and the failed attempts of an outage.

  A delay doubles from one until it is capped.  A history is a list of attempts, the
  newest first, each of which connected or failed; an outage begins with the end of a
  session, or with the first attempt of all.
-/
import Mathlib.Algebra.Order.Ring.Nat

set_option autoImplicit false

namespace Nuvonode.Foundation

/-! ## Doubling -/

/-- The delay after some doublings. -/
def doubling (cap n : ℕ) : ℕ := min (2 ^ n) cap

section Doubling

variable {cap a b : ℕ}

/-- Twice the delay, where that is not beyond the cap. -/
theorem doubling_succ (cap n : ℕ) : doubling cap (n + 1) = min (doubling cap n * 2) cap := by
  unfold doubling
  rw [pow_succ]
  omega

theorem doubling_le (cap n : ℕ) : doubling cap n ≤ cap := Nat.min_le_right _ _

theorem doubling_pos (h : 1 ≤ cap) (n : ℕ) : 1 ≤ doubling cap n :=
  le_min Nat.one_le_two_pow h

/-- Two delays are the same only for the same number of doublings, or at the cap. -/
theorem doubling_eq_iff :
    doubling cap a = doubling cap b ↔ a = b ∨ (cap ≤ 2 ^ a ∧ cap ≤ 2 ^ b) := by
  constructor
  · intro h
    unfold doubling at h
    by_cases ha : cap ≤ 2 ^ a
    · refine .inr ⟨ha, ?_⟩
      omega
    · refine .inl (Nat.pow_right_injective (le_refl 2) ?_)
      simp only
      omega
  · rintro (rfl | ⟨ha, hb⟩)
    · rfl
    · unfold doubling
      omega

end Doubling

/-! ## Outages -/

/-- The attempts that have failed since an outage began. -/
def failedRetries : List Bool → ℕ
  | [] | [_] => 0
  | latest :: attempt :: older => if latest then 0 else failedRetries (attempt :: older) + 1

section Outage

theorem failedRetries_failed {older : List Bool} (h : older ≠ []) :
    failedRetries (false :: older) = failedRetries older + 1 := by
  cases older with
  | nil => exact absurd rfl h
  | cons attempt older => rfl

/-- After a session all further failures count. -/
theorem failedRetries_of_session (k : ℕ) (older : List Bool) :
    failedRetries (List.replicate k false ++ true :: older) = k := by
  induction k with
  | zero => cases older <;> rfl
  | succ k ih =>
      have hsession : List.replicate k false ++ true :: older ≠ [] :=
        List.append_ne_nil_of_right_ne_nil _ (List.cons_ne_nil _ _)
      rw [List.replicate_succ, List.cons_append, failedRetries_failed hsession, ih]

/-- Before any session the first failure begins the outage. -/
theorem failedRetries_of_none (k : ℕ) : failedRetries (List.replicate (k + 1) false) = k := by
  induction k with
  | zero => rfl
  | succ k ih =>
      have hfirst : List.replicate (k + 1) false ≠ [] := List.cons_ne_nil _ _
      rw [List.replicate_succ, failedRetries_failed hfirst, ih]

theorem failedRetries_le (latest : Bool) (older : List Bool) :
    failedRetries (latest :: older) ≤ older.length := by
  induction older generalizing latest with
  | nil => exact le_refl 0
  | cons attempt older ih =>
      have hle := ih attempt
      rw [failedRetries, List.length_cons]
      split <;> omega

/-- Every attempt but the first has failed since the outage began exactly if none of them
connected. -/
theorem failedRetries_eq_iff (latest : Bool) (older : List Bool) :
    failedRetries (latest :: older) = older.length ↔ true ∉ (latest :: older).dropLast := by
  induction older generalizing latest with
  | nil => exact iff_of_true rfl List.not_mem_nil
  | cons attempt older ih =>
      rw [List.dropLast_cons_cons, List.mem_cons, not_or, ← ih attempt, failedRetries]
      cases latest with
      | true =>
          refine iff_of_false ?_ fun h => h.1 rfl
          rw [if_pos rfl, List.length_cons]
          exact (Nat.succ_ne_zero _).symm
      | false =>
          rw [if_neg Bool.false_ne_true, List.length_cons, Nat.add_right_cancel_iff]
          exact ⟨fun h => ⟨Bool.noConfusion, h⟩, fun h => h.2⟩

end Outage

end Nuvonode.Foundation
