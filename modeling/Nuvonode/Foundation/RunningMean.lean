/-
  Foundation/RunningMean.lean --- a mean that is updated value by value, and rounded each time.

  The stored mean of `n` values is the rounded quotient of the mean before, `n - 1` times,
  and the new value.  An old rounding error counts for less in every quotient, and a new
  one is added: after `n` values the stored mean is off by `(n + 1) / 2` roundings at most.
-/
import Mathlib.Algebra.Order.Field.Basic
import Mathlib.Algebra.BigOperators.Group.List.Basic
import Mathlib.Tactic.FieldSimp
import Mathlib.Tactic.Linarith
import Mathlib.Tactic.Ring

set_option autoImplicit false

namespace Nuvonode.Foundation

section RunningMean

variable {K : Type} [Field K] [LinearOrder K] [IsStrictOrderedRing K] {e x avg : K} {xs : List K}

/-- A mean that has been kept for some values, where no store rounds by more than `e`. -/
inductive KeptMean (e : K) : List K → Option K → Prop where
  | none : KeptMean e [] none
  | first {x avg : K} : |avg - x| ≤ e → KeptMean e [x] (some avg)
  | next {xs : List K} {x old avg : K} : KeptMean e xs (some old) →
      |avg - (old * xs.length + x) / (xs.length + 1)| ≤ e → KeptMean e (xs ++ [x]) (some avg)

omit [IsStrictOrderedRing K] in
/-- There is a mean of one value or more. -/
theorem KeptMean.eq_none_iff {mean : Option K} (h : KeptMean e xs mean) :
    mean = Option.none ↔ xs = [] := by
  cases h with
  | none => exact ⟨fun _ => rfl, fun _ => rfl⟩
  | first _ => exact iff_of_false (Option.some_ne_none _) (List.cons_ne_nil _ _)
  | next _ _ => exact iff_of_false (Option.some_ne_none _) (by simp)

/-- The stored sum is off by one rounding of the first value, two of the second, and so on. -/
theorem KeptMean.sum_drift (h : KeptMean e xs (some avg)) :
    |avg * xs.length - xs.sum| ≤ e * (xs.length * (xs.length + 1) / 2) := by
  generalize hmean : some avg = mean at h
  induction h generalizing avg with
  | none => cases hmean
  | @first x first hfirst =>
      cases hmean
      have htwo : (1 : K) * (1 + 1) / 2 = 1 := by ring
      simpa [htwo] using hfirst
  | @next xs x old new _ hnext ih =>
      cases hmean
      have hold := ih rfl
      have hpos : (0 : K) < xs.length + 1 := by positivity
      have hlength : ((xs ++ [x]).length : K) = xs.length + 1 := by
        rw [List.length_append, List.length_singleton]
        push_cast
        rfl
      have hsum : (xs ++ [x]).sum = xs.sum + x := by
        rw [List.sum_append, List.sum_singleton]
      -- The error of the new sum is that of the old one and the new rounding, once for each value.
      have hsplit : new * (xs.length + 1) - (xs.sum + x) =
          (old * xs.length - xs.sum) +
            (new - (old * xs.length + x) / (xs.length + 1)) * (xs.length + 1) := by
        field_simp
        ring
      have hrounded : |(new - (old * xs.length + x) / (xs.length + 1)) * (xs.length + 1)| ≤
          e * (xs.length + 1) := by
        rw [abs_mul, abs_of_pos hpos]
        exact mul_le_mul_of_nonneg_right hnext hpos.le
      rw [hlength, hsum, hsplit]
      calc |(old * xs.length - xs.sum) +
            (new - (old * xs.length + x) / (xs.length + 1)) * (xs.length + 1)|
          ≤ |old * xs.length - xs.sum| +
            |(new - (old * xs.length + x) / (xs.length + 1)) * (xs.length + 1)| := abs_add_le _ _
        _ ≤ e * (xs.length * (xs.length + 1) / 2) + e * (xs.length + 1) :=
            add_le_add hold hrounded
        _ = e * ((xs.length + 1) * (xs.length + 1 + 1) / 2) := by ring

/-- **The stored mean is near the mean.** -/
theorem KeptMean.drift (h : KeptMean e xs (some avg)) :
    |avg - xs.sum / xs.length| ≤ e * (xs.length + 1) / 2 := by
  have hne : xs ≠ [] := fun hnil => Option.some_ne_none avg (h.eq_none_iff.mpr hnil)
  have hpos : (0 : K) < xs.length := by exact_mod_cast List.length_pos_iff.mpr hne
  have hscaled : |avg - xs.sum / xs.length| * xs.length = |avg * xs.length - xs.sum| := by
    rw [← abs_of_pos hpos, ← abs_mul, abs_of_pos hpos, sub_mul, div_mul_cancel₀ _ hpos.ne']
  refine le_of_mul_le_mul_right ?_ hpos
  calc |avg - xs.sum / xs.length| * xs.length = |avg * xs.length - xs.sum| := hscaled
    _ ≤ e * (xs.length * (xs.length + 1) / 2) := h.sum_drift
    _ = e * (xs.length + 1) / 2 * xs.length := by ring

/-- Without rounding it is the mean. -/
theorem KeptMean.exact (h : KeptMean 0 xs (some avg)) : avg = xs.sum / xs.length := by
  have hdrift := h.drift
  rw [zero_mul, zero_div] at hdrift
  exact sub_eq_zero.mp (abs_nonpos_iff.mp hdrift)

end RunningMean

end Nuvonode.Foundation
