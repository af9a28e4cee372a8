/-
  Foundation/Word.lean --- 64-bit additions seen as integers.

  Go's `int64` addition wraps.  The lemmas say what the wrapped sum is when it is
  known to be non-negative, which is all an overflow check by the sign bit needs.
-/
import Mathlib.Algebra.Ring.Int.Defs

set_option autoImplicit false

namespace Nuvonode.Foundation

/-- The largest `int64`. -/
def maxInt64 : Int := 2 ^ 63 - 1

/-- The integers a non-negative `int64` stands for. -/
def InCreditRange (n : Int) : Prop := 0 ≤ n ∧ n ≤ maxInt64

instance (n : Int) : Decidable (InCreditRange n) := inferInstanceAs (Decidable (_ ∧ _))

theorem toInt_le_max (a : Int64) : a.toInt ≤ maxInt64 := by
  have hmax : Int64.maxValue.toInt = maxInt64 := by decide
  rw [← hmax]
  exact a.toInt_le

theorem min_le_toInt (a : Int64) : -(2 ^ 63) ≤ a.toInt := by
  simpa using a.le_toInt

/-- The three ways a 64-bit addition can go. -/
theorem toInt_add_cases (a b : Int64) :
    (a + b).toInt = a.toInt + b.toInt ∧ -(2 ^ 63) ≤ a.toInt + b.toInt ∧
        a.toInt + b.toInt ≤ maxInt64 ∨
      (a + b).toInt = a.toInt + b.toInt - 2 ^ 64 ∧ maxInt64 < a.toInt + b.toInt ∨
      (a + b).toInt = a.toInt + b.toInt + 2 ^ 64 ∧ a.toInt + b.toInt < -(2 ^ 63) := by
  have ha := toInt_le_max a
  have hb := toInt_le_max b
  have ha' := min_le_toInt a
  have hb' := min_le_toInt b
  have hadd := Int64.toInt_add a b
  rw [Int.bmod_def] at hadd
  simp only [maxInt64] at *
  split at hadd <;> omega

/-- A sum inside the range of `int64` does not wrap. -/
theorem toInt_add_of_fits {a b : Int64} (hlow : -(2 ^ 63) ≤ a.toInt + b.toInt)
    (hhigh : a.toInt + b.toInt ≤ maxInt64) : (a + b).toInt = a.toInt + b.toInt := by
  rcases toInt_add_cases a b with h | h | h <;> simp only [maxInt64] at * <;> omega

/-- The sign test after an addition to a non-negative value decides whether the
exact sum is a non-negative `int64`. -/
theorem add_nonneg_iff {a b : Int64} (ha : 0 ≤ a.toInt) :
    ¬ a + b < 0 ↔ InCreditRange (a.toInt + b.toInt) := by
  rw [Int64.lt_iff_toInt_lt, InCreditRange]
  have hb := toInt_le_max b
  have hb' := min_le_toInt b
  have ha' := toInt_le_max a
  have hzero : (0 : Int64).toInt = 0 := rfl
  rcases toInt_add_cases a b with h | h | h <;> simp only [maxInt64] at * <;> omega

/-- A passed sign test makes the sum exact. -/
theorem toInt_add_of_nonneg {a b : Int64} (ha : 0 ≤ a.toInt) (h : ¬ a + b < 0) :
    (a + b).toInt = a.toInt + b.toInt := by
  obtain ⟨hlow, hhigh⟩ := (add_nonneg_iff ha).mp h
  exact toInt_add_of_fits (by omega) hhigh

/-- Negating anything but the smallest `int64` is exact. -/
theorem toInt_neg_of_nonneg {a : Int64} (h : 0 ≤ a.toInt) : (-a).toInt = -a.toInt := by
  have hmax := toInt_le_max a
  have hneg := Int64.toInt_neg a
  rw [Int.bmod_def] at hneg
  simp only [maxInt64] at hmax
  split at hneg <;> omega

theorem not_lt_zero_iff {a : Int64} : ¬ a < 0 ↔ 0 ≤ a.toInt := by
  rw [Int64.lt_iff_toInt_lt]
  have hzero : (0 : Int64).toInt = 0 := rfl
  omega

theorem not_le_zero_iff {a : Int64} : ¬ a ≤ 0 ↔ 0 < a.toInt := by
  rw [Int64.le_iff_toInt_le]
  exact Int.not_le

theorem pos_iff {a : Int64} : 0 < a ↔ 0 < a.toInt := by
  rw [Int64.lt_iff_toInt_lt]
  have hzero : (0 : Int64).toInt = 0 := rfl
  omega

end Nuvonode.Foundation
