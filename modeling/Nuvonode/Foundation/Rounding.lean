/-
  Foundation/Rounding.lean --- the two roundings of the system, on rationals.

  Go's `float64` is IEEE 754 binary64: every operation is the exact one rounded to
  nearest, ties to even, to 53 significant bits.  No value of the service comes
  near the ends of the exponent range, so a float is the rational it stands for.

  PostgreSQL's `NUMERIC(p,s)` keeps `s` decimals, rounded half away from zero, and
  refuses a value with more than `p - s` integer digits.  A quotient is computed to
  the number of decimals that `select_div_scale` picks, at least sixteen
  significant digits.
-/
import Mathlib.Data.Int.Log
import Mathlib.Data.Rat.Floor
import Mathlib.Algebra.Order.Field.Power
import Mathlib.Tactic.Linarith
import Mathlib.Tactic.Positivity
import Mathlib.Tactic.FieldSimp

set_option autoImplicit false

namespace Nuvonode.Foundation

/-- The nearest integer, ties to even. -/
def roundHalfEven (q : ℚ) : ℤ :=
  if q - ⌊q⌋ < 1 / 2 then ⌊q⌋
  else if 1 / 2 < q - ⌊q⌋ then ⌊q⌋ + 1
  else if ⌊q⌋ % 2 = 0 then ⌊q⌋
  else ⌊q⌋ + 1

/-- The nearest integer, ties away from zero. -/
def roundHalfAway (q : ℚ) : ℤ :=
  if 0 ≤ q then ⌊q + 1 / 2⌋ else -⌊1 / 2 - q⌋

section Integers

variable {q : ℚ} {n : ℤ}

/-- Rounding does not cross an integer from above. -/
theorem le_roundHalfEven (h : (n : ℚ) ≤ q) : n ≤ roundHalfEven q := by
  have hfloor : n ≤ ⌊q⌋ := Int.le_floor.mpr h
  unfold roundHalfEven
  split_ifs <;> omega

/-- Rounding does not cross an integer from below. -/
theorem roundHalfEven_le (h : q ≤ n) : roundHalfEven q ≤ n := by
  have hfloor : ⌊q⌋ ≤ n := by
    have hle : (⌊q⌋ : ℚ) ≤ n := (Int.floor_le q).trans h
    exact_mod_cast hle
  rcases hfloor.lt_or_eq with hlt | heq
  · unfold roundHalfEven
    split_ifs <;> omega
  · have hsmall : q - ⌊q⌋ < 1 / 2 := by
      rw [heq]
      linarith
    rw [roundHalfEven, if_pos hsmall, heq]

/-- An integer is its own nearest integer. -/
theorem roundHalfEven_intCast : roundHalfEven (n : ℚ) = n :=
  le_antisymm (roundHalfEven_le le_rfl) (le_roundHalfEven le_rfl)

theorem roundHalfEven_mono {p : ℚ} (h : p ≤ q) : roundHalfEven p ≤ roundHalfEven q := by
  have hfloor : ⌊p⌋ ≤ ⌊q⌋ := Int.floor_mono h
  rcases hfloor.eq_or_lt with hsame | hless
  · unfold roundHalfEven
    rw [hsame]
    split_ifs
    all_goals first
      | omega
      | (exfalso; linarith)
  · have hbelow : roundHalfEven p ≤ ⌊p⌋ + 1 :=
      roundHalfEven_le (by push_cast; exact (Int.lt_floor_add_one p).le)
    have habove : ⌊q⌋ ≤ roundHalfEven q := le_roundHalfEven (Int.floor_le q)
    omega

theorem roundHalfEven_neg : roundHalfEven (-q) = -roundHalfEven q := by
  by_cases hint : (⌊q⌋ : ℚ) = q
  · have hneg : -q = ((-⌊q⌋ : ℤ) : ℚ) := by
      push_cast
      rw [hint]
    rw [hneg, roundHalfEven_intCast, ← hint, roundHalfEven_intCast, hint]
  · have hlt : (⌊q⌋ : ℚ) < q := lt_of_le_of_ne (Int.floor_le q) hint
    have hfloor : ⌊-q⌋ = -⌊q⌋ - 1 := by
      rw [Int.floor_eq_iff]
      push_cast
      exact ⟨by linarith [Int.lt_floor_add_one q], by linarith⟩
    unfold roundHalfEven
    rw [hfloor]
    push_cast
    split_ifs
    all_goals first
      | omega
      | (exfalso; linarith)

/-- Rounding goes down by no more than a half. -/
theorem sub_half_le_roundHalfEven : q - 1 / 2 ≤ roundHalfEven q := by
  have hfloor := Int.lt_floor_add_one q
  unfold roundHalfEven
  split_ifs <;> push_cast <;> linarith

/-- Rounding goes up by no more than a half. -/
theorem roundHalfEven_le_add_half : (roundHalfEven q : ℚ) ≤ q + 1 / 2 := by
  have hfloor := Int.floor_le q
  unfold roundHalfEven
  split_ifs <;> push_cast <;> linarith

theorem le_roundHalfAway (h : (n : ℚ) ≤ q) : n ≤ roundHalfAway q := by
  unfold roundHalfAway
  split
  · exact Int.le_floor.mpr (by linarith)
  · have hlt : ⌊1 / 2 - q⌋ < -n + 1 := Int.floor_lt.mpr (by push_cast; linarith)
    omega

theorem roundHalfAway_le (h : q ≤ n) : roundHalfAway q ≤ n := by
  unfold roundHalfAway
  split
  · have hlt : ⌊q + 1 / 2⌋ < n + 1 := Int.floor_lt.mpr (by push_cast; linarith)
    omega
  · have hle : -n ≤ ⌊1 / 2 - q⌋ := Int.le_floor.mpr (by push_cast; linarith)
    omega

end Integers

/-! ## binary64 -/

/-- The distance of neighbouring binary64 values at the magnitude of `q`. -/
def binary64Ulp (q : ℚ) : ℚ := 2 ^ (Int.log 2 |q| - 52)

/-- The binary64 value nearest to `q`, ties to even. -/
def binary64 (q : ℚ) : ℚ :=
  if q = 0 then 0 else roundHalfEven (q / binary64Ulp q) * binary64Ulp q

theorem binary64Ulp_pos (q : ℚ) : 0 < binary64Ulp q := by
  unfold binary64Ulp
  positivity

@[simp] theorem binary64_zero : binary64 0 = 0 := by simp [binary64]

theorem binary64_nonneg {q : ℚ} (h : 0 ≤ q) : 0 ≤ binary64 q := by
  unfold binary64
  split
  · exact le_rfl
  · have hround : 0 ≤ roundHalfEven (q / binary64Ulp q) :=
      le_roundHalfEven (by exact_mod_cast div_nonneg h (binary64Ulp_pos q).le)
    exact mul_nonneg (by exact_mod_cast hround) (binary64Ulp_pos q).le

/-- Rounding does not cross a power of two. -/
theorem binary64_le_two_zpow {q : ℚ} {k : ℤ} (hpos : 0 ≤ q) (h : q ≤ 2 ^ k) :
    binary64 q ≤ 2 ^ k := by
  unfold binary64
  split
  · positivity
  · rename_i hne
    have hq : 0 < q := lt_of_le_of_ne hpos (Ne.symm hne)
    have hlog : Int.log 2 q ≤ k := by
      have hmono := Int.log_mono_right (b := 2) hq h
      rwa [show ((2 : ℚ) ^ k) = ((2 : ℕ) : ℚ) ^ k by norm_num, Int.log_zpow (by norm_num)]
        at hmono
    -- In units of the last place the power of two is an integer.
    obtain ⟨m, hm⟩ : ∃ m : ℤ, (m : ℚ) * binary64Ulp q = 2 ^ k := by
      obtain ⟨d, hd⟩ : ∃ d : ℕ, k = (Int.log 2 |q| - 52) + d := by
        rw [abs_of_pos hq]
        exact ⟨(k - (Int.log 2 q - 52)).toNat, by omega⟩
      refine ⟨2 ^ d, ?_⟩
      rw [binary64Ulp, hd, zpow_add₀ (by norm_num), zpow_natCast]
      push_cast
      ring
    have hunits : q / binary64Ulp q ≤ m := by
      rw [div_le_iff₀ (binary64Ulp_pos q), hm]
      exact h
    calc (roundHalfEven (q / binary64Ulp q) : ℚ) * binary64Ulp q
        ≤ m * binary64Ulp q := by
          have hround := roundHalfEven_le hunits
          exact mul_le_mul_of_nonneg_right (by exact_mod_cast hround) (binary64Ulp_pos q).le
      _ = 2 ^ k := hm

theorem two_zpow_le_binary64 {q : ℚ} {k : ℤ} (h : 2 ^ k ≤ q) : 2 ^ k ≤ binary64 q := by
  have hq : 0 < q := lt_of_lt_of_le (by positivity) h
  have hlog : k ≤ Int.log 2 q := by
    have hmono := Int.log_mono_right (b := 2) (by positivity) h
    rwa [show ((2 : ℚ) ^ k) = ((2 : ℕ) : ℚ) ^ k by norm_num, Int.log_zpow (by norm_num)] at hmono
  -- The units are taken at the power of two below `q`, which is not below `2 ^ k`.
  have hunits : (((2 : ℤ) ^ 52 : ℤ) : ℚ) ≤ q / binary64Ulp q := by
    rw [le_div_iff₀ (binary64Ulp_pos q), binary64Ulp, abs_of_pos hq]
    have hself : ((2 : ℕ) : ℚ) ^ Int.log 2 q ≤ q := Int.zpow_log_le_self (by norm_num) hq
    calc (((2 : ℤ) ^ 52 : ℤ) : ℚ) * 2 ^ (Int.log 2 q - 52) = 2 ^ Int.log 2 q := by
          rw [zpow_sub₀ (by norm_num)]
          push_cast
          field_simp
      _ ≤ q := by exact_mod_cast hself
  calc (2 : ℚ) ^ k ≤ 2 ^ Int.log 2 q := zpow_le_zpow_right₀ (by norm_num) hlog
    _ = (((2 : ℤ) ^ 52 : ℤ) : ℚ) * binary64Ulp q := by
        rw [binary64Ulp, abs_of_pos hq, zpow_sub₀ (by norm_num)]
        push_cast
        field_simp
    _ ≤ roundHalfEven (q / binary64Ulp q) * binary64Ulp q := by
        have hround := le_roundHalfEven hunits
        exact mul_le_mul_of_nonneg_right (by exact_mod_cast hround) (binary64Ulp_pos q).le
    _ = binary64 q := by rw [binary64, if_neg hq.ne']

theorem binary64_pos {q : ℚ} (h : 0 < q) : 0 < binary64 q := by
  have hself : ((2 : ℕ) : ℚ) ^ Int.log 2 q ≤ q := Int.zpow_log_le_self (by norm_num) h
  have hbelow : (2 : ℚ) ^ Int.log 2 q ≤ binary64 q :=
    two_zpow_le_binary64 (by exact_mod_cast hself)
  exact lt_of_lt_of_le (by positivity) hbelow

/-- Rounding keeps the order of numbers of one magnitude and of different ones. -/
theorem binary64_le_binary64_of_pos {p q : ℚ} (hp : 0 < p) (h : p ≤ q) :
    binary64 p ≤ binary64 q := by
  have hq : 0 < q := lt_of_lt_of_le hp h
  have hlog : Int.log 2 p ≤ Int.log 2 q := Int.log_mono_right hp h
  rcases hlog.eq_or_lt with hsame | hless
  · have hulp : binary64Ulp p = binary64Ulp q := by
      rw [binary64Ulp, binary64Ulp, abs_of_pos hp, abs_of_pos hq, hsame]
    rw [binary64, binary64, if_neg hp.ne', if_neg hq.ne', hulp]
    have hround : roundHalfEven (p / binary64Ulp q) ≤ roundHalfEven (q / binary64Ulp q) :=
      roundHalfEven_mono (div_le_div_of_nonneg_right h (binary64Ulp_pos q).le)
    exact mul_le_mul_of_nonneg_right (by exact_mod_cast hround) (binary64Ulp_pos q).le
  · have hbelow : p ≤ 2 ^ (Int.log 2 p + 1) := by
      have hlt : p < ((2 : ℕ) : ℚ) ^ (Int.log 2 p + 1) := Int.lt_zpow_succ_log_self (by norm_num) p
      exact_mod_cast hlt.le
    have habove : 2 ^ (Int.log 2 p + 1) ≤ q := by
      have hself : ((2 : ℕ) : ℚ) ^ Int.log 2 q ≤ q := Int.zpow_log_le_self (by norm_num) hq
      have hpow : (2 : ℚ) ^ (Int.log 2 p + 1) ≤ 2 ^ Int.log 2 q :=
        zpow_le_zpow_right₀ (by norm_num) hless
      exact hpow.trans (by exact_mod_cast hself)
    exact (binary64_le_two_zpow hp.le hbelow).trans (two_zpow_le_binary64 habove)

theorem binary64_neg (q : ℚ) : binary64 (-q) = -binary64 q := by
  by_cases hq : q = 0
  · simp [hq]
  · have hulp : binary64Ulp (-q) = binary64Ulp q := by rw [binary64Ulp, binary64Ulp, abs_neg]
    rw [binary64, binary64, if_neg hq, if_neg (neg_ne_zero.mpr hq), hulp, neg_div,
      roundHalfEven_neg]
    push_cast
    ring

/-- Rounding is monotone. -/
theorem binary64_mono {p q : ℚ} (h : p ≤ q) : binary64 p ≤ binary64 q := by
  rcases lt_trichotomy p 0 with hp | rfl | hp
  · rcases lt_or_ge q 0 with hq | hq
    · have hneg := binary64_le_binary64_of_pos (neg_pos.mpr hq) (neg_le_neg h)
      rw [binary64_neg, binary64_neg] at hneg
      exact neg_le_neg_iff.mp hneg
    · have hneg := binary64_nonneg (neg_nonneg.mpr hp.le)
      rw [binary64_neg] at hneg
      exact (neg_nonneg.mp hneg).trans (binary64_nonneg hq)
  · rw [binary64_zero]
    exact binary64_nonneg h
  · exact binary64_le_binary64_of_pos hp h

/-- Below `2^53` every integer is a whole number of units in the last place. -/
theorem exists_units {q : ℚ} (n : ℤ) (hpos : 0 < q) (h : q < 2 ^ 53) :
    ∃ m : ℤ, (m : ℚ) * binary64Ulp q = n := by
  have hlog : Int.log 2 |q| < 53 := by
    rw [abs_of_pos hpos]
    have hbase : q < ((2 : ℕ) : ℚ) ^ (53 : ℤ) := by exact_mod_cast h
    exact (Int.lt_zpow_iff_log_lt (by norm_num) hpos).mp hbase
  obtain ⟨d, hd⟩ : ∃ d : ℕ, Int.log 2 |q| - 52 = -d := ⟨(52 - Int.log 2 |q|).toNat, by omega⟩
  refine ⟨n * 2 ^ d, ?_⟩
  rw [binary64Ulp, hd, zpow_neg, zpow_natCast]
  push_cast
  field_simp

/-- Rounding does not cross an integer below `2^53`, from above or from below. -/
theorem le_binary64 {q : ℚ} {n : ℤ} (hpos : 0 < q) (hsmall : q < 2 ^ 53) (h : (n : ℚ) ≤ q) :
    (n : ℚ) ≤ binary64 q := by
  obtain ⟨m, hm⟩ := exists_units n hpos hsmall
  have hunits : (m : ℚ) ≤ q / binary64Ulp q := by
    rw [le_div_iff₀ (binary64Ulp_pos q), hm]
    exact h
  rw [binary64, if_neg hpos.ne', ← hm]
  have hround := le_roundHalfEven hunits
  exact mul_le_mul_of_nonneg_right (by exact_mod_cast hround) (binary64Ulp_pos q).le

theorem binary64_le {q : ℚ} {n : ℤ} (hpos : 0 < q) (hsmall : q < 2 ^ 53) (h : q ≤ n) :
    binary64 q ≤ n := by
  obtain ⟨m, hm⟩ := exists_units n hpos hsmall
  have hunits : q / binary64Ulp q ≤ m := by
    rw [div_le_iff₀ (binary64Ulp_pos q), hm]
    exact h
  rw [binary64, if_neg hpos.ne', ← hm]
  have hround := roundHalfEven_le hunits
  exact mul_le_mul_of_nonneg_right (by exact_mod_cast hround) (binary64Ulp_pos q).le

/-- The integers up to `2^53` are binary64 values. -/
theorem binary64_intCast {n : ℤ} (hnonneg : 0 ≤ n) (h : n ≤ 2 ^ 53) : binary64 n = n := by
  rcases hnonneg.eq_or_lt with rfl | hpos
  · simp
  · have hpos' : (0 : ℚ) < n := by exact_mod_cast hpos
    rcases h.eq_or_lt with rfl | hlt
    · -- The one integer here with two for its unit in the last place.
      have hlog : Int.log 2 |(((2 : ℤ) ^ 53 : ℤ) : ℚ)| = 53 := by
        have hpow : |(((2 : ℤ) ^ 53 : ℤ) : ℚ)| = ((2 : ℕ) : ℚ) ^ (53 : ℤ) := by norm_num
        rw [hpow, Int.log_zpow (by norm_num)]
      have hulp : binary64Ulp (((2 : ℤ) ^ 53 : ℤ) : ℚ) = 2 := by
        rw [binary64Ulp, hlog]
        norm_num
      have hunits : (((2 : ℤ) ^ 53 : ℤ) : ℚ) / 2 = (((2 : ℤ) ^ 52 : ℤ) : ℚ) := by norm_num
      rw [binary64, if_neg hpos'.ne', hulp, hunits, roundHalfEven_intCast]
      norm_num
    · have hsmall : (n : ℚ) < 2 ^ 53 := by exact_mod_cast hlt
      exact le_antisymm (binary64_le hpos' hsmall le_rfl) (le_binary64 hpos' hsmall le_rfl)

/-- Rounding goes down by no more than half a unit in the last place. -/
theorem sub_half_ulp_le_binary64 {q : ℚ} (hpos : 0 < q) :
    q - binary64Ulp q / 2 ≤ binary64 q := by
  have hulp := binary64Ulp_pos q
  calc q - binary64Ulp q / 2 = (q / binary64Ulp q - 1 / 2) * binary64Ulp q := by
        field_simp
    _ ≤ roundHalfEven (q / binary64Ulp q) * binary64Ulp q :=
        mul_le_mul_of_nonneg_right sub_half_le_roundHalfEven hulp.le
    _ = binary64 q := by rw [binary64, if_neg hpos.ne']

/-- A quotient by a thousand is rounded by less than the thousandth that separates it from
the integer below, so its ceiling is that of the exact quotient. -/
theorem ceil_binary64_thousandth {n : ℤ} (hnonneg : 0 ≤ n) (h : n ≤ 2 ^ 53) :
    ⌈binary64 (n / 1000)⌉ = (n + 999) / 1000 := by
  rcases hnonneg.eq_or_lt with rfl | hpos
  · simp
  · have hn : (n : ℚ) ≤ 2 ^ 53 := by exact_mod_cast h
    have hq : (0 : ℚ) < (n : ℚ) / 1000 := by
      have hn' : (0 : ℚ) < n := by exact_mod_cast hpos
      positivity
    have hq' : (n : ℚ) / 1000 < 2 ^ 44 := by
      rw [div_lt_iff₀ (by norm_num)]
      linarith [show (2 : ℚ) ^ 53 < 2 ^ 44 * 1000 by norm_num]
    have hulp : binary64Ulp ((n : ℚ) / 1000) ≤ 2 ^ (-9 : ℤ) := by
      have hlog : Int.log 2 |(n : ℚ) / 1000| < 44 := by
        rw [abs_of_pos hq]
        have hbase : (n : ℚ) / 1000 < ((2 : ℕ) : ℚ) ^ (44 : ℤ) := by exact_mod_cast hq'
        exact (Int.lt_zpow_iff_log_lt (by norm_num) hq).mp hbase
      exact zpow_le_zpow_right₀ (by norm_num) (by omega)
    have hceil : n ≤ 1000 * ((n + 999) / 1000) ∧ 1000 * ((n + 999) / 1000) ≤ n + 999 := by omega
    have habove : (n : ℚ) / 1000 ≤ ((n + 999) / 1000 : ℤ) := by
      rw [div_le_iff₀ (by norm_num)]
      exact_mod_cast (by linarith [hceil.1] : n ≤ (n + 999) / 1000 * 1000)
    have hbelow : (((n + 999) / 1000 : ℤ) : ℚ) - 1 + 1 / 1000 ≤ n / 1000 := by
      have hcast : (1000 : ℚ) * ((n + 999) / 1000 : ℤ) ≤ n + 999 := by exact_mod_cast hceil.2
      rw [le_div_iff₀ (by norm_num)]
      linarith
    rw [Int.ceil_eq_iff]
    constructor
    · have hround := sub_half_ulp_le_binary64 hq
      have hsmall : (2 : ℚ) ^ (-9 : ℤ) / 2 < 1 / 1000 := by norm_num
      linarith
    · refine binary64_le hq (hq'.trans ?_) habove
      norm_num

/-! ### Rounding errors -/

/-- Rounding moves a value by at most `2^-53` of it. -/
theorem abs_binary64_sub_le (q : ℚ) : |binary64 q - q| ≤ |q| / 2 ^ 53 := by
  by_cases hq : q = 0
  · simp [hq]
  · have hulp := binary64Ulp_pos q
    have hscaled : binary64 q - q =
        (roundHalfEven (q / binary64Ulp q) - q / binary64Ulp q) * binary64Ulp q := by
      rw [binary64, if_neg hq]
      field_simp
    have hunits : |(roundHalfEven (q / binary64Ulp q) : ℚ) - q / binary64Ulp q| ≤ 1 / 2 := by
      rw [abs_le]
      constructor
      · linarith [sub_half_le_roundHalfEven (q := q / binary64Ulp q)]
      · linarith [roundHalfEven_le_add_half (q := q / binary64Ulp q)]
    have hself : ((2 : ℕ) : ℚ) ^ Int.log 2 |q| ≤ |q| :=
      Int.zpow_log_le_self (by norm_num) (abs_pos.mpr hq)
    calc |binary64 q - q|
        = |(roundHalfEven (q / binary64Ulp q) : ℚ) - q / binary64Ulp q| * binary64Ulp q := by
          rw [hscaled, abs_mul, abs_of_pos hulp]
      _ ≤ 1 / 2 * binary64Ulp q := mul_le_mul_of_nonneg_right hunits hulp.le
      _ = 2 ^ Int.log 2 |q| / 2 ^ 53 := by
          rw [binary64Ulp, zpow_sub₀ (by norm_num)]
          norm_num
          ring
      _ ≤ |q| / 2 ^ 53 := by
          refine div_le_div_of_nonneg_right ?_ (by positivity)
          exact_mod_cast hself

/-- What an operation on an approximation makes of its error: `b` bounds the exact value, and
the error is no larger. -/
theorem abs_binary64_sub_le_of_near {x y e b : ℚ} (h : |x - y| ≤ e) (hy : |y| ≤ b)
    (he : e ≤ b) : |binary64 x - y| ≤ e + b / 2 ^ 52 := by
  have hx : |x| ≤ 2 * b := by
    have hsplit : |x| ≤ |x - y| + |y| := by simpa using abs_add_le (x - y) y
    linarith
  calc |binary64 x - y| ≤ |binary64 x - x| + |x - y| := abs_sub_le _ _ _
    _ ≤ |x| / 2 ^ 53 + e := add_le_add (abs_binary64_sub_le x) h
    _ ≤ 2 * b / 2 ^ 53 + e := by gcongr
    _ = e + b / 2 ^ 52 := by ring

/-! ### Rounding up to an integer -/

/-- The distance of an integer from the binary64 value below it. -/
def binary64Below (n : ℤ) : ℚ := binary64Ulp (n - 1 / 2)

/-- A value is nearer to the integer, or to something above, than to the binary64 value
below the integer; halfway between the two the even one is taken. -/
def RoundsUpTo (n : ℤ) (q : ℚ) : Prop :=
  n - binary64Below n / 2 < q ∨ q = n - binary64Below n / 2 ∧ (n ≤ 2 ^ 52 ∨ Even n)

/-- Half a unit short of an integer, ties go to the integer if it is even. -/
theorem le_roundHalfEven_iff {q : ℚ} {m : ℤ} :
    m ≤ roundHalfEven q ↔ (m : ℚ) - 1 / 2 < q ∨ q = m - 1 / 2 ∧ Even m := by
  by_cases habove : (m : ℚ) ≤ q
  · exact iff_of_true (le_roundHalfEven habove) (.inl (by linarith))
  · by_cases hbelow : q < (m : ℚ) - 1
    · refine iff_of_false (fun hle => ?_) ?_
      · have hround : roundHalfEven q ≤ m - 1 := roundHalfEven_le (by push_cast; exact hbelow.le)
        omega
      · rintro (hlt | ⟨heq, -⟩) <;> linarith
    · -- Between `m - 1` and `m` the floor is `m - 1`.
      have hfloor : ⌊q⌋ = m - 1 := by
        rw [Int.floor_eq_iff]
        push_cast
        constructor <;> linarith
      have heven : (m - 1) % 2 = 0 ↔ ¬ Even m := by
        rw [Int.even_iff]
        omega
      unfold roundHalfEven
      rw [hfloor]
      push_cast
      split_ifs with hless hmore hodd
      · refine iff_of_false (by omega) ?_
        rintro (hlt | ⟨heq, -⟩) <;> linarith
      · exact iff_of_true (by omega) (.inl (by linarith))
      · refine iff_of_false (by omega) ?_
        rintro (hlt | ⟨-, hm⟩)
        · linarith
        · exact heven.mp hodd hm
      · refine iff_of_true (by omega) (.inr ⟨by linarith, ?_⟩)
        by_contra hm
        exact hodd (heven.mpr hm)

section RoundingUp

variable {n : ℤ} {q : ℚ}

/-- The magnitude of what is just below an integer. -/
theorem log_sub_half_bounds (hpos : 1 ≤ n) (h : n ≤ 2 ^ 53) :
    -1 ≤ Int.log 2 ((n : ℚ) - 1 / 2) ∧ Int.log 2 ((n : ℚ) - 1 / 2) ≤ 52 := by
  have hpos' : (1 : ℚ) ≤ n := by exact_mod_cast hpos
  have h' : (n : ℚ) ≤ 2 ^ 53 := by exact_mod_cast h
  have hq : (0 : ℚ) < (n : ℚ) - 1 / 2 := by linarith
  constructor
  · refine (Int.zpow_le_iff_le_log (by norm_num) hq).mp ?_
    norm_num
    linarith
  · have hlt : Int.log 2 ((n : ℚ) - 1 / 2) < 53 := by
      refine (Int.lt_zpow_iff_log_lt (by norm_num) hq).mp ?_
      norm_num at h' ⊢
      linarith
    omega

theorem binary64Below_eq (hpos : 1 ≤ n) :
    binary64Below n = 2 ^ (Int.log 2 ((n : ℚ) - 1 / 2) - 52) := by
  have hpos' : (1 : ℚ) ≤ n := by exact_mod_cast hpos
  rw [binary64Below, binary64Ulp, abs_of_pos (by linarith)]

/-- An integer is a whole number of these distances, and an even one below `2^52`. -/
theorem exists_units_below (hpos : 1 ≤ n) (h : n ≤ 2 ^ 53) :
    ∃ m : ℤ, (m : ℚ) * binary64Below n = n ∧ (Even m ↔ n ≤ 2 ^ 52 ∨ Even n) := by
  obtain ⟨-, hlog⟩ := log_sub_half_bounds hpos h
  have hpos' : (1 : ℚ) ≤ n := by exact_mod_cast hpos
  obtain ⟨d, hd⟩ : ∃ d : ℕ, Int.log 2 ((n : ℚ) - 1 / 2) = 52 - d :=
    ⟨(52 - Int.log 2 ((n : ℚ) - 1 / 2)).toNat, by omega⟩
  have hsmall : d ≠ 0 ↔ n ≤ 2 ^ 52 := by
    have hlt : ((n : ℚ) - 1 / 2) < ((2 : ℕ) : ℚ) ^ (52 : ℤ) ↔ Int.log 2 ((n : ℚ) - 1 / 2) < 52 :=
      Int.lt_zpow_iff_log_lt (by norm_num) (by linarith)
    have hint : ((n : ℚ) - 1 / 2) < ((2 : ℕ) : ℚ) ^ (52 : ℤ) ↔ n ≤ 2 ^ 52 := by
      constructor
      · intro hless
        have hnext : (n : ℚ) < ((2 ^ 52 + 1 : ℤ) : ℚ) := by
          norm_num at hless ⊢
          linarith
        have hnext' : n < 2 ^ 52 + 1 := by exact_mod_cast hnext
        omega
      · intro hle
        have hle' : (n : ℚ) ≤ 2 ^ 52 := by exact_mod_cast hle
        norm_num at hle' ⊢
        linarith
    rw [← hint, hlt, hd]
    omega
  refine ⟨n * 2 ^ d, ?_, ?_⟩
  · have hexp : Int.log 2 ((n : ℚ) - 1 / 2) - 52 = -d := by omega
    rw [binary64Below_eq hpos, hexp, zpow_neg, zpow_natCast]
    push_cast
    field_simp
  · rw [Int.even_mul, Int.even_pow, ← hsmall]
    have htwo : Even (2 : ℤ) := even_two
    tauto

/-- Between an integer and the binary64 value below it the spacing is that distance. -/
theorem binary64Ulp_of_below (hpos : 1 ≤ n) (h : n ≤ 2 ^ 53)
    (hlow : n - binary64Below n ≤ q) (hhigh : q < n) : 0 < q ∧ binary64Ulp q = binary64Below n := by
  obtain ⟨hlog₁, hlog₂⟩ := log_sub_half_bounds hpos h
  rw [binary64Below_eq hpos] at hlow ⊢
  have hpos' : (1 : ℚ) ≤ n := by exact_mod_cast hpos
  have hself := Int.zpow_log_le_self (R := ℚ) (b := 2) (r := (n : ℚ) - 1 / 2) (by norm_num)
    (by linarith)
  have hnext := Int.lt_zpow_succ_log_self (R := ℚ) (b := 2) (by norm_num) ((n : ℚ) - 1 / 2)
  generalize Int.log 2 ((n : ℚ) - 1 / 2) = L at hlog₁ hlog₂ hlow hself hnext ⊢
  have hbelow : ((2 : ℕ) : ℚ) ^ L ≤ n - 2 ^ (L - 52) := by
    rcases hlog₁.eq_or_lt with rfl | hlog₀
    · norm_num
      linarith
    · -- The power is an integer, and the spacing is one at most.
      obtain ⟨k, rfl⟩ := Int.eq_ofNat_of_zero_le (by omega : 0 ≤ L)
      have hspacing : (2 : ℚ) ^ ((k : ℤ) - 52) ≤ 1 :=
        zpow_le_one_of_nonpos₀ (by norm_num) (by omega)
      have hint : (((2 : ℤ) ^ k : ℤ) : ℚ) < n := by
        push_cast
        rw [zpow_natCast] at hself
        push_cast at hself
        linarith
      have hint' : (((2 : ℤ) ^ k + 1 : ℤ) : ℚ) ≤ n := by exact_mod_cast hint
      push_cast at hint' ⊢
      rw [zpow_natCast]
      linarith
  have habove : (n : ℚ) ≤ ((2 : ℕ) : ℚ) ^ (L + 1) := by
    obtain ⟨k, hk⟩ := Int.eq_ofNat_of_zero_le (by omega : 0 ≤ L + 1)
    rw [hk, zpow_natCast] at hnext ⊢
    have hint : (n : ℚ) < (((2 : ℤ) ^ k + 1 : ℤ) : ℚ) := by
      push_cast at hnext ⊢
      linarith
    have hint' : n < (2 : ℤ) ^ k + 1 := by exact_mod_cast hint
    exact_mod_cast Int.lt_add_one_iff.mp hint'
  have hq : 0 < q := lt_of_lt_of_le (by positivity) (hbelow.trans hlow)
  have hlogq : Int.log 2 q = L := by
    have hge : L ≤ Int.log 2 q := (Int.zpow_le_iff_le_log (by norm_num) hq).mp (hbelow.trans hlow)
    have hlt : Int.log 2 q < L + 1 :=
      (Int.lt_zpow_iff_log_lt (by norm_num) hq).mp (hhigh.trans_le habove)
    omega
  exact ⟨hq, by rw [binary64Ulp, abs_of_pos hq, hlogq]⟩

/-- **When a value is rounded to an integer or further up.** -/
theorem le_binary64_iff_roundsUpTo (hpos : 1 ≤ n) (h : n ≤ 2 ^ 53) :
    (n : ℚ) ≤ binary64 q ↔ RoundsUpTo n q := by
  have hgap : 0 < binary64Below n := binary64Ulp_pos _
  obtain ⟨m, hm, heven⟩ := exists_units_below hpos h
  -- Just below the integer the value is rounded in units of that distance.
  have hnear : ∀ p : ℚ, n - binary64Below n ≤ p → p < n →
      binary64 p = roundHalfEven (p / binary64Below n) * binary64Below n := by
    intro p hlow hhigh
    obtain ⟨hp, hulp⟩ := binary64Ulp_of_below hpos h hlow hhigh
    rw [binary64, if_neg hp.ne', hulp]
  by_cases habove : (n : ℚ) ≤ q
  · have hround := binary64_mono habove
    rw [binary64_intCast (by omega) h] at hround
    exact iff_of_true hround (.inl (by linarith))
  · rw [not_le] at habove
    by_cases hbelow : q < n - binary64Below n
    · -- The value below the integer is one of binary64.
      have hunits : ((n : ℚ) - binary64Below n) / binary64Below n = ((m - 1 : ℤ) : ℚ) := by
        rw [← hm]
        push_cast
        field_simp
      have hround := binary64_mono hbelow.le
      rw [hnear _ le_rfl (by linarith), hunits, roundHalfEven_intCast] at hround
      push_cast at hround
      refine iff_of_false (by linarith) ?_
      rintro (hlt | ⟨heq, -⟩) <;> linarith
    · rw [not_lt] at hbelow
      have hscale : ∀ p : ℚ, p / binary64Below n * binary64Below n = p := fun p =>
        div_mul_cancel₀ p hgap.ne'
      have hunits : (n : ℚ) ≤ binary64 q ↔ m ≤ roundHalfEven (q / binary64Below n) := by
        rw [hnear q hbelow habove, ← hm, mul_le_mul_iff_left₀ hgap]
        exact Int.cast_le
      have hless : (m : ℚ) - 1 / 2 < q / binary64Below n ↔ n - binary64Below n / 2 < q := by
        rw [lt_div_iff₀ hgap, sub_mul, hm, one_div_mul_eq_div]
      have htie : q / binary64Below n = m - 1 / 2 ↔ q = n - binary64Below n / 2 := by
        rw [div_eq_iff hgap.ne', sub_mul, hm, one_div_mul_eq_div]
      rw [hunits, le_roundHalfEven_iff, hless, htie, heven, RoundsUpTo]

/-- `2^53 + 1` is the first integer that is no binary64 value: nothing below rounds up to it. -/
theorem not_roundsUpTo_of_le (h : q ≤ 2 ^ 53) : ¬ RoundsUpTo (2 ^ 53 + 1) q := by
  have hlow : 53 ≤ Int.log 2 (((2 ^ 53 + 1 : ℤ) : ℚ) - 1 / 2) :=
    (Int.zpow_le_iff_le_log (by norm_num) (by norm_num)).mp (by norm_num)
  have hhigh : Int.log 2 (((2 ^ 53 + 1 : ℤ) : ℚ) - 1 / 2) < 54 :=
    (Int.lt_zpow_iff_log_lt (by norm_num) (by norm_num)).mp (by norm_num)
  have hlog : Int.log 2 (((2 ^ 53 + 1 : ℤ) : ℚ) - 1 / 2) = 53 := by omega
  have hgap : binary64Below (2 ^ 53 + 1) = 2 := by
    rw [binary64Below_eq (by norm_num), hlog]
    norm_num
  unfold RoundsUpTo
  rw [hgap]
  rintro (hlt | ⟨-, hsmall | heven⟩)
  · push_cast at hlt
    linarith
  · norm_num at hsmall
  · exact absurd heven (by decide)

end RoundingUp

/-! ## NUMERIC -/

/-- Rounding to `scale` decimals. -/
def numericRound (scale : ℕ) (q : ℚ) : ℚ := roundHalfAway (q * 10 ^ scale) / 10 ^ scale

/-- The value a `NUMERIC(precision,scale)` column keeps, unless it overflows. -/
def numericStore (precision scale : ℕ) (q : ℚ) : Option ℚ :=
  if |numericRound scale q| < 10 ^ (precision - scale) then some (numericRound scale q) else none

/-- The exponent of the leading base-10000 digit. -/
def numericWeight (q : ℚ) : ℤ := Int.log 10000 |q|

/-- The leading base-10000 digit. -/
def numericFirstDigit (q : ℚ) : ℤ := ⌊|q| / 10000 ^ numericWeight q⌋

/-- PostgreSQL's `select_div_scale`, for operands shown with at most `displayScale`
decimals. -/
def numericDivScale (displayScale : ℕ) (a b : ℚ) : ℕ :=
  let borrow : ℤ := if numericFirstDigit a ≤ numericFirstDigit b then 1 else 0
  let qweight := numericWeight a - numericWeight b - borrow
  min 1000 (max displayScale (16 - 4 * qweight).toNat)

/-- The quotient of two `NUMERIC` values. -/
def numericDiv (displayScale : ℕ) (a b : ℚ) : ℚ :=
  numericRound (numericDivScale displayScale a b) (a / b)

theorem le_numericRound {scale : ℕ} {q : ℚ} {n : ℤ} (h : (n : ℚ) ≤ q) :
    (n : ℚ) ≤ numericRound scale q := by
  have hpow : (0 : ℚ) < 10 ^ scale := by positivity
  have hround : n * 10 ^ scale ≤ roundHalfAway (q * 10 ^ scale) :=
    le_roundHalfAway (by push_cast; exact mul_le_mul_of_nonneg_right h hpow.le)
  rw [numericRound, le_div_iff₀ hpow]
  exact_mod_cast hround

theorem numericRound_le {scale : ℕ} {q : ℚ} {n : ℤ} (h : q ≤ n) :
    numericRound scale q ≤ n := by
  have hpow : (0 : ℚ) < 10 ^ scale := by positivity
  have hround : roundHalfAway (q * 10 ^ scale) ≤ n * 10 ^ scale :=
    roundHalfAway_le (by push_cast; exact mul_le_mul_of_nonneg_right h hpow.le)
  rw [numericRound, div_le_iff₀ hpow]
  exact_mod_cast hround

/-- What is less than half a decimal below zero is rounded to zero. -/
theorem numericRound_nonneg_iff {scale : ℕ} {q : ℚ} :
    0 ≤ numericRound scale q ↔ -(1 / 2) < q * 10 ^ scale := by
  have hpow : (0 : ℚ) < 10 ^ scale := by positivity
  have hround : 0 ≤ roundHalfAway (q * 10 ^ scale) ↔ -(1 / 2) < q * 10 ^ scale := by
    unfold roundHalfAway
    split
    · rename_i hnonneg
      exact iff_of_true (Int.floor_nonneg.mpr (by linarith)) (by linarith)
    · have hfloor : 0 ≤ -⌊1 / 2 - q * 10 ^ scale⌋ ↔ ⌊1 / 2 - q * 10 ^ scale⌋ < 1 := by omega
      rw [hfloor, Int.floor_lt]
      push_cast
      constructor <;> intro h <;> linarith
  rw [numericRound, le_div_iff₀ hpow, zero_mul, ← hround]
  exact Int.cast_nonneg_iff

/-- A value with no more decimals than the scale is kept. -/
theorem numericRound_eq_self {scale : ℕ} {q : ℚ} {n : ℤ} (h : q * 10 ^ scale = n) :
    numericRound scale q = q := by
  have hround : roundHalfAway (n : ℚ) = n :=
    le_antisymm (roundHalfAway_le le_rfl) (le_roundHalfAway le_rfl)
  have hpow : (10 : ℚ) ^ scale ≠ 0 := by positivity
  rw [numericRound, h, hround, ← h, mul_div_cancel_right₀ q hpow]

theorem numericRound_intCast {scale : ℕ} {n : ℤ} : numericRound scale n = n := by
  refine numericRound_eq_self (n := n * 10 ^ scale) ?_
  push_cast
  rfl

/-- What a `NUMERIC` column holds is a whole number of its last decimals, and fits it. -/
theorem exists_units_of_stored {precision scale : ℕ} {q : ℚ}
    (h : numericStore precision scale q = some q) :
    ∃ n : ℤ, q = n / 10 ^ scale ∧ |q| ≤ 10 ^ (precision - scale) := by
  unfold numericStore at h
  split at h
  · rename_i hfits
    have hself : numericRound scale q = q := Option.some.inj h
    rw [hself] at hfits
    exact ⟨roundHalfAway (q * 10 ^ scale), hself.symm, hfits.le⟩
  · cases h

/-- A value between two integers that fit the column is stored, between them. -/
theorem numericStore_between {precision scale : ℕ} {q : ℚ} {low high : ℤ}
    (hlow : (low : ℚ) ≤ q) (hhigh : q ≤ high)
    (hfits : -(10 : ℤ) ^ (precision - scale) < low ∧ high < (10 : ℤ) ^ (precision - scale)) :
    ∃ r, numericStore precision scale q = some r ∧ (low : ℚ) ≤ r ∧ r ≤ high := by
  have hge : (low : ℚ) ≤ numericRound scale q := le_numericRound hlow
  have hle : numericRound scale q ≤ high := numericRound_le hhigh
  have hfits₁ : -(10 : ℚ) ^ (precision - scale) < low := by exact_mod_cast hfits.1
  have hfits₂ : (high : ℚ) < 10 ^ (precision - scale) := by exact_mod_cast hfits.2
  refine ⟨numericRound scale q, ?_, hge, hle⟩
  rw [numericStore, if_pos]
  rw [abs_lt]
  constructor <;> linarith

end Nuvonode.Foundation
