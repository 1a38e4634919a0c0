import Mathlib.Algebra.Order.Field.Power
import Mathlib.Data.Int.Log
import Mathlib.Data.Rat.Floor
import Mathlib.Tactic.FieldSimp
import Mathlib.Tactic.Linarith
import Mathlib.Tactic.Positivity

/-! # Rounding to a binary significand

Round to nearest, ties to even, to a fixed number of significant bits, over the
rationals and with no bound on the exponent: what IEEE arithmetic computes as
long as no result overflows or is subnormal.
-/

namespace GpuCluster.Foundation

/-- The nearest integer, halves to the even one. -/
def roundHalfEven (x : ℚ) : ℤ :=
  if Int.fract x < 1 / 2 then ⌊x⌋
  else if 1 / 2 < Int.fract x then ⌊x⌋ + 1
  else if ⌊x⌋ % 2 = 0 then ⌊x⌋ else ⌊x⌋ + 1

/-- Unit in the last place of a number with so many significant bits. -/
def ulp (bits : ℕ) (x : ℚ) : ℚ := 2 ^ (Int.log 2 |x| + 1 - bits)

def roundBinary (bits : ℕ) (x : ℚ) : ℚ := roundHalfEven (x / ulp bits x) * ulp bits x

theorem floor_le_roundHalfEven (x : ℚ) : ⌊x⌋ ≤ roundHalfEven x := by
  rw [roundHalfEven]
  split_ifs <;> omega

theorem roundHalfEven_le_floor (x : ℚ) : roundHalfEven x ≤ ⌊x⌋ + 1 := by
  rw [roundHalfEven]
  split_ifs <;> omega

@[simp] theorem roundHalfEven_intCast (n : ℤ) : roundHalfEven n = n := by
  simp [roundHalfEven]

theorem roundHalfEven_mono {x y : ℚ} (hxy : x ≤ y) : roundHalfEven x ≤ roundHalfEven y := by
  rcases (Int.floor_mono hxy).lt_or_eq with hlt | heq
  · calc roundHalfEven x ≤ ⌊x⌋ + 1 := roundHalfEven_le_floor x
      _ ≤ ⌊y⌋ := hlt
      _ ≤ roundHalfEven y := floor_le_roundHalfEven y
  -- with one integral part, the larger number has the larger fraction
  · have hfract : Int.fract x ≤ Int.fract y := by
      rw [Int.fract, Int.fract, heq]
      linarith
    simp only [roundHalfEven, heq]
    split_ifs <;> first | omega | linarith

section Binary

variable {bits : ℕ} {x y : ℚ}

theorem ulp_pos (bits : ℕ) (x : ℚ) : 0 < ulp bits x := zpow_pos (by norm_num) _

@[simp] theorem roundBinary_zero : roundBinary bits 0 = 0 := by
  have hzero : roundHalfEven 0 = 0 := roundHalfEven_intCast 0
  simp [roundBinary, hzero]

theorem roundBinary_nonneg (hx : 0 ≤ x) : 0 ≤ roundBinary bits x := by
  have hquot : (0 : ℚ) ≤ x / ulp bits x := div_nonneg hx (ulp_pos bits x).le
  have hround : 0 ≤ roundHalfEven (x / ulp bits x) :=
    (Int.floor_nonneg.mpr hquot).trans (floor_le_roundHalfEven _)
  exact mul_nonneg (Int.cast_nonneg hround) (ulp_pos bits x).le

/-- Rounding stays below the next power of two. -/
theorem roundBinary_le_zpow (hx : 0 < x) : roundBinary bits x ≤ 2 ^ (Int.log 2 x + 1) := by
  have hulp : ulp bits x = 2 ^ (Int.log 2 x + 1 - bits) := by rw [ulp, abs_of_pos hx]
  have htop : (2 : ℚ) ^ (Int.log 2 x + 1) = ((2 ^ bits : ℕ) : ℤ) * ulp bits x := by
    rw [hulp, zpow_sub₀ (by norm_num), zpow_natCast]
    push_cast
    field_simp
  have hquot : x / ulp bits x ≤ ((2 ^ bits : ℕ) : ℤ) := by
    rw [div_le_iff₀ (ulp_pos bits x), ← htop]
    exact (Int.lt_zpow_succ_log_self (by norm_num) x).le
  have hround := roundHalfEven_mono hquot
  rw [roundHalfEven_intCast] at hround
  rw [htop, roundBinary]
  exact mul_le_mul_of_nonneg_right (Int.cast_le.mpr hround) (ulp_pos bits x).le

/-- Rounding stays above the last power of two, if there is a bit for it. -/
theorem zpow_le_roundBinary (hbits : 0 < bits) (hx : 0 < x) :
    2 ^ Int.log 2 x ≤ roundBinary bits x := by
  have hulp : ulp bits x = 2 ^ (Int.log 2 x + 1 - bits) := by rw [ulp, abs_of_pos hx]
  have hbottom : (2 : ℚ) ^ Int.log 2 x = ((2 ^ (bits - 1) : ℕ) : ℤ) * ulp bits x := by
    rw [hulp, Int.cast_natCast, Nat.cast_pow, Nat.cast_ofNat, ← zpow_natCast,
      ← zpow_add₀ (by norm_num)]
    congr 1
    omega
  have hquot : (((2 ^ (bits - 1) : ℕ) : ℤ) : ℚ) ≤ x / ulp bits x := by
    rw [le_div_iff₀ (ulp_pos bits x), ← hbottom]
    exact Int.zpow_log_le_self (by norm_num) hx
  have hround := roundHalfEven_mono hquot
  rw [roundHalfEven_intCast] at hround
  rw [hbottom, roundBinary]
  exact mul_le_mul_of_nonneg_right (Int.cast_le.mpr hround) (ulp_pos bits x).le

/-- Rounding is monotone: within a binade as the integers are, and from one to a
later one past a power of two. -/
theorem roundBinary_mono (hbits : 0 < bits) (hx : 0 ≤ x) (hxy : x ≤ y) :
    roundBinary bits x ≤ roundBinary bits y := by
  rcases hx.eq_or_lt with rfl | hpos
  · rw [roundBinary_zero]
    exact roundBinary_nonneg hxy
  have hypos : 0 < y := hpos.trans_le hxy
  rcases (Int.log_mono_right (b := 2) hpos hxy).lt_or_eq with hlt | heq
  · calc roundBinary bits x ≤ 2 ^ (Int.log 2 x + 1) := roundBinary_le_zpow hpos
      _ ≤ 2 ^ Int.log 2 y := zpow_le_zpow_right₀ (by norm_num) hlt
      _ ≤ roundBinary bits y := zpow_le_roundBinary hbits hypos
  · have hulp : ulp bits x = ulp bits y := by
      rw [ulp, ulp, abs_of_pos hpos, abs_of_pos hypos, heq]
    rw [roundBinary, roundBinary, hulp]
    have hround := roundHalfEven_mono (div_le_div_of_nonneg_right hxy (ulp_pos bits y).le)
    exact mul_le_mul_of_nonneg_right (Int.cast_le.mpr hround) (ulp_pos bits y).le

end Binary

end GpuCluster.Foundation
