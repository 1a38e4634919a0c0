import Mathlib.Algebra.Order.Floor.Ring
import Mathlib.Data.Rat.Floor
import Mathlib.Tactic.FieldSimp
import Mathlib.Tactic.Linarith
import Mathlib.Tactic.Positivity
import Mathlib.Tactic.Ring

/-! # Rounding to the nearest integer, halves away from zero

The rounding of a nonnegative fraction is a floor of naturals, so that its
bounds can be had from natural-number arithmetic.
-/

namespace GpuCluster.Foundation

def roundHalfAway (x : ℚ) : ℤ := if 0 ≤ x then ⌊x + 1 / 2⌋ else ⌈x - 1 / 2⌉

theorem abs_roundHalfAway_sub_le (x : ℚ) : |(roundHalfAway x : ℚ) - x| ≤ 1 / 2 := by
  rw [abs_le, roundHalfAway]
  split
  next =>
    have hlow := Int.sub_one_lt_floor (x + 1 / 2)
    have hhigh := Int.floor_le (x + 1 / 2)
    constructor <;> linarith
  next =>
    have hlow := Int.le_ceil (x - 1 / 2)
    have hhigh := Int.ceil_lt_add_one (x - 1 / 2)
    constructor <;> linarith

theorem roundHalfAway_mono {x y : ℚ} (hxy : x ≤ y) : roundHalfAway x ≤ roundHalfAway y := by
  simp only [roundHalfAway]
  split
  next hx =>
    rw [if_pos (hx.trans hxy)]
    exact Int.floor_le_floor (by linarith)
  next hx =>
    split
    -- a negative number rounds to at most 0, any other to at least 0
    next hy =>
      have hneg : ⌈x - 1 / 2⌉ ≤ 0 := Int.ceil_le.mpr (by push_cast; linarith)
      have hpos : 0 ≤ ⌊y + 1 / 2⌋ := Int.floor_nonneg.mpr (by linarith)
      exact hneg.trans hpos
    next => exact Int.ceil_le_ceil (by linarith)

/-- The nearest natural to a fraction, halves up. -/
def nearestNat (numerator denominator : ℕ) : ℕ :=
  (2 * numerator + denominator) / (2 * denominator)

theorem roundHalfAway_div (numerator : ℕ) {denominator : ℕ} (hpos : 0 < denominator) :
    roundHalfAway (numerator / denominator) = nearestNat numerator denominator := by
  have hnonneg : (0 : ℚ) ≤ numerator / denominator := by positivity
  have hne : (denominator : ℚ) ≠ 0 := by positivity
  have hsum : (numerator / denominator + 1 / 2 : ℚ) =
      ((2 * numerator + denominator : ℕ) : ℤ) / ((2 * denominator : ℕ) : ℚ) := by
    push_cast
    field_simp
  rw [roundHalfAway, if_pos hnonneg, hsum, Rat.floor_intCast_div_natCast]
  rfl

theorem abs_nearestNat_sub_le (numerator : ℕ) {denominator : ℕ} (hpos : 0 < denominator) :
    |(nearestNat numerator denominator : ℚ) - numerator / denominator| ≤ 1 / 2 := by
  have hround := abs_roundHalfAway_sub_le (numerator / denominator)
  rwa [roundHalfAway_div numerator hpos, Int.cast_natCast] at hround

/-- Errors of at most `ε` each add up to at most `ε` times their number. -/
theorem abs_sum_sub_sum_le {α : Type*} {approx exact : α → ℚ} {ε : ℚ} (items : List α)
    (herror : ∀ item ∈ items, |approx item - exact item| ≤ ε) :
    |(items.map approx).sum - (items.map exact).sum| ≤ items.length * ε := by
  induction items with
  | nil => simp
  | cons item rest ih =>
      have hitem := herror item (List.mem_cons_self ..)
      have hrest := ih fun other hother => herror other (List.mem_cons_of_mem _ hother)
      have hsplit : ((item :: rest).map approx).sum - ((item :: rest).map exact).sum =
          (approx item - exact item) + ((rest.map approx).sum - (rest.map exact).sum) := by
        simp only [List.map_cons, List.sum_cons]
        ring
      calc |((item :: rest).map approx).sum - ((item :: rest).map exact).sum|
          ≤ |approx item - exact item| + |(rest.map approx).sum - (rest.map exact).sum| := by
            rw [hsplit]
            exact abs_add_le _ _
        _ ≤ ε + rest.length * ε := add_le_add hitem hrest
        _ = (item :: rest).length * ε := by
            rw [List.length_cons]
            push_cast
            ring

/-- A part of a whole rounds to at most the whole. -/
theorem nearestNat_mul_le {part whole count : ℕ} (hpart : part ≤ whole) :
    nearestNat (part * count) whole ≤ count := by
  rcases Nat.eq_zero_or_pos whole with rfl | hpos
  · simp [nearestNat]
  · refine Nat.lt_succ_iff.mp ((Nat.div_lt_iff_lt_mul (by omega)).mpr ?_)
    have hmul : part * count ≤ whole * count := Nat.mul_le_mul_right count hpart
    calc 2 * (part * count) + whole ≤ 2 * (whole * count) + whole := by omega
      _ < (count + 1) * (2 * whole) := by ring_nf; omega

end GpuCluster.Foundation
