import Mathlib.Algebra.Order.Floor.Semifield

/-!
# Rounding down to a grid

A grid has an origin and a step, and its points are whole numbers of steps above the
origin. The *code* of a value is the number of its last point that is not above the
value. So the point of the code is at most a step below the value, codes follow the
order of the values, and a point has its own number as its code.
-/

/-- Points at equal distances. -/
structure Grid (K : Type) [Field K] [LinearOrder K] [IsStrictOrderedRing K] where
  origin : K
  step : K
  /-- The points go up. -/
  step_pos : 0 < step

namespace Grid

variable {K : Type} [Field K] [LinearOrder K] [IsStrictOrderedRing K]

/-- The point that is `n` steps above the origin. -/
def point (g : Grid K) (n : ℕ) : K := g.origin + n * g.step

theorem point_succ (g : Grid K) (n : ℕ) : g.point (n + 1) = g.point n + g.step := by
  unfold point
  rw [Nat.cast_succ, add_mul, one_mul, add_assoc]

theorem point_le_iff (g : Grid K) (n : ℕ) (v : K) : g.point n ≤ v ↔ (n : K) ≤ (v - g.origin) / g.step := by
  rw [le_div_iff₀ g.step_pos, le_sub_iff_add_le, add_comm]
  rfl

theorem lt_point_iff (g : Grid K) (n : ℕ) (v : K) : v < g.point n ↔ (v - g.origin) / g.step < n := by
  rw [← not_le, point_le_iff, not_le]

variable [FloorSemiring K] (g : Grid K) {v w : K}

/-- How many whole steps a value is above the origin. -/
def code (v : K) : ℕ := ⌊(v - g.origin) / g.step⌋₊

/-- **The point of the code is not above the value.** -/
theorem point_code_le (h : g.origin ≤ v) : g.point (g.code v) ≤ v := by
  rw [point_le_iff]
  exact Nat.floor_le (div_nonneg (sub_nonneg.mpr h) g.step_pos.le)

/-- **It is less than a step below.** -/
theorem lt_point_code_add (v : K) : v < g.point (g.code v) + g.step := by
  rw [← point_succ, lt_point_iff, Nat.cast_succ]
  exact Nat.lt_floor_add_one _

theorem code_mono (h : v ≤ w) : g.code v ≤ g.code w :=
  Nat.floor_mono (div_le_div_of_nonneg_right (sub_le_sub_right h _) g.step_pos.le)

/-- A point has its own number as its code. -/
theorem code_point (n : ℕ) : g.code (g.point n) = n := by
  unfold code point
  rw [add_sub_cancel_left, mul_div_cancel_right₀ _ g.step_pos.ne', Nat.floor_natCast]

end Grid
