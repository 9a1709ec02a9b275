import Mathlib.Algebra.Order.AbsoluteValue.Basic
import Mathlib.Algebra.Order.Field.Basic
import Mathlib.Algebra.Order.Field.Rat
import Mathlib.Tactic.Linarith
import Mathlib.Tactic.Ring

/-!
# Rounded arithmetic

An operation on floating-point numbers is the exact one with a rounding behind it. As long as nothing overflows, the
rounding is off by a share of the exact value, and by a constant where that value is too small for the share.
`Near x' x e`: a computed value is off by at most `e`; the rules say how such bounds pass through operations and
roundings.
-/

namespace PudimNetMon

/-- Roundings that are off by at most the share `u` of a value and the constant `η`, for values below `big`. -/
structure Rounds (u η big : ℚ) (rnd : ℚ → ℚ) : Prop where
  nonneg : 0 ≤ u
  bound : ∀ x, |x| < big → |rnd x - x| ≤ u * |x| + η

def Near (x' x e : ℚ) : Prop := |x' - x| ≤ e

variable {u η big x x' y y' e f m : ℚ} {rnd : ℚ → ℚ}

theorem Near.refl (x : ℚ) : Near x x 0 := by simp [Near]

theorem Near.mono (h : Near x' x e) (hle : e ≤ f) : Near x' x f := le_trans h hle

/-- What is near to something near. -/
theorem Near.trans (hx : Near x' y e) (hy : Near y x f) : Near x' x (e + f) := by
  unfold Near at *
  exact (abs_sub_le x' y x).trans (add_le_add hx hy)

/-- The errors of two terms add up. -/
theorem Near.add (hx : Near x' x e) (hy : Near y' y f) : Near (x' + y') (x + y) (e + f) := by
  unfold Near at *
  rw [add_sub_add_comm]
  exact (abs_add_le _ _).trans (add_le_add hx hy)

theorem Near.sub (hx : Near x' x e) (hy : Near y' y f) : Near (x' - y') (x - y) (e + f) := by
  unfold Near at *
  rw [sub_sub_sub_comm]
  exact (abs_sub _ _).trans (add_le_add hx hy)

theorem Near.mul_right (hx : Near x' x e) (c : ℚ) : Near (x' * c) (x * c) (e * |c|) := by
  unfold Near at *
  rw [← sub_mul, abs_mul]
  exact mul_le_mul_of_nonneg_right hx (abs_nonneg c)

theorem Near.div_right (hx : Near x' x e) (c : ℚ) : Near (x' / c) (x / c) (e / |c|) := by
  unfold Near at *
  rw [← sub_div, abs_div]
  exact div_le_div_of_nonneg_right hx (abs_nonneg c)

/-- How large something near a number of bounded size is. -/
theorem Near.abs_le (hx : Near x' x e) (hm : |x| ≤ m) : |x'| ≤ m + e := by
  unfold Near at hx
  have htri := abs_sub_abs_le_abs_sub x' x
  linarith

/-- The rounded value of something near a number of bounded size. -/
theorem Near.rounded (hr : Rounds u η big rnd) (hx : Near x' x e) (hm : |x| ≤ m) (hbig : m + e < big) :
    Near (rnd x') x (e + (u * (m + e) + η)) := by
  have hsize := hx.abs_le hm
  have hround := hr.bound x' (hsize.trans_lt hbig)
  have hshare := mul_le_mul_of_nonneg_left hsize hr.nonneg
  have htri := abs_sub_le (rnd x') x' x
  unfold Near at *
  linarith

end PudimNetMon
