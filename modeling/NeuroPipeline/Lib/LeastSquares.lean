-- SUMMARY: The least-squares line through finitely many points over an ordered field, and how well it fits them.
import Mathlib.Algebra.BigOperators.Field
import Mathlib.Algebra.BigOperators.Ring.Finset
import Mathlib.Algebra.Order.BigOperators.Group.Finset
import Mathlib.Algebra.Order.BigOperators.Ring.Finset
import Mathlib.Algebra.Order.Field.Basic
import Mathlib.Tactic.FieldSimp
import Mathlib.Tactic.Linarith
import Mathlib.Tactic.Ring

/-!
# Least squares

Everything follows from one decomposition: the squares of the residuals of any line are
those of the deviations, minus what the slope explains, plus the square of the distance at
the mean.
-/

namespace LeastSquares

variable {ι K : Type*} [Fintype ι] [Field K]

def mean (x : ι → K) : K := (∑ i, x i) / Fintype.card ι

/-- The sum of the products of the deviations. -/
def covariation (x y : ι → K) : K := ∑ i, (x i - mean x) * (y i - mean y)

/-- The sum of the squares of the residuals of a line. -/
def residual (x y : ι → K) (a b : K) : K := ∑ i, (y i - (a * x i + b)) ^ 2

def slope (x y : ι → K) : K := covariation x y / covariation x x

def intercept (x y : ι → K) : K := mean y - slope x y * mean x

variable [LinearOrder K]

/-- The share of the variation of `y` that the line explains. -/
def rSquared (x y : ι → K) : K :=
  if 0 < covariation y y then 1 - residual x y (slope x y) (intercept x y) / covariation y y else 0

variable [IsStrictOrderedRing K] {x y : ι → K}

theorem sum_eq_card_mul_mean [Nonempty ι] (x : ι → K) :
    ∑ i, x i = Fintype.card ι * mean x := by
  have hcard : (Fintype.card ι : K) ≠ 0 := Nat.cast_ne_zero.mpr Fintype.card_ne_zero
  rw [mean, mul_div_cancel₀ _ hcard]

theorem covariation_self_nonneg (x : ι → K) : 0 ≤ covariation x x :=
  Finset.sum_nonneg fun i _ => mul_self_nonneg (x i - mean x)

theorem covariation_self_eq_zero_iff : covariation x x = 0 ↔ ∀ i, x i = mean x := by
  rw [covariation, Finset.sum_eq_zero_iff_of_nonneg fun i _ => mul_self_nonneg (x i - mean x)]
  simp only [Finset.mem_univ, true_imp_iff, mul_self_eq_zero, sub_eq_zero]

/-- Different places for different points are not all at the mean. -/
theorem covariation_self_pos [Nontrivial ι] (hx : Function.Injective x) : 0 < covariation x x := by
  refine lt_of_le_of_ne (covariation_self_nonneg x) ?_
  intro hzero
  obtain ⟨i, j, hne⟩ := exists_pair_ne ι
  have hmean := covariation_self_eq_zero_iff.mp hzero.symm
  exact hne (hx ((hmean i).trans (hmean j).symm))

/-! ## The decomposition -/

theorem residual_eq [Nonempty ι] (x y : ι → K) (a b : K) :
    residual x y a b = covariation y y - 2 * a * covariation x y + a ^ 2 * covariation x x +
      Fintype.card ι * (mean y - a * mean x - b) ^ 2 := by
  have hterm : ∀ i, (y i - (a * x i + b)) ^ 2 =
      (y i - mean y) * (y i - mean y) - 2 * a * ((x i - mean x) * (y i - mean y)) +
        a ^ 2 * ((x i - mean x) * (x i - mean x)) + (mean y - a * mean x - b) ^ 2 +
        2 * (mean y - a * mean x - b) * (y i - mean y) -
        2 * a * (mean y - a * mean x - b) * (x i - mean x) := by
    intro i
    ring
  simp only [residual, hterm, Finset.sum_add_distrib, Finset.sum_sub_distrib, ← Finset.mul_sum,
    Finset.sum_const, Finset.card_univ, nsmul_eq_mul, sum_eq_card_mul_mean, covariation]
  ring

/-- With a slope the fitted line passes through the mean. -/
theorem residual_fitted [Nonempty ι] (hx : 0 < covariation x x) :
    residual x y (slope x y) (intercept x y) =
      covariation y y - slope x y ^ 2 * covariation x x := by
  have hslope : covariation x y = slope x y * covariation x x :=
    (div_mul_cancel₀ _ hx.ne').symm
  rw [residual_eq, hslope, intercept]
  ring

theorem residual_nonneg (x y : ι → K) (a b : K) : 0 ≤ residual x y a b :=
  Finset.sum_nonneg fun i _ => sq_nonneg (y i - (a * x i + b))

theorem residual_eq_zero_iff {a b : K} : residual x y a b = 0 ↔ ∀ i, y i = a * x i + b := by
  rw [residual, Finset.sum_eq_zero_iff_of_nonneg fun i _ => sq_nonneg (y i - (a * x i + b))]
  simp only [Finset.mem_univ, true_imp_iff, sq_eq_zero_iff, sub_eq_zero]

/-! ## Optimality -/

/-- No line has smaller residuals. -/
theorem residual_fitted_le [Nonempty ι] (hx : 0 < covariation x x) (a b : K) :
    residual x y (slope x y) (intercept x y) ≤ residual x y a b := by
  have hslope : covariation x y = slope x y * covariation x x :=
    (div_mul_cancel₀ _ hx.ne').symm
  have hrest : residual x y a b - residual x y (slope x y) (intercept x y) =
      covariation x x * (a - slope x y) ^ 2 +
        Fintype.card ι * (mean y - a * mean x - b) ^ 2 := by
    rw [residual_fitted hx, residual_eq, hslope]
    ring
  have hnonneg : 0 ≤ covariation x x * (a - slope x y) ^ 2 +
      Fintype.card ι * (mean y - a * mean x - b) ^ 2 := by positivity
  rw [← hrest] at hnonneg
  exact sub_nonneg.mp hnonneg

/-! ## The share that is explained -/

theorem rSquared_nonneg [Nonempty ι] (hx : 0 < covariation x x) : 0 ≤ rSquared x y := by
  rw [rSquared]
  split
  next hy =>
      rw [sub_nonneg, div_le_one hy, residual_fitted hx]
      have hexplained : 0 ≤ slope x y ^ 2 * covariation x x := by positivity
      linarith
  next => exact le_refl 0

theorem rSquared_le_one (x y : ι → K) : rSquared x y ≤ 1 := by
  rw [rSquared]
  split
  next hy =>
      have hshare := div_nonneg (residual_nonneg x y (slope x y) (intercept x y)) hy.le
      linarith
  next => exact zero_le_one

theorem rSquared_eq_one_iff : rSquared x y = 1 ↔
    0 < covariation y y ∧ residual x y (slope x y) (intercept x y) = 0 := by
  rw [rSquared]
  split
  next hy => rw [sub_eq_self, div_eq_zero_iff, or_iff_left hy.ne', and_iff_right hy]
  next hy => exact iff_of_false zero_ne_one fun h => hy h.1

/-- The points lie on a line that is not level. -/
def OnSlope (x y : ι → K) : Prop := ∃ a b, a ≠ 0 ∧ ∀ i, y i = a * x i + b

/-- Everything is explained exactly when the points lie on such a line. -/
theorem rSquared_eq_one_iff_onSlope [Nonempty ι] (hx : 0 < covariation x x) :
    rSquared x y = 1 ↔ OnSlope x y := by
  rw [rSquared_eq_one_iff]
  constructor
  · rintro ⟨hy, hfit⟩
    refine ⟨slope x y, intercept x y, ?_, residual_eq_zero_iff.mp hfit⟩
    intro hlevel
    rw [residual_fitted hx, hlevel] at hfit
    linarith
  · rintro ⟨a, b, ha, hline⟩
    have hzero : residual x y a b = 0 := residual_eq_zero_iff.mpr hline
    have hfit : residual x y (slope x y) (intercept x y) = 0 :=
      le_antisymm (hzero ▸ residual_fitted_le hx a b) (residual_nonneg x y _ _)
    refine ⟨lt_of_le_of_ne (covariation_self_nonneg y) ?_, hfit⟩
    -- a level fit would leave the residuals of the line's own slope
    intro hflat
    rw [residual_fitted hx, ← hflat, zero_sub, neg_eq_zero] at hfit
    have hslope : slope x y = 0 := by
      rcases mul_eq_zero.mp hfit with h | h
      · exact pow_eq_zero_iff (by norm_num) |>.mp h
      · exact absurd h hx.ne'
    have hcross : covariation x y = 0 := by
      rw [← div_mul_cancel₀ (covariation x y) hx.ne', ← slope, hslope, zero_mul]
    rw [residual_eq, ← hflat, hcross] at hzero
    have hpos : 0 < a ^ 2 * covariation x x := by positivity
    have hrest : 0 ≤ Fintype.card ι * (mean y - a * mean x - b) ^ 2 := by positivity
    linarith

end LeastSquares
