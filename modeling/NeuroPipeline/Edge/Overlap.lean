-- SUMMARY: The overlap of two boxes in exact arithmetic: it is symmetric, and unchanged when both boxes are stretched and moved alike.
import NeuroPipeline.Edge.DetectionBox
import Mathlib.Tactic.Ring
import Mathlib.Tactic.Positivity

/-!
# Overlap

The formula of the source over the rationals.
-/

namespace CFloat

theorem max_rat (a b : ℚ) : CFloat.max a b = Max.max a b := by
  change (if a < b then b else a) = Max.max a b
  by_cases h : a < b
  · rw [if_pos h, max_eq_right h.le]
  · rw [if_neg h, max_eq_left (not_lt.mp h)]

theorem min_rat (a b : ℚ) : CFloat.min a b = Min.min a b := by
  change (if b < a then b else a) = Min.min a b
  by_cases h : b < a
  · rw [if_pos h, min_eq_right h.le]
  · rw [if_neg h, min_eq_left (not_lt.mp h)]

end CFloat

/-- Length of the part that two intervals share. -/
def sharedLength (a₀ a₁ b₀ b₁ : ℚ) : ℚ := max 0 (min a₁ b₁ - max a₀ b₀)

theorem sharedLength_comm (a₀ a₁ b₀ b₁ : ℚ) :
    sharedLength a₀ a₁ b₀ b₁ = sharedLength b₀ b₁ a₀ a₁ := by
  rw [sharedLength, sharedLength, min_comm, max_comm a₀]

theorem sharedLength_affine (x : ℚ) {w : ℚ} (hw : 0 ≤ w) (a₀ a₁ b₀ b₁ : ℚ) :
    sharedLength (x + a₀ * w) (x + a₁ * w) (x + b₀ * w) (x + b₁ * w) =
      sharedLength a₀ a₁ b₀ b₁ * w := by
  have hmin : min (x + a₁ * w) (x + b₁ * w) = x + min a₁ b₁ * w := by
    rw [min_add_add_left, min_mul_of_nonneg _ _ hw]
  have hmax : max (x + a₀ * w) (x + b₀ * w) = x + max a₀ b₀ * w := by
    rw [max_add_add_left, max_mul_of_nonneg _ _ hw]
  have hdiff : x + min a₁ b₁ * w - (x + max a₀ b₀ * w) = (min a₁ b₁ - max a₀ b₀) * w := by ring
  rw [sharedLength, hmin, hmax, hdiff, sharedLength, max_mul_of_nonneg _ _ hw, zero_mul]

/-- Intersection over union of a shared area and the areas of two boxes. -/
def ratio (shared areaA areaB : ℚ) : ℚ :=
  if areaA + areaB - shared ≤ 0 then 0 else shared / (areaA + areaB - shared)

theorem intersectionOverUnion_rat (ax0 ay0 ax1 ay1 bx0 by0 bx1 by1 : ℚ) :
    intersectionOverUnion ax0 ay0 ax1 ay1 bx0 by0 bx1 by1 =
      ratio (sharedLength ax0 ax1 bx0 bx1 * sharedLength ay0 ay1 by0 by1)
        ((ax1 - ax0) * (ay1 - ay0)) ((bx1 - bx0) * (by1 - by0)) := by
  simp only [intersectionOverUnion, CFloat.max_rat, CFloat.min_rat]
  rfl

theorem intersectionOverUnion_comm (ax0 ay0 ax1 ay1 bx0 by0 bx1 by1 : ℚ) :
    intersectionOverUnion ax0 ay0 ax1 ay1 bx0 by0 bx1 by1 =
      intersectionOverUnion bx0 by0 bx1 by1 ax0 ay0 ax1 ay1 := by
  rw [intersectionOverUnion_rat, intersectionOverUnion_rat, sharedLength_comm ax0,
    sharedLength_comm ay0, ratio, ratio, add_comm ((ax1 - ax0) * _)]

/-- The unit of area does not matter. -/
theorem ratio_mul {k : ℚ} (hk : 0 < k) (shared areaA areaB : ℚ) :
    ratio (shared * k) (areaA * k) (areaB * k) = ratio shared areaA areaB := by
  have hunion : areaA * k + areaB * k - shared * k = (areaA + areaB - shared) * k := by ring
  rw [ratio, ratio, hunion, mul_div_mul_right _ _ hk.ne']
  refine if_congr ⟨fun h => ?_, fun h => mul_nonpos_of_nonpos_of_nonneg h hk.le⟩ rfl rfl
  exact not_lt.mp fun hpos => absurd h (not_le.mpr (mul_pos hpos hk))

/-- Two boxes that are stretched and moved in the same way overlap as before. -/
theorem intersectionOverUnion_affine (x y : ℚ) {w h : ℚ} (hw : 0 < w) (hh : 0 < h)
    (ax0 ay0 ax1 ay1 bx0 by0 bx1 by1 : ℚ) :
    intersectionOverUnion (x + ax0 * w) (y + ay0 * h) (x + ax1 * w) (y + ay1 * h)
        (x + bx0 * w) (y + by0 * h) (x + bx1 * w) (y + by1 * h) =
      intersectionOverUnion ax0 ay0 ax1 ay1 bx0 by0 bx1 by1 := by
  have harea (x₀ y₀ x₁ y₁ : ℚ) : (x + x₁ * w - (x + x₀ * w)) * (y + y₁ * h - (y + y₀ * h)) =
      (x₁ - x₀) * (y₁ - y₀) * (w * h) := by ring
  rw [intersectionOverUnion_rat, intersectionOverUnion_rat, sharedLength_affine x hw.le,
    sharedLength_affine y hh.le, harea, harea, mul_mul_mul_comm, ratio_mul (mul_pos hw hh)]
