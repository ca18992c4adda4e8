-- SUMMARY: The line of `detect_trend` in exact arithmetic: it is the least-squares line of the series.
import NeuroPipeline.Central.TimeSeriesEngine
import NeuroPipeline.Lib.LeastSquares
import Mathlib.Algebra.BigOperators.Fin

/-!
# Trend line

The regression of `detect_trend` with rational numbers for the floats. The sums of the
source run over the positions of the values; they are sums of the library over `Fin`.
-/

namespace TimeSeriesEngine

/-- A result with its line, which the source drops. -/
structure ExactTrend where
  direction : TrendDirection
  slope : ℚ
  /-- `none` where no line is computed -/
  intercept : Option ℚ
  rSquared : ℚ
  sampleCount : Nat
  deriving DecidableEq

def exactDirection (slope : ℚ) : TrendDirection :=
  if |slope| < 0.01 then .stable
  else if 0 < slope then .increasing
  else .decreasing

/-- The positions of the values, with the values. -/
def placed (values : List ℚ) : List (ℚ × ℚ) :=
  ((List.range values.length).map fun i : Nat => (i : ℚ)).zip values

/-- `ss_res` for any line. -/
def sumSquaredResiduals (values : List ℚ) (slope intercept : ℚ) : ℚ :=
  ((placed values).map fun p => (p.2 - (slope * p.1 + intercept)) ^ 2).sum

/-- `detect_trend` on the values that are read. -/
def exactTrend (values : List ℚ) : Option ExactTrend :=
  if values.length < 3 then none
  else
    let n := values.length
    let xs := (List.range n).map fun i : Nat => (i : ℚ)
    let xMean := xs.sum / n
    let yMean := values.sum / n
    let ssXy := ((placed values).map fun p => (p.1 - xMean) * (p.2 - yMean)).sum
    let ssXx := (xs.map fun x => (x - xMean) ^ 2).sum
    if ssXx = 0 then
      some { direction := .stable, slope := 0, intercept := none, rSquared := 0, sampleCount := n }
    else
      let slope := ssXy / ssXx
      let intercept := yMean - slope * xMean
      let ssRes := sumSquaredResiduals values slope intercept
      let ssTot := (values.map fun v => (v - yMean) ^ 2).sum
      let rSquared := if 0 < ssTot then 1 - ssRes / ssTot else 0
      some { direction := exactDirection slope, slope := slope, intercept := some intercept,
             rSquared := rSquared, sampleCount := n }

/-! ## Sums over the positions -/

def position (n : Nat) (i : Fin n) : ℚ := (i : Nat)

theorem position_injective (n : Nat) : Function.Injective (position n) := by
  intro i j h
  exact Fin.ext (Nat.cast_injective h)

theorem positions_eq (n : Nat) :
    (List.range n).map (fun i : Nat => (i : ℚ)) = List.ofFn (position n) := by
  apply List.ext_getElem
  · simp
  · intro i hi hi'
    simp [position]

theorem placed_eq (values : List ℚ) :
    placed values = List.ofFn fun i : Fin values.length => (position _ i, values.get i) := by
  apply List.ext_getElem
  · simp [placed]
  · intro i hi hi'
    simp [placed, position]

theorem sum_placed (values : List ℚ) (f : ℚ × ℚ → ℚ) :
    ((placed values).map f).sum = ∑ i, f (position values.length i, values.get i) := by
  rw [placed_eq, List.map_ofFn, List.sum_ofFn]
  rfl

theorem sum_positions (n : Nat) (f : ℚ → ℚ) :
    (((List.range n).map fun i : Nat => (i : ℚ)).map f).sum =
      ∑ i, f (position n i) := by
  rw [positions_eq, List.map_ofFn, List.sum_ofFn]
  rfl

theorem sum_values (values : List ℚ) (f : ℚ → ℚ) :
    (values.map f).sum = ∑ i, f (values.get i) := by
  conv_lhs => rw [← List.ofFn_get values]
  rw [List.map_ofFn, List.sum_ofFn]
  rfl

/-! ## The line -/

open LeastSquares (mean covariation residual)

theorem mean_position (n : Nat) :
    ((List.range n).map fun i : Nat => (i : ℚ)).sum / n = mean (position n) := by
  have hsum := sum_positions n id
  rw [List.map_id] at hsum
  rw [hsum, mean, Fintype.card_fin]
  rfl

theorem mean_values (values : List ℚ) : values.sum / values.length = mean values.get := by
  have hsum := sum_values values id
  rw [List.map_id] at hsum
  rw [hsum, mean, Fintype.card_fin]
  rfl

theorem sumSquaredResiduals_eq (values : List ℚ) (a b : ℚ) :
    sumSquaredResiduals values a b = residual (position values.length) values.get a b :=
  sum_placed values fun p => (p.2 - (a * p.1 + b)) ^ 2

theorem covariation_position_pos {n : Nat} (h : 3 ≤ n) :
    0 < covariation (position n) (position n) := by
  have hnontrivial : Nontrivial (Fin n) := Fin.nontrivial_iff_two_le.mpr (by omega)
  exact LeastSquares.covariation_self_pos (position_injective n)

theorem exactTrend_eq {values : List ℚ} (h : 3 ≤ values.length) :
    exactTrend values = some
      { direction := exactDirection (LeastSquares.slope (position values.length) values.get)
        slope := LeastSquares.slope (position values.length) values.get
        intercept := some (LeastSquares.intercept (position values.length) values.get)
        rSquared := LeastSquares.rSquared (position values.length) values.get
        sampleCount := values.length } := by
  have hxy : ((placed values).map fun p =>
      (p.1 - mean (position values.length)) * (p.2 - mean values.get)).sum =
        covariation (position values.length) values.get :=
    sum_placed values fun p => (p.1 - mean (position values.length)) * (p.2 - mean values.get)
  have hxx : (((List.range values.length).map fun i : Nat => (i : ℚ)).map fun x =>
      (x - mean (position values.length)) ^ 2).sum =
        covariation (position values.length) (position values.length) := by
    rw [sum_positions]
    simp only [covariation, sq]
  have hyy : (values.map fun v => (v - mean values.get) ^ 2).sum =
      covariation values.get values.get := by
    rw [sum_values]
    simp only [covariation, sq]
  -- three positions differ, so the branch without a line is not taken
  simp only [exactTrend, if_neg (not_lt.mpr h), mean_position, mean_values, hxy, hxx, hyy,
    if_neg (covariation_position_pos h).ne', sumSquaredResiduals_eq]
  rfl

/-- The values lie on a line over their positions, and are not all the same. -/
def OnSlopingLine (values : List ℚ) : Prop :=
  ∃ a b : ℚ, a ≠ 0 ∧ ∀ p ∈ placed values, p.2 = a * p.1 + b

theorem onSlopingLine_iff (values : List ℚ) :
    OnSlopingLine values ↔ LeastSquares.OnSlope (position values.length) values.get := by
  simp only [OnSlopingLine, LeastSquares.OnSlope, placed_eq, List.forall_mem_ofFn_iff]

/-- The line of a trend has the least residuals of all, and explains everything exactly when
the values lie on a line that is not level. -/
theorem exactTrend_leastSquares {values : List ℚ} (h : 3 ≤ values.length) :
    ∃ trend intercept, exactTrend values = some trend ∧ trend.intercept = some intercept ∧
      (∀ a b, sumSquaredResiduals values trend.slope intercept ≤ sumSquaredResiduals values a b) ∧
      0 ≤ trend.rSquared ∧ trend.rSquared ≤ 1 ∧
      (trend.rSquared = 1 ↔ OnSlopingLine values) := by
  have hpos := covariation_position_pos h
  have hnonempty : Nonempty (Fin values.length) := ⟨⟨0, by omega⟩⟩
  refine ⟨_, _, exactTrend_eq h, rfl, ?_, LeastSquares.rSquared_nonneg hpos,
    LeastSquares.rSquared_le_one _ _, ?_⟩
  · intro a b
    rw [sumSquaredResiduals_eq, sumSquaredResiduals_eq]
    exact LeastSquares.residual_fitted_le hpos a b
  · rw [onSlopingLine_iff]
    exact LeastSquares.rSquared_eq_one_iff_onSlope hpos

theorem exactTrend_leastSquares_risen :
    ∃ trend intercept, exactTrend [1, 2, 4] = some trend ∧ trend.intercept = some intercept ∧
      (∀ a b, sumSquaredResiduals [1, 2, 4] trend.slope intercept ≤
        sumSquaredResiduals [1, 2, 4] a b) ∧
      0 ≤ trend.rSquared ∧ trend.rSquared ≤ 1 ∧
      (trend.rSquared = 1 ↔ OnSlopingLine [1, 2, 4]) :=
  exactTrend_leastSquares (by decide)

end TimeSeriesEngine
