-- SUMMARY: How far the values of a finite family are from their mean and their median: bounds that hold for every family.
import NeuroPipeline.Lib.LeastSquares
import Mathlib.Algebra.Order.BigOperators.Ring.Finset
import Mathlib.Algebra.BigOperators.Fin
import Mathlib.Algebra.Order.Chebyshev
import Mathlib.Data.Fin.Rev

/-!
# Dispersion

How far one value can be from the mean is bounded by the number of values. The median is no farther from it than the root of the mean
square.
-/

namespace Dispersion

open LeastSquares (mean sum_eq_card_mul_mean)

variable {ι K : Type*} [Fintype ι] [Field K] [LinearOrder K] [IsStrictOrderedRing K]
  {x : ι → K} {j : ι}

/-- The sum of the squares of the deviations. -/
def spread (x : ι → K) : K := ∑ i, (x i - mean x) ^ 2

theorem spread_eq_zero_iff : spread x = 0 ↔ ∀ i, x i = mean x := by
  rw [spread, Finset.sum_eq_zero_iff_of_nonneg fun i _ => sq_nonneg (x i - mean x)]
  simp only [Finset.mem_univ, true_imp_iff, sq_eq_zero_iff, sub_eq_zero]

theorem sum_deviation [Nonempty ι] (x : ι → K) : ∑ i, (x i - mean x) = 0 := by
  rw [Finset.sum_sub_distrib, sum_eq_card_mul_mean, Finset.sum_const, Finset.card_univ,
    nsmul_eq_mul, sub_self]

/-! ## One value -/

section

variable [Nontrivial ι]

theorem card_sub_one_pos : (0 : K) < Fintype.card ι - 1 := by
  have hcard : (1 : K) < Fintype.card ι := by exact_mod_cast Fintype.one_lt_card (α := ι)
  exact sub_pos.mpr hcard

/-- What a deviation leaves for the others. -/
theorem spread_sub_deviation [DecidableEq ι] (x : ι → K) (j : ι) :
    (Fintype.card ι - 1) * spread x - Fintype.card ι * (x j - mean x) ^ 2 =
      (Fintype.card ι - 1) * ∑ i ∈ Finset.univ.erase j,
        (x i - mean x + (x j - mean x) / (Fintype.card ι - 1)) ^ 2 := by
  have hpos : (0 : K) < Fintype.card ι - 1 := card_sub_one_pos (ι := ι)
  have hcard : ((Finset.univ.erase j).card : K) = Fintype.card ι - 1 := by
    rw [Finset.card_erase_of_mem (Finset.mem_univ j), Finset.card_univ,
      Nat.cast_sub Fintype.card_pos, Nat.cast_one]
  have hsum : ∑ i ∈ Finset.univ.erase j, (x i - mean x) = -(x j - mean x) := by
    rw [Finset.sum_erase_eq_sub (Finset.mem_univ j), sum_deviation, zero_sub]
  have hsq : ∑ i ∈ Finset.univ.erase j, (x i - mean x) ^ 2 = spread x - (x j - mean x) ^ 2 :=
    Finset.sum_erase_eq_sub (Finset.mem_univ j)
  have hterm : ∀ i, (x i - mean x + (x j - mean x) / (Fintype.card ι - 1)) ^ 2 =
      (x i - mean x) ^ 2 + 2 * ((x j - mean x) / (Fintype.card ι - 1)) * (x i - mean x) +
        ((x j - mean x) / (Fintype.card ι - 1)) ^ 2 := by
    intro i
    ring
  simp only [hterm, Finset.sum_add_distrib, ← Finset.mul_sum, hsum, hsq, Finset.sum_const,
    nsmul_eq_mul, hcard]
  field_simp
  ring

/-- The square of a deviation is at most the mean square times the number of the others. -/
theorem card_mul_sq_deviation_le (x : ι → K) (j : ι) :
    Fintype.card ι * (x j - mean x) ^ 2 ≤ (Fintype.card ι - 1) * spread x := by
  classical
  have hpos : (0 : K) < Fintype.card ι - 1 := card_sub_one_pos (ι := ι)
  rw [← sub_nonneg, spread_sub_deviation]
  exact mul_nonneg hpos.le (Finset.sum_nonneg fun i _ => sq_nonneg _)

/-- This much only where all others are equal. -/
theorem eq_of_card_mul_sq_deviation
    (h : (Fintype.card ι - 1) * spread x ≤ Fintype.card ι * (x j - mean x) ^ 2) {i k : ι}
    (hi : i ≠ j) (hk : k ≠ j) : x i = x k := by
  classical
  have hpos : (0 : K) < Fintype.card ι - 1 := card_sub_one_pos (ι := ι)
  have hle := sub_nonpos.mpr h
  rw [spread_sub_deviation] at hle
  have hsum : ∑ i ∈ Finset.univ.erase j,
      (x i - mean x + (x j - mean x) / (Fintype.card ι - 1)) ^ 2 = 0 :=
    le_antisymm (nonpos_of_mul_nonpos_right hle hpos) (Finset.sum_nonneg fun i _ => sq_nonneg _)
  have hzero := (Finset.sum_eq_zero_iff_of_nonneg fun i _ => sq_nonneg _).mp hsum
  have hvalue : ∀ i, i ≠ j → x i = mean x - (x j - mean x) / (Fintype.card ι - 1) := by
    intro i hi
    have h₀ := sq_eq_zero_iff.mp (hzero i (Finset.mem_erase.mpr ⟨hi, Finset.mem_univ i⟩))
    linarith
  rw [hvalue i hi, hvalue k hk]

end

/-! ## All that are far -/

/-- As many elements as are at least `c` under `f`, times `c`, are no more than the whole sum. -/
theorem countP_mul_le_sum {α : Type*} (l : List α) {f : α → K} (hf : ∀ a, 0 ≤ f a) (c : K) :
    (l.countP (fun a => c ≤ f a) : K) * c ≤ (l.map f).sum := by
  induction l with
  | nil => simp
  | cons a l ih =>
      rw [List.countP_cons, List.map_cons, List.sum_cons]
      split
      · next h =>
          have hle : c ≤ f a := of_decide_eq_true h
          push_cast
          linarith
      · have hnonneg := hf a
        push_cast
        linarith

/-! ## Bounds and medians -/

theorem sum_sq_sub [Nonempty ι] (x : ι → K) (c : K) :
    ∑ i, (x i - c) ^ 2 = spread x + Fintype.card ι * (mean x - c) ^ 2 := by
  have hterm : ∀ i, (x i - c) ^ 2 =
      (x i - mean x) ^ 2 + 2 * (mean x - c) * (x i - mean x) + (mean x - c) ^ 2 := by
    intro i
    ring
  simp only [hterm, Finset.sum_add_distrib, ← Finset.mul_sum, sum_deviation, Finset.sum_const,
    Finset.card_univ, nsmul_eq_mul, spread]
  ring

/-- Between two bounds the mean square is at most that of half their distance. -/
theorem spread_le [Nonempty ι] {a b : K} (ha : ∀ i, a ≤ x i) (hb : ∀ i, x i ≤ b) :
    spread x ≤ Fintype.card ι * ((b - a) / 2) ^ 2 := by
  have hmiddle : spread x ≤ ∑ i, (x i - (a + b) / 2) ^ 2 := by
    rw [sum_sq_sub]
    exact le_add_of_nonneg_right (by positivity)
  have hterm : ∀ i, (x i - (a + b) / 2) ^ 2 ≤ ((b - a) / 2) ^ 2 := by
    intro i
    have hlower := ha i
    have hupper := hb i
    exact sq_le_sq' (by linarith) (by linarith)
  calc spread x ≤ ∑ i, (x i - (a + b) / 2) ^ 2 := hmiddle
    _ ≤ ∑ _i : ι, ((b - a) / 2) ^ 2 := Finset.sum_le_sum fun i _ => hterm i
    _ = Fintype.card ι * ((b - a) / 2) ^ 2 := by
      rw [Finset.sum_const, Finset.card_univ, nsmul_eq_mul]

/-- A number between every value in the lower half and its counterpart in the upper one. -/
def IsMedian {n : Nat} (x : Fin n → K) (m : K) : Prop :=
  ∀ i : Fin n, i ≤ i.rev → x i ≤ m ∧ m ≤ x i.rev

section

variable {n : Nat} {x : Fin n → K} {m : K}

theorem abs_sub_add_abs_sub_le (h : IsMedian x m) (c : K) (i : Fin n) :
    |x i - m| + |x i.rev - m| ≤ |x i - c| + |x i.rev - c| := by
  have hpair : ∀ i : Fin n, i ≤ i.rev →
      |x i - m| + |x i.rev - m| ≤ |x i - c| + |x i.rev - c| := by
    intro i hi
    obtain ⟨hlower, hupper⟩ := h i hi
    rw [abs_of_nonpos (sub_nonpos.mpr hlower), abs_of_nonneg (sub_nonneg.mpr hupper)]
    have hleft := neg_abs_le (x i - c)
    have hright := le_abs_self (x i.rev - c)
    linarith
  rcases le_total i i.rev with hi | hi
  · exact hpair i hi
  · have hrev := hpair i.rev (by rwa [Fin.rev_rev])
    rw [Fin.rev_rev] at hrev
    linarith

/-- No number is closer to all values than a median. -/
theorem sum_abs_sub_median_le (h : IsMedian x m) (c : K) : ∑ i, |x i - m| ≤ ∑ i, |x i - c| := by
  have hrev : ∀ c : K, ∑ i : Fin n, |x i.rev - c| = ∑ i, |x i - c| := fun c =>
    Equiv.sum_comp Fin.revPerm fun i => |x i - c|
  have hpairs := Finset.sum_le_sum fun i (_ : i ∈ Finset.univ) => abs_sub_add_abs_sub_le h c i
  rw [Finset.sum_add_distrib, Finset.sum_add_distrib, hrev, hrev] at hpairs
  linarith

/-- A median is no farther from the mean than the root of the mean square. -/
theorem card_mul_sq_mean_sub_median_le [Nonempty (Fin n)] (h : IsMedian x m) :
    n * (mean x - m) ^ 2 ≤ spread x := by
  have hn : (0 : K) < n := by
    have hpos : 0 < Fintype.card (Fin n) := Fintype.card_pos
    rw [Fintype.card_fin] at hpos
    exact_mod_cast hpos
  have hsum : (n : K) * (mean x - m) = ∑ i, (x i - m) := by
    rw [Finset.sum_sub_distrib, sum_eq_card_mul_mean, Finset.sum_const, Finset.card_univ,
      nsmul_eq_mul, Fintype.card_fin]
    ring
  have habs : |n * (mean x - m)| ≤ ∑ i, |x i - mean x| := by
    rw [hsum]
    exact (Finset.abs_sum_le_sum_abs _ _).trans (sum_abs_sub_median_le h (mean x))
  have hsq : (n * (mean x - m)) ^ 2 ≤ n * spread x := by
    calc (n * (mean x - m)) ^ 2 = |n * (mean x - m)| ^ 2 := (sq_abs _).symm
      _ ≤ (∑ i, |x i - mean x|) ^ 2 := by gcongr
      _ ≤ n * ∑ i, |x i - mean x| ^ 2 := by
        have hcard := sq_sum_le_card_mul_sum_sq (s := Finset.univ) (f := fun i => |x i - mean x|)
        rwa [Finset.card_univ, Fintype.card_fin] at hcard
      _ = n * spread x := by simp only [sq_abs, spread]
  have hdivide : (n : K) * (n * (mean x - m) ^ 2) ≤ n * spread x := by
    calc (n : K) * (n * (mean x - m) ^ 2) = (n * (mean x - m)) ^ 2 := by ring
      _ ≤ n * spread x := hsq
  exact le_of_mul_le_mul_left hdivide hn

end

end Dispersion
