-- SUMMARY: Conversions of real numbers to unsigned integer types, which drop what follows the point.
import NeuroPipeline.Lib.BinaryFloat
import Mathlib.Algebra.Order.Floor.Semiring
import Mathlib.Data.Rat.Floor

/-!
# Conversion to an unsigned type

The conversion drops what follows the point. A number whose whole part is not one of the
type leaves the rest of the program undefined.
-/

def toUnsigned (bits : Nat) (q : ℚ) : Option Nat :=
  let whole := q.num.tdiv q.den
  if 0 ≤ whole ∧ whole < 2 ^ bits then some whole.toNat else none

variable {bits : Nat} {q : ℚ}

theorem toUnsigned_of_nonneg (hq : 0 ≤ q) :
    toUnsigned bits q = if ⌊q⌋₊ < 2 ^ bits then some ⌊q⌋₊ else none := by
  have hwhole : q.num.tdiv q.den = ⌊q⌋ := by
    rw [Rat.floor_def', Int.tdiv_eq_ediv_of_nonneg (Rat.num_nonneg.mpr hq)]
  have hfloor : ((⌊q⌋₊ : Nat) : Int) = ⌊q⌋ := Int.natCast_floor_eq_floor hq
  have hbound : ⌊q⌋ < 2 ^ bits ↔ ⌊q⌋₊ < 2 ^ bits := by
    rw [← hfloor]
    exact_mod_cast Iff.rfl
  simp only [toUnsigned, hwhole, Int.floor_nonneg.mpr hq, true_and, hbound]
  rfl

/-- A number below one that the type has is converted to its floor. -/
theorem toUnsigned_of_le {n : Nat} (hq : 0 ≤ q) (hle : q ≤ n) (hn : n < 2 ^ bits) :
    toUnsigned bits q = some ⌊q⌋₊ := by
  have hfloor : ⌊q⌋₊ ≤ n := by simpa using Nat.floor_mono hle
  rw [toUnsigned_of_nonneg hq, if_pos (hfloor.trans_lt hn)]

/-- The whole part, which is 0 for a number between -1 and 0. -/
theorem eq_floor_of_toUnsigned {n : Nat} (h : toUnsigned bits q = some n) : n = ⌊q⌋₊ := by
  rcases le_or_gt 0 q with hq | hq
  · rw [toUnsigned_of_nonneg hq] at h
    split at h
    · exact (Option.some.inj h).symm
    · cases h
  · have hneg : 0 ≤ (-q.num).tdiv q.den :=
      Int.tdiv_nonneg (Int.neg_nonneg.mpr (Rat.num_neg.mpr hq).le) (Int.natCast_nonneg _)
    have hwhole : q.num.tdiv q.den ≤ 0 := by
      rw [Int.neg_tdiv] at hneg
      omega
    simp only [toUnsigned] at h
    split at h
    · next hrange =>
      rw [Nat.floor_of_nonpos hq.le, ← Option.some.inj h, le_antisymm hwhole hrange.1]
      rfl
    · cases h

/-- The number that a value of a numeric type stands for, unless it is infinite or a NaN. -/
class HasValue (F : Type) where
  value : F → Option ℚ

instance : HasValue ℚ := ⟨some⟩

instance {f : FloatFormat} : HasValue (BinaryFloat f) where
  value
    | .finite q _ => some q
    | .inf _ | .nan => none
