-- SUMMARY: What C++ code uses of its number types: operations of a floating-point type, wrapping of int.
import NeuroPipeline.Lib.BinaryFloat

/-!
# Number types of C++

Code that computes with `float` is written over any type with these operations:
single precision, or the rationals where arithmetic is exact.
-/

/-- The value of a 32-bit `int` that an integer is converted to. -/
def int32 (n : Int) : Int := n.bmod (2 ^ 32)

theorem int32_of_lt {n : Int} (h₀ : 0 ≤ n) (h : n < 2 ^ 31) : int32 n = n :=
  Int.bmod_eq_of_le (by omega) (by omega)

/-- The first positive number that does not fit. -/
theorem int32_two_pow : int32 (2 ^ 31) = -2 ^ 31 := by decide

class CFloat (F : Type) extends Add F, Sub F, Mul F, Div F, Neg F, LT F, LE F where
  /-- the number nearest to a constant or to an integer -/
  const : ℚ → F
  decLt : DecidableLT F
  decLe : DecidableLE F

namespace CFloat

variable {F : Type} [CFloat F]

instance : DecidableLT F := CFloat.decLt
instance : DecidableLE F := CFloat.decLe

/-- `std::max` and `std::min`, which keep the first argument unless it compares worse. -/
def max (a b : F) : F := if a < b then b else a

def min (a b : F) : F := if b < a then b else a

/-- Exact numbers, without a rounding. -/
instance : CFloat ℚ where
  const q := q
  decLt := inferInstance
  decLe := inferInstance

/-- Not a NaN: it compares with itself. -/
def IsNumber (x : F) : Prop := x ≤ x

instance (x : F) : Decidable (IsNumber x) := inferInstanceAs (Decidable (x ≤ x))

end CFloat

/-- Functions of the mathematics library, whose rounding is the library's own. -/
structure CMath (F : Type) where
  exp : F → F
  pow : F → F → F

/-- Comparison orders all numbers; with a NaN nothing compares. -/
class LawfulCFloat (F : Type) [CFloat F] : Prop where
  isNumber_of_le : ∀ {x y : F}, x ≤ y → CFloat.IsNumber x ∧ CFloat.IsNumber y
  le_trans : ∀ {x y z : F}, x ≤ y → y ≤ z → x ≤ z
  le_of_lt : ∀ {x y : F}, x < y → x ≤ y
  not_le_of_lt : ∀ {x y : F}, x < y → ¬ y ≤ x
  le_of_not_lt : ∀ {x y : F}, CFloat.IsNumber x → CFloat.IsNumber y → ¬ x < y → y ≤ x

namespace LawfulCFloat

variable {F : Type} [CFloat F] [LawfulCFloat F] {x y z : F}

theorem isNumber_of_lt (h : x < y) : CFloat.IsNumber x ∧ CFloat.IsNumber y :=
  isNumber_of_le (le_of_lt h)

theorem lt_of_le_of_lt (hxy : x ≤ y) (hyz : y < z) : x < z := by
  by_contra hnot
  have hzx : z ≤ x := le_of_not_lt (isNumber_of_le hxy).1 (isNumber_of_lt hyz).2 hnot
  exact not_le_of_lt hyz (le_trans hzx hxy)

theorem not_le_iff (hx : CFloat.IsNumber x) (hy : CFloat.IsNumber y) : ¬y ≤ x ↔ x < y := by
  constructor
  · intro h
    by_contra hnot
    exact h (le_of_not_lt hx hy hnot)
  · exact not_le_of_lt

theorem lt_trans (hxy : x < y) (hyz : y < z) : x < z := lt_of_le_of_lt (le_of_lt hxy) hyz

end LawfulCFloat

instance : LawfulCFloat ℚ where
  isNumber_of_le _ := ⟨le_refl _, le_refl _⟩
  le_trans hxy hyz := Rat.le_trans hxy hyz
  le_of_lt h := Rat.le_of_lt h
  not_le_of_lt h := not_le_of_gt h
  le_of_not_lt _ _ h := not_lt.mp h

namespace BinaryFloat

variable {f : FloatFormat}

instance : CFloat (BinaryFloat f) where
  const := round f
  decLt := inferInstance
  decLe := inferInstance

theorem isNumber_iff {x : BinaryFloat f} : CFloat.IsNumber x ↔ x ≠ nan := by
  constructor
  · intro h
    exact (ne_nan_of_le h).1
  · intro h
    cases x with
    | nan => exact absurd rfl h
    | inf s => cases s <;> rfl
    | finite q hq => exact decide_eq_true (le_refl q)

instance : LawfulCFloat (BinaryFloat f) where
  isNumber_of_le h := ⟨isNumber_iff.mpr (ne_nan_of_le h).1, isNumber_iff.mpr (ne_nan_of_le h).2⟩
  le_trans := le_trans'
  le_of_lt := le_of_lt
  not_le_of_lt := not_le_of_lt
  le_of_not_lt hx hy h := le_of_not_lt (isNumber_iff.mp hx) (isNumber_iff.mp hy) h

end BinaryFloat
