-- SUMMARY: Expressions of a 32-bit signed type with their exact value and whether an operation overflowed, and their use as indices.
import NeuroPipeline.Lib.CNumber
import Mathlib.Algebra.Order.Ring.Int
import Mathlib.Tactic.Ring

/-!
# Checked integers

An overflow of a signed type leaves the rest of the program undefined. An expression
is therefore its exact value together with the information whether each operation in
it stayed inside the type.
-/

/-- `n` is a value of the type. -/
def Fits (n : Int) : Prop := -2 ^ 31 ≤ n ∧ n < 2 ^ 31

instance (n : Int) : Decidable (Fits n) := inferInstanceAs (Decidable (_ ∧ _))

theorem fits_int32 (n : Int) : Fits (int32 n) := by
  have hlow := Int.le_bmod (x := n) (m := 2 ^ 32) (by decide)
  have hhigh := Int.bmod_lt (x := n) (m := 2 ^ 32) (by decide)
  unfold Fits int32
  omega

theorem int32_eq_of_fits {n : Int} (h : Fits n) : int32 n = n := by
  unfold Fits at h
  exact Int.bmod_eq_of_le (by omega) (by omega)

structure CheckedInt where
  /-- the exact value -/
  value : Int
  /-- no operation overflowed -/
  inRange : Bool
  deriving DecidableEq

namespace CheckedInt

/-- A variable or a literal. -/
def of (n : Int) : CheckedInt := ⟨n, decide (Fits n)⟩

instance : Add CheckedInt where
  add a b := ⟨a.value + b.value, a.inRange && b.inRange && decide (Fits (a.value + b.value))⟩

instance : Mul CheckedInt where
  mul a b := ⟨a.value * b.value, a.inRange && b.inRange && decide (Fits (a.value * b.value))⟩

/-- `a << b`, where the type has 32 bits. -/
def shiftLeft (a b : CheckedInt) : CheckedInt :=
  ⟨a.value * 2 ^ b.value.toNat, a.inRange && b.inRange &&
    decide ((0 ≤ b.value ∧ b.value < 32) ∧ Fits (a.value * 2 ^ b.value.toNat))⟩

/-- `std::min` -/
def minimum (a b : CheckedInt) : CheckedInt :=
  ⟨min a.value b.value, a.inRange && b.inRange⟩

def Defined (e : CheckedInt) : Prop := e.inRange = true

instance (e : CheckedInt) : Decidable e.Defined := inferInstanceAs (Decidable (_ = _))

variable {a b c : CheckedInt}

@[simp] theorem value_of (n : Int) : (of n).value = n := rfl

@[simp] theorem value_add (a b : CheckedInt) : (a + b).value = a.value + b.value := rfl

@[simp] theorem value_mul (a b : CheckedInt) : (a * b).value = a.value * b.value := rfl

@[simp] theorem defined_of {n : Int} : (of n).Defined ↔ Fits n := decide_eq_true_iff

@[simp] theorem defined_add :
    (a + b).Defined ↔ a.Defined ∧ b.Defined ∧ Fits (a.value + b.value) := by
  change (a.inRange && b.inRange && decide (Fits (a.value + b.value))) = true ↔ _
  rw [Bool.and_eq_true, Bool.and_eq_true, decide_eq_true_iff, and_assoc]
  exact Iff.rfl

@[simp] theorem defined_mul :
    (a * b).Defined ↔ a.Defined ∧ b.Defined ∧ Fits (a.value * b.value) := by
  change (a.inRange && b.inRange && decide (Fits (a.value * b.value))) = true ↔ _
  rw [Bool.and_eq_true, Bool.and_eq_true, decide_eq_true_iff, and_assoc]
  exact Iff.rfl

@[simp] theorem value_shiftLeft (a b : CheckedInt) :
    (a.shiftLeft b).value = a.value * 2 ^ b.value.toNat := rfl

@[simp] theorem value_minimum (a b : CheckedInt) :
    (a.minimum b).value = min a.value b.value := rfl

@[simp] theorem defined_shiftLeft :
    (a.shiftLeft b).Defined ↔ a.Defined ∧ b.Defined ∧ (0 ≤ b.value ∧ b.value < 32) ∧
      Fits (a.value * 2 ^ b.value.toNat) := by
  rw [Defined, shiftLeft, Bool.and_eq_true, Bool.and_eq_true, decide_eq_true_iff, and_assoc]
  exact Iff.rfl

@[simp] theorem defined_minimum : (a.minimum b).Defined ↔ a.Defined ∧ b.Defined := by
  rw [Defined, minimum, Bool.and_eq_true]
  exact Iff.rfl

theorem add_of_fits {m n : Int} (hn : Fits n) (h : Fits (m + n)) :
    (⟨m, true⟩ : CheckedInt) + of n = ⟨m + n, true⟩ := by
  have hrange : ((⟨m, true⟩ : CheckedInt) + of n).inRange = true :=
    defined_add.mpr ⟨rfl, defined_of.mpr hn, h⟩
  exact congrArg (mk (m + n)) hrange

theorem Defined.fits_add (h : (a + b).Defined) : Fits (a.value + b.value) := (defined_add.mp h).2.2

end CheckedInt

/-! ## Uses -/

/-- What a run does with an expression. -/
inductive IntUse where
  /-- the program goes on with its value -/
  | computed (e : CheckedInt)
  /-- it indexes a table of this size -/
  | index (e : CheckedInt) (size : Nat)
  deriving DecidableEq

namespace IntUse

def Valid : IntUse → Prop
  | computed e => e.Defined
  | index e size => e.Defined ∧ 0 ≤ e.value ∧ e.value < size

instance : DecidablePred Valid
  | computed e => inferInstanceAs (Decidable e.Defined)
  | index e size => inferInstanceAs (Decidable (e.Defined ∧ 0 ≤ e.value ∧ e.value < size))

theorem valid_of_lt {n : Int} {size : Nat} (h₀ : 0 ≤ n) (hlt : n < size) (hsize : size ≤ 2 ^ 31) :
    (index (.of n) size).Valid :=
  ⟨CheckedInt.defined_of.mpr ⟨by omega, by omega⟩, h₀, hlt⟩

end IntUse

/-! ## Rows -/

/-- Entry `o` of row `r`, among rows of one length. -/
theorem row_bounds {r n o len : Int} (hr₀ : 0 ≤ r) (hr : r < n) (ho₀ : 0 ≤ o) (ho : o < len) :
    0 ≤ r * len + o ∧ r * len + o < n * len := by
  have hlen : 0 ≤ len := ho₀.trans ho.le
  have hrow : (r + 1) * len ≤ n * len := Int.mul_le_mul_of_nonneg_right hr hlen
  have hnext : (r + 1) * len = r * len + len := by ring
  have hstart : 0 ≤ r * len := Int.mul_nonneg hr₀ hlen
  exact ⟨Int.add_nonneg hstart ho₀, by omega⟩

/-- The row of an entry that is not before the first. -/
theorem row_nonneg_of_index {r o len : Int} (ho : o < len) (ho₀ : 0 ≤ o)
    (h : 0 ≤ r * len + o) : 0 ≤ r := by
  by_contra hneg
  have hrow : r * len ≤ -1 * len :=
    Int.mul_le_mul_of_nonneg_right (by omega) (ho₀.trans ho.le)
  omega
