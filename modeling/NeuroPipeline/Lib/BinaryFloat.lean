-- SUMMARY: Binary floating point formats: values, rounding to nearest even, arithmetic and comparison.
import Mathlib.Data.Int.Log
import Mathlib.Data.Rat.Floor

/-!
# Binary floating point

The numbers of a format are `m * 2 ^ e` for bounded `m` and `e`, together with
the infinities and one NaN. Arithmetic rounds the exact result to the nearest
number, ties to even. There is one zero only, which counts as positive when it
divides.
-/

structure FloatFormat where
  precision : Nat
  /-- exponent of the last digit of the smallest numbers -/
  minExp : Int
  /-- exponent of the last digit of the largest numbers -/
  maxExp : Int
  precision_pos : 0 < precision
  minExp_le : minExp ≤ maxExp

namespace FloatFormat

def binary32 : FloatFormat := ⟨24, -149, 104, by decide, by decide⟩

def Represents (f : FloatFormat) (q : ℚ) : Prop :=
  ∃ m e : Int, |m| < 2 ^ f.precision ∧ f.minExp ≤ e ∧ e ≤ f.maxExp ∧ q = m * 2 ^ e

theorem represents_zero (f : FloatFormat) : f.Represents 0 :=
  ⟨0, f.minExp, by simp, le_refl _, f.minExp_le, by simp⟩

end FloatFormat

/-- A number of the format, an infinity or a NaN. -/
inductive BinaryFloat (f : FloatFormat) where
  | nan
  | inf (negative : Bool)
  | finite (value : ℚ) (represents : f.Represents value)
  deriving DecidableEq

abbrev Binary32 := BinaryFloat .binary32

/-! ## Rounding -/

def roundHalfEven (q : ℚ) : Int :=
  let n := ⌊q⌋
  if q - n < 1 / 2 then n
  else if 1 / 2 < q - n then n + 1
  else if n % 2 = 0 then n
  else n + 1

theorem le_roundHalfEven {n : Int} {q : ℚ} (h : (n : ℚ) ≤ q) : n ≤ roundHalfEven q := by
  have hfloor : n ≤ ⌊q⌋ := Int.le_floor.mpr h
  simp only [roundHalfEven]
  split_ifs <;> omega

theorem roundHalfEven_le {n : Int} {q : ℚ} (h : q ≤ n) : roundHalfEven q ≤ n := by
  have hfloor : ⌊q⌋ ≤ n := by
    have hle := (Int.floor_le q).trans h
    exact_mod_cast hle
  rcases hfloor.lt_or_eq with hlt | heq
  · simp only [roundHalfEven]
    split_ifs <;> omega
  · have hq : q = n := le_antisymm h (heq ▸ Int.floor_le q)
    subst hq
    simp [roundHalfEven]

/-- Rounding to an integer does not leave a symmetric integer interval. -/
theorem abs_roundHalfEven_le {n : Int} {q : ℚ} (h : |q| ≤ n) : |roundHalfEven q| ≤ n := by
  obtain ⟨hlo, hhi⟩ := abs_le.mp h
  exact abs_le.mpr ⟨le_roundHalfEven (by push_cast; exact hlo), roundHalfEven_le hhi⟩

/-- Nor does it enter one. -/
theorem le_abs_roundHalfEven {n : Int} {q : ℚ} (h : (n : ℚ) ≤ |q|) : n ≤ |roundHalfEven q| := by
  rcases le_abs.mp h with hpos | hneg
  · exact (le_roundHalfEven hpos).trans (le_abs_self _)
  · have hle : roundHalfEven q ≤ -n := roundHalfEven_le (by push_cast; linarith)
    exact le_trans (by omega) (neg_le_abs _)

namespace BinaryFloat

variable {f : FloatFormat}

/-- Exponent of the last digit that `q` has in the format. -/
def lastExp (f : FloatFormat) (q : ℚ) : Int := max (Int.log 2 |q| - (f.precision - 1)) f.minExp

/-- The last digit at the exponent of `q` is rounded half to even. -/
def significand (f : FloatFormat) (q : ℚ) : Int := roundHalfEven (q / 2 ^ lastExp f q)

def roundedValue (f : FloatFormat) (q : ℚ) : ℚ := significand f q * 2 ^ lastExp f q

/-- The first power of two beyond the format. -/
def overflow (f : FloatFormat) : ℚ := 2 ^ (f.maxExp + f.precision)

theorem zpow_two_pos (e : Int) : (0 : ℚ) < 2 ^ e := zpow_pos (by norm_num) e

theorem abs_significand_le (q : ℚ) : |significand f q| ≤ 2 ^ f.precision := by
  apply abs_roundHalfEven_le
  rw [abs_div, abs_of_pos (zpow_two_pos _), div_le_iff₀ (zpow_two_pos _)]
  have hlog : |q| < (2 : ℚ) ^ (Int.log 2 |q| + 1) := Int.lt_zpow_succ_log_self (by norm_num) _
  have hexp : Int.log 2 |q| + 1 ≤ f.precision + lastExp f q := by
    have hle := le_max_left (Int.log 2 |q| - ((f.precision : Int) - 1)) f.minExp
    rw [lastExp]
    omega
  calc |q| ≤ (2 : ℚ) ^ (Int.log 2 |q| + 1) := hlog.le
    _ ≤ 2 ^ ((f.precision : Int) + lastExp f q) := zpow_le_zpow_right₀ (by norm_num) hexp
    _ = ((2 ^ f.precision : Int) : ℚ) * 2 ^ lastExp f q := by
        rw [zpow_add₀ (by norm_num)]
        push_cast
        rw [zpow_natCast]

/-- Above the smallest exponent every digit of the significand is used. -/
theorem le_abs_significand {q : ℚ} (hq : q ≠ 0) (he : lastExp f q ≠ f.minExp) :
    2 ^ (f.precision - 1) ≤ |significand f q| := by
  apply le_abs_roundHalfEven
  have hexp : lastExp f q = Int.log 2 |q| - (f.precision - 1) := by
    rcases max_choice (Int.log 2 |q| - ((f.precision : Int) - 1)) f.minExp with h | h
    · exact h
    · exact absurd h he
  have hpos := f.precision_pos
  rw [abs_div, abs_of_pos (zpow_two_pos _), le_div_iff₀ (zpow_two_pos _)]
  calc (((2 : Int) ^ (f.precision - 1) : Int) : ℚ) * 2 ^ lastExp f q
      = 2 ^ (((f.precision - 1 : Nat) : Int) + lastExp f q) := by
        rw [zpow_add₀ (by norm_num), zpow_natCast]
        push_cast
        rfl
    _ = 2 ^ Int.log 2 |q| := by
        congr 1
        rw [hexp]
        omega
    _ ≤ |q| := Int.zpow_log_le_self (by norm_num) (abs_pos.mpr hq)

theorem represents_roundedValue {q : ℚ} (h : |roundedValue f q| < overflow f) :
    f.Represents (roundedValue f q) := by
  by_cases hq : q = 0
  · have hzero : roundedValue f q = 0 := by simp [hq, roundedValue, significand, roundHalfEven]
    rw [hzero]
    exact f.represents_zero
  have habs : |roundedValue f q| = |significand f q| * (2 : ℚ) ^ lastExp f q := by
    rw [roundedValue, abs_mul, abs_of_pos (zpow_two_pos _), Int.cast_abs]
  have hbelow : f.minExp ≤ lastExp f q := le_max_right _ _
  have hpos := f.precision_pos
  -- a significand of `2 ^ k` is too large when the exponent is not small enough
  have hexp : ∀ k : Nat, 2 ^ k ≤ |significand f q| →
      (k : Int) + lastExp f q < f.maxExp + f.precision := by
    intro k hk
    have hle : (2 : ℚ) ^ ((k : Int) + lastExp f q) ≤ |roundedValue f q| := by
      rw [habs, zpow_add₀ (by norm_num), zpow_natCast]
      refine mul_le_mul_of_nonneg_right ?_ (zpow_two_pos _).le
      exact_mod_cast hk
    exact (zpow_lt_zpow_iff_right₀ (by norm_num)).mp (hle.trans_lt h)
  have habove : lastExp f q ≤ f.maxExp := by
    by_cases hmin : lastExp f q = f.minExp
    · exact hmin ▸ f.minExp_le
    · have hlt := hexp _ (le_abs_significand hq hmin)
      omega
  rcases (abs_significand_le (f := f) q).lt_or_eq with hlt | heq
  · exact ⟨significand f q, lastExp f q, hlt, hbelow, habove, rfl⟩
  -- rounding carried into one more digit: shift it out
  · have hlt := hexp f.precision heq.ge
    have hdouble : (2 : Int) ^ f.precision = 2 * 2 ^ (f.precision - 1) := by
      rw [← pow_succ', Nat.sub_add_cancel hpos]
    obtain ⟨m, hm⟩ : ∃ m, significand f q = 2 * m := by
      rcases abs_choice (significand f q) with hs | hs
      · exact ⟨2 ^ (f.precision - 1), by rw [← hs, heq, hdouble]⟩
      · refine ⟨-2 ^ (f.precision - 1), ?_⟩
        have hneg : significand f q = -2 ^ f.precision := by omega
        rw [hneg, hdouble]
        ring
    refine ⟨m, lastExp f q + 1, ?_, by omega, by omega, ?_⟩
    · have hpow : (0 : Int) < 2 ^ (f.precision - 1) := by positivity
      rw [hm, abs_mul] at heq
      simp only [abs_two] at heq
      omega
    · rw [roundedValue, hm, zpow_add₀ (by norm_num)]
      push_cast
      ring

/-- The number of the format nearest to `q`. -/
def round (f : FloatFormat) (q : ℚ) : BinaryFloat f :=
  if h : |roundedValue f q| < overflow f then
    .finite (roundedValue f q) (represents_roundedValue h)
  else .inf (q < 0)

/-! ## Arithmetic -/

def neg : BinaryFloat f → BinaryFloat f
  | nan => nan
  | inf s => inf !s
  | finite q _ => round f (-q)

def add : BinaryFloat f → BinaryFloat f → BinaryFloat f
  | nan, _ | _, nan => nan
  | inf s, inf s' => if s = s' then inf s else nan
  | inf s, finite _ _ | finite _ _, inf s => inf s
  | finite a _, finite b _ => round f (a + b)

def sub (x y : BinaryFloat f) : BinaryFloat f := x.add y.neg

def mul : BinaryFloat f → BinaryFloat f → BinaryFloat f
  | nan, _ | _, nan => nan
  | inf s, inf s' => inf (s != s')
  | inf s, finite q _ | finite q _, inf s => if q = 0 then nan else inf (s != decide (q < 0))
  | finite a _, finite b _ => round f (a * b)

def div : BinaryFloat f → BinaryFloat f → BinaryFloat f
  | nan, _ | _, nan | inf _, inf _ => nan
  | inf s, finite q _ => inf (s != decide (q < 0))
  | finite _ _, inf _ => round f 0
  | finite a _, finite b _ =>
    if b = 0 then (if a = 0 then nan else inf (a < 0)) else round f (a / b)

instance : Neg (BinaryFloat f) := ⟨neg⟩
instance : Add (BinaryFloat f) := ⟨add⟩
instance : Sub (BinaryFloat f) := ⟨sub⟩
instance : Mul (BinaryFloat f) := ⟨mul⟩
instance : Div (BinaryFloat f) := ⟨div⟩

/-! ## Comparison -/

/-- No comparison with a NaN holds. -/
def le : BinaryFloat f → BinaryFloat f → Bool
  | nan, _ | _, nan => false
  | inf s, inf s' => s || !s'
  | inf s, finite _ _ => s
  | finite _ _, inf s => !s
  | finite a _, finite b _ => a ≤ b

def lt : BinaryFloat f → BinaryFloat f → Bool
  | nan, _ | _, nan => false
  | inf s, inf s' => s && !s'
  | inf s, finite _ _ => s
  | finite _ _, inf s => !s
  | finite a _, finite b _ => a < b

instance : LE (BinaryFloat f) := ⟨fun x y => x.le y = true⟩
instance : LT (BinaryFloat f) := ⟨fun x y => x.lt y = true⟩
instance (x y : BinaryFloat f) : Decidable (x ≤ y) := inferInstanceAs (Decidable (x.le y = true))
instance (x y : BinaryFloat f) : Decidable (x < y) := inferInstanceAs (Decidable (x.lt y = true))

theorem le_iff {x y : BinaryFloat f} : x ≤ y ↔ x.le y = true := Iff.rfl

theorem lt_iff {x y : BinaryFloat f} : x < y ↔ x.lt y = true := Iff.rfl

theorem le_trans' {x y z : BinaryFloat f} (hxy : x ≤ y) (hyz : y ≤ z) : x ≤ z := by
  rw [le_iff] at *
  cases x <;> cases y <;> cases z <;> simp_all [le]
  case inf.inf.inf => grind
  case finite.finite.finite => exact hxy.trans hyz

theorem le_of_lt {x y : BinaryFloat f} (h : x < y) : x ≤ y := by
  rw [lt_iff] at h
  rw [le_iff]
  cases x <;> cases y <;> simp_all [le, lt]
  case finite.finite => exact h.le

theorem not_le_of_lt {x y : BinaryFloat f} (h : x < y) : ¬ y ≤ x := by
  rw [lt_iff] at h
  rw [le_iff]
  cases x <;> cases y <;> simp_all [le, lt]

/-- Two numbers that are not NaN are ordered one way or the other. -/
theorem le_of_not_lt {x y : BinaryFloat f} (hx : x ≠ nan) (hy : y ≠ nan) (h : ¬ x < y) :
    y ≤ x := by
  rw [lt_iff] at h
  rw [le_iff]
  cases x <;> cases y <;> simp_all [le, lt]
  case inf.inf => grind

theorem ne_nan_of_le {x y : BinaryFloat f} (h : x ≤ y) : x ≠ nan ∧ y ≠ nan := by
  rw [le_iff] at h
  cases x <;> cases y <;> simp_all [le]

end BinaryFloat
