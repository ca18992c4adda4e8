-- SUMMARY: Rounding of a binary floating point format: it is exact on the format, monotone, and has a small relative error.
import NeuroPipeline.Lib.Truncation
import Mathlib.Data.Nat.Cast.Order.Field
import Mathlib.Tactic.FieldSimp
import Mathlib.Tactic.Linarith
import Mathlib.Tactic.Ring

/-!
# Properties of rounding

What the arithmetic of a format keeps of the exact one, for numbers that are not
negative.
-/

/-! ## Rounding to an integer -/

theorem roundHalfEven_intCast (n : Int) : roundHalfEven n = n :=
  le_antisymm (roundHalfEven_le le_rfl) (le_roundHalfEven le_rfl)

theorem roundHalfEven_mono {a b : ℚ} (h : a ≤ b) : roundHalfEven a ≤ roundHalfEven b := by
  rcases le_or_gt a ⌊b⌋ with hfloor | hfloor
  · exact (roundHalfEven_le hfloor).trans (le_roundHalfEven (Int.floor_le b))
  · -- both are between the same two integers
    have hsame : ⌊a⌋ = ⌊b⌋ :=
      Int.floor_eq_iff.mpr ⟨hfloor.le, h.trans_lt (Int.lt_floor_add_one b)⟩
    simp only [roundHalfEven, hsame]
    split_ifs <;> first | omega | linarith

theorem abs_roundHalfEven_sub_le (q : ℚ) : |(roundHalfEven q : ℚ) - q| ≤ 1 / 2 := by
  have hlo := Int.floor_le q
  have hhi := Int.lt_floor_add_one q
  simp only [roundHalfEven]
  split_ifs <;> push_cast <;> rw [abs_le] <;> constructor <;> linarith

namespace BinaryFloat

variable {f : FloatFormat} {q a b : ℚ}

/-! ## Rounding to the format -/

theorem roundedValue_nonneg (hq : 0 ≤ q) : 0 ≤ roundedValue f q := by
  have hdiv : ((0 : Int) : ℚ) ≤ q / 2 ^ lastExp f q := by
    push_cast
    exact div_nonneg hq (zpow_two_pos _).le
  exact mul_nonneg (by exact_mod_cast le_roundHalfEven hdiv) (zpow_two_pos _).le

/-- The last digit of a number of the format is kept. -/
theorem lastExp_le {m e : Int} (hq : q ≠ 0) (hm : |m| < 2 ^ f.precision) (he : f.minExp ≤ e)
    (heq : q = m * 2 ^ e) : lastExp f q ≤ e := by
  refine max_le ?_ he
  have hlt : |q| < (2 : ℚ) ^ ((f.precision : Int) + e) := by
    rw [heq, abs_mul, abs_of_pos (zpow_two_pos e), zpow_add₀ (by norm_num), zpow_natCast]
    refine mul_lt_mul_of_pos_right ?_ (zpow_two_pos e)
    exact_mod_cast hm
  have hlog : Int.log 2 |q| < (f.precision : Int) + e :=
    (Int.lt_zpow_iff_log_lt (by norm_num) (abs_pos.mpr hq)).mp hlt
  omega

theorem roundedValue_of_represents (h : f.Represents q) : roundedValue f q = q := by
  by_cases hq : q = 0
  · simp [hq, roundedValue, significand, roundHalfEven]
  obtain ⟨m, e, hm, hmin, -, heq⟩ := h
  obtain ⟨k, hk⟩ := Int.le.dest (lastExp_le hq hm hmin heq)
  have hdigits : q / 2 ^ lastExp f q = ((m * 2 ^ k : Int) : ℚ) := by
    have hscale : (2 : ℚ) ^ e = 2 ^ k * 2 ^ lastExp f q := by
      rw [← hk, add_comm, zpow_add₀ (by norm_num), zpow_natCast]
    rw [div_eq_iff (zpow_two_pos _).ne']
    push_cast
    rw [mul_assoc, ← hscale, ← heq]
  rw [roundedValue, significand, hdigits, roundHalfEven_intCast, ← hdigits,
    div_mul_cancel₀ _ (zpow_two_pos _).ne']

theorem lastExp_mono (ha : 0 < a) (h : a ≤ b) : lastExp f a ≤ lastExp f b := by
  have hlog : Int.log 2 |a| ≤ Int.log 2 |b| := by
    rw [abs_of_pos ha, abs_of_pos (ha.trans_le h)]
    exact Int.log_mono_right ha h
  exact max_le_max (by omega) le_rfl

theorem roundedValue_mono (ha : 0 ≤ a) (h : a ≤ b) : roundedValue f a ≤ roundedValue f b := by
  rcases ha.eq_or_lt with rfl | hpos
  · rw [roundedValue_of_represents f.represents_zero]
    exact roundedValue_nonneg h
  rcases (lastExp_mono (f := f) hpos h).eq_or_lt with hexp | hexp
  · rw [roundedValue, roundedValue, significand, significand, hexp]
    refine mul_le_mul_of_nonneg_right ?_ (zpow_two_pos _).le
    exact_mod_cast roundHalfEven_mono (div_le_div_of_nonneg_right h (zpow_two_pos _).le)
  -- a power of two is between them
  have hb : b ≠ 0 := (hpos.trans_le h).ne'
  have hmin : lastExp f b ≠ f.minExp := by
    have hle : f.minExp ≤ lastExp f a := le_max_right _ _
    omega
  have hsigb : (2 : Int) ^ (f.precision - 1) ≤ significand f b := by
    have habs := le_abs_significand hb hmin
    have hnonneg : 0 ≤ significand f b := le_roundHalfEven (by
      push_cast
      exact div_nonneg (hpos.le.trans h) (zpow_two_pos _).le)
    rwa [abs_of_nonneg hnonneg] at habs
  have hsiga : significand f a ≤ 2 ^ f.precision := (le_abs_self _).trans (abs_significand_le a)
  have hexps : (f.precision : Int) + lastExp f a ≤
      ((f.precision - 1 : Nat) : Int) + lastExp f b := by
    have hprecision := f.precision_pos
    omega
  calc roundedValue f a ≤ ((2 ^ f.precision : Int) : ℚ) * 2 ^ lastExp f a := by
        refine mul_le_mul_of_nonneg_right ?_ (zpow_two_pos _).le
        exact_mod_cast hsiga
    _ = 2 ^ ((f.precision : Int) + lastExp f a) := by
        rw [zpow_add₀ (by norm_num), zpow_natCast]
        push_cast
        rfl
    _ ≤ 2 ^ (((f.precision - 1 : Nat) : Int) + lastExp f b) :=
        zpow_le_zpow_right₀ (by norm_num) hexps
    _ = ((2 ^ (f.precision - 1) : Int) : ℚ) * 2 ^ lastExp f b := by
        rw [zpow_add₀ (by norm_num), zpow_natCast]
        push_cast
        rfl
    _ ≤ roundedValue f b := by
        refine mul_le_mul_of_nonneg_right ?_ (zpow_two_pos _).le
        exact_mod_cast hsigb

/-- A number that the format has bounds the rounding of what it bounds. -/
theorem roundedValue_le (hq : 0 ≤ q) (hle : q ≤ b) (hb : f.Represents b) :
    roundedValue f q ≤ b := by
  rw [← roundedValue_of_represents hb]
  exact roundedValue_mono hq hle

/-- Numbers that use every digit are rounded by at most half of the last one. -/
theorem abs_roundedValue_sub_le (hq : 2 ^ (f.minExp + f.precision - 1) ≤ q) :
    |roundedValue f q - q| ≤ q / 2 ^ f.precision := by
  have hpos : 0 < q := (zpow_two_pos _).trans_le hq
  have hexp : lastExp f q + (f.precision - 1) ≤ Int.log 2 q := by
    have hlog : f.minExp + f.precision - 1 ≤ Int.log 2 q :=
      (Int.zpow_le_iff_le_log (by norm_num) hpos).mp hq
    rw [lastExp, abs_of_pos hpos]
    omega
  have hlast : (2 : ℚ) ^ lastExp f q * 2 ^ f.precision ≤ 2 * q := by
    calc (2 : ℚ) ^ lastExp f q * 2 ^ f.precision
        = 2 * 2 ^ (lastExp f q + (f.precision - 1)) := by
          rw [← zpow_natCast, ← zpow_add₀ (by norm_num), ← zpow_one_add₀ (by norm_num)]
          congr 1
          ring
      _ ≤ 2 * 2 ^ Int.log 2 q := by
          have hle := zpow_le_zpow_right₀ (one_le_two (α := ℚ)) hexp
          linarith
      _ ≤ 2 * q := by
          have hle := Int.zpow_log_le_self (b := 2) (by norm_num) hpos
          push_cast at hle
          linarith
  have hsplit : roundedValue f q - q =
      ((significand f q : ℚ) - q / 2 ^ lastExp f q) * 2 ^ lastExp f q := by
    rw [roundedValue, sub_mul, div_mul_cancel₀ _ (zpow_two_pos _).ne']
  have hhalf := abs_roundHalfEven_sub_le (q / 2 ^ lastExp f q)
  have hprecision : (0 : ℚ) < 2 ^ f.precision := by positivity
  rw [hsplit, abs_mul, abs_of_pos (zpow_two_pos _), le_div_iff₀ hprecision]
  calc |(significand f q : ℚ) - q / 2 ^ lastExp f q| * 2 ^ lastExp f q * 2 ^ f.precision
      ≤ 1 / 2 * (2 ^ lastExp f q * 2 ^ f.precision) := by
        rw [mul_assoc]
        exact mul_le_mul_of_nonneg_right hhalf (mul_pos (zpow_two_pos _) hprecision).le
    _ ≤ q := by linarith

/-- The quotient of whole numbers has, also when it is rounded, the floor that it should have,
as long as the dividend has no more digits than the format. -/
theorem floor_roundedValue_div {a b : Nat} (ha : a < 2 ^ f.precision) (hb : 0 < b)
    (hexact : f.Represents ((a / b : Nat) : ℚ))
    (hnormal : 2 ^ (f.minExp + f.precision - 1) ≤ (a / b : ℚ)) :
    ⌊roundedValue f (a / b)⌋₊ = a / b := by
  have hb' : (0 : ℚ) < b := Nat.cast_pos.mpr hb
  have hdiv : ((a / b : Nat) : ℚ) ≤ a / b := Nat.cast_div_le
  have hlower : ((a / b : Nat) : ℚ) ≤ roundedValue f (a / b) := by
    calc ((a / b : Nat) : ℚ) = roundedValue f ((a / b : Nat) : ℚ) :=
          (roundedValue_of_represents hexact).symm
      _ ≤ roundedValue f (a / b) := roundedValue_mono (Nat.cast_nonneg _) hdiv
  -- the next whole number is at least `1 / b` away, and the error is smaller
  have hnext : (a : ℚ) / b + 1 / b ≤ (a / b : Nat) + 1 := by
    have hlt : a + 1 ≤ b * (a / b + 1) := Nat.lt_mul_div_succ a hb
    rw [← add_div, div_le_iff₀ hb']
    exact_mod_cast hlt.trans_eq (Nat.mul_comm _ _)
  have herror : (a : ℚ) / b / 2 ^ f.precision < 1 / b := by
    have ha' : (a : ℚ) < 2 ^ f.precision := by exact_mod_cast ha
    rw [div_right_comm, div_lt_div_iff_of_pos_right hb', div_lt_one (by positivity)]
    exact ha'
  have hround := (abs_le.mp (abs_roundedValue_sub_le hnormal)).2
  refine (Nat.floor_eq_iff ((Nat.cast_nonneg _).trans hlower)).mpr ⟨hlower, ?_⟩
  linarith

/-! ## Numbers of the format -/

theorem represents_intCast {n : Int} (hn : |n| < 2 ^ f.precision) (hmin : f.minExp ≤ 0)
    (hmax : 0 ≤ f.maxExp) : f.Represents n :=
  ⟨n, 0, hn, hmin, hmax, by simp⟩

theorem represents_neg (h : f.Represents q) : f.Represents (-q) := by
  obtain ⟨m, e, hm, hmin, hmax, rfl⟩ := h
  exact ⟨-m, e, by rwa [abs_neg], hmin, hmax, by push_cast; ring⟩

theorem represents_mul_two_pow {k : Nat}
    (h : f.Represents q) (hle : |q| * 2 ^ k ≤ 2 ^ f.maxExp) : f.Represents (q * 2 ^ k) := by
  obtain ⟨m, e, hm, hmin, -, rfl⟩ := h
  by_cases hzero : m = 0
  · simpa [hzero] using f.represents_zero
  refine ⟨m, e + (k : Int), hm, by omega, ?_, ?_⟩
  · have hdigits : (1 : ℚ) ≤ |(m : ℚ)| := by exact_mod_cast Int.one_le_abs hzero
    have hpow : (2 : ℚ) ^ (e + (k : Int)) ≤ 2 ^ f.maxExp := by
      calc (2 : ℚ) ^ (e + (k : Int)) ≤ |(m : ℚ)| * 2 ^ (e + (k : Int)) :=
            le_mul_of_one_le_left (zpow_two_pos _).le hdigits
        _ = |(m : ℚ) * 2 ^ e| * 2 ^ k := by
            rw [abs_mul, abs_of_pos (zpow_two_pos e), zpow_add₀ (by norm_num),
              zpow_natCast, mul_assoc]
        _ ≤ 2 ^ f.maxExp := hle
    exact (zpow_le_zpow_iff_right₀ (by norm_num)).mp hpow
  · rw [zpow_add₀ (by norm_num), zpow_natCast, mul_assoc]

theorem abs_lt_overflow (h : f.Represents q) : |q| < overflow f := by
  obtain ⟨m, e, hm, -, hmax, rfl⟩ := h
  have hdigits : |(m : ℚ)| < 2 ^ f.precision := by exact_mod_cast hm
  calc |(m : ℚ) * 2 ^ e| = |(m : ℚ)| * 2 ^ e := by
        rw [abs_mul, abs_of_pos (zpow_two_pos e)]
    _ < 2 ^ f.precision * 2 ^ e := mul_lt_mul_of_pos_right hdigits (zpow_two_pos e)
    _ = 2 ^ (e + f.precision) := by
        rw [add_comm, zpow_add₀ (by norm_num), zpow_natCast]
    _ ≤ overflow f := zpow_le_zpow_right₀ (by norm_num) (by omega)

/-! ## Arithmetic on numbers -/

section

open HasValue (value)

variable {x y : BinaryFloat f}

theorem value_eq_some_iff : value x = some q ↔ ∃ h, x = .finite q h := by
  constructor
  · intro h
    cases x with
    | nan => cases h
    | inf s => cases h
    | finite r hr =>
        obtain rfl := Option.some.inj h
        exact ⟨hr, rfl⟩
  · rintro ⟨h, rfl⟩
    rfl

theorem represents_of_value (hx : value x = some a) : f.Represents a :=
  (value_eq_some_iff.mp hx).1

theorem value_round_of_le (hq : 0 ≤ q) (hle : q ≤ b) (hb : f.Represents b) :
    value (round f q) = some (roundedValue f q) := by
  have hbound : |roundedValue f q| < overflow f := by
    rw [abs_of_nonneg (roundedValue_nonneg hq)]
    exact (roundedValue_le hq hle hb).trans_lt ((le_abs_self b).trans_lt (abs_lt_overflow hb))
  rw [round, dif_pos hbound]
  rfl

theorem exists_value_round (hq : 0 ≤ q) (hle : q ≤ b) (hb : f.Represents b) :
    ∃ r, value (round f q) = some r ∧ 0 ≤ r ∧ r ≤ b :=
  ⟨_, value_round_of_le hq hle hb, roundedValue_nonneg hq, roundedValue_le hq hle hb⟩

theorem value_round_of_represents (h : f.Represents q) : value (round f q) = some q := by
  have hexact : roundedValue f q = q := roundedValue_of_represents h
  have hbound : |roundedValue f q| < overflow f := by
    rw [hexact]
    exact abs_lt_overflow h
  rw [round, dif_pos hbound]
  exact congrArg some hexact

theorem mul_eq_round (hx : value x = some a) (hy : value y = some b) :
    x * y = round f (a * b) := by
  obtain ⟨_, rfl⟩ := value_eq_some_iff.mp hx
  obtain ⟨_, rfl⟩ := value_eq_some_iff.mp hy
  rfl

theorem div_eq_round (hx : value x = some a) (hy : value y = some b) (hb : b ≠ 0) :
    x / y = round f (a / b) := by
  obtain ⟨_, rfl⟩ := value_eq_some_iff.mp hx
  obtain ⟨_, rfl⟩ := value_eq_some_iff.mp hy
  exact if_neg hb

/-- A number that is scaled down by a quotient. -/
theorem exists_value_scaled {z : BinaryFloat f} {c : ℚ} {k : Nat} (hx : value x = some a)
    (hy : value y = some b) (hz : value z = some c) (ha : 0 ≤ a) (hac : a ≤ c) (hc : 0 < c)
    (hb : 0 ≤ b) (hbound : b ≤ 2 ^ k) (hk : f.Represents (2 ^ k))
    (hmax : c * 2 ^ k ≤ 2 ^ f.maxExp) :
    ∃ q, value (x * y / z) = some q ∧ 0 ≤ q ∧ q ≤ 2 ^ k := by
  -- the product is bounded by a number of the format, and so is the quotient
  have hproduct : f.Represents (c * 2 ^ k) :=
    represents_mul_two_pow (represents_of_value hz) (by rwa [abs_of_pos hc])
  have hle : a * b ≤ c * 2 ^ k := mul_le_mul hac hbound hb hc.le
  obtain ⟨p, hp, hp₀, hp₁⟩ := exists_value_round (mul_nonneg ha hb) hle hproduct
  have hquotient : p / c ≤ 2 ^ k := by
    rw [div_le_iff₀ hc, mul_comm]
    exact hp₁
  rw [mul_eq_round hx hy, div_eq_round hp hz hc.ne']
  exact exists_value_round (div_nonneg hp₀ hc.le) hquotient hk

theorem add_eq_round (hx : value x = some a) (hy : value y = some b) :
    x + y = round f (a + b) := by
  obtain ⟨_, rfl⟩ := value_eq_some_iff.mp hx
  obtain ⟨_, rfl⟩ := value_eq_some_iff.mp hy
  rfl

theorem sub_eq_round (hx : value x = some a) (hy : value y = some b) :
    x - y = round f (a - b) := by
  have hneg : value y.neg = some (-b) := by
    have hrepresents := represents_neg (represents_of_value hy)
    obtain ⟨_, rfl⟩ := value_eq_some_iff.mp hy
    exact value_round_of_represents hrepresents
  rw [sub_eq_add_neg a b]
  exact add_eq_round hx hneg

theorem lt_iff_of_value (hx : value x = some a) (hy : value y = some b) : x < y ↔ a < b := by
  obtain ⟨_, rfl⟩ := value_eq_some_iff.mp hx
  obtain ⟨_, rfl⟩ := value_eq_some_iff.mp hy
  exact decide_eq_true_iff

theorem le_iff_of_value (hx : value x = some a) (hy : value y = some b) : x ≤ y ↔ a ≤ b := by
  obtain ⟨_, rfl⟩ := value_eq_some_iff.mp hx
  obtain ⟨_, rfl⟩ := value_eq_some_iff.mp hy
  exact decide_eq_true_iff

theorem round_of_overflow (hq : 0 ≤ q) (h : ¬|roundedValue f q| < overflow f) :
    round f q = .inf false := by
  rw [round, dif_neg h, decide_eq_false (not_lt.mpr hq)]

/-- Also where the larger one is rounded to infinity. -/
theorem round_mono (ha : 0 ≤ a) (h : a ≤ b) : round f a ≤ round f b := by
  have hrounded : roundedValue f a ≤ roundedValue f b := roundedValue_mono ha h
  by_cases hb : |roundedValue f b| < overflow f
  · have ha' : |roundedValue f a| < overflow f := by
      rw [abs_of_nonneg (roundedValue_nonneg (ha.trans h))] at hb
      rw [abs_of_nonneg (roundedValue_nonneg ha)]
      exact hrounded.trans_lt hb
    rw [round, dif_pos ha', round, dif_pos hb]
    exact decide_eq_true hrounded
  · rw [round_of_overflow (ha.trans h) hb]
    by_cases ha' : |roundedValue f a| < overflow f
    · rw [round, dif_pos ha']
      rfl
    · rw [round_of_overflow ha ha']
      rfl

/-- The further back, the longer ago. -/
theorem sub_le_sub_of_le {z : BinaryFloat f} {c : ℚ} (hx : value x = some a) (hy : value y = some b)
    (hz : value z = some c) (hxy : x ≤ y) (hyz : y ≤ z) : z - y ≤ z - x := by
  rw [sub_eq_round hz hy, sub_eq_round hz hx]
  have hab := (le_iff_of_value hx hy).mp hxy
  have hbc := (le_iff_of_value hy hz).mp hyz
  exact round_mono (sub_nonneg.mpr hbc) (sub_le_sub_left hab c)

/-- Between two numbers there are only numbers. -/
theorem value_of_between {lo hi : BinaryFloat f} (hlo : value lo = some a) (hhi : value hi = some b)
    (h₀ : lo ≤ x) (h₁ : x ≤ hi) : ∃ q, value x = some q ∧ a ≤ q ∧ q ≤ b := by
  obtain ⟨_, rfl⟩ := value_eq_some_iff.mp hlo
  obtain ⟨_, rfl⟩ := value_eq_some_iff.mp hhi
  cases x with
  | nan => cases h₀
  | inf s =>
      cases s with
      | true => cases h₀
      | false => cases h₁
  | finite q hq => exact ⟨q, rfl, of_decide_eq_true h₀, of_decide_eq_true h₁⟩

end

end BinaryFloat
