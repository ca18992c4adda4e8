-- SUMMARY: The controller of the frame rate: its two ramps, and exactly when a target never moves against the activity.
import NeuroPipeline.Lib.CheckedInt
import NeuroPipeline.Lib.Truncation
import NeuroPipeline.Lib.TransitionSystem
import Mathlib.Algebra.Order.Round
import Mathlib.Tactic.Linarith

/-!
# Adaptive frame rate

Model of adaptive_fps.cpp with exact numbers in place of `float`. The target is computed
from the length of the present activity or silence and the two ends of the ramps, and not
from the target before it.
-/

structure AdaptiveFpsController.Config where
  minFps : UInt32 := 5
  maxFps : UInt32 := 30
  idleFps : UInt32 := 10
  activeFps : UInt32 := 30
  rampUpFrames : Int := 1
  rampDownFrames : Int := 90
  deriving DecidableEq

structure AdaptiveFpsController where
  config : AdaptiveFpsController.Config
  currentFps : UInt32
  framesWithoutDetection : Int := 0
  framesWithDetection : Int := 0
  deriving DecidableEq

namespace AdaptiveFpsController

/-! ## The operations -/

/-- `std::clamp`, which asks for `lo ≤ hi`. -/
def clamp (v lo hi : UInt32) : UInt32 := if v < lo then lo else if hi < v then hi else v

/-- How much of a ramp is behind after this many frames. -/
def progress (frames ramp : Int) : ℚ := min ((frames : ℚ) / ramp) 1

/-- The distance of the ends; the subtraction is one of `uint32_t`. -/
def Config.span (config : Config) : Nat := (config.activeFps - config.idleFps).toNat

def toUInt32 (q : ℚ) : Option UInt32 := (toUnsigned 32 q).map UInt32.ofNat

/-- `++` on an `int`, which has no value beyond the largest. -/
def increment (n : Int) : Option Int := if Fits (n + 1) then some (n + 1) else none

def Config.rampUp (config : Config) (frames : Int) : Option UInt32 :=
  if config.rampUpFrames ≤ 0 then some config.activeFps
  else toUInt32 (config.idleFps.toNat + progress frames config.rampUpFrames * config.span)

def Config.rampDown (config : Config) (frames : Int) : Option UInt32 :=
  if config.rampDownFrames ≤ 0 then some config.idleFps
  else toUInt32 (config.activeFps.toNat - progress frames config.rampDownFrames * config.span)

def new (config : Config) : AdaptiveFpsController where
  config := config
  currentFps := config.idleFps

/-- Without a value where the source has an overflow. -/
def update (c : AdaptiveFpsController) (detectionCount : Int) : Option AdaptiveFpsController := do
  let c ←
    if 0 < detectionCount then do
      let frames ← increment c.framesWithDetection
      let fps ← c.config.rampUp frames
      some { c with framesWithDetection := frames, framesWithoutDetection := 0, currentFps := fps }
    else do
      let frames ← increment c.framesWithoutDetection
      let fps ← c.config.rampDown frames
      some { c with framesWithoutDetection := frames, framesWithDetection := 0, currentFps := fps }
  some { c with currentFps := clamp c.currentFps c.config.minFps c.config.maxFps }

def frameDelayUs (c : AdaptiveFpsController) : Nat :=
  if c.currentFps = 0 then 0 else 1000000 / c.currentFps.toNat

def reset (c : AdaptiveFpsController) : AdaptiveFpsController :=
  { c with currentFps := c.config.idleFps, framesWithoutDetection := 0, framesWithDetection := 0 }

/-! ## Ramps -/

theorem clamp_of_mem {v lo hi : UInt32} (hlo : lo ≤ v) (hhi : v ≤ hi) : clamp v lo hi = v := by
  rw [clamp, if_neg (UInt32.not_lt.mpr hlo), if_neg (UInt32.not_lt.mpr hhi)]

/-- The order of the rates that the controller is made for. -/
structure Config.Ordered (config : Config) : Prop where
  min_pos : 0 < config.minFps
  min_le_idle : config.minFps ≤ config.idleFps
  idle_le_active : config.idleFps ≤ config.activeFps
  active_le_max : config.activeFps ≤ config.maxFps

theorem Config.Ordered.active_eq {config : Config} (h : config.Ordered) :
    config.activeFps.toNat = config.idleFps.toNat + config.span := by
  have hle := UInt32.le_iff_toNat_le.mp h.idle_le_active
  rw [span, UInt32.toNat_sub_of_le _ _ h.idle_le_active]
  omega

/-- The rates that the upward ramp has gained after this many frames, rounded down. -/
def Config.gained (config : Config) (frames : Int) : Int :=
  if config.rampUpFrames ≤ 0 then config.span
  else min frames config.rampUpFrames * config.span / config.rampUpFrames

/-- The rates that the downward ramp has lost, rounded up. -/
def Config.lost (config : Config) (frames : Int) : Int :=
  if config.rampDownFrames ≤ 0 then config.span
  else -(-(min frames config.rampDownFrames * config.span) / config.rampDownFrames)

section

variable {frames ramp : Int} {span : Nat}

theorem progress_mul_eq (hramp : 0 < ramp) :
    progress frames ramp * span = ((min frames ramp * span : Int) : ℚ) / (ramp.toNat : ℚ) := by
  have hcast : ((ramp.toNat : Nat) : ℚ) = ramp := by exact_mod_cast Int.toNat_of_nonneg hramp.le
  have hpos : (0 : ℚ) < ramp := by exact_mod_cast hramp
  rw [progress, hcast, ← div_self hpos.ne', min_div_div_right hpos.le, Int.cast_mul, Int.cast_min,
    Int.cast_natCast, div_mul_eq_mul_div]

theorem floor_progress_mul (hramp : 0 < ramp) :
    ⌊progress frames ramp * span⌋ = min frames ramp * span / ramp := by
  rw [progress_mul_eq hramp, Rat.floor_intCast_div_natCast, Int.toNat_of_nonneg hramp.le]

theorem ceil_progress_mul (hramp : 0 < ramp) :
    ⌈progress frames ramp * span⌉ = -(-(min frames ramp * span) / ramp) := by
  rw [progress_mul_eq hramp, Rat.ceil_intCast_div_natCast, Int.toNat_of_nonneg hramp.le]

theorem progress_nonneg (hframes : 0 ≤ frames) (hramp : 0 < ramp) :
    0 ≤ progress frames ramp * span :=
  mul_nonneg (le_min (div_nonneg (by exact_mod_cast hframes) (by exact_mod_cast hramp.le))
    zero_le_one) (Nat.cast_nonneg _)

theorem progress_mul_le : progress frames ramp * span ≤ span :=
  mul_le_of_le_one_left (Nat.cast_nonneg _) (min_le_right _ _)

end

namespace Config

variable {config : Config} {frames frames' : Int}

theorem gained_nonneg (hframes : 0 ≤ frames) : 0 ≤ config.gained frames := by
  unfold gained
  split
  · exact Int.natCast_nonneg _
  · next hramp =>
    rw [← floor_progress_mul (not_le.mp hramp)]
    exact Int.floor_nonneg.mpr (progress_nonneg hframes (not_le.mp hramp))

theorem gained_le (config : Config) (frames : Int) : config.gained frames ≤ config.span := by
  unfold gained
  split
  · exact le_refl _
  · next hramp =>
    rw [← floor_progress_mul (not_le.mp hramp)]
    exact_mod_cast (Int.floor_le _).trans progress_mul_le

theorem lost_nonneg (hframes : 0 ≤ frames) : 0 ≤ config.lost frames := by
  unfold lost
  split
  · exact Int.natCast_nonneg _
  · next hramp =>
    rw [← ceil_progress_mul (not_le.mp hramp)]
    exact Int.ceil_nonneg (progress_nonneg hframes (not_le.mp hramp))

theorem lost_le (config : Config) (frames : Int) : config.lost frames ≤ config.span := by
  unfold lost
  split
  · exact le_refl _
  · next hramp =>
    rw [← ceil_progress_mul (not_le.mp hramp)]
    exact Int.ceil_le.mpr (by exact_mod_cast progress_mul_le)

theorem min_mul_mono (h : frames ≤ frames') (ramp : Int) (span : Nat) :
    min frames ramp * span ≤ min frames' ramp * span :=
  Int.mul_le_mul_of_nonneg_right (min_le_min_right _ h) (Int.natCast_nonneg _)

theorem gained_mono (h : frames ≤ frames') : config.gained frames ≤ config.gained frames' := by
  unfold gained
  split
  · exact le_refl _
  · next hramp => exact Int.ediv_le_ediv (not_le.mp hramp) (min_mul_mono h _ _)

theorem lost_mono (h : frames ≤ frames') : config.lost frames ≤ config.lost frames' := by
  unfold lost
  split
  · exact le_refl _
  · next hramp =>
    exact neg_le_neg (Int.ediv_le_ediv (not_le.mp hramp) (neg_le_neg (min_mul_mono h _ _)))

/-- A rate of the ramps is converted without loss of its whole part. -/
theorem toUInt32_of_le {q : ℚ} {rate : UInt32} (hq : 0 ≤ q) (hle : q ≤ rate.toNat) :
    ∃ fps, toUInt32 q = some fps ∧ (fps.toNat : Int) = ⌊q⌋ := by
  have hfloor : ⌊q⌋₊ ≤ rate.toNat := by simpa using Nat.floor_mono hle
  refine ⟨UInt32.ofNat ⌊q⌋₊, ?_, ?_⟩
  · rw [toUInt32, toUnsigned_of_le hq hle rate.toNat_lt]
    rfl
  · rw [UInt32.toNat_ofNat_of_lt' (hfloor.trans_lt rate.toNat_lt), Int.natCast_floor_eq_floor hq]

theorem rampUp_eq (h : config.Ordered) (hframes : 0 ≤ frames) :
    ∃ fps, config.rampUp frames = some fps ∧
      (fps.toNat : Int) = config.idleFps.toNat + config.gained frames := by
  unfold rampUp gained
  split
  · exact ⟨config.activeFps, rfl, by rw [h.active_eq, Nat.cast_add]⟩
  · next hramp =>
    have hpos := not_le.mp hramp
    have hle : config.idleFps.toNat + progress frames config.rampUpFrames * config.span ≤
        (config.activeFps.toNat : ℚ) := by
      rw [h.active_eq, Nat.cast_add]
      exact add_le_add_right progress_mul_le _
    obtain ⟨fps, hfps, hnat⟩ :=
      toUInt32_of_le (add_nonneg (Nat.cast_nonneg _) (progress_nonneg hframes hpos)) hle
    exact ⟨fps, hfps, by rw [hnat, Int.floor_natCast_add, floor_progress_mul hpos]⟩

theorem rampDown_eq (h : config.Ordered) (hframes : 0 ≤ frames) :
    ∃ fps, config.rampDown frames = some fps ∧
      (fps.toNat : Int) = config.idleFps.toNat + config.span - config.lost frames := by
  unfold rampDown lost
  split
  · exact ⟨config.idleFps, rfl, by omega⟩
  · next hramp =>
    have hpos := not_le.mp hramp
    have hspan : (config.span : ℚ) ≤ config.activeFps.toNat := by
      rw [h.active_eq]
      exact_mod_cast Nat.le_add_left _ _
    have hloss : 0 ≤ progress frames config.rampDownFrames * config.span :=
      progress_nonneg hframes hpos
    have hrate : 0 ≤ (config.activeFps.toNat : ℚ) -
        progress frames config.rampDownFrames * config.span :=
      sub_nonneg.mpr (progress_mul_le.trans hspan)
    obtain ⟨fps, hfps, hnat⟩ := toUInt32_of_le hrate (sub_le_self _ hloss)
    refine ⟨fps, hfps, ?_⟩
    rw [hnat, sub_eq_add_neg, Int.floor_natCast_add, Int.floor_neg, ceil_progress_mul hpos,
      h.active_eq, Nat.cast_add, ← sub_eq_add_neg]

end Config

/-! ## Histories -/

inductive Call where
  | update (detectionCount : Int)
  | reset
  deriving DecidableEq

def call (c : AdaptiveFpsController) : Call → Option AdaptiveFpsController
  | .update detectionCount => c.update detectionCount
  | .reset => some c.reset

/-- Any calls in any order. After an overflow there is no controller to speak of. -/
def system : TransitionSystem (Option AdaptiveFpsController) Call where
  init s := ∃ config, s = some (new config)
  step s l := s.map fun c => c.call l

/-- The target is one of the configured rates. -/
def InRange : Option AdaptiveFpsController → Prop
  | some c => c.config.minFps ≤ c.currentFps ∧ c.currentFps ≤ c.config.maxFps
  | none => False

/-- The call does not move the target against what it was told. -/
def FollowsActivity : Option AdaptiveFpsController → Call → Prop
  | some c, .update detectionCount => ∀ c', c.update detectionCount = some c' →
      if 0 < detectionCount then c.currentFps ≤ c'.currentFps else c'.currentFps ≤ c.currentFps
  | _, _ => True

/-- The counter that the call increments is not at its largest value. -/
def CountersFit : Option AdaptiveFpsController → Call → Prop
  | some c, .update detectionCount =>
      if 0 < detectionCount then Fits (c.framesWithDetection + 1)
      else Fits (c.framesWithoutDetection + 1)
  | _, _ => True

instance : (s : Option AdaptiveFpsController) → (l : Call) → Decidable (CountersFit s l)
  | some c, .update n => inferInstanceAs (Decidable
      (if 0 < n then Fits (c.framesWithDetection + 1) else Fits (c.framesWithoutDetection + 1)))
  | some _, .reset => inferInstanceAs (Decidable True)
  | none, _ => inferInstanceAs (Decidable True)

/-- What the last activity has gained and the last silence has lost covers the distance of
the two rates wherever the one follows the other. -/
def RampsMeet : Option AdaptiveFpsController → Call → Prop
  | some c, .update detectionCount =>
      if 0 < detectionCount then
        0 < c.framesWithoutDetection →
          c.config.span ≤ c.config.gained 1 + c.config.lost c.framesWithoutDetection
      else if 0 < c.framesWithDetection then
        c.config.span ≤ c.config.gained c.framesWithDetection + c.config.lost 1
      else
        c.framesWithoutDetection = 0 → c.config.span ≤ c.config.lost 1
  | _, _ => True

instance : (s : Option AdaptiveFpsController) → (l : Call) → Decidable (RampsMeet s l)
  | some c, .update n => inferInstanceAs (Decidable
      (if 0 < n then 0 < c.framesWithoutDetection →
          c.config.span ≤ c.config.gained 1 + c.config.lost c.framesWithoutDetection
        else if 0 < c.framesWithDetection then
          c.config.span ≤ c.config.gained c.framesWithDetection + c.config.lost 1
        else c.framesWithoutDetection = 0 → c.config.span ≤ c.config.lost 1))
  | some _, .reset => inferInstanceAs (Decidable True)
  | none, _ => inferInstanceAs (Decidable True)

/-! ## The state of the ramps -/

/-- The rate above the idle one, as the two counters determine it. -/
def Config.level (config : Config) (withDetection withoutDetection : Int) : Int :=
  if 0 < withDetection then config.gained withDetection
  else if 0 < withoutDetection then config.span - config.lost withoutDetection
  else 0

structure OnRamp (config : Config) (c : AdaptiveFpsController) : Prop where
  config_eq : c.config = config
  with_nonneg : 0 ≤ c.framesWithDetection
  without_nonneg : 0 ≤ c.framesWithoutDetection
  apart : c.framesWithDetection = 0 ∨ c.framesWithoutDetection = 0
  fps : (c.currentFps.toNat : Int) = config.idleFps.toNat +
    config.level c.framesWithDetection c.framesWithoutDetection

namespace OnRamp

variable {config : Config} {c c' : AdaptiveFpsController} {count : Int}

theorem level_mem (h : OnRamp config c) :
    0 ≤ config.level c.framesWithDetection c.framesWithoutDetection ∧
      config.level c.framesWithDetection c.framesWithoutDetection ≤ config.span := by
  unfold Config.level
  have hgained := config.gained_nonneg h.with_nonneg
  have hgained' := config.gained_le c.framesWithDetection
  have hlost := config.lost_nonneg h.without_nonneg
  have hlost' := config.lost_le c.framesWithoutDetection
  split
  · omega
  · split <;> omega

theorem inRange (h : OnRamp config c) (hconfig : config.Ordered) : InRange (some c) := by
  have hlevel := h.level_mem
  have hfps := h.fps
  have hactive := hconfig.active_eq
  have hmin := UInt32.le_iff_toNat_le.mp hconfig.min_le_idle
  have hmax := UInt32.le_iff_toNat_le.mp hconfig.active_le_max
  rw [InRange, h.config_eq, UInt32.le_iff_toNat_le, UInt32.le_iff_toNat_le]
  constructor <;> omega

/-- The pause between two frames is one of those for the configured rates. -/
theorem frameDelayUs_mem (h : OnRamp config c) (hconfig : config.Ordered) :
    1000000 / config.maxFps.toNat ≤ c.frameDelayUs ∧
      c.frameDelayUs ≤ 1000000 / config.minFps.toNat := by
  have hrange := h.inRange hconfig
  simp only [InRange, h.config_eq, UInt32.le_iff_toNat_le] at hrange
  have hmin : 0 < config.minFps.toNat := UInt32.lt_iff_toNat_lt.mp hconfig.min_pos
  have hne : c.currentFps ≠ 0 := by
    intro hzero
    rw [hzero] at hrange
    exact absurd (hmin.trans_le hrange.1) (lt_irrefl 0)
  rw [frameDelayUs, if_neg hne]
  exact ⟨Nat.div_le_div_left hrange.2 (by omega), Nat.div_le_div_left hrange.1 hmin⟩

theorem new (config : Config) : OnRamp config (new config) where
  config_eq := rfl
  with_nonneg := le_refl _
  without_nonneg := le_refl _
  apart := .inl rfl
  fps := (add_zero _).symm

theorem reset (h : OnRamp config c) : OnRamp config c.reset where
  config_eq := h.config_eq
  with_nonneg := le_refl _
  without_nonneg := le_refl _
  apart := .inl rfl
  fps := by rw [← h.config_eq]; exact (add_zero _).symm

theorem clamp_eq (h : OnRamp config c) (hconfig : config.Ordered) :
    { c with currentFps := clamp c.currentFps c.config.minFps c.config.maxFps } = c := by
  obtain ⟨hmin, hmax⟩ := h.inRange hconfig
  rw [clamp_of_mem hmin hmax]

theorem update_detection (h : OnRamp config c) (hconfig : config.Ordered) (hcount : 0 < count)
    (hfits : Fits (c.framesWithDetection + 1)) :
    ∃ c', c.update count = some c' ∧ OnRamp config c' ∧
      c'.framesWithDetection = c.framesWithDetection + 1 ∧ c'.framesWithoutDetection = 0 := by
  have hpos : 0 < c.framesWithDetection + 1 := Int.lt_add_one_of_le h.with_nonneg
  obtain ⟨fps, hfps, hlevel⟩ := Config.rampUp_eq hconfig hpos.le
  let c' : AdaptiveFpsController :=
    { c with framesWithDetection := c.framesWithDetection + 1,
             framesWithoutDetection := 0, currentFps := fps }
  have hramp : OnRamp config c' :=
    { config_eq := h.config_eq
      with_nonneg := hpos.le
      without_nonneg := le_refl _
      apart := .inr rfl
      fps := by rw [hlevel, Config.level, if_pos hpos] }
  refine ⟨c', ?_, hramp, rfl, rfl⟩
  simp only [update, hcount, if_true, increment, hfits, h.config_eq, hfps, Option.bind_eq_bind,
    Option.bind_some]
  exact congrArg some (by simpa only [c', h.config_eq] using hramp.clamp_eq hconfig)

theorem update_silence (h : OnRamp config c) (hconfig : config.Ordered) (hcount : ¬ 0 < count)
    (hfits : Fits (c.framesWithoutDetection + 1)) :
    ∃ c', c.update count = some c' ∧ OnRamp config c' ∧
      c'.framesWithDetection = 0 ∧ c'.framesWithoutDetection = c.framesWithoutDetection + 1 := by
  have hpos : 0 < c.framesWithoutDetection + 1 := Int.lt_add_one_of_le h.without_nonneg
  obtain ⟨fps, hfps, hlevel⟩ := Config.rampDown_eq hconfig hpos.le
  let c' : AdaptiveFpsController :=
    { c with framesWithoutDetection := c.framesWithoutDetection + 1,
             framesWithDetection := 0, currentFps := fps }
  have hramp : OnRamp config c' :=
    { config_eq := h.config_eq
      with_nonneg := le_refl _
      without_nonneg := hpos.le
      apart := .inl rfl
      fps := by rw [hlevel, Config.level, if_neg (lt_irrefl 0), if_pos hpos, add_sub_assoc] }
  refine ⟨c', ?_, hramp, rfl, rfl⟩
  simp only [update, hcount, if_false, increment, hfits, if_true, h.config_eq, hfps,
    Option.bind_eq_bind, Option.bind_some]
  exact congrArg some (by simpa only [c', h.config_eq] using hramp.clamp_eq hconfig)

end OnRamp

section

variable {config : Config} {c c' : AdaptiveFpsController} {count : Int} {l : Call}

theorem update_eq_none (h : ¬ CountersFit (some c) (.update count)) : c.update count = none := by
  by_cases hcount : 0 < count
  · rw [CountersFit, if_pos hcount] at h
    simp [update, hcount, increment, h]
  · rw [CountersFit, if_neg hcount] at h
    simp [update, hcount, increment, h]

/-- A call goes wrong where a counter ends, and otherwise leaves the target on its ramp. -/
theorem OnRamp.call (h : OnRamp config c) (hconfig : config.Ordered) (l : Call) :
    (CountersFit (some c) l ∧ ∃ c', c.call l = some c' ∧ OnRamp config c') ∨
      (¬ CountersFit (some c) l ∧ c.call l = none) := by
  cases l with
  | reset => exact .inl ⟨trivial, _, rfl, h.reset⟩
  | update count =>
      by_cases hfits : CountersFit (some c) (.update count)
      · refine .inl ⟨hfits, ?_⟩
        by_cases hcount : 0 < count
        · rw [CountersFit, if_pos hcount] at hfits
          obtain ⟨c', hupdate, hramp, -, -⟩ := h.update_detection hconfig hcount hfits
          exact ⟨c', hupdate, hramp⟩
        · rw [CountersFit, if_neg hcount] at hfits
          obtain ⟨c', hupdate, hramp, -, -⟩ := h.update_silence hconfig hcount hfits
          exact ⟨c', hupdate, hramp⟩
      · exact .inr ⟨hfits, update_eq_none hfits⟩

/-- Going up, the target only rises; after a silence it does so where the ramps meet. -/
theorem OnRamp.rises_iff (h : OnRamp config c) (hramp : OnRamp config c')
    (hwith : c'.framesWithDetection = c.framesWithDetection + 1)
    (hwithout : c'.framesWithoutDetection = 0) :
    c.currentFps ≤ c'.currentFps ↔ (0 < c.framesWithoutDetection →
      config.span ≤ config.gained 1 + config.lost c.framesWithoutDetection) := by
  have hfps := h.fps
  have hfps' := hramp.fps
  have hnonneg := h.with_nonneg
  rw [hwith, hwithout, Config.level, if_pos (by omega)] at hfps'
  rw [UInt32.le_iff_toNat_le]
  unfold Config.level at hfps
  split at hfps
  · have hzero : c.framesWithoutDetection = 0 := h.apart.resolve_left (by omega)
    have hgained : config.gained c.framesWithDetection ≤
        config.gained (c.framesWithDetection + 1) := Config.gained_mono (by omega)
    exact iff_of_true (by omega) (fun hpos => absurd hpos (by omega))
  · have hzero : c.framesWithDetection = 0 := by omega
    rw [hzero, zero_add] at hfps'
    split at hfps
    · next hpos =>
      simp only [hpos, true_imp_iff]
      omega
    · next hpos =>
      have hgained : 0 ≤ config.gained 1 := Config.gained_nonneg zero_le_one
      exact iff_of_true (by omega) (fun hpos' => absurd hpos' hpos)

/-- Going down, the target only falls; after an activity it does so where the ramps meet,
and after the start where one frame is the whole way. -/
theorem OnRamp.falls_iff (h : OnRamp config c) (hramp : OnRamp config c')
    (hwith : c'.framesWithDetection = 0)
    (hwithout : c'.framesWithoutDetection = c.framesWithoutDetection + 1) :
    c'.currentFps ≤ c.currentFps ↔
      if 0 < c.framesWithDetection then
        config.span ≤ config.gained c.framesWithDetection + config.lost 1
      else c.framesWithoutDetection = 0 → config.span ≤ config.lost 1 := by
  have hfps := h.fps
  have hfps' := hramp.fps
  have hnonneg := h.without_nonneg
  rw [hwith, hwithout, Config.level, if_neg (lt_irrefl 0), if_pos (by omega)] at hfps'
  rw [UInt32.le_iff_toNat_le]
  unfold Config.level at hfps
  split at hfps
  · next hpos =>
    have hzero : c.framesWithoutDetection = 0 := h.apart.resolve_left (by omega)
    rw [hzero, zero_add] at hfps'
    rw [if_pos hpos]
    omega
  · next hpos =>
    rw [if_neg hpos]
    split at hfps
    · have hlost : config.lost c.framesWithoutDetection ≤
          config.lost (c.framesWithoutDetection + 1) := Config.lost_mono (by omega)
      exact iff_of_true (by omega) (fun hzero => absurd hzero (by omega))
    · have hzero : c.framesWithoutDetection = 0 := by omega
      rw [hzero, zero_add] at hfps'
      simp only [hzero, true_imp_iff]
      omega

theorem OnRamp.followsActivity_iff (h : OnRamp config c) (hconfig : config.Ordered)
    (hfits : CountersFit (some c) l) : FollowsActivity (some c) l ↔ RampsMeet (some c) l := by
  cases l with
  | reset => exact Iff.rfl
  | update count =>
      by_cases hcount : 0 < count
      · rw [CountersFit, if_pos hcount] at hfits
        obtain ⟨c', hupdate, hramp, hwith, hwithout⟩ := h.update_detection hconfig hcount hfits
        simp only [FollowsActivity, RampsMeet, if_pos hcount, hupdate, Option.some.injEq,
          forall_eq', h.config_eq]
        exact h.rises_iff hramp hwith hwithout
      · rw [CountersFit, if_neg hcount] at hfits
        obtain ⟨c', hupdate, hramp, hwith, hwithout⟩ := h.update_silence hconfig hcount hfits
        simp only [FollowsActivity, RampsMeet, if_neg hcount, hupdate, Option.some.injEq,
          forall_eq', h.config_eq]
        exact h.falls_iff hramp hwith hwithout

end

/-! ## Every history -/

/-- The target is in range throughout and never moves against the activity. -/
def RampsMonotonically (t : List (Option AdaptiveFpsController × Call))
    (s : Option AdaptiveFpsController) : Prop :=
  TransitionSystem.Respects FollowsActivity t ∧ TransitionSystem.Throughout InRange t s

/-- A controller that is on its ramps, unless its counters have ended. -/
def Ramping (config : Config) (s : Option AdaptiveFpsController) : Prop :=
  ∀ c, s = some c → OnRamp config c

theorem Ramping.step {config : Config} (hconfig : config.Ordered)
    {s s' : Option AdaptiveFpsController} {l : Call} (h : Ramping config s)
    (hstep : system.step s l = some s') : Ramping config s' := by
  obtain ⟨c, rfl, rfl⟩ := Option.map_eq_some_iff.mp hstep
  rintro c' hc'
  rcases (h c rfl).call hconfig l with ⟨-, c₁, hcall, hramp⟩ | ⟨-, hcall⟩
  · obtain rfl : c₁ = c' := Option.some.inj (hcall.symm.trans hc')
    exact hramp
  · exact absurd (hcall.symm.trans hc') (by simp)

/-- The range is kept as long as the counters are. -/
theorem throughout_inRange_iff {config : Config} (hconfig : config.Ordered)
    {t : List (Option AdaptiveFpsController × Call)} {s : Option AdaptiveFpsController}
    (hrun : system.Run (some (new config)) t s) :
    TransitionSystem.Throughout InRange t s ↔ TransitionSystem.Respects CountersFit t := by
  refine hrun.throughout_iff_respects (I := Ramping config)
    (fun _ _ _ h hs => h.step hconfig hs) ?_ ?_ ((OnRamp.new config).inRange hconfig)
  · rintro s l s' h - hs
    obtain ⟨c, rfl, rfl⟩ := Option.map_eq_some_iff.mp hs
    rcases (h c rfl).call hconfig l with ⟨hfits, c', hcall, hramp⟩ | ⟨hfits, hcall⟩
    · exact iff_of_true (hcall ▸ hramp.inRange hconfig) hfits
    · exact iff_of_false (fun hrange => by rw [hcall] at hrange; exact hrange) hfits
  · rintro c hc
    obtain rfl := Option.some.inj hc
    exact OnRamp.new config

/-- A history is monotone exactly where no counter ends and every change between activity
and silence finds the ramps meeting. -/
theorem rampsMonotonically_iff {config : Config} (hconfig : config.Ordered)
    {t : List (Option AdaptiveFpsController × Call)} {s : Option AdaptiveFpsController}
    (hrun : system.Run (some (new config)) t s) :
    RampsMonotonically t s ↔
      TransitionSystem.Respects (fun s l => CountersFit s l ∧ RampsMeet s l) t := by
  have hmeet : TransitionSystem.Respects (fun s l => CountersFit s l ∧ FollowsActivity s l) t ↔
      TransitionSystem.Respects (fun s l => CountersFit s l ∧ RampsMeet s l) t := by
    refine hrun.respects_congr (I := Ramping config) (fun _ _ _ h hs => h.step hconfig hs) ?_ ?_
    · rintro s l s' h hs
      obtain ⟨c, rfl, -⟩ := Option.map_eq_some_iff.mp hs
      exact and_congr_right fun hfits => (h c rfl).followsActivity_iff hconfig hfits
    · rintro c hc
      obtain rfl := Option.some.inj hc
      exact OnRamp.new config
  rw [← hmeet, TransitionSystem.respects_and, RampsMonotonically,
    throughout_inRange_iff hconfig hrun, and_comm]

theorem rampsMonotonically_iff_steep :
    ∃ t s, system.Run (some (new { rampDownFrames := 1 })) t s ∧
      t.map Prod.snd = [.update 3, .update 0, .update 0, .reset, .update 2] ∧
      RampsMonotonically t s := by
  have hordered : Config.Ordered { rampDownFrames := 1 } :=
    ⟨by decide, by decide, by decide, by decide⟩
  have hview : (system.execTrace (some (new { rampDownFrames := 1 }))
      [.update 3, .update 0, .update 0, .reset, .update 2]).map
      (fun r => decide (TransitionSystem.Respects
        (fun s l => CountersFit s l ∧ RampsMeet s l) r.1)) = some true := by decide +kernel
  obtain ⟨t, s, hrun, hcalls, hmeet⟩ := TransitionSystem.exists_run_of_execTrace hview
  exact ⟨t, s, hrun, hcalls, (rampsMonotonically_iff hordered hrun).mpr (of_decide_eq_true hmeet)⟩

/-- With the default configuration the first silent frame raises the target from 10 to 29. -/
theorem not_rampsMonotonically_first_silence :
    ¬ ∀ config, Config.Ordered config → ∀ t s, system.Run (some (new config)) t s →
      RampsMonotonically t s := by
  intro hclaim
  have hordered : Config.Ordered {} := ⟨by decide, by decide, by decide, by decide⟩
  have hrun : system.Run (some (new {})) [(some (new {}), .update 0)] ((new {}).update 0) :=
    .snoc (t := []) .nil rfl
  have hupdate : (new {}).update 0 = some
      { config := {}, currentFps := 29, framesWithoutDetection := 1 } := by decide +kernel
  have hfollows := (hclaim {} hordered _ _ hrun).1 _ (List.mem_singleton_self _)
  exact absurd (hfollows _ hupdate) (by decide)

end AdaptiveFpsController
