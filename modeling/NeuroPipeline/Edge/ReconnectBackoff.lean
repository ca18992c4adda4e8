-- SUMMARY: The pause before an attempt to reconnect, and exactly when it is computed without an overflow.
import NeuroPipeline.Lib.CheckedInt
import NeuroPipeline.Edge.GrpcClient
import Mathlib.Tactic.Linarith
import Mathlib.Tactic.Positivity

/-!
# Pauses of the reconnect path

`GetBackoffMs` doubles the initial pause with every attempt. The cap is applied to the
product, which has to fit an `int` before.
-/

namespace GrpcClient

def getBackoffMs (config : Config) (attempt : Int) : CheckedInt :=
  let backoff := .of config.initialBackoffMs *
    (CheckedInt.of 1).shiftLeft ((CheckedInt.of attempt).minimum (.of 15))
  backoff.minimum (.of 30000)

/-- What the product of an attempt is. -/
def doubled (config : Config) (attempt : Int) : Int :=
  config.initialBackoffMs * 2 ^ (min attempt 15).toNat

/-- The pause of an attempt is one that a thread can sleep, and no attempt before it has
slept longer. -/
structure BackoffSound (config : Config) (attempt : Int) : Prop where
  defined : (getBackoffMs config attempt).Defined
  nonneg : 0 ≤ (getBackoffMs config attempt).value
  le_cap : (getBackoffMs config attempt).value ≤ 30000
  mono : ∀ earlier, 0 ≤ earlier → earlier ≤ attempt → (getBackoffMs config earlier).Defined ∧
    (getBackoffMs config earlier).value ≤ (getBackoffMs config attempt).value

variable {config : Config} {attempt earlier : Int}

theorem getBackoffMs_value (config : Config) (attempt : Int) :
    (getBackoffMs config attempt).value = min (doubled config attempt) 30000 := by
  simp [getBackoffMs, doubled]

theorem doubled_nonneg (hinitial : 0 ≤ config.initialBackoffMs) (attempt : Int) :
    0 ≤ doubled config attempt :=
  Int.mul_nonneg hinitial (by positivity)

theorem doubled_mono (hinitial : 0 ≤ config.initialBackoffMs) (h : earlier ≤ attempt) :
    doubled config earlier ≤ doubled config attempt := by
  have hexponent : (min earlier 15).toNat ≤ (min attempt 15).toNat :=
    Int.toNat_le_toNat (min_le_min_right _ h)
  exact Int.mul_le_mul_of_nonneg_left (pow_le_pow_right₀ (by norm_num) hexponent) hinitial

/-- The shift is one of at most 15 places. -/
theorem shift_fits (hattempt : 0 ≤ attempt) :
    (0 ≤ min attempt 15 ∧ min attempt 15 < 32) ∧ Fits (1 * 2 ^ (min attempt 15).toNat) := by
  have hexponent : (min attempt 15).toNat ≤ 15 := by omega
  have hpow : (2 : Int) ^ (min attempt 15).toNat ≤ 2 ^ 15 :=
    pow_le_pow_right₀ (by norm_num) hexponent
  have hpos : (0 : Int) ≤ 2 ^ (min attempt 15).toNat := by positivity
  refine ⟨by omega, ?_, ?_⟩ <;> rw [one_mul] <;> linarith

theorem getBackoffMs_defined_iff (hinitial : 0 ≤ config.initialBackoffMs)
    (hfits : Fits config.initialBackoffMs) (hattempt : 0 ≤ attempt) (hfits' : Fits attempt) :
    (getBackoffMs config attempt).Defined ↔ doubled config attempt < 2 ^ 31 := by
  have hnonneg := doubled_nonneg hinitial attempt
  have hproduct : Fits (doubled config attempt) ↔ doubled config attempt < 2 ^ 31 :=
    and_iff_right (by omega)
  have hfifteen : Fits 15 := by decide
  have hone : Fits 1 := by decide
  have hcap : Fits 30000 := by decide
  obtain ⟨hshift, hpow⟩ := shift_fits hattempt
  rw [← hproduct]
  simp only [getBackoffMs, CheckedInt.defined_minimum, CheckedInt.defined_mul,
    CheckedInt.defined_shiftLeft, CheckedInt.defined_of, CheckedInt.value_minimum,
    CheckedInt.value_shiftLeft, CheckedInt.value_of, hfits, hfits', hfifteen, hone, hcap, hshift,
    hpow, true_and, and_true]
  rw [one_mul, doubled]

/-- Only the product can go wrong: an attempt is sound exactly when it fits. -/
theorem backoffSound_iff (hinitial : 0 ≤ config.initialBackoffMs)
    (hfits : Fits config.initialBackoffMs) (hattempt : 0 ≤ attempt) (hfits' : Fits attempt) :
    BackoffSound config attempt ↔
      config.initialBackoffMs * 2 ^ (min attempt 15).toNat < 2 ^ 31 := by
  have hdefined := getBackoffMs_defined_iff hinitial hfits hattempt hfits'
  constructor
  · intro h
    exact hdefined.mp h.defined
  · intro h
    refine ⟨hdefined.mpr h, ?_, ?_, ?_⟩
    · rw [getBackoffMs_value]
      exact le_min (doubled_nonneg hinitial attempt) (by norm_num)
    · rw [getBackoffMs_value]
      exact min_le_right _ _
    · intro earlier hearlier hle
      have hmono := doubled_mono hinitial hle
      have hfits'' : Fits earlier := ⟨by omega, hle.trans_lt hfits'.2⟩
      rw [getBackoffMs_defined_iff hinitial hfits hearlier hfits'', getBackoffMs_value,
        getBackoffMs_value]
      exact ⟨hmono.trans_lt h, min_le_min_right _ hmono⟩

/-- The default configuration, at its last attempt. -/
theorem backoffSound_iff_default : BackoffSound {} 10 :=
  (backoffSound_iff (by decide) (by decide) (by decide) (by decide)).mpr (by decide)

/-- A pause of about a minute overflows with the sixteenth attempt. -/
theorem not_backoffSound_minute :
    ¬ ∀ config attempt, 0 ≤ config.initialBackoffMs → Fits config.initialBackoffMs →
      0 ≤ attempt → Fits attempt → BackoffSound config attempt := by
  intro hclaim
  have hsound := hclaim { initialBackoffMs := 65536 } 15 (by decide) (by decide) (by decide)
    (by decide)
  exact absurd hsound.defined (by decide)

end GrpcClient
