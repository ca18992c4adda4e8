-- SUMMARY: Token buckets: what a bucket has paid for in a window of time is bounded by its capacity and rate.
import Mathlib.Algebra.Order.Field.Basic
import Mathlib.Data.Nat.Cast.Order.Ring
import Mathlib.Tactic.Linarith

/-!
# Token buckets

A bucket of bounded capacity is refilled at a constant rate, and everything that
is served costs one token. The times of what was served are kept beside it.
-/

structure TokenBucket (K : Type*) where
  capacity : K
  rate : K
  level : K
  /-- the time at which the level was right -/
  stamp : K

namespace TokenBucket

variable {K : Type*} [Field K] [LinearOrder K] [IsStrictOrderedRing K]

def full (capacity rate now : K) : TokenBucket K := ⟨capacity, rate, capacity, now⟩

def refill (b : TokenBucket K) (now : K) : TokenBucket K :=
  { b with level := min b.capacity (b.level + (now - b.stamp) * b.rate), stamp := now }

def spend (b : TokenBucket K) : TokenBucket K := { b with level := b.level - 1 }

/-! ## Windows -/

/-- How many of the times are in the window. -/
def countIn (served : List K) (a c : K) : Nat := served.countP fun t => a ≤ t ∧ t ≤ c

/-- How many of the times are not before `a`. -/
def countFrom (served : List K) (a : K) : Nat := served.countP fun t => a ≤ t

section

omit [Field K] [IsStrictOrderedRing K]

theorem countIn_snoc (served : List K) (now a c : K) :
    countIn (served ++ [now]) a c = countIn served a c + if a ≤ now ∧ now ≤ c then 1 else 0 := by
  simp [countIn, List.countP_append, List.countP_singleton]

theorem countFrom_snoc (served : List K) (now a : K) :
    countFrom (served ++ [now]) a = countFrom served a + if a ≤ now then 1 else 0 := by
  simp [countFrom, List.countP_append, List.countP_singleton]

theorem countIn_le_countFrom (served : List K) (a c : K) :
    countIn served a c ≤ countFrom served a := by
  refine List.countP_mono_left fun t _ ht => ?_
  simp only [decide_eq_true_eq] at ht ⊢
  exact ht.1

theorem countFrom_eq_zero {served : List K} {a : K} (h : ∀ t ∈ served, t < a) :
    countFrom served a = 0 := by
  refine List.countP_eq_zero.mpr fun t ht => ?_
  simpa using h t ht

end

/-! ## What a bucket has paid for -/

/-- The tokens spent since any time, and those left, are covered by the capacity
and by what has been refilled. -/
structure Pays (b : TokenBucket K) (served : List K) : Prop where
  rate_nonneg : 0 ≤ b.rate
  level_nonneg : 0 ≤ b.level
  level_le : b.level ≤ b.capacity
  past : ∀ t ∈ served, t ≤ b.stamp
  paid : ∀ a ≤ b.stamp, countFrom served a + b.level ≤ b.capacity + b.rate * (b.stamp - a)
  window : ∀ a c, a ≤ c → (countIn served a c : K) ≤ b.capacity + b.rate * (c - a)

namespace Pays

variable {b : TokenBucket K} {served : List K}

theorem full {capacity rate now : K} (hcapacity : 0 ≤ capacity) (hrate : 0 ≤ rate) :
    (full capacity rate now).Pays [] where
  rate_nonneg := hrate
  level_nonneg := hcapacity
  level_le := le_refl capacity
  past t ht := by cases ht
  paid a ha := by
    have hrefilled : 0 ≤ rate * (now - a) := mul_nonneg hrate (sub_nonneg.mpr ha)
    simpa [countFrom, TokenBucket.full] using hrefilled
  window a c hac := by
    have hrefilled : 0 ≤ rate * (c - a) := mul_nonneg hrate (sub_nonneg.mpr hac)
    simpa [countIn, TokenBucket.full] using add_nonneg hcapacity hrefilled

theorem refill (h : b.Pays served) {now : K} (hnow : b.stamp ≤ now) :
    (b.refill now).Pays served := by
  have hrate := h.rate_nonneg
  have hcapacity : 0 ≤ b.capacity := h.level_nonneg.trans h.level_le
  have hrefilled : 0 ≤ (now - b.stamp) * b.rate := mul_nonneg (sub_nonneg.mpr hnow) hrate
  constructor
  · exact hrate
  · exact le_min hcapacity (add_nonneg h.level_nonneg hrefilled)
  · exact min_le_left _ _
  · exact fun t ht => (h.past t ht).trans hnow
  · intro a ha
    change (countFrom served a : K) + min b.capacity _ ≤ b.capacity + b.rate * (now - a)
    rcases le_or_gt a b.stamp with hbefore | hafter
    · have hpaid := h.paid a hbefore
      have hmin := min_le_right b.capacity (b.level + (now - b.stamp) * b.rate)
      linarith
    · -- nothing was served since, and the bucket is at most full
      have hnone : countFrom served a = 0 :=
        countFrom_eq_zero fun t ht => lt_of_le_of_lt (h.past t ht) hafter
      have hmin := min_le_left b.capacity (b.level + (now - b.stamp) * b.rate)
      have hlater : 0 ≤ b.rate * (now - a) := mul_nonneg hrate (sub_nonneg.mpr ha)
      rw [hnone, Nat.cast_zero]
      linarith
  · exact h.window

/-- A token for something that does not count. -/
theorem spend (h : b.Pays served) (hlevel : 1 ≤ b.level) : b.spend.Pays served := by
  constructor
  · exact h.rate_nonneg
  · exact sub_nonneg.mpr hlevel
  · exact (sub_le_self _ zero_le_one).trans h.level_le
  · exact h.past
  · intro a ha
    have hpaid := h.paid a ha
    change (countFrom served a : K) + (b.level - 1) ≤ b.capacity + b.rate * (b.stamp - a)
    linarith
  · exact h.window

theorem serve (h : b.Pays served) (hlevel : 1 ≤ b.level) :
    b.spend.Pays (served ++ [b.stamp]) := by
  have hpaid : ∀ a ≤ b.stamp, (countFrom (served ++ [b.stamp]) a : K) + (b.level - 1) ≤
      b.capacity + b.rate * (b.stamp - a) := by
    intro a ha
    rw [countFrom_snoc, if_pos ha, Nat.cast_add, Nat.cast_one]
    have hbefore := h.paid a ha
    linarith
  constructor
  · exact h.rate_nonneg
  · exact sub_nonneg.mpr hlevel
  · exact (sub_le_self _ zero_le_one).trans h.level_le
  · intro t ht
    rcases List.mem_append.mp ht with hbefore | hnow
    · exact h.past t hbefore
    · exact (List.mem_singleton.mp hnow).le
  · exact hpaid
  · intro a c hac
    by_cases hin : a ≤ b.stamp ∧ b.stamp ≤ c
    · obtain ⟨ha, hc⟩ := hin
      have hcount := countIn_le_countFrom (served ++ [b.stamp]) a c
      have hcast : (countIn (served ++ [b.stamp]) a c : K) ≤ countFrom (served ++ [b.stamp]) a :=
        Nat.cast_le.mpr hcount
      have hlater : b.rate * (b.stamp - a) ≤ b.rate * (c - a) :=
        mul_le_mul_of_nonneg_left (sub_le_sub_right hc a) h.rate_nonneg
      have hnow := hpaid a ha
      change (countIn (served ++ [b.stamp]) a c : K) ≤ b.capacity + b.rate * (c - a)
      linarith
    · rw [countIn_snoc, if_neg hin]
      exact h.window a c hac

end Pays

end TokenBucket
