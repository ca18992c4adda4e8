-- SUMMARY: The rate limiter: a token bucket for each device.
import Mathlib.Algebra.Order.Ring.Rat
import Mathlib.Logic.Function.Basic
import NeuroPipeline.Lib.TokenBucket

/-!
# Rate limiter

Model of rate_limiter.py. Times are readings of the monotonic clock, in seconds
and exact.
-/

/-- `_Bucket`. -/
structure Bucket where
  burst : Int
  refillRate : ℚ
  tokens : ℚ
  lastRefill : ℚ

namespace Bucket

def new (burst : Int) (refillRate now : ℚ) : Bucket := ⟨burst, refillRate, burst, now⟩

def consume (b : Bucket) (now : ℚ) : Bucket × Bool :=
  let elapsed := now - b.lastRefill
  let tokens := min (b.burst : ℚ) (b.tokens + elapsed * b.refillRate)
  if 1 ≤ tokens then ({ b with tokens := tokens - 1, lastRefill := now }, true)
  else ({ b with tokens := tokens, lastRefill := now }, false)

/-- The bucket as one of the library. -/
def meter (b : Bucket) : TokenBucket ℚ where
  capacity := b.burst
  rate := b.refillRate
  level := b.tokens
  stamp := b.lastRefill

theorem meter_new (burst : Int) (refillRate now : ℚ) :
    (new burst refillRate now).meter = .full (burst : ℚ) refillRate now := rfl

/-- A call refills the bucket, and takes a token if there is one. -/
theorem consume_cases (b : Bucket) (now : ℚ) :
    ((b.consume now).2 = true ∧ 1 ≤ (b.meter.refill now).level ∧
      (b.consume now).1.meter = (b.meter.refill now).spend) ∨
    ((b.consume now).2 = false ∧ (b.consume now).1.meter = b.meter.refill now) := by
  by_cases htoken : 1 ≤ (b.meter.refill now).level
  · have hconsume : b.consume now = ({ b with
        tokens := (b.meter.refill now).level - 1, lastRefill := now }, true) := if_pos htoken
    rw [hconsume]
    exact .inl ⟨rfl, htoken, rfl⟩
  · have hconsume : b.consume now = ({ b with
        tokens := (b.meter.refill now).level, lastRefill := now }, false) := if_neg htoken
    rw [hconsume]
    exact .inr ⟨rfl, rfl⟩

theorem consume_limits (b : Bucket) (now : ℚ) :
    (b.consume now).1.burst = b.burst ∧ (b.consume now).1.refillRate = b.refillRate ∧
      (b.consume now).1.lastRefill = now := by
  simp only [consume]
  split <;> exact ⟨rfl, rfl, rfl⟩

end Bucket

structure TokenBucketRateLimiter where
  maxPerSec : ℚ := 100
  burst : Int := 20
  buckets : String → Option Bucket := fun _ => none

namespace TokenBucketRateLimiter

/-- `device_id or "__global__"`. -/
def key (deviceId : String) : String := if deviceId = "" then "__global__" else deviceId

/-- The bucket of a key, which is made when it is first asked for. -/
def bucket (r : TokenBucketRateLimiter) (now : ℚ) (k : String) : Bucket :=
  (r.buckets k).getD (.new r.burst r.maxPerSec now)

def put (r : TokenBucketRateLimiter) (k : String) (b : Bucket) : TokenBucketRateLimiter :=
  { r with buckets := Function.update r.buckets k (some b) }

def allow (r : TokenBucketRateLimiter) (deviceId : String) (now : ℚ) :
    TokenBucketRateLimiter × Bool :=
  let result := (r.bucket now (key deviceId)).consume now
  (r.put (key deviceId) result.1, result.2)

/-- `update_limits`: buckets are made anew, with the new limits. -/
def updateLimits (r : TokenBucketRateLimiter) (maxPerSec : ℚ) (burst : Int) :
    TokenBucketRateLimiter :=
  { r with maxPerSec := maxPerSec, burst := burst, buckets := fun _ => none }

/-- The limits that a request with this key meets: rate and burst. -/
def limits (r : TokenBucketRateLimiter) (k : String) : ℚ × Int :=
  match r.buckets k with
  | some b => (b.refillRate, b.burst)
  | none => (r.maxPerSec, r.burst)

variable {r : TokenBucketRateLimiter} {now : ℚ}

@[simp] theorem limits_updateLimits (maxPerSec : ℚ) (burst : Int) :
    (r.updateLimits maxPerSec burst).limits = fun _ => (maxPerSec, burst) := rfl

@[simp] theorem put_self (k : String) (b : Bucket) : (r.put k b).buckets k = some b :=
  Function.update_self _ _ _

theorem put_of_ne {j k : String} (b : Bucket) (h : j ≠ k) :
    (r.put k b).buckets j = r.buckets j :=
  Function.update_of_ne h _ _

/-- A request changes the limits of no key. -/
@[simp] theorem limits_allow (r : TokenBucketRateLimiter) (deviceId : String) (now : ℚ) :
    (r.allow deviceId now).1.limits = r.limits := by
  funext k
  obtain ⟨hburst, hrate, -⟩ := (r.bucket now (key deviceId)).consume_limits now
  by_cases h : k = key deviceId
  · subst h
    cases hb : r.buckets (key deviceId) <;>
      simp_all [limits, allow, bucket, Bucket.new]
  · have hk : (r.allow deviceId now).1.buckets k = r.buckets k := put_of_ne _ h
    simp only [limits, hk]
    rfl

theorem key_of_ne {deviceId : String} (h : deviceId ≠ "") : key deviceId = deviceId := if_neg h

/-! ## What the buckets have paid for -/

/-- Every bucket has the limits of the limiter and has paid for what was served on
its key. -/
structure Accounts (r : TokenBucketRateLimiter) (now : ℚ) (served : String → List ℚ) : Prop where
  burst_nonneg : 0 ≤ r.burst
  rate_nonneg : 0 ≤ r.maxPerSec
  unused : ∀ k, r.buckets k = none → served k = []
  used : ∀ k b, r.buckets k = some b → b.burst = r.burst ∧ b.refillRate = r.maxPerSec ∧
    b.lastRefill ≤ now ∧ b.meter.Pays (served k)

namespace Accounts

variable {served : String → List ℚ}

theorem new (hburst : 0 ≤ r.burst) (hrate : 0 ≤ r.maxPerSec) (hnew : ∀ k, r.buckets k = none) :
    r.Accounts now fun _ => [] where
  burst_nonneg := hburst
  rate_nonneg := hrate
  unused _ _ := rfl
  used k b hb := by
    rw [hnew k] at hb
    cases hb

theorem later (h : r.Accounts now served) {now' : ℚ} (hle : now ≤ now') :
    r.Accounts now' served where
  burst_nonneg := h.burst_nonneg
  rate_nonneg := h.rate_nonneg
  unused := h.unused
  used k b hb := by
    obtain ⟨hburst, hrate, hpast, hpays⟩ := h.used k b hb
    exact ⟨hburst, hrate, hpast.trans hle, hpays⟩

theorem bucket_pays (h : r.Accounts now served) (k : String) :
    (r.bucket now k).burst = r.burst ∧ (r.bucket now k).refillRate = r.maxPerSec ∧
      (r.bucket now k).lastRefill ≤ now ∧ (r.bucket now k).meter.Pays (served k) := by
  cases hb : r.buckets k with
  | none =>
      simp only [bucket, hb, Option.getD_none]
      refine ⟨rfl, rfl, le_refl now, ?_⟩
      rw [h.unused k hb, Bucket.meter_new]
      exact TokenBucket.Pays.full (Int.cast_nonneg h.burst_nonneg) h.rate_nonneg
  | some b =>
      simp only [bucket, hb, Option.getD_some]
      exact h.used k b hb

/-- One bucket is replaced, and what was served on its key. -/
theorem put (h : r.Accounts now served) (k : String) {b : Bucket} {times : List ℚ}
    (hburst : b.burst = r.burst) (hrate : b.refillRate = r.maxPerSec) (hpast : b.lastRefill ≤ now)
    (hpays : b.meter.Pays times) :
    (r.put k b).Accounts now (Function.update served k times) where
  burst_nonneg := h.burst_nonneg
  rate_nonneg := h.rate_nonneg
  unused j hj := by
    rcases eq_or_ne j k with rfl | hne
    · simp at hj
    · rw [put_of_ne b hne] at hj
      rw [Function.update_of_ne hne]
      exact h.unused j hj
  used j c hc := by
    rcases eq_or_ne j k with rfl | hne
    · rw [put_self] at hc
      obtain rfl := Option.some.inj hc
      rw [Function.update_self]
      exact ⟨hburst, hrate, hpast, hpays⟩
    · rw [put_of_ne b hne] at hc
      rw [Function.update_of_ne hne]
      exact h.used j c hc

/-- A call whose outcome does not count. -/
theorem allow (h : r.Accounts now served) (deviceId : String) :
    (r.allow deviceId now).1.Accounts now served := by
  obtain ⟨hburst, hrate, hpast, hpays⟩ := h.bucket_pays (key deviceId)
  obtain ⟨hburst', hrate', hlast⟩ := (r.bucket now (key deviceId)).consume_limits now
  have hafter : ((r.bucket now (key deviceId)).consume now).1.meter.Pays (served (key deviceId)) := by
    rcases (r.bucket now (key deviceId)).consume_cases now with ⟨-, htoken, hmeter⟩ | ⟨-, hmeter⟩
    · rw [hmeter]
      exact (hpays.refill hpast).spend htoken
    · rw [hmeter]
      exact hpays.refill hpast
  have hput := h.put (key deviceId) (hburst'.trans hburst) (hrate'.trans hrate) hlast.le hafter
  rwa [Function.update_eq_self] at hput

/-- An allowed call pays for one more on its key. -/
theorem serve (h : r.Accounts now served) {deviceId : String}
    (hallowed : (r.allow deviceId now).2 = true) :
    (r.allow deviceId now).1.Accounts now
      (Function.update served (key deviceId) (served (key deviceId) ++ [now])) := by
  obtain ⟨hburst, hrate, hpast, hpays⟩ := h.bucket_pays (key deviceId)
  obtain ⟨hburst', hrate', hlast⟩ := (r.bucket now (key deviceId)).consume_limits now
  refine h.put (key deviceId) (hburst'.trans hburst) (hrate'.trans hrate) hlast.le ?_
  rcases (r.bucket now (key deviceId)).consume_cases now with ⟨-, htoken, hmeter⟩ | ⟨hrefused, -⟩
  · rw [hmeter]
    exact (hpays.refill hpast).serve htoken
  · cases hrefused.symm.trans hallowed

/-- The window bound. -/
theorem window (h : r.Accounts now served) (k : String) {a c : ℚ} (hac : a ≤ c) :
    (TokenBucket.countIn (served k) a c : ℚ) ≤ r.burst + r.maxPerSec * (c - a) := by
  obtain ⟨hburst, hrate, -, hpays⟩ := h.bucket_pays k
  have hwindow := hpays.window a c hac
  simpa only [Bucket.meter, hburst, hrate] using hwindow

end Accounts

end TokenBucketRateLimiter
