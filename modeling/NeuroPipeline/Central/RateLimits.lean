-- SUMMARY: Runs of the rate limiter: what a device is allowed in any window of time, whatever the others do.
import NeuroPipeline.Central.RateLimiter

/-!
# Limits over runs

Calls of `allow` one after the other, with the limits as they are. The clock is
read by `_Bucket.__init__` when the key has no bucket yet, and again by `consume`.
-/

structure AllowCall where
  deviceId : String
  /-- when the bucket is made, if it is -/
  made : ℚ
  /-- when it is asked for a token -/
  now : ℚ
  deriving DecidableEq

namespace AllowCall

/-- The clock does not go back. -/
def Ticks (clock : ℚ) : List AllowCall → Prop
  | [] => True
  | c :: calls => clock ≤ c.made ∧ c.made ≤ c.now ∧ Ticks c.now calls

instance Ticks.decidable : (clock : ℚ) → (calls : List AllowCall) → Decidable (Ticks clock calls)
  | _, [] => isTrue trivial
  | clock, c :: calls =>
    have := Ticks.decidable c.now calls
    inferInstanceAs (Decidable (clock ≤ c.made ∧ c.made ≤ c.now ∧ Ticks c.now calls))

end AllowCall

namespace Bucket

/-- A new bucket is full whenever it is first asked. -/
theorem consume_new {burst : Int} {refillRate made now : ℚ} (hrate : 0 ≤ refillRate)
    (hle : made ≤ now) :
    (new burst refillRate made).consume now = (new burst refillRate now).consume now := by
  have hrefilled : 0 ≤ (now - made) * refillRate := mul_nonneg (sub_nonneg.mpr hle) hrate
  have hfull : min (burst : ℚ) (burst + (now - made) * refillRate) = burst :=
    min_eq_left (le_add_of_nonneg_right hrefilled)
  have hfresh : min (burst : ℚ) (burst + (now - now) * refillRate) = burst := by
    rw [sub_self, zero_mul, add_zero, min_self]
  simp only [consume, new, hfull, hfresh]

end Bucket

namespace TokenBucketRateLimiter

/-- `allow`, with both readings of the clock. -/
def allowAt (r : TokenBucketRateLimiter) (c : AllowCall) : TokenBucketRateLimiter × Bool :=
  let result := (r.bucket c.made (key c.deviceId)).consume c.now
  (r.put (key c.deviceId) result.1, result.2)

theorem allowAt_eq {r : TokenBucketRateLimiter} {c : AllowCall} (hrate : 0 ≤ r.maxPerSec)
    (hle : c.made ≤ c.now) : r.allowAt c = r.allow c.deviceId c.now := by
  have hconsume : (r.bucket c.made (key c.deviceId)).consume c.now =
      (r.bucket c.now (key c.deviceId)).consume c.now := by
    cases hb : r.buckets (key c.deviceId) with
    | none =>
        simp only [bucket, hb, Option.getD_none]
        exact Bucket.consume_new hrate hle
    | some b => simp only [bucket, hb, Option.getD_some]
  simp only [allowAt, allow, hconsume]

/-- What an answer depends on: the limits, and the bucket of the key. -/
theorem allowAt_congr {r r' : TokenBucketRateLimiter} {c : AllowCall}
    (hrate : r.maxPerSec = r'.maxPerSec) (hburst : r.burst = r'.burst)
    (hbucket : r.buckets (key c.deviceId) = r'.buckets (key c.deviceId)) :
    (r.allowAt c).2 = (r'.allowAt c).2 ∧ (r.allowAt c).1.buckets (key c.deviceId) =
      (r'.allowAt c).1.buckets (key c.deviceId) := by
  have hsame : r.bucket c.made (key c.deviceId) = r'.bucket c.made (key c.deviceId) := by
    simp only [bucket, hrate, hburst, hbucket]
  simp only [allowAt, hsame, put_self, and_self]

theorem allowAt_other (r : TokenBucketRateLimiter) {c : AllowCall} {k : String}
    (h : k ≠ key c.deviceId) : (r.allowAt c).1.buckets k = r.buckets k :=
  put_of_ne _ h

end TokenBucketRateLimiter

/-! ## Runs -/

structure LimiterRun where
  limiter : TokenBucketRateLimiter
  answers : List (AllowCall × Bool) := []

namespace LimiterRun

open TokenBucketRateLimiter (key key_of_ne)

def serve (s : LimiterRun) (c : AllowCall) : LimiterRun where
  limiter := (s.limiter.allowAt c).1
  answers := s.answers ++ [(c, (s.limiter.allowAt c).2)]

def serveAll (s : LimiterRun) (calls : List AllowCall) : LimiterRun := calls.foldl serve s

/-- A limiter that has not been called. -/
def start (maxPerSec : ℚ) (burst : Int) : LimiterRun where
  limiter := { maxPerSec := maxPerSec, burst := burst }

/-- How many calls of the device were allowed in a window. -/
def allowedIn (s : LimiterRun) (deviceId : String) (a c : ℚ) : Nat :=
  s.answers.countP fun p => p.1.deviceId = deviceId ∧ p.2 ∧ a ≤ p.1.now ∧ p.1.now ≤ c

def answersOf (s : LimiterRun) (deviceId : String) : List (AllowCall × Bool) :=
  s.answers.filter fun p => p.1.deviceId = deviceId

/-- The times of the allowed calls with the key. -/
def served (s : LimiterRun) (k : String) : List ℚ :=
  (s.answers.filter fun p => key p.1.deviceId = k ∧ p.2).map fun p => p.1.now

@[simp] theorem serve_maxPerSec (s : LimiterRun) (c : AllowCall) :
    (s.serve c).limiter.maxPerSec = s.limiter.maxPerSec := rfl

@[simp] theorem serve_burst (s : LimiterRun) (c : AllowCall) :
    (s.serve c).limiter.burst = s.limiter.burst := rfl

@[simp] theorem serveAll_maxPerSec (s : LimiterRun) (calls : List AllowCall) :
    (s.serveAll calls).limiter.maxPerSec = s.limiter.maxPerSec := by
  induction calls generalizing s with
  | nil => rfl
  | cons c calls ih => exact ih (s.serve c)

@[simp] theorem serveAll_burst (s : LimiterRun) (calls : List AllowCall) :
    (s.serveAll calls).limiter.burst = s.limiter.burst := by
  induction calls generalizing s with
  | nil => rfl
  | cons c calls ih => exact ih (s.serve c)

/-! ## Windows -/

/-- Every bucket has paid for what was allowed on its key. -/
def Paid (s : LimiterRun) (clock : ℚ) : Prop := s.limiter.Accounts clock s.served

theorem served_serve_allowed {s : LimiterRun} {c : AllowCall}
    (h : (s.limiter.allowAt c).2 = true) : (s.serve c).served =
      Function.update s.served (key c.deviceId) (s.served (key c.deviceId) ++ [c.now]) := by
  funext k
  rcases eq_or_ne k (key c.deviceId) with rfl | hne
  · simp [served, serve, h]
  · simp [served, serve, hne, hne.symm]

theorem served_serve_refused {s : LimiterRun} {c : AllowCall}
    (h : (s.limiter.allowAt c).2 = false) : (s.serve c).served = s.served := by
  funext k
  simp [served, serve, h]

theorem Paid.serve {s : LimiterRun} {clock : ℚ} {c : AllowCall} (h : s.Paid clock)
    (hmade : clock ≤ c.made) (hnow : c.made ≤ c.now) : (s.serve c).Paid c.now := by
  have hlater : s.limiter.Accounts c.now s.served := h.later (hmade.trans hnow)
  have hallow : s.limiter.allowAt c = s.limiter.allow c.deviceId c.now :=
    TokenBucketRateLimiter.allowAt_eq h.rate_nonneg hnow
  have hlimiter : (s.serve c).limiter = (s.limiter.allow c.deviceId c.now).1 :=
    congrArg Prod.fst hallow
  rw [Paid, hlimiter]
  cases hanswer : (s.limiter.allowAt c).2 with
  | true =>
      rw [served_serve_allowed hanswer]
      rw [hallow] at hanswer
      exact hlater.serve hanswer
  | false =>
      rw [served_serve_refused hanswer]
      exact hlater.allow c.deviceId

theorem Paid.serveAll {s : LimiterRun} {clock : ℚ} {calls : List AllowCall} (h : s.Paid clock)
    (hticks : AllowCall.Ticks clock calls) : ∃ now, (s.serveAll calls).Paid now := by
  induction calls generalizing s clock with
  | nil => exact ⟨clock, h⟩
  | cons c calls ih =>
      obtain ⟨hmade, hnow, hrest⟩ := hticks
      exact ih (h.serve hmade hnow) hrest

theorem paid_start {maxPerSec : ℚ} {burst : Int} (hrate : 0 ≤ maxPerSec) (hburst : 0 ≤ burst)
    (clock : ℚ) : (start maxPerSec burst).Paid clock :=
  .new hburst hrate fun _ => rfl

/-- What a device was allowed was served on its key. -/
theorem allowedIn_le_served (s : LimiterRun) {deviceId : String} (hid : deviceId ≠ "") (a c : ℚ) :
    s.allowedIn deviceId a c ≤ TokenBucket.countIn (s.served deviceId) a c := by
  rw [allowedIn, TokenBucket.countIn, served, List.countP_map, List.countP_filter]
  refine List.countP_mono_left fun p _ hp => ?_
  simp only [Bool.decide_and, decide_eq_true_eq, Bool.and_eq_true, Function.comp_apply] at hp ⊢
  obtain ⟨hdevice, hallowed, ha, hc⟩ := hp
  have hkey : key p.1.deviceId = deviceId := by rw [hdevice, key_of_ne hid]
  exact ⟨⟨ha, hc⟩, hkey, hallowed⟩

/-! ## Other devices -/

/-- Two runs that the device cannot tell apart. -/
structure SameFor (deviceId : String) (s s' : LimiterRun) : Prop where
  maxPerSec : s.limiter.maxPerSec = s'.limiter.maxPerSec
  burst : s.limiter.burst = s'.limiter.burst
  bucket : s.limiter.buckets deviceId = s'.limiter.buckets deviceId
  answers : s.answersOf deviceId = s'.answersOf deviceId

namespace SameFor

variable {deviceId : String} {s s' : LimiterRun} {c : AllowCall}

theorem own (h : SameFor deviceId s s') (hid : deviceId ≠ "") (hown : c.deviceId = deviceId) :
    SameFor deviceId (s.serve c) (s'.serve c) := by
  have hkey : key c.deviceId = deviceId := by rw [hown, key_of_ne hid]
  have hbucket : s.limiter.buckets (key c.deviceId) = s'.limiter.buckets (key c.deviceId) := by
    rw [hkey, h.bucket]
  obtain ⟨hanswer, hafter⟩ := TokenBucketRateLimiter.allowAt_congr h.maxPerSec h.burst hbucket
  rw [hkey] at hafter
  have hanswers := h.answers
  refine ⟨h.maxPerSec, h.burst, hafter, ?_⟩
  simp only [answersOf, serve, List.filter_append, hanswer] at hanswers ⊢
  rw [hanswers]

theorem other (h : SameFor deviceId s s') (hc : c.deviceId ≠ "") (hother : c.deviceId ≠ deviceId) :
    SameFor deviceId (s.serve c) s' := by
  have hkey : deviceId ≠ key c.deviceId := by rw [key_of_ne hc]; exact hother.symm
  refine ⟨h.maxPerSec, h.burst, ?_, ?_⟩
  · rw [← h.bucket]
    exact s.limiter.allowAt_other hkey
  · rw [← h.answers]
    simp [answersOf, serve, hother]

/-- The calls of the device alone come to the same. -/
theorem serveAll (h : SameFor deviceId s s') (hid : deviceId ≠ "") {calls : List AllowCall}
    (hids : ∀ c ∈ calls, c.deviceId ≠ "") :
    SameFor deviceId (s.serveAll calls)
      (s'.serveAll (calls.filter fun c => c.deviceId = deviceId)) := by
  induction calls generalizing s s' with
  | nil => exact h
  | cons c calls ih =>
      have hrest : ∀ d ∈ calls, d.deviceId ≠ "" := fun d hd => hids d (List.mem_cons_of_mem c hd)
      by_cases hown : c.deviceId = deviceId
      · rw [List.filter_cons_of_pos (by simpa using hown)]
        exact ih (h.own hid hown) hrest
      · rw [List.filter_cons_of_neg (by simpa using hown)]
        exact ih (h.other (hids c List.mem_cons_self) hown) hrest

end SameFor

/-- In any window a device is allowed at most the burst and what is refilled in it; its
bucket is never overdrawn or overfull, and depends on its own calls alone. -/
theorem limits_of_run {maxPerSec : ℚ} {burst : Int} (hrate : 0 < maxPerSec) (hburst : 0 < burst)
    {clock : ℚ} {calls : List AllowCall} (hticks : AllowCall.Ticks clock calls)
    (hids : ∀ c ∈ calls, c.deviceId ≠ "") {deviceId : String} (hid : deviceId ≠ "") :
    (∀ a c, a ≤ c → (((start maxPerSec burst).serveAll calls).allowedIn deviceId a c : ℚ) ≤
      burst + maxPerSec * (c - a)) ∧
    (∀ b, ((start maxPerSec burst).serveAll calls).limiter.buckets deviceId = some b →
      0 ≤ b.tokens ∧ b.tokens ≤ burst) ∧
    SameFor deviceId ((start maxPerSec burst).serveAll calls)
      ((start maxPerSec burst).serveAll (calls.filter fun c => c.deviceId = deviceId)) := by
  obtain ⟨now, hpaid⟩ := (paid_start hrate.le hburst.le clock).serveAll hticks
  refine ⟨?_, ?_, ?_⟩
  · intro a c hac
    have hcount := Nat.cast_le (α := ℚ).mpr
      (allowedIn_le_served ((start maxPerSec burst).serveAll calls) hid a c)
    have hwindow := hpaid.window deviceId hac
    rw [serveAll_burst, serveAll_maxPerSec] at hwindow
    exact hcount.trans hwindow
  · intro b hb
    obtain ⟨hcapacity, -, -, hpays⟩ := hpaid.used deviceId b hb
    rw [serveAll_burst] at hcapacity
    have hle : b.tokens ≤ (b.burst : ℚ) := hpays.level_le
    rw [hcapacity] at hle
    exact ⟨hpays.level_nonneg, hle⟩
  · exact SameFor.serveAll ⟨rfl, rfl, rfl, rfl⟩ hid hids

/-- One token is left for the second device after the first has used up its own. -/
theorem limits_of_run_twoDevices :
    (((start 1 1).serveAll [⟨"cam", 0, 0⟩, ⟨"cam", 0, 0⟩, ⟨"door", 0, 1⟩]).allowedIn
      "door" 0 1 : ℚ) ≤ ((1 : Int) : ℚ) + 1 * (1 - 0) :=
  (limits_of_run one_pos one_pos
    (show AllowCall.Ticks 0 [⟨"cam", 0, 0⟩, ⟨"cam", 0, 0⟩, ⟨"door", 0, 1⟩] by decide +kernel)
    (by decide +kernel) (by decide)).1 0 1 zero_le_one

end LimiterRun
