-- SUMMARY: The circuit breaker, and its protocol over runs in which outcomes may come late.
import Mathlib.Data.Rat.Init
import Mathlib.Algebra.Order.Ring.Rat
import NeuroPipeline.Lib.TransitionSystem

/-!
# Circuit breaker

Model of circuit_breaker.py. Times are in seconds and exact. The breaker does
not know which request an outcome belongs to; a run of the protocol does.
-/

inductive BreakerState where
  | closed
  | opened
  | halfOpen
  deriving DecidableEq

structure CircuitBreaker where
  failureThreshold : Int := 5
  recoveryTimeout : ℚ := 30
  halfOpenMax : Int := 1
  state : BreakerState := .closed
  failureCount : Nat := 0
  lastFailureTime : ℚ := 0
  halfOpenCalls : Nat := 0
  deriving DecidableEq

namespace CircuitBreaker

/-- Enough time has passed since the last failure. -/
def recovered (b : CircuitBreaker) (now : ℚ) : Bool := b.recoveryTimeout ≤ now - b.lastFailureTime

def allowRequest (b : CircuitBreaker) (now : ℚ) : CircuitBreaker × Bool :=
  match b.state with
  | .closed => (b, true)
  | .opened =>
    if b.recovered now then ({ b with state := .halfOpen, halfOpenCalls := 1 }, true) else (b, false)
  | .halfOpen =>
    if b.halfOpenCalls < b.halfOpenMax then ({ b with halfOpenCalls := b.halfOpenCalls + 1 }, true)
    else (b, false)

def recordSuccess (b : CircuitBreaker) : CircuitBreaker :=
  { b with
    state := if b.state = .halfOpen then .closed else b.state
    failureCount := 0
    halfOpenCalls := 0 }

def recordFailure (b : CircuitBreaker) (now : ℚ) : CircuitBreaker :=
  { b with
    failureCount := b.failureCount + 1
    lastFailureTime := now
    state :=
      if b.state = .halfOpen then .opened
      else if b.failureThreshold ≤ (b.failureCount + 1 : Nat) then .opened
      else b.state }

variable {b : CircuitBreaker} {now : ℚ}

theorem allowRequest_of_closed (h : b.state = .closed) : b.allowRequest now = (b, true) := by
  simp [allowRequest, h]

theorem allowRequest_of_recovered (h : b.state = .opened) (hr : b.recovered now = true) :
    b.allowRequest now = ({ b with state := .halfOpen, halfOpenCalls := 1 }, true) := by
  simp [allowRequest, h, hr]

theorem allowRequest_of_blocked (h : b.state = .opened) (hr : b.recovered now = false) :
    b.allowRequest now = (b, false) := by
  simp [allowRequest, h, hr]

theorem allowRequest_of_probe (h : b.state = .halfOpen) (hc : b.halfOpenCalls < b.halfOpenMax) :
    b.allowRequest now = ({ b with halfOpenCalls := b.halfOpenCalls + 1 }, true) := by
  simp [allowRequest, h, hc]

theorem allowRequest_of_saturated (h : b.state = .halfOpen)
    (hc : ¬ b.halfOpenCalls < b.halfOpenMax) : b.allowRequest now = (b, false) := by
  simp [allowRequest, h, hc]

/-- What `allowRequest` can do, state by state. -/
theorem allowRequest_cases (b : CircuitBreaker) (now : ℚ) :
    (b.state = .closed ∧ b.allowRequest now = (b, true)) ∨
    (b.state = .opened ∧ b.recovered now = true ∧
      b.allowRequest now = ({ b with state := .halfOpen, halfOpenCalls := 1 }, true)) ∨
    (b.state = .halfOpen ∧ b.halfOpenCalls < b.halfOpenMax ∧
      b.allowRequest now = ({ b with halfOpenCalls := b.halfOpenCalls + 1 }, true)) ∨
    (b.state ≠ .closed ∧ b.allowRequest now = (b, false)) := by
  cases h : b.state with
  | closed => exact .inl ⟨rfl, allowRequest_of_closed h⟩
  | opened =>
      cases hr : b.recovered now with
      | true => exact .inr (.inl ⟨rfl, rfl, allowRequest_of_recovered h hr⟩)
      | false => exact .inr (.inr (.inr ⟨by simp, allowRequest_of_blocked h hr⟩))
  | halfOpen =>
      by_cases hc : b.halfOpenCalls < b.halfOpenMax
      · exact .inr (.inr (.inl ⟨rfl, hc, by simp [allowRequest, h, hc]⟩))
      · exact .inr (.inr (.inr ⟨by simp, allowRequest_of_saturated h hc⟩))

theorem recordFailure_opened_of_halfOpen (h : b.state = .halfOpen) :
    (b.recordFailure now).state = .opened := by
  simp [recordFailure, h]

theorem recordFailure_opened_of_closed (h : b.state = .closed) :
    (b.recordFailure now).state = .opened ↔ b.failureThreshold ≤ (b.failureCount + 1 : Nat) := by
  simp [recordFailure, h]

end CircuitBreaker

/-! ## The protocol -/

/-- The breaker with the requests it has admitted, numbered in order. -/
structure BreakerProtocol where
  breaker : CircuitBreaker
  admitted : Nat
  /-- admitted requests whose outcome has not been recorded -/
  outstanding : List Nat
  now : ℚ

inductive BreakerAct where
  | allowRequest (now : ℚ)
  | recordSuccess (request : Nat) (now : ℚ)
  | recordFailure (request : Nat) (now : ℚ)

namespace BreakerAct

def time : BreakerAct → ℚ
  | .allowRequest now | .recordSuccess _ now | .recordFailure _ now => now

def isSuccess : BreakerAct → Bool
  | .recordSuccess _ _ => true
  | .allowRequest _ | .recordFailure _ _ => false

def isFailure : BreakerAct → Bool
  | .recordFailure _ _ => true
  | .allowRequest _ | .recordSuccess _ _ => false

def isOutcome (l : BreakerAct) : Bool := l.isSuccess || l.isFailure

def failureTime? : BreakerAct → Option ℚ
  | .recordFailure _ now => some now
  | .allowRequest _ | .recordSuccess _ _ => none

end BreakerAct

namespace BreakerProtocol

/-- Ask the breaker; a request that is admitted has an outcome to come. -/
def ask (s : BreakerProtocol) (now : ℚ) : BreakerProtocol :=
  let (breaker, allowed) := s.breaker.allowRequest now
  { breaker := breaker
    admitted := if allowed then s.admitted + 1 else s.admitted
    outstanding := if allowed then s.outstanding ++ [s.admitted] else s.outstanding
    now := now }

/-- The outcome of an admitted request is recorded once; the clock does not go back. -/
def step (s : BreakerProtocol) (l : BreakerAct) : Option BreakerProtocol :=
  if l.time < s.now then none
  else match l with
    | .allowRequest now => some (s.ask now)
    | .recordSuccess request now =>
      if request ∈ s.outstanding then
        some { s with
          breaker := s.breaker.recordSuccess
          outstanding := s.outstanding.erase request
          now := now }
      else none
    | .recordFailure request now =>
      if request ∈ s.outstanding then
        some { s with
          breaker := s.breaker.recordFailure now
          outstanding := s.outstanding.erase request
          now := now }
      else none

end BreakerProtocol

def breakerSystem (failureThreshold : Int) (recoveryTimeout : ℚ) (halfOpenMax : Int) :
    TransitionSystem BreakerProtocol BreakerAct where
  init s := ∃ now, s = ⟨{ failureThreshold, recoveryTimeout, halfOpenMax }, 0, [], now⟩
  step := BreakerProtocol.step

namespace BreakerProtocol

/-- The request of this step is admitted. -/
def admits (s : BreakerProtocol) : BreakerAct → Bool
  | .allowRequest now => (s.breaker.allowRequest now).2
  | .recordSuccess _ _ | .recordFailure _ _ => false

def entersHalfOpen (s : BreakerProtocol) (l : BreakerAct) : Bool :=
  s.breaker.state ≠ .halfOpen ∧ (s.step l).any fun s' => s'.breaker.state = .halfOpen

theorem ask_of_allowed {s : BreakerProtocol} {now : ℚ} {b : CircuitBreaker}
    (h : s.breaker.allowRequest now = (b, true)) :
    s.ask now = ⟨b, s.admitted + 1, s.outstanding ++ [s.admitted], now⟩ := by
  simp [ask, h]

theorem ask_of_refused {s : BreakerProtocol} {now : ℚ}
    (h : s.breaker.allowRequest now = (s.breaker, false)) :
    s.ask now = { s with now := now } := by
  simp [ask, h]

theorem step_cases {s s' : BreakerProtocol} {l : BreakerAct} (hs : s.step l = some s') :
    (∃ now, l = .allowRequest now ∧ s' = s.ask now) ∨
    (∃ request now, l = .recordSuccess request now ∧ request ∈ s.outstanding ∧
      s' = { s with
        breaker := s.breaker.recordSuccess
        outstanding := s.outstanding.erase request
        now := now }) ∨
    (∃ request now, l = .recordFailure request now ∧ request ∈ s.outstanding ∧
      s' = { s with
        breaker := s.breaker.recordFailure now
        outstanding := s.outstanding.erase request
        now := now }) := by
  by_cases hnow : l.time < s.now
  · simp [BreakerProtocol.step, hnow] at hs
  simp only [BreakerProtocol.step, hnow, if_false] at hs
  cases l with
  | allowRequest now => exact .inl ⟨now, rfl, (Option.some.inj hs).symm⟩
  | recordSuccess request now =>
      obtain ⟨hmem, heq⟩ := Option.ite_none_right_eq_some.mp hs
      exact .inr (.inl ⟨request, now, rfl, hmem, (Option.some.inj heq).symm⟩)
  | recordFailure request now =>
      obtain ⟨hmem, heq⟩ := Option.ite_none_right_eq_some.mp hs
      exact .inr (.inr ⟨request, now, rfl, hmem, (Option.some.inj heq).symm⟩)

end BreakerProtocol

/-! ## What a trace says about the breaker -/

abbrev BreakerTrace := List (BreakerProtocol × BreakerAct)

namespace BreakerTrace

/-- The time of the last failure recorded. -/
def lastFailure (t : BreakerTrace) : Option ℚ :=
  (t.filterMap fun p => p.2.failureTime?).getLast?

/-- The failures recorded since the breaker last closed, with no success in between. -/
def failureStreak (t : BreakerTrace) : Nat :=
  (t.reverse.takeWhile fun p => p.1.breaker.state = .closed && !p.2.isSuccess).countP
    fun p => p.2.isFailure

def admissions (t : BreakerTrace) : Nat := t.countP fun p => p.1.admits p.2

variable {t : BreakerTrace} {s : BreakerProtocol} {l : BreakerAct}

@[simp] theorem lastFailure_nil : lastFailure [] = none := rfl

@[simp] theorem lastFailure_snoc :
    lastFailure (t ++ [(s, l)]) = l.failureTime?.or (lastFailure t) := by
  cases h : l.failureTime? with
  | none => simp [lastFailure, h]
  | some now => simp [lastFailure, h]

@[simp] theorem failureStreak_nil : failureStreak [] = 0 := rfl

theorem failureStreak_snoc :
    failureStreak (t ++ [(s, l)]) =
      if s.breaker.state = .closed ∧ l.isSuccess = false then
        failureStreak t + if l.isFailure then 1 else 0
      else 0 := by
  simp only [failureStreak, List.reverse_append, List.reverse_singleton, List.singleton_append,
    List.takeWhile_cons]
  by_cases h : s.breaker.state = .closed ∧ l.isSuccess = false
  · simp [h, List.countP_cons]
  · simp only [Bool.and_eq_true, decide_eq_true_eq, Bool.not_eq_true', h, if_false]
    rfl

@[simp] theorem admissions_snoc :
    admissions (t ++ [(s, l)]) = admissions t + if s.admits l then 1 else 0 := by
  simp [admissions, List.countP_append, List.countP_cons]

end BreakerTrace

/-! ## The invariant -/

/-- What links the counters of the breaker to the steps taken so far. -/
structure BreakerInv (failureThreshold : Int) (recoveryTimeout : ℚ) (halfOpenMax : Int)
    (t : BreakerTrace) (s : BreakerProtocol) : Prop where
  threshold : s.breaker.failureThreshold = failureThreshold
  timeout : s.breaker.recoveryTimeout = recoveryTimeout
  probes : s.breaker.halfOpenMax = halfOpenMax
  opened : s.breaker.state = .opened → t.lastFailure = some s.breaker.lastFailureTime
  streak : s.breaker.state = .closed → s.breaker.failureCount = t.failureStreak
  below : s.breaker.state = .closed → (s.breaker.failureCount : Int) < failureThreshold
  /-- a probe is always on its way -/
  waiting : s.breaker.state = .halfOpen → s.outstanding ≠ []

namespace BreakerInv

variable {failureThreshold halfOpenMax : Int} {recoveryTimeout : ℚ} {t : BreakerTrace}
  {s s' : BreakerProtocol} {l : BreakerAct}

theorem start (hthr : 1 ≤ failureThreshold)
    (h : (breakerSystem failureThreshold recoveryTimeout halfOpenMax).init s) :
    BreakerInv failureThreshold recoveryTimeout halfOpenMax [] s := by
  obtain ⟨now, rfl⟩ := h
  exact ⟨rfl, rfl, rfl, by simp, by simp, fun _ => by simp; omega, by simp⟩

theorem ask {now : ℚ} (hI : BreakerInv failureThreshold recoveryTimeout halfOpenMax t s) :
    BreakerInv failureThreshold recoveryTimeout halfOpenMax (t ++ [(s, .allowRequest now)])
      (s.ask now) := by
  have hstreak : s.breaker.state = .closed →
      BreakerTrace.failureStreak (t ++ [(s, .allowRequest now)]) = t.failureStreak := by
    intro hc
    simp [BreakerTrace.failureStreak_snoc, hc, BreakerAct.isSuccess, BreakerAct.isFailure]
  have hlast : BreakerTrace.lastFailure (t ++ [(s, .allowRequest now)]) = t.lastFailure := by
    simp [BreakerAct.failureTime?]
  rcases s.breaker.allowRequest_cases now with ⟨hc, h⟩ | ⟨ho, -, h⟩ | ⟨hh, -, h⟩ | ⟨hn, h⟩
  · rw [BreakerProtocol.ask_of_allowed h]
    refine ⟨hI.threshold, hI.timeout, hI.probes, ?_, ?_, hI.below, ?_⟩
    · exact fun ho => by simp [hc] at ho
    · exact fun _ => by rw [hstreak hc]; exact hI.streak hc
    · exact fun hh => by simp [hc] at hh
  · rw [BreakerProtocol.ask_of_allowed h]
    exact ⟨hI.threshold, hI.timeout, hI.probes, by simp, by simp, by simp, by simp⟩
  · rw [BreakerProtocol.ask_of_allowed h]
    exact ⟨hI.threshold, hI.timeout, hI.probes, by simp [hh], by simp [hh], by simp [hh], by simp⟩
  · rw [BreakerProtocol.ask_of_refused h]
    refine ⟨hI.threshold, hI.timeout, hI.probes, ?_, ?_, hI.below, hI.waiting⟩
    · exact fun ho => by rw [hlast]; exact hI.opened ho
    · exact fun hc => absurd hc hn

theorem recordSuccess {request : Nat} {now : ℚ} (hthr : 1 ≤ failureThreshold)
    (hI : BreakerInv failureThreshold recoveryTimeout halfOpenMax t s) :
    BreakerInv failureThreshold recoveryTimeout halfOpenMax
      (t ++ [(s, .recordSuccess request now)])
      { s with
        breaker := s.breaker.recordSuccess
        outstanding := s.outstanding.erase request
        now := now } := by
  refine ⟨hI.threshold, hI.timeout, hI.probes, ?_, ?_, ?_, ?_⟩
  · intro ho
    have hs : s.breaker.state = .opened := by
      cases h : s.breaker.state <;> simp_all [CircuitBreaker.recordSuccess]
    simpa [BreakerAct.failureTime?, CircuitBreaker.recordSuccess] using hI.opened hs
  · intro _
    simp [BreakerTrace.failureStreak_snoc, BreakerAct.isSuccess, CircuitBreaker.recordSuccess]
  · intro _
    simp only [CircuitBreaker.recordSuccess]
    omega
  · intro hh
    cases h : s.breaker.state <;> simp_all [CircuitBreaker.recordSuccess]

theorem recordFailure {request : Nat} {now : ℚ}
    (hI : BreakerInv failureThreshold recoveryTimeout halfOpenMax t s) :
    BreakerInv failureThreshold recoveryTimeout halfOpenMax
      (t ++ [(s, .recordFailure request now)])
      { s with
        breaker := s.breaker.recordFailure now
        outstanding := s.outstanding.erase request
        now := now } := by
  have hclosed : (s.breaker.recordFailure now).state = .closed →
      s.breaker.state = .closed ∧ ¬ failureThreshold ≤ (s.breaker.failureCount + 1 : Nat) := by
    intro h
    rw [← hI.threshold]
    cases hs : s.breaker.state <;> simp_all [CircuitBreaker.recordFailure]
  refine ⟨hI.threshold, hI.timeout, hI.probes, ?_, ?_, ?_, ?_⟩
  · exact fun _ => by simp [BreakerAct.failureTime?, CircuitBreaker.recordFailure]
  · intro hc
    have hs := (hclosed hc).1
    simp [BreakerTrace.failureStreak_snoc, hs, BreakerAct.isSuccess, BreakerAct.isFailure,
      CircuitBreaker.recordFailure, hI.streak hs]
  · intro hc
    have := (hclosed hc).2
    simp only [CircuitBreaker.recordFailure]
    omega
  · intro hh
    cases hs : s.breaker.state with
    | closed =>
        simp only [CircuitBreaker.recordFailure, hs] at hh
        grind
    | opened => simp [CircuitBreaker.recordFailure, hs] at hh
    | halfOpen => simp [CircuitBreaker.recordFailure, hs] at hh

/-- Every step of the protocol keeps it. -/
theorem step (hthr : 1 ≤ failureThreshold)
    (hI : BreakerInv failureThreshold recoveryTimeout halfOpenMax t s)
    (hs : s.step l = some s') :
    BreakerInv failureThreshold recoveryTimeout halfOpenMax (t ++ [(s, l)]) s' := by
  rcases BreakerProtocol.step_cases hs with
    ⟨now, rfl, rfl⟩ | ⟨request, now, rfl, -, rfl⟩ | ⟨request, now, rfl, -, rfl⟩
  · exact hI.ask
  · exact hI.recordSuccess hthr
  · exact hI.recordFailure

end BreakerInv

/-! ## The probes of one half-open period -/

namespace BreakerProtocol

variable {s s' : BreakerProtocol} {l : BreakerAct}

/-- Only a request that is admitted while the breaker is open makes it half-open. -/
theorem entersHalfOpen_spec (h : s.entersHalfOpen l = true) (hs : s.step l = some s') :
    s.admits l = true ∧ s'.breaker.state = .halfOpen ∧ s'.breaker.halfOpenCalls = 1 := by
  obtain ⟨hstate, hnext⟩ : s.breaker.state ≠ .halfOpen ∧ s'.breaker.state = .halfOpen := by
    simpa [entersHalfOpen, hs] using h
  rcases step_cases hs with
    ⟨now, rfl, rfl⟩ | ⟨request, now, rfl, -, rfl⟩ | ⟨request, now, rfl, -, rfl⟩
  · rcases s.breaker.allowRequest_cases now with ⟨hc, ha⟩ | ⟨-, -, ha⟩ | ⟨hh, -, -⟩ | ⟨-, ha⟩
    · rw [ask_of_allowed ha] at hnext
      exact absurd hnext hstate
    · rw [ask_of_allowed ha]
      exact ⟨by simp [admits, ha], rfl, rfl⟩
    · exact absurd hh hstate
    · rw [ask_of_refused ha] at hnext
      exact absurd hnext hstate
  · cases hc : s.breaker.state <;> simp_all [CircuitBreaker.recordSuccess]
  · cases hc : s.breaker.state with
    | halfOpen => exact absurd hc hstate
    | opened => simp [CircuitBreaker.recordFailure, hc] at hnext
    | closed =>
        simp only [CircuitBreaker.recordFailure, hc] at hnext
        grind

/-- While no outcome comes in, the breaker stays half-open and counts what it admits. -/
theorem step_halfOpen (hh : s.breaker.state = .halfOpen) (hl : l.isOutcome = false)
    (hs : s.step l = some s') :
    s'.breaker.state = .halfOpen ∧
    s'.breaker.halfOpenCalls = s.breaker.halfOpenCalls + (if s.admits l then 1 else 0) ∧
    (s'.breaker.halfOpenCalls : Int) ≤ max (s.breaker.halfOpenCalls : Int) s.breaker.halfOpenMax := by
  rcases step_cases hs with
    ⟨now, rfl, rfl⟩ | ⟨request, now, rfl, -, rfl⟩ | ⟨request, now, rfl, -, rfl⟩
  · by_cases hc : s.breaker.halfOpenCalls < s.breaker.halfOpenMax
    · have ha : s.breaker.allowRequest now = _ := CircuitBreaker.allowRequest_of_probe hh hc
      rw [ask_of_allowed ha]
      refine ⟨hh, by simp [admits, ha], ?_⟩
      push_cast
      omega
    · have ha : s.breaker.allowRequest now = _ := CircuitBreaker.allowRequest_of_saturated hh hc
      rw [ask_of_refused ha]
      exact ⟨hh, by simp [admits, ha], le_max_left _ _⟩
  · simp [BreakerAct.isOutcome, BreakerAct.isSuccess] at hl
  · simp [BreakerAct.isOutcome, BreakerAct.isFailure] at hl

end BreakerProtocol

/-- From a step that enters half-open on, as long as no outcome has come in. -/
theorem breakerSystem.probes {failureThreshold halfOpenMax : Int} {recoveryTimeout : ℚ}
    {s₀ s : BreakerProtocol} {t : BreakerTrace}
    (h₀ : (breakerSystem failureThreshold recoveryTimeout halfOpenMax).init s₀)
    (hthr : 1 ≤ failureThreshold)
    (hrun : (breakerSystem failureThreshold recoveryTimeout halfOpenMax).Run s₀ t s) :
    ∀ t₁ p t₂, t = t₁ ++ p :: t₂ → p.1.entersHalfOpen p.2 = true →
      (∀ q ∈ t₂, q.2.isOutcome = false) →
      s.breaker.state = .halfOpen ∧
      BreakerTrace.admissions (p :: t₂) = s.breaker.halfOpenCalls ∧
      (s.breaker.halfOpenCalls : Int) ≤ max 1 halfOpenMax := by
  induction hrun with
  | nil => simp
  | @snoc t s₁ s₂ l hpre hs ih =>
      have hI : BreakerInv failureThreshold recoveryTimeout halfOpenMax t s₁ :=
        hpre.invariant_history (fun _ _ _ _ hI hs => hI.step hthr hs) (.start hthr h₀)
      intro t₁ p t₂ ht henter hquiet
      rcases t₂.eq_nil_or_concat with rfl | ⟨t₃, q, rfl⟩
      · obtain ⟨rfl, hlast⟩ := List.append_inj' ht rfl
        obtain rfl := List.singleton_inj.mp hlast
        obtain ⟨hadmits, hhalf, hcalls⟩ := BreakerProtocol.entersHalfOpen_spec henter hs
        refine ⟨hhalf, ?_, by rw [hcalls]; exact le_max_left _ _⟩
        simp [BreakerTrace.admissions, hadmits, hcalls]
      · rw [List.concat_eq_append, ← List.cons_append, ← List.append_assoc] at ht
        obtain ⟨rfl, hlast⟩ := List.append_inj' ht rfl
        obtain rfl := List.singleton_inj.mp hlast
        rw [List.concat_eq_append] at hquiet ⊢
        obtain ⟨hhalf, hcount, hmax⟩ := ih t₁ p t₃ rfl henter fun q hq => hquiet q (by simp [hq])
        obtain ⟨hhalf', hcalls, hle⟩ :=
          BreakerProtocol.step_halfOpen hhalf (hquiet (s₁, l) (by simp)) hs
        refine ⟨hhalf', ?_, ?_⟩
        · rw [← List.cons_append, BreakerTrace.admissions_snoc, hcount, hcalls]
        · rw [hI.probes] at hle
          omega

/-! ## What the invariant says about the next step -/

namespace BreakerProtocol

theorem step_reopens {s s' : BreakerProtocol} {l : BreakerAct} (hh : s.breaker.state = .halfOpen)
    (hl : l.isFailure = true) (hs : s.step l = some s') : s'.breaker.state = .opened := by
  rcases step_cases hs with
    ⟨now, rfl, rfl⟩ | ⟨request, now, rfl, -, rfl⟩ | ⟨request, now, rfl, -, rfl⟩
  · simp [BreakerAct.isFailure] at hl
  · simp [BreakerAct.isFailure] at hl
  · exact CircuitBreaker.recordFailure_opened_of_halfOpen hh

end BreakerProtocol

namespace BreakerInv

variable {failureThreshold halfOpenMax : Int} {recoveryTimeout now : ℚ} {t : BreakerTrace}
  {s s' : BreakerProtocol} {l : BreakerAct}

theorem recovered_of_admits (hI : BreakerInv failureThreshold recoveryTimeout halfOpenMax t s)
    (ho : s.breaker.state = .opened) (h : s.admits (.allowRequest now) = true) :
    recoveryTimeout ≤ now - s.breaker.lastFailureTime := by
  cases hr : s.breaker.recovered now with
  | true => simpa [CircuitBreaker.recovered, hI.timeout] using hr
  | false =>
      rw [BreakerProtocol.admits, CircuitBreaker.allowRequest_of_blocked ho hr] at h
      cases h

theorem opens_iff (hI : BreakerInv failureThreshold recoveryTimeout halfOpenMax t s)
    (hc : s.breaker.state = .closed) (hs : s.step l = some s') :
    s'.breaker.state = .opened ↔
      (BreakerTrace.failureStreak (t ++ [(s, l)]) : Int) = failureThreshold := by
  have hcount := hI.streak hc
  have hbelow := hI.below hc
  rcases BreakerProtocol.step_cases hs with
    ⟨now, rfl, rfl⟩ | ⟨request, now, rfl, -, rfl⟩ | ⟨request, now, rfl, -, rfl⟩
  · rw [BreakerProtocol.ask_of_allowed (CircuitBreaker.allowRequest_of_closed hc)]
    simp only [hc, BreakerTrace.failureStreak_snoc, BreakerAct.isSuccess, BreakerAct.isFailure]
    simp
    omega
  · simp only [hc, BreakerTrace.failureStreak_snoc, BreakerAct.isSuccess,
      CircuitBreaker.recordSuccess]
    simp
    omega
  · rw [CircuitBreaker.recordFailure_opened_of_closed hc, hI.threshold,
      BreakerTrace.failureStreak_snoc, ← hcount]
    simp only [hc, BreakerAct.isSuccess, BreakerAct.isFailure]
    simp
    omega

/-- With no outcome to come the breaker is not half-open. -/
theorem admits_of_settled (hI : BreakerInv failureThreshold recoveryTimeout halfOpenMax t s)
    (hdone : s.outstanding = []) (hlate : ∀ τ, t.lastFailure = some τ → recoveryTimeout ≤ now - τ) :
    s.admits (.allowRequest now) = true := by
  cases hstate : s.breaker.state with
  | closed => simp [BreakerProtocol.admits, CircuitBreaker.allowRequest_of_closed hstate]
  | opened =>
      have hr : s.breaker.recovered now = true := by
        simpa [CircuitBreaker.recovered, hI.timeout] using hlate _ (hI.opened hstate)
      simp [BreakerProtocol.admits, CircuitBreaker.allowRequest_of_recovered hstate hr]
  | halfOpen => exact absurd hdone (hI.waiting hstate)

end BreakerInv

/-! ## The protocol laws -/
