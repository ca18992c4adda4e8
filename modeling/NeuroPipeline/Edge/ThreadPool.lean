-- SUMMARY: The thread pool at lock granularity: callers of Submit and Shutdown, workers, and the condition variable between them.
import NeuroPipeline.Lib.Fairness
import NeuroPipeline.Lib.Custody
import Mathlib.Data.Fintype.Basic

/-!
# Thread pool

Model of thread_pool.cpp and thread_pool.hpp. One step is one stretch of code under `mutex_`,
one notification, one `join`, or the run of a task, which no mutex protects. Any worker that
waits may be the one that is notified, and may also wake up for no reason.
-/

/-- A `packaged_task`: no two calls of `Submit` make the same. -/
structure PoolTask (α : Type) where
  serial : Nat
  fn : α
  deriving DecidableEq

inductive PoolWorkerPc (α : Type) where
  /-- about to take the mutex, at the head of the loop or woken up -/
  | ready
  /-- in `cv_.wait` -/
  | waiting
  | running (task : PoolTask α)
  | exited

namespace PoolWorkerPc

variable {α : Type}

def isWaiting : PoolWorkerPc α → Bool
  | waiting => true
  | _ => false

def isExited : PoolWorkerPc α → Bool
  | exited => true
  | _ => false

/-- A notification. -/
def wakeUp : PoolWorkerPc α → PoolWorkerPc α
  | waiting => ready
  | pc => pc

def held : PoolWorkerPc α → Multiset (PoolTask α)
  | running task => {task}
  | _ => 0

end PoolWorkerPc

inductive PoolCallerPc where
  /-- in no call -/
  | idle
  /-- in `Submit`, about to notify -/
  | submitted
  /-- in `Shutdown`, about to notify -/
  | stopping
  /-- in `Shutdown`, about to join the worker with this index -/
  | joining (i : Nat)
  deriving DecidableEq

/-- The pool with its `n` workers and the threads that call it, and a log of the tasks. -/
structure ThreadPool (n : Nat) (T α : Type) where
  maxQueueSize : Nat
  tasks : List (PoolTask α) := []
  stop : Bool := false
  workers : Fin n → PoolWorkerPc α := fun _ => .ready
  callers : T → PoolCallerPc := fun _ => .idle
  /-- how many times `Submit` was called -/
  calls : Nat := 0
  accepted : List (PoolTask α) := []
  /-- the tasks for which `Submit` threw, and what -/
  rejected : List (PoolTask α × String) := []
  started : List (PoolTask α) := []
  finished : List (PoolTask α) := []

inductive PoolAct (n : Nat) (T α : Type) where
  | submit (t : T) (fn : α)
  /-- `notify_one`, with the worker that it wakes up -/
  | notifyOne (t : T) (woken : Option (Fin n))
  | shutdown (t : T)
  | notifyAll (t : T)
  | join (t : T)
  /-- a worker gets the mutex -/
  | acquire (w : Fin n)
  | finish (w : Fin n)
  /-- a spurious wakeup -/
  | wake (w : Fin n)

namespace ThreadPool

variable {n : Nat} {T α : Type}

/-! ## The code -/

section

variable (s : ThreadPool n T α)

/-- What `Submit` throws. -/
def refusal : Option String :=
  if s.stop then some "Submit on stopped ThreadPool"
  else if 0 < s.maxQueueSize ∧ s.maxQueueSize ≤ s.tasks.length then some "ThreadPool queue full"
  else none

def setWorker (w : Fin n) (pc : PoolWorkerPc α) : ThreadPool n T α :=
  { s with workers := Function.update s.workers w pc }

/-- The worker's test and its consequence. -/
def takeLock (w : Fin n) : ThreadPool n T α :=
  match s.tasks with
  | [] => if s.stop then s.setWorker w .exited else s.setWorker w .waiting
  | task :: rest =>
    { s.setWorker w (.running task) with tasks := rest, started := s.started ++ [task] }

end

section

variable [DecidableEq T] (s : ThreadPool n T α)

def setCaller (t : T) (pc : PoolCallerPc) : ThreadPool n T α :=
  { s with callers := Function.update s.callers t pc }

def submit (t : T) (fn : α) : ThreadPool n T α :=
  let task : PoolTask α := ⟨s.calls, fn⟩
  match s.refusal with
  | some what => { s with calls := s.calls + 1, rejected := s.rejected ++ [(task, what)] }
  | none =>
    { s.setCaller t .submitted with
      calls := s.calls + 1
      tasks := s.tasks ++ [task]
      accepted := s.accepted ++ [task] }

/-- A notification is lost when nobody waits. -/
def notifyOne (t : T) : Option (Fin n) → Option (ThreadPool n T α)
  | some w =>
    if (s.workers w).isWaiting then some ((s.setCaller t .idle).setWorker w .ready) else none
  | none =>
    if ∀ w, (s.workers w).isWaiting = false then some (s.setCaller t .idle) else none

/-- `Shutdown` up to the end of its locked part; a later call returns from there. -/
def shutdown (t : T) : ThreadPool n T α :=
  if s.stop then s else { s.setCaller t .stopping with stop := true }

def notifyAll (t : T) : ThreadPool n T α :=
  { s.setCaller t (.joining 0) with workers := fun w => (s.workers w).wakeUp }

/-- The loop over the workers; none is joined twice, as one call alone gets there. -/
def join (t : T) (i : Nat) : Option (ThreadPool n T α) :=
  if h : i < n then
    if (s.workers ⟨i, h⟩).isExited then some (s.setCaller t (.joining (i + 1))) else none
  else some (s.setCaller t .idle)

def step : PoolAct n T α → Option (ThreadPool n T α)
  | .submit t fn => if s.callers t = .idle then some (s.submit t fn) else none
  | .notifyOne t woken => if s.callers t = .submitted then s.notifyOne t woken else none
  | .shutdown t => if s.callers t = .idle then some (s.shutdown t) else none
  | .notifyAll t => if s.callers t = .stopping then some (s.notifyAll t) else none
  | .join t =>
    match s.callers t with
    | .joining i => s.join t i
    | .idle | .submitted | .stopping => none
  | .acquire w =>
    match s.workers w with
    | .ready => some (s.takeLock w)
    | .waiting | .running _ | .exited => none
  | .finish w =>
    match s.workers w with
    | .running task => some { s.setWorker w .ready with finished := s.finished ++ [task] }
    | .ready | .waiting | .exited => none
  | .wake w => if (s.workers w).isWaiting then some (s.setWorker w .ready) else none

end

end ThreadPool

/-- All runs of a pool from its construction. -/
def threadPool (n : Nat) (T α : Type) [DecidableEq T] (maxQueueSize : Nat) :
    TransitionSystem (ThreadPool n T α) (PoolAct n T α) where
  init s := s = { maxQueueSize := maxQueueSize }
  step := ThreadPool.step

namespace ThreadPool

variable {n : Nat} {T α : Type} [DecidableEq T]

/-! ## What a step does -/

inductive Effect (s : ThreadPool n T α) : PoolAct n T α → ThreadPool n T α → Prop where
  | refuse {t : T} {fn : α} {what : String} (hidle : s.callers t = .idle)
      (hrefusal : s.refusal = some what) :
      Effect s (.submit t fn)
        { s with calls := s.calls + 1, rejected := s.rejected ++ [(⟨s.calls, fn⟩, what)] }
  | accept {t : T} {fn : α} (hidle : s.callers t = .idle) (hstop : s.stop = false) :
      Effect s (.submit t fn)
        { s.setCaller t .submitted with
          calls := s.calls + 1
          tasks := s.tasks ++ [⟨s.calls, fn⟩]
          accepted := s.accepted ++ [⟨s.calls, fn⟩] }
  | notify {t : T} {w : Fin n} (hcaller : s.callers t = .submitted)
      (hwaiting : s.workers w = .waiting) :
      Effect s (.notifyOne t (some w)) ((s.setCaller t .idle).setWorker w .ready)
  | notifyNobody {t : T} (hcaller : s.callers t = .submitted)
      (hawake : ∀ w, s.workers w ≠ .waiting) :
      Effect s (.notifyOne t none) (s.setCaller t .idle)
  | stopAgain {t : T} (hidle : s.callers t = .idle) (hstop : s.stop = true) :
      Effect s (.shutdown t) s
  | stop {t : T} (hidle : s.callers t = .idle) (hstop : s.stop = false) :
      Effect s (.shutdown t) { s.setCaller t .stopping with stop := true }
  | notifyAll {t : T} (hcaller : s.callers t = .stopping) :
      Effect s (.notifyAll t) (s.notifyAll t)
  | joinNext {t : T} {w : Fin n} (hcaller : s.callers t = .joining w)
      (hexited : s.workers w = .exited) : Effect s (.join t) (s.setCaller t (.joining (w + 1)))
  | joinEnd {t : T} {i : Nat} (hcaller : s.callers t = .joining i) (hend : n ≤ i) :
      Effect s (.join t) (s.setCaller t .idle)
  | exit {w : Fin n} (hready : s.workers w = .ready) (htasks : s.tasks = [])
      (hstop : s.stop = true) : Effect s (.acquire w) (s.setWorker w .exited)
  | wait {w : Fin n} (hready : s.workers w = .ready) (htasks : s.tasks = [])
      (hstop : s.stop = false) : Effect s (.acquire w) (s.setWorker w .waiting)
  | take {w : Fin n} {task : PoolTask α} {rest : List (PoolTask α)} (hready : s.workers w = .ready)
      (htasks : s.tasks = task :: rest) :
      Effect s (.acquire w)
        { s.setWorker w (.running task) with tasks := rest, started := s.started ++ [task] }
  | finish {w : Fin n} {task : PoolTask α} (hrunning : s.workers w = .running task) :
      Effect s (.finish w) { s.setWorker w .ready with finished := s.finished ++ [task] }
  | wake {w : Fin n} (hwaiting : s.workers w = .waiting) :
      Effect s (.wake w) (s.setWorker w .ready)

end ThreadPool

namespace PoolWorkerPc

variable {α : Type} {pc : PoolWorkerPc α}

theorem isWaiting_iff : pc.isWaiting = true ↔ pc = waiting := by
  cases pc <;> simp [isWaiting]

theorem isExited_iff : pc.isExited = true ↔ pc = exited := by
  cases pc <;> simp [isExited]

@[simp] theorem held_ready : (ready : PoolWorkerPc α).held = 0 := rfl

@[simp] theorem held_running {task : PoolTask α} : (running task).held = {task} := rfl

theorem wakeUp_ne_waiting : pc.wakeUp ≠ waiting := by
  cases pc <;> rintro ⟨⟩

theorem held_wakeUp : pc.wakeUp.held = pc.held := by
  cases pc <;> rfl

end PoolWorkerPc

namespace ThreadPool

variable {n : Nat} {T α : Type} [DecidableEq T]

theorem step_effect {s s' : ThreadPool n T α} {l : PoolAct n T α} (h : s.step l = some s') :
    Effect s l s' := by
  cases l with
  | submit t fn =>
    simp only [step] at h
    split at h
    next hidle =>
      cases h
      rw [submit]
      cases hrefusal : s.refusal with
      | some what => exact .refuse hidle hrefusal
      | none =>
        have hstop : s.stop = false := by
          cases hstop : s.stop with
          | false => rfl
          | true => simp [refusal, hstop] at hrefusal
        exact .accept hidle hstop
    next => cases h
  | notifyOne t woken =>
    simp only [step] at h
    split at h
    next hcaller =>
      cases woken with
      | some w =>
        simp only [notifyOne] at h
        split at h
        next hwaiting =>
          cases h
          exact .notify hcaller (PoolWorkerPc.isWaiting_iff.mp hwaiting)
        next => cases h
      | none =>
        simp only [notifyOne] at h
        split at h
        next hawake =>
          cases h
          refine .notifyNobody hcaller fun w hwaiting => ?_
          have hfalse := hawake w
          rw [PoolWorkerPc.isWaiting_iff.mpr hwaiting] at hfalse
          cases hfalse
        next => cases h
    next => cases h
  | shutdown t =>
    simp only [step] at h
    split at h
    next hidle =>
      cases h
      rw [shutdown]
      cases hstop : s.stop with
      | true => exact .stopAgain hidle hstop
      | false => exact .stop hidle hstop
    next => cases h
  | notifyAll t =>
    simp only [step] at h
    split at h
    next hcaller =>
      cases h
      exact .notifyAll hcaller
    next => cases h
  | join t =>
    simp only [step] at h
    cases hcaller : s.callers t with
    | joining i =>
      simp only [hcaller, join] at h
      split at h
      next hi =>
        split at h
        next hexited =>
          cases h
          exact .joinNext (w := ⟨i, hi⟩) hcaller (PoolWorkerPc.isExited_iff.mp hexited)
        next => cases h
      next hi =>
        cases h
        exact .joinEnd hcaller (Nat.le_of_not_lt hi)
    | idle | submitted | stopping =>
      simp only [hcaller] at h
      cases h
  | acquire w =>
    simp only [step] at h
    cases hready : s.workers w with
    | ready =>
      simp only [hready] at h
      cases h
      rw [takeLock]
      cases htasks : s.tasks with
      | nil =>
        cases hstop : s.stop with
        | true => exact .exit hready htasks hstop
        | false => exact .wait hready htasks hstop
      | cons task rest => exact .take hready htasks
    | waiting | running | exited =>
      simp only [hready] at h
      cases h
  | finish w =>
    simp only [step] at h
    cases hrunning : s.workers w with
    | running task =>
      simp only [hrunning] at h
      cases h
      exact .finish hrunning
    | ready | waiting | exited =>
      simp only [hrunning] at h
      cases h
  | wake w =>
    simp only [step] at h
    split at h
    next hwaiting =>
      cases h
      exact .wake (PoolWorkerPc.isWaiting_iff.mp hwaiting)
    next => cases h

/-! ## The log -/

/-- The tasks of the log: what was accepted has been started, in order, or is still queued, and
what was started has finished or is run by a worker. -/
structure Logged (s : ThreadPool n T α) : Prop where
  order : s.accepted = s.started ++ s.tasks
  balanced : (s.started : Multiset (PoolTask α)) =
    s.finished + Custody.holdings fun w => (s.workers w).held
  sorted : s.accepted.Pairwise fun x y => x.serial < y.serial
  accepted_lt : ∀ x ∈ s.accepted, x.serial < s.calls
  rejected_lt : ∀ y ∈ s.rejected, y.1.serial < s.calls
  apart : ∀ x ∈ s.accepted, ∀ y ∈ s.rejected, x.serial ≠ y.1.serial

omit [DecidableEq T] in
theorem holdings_setWorker (s : ThreadPool n T α) (w : Fin n) (pc : PoolWorkerPc α) :
    Custody.holdings (fun v => ((s.setWorker w pc).workers v).held) + (s.workers w).held =
      Custody.holdings (fun v => (s.workers v).held) + pc.held := by
  have hupdate := Custody.holdings_update (fun v => (s.workers v).held) w pc.held
  rwa [← Function.comp_def PoolWorkerPc.held, ← Function.comp_update] at hupdate

omit [DecidableEq T] in
/-- A worker that has no task before and after. -/
theorem holdings_setWorker_of_idle {s : ThreadPool n T α} {w : Fin n} {pc : PoolWorkerPc α}
    (hold : (s.workers w).held = 0) (hnew : pc.held = 0) :
    Custody.holdings (fun v => ((s.setWorker w pc).workers v).held) =
      Custody.holdings fun v => (s.workers v).held := by
  have hset := holdings_setWorker s w pc
  rwa [hold, hnew, add_zero, add_zero] at hset

omit [DecidableEq T] in
theorem Logged.setWorker {s : ThreadPool n T α} (hI : s.Logged) {w : Fin n} {pc : PoolWorkerPc α}
    (hold : (s.workers w).held = 0) (hnew : pc.held = 0) : (s.setWorker w pc).Logged :=
  { hI with balanced := hI.balanced.trans (by rw [holdings_setWorker_of_idle hold hnew]; rfl) }

theorem Logged.setCaller {s : ThreadPool n T α} (hI : s.Logged) (t : T) (pc : PoolCallerPc) :
    (s.setCaller t pc).Logged := { hI with }

theorem logged_effect {s s' : ThreadPool n T α} {l : PoolAct n T α} (hI : s.Logged)
    (h : Effect s l s') : s'.Logged := by
  cases h with
  | refuse hidle hrefusal =>
    refine { hI with accepted_lt := ?_, rejected_lt := ?_, apart := ?_ }
    · intro x hx
      exact (hI.accepted_lt x hx).trans (Nat.lt_succ_self _)
    · intro y hy
      rcases List.mem_append.mp hy with hy | hy
      · exact (hI.rejected_lt y hy).trans (Nat.lt_succ_self _)
      · rw [List.mem_singleton.mp hy]
        exact Nat.lt_succ_self _
    · intro x hx y hy
      rcases List.mem_append.mp hy with hy | hy
      · exact hI.apart x hx y hy
      · rw [List.mem_singleton.mp hy]
        exact (hI.accepted_lt x hx).ne
  | accept hidle hstop =>
    refine { hI with order := ?_, sorted := ?_, accepted_lt := ?_, rejected_lt := ?_, apart := ?_ }
    · exact (congrArg (· ++ [_]) hI.order).trans (List.append_assoc ..)
    · refine List.pairwise_append.mpr ⟨hI.sorted, List.pairwise_singleton _ _, ?_⟩
      intro x hx y hy
      rw [List.mem_singleton.mp hy]
      exact hI.accepted_lt x hx
    · intro x hx
      rcases List.mem_append.mp hx with hx | hx
      · exact (hI.accepted_lt x hx).trans (Nat.lt_succ_self _)
      · rw [List.mem_singleton.mp hx]
        exact Nat.lt_succ_self _
    · intro y hy
      exact (hI.rejected_lt y hy).trans (Nat.lt_succ_self _)
    · intro x hx y hy
      rcases List.mem_append.mp hx with hx | hx
      · exact hI.apart x hx y hy
      · rw [List.mem_singleton.mp hx]
        exact (hI.rejected_lt y hy).ne'
  | notify hcaller hwaiting =>
    exact (hI.setCaller _ .idle).setWorker (by rw [setCaller, hwaiting]; rfl) rfl
  | notifyNobody | stopAgain | stop | joinNext | joinEnd => exact { hI with }
  | notifyAll hcaller =>
    refine { hI with balanced := hI.balanced.trans ?_ }
    simp only [notifyAll, PoolWorkerPc.held_wakeUp, setCaller]
  | exit hready | wait hready => exact hI.setWorker (by rw [hready]; rfl) rfl
  | wake hwaiting => exact hI.setWorker (by rw [hwaiting]; rfl) rfl
  | @take w task rest hready htasks =>
    refine { hI with order := ?_, balanced := ?_ }
    · exact hI.order.trans (by rw [htasks, List.append_cons])
    · have hset : Custody.holdings (fun v => ((s.setWorker w (.running task)).workers v).held) =
          Custody.holdings (fun v => (s.workers v).held) + {task} := by
        have hset := holdings_setWorker s w (.running task)
        rwa [hready, PoolWorkerPc.held_ready, add_zero, PoolWorkerPc.held_running] at hset
      calc (↑(s.started ++ [task]) : Multiset (PoolTask α))
        _ = s.finished + Custody.holdings (fun w => (s.workers w).held) + {task} := by
          rw [← hI.balanced, ← Multiset.coe_add]
          rfl
        _ = _ := by
          rw [add_assoc, ← hset]
          rfl
  | @finish w task hrunning =>
    refine { hI with balanced := ?_ }
    have hset : Custody.holdings (fun v => ((s.setWorker w .ready).workers v).held) + {task} =
        Custody.holdings fun v => (s.workers v).held := by
      have hset := holdings_setWorker s w .ready
      rwa [hrunning, PoolWorkerPc.held_ready, add_zero, PoolWorkerPc.held_running] at hset
    calc (s.started : Multiset (PoolTask α))
      _ = s.finished + {task} +
          Custody.holdings fun v => ((s.setWorker w .ready).workers v).held := by
        rw [hI.balanced, ← hset, ← add_assoc, add_right_comm]
      _ = _ := rfl

/-! ## Workers and callers -/

section

variable {s s' : ThreadPool n T α} {l : PoolAct n T α}

omit [DecidableEq T] in
@[simp] theorem setWorker_self (w : Fin n) (pc : PoolWorkerPc α) :
    (s.setWorker w pc).workers w = pc := Function.update_self ..

omit [DecidableEq T] in
theorem setWorker_of_ne {v w : Fin n} (h : v ≠ w) (pc : PoolWorkerPc α) :
    (s.setWorker w pc).workers v = s.workers v := Function.update_of_ne h ..

@[simp] theorem setCaller_self (t : T) (pc : PoolCallerPc) :
    (s.setCaller t pc).callers t = pc := Function.update_self ..

theorem setCaller_of_ne {t u : T} (h : u ≠ t) (pc : PoolCallerPc) :
    (s.setCaller t pc).callers u = s.callers u := Function.update_of_ne h ..

theorem stop_effect (h : Effect s l s') (hstop : s.stop = true) : s'.stop = true := by
  cases h with
  | stop => rfl
  | refuse | accept | notify | notifyNobody | stopAgain | notifyAll | joinNext | joinEnd | exit
  | wait | take | finish | wake => exact hstop

omit [DecidableEq T] in
/-- A worker that is somewhere else is not the one that moves. -/
theorem setWorker_stays {v w : Fin n} {pc pc' : PoolWorkerPc α} (hv : s.workers v = pc)
    (hw : s.workers w ≠ pc) : (s.setWorker w pc').workers v = pc := by
  rw [setWorker_of_ne ?_, hv]
  rintro rfl
  exact hw hv

theorem setCaller_stays {t u : T} {pc pc' : PoolCallerPc} (hu : s.callers u = pc)
    (ht : s.callers t ≠ pc) : (s.setCaller t pc').callers u = pc := by
  rw [setCaller_of_ne ?_, hu]
  rintro rfl
  exact ht hu

/-- A worker that has left its loop does not come back. -/
theorem exited_effect (h : Effect s l s') {v : Fin n} (hv : s.workers v = .exited) :
    s'.workers v = .exited := by
  cases h with
  | refuse | accept | notifyNobody | stopAgain | stop | joinNext | joinEnd => exact hv
  | notifyAll => exact congrArg PoolWorkerPc.wakeUp hv
  | notify _ hw | exit hw | wait hw | take hw | finish hw | wake hw =>
    refine setWorker_stays hv fun hexited => ?_
    cases hw.symm.trans hexited

omit [DecidableEq T] in
/-- A worker that has not moved there was there before. -/
theorem of_setWorker {v w : Fin n} {pc pc' : PoolWorkerPc α} (h : (s.setWorker w pc').workers v = pc)
    (hne : pc' ≠ pc) : s.workers v = pc := by
  rcases eq_or_ne v w with rfl | hvw
  · rw [setWorker_self] at h
    exact absurd h hne
  · rwa [setWorker_of_ne hvw] at h

theorem of_setCaller {t u : T} {pc pc' : PoolCallerPc} (h : (s.setCaller t pc').callers u = pc)
    (hne : pc' ≠ pc) : s.callers u = pc := by
  rcases eq_or_ne u t with rfl | hut
  · rw [setCaller_self] at h
    exact absurd h hne
  · rwa [setCaller_of_ne hut] at h

end

/-- Where workers and callers are, and that no task waits for a worker that nobody wakes up. -/
structure Synchronised (s : ThreadPool n T α) : Prop where
  exited : ∀ w, s.workers w = .exited → s.stop = true ∧ s.tasks = []
  joining : ∀ t i, s.callers t = .joining i →
    s.stop = true ∧ ∀ w : Fin n, w < i → s.workers w = .exited
  stopping : ∀ t, s.callers t = .stopping → s.stop = true
  awake : s.tasks ≠ [] → (∃ w, s.workers w ≠ .waiting) ∨ ∃ t, s.callers t = .submitted

section

variable {s s' : ThreadPool n T α} {l : PoolAct n T α}

theorem exited_step (hI : s.Synchronised) (h : Effect s l s') (v : Fin n)
    (hv : s'.workers v = .exited) : s'.stop = true ∧ s'.tasks = [] := by
  cases h with
  | refuse | notifyNobody | stopAgain | joinNext | joinEnd => exact hI.exited v hv
  | accept hidle hstop =>
    obtain ⟨htrue, -⟩ := hI.exited v hv
    rw [hstop] at htrue
    cases htrue
  | notify => exact hI.exited v (of_setWorker hv (by rintro ⟨⟩))
  | stop => exact ⟨rfl, (hI.exited v hv).2⟩
  | notifyAll =>
    apply hI.exited v
    have hwoken : (s.workers v).wakeUp = .exited := hv
    cases hpc : s.workers v with
    | exited => rfl
    | ready | waiting | running =>
      rw [hpc] at hwoken
      cases hwoken
  | exit hready htasks hstop => exact ⟨hstop, htasks⟩
  | wait | finish | wake => exact hI.exited v (of_setWorker hv (by rintro ⟨⟩))
  | take hready htasks =>
    have hexited : s.workers v = .exited := of_setWorker hv (by rintro ⟨⟩)
    cases htasks.symm.trans (hI.exited v hexited).2

theorem joining_step (hI : s.Synchronised) (h : Effect s l s') (t : T) (i : Nat)
    (ht : s'.callers t = .joining i) :
    s'.stop = true ∧ ∀ w : Fin n, w < i → s'.workers w = .exited := by
  have hkeep : s.callers t = .joining i →
      s'.stop = true ∧ ∀ w : Fin n, w < i → s'.workers w = .exited := by
    intro hold
    obtain ⟨hstop, hexited⟩ := hI.joining t i hold
    exact ⟨stop_effect h hstop, fun w hw => exited_effect h (hexited w hw)⟩
  cases h with
  | refuse | stopAgain | exit | wait | take | finish | wake => exact hkeep ht
  | accept | notify | notifyNobody | stop | joinEnd =>
    exact hkeep (of_setCaller ht (by rintro ⟨⟩))
  | @notifyAll u hcaller =>
    rcases eq_or_ne t u with rfl | htu
    · obtain rfl : 0 = i := PoolCallerPc.joining.inj ((setCaller_self ..).symm.trans ht)
      exact ⟨hI.stopping t hcaller, fun w hw => absurd hw (Nat.not_lt_zero _)⟩
    · exact hkeep ((setCaller_of_ne htu _).symm.trans ht)
  | @joinNext u v hcaller hexited =>
    rcases eq_or_ne t u with rfl | htu
    · obtain rfl : (v : Nat) + 1 = i := PoolCallerPc.joining.inj ((setCaller_self ..).symm.trans ht)
      obtain ⟨hstop, hjoined⟩ := hI.joining t v hcaller
      refine ⟨hstop, fun w hw => ?_⟩
      rcases Nat.lt_or_eq_of_le (Nat.le_of_lt_succ hw) with hlt | heq
      · exact hjoined w hlt
      · rwa [Fin.ext heq]
    · exact hkeep ((setCaller_of_ne htu _).symm.trans ht)

theorem stopping_step (hI : s.Synchronised) (h : Effect s l s') (t : T)
    (ht : s'.callers t = .stopping) : s'.stop = true := by
  have hkeep : s.callers t = .stopping → s'.stop = true := fun hold =>
    stop_effect h (hI.stopping t hold)
  cases h with
  | refuse | stopAgain | exit | wait | take | finish | wake => exact hkeep ht
  | accept | notify | notifyNobody | notifyAll | joinNext | joinEnd =>
    exact hkeep (of_setCaller ht (by rintro ⟨⟩))
  | stop => rfl

theorem awake_step (hn : 0 < n) (hI : s.Synchronised) (h : Effect s l s') (htasks : s'.tasks ≠ []) :
    (∃ w, s'.workers w ≠ .waiting) ∨ ∃ t, s'.callers t = .submitted := by
  cases h with
  | refuse | stopAgain => exact hI.awake htasks
  | @accept t => exact .inr ⟨t, setCaller_self ..⟩
  | @notify _ w | @wake w =>
    refine .inl ⟨w, ?_⟩
    rw [setWorker_self]
    rintro ⟨⟩
  | @finish w task =>
    refine .inl ⟨w, fun hwaiting => ?_⟩
    cases (setWorker_self w _).symm.trans hwaiting
  | @take w =>
    refine .inl ⟨w, fun hwaiting => ?_⟩
    cases (setWorker_self w _).symm.trans hwaiting
  | notifyNobody hcaller hawake => exact .inl ⟨⟨0, hn⟩, hawake _⟩
  | stop hcaller | joinNext hcaller | joinEnd hcaller =>
    refine (hI.awake htasks).imp_right ?_
    rintro ⟨u, hu⟩
    refine ⟨u, setCaller_stays hu fun hsubmitted => ?_⟩
    cases hcaller.symm.trans hsubmitted
  | notifyAll =>
    refine .inl ⟨⟨0, hn⟩, ?_⟩
    exact PoolWorkerPc.wakeUp_ne_waiting
  | exit hready hnil | wait hready hnil => exact absurd hnil htasks

theorem synchronised_effect (hn : 0 < n) (hI : s.Synchronised) (h : Effect s l s') :
    s'.Synchronised where
  exited := exited_step hI h
  joining := joining_step hI h
  stopping := stopping_step hI h
  awake := awake_step hn hI h

end

end ThreadPool
