-- SUMMARY: What the thread pool does with the tasks it accepts, in every fair execution, and which call of Shutdown returns too early.
import NeuroPipeline.Edge.ThreadPool

/-!
# Execution of the tasks

A fair execution of the pool: workers and callers that are able to go on do so, and a task that
is run comes to its end. Calls and spurious wakeups may come at any time, or never.
-/

/-- The threads of the pool. -/
inductive PoolThread (n : Nat) (T : Type) where
  | worker (w : Fin n)
  | caller (t : T)

/-- The thread that is bound to take a step. -/
def PoolAct.thread {n : Nat} {T α : Type} : PoolAct n T α → Option (PoolThread n T)
  | .submit _ _ | .shutdown _ | .wake _ => none
  | .notifyOne t _ | .notifyAll t | .join t => some (.caller t)
  | .acquire w | .finish w => some (.worker w)

namespace ThreadPool

variable {n : Nat} {T α : Type}

/-! ## What is asked for -/

/-- The task was run once, with its own function, and to the end. -/
def RanOnce (s : ThreadPool n T α) (x : PoolTask α) : Prop :=
  s.started.filter (fun y => y.serial = x.serial) = [x] ∧
    s.finished.filter (fun y => y.serial = x.serial) = [x]

/-- The step is the return of a call of `Shutdown`. -/
def ShutdownReturns (s : ThreadPool n T α) : PoolAct n T α → Prop
  | .shutdown _ => s.stop = true
  | .join t => ∃ i, s.callers t = .joining i ∧ n ≤ i
  | _ => False

/-- A call of `Shutdown` that finds the pool stopped finds no unfinished task. -/
def StopsDrained (s : ThreadPool n T α) : PoolAct n T α → Prop
  | .shutdown _ => s.stop = true → ∀ x ∈ s.accepted, x ∈ s.finished
  | _ => True

variable [DecidableEq T] {maxQueueSize : Nat}

/-- No task is lost: what is accepted, at any time, is run once; what is rejected never; and
when a call of `Shutdown` returns, all that is ever accepted has finished. -/
structure KeepsTasks (e : (threadPool n T α maxQueueSize).Execution) : Prop where
  ranOnce : ∀ k, ∀ x ∈ (e.state k).accepted, ∃ j, ∀ i, j ≤ i → (e.state i).RanOnce x
  rejected : ∀ k, ∀ y ∈ (e.state k).rejected, ∀ j, ∀ x ∈ (e.state j).started,
    x.serial ≠ y.1.serial
  drained : ∀ k l, e.act k = some l → (e.state k).ShutdownReturns l →
    ∀ j, ∀ x ∈ (e.state j).accepted, x ∈ (e.state k).finished

/-! ## The invariant -/

structure Inv (s : ThreadPool n T α) : Prop where
  logged : s.Logged
  synchronised : s.Synchronised

omit [DecidableEq T] in
theorem inv_new : Inv ({ maxQueueSize := maxQueueSize } : ThreadPool n T α) where
  logged :=
    { order := rfl
      balanced := by simp [Custody.holdings]
      sorted := .nil
      accepted_lt := by simp
      rejected_lt := by simp
      apart := by simp }
  synchronised :=
    { exited := by simp
      joining := by simp
      stopping := by simp
      awake := fun h => absurd rfl h }

theorem inv_step (hn : 0 < n) {s s' : ThreadPool n T α} {l : PoolAct n T α} (hI : s.Inv)
    (h : s.step l = some s') : s'.Inv where
  logged := logged_effect hI.logged (step_effect h)
  synchronised := synchronised_effect hn hI.synchronised (step_effect h)

variable {e : (threadPool n T α maxQueueSize).Execution}

theorem inv_state (hn : 0 < n) (k : Nat) : (e.state k).Inv := by
  refine TransitionSystem.Execution.invariant (I := Inv) ?_ (fun _ _ _ hI h => inv_step hn hI h) k
  rintro s rfl
  exact inv_new

/-! ## What is finished was run once -/

theorem filter_serial {l : List (PoolTask α)} {x : PoolTask α} (hl : (l.map PoolTask.serial).Nodup)
    (hx : x ∈ l) : l.filter (fun y => y.serial = x.serial) = [x] := by
  induction l with
  | nil => cases hx
  | cons y l ih =>
    obtain ⟨hy, hl⟩ := List.nodup_cons.mp hl
    rcases List.mem_cons.mp hx with rfl | hx
    · have hrest : l.filter (fun y => y.serial = x.serial) = [] := by
        refine List.filter_eq_nil_iff.mpr fun z hz heq => hy ?_
        rw [← of_decide_eq_true heq]
        exact List.mem_map_of_mem hz
      rw [List.filter_cons_of_pos (by simp), hrest]
    · rw [List.filter_cons_of_neg, ih hl hx]
      intro heq
      apply hy
      rw [of_decide_eq_true heq]
      exact List.mem_map_of_mem hx

omit [DecidableEq T] in
theorem Logged.started_nodup {s : ThreadPool n T α} (hI : s.Logged) :
    (s.started.map PoolTask.serial).Nodup := by
  have hsorted := hI.sorted
  rw [hI.order] at hsorted
  exact List.pairwise_map.mpr ((List.pairwise_append.mp hsorted).1.imp Nat.ne_of_lt)

omit [DecidableEq T] in
theorem ranOnce_of_finished {s : ThreadPool n T α} (hI : s.Logged) {x : PoolTask α}
    (hx : x ∈ s.finished) : s.RanOnce x := by
  have hle : (s.finished : Multiset (PoolTask α)) ≤ s.started := by
    rw [hI.balanced]
    exact Multiset.le_add_right _ _
  have hnodup : (s.finished.map PoolTask.serial).Nodup :=
    Multiset.coe_nodup.mp (Multiset.nodup_of_le (Multiset.map_le_map hle)
      (Multiset.coe_nodup.mpr hI.started_nodup))
  exact ⟨filter_serial hI.started_nodup (Multiset.mem_of_le hle hx), filter_serial hnodup hx⟩

/-! ## A queue that is not empty -/

/-- Tasks are queued, and so many have been started. -/
structure Awaiting (m : Nat) (s : ThreadPool n T α) : Prop where
  inv : s.Inv
  tasks : s.tasks ≠ []
  started : s.started.length = m

section

variable {s s' : ThreadPool n T α} {l : PoolAct n T α} {m : Nat}

/-- The queue stays until its first task is taken. -/
theorem awaiting_step (hn : 0 < n) (hA : s.Awaiting m) (h : s.step l = some s') :
    s'.Awaiting m ∨ m < s'.started.length := by
  have hI := inv_step hn hA.inv h
  cases step_effect h with
  | refuse | notify | notifyNobody | stopAgain | stop | notifyAll | joinNext | joinEnd | finish
  | wake => exact .inl ⟨hI, hA.tasks, hA.started⟩
  | accept => exact .inl ⟨hI, List.append_ne_nil_of_right_ne_nil _ (by rintro ⟨⟩), hA.started⟩
  | exit _ hnil | wait _ hnil => exact absurd hnil hA.tasks
  | take =>
    refine .inr ?_
    rw [List.length_append, hA.started]
    exact Nat.lt_succ_self m

/-- A worker that is about to take the mutex takes a task. -/
theorem ready_step (hA : s.Awaiting m) {w : Fin n} (hw : s.workers w = .ready)
    (h : s.step l = some s') :
    s'.workers w = .ready ∧ l.thread ≠ some (.worker w) ∨ m < s'.started.length := by
  cases step_effect h with
  | refuse | accept | notifyNobody | stopAgain | stop | joinNext | joinEnd =>
    exact .inl ⟨hw, by rintro ⟨⟩⟩
  | notifyAll => exact .inl ⟨congrArg PoolWorkerPc.wakeUp hw, by rintro ⟨⟩⟩
  | @notify _ v _ hv | @wake v hv =>
    refine .inl ⟨setWorker_stays hw fun hready => ?_, by rintro ⟨⟩⟩
    cases hv.symm.trans hready
  | @finish v task hv =>
    refine .inl ⟨setWorker_stays hw fun hready => ?_, ?_⟩
    · cases hv.symm.trans hready
    · rintro ⟨⟩
      cases hv.symm.trans hw
  | exit _ hnil | wait _ hnil => exact absurd hnil hA.tasks
  | take =>
    refine .inr ?_
    rw [List.length_append, hA.started]
    exact Nat.lt_succ_self m

/-- A task that is run goes on until it finishes. -/
theorem running_step {w : Fin n} {x : PoolTask α} (hw : s.workers w = .running x)
    (h : s.step l = some s') :
    s'.workers w = .running x ∧ l.thread ≠ some (.worker w) ∨
      s'.workers w = .ready ∧ x ∈ s'.finished := by
  cases step_effect h with
  | refuse | accept | notifyNobody | stopAgain | stop | joinNext | joinEnd =>
    exact .inl ⟨hw, by rintro ⟨⟩⟩
  | notifyAll => exact .inl ⟨congrArg PoolWorkerPc.wakeUp hw, by rintro ⟨⟩⟩
  | @notify _ v _ hv | @wake v hv =>
    refine .inl ⟨setWorker_stays hw fun hrunning => ?_, by rintro ⟨⟩⟩
    cases hv.symm.trans hrunning
  | @exit v hv | @wait v hv | @take v _ _ hv =>
    refine .inl ⟨setWorker_stays hw fun hrunning => ?_, ?_⟩
    · cases hv.symm.trans hrunning
    · rintro ⟨⟩
      cases hv.symm.trans hw
  | @finish v task hv =>
    rcases eq_or_ne w v with rfl | hwv
    · obtain rfl := PoolWorkerPc.running.inj (hv.symm.trans hw)
      exact .inr ⟨setWorker_self w _, List.mem_append_right _ (List.mem_singleton_self _)⟩
    · refine .inl ⟨(setWorker_of_ne hwv _).trans hw, ?_⟩
      rintro ⟨⟩
      exact hwv rfl

/-- A caller that is about to notify wakes up a worker, if all are waiting. -/
theorem submitted_step (hn : 0 < n) {t : T} (ht : s.callers t = .submitted)
    (hall : ∀ w, s.workers w = .waiting) (h : s.step l = some s') :
    s'.callers t = .submitted ∧ l.thread ≠ some (.caller t) ∨ ∃ w, s'.workers w ≠ .waiting := by
  cases step_effect h with
  | refuse | stopAgain => exact .inl ⟨ht, by rintro ⟨⟩⟩
  | @accept u _ hu | @stop u hu =>
    refine .inl ⟨setCaller_stays ht fun hsubmitted => ?_, by rintro ⟨⟩⟩
    cases hu.symm.trans hsubmitted
  | @notify _ w | @wake w =>
    refine .inr ⟨w, ?_⟩
    rw [setWorker_self]
    rintro ⟨⟩
  | notifyNobody _ hawake => exact absurd (hall ⟨0, hn⟩) (hawake _)
  | notifyAll => exact .inr ⟨⟨0, hn⟩, PoolWorkerPc.wakeUp_ne_waiting⟩
  | @joinNext u _ hu | @joinEnd u _ hu =>
    refine .inl ⟨setCaller_stays ht fun hsubmitted => ?_, ?_⟩
    · cases hu.symm.trans hsubmitted
    · rintro ⟨⟩
      cases hu.symm.trans ht
  | @exit w hw | @wait w hw | @take w _ _ hw => cases hw.symm.trans (hall w)
  | @finish w _ hw => cases hw.symm.trans (hall w)

end

/-! ## The log only grows -/

structure LogGrows (s s' : ThreadPool n T α) : Prop where
  accepted : s.accepted <+: s'.accepted
  rejected : s.rejected <+: s'.rejected
  finished : s.finished <+: s'.finished

omit [DecidableEq T] in
theorem LogGrows.refl (s : ThreadPool n T α) : s.LogGrows s :=
  ⟨List.prefix_rfl, List.prefix_rfl, List.prefix_rfl⟩

omit [DecidableEq T] in
theorem LogGrows.trans {s₁ s₂ s₃ : ThreadPool n T α} (h : s₁.LogGrows s₂) (h' : s₂.LogGrows s₃) :
    s₁.LogGrows s₃ :=
  ⟨h.accepted.trans h'.accepted, h.rejected.trans h'.rejected, h.finished.trans h'.finished⟩

theorem logGrows_step {s s' : ThreadPool n T α} {l : PoolAct n T α} (h : s.step l = some s') :
    s.LogGrows s' := by
  cases step_effect h with
  | refuse => exact { LogGrows.refl s with rejected := List.prefix_append _ _ }
  | accept => exact { LogGrows.refl s with accepted := List.prefix_append _ _ }
  | finish => exact { LogGrows.refl s with finished := List.prefix_append _ _ }
  | notify | notifyNobody | stopAgain | stop | notifyAll | joinNext | joinEnd | exit | wait | take
  | wake => exact { LogGrows.refl s with }

theorem logGrows {k j : Nat} (hkj : k ≤ j) : (e.state k).LogGrows (e.state j) :=
  TransitionSystem.Execution.related LogGrows.refl (fun _ _ _ => LogGrows.trans)
    (fun _ _ _ => logGrows_step) hkj

omit [DecidableEq T] in
/-- What was started has finished, or a worker runs it. -/
theorem started_cases {s : ThreadPool n T α} (hI : s.Logged) {x : PoolTask α}
    (hx : x ∈ s.started) : x ∈ s.finished ∨ ∃ w, s.workers w = .running x := by
  have hbalanced : x ∈ (s.finished : Multiset (PoolTask α)) +
      Custody.holdings fun w => (s.workers w).held := by
    rw [← hI.balanced]
    exact hx
  refine (Multiset.mem_add.mp hbalanced).imp_right fun hheld => ?_
  obtain ⟨w, -, hw⟩ := Multiset.mem_sum.mp hheld
  refine ⟨w, ?_⟩
  cases hpc : s.workers w with
  | running y =>
    rw [hpc] at hw
    rw [Multiset.mem_singleton.mp hw]
  | ready | waiting | exited =>
    rw [hpc] at hw
    cases Multiset.notMem_zero _ hw

/-! ## Every accepted task is run -/

section

variable (hfair : e.Fair PoolAct.thread)

include hfair

theorem ready_leadsTo (hn : 0 < n) (m : Nat) (w : Fin n) :
    e.LeadsTo (fun s => s.Awaiting m ∧ s.workers w = .ready) fun s => m < s.started.length := by
  apply hfair.leadsTo (.worker w)
  · rintro s ⟨-, hw⟩
    exact ⟨.acquire w, s.takeLock w, rfl, by simp [threadPool, step, hw]⟩
  · rintro s l s' ⟨hA, hw⟩ hl h
    rcases ready_step hA hw h with ⟨-, hne⟩ | hstarted
    · exact absurd hl hne
    · exact hstarted
  · rintro s l s' ⟨hA, hw⟩ h
    rcases awaiting_step hn hA h with hA' | hstarted
    · exact (ready_step hA hw h).imp_left fun hw' => ⟨hA', hw'.1⟩
    · exact .inr hstarted

theorem running_leadsTo (w : Fin n) (x : PoolTask α) :
    e.LeadsTo (fun s => s.workers w = .running x) fun s => x ∈ s.finished := by
  apply hfair.leadsTo (.worker w)
  · intro s hw
    exact ⟨.finish w, _, rfl, by simp [threadPool, step, hw]; rfl⟩
  · intro s l s' hw hl h
    rcases running_step hw h with ⟨-, hne⟩ | ⟨-, hx⟩
    · exact absurd hl hne
    · exact hx
  · intro s l s' hw h
    exact (running_step hw h).imp And.left And.right

/-- A worker that runs a task comes back for the next. -/
theorem busy_leadsTo (hn : 0 < n) (m : Nat) (w : Fin n) (x : PoolTask α) :
    e.LeadsTo (fun s => s.Awaiting m ∧ s.workers w = .running x) fun s => m < s.started.length := by
  have hready : e.LeadsTo (fun s => s.Awaiting m ∧ s.workers w = .running x) fun s =>
      s.Awaiting m ∧ s.workers w = .ready ∨ m < s.started.length := by
    apply hfair.leadsTo (.worker w)
    · rintro s ⟨-, hw⟩
      exact ⟨.finish w, _, rfl, by simp [threadPool, step, hw]; rfl⟩
    · rintro s l s' ⟨hA, hw⟩ hl h
      rcases running_step hw h with ⟨-, hne⟩ | ⟨hw', -⟩
      · exact absurd hl hne
      · exact (awaiting_step hn hA h).imp_left fun hA' => ⟨hA', hw'⟩
    · rintro s l s' ⟨hA, hw⟩ h
      rcases awaiting_step hn hA h with hA' | hstarted
      · exact (running_step hw h).imp (fun hw' => ⟨hA', hw'.1⟩) fun hw' => .inl ⟨hA', hw'.1⟩
      · exact .inr (.inr hstarted)
  exact hready.trans ((ready_leadsTo hfair hn m w).or (.of_imp fun _ h => h))

/-- Some worker is not waiting. -/
theorem worker_leadsTo (hn : 0 < n) (m : Nat) (w : Fin n) :
    e.LeadsTo (fun s => s.Awaiting m ∧ s.workers w ≠ .waiting) fun s => m < s.started.length := by
  rintro k ⟨hA, hw⟩
  cases hpc : (e.state k).workers w with
  | waiting => exact absurd hpc hw
  | ready => exact ready_leadsTo hfair hn m w k ⟨hA, hpc⟩
  | running x => exact busy_leadsTo hfair hn m w x k ⟨hA, hpc⟩
  | exited => exact absurd (hA.inv.synchronised.exited w hpc).2 hA.tasks

/-- All workers wait, and a caller is about to notify one. -/
theorem caller_leadsTo (hn : 0 < n) (m : Nat) (t : T) :
    e.LeadsTo (fun s => s.Awaiting m ∧ s.callers t = .submitted ∧ ∀ w, s.workers w = .waiting)
      fun s => m < s.started.length := by
  have hwoken : e.LeadsTo
      (fun s => s.Awaiting m ∧ s.callers t = .submitted ∧ ∀ w, s.workers w = .waiting)
      fun s => (∃ w, s.Awaiting m ∧ s.workers w ≠ .waiting) ∨ m < s.started.length := by
    apply hfair.leadsTo (.caller t)
    · rintro s ⟨-, ht, hall⟩
      have hwaiting : (s.workers ⟨0, hn⟩).isWaiting = true :=
        PoolWorkerPc.isWaiting_iff.mpr (hall _)
      exact ⟨.notifyOne t (some ⟨0, hn⟩), _, rfl, by
        simp [threadPool, step, ht, notifyOne, hwaiting]; rfl⟩
    · rintro s l s' ⟨hA, ht, hall⟩ hl h
      rcases submitted_step hn ht hall h with ⟨-, hne⟩ | ⟨w, hw⟩
      · exact absurd hl hne
      · exact (awaiting_step hn hA h).imp_left fun hA' => ⟨w, hA', hw⟩
    · rintro s l s' ⟨hA, ht, hall⟩ h
      rcases awaiting_step hn hA h with hA' | hstarted
      · by_cases hw : ∃ w, s'.workers w ≠ .waiting
        · exact .inr (.inl (hw.imp fun w hw => ⟨hA', hw⟩))
        · rcases submitted_step hn ht hall h with ⟨ht', -⟩ | hw'
          · exact .inl ⟨hA', ht', fun w => not_not.mp fun hne => hw ⟨w, hne⟩⟩
          · exact absurd hw' hw
      · exact .inr (.inr hstarted)
  exact hwoken.trans (.or (.of_exists (worker_leadsTo hfair hn m)) (.of_imp fun _ h => h))

/-- Where tasks are queued, one more is started. -/
theorem awaiting_leadsTo (hn : 0 < n) (m : Nat) :
    e.LeadsTo (Awaiting m) fun s => m < s.started.length := by
  intro k hA
  by_cases hw : ∃ w, (e.state k).workers w ≠ .waiting
  · obtain ⟨w, hw⟩ := hw
    exact worker_leadsTo hfair hn m w k ⟨hA, hw⟩
  · have hall : ∀ w, (e.state k).workers w = .waiting := fun w => not_not.mp fun hne => hw ⟨w, hne⟩
    obtain ⟨t, ht⟩ := (hA.inv.synchronised.awake hA.tasks).resolve_left hw
    exact caller_leadsTo hfair hn m t k ⟨hA, ht, hall⟩

/-- A task that is accepted as the one at position `p` is started. -/
theorem accepted_leadsTo (hn : 0 < n) (p : Nat) (x : PoolTask α) :
    e.LeadsTo (fun s => s.accepted[p]? = some x) fun s => x ∈ s.started := by
  refine .of_rank (f := fun s => p + 1 - s.started.length) ?_
  rintro m k ⟨hp, hm⟩
  have horder := (inv_state (e := e) hn k).logged.order
  rcases Nat.lt_or_ge p (e.state k).started.length with hlt | hge
  · rw [horder, List.getElem?_append_left hlt] at hp
    exact ⟨k, Nat.le_refl k, .inl (List.mem_of_getElem? hp)⟩
  · have htasks : (e.state k).tasks ≠ [] := by
      intro hnil
      rw [horder, hnil, List.append_nil, List.getElem?_eq_none hge] at hp
      cases hp
    obtain ⟨j, hkj, hstarted⟩ :=
      awaiting_leadsTo hfair hn _ k ⟨inv_state (e := e) hn k, htasks, rfl⟩
    refine ⟨j, hkj, .inr ⟨?_, ?_⟩⟩
    · obtain ⟨hlt, hx⟩ := List.getElem?_eq_some_iff.mp hp
      rw [List.prefix_iff_getElem?.mp (logGrows (e := e) hkj).accepted p hlt, hx]
    · rw [← hm]
      omega

/-- A task that is accepted is run to its end. -/
theorem accepted_finishes (hn : 0 < n) {k : Nat} {x : PoolTask α}
    (hx : x ∈ (e.state k).accepted) : ∃ j, ∀ i, j ≤ i → x ∈ (e.state i).finished := by
  obtain ⟨p, hp⟩ := List.mem_iff_getElem?.mp hx
  obtain ⟨j, -, hstarted⟩ := accepted_leadsTo hfair hn p x k hp
  obtain ⟨i, hfinished⟩ : ∃ i, x ∈ (e.state i).finished := by
    rcases started_cases (inv_state (e := e) hn j).logged hstarted with hfinished | ⟨w, hw⟩
    · exact ⟨j, hfinished⟩
    · obtain ⟨i, -, hfinished⟩ := running_leadsTo hfair w x j hw
      exact ⟨i, hfinished⟩
  exact ⟨i, fun i' hi => (logGrows (e := e) hi).finished.subset hfinished⟩

end

/-! ## What Shutdown promises -/

/-- Nothing is accepted once the pool has been stopped. -/
theorem accepted_of_stop {k j : Nat} (hstop : (e.state k).stop = true) {x : PoolTask α}
    (hx : x ∈ (e.state j).accepted) : x ∈ (e.state k).accepted := by
  rcases Nat.le_total j k with hjk | hkj
  · exact (logGrows (e := e) hjk).accepted.subset hx
  · have hsame : (e.state j).stop = true ∧ (e.state j).accepted = (e.state k).accepted := by
      refine TransitionSystem.Execution.stable
        (I := fun s : ThreadPool n T α => s.stop = true ∧ s.accepted = (e.state k).accepted)
        ?_ hkj ⟨hstop, rfl⟩
      rintro s l s' ⟨hs, haccepted⟩ h
      refine ⟨stop_effect (step_effect h) hs, ?_⟩
      rw [← haccepted]
      cases step_effect h with
      | accept _ hrunning => cases hrunning.symm.trans hs
      | refuse | notify | notifyNobody | stopAgain | stop | notifyAll | joinNext | joinEnd | exit
      | wait | take | finish | wake => rfl
    rwa [hsame.2] at hx

omit [DecidableEq T] in
/-- When every worker has been joined, every task has finished. -/
theorem finished_of_joined (hn : 0 < n) {s : ThreadPool n T α} (hI : s.Inv) {t : T} {i : Nat}
    (ht : s.callers t = .joining i) (hi : n ≤ i) : ∀ x ∈ s.accepted, x ∈ s.finished := by
  intro x hx
  have hexited : ∀ w : Fin n, s.workers w = .exited := fun w =>
    (hI.synchronised.joining t i ht).2 w (w.isLt.trans_le hi)
  have htasks : s.tasks = [] := (hI.synchronised.exited ⟨0, hn⟩ (hexited _)).2
  rw [hI.logged.order, htasks, List.append_nil] at hx
  refine (started_cases hI.logged hx).resolve_right ?_
  rintro ⟨w, hw⟩
  cases (hexited w).symm.trans hw

/-- The pool loses no task exactly when no call of `Shutdown` finds it stopped by another with
a task unfinished. -/
theorem keepsTasks_iff_stopsDrained (hn : 0 < n) (hfair : e.Fair PoolAct.thread) :
    KeepsTasks e ↔ e.Respects StopsDrained := by
  constructor
  · intro hkeeps k l hact
    cases l with
    | shutdown t =>
      intro hstop x hx
      exact hkeeps.drained k _ hact hstop k x hx
    | submit | notifyOne | notifyAll | join | acquire | finish | wake => trivial
  · intro hrespects
    refine ⟨?_, ?_, ?_⟩
    · intro k x hx
      obtain ⟨j, hj⟩ := accepted_finishes hfair hn hx
      exact ⟨j, fun i hi => ranOnce_of_finished (inv_state (e := e) hn i).logged (hj i hi)⟩
    · intro k y hy j x hx
      have hrejected := (logGrows (e := e) (Nat.le_max_left k j)).rejected.subset hy
      have haccepted : x ∈ (e.state (max k j)).accepted := by
        apply (logGrows (e := e) (Nat.le_max_right k j)).accepted.subset
        rw [(inv_state (e := e) hn j).logged.order]
        exact List.mem_append_left _ hx
      exact (inv_state (e := e) hn (max k j)).logged.apart x haccepted y hrejected
    · intro k l hact hreturns j x hx
      cases l with
      | shutdown t => exact hrespects k _ hact hreturns x (accepted_of_stop hreturns hx)
      | join t =>
        obtain ⟨i, ht, hi⟩ := hreturns
        have hstop := ((inv_state (e := e) hn k).synchronised.joining t i ht).1
        exact finished_of_joined hn (inv_state (e := e) hn k) ht hi x (accepted_of_stop hstop hx)
      | submit | notifyOne | notifyAll | acquire | finish | wake => exact hreturns.elim

/-! ## Two callers and one worker -/

/-- Where all workers have left and nobody is in a call, no thread is able to go on. -/
theorem rests {s : ThreadPool n T α} (hworkers : ∀ w, s.workers w = .exited)
    (hcallers : ∀ t, s.callers t = .idle) (a : PoolThread n T) :
    ¬ (threadPool n T α maxQueueSize).Enabled PoolAct.thread a s := by
  rintro ⟨l, s', hl, h⟩
  cases step_effect h with
  | refuse | accept | stopAgain | stop | wake => cases hl
  | @notify t _ ht | @notifyNobody t ht | @notifyAll t ht | @joinNext t _ ht | @joinEnd t _ ht =>
    cases ht.symm.trans (hcallers t)
  | @exit w hw | @wait w hw | @take w _ _ hw | @finish w _ hw => cases hw.symm.trans (hworkers w)

/-- A task whose worker is at it when the first caller, and then perhaps the second, calls
`Shutdown`. -/
def stoppedRun (again : List (PoolAct 1 (Fin 2) Unit)) : List (PoolAct 1 (Fin 2) Unit) :=
  [.submit 0 (), .notifyOne 0 none, .acquire 0, .shutdown 0] ++ again ++
    [.finish 0, .acquire 0, .notifyAll 0, .join 0, .join 0]

theorem init_smallPool : (threadPool 1 (Fin 2) Unit 0).init { maxQueueSize := 0 } := rfl

/-- The second call returns at once, while the task is run. -/
theorem not_keepsTasks_secondShutdown :
    ¬ ∀ e : (threadPool 1 (Fin 2) Unit 0).Execution, e.Fair PoolAct.thread → KeepsTasks e := by
  intro h
  have hview : ((threadPool 1 (Fin 2) Unit 0).execTrace { maxQueueSize := 0 }
      (stoppedRun [.shutdown 1])).map (fun x => x.1[4]?.map fun p =>
        decide (p.1.stop = true ∧ ⟨0, ()⟩ ∈ p.1.accepted ∧ ⟨0, ()⟩ ∉ p.1.finished ∧
          (∀ w, (x.2.workers w).isExited = true) ∧ ∀ t, x.2.callers t = .idle)) =
        some (some true) := by
    decide +kernel
  obtain ⟨t, s, hrun, hlabels, hview⟩ := TransitionSystem.exists_run_of_execTrace hview
  obtain ⟨p, hp, hview⟩ := Option.map_eq_some_iff.mp hview
  obtain ⟨hstop, haccepted, hfinished, hworkers, hcallers⟩ := of_decide_eq_true hview
  have hfair : (hrun.execution init_smallPool).Fair PoolAct.thread :=
    hrun.execution_fair init_smallPool
      (rests (fun w => PoolWorkerPc.isExited_iff.mp (hworkers w)) hcallers)
  have hstate : (hrun.execution init_smallPool).state 4 = p.1 :=
    TransitionSystem.stateAt_of_getElem? hp
  have hact : (hrun.execution init_smallPool).act 4 = some (.shutdown 1) := by
    rw [hrun.execution_act, hlabels]
    rfl
  have hdrained := (h _ hfair).drained 4 _ hact
  rw [hstate] at hdrained
  refine hfinished (hdrained hstop 4 ⟨0, ()⟩ ?_)
  rwa [hstate]

/-- Without the second call, the first waits for the task. -/
theorem keepsTasks_iff_stopsDrained_oneShutdown :
    ∃ e : (threadPool 1 (Fin 2) Unit 0).Execution, e.act 3 = some (.shutdown 0) ∧
      (KeepsTasks e ↔ e.Respects StopsDrained) := by
  have hview : ((threadPool 1 (Fin 2) Unit 0).execTrace { maxQueueSize := 0 } (stoppedRun [])).map
      (fun x => decide ((∀ w, (x.2.workers w).isExited = true) ∧ ∀ t, x.2.callers t = .idle)) =
        some true := by
    decide +kernel
  obtain ⟨t, s, hrun, hlabels, hview⟩ := TransitionSystem.exists_run_of_execTrace hview
  obtain ⟨hworkers, hcallers⟩ := of_decide_eq_true hview
  have hfair : (hrun.execution init_smallPool).Fair PoolAct.thread :=
    hrun.execution_fair init_smallPool
      (rests (fun w => PoolWorkerPc.isExited_iff.mp (hworkers w)) hcallers)
  refine ⟨hrun.execution init_smallPool, ?_, keepsTasks_iff_stopsDrained Nat.one_pos hfair⟩
  rw [hrun.execution_act, hlabels]
  rfl

end ThreadPool
