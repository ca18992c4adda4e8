-- SUMMARY: Shutdown of the vision pipeline: what was put into the queue, what the worker has in hand, and what is processed when it is cancelled.
import Mathlib.Algebra.Order.Group.Multiset
import NeuroPipeline.Central.VlmWorker

/-!
# Shutdown

Model of `shutdown` of vlm_pipeline.py and central_orchestrator.py around the
worker, with the processor of detections that fills the queue. Nobody else
cancels the worker. An item is processed when `_process_item` has returned from
it: with a text, with an error, or refused by the breaker.
-/

/-! ## Tasks done -/

namespace VlmState

@[simp] theorem recordTurns_tasksDone (s : VlmState) (item : VlmItem) (vlmResult : String) :
    (s.recordTurns item vlmResult).tasksDone = s.tasksDone := by
  by_cases h : item.deviceId = ""
  · rw [recordTurns, if_pos h]
  · rw [recordTurns, if_neg h]

end VlmState

namespace VLMProcessingPipeline

variable (p : VLMProcessingPipeline) (s : VlmState) (item : VlmItem) (idx : Nat)
  (batchResults : Option (List String)) (env : ItemEnv) (faults : ItemFaults)

@[simp] theorem applyGuidance_tasksDone (vlmResult : String) :
    (p.applyGuidance s item faults vlmResult).tasksDone = s.tasksDone := by
  cases hguide : p.vlmConfigGuide with
  | none => simp only [applyGuidance, hguide]
  | some guide =>
      by_cases hd : item.deviceId = ""
      · simp only [applyGuidance, hguide, hd, if_true]
      · cases hf : faults.guidance <;> simp only [applyGuidance, hguide, hd, hf, if_false]

theorem afterPublish_tasksDone (vlmResult : String) :
    (p.afterPublish s item faults vlmResult).1.tasksDone = s.tasksDone := by
  by_cases hc : (p.cloudStorage && !item.frameData.isEmpty) = true
  · cases hf : faults.uploadFrame with
    | none => simp [afterPublish, hc, hf, VlmState.uploadFrame]
    | some fault => cases fault <;> simp [afterPublish, hc, hf]
  · simp [afterPublish, hc]

theorem afterAnalysis_tasksDone (vlmResult : String) :
    (p.afterAnalysis s item env faults vlmResult).1.tasksDone = s.tasksDone := by
  cases ht : faults.addTurn with
  | some e => simp [afterAnalysis, ht]
  | none =>
      cases hp : faults.publish with
      | some e => simp [afterAnalysis, ht, hp, VlmState.recordSuccess]
      | none =>
          simp [afterAnalysis, ht, hp, afterPublish_tasksDone, VlmState.publish,
            VlmState.recordSuccess]

theorem analyse_tasksDone :
    (p.analyse s item idx batchResults env faults).1.tasksDone = s.tasksDone := by
  cases hb : faults.buildPrompt with
  | some e => simp [analyse, hb]
  | none => cases ht : batchResult idx batchResults <;> simp [analyse, hb, ht, callEngine]

theorem tryItem_tasksDone :
    (p.tryItem s item idx batchResults env faults).1.tasksDone = s.tasksDone := by
  rw [← p.analyse_tasksDone s item idx batchResults env faults]
  rcases ha : p.analyse s item idx batchResults env faults with ⟨s', ended⟩
  cases ended <;> simp [tryItem, ha, afterAnalysis_tasksDone]

theorem handleError_tasksDone (e : String) : (p.handleError s env e).tasksDone = s.tasksDone := by
  simp only [handleError]
  split <;> simp [VlmState.recordFailure]

theorem finish_tasksDone (r : VlmState × Ended Unit) :
    (p.finish env r).1.tasksDone = r.1.tasksDone + 1 := by
  obtain ⟨s, ended⟩ := r
  cases ended <;> simp [finish, VlmState.taskDone, handleError_tasksDone]

/-- Whatever happens to it, an item is one task done. -/
theorem processItem_tasksDone :
    (p.processItem s item idx batchResults env faults).1.tasksDone = s.tasksDone + 1 := by
  rcases hallow : s.breaker.allowRequest env.admitAt with ⟨breaker, allowed⟩
  cases allowed with
  | false => simp [processItem, hallow, VlmState.taskDone]
  | true => simp [processItem, hallow, finish_tasksDone, tryItem_tasksDone]

theorem dispatch_tasksDone (batch : List VlmItem) (env : BatchEnv) :
    (p.dispatch s batch env).1.tasksDone = s.tasksDone := by
  by_cases hlen : batch.length ≤ 1
  · rw [dispatch_of_single hlen]
  · rw [dispatch_state (by omega)]

end VLMProcessingPipeline

/-! ## The worker's account -/

namespace VlmWorker

variable {p : VLMProcessingPipeline} {w w' : VlmWorker} {a : WorkerAct}

/-- The partial batch, or what is left of the batch that is analysed. -/
def inHand (w : VlmWorker) : List VlmItem :=
  match w.pc with
  | .gathering batch => batch
  | .processing rest _ _ => rest
  | .stopped => []

/-- The item that a step is about. -/
def current (w : VlmWorker) : WorkerAct → List VlmItem
  | .processItem _ _ => w.inHand.take 1
  | _ => []

theorem inHand_of_next {rest : List VlmItem} {idx : Nat} {batchResults : Option (List String)}
    (hpc : w.pc = next rest idx batchResults) : w.inHand = rest := by
  rw [inHand, hpc]
  cases rest with
  | nil => rfl
  | cons item rest => rfl

/-- What the worker has taken it has in hand until it is processed, and each item
processed is one task done. -/
theorem step_account (hs : w.step p a = some w') (hput : ∀ item, a ≠ .putNowait item)
    (hpc : w'.pc ≠ .stopped) :
    w.inHand ++ w.queue = w.current a ++ (w'.inHand ++ w'.queue) ∧
    w'.state.tasksDone = w.state.tasksDone + (w.current a).length := by
  cases a with
  | putNowait item => exact absurd rfl (hput item)
  | get =>
      obtain ⟨batch, item, rest, hw, hq, rfl⟩ := step_get hs
      simp [inHand, hw, hq, current]
  | dispatch env =>
      obtain ⟨batch, hw, -, hstate, -, hqueue, hstop | ⟨batchResults, hnext⟩⟩ := step_dispatch hs
      · exact absurd hstop hpc
      · rw [hstate, VLMProcessingPipeline.dispatch_tasksDone]
        simp [inHand, hw, hnext, hqueue, current]
  | processItem env faults =>
      obtain ⟨item, rest, idx, batchResults, hw, hstate, -, hqueue, hstop | hnext⟩ :=
        step_processItem hs
      · exact absurd hstop hpc
      · rw [hstate, VLMProcessingPipeline.processItem_tasksDone, inHand_of_next hnext]
        simp [inHand, hw, hqueue, current]
  | cancel =>
      obtain rfl := step_cancel hs
      exact absurd rfl hpc

end VlmWorker

/-! ## The service -/

inductive ShutdownPhase where
  | serving
  /-- in `wait_for` on `join` -/
  | draining
  /-- the worker is cancelled; what had been processed then, and whether the drain timed out -/
  | cancelled (processed : List VlmItem) (timedOut : Bool)

structure VlmService where
  worker : VlmWorker
  shuttingDown : Bool
  phase : ShutdownPhase
  /-- everything that was put into the queue -/
  accepted : List VlmItem
  /-- what had been put into the queue when the shutdown began -/
  putBefore : List VlmItem
  processed : List VlmItem

inductive ServiceAct where
  /-- the end of `process` of the detections: a request for the model -/
  | request (item : VlmItem)
  | work (a : WorkerAct)
  | shutdown
  /-- `join` returns -/
  | drained
  | drainTimeout

namespace VlmService

/-- `_unfinished_tasks` -/
def unfinished (s : VlmService) : Nat := s.accepted.length - s.worker.state.tasksDone

def cancelWorker (s : VlmService) (timedOut : Bool) : VlmService :=
  { s with phase := .cancelled s.processed timedOut }

/-- The worker is done with a step. Only `shutdown` cancels it. -/
def worked (s : VlmService) (a : WorkerAct) (worker : VlmWorker) : Option VlmService :=
  match worker.pc, s.phase with
  | .stopped, .cancelled _ _ => some { s with worker }
  | .stopped, _ => none
  | _, _ => some { s with worker, processed := s.processed ++ s.worker.current a }

def step (p : VLMProcessingPipeline) (s : VlmService) : ServiceAct → Option VlmService
  | .request item =>
    if s.shuttingDown then some s
    else if s.worker.queue.length < VlmWorker.queueSize then
      (s.worker.step p (.putNowait item)).map fun worker =>
        { s with worker, accepted := s.accepted ++ [item] }
    else some s
  | .work (.putNowait _) => none
  | .work a => (s.worker.step p a).bind (s.worked a)
  | .shutdown =>
    match s.phase with
    | .serving =>
      let s := { s with shuttingDown := true, putBefore := s.accepted }
      if s.worker.queue = [] then some (s.cancelWorker false) else some { s with phase := .draining }
    | _ => none
  | .drained =>
    match s.phase with
    | .draining => if s.unfinished = 0 then some (s.cancelWorker false) else none
    | _ => none
  | .drainTimeout =>
    match s.phase with
    | .draining => some (s.cancelWorker true)
    | _ => none

end VlmService

def vlmServiceSystem (p : VLMProcessingPipeline) : TransitionSystem VlmService ServiceAct where
  init s := ∃ w, (workerSystem p).init w ∧ s = ⟨w, false, .serving, [], [], []⟩
  step := VlmService.step p

/-! ## What is processed when the worker is cancelled -/

namespace VlmService

/-- What was put into the queue before the shutdown is processed before the worker is
cancelled, unless the drain timed out. -/
def Drained (s : VlmService) : Prop :=
  ∀ processed, s.phase = .cancelled processed false →
    (s.putBefore : Multiset VlmItem) ≤ processed

/-- A shutdown finds the queue empty only when the worker has nothing in hand. -/
def SeesAll (s : VlmService) (l : ServiceAct) : Prop :=
  l = .shutdown → s.worker.queue ≠ [] ∨ s.worker.inHand = []

/-- Until the worker is cancelled, every item is processed, in hand or queued, and
`join` counts the last two. -/
structure Balanced (s : VlmService) : Prop where
  account : s.accepted = s.processed ++ (s.worker.inHand ++ s.worker.queue)
  done : s.worker.state.tasksDone = s.processed.length
  alive : s.worker.pc ≠ .stopped

variable {p : VLMProcessingPipeline} {s s' : VlmService}

theorem Balanced.nothing_held (h : s.Balanced) (hun : s.unfinished = 0) :
    s.accepted = s.processed := by
  have hlen : s.worker.inHand ++ s.worker.queue = [] := by
    have haccount := congrArg List.length h.account
    rw [unfinished, h.done] at hun
    rw [List.length_append] at haccount
    exact List.length_eq_zero_iff.mp (by omega)
  rw [h.account, hlen, List.append_nil]

theorem Balanced.le_processed_iff (h : s.Balanced) :
    (s.accepted : Multiset VlmItem) ≤ s.processed ↔ s.worker.inHand ++ s.worker.queue = [] := by
  rw [h.account, Multiset.coe_le]
  constructor
  · intro hsub
    have hlen := hsub.length_le
    rw [List.length_append] at hlen
    exact List.length_eq_zero_iff.mp (by omega)
  · intro hnil
    rw [hnil, List.append_nil]

theorem step_request {item : VlmItem} (hs : s.step p (.request item) = some s') :
    s'.phase = s.phase ∧ s'.putBefore = s.putBefore ∧ s'.shuttingDown = s.shuttingDown ∧
    (s.shuttingDown = true → s'.accepted = s.accepted) ∧ (s.Balanced → s'.Balanced) := by
  cases hdown : s.shuttingDown with
  | true =>
      simp only [step, hdown, if_true, Option.some.injEq] at hs
      simp [← hs, hdown]
  | false =>
      by_cases hq : s.worker.queue.length < VlmWorker.queueSize
      · simp only [step, hdown, hq, VlmWorker.step, if_true, Option.map_some, Option.some.injEq,
          Bool.false_eq_true, if_false] at hs
        subst hs
        refine ⟨rfl, rfl, rfl, by simp, fun h => ⟨?_, h.done, h.alive⟩⟩
        simp only [h.account, VlmWorker.inHand, List.append_assoc]
      · simp only [step, hdown, hq, Bool.false_eq_true, if_false, Option.some.injEq] at hs
        simp [← hs, hdown]

/-- The worker leaves the shutdown alone, and what it takes it processes while it is
not cancelled. -/
theorem step_work {a : WorkerAct} (hs : s.step p (.work a) = some s') :
    s'.phase = s.phase ∧ s'.putBefore = s.putBefore ∧ s'.shuttingDown = s.shuttingDown ∧
    s'.accepted = s.accepted ∧
    ((∀ processed timedOut, s.phase ≠ .cancelled processed timedOut) → s.Balanced → s'.Balanced) := by
  obtain ⟨hput, worker, hw, hworked⟩ :
      (∀ item, a ≠ .putNowait item) ∧ ∃ worker, s.worker.step p a = some worker ∧
        s.worked a worker = some s' := by
    cases a with
    | putNowait item => simp [step] at hs
    | get => exact ⟨by simp, Option.bind_eq_some_iff.mp hs⟩
    | dispatch env => exact ⟨by simp, Option.bind_eq_some_iff.mp hs⟩
    | processItem env faults => exact ⟨by simp, Option.bind_eq_some_iff.mp hs⟩
    | cancel => exact ⟨by simp, Option.bind_eq_some_iff.mp hs⟩
  by_cases hstop : worker.pc = .stopped
  · cases hphase : s.phase with
    | serving => simp [worked, hstop, hphase] at hworked
    | draining => simp [worked, hstop, hphase] at hworked
    | cancelled processed timedOut =>
        simp only [worked, hstop, hphase, Option.some.injEq] at hworked
        simp [← hworked]
  · have hs' : { s with worker, processed := s.processed ++ s.worker.current a } = s' := by
      cases hpc : worker.pc with
      | stopped => exact absurd hpc hstop
      | gathering batch => simpa [worked, hpc] using hworked
      | processing rest idx batchResults => simpa [worked, hpc] using hworked
    subst hs'
    refine ⟨rfl, rfl, rfl, rfl, fun _ h => ?_⟩
    obtain ⟨haccount, hdone⟩ := VlmWorker.step_account hw hput hstop
    constructor
    · simp only [h.account, haccount, List.append_assoc]
    · simp only [hdone, h.done, List.length_append]
    · exact hstop

/-- What holds before the worker is cancelled, and what the cancellation depends on. -/
def Account (t : List (VlmService × ServiceAct)) (s : VlmService) : Prop :=
  match s.phase with
  | .serving => s.Balanced ∧ s.shuttingDown = false ∧ TransitionSystem.Respects SeesAll t
  | .draining =>
    s.Balanced ∧ s.shuttingDown = true ∧ s.putBefore = s.accepted ∧
      TransitionSystem.Respects SeesAll t
  | .cancelled _ _ => s.Drained ↔ TransitionSystem.Respects SeesAll t

theorem seesAll_of_ne {l : ServiceAct} (h : l ≠ .shutdown) : s.SeesAll l :=
  fun hl => absurd hl h

/-- A step that does not touch the shutdown. -/
theorem Account.of_unchanged {t : List (VlmService × ServiceAct)} {l : ServiceAct}
    (h : Account t s) (hl : l ≠ .shutdown) (hphase : s'.phase = s.phase)
    (hbefore : s'.putBefore = s.putBefore) (hdown : s'.shuttingDown = s.shuttingDown)
    (haccepted : s.shuttingDown = true → s'.accepted = s.accepted)
    (hbalanced : (∀ processed timedOut, s.phase ≠ .cancelled processed timedOut) →
      s.Balanced → s'.Balanced) : Account (t ++ [(s, l)]) s' := by
  have hrespects : TransitionSystem.Respects SeesAll (t ++ [(s, l)]) ↔
      TransitionSystem.Respects SeesAll t := by
    rw [TransitionSystem.respects_snoc]
    exact and_iff_left (seesAll_of_ne hl)
  cases hp : s.phase with
  | serving =>
      simp only [Account, hphase, hp, hdown, hrespects] at h ⊢
      exact ⟨hbalanced (by simp [hp]) h.1, h.2⟩
  | draining =>
      simp only [Account, hphase, hp, hdown, hrespects, hbefore] at h ⊢
      obtain ⟨hb, hd, heq, ht⟩ := h
      exact ⟨hbalanced (by simp [hp]) hb, hd, heq.trans (haccepted hd).symm, ht⟩
  | cancelled processed timedOut =>
      simp only [Account, hphase, hp, hrespects] at h ⊢
      simpa only [Drained, hphase, hbefore] using h

theorem Account.step {t : List (VlmService × ServiceAct)} {l : ServiceAct}
    (h : Account t s) (hs : s.step p l = some s') : Account (t ++ [(s, l)]) s' := by
  cases l with
  | request item =>
      obtain ⟨hphase, hbefore, hdown, haccepted, hbalanced⟩ := step_request hs
      exact h.of_unchanged (by simp) hphase hbefore hdown haccepted fun _ => hbalanced
  | work a =>
      obtain ⟨hphase, hbefore, hdown, haccepted, hbalanced⟩ := step_work hs
      exact h.of_unchanged (by simp) hphase hbefore hdown (fun _ => haccepted) hbalanced
  | shutdown =>
      cases hp : s.phase with
      | draining => simp [VlmService.step, hp] at hs
      | cancelled processed timedOut => simp [VlmService.step, hp] at hs
      | serving =>
          simp only [Account, hp] at h
          obtain ⟨hb, -, ht⟩ := h
          by_cases hq : s.worker.queue = []
          · -- the queue is empty: the worker is cancelled at once
            simp only [VlmService.step, hp, hq, if_true, Option.some.injEq] at hs
            subst hs
            have hdrained := hb.le_processed_iff
            rw [hq, List.append_nil, Multiset.coe_le] at hdrained
            simp [Account, cancelWorker, Drained, SeesAll, ht, hq, hdrained]
          · simp only [VlmService.step, hp, hq, if_false, Option.some.injEq] at hs
            subst hs
            refine ⟨⟨hb.account, hb.done, hb.alive⟩, rfl, rfl, ?_⟩
            exact TransitionSystem.respects_snoc.mpr ⟨ht, fun _ => .inl hq⟩
  | drained =>
      cases hp : s.phase with
      | serving => simp [VlmService.step, hp] at hs
      | cancelled processed timedOut => simp [VlmService.step, hp] at hs
      | draining =>
          simp only [Account, hp] at h
          obtain ⟨hb, -, hbefore, ht⟩ := h
          simp only [VlmService.step, hp, Option.ite_none_right_eq_some, Option.some.injEq] at hs
          obtain ⟨hun, rfl⟩ := hs
          have hall := hb.nothing_held hun
          simp [Account, cancelWorker, Drained, ht, hbefore, hall, seesAll_of_ne,
            List.Subperm.refl]
  | drainTimeout =>
      cases hp : s.phase with
      | serving => simp [VlmService.step, hp] at hs
      | cancelled processed timedOut => simp [VlmService.step, hp] at hs
      | draining =>
          simp only [Account, hp] at h
          simp only [VlmService.step, hp, Option.some.injEq] at hs
          subst hs
          simp only [Account, cancelWorker, Drained, TransitionSystem.respects_snoc, h.2.2.2]
          simp [seesAll_of_ne]

end VlmService

/-- The queue is drained before the worker is cancelled in exactly the runs whose
shutdown does not find the queue empty with items still in the worker's hand. -/
theorem vlmServiceSystem.drained_iff {p : VLMProcessingPipeline} {s₀ s : VlmService}
    {t : List (VlmService × ServiceAct)} (h₀ : (vlmServiceSystem p).init s₀)
    (hrun : (vlmServiceSystem p).Run s₀ t s) :
    s.Drained ↔ TransitionSystem.Respects VlmService.SeesAll t := by
  obtain ⟨w, ⟨breaker, engine, now, rfl⟩, rfl⟩ := h₀
  have haccount : VlmService.Account t s := by
    apply hrun.invariant_history (I := VlmService.Account)
    · exact fun t s l s' h hs => h.step hs
    · exact ⟨⟨rfl, rfl, by simp⟩, rfl, TransitionSystem.respects_nil⟩
  cases hp : s.phase with
  | serving =>
      simp only [VlmService.Account, hp] at haccount
      simp [VlmService.Drained, hp, haccount.2.2]
  | draining =>
      simp only [VlmService.Account, hp] at haccount
      simp [VlmService.Drained, hp, haccount.2.2.2]
  | cancelled processed timedOut => simpa only [VlmService.Account, hp] using haccount

namespace vlmServiceSystem

/-- A model that answers. -/
def talking : VLMProcessingPipeline where
  model _ _ _ := .ok "a person at the door"
  py := VlmConfigGuide.asciiPython

def firstService : VlmService := ⟨workerSystem.firstWorker, false, .serving, [], [], []⟩

/-- One item is in the partial batch and one in the queue when the service is shut down. -/
def queuedBehindBatch : List ServiceAct :=
  [.request .anonymous, .request .anonymous, .work .get, .shutdown, .work .get,
    .work (.dispatch ⟨0, fun _ => 0, 0, none⟩), .work (.processItem (.quiet 1) {}),
    .work (.processItem (.quiet 2) {}), .drained]

theorem exec_queuedBehindBatch :
    ∃ t s, (vlmServiceSystem talking).Run firstService t s ∧
      s.phase = .cancelled [.anonymous, .anonymous] false := by
  have hview : ((vlmServiceSystem talking).execTrace firstService queuedBehindBatch).map
      (fun r => r.2.phase) = some (.cancelled [.anonymous, .anonymous] false) := by rfl
  obtain ⟨t, s, hrun, -, hphase⟩ := TransitionSystem.exists_run_of_execTrace hview
  exact ⟨t, s, hrun, hphase⟩

/-- The worker holds the only item while it waits for a second one. -/
def heldInBatch : List ServiceAct := [.request .anonymous, .work .get, .shutdown]

theorem exec_heldInBatch :
    ∃ t s, (vlmServiceSystem talking).Run firstService t s ∧
      s.phase = .cancelled [] false ∧ s.putBefore = [.anonymous] := by
  have hview : ((vlmServiceSystem talking).execTrace firstService heldInBatch).map
      (fun r => (r.2.phase, r.2.putBefore)) = some (.cancelled [] false, [.anonymous]) := rfl
  obtain ⟨t, s, hrun, -, hview⟩ := TransitionSystem.exists_run_of_execTrace hview
  exact ⟨t, s, hrun, congrArg Prod.fst hview, congrArg Prod.snd hview⟩

theorem not_drained_heldInBatch :
    ¬ ∀ (p : VLMProcessingPipeline) (s₀ s : VlmService) (t : List (VlmService × ServiceAct)),
      (vlmServiceSystem p).init s₀ → (vlmServiceSystem p).Run s₀ t s → s.Drained := by
  intro h
  obtain ⟨t, s, hrun, hphase, hbefore⟩ := exec_heldInBatch
  have hle := h _ _ _ _ ⟨_, ⟨_, _, _, rfl⟩, rfl⟩ hrun _ hphase
  rw [hbefore] at hle
  exact absurd (Multiset.card_le_card hle) (by simp)

theorem drained_iff_queuedBehindBatch :
    ∃ t s, (vlmServiceSystem talking).Run firstService t s ∧
      s.phase = .cancelled [.anonymous, .anonymous] false ∧
      (s.Drained ↔ TransitionSystem.Respects VlmService.SeesAll t) := by
  obtain ⟨t, s, hrun, hphase⟩ := exec_queuedBehindBatch
  exact ⟨t, s, hrun, hphase, drained_iff ⟨_, ⟨_, _, _, rfl⟩, rfl⟩ hrun⟩

end vlmServiceSystem
