-- SUMMARY: The worker of the vision model: batches of any size, and the engine while the breaker is open.
import NeuroPipeline.Lib.TransitionSystem
import NeuroPipeline.Central.VlmPipeline

/-!
# The worker

Model of `_worker` of vlm_pipeline.py with the queue it takes from. Nothing but
the worker uses the breaker, so what it does with one item is one step. The
deadline of a batch may come at any moment.
-/

/-- The clock while a batch is analysed, and what ends it early. -/
structure BatchEnv where
  startAt : ℚ
  /-- when the engine turns to the item at this place -/
  callAt : Nat → ℚ
  endAt : ℚ
  /-- the wait for the batch is ended while the engine works at this place -/
  interrupt : Option (Interrupt × Nat) := none

inductive WorkerPc where
  | gathering (batch : List VlmItem)
  | processing (rest : List VlmItem) (idx : Nat) (batchResults : Option (List String))
  | stopped

/-- A call of `batch_analyze`, with the breaker at that time. -/
structure BatchCall where
  items : List (List UInt8 × String)
  breaker : CircuitBreaker
  time : ℚ

structure VlmWorker where
  pc : WorkerPc
  queue : List VlmItem
  state : VlmState
  batches : List BatchCall
  now : ℚ

inductive WorkerAct where
  /-- `put_nowait` of the processor of detections -/
  | putNowait (item : VlmItem)
  | get
  | dispatch (env : BatchEnv)
  | processItem (env : ItemEnv) (faults : ItemFaults)
  /-- the worker is cancelled while it waits for items -/
  | cancel

namespace VLMProcessingPipeline

/-- The items that `batch_analyze` gets. -/
def batchItems (batch : List VlmItem) : List (List UInt8 × String) :=
  batch.map fun item => (item.frameData, item.prompt)

/-- The calls of `analyze_image` that `batch_analyze` gets to. -/
def batchAnalyzed (s : VlmState) (batch : List VlmItem) (env : BatchEnv) : List AnalyzeCall :=
  let calls := (s.engine.batchCalls (batchItems batch)).mapIdx fun i item =>
    ⟨item.1, item.2, s.breaker, env.callAt i⟩
  match env.interrupt with
  | none => calls
  | some (_, i) => calls.take (i + 1)

/-- The call of `batch_analyze`, when there is more than one item. -/
def batchCall (s : VlmState) (batch : List VlmItem) (env : BatchEnv) : List BatchCall :=
  if batch.length ≤ 1 then [] else [⟨batchItems batch, s.breaker, env.startAt⟩]

/-- The batched analysis, when there is more than one item. -/
def dispatch (p : VLMProcessingPipeline) (s : VlmState) (batch : List VlmItem) (env : BatchEnv) :
    VlmState × Ended (Option (List String)) :=
  if batch.length ≤ 1 then (s, .returned none)
  else
    let asked := { s with analyzed := s.analyzed ++ batchAnalyzed s batch env }
    match env.interrupt with
    | some (.cancelled, _) => (asked, .cancelled)
    -- a timeout or an error: one item after the other
    | some (.timedOut, _) => (asked, .returned none)
    | none =>
      match s.engine.batchAnalyze p.model s.analyzed.length (batchItems batch) with
      | .error _ => (asked, .returned none)
      | .ok texts => (asked, .returned (some texts))

end VLMProcessingPipeline

namespace VlmWorker

def queueSize : Nat := 32

/-- The times of a batch are in order. -/
def Timely (now : ℚ) (batch : List VlmItem) (env : BatchEnv) : Prop :=
  now ≤ env.startAt ∧ (∀ i < batch.length, env.startAt ≤ env.callAt i) ∧ env.startAt ≤ env.endAt

instance (now : ℚ) (batch : List VlmItem) (env : BatchEnv) : Decidable (Timely now batch env) :=
  inferInstanceAs (Decidable (_ ∧ _))

/-- After an item, the next one or a new batch. -/
def next (rest : List VlmItem) (idx : Nat) (batchResults : Option (List String)) : WorkerPc :=
  if rest.isEmpty then .gathering [] else .processing rest (idx + 1) batchResults

def step (p : VLMProcessingPipeline) (w : VlmWorker) : WorkerAct → Option VlmWorker
  | .putNowait item =>
    -- a full queue drops it
    if w.queue.length < queueSize then some { w with queue := w.queue ++ [item] } else some w
  | .get =>
    match w.pc, w.queue with
    | .gathering batch, item :: rest =>
      if batch = [] ∨ batch.length < p.batchMaxSize then
        some { w with pc := .gathering (batch ++ [item]), queue := rest }
      else none
    | _, _ => none
  | .dispatch env =>
    match w.pc with
    | .gathering batch =>
      if batch ≠ [] ∧ Timely w.now batch env then
        let w := { w with batches := w.batches ++ VLMProcessingPipeline.batchCall w.state batch env }
        match p.dispatch w.state batch env with
        | (s, .returned batchResults) =>
          some { w with pc := .processing batch 0 batchResults, state := s, now := env.endAt }
        | (s, _) => some { w with pc := .stopped, state := s, now := env.endAt }
      else none
    | _ => none
  | .processItem env faults =>
    match w.pc with
    | .processing (item :: rest) idx batchResults =>
      if w.now ≤ env.admitAt ∧ env.admitAt ≤ env.callAt ∧ env.callAt ≤ env.verdictAt then
        match p.processItem w.state item idx batchResults env faults with
        | (s, false) =>
          some { w with pc := next rest idx batchResults, state := s, now := env.verdictAt }
        | (s, true) => some { w with pc := .stopped, state := s, now := env.verdictAt }
      else none
    | _ => none
  | .cancel =>
    match w.pc with
    | .gathering _ => some { w with pc := .stopped }
    | _ => none

end VlmWorker

def workerSystem (p : VLMProcessingPipeline) : TransitionSystem VlmWorker WorkerAct where
  init w := ∃ breaker engine now, w = ⟨.gathering [], [], { breaker, engine }, [], now⟩
  step := VlmWorker.step p

/-! ## The engine and the breaker -/

namespace CircuitBreaker

/-- Open, and the recovery timeout has not elapsed since the last failure. -/
def blocking (b : CircuitBreaker) (now : ℚ) : Bool := b.state = .opened && !b.recovered now

theorem blocking_mono {b : CircuitBreaker} {now later : ℚ} (h : now ≤ later)
    (hb : b.blocking now = false) : b.blocking later = false := by
  simp only [blocking, recovered, Bool.and_eq_false_iff, decide_eq_false_iff_not,
    Bool.not_eq_false', decide_eq_true_eq] at hb ⊢
  apply hb.imp_right
  intro hr
  linarith

/-- A request that is admitted leaves the breaker closed or half-open. -/
theorem allowed_not_opened {b b' : CircuitBreaker} {now : ℚ}
    (h : b.allowRequest now = (b', true)) : b'.state ≠ .opened := by
  rcases allowRequest_cases b now with ⟨hc, ha⟩ | ⟨-, -, ha⟩ | ⟨hh, -, ha⟩ | ⟨-, ha⟩
  · obtain ⟨rfl, -⟩ := Prod.mk.inj (ha.symm.trans h)
    simp [hc]
  · obtain ⟨rfl, -⟩ := Prod.mk.inj (ha.symm.trans h)
    simp
  · obtain ⟨rfl, -⟩ := Prod.mk.inj (ha.symm.trans h)
    simp [hh]
  · cases (Prod.mk.inj (ha.symm.trans h)).2

theorem blocking_of_allowed {b b' : CircuitBreaker} {now : ℚ}
    (h : b.allowRequest now = (b', true)) (later : ℚ) : b'.blocking later = false := by
  simp [blocking, allowed_not_opened h]

end CircuitBreaker

namespace VlmState

/-- No image was analysed while the breaker was blocking. -/
def ImagesUnblocked (s : VlmState) : Prop := ∀ c ∈ s.analyzed, c.breaker.blocking c.time = false

end VlmState

/-- No call of the engine so far was made while the breaker was blocking. -/
def VlmWorker.EngineIdle (w : VlmWorker) : Prop :=
  w.state.ImagesUnblocked ∧ ∀ c ∈ w.batches, c.breaker.blocking c.time = false

instance (w : VlmWorker) : Decidable w.EngineIdle :=
  inferInstanceAs (Decidable ((∀ c ∈ w.state.analyzed, _) ∧ _))

namespace VLMProcessingPipeline

variable {p : VLMProcessingPipeline} {s : VlmState} {batch : List VlmItem} {env : BatchEnv}

theorem mem_batchAnalyzed {c : AnalyzeCall} (h : c ∈ batchAnalyzed s batch env) :
    c.breaker = s.breaker ∧ ∃ i < batch.length, c.time = env.callAt i := by
  have hall : c ∈ (s.engine.batchCalls (batchItems batch)).mapIdx fun i item =>
      (⟨item.1, item.2, s.breaker, env.callAt i⟩ : AnalyzeCall) := by
    cases hi : env.interrupt with
    | none => simpa only [batchAnalyzed, hi] using h
    | some interrupt =>
        simp only [batchAnalyzed, hi] at h
        exact List.mem_of_mem_take h
  obtain ⟨i, hi, rfl⟩ := List.mem_mapIdx.mp hall
  refine ⟨rfl, i, ?_, rfl⟩
  cases hr : (s.engine.loaded && !s.engine.useStub) with
  | true => simpa [MLXInferenceEngine.batchCalls, hr, batchItems] using hi
  | false => simp [MLXInferenceEngine.batchCalls, hr] at hi

theorem dispatch_of_single (h : batch.length ≤ 1) :
    p.dispatch s batch env = (s, .returned none) := by
  rw [dispatch, if_pos h]

/-- Whatever it ends with, the engine was asked. -/
theorem dispatch_state (h : 1 < batch.length) :
    (p.dispatch s batch env).1 = { s with analyzed := s.analyzed ++ batchAnalyzed s batch env } := by
  have hlen : ¬ batch.length ≤ 1 := by omega
  cases hi : env.interrupt with
  | some interrupt => obtain ⟨_ | _, i⟩ := interrupt <;> simp only [dispatch, hlen, hi, if_false]
  | none =>
      cases ha : s.engine.batchAnalyze p.model s.analyzed.length (batchItems batch) <;>
        simp only [dispatch, hlen, hi, ha, if_false]

theorem imagesUnblocked_dispatch {now : ℚ} (htimely : VlmWorker.Timely now batch env)
    (hstart : 1 < batch.length → s.breaker.blocking env.startAt = false)
    (h : s.ImagesUnblocked) : (p.dispatch s batch env).1.ImagesUnblocked := by
  by_cases hlen : 1 < batch.length
  · rw [dispatch_state hlen]
    intro c hc
    rcases List.mem_append.mp hc with hc | hc
    · exact h c hc
    · obtain ⟨hb, i, hi, htime⟩ := mem_batchAnalyzed hc
      rw [hb, htime]
      exact CircuitBreaker.blocking_mono (htimely.2.1 i hi) (hstart hlen)
  · rw [dispatch_of_single (by omega)]
    exact h

theorem imagesUnblocked_of_dispatch (h : (p.dispatch s batch env).1.ImagesUnblocked) :
    s.ImagesUnblocked := by
  by_cases hlen : 1 < batch.length
  · rw [dispatch_state hlen] at h
    exact fun c hc => h c (List.mem_append_left _ hc)
  · rwa [dispatch_of_single (by omega)] at h

theorem batchCall_unblocked :
    (∀ c ∈ batchCall s batch env, c.breaker.blocking c.time = false) ↔
      (1 < batch.length → s.breaker.blocking env.startAt = false) := by
  by_cases hlen : batch.length ≤ 1
  · simp [batchCall, hlen, Nat.not_lt.mpr hlen]
  · simp [batchCall, hlen, Nat.not_le.mp hlen]

/-- An item that is analysed alone is analysed when the breaker has admitted it. -/
theorem imagesUnblocked_processItem (item : VlmItem) (idx : Nat)
    (batchResults : Option (List String)) (env : ItemEnv) (faults : ItemFaults) :
    (p.processItem s item idx batchResults env faults).1.ImagesUnblocked ↔ s.ImagesUnblocked := by
  rcases hallow : s.breaker.allowRequest env.admitAt with ⟨b, allowed⟩
  cases allowed with
  | false =>
      rw [processItem_of_refused hallow]
      exact Iff.rfl
  | true =>
      have hadds := p.processItem_adds item idx batchResults faults hallow
      rw [VlmState.ImagesUnblocked, hadds.analyzed]
      constructor
      · exact fun h c hc => h c (List.mem_append_left _ hc)
      · intro h c hc
        rcases List.mem_append.mp hc with hc | hc
        · exact h c hc
        · have hbreaker : c.breaker = b := by
            cases hb : faults.buildPrompt <;> cases hr : batchResult idx batchResults <;>
              simp_all [newCalls]
          rw [hbreaker]
          exact CircuitBreaker.blocking_of_allowed hallow _

end VLMProcessingPipeline

namespace VlmWorker

/-- A batch of more than one item is sent to the engine while the breaker blocks. -/
def dispatchesBlocked (w : VlmWorker) : WorkerAct → Bool
  | .dispatch env =>
    match w.pc with
    | .gathering batch => 1 < batch.length && w.state.breaker.blocking env.startAt
    | _ => false
  | _ => false

section

variable {p : VLMProcessingPipeline} {w w' : VlmWorker}

theorem step_get (hs : w.step p .get = some w') :
    ∃ batch item rest, w.pc = .gathering batch ∧ w.queue = item :: rest ∧
      w' = { w with pc := .gathering (batch ++ [item]), queue := rest } := by
  cases hpc : w.pc with
  | gathering batch =>
      cases hq : w.queue with
      | nil => simp [step, hpc, hq] at hs
      | cons item rest =>
          simp only [step, hpc, hq, Option.ite_none_right_eq_some, Option.some.injEq] at hs
          exact ⟨batch, item, rest, rfl, rfl, hs.2.symm⟩
  | processing rest idx batchResults => simp [step, hpc] at hs
  | stopped => simp [step, hpc] at hs

theorem step_dispatch {env : BatchEnv} (hs : w.step p (.dispatch env) = some w') :
    ∃ batch, w.pc = .gathering batch ∧ Timely w.now batch env ∧
      w'.state = (p.dispatch w.state batch env).1 ∧
      w'.batches = w.batches ++ VLMProcessingPipeline.batchCall w.state batch env ∧
      w'.queue = w.queue ∧
      (w'.pc = .stopped ∨ ∃ batchResults, w'.pc = .processing batch 0 batchResults) := by
  cases hpc : w.pc with
  | gathering batch =>
      simp only [step, hpc, Option.ite_none_right_eq_some] at hs
      obtain ⟨⟨-, htimely⟩, hs⟩ := hs
      refine ⟨batch, rfl, htimely, ?_⟩
      rcases hd : p.dispatch w.state batch env with ⟨s, ended⟩
      rw [hd] at hs
      cases ended <;> simp only [Option.some.injEq] at hs <;> simp [← hs]
  | processing rest idx batchResults => simp [step, hpc] at hs
  | stopped => simp [step, hpc] at hs

theorem step_processItem {env : ItemEnv} {faults : ItemFaults}
    (hs : w.step p (.processItem env faults) = some w') :
    ∃ item rest idx batchResults, w.pc = .processing (item :: rest) idx batchResults ∧
      w'.state = (p.processItem w.state item idx batchResults env faults).1 ∧
      w'.batches = w.batches ∧ w'.queue = w.queue ∧
      (w'.pc = .stopped ∨ w'.pc = next rest idx batchResults) := by
  cases hpc : w.pc with
  | gathering batch => simp [step, hpc] at hs
  | stopped => simp [step, hpc] at hs
  | processing items idx batchResults =>
      cases items with
      | nil => simp [step, hpc] at hs
      | cons item rest =>
          simp only [step, hpc, Option.ite_none_right_eq_some] at hs
          obtain ⟨-, hs⟩ := hs
          refine ⟨item, rest, idx, batchResults, rfl, ?_⟩
          rcases hd : p.processItem w.state item idx batchResults env faults with ⟨s, cancelled⟩
          rw [hd] at hs
          cases cancelled <;> simp only [Option.some.injEq] at hs <;> simp [← hs]

theorem step_cancel (hs : w.step p .cancel = some w') : w' = { w with pc := .stopped } := by
  cases hpc : w.pc with
  | gathering batch =>
      simp only [step, hpc, Option.some.injEq] at hs
      exact hs.symm
  | processing rest idx batchResults => simp [step, hpc] at hs
  | stopped => simp [step, hpc] at hs

/-- Waiting for items, the worker leaves the engine alone. -/
theorem step_waiting {l : WorkerAct} (hs : w.step p l = some w') (hd : ∀ env, l ≠ .dispatch env)
    (hp : ∀ env faults, l ≠ .processItem env faults) :
    w'.state = w.state ∧ w'.batches = w.batches := by
  cases l with
  | putNowait item =>
      by_cases hq : w.queue.length < queueSize
      · simp only [step, hq, if_true, Option.some.injEq] at hs
        simp [← hs]
      · simp only [step, hq, if_false, Option.some.injEq] at hs
        simp [← hs]
  | get =>
      obtain ⟨batch, item, rest, -, -, rfl⟩ := step_get hs
      exact ⟨rfl, rfl⟩
  | dispatch env => exact absurd rfl (hd env)
  | processItem env faults => exact absurd rfl (hp env faults)
  | cancel =>
      obtain rfl := step_cancel hs
      exact ⟨rfl, rfl⟩

theorem step_engineIdle {l : WorkerAct} (hs : w.step p l = some w') :
    w'.EngineIdle ↔ w.EngineIdle ∧ w.dispatchesBlocked l = false := by
  have hwaiting : (∀ env, l ≠ .dispatch env) → (∀ env faults, l ≠ .processItem env faults) →
      w.dispatchesBlocked l = false →
      (w'.EngineIdle ↔ w.EngineIdle ∧ w.dispatchesBlocked l = false) := by
    intro hd hp hblocked
    obtain ⟨hstate, hbatches⟩ := step_waiting hs hd hp
    simp [EngineIdle, hstate, hbatches, hblocked]
  cases l with
  | putNowait item => exact hwaiting (by simp) (by simp) rfl
  | get => exact hwaiting (by simp) (by simp) rfl
  | cancel => exact hwaiting (by simp) (by simp) rfl
  | processItem env faults =>
      obtain ⟨item, rest, idx, batchResults, -, hstate, hbatches, -⟩ := step_processItem hs
      rw [EngineIdle, hstate, hbatches, VLMProcessingPipeline.imagesUnblocked_processItem]
      simp [EngineIdle, dispatchesBlocked]
  | dispatch env =>
      obtain ⟨batch, hpc, htimely, hstate, hbatches, -⟩ := step_dispatch hs
      have hblocked : w.dispatchesBlocked (.dispatch env) = false ↔
          (1 < batch.length → w.state.breaker.blocking env.startAt = false) := by
        simp [dispatchesBlocked, hpc]
      rw [EngineIdle, EngineIdle, hstate, hbatches, hblocked, List.forall_mem_append,
        VLMProcessingPipeline.batchCall_unblocked]
      constructor
      · rintro ⟨himages, hbatches, hstart⟩
        exact ⟨⟨VLMProcessingPipeline.imagesUnblocked_of_dispatch himages, hbatches⟩, hstart⟩
      · rintro ⟨⟨himages, hbatches⟩, hstart⟩
        exact ⟨VLMProcessingPipeline.imagesUnblocked_dispatch htimely hstart himages, hbatches,
          hstart⟩

end

end VlmWorker

/-- The engine is idle while the breaker blocks in exactly the runs that start no
batch at such a time. -/
theorem workerSystem.engineIdle_iff {p : VLMProcessingPipeline} {w₀ w : VlmWorker}
    {t : List (VlmWorker × WorkerAct)} (h₀ : (workerSystem p).init w₀)
    (hrun : (workerSystem p).Run w₀ t w) :
    w.EngineIdle ↔
      TransitionSystem.Respects (fun w l => w.dispatchesBlocked l = false) t := by
  obtain ⟨breaker, engine, now, rfl⟩ := h₀
  induction hrun with
  | nil => simp [VlmWorker.EngineIdle, VlmState.ImagesUnblocked]
  | snoc _ hs ih => rw [TransitionSystem.respects_snoc, VlmWorker.step_engineIdle hs, ih]

namespace workerSystem

/-- A model that is out of memory. -/
def outOfMemory : VLMProcessingPipeline where
  model _ _ _ := .error "out of memory"
  py := VlmConfigGuide.asciiPython

/-- A fresh breaker that opens at the first failure. -/
def firstWorker : VlmWorker :=
  ⟨.gathering [], [], { breaker := { failureThreshold := 1 }, engine := ⟨true, false, []⟩ }, [], 0⟩

/-- The first item fails alone, and two more come in before the timeout has elapsed. -/
def batchWhileOpen : List WorkerAct :=
  [.putNowait .anonymous, .get, .dispatch ⟨0, fun _ => 0, 0, none⟩,
    .processItem (.quiet 1) {}, .putNowait .anonymous, .putNowait .anonymous, .get, .get,
    .dispatch ⟨2, fun _ => 2, 3, none⟩]

theorem exec_batchWhileOpen :
    ∃ t w, (workerSystem outOfMemory).Run firstWorker t w ∧ ¬ w.EngineIdle := by
  have hview : ((workerSystem outOfMemory).execTrace firstWorker batchWhileOpen).map
      (fun r => decide r.2.EngineIdle) = some false := by decide +kernel
  obtain ⟨t, w, hrun, -, hidle⟩ := TransitionSystem.exists_run_of_execTrace hview
  exact ⟨t, w, hrun, of_decide_eq_false hidle⟩

theorem not_engineIdle_batchWhileOpen :
    ¬ ∀ (p : VLMProcessingPipeline) (w₀ w : VlmWorker) (t : List (VlmWorker × WorkerAct)),
      (workerSystem p).init w₀ → (workerSystem p).Run w₀ t w → w.EngineIdle := by
  intro h
  obtain ⟨t, w, hrun, hbusy⟩ := exec_batchWhileOpen
  exact hbusy (h _ _ _ _ ⟨_, _, _, rfl⟩ hrun)

theorem engineIdle_iff_batchWhileOpen :
    ∃ t w, (workerSystem outOfMemory).Run firstWorker t w ∧
      (w.EngineIdle ↔
        TransitionSystem.Respects (fun w l => w.dispatchesBlocked l = false) t) := by
  obtain ⟨t, w, hrun, -⟩ := exec_batchWhileOpen
  exact ⟨t, w, hrun, engineIdle_iff ⟨_, _, _, rfl⟩ hrun⟩

end workerSystem
