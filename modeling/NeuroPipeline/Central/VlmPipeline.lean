-- SUMMARY: The processing of one request to the vision model, with every step that can raise or be cancelled, and its verdict for the breaker.
import NeuroPipeline.Central.CircuitBreaker
import NeuroPipeline.Central.InferenceEngine
import NeuroPipeline.Central.VlmConfigGuide

/-!
# Processing of requests

Model of `_process_item` of vlm_pipeline.py. What the surroundings do while an
item is processed, the clock, what the retriever finds, and what raises or is
cancelled, comes with the item. Metrics and log messages are left out.
-/

/-! ## Items -/

structure DetectionDict where
  className : String
  confidence : Binary64
  xMin : Binary64
  yMin : Binary64
  xMax : Binary64
  yMax : Binary64
  deriving DecidableEq

structure VlmItem where
  frameData : List UInt8
  prompt : String
  frameId : Nat
  traceId : String
  deviceId : String
  detections : List DetectionDict
  rule : String
  deriving DecidableEq

/-- An item of a device that does not say which it is. -/
def VlmItem.anonymous : VlmItem := ⟨[255], "describe", 1, "t-1", "", [], "person"⟩

/-- The clock and the retriever while an item is processed. -/
structure ItemEnv where
  admitAt : ℚ
  callAt : ℚ
  verdictAt : ℚ
  /-- `time.time()` -/
  publishedAt : ℚ
  /-- the context for a device and the classes seen, if there is any -/
  retrieve : String → List String → Except String (Option String)

/-- Everything at once, and nothing to retrieve. -/
def ItemEnv.quiet (now : ℚ) : ItemEnv := ⟨now, now, now, now, fun _ _ => .ok none⟩

/-- What ends a wait for the engine before it answers. -/
inductive Interrupt where
  | timedOut
  | cancelled
  deriving DecidableEq

inductive UploadFault where
  | raised
  | cancelled
  deriving DecidableEq

/-- What goes wrong while an item is processed. An error has its text. -/
structure ItemFaults where
  buildPrompt : Option String := none
  analyzeImage : Option Interrupt := none
  addTurn : Option String := none
  publish : Option String := none
  uploadFrame : Option UploadFault := none
  /-- the number of commands that were sent before it raised -/
  guidance : Option Nat := none
  deriving DecidableEq

/-- How a piece of code ended. -/
inductive Ended (α : Type) where
  | returned (value : α)
  | raised (error : String)
  | cancelled

/-! ## State -/

inductive Verdict where
  | success
  | failure
  deriving DecidableEq

/-- A call of `analyze_image`, with the breaker at that time. -/
structure AnalyzeCall where
  frameData : List UInt8
  prompt : String
  breaker : CircuitBreaker
  time : ℚ
  deriving DecidableEq

structure VlmAnalysis where
  frameId : Nat
  traceId : String
  deviceId : String
  detections : List DetectionDict
  vlmResult : String
  rule : String
  timestamp : ℚ
  deriving DecidableEq

/-- The event about an item. -/
def VlmItem.analysis (item : VlmItem) (vlmResult : String) (timestamp : ℚ) : VlmAnalysis where
  frameId := item.frameId
  traceId := item.traceId
  deviceId := item.deviceId
  detections := item.detections
  vlmResult := firstChars 200 vlmResult
  rule := item.rule
  timestamp := timestamp

structure Upload where
  deviceId : String
  frameId : Nat
  frameData : List UInt8
  vlmResult : String
  rule : String
  deriving DecidableEq

structure VlmState where
  breaker : CircuitBreaker := {}
  engine : MLXInferenceEngine := {}
  analyzed : List AnalyzeCall := []
  verdicts : List Verdict := []
  published : List VlmAnalysis := []
  uploads : List Upload := []
  /-- the errors of the `circuit_breaker_open` alerts -/
  alerts : List String := []
  commandQueue : List ControlCommand := []
  commandIdCounter : Nat := 0
  tasksDone : Nat := 0

namespace VlmState

def recordSuccess (s : VlmState) : VlmState :=
  { s with breaker := s.breaker.recordSuccess, verdicts := s.verdicts ++ [.success] }

def recordFailure (s : VlmState) (now : ℚ) : VlmState :=
  { s with breaker := s.breaker.recordFailure now, verdicts := s.verdicts ++ [.failure] }

/-- The question and the answer become turns of the device's conversation. -/
def recordTurns (s : VlmState) (item : VlmItem) (vlmResult : String) : VlmState :=
  if item.deviceId = "" then s
  else
    let (engine, ctx) := s.engine.getConversation item.deviceId
    let ctx := (ctx.addTurn "user" item.prompt).addTurn "assistant" (firstChars 200 vlmResult)
    { s with engine := engine.setConversation item.deviceId ctx }

def publish (s : VlmState) (item : VlmItem) (vlmResult : String) (timestamp : ℚ) : VlmState :=
  { s with published := s.published ++ [item.analysis vlmResult timestamp] }

def uploadFrame (s : VlmState) (item : VlmItem) (vlmResult : String) : VlmState :=
  let deviceId := if item.deviceId = "" then "unknown" else item.deviceId
  { s with
    uploads := s.uploads ++
      [⟨deviceId, item.frameId, item.frameData, firstChars 100 vlmResult, item.rule⟩] }

def taskDone (s : VlmState) : VlmState := { s with tasksDone := s.tasksDone + 1 }

end VlmState

/-! ## The steps of one item -/

structure VLMProcessingPipeline where
  model : ModelCalls
  py : Python
  vlmConfigGuide : Option VlmConfigGuide := none
  alertManager : Bool := false
  cloudStorage : Bool := false
  ragRetriever : Bool := false
  batchMaxSize : Int := 8

namespace VLMProcessingPipeline

variable (p : VLMProcessingPipeline) (s : VlmState) (item : VlmItem) (idx : Nat)
  (batchResults : Option (List String)) (env : ItemEnv) (faults : ItemFaults)

/-- The prompt with the historical context, when there is one. -/
def withContext : String :=
  if p.ragRetriever && item.deviceId != "" then
    match env.retrieve item.deviceId (item.detections.map DetectionDict.className) with
    | .ok (some text) => item.prompt ++ "\n\nHistorical context:\n" ++ text
    | .ok none | .error _ => item.prompt
  else item.prompt

/-- The prompt in the conversation of the device. -/
def builtPrompt : MLXInferenceEngine × String :=
  if item.deviceId = "" then (s.engine, p.withContext item env)
  else
    let (engine, ctx) := s.engine.getConversation item.deviceId
    (engine, ctx.buildPrompt (p.withContext item env))

/-- What the engine answers when the item is analysed alone. -/
def engineAnswer : Except String String :=
  s.engine.analyzeImage p.model s.analyzed.length item.frameData (p.builtPrompt s item env).2

/-- `wait_for` on the engine. -/
def waitFor (answer : Except String String) : Ended String :=
  match faults.analyzeImage with
  | some .timedOut => .raised ""
  | some .cancelled => .cancelled
  | none =>
    match answer with
    | .ok text => .returned text
    | .error e => .raised e

def callEngine (prompt : String) : VlmState × Ended String :=
  ({ s with analyzed := s.analyzed ++ [⟨item.frameData, prompt, s.breaker, env.callAt⟩] },
    waitFor faults (s.engine.analyzeImage p.model s.analyzed.length item.frameData prompt))

/-- The text of the batch for this item. -/
def batchResult : Option String := batchResults.bind (·[idx]?)

/-- Up to the text about the image. -/
def analyse : VlmState × Ended String :=
  match faults.buildPrompt with
  | some e => (s, .raised e)
  | none =>
    let (engine, prompt) := p.builtPrompt s item env
    match batchResult idx batchResults with
    | some text => ({ s with engine }, .returned text)
    | none => p.callEngine { s with engine } item env faults prompt

/-- `_apply_vlm_guidance`; what it raises stays inside. -/
def applyGuidance (vlmResult : String) : VlmState :=
  match p.vlmConfigGuide with
  | none => s
  | some guide =>
    if item.deviceId = "" then s
    else
      let commands :=
        (guide.applyVlmGuidance p.py s.commandIdCounter vlmResult item.deviceId).map Prod.snd
      match faults.guidance with
      | none =>
        { s with
          commandQueue := s.commandQueue ++ commands
          commandIdCounter := s.commandIdCounter + commands.length }
      | some sent =>
        -- the counter was raised for the command that did not get through
        { s with
          commandQueue := s.commandQueue ++ commands.take sent
          commandIdCounter := s.commandIdCounter + (commands.take (sent + 1)).length }

/-- From the upload on. -/
def afterPublish (vlmResult : String) : VlmState × Ended Unit :=
  if p.cloudStorage && !item.frameData.isEmpty then
    match faults.uploadFrame with
    | some .cancelled => (s, .cancelled)
    | some .raised => (p.applyGuidance s item faults vlmResult, .returned ())
    | none => (p.applyGuidance (s.uploadFrame item vlmResult) item faults vlmResult, .returned ())
  else (p.applyGuidance s item faults vlmResult, .returned ())

/-- From the text on. -/
def afterAnalysis (vlmResult : String) : VlmState × Ended Unit :=
  match faults.addTurn with
  | some e => (s, .raised e)
  | none =>
    let s := (s.recordTurns item vlmResult).recordSuccess
    match faults.publish with
    | some e => (s, .raised e)
    | none => p.afterPublish (s.publish item vlmResult env.publishedAt) item faults vlmResult

/-- The `try` block. -/
def tryItem : VlmState × Ended Unit :=
  match p.analyse s item idx batchResults env faults with
  | (s, .returned vlmResult) => p.afterAnalysis s item env faults vlmResult
  | (s, .raised e) => (s, .raised e)
  | (s, .cancelled) => (s, .cancelled)

/-- The handler of every exception but a cancellation. -/
def handleError (e : String) : VlmState :=
  let s := s.recordFailure env.verdictAt
  if s.breaker.state = .opened && p.alertManager then { s with alerts := s.alerts ++ [e] } else s

/-- The state after the `try` statement, and whether the worker is cancelled in it. -/
def finish : VlmState × Ended Unit → VlmState × Bool
  | (s, .returned ()) => (s.taskDone, false)
  | (s, .raised e) => ((p.handleError s env e).taskDone, false)
  | (s, .cancelled) => (s.taskDone, true)

def processItem : VlmState × Bool :=
  match s.breaker.allowRequest env.admitAt with
  | (breaker, false) => ({ s with breaker }.taskDone, false)
  | (breaker, true) =>
    p.finish env (p.tryItem { s with breaker } item idx batchResults env faults)

end VLMProcessingPipeline

/-! ## What one item adds -/

namespace CircuitBreaker

def record (now : ℚ) (b : CircuitBreaker) : Verdict → CircuitBreaker
  | .success => b.recordSuccess
  | .failure => b.recordFailure now

end CircuitBreaker

namespace VlmState

/-- `s'` is `s` with these calls, verdicts and analyses, and this breaker. The rest
of what it has is not looked at. -/
structure Adds (s s' : VlmState) (breaker : CircuitBreaker) (calls : List AnalyzeCall)
    (verdicts : List Verdict) (analyses : List VlmAnalysis) : Prop where
  breaker : s'.breaker = breaker
  loaded : s'.engine.loaded = s.engine.loaded
  useStub : s'.engine.useStub = s.engine.useStub
  analyzed : s'.analyzed = s.analyzed ++ calls
  verdicts : s'.verdicts = s.verdicts ++ verdicts
  published : s'.published = s.published ++ analyses

variable {s s' s'' : VlmState} {b b' : CircuitBreaker} {calls calls' : List AnalyzeCall}
  {verdicts verdicts' : List Verdict} {analyses analyses' : List VlmAnalysis}

theorem Adds.refl (s : VlmState) : s.Adds s s.breaker [] [] [] :=
  ⟨rfl, rfl, rfl, by simp, by simp, by simp⟩

theorem Adds.trans (h : s.Adds s' b calls verdicts analyses)
    (h' : s'.Adds s'' b' calls' verdicts' analyses') :
    s.Adds s'' b' (calls ++ calls') (verdicts ++ verdicts') (analyses ++ analyses') where
  breaker := h'.breaker
  loaded := h'.loaded.trans h.loaded
  useStub := h'.useStub.trans h.useStub
  analyzed := by rw [h'.analyzed, h.analyzed, List.append_assoc]
  verdicts := by rw [h'.verdicts, h.verdicts, List.append_assoc]
  published := by rw [h'.published, h.published, List.append_assoc]

theorem adds_recordSuccess (s : VlmState) :
    s.Adds s.recordSuccess s.breaker.recordSuccess [] [.success] [] :=
  ⟨rfl, rfl, rfl, by simp [recordSuccess], rfl, by simp [recordSuccess]⟩

theorem adds_recordFailure (s : VlmState) (now : ℚ) :
    s.Adds (s.recordFailure now) (s.breaker.recordFailure now) [] [.failure] [] :=
  ⟨rfl, rfl, rfl, by simp [recordFailure], rfl, by simp [recordFailure]⟩

end VlmState

namespace MLXInferenceEngine

theorem getConversation_loaded (e : MLXInferenceEngine) (deviceId : String) :
    (e.getConversation deviceId).1.loaded = e.loaded := by
  cases h : e.conversations.lookup deviceId <;> simp [getConversation, h]

theorem getConversation_useStub (e : MLXInferenceEngine) (deviceId : String) :
    (e.getConversation deviceId).1.useStub = e.useStub := by
  cases h : e.conversations.lookup deviceId <;> simp [getConversation, h]

end MLXInferenceEngine

namespace VlmState

theorem adds_recordTurns (s : VlmState) (item : VlmItem) (vlmResult : String) :
    s.Adds (s.recordTurns item vlmResult) s.breaker [] [] [] := by
  by_cases h : item.deviceId = ""
  · rw [recordTurns, if_pos h]
    exact .refl s
  · rw [recordTurns, if_neg h]
    constructor
    · rfl
    · exact s.engine.getConversation_loaded item.deviceId
    · exact s.engine.getConversation_useStub item.deviceId
    · exact (List.append_nil _).symm
    · exact (List.append_nil _).symm
    · exact (List.append_nil _).symm

end VlmState

namespace VLMProcessingPipeline

variable {p : VLMProcessingPipeline} {s : VlmState} {item : VlmItem} {idx : Nat}
  {batchResults : Option (List String)} {env : ItemEnv} {faults : ItemFaults}

theorem builtPrompt_loaded : (p.builtPrompt s item env).1.loaded = s.engine.loaded := by
  by_cases h : item.deviceId = "" <;>
    simp [builtPrompt, h, MLXInferenceEngine.getConversation_loaded]

theorem builtPrompt_useStub : (p.builtPrompt s item env).1.useStub = s.engine.useStub := by
  by_cases h : item.deviceId = "" <;>
    simp [builtPrompt, h, MLXInferenceEngine.getConversation_useStub]

theorem adds_applyGuidance (vlmResult : String) :
    s.Adds (p.applyGuidance s item faults vlmResult) s.breaker [] [] [] := by
  have h : ∀ queue counter, s.Adds { s with commandQueue := queue, commandIdCounter := counter }
      s.breaker [] [] [] := fun _ _ => ⟨rfl, rfl, rfl, by simp, by simp, by simp⟩
  cases hguide : p.vlmConfigGuide with
  | none => simpa only [applyGuidance, hguide] using VlmState.Adds.refl s
  | some guide =>
      by_cases hd : item.deviceId = ""
      · simpa only [applyGuidance, hguide, hd, if_true] using VlmState.Adds.refl s
      · cases hf : faults.guidance with
        | none => simpa only [applyGuidance, hguide, hd, hf, if_false] using h _ _
        | some sent => simpa only [applyGuidance, hguide, hd, hf, if_false] using h _ _

/-- After the publication nothing is counted, and nothing is raised. -/
theorem afterPublish_adds (p : VLMProcessingPipeline) (s : VlmState) (item : VlmItem)
    (faults : ItemFaults) (vlmResult : String) :
    s.Adds (p.afterPublish s item faults vlmResult).1 s.breaker [] [] [] ∧
    ∀ e, (p.afterPublish s item faults vlmResult).2 ≠ .raised e := by
  by_cases hc : (p.cloudStorage && !item.frameData.isEmpty) = true
  · cases hf : faults.uploadFrame with
    | none =>
        simp only [afterPublish, hc, hf, if_true]
        have hup : s.Adds (s.uploadFrame item vlmResult) s.breaker [] [] [] :=
          ⟨rfl, rfl, rfl, by simp [VlmState.uploadFrame], by simp [VlmState.uploadFrame],
            by simp [VlmState.uploadFrame]⟩
        exact ⟨hup.trans (adds_applyGuidance vlmResult), by simp⟩
    | some fault =>
        cases fault with
        | raised =>
            simp only [afterPublish, hc, hf, if_true]
            exact ⟨adds_applyGuidance vlmResult, by simp⟩
        | cancelled =>
            simp only [afterPublish, hc, hf, if_true]
            exact ⟨.refl s, by simp⟩
  · simp only [afterPublish, hc]
    exact ⟨adds_applyGuidance vlmResult, by simp⟩

section

variable (p s item idx batchResults env faults)

/-- How the analysis ends. -/
def analysisEnd : Ended String :=
  match faults.buildPrompt with
  | some e => .raised e
  | none =>
    match batchResult idx batchResults with
    | some text => .returned text
    | none => waitFor faults (p.engineAnswer s item env)

def newCalls (breaker : CircuitBreaker) : List AnalyzeCall :=
  match faults.buildPrompt, batchResult idx batchResults with
  | none, none => [⟨item.frameData, (p.builtPrompt s item env).2, breaker, env.callAt⟩]
  | _, _ => []

end

section

variable (item env faults)

def itemVerdicts : Ended String → List Verdict
  | .cancelled => []
  | .raised _ => [.failure]
  | .returned _ =>
    match faults.addTurn, faults.publish with
    | some _, _ => [.failure]
    -- the handler of the publication's error records a second time
    | none, some _ => [.success, .failure]
    | none, none => [.success]

def newAnalyses : Ended String → List VlmAnalysis
  | .returned vlmResult =>
    match faults.addTurn, faults.publish with
    | none, none => [item.analysis vlmResult env.publishedAt]
    | _, _ => []
  | .raised _ | .cancelled => []

end

theorem analyse_adds (p : VLMProcessingPipeline) (s : VlmState) (item : VlmItem) (idx : Nat)
    (batchResults : Option (List String)) (env : ItemEnv) (faults : ItemFaults) :
    s.Adds (p.analyse s item idx batchResults env faults).1 s.breaker
      (p.newCalls s item idx batchResults env faults s.breaker) [] [] ∧
    (p.analyse s item idx batchResults env faults).2 =
      p.analysisEnd s item idx batchResults env faults := by
  cases hb : faults.buildPrompt with
  | some e =>
      simp only [analyse, newCalls, analysisEnd, hb]
      exact ⟨.refl s, trivial⟩
  | none =>
      cases hr : batchResult idx batchResults with
      | some text =>
          simp only [analyse, newCalls, analysisEnd, hb, hr]
          refine ⟨⟨rfl, builtPrompt_loaded, builtPrompt_useStub, ?_, ?_, ?_⟩, trivial⟩ <;> simp
      | none =>
          simp only [analyse, newCalls, analysisEnd, callEngine, engineAnswer, hb, hr]
          refine ⟨⟨rfl, builtPrompt_loaded, builtPrompt_useStub, rfl, ?_, ?_⟩, ?_⟩
          · simp
          · simp
          · simp only [MLXInferenceEngine.analyzeImage, builtPrompt_loaded, builtPrompt_useStub]

theorem handleError_adds (p : VLMProcessingPipeline) (s : VlmState) (env : ItemEnv) (e : String) :
    s.Adds (p.handleError s env e) (s.breaker.recordFailure env.verdictAt) [] [.failure] [] := by
  have h := s.adds_recordFailure env.verdictAt
  by_cases ha : ((s.recordFailure env.verdictAt).breaker.state = .opened && p.alertManager) = true
  · simp only [handleError, ha, if_true]
    exact ⟨h.breaker, h.loaded, h.useStub, h.analyzed, h.verdicts, h.published⟩
  · simp only [handleError, ha]
    exact h

theorem afterAnalysis_of_addTurn {e : String} (h : faults.addTurn = some e) (vlmResult : String) :
    p.afterAnalysis s item env faults vlmResult = (s, .raised e) := by
  simp only [afterAnalysis, h]

theorem afterAnalysis_of_publish {e : String} (ht : faults.addTurn = none)
    (hp : faults.publish = some e) (vlmResult : String) :
    p.afterAnalysis s item env faults vlmResult =
      ((s.recordTurns item vlmResult).recordSuccess, .raised e) := by
  simp only [afterAnalysis, ht, hp]

theorem adds_recordSuccess_recordTurns (s : VlmState) (item : VlmItem) (vlmResult : String) :
    s.Adds (s.recordTurns item vlmResult).recordSuccess s.breaker.recordSuccess [] [.success]
      [] := by
  have hturns := s.adds_recordTurns item vlmResult
  have h := hturns.trans (s.recordTurns item vlmResult).adds_recordSuccess
  rw [hturns.breaker] at h
  exact h

/-- When nothing goes wrong before the upload. -/
theorem afterAnalysis_adds (p : VLMProcessingPipeline) (s : VlmState) (item : VlmItem)
    (env : ItemEnv) (ht : faults.addTurn = none) (hp : faults.publish = none)
    (vlmResult : String) :
    s.Adds (p.afterAnalysis s item env faults vlmResult).1 s.breaker.recordSuccess [] [.success]
      [item.analysis vlmResult env.publishedAt] ∧
    ∀ e, (p.afterAnalysis s item env faults vlmResult).2 ≠ .raised e := by
  simp only [afterAnalysis, ht, hp]
  have hsuccess : s.Adds (s.recordTurns item vlmResult).recordSuccess _ [] [.success] [] :=
    adds_recordSuccess_recordTurns s item vlmResult
  generalize (s.recordTurns item vlmResult).recordSuccess = s₁ at hsuccess
  have hpublish : s₁.Adds (s₁.publish item vlmResult env.publishedAt) s₁.breaker [] []
      [item.analysis vlmResult env.publishedAt] :=
    ⟨rfl, rfl, rfl, by simp [VlmState.publish], by simp [VlmState.publish], rfl⟩
  obtain ⟨hafter, hend⟩ :=
    p.afterPublish_adds (s₁.publish item vlmResult env.publishedAt) item faults vlmResult
  have h := (hsuccess.trans hpublish).trans hafter
  rw [hpublish.breaker, hsuccess.breaker] at h
  exact ⟨h, hend⟩

theorem finish_adds_of_raised {s' : VlmState} {e : String} {b : CircuitBreaker}
    {calls : List AnalyzeCall} {verdicts : List Verdict} {analyses : List VlmAnalysis}
    (h : s.Adds s' b calls verdicts analyses) :
    s.Adds (p.finish env (s', .raised e)).1 (b.recordFailure env.verdictAt) calls
      (verdicts ++ [.failure]) analyses := by
  have herror := h.trans (p.handleError_adds s' env e)
  rw [h.breaker, List.append_nil, List.append_nil] at herror
  exact ⟨herror.breaker, herror.loaded, herror.useStub, herror.analyzed,
    herror.verdicts, herror.published⟩

theorem finish_adds_of_not_raised {r : VlmState × Ended Unit} {b : CircuitBreaker}
    {calls : List AnalyzeCall} {verdicts : List Verdict} {analyses : List VlmAnalysis}
    (h : s.Adds r.1 b calls verdicts analyses) (hend : ∀ e, r.2 ≠ .raised e) :
    s.Adds (p.finish env r).1 b calls verdicts analyses := by
  obtain ⟨s', ended⟩ := r
  cases ended with
  | returned _ =>
      exact ⟨h.breaker, h.loaded, h.useStub, h.analyzed, h.verdicts, h.published⟩
  | raised e => exact absurd rfl (hend e)
  | cancelled =>
      exact ⟨h.breaker, h.loaded, h.useStub, h.analyzed, h.verdicts, h.published⟩

theorem processItem_of_refused {b : CircuitBreaker}
    (h : s.breaker.allowRequest env.admitAt = (b, false)) :
    p.processItem s item idx batchResults env faults =
      (({ s with breaker := b } : VlmState).taskDone, false) := by
  simp only [processItem, h]

/-- What an item adds that the breaker has admitted. -/
theorem processItem_adds (p : VLMProcessingPipeline) (item : VlmItem) (idx : Nat)
    (batchResults : Option (List String)) (faults : ItemFaults) {b : CircuitBreaker}
    (h : s.breaker.allowRequest env.admitAt = (b, true)) :
    s.Adds (p.processItem s item idx batchResults env faults).1
      ((itemVerdicts faults (p.analysisEnd s item idx batchResults env faults)).foldl
        (CircuitBreaker.record env.verdictAt) b)
      (p.newCalls s item idx batchResults env faults b)
      (itemVerdicts faults (p.analysisEnd s item idx batchResults env faults))
      (newAnalyses item env faults (p.analysisEnd s item idx batchResults env faults)) := by
  have hadmitted : s.Adds { s with breaker := b } b [] [] [] :=
    ⟨rfl, rfl, rfl, by simp, by simp, by simp⟩
  obtain ⟨hanalyse, hend⟩ :=
    p.analyse_adds { s with breaker := b } item idx batchResults env faults
  have hfirst : s.Adds (p.analyse { s with breaker := b } item idx batchResults env faults).1 b
      (p.newCalls s item idx batchResults env faults b) [] [] := hadmitted.trans hanalyse
  have hsame : (p.analyse { s with breaker := b } item idx batchResults env faults).2 =
      p.analysisEnd s item idx batchResults env faults := hend
  simp only [processItem, h, tryItem]
  rw [← hsame]
  generalize p.analyse { s with breaker := b } item idx batchResults env faults = r at hfirst
  obtain ⟨s₁, ended⟩ := r
  cases ended with
  | cancelled => exact finish_adds_of_not_raised hfirst (by simp)
  | raised e => exact finish_adds_of_raised hfirst
  | returned vlmResult =>
      cases ht : faults.addTurn with
      | some e =>
          simp only [afterAnalysis_of_addTurn ht, itemVerdicts, newAnalyses, ht]
          exact finish_adds_of_raised hfirst
      | none =>
          cases hp : faults.publish with
          | some e =>
              simp only [afterAnalysis_of_publish ht hp, itemVerdicts, newAnalyses, ht, hp]
              have hsuccess := hfirst.trans (adds_recordSuccess_recordTurns s₁ item vlmResult)
              rw [hfirst.breaker, List.append_nil, List.append_nil] at hsuccess
              exact finish_adds_of_raised hsuccess
          | none =>
              simp only [itemVerdicts, newAnalyses, ht, hp]
              obtain ⟨hadds, hnot⟩ := p.afterAnalysis_adds s₁ item env ht hp vlmResult
              have hall := hfirst.trans hadds
              rw [hfirst.breaker, List.append_nil] at hall
              exact finish_adds_of_not_raised hall hnot

/-! ## One verdict for each request -/

section

variable (p s item idx batchResults env faults)

/-- The worker gets to see a text about the image. -/
def answered : Bool :=
  match batchResult idx batchResults with
  | some _ => true
  | none => faults.analyzeImage = none && (p.engineAnswer s item env).isOk

/-- The worker is cancelled while it waits for the engine. -/
def cancelledInCall : Bool :=
  faults.buildPrompt = none && (batchResult idx batchResults).isNone &&
    faults.analyzeImage = some .cancelled

/-- The publication raises after the success was recorded. -/
def raisesAfterSuccess : Bool :=
  faults.buildPrompt = none && p.answered s item idx batchResults env faults &&
    faults.addTurn = none && faults.publish.isSome

end

theorem length_itemVerdicts :
    (itemVerdicts faults (p.analysisEnd s item idx batchResults env faults)).length = 1 ↔
      cancelledInCall idx batchResults faults = false ∧
      p.raisesAfterSuccess s item idx batchResults env faults = false := by
  have hreturned : ∀ text, (itemVerdicts faults (.returned text)).length = 1 ↔
      (decide (faults.addTurn = none) && faults.publish.isSome) = false := by
    intro text
    cases ht : faults.addTurn <;> cases hp : faults.publish <;> simp [itemVerdicts, ht, hp]
  cases hb : faults.buildPrompt with
  | some e => simp [analysisEnd, itemVerdicts, cancelledInCall, raisesAfterSuccess, hb]
  | none =>
      cases hr : batchResult idx batchResults with
      | some text =>
          simp only [analysisEnd, hb, hr, hreturned, cancelledInCall, raisesAfterSuccess, answered]
          simp
      | none =>
          cases hi : faults.analyzeImage with
          | some interrupt =>
              cases interrupt <;>
                simp [analysisEnd, waitFor, itemVerdicts, cancelledInCall, raisesAfterSuccess,
                  answered, hb, hr, hi]
          | none =>
              cases ha : p.engineAnswer s item env with
              | error e =>
                  simp [analysisEnd, waitFor, itemVerdicts, cancelledInCall, raisesAfterSuccess,
                    answered, hb, hr, hi, ha, Except.isOk, Except.toBool]
              | ok text =>
                  simp only [analysisEnd, waitFor, hb, hr, hi, ha, hreturned, cancelledInCall,
                    raisesAfterSuccess, answered]
                  simp [Except.isOk, Except.toBool]

/-- An admitted request has one verdict, unless the worker is cancelled while it
waits for the engine or the publication raises. -/
theorem oneVerdict_iff (hallow : (s.breaker.allowRequest env.admitAt).2 = true) :
    (∃ v, (p.processItem s item idx batchResults env faults).1.verdicts = s.verdicts ++ [v]) ↔
      cancelledInCall idx batchResults faults = false ∧
      p.raisesAfterSuccess s item idx batchResults env faults = false := by
  have hadds := p.processItem_adds item idx batchResults faults (Prod.ext rfl hallow)
  rw [hadds.verdicts, ← length_itemVerdicts]
  simp only [List.append_cancel_left_eq, List.length_eq_one_iff]

/-- A model that sees a person in every image. -/
def seesPerson : VLMProcessingPipeline where
  model _ _ _ := .ok "a person"
  py := VlmConfigGuide.asciiPython

/-- The shutdown cancels the worker while the engine is asked on trial. -/
theorem not_oneVerdict_trialCancelled :
    ¬ ∀ (p : VLMProcessingPipeline) (s : VlmState) (item : VlmItem) (idx : Nat)
        (batchResults : Option (List String)) (env : ItemEnv) (faults : ItemFaults),
      (s.breaker.allowRequest env.admitAt).2 = true →
        ∃ v, (p.processItem s item idx batchResults env faults).1.verdicts = s.verdicts ++ [v] := by
  intro h
  let s : VlmState :=
    { breaker := { state := .opened, failureCount := 5 }, engine := ⟨true, false, []⟩ }
  obtain ⟨v, hv⟩ := h seesPerson s .anonymous 0 none (.quiet 30)
    { analyzeImage := some .cancelled } (by decide +kernel)
  have hnone : (seesPerson.processItem s .anonymous 0 none (.quiet 30)
      { analyzeImage := some .cancelled }).1.verdicts = [] := by decide +kernel
  rw [hnone] at hv
  cases hv

theorem oneVerdict_iff_plain :
    let s : VlmState := { engine := ⟨true, false, []⟩ }
    (s.breaker.allowRequest 0).2 = true ∧
    ((∃ v, (seesPerson.processItem s .anonymous 0 none (.quiet 0) {}).1.verdicts =
        s.verdicts ++ [v]) ↔
      cancelledInCall 0 none {} = false ∧
      seesPerson.raisesAfterSuccess s .anonymous 0 none (.quiet 0) {} = false) :=
  ⟨rfl, oneVerdict_iff rfl⟩

end VLMProcessingPipeline
