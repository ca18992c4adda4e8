-- SUMMARY: The coordinator's configuration and components, how they are set up, and how it handles a control command.
import NeuroPipeline.Proto.ControlCommand
import NeuroPipeline.Edge.DetectionQueue
import NeuroPipeline.Edge.DetectionCache
import NeuroPipeline.Edge.TemporalTracker
import NeuroPipeline.Edge.Inference

/-!
# Pipeline coordinator

Model of `Initialize` and `HandleCommand` of pipeline_coordinator.cpp. Capture
devices, recording, metrics and the frame rate controller take no part in what
is detected and sent, and are left out; the gRPC client is added with the loop.
-/

open CFloat (const)

structure ModelConfig where
  modelId : String
  modelPath : String
  postprocessor : String := "yolov5"
  npuCore : Int := -1

structure PipelineConfig (F : Type) [CFloat F] where
  deviceId : String := "edge-001"
  fps : Nat := 30
  modelPath : String := ""
  modelWidth : Nat := 640
  modelHeight : Nat := 640
  npuCoreMask : Int := 0
  confidenceThreshold : F := const 0.5
  nmsThreshold : F := const 0.45
  maxFrames : Nat := 0
  frameSkipInterval : Nat := 0
  dedupIouThreshold : F := const 0.5
  /-- in nanoseconds, as the constructor converts it -/
  dedupTtl : Int := 2000000000
  grpcEnabled : Bool := false
  cacheQueue : DetectionQueue.Config := {}
  /-- number of capture sources -/
  sources : Nat := 1
  models : List ModelConfig := []
  enableTemporalTracker : Bool := false
  enableMultiModel : Bool := false
  sendFrameData : Bool := false

/-- The components that `Initialize` creates. -/
structure Coordinator (F : Type) [CFloat F] where
  config : PipelineConfig F
  engine : RknnEngine
  postprocessor : YoloPostProcessor F
  modelMgr : Option (MultiModelManager F)
  temporalTracker : Option (TemporalTracker F)
  detectionCache : DetectionCache F
  running : Bool

namespace Coordinator

variable {F : Type} [CFloat F]

/-! ## Initialize -/

def yoloConfig (config : PipelineConfig F) : YoloPostProcessor F where
  confidenceThreshold := config.confidenceThreshold
  nmsThreshold := config.nmsThreshold
  inputWidth := config.modelWidth
  inputHeight := config.modelHeight

def yolov8Config (config : PipelineConfig F) : Yolov8PostProcessor F where
  confidenceThreshold := config.confidenceThreshold
  nmsThreshold := config.nmsThreshold
  inputWidth := config.modelWidth
  inputHeight := config.modelHeight

/-- The post-processor that `Initialize` gives a model. -/
def modelPostprocessor (config : PipelineConfig F) (m : ModelConfig) : PostProcessor F :=
  if m.postprocessor = "yolov8" then .yolov8 (yolov8Config config) else .yolov5 (yoloConfig config)

/-- The loop over the configured models; a model that cannot be loaded is skipped. -/
def loadModels (config : PipelineConfig F) (answers : String → EngineInit) :
    List ModelConfig → MultiModelManager F → Except StdException (MultiModelManager F)
  | [], mgr => .ok mgr
  | m :: rest, mgr => do
    let (mgr, ok) ← mgr.loadModel m.modelId m.modelPath m.npuCore (answers m.modelId)
    loadModels config answers rest
      (if ok then mgr.setPostprocessor m.modelId (modelPostprocessor config m) else mgr)

/-- `Initialize`, when devices and sources start; `none` when the engine does
not. `now` is the reading of the steady clock. -/
def initializePipeline (config : PipelineConfig F) (engineAnswer : EngineInit)
    (modelAnswers : String → EngineInit) (now : Int) :
    Except StdException (Option (Coordinator F)) := do
  let (engine, ok) ←
    RknnEngine.initializeEngine ⟨config.modelPath, config.npuCoreMask, false⟩ engineAnswer
  if !ok then return none
  let modelMgr ←
    if config.enableMultiModel && !config.models.isEmpty then
      some <$> loadModels config modelAnswers config.models (.new config.models.length)
    else .ok none
  return some {
    config := config
    engine := engine
    postprocessor := yoloConfig config
    modelMgr := modelMgr
    temporalTracker := if config.enableTemporalTracker then some (.new {}) else none
    detectionCache := .new config.dedupIouThreshold config.dedupTtl now
    running := true }

/-- The components after a successful start. -/
structure Started (cfg : PipelineConfig F) (modelAnswers : String → EngineInit) (now : Int)
    (c : Coordinator F) : Prop where
  config : c.config = cfg
  postprocessor : c.postprocessor = yoloConfig cfg
  modelMgr : ∀ mgr, c.modelMgr = some mgr →
    loadModels cfg modelAnswers cfg.models (.new cfg.models.length) = .ok mgr
  detectionCache : c.detectionCache = .new cfg.dedupIouThreshold cfg.dedupTtl now

theorem initializePipeline_started {config : PipelineConfig F} {engineAnswer : EngineInit}
    {modelAnswers : String → EngineInit} {now : Int} {c : Coordinator F}
    (h : initializePipeline config engineAnswer modelAnswers now = .ok (some c)) :
    Started config modelAnswers now c := by
  unfold initializePipeline at h
  obtain ⟨⟨engine, ok⟩, -, h⟩ := Except.bind_eq_ok.mp h
  cases ok with
  | false => cases Except.pure_eq_ok.mp h
  | true =>
      simp only [Bool.not_true, Bool.false_eq_true, if_false] at h
      split at h
      all_goals
        obtain ⟨modelMgr, hmgr, h⟩ := Except.bind_eq_ok.mp h
        obtain rfl := Option.some.inj (Except.pure_eq_ok.mp h)
        refine ⟨rfl, rfl, ?_, rfl⟩
        rintro mgr rfl
      · obtain ⟨mgr', hload, hsome⟩ := Except.map_eq_ok.mp hmgr
        rwa [← Option.some.inj hsome]
      · cases Except.ok.inj hmgr

/-! ## HandleCommand -/

def withFps (c : Coordinator F) (fps : Nat) : Coordinator F :=
  { c with config := { c.config with fps := fps } }

def withConfidenceThreshold (c : Coordinator F) (threshold : F) : Coordinator F :=
  { c with config := { c.config with confidenceThreshold := threshold } }

/-- The commands that convert one parameter and store it. -/
def storeParameter {A : Type} (c : Coordinator F) (cmd : ControlCommand) (key : String)
    (convert : String → Except StdException A) (store : A → Coordinator F) :
    Except StdException (Coordinator F) :=
  match cmd.find key with
  | none => .ok c
  | some text => (convert text).map store

def setFps (c : Coordinator F) (cmd : ControlCommand) : Except StdException (Coordinator F) :=
  c.storeParameter cmd "fps" stoul fun fps => c.withFps (fps.value % 2 ^ 32)

/-- The engine is released first, and stays so when it cannot be initialised. -/
def reloadModel (c : Coordinator F) (answer : EngineInit) : Except StdException (Coordinator F) := do
  let (engine, _) ← c.engine.release.initializeEngine answer
  return { c with engine := engine }

def switchModelVariant (c : Coordinator F) (cmd : ControlCommand) : Coordinator F :=
  match cmd.find "model_id" with
  | none => c
  | some modelId =>
    match c.modelMgr with
    | none => c
    | some mgr => { c with modelMgr := some (mgr.switchActiveModel modelId).1 }

variable [OfNumeral F]

def setDetectionThreshold (c : Coordinator F) (cmd : ControlCommand) :
    Except StdException (Coordinator F) :=
  c.storeParameter cmd "threshold" stof fun threshold =>
    c.withConfidenceThreshold threshold.value

def setSensitivity (c : Coordinator F) (cmd : ControlCommand) :
    Except StdException (Coordinator F) :=
  c.storeParameter cmd "sensitivity" stof fun sens =>
    c.withConfidenceThreshold (const 1 - sens.value)

/-- The region is converted for the log, and not stored. -/
def setDetectionRegion (c : Coordinator F) (cmd : ControlCommand) :
    Except StdException (Coordinator F) :=
  match cmd.find "x_min", cmd.find "y_min", cmd.find "x_max", cmd.find "y_max" with
  | some x, some y, some x2, some y2 => do
    let _ ← stof (F := F) x
    let _ ← stof (F := F) y
    let _ ← stof (F := F) x2
    let _ ← stof (F := F) y2
    return c
  | _, _, _, _ => .ok c

/-- `HandleCommand`; the exceptions that leave it are those of the reader thread.
`answer` is what a reload finds. -/
def handleCommand (c : Coordinator F) (cmd : ControlCommand) (answer : EngineInit) :
    Except StdException (Coordinator F) :=
  match cmd.type with
  | .setFps => c.setFps cmd
  | .setDetectionThreshold => c.setDetectionThreshold cmd
  | .reloadModel => c.reloadModel answer
  | .shutdown => .ok { c with running := false }
  | .switchModelVariant => .ok (c.switchModelVariant cmd)
  | .setDetectionRegion => c.setDetectionRegion cmd
  | .setSensitivity => c.setSensitivity cmd
  | .changeModel | .enableDebug | .unrecognized _ => .ok c

/-! ## What a command can change -/

/-- All that a command can change: the two values it stores, which of the models
is active, the engine, and whether the loop goes on. -/
structure Commanded (c c' : Coordinator F) : Prop where
  config : ∃ fps threshold,
    c'.config = { c.config with fps := fps, confidenceThreshold := threshold }
  postprocessor : c'.postprocessor = c.postprocessor
  slots : c'.modelMgr.map MultiModelManager.slots = c.modelMgr.map MultiModelManager.slots
  temporalTracker : c'.temporalTracker = c.temporalTracker
  detectionCache : c'.detectionCache = c.detectionCache

omit [OfNumeral F] in
theorem Commanded.refl (c : Coordinator F) : Commanded c c := ⟨⟨_, _, rfl⟩, rfl, rfl, rfl, rfl⟩

omit [OfNumeral F] in
theorem storeParameter_cases {A : Type} {c c' : Coordinator F} {cmd : ControlCommand} {key : String}
    {convert : String → Except StdException A} {store : A → Coordinator F}
    (h : c.storeParameter cmd key convert store = .ok c') : c' = c ∨ ∃ v, c' = store v := by
  unfold storeParameter at h
  split at h
  next => exact .inl (Except.ok.inj h).symm
  next text _ =>
    obtain ⟨v, -, hv⟩ := Except.map_eq_ok.mp h
    exact .inr ⟨v, hv.symm⟩

omit [OfNumeral F] in
theorem switchModelVariant_commanded (c : Coordinator F) (cmd : ControlCommand) :
    Commanded c (c.switchModelVariant cmd) := by
  unfold switchModelVariant
  split
  next => exact .refl c
  next modelId _ =>
    split
    next => exact .refl c
    next mgr hmgr =>
      refine ⟨⟨_, _, rfl⟩, rfl, ?_, rfl, rfl⟩
      simp only [hmgr, Option.map_some, MultiModelManager.switchActiveModel]
      split <;> rfl

theorem handleCommand_commanded {c c' : Coordinator F} {cmd : ControlCommand}
    {answer : EngineInit} (h : c.handleCommand cmd answer = .ok c') : Commanded c c' := by
  unfold handleCommand at h
  split at h
  case h_1 =>
    rcases storeParameter_cases h with rfl | ⟨v, rfl⟩
    · exact .refl _
    · exact ⟨⟨_, _, rfl⟩, rfl, rfl, rfl, rfl⟩
  case h_2 =>
    rcases storeParameter_cases h with rfl | ⟨v, rfl⟩
    · exact .refl _
    · exact ⟨⟨_, _, rfl⟩, rfl, rfl, rfl, rfl⟩
  case h_3 =>
    obtain ⟨⟨engine, ok⟩, -, hengine⟩ := Except.bind_eq_ok.mp h
    obtain rfl := Except.pure_eq_ok.mp hengine
    exact ⟨⟨_, _, rfl⟩, rfl, rfl, rfl, rfl⟩
  case h_4 =>
    obtain rfl := Except.ok.inj h
    exact ⟨⟨_, _, rfl⟩, rfl, rfl, rfl, rfl⟩
  case h_5 =>
    obtain rfl := Except.ok.inj h
    exact switchModelVariant_commanded c cmd
  case h_6 =>
    unfold setDetectionRegion at h
    split at h
    · simp only [Except.bind_eq_ok, Except.pure_eq_ok] at h
      obtain ⟨_, _, _, _, _, _, _, _, rfl⟩ := h
      exact .refl c
    · obtain rfl := Except.ok.inj h
      exact .refl c
  case h_7 =>
    rcases storeParameter_cases h with rfl | ⟨v, rfl⟩
    · exact .refl _
    · exact ⟨⟨_, _, rfl⟩, rfl, rfl, rfl, rfl⟩
  all_goals
    obtain rfl := Except.ok.inj h
    exact .refl c

end Coordinator
