-- SUMMARY: Inference engines, the post-processor that belongs to a model, and the manager of several models.
import NeuroPipeline.Lib.Strto
import NeuroPipeline.Edge.PostProcess

/-!
# Inference

Model of rknn_engine.cpp and multi_model_manager.cpp. What the driver and the
file system answer is given with each call.
-/

/-- What happens while an engine is initialised. -/
inductive EngineInit where
  | fileUnreadable
  /-- the file opens but has no size, and its buffer cannot be allocated -/
  | allocationThrows
  | initFailed
  | queryFailed
  | ready
  deriving DecidableEq

structure RknnEngine where
  modelPath : String
  coreMask : Int
  /-- `ctx_` is not null -/
  ctx : Bool := false

namespace RknnEngine

def initializeEngine (e : RknnEngine) : EngineInit → Except StdException (RknnEngine × Bool)
  | .fileUnreadable => .ok (e, false)
  | .allocationThrows => .error .lengthError
  | .initFailed => .ok (e, false)
  | .queryFailed => .ok ({ e with ctx := true }, false)
  | .ready => .ok ({ e with ctx := true }, true)

def release (e : RknnEngine) : RknnEngine := { e with ctx := false }

/-- The outputs, or `none` when inference fails. -/
def infer {F : Type} (e : RknnEngine) (answer : Option (Tensors F)) : Option (Tensors F) :=
  if e.ctx then answer else none

end RknnEngine

/-- A post-processor of one of the two families. -/
inductive PostProcessor (F : Type) [CFloat F] where
  | yolov5 (p : YoloPostProcessor F)
  | yolov8 (p : Yolov8PostProcessor F)

namespace PostProcessor

variable {F : Type} [CFloat F]

def process (math : CMath F) (std : StdSort (DetectionBox F)) (outputs : Tensors F) :
    PostProcessor F → List (DetectionBox F)
  | .yolov5 p => p.process math std outputs
  | .yolov8 p => p.process math std outputs

def confidenceThreshold : PostProcessor F → F
  | .yolov5 p => p.confidenceThreshold
  | .yolov8 p => p.confidenceThreshold

def NanFree (outputs : Tensors F) : PostProcessor F → Prop
  | .yolov5 p => p.NanFree outputs
  | .yolov8 _ => True

instance (outputs : Tensors F) : ∀ p : PostProcessor F, Decidable (p.NanFree outputs)
  | .yolov5 p => inferInstanceAs (Decidable (p.NanFree outputs))
  | .yolov8 _ => inferInstanceAs (Decidable True)

/-- Whatever the family, a detection reaches the threshold of the post-processor. -/
theorem process_confidence [LawfulCFloat F] {math : CMath F} {std : StdSort (DetectionBox F)}
    {outputs : Tensors F} {p : PostProcessor F} {b : DetectionBox F}
    (hthr : CFloat.IsNumber p.confidenceThreshold) (hnan : p.NanFree outputs)
    (hb : b ∈ p.process math std outputs) : p.confidenceThreshold ≤ b.confidence := by
  cases p with
  | yolov5 p => exact YoloPostProcessor.process_confidence hthr hnan hb
  | yolov8 p => exact Yolov8PostProcessor.process_confidence hb

end PostProcessor

structure ModelSlot (F : Type) [CFloat F] where
  modelId : String
  modelPath : String
  npuCore : Int
  loaded : Bool
  engine : RknnEngine
  postprocessor : Option (PostProcessor F)

structure MultiModelManager (F : Type) [CFloat F] where
  slots : List (ModelSlot F)
  activeModelId : String
  maxModels : Nat

namespace MultiModelManager

variable {F : Type} [CFloat F]

def new (maxModels : Nat) : MultiModelManager F := ⟨[], "", maxModels⟩

def coreMask (npuCore : Int) : Int := if 0 ≤ npuCore then 2 ^ npuCore.toNat else 7

def loadModel (m : MultiModelManager F) (modelId modelPath : String) (npuCore : Int)
    (o : EngineInit) : Except StdException (MultiModelManager F × Bool) :=
  if m.maxModels ≤ m.slots.length then .ok (m, false)
  else if m.slots.any fun slot => slot.modelId = modelId then .ok (m, false)
  else do
    let (engine, ok) ← RknnEngine.initializeEngine ⟨modelPath, coreMask npuCore, false⟩ o
    if ok then
      let slot := ⟨modelId, modelPath, npuCore, true, engine, none⟩
      return ({ m with
        slots := m.slots ++ [slot]
        activeModelId := if m.activeModelId = "" then modelId else m.activeModelId }, true)
    else return (m, false)

def getModel (m : MultiModelManager F) (modelId : String) : Option (ModelSlot F) :=
  m.slots.find? fun slot => slot.modelId = modelId

def getActiveModel (m : MultiModelManager F) : Option (ModelSlot F) := m.getModel m.activeModelId

/-- `GetModel(modelId)->postprocessor = p`; no two slots have the same id. -/
def setPostprocessor (m : MultiModelManager F) (modelId : String) (p : PostProcessor F) :
    MultiModelManager F :=
  { m with slots := m.slots.map fun slot =>
      if slot.modelId = modelId then { slot with postprocessor := some p } else slot }

def switchActiveModel (m : MultiModelManager F) (modelId : String) : MultiModelManager F × Bool :=
  if m.slots.any fun slot => slot.modelId = modelId && slot.loaded then
    ({ m with activeModelId := modelId }, true)
  else (m, false)

end MultiModelManager
