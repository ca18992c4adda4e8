-- SUMMARY: Two-stage inference: a light model on the frame, a heavy model on crops of it, and the merge of both results.
import NeuroPipeline.Edge.DetectionBox

/-!
# Model cascade

Model of model_cascade.cpp, without its logging and its latencies. What a model makes
of a buffer is its own, so it is a parameter.
-/

open CFloat (const)

structure CascadeConfig (F : Type) [CFloat F] where
  minConfidence : F := const 0.3
  maxConfidence : F := const 0.7
  minDetections : Int := 1
  roiPadding : F := const 0.1
  /-- empty for all classes -/
  targetClasses : List Int := []
  maxCascadePerFrame : Int := 5
  mergeResults : Bool := true
  heavyWeight : F := const 0.8

/-- A slot with its engine and its post-processor. -/
structure CascadeModel (F : Type) where
  inputWidth : Nat
  /-- the detections of one invocation, nothing when inference fails -/
  infer : Nat → List UInt8 → Option (List (DetectionBox F))

structure CascadeResult (F : Type) where
  lightDetections : List (DetectionBox F) := []
  heavyDetections : List (DetectionBox F) := []
  mergedDetections : List (DetectionBox F) := []
  cascadeCount : Nat := 0

/-- A rectangle of pixels, without its last column and row. -/
structure PixelRect where
  x1 : Int
  y1 : Int
  x2 : Int
  y2 : Int
  deriving DecidableEq

namespace ModelCascade

variable {F : Type} [CFloat F] (config : CascadeConfig F)

/-! ## Which detections are refined -/

/-- The comparison of a signed class with an unsigned one. -/
def targeted (det : DetectionBox F) : Bool :=
  config.targetClasses.isEmpty ||
    config.targetClasses.any fun t => t.emod (2 ^ 32) = det.classId

def shouldCascade (detections : List (DetectionBox F)) : Bool :=
  !detections.isEmpty && decide (config.minDetections ≤
    detections.countP fun det => targeted config det &&
      decide (config.minConfidence ≤ det.confidence) &&
      decide (det.confidence < config.maxConfidence))

/-! ## Crops -/

section

-- a number without its fraction
variable (toInt : F → Int)

/-- The padded region of interest, on the pixels of the frame. -/
def cropBounds (frameWidth frameHeight : Int) (roi : DetectionBox F) : PixelRect where
  x1 := max 0 (toInt (roi.xMin * const frameWidth * (const 1 - config.roiPadding)))
  y1 := max 0 (toInt (roi.yMin * const frameHeight * (const 1 - config.roiPadding)))
  x2 := min frameWidth (toInt (roi.xMax * const frameWidth * (const 1 + config.roiPadding)))
  y2 := min frameHeight (toInt (roi.yMax * const frameHeight * (const 1 + config.roiPadding)))

/-- The three bytes of the pixel that is nearest to column `dx` and row `dy` of the crop. -/
def sample (frame : List UInt8) (frameWidth frameHeight : Int) (r : PixelRect) (targetSize : Int)
    (dx dy : Nat) : List UInt8 :=
  let scaleX : F := const (r.x2 - r.x1 : Int) / const targetSize
  let scaleY : F := const (r.y2 - r.y1 : Int) / const targetSize
  let sx := min (r.x1 + toInt (const dx * scaleX)) (frameWidth - 1)
  let sy := min (r.y1 + toInt (const dy * scaleY)) (frameHeight - 1)
  let srcIdx := (sy * frameWidth + sx) * 3
  [frame.getD srcIdx.toNat 0, frame.getD (srcIdx + 1).toNat 0, frame.getD (srcIdx + 2).toNat 0]

def cropResizeROI (frame : List UInt8) (frameWidth frameHeight : Int) (roi : DetectionBox F)
    (targetSize : Int) : List UInt8 :=
  let r := cropBounds config toInt frameWidth frameHeight roi
  if r.x2 - r.x1 ≤ 0 ∨ r.y2 - r.y1 ≤ 0 then []
  else if targetSize < 0 then
    -- the buffer has the size of the square, and the loops over it do not run
    List.replicate (targetSize * targetSize * 3).toNat 0
  else
    (List.range targetSize.toNat).flatMap fun dy =>
      (List.range targetSize.toNat).flatMap fun dx =>
        sample toInt frame frameWidth frameHeight r targetSize dx dy

/-- The crops of the detections from one on, `roiCount` having been made before. -/
def extractFrom (frame : List UInt8) (frameWidth frameHeight modelSize : Int) :
    Int → List (DetectionBox F) → List (DetectionBox F × List UInt8)
  | _, [] => []
  | roiCount, det :: rest =>
    if config.maxCascadePerFrame ≤ roiCount then []
    else if !targeted config det then
      extractFrom frame frameWidth frameHeight modelSize roiCount rest
    else if det.confidence < config.minConfidence ∨ config.maxConfidence ≤ det.confidence then
      extractFrom frame frameWidth frameHeight modelSize roiCount rest
    else
      let roi := cropResizeROI config toInt frame frameWidth frameHeight det modelSize
      if roi.isEmpty then extractFrom frame frameWidth frameHeight modelSize roiCount rest
      else (det, roi) :: extractFrom frame frameWidth frameHeight modelSize (roiCount + 1) rest

def extractROIs (frame : List UInt8) (detections : List (DetectionBox F))
    (frameWidth frameHeight modelSize : Int) : List (DetectionBox F × List UInt8) :=
  extractFrom config toInt frame frameWidth frameHeight modelSize 0 detections

end

/-! ## Back to the frame -/

def clampUnit (x : F) : F := CFloat.max (const 0) (CFloat.min (const 1) x)

/-- A coordinate of a crop from `low` to `high`, on the axis of the frame. -/
def mapCoordinate (low high x : F) : F := low + x * (high - low)

def paddedMin (x : F) : F := x * (const 1 - config.roiPadding)

def paddedMax (x : F) : F := x * (const 1 + config.roiPadding)

/-- The detection on the frame, before it is clamped to it. -/
def unclamped (roiDetection roi : DetectionBox F) : DetectionBox F :=
  let x := mapCoordinate (paddedMin config roi.xMin) (paddedMax config roi.xMax)
  let y := mapCoordinate (paddedMin config roi.yMin) (paddedMax config roi.yMax)
  { roiDetection with
    xMin := x roiDetection.xMin
    yMin := y roiDetection.yMin
    xMax := x roiDetection.xMax
    yMax := y roiDetection.yMax }

def mapToOriginalFrame (roiDetection roi : DetectionBox F) : DetectionBox F :=
  let mapped := unclamped config roiDetection roi
  { mapped with
    xMin := clampUnit mapped.xMin
    yMin := clampUnit mapped.yMin
    xMax := clampUnit mapped.xMax
    yMax := clampUnit mapped.yMax }

/-! ## Merging -/

/-- The overlap as the merge computes it. -/
def mergeIoU (l h : DetectionBox F) : F :=
  let interArea :=
    CFloat.max (const 0) (CFloat.min l.xMax h.xMax - CFloat.max l.xMin h.xMin) *
      CFloat.max (const 0) (CFloat.min l.yMax h.yMax - CFloat.max l.yMin h.yMin)
  let unionArea :=
    (l.xMax - l.xMin) * (l.yMax - l.yMin) + (h.xMax - h.xMin) * (h.yMax - h.yMin) - interArea
  if const 0 < unionArea then interArea / unionArea else const 0

def overlaps (heavy : List (DetectionBox F)) (l : DetectionBox F) : Bool :=
  heavy.any fun h => decide (const 0.5 < mergeIoU l h) && l.classId = h.classId

def weighted (det : DetectionBox F) : DetectionBox F :=
  { det with confidence := det.confidence * config.heavyWeight }

def mergeDetections (light heavy : List (DetectionBox F)) : List (DetectionBox F) :=
  if config.mergeResults then
    heavy.map (weighted config) ++ light.filter fun l => !overlaps heavy l
  else heavy

/-! ## A frame -/

/-- What the heavy model finds in one crop, on the frame. -/
def heavyDetections (heavy : CascadeModel F) (n : Nat) (roi : DetectionBox F × List UInt8) :
    List (DetectionBox F) :=
  ((heavy.infer n roi.2).getD []).map fun det => mapToOriginalFrame config det roi.1

/-- The detections of all crops, the crops counted from `n`. -/
def heavyFrom (heavy : CascadeModel F) :
    Nat → List (DetectionBox F × List UInt8) → List (DetectionBox F)
  | _, [] => []
  | n, roi :: rest => heavyDetections config heavy n roi ++ heavyFrom heavy (n + 1) rest

/-- What the light model finds on the frame. -/
def lightDetections (light : CascadeModel F) (frame : List UInt8) : List (DetectionBox F) :=
  let modelSize := int32 light.inputWidth
  (light.infer 0 (frame.take (modelSize * modelSize * 3).toNat)).getD []

def processFrame (toInt : F → Int) (frame : List UInt8) (frameWidth frameHeight : Int)
    (light heavy : Option (CascadeModel F)) : CascadeResult F :=
  match light with
  | none => {}
  | some lightSlot =>
    let lightDets := lightDetections lightSlot frame
    if !shouldCascade config lightDets then
      { lightDetections := lightDets, mergedDetections := lightDets }
    else
      match heavy with
      | none => { lightDetections := lightDets, mergedDetections := lightDets }
      | some heavySlot =>
        let rois := extractROIs config toInt frame lightDets frameWidth frameHeight
          (int32 heavySlot.inputWidth)
        let heavyDets := heavyFrom config heavySlot 0 rois
        { lightDetections := lightDets
          heavyDetections := heavyDets
          mergedDetections := mergeDetections config lightDets heavyDets
          cascadeCount := rois.length }

end ModelCascade
