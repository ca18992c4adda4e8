-- SUMMARY: Boxes as inference produces them and as they are sent, and the overlap of two boxes.
import NeuroPipeline.Lib.CNumber

/-!
# Boxes

Model of types.hpp and of the messages `BoundingBox` and `DetectionResult`, with
the fields that the edge sets. The overlap of two boxes is computed in three
places of the source by the same formula.
-/

structure DetectionBox (F : Type) where
  classId : Nat := 0
  className : String
  confidence : F
  xMin : F
  yMin : F
  xMax : F
  yMax : F
  deriving DecidableEq

open CFloat (const) in
/-- Intersection over union of the rectangles `a` and `b`. -/
def intersectionOverUnion {F : Type} [CFloat F] (ax0 ay0 ax1 ay1 bx0 by0 bx1 by1 : F) : F :=
  let interW := CFloat.max (const 0) (CFloat.min ax1 bx1 - CFloat.max ax0 bx0)
  let interH := CFloat.max (const 0) (CFloat.min ay1 by1 - CFloat.max ay0 by0)
  let interArea := interW * interH
  let areaA := (ax1 - ax0) * (ay1 - ay0)
  let areaB := (bx1 - bx0) * (by1 - by0)
  let unionArea := areaA + areaB - interArea
  if unionArea ≤ const 0 then const 0 else interArea / unionArea

structure BoundingBox (F : Type) where
  classId : Nat
  className : String
  confidence : F
  xMin : F
  yMin : F
  xMax : F
  yMax : F
  /-- 0 when it is not set -/
  trackId : Nat
  deriving DecidableEq

structure DetectionResult (F : Type) where
  frameId : Nat
  deviceId : String
  traceId : String
  timestampUs : Nat
  boxes : List (BoundingBox F)
  frameData : List UInt8
  deriving DecidableEq
