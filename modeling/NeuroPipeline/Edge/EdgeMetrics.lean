-- SUMMARY: The metrics of the edge and the health event made of them.
import NeuroPipeline.Lib.CNumber
import NeuroPipeline.Proto.EdgeEvent

/-!
# Edge metrics

Model of `Snapshot` of edge_metrics.cpp and of the health event in the loop of
pipeline_coordinator.cpp. How a stream prints a double, and to which integer one
is cut, are parameters.
-/

open CFloat (const)

/-- The smallest and the largest value are left out; no report has them. -/
structure HistogramSnapshot (F : Type) where
  count : UInt64
  sum : F

namespace HistogramSnapshot

variable {F : Type} [CFloat F]

def avg (h : HistogramSnapshot F) : F := if 0 < h.count then h.sum / const h.count.toNat else const 0

end HistogramSnapshot

structure EdgeMetrics (F : Type) where
  framesProcessed : UInt64
  detectionsTotal : UInt64
  inferenceErrors : UInt64
  inferenceLatency : HistogramSnapshot F
  rgaLatency : HistogramSnapshot F
  fps : F
  npuUtilization : F

namespace EdgeMetrics

variable {F : Type} [CFloat F] (toStr : F → String)

def count (n : UInt64) : String := toString n.toNat

def snapshot (m : EdgeMetrics F) : List (String × String) :=
  [("frames_processed", count m.framesProcessed),
    ("detections_total", count m.detectionsTotal),
    ("inference_errors", count m.inferenceErrors),
    ("fps", toStr m.fps),
    ("npu_utilization", toStr m.npuUtilization),
    ("inference_latency_avg_ms", toStr m.inferenceLatency.avg),
    ("inference_latency_count", count m.inferenceLatency.count),
    ("rga_latency_avg_ms", toStr m.rgaLatency.avg)]

/-- The event that `Run` sends. -/
def healthEvent (toInt : F → Int) (m : EdgeMetrics F) (avgLatency : F) (timestampUs : Nat) :
    EdgeEvent where
  type := EdgeEvent.healthUpdate
  timestampUs := timestampUs
  description := "health"
  metadata := m.snapshot toStr ++ [("latency_ms", toString (toInt avgLatency))]

end EdgeMetrics
