-- SUMMARY: Edge events at central: gauges by device, and alerts.
import NeuroPipeline.Proto.EdgeEvent
import NeuroPipeline.Central.VlmConfigGuide

/-!
# Edge events at central

Model of `handle_edge_event` of central_orchestrator.py with the edge gauges of
metrics.py. An alert is raised when it is handed to the alert manager.
-/

/-- The gauges with the label `device_id` that health updates set. -/
inductive EdgeGauge where
  | framesProcessed
  | detectionsTotal
  | inferenceErrors
  | fps
  | inferenceLatencyAvg
  deriving DecidableEq

namespace EdgeGauge

def all : List EdgeGauge :=
  [framesProcessed, detectionsTotal, inferenceErrors, fps, inferenceLatencyAvg]

/-- The key of its value in the metadata. -/
def key : EdgeGauge → String
  | framesProcessed => "frames_processed"
  | detectionsTotal => "detections_total"
  | inferenceErrors => "inference_errors"
  | fps => "fps"
  | inferenceLatencyAvg => "inference_latency_avg_ms"

theorem mem_all (g : EdgeGauge) : g ∈ all := by
  cases g <;> simp [all]

end EdgeGauge

structure Alert where
  name : String
  context : List (String × String)
  deriving DecidableEq

/-- What edge events change. -/
structure EdgeMonitor where
  gauges : EdgeGauge → String → Option Binary64
  alerts : List Alert

namespace EdgeMonitor

/-- `float` of a text, which may raise. -/
abbrev FloatOf := String → Option Binary64

variable (floatOf : FloatOf)

def safeSet (s : EdgeMonitor) (g : EdgeGauge) (deviceId : String) (value : Option String) :
    EdgeMonitor :=
  match value.bind floatOf with
  | none => s
  | some x =>
    { s with gauges := Function.update s.gauges g (Function.update (s.gauges g) deviceId (some x)) }

def updateEdgeMetrics (s : EdgeMonitor) (deviceId : String) (metadata : List (String × String)) :
    EdgeMonitor :=
  if deviceId = "" then s
  else EdgeGauge.all.foldl (fun s g => s.safeSet floatOf g deviceId (metadata.lookup g.key)) s

def deviceOf (metadata : List (String × String)) : String :=
  (metadata.lookup "device_id").getD ""

/-- The alert that an event stands for: its device and its metadata. -/
def systemErrorAlert (event : EdgeEvent) : Alert where
  name := "edge_system_error"
  context := ("device_id", deviceOf event.metadata) ::
    event.metadata.filter fun p => p.1 != "device_id"

def handleEdgeEvent (alertManager : Bool) (s : EdgeMonitor) (event : EdgeEvent) : EdgeMonitor :=
  if event.type = 1 then s.updateEdgeMetrics floatOf (deviceOf event.metadata) event.metadata
  else if event.type = 2 then
    if alertManager then { s with alerts := s.alerts ++ [systemErrorAlert event] } else s
  else s

def handleEdgeEvents (alertManager : Bool) (s : EdgeMonitor) (events : List EdgeEvent) :
    EdgeMonitor :=
  events.foldl (handleEdgeEvent floatOf alertManager) s

/-! ## What an event changes -/

section

variable {floatOf} {s : EdgeMonitor} {deviceId : String} {alertManager : Bool} {event : EdgeEvent}

theorem safeSet_alerts {g : EdgeGauge} {value : Option String} :
    (s.safeSet floatOf g deviceId value).alerts = s.alerts := by
  cases h : value.bind floatOf <;> simp [safeSet, h]

theorem foldl_safeSet_alerts {metadata : List (String × String)} (gs : List EdgeGauge) :
    (gs.foldl (fun s g => s.safeSet floatOf g deviceId (metadata.lookup g.key)) s).alerts =
      s.alerts := by
  induction gs generalizing s with
  | nil => rfl
  | cons g gs ih => rw [List.foldl_cons, ih, safeSet_alerts]

theorem updateEdgeMetrics_alerts {metadata : List (String × String)} :
    (s.updateEdgeMetrics floatOf deviceId metadata).alerts = s.alerts := by
  by_cases h : deviceId = ""
  · rw [updateEdgeMetrics, if_pos h]
  · rw [updateEdgeMetrics, if_neg h, foldl_safeSet_alerts]

theorem handleEdgeEvent_alerts :
    (s.handleEdgeEvent floatOf alertManager event).alerts =
      s.alerts ++ if event.type = 2 ∧ alertManager then [systemErrorAlert event] else [] := by
  by_cases h₁ : event.type = 1
  · simp [handleEdgeEvent, h₁, updateEdgeMetrics_alerts]
  · by_cases h₂ : event.type = 2
    · cases alertManager <;> simp [handleEdgeEvent, h₂]
    · simp [handleEdgeEvent, h₁, h₂]

/-- Events of other types change nothing. -/
theorem handleEdgeEvent_other (h₁ : event.type ≠ 1) (h₂ : event.type ≠ 2) :
    s.handleEdgeEvent floatOf alertManager event = s := by
  simp [handleEdgeEvent, h₁, h₂]

theorem safeSet_other {g g' : EdgeGauge} {value : Option String} (h : g ≠ g') :
    (s.safeSet floatOf g deviceId value).gauges g' = s.gauges g' := by
  cases hv : value.bind floatOf with
  | none => simp [safeSet, hv]
  | some x => simp [safeSet, hv, Function.update_of_ne h.symm]

theorem safeSet_same {g : EdgeGauge} {value : Option String} {x : Binary64}
    (h : value.bind floatOf = some x) :
    (s.safeSet floatOf g deviceId value).gauges g deviceId = some x := by
  simp [safeSet, h]

theorem foldl_safeSet_other {metadata : List (String × String)} {gs : List EdgeGauge}
    {g : EdgeGauge} (h : g ∉ gs) :
    (gs.foldl (fun s g => s.safeSet floatOf g deviceId (metadata.lookup g.key)) s).gauges g =
      s.gauges g := by
  induction gs generalizing s with
  | nil => rfl
  | cons g' gs ih =>
      rw [List.mem_cons, not_or] at h
      rw [List.foldl_cons, ih h.2, safeSet_other (Ne.symm h.1)]

/-- Every gauge takes the value under its key. -/
theorem updateEdgeMetrics_gauges (hd : deviceId ≠ "") {metadata : List (String × String)}
    {g : EdgeGauge} {x : Binary64} (h : (metadata.lookup g.key).bind floatOf = some x) :
    (s.updateEdgeMetrics floatOf deviceId metadata).gauges g deviceId = some x := by
  rw [updateEdgeMetrics, if_neg hd]
  have hnodup : EdgeGauge.all.Nodup := by decide
  obtain ⟨before, after, hall⟩ := List.append_of_mem g.mem_all
  have hafter : g ∉ after := by
    rw [hall] at hnodup
    exact (List.nodup_cons.mp (List.nodup_append.mp hnodup).2.1).1
  rw [hall, List.foldl_append, List.foldl_cons, foldl_safeSet_other hafter, safeSet_same h]

end

end EdgeMonitor
