-- SUMMARY: Health reports from edge to central: the keys agree, the numbers of the event types and the device do not.
import NeuroPipeline.Edge.EdgeMetrics
import NeuroPipeline.Central.EdgeEvents

/-!
# Health reports

The edge makes the event and central handles it. Central takes the number of
SYSTEM_ERROR for a health update and that of MODEL_LOADED for an error, and it
looks for the device in the metadata, where the edge does not put it.
-/

namespace EdgeMonitor

variable {F : Type} [CFloat F]

/-- The gauges of the device hold the values of the snapshot. -/
def HoldsSnapshot (floatOf : FloatOf) (snapshot : List (String × String)) (deviceId : String)
    (s : EdgeMonitor) : Prop :=
  ∀ g, ∃ x, (snapshot.lookup g.key).bind floatOf = some x ∧ s.gauges g deviceId = some x

/-- Each event of type SYSTEM_ERROR raises its alert, and no other event raises one. -/
def AlertsFollow (floatOf : FloatOf) (alertManager : Bool) (s : EdgeMonitor)
    (events : List EdgeEvent) : Prop :=
  ∀ before event after, events = before ++ event :: after →
    (s.handleEdgeEvents floatOf alertManager (before ++ [event])).alerts =
      (s.handleEdgeEvents floatOf alertManager before).alerts ++
        if event.type = EdgeEvent.systemError then [systemErrorAlert event] else []

variable {floatOf : FloatOf} {alertManager : Bool} {s : EdgeMonitor}

theorem alertsFollow_iff {events : List EdgeEvent} :
    s.AlertsFollow floatOf alertManager events ↔
      ∀ event ∈ events, event.type ≠ EdgeEvent.systemError ∧
        (alertManager = true → event.type ≠ EdgeEvent.modelLoaded) := by
  have hone : ∀ event : EdgeEvent,
      (if event.type = 2 ∧ alertManager then [systemErrorAlert event] else []) =
        (if event.type = EdgeEvent.systemError then [systemErrorAlert event] else []) ↔
      event.type ≠ EdgeEvent.systemError ∧
        (alertManager = true → event.type ≠ EdgeEvent.modelLoaded) := by
    intro event
    simp only [EdgeEvent.systemError, EdgeEvent.modelLoaded]
    by_cases h₁ : event.type = 1
    · simp [h₁]
    · by_cases h₂ : event.type = 2 <;> cases alertManager <;> simp [h₁, h₂]
  have hstep : ∀ before event,
      (s.handleEdgeEvents floatOf alertManager (before ++ [event])).alerts =
        (s.handleEdgeEvents floatOf alertManager before).alerts ++
          if event.type = 2 ∧ alertManager then [systemErrorAlert event] else [] := by
    intro before event
    simp only [handleEdgeEvents, List.foldl_append, List.foldl_cons, List.foldl_nil]
    exact handleEdgeEvent_alerts
  constructor
  · intro h event hmem
    obtain ⟨before, after, heq⟩ := List.append_of_mem hmem
    have hadded := h before event after heq
    rw [hstep, List.append_cancel_left_eq] at hadded
    exact (hone event).mp hadded
  · intro h before event after heq
    rw [hstep, (hone event).mpr (h event (by simp [heq]))]

/-- With the number that central expects and the device in the metadata, the report
would arrive. -/
theorem holdsSnapshot_of_expected {toStr : F → String} {m : EdgeMetrics F} {event : EdgeEvent}
    {deviceId : String} (hd : deviceId ≠ "") (htype : event.type = 1)
    (hmeta : event.metadata = ("device_id", deviceId) :: m.snapshot toStr)
    (hfloat : ∀ g : EdgeGauge, (((m.snapshot toStr).lookup g.key).bind floatOf).isSome) :
    HoldsSnapshot floatOf (m.snapshot toStr) deviceId
      (s.handleEdgeEvent floatOf alertManager event) := by
  intro g
  obtain ⟨x, hx⟩ := Option.isSome_iff_exists.mp (hfloat g)
  refine ⟨x, hx, ?_⟩
  have hdevice : deviceOf event.metadata = deviceId := by
    simp [deviceOf, hmeta]
  have hkey : event.metadata.lookup g.key = (m.snapshot toStr).lookup g.key := by
    rw [hmeta, List.lookup_cons]
    cases g <;> rfl
  rw [handleEdgeEvent, if_pos htype, hdevice]
  exact updateEdgeMetrics_gauges hd (by rw [hkey, hx])

/-- A health event leaves the gauges as they are, and alerts follow the errors of
the edge only where there are none and no model was loaded. -/
theorem healthReport_iff (toStr : F → String) (toInt : F → Int) (m : EdgeMetrics F)
    (avgLatency : F) (timestampUs : Nat) (deviceId : String) (events : List EdgeEvent)
    (floatOf : FloatOf) (alertManager : Bool) (s : EdgeMonitor) :
    (HoldsSnapshot floatOf (m.snapshot toStr) deviceId
        (s.handleEdgeEvent floatOf alertManager
          (m.healthEvent toStr toInt avgLatency timestampUs)) ↔
      HoldsSnapshot floatOf (m.snapshot toStr) deviceId s) ∧
    (s.AlertsFollow floatOf alertManager events ↔
      ∀ event ∈ events, event.type ≠ EdgeEvent.systemError ∧
        (alertManager = true → event.type ≠ EdgeEvent.modelLoaded)) := by
  constructor
  · have htype : (m.healthEvent toStr toInt avgLatency timestampUs).type = 3 := rfl
    rw [handleEdgeEvent_other (by rw [htype]; decide) (by rw [htype]; decide)]
  · exact alertsFollow_iff

/-- Three numbers as both sides write and read them. -/
def smallText (x : Binary64) : String :=
  if x = CFloat.const 30 then "30" else if x = CFloat.const 1 then "1" else "0"

def smallFloat (text : String) : Option Binary64 :=
  if text = "30" then some (CFloat.const 30)
  else if text = "1" then some (CFloat.const 1)
  else if text = "0" then some (CFloat.const 0)
  else none

/-- The first report of a device, and the first error. -/
theorem not_healthReport_first :
    ¬ ∀ (m : EdgeMetrics Binary64) (toStr : Binary64 → String) (toInt : Binary64 → Int)
        (deviceId : String) (events : List EdgeEvent) (floatOf : FloatOf) (s : EdgeMonitor),
      HoldsSnapshot floatOf (m.snapshot toStr) deviceId
        (s.handleEdgeEvent floatOf true (m.healthEvent toStr toInt (CFloat.const 0) 0)) ∧
      s.AlertsFollow floatOf true events := by
  intro h
  let fresh : EdgeMonitor := ⟨fun _ _ => none, []⟩
  let m : EdgeMetrics Binary64 :=
    ⟨1, 0, 0, ⟨0, CFloat.const 0⟩, ⟨0, CFloat.const 0⟩, CFloat.const 30, CFloat.const 0⟩
  obtain ⟨hgauges, halerts⟩ := h m smallText (fun _ => 0) "edge-1"
    [⟨EdgeEvent.systemError, 0, "camera lost", []⟩] smallFloat fresh
  obtain ⟨x, -, hx⟩ := hgauges .fps
  rw [handleEdgeEvent_other (by decide) (by decide)] at hx
  cases hx

end EdgeMonitor
