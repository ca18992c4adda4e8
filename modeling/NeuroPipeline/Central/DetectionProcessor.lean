-- SUMMARY: Processing of detections: the requests to the vision model, the events that are published, and what listeners, worker and store get of them.
import NeuroPipeline.Central.AnomalyBaseline
import NeuroPipeline.Central.BehaviorAnalyzer
import NeuroPipeline.Central.HotReload
import NeuroPipeline.Central.OrchestratorBus
import NeuroPipeline.Central.PromptGenerator
import NeuroPipeline.Edge.DetectionBox
import NeuroPipeline.Lib.Refinement

/-!
# Processing of detections

Model of `process` of detection_processor.py, with the queue to the vision model and the event
bus, and of those who use them beside it: the worker that takes requests and publishes
analyses, the listeners, and a reload of the rules. `process` waits for nothing, so that it is
one step. What the two analyzers come to is given with the result.
-/

open CFloat (const)

/-! ## Results and events -/

def BoundingBox.dict (b : BoundingBox Binary64) : DetectionDict :=
  ⟨b.className, b.confidence, b.xMin, b.yMin, b.xMax, b.yMax⟩

def DetectionResult.dicts (result : DetectionResult Binary64) : List DetectionDict :=
  result.boxes.map BoundingBox.dict

/-- `be.behavior_type.value` -/
def BehaviorAnalyzer.BehaviorType.value : BehaviorAnalyzer.BehaviorType → String
  | .loitering => "loitering"
  | .running => "running"
  | .lingering => "lingering"
  | .crowd => "crowd"
  | .unusualTime => "unusual_time"

namespace PublishedEvent

def behaviorAlert (deviceId : String) (be : BehaviorEvent) : PublishedEvent where
  type := "behavior_alert"
  deviceId := deviceId
  behaviorType := be.behaviorType.value
  confidence := be.confidence
  description := be.description
  timestamp := be.timestamp

def anomalyAlert (deviceId : String) (score : AnomalyScore) (now : ℚ) : PublishedEvent where
  type := "anomaly_alert"
  deviceId := deviceId
  metricName := "detections_count"
  value := score.value
  zScore := score.zScore
  baselineMean := score.baselineMean
  timestamp := now

def detection (result : DetectionResult Binary64) (now : ℚ) : PublishedEvent where
  type := "detection"
  frameId := result.frameId
  traceId := result.traceId
  deviceId := result.deviceId
  detections := result.dicts
  timestamp := now

def vlmAnalysis (a : VlmAnalysis) : PublishedEvent where
  type := "vlm_analysis"
  frameId := a.frameId
  traceId := a.traceId
  deviceId := a.deviceId
  detections := a.detections
  vlmResult := a.vlmResult
  rule := a.rule
  timestamp := a.timestamp

end PublishedEvent

/-! ## The processor -/

/-- What the analyzers come to, `none` where one has raised, with the readings of the clock and
the answers of the store to each event that is published. -/
structure ProcessEnv where
  behaviorEvents : Option (List BehaviorEvent) := some []
  score : Option AnomalyScore := none
  scoredAt : ℚ := 0
  publishedAt : ℚ := 0
  answers : Nat → StoreAnswers := fun _ => {}

structure DetectionProcessor where
  style : NumberStyle
  /-- which components there are -/
  behaviorAnalyzer : Bool
  anomalyBaseline : Bool
  alertManager : Bool
  eventBus : OrchestratorEventBus
  inferenceEngine : Bool := false
  vlmRules : List VLMTriggerRule := []
  shuttingDown : Bool := false
  eventCount : Nat := 0
  vlmQueue : Mailbox VlmItem 32 := {}
  vlmQueueDepth : Nat := 0
  /-- the increments of `detections_total` -/
  detectionsTotal : List String := []
  /-- the requests that a full queue has refused -/
  dropped : Nat := 0
  /-- the frames that the alert manager was told of for that -/
  alerts : List Nat := []

inductive ProcessorAct where
  | process (result : DetectionResult Binary64) (env : ProcessEnv)
  | setRules (rules : List VLMTriggerRule)
  | setEngine (present : Bool)
  | shutdown
  /-- the worker takes a request -/
  | takeItem
  /-- the worker publishes an analysis -/
  | analyzed (a : VlmAnalysis) (answers : StoreAnswers)
  | subscribe
  | unsubscribe (q : Nat)
  | get (q : Nat)

namespace OrchestratorEventBus

/-- One event after the other. -/
def publishAll (bus : OrchestratorEventBus) (now : ℚ) :
    List PublishedEvent → (Nat → StoreAnswers) → OrchestratorEventBus
  | [], _ => bus
  | e :: rest, answers =>
    (bus.publish e now (answers 0)).publishAll now rest fun n => answers (n + 1)

theorem queue_publishAll (bus : OrchestratorEventBus) (now : ℚ) (events : List PublishedEvent)
    (answers : Nat → StoreAnswers) (q : Nat) : (bus.publishAll now events answers).queue q =
      if q ∈ bus.listeners then events.foldl Mailbox.offer (bus.queue q) else bus.queue q := by
  induction events generalizing bus answers with
  | nil => rw [publishAll, List.foldl_nil, ite_self]
  | cons e rest ih =>
      have hlisteners : (bus.publish e now (answers 0)).listeners = bus.listeners := rfl
      rw [publishAll, ih, hlisteners, queue_publish]
      split <;> rfl

theorem publishAll_concat (bus : OrchestratorEventBus) (now : ℚ) (events : List PublishedEvent)
    (e : PublishedEvent) (answers : Nat → StoreAnswers) :
    bus.publishAll now (events ++ [e]) answers =
      (bus.publishAll now events answers).publish e now (answers events.length) := by
  induction events generalizing bus answers with
  | nil => rfl
  | cons e' rest ih => exact ih _ _

/-! ### Points of the number of detections -/

/-- The points of a device that the store has taken, with their times. -/
def detectionPoints (deviceId : String) (calls : List StoreCall) : List (Binary64 × ℚ) :=
  calls.filterMap fun c =>
    match c.record with
    | .timeseries device metricName value timestamp =>
      if c.returned ∧ device = deviceId ∧ metricName = "detections_count" then
        some (value, timestamp)
      else none
    | _ => none

theorem detectionPoints_append (deviceId : String) (calls calls' : List StoreCall) :
    detectionPoints deviceId (calls ++ calls') =
      detectionPoints deviceId calls ++ detectionPoints deviceId calls' := List.filterMap_append

/-- Only events about detections come with such a point. -/
theorem detectionPoints_persist_of_ne (bus : OrchestratorEventBus) {e : PublishedEvent}
    (h : e.type ≠ some "detection") (deviceId : String) (now : ℚ) (answers : StoreAnswers) :
    detectionPoints deviceId (bus.persist e now answers) = [] := by
  rw [persist]
  split
  · rw [PublishedEvent.points]
    simp only [h, false_and, if_false, List.nil_append]
    split
    · simp [detectionPoints]
    · rfl
  · rfl

theorem storeCalls_publish (bus : OrchestratorEventBus) (e : PublishedEvent) (now : ℚ)
    (answers : StoreAnswers) : (bus.publish e now answers).storeCalls =
      bus.storeCalls ++ if bus.detectionStore then bus.persist e now answers else [] := rfl

theorem detectionPoints_publishAll_of_ne (bus : OrchestratorEventBus) {events : List PublishedEvent}
    (h : ∀ e ∈ events, e.type ≠ some "detection") (deviceId : String) (now : ℚ)
    (answers : Nat → StoreAnswers) :
    detectionPoints deviceId (bus.publishAll now events answers).storeCalls =
      detectionPoints deviceId bus.storeCalls := by
  induction events generalizing bus answers with
  | nil => rfl
  | cons e rest ih =>
      obtain ⟨he, hrest⟩ := List.forall_mem_cons.mp h
      rw [publishAll, ih _ hrest, storeCalls_publish, detectionPoints_append]
      split
      · rw [detectionPoints_persist_of_ne bus he, List.append_nil]
      · exact List.append_nil _

/-- Whether and how events are stored does not change. -/
theorem publishAll_kept (bus : OrchestratorEventBus) (now : ℚ) (events : List PublishedEvent)
    (answers : Nat → StoreAnswers) :
    (bus.publishAll now events answers).detectionStore = bus.detectionStore ∧
      (bus.publishAll now events answers).persist = bus.persist := by
  induction events generalizing bus answers with
  | nil => exact ⟨rfl, rfl⟩
  | cons e rest ih => exact ih _ _

end OrchestratorEventBus

namespace DetectionProcessor

variable (s : DetectionProcessor)

/-- `_match_vlm_rule`: the first rule that some detection meets. -/
def matchVlmRule (rules : List VLMTriggerRule) (detections : List DetectionDict) :
    Option VLMTriggerRule :=
  rules.find? fun rule => detections.any fun d =>
    d.className = rule.className && rule.minConfidence < d.confidence

/-- The request for a result; an exception of the generator is one of `process`. -/
def request (result : DetectionResult Binary64) : Except FormatError (Option VlmItem) :=
  match matchVlmRule s.vlmRules result.dicts with
  | none => .ok none
  | some rule =>
    if s.inferenceEngine && !result.frameData.isEmpty then
      (PromptGenerator.generate s.style "scene_analysis" result.dicts (some rule.promptTemplate) []).map
        fun prompt => some {
          frameData := result.frameData, prompt := prompt, frameId := result.frameId
          traceId := result.traceId, deviceId := result.deviceId, detections := result.dicts
          rule := rule.className }
    else .ok none

/-- `put_nowait`, unless the server shuts down. -/
def enqueue (item : VlmItem) : DetectionProcessor :=
  if s.shuttingDown then s
  else if s.vlmQueue.HasRoom then { s with vlmQueue := s.vlmQueue.offer item }
  else
    { s with
      dropped := s.dropped + 1
      alerts := if s.alertManager then s.alerts ++ [item.frameId] else s.alerts }

def behaviorAlerts (result : DetectionResult Binary64) (env : ProcessEnv) : List PublishedEvent :=
  if s.behaviorAnalyzer && !result.boxes.isEmpty then
    (env.behaviorEvents.getD []).map (PublishedEvent.behaviorAlert result.deviceId)
  else []

def anomalyAlerts (result : DetectionResult Binary64) (env : ProcessEnv) : List PublishedEvent :=
  if s.anomalyBaseline && !result.boxes.isEmpty then
    (env.score.toList.filter AnomalyScore.isAnomaly).map
      fun score => PublishedEvent.anomalyAlert result.deviceId score env.scoredAt
  else []

/-- Everything that is published for a result. -/
def announcements (result : DetectionResult Binary64) (env : ProcessEnv) : List PublishedEvent :=
  s.behaviorAlerts result env ++ s.anomalyAlerts result env ++
    [PublishedEvent.detection result env.publishedAt]

/-- Counted before anything can raise. -/
def counted (result : DetectionResult Binary64) : DetectionProcessor :=
  { s with
    eventCount := s.eventCount + 1
    detectionsTotal := s.detectionsTotal ++ result.boxes.map BoundingBox.className }

def announce (result : DetectionResult Binary64) (env : ProcessEnv) : DetectionProcessor :=
  { s with
    eventBus := s.eventBus.publishAll env.publishedAt (s.announcements result env) env.answers }

/-- The gauge is set when there was a request. -/
def enqueued (item : VlmItem) : DetectionProcessor :=
  { s.enqueue item with vlmQueueDepth := (s.enqueue item).vlmQueue.queue.length }

def process (result : DetectionResult Binary64) (env : ProcessEnv) :
    DetectionProcessor × Except FormatError Unit :=
  match s.request result with
  | .error e => (s.counted result, .error e)
  | .ok none => ((s.counted result).announce result env, .ok ())
  | .ok (some item) => (((s.counted result).enqueued item).announce result env, .ok ())

def step : ProcessorAct → Option DetectionProcessor
  | .process result env => some (s.process result env).1
  | .setRules rules => some { s with vlmRules := rules }
  | .setEngine present => some { s with inferenceEngine := present }
  | .shutdown => some { s with shuttingDown := true }
  | .takeItem => s.vlmQueue.take.map fun r => { s with vlmQueue := r.2 }
  | .analyzed a answers =>
    some { s with eventBus := s.eventBus.publish (.vlmAnalysis a) a.timestamp answers }
  | .subscribe => some { s with eventBus := s.eventBus.subscribe }
  | .unsubscribe q => some { s with eventBus := s.eventBus.unsubscribe q }
  | .get q => (s.eventBus.get q).map fun r => { s with eventBus := r.2 }

end DetectionProcessor

def processorSystem : TransitionSystem DetectionProcessor ProcessorAct where
  init s := ∃ style behaviorAnalyzer anomalyBaseline alertManager vlmRules bus,
    eventBusSystem.init bus ∧
    s = { style, behaviorAnalyzer, anomalyBaseline, alertManager, vlmRules, eventBus := bus }
  step := DetectionProcessor.step

namespace DetectionProcessor

/-- A processor with one rule, and a result that meets it. -/
def sample : DetectionProcessor where
  style := ⟨fun _ => [], fun _ => [], fun _ => []⟩
  behaviorAnalyzer := true
  anomalyBaseline := false
  alertManager := true
  vlmRules := [{}]
  eventBus := .new (fun _ => "") true 100

def sampleResult : DetectionResult Binary64 :=
  ⟨7, "gate", "t7", 0, [⟨0, "person", const 1, const 0, const 0, const 1, const 1, 0⟩], [255]⟩

def sampleActs : List ProcessorAct :=
  [.subscribe, .setEngine true, .process sampleResult {}, .get 0, .takeItem]

theorem sample_init : processorSystem.init sample :=
  ⟨_, _, _, _, _, _, ⟨_, _, _, rfl⟩, rfl⟩

variable {s s' s₀ : DetectionProcessor} {result : DetectionResult Binary64} {env : ProcessEnv}
  {rule : VLMTriggerRule} {item : VlmItem} {t : List (DetectionProcessor × ProcessorAct)}

/-! ## Requests -/

theorem matchVlmRule_some {rules : List VLMTriggerRule} {detections : List DetectionDict}
    (h : matchVlmRule rules detections = some rule) :
    rule ∈ rules ∧ ∃ d ∈ detections, d.className = rule.className ∧
      rule.minConfidence < d.confidence := by
  refine ⟨List.mem_of_find?_eq_some h, ?_⟩
  have hany := List.find?_some h
  obtain ⟨d, hd, hmeets⟩ := List.any_eq_true.mp hany
  exact ⟨d, hd, by simpa using hmeets⟩

/-- The generator does not raise here: where a rule is met there is a detection. -/
theorem exists_request (s : DetectionProcessor) (result : DetectionResult Binary64) :
    ∃ item, s.request result = .ok item := by
  rw [request]
  cases hrule : matchVlmRule s.vlmRules result.dicts with
  | none => exact ⟨none, rfl⟩
  | some rule =>
      obtain ⟨-, d, hd, -⟩ := matchVlmRule_some hrule
      obtain ⟨prompt, hprompt⟩ : ∃ prompt, PromptGenerator.generate s.style "scene_analysis"
          result.dicts (some rule.promptTemplate) [] = .ok prompt :=
        PromptGenerator.exists_generate "scene_analysis" (List.ne_nil_of_mem hd) _ _
      dsimp only
      split
      · exact ⟨_, by rw [hprompt]; rfl⟩
      · exact ⟨none, rfl⟩

/-- The request that `process` makes of a result, if it makes one. -/
def requested (s : DetectionProcessor) (result : DetectionResult Binary64) : Option VlmItem :=
  (s.request result).toOption.join

theorem request_eq (s : DetectionProcessor) (result : DetectionResult Binary64) :
    s.request result = .ok (s.requested result) := by
  obtain ⟨item, hitem⟩ := s.exists_request result
  rw [requested, hitem]
  rfl

/-- What a request says is what the result says, and some detection in it meets the rule. -/
structure Justified (s : DetectionProcessor) (result : DetectionResult Binary64) (item : VlmItem) :
    Prop where
  frame : item.frameId = result.frameId ∧ item.frameData = result.frameData ∧
    item.traceId = result.traceId ∧ item.deviceId = result.deviceId
  detections : item.detections = result.dicts
  met : ∃ rule ∈ s.vlmRules, item.rule = rule.className ∧
    ∃ d ∈ item.detections, d.className = item.rule ∧ rule.minConfidence < d.confidence

theorem justified_of_requested (h : s.requested result = some item) : s.Justified result item := by
  have hrequest := s.request_eq result
  rw [h, request] at hrequest
  cases hrule : matchVlmRule s.vlmRules result.dicts with
  | none =>
      rw [hrule] at hrequest
      cases hrequest
  | some rule =>
      obtain ⟨hmem, d, hd, hclass, hconfidence⟩ := matchVlmRule_some hrule
      rw [hrule] at hrequest
      dsimp only at hrequest
      split at hrequest
      · cases hprompt : PromptGenerator.generate s.style "scene_analysis" result.dicts
            (some rule.promptTemplate) [] with
        | error e =>
            rw [hprompt] at hrequest
            cases hrequest
        | ok prompt =>
            rw [hprompt] at hrequest
            obtain rfl := Option.some_inj.mp (Except.ok.inj hrequest)
            exact ⟨⟨rfl, rfl, rfl, rfl⟩, rfl, rule, hmem, rfl, d, hd, hclass, hconfidence⟩
      · cases hrequest

/-- `process` never raises. -/
theorem process_eq (s : DetectionProcessor) (result : DetectionResult Binary64) (env : ProcessEnv) :
    s.process result env =
      (((s.requested result).elim (s.counted result) (s.counted result).enqueued).announce
        result env, .ok ()) := by
  rw [process, request_eq]
  cases s.requested result <;> rfl

/-! ## The queue of requests -/

/-- What a step does to the queue. -/
def vlmSeen (s : DetectionProcessor) : ProcessorAct → List (MailboxAct VlmItem)
  | .process result _ => if s.shuttingDown then [] else (s.requested result).toList.map .offer
  | .takeItem => [.take]
  | _ => []

@[simp] theorem announce_vlmQueue (s : DetectionProcessor) (result : DetectionResult Binary64)
    (env : ProcessEnv) : (s.announce result env).vlmQueue = s.vlmQueue := rfl

theorem vlmQueue_enqueued (s : DetectionProcessor) (item : VlmItem) :
    (s.enqueued item).vlmQueue =
      if s.shuttingDown then s.vlmQueue else s.vlmQueue.offer item := by
  have henqueued : (s.enqueued item).vlmQueue = (s.enqueue item).vlmQueue := rfl
  rw [henqueued, enqueue]
  split
  · rfl
  · split
    · rfl
    · next hfull => exact (Mailbox.offer_of_full hfull item).symm

theorem expands_vlmQueue :
    processorSystem.Expands (Mailbox.system VlmItem 32) (·.vlmQueue) vlmSeen := by
  intro s act s' hs
  cases act with
  | process result env =>
      obtain rfl := Option.some_inj.mp hs
      rw [process_eq]
      simp only [vlmSeen, announce_vlmQueue]
      cases hrequested : s.requested result with
      | none => cases s.shuttingDown <;> rfl
      | some item =>
          simp only [Option.elim_some, vlmQueue_enqueued]
          cases hdown : s.shuttingDown <;> simp [counted, hdown, TransitionSystem.exec, Mailbox.system]
  | takeItem =>
      obtain ⟨r, htake, rfl⟩ := Option.map_eq_some_iff.mp hs
      simp only [vlmSeen, TransitionSystem.exec, Mailbox.system, htake, Option.map_some,
        Option.bind_some]
  | setRules rules =>
      obtain rfl := Option.some_inj.mp hs
      rfl
  | setEngine present =>
      obtain rfl := Option.some_inj.mp hs
      rfl
  | shutdown =>
      obtain rfl := Option.some_inj.mp hs
      rfl
  | analyzed a answers =>
      obtain rfl := Option.some_inj.mp hs
      rfl
  | subscribe =>
      obtain rfl := Option.some_inj.mp hs
      rfl
  | unsubscribe q =>
      obtain rfl := Option.some_inj.mp hs
      rfl
  | get q =>
      obtain ⟨r, -, rfl⟩ := Option.map_eq_some_iff.mp hs
      rfl

/-- The requests that are made while the server does not shut down. -/
def requests (t : List (DetectionProcessor × ProcessorAct)) : List VlmItem :=
  Mailbox.offers (TransitionSystem.expandLabels vlmSeen t)

theorem requests_snoc (act : ProcessorAct) :
    requests (t ++ [(s, act)]) = requests t ++ Mailbox.offers (s.vlmSeen act) := by
  rw [requests, TransitionSystem.expandLabels_snoc, Mailbox.offers_append, requests]

theorem offers_vlmSeen_process (s : DetectionProcessor) (result : DetectionResult Binary64)
    (env : ProcessEnv) : Mailbox.offers (s.vlmSeen (.process result env)) =
      if s.shuttingDown then [] else (s.requested result).toList := by
  rw [vlmSeen]
  split
  · rfl
  · exact Mailbox.offers_map_offer _

/-- What is known of the requests that were made. -/
structure RequestAccount (t : List (DetectionProcessor × ProcessorAct)) (s : DetectionProcessor) :
    Prop where
  balanced : (requests t).length = s.vlmQueue.heard.length + s.dropped
  justified : ∀ item ∈ requests t, ∃ p ∈ t, ∃ result env, p.2 = .process result env ∧
    p.1.shuttingDown = false ∧ p.1.Justified result item

theorem heard_enqueued (s : DetectionProcessor) (item : VlmItem) (hdown : s.shuttingDown = false) :
    (s.enqueued item).vlmQueue.heard.length + (s.enqueued item).dropped =
      s.vlmQueue.heard.length + s.dropped + 1 := by
  have hdropped : (s.enqueued item).dropped = (s.enqueue item).dropped := rfl
  rw [vlmQueue_enqueued, hdropped, enqueue, hdown]
  by_cases hroom : s.vlmQueue.HasRoom
  · simp only [Bool.false_eq_true, if_false, if_pos hroom, Mailbox.heard_offer,
      List.length_append, List.length_singleton]
    omega
  · simp only [Bool.false_eq_true, if_false, if_neg hroom, Mailbox.heard_offer]
    omega

theorem RequestAccount.processed (h : RequestAccount t s) (result : DetectionResult Binary64)
    (env : ProcessEnv) :
    RequestAccount (t ++ [(s, .process result env)]) (s.process result env).1 := by
  have hold : ∀ item ∈ requests t, ∃ p ∈ t ++ [(s, ProcessorAct.process result env)],
      ∃ result env, p.2 = .process result env ∧ p.1.shuttingDown = false ∧
        p.1.Justified result item := by
    intro item hitem
    obtain ⟨p, hp, hrest⟩ := h.justified item hitem
    exact ⟨p, List.mem_append_left _ hp, hrest⟩
  have hkept : ∀ s' : DetectionProcessor, (s'.announce result env).vlmQueue = s'.vlmQueue ∧
      (s'.announce result env).dropped = s'.dropped := fun _ => ⟨rfl, rfl⟩
  rw [process_eq]
  constructor
  · rw [requests_snoc, offers_vlmSeen_process, List.length_append, (hkept _).1, (hkept _).2,
      h.balanced]
    cases hdown : s.shuttingDown with
    | true =>
        cases s.requested result with
        | none => rfl
        | some item =>
            rw [Option.elim_some, vlmQueue_enqueued]
            simp [counted, enqueued, enqueue, hdown]
    | false =>
        cases s.requested result with
        | none => rfl
        | some item =>
            have hheard := heard_enqueued (s.counted result) item hdown
            rw [Option.elim_some, hheard]
            rfl
  · intro item hitem
    rw [requests_snoc, offers_vlmSeen_process] at hitem
    rcases List.mem_append.mp hitem with hitem | hitem
    · exact hold item hitem
    · split at hitem
      · cases hitem
      · next hdown =>
          have hrequested : s.requested result = some item := Option.mem_toList.mp hitem
          exact ⟨_, List.mem_append_right _ (List.mem_singleton.mpr rfl), result, env, rfl,
            Bool.eq_false_iff.mpr hdown, justified_of_requested hrequested⟩

/-- Other operations make no request. -/
theorem RequestAccount.kept {act : ProcessorAct} (h : RequestAccount t s)
    (hact : Mailbox.offers (s.vlmSeen act) = []) (hheard : s'.vlmQueue.heard = s.vlmQueue.heard)
    (hdropped : s'.dropped = s.dropped) : RequestAccount (t ++ [(s, act)]) s' := by
  have hrequests : requests (t ++ [(s, act)]) = requests t := by
    rw [requests_snoc, hact, List.append_nil]
  constructor
  · rw [hrequests, h.balanced, hheard, hdropped]
  · intro item hitem
    rw [hrequests] at hitem
    obtain ⟨p, hp, hrest⟩ := h.justified item hitem
    exact ⟨p, List.mem_append_left _ hp, hrest⟩

theorem step_requestAccount {act : ProcessorAct} (h : RequestAccount t s)
    (hs : processorSystem.step s act = some s') : RequestAccount (t ++ [(s, act)]) s' := by
  cases act with
  | process result env =>
      obtain rfl := Option.some_inj.mp hs
      exact h.processed result env
  | takeItem =>
      obtain ⟨r, htake, rfl⟩ := Option.map_eq_some_iff.mp hs
      exact h.kept rfl (Mailbox.heard_take htake) rfl
  | setRules rules =>
      obtain rfl := Option.some_inj.mp hs
      exact h.kept rfl rfl rfl
  | setEngine present =>
      obtain rfl := Option.some_inj.mp hs
      exact h.kept rfl rfl rfl
  | shutdown =>
      obtain rfl := Option.some_inj.mp hs
      exact h.kept rfl rfl rfl
  | analyzed a answers =>
      obtain rfl := Option.some_inj.mp hs
      exact h.kept rfl rfl rfl
  | subscribe =>
      obtain rfl := Option.some_inj.mp hs
      exact h.kept rfl rfl rfl
  | unsubscribe q =>
      obtain rfl := Option.some_inj.mp hs
      exact h.kept rfl rfl rfl
  | get q =>
      obtain ⟨r, -, rfl⟩ := Option.map_eq_some_iff.mp hs
      exact h.kept rfl rfl rfl

/-- Every request to the vision model is in the queue, with the worker, or counted as dropped.
None is dropped exactly when the worker is never more than thirty-two behind, none is made while
the server shuts down, and each carries a detection that meets the rule it names. -/
theorem requests_accounted (hinit : processorSystem.init s₀) (hrun : processorSystem.Run s₀ t s) :
    s.vlmQueue.heard.Sublist (requests t) ∧
      (requests t).length = s.vlmQueue.heard.length + s.dropped ∧
      (s.dropped = 0 ↔ Mailbox.KeepsUp 32 (TransitionSystem.expandLabels vlmSeen t)) ∧
      ∀ item ∈ s.vlmQueue.heard, ∃ p ∈ t, ∃ result env, p.2 = .process result env ∧
        p.1.shuttingDown = false ∧ p.1.Justified result item := by
  obtain ⟨style, behaviorAnalyzer, anomalyBaseline, alertManager, vlmRules, bus, hbus, rfl⟩ := hinit
  obtain ⟨t', hrun', hlabels⟩ := hrun.expand expands_vlmQueue
  have hmailbox := Mailbox.run_account rfl hrun'
  have haccount : RequestAccount t s :=
    hrun.invariant_history (I := RequestAccount) (fun _ _ _ _ h hs => step_requestAccount h hs)
      ⟨rfl, by simp [requests]⟩
  have hsublist : s.vlmQueue.heard.Sublist (requests t) := by
    rw [requests, ← hlabels]
    exact hmailbox.sublist
  refine ⟨hsublist, haccount.balanced, ?_, fun item hitem =>
    haccount.justified item (hsublist.subset hitem)⟩
  rw [← hlabels, ← hmailbox.lossless, hlabels]
  constructor
  · intro hdropped
    refine hsublist.eq_of_length ?_
    rw [haccount.balanced, hdropped, Nat.add_zero]
  · intro heq
    have hbalanced := haccount.balanced
    rw [requests, ← heq] at hbalanced
    omega

/-- One request is made and taken. -/
theorem requests_accounted_sample :
    ∃ t s, processorSystem.Run sample t s ∧ t.map Prod.snd = sampleActs ∧
      s.vlmQueue.taken.length = 1 ∧ (requests t).length = s.vlmQueue.heard.length + s.dropped := by
  have hview : (processorSystem.execTrace sample sampleActs).map
      (fun r => r.2.vlmQueue.taken.length) = some 1 := by decide +kernel
  obtain ⟨t, s, hrun, hlabels, htaken⟩ := TransitionSystem.exists_run_of_execTrace hview
  exact ⟨t, s, hrun, hlabels, htaken, (requests_accounted sample_init hrun).2.1⟩

/-! ## Listeners -/

/-- What a step does to one queue of the bus. -/
def busSeen (q : Nat) (s : DetectionProcessor) : ProcessorAct → List (MailboxAct PublishedEvent)
  | .process result env =>
    if q ∈ s.eventBus.listeners then (s.announcements result env).map .offer else []
  | .analyzed a _ => if q ∈ s.eventBus.listeners then [.offer (.vlmAnalysis a)] else []
  | .get r => if r = q then [.take] else []
  | _ => []

/-- A request leaves the bus and the analyzers alone. -/
theorem enqueued_kept (s : DetectionProcessor) (item : VlmItem) :
    (s.enqueued item).eventBus = s.eventBus ∧
      (s.enqueued item).behaviorAnalyzer = s.behaviorAnalyzer ∧
      (s.enqueued item).anomalyBaseline = s.anomalyBaseline := by
  unfold enqueued enqueue
  split
  · exact ⟨rfl, rfl, rfl⟩
  · split <;> exact ⟨rfl, rfl, rfl⟩

theorem announcements_congr (hbehavior : s'.behaviorAnalyzer = s.behaviorAnalyzer)
    (hanomaly : s'.anomalyBaseline = s.anomalyBaseline) (result : DetectionResult Binary64)
    (env : ProcessEnv) : s'.announcements result env = s.announcements result env := by
  rw [announcements, behaviorAlerts, anomalyAlerts, hbehavior, hanomaly, announcements,
    behaviorAlerts, anomalyAlerts]

theorem process_eventBus (s : DetectionProcessor) (result : DetectionResult Binary64)
    (env : ProcessEnv) : (s.process result env).1.eventBus =
      s.eventBus.publishAll env.publishedAt (s.announcements result env) env.answers := by
  have hannounce : ∀ s' : DetectionProcessor, (s'.announce result env).eventBus =
      s'.eventBus.publishAll env.publishedAt (s'.announcements result env) env.answers :=
    fun _ => rfl
  rw [process_eq, hannounce]
  cases s.requested result with
  | none => rfl
  | some item =>
      obtain ⟨hbus, hbehavior, hanomaly⟩ := enqueued_kept (s.counted result) item
      rw [Option.elim_some, hbus, announcements_congr hbehavior hanomaly]
      rfl

theorem expands_queue (q : Nat) : processorSystem.Expands (Mailbox.system PublishedEvent 50)
    (·.eventBus.queue q) (busSeen q) := by
  intro s act s' hs
  cases act with
  | process result env =>
      obtain rfl := Option.some_inj.mp hs
      simp only [busSeen, process_eventBus, OrchestratorEventBus.queue_publishAll]
      split
      · exact Mailbox.exec_offers _ _
      · rfl
  | analyzed a answers =>
      obtain rfl := Option.some_inj.mp hs
      simp only [busSeen, OrchestratorEventBus.queue_publish]
      split <;> rfl
  | subscribe =>
      obtain rfl := Option.some_inj.mp hs
      exact congrArg some (OrchestratorEventBus.queue_subscribe q).symm
  | get r =>
      obtain ⟨⟨x, bus⟩, hget, rfl⟩ := Option.map_eq_some_iff.mp hs
      obtain ⟨⟨x, m⟩, htake, heq⟩ := Option.map_eq_some_iff.mp hget
      obtain ⟨rfl, rfl⟩ := Prod.mk.inj heq
      have hqueue := OrchestratorEventBus.queue_setQueue (s := s.eventBus) q r m
        (OrchestratorEventBus.lt_of_take htake)
      by_cases hr : r = q
      · subst hr
        rw [if_pos rfl] at hqueue
        simp only [busSeen, if_true, TransitionSystem.exec, Mailbox.system, htake, Option.map_some,
          Option.bind_some, hqueue]
      · rw [if_neg (Ne.symm hr)] at hqueue
        simp only [busSeen, if_neg hr, TransitionSystem.exec, hqueue]
  | setRules rules =>
      obtain rfl := Option.some_inj.mp hs
      rfl
  | setEngine present =>
      obtain rfl := Option.some_inj.mp hs
      rfl
  | shutdown =>
      obtain rfl := Option.some_inj.mp hs
      rfl
  | takeItem =>
      obtain ⟨r, -, rfl⟩ := Option.map_eq_some_iff.mp hs
      rfl
  | unsubscribe r =>
      obtain rfl := Option.some_inj.mp hs
      rfl

/-- Everything that is published while the queue is one of a listener. -/
def announced (q : Nat) (t : List (DetectionProcessor × ProcessorAct)) : List PublishedEvent :=
  Mailbox.offers (TransitionSystem.expandLabels (busSeen q) t)

/-- The results that are processed meanwhile, with the time that their events get. -/
def processedFor (q : Nat) (t : List (DetectionProcessor × ProcessorAct)) :
    List (DetectionResult Binary64 × ℚ) :=
  t.filterMap fun p =>
    match p.2 with
    | .process result env =>
      if q ∈ p.1.eventBus.listeners then some (result, env.publishedAt) else none
    | _ => none

def isDetection (e : PublishedEvent) : Bool := e.type = some "detection"

theorem alerts_ne_detection (s : DetectionProcessor) (result : DetectionResult Binary64)
    (env : ProcessEnv) : ∀ e ∈ s.behaviorAlerts result env ++ s.anomalyAlerts result env,
      e.type ≠ some "detection" := by
  intro e he
  rcases List.mem_append.mp he with he | he
  · rw [behaviorAlerts] at he
    split at he
    · obtain ⟨be, -, rfl⟩ := List.mem_map.mp he
      simp [PublishedEvent.behaviorAlert]
    · cases he
  · rw [anomalyAlerts] at he
    split at he
    · obtain ⟨score, -, rfl⟩ := List.mem_map.mp he
      simp [PublishedEvent.anomalyAlert]
    · cases he

theorem filter_announcements (s : DetectionProcessor) (result : DetectionResult Binary64)
    (env : ProcessEnv) : (s.announcements result env).filter isDetection =
      [PublishedEvent.detection result env.publishedAt] := by
  have halerts : (s.behaviorAlerts result env ++ s.anomalyAlerts result env).filter isDetection =
      [] := List.filter_eq_nil_iff.mpr fun e he => by
    simpa [isDetection] using s.alerts_ne_detection result env e he
  rw [announcements, List.filter_append, halerts]
  rfl

/-- One step: its detection events are those of the results that it processes. -/
theorem filter_busSeen (q : Nat) (act : ProcessorAct) :
    (Mailbox.offers (s.busSeen q act)).filter isDetection =
      (processedFor q [(s, act)]).map fun r => PublishedEvent.detection r.1 r.2 := by
  cases act with
  | process result env =>
      rw [busSeen]
      by_cases hq : q ∈ s.eventBus.listeners
      · rw [if_pos hq, Mailbox.offers_map_offer, filter_announcements]
        simp [processedFor, hq]
      · rw [if_neg hq]
        simp [processedFor, hq]
  | analyzed a answers =>
      rw [busSeen]
      split <;> rfl
  | get r =>
      rw [busSeen]
      split <;> rfl
  | setRules | setEngine | shutdown | takeItem | subscribe | unsubscribe => rfl

theorem filter_announced (q : Nat) (t : List (DetectionProcessor × ProcessorAct)) :
    (announced q t).filter isDetection =
      (processedFor q t).map fun r => PublishedEvent.detection r.1 r.2 := by
  induction t with
  | nil => rfl
  | cons p rest ih =>
      have hannounced : announced q (p :: rest) =
          Mailbox.offers (p.1.busSeen q p.2) ++ announced q rest := by
        rw [announced, TransitionSystem.expandLabels, List.flatMap_cons, Mailbox.offers_append]
        rfl
      have hprocessed : processedFor q (p :: rest) = processedFor q [p] ++ processedFor q rest := by
        rw [processedFor, ← List.singleton_append, List.filterMap_append]
        rfl
      rw [hannounced, List.filter_append, filter_busSeen, ih, hprocessed, List.map_append]

theorem queue_account (hinit : processorSystem.init s₀) (hrun : processorSystem.Run s₀ t s)
    (q : Nat) : (s.eventBus.queue q).heard.Sublist (announced q t) ∧
      ((s.eventBus.queue q).heard = announced q t ↔
        Mailbox.KeepsUp 50 (TransitionSystem.expandLabels (busSeen q) t)) := by
  obtain ⟨style, behaviorAnalyzer, anomalyBaseline, alertManager, vlmRules, bus, hbus, rfl⟩ := hinit
  obtain ⟨t', hrun', hlabels⟩ := hrun.expand (expands_queue q)
  have hempty : bus.queue q = {} := by
    obtain ⟨dumps, detectionStore, maxlen, rfl⟩ := hbus
    rfl
  have hmailbox := Mailbox.run_account hempty hrun'
  rw [announced, ← hlabels]
  exact ⟨hmailbox.sublist, hmailbox.lossless⟩

/-- A listener hears what is published in its order, each event at most once, and misses
nothing exactly when he is never more than fifty events behind: then he hears of each result
that is processed while he listens in one detection event. -/
theorem hears_every_detection (hinit : processorSystem.init s₀)
    (hrun : processorSystem.Run s₀ t s) (q : Nat) :
    (s.eventBus.queue q).heard.Sublist (announced q t) ∧
      ((s.eventBus.queue q).heard = announced q t ↔
        Mailbox.KeepsUp 50 (TransitionSystem.expandLabels (busSeen q) t)) ∧
      (announced q t).filter isDetection =
        (processedFor q t).map fun r => PublishedEvent.detection r.1 r.2 := by
  obtain ⟨hsublist, hlossless⟩ := queue_account hinit hrun q
  exact ⟨hsublist, hlossless, filter_announced q t⟩

/-- The listener takes the one event. -/
theorem hears_every_detection_sample :
    ∃ t s, processorSystem.Run sample t s ∧ t.map Prod.snd = sampleActs ∧
      (s.eventBus.queue 0).taken = [.detection sampleResult 0] ∧
      (announced 0 t).filter isDetection = [.detection sampleResult 0] := by
  have hview : (processorSystem.execTrace sample sampleActs).map
      (fun r => ((r.2.eventBus.queue 0).taken, processedFor 0 r.1)) =
        some ([.detection sampleResult 0], [(sampleResult, 0)]) := by decide +kernel
  obtain ⟨t, s, hrun, hlabels, hend⟩ := TransitionSystem.exists_run_of_execTrace hview
  obtain ⟨htaken, hprocessed⟩ := Prod.mk.inj hend
  refine ⟨t, s, hrun, hlabels, htaken, ?_⟩
  rw [(hears_every_detection sample_init hrun 0).2.2, hprocessed]
  rfl

/-! ## Time series -/

/-- The number of detections in a result of the device, with the time of its event. -/
def countPoint (deviceId : String) : ProcessorAct → Option (Binary64 × ℚ)
  | .process result env =>
    if result.deviceId = deviceId ∧ result.boxes ≠ [] then
      some (const result.boxes.length, env.publishedAt)
    else none
  | _ => none

/-- The counts of all results of the device. -/
def countPoints (deviceId : String) (t : List (DetectionProcessor × ProcessorAct)) :
    List (Binary64 × ℚ) :=
  t.filterMap fun p => countPoint deviceId p.2

/-- Both calls of the store for the event of a result have returned. -/
def Stored (s : DetectionProcessor) (result : DetectionResult Binary64) (env : ProcessEnv) : Prop :=
  s.eventBus.detectionStore = true ∧
    let answers := env.answers (s.behaviorAlerts result env ++ s.anomalyAlerts result env).length
    answers.record = true ∧ answers.recordTimeseries = true

instance (s : DetectionProcessor) (result : DetectionResult Binary64) (env : ProcessEnv) :
    Decidable (s.Stored result env) := inferInstanceAs (Decidable (_ ∧ _))

/-- The store takes the point of a result of the device, if it has one. -/
def StoresPoint (deviceId : String) (s : DetectionProcessor) : ProcessorAct → Prop
  | .process result env => result.deviceId = deviceId → result.boxes ≠ [] → s.Stored result env
  | _ => True

/-- The points that come with the event of a result. -/
theorem detectionPoints_persist_detection (bus : OrchestratorEventBus)
    (result : DetectionResult Binary64) (deviceId : String) (env : ProcessEnv)
    (answers : StoreAnswers) :
    OrchestratorEventBus.detectionPoints deviceId
        (bus.persist (.detection result env.publishedAt) env.publishedAt answers) =
      if answers.record = true ∧ answers.recordTimeseries = true then
        (countPoint deviceId (.process result env)).toList
      else [] := by
  have hdicts : result.dicts = [] ↔ result.boxes = [] := List.map_eq_nil_iff
  have hlength : result.dicts.length = result.boxes.length := List.length_map ..
  have hpoints : (PublishedEvent.detection result env.publishedAt).points env.publishedAt =
      if result.boxes = [] then [] else
        [.timeseries result.deviceId "detections_count" (const result.boxes.length)
          env.publishedAt] := by
    rw [PublishedEvent.points]
    split <;> simp_all [PublishedEvent.detection]
  rw [OrchestratorEventBus.persist, hpoints]
  cases hrecord : answers.record with
  | false => simp [OrchestratorEventBus.detectionPoints]
  | true =>
      by_cases hboxes : result.boxes = [] <;> cases hseries : answers.recordTimeseries <;>
        by_cases hdevice : result.deviceId = deviceId <;>
          simp [OrchestratorEventBus.detectionPoints, countPoint, hboxes, hdevice]

theorem detectionPoints_process (s : DetectionProcessor) (result : DetectionResult Binary64)
    (env : ProcessEnv) (deviceId : String) :
    OrchestratorEventBus.detectionPoints deviceId
        (s.process result env).1.eventBus.storeCalls =
      OrchestratorEventBus.detectionPoints deviceId s.eventBus.storeCalls ++
        if s.Stored result env then (countPoint deviceId (.process result env)).toList else [] := by
  have hkept := s.eventBus.publishAll_kept env.publishedAt
    (s.behaviorAlerts result env ++ s.anomalyAlerts result env) env.answers
  rw [process_eventBus, announcements, OrchestratorEventBus.publishAll_concat,
    OrchestratorEventBus.storeCalls_publish, OrchestratorEventBus.detectionPoints_append,
    OrchestratorEventBus.detectionPoints_publishAll_of_ne s.eventBus
      (s.alerts_ne_detection result env), hkept.1, hkept.2,
    apply_ite (OrchestratorEventBus.detectionPoints deviceId), detectionPoints_persist_detection]
  exact congrArg (_ ++ ·) (ite_and ..).symm

/-- The store's account of a device: what it has taken of the counts. -/
structure PointAccount (deviceId : String) (t : List (DetectionProcessor × ProcessorAct))
    (s : DetectionProcessor) : Prop where
  sublist : (OrchestratorEventBus.detectionPoints deviceId s.eventBus.storeCalls).Sublist
    (countPoints deviceId t)
  complete : OrchestratorEventBus.detectionPoints deviceId s.eventBus.storeCalls =
    countPoints deviceId t ↔ TransitionSystem.Respects (StoresPoint deviceId) t

theorem countPoints_snoc (deviceId : String) (t : List (DetectionProcessor × ProcessorAct))
    (s : DetectionProcessor) (act : ProcessorAct) : countPoints deviceId (t ++ [(s, act)]) =
      countPoints deviceId t ++ (countPoint deviceId act).toList := by
  rw [countPoints, List.filterMap_append, countPoints]
  cases hpoint : countPoint deviceId act <;> simp [hpoint]

/-- Lists that grow by parts of each other are equal when all the parts are. -/
theorem append_eq_append_iff_of_sublist {α : Type} {xs ys xs' ys' : List α}
    (h : xs.Sublist ys) (h' : xs'.Sublist ys') :
    xs ++ xs' = ys ++ ys' ↔ xs = ys ∧ xs' = ys' := by
  refine ⟨fun heq => ?_, fun ⟨heq, heq'⟩ => by rw [heq, heq']⟩
  have hlength := congrArg List.length heq
  rw [List.length_append, List.length_append] at hlength
  have hle := h.length_le
  have hle' := h'.length_le
  exact ⟨h.eq_of_length (by omega), h'.eq_of_length (by omega)⟩

theorem PointAccount.grown {deviceId : String} {act : ProcessorAct} {added : List (Binary64 × ℚ)}
    (h : PointAccount deviceId t s)
    (hpoints : OrchestratorEventBus.detectionPoints deviceId s'.eventBus.storeCalls =
      OrchestratorEventBus.detectionPoints deviceId s.eventBus.storeCalls ++ added)
    (hadded : added.Sublist (countPoint deviceId act).toList)
    (hstores : added = (countPoint deviceId act).toList ↔ s.StoresPoint deviceId act) :
    PointAccount deviceId (t ++ [(s, act)]) s' := by
  constructor
  · rw [hpoints, countPoints_snoc]
    exact h.sublist.append hadded
  · rw [hpoints, countPoints_snoc, append_eq_append_iff_of_sublist h.sublist hadded, h.complete,
      hstores, TransitionSystem.respects_snoc]

theorem step_pointAccount {deviceId : String} {act : ProcessorAct}
    (h : PointAccount deviceId t s) (hs : processorSystem.step s act = some s') :
    PointAccount deviceId (t ++ [(s, act)]) s' := by
  have hkept : countPoint deviceId act = none → s.StoresPoint deviceId act →
      OrchestratorEventBus.detectionPoints deviceId s'.eventBus.storeCalls =
        OrchestratorEventBus.detectionPoints deviceId s.eventBus.storeCalls →
      PointAccount deviceId (t ++ [(s, act)]) s' := by
    intro hnone hstores hpoints
    refine h.grown (hpoints.trans (List.append_nil _).symm) (List.nil_sublist _) ?_
    rw [hnone]
    exact ⟨fun _ => hstores, fun _ => rfl⟩
  cases act with
  | process result env =>
      obtain rfl := Option.some_inj.mp hs
      refine h.grown (detectionPoints_process s result env deviceId) ?_ ?_
      · split
        · exact List.Sublist.refl _
        · exact List.nil_sublist _
      · by_cases hpoint : result.deviceId = deviceId ∧ result.boxes ≠ []
        · simp [countPoint, StoresPoint, hpoint]
        · rw [countPoint, if_neg hpoint, Option.toList_none, ite_self]
          exact ⟨fun _ hdevice hboxes => absurd ⟨hdevice, hboxes⟩ hpoint, fun _ => rfl⟩
  | analyzed a answers =>
      obtain rfl := Option.some_inj.mp hs
      refine hkept rfl trivial ?_
      rw [OrchestratorEventBus.storeCalls_publish, OrchestratorEventBus.detectionPoints_append]
      split
      · rw [OrchestratorEventBus.detectionPoints_persist_of_ne _
          (by simp [PublishedEvent.vlmAnalysis]), List.append_nil]
      · exact List.append_nil _
  | get q =>
      obtain ⟨⟨x, bus⟩, hget, rfl⟩ := Option.map_eq_some_iff.mp hs
      obtain ⟨⟨x, m⟩, -, heq⟩ := Option.map_eq_some_iff.mp hget
      obtain ⟨rfl, rfl⟩ := Prod.mk.inj heq
      exact hkept rfl trivial rfl
  | takeItem =>
      obtain ⟨r, -, rfl⟩ := Option.map_eq_some_iff.mp hs
      exact hkept rfl trivial rfl
  | setRules | setEngine | shutdown | subscribe | unsubscribe =>
      obtain rfl := Option.some_inj.mp hs
      exact hkept rfl trivial rfl

/-- The time series of a device holds the numbers of detections of its results in their order,
and every one of them exactly when both calls of the store return for each result that has
detections, whatever is published between. -/
theorem points_stored (hinit : processorSystem.init s₀) (hrun : processorSystem.Run s₀ t s)
    (deviceId : String) : PointAccount deviceId t s := by
  obtain ⟨style, behaviorAnalyzer, anomalyBaseline, alertManager, vlmRules, bus, hbus, rfl⟩ := hinit
  obtain ⟨dumps, detectionStore, maxlen, rfl⟩ := hbus
  refine hrun.invariant_history (I := PointAccount deviceId)
    (fun _ _ _ _ h hs => step_pointAccount h hs) ⟨List.Sublist.refl [], ?_⟩
  exact ⟨fun _ => TransitionSystem.respects_nil, fun _ => rfl⟩

theorem points_stored_sample :
    ∃ t s, processorSystem.Run sample t s ∧ t.map Prod.snd = sampleActs ∧
      PointAccount "gate" t s ∧
      OrchestratorEventBus.detectionPoints "gate" s.eventBus.storeCalls = [(const 1, 0)] := by
  have hview : (processorSystem.execTrace sample sampleActs).map
      (fun r => OrchestratorEventBus.detectionPoints "gate" r.2.eventBus.storeCalls) =
        some [(const 1, 0)] := by decide +kernel
  obtain ⟨t, s, hrun, hlabels, hpoints⟩ := TransitionSystem.exists_run_of_execTrace hview
  exact ⟨t, s, hrun, hlabels, points_stored sample_init hrun "gate", hpoints⟩

end DetectionProcessor
