-- SUMMARY: The orchestrator's event bus: its recent events, its listeners with their bounded queues, and its calls of the store.
import Mathlib.Data.List.Nodup
import NeuroPipeline.Central.StoreRecords
import NeuroPipeline.Central.VlmPipeline
import NeuroPipeline.Lib.Mailbox
import NeuroPipeline.Lib.Window

/-!
# Event bus of the orchestrator

Model of event_bus.py. `publish` waits for nothing, so that it is one step: the event goes to
the buffer of recent events, to the store, and to the queue of each listener. A queue stays
with the one who has it when he unsubscribes.
-/

open CFloat (const)

/-- The keys of an event; `none` for a key that is not there. -/
structure PublishedEvent where
  type : Option String := none
  frameId : Option Nat := none
  traceId : Option String := none
  deviceId : Option String := none
  detections : Option (List DetectionDict) := none
  vlmResult : Option String := none
  rule : Option String := none
  behaviorType : Option String := none
  confidence : Option ℚ := none
  description : Option String := none
  metricName : Option String := none
  value : Option Binary64 := none
  zScore : Option Binary64 := none
  baselineMean : Option Binary64 := none
  timestamp : Option ℚ := none
  deriving DecidableEq

namespace PublishedEvent

/-- What `record` of the store reads of it, with `json.dumps`. -/
def record (dumps : List DetectionDict → String) (e : PublishedEvent) : DetectionEvent where
  timestamp := e.timestamp
  frameId := e.frameId.map Int.ofNat
  traceId := e.traceId
  type := e.type
  detections := e.detections.map dumps
  vlmResult := e.vlmResult
  rule := e.rule
  deviceId := e.deviceId

/-- The points that are written with it. -/
def points (e : PublishedEvent) (now : ℚ) : List StoreRecord :=
  let deviceId := e.deviceId.getD ""
  let ts := e.timestamp.getD now
  let detections := e.detections.getD []
  let counted :=
    if e.type = some "detection" ∧ detections ≠ [] then
      [.timeseries deviceId "detections_count" (const detections.length) ts]
    else []
  let analyzed :=
    if e.type = some "vlm_analysis" then
      [.timeseries deviceId "vlm_analyses_count" (const 1) ts]
    else []
  counted ++ analyzed

end PublishedEvent

/-- How the calls of the store end while an event is published: `true` when they return. -/
structure StoreAnswers where
  record : Bool := true
  recordTimeseries : Bool := true
  deriving DecidableEq

structure StoreCall where
  record : StoreRecord
  returned : Bool
  deriving DecidableEq

/-- The listeners are the queues at these places. -/
structure OrchestratorEventBus where
  dumps : List DetectionDict → String
  /-- whether there is a store -/
  detectionStore : Bool
  maxlen : Nat
  recentEvents : List PublishedEvent := []
  listeners : List Nat := []
  queues : List (Mailbox PublishedEvent 50) := []
  storeCalls : List StoreCall := []
  eventsStored : Nat := 0
  listeners_nodup : listeners.Nodup := by exact List.nodup_nil
  listeners_lt : ∀ q ∈ listeners, q < queues.length := by exact fun _ h => absurd h List.not_mem_nil

inductive EventBusAct where
  | publish (event : PublishedEvent) (now : ℚ) (answers : StoreAnswers)
  | subscribe
  | unsubscribe (q : Nat)
  /-- the one who has the queue takes an event from it -/
  | get (q : Nat)

namespace OrchestratorEventBus

/-- `__init__`. -/
def new (dumps : List DetectionDict → String) (detectionStore : Bool) (maxlen : Nat) :
    OrchestratorEventBus :=
  { dumps, detectionStore, maxlen }

variable (s : OrchestratorEventBus)

/-- The calls of the store for one event: an exception ends them. -/
def persist (e : PublishedEvent) (now : ℚ) (answers : StoreAnswers) : List StoreCall :=
  let recorded : StoreCall := ⟨.detection (e.record s.dumps), answers.record⟩
  if answers.record then
    recorded :: (e.points now).map fun point => ⟨point, answers.recordTimeseries⟩
  else [recorded]

/-- `put_nowait` to each listener. -/
def notify (e : PublishedEvent) (listeners : List Nat) (queues : List (Mailbox PublishedEvent 50)) :
    List (Mailbox PublishedEvent 50) :=
  listeners.foldl (fun queues q => queues.modify q (·.offer e)) queues

@[simp] theorem length_notify (e : PublishedEvent) (listeners : List Nat)
    (queues : List (Mailbox PublishedEvent 50)) :
    (notify e listeners queues).length = queues.length := by
  induction listeners generalizing queues with
  | nil => rfl
  | cons q rest ih =>
      rw [notify, List.foldl_cons]
      exact (ih _).trans (List.length_modify _ _ _)

def publish (e : PublishedEvent) (now : ℚ) (answers : StoreAnswers) : OrchestratorEventBus where
  dumps := s.dumps
  detectionStore := s.detectionStore
  maxlen := s.maxlen
  recentEvents := (s.recentEvents ++ [e]).rtake s.maxlen
  listeners := s.listeners
  queues := notify e s.listeners s.queues
  storeCalls := s.storeCalls ++ if s.detectionStore then s.persist e now answers else []
  eventsStored :=
    if s.detectionStore && answers.record then s.eventsStored + 1 else s.eventsStored
  listeners_nodup := s.listeners_nodup
  listeners_lt q h := by rw [length_notify]; exact s.listeners_lt q h

def subscribe : OrchestratorEventBus :=
  { s with
    listeners := s.listeners ++ [s.queues.length]
    queues := s.queues ++ [{}]
    listeners_nodup := by
      refine List.nodup_append.mpr ⟨s.listeners_nodup, List.nodup_singleton _, ?_⟩
      intro q hq r hr
      rw [List.mem_singleton.mp hr]
      exact (s.listeners_lt q hq).ne
    listeners_lt := by
      intro q hq
      rw [List.length_append, List.length_singleton]
      rcases List.mem_append.mp hq with hq | hq
      · exact Nat.lt_succ_of_lt (s.listeners_lt q hq)
      · rw [List.mem_singleton.mp hq]
        exact Nat.lt_succ_self _ }

def unsubscribe (q : Nat) : OrchestratorEventBus :=
  { s with
    listeners := s.listeners.erase q
    listeners_nodup := s.listeners_nodup.erase q
    listeners_lt := fun r hr => s.listeners_lt r (List.mem_of_mem_erase hr) }

/-- The queue at a place; one that is not there yet is empty. -/
def queue (q : Nat) : Mailbox PublishedEvent 50 := s.queues[q]?.getD {}

def setQueue (q : Nat) (m : Mailbox PublishedEvent 50) : OrchestratorEventBus :=
  { s with
    queues := s.queues.set q m
    listeners_lt := fun r hr => by rw [List.length_set]; exact s.listeners_lt r hr }

def get (q : Nat) : Option (PublishedEvent × OrchestratorEventBus) :=
  (s.queue q).take.map fun r => (r.1, s.setQueue q r.2)

/-- `events[-limit:]` -/
def lastEvents (limit : Int) (events : List PublishedEvent) : List PublishedEvent :=
  -- a limit that is not positive is a start that is not negative
  if 0 < limit then events.rtake limit.toNat else events.drop (-limit).toNat

/-- Whether `get_recent` returns the event, where no device stands for all. -/
def ofDevice (deviceId : String) (e : PublishedEvent) : Bool :=
  deviceId = "" || e.deviceId = some deviceId

def getRecent (limit : Int) (deviceId : String) : List PublishedEvent :=
  lastEvents limit (s.recentEvents.filter (ofDevice deviceId))

def step : EventBusAct → Option OrchestratorEventBus
  | .publish e now answers => some (s.publish e now answers)
  | .subscribe => some s.subscribe
  | .unsubscribe q => some (s.unsubscribe q)
  | .get q => (s.get q).map Prod.snd

end OrchestratorEventBus

def eventBusSystem : TransitionSystem OrchestratorEventBus EventBusAct where
  init s := ∃ dumps detectionStore maxlen, s = .new dumps detectionStore maxlen
  step := OrchestratorEventBus.step

namespace OrchestratorEventBus

variable {s s' s₀ : OrchestratorEventBus} {t : List (OrchestratorEventBus × EventBusAct)}
  {e : PublishedEvent}

/-! ## Listeners -/

theorem getElem?_notify {listeners : List Nat} (h : listeners.Nodup) (e : PublishedEvent)
    (queues : List (Mailbox PublishedEvent 50)) (q : Nat) :
    (notify e listeners queues)[q]? =
      if q ∈ listeners then queues[q]?.map (·.offer e) else queues[q]? := by
  induction listeners generalizing queues with
  | nil => simp [notify]
  | cons r rest ih =>
      obtain ⟨hr, hrest⟩ := List.nodup_cons.mp h
      have hfold : notify e (r :: rest) queues = notify e rest (queues.modify r (·.offer e)) := rfl
      rw [hfold, ih hrest, List.getElem?_modify]
      by_cases heq : r = q
      · subst heq
        simp [hr]
      · have hne : q ≠ r := Ne.symm heq
        simp [heq, hne]

theorem queue_publish (q : Nat) (now : ℚ) (answers : StoreAnswers) :
    (s.publish e now answers).queue q =
      if q ∈ s.listeners then (s.queue q).offer e else s.queue q := by
  have hqueues : (s.publish e now answers).queues = notify e s.listeners s.queues := rfl
  rw [queue, hqueues, getElem?_notify s.listeners_nodup]
  split
  · next h =>
      have hlt := s.listeners_lt q h
      rw [queue, List.getElem?_eq_getElem hlt]
      rfl
  · rfl

theorem queue_subscribe (q : Nat) : s.subscribe.queue q = s.queue q := by
  have hqueues : s.subscribe.queues = s.queues ++ [({} : Mailbox PublishedEvent 50)] := rfl
  rw [queue, hqueues, queue]
  rcases Nat.lt_trichotomy q s.queues.length with hlt | rfl | hgt
  · rw [List.getElem?_append_left hlt]
  · rw [List.getElem?_concat_length, List.getElem?_eq_none (Nat.le_refl _)]
    rfl
  · have hlength : (s.queues ++ [({} : Mailbox PublishedEvent 50)]).length ≤ q := by
      rw [List.length_append, List.length_singleton]
      exact hgt
    rw [List.getElem?_eq_none hlength, List.getElem?_eq_none hgt.le]

theorem queue_setQueue (q r : Nat) (m : Mailbox PublishedEvent 50) (h : r < s.queues.length) :
    (s.setQueue r m).queue q = if q = r then m else s.queue q := by
  have hqueues : (s.setQueue r m).queues = s.queues.set r m := rfl
  rw [queue, hqueues, queue, List.getElem?_set]
  by_cases heq : r = q
  · subst heq
    simp [h]
  · have hne : q ≠ r := Ne.symm heq
    simp [heq, hne]

/-- A queue that is not there has nothing to take. -/
theorem lt_of_take {q : Nat} {r : PublishedEvent × Mailbox PublishedEvent 50}
    (h : (s.queue q).take = some r) : q < s.queues.length := by
  by_contra hge
  rw [queue, List.getElem?_eq_none (Nat.le_of_not_lt hge)] at h
  cases h

/-- What an operation of the bus does to one queue. -/
def seenBy (q : Nat) (s : OrchestratorEventBus) : EventBusAct → Option (MailboxAct PublishedEvent)
  | .publish e _ _ => if q ∈ s.listeners then some (.offer e) else none
  | .subscribe | .unsubscribe _ => none
  | .get r => if r = q then some .take else none

theorem projects_queue (q : Nat) :
    eventBusSystem.Projects (Mailbox.system PublishedEvent 50) (·.queue q) (seenBy q) := by
  intro s act s' hs
  cases act with
  | publish e now answers =>
      obtain rfl := Option.some_inj.mp hs
      have hqueue := queue_publish (s := s) (e := e) q now answers
      by_cases hmem : q ∈ s.listeners
      · rw [if_pos hmem] at hqueue
        simp only [seenBy, if_pos hmem]
        exact congrArg some hqueue.symm
      · rw [if_neg hmem] at hqueue
        simp only [seenBy, if_neg hmem]
        exact hqueue
  | subscribe =>
      obtain rfl := Option.some_inj.mp hs
      exact queue_subscribe q
  | unsubscribe r =>
      obtain rfl := Option.some_inj.mp hs
      rfl
  | get r =>
      simp only [eventBusSystem, step, get, Option.map_map, Option.map_eq_some_iff] at hs
      obtain ⟨⟨x, m⟩, htake, rfl⟩ := hs
      have hqueue := queue_setQueue (s := s) q r m (lt_of_take htake)
      by_cases heq : r = q
      · subst heq
        rw [if_pos rfl] at hqueue
        simp only [seenBy, if_true, Function.comp_apply, Mailbox.system]
        rw [htake, hqueue]
        rfl
      · rw [if_neg (Ne.symm heq)] at hqueue
        simp only [seenBy, if_neg heq]
        exact hqueue

/-- What is done with one queue in the course of a run. -/
def dealings (q : Nat) (t : List (OrchestratorEventBus × EventBusAct)) :
    List (MailboxAct PublishedEvent) :=
  t.filterMap fun p => seenBy q p.1 p.2

theorem dealings_eq (q : Nat) : dealings q t =
    (TransitionSystem.projectTrace (fun s : OrchestratorEventBus => s.queue q) (seenBy q) t).map
      Prod.snd := by
  rw [dealings, TransitionSystem.projectTrace, List.map_filterMap]
  refine List.filterMap_congr fun p _ => ?_
  cases seenBy q p.1 p.2 <;> rfl

theorem queue_account (hinit : eventBusSystem.init s₀) (hrun : eventBusSystem.Run s₀ t s) (q : Nat) :
    Mailbox.Account
      (TransitionSystem.projectTrace (fun s : OrchestratorEventBus => s.queue q) (seenBy q) t)
      (s.queue q) := by
  refine Mailbox.run_account ?_ (hrun.project (projects_queue q))
  obtain ⟨dumps, detectionStore, maxlen, rfl⟩ := hinit
  rfl

/-- The events that are published while the queue is one of a listener. -/
def addressed (q : Nat) (t : List (OrchestratorEventBus × EventBusAct)) : List PublishedEvent :=
  Mailbox.offers (dealings q t)

/-- A listener hears events in the order in which they are published, each at most once, and
he hears all that are published while he listens exactly when he is never more than fifty of
them behind. -/
theorem heard_eq_addressed_iff (hinit : eventBusSystem.init s₀) (hrun : eventBusSystem.Run s₀ t s)
    (q : Nat) :
    (s.queue q).heard.Sublist (addressed q t) ∧
      ((s.queue q).heard = addressed q t ↔ Mailbox.KeepsUp 50 (dealings q t)) := by
  have haccount := queue_account hinit hrun q
  rw [addressed, dealings_eq]
  exact ⟨haccount.sublist, haccount.lossless⟩

/-- He takes one event, the other waits, and what comes after he has gone is not for him. -/
theorem heard_eq_addressed_iff_run :
    ∃ t s, eventBusSystem.Run (.new (fun _ => "") false 100) t s ∧
      t.map Prod.snd = [.subscribe, .publish { frameId := some 1 } 0 {}, .get 0,
        .publish { frameId := some 2 } 0 {}, .unsubscribe 0,
        .publish { frameId := some 3 } 0 {}] ∧
      (s.queue 0).heard = [{ frameId := some 1 }, { frameId := some 2 }] ∧
      (s.queue 0).heard.Sublist (addressed 0 t) := by
  have hview : (eventBusSystem.execTrace (.new (fun _ => "") false 100)
      [.subscribe, .publish { frameId := some 1 } 0 {}, .get 0,
        .publish { frameId := some 2 } 0 {}, .unsubscribe 0,
        .publish { frameId := some 3 } 0 {}]).map (fun r => (r.2.queue 0).heard) =
      some [{ frameId := some 1 }, { frameId := some 2 }] := by decide +kernel
  obtain ⟨t, s, hrun, hlabels, hheard⟩ := TransitionSystem.exists_run_of_execTrace hview
  exact ⟨t, s, hrun, hlabels, hheard, (heard_eq_addressed_iff ⟨_, _, _, rfl⟩ hrun 0).1⟩

/-! ## Recent events -/

/-- The event that an operation publishes. -/
def publishing : EventBusAct → Option PublishedEvent
  | .publish e _ _ => some e
  | .subscribe | .unsubscribe _ | .get _ => none

def published (t : List (OrchestratorEventBus × EventBusAct)) : List PublishedEvent :=
  t.filterMap fun p => publishing p.2

/-- What a step does to all but the listeners and their queues. -/
inductive Moves (s : OrchestratorEventBus) : EventBusAct → OrchestratorEventBus → Prop where
  | published (e : PublishedEvent) (now : ℚ) (answers : StoreAnswers) :
      Moves s (.publish e now answers) (s.publish e now answers)
  | kept {act : EventBusAct} {s' : OrchestratorEventBus} (hact : publishing act = none)
      (recentEvents : s'.recentEvents = s.recentEvents) (maxlen : s'.maxlen = s.maxlen)
      (storeCalls : s'.storeCalls = s.storeCalls) (eventsStored : s'.eventsStored = s.eventsStored) :
      Moves s act s'

theorem step_moves {act : EventBusAct} (hs : eventBusSystem.step s act = some s') :
    s.Moves act s' := by
  cases act with
  | publish e now answers =>
      obtain rfl := Option.some_inj.mp hs
      exact .published e now answers
  | subscribe =>
      obtain rfl := Option.some_inj.mp hs
      exact .kept rfl rfl rfl rfl rfl
  | unsubscribe q =>
      obtain rfl := Option.some_inj.mp hs
      exact .kept rfl rfl rfl rfl rfl
  | get q =>
      obtain ⟨r, hget, rfl⟩ := Option.map_eq_some_iff.mp hs
      obtain ⟨r, -, rfl⟩ := Option.map_eq_some_iff.mp hget
      exact .kept rfl rfl rfl rfl rfl

theorem published_snoc (act : EventBusAct) :
    published (t ++ [(s, act)]) = published t ++ (publishing act).toList := by
  rw [published, List.filterMap_append]
  cases h : publishing act <;> simp [h, published]

theorem recentEvents_eq (hinit : eventBusSystem.init s₀) (hrun : eventBusSystem.Run s₀ t s) :
    s.recentEvents = (published t).rtake s.maxlen ∧ s.maxlen = s₀.maxlen := by
  refine hrun.invariant_history
    (I := fun t s => s.recentEvents = (published t).rtake s.maxlen ∧ s.maxlen = s₀.maxlen) ?_ ?_
  · rintro t s act s' ⟨hrecent, hmaxlen⟩ hs
    rw [published_snoc]
    cases step_moves hs with
    | published e now answers =>
        have hevents : (s.publish e now answers).recentEvents =
            (s.recentEvents ++ [e]).rtake s.maxlen := rfl
        rw [hevents, hrecent, List.rtake_rtake_concat]
        exact ⟨rfl, hmaxlen⟩
    | kept hact hrecent' hmaxlen' =>
        rw [hact, Option.toList_none, List.append_nil, hrecent', hmaxlen']
        exact ⟨hrecent, hmaxlen⟩
  · obtain ⟨dumps, detectionStore, maxlen, rfl⟩ := hinit
    exact ⟨(List.rtake_nil maxlen).symm, rfl⟩

/-- The newest events of a device: those that are asked for, of what the buffer still has. -/
theorem getRecent_eq (hinit : eventBusSystem.init s₀) (hrun : eventBusSystem.Run s₀ t s)
    {limit : Nat} (hlimit : 0 < limit) (deviceId : String) :
    s.getRecent limit deviceId = ((published t).filter (ofDevice deviceId)).rtake
      (min limit (((published t).rtake s₀.maxlen).countP (ofDevice deviceId))) := by
  obtain ⟨hrecent, hmaxlen⟩ := recentEvents_eq hinit hrun
  have hpos : (0 : Int) < limit := Int.natCast_pos.mpr hlimit
  rw [getRecent, lastEvents, if_pos hpos, Int.toNat_natCast, hrecent, hmaxlen, List.filter_rtake,
    List.rtake_rtake]

/-- The buffer has dropped the first event of the device. -/
theorem getRecent_eq_run :
    ∃ t s, eventBusSystem.Run (.new (fun _ => "") false 2) t s ∧
      t.map Prod.snd = [.publish { deviceId := some "gate" } 0 {},
        .publish { deviceId := some "gate", frameId := some 1 } 0 {},
        .publish { deviceId := some "yard" } 0 {}] ∧
      s.getRecent 5 "gate" = [{ deviceId := some "gate", frameId := some 1 }] ∧
      s.getRecent (5 : Nat) "gate" = ((published t).filter (ofDevice "gate")).rtake
        (min 5 (((published t).rtake 2).countP (ofDevice "gate"))) := by
  have hview : (eventBusSystem.execTrace
      (.new (fun _ => "") false 2)
      [.publish { deviceId := some "gate" } 0 {},
        .publish { deviceId := some "gate", frameId := some 1 } 0 {},
        .publish { deviceId := some "yard" } 0 {}]).map (fun r => r.2.getRecent 5 "gate") =
      some [{ deviceId := some "gate", frameId := some 1 }] := by decide +kernel
  obtain ⟨t, s, hrun, hlabels, hrecent⟩ := TransitionSystem.exists_run_of_execTrace hview
  exact ⟨t, s, hrun, hlabels, hrecent, getRecent_eq ⟨_, _, _, rfl⟩ hrun (by omega) "gate"⟩

end OrchestratorEventBus
