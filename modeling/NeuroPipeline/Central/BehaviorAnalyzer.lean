-- SUMMARY: Behaviour analysis: crowds in a frame, and persons that loiter according to the stored events.
import Mathlib.Data.Finset.Card
import NeuroPipeline.Central.StoreQueries

/-!
# Behaviour analysis

Model of behavior_analyzer.py. Numbers are exact, and a division by zero raises.
-/

inductive BehaviorAnalyzer.BehaviorType where
  | loitering
  | running
  | lingering
  | crowd
  | unusualTime
  deriving DecidableEq

inductive BehaviorMetadata where
  | crowd (className : String) (count : Nat)
  | loitering (durationEstimate : ℚ) (bucketCount : Nat)
  deriving DecidableEq

structure BehaviorEvent where
  behaviorType : BehaviorAnalyzer.BehaviorType
  deviceId : String
  confidence : ℚ
  description : String
  timestamp : ℚ
  metadata : BehaviorMetadata
  deriving DecidableEq

structure BehaviorAnalyzer where
  loiterThreshold : ℚ := 120
  crowdThreshold : Int := 5
  analysisWindow : ℚ := 300

namespace BehaviorAnalyzer

variable (a : BehaviorAnalyzer)

/-- The outcome of a check; `none` when it has raised. -/
abbrev Check := Option (Option BehaviorEvent)

/-- `count / (2 * threshold)`, at most 1. -/
def confidence (amount threshold : ℚ) : Option ℚ :=
  if threshold = 0 then none else some (min 1 (amount / (threshold * 2)))

/-! ## Crowds -/

def checkCrowd (deviceId : String) (detections : List StoredDetection) (timestamp : ℚ) : Check :=
  let counts := classCounts (detections.map fun d => d.className.getD "")
  match counts.find? fun p => a.crowdThreshold ≤ p.2 with
  | none => some none
  | some (className, count) =>
    (confidence count a.crowdThreshold).map fun confidence =>
      some {
        behaviorType := .crowd, deviceId := deviceId, confidence := confidence
        description := toString count ++ " " ++ className ++ " objects detected (threshold: " ++
          toString a.crowdThreshold ++ ")"
        timestamp := timestamp, metadata := .crowd className count }

/-! ## Loitering -/

def hasPerson (detections : List StoredDetection) : Bool :=
  detections.any fun d => d.className = some "person"

/-- `int(timestamp / 10)` -/
def bucket (timestamp : ℚ) : Int := truncated (timestamp / 10)

/-- The buckets in which persons were detected. -/
def personBuckets (history : List StoredEvent) : Finset Int :=
  ((history.filter fun e => hasPerson e.detections).map fun e => bucket e.timestamp).toFinset

def queryLimit : Nat := 200

def loiteringFrom (deviceId : String) (current : List StoredDetection) (timestamp : ℚ)
    (history : List StoredEvent) : Check :=
  if history.isEmpty then some none
  else if !hasPerson current then some none
  else
    let duration : ℚ := (personBuckets history).card * 10
    if a.loiterThreshold ≤ duration then
      (confidence duration a.loiterThreshold).map fun confidence =>
        some {
          behaviorType := .loitering, deviceId := deviceId, confidence := confidence
          description := "Person detected across ~" ++ wholeText duration ++
            "s window (threshold: " ++ wholeText a.loiterThreshold ++ "s)"
          timestamp := timestamp
          metadata := .loitering duration (personBuckets history).card }
    else some none

/-- A query that raises is only logged. -/
def checkLoitering (store : StoreReads) (deviceId : String) (current : List StoredDetection)
    (timestamp now : ℚ) : Check :=
  match store.query (timestamp - a.analysisWindow) timestamp queryLimit deviceId now with
  | none => some none
  | some history => a.loiteringFrom deviceId current timestamp history

/-! ## Analysis -/

/-- The clock is read for a missing timestamp, and by the query for a range without end. -/
def analyze (store : Option StoreReads) (deviceId : String) (current : List StoredDetection)
    (timestamp calledAt queriedAt : ℚ) : Option (List BehaviorEvent) := do
  let ts := orNow timestamp calledAt
  let crowd ← a.checkCrowd deviceId current ts
  let loiter ← match store with
    | none => some none
    | some store => a.checkLoitering store deviceId current ts queriedAt
  return crowd.toList ++ loiter.toList

/-- The events that an analysis reads: the newest of its window. -/
def history (store : StoreReads) (deviceId : String) (timestamp now : ℚ) : List StoredEvent :=
  store.newest (timestamp - a.analysisWindow) (StoreReads.readUntil timestamp now) deviceId
    queryLimit

/-- Persons in so many buckets as the threshold asks for. -/
def LongEnough (events : List StoredEvent) : Prop :=
  a.loiterThreshold ≤ 10 * (personBuckets events).card

instance (events : List StoredEvent) : Decidable (a.LongEnough events) :=
  inferInstanceAs (Decidable (a.loiterThreshold ≤ 10 * (personBuckets events).card))

def ReportsLoitering (result : Option (List BehaviorEvent)) : Prop :=
  ∃ events, result = some events ∧ ∃ e ∈ events, e.behaviorType = .loitering

/-- Who has been in the window long enough, and is in the frame, is reported. -/
def DetectsLoitering (store : StoreReads) (deviceId : String) (current : List StoredDetection)
    (timestamp calledAt queriedAt : ℚ) : Prop :=
  let ts := orNow timestamp calledAt
  a.LongEnough (store.matching (ts - a.analysisWindow) ts deviceId) → hasPerson current = true →
    ReportsLoitering (a.analyze (some store) deviceId current timestamp calledAt queriedAt)

/-- No check raises, and the events that are read are enough. -/
structure Notices (store : StoreReads) (deviceId : String) (ts queriedAt : ℚ) : Prop where
  crowdThreshold : a.crowdThreshold ≠ 0
  loiterThreshold : a.loiterThreshold ≠ 0
  answers : store.Answers
  nonempty : a.history store deviceId ts queriedAt ≠ []
  longEnough : a.LongEnough (a.history store deviceId ts queriedAt)

variable {a} {store : StoreReads} {deviceId : String} {current : List StoredDetection}
  {timestamp calledAt queriedAt : ℚ}

/-! ## Checks -/

theorem confidence_eq_none {amount threshold : ℚ} :
    confidence amount threshold = none ↔ threshold = 0 := by
  simp [confidence]

/-- The check for crowds raises when it divides by the threshold. -/
theorem checkCrowd_isSome (deviceId : String) (timestamp : ℚ) (h : current ≠ []) :
    (a.checkCrowd deviceId current timestamp).isSome = true ↔ a.crowdThreshold ≠ 0 := by
  have hclasses : current.map (fun d => d.className.getD "") ≠ [] := by simpa using h
  rw [checkCrowd]
  cases hfind : (classCounts (current.map fun d => d.className.getD "")).find?
      fun p => decide (a.crowdThreshold ≤ p.2) with
  | none =>
      simp only [Option.isSome_some, true_iff]
      intro hzero
      obtain ⟨p, hp⟩ := List.exists_mem_of_ne_nil _ (classCounts_ne_nil hclasses)
      have hnot := List.find?_eq_none.mp hfind p hp
      simp [hzero] at hnot
  | some p =>
      rw [Option.isSome_map, Option.isSome_iff_ne_none, ne_eq, confidence_eq_none]
      simp

theorem checkCrowd_type {deviceId : String} {timestamp : ℚ} {e : BehaviorEvent}
    (h : a.checkCrowd deviceId current timestamp = some (some e)) : e.behaviorType = .crowd := by
  rw [checkCrowd] at h
  split at h
  · cases h
  · obtain ⟨c, -, he⟩ := Option.map_eq_some_iff.mp h
    obtain rfl := Option.some.inj he
    rfl

/-- With a person in the frame, what the history has to be for a report. -/
theorem loiteringFrom_eq {deviceId : String} {timestamp : ℚ} {history : List StoredEvent}
    (hperson : hasPerson current = true) :
    (∃ e, a.loiteringFrom deviceId current timestamp history = some (some e) ∧
      e.behaviorType = .loitering) ↔
      a.loiterThreshold ≠ 0 ∧ history ≠ [] ∧ a.LongEnough history := by
  have hduration : a.LongEnough history ↔
      a.loiterThreshold ≤ ((personBuckets history).card * 10 : ℚ) := by
    rw [LongEnough, mul_comm]
  rw [loiteringFrom, hduration, hperson]
  simp only [Bool.not_true, Bool.false_eq_true, if_false]
  by_cases hempty : history = []
  · simp [hempty]
  by_cases hlong : a.loiterThreshold ≤ ((personBuckets history).card * 10 : ℚ)
  · by_cases hzero : a.loiterThreshold = 0
    · simp [hempty, hzero, confidence]
    · simp [hempty, hlong, hzero, confidence]
  · simp [hempty, hlong]

theorem checkLoitering_eq {ts : ℚ} (hperson : hasPerson current = true) :
    (∃ e, a.checkLoitering store deviceId current ts queriedAt = some (some e) ∧
      e.behaviorType = .loitering) ↔
      a.loiterThreshold ≠ 0 ∧ store.Answers ∧ a.history store deviceId ts queriedAt ≠ [] ∧
        a.LongEnough (a.history store deviceId ts queriedAt) := by
  rw [checkLoitering]
  by_cases hanswers : store.Answers
  · have hquery : store.query (ts - a.analysisWindow) ts queryLimit deviceId queriedAt =
        some (a.history store deviceId ts queriedAt) :=
      StoreReads.retrySync_of_answers hanswers _
    rw [hquery]
    simpa only [hanswers, true_and] using loiteringFrom_eq hperson
  · rw [StoreReads.query, StoreReads.retrySync_of_not_answers hanswers]
    simp [hanswers]

/-! ## Reports -/

theorem reportsLoitering_iff (hperson : hasPerson current = true) :
    ReportsLoitering (a.analyze (some store) deviceId current timestamp calledAt queriedAt) ↔
      a.Notices store deviceId (orNow timestamp calledAt) queriedAt := by
  have hcurrent : current ≠ [] := by
    intro hnil
    simp [hnil, hasPerson] at hperson
  have hcrowd : (a.checkCrowd deviceId current (orNow timestamp calledAt)).isSome = true ↔
      a.crowdThreshold ≠ 0 := checkCrowd_isSome _ _ hcurrent
  have hloiter : (∃ e, a.checkLoitering store deviceId current (orNow timestamp calledAt)
      queriedAt = some (some e) ∧ e.behaviorType = .loitering) ↔ _ := checkLoitering_eq hperson
  have hresult : a.analyze (some store) deviceId current timestamp calledAt queriedAt =
      (a.checkCrowd deviceId current (orNow timestamp calledAt)).bind fun crowd =>
        (a.checkLoitering store deviceId current (orNow timestamp calledAt) queriedAt).bind
          fun loiter => some (crowd.toList ++ loiter.toList) := rfl
  constructor
  · rintro ⟨events, hevents, e, he, htype⟩
    rw [hresult] at hevents
    obtain ⟨crowd, hcrowded, hrest⟩ := Option.bind_eq_some_iff.mp hevents
    obtain ⟨loiter, hloitering, hlast⟩ := Option.bind_eq_some_iff.mp hrest
    obtain rfl := Option.some.inj hlast
    rcases List.mem_append.mp he with hmem | hmem
    · -- a crowd is no loitering
      obtain rfl := Option.mem_toList.mp hmem
      cases (checkCrowd_type hcrowded).symm.trans htype
    · obtain rfl := Option.mem_toList.mp hmem
      obtain ⟨hzero, hanswers, hnonempty, hlong⟩ := hloiter.mp ⟨e, hloitering, htype⟩
      exact ⟨hcrowd.mp (by rw [hcrowded]; rfl), hzero, hanswers, hnonempty, hlong⟩
  · intro h
    obtain ⟨e, hloitering, htype⟩ :=
      hloiter.mpr ⟨h.loiterThreshold, h.answers, h.nonempty, h.longEnough⟩
    obtain ⟨crowd, hcrowded⟩ := Option.isSome_iff_exists.mp (hcrowd.mpr h.crowdThreshold)
    refine ⟨crowd.toList ++ [e], ?_, e, by simp, htype⟩
    rw [hresult, hcrowded, hloitering]
    rfl

/-- The events of a window are all read if they are not more than the limit. -/
theorem longEnough_history {ts : ℚ} (hts : 0 < ts)
    (hfew : (store.matching (ts - a.analysisWindow) ts deviceId).length ≤ queryLimit) :
    a.LongEnough (a.history store deviceId ts queriedAt) ↔
      a.LongEnough (store.matching (ts - a.analysisWindow) ts deviceId) := by
  have hread : a.history store deviceId ts queriedAt =
      store.newest (ts - a.analysisWindow) ts deviceId queryLimit := by
    rw [history, StoreReads.readUntil_of_pos hts]
  have hbuckets : personBuckets (a.history store deviceId ts queriedAt) =
      personBuckets (store.matching (ts - a.analysisWindow) ts deviceId) := by
    rw [hread, personBuckets, personBuckets]
    exact List.toFinset_eq_of_perm _ _ (((StoreReads.newest_perm hfew).filter _).map _)
  rw [LongEnough, LongEnough, hbuckets]

/-- Loitering is detected just when the newest events of the window, up to the limit, still
show it. -/
theorem detectsLoitering_iff : a.DetectsLoitering store deviceId current timestamp calledAt
      queriedAt ↔
    ¬ (a.LongEnough (store.matching (orNow timestamp calledAt - a.analysisWindow)
        (orNow timestamp calledAt) deviceId) ∧ hasPerson current = true) ∨
      a.Notices store deviceId (orNow timestamp calledAt) queriedAt := by
  constructor
  · intro h
    by_cases hseen : a.LongEnough (store.matching (orNow timestamp calledAt - a.analysisWindow)
        (orNow timestamp calledAt) deviceId) ∧ hasPerson current = true
    · exact .inr ((reportsLoitering_iff hseen.2).mp (h hseen.1 hseen.2))
    · exact .inl hseen
  · intro h hlong hperson
    rcases h with hunseen | hnotices
    · exact absurd ⟨hlong, hperson⟩ hunseen
    · exact (reportsLoitering_iff hperson).mpr hnotices

/-! ## A busy street -/

/-- A person every ten seconds for two minutes, and then cars. -/
def busyStreet : StoreReads :=
  sampleReads (((List.range 12).map fun n : Nat => detectionRow (800 + 10 * n) personJson "cam") ++
    List.replicate 200 (detectionRow 990 carJson "cam"))

/-- Two hundred cars hide the person, who is still in the frame. -/
theorem not_detectsLoitering_busyStreet :
    ¬ ({} : BehaviorAnalyzer).DetectsLoitering busyStreet "cam" [⟨some "person"⟩]
      1000 1000 1000 := by
  intro h
  obtain ⟨events, hevents, e, he, -⟩ := h (by decide +kernel) (by decide +kernel)
  have hnone : ({} : BehaviorAnalyzer).analyze (some busyStreet) "cam" [⟨some "person"⟩]
      1000 1000 1000 = some [] := by decide +kernel
  rw [hnone] at hevents
  obtain rfl := Option.some.inj hevents
  cases he

end BehaviorAnalyzer
