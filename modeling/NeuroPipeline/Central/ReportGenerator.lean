-- SUMMARY: Event reports: sections with counts, made of one query with a limit.
import NeuroPipeline.Central.StoreQueries
import NeuroPipeline.Lib.Fallible

/-!
# Event reports

Model of `generate` of report_generator.py. A section keeps what its text is made of.
-/

inductive SectionContent where
  | classDistribution (topClasses : List (String × Nat))
  | highlights (lines : List String)
  | behaviorAlerts (count : Nat)
  | anomalies (count : Nat)
  deriving DecidableEq

def SectionContent.text : SectionContent → String
  | .classDistribution topClasses =>
    topClasses.foldl (fun content p => content ++ "  " ++ p.1 ++ ": " ++ toString p.2 ++ "\n")
      "Detection class distribution:\n"
  | .highlights lines => String.intercalate "\n" lines
  | .behaviorAlerts count => toString count ++ " behavior alerts detected."
  | .anomalies count => toString count ++ " anomalous events detected."

structure ReportSection where
  title : String
  content : SectionContent
  eventCount : Nat := 0
  severity : String := "info"
  deriving DecidableEq

structure EventReport where
  reportId : String
  deviceId : String
  timeRangeHours : ℚ
  generatedAt : ℚ
  sections : List ReportSection := []
  totalEvents : Nat := 0
  summary : String := ""
  deriving DecidableEq

/-- The readings of the clock in the order of the source. -/
structure ReportClock where
  reportId : ℚ
  generatedAt : ℚ
  since : ℚ
  queriedAt : ℚ

namespace ReportGenerator

def queryLimit : Nat := 1000

def ofType (eventType : String) (events : List StoredEvent) : List StoredEvent :=
  events.filter fun e => e.eventType = eventType

/-- The classes of all detections of the events. -/
def detectedClasses (events : List StoredEvent) : List String :=
  (events.flatMap StoredEvent.detections).map fun d => d.className.getD "unknown"

/-- The ten largest counts. The sort is stable. -/
def topClasses (events : List StoredEvent) : List (String × Nat) :=
  ((classCounts (detectedClasses events)).insertionSort fun p q => q.2 ≤ p.2).take 10

/-- A missing result has no first characters: the slice raises. -/
def highlight (e : StoredEvent) : Option String :=
  e.vlmResult.map fun result =>
    "  [" ++ e.ruleMatched.getD "None" ++ "] " ++ String.ofList (result.toList.take 120)

/-- A section on some events, if there are any. -/
def sectionOn (events : List StoredEvent) (s : ReportSection) : List ReportSection :=
  if events.isEmpty then [] else [s]

def detectionSection (events : List StoredEvent) : List ReportSection :=
  sectionOn events {
    title := "Detection Summary", content := .classDistribution (topClasses events)
    eventCount := events.length }

def vlmSection (includeVlm : Bool) (events : List StoredEvent) : Option (List ReportSection) :=
  if includeVlm && !events.isEmpty then
    ((events.take 20).mapM highlight).map fun lines =>
      [{ title := "VLM Analysis Highlights", content := .highlights lines
         eventCount := events.length }]
  else some []

def behaviorSection (events : List StoredEvent) : List ReportSection :=
  sectionOn events {
    title := "Behavior Alerts", content := .behaviorAlerts events.length
    eventCount := events.length, severity := "warning" }

def anomalySection (events : List StoredEvent) : List ReportSection :=
  sectionOn events {
    title := "Anomalies", content := .anomalies events.length
    eventCount := events.length, severity := "critical" }

def newReport (deviceId : String) (timeRangeHours : ℚ) (clock : ReportClock) : EventReport where
  reportId := "rpt-" ++ (if deviceId = "" then "all" else deviceId) ++ "-" ++
    toString (truncated clock.reportId)
  deviceId := deviceId
  timeRangeHours := timeRangeHours
  generatedAt := clock.generatedAt

def reportSummary (deviceId : String) (timeRangeHours : ℚ) (events : List StoredEvent) : String :=
  "Report for " ++ (if deviceId = "" then "all devices" else deviceId) ++ ": " ++
    toString (ofType "detection" events).length ++ " detections, " ++
    toString (ofType "vlm_analysis" events).length ++ " VLM analyses, " ++
    toString (ofType "behavior_alert" events).length ++ " behavior alerts, " ++
    toString (ofType "anomaly_alert" events).length ++ " anomalies " ++
    "over " ++ wholeText timeRangeHours ++ "h."

/-- The report on the events of a query. -/
def reportOn (report : EventReport) (includeVlm : Bool) (events : List StoredEvent) :
    Option EventReport :=
  if events.isEmpty then
    some { report with
      totalEvents := 0
      summary := "No events in the last " ++ wholeText report.timeRangeHours ++ "h." }
  else
    (vlmSection includeVlm (ofType "vlm_analysis" events)).map fun vlm =>
      { report with
        totalEvents := events.length
        sections := detectionSection (ofType "detection" events) ++ vlm ++
          behaviorSection (ofType "behavior_alert" events) ++
          anomalySection (ofType "anomaly_alert" events)
        summary := reportSummary report.deviceId report.timeRangeHours events }

def since (timeRangeHours : ℚ) (clock : ReportClock) : ℚ := clock.since - timeRangeHours * 3600

/-- `none` when the query or a slice raises. -/
def generate (store : Option StoreReads) (deviceId : String) (timeRangeHours : ℚ)
    (includeVlm : Bool) (clock : ReportClock) : Option EventReport :=
  match store with
  | none =>
    some { newReport deviceId timeRangeHours clock with
      summary := "No detection store available." }
  | some store =>
    (store.query (since timeRangeHours clock) 0 queryLimit deviceId clock.queriedAt).bind
      (reportOn (newReport deviceId timeRangeHours clock) includeVlm)

/-! ## What a report says -/

/-- The count of the section with a title; without one there were no events. -/
def countUnder (title : String) (sections : List ReportSection) : Nat :=
  ((sections.find? fun s => s.title = title).map ReportSection.eventCount).getD 0

/-- Every count of the report is that of the stored events. -/
structure CountsAll (stored : List StoredEvent) (includeVlm : Bool) (report : EventReport) :
    Prop where
  total : report.totalEvents = stored.length
  detections : countUnder "Detection Summary" report.sections = (ofType "detection" stored).length
  vlm : includeVlm = true →
    countUnder "VLM Analysis Highlights" report.sections = (ofType "vlm_analysis" stored).length
  behavior : countUnder "Behavior Alerts" report.sections = (ofType "behavior_alert" stored).length
  anomalies : countUnder "Anomalies" report.sections = (ofType "anomaly_alert" stored).length
  classes : ∀ s ∈ report.sections, ∀ top, s.content = .classDistribution top → ∀ p ∈ top,
    p.2 = (detectedClasses (ofType "detection" stored)).count p.1

/-- The stored events of the range of a report. -/
def inRange (store : StoreReads) (deviceId : String) (timeRangeHours : ℚ) (clock : ReportClock) :
    List StoredEvent :=
  store.matching (since timeRangeHours clock) clock.queriedAt deviceId

/-- A report is made, and counts all that is stored. -/
def ReportsAll (store : StoreReads) (deviceId : String) (timeRangeHours : ℚ) (includeVlm : Bool)
    (clock : ReportClock) : Prop :=
  ∃ report, generate (some store) deviceId timeRangeHours includeVlm clock = some report ∧
    CountsAll (inRange store deviceId timeRangeHours clock) includeVlm report

/-- The events that are read. -/
def read (store : StoreReads) (deviceId : String) (timeRangeHours : ℚ) (clock : ReportClock) :
    List StoredEvent :=
  store.newest (since timeRangeHours clock) clock.queriedAt deviceId queryLimit

/-- The analyses that are quoted have a result. -/
def Quotable (includeVlm : Bool) (events : List StoredEvent) : Prop :=
  includeVlm = true → ∀ e ∈ (ofType "vlm_analysis" events).take 20, e.vlmResult ≠ none

variable {store : StoreReads} {deviceId : String} {timeRangeHours : ℚ} {includeVlm : Bool}
  {clock : ReportClock} {report : EventReport} {events stored : List StoredEvent}

theorem ofType_perm (eventType : String) (h : events.Perm stored) :
    (ofType eventType events).Perm (ofType eventType stored) := h.filter _

theorem detectedClasses_perm (h : events.Perm stored) :
    (detectedClasses events).Perm (detectedClasses stored) := (h.flatMap_right _).map _

theorem count_of_mem_topClasses {p : String × Nat} (h : p ∈ topClasses events) :
    p.2 = (detectedClasses events).count p.1 := by
  have hsorted := List.mem_of_mem_take h
  have hmem := (List.perm_insertionSort _ _).mem_iff.mp hsorted
  exact (classCounts_spec _).1 p hmem

/-! ## Sections -/

theorem highlight_isSome {e : StoredEvent} : (highlight e).isSome ↔ e.vlmResult ≠ none := by
  cases he : e.vlmResult <;> simp [highlight, he]

theorem vlmSection_isSome : (vlmSection includeVlm (ofType "vlm_analysis" events)).isSome = true ↔
    Quotable includeVlm events := by
  rw [vlmSection, Quotable]
  split
  · next hquoted =>
    rw [Option.isSome_map, Option.isSome_mapM_iff]
    simp only [highlight_isSome]
    simp [(Bool.and_eq_true_iff.mp hquoted).1]
  · next hquoted =>
    simp only [Option.isSome_some, true_iff]
    intro hinclude e he
    have hmem := List.mem_of_mem_take he
    simp [hinclude] at hquoted
    simp [hquoted] at hmem

/-- What is made of the events of one kind: a section that counts them, if there are any. -/
def SectionOf (title : String) (count : Nat) (sections : List ReportSection) : Prop :=
  sections = [] ∧ count = 0 ∨ ∃ s, sections = [s] ∧ s.title = title ∧ s.eventCount = count

theorem SectionOf.titled {title : String} {count : Nat} {sections : List ReportSection}
    (h : SectionOf title count sections) : ∀ s ∈ sections, s.title = title := by
  rcases h with ⟨rfl, -⟩ | ⟨s, rfl, htitle, -⟩
  · simp
  · simpa using htitle

/-- Sections with different titles do not count for each other. -/
theorem countUnder_flatten {parts : List (String × Nat × List ReportSection)}
    (hparts : ∀ p ∈ parts, SectionOf p.1 p.2.1 p.2.2) (htitles : (parts.map Prod.fst).Nodup) :
    ∀ p ∈ parts, countUnder p.1 (parts.flatMap fun q => q.2.2) = p.2.1 := by
  induction parts with
  | nil => simp
  | cons first rest ih =>
      rw [List.map_cons, List.nodup_cons] at htitles
      have hrest := ih (fun p hp => hparts p (List.mem_cons_of_mem _ hp)) htitles.2
      have hfirst := hparts first List.mem_cons_self
      intro p hp
      rw [List.flatMap_cons, countUnder, List.find?_append]
      rcases List.mem_cons.mp hp with rfl | hlater
      · rcases hfirst with ⟨hnone, hcount⟩ | ⟨s, hs, htitle, hcount⟩
        · -- no later section has this title
          have hmissing : (rest.flatMap fun q => q.2.2).find? (fun s => s.title = p.1) = none := by
            refine List.find?_eq_none.mpr fun s hs => ?_
            obtain ⟨q, hq, hsq⟩ := List.mem_flatMap.mp hs
            have htitle := (hparts q (List.mem_cons_of_mem _ hq)).titled s hsq
            have hne : q.1 ≠ p.1 := fun heq => htitles.1 (heq ▸ List.mem_map_of_mem hq)
            simpa [htitle] using hne
          simp [hnone, hmissing, hcount]
        · simp [hs, htitle, hcount]
      · have hne : first.1 ≠ p.1 := fun heq => htitles.1 (heq ▸ List.mem_map_of_mem hlater)
        have hskip : first.2.2.find? (fun s => s.title = p.1) = none :=
          List.find?_eq_none.mpr fun s hs => by simpa [hfirst.titled s hs] using hne
        rw [hskip, Option.none_or]
        exact hrest p hlater

theorem sectionOf_vlm {vlm : List ReportSection} (h : vlmSection includeVlm events = some vlm) :
    SectionOf "VLM Analysis Highlights" (if includeVlm then events.length else 0) vlm := by
  rw [vlmSection] at h
  split at h
  · next hquoted =>
    obtain ⟨lines, -, rfl⟩ := Option.map_eq_some_iff.mp h
    exact .inr ⟨_, rfl, rfl, by simp [(Bool.and_eq_true_iff.mp hquoted).1]⟩
  · next hquoted =>
    obtain rfl := Option.some.inj h
    refine .inl ⟨rfl, ?_⟩
    cases includeVlm with
    | false => rfl
    | true => simpa using hquoted

theorem sectionOf_sectionOn {s : ReportSection} (hcount : s.eventCount = events.length) :
    SectionOf s.title events.length (sectionOn events s) := by
  rw [sectionOn]
  split
  · next hempty => exact .inl ⟨rfl, by simpa using hempty⟩
  · exact .inr ⟨s, rfl, rfl, hcount⟩

theorem eq_of_mem_sectionOn {s t : ReportSection} (h : t ∈ sectionOn events s) : t = s := by
  rw [sectionOn] at h
  split at h
  · cases h
  · exact List.mem_singleton.mp h

/-- Only the section on detections has classes. -/
theorem classes_of_mem_sections {vlm : List ReportSection}
    (hvlm : vlmSection includeVlm (ofType "vlm_analysis" events) = some vlm) {s : ReportSection}
    (hs : s ∈ detectionSection (ofType "detection" events) ++ vlm ++
      behaviorSection (ofType "behavior_alert" events) ++
      anomalySection (ofType "anomaly_alert" events)) {top : List (String × Nat)}
    (htop : s.content = .classDistribution top) : top = topClasses (ofType "detection" events) := by
  rcases List.mem_append.mp hs with hs | hanomaly
  · rcases List.mem_append.mp hs with hs | hbehavior
    · rcases List.mem_append.mp hs with hdetection | hmem
      · rw [eq_of_mem_sectionOn hdetection] at htop
        exact (SectionContent.classDistribution.inj htop).symm
      · rw [vlmSection] at hvlm
        split at hvlm
        · obtain ⟨lines, -, rfl⟩ := Option.map_eq_some_iff.mp hvlm
          obtain rfl := List.mem_singleton.mp hmem
          cases htop
        · obtain rfl := Option.some.inj hvlm
          cases hmem
    · rw [eq_of_mem_sectionOn hbehavior] at htop
      cases htop
  · rw [eq_of_mem_sectionOn hanomaly] at htop
    cases htop

theorem countsAll_sections {vlm : List ReportSection} (total : report.totalEvents = events.length)
    (hvlm : vlmSection includeVlm (ofType "vlm_analysis" events) = some vlm)
    (hsections : report.sections = detectionSection (ofType "detection" events) ++ vlm ++
      behaviorSection (ofType "behavior_alert" events) ++
      anomalySection (ofType "anomaly_alert" events)) : CountsAll events includeVlm report := by
  have hparts : ∀ p ∈ ([("Detection Summary", (ofType "detection" events).length,
        detectionSection (ofType "detection" events)),
      ("VLM Analysis Highlights",
        if includeVlm then (ofType "vlm_analysis" events).length else 0, vlm),
      ("Behavior Alerts", (ofType "behavior_alert" events).length,
        behaviorSection (ofType "behavior_alert" events)),
      ("Anomalies", (ofType "anomaly_alert" events).length,
        anomalySection (ofType "anomaly_alert" events))] :
          List (String × Nat × List ReportSection)), SectionOf p.1 p.2.1 p.2.2 := by
    simp only [List.forall_mem_cons]
    exact ⟨sectionOf_sectionOn rfl, sectionOf_vlm hvlm, sectionOf_sectionOn rfl,
      sectionOf_sectionOn rfl, by simp⟩
  have hcount := countUnder_flatten hparts (by simp)
  have hflat : report.sections = detectionSection (ofType "detection" events) ++ (vlm ++
      (behaviorSection (ofType "behavior_alert" events) ++
        anomalySection (ofType "anomaly_alert" events))) := by
    simp only [hsections, List.append_assoc]
  simp only [List.forall_mem_cons, List.flatMap_cons, List.flatMap_nil, List.append_nil,
    ← hflat] at hcount
  obtain ⟨hdetections, hanalyses, hbehavior, hanomalies, -⟩ := hcount
  refine ⟨total, hdetections, ?_, hbehavior, hanomalies, ?_⟩
  · intro hinclude
    simpa [hinclude] using hanalyses
  · intro s hs top htop p hp
    rw [hsections] at hs
    rw [classes_of_mem_sections hvlm hs htop] at hp
    exact count_of_mem_topClasses hp

/-! ## Reports -/

theorem reportOn_of_ne_nil (base : EventReport) (h : events ≠ []) :
    reportOn base includeVlm events =
      (vlmSection includeVlm (ofType "vlm_analysis" events)).map fun vlm =>
        { base with
          totalEvents := events.length
          sections := detectionSection (ofType "detection" events) ++ vlm ++
            behaviorSection (ofType "behavior_alert" events) ++
            anomalySection (ofType "anomaly_alert" events)
          summary := reportSummary base.deviceId base.timeRangeHours events } :=
  if_neg (by simpa using h)

/-- A report counts the events that it is made of. -/
theorem countsAll_reportOn (base : EventReport) (hbase : base.sections = [])
    (h : reportOn base includeVlm events = some report) : CountsAll events includeVlm report := by
  by_cases hempty : events = []
  · subst hempty
    obtain rfl := Option.some.inj h
    constructor <;> simp [countUnder, hbase, ofType]
  · rw [reportOn_of_ne_nil base hempty] at h
    obtain ⟨vlm, hvlm, rfl⟩ := Option.map_eq_some_iff.mp h
    exact countsAll_sections rfl hvlm rfl

/-- It is made if all that it quotes is there. -/
theorem reportOn_isSome (base : EventReport) :
    (reportOn base includeVlm events).isSome = true ↔ Quotable includeVlm events := by
  by_cases hempty : events = []
  · subst hempty
    simp [reportOn, Quotable, ofType]
  · rw [reportOn_of_ne_nil base hempty, Option.isSome_map, vlmSection_isSome]

/-- The order of the events does not matter. -/
theorem CountsAll.of_perm (h : CountsAll events includeVlm report) (hperm : events.Perm stored) :
    CountsAll stored includeVlm report where
  total := h.total.trans hperm.length_eq
  detections := h.detections.trans (ofType_perm _ hperm).length_eq
  vlm hinclude := (h.vlm hinclude).trans (ofType_perm _ hperm).length_eq
  behavior := h.behavior.trans (ofType_perm _ hperm).length_eq
  anomalies := h.anomalies.trans (ofType_perm _ hperm).length_eq
  classes s hs top htop p hp := (h.classes s hs top htop p hp).trans
    ((detectedClasses_perm (ofType_perm _ hperm)).count_eq _)

/-- A report is right just when the events of its range are within the limit of the query,
and the query and the quotes do not raise. -/
theorem reportsAll_iff : ReportsAll store deviceId timeRangeHours includeVlm clock ↔
    store.Answers ∧ (inRange store deviceId timeRangeHours clock).length ≤ queryLimit ∧
      Quotable includeVlm (read store deviceId timeRangeHours clock) := by
  by_cases hanswers : store.Answers
  · have hgenerate : generate (some store) deviceId timeRangeHours includeVlm clock =
        reportOn (newReport deviceId timeRangeHours clock) includeVlm
          (read store deviceId timeRangeHours clock) := by
      rw [generate, StoreReads.query, StoreReads.readUntil_zero,
        StoreReads.retrySync_of_answers hanswers]
      rfl
    have hlength : (read store deviceId timeRangeHours clock).length =
        min queryLimit (inRange store deviceId timeRangeHours clock).length :=
      StoreReads.length_newest _ _ _ _
    rw [ReportsAll, hgenerate]
    constructor
    · rintro ⟨report, hreport, hall⟩
      have hcounts := countsAll_reportOn (newReport deviceId timeRangeHours clock) rfl hreport
      have htotal := hcounts.total.symm.trans hall.total
      refine ⟨hanswers, by omega, (reportOn_isSome (newReport deviceId timeRangeHours clock)).mp ?_⟩
      rw [hreport]
      rfl
    · rintro ⟨-, hfew, hquotable⟩
      obtain ⟨report, hreport⟩ :=
        Option.isSome_iff_exists.mp ((reportOn_isSome _).mpr hquotable)
      have hcounts := countsAll_reportOn (newReport deviceId timeRangeHours clock) rfl hreport
      exact ⟨report, hreport, hcounts.of_perm (StoreReads.newest_perm hfew)⟩
  · have hraises : generate (some store) deviceId timeRangeHours includeVlm clock = none := by
      rw [generate, StoreReads.query, StoreReads.retrySync_of_not_answers hanswers]
      rfl
    simp [ReportsAll, hraises, hanswers]

/-! ## A long day -/

def longDay : StoreReads := sampleReads (List.replicate 1001 (detectionRow 900 carJson "cam"))

/-- One event more than the query returns. -/
theorem not_reportsAll_longDay :
    ¬ ReportsAll longDay "cam" 24 true ⟨1000, 1000, 1000, 1000⟩ := by
  rintro ⟨report, hreport, hall⟩
  have htotal : (generate (some longDay) "cam" 24 true ⟨1000, 1000, 1000, 1000⟩).map
      EventReport.totalEvents = some 1000 := by decide +kernel
  rw [hreport, Option.map_some, hall.total] at htotal
  have hstored : (inRange longDay "cam" 24 ⟨1000, 1000, 1000, 1000⟩).length = 1001 := by
    decide +kernel
  rw [hstored] at htotal
  cases htotal

end ReportGenerator
