-- SUMMARY: Events as the dashboard shows them: which of the counts and the filters over the raw events agree with the normalised ones.
import NeuroPipeline.Integration.DashboardCommands
import NeuroPipeline.Lib.Fallible
import NeuroPipeline.Lib.LimitedQuery

/-!
# Dashboard events

Model of the events of the dashboard (routers/v2/status.py). A raw event is a dictionary
with any values. `_normalize_event` gives it the type and the severity that are shown,
and the counts and the filters look at the raw fields once more.
-/

open CFloat (const)

abbrev RawEvent := List (String × Json)

/-! ## Types and severities -/

inductive EventType where
  | detectionAlert
  | systemError
  | modelLoaded
  | healthUpdate
deriving DecidableEq

namespace EventType

def text : EventType → String
  | .detectionAlert => "DETECTION_ALERT"
  | .systemError => "SYSTEM_ERROR"
  | .modelLoaded => "MODEL_LOADED"
  | .healthUpdate => "HEALTH_UPDATE"

def ofText : String → Option EventType
  | "DETECTION_ALERT" => some .detectionAlert
  | "SYSTEM_ERROR" => some .systemError
  | "MODEL_LOADED" => some .modelLoaded
  | "HEALTH_UPDATE" => some .healthUpdate
  | _ => none

theorem ofText_eq_some_iff {s : String} {type : EventType} :
    ofText s = some type ↔ s = type.text := by
  constructor
  · unfold ofText
    split <;> rintro ⟨⟩ <;> rfl
  · rintro rfl
    cases type <;> rfl

end EventType

inductive EventSeverity where
  | critical
  | warning
  | info
deriving DecidableEq

namespace EventSeverity

def text : EventSeverity → String
  | .critical => "critical"
  | .warning => "warning"
  | .info => "info"

def ofText : String → Option EventSeverity
  | "critical" => some .critical
  | "warning" => some .warning
  | "info" => some .info
  | _ => none

theorem ofText_eq_some_iff {s : String} {severity : EventSeverity} :
    ofText s = some severity ↔ s = severity.text := by
  constructor
  · unfold ofText
    split <;> rintro ⟨⟩ <;> rfl
  · rintro rfl
    cases severity <;> rfl

end EventSeverity

/-! ## What is shown of an event -/

structure EventBox where
  classId : Json
  className : Json
  confidence : Json
  xMin : Json
  yMin : Json
  xMax : Json
  yMax : Json

structure NormalizedEvent where
  id : Json
  deviceId : Json
  deviceName : Json
  type : EventType
  severity : EventSeverity
  description : Json
  timestamp : String
  metadata : List (String × String)
  boxes : List EventBox
  frameData : Json

/-- The conversions of the language and of its library. -/
structure EventFormat extends Dashboard where
  /-- `s.upper()` -/
  upper : String → String
  upper_of_ascii : ∀ s : String, (s.toList.all fun c => c.val < 128) → upper s = s.toUpper
  upper_ne_empty : ∀ s, s ≠ "" → upper s ≠ ""
  /-- `datetime.fromtimestamp(ts, tz=timezone.utc).isoformat()`, unless it raises -/
  isoformat : Json → Option String
  /-- `hashlib.md5(text.encode()).hexdigest()[:12]` -/
  digest : String → String
  /-- `time.time()` -/
  time : Binary64

namespace EventFormat

variable (v : EventFormat)

/-- `raw.get("type", default).upper()`, which only a text has. -/
def upperType (default : String) (raw : RawEvent) : Option String :=
  match (raw.lookup "type").getD (.str default) with
  | .str type => some (v.upper type)
  | _ => none

def eventType (raw : RawEvent) : Option EventType :=
  (v.upperType "DETECTION_ALERT" raw).map fun type =>
    (EventType.ofText type).getD .detectionAlert

/-- The severity, if it is one of the three. -/
def knownSeverity : Json → Option EventSeverity
  | .str severity => EventSeverity.ofText severity
  | _ => none

/-- `isinstance(conf, (int, float)) and conf >= 0.9` -/
def confident : Json → Bool
  | .bool b => b
  | .int n => 1 ≤ n
  | .float x => (const (9 / 10) : Binary64) ≤ x
  | _ => false

/-- The severity of an event whose own is not one of the three. -/
def derivedSeverity (type : EventType) (raw : RawEvent) : EventSeverity :=
  if type = .systemError then .critical
  else if confident ((raw.lookup "confidence").getD (.int 0)) then .warning
  else .info

def severity (type : EventType) (raw : RawEvent) : EventSeverity :=
  (knownSeverity ((raw.lookup "severity").getD (.str "info"))).getD (derivedSeverity type raw)

def timestampText (ts : Json) : Option String :=
  match ts with
  | .bool _ | .int _ | .float _ => v.isoformat ts
  | _ => some (v.str ts)

def eventBox : Json → Option EventBox
  | .dict b => some
      { classId := (b.lookup "class_id").getD (.int 0)
        className := (b.lookup "class_name").getD (.str "")
        confidence := (b.lookup "confidence").getD (.int 0)
        xMin := (b.lookup "x_min").getD (.int 0)
        yMin := (b.lookup "y_min").getD (.int 0)
        xMax := (b.lookup "x_max").getD (.int 0)
        yMax := (b.lookup "y_max").getD (.int 0) }
  | _ => none

/-- `raw.get("boxes") or raw.get("detections") or []` -/
def rawBoxes (raw : RawEvent) : Json :=
  let boxes := (raw.lookup "boxes").getD .null
  let detections := (raw.lookup "detections").getD .null
  if boxes.truthy then boxes else if detections.truthy then detections else .list []

/-- A number cannot be iterated, and the parts of a text or the keys of a dictionary
have no `get`. -/
def eventBoxes (raw : RawEvent) : Option (List EventBox) :=
  match rawBoxes raw with
  | .list items => items.mapM eventBox
  | _ => none

/-- `_normalize_event`, unless it raises. -/
def normalizeEvent (raw : RawEvent) : Option NormalizedEvent := do
  let ts := (raw.lookup "timestamp").getD (.float v.time)
  let tsIso ← v.timestampText ts
  let deviceId := (raw.lookup "device_id").getD (.str "unknown")
  let type ← v.eventType raw
  let rawId := s!"{v.str deviceId}:{v.str ts}:{type.text}"
  let boxes ← eventBoxes raw
  let metadata ← v.messageParameters ((raw.lookup "metadata").getD (.dict []))
  some
    { id := (raw.lookup "id").getD (.str (v.digest rawId))
      deviceId := deviceId
      deviceName := (raw.lookup "device_name").getD deviceId
      type := type
      severity := severity type raw
      description := (raw.lookup "description").getD
        ((raw.lookup "message").getD ((raw.lookup "class").getD (.str "")))
      timestamp := tsIso
      metadata := metadata
      boxes := boxes
      frameData := (raw.lookup "frame_data").getD .null }

end EventFormat

/-! ## Counts and filters -/

/-- `e.get(key) == s` -/
def RawEvent.hasText (key s : String) (e : RawEvent) : Bool :=
  match e.lookup key with
  | some (.str t) => t = s
  | _ => false

structure AlertCounts where
  critical : Nat
  warning : Nat
  info : Nat
deriving DecidableEq

/-- `limit: int = Query(50, ge=1, le=200)` -/
abbrev EventLimit := {n : Nat // 1 ≤ n ∧ n ≤ 200}

structure EventsQuery where
  limit : EventLimit := ⟨50, by decide⟩
  deviceId : String := ""
  severity : String := ""
  eventType : String := ""

namespace EventFormat

variable (v : EventFormat)

open RawEvent (hasText)

/-- `sum(1 for e in items if p(e))`, where a test can raise. -/
def sumOnes (p : RawEvent → Option Bool) (items : List RawEvent) : Option Nat :=
  if items.all fun e => (p e).isSome then some (items.countP fun e => p e == some true) else none

def isCritical (e : RawEvent) : Option Bool :=
  -- `or` reads the type only where the severity does not decide
  if hasText "severity" "critical" e then some true
  else (v.upperType "" e).map (· = "SYSTEM_ERROR")

def isInfo (e : RawEvent) : Option Bool :=
  if (e.lookup "severity").isNone || hasText "severity" "info" e then
    (v.upperType "" e).map (· ≠ "SYSTEM_ERROR")
  else some false

/-- `alerts` in the answer of `api_v2_status`. -/
def alertCounts (events : List RawEvent) : Option AlertCounts := do
  let critical ← sumOnes v.isCritical (events.rtake 200)
  let warning := (events.rtake 200).countP (hasText "severity" "warning")
  let info ← sumOnes v.isInfo (events.rtake 200)
  some ⟨critical, warning, info⟩

/-- `filtered` in `api_v2_events`. -/
def filtered (events : List RawEvent) (q : EventsQuery) : Option (List RawEvent) :=
  let filtered := if q.deviceId = "" then events
    else events.filter (hasText "device_id" q.deviceId)
  let filtered := if q.severity = "" then filtered
    else filtered.filter (hasText "severity" q.severity)
  if q.eventType = "" then some filtered
  else if filtered.all fun e => (v.upperType "" e).isSome then
    some (filtered.filter fun e => v.upperType "" e = some (v.upper q.eventType))
  else none

def apiV2Events (events : List RawEvent) (q : EventsQuery) : Option (List NormalizedEvent) := do
  let filtered ← v.filtered events q
  (filtered.rtake q.limit).mapM v.normalizeEvent

/-! ## The law -/

/-- The numbers of the three severities. -/
def countsOf (forms : List NormalizedEvent) : AlertCounts :=
  ⟨forms.countP (·.severity = .critical), forms.countP (·.severity = .warning),
    forms.countP (·.severity = .info)⟩

/-- The last 200 events have normalised forms, and the counts are those of their
severities. -/
def CountsAgree (events : List RawEvent) : Prop :=
  ∃ forms, (events.rtake 200).mapM v.normalizeEvent = some forms ∧
    v.alertCounts events = some (countsOf forms)

/-- The last `limit` events whose normalised form is as asked. -/
def lastAsked (asked : NormalizedEvent → Bool) (limit : Nat) (events : List RawEvent) :
    List RawEvent :=
  (events.filter fun e => (v.normalizeEvent e).any asked).rtake limit

/-- The filter takes the last events that are shown as asked, and the answer has their forms. -/
def ShowsLast (events : List RawEvent) (q : EventsQuery) (asked : NormalizedEvent → Bool) :
    Prop :=
  (v.filtered events q).map (·.rtake q.limit) = some (v.lastAsked asked q.limit events) ∧
    v.apiV2Events events q =
      some ((v.lastAsked asked q.limit events).filterMap v.normalizeEvent)

/-- Nothing in the event makes `_normalize_event` raise. -/
structure Readable (raw : RawEvent) : Prop where
  type : ∃ s, (raw.lookup "type").getD (.str "DETECTION_ALERT") = .str s
  timestamp : (v.timestampText ((raw.lookup "timestamp").getD (.float v.time))).isSome
  boxes : ∃ items, rawBoxes raw = .list items ∧ ∀ b ∈ items, ∃ box, b = .dict box
  metadata : ∃ items, (raw.lookup "metadata").getD (.dict []) = .dict items

/-- Counted for the severity that is shown and for no other: an error needs the severity
`critical` or an unknown one, any other event one that is known or none. -/
def CountedAsShown (e : RawEvent) : Prop :=
  v.Readable e ∧
    let known := knownSeverity ((e.lookup "severity").getD (.str "info"))
    if v.upperType "" e = some "SYSTEM_ERROR" then known = none ∨ known = some .critical
    else known.isSome

def shownType (raw : RawEvent) : EventType := (v.eventType raw).getD .detectionAlert

/-- The raw severity is `s` if and only if the one that is shown is. -/
def FoundBySeverity (s : String) (e : RawEvent) : Prop :=
  match e.lookup "severity" with
  | none => v.Readable e → s ≠ "info"
  | some (.str severity) =>
    if severity = s then v.Readable e ∧ (EventSeverity.ofText s).isSome
    else EventSeverity.ofText severity = none → v.Readable e →
      s ≠ (derivedSeverity (v.shownType e) e).text
  | some _ => v.Readable e → s ≠ (derivedSeverity (v.shownType e) e).text

/-- The raw type is `t` in capitals if and only if the one that is shown is. -/
def FoundByType (t : String) (e : RawEvent) : Prop :=
  match e.lookup "type" with
  | none => v.Readable e → v.upper t ≠ "DETECTION_ALERT"
  | some (.str type) =>
    if v.upper type = v.upper t then v.Readable e ∧ (EventType.ofText (v.upper t)).isSome
    else EventType.ofText (v.upper type) = none → v.Readable e →
      v.upper t ≠ "DETECTION_ALERT"
  | some _ => True

/-! ## What is shown -/

section

variable {v} {e : RawEvent} {form : NormalizedEvent}

theorem eventBox_isSome_iff {b : Json} : (eventBox b).isSome ↔ ∃ box, b = .dict box := by
  cases b <;> simp [eventBox]

theorem eventBoxes_isSome_iff :
    (eventBoxes e).isSome ↔
      ∃ items, rawBoxes e = .list items ∧ ∀ b ∈ items, ∃ box, b = .dict box := by
  rw [eventBoxes]
  cases rawBoxes e <;> simp [Option.isSome_mapM_iff, eventBox_isSome_iff]

theorem messageParameters_isSome_iff (d : Dashboard) {parameters : Json} :
    (d.messageParameters parameters).isSome ↔ ∃ items, parameters = .dict items := by
  cases parameters <;> simp [Dashboard.messageParameters]

theorem upperType_isSome_iff {default : String} :
    (v.upperType default e).isSome ↔ ∃ s, (e.lookup "type").getD (.str default) = .str s := by
  rw [upperType]
  cases (e.lookup "type").getD (.str default) <;> simp

theorem normalizeEvent_isSome_iff : (v.normalizeEvent e).isSome ↔ v.Readable e := by
  have hparts : (v.normalizeEvent e).isSome ↔
      (v.timestampText ((e.lookup "timestamp").getD (.float v.time))).isSome ∧
        (v.eventType e).isSome ∧ (eventBoxes e).isSome ∧
        (v.messageParameters ((e.lookup "metadata").getD (.dict []))).isSome := by
    simp only [normalizeEvent]
    cases v.timestampText ((e.lookup "timestamp").getD (.float v.time)) <;>
      cases v.eventType e <;> cases eventBoxes e <;>
      cases v.messageParameters ((e.lookup "metadata").getD (.dict [])) <;> simp
  rw [hparts, eventType, Option.isSome_map, upperType_isSome_iff, eventBoxes_isSome_iff,
    messageParameters_isSome_iff]
  exact ⟨fun ⟨hts, htype, hboxes, hmeta⟩ => ⟨htype, hts, hboxes, hmeta⟩,
    fun h => ⟨h.timestamp, h.type, h.boxes, h.metadata⟩⟩

/-- The type and the severity of a normalised form. -/
theorem shown_of_normalizeEvent (h : v.normalizeEvent e = some form) :
    form.type = v.shownType e ∧ form.severity = severity (v.shownType e) e := by
  simp only [normalizeEvent, Option.bind_eq_bind, Option.bind_eq_some_iff] at h
  obtain ⟨ts, -, type, htype, boxes, -, metadata, -, hform⟩ := h
  cases hform
  simp [shownType, htype]

theorem any_normalizeEvent_iff (asked : EventType → EventSeverity → Bool) :
    (v.normalizeEvent e).any (fun form => asked form.type form.severity) = true ↔
      v.Readable e ∧ asked (v.shownType e) (severity (v.shownType e) e) = true := by
  rw [← normalizeEvent_isSome_iff]
  cases h : v.normalizeEvent e with
  | none => simp
  | some form =>
    obtain ⟨htype, hseverity⟩ := shown_of_normalizeEvent h
    simp [htype, hseverity]

theorem upper_detectionAlert : v.upper "DETECTION_ALERT" = "DETECTION_ALERT" := by
  rw [v.upper_of_ascii _ (by decide +kernel)]
  decide +kernel

theorem upper_empty : v.upper "" = "" := by
  rw [v.upper_of_ascii _ (by decide +kernel)]
  decide +kernel

theorem shownType_eq_systemError_iff :
    v.shownType e = .systemError ↔ v.upperType "" e = some "SYSTEM_ERROR" := by
  have hof : ∀ s, (EventType.ofText s).getD .detectionAlert = .systemError ↔
      s = "SYSTEM_ERROR" := by
    intro s
    rw [show "SYSTEM_ERROR" = EventType.systemError.text from rfl, ← EventType.ofText_eq_some_iff]
    cases EventType.ofText s <;> simp
  simp only [shownType, eventType, upperType]
  cases e.lookup "type" with
  | none => simp [upper_detectionAlert, upper_empty, EventType.ofText]
  | some type => cases type <;> simp [hof]

end

/-! ## Counts -/

section

variable {v} {e : RawEvent}

theorem countP_eq_iff_of_imp {α : Type} {p q : α → Bool} {l : List α}
    (h : ∀ a ∈ l, p a = true → q a = true) :
    l.countP p = l.countP q ↔ ∀ a ∈ l, q a = true → p a = true := by
  induction l with
  | nil => simp
  | cons a l ih =>
    obtain ⟨ha, hl⟩ := List.forall_mem_cons.mp h
    have hle : l.countP p ≤ l.countP q := List.countP_mono_left hl
    rw [List.countP_cons, List.countP_cons, List.forall_mem_cons, ← ih hl]
    cases hp : p a with
    | true => simp [ha hp]
    | false =>
      cases q a with
      | false => simp
      | true =>
        simp only [Bool.false_eq_true, if_false, if_true, forall_const, false_and, iff_false]
        omega

theorem hasText_severity_iff (severity : EventSeverity) (hne : severity ≠ .info) :
    hasText "severity" severity.text e = true ↔
      knownSeverity ((e.lookup "severity").getD (.str "info")) = some severity := by
  rw [hasText]
  cases e.lookup "severity" with
  | none => simpa [knownSeverity, EventSeverity.ofText] using hne.symm
  | some value => cases value <;> simp [knownSeverity, EventSeverity.ofText_eq_some_iff]

theorem hasText_info_iff :
    ((e.lookup "severity").isNone || hasText "severity" "info" e) = true ↔
      knownSeverity ((e.lookup "severity").getD (.str "info")) = some .info := by
  rw [hasText]
  cases e.lookup "severity" with
  | none => simp [knownSeverity, EventSeverity.ofText]
  | some value =>
    cases value <;> simp [knownSeverity, EventSeverity.ofText_eq_some_iff, EventSeverity.text]

theorem Readable.upperType_isSome (h : v.Readable e) : (v.upperType "" e).isSome := by
  obtain ⟨s, hs⟩ := h.type
  rw [upperType_isSome_iff]
  cases htype : e.lookup "type" with
  | none => exact ⟨"", rfl⟩
  | some type =>
    rw [htype] at hs
    exact ⟨s, hs⟩

theorem isCritical_iff :
    v.isCritical e = some true ↔
      knownSeverity ((e.lookup "severity").getD (.str "info")) = some .critical ∨
        v.upperType "" e = some "SYSTEM_ERROR" := by
  rw [← hasText_severity_iff .critical (by nofun), isCritical]
  split
  · next h => simp [EventSeverity.text, h]
  · next h => simp [EventSeverity.text, h]

theorem isInfo_iff (h : v.Readable e) :
    v.isInfo e = some true ↔
      knownSeverity ((e.lookup "severity").getD (.str "info")) = some .info ∧
        v.upperType "" e ≠ some "SYSTEM_ERROR" := by
  obtain ⟨type, htype⟩ := Option.isSome_iff_exists.mp h.upperType_isSome
  rw [← hasText_info_iff, isInfo]
  split
  · next h => simp [h, htype]
  · next h => simp [h]

theorem Readable.tests_isSome (h : v.Readable e) :
    (v.isCritical e).isSome ∧ (v.isInfo e).isSome := by
  have htype := h.upperType_isSome
  rw [isCritical, isInfo]
  constructor <;> split <;> simp [htype]

/-- The tests hold of no more than what is shown, but for `critical`, where it is the
other way round; where they hold of the same, the event is counted as it is shown. -/
theorem tests_iff (h : v.Readable e) :
    let shown := severity (v.shownType e) e
    ((shown = .critical → v.isCritical e = some true) ∧
      (hasText "severity" "warning" e = true → shown = .warning) ∧
      (v.isInfo e = some true → shown = .info)) ∧
    ((v.isCritical e = some true → shown = .critical) ∧
      (shown = .warning → hasText "severity" "warning" e = true) ∧
      (shown = .info → v.isInfo e = some true) ↔ v.CountedAsShown e) := by
  have hwarning := hasText_severity_iff (e := e) .warning (by nofun)
  rw [EventSeverity.text] at hwarning
  -- three things are left: whether it is an error, its known severity, its confidence
  simp only [isCritical_iff, isInfo_iff h, hwarning, CountedAsShown, h, true_and, severity,
    derivedSeverity, shownType_eq_systemError_iff]
  generalize knownSeverity ((e.lookup "severity").getD (.str "info")) = known
  generalize confident ((e.lookup "confidence").getD (.int 0)) = sure
  by_cases herror : v.upperType "" e = some "SYSTEM_ERROR"
  · rcases known with _ | (_ | _ | _) <;> simp [herror]
  · rcases known with _ | (_ | _ | _) <;> cases sure <;> simp [herror]

variable {events : List RawEvent}

theorem alertCounts_eq (h : ∀ e ∈ events.rtake 200, v.Readable e) :
    v.alertCounts events = some
      ⟨(events.rtake 200).countP fun e => v.isCritical e == some true,
        (events.rtake 200).countP (hasText "severity" "warning"),
        (events.rtake 200).countP fun e => v.isInfo e == some true⟩ := by
  have hcritical : (events.rtake 200).all fun e => (v.isCritical e).isSome := by
    simpa using fun e he => (h e he).tests_isSome.1
  have hinfo : (events.rtake 200).all fun e => (v.isInfo e).isSome := by
    simpa using fun e he => (h e he).tests_isSome.2
  simp only [alertCounts, sumOnes, hcritical, hinfo, if_true]
  rfl

/-- The forms of a severity are the events that are shown with it. -/
theorem countP_forms {last : List RawEvent} (h : ∀ e ∈ last, v.Readable e)
    (s : EventSeverity) :
    (last.filterMap v.normalizeEvent).countP (·.severity = s) =
      last.countP fun e => severity (v.shownType e) e = s := by
  rw [List.countP_filterMap]
  apply List.countP_congr
  intro e he
  obtain ⟨form, hform⟩ := Option.isSome_iff_exists.mp (normalizeEvent_isSome_iff.mpr (h e he))
  simp [hform, (shown_of_normalizeEvent hform).2]

theorem countsAgree_iff :
    v.CountsAgree events ↔ ∀ e ∈ events.rtake 200, v.CountedAsShown e := by
  by_cases hall : ∀ e ∈ events.rtake 200, v.Readable e
  · have hforms := Option.mapM_eq_filterMap fun e he => normalizeEvent_isSome_iff.mpr (hall e he)
    simp only [CountsAgree, hforms, Option.some.injEq, exists_eq_left', alertCounts_eq hall,
      countsOf, countP_forms hall, AlertCounts.mk.injEq]
    have htests := fun e he => tests_iff (hall e he)
    -- each test errs on one side only, so equal numbers mean the same events
    rw [eq_comm, countP_eq_iff_of_imp fun e he => by simpa using (htests e he).1.1,
      countP_eq_iff_of_imp fun e he => by simpa using (htests e he).1.2.1,
      countP_eq_iff_of_imp fun e he => by simpa using (htests e he).1.2.2,
      ← forall₂_and, ← forall₂_and]
    refine forall₂_congr fun e he => ?_
    simpa using (htests e he).2
  -- an event that cannot be normalised is shown with no severity at all
  · refine iff_of_false ?_ fun h => hall fun e he => (h e he).1
    rintro ⟨forms, hforms, -⟩
    refine hall fun e he => ?_
    rw [← normalizeEvent_isSome_iff]
    exact Option.isSome_mapM_iff.mp (Option.isSome_of_mem hforms) e he

end

/-! ## Filters -/

section

variable {v} {e : RawEvent} {events : List RawEvent} {q : EventsQuery}

/-- A filter over the raw events shows the last ones that are asked for if it tells right
of every event in its reach whether it is shown as asked. -/
theorem showsLast_iff {raw : RawEvent → Bool} {asked : NormalizedEvent → Bool}
    (h : v.filtered events q = some (events.filter raw)) :
    v.ShowsLast events q asked ↔
      ∀ e, InReach raw q.limit events e → raw e = (v.normalizeEvent e).any asked := by
  have hlast : v.ShowsLast events q asked ↔
      (events.filter raw).rtake q.limit = v.lastAsked asked q.limit events := by
    simp only [ShowsLast, apiV2Events, h, Option.map_some, Option.some.injEq]
    -- the answer follows: what is shown as asked has a normalised form
    refine and_iff_left_of_imp fun hsame => ?_
    rw [Option.bind_eq_bind, Option.bind_some, hsame]
    apply Option.mapM_eq_filterMap
    intro e he
    have hasked := (List.mem_filter.mp (List.mem_of_mem_drop he)).2
    exact Option.isSome_of_any hasked
  rw [hlast, lastAsked, rtake_filter_eq_iff]

theorem foundBySeverity_iff {s : String} :
    hasText "severity" s e = (v.normalizeEvent e).any (·.severity.text = s) ↔
      v.FoundBySeverity s e := by
  rw [Bool.eq_iff_iff, any_normalizeEvent_iff fun _ severity => severity.text = s,
    decide_eq_true_iff]
  cases hraw : e.lookup "severity" with
  | none =>
    simp only [hasText, FoundBySeverity, severity, hraw, Option.getD_none, knownSeverity]
    simp [EventSeverity.ofText, EventSeverity.text, eq_comm]
  | some value =>
    cases value with
    | str own =>
      simp only [hasText, FoundBySeverity, severity, hraw, Option.getD_some, knownSeverity]
      cases hknown : EventSeverity.ofText own with
      | none =>
        by_cases hown : own = s
        · subst hown
          have hderived : (derivedSeverity (v.shownType e) e).text ≠ own := fun h => by
            rw [EventSeverity.ofText_eq_some_iff.mpr h.symm] at hknown
            cases hknown
          simp [hknown, hderived]
        · simp [hown, eq_comm]
      | some known =>
        obtain rfl := EventSeverity.ofText_eq_some_iff.mp hknown
        by_cases hown : known.text = s
        · simp [← hown, hknown]
        · simp [hown]
    -- any other value is an unknown severity
    | _ =>
      simp only [hasText, FoundBySeverity, severity, hraw, Option.getD_some, knownSeverity]
      simp [eq_comm]

theorem foundByType_iff {t : String} (ht : t ≠ "") :
    decide (v.upperType "" e = some (v.upper t)) =
        (v.normalizeEvent e).any (·.type.text = v.upper t) ↔
      v.FoundByType t e := by
  rw [Bool.eq_iff_iff, any_normalizeEvent_iff fun type _ => type.text = v.upper t,
    decide_eq_true_iff, decide_eq_true_iff]
  cases hraw : e.lookup "type" with
  | none =>
    simp only [FoundByType, shownType, eventType, upperType, hraw, Option.getD_none,
      upper_empty, upper_detectionAlert]
    simp [(v.upper_ne_empty t ht).symm, EventType.ofText, EventType.text, eq_comm]
  | some value =>
    cases value with
    | str own =>
      simp only [FoundByType, shownType, eventType, upperType, hraw, Option.getD_some,
        Option.map_some, Option.some.injEq]
      cases hknown : EventType.ofText (v.upper own) with
      | none =>
        by_cases hown : v.upper own = v.upper t
        · have halert : v.upper t ≠ EventType.detectionAlert.text := fun h => by
            rw [hown, EventType.ofText_eq_some_iff.mpr h] at hknown
            cases hknown
          rw [hown] at hknown ⊢
          simp [hknown, halert.symm]
        · simp [hown, EventType.text, eq_comm]
      | some known =>
        have htext := EventType.ofText_eq_some_iff.mp hknown
        by_cases hown : v.upper own = v.upper t
        · simp [← hown, htext ▸ hknown, htext]
        · simp [hown, ← htext]
    -- any other value has no `upper`, and the event no normalised form
    | _ =>
      have hread : ¬v.Readable e := fun h => by
        obtain ⟨s, hs⟩ := h.type
        rw [hraw] at hs
        cases hs
      simp [FoundByType, upperType, hraw, hread]

theorem filtered_severity {limit : EventLimit} {s : String} (hs : s ≠ "") :
    v.filtered events { limit, severity := s } = some (events.filter (hasText "severity" s)) := by
  simp [filtered, hs]

/-- The filter by type raises at any event whose type is not a text. -/
theorem filtered_eventType (v : EventFormat) (events : List RawEvent) (limit : EventLimit)
    {t : String} (ht : t ≠ "") :
    v.filtered events { limit, eventType := t } =
      if events.all fun e => (v.upperType "" e).isSome then
        some (events.filter fun e => v.upperType "" e = some (v.upper t))
      else none := by
  simp only [filtered, ht, if_true, if_false]

end

/-- The counts are those of what is shown, and so are the filters, if each of the last
200 events is counted as it is shown, if the filter by severity finds what is in its
reach by what is shown, and if the one by type meets no type that is not a text and finds
by what is shown as well. -/
theorem dashboard_agrees_iff (v : EventFormat) (events : List RawEvent) (limit : EventLimit)
    (s t : String) (hs : s ≠ "") (ht : t ≠ "") :
    (v.CountsAgree events ∧
        v.ShowsLast events { limit, severity := s } (·.severity.text = s) ∧
        v.ShowsLast events { limit, eventType := t } (·.type.text = v.upper t)) ↔
      (∀ e ∈ events.rtake 200, v.CountedAsShown e) ∧
        (∀ e, InReach (hasText "severity" s) limit events e → v.FoundBySeverity s e) ∧
        (∀ e ∈ events, (v.upperType "" e).isSome) ∧
        ∀ e, InReach (fun e => v.upperType "" e = some (v.upper t)) limit events e →
          v.FoundByType t e := by
  refine and_congr countsAgree_iff (and_congr ?_ ?_)
  · rw [showsLast_iff (filtered_severity hs)]
    exact forall₂_congr fun e _ => foundBySeverity_iff
  -- one type that is not a text fails the whole request
  · have hfiltered := filtered_eventType v events limit ht
    split at hfiltered
    · next htyped =>
      rw [showsLast_iff hfiltered, and_iff_right (List.all_eq_true.mp htyped)]
      exact forall₂_congr fun e _ => foundByType_iff ht
    · next hraises =>
      refine iff_of_false ?_ fun h => hraises (List.all_eq_true.mpr h.1)
      rw [ShowsLast, hfiltered]
      rintro ⟨h, -⟩
      cases h

/-! ## Events that are not shown as they are counted -/

/-- A dashboard that is asked about events in ASCII, with a text as timestamp. -/
def ascii : EventFormat where
  repr _ := ""
  uint64Of _ := none
  upper := String.toUpper
  upper_of_ascii _ _ := rfl
  upper_ne_empty _ h := fun hupper => h (String.map_eq_empty.mp hupper)
  isoformat _ := none
  digest _ := "0123456789ab"
  time := const 0

/-- An event with a type and, if there is one, a severity. -/
def plainEvent (type : String) (severity : Option String) : RawEvent :=
  [("timestamp", .str "2024-05-01T10:00:00+00:00"), ("device_id", .str "edge-001"),
    ("type", .str type)] ++ severity.toList.map fun s => ("severity", .str s)

theorem dashboard_agrees_iff_plain :
    ascii.CountsAgree [plainEvent "SYSTEM_ERROR" (some "critical")] ∧
      ascii.ShowsLast [plainEvent "SYSTEM_ERROR" (some "critical")]
        { limit := ⟨50, by decide⟩, severity := "critical" } (·.severity.text = "critical") ∧
      ascii.ShowsLast [plainEvent "SYSTEM_ERROR" (some "critical")]
        { limit := ⟨50, by decide⟩, eventType := "system_error" }
        (·.type.text = ascii.upper "system_error") := by
  refine (dashboard_agrees_iff ascii _ _ _ _ (by decide) (by decide)).mpr ⟨?_, ?_, ?_, ?_⟩
  · intro e he
    obtain rfl := List.mem_singleton.mp he
    exact ⟨normalizeEvent_isSome_iff.mp (by decide +kernel), by decide +kernel⟩
  · intro e he
    obtain rfl := List.mem_singleton.mp he.mem
    exact foundBySeverity_iff.mp (by decide +kernel)
  · decide +kernel
  · intro e he
    obtain rfl := List.mem_singleton.mp he.mem
    refine (foundByType_iff (by decide)).mp ?_
    rw [show ascii.upper "system_error" = "SYSTEM_ERROR" by decide +kernel]
    decide +kernel

/-- An error with the severity `warning` is counted twice, an event without a severity
is shown as `info` and not found as that, and one of a type that the dashboard does not
know is shown as a `DETECTION_ALERT` and not found as that. -/
theorem not_dashboard_agrees :
    ¬ascii.CountsAgree [plainEvent "SYSTEM_ERROR" (some "warning")] ∧
      ¬ascii.ShowsLast [plainEvent "MODEL_LOADED" none]
        { limit := ⟨50, by decide⟩, severity := "info" } (·.severity.text = "info") ∧
      ¬ascii.ShowsLast [plainEvent "INTRUSION" (some "critical")]
        { limit := ⟨50, by decide⟩, eventType := "DETECTION_ALERT" }
        (·.type.text = ascii.upper "DETECTION_ALERT") := by
  refine ⟨?_, ?_, ?_⟩
  · rintro ⟨forms, hforms, hcounts⟩
    have hshown : (([plainEvent "SYSTEM_ERROR" (some "warning")].rtake 200).mapM
        ascii.normalizeEvent).map countsOf = some ⟨0, 1, 0⟩ := by decide +kernel
    have hcounted : ascii.alertCounts [plainEvent "SYSTEM_ERROR" (some "warning")] =
        some ⟨1, 1, 0⟩ := by decide +kernel
    rw [hforms, Option.map_some] at hshown
    rw [hcounted, hshown] at hcounts
    exact absurd hcounts (by decide)
  · rintro ⟨hchosen, -⟩
    exact absurd (congrArg (Option.map List.length) hchosen) (by decide +kernel)
  · rintro ⟨hchosen, -⟩
    exact absurd (congrArg (Option.map List.length) hchosen) (by decide +kernel)

end EventFormat
