-- SUMMARY: The queries of the detection store: which rows they match, in which order, and where their limit cuts.
import NeuroPipeline.Central.StoreRecords
import NeuroPipeline.Lib.LimitedQuery

/-!
# Queries of the store

Model of `query` of _detection_repo.py and of _timeseries_repo.py, the latter
without buckets, as all its callers here use it. A query sees the rows of its
connection. Rows with one timestamp come in any order.
-/

open OrderDual (toDual)

/-- An entry of an event's detections, as far as it is read. -/
structure StoredDetection where
  className : Option String
  deriving DecidableEq

/-- What `row_to_dict` makes of a row. -/
structure StoredEvent where
  timestamp : ℚ
  eventType : String
  detections : List StoredDetection
  vlmResult : Option String := none
  ruleMatched : Option String := none
  deviceId : String := ""
  deriving DecidableEq

structure SeriesPoint where
  timestamp : ℚ
  value : Binary64
  deriving DecidableEq

/-- `row_to_dict`, for the rows of one table. -/
def StoreRow.event (loads : String → List StoredDetection) : StoreRow → Option StoredEvent
  | .detection timestamp _ _ eventType detectionsJson vlmResult ruleMatched deviceId =>
    let detections := if detectionsJson = "" then [] else loads detectionsJson
    some ⟨timestamp, eventType, detections, vlmResult, ruleMatched, deviceId⟩
  | _ => none

/-- The store as queries meet it. -/
structure StoreReads where
  /-- what the connection sees -/
  rows : List StoreRow
  loads : String → List StoredDetection
  newestFirst : OrderBy fun e : StoredEvent => toDual e.timestamp
  oldestFirst : OrderBy SeriesPoint.timestamp
  /-- the attempts of `retry_sync` that raise -/
  raised : Nat → Bool := fun _ => false

namespace StoreReads

variable (s : StoreReads)

def attempts : List Nat := List.range (DetectionStore.maxRetries + 1)

/-- Some attempt does not raise. -/
def Answers : Prop := ∃ n ∈ attempts, s.raised n = false

instance : Decidable s.Answers :=
  inferInstanceAs (Decidable (∃ n ∈ attempts, s.raised n = false))

def retrySync {α : Type} (result : α) : Option α := if s.Answers then some result else none

/-! ## Events -/

def events : List StoredEvent := s.rows.filterMap (StoreRow.event s.loads)

/-- No device stands for all of them. -/
def ofDevice (deviceId own : String) : Bool := deviceId = "" || own = deviceId

/-- The `WHERE` of the query. -/
def matching (since until_ : ℚ) (deviceId : String) : List StoredEvent :=
  s.events.filter fun e =>
    since ≤ e.timestamp && e.timestamp ≤ until_ && ofDevice deviceId e.deviceId

/-- The end of the range that is read, where none is the clock. -/
def readUntil (until_ now : ℚ) : ℚ := if until_ ≤ 0 then now else until_

/-- The newest events of a range. -/
def newest (since until_ : ℚ) (deviceId : String) (limit : Int) : List StoredEvent :=
  limited limit (s.newestFirst.sort (s.matching since until_ deviceId))

def query (since until_ : ℚ) (limit : Int) (deviceId : String) (now : ℚ) :
    Option (List StoredEvent) :=
  s.retrySync (s.newest since (readUntil until_ now) deviceId limit)

/-! ## Time series -/

/-- The points of a metric in a range. -/
def points (metricName deviceId : String) (startTime endTime : ℚ) : List SeriesPoint :=
  s.rows.filterMap fun
    | .timeseries timestamp own metric value =>
      if metric = metricName && startTime ≤ timestamp && timestamp ≤ endTime &&
          ofDevice deviceId own then
        some ⟨timestamp, value⟩
      else none
    | _ => none

/-- The start of the range that is read, where none is a day before its end. -/
def readFrom (startTime endTime : ℚ) : ℚ := if startTime ≤ 0 then endTime - 86400 else startTime

def queryTimeseries (metricName deviceId : String) (startTime endTime : ℚ) (limit : Int) (now : ℚ) :
    Option (List SeriesPoint) :=
  let endTime := readUntil endTime now
  let startTime := readFrom startTime endTime
  s.retrySync (limited limit (s.oldestFirst.sort (s.points metricName deviceId startTime endTime)))

/-! ## What is read -/

variable {s}

theorem retrySync_eq_some {α : Type} {result x : α} :
    s.retrySync result = some x ↔ s.Answers ∧ result = x := by
  rw [retrySync]
  split
  · next h => simp [h]
  · next h => simp [h]

theorem retrySync_of_answers {α : Type} (h : s.Answers) (result : α) :
    s.retrySync result = some result := if_pos h

theorem retrySync_of_not_answers {α : Type} (h : ¬ s.Answers) (result : α) :
    s.retrySync result = none := if_neg h

theorem readUntil_of_pos {until_ : ℚ} (h : 0 < until_) (now : ℚ) : readUntil until_ now = until_ :=
  if_neg (not_le.mpr h)

theorem mem_points {metricName deviceId : String} {startTime endTime : ℚ} {p : SeriesPoint}
    (h : p ∈ s.points metricName deviceId startTime endTime) :
    startTime ≤ p.timestamp ∧ p.timestamp ≤ endTime := by
  obtain ⟨row, -, hrow⟩ := List.mem_filterMap.mp h
  cases row with
  | detection => cases hrow
  | conversation => cases hrow
  | timeseries timestamp own metric value =>
      simp only [Option.ite_none_right_eq_some, Option.some.injEq, Bool.and_eq_true,
        decide_eq_true_eq] at hrow
      obtain ⟨⟨⟨⟨-, hfrom⟩, hto⟩, -⟩, rfl⟩ := hrow
      exact ⟨hfrom, hto⟩

@[simp] theorem readUntil_zero (now : ℚ) : readUntil 0 now = now := if_pos le_rfl

/-- A limit that the rows are within does not cut any off. -/
theorem newest_perm {since until_ : ℚ} {deviceId : String} {limit : Nat}
    (h : (s.matching since until_ deviceId).length ≤ limit) :
    (s.newest since until_ deviceId limit).Perm (s.matching since until_ deviceId) := by
  rw [newest, limited_natCast, List.take_of_length_le (by rwa [OrderBy.length_sort])]
  exact s.newestFirst.perm _

theorem length_newest (since until_ : ℚ) (deviceId : String) (limit : Nat) :
    (s.newest since until_ deviceId limit).length =
      min limit (s.matching since until_ deviceId).length := by
  rw [newest, limited_natCast, List.length_take, OrderBy.length_sort]

end StoreReads

/-! ## Numbers and counts -/

/-- `int(q)` -/
def truncated (q : ℚ) : Int := q.num.tdiv q.den

/-- A number without the digits after the point, as `.0f` prints it. -/
def wholeText (q : ℚ) : String :=
  (if q < 0 then "-" else "") ++ toString (roundHalfEven |q|).natAbs

/-- One more of a class, a new class at the end. -/
def countClass (counts : List (String × Nat)) (className : String) : List (String × Nat) :=
  if counts.any fun p => p.1 = className then
    counts.map fun p => if p.1 = className then (p.1, p.2 + 1) else p
  else counts ++ [(className, 1)]

/-- The dictionary of how often each class was met. -/
def classCounts (classNames : List String) : List (String × Nat) := classNames.foldl countClass []

theorem classCounts_snoc (classNames : List String) (className : String) :
    classCounts (classNames ++ [className]) = countClass (classCounts classNames) className := by
  rw [classCounts, List.foldl_append]
  rfl

/-- Every class that was met is in the dictionary, with its count. -/
theorem classCounts_spec (classNames : List String) :
    (∀ p ∈ classCounts classNames, p.2 = classNames.count p.1) ∧
      ∀ c ∈ classNames, ∃ p ∈ classCounts classNames, p.1 = c := by
  induction classNames using List.reverseRecOn with
  | nil => simp [classCounts]
  | append_singleton classNames className ih =>
      obtain ⟨hcount, hmet⟩ := ih
      rw [classCounts_snoc, countClass]
      by_cases hany : ((classCounts classNames).any fun p => p.1 = className) = true
      · rw [if_pos hany]
        constructor
        · intro p hp
          obtain ⟨q, hq, rfl⟩ := List.mem_map.mp hp
          have hbefore := hcount q hq
          by_cases hclass : q.1 = className
          · rw [hclass] at hbefore
            simp [hclass, hbefore]
          · simp [hclass, hbefore, Ne.symm hclass]
        · intro c hc
          obtain ⟨q, hq, hclass⟩ : ∃ q ∈ classCounts classNames, q.1 = c := by
            rcases List.mem_append.mp hc with hold | hnew
            · exact hmet c hold
            · obtain rfl := List.mem_singleton.mp hnew
              simpa using hany
          refine ⟨_, List.mem_map_of_mem hq, ?_⟩
          split <;> exact hclass
      · rw [if_neg hany]
        have hnone : className ∉ classNames := by
          intro hmem
          obtain ⟨p, hp, hclass⟩ := hmet className hmem
          exact hany (List.any_eq_true.mpr ⟨p, hp, by simpa using hclass⟩)
        constructor
        · intro p hp
          rcases List.mem_append.mp hp with hold | hnew
          · have hclass : p.1 ≠ className := by
              intro heq
              exact hany (List.any_eq_true.mpr ⟨p, hold, by simpa using heq⟩)
            simp [hcount p hold, Ne.symm hclass]
          · obtain rfl := List.mem_singleton.mp hnew
            simp [List.count_eq_zero_of_not_mem hnone]
        · intro c hc
          rcases List.mem_append.mp hc with hold | hnew
          · obtain ⟨p, hp, hclass⟩ := hmet c hold
            exact ⟨p, List.mem_append_left _ hp, hclass⟩
          · obtain rfl := List.mem_singleton.mp hnew
            exact ⟨(c, 1), by simp, rfl⟩

theorem classCounts_ne_nil {classNames : List String} (h : classNames ≠ []) :
    classCounts classNames ≠ [] := by
  obtain ⟨c, hc⟩ := List.exists_mem_of_ne_nil _ h
  obtain ⟨p, hp, -⟩ := (classCounts_spec classNames).2 c hc
  exact List.ne_nil_of_mem hp

/-! ## Sample rows -/

def personJson : String := "[\x7b\"class_name\": \"person\"\x7d]"

def carJson : String := "[\x7b\"class_name\": \"car\"\x7d]"

/-- What `json.loads` makes of these texts. -/
def sampleLoads (json : String) : List StoredDetection :=
  if json = personJson then [⟨some "person"⟩]
  else if json = carJson then [⟨some "car"⟩]
  else []

def detectionRow (timestamp : ℚ) (detectionsJson : String) (deviceId : String) : StoreRow :=
  .detection timestamp none none "detection" detectionsJson none none deviceId

def sampleReads (rows : List StoreRow) : StoreReads where
  rows := rows
  loads := sampleLoads
  newestFirst := .insertion _
  oldestFirst := .insertion _

theorem answers_sampleReads (rows : List StoreRow) : (sampleReads rows).Answers :=
  ⟨0, by decide, rfl⟩
