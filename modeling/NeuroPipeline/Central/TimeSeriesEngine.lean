-- SUMMARY: Trends of a metric, and which points of a window baselines and trends are made of.
import NeuroPipeline.Central.AnomalyBaseline

/-!
# Time series

Model of `detect_trend` of timeseries_engine.py. The query that it and
`learn_baseline` share returns the first points of a window.
-/

open CFloat (const)
open OrderDual (toDual)

inductive TrendDirection where
  | increasing
  | decreasing
  | stable
  deriving DecidableEq

structure TrendResult where
  metricName : String
  deviceId : String
  direction : TrendDirection
  slope : Binary64
  rSquared : Binary64
  sampleCount : Nat
  deriving DecidableEq

namespace TimeSeriesEngine

def queryLimit : Nat := 10000

/-- `_fetch_rows`, with an hour's 3600 seconds. -/
def fetchRows (call : SeriesCall) (hours : ℚ) : Option (List SeriesPoint) :=
  if call.store.isNone then some [] else call.read (call.now - hours * 3600) queryLimit

def direction (slope : Binary64) : TrendDirection :=
  if AnomalyBaseline.absolute slope < const 0.01 then .stable
  else if const 0 < slope then .increasing
  else .decreasing

/-- The regression over the positions of the values; `none` when a square overflows. -/
def regression (math : PyMath) (pair : MetricPair) (values : List Binary64) : Option TrendResult := do
  let n := values.length
  let positions := List.range n
  let xMean : Binary64 := const ((positions.sum : ℚ) / n)
  let yMean := math.sum values / const n
  let xy := (positions.zip values).map fun p => (const p.1 - xMean) * (p.2 - yMean)
  let ssXy := math.sum xy
  let ssXx := math.sum (← positions.mapM fun i : Nat => math.square (const i - xMean))
  if AnomalyBaseline.floatEq ssXx (const 0) then
    return ⟨pair.metricName, pair.deviceId, .stable, const 0, const 0, n⟩
  let slope := ssXy / ssXx
  let intercept := yMean - slope * xMean
  let ssRes := math.sum (← (positions.zip values).mapM fun p =>
    math.square (p.2 - (slope * const p.1 + intercept)))
  let ssTot := math.sum (← values.mapM fun v => math.square (v - yMean))
  let rSquared := if const 0 < ssTot then const 1 - ssRes / ssTot else const 0
  return ⟨pair.metricName, pair.deviceId, direction slope, slope, rSquared, n⟩

/-- `none` when it raises. -/
def detectTrend (math : PyMath) (call : SeriesCall) (hours : ℚ) : Option (Option TrendResult) :=
  (fetchRows call hours).bind fun rows =>
    let values := rows.map SeriesPoint.value
    if values.length < 3 then some none
    else (regression math call.pair values).map some

end TimeSeriesEngine

/-! ## Windows -/

namespace SeriesCall

variable (call : SeriesCall)

/-- The points of the window from `startTime` to now. -/
def window (store : StoreReads) (startTime : ℚ) : List SeriesPoint :=
  store.points call.pair.metricName call.pair.deviceId startTime call.now

/-- The points that the query matches. -/
def matched (store : StoreReads) (startTime : ℚ) : List SeriesPoint :=
  call.window store (StoreReads.readFrom startTime call.now)

/-- The newest points of the window, as many as the limit allows. -/
def Newest (store : StoreReads) (startTime : ℚ) (limit : Nat) (rows : List SeriesPoint) : Prop :=
  Leading (fun p : SeriesPoint => toDual p.timestamp) limit (call.window store startTime) rows

/-- The limit cuts nothing off, or points of one time; and where the query takes the start
for missing, it finds no others than those of the window, and enough of them. -/
structure KeepsNewest (store : StoreReads) (startTime : ℚ) (limit : Nat) : Prop where
  within : ∀ p ∈ call.matched store startTime, startTime ≤ p.timestamp
  enough : min limit (call.window store startTime).length ≤ (call.matched store startTime).length
  uncut : (call.matched store startTime).length ≤ limit ∨
    ∀ p ∈ call.matched store startTime, ∀ p' ∈ call.matched store startTime,
      p.timestamp = p'.timestamp

variable {call} {store : StoreReads} {startTime : ℚ} {limit : Nat} {rows : List SeriesPoint}

/-- A later start leaves the last points. -/
theorem filter_points {metricName deviceId : String} {from_ endTime : ℚ} (h : startTime ≤ from_) :
    (store.points metricName deviceId startTime endTime).filter (fun p => from_ ≤ p.timestamp) =
      store.points metricName deviceId from_ endTime := by
  rw [StoreReads.points, StoreReads.points, List.filter_filterMap]
  refine List.filterMap_congr fun row _ => ?_
  cases row with
  | detection => rfl
  | conversation => rfl
  | timeseries timestamp own metric value =>
      by_cases hfrom : from_ ≤ timestamp
      · have hstart : startTime ≤ timestamp := h.trans hfrom
        by_cases hrest : metric = metricName ∧ timestamp ≤ endTime ∧
            StoreReads.ofDevice deviceId own = true
        · simp [hfrom, hstart, hrest]
        · simp only [hfrom, hstart, decide_true, Bool.and_true]
          split
          · simpa using hfrom
          · rfl
      · simp only [hfrom, decide_false, Bool.and_false, Bool.false_and, Bool.false_eq_true, if_false]
        split
        · simpa using hfrom
        · rfl

theorem read_eq_some (hstore : call.store = some store) :
    call.read startTime limit = some rows ↔ store.Answers ∧
      (store.oldestFirst.sort (call.matched store startTime)).take limit = rows := by
  rw [read, hstore, Option.bind_some, StoreReads.queryTimeseries, StoreReads.retrySync_eq_some,
    StoreReads.readUntil_of_pos call.now_pos, limited_natCast]
  rfl

/-- A point from before the window is the first to be returned. -/
theorem within_of_newest (hlimit : 0 < limit)
    (h : call.Newest store startTime limit
      ((store.oldestFirst.sort (call.matched store startTime)).take limit)) :
    ∀ p ∈ call.matched store startTime, startTime ≤ p.timestamp := by
  intro p hp
  obtain ⟨-, left, hperm, -⟩ := h
  have hsorted := store.oldestFirst.sorted (call.matched store startTime)
  have hmem : p ∈ store.oldestFirst.sort (call.matched store startTime) :=
    store.oldestFirst.mem_sort.mpr hp
  cases hrows : store.oldestFirst.sort (call.matched store startTime) with
  | nil =>
      rw [hrows] at hmem
      cases hmem
  | cons first rest =>
      rw [hrows] at hmem hsorted hperm
      obtain ⟨n, rfl⟩ := Nat.exists_eq_succ_of_ne_zero hlimit.ne'
      have hfirst : first ∈ call.window store startTime := hperm.subset (by simp)
      have hstart := (StoreReads.mem_points hfirst).1
      rcases List.mem_cons.mp hmem with rfl | hlater
      · exact hstart
      · exact hstart.trans ((List.pairwise_cons.mp hsorted).1 p hlater)

/-- The first points of the query are the newest of the window. -/
theorem newest_iff (hlimit : 0 < limit) :
    call.Newest store startTime limit
        ((store.oldestFirst.sort (call.matched store startTime)).take limit) ↔
      call.KeepsNewest store startTime limit := by
  by_cases hwithin : ∀ p ∈ call.matched store startTime, startTime ≤ p.timestamp
  · -- what is matched is a last part of the window
    obtain ⟨q, hmatched, hlast⟩ : ∃ q : SeriesPoint → Bool,
        call.matched store startTime = (call.window store startTime).filter q ∧
        ∀ a ∈ call.window store startTime, ∀ b ∈ call.window store startTime,
          q a = true → q b = false → b.timestamp ≤ a.timestamp := by
      rcases le_total startTime (StoreReads.readFrom startTime call.now) with hle | hge
      · refine ⟨fun p => StoreReads.readFrom startTime call.now ≤ p.timestamp,
          (filter_points hle).symm, ?_⟩
        intro a _ b _ ha hb
        exact (not_le.mp (of_decide_eq_false hb)).le.trans (of_decide_eq_true ha)
      · have hwindow : call.window store startTime = call.matched store startTime := by
          rw [matched, window, window, ← filter_points hge]
          exact List.filter_eq_self.mpr fun p hp => by simpa using hwithin p hp
        exact ⟨fun _ => true, by rw [hwindow, List.filter_true], fun _ _ _ _ _ hb => by cases hb⟩
    have hsort := store.oldestFirst.perm (call.matched store startTime)
    have hlength := hsort.length_eq
    rw [hmatched] at hsort
    have hleading := leading_dual_iff hlimit hsort (store.oldestFirst.sorted _) hlast
    rw [← hmatched] at hleading
    refine hleading.trans ?_
    simp only [hlength, OrderBy.mem_sort]
    exact ⟨fun h => ⟨hwithin, h.1, h.2⟩, fun h => ⟨h.enough, h.uncut⟩⟩
  · constructor
    · intro h
      exact absurd (within_of_newest hlimit h) hwithin
    · intro h
      exact absurd h.within hwithin

theorem matched_of_pos (hstart : 0 < startTime) :
    call.matched store startTime = call.window store startTime := by
  rw [matched, StoreReads.readFrom, if_neg (not_le.mpr hstart)]

/-- Nothing is lost of a window that is within the limit. -/
theorem keepsNewest_of_length_le (hstart : 0 < startTime)
    (h : (call.window store startTime).length ≤ limit) :
    call.KeepsNewest store startTime limit := by
  have hmatched : call.matched store startTime = call.window store startTime :=
    matched_of_pos hstart
  refine ⟨?_, ?_, .inl ?_⟩
  · intro p hp
    rw [hmatched] at hp
    exact (StoreReads.mem_points hp).1
  · rw [hmatched]
    exact min_le_right _ _
  · rwa [hmatched]

/-- Whoever needs so many rows gets the newest, or none. -/
theorem newest_of_read_iff (hstore : call.store = some store) (hlimit : 0 < limit)
    (enough : Nat → Prop) :
    (∀ rows, call.read startTime limit = some rows → enough rows.length →
      call.Newest store startTime limit rows) ↔
    ¬ store.Answers ∨ ¬ enough (min limit (call.matched store startTime).length) ∨
      call.KeepsNewest store startTime limit := by
  have hlength : ((store.oldestFirst.sort (call.matched store startTime)).take limit).length =
      min limit (call.matched store startTime).length := by
    rw [List.length_take, OrderBy.length_sort]
  constructor
  · intro h
    by_cases hanswers : store.Answers
    · refine .inr ?_
      by_cases henough : enough (min limit (call.matched store startTime).length)
      · rw [← hlength] at henough
        exact .inr ((newest_iff hlimit).mp (h _ ((read_eq_some hstore).mpr ⟨hanswers, rfl⟩) henough))
      · exact .inl henough
    · exact .inl hanswers
  · intro h rows hrows henough
    obtain ⟨hanswers, rfl⟩ := (read_eq_some hstore).mp hrows
    rw [hlength] at henough
    rcases h with hraises | hfew | hkeeps
    · exact absurd hanswers hraises
    · exact absurd henough hfew
    · exact (newest_iff hlimit).mpr hkeeps

end SeriesCall

/-! ## Baselines and trends -/

/-- A baseline has the statistics of the newest points of its window. -/
def AnomalyBaseline.LearnsFromNewest (b : AnomalyBaseline) (math : PyMath) (step : LearnStep)
    (store : StoreReads) : Prop :=
  ∀ rows, b.read step = some rows → b.minSamples ≤ rows.length →
    step.Newest store (b.startTime step.now) AnomalyBaseline.queryLimit rows ∧
      ∀ baseline, (b.learnBaseline math step).2 = some (some baseline) →
        baseline.sampleCount = rows.length ∧
          math.statistics (rows.map SeriesPoint.value) = some (baseline.mean, baseline.stdDev)

theorem AnomalyBaseline.statistics_of_learnBaseline {b : AnomalyBaseline} {math : PyMath}
    {step : LearnStep} {rows : List SeriesPoint} {baseline : BaselineStats}
    (hread : b.read step = some rows) (hsamples : b.minSamples ≤ rows.length)
    (h : (b.learnBaseline math step).2 = some (some baseline)) :
    baseline.sampleCount = rows.length ∧
      math.statistics (rows.map SeriesPoint.value) = some (baseline.mean, baseline.stdDev) := by
  cases hstatistics : math.statistics (rows.map SeriesPoint.value) with
  | none =>
      have henough : ¬ (rows.length : Int) < b.minSamples := not_lt.mpr hsamples
      simp [AnomalyBaseline.learnBaseline, isNone_of_read hread, hread, henough, hstatistics] at h
  | some result =>
      rw [learnBaseline_of_statistics hread hsamples hstatistics] at h
      obtain rfl := Option.some.inj (Option.some.inj h)
      exact ⟨rfl, rfl⟩

namespace TimeSeriesEngine

/-- A trend is the regression over the newest points of its window. -/
def TrendOfNewest (math : PyMath) (call : SeriesCall) (store : StoreReads) (hours : ℚ) : Prop :=
  ∀ rows, fetchRows call hours = some rows → 3 ≤ rows.length →
    call.Newest store (call.now - hours * 3600) queryLimit rows ∧
      detectTrend math call hours =
        (regression math call.pair (rows.map SeriesPoint.value)).map some

theorem detectTrend_of_fetchRows {math : PyMath} {call : SeriesCall} {hours : ℚ}
    {rows : List SeriesPoint} (hrows : fetchRows call hours = some rows) (h : 3 ≤ rows.length) :
    detectTrend math call hours =
      (regression math call.pair (rows.map SeriesPoint.value)).map some := by
  rw [detectTrend, hrows, Option.bind_some]
  exact if_neg (by rw [List.length_map]; exact not_lt.mpr h)

/-- Baselines and trends are made of the newest points of their windows just when the query
raises, or returns too few points for them, or loses none of the newest. -/
theorem currentWindows_iff (b : AnomalyBaseline) (math : PyMath) (step : LearnStep)
    (call : SeriesCall) (hours : ℚ) {store store' : StoreReads} (hstep : step.store = some store)
    (hcall : call.store = some store') :
    (b.LearnsFromNewest math step store ↔ ¬ store.Answers ∨
      ¬ b.minSamples ≤ min AnomalyBaseline.queryLimit
        (step.matched store (b.startTime step.now)).length ∨
      step.KeepsNewest store (b.startTime step.now) AnomalyBaseline.queryLimit) ∧
    (TrendOfNewest math call store' hours ↔ ¬ store'.Answers ∨
      ¬ 3 ≤ min queryLimit (call.matched store' (call.now - hours * 3600)).length ∨
      call.KeepsNewest store' (call.now - hours * 3600) queryLimit) := by
  have hfetch : fetchRows call hours = call.read (call.now - hours * 3600) queryLimit := by
    rw [fetchRows, hcall]
    rfl
  constructor
  · rw [← SeriesCall.newest_of_read_iff hstep (by decide) fun n => b.minSamples ≤ n]
    refine forall_congr' fun rows => forall_congr' fun hread => forall_congr' fun hsamples => ?_
    exact and_iff_left fun baseline => AnomalyBaseline.statistics_of_learnBaseline hread hsamples
  · rw [← SeriesCall.newest_of_read_iff hcall (by decide) fun n => 3 ≤ n, ← hfetch]
    refine forall_congr' fun rows => forall_congr' fun hrows => forall_congr' fun hlength => ?_
    exact and_iff_left (detectTrend_of_fetchRows hrows hlength)

/-! ## A long series -/

/-- Old points, and a new one. -/
def longSeries (n : Nat) : StoreReads :=
  sampleReads (List.replicate n (.timeseries 1700000000 "cam" "detections_count" (const 2)) ++
    [.timeseries 1700000060 "cam" "detections_count" (const 3)])

/-- A call a minute later. -/
def longCall (n : Nat) : LearnStep where
  pair := ⟨"cam", "detections_count"⟩
  store := some (longSeries n)
  now := 1700000120
  queriedAt := 1700000120
  updatedAt := 1700000120
  now_pos := by norm_num

theorem matched_longSeries (n : Nat) {startTime : ℚ} (h₀ : 0 < startTime)
    (h : startTime ≤ 1700000000) : (longCall n).matched (longSeries n) startTime =
      List.replicate n ⟨1700000000, const 2⟩ ++ [⟨1700000060, const 3⟩] := by
  have hfrom : StoreReads.readFrom startTime 1700000120 = startTime := if_neg (not_le.mpr h₀)
  have hlater : startTime ≤ 1700000060 := h.trans (by norm_num)
  have hold : (1700000000 : ℚ) ≤ 1700000120 := by norm_num
  have hnew : (1700000060 : ℚ) ≤ 1700000120 := by norm_num
  simp [SeriesCall.matched, SeriesCall.window, longCall, hfrom, StoreReads.points, longSeries,
    sampleReads, h, hlater, hold, hnew, StoreReads.ofDevice]

theorem not_keepsNewest_longSeries {n : Nat} (hn : 0 < n) {startTime : ℚ} (h₀ : 0 < startTime)
    (h : startTime ≤ 1700000000) : ¬ (longCall n).KeepsNewest (longSeries n) startTime n := by
  rintro ⟨-, -, huncut⟩
  rw [matched_longSeries n h₀ h] at huncut
  rcases huncut with hlength | hequal
  · simp at hlength
  · have hdiffer := hequal ⟨1700000000, const 2⟩ (by simp [hn.ne']) ⟨1700000060, const 3⟩ (by simp)
    norm_num at hdiffer

theorem length_matched_longSeries (n : Nat) {startTime : ℚ} (h₀ : 0 < startTime)
    (h : startTime ≤ 1700000000) :
    min n ((longCall n).matched (longSeries n) startTime).length = n := by
  rw [matched_longSeries n h₀ h, List.length_append, List.length_replicate]
  exact min_eq_left (Nat.le_add_right n _)

theorem not_newest_longSeries {n : Nat} (hn : 0 < n) (startTime : ℚ) (h₀ : 0 < startTime)
    (h : startTime ≤ 1700000000) (enough : Nat → Prop) (henough : enough n) :
    ¬ ∀ rows, (longCall n).toSeriesCall.read startTime n = some rows → enough rows.length →
      (longCall n).Newest (longSeries n) startTime n rows := by
  intro hall
  rcases (SeriesCall.newest_of_read_iff rfl hn enough).mp hall with hraises | hfew | hkeeps
  · exact hraises (answers_sampleReads _)
  · rw [length_matched_longSeries n h₀ h] at hfew
    exact hfew henough
  · exact not_keepsNewest_longSeries hn h₀ h hkeeps

/-- With ten thousand old points in both windows the new one is left out. -/
theorem not_fromNewest_longSeries :
    ¬ ({} : AnomalyBaseline).LearnsFromNewest AnomalyBaseline.zeroMath (longCall 10000)
        (longSeries 10000) ∧
      ¬ TrendOfNewest AnomalyBaseline.zeroMath (longCall 10000).toSeriesCall (longSeries 10000)
        24 := by
  have hweek : ({} : AnomalyBaseline).startTime 1700000120 = 1699395320 := by
    norm_num [AnomalyBaseline.startTime]
  have hday : (1700000120 : ℚ) - 24 * 3600 = 1699913720 := by norm_num
  constructor
  · intro h
    refine not_newest_longSeries (n := 10000) (by decide) 1699395320 (by norm_num) (by norm_num)
      (fun n => (50 : Int) ≤ n) (by decide) ?_
    rw [← hweek]
    exact fun rows hread hsamples => (h rows hread hsamples).1
  · intro h
    refine not_newest_longSeries (n := 10000) (by decide) 1699913720 (by norm_num) (by norm_num)
      (fun n => 3 ≤ n) (by decide) ?_
    rw [← hday]
    exact fun rows hrows hlength => (h rows hrows hlength).1

/-- Three points are read whole, and are too few for a baseline. -/
theorem currentWindows_iff_threePoints :
    ({} : AnomalyBaseline).LearnsFromNewest AnomalyBaseline.zeroMath (longCall 2)
        (longSeries 2) ∧
      TrendOfNewest AnomalyBaseline.zeroMath (longCall 2).toSeriesCall (longSeries 2) 24 := by
  have hstore : (longCall 2).store = some (longSeries 2) := rfl
  obtain ⟨hlearns, htrend⟩ := currentWindows_iff {} AnomalyBaseline.zeroMath (longCall 2)
    (longCall 2).toSeriesCall 24 hstore hstore
  have hweek : ({} : AnomalyBaseline).startTime (longCall 2).now = 1699395320 := by
    norm_num [AnomalyBaseline.startTime, longCall]
  have hday : (longCall 2).now - 24 * 3600 = 1699913720 := by norm_num [longCall]
  refine ⟨hlearns.mpr (.inr (.inl ?_)), htrend.mpr (.inr (.inr ?_))⟩
  · rw [hweek, matched_longSeries 2 (by norm_num) (by norm_num)]
    decide
  · rw [hday]
    refine SeriesCall.keepsNewest_of_length_le (by norm_num) ?_
    rw [← SeriesCall.matched_of_pos (by norm_num),
      matched_longSeries 2 (by norm_num) (by norm_num)]
    decide

end TimeSeriesEngine
