-- SUMMARY: Anomaly baselines: statistics of a metric of a device, kept under a composed key, and the scores they give.
import NeuroPipeline.Central.StoreQueries
import NeuroPipeline.Lib.Dict
import NeuroPipeline.Lib.Rounding

/-!
# Anomaly baselines

Model of anomaly_baseline.py. What is only logged is left out.
-/

open CFloat (const)

/-- Functions of Python that round in their own way, or raise. -/
structure PyMath where
  sum : List Binary64 → Binary64
  /-- `x ** 2`; `none` is an OverflowError -/
  square : Binary64 → Option Binary64
  /-- `math.sqrt`; `none` is a ValueError -/
  sqrt : Binary64 → Option Binary64

namespace PyMath

/-- They make no rounding error where everything is zero. -/
structure ExactAtZero (math : PyMath) : Prop where
  sum : ∀ n, math.sum (List.replicate n (const 0)) = const 0
  square : math.square (const 0) = some (const 0)
  sqrt : math.sqrt (const 0) = some (const 0)

variable (math : PyMath)

/-- `sum(values) / n`; no values at all are a ZeroDivisionError. -/
def mean (values : List Binary64) : Option Binary64 :=
  if values.isEmpty then none else some (math.sum values / const values.length)

/-- The mean and the standard deviation. -/
def statistics (values : List Binary64) : Option (Binary64 × Binary64) := do
  let mean ← math.mean values
  let squares ← values.mapM fun v => math.square (v - mean)
  let variance ← math.mean squares
  let stdDev ← math.sqrt variance
  return (mean, stdDev)

/-! ## Zeros -/

variable {math}

theorem mean_zeros (h : math.ExactAtZero) {n : Nat} (hpos : 0 < n) (hn : n ≤ 10000) :
    math.mean (List.replicate n (const 0)) = some (const 0) := by
  have hfits : |(n : Int)| < 2 ^ 53 := by
    rw [abs_of_nonneg (Int.natCast_nonneg n)]
    omega
  have hcount : HasValue.value (const (n : ℚ) : Binary64) = some (n : ℚ) :=
    BinaryFloat.value_round_of_represents
      (BinaryFloat.represents_intCast (n := (n : Int)) hfits (by decide) (by decide))
  have hzero : HasValue.value (const 0 : Binary64) = some (0 : ℚ) :=
    BinaryFloat.value_round_of_represents (FloatFormat.represents_zero _)
  have hne : (n : ℚ) ≠ 0 := Nat.cast_ne_zero.mpr hpos.ne'
  have hquotient : (const 0 : Binary64) / const (n : ℚ) = const 0 := by
    rw [BinaryFloat.div_eq_round hzero hcount hne, zero_div]
    rfl
  have hnonempty : (List.replicate n (const 0 : Binary64)).isEmpty = false := by
    cases n with
    | zero => cases hpos
    | succ n => rfl
  rw [mean, hnonempty, h.sum, List.length_replicate, hquotient]
  rfl

theorem statistics_zeros (h : math.ExactAtZero) {n : Nat} (hpos : 0 < n) (hn : n ≤ 10000) :
    math.statistics (List.replicate n (const 0)) = some (const 0, const 0) := by
  have hdifference : (const 0 - const 0 : Binary64) = const 0 := by decide +kernel
  have hsquares : (List.replicate n (const 0)).mapM (fun v : Binary64 => math.square (v - const 0)) =
      some (List.replicate n (const 0)) := by
    clear hpos hn
    induction n with
    | zero => rfl
    | succ n ih =>
        rw [List.replicate_succ, List.mapM_cons, hdifference, h.square, ih]
        rfl
  rw [statistics, mean_zeros h hpos hn]
  simp only [Option.bind_eq_bind, Option.bind_some, hsquares, mean_zeros h hpos hn, h.sqrt]
  rfl

end PyMath

structure BaselineStats where
  metricName : String
  deviceId : String
  mean : Binary64
  stdDev : Binary64
  sampleCount : Nat
  lastUpdated : ℚ
  deriving DecidableEq

structure AnomalyScore where
  metricName : String
  deviceId : String
  value : Binary64
  zScore : Binary64
  isAnomaly : Bool
  baselineMean : Binary64
  baselineStd : Binary64
  deriving DecidableEq

structure MetricPair where
  deviceId : String
  metricName : String
  deriving DecidableEq

/-- `f"{device_id}:{metric_name}"` -/
def MetricPair.key (p : MetricPair) : String := p.deviceId ++ ":" ++ p.metricName

structure AnomalyBaseline where
  windowHours : ℚ := 168
  zThreshold : Binary64 := const 3
  minSamples : Int := 50
  baselines : Dict String BaselineStats := ∅

/-- A call that reads a series: the store as it is, if there is one, and the readings of
the clock, which counts from 1970. -/
structure SeriesCall where
  pair : MetricPair
  store : Option StoreReads
  now : ℚ
  queriedAt : ℚ
  now_pos : 0 < now

/-- The rows from `startTime` on; `none` without a store, or when the query raises. -/
def SeriesCall.read (call : SeriesCall) (startTime : ℚ) (limit : Nat) :
    Option (List SeriesPoint) :=
  call.store.bind fun store =>
    store.queryTimeseries call.pair.metricName call.pair.deviceId startTime call.now limit
      call.queriedAt

/-- A call of `learn_baseline`. -/
structure LearnStep extends SeriesCall where
  updatedAt : ℚ

/-- The baseline of a step. -/
def LearnStep.stats (step : LearnStep) (sampleCount : Nat) (mean stdDev : Binary64) :
    BaselineStats where
  metricName := step.pair.metricName
  deviceId := step.pair.deviceId
  mean := mean
  stdDev := stdDev
  sampleCount := sampleCount
  lastUpdated := step.updatedAt

namespace AnomalyBaseline

def queryLimit : Nat := 10000

variable (b : AnomalyBaseline) (math : PyMath)

def startTime (now : ℚ) : ℚ := now - b.windowHours * 3600

/-- The rows that a step reads. -/
def read (step : LearnStep) : Option (List SeriesPoint) :=
  step.toSeriesCall.read (b.startTime step.now) queryLimit

/-- What `learn_baseline` returns: `none` when it raises. -/
def learnBaseline (step : LearnStep) : AnomalyBaseline × Option (Option BaselineStats) :=
  if step.store.isNone then (b, some none)
  else
    match b.read step with
    | none => (b, none)
    | some rows =>
      let values := rows.map SeriesPoint.value
      if (values.length : Int) < b.minSamples then (b, some none)
      else
        match math.statistics values with
        | none => (b, none)
        | some (mean, stdDev) =>
          let baseline := step.stats values.length mean stdDev
          ({ b with baselines := b.baselines.set step.pair.key baseline }, some (some baseline))

/-- Comparison of floats by `==`. -/
def floatEq (x y : Binary64) : Bool := x ≤ y && y ≤ x

def absolute (x : Binary64) : Binary64 := if x < const 0 then -x else x

def score (p : MetricPair) (value : Binary64) : AnomalyScore :=
  match (b.baselines.lookup p.key).filter fun baseline => b.minSamples ≤ baseline.sampleCount with
  | none =>
    { metricName := p.metricName, deviceId := p.deviceId, value := value, zScore := const 0
      isAnomaly := false, baselineMean := const 0, baselineStd := const 0 }
  | some baseline =>
    let z :=
      if floatEq baseline.stdDev (const 0) then
        if floatEq value baseline.mean then const 0 else .inf false
      else absolute (value - baseline.mean) / baseline.stdDev
    { metricName := p.metricName, deviceId := p.deviceId, value := value, zScore := z
      isAnomaly := b.zThreshold ≤ z, baselineMean := baseline.mean, baselineStd := baseline.stdDev }

def getBaseline (p : MetricPair) : Option BaselineStats := b.baselines.lookup p.key

/-! ## Runs -/

def learn (step : LearnStep) : AnomalyBaseline := (b.learnBaseline math step).1

def learnAll (steps : List LearnStep) : AnomalyBaseline := steps.foldl (fun b => b.learn math) b

/-- After whatever was learned, learning for `p` leaves every score of `q` as it was. -/
def Independent (p q : MetricPair) : Prop :=
  ∀ history step, step.pair = p → ∀ value,
    ((b.learnAll math history).learn math step).score q value =
      (b.learnAll math history).score q value

/-- There are stores from which something is learned: the window is not empty, and the
samples that are needed are within the limit of the query. -/
def Learns : Prop := 0 ≤ b.windowHours ∧ b.minSamples ≤ queryLimit

variable {b math} {step : LearnStep} {p q : MetricPair}

/-! ## What a step does -/

theorem isNone_of_read {rows : List SeriesPoint} (hread : b.read step = some rows) :
    step.store.isNone = false := by
  obtain ⟨store, hstore, -⟩ := Option.bind_eq_some_iff.mp hread
  rw [hstore]
  rfl

/-- From so many points with these statistics. -/
theorem learnBaseline_of_statistics {rows : List SeriesPoint} {mean stdDev : Binary64}
    (hread : b.read step = some rows) (hsamples : b.minSamples ≤ rows.length)
    (hstatistics : math.statistics (rows.map SeriesPoint.value) = some (mean, stdDev)) :
    b.learnBaseline math step =
      ({ b with baselines := b.baselines.set step.pair.key (step.stats rows.length mean stdDev) },
        some (some (step.stats rows.length mean stdDev))) := by
  have henough : ¬ (rows.length : Int) < b.minSamples := not_lt.mpr hsamples
  simp only [learnBaseline, isNone_of_read hread, Bool.false_eq_true, if_false, hread,
    List.length_map, if_neg henough, hstatistics]

/-- A step learns nothing, or a baseline for the key of its pair. -/
theorem learn_cases (b : AnomalyBaseline) (math : PyMath) (step : LearnStep) :
    b.learn math step = b ∨ ∃ rows mean stdDev, b.read step = some rows ∧ rows ≠ [] ∧
      b.minSamples ≤ rows.length ∧ b.learn math step =
        { b with baselines := b.baselines.set step.pair.key (step.stats rows.length mean stdDev) } := by
  cases hread : b.read step with
  | none =>
      left
      simp only [learn, learnBaseline, hread]
      split <;> rfl
  | some rows =>
      have hstore := isNone_of_read hread
      by_cases hfew : ((rows.map SeriesPoint.value).length : Int) < b.minSamples
      · exact .inl (by simp only [learn, learnBaseline, hread, if_pos hfew, ite_self])
      · have hsamples : b.minSamples ≤ rows.length := by simpa using hfew
        cases hstatistics : math.statistics (rows.map SeriesPoint.value) with
        | none =>
            left
            simp only [learn, learnBaseline, hstore, hread, if_neg hfew, hstatistics,
              Bool.false_eq_true, if_false]
        | some result =>
            refine .inr ⟨rows, result.1, result.2, rfl, ?_, hsamples, ?_⟩
            · intro hnil
              rw [hnil] at hstatistics
              cases hstatistics
            · rw [learn, learnBaseline_of_statistics hread hsamples hstatistics]

theorem learn_fields (b : AnomalyBaseline) (math : PyMath) (step : LearnStep) :
    (b.learn math step).windowHours = b.windowHours ∧
      (b.learn math step).minSamples = b.minSamples := by
  rcases b.learn_cases math step with hsame | ⟨_, _, _, -, -, -, hlearn⟩
  · rw [hsame]
    exact ⟨rfl, rfl⟩
  · rw [hlearn]
    exact ⟨rfl, rfl⟩

theorem learns_learnAll (history : List LearnStep) :
    (b.learnAll math history).Learns ↔ b.Learns := by
  induction history generalizing b with
  | nil => rfl
  | cons step history ih =>
      obtain ⟨hwindow, hsamples⟩ := b.learn_fields math step
      rw [learnAll, List.foldl_cons]
      refine ih.trans ?_
      rw [Learns, Learns, hwindow, hsamples]

/-- Another key is not looked up. -/
theorem score_set_of_ne {baseline : BaselineStats} {k : String} (h : q.key ≠ k)
    (value : Binary64) :
    ({ b with baselines := b.baselines.set k baseline } : AnomalyBaseline).score q value =
      b.score q value := by
  simp only [score, Dict.lookup_set_of_ne h]

/-- What is read is in the window, and within the limit. -/
theorem learns_of_read {rows : List SeriesPoint} (hread : b.read step = some rows)
    (hrows : rows ≠ []) (hsamples : b.minSamples ≤ rows.length) : b.Learns := by
  obtain ⟨store, -, hquery⟩ := Option.bind_eq_some_iff.mp hread
  obtain ⟨-, rfl⟩ := StoreReads.retrySync_eq_some.mp hquery
  rw [StoreReads.readUntil_of_pos step.now_pos] at hrows hsamples
  rw [queryLimit, limited_natCast] at hrows hsamples
  refine ⟨?_, ?_⟩
  · by_contra hneg
    have hafter : step.now < b.startTime step.now := by
      rw [startTime]
      linarith
    have hstart : StoreReads.readFrom (b.startTime step.now) step.now = b.startTime step.now :=
      if_neg (not_le.mpr (step.now_pos.trans hafter))
    obtain ⟨point, hpoint⟩ := List.exists_mem_of_ne_nil _ hrows
    have hmem := (OrderBy.mem_sort _).mp (List.mem_of_mem_take hpoint)
    obtain ⟨hfrom, hto⟩ := StoreReads.mem_points hmem
    rw [hstart] at hfrom
    linarith
  · have hle := (Int.ofNat_le.mpr (List.length_take_le 10000 _)).trans' hsamples
    exact hle

/-! ## Independence -/

theorem independent_of_key_ne (h : p.key ≠ q.key) : b.Independent math p q := by
  intro history step hstep value
  rcases (b.learnAll math history).learn_cases math step with hsame | ⟨_, _, _, -, -, -, hlearn⟩
  · rw [hsame]
  · rw [hlearn, score_set_of_ne (by rw [hstep]; exact h.symm)]

theorem independent_of_not_learns (h : ¬ b.Learns) : b.Independent math p q := by
  intro history step _ value
  rcases (b.learnAll math history).learn_cases math step with
    hsame | ⟨rows, _, _, hread, hrows, hsamples, -⟩
  · rw [hsame]
  · exact absurd (learns_learnAll history |>.mp (learns_of_read hread hrows hsamples)) h

/-- Points of value 0 at one moment. -/
def zeroSeries (p : MetricPair) (n : Nat) (now : ℚ) : List StoreRow :=
  List.replicate n (.timeseries now p.deviceId p.metricName (const 0))

/-- As many as are needed, and at least one. -/
def zeroStep (b : AnomalyBaseline) (p : MetricPair) : LearnStep where
  pair := p
  store := some (sampleReads (zeroSeries p (max 1 b.minSamples.toNat) 1000))
  now := 1000
  queriedAt := 1000
  updatedAt := 1000
  now_pos := by norm_num

theorem read_zeroStep (h : b.Learns) : b.read (b.zeroStep p) =
    some (List.replicate (max 1 b.minSamples.toNat) ⟨1000, const 0⟩) := by
  obtain ⟨hwindow, hsamples⟩ := h
  rw [queryLimit] at hsamples
  have hstart : StoreReads.readFrom (b.startTime 1000) 1000 ≤ 1000 := by
    rw [StoreReads.readFrom, startTime]
    split <;> linarith
  obtain ⟨store, hstore⟩ : ∃ store, store = sampleReads (zeroSeries p (max 1 b.minSamples.toNat)
    1000) := ⟨_, rfl⟩
  have hpoints : store.points p.metricName p.deviceId
      (StoreReads.readFrom (b.startTime 1000) 1000) 1000 =
      List.replicate (max 1 b.minSamples.toNat) ⟨1000, const 0⟩ := by
    simp [hstore, sampleReads, zeroSeries, StoreReads.points, hstart, StoreReads.ofDevice]
  have hend : StoreReads.readUntil 1000 1000 = 1000 := StoreReads.readUntil_of_pos (by norm_num) _
  have hsort := store.oldestFirst.perm
    (List.replicate (max 1 b.minSamples.toNat) ⟨1000, const 0⟩)
  have hquery : b.read (b.zeroStep p) =
      store.queryTimeseries p.metricName p.deviceId (b.startTime 1000) 1000 queryLimit 1000 := by
    rw [hstore]
    rfl
  have hanswers : store.Answers := by
    rw [hstore]
    exact answers_sampleReads _
  rw [hquery, StoreReads.queryTimeseries, hend, hpoints, List.perm_replicate.mp hsort, queryLimit,
    limited_natCast, List.take_replicate, min_eq_right (by omega)]
  exact StoreReads.retrySync_of_answers hanswers _

/-- A baseline that is found under a shared key makes a score where there was none. -/
theorem not_independent (hmath : math.ExactAtZero) (hnew : b.baselines = ∅) (hlearns : b.Learns)
    (hkey : p.key = q.key) : ¬ b.Independent math p q := by
  intro h
  have hpositive : 0 < max 1 b.minSamples.toNat := by omega
  have hfits : max 1 b.minSamples.toNat ≤ 10000 := by
    have hsamples := hlearns.2
    rw [queryLimit] at hsamples
    omega
  have hstatistics := PyMath.statistics_zeros hmath hpositive hfits
  have hlearn : (b.learn math (b.zeroStep p)).baselines.lookup q.key =
      some ((b.zeroStep p).stats (max 1 b.minSamples.toNat) (const 0) (const 0)) := by
    rw [learn, learnBaseline_of_statistics (read_zeroStep hlearns) (by simp)
      (by simpa using hstatistics), List.length_replicate, ← hkey]
    exact Dict.lookup_set_self
  have hsame := congrArg AnomalyScore.zScore (h [] (b.zeroStep p) rfl (const 1))
  have hsamples := (b.learn_fields math (b.zeroStep p)).2
  have hbefore : (b.score q (const 1)).zScore = const 0 := by
    simp [score, hnew]
  have hafter : ((b.learn math (b.zeroStep p)).score q (const 1)).zScore = .inf false := by
    have henough : b.minSamples ≤ ((b.zeroStep p).stats (max 1 b.minSamples.toNat) (const 0)
        (const 0)).sampleCount := by
      change b.minSamples ≤ ((max 1 b.minSamples.toNat : Nat) : Int)
      omega
    have hzero : floatEq (const 0) (const 0) = true := by decide +kernel
    have hone : floatEq (const 1) (const 0) = false := by decide +kernel
    simp only [score, hlearn, hsamples, Option.filter_some, henough, decide_true, if_true]
    simp only [LearnStep.stats, hzero, hone, if_true, Bool.false_eq_true, if_false]
  rw [learnAll, List.foldl_nil, hafter, hbefore] at hsame
  exact absurd hsame (by decide +kernel)

/-- Learning for one pair leaves the scores of another alone just when their keys differ,
or nothing can be learned at all. -/
theorem independent_iff (hmath : math.ExactAtZero) (hnew : b.baselines = ∅) :
    b.Independent math p q ↔ p.key ≠ q.key ∨ ¬ b.Learns := by
  constructor
  · intro h
    by_contra hboth
    push Not at hboth
    exact not_independent hmath hnew hboth.2 hboth.1 h
  · rintro (hkey | hnothing)
    · exact independent_of_key_ne hkey
    · exact independent_of_not_learns hnothing

/-- Device ids without a colon do not share keys. -/
theorem eq_of_key_eq (hp : ':' ∉ p.deviceId.toList) (hq : ':' ∉ q.deviceId.toList)
    (h : p.key = q.key) : p = q := by
  have htexts : p.deviceId.toList ++ ':' :: p.metricName.toList =
      q.deviceId.toList ++ ':' :: q.metricName.toList := by
    simpa [MetricPair.key] using congrArg String.toList h
  have htake : ∀ {device metric : List Char}, ':' ∉ device →
      (device ++ ':' :: metric).takeWhile (· ≠ ':') = device := by
    intro device metric hdevice
    rw [List.takeWhile_append_of_pos (fun c hc => by simpa using ne_of_mem_of_not_mem hc hdevice)]
    simp
  have hdevice : p.deviceId.toList = q.deviceId.toList := by
    rw [← htake hp, htexts, htake hq]
  rw [hdevice, List.append_cancel_left_eq, List.cons.injEq] at htexts
  have hmetric := String.toList_inj.mp htexts.2
  cases p
  cases q
  rw [MetricPair.mk.injEq]
  exact ⟨String.toList_inj.mp hdevice, hmetric⟩

/-! ## A shared key -/

/-- Arithmetic that is right where the numbers are 0. -/
def zeroMath : PyMath where
  sum := List.foldl (· + ·) (const 0)
  square x := some (x * x)
  sqrt x := if x < const 0 then none else some x

theorem exactAtZero_zeroMath : zeroMath.ExactAtZero where
  sum n := by
    have hadd : (const 0 + const 0 : Binary64) = const 0 := by decide +kernel
    induction n with
    | zero => rfl
    | succ n ih =>
        rw [List.replicate_succ]
        change (List.replicate n (const 0)).foldl (· + ·) (const 0 + const 0) = const 0
        rw [hadd]
        exact ih
  square := by decide +kernel
  sqrt := by decide +kernel

/-- Two pairs with one key, and the settings of a new object. -/
theorem not_independent_colon :
    ¬ ({} : AnomalyBaseline).Independent zeroMath ⟨"a:b", "c"⟩ ⟨"a", "b:c"⟩ :=
  not_independent exactAtZero_zeroMath rfl ⟨by norm_num, by decide⟩ (by decide)

/-- Two metrics of one device. -/
theorem independent_iff_twoMetrics :
    ({} : AnomalyBaseline).Independent zeroMath ⟨"cam", "detections_count"⟩
      ⟨"cam", "vlm_analyses_count"⟩ :=
  (independent_iff exactAtZero_zeroMath rfl).mpr (.inl (by decide))

end AnomalyBaseline
