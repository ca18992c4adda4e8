-- SUMMARY: The A/B test of two model variants: groups, counters, the winner, and the samples that it is drawn from.
import NeuroPipeline.Central.AnomalyBaseline

/-!
# A/B tests

Model of ab_test_manager.py. Every method holds the lock, so the calls of all threads come
one after the other. `random.random()` is an argument of the calls that draw.
-/

open CFloat (const)

inductive ABGroup where
  | control
  | treatment
  deriving DecidableEq

structure VariantMetrics where
  variantName : String
  totalInferences : Nat := 0
  totalLatencyMs : Binary64 := const 0
  correctDetections : Nat := 0
  totalDetections : Nat := 0
  deriving DecidableEq

namespace VariantMetrics

def avgLatencyMs (m : VariantMetrics) : Binary64 :=
  m.totalLatencyMs / const (max m.totalInferences 1 : Nat)

def accuracy (m : VariantMetrics) : Binary64 :=
  const (m.correctDetections / (max m.totalDetections 1 : Nat))

/-- The branch of `record_inference` for a variant that there is. -/
def recordInference (m : VariantMetrics) (latencyMs : Binary64) : VariantMetrics :=
  { m with
    totalInferences := m.totalInferences + 1
    totalLatencyMs := m.totalLatencyMs + latencyMs }

def recordDetection (m : VariantMetrics) (correct : Bool) : VariantMetrics :=
  { m with
    totalDetections := m.totalDetections + 1
    correctDetections := m.correctDetections + correct.toNat }

def reset (m : VariantMetrics) : VariantMetrics := { variantName := m.variantName }

end VariantMetrics

structure ABTestResult where
  winner : String
  controlMetrics : VariantMetrics
  treatmentMetrics : VariantMetrics
  confidence : Binary64
  sufficientSamples : Bool
  deriving DecidableEq

structure ABTestManager where
  control : String
  treatment : String
  trafficSplit : Binary64
  minSamples : Int
  metric : String
  deviceGroups : Dict String ABGroup := ∅
  metrics : Dict String VariantMetrics

namespace ABTestManager

def new (controlVariant : String := "v1") (treatmentVariant : String := "v2")
    (trafficSplit : Binary64 := const 0.5) (minSamples : Int := 100)
    (metric : String := "accuracy") : ABTestManager where
  control := controlVariant
  treatment := treatmentVariant
  trafficSplit := CFloat.max (const 0) (CFloat.min (const 1) trafficSplit)
  minSamples := minSamples
  metric := metric
  metrics := .ofList [(controlVariant, { variantName := controlVariant }),
    (treatmentVariant, { variantName := treatmentVariant })]

def assignGroup (m : ABTestManager) (deviceId : String) (draw : Binary64) :
    ABTestManager × ABGroup :=
  match m.deviceGroups.lookup deviceId with
  | some group => (m, group)
  | none =>
    let group := if draw < m.trafficSplit then ABGroup.treatment else ABGroup.control
    ({ m with deviceGroups := m.deviceGroups.set deviceId group }, group)

def getGroup (m : ABTestManager) (deviceId : String) : Option ABGroup :=
  m.deviceGroups.lookup deviceId

def getVariant (m : ABTestManager) (deviceId : String) (draw : Binary64) :
    ABTestManager × String :=
  let (m, group) := m.assignGroup deviceId draw
  (m, if group = .control then m.control else m.treatment)

/-- The metrics of a variant change, if it is one of the two. -/
def update (m : ABTestManager) (variant : String) (f : VariantMetrics → VariantMetrics) :
    ABTestManager :=
  match m.metrics.lookup variant with
  | none => m
  | some metrics => { m with metrics := m.metrics.set variant (f metrics) }

def recordInference (m : ABTestManager) (variant : String) (latencyMs : Binary64) :
    ABTestManager :=
  m.update variant (·.recordInference latencyMs)

def recordDetection (m : ABTestManager) (variant : String) (correct : Bool) : ABTestManager :=
  m.update variant (·.recordDetection correct)

def reset (m : ABTestManager) : ABTestManager :=
  m.metrics.keys.foldl (fun m variant => m.update variant VariantMetrics.reset)
    { m with deviceGroups := ∅ }

def sufficient (m : ABTestManager) (ctrl treat : VariantMetrics) : Bool :=
  m.minSamples ≤ ctrl.totalInferences && m.minSamples ≤ treat.totalInferences

/-- The winner, and how far apart the scores are. -/
def compare (m : ABTestManager) (ctrl treat : VariantMetrics) : String × Binary64 :=
  if m.metric = "latency" then
    let ctrlScore := ctrl.avgLatencyMs
    let treatScore := treat.avgLatencyMs
    (if ctrlScore ≤ treatScore then m.control else m.treatment,
      AnomalyBaseline.absolute (ctrlScore - treatScore) /
        CFloat.max (CFloat.max ctrlScore treatScore) (const 1))
  else
    let ctrlScore := ctrl.accuracy
    let treatScore := treat.accuracy
    (if treatScore ≤ ctrlScore then m.control else m.treatment,
      AnomalyBaseline.absolute (ctrlScore - treatScore))

/-- `evaluate`; `none` for a `KeyError`. -/
def evaluate (m : ABTestManager) : Option ABTestResult := do
  let ctrl ← m.metrics.lookup m.control
  let treat ← m.metrics.lookup m.treatment
  let (winner, diff) := m.compare ctrl treat
  return {
    winner := winner
    controlMetrics := ctrl
    treatmentMetrics := treat
    confidence :=
      if m.sufficient ctrl treat then CFloat.min (diff * const 10) (const 1) else const 0
    sufficientSamples := m.sufficient ctrl treat }

end ABTestManager

/-! ## Runs -/

inductive ABCall where
  | getVariant (deviceId : String) (draw : Binary64)
  | recordInference (variant : String) (latencyMs : Binary64)
  | recordDetection (variant : String) (correct : Bool)
  | reset
  deriving DecidableEq

namespace ABCall

/-- What a call makes of the number of inferences of a variant. -/
def countInference (variant : String) (n : Nat) : ABCall → Nat
  | .recordInference v _ => if variant = v then n + 1 else n
  | .reset => 0
  | _ => n

def countDetection (variant : String) (n : Nat) : ABCall → Nat
  | .recordDetection v _ => if variant = v then n + 1 else n
  | .reset => 0
  | _ => n

/-- How many inferences of a variant are recorded, from the last reset on. -/
def inferences (variant : String) (calls : List ABCall) : Nat :=
  calls.foldl (countInference variant) 0

def detections (variant : String) (calls : List ABCall) : Nat :=
  calls.foldl (countDetection variant) 0

theorem inferences_snoc (variant : String) (calls : List ABCall) (c : ABCall) :
    inferences variant (calls ++ [c]) = countInference variant (inferences variant calls) c := by
  rw [inferences, List.foldl_append]
  rfl

theorem detections_snoc (variant : String) (calls : List ABCall) (c : ABCall) :
    detections variant (calls ++ [c]) = countDetection variant (detections variant calls) c := by
  rw [detections, List.foldl_append]
  rfl

end ABCall

namespace ABTestManager

def call (m : ABTestManager) : ABCall → ABTestManager
  | .getVariant deviceId draw => (m.getVariant deviceId draw).1
  | .recordInference variant latencyMs => m.recordInference variant latencyMs
  | .recordDetection variant correct => m.recordDetection variant correct
  | .reset => m.reset

def run (m : ABTestManager) (calls : List ABCall) : ABTestManager := calls.foldl call m

variable {m : ABTestManager} {variant : String} {calls : List ABCall}

/-! ### What a call changes -/

/-- Two managers for the same test. -/
structure SameTest (m m' : ABTestManager) : Prop where
  control : m'.control = m.control
  treatment : m'.treatment = m.treatment
  minSamples : m'.minSamples = m.minSamples
  metric : m'.metric = m.metric

theorem SameTest.refl (m : ABTestManager) : SameTest m m := ⟨rfl, rfl, rfl, rfl⟩

theorem SameTest.trans {m m' m'' : ABTestManager} (h : SameTest m m') (h' : SameTest m' m'') :
    SameTest m m'' :=
  ⟨h'.control.trans h.control, h'.treatment.trans h.treatment,
    h'.minSamples.trans h.minSamples, h'.metric.trans h.metric⟩

theorem sameTest_update (m : ABTestManager) (variant : String)
    (f : VariantMetrics → VariantMetrics) : SameTest m (m.update variant f) := by
  unfold update
  split
  · exact .refl m
  · exact ⟨rfl, rfl, rfl, rfl⟩

theorem lookup_update (m : ABTestManager) (u : String) (f : VariantMetrics → VariantMetrics)
    (v : String) : (m.update u f).metrics.lookup v =
      if v = u then (m.metrics.lookup v).map f else m.metrics.lookup v := by
  unfold update
  split
  next hu =>
      split
      next heq => rw [heq, hu, Option.map_none]
      next => rfl
  next metrics hu =>
      rw [Dict.lookup_set]
      split
      next heq => rw [heq, hu, Option.map_some]
      next => rfl

/-- The loop of `reset`, over some of the variants. -/
theorem foldl_reset (variants : List String) (m : ABTestManager) :
    SameTest m (variants.foldl (fun m variant => m.update variant VariantMetrics.reset) m) ∧
      ∀ v, (variants.foldl (fun m variant => m.update variant VariantMetrics.reset)
        m).metrics.lookup v =
          if v ∈ variants then (m.metrics.lookup v).map VariantMetrics.reset
          else m.metrics.lookup v := by
  induction variants generalizing m with
  | nil => exact ⟨.refl m, fun v => by simp⟩
  | cons u variants ih =>
      obtain ⟨hsame, hlookup⟩ := ih (m.update u VariantMetrics.reset)
      refine ⟨(m.sameTest_update u _).trans hsame, ?_⟩
      intro v
      rw [List.foldl_cons, hlookup, lookup_update]
      by_cases hu : v = u
      · -- a second reset changes nothing
        have htwice : VariantMetrics.reset ∘ VariantMetrics.reset = VariantMetrics.reset := rfl
        simp [hu, Option.map_map, htwice]
      · simp [hu]

theorem sameTest_reset (m : ABTestManager) : SameTest m m.reset := by
  obtain ⟨hsame, -⟩ := foldl_reset m.metrics.keys { m with deviceGroups := ∅ }
  exact ⟨hsame.control, hsame.treatment, hsame.minSamples, hsame.metric⟩

theorem lookup_reset (m : ABTestManager) (v : String) :
    m.reset.metrics.lookup v = (m.metrics.lookup v).map VariantMetrics.reset := by
  obtain ⟨-, hlookup⟩ := foldl_reset m.metrics.keys { m with deviceGroups := ∅ }
  rw [reset, hlookup]
  split
  next => rfl
  next hnot =>
      rw [AList.lookup_eq_none.mpr hnot]
      rfl

/-- A device keeps its group. -/
theorem assignGroup_of_assigned {deviceId : String} {group : ABGroup}
    (h : m.getGroup deviceId = some group) (draw : Binary64) :
    m.assignGroup deviceId draw = (m, group) := by
  rw [getGroup] at h
  rw [assignGroup, h]

theorem getGroup_assignGroup (m : ABTestManager) (deviceId : String) (draw : Binary64) :
    (m.assignGroup deviceId draw).1.getGroup deviceId = some (m.assignGroup deviceId draw).2 := by
  unfold assignGroup
  split
  next group h => exact h
  next => exact Dict.lookup_set_self

theorem getVariant_metrics (m : ABTestManager) (deviceId : String) (draw : Binary64) :
    SameTest m (m.getVariant deviceId draw).1 ∧
      (m.getVariant deviceId draw).1.metrics = m.metrics := by
  rw [getVariant, assignGroup]
  cases m.deviceGroups.lookup deviceId with
  | none => exact ⟨⟨rfl, rfl, rfl, rfl⟩, rfl⟩
  | some group => exact ⟨.refl m, rfl⟩

/-! ### Counters -/

/-- The counters of a variant are those of the calls. -/
def Counts (m : ABTestManager) (calls : List ABCall) (variant : String) : Prop :=
  ∃ metrics, m.metrics.lookup variant = some metrics ∧
    metrics.totalInferences = ABCall.inferences variant calls ∧
    metrics.totalDetections = ABCall.detections variant calls

theorem sameTest_call (m : ABTestManager) (c : ABCall) : SameTest m (m.call c) := by
  cases c with
  | getVariant deviceId draw => exact (m.getVariant_metrics deviceId draw).1
  | recordInference variant latencyMs => exact m.sameTest_update variant _
  | recordDetection variant correct => exact m.sameTest_update variant _
  | reset => exact m.sameTest_reset

theorem Counts.call (h : m.Counts calls variant) (c : ABCall) :
    (m.call c).Counts (calls ++ [c]) variant := by
  obtain ⟨metrics, hlookup, hinferences, hdetections⟩ := h
  rw [Counts, ABCall.inferences_snoc, ABCall.detections_snoc, ← hinferences, ← hdetections]
  cases c with
  -- a group may be assigned, and no counter changes
  | getVariant deviceId draw =>
      rw [ABTestManager.call, (m.getVariant_metrics deviceId draw).2]
      exact ⟨metrics, hlookup, rfl, rfl⟩
  | recordInference u latencyMs =>
      rw [ABTestManager.call, recordInference, lookup_update, hlookup, ABCall.countInference]
      -- a call for another name, known or not, leaves this variant alone
      split
      next => exact ⟨_, rfl, rfl, rfl⟩
      next => exact ⟨metrics, rfl, rfl, rfl⟩
  | recordDetection u correct =>
      rw [ABTestManager.call, recordDetection, lookup_update, hlookup, ABCall.countDetection]
      split
      next => exact ⟨_, rfl, rfl, rfl⟩
      next => exact ⟨metrics, rfl, rfl, rfl⟩
  | reset =>
      rw [ABTestManager.call, lookup_reset, hlookup]
      exact ⟨_, rfl, rfl, rfl⟩

theorem run_snoc (m : ABTestManager) (calls : List ABCall) (c : ABCall) :
    m.run (calls ++ [c]) = (m.run calls).call c := by
  rw [run, List.foldl_append]
  rfl

theorem sameTest_run (m : ABTestManager) (calls : List ABCall) : SameTest m (m.run calls) := by
  induction calls using List.reverseRecOn with
  | nil => exact .refl m
  | append_singleton calls c ih =>
      rw [run_snoc]
      exact ih.trans ((m.run calls).sameTest_call c)

theorem Counts.run (h : m.Counts [] variant) (calls : List ABCall) :
    (m.run calls).Counts calls variant := by
  induction calls using List.reverseRecOn with
  | nil => exact h
  | append_singleton calls c ih =>
      rw [run_snoc]
      exact ih.call c

/-! ## Samples -/

/-- The observations that a metric is computed from. -/
def observations (metric variant : String) (calls : List ABCall) : Nat :=
  if metric = "latency" then ABCall.inferences variant calls else ABCall.detections variant calls

/-- A result with a confidence, or one that is said to rest on enough samples. -/
def Concludes (r : ABTestResult) : Prop := r.confidence ≠ const 0 ∨ r.sufficientSamples = true

/-- `evaluate` answers, and concludes only from enough of what it compares. -/
def ConcludesFromEnough (m : ABTestManager) (calls : List ABCall) : Prop :=
  ∃ r, (m.run calls).evaluate = some r ∧ (Concludes r → ∀ v ∈ [m.control, m.treatment],
    m.minSamples ≤ observations m.metric v calls)

theorem counts_new (control treatment : String) (split : Binary64) (minSamples : Int)
    (metric : String) : ∀ v ∈ [control, treatment],
      (new control treatment split minSamples metric).Counts [] v := by
  intro v hv
  have hmetrics : (new control treatment split minSamples metric).metrics =
      Dict.set (Dict.set ∅ control { variantName := control }) treatment
        { variantName := treatment } := rfl
  refine ⟨{ variantName := v }, ?_, rfl, rfl⟩
  rw [hmetrics, Dict.lookup_set, Dict.lookup_set]
  simp only [List.mem_cons, List.not_mem_nil, or_false] at hv
  -- if both have one name, its only entry is that of the treatment
  by_cases htreatment : v = treatment
  · rw [if_pos htreatment, htreatment]
  · have hcontrol : v = control := hv.resolve_right htreatment
    rw [if_neg htreatment, if_pos hcontrol, hcontrol]

theorem evaluate_of_lookup {ctrl treat : VariantMetrics}
    (hctrl : m.metrics.lookup m.control = some ctrl)
    (htreat : m.metrics.lookup m.treatment = some treat) :
    ∃ r, m.evaluate = some r ∧ (Concludes r ↔ m.sufficient ctrl treat = true) := by
  rw [evaluate, hctrl, htreat]
  refine ⟨_, rfl, ?_⟩
  unfold Concludes
  cases m.sufficient ctrl treat with
  | true => exact iff_of_true (.inr rfl) rfl
  | false => exact iff_of_false (by simp) Bool.false_ne_true

/-- The gate counts inferences, whatever is compared. -/
theorem evaluate_run (m : ABTestManager) (calls : List ABCall)
    (h : ∀ v ∈ [m.control, m.treatment], m.Counts [] v) :
    ∃ r, (m.run calls).evaluate = some r ∧ (Concludes r ↔
      ∀ v ∈ [m.control, m.treatment], m.minSamples ≤ ABCall.inferences v calls) := by
  have hsame := m.sameTest_run calls
  obtain ⟨ctrl, hctrl, hcontrol, -⟩ := (h m.control (by simp)).run calls
  obtain ⟨treat, htreat, htreatment, -⟩ := (h m.treatment (by simp)).run calls
  rw [← hsame.control] at hctrl
  rw [← hsame.treatment] at htreat
  obtain ⟨r, hr, hconcludes⟩ := evaluate_of_lookup hctrl htreat
  refine ⟨r, hr, hconcludes.trans ?_⟩
  rw [sufficient, hsame.minSamples, hcontrol, htreatment]
  simp

/-- An accuracy is concluded from too little exactly when both variants have the inferences
and one lacks the detections. -/
theorem concludesFromEnough_iff (control treatment : String) (split : Binary64)
    (minSamples : Int) (metric : String) (calls : List ABCall) :
    (new control treatment split minSamples metric).ConcludesFromEnough calls ↔
      metric = "latency" ∨
        (∃ v ∈ [control, treatment], ABCall.inferences v calls < minSamples) ∨
        ∀ v ∈ [control, treatment], minSamples ≤ ABCall.detections v calls := by
  obtain ⟨r, hr, hconcludes⟩ := evaluate_run (new control treatment split minSamples metric) calls
    (counts_new control treatment split minSamples metric)
  have henough : (new control treatment split minSamples metric).ConcludesFromEnough calls ↔
      (Concludes r → ∀ v ∈ [control, treatment], minSamples ≤ observations metric v calls) := by
    constructor
    · rintro ⟨r', hr', h⟩
      rw [hr] at hr'
      obtain rfl := Option.some_inj.mp hr'
      exact h
    · exact fun h => ⟨r, hr, h⟩
  have hgate : Concludes r ↔
      ¬∃ v ∈ [control, treatment], ABCall.inferences v calls < minSamples := by
    rw [hconcludes]
    simp only [not_exists, not_and, not_lt]
    rfl
  rw [henough, hgate]
  -- the mean of a latency is over the inferences, which are what the gate counts
  by_cases hmetric : metric = "latency"
  · refine iff_of_true ?_ (.inl hmetric)
    intro hall v hv
    rw [observations, if_pos hmetric]
    exact not_lt.mp fun hlt => hall ⟨v, hv, hlt⟩
  · simp only [observations, hmetric, if_false, false_or]
    exact or_iff_not_imp_left.symm

/-- One inference each, and a detection of one variant alone. -/
def earlyCalls : List ABCall :=
  [.recordInference "v1" (const 10), .recordInference "v2" (const 12), .recordDetection "v1" true]

/-- An accuracy of 1 against one that nothing is known of. -/
theorem not_concludesFromEnough_early :
    ¬(new "v1" "v2" (const 0.5) 1).ConcludesFromEnough earlyCalls := by
  rintro ⟨r, hr, h⟩
  have hresult : ((new "v1" "v2" (const 0.5) 1).run earlyCalls).evaluate.map
      (fun r => (r.confidence, r.sufficientSamples)) = some (const 1, true) := by decide +kernel
  rw [hr] at hresult
  have hconcludes : Concludes r := .inr (Prod.mk.inj (Option.some_inj.mp hresult)).2
  have hfew := h hconcludes "v2" (by simp [new])
  exact absurd hfew (by decide +kernel)

end ABTestManager
