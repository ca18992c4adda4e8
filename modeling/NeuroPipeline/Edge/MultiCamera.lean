-- SUMMARY: The processing loop with several cameras: they take turns and share one tracker.
import NeuroPipeline.Edge.CameraView
import NeuroPipeline.Edge.Run

/-!
# Several cameras

`Run` takes its frames from the sources in turn, by the number of the frame, and hands
the detections of all of them to one `TemporalTracker`. A round that is given up does
not count, and the next one goes to the same source.
-/

namespace EdgeSystem

variable {F : Type} [CFloat F] {P : Platform F}

/-! ## The law -/

/-- `active_cam_idx` -/
def camera (sources frameId : Nat) : Nat := frameId % sources

/-- A detection with a track id: the camera that it is from, and the id. -/
structure TrackedBy where
  camera : Nat
  trackId : Nat
  deriving DecidableEq

/-- What the tracker does for the detections of a step. -/
def tracked (p : EdgeSystem P × EdgeAct F) : List TrackedBy :=
  match p.2 with
  | .frame f =>
    match p.1.analyse f with
    | some a =>
      a.trackIds.map fun i => ⟨camera p.1.coordinator.config.sources p.1.frameCount, i⟩
    | none => []
  | _ => []

/-- The tracker, as it is made if there is none. -/
def tracker (s : EdgeSystem P) : TemporalTracker F := s.coordinator.temporalTracker.getD (.new {})

/-- The call of `Update` that a step makes. -/
def trackerCall (s : EdgeSystem P) : EdgeAct F → Option (TrackerCall F)
  | .frame f =>
    match s.coordinator.temporalTracker with
    | some _ => (s.analyse f).map fun a => ⟨a.detections, s.frameCount⟩
    | none => none
  | _ => none

/-- The ids that the detections of a camera are given, in their order. -/
def idsOfCamera (cam : Nat) (t : List (EdgeSystem P × EdgeAct F)) : List Nat :=
  ((t.flatMap tracked).filter fun g => g.camera = cam).map TrackedBy.trackId

/-- No track has detections of two cameras; the detections of a camera share ids as if the
tracker had been given the same frames with nothing on those of the others. -/
structure CamerasApart (sources : Nat) (t : List (EdgeSystem P × EdgeAct F)) : Prop where
  separate : ∀ g ∈ t.flatMap tracked, ∀ g' ∈ t.flatMap tracked,
    g.trackId = g'.trackId → g.camera = g'.camera
  undisturbed : ∀ cam t' tracker, (updateSystem {}).Run (.new {}) t' tracker →
    t'.map Prod.snd =
      (t.filterMap fun p => p.1.trackerCall p.2).map (updateSystem.mask (camera sources) cam) →
    updateSystem.SameSharing (idsOfCamera cam t) (updateSystem.idsOf (camera sources) cam t')

/-- No detection's best overlap with a track that is still free, if it reaches the threshold,
is with a track last seen by another camera. -/
def OwnMatches (sources : Nat) (s : EdgeSystem P) (l : EdgeAct F) : Prop :=
  ∀ call ∈ s.trackerCall l, TemporalTracker.OwnMatches (camera sources) s.tracker call

instance (sources : Nat) (s : EdgeSystem P) (l : EdgeAct F) : Decidable (OwnMatches sources s l) :=
  inferInstanceAs (Decidable (∀ call ∈ s.trackerCall l, _))

/-! ## The tracker in the loop -/

theorem analyse_temporalTracker {c : Coordinator F} {n : Nat} {f : FrameInput F} {a : Analysis F}
    (h : c.analyse P n f = some a) :
    a.coordinator.temporalTracker =
      c.temporalTracker.map fun t => (t.update a.detections n).1 := by
  unfold Coordinator.analyse at h
  split at h
  next =>
    obtain ⟨detections, -, rfl⟩ := Option.map_eq_some_iff.mp h
    simp only [Coordinator.dedup, Coordinator.track]
    cases htracker : c.temporalTracker with
    | none => exact htracker
    | some t => rfl
  next => cases h

theorem trackerCall_of_not_frame {s : EdgeSystem P} {l : EdgeAct F} (h : ∀ f, l ≠ .frame f) :
    s.trackerCall l = none := by
  cases l with
  | frame f => exact absurd rfl (h f)
  | _ => rfl

variable [OfNumeral F]

/-- Seen through the tracker, a run of the loop is a run of calls of `Update`. -/
theorem projects_tracker (P : Platform F) (config : PipelineConfig F) :
    TransitionSystem.Projects (edgeSystem P config) (updateSystem {}) EdgeSystem.tracker
      EdgeSystem.trackerCall := by
  intro s l s' hs
  cases step_coordinator hs with
  | analysed f a hlabel hanalyse hcoordinator =>
      subst hlabel
      have htracker := analyse_temporalTracker hanalyse
      rw [← hcoordinator] at htracker
      cases hbefore : s.coordinator.temporalTracker with
      | none =>
          rw [hbefore] at htracker
          simp only [trackerCall, hbefore, tracker, htracker]
          rfl
      | some t =>
          rw [hbefore] at htracker
          simp only [trackerCall, hbefore, hanalyse, tracker, htracker]
          rfl
  | commanded hlabel hcoordinator =>
      rw [trackerCall_of_not_frame hlabel]
      simp only [tracker, hcoordinator.temporalTracker]
  | same hlabel hcoordinator =>
      have hnone : s.trackerCall l = none := by
        cases l with
        | frame f =>
            simp only [trackerCall, hlabel f rfl]
            cases s.coordinator.temporalTracker <;> rfl
        | _ => rfl
      rw [hnone]
      simp only [tracker, hcoordinator]

omit [OfNumeral F] in
/-- The detections of a step are those that the call is given. -/
theorem tracked_eq {p : EdgeSystem P × EdgeAct F} {sources : Nat}
    (hsources : p.1.coordinator.config.sources = sources) :
    tracked p = ((p.1.trackerCall p.2).map fun call =>
      (p.1.tracker.update call.detections call.frameId).2.map fun i =>
        (⟨camera sources call.frameId, i⟩ : TrackedBy)).getD [] := by
  obtain ⟨s, l⟩ := p
  cases l with
  | frame f =>
      simp only [tracked, trackerCall]
      cases hanalyse : s.analyse f with
      | none => cases s.coordinator.temporalTracker <;> rfl
      | some a =>
          have hids : a.trackIds = (s.coordinator.track a.detections s.frameCount).2 :=
            (Coordinator.analyse_eq_some hanalyse).2
          cases htracker : s.coordinator.temporalTracker with
          | none =>
              rw [Coordinator.track, htracker] at hids
              have hnil : a.trackIds = [] := hids
              simp only [hnil]
              rfl
          | some t =>
              have htrack : s.tracker = t := by rw [tracker, htracker, Option.getD_some]
              rw [Coordinator.track, htracker] at hids
              simp only [Option.map_some, Option.getD_some]
              rw [hids, htrack, ← hsources]
  | _ => rfl

variable {config : PipelineConfig F} {s₀ s : EdgeSystem P} {t : List (EdgeSystem P × EdgeAct F)}

/-- The sources are those of the start. -/
theorem sources_eq (h₀ : (edgeSystem P config).init s₀) (hrun : (edgeSystem P config).Run s₀ t s) :
    ∀ p ∈ t, p.1.coordinator.config.sources = config.sources := by
  have hstart : s₀.coordinator.config.sources = config.sources := by
    obtain ⟨engineAnswer, modelAnswers, now, c, hc, rfl⟩ := h₀
    exact congrArg PipelineConfig.sources (Coordinator.initializePipeline_started hc).config
  apply hrun.invariant_trace (I := fun s => s.coordinator.config.sources = config.sources) _ hstart
  intro s l s' hsources hs
  obtain ⟨fps, threshold, hconfig⟩ := step_config hs
  rw [hconfig]
  exact hsources

/-- The calls of the tracker in a run. -/
abbrev calls (t : List (EdgeSystem P × EdgeAct F)) : List (TemporalTracker F × TrackerCall F) :=
  TransitionSystem.projectTrace EdgeSystem.tracker EdgeSystem.trackerCall t

omit [OfNumeral F] in
theorem flatMap_tracked {sources : Nat}
    (hsources : ∀ p ∈ t, p.1.coordinator.config.sources = sources) :
    t.flatMap tracked = (calls t).flatMap fun q =>
      (q.1.update q.2.detections q.2.frameId).2.map fun i => ⟨camera sources q.2.frameId, i⟩ := by
  induction t with
  | nil => rfl
  | cons p t ih =>
      have hrest := ih fun q hq => hsources q (List.mem_cons_of_mem p hq)
      rw [List.flatMap_cons, hrest, tracked_eq (hsources p List.mem_cons_self)]
      simp only [calls, TransitionSystem.projectTrace, List.filterMap_cons]
      cases hcall : p.1.trackerCall p.2 with
      | none => rfl
      | some call => rfl

omit [OfNumeral F] in
theorem mem_tracked_iff {sources : Nat}
    (hsources : ∀ p ∈ t, p.1.coordinator.config.sources = sources) {g : TrackedBy} :
    g ∈ t.flatMap tracked ↔ ∃ x ∈ updateSystem.sightings (calls t),
      (⟨camera sources x.frameId, x.trackId⟩ : TrackedBy) = g := by
  rw [flatMap_tracked hsources, updateSystem.sightings]
  simp only [List.mem_flatMap, List.mem_map]
  constructor
  · rintro ⟨q, hq, i, hi, rfl⟩
    obtain ⟨det, hgiven⟩ := TemporalTracker.mem_ids_iff.mp hi
    exact ⟨⟨q.2.frameId, i, det⟩, ⟨q, hq, updateSystem.mem_sighted.mpr ⟨rfl, hgiven⟩⟩, rfl⟩
  · rintro ⟨x, ⟨q, hq, hx⟩, rfl⟩
    obtain ⟨hframe, hgiven⟩ := updateSystem.mem_sighted.mp hx
    exact ⟨q, hq, x.trackId, TemporalTracker.mem_ids_iff.mpr ⟨_, hgiven⟩, by rw [hframe]⟩

omit [OfNumeral F] in
theorem idsOfCamera_eq {sources : Nat}
    (hsources : ∀ p ∈ t, p.1.coordinator.config.sources = sources) (cam : Nat) :
    idsOfCamera cam t = updateSystem.idsOf (camera sources) cam (calls t) := by
  rw [idsOfCamera, flatMap_tracked hsources, List.filter_flatMap, List.map_flatMap,
    updateSystem.idsOf]
  apply List.flatMap_congr
  intro q _
  rw [List.filter_map, List.map_map]
  by_cases hcam : camera sources q.2.frameId = cam
  · simp [hcam, Function.comp_def]
  · simp [hcam, Function.comp_def]

omit [OfNumeral F] in
theorem map_snd_calls (t : List (EdgeSystem P × EdgeAct F)) :
    (calls t).map Prod.snd = t.filterMap fun p => p.1.trackerCall p.2 := by
  rw [calls, TransitionSystem.projectTrace, List.map_filterMap]
  apply List.filterMap_congr
  intro p _
  cases p.1.trackerCall p.2 with
  | none => rfl
  | some call => rfl

omit [OfNumeral F] in
theorem tracker_new (config : PipelineConfig F) :
    (if config.enableTemporalTracker then some (TemporalTracker.new {}) else none).getD (.new {}) =
      (.new {} : TemporalTracker F) := by
  cases config.enableTemporalTracker <;> rfl

theorem tracker_init (h₀ : (edgeSystem P config).init s₀) : s₀.tracker = .new {} := by
  obtain ⟨engineAnswer, modelAnswers, now, c, hc, rfl⟩ := h₀
  unfold Coordinator.initializePipeline at hc
  obtain ⟨⟨engine, ok⟩, -, hc⟩ := Except.bind_eq_ok.mp hc
  cases ok with
  | false => cases Except.pure_eq_ok.mp hc
  | true =>
      simp only [Bool.not_true, Bool.false_eq_true, if_false] at hc
      split at hc
      all_goals
        obtain ⟨modelMgr, -, hc⟩ := Except.bind_eq_ok.mp hc
        obtain rfl := Option.some.inj (Except.pure_eq_ok.mp hc)
        exact tracker_new config

/-! ## Runs -/

/-- In every run the cameras are apart exactly when every frame matches tracks of its own
camera only. -/
theorem camerasApart_iff_ownMatches [LawfulCFloat F] (h₀ : (edgeSystem P config).init s₀)
    (hrun : (edgeSystem P config).Run s₀ t s) :
    CamerasApart config.sources t ↔ TransitionSystem.Respects (OwnMatches config.sources) t := by
  have hsources := sources_eq h₀ hrun
  have hcalls : (updateSystem {}).Run (.new {}) (calls t) s.tracker := by
    rw [← tracker_init h₀]
    exact hrun.project (projects_tracker P config)
  have hseparate : updateSystem.Separate (camera config.sources) (calls t) ↔
      ∀ g ∈ t.flatMap tracked, ∀ g' ∈ t.flatMap tracked,
        g.trackId = g'.trackId → g.camera = g'.camera := by
    constructor
    · intro h g hg g' hg' hid
      obtain ⟨x, hx, rfl⟩ := (mem_tracked_iff hsources).mp hg
      obtain ⟨x', hx', rfl⟩ := (mem_tracked_iff hsources).mp hg'
      exact h x hx x' hx' hid
    · intro h x hx x' hx' hid
      exact h _ ((mem_tracked_iff hsources).mpr ⟨x, hx, rfl⟩) _
        ((mem_tracked_iff hsources).mpr ⟨x', hx', rfl⟩) hid
  have hown : TransitionSystem.Respects (OwnMatches config.sources) t ↔
      TransitionSystem.Respects (TemporalTracker.OwnMatches (camera config.sources)) (calls t) :=
    TransitionSystem.respects_projectTrace.symm
  rw [hown, ← updateSystem.separate_iff hcalls, hseparate]
  constructor
  · exact fun h => h.separate
  · intro h
    refine ⟨h, ?_⟩
    intro cam t' tracker hrun' hlabels
    have ht := (updateSystem.separate_iff hcalls).mp (hseparate.mpr h)
    rw [idsOfCamera_eq hsources]
    apply updateSystem.undisturbed hcalls ht cam t' tracker hrun'
    rw [hlabels, map_snd_calls]

/-! ## Two cameras -/

def twoCameras : PipelineConfig Binary32 :=
  { smallConfig with grpcEnabled := false, enableTemporalTracker := true, sources := 2 }

/-- Both cameras see a person that fills the picture. -/
def bothSee : List (EdgeAct Binary32) :=
  [.connect {}, .startEventStream {}, .frame (smallFrame [(0, 0, 3 / 4)]), .finish,
    .frame (smallFrame [(0, 0, 3 / 4)])]

/-- The person of the second camera is given the track of the first one's. -/
theorem not_camerasApart_bothSee :
    ¬ ∀ (s₀ s : EdgeSystem (.small [])) (t : List (EdgeSystem (.small []) × EdgeAct Binary32)),
      (edgeSystem (.small []) twoCameras).init s₀ → (edgeSystem (.small []) twoCameras).Run s₀ t s →
        CamerasApart twoCameras.sources t := by
  intro h
  have hview : ((edgeSystem (.small []) twoCameras).execTrace
      (new _ (smallCoordinator twoCameras)) bothSee).map (fun x => x.1.flatMap tracked) =
        some [⟨0, 1⟩, ⟨1, 1⟩] := by
    decide +kernel
  obtain ⟨t, s, hrun, -, htracked⟩ := TransitionSystem.exists_run_of_execTrace hview
  have happart := (h _ _ _ (init_small _ twoCameras rfl) hrun).separate ⟨0, 1⟩ (by simp [htracked])
    ⟨1, 1⟩ (by simp [htracked]) rfl
  cases happart

/-- Only the first camera sees the person, in two frames. -/
def oneSees : List (EdgeAct Binary32) :=
  [.connect {}, .startEventStream {}, .frame (smallFrame [(0, 0, 3 / 4)]), .finish,
    .frame (smallFrame []), .finish, .frame (smallFrame [(0, 0, 3 / 4)])]

theorem camerasApart_iff_ownMatches_oneSees :
    ∃ t s, (edgeSystem (.small []) twoCameras).Run (new _ (smallCoordinator twoCameras)) t s ∧
      t.flatMap tracked = [⟨0, 1⟩, ⟨0, 1⟩] ∧
      TransitionSystem.Respects (OwnMatches twoCameras.sources) t ∧
      (CamerasApart twoCameras.sources t ↔
        TransitionSystem.Respects (OwnMatches twoCameras.sources) t) := by
  have hview : ((edgeSystem (.small []) twoCameras).execTrace
      (new _ (smallCoordinator twoCameras)) oneSees).map (fun x =>
        decide (x.1.flatMap tracked = [⟨0, 1⟩, ⟨0, 1⟩] ∧
          TransitionSystem.Respects (OwnMatches twoCameras.sources) x.1)) = some true := by
    decide +kernel
  obtain ⟨t, s, hrun, -, hview⟩ := TransitionSystem.exists_run_of_execTrace hview
  obtain ⟨htracked, ht⟩ := of_decide_eq_true hview
  exact ⟨t, s, hrun, htracked, ht, camerasApart_iff_ownMatches (init_small _ twoCameras rfl) hrun⟩

end EdgeSystem
