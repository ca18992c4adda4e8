-- SUMMARY: A box is sent with the id of its own detection exactly when no suppressed detection stands before a novel one.
import NeuroPipeline.Edge.Run

/-!
# Track ids on the wire

Ids are assigned to all detections of a frame, and paired with the novel ones by
position. The ids of a frame are distinct, so the pairing is right only if the
novel detections are the first ones.
-/

open DetectionCache (Verdict novelDetections)

/-! ## Filters and initial segments -/

section

variable {α : Type} {p : α → Bool}

/-- What a filter keeps of a list of pairs with distinct second components is an
initial segment exactly when nothing it drops stands before something it keeps. -/
theorem filter_eq_take_iff {l : List (α × Nat)} (h : (l.map Prod.snd).Nodup) :
    (l.map Prod.snd).take (l.filter fun a => p a.1).length =
        (l.filter fun a => p a.1).map Prod.snd ↔
      l.Pairwise fun a b => p b.1 = true → p a.1 = true := by
  induction l with
  | nil => simp
  | cons a l ih =>
      obtain ⟨hfresh, hnodup⟩ := List.nodup_cons.mp h
      rw [List.pairwise_cons, ← ih hnodup]
      cases hkeep : p a.1 with
      | true => simp [hkeep]
      | false =>
          rw [List.filter_cons_of_neg (by simp [hkeep])]
          cases hkept : l.filter fun a => p a.1 with
          | nil =>
              have hnone : ∀ b ∈ l, p b.1 ≠ true := List.filter_eq_nil_iff.mp hkept
              simpa using hnone
          | cons b kept =>
              have hb : b ∈ l.filter fun a => p a.1 := by
                rw [hkept]
                exact List.mem_cons_self
              obtain ⟨hmem, hkeepb⟩ := List.mem_filter.mp hb
              constructor
              · intro heq
                -- the first kept id would be the id of the dropped element
                have hhead : a.2 = b.2 := (List.cons.inj heq).1
                exact absurd (hhead ▸ List.mem_map_of_mem hmem) hfresh
              · rintro ⟨hall, -⟩
                cases hall b hmem hkeepb

end

namespace Coordinator

variable {F : Type}

/-- The ids of the novel ones among the detections. -/
def novelIds (verdicts : List (Verdict F)) (ids : List Nat) : List Nat :=
  ((verdicts.zip ids).filter fun p => p.1.novel).map Prod.snd

/-- No detection that the cache suppresses stands before one that it lets through. -/
def NovelFirst (verdicts : List (Verdict F)) : Prop :=
  verdicts.Pairwise fun u v => v.novel = true → u.novel = true

theorem novelFirst_zip {verdicts : List (Verdict F)} {ids : List Nat}
    (h : verdicts.length ≤ ids.length) :
    (verdicts.zip ids).Pairwise (fun p q => q.1.novel = true → p.1.novel = true) ↔
      NovelFirst verdicts := by
  conv_rhs => rw [← List.map_fst_zip h]
  rw [NovelFirst, List.pairwise_map]

theorem length_novelDetections {verdicts : List (Verdict F)} {ids : List Nat}
    (h : verdicts.length ≤ ids.length) :
    (novelDetections verdicts).length =
      ((verdicts.zip ids).filter fun p => p.1.novel).length := by
  conv_lhs => rw [← List.map_fst_zip h]
  rw [novelDetections, List.length_map, List.filter_map, List.length_map]
  rfl

/-! ## The boxes of a result -/

variable [CFloat F]

theorem buildResult_trackIds (c : Coordinator F) (n : Nat) (f : FrameInput F)
    {novel : List (DetectionBox F)} {ids : List Nat} (h : novel.length ≤ ids.length) :
    (c.buildResult n f novel ids).boxes.map BoundingBox.trackId = ids.take novel.length := by
  apply List.ext_getElem
  · simp [buildResult, h]
  · intro i hi _
    have hlt : i < ids.length := by
      rw [List.length_map, buildResult, List.length_mapIdx] at hi
      omega
    simp [buildResult, boundingBox, hlt]

/-- The boxes of a result, with as many distinct ids as there were detections. -/
theorem buildResult_novelIds (c : Coordinator F) (n : Nat) (f : FrameInput F)
    {verdicts : List (Verdict F)} {ids : List Nat} (hlength : verdicts.length = ids.length)
    (hnodup : ids.Nodup) :
    (c.buildResult n f (novelDetections verdicts) ids).boxes.map BoundingBox.trackId =
        novelIds verdicts ids ↔ NovelFirst verdicts := by
  have hids : (verdicts.zip ids).map Prod.snd = ids := List.map_snd_zip hlength.ge
  have hnovel := length_novelDetections hlength.le
  have hle : (novelDetections verdicts).length ≤ ids.length := by
    have hzip : (verdicts.zip ids).length = ids.length := by rw [← List.length_map, hids]
    rw [hnovel, ← hzip]
    exact List.length_filter_le _ _
  have hzip : ((verdicts.zip ids).map Prod.snd).Nodup := by rwa [hids]
  have hsegment := filter_eq_take_iff (p := Verdict.novel) hzip
  rw [hids, ← hnovel] at hsegment
  rw [buildResult_trackIds c n f hle, ← novelFirst_zip hlength.le]
  exact hsegment

end Coordinator

namespace EdgeSystem

variable {F : Type} [CFloat F] {P : Platform F}

/-- The boxes of the result carry the ids that `Update` gives to their own
detections: these are the novel ones among the detections of the frame. -/
def OwnIds (s : EdgeSystem P) (f : FrameInput F) (tracker : TemporalTracker F)
    (result : DetectionResult F) : Prop :=
  ∀ a, s.analyse f = some a →
    result.boxes.map BoundingBox.trackId =
      Coordinator.novelIds a.verdicts (tracker.update a.detections s.frameCount).2

/-- In any state, the result of a frame carries its own ids exactly when no
suppressed detection of the frame stands before a novel one. -/
theorem ownIds_iff_novelFirst {s : EdgeSystem P} {f : FrameInput F} {tracker : TemporalTracker F}
    {result : DetectionResult F} (htracker : s.coordinator.temporalTracker = some tracker)
    (hresult : s.handedResult f = some result) :
    OwnIds s f tracker result ↔ Coordinator.NovelFirst (s.verdicts (.frame f)) := by
  obtain ⟨a, hanalyse, rfl⟩ := handedResult_eq_some hresult
  obtain ⟨hanalysed, htrackIds⟩ := Coordinator.analyse_eq_some hanalyse
  have hids : a.trackIds = (tracker.update a.detections s.frameCount).2 := by
    rw [htrackIds, Coordinator.track, htracker]
  have hlength : a.verdicts.length = (tracker.update a.detections s.frameCount).2.length := by
    rw [tracker.update_length, hanalysed.verdicts, ← List.length_map Verdict.detection,
      DetectionCache.dedup_detections]
  have hboth := s.coordinator.buildResult_novelIds s.frameCount f hlength
    (tracker.update_nodup a.detections s.frameCount)
  rw [show s.verdicts (.frame f) = a.verdicts by simp [verdicts, hanalyse], ← hboth, hids]
  constructor
  · intro hown
    exact hown a hanalyse
  · intro hsame a' hanalyse'
    obtain rfl := Option.some.inj (hanalyse.symm.trans hanalyse')
    exact hsame

/-! ## A bicycle with the id of a person -/

def trackingConfig : PipelineConfig Binary32 := { smallConfig with enableTemporalTracker := true }

/-- A person is detected and reported. -/
def personFirst : List (EdgeAct Binary32) :=
  [.connect {}, .startEventStream {}, .frame (smallFrame [(0, 0, 3 / 4)]), .client {}, .client {},
    .finish]

/-- The next frame shows the same person and a bicycle. -/
def bicycleFrame : FrameInput Binary32 := smallFrame [(0, 0, 3 / 4), (1, 1, 3 / 4)]

/-- The one box of that frame is the bicycle's; it has the id 2, and is sent with 1. -/
theorem run_bicycle :
    ∃ t s tracker result, (edgeSystem (.small []) trackingConfig).Run
        (new _ (smallCoordinator trackingConfig)) t s ∧ t.map Prod.snd = personFirst ∧
      s.coordinator.temporalTracker = some tracker ∧
      s.handedResult bicycleFrame = some result ∧
      result.boxes.map BoundingBox.trackId = [1] ∧
      ((s.analyse bicycleFrame).map fun a =>
        Coordinator.novelIds a.verdicts (tracker.update a.detections s.frameCount).2) =
          some [2] := by
  have hview : ((edgeSystem (.small []) trackingConfig).execTrace
      (new _ (smallCoordinator trackingConfig)) personFirst).map (fun r =>
        (r.2.coordinator.temporalTracker.isSome,
          (r.2.handedResult bicycleFrame).map fun result => result.boxes.map BoundingBox.trackId,
          r.2.coordinator.temporalTracker.bind fun tracker => (r.2.analyse bicycleFrame).map fun a =>
            Coordinator.novelIds a.verdicts (tracker.update a.detections r.2.frameCount).2)) =
      some (true, some [1], some [2]) := by decide +kernel
  obtain ⟨t, s, hrun, hlabels, hlast⟩ := TransitionSystem.exists_run_of_execTrace hview
  simp only [Prod.mk.injEq] at hlast
  obtain ⟨htracker, hsent, hown⟩ := hlast
  obtain ⟨tracker, htracker⟩ := Option.isSome_iff_exists.mp htracker
  obtain ⟨result, hresult, hids⟩ := Option.map_eq_some_iff.mp hsent
  rw [htracker, Option.bind_some] at hown
  exact ⟨t, s, tracker, result, hrun, hlabels, htracker, hresult, hids, hown⟩

theorem not_ownIds_bicycle :
    ∃ s₀ t s tracker result, (edgeSystem (.small []) trackingConfig).init s₀ ∧
      (edgeSystem (.small []) trackingConfig).Run s₀ t s ∧ t.map Prod.snd = personFirst ∧
      s.coordinator.temporalTracker = some tracker ∧ s.handedResult bicycleFrame = some result ∧
      ¬ OwnIds s bicycleFrame tracker result := by
  obtain ⟨t, s, tracker, result, hrun, hlabels, htracker, hresult, hids, hown⟩ := run_bicycle
  refine ⟨_, t, s, tracker, result, init_small _ trackingConfig rfl, hrun, hlabels, htracker,
    hresult, ?_⟩
  intro howns
  obtain ⟨a, hanalyse, hnovel⟩ := Option.map_eq_some_iff.mp hown
  have hsame := howns a hanalyse
  rw [hids, hnovel] at hsame
  cases hsame

theorem ownIds_iff_novelFirst_bicycle :
    ∃ (s : EdgeSystem (.small [])) (tracker : TemporalTracker Binary32)
        (result : DetectionResult Binary32),
      (s.coordinator.temporalTracker = some tracker ∧ s.handedResult bicycleFrame = some result) ∧
      (OwnIds s bicycleFrame tracker result ↔
        Coordinator.NovelFirst (s.verdicts (.frame bicycleFrame))) := by
  obtain ⟨t, s, tracker, result, -, -, htracker, hresult, -⟩ := run_bicycle
  exact ⟨s, tracker, result, ⟨htracker, hresult⟩, ownIds_iff_novelFirst htracker hresult⟩

end EdgeSystem
