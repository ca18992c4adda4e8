-- SUMMARY: What the cache suppresses was sent before, as long as no novel detection falls to the frame skip.
import NeuroPipeline.Edge.Run

/-!
# Deduplication and the frame skip

A detection enters the cache when it is tested, and the frame skip is decided
afterwards. The entries of the cache are traced back to the results that were
handed over.
-/

open DetectionCache (Verdict computeIoU)

/-- The box was made from the detection. -/
structure BoundingBox.Depicts {F : Type} (b : BoundingBox F) (det : DetectionBox F) : Prop where
  className : b.className = det.className
  confidence : b.confidence = det.confidence
  xMin : b.xMin = det.xMin
  yMin : b.yMin = det.yMin
  xMax : b.xMax = det.xMax
  yMax : b.yMax = det.yMax

namespace EdgeSystem

variable {F : Type} [CFloat F] {P : Platform F}

/-- The detection was handed to the client, in the frame that found it novel. -/
def HandedOver (t : List (EdgeSystem P × EdgeAct F)) (u : Verdict F) : Prop :=
  ∃ p ∈ t, u ∈ p.1.verdicts p.2 ∧
    ∃ result, p.1.hands p.2 = some result ∧ ∃ b ∈ result.boxes, b.Depicts u.detection

/-- The detection `u` stands for `v`: same class, enough overlap, and not too old. -/
structure StandsFor (config : PipelineConfig F) (u v : Verdict F) : Prop where
  className : u.detection.className = v.detection.className
  overlap : config.dedupIouThreshold ≤
    computeIoU u.detection.xMin u.detection.yMin u.detection.xMax u.detection.yMax
      v.detection.xMin v.detection.yMin v.detection.xMax v.detection.yMax
  earlier : u.timestamp ≤ v.timestamp
  recent : v.timestamp - u.timestamp ≤ config.dedupTtl

/-- Whatever a frame suppresses, a detection that stands for it has been handed over. -/
def NothingHidden (config : PipelineConfig F) (t : List (EdgeSystem P × EdgeAct F)) : Prop :=
  ∀ t₁ p, t₁ ++ [p] <+: t → ∀ v ∈ p.1.verdicts p.2, v.novel = false →
    ∃ u, HandedOver (t₁ ++ [p]) u ∧ StandsFor config u v

/-- The link is up when a frame is taken. -/
def LinkedFrame (s : EdgeSystem P) : EdgeAct F → Prop
  | .frame _ => s.linkUp = true
  | _ => True

/-- A frame with a novel detection is not skipped. -/
def Unskipped (s : EdgeSystem P) : EdgeAct F → Prop
  | .frame f => (s.novelResult f).isSome = true → s.coordinator.shouldSend s.frameCount = true
  | _ => True

instance (s : EdgeSystem P) : ∀ l, Decidable (s.LinkedFrame l)
  | .frame _ => inferInstanceAs (Decidable (s.linkUp = true))
  | .connect _ | .startEventStream _ | .client _ | .finish | .leave | .flushStream _
  | .stopEventStream | .command _ _ | .eventReaderEnds | .stop => inferInstanceAs (Decidable True)

instance (s : EdgeSystem P) : ∀ l, Decidable (s.Unskipped l)
  | .frame f => inferInstanceAs (Decidable ((s.novelResult f).isSome = true →
      s.coordinator.shouldSend s.frameCount = true))
  | .connect _ | .startEventStream _ | .client _ | .finish | .leave | .flushStream _
  | .stopEventStream | .command _ _ | .eventReaderEnds | .stop => inferInstanceAs (Decidable True)

/-! ## One frame -/

theorem HandedOver.snoc {t : List (EdgeSystem P × EdgeAct F)} {u : Verdict F} (h : HandedOver t u)
    (p : EdgeSystem P × EdgeAct F) : HandedOver (t ++ [p]) u := by
  obtain ⟨q, hq, hhanded⟩ := h
  exact ⟨q, List.mem_append_left _ hq, hhanded⟩

theorem buildResult_depicts (c : Coordinator F) (n : Nat) (f : FrameInput F)
    {novel : List (DetectionBox F)} (trackIds : List Nat) {det : DetectionBox F} (h : det ∈ novel) :
    ∃ b ∈ (c.buildResult n f novel trackIds).boxes, b.Depicts det := by
  obtain ⟨i, hi, rfl⟩ := List.getElem_of_mem h
  refine ⟨Coordinator.boundingBox trackIds i novel[i], ?_, ⟨rfl, rfl, rfl, rfl, rfl, rfl⟩⟩
  exact List.mem_mapIdx.mpr ⟨i, hi, rfl⟩

/-- A novel detection of a frame that is sent is handed over. -/
theorem novel_handedOver {s : EdgeSystem P} {f : FrameInput F} {v : Verdict F}
    (t : List (EdgeSystem P × EdgeAct F)) (hlinked : s.LinkedFrame (.frame f))
    (hunskipped : s.Unskipped (.frame f)) (hv : v ∈ s.verdicts (.frame f))
    (hnovel : v.novel = true) : HandedOver (t ++ [(s, .frame f)]) v := by
  refine ⟨(s, .frame f), List.mem_append_right _ (List.mem_singleton_self _), hv, ?_⟩
  simp only [verdicts] at hv
  cases hanalyse : s.analyse f with
  | none => simp [hanalyse] at hv
  | some a =>
      have hmem : v.detection ∈ DetectionCache.novelDetections a.verdicts := by
        apply List.mem_map_of_mem
        exact List.mem_filter.mpr ⟨by simpa [hanalyse] using hv, hnovel⟩
      have hsome : s.novelResult f = some (s.coordinator.buildResult s.frameCount f
          (DetectionCache.novelDetections a.verdicts) a.trackIds) := by
        have hne : (DetectionCache.novelDetections a.verdicts).isEmpty = false := by
          rw [List.isEmpty_eq_false_iff]
          exact List.ne_nil_of_mem hmem
        simp only [novelResult, hanalyse, hne, Bool.false_eq_true, if_false]
      have hsend := hunskipped (by simp [hsome])
      have hup : s.linkUp = true := hlinked
      have hhands : s.hands (.frame f) = s.novelResult f := by
        simp only [hands, handedResult, hup, hsend, if_true]
      exact ⟨_, hhands.trans hsome, buildResult_depicts _ _ _ _ hmem⟩

/-! ## Whole runs -/

/-- The cache holds nothing but detections that were handed over. -/
structure Remembered (config : PipelineConfig F) (t : List (EdgeSystem P × EdgeAct F))
    (s : EdgeSystem P) : Prop where
  iouThreshold : s.coordinator.detectionCache.iouThreshold = config.dedupIouThreshold
  ttl : s.coordinator.detectionCache.ttl = config.dedupTtl
  entries : ∀ e ∈ s.coordinator.detectionCache.cache, ∃ u, HandedOver t u ∧ e = u.entry

/-- What suppresses a detection of the next frame stands for it. -/
theorem Remembered.standsFor {config : PipelineConfig F} {t : List (EdgeSystem P × EdgeAct F)}
    {s : EdgeSystem P} {l : EdgeAct F} {v : Verdict F} (h : Remembered config t s)
    (hlinked : s.LinkedFrame l) (hunskipped : s.Unskipped l) (hv : v ∈ s.verdicts l)
    (hsuppressed : v.novel = false) :
    ∃ u, HandedOver (t ++ [(s, l)]) u ∧ StandsFor config u v := by
  cases l with
  | frame f =>
      have hv' := hv
      simp only [verdicts] at hv
      cases hanalyse : s.analyse f with
      | none => simp [hanalyse] at hv
      | some a =>
          have hverdicts := (Coordinator.analyse_eq_some hanalyse).1.verdicts
          have hmem : v ∈ a.verdicts := by simpa [hanalyse] using hv
          rw [hverdicts] at hmem
          obtain ⟨e, he, hdup, hpast, hage⟩ := DetectionCache.dedup_suppressed hmem hsuppressed
          have hentry : ∃ u, HandedOver (t ++ [(s, .frame f)]) u ∧ e = u.entry := by
            rcases he with hcached | ⟨u, hu, hnovel, rfl⟩
            · obtain ⟨u, hu, rfl⟩ := h.entries e hcached
              exact ⟨u, hu.snoc _, rfl⟩
            · refine ⟨u, novel_handedOver t hlinked hunskipped ?_ hnovel, rfl⟩
              simpa [verdicts, hanalyse, hverdicts] using hu
          obtain ⟨u, hu, rfl⟩ := hentry
          have hboth := Bool.and_eq_true_iff.mp hdup
          refine ⟨u, hu, ⟨of_decide_eq_true hboth.1, ?_, hpast, h.ttl ▸ hage⟩⟩
          rw [← h.iouThreshold]
          exact of_decide_eq_true hboth.2
  | _ => cases hv

variable [OfNumeral F]

theorem Remembered.step {config : PipelineConfig F} {t : List (EdgeSystem P × EdgeAct F)}
    {s s' : EdgeSystem P} {l : EdgeAct F} (h : Remembered config t s) (hs : s.step l = some s')
    (hlinked : s.LinkedFrame l) (hunskipped : s.Unskipped l) :
    Remembered config (t ++ [(s, l)]) s' := by
  have hkept : s'.coordinator.detectionCache = s.coordinator.detectionCache →
      Remembered config (t ++ [(s, l)]) s' := by
    intro hcache
    refine ⟨hcache ▸ h.iouThreshold, hcache ▸ h.ttl, ?_⟩
    intro e he
    obtain ⟨u, hu, hentry⟩ := h.entries e (hcache ▸ he)
    exact ⟨u, hu.snoc _, hentry⟩
  cases step_coordinator hs with
  | commanded _ hcommanded => exact hkept hcommanded.detectionCache
  | same _ hcoordinator => exact hkept (by rw [hcoordinator])
  | analysed f a hlabel hanalyse hcoordinator =>
      subst hlabel
      have hanalysed := (Coordinator.analyse_eq_some hanalyse).1
      have hcache := hanalysed.detectionCache
      rw [← hcoordinator] at hcache
      obtain ⟨hiou, httl⟩ :=
        s.coordinator.detectionCache.dedup_config a.detections f.ticks
      refine ⟨?_, ?_, ?_⟩
      · rw [hcache, hiou]
        exact h.iouThreshold
      · rw [hcache, httl]
        exact h.ttl
      · intro e he
        rw [hcache] at he
        rcases DetectionCache.mem_dedup he with hcached | ⟨v, hv, hnovel, rfl⟩
        · obtain ⟨u, hu, hentry⟩ := h.entries e hcached
          exact ⟨u, hu.snoc _, hentry⟩
        · refine ⟨v, novel_handedOver t hlinked hunskipped ?_ hnovel, rfl⟩
          simpa [verdicts, hanalyse, hanalysed.verdicts] using hv

theorem run_remembered {config : PipelineConfig F} {s₀ s : EdgeSystem P}
    {t : List (EdgeSystem P × EdgeAct F)} (h₀ : (edgeSystem P config).init s₀)
    (hrun : (edgeSystem P config).Run s₀ t s) (hlinked : TransitionSystem.Respects LinkedFrame t)
    (hunskipped : TransitionSystem.Respects Unskipped t) : Remembered config t s := by
  induction hrun with
  | nil =>
      obtain ⟨_, _, _, c, hc, rfl⟩ := h₀
      have hcache := (Coordinator.initializePipeline_started hc).detectionCache
      refine ⟨?_, ?_, ?_⟩
      · exact congrArg DetectionCache.iouThreshold hcache
      · exact congrArg DetectionCache.ttl hcache
      · intro e he
        rw [show (new P c).coordinator.detectionCache = c.detectionCache from rfl, hcache] at he
        cases he
  | snoc _ hs ih =>
      obtain ⟨hlinked, hlinked'⟩ := TransitionSystem.respects_snoc.mp hlinked
      obtain ⟨hunskipped, hunskipped'⟩ := TransitionSystem.respects_snoc.mp hunskipped
      exact (ih hlinked hunskipped).step hs hlinked' hunskipped'

/-- While the link is up, nothing is hidden in a run that skips no frame with a
novel detection. -/
theorem nothingHidden_of_unskipped {config : PipelineConfig F} {s₀ s : EdgeSystem P}
    {t : List (EdgeSystem P × EdgeAct F)} (h₀ : (edgeSystem P config).init s₀)
    (hrun : (edgeSystem P config).Run s₀ t s) (hlinked : TransitionSystem.Respects LinkedFrame t)
    (hunskipped : TransitionSystem.Respects Unskipped t) : NothingHidden config t := by
  intro t₁ p hp v hv hsuppressed
  obtain ⟨hrun₁, -⟩ := hrun.initial hp
  have hsub := hp.subset
  have hp_mem : p ∈ t := hsub (List.mem_append_right _ (List.mem_singleton_self p))
  have hremembered := run_remembered h₀ hrun₁
    (fun q hq => hlinked q (hsub (List.mem_append_left _ hq)))
    (fun q hq => hunskipped q (hsub (List.mem_append_left _ hq)))
  exact hremembered.standsFor (hlinked p hp_mem) (hunskipped p hp_mem) hv hsuppressed

/-! ## A person that is never reported -/

def skippingConfig : PipelineConfig Binary32 := { smallConfig with frameSkipInterval := 2 }

/-- The first person comes with the second frame, which is skipped. -/
def skippedPerson : List (EdgeAct Binary32) :=
  [.connect {}, .startEventStream {}, .frame (smallFrame []), .finish,
    .frame (smallFrame [(0, 0, 3 / 4)]), .finish, .frame (smallFrame [(0, 0, 3 / 4)])]

/-- The frame that would be sent finds nothing novel. -/
theorem not_nothingHidden_skippedPerson :
    ∃ s₀ t s, (edgeSystem (.small []) skippingConfig).init s₀ ∧
      (edgeSystem (.small []) skippingConfig).Run s₀ t s ∧ t.map Prod.snd = skippedPerson ∧
      TransitionSystem.Respects LinkedFrame t ∧ ¬ NothingHidden skippingConfig t := by
  have hview : ((edgeSystem (.small []) skippingConfig).execTrace
      (new _ (smallCoordinator skippingConfig)) skippedPerson).map (fun r =>
        (decide (TransitionSystem.Respects LinkedFrame r.1),
          r.1.all fun p => (p.1.hands p.2).isNone,
          r.1.any fun p => (p.1.verdicts p.2).any fun v => !v.novel)) = some (true, true, true) := by
    decide +kernel
  obtain ⟨t, s, hrun, hlabels, hlast⟩ := TransitionSystem.exists_run_of_execTrace hview
  simp only [Prod.mk.injEq, List.all_eq_true, List.any_eq_true, Option.isNone_iff_eq_none] at hlast
  obtain ⟨hlinked, hhands, p, hp, v, hv, hsuppressed⟩ := hlast
  refine ⟨_, t, s, init_small _ skippingConfig rfl, hrun, hlabels, of_decide_eq_true hlinked, ?_⟩
  intro hhidden
  obtain ⟨t₁, t₂, rfl⟩ := List.append_of_mem hp
  have hinit : t₁ ++ [p] <+: t₁ ++ p :: t₂ := ⟨t₂, by simp⟩
  obtain ⟨u, ⟨q, hq, -, result, hresult, -⟩, -⟩ :=
    hhidden t₁ p hinit v hv (by simpa using hsuppressed)
  rw [hhands q (hinit.subset hq)] at hresult
  cases hresult

/-- A person that is in two frames, both of which are sent. -/
def reportedPerson : List (EdgeAct Binary32) :=
  [.connect {}, .startEventStream {}, .frame (smallFrame [(0, 0, 3 / 4)]), .client {}, .client {},
    .finish, .frame (smallFrame [(0, 0, 3 / 4)])]

theorem nothingHidden_of_unskipped_reportedPerson :
    ∃ s₀ t s, ((edgeSystem (.small []) smallConfig).init s₀ ∧
      (edgeSystem (.small []) smallConfig).Run s₀ t s ∧ t.map Prod.snd = reportedPerson ∧
      TransitionSystem.Respects LinkedFrame t ∧ TransitionSystem.Respects Unskipped t) ∧
      NothingHidden smallConfig t := by
  have hview : ((edgeSystem (.small []) smallConfig).execTrace
      (new _ (smallCoordinator smallConfig)) reportedPerson).map (fun r =>
        (decide (TransitionSystem.Respects LinkedFrame r.1),
          decide (TransitionSystem.Respects Unskipped r.1))) = some (true, true) := by
    decide +kernel
  obtain ⟨t, s, hrun, hlabels, hlast⟩ := TransitionSystem.exists_run_of_execTrace hview
  obtain ⟨hlinked, hunskipped⟩ := Prod.mk.inj hlast
  have hlinked := of_decide_eq_true hlinked
  have hunskipped := of_decide_eq_true hunskipped
  have hinit := init_small (.small []) smallConfig rfl
  exact ⟨_, t, s, ⟨hinit, hrun, hlabels, hlinked, hunskipped⟩,
    nothingHidden_of_unskipped hinit hrun hlinked hunskipped⟩

end EdgeSystem
