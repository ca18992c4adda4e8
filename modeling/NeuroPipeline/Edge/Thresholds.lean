-- SUMMARY: Threshold commands: the post-processors keep the threshold of the start, so only a lower one is met.
import NeuroPipeline.Edge.CommandRobustness
import NeuroPipeline.Edge.Run

/-!
# Threshold commands

A command stores the threshold in the configuration; every post-processor has a
copy from the start. What is emitted reaches the copy, whatever is stored.
-/

/-- One of the two commands that store a threshold. -/
def ControlCommand.SetsThreshold (cmd : ControlCommand) : Prop :=
  cmd.type = .setDetectionThreshold ∨ cmd.type = .setSensitivity

instance (cmd : ControlCommand) : Decidable cmd.SetsThreshold :=
  inferInstanceAs (Decidable (_ ∨ _))

namespace MultiModelManager

variable {F : Type} [CFloat F]

/-- The post-processors of all slots have that threshold. -/
def AllAt (threshold : F) (slots : List (ModelSlot F)) : Prop :=
  ∀ slot ∈ slots, ∀ p, slot.postprocessor = some p → p.confidenceThreshold = threshold

theorem loadModel_allAt {m m' : MultiModelManager F} {modelId modelPath : String} {npuCore : Int}
    {o : EngineInit} {ok : Bool} {threshold : F}
    (h : m.loadModel modelId modelPath npuCore o = .ok (m', ok)) (hall : AllAt threshold m.slots) :
    AllAt threshold m'.slots := by
  unfold loadModel at h
  split at h
  · obtain ⟨rfl, -⟩ := Prod.mk.inj (Except.ok.inj h)
    exact hall
  split at h
  · obtain ⟨rfl, -⟩ := Prod.mk.inj (Except.ok.inj h)
    exact hall
  obtain ⟨⟨engine, ready⟩, -, h⟩ := Except.bind_eq_ok.mp h
  cases ready with
  | false =>
      obtain ⟨rfl, -⟩ := Prod.mk.inj (Except.pure_eq_ok.mp h)
      exact hall
  | true =>
      obtain ⟨rfl, -⟩ := Prod.mk.inj (Except.pure_eq_ok.mp h)
      intro slot hslot p hp
      rcases List.mem_append.mp hslot with hslot | hslot
      · exact hall slot hslot p hp
      · rw [List.mem_singleton.mp hslot] at hp
        cases hp

theorem setPostprocessor_allAt {m : MultiModelManager F} {modelId : String} {p : PostProcessor F}
    {threshold : F} (hp : p.confidenceThreshold = threshold) (hall : AllAt threshold m.slots) :
    AllAt threshold (m.setPostprocessor modelId p).slots := by
  intro slot hslot q hq
  obtain ⟨slot', hslot', rfl⟩ := List.mem_map.mp hslot
  split at hq
  · rw [← Option.some.inj hq]
    exact hp
  · exact hall slot' hslot' q hq

end MultiModelManager

open MultiModelManager (AllAt)

namespace Coordinator

variable {F : Type} [CFloat F]

/-! ## The copies of the threshold -/

/-- Every post-processor has that threshold. -/
structure CopiesAt (threshold : F) (c : Coordinator F) : Prop where
  single : c.postprocessor.confidenceThreshold = threshold
  slots : ∀ mgr, c.modelMgr = some mgr → AllAt threshold mgr.slots

theorem modelPostprocessor_confidenceThreshold (config : PipelineConfig F) (m : ModelConfig) :
    (modelPostprocessor config m).confidenceThreshold = config.confidenceThreshold := by
  unfold modelPostprocessor
  split <;> rfl

theorem loadModels_allAt {config : PipelineConfig F} {answers : String → EngineInit}
    {models : List ModelConfig} {mgr mgr' : MultiModelManager F}
    (h : loadModels config answers models mgr = .ok mgr')
    (hall : AllAt config.confidenceThreshold mgr.slots) :
    AllAt config.confidenceThreshold mgr'.slots := by
  induction models generalizing mgr with
  | nil =>
      obtain rfl := Except.ok.inj h
      exact hall
  | cons m rest ih =>
      unfold loadModels at h
      obtain ⟨⟨mgr₁, ok⟩, hload, h⟩ := Except.bind_eq_ok.mp h
      have hall₁ := MultiModelManager.loadModel_allAt hload hall
      apply ih h
      cases ok with
      | false => exact hall₁
      | true =>
          exact MultiModelManager.setPostprocessor_allAt
            (modelPostprocessor_confidenceThreshold config m) hall₁

theorem Started.copiesAt {cfg : PipelineConfig F} {modelAnswers : String → EngineInit} {now : Int}
    {c : Coordinator F} (h : Started cfg modelAnswers now c) :
    CopiesAt cfg.confidenceThreshold c := by
  constructor
  · rw [h.postprocessor]
    rfl
  · intro mgr hmgr
    apply loadModels_allAt (h.modelMgr mgr hmgr)
    intro slot hslot
    cases hslot

/-- The commands touch no copy. -/
theorem CopiesAt.commanded {threshold : F} {c c' : Coordinator F} (h : CopiesAt threshold c)
    (hcommanded : Commanded c c') : CopiesAt threshold c' := by
  constructor
  · rw [hcommanded.postprocessor]
    exact h.single
  · intro mgr hmgr
    have hslots := hcommanded.slots
    rw [hmgr] at hslots
    obtain ⟨mgr₀, hmgr₀, hsame⟩ := Option.map_eq_some_iff.mp hslots.symm
    rw [← hsame]
    exact h.slots mgr₀ hmgr₀

/-! ## What inference emits -/

/-- The post-processor that the next frame goes through. -/
def activePostprocessor (c : Coordinator F) : Option (PostProcessor F) :=
  match c.modelMgr with
  | some mgr => mgr.getActiveModel.bind ModelSlot.postprocessor
  | none => some (.yolov5 c.postprocessor)

theorem CopiesAt.active {threshold : F} {c : Coordinator F} {p : PostProcessor F}
    (h : CopiesAt threshold c) (hp : c.activePostprocessor = some p) :
    p.confidenceThreshold = threshold := by
  unfold activePostprocessor at hp
  split at hp
  next mgr hmgr =>
    obtain ⟨slot, hslot, hpost⟩ := Option.bind_eq_some_iff.mp hp
    exact h.slots mgr hmgr slot (List.mem_of_find?_eq_some hslot) p hpost
  next =>
    cases hp
    exact h.single

/-- What is emitted has been through that post-processor. -/
theorem mem_infer {P : Platform F} {c : Coordinator F} {outputs : Option (Tensors F)}
    {detections : List (DetectionBox F)} {d : DetectionBox F}
    (h : c.infer P outputs = some detections) (hd : d ∈ detections) :
    ∃ p out, c.activePostprocessor = some p ∧ outputs = some out ∧
      d ∈ p.process P.math P.std out := by
  have hengine : ∀ (e : RknnEngine) out, e.infer outputs = some out → outputs = some out := by
    intro e out hout
    unfold RknnEngine.infer at hout
    split at hout
    · exact hout
    · cases hout
  cases hmgr : c.modelMgr with
  | some mgr =>
      simp only [infer, hmgr] at h
      simp only [activePostprocessor, hmgr]
      split at h
      next slot hslot =>
        obtain ⟨out, hout, rfl⟩ := Option.map_eq_some_iff.mp h
        cases hpost : slot.postprocessor with
        | none => simp [hpost] at hd
        | some p =>
            refine ⟨p, out, ?_, hengine _ _ hout, by simpa [hpost] using hd⟩
            simp [hslot, hpost]
      next =>
        cases h
        cases hd
  | none =>
      simp only [infer, hmgr] at h
      simp only [activePostprocessor, hmgr]
      obtain ⟨out, hout, rfl⟩ := Option.map_eq_some_iff.mp h
      exact ⟨_, out, rfl, hengine _ _ hout, hd⟩

end Coordinator

namespace EdgeSystem

variable {F : Type} [CFloat F] {P : Platform F}

/-- What inference emits in the step has the stored confidence at least. -/
def EmitsAbove (s : EdgeSystem P) : EdgeAct F → Prop
  | .frame f => ∀ detections, s.coordinator.infer P f.outputs = some detections →
      ∀ d ∈ detections, s.coordinator.config.confidenceThreshold ≤ d.confidence
  | _ => True

/-- The threshold that is stored is not above that of the start, and no
confidence in the outputs is a NaN. -/
def Loosened (config : PipelineConfig F) (s : EdgeSystem P) : EdgeAct F → Prop
  | .frame f => s.coordinator.config.confidenceThreshold ≤ config.confidenceThreshold ∧
      ∀ p out, s.coordinator.activePostprocessor = some p → f.outputs = some out → p.NanFree out
  | _ => True

variable [OfNumeral F]

/-- A threshold command with a valid value was handled, and none since. -/
def InEffect (t : List (EdgeSystem P × EdgeAct F)) : Prop :=
  ∃ t₁ s cmd answer t₂, t = t₁ ++ (s, .command cmd answer) :: t₂ ∧ cmd.SetsThreshold ∧
    s.coordinator.ValidParameters cmd ∧
    ∀ p ∈ t₂, ∀ cmd' answer', p.2 = .command cmd' answer' → ¬ cmd'.SetsThreshold

/-- While such a command is in effect, what is emitted reaches the stored threshold. -/
def TakesEffect (t : List (EdgeSystem P × EdgeAct F)) : Prop :=
  ∀ t₁ p, t₁ ++ [p] <+: t → InEffect t₁ → EmitsAbove p.1 p.2

theorem step_copiesAt {threshold : F} (s : EdgeSystem P) (l : EdgeAct F) (s' : EdgeSystem P)
    (h : s.coordinator.CopiesAt threshold) (hs : s.step l = some s') :
    s'.coordinator.CopiesAt threshold := by
  cases step_coordinator hs with
  | analysed f a _ hanalyse hcoordinator =>
      have hanalysed := (Coordinator.analyse_eq_some hanalyse).1
      constructor
      · rw [hcoordinator, hanalysed.postprocessor]
        exact h.single
      · rw [hcoordinator, hanalysed.modelMgr]
        exact h.slots
  | commanded _ hcommanded => exact h.commanded hcommanded
  | same _ hcoordinator => exact hcoordinator ▸ h

theorem init_copiesAt {config : PipelineConfig F} {s : EdgeSystem P}
    (h : (edgeSystem P config).init s) :
    s.coordinator.CopiesAt config.confidenceThreshold := by
  obtain ⟨_, _, _, c, hc, rfl⟩ := h
  exact (Coordinator.initializePipeline_started hc).copiesAt

omit [OfNumeral F] in
theorem Loosened.emitsAbove [LawfulCFloat F] {config : PipelineConfig F} {s : EdgeSystem P}
    {l : EdgeAct F} (hcopies : s.coordinator.CopiesAt config.confidenceThreshold)
    (h : Loosened config s l) : s.EmitsAbove l := by
  cases l with
  | frame f =>
      obtain ⟨hbelow, hnan⟩ := h
      intro detections hinfer d hd
      obtain ⟨p, out, hp, hout, hmem⟩ := Coordinator.mem_infer hinfer hd
      have hthreshold := hcopies.active hp
      have hnumber := (LawfulCFloat.isNumber_of_le hbelow).2
      have hreached : p.confidenceThreshold ≤ d.confidence :=
        PostProcessor.process_confidence (hthreshold ▸ hnumber) (hnan p out hp hout) hmem
      exact LawfulCFloat.le_trans hbelow (hthreshold ▸ hreached)
  | _ => trivial

/-- In every run, the threshold commands take effect that do not raise the
threshold above that of the start, on outputs without NaN. -/
theorem takesEffect_of_loosened [LawfulCFloat F] {config : PipelineConfig F} {s₀ s : EdgeSystem P}
    {t : List (EdgeSystem P × EdgeAct F)} (h₀ : (edgeSystem P config).init s₀)
    (hrun : (edgeSystem P config).Run s₀ t s)
    (hloosened : ∀ t₁ p, t₁ ++ [p] <+: t → InEffect t₁ → Loosened config p.1 p.2) :
    TakesEffect t := by
  intro t₁ p hp hineffect
  obtain ⟨hrun₁, -⟩ := hrun.initial hp
  have hcopies := hrun₁.invariant step_copiesAt (init_copiesAt h₀)
  exact (hloosened t₁ p hp hineffect).emitsAbove hcopies

/-! ## A threshold that is raised -/

def thresholdCommand (text : String) : ControlCommand where
  type := .setDetectionThreshold
  parameters := [("threshold", text)]

/-- A threshold is set before the first frame. -/
def thresholdFirst (text : String) : List (EdgeAct Binary32) :=
  [.connect {}, .startEventStream {}, .command (thresholdCommand text) .ready]

/-- The text converts to a number from 0 to 1. -/
def convertsToFraction (text : String) : Bool :=
  match stof (F := Binary32) text with
  | .ok v => v.rest = [] && CFloat.const 0 ≤ v.value && v.value ≤ CFloat.const 1
  | .error _ => false

theorem inEffect_thresholdFirst {P : Platform Binary32} {text : String}
    {t : List (EdgeSystem P × EdgeAct Binary32)} (hlabels : t.map Prod.snd = thresholdFirst text)
    (htext : convertsToFraction text = true) : InEffect t := by
  obtain ⟨p₀, t₁, rfl, -, hlabels⟩ := List.map_eq_cons_iff.mp hlabels
  obtain ⟨p₁, t₂, rfl, -, hlabels⟩ := List.map_eq_cons_iff.mp hlabels
  obtain ⟨⟨s, l⟩, t₃, rfl, hlast, hnil⟩ := List.map_eq_cons_iff.mp hlabels
  obtain rfl : l = .command (thresholdCommand text) .ready := hlast
  obtain rfl := List.map_eq_nil_iff.mp hnil
  refine ⟨[p₀, p₁], s, thresholdCommand text, .ready, [], rfl, .inl rfl, ?_, by simp⟩
  refine ⟨text, by simp [thresholdCommand, ControlCommand.find], ?_⟩
  unfold convertsToFraction at htext
  split at htext
  next v hv =>
    simp only [Bool.and_eq_true, decide_eq_true_eq] at htext
    exact ⟨v, hv, htext.1.1, htext.1.2, htext.2⟩
  next => cases htext

/-- The frame that shows a person with a confidence of 3/4. -/
def personFrame : FrameInput Binary32 := smallFrame [(0, 0, 3 / 4)]

/-- With 0.9 in effect, a person is emitted at 0.75: the copy is still at 0.5. -/
theorem not_takesEffect_raised :
    ∃ s₀ t s, (edgeSystem (.small []) smallConfig).init s₀ ∧
      (edgeSystem (.small []) smallConfig).Run s₀ t s ∧
      t.map Prod.snd = thresholdFirst "0.9" ++ [.frame personFrame] ∧ ¬ TakesEffect t := by
  have hview : ((edgeSystem (.small []) smallConfig).execTrace
      (new _ (smallCoordinator smallConfig)) (thresholdFirst "0.9")).map (fun r =>
        ((r.2.step (.frame personFrame)).isSome,
          (r.2.coordinator.infer (.small []) personFrame.outputs).map fun detections =>
            detections.all fun d => r.2.coordinator.config.confidenceThreshold ≤ d.confidence)) =
      some (true, some false) := by decide +kernel
  obtain ⟨t, s, hrun, hlabels, hlast⟩ := TransitionSystem.exists_run_of_execTrace hview
  obtain ⟨hstep, hemitted⟩ := Prod.mk.inj hlast
  obtain ⟨s', hs'⟩ := Option.isSome_iff_exists.mp hstep
  have hrun' : (edgeSystem (.small []) smallConfig).Run _ (t ++ [(s, .frame personFrame)]) s' :=
    hrun.snoc hs'
  obtain ⟨detections, hinfer, hbelow⟩ := Option.map_eq_some_iff.mp hemitted
  refine ⟨_, t ++ [(s, .frame personFrame)], s', init_small _ smallConfig rfl, hrun', ?_, ?_⟩
  · simp [hlabels]
  · intro htakes
    have habove := htakes t (s, .frame personFrame) (List.prefix_refl _)
      (inEffect_thresholdFirst hlabels (by decide +kernel))
    simp only [List.all_eq_false, decide_eq_true_eq] at hbelow
    obtain ⟨d, hd, hnot⟩ := hbelow
    exact hnot (habove detections hinfer d hd)

/-- A threshold that is lowered takes effect. -/
theorem takesEffect_of_loosened_lowered :
    ∃ s₀ t s, ((edgeSystem (.small []) smallConfig).init s₀ ∧
      (edgeSystem (.small []) smallConfig).Run s₀ t s ∧
      t.map Prod.snd = thresholdFirst "0.25" ++ [.frame personFrame] ∧
      ∀ t₁ p, t₁ ++ [p] <+: t → InEffect t₁ → Loosened smallConfig p.1 p.2) ∧ TakesEffect t := by
  have hview : ((edgeSystem (.small []) smallConfig).execTrace
      (new _ (smallCoordinator smallConfig)) (thresholdFirst "0.25")).map (fun r =>
        ((r.2.step (.frame personFrame)).isSome,
          decide (r.2.coordinator.config.confidenceThreshold ≤ smallConfig.confidenceThreshold),
          r.2.coordinator.activePostprocessor.all fun p =>
            personFrame.outputs.all fun out => decide (p.NanFree out))) =
      some (true, true, true) := by decide +kernel
  obtain ⟨t, s, hrun, hlabels, hlast⟩ := TransitionSystem.exists_run_of_execTrace hview
  simp only [Prod.mk.injEq, Option.all_eq_true, decide_eq_true_eq] at hlast
  obtain ⟨hstep, hbelow, hnan⟩ := hlast
  obtain ⟨s', hs'⟩ := Option.isSome_iff_exists.mp hstep
  have hinit := init_small (.small []) smallConfig rfl
  have hrun' : (edgeSystem (.small []) smallConfig).Run _ (t ++ [(s, .frame personFrame)]) s' :=
    hrun.snoc hs'
  have hloosened : ∀ t₁ p, t₁ ++ [p] <+: t ++ [(s, .frame personFrame)] → InEffect t₁ →
      Loosened smallConfig p.1 p.2 := by
    intro t₁ p hp _
    rcases List.prefix_concat_iff.mp hp with heq | hbefore
    · obtain rfl := List.singleton_inj.mp (List.append_inj' heq rfl).2
      exact ⟨hbelow, fun q out hq hout => hnan q hq out hout⟩
    -- the steps before take no frame
    · have hmem : p.2 ∈ thresholdFirst "0.25" := by
        rw [← hlabels]
        exact List.mem_map_of_mem (hbefore.subset (by simp))
      simp only [thresholdFirst, List.mem_cons, List.not_mem_nil, or_false] at hmem
      rcases hmem with hl | hl | hl <;> rw [hl] <;> trivial
  refine ⟨_, _, s', ⟨hinit, hrun', by simp [hlabels], hloosened⟩, ?_⟩
  exact takesEffect_of_loosened hinit hrun' hloosened

end EdgeSystem
