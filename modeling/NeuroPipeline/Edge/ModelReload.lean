-- SUMMARY: The pipeline with the context of its engine: which model runs after commands that reload it.
import NeuroPipeline.Edge.RknnEngine
import NeuroPipeline.Edge.Run

/-!
# Reloading the model

Model of RELOAD_MODEL over the model of the loop: the handler releases the engine and
initialises it again, while it holds the lock that inference takes.
-/

/-- The loop with its engine, and a log of what has been loaded. -/
structure ModelSystem {F : Type} [CFloat F] (P : Platform F) where
  loop : EdgeSystem P
  impl : RknnImpl
  /-- the number of the next context -/
  contexts : Nat := 1
  /-- the last model that was completely initialised: its context and the number of outputs -/
  installed : Option (RknnContext × Nat)
  /-- the models that the manager started with -/
  loaded : Option (List (ModelSlot F))
  /-- the exception of a reload has ended the process -/
  crashed : Bool := false

/-- A step of the loop, with the answers of the driver to a frame and to a reload. -/
structure ModelAct (F : Type) where
  act : EdgeAct F
  run : RknnContext → Nat → Option (Tensors F) := fun _ _ => none
  answers : InitAnswers

namespace RknnImpl

/-- The context that inference runs in, and how many outputs it asks for. -/
def current (e : RknnImpl) : Option (RknnContext × Nat) := e.ctx.map fun ctx => (ctx, e.nOutput)

theorem infer_eq_current {T : Type} (e : RknnImpl) (run : RknnContext → Nat → Option T) :
    e.infer run = e.current.bind fun p => run p.1 p.2 := by
  rw [infer, current]
  cases e.ctx <;> rfl

end RknnImpl

namespace ModelSystem

variable {F : Type} [CFloat F] {P : Platform F}

def new (P : Platform F) (c : Coordinator F) (impl : RknnImpl) : ModelSystem P where
  loop := .new P c
  impl := impl
  installed := impl.current
  loaded := c.modelMgr.map MultiModelManager.slots

/-- What the engine gives for a frame. The models of a manager have engines of their own. -/
def outputs (s : ModelSystem P) (run : RknnContext → Nat → Option (Tensors F))
    (given : Option (Tensors F)) : Option (Tensors F) :=
  match s.loop.coordinator.modelMgr with
  | none => s.impl.infer run
  | some _ => given

def loopAct (s : ModelSystem P) (l : ModelAct F) : EdgeAct F :=
  match l.act with
  | .frame f => .frame { f with outputs := s.outputs l.run f.outputs }
  | .command cmd _ => .command cmd l.answers.outcome
  | act => act

/-- The engine is released first; an exception leaves it so. -/
def reload (s : ModelSystem P) (a : InitAnswers) : ModelSystem P :=
  match s.impl.release.initializeModel s.contexts a with
  | .error _ => { s with impl := s.impl.release, crashed := true }
  | .ok (impl, ok) =>
    { s with
      impl := impl
      contexts := s.contexts + 1
      installed := if ok then impl.current else s.installed }

end ModelSystem

/-- A command to reload the model. -/
def EdgeAct.reloads {F : Type} : EdgeAct F → Bool
  | .command cmd _ => cmd.type = .reloadModel
  | _ => false

namespace ModelSystem

variable {F : Type} [CFloat F] [OfNumeral F] {P : Platform F}

def step (s : ModelSystem P) (l : ModelAct F) : Option (ModelSystem P) :=
  (s.loop.step (s.loopAct l)).map fun loop =>
    { (if l.act.reloads then s.reload l.answers else s) with loop := loop }

end ModelSystem

/-- All runs of the pipeline on a driver, from a successful `Initialize`. -/
def modelSystem {F : Type} [CFloat F] [OfNumeral F] (P : Platform F) (config : PipelineConfig F) :
    TransitionSystem (ModelSystem P) (ModelAct F) where
  init s := ∃ answers modelAnswers now c impl,
    Coordinator.initializePipeline config answers.outcome modelAnswers now = .ok (some c) ∧
      RknnImpl.initializeModel ⟨config.modelPath, config.npuCoreMask, none, 0, 0, 0, 0, 0, [], []⟩ 0
        answers = .ok (impl, true) ∧
      s = .new P c impl
  step := ModelSystem.step

/-! ## The engine of the loop -/

namespace Coordinator

variable {F : Type} [CFloat F]

theorem initializePipeline_engine {config : PipelineConfig F} {engineAnswer : EngineInit}
    {modelAnswers : String → EngineInit} {now : Int} {c : Coordinator F}
    (h : initializePipeline config engineAnswer modelAnswers now = .ok (some c)) :
    RknnEngine.initializeEngine ⟨config.modelPath, config.npuCoreMask, false⟩ engineAnswer =
      .ok (c.engine, true) := by
  unfold initializePipeline at h
  obtain ⟨⟨engine, ok⟩, hengine, h⟩ := Except.bind_eq_ok.mp h
  cases ok with
  | false => cases Except.pure_eq_ok.mp h
  | true =>
      simp only [Bool.not_true, Bool.false_eq_true, if_false] at h
      split at h
      all_goals
        obtain ⟨modelMgr, hmgr, h⟩ := Except.bind_eq_ok.mp h
        obtain rfl := Option.some.inj (Except.pure_eq_ok.mp h)
        exact hengine

/-- The engine of a pipeline that has started has a context. -/
theorem initializePipeline_ctx {config : PipelineConfig F} {engineAnswer : EngineInit}
    {modelAnswers : String → EngineInit} {now : Int} {c : Coordinator F}
    (h : initializePipeline config engineAnswer modelAnswers now = .ok (some c)) :
    c.engine.ctx = true := by
  have hengine := initializePipeline_engine h
  cases engineAnswer with
  | ready =>
    obtain ⟨hready, -⟩ := Prod.mk.inj (Except.ok.inj hengine)
    rw [← hready]
  | fileUnreadable | initFailed | queryFailed =>
    obtain ⟨-, hok⟩ := Prod.mk.inj (Except.ok.inj hengine)
    cases hok
  | allocationThrows => cases hengine

theorem analyse_engine {P : Platform F} {c : Coordinator F} {n : Nat} {f : FrameInput F}
    {a : Analysis F} (h : c.analyse P n f = some a) : a.coordinator.engine = c.engine := by
  unfold analyse at h
  split at h
  next hframe =>
    obtain ⟨detections, -, rfl⟩ := Option.map_eq_some_iff.mp h
    obtain ⟨t, ht⟩ := c.track_eq detections n
    simp only [dedup, ht]
  next => cases h

variable [OfNumeral F]

/-- Only a reload touches the engine. -/
theorem handleCommand_engine {c c' : Coordinator F} {cmd : ControlCommand} {answer : EngineInit}
    (hcmd : cmd.type ≠ .reloadModel) (h : c.handleCommand cmd answer = .ok c') :
    c'.engine = c.engine := by
  unfold handleCommand at h
  cases htype : cmd.type with
  | reloadModel => exact absurd htype hcmd
  | setFps | setDetectionThreshold | setSensitivity =>
    rw [htype] at h
    obtain rfl | ⟨v, rfl⟩ := storeParameter_cases h <;> rfl
  | shutdown =>
    rw [htype] at h
    cases h
    rfl
  | switchModelVariant =>
    rw [htype] at h
    cases h
    rw [switchModelVariant]
    cases cmd.find "model_id" with
    | none => rfl
    | some modelId => cases c.modelMgr <;> rfl
  | setDetectionRegion =>
    rw [htype] at h
    simp only [setDetectionRegion] at h
    split at h
    · simp only [Except.bind_eq_ok, Except.pure_eq_ok] at h
      obtain ⟨_, _, _, _, _, _, _, _, rfl⟩ := h
      rfl
    · cases h
      rfl
  | changeModel | enableDebug | unrecognized =>
    rw [htype] at h
    cases h
    rfl

end Coordinator

namespace EdgeSystem

variable {F : Type} [CFloat F] [OfNumeral F] {P : Platform F}

theorem step_engine {s s' : EdgeSystem P} {l : EdgeAct F} (hl : l.reloads = false)
    (h : s.step l = some s') : s'.coordinator.engine = s.coordinator.engine := by
  cases step_moves h with
  | connect _ hcall | startEventStream _ hcall | flushStream _ hcall | stopEventStream _ hcall =>
      rw [(callClient_coordinator hcall).1]
  | frame hpc hframe =>
      cases frame_effect hpc hframe with
      | nothing _ hcoordinator => rw [hcoordinator]
      | quiet a hanalyse _ hcoordinator | hands a _ hanalyse _ hcoordinator =>
          rw [hcoordinator]
          exact Coordinator.analyse_engine hanalyse
  | @command cmd answer _ =>
      have hcmd : cmd.type ≠ .reloadModel := by simpa [EdgeAct.reloads] using hl
      simp only [command]
      cases hhandle : s.coordinator.handleCommand cmd answer with
      | error e => rfl
      | ok c => exact Coordinator.handleCommand_engine hcmd hhandle
  | client | eventReaderEnds | finish | leave | stop => rfl

/-- The models of the manager stay those that it started with. -/
theorem step_slots {s s' : EdgeSystem P} {l : EdgeAct F} (h : s.step l = some s') :
    s'.coordinator.modelMgr.map MultiModelManager.slots =
      s.coordinator.modelMgr.map MultiModelManager.slots := by
  cases step_coordinator h with
  | analysed f a _ hanalyse hcoordinator =>
      rw [hcoordinator, (Coordinator.analyse_eq_some hanalyse).1.modelMgr]
  | commanded _ hcoordinator => exact hcoordinator.slots
  | same _ hcoordinator => rw [hcoordinator]

end EdgeSystem

/-! ## What a reload does -/

namespace ModelSystem

variable {F : Type} [CFloat F] {P : Platform F}

inductive ReloadEffect (s s' : ModelSystem P) (a : InitAnswers) : Prop where
  | ready (houtcome : a.outcome = .ready) (hcrashed : s'.crashed = s.crashed)
      (hinstalled : s'.installed = s'.impl.current)
      (hcurrent : ∃ p, s'.impl.current = some p ∧ p.1.serial < s'.contexts)
  /-- no context of before is left -/
  | failed (houtcome : a.outcome ≠ .ready) (hthrows : a.outcome ≠ .allocationThrows)
      (hcrashed : s'.crashed = s.crashed) (hinstalled : s'.installed = s.installed)
      (hcontexts : s.contexts < s'.contexts)
      (hcurrent : ∀ p, s'.impl.current = some p → s.contexts ≤ p.1.serial)
  | throws (houtcome : a.outcome = .allocationThrows) (hcrashed : s'.crashed = true)
      (hinstalled : s'.installed = s.installed) (hcontexts : s.contexts ≤ s'.contexts)

end ModelSystem

namespace RknnImpl

/-- A context that an initialisation leaves in an engine without one is a new one. -/
theorem initializeModel_current {e e' : RknnImpl} {serial : Nat} {a : InitAnswers} {ok : Bool}
    (he : e.ctx = none) (h : e.initializeModel serial a = .ok (e', ok)) :
    ∀ p, e'.current = some p → p.1.serial = serial := by
  intro p hp
  obtain ⟨ctx, hctx, rfl⟩ := Option.map_eq_some_iff.mp hp
  rw [initializeModel] at h
  cases hfile : a.file with
  | unreadable =>
    simp only [hfile] at h
    cases h
    cases he.symm.trans hctx
  | unsized =>
    simp only [hfile] at h
    cases h
  | data bytes =>
    simp only [hfile] at h
    cases hinit : a.init with
    | false =>
      simp only [hinit, Bool.false_eq_true, if_false] at h
      cases h
      cases he.symm.trans hctx
    | true =>
      simp only [hinit, if_true] at h
      have hquery := (query_engine { e with ctx := some ⟨serial, bytes⟩ } a).1
      rw [Except.ok.inj h] at hquery
      obtain rfl := Option.some.inj (hctx.symm.trans hquery)
      rfl

theorem current_of_ctx {e : RknnImpl} (h : e.toEngine.ctx = true) : ∃ p, e.current = some p := by
  obtain ⟨ctx, hctx⟩ := Option.isSome_iff_exists.mp h
  exact ⟨(ctx, e.nOutput), by rw [current, hctx]; rfl⟩

end RknnImpl

namespace ModelSystem

variable {F : Type} [CFloat F] {P : Platform F}

theorem reload_effect (s : ModelSystem P) (a : InitAnswers) : ReloadEffect s (s.reload a) a := by
  have hengine := s.impl.release.initializeModel_toEngine s.contexts a
  rw [reload]
  cases hload : s.impl.release.initializeModel s.contexts a with
  | error e =>
    rw [hload] at hengine
    have houtcome : a.outcome = .allocationThrows := by
      cases houtcome : a.outcome with
      | allocationThrows => rfl
      | ready | fileUnreadable | initFailed | queryFailed =>
        rw [houtcome] at hengine
        cases hengine
    exact .throws houtcome rfl rfl (Nat.le_refl _)
  | ok r =>
    obtain ⟨impl, ok⟩ := r
    have hserial := RknnImpl.initializeModel_current rfl hload
    rw [hload] at hengine
    cases houtcome : a.outcome with
    | ready =>
      rw [houtcome] at hengine
      obtain ⟨htoEngine, rfl⟩ := Prod.mk.inj (Except.ok.inj hengine)
      have hctx : impl.toEngine.ctx = true := by rw [htoEngine]
      obtain ⟨p, hp⟩ := RknnImpl.current_of_ctx hctx
      exact .ready houtcome rfl rfl ⟨p, hp, by rw [hserial p hp]; exact Nat.lt_succ_self _⟩
    | allocationThrows =>
      rw [houtcome] at hengine
      cases hengine
    | fileUnreadable | initFailed | queryFailed =>
      rw [houtcome] at hengine
      obtain ⟨htoEngine, rfl⟩ := Prod.mk.inj (Except.ok.inj hengine)
      refine .failed ?_ ?_ rfl rfl (Nat.lt_succ_self _) ?_
      · rw [houtcome]
        rintro ⟨⟩
      · rw [houtcome]
        rintro ⟨⟩
      · intro p hp
        exact (hserial p hp).ge

/-- The coordinator's engine after a reload that does not throw. -/
theorem reload_toEngine {s : ModelSystem P} {a : InitAnswers} {r : RknnEngine × Bool}
    (h : s.impl.toEngine.release.initializeEngine a.outcome = .ok r) :
    (s.reload a).impl.toEngine = r.1 := by
  rw [← RknnImpl.release_toEngine, ← RknnImpl.initializeModel_toEngine _ s.contexts] at h
  cases hload : s.impl.release.initializeModel s.contexts a with
  | error e =>
    rw [hload] at h
    cases h
  | ok p =>
    rw [hload] at h
    rw [reload, hload, ← Except.ok.inj h]

theorem reload_loaded (s : ModelSystem P) (a : InitAnswers) : (s.reload a).loaded = s.loaded := by
  rw [reload]
  cases s.impl.release.initializeModel s.contexts a <;> rfl

end ModelSystem

/-! ## The invariant -/

namespace ModelSystem

variable {F : Type} [CFloat F] {P : Platform F}

/-- The coordinator's view of the engine is that of the driver, and no context is newer than
the next one. -/
structure Inv (s : ModelSystem P) : Prop where
  engine : s.crashed = false → s.loop.coordinator.engine = s.impl.toEngine
  installed : ∃ p, s.installed = some p ∧ p.1.serial < s.contexts
  slots : s.loop.coordinator.modelMgr.map MultiModelManager.slots = s.loaded

theorem loopAct_reloads (s : ModelSystem P) (l : ModelAct F) :
    (s.loopAct l).reloads = l.act.reloads := by
  rw [loopAct]
  cases l.act <;> rfl

/-- After a reload that does not throw, coordinator and driver agree again. -/
theorem reload_engine {s : ModelSystem P} {a : InitAnswers} {loop : EdgeSystem P} (hI : s.Inv)
    (hloop : ∀ r, s.loop.coordinator.engine.release.initializeEngine a.outcome = .ok r →
      loop.coordinator.engine = r.1)
    (hthrows : a.outcome ≠ .allocationThrows) (hcrashed : s.crashed = false) :
    loop.coordinator.engine = (s.reload a).impl.toEngine := by
  rw [hI.engine hcrashed] at hloop
  obtain ⟨r, hr⟩ : ∃ r, s.impl.toEngine.release.initializeEngine a.outcome = .ok r := by
    cases houtcome : a.outcome with
    | allocationThrows => exact absurd houtcome hthrows
    | ready | fileUnreadable | initFailed | queryFailed => exact ⟨_, rfl⟩
  rw [hloop r hr, reload_toEngine hr]

variable [OfNumeral F]

/-- A step that reloads nothing leaves the driver alone. -/
theorem step_keep {s s' : ModelSystem P} {l : ModelAct F} (hl : l.act.reloads = false)
    (h : s.step l = some s') :
    ∃ loop, s' = { s with loop := loop } ∧
      loop.coordinator.engine = s.loop.coordinator.engine := by
  obtain ⟨loop, hloop, rfl⟩ := Option.map_eq_some_iff.mp h
  refine ⟨loop, ?_, EdgeSystem.step_engine (by rw [loopAct_reloads, hl]) hloop⟩
  simp only [hl, Bool.false_eq_true, if_false]

/-- The step of a reload. -/
theorem step_reload {s s' : ModelSystem P} {l : ModelAct F} (hl : l.act.reloads = true)
    (h : s.step l = some s') :
    ∃ loop, s' = { s.reload l.answers with loop := loop } ∧
      ∀ r, s.loop.coordinator.engine.release.initializeEngine l.answers.outcome = .ok r →
        loop.coordinator.engine = r.1 := by
  obtain ⟨loop, hloop, rfl⟩ := Option.map_eq_some_iff.mp h
  refine ⟨loop, by simp only [hl, if_true], ?_⟩
  intro r hr
  cases hact : l.act with
  | command cmd answer =>
      rw [hact] at hl
      have htype : cmd.type = .reloadModel := of_decide_eq_true hl
      simp only [loopAct, hact, EdgeSystem.step] at hloop
      split at hloop
      · cases hloop
        have hhandle : s.loop.coordinator.handleCommand cmd l.answers.outcome =
            .ok { s.loop.coordinator with engine := r.1 } := by
          simp only [Coordinator.handleCommand, htype, Coordinator.reloadModel, hr]
          rfl
        simp only [EdgeSystem.command, hhandle]
      · cases hloop
  | connect | startEventStream | frame | client | finish | leave | flushStream | stopEventStream
  | eventReaderEnds | stop =>
      rw [hact] at hl
      cases hl

theorem step_slots {s s' : ModelSystem P} {l : ModelAct F} (h : s.step l = some s') :
    s'.loop.coordinator.modelMgr.map MultiModelManager.slots =
      s.loop.coordinator.modelMgr.map MultiModelManager.slots := by
  obtain ⟨loop, hloop, rfl⟩ := Option.map_eq_some_iff.mp h
  exact EdgeSystem.step_slots hloop

theorem inv_step {s s' : ModelSystem P} {l : ModelAct F} (hI : s.Inv) (h : s.step l = some s') :
    s'.Inv := by
  obtain ⟨p, hp, hserial⟩ := hI.installed
  have hslots := (step_slots h).trans hI.slots
  cases hl : l.act.reloads with
  | false =>
    obtain ⟨loop, rfl, hengine⟩ := step_keep hl h
    exact ⟨fun hcrashed => hengine.trans (hI.engine hcrashed), hI.installed, hslots⟩
  | true =>
    obtain ⟨loop, rfl, hloop⟩ := step_reload hl h
    have hloaded := hslots.trans (reload_loaded s l.answers).symm
    have hengine := reload_engine hI hloop
    cases reload_effect s l.answers with
    | ready houtcome hcrashed hinstalled hcurrent =>
      refine ⟨?_, by rwa [hinstalled], hloaded⟩
      intro hrunning
      refine hengine ?_ (hcrashed.symm.trans hrunning)
      rw [houtcome]
      rintro ⟨⟩
    | failed _ hthrows hcrashed hinstalled hcontexts =>
      refine ⟨?_, ⟨p, hinstalled.trans hp, hserial.trans hcontexts⟩, hloaded⟩
      intro hrunning
      exact hengine hthrows (hcrashed.symm.trans hrunning)
    | throws _ hcrashed hinstalled hcontexts =>
      refine ⟨?_, ⟨p, hinstalled.trans hp, hserial.trans_le hcontexts⟩, hloaded⟩
      intro hrunning
      exact absurd (hcrashed.symm.trans hrunning) (by rintro ⟨⟩)

/-- What a successful `Initialize` leaves. -/
theorem inv_init {config : PipelineConfig F} {s : ModelSystem P}
    (h : (modelSystem P config).init s) : s.Inv := by
  obtain ⟨answers, modelAnswers, now, c, impl, hc, himpl, rfl⟩ := h
  have hengine := RknnImpl.initializeModel_toEngine
    ⟨config.modelPath, config.npuCoreMask, none, 0, 0, 0, 0, 0, [], []⟩ 0 answers
  rw [himpl] at hengine
  have hcoordinator : Except.ok (impl.toEngine, true) = Except.ok (c.engine, true) :=
    hengine.trans (Coordinator.initializePipeline_engine hc)
  have htoEngine : impl.toEngine = c.engine := (Prod.mk.inj (Except.ok.inj hcoordinator)).1
  have hctx : impl.toEngine.ctx = true := by
    rw [htoEngine]
    exact Coordinator.initializePipeline_ctx hc
  obtain ⟨p, hp⟩ := RknnImpl.current_of_ctx hctx
  refine ⟨fun _ => htoEngine.symm, ⟨p, hp, ?_⟩, rfl⟩
  rw [RknnImpl.initializeModel_current rfl himpl p hp]
  exact Nat.zero_lt_one

/-! ## The model that runs -/

/-- Inference on the next frame runs in the context that was completely initialised last, or
with the models that the manager has loaded. -/
def RunsInstalled (s : ModelSystem P) : Prop :=
  s.crashed = false ∧
    match s.loop.coordinator.modelMgr with
    | none => ∀ run : RknnContext → Nat → Option (Tensors F),
        s.loop.coordinator.infer P (s.impl.infer run) =
          (s.installed.bind fun p => run p.1 p.2).map fun out =>
            s.loop.coordinator.postprocessor.process P.math P.std out
    | some mgr => some mgr.slots = s.loaded

/-- Two contexts give the same detections whatever the driver answers only if they are one. -/
theorem forall_run_iff {T U : Type} {process : T → U} (out : T) {x y : Option (RknnContext × Nat)} :
    (∀ run : RknnContext → Nat → Option T,
      (x.bind fun p => run p.1 p.2).map process = (y.bind fun p => run p.1 p.2).map process) ↔
      x = y := by
  constructor
  · intro h
    cases y with
    | none =>
      have hnone := h fun _ _ => some out
      cases x with
      | none => rfl
      | some p => cases hnone
    | some q =>
      -- a driver that answers in the context `q` alone
      have hq := h fun ctx n => if (ctx, n) = q then some out else none
      simp only [Option.bind_some, if_true, Option.map_some] at hq
      obtain ⟨out', hbind, -⟩ := Option.map_eq_some_iff.mp hq
      obtain ⟨p, rfl, hp⟩ := Option.bind_eq_some_iff.mp hbind
      by_cases hpq : p = q
      · rw [hpq]
      · rw [if_neg hpq] at hp
        cases hp
  · rintro rfl run
    rfl

omit [OfNumeral F] in
theorem runsInstalled_iff {s : ModelSystem P} (hI : s.Inv) :
    s.RunsInstalled ↔ s.crashed = false ∧
      (s.loop.coordinator.modelMgr = none → s.impl.current = s.installed) := by
  refine and_congr_right fun hcrashed => ?_
  have hslots := hI.slots
  cases hmgr : s.loop.coordinator.modelMgr with
  | some mgr =>
    rw [hmgr] at hslots
    exact ⟨fun _ hnone => absurd hnone (by rintro ⟨⟩), fun _ => hslots⟩
  | none =>
    simp only [Coordinator.infer, hmgr, hI.engine hcrashed, RknnImpl.infer_toEngine, forall_const]
    simp only [RknnImpl.infer_eq_current]
    exact forall_run_iff []

/-- A reload succeeds, or it throws nothing and the engine is not the one in use. -/
def ReloadKeeps (s : ModelSystem P) (l : ModelAct F) : Prop :=
  l.act.reloads = true → l.answers.outcome = .ready ∨
    s.loop.coordinator.modelMgr.isSome = true ∧ l.answers.outcome ≠ .allocationThrows

theorem runsInstalled_step {s s' : ModelSystem P} {l : ModelAct F} (hI : s.Inv)
    (hruns : s.RunsInstalled) (h : s.step l = some s') : s'.RunsInstalled ↔ s.ReloadKeeps l := by
  rw [runsInstalled_iff (inv_step hI h), ReloadKeeps]
  obtain ⟨hcrashed, hcurrent⟩ := (runsInstalled_iff hI).mp hruns
  have hmgr : s'.loop.coordinator.modelMgr = none ↔ s.loop.coordinator.modelMgr = none := by
    rw [← Option.map_eq_none_iff, step_slots h, Option.map_eq_none_iff]
  cases hl : l.act.reloads with
  | false =>
    obtain ⟨loop, rfl, -⟩ := step_keep hl h
    exact iff_of_true ⟨hcrashed, fun hnone => hcurrent (hmgr.mp hnone)⟩ (by rintro ⟨⟩)
  | true =>
    obtain ⟨p, hp, hserial⟩ := hI.installed
    obtain ⟨loop, rfl, -⟩ := step_reload hl h
    simp only [forall_const]
    cases reload_effect s l.answers with
    | ready houtcome hcrashed' hinstalled =>
      exact iff_of_true ⟨hcrashed'.trans hcrashed, fun _ => hinstalled.symm⟩ (.inl houtcome)
    | failed houtcome hthrows hcrashed' hinstalled hcontexts hcurrent' =>
      have hnew : (s.reload l.answers).impl.current ≠ (s.reload l.answers).installed := by
        rw [hinstalled, hp]
        intro heq
        exact absurd (hcurrent' p heq) (Nat.not_le.mpr hserial)
      simp only [hcrashed', hcrashed, houtcome, hthrows, hmgr, hnew, imp_false, false_or, true_and,
        ne_eq, not_false_iff, and_true, Option.isSome_iff_ne_none]
    | throws houtcome hcrashed' =>
      refine iff_of_false ?_ ?_
      · rintro ⟨hrunning, -⟩
        rw [hcrashed'] at hrunning
        cases hrunning
      · rw [houtcome]
        rintro (hready | ⟨-, hthrows⟩)
        · cases hready
        · exact hthrows rfl

/-- The model that was completely initialised last stays the one that runs exactly in the runs
where every reload succeeds, or has no part in inference and throws nothing. -/
theorem throughout_runsInstalled_iff {config : PipelineConfig F} {s₀ s : ModelSystem P}
    {t : List (ModelSystem P × ModelAct F)} (h₀ : (modelSystem P config).init s₀)
    (hrun : (modelSystem P config).Run s₀ t s) :
    TransitionSystem.Throughout RunsInstalled t s ↔ TransitionSystem.Respects ReloadKeeps t := by
  have hI₀ := inv_init h₀
  have hruns : s₀.RunsInstalled := by
    obtain ⟨_, _, _, c, impl, _, _, rfl⟩ := h₀
    exact (runsInstalled_iff hI₀).mpr ⟨rfl, fun _ => rfl⟩
  exact hrun.throughout_iff_respects (fun _ _ _ hI h => inv_step hI h)
    (fun _ _ _ hI hQ h => runsInstalled_step hI hQ h) hI₀ hruns

/-- Seen through the loop, a run of the whole is a run of the pipeline. -/
theorem projects (P : Platform F) (config : PipelineConfig F) :
    TransitionSystem.Projects (modelSystem P config) (edgeSystem P config) loop
      fun s l => some (s.loopAct l) := by
  intro s l s' h
  obtain ⟨loop, hloop, rfl⟩ := Option.map_eq_some_iff.mp h
  exact hloop

/-! ## A reload -/

/-- What the driver answers to a model with one input and one output. -/
def smallAnswers (file : ModelFile) : InitAnswers where
  file := file
  init := true
  ioNum := some (1, 1)
  inputAttr i := some { index := i, fmt := .nhwc, dims := [1, 8, 8, 3] }
  outputAttr i := some { index := i, dims := [1, 255, 1, 1] }

def smallImpl (config : PipelineConfig Binary32) : RknnImpl where
  modelPath := config.modelPath
  coreMask := config.npuCoreMask
  ctx := some ⟨0, [1]⟩
  nInput := 1
  nOutput := 1
  inputWidth := 8
  inputHeight := 8
  inputChannels := 3
  inputAttrs := [{ fmt := .nhwc, dims := [1, 8, 8, 3] }]
  outputAttrs := [{ dims := [1, 255, 1, 1] }]

def smallSystem : ModelSystem (.small []) :=
  .new (.small []) (EdgeSystem.smallCoordinator EdgeSystem.smallConfig)
    (smallImpl EdgeSystem.smallConfig)

theorem init_smallSystem : (modelSystem (.small []) EdgeSystem.smallConfig).init smallSystem := by
  refine ⟨smallAnswers (.data [1]), fun _ => .ready, 0,
    EdgeSystem.smallCoordinator EdgeSystem.smallConfig, smallImpl EdgeSystem.smallConfig, ?_, ?_,
    rfl⟩
  · have houtcome : (smallAnswers (.data [1])).outcome = .ready := rfl
    rw [houtcome]
    simp [Coordinator.initializePipeline, RknnEngine.initializeEngine, EdgeSystem.smallCoordinator,
      EdgeSystem.smallConfig]
  · rfl

/-- A reload that finds the given file, and no other command. -/
def reloadFrom (file : ModelFile) : List (ModelAct Binary32) :=
  [.connect {}, .startEventStream {}, .command { type := .reloadModel } .ready].map
    fun act => { act := act, answers := smallAnswers file }

/-- The file cannot be read, and the engine that was released has no model. -/
theorem not_runsInstalled_unreadable :
    ¬ ∀ (s₀ s : ModelSystem (.small [])) (t : List (ModelSystem (.small []) × ModelAct Binary32)),
      (modelSystem (.small []) EdgeSystem.smallConfig).init s₀ →
        (modelSystem (.small []) EdgeSystem.smallConfig).Run s₀ t s → s.RunsInstalled := by
  intro h
  have hview : ((modelSystem (.small []) EdgeSystem.smallConfig).execTrace smallSystem
      (reloadFrom .unreadable)).map
        (fun x => (x.2.impl.current, x.2.installed, x.2.loop.coordinator.modelMgr.isNone)) =
        some (none, some (⟨0, [1]⟩, 1), true) := by
    decide +kernel
  obtain ⟨t, s, hrun, -, hview⟩ := TransitionSystem.exists_run_of_execTrace hview
  obtain ⟨hcurrent, hrest⟩ := Prod.mk.inj hview
  obtain ⟨hinstalled, hmgr⟩ := Prod.mk.inj hrest
  have hI := hrun.invariant (I := Inv) (fun _ _ _ hI hs => inv_step hI hs)
    (inv_init init_smallSystem)
  have hruns := (runsInstalled_iff hI).mp (h _ s t init_smallSystem hrun)
  have hsame := hruns.2 (Option.isNone_iff_eq_none.mp hmgr)
  rw [hcurrent, hinstalled] at hsame
  cases hsame

/-- A reload of another model that succeeds. -/
theorem throughout_runsInstalled_iff_otherModel :
    ∃ t s, (modelSystem (.small []) EdgeSystem.smallConfig).Run smallSystem t s ∧
      s.impl.current = some (⟨1, [2]⟩, 1) ∧
      (TransitionSystem.Throughout RunsInstalled t s ↔
        TransitionSystem.Respects ReloadKeeps t) := by
  have hview : ((modelSystem (.small []) EdgeSystem.smallConfig).execTrace smallSystem
      (reloadFrom (.data [2]))).map (fun x => x.2.impl.current) = some (some (⟨1, [2]⟩, 1)) := by
    decide +kernel
  obtain ⟨t, s, hrun, -, hcurrent⟩ := TransitionSystem.exists_run_of_execTrace hview
  exact ⟨t, s, hrun, hcurrent, throughout_runsInstalled_iff init_smallSystem hrun⟩

end ModelSystem
