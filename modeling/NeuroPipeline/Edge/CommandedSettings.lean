-- SUMMARY: What commands leave behind at the edge: after any run of the loop each setting is that of the last command to store it.
import NeuroPipeline.Edge.CommandRobustness
import NeuroPipeline.Edge.ModelReload
import NeuroPipeline.Lib.Register

/-!
# Commanded settings

The settings that control commands are about, over whole runs of the processing loop. A command
whose parameter is missing, or cannot be converted, stores nothing.
-/

open CFloat (const)
open Register (latest)

namespace ControlCommand

/-- A parameter that is there and can be converted. -/
def parameter {A : Type} (cmd : ControlCommand) (key : String)
    (convert : String → Except StdException A) : Option A :=
  (cmd.find key).bind fun text => (convert text).toOption

/-- The frame rate that a command stores. -/
def storedFps (cmd : ControlCommand) : Option Nat :=
  if cmd.type = .setFps then (cmd.parameter "fps" stoul).map fun fps => fps.value % 2 ^ 32
  else none

/-- The confidence threshold that a command stores. -/
def storedThreshold (F : Type) [CFloat F] [OfNumeral F] (cmd : ControlCommand) : Option F :=
  match cmd.type with
  | .setDetectionThreshold =>
    (cmd.parameter "threshold" (stof (F := F))).map fun threshold => threshold.value
  | .setSensitivity =>
    (cmd.parameter "sensitivity" (stof (F := F))).map fun sens => const 1 - sens.value
  | _ => none

/-- The model that a command makes the active one, among those that are loaded. -/
def storedModelId (loaded : List String) (cmd : ControlCommand) : Option String :=
  if cmd.type = .switchModelVariant then (cmd.find "model_id").filter (· ∈ loaded) else none

end ControlCommand

/-- What commands set. -/
structure EdgeSettings (F : Type) where
  fps : Nat
  confidenceThreshold : F
  /-- none without a manager of several models -/
  activeModelId : Option String
  running : Bool

namespace EdgeSettings

variable {F : Type} [CFloat F] [OfNumeral F]

/-- The settings after some commands: each is that of the last command to store it. -/
def after (loaded : List String) (s : EdgeSettings F) (cmds : List ControlCommand) :
    EdgeSettings F where
  fps := latest ControlCommand.storedFps s.fps cmds
  confidenceThreshold := latest (ControlCommand.storedThreshold F) s.confidenceThreshold cmds
  activeModelId :=
    s.activeModelId.map fun id => latest (ControlCommand.storedModelId loaded) id cmds
  running := s.running && cmds.all fun cmd => cmd.type ≠ .shutdown

@[simp] theorem after_nil (loaded : List String) (s : EdgeSettings F) : s.after loaded [] = s := by
  simp [after]

theorem after_append (loaded : List String) (s : EdgeSettings F) (cmds cmds' : List ControlCommand) :
    s.after loaded (cmds ++ cmds') = (s.after loaded cmds).after loaded cmds' := by
  simp [after, Register.latest_append, Bool.and_assoc, Function.comp_def]

end EdgeSettings

/-! ## One command -/

namespace Coordinator

variable {F : Type} [CFloat F]

def settings (c : Coordinator F) : EdgeSettings F where
  fps := c.config.fps
  confidenceThreshold := c.config.confidenceThreshold
  activeModelId := c.modelMgr.map MultiModelManager.activeModelId
  running := c.running

/-- The models that a command can make the active one. -/
def switchable (c : Coordinator F) : List String :=
  (c.modelMgr.map fun mgr => (mgr.slots.filter ModelSlot.loaded).map ModelSlot.modelId).getD []

/-- A command that stores a parameter, or is given up. -/
theorem getD_storeParameter {A : Type} (c : Coordinator F) (cmd : ControlCommand) (key : String)
    (convert : String → Except StdException A) (store : A → Coordinator F) :
    ((c.storeParameter cmd key convert store).toOption.getD c) =
      ((cmd.parameter key convert).map store).getD c := by
  unfold storeParameter ControlCommand.parameter
  cases cmd.find key with
  | none => rfl
  | some text => cases hconvert : convert text <;> simp [hconvert, Except.map, Except.toOption]

theorem mem_switchable {c : Coordinator F} {mgr : MultiModelManager F} {modelId : String}
    (hmgr : c.modelMgr = some mgr) : modelId ∈ c.switchable ↔
      (mgr.slots.any fun slot => slot.modelId = modelId && slot.loaded) = true := by
  rw [switchable, hmgr, Option.map_some, Option.getD_some]
  simp only [List.mem_map, List.mem_filter, List.any_eq_true, Bool.and_eq_true, decide_eq_true_eq]
  exact exists_congr fun slot => by rw [and_assoc, and_comm (a := slot.loaded = true)]

theorem settings_switchModelVariant (c : Coordinator F) (cmd : ControlCommand) :
    (c.switchModelVariant cmd).settings = { c.settings with
      activeModelId := c.settings.activeModelId.map fun id =>
        ((cmd.find "model_id").filter (· ∈ c.switchable)).getD id } := by
  unfold switchModelVariant
  cases hfind : cmd.find "model_id" with
  | none =>
      cases hmgr : c.modelMgr <;> simp [settings, hmgr]
  | some modelId =>
      cases hmgr : c.modelMgr with
      | none => simp [settings, hmgr]
      | some mgr =>
          by_cases hmem : modelId ∈ c.switchable
          · simp [settings, hmgr, MultiModelManager.switchActiveModel, (mem_switchable hmgr).mp hmem,
              Option.filter_some, hmem]
          · simp [settings, hmgr, MultiModelManager.switchActiveModel,
              mt (mem_switchable hmgr).mpr hmem, Option.filter_some, hmem]

theorem getD_reloadModel (c : Coordinator F) (answer : EngineInit) :
    ((c.reloadModel answer).toOption.getD c).settings = c.settings := by
  unfold reloadModel
  cases c.engine.release.initializeEngine answer <;> rfl

variable [OfNumeral F]

theorem getD_setDetectionRegion (c : Coordinator F) (cmd : ControlCommand) :
    (c.setDetectionRegion cmd).toOption.getD c = c := by
  cases h : c.setDetectionRegion cmd with
  | error e => rfl
  | ok c' => exact (setDetectionRegion_ok_iff.mp h).1

/-- The coordinator after a command; one that throws leaves it as it was. -/
theorem settings_handleCommand (c : Coordinator F) (cmd : ControlCommand) (answer : EngineInit) :
    ((c.handleCommand cmd answer).toOption.getD c).settings =
      c.settings.after c.switchable [cmd] := by
  unfold handleCommand EdgeSettings.after
  simp only [Register.latest_singleton, ControlCommand.storedFps, ControlCommand.storedThreshold,
    ControlCommand.storedModelId, List.all_cons, List.all_nil, Bool.and_true]
  cases htype : cmd.type with
  | setFps =>
      simp only [setFps, getD_storeParameter]
      cases cmd.parameter "fps" stoul <;> simp [settings, withFps, Function.comp_def]
  | setDetectionThreshold =>
      simp only [setDetectionThreshold, getD_storeParameter]
      cases cmd.parameter "threshold" (stof (F := F)) <;>
        simp [settings, withConfidenceThreshold, Function.comp_def]
  | setSensitivity =>
      simp only [setSensitivity, getD_storeParameter]
      cases cmd.parameter "sensitivity" (stof (F := F)) <;>
        simp [settings, withConfidenceThreshold, Function.comp_def]
  | reloadModel => simp [getD_reloadModel]
  | switchModelVariant => simp [settings_switchModelVariant, Except.toOption]
  | setDetectionRegion => simp [getD_setDetectionRegion]
  | shutdown | changeModel | enableDebug | unrecognized =>
      simp [settings, Except.toOption, Function.comp_def]

end Coordinator

/-! ## Whole runs -/

namespace EdgeAct

variable {F : Type}

/-- The command that a step executes. -/
def commanded : EdgeAct F → Option ControlCommand
  | .command cmd _ => some cmd
  | _ => none

def stops : EdgeAct F → Bool
  | .stop => true
  | _ => false

end EdgeAct

namespace Coordinator

variable {F : Type} [CFloat F] {c c' : Coordinator F}

theorem analyse_settings {P : Platform F} {n : Nat} {f : FrameInput F} {a : Analysis F}
    (h : c.analyse P n f = some a) : a.coordinator.settings = c.settings := by
  unfold analyse at h
  split at h
  · obtain ⟨detections, -, rfl⟩ := Option.map_eq_some_iff.mp h
    obtain ⟨tracker, htracker⟩ := c.track_eq detections n
    simp only [dedup, htracker, settings]
  · cases h

theorem switchable_congr
    (h : c'.modelMgr.map MultiModelManager.slots = c.modelMgr.map MultiModelManager.slots) :
    c'.switchable = c.switchable := by
  have heq : ∀ c : Coordinator F, c.switchable =
      ((c.modelMgr.map MultiModelManager.slots).map fun slots =>
        (slots.filter ModelSlot.loaded).map ModelSlot.modelId).getD [] := fun c => by
    rw [Option.map_map]
    rfl
  rw [heq, heq, h]

end Coordinator

namespace EdgeSystem

variable {F : Type} [CFloat F] [OfNumeral F] {P : Platform F} {s s₀ s' : EdgeSystem P}
  {l : EdgeAct F} {t : List (EdgeSystem P × EdgeAct F)}

/-- The commands that a run executes. -/
def executed (t : List (EdgeSystem P × EdgeAct F)) : List ControlCommand :=
  t.filterMap fun p => p.2.commanded

/-- The settings at the end of a run: what commands store, and whether `Stop` was called. -/
def settingsAfter (c : Coordinator F) (t : List (EdgeSystem P × EdgeAct F)) : EdgeSettings F :=
  let settings := c.settings.after c.switchable (executed t)
  { settings with running := settings.running && t.all fun p => !p.2.stops }

omit [OfNumeral F] in
theorem executed_snoc (t : List (EdgeSystem P × EdgeAct F)) (s : EdgeSystem P) (l : EdgeAct F) :
    executed (t ++ [(s, l)]) = executed t ++ l.commanded.toList := by
  rw [executed, List.filterMap_append, executed]
  cases h : l.commanded <;> simp [h]

theorem settingsAfter_snoc (c : Coordinator F) (t : List (EdgeSystem P × EdgeAct F))
    (s : EdgeSystem P) (l : EdgeAct F) :
    settingsAfter c (t ++ [(s, l)]) =
      let settings := (settingsAfter c t).after c.switchable l.commanded.toList
      { settings with running := settings.running && !l.stops } := by
  simp only [settingsAfter, executed_snoc, EdgeSettings.after_append]
  simp only [EdgeSettings.after, List.all_append, List.all_cons, List.all_nil, Bool.and_true]
  congr 1
  ac_rfl

theorem command_coordinator (s : EdgeSystem P) (cmd : ControlCommand) (answer : EngineInit) :
    (s.command cmd answer).coordinator =
      (s.coordinator.handleCommand cmd answer).toOption.getD s.coordinator := by
  unfold command
  cases s.coordinator.handleCommand cmd answer <;> rfl

/-- Only commands and `Stop` change the settings. -/
theorem step_settings (h : s.step l = some s') :
    s'.coordinator.settings =
      let settings := s.coordinator.settings.after s.coordinator.switchable l.commanded.toList
      { settings with running := settings.running && !l.stops } := by
  cases step_moves h with
  | connect _ hcall | startEventStream _ hcall | flushStream _ hcall | stopEventStream _ hcall =>
      rw [(callClient_coordinator hcall).1]
      simp [EdgeAct.commanded, EdgeAct.stops]
  | frame hpc hframe =>
      cases frame_effect hpc hframe with
      | nothing _ hcoordinator =>
          rw [hcoordinator]
          simp [EdgeAct.commanded, EdgeAct.stops]
      | quiet a hanalyse _ hcoordinator | hands a _ hanalyse _ hcoordinator =>
          rw [hcoordinator, Coordinator.analyse_settings hanalyse]
          simp [EdgeAct.commanded, EdgeAct.stops]
  | command =>
      rw [command_coordinator, Coordinator.settings_handleCommand]
      simp [EdgeAct.commanded, EdgeAct.stops]
  | stop => simp [EdgeAct.commanded, EdgeAct.stops, Coordinator.settings]
  | client | eventReaderEnds | finish | leave =>
      simp [EdgeAct.commanded, EdgeAct.stops, withClient, finish]

/-- Each setting is what the last command to store it has stored, whatever else the loop has done
and whichever commands have failed. -/
theorem settings_of_run {config : PipelineConfig F} (hrun : (edgeSystem P config).Run s₀ t s) :
    s.coordinator.settings = settingsAfter s₀.coordinator t ∧
      s.coordinator.switchable = s₀.coordinator.switchable := by
  induction hrun with
  | nil => simp [settingsAfter, executed]
  | @snoc t s₁ s₂ l _ hs ih =>
      obtain ⟨hsettings, hswitchable⟩ := ih
      refine ⟨?_, (Coordinator.switchable_congr (step_slots hs)).trans hswitchable⟩
      rw [step_settings hs, hswitchable, hsettings, settingsAfter_snoc]

end EdgeSystem
