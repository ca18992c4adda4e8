-- SUMMARY: Commands made by guidance carry a delta that the edge does not look for: only a value at its limit satisfies them.
import NeuroPipeline.Central.VlmConfigGuide
import NeuroPipeline.Edge.PipelineCoordinator

/-!
# The format of commands

Central makes the commands and the edge handles them. Guidance asks for a change
by a delta, and the edge for the new value under another name.
-/

open CFloat (const)

inductive Direction where
  | up
  | down
  deriving DecidableEq

/-- Where a sensitivity or FPS adjustment with a delta other than zero goes. -/
def ConfigAdjustment.direction (a : ConfigAdjustment) : Option Direction :=
  match a.adjustmentType with
  | .sensitivity =>
    if const 0 < a.sensitivityDelta then some .up
    else if a.sensitivityDelta < const 0 then some .down
    else none
  | .fps => if 0 < a.fpsDelta then some .up else if a.fpsDelta < 0 then some .down else none
  | .detectionRegion | .focusArea => none

namespace VlmConfigGuide

theorem mem_guidanceCommands {py : Python} {deviceId : String} {counter : Nat}
    {adjustments : List ConfigAdjustment} {a : ConfigAdjustment} {cmd : ControlCommand}
    (h : (a, cmd) ∈ guidanceCommands py deviceId counter adjustments) :
    a ∈ adjustments ∧ ∃ n, cmd = toMessage py (createControlCommand a deviceId n) := by
  induction adjustments generalizing counter with
  | nil => cases h
  | cons b rest ih =>
      rcases List.mem_cons.mp h with heq | hrest
      · obtain ⟨rfl, rfl⟩ := Prod.mk.inj heq
        exact ⟨List.mem_cons_self, counter + 1, rfl⟩
      · obtain ⟨hmem, hcmd⟩ := ih hrest
        exact ⟨List.mem_cons_of_mem _ hmem, hcmd⟩

theorem mem_applyVlmGuidance {guide : VlmConfigGuide} {py : Python} {counter : Nat}
    {text deviceId : String} {a : ConfigAdjustment} {cmd : ControlCommand}
    (h : (a, cmd) ∈ guide.applyVlmGuidance py counter text deviceId) :
    ∃ n, cmd = toMessage py (createControlCommand a deviceId n) := by
  simp only [applyVlmGuidance] at h
  split at h
  · exact (mem_guidanceCommands h).2
  · cases h

/-- The parameters of such a command are the reason and the delta. -/
theorem toMessage_parameters (py : Python) {a : ConfigAdjustment} {dir : Direction}
    (hdir : a.direction = some dir) (deviceId : String) (n : Nat) :
    ∃ delta, (toMessage py (createControlCommand a deviceId n)).parameters =
      [("reason", a.reason), ("delta", delta)] := by
  unfold ConfigAdjustment.direction at hdir
  cases htype : a.adjustmentType with
  | sensitivity =>
      refine ⟨py.floatStr a.sensitivityDelta, ?_⟩
      simp [toMessage, createControlCommand, ConfigAdjustment.toCommandParams, htype, PyValue.text]
  | fps =>
      refine ⟨toString a.fpsDelta, ?_⟩
      simp [toMessage, createControlCommand, ConfigAdjustment.toCommandParams, htype, PyValue.text]
  | detectionRegion | focusArea =>
      rw [htype] at hdir
      cases hdir

end VlmConfigGuide

open VlmConfigGuide (asciiPython sensitivityText)

namespace Coordinator

variable {F : Type} [CFloat F]

/-- The value that the adjustment is about cannot go further in that direction. A
higher sensitivity is a lower threshold. -/
def AtLimit (c : Coordinator F) (a : ConfigAdjustment) (dir : Direction) : Prop :=
  match a.adjustmentType, dir with
  | .sensitivity, .up => c.config.confidenceThreshold ≤ const 0
  | .sensitivity, .down => const 1 ≤ c.config.confidenceThreshold
  | .fps, .up => 2 ^ 32 - 1 ≤ c.config.fps
  | .fps, .down => c.config.fps ≤ 1
  | .detectionRegion, _ | .focusArea, _ => False

/-- From `c` to `c'` the value has moved strictly in that direction. -/
def Moves (c c' : Coordinator F) (a : ConfigAdjustment) (dir : Direction) : Prop :=
  match a.adjustmentType, dir with
  | .sensitivity, .up => c'.config.confidenceThreshold < c.config.confidenceThreshold
  | .sensitivity, .down => c.config.confidenceThreshold < c'.config.confidenceThreshold
  | .fps, .up => c.config.fps < c'.config.fps
  | .fps, .down => c'.config.fps < c.config.fps
  | .detectionRegion, _ | .focusArea, _ => False

theorem not_moves_self [LawfulCFloat F] (c : Coordinator F) (a : ConfigAdjustment)
    (dir : Direction) : ¬ c.Moves c a dir := by
  have hfloat : ¬ c.config.confidenceThreshold < c.config.confidenceThreshold := by
    intro hlt
    exact LawfulCFloat.not_le_of_lt hlt (LawfulCFloat.le_of_lt hlt)
  unfold Moves
  split
  · exact hfloat
  · exact hfloat
  · exact lt_irrefl _
  · exact lt_irrefl _
  · exact not_false
  · exact not_false

variable [OfNumeral F]

/-- The command is handled, and its value moves unless it is at its limit. -/
def ActsOn (c : Coordinator F) (cmd : ControlCommand) (answer : EngineInit) (a : ConfigAdjustment)
    (dir : Direction) : Prop :=
  ∃ c', c.handleCommand cmd answer = .ok c' ∧ (c.AtLimit a dir ∨ c.Moves c' a dir)

/-- A command that does not carry the value it sets changes nothing. -/
theorem handleCommand_guidance (c : Coordinator F) (py : Python) {a : ConfigAdjustment}
    {dir : Direction} (hdir : a.direction = some dir) (deviceId : String) (n : Nat)
    (answer : EngineInit) :
    c.handleCommand (VlmConfigGuide.toMessage py
      (VlmConfigGuide.createControlCommand a deviceId n)) answer = .ok c := by
  obtain ⟨delta, hparameters⟩ := VlmConfigGuide.toMessage_parameters py hdir deviceId n
  have hmissing : ∀ key, key ≠ "reason" → key ≠ "delta" →
      (VlmConfigGuide.toMessage py (VlmConfigGuide.createControlCommand a deviceId n)).find key =
        none := by
    intro key hreason hdelta
    simp [ControlCommand.find, hparameters, List.lookup_cons, beq_eq_false_iff_ne.mpr hreason,
      beq_eq_false_iff_ne.mpr hdelta]
  unfold handleCommand
  unfold ConfigAdjustment.direction at hdir
  cases htype : a.adjustmentType with
  | sensitivity =>
      have hcommand : (VlmConfigGuide.toMessage py
          (VlmConfigGuide.createControlCommand a deviceId n)).type = .setSensitivity := by
        simp [VlmConfigGuide.toMessage, VlmConfigGuide.createControlCommand,
          VlmConfigGuide.typeMapping, htype, CommandType.ofNumber]
      rw [hcommand]
      simp only [setSensitivity, storeParameter, hmissing "sensitivity" (by decide) (by decide)]
  | fps =>
      have hcommand : (VlmConfigGuide.toMessage py
          (VlmConfigGuide.createControlCommand a deviceId n)).type = .setFps := by
        simp [VlmConfigGuide.toMessage, VlmConfigGuide.createControlCommand,
          VlmConfigGuide.typeMapping, htype, CommandType.ofNumber]
      rw [hcommand]
      simp only [setFps, storeParameter, hmissing "fps" (by decide) (by decide)]
  | detectionRegion | focusArea =>
      rw [htype] at hdir
      cases hdir

/-- No state acts on a command that guidance makes for a sensitivity or an FPS,
but for those at their limit, which need not. -/
theorem actsOn_iff_atLimit [LawfulCFloat F] {guide : VlmConfigGuide} {py : Python} {counter : Nat}
    {text deviceId : String} {a : ConfigAdjustment} {cmd : ControlCommand}
    (h : (a, cmd) ∈ guide.applyVlmGuidance py counter text deviceId) {dir : Direction}
    (hdir : a.direction = some dir) (c : Coordinator F) (answer : EngineInit) :
    c.ActsOn cmd answer a dir ↔ c.AtLimit a dir := by
  obtain ⟨n, rfl⟩ := VlmConfigGuide.mem_applyVlmGuidance h
  have hsame := handleCommand_guidance c py hdir deviceId n answer
  constructor
  · rintro ⟨c', hc', hacts⟩
    obtain rfl := Except.ok.inj (hsame.symm.trans hc')
    exact hacts.resolve_right (not_moves_self _ a dir)
  · intro hlimit
    exact ⟨c, hsame, .inl hlimit⟩

/-! ## A recommendation that is not followed -/

/-- The text asks for a higher sensitivity, which leads to one command. -/
theorem applyVlmGuidance_sensitivityText :
    ∃ a cmd, (a, cmd) ∈ ({} : VlmConfigGuide).applyVlmGuidance asciiPython 0 sensitivityText
        "edge-001" ∧
      a.adjustmentType = .sensitivity ∧ a.direction = some .up ∧
      cmd = { type := .setSensitivity,
              parameters := [("reason", "Increase detection sensitivity."), ("delta", "0.05")],
              commandId := 1 } := by
  have hview : (({} : VlmConfigGuide).applyVlmGuidance asciiPython 0 sensitivityText
      "edge-001").map (fun p => (p.1.adjustmentType, p.1.direction, p.2)) =
        [(.sensitivity, some .up,
          { type := .setSensitivity,
            parameters := [("reason", "Increase detection sensitivity."), ("delta", "0.05")],
            commandId := 1 })] := by decide +kernel
  obtain ⟨⟨a, cmd⟩, rest, hcommands, hfirst, -⟩ := List.map_eq_cons_iff.mp hview
  obtain ⟨htype, hboth⟩ := Prod.mk.inj hfirst
  obtain ⟨hdir, hcmd⟩ := Prod.mk.inj hboth
  refine ⟨a, cmd, ?_, htype, hdir, hcmd⟩
  rw [hcommands]
  exact List.mem_cons_self

/-- The edge keeps its threshold of 0.5. -/
theorem not_actsOn_sensitivityText :
    ∃ a cmd, (a, cmd) ∈ ({} : VlmConfigGuide).applyVlmGuidance asciiPython 0 sensitivityText
        "edge-001" ∧
      a.direction = some .up ∧
      ∃ c : Coordinator Binary32, initializePipeline {} .ready (fun _ => .ready) 0 = .ok (some c) ∧
        c.handleCommand cmd .ready = .ok c ∧ ¬ c.ActsOn cmd .ready a .up := by
  obtain ⟨a, cmd, hmem, htype, hdir, rfl⟩ := applyVlmGuidance_sensitivityText
  refine ⟨a, _, hmem, hdir, _, rfl, rfl, ?_⟩
  rintro ⟨c', hc', hacts⟩
  obtain rfl := Except.ok.inj hc'
  rcases hacts with hlimit | hmoves
  · have hhalf : ¬ (const 0.5 : Binary32) ≤ const 0 := by decide +kernel
    simp only [AtLimit, htype] at hlimit
    exact hhalf hlimit
  · exact not_moves_self _ a .up hmoves

theorem actsOn_iff_atLimit_sensitivityText :
    ∃ a cmd, ((a, cmd) ∈ ({} : VlmConfigGuide).applyVlmGuidance asciiPython 0 sensitivityText
        "edge-001" ∧ a.direction = some .up) ∧
      ∀ (c : Coordinator Binary32) (answer : EngineInit),
        c.ActsOn cmd answer a .up ↔ c.AtLimit a .up := by
  obtain ⟨a, cmd, hmem, -, hdir, -⟩ := applyVlmGuidance_sensitivityText
  exact ⟨a, cmd, ⟨hmem, hdir⟩, actsOn_iff_atLimit hmem hdir⟩

end Coordinator
