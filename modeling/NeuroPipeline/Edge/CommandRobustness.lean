-- SUMMARY: Control commands with arbitrary parameters: exactly which ones are handled without harm.
import NeuroPipeline.Edge.PipelineCoordinator

/-!
# Robustness of command handling

A command is handled robustly when no exception leaves the handler and bad
parameters change nothing. The conversions of the standard library do not check
ranges, accept trailing text and throw, which leaves few commands robust.
-/

open CFloat (const)
open Except (map_eq_ok bind_eq_ok pure_eq_ok)

namespace Coordinator

variable {F : Type} [CFloat F]

/-! ## Commands that set a field -/

/-- Such a command is robust exactly when a parameter that is there converts, and
is valid or changes nothing. -/
theorem storeParameter_robust_iff {A : Type} {c : Coordinator F} {cmd : ControlCommand}
    {key : String} {convert : String → Except StdException A} {store : A → Coordinator F}
    {valid : String → Prop} :
    (∃ c', c.storeParameter cmd key convert store = .ok c' ∧
        (¬ (∃ text, cmd.find key = some text ∧ valid text) → c' = c)) ↔
      ∀ text, cmd.find key = some text →
        ∃ v, convert text = .ok v ∧ (valid text ∨ store v = c) := by
  unfold storeParameter
  cases hfind : cmd.find key with
  | none => simp
  | some text =>
      simp only [map_eq_ok, Option.some.injEq, exists_eq_left', forall_eq']
      constructor
      · rintro ⟨c', ⟨v, hv, rfl⟩, hsame⟩
        refine ⟨v, hv, ?_⟩
        by_cases h : valid text
        · exact .inl h
        · exact .inr (hsame h)
      · rintro ⟨v, hv, hor⟩
        refine ⟨store v, ⟨v, hv, rfl⟩, ?_⟩
        intro hnot
        exact hor.resolve_left hnot

theorem withFps_eq_self {c : Coordinator F} {fps : Nat} : c.withFps fps = c ↔ fps = c.config.fps := by
  constructor
  · intro h
    exact congrArg (fun c => c.config.fps) h
  · rintro rfl
    rfl

theorem withConfidenceThreshold_eq_self {c : Coordinator F} {threshold : F} :
    c.withConfidenceThreshold threshold = c ↔ threshold = c.config.confidenceThreshold := by
  constructor
  · intro h
    exact congrArg (fun c => c.config.confidenceThreshold) h
  · rintro rfl
    rfl

/-! ## The other commands -/

theorem switchModelVariant_eq_self {c : Coordinator F} {cmd : ControlCommand}
    (h : ¬ ∃ modelId mgr, cmd.find "model_id" = some modelId ∧ c.modelMgr = some mgr ∧
      (mgr.switchActiveModel modelId).2 = true) : c.switchModelVariant cmd = c := by
  unfold switchModelVariant
  cases hfind : cmd.find "model_id" with
  | none => rfl
  | some modelId =>
      cases hmgr : c.modelMgr with
      | none => rfl
      | some mgr =>
          have hunknown : ¬ (mgr.switchActiveModel modelId).2 = true := by
            intro hknown
            exact h ⟨modelId, mgr, hfind, hmgr, hknown⟩
          have hsame : (mgr.switchActiveModel modelId).1 = mgr := by
            unfold MultiModelManager.switchActiveModel at hunknown ⊢
            split
            next hslot => simp [hslot] at hunknown
            next => rfl
          simp only [hsame]
          rw [← hmgr]

theorem reloadModel_ok_iff {c : Coordinator F} {answer : EngineInit} :
    (∃ c', c.reloadModel answer = .ok c') ↔ answer ≠ .allocationThrows := by
  cases answer <;>
    simp [reloadModel, RknnEngine.initializeEngine, bind, Except.bind, pure, Except.pure]

variable [OfNumeral F]

/-- The region command changes nothing; all it can do wrong is to throw. -/
theorem setDetectionRegion_ok_iff {c c' : Coordinator F} {cmd : ControlCommand} :
    c.setDetectionRegion cmd = .ok c' ↔
      c' = c ∧ ∀ x y x2 y2, cmd.find "x_min" = some x → cmd.find "y_min" = some y →
        cmd.find "x_max" = some x2 → cmd.find "y_max" = some y2 →
        ∀ text ∈ [x, y, x2, y2], ∃ v : Conversion F, stof text = .ok v := by
  unfold setDetectionRegion
  split
  next x y x2 y2 hx hy hx2 hy2 =>
    simp only [bind_eq_ok, pure_eq_ok, hx, hy, hx2, hy2, Option.some.injEq, List.forall_mem_cons]
    constructor
    · rintro ⟨v, hv, v', hv', w, hw, w', hw', rfl⟩
      refine ⟨rfl, ?_⟩
      rintro _ _ _ _ rfl rfl rfl rfl
      exact ⟨⟨v, hv⟩, ⟨v', hv'⟩, ⟨w, hw⟩, ⟨w', hw'⟩, by simp⟩
    · rintro ⟨rfl, h⟩
      obtain ⟨⟨v, hv⟩, ⟨v', hv'⟩, ⟨w, hw⟩, ⟨w', hw'⟩, -⟩ := h x y x2 y2 rfl rfl rfl rfl
      exact ⟨v, hv, v', hv', w, hw, w', hw', rfl⟩
  next hmissing =>
    constructor
    · intro h
      obtain rfl := Except.ok.inj h
      refine ⟨rfl, ?_⟩
      intro x y x2 y2 hx hy hx2 hy2
      exact absurd hy2 (hmissing x y x2 y2 hx hy hx2)
    · rintro ⟨rfl, -⟩
      rfl

/-! ## Specification -/

/-- A positive number that fits the field, and nothing else. -/
def ValidFps (text : String) : Prop :=
  ∃ v, stoul text = .ok v ∧ v.rest = [] ∧ '-' ∉ text.toList ∧ 1 ≤ v.value ∧ v.value < 2 ^ 32

/-- A number from 0 to 1, and nothing else. -/
def ValidFraction (F : Type) [CFloat F] [OfNumeral F] (text : String) : Prop :=
  ∃ v : Conversion F, stof text = .ok v ∧ v.rest = [] ∧ const 0 ≤ v.value ∧ v.value ≤ const 1

/-- Every parameter of the command is there, well formed and in range. -/
def ValidParameters (c : Coordinator F) (cmd : ControlCommand) : Prop :=
  match cmd.type with
  | .setFps => ∃ text, cmd.find "fps" = some text ∧ ValidFps text
  | .setDetectionThreshold => ∃ text, cmd.find "threshold" = some text ∧ ValidFraction F text
  | .setSensitivity => ∃ text, cmd.find "sensitivity" = some text ∧ ValidFraction F text
  | .setDetectionRegion =>
    ∀ key ∈ ["x_min", "y_min", "x_max", "y_max"],
      ∃ text, cmd.find key = some text ∧ ValidFraction F text
  | .switchModelVariant =>
    ∃ modelId mgr, cmd.find "model_id" = some modelId ∧ c.modelMgr = some mgr ∧
      (mgr.switchActiveModel modelId).2 = true
  | _ => True

/-- No exception escapes, and bad parameters leave everything as it was. -/
def Robust (c : Coordinator F) (cmd : ControlCommand) (answer : EngineInit) : Prop :=
  ∃ c', c.handleCommand cmd answer = .ok c' ∧ (¬ c.ValidParameters cmd → c' = c)

/-- The commands that do no harm: a parameter that sets a field converts, and is
valid or converts to the value the field already has. -/
def Harmless (c : Coordinator F) (cmd : ControlCommand) (answer : EngineInit) : Prop :=
  match cmd.type with
  | .setFps =>
    ∀ text, cmd.find "fps" = some text →
      ∃ v, stoul text = .ok v ∧ (ValidFps text ∨ v.value % 2 ^ 32 = c.config.fps)
  | .setDetectionThreshold =>
    ∀ text, cmd.find "threshold" = some text →
      ∃ v : Conversion F, stof text = .ok v ∧
        (ValidFraction F text ∨ v.value = c.config.confidenceThreshold)
  | .setSensitivity =>
    ∀ text, cmd.find "sensitivity" = some text →
      ∃ v : Conversion F, stof text = .ok v ∧
        (ValidFraction F text ∨ const 1 - v.value = c.config.confidenceThreshold)
  | .setDetectionRegion =>
    ∀ x y x2 y2, cmd.find "x_min" = some x → cmd.find "y_min" = some y →
      cmd.find "x_max" = some x2 → cmd.find "y_max" = some y2 →
      ∀ text ∈ [x, y, x2, y2], ∃ v : Conversion F, stof text = .ok v
  | .reloadModel => answer ≠ .allocationThrows
  | _ => True

/-! ## All commands -/

/-- A command is handled robustly exactly when it is harmless. -/
theorem robust_iff_harmless (c : Coordinator F) (cmd : ControlCommand) (answer : EngineInit) :
    c.Robust cmd answer ↔ c.Harmless cmd answer := by
  unfold Robust Harmless ValidParameters handleCommand
  cases htype : cmd.type with
  | setFps =>
      simp only [← withFps_eq_self]
      exact storeParameter_robust_iff
  | setDetectionThreshold =>
      simp only [← withConfidenceThreshold_eq_self]
      exact storeParameter_robust_iff
  | setSensitivity =>
      simp only [← withConfidenceThreshold_eq_self]
      exact storeParameter_robust_iff
  | reloadModel =>
      simpa using reloadModel_ok_iff
  | switchModelVariant =>
      simp only [iff_true]
      refine ⟨_, rfl, ?_⟩
      exact switchModelVariant_eq_self
  | setDetectionRegion =>
      simp only [setDetectionRegion_ok_iff]
      constructor
      · rintro ⟨c', ⟨-, h⟩, -⟩
        exact h
      · intro h
        exact ⟨c, ⟨rfl, h⟩, fun _ => rfl⟩
  | shutdown => simp
  | changeModel => simp
  | enableDebug => simp
  | unrecognized n => simp

/-- An FPS that is no number throws, and a negative one is stored as a large one. -/
theorem not_robust_fps :
    ∃ c : Coordinator Binary32, initializePipeline {} .ready (fun _ => .ready) 0 = .ok (some c) ∧
      c.handleCommand { type := .setFps, parameters := [("fps", "fast")] } .ready =
        .error .invalidArgument ∧
      ¬ c.Robust { type := .setFps, parameters := [("fps", "fast")] } .ready ∧
      ¬ c.Robust { type := .setFps, parameters := [("fps", "-1")] } .ready := by
  refine ⟨_, rfl, rfl, ?_, ?_⟩
  · rintro ⟨c', hc', -⟩
    cases hc'
  · rintro ⟨c', hc', hsame⟩
    obtain rfl := Except.ok.inj hc'
    have hfps := withFps_eq_self.mp (hsame ?_)
    · cases hfps
    · rintro ⟨text, htext, v, hv, -, hsign, -⟩
      cases htext
      simp at hsign

end Coordinator
