-- SUMMARY: Rollback of models: the registry against the deployments that were in force, and when the one before is restored.
import NeuroPipeline.Central.ModelRegistry

/-!
# Rollback

The registry beside what it is to remember of each model: the deployment in
force and the one that was in force before it. A rollback exchanges the two.
-/

/-- The deployment of a model that is in force, and the one before. -/
structure Lineage where
  current : Deployment
  previous : Option Deployment
  deriving DecidableEq

structure RegistryHistory where
  registry : ModelRegistry
  lineage : String → Option Lineage

namespace Lineage

/-- A new deployment is in force. -/
def deployed (old : Option Lineage) (d : Deployment) : Lineage := ⟨d, old.map current⟩

def rolledBack (l : Lineage) : Lineage :=
  match l.previous with
  | none => l
  | some d => ⟨d, some l.current⟩

/-- The current deployment differs from the previous one in its version at most. -/
def SameBut (l : Lineage) : Prop :=
  ∀ d, l.previous = some d → { l.current with version := d.version } = d

end Lineage

namespace RegistryHistory

variable {s s' : RegistryHistory} {modelId : String} {now : ℚ}

/-- What a successful operation does to the lineages. -/
def record (s : RegistryHistory) : RegistryAct → String → Option Lineage
  | .deploy modelId d _ =>
    Function.update s.lineage modelId (some (.deployed (s.lineage modelId) d))
  | .undeploy _ => s.lineage
  | .rollback modelId _ =>
    Function.update s.lineage modelId ((s.lineage modelId).map Lineage.rolledBack)

def step (s : RegistryHistory) (a : RegistryAct) : RegistryHistory where
  registry := (s.registry.apply a).1
  lineage := if (s.registry.apply a).2 then s.record a else s.lineage

end RegistryHistory

def historySystem : TransitionSystem RegistryHistory RegistryAct where
  init s := s.registry.models = ∅ ∧ s.lineage = fun _ => none
  step s a := some (s.step a)

namespace RegistryHistory

variable {s s' : RegistryHistory} {modelId : String} {now : ℚ}

/-- A successful rollback leaves the model as it was deployed before. -/
def Restores (s : RegistryHistory) : RegistryAct → Prop
  | .rollback modelId now =>
    (s.registry.rollback modelId now).2 = true →
      ∃ l d, s.lineage modelId = some l ∧ l.previous = some d ∧
        ((s.registry.rollback modelId now).1.getModel modelId).map ModelRecord.deployment = some d
  | _ => True

/-- A successful rollback is of a model whose last two deployments differ in their
versions at most. -/
def RollsBackVersion (s : RegistryHistory) : RegistryAct → Prop
  | .rollback modelId now =>
    (s.registry.rollback modelId now).2 = true → ∀ l, s.lineage modelId = some l → l.SameBut
  | _ => True

/-- What the record of a model keeps of its lineage. -/
def Kept : Option ModelRecord → Option Lineage → Prop
  | none, lineage => lineage = none
  | some record, lineage =>
    ∃ l, lineage = some l ∧ record.deployment = l.current ∧
      record.previousVersion = l.previous.map Deployment.version

def Faithful (s : RegistryHistory) : Prop :=
  ∀ modelId, Kept (s.registry.getModel modelId) (s.lineage modelId)

theorem faithful_of_init (h : historySystem.init s) : s.Faithful := by
  intro modelId
  rw [ModelRegistry.getModel, h.1, h.2]
  exact rfl

theorem Faithful.put {record : ModelRecord} {lineage : Option Lineage} (h : s.Faithful)
    (hkept : Kept (some record) lineage) :
    Faithful ⟨s.registry.put modelId record, Function.update s.lineage modelId lineage⟩ := by
  intro other
  by_cases ho : other = modelId
  · subst ho
    simpa only [ModelRegistry.getModel_put_self, Function.update_self] using hkept
  · simpa only [ModelRegistry.getModel_put_of_ne _ ho, Function.update_of_ne ho] using h other

theorem Faithful.deployed (h : s.Faithful) (d : Deployment) :
    Kept (some (d.record modelId now ((s.registry.getModel modelId).map ModelRecord.version)))
      (some (.deployed (s.lineage modelId) d)) := by
  refine ⟨_, rfl, rfl, ?_⟩
  have hkept := h modelId
  cases hget : s.registry.getModel modelId with
  | none =>
      rw [hget] at hkept
      simp [Deployment.record, Lineage.deployed, show s.lineage modelId = none from hkept]
  | some record =>
      rw [hget] at hkept
      obtain ⟨l, hl, hcurrent, -⟩ := hkept
      simp [Deployment.record, Lineage.deployed, hl, ← hcurrent, ModelRecord.deployment]

/-- A rollback brings back the version of the deployment before, and nothing else. -/
theorem Faithful.rollback (h : s.Faithful) (hok : (s.registry.rollback modelId now).2 = true) :
    ∃ record version l d, s.lineage modelId = some l ∧ l.previous = some d ∧ d.version = version ∧
      record.deployment = l.current ∧
      s.registry.rollback modelId now =
        (s.registry.put modelId (ModelRegistry.rolledBack record version now), true) := by
  rcases s.registry.rollback_cases modelId now with
    ⟨-, hsame⟩ | ⟨record, version, hget, hprev, -, hput⟩
  · rw [hsame] at hok
    cases hok
  · have hkept := h modelId
    rw [hget] at hkept
    obtain ⟨l, hl, hcurrent, hversion⟩ := hkept
    rw [hprev, eq_comm, Option.map_eq_some_iff] at hversion
    obtain ⟨d, hd, hdversion⟩ := hversion
    exact ⟨record, version, l, d, hl, hd, hdversion, hcurrent, hput⟩

theorem deployment_rolledBack (record : ModelRecord) (version : String) :
    (ModelRegistry.rolledBack record version now).deployment =
      { record.deployment with version := version } := rfl

theorem restores_congr (h : s.Faithful) (a : RegistryAct) :
    s.Restores a ↔ s.RollsBackVersion a := by
  cases a with
  | deploy modelId d now => exact Iff.rfl
  | undeploy modelId => exact Iff.rfl
  | rollback modelId now =>
      refine imp_congr_right fun hok => ?_
      obtain ⟨record, version, l, d, hl, hd, hversion, hcurrent, hput⟩ := h.rollback hok
      rw [hput, ModelRegistry.getModel_put_self, Option.map_some, deployment_rolledBack, hcurrent]
      constructor
      · rintro ⟨l', d', hl', hd', heq⟩ l'' hl''
        obtain rfl : l = l' := Option.some.inj (hl.symm.trans hl')
        obtain rfl : l = l'' := Option.some.inj (hl.symm.trans hl'')
        obtain rfl : d = d' := Option.some.inj (hd.symm.trans hd')
        intro d' hd'
        obtain rfl : d = d' := Option.some.inj (hd.symm.trans hd')
        rw [hversion]
        exact Option.some.inj heq
      · intro hsame
        refine ⟨l, d, hl, hd, ?_⟩
        rw [← hversion, hsame l hl d hd]

/-- While rollbacks only concern versions, the registry keeps the lineages. -/
theorem Faithful.step (h : s.Faithful) {a : RegistryAct} (ha : s.RollsBackVersion a) :
    (s.step a).Faithful := by
  cases hok : (s.registry.apply a).2 with
  | false =>
      have hsame : (s.registry.apply a).1 = s.registry := by
        cases a with
        | deploy modelId d now =>
            rcases s.registry.deploy_cases modelId d now with hd | ⟨-, -, hd⟩
            · simp [ModelRegistry.apply, hd]
            · simp [ModelRegistry.apply, hd] at hok
        | undeploy modelId =>
            rcases s.registry.undeploy_cases modelId with ⟨-, hu⟩ | ⟨record, -, hu⟩
            · simp [ModelRegistry.apply, hu]
            · simp [ModelRegistry.apply, hu] at hok
        | rollback modelId now =>
            rcases s.registry.rollback_cases modelId now with ⟨-, hr⟩ | ⟨record, version, -, -, -, hr⟩
            · simp [ModelRegistry.apply, hr]
            · simp [ModelRegistry.apply, hr] at hok
      simpa [RegistryHistory.step, hok, hsame] using h
  | true =>
      simp only [RegistryHistory.step, hok, if_true]
      cases a with
      | deploy modelId d now =>
          rcases s.registry.deploy_cases modelId d now with hd | ⟨-, -, hd⟩
          · simp [ModelRegistry.apply, hd] at hok
          · simp only [ModelRegistry.apply, hd, record]
            exact h.put (h.deployed d)
      | undeploy modelId =>
          rcases s.registry.undeploy_cases modelId with ⟨-, hu⟩ | ⟨record, hget, hu⟩
          · simp [ModelRegistry.apply, hu] at hok
          · have hkept := h modelId
            rw [hget] at hkept
            have hput : Faithful ⟨s.registry.put modelId { record with status := .undeployed },
                Function.update s.lineage modelId (s.lineage modelId)⟩ := h.put hkept
            simpa only [ModelRegistry.apply, hu, RegistryHistory.record,
              Function.update_eq_self] using hput
      | rollback modelId now =>
          obtain ⟨record, version, l, d, hl, hd, hversion, hcurrent, hput⟩ := h.rollback hok
          simp only [ModelRegistry.apply, hput, RegistryHistory.record]
          apply h.put
          have hsame := ha hok l hl d hd
          refine ⟨⟨d, some l.current⟩, by simp [hl, Lineage.rolledBack, hd], ?_, ?_⟩
          · rw [deployment_rolledBack, hcurrent, ← hversion, hsame]
          · simp [ModelRegistry.rolledBack, ← hcurrent, ModelRecord.deployment]

end RegistryHistory

/-- Every rollback restores the deployment before in exactly the runs that only roll
back models whose last two deployments differ in their versions at most. -/
theorem historySystem.restores_iff {s₀ s : RegistryHistory}
    {t : List (RegistryHistory × RegistryAct)} (h₀ : historySystem.init s₀)
    (hrun : historySystem.Run s₀ t s) :
    TransitionSystem.Respects RegistryHistory.Restores t ↔
      TransitionSystem.Respects RegistryHistory.RollsBackVersion t := by
  apply hrun.respects_congr_of_respects (I := RegistryHistory.Faithful)
  · intro s a s' h ha hs
    obtain rfl := Option.some.inj hs
    exact h.step ha
  · intro s a s' h _
    exact RegistryHistory.restores_congr h a
  · exact RegistryHistory.faithful_of_init h₀

namespace historySystem

def empty : RegistryHistory := ⟨{}, fun _ => none⟩

def first : Deployment := { modelPath := "/models/yolov5s.rknn" }

/-- The second version is another file. -/
def second : Deployment := { modelPath := "/models/yolov5s_v2.rknn", version := "2.0.0" }

def deployedTwice : List RegistryAct :=
  [.deploy "yolov5s" first 1, .undeploy "yolov5s", .deploy "yolov5s" second 2]

theorem exec_deployedTwice :
    ∃ t s, historySystem.Run empty t s ∧ s.lineage "yolov5s" = some ⟨second, some first⟩ ∧
      (s.registry.rollback "yolov5s" 3).2 = true ∧
      ((s.registry.rollback "yolov5s" 3).1.getModel "yolov5s").map ModelRecord.deployment =
        some { second with version := "1.0.0" } := by
  have hview : (historySystem.execTrace empty deployedTwice).map
      (fun x => (x.2.lineage "yolov5s", (x.2.registry.rollback "yolov5s" 3).2,
        ((x.2.registry.rollback "yolov5s" 3).1.getModel "yolov5s").map ModelRecord.deployment)) =
      some (some ⟨second, some first⟩, true, some { second with version := "1.0.0" }) := by
    decide +kernel
  obtain ⟨t, s, hrun, -, hview⟩ := TransitionSystem.exists_run_of_execTrace hview
  obtain ⟨hlineage, hok, hrecord⟩ : _ ∧ _ ∧ _ := by simpa only [Prod.mk.injEq] using hview
  exact ⟨t, s, hrun, hlineage, hok, hrecord⟩

theorem not_restores_deployedTwice :
    ¬ ∀ (s₀ s : RegistryHistory) (t : List (RegistryHistory × RegistryAct)),
      historySystem.init s₀ → historySystem.Run s₀ t s →
        TransitionSystem.Respects RegistryHistory.Restores t := by
  intro h
  obtain ⟨t, s, hrun, hlineage, hok, hrecord⟩ := exec_deployedTwice
  have hall := h empty _ _ ⟨rfl, rfl⟩ (hrun.snoc (l := .rollback "yolov5s" 3) rfl)
  obtain ⟨l, d, hl, hd, hrestored⟩ := (TransitionSystem.respects_snoc.mp hall).2 hok
  obtain rfl := Option.some.inj (hlineage.symm.trans hl)
  obtain rfl := Option.some.inj hd
  exact absurd (hrecord.symm.trans hrestored) (by decide +kernel)

/-- The second version is in the place of the first. -/
def versionBack : List RegistryAct :=
  [.deploy "yolov5s" first 1, .undeploy "yolov5s",
    .deploy "yolov5s" { first with version := "2.0.0" } 2, .rollback "yolov5s" 3]

theorem restores_iff_versionBack :
    ∃ t s, historySystem.Run empty t s ∧
      (s.registry.getModel "yolov5s").map ModelRecord.deployment = some first ∧
      (TransitionSystem.Respects RegistryHistory.Restores t ↔
        TransitionSystem.Respects RegistryHistory.RollsBackVersion t) := by
  have hview : (historySystem.execTrace empty versionBack).map
      (fun x => (x.2.registry.getModel "yolov5s").map ModelRecord.deployment) =
      some (some first) := by
    decide +kernel
  obtain ⟨t, s, hrun, -, hrecord⟩ := TransitionSystem.exists_run_of_execTrace hview
  exact ⟨t, s, hrun, hrecord, restores_iff ⟨rfl, rfl⟩ hrun⟩

end historySystem
