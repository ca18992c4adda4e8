-- SUMMARY: The model registry: deployment, removal and rollback of models, and how many of them a device has.
import Mathlib.Algebra.Order.Ring.Rat
import Mathlib.Data.Finmap
import NeuroPipeline.Lib.Dict
import NeuroPipeline.Lib.TransitionSystem

/-!
# Model registry

Model of `ModelRegistry` of model_registry.py. Its lock makes every operation one
step. The history of actions and the results of benchmarks are left out: no
operation reads them.
-/

inductive ModelStatus where
  | pending
  | deployed
  | failed
  | undeployed
  deriving DecidableEq

/-- What is deployed: the arguments of `deploy`, but the id. -/
structure Deployment where
  modelPath : String
  modelType : String := "detection"
  version : String := "1.0.0"
  metadata : Finmap fun _ : String => String := ∅
  targetDeviceId : String := ""
  npuCore : Int := -1
  deriving DecidableEq

structure ModelRecord where
  modelId : String
  modelPath : String
  modelType : String
  version : String
  metadata : Finmap fun _ : String => String
  status : ModelStatus
  deployedAt : ℚ
  targetDeviceId : String
  npuCore : Int
  previousVersion : Option String := none
  deriving DecidableEq

/-- A record without its status, its time and its link to the version before. -/
def ModelRecord.deployment (r : ModelRecord) : Deployment where
  modelPath := r.modelPath
  modelType := r.modelType
  version := r.version
  metadata := r.metadata
  targetDeviceId := r.targetDeviceId
  npuCore := r.npuCore

/-- The record that `deploy` makes. -/
def Deployment.record (d : Deployment) (modelId : String) (now : ℚ)
    (previousVersion : Option String) : ModelRecord where
  modelId := modelId
  modelPath := d.modelPath
  modelType := d.modelType
  version := d.version
  metadata := d.metadata
  status := .deployed
  deployedAt := now
  targetDeviceId := d.targetDeviceId
  npuCore := d.npuCore
  previousVersion := previousVersion

structure ModelRegistry where
  models : Dict String ModelRecord := ∅
  maxModelsPerDevice : Int := 3

namespace ModelRegistry

variable {r r' : ModelRegistry} {modelId device : String} {now : ℚ}

def getModel (r : ModelRegistry) (modelId : String) : Option ModelRecord :=
  r.models.lookup modelId

def put (r : ModelRegistry) (modelId : String) (record : ModelRecord) : ModelRegistry :=
  { r with models := Dict.set r.models modelId record }

/-- In place on a device. -/
def onDevice (device : String) (m : ModelRecord) : Bool :=
  m.targetDeviceId = device && m.status = .deployed

/-- How many models a device has. -/
def deployedOn (r : ModelRegistry) (device : String) : Nat :=
  Dict.countP (onDevice device) r.models

/-! ## Operations -/

def isDeployed (r : ModelRegistry) (modelId : String) : Bool :=
  match r.getModel modelId with
  | some record => record.status = .deployed
  | none => false

def deploy (r : ModelRegistry) (modelId : String) (d : Deployment) (now : ℚ) :
    ModelRegistry × Bool :=
  if r.isDeployed modelId then (r, false)
  else if r.maxModelsPerDevice ≤ r.deployedOn d.targetDeviceId then (r, false)
  else
    let previousVersion := (r.getModel modelId).map ModelRecord.version
    (r.put modelId (d.record modelId now previousVersion), true)

def undeploy (r : ModelRegistry) (modelId : String) : ModelRegistry × Bool :=
  match r.getModel modelId with
  | none => (r, false)
  | some record => (r.put modelId { record with status := .undeployed }, true)

/-- The record with the two versions exchanged. -/
def rolledBack (record : ModelRecord) (version : String) (now : ℚ) : ModelRecord :=
  { record with
    version := version
    previousVersion := some record.version
    deployedAt := now
    status := .deployed }

def rollback (r : ModelRegistry) (modelId : String) (now : ℚ) : ModelRegistry × Bool :=
  match r.getModel modelId with
  | none => (r, false)
  | some record =>
    match record.previousVersion with
    | none | some "" => (r, false)
    | some version => (r.put modelId (rolledBack record version now), true)

/-! ## What an operation can do -/

@[simp] theorem maxModelsPerDevice_put (record : ModelRecord) :
    (r.put modelId record).maxModelsPerDevice = r.maxModelsPerDevice := rfl

@[simp] theorem getModel_put_self (record : ModelRecord) :
    (r.put modelId record).getModel modelId = some record :=
  Dict.lookup_set_self

theorem getModel_put_of_ne {other : String} (record : ModelRecord) (h : other ≠ modelId) :
    (r.put modelId record).getModel other = r.getModel other :=
  Dict.lookup_set_of_ne h

theorem deployedOn_put_of_getModel {old : ModelRecord} (record : ModelRecord) (device : String)
    (h : r.getModel modelId = some old) :
    (r.put modelId record).deployedOn device + (onDevice device old).toNat =
      r.deployedOn device + (onDevice device record).toNat :=
  Dict.countP_set_of_lookup (onDevice device) h

theorem deployedOn_put_of_new (record : ModelRecord) (device : String)
    (h : r.getModel modelId = none) :
    (r.put modelId record).deployedOn device =
      r.deployedOn device + (onDevice device record).toNat :=
  Dict.countP_set_of_notMem (onDevice device) (AList.lookup_eq_none.mp h)

theorem not_onDevice_of_not_isDeployed {record : ModelRecord} (h : r.isDeployed modelId = false)
    (hget : r.getModel modelId = some record) (device : String) : onDevice device record = false := by
  have hstatus : record.status ≠ .deployed := by simpa [isDeployed, hget] using h
  simp [onDevice, hstatus]

theorem deploy_cases (r : ModelRegistry) (modelId : String) (d : Deployment) (now : ℚ) :
    r.deploy modelId d now = (r, false) ∨
    (r.isDeployed modelId = false ∧ (r.deployedOn d.targetDeviceId : Int) < r.maxModelsPerDevice ∧
      r.deploy modelId d now =
        (r.put modelId (d.record modelId now ((r.getModel modelId).map ModelRecord.version)),
          true)) := by
  cases hdeployed : r.isDeployed modelId with
  | true => exact .inl (by simp [deploy, hdeployed])
  | false =>
      by_cases hroom : r.maxModelsPerDevice ≤ r.deployedOn d.targetDeviceId
      · exact .inl (by simp [deploy, hdeployed, hroom])
      · exact .inr ⟨rfl, Int.not_le.mp hroom, by simp [deploy, hdeployed, hroom]⟩

theorem undeploy_cases (r : ModelRegistry) (modelId : String) :
    (r.getModel modelId = none ∧ r.undeploy modelId = (r, false)) ∨
    ∃ record, r.getModel modelId = some record ∧
      r.undeploy modelId = (r.put modelId { record with status := .undeployed }, true) := by
  cases hget : r.getModel modelId with
  | none => exact .inl ⟨rfl, by simp [undeploy, hget]⟩
  | some record => exact .inr ⟨record, rfl, by simp [undeploy, hget]⟩

/-- The version that `rollback` brings back, if it does. -/
def rollbackVersion (r : ModelRegistry) (modelId : String) : Option String :=
  ((r.getModel modelId).bind ModelRecord.previousVersion).filter (· ≠ "")

theorem rollback_cases (r : ModelRegistry) (modelId : String) (now : ℚ) :
    (r.rollbackVersion modelId = none ∧ r.rollback modelId now = (r, false)) ∨
    ∃ record version, r.getModel modelId = some record ∧
      record.previousVersion = some version ∧ r.rollbackVersion modelId = some version ∧
      r.rollback modelId now = (r.put modelId (rolledBack record version now), true) := by
  cases hget : r.getModel modelId with
  | none => exact .inl ⟨by simp [rollbackVersion, hget], by simp [rollback, hget]⟩
  | some record =>
      cases hprev : record.previousVersion with
      | none => exact .inl ⟨by simp [rollbackVersion, hget, hprev], by simp [rollback, hget, hprev]⟩
      | some version =>
          by_cases hempty : version = ""
          · subst hempty
            exact .inl ⟨by simp [rollbackVersion, hget, hprev], by simp [rollback, hget, hprev]⟩
          · refine .inr ⟨record, version, rfl, hprev, ?_, ?_⟩
            · simp [rollbackVersion, hget, hprev, hempty]
            · simp [rollback, hget, hprev]

end ModelRegistry

/-! ## Runs -/

inductive RegistryAct where
  | deploy (modelId : String) (d : Deployment) (now : ℚ)
  | undeploy (modelId : String)
  | rollback (modelId : String) (now : ℚ)
  deriving DecidableEq

namespace ModelRegistry

/-- The registry after an operation, and whether it succeeded. -/
def apply (r : ModelRegistry) : RegistryAct → ModelRegistry × Bool
  | .deploy modelId d now => r.deploy modelId d now
  | .undeploy modelId => r.undeploy modelId
  | .rollback modelId now => r.rollback modelId now

end ModelRegistry

def registrySystem : TransitionSystem ModelRegistry RegistryAct where
  init r := r.models = ∅
  step r a := some (r.apply a).1

/-! ## The capacity of a device -/

namespace ModelRegistry

variable {r r' : ModelRegistry} {modelId device : String} {now : ℚ}

def WithinCapacity (r : ModelRegistry) : Prop :=
  ∀ device, (r.deployedOn device : Int) ≤ r.maxModelsPerDevice

/-- A rollback that brings a model back has room for it on its device. -/
def HasRoom (r : ModelRegistry) : RegistryAct → Prop
  | .rollback modelId _ =>
    ∀ record, r.getModel modelId = some record → record.status ≠ .deployed →
      r.rollbackVersion modelId ≠ none →
        (r.deployedOn record.targetDeviceId : Int) < r.maxModelsPerDevice
  | _ => True

/-- A record that replaces none in place adds to its own device. -/
theorem deployedOn_put_of_not_isDeployed (record : ModelRecord) (device : String)
    (h : r.isDeployed modelId = false) :
    (r.put modelId record).deployedOn device =
      r.deployedOn device + (onDevice device record).toNat := by
  cases hget : r.getModel modelId with
  | none => exact deployedOn_put_of_new record device hget
  | some old =>
      have hset := deployedOn_put_of_getModel record device hget
      rwa [not_onDevice_of_not_isDeployed h hget, Bool.toNat_false, Nat.add_zero] at hset

/-- One more model in place stays within the capacity when its device has room. -/
theorem withinCapacity_put_iff (record : ModelRecord) (hstatus : record.status = .deployed)
    (hdown : r.isDeployed modelId = false) (h : r.WithinCapacity) :
    (r.put modelId record).WithinCapacity ↔
      (r.deployedOn record.targetDeviceId : Int) < r.maxModelsPerDevice := by
  have hcount := fun device => deployedOn_put_of_not_isDeployed record device hdown
  constructor
  · intro hwithin
    have htarget := hwithin record.targetDeviceId
    have hone : onDevice record.targetDeviceId record = true := by simp [onDevice, hstatus]
    rw [hcount, hone, Bool.toNat_true, maxModelsPerDevice_put] at htarget
    omega
  · intro hroom device
    rw [hcount, maxModelsPerDevice_put]
    by_cases hdevice : record.targetDeviceId = device
    · have hone := Bool.toNat_le (onDevice device record)
      rw [hdevice] at hroom
      omega
    · have hzero : onDevice device record = false := by simp [onDevice, hdevice]
      rw [hzero, Bool.toNat_false]
      exact h device

/-- A record that changes no model's place changes no count. -/
theorem withinCapacity_put_of_same {old : ModelRecord} (record : ModelRecord)
    (hget : r.getModel modelId = some old)
    (hle : ∀ device, (onDevice device record).toNat ≤ (onDevice device old).toNat)
    (h : r.WithinCapacity) : (r.put modelId record).WithinCapacity := by
  intro device
  have hcount := deployedOn_put_of_getModel record device hget
  have hbefore := h device
  have hdevice := hle device
  rw [maxModelsPerDevice_put]
  omega

theorem withinCapacity_deploy (d : Deployment) (h : r.WithinCapacity) :
    (r.deploy modelId d now).1.WithinCapacity := by
  rcases r.deploy_cases modelId d now with hsame | ⟨hdown, hroom, hput⟩
  · rwa [hsame]
  · rw [hput]
    exact (withinCapacity_put_iff _ rfl hdown h).mpr hroom

theorem withinCapacity_undeploy (h : r.WithinCapacity) :
    (r.undeploy modelId).1.WithinCapacity := by
  rcases r.undeploy_cases modelId with ⟨-, hsame⟩ | ⟨record, hget, hput⟩
  · rwa [hsame]
  · rw [hput]
    apply withinCapacity_put_of_same _ hget _ h
    intro device
    simp [onDevice]

/-- A rollback keeps the bound exactly when there is room for what it brings back. -/
theorem withinCapacity_rollback_iff (h : r.WithinCapacity) :
    (r.rollback modelId now).1.WithinCapacity ↔ r.HasRoom (.rollback modelId now) := by
  rcases r.rollback_cases modelId now with ⟨hnone, hsame⟩ | ⟨record, version, hget, -, hsome, hput⟩
  · rw [hsame]
    exact iff_of_true h fun _ _ _ hne => absurd hnone hne
  · rw [hput]
    by_cases hdeployed : record.status = .deployed
    · -- it was in place before
      apply iff_of_true
      · apply withinCapacity_put_of_same _ hget _ h
        intro device
        simp only [onDevice, rolledBack, hdeployed]
        exact Nat.le_refl _
      · intro record' hget' hstatus
        obtain rfl : record = record' := Option.some.inj (hget.symm.trans hget')
        exact absurd hdeployed hstatus
    · have hdown : r.isDeployed modelId = false := by simp [isDeployed, hget, hdeployed]
      rw [withinCapacity_put_iff _ rfl hdown h]
      constructor
      · intro hroom record' hget' _ _
        obtain rfl : record = record' := Option.some.inj (hget.symm.trans hget')
        exact hroom
      · intro hroom
        exact hroom record hget hdeployed (by simp [hsome])

theorem withinCapacity_apply_iff (h : r.WithinCapacity) (a : RegistryAct) :
    (r.apply a).1.WithinCapacity ↔ r.HasRoom a := by
  cases a with
  | deploy modelId d now => exact iff_of_true (withinCapacity_deploy d h) trivial
  | undeploy modelId => exact iff_of_true (withinCapacity_undeploy h) trivial
  | rollback modelId now => exact withinCapacity_rollback_iff h

end ModelRegistry

/-- No device ever has too many models in exactly the runs in which every rollback of
a model that is not in place finds room on the model's device. -/
theorem registrySystem.withinCapacity_iff {r₀ r : ModelRegistry}
    {t : List (ModelRegistry × RegistryAct)} (h₀ : registrySystem.init r₀)
    (hrun : registrySystem.Run r₀ t r) :
    ((∀ p ∈ t, p.1.WithinCapacity) ∧ r.WithinCapacity) ↔
      0 ≤ r₀.maxModelsPerDevice ∧ TransitionSystem.Respects ModelRegistry.HasRoom t := by
  induction hrun with
  | nil =>
      have hempty : r₀.models = ∅ := h₀
      have hzero : ∀ device, r₀.deployedOn device = 0 := fun device => by
        rw [ModelRegistry.deployedOn, hempty]
        rfl
      simp [ModelRegistry.WithinCapacity, hzero]
  | snoc hpre hs ih =>
      obtain rfl := Option.some.inj hs
      rw [TransitionSystem.respects_snoc, List.forall_mem_append, ← and_assoc, ← ih, and_assoc,
        and_assoc]
      refine and_congr_right fun _ => ?_
      simp only [List.mem_singleton, forall_eq]
      exact and_congr_right fun hwithin => ModelRegistry.withinCapacity_apply_iff hwithin _

namespace registrySystem

/-- Room for one model a device. -/
def smallRegistry : ModelRegistry := { maxModelsPerDevice := 1 }

/-- The slot of the first model is given to another one before the first is rolled back. -/
def rollbackIntoFull : List RegistryAct :=
  [.deploy "yolov5s" ⟨"/m/a1.rknn", "detection", "1.0.0", ∅, "edge-001", -1⟩ 1,
    .undeploy "yolov5s",
    .deploy "yolov5s" ⟨"/m/a2.rknn", "detection", "2.0.0", ∅, "edge-001", -1⟩ 2,
    .undeploy "yolov5s",
    .deploy "pose" ⟨"/m/b.rknn", "detection", "1.0.0", ∅, "edge-001", -1⟩ 3,
    .rollback "yolov5s" 4]

theorem exec_rollbackIntoFull :
    ∃ t r, registrySystem.Run smallRegistry t r ∧ r.deployedOn "edge-001" = 2 ∧
      r.maxModelsPerDevice = 1 := by
  have hview : (registrySystem.execTrace smallRegistry rollbackIntoFull).map
      (fun x => (x.2.deployedOn "edge-001", x.2.maxModelsPerDevice)) = some (2, 1) := by
    decide +kernel
  obtain ⟨t, r, hrun, -, hview⟩ := TransitionSystem.exists_run_of_execTrace hview
  exact ⟨t, r, hrun, congrArg Prod.fst hview, congrArg Prod.snd hview⟩

theorem not_withinCapacity_rollbackIntoFull :
    ¬ ∀ (r₀ r : ModelRegistry) (t : List (ModelRegistry × RegistryAct)),
      0 ≤ r₀.maxModelsPerDevice → registrySystem.init r₀ → registrySystem.Run r₀ t r →
        r.WithinCapacity := by
  intro h
  obtain ⟨t, r, hrun, hcount, hmax⟩ := exec_rollbackIntoFull
  have hle := h smallRegistry r t (by decide) rfl hrun "edge-001"
  rw [hcount, hmax] at hle
  exact absurd hle (by decide)

theorem withinCapacity_iff_rollbackIntoFull :
    ∃ t r, registrySystem.Run smallRegistry t r ∧
      (((∀ p ∈ t, p.1.WithinCapacity) ∧ r.WithinCapacity) ↔
        0 ≤ smallRegistry.maxModelsPerDevice ∧
          TransitionSystem.Respects ModelRegistry.HasRoom t) := by
  obtain ⟨t, r, hrun, -⟩ := exec_rollbackIntoFull
  exact ⟨t, r, hrun, withinCapacity_iff rfl hrun⟩

end registrySystem
