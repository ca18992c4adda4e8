-- SUMMARY: Bindings of models to NPU cores: what holds of them in every run, and exactly when they name loaded models.
import NeuroPipeline.Edge.ModelManager
import Mathlib.Logic.Function.Basic

/-!
# Model scheduler

Model of multi_model_scheduler.cpp beside the manager that it refers to. `BindModelToCore`
asks the manager first and takes the scheduler's own mutex then; the manager is not told of
bindings, and no call removes one.
-/

structure ModelBinding where
  modelId : String
  npuCore : Int
  deriving DecidableEq

/-- The manager, the scheduler, and the calls of `BindModelToCore` that have found their
model and are about to lock the scheduler's mutex. -/
structure ModelScheduler (F Tid : Type) [CFloat F] where
  manager : MultiModelManager F
  bindings : List ModelBinding
  pending : Tid → Option ModelBinding

namespace ModelScheduler

variable {F Tid : Type} [CFloat F] [DecidableEq Tid]

inductive Act (Tid : Type) where
  | manager (l : MultiModelManager.Call)
  /-- `BindModelToCore` up to the lock -/
  | lookUp (tid : Tid) (modelId : String) (npuCore : Int)
  /-- `BindModelToCore` from there -/
  | bind (tid : Tid)
  deriving DecidableEq

def new (F Tid : Type) [CFloat F] (maxModels : Nat) : ModelScheduler F Tid where
  manager := .new maxModels
  bindings := []
  pending := fun _ => none

def bound (s : ModelScheduler F Tid) : List String := s.bindings.map ModelBinding.modelId

/-- A call that does not find its model, or is given a core that is none, returns. -/
def lookUp (s : ModelScheduler F Tid) (tid : Tid) (modelId : String) (npuCore : Int) :
    ModelScheduler F Tid :=
  if npuCore < 0 ∨ 2 < npuCore then s
  else if (s.manager.getModel modelId).isSome then
    { s with pending := Function.update s.pending tid (some ⟨modelId, npuCore⟩) }
  else s

def bind (s : ModelScheduler F Tid) (tid : Tid) (b : ModelBinding) : ModelScheduler F Tid :=
  { s with
    bindings := if s.bindings.any fun other => other.modelId = b.modelId then s.bindings
      else s.bindings ++ [b]
    pending := Function.update s.pending tid none }

def step (s : ModelScheduler F Tid) : Act Tid → Option (ModelScheduler F Tid)
  | .manager l => some { s with manager := (s.manager.call l).1 }
  | .lookUp tid modelId npuCore =>
    if (s.pending tid).isSome then none else some (s.lookUp tid modelId npuCore)
  | .bind tid => (s.pending tid).map (s.bind tid)

def system (F Tid : Type) [CFloat F] [DecidableEq Tid] (maxModels : Nat) :
    TransitionSystem (ModelScheduler F Tid) (Act Tid) where
  init s := s = .new F Tid maxModels
  step := step

/-- What `InferParallel` runs for one binding, with what the engine answers. -/
def inferBinding (math : CMath F) (std : StdSort (DetectionBox F))
    (answers : String → Option (Tensors F)) (s : ModelScheduler F Tid) (b : ModelBinding) :
    String × List (DetectionBox F) :=
  match s.manager.getModel b.modelId with
  | none => (b.modelId, [])
  | some slot =>
    let engine := { slot.engine with coreMask := 2 ^ b.npuCore.toNat }
    match engine.infer (answers b.modelId) with
    | none => (b.modelId, [])
    | some outputs =>
      (b.modelId, slot.postprocessor.elim [] fun p => p.process math std outputs)

def inferParallel (math : CMath F) (std : StdSort (DetectionBox F))
    (answers : String → Option (Tensors F)) (s : ModelScheduler F Tid) :
    List (String × List (DetectionBox F)) :=
  s.bindings.map (s.inferBinding math std answers)

variable {s s' s₁ : ModelScheduler F Tid} {l : Act Tid} {b : ModelBinding} {tid : Tid}
  {modelId : String} {maxModels : Nat} {t t₁ t₂ : List (ModelScheduler F Tid × Act Tid)}

/-! ## Steps -/

omit [DecidableEq Tid] in
theorem mem_bound_of_mem (h : b ∈ s.bindings) : b.modelId ∈ s.bound := List.mem_map_of_mem h

theorem bind_of_bound (h : b.modelId ∈ s.bound) : (s.bind tid b).bindings = s.bindings := by
  obtain ⟨other, hother, hid⟩ := List.mem_map.mp h
  exact if_pos (List.any_eq_true.mpr ⟨other, hother, by simpa using hid⟩)

theorem bind_of_free (h : b.modelId ∉ s.bound) :
    (s.bind tid b).bindings = s.bindings ++ [b] := by
  refine if_neg fun hany => ?_
  obtain ⟨other, hother, hid⟩ := List.any_eq_true.mp hany
  have hid : other.modelId = b.modelId := by simpa using hid
  exact h (hid ▸ mem_bound_of_mem hother)

@[simp] theorem lookUp_manager (s : ModelScheduler F Tid) (tid : Tid) (modelId : String)
    (npuCore : Int) : (s.lookUp tid modelId npuCore).manager = s.manager := by
  unfold lookUp
  split
  · rfl
  · split <;> rfl

@[simp] theorem lookUp_bindings (s : ModelScheduler F Tid) (tid : Tid) (modelId : String)
    (npuCore : Int) : (s.lookUp tid modelId npuCore).bindings = s.bindings := by
  unfold lookUp
  split
  · rfl
  · split <;> rfl

/-- What a step does to the two stores. -/
theorem step_cases (h : s.step l = some s') :
    (∃ c, l = .manager c ∧ s'.manager = (s.manager.call c).1 ∧ s'.bindings = s.bindings) ∨
    (∃ tid modelId npuCore, l = .lookUp tid modelId npuCore ∧
      s' = s.lookUp tid modelId npuCore) ∨
    ∃ tid b, l = .bind tid ∧ s.pending tid = some b ∧ s' = s.bind tid b := by
  cases l with
  | manager c =>
      obtain rfl := Option.some.inj h
      exact .inl ⟨c, rfl, rfl, rfl⟩
  | lookUp tid modelId npuCore =>
      simp only [step] at h
      split at h
      · cases h
      · exact .inr (.inl ⟨tid, modelId, npuCore, rfl, (Option.some.inj h).symm⟩)
  | bind tid =>
      obtain ⟨b, hb, rfl⟩ := Option.map_eq_some_iff.mp h
      exact .inr (.inr ⟨tid, b, rfl, hb, rfl⟩)

/-! ## What holds of every run -/

/-- An NPU core. -/
def OnCore (b : ModelBinding) : Prop := 0 ≤ b.npuCore ∧ b.npuCore ≤ 2

structure WellBound (s : ModelScheduler F Tid) : Prop where
  slots : s.manager.ids.Nodup
  distinct : s.bound.Nodup
  cores : ∀ b ∈ s.bindings, OnCore b
  pending : ∀ tid b, s.pending tid = some b → OnCore b

namespace WellBound

omit [DecidableEq Tid] in
theorem new (maxModels : Nat) : WellBound (.new F Tid maxModels) where
  slots := List.nodup_nil
  distinct := List.nodup_nil
  cores := by rintro b hb; cases hb
  pending := by rintro tid b hb; cases hb

theorem lookUp (h : WellBound s) (tid : Tid) (modelId : String) (npuCore : Int) :
    WellBound (s.lookUp tid modelId npuCore) := by
  refine ⟨by rw [lookUp_manager]; exact h.slots, ?_, ?_, ?_⟩
  · rw [bound, lookUp_bindings]
    exact h.distinct
  · rw [lookUp_bindings]
    exact h.cores
  · intro tid' b hb
    unfold ModelScheduler.lookUp at hb
    split at hb
    · exact h.pending tid' b hb
    · next hcore =>
      split at hb
      · by_cases htid : tid' = tid
        · subst htid
          obtain rfl : ⟨modelId, npuCore⟩ = b := by simpa using hb
          exact ⟨by simp only; omega, by simp only; omega⟩
        · exact h.pending tid' b (by simpa [htid] using hb)
      · exact h.pending tid' b hb

theorem bind (h : WellBound s) (hb : s.pending tid = some b) : WellBound (s.bind tid b) := by
  refine ⟨h.slots, ?_, ?_, ?_⟩
  · by_cases hbound : b.modelId ∈ s.bound
    · rw [bound, bind_of_bound hbound]
      exact h.distinct
    · rw [bound, bind_of_free hbound, List.map_append]
      exact MultiModelManager.nodup_snoc h.distinct hbound
  · intro other hother
    by_cases hbound : b.modelId ∈ s.bound
    · exact h.cores other (bind_of_bound hbound ▸ hother)
    · rw [bind_of_free hbound, List.mem_append, List.mem_singleton] at hother
      rcases hother with hold | rfl
      · exact h.cores other hold
      · exact h.pending tid _ hb
  · intro tid' b' hb'
    by_cases htid : tid' = tid
    · subst htid
      simp [ModelScheduler.bind] at hb'
    · exact h.pending tid' b' (by simpa [ModelScheduler.bind, htid] using hb')

theorem step (h : WellBound s) (hs : s.step l = some s') : WellBound s' := by
  cases l with
  | manager c =>
      obtain rfl := Option.some.inj hs
      exact ⟨MultiModelManager.call_ids_nodup h.slots c, h.distinct, h.cores, h.pending⟩
  | lookUp tid modelId npuCore =>
      simp only [ModelScheduler.step] at hs
      split at hs
      · cases hs
      · obtain rfl := Option.some.inj hs
        exact h.lookUp tid modelId npuCore
  | bind tid =>
      obtain ⟨b, hb, rfl⟩ := Option.map_eq_some_iff.mp hs
      exact h.bind hb

end WellBound

/-- A binding stays as it is. -/
theorem step_bindings (h : s.step l = some s') : s.bindings <+: s'.bindings := by
  rcases step_cases h with ⟨c, -, -, hsame⟩ | ⟨tid, modelId, npuCore, -, rfl⟩ |
    ⟨tid, b, -, -, rfl⟩
  · exact hsame ▸ List.prefix_refl _
  · exact (lookUp_bindings s tid modelId npuCore).symm ▸ List.prefix_refl _
  · by_cases hbound : b.modelId ∈ s.bound
    · exact (bind_of_bound hbound).symm ▸ List.prefix_refl _
    · exact (bind_of_free hbound).symm ▸ List.prefix_append _ _

/-! ## Bindings that name loaded models -/

def NamesLoaded (s : ModelScheduler F Tid) : Prop := ∀ b ∈ s.bindings, b.modelId ∈ s.manager.ids

/-- No bound model is unloaded, and no binding is entered whose model was unloaded since it
was looked up. -/
def KeepsBound (s : ModelScheduler F Tid) : Act Tid → Prop
  | .manager (.unloadModel modelId) => modelId ∉ s.bound
  | .bind tid => ∀ b, s.pending tid = some b → b.modelId ∈ s.manager.ids
  | _ => True

theorem namesLoaded_unload (hslots : s.manager.ids.Nodup) (h : NamesLoaded s)
    (hs : s.step (.manager (.unloadModel modelId)) = some s') :
    NamesLoaded s' ↔ modelId ∉ s.bound := by
  obtain rfl := Option.some.inj hs
  constructor
  · intro hafter hmem
    obtain ⟨b, hb, rfl⟩ := List.mem_map.mp hmem
    exact ((MultiModelManager.mem_call_unload_ids hslots).mp (hafter b hb)).2 rfl
  · intro hfree b hb
    refine (MultiModelManager.mem_call_unload_ids hslots).mpr ⟨h b hb, ?_⟩
    rintro rfl
    exact hfree (mem_bound_of_mem hb)

theorem namesLoaded_bind (h : NamesLoaded s) :
    NamesLoaded (s.bind tid b) ↔ b.modelId ∈ s.manager.ids := by
  by_cases hbound : b.modelId ∈ s.bound
  · obtain ⟨other, hother, hid⟩ := List.mem_map.mp hbound
    rw [NamesLoaded, bind_of_bound hbound]
    exact iff_of_true h (hid ▸ h other hother)
  · rw [NamesLoaded, bind_of_free hbound]
    constructor
    · intro hafter
      exact hafter b (List.mem_append_right _ List.mem_cons_self)
    · intro hloaded other hother
      rcases List.mem_append.mp hother with hold | hnew
      · exact h other hold
      · rw [List.mem_singleton.mp hnew]
        exact hloaded

/-- A step keeps the names valid exactly if it keeps the bound models. -/
theorem namesLoaded_step (hslots : s.manager.ids.Nodup) (h : NamesLoaded s)
    (hs : s.step l = some s') : NamesLoaded s' ↔ KeepsBound s l := by
  rcases step_cases hs with ⟨c, rfl, hmanager, hbindings⟩ | ⟨tid, modelId, npuCore, rfl, rfl⟩ |
    ⟨tid, b, rfl, hb, rfl⟩
  · cases c with
    | loadModel modelId modelPath npuCore o =>
        refine iff_of_true (fun b hb => ?_) trivial
        have hmem := h b (hbindings ▸ hb)
        rw [hmanager]
        rcases s.manager.call_load_ids modelId modelPath npuCore o with hids | ⟨-, hids⟩
        · rwa [hids]
        · rw [hids]
          exact List.mem_append_left _ hmem
    | unloadModel modelId => exact namesLoaded_unload hslots h hs
    | switchActiveModel modelId =>
        refine iff_of_true (fun b hb => ?_) trivial
        rw [hmanager, MultiModelManager.call_switch_ids]
        exact h b (hbindings ▸ hb)
  · refine iff_of_true (fun b hb => ?_) trivial
    rw [lookUp_manager]
    exact h b (lookUp_bindings s tid modelId npuCore ▸ hb)
  · rw [namesLoaded_bind h]
    constructor
    · rintro hloaded b' hb'
      obtain rfl := Option.some.inj (hb.symm.trans hb')
      exact hloaded
    · intro hkeeps
      exact hkeeps b hb

/-! ## Binding a model again -/

/-- The step is not the end of a call that binds this model. -/
def LeavesFree (modelId : String) (s : ModelScheduler F Tid) : Act Tid → Prop
  | .bind tid => ∀ b, s.pending tid = some b → b.modelId ≠ modelId
  | _ => True

theorem free_step (hfree : modelId ∉ s.bound) (hl : LeavesFree modelId s l)
    (hs : s.step l = some s') : modelId ∉ s'.bound := by
  rcases step_cases hs with ⟨c, -, -, hsame⟩ | ⟨tid, modelId', npuCore, -, rfl⟩ |
    ⟨tid, b, rfl, hb, rfl⟩
  · rwa [bound, hsame]
  · rwa [bound, lookUp_bindings]
  · by_cases hbound : b.modelId ∈ s.bound
    · rwa [bound, bind_of_bound hbound]
    · rw [bound, bind_of_free hbound, List.map_append, List.mem_append]
      rintro (hold | hnew)
      · exact hfree hold
      · exact hl b hb (List.mem_singleton.mp hnew).symm

/-- A model that was not bound when it was unloaded can be bound to any core later on. -/
theorem free_of_unload (hrun : (system F Tid maxModels).Run (.new F Tid maxModels) t s)
    (ht : t = t₁ ++ (s₁, .manager (.unloadModel modelId)) :: t₂) (hfree : modelId ∉ s₁.bound)
    (hleaves : TransitionSystem.Respects (LeavesFree modelId) t₂) : modelId ∉ s.bound := by
  subst ht
  obtain ⟨-, s₂, hunload, hafter⟩ := hrun.split_cons
  refine hafter.invariant_of_respects (I := fun s => modelId ∉ s.bound)
    (fun _ _ _ hfree hl hs => free_step hfree hl hs) ?_ hleaves
  exact free_step (l := .manager (.unloadModel modelId)) hfree trivial hunload

/-! ## Every run -/

/-- What holds of the bindings in a run and at its end. -/
structure Laws (t : List (ModelScheduler F Tid × Act Tid)) (s : ModelScheduler F Tid) : Prop where
  unique : s.bound.Nodup
  cores : ∀ b ∈ s.bindings, OnCore b
  stable : ∀ p ∈ t, p.1.bindings <+: s.bindings
  named : TransitionSystem.Throughout NamesLoaded t s ↔ TransitionSystem.Respects KeepsBound t
  rebinds : ∀ t₁ s₁ t₂ modelId, t = t₁ ++ (s₁, .manager (.unloadModel modelId)) :: t₂ →
    modelId ∉ s₁.bound → TransitionSystem.Respects (LeavesFree modelId) t₂ →
    ∀ tid npuCore, s.pending tid = some ⟨modelId, npuCore⟩ →
      ∃ s', s.step (.bind tid) = some s' ∧ s'.bindings = s.bindings ++ [⟨modelId, npuCore⟩]
  /-- a bound model that is not loaded is not run -/
  infers : ∀ math std answers, ∀ b ∈ s.bindings, b.modelId ∉ s.manager.ids →
    s.inferBinding math std answers b = (b.modelId, [])

theorem stable_of_run (hrun : (system F Tid maxModels).Run (.new F Tid maxModels) t s) :
    ∀ p ∈ t, p.1.bindings <+: s.bindings := by
  refine hrun.invariant_history
    (I := fun (t : List (ModelScheduler F Tid × Act Tid)) s => ∀ p ∈ t, p.1.bindings <+: s.bindings)
    ?_ (by simp)
  intro t s l s' h hs p hp
  rcases List.mem_append.mp hp with hold | hnew
  · exact (h p hold).trans (step_bindings hs)
  · rw [List.mem_singleton.mp hnew]
    exact step_bindings hs

theorem wellBound_of_run (hrun : (system F Tid maxModels).Run (.new F Tid maxModels) t s) :
    WellBound s :=
  hrun.invariant (fun _ _ _ h hs => h.step hs) (.new maxModels)

theorem throughout_namesLoaded_iff
    (hrun : (system F Tid maxModels).Run (.new F Tid maxModels) t s) :
    TransitionSystem.Throughout NamesLoaded t s ↔ TransitionSystem.Respects KeepsBound t := by
  refine hrun.throughout_iff_respects (I := WellBound) (fun _ _ _ h hs => h.step hs)
    (fun _ _ _ hwell h hs => namesLoaded_step hwell.slots h hs) (.new maxModels) ?_
  intro b hb
  cases hb

omit [DecidableEq Tid] in
theorem inferBinding_of_unloaded {math : CMath F} {std : StdSort (DetectionBox F)}
    {answers : String → Option (Tensors F)} (h : b.modelId ∉ s.manager.ids) :
    s.inferBinding math std answers b = (b.modelId, []) := by
  have hnone : s.manager.getModel b.modelId = none := by
    rw [← Option.not_isSome_iff_eq_none, MultiModelManager.getModel_isSome_iff]
    exact h
  simp only [inferBinding, hnone]

end ModelScheduler
