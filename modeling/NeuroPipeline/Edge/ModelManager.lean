-- SUMMARY: Runs of the manager of several models: distinct slots, the limit, and which model is the active one.
import NeuroPipeline.Edge.Inference
import NeuroPipeline.Lib.TransitionSystem
import Mathlib.Data.List.Nodup

/-!
# Runs of the model manager

`LoadModel`, `UnloadModel` and `SwitchActiveModel` in any order, each under the manager's
mutex. The active model is held by its id, beside the slots.
-/

namespace MultiModelManager

variable {F : Type} [CFloat F]

def ids (m : MultiModelManager F) : List String := m.slots.map ModelSlot.modelId

/-- The first slot with the id is erased, and the first that is left takes its place if
it was the active one. -/
def unloadModel (m : MultiModelManager F) (modelId : String) : MultiModelManager F × Bool :=
  if m.slots.any fun slot => slot.modelId = modelId then
    let slots := m.slots.eraseP fun slot => slot.modelId = modelId
    ({ m with
      slots := slots
      activeModelId :=
        if m.activeModelId = modelId then (slots.head?.map ModelSlot.modelId).getD ""
        else m.activeModelId }, true)
  else (m, false)

inductive Call where
  | loadModel (modelId modelPath : String) (npuCore : Int) (o : EngineInit)
  | unloadModel (modelId : String)
  | switchActiveModel (modelId : String)
  deriving DecidableEq

def Call.modelId : Call → String
  | .loadModel modelId _ _ _ | .unloadModel modelId | .switchActiveModel modelId => modelId

/-- The manager after a call, and what the call returned unless it threw. -/
def call (m : MultiModelManager F) : Call → MultiModelManager F × Option Bool
  | .loadModel modelId modelPath npuCore o =>
    match m.loadModel modelId modelPath npuCore o with
    | .ok (m', ok) => (m', some ok)
    | .error _ => (m, none)
  | .unloadModel modelId => ((m.unloadModel modelId).1, some (m.unloadModel modelId).2)
  | .switchActiveModel modelId =>
    ((m.switchActiveModel modelId).1, some (m.switchActiveModel modelId).2)

def system (F : Type) [CFloat F] : TransitionSystem (MultiModelManager F) Call where
  init m := ∃ maxModels, m = .new maxModels
  step m l := some (m.call l).1

/-! ## Slots -/

section

variable {m : MultiModelManager F} {modelId : String} {slot : ModelSlot F}

theorem any_iff_mem_ids : (m.slots.any fun slot => slot.modelId = modelId) = true ↔
    modelId ∈ m.ids := by
  simp [ids]

theorem getModel_eq_some_iff (hdistinct : m.ids.Nodup) :
    m.getModel modelId = some slot ↔ slot ∈ m.slots ∧ slot.modelId = modelId := by
  constructor
  · intro h
    exact ⟨List.mem_of_find?_eq_some h, by simpa using List.find?_some h⟩
  · rintro ⟨hslot, rfl⟩
    cases hfound : m.getModel slot.modelId with
    | none => simpa using List.find?_eq_none.mp hfound slot hslot
    | some found =>
        have hid : found.modelId = slot.modelId := by simpa using List.find?_some hfound
        rw [List.inj_on_of_nodup_map hdistinct (List.mem_of_find?_eq_some hfound) hslot hid]

theorem getModel_isSome_iff : (m.getModel modelId).isSome ↔ modelId ∈ m.ids := by
  simp [getModel, ids]

/-- Managers with the same slots of an id give the same model for it. -/
theorem getModel_congr {m' : MultiModelManager F} (hdistinct : m.ids.Nodup)
    (hdistinct' : m'.ids.Nodup)
    (h : ∀ slot : ModelSlot F, slot.modelId = modelId → (slot ∈ m'.slots ↔ slot ∈ m.slots)) :
    m'.getModel modelId = m.getModel modelId := by
  refine Option.ext fun slot => ?_
  rw [getModel_eq_some_iff hdistinct, getModel_eq_some_iff hdistinct']
  exact and_congr_left fun hid => h slot hid

end

/-! ## The invariant -/

/-- The slots are distinct and within the limit, and one of them, if there is any, is the
one with the active id. -/
structure Consistent (m : MultiModelManager F) : Prop where
  distinct : m.ids.Nodup
  count_le : m.slots.length ≤ m.maxModels
  named : "" ∉ m.ids
  active : m.activeModelId ∈ m.ids ∨ m.slots = [] ∧ m.activeModelId = ""

namespace Consistent

variable {m m' : MultiModelManager F} {modelId : String}

theorem new (maxModels : Nat) : Consistent (MultiModelManager.new maxModels : MultiModelManager F)
    where
  distinct := List.nodup_nil
  count_le := Nat.zero_le _
  named := List.not_mem_nil
  active := .inr ⟨rfl, rfl⟩

theorem active_isSome_iff (h : m.Consistent) : m.getActiveModel.isSome ↔ m.slots ≠ [] := by
  rw [getActiveModel, getModel_isSome_iff]
  constructor
  · rintro hmem hnil
    rw [ids, hnil] at hmem
    exact List.not_mem_nil hmem
  · intro hne
    exact h.active.resolve_right fun hempty => hne hempty.1

/-- The id is empty exactly as long as there is no slot. -/
theorem activeModelId_eq_empty_iff (h : m.Consistent) : m.activeModelId = "" ↔ m.slots = [] := by
  constructor
  · intro hempty
    rcases h.active with hmem | ⟨hnil, -⟩
    · exact absurd (hempty ▸ hmem) h.named
    · exact hnil
  · intro hnil
    rcases h.active with hmem | ⟨-, hempty⟩
    · rw [ids, hnil] at hmem
      exact absurd hmem List.not_mem_nil
    · exact hempty

end Consistent

/-! ## The operations -/

theorem nodup_snoc {α : Type} {l : List α} {a : α} (h : l.Nodup) (ha : a ∉ l) :
    (l ++ [a]).Nodup := by
  rw [← List.concat_eq_append]
  exact h.concat ha

section

variable {m : MultiModelManager F} {modelId modelPath : String} {npuCore : Int} {o : EngineInit}

/-- A load changes nothing, or it adds a slot with a new id behind the others. -/
theorem loadModel_cases (m : MultiModelManager F) (modelId modelPath : String) (npuCore : Int)
    (o : EngineInit) :
    (m.loadModel modelId modelPath npuCore o = .ok (m, false) ∨
      m.loadModel modelId modelPath npuCore o = .error .lengthError) ∨
    (m.slots.length < m.maxModels ∧ modelId ∉ m.ids ∧ ∃ slot : ModelSlot F,
      slot.modelId = modelId ∧ slot.loaded = true ∧
      m.loadModel modelId modelPath npuCore o = .ok ({ m with
        slots := m.slots ++ [slot]
        activeModelId := if m.activeModelId = "" then modelId else m.activeModelId }, true)) := by
  unfold loadModel
  split
  · exact .inl (.inl rfl)
  · next hroom =>
    split
    · exact .inl (.inl rfl)
    · next hnew =>
      cases o with
      | fileUnreadable | initFailed | queryFailed => exact .inl (.inl rfl)
      | allocationThrows => exact .inl (.inr rfl)
      | ready =>
          have hfresh : modelId ∉ m.ids := fun hmem => hnew (any_iff_mem_ids.mpr hmem)
          exact .inr ⟨not_le.mp hroom, hfresh, _, rfl, rfl, rfl⟩

theorem Consistent.load {slot : ModelSlot F} (h : m.Consistent)
    (hroom : m.slots.length < m.maxModels) (hnew : slot.modelId ∉ m.ids) (hnamed : slot.modelId ≠ "") :
    Consistent { m with
      slots := m.slots ++ [slot]
      activeModelId := if m.activeModelId = "" then slot.modelId else m.activeModelId } := by
  have hids : ∀ active, ids { m with slots := m.slots ++ [slot], activeModelId := active } =
      m.ids ++ [slot.modelId] := fun _ => List.map_append
  constructor
  · rw [hids]
    exact nodup_snoc h.distinct hnew
  · rw [List.length_append]
    exact hroom
  · rw [hids, List.mem_append, List.mem_singleton]
    exact fun hmem => hmem.elim h.named (fun heq => hnamed heq.symm)
  · left
    rw [hids, List.mem_append, List.mem_singleton]
    split
    · exact .inr rfl
    · next hactive =>
      exact .inl (h.active.resolve_right fun hempty => hactive hempty.2)

/-- The model that is active stays active when another one is loaded. -/
theorem Consistent.getActiveModel_load {slot : ModelSlot F} (h : m.Consistent)
    (hroom : m.slots.length < m.maxModels) (hnew : slot.modelId ∉ m.ids)
    (hnamed : slot.modelId ≠ "") (hactive : m.getActiveModel.isSome) :
    getActiveModel { m with
      slots := m.slots ++ [slot]
      activeModelId := if m.activeModelId = "" then slot.modelId else m.activeModelId } =
      m.getActiveModel := by
  have hmem : m.activeModelId ∈ m.ids := getModel_isSome_iff.mp hactive
  have hne : m.activeModelId ≠ "" := fun hempty => h.named (hempty ▸ hmem)
  have hafter := h.load hroom hnew hnamed
  rw [if_neg hne] at hafter ⊢
  refine getModel_congr h.distinct hafter.distinct fun other hid => ?_
  rw [List.mem_append, List.mem_singleton]
  refine or_iff_left ?_
  rintro rfl
  exact hnew (hid ▸ hmem)

/-- The slots that are left after an unload. -/
def remaining (m : MultiModelManager F) (modelId : String) : List (ModelSlot F) :=
  m.slots.eraseP fun slot => slot.modelId = modelId

theorem unloadModel_cases (m : MultiModelManager F) (modelId : String) :
    (modelId ∉ m.ids ∧ m.unloadModel modelId = (m, false)) ∨
    (modelId ∈ m.ids ∧ m.unloadModel modelId = ({ m with
      slots := m.remaining modelId
      activeModelId :=
        if m.activeModelId = modelId then
          ((m.remaining modelId).head?.map ModelSlot.modelId).getD ""
        else m.activeModelId }, true)) := by
  unfold unloadModel
  split
  · next hfound => exact .inr ⟨any_iff_mem_ids.mp hfound, rfl⟩
  · next hfound => exact .inl ⟨fun hmem => hfound (any_iff_mem_ids.mpr hmem), rfl⟩

/-- The ids that are left are those of the other slots. -/
theorem mem_remaining_ids (hdistinct : m.ids.Nodup) {other : String} :
    other ∈ (m.remaining modelId).map ModelSlot.modelId ↔ other ∈ m.ids ∧ other ≠ modelId := by
  have herase : (m.remaining modelId).map ModelSlot.modelId = m.ids.erase modelId := by
    rw [remaining, ids, List.erase_eq_eraseP', List.eraseP_map]
    congr 1
  rw [herase, hdistinct.mem_erase_iff, and_comm]

/-- The first of the remaining ids, if there is one, and else no id. -/
theorem first_remaining (m : MultiModelManager F) (modelId : String) :
    ((m.remaining modelId).head?.map ModelSlot.modelId).getD "" ∈
        (m.remaining modelId).map ModelSlot.modelId ∨
      m.remaining modelId = [] ∧
        ((m.remaining modelId).head?.map ModelSlot.modelId).getD "" = "" := by
  cases m.remaining modelId with
  | nil => exact .inr ⟨rfl, rfl⟩
  | cons slot rest => exact .inl (by simp)

theorem Consistent.unload (h : m.Consistent) (modelId : String) :
    (m.unloadModel modelId).1.Consistent := by
  rcases m.unloadModel_cases modelId with ⟨-, hcall⟩ | ⟨hmem, hcall⟩
  · rw [hcall]
    exact h
  · rw [hcall]
    have hsublist : (m.remaining modelId).Sublist m.slots := List.eraseP_sublist
    constructor
    · exact h.distinct.sublist (hsublist.map _)
    · exact hsublist.length_le.trans h.count_le
    · exact fun hempty => h.named ((hsublist.map _).subset hempty)
    · simp only [ids]
      split
      · exact m.first_remaining modelId
      · next hne =>
        have hactive : m.activeModelId ∈ m.ids :=
          h.active.resolve_right fun hempty => by
            rw [ids, hempty.1] at hmem
            exact List.not_mem_nil hmem
        exact .inl ((mem_remaining_ids h.distinct).mpr ⟨hactive, hne⟩)

theorem Consistent.getActiveModel_unload (h : m.Consistent) (hne : modelId ≠ m.activeModelId) :
    (m.unloadModel modelId).1.getActiveModel = m.getActiveModel := by
  have hafter := h.unload modelId
  rcases m.unloadModel_cases modelId with ⟨-, hcall⟩ | ⟨-, hcall⟩
  · rw [hcall]
  · rw [hcall, if_neg (Ne.symm hne)] at hafter ⊢
    refine getModel_congr h.distinct hafter.distinct fun slot hid => ?_
    exact List.mem_eraseP_of_neg (by simpa [hid] using Ne.symm hne)

theorem switchActiveModel_cases (m : MultiModelManager F) (modelId : String) :
    m.switchActiveModel modelId = (m, false) ∨
      modelId ∈ m.ids ∧
        m.switchActiveModel modelId = ({ m with activeModelId := modelId }, true) := by
  unfold switchActiveModel
  split
  · next hfound =>
    obtain ⟨slot, hslot, hmatch⟩ := List.any_eq_true.mp hfound
    obtain ⟨rfl, -⟩ : slot.modelId = modelId ∧ slot.loaded = true := by simpa using hmatch
    exact .inr ⟨List.mem_map_of_mem hslot, rfl⟩
  · exact .inl rfl

theorem Consistent.switch (h : m.Consistent) (modelId : String) :
    (m.switchActiveModel modelId).1.Consistent := by
  rcases m.switchActiveModel_cases modelId with hcall | ⟨hmem, hcall⟩
  · rw [hcall]
    exact h
  · rw [hcall]
    exact ⟨h.distinct, h.count_le, h.named, .inl hmem⟩

end

/-! ## The ids after a call -/

section

variable {m : MultiModelManager F} {modelId modelPath : String} {npuCore : Int} {o : EngineInit}

theorem call_load_ids (m : MultiModelManager F) (modelId modelPath : String) (npuCore : Int)
    (o : EngineInit) :
    (m.call (.loadModel modelId modelPath npuCore o)).1.ids = m.ids ∨
      modelId ∉ m.ids ∧
        (m.call (.loadModel modelId modelPath npuCore o)).1.ids = m.ids ++ [modelId] := by
  rcases m.loadModel_cases modelId modelPath npuCore o with
    (hcall | hcall) | ⟨-, hnew, slot, rfl, -, hcall⟩
  · simp only [call, hcall, true_or]
  · simp only [call, hcall, true_or]
  · refine .inr ⟨hnew, ?_⟩
    simp only [call, hcall]
    exact List.map_append

theorem mem_call_unload_ids (hdistinct : m.ids.Nodup) {other : String} :
    other ∈ (m.call (.unloadModel modelId)).1.ids ↔ other ∈ m.ids ∧ other ≠ modelId := by
  rcases m.unloadModel_cases modelId with ⟨hfree, hcall⟩ | ⟨-, hcall⟩
  · simp only [call, hcall]
    refine (and_iff_left_of_imp fun hmem => ?_).symm
    rintro rfl
    exact hfree hmem
  · simp only [call, hcall]
    exact mem_remaining_ids hdistinct

theorem call_switch_ids : (m.call (.switchActiveModel modelId)).1.ids = m.ids := by
  rcases m.switchActiveModel_cases modelId with hcall | ⟨-, hcall⟩ <;> simp only [call, hcall, ids]

/-- Ids stay distinct, the empty one included. -/
theorem call_ids_nodup (hdistinct : m.ids.Nodup) (l : Call) : (m.call l).1.ids.Nodup := by
  cases l with
  | loadModel modelId modelPath npuCore o =>
      rcases m.call_load_ids modelId modelPath npuCore o with hids | ⟨hnew, hids⟩
      · rwa [hids]
      · rw [hids]
        exact nodup_snoc hdistinct hnew
  | unloadModel modelId =>
      rcases m.unloadModel_cases modelId with ⟨-, hcall⟩ | ⟨-, hcall⟩
      · simpa only [call, hcall] using hdistinct
      · simp only [call, hcall]
        exact hdistinct.sublist (List.eraseP_sublist.map _)
  | switchActiveModel modelId => rwa [call_switch_ids]

end

/-! ## Every run -/

/-- What a call returns and leaves alone. -/
structure Lawful (m : MultiModelManager F) (l : Call) : Prop where
  rejected : (m.call l).2 = some false → (m.call l).1 = m
  loading : ∀ modelId modelPath npuCore o, l = .loadModel modelId modelPath npuCore o →
    m.getActiveModel.isSome → (m.call l).1.getActiveModel = m.getActiveModel
  unloading : ∀ modelId, l = .unloadModel modelId → modelId ≠ m.activeModelId →
    (m.call l).1.getActiveModel = m.getActiveModel

theorem Lawful.of_unchanged {m : MultiModelManager F} {l : Call} (h : (m.call l).1 = m) :
    Lawful m l where
  rejected _ := h
  loading _ _ _ _ _ _ := by rw [h]
  unloading _ _ _ := by rw [h]

section

variable {m : MultiModelManager F} {modelId modelPath : String} {npuCore : Int} {o : EngineInit}

/-- A load keeps the invariant, the limit and the active model. -/
theorem Consistent.call_load (h : m.Consistent) (hnamed : modelId ≠ "") :
    (m.call (.loadModel modelId modelPath npuCore o)).1.Consistent ∧
      (m.call (.loadModel modelId modelPath npuCore o)).1.maxModels = m.maxModels ∧
      Lawful m (.loadModel modelId modelPath npuCore o) := by
  rcases m.loadModel_cases modelId modelPath npuCore o with
    (hcall | hcall) | ⟨hroom, hnew, slot, rfl, -, hcall⟩
  · have hsame : (m.call (.loadModel modelId modelPath npuCore o)).1 = m := by
      simp only [call, hcall]
    exact ⟨hsame.symm ▸ h, congrArg maxModels hsame, .of_unchanged hsame⟩
  · have hsame : (m.call (.loadModel modelId modelPath npuCore o)).1 = m := by
      simp only [call, hcall]
    exact ⟨hsame.symm ▸ h, congrArg maxModels hsame, .of_unchanged hsame⟩
  · have hadded : m.call (.loadModel slot.modelId modelPath npuCore o) = ({ m with
        slots := m.slots ++ [slot]
        activeModelId := if m.activeModelId = "" then slot.modelId else m.activeModelId },
        some true) := by
      simp only [call, hcall]
    refine ⟨hadded.symm ▸ h.load hroom hnew hnamed, by rw [hadded], ?_, ?_, ?_⟩
    · intro hfalse
      rw [hadded] at hfalse
      cases hfalse
    · intro _ _ _ _ _ hactive
      rw [hadded]
      exact h.getActiveModel_load hroom hnew hnamed hactive
    · intro _ hcontra
      cases hcontra

theorem Consistent.call_unload (h : m.Consistent) :
    (m.call (.unloadModel modelId)).1.Consistent ∧
      (m.call (.unloadModel modelId)).1.maxModels = m.maxModels ∧
      Lawful m (.unloadModel modelId) := by
  refine ⟨h.unload modelId, ?_, ?_, ?_, ?_⟩
  · rcases m.unloadModel_cases modelId with ⟨-, hcall⟩ | ⟨-, hcall⟩ <;> simp only [call, hcall]
  · intro hfalse
    rcases m.unloadModel_cases modelId with ⟨-, hcall⟩ | ⟨-, hcall⟩
    · exact congrArg Prod.fst hcall
    · simp only [call, hcall] at hfalse
      cases hfalse
  · intro _ _ _ _ hcontra
    cases hcontra
  · intro _ heq hne
    cases heq
    exact h.getActiveModel_unload hne

theorem Consistent.call_switch (h : m.Consistent) :
    (m.call (.switchActiveModel modelId)).1.Consistent ∧
      (m.call (.switchActiveModel modelId)).1.maxModels = m.maxModels ∧
      Lawful m (.switchActiveModel modelId) := by
  refine ⟨h.switch modelId, ?_, ?_, ?_, ?_⟩
  · rcases m.switchActiveModel_cases modelId with hcall | ⟨-, hcall⟩ <;> simp only [call, hcall]
  · intro hfalse
    rcases m.switchActiveModel_cases modelId with hcall | ⟨-, hcall⟩
    · exact congrArg Prod.fst hcall
    · simp only [call, hcall] at hfalse
      cases hfalse
  · intro _ _ _ _ hcontra
    cases hcontra
  · intro _ hcontra
    cases hcontra

end

theorem Consistent.call_lawful {m : MultiModelManager F} {l : Call} (h : m.Consistent)
    (hl : l.modelId ≠ "") :
    (m.call l).1.Consistent ∧ (m.call l).1.maxModels = m.maxModels ∧ Lawful m l := by
  cases l with
  | loadModel modelId modelPath npuCore o => exact h.call_load hl
  | unloadModel modelId => exact h.call_unload
  | switchActiveModel modelId => exact h.call_switch

/-- With ids that are not empty, the manager is consistent after every call. -/
theorem consistent_of_run {maxModels : Nat} {m : MultiModelManager F}
    {t : List (MultiModelManager F × Call)} (hrun : (system F).Run (.new maxModels) t m)
    (hnamed : ∀ p ∈ t, p.2.modelId ≠ "") : m.Consistent ∧ m.maxModels = maxModels := by
  refine hrun.invariant_of_respects (C := fun _ (l : Call) => l.modelId ≠ "")
    (I := fun m => m.Consistent ∧ m.maxModels = maxModels) ?_ ⟨.new maxModels, rfl⟩ hnamed
  rintro m l m' ⟨hconsistent, hmax⟩ hl hs
  obtain ⟨hafter, hsame, -⟩ := hconsistent.call_lawful hl
  obtain rfl := Option.some.inj hs
  exact ⟨hafter, hsame.trans hmax⟩

/-- Distinct ids within the limit, an active model whenever there is a slot, and calls that
change no more than they say. -/
theorem manager_lawful {maxModels : Nat} {m : MultiModelManager F}
    {t : List (MultiModelManager F × Call)} (hrun : (system F).Run (.new maxModels) t m)
    (hnamed : ∀ p ∈ t, p.2.modelId ≠ "") :
    m.ids.Nodup ∧ m.slots.length ≤ maxModels ∧ (m.getActiveModel.isSome ↔ m.slots ≠ []) ∧
      ∀ p ∈ t, Lawful p.1 p.2 := by
  obtain ⟨hconsistent, rfl⟩ := consistent_of_run hrun hnamed
  refine ⟨hconsistent.distinct, hconsistent.count_le, hconsistent.active_isSome_iff, ?_⟩
  intro p hp
  have hbefore := hrun.invariant_trace_of_respects (C := fun _ (l : Call) => l.modelId ≠ "")
    (I := Consistent) (fun _ _ _ h hl hs => Option.some.inj hs ▸ (h.call_lawful hl).1)
    (.new _) hnamed p hp
  exact (hbefore.call_lawful (hnamed p hp)).2.2

/-- Two models are loaded, the active one is unloaded, and a load fails. -/
theorem manager_lawful_two :
    ∃ t m, (system ℚ).Run (.new 2) t m ∧
      t.map Prod.snd = [.loadModel "a" "a.rknn" 0 .ready, .loadModel "b" "b.rknn" (-1) .ready,
        .unloadModel "a", .loadModel "c" "c.rknn" 1 .initFailed] ∧
      m.ids = ["b"] ∧ m.getActiveModel.isSome ∧ ∀ p ∈ t, Lawful p.1 p.2 := by
  have hview : ((system ℚ).execTrace (.new 2)
      [.loadModel "a" "a.rknn" 0 .ready, .loadModel "b" "b.rknn" (-1) .ready,
        .unloadModel "a", .loadModel "c" "c.rknn" 1 .initFailed]).map
      (fun r => (r.2.ids, r.2.getActiveModel.isSome)) = some (["b"], true) := by decide +kernel
  obtain ⟨t, m, hrun, hcalls, hend⟩ := TransitionSystem.exists_run_of_execTrace hview
  have hnamed : ∀ p ∈ t, p.2.modelId ≠ "" := by
    have hall : ∀ l ∈ t.map Prod.snd, l.modelId ≠ "" := by
      rw [hcalls]
      decide
    exact fun p hp => hall p.2 (List.mem_map_of_mem hp)
  obtain ⟨hids, hactive⟩ := Prod.mk.inj hend
  exact ⟨t, m, hrun, hcalls, hids, hactive, (manager_lawful hrun hnamed).2.2.2⟩

end MultiModelManager
