-- SUMMARY: Systems whose steps are whole runs of another system: their runs, seen there.
import NeuroPipeline.Lib.TransitionSystem

/-!
# Steps that are runs

One step of a system can do several steps of a component, or none.
-/

universe u v u' v'

namespace TransitionSystem

variable {S : Type u} {L : Type v} {S' : Type u'} {L' : Type v'} {M : TransitionSystem S L}
  {N : TransitionSystem S' L'}

theorem Run.append {s₀ s₁ s : S} {t₁ t₂ : List (S × L)} (h₁ : M.Run s₀ t₁ s₁)
    (h₂ : M.Run s₁ t₂ s) : M.Run s₀ (t₁ ++ t₂) s := by
  induction h₂ with
  | nil => rwa [List.append_nil]
  | snoc _ hs ih =>
      rw [← List.append_assoc]
      exact .snoc ih hs

/-- Every step of `M` is, seen through `f`, the steps `g` of `N`, one after the other. -/
def Expands (M : TransitionSystem S L) (N : TransitionSystem S' L') (f : S → S')
    (g : S → L → List L') : Prop :=
  ∀ s l s', M.step s l = some s' → N.exec (f s) (g s l) = some (f s')

/-- The labels that a component sees of a trace of the whole. -/
def expandLabels (g : S → L → List L') (t : List (S × L)) : List L' := t.flatMap fun p => g p.1 p.2

@[simp] theorem expandLabels_nil (g : S → L → List L') : expandLabels g [] = [] := rfl

@[simp] theorem expandLabels_snoc (g : S → L → List L') (t : List (S × L)) (s : S) (l : L) :
    expandLabels g (t ++ [(s, l)]) = expandLabels g t ++ g s l := by
  simp [expandLabels]

theorem projectTrace_snoc (f : S → S') (g : S → L → Option L') (t : List (S × L)) (s : S) (l : L) :
    projectTrace f g (t ++ [(s, l)]) =
      projectTrace f g t ++ ((g s l).map fun l' => (f s, l')).toList := by
  rw [projectTrace, List.filterMap_append, projectTrace]
  cases h : g s l <;> simp [h]

/-- A property of the component holds throughout a run of the whole where it does throughout its
projection. -/
theorem Run.throughout_project {f : S → S'} {g : S → L → Option L'} {Q : S' → Prop}
    (h : Projects M N f g) {s₀ s : S} {t : List (S × L)} (hrun : M.Run s₀ t s) :
    Throughout (fun s => Q (f s)) t s ↔ Throughout Q (projectTrace f g t) (f s) := by
  induction hrun with
  | nil => exact throughout_nil.trans throughout_nil.symm
  | @snoc t s₁ s₂ l _ hs ih =>
      have hstep := h _ _ _ hs
      rw [throughout_snoc, ih, projectTrace_snoc]
      cases hg : g s₁ l with
      | none =>
          rw [hg] at hstep
          simp only [hstep, Option.map_none, Option.toList_none, List.append_nil]
          exact and_iff_left_of_imp fun hall => hall.2
      | some l' => exact throughout_snoc.symm

/-- A run of the whole is, seen through `f`, a run of the component. -/
theorem Run.expand {f : S → S'} {g : S → L → List L'} (h : Expands M N f g) {s₀ s : S}
    {t : List (S × L)} (hrun : M.Run s₀ t s) :
    ∃ t', N.Run (f s₀) t' (f s) ∧ t'.map Prod.snd = expandLabels g t := by
  induction hrun with
  | nil => exact ⟨[], .nil, rfl⟩
  | snoc _ hs ih =>
      obtain ⟨t₁, hrun₁, hlabels₁⟩ := ih
      obtain ⟨t₂, hrun₂, hlabels₂⟩ := exec_run (h _ _ _ hs)
      exact ⟨t₁ ++ t₂, hrun₁.append hrun₂, by rw [List.map_append, hlabels₁, hlabels₂,
        expandLabels_snoc]⟩

end TransitionSystem
