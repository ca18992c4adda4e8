-- SUMMARY: Labelled transition systems with a partial step function: runs, guarded runs, invariants, projections.
import Mathlib.Data.List.Basic
import Mathlib.Data.List.Induction

/-!
# Transition systems

A system is a set of initial states and a partial step function on labels. A
run records every label together with the state it was taken in, so that a
condition on steps can be read off the run.
-/

universe u v u' v'

structure TransitionSystem (S : Type u) (L : Type v) where
  init : S → Prop
  step : S → L → Option S

namespace TransitionSystem

variable {S : Type u} {L : Type v} {M : TransitionSystem S L}

/-! ## Runs -/

/-- `M.Run s t s'`: the steps of `t` lead from `s` to `s'`. -/
inductive Run (M : TransitionSystem S L) (s : S) : List (S × L) → S → Prop where
  | nil : Run M s [] s
  | snoc {t : List (S × L)} {s₁ s₂ : S} {l : L} :
      Run M s t s₁ → M.step s₁ l = some s₂ → Run M s (t ++ [(s₁, l)]) s₂

/-- Every step of the trace is taken in a state where `C` allows its label. -/
def Respects (C : S → L → Prop) (t : List (S × L)) : Prop :=
  ∀ p ∈ t, C p.1 p.2

instance (C : S → L → Prop) [∀ s l, Decidable (C s l)] (t : List (S × L)) :
    Decidable (Respects C t) :=
  inferInstanceAs (Decidable (∀ p ∈ t, C p.1 p.2))

@[simp] theorem respects_nil {C : S → L → Prop} : Respects C [] := by
  simp [Respects]

@[simp] theorem respects_snoc {C : S → L → Prop} {t : List (S × L)} {s : S} {l : L} :
    Respects C (t ++ [(s, l)]) ↔ Respects C t ∧ C s l := by
  simp [Respects, or_imp, forall_and]

theorem respects_and {C D : S → L → Prop} {t : List (S × L)} :
    Respects (fun s l => C s l ∧ D s l) t ↔ Respects C t ∧ Respects D t := by
  simp [Respects, forall_and]

/-- A condition on the labels alone. -/
theorem respects_labels {P : L → Prop} {t : List (S × L)} :
    Respects (fun _ l => P l) t ↔ ∀ l ∈ t.map Prod.snd, P l := by
  simp only [Respects, List.forall_mem_map]

/-- A state some run leads to from an initial state. -/
def Reachable (M : TransitionSystem S L) (s : S) : Prop :=
  ∃ s₀ t, M.init s₀ ∧ M.Run s₀ t s

/-- Up to each of its steps, a run is a run. -/
theorem Run.initial {s₀ s s₁ : S} {t t₁ : List (S × L)} {l : L} (hrun : M.Run s₀ t s)
    (h : t₁ ++ [(s₁, l)] <+: t) : M.Run s₀ t₁ s₁ ∧ ∃ s₂, M.step s₁ l = some s₂ := by
  induction hrun with
  | nil => simp at h
  | snoc hpre hs ih =>
      rcases List.prefix_concat_iff.mp h with heq | hinit
      · obtain ⟨rfl, hlast⟩ := List.append_inj' heq rfl
        obtain ⟨rfl, rfl⟩ := Prod.mk.inj (List.singleton_inj.mp hlast)
        exact ⟨hpre, _, hs⟩
      · exact ih hinit

/-- A run up to some step, and the rest of it from there. -/
theorem Run.split {s₀ s : S} {t₁ t₂ : List (S × L)} (hrun : M.Run s₀ (t₁ ++ t₂) s) :
    ∃ s₁, M.Run s₀ t₁ s₁ ∧ M.Run s₁ t₂ s := by
  induction t₂ using List.reverseRecOn generalizing s with
  | nil => exact ⟨s, by simpa using hrun, .nil⟩
  | append_singleton t₂ p ih =>
      generalize ht : t₁ ++ (t₂ ++ [p]) = t at hrun
      cases hrun with
      | nil => simp at ht
      | @snoc t' s' _ l hpre hs =>
          rw [← List.append_assoc] at ht
          obtain ⟨rfl, hp⟩ := List.append_inj' ht rfl
          obtain ⟨s₁, hfirst, hsecond⟩ := ih hpre
          rw [List.singleton_inj.mp hp]
          exact ⟨s₁, hfirst, .snoc hsecond hs⟩

theorem Run.eq_of_nil {s s' : S} (hrun : M.Run s [] s') : s' = s := by
  generalize ht : ([] : List (S × L)) = t at hrun
  cases hrun with
  | nil => rfl
  | snoc => simp at ht

/-- The state that a step of the trace was taken in. -/
theorem Run.split_cons {s₀ s s₁ : S} {t₁ t₂ : List (S × L)} {l : L}
    (hrun : M.Run s₀ (t₁ ++ (s₁, l) :: t₂) s) :
    M.Run s₀ t₁ s₁ ∧ ∃ s₂, M.step s₁ l = some s₂ ∧ M.Run s₂ t₂ s := by
  have happend : t₁ ++ (s₁, l) :: t₂ = (t₁ ++ [(s₁, l)]) ++ t₂ := by simp
  rw [happend] at hrun
  obtain ⟨s₂, hfirst, hsecond⟩ := hrun.split
  generalize ht : t₁ ++ [(s₁, l)] = t at hfirst
  cases hfirst with
  | nil => simp at ht
  | snoc hpre hs =>
      obtain ⟨rfl, hp⟩ := List.append_inj' ht rfl
      obtain ⟨rfl, rfl⟩ := Prod.mk.inj (List.singleton_inj.mp hp)
      exact ⟨hpre, s₂, hs, hsecond⟩

/-! ## Invariants -/

/-- A property of the state and the steps so far that is kept by every step that
respects `C` holds at the end of every run that respects `C`. -/
theorem Run.invariant_history_of_respects {C : S → L → Prop} {I : List (S × L) → S → Prop}
    (hstep : ∀ t s l s', I t s → C s l → M.step s l = some s' → I (t ++ [(s, l)]) s')
    {s₀ s : S} {t : List (S × L)} (hrun : M.Run s₀ t s) (h₀ : I [] s₀)
    (ht : Respects C t) : I t s := by
  induction hrun with
  | nil => exact h₀
  | snoc _ hs ih =>
      rw [respects_snoc] at ht
      exact hstep _ _ _ _ (ih ht.1) ht.2 hs

theorem Run.invariant_of_respects {C : S → L → Prop} {I : S → Prop}
    (hstep : ∀ s l s', I s → C s l → M.step s l = some s' → I s')
    {s₀ s : S} {t : List (S × L)} (hrun : M.Run s₀ t s) (h₀ : I s₀)
    (ht : Respects C t) : I s :=
  hrun.invariant_history_of_respects (I := fun _ => I)
    (fun _ s l s' hI hl hs => hstep s l s' hI hl hs) h₀ ht

theorem Run.invariant {I : S → Prop} (hstep : ∀ s l s', I s → M.step s l = some s' → I s')
    {s₀ s : S} {t : List (S × L)} (hrun : M.Run s₀ t s) (h₀ : I s₀) : I s :=
  hrun.invariant_of_respects (C := fun _ _ => True)
    (fun s l s' hI _ hs => hstep s l s' hI hs) h₀ (fun _ _ => trivial)

theorem Reachable.invariant {I : S → Prop} (hinit : ∀ s, M.init s → I s)
    (hstep : ∀ s l s', I s → M.step s l = some s' → I s') {s : S} (h : M.Reachable s) : I s := by
  obtain ⟨s₀, t, h₀, hrun⟩ := h
  exact hrun.invariant hstep (hinit s₀ h₀)

/-- Every state a trace passes through satisfies the invariant. -/
theorem Run.invariant_trace_of_respects {C : S → L → Prop} {I : S → Prop}
    (hstep : ∀ s l s', I s → C s l → M.step s l = some s' → I s')
    {s₀ s : S} {t : List (S × L)} (hrun : M.Run s₀ t s) (h₀ : I s₀) (ht : Respects C t) :
    ∀ p ∈ t, I p.1 := by
  induction hrun with
  | nil => simp
  | snoc hpre _ ih =>
      rw [respects_snoc] at ht
      intro p hp
      rcases List.mem_append.mp hp with hp | hp
      · exact ih ht.1 p hp
      · rw [List.mem_singleton.mp hp]
        exact hpre.invariant_of_respects hstep h₀ ht.1

theorem Run.invariant_trace {I : S → Prop} (hstep : ∀ s l s', I s → M.step s l = some s' → I s')
    {s₀ s : S} {t : List (S × L)} (hrun : M.Run s₀ t s) (h₀ : I s₀) :
    ∀ p ∈ t, I p.1 :=
  hrun.invariant_trace_of_respects (C := fun _ _ => True)
    (fun s l s' hI _ hs => hstep s l s' hI hs) h₀ (fun _ _ => trivial)

/-- An invariant that relates the state to the steps taken so far. -/
theorem Run.invariant_history {I : List (S × L) → S → Prop}
    (hstep : ∀ t s l s', I t s → M.step s l = some s' → I (t ++ [(s, l)]) s')
    {s₀ s : S} {t : List (S × L)} (hrun : M.Run s₀ t s) (h₀ : I [] s₀) : I t s :=
  hrun.invariant_history_of_respects (C := fun _ _ => True)
    (fun t s l s' hI _ hs => hstep t s l s' hI hs) h₀ (fun _ _ => trivial)

/-- Two conditions that agree wherever the invariant holds allow the same runs, also
when the invariant is kept only by the steps that they allow. -/
theorem Run.respects_congr_of_respects {I : S → Prop} {C D : S → L → Prop}
    (hstep : ∀ s l s', I s → D s l → M.step s l = some s' → I s')
    (hCD : ∀ s l s', I s → M.step s l = some s' → (C s l ↔ D s l))
    {s₀ s : S} {t : List (S × L)} (hrun : M.Run s₀ t s) (h₀ : I s₀) :
    Respects C t ↔ Respects D t := by
  induction hrun with
  | nil => simp
  | snoc hpre hs ih =>
      rw [respects_snoc, respects_snoc, ih]
      refine and_congr_right fun ht => ?_
      exact hCD _ _ _ (hpre.invariant_of_respects hstep h₀ ht) hs

theorem Run.respects_congr {I : S → Prop} {C D : S → L → Prop}
    (hstep : ∀ s l s', I s → M.step s l = some s' → I s')
    (hCD : ∀ s l s', I s → M.step s l = some s' → (C s l ↔ D s l))
    {s₀ s : S} {t : List (S × L)} (hrun : M.Run s₀ t s) (h₀ : I s₀) :
    Respects C t ↔ Respects D t :=
  hrun.respects_congr_of_respects (fun s l s' hI _ hs => hstep s l s' hI hs) hCD h₀

/-! ## Every state of a run -/

/-- `Q` holds of every state that the run passes through, the last included. -/
def Throughout (Q : S → Prop) (t : List (S × L)) (s : S) : Prop :=
  (∀ p ∈ t, Q p.1) ∧ Q s

@[simp] theorem throughout_nil {Q : S → Prop} {s : S} :
    Throughout Q ([] : List (S × L)) s ↔ Q s := by
  simp [Throughout]

@[simp] theorem throughout_snoc {Q : S → Prop} {t : List (S × L)} {s s' : S} {l : L} :
    Throughout Q (t ++ [(s, l)]) s' ↔ Throughout Q t s ∧ Q s' := by
  simp only [Throughout, List.forall_mem_append, List.forall_mem_singleton]

/-- Where the steps that keep a property are those that respect `C`, the property holds
throughout a run exactly when the run respects `C`. -/
theorem Run.throughout_iff_respects {I Q : S → Prop} {C : S → L → Prop}
    (hI : ∀ s l s', I s → M.step s l = some s' → I s')
    (hQ : ∀ s l s', I s → Q s → M.step s l = some s' → (Q s' ↔ C s l))
    {s₀ s : S} {t : List (S × L)} (hrun : M.Run s₀ t s) (hI₀ : I s₀) (hQ₀ : Q s₀) :
    Throughout Q t s ↔ Respects C t := by
  induction hrun with
  | nil => simp [hQ₀]
  | snoc hpre hs ih =>
      rw [throughout_snoc, respects_snoc, ← ih]
      refine and_congr_right fun hthroughout => ?_
      exact hQ _ _ _ (hpre.invariant hI hI₀) hthroughout.2 hs

/-! ## Execution -/

/-- Take the labels in order. -/
def exec (M : TransitionSystem S L) : S → List L → Option S
  | s, [] => some s
  | s, l :: ls => (M.step s l).bind fun s' => M.exec s' ls

theorem Run.cons {s₀ s₁ s : S} {l : L} {t : List (S × L)} (hs : M.step s₀ l = some s₁)
    (hrun : M.Run s₁ t s) : M.Run s₀ ((s₀, l) :: t) s := by
  induction hrun with
  | nil => exact Run.snoc (t := []) .nil hs
  | snoc _ hs' ih => exact Run.snoc (t := (s₀, l) :: _) ih hs'

/-- An execution is a run with those labels. -/
theorem exec_run {s s' : S} {ls : List L} (h : M.exec s ls = some s') :
    ∃ t, M.Run s t s' ∧ t.map Prod.snd = ls := by
  induction ls generalizing s with
  | nil =>
      obtain rfl : s = s' := by simpa [exec] using h
      exact ⟨[], .nil, rfl⟩
  | cons l ls ih =>
      simp only [exec, Option.bind_eq_some_iff] at h
      obtain ⟨s₁, hs, hrest⟩ := h
      obtain ⟨t, hrun, hlabels⟩ := ih hrest
      exact ⟨(s, l) :: t, hrun.cons hs, by simp [hlabels]⟩

/-- The same with the trace. -/
def execTrace (M : TransitionSystem S L) : S → List L → Option (List (S × L) × S)
  | s, [] => some ([], s)
  | s, l :: ls => (M.step s l).bind fun s' =>
      (M.execTrace s' ls).map fun r => ((s, l) :: r.1, r.2)

theorem execTrace_run {s s' : S} {ls : List L} {t : List (S × L)}
    (h : M.execTrace s ls = some (t, s')) : M.Run s t s' ∧ t.map Prod.snd = ls := by
  induction ls generalizing s t with
  | nil =>
      obtain ⟨rfl, rfl⟩ : [] = t ∧ s = s' := by simpa [execTrace] using h
      exact ⟨.nil, rfl⟩
  | cons l ls ih =>
      simp only [execTrace, Option.bind_eq_some_iff, Option.map_eq_some_iff, Prod.mk.injEq] at h
      obtain ⟨s₁, hs, ⟨rest, s₂⟩, hrest, rfl, rfl⟩ := h
      obtain ⟨hrun, hlabels⟩ := ih hrest
      exact ⟨hrun.cons hs, by simp [hlabels]⟩

/-- What is read off an execution is true of a run with those labels. -/
theorem exists_run_of_execTrace {α : Type*} {f : List (S × L) × S → α} {a : α} {s : S}
    {ls : List L} (h : (M.execTrace s ls).map f = some a) :
    ∃ t s', M.Run s t s' ∧ t.map Prod.snd = ls ∧ f (t, s') = a := by
  obtain ⟨⟨t, s'⟩, hexec, hf⟩ := Option.map_eq_some_iff.mp h
  obtain ⟨hrun, hlabels⟩ := execTrace_run hexec
  exact ⟨t, s', hrun, hlabels, hf⟩

/-! ## Projections -/

variable {S' : Type u'} {L' : Type v'} {N : TransitionSystem S' L'}

/-- Every step of `M` is, seen through `f`, a step of `N` or no step at all. -/
def Projects (M : TransitionSystem S L) (N : TransitionSystem S' L') (f : S → S')
    (g : S → L → Option L') : Prop :=
  ∀ s l s', M.step s l = some s' →
    match g s l with
    | some l' => N.step (f s) l' = some (f s')
    | none => f s' = f s

/-- The trace a component sees of a trace of the whole. -/
def projectTrace (f : S → S') (g : S → L → Option L') (t : List (S × L)) : List (S' × L') :=
  t.filterMap fun p => (g p.1 p.2).map fun l' => (f p.1, l')

/-- A run of the whole is, seen through `f`, a run of the component. -/
theorem Run.project {f : S → S'} {g : S → L → Option L'} (h : Projects M N f g)
    {s₀ s : S} {t : List (S × L)} (hrun : M.Run s₀ t s) :
    N.Run (f s₀) (projectTrace f g t) (f s) := by
  induction hrun with
  | nil => exact .nil
  | @snoc t s₁ s₂ l _ hs ih =>
      have hstep := h _ _ _ hs
      cases hg : g s₁ l with
      | none =>
          rw [hg] at hstep
          simpa [projectTrace, hg, hstep] using ih
      | some l' =>
          rw [hg] at hstep
          simpa [projectTrace, hg] using Run.snoc ih hstep

/-- A condition on the steps of the component, read off the trace of the whole. -/
theorem respects_projectTrace {f : S → S'} {g : S → L → Option L'} {C : S' → L' → Prop}
    {t : List (S × L)} :
    Respects C (projectTrace f g t) ↔
      Respects (fun s l => ∀ l', g s l = some l' → C (f s) l') t := by
  constructor
  · intro h p hp l' hl'
    apply h (f p.1, l')
    exact List.mem_filterMap.mpr ⟨p, hp, by rw [hl']; rfl⟩
  · intro h q hq
    obtain ⟨p, hp, hmap⟩ := List.mem_filterMap.mp hq
    obtain ⟨l', hl', rfl⟩ := Option.map_eq_some_iff.mp hmap
    exact h p hp l' hl'

end TransitionSystem
