-- SUMMARY: Infinite executions of a transition system, weak fairness of its actors, and what leads to what.
import NeuroPipeline.Lib.TransitionSystem
import Mathlib.Order.Nat

/-!
# Fair executions

An execution goes on for ever; at each time a step is taken or nothing happens. The labels
have actors, and an actor that is able to act from some time on is bound to act.
-/

universe u v w

namespace TransitionSystem

variable {S : Type u} {L : Type v} {A : Type w} {M : TransitionSystem S L}

structure Execution (M : TransitionSystem S L) where
  state : Nat → S
  act : Nat → Option L
  init : M.init (state 0)
  step : ∀ k, match act k with
    | some l => M.step (state k) l = some (state (k + 1))
    | none => state (k + 1) = state k

/-- Some step of the actor is possible. -/
def Enabled (M : TransitionSystem S L) (actor : L → Option A) (a : A) (s : S) : Prop :=
  ∃ l s', actor l = some a ∧ M.step s l = some s'

namespace Execution

variable (e : M.Execution)

/-- Every step of the execution respects `C`. -/
def Respects (C : S → L → Prop) : Prop := ∀ k l, e.act k = some l → C (e.state k) l

/-- Weak fairness. -/
def Fair (actor : L → Option A) : Prop :=
  ∀ a k, (∀ j, k ≤ j → M.Enabled actor a (e.state j)) →
    ∃ j l, k ≤ j ∧ e.act j = some l ∧ actor l = some a

def LeadsTo (P Q : S → Prop) : Prop := ∀ k, P (e.state k) → ∃ j, k ≤ j ∧ Q (e.state j)

variable {e}

theorem step_of_act {k : Nat} {l : L} (h : e.act k = some l) :
    M.step (e.state k) l = some (e.state (k + 1)) := by
  have hstep := e.step k
  rw [h] at hstep
  exact hstep

theorem state_of_act_none {k : Nat} (h : e.act k = none) : e.state (k + 1) = e.state k := by
  have hstep := e.step k
  rw [h] at hstep
  exact hstep

/-! ## Safety -/

/-- A property that steps keep, once it holds, holds from then on. -/
theorem stable {I : S → Prop} (hstep : ∀ s l s', I s → M.step s l = some s' → I s') {k j : Nat}
    (hkj : k ≤ j) (hk : I (e.state k)) : I (e.state j) := by
  induction hkj with
  | refl => exact hk
  | @step j _ ih =>
      cases hact : e.act j with
      | none => rwa [state_of_act_none hact]
      | some l => exact hstep _ _ _ ih (step_of_act hact)

theorem invariant {I : S → Prop} (hinit : ∀ s, M.init s → I s)
    (hstep : ∀ s l s', I s → M.step s l = some s' → I s') (k : Nat) : I (e.state k) :=
  stable hstep (Nat.zero_le k) (hinit _ e.init)

/-- A state is related to all later ones when each step relates its two states. -/
theorem related {r : S → S → Prop} (hrefl : ∀ s, r s s) (htrans : ∀ a b c, r a b → r b c → r a c)
    (hstep : ∀ s l s', M.step s l = some s' → r s s') {k j : Nat} (hkj : k ≤ j) :
    r (e.state k) (e.state j) :=
  stable (fun s l s' hs h => htrans _ s s' hs (hstep s l s' h)) hkj (hrefl _)

/-! ## Liveness -/

namespace LeadsTo

variable {P P' Q R : S → Prop}

theorem trans (hPQ : e.LeadsTo P Q) (hQR : e.LeadsTo Q R) : e.LeadsTo P R := by
  intro k hP
  obtain ⟨j, hkj, hQ⟩ := hPQ k hP
  obtain ⟨i, hji, hR⟩ := hQR j hQ
  exact ⟨i, hkj.trans hji, hR⟩

theorem of_imp (h : ∀ s, P s → Q s) : e.LeadsTo P Q := fun k hP => ⟨k, le_rfl, h _ hP⟩

theorem or (hP : e.LeadsTo P R) (hQ : e.LeadsTo Q R) : e.LeadsTo (fun s => P s ∨ Q s) R := by
  rintro k (h | h)
  · exact hP k h
  · exact hQ k h

theorem of_exists {ι : Type w} {P : ι → S → Prop} (h : ∀ i, e.LeadsTo (P i) Q) :
    e.LeadsTo (fun s => ∃ i, P i s) Q := by
  rintro k ⟨i, hi⟩
  exact h i k hi

/-- The goal is reached when a rank can only stay away from it by going down. -/
theorem of_rank {f : S → Nat}
    (h : ∀ n, e.LeadsTo (fun s => P s ∧ f s = n) fun s => Q s ∨ P s ∧ f s < n) :
    e.LeadsTo P Q := by
  have hrank : ∀ n k, P (e.state k) → f (e.state k) = n → ∃ j, k ≤ j ∧ Q (e.state j) := by
    intro n
    induction n using Nat.strongRecOn with
    | ind n ih =>
      intro k hP hn
      obtain ⟨j, hkj, hQ | ⟨hP', hlt⟩⟩ := h n k ⟨hP, hn⟩
      · exact ⟨j, hkj, hQ⟩
      · obtain ⟨i, hji, hQ⟩ := ih _ hlt j hP' rfl
        exact ⟨i, hkj.trans hji, hQ⟩
  exact fun k hP => hrank _ k hP rfl

end LeadsTo

/-- An actor brings about `Q` when it stays able to until it does. -/
theorem Fair.leadsTo {actor : L → Option A} (hfair : e.Fair actor) (a : A) {P Q : S → Prop}
    (henabled : ∀ s, P s → M.Enabled actor a s)
    (hacts : ∀ s l s', P s → actor l = some a → M.step s l = some s' → Q s')
    (hothers : ∀ s l s', P s → M.step s l = some s' → P s' ∨ Q s') : e.LeadsTo P Q := by
  intro k hP
  by_contra hnever
  -- as `Q` is never reached, `P` stays, and the actor stays able to act
  have hstays : ∀ j, k ≤ j → P (e.state j) := by
    intro j hkj
    induction hkj with
    | refl => exact hP
    | @step j hkj ih =>
        cases hact : e.act j with
        | none => rwa [state_of_act_none hact]
        | some l =>
            rcases hothers _ _ _ ih (step_of_act hact) with hP' | hQ
            · exact hP'
            · exact absurd ⟨j + 1, Nat.le_succ_of_le hkj, hQ⟩ hnever
  obtain ⟨j, l, hkj, hact, hactor⟩ := hfair a k fun j hkj => henabled _ (hstays j hkj)
  exact hnever ⟨j + 1, Nat.le_succ_of_le hkj, hacts _ _ _ (hstays j hkj) hactor
    (step_of_act hact)⟩

end Execution

/-! ## Finite runs -/

/-- The state of a run at a time, where nothing happens after its end. -/
def stateAt (t : List (S × L)) (s : S) (k : Nat) : S := (t[k]?.map Prod.fst).getD s

theorem stateAt_of_le {t : List (S × L)} {s : S} {k : Nat} (h : t.length ≤ k) :
    stateAt t s k = s := by
  rw [stateAt, List.getElem?_eq_none h]
  rfl

theorem stateAt_of_getElem? {t : List (S × L)} {s : S} {k : Nat} {p : S × L} (h : t[k]? = some p) :
    stateAt t s k = p.1 := by
  rw [stateAt, h]
  rfl

theorem stateAt_snoc_of_le {t : List (S × L)} {s s' : S} {l : L} {k : Nat} (h : k ≤ t.length) :
    stateAt (t ++ [(s, l)]) s' k = stateAt t s k := by
  rcases Nat.lt_or_eq_of_le h with hlt | rfl
  · rw [stateAt, stateAt, List.getElem?_append_left hlt, List.getElem?_eq_getElem hlt]
    rfl
  · rw [stateAt_of_getElem? List.getElem?_concat_length, stateAt_of_le le_rfl]

theorem Run.step_stateAt {s₀ s : S} {t : List (S × L)} (hrun : M.Run s₀ t s) {k : Nat} {p : S × L}
    (h : t[k]? = some p) : M.step p.1 p.2 = some (stateAt t s (k + 1)) := by
  induction hrun with
  | nil => cases h
  | @snoc t s₁ s₂ l _ hs ih =>
      rcases Nat.lt_trichotomy k t.length with hlt | rfl | hgt
      · rw [List.getElem?_append_left hlt] at h
        rw [ih h, stateAt_snoc_of_le hlt]
      · rw [List.getElem?_concat_length] at h
        obtain rfl := Option.some.inj h
        rw [stateAt_of_le (by simp)]
        exact hs
      · rw [List.getElem?_eq_none (by rw [List.length_append]; exact hgt)] at h
        cases h

theorem Run.stateAt_zero {s₀ s : S} {t : List (S × L)} (hrun : M.Run s₀ t s) :
    stateAt t s 0 = s₀ := by
  induction hrun with
  | nil => rfl
  | snoc _ _ ih => rw [stateAt_snoc_of_le (Nat.zero_le _), ih]

/-- The execution that takes the steps of a run and no more. -/
def Run.execution {s₀ s : S} {t : List (S × L)} (hrun : M.Run s₀ t s) (h₀ : M.init s₀) :
    M.Execution where
  state := stateAt t s
  act k := t[k]?.map Prod.snd
  init := by rwa [hrun.stateAt_zero]
  step k := by
    cases hp : t[k]? with
    | none =>
      have hend : t.length ≤ k := List.getElem?_eq_none_iff.mp hp
      exact (stateAt_of_le (hend.trans (Nat.le_succ k))).trans (stateAt_of_le hend).symm
    | some p =>
      simp only [Option.map_some]
      rw [stateAt_of_getElem? hp]
      exact hrun.step_stateAt hp

theorem Run.execution_act {s₀ s : S} {t : List (S × L)} (hrun : M.Run s₀ t s) (h₀ : M.init s₀)
    (k : Nat) : (hrun.execution h₀).act k = (t.map Prod.snd)[k]? := List.getElem?_map.symm

/-- It is fair when the run ends where no actor is able to act. -/
theorem Run.execution_fair {s₀ s : S} {t : List (S × L)} (hrun : M.Run s₀ t s) (h₀ : M.init s₀)
    {actor : L → Option A} (hrest : ∀ a, ¬ M.Enabled actor a s) :
    (hrun.execution h₀).Fair actor := by
  intro a k henabled
  have hend : (hrun.execution h₀).state (max k t.length) = s := stateAt_of_le (le_max_right _ _)
  have hlast := henabled (max k t.length) (le_max_left _ _)
  rw [hend] at hlast
  exact absurd hlast (hrest a)

end TransitionSystem
