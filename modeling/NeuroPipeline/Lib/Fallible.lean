-- SUMMARY: Computations that can fail: what their result and their error satisfy, along maps, sequences and lists.
import Mathlib.Data.List.Forall2

/-!
# Computations that can fail

`x.Ends Q E` says of a computation in `Except` that its result has `Q`, or its
error `E`. In `Option` a list has results where each of its elements has one. In
`EStateM` the state that is left is there in both cases.
-/

universe u v w

namespace Except

variable {ε : Type u} {α : Type v} {β : Type w} {x : Except ε α} {Q Q' : α → Prop} {E E' : ε → Prop}

def Ends (x : Except ε α) (Q : α → Prop) (E : ε → Prop) : Prop :=
  match x with
  | .ok a => Q a
  | .error e => E e

@[simp] theorem ends_ok {a : α} : (.ok a : Except ε α).Ends Q E ↔ Q a := Iff.rfl

@[simp] theorem ends_error {e : ε} : (.error e : Except ε α).Ends Q E ↔ E e := Iff.rfl

theorem Ends.mono (h : x.Ends Q E) (hQ : ∀ a, Q a → Q' a) (hE : ∀ e, E e → E' e) :
    x.Ends Q' E' := by
  cases x with
  | ok a => exact hQ a h
  | error e => exact hE e h

theorem ends_map {f : α → β} {R : β → Prop} :
    (x.map f).Ends R E ↔ x.Ends (fun a => R (f a)) E := by
  cases x <;> rfl

theorem ends_bind {β : Type v} {f : α → Except ε β} {R : β → Prop} :
    (x >>= f).Ends R E ↔ x.Ends (fun a => (f a).Ends R E) E := by
  cases x <;> rfl

@[simp] theorem bind_ok {β : Type v} {f : α → Except ε β} {a : α} :
    (.ok a : Except ε α) >>= f = f a := rfl

theorem map_eq_ok {f : α → β} {b : β} : x.map f = .ok b ↔ ∃ a, x = .ok a ∧ f a = b := by
  cases x with
  | ok a => exact ⟨by rintro ⟨⟩; exact ⟨a, rfl, rfl⟩, by rintro ⟨_, ⟨⟩, rfl⟩; rfl⟩
  | error e => exact ⟨by rintro ⟨⟩, by rintro ⟨_, ⟨⟩, -⟩⟩

theorem map_eq_error {f : α → β} {e : ε} : x.map f = .error e ↔ x = .error e := by
  cases x with
  | ok a => exact ⟨by rintro ⟨⟩, by rintro ⟨⟩⟩
  | error e' => exact ⟨by rintro ⟨⟩; rfl, by rintro ⟨⟩; rfl⟩

theorem bind_eq_ok {β : Type v} {f : α → Except ε β} {b : β} :
    (x >>= f) = .ok b ↔ ∃ a, x = .ok a ∧ f a = .ok b := by
  cases x with
  | ok a => exact ⟨fun h => ⟨a, rfl, h⟩, by rintro ⟨_, ⟨⟩, h⟩; exact h⟩
  | error e => exact ⟨by rintro ⟨⟩, by rintro ⟨_, ⟨⟩, -⟩⟩

theorem pure_eq_ok {a b : α} : (pure a : Except ε α) = .ok b ↔ a = b := by
  simp [pure, Except.pure]

/-- Along a list the results correspond, and an error is that of an element. -/
theorem ends_mapM {β : Type v} {f : α → Except ε β} {R : α → β → Prop} {S : α → ε → Prop}
    {l : List α} (h : ∀ a ∈ l, (f a).Ends (R a) (S a)) :
    (l.mapM f).Ends (List.Forall₂ R l) fun e => ∃ a ∈ l, S a e := by
  induction l with
  | nil => exact List.Forall₂.nil
  | cons a l ih =>
    obtain ⟨ha, hl⟩ := List.forall_mem_cons.mp h
    rw [List.mapM_cons, ends_bind]
    refine ha.mono (fun b hb => ?_) fun e he => ⟨a, List.mem_cons_self, he⟩
    rw [ends_bind]
    refine (ih hl).mono (fun bs hbs => ?_) ?_
    · exact List.Forall₂.cons hb hbs
    · rintro e ⟨a', ha', he⟩
      exact ⟨a', List.mem_cons_of_mem a ha', he⟩

theorem forall₂_of_mapM {β : Type v} {f : α → Except ε β} {l : List α} {bs : List β}
    (h : l.mapM f = .ok bs) : List.Forall₂ (fun a b => f a = .ok b) l bs := by
  have hends : (l.mapM f).Ends (List.Forall₂ (fun a b => f a = .ok b) l)
      fun e => ∃ a ∈ l, f a = .error e := by
    apply ends_mapM
    intro a _
    cases hfa : f a <;> rfl
  rw [h] at hends
  exact hends

/-- Where the elements decide whether there are results, and which property those have. -/
theorem ends_mapM_iff {β : Type v} {f : α → Except ε β} {L C : α → Prop} {H : β → Prop}
    {l : List α} (h : ∀ a ∈ l, (f a).Ends (fun b => L a ∧ (H b ↔ C a)) fun _ => ¬ L a) :
    (l.mapM f).Ends (fun bs => (∀ a ∈ l, L a) ∧ ((∀ b ∈ bs, H b) ↔ ∀ a ∈ l, C a))
      fun _ => ¬ ∀ a ∈ l, L a := by
  refine (ends_mapM h).mono (fun bs hbs => ?_) ?_
  · clear h
    induction hbs with
    | nil => simp
    | cons hb _ ih =>
      simp only [List.forall_mem_cons]
      exact ⟨⟨hb.1, ih.1⟩, and_congr hb.2 ih.2⟩
  · rintro e ⟨a, ha, hnot⟩ hall
    exact hnot (hall a ha)

end Except

namespace Option

variable {α : Type u} {β : Type v} {f : α → Option β} {l : List α}

theorem isSome_mapM_iff : (l.mapM f).isSome ↔ ∀ a ∈ l, (f a).isSome := by
  induction l with
  | nil => simp
  | cons a l ih =>
    rw [List.mapM_cons, List.forall_mem_cons, ← ih]
    cases f a <;> cases l.mapM f <;> simp

theorem mapM_eq_filterMap (h : ∀ a ∈ l, (f a).isSome) : l.mapM f = some (l.filterMap f) := by
  induction l with
  | nil => rfl
  | cons a l ih =>
    obtain ⟨ha, hl⟩ := List.forall_mem_cons.mp h
    obtain ⟨b, hb⟩ := Option.isSome_iff_exists.mp ha
    rw [List.mapM_cons, ih hl, List.filterMap_cons_some hb, hb]
    rfl

end Option

namespace EStateM

variable {ε σ α β : Type u} {x : EStateM ε σ α} {s : σ} {Q Q' : α → σ → Prop} {E E' : ε → σ → Prop}

def Ends (x : EStateM ε σ α) (s : σ) (Q : α → σ → Prop) (E : ε → σ → Prop) : Prop :=
  match x s with
  | .ok a s' => Q a s'
  | .error e s' => E e s'

@[simp] theorem ends_pure {a : α} : (pure a : EStateM ε σ α).Ends s Q E ↔ Q a s := Iff.rfl

@[simp] theorem ends_throw {e : ε} : (throw e : EStateM ε σ α).Ends s Q E ↔ E e s := Iff.rfl

@[simp] theorem ends_get {Q : σ → σ → Prop} :
    (MonadState.get : EStateM ε σ σ).Ends s Q E ↔ Q s s := Iff.rfl

@[simp] theorem ends_modifyGet {f : σ → α × σ} :
    (modifyGet f : EStateM ε σ α).Ends s Q E ↔ Q (f s).1 (f s).2 := Iff.rfl

theorem Ends.mono (h : x.Ends s Q E) (hQ : ∀ a s', Q a s' → Q' a s')
    (hE : ∀ e s', E e s' → E' e s') : x.Ends s Q' E' := by
  unfold Ends at h ⊢
  split at h
  · exact hQ _ _ h
  · exact hE _ _ h

theorem ends_bind {f : α → EStateM ε σ β} {R : β → σ → Prop} :
    (x >>= f).Ends s R E ↔ x.Ends s (fun a s' => (f a).Ends s' R E) E := by
  unfold Ends
  change (match EStateM.bind x f s with
    | .ok b s' => R b s'
    | .error e s' => E e s') ↔ _
  rw [EStateM.bind]
  cases x s <;> rfl

theorem Ends.of_ok (h : x.Ends s Q E) {a : α} {s' : σ} (hx : x s = .ok a s') : Q a s' := by
  rwa [Ends, hx] at h

theorem Ends.of_error (h : x.Ends s Q E) {e : ε} {s' : σ} (hx : x s = .error e s') : E e s' := by
  rwa [Ends, hx] at h

end EStateM
