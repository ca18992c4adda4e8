-- SUMMARY: The contract of std::sort, which leaves the order of equivalent elements open.
import Mathlib.Data.List.Sort

/-!
# std::sort

Sorting by a comparison gives a sorted permutation when the comparison is a
strict weak order on the elements, and is undefined when it is not.
-/

/-- `lt` orders the elements of `l`, with ties. -/
structure StrictWeakOn {α : Type} (lt : α → α → Bool) (l : List α) : Prop where
  asymm : ∀ a ∈ l, ∀ b ∈ l, lt a b = true → lt b a = false
  split : ∀ a ∈ l, ∀ b ∈ l, ∀ c ∈ l, lt a c = true → lt a b = true ∨ lt b c = true

/-- One implementation of `std::sort`. -/
structure StdSort (α : Type) where
  sort : (α → α → Bool) → List α → List α
  perm : ∀ lt l, StrictWeakOn lt l → (sort lt l).Perm l
  sorted : ∀ lt l, StrictWeakOn lt l → (sort lt l).Pairwise fun a b => lt b a = false

namespace StdSort

variable {α : Type}

/-- `a` may stand before `b`. -/
def before (lt : α → α → Bool) (l : List α) (a b : { x // x ∈ l }) : Prop := lt b.1 a.1 = false

instance (lt : α → α → Bool) (l : List α) : DecidableRel (before lt l) :=
  fun a b => inferInstanceAs (Decidable (lt b.1 a.1 = false))

theorem before_total {lt : α → α → Bool} {l : List α} (h : StrictWeakOn lt l) :
    Std.Total (before lt l) := by
  constructor
  intro a b
  cases hba : lt b.1 a.1 with
  | false => exact .inl hba
  | true => exact .inr (h.asymm b.1 b.2 a.1 a.2 hba)

theorem before_trans {lt : α → α → Bool} {l : List α} (h : StrictWeakOn lt l) :
    IsTrans { x // x ∈ l } (before lt l) := by
  constructor
  intro a b c hab hbc
  by_contra hac
  have hca : lt c.1 a.1 = true := by simpa [before] using hac
  rcases h.split c.1 c.2 b.1 b.2 a.1 a.2 hca with hcb | hba
  · rw [before, hcb] at hbc
    cases hbc
  · rw [before, hba] at hab
    cases hab

/-- Insertion sort is an implementation. -/
def insertion (α : Type) : StdSort α where
  sort lt l := (l.attach.insertionSort (before lt l)).map Subtype.val
  perm lt l _ := by
    have h := (List.perm_insertionSort (before lt l) l.attach).map Subtype.val
    rwa [List.attach_map_subtype_val] at h
  sorted lt l hweak := by
    have := before_total hweak
    have := before_trans hweak
    exact List.pairwise_map.mpr (List.pairwise_insertionSort (before lt l) l.attach)

end StdSort
