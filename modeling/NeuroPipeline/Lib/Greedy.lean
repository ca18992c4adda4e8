-- SUMMARY: Greedy selection from a list: what is taken excludes none of what is taken after it, and whatever is left is excluded by something taken.
import Mathlib.Data.List.Basic
import Mathlib.Data.List.Perm.Basic

/-!
# Greedy selection

An element is taken unless one that was taken before excludes it.
-/

universe u

namespace Greedy

variable {α : Type u} (excludes : α → α → Bool)

/-- One element after those that were kept. -/
def keep (kept : List α) (b : α) : List α :=
  if kept.any fun a => excludes a b then kept else kept ++ [b]

/-- What is taken of a list, after those that were kept before. -/
def selectFrom (kept : List α) : List α → List α
  | [] => []
  | b :: rest =>
    if kept.any fun a => excludes a b then selectFrom kept rest
    else b :: selectFrom (kept ++ [b]) rest

/-- What is left of it. -/
def rejectFrom (kept : List α) : List α → List α
  | [] => []
  | b :: rest =>
    if kept.any fun a => excludes a b then b :: rejectFrom kept rest
    else rejectFrom (kept ++ [b]) rest

variable {excludes} {kept l : List α}

theorem foldl_keep : l.foldl (keep excludes) kept = kept ++ selectFrom excludes kept l := by
  induction l generalizing kept with
  | nil => exact (List.append_nil kept).symm
  | cons b rest ih =>
    rw [List.foldl_cons, ih, keep, selectFrom]
    split
    · rfl
    · exact List.append_assoc kept [b] _

theorem selectFrom_sublist : (selectFrom excludes kept l).Sublist l := by
  induction l generalizing kept with
  | nil => exact List.Sublist.refl _
  | cons b rest ih =>
    rw [selectFrom]
    split
    · exact ih.cons b
    · exact ih.cons_cons b

/-- Every element is taken or left. -/
theorem selectFrom_append_rejectFrom :
    (selectFrom excludes kept l ++ rejectFrom excludes kept l).Perm l := by
  induction l generalizing kept with
  | nil => exact List.Perm.refl _
  | cons b rest ih =>
    rw [selectFrom, rejectFrom]
    split
    · exact List.perm_middle.trans (ih.cons b)
    · exact ih.cons b

theorem pairwise_selectFrom (h : kept.Pairwise fun a b => excludes a b = false) :
    (kept ++ selectFrom excludes kept l).Pairwise fun a b => excludes a b = false := by
  induction l generalizing kept with
  | nil =>
    rw [selectFrom, List.append_nil]
    exact h
  | cons b rest ih =>
    rw [selectFrom]
    split
    next => exact ih h
    next hnone =>
      have hkept : (kept ++ [b]).Pairwise fun a b => excludes a b = false := by
        refine List.pairwise_append.mpr ⟨h, List.pairwise_singleton _ b, fun a ha b' hb' => ?_⟩
        rw [List.mem_singleton.mp hb']
        exact Bool.eq_false_iff.mpr fun hab => hnone (List.any_eq_true.mpr ⟨a, ha, hab⟩)
      rw [List.append_cons]
      exact ih hkept

/-- What is left is excluded by something that was taken before it. -/
theorem exists_excludes_of_rejected {R : α → α → Prop} (hkept : ∀ a ∈ kept, ∀ b ∈ l, R a b)
    (hl : l.Pairwise R) {b : α} (hb : b ∈ rejectFrom excludes kept l) :
    ∃ a ∈ kept ++ selectFrom excludes kept l, excludes a b = true ∧ R a b := by
  induction l generalizing kept with
  | nil => cases hb
  | cons c rest ih =>
    obtain ⟨hc, hrest⟩ := List.pairwise_cons.mp hl
    have hkeptRest : ∀ a ∈ kept, ∀ b ∈ rest, R a b := fun a ha b hb =>
      hkept a ha b (List.mem_cons_of_mem c hb)
    rw [rejectFrom] at hb
    rw [selectFrom]
    split at hb
    next hany =>
      rw [if_pos hany]
      rcases List.mem_cons.mp hb with rfl | hb
      · obtain ⟨a, ha, hab⟩ := List.any_eq_true.mp hany
        exact ⟨a, List.mem_append_left _ ha, hab, hkept a ha b List.mem_cons_self⟩
      · exact ih hkeptRest hrest hb
    next hany =>
      rw [if_neg hany, List.append_cons]
      refine ih (fun a ha => ?_) hrest hb
      rcases List.mem_append.mp ha with ha | ha
      · exact hkeptRest a ha
      · rw [List.mem_singleton.mp ha]
        exact hc

/-- Where nothing excludes anything after it, all is taken. -/
theorem selectFrom_eq_self (h : (kept ++ l).Pairwise fun a b => excludes a b = false) :
    selectFrom excludes kept l = l := by
  induction l generalizing kept with
  | nil => rfl
  | cons b rest ih =>
    have hnone : ¬ (kept.any fun a => excludes a b) = true := by
      rw [List.any_eq_true]
      rintro ⟨a, ha, hab⟩
      have hfalse := (List.pairwise_append.mp h).2.2 a ha b List.mem_cons_self
      rw [hab] at hfalse
      cases hfalse
    rw [selectFrom, if_neg hnone, ih]
    rwa [← List.append_cons]

end Greedy
