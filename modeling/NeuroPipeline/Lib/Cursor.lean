-- SUMMARY: Loops that read a list by position while it changes: what is left to visit, and what a removal passes over.
import Mathlib.Data.List.Basic

/-!
# Cursors

A loop over a list keeps a position and not the rest of the list. What is appended
behind the position is visited as well; what is removed before it moves the list
under the loop, and one element is passed over.
-/

universe u

namespace Cursor

variable {α : Type u} {l : List α} {i j : Nat} {x : α}

/-- What a loop at position `i` has left to visit. -/
def ahead (l : List α) (i : Nat) : List α := l.drop i

/-- What a loop at position `i` no longer visits once position `j` is removed. -/
def passed (l : List α) (i j : Nat) : Option α := if j < i then l[i]? else none

@[simp] theorem ahead_nil (i : Nat) : ahead ([] : List α) i = [] := List.drop_nil

theorem ahead_of_some (h : l[i]? = some x) : ahead l i = x :: ahead l (i + 1) := by
  obtain ⟨hi, rfl⟩ := List.getElem?_eq_some_iff.mp h
  exact List.drop_eq_getElem_cons hi

theorem ahead_of_none (h : l[i]? = none) : ahead l i = [] :=
  List.drop_of_length_le (List.getElem?_eq_none_iff.mp h)

theorem ahead_append (l new : List α) (i : Nat) :
    ahead (l ++ new) i = ahead l i ++ ahead new (i - l.length) := List.drop_append

/-- A removal at the position or behind it is one from what is left to visit. -/
theorem ahead_eraseIdx_of_le (h : i ≤ j) :
    ahead (l.eraseIdx j) i = (ahead l i).eraseIdx (j - i) := by
  induction l generalizing i j with
  | nil => simp
  | cons a l ih =>
      cases i with
      | zero => rfl
      | succ i =>
          obtain ⟨j, rfl⟩ : ∃ j', j = j' + 1 := ⟨j - 1, by omega⟩
          have hle : i ≤ j := by omega
          have hsub : j + 1 - (i + 1) = j - i := by omega
          rw [hsub]
          exact ih hle

/-- A removal before the position moves the loop on by one. -/
theorem ahead_eraseIdx_of_lt (h : j < i) : ahead (l.eraseIdx j) i = ahead l (i + 1) := by
  induction l generalizing i j with
  | nil => simp
  | cons a l ih =>
      obtain ⟨i, rfl⟩ : ∃ i', i = i' + 1 := ⟨i - 1, by omega⟩
      cases j with
      | zero => rfl
      | succ j =>
          have hlt : j < i := by omega
          exact ih hlt

theorem mem_ahead_of_mem_eraseIdx (h : x ∈ ahead (l.eraseIdx j) i) : x ∈ ahead l i := by
  by_cases hlt : j < i
  · rw [ahead_eraseIdx_of_lt hlt] at h
    exact List.drop_subset_drop_left l (Nat.le_succ i) h
  · rw [ahead_eraseIdx_of_le (Nat.le_of_not_lt hlt)] at h
    exact List.mem_of_mem_eraseIdx h

/-- What is neither removed nor passed over is still visited. -/
theorem mem_ahead_eraseIdx (h : x ∈ ahead l i) (hremoved : l[j]? ≠ some x)
    (hpassed : passed l i j ≠ some x) : x ∈ ahead (l.eraseIdx j) i := by
  by_cases hlt : j < i
  · rw [passed, if_pos hlt] at hpassed
    rw [ahead_eraseIdx_of_lt hlt]
    cases hy : l[i]? with
    | none =>
        rw [ahead_of_none hy] at h
        cases h
    | some y =>
        rw [ahead_of_some hy] at h
        rcases List.mem_cons.mp h with rfl | h
        · exact absurd hy hpassed
        · exact h
  · have hle : i ≤ j := Nat.le_of_not_lt hlt
    rw [ahead_eraseIdx_of_le hle]
    obtain ⟨m, hm⟩ := List.mem_iff_getElem?.mp h
    refine List.mem_eraseIdx_iff_getElem?.mpr ⟨m, ?_, hm⟩
    rintro rfl
    rw [ahead, List.getElem?_drop, Nat.add_sub_cancel' hle] at hm
    exact hremoved hm

/-! ## Counting -/

section

variable {p : α → Bool}

theorem countP_eraseIdx_add (h : l[j]? = some x) :
    (l.eraseIdx j).countP p + (if p x then 1 else 0) = l.countP p := by
  induction l generalizing j with
  | nil => cases h
  | cons a l ih =>
      cases j with
      | zero =>
          obtain rfl : a = x := Option.some_inj.mp h
          rw [List.eraseIdx_cons_zero, List.countP_cons]
      | succ j =>
          have hrest := ih (j := j) h
          rw [List.eraseIdx_cons_succ, List.countP_cons, List.countP_cons]
          omega

theorem countP_eraseIdx (h : ∀ x, l[j]? = some x → p x = false) :
    (l.eraseIdx j).countP p = l.countP p := by
  cases hx : l[j]? with
  | none => rw [List.eraseIdx_of_length_le (List.getElem?_eq_none_iff.mp hx)]
  | some x =>
      rw [← countP_eraseIdx_add hx, h x hx]
      rfl

theorem countP_ahead_append {new : List α} (h : ∀ x ∈ new, p x = false) :
    (ahead (l ++ new) i).countP p = (ahead l i).countP p := by
  have hnew : (ahead new (i - l.length)).countP p = 0 := by
    apply List.countP_eq_zero.mpr
    intro x hx
    simp [h x (List.mem_of_mem_drop hx)]
  rw [ahead_append, List.countP_append, hnew, Nat.add_zero]

/-- What is neither removed nor passed over is still visited, as often as before. -/
theorem countP_ahead_eraseIdx (hremoved : ∀ x, l[j]? = some x → p x = false)
    (hpassed : ∀ x, passed l i j = some x → p x = false) :
    (ahead (l.eraseIdx j) i).countP p = (ahead l i).countP p := by
  by_cases h : j < i
  · rw [ahead_eraseIdx_of_lt h]
    simp only [passed, if_pos h] at hpassed
    cases hx : l[i]? with
    | none =>
        have hi : l.length ≤ i := List.getElem?_eq_none_iff.mp hx
        rw [ahead_of_none hx, ahead_of_none (List.getElem?_eq_none_iff.mpr (by omega))]
    | some x =>
        rw [ahead_of_some hx, List.countP_cons, hpassed x hx]
        simp
  · have hle : i ≤ j := by omega
    rw [ahead_eraseIdx_of_le hle]
    apply countP_eraseIdx
    intro x hx
    apply hremoved x
    rw [ahead, List.getElem?_drop] at hx
    rwa [Nat.add_sub_cancel' hle] at hx

end

end Cursor
