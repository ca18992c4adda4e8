-- SUMMARY: Custody records: what a store-and-forward component took in, and where each item went.
import Mathlib.Algebra.Order.Group.Multiset
import Mathlib.Algebra.BigOperators.Group.Finset.Piecewise
import Mathlib.Algebra.Order.BigOperators.Group.Finset

/-!
# Custody

The purpose of a store-and-forward component, as a record that cannot be out of
balance: everything accepted is delivered, still held, or dropped.
-/

universe u w

structure Custody (α : Type u) where
  accepted : Multiset α
  delivered : Multiset α
  held : Multiset α
  dropped : Multiset α
  balanced : accepted = delivered + held + dropped

namespace Custody

variable {α : Type u}

/-- The balance as a count. -/
theorem card_balanced (k : Custody α) :
    k.accepted.card = k.delivered.card + k.held.card + k.dropped.card := by
  rw [k.balanced, Multiset.card_add, Multiset.card_add]

/-! ## Holdings spread over several holders -/

section Holders

variable {ι : Type w} [Fintype ι] [DecidableEq ι]

/-- What all holders together hold. -/
def holdings (hold : ι → Multiset α) : Multiset α := ∑ i, hold i

/-- Only the holder that changes its share changes the total. -/
theorem holdings_update (hold : ι → Multiset α) (i : ι) (m : Multiset α) :
    holdings (Function.update hold i m) + hold i = holdings hold + m := by
  have hnew : holdings (Function.update hold i m) = m + ∑ j ∈ Finset.univ \ {i}, hold j :=
    Finset.sum_update_of_mem (Finset.mem_univ i) hold m
  have hold_eq : holdings hold = hold i + ∑ j ∈ Finset.univ \ {i}, hold j := by
    have h := Finset.sum_update_of_mem (Finset.mem_univ i) hold (hold i)
    rwa [Function.update_eq_self] at h
  rw [hnew, hold_eq]
  ac_rfl

omit [DecidableEq ι] in
theorem holdings_eq_zero {hold : ι → Multiset α} : holdings hold = 0 ↔ ∀ i, hold i = 0 := by
  simp [holdings]

/-- What one holder holds, and the others. -/
theorem holdings_eq_add (hold : ι → Multiset α) (i : ι) :
    holdings hold = hold i + holdings (Function.update hold i 0) := by
  rw [← add_zero (holdings hold), ← holdings_update, add_comm]

end Holders

/-! ## Holders in a list -/

/-- Two shares are nothing when each is. -/
theorem add_eq_zero_iff {m n : Multiset α} : m + n = 0 ↔ m = 0 ∧ n = 0 := by
  simp only [← Multiset.card_eq_zero, Multiset.card_add]
  omega

section

variable {β : Type w} {hold : β → Multiset α} {l : List β} {i : Nat} {a : β}

/-- What the holders in a list together hold. -/
def total (hold : β → Multiset α) (l : List β) : Multiset α := (l.map hold).sum

@[simp] theorem total_nil : total hold [] = 0 := rfl

@[simp] theorem total_snoc : total hold (l ++ [a]) = total hold l + hold a := by
  simp [total]

/-- Only the holder that is replaced changes the total. -/
theorem total_set (hold : β → Multiset α) (b : β) (h : l[i]? = some a) :
    total hold (l.set i b) + hold a = total hold l + hold b := by
  induction l generalizing i with
  | nil => simp at h
  | cons c l ih =>
      cases i with
      | zero =>
          obtain rfl : c = a := by simpa using h
          simp only [total, List.set_cons_zero, List.map_cons, List.sum_cons]
          ac_rfl
      | succ i =>
          have hrest := ih (i := i) (by simpa using h)
          simp only [total, List.set_cons_succ, List.map_cons, List.sum_cons] at hrest ⊢
          rw [add_assoc, hrest, add_assoc]

/-- A holder that keeps its share keeps the total. -/
theorem total_set_of_eq {b : β} (h : l[i]? = some a) (heq : hold b = hold a) :
    total hold (l.set i b) = total hold l := by
  have hset := total_set hold b h
  rw [heq] at hset
  exact add_right_cancel hset

theorem total_eq_zero : total hold l = 0 ↔ ∀ a ∈ l, hold a = 0 := by
  induction l with
  | nil => simp
  | cons a l ih =>
      rw [total, List.map_cons, List.sum_cons, List.forall_mem_cons, ← ih]
      exact add_eq_zero_iff

end

end Custody
