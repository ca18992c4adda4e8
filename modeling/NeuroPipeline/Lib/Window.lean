-- SUMMARY: The last entries of a list, as entries are pushed behind it one by one.
import Mathlib.Data.List.DropRight

/-!
# Windows

A buffer that keeps the last entries of what was pushed holds `rtake` of all of it.
-/

namespace List

variable {α : Type*} {l : List α} {m n : Nat} {x : α}

theorem length_rtake (l : List α) (n : Nat) : (l.rtake n).length = min n l.length := by
  rw [rtake, length_drop]
  omega

theorem rtake_of_length_le (h : l.length ≤ n) : l.rtake n = l := by
  rw [rtake, Nat.sub_eq_zero_of_le h, drop_zero]

theorem rtake_suffix (l : List α) (n : Nat) : l.rtake n <:+ l := drop_suffix _ _

theorem rtake_rtake (l : List α) (m n : Nat) : (l.rtake m).rtake n = l.rtake (min n m) := by
  simp only [rtake_eq_reverse_take_reverse, reverse_reverse, take_take]

/-- Of what is pushed out, nothing comes back. -/
theorem rtake_rtake_concat (l : List α) (n : Nat) (x : α) :
    (l.rtake n ++ [x]).rtake n = (l ++ [x]).rtake n := by
  cases n with
  | zero => rw [rtake_zero, rtake_zero]
  | succ n => rw [rtake_concat_succ, rtake_concat_succ, rtake_rtake, min_eq_left (Nat.le_succ n)]

/-- A full window loses its first entry. -/
theorem tail_rtake_succ (h : n < l.length) : (l.rtake (n + 1)).tail = l.rtake n := by
  rw [rtake, rtake, tail_drop]
  congr 1
  omega

theorem rtake_append_length (l l' : List α) : (l ++ l').rtake l'.length = l' := by
  rw [rtake, length_append, Nat.add_sub_cancel, drop_left]

/-- What passes a filter in a window is a window of what passes it. -/
theorem filter_rtake (p : α → Bool) (l : List α) (n : Nat) :
    (l.rtake n).filter p = (l.filter p).rtake ((l.rtake n).countP p) := by
  obtain ⟨left, hleft⟩ := rtake_suffix l n
  have hfilter : l.filter p = left.filter p ++ (l.rtake n).filter p := by
    rw [← filter_append, hleft]
  rw [hfilter, countP_eq_length_filter, rtake_append_length]

end List
