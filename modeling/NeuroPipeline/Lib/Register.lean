-- SUMMARY: Registers: what is left of writes to one place.
import Mathlib.Data.List.Induction

/-!
# Registers

A register holds what the last of the items that store something has stored.
-/

universe u v

namespace Register

variable {α : Type u} {β : Type v} {store : α → Option β} {b : β}

/-- The register after some items. -/
def latest (store : α → Option β) (b : β) (xs : List α) : β := (xs.filterMap store).getLast?.getD b

@[simp] theorem latest_nil (store : α → Option β) (b : β) : latest store b [] = b := rfl

@[simp] theorem latest_concat (store : α → Option β) (b : β) (xs : List α) (x : α) :
    latest store b (xs ++ [x]) = (store x).getD (latest store b xs) := by
  cases hx : store x <;> simp [latest, List.filterMap_append, hx]

@[simp] theorem latest_singleton (store : α → Option β) (b : β) (x : α) :
    latest store b [x] = (store x).getD b := latest_concat store b [] x

/-- The rest of the items find what the first have left. -/
theorem latest_append (store : α → Option β) (b : β) (xs ys : List α) :
    latest store b (xs ++ ys) = latest store (latest store b xs) ys := by
  induction ys using List.reverseRecOn with
  | nil => rw [List.append_nil, latest_nil]
  | append_singleton ys y ih => rw [← List.append_assoc, latest_concat, latest_concat, ih]

end Register
