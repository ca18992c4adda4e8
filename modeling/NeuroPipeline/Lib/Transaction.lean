-- SUMMARY: One table behind one connection: an open transaction, its commit and its rollback, and what commits have added.
import Mathlib.Data.List.Basic

/-!
# Transactions

A connection sees what is committed, less what its open transaction has deleted,
and what the transaction has inserted. A commit makes this the table. Beside the
table is kept what commits have added to it over time.
-/

universe u

structure Transaction (α : Type u) where
  table : List α
  /-- what the open transaction has left of the table -/
  kept : List α
  /-- what the open transaction has inserted -/
  fresh : List α
  /-- what commits have added to the table so far -/
  published : List α

namespace Transaction

variable {α : Type u} (x : Transaction α) (a : α) (p : α → Bool)

def ofTable (table : List α) : Transaction α := ⟨table, table, [], []⟩

/-- What the connection itself sees. -/
def view : List α := x.kept ++ x.fresh

def insert : Transaction α := { x with fresh := x.fresh ++ [a] }

/-- Delete where `p` holds. -/
def delete : Transaction α :=
  { x with kept := x.kept.filter (!p ·), fresh := x.fresh.filter (!p ·) }

def commit : Transaction α :=
  ⟨x.view, x.view, [], x.published ++ x.fresh⟩

def rollback : Transaction α := { x with kept := x.table, fresh := [] }

@[simp] theorem published_insert : (x.insert a).published = x.published := rfl

@[simp] theorem fresh_insert : (x.insert a).fresh = x.fresh ++ [a] := rfl

@[simp] theorem published_delete : (x.delete p).published = x.published := rfl

@[simp] theorem published_commit : x.commit.published = x.published ++ x.fresh := rfl

@[simp] theorem published_rollback : x.rollback.published = x.published := rfl

/-- Everything in the table was there at first or has been added by a commit. -/
def Accounted (initial : List α) (x : Transaction α) : Prop :=
  (∀ a ∈ x.table, a ∈ initial ∨ a ∈ x.published) ∧ ∀ a ∈ x.kept, a ∈ x.table

namespace Accounted

variable {x a p} {initial : List α}

theorem ofTable : Accounted initial (Transaction.ofTable initial) :=
  ⟨fun _ h => .inl h, fun _ h => h⟩

theorem insert (h : Accounted initial x) : Accounted initial (x.insert a) := h

theorem delete (h : Accounted initial x) : Accounted initial (x.delete p) :=
  ⟨h.1, fun _ ha => h.2 _ (List.mem_of_mem_filter ha)⟩

theorem commit (h : Accounted initial x) : Accounted initial x.commit := by
  refine ⟨fun a ha => ?_, fun _ ha => ha⟩
  rcases List.mem_append.mp ha with ha | ha
  · exact (h.1 a (h.2 a ha)).imp_right (List.mem_append_left _)
  · exact .inr (List.mem_append_right _ ha)

theorem rollback (h : Accounted initial x) : Accounted initial x.rollback :=
  ⟨h.1, fun _ ha => ha⟩

end Accounted

end Transaction
