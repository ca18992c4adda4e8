-- SUMMARY: Tapes that grow at their end and are read from a position on: what has been read since the last rewinding.
import Mathlib.Data.List.Induction
import Mathlib.Data.List.TakeDrop
import NeuroPipeline.Lib.TransitionSystem

/-!
# Tapes

What is appended comes last; a reading goes on where the one before has ended, until the tape
is rewound.
-/

universe u

structure Tape (α : Type u) where
  content : List α := []
  offset : Nat := 0
  offset_le : offset ≤ content.length := by exact Nat.zero_le _

inductive TapeAct (α : Type u) where
  | append (xs : List α)
  | rewind
  | read (count : Nat)

namespace Tape

variable {α : Type u}

def append (m : Tape α) (xs : List α) : Tape α where
  content := m.content ++ xs
  offset := m.offset
  offset_le := by
    rw [List.length_append]
    exact Nat.le_add_right_of_le m.offset_le

def rewind (m : Tape α) : Tape α := { content := m.content }

/-- What a reading gets. -/
def next (m : Tape α) (count : Nat) : List α := (m.content.drop m.offset).take count

theorem offset_add_length_next (m : Tape α) (count : Nat) :
    m.offset + (m.next count).length ≤ m.content.length := by
  have hoffset := m.offset_le
  rw [next, List.length_take, List.length_drop]
  omega

def read (m : Tape α) (count : Nat) : Tape α where
  content := m.content
  offset := m.offset + (m.next count).length
  offset_le := m.offset_add_length_next count

def step (m : Tape α) : TapeAct α → Option (Tape α)
  | .append xs => some (m.append xs)
  | .rewind => some m.rewind
  | .read count => some (m.read count)

def system (α : Type u) : TransitionSystem (Tape α) (TapeAct α) where
  init m := m = {}
  step := step

variable {m : Tape α} {t : List (Tape α × TapeAct α)}

/-! ## Runs -/

def appending : TapeAct α → List α
  | .append xs => xs
  | .rewind | .read _ => []

def appended (t : List (Tape α × TapeAct α)) : List α := t.flatMap fun p => appending p.2

/-- What has been read, after one more step. -/
def deliver (before : List α) (p : Tape α × TapeAct α) : List α :=
  match p.2 with
  | .append _ => before
  | .rewind => []
  | .read count => before ++ p.1.next count

/-- What has been read since the last rewinding. -/
def delivered (t : List (Tape α × TapeAct α)) : List α := t.foldl deliver []

@[simp] theorem appended_snoc (t : List (Tape α × TapeAct α)) (p : Tape α × TapeAct α) :
    appended (t ++ [p]) = appended t ++ appending p.2 := by
  simp [appended]

@[simp] theorem delivered_snoc (t : List (Tape α × TapeAct α)) (p : Tape α × TapeAct α) :
    delivered (t ++ [p]) = deliver (delivered t) p := List.foldl_append ..

/-- What has been read goes on with the next reading. -/
theorem take_offset_read (m : Tape α) (count : Nat) :
    (m.read count).content.take (m.read count).offset =
      m.content.take m.offset ++ m.next count := by
  have htake : m.next count = (m.content.drop m.offset).take (m.next count).length := by
    rw [next, List.take_eq_take_iff, List.length_take, Nat.min_assoc, Nat.min_self]
  calc
    m.content.take (m.offset + (m.next count).length)
      = m.content.take m.offset ++ (m.content.drop m.offset).take (m.next count).length :=
        List.take_add
    _ = m.content.take m.offset ++ m.next count := by rw [← htake]

/-- The tape holds what was appended, and what has been read since it was rewound is what is
before the position. -/
theorem run_content {m₀ : Tape α} (hinit : (system α).init m₀) (hrun : (system α).Run m₀ t m) :
    m.content = appended t ∧ delivered t = m.content.take m.offset := by
  obtain rfl : m₀ = {} := hinit
  refine hrun.invariant_history
    (I := fun t m => m.content = appended t ∧ delivered t = m.content.take m.offset) ?_ ⟨rfl, rfl⟩
  rintro t m act m' ⟨hcontent, hdelivered⟩ hs
  rw [appended_snoc, delivered_snoc]
  cases act with
  | append xs =>
      obtain rfl := Option.some_inj.mp hs
      refine ⟨congrArg (· ++ xs) hcontent, hdelivered.trans ?_⟩
      exact (List.take_append_of_le_length m.offset_le).symm
  | rewind =>
      obtain rfl := Option.some_inj.mp hs
      exact ⟨hcontent.trans (List.append_nil _).symm, rfl⟩
  | read count =>
      obtain rfl := Option.some_inj.mp hs
      refine ⟨hcontent.trans (List.append_nil _).symm, ?_⟩
      rw [take_offset_read, deliver, hdelivered]

/-- A reading gets nothing when everything has been read, and only then. -/
theorem next_eq_nil_iff {m₀ : Tape α} (hinit : (system α).init m₀)
    (hrun : (system α).Run m₀ t m) {count : Nat} (hcount : 0 < count) :
    m.next count = [] ↔ delivered t = appended t := by
  obtain ⟨hcontent, hdelivered⟩ := run_content hinit hrun
  have hoffset := m.offset_le
  rw [next, hdelivered, ← hcontent, List.take_eq_nil_iff, List.drop_eq_nil_iff,
    List.take_eq_self_iff]
  omega

end Tape
