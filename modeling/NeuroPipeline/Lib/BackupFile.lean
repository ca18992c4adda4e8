-- SUMMARY: Files that are copied before they are written: exactly when their last whole content can be read all along.
import NeuroPipeline.Lib.TransitionSystem

/-!
# Files with a backup

A file is saved by copying it to a second one and writing it again. Each of the two can end before
anything is changed, leave a part of the content, or fail after all of it is written.
-/

universe u

inductive SavedFile (α : Type u) where
  | missing
  | torn
  | holds (x : α)
  deriving DecidableEq

namespace SavedFile

variable {α : Type u}

def isMissing : SavedFile α → Bool
  | missing => true
  | torn | holds _ => false

theorem isMissing_iff {f : SavedFile α} : f.isMissing = true ↔ f = missing := by
  cases f <;> simp [isMissing]

end SavedFile

/-- How the writing of a file ends. -/
inductive WriteEnd where
  | done
  /-- an error before anything was changed -/
  | refused
  /-- an error on the way -/
  | torn
  /-- an error after all was written -/
  | late
  deriving DecidableEq

namespace WriteEnd

variable {α : Type u}

def isWhole : WriteEnd → Bool
  | done | late => true
  | refused | torn => false

/-- The file after it was written. -/
def result (o : WriteEnd) (old new : SavedFile α) : SavedFile α :=
  match o with
  | done | late => new
  | refused => old
  | torn => .torn

end WriteEnd

structure BackupFile (α : Type u) where
  file : SavedFile α
  backup : SavedFile α
  /-- the last content that was written as a whole -/
  good : α

inductive SaveAct (α : Type u) where
  | save (x : α) (copy write : WriteEnd)
  /-- somebody else writes the file -/
  | edit (x : α)
  | remove

namespace BackupFile

variable {α : Type u}

/-- The file is written only when the copying ends without an error. -/
def save (s : BackupFile α) (x : α) (copy write : WriteEnd) : BackupFile α :=
  let s := { s with backup := copy.result s.backup s.file }
  if copy = .done then
    { s with
      file := write.result s.file (.holds x)
      good := if write.isWhole then x else s.good }
  else s

def edit (s : BackupFile α) (x : α) : BackupFile α := { s with file := .holds x, good := x }

def remove (s : BackupFile α) : BackupFile α := { s with file := .missing }

def step (s : BackupFile α) : SaveAct α → Option (BackupFile α)
  | .save x copy write => if s.file.isMissing then none else some (s.save x copy write)
  | .edit x => some (s.edit x)
  | .remove => some s.remove

end BackupFile

/-- The file is there, and nothing is known of the backup. -/
def backupSystem (α : Type u) : TransitionSystem (BackupFile α) (SaveAct α) where
  init s := s.file = .holds s.good
  step := BackupFile.step

namespace BackupFile

variable {α : Type u} {s s' : BackupFile α} {l : SaveAct α}

/-! ## Specification -/

/-- The last content that was written as a whole is in the file, or in the backup. -/
def Recoverable (s : BackupFile α) : Prop := s.file = .holds s.good ∨ s.backup = .holds s.good

/-- A torn file is not copied, unless it is then written as a whole; and a file is not removed that
is not in the backup. -/
def Keeps (s : BackupFile α) : SaveAct α → Prop
  | .save _ copy write =>
    s.file = .holds s.good ∨ copy = .refused ∨ copy = .done ∧ write.isWhole
  | .edit _ => True
  | .remove => s.backup = .holds s.good

/-! ## Runs -/

theorem step_cases (hs : s.step l = some s') :
    (∃ x copy write, l = .save x copy write ∧ s.file ≠ .missing ∧ s' = s.save x copy write) ∨
      (∃ x, l = .edit x ∧ s' = s.edit x) ∨ l = .remove ∧ s' = s.remove := by
  cases l with
  | save x copy write =>
      obtain ⟨hthere, heq⟩ := Option.ite_none_left_eq_some.mp hs
      refine .inl ⟨x, copy, write, rfl, fun hmissing => ?_, (Option.some_inj.mp heq).symm⟩
      exact hthere (SavedFile.isMissing_iff.mpr hmissing)
  | edit x => exact .inr (.inl ⟨x, rfl, (Option.some_inj.mp hs).symm⟩)
  | remove => exact .inr (.inr ⟨rfl, (Option.some_inj.mp hs).symm⟩)

/-- Whatever a save ends with, nothing else comes into the file. -/
theorem holds_of_save {x y : α} {copy write : WriteEnd}
    (h : (s.save x copy write).file = .holds y) : s.file = .holds y ∨ y = x := by
  rw [save] at h
  split at h
  · cases write with
    | done | late =>
        cases h
        exact .inr rfl
    | refused => exact .inl h
    | torn => cases h
  · exact .inl h

theorem recoverable_save_of_copied {x : α} {write : WriteEnd} :
    (s.save x .done write).Recoverable ↔ s.file = .holds s.good ∨ write.isWhole := by
  cases write <;> simp [save, Recoverable, WriteEnd.result, WriteEnd.isWhole]

/-- What a save leaves of the last whole content. -/
theorem recoverable_save (h : s.Recoverable) (x : α) (copy write : WriteEnd) :
    (s.save x copy write).Recoverable ↔ s.Keeps (.save x copy write) := by
  cases copy with
  | done => simp [recoverable_save_of_copied, Keeps]
  | refused => exact iff_of_true h (.inr (.inl rfl))
  | torn => simp [save, Recoverable, WriteEnd.result, Keeps]
  | late => simp [save, Recoverable, WriteEnd.result, Keeps]

theorem recoverable_step (h : s.Recoverable) (hs : s.step l = some s') :
    s'.Recoverable ↔ s.Keeps l := by
  rcases step_cases hs with ⟨x, copy, write, rfl, -, rfl⟩ | ⟨x, rfl, rfl⟩ | ⟨rfl, rfl⟩
  · exact recoverable_save h x copy write
  · exact iff_of_true (.inl rfl) trivial
  · simp [remove, Recoverable, Keeps]

/-- The last whole content can be read all along exactly when no torn file is copied that is not
then written as a whole, and no file is removed that is not in the backup. -/
theorem recoverable_iff_keeps {s₀ : BackupFile α} {t : List (BackupFile α × SaveAct α)}
    (hinit : (backupSystem α).init s₀) (hrun : (backupSystem α).Run s₀ t s) :
    TransitionSystem.Throughout Recoverable t s ↔ TransitionSystem.Respects Keeps t := by
  exact hrun.throughout_iff_respects (I := fun _ => True) (fun _ _ _ _ _ => trivial)
    (fun _ _ _ _ h hs => recoverable_step h hs) trivial (.inl hinit)

end BackupFile
