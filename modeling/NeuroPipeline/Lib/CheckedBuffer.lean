-- SUMMARY: Buffers whose accesses are checked: single elements and blocks, and buffers that are filled from the front.
import NeuroPipeline.Lib.CountedLoop
import Mathlib.Data.List.GetD

/-!
# Checked buffers

A buffer is the list of its elements. An access outside fails.
-/

namespace CheckedBuffer

variable {α : Type} {buf : List α} {i : Nat}

def read (buf : List α) (i : Nat) : Option α := buf[i]?

def write (buf : List α) (i : Nat) (x : α) : Option (List α) :=
  if i < buf.length then some (buf.set i x) else none

/-- The elements from `i`, `n` of them. -/
def readBlock (buf : List α) (i n : Nat) : Option (Vector α n) :=
  if h : i + n ≤ buf.length then some (.ofFn fun k => buf[i + k.val]) else none

def writeBlock (buf : List α) (i : Nat) {n : Nat} (xs : Vector α n) : Option (List α) :=
  if i + n ≤ buf.length then some (buf.take i ++ xs.toList ++ buf.drop (i + n)) else none

theorem read_of_lt (h : i < buf.length) (d : α) : read buf i = some (buf.getD i d) := by
  rw [List.getD_eq_getElem _ _ h]
  exact List.getElem?_eq_getElem h

theorem succeedsIff_read (buf : List α) (i : Nat) :
    SucceedsIff (i < buf.length) (fun _ => True) (read buf i) where
  isSome := by
    rw [read, isSome_getElem?]
  holds _ _ := trivial

theorem succeedsIff_write {m : Nat} (h : buf.length = m) (i : Nat) (x : α) :
    SucceedsIff (i < m) (fun buf' => buf'.length = m) (write buf i x) := by
  subst h
  unfold write
  split
  next hlt =>
    refine SucceedsIff.of_iff (.some ?_) (iff_of_true trivial hlt)
    exact List.length_set
  next hle => exact ⟨iff_of_false nofun hle, nofun⟩

theorem succeedsIff_writeBlock {m n : Nat} (h : buf.length = m) (i : Nat) (xs : Vector α n) :
    SucceedsIff (i + n ≤ m) (fun buf' => buf'.length = m) (writeBlock buf i xs) := by
  subst h
  unfold writeBlock
  split
  next hle =>
    refine SucceedsIff.of_iff (.some ?_) (iff_of_true trivial hle)
    simp
    omega
  next hlt => exact ⟨iff_of_false nofun hlt, nofun⟩

/-! ## Filling from the front -/

/-- The first `n` elements come from `f`, the others are as before. -/
def filled (f : Nat → α) (buf : List α) (n : Nat) : List α := (List.range n).map f ++ buf.drop n

variable {f : Nat → α} {n m : Nat}

@[simp] theorem filled_zero : filled f buf 0 = buf := rfl

/-- Filled from its first element to its last. -/
theorem filled_of_length (h : buf.length = n) : filled f buf n = (List.range n).map f := by
  rw [filled, List.drop_of_length_le h.le, List.append_nil]

theorem length_filled (h : n ≤ buf.length) : (filled f buf n).length = buf.length := by
  rw [filled, List.length_append, List.length_map, List.length_range, List.length_drop,
    Nat.add_sub_cancel' h]

theorem drop_filled (h : n ≤ m) : (filled f buf n).drop m = buf.drop m := by
  obtain ⟨k, rfl⟩ := Nat.exists_eq_add_of_le h
  simp [filled, List.drop_append]

theorem getD_filled {k : Nat} (hk : k < n) (d : α) : (filled f buf n).getD k d = f k := by
  simp [filled, hk, List.getElem?_append_left]

/-- Filled from another buffer. -/
theorem filled_getD {src : List α} (h : n ≤ src.length) (d : α) :
    filled (src.getD · d) buf n = src.take n ++ buf.drop n := by
  rw [filled]
  congr 1
  refine List.ext_getElem (by simp [h]) fun k hk _ => ?_
  have hlt : k < src.length := by
    rw [List.length_map, List.length_range] at hk
    omega
  simp [hlt]

theorem filled_congr {g : Nat → α} (h : ∀ k < n, f k = g k) : filled f buf n = filled g buf n := by
  rw [filled, filled, List.map_congr_left fun k hk => h k (List.mem_range.mp hk)]

theorem write_filled (h : n < buf.length) :
    write (filled f buf n) n (f n) = some (filled f buf (n + 1)) := by
  rw [write, if_pos (h.trans_eq (length_filled h.le).symm)]
  congr 1
  have hset : (buf.drop n).set 0 (f n) = f n :: buf.drop (n + 1) := by
    rw [List.drop_eq_getElem_cons h, List.set_cons_zero]
  rw [filled, filled, List.set_append_right _ _ (by simp), List.range_succ]
  simp [hset]

theorem writeBlock_filled {xs : Vector α m} (h : n + m ≤ buf.length)
    (hxs : ∀ k (hk : k < m), xs[k] = f (n + k)) :
    writeBlock (filled f buf n) n xs = some (filled f buf (n + m)) := by
  have hlength := length_filled (f := f) (Nat.le_of_add_right_le h)
  have hlist : xs.toList = (List.range m).map fun k => f (n + k) := by
    refine List.ext_getElem (by simp) fun k hk _ => ?_
    simpa using hxs k (by simpa using hk)
  rw [writeBlock, if_pos (h.trans_eq hlength.symm), hlist]
  congr 1
  have hfront : (filled f buf n).take n = (List.range n).map f := by
    simp [filled]
  have hback : (filled f buf n).drop (n + m) = buf.drop (n + m) :=
    drop_filled (Nat.le_add_right n m)
  rw [hfront, hback, filled, List.range_add, List.map_append, List.map_map]
  rfl

theorem readBlock_of_le (h : i + n ≤ buf.length) :
    readBlock buf i n = some (.ofFn fun k => buf[i + k.val]) :=
  dif_pos h

end CheckedBuffer
