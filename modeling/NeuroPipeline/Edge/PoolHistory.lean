-- SUMMARY: Histories of the memory pool: which calls of Free keep a block from being handed out twice.
import NeuroPipeline.Edge.MemoryPool
import NeuroPipeline.Lib.TransitionSystem
import Mathlib.Data.List.Nodup

/-!
# Histories of the memory pool

`Free` tests that a pointer lies in the storage, and neither that it is the start of a
block nor that the block is in use. The blocks in use are recorded beside the pool.
-/

structure PoolRun where
  pool : MemoryPool
  outstanding : List UInt64

namespace PoolRun

inductive Call where
  | allocate
  | free (ptr : UInt64)
  deriving DecidableEq

def new (c : MemoryPool.Config) (data : UInt64)
    (fits : data.toNat + c.storageSize.toNat < 2 ^ 64) : PoolRun where
  pool := .new c data fits
  outstanding := []

def allocate (s : PoolRun) : PoolRun where
  pool := s.pool.allocate.1
  outstanding :=
    if s.pool.freeList = [] then s.outstanding else s.pool.allocate.2 :: s.outstanding

/-- A call that throws leaves everything as it is. -/
def free (s : PoolRun) (ptr : UInt64) : PoolRun :=
  if ptr = 0 then s
  else match s.pool.free ptr with
    | .ok pool => ⟨pool, s.outstanding.erase ptr⟩
    | .error _ => s

/-- Any calls, also with pointers that are none of the pool's. -/
def system (c : MemoryPool.Config) (data : UInt64)
    (fits : data.toNat + c.storageSize.toNat < 2 ^ 64) : TransitionSystem PoolRun Call where
  init s := s = new c data fits
  step s
    | .allocate => some s.allocate
    | .free ptr => some (s.free ptr)

/-! ## What is asked of a history -/

/-- No block is handed out twice, and no more are free than there are. -/
def Sound (s : PoolRun) : Prop := s.outstanding.Nodup ∧ s.pool.available ≤ s.pool.capacity

/-- A pointer that is not that of a block in use is rejected. -/
def RejectsOthers (s : PoolRun) : Call → Prop
  | .allocate => True
  | .free ptr => ptr ≠ 0 → ptr ∉ s.outstanding →
      s.pool.free ptr = .error .invalidArgument ∧ s.free ptr = s

def Safe (t : List (PoolRun × Call)) (s : PoolRun) : Prop :=
  TransitionSystem.Throughout Sound t s ∧ TransitionSystem.Respects RejectsOthers t

/-- `Free` is given null, a block in use, or a pointer from outside the storage. -/
def FreesOwn (s : PoolRun) : Call → Prop
  | .allocate => True
  | .free ptr => ptr = 0 ∨ ptr ∈ s.outstanding ∨ s.pool.containsVirt ptr = false

instance (s : PoolRun) : (l : Call) → Decidable (FreesOwn s l)
  | .allocate => inferInstanceAs (Decidable True)
  | .free _ => inferInstanceAs (Decidable (_ ∨ _))

/-- The blocks behind the first do not come back to one another, and none is at the place
that the first one is moved to. -/
structure DistinctBlocks (c : MemoryPool.Config) (data : UInt64) : Prop where
  stride : ∀ d, 0 < d → d + 1 < c.blockCount.toNat → d * c.blockSize.toNat % 2 ^ 64 ≠ 0
  first : ∀ i, 0 < i → i < c.blockCount.toNat →
    (data.toNat + i * c.blockSize.toNat) % 2 ^ 64 ≠ (c.firstBlock data).toNat

/-! ## The blocks at first -/

section

variable {c : MemoryPool.Config} {data : UInt64} {i j : Nat}

theorem block_succ_toNat (hi : 0 < i) : (c.block data i).toNat =
    (data.toNat + i * c.blockSize.toNat) % 2 ^ 64 := by
  rw [MemoryPool.Config.block_of_pos hi, UInt64.toNat_add, UInt64.toNat_mul, UInt64.toNat_ofNat',
    Nat.add_mod_mod, Nat.add_mod, Nat.mod_mul_mod, ← Nat.add_mod]

/-- Two blocks behind the first are one if the distance is a multiple of the word. -/
theorem block_eq_iff (hi : 0 < i) (hij : i ≤ j) :
    c.block data i = c.block data j ↔ (j - i) * c.blockSize.toNat % 2 ^ 64 = 0 := by
  have hsplit : data.toNat + j * c.blockSize.toNat =
      data.toNat + i * c.blockSize.toNat + (j - i) * c.blockSize.toNat := by
    rw [Nat.add_assoc, ← Nat.add_mul, Nat.add_sub_cancel' hij]
  rw [← UInt64.toNat_inj, block_succ_toNat hi, block_succ_toNat (hi.trans_le hij), hsplit]
  omega

theorem nodup_blocks_iff : (c.blocks data).Nodup ↔ DistinctBlocks c data := by
  rw [MemoryPool.Config.blocks, List.nodup_map_iff_inj_on List.nodup_range]
  simp only [List.mem_range]
  constructor
  · intro h
    constructor
    · intro d hd hlt heq
      have hsame : c.block data 1 = c.block data (d + 1) :=
        (block_eq_iff Nat.zero_lt_one (Nat.le_add_left 1 d)).mpr (by rwa [Nat.add_sub_cancel])
      have := h 1 (by omega) (d + 1) hlt hsame
      omega
    · intro i hi hlt heq
      have hsame : c.block data i = c.block data 0 := by
        rw [MemoryPool.Config.block_zero, ← UInt64.toNat_inj, block_succ_toNat hi, heq]
      have := h i hlt 0 (by omega) hsame
      omega
  · rintro ⟨hstride, hfirst⟩
    have hlt : ∀ i j, i < j → j < c.blockCount.toNat → c.block data i ≠ c.block data j := by
      intro i j hij hj heq
      rcases Nat.eq_zero_or_pos i with rfl | hi
      · refine hfirst j hij hj ?_
        rw [← block_succ_toNat hij, ← MemoryPool.Config.block_zero, heq]
      · exact hstride (j - i) (by omega) (by omega) ((block_eq_iff hi hij.le).mp heq)
    intro i hi j hj heq
    rcases Nat.lt_trichotomy i j with h | h | h
    · exact absurd heq (hlt i j h hj)
    · exact h
    · exact absurd heq.symm (hlt j i h hi)

/-- If the size does not wrap, no block is twice in the list unless the blocks are empty or
the first one is moved onto a later one. -/
theorem distinctBlocks_iff (hwrap : c.NoWrap)
    (fits : data.toNat + c.storageSize.toNat < 2 ^ 64) :
    DistinctBlocks c data ↔ (c.blockCount.toNat ≤ 2 ∨ 0 < c.blockSize.toNat) ∧
      ∀ i, 0 < i → i < c.blockCount.toNat → i * c.blockSize.toNat ≠ c.shift data := by
  have hsize := MemoryPool.Config.storageSize_of_noWrap hwrap
  have hfirst := (MemoryPool.Config.firstBlock_toNat hwrap fits).1
  have hoffset : ∀ i, i < c.blockCount.toNat →
      data.toNat + i * c.blockSize.toNat < 2 ^ 64 := by
    intro i hi
    have hle := MemoryPool.Config.stride_le_size hi
    omega
  constructor
  · rintro ⟨hstride, hstart⟩
    refine ⟨or_iff_not_imp_left.mpr fun hcount => ?_, fun i hi hlt heq => ?_⟩
    · refine Nat.pos_of_ne_zero fun hzero => hstride 1 Nat.zero_lt_one (by omega) ?_
      rw [hzero, Nat.mul_zero, Nat.zero_mod]
    · refine hstart i hi hlt ?_
      rw [Nat.mod_eq_of_lt (hoffset i hlt), hfirst, heq]
  · rintro ⟨hsizes, hshift⟩
    constructor
    · intro d hd hlt heq
      rw [Nat.mod_eq_of_lt (lt_of_le_of_lt (Nat.le_add_left _ _) (hoffset d (by omega)))] at heq
      rcases Nat.mul_eq_zero.mp heq with h | h
      · omega
      · omega
    · intro i hi hlt heq
      rw [Nat.mod_eq_of_lt (hoffset i hlt), hfirst] at heq
      exact hshift i hi hlt (Nat.add_left_cancel heq)

end

/-! ## Runs -/

section

variable {c : MemoryPool.Config} {data : UInt64} {fits : data.toNat + c.storageSize.toNat < 2 ^ 64}
  {s s' : PoolRun} {l : Call} {ptr : UInt64} {n : Nat}

theorem free_eq_error_iff {p : MemoryPool} :
    p.free ptr = .error .invalidArgument ↔ ptr ≠ 0 ∧ p.containsVirt ptr = false := by
  rw [MemoryPool.free, MemoryPool.containsVirt, Bool.and_eq_false_iff, decide_eq_false_iff_not,
    decide_eq_false_iff_not, UInt64.not_le, UInt64.not_lt]
  split
  · next hnull => simp [hnull]
  · next hnull =>
    split
    · next hout => exact iff_of_true rfl ⟨hnull, hout⟩
    · next hin => exact iff_of_false (by simp) fun h => hin h.2

theorem free_of_error (h : s.pool.free ptr = .error .invalidArgument) : s.free ptr = s := by
  rw [free, h, ite_self]

theorem rejectsOthers_iff_freesOwn : RejectsOthers s l ↔ FreesOwn s l := by
  cases l with
  | allocate => exact Iff.rfl
  | free ptr =>
      rw [RejectsOthers, FreesOwn]
      constructor
      · intro h
        refine or_iff_not_imp_left.mpr fun hnull => or_iff_not_imp_left.mpr fun hmem => ?_
        exact (free_eq_error_iff.mp (h hnull hmem).1).2
      · intro h hnull hmem
        have herror : s.pool.free ptr = .error .invalidArgument :=
          free_eq_error_iff.mpr ⟨hnull, (h.resolve_left hnull).resolve_left hmem⟩
        exact ⟨herror, free_of_error herror⟩

/-- The blocks of the pool, free or in use, each as often as at first. -/
structure Held (c : MemoryPool.Config) (data : UInt64) (s : PoolRun) : Prop where
  config : s.pool.config = c
  blocks : (s.pool.freeList ++ s.outstanding).Perm (c.blocks data)

theorem held_new : Held c data (new c data fits) where
  config := rfl
  blocks := by
    rw [new, MemoryPool.new, List.append_nil]

theorem Held.allocate (h : Held c data s) : Held c data s.allocate := by
  rcases List.eq_nil_or_concat' s.pool.freeList with hnil | ⟨rest, ptr, hlist⟩
  · have hpool : s.pool.allocate.1 = s.pool := by simp [MemoryPool.allocate, hnil]
    rw [PoolRun.allocate, hpool, if_pos hnil]
    exact h
  · obtain ⟨hptr, hrest⟩ := MemoryPool.allocate_of_snoc hlist
    have hconfig : s.pool.allocate.1.config = s.pool.config := by
      simp [MemoryPool.allocate, hlist]
    have hne : s.pool.freeList ≠ [] := by simp [hlist]
    constructor
    · exact hconfig.trans h.config
    · -- the block moves from the end of the one list to the head of the other
      have hblocks := h.blocks
      rw [hlist, List.append_assoc, List.singleton_append] at hblocks
      rwa [PoolRun.allocate, if_neg hne, hptr, hrest]

theorem Held.free (h : Held c data s) (hown : FreesOwn s (.free ptr)) :
    Held c data (s.free ptr) := by
  rw [PoolRun.free]
  split
  · exact h
  · next hnull =>
    split
    · next pool hfree =>
      have hcontains : ¬ s.pool.containsVirt ptr = false := by
        intro hout
        rw [free_eq_error_iff.mpr ⟨hnull, hout⟩] at hfree
        cases hfree
      have hmem : ptr ∈ s.outstanding := (hown.resolve_left hnull).resolve_right hcontains
      rw [MemoryPool.free, if_neg hnull] at hfree
      split at hfree
      · cases hfree
      · cases hfree
        refine ⟨h.config, ?_⟩
        rw [List.append_assoc, List.singleton_append]
        exact ((List.perm_cons_erase hmem).symm.append_left _).trans h.blocks
    · exact h

theorem held_step (h : Held c data s) (hown : FreesOwn s l)
    (hs : (system c data fits).step s l = some s') : Held c data s' := by
  cases l with
  | allocate =>
      cases hs
      exact h.allocate
  | free ptr =>
      cases hs
      exact h.free hown

theorem Held.sound (h : Held c data s) (hdistinct : DistinctBlocks c data) : Sound s := by
  have hnodup : (s.pool.freeList ++ s.outstanding).Nodup :=
    h.blocks.nodup_iff.mpr (nodup_blocks_iff.mpr hdistinct)
  have hlength := h.blocks.length_eq
  rw [List.length_append, MemoryPool.length_blocks] at hlength
  refine ⟨hnodup.of_append_right, ?_⟩
  rw [MemoryPool.available, MemoryPool.capacity, h.config]
  omega

/-- Calls of `Allocate` until no block is left. -/
theorem run_allocate (hlist : s.pool.freeList.length = n) :
    ∃ t s', (system c data fits).Run s t s' ∧ (∀ p ∈ t, p.2 = .allocate) ∧
      s'.pool.freeList = [] := by
  induction n generalizing s with
  | zero => exact ⟨[], s, .nil, by simp, List.length_eq_zero_iff.mp hlist⟩
  | succ n ih =>
      obtain ⟨rest, ptr, hsnoc⟩ := (List.eq_nil_or_concat' s.pool.freeList).resolve_left
        (List.ne_nil_of_length_eq_add_one hlist)
      have hrest : s.allocate.pool.freeList = rest := (MemoryPool.allocate_of_snoc hsnoc).2
      obtain ⟨t, s', hrun, hlabels, hempty⟩ := ih (s := s.allocate) (by
        rw [hrest]
        simpa [hsnoc] using hlist)
      exact ⟨(s, .allocate) :: t, s', hrun.cons rfl, by simpa using hlabels, hempty⟩

/-- If the blocks differ, a history is safe exactly when `Free` gets no pointer into the
storage that is not that of a block in use; if two are one, calls of `Allocate` are
enough to hand it out twice. -/
theorem safe_iff (c : MemoryPool.Config) (data : UInt64)
    (fits : data.toNat + c.storageSize.toNat < 2 ^ 64) :
    (DistinctBlocks c data → ∀ t s, (system c data fits).Run (new c data fits) t s →
      (Safe t s ↔ TransitionSystem.Respects FreesOwn t)) ∧
    (¬ DistinctBlocks c data → ∃ t s, (system c data fits).Run (new c data fits) t s ∧
      (∀ p ∈ t, p.2 = .allocate) ∧ ¬ Safe t s) := by
  constructor
  · intro hdistinct t s hrun
    have hrejects : TransitionSystem.Respects RejectsOthers t ↔
        TransitionSystem.Respects FreesOwn t :=
      forall₂_congr fun _ _ => rejectsOthers_iff_freesOwn
    rw [Safe, hrejects]
    refine and_iff_right_of_imp fun hown => ⟨fun p hp => ?_, ?_⟩
    · exact (hrun.invariant_trace_of_respects (fun _ _ _ hI hC hs => held_step hI hC hs)
        held_new hown p hp).sound hdistinct
    · exact (hrun.invariant_of_respects (fun _ _ _ hI hC hs => held_step hI hC hs)
        held_new hown).sound hdistinct
  · intro hsame
    have hlist : (new c data fits).pool.freeList.length = (c.blocks data).length := rfl
    obtain ⟨t, s, hrun, hlabels, hempty⟩ : ∃ t s, (system c data fits).Run (new c data fits) t s ∧
        (∀ p ∈ t, p.2 = .allocate) ∧ s.pool.freeList = [] := run_allocate hlist
    -- with every block handed out, those in use are the list that the pool began with
    refine ⟨t, s, hrun, hlabels, fun hsafe => hsame (nodup_blocks_iff.mp ?_)⟩
    have hown : TransitionSystem.Respects FreesOwn t := by
      intro p hp
      rw [hlabels p hp]
      trivial
    have hheld : Held c data s :=
      hrun.invariant_of_respects (fun _ _ _ hI hC hs => held_step hI hC hs) held_new hown
    have hblocks := hheld.blocks
    rw [hempty, List.nil_append] at hblocks
    exact hblocks.nodup_iff.mp hsafe.1.2.1

end

theorem safe_iff_two :
    ∃ t s, (system ⟨16, 2, 0x10000000, 0⟩ 4096 (by decide)).Run
        (new ⟨16, 2, 0x10000000, 0⟩ 4096 (by decide)) t s ∧
      t.map Prod.snd = [.allocate, .allocate, .free 4112, .free 8192, .allocate] ∧
      s.outstanding = [4112, 4096] ∧ Safe t s := by
  have hdistinct : DistinctBlocks ⟨16, 2, 0x10000000, 0⟩ 4096 :=
    nodup_blocks_iff.mp (by decide)
  have hview : ((system ⟨16, 2, 0x10000000, 0⟩ 4096 (by decide)).execTrace
      (new ⟨16, 2, 0x10000000, 0⟩ 4096 (by decide))
      [.allocate, .allocate, .free 4112, .free 8192, .allocate]).map
      (fun r => (r.2.outstanding, decide (TransitionSystem.Respects FreesOwn r.1))) =
      some ([4112, 4096], true) := by decide +kernel
  obtain ⟨t, s, hrun, hcalls, hlast⟩ := TransitionSystem.exists_run_of_execTrace hview
  obtain ⟨hend, hown⟩ := Prod.mk.inj hlast
  exact ⟨t, s, hrun, hcalls, hend,
    ((safe_iff _ _ _).1 hdistinct t s hrun).mpr (of_decide_eq_true hown)⟩

/-- The one block is freed two times, and then handed out two times. -/
theorem not_safe_doubleFree :
    (¬ ∀ c data fits t s, (system c data fits).Run (new c data fits) t s → Safe t s) ∧
    ∃ t s, (system ⟨16, 1, 0x10000000, 0⟩ 4096 (by decide)).Run
        (new ⟨16, 1, 0x10000000, 0⟩ 4096 (by decide)) t s ∧
      t.map Prod.snd = [.allocate, .free 4096, .free 4096, .allocate, .allocate] ∧
      s.outstanding = [4096, 4096] := by
  have hview : ((system ⟨16, 1, 0x10000000, 0⟩ 4096 (by decide)).execTrace
      (new ⟨16, 1, 0x10000000, 0⟩ 4096 (by decide))
      [.allocate, .free 4096, .free 4096, .allocate, .allocate]).map
      (fun r => r.2.outstanding) = some [4096, 4096] := by decide +kernel
  obtain ⟨t, s, hrun, hcalls, hend⟩ := TransitionSystem.exists_run_of_execTrace hview
  refine ⟨fun hclaim => ?_, t, s, hrun, hcalls, hend⟩
  have hnodup := (hclaim _ _ _ t s hrun).1.2.1
  rw [hend] at hnodup
  exact absurd hnodup (by decide)

end PoolRun
