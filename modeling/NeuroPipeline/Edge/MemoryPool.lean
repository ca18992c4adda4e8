-- SUMMARY: The memory pool: its blocks and their addresses, exactly when they are disjoint and aligned, and its address translation.
import NeuroPipeline.Lib.ByteRange
import NeuroPipeline.Lib.Strto
import Mathlib.Tactic.Ring

/-!
# Memory pool

Model of memory_pool.cpp. Addresses and sizes are 64-bit words. Where the vector has its
bytes is up to the allocator; a pool exists only where they could be allocated.
-/

structure MemoryPool.Config where
  blockSize : UInt64
  blockCount : UInt64
  physBaseAddr : UInt64 := 0x10000000
  alignment : UInt64 := 0
  deriving DecidableEq

/-- The bytes of `storage_`, one past which is still an address. -/
structure MemoryPool.Storage where
  data : UInt64
  size : UInt64
  fits : data.toNat + size.toNat < 2 ^ 64

structure MemoryPool.Stats where
  totalAllocations : UInt64 := 0
  totalFrees : UInt64 := 0
  peakUsage : UInt64 := 0
  deriving DecidableEq

structure MemoryPool where
  config : MemoryPool.Config
  storage : MemoryPool.Storage
  freeList : List UInt64
  stats : MemoryPool.Stats := {}

namespace MemoryPool

/-! ## The operations -/

/-- The size that the vector is constructed with, in `size_t`. -/
def Config.storageSize (c : Config) : UInt64 :=
  c.blockSize * c.blockCount + if 0 < c.alignment then c.alignment else 0

/-- Only the first block is aligned. -/
def Config.block (c : Config) (data : UInt64) (i : Nat) : UInt64 :=
  let ptr := data + UInt64.ofNat i * c.blockSize
  if 0 < c.alignment then
    let aligned := (ptr + c.alignment - 1) &&& ~~~(c.alignment - 1)
    if i = 0 ∧ aligned ≠ ptr then aligned else ptr
  else ptr

def Config.blocks (c : Config) (data : UInt64) : List UInt64 :=
  (List.range c.blockCount.toNat).map (c.block data)

def new (c : Config) (data : UInt64) (fits : data.toNat + c.storageSize.toNat < 2 ^ 64) :
    MemoryPool where
  config := c
  storage := ⟨data, c.storageSize, fits⟩
  freeList := c.blocks data

/-- The null pointer is 0. -/
def allocate (p : MemoryPool) : MemoryPool × UInt64 :=
  match p.freeList.getLast? with
  | none => (p, 0)
  | some ptr =>
    let freeList := p.freeList.dropLast
    let inUse := p.config.blockCount - UInt64.ofNat freeList.length
    ({ p with
      freeList := freeList
      stats := { p.stats with
        totalAllocations := p.stats.totalAllocations + 1
        peakUsage := if p.stats.peakUsage < inUse then inUse else p.stats.peakUsage } }, ptr)

def free (p : MemoryPool) (ptr : UInt64) : Except StdException MemoryPool :=
  if ptr = 0 then .ok p
  else if ptr < p.storage.data ∨ p.storage.data + p.storage.size ≤ ptr then
    .error .invalidArgument
  else .ok { p with
    freeList := p.freeList ++ [ptr]
    stats := { p.stats with totalFrees := p.stats.totalFrees + 1 } }

def available (p : MemoryPool) : Nat := p.freeList.length

def capacity (p : MemoryPool) : Nat := p.config.blockCount.toNat

def physEndAddr (p : MemoryPool) : UInt64 :=
  p.config.physBaseAddr + p.config.blockSize * p.config.blockCount

def containsVirt (p : MemoryPool) (addr : UInt64) : Bool :=
  p.storage.data ≤ addr && addr < p.storage.data + p.storage.size

def containsPhys (p : MemoryPool) (addr : UInt64) : Bool :=
  p.config.physBaseAddr ≤ addr && addr < p.physEndAddr

def virtToPhys (p : MemoryPool) (addr : UInt64) : UInt64 :=
  if p.containsVirt addr then p.config.physBaseAddr + (addr - p.storage.data) else 0

def physToVirt (p : MemoryPool) (addr : UInt64) : UInt64 :=
  if p.containsPhys addr then p.storage.data + (addr - p.config.physBaseAddr) else 0

/-- What so many calls of `Allocate` return. -/
def handedOut : Nat → MemoryPool → List UInt64
  | 0, _ => []
  | n + 1, p => p.allocate.2 :: handedOut n p.allocate.1

theorem allocate_of_snoc {p : MemoryPool} {rest : List UInt64} {ptr : UInt64}
    (h : p.freeList = rest ++ [ptr]) : p.allocate.2 = ptr ∧ p.allocate.1.freeList = rest := by
  simp [allocate, h]

/-- The whole free list is handed out from its end. -/
theorem handedOut_eq {p : MemoryPool} : handedOut p.freeList.length p = p.freeList.reverse := by
  generalize hlist : p.freeList = list
  induction list using List.reverseRecOn generalizing p with
  | nil => rfl
  | append_singleton rest ptr ih =>
      obtain ⟨hptr, hrest⟩ := allocate_of_snoc hlist
      rw [List.length_append, List.length_singleton, handedOut, hptr, ih hrest,
        List.reverse_append, List.reverse_singleton, List.singleton_append]

/-! ## The numbers behind the words -/

/-- The size of the storage is one of `size_t`. -/
def Config.NoWrap (c : Config) : Prop :=
  c.blockSize.toNat * c.blockCount.toNat + c.alignment.toNat < 2 ^ 64

/-- Bytes from an address to the next multiple of the alignment. -/
def Config.pad (c : Config) (data : UInt64) : Nat :=
  (c.alignment.toNat - data.toNat % c.alignment.toNat) % c.alignment.toNat

/-- Where the first block is. -/
def Config.firstBlock (c : Config) (data : UInt64) : UInt64 :=
  if 0 < c.alignment then (data + c.alignment - 1) &&& ~~~(c.alignment - 1) else data

/-- How far the first block is moved. -/
def Config.shift (c : Config) (data : UInt64) : Nat := (c.firstBlock data).toNat - data.toNat

/-- Zero or a power of two. -/
def Config.ValidAlignment (c : Config) : Prop :=
  c.alignment = 0 ∨ ∃ k < 64, c.alignment.toNat = 2 ^ k

namespace Config

variable {c : Config} {data : UInt64} {i : Nat}

theorem storageSize_toNat (c : Config) : c.storageSize.toNat =
    (c.blockSize.toNat * c.blockCount.toNat + c.alignment.toNat) % 2 ^ 64 := by
  have halign : (if 0 < c.alignment then c.alignment else 0) = c.alignment := by
    split
    · rfl
    · next h => exact (UInt64.le_zero_iff.mp (UInt64.not_lt.mp h)).symm
  rw [storageSize, halign, UInt64.toNat_add, UInt64.toNat_mul, Nat.mod_add_mod]

theorem storageSize_of_noWrap (h : c.NoWrap) : c.storageSize.toNat =
    c.blockSize.toNat * c.blockCount.toNat + c.alignment.toNat := by
  rw [storageSize_toNat, Nat.mod_eq_of_lt h]

/-- A size that wraps has not room for the blocks. -/
theorem storageSize_lt_of_wrap (h : ¬ c.NoWrap) :
    c.storageSize.toNat < c.blockSize.toNat * c.blockCount.toNat := by
  have hbound := c.alignment.toNat_lt
  rw [NoWrap] at h
  rw [storageSize_toNat]
  omega

theorem pad_lt (h : 0 < c.alignment.toNat) : c.pad data < c.alignment.toNat := Nat.mod_lt _ h

theorem pad_le (h : c.ValidAlignment) : c.pad data ≤ c.alignment.toNat := by
  rcases h with hzero | ⟨k, -, hpow⟩
  · simp [pad, hzero]
  · exact (pad_lt (hpow ▸ Nat.two_pow_pos k)).le

theorem alignUp_eq (h : 0 < c.alignment.toNat) :
    ByteRange.alignUp c.alignment.toNat data.toNat = data.toNat + c.pad data :=
  ByteRange.alignUp_eq_add h _

theorem alignment_pos_iff (c : Config) : 0 < c.alignment ↔ 0 < c.alignment.toNat := by
  rw [UInt64.lt_iff_toNat_lt, UInt64.toNat_zero]

theorem block_zero (c : Config) (data : UInt64) : c.block data 0 = c.firstBlock data := by
  have hzero : data + UInt64.ofNat 0 * c.blockSize = data := by simp
  rw [block, firstBlock, hzero]
  split
  · dsimp only
    split
    · rfl
    · next hsame => exact (not_not.mp (not_and.mp hsame rfl)).symm
  · rfl

theorem block_of_pos (hi : 0 < i) : c.block data i = data + UInt64.ofNat i * c.blockSize := by
  rw [block]
  split
  · dsimp only
    rw [if_neg (fun h => hi.ne' h.1)]
  · rfl

/-- The first block is moved by less than the alignment. -/
theorem firstBlock_toNat (hwrap : c.NoWrap) (fits : data.toNat + c.storageSize.toNat < 2 ^ 64) :
    (c.firstBlock data).toNat = data.toNat + c.shift data ∧
      c.shift data ≤ c.alignment.toNat := by
  have hsize := storageSize_of_noWrap hwrap
  have hbounds : data.toNat ≤ (c.firstBlock data).toNat ∧
      (c.firstBlock data).toNat ≤ data.toNat + c.alignment.toNat := by
    rw [firstBlock]
    split
    · next hpos =>
      have hroom : data.toNat + c.alignment.toNat ≤ 2 ^ 64 := by omega
      obtain ⟨hlo, hhi⟩ := ByteRange.mask_bounds ((alignment_pos_iff c).mp hpos) hroom
      exact ⟨hlo, hhi.le⟩
    · exact ⟨le_rfl, Nat.le_add_right _ _⟩
  rw [shift]
  omega

/-- With an alignment that is a power of two it is moved to the next multiple. -/
theorem shift_eq_pad (hwrap : c.NoWrap) (halign : c.ValidAlignment)
    (fits : data.toNat + c.storageSize.toNat < 2 ^ 64) : c.shift data = c.pad data := by
  have hsize := storageSize_of_noWrap hwrap
  rcases halign with hzero | ⟨k, hk, hpow⟩
  · have hle := (firstBlock_toNat hwrap fits).2
    rw [hzero, UInt64.toNat_zero, Nat.le_zero] at hle
    rw [hle, pad, hzero]
    simp
  · have hpos : 0 < c.alignment.toNat := hpow ▸ Nat.two_pow_pos k
    have hroom : data.toNat + c.alignment.toNat ≤ 2 ^ 64 := by omega
    have hmask := ByteRange.toNat_mask hk hpow hroom
    rw [shift, firstBlock, if_pos ((alignment_pos_iff c).mpr hpos), hmask, alignUp_eq hpos,
      Nat.add_sub_cancel_left]

theorem stride_le (c : Config) {i j : Nat} (h : i < j) :
    i * c.blockSize.toNat + c.blockSize.toNat ≤ j * c.blockSize.toNat := by
  rw [← Nat.succ_mul]
  exact Nat.mul_le_mul_right _ h

theorem stride_le_size (hi : i < c.blockCount.toNat) :
    i * c.blockSize.toNat + c.blockSize.toNat ≤ c.blockSize.toNat * c.blockCount.toNat :=
  (c.stride_le hi).trans_eq (Nat.mul_comm _ _)

/-- Where the blocks are, if the size does not wrap. -/
theorem block_toNat (hwrap : c.NoWrap) (fits : data.toNat + c.storageSize.toNat < 2 ^ 64)
    (hi : i < c.blockCount.toNat) : (c.block data i).toNat =
      data.toNat + if i = 0 then c.shift data else i * c.blockSize.toNat := by
  split
  · next hfirst => rw [hfirst, block_zero, (firstBlock_toNat hwrap fits).1]
  · next hlater =>
    have hsize := storageSize_of_noWrap hwrap
    have hoffset := stride_le_size hi
    rw [block_of_pos (Nat.pos_of_ne_zero hlater), UInt64.toNat_add, UInt64.toNat_mul,
      UInt64.toNat_ofNat_of_lt' (hi.trans c.blockCount.toNat_lt), Nat.add_mod_mod]
    exact Nat.mod_eq_of_lt (by omega)

end Config

/-! ## Disjoint and aligned blocks -/

/-- Blocks from these addresses on are disjoint, inside the storage, and aligned. -/
structure LaidOut (p : MemoryPool) (starts : List UInt64) : Prop where
  disjoint : starts.Pairwise fun a b =>
    Disjoint (bytes a.toNat p.config.blockSize.toNat) (bytes b.toNat p.config.blockSize.toNat)
  inside : ∀ a ∈ starts, p.storage.data.toNat ≤ a.toNat ∧
    a.toNat + p.config.blockSize.toNat ≤ p.storage.data.toNat + p.storage.size.toNat
  aligned : 0 < p.config.alignment.toNat → ∀ a ∈ starts, p.config.alignment.toNat ∣ a.toNat

theorem laidOut_reverse {p : MemoryPool} {starts : List UInt64} :
    LaidOut p starts.reverse ↔ LaidOut p starts := by
  have hpairs := List.pairwise_reverse (l := starts) (R := fun a b =>
    Disjoint (bytes a.toNat p.config.blockSize.toNat) (bytes b.toNat p.config.blockSize.toNat))
  constructor
  · rintro ⟨hdisjoint, hinside, haligned⟩
    refine ⟨(hpairs.mp hdisjoint).imp fun h => h.symm, ?_, ?_⟩
    · exact fun a ha => hinside a (List.mem_reverse.mpr ha)
    · exact fun hpos a ha => haligned hpos a (List.mem_reverse.mpr ha)
  · rintro ⟨hdisjoint, hinside, haligned⟩
    refine ⟨hpairs.mpr (hdisjoint.imp fun h => h.symm), ?_, ?_⟩
    · exact fun a ha => hinside a (List.mem_reverse.mp ha)
    · exact fun hpos a ha => haligned hpos a (List.mem_reverse.mp ha)

section

variable {c : Config} {data : UInt64} {fits : data.toNat + c.storageSize.toNat < 2 ^ 64}

theorem length_blocks (c : Config) (data : UInt64) :
    (c.blocks data).length = c.blockCount.toNat := by
  rw [Config.blocks, List.length_map, List.length_range]

theorem block_mem_blocks {i : Nat} (hi : i < c.blockCount.toNat) :
    c.block data i ∈ c.blocks data :=
  List.mem_map_of_mem (List.mem_range.mpr hi)

/-- No block leaves storage whose size does not wrap: the first one is moved by no more than
the bytes that are added for the alignment. -/
theorem block_inside (hwrap : c.NoWrap) (fits : data.toNat + c.storageSize.toNat < 2 ^ 64)
    {i : Nat} (hi : i < c.blockCount.toNat) : data.toNat ≤ (c.block data i).toNat ∧
      (c.block data i).toNat + c.blockSize.toNat ≤ data.toNat + c.storageSize.toNat := by
  have hsize := Config.storageSize_of_noWrap hwrap
  have hshift := (Config.firstBlock_toNat hwrap fits).2
  have hend := Config.stride_le_size hi
  rw [Config.block_toNat hwrap fits hi]
  split
  · omega
  · omega

/-- Blocks that are all at multiples of the block size from the start. -/
theorem laidOut_of_pad (hwrap : c.NoWrap) (halign : c.ValidAlignment)
    (hpad : c.blockCount.toNat ≤ 1 ∨ c.pad data = 0)
    (hdvd : 0 < c.alignment.toNat → 1 < c.blockCount.toNat →
      c.alignment.toNat ∣ data.toNat ∧ c.alignment.toNat ∣ c.blockSize.toNat) :
    LaidOut (new c data fits) (c.blocks data) := by
  have hplace := fun i hi => Config.block_toNat (i := i) hwrap fits hi
  rw [Config.shift_eq_pad hwrap halign fits] at hplace
  constructor
  · refine List.pairwise_map.mpr (List.pairwise_lt_range.imp_of_mem ?_)
    intro i j _ hj hij
    have hj := List.mem_range.mp hj
    have hnext := c.stride_le hij
    refine ByteRange.disjoint_bytes_iff.mpr (.inr (.inl ?_))
    change (c.block data i).toNat + c.blockSize.toNat ≤ (c.block data j).toNat
    rw [hplace i (hij.trans hj), hplace j hj, if_neg (by omega : ¬ j = 0)]
    split
    · next hzero =>
      rw [hzero] at hnext
      omega
    · omega
  · intro a ha
    obtain ⟨i, hi, rfl⟩ := List.mem_map.mp ha
    exact block_inside hwrap fits (List.mem_range.mp hi)
  · intro hpos a ha
    obtain ⟨i, hi, rfl⟩ := List.mem_map.mp ha
    have hi := List.mem_range.mp hi
    change c.alignment.toNat ∣ (c.block data i).toNat
    rw [hplace i hi]
    split
    · rw [← Config.alignUp_eq (c := c) hpos]
      exact ByteRange.dvd_alignUp _ _
    · obtain ⟨hdata, hblock⟩ := hdvd hpos (by omega)
      exact Nat.dvd_add hdata (Nat.dvd_mul_left_of_dvd hblock _)

/-- The first two blocks show whether the start and the stride are aligned. -/
theorem dvd_of_laidOut (hwrap : c.NoWrap) (halign : c.ValidAlignment)
    (hcount : 1 < c.blockCount.toNat) (hpos : 0 < c.alignment.toNat)
    (h : LaidOut (new c data fits) (c.blocks data)) :
    c.alignment.toNat ∣ data.toNat ∧ c.alignment.toNat ∣ c.blockSize.toNat := by
  have hfirst := Config.block_toNat hwrap fits (by omega : 0 < c.blockCount.toNat)
  have hsecond := Config.block_toNat hwrap fits hcount
  rw [if_pos rfl, Config.shift_eq_pad hwrap halign fits] at hfirst
  rw [if_neg Nat.one_ne_zero, Nat.one_mul] at hsecond
  have hpair := List.pairwise_iff_getElem.mp h.disjoint 0 1
    (by rw [length_blocks]; omega) (by rw [length_blocks]; omega) Nat.zero_lt_one
  simp only [Config.blocks, List.getElem_map, List.getElem_range] at hpair
  have hapart := ByteRange.disjoint_bytes_iff.mp hpair
  rw [hfirst, hsecond] at hapart
  change c.blockSize.toNat = 0 ∨ data.toNat + c.pad data + c.blockSize.toNat ≤
      data.toNat + c.blockSize.toNat ∨ data.toNat + c.blockSize.toNat + c.blockSize.toNat ≤
      data.toNat + c.pad data at hapart
  have hdvd : c.alignment.toNat ∣ data.toNat + c.blockSize.toNat := by
    rw [← hsecond]
    exact h.aligned hpos _ (block_mem_blocks hcount)
  -- the second block is aligned, so it is not before the first multiple
  have hle : data.toNat + c.pad data ≤ data.toNat + c.blockSize.toNat := by
    rw [← Config.alignUp_eq hpos]
    exact ByteRange.alignUp_le hpos hdvd (Nat.le_add_right _ _)
  have hzero : c.pad data = 0 := by omega
  have hdata : c.alignment.toNat ∣ data.toNat := by
    rw [← ByteRange.alignUp_eq_self_iff hpos, Config.alignUp_eq hpos, hzero, Nat.add_zero]
  exact ⟨hdata, (Nat.dvd_add_right hdata).mp hdvd⟩

theorem noWrap_of_laidOut (h : LaidOut (new c data fits) (c.blocks data)) : c.NoWrap := by
  by_contra hwrap
  have hlt := Config.storageSize_lt_of_wrap hwrap
  have hapart : ((c.blocks data).map UInt64.toNat).Pairwise fun a b =>
      Disjoint (bytes a c.blockSize.toNat) (bytes b c.blockSize.toNat) :=
    List.pairwise_map.mpr h.disjoint
  have hinside : ∀ a ∈ (c.blocks data).map UInt64.toNat, data.toNat ≤ a ∧
      a + c.blockSize.toNat ≤ data.toNat + c.storageSize.toNat := by
    intro a ha
    obtain ⟨b, hb, rfl⟩ := List.mem_map.mp ha
    exact h.inside b hb
  have hroom := ByteRange.length_mul_le hapart hinside
  rw [List.length_map, length_blocks, Nat.mul_comm] at hroom
  omega

theorem pad_eq_zero_of_dvd (h : 0 < c.alignment.toNat → c.alignment.toNat ∣ data.toNat)
    (halign : c.ValidAlignment) : c.pad data = 0 := by
  rcases Nat.eq_zero_or_pos c.alignment.toNat with hzero | hpos
  · have hle : c.pad data ≤ c.alignment.toNat := Config.pad_le halign
    omega
  · have hself := (ByteRange.alignUp_eq_self_iff hpos).mpr (h hpos)
    rw [Config.alignUp_eq hpos] at hself
    omega

theorem handedOut_new (c : Config) (data : UInt64)
    (fits : data.toNat + c.storageSize.toNat < 2 ^ 64) :
    handedOut c.blockCount.toNat (new c data fits) = (c.blocks data).reverse := by
  rw [← length_blocks c data]
  exact handedOut_eq (p := new c data fits)

/-- The blocks of a pool are as they should be exactly when there are none, or the size
does not wrap and either no alignment is asked for, or there is one block, or start and
stride are aligned. -/
theorem laidOut_iff (halign : c.ValidAlignment) :
    LaidOut (new c data fits) (handedOut c.blockCount.toNat (new c data fits)) ↔
      c.blockCount.toNat = 0 ∨
        c.blockSize.toNat * c.blockCount.toNat + c.alignment.toNat < 2 ^ 64 ∧
          (c.alignment.toNat = 0 ∨ c.blockCount.toNat = 1 ∨
            c.alignment.toNat ∣ data.toNat ∧ c.alignment.toNat ∣ c.blockSize.toNat) := by
  rw [handedOut_new, laidOut_reverse]
  constructor
  · intro h
    rcases Nat.eq_zero_or_pos c.blockCount.toNat with hnone | hsome
    · exact .inl hnone
    · have hwrap := noWrap_of_laidOut h
      refine .inr ⟨hwrap, ?_⟩
      rcases Nat.eq_zero_or_pos c.alignment.toNat with hzero | hpos
      · exact .inl hzero
      · refine .inr ((Nat.eq_or_lt_of_le hsome).imp Eq.symm fun hcount => ?_)
        exact dvd_of_laidOut hwrap halign hcount hpos h
  · rintro (hnone | ⟨hwrap, hcases⟩)
    · have hempty : c.blocks data = [] := by
        rw [← List.length_eq_zero_iff, length_blocks, hnone]
      rw [hempty]
      exact ⟨.nil, by simp, by simp⟩
    · rcases hcases with hzero | hone | ⟨hdata, hblock⟩
      · exact laidOut_of_pad hwrap halign
          (.inr (pad_eq_zero_of_dvd (fun hpos => absurd hpos (by omega)) halign))
          (fun hpos => absurd hpos (by omega))
      · exact laidOut_of_pad hwrap halign (.inl hone.le) (fun _ hcount => absurd hcount (by omega))
      · exact laidOut_of_pad hwrap halign (.inr (pad_eq_zero_of_dvd (fun _ => hdata) halign))
          (fun _ _ => ⟨hdata, hblock⟩)

end

/-- Ten blocks of 4096 bytes in aligned storage. -/
theorem laidOut_iff_page :
    LaidOut (new ⟨4096, 10, 0x10000000, 64⟩ 8192 (by decide))
      (handedOut 10 (new ⟨4096, 10, 0x10000000, 64⟩ 8192 (by decide))) :=
  (laidOut_iff (c := ⟨4096, 10, 0x10000000, 64⟩) (.inr ⟨6, by decide, by decide⟩)).mpr
    (by decide)

/-- In storage that starts 16 bytes after a multiple of 64, the first of two blocks of 64
bytes is moved into the second. -/
theorem not_laidOut_shifted :
    ¬ ∀ (c : Config) (data : UInt64) (fits : data.toNat + c.storageSize.toNat < 2 ^ 64),
      c.ValidAlignment →
        LaidOut (new c data fits) (handedOut c.blockCount.toNat (new c data fits)) := by
  intro hclaim
  have h := hclaim ⟨64, 2, 0x10000000, 64⟩ 4112 (by decide) (.inr ⟨6, by decide, by decide⟩)
  have hoverlap : ¬ Disjoint (bytes 4176 64) (bytes 4160 64) := by
    rw [ByteRange.disjoint_bytes_iff]
    decide
  exact hoverlap ((List.pairwise_cons.mp h.disjoint).1 4160 (by decide))

/-! ## Address translation -/

/-- Every byte of a block is translated to a physical address of the pool and back, and
every physical address is that of its translation. -/
structure Translates (p : MemoryPool) (starts : List UInt64) : Prop where
  virt : ∀ a ∈ starts, ∀ x : UInt64, x.toNat ∈ bytes a.toNat p.config.blockSize.toNat →
    p.physToVirt (p.virtToPhys x) = x ∧
      p.config.physBaseAddr ≤ p.virtToPhys x ∧ p.virtToPhys x < p.physEndAddr
  phys : ∀ q : UInt64, p.config.physBaseAddr ≤ q → q < p.physEndAddr →
    p.virtToPhys (p.physToVirt q) = q

section

variable {p : MemoryPool} {x q : UInt64}

theorem containsVirt_iff (p : MemoryPool) (x : UInt64) : p.containsVirt x = true ↔
    p.storage.data.toNat ≤ x.toNat ∧ x.toNat < p.storage.data.toNat + p.storage.size.toNat := by
  have hend : (p.storage.data + p.storage.size).toNat =
      p.storage.data.toNat + p.storage.size.toNat := by
    rw [UInt64.toNat_add, Nat.mod_eq_of_lt p.storage.fits]
  simp only [containsVirt, Bool.and_eq_true, decide_eq_true_eq, UInt64.le_iff_toNat_le,
    UInt64.lt_iff_toNat_lt, hend]

/-- The physical end, if it does not wrap. -/
theorem physEndAddr_toNat (h : p.config.physBaseAddr.toNat +
      p.config.blockSize.toNat * p.config.blockCount.toNat < 2 ^ 64) :
    p.physEndAddr.toNat = p.config.physBaseAddr.toNat +
      p.config.blockSize.toNat * p.config.blockCount.toNat := by
  rw [physEndAddr, UInt64.toNat_add, UInt64.toNat_mul, Nat.add_mod_mod, Nat.mod_eq_of_lt h]

theorem virtToPhys_toNat (h : p.containsVirt x = true) : (p.virtToPhys x).toNat =
    (p.config.physBaseAddr.toNat + (x.toNat - p.storage.data.toNat)) % 2 ^ 64 := by
  have hle := UInt64.le_iff_toNat_le.mpr ((containsVirt_iff p x).mp h).1
  rw [virtToPhys, if_pos h, UInt64.toNat_add, UInt64.toNat_sub_of_le _ _ hle]

theorem physToVirt_toNat (h : p.containsPhys q = true) : (p.physToVirt q).toNat =
    (p.storage.data.toNat + (q.toNat - p.config.physBaseAddr.toNat)) % 2 ^ 64 := by
  have hle : p.config.physBaseAddr ≤ q := by
    simp only [containsPhys, Bool.and_eq_true, decide_eq_true_eq] at h
    exact h.1
  rw [physToVirt, if_pos h, UInt64.toNat_add, UInt64.toNat_sub_of_le _ _ hle]

/-- Up to the physical end the two translations are inverse to each other. -/
theorem translate_of_offset {offset : Nat}
    (hphys : p.config.physBaseAddr.toNat +
      p.config.blockSize.toNat * p.config.blockCount.toNat < 2 ^ 64)
    (hsize : p.config.blockSize.toNat * p.config.blockCount.toNat ≤ p.storage.size.toNat)
    (hoffset : offset < p.config.blockSize.toNat * p.config.blockCount.toNat)
    (hx : x.toNat = p.storage.data.toNat + offset)
    (hq : q.toNat = p.config.physBaseAddr.toNat + offset) :
    p.virtToPhys x = q ∧ p.physToVirt q = x := by
  have hend := physEndAddr_toNat hphys
  have hfits := p.storage.fits
  have hvirt : p.containsVirt x = true := (containsVirt_iff p x).mpr (by omega)
  have hcontains : p.containsPhys q = true := by
    simp only [containsPhys, Bool.and_eq_true, decide_eq_true_eq, UInt64.le_iff_toNat_le,
      UInt64.lt_iff_toNat_lt, hend]
    omega
  constructor
  · rw [← UInt64.toNat_inj, virtToPhys_toNat hvirt, hx, Nat.add_sub_cancel_left, hq]
    exact Nat.mod_eq_of_lt (by omega)
  · rw [← UInt64.toNat_inj, physToVirt_toNat hcontains, hq, Nat.add_sub_cancel_left, hx]
    exact Nat.mod_eq_of_lt (by omega)

end

section

variable {c : Config} {data : UInt64} {fits : data.toNat + c.storageSize.toNat < 2 ^ 64}

/-- The first block and those behind it. -/
theorem behind_first (h : 0 < c.blockCount.toNat) :
    c.blockSize.toNat * (c.blockCount.toNat - 1) + c.blockSize.toNat =
      c.blockSize.toNat * c.blockCount.toNat := by
  rw [← Nat.mul_succ, Nat.succ_eq_add_one, Nat.sub_add_cancel h]

/-- The shift of the first block leaves it before the physical end. -/
theorem translates_of_shift (hwrap : c.NoWrap)
    (hphys : c.physBaseAddr.toNat + c.blockSize.toNat * c.blockCount.toNat < 2 ^ 64)
    (hshift : c.blockSize.toNat = 0 ∨ c.blockCount.toNat = 0 ∨
      c.shift data ≤ c.blockSize.toNat * (c.blockCount.toNat - 1)) :
    Translates (new c data fits) (c.blocks data) := by
  have hsize := Config.storageSize_of_noWrap hwrap
  have hroom : c.blockSize.toNat * c.blockCount.toNat ≤ c.storageSize.toNat := by omega
  have hend := physEndAddr_toNat (p := new c data fits) hphys
  constructor
  · intro a ha x hx
    obtain ⟨i, hi, rfl⟩ := List.mem_map.mp ha
    have hi := List.mem_range.mp hi
    have hplace := Config.block_toNat hwrap fits hi
    obtain ⟨hlo, hhi⟩ := Finset.mem_Ico.mp hx
    change x.toNat < (c.block data i).toNat + c.blockSize.toNat at hhi
    have hstride := Config.stride_le_size hi
    have hlast := behind_first (c := c) (by omega)
    have hoffset : x.toNat - data.toNat < c.blockSize.toNat * c.blockCount.toNat := by
      split at hplace <;> omega
    have hx' : x.toNat = data.toNat + (x.toNat - data.toNat) := by omega
    have hq : (UInt64.ofNat (c.physBaseAddr.toNat + (x.toNat - data.toNat))).toNat =
        c.physBaseAddr.toNat + (x.toNat - data.toNat) :=
      UInt64.toNat_ofNat_of_lt' ((Nat.add_lt_add_left hoffset _).trans hphys)
    obtain ⟨hphysical, hback⟩ :=
      translate_of_offset (p := new c data fits) hphys hroom hoffset hx' hq
    rw [hphysical, hback, UInt64.le_iff_toNat_le, UInt64.lt_iff_toNat_lt, hq, hend]
    exact ⟨rfl, Nat.le_add_right _ _, Nat.add_lt_add_left hoffset _⟩
  · intro q hlo hhi
    rw [UInt64.le_iff_toNat_le] at hlo
    rw [UInt64.lt_iff_toNat_lt, hend] at hhi
    change c.physBaseAddr.toNat ≤ q.toNat at hlo
    change q.toNat < c.physBaseAddr.toNat + c.blockSize.toNat * c.blockCount.toNat at hhi
    have hx : (UInt64.ofNat (data.toNat + (q.toNat - c.physBaseAddr.toNat))).toNat =
        data.toNat + (q.toNat - c.physBaseAddr.toNat) :=
      UInt64.toNat_ofNat_of_lt' (by
        change _ < 2 ^ 64
        omega)
    have hoffset : q.toNat - c.physBaseAddr.toNat < c.blockSize.toNat * c.blockCount.toNat := by
      omega
    have hq : q.toNat = c.physBaseAddr.toNat + (q.toNat - c.physBaseAddr.toNat) := by omega
    obtain ⟨hphysical, hback⟩ :=
      translate_of_offset (p := new c data fits) hphys hroom hoffset hx hq
    rw [hback, hphysical]

/-- The last byte of the first block shows how far the shift reaches. -/
theorem shift_le_of_translates (hwrap : c.NoWrap)
    (hphys : c.physBaseAddr.toNat + c.blockSize.toNat * c.blockCount.toNat < 2 ^ 64)
    (hblock : 0 < c.blockSize.toNat) (hcount : 0 < c.blockCount.toNat)
    (h : Translates (new c data fits) (c.blocks data)) :
    c.shift data ≤ c.blockSize.toNat * (c.blockCount.toNat - 1) := by
  have hsize := Config.storageSize_of_noWrap hwrap
  have hshift := (Config.firstBlock_toNat hwrap fits).2
  have hplace := Config.block_toNat hwrap fits hcount
  rw [if_pos rfl] at hplace
  have hlast := behind_first hcount
  have hx : (UInt64.ofNat (data.toNat + (c.shift data + c.blockSize.toNat - 1))).toNat =
      data.toNat + (c.shift data + c.blockSize.toNat - 1) :=
    UInt64.toNat_ofNat_of_lt' (by
      change _ < 2 ^ 64
      omega)
  have hmem : (UInt64.ofNat (data.toNat + (c.shift data + c.blockSize.toNat - 1))).toNat ∈
      bytes (c.block data 0).toNat c.blockSize.toNat := by
    rw [hx, hplace]
    exact Finset.mem_Ico.mpr ⟨by omega, by omega⟩
  obtain ⟨-, hlo, hhi⟩ := h.virt _ (block_mem_blocks hcount) _ hmem
  have hvirt := (containsVirt_iff (new c data fits)
    (UInt64.ofNat (data.toNat + (c.shift data + c.blockSize.toNat - 1)))).mpr (by
      rw [hx]
      change data.toNat ≤ _ ∧ _ < data.toNat + c.storageSize.toNat
      omega)
  have hphysical := virtToPhys_toNat hvirt
  rw [hx] at hphysical
  change _ = (c.physBaseAddr.toNat +
    (data.toNat + (c.shift data + c.blockSize.toNat - 1) - data.toNat)) % 2 ^ 64 at hphysical
  rw [UInt64.le_iff_toNat_le, hphysical] at hlo
  rw [UInt64.lt_iff_toNat_lt, hphysical, physEndAddr_toNat (p := new c data fits) hphys] at hhi
  change c.physBaseAddr.toNat ≤ _ at hlo
  change _ < c.physBaseAddr.toNat + c.blockSize.toNat * c.blockCount.toNat at hhi
  omega

/-- The translations are a bijection exactly as long as the first block is not moved over
the end of the last one. -/
theorem translates_iff
    (hwrap : c.blockSize.toNat * c.blockCount.toNat + c.alignment.toNat < 2 ^ 64)
    (hphys : c.physBaseAddr.toNat + c.blockSize.toNat * c.blockCount.toNat < 2 ^ 64) :
    Translates (new c data fits) (handedOut c.blockCount.toNat (new c data fits)) ↔
      c.blockSize.toNat = 0 ∨ c.blockCount.toNat = 0 ∨
        c.shift data ≤ c.blockSize.toNat * (c.blockCount.toNat - 1) := by
  have hreverse : Translates (new c data fits) (c.blocks data).reverse ↔
      Translates (new c data fits) (c.blocks data) := by
    constructor
    · exact fun h => ⟨fun a ha => h.virt a (List.mem_reverse.mpr ha), h.phys⟩
    · exact fun h => ⟨fun a ha => h.virt a (List.mem_reverse.mp ha), h.phys⟩
  rw [handedOut_new, hreverse]
  constructor
  · intro h
    rcases Nat.eq_zero_or_pos c.blockSize.toNat with hblock | hblock
    · exact .inl hblock
    · rcases Nat.eq_zero_or_pos c.blockCount.toNat with hcount | hcount
      · exact .inr (.inl hcount)
      · exact .inr (.inr (shift_le_of_translates hwrap hphys hblock hcount h))
  · exact fun hshift => translates_of_shift hwrap hphys hshift

end

theorem translates_iff_page :
    Translates (new ⟨4096, 10, 0x20000000, 64⟩ 8208 (by decide))
      (handedOut 10 (new ⟨4096, 10, 0x20000000, 64⟩ 8208 (by decide))) :=
  (translates_iff (c := ⟨4096, 10, 0x20000000, 64⟩) (by decide) (by decide)).mpr (by decide)

/-- The only block of a pool is moved by 48 bytes, and its last bytes are behind the
physical end. -/
theorem not_translates_shifted :
    ¬ ∀ (c : Config) (data : UInt64) (fits : data.toNat + c.storageSize.toNat < 2 ^ 64),
      c.blockSize.toNat * c.blockCount.toNat + c.alignment.toNat < 2 ^ 64 →
      c.physBaseAddr.toNat + c.blockSize.toNat * c.blockCount.toNat < 2 ^ 64 →
        Translates (new c data fits) (handedOut c.blockCount.toNat (new c data fits)) := by
  intro hclaim
  have h := hclaim ⟨64, 1, 0x20000000, 64⟩ 4112 (by decide) (by decide) (by decide)
  obtain ⟨-, -, hend⟩ := h.virt 4160 (by decide) 4223 (Finset.mem_Ico.mpr (by decide))
  exact absurd hend (by decide)

end MemoryPool
