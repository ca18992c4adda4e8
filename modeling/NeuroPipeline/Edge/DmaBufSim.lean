-- SUMMARY: The simulated DMA buffers: descriptors and physical addresses from two counters, and when the buffers that are live share neither.
import NeuroPipeline.Lib.ByteRange
import NeuroPipeline.Lib.CheckedInt
import NeuroPipeline.Lib.Dict
import NeuroPipeline.Lib.TransitionSystem

/-!
# Simulated DMA buffers

Model of `Allocate` and `Free` (dmabuf_sim.cpp). Both run under the mutex. Descriptors come
from an `int` and physical addresses from a 64-bit word that is rounded up to pages; neither
counter ever goes back.
-/

open ByteRange (words)

structure DmaBufSim.BufferInfo where
  fd : Int
  virtAddr : UInt64
  physAddr : UInt64
  size : UInt64
  exported : Bool := false
  deriving DecidableEq

@[ext] structure DmaBufSim where
  physBase : UInt64 := 0x10000000
  physNext : UInt64 := physBase
  nextFd : CheckedInt := .of 100
  buffers : Dict Int DmaBufSim.BufferInfo := ∅

inductive DmaBufCall where
  /-- where the storage gets its bytes, unless `resize` throws -/
  | allocate (size : UInt64) (data : Option UInt64)
  | free (fd : Int)

namespace DmaBufSim

/-- A vector holds at most `PTRDIFF_MAX` bytes. -/
def maxSize : Nat := 2 ^ 63 - 1

/-- `NextFd`, whose result is the counter before. -/
def takeFd (s : DmaBufSim) : DmaBufSim := { s with nextFd := s.nextFd + .of 1 }

def newBuffer (s : DmaBufSim) (size data : UInt64) : BufferInfo where
  fd := s.nextFd.value
  virtAddr := data
  physAddr := s.physNext
  size := size

/-- `Allocate` with its storage. -/
def store (s : DmaBufSim) (size data : UInt64) : DmaBufSim :=
  { s.takeFd with
    physNext := (s.physNext + size + 4095) &&& ~~~4095
    buffers := s.buffers.set s.nextFd.value (s.newBuffer size data) }

/-- The result is missing where `resize` throws. -/
def allocate (s : DmaBufSim) (size : UInt64) (data : Option UInt64) : Option Int × DmaBufSim :=
  if size = 0 then (some (-1), s)
  else
    match data with
    -- the descriptor is taken before the storage, and lost with it
    | none => (none, s.takeFd)
    | some data => (some s.nextFd.value, s.store size data)

def free (s : DmaBufSim) (fd : Int) : DmaBufSim := { s with buffers := s.buffers.erase fd }

/-- The buffer that a call hands out. -/
def handedOut (s : DmaBufSim) : DmaBufCall → Option BufferInfo
  | .allocate size data =>
    if size = 0 then none else data.map fun data => s.newBuffer size data
  | .free _ => none

end DmaBufSim

def dmaBufSystem : TransitionSystem DmaBufSim DmaBufCall where
  init s := s.physNext = s.physBase ∧ s.nextFd = .of 100 ∧ s.buffers = ∅
  step s
    | .allocate size data =>
      if DmaBufSim.maxSize < size.toNat ∧ data.isSome then none else some (s.allocate size data).2
    | .free fd => some (s.free fd)

/-! ## The law -/

namespace DmaBufSim

/-- The buffers that have been handed out and not freed since. -/
def live (t : List (DmaBufSim × DmaBufCall)) : List BufferInfo :=
  t.foldl (fun bs p =>
    match p.2 with
    | .allocate _ _ => bs ++ (p.1.handedOut p.2).toList
    | .free fd => bs.eraseP fun b => b.fd = fd) []

/-- The physical addresses of the buffer, which start over at 0 behind the last. -/
def BufferInfo.addresses (b : BufferInfo) : Set UInt64 := words b.physAddr b.size.toNat

/-- Different buffers have different descriptors and no address in common. -/
structure Apart (bs : List BufferInfo) : Prop where
  fds : (bs.map (·.fd)).Nodup
  addresses : bs.Pairwise fun b c => Disjoint b.addresses c.addresses

/-- No descriptor has overflowed, and the buffers that are there are apart. -/
structure Unaliased (s : DmaBufSim) : Prop where
  defined : s.nextFd.Defined
  apart : Apart s.buffers.values

/-- The descriptor after the next one is an `int`, and the cursor is behind every buffer and
does not come round to one with the new size. -/
def HasRoom (s : DmaBufSim) : DmaBufCall → Prop
  | .allocate size data => size ≠ 0 → s.nextFd.value < 2 ^ 31 - 1 ∧
      (data.isSome → ∀ b ∈ s.buffers.values, b.size.toNat ≤ (s.physNext - b.physAddr).toNat ∧
        (s.physNext - b.physAddr).toNat + size.toNat ≤ 2 ^ 64)
  | .free _ => True

/-! ## The counters -/

variable {s s' : DmaBufSim} {l : DmaBufCall} {t : List (DmaBufSim × DmaBufCall)}
  {size data : UInt64}

/-- The buffers have descriptors that were taken earlier, and are not empty. -/
structure Sound (s : DmaBufSim) : Prop where
  keys : ∀ e ∈ s.buffers.entries, e.2.fd = e.1
  below : ∀ b ∈ s.buffers.values, b.fd < s.nextFd.value
  sized : ∀ b ∈ s.buffers.values, 0 < b.size.toNat
  nonneg : 0 ≤ s.nextFd.value

theorem Sound.fresh (h : s.Sound) : s.nextFd.value ∉ s.buffers := by
  intro hmem
  obtain ⟨b, hb⟩ := Dict.exists_lookup hmem
  have hentry := AList.mem_lookup_iff.mp hb
  have hfd := h.keys _ hentry
  exact (h.below b (List.mem_map_of_mem hentry)).ne hfd

/-- What a step does. -/
inductive Moves (s : DmaBufSim) : DmaBufCall → DmaBufSim → Prop where
  | refused (data : Option UInt64) : Moves s (.allocate 0 data) s
  | thrown {size : UInt64} (hsize : size ≠ 0) : Moves s (.allocate size none) s.takeFd
  | stored {size : UInt64} (hsize : size ≠ 0) (data : UInt64) :
      Moves s (.allocate size (some data)) (s.store size data)
  | freed (fd : Int) : Moves s (.free fd) (s.free fd)

theorem step_moves (h : dmaBufSystem.step s l = some s') : s.Moves l s' := by
  cases l with
  | free fd =>
    obtain rfl := Option.some_inj.mp h
    exact .freed fd
  | allocate size data =>
    obtain ⟨-, h⟩ := Option.ite_none_left_eq_some.mp h
    obtain rfl := Option.some_inj.mp h
    unfold DmaBufSim.allocate
    split
    next hzero =>
      subst hzero
      exact .refused data
    next hsize =>
      cases data with
      | none => exact .thrown hsize
      | some data => exact .stored hsize data

theorem values_store (h : s.Sound) (size data : UInt64) :
    (s.store size data).buffers.values = s.buffers.values ++ [s.newBuffer size data] :=
  Dict.values_set_of_notMem h.fresh

theorem values_free_sublist (s : DmaBufSim) (fd : Int) :
    (s.free fd).buffers.values.Sublist s.buffers.values :=
  Dict.values_erase_sublist s.buffers fd

theorem Sound.takeFd (h : s.Sound) : s.takeFd.Sound where
  keys := h.keys
  below b hb := (h.below b hb).trans (Int.lt_succ _)
  sized := h.sized
  nonneg := h.nonneg.trans (Int.lt_succ _).le

theorem Sound.store (h : s.Sound) (hsize : size ≠ 0) (data : UInt64) :
    (s.store size data).Sound where
  keys e he := by
    rw [DmaBufSim.store, Dict.entries_set_of_notMem h.fresh] at he
    rcases List.mem_append.mp he with hold | hnew
    · exact h.keys e hold
    · rw [List.mem_singleton.mp hnew]
      rfl
  below b hb := by
    rw [values_store h] at hb
    rcases List.mem_append.mp hb with hold | hnew
    · exact h.takeFd.below b hold
    · rw [List.mem_singleton.mp hnew]
      exact Int.lt_succ _
  sized b hb := by
    rw [values_store h] at hb
    rcases List.mem_append.mp hb with hold | hnew
    · exact h.sized b hold
    · rw [List.mem_singleton.mp hnew]
      exact Nat.pos_of_ne_zero fun hzero => hsize (UInt64.toNat_inj.mp hzero)
  nonneg := h.takeFd.nonneg

theorem Sound.free (h : s.Sound) (fd : Int) : (s.free fd).Sound where
  keys e he := h.keys e ((List.kerase_sublist fd _).subset he)
  below b hb := h.below b ((s.values_free_sublist fd).subset hb)
  sized b hb := h.sized b ((s.values_free_sublist fd).subset hb)
  nonneg := h.nonneg

theorem Sound.step (h : s.Sound) (hs : dmaBufSystem.step s l = some s') : s'.Sound := by
  cases step_moves hs with
  | refused data => exact h
  | thrown hsize => exact h.takeFd
  | stored hsize data => exact h.store hsize data
  | freed fd => exact h.free fd

/-! ## One step -/

theorem defined_takeFd (h : s.Sound) (hdefined : s.nextFd.Defined) :
    s.takeFd.nextFd.Defined ↔ s.nextFd.value < 2 ^ 31 - 1 := by
  have hnonneg := h.nonneg
  rw [takeFd, CheckedInt.defined_add, CheckedInt.defined_of, CheckedInt.value_of]
  constructor
  · rintro ⟨-, -, hfits⟩
    exact Int.lt_sub_right_of_add_lt hfits.2
  · intro hlt
    exact ⟨hdefined, by decide, by omega, by omega⟩

theorem Apart.sublist {bs cs : List BufferInfo} (h : Apart bs) (hsub : cs.Sublist bs) : Apart cs :=
  ⟨h.fds.sublist (hsub.map _), h.addresses.sublist hsub⟩

theorem apart_store_iff (h : s.Sound) (hapart : Apart s.buffers.values) (hsize : size ≠ 0)
    (data : UInt64) : Apart (s.store size data).buffers.values ↔
      ∀ b ∈ s.buffers.values, b.size.toNat ≤ (s.physNext - b.physAddr).toNat ∧
        (s.physNext - b.physAddr).toNat + size.toNat ≤ 2 ^ 64 := by
  have hpos : 0 < size.toNat :=
    Nat.pos_of_ne_zero fun hzero => hsize (UInt64.toNat_inj.mp hzero)
  have hdisjoint : ∀ b ∈ s.buffers.values,
      (Disjoint b.addresses (s.newBuffer size data).addresses ↔
        b.size.toNat ≤ (s.physNext - b.physAddr).toNat ∧
          (s.physNext - b.physAddr).toNat + size.toNat ≤ 2 ^ 64) :=
    fun b hb => ByteRange.disjoint_words_iff (h.sized b hb) hpos
  rw [values_store h, ← forall₂_congr hdisjoint]
  constructor
  · intro hnew b hb
    exact (List.pairwise_append.mp hnew.addresses).2.2 b hb _ List.mem_cons_self
  · intro hroom
    refine ⟨?_, List.pairwise_append.mpr ⟨hapart.addresses, List.pairwise_singleton _ _, ?_⟩⟩
    · rw [List.map_append]
      refine hapart.fds.append (List.nodup_singleton _) ?_
      intro fd hfd hnew
      obtain ⟨b, hb, rfl⟩ := List.mem_map.mp hfd
      exact (h.below b hb).ne (List.mem_singleton.mp hnew)
    · intro b hb c hc
      rw [List.mem_singleton.mp hc]
      exact hroom b hb

theorem unaliased_step_iff (h : s.Sound) (hs : s.Unaliased)
    (hstep : dmaBufSystem.step s l = some s') : s'.Unaliased ↔ s.HasRoom l := by
  cases step_moves hstep with
  | refused data => exact iff_of_true hs fun hzero => absurd rfl hzero
  | thrown hsize =>
    rw [HasRoom, ← defined_takeFd h hs.defined]
    constructor
    · exact fun h' _ => ⟨h'.defined, nofun⟩
    · exact fun hroom => ⟨(hroom hsize).1, hs.apart⟩
  | @stored size hsize data =>
    rw [HasRoom, ← defined_takeFd h hs.defined, ← apart_store_iff h hs.apart hsize data]
    constructor
    · exact fun h' _ => ⟨h'.defined, fun _ => h'.apart⟩
    · exact fun hroom => ⟨(hroom hsize).1, (hroom hsize).2 rfl⟩
  | freed fd =>
    exact iff_of_true ⟨hs.defined, hs.apart.sublist (s.values_free_sublist fd)⟩ trivial

/-! ## Runs -/

theorem live_allocate (t : List (DmaBufSim × DmaBufCall)) (s : DmaBufSim) (size : UInt64)
    (data : Option UInt64) : live (t ++ [(s, .allocate size data)]) =
      live t ++ (s.handedOut (.allocate size data)).toList := by
  rw [live, List.foldl_append]
  rfl

theorem live_free (t : List (DmaBufSim × DmaBufCall)) (s : DmaBufSim) (fd : Int) :
    live (t ++ [(s, .free fd)]) = (live t).eraseP fun b => b.fd = fd := by
  rw [live, List.foldl_append]
  rfl

theorem values_free (h : s.Sound) (fd : Int) :
    (s.free fd).buffers.values = s.buffers.values.eraseP fun b => b.fd = fd := by
  have hentries : ∀ l : List (Dict.Entry Int BufferInfo), (∀ e ∈ l, e.2.fd = e.1) →
      (List.kerase fd l).map Sigma.snd = (l.map Sigma.snd).eraseP fun b => b.fd = fd := by
    intro l hl
    induction l with
    | nil => rfl
    | cons e l ih =>
      obtain ⟨he, hl⟩ := List.forall_mem_cons.mp hl
      by_cases hfd : fd = e.1
      · rw [List.kerase_cons_eq hfd, List.map_cons, List.eraseP_cons_of_pos (by simp [he, hfd])]
      · rw [List.kerase_cons_ne hfd, List.map_cons, List.map_cons,
          List.eraseP_cons_of_neg (by simpa [he] using Ne.symm hfd), ih hl]
  exact hentries s.buffers.entries h.keys

theorem live_step (h : s.Sound) (hlive : live t = s.buffers.values)
    (hs : dmaBufSystem.step s l = some s') : live (t ++ [(s, l)]) = s'.buffers.values := by
  cases step_moves hs with
  | refused data => simp [live_allocate, handedOut, hlive]
  | thrown hsize => simp [live_allocate, handedOut, hlive, takeFd]
  | stored hsize data => simp [live_allocate, handedOut, hlive, hsize, values_store h]
  | freed fd => rw [live_free, hlive, values_free h]

end DmaBufSim

open DmaBufSim TransitionSystem

theorem dmaBufSystem.sound {s₀ s : DmaBufSim} {t : List (DmaBufSim × DmaBufCall)}
    (h₀ : dmaBufSystem.init s₀) (hrun : dmaBufSystem.Run s₀ t s) :
    s.Sound ∧ live t = s.buffers.values := by
  obtain ⟨-, hfd, hbuffers⟩ := h₀
  refine hrun.invariant_history (I := fun t s => s.Sound ∧ live t = s.buffers.values) ?_ ?_
  · exact fun t s l s' h hs => ⟨h.1.step hs, live_step h.1 h.2 hs⟩
  · refine ⟨⟨?_, ?_, ?_, ?_⟩, ?_⟩
    · simp [hbuffers]
    · simp [hbuffers, Dict.values]
    · simp [hbuffers, Dict.values]
    · simp [hfd]
    · simp [hbuffers, Dict.values, live]

theorem dmaBufSystem.unaliased_iff_respects {s₀ s : DmaBufSim} {t : List (DmaBufSim × DmaBufCall)}
    (h₀ : dmaBufSystem.init s₀) (hrun : dmaBufSystem.Run s₀ t s) :
    Throughout Unaliased t s ↔ Respects HasRoom t := by
  have hempty := dmaBufSystem.sound h₀ .nil
  refine hrun.throughout_iff_respects (I := Sound) (fun _ _ _ h hs => h.step hs)
    (fun _ _ _ h hQ hs => unaliased_step_iff h hQ hs) hempty.1 ⟨?_, ?_⟩
  · rw [h₀.2.1]
    decide
  · rw [← hempty.2]
    exact ⟨List.nodup_nil, List.Pairwise.nil⟩

/-- The table holds the buffers that are live. In all states of a run they have different
descriptors and share no address exactly when every allocation finds room: the counter of
the descriptors stays an `int`, and the cursor does not come round to a live buffer. -/
theorem dmaBufSystem.unaliased_iff {s₀ s : DmaBufSim} {t : List (DmaBufSim × DmaBufCall)}
    (h₀ : dmaBufSystem.init s₀) (hrun : dmaBufSystem.Run s₀ t s) :
    live t = s.buffers.values ∧ (Throughout Unaliased t s ↔ Respects HasRoom t) :=
  ⟨(dmaBufSystem.sound h₀ hrun).2, dmaBufSystem.unaliased_iff_respects h₀ hrun⟩

namespace DmaBufSim

instance (s : DmaBufSim) : DecidablePred s.HasRoom
  | .allocate _ _ => inferInstanceAs (Decidable (_ → _))
  | .free _ => inferInstanceAs (Decidable True)

/-- Two buffers, the first of which is freed before a third. -/
def fewCalls : List DmaBufCall :=
  [.allocate 4096 (some 4096), .allocate 100 (some 8192), .free 100, .allocate 9000 (some 16384)]

theorem unaliased_iff_fewCalls :
    ∃ t s, dmaBufSystem.Run {} t s ∧ Throughout Unaliased t s ∧
      (live t).map (·.physAddr) = [0x10001000, 0x10002000] := by
  have hexec : (dmaBufSystem.execTrace {} fewCalls).map
      (fun r => (decide (Respects HasRoom r.1), (live r.1).map (·.physAddr))) =
        some (true, [0x10001000, 0x10002000]) := by
    decide +kernel
  obtain ⟨t, s, hrun, -, hread⟩ := exists_run_of_execTrace hexec
  obtain ⟨hroom, hlive⟩ := Prod.mk.inj hread
  exact ⟨t, s, hrun, (dmaBufSystem.unaliased_iff ⟨rfl, rfl, rfl⟩ hrun).2.mpr
    (of_decide_eq_true hroom), hlive⟩

end DmaBufSim

/-! ## Whole pages -/

namespace DmaBufSim

theorem pageSize_pos : 0 < 4096 := Nat.succ_pos _

def pageUp (n : Nat) : Nat := ByteRange.alignUp 4096 n

/-- What the allocations count for, summed up. -/
def total (f : UInt64 → Nat) : List DmaBufCall → Nat
  | [] => 0
  | .allocate size _ :: calls => f size + total f calls
  | .free _ :: calls => total f calls

theorem total_append (f : UInt64 → Nat) (calls calls' : List DmaBufCall) :
    total f (calls ++ calls') = total f calls + total f calls' := by
  induction calls with
  | nil => simp [total]
  | cons call calls ih =>
    cases call with
    | allocate size data => simp [total, ih, Nat.add_assoc]
    | free fd => simpa [total] using ih

theorem total_allocate (f : UInt64 → Nat) (calls : List DmaBufCall) (size : UInt64)
    (data : Option UInt64) :
    total f (calls ++ [.allocate size data]) = total f calls + f size :=
  total_append f calls [.allocate size data]

theorem total_free (f : UInt64 → Nat) (calls : List DmaBufCall) (fd : Int) :
    total f (calls ++ [.free fd]) = total f calls :=
  total_append f calls [.free fd]

/-- The sum of the sizes that are asked for, each as whole pages. -/
def pages : List DmaBufCall → Nat := total fun size => pageUp size.toNat

/-- How many descriptors the calls can take. -/
def descriptors : List DmaBufCall → Nat := total fun _ => 1

theorem dvd_pages (calls : List DmaBufCall) : 4096 ∣ pages calls := by
  induction calls with
  | nil => exact Nat.dvd_zero _
  | cons call calls ih =>
    cases call with
    | allocate size data => exact Nat.dvd_add (ByteRange.dvd_alignUp 4096 _) ih
    | free fd => exact ih

theorem toNat_nextPage {x : UInt64} {n : Nat} (hx : x.toNat = n % 2 ^ 64) (size : UInt64) :
    ((x + size + 4095) &&& ~~~4095).toNat = pageUp (n + size.toNat) % 2 ^ 64 := by
  have hmask : (~~~4095 : UInt64).toNat = 2 ^ 64 - 1 - (2 ^ 12 - 1) := by decide +kernel
  have hlast : (4095 : UInt64).toNat = 4095 := rfl
  rw [UInt64.toNat_and, hmask, ByteRange.and_high_mask (UInt64.toNat_lt _) (by decide),
    UInt64.toNat_add, UInt64.toNat_add, hx, hlast, pageUp, ByteRange.alignUp]
  omega

/-- The cursor as it would be without an end of the addresses, and the buffers behind it. -/
structure Placed (base : UInt64) (calls : List DmaBufCall) (s : DmaBufSim) (cursor : Nat) :
    Prop where
  physNext : s.physNext.toNat = cursor % 2 ^ 64
  le : cursor ≤ pageUp base.toNat + pages calls
  behind : ∀ b ∈ s.buffers.values, ∃ start, base.toNat ≤ start ∧
    b.physAddr.toNat = start % 2 ^ 64 ∧ start + b.size.toNat ≤ cursor
  start : base.toNat ≤ cursor
  fd : s.nextFd.value ≤ 100 + descriptors calls

variable {base : UInt64} {calls : List DmaBufCall} {cursor : Nat}

theorem le_pageUp (n : Nat) : n ≤ pageUp n := ByteRange.le_alignUp pageSize_pos n

theorem Placed.takeFd (h : Placed base calls s cursor) (size : UInt64) (data : Option UInt64) :
    Placed base (calls ++ [.allocate size data]) s.takeFd cursor where
  physNext := h.physNext
  le := by
    rw [pages, total_allocate, ← Nat.add_assoc]
    exact h.le.trans (Nat.le_add_right _ _)
  behind := h.behind
  start := h.start
  fd := by
    have hfd := h.fd
    simp only [DmaBufSim.takeFd, CheckedInt.value_add, CheckedInt.value_of, descriptors,
      total_allocate] at hfd ⊢
    omega

theorem Placed.store (h : Placed base calls s cursor) (hsound : s.Sound) (size data : UInt64) :
    Placed base (calls ++ [.allocate size (some data)]) (s.store size data)
      (pageUp (cursor + size.toNat)) where
  physNext := toNat_nextPage h.physNext size
  le := by
    -- the bound is a multiple of a page, and not below the end of the buffer
    have hdvd : 4096 ∣ pageUp base.toNat + (pages calls + pageUp size.toNat) :=
      Nat.dvd_add (ByteRange.dvd_alignUp _ _)
        (Nat.dvd_add (dvd_pages calls) (ByteRange.dvd_alignUp _ _))
    have hend : cursor + size.toNat ≤ pageUp base.toNat + (pages calls + pageUp size.toNat) := by
      have hle := h.le
      have hsize := le_pageUp size.toNat
      omega
    rw [pages, total_allocate]
    exact ByteRange.alignUp_le pageSize_pos hdvd hend
  behind b hb := by
    have hup := le_pageUp (cursor + size.toNat)
    rw [values_store hsound] at hb
    rcases List.mem_append.mp hb with hold | hnew
    · obtain ⟨start, hbase, haddr, hend⟩ := h.behind b hold
      exact ⟨start, hbase, haddr, by omega⟩
    · rw [List.mem_singleton.mp hnew]
      exact ⟨cursor, h.start, h.physNext, hup⟩
  start := h.start.trans ((Nat.le_add_right _ _).trans (le_pageUp _))
  fd := (h.takeFd size (some data)).fd

theorem Placed.step (h : Placed base calls s cursor) (hsound : s.Sound)
    (hs : dmaBufSystem.step s l = some s') : ∃ cursor', Placed base (calls ++ [l]) s' cursor' := by
  cases step_moves hs with
  | refused data =>
    have htaken := h.takeFd 0 data
    have hfd : (descriptors calls : Int) ≤ descriptors (calls ++ [.allocate 0 data]) := by
      simp only [descriptors, total_allocate]
      omega
    exact ⟨cursor, h.physNext, htaken.le, h.behind, h.start, h.fd.trans (by omega)⟩
  | @thrown size hsize => exact ⟨cursor, h.takeFd size none⟩
  | stored hsize data => exact ⟨_, h.store hsound _ data⟩
  | freed fd =>
    refine ⟨cursor, h.physNext, ?_, ?_, h.start, ?_⟩
    · rw [pages, total_free]
      exact h.le
    · exact fun b hb => h.behind b ((s.values_free_sublist fd).subset hb)
    · rw [descriptors, total_free]
      exact h.fd

/-- Within the budget of pages and descriptors there is room. -/
theorem Placed.hasRoom (h : Placed base calls s cursor) (hsound : s.Sound)
    (hpages : pageUp base.toNat - base.toNat + pages (calls ++ [l]) ≤ 2 ^ 64)
    (hfds : descriptors (calls ++ [l]) ≤ 2 ^ 31 - 101) : s.HasRoom l := by
  cases l with
  | free fd => trivial
  | allocate size data =>
    intro hsize
    have hpos : 0 < size.toNat :=
      Nat.pos_of_ne_zero fun hzero => hsize (UInt64.toNat_inj.mp hzero)
    have hle := h.le
    have hfd := h.fd
    have hup := le_pageUp size.toNat
    have hbase := le_pageUp base.toNat
    simp only [pages, total_allocate] at hpages hle
    simp only [descriptors, total_allocate] at hfds hfd
    refine ⟨by omega, fun _ b hb => ?_⟩
    obtain ⟨start, hstart, haddr, hend⟩ := h.behind b hb
    have hnonempty := hsound.sized b hb
    have hdist : (s.physNext - b.physAddr).toNat = cursor - start := by
      rw [UInt64.toNat_sub, h.physNext, haddr]
      omega
    rw [hdist]
    omega

theorem run_placed {s₀ : DmaBufSim} (h₀ : dmaBufSystem.init s₀) (hrun : dmaBufSystem.Run s₀ t s) :
    ∃ cursor, Placed s₀.physBase (t.map Prod.snd) s cursor := by
  have hempty := dmaBufSystem.sound h₀ .nil
  refine (hrun.invariant_history (I := fun t s =>
    s.Sound ∧ ∃ cursor, Placed s₀.physBase (t.map Prod.snd) s cursor) ?_ ?_).2
  · rintro t s l s' ⟨hsound, cursor, h⟩ hs
    rw [List.map_append]
    exact ⟨hsound.step hs, h.step hsound hs⟩
  · refine ⟨hempty.1, s₀.physBase.toNat, ?_, ?_, ?_, le_rfl, ?_⟩
    · rw [h₀.1, Nat.mod_eq_of_lt (UInt64.toNat_lt _)]
    · rw [List.map_nil, pages, total, Nat.add_zero]
      exact le_pageUp _
    · rw [← hempty.2]
      exact fun b hb => absurd hb List.not_mem_nil
    · rw [h₀.2.1]
      rfl

end DmaBufSim

/-- Whatever the base is: buffers share neither a descriptor nor an address as long as the
sizes, counted in whole pages, are 2^64 at most, and the descriptors suffice. -/
theorem dmaBufSystem.unaliased_of_pages {s₀ s : DmaBufSim} {t : List (DmaBufSim × DmaBufCall)}
    (h₀ : dmaBufSystem.init s₀) (hrun : dmaBufSystem.Run s₀ t s)
    (hpages : pageUp s₀.physBase.toNat - s₀.physBase.toNat + pages (t.map Prod.snd) ≤ 2 ^ 64)
    (hfds : descriptors (t.map Prod.snd) ≤ 2 ^ 31 - 101) : Throughout Unaliased t s := by
  refine (dmaBufSystem.unaliased_iff_respects h₀ hrun).mpr ?_
  induction hrun with
  | nil => exact respects_nil
  | @snoc t s s' l hpre hs ih =>
    rw [List.map_append] at hpages hfds
    obtain ⟨cursor, h⟩ := run_placed h₀ hpre
    have hroom := h.hasRoom (dmaBufSystem.sound h₀ hpre).1 hpages hfds
    simp only [pages, descriptors, total_append] at hpages hfds ih
    exact respects_snoc.mpr ⟨ih (by omega) (by omega), hroom⟩

/-! ## Sizes below 2^64 -/

namespace DmaBufSim

/-- The sum of the sizes that are asked for. -/
def requested : List DmaBufCall → Nat := total UInt64.toNat

/-- What a round asks for. The cursor moves by `2 ^ 34`. -/
def roundSize : UInt64 := 0x3FFFFF001

/-- The buffer of the first call, which is never freed. -/
def firstBuffer : BufferInfo where
  fd := 100
  virtAddr := 4096
  physAddr := 0x10000000
  size := roundSize

/-- Each further buffer is freed before the next. -/
def rounds : Nat → List DmaBufCall
  | 0 => [.allocate roundSize (some 4096)]
  | k + 1 => rounds k ++ [.allocate roundSize (some 8192), .free (101 + k)]

def cursorAfter (k : Nat) : Nat := 0x10000000 + (k + 1) * 2 ^ 34

def afterRounds (k : Nat) : DmaBufSim where
  physNext := UInt64.ofNat (cursorAfter k)
  nextFd := ⟨101 + k, true⟩
  buffers := Dict.set ∅ 100 firstBuffer

theorem toNat_roundSize : roundSize.toNat = 2 ^ 34 - 4095 := by
  decide +kernel

theorem requested_rounds (k : Nat) : requested (rounds k) = (k + 1) * (2 ^ 34 - 4095) := by
  induction k with
  | zero => simp [rounds, requested, total, toNat_roundSize]
  | succ k ih =>
    rw [requested] at ih
    rw [rounds, requested, total_append, ih, total, total, total, toNat_roundSize]
    omega

theorem physNext_store {s : DmaBufSim} {k : Nat}
    (hs : s.physNext = UInt64.ofNat (cursorAfter k)) (data : UInt64) :
    (s.store roundSize data).physNext = UInt64.ofNat (cursorAfter (k + 1)) := by
  have hstart : s.physNext.toNat = cursorAfter k % 2 ^ 64 := hs ▸ UInt64.toNat_ofNat'
  have hround : pageUp (cursorAfter k + roundSize.toNat) = cursorAfter (k + 1) := by
    rw [toNat_roundSize, pageUp, ByteRange.alignUp, cursorAfter, cursorAfter]
    omega
  apply UInt64.toNat_inj.mp
  rw [UInt64.toNat_ofNat', ← hround]
  exact toNat_nextPage hstart roundSize

theorem step_round {k : Nat} (hk : k < 2 ^ 30) :
    ∃ s, dmaBufSystem.step (afterRounds k) (.allocate roundSize (some 8192)) = some s ∧
      dmaBufSystem.step s (.free (101 + k)) = some (afterRounds (k + 1)) := by
  refine ⟨(afterRounds k).store roundSize 8192, rfl, ?_⟩
  have hfd : ((afterRounds k).store roundSize 8192).nextFd = (afterRounds (k + 1)).nextFd := by
    have hfits : Fits (101 + k + 1) := ⟨by omega, by omega⟩
    have hcount : (101 : Int) + (k + 1 : Nat) = 101 + k + 1 := by omega
    exact (CheckedInt.add_of_fits (by decide) hfits).trans (hcount ▸ rfl)
  have hbuffers : (((afterRounds k).store roundSize 8192).free (101 + k)).buffers =
      (afterRounds (k + 1)).buffers := by
    refine Dict.erase_set_of_notMem ?_
    have hother : (101 : Int) + k ≠ 100 := by omega
    rw [afterRounds, Dict.mem_set]
    simpa using hother
  exact congrArg some (DmaBufSim.ext rfl (physNext_store rfl 8192) hfd hbuffers)

theorem run_rounds {k : Nat} (hk : k ≤ 2 ^ 30) :
    ∃ t, dmaBufSystem.Run {} t (afterRounds k) ∧ t.map Prod.snd = rounds k := by
  induction k with
  | zero =>
    have hfirst : dmaBufSystem.step {} (.allocate roundSize (some 4096)) =
        some (afterRounds 0) := by
      refine congrArg some (DmaBufSim.ext rfl ?_ rfl rfl)
      decide +kernel
    exact ⟨_, Run.snoc (t := []) .nil hfirst, rfl⟩
  | succ k ih =>
    obtain ⟨t, hrun, hcalls⟩ := ih (by omega)
    obtain ⟨s, hallocate, hfree⟩ := step_round (k := k) (by omega)
    refine ⟨_, (hrun.snoc hallocate).snoc hfree, ?_⟩
    simp [hcalls, rounds]

/-- After `2 ^ 30` rounds the cursor is where it began, and one more byte gets the address
of the first buffer. All sizes together are less than `2 ^ 64`. -/
theorem not_unaliased_rounds :
    ∃ t s, dmaBufSystem.Run {} t s ∧ requested (t.map Prod.snd) < 2 ^ 64 ∧ s.nextFd.Defined ∧
      ¬Throughout Unaliased t s := by
  obtain ⟨t, hrun, hcalls⟩ := run_rounds (k := 2 ^ 30 - 1) (by decide)
  have hsound := (dmaBufSystem.sound ⟨rfl, rfl, rfl⟩ hrun).1
  have hlast : dmaBufSystem.step (afterRounds (2 ^ 30 - 1)) (.allocate 1 (some 8192)) =
      some ((afterRounds (2 ^ 30 - 1)).store 1 8192) := rfl
  refine ⟨_, _, hrun.snoc hlast, ?_, by decide +kernel, ?_⟩
  · have hrounds := requested_rounds (2 ^ 30 - 1)
    rw [requested] at hrounds
    rw [List.map_append, hcalls, requested, total_append, hrounds]
    decide +kernel
  · intro hall
    obtain ⟨hbefore, hafter⟩ := throughout_snoc.mp hall
    have hroom := (apart_store_iff hsound hbefore.2.apart (by decide +kernel) 8192).mp hafter.apart
    have hbehind := (hroom firstBuffer (List.mem_singleton_self _)).1
    exact absurd hbehind (by decide +kernel)

end DmaBufSim
