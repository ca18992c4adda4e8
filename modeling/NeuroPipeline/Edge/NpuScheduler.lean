-- SUMMARY: The scheduler of the NPU cores: its strategies, its counters, and the rotation over its whole life.
import NeuroPipeline.Lib.RoundRobin

/-!
# NPU scheduler

Each call of the scheduler is one step: the strategy is read under a lock, and the counters
are atomic. What other threads do between two selections are calls in between.
-/

inductive Strategy where
  | kRoundRobin
  | kLoadBalance
  | kSingleCore
  | kTripleCore
deriving DecidableEq, Repr

/-- `kNumCores` is 3. -/
structure NPUScheduler where
  strategy : Strategy := .kRoundRobin
  roundRobinCounter : UInt32 := 0
  totalSubmitted : UInt64 := 0
  activeTasks : Vector Int32 3 := Vector.replicate 3 0
deriving DecidableEq

namespace NPUScheduler

abbrev kNumCores : Nat := 3

def kCore0 : Nat := 0x01
def kCore1 : Nat := 0x02
def kCore2 : Nat := 0x04
def kAllCores : Nat := 0x07

def isValidCoreIndex (idx : Int) : Prop := 0 ≤ idx ∧ idx < kNumCores

instance (idx : Int) : Decidable (isValidCoreIndex idx) :=
  inferInstanceAs (Decidable (_ ∧ _))

theorem isValidCoreIndex.toNat_lt {idx : Int} (h : isValidCoreIndex idx) :
    idx.toNat < kNumCores :=
  (Int.toNat_lt h.1).mpr h.2

def coreIndexToMask (idx : Nat) : Nat := 1 <<< idx

theorem coreIndexToMask_injective : Function.Injective coreIndexToMask := by
  intro i j h
  rw [coreIndexToMask, coreIndexToMask, Nat.one_shiftLeft, Nat.one_shiftLeft] at h
  exact Nat.pow_right_injective (Nat.le_refl 2) h

/-! ## Selection -/

def selectRoundRobin (s : NPUScheduler) : Nat × NPUScheduler :=
  let idx := s.roundRobinCounter
  -- the counter wraps around at 2^32, which 3 does not divide
  (coreIndexToMask (idx.toNat % kNumCores), { s with roundRobinCounter := idx + 1 })

/-- One core of the loop: the least load so far, and the first core that has it. -/
def lessLoaded (s : NPUScheduler) (best : Int32 × Fin 3) (i : Fin 3) : Int32 × Fin 3 :=
  let load := s.activeTasks[i]
  if load < best.1 then (load, i) else best

def bestCore (s : NPUScheduler) : Fin 3 :=
  ((List.finRange kNumCores).foldl s.lessLoaded (Int32.maxValue, 0)).2

def selectLoadBalance (s : NPUScheduler) : Nat := coreIndexToMask s.bestCore

def selectCore (s : NPUScheduler) : Nat × NPUScheduler :=
  let s := { s with totalSubmitted := s.totalSubmitted + 1 }
  match s.strategy with
  | .kRoundRobin => s.selectRoundRobin
  | .kLoadBalance => (s.selectLoadBalance, s)
  | .kSingleCore => (kCore0, s)
  | .kTripleCore => (kAllCores, s)

def notifyTaskStart (s : NPUScheduler) (coreIndex : Int) : NPUScheduler :=
  if h : isValidCoreIndex coreIndex then
    have hlt := h.toNat_lt
    { s with activeTasks :=
        s.activeTasks.set coreIndex.toNat (s.activeTasks[coreIndex.toNat] + 1) }
  else s

def notifyTaskEnd (s : NPUScheduler) (coreIndex : Int) : NPUScheduler :=
  if h : isValidCoreIndex coreIndex then
    have hlt := h.toNat_lt
    { s with activeTasks :=
        s.activeTasks.set coreIndex.toNat (s.activeTasks[coreIndex.toNat] - 1) }
  else s

@[simp] theorem notifyTaskStart_roundRobinCounter (s : NPUScheduler) (coreIndex : Int) :
    (s.notifyTaskStart coreIndex).roundRobinCounter = s.roundRobinCounter := by
  unfold notifyTaskStart
  split <;> rfl

@[simp] theorem notifyTaskEnd_roundRobinCounter (s : NPUScheduler) (coreIndex : Int) :
    (s.notifyTaskEnd coreIndex).roundRobinCounter = s.roundRobinCounter := by
  unfold notifyTaskEnd
  split <;> rfl

def activeTasksOf (s : NPUScheduler) (coreIndex : Int) : Int32 :=
  if h : isValidCoreIndex coreIndex then
    have hlt := h.toNat_lt
    s.activeTasks[coreIndex.toNat]
  else 0

def setStrategy (s : NPUScheduler) (strategy : Strategy) : NPUScheduler :=
  { s with strategy }

@[simp] theorem selectCore_strategy (s : NPUScheduler) :
    s.selectCore.2.strategy = s.strategy := by
  simp only [selectCore, selectRoundRobin]
  split <;> simp_all

/-- Unless the cores are fused, the mask is that of one core. -/
theorem selectCore_single {s : NPUScheduler} (h : s.strategy ≠ .kTripleCore) :
    ∃ idx < kNumCores, s.selectCore.1 = coreIndexToMask idx := by
  unfold selectCore
  cases hs : s.strategy with
  | kRoundRobin => exact ⟨_, Nat.mod_lt _ (by decide), rfl⟩
  | kLoadBalance => exact ⟨_, (bestCore _).isLt, rfl⟩
  | kSingleCore => exact ⟨0, by decide, rfl⟩
  | kTripleCore => exact absurd hs h

/-! ### The least load -/

/-- The loop has seen `cores`, and `best` is the least load among them. -/
def LeastOf (s : NPUScheduler) (cores : List (Fin 3)) (best : Int32 × Fin 3) : Prop :=
  (∀ i ∈ cores, best.1 ≤ s.activeTasks[i]) ∧
    (best.1 = Int32.maxValue ∨ best.1 = s.activeTasks[best.2])

theorem lessLoaded_leastOf {s : NPUScheduler} {cores : List (Fin 3)} {best : Int32 × Fin 3}
    (h : s.LeastOf cores best) (i : Fin 3) : s.LeastOf (cores ++ [i]) (s.lessLoaded best i) := by
  obtain ⟨hleast, hfrom⟩ := h
  rw [lessLoaded]
  split
  next hless =>
      refine ⟨?_, .inr rfl⟩
      intro j hj
      rcases List.mem_append.mp hj with hj | hj
      · exact Int32.le_trans (Int32.le_of_lt hless) (hleast j hj)
      · rw [List.mem_singleton.mp hj]
        exact Int32.le_refl _
  next hnot =>
      refine ⟨?_, hfrom⟩
      intro j hj
      rcases List.mem_append.mp hj with hj | hj
      · exact hleast j hj
      · rw [List.mem_singleton.mp hj]
        exact Int32.not_lt.mp hnot

theorem foldl_leastOf {s : NPUScheduler} {seen : List (Fin 3)} {best : Int32 × Fin 3}
    (h : s.LeastOf seen best) (cores : List (Fin 3)) :
    s.LeastOf (seen ++ cores) (cores.foldl s.lessLoaded best) := by
  induction cores generalizing seen best with
  | nil => rwa [List.append_nil]
  | cons i cores ih =>
      rw [List.foldl_cons, List.append_cons]
      exact ih (lessLoaded_leastOf h i)

/-- No core has fewer tasks than the one that is picked. -/
theorem bestCore_least (s : NPUScheduler) (i : Fin 3) :
    s.activeTasks[s.bestCore] ≤ s.activeTasks[i] := by
  have hstart : s.LeastOf [] (Int32.maxValue, 0) := ⟨by simp, .inl rfl⟩
  obtain ⟨hleast, hfrom⟩ := foldl_leastOf hstart (List.finRange kNumCores)
  have hbest := hleast i (List.mem_finRange i)
  rcases hfrom with hmax | hload
  · -- every load is the largest there is
    rw [hmax] at hbest
    exact Int32.le_trans (Int32.le_maxValue _) hbest
  · rw [hload] at hbest
    exact hbest

/-! ## The calls of a run -/

inductive Call where
  | selectCore
  | notifyTaskStart (coreIndex : Int)
  | notifyTaskEnd (coreIndex : Int)
  | setStrategy (strategy : Strategy)
deriving DecidableEq, Repr

/-- The state after a call. -/
def call (s : NPUScheduler) : Call → NPUScheduler
  | .selectCore => s.selectCore.2
  | .notifyTaskStart coreIndex => s.notifyTaskStart coreIndex
  | .notifyTaskEnd coreIndex => s.notifyTaskEnd coreIndex
  | .setStrategy strategy => s.setStrategy strategy

/-- What a call selects with the rotating strategy. -/
def rotated (s : NPUScheduler) : Call → Option Nat
  | .selectCore => if s.strategy = .kRoundRobin then some s.selectCore.1 else none
  | _ => none

/-- The cores that the calls select with the rotating strategy, in their order. -/
def rotation : NPUScheduler → List Call → List Nat
  | _, [] => []
  | s, c :: cs => (s.rotated c).toList ++ (s.call c).rotation cs

/-! ## The rotation -/

theorem call_roundRobinCounter (s : NPUScheduler) (c : Call) :
    (s.call c).roundRobinCounter = s.roundRobinCounter + ((s.rotated c).toList.length).toUInt32 := by
  cases c with
  | selectCore =>
      unfold call rotated selectCore
      cases hs : s.strategy with
      | kRoundRobin => rfl
      | kLoadBalance => simp
      | kSingleCore => simp
      | kTripleCore => simp
  | notifyTaskStart coreIndex => simp [call, rotated]
  | notifyTaskEnd coreIndex => simp [call, rotated]
  | setStrategy strategy => simp [call, setStrategy, rotated]

theorem rotated_eq_some {s : NPUScheduler} {c : Call} {mask : Nat} (h : s.rotated c = some mask) :
    mask = coreIndexToMask (s.roundRobinCounter.toNat % kNumCores) := by
  cases c with
  | selectCore =>
      rw [rotated] at h
      split at h
      next hs =>
          obtain rfl := Option.some_inj.mp h
          unfold selectCore
          rw [hs]
          rfl
      next => cases h
  | notifyTaskStart | notifyTaskEnd | setStrategy => cases h

/-- From a counter at `start`, the rotation is that of the rounds from `start` on. -/
theorem rotation_eq (s : NPUScheduler) (cs : List Call) (start : Nat)
    (hstart : s.roundRobinCounter.toNat = start % 2 ^ 32) :
    s.rotation cs = (List.range' start (s.rotation cs).length).map
      fun i => coreIndexToMask (RoundRobin.wrappedTurn (2 ^ 32) kNumCores i) := by
  induction cs generalizing s start with
  | nil => rfl
  | cons c cs ih =>
      have hcounter := call_roundRobinCounter s c
      rw [rotation]
      cases hc : s.rotated c with
      | none =>
          rw [hc] at hcounter
          have hsame : (s.call c).roundRobinCounter = s.roundRobinCounter := by simpa using hcounter
          exact ih (s.call c) start (by rw [hsame, hstart])
      | some mask =>
          rw [hc] at hcounter
          -- `start` goes on counting where the counter wraps around
          have hnext : (s.call c).roundRobinCounter.toNat = (start + 1) % 2 ^ 32 := by
            have hone : (s.call c).roundRobinCounter = s.roundRobinCounter + 1 := hcounter
            rw [hone, UInt32.toNat_add, hstart]
            exact Nat.mod_add_mod start (2 ^ 32) 1
          rw [rotated_eq_some hc, hstart, Option.toList_some, List.singleton_append,
            List.length_cons, List.range'_succ, List.map_cons, ← ih (s.call c) (start + 1) hnext]
          rfl

/-- The three selections after `n` earlier ones. -/
theorem rotation_window (strategy : Strategy) (cs : List Call) {n : Nat}
    (h : n + kNumCores ≤ (rotation { strategy } cs).length) :
    ((rotation { strategy } cs).drop n).take kNumCores =
      (RoundRobin.wrappedTurns (2 ^ 32) kNumCores n).map coreIndexToMask := by
  rw [rotation_eq { strategy } cs 0 rfl, ← List.map_drop, ← List.map_take, List.drop_range',
    List.take_range'_of_length_ge (by omega), Nat.zero_add, Nat.mul_one, List.range'_eq_map_range,
    RoundRobin.wrappedTurns, List.map_map, List.map_map]
  rfl

theorem length_rotation_replicate (s : NPUScheduler) (hs : s.strategy = .kRoundRobin) (k : Nat) :
    (s.rotation (List.replicate k .selectCore)).length = k := by
  induction k generalizing s with
  | zero => rfl
  | succ k ih =>
      have hsame : (s.call .selectCore).strategy = .kRoundRobin := by
        rw [call, selectCore_strategy, hs]
      rw [List.replicate_succ, rotation, List.length_append, ih _ hsame, rotated, if_pos hs,
        Option.toList_some, List.length_singleton, Nat.add_comm]

/-- Whatever is called in between, three selections in a row are three cores exactly when
the counter of 32 bits does not start over among them. -/
theorem rotation_nodup_iff (strategy : Strategy) (cs : List Call) (n : Nat)
    (h : n + kNumCores ≤ (rotation { strategy } cs).length) :
    (((rotation { strategy } cs).drop n).take kNumCores).Nodup ↔
      n % 2 ^ 32 + kNumCores ≤ 2 ^ 32 := by
  rw [rotation_window strategy cs h, List.nodup_map_iff coreIndexToMask_injective,
    RoundRobin.nodup_wrappedTurns (by decide) (by decide)]
  have hnot : ¬kNumCores ∣ 2 ^ 32 := by decide
  exact or_iff_left hnot

theorem rotation_nodup_first :
    3 ≤ (rotation {} [.selectCore, .notifyTaskStart 0, .selectCore, .selectCore]).length ∧
      (((rotation {} [.selectCore, .notifyTaskStart 0, .selectCore, .selectCore]).drop 0).take
        kNumCores).Nodup :=
  ⟨by decide, (rotation_nodup_iff .kRoundRobin _ 0 (by decide)).mpr (by decide)⟩

/-- The last round before the counter starts over and the first after it are both core 0's. -/
theorem rotation_break :
    ((rotation {} (List.replicate (2 ^ 32 + 2) .selectCore)).drop (2 ^ 32 - 1)).take kNumCores =
        [kCore0, kCore0, kCore1] ∧
      ¬[kCore0, kCore0, kCore1].Nodup := by
  have hlength := length_rotation_replicate {} rfl (2 ^ 32 + 2)
  have hwindow := rotation_window .kRoundRobin (List.replicate (2 ^ 32 + 2) .selectCore)
    (n := 2 ^ 32 - 1) hlength.ge
  exact ⟨hwindow, by decide⟩

end NPUScheduler
