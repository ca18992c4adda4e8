-- SUMMARY: The eviction loop with the limits that the edge can be started with: when it ends.
import NeuroPipeline.Edge.CommandLine
import NeuroPipeline.Edge.DetectionQueue
import Mathlib.Logic.Function.Iterate

/-!
# Termination of the eviction loop

The loop of `Enqueue` evicts while its condition holds. It holds the mutex meanwhile,
so every other call waits for its end.
-/

open ConfigManager

namespace DetectionQueue

variable {R : Type} {codec : Codec R} {q : DetectionQueue codec} {size : Nat}

/-- After some rounds the condition of the loop does not hold. -/
def EvictionEnds (q : DetectionQueue codec) (size : Nat) : Prop :=
  ∃ n, (evictOldest^[n] q).needsRoom size = false

/-- `Enqueue` gets past its loop; a result that cannot be serialized does not get to it. -/
def EnqueueEnds (q : DetectionQueue codec) (result : R) : Prop :=
  ∀ bytes, codec.serializeToString result = some bytes → q.EvictionEnds bytes.length

theorem evictionEnds_of_evictLoop {n : Nat} {q' : DetectionQueue codec}
    (h : evictLoop size n q = some q') : q.EvictionEnds size := by
  induction n generalizing q with
  | zero =>
    cases hroom : q.needsRoom size with
    | true =>
      simp only [evictLoop, hroom, if_true] at h
      cases h
    | false => exact ⟨0, hroom⟩
  | succ n ih =>
    cases hroom : q.needsRoom size with
    | true =>
      simp only [evictLoop, hroom, if_true] at h
      obtain ⟨k, hk⟩ := ih h
      exact ⟨k + 1, by rwa [Function.iterate_succ_apply]⟩
    | false => exact ⟨0, hroom⟩

theorem iterate_evictOldest_config (n : Nat) : (evictOldest^[n] q).config = q.config := by
  induction n with
  | zero => rfl
  | succ n ih => rw [Function.iterate_succ_apply', evictOldest_config, ih]

/-- Without room for a single entry the condition holds for every queue. -/
theorem not_evictionEnds (h : q.config.maxEntries = 0) : ¬ q.EvictionEnds size := by
  rintro ⟨n, hn⟩
  rw [needsRoom, iterate_evictOldest_config, h] at hn
  cases hn

theorem evictionEnds_iff : q.EvictionEnds size ↔ q.config.maxEntries ≠ 0 := by
  constructor
  · intro h hzero
    exact not_evictionEnds hzero h
  · intro h
    obtain ⟨q', hq'⟩ := evictLoop_isSome size h rfl
    exact evictionEnds_of_evictLoop hq'

/-- The model of `Enqueue` has a result exactly when the loop ends. -/
theorem enqueue_isSome_iff (result : R) :
    (q.enqueue result).isSome = true ↔ q.EnqueueEnds result := by
  unfold enqueue EnqueueEnds
  split
  next hs => simp [hs]
  next bytes hs =>
    simp only [Option.isSome_map, hs, Option.some.injEq, forall_eq', Option.isSome_iff_exists]
    constructor
    · rintro ⟨q', hq'⟩
      exact evictionEnds_of_evictLoop hq'
    · intro h
      exact evictLoop_isSome _ (evictionEnds_iff.mp h) rfl

end DetectionQueue

namespace EdgeMain

variable {F : Type} [CFloat F]

/-- The limits that the coordinator hands to the queue. -/
def GrpcConfig.cacheQueue (grpc : GrpcConfig) : DetectionQueue.Config where
  maxEntries := grpc.cacheQueueMaxEntries
  maxMemoryBytes := grpc.cacheQueueMaxMemoryBytes

theorem storeNumber_grpc {c c' : Config F} {value : Text} {store : Nat → Config F}
    (h : storeNumber value store = .ok c') (hstore : ∀ n, (store n).grpc = c.grpc) :
    c'.grpc = c.grpc := by
  unfold storeNumber at h
  cases hn : stoul (.ofList value) with
  | error e =>
    rw [hn] at h
    cases h
  | ok n =>
    rw [hn] at h
    cases h
    exact hstore _

theorem apply_grpc {p p' : Parsed F} {value : Text} {a : Argument}
    (h : p.apply value a = .ok p') : p'.config.grpc = p.config.grpc := by
  cases a with
  | config =>
    cases h
    rfl
  | option o =>
    obtain ⟨c, hc, rfl⟩ := Except.map_eq_ok.mp h
    cases o
    case video | model | device =>
      cases hc
      rfl
    case width | height | maxFrames =>
      simp only [Config.apply] at hc
      exact storeNumber_grpc hc fun _ => rfl

/-- No argument changes what concerns the connection. -/
theorem parseArgs_grpc {args : List Text} {p p' : Parsed F} (h : parseArgs args p = .ok p') :
    p'.config.grpc = p.config.grpc := by
  induction args using given.induct generalizing p with
  | case1 =>
    cases h
    rfl
  | case2 arg =>
    simp only [parseArgs] at h
    split at h
    case isTrue => cases h
    case isFalse =>
      cases h
      rfl
  | case3 arg value rest a ha ih =>
    simp only [parseArgs, ha] at h
    cases hp : p.apply value a with
    | error e =>
      rw [hp] at h
      cases h
    | ok q =>
      rw [hp] at h
      exact (ih h).trans (apply_grpc hp)
  | case4 arg value rest ha ih =>
    simp only [parseArgs, ha] at h
    split at h
    case isTrue => cases h
    case isFalse => exact ih h

variable [OfNumeral F]

/-- The number of entries that the file sets, 1000 where it sets none. -/
def cacheEntries (cfg : ConfigManager) : Int :=
  cfg.getInt "edge.cache_queue.max_entries".toList 1000

theorem load_cacheQueue {p : Parsed F} {files : Text → Option Text}
    (h : p.config.grpc = {}) :
    (p.load files).grpc.cacheQueueMaxEntries =
      sizeT (cacheEntries (fileAt p.configFile files)) := by
  rw [Parsed.load, fileAt]
  by_cases hpath : p.configFile.isEmpty
  · rw [if_pos hpath, if_pos hpath, h]
    rfl
  · rw [if_neg hpath, if_neg hpath]
    cases files p.configFile with
    | none =>
      change p.config.grpc.cacheQueueMaxEntries = _
      rw [h]
      rfl
    | some content =>
      change sizeT (ConfigManager.getInt _ _ (int32 p.config.grpc.cacheQueueMaxEntries)) = _
      rw [h]
      rfl

theorem startedWith_cacheQueue {args : List Text} {files : Text → Option Text}
    {config : Config F} (h : startedWith args files = .ok config) :
    config.grpc.cacheQueueMaxEntries = sizeT (cacheEntries (mergedFile args files)) := by
  obtain ⟨p, hp, rfl⟩ := Except.map_eq_ok.mp h
  have hm : Stored (argumentValue args) p := stored_start.parseArgs hp
  rw [load_cacheQueue (parseArgs_grpc hp), mergedFile, ← hm.configFile]

/-- Every number of a file but zero leaves room, the negative ones as very large numbers. -/
theorem sizeT_cacheEntries (cfg : ConfigManager) :
    sizeT (cacheEntries cfg) = 0 ↔ cacheEntries cfg = 0 := by
  have hbounds : -2 ^ 31 ≤ cacheEntries cfg ∧ cacheEntries cfg < 2 ^ 31 := by
    rw [cacheEntries, getInt_eq]
    cases hfile : fileInt cfg "edge.cache_queue.max_entries".toList with
    | none => decide
    | some n => exact fileInt_bounds hfile
  rw [sizeT]
  omega

/-- With the limits of a start, `Enqueue` ends for every queue unless the file sets no
entries, or there is nothing to put into the queue. -/
theorem enqueueEnds_iff_cacheEntries {R : Type} {codec : Codec R} (args : List Text)
    (files : Text → Option Text) (config : Config F) (q : DetectionQueue codec) (result : R)
    (hstart : startedWith args files = .ok config) (hq : q.config = config.grpc.cacheQueue) :
    q.EnqueueEnds result ↔
      cacheEntries (mergedFile args files) ≠ 0 ∨ codec.serializeToString result = none := by
  have hends (size : Nat) :
      q.EvictionEnds size ↔ cacheEntries (mergedFile args files) ≠ 0 := by
    rw [DetectionQueue.evictionEnds_iff, hq, GrpcConfig.cacheQueue,
      startedWith_cacheQueue hstart, Ne, sizeT_cacheEntries]
  unfold DetectionQueue.EnqueueEnds
  simp only [hends]
  cases codec.serializeToString result with
  | none => simp
  | some bytes => simp

def uncachedFile (path : Text) : Option Text :=
  if path = "edge.yaml".toList then some "edge:\n  cache_queue:\n    max_entries: 0\n".toList
  else none

def fileArgs : List Text := ["-c", "edge.yaml"].map String.toList

theorem enqueueEnds_iff_defaultEntries : ∃ config : Config Binary32,
    startedWith [] uncachedFile = .ok config ∧
      (DetectionQueue.new Codec.byte config.grpc.cacheQueue).EnqueueEnds 7 :=
  ⟨_, rfl, (enqueueEnds_iff_cacheEntries [] uncachedFile _ _ 7 rfl rfl).mpr
    (.inl (by decide +kernel))⟩

/-- The first result is never enqueued where the file sets no entries. -/
theorem not_enqueueEnds_noEntries :
    ¬ ∀ (args : List Text) (files : Text → Option Text) (config : Config Binary32)
        (q : DetectionQueue Codec.byte) (result : UInt8),
      startedWith args files = .ok config → q.config = config.grpc.cacheQueue →
        q.EnqueueEnds result := by
  intro h
  obtain ⟨config, hstart, hzero⟩ : ∃ config : Config Binary32,
      startedWith fileArgs uncachedFile = .ok config ∧ config.grpc.cacheQueueMaxEntries = 0 :=
    ⟨_, rfl, by decide +kernel⟩
  have hends := h fileArgs uncachedFile config (.new Codec.byte config.grpc.cacheQueue) 7 hstart rfl
  exact DetectionQueue.not_evictionEnds hzero (hends [7] rfl)

end EdgeMain
