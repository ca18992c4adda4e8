-- SUMMARY: The deduplication cache: what it suppresses, and what it remembers.
import NeuroPipeline.Edge.DetectionBox

/-!
# Detection cache

Model of detection_cache.cpp. The cache reads a steady clock at every call; a
reading is given as the time since the one before, so that it never goes back.
-/

structure DetectionCache.Detection (F : Type) where
  className : String
  confidence : F
  xMin : F
  yMin : F
  xMax : F
  yMax : F
  timestamp : Int

/-- The cache with the last reading of its clock, both times in ticks of the clock. -/
structure DetectionCache (F : Type) where
  iouThreshold : F
  ttl : Int
  cache : List (DetectionCache.Detection F)
  clock : Int
  sorted : cache.Pairwise fun a b => a.timestamp ≤ b.timestamp
  past : ∀ e ∈ cache, e.timestamp ≤ clock

namespace DetectionCache

variable {F : Type}

def new (iouThreshold : F) (ttl clock : Int) : DetectionCache F where
  iouThreshold := iouThreshold
  ttl := ttl
  cache := []
  clock := clock
  sorted := .nil
  past := by simp

/-- The clock is read, and the entries at the front that have expired go. -/
def cleanup (c : DetectionCache F) (elapsed : Nat) : DetectionCache F :=
  { c with
    cache := c.cache.dropWhile fun e => c.ttl < c.clock + elapsed - e.timestamp
    clock := c.clock + elapsed
    sorted := c.sorted.sublist (List.dropWhile_sublist _)
    past := by
      intro e he
      have hpast := c.past e ((List.dropWhile_sublist _).subset he)
      omega }

/-- The entries are in the order of their times, so what the front keeps has not expired. -/
theorem mem_cleanup {c : DetectionCache F} {elapsed : Nat} {e : Detection F}
    (he : e ∈ (c.cleanup elapsed).cache) :
    e ∈ c.cache ∧ c.clock + elapsed - e.timestamp ≤ c.ttl := by
  have hmem : e ∈ c.cache := (List.dropWhile_sublist _).subset he
  refine ⟨hmem, ?_⟩
  simp only [cleanup] at he
  have hsorted := c.sorted.sublist
    (List.dropWhile_sublist fun e => decide (c.ttl < c.clock + elapsed - e.timestamp))
  cases hkept : c.cache.dropWhile fun e => decide (c.ttl < c.clock + elapsed - e.timestamp) with
  | nil => simp [hkept] at he
  | cons front rest =>
      have hfront : ¬ c.ttl < c.clock + elapsed - front.timestamp := by
        have h := List.head_dropWhile_not
          (fun e : Detection F => decide (c.ttl < c.clock + elapsed - e.timestamp)) (l := c.cache)
          (by simp [hkept])
        simpa [hkept] using h
      rw [hkept] at he hsorted
      rcases List.mem_cons.mp he with rfl | hrest
      · omega
      · have hle := List.rel_of_pairwise_cons hsorted hrest
        omega

variable [CFloat F]

def computeIoU (ax0 ay0 ax1 ay1 bx0 by0 bx1 by1 : F) : F :=
  intersectionOverUnion ax0 ay0 ax1 ay1 bx0 by0 bx1 by1

/-- The test that makes a detection a duplicate of a cached one. -/
def duplicates (c : DetectionCache F) (cached : Detection F) (det : DetectionBox F) : Bool :=
  cached.className = det.className &&
    c.iouThreshold ≤ computeIoU cached.xMin cached.yMin cached.xMax cached.yMax
      det.xMin det.yMin det.xMax det.yMax

def entry (det : DetectionBox F) (now : Int) : Detection F :=
  ⟨det.className, det.confidence, det.xMin, det.yMin, det.xMax, det.yMax, now⟩

def pushBack (c : DetectionCache F) (det : DetectionBox F) : DetectionCache F :=
  { c with
    cache := c.cache ++ [entry det c.clock]
    sorted := by
      refine List.pairwise_append.mpr ⟨c.sorted, List.pairwise_singleton _ _, ?_⟩
      intro a ha b hb
      rw [List.mem_singleton.mp hb]
      exact c.past a ha
    past := by
      intro e he
      rcases List.mem_append.mp he with he | he
      · exact c.past e he
      · rw [List.mem_singleton.mp he]
        exact Int.le_refl _ }

def isNovel (c : DetectionCache F) (det : DetectionBox F) (elapsed : Nat) : DetectionCache F × Bool :=
  let c := c.cleanup elapsed
  if c.cache.any fun cached => c.duplicates cached det then (c, false)
  else (c.pushBack det, true)

/-- What `isNovel` said about a detection, and when. -/
structure Verdict (F : Type) where
  detection : DetectionBox F
  timestamp : Int
  novel : Bool

def Verdict.entry (v : Verdict F) : Detection F := DetectionCache.entry v.detection v.timestamp

/-- The detections of a frame, tested one after the other. -/
def dedup (c : DetectionCache F) : List (DetectionBox F) → (Nat → Nat) → DetectionCache F × List (Verdict F)
  | [], _ => (c, [])
  | det :: rest, ticks =>
    let (c₁, novel) := c.isNovel det (ticks 0)
    let (c₂, verdicts) := dedup c₁ rest fun i => ticks (i + 1)
    (c₂, ⟨det, c₁.clock, novel⟩ :: verdicts)

def novelDetections (verdicts : List (Verdict F)) : List (DetectionBox F) :=
  (verdicts.filter Verdict.novel).map Verdict.detection

/-! ## What a test does -/

@[simp] theorem isNovel_clock (c : DetectionCache F) (det : DetectionBox F) (elapsed : Nat) :
    (c.isNovel det elapsed).1.clock = c.clock + elapsed := by
  simp only [isNovel]
  split <;> rfl

theorem isNovel_config (c : DetectionCache F) (det : DetectionBox F) (elapsed : Nat) :
    (c.isNovel det elapsed).1.iouThreshold = c.iouThreshold ∧
      (c.isNovel det elapsed).1.ttl = c.ttl := by
  simp only [isNovel]
  split <;> exact ⟨rfl, rfl⟩

/-- A detection is suppressed by an entry that has not expired. -/
theorem isNovel_false {c : DetectionCache F} {det : DetectionBox F} {elapsed : Nat}
    (h : (c.isNovel det elapsed).2 = false) :
    ∃ e ∈ c.cache, c.duplicates e det = true ∧ e.timestamp ≤ c.clock + elapsed ∧
      c.clock + elapsed - e.timestamp ≤ c.ttl := by
  simp only [isNovel] at h
  split at h
  next hany =>
    obtain ⟨e, he, hdup⟩ := List.any_eq_true.mp hany
    obtain ⟨hmem, httl⟩ := mem_cleanup he
    exact ⟨e, hmem, hdup, (c.cleanup elapsed).past e he, httl⟩
  next => cases h

/-- Only the detection itself is added to the cache, and only if it is novel. -/
theorem mem_isNovel {c : DetectionCache F} {det : DetectionBox F} {elapsed : Nat} {e : Detection F}
    (he : e ∈ (c.isNovel det elapsed).1.cache) :
    e ∈ c.cache ∨ ((c.isNovel det elapsed).2 = true ∧ e = entry det (c.clock + elapsed)) := by
  simp only [isNovel] at he ⊢
  split at he
  next => exact .inl (mem_cleanup he).1
  next hany =>
    rcases List.mem_append.mp he with he | he
    · exact .inl (mem_cleanup he).1
    · exact .inr ⟨by simp [hany], List.mem_singleton.mp he⟩

/-! ## What the tests of a frame do -/

theorem dedup_cons (c : DetectionCache F) (det : DetectionBox F) (rest : List (DetectionBox F))
    (ticks : Nat → Nat) :
    c.dedup (det :: rest) ticks =
      (((c.isNovel det (ticks 0)).1.dedup rest fun i => ticks (i + 1)).1,
        ⟨det, c.clock + ticks 0, (c.isNovel det (ticks 0)).2⟩ ::
          ((c.isNovel det (ticks 0)).1.dedup rest fun i => ticks (i + 1)).2) := by
  simp only [dedup, isNovel_clock]

theorem dedup_config (c : DetectionCache F) (dets : List (DetectionBox F)) (ticks : Nat → Nat) :
    (c.dedup dets ticks).1.iouThreshold = c.iouThreshold ∧ (c.dedup dets ticks).1.ttl = c.ttl := by
  induction dets generalizing c ticks with
  | nil => exact ⟨rfl, rfl⟩
  | cons det rest ih =>
      rw [dedup_cons]
      have hhead := c.isNovel_config det (ticks 0)
      have htail := ih (c.isNovel det (ticks 0)).1 fun i => ticks (i + 1)
      exact ⟨htail.1.trans hhead.1, htail.2.trans hhead.2⟩

theorem dedup_detections (c : DetectionCache F) (dets : List (DetectionBox F)) (ticks : Nat → Nat) :
    (c.dedup dets ticks).2.map Verdict.detection = dets := by
  induction dets generalizing c ticks with
  | nil => rfl
  | cons det rest ih =>
      rw [dedup_cons, List.map_cons, ih]

/-- What is in the cache after the frame was there before, or is novel in the frame. -/
theorem mem_dedup {c : DetectionCache F} {dets : List (DetectionBox F)} {ticks : Nat → Nat}
    {e : Detection F} (he : e ∈ (c.dedup dets ticks).1.cache) :
    e ∈ c.cache ∨ ∃ v ∈ (c.dedup dets ticks).2, v.novel = true ∧ e = v.entry := by
  induction dets generalizing c ticks with
  | nil => exact .inl he
  | cons det rest ih =>
      rw [dedup_cons] at he ⊢
      rcases ih he with he₁ | ⟨v, hv, hnovel, rfl⟩
      · rcases mem_isNovel he₁ with he₀ | ⟨hnovel, rfl⟩
        · exact .inl he₀
        · exact .inr ⟨_, List.mem_cons_self, hnovel, rfl⟩
      · exact .inr ⟨v, List.mem_cons_of_mem _ hv, hnovel, rfl⟩

/-- What suppresses a detection was in the cache before the frame, or is novel in
the frame itself. -/
theorem dedup_suppressed {c : DetectionCache F} {dets : List (DetectionBox F)} {ticks : Nat → Nat}
    {v : Verdict F} (hv : v ∈ (c.dedup dets ticks).2) (hsuppressed : v.novel = false) :
    ∃ e, (e ∈ c.cache ∨ ∃ u ∈ (c.dedup dets ticks).2, u.novel = true ∧ e = u.entry) ∧
      c.duplicates e v.detection = true ∧ e.timestamp ≤ v.timestamp ∧
      v.timestamp - e.timestamp ≤ c.ttl := by
  induction dets generalizing c ticks with
  | nil => cases hv
  | cons det rest ih =>
      rw [dedup_cons] at hv ⊢
      rcases List.mem_cons.mp hv with rfl | hv
      · obtain ⟨e, he, hdup, hpast, httl⟩ := isNovel_false hsuppressed
        exact ⟨e, .inl he, hdup, hpast, httl⟩
      · obtain ⟨hiou, httl⟩ := c.isNovel_config det (ticks 0)
        obtain ⟨e, he, hdup, hpast, hage⟩ := ih hv
        refine ⟨e, ?_, by simpa [duplicates, hiou] using hdup, hpast, httl ▸ hage⟩
        rcases he with he | ⟨u, hu, hnovel, rfl⟩
        · rcases mem_isNovel he with he | ⟨hnovel, rfl⟩
          · exact .inl he
          · exact .inr ⟨_, List.mem_cons_self, hnovel, rfl⟩
        · exact .inr ⟨u, List.mem_cons_of_mem _ hu, hnovel, rfl⟩

end DetectionCache
