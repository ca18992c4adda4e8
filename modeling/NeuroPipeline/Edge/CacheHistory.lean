-- SUMMARY: The deduplication cache against the history of its calls: what it has forgotten makes no difference.
import NeuroPipeline.Edge.DetectionCache
import NeuroPipeline.Edge.Overlap
import NeuroPipeline.Lib.TransitionSystem
import Mathlib.Data.List.TakeWhile

/-!
# History of the detection cache

Calls of `IsNovel` and `Cleanup`, one after another, against a statement of what the
verdicts should be that remembers every call.
-/

/-- A call, with the time since the one before it. -/
inductive CacheAct (F : Type) where
  | isNovel (det : DetectionBox F) (elapsed : Nat)
  | cleanup (elapsed : Nat)

def cacheSystem (F : Type) [CFloat F] : TransitionSystem (DetectionCache F) (CacheAct F) where
  init c := ∃ iouThreshold ttl clock, c = .new iouThreshold ttl clock
  step c
    | .isNovel det elapsed => some (c.isNovel det elapsed).1
    | .cleanup elapsed => some (c.cleanup elapsed)

namespace DetectionCache

variable {F : Type} [CFloat F]

/-- What `IsNovel` has said so far. -/
def verdicts (t : List (DetectionCache F × CacheAct F)) : List (Verdict F) :=
  t.filterMap fun p =>
    match p.2 with
    | .isNovel det elapsed => some ⟨det, p.1.clock + elapsed, (p.1.isNovel det elapsed).2⟩
    | .cleanup _ => none

/-- Two detections are of one class and overlap enough to count as one. -/
def Repeats (iouThreshold : F) (a b : DetectionBox F) : Prop :=
  a.className = b.className ∧
    iouThreshold ≤ computeIoU a.xMin a.yMin a.xMax a.yMax b.xMin b.yMin b.xMax b.yMax

/-- The verdict that all calls so far determine: no detection that was novel, and not
longer ago than the TTL, is repeated. -/
def NovelAfter (iouThreshold : F) (ttl : Int) (history : List (Verdict F)) (det : DetectionBox F)
    (now : Int) : Prop :=
  ∀ v ∈ history, v.novel = true → now - v.timestamp ≤ ttl → ¬ Repeats iouThreshold v.detection det

variable {iouThreshold : F} {ttl clock : Int} {c c' : DetectionCache F}
  {t : List (DetectionCache F × CacheAct F)} {det : DetectionBox F} {elapsed : Nat}

theorem duplicates_entry {v : Verdict F} (h : c.iouThreshold = iouThreshold) :
    c.duplicates v.entry det = true ↔ Repeats iouThreshold v.detection det := by
  rw [duplicates, h, Bool.and_eq_true, decide_eq_true_eq, decide_eq_true_eq]
  exact Iff.rfl

theorem verdicts_isNovel : verdicts (t ++ [(c, .isNovel det elapsed)]) =
    verdicts t ++ [⟨det, c.clock + elapsed, (c.isNovel det elapsed).2⟩] := by
  simp [verdicts]

theorem verdicts_cleanup : verdicts (t ++ [(c, .cleanup elapsed)]) = verdicts t := by
  simp [verdicts]

omit [CFloat F] in
/-- What has not expired stays. -/
theorem mem_cleanup_of_mem {e : Detection F} (he : e ∈ c.cache)
    (hage : c.clock + elapsed - e.timestamp ≤ c.ttl) : e ∈ (c.cleanup elapsed).cache := by
  rw [← List.takeWhile_append_dropWhile (l := c.cache)
    (p := fun e => decide (c.ttl < c.clock + elapsed - e.timestamp))] at he
  rcases List.mem_append.mp he with hgone | hkept
  · have hexpired := of_decide_eq_true (List.mem_takeWhile_imp (p := fun e => decide _) hgone)
    omega
  · exact hkept

/-- The cache after calls with the given verdicts: it has what was novel and has not
expired, and no two of its entries count as one. -/
structure Recalls (iouThreshold : F) (ttl : Int) (history : List (Verdict F))
    (c : DetectionCache F) : Prop where
  threshold : c.iouThreshold = iouThreshold
  lifetime : c.ttl = ttl
  said : ∀ e ∈ c.cache, ∃ v ∈ history, v.novel = true ∧ e = v.entry
  kept : ∀ v ∈ history, v.novel = true → c.clock - v.timestamp ≤ ttl → v.entry ∈ c.cache
  distinct : c.cache.Pairwise fun e e' => e.className = e'.className →
    ¬ iouThreshold ≤ computeIoU e.xMin e.yMin e.xMax e.yMax e'.xMin e'.yMin e'.xMax e'.yMax

variable {history : List (Verdict F)}

theorem recalls_new : Recalls iouThreshold ttl [] (.new iouThreshold ttl clock) where
  threshold := rfl
  lifetime := rfl
  said := by simp [new]
  kept := by simp
  distinct := List.Pairwise.nil

theorem Recalls.cleanup (h : Recalls iouThreshold ttl history c) (elapsed : Nat) :
    Recalls iouThreshold ttl history (c.cleanup elapsed) where
  threshold := h.threshold
  lifetime := h.lifetime
  said e he := h.said e (mem_cleanup he).1
  kept v hv hnovel hage := by
    have hage : c.clock + elapsed - v.timestamp ≤ ttl := hage
    apply mem_cleanup_of_mem
    · exact h.kept v hv hnovel (by omega)
    · rw [h.lifetime]
      exact hage
  distinct := h.distinct.sublist (List.dropWhile_sublist _)

/-- A detection that is suppressed leaves no entry. -/
theorem Recalls.suppress (h : Recalls iouThreshold ttl history c) {v : Verdict F}
    (hv : v.novel = false) : Recalls iouThreshold ttl (history ++ [v]) c where
  threshold := h.threshold
  lifetime := h.lifetime
  said e he := by
    obtain ⟨v, hv, hentry⟩ := h.said e he
    exact ⟨v, List.mem_append_left _ hv, hentry⟩
  kept v' hv' hnovel := by
    rcases List.mem_append.mp hv' with hv' | hv'
    · exact h.kept v' hv' hnovel
    · rw [List.mem_singleton.mp hv', hv] at hnovel
      cases hnovel
  distinct := h.distinct

theorem Recalls.pushBack (h : Recalls iouThreshold ttl history c)
    (hnew : ∀ e ∈ c.cache, c.duplicates e det = false) :
    Recalls iouThreshold ttl (history ++ [⟨det, c.clock, true⟩]) (c.pushBack det) where
  threshold := h.threshold
  lifetime := h.lifetime
  said e he := by
    rcases List.mem_append.mp he with he | he
    · obtain ⟨v, hv, hentry⟩ := h.said e he
      exact ⟨v, List.mem_append_left _ hv, hentry⟩
    · exact ⟨_, List.mem_append_right _ (List.mem_singleton_self _), rfl, List.mem_singleton.mp he⟩
  kept v hv hnovel hage := by
    rcases List.mem_append.mp hv with hv | hv
    · exact List.mem_append_left _ (h.kept v hv hnovel hage)
    · rw [List.mem_singleton.mp hv]
      exact List.mem_append_right _ (List.mem_singleton_self _)
  distinct := by
    refine List.pairwise_append.mpr ⟨h.distinct, List.pairwise_singleton _ _, ?_⟩
    intro e he e' he' hclass hoverlap
    obtain ⟨v, -, -, rfl⟩ := h.said e he
    rw [List.mem_singleton.mp he'] at hclass hoverlap
    have hdup := (duplicates_entry h.threshold).mpr (show Repeats _ _ _ from ⟨hclass, hoverlap⟩)
    rw [hnew _ he] at hdup
    cases hdup

/-- The verdict is the one that the history determines. -/
theorem Recalls.isNovel_iff (h : Recalls iouThreshold ttl history c) (det : DetectionBox F)
    (elapsed : Nat) :
    (c.isNovel det elapsed).2 = true ↔
      NovelAfter iouThreshold ttl history det (c.clock + elapsed) := by
  have hclean := h.cleanup elapsed
  simp only [isNovel]
  split
  next hany =>
    refine iff_of_false Bool.false_ne_true ?_
    obtain ⟨e, he, hdup⟩ := List.any_eq_true.mp hany
    obtain ⟨v, hv, hnovel, rfl⟩ := hclean.said e he
    obtain ⟨-, hage⟩ := mem_cleanup he
    intro hafter
    rw [h.lifetime] at hage
    exact hafter v hv hnovel hage ((duplicates_entry hclean.threshold).mp hdup)
  next hany =>
    refine iff_of_true rfl fun v hv hnovel hage hrepeats => hany ?_
    apply List.any_eq_true.mpr
    exact ⟨v.entry, hclean.kept v hv hnovel hage, (duplicates_entry hclean.threshold).mpr hrepeats⟩

theorem Recalls.isNovel (h : Recalls iouThreshold ttl history c) (det : DetectionBox F)
    (elapsed : Nat) :
    Recalls iouThreshold ttl (history ++ [⟨det, c.clock + elapsed, (c.isNovel det elapsed).2⟩])
      (c.isNovel det elapsed).1 := by
  have hclean := h.cleanup elapsed
  simp only [DetectionCache.isNovel]
  split
  next => exact hclean.suppress rfl
  next hany =>
    apply hclean.pushBack
    intro e he
    cases hdup : (c.cleanup elapsed).duplicates e det with
    | false => rfl
    | true => exact absurd (List.any_eq_true.mpr ⟨e, he, hdup⟩) hany

theorem recalls_step {l : CacheAct F} (h : Recalls iouThreshold ttl (verdicts t) c)
    (hs : (cacheSystem F).step c l = some c') :
    Recalls iouThreshold ttl (verdicts (t ++ [(c, l)])) c' := by
  cases l with
  | isNovel det elapsed =>
    cases hs
    rw [verdicts_isNovel]
    exact h.isNovel det elapsed
  | cleanup elapsed =>
    cases hs
    rw [verdicts_cleanup]
    exact h.cleanup elapsed

theorem recalls_of_run (hrun : (cacheSystem F).Run (.new iouThreshold ttl clock) t c) :
    Recalls iouThreshold ttl (verdicts t) c :=
  hrun.invariant_history (I := fun t c => Recalls iouThreshold ttl (verdicts t) c)
    (fun _ _ _ _ h hs => recalls_step h hs) recalls_new

/-- In every run, in exact arithmetic, each verdict is the one that the history of calls
determines, and the entries of a class overlap less than the threshold. -/
theorem verdict_iff_novelAfter (iouThreshold : ℚ) (ttl clock : Int)
    {t : List (DetectionCache ℚ × CacheAct ℚ)} {c : DetectionCache ℚ}
    (hrun : (cacheSystem ℚ).Run (.new iouThreshold ttl clock) t c) :
    (∀ det elapsed, (c.isNovel det elapsed).2 = true ↔
      NovelAfter iouThreshold ttl (verdicts t) det (c.clock + elapsed)) ∧
    c.cache.Pairwise fun e e' => e.className = e'.className →
      computeIoU e.xMin e.yMin e.xMax e.yMax e'.xMin e'.yMin e'.xMax e'.yMax < iouThreshold ∧
      computeIoU e'.xMin e'.yMin e'.xMax e'.yMax e.xMin e.yMin e.xMax e.yMax < iouThreshold := by
  have h := recalls_of_run hrun
  refine ⟨h.isNovel_iff, h.distinct.imp ?_⟩
  intro e e' hdistinct hclass
  have hlt := not_le.mp (hdistinct hclass)
  refine ⟨hlt, ?_⟩
  rw [computeIoU, intersectionOverUnion_comm]
  exact hlt

/-- A person in the left half of the frame. -/
def leftPerson : DetectionBox ℚ := ⟨0, "person", 1, 0, 0, 1 / 2, 1⟩

/-- The same person, seen again one tick later. -/
theorem verdict_iff_novelAfter_leftPerson :
    let c := ((DetectionCache.new (1 / 2 : ℚ) 2 0).isNovel leftPerson 0).1
    (c.isNovel leftPerson 1).2 = false ∧
      ((c.isNovel leftPerson 1).2 = true ↔
        NovelAfter (1 / 2) 2 [⟨leftPerson, 0, true⟩] leftPerson 1) :=
  ⟨by decide +kernel, (verdict_iff_novelAfter (1 / 2) 2 0
    (.snoc (l := .isNovel leftPerson 0) .nil rfl)).1 leftPerson 1⟩

end DetectionCache
