-- SUMMARY: The tracker: greedy matching of a frame's detections to tracks, and the ids it hands out.
import NeuroPipeline.Edge.DetectionBox
import Mathlib.Data.List.Perm.Basic

/-!
# Temporal tracker

Model of `TemporalTracker::Update`. Each detection of a frame takes the track of
largest overlap that no earlier detection of the frame has taken, or starts a
new track.
-/

structure TrackedObject (F : Type) where
  trackId : Nat
  className : String
  confidence : F
  xMin : F
  yMin : F
  xMax : F
  yMax : F
  firstSeenFrame : Nat
  lastSeenFrame : Nat
  consecutiveFrames : Int
  trajectory : List (F × F)

structure TemporalTracker.Config (F : Type) [CFloat F] where
  iouThreshold : F := CFloat.const 0.3
  maxLostFrames : Int := 30
  trajectoryLength : Int := 60
  loiterFrames : Int := 150
  runningSpeedThreshold : F := CFloat.const 0.05

/-- The tracks have distinct ids, all handed out before the next one. -/
structure TemporalTracker (F : Type) [CFloat F] where
  config : TemporalTracker.Config F
  tracks : List (TrackedObject F)
  nextTrackId : Nat
  distinct : (tracks.map TrackedObject.trackId).Nodup
  fresh : ∀ t ∈ tracks, t.trackId < nextTrackId

namespace TemporalTracker

variable {F : Type} [CFloat F]

def new (config : Config F) : TemporalTracker F where
  config := config
  tracks := []
  nextTrackId := 1
  distinct := .nil
  fresh := by simp

def computeIoU (a : DetectionBox F) (b : TrackedObject F) : F :=
  intersectionOverUnion a.xMin a.yMin a.xMax a.yMax b.xMin b.yMin b.xMax b.yMax

def center (xMin yMin xMax yMax : F) : F × F :=
  ((xMin + xMax) / CFloat.const 2, (yMin + yMax) / CFloat.const 2)

/-- An existing track that takes a detection. -/
def observe (config : Config F) (frameId : Nat) (det : DetectionBox F) (track : TrackedObject F) :
    TrackedObject F :=
  let trajectory := track.trajectory ++ [center det.xMin det.yMin det.xMax det.yMax]
  { track with
    className := det.className
    confidence := det.confidence
    xMin := det.xMin
    yMin := det.yMin
    xMax := det.xMax
    yMax := det.yMax
    lastSeenFrame := frameId
    consecutiveFrames := track.consecutiveFrames + 1
    trajectory :=
      if config.trajectoryLength < int32 trajectory.length then trajectory.tail else trajectory }

def create (trackId frameId : Nat) (det : DetectionBox F) : TrackedObject F where
  trackId := trackId
  className := det.className
  confidence := det.confidence
  xMin := det.xMin
  yMin := det.yMin
  xMax := det.xMax
  yMax := det.yMax
  firstSeenFrame := frameId
  lastSeenFrame := frameId
  consecutiveFrames := 1
  trajectory := [center det.xMin det.yMin det.xMax det.yMax]

/-! ## Matching -/

/-- The state of the loop over the detections: the tracks from before the frame,
with `track_matched`, and the tracks the frame started. -/
structure Matching (F : Type) where
  existing : List (TrackedObject F × Bool)
  created : List (TrackedObject F)
  nextTrackId : Nat
  assignedIds : List Nat

structure Candidate (F : Type) where
  index : Nat
  track : TrackedObject F
  iou : F

/-- The loop over the existing tracks, from position `t` on. -/
def bestMatch (det : DetectionBox F) : List (TrackedObject F × Bool) → Nat → Option (Candidate F) →
    Option (Candidate F)
  | [], _, best => best
  | (track, matched) :: rest, t, best =>
    let iou := computeIoU det track
    if !matched && (best.elim (CFloat.const 0) Candidate.iou < iou : Bool) then
      bestMatch det rest (t + 1) (some ⟨t, track, iou⟩)
    else bestMatch det rest (t + 1) best

def Matching.start (m : Matching F) (frameId : Nat) (det : DetectionBox F) : Matching F :=
  { m with
    created := m.created ++ [create m.nextTrackId frameId det]
    nextTrackId := m.nextTrackId + 1
    assignedIds := m.assignedIds ++ [m.nextTrackId] }

def Matching.take (m : Matching F) (config : Config F) (frameId : Nat) (det : DetectionBox F)
    (best : Candidate F) : Matching F :=
  { m with
    existing := m.existing.set best.index (observe config frameId det best.track, true)
    assignedIds := m.assignedIds ++ [best.track.trackId] }

/-- One detection. -/
def Matching.assign (config : Config F) (frameId : Nat) (m : Matching F) (det : DetectionBox F) :
    Matching F :=
  match bestMatch det m.existing 0 none with
  | some best =>
    if config.iouThreshold ≤ best.iou then m.take config frameId det best else m.start frameId det
  | none => m.start frameId det

def lost (config : Config F) (frameId : Nat) (t : TrackedObject F) : Bool :=
  t.lastSeenFrame < frameId && config.maxLostFrames < int32 (frameId - t.lastSeenFrame)

namespace Matching

def ids (m : Matching F) : List Nat :=
  (m.existing.map Prod.fst ++ m.created).map TrackedObject.trackId

/-- The ids of the tracks that have a detection of this frame. -/
def takenIds (m : Matching F) : List Nat :=
  ((m.existing.filter Prod.snd).map Prod.fst ++ m.created).map TrackedObject.trackId

/-- The tracks keep distinct ids, and each detection so far has its own track. -/
structure Valid (m : Matching F) : Prop where
  distinct : m.ids.Nodup
  fresh : ∀ i ∈ m.ids, i < m.nextTrackId
  assigned : m.assignedIds.Perm m.takenIds

omit [CFloat F] in
theorem takenIds_sublist (m : Matching F) : m.takenIds.Sublist m.ids :=
  ((List.filter_sublist.map _).append_right _).map _

omit [CFloat F] in
theorem Valid.assignedIds_nodup {m : Matching F} (h : m.Valid) : m.assignedIds.Nodup :=
  h.assigned.nodup_iff.mpr (h.distinct.sublist m.takenIds_sublist)

theorem Valid.start {m : Matching F} {frameId : Nat} {det : DetectionBox F} (h : m.Valid) :
    (m.start frameId det).Valid := by
  have hids : (m.start frameId det).ids = m.ids ++ [m.nextTrackId] := by
    simp [ids, Matching.start, create]
  have htaken : (m.start frameId det).takenIds = m.takenIds ++ [m.nextTrackId] := by
    simp [takenIds, Matching.start, create]
  constructor
  · rw [hids]
    refine List.nodup_append.mpr ⟨h.distinct, by simp, ?_⟩
    intro i hi j hj
    rw [List.mem_singleton.mp hj]
    exact Nat.ne_of_lt (h.fresh i hi)
  · intro i hi
    rw [hids] at hi
    rcases List.mem_append.mp hi with hi | hi
    · exact Nat.lt_succ_of_lt (h.fresh i hi)
    · rw [List.mem_singleton.mp hi]
      exact Nat.lt_succ_self _
  · rw [htaken]
    exact h.assigned.append_right _

/-- Marking one entry of a list adds it to the marked ones. -/
theorem filter_set_perm {α : Type} {l : List (α × Bool)} {i : Nat} {x y : α}
    (h : l[i]? = some (x, false)) :
    ((l.set i (y, true)).filter Prod.snd).Perm (l.filter Prod.snd ++ [(y, true)]) := by
  induction l generalizing i with
  | nil => simp at h
  | cons head rest ih =>
      cases i with
      | zero =>
          obtain rfl : head = (x, false) := by simpa using h
          simpa using (List.perm_append_singleton (y, true) _).symm
      | succ i =>
          have hrest := ih (i := i) (by simpa using h)
          rw [List.set_cons_succ]
          cases hmark : head.2 with
          | true => simpa [hmark] using hrest.cons head
          | false => simpa [hmark] using hrest

theorem map_set_of_eq {α β : Type} {f : α → β} {l : List α} {i : Nat} {x y : α}
    (h : l[i]? = some x) (hf : f y = f x) : (l.set i y).map f = l.map f := by
  rw [List.map_set, hf]
  apply List.ext_getElem?
  intro j
  by_cases hj : i = j
  · subst hj
    obtain ⟨hlt, rfl⟩ := List.getElem?_eq_some_iff.mp h
    simp [hlt]
  · simp [hj]

theorem Valid.take {m : Matching F} {config : Config F} {frameId : Nat} {det : DetectionBox F}
    {best : Candidate F} (h : m.Valid)
    (hbest : m.existing[best.index]? = some (best.track, false)) :
    (m.take config frameId det best).Valid := by
  have hids : (m.take config frameId det best).ids = m.ids := by
    have hmap := map_set_of_eq (f := fun p : TrackedObject F × Bool => p.1.trackId)
      (y := (observe config frameId det best.track, true)) hbest rfl
    simpa [ids, Matching.take, List.map_map, Function.comp_def] using hmap
  have htaken : (m.take config frameId det best).takenIds.Perm
      (m.takenIds ++ [best.track.trackId]) := by
    have hperm := filter_set_perm (y := observe config frameId det best.track) hbest
    have hmap := (hperm.map fun p : TrackedObject F × Bool => p.1.trackId).append_right
      (m.created.map TrackedObject.trackId)
    have hswap : ([best.track.trackId] ++ m.created.map TrackedObject.trackId).Perm
        (m.created.map TrackedObject.trackId ++ [best.track.trackId]) := List.perm_append_comm
    simp only [takenIds, Matching.take, List.map_append, List.map_map, Function.comp_def] at hmap ⊢
    refine hmap.trans ?_
    rw [List.append_assoc, List.append_assoc]
    exact hswap.append_left _
  refine ⟨hids ▸ h.distinct, hids ▸ h.fresh, ?_⟩
  exact (h.assigned.append_right _).trans htaken.symm

end Matching

/-- The loop finds an existing track that has not been taken. -/
theorem bestMatch_eq_some {det : DetectionBox F} {l : List (TrackedObject F × Bool)} {t : Nat}
    {best : Option (Candidate F)} {c : Candidate F} (h : bestMatch det l t best = some c) :
    best = some c ∨ ∃ i, c.index = t + i ∧ l[i]? = some (c.track, false) := by
  induction l generalizing t best with
  | nil => exact .inl h
  | cons head rest ih =>
      obtain ⟨track, matched⟩ := head
      have hlater : ∀ {i}, c.index = t + 1 + i → rest[i]? = some (c.track, false) →
          ∃ i, c.index = t + i ∧ ((track, matched) :: rest)[i]? = some (c.track, false) := by
        intro i hindex hget
        exact ⟨i + 1, by omega, by simpa using hget⟩
      simp only [bestMatch] at h
      split at h
      next hbetter =>
        rcases ih h with hnow | ⟨i, hindex, hget⟩
        · cases hnow
          have hfree : matched = false := by
            cases matched with
            | false => rfl
            | true => simp at hbetter
          exact .inr ⟨0, rfl, by simp [hfree]⟩
        · exact .inr (hlater hindex hget)
      next =>
        rcases ih h with hbefore | ⟨i, hindex, hget⟩
        · exact .inl hbefore
        · exact .inr (hlater hindex hget)

theorem Matching.Valid.assign {m : Matching F} {config : Config F} {frameId : Nat}
    {det : DetectionBox F} (h : m.Valid) : (m.assign config frameId det).Valid := by
  unfold Matching.assign
  split
  next best hbest =>
    split
    · rcases bestMatch_eq_some hbest with hnone | ⟨i, hindex, hget⟩
      · cases hnone
      · rw [Nat.zero_add] at hindex
        exact h.take (hindex ▸ hget)
    · exact h.start
  next => exact h.start

theorem Matching.Valid.foldl {m : Matching F} {config : Config F} {frameId : Nat}
    {detections : List (DetectionBox F)} (h : m.Valid) :
    (detections.foldl (Matching.assign config frameId) m).Valid := by
  induction detections generalizing m with
  | nil => exact h
  | cons det rest ih => exact ih h.assign

theorem Matching.length_foldl (m : Matching F) (config : Config F) (frameId : Nat)
    (detections : List (DetectionBox F)) :
    (detections.foldl (Matching.assign config frameId) m).assignedIds.length =
      m.assignedIds.length + detections.length := by
  induction detections generalizing m with
  | nil => rfl
  | cons det rest ih =>
      have hone : (m.assign config frameId det).assignedIds.length = m.assignedIds.length + 1 := by
        unfold Matching.assign
        split
        · split <;> simp [Matching.take, Matching.start]
        · simp [Matching.start]
      rw [List.foldl_cons, ih, hone, List.length_cons]
      omega

/-! ## Update -/

/-- The matching as a frame begins. -/
def matching (t : TemporalTracker F) : Matching F where
  existing := t.tracks.map fun track => (track, false)
  created := []
  nextTrackId := t.nextTrackId
  assignedIds := []

theorem matching_valid (t : TemporalTracker F) : t.matching.Valid where
  distinct := by simpa [Matching.ids, matching, Function.comp_def] using t.distinct
  fresh := by simpa [Matching.ids, matching] using t.fresh
  assigned := by
    have hnone : (t.tracks.map fun track => (track, false)).filter Prod.snd = [] := by simp
    simp [Matching.takenIds, matching, hnone]

/-- The matching after the loop over the detections. -/
def assignAll (t : TemporalTracker F) (detections : List (DetectionBox F)) (frameId : Nat) : Matching F :=
  detections.foldl (Matching.assign t.config frameId) t.matching

theorem assignAll_valid (t : TemporalTracker F) (detections : List (DetectionBox F)) (frameId : Nat) :
    (t.assignAll detections frameId).Valid :=
  t.matching_valid.foldl

/-- `Update`: the tracks after the frame, and the ids in the order of the detections. -/
def update (t : TemporalTracker F) (detections : List (DetectionBox F)) (frameId : Nat) :
    TemporalTracker F × List Nat :=
  let m := t.assignAll detections frameId
  let tracks := m.existing.map Prod.fst ++ m.created
  have hvalid : m.Valid := t.assignAll_valid detections frameId
  ({ config := t.config
     tracks := tracks.filter fun track => !lost t.config frameId track
     nextTrackId := m.nextTrackId
     distinct := hvalid.distinct.sublist (List.filter_sublist.map _)
     fresh := fun _ htrack =>
       hvalid.fresh _ (List.mem_map_of_mem (List.mem_of_mem_filter htrack)) },
    m.assignedIds)

/-- No two detections of a frame are given the same id. -/
theorem update_nodup (t : TemporalTracker F) (detections : List (DetectionBox F)) (frameId : Nat) :
    (t.update detections frameId).2.Nodup :=
  (t.assignAll_valid detections frameId).assignedIds_nodup

theorem update_length (t : TemporalTracker F) (detections : List (DetectionBox F)) (frameId : Nat) :
    (t.update detections frameId).2.length = detections.length := by
  have h := t.matching.length_foldl t.config frameId detections
  exact h.trans (Nat.zero_add _)

end TemporalTracker
