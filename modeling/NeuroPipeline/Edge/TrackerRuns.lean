-- SUMMARY: Runs of the tracker: ids, trajectories and removals over whole sequences of frames.
import NeuroPipeline.Edge.TemporalTracker
import NeuroPipeline.Lib.TransitionSystem
import Mathlib.Data.List.Nodup

/-!
# Runs of the tracker

Calls of `Update` with frame ids that do not go back. What the tracker forgets, the
detections a track has taken and the ids of removed tracks, is recorded beside it.
Ids are not bounded here: no more than 2^64 tracks are created.
-/

/-- A detection that a track has taken. -/
structure Sighting (F : Type) where
  frameId : Nat
  trackId : Nat
  det : DetectionBox F

structure TrackerRun (F : Type) [CFloat F] where
  tracker : TemporalTracker F
  lastFrame : Option Nat
  sightings : List (Sighting F)
  /-- the ids of the tracks removed so far -/
  removed : List Nat

structure TrackerCall (F : Type) where
  detections : List (DetectionBox F)
  frameId : Nat

namespace TemporalTracker

variable {F : Type} [CFloat F]

def activeIds (t : TemporalTracker F) : List Nat := t.tracks.map TrackedObject.trackId

/-! ## One call -/

/-- A track from before the call after the loop: as it was, or with the detection
that was given its id. -/
def Entry (config : Config F) (frameId : Nat) (given : List (Nat × DetectionBox F))
    (track : TrackedObject F) (p : TrackedObject F × Bool) : Prop :=
  p = (track, false) ∨
    ∃ det, p = (observe config frameId det track, true) ∧ (track.trackId, det) ∈ given

theorem Entry.mono {config : Config F} {frameId : Nat} {given given' : List (Nat × DetectionBox F)}
    {track : TrackedObject F} {p : TrackedObject F × Bool} (h : Entry config frameId given track p)
    (hsub : given ⊆ given') : Entry config frameId given' track p := by
  rcases h with h | ⟨det, hp, hmem⟩
  · exact .inl h
  · exact .inr ⟨det, hp, hsub hmem⟩

theorem Entry.trackId {config : Config F} {frameId : Nat} {given : List (Nat × DetectionBox F)}
    {track : TrackedObject F} {p : TrackedObject F × Bool} (h : Entry config frameId given track p) :
    p.1.trackId = track.trackId := by
  rcases h with rfl | ⟨det, rfl, -⟩ <;> rfl

/-- The loop over the detections, with the ids given so far. -/
structure Matched (t : TemporalTracker F) (frameId : Nat) (given : List (Nat × DetectionBox F))
    (m : Matching F) : Prop where
  old : ∀ p ∈ m.existing, ∃ track ∈ t.tracks, Entry t.config frameId given track p
  kept : ∀ track ∈ t.tracks, ∃ p ∈ m.existing, Entry t.config frameId given track p
  created : ∀ track ∈ m.created, ∃ i det, (i, det) ∈ given ∧ t.nextTrackId ≤ i ∧
    track = create i frameId det
  placed : ∀ i det, (i, det) ∈ given →
    (∃ track ∈ t.tracks, track.trackId = i ∧
      (observe t.config frameId det track, true) ∈ m.existing) ∨
    (t.nextTrackId ≤ i ∧ create i frameId det ∈ m.created)
  next : t.nextTrackId ≤ m.nextTrackId

namespace Matched

variable {t : TemporalTracker F} {frameId : Nat} {given : List (Nat × DetectionBox F)}
  {m : Matching F} {det : DetectionBox F}

theorem start (h : Matched t frameId given m) :
    Matched t frameId (given ++ [(m.nextTrackId, det)]) (m.start frameId det) where
  old p hp := by
    obtain ⟨track, htrack, hentry⟩ := h.old p hp
    exact ⟨track, htrack, hentry.mono (List.subset_append_left _ _)⟩
  kept track htrack := by
    obtain ⟨p, hp, hentry⟩ := h.kept track htrack
    exact ⟨p, hp, hentry.mono (List.subset_append_left _ _)⟩
  created track htrack := by
    rcases List.mem_append.mp htrack with hbefore | hnew
    · obtain ⟨i, d, hmem, hle, rfl⟩ := h.created track hbefore
      exact ⟨i, d, List.mem_append_left _ hmem, hle, rfl⟩
    · exact ⟨m.nextTrackId, det, by simp, h.next, List.mem_singleton.mp hnew⟩
  placed i d hmem := by
    rcases List.mem_append.mp hmem with hbefore | hnew
    · rcases h.placed i d hbefore with hold | ⟨hle, hcreated⟩
      · exact .inl hold
      · exact .inr ⟨hle, List.mem_append_left _ hcreated⟩
    · obtain ⟨rfl, rfl⟩ := Prod.mk.inj (List.mem_singleton.mp hnew)
      exact .inr ⟨h.next, by simp [Matching.start]⟩
  next := Nat.le_succ_of_le h.next

/-- An entry that another one does not replace is still there. -/
theorem mem_set_of_ne {α : Type} {l : List α} {i : Nat} {x y z : α} (hx : l[i]? = some x)
    (hz : z ∈ l) (hne : z ≠ x) : z ∈ l.set i y := by
  obtain ⟨j, hj⟩ := List.mem_iff_getElem?.mp hz
  have hij : i ≠ j := by
    rintro rfl
    exact hne (Option.some.inj (hj.symm.trans hx))
  exact List.mem_iff_getElem?.mpr ⟨j, by rw [List.getElem?_set_ne hij, hj]⟩

theorem take {best : Candidate F} (h : Matched t frameId given m)
    (hbest : m.existing[best.index]? = some (best.track, false)) :
    Matched t frameId (given ++ [(best.track.trackId, det)])
      (m.take t.config frameId det best) := by
  have hsub : given ⊆ given ++ [(best.track.trackId, det)] := List.subset_append_left _ _
  obtain ⟨hlt, -⟩ := List.getElem?_eq_some_iff.mp hbest
  have htrack : best.track ∈ t.tracks := by
    obtain ⟨track, htrack, hentry⟩ := h.old _ (List.mem_of_getElem? hbest)
    rcases hentry with heq | ⟨d, heq, -⟩
    · rw [(Prod.mk.inj heq).1]
      exact htrack
    · cases (Prod.mk.inj heq).2
  constructor
  · intro p hp
    rcases List.mem_or_eq_of_mem_set hp with hbefore | rfl
    · obtain ⟨track, htrack, hentry⟩ := h.old p hbefore
      exact ⟨track, htrack, hentry.mono hsub⟩
    · exact ⟨best.track, htrack, .inr ⟨det, rfl, by simp⟩⟩
  · intro track hmem
    obtain ⟨p, hp, hentry⟩ := h.kept track hmem
    by_cases hsame : p = (best.track, false)
    · -- this is the entry that the detection takes
      refine ⟨_, List.mem_set hlt _, .inr ⟨det, ?_, ?_⟩⟩
      · rcases hentry with heq | ⟨d, heq, -⟩
        · rw [(Prod.mk.inj (heq.symm.trans hsame)).1]
        · cases (Prod.mk.inj (heq.symm.trans hsame)).2
      · rw [← hentry.trackId, hsame]
        simp
    · exact ⟨p, mem_set_of_ne hbest hp hsame, hentry.mono hsub⟩
  · intro track hcreated
    obtain ⟨i, d, hmem, hle, rfl⟩ := h.created track hcreated
    exact ⟨i, d, hsub hmem, hle, rfl⟩
  · intro i d hmem
    rcases List.mem_append.mp hmem with hbefore | hnew
    · rcases h.placed i d hbefore with ⟨track, hold, hid, hp⟩ | hcreated
      · exact .inl ⟨track, hold, hid, mem_set_of_ne hbest hp (by simp)⟩
      · exact .inr hcreated
    · obtain ⟨rfl, rfl⟩ := Prod.mk.inj (List.mem_singleton.mp hnew)
      exact .inl ⟨best.track, htrack, rfl, List.mem_set hlt _⟩
  · exact h.next

theorem assign (h : Matched t frameId given m) (det : DetectionBox F) :
    ∃ i, (m.assign t.config frameId det).assignedIds = m.assignedIds ++ [i] ∧
      Matched t frameId (given ++ [(i, det)]) (m.assign t.config frameId det) := by
  cases hbest : bestMatch det m.existing 0 none with
  | none =>
      simp only [Matching.assign, hbest]
      exact ⟨m.nextTrackId, rfl, h.start⟩
  | some best =>
      by_cases hiou : t.config.iouThreshold ≤ best.iou
      · simp only [Matching.assign, hbest, hiou, if_true]
        refine ⟨best.track.trackId, rfl, h.take ?_⟩
        rcases bestMatch_eq_some hbest with hnone | ⟨i, hindex, hget⟩
        · cases hnone
        · rwa [hindex, Nat.zero_add]
      · simp only [Matching.assign, hbest, hiou, if_false]
        exact ⟨m.nextTrackId, rfl, h.start⟩

theorem foldl (done : List (DetectionBox F)) (h : Matched t frameId (m.assignedIds.zip done) m)
    (hlen : m.assignedIds.length = done.length) (detections : List (DetectionBox F)) :
    Matched t frameId
      ((detections.foldl (Matching.assign t.config frameId) m).assignedIds.zip (done ++ detections))
      (detections.foldl (Matching.assign t.config frameId) m) := by
  induction detections generalizing m done with
  | nil => simpa using h
  | cons det rest ih =>
      obtain ⟨i, hids, hone⟩ := h.assign det
      have hzip : (m.assign t.config frameId det).assignedIds.zip (done ++ [det]) =
          m.assignedIds.zip done ++ [(i, det)] := by
        rw [hids, List.zip_append hlen]
        rfl
      have hrest := ih (done ++ [det]) (hzip ▸ hone) (by simp [hids, hlen])
      rwa [List.append_assoc, List.singleton_append] at hrest

end Matched

theorem matching_matched (t : TemporalTracker F) (frameId : Nat) :
    Matched t frameId [] t.matching where
  old p hp := by
    obtain ⟨track, htrack, rfl⟩ := List.mem_map.mp hp
    exact ⟨track, htrack, .inl rfl⟩
  kept track htrack := ⟨_, List.mem_map_of_mem htrack, .inl rfl⟩
  created track htrack := by cases htrack
  placed i det hmem := by cases hmem
  next := Nat.le_refl _

/-- The detections of a frame with the ids that they are given. -/
def given (t : TemporalTracker F) (detections : List (DetectionBox F)) (frameId : Nat) :
    List (Nat × DetectionBox F) :=
  (t.update detections frameId).2.zip detections

theorem assignAll_matched (t : TemporalTracker F) (detections : List (DetectionBox F))
    (frameId : Nat) :
    Matched t frameId (t.given detections frameId) (t.assignAll detections frameId) :=
  Matched.foldl [] (t.matching_matched frameId) rfl detections

/-! ## The tracks after a call -/

section

variable {t : TemporalTracker F} {detections : List (DetectionBox F)} {frameId : Nat}

theorem given_map_fst : (t.given detections frameId).map Prod.fst = (t.update detections frameId).2 :=
  List.map_fst_zip (t.update_length detections frameId).le

theorem mem_ids_iff {i : Nat} :
    i ∈ (t.update detections frameId).2 ↔ ∃ det, (i, det) ∈ t.given detections frameId := by
  rw [← given_map_fst, List.mem_map]
  constructor
  · rintro ⟨⟨i, det⟩, hmem, rfl⟩
    exact ⟨det, hmem⟩
  · rintro ⟨det, hmem⟩
    exact ⟨(i, det), hmem, rfl⟩

/-- No id is given to two detections. -/
theorem given_unique {i : Nat} {det det' : DetectionBox F}
    (h : (i, det) ∈ t.given detections frameId) (h' : (i, det') ∈ t.given detections frameId) :
    det = det' := by
  have hnodup : ((t.given detections frameId).map Prod.fst).Nodup :=
    (given_map_fst (t := t)) ▸ t.update_nodup detections frameId
  exact (Prod.mk.inj (List.inj_on_of_nodup_map hnodup h h' rfl)).2

theorem track_unique {track track' : TrackedObject F} (h : track ∈ t.tracks)
    (h' : track' ∈ t.tracks) (hid : track.trackId = track'.trackId) : track = track' :=
  List.inj_on_of_nodup_map t.distinct h h' hid

theorem existing_unique {p q : TrackedObject F × Bool}
    (hp : p ∈ (t.assignAll detections frameId).existing)
    (hq : q ∈ (t.assignAll detections frameId).existing) (hid : p.1.trackId = q.1.trackId) :
    p = q := by
  have hnodup := (t.assignAll_valid detections frameId).distinct
  rw [Matching.ids, List.map_append, List.map_map] at hnodup
  exact List.inj_on_of_nodup_map hnodup.of_append_left hp hq hid

/-- The id of a track that no detection took is not given to a detection. -/
theorem notMem_ids_of_free {track : TrackedObject F} (h : track ∈ t.tracks)
    (hfree : (track, false) ∈ (t.assignAll detections frameId).existing) :
    track.trackId ∉ (t.update detections frameId).2 := by
  intro hid
  obtain ⟨det, hgiven⟩ := mem_ids_iff.mp hid
  rcases (t.assignAll_matched detections frameId).placed _ _ hgiven with
    ⟨track', -, hsame, htaken⟩ | ⟨hle, -⟩
  · cases existing_unique hfree htaken hsame.symm
  · exact absurd hle (Nat.not_le_of_lt (t.fresh track h))

theorem mem_update_iff {track : TrackedObject F} :
    track ∈ (t.update detections frameId).1.tracks ↔
      ((∃ b, (track, b) ∈ (t.assignAll detections frameId).existing) ∨
        track ∈ (t.assignAll detections frameId).created) ∧ lost t.config frameId track = false := by
  have hexisting : track ∈ (t.assignAll detections frameId).existing.map Prod.fst ↔
      ∃ b, (track, b) ∈ (t.assignAll detections frameId).existing := by simp
  simp only [update, List.mem_filter, List.mem_append, hexisting, Bool.not_eq_true']

theorem not_lost {config : Config F} {track : TrackedObject F}
    (h : track.lastSeenFrame = frameId) : lost config frameId track = false := by
  simp [lost, h]

/-- A track after the call: one that was left alone, one that took a detection, or
one that a detection started. -/
theorem mem_update_cases {track : TrackedObject F}
    (h : track ∈ (t.update detections frameId).1.tracks) :
    (track ∈ t.tracks ∧ track.trackId ∉ (t.update detections frameId).2 ∧
      lost t.config frameId track = false) ∨
    (∃ before ∈ t.tracks, ∃ det, (before.trackId, det) ∈ t.given detections frameId ∧
      track = observe t.config frameId det before) ∨
    ∃ i det, (i, det) ∈ t.given detections frameId ∧ t.nextTrackId ≤ i ∧
      track = create i frameId det := by
  have hmatched := t.assignAll_matched detections frameId
  obtain ⟨⟨b, hexisting⟩ | hcreated, hlost⟩ := mem_update_iff.mp h
  · obtain ⟨before, hbefore, hfree | ⟨det, htaken, hgiven⟩⟩ := hmatched.old _ hexisting
    · obtain ⟨rfl, rfl⟩ := Prod.mk.inj hfree
      exact .inl ⟨hbefore, notMem_ids_of_free hbefore hexisting, hlost⟩
    · exact .inr (.inl ⟨before, hbefore, det, hgiven, (Prod.mk.inj htaken).1⟩)
  · exact .inr (.inr (hmatched.created _ hcreated))

/-- A track that takes a detection is there after the call. -/
theorem observe_mem_update {before : TrackedObject F} {det : DetectionBox F}
    (hbefore : before ∈ t.tracks) (h : (before.trackId, det) ∈ t.given detections frameId) :
    observe t.config frameId det before ∈ (t.update detections frameId).1.tracks := by
  refine mem_update_iff.mpr ⟨.inl ⟨true, ?_⟩, not_lost rfl⟩
  rcases (t.assignAll_matched detections frameId).placed _ _ h with
    ⟨track, htrack, hid, htaken⟩ | ⟨hle, -⟩
  · rwa [← track_unique htrack hbefore hid]
  · exact absurd hle (Nat.not_le_of_lt (t.fresh before hbefore))

/-- The track that a detection is given. -/
theorem named_of_given {i : Nat} {det : DetectionBox F}
    (h : (i, det) ∈ t.given detections frameId) :
    ∃ track ∈ (t.update detections frameId).1.tracks, track.trackId = i ∧
      track.className = det.className ∧ track.lastSeenFrame = frameId := by
  rcases (t.assignAll_matched detections frameId).placed _ _ h with
    ⟨track, htrack, rfl, -⟩ | ⟨-, hcreated⟩
  · exact ⟨_, observe_mem_update htrack h, rfl, rfl, rfl⟩
  · exact ⟨_, mem_update_iff.mpr ⟨.inr hcreated, not_lost rfl⟩, rfl, rfl, rfl⟩

/-- A track that no detection takes stays unless it is lost. -/
theorem active_iff {track : TrackedObject F} (htrack : track ∈ t.tracks)
    (hfree : track.trackId ∉ (t.update detections frameId).2) :
    track.trackId ∈ activeIds (t.update detections frameId).1 ↔
      lost t.config frameId track = false := by
  constructor
  · intro hactive
    obtain ⟨after, hafter, hid⟩ := List.mem_map.mp hactive
    rcases mem_update_cases hafter with ⟨hbefore, -, hlost⟩ | ⟨before, -, det, hgiven, rfl⟩ |
      ⟨i, det, -, hle, rfl⟩
    · rwa [track_unique htrack hbefore hid.symm]
    · exact absurd (mem_ids_iff.mpr ⟨det, hid ▸ hgiven⟩) hfree
    · exact absurd (hid ▸ hle) (Nat.not_le_of_lt (t.fresh track htrack))
  · intro hlost
    obtain ⟨p, hp, rfl | ⟨det, -, hgiven⟩⟩ := (t.assignAll_matched detections frameId).kept _ htrack
    · exact List.mem_map_of_mem (mem_update_iff.mpr ⟨.inl ⟨false, hp⟩, hlost⟩)
    · exact absurd (mem_ids_iff.mpr ⟨det, hgiven⟩) hfree

/-- No id comes back. -/
theorem active_before_or_new {i : Nat} (h : i ∈ activeIds (t.update detections frameId).1) :
    i ∈ activeIds t ∨ t.nextTrackId ≤ i := by
  obtain ⟨track, hafter, rfl⟩ := List.mem_map.mp h
  rcases mem_update_cases hafter with ⟨htrack, -, -⟩ | ⟨before, hbefore, det, -, rfl⟩ |
    ⟨i, det, -, hle, rfl⟩
  · exact .inl (List.mem_map_of_mem htrack)
  · exact .inl (List.mem_map.mpr ⟨before, hbefore, rfl⟩)
  · exact .inr hle

theorem active_of_mem_ids {i : Nat} (h : i ∈ (t.update detections frameId).2) :
    i ∈ activeIds (t.update detections frameId).1 := by
  obtain ⟨det, hgiven⟩ := mem_ids_iff.mp h
  obtain ⟨track, htrack, rfl, -⟩ := named_of_given hgiven
  exact List.mem_map_of_mem htrack

end

end TemporalTracker

namespace TrackerRun

variable {F : Type} [CFloat F]

/-! ## Runs -/

def new (config : TemporalTracker.Config F) : TrackerRun F where
  tracker := .new config
  lastFrame := none
  sightings := []
  removed := []

/-- The frame ids do not go back, and do not jump by more than 2^30. -/
def Follows (s : TrackerRun F) (frameId : Nat) : Prop :=
  ∀ last ∈ s.lastFrame, last ≤ frameId ∧ frameId ≤ last + 2 ^ 30

instance (s : TrackerRun F) (frameId : Nat) : Decidable (s.Follows frameId) :=
  inferInstanceAs (Decidable (∀ last ∈ s.lastFrame, _))

/-- The tracker after a call, and the ids that the call returns. -/
def update (s : TrackerRun F) (l : TrackerCall F) : TemporalTracker F × List Nat :=
  s.tracker.update l.detections l.frameId

def given (s : TrackerRun F) (l : TrackerCall F) : List (Nat × DetectionBox F) :=
  s.tracker.given l.detections l.frameId

def call (s : TrackerRun F) (l : TrackerCall F) : TrackerRun F where
  tracker := (s.update l).1
  lastFrame := some l.frameId
  sightings := s.sightings ++ (s.given l).map fun p => ⟨l.frameId, p.1, p.2⟩
  removed := s.removed ++ s.tracker.activeIds.filter fun i => i ∉ (s.update l).1.activeIds

/-- The last detection that a track took. -/
def latest (s : TrackerRun F) (trackId : Nat) : Option (Sighting F) :=
  s.sightings.reverse.find? fun g => g.trackId = trackId

end TrackerRun

/-- Calls of `Update` of a tracker with this config. -/
def trackerSystem {F : Type} [CFloat F] (config : TemporalTracker.Config F) :
    TransitionSystem (TrackerRun F) (TrackerCall F) where
  init s := s = .new config
  step s l := if s.Follows l.frameId then some (s.call l) else none

/-- What the config is promised to be; the upper bound of the length is that of `int`. -/
structure TemporalTracker.Config.Bounded {F : Type} [CFloat F] (config : Config F) : Prop where
  lost : 0 ≤ config.maxLostFrames ∧ config.maxLostFrames ≤ 2 ^ 30
  length : 1 ≤ config.trajectoryLength ∧ config.trajectoryLength < 2 ^ 31

namespace TrackerRun

variable {F : Type} [CFloat F]

/-- What a call does. -/
structure Lawful (s : TrackerRun F) (l : TrackerCall F) : Prop where
  distinct : (s.call l).tracker.activeIds.Nodup
  length : (s.update l).2.length = l.detections.length
  nodup : (s.update l).2.Nodup
  nonzero : 0 ∉ (s.update l).2
  /-- each detection is given an active track of its class, seen in this frame -/
  named : ∀ p ∈ s.given l, ∃ track ∈ (s.call l).tracker.tracks, track.trackId = p.1 ∧
    track.className = p.2.className ∧ track.lastSeenFrame = l.frameId
  notReused : ∀ i ∈ (s.call l).removed, i ∉ (s.update l).2 ∧ i ∉ (s.call l).tracker.activeIds
  trajectory : ∀ track ∈ (s.call l).tracker.tracks, 1 ≤ track.trajectory.length ∧
    (track.trajectory.length : Int) ≤ s.tracker.config.trajectoryLength
  /-- a trajectory ends at the centre of the last detection of its track -/
  ends : ∀ track ∈ (s.call l).tracker.tracks, ∃ g, (s.call l).latest track.trackId = some g ∧
    g.frameId = track.lastSeenFrame ∧ track.trajectory.getLast? =
      some (TemporalTracker.center g.det.xMin g.det.yMin g.det.xMax g.det.yMax)
  removed : ∀ track ∈ s.tracker.tracks, track.trackId ∉ (s.call l).tracker.activeIds ↔
    s.tracker.config.maxLostFrames < l.frameId - track.lastSeenFrame ∧
      track.trackId ∉ (s.update l).2

/-- The matching of the frame gives the track a detection. -/
def Taken (s : TrackerRun F) (l : TrackerCall F) (track : TrackedObject F) : Prop :=
  track.trackId ∈ (s.tracker.assignAll l.detections l.frameId).assignedIds

/-- The casts to `int` keep their values: a trajectory that grows stays shorter than
2^31, and a track that is left alone has not been unseen for 2^31 frames. -/
def Counted (s : TrackerRun F) (l : TrackerCall F) : Prop :=
  ∀ track ∈ s.tracker.tracks,
    (s.Taken l track → track.trajectory.length + 1 < 2 ^ 31) ∧
    (¬ s.Taken l track → l.frameId - track.lastSeenFrame < 2 ^ 31)

/-- What holds between the calls. -/
structure Sound (c : TemporalTracker.Config F) (s : TrackerRun F) : Prop where
  config : s.tracker.config = c
  seen : ∀ track ∈ s.tracker.tracks, ∃ last ∈ s.lastFrame, track.lastSeenFrame ≤ last ∧
    (last : Int) - track.lastSeenFrame ≤ c.maxLostFrames
  length : ∀ track ∈ s.tracker.tracks, 1 ≤ track.trajectory.length ∧
    (track.trajectory.length : Int) ≤ c.trajectoryLength
  ends : ∀ track ∈ s.tracker.tracks, ∃ g, s.latest track.trackId = some g ∧
    g.frameId = track.lastSeenFrame ∧ track.trajectory.getLast? =
      some (TemporalTracker.center g.det.xMin g.det.yMin g.det.xMax g.det.yMax)
  positive : 0 < s.tracker.nextTrackId ∧ 0 ∉ s.tracker.activeIds
  removed : ∀ i ∈ s.removed, i < s.tracker.nextTrackId ∧ i ∉ s.tracker.activeIds

end TrackerRun

namespace TemporalTracker

variable {F : Type} [CFloat F] {config : Config F} {frameId : Nat} {track : TrackedObject F}

/-! ## The casts to `int` -/

theorem lost_eq_true_iff (hseen : track.lastSeenFrame ≤ frameId)
    (hage : frameId - track.lastSeenFrame < 2 ^ 31) (hmax : 0 ≤ config.maxLostFrames) :
    lost config frameId track = true ↔
      config.maxLostFrames < (frameId : Int) - track.lastSeenFrame := by
  have hcast : int32 ((frameId : Int) - track.lastSeenFrame) = frameId - track.lastSeenFrame :=
    int32_of_lt (by omega) (by omega)
  simp only [lost, hcast, Bool.and_eq_true, decide_eq_true_eq]
  omega

/-- After 2^31 frames a track is not lost. -/
theorem not_lost_of_wraps (hage : (frameId : Int) - track.lastSeenFrame = 2 ^ 31)
    (hmax : 0 ≤ config.maxLostFrames) : lost config frameId track = false := by
  rw [lost, hage, int32_two_pow, decide_eq_false (p := config.maxLostFrames < -2 ^ 31) (by omega),
    Bool.and_false]

variable {det : DetectionBox F}

theorem observe_trajectory_length (hlen : track.trajectory.length + 1 < 2 ^ 31) :
    (observe config frameId det track).trajectory.length =
      if config.trajectoryLength < track.trajectory.length + 1 then track.trajectory.length
      else track.trajectory.length + 1 := by
  have hcast : int32 ((track.trajectory.length + 1 : Nat) : Int) = track.trajectory.length + 1 := by
    rw [int32_of_lt (by omega) (by omega)]
    rfl
  simp only [observe, List.length_append, List.length_singleton, hcast]
  split
  · simp
  · simp

/-- With 2^31 centres a trajectory is not cut. -/
theorem observe_trajectory_length_of_wraps (hlen : track.trajectory.length + 1 = 2 ^ 31)
    (hmax : 0 ≤ config.trajectoryLength) :
    (observe config frameId det track).trajectory.length = 2 ^ 31 := by
  have hcast : int32 ((track.trajectory.length + 1 : Nat) : Int) = -2 ^ 31 := by
    rw [hlen]
    exact int32_two_pow
  have hnot : ¬ config.trajectoryLength < -2 ^ 31 := by omega
  simp only [observe, List.length_append, List.length_singleton, hcast, hnot, if_false]
  exact hlen

theorem observe_trajectory_getLast? (hne : track.trajectory ≠ []) :
    (observe config frameId det track).trajectory.getLast? =
      some (center det.xMin det.yMin det.xMax det.yMax) := by
  simp only [observe]
  split
  · rw [List.tail_append_of_ne_nil hne]
    exact List.getLast?_concat
  · exact List.getLast?_concat

end TemporalTracker

namespace TrackerRun

variable {F : Type} [CFloat F] {config : TemporalTracker.Config F} {s : TrackerRun F}
  {l : TrackerCall F}

open TemporalTracker

/-! ## The last detection of a track -/

theorem latest_call (s : TrackerRun F) (l : TrackerCall F) (i : Nat) :
    (s.call l).latest i =
      ((((s.given l).map fun p => (⟨l.frameId, p.1, p.2⟩ : Sighting F)).reverse.find?
        fun g => g.trackId = i).or (s.latest i)) := by
  simp only [latest, call, List.reverse_append, List.find?_append]

theorem latest_call_of_given {i : Nat} {det : DetectionBox F} (h : (i, det) ∈ s.given l) :
    (s.call l).latest i = some ⟨l.frameId, i, det⟩ := by
  have hmem : (⟨l.frameId, i, det⟩ : Sighting F) ∈
      ((s.given l).map fun p => (⟨l.frameId, p.1, p.2⟩ : Sighting F)).reverse :=
    List.mem_reverse.mpr (List.mem_map.mpr ⟨_, h, rfl⟩)
  rw [latest_call]
  cases hfind : ((s.given l).map fun p => (⟨l.frameId, p.1, p.2⟩ : Sighting F)).reverse.find?
      fun g => g.trackId = i with
  | none => simpa using List.find?_eq_none.mp hfind _ hmem
  | some g =>
      have hid : g.trackId = i := by simpa using List.find?_some hfind
      obtain ⟨⟨j, det'⟩, hgiven, rfl⟩ :=
        List.mem_map.mp (List.mem_reverse.mp (List.mem_of_find?_eq_some hfind))
      obtain rfl : j = i := hid
      rw [given_unique hgiven h]
      rfl

theorem latest_call_of_notMem {i : Nat} (h : i ∉ (s.update l).2) :
    (s.call l).latest i = s.latest i := by
  have hnone : ((s.given l).map fun p => (⟨l.frameId, p.1, p.2⟩ : Sighting F)).reverse.find?
      (fun g => g.trackId = i) = none := by
    refine List.find?_eq_none.mpr fun g hg => ?_
    obtain ⟨⟨j, det⟩, hgiven, rfl⟩ := List.mem_map.mp (List.mem_reverse.mp hg)
    have hne : j ≠ i := by
      rintro rfl
      exact h (mem_ids_iff.mpr ⟨det, hgiven⟩)
    simpa using hne
  rw [latest_call, hnone, Option.none_or]

/-! ## One call -/

theorem Sound.seen_age (h : Sound config s) (hfollows : s.Follows l.frameId)
    {track : TrackedObject F} (htrack : track ∈ s.tracker.tracks) :
    track.lastSeenFrame ≤ l.frameId ∧
      (l.frameId : Int) - track.lastSeenFrame ≤ config.maxLostFrames + 2 ^ 30 := by
  obtain ⟨last, hlast, hseen, hage⟩ := h.seen track htrack
  obtain ⟨hle, hstep⟩ := hfollows last hlast
  omega

/-- A counted track that is left alone goes exactly if it was unseen for too long. -/
theorem Sound.lost_iff (h : Sound config s) (hbounded : config.Bounded)
    (hfollows : s.Follows l.frameId) (hcounted : s.Counted l) {track : TrackedObject F}
    (htrack : track ∈ s.tracker.tracks) (hfree : ¬ s.Taken l track) :
    lost s.tracker.config l.frameId track = true ↔
      config.maxLostFrames < (l.frameId : Int) - track.lastSeenFrame := by
  rw [h.config]
  exact lost_eq_true_iff (h.seen_age hfollows htrack).1 ((hcounted track htrack).2 hfree)
    hbounded.lost.1

/-- A track that stays was seen not too long ago. -/
theorem Sound.call_seen (h : Sound config s) (hbounded : config.Bounded)
    (hfollows : s.Follows l.frameId) (hcounted : s.Counted l) {track : TrackedObject F}
    (hafter : track ∈ (s.call l).tracker.tracks) : track.lastSeenFrame ≤ l.frameId ∧
      (l.frameId : Int) - track.lastSeenFrame ≤ config.maxLostFrames := by
  have hmaxLost := hbounded.lost.1
  rcases mem_update_cases hafter with ⟨htrack, hfree, hlost⟩ | ⟨before, -, det, -, rfl⟩ |
    ⟨i, det, -, -, rfl⟩
  · have hiff := h.lost_iff hbounded hfollows hcounted htrack hfree
    have hseen := (h.seen_age hfollows htrack).1
    rw [hlost] at hiff
    exact ⟨hseen, by simpa using hiff⟩
  · exact ⟨Nat.le_refl _, by simpa [observe] using hmaxLost⟩
  · exact ⟨Nat.le_refl _, by simpa [create] using hmaxLost⟩

theorem Sound.call_length (h : Sound config s) (hbounded : config.Bounded)
    (hcounted : s.Counted l) {track : TrackedObject F}
    (hafter : track ∈ (s.call l).tracker.tracks) : 1 ≤ track.trajectory.length ∧
      (track.trajectory.length : Int) ≤ config.trajectoryLength := by
  rcases mem_update_cases hafter with ⟨htrack, -, -⟩ | ⟨before, hbefore, det, hgiven, rfl⟩ |
    ⟨i, det, -, -, rfl⟩
  · exact h.length track htrack
  · obtain ⟨hpos, hle⟩ := h.length before hbefore
    have htaken : s.Taken l before := mem_ids_iff.mpr ⟨det, hgiven⟩
    rw [observe_trajectory_length ((hcounted before hbefore).1 htaken), h.config]
    split
    · exact ⟨hpos, hle⟩
    · omega
  · exact ⟨Nat.le_refl _, hbounded.length.1⟩

/-- The last detection of a track is the one that it took in this call, or the one
before if it took none. -/
theorem Sound.call_ends (h : Sound config s) {track : TrackedObject F}
    (hafter : track ∈ (s.call l).tracker.tracks) :
    ∃ g, (s.call l).latest track.trackId = some g ∧ g.frameId = track.lastSeenFrame ∧
      track.trajectory.getLast? = some (center g.det.xMin g.det.yMin g.det.xMax g.det.yMax) := by
  rcases mem_update_cases hafter with ⟨htrack, hfree, -⟩ | ⟨before, hbefore, det, hgiven, rfl⟩ |
    ⟨i, det, hgiven, -, rfl⟩
  · rw [latest_call_of_notMem hfree]
    exact h.ends track htrack
  · have hnonempty := List.ne_nil_of_length_pos (h.length before hbefore).1
    exact ⟨_, latest_call_of_given hgiven, rfl, observe_trajectory_getLast? hnonempty⟩
  · exact ⟨_, latest_call_of_given hgiven, rfl, rfl⟩

theorem Sound.call_removed (h : Sound config s) {i : Nat} (hremoved : i ∈ (s.call l).removed) :
    i < (s.call l).tracker.nextTrackId ∧ i ∉ (s.call l).tracker.activeIds := by
  have hnext := (s.tracker.assignAll_matched l.detections l.frameId).next
  rcases List.mem_append.mp hremoved with hbefore | hnow
  · obtain ⟨hlt, hgone⟩ := h.removed i hbefore
    refine ⟨Nat.lt_of_lt_of_le hlt hnext, fun hagain => ?_⟩
    rcases active_before_or_new hagain with hactive | hle
    · exact hgone hactive
    · exact absurd hlt (Nat.not_lt_of_le hle)
  · obtain ⟨hactive, hgone⟩ := List.mem_filter.mp hnow
    obtain ⟨track, htrack, rfl⟩ := List.mem_map.mp hactive
    exact ⟨Nat.lt_of_lt_of_le (s.tracker.fresh track htrack) hnext, of_decide_eq_true hgone⟩

theorem Sound.call (h : Sound config s) (hbounded : config.Bounded)
    (hfollows : s.Follows l.frameId) (hcounted : s.Counted l) : Sound config (s.call l) where
  config := h.config
  seen _ hafter := ⟨l.frameId, rfl, h.call_seen hbounded hfollows hcounted hafter⟩
  length _ hafter := h.call_length hbounded hcounted hafter
  ends _ hafter := h.call_ends hafter
  positive := by
    have hnext := (s.tracker.assignAll_matched l.detections l.frameId).next
    refine ⟨Nat.lt_of_lt_of_le h.positive.1 hnext, fun hzero => ?_⟩
    rcases active_before_or_new hzero with hactive | hle
    · exact h.positive.2 hactive
    · exact absurd h.positive.1 (Nat.not_lt_of_le hle)
  removed _ hremoved := h.call_removed hremoved

theorem Sound.lawful (h : Sound config s) (hbounded : config.Bounded)
    (hfollows : s.Follows l.frameId) (hcounted : s.Counted l) : s.Lawful l := by
  have hafter := h.call hbounded hfollows hcounted
  constructor
  · exact (s.call l).tracker.distinct
  · exact s.tracker.update_length l.detections l.frameId
  · exact s.tracker.update_nodup l.detections l.frameId
  · exact fun hzero => hafter.positive.2 (active_of_mem_ids hzero)
  · exact fun p hp => named_of_given hp
  · intro i hremoved
    have hgone := (hafter.removed i hremoved).2
    exact ⟨fun hid => hgone (active_of_mem_ids hid), hgone⟩
  · rw [h.config]
    exact hafter.length
  · exact hafter.ends
  · intro track htrack
    by_cases htaken : s.Taken l track
    · have hactive : track.trackId ∈ (s.call l).tracker.activeIds := active_of_mem_ids htaken
      exact ⟨fun hgone => absurd hactive hgone, fun hgone => absurd htaken hgone.2⟩
    · have hactive : track.trackId ∈ (s.call l).tracker.activeIds ↔ _ := active_iff htrack htaken
      rw [hactive, Bool.not_eq_false, h.lost_iff hbounded hfollows hcounted htrack htaken, h.config]
      exact (and_iff_left htaken).symm

/-- Where a cast does not keep its value, a trajectory grows too long or a track stays. -/
theorem Sound.counted_of_lawful (h : Sound config s) (hbounded : config.Bounded)
    (hfollows : s.Follows l.frameId) (hlawful : s.Lawful l) : s.Counted l := by
  have hmaxLost := hbounded.lost
  have hlength := hbounded.length
  intro track htrack
  constructor
  · intro htaken
    obtain ⟨det, hgiven⟩ := mem_ids_iff.mp htaken
    have hbefore := (h.length track htrack).2
    have hafter := (hlawful.trajectory _ (observe_mem_update htrack hgiven)).2
    rw [h.config] at hafter
    by_contra hlong
    rw [observe_trajectory_length_of_wraps (by omega) (by omega)] at hafter
    omega
  · intro hfree
    obtain ⟨hseen, hage⟩ := h.seen_age hfollows htrack
    by_contra hlong
    have hstays : track.trackId ∈ (s.call l).tracker.activeIds := by
      refine (active_iff htrack hfree).mpr ?_
      rw [h.config]
      exact not_lost_of_wraps (by omega) hmaxLost.1
    refine (hlawful.removed track htrack).mpr ⟨?_, hfree⟩ hstays
    rw [h.config]
    omega

theorem sound_new : Sound config (new config) where
  config := rfl
  seen track htrack := by cases htrack
  length track htrack := by cases htrack
  ends track htrack := by cases htrack
  positive := ⟨Nat.one_pos, by simp [new, TemporalTracker.new, activeIds]⟩
  removed i hremoved := by cases hremoved

theorem call_of_step {s' : TrackerRun F} (h : (trackerSystem config).step s l = some s') :
    s.Follows l.frameId ∧ s' = s.call l := by
  obtain ⟨hfollows, hcall⟩ := Option.ite_none_right_eq_some.mp h
  exact ⟨hfollows, (Option.some.inj hcall).symm⟩

/-! ## Whole runs -/

/-- In every run all calls are lawful exactly when all of them count below 2^31. -/
theorem lawful_iff_counted (hbounded : config.Bounded) {t : List (TrackerRun F × TrackerCall F)}
    (hrun : (trackerSystem config).Run (new config) t s) :
    TransitionSystem.Respects Lawful t ↔ TransitionSystem.Respects Counted t := by
  apply hrun.respects_congr_of_respects (I := Sound config) _ _ sound_new
  · intro s l s' hsound hcounted hstep
    obtain ⟨hfollows, rfl⟩ := call_of_step hstep
    exact hsound.call hbounded hfollows hcounted
  · intro s l s' hsound hstep
    have hfollows := (call_of_step hstep).1
    constructor
    · exact hsound.counted_of_lawful hbounded hfollows
    · exact hsound.lawful hbounded hfollows

def smallBox : DetectionBox ℚ where
  classId := 0
  className := "person"
  confidence := 1 / 2
  xMin := 0
  yMin := 0
  xMax := 1
  yMax := 1

/-- A box is seen twice, and then no more. -/
def seenTwice : List (TrackerCall ℚ) := [⟨[smallBox], 0⟩, ⟨[smallBox], 1⟩, ⟨[], 40⟩]

theorem lawful_iff_counted_seenTwice :
    ∃ t s, ({} : TemporalTracker.Config ℚ).Bounded ∧
      (trackerSystem ({} : TemporalTracker.Config ℚ)).Run (new {}) t s ∧
      t.map Prod.snd = seenTwice ∧ s.removed = [1] ∧
      (TransitionSystem.Respects Lawful t ↔ TransitionSystem.Respects Counted t) := by
  have hview : ((trackerSystem ({} : TemporalTracker.Config ℚ)).execTrace (new {}) seenTwice).map
      (fun r => r.2.removed) = some [1] := by decide +kernel
  obtain ⟨t, s, hrun, hlabels, hremoved⟩ := TransitionSystem.exists_run_of_execTrace hview
  have hbounded : ({} : TemporalTracker.Config ℚ).Bounded := ⟨by decide, by decide⟩
  exact ⟨t, s, hbounded, hrun, hlabels, hremoved, lawful_iff_counted hbounded hrun⟩

/-! ## A track that is not removed -/

def patientConfig : TemporalTracker.Config ℚ := { maxLostFrames := 2 ^ 30 }

/-- A box is seen in frame 0 and not 2^30 frames later. -/
def seenOnce : List (TrackerCall ℚ) := [⟨[smallBox], 0⟩, ⟨[], 2 ^ 30⟩]

/-- Another 2^30 frames later its track is still there. -/
theorem not_lawful_seenOnce :
    ∃ t s, patientConfig.Bounded ∧ (trackerSystem patientConfig).Run (new patientConfig) t s ∧
      t.map Prod.snd = seenOnce ++ [⟨[], 2 ^ 31⟩] ∧ ¬ TransitionSystem.Respects Lawful t := by
  have hview : ((trackerSystem patientConfig).execTrace (new patientConfig) seenOnce).map
      (fun r => (r.2.lastFrame, r.2.tracker.config.maxLostFrames,
        r.2.tracker.tracks.map (fun track => (track.trackId, track.lastSeenFrame)),
        (r.2.call ⟨[], 2 ^ 31⟩).tracker.activeIds)) =
      some (some (2 ^ 30), 2 ^ 30, [(1, 0)], [1]) := by decide +kernel
  obtain ⟨t, s, hrun, hlabels, hlast⟩ := TransitionSystem.exists_run_of_execTrace hview
  simp only [Prod.mk.injEq] at hlast
  obtain ⟨hframe, hmax, htracks, hactive⟩ := hlast
  have hfollows : s.Follows (2 ^ 31) := by
    intro last hlast
    obtain rfl : 2 ^ 30 = last := Option.some.inj (hframe.symm.trans hlast)
    decide
  have hstep : (trackerSystem patientConfig).step s ⟨[], 2 ^ 31⟩ = some (s.call ⟨[], 2 ^ 31⟩) :=
    if_pos hfollows
  refine ⟨_, _, ⟨by decide, by decide⟩, hrun.snoc hstep, by simp [hlabels], ?_⟩
  intro hlawful
  have hremoved := ((TransitionSystem.respects_snoc.mp hlawful).2).removed
  obtain ⟨track, htrack, hseen⟩ : ∃ track ∈ s.tracker.tracks,
      (track.trackId, track.lastSeenFrame) = (1, 0) := by
    refine List.mem_map.mp ?_
    rw [htracks]
    exact List.mem_singleton_self _
  obtain ⟨hid, hseen⟩ := Prod.mk.inj hseen
  refine (hremoved track htrack).mpr ⟨?_, ?_⟩ ?_
  · rw [hmax, hseen]
    decide
  · exact List.not_mem_nil
  · rw [hactive, hid]
    decide

end TrackerRun
