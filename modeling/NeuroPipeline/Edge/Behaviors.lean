-- SUMMARY: The behaviours that the tracker reports: what they are computed from, and which fast tracks are taken for loiterers.
import NeuroPipeline.Edge.CameraTracks
import NeuroPipeline.Lib.Window
import Mathlib.Analysis.Real.Sqrt

/-!
# Behaviours

Model of `DetectBehaviors`. Loitering is read off the two ends of a trajectory and
running off the way between them; the test for loitering comes first. The square root is
a parameter: that of the mathematics library, or the exact one.
-/

inductive BehaviorType where
  | none
  | loitering
  | running
  | lingering
  | crowding
  deriving DecidableEq

namespace TemporalTracker

section

variable {F : Type} [CFloat F]

def distance (sqrt : F → F) (p q : F × F) : F :=
  let dx := q.1 - p.1
  let dy := q.2 - p.2
  sqrt (dx * dx + dy * dy)

def totalSpeed (sqrt : F → F) (trajectory : List (F × F)) : F :=
  (trajectory.zip trajectory.tail).foldl (fun total p => total + distance sqrt p.1 p.2)
    (CFloat.const 0)

def avgSpeed (sqrt : F → F) (trajectory : List (F × F)) : F :=
  totalSpeed sqrt trajectory / CFloat.const (trajectory.length - 1 : Nat)

/-- The ends of a trajectory of two or more points are near each other. -/
def endsNear (config : Config F) (sqrt : F → F) : List (F × F) → Bool
  | front :: next :: rest =>
    distance sqrt front ((next :: rest).getLast (List.cons_ne_nil _ _)) <
      config.runningSpeedThreshold * CFloat.const (rest.length + 2 : Nat)
  | _ => false

/-- Its average speed exceeds the threshold. -/
def movesFast (config : Config F) (sqrt : F → F) (trajectory : List (F × F)) : Bool :=
  2 ≤ trajectory.length && config.runningSpeedThreshold < avgSpeed sqrt trajectory

/-- It was seen in fewer than half of the frames since the first. -/
def hasGaps (track : TrackedObject F) : Bool :=
  0 < track.consecutiveFrames && track.firstSeenFrame < track.lastSeenFrame &&
    track.consecutiveFrames <
      (int32 ((track.lastSeenFrame : Int) - track.firstSeenFrame) + 1).tdiv 2

def behavior (config : Config F) (sqrt : F → F) (track : TrackedObject F) : Option BehaviorType :=
  if config.loiterFrames ≤ track.consecutiveFrames && endsNear config sqrt track.trajectory then
    some .loitering
  else if movesFast config sqrt track.trajectory then some .running
  else if hasGaps track then some .lingering
  else none

def detectBehaviors (sqrt : F → F) (t : TemporalTracker F) : List (Nat × BehaviorType) :=
  t.tracks.filterMap fun track =>
    (behavior t.config sqrt track).map fun b => (track.trackId, b)

/-- Ids are distinct, so what is reported under an id is about its track. -/
theorem mem_detectBehaviors_iff {sqrt : F → F} {t : TemporalTracker F} {track : TrackedObject F}
    {b : BehaviorType} (h : track ∈ t.tracks) :
    (track.trackId, b) ∈ t.detectBehaviors sqrt ↔ behavior t.config sqrt track = some b := by
  simp only [detectBehaviors, List.mem_filterMap, Option.map_eq_some_iff, Prod.mk.injEq]
  constructor
  · rintro ⟨track', htrack', b', hb, hid, rfl⟩
    rwa [← track_unique htrack' h hid]
  · intro hb
    exact ⟨track, h, b, hb, rfl, rfl⟩

theorem behavior_eq_loitering_iff {config : Config F} {sqrt : F → F} {track : TrackedObject F} :
    behavior config sqrt track = some .loitering ↔
      config.loiterFrames ≤ track.consecutiveFrames ∧
        endsNear config sqrt track.trajectory = true := by
  unfold behavior
  split
  · next h => simpa using h
  · next h =>
    have hnot : ¬ (config.loiterFrames ≤ track.consecutiveFrames ∧
        endsNear config sqrt track.trajectory = true) := by simpa using h
    refine iff_of_false ?_ hnot
    split
    · simp
    · split <;> simp

/-! ## What a trajectory holds -/

/-- How many of `n` centres are kept: a size that is no `int` is never above the limit. -/
def window (config : Config F) (n : Nat) : Nat :=
  if config.trajectoryLength + 1 < 2 ^ 31 then min n (max config.trajectoryLength 1).toNat else n

/-- The part of a track's path that its trajectory holds. -/
def recent (config : Config F) (path : List (F × F)) : List (F × F) :=
  path.rtake (window config path.length)

theorem window_le (config : Config F) (n : Nat) : window config n ≤ n := by
  unfold window
  split
  · exact min_le_left _ _
  · exact le_refl n

theorem window_one (config : Config F) : window config 1 = 1 := by
  unfold window
  split <;> omega

/-- A window grows until it is cut, and then stays. -/
theorem window_succ (config : Config F) {n : Nat} (hn : 0 < n) :
    window config (n + 1) =
      if config.trajectoryLength < int32 ((window config n + 1 : Nat) : Int) then window config n
      else window config n + 1 := by
  unfold window
  split
  · next hlimit =>
    have hcast : int32 ((min n (max config.trajectoryLength 1).toNat + 1 : Nat) : Int) =
        (min n (max config.trajectoryLength 1).toNat + 1 : Nat) :=
      int32_of_lt (by omega) (by omega)
    rw [hcast]
    split <;> omega
  · next hlimit =>
    have hle : int32 ((n + 1 : Nat) : Int) < 2 ^ 31 := by
      have hbound := @Int.bmod_lt ((n + 1 : Nat) : Int) (2 ^ 32) (by decide)
      exact hbound
    rw [if_neg (by omega)]

theorem observe_trajectory {config : Config F} {frameId : Nat} {det : DetectionBox F}
    {track : TrackedObject F} {path : List (F × F)} (hpath : path ≠ [])
    (h : track.trajectory = recent config path) :
    (observe config frameId det track).trajectory =
      recent config (path ++ [center det.xMin det.yMin det.xMax det.yMax]) := by
  have hlen : track.trajectory.length = window config path.length := by
    rw [h, recent, List.length_rtake, min_eq_left (window_le config _)]
  have hpush : track.trajectory ++ [center det.xMin det.yMin det.xMax det.yMax] =
      (path ++ [center det.xMin det.yMin det.xMax det.yMax]).rtake
        (window config path.length + 1) := by
    rw [h, recent, List.rtake_concat_succ]
  have hsucc := window_succ config (List.length_pos_iff.mpr hpath)
  simp only [observe, List.length_append, List.length_singleton, hlen, recent, hsucc]
  split
  · rw [hpush, List.tail_rtake_succ]
    rw [List.length_append, List.length_singleton]
    exact Nat.lt_succ_of_le (window_le config _)
  · exact hpush

end

end TemporalTracker

/-! ## What a run has seen of a track -/

namespace updateSystem

open TemporalTracker

variable {F : Type} [CFloat F] {config : Config F} {sqrt : F → F}
  {t : List (TemporalTracker F × TrackerCall F)} {s s' : TemporalTracker F} {l : TrackerCall F}

def detectionCenter (det : DetectionBox F) : F × F := center det.xMin det.yMin det.xMax det.yMax

/-- The centres of the detections that a track was given, in order. -/
def path (t : List (TemporalTracker F × TrackerCall F)) (trackId : Nat) : List (F × F) :=
  ((sightings t).filter fun g => g.trackId = trackId).map fun g => detectionCenter g.det

/-- With distinct keys, one entry has a key or none. -/
theorem filter_key_eq {α β : Type} [DecidableEq α] {pairs : List (α × β)} {a : α} {b : β}
    (hnodup : (pairs.map Prod.fst).Nodup) (h : (a, b) ∈ pairs) :
    pairs.filter (fun p => p.1 = a) = [(a, b)] := by
  induction pairs with
  | nil => cases h
  | cons p rest ih =>
      obtain ⟨hfresh, hrest⟩ := List.nodup_cons.mp hnodup
      rcases List.mem_cons.mp h with rfl | hmem
      · rw [List.filter_cons_of_pos (by simp), List.filter_eq_nil_iff.mpr]
        rintro ⟨a', b'⟩ hmem heq
        obtain rfl : a' = a := by simpa using heq
        exact hfresh (List.mem_map.mpr ⟨_, hmem, rfl⟩)
      · have hne : p.1 ≠ a := by
          rintro rfl
          exact hfresh (List.mem_map.mpr ⟨_, hmem, rfl⟩)
        rw [List.filter_cons_of_neg (by simpa using hne), ih hrest hmem]

theorem path_snoc (trackId : Nat) :
    path (t ++ [(s, l)]) trackId = path t trackId ++
      ((s.given l.detections l.frameId).filter fun p => p.1 = trackId).map fun p =>
        detectionCenter p.2 := by
  simp only [path, sightings, sighted, List.flatMap_append, List.flatMap_singleton,
    List.filter_append, List.map_append, List.filter_map, List.map_map]
  rfl

theorem path_snoc_of_free {trackId : Nat}
    (h : trackId ∉ (s.update l.detections l.frameId).2) :
    path (t ++ [(s, l)]) trackId = path t trackId := by
  rw [path_snoc, List.filter_eq_nil_iff.mpr, List.map_nil, List.append_nil]
  rintro ⟨i, det⟩ hgiven heq
  obtain rfl : i = trackId := by simpa using heq
  exact h (mem_ids_iff.mpr ⟨det, hgiven⟩)

theorem path_snoc_of_given {trackId : Nat} {det : DetectionBox F}
    (h : (trackId, det) ∈ s.given l.detections l.frameId) :
    path (t ++ [(s, l)]) trackId = path t trackId ++ [detectionCenter det] := by
  have hnodup : ((s.given l.detections l.frameId).map Prod.fst).Nodup :=
    (given_map_fst (t := s)) ▸ s.update_nodup l.detections l.frameId
  rw [path_snoc, filter_key_eq hnodup h]
  rfl

theorem path_eq_nil (hknown : Known t s) {trackId : Nat} (h : s.nextTrackId ≤ trackId) :
    path t trackId = [] := by
  rw [path, List.filter_eq_nil_iff.mpr, List.map_nil]
  intro g hg heq
  have hid : g.trackId = trackId := by simpa using heq
  exact absurd (hknown.older g hg) (by omega)

/-- A track counts the detections it was given and keeps the last of their centres. -/
structure Followed (config : Config F) (t : List (TemporalTracker F × TrackerCall F))
    (s : TemporalTracker F) : Prop where
  config_eq : s.config = config
  seen : ∀ track ∈ s.tracks, path t track.trackId ≠ []
  count : ∀ track ∈ s.tracks, track.consecutiveFrames = (path t track.trackId).length
  trajectory : ∀ track ∈ s.tracks, track.trajectory = recent config (path t track.trackId)

theorem Followed.step (h : Followed config t s) (hknown : Known t s)
    (hs : (updateSystem config).step s l = some s') : Followed config (t ++ [(s, l)]) s' := by
  have htracks : ∀ track ∈ s'.tracks, path (t ++ [(s, l)]) track.trackId ≠ [] ∧
      track.consecutiveFrames = (path (t ++ [(s, l)]) track.trackId).length ∧
      track.trajectory = recent config (path (t ++ [(s, l)]) track.trackId) := by
    intro track htrack
    rw [update_of_step hs] at htrack
    rcases mem_update_cases htrack with ⟨hbefore, hfree, -⟩ | ⟨before, hbefore, det, hgiven, rfl⟩ |
      ⟨i, det, hgiven, hle, rfl⟩
    · rw [path_snoc_of_free hfree]
      exact ⟨h.seen _ hbefore, h.count _ hbefore, h.trajectory _ hbefore⟩
    · have hpath := path_snoc_of_given (t := t) hgiven
      have htrajectory : (observe config l.frameId det before).trajectory =
          recent config (path t before.trackId ++ [detectionCenter det]) :=
        observe_trajectory (h.seen _ hbefore) (h.trajectory _ hbefore)
      have hcount := h.count _ hbefore
      rw [h.config_eq]
      refine ⟨?_, ?_, ?_⟩
      · exact hpath ▸ List.append_ne_nil_of_right_ne_nil _ (List.cons_ne_nil _ _)
      · change before.consecutiveFrames + 1 = ((path (t ++ [(s, l)]) before.trackId).length : Int)
        rw [hpath, hcount, List.length_append, List.length_singleton, Nat.cast_add, Nat.cast_one]
      · change _ = recent config (path (t ++ [(s, l)]) before.trackId)
        rw [hpath]
        exact htrajectory
    · -- a new track starts with the one detection
      have hpath : path (t ++ [(s, l)]) i = [detectionCenter det] := by
        rw [path_snoc_of_given hgiven, path_eq_nil hknown hle, List.nil_append]
      change path (t ++ [(s, l)]) i ≠ [] ∧
        (1 : Int) = (path (t ++ [(s, l)]) i).length ∧
        [detectionCenter det] = recent config (path (t ++ [(s, l)]) i)
      rw [hpath]
      refine ⟨List.cons_ne_nil _ _, rfl, ?_⟩
      rw [recent, List.rtake_of_length_le (window_one config).ge]
  refine ⟨?_, fun track h => (htracks track h).1, fun track h => (htracks track h).2.1,
    fun track h => (htracks track h).2.2⟩
  rw [update_of_step hs]
  exact h.config_eq

theorem followed (hrun : (updateSystem config).Run (.new config) t s) : Followed config t s := by
  have hboth : Known t s ∧ Followed config t s := by
    apply hrun.invariant_history (I := fun t s => Known t s ∧ Followed config t s)
    · rintro t s l s' ⟨hknown, hfollowed⟩ hs
      exact ⟨hknown.step hs, hfollowed.step hknown hs⟩
    · refine ⟨⟨?_, ?_⟩, rfl, ?_, ?_, ?_⟩ <;> intro _ h <;> cases h
  exact hboth.2

/-! ## Fast tracks -/

/-- No track that is faster than the threshold is reported as loitering. -/
def NoFastLoiterer (sqrt : F → F) (s : TemporalTracker F) : Prop :=
  ∀ track ∈ s.tracks, movesFast s.config sqrt track.trajectory = true →
    (track.trackId, BehaviorType.loitering) ∉ s.detectBehaviors sqrt

/-- A path that is long enough for loitering turns back so far that the ends of its
recent part are near each other, and is still fast between them. -/
structure TurnsBack (config : Config F) (sqrt : F → F) (path : List (F × F)) : Prop where
  long : config.loiterFrames ≤ path.length
  near : endsNear config sqrt (recent config path) = true
  fast : movesFast config sqrt (recent config path) = true

end updateSystem

/-! ## Exact distances -/

noncomputable instance : CFloat ℝ where
  const q := q
  decLt := inferInstance
  decLe := inferInstance

namespace TemporalTracker

/-- A tracker that has one track, which the one detection of the frame overlaps. -/
theorem update_single {F : Type} [CFloat F] {t : TemporalTracker F} {track : TrackedObject F}
    {det : DetectionBox F} {frameId : Nat} (htracks : t.tracks = [track])
    (hpos : CFloat.const 0 < computeIoU det track)
    (hiou : t.config.iouThreshold ≤ computeIoU det track) :
    (t.update [det] frameId).1.tracks = [observe t.config frameId det track] := by
  have hlost : lost t.config frameId (observe t.config frameId det track) = false := not_lost rfl
  simp [update, assignAll, matching, htracks, Matching.assign, bestMatch, hpos, hiou,
    Matching.take, hlost]

theorem update_new {F : Type} [CFloat F] (config : Config F) (det : DetectionBox F)
    (frameId : Nat) :
    ((new config).update [det] frameId).1.tracks = [create 1 frameId det] := by
  have hlost : lost config frameId (create 1 frameId det) = false := not_lost rfl
  simp [update, assignAll, matching, new, Matching.assign, bestMatch, Matching.start, hlost]

end TemporalTracker

namespace updateSystem

open TemporalTracker

theorem const_real (q : ℚ) : (CFloat.const q : ℝ) = q := rfl

/-! ### The default configuration -/

/-- Normalised coordinates. -/
def InSquare (p : ℝ × ℝ) : Prop := (0 ≤ p.1 ∧ p.1 ≤ 1) ∧ 0 ≤ p.2 ∧ p.2 ≤ 1

theorem distance_lt {p q : ℝ × ℝ} {c : ℝ} (hp : InSquare p) (hq : InSquare q) (hc : 0 < c)
    (hlarge : 2 < c ^ 2) : distance Real.sqrt p q < c := by
  obtain ⟨⟨hpx₀, hpx₁⟩, hpy₀, hpy₁⟩ := hp
  obtain ⟨⟨hqx₀, hqx₁⟩, hqy₀, hqy₁⟩ := hq
  have hx : (q.1 - p.1) * (q.1 - p.1) ≤ 1 := by nlinarith
  have hy : (q.2 - p.2) * (q.2 - p.2) ≤ 1 := by nlinarith
  rw [distance, Real.sqrt_lt' hc]
  linarith

/-- In the picture no trajectory is long enough to leave the region of a threshold of
that size. -/
theorem endsNear_of_inSquare {config : Config ℝ} {trajectory : List (ℝ × ℝ)}
    (hlen : 2 ≤ trajectory.length) (hsquare : ∀ p ∈ trajectory, InSquare p)
    (hpos : 0 < config.runningSpeedThreshold * trajectory.length)
    (hlarge : 2 < (config.runningSpeedThreshold * trajectory.length) ^ 2) :
    endsNear config Real.sqrt trajectory = true := by
  match trajectory with
  | [] | [_] => simp at hlen
  | front :: next :: rest =>
      have hlast : (next :: rest).getLast (List.cons_ne_nil _ _) ∈ front :: next :: rest :=
        List.mem_cons_of_mem _ (List.getLast_mem _)
      have hlt := distance_lt (hsquare front List.mem_cons_self) (hsquare _ hlast) hpos hlarge
      simpa [endsNear, const_real, add_assoc, one_add_one_eq_two] using hlt

theorem default_threshold : ({} : Config ℝ).runningSpeedThreshold = 1 / 20 := by
  change ((0.05 : ℚ) : ℝ) = 1 / 20
  norm_num

theorem default_window {n : Nat} (hn : 60 ≤ n) : window ({} : Config ℝ) n = 60 := by
  rw [window, if_pos (by decide)]
  exact min_eq_right hn

/-- With the defaults every track of 150 detections is reported as loitering, at any speed. -/
theorem default_loitering {t : List (TemporalTracker ℝ × TrackerCall ℝ)} {s : TemporalTracker ℝ}
    (hrun : (updateSystem {}).Run (.new {}) t s)
    (hsquare : ∀ g ∈ sightings t, InSquare (detectionCenter g.det)) {track : TrackedObject ℝ}
    (htrack : track ∈ s.tracks) (hold : 150 ≤ track.consecutiveFrames) :
    (track.trackId, BehaviorType.loitering) ∈ s.detectBehaviors Real.sqrt := by
  have hfollowed := followed hrun
  have hcount := hfollowed.count track htrack
  have htrajectory := hfollowed.trajectory track htrack
  have hlen : track.trajectory.length = 60 := by
    rw [htrajectory, recent, List.length_rtake, default_window (by omega)]
    omega
  rw [mem_detectBehaviors_iff htrack, behavior_eq_loitering_iff, hfollowed.config_eq]
  refine ⟨hold, endsNear_of_inSquare (by omega) ?_ ?_ ?_⟩
  · intro p hp
    rw [htrajectory] at hp
    obtain ⟨g, hg, rfl⟩ := List.mem_map.mp ((List.rtake_suffix _ _).subset hp)
    exact hsquare g (List.mem_filter.mp hg).1
  · rw [default_threshold, hlen]
    norm_num
  · rw [default_threshold, hlen]
    norm_num

/-! ### Two frames -/

/-- A box of half the width and height of the picture. -/
noncomputable def boxAt (x : ℝ) : DetectionBox ℝ where
  className := "person"
  confidence := 1
  xMin := x
  yMin := 0
  xMax := x + 1 / 2
  yMax := 1 / 2

/-- The box moves by 0.08 from one frame to the next. -/
noncomputable def twoFrames (config : Config ℝ) : TemporalTracker ℝ :=
  (((TemporalTracker.new config).update [boxAt 0] 0).1.update [boxAt (2 / 25)] 1).1

theorem run_twoFrames (config : Config ℝ) :
    ∃ t, (updateSystem config).Run (.new config) t (twoFrames config) ∧
      t.map Prod.snd = [⟨[boxAt 0], 0⟩, ⟨[boxAt (2 / 25)], 1⟩] :=
  ⟨_, .snoc (.snoc .nil rfl) rfl, rfl⟩

theorem computeIoU_boxAt : computeIoU (boxAt (2 / 25)) (create 1 0 (boxAt 0)) = 21 / 29 := by
  simp only [computeIoU, intersectionOverUnion, create, boxAt, CFloat.max, CFloat.min, const_real]
  norm_num

theorem twoFrames_tracks {config : Config ℝ} (hiou : config.iouThreshold ≤ 21 / 29) :
    (twoFrames config).tracks = [observe config 1 (boxAt (2 / 25)) (create 1 0 (boxAt 0))] := by
  refine update_single (update_new config (boxAt 0) 0) ?_ ?_
  · rw [computeIoU_boxAt, const_real]
    norm_num
  · rw [computeIoU_boxAt]
    exact hiou

theorem twoFrames_trajectory {config : Config ℝ} (hlength : config.trajectoryLength = 60) :
    (observe config 1 (boxAt (2 / 25)) (create 1 0 (boxAt 0))).trajectory =
      [(1 / 4, 1 / 4), (33 / 100, 1 / 4)] := by
  have hcast : int32 2 = 2 := by decide
  simp only [observe, create, boxAt, center, const_real, hlength, List.singleton_append,
    List.length_cons, List.length_nil]
  norm_num [hcast]

theorem distance_twoFrames :
    distance Real.sqrt ((1 / 4, 1 / 4) : ℝ × ℝ) (33 / 100, 1 / 4) = 2 / 25 := by
  have hroot : Real.sqrt (2 / 25 * (2 / 25)) = 2 / 25 := Real.sqrt_mul_self (by norm_num)
  rw [← hroot, distance]
  norm_num

/-- At 0.08 a frame the track is fast. -/
theorem movesFast_twoFrames {config : Config ℝ}
    (hthreshold : config.runningSpeedThreshold = 1 / 20) :
    movesFast config Real.sqrt [(1 / 4, 1 / 4), (33 / 100, 1 / 4)] = true := by
  have hspeed : avgSpeed Real.sqrt ([(1 / 4, 1 / 4), (33 / 100, 1 / 4)] : List (ℝ × ℝ)) =
      2 / 25 := by
    simp [avgSpeed, totalSpeed, distance_twoFrames, const_real, -one_div]
  simp only [movesFast, hspeed, hthreshold]
  norm_num

/-- Its ends are less than twice the threshold apart. -/
theorem endsNear_twoFrames {config : Config ℝ}
    (hthreshold : config.runningSpeedThreshold = 1 / 20) :
    endsNear config Real.sqrt [(1 / 4, 1 / 4), (33 / 100, 1 / 4)] = true := by
  simp only [endsNear, List.getLast_singleton, distance_twoFrames, hthreshold, const_real]
  norm_num

theorem default_iou : ({} : Config ℝ).iouThreshold ≤ 21 / 29 := by
  change ((0.3 : ℚ) : ℝ) ≤ 21 / 29
  norm_num

end updateSystem
