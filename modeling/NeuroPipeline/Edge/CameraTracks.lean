-- SUMMARY: One tracker for the frames of several cameras: whose detections a track holds, and when it holds those of one camera alone.
import NeuroPipeline.Edge.TrackerRuns

/-!
# Tracks of several cameras

`Update` is given the frames of all cameras, one after the other, and is not told which
camera a frame is from. The frame id says it: the cameras take turns.
-/

namespace TemporalTracker

variable {F : Type} [CFloat F] {cam : Nat → Nat}

/-! ## Matches across cameras -/

/-- Each detection whose best overlap, among the tracks that the frame has not yet taken,
reaches the threshold finds it with a track last seen by the camera of the frame. -/
def OwnFrom (cam : Nat → Nat) (config : Config F) (frameId : Nat) :
    Matching F → List (DetectionBox F) → Prop
  | _, [] => True
  | m, det :: rest =>
    (∀ best ∈ bestMatch det m.existing 0 none, config.iouThreshold ≤ best.iou →
      cam best.track.lastSeenFrame = cam frameId) ∧
    OwnFrom cam config frameId (m.assign config frameId det) rest

def OwnMatches (cam : Nat → Nat) (t : TemporalTracker F) (l : TrackerCall F) : Prop :=
  OwnFrom cam t.config l.frameId t.matching l.detections

instance (config : Config F) (frameId : Nat) :
    (m : Matching F) → (detections : List (DetectionBox F)) →
      Decidable (OwnFrom cam config frameId m detections)
  | _, [] => inferInstanceAs (Decidable True)
  | m, det :: rest =>
    have := instDecidableOwnFrom config frameId (m.assign config frameId det) rest
    inferInstanceAs (Decidable ((∀ best ∈ bestMatch det m.existing 0 none, _ → _) ∧ _))

instance (t : TemporalTracker F) (l : TrackerCall F) : Decidable (OwnMatches cam t l) :=
  inferInstanceAs (Decidable (OwnFrom cam _ _ _ _))

namespace Matching

variable {m : Matching F} {config : Config F} {frameId : Nat} {det : DetectionBox F}
  {detections : List (DetectionBox F)}

/-- A detection starts a track, or takes a free one. -/
theorem assign_cases (m : Matching F) (config : Config F) (frameId : Nat) (det : DetectionBox F) :
    (m.assign config frameId det = m.start frameId det ∧
      ∀ best ∈ bestMatch det m.existing 0 none, ¬ config.iouThreshold ≤ best.iou) ∨
    ∃ best, bestMatch det m.existing 0 none = some best ∧ config.iouThreshold ≤ best.iou ∧
      m.existing[best.index]? = some (best.track, false) ∧
      m.assign config frameId det = m.take config frameId det best := by
  cases hbest : bestMatch det m.existing 0 none with
  | none =>
      left
      simp only [assign, hbest]
      refine ⟨trivial, ?_⟩
      rintro best ⟨⟩
  | some best =>
      by_cases hiou : config.iouThreshold ≤ best.iou
      · right
        refine ⟨best, rfl, hiou, ?_, ?_⟩
        · rcases bestMatch_eq_some hbest with hnone | ⟨i, hindex, hget⟩
          · cases hnone
          · rwa [hindex, Nat.zero_add]
        · simp only [assign, hbest, if_pos hiou]
      · left
        simp only [assign, hbest, if_neg hiou]
        refine ⟨trivial, ?_⟩
        rintro best' ⟨⟩
        exact hiou

/-- The ids given so far stay given. -/
theorem assignedIds_stay (m : Matching F) (config : Config F) (frameId : Nat)
    (detections : List (DetectionBox F)) :
    m.assignedIds <+: (detections.foldl (assign config frameId) m).assignedIds := by
  induction detections generalizing m with
  | nil => exact List.prefix_rfl
  | cons det rest ih =>
      have hone : m.assignedIds <+: (m.assign config frameId det).assignedIds := by
        rcases assign_cases m config frameId det with ⟨hstart, -⟩ | ⟨best, -, -, -, htake⟩
        · rw [hstart]
          exact List.prefix_append _ _
        · rw [htake]
          exact List.prefix_append _ _
      exact hone.trans (ih _)

omit [CFloat F] in
/-- The id of a free track has not been given. -/
theorem Valid.free_notMem (h : m.Valid) {track : TrackedObject F} {i : Nat}
    (hfree : m.existing[i]? = some (track, false)) : track.trackId ∉ m.assignedIds := by
  intro hmem
  have htaken : track.trackId ∈ m.takenIds := h.assigned.mem_iff.mp hmem
  have hnodup := h.distinct
  rw [ids, List.map_append, List.nodup_append] at hnodup
  have hex : (track, false) ∈ m.existing := List.mem_of_getElem? hfree
  rw [takenIds, List.map_append, List.mem_append] at htaken
  rcases htaken with hold | hnew
  · obtain ⟨track', htrack', hid⟩ := List.mem_map.mp hold
    obtain ⟨⟨track'', b⟩, hp, rfl⟩ := List.mem_map.mp htrack'
    obtain ⟨hp, hb⟩ := List.mem_filter.mp hp
    have hinj := hnodup.1
    rw [List.map_map] at hinj
    have heq : (track'', b) = (track, false) := List.inj_on_of_nodup_map hinj hp hex hid
    rw [(Prod.mk.inj heq).2] at hb
    cases hb
  · exact hnodup.2.2 _ (List.mem_map_of_mem (List.mem_map_of_mem hex)) _ hnew rfl

/-- The rule is kept exactly when no track of another camera has its id given out. -/
theorem ownFrom_iff (h : m.Valid) :
    OwnFrom cam config frameId m detections ↔
      ∀ track, (track, false) ∈ m.existing →
        track.trackId ∈ (detections.foldl (assign config frameId) m).assignedIds →
        cam track.lastSeenFrame = cam frameId := by
  induction detections generalizing m with
  | nil =>
      refine ⟨fun _ track hfree hgiven => ?_, fun _ => trivial⟩
      obtain ⟨i, hi⟩ := List.mem_iff_getElem?.mp hfree
      exact absurd hgiven (h.free_notMem hi)
  | cons det rest ih =>
      rw [OwnFrom, ih h.assign, List.foldl_cons]
      rcases assign_cases m config frameId det with ⟨hstart, hnone⟩ | ⟨best, hbest, hiou, hget, htake⟩
      · rw [hstart]
        constructor
        · exact fun hown => hown.2
        · exact fun hown => ⟨fun best hbest hiou => absurd hiou (hnone best hbest), hown⟩
      · rw [htake, hbest]
        have hfree : (best.track, false) ∈ m.existing := List.mem_of_getElem? hget
        have hgiven : best.track.trackId ∈
            (rest.foldl (assign config frameId) (m.take config frameId det best)).assignedIds := by
          apply (assignedIds_stay _ config frameId rest).subset
          exact List.mem_append_right _ (List.mem_singleton.mpr rfl)
        constructor
        · rintro ⟨hown, hrest⟩ track htrack hmem
          by_cases hsame : (track, false) = (best.track, false)
          · rw [(Prod.mk.inj hsame).1]
            exact hown best rfl hiou
          · exact hrest track (Matched.mem_set_of_ne hget htrack hsame) hmem
        · intro hown
          refine ⟨?_, ?_⟩
          · rintro best' ⟨⟩ -
            exact hown best.track hfree hgiven
          · intro track htrack hmem
            rcases List.mem_or_eq_of_mem_set htrack with hold | hnew
            · exact hown track hold hmem
            · cases (Prod.mk.inj hnew).2

end Matching

/-- Of the tracks before the frame, only those of its camera are given to its detections. -/
theorem ownMatches_iff {t : TemporalTracker F} {l : TrackerCall F} :
    OwnMatches cam t l ↔ ∀ track ∈ t.tracks,
      track.trackId ∈ (t.update l.detections l.frameId).2 →
        cam track.lastSeenFrame = cam l.frameId := by
  rw [OwnMatches, Matching.ownFrom_iff t.matching_valid]
  have hfree : ∀ track, (track, false) ∈ t.matching.existing ↔ track ∈ t.tracks := by
    intro track
    simp [matching]
  constructor
  · exact fun h track htrack hmem => h track ((hfree track).mpr htrack) hmem
  · exact fun h track htrack hmem => h track ((hfree track).mp htrack) hmem

end TemporalTracker

/-! ## Runs -/

/-- All sequences of calls of `Update`. -/
def updateSystem {F : Type} [CFloat F] (config : TemporalTracker.Config F) :
    TransitionSystem (TemporalTracker F) (TrackerCall F) where
  init t := t = .new config
  step t l := some (t.update l.detections l.frameId).1

namespace updateSystem

open TemporalTracker

variable {F : Type} [CFloat F] {cam : Nat → Nat} {config : Config F}
  {t : List (TemporalTracker F × TrackerCall F)} {s s' : TemporalTracker F} {l : TrackerCall F}

/-- The detections that a call gives to tracks. -/
def sighted (p : TemporalTracker F × TrackerCall F) : List (Sighting F) :=
  (p.1.given p.2.detections p.2.frameId).map fun q => ⟨p.2.frameId, q.1, q.2⟩

def sightings (t : List (TemporalTracker F × TrackerCall F)) : List (Sighting F) :=
  t.flatMap sighted

/-- No track has detections of two cameras. -/
def Separate (cam : Nat → Nat) (t : List (TemporalTracker F × TrackerCall F)) : Prop :=
  ∀ g ∈ sightings t, ∀ g' ∈ sightings t, g.trackId = g'.trackId → cam g.frameId = cam g'.frameId

theorem mem_sighted {p : TemporalTracker F × TrackerCall F} {g : Sighting F} :
    g ∈ sighted p ↔
      g.frameId = p.2.frameId ∧ (g.trackId, g.det) ∈ p.1.given p.2.detections p.2.frameId := by
  rw [sighted, List.mem_map]
  constructor
  · rintro ⟨q, hq, rfl⟩
    exact ⟨rfl, hq⟩
  · rintro ⟨hframe, hgiven⟩
    refine ⟨_, hgiven, ?_⟩
    rw [← hframe]

theorem mem_sightings_snoc {g : Sighting F} :
    g ∈ sightings (t ++ [(s, l)]) ↔ g ∈ sightings t ∨ g ∈ sighted (s, l) := by
  simp [sightings]

/-- A track was last seen by a detection that it was given, and ids are given in order. -/
structure Known (t : List (TemporalTracker F × TrackerCall F)) (s : TemporalTracker F) : Prop where
  seen : ∀ track ∈ s.tracks, ∃ g ∈ sightings t, g.trackId = track.trackId ∧
    g.frameId = track.lastSeenFrame
  older : ∀ g ∈ sightings t, g.trackId < s.nextTrackId

theorem update_of_step (hs : (updateSystem config).step s l = some s') :
    s' = (s.update l.detections l.frameId).1 := (Option.some_inj.mp hs).symm

theorem nextTrackId_le (hs : (updateSystem config).step s l = some s') :
    s.nextTrackId ≤ s'.nextTrackId := by
  rw [update_of_step hs]
  exact (s.assignAll_matched l.detections l.frameId).next

theorem Known.step (h : Known t s) (hs : (updateSystem config).step s l = some s') :
    Known (t ++ [(s, l)]) s' := by
  have hnext := nextTrackId_le hs
  rw [update_of_step hs] at hnext ⊢
  constructor
  · intro track htrack
    rcases mem_update_cases htrack with ⟨hbefore, -, -⟩ | ⟨before, -, det, hgiven, rfl⟩ |
      ⟨i, det, hgiven, -, rfl⟩
    · obtain ⟨g, hg, hid⟩ := h.seen track hbefore
      exact ⟨g, mem_sightings_snoc.mpr (.inl hg), hid⟩
    · exact ⟨⟨l.frameId, before.trackId, det⟩,
        mem_sightings_snoc.mpr (.inr (mem_sighted.mpr ⟨rfl, hgiven⟩)), rfl, rfl⟩
    · exact ⟨⟨l.frameId, i, det⟩,
        mem_sightings_snoc.mpr (.inr (mem_sighted.mpr ⟨rfl, hgiven⟩)), rfl, rfl⟩
  · intro g hg
    rcases mem_sightings_snoc.mp hg with hold | hnew
    · exact (h.older g hold).trans_le hnext
    · obtain ⟨track, htrack, hid, -⟩ := named_of_given (mem_sighted.mp hnew).2
      rw [← hid]
      exact (s.update l.detections l.frameId).1.fresh track htrack

theorem known (hrun : (updateSystem config).Run (.new config) t s) : Known t s :=
  hrun.invariant_history (fun _ _ _ _ h hs => h.step hs) ⟨nofun, nofun⟩

/-- Whose detections a track has is the camera that last saw it. -/
structure Owned (cam : Nat → Nat) (t : List (TemporalTracker F × TrackerCall F))
    (s : TemporalTracker F) : Prop where
  separate : Separate cam t
  owner : ∀ g ∈ sightings t, ∀ track ∈ s.tracks, g.trackId = track.trackId →
    cam g.frameId = cam track.lastSeenFrame

/-- The track that is given a detection is new, or was last seen by the camera of the frame. -/
theorem Owned.of_given (h : Owned cam t s) (hknown : Known t s) (hl : OwnMatches cam s l)
    {g g' : Sighting F} (hg : g ∈ sightings t) (hg' : g' ∈ sighted (s, l))
    (hid : g.trackId = g'.trackId) : cam g.frameId = cam l.frameId := by
  have hgiven := (mem_sighted.mp hg').2
  have hmem : g'.trackId ∈ (s.update l.detections l.frameId).2 := mem_ids_iff.mpr ⟨_, hgiven⟩
  rcases (s.assignAll_matched l.detections l.frameId).placed _ _ hgiven with
    ⟨track, htrack, htrackId, -⟩ | ⟨hle, -⟩
  · rw [h.owner g hg track htrack (hid.trans htrackId.symm)]
    exact ownMatches_iff.mp hl track htrack (htrackId ▸ hmem)
  · have hlt := hknown.older g hg
    rw [hid] at hlt
    exact absurd hle (Nat.not_le_of_lt hlt)

theorem Owned.step (h : Owned cam t s) (hknown : Known t s) (hl : OwnMatches cam s l)
    (hs : (updateSystem config).step s l = some s') : Owned cam (t ++ [(s, l)]) s' := by
  rw [update_of_step hs]
  constructor
  · intro g hg g' hg' hid
    rcases mem_sightings_snoc.mp hg with hold | hnew
    · rcases mem_sightings_snoc.mp hg' with hold' | hnew'
      · exact h.separate g hold g' hold' hid
      · rw [(mem_sighted.mp hnew').1]
        exact h.of_given hknown hl hold hnew' hid
    · rw [(mem_sighted.mp hnew).1]
      rcases mem_sightings_snoc.mp hg' with hold' | hnew'
      · exact (h.of_given hknown hl hold' hnew hid.symm).symm
      · rw [(mem_sighted.mp hnew').1]
  · intro g hg track htrack hid
    rcases mem_sightings_snoc.mp hg with hold | hnew
    · rcases mem_update_cases htrack with ⟨hbefore, -, -⟩ | ⟨before, hbefore, det, hgiven, rfl⟩ |
        ⟨i, det, -, hle, rfl⟩
      · exact h.owner g hold track hbefore hid
      · have hnow : (⟨l.frameId, before.trackId, det⟩ : Sighting F) ∈ sighted (s, l) :=
          mem_sighted.mpr ⟨rfl, hgiven⟩
        exact h.of_given hknown hl hold hnow hid
      · have hlt := hknown.older g hold
        rw [hid] at hlt
        exact absurd hle (Nat.not_le_of_lt hlt)
    · obtain ⟨hframe, hgiven⟩ := mem_sighted.mp hnew
      obtain ⟨track', htrack', hid', -, hseen⟩ := named_of_given hgiven
      rw [track_unique htrack htrack' (hid.symm.trans hid'.symm), hseen, hframe]

theorem Separate.initial {t₁ : List (TemporalTracker F × TrackerCall F)} (h : Separate cam t)
    (hinit : t₁ <+: t) : Separate cam t₁ := by
  obtain ⟨t₂, rfl⟩ := hinit
  intro g hg g' hg' hid
  have hsightings : sightings (t₁ ++ t₂) = sightings t₁ ++ sightings t₂ := List.flatMap_append
  apply h g _ g' _ hid
  · rw [hsightings]
    exact List.mem_append_left _ hg
  · rw [hsightings]
    exact List.mem_append_left _ hg'

/-- In every run no track has detections of two cameras exactly when every frame matches
its own. -/
theorem separate_iff (hrun : (updateSystem config).Run (.new config) t s) :
    Separate cam t ↔ TransitionSystem.Respects (OwnMatches cam) t := by
  constructor
  · rintro hseparate ⟨s₁, l⟩ hp
    obtain ⟨t₁, t₂, rfl⟩ := List.append_of_mem hp
    have hinit : t₁ ++ [(s₁, l)] <+: t₁ ++ (s₁, l) :: t₂ := ⟨t₂, by simp⟩
    have hknown := known (hrun.initial hinit).1
    apply ownMatches_iff.mpr
    intro track htrack hmem
    obtain ⟨det, hgiven⟩ := mem_ids_iff.mp hmem
    obtain ⟨g, hg, hid, hframe⟩ := hknown.seen track htrack
    have hnow : (⟨l.frameId, track.trackId, det⟩ : Sighting F) ∈ sighted (s₁, l) :=
      mem_sighted.mpr ⟨rfl, hgiven⟩
    rw [← hframe]
    exact hseparate.initial hinit g (mem_sightings_snoc.mpr (.inl hg)) _
      (mem_sightings_snoc.mpr (.inr hnow)) hid
  · intro ht
    have howned : Known t s ∧ Owned cam t s := by
      apply hrun.invariant_history_of_respects (I := fun t s => Known t s ∧ Owned cam t s) _ _ ht
      · rintro t s l s' ⟨hknown, howned⟩ hl hs
        exact ⟨hknown.step hs, howned.step hknown hl hs⟩
      · exact ⟨⟨nofun, nofun⟩, ⟨nofun, nofun⟩⟩
    exact howned.2.separate

end updateSystem
