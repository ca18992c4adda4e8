-- SUMMARY: What the detections of other cameras change for one camera: nothing, as long as every frame matches its own tracks.
import NeuroPipeline.Edge.CameraTracks
import NeuroPipeline.Lib.CNumber
import Mathlib.Data.List.Forall2

/-!
# The view of one camera

A tracker that is given the frames of all cameras beside one that is given the same
frames, but those of the other cameras empty. As long as no frame takes a track of
another camera the second tracker has the tracks of the camera, in their order and
under ids of its own.
-/

namespace TemporalTracker

variable {F : Type} [CFloat F] {cam : Nat → Nat} {A : Nat} {pairs pairs' : List (Nat × Nat)}

/-! ## Tracks under two ids -/

/-- The same track under another id. -/
def Alike (pairs : List (Nat × Nat)) (track track' : TrackedObject F) : Prop :=
  ∃ i, track' = { track with trackId := i } ∧ (track.trackId, i) ∈ pairs

def AlikeEntry (pairs : List (Nat × Nat)) (p p' : TrackedObject F × Bool) : Prop :=
  Alike pairs p.1 p'.1 ∧ p.2 = p'.2

/-- The track was last seen by the camera. -/
def ownTrack (cam : Nat → Nat) (A : Nat) (track : TrackedObject F) : Bool :=
  cam track.lastSeenFrame = A

def ownEntry (cam : Nat → Nat) (A : Nat) (p : TrackedObject F × Bool) : Bool :=
  ownTrack cam A p.1

/-- Ids that correspond to each other, one to one. -/
def OneToOne (pairs : List (Nat × Nat)) : Prop :=
  ∀ p ∈ pairs, ∀ q ∈ pairs, p.1 = q.1 ↔ p.2 = q.2

/-- A pair of ids that are both new. -/
theorem OneToOne.snoc (h : OneToOne pairs) {i j : Nat} (hold : ∀ p ∈ pairs, p.1 < i ∧ p.2 < j) :
    OneToOne (pairs ++ [(i, j)]) := by
  intro p hp q hq
  rcases List.mem_append.mp hp with hp | hp
  · obtain ⟨hlt, hlt'⟩ := hold p hp
    rcases List.mem_append.mp hq with hq | hq
    · exact h p hp q hq
    · rw [List.mem_singleton.mp hq]
      exact iff_of_false (Nat.ne_of_lt hlt) (Nat.ne_of_lt hlt')
  · rw [List.mem_singleton.mp hp]
    rcases List.mem_append.mp hq with hq | hq
    · obtain ⟨hlt, hlt'⟩ := hold q hq
      exact iff_of_false (Nat.ne_of_gt hlt) (Nat.ne_of_gt hlt')
    · rw [List.mem_singleton.mp hq]
      exact iff_of_true rfl rfl

namespace Alike

variable {track track' : TrackedObject F}

omit [CFloat F] in
theorem mono (h : Alike pairs track track') (hsub : pairs ⊆ pairs') : Alike pairs' track track' := by
  obtain ⟨i, heq, hmem⟩ := h
  exact ⟨i, heq, hsub hmem⟩

theorem computeIoU (h : Alike pairs track track') (det : DetectionBox F) :
    TemporalTracker.computeIoU det track' = TemporalTracker.computeIoU det track := by
  obtain ⟨i, rfl, -⟩ := h
  rfl

theorem observe (h : Alike pairs track track') (config : Config F) (frameId : Nat)
    (det : DetectionBox F) :
    Alike pairs (TemporalTracker.observe config frameId det track)
      (TemporalTracker.observe config frameId det track') := by
  obtain ⟨i, rfl, hmem⟩ := h
  exact ⟨i, by simp only [TemporalTracker.observe], hmem⟩

theorem lost (h : Alike pairs track track') (config : Config F) (frameId : Nat) :
    TemporalTracker.lost config frameId track = TemporalTracker.lost config frameId track' := by
  obtain ⟨i, rfl, -⟩ := h
  rfl

end Alike

/-! ## The best match -/

/-- The loop over the tracks at one of them. -/
def consider (det : DetectionBox F) (t : Nat) (p : TrackedObject F × Bool)
    (best : Option (Candidate F)) : Option (Candidate F) :=
  if !p.2 && (best.elim (CFloat.const 0) Candidate.iou < computeIoU det p.1 : Bool) then
    some ⟨t, p.1, computeIoU det p.1⟩
  else best

theorem bestMatch_cons (det : DetectionBox F) (p : TrackedObject F × Bool)
    (rest : List (TrackedObject F × Bool)) (t : Nat) (best : Option (Candidate F)) :
    bestMatch det (p :: rest) t best = bestMatch det rest (t + 1) (consider det t p best) := by
  obtain ⟨track, matched⟩ := p
  simp only [bestMatch, consider]
  split <;> rfl

/-- The candidates are at the same place of the two lists. -/
structure Placed (cam : Nat → Nat) (A : Nat) (pairs : List (Nat × Nat))
    (l l' : List (TrackedObject F × Bool)) (c c' : Candidate F) : Prop where
  split : ∃ before x after before' x' after', l = before ++ x :: after ∧
    l' = before' ++ x' :: after' ∧ c.index = before.length ∧ c'.index = before'.length ∧
    x.1 = c.track ∧ x'.1 = c'.track ∧ AlikeEntry pairs x x' ∧
    List.Forall₂ (AlikeEntry pairs) (before.filter (ownEntry cam A)) before' ∧
    List.Forall₂ (AlikeEntry pairs) (after.filter (ownEntry cam A)) after'

/-- The best so far of all tracks, and of those of the camera: the same track, or one of
another camera that is at least as good. -/
def Rival (cam : Nat → Nat) (A : Nat) (pairs : List (Nat × Nat))
    (l l' : List (TrackedObject F × Bool)) : Option (Candidate F) → Option (Candidate F) → Prop
  | none, none => True
  | none, some _ => False
  | some c, none => CFloat.const 0 < c.iou ∧ ownTrack cam A c.track = false
  | some c, some c' => CFloat.const 0 < c.iou ∧
    (ownTrack cam A c.track = true ∧ c'.iou = c.iou ∧ Placed cam A pairs l l' c c' ∨
      ownTrack cam A c.track = false ∧ c'.iou ≤ c.iou)

section

variable [LawfulCFloat F] {det : DetectionBox F} {l l' : List (TrackedObject F × Bool)}
  {best best' : Option (Candidate F)}

omit [LawfulCFloat F] in
theorem Rival.pos_of_some {c : Candidate F} (h : Rival cam A pairs l l' (some c) best') :
    CFloat.const 0 < c.iou := by
  cases best' with
  | none => exact h.1
  | some c' => exact h.1

/-- A candidate that replaces the best is better than nothing. -/
theorem Rival.pos (h : Rival cam A pairs l l' best best') {iou : F}
    (hlt : best.elim (CFloat.const 0) Candidate.iou < iou) : CFloat.const 0 < iou := by
  cases best with
  | none => exact hlt
  | some c => exact LawfulCFloat.lt_trans h.pos_of_some hlt

/-- A track of another camera can only raise the best of all. -/
theorem Rival.foreign (h : Rival cam A pairs l l' best best') {p : TrackedObject F × Bool}
    (hp : ownEntry cam A p = false) (t : Nat) :
    Rival cam A pairs l l' (consider det t p best) best' := by
  rw [consider]
  split
  next hbetter =>
    have hlt : best.elim (CFloat.const 0) Candidate.iou < computeIoU det p.1 := by
      simp only [Bool.and_eq_true, decide_eq_true_eq] at hbetter
      exact hbetter.2
    have hpos := h.pos hlt
    cases best' with
    | none => exact ⟨hpos, hp⟩
    | some c' =>
        refine ⟨hpos, .inr ⟨hp, ?_⟩⟩
        cases best with
        | none => exact h.elim
        | some c =>
            have hle := LawfulCFloat.le_of_lt hlt
            rcases h.2 with ⟨-, hiou, -⟩ | ⟨-, hiou⟩
            · rw [hiou]
              exact hle
            · exact LawfulCFloat.le_trans hiou hle
  next => exact h

/-- A track of the camera is met by both loops. -/
theorem Rival.own (h : Rival cam A pairs l l' best best') {p p' : TrackedObject F × Bool}
    (hp : ownEntry cam A p = true) (hlike : AlikeEntry pairs p p') {t t' : Nat}
    (hplaced : Placed cam A pairs l l' ⟨t, p.1, computeIoU det p.1⟩ ⟨t', p'.1, computeIoU det p'.1⟩) :
    Rival cam A pairs l l' (consider det t p best) (consider det t' p' best') := by
  have hiou : computeIoU det p'.1 = computeIoU det p.1 := hlike.1.computeIoU det
  rw [consider, consider, hiou, ← hlike.2]
  rw [hiou] at hplaced
  cases hfree : p.2 with
  | true => exact h
  | false =>
      simp only [Bool.not_false, Bool.true_and, decide_eq_true_eq]
      by_cases hlt : best.elim (CFloat.const 0) Candidate.iou < computeIoU det p.1
      · have hpos := h.pos hlt
        have hlt' : best'.elim (CFloat.const 0) Candidate.iou < computeIoU det p.1 := by
          cases best' with
          | none => exact hpos
          | some c' =>
              cases best with
              | none => exact h.elim
              | some c =>
                  rcases h.2 with ⟨-, hsame, -⟩ | ⟨-, hle⟩
                  · exact (congrArg (· < computeIoU det p.1) hsame).mpr hlt
                  · exact LawfulCFloat.lt_of_le_of_lt hle hlt
        rw [if_pos hlt, if_pos hlt']
        exact ⟨hpos, .inl ⟨hp, rfl, hplaced⟩⟩
      · rw [if_neg hlt]
        by_cases hlt' : best'.elim (CFloat.const 0) Candidate.iou < computeIoU det p.1
        · -- the best of all is a track of another camera, and no worse than this one
          rw [if_pos hlt']
          cases best with
          | none =>
              cases best' with
              | none => exact absurd hlt' hlt
              | some c' => exact h.elim
          | some c =>
              have hnumber := (LawfulCFloat.isNumber_of_lt hlt').2
              have hnumber' := (LawfulCFloat.isNumber_of_lt h.pos_of_some).2
              have hle : computeIoU det p.1 ≤ c.iou :=
                LawfulCFloat.le_of_not_lt hnumber' hnumber hlt
              cases best' with
              | none => exact ⟨h.1, .inr ⟨h.2, hle⟩⟩
              | some c' =>
                  rcases h.2 with ⟨-, hsame, -⟩ | ⟨hforeign, -⟩
                  · exact absurd ((congrArg (· < computeIoU det p.1) hsame).mp hlt') hlt
                  · exact ⟨h.1, .inr ⟨hforeign, hle⟩⟩
        · rw [if_neg hlt']
          exact h

/-- The two loops side by side. -/
theorem bestMatch_rival {rest rest' : List (TrackedObject F × Bool)}
    (before before' : List (TrackedObject F × Bool))
    (hrest : List.Forall₂ (AlikeEntry pairs) (rest.filter (ownEntry cam A)) rest')
    (hbefore : List.Forall₂ (AlikeEntry pairs) (before.filter (ownEntry cam A)) before')
    (h : Rival cam A pairs (before ++ rest) (before' ++ rest') best best') :
    Rival cam A pairs (before ++ rest) (before' ++ rest')
      (bestMatch det rest before.length best) (bestMatch det rest' before'.length best') := by
  induction rest generalizing before before' rest' best best' with
  | nil =>
      obtain rfl : rest' = [] := List.forall₂_nil_left_iff.mp hrest
      exact h
  | cons p rest ih =>
      have hsplit : before ++ p :: rest = (before ++ [p]) ++ rest := by simp
      have hlength : (before ++ [p]).length = before.length + 1 := by simp
      rw [bestMatch_cons]
      cases hp : ownEntry cam A p with
      | false =>
          rw [List.filter_cons_of_neg (by simp [hp])] at hrest
          have hbefore' : List.Forall₂ (AlikeEntry pairs)
              ((before ++ [p]).filter (ownEntry cam A)) before' := by
            simpa [hp] using hbefore
          have hforeign : Rival cam A pairs ((before ++ [p]) ++ rest) (before' ++ rest')
              (consider det before.length p best) best' := hsplit ▸ h.foreign hp before.length
          have hnext := ih (before ++ [p]) before' hrest hbefore' hforeign
          rw [hlength, ← hsplit] at hnext
          exact hnext
      | true =>
          rw [List.filter_cons_of_pos hp] at hrest
          obtain ⟨p', rest'', hlike, hrest'', rfl⟩ := List.forall₂_cons_left_iff.mp hrest
          have hbefore'' : List.Forall₂ (AlikeEntry pairs)
              ((before ++ [p]).filter (ownEntry cam A)) (before' ++ [p']) := by
            rw [List.filter_append, List.filter_cons_of_pos hp]
            exact List.rel_append hbefore (.cons hlike .nil)
          have hplaced : Placed cam A pairs (before ++ p :: rest) (before' ++ p' :: rest'')
              ⟨before.length, p.1, computeIoU det p.1⟩ ⟨before'.length, p'.1, computeIoU det p'.1⟩ :=
            ⟨before, p, rest, before', p', rest'', rfl, rfl, rfl, rfl, rfl, rfl, hlike, hbefore,
              hrest''⟩
          have hsplit' : before' ++ p' :: rest'' = (before' ++ [p']) ++ rest'' := by simp
          have hlength' : (before' ++ [p']).length = before'.length + 1 := by simp
          have hown := h.own hp hlike hplaced
          rw [hsplit, hsplit'] at hown
          have hnext := ih (before ++ [p]) (before' ++ [p']) hrest'' hbefore'' hown
          rw [hlength, hlength', ← hsplit, ← hsplit'] at hnext
          rw [bestMatch_cons]
          exact hnext

end

/-! ## One frame of the camera -/

section

variable {config : Config F} {frameId : Nat} {det : DetectionBox F} {m m' : Matching F}

/-- The ids that correspond, with those of the frame so far. -/
def paired (pairs : List (Nat × Nat)) (m m' : Matching F) : List (Nat × Nat) :=
  pairs ++ m.assignedIds.zip m'.assignedIds

/-- The matching of all tracks, and that of the tracks of the camera. -/
structure View (cam : Nat → Nat) (A : Nat) (pairs : List (Nat × Nat)) (m m' : Matching F) : Prop where
  existing : List.Forall₂ (AlikeEntry (paired pairs m m'))
    (m.existing.filter (ownEntry cam A)) m'.existing
  created : List.Forall₂ (Alike (paired pairs m m')) m.created m'.created
  length : m.assignedIds.length = m'.assignedIds.length
  older : ∀ p ∈ paired pairs m m', p.1 < m.nextTrackId ∧ p.2 < m'.nextTrackId
  oneToOne : OneToOne (paired pairs m m')

theorem View.paired_start (h : View cam A pairs m m') (frameId : Nat) (det : DetectionBox F) :
    paired pairs (m.start frameId det) (m'.start frameId det) =
      paired pairs m m' ++ [(m.nextTrackId, m'.nextTrackId)] := by
  simp [paired, Matching.start, List.zip_append h.length]

theorem View.paired_take (h : View cam A pairs m m') (config : Config F) (frameId : Nat)
    (det : DetectionBox F) (best best' : Candidate F) :
    paired pairs (m.take config frameId det best) (m'.take config frameId det best') =
      paired pairs m m' ++ [(best.track.trackId, best'.track.trackId)] := by
  simp [paired, Matching.take, List.zip_append h.length]

omit [CFloat F] in
theorem AlikeEntry.mono {p p' : TrackedObject F × Bool} (h : AlikeEntry pairs p p')
    (hsub : pairs ⊆ pairs') : AlikeEntry pairs' p p' :=
  ⟨h.1.mono hsub, h.2⟩

theorem View.start (h : View cam A pairs m m') (frameId : Nat) (det : DetectionBox F) :
    View cam A pairs (m.start frameId det) (m'.start frameId det) where
  existing := by
    rw [h.paired_start]
    exact h.existing.imp fun _ _ hlike => hlike.mono (List.subset_append_left _ _)
  created := by
    rw [h.paired_start]
    apply List.rel_append
    · exact h.created.imp fun _ _ hlike => hlike.mono (List.subset_append_left _ _)
    · exact .cons ⟨m'.nextTrackId, rfl, List.mem_append_right _ (List.mem_singleton.mpr rfl)⟩ .nil
  length := by simp [Matching.start, h.length]
  older p hp := by
    rw [h.paired_start] at hp
    rcases List.mem_append.mp hp with hold | hnew
    · exact ⟨Nat.lt_succ_of_lt (h.older p hold).1, Nat.lt_succ_of_lt (h.older p hold).2⟩
    · rw [List.mem_singleton.mp hnew]
      exact ⟨Nat.lt_succ_self _, Nat.lt_succ_self _⟩
  oneToOne := by
    rw [h.paired_start]
    exact h.oneToOne.snoc h.older

theorem View.take (h : View cam A pairs m m') (hcam : cam frameId = A) (config : Config F)
    (det : DetectionBox F) {best best' : Candidate F}
    (hplaced : Placed cam A (paired pairs m m') m.existing m'.existing best best') :
    View cam A pairs (m.take config frameId det best) (m'.take config frameId det best') := by
  obtain ⟨before, x, after, before', x', after', hm, hm', hindex, hindex', htrack, htrack', hlike,
    hbefore, hafter⟩ := hplaced.split
  have hpair : (best.track.trackId, best'.track.trackId) ∈ paired pairs m m' := by
    obtain ⟨i, heq, hmem⟩ := hlike.1
    rw [← htrack, ← htrack', heq]
    exact hmem
  have hsub : paired pairs (m.take config frameId det best) (m'.take config frameId det best') ⊆
      paired pairs m m' := by
    rw [h.paired_take]
    exact List.append_subset.mpr ⟨List.Subset.refl _, by simpa using hpair⟩
  have hsup : paired pairs m m' ⊆
      paired pairs (m.take config frameId det best) (m'.take config frameId det best') := by
    rw [h.paired_take]
    exact List.subset_append_left _ _
  have hset : (m.take config frameId det best).existing =
      before ++ (observe config frameId det best.track, true) :: after := by
    simp [Matching.take, hm, hindex]
  have hset' : (m'.take config frameId det best').existing =
      before' ++ (observe config frameId det best'.track, true) :: after' := by
    simp [Matching.take, hm', hindex']
  have hown : ownEntry cam A (observe config frameId det best.track, true) = true :=
    decide_eq_true hcam
  refine ⟨?_, ?_, ?_, ?_, ?_⟩
  · rw [hset, hset', List.filter_append, List.filter_cons_of_pos hown]
    refine List.rel_append (hbefore.imp fun _ _ hp => hp.mono hsup) (.cons ?_
      (hafter.imp fun _ _ hp => hp.mono hsup))
    have hobserved := (hlike.1.mono hsup).observe config frameId det
    rw [htrack, htrack'] at hobserved
    exact ⟨hobserved, rfl⟩
  · exact h.created.imp fun _ _ hp => hp.mono hsup
  · simp [Matching.take, h.length]
  · exact fun p hp => h.older p (hsub hp)
  · exact fun p hp q hq => h.oneToOne p (hsub hp) q (hsub hq)

/-- A detection that matches its own camera goes the same way in both matchings. -/
theorem View.assign [LawfulCFloat F] (h : View cam A pairs m m') (hcam : cam frameId = A)
    (hown : ∀ best ∈ bestMatch det m.existing 0 none, config.iouThreshold ≤ best.iou →
      cam best.track.lastSeenFrame = cam frameId) :
    View cam A pairs (m.assign config frameId det) (m'.assign config frameId det) := by
  have hrival : Rival cam A (paired pairs m m') m.existing m'.existing
      (bestMatch det m.existing 0 none) (bestMatch det m'.existing 0 none) :=
    bestMatch_rival [] [] h.existing .nil trivial
  rcases Matching.assign_cases m config frameId det with ⟨hstart, hnone⟩ | ⟨best, hbest, hiou, -, htake⟩
  · -- no overlap with any track reaches the threshold
    have hnone' : ∀ best' ∈ bestMatch det m'.existing 0 none,
        ¬ config.iouThreshold ≤ best'.iou := by
      intro best' hbest' hiou'
      rw [hbest'] at hrival
      cases hbest : bestMatch det m.existing 0 none with
      | none =>
          rw [hbest] at hrival
          exact hrival
      | some best =>
          rw [hbest] at hrival
          apply hnone best hbest
          rcases hrival.2 with ⟨-, hsame, -⟩ | ⟨-, hle⟩
          · rwa [← hsame]
          · exact LawfulCFloat.le_trans hiou' hle
    rcases Matching.assign_cases m' config frameId det with
      ⟨hstart', -⟩ | ⟨best', hbest', hiou', -⟩
    · rw [hstart, hstart']
      exact h.start frameId det
    · exact absurd hiou' (hnone' best' hbest')
  · rw [hbest] at hrival
    have htrack : ownTrack cam A best.track = true := decide_eq_true ((hown best hbest hiou).trans hcam)
    cases hbest' : bestMatch det m'.existing 0 none with
    | none =>
        rw [hbest'] at hrival
        exact absurd (htrack.symm.trans hrival.2) (by simp)
    | some best' =>
        rw [hbest'] at hrival
        rcases hrival.2 with ⟨-, hsame, hplaced⟩ | ⟨hforeign, -⟩
        · rcases Matching.assign_cases m' config frameId det with
            ⟨-, hnone'⟩ | ⟨best'', hbest'', -, -, htake'⟩
          · exact absurd (hsame ▸ hiou) (hnone' best' hbest')
          · obtain rfl := Option.some_inj.mp (hbest'.symm.trans hbest'')
            rw [htake, htake']
            exact h.take hcam config det hplaced
        · exact absurd (htrack.symm.trans hforeign) (by simp)

theorem View.foldl [LawfulCFloat F] (h : View cam A pairs m m') (hcam : cam frameId = A)
    {detections : List (DetectionBox F)} (hown : OwnFrom cam config frameId m detections) :
    View cam A pairs (detections.foldl (Matching.assign config frameId) m)
      (detections.foldl (Matching.assign config frameId) m') := by
  induction detections generalizing m m' with
  | nil => exact h
  | cons det rest ih => exact ih (h.assign hcam hown.1) hown.2

end

/-! ## Calls -/

/-- The second tracker has the tracks of the camera under other ids. -/
structure Mirrors (cam : Nat → Nat) (A : Nat) (pairs : List (Nat × Nat)) (s s' : TemporalTracker F) :
    Prop where
  config : s'.config = s.config
  tracks : List.Forall₂ (Alike pairs) (s.tracks.filter (ownTrack cam A)) s'.tracks
  older : ∀ p ∈ pairs, p.1 < s.nextTrackId ∧ p.2 < s'.nextTrackId
  oneToOne : OneToOne pairs

section

variable {s s' : TemporalTracker F} {l : TrackerCall F}

omit [CFloat F] in
theorem filter_own_map (l : List (TrackedObject F × Bool)) :
    (l.map Prod.fst).filter (ownTrack cam A) = (l.filter (ownEntry cam A)).map Prod.fst := by
  rw [List.filter_map]
  rfl

theorem map_fst_matching (s : TemporalTracker F) : s.matching.existing.map Prod.fst = s.tracks := by
  simp only [TemporalTracker.matching, List.map_map]
  exact List.map_id _

theorem Mirrors.matching (h : Mirrors cam A pairs s s') : View cam A pairs s.matching s'.matching := by
  have hpaired : paired pairs s.matching s'.matching = pairs := List.append_nil pairs
  refine ⟨?_, .nil, rfl, ?_, ?_⟩
  · have hfilter : s.matching.existing.filter (ownEntry cam A) =
        (s.tracks.filter (ownTrack cam A)).map fun track => (track, false) := by
      simp only [TemporalTracker.matching, List.filter_map]
      rfl
    have hexisting : s'.matching.existing = s'.tracks.map fun track => (track, false) := rfl
    rw [hpaired, hfilter, hexisting, List.forall₂_map_left_iff, List.forall₂_map_right_iff]
    exact h.tracks.imp fun _ _ hlike => ⟨hlike, rfl⟩
  · rw [hpaired]
    exact h.older
  · rw [hpaired]
    exact h.oneToOne

/-- What is lost is lost in both. -/
theorem filter_lost_mirrors {l l' : List (TrackedObject F)} (h : List.Forall₂ (Alike pairs) l l')
    (config : Config F) (frameId : Nat) :
    List.Forall₂ (Alike pairs) (l.filter fun track => !lost config frameId track)
      (l'.filter fun track => !lost config frameId track) := by
  apply List.rel_filter _ h
  intro track track' hlike
  simp only [hlike.lost config frameId]

theorem filter_own_lost (l : List (TrackedObject F)) (config : Config F) (frameId : Nat) :
    (l.filter fun track => !lost config frameId track).filter (ownTrack cam A) =
      (l.filter (ownTrack cam A)).filter fun track => !lost config frameId track := by
  rw [List.filter_filter, List.filter_filter]
  apply List.filter_congr
  intro track _
  exact Bool.and_comm _ _

/-- The tracks that a frame starts are of its camera. -/
theorem created_seen (s : TemporalTracker F) (l : TrackerCall F) {track : TrackedObject F}
    (h : track ∈ (s.assignAll l.detections l.frameId).created) : track.lastSeenFrame = l.frameId := by
  obtain ⟨i, det, -, -, rfl⟩ := (s.assignAll_matched l.detections l.frameId).created track h
  rfl

/-- A frame of the camera: both trackers go the same way. -/
theorem Mirrors.update_own [LawfulCFloat F] (h : Mirrors cam A pairs s s')
    (hcam : cam l.frameId = A) (hl : OwnMatches cam s l) :
    Mirrors cam A
      (pairs ++ (s.update l.detections l.frameId).2.zip (s'.update l.detections l.frameId).2)
      (s.update l.detections l.frameId).1 (s'.update l.detections l.frameId).1 := by
  have hview : View cam A pairs (s.assignAll l.detections l.frameId)
      (s'.assignAll l.detections l.frameId) := by
    rw [assignAll, assignAll, h.config]
    exact h.matching.foldl hcam hl
  refine ⟨h.config, ?_, hview.older, hview.oneToOne⟩
  have hcreated : (s.assignAll l.detections l.frameId).created.filter (ownTrack cam A) =
      (s.assignAll l.detections l.frameId).created := by
    apply List.filter_eq_self.mpr
    intro track htrack
    apply decide_eq_true
    rw [created_seen s l htrack, hcam]
  have htracks : List.Forall₂
      (Alike (paired pairs (s.assignAll l.detections l.frameId)
        (s'.assignAll l.detections l.frameId)))
      (((s.assignAll l.detections l.frameId).existing.map Prod.fst ++
        (s.assignAll l.detections l.frameId).created).filter (ownTrack cam A))
      ((s'.assignAll l.detections l.frameId).existing.map Prod.fst ++
        (s'.assignAll l.detections l.frameId).created) := by
    rw [List.filter_append, filter_own_map, hcreated]
    apply List.rel_append _ hview.created
    rw [List.forall₂_map_left_iff, List.forall₂_map_right_iff]
    exact hview.existing.imp fun _ _ hlike => hlike.1
  simp only [update]
  rw [filter_own_lost, h.config]
  exact filter_lost_mirrors htracks s.config l.frameId

omit [CFloat F] in
/-- An entry that is not of the camera is replaced by one that is not either. -/
theorem filter_set_of_not {l : List (TrackedObject F × Bool)} {i : Nat}
    {p p' : TrackedObject F × Bool} (hget : l[i]? = some p) (hp : ownEntry cam A p = false)
    (hp' : ownEntry cam A p' = false) :
    (l.set i p').filter (ownEntry cam A) = l.filter (ownEntry cam A) := by
  induction l generalizing i with
  | nil => rfl
  | cons head rest ih =>
      cases i with
      | zero =>
          obtain rfl : head = p := Option.some_inj.mp hget
          rw [List.set_cons_zero, List.filter_cons_of_neg (by simp [hp']),
            List.filter_cons_of_neg (by simp [hp])]
      | succ i =>
          rw [List.set_cons_succ, List.filter_cons, List.filter_cons, ih hget]

/-- A frame of another camera leaves the tracks of the camera alone. -/
theorem foldl_other {config : Config F} {frameId : Nat} {m : Matching F}
    {detections : List (DetectionBox F)} (hcam : cam frameId ≠ A)
    (hown : OwnFrom cam config frameId m detections) :
    (detections.foldl (Matching.assign config frameId) m).existing.filter (ownEntry cam A) =
      m.existing.filter (ownEntry cam A) := by
  induction detections generalizing m with
  | nil => rfl
  | cons det rest ih =>
      rw [List.foldl_cons, ih hown.2]
      rcases Matching.assign_cases m config frameId det with
        ⟨hstart, -⟩ | ⟨best, hbest, hiou, hget, htake⟩
      · rw [hstart]
        rfl
      · rw [htake]
        apply filter_set_of_not hget
        · apply decide_eq_false
          rw [hown.1 best hbest hiou]
          exact hcam
        · exact decide_eq_false hcam

theorem Mirrors.update_other (h : Mirrors cam A pairs s s') (hcam : cam l.frameId ≠ A)
    (hl : OwnMatches cam s l) :
    Mirrors cam A pairs (s.update l.detections l.frameId).1 (s'.update [] l.frameId).1 := by
  have hnext := (s.assignAll_matched l.detections l.frameId).next
  refine ⟨h.config, ?_, ?_, h.oneToOne⟩
  · have hcreated : (s.assignAll l.detections l.frameId).created.filter (ownTrack cam A) = [] := by
      apply List.filter_eq_nil_iff.mpr
      intro track htrack
      rw [ownTrack, created_seen s l htrack]
      simp [hcam]
    have hexisting : ((s.assignAll l.detections l.frameId).existing.map Prod.fst).filter
        (ownTrack cam A) = s.tracks.filter (ownTrack cam A) := by
      rw [filter_own_map, assignAll, foldl_other hcam hl, ← filter_own_map, map_fst_matching]
    have htracks : List.Forall₂ (Alike pairs)
        (((s.assignAll l.detections l.frameId).existing.map Prod.fst ++
          (s.assignAll l.detections l.frameId).created).filter (ownTrack cam A))
        ((s'.assignAll [] l.frameId).existing.map Prod.fst ++
          (s'.assignAll [] l.frameId).created) := by
      have hempty : (s'.assignAll [] l.frameId).existing.map Prod.fst ++
          (s'.assignAll [] l.frameId).created = s'.tracks :=
        (List.append_nil _).trans s'.map_fst_matching
      rw [List.filter_append, hcreated, hexisting, List.append_nil, hempty]
      exact h.tracks
    simp only [update]
    rw [filter_own_lost, h.config]
    exact filter_lost_mirrors htracks s.config l.frameId
  · intro p hp
    exact ⟨(h.older p hp).1.trans_le hnext, (h.older p hp).2⟩

end

end TemporalTracker

/-! ## Runs -/

namespace updateSystem

open TemporalTracker

variable {F : Type} [CFloat F] {cam : Nat → Nat} {config : Config F}
  {t t' : List (TemporalTracker F × TrackerCall F)} {s s' : TemporalTracker F}

/-- What a call is when only the camera sees something. -/
def mask (cam : Nat → Nat) (A : Nat) (l : TrackerCall F) : TrackerCall F :=
  if cam l.frameId = A then l else ⟨[], l.frameId⟩

/-- The ids that the detections of the camera are given, in their order. -/
def idsOf (cam : Nat → Nat) (A : Nat) (t : List (TemporalTracker F × TrackerCall F)) : List Nat :=
  t.flatMap fun p =>
    if cam p.2.frameId = A then (p.1.update p.2.detections p.2.frameId).2 else []

/-- The same detections share an id. -/
def SameSharing (ids ids' : List Nat) : Prop :=
  ids.length = ids'.length ∧ OneToOne (ids.zip ids')

/-- The detections of each camera share ids as if the other cameras had seen nothing. -/
def Undisturbed (config : Config F) (cam : Nat → Nat)
    (t : List (TemporalTracker F × TrackerCall F)) : Prop :=
  ∀ A t' s', (updateSystem config).Run (.new config) t' s' →
    t'.map Prod.snd = (t.map Prod.snd).map (mask cam A) →
    SameSharing (idsOf cam A t) (idsOf cam A t')

theorem idsOf_snoc_own {A : Nat} {l : TrackerCall F} (hcam : cam l.frameId = A) :
    idsOf cam A (t ++ [(s, l)]) = idsOf cam A t ++ (s.update l.detections l.frameId).2 := by
  simp [idsOf, hcam]

theorem idsOf_snoc_other {A : Nat} {l : TrackerCall F} (hcam : cam l.frameId ≠ A) :
    idsOf cam A (t ++ [(s, l)]) = idsOf cam A t := by
  simp [idsOf, hcam]

/-- The tracker of all cameras mirrors that of one camera at every point of the runs. -/
theorem mirrors [LawfulCFloat F] {A : Nat} (hrun : (updateSystem config).Run (.new config) t s)
    (ht : TransitionSystem.Respects (OwnMatches cam) t)
    (hrun' : (updateSystem config).Run (.new config) t' s')
    (hlabels : t'.map Prod.snd = (t.map Prod.snd).map (mask cam A)) :
    (idsOf cam A t).length = (idsOf cam A t').length ∧
      Mirrors cam A ((idsOf cam A t).zip (idsOf cam A t')) s s' := by
  induction hrun generalizing t' s' with
  | nil =>
      cases hrun' with
      | nil => exact ⟨rfl, ⟨rfl, .nil, nofun, nofun⟩⟩
      | snoc => simp at hlabels
  | @snoc t s₁ s₂ l hrun hs ih =>
      rw [TransitionSystem.respects_snoc] at ht
      cases hrun' with
      | nil => simp at hlabels
      | @snoc t' s₁' s₂' l' hrun' hs' =>
          simp only [List.map_append, List.map_cons, List.map_nil] at hlabels
          obtain ⟨hinit, hlast⟩ := List.append_inj' hlabels rfl
          obtain rfl := List.singleton_inj.mp hlast
          obtain ⟨hlength, hmirrors⟩ := ih ht.1 hrun' hinit
          rw [update_of_step hs, update_of_step hs']
          by_cases hcam : cam l.frameId = A
          · have hmask : mask cam A l = l := if_pos hcam
            rw [hmask, idsOf_snoc_own hcam, idsOf_snoc_own hcam, List.zip_append hlength,
              List.length_append, List.length_append, hlength, update_length, update_length]
            exact ⟨rfl, hmirrors.update_own hcam ht.2⟩
          · have hmask : mask cam A l = ⟨[], l.frameId⟩ := if_neg hcam
            rw [hmask, idsOf_snoc_other hcam, idsOf_snoc_other (l := ⟨[], l.frameId⟩) hcam]
            exact ⟨hlength, hmirrors.update_other hcam ht.2⟩

theorem undisturbed [LawfulCFloat F] (hrun : (updateSystem config).Run (.new config) t s)
    (ht : TransitionSystem.Respects (OwnMatches cam) t) : Undisturbed config cam t := by
  intro A t' s' hrun' hlabels
  obtain ⟨hlength, hmirrors⟩ := mirrors hrun ht hrun' hlabels
  exact ⟨hlength, hmirrors.oneToOne⟩

end updateSystem
