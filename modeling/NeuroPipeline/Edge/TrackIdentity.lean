-- SUMMARY: The tracker against one that is told which object it sees: in a scene whose objects stay apart both give the same ids.
import NeuroPipeline.Edge.TrackerRuns

/-!
# Identity of tracks

An ideal tracker knows the objects of the scene, and gives each of them one id as long as it does
not lose it. The tracker has only the boxes.
-/

/-- An object of the scene with its id, and its last view. -/
structure KnownObject (O F : Type) where
  object : O
  trackId : Nat
  seen : Nat
  box : DetectionBox F

structure IdealTracker (O F : Type) where
  known : List (KnownObject O F) := []
  nextTrackId : Nat := 1

namespace IdealTracker

variable {O F : Type} [DecidableEq O]

/-- One view of an object. -/
def view (frameId : Nat) (s : IdealTracker O F × List Nat) (v : O × DetectionBox F) :
    IdealTracker O F × List Nat :=
  match s.1.known.find? fun k => k.object = v.1 with
  | some k =>
    ({ s.1 with known := s.1.known.map fun k =>
        if k.object = v.1 then { k with seen := frameId, box := v.2 } else k },
      s.2 ++ [k.trackId])
  | none =>
    ({ known := s.1.known ++ [⟨v.1, s.1.nextTrackId, frameId, v.2⟩]
       nextTrackId := s.1.nextTrackId + 1 },
      s.2 ++ [s.1.nextTrackId])

/-- The views of a frame; who has not been seen for too long is forgotten after it. -/
def update (maxLostFrames : Int) (s : IdealTracker O F) (views : List (O × DetectionBox F))
    (frameId : Nat) : IdealTracker O F × List Nat :=
  let r := views.foldl (view frameId) (s, [])
  ({ r.1 with known := r.1.known.filter fun k => (frameId : Int) - k.seen ≤ maxLostFrames }, r.2)

end IdealTracker

/-! ## Objects that stay apart -/

section

variable {O F : Type} [CFloat F]

def overlap (a b : DetectionBox F) : F :=
  intersectionOverUnion a.xMin a.yMin a.xMax a.yMax b.xMin b.yMin b.xMax b.yMax

/-- Every object is seen once in a frame, more than any other where it was, and a new one not
where a known one was. -/
structure Separated (threshold : F) (known : List (KnownObject O F))
    (views : List (O × DetectionBox F)) : Prop where
  distinct : (views.map Prod.fst).Nodup
  near : ∀ v ∈ views, ∀ k ∈ known, k.object = v.1 →
    CFloat.const 0 < overlap v.2 k.box ∧ threshold ≤ overlap v.2 k.box
  apart : ∀ v ∈ views, ∀ k ∈ known, k.object = v.1 → ∀ k' ∈ known, k'.object ≠ v.1 →
    CFloat.const 0 < overlap v.2 k'.box → overlap v.2 k'.box < overlap v.2 k.box
  new : ∀ v ∈ views, (∀ k ∈ known, k.object ≠ v.1) → ∀ k ∈ known,
    CFloat.const 0 < overlap v.2 k.box → ¬ threshold ≤ overlap v.2 k.box

variable [DecidableEq O]

instance (threshold : F) (known : List (KnownObject O F)) (views : List (O × DetectionBox F)) :
    Decidable (Separated threshold known views) :=
  decidable_of_iff
    ((views.map Prod.fst).Nodup ∧
      (∀ v ∈ views, ∀ k ∈ known, k.object = v.1 →
        CFloat.const 0 < overlap v.2 k.box ∧ threshold ≤ overlap v.2 k.box) ∧
      (∀ v ∈ views, ∀ k ∈ known, k.object = v.1 → ∀ k' ∈ known, k'.object ≠ v.1 →
        CFloat.const 0 < overlap v.2 k'.box → overlap v.2 k'.box < overlap v.2 k.box) ∧
      ∀ v ∈ views, (∀ k ∈ known, k.object ≠ v.1) → ∀ k ∈ known,
        CFloat.const 0 < overlap v.2 k.box → ¬ threshold ≤ overlap v.2 k.box)
    ⟨fun ⟨hd, hn, ha, he⟩ => ⟨hd, hn, ha, he⟩, fun h => ⟨h.distinct, h.near, h.apart, h.new⟩⟩

end

/-! ## Lists that correspond -/

section

variable {α β : Type} {R S : α → β → Prop} {a b : List α} {l : List β} {x : α}

theorem forall₂_mono (h : List.Forall₂ R a l) (hmono : ∀ x ∈ a, ∀ y, R x y → S x y) :
    List.Forall₂ S a l := by
  induction h with
  | nil => exact .nil
  | cons hxy _ ih =>
      obtain ⟨hx, hrest⟩ := List.forall_mem_cons.mp hmono
      exact .cons (hx _ hxy) (ih hrest)

theorem forall₂_split (h : List.Forall₂ R (a ++ x :: b) l) :
    ∃ a' y b', l = a' ++ y :: b' ∧ List.Forall₂ R a a' ∧ R x y ∧ List.Forall₂ R b b' := by
  induction a generalizing l with
  | nil =>
      obtain ⟨y, b', hxy, hb, rfl⟩ := List.forall₂_cons_left_iff.mp h
      exact ⟨[], y, b', rfl, .nil, hxy, hb⟩
  | cons z a ih =>
      obtain ⟨w, l', hzw, hrest, rfl⟩ := List.forall₂_cons_left_iff.mp h
      obtain ⟨a', y, b', rfl, ha, hxy, hb⟩ := ih hrest
      exact ⟨w :: a', y, b', rfl, .cons hzw ha, hxy, hb⟩

theorem forall₂_exists_left (h : List.Forall₂ R a l) {y : β} (hy : y ∈ l) : ∃ x ∈ a, R x y := by
  induction h with
  | nil => cases hy
  | cons hxy _ ih =>
      rcases List.mem_cons.mp hy with rfl | hy
      · exact ⟨_, List.mem_cons_self, hxy⟩
      · obtain ⟨x, hx, hR⟩ := ih hy
        exact ⟨x, List.mem_cons_of_mem _ hx, hR⟩

end

namespace TemporalTracker

open CFloat (const)

/-! ## The best match -/

variable {F : Type} [CFloat F] [LawfulCFloat F] {det : DetectionBox F}

theorem bestMatch_iou {l : List (TrackedObject F × Bool)} {t : Nat} {best : Option (Candidate F)}
    {c : Candidate F} (h : bestMatch det l t best = some c)
    (hbest : ∀ b ∈ best, const 0 < b.iou) :
    best = some c ∨ c.iou = computeIoU det c.track ∧ const 0 < c.iou ∧ (c.track, false) ∈ l := by
  induction l generalizing t best with
  | nil => exact .inl h
  | cons head rest ih =>
      obtain ⟨track, matched⟩ := head
      rw [bestMatch] at h
      split at h
      · next hbetter =>
          obtain ⟨hfree, hlt⟩ := Bool.and_eq_true_iff.mp hbetter
          have hlt := of_decide_eq_true hlt
          have hpos : const 0 < computeIoU det track := by
            cases best with
            | none => exact hlt
            | some b => exact LawfulCFloat.lt_trans (hbest b rfl) hlt
          rcases ih h (fun b hb => by obtain rfl := Option.some_inj.mp hb; exact hpos) with hc | hc
          · obtain rfl := Option.some_inj.mp hc
            have hmatched : matched = false := by simpa using hfree
            exact .inr ⟨rfl, hpos, by simp [hmatched]⟩
          · exact .inr ⟨hc.1, hc.2.1, List.mem_cons_of_mem _ hc.2.2⟩
      · rcases ih h hbest with hc | hc
        · exact .inl hc
        · exact .inr ⟨hc.1, hc.2.1, List.mem_cons_of_mem _ hc.2.2⟩

omit [LawfulCFloat F] in
/-- Nothing that is free is better. -/
theorem bestMatch_keep {l : List (TrackedObject F × Bool)} {t : Nat} {c : Candidate F}
    (h : ∀ track, (track, false) ∈ l → ¬ c.iou < computeIoU det track) :
    bestMatch det l t (some c) = some c := by
  induction l generalizing t with
  | nil => rfl
  | cons head rest ih =>
      obtain ⟨track, matched⟩ := head
      have hrest := @ih (t + 1) fun track' htrack' => h track' (List.mem_cons_of_mem _ htrack')
      rw [bestMatch]
      split
      · next hbetter =>
          obtain ⟨hfree, hlt⟩ := Bool.and_eq_true_iff.mp hbetter
          have hmatched : matched = false := by simpa using hfree
          exact absurd (of_decide_eq_true hlt) (h track (by simp [hmatched]))
      · exact hrest

/-- A free track that overlaps more than every other one is the best match. -/
theorem bestMatch_own {before after : List (TrackedObject F × Bool)} {own : TrackedObject F} {t : Nat}
    {best : Option (Candidate F)} (hown : const 0 < computeIoU det own)
    (hbest : ∀ b ∈ best, const 0 < b.iou ∧ b.iou < computeIoU det own)
    (h : ∀ track, (track, false) ∈ before ++ after → const 0 < computeIoU det track →
      computeIoU det track < computeIoU det own) :
    bestMatch det (before ++ (own, false) :: after) t best =
      some ⟨t + before.length, own, computeIoU det own⟩ := by
  induction before generalizing t best with
  | nil =>
      have hlt : best.elim (const 0) Candidate.iou < computeIoU det own := by
        cases best with
        | none => exact hown
        | some b => exact (hbest b rfl).2
      rw [List.nil_append, bestMatch]
      simp only [Bool.not_false, Bool.true_and, hlt, decide_true, if_true]
      refine bestMatch_keep fun track htrack hbetter => ?_
      have hpos := LawfulCFloat.lt_trans hown hbetter
      exact LawfulCFloat.not_le_of_lt hbetter (LawfulCFloat.le_of_lt (h track htrack hpos))
  | cons head before ih =>
      obtain ⟨track, matched⟩ := head
      have hlater : ∀ track, (track, false) ∈ before ++ after → const 0 < computeIoU det track →
          computeIoU det track < computeIoU det own :=
        fun track' htrack' => h track' (List.mem_cons_of_mem _ htrack')
      have hlength : t + 1 + before.length = t + (before.length + 1) := by omega
      rw [List.cons_append, bestMatch, List.length_cons, ← hlength]
      split
      · next hbetter =>
          obtain ⟨hfree, hlt⟩ := Bool.and_eq_true_iff.mp hbetter
          have hmatched : matched = false := by simpa using hfree
          have hlt := of_decide_eq_true hlt
          have hpos : const 0 < computeIoU det track := by
            cases best with
            | none => exact hlt
            | some b => exact LawfulCFloat.lt_trans (hbest b rfl).1 hlt
          refine ih (fun b hb => ?_) hlater
          obtain rfl := Option.some_inj.mp hb
          exact ⟨hpos, h track (by simp [hmatched]) hpos⟩
      · exact ih hbest hlater

/-! ## One frame -/

variable {O : Type} {s : IdealTracker O F} {k : KnownObject O F} {track : TrackedObject F}
  {frameId : Nat}

/-- The track of an object. -/
structure Stands (k : KnownObject O F) (track : TrackedObject F) : Prop where
  trackId : track.trackId = k.trackId
  seen : track.lastSeenFrame = k.seen
  box : (track.xMin, track.yMin, track.xMax, track.yMax) =
    (k.box.xMin, k.box.yMin, k.box.xMax, k.box.yMax)

omit [LawfulCFloat F] in
theorem Stands.overlap (h : Stands k track) (det : DetectionBox F) :
    computeIoU det track = overlap det k.box := by
  have hbox := h.box
  simp only [Prod.mk.injEq] at hbox
  obtain ⟨hx, hy, hx', hy'⟩ := hbox
  rw [computeIoU, hx, hy, hx', hy']
  rfl

/-- The two loops over the views, of which `done` are over: `known` is what was known before. -/
structure Aligned (frameId : Nat) (known : List (KnownObject O F)) (done : List O)
    (s : IdealTracker O F × List Nat) (m : Matching F) : Prop where
  parts : ∃ old new, s.1.known = old ++ new ∧
    List.Forall₂ (fun k p => Stands k p.1 ∧ (p.2 = true ↔ k.object ∈ done)) old m.existing ∧
    List.Forall₂ Stands new m.created ∧ (∀ k ∈ new, k.object ∈ done) ∧
    (∀ k ∈ old, k.object ∉ done → k ∈ known)
  kept : ∀ k ∈ known, k.object ∉ done → k ∈ s.1.known
  current : ∀ k ∈ s.1.known, k ∈ known ∨ k.seen = frameId
  objects : (s.1.known.map KnownObject.object).Nodup
  next : m.nextTrackId = s.1.nextTrackId
  ids : m.assignedIds = s.2

namespace Aligned

variable {known : List (KnownObject O F)} {done : List O} {s : IdealTracker O F × List Nat}
  {m : Matching F} {v : O × DetectionBox F} {config : Config F} {views : List (O × DetectionBox F)}

omit [CFloat F] [LawfulCFloat F] in
/-- What the two loops know of an object that is not over yet, and of the others. -/
theorem split (h : Aligned frameId known done s m) {k : KnownObject O F} (hk : k ∈ s.1.known)
    (hdone : k.object ∉ done) :
    ∃ before after new before' own after', s.1.known = (before ++ k :: after) ++ new ∧
      m.existing = before' ++ (own, false) :: after' ∧ Stands k own ∧
      List.Forall₂ (fun k p => Stands k p.1 ∧ (p.2 = true ↔ k.object ∈ done)) before before' ∧
      List.Forall₂ (fun k p => Stands k p.1 ∧ (p.2 = true ↔ k.object ∈ done)) after after' ∧
      List.Forall₂ Stands new m.created ∧ (∀ k ∈ new, k.object ∈ done) ∧
      (∀ k' ∈ before ++ k :: after, k'.object ∉ done → k' ∈ known) ∧
      ∀ k' ∈ before ++ after, k'.object ≠ k.object := by
  obtain ⟨old, new, hknown, hold, hnew, hnewdone, hfree⟩ := h.parts
  have hkold : k ∈ old := by
    rcases List.mem_append.mp (hknown ▸ hk) with hk | hk
    · exact hk
    · exact absurd (hnewdone k hk) hdone
  obtain ⟨before, after, rfl⟩ := List.append_of_mem hkold
  obtain ⟨before', ⟨own, taken⟩, after', hexisting, hbefore, ⟨hstands, htaken⟩, hafter⟩ :=
    forall₂_split hold
  obtain rfl : taken = false := by
    by_contra htrue
    exact hdone (htaken.mp (by simpa using htrue))
  have hobjects := h.objects
  rw [hknown, List.map_append, List.map_append, List.map_cons] at hobjects
  have hrest := (List.nodup_middle.mp (List.nodup_append.mp hobjects).1)
  refine ⟨before, after, new, before', own, after', hknown, hexisting, hstands, hbefore, hafter,
    hnew, hnewdone, hfree, fun k' hk' heq => (List.nodup_cons.mp hrest).1 ?_⟩
  rw [← List.map_append]
  exact List.mem_map.mpr ⟨k', hk', heq⟩

/-- In a scene of separate objects the best match is the track of the object. -/
theorem bestMatch_eq {before after : List (KnownObject O F)}
    {before' after' : List (TrackedObject F × Bool)} {k : KnownObject O F} {own : TrackedObject F}
    {threshold : F} (hsep : Separated threshold known views) (hv : v ∈ views) (hk : k ∈ known)
    (hobject : k.object = v.1) (hstands : Stands k own)
    (hbefore : List.Forall₂ (fun k p => Stands k p.1 ∧ (p.2 = true ↔ k.object ∈ done)) before before')
    (hafter : List.Forall₂ (fun k p => Stands k p.1 ∧ (p.2 = true ↔ k.object ∈ done)) after after')
    (hfree : ∀ k' ∈ before ++ after, k'.object ∉ done → k' ∈ known)
    (hne : ∀ k' ∈ before ++ after, k'.object ≠ k.object) :
    bestMatch v.2 (before' ++ (own, false) :: after') 0 none =
      some ⟨before'.length, own, overlap v.2 k.box⟩ := by
  rw [← hstands.overlap, ← Nat.zero_add before'.length]
  refine bestMatch_own ?_ (by simp) fun track htrack hiou => ?_
  · rw [hstands.overlap]
    exact (hsep.near v hv k hk hobject).1
  · obtain ⟨k', hk', hstands', htaken⟩ :=
      forall₂_exists_left (List.rel_append hbefore hafter) htrack
    have hin : k' ∈ known := hfree k' hk' (by simpa using htaken)
    rw [hstands'.overlap] at hiou ⊢
    rw [hstands.overlap]
    exact hsep.apart v hv k hk hobject k' hin (hobject ▸ hne k' hk') hiou

/-- A new object is seen. -/
theorem start (h : Aligned frameId known done s m) (hsep : Separated config.iouThreshold known views)
    (hv : v ∈ views) (hdone : v.1 ∉ done) (hnone : ∀ k ∈ s.1.known, k.object ≠ v.1) :
    Aligned frameId known (done ++ [v.1])
      ({ known := s.1.known ++ [⟨v.1, s.1.nextTrackId, frameId, v.2⟩]
         nextTrackId := s.1.nextTrackId + 1 }, s.2 ++ [s.1.nextTrackId])
      (m.assign config frameId v.2) := by
  obtain ⟨old, new, hknown, hold, hnew, hnewdone, hfree⟩ := h.parts
  have hassign : m.assign config frameId v.2 = m.start frameId v.2 := by
    rw [Matching.assign]
    split
    · next best hbest =>
        rcases bestMatch_iou hbest (by simp) with hnone | ⟨hiou, hpos, hmem⟩
        · cases hnone
        · obtain ⟨k, hk, hstands, htaken⟩ := forall₂_exists_left hold hmem
          have hkdone : k.object ∉ done := fun hin => by simpa using htaken.mpr hin
          rw [hstands.overlap] at hiou
          rw [hiou] at hpos ⊢
          have hunknown : ∀ k ∈ known, k.object ≠ v.1 := fun k hk heq =>
            hnone k (h.kept k hk (heq ▸ hdone)) heq
          exact if_neg (hsep.new v hv hunknown k (hfree k hk hkdone) hpos)
    · rfl
  rw [hassign]
  refine ⟨⟨old, new ++ [⟨v.1, s.1.nextTrackId, frameId, v.2⟩], ?_, ?_, ?_, ?_, ?_⟩,
    fun k hk hnot => ?_, fun k hk => ?_, ?_, ?_, ?_⟩
  · rw [hknown, List.append_assoc]
  · refine forall₂_mono hold fun k hk p hp => ⟨hp.1, ?_⟩
    have hne := hnone k (hknown ▸ List.mem_append_left _ hk)
    rw [hp.2, List.mem_append, List.mem_singleton, or_iff_left hne]
  · exact List.rel_append hnew (.cons ⟨h.next, rfl, rfl⟩ .nil)
  · intro k hk
    rcases List.mem_append.mp hk with hk | hk
    · exact List.mem_append_left _ (hnewdone k hk)
    · obtain rfl := List.mem_singleton.mp hk
      exact List.mem_append_right _ (List.mem_singleton_self _)
  · exact fun k hk hnot => hfree k hk fun hin => hnot (List.mem_append_left _ hin)
  · exact List.mem_append_left _ (h.kept k hk fun hin => hnot (List.mem_append_left _ hin))
  · rcases List.mem_append.mp hk with hk | hk
    · exact h.current k hk
    · obtain rfl := List.mem_singleton.mp hk
      exact .inr rfl
  · rw [List.map_append]
    refine List.nodup_append.mpr ⟨h.objects, by simp, fun o ho o' ho' heq => ?_⟩
    obtain ⟨k, hk, rfl⟩ := List.mem_map.mp ho
    exact hnone k hk (heq.trans (List.mem_singleton.mp ho'))
  · simp [Matching.start, h.next]
  · simp [Matching.start, h.next, h.ids]

variable [DecidableEq O]

/-- A known object is seen. -/
theorem take (h : Aligned frameId known done s m) (hsep : Separated config.iouThreshold known views)
    (hv : v ∈ views) (hdone : v.1 ∉ done) {k : KnownObject O F} (hk : k ∈ s.1.known)
    (hobject : k.object = v.1) :
    Aligned frameId known (done ++ [v.1])
      ({ s.1 with known := s.1.known.map fun k =>
          if k.object = v.1 then { k with seen := frameId, box := v.2 } else k },
        s.2 ++ [k.trackId])
      (m.assign config frameId v.2) := by
  obtain ⟨before, after, new, before', own, after', hknown, hexisting, hstands, hbefore, hafter, hnew,
    hnewdone, hfree, hne⟩ := h.split hk (hobject ▸ hdone)
  have hkin : k ∈ known := hfree k (List.mem_append_right _ List.mem_cons_self) (hobject ▸ hdone)
  have hsub : ∀ k' ∈ before ++ after, k' ∈ before ++ k :: after := fun k' hk' =>
    (List.Sublist.append_left (List.sublist_cons_self k after) before).subset hk'
  have hbest : bestMatch v.2 m.existing 0 none =
      some ⟨before'.length, own, overlap v.2 k.box⟩ :=
    hexisting ▸ bestMatch_eq hsep hv hkin hobject hstands hbefore hafter
      (fun k' hk' => hfree k' (hsub k' hk')) hne
  have hassign : m.assign config frameId v.2 =
      m.take config frameId v.2 ⟨before'.length, own, overlap v.2 k.box⟩ := by
    rw [Matching.assign, hbest]
    exact if_pos (hsep.near v hv k hkin hobject).2
  have hset : m.existing.set before'.length (observe config frameId v.2 own, true) =
      before' ++ (observe config frameId v.2 own, true) :: after' := by
    rw [hexisting, List.set_append_right _ _ (Nat.le_refl _), Nat.sub_self, List.set_cons_zero]
  have hsame : ∀ l : List (KnownObject O F), (∀ k' ∈ l, k'.object ≠ v.1) →
      (l.map fun k => if k.object = v.1 then { k with seen := frameId, box := v.2 } else k) = l := by
    intro l hl
    exact (List.map_congr_left fun k' hk' => if_neg (hl k' hk')).trans (List.map_id l)
  have hmap : (s.1.known.map fun k =>
      if k.object = v.1 then { k with seen := frameId, box := v.2 } else k) =
        (before ++ { k with seen := frameId, box := v.2 } :: after) ++ new := by
    rw [hknown, List.map_append, List.map_append, List.map_cons, hsame before fun k' hk' =>
      hobject ▸ hne k' (List.mem_append_left _ hk'), hsame after fun k' hk' =>
      hobject ▸ hne k' (List.mem_append_right _ hk'), hsame new fun k' hk' heq =>
      hdone (heq ▸ hnewdone k' hk'), if_pos hobject]
  have hstill : ∀ {l : List (KnownObject O F)} {l' : List (TrackedObject F × Bool)},
      (∀ k' ∈ l, k'.object ≠ k.object) →
      List.Forall₂ (fun k p => Stands k p.1 ∧ (p.2 = true ↔ k.object ∈ done)) l l' →
        List.Forall₂ (fun k p => Stands k p.1 ∧ (p.2 = true ↔ k.object ∈ done ++ [v.1])) l l' := by
    intro l l' hl hR
    refine forall₂_mono hR fun k' hk' p hp => ⟨hp.1, ?_⟩
    rw [hp.2, List.mem_append, List.mem_singleton, or_iff_left (hobject ▸ hl k' hk')]
  rw [hassign]
  refine ⟨⟨_, _, hmap, ?_, hnew, fun k' hk' => List.mem_append_left _ (hnewdone k' hk'), ?_⟩,
    fun k' hk' hnot => ?_, fun k' hk' => ?_, ?_, h.next, ?_⟩
  · rw [Matching.take]
    dsimp only
    rw [hset]
    refine List.rel_append (hstill (fun k' hk' => hne k' (List.mem_append_left _ hk')) hbefore)
      (.cons ⟨⟨hstands.trackId, rfl, rfl⟩, ?_⟩
        (hstill (fun k' hk' => hne k' (List.mem_append_right _ hk')) hafter))
    simp [hobject]
  · intro k' hk' hnot
    have hnot' : k'.object ∉ done := fun hin => hnot (List.mem_append_left _ hin)
    rcases List.mem_append.mp hk' with hk' | hk'
    · exact hfree k' (List.mem_append_left _ hk') hnot'
    · rcases List.mem_cons.mp hk' with rfl | hk'
      · exact absurd (List.mem_append_right _ (by simp [hobject])) hnot
      · exact hfree k' (List.mem_append_right _ (List.mem_cons_of_mem _ hk')) hnot'
  · have hk'ne : k'.object ≠ v.1 := fun heq => hnot (List.mem_append_right _ (by simp [heq]))
    exact List.mem_map.mpr ⟨k', h.kept k' hk' fun hin => hnot (List.mem_append_left _ hin),
      if_neg hk'ne⟩
  · obtain ⟨k'', hk'', rfl⟩ := List.mem_map.mp hk'
    split
    · exact .inr rfl
    · exact h.current k'' hk''
  · have hobjects : ∀ k : KnownObject O F,
        (if k.object = v.1 then { k with seen := frameId, box := v.2 } else k).object =
          k.object := by
      intro k
      split <;> rfl
    rw [List.map_map]
    exact (congrArg List.Nodup (List.map_congr_left fun k _ => hobjects k)).mpr h.objects
  · simp [Matching.take, h.ids, hstands.trackId.symm]

theorem view (h : Aligned frameId known done s m) (hsep : Separated config.iouThreshold known views)
    (hv : v ∈ views) (hdone : v.1 ∉ done) :
    Aligned frameId known (done ++ [v.1]) (IdealTracker.view frameId s v) (m.assign config frameId v.2) := by
  rw [IdealTracker.view]
  split
  · next k hk =>
      have hobject : k.object = v.1 := by simpa using List.find?_some hk
      exact h.take hsep hv hdone (List.mem_of_find?_eq_some hk) hobject
  · next hnone =>
      exact h.start hsep hv hdone fun k hk => by simpa using List.find?_eq_none.mp hnone k hk

theorem foldl (h : Aligned frameId known done s m) (hsep : Separated config.iouThreshold known views)
    {rest : List (O × DetectionBox F)} (hrest : rest ⊆ views)
    (hnodup : (done ++ rest.map Prod.fst).Nodup) :
    Aligned frameId known (done ++ rest.map Prod.fst) (rest.foldl (IdealTracker.view frameId) s)
      ((rest.map Prod.snd).foldl (Matching.assign config frameId) m) := by
  induction rest generalizing done s m with
  | nil => simpa using h
  | cons v rest ih =>
      have happend : done ++ (v :: rest).map Prod.fst = (done ++ [v.1]) ++ rest.map Prod.fst := by
        simp
      rw [happend] at hnodup ⊢
      have hdone : v.1 ∉ done := fun hin =>
        (List.nodup_append.mp (List.nodup_append.mp hnodup).1).2.2 _ hin _
          (List.mem_singleton_self _) rfl
      exact ih (h.view hsep (hrest List.mem_cons_self) hdone)
        (fun w hw => hrest (List.mem_cons_of_mem _ hw)) hnodup

end Aligned

/-- The tracker has one track for each object that is known. -/
structure Simulates (s : IdealTracker O F) (t : TemporalTracker F) : Prop where
  stands : List.Forall₂ Stands s.known t.tracks
  next : t.nextTrackId = s.nextTrackId
  objects : (s.known.map KnownObject.object).Nodup

omit [LawfulCFloat F] in
theorem Simulates.aligned {t : TemporalTracker F} (h : Simulates s t) :
    Aligned frameId s.known [] (s, []) t.matching where
  parts := by
    refine ⟨s.known, [], by simp, ?_, .nil, by simp, fun k hk _ => hk⟩
    rw [matching]
    exact List.forall₂_map_right_iff.mpr (h.stands.imp fun k track hk => ⟨hk, by simp⟩)
  kept k hk _ := hk
  current k hk := .inl hk
  objects := h.objects
  next := h.next
  ids := rfl

variable [DecidableEq O]

/-- A frame of separate objects: the same ids, and a track again for each object. -/
theorem Simulates.update {t : TemporalTracker F} (h : Simulates s t)
    {views : List (O × DetectionBox F)} {maxLostFrames : Int}
    (hsep : Separated t.config.iouThreshold s.known views)
    (hlost : ∀ k : KnownObject O F, (k ∈ s.known ∨ k.seen = frameId) → ∀ track, Stands k track →
      (lost t.config frameId track = true ↔ maxLostFrames < (frameId : Int) - k.seen)) :
    (t.update (views.map Prod.snd) frameId).2 = (s.update maxLostFrames views frameId).2 ∧
      Simulates (s.update maxLostFrames views frameId).1
        (t.update (views.map Prod.snd) frameId).1 := by
  have hstart : Aligned frameId s.known [] (s, []) t.matching := h.aligned
  have hafter := hstart.foldl hsep (List.Subset.refl views) hsep.distinct
  obtain ⟨old, new, hknown, hold, hnew, -, -⟩ := hafter.parts
  have hstands : List.Forall₂ Stands (old ++ new)
      ((t.assignAll (views.map Prod.snd) frameId).existing.map Prod.fst ++
        (t.assignAll (views.map Prod.snd) frameId).created) :=
    List.rel_append (List.forall₂_map_right_iff.mpr (hold.imp fun _ _ hp => hp.1)) hnew
  refine ⟨hafter.ids, ?_, hafter.next, hafter.objects.sublist (List.filter_sublist.map _)⟩
  have hboth := forall₂_mono (S := fun k track => Stands k track ∧
    (lost t.config frameId track = true ↔ maxLostFrames < (frameId : Int) - k.seen)) hstands
    fun k hk track hR => ⟨hR, hlost k (hafter.current k (hknown ▸ hk)) track hR⟩
  rw [IdealTracker.update, TemporalTracker.update]
  dsimp only
  rw [hknown]
  refine (List.rel_filter (fun k track hR => ?_) hboth).imp fun _ _ hR => hR.1
  simp only [Bool.not_eq_true', decide_eq_true_eq]
  rw [← not_iff_not, Bool.not_eq_false, hR.2, Int.not_le]

end TemporalTracker

/-! ## What the ideal tracker guarantees -/

namespace IdealTracker

variable {O F : Type} {s : IdealTracker O F} {named : List (Nat × O)}

/-- No id is of two objects; `named` are the ids that were given. -/
structure Identified (s : IdealTracker O F) (named : List (Nat × O)) : Prop where
  ids : (s.known.map KnownObject.trackId).Nodup
  fresh : ∀ k ∈ s.known, k.trackId < s.nextTrackId
  used : ∀ p ∈ named, p.1 < s.nextTrackId
  owner : ∀ k ∈ s.known, ∀ o, (k.trackId, o) ∈ named → o = k.object
  one : ∀ i o o', (i, o) ∈ named → (i, o') ∈ named → o = o'

theorem identified_new : Identified ({} : IdealTracker O F) [] := by
  constructor <;> simp

theorem Identified.forget (h : Identified s named) (p : KnownObject O F → Bool) :
    Identified { s with known := s.known.filter p } named where
  ids := h.ids.sublist (List.filter_sublist.map _)
  fresh k hk := h.fresh k (List.mem_of_mem_filter hk)
  used := h.used
  owner k hk := h.owner k (List.mem_of_mem_filter hk)
  one := h.one

theorem mem_snoc_of_one {i : Nat} {o : O} (hone : ∀ i o o', (i, o) ∈ named → (i, o') ∈ named → o = o')
    (hnew : ∀ o', (i, o') ∈ named → o' = o) {j : Nat} {o₁ o₂ : O}
    (h₁ : (j, o₁) ∈ named ++ [(i, o)]) (h₂ : (j, o₂) ∈ named ++ [(i, o)]) : o₁ = o₂ := by
  simp only [List.mem_append, List.mem_singleton, Prod.mk.injEq] at h₁ h₂
  rcases h₁ with h₁ | ⟨rfl, rfl⟩ <;> rcases h₂ with h₂ | ⟨hj, rfl⟩
  · exact hone j _ _ h₁ h₂
  · exact hnew _ (hj ▸ h₁)
  · exact (hnew _ h₂).symm
  · rfl

/-- A known object is given its id again. -/
theorem Identified.seen [DecidableEq O] (h : Identified s named) {k : KnownObject O F}
    (hk : k ∈ s.known) {o : O} (hobject : k.object = o) (frameId : Nat) (box : DetectionBox F) :
    Identified { s with known := s.known.map fun k =>
        if k.object = o then { k with seen := frameId, box := box } else k }
      (named ++ [(k.trackId, o)]) := by
  have hsame : ∀ k' ∈ s.known.map fun k : KnownObject O F =>
      if k.object = o then { k with seen := frameId, box := box } else k,
        ∃ k'' ∈ s.known, k'.trackId = k''.trackId ∧ k'.object = k''.object := by
    intro k' hk'
    obtain ⟨k'', hk'', rfl⟩ := List.mem_map.mp hk'
    refine ⟨k'', hk'', ?_⟩
    split <;> exact ⟨rfl, rfl⟩
  refine ⟨?_, fun k' hk' => ?_, fun p hp => ?_, fun k' hk' o' ho' => ?_, fun i o₁ o₂ => ?_⟩
  · have hids : ∀ k : KnownObject O F,
        (if k.object = o then { k with seen := frameId, box := box } else k).trackId =
          k.trackId := by
      intro k
      split <;> rfl
    rw [List.map_map]
    exact (congrArg List.Nodup (List.map_congr_left fun k _ => hids k)).mpr h.ids
  · obtain ⟨k'', hk'', hid, -⟩ := hsame k' hk'
    exact hid ▸ h.fresh k'' hk''
  · rcases List.mem_append.mp hp with hp | hp
    · exact h.used p hp
    · obtain rfl := List.mem_singleton.mp hp
      exact h.fresh k hk
  · obtain ⟨k'', hk'', hid, hobject'⟩ := hsame k' hk'
    rw [hobject']
    rcases List.mem_append.mp ho' with ho' | ho'
    · exact h.owner k'' hk'' o' (hid ▸ ho')
    · obtain ⟨hid', rfl⟩ := Prod.mk.inj (List.mem_singleton.mp ho')
      rw [← List.inj_on_of_nodup_map h.ids hk hk'' (hid'.symm.trans hid), hobject]
  · exact mem_snoc_of_one h.one fun o' ho' => (h.owner k hk o' ho').trans hobject

/-- A new object is given an id that nobody has had. -/
theorem Identified.appears (h : Identified s named) (o : O) (frameId : Nat) (box : DetectionBox F) :
    Identified
      { known := s.known ++ [⟨o, s.nextTrackId, frameId, box⟩], nextTrackId := s.nextTrackId + 1 }
      (named ++ [(s.nextTrackId, o)]) := by
  have hunused : ∀ o', (s.nextTrackId, o') ∉ named := fun o' ho' => Nat.lt_irrefl _ (h.used _ ho')
  refine ⟨?_, fun k hk => ?_, fun p hp => ?_, fun k hk o' ho' => ?_, fun i o₁ o₂ => ?_⟩
  · rw [List.map_append]
    refine List.nodup_append.mpr ⟨h.ids, by simp, fun i hi j hj heq => ?_⟩
    obtain ⟨k, hk, rfl⟩ := List.mem_map.mp hi
    exact Nat.ne_of_lt (h.fresh k hk) (heq.trans (List.mem_singleton.mp hj))
  · rcases List.mem_append.mp hk with hk | hk
    · exact Nat.lt_succ_of_lt (h.fresh k hk)
    · obtain rfl := List.mem_singleton.mp hk
      exact Nat.lt_succ_self _
  · rcases List.mem_append.mp hp with hp | hp
    · exact Nat.lt_succ_of_lt (h.used p hp)
    · obtain rfl := List.mem_singleton.mp hp
      exact Nat.lt_succ_self _
  · rcases List.mem_append.mp hk with hk | hk <;> rcases List.mem_append.mp ho' with ho' | ho'
    · exact h.owner k hk o' ho'
    · exact absurd (Prod.mk.inj (List.mem_singleton.mp ho')).1 (Nat.ne_of_lt (h.fresh k hk))
    · obtain rfl := List.mem_singleton.mp hk
      exact absurd ho' (hunused o')
    · obtain rfl := List.mem_singleton.mp hk
      exact (Prod.mk.inj (List.mem_singleton.mp ho')).2
  · exact mem_snoc_of_one h.one fun o' ho' => absurd ho' (hunused o')

variable [DecidableEq O]

theorem Identified.view (h : Identified s named) (frameId : Nat) (ids : List Nat)
    (v : O × DetectionBox F) :
    ∃ i, (IdealTracker.view frameId (s, ids) v).2 = ids ++ [i] ∧
      Identified (IdealTracker.view frameId (s, ids) v).1 (named ++ [(i, v.1)]) := by
  rw [IdealTracker.view]
  split
  · next k hfind =>
      have hobject : k.object = v.1 := by simpa using List.find?_some hfind
      exact ⟨k.trackId, rfl, h.seen (List.mem_of_find?_eq_some hfind) hobject frameId v.2⟩
  · exact ⟨s.nextTrackId, rfl, h.appears v.1 frameId v.2⟩

theorem Identified.foldl (h : Identified s named) (frameId : Nat) (ids : List Nat)
    (views : List (O × DetectionBox F)) :
    ∃ new, (views.foldl (IdealTracker.view frameId) (s, ids)).2 = ids ++ new ∧
      Identified (views.foldl (IdealTracker.view frameId) (s, ids)).1
        (named ++ new.zip (views.map Prod.fst)) := by
  induction views generalizing s named ids with
  | nil => exact ⟨[], by simp, by simpa using h⟩
  | cons v views ih =>
      obtain ⟨i, hids, hview⟩ := h.view frameId ids v
      obtain ⟨new, hrest, hnamed⟩ := ih hview (IdealTracker.view frameId (s, ids) v).2
      refine ⟨i :: new, ?_, ?_⟩
      · rw [List.foldl_cons, hrest, hids, List.append_assoc, List.singleton_append]
      · rwa [List.append_assoc] at hnamed

theorem Identified.update (h : Identified s named) (maxLostFrames : Int)
    (views : List (O × DetectionBox F)) (frameId : Nat) :
    Identified (s.update maxLostFrames views frameId).1
      (named ++ (s.update maxLostFrames views frameId).2.zip (views.map Prod.fst)) := by
  obtain ⟨new, hids, hnamed⟩ := h.foldl frameId [] views
  rw [List.nil_append] at hids
  rw [IdealTracker.update]
  dsimp only
  rw [hids]
  exact hnamed.forget _

/-- Whoever is known was seen not too long ago. -/
theorem mem_update {maxLostFrames : Int} {views : List (O × DetectionBox F)} {frameId : Nat}
    {k : KnownObject O F} (hk : k ∈ (s.update maxLostFrames views frameId).1.known) :
    (frameId : Int) - k.seen ≤ maxLostFrames := by
  simpa using List.of_mem_filter hk

theorem seen_view {frameId : Nat} {ids : List Nat} {v : O × DetectionBox F}
    (h : ∀ k ∈ s.known, k.seen ≤ frameId) :
    ∀ k ∈ (IdealTracker.view frameId (s, ids) v).1.known, k.seen ≤ frameId := by
  intro k hk
  rw [IdealTracker.view] at hk
  split at hk
  · obtain ⟨k', hk', rfl⟩ := List.mem_map.mp hk
    split
    · exact Nat.le_refl _
    · exact h k' hk'
  · rcases List.mem_append.mp hk with hk | hk
    · exact h k hk
    · obtain rfl := List.mem_singleton.mp hk
      exact Nat.le_refl _

theorem seen_update {maxLostFrames : Int} {views : List (O × DetectionBox F)} {frameId : Nat}
    (h : ∀ k ∈ s.known, k.seen ≤ frameId) :
    ∀ k ∈ (s.update maxLostFrames views frameId).1.known, k.seen ≤ frameId := by
  have hfold : ∀ k ∈ (views.foldl (view frameId) (s, [])).1.known, k.seen ≤ frameId :=
    List.foldlRecOn views (view frameId) (motive := fun r => ∀ k ∈ r.1.known, k.seen ≤ frameId) h
      fun r hr v _ => seen_view hr
  exact fun k hk => hfold k (List.mem_of_mem_filter hk)

end IdealTracker

/-! ## Scenes -/

/-- The tracker and the ideal one beside each other; `named` are the ids that the tracker gave, with
the objects it gave them to. -/
structure SceneRun (O F : Type) [CFloat F] where
  run : TrackerRun F
  ideal : IdealTracker O F
  named : List (Nat × O)

/-- A frame of the scene. -/
structure SceneFrame (O F : Type) where
  views : List (O × DetectionBox F)
  frameId : Nat

def SceneFrame.call {O F : Type} (l : SceneFrame O F) : TrackerCall F :=
  ⟨l.views.map Prod.snd, l.frameId⟩

namespace SceneRun

variable {O F : Type} [CFloat F] [DecidableEq O]

def new (config : TemporalTracker.Config F) : SceneRun O F := ⟨.new config, {}, []⟩

def idealUpdate (s : SceneRun O F) (l : SceneFrame O F) : IdealTracker O F × List Nat :=
  s.ideal.update s.run.tracker.config.maxLostFrames l.views l.frameId

def frame (s : SceneRun O F) (l : SceneFrame O F) : SceneRun O F where
  run := s.run.call l.call
  ideal := (s.idealUpdate l).1
  named := s.named ++ (s.run.update l.call).2.zip (l.views.map Prod.fst)

/-- The objects of the frame stay apart. -/
def Apart (s : SceneRun O F) (l : SceneFrame O F) : Prop :=
  Separated s.run.tracker.config.iouThreshold s.ideal.known l.views

instance (s : SceneRun O F) (l : SceneFrame O F) : Decidable (s.Apart l) :=
  inferInstanceAs (Decidable (Separated _ _ _))

end SceneRun

def sceneSystem {O F : Type} [CFloat F] [DecidableEq O] (config : TemporalTracker.Config F) :
    TransitionSystem (SceneRun O F) (SceneFrame O F) where
  init s := s = .new config
  step s l := if s.run.Follows l.frameId then some (s.frame l) else none

namespace SceneRun

open TemporalTracker IdealTracker

variable {O F : Type} [CFloat F] [LawfulCFloat F] [DecidableEq O] {config : TemporalTracker.Config F}
  {s s' : SceneRun O F} {l : SceneFrame O F} {t : List (SceneRun O F × SceneFrame O F)}

/-- What holds between the frames of a scene of separate objects. -/
structure Faithful (config : TemporalTracker.Config F) (s : SceneRun O F) : Prop where
  same : s.run.tracker.config = config
  simulates : Simulates s.ideal s.run.tracker
  identified : Identified s.ideal s.named
  seen : ∀ k ∈ s.ideal.known, ∃ last ∈ s.run.lastFrame, k.seen ≤ last ∧
    (last : Int) - k.seen ≤ config.maxLostFrames

omit [LawfulCFloat F] [DecidableEq O] in
theorem faithful_new : Faithful config (new config : SceneRun O F) where
  same := rfl
  simulates := ⟨.nil, rfl, .nil⟩
  identified := identified_new
  seen k hk := by cases hk

omit [LawfulCFloat F] [DecidableEq O] in
/-- The cast of the age to `int` keeps its value. -/
theorem Faithful.lost_iff (h : Faithful config s) (hbounded : config.Bounded)
    (hmax : config.maxLostFrames < 2 ^ 30) (hfollows : s.run.Follows l.frameId)
    {k : KnownObject O F} (hk : k ∈ s.ideal.known ∨ k.seen = l.frameId) {track : TrackedObject F}
    (hstands : Stands k track) :
    lost s.run.tracker.config l.frameId track = true ↔
      s.run.tracker.config.maxLostFrames < (l.frameId : Int) - k.seen := by
  have hnonneg := hbounded.lost.1
  rw [h.same, ← hstands.seen]
  rcases hk with hk | hk
  · obtain ⟨last, hlast, hle, hage⟩ := h.seen k hk
    obtain ⟨hfrom, hto⟩ := hfollows last hlast
    rw [← hstands.seen] at hle hage
    exact lost_eq_true_iff (by omega) (by omega) hnonneg
  · rw [← hstands.seen] at hk
    exact lost_eq_true_iff (by omega) (by omega) hnonneg

theorem Faithful.frame (h : Faithful config s) (hbounded : config.Bounded)
    (hmax : config.maxLostFrames < 2 ^ 30) (hfollows : s.run.Follows l.frameId) (hapart : s.Apart l) :
    (s.run.update l.call).2 = (s.idealUpdate l).2 ∧ Faithful config (s.frame l) := by
  obtain ⟨hids, hsimulates⟩ := h.simulates.update hapart fun k hk track hstands =>
    h.lost_iff hbounded hmax hfollows hk hstands
  refine ⟨hids, h.same, hsimulates, ?_, fun k hk => ⟨l.frameId, rfl, ?_, ?_⟩⟩
  · have hidentified := h.identified.update s.run.tracker.config.maxLostFrames l.views l.frameId
    rwa [← hids] at hidentified
  · refine seen_update (fun k hk => ?_) k hk
    obtain ⟨last, hlast, hle, -⟩ := h.seen k hk
    exact Nat.le_trans hle (hfollows last hlast).1
  · rw [← h.same]
    exact mem_update hk

/-- While the objects of a scene stay apart, the tracker gives the ids that a tracker would give
which is told the objects; no id is ever given to two objects. -/
theorem ids_ideal (hbounded : config.Bounded) (hmax : config.maxLostFrames < 2 ^ 30)
    (hrun : (sceneSystem config).Run (new config) t s) (hapart : TransitionSystem.Respects Apart t) :
    (∀ p ∈ t, (p.1.run.update p.2.call).2 = (p.1.idealUpdate p.2).2) ∧
      ∀ i o o', (i, o) ∈ s.named → (i, o') ∈ s.named → o = o' := by
  have hstep : ∀ (s : SceneRun O F) l s', Faithful config s → Apart s l → (sceneSystem config).step s l = some s' →
      (s.run.update l.call).2 = (s.idealUpdate l).2 ∧ Faithful config s' := by
    intro s l s' hfaithful hapart hs
    obtain ⟨hfollows, hframe⟩ := Option.ite_none_right_eq_some.mp hs
    obtain rfl := Option.some_inj.mp hframe
    exact hfaithful.frame hbounded hmax hfollows hapart
  have hfinal := hrun.invariant_history_of_respects (C := Apart)
    (I := fun t s => Faithful config s ∧
      ∀ p ∈ t, (p.1.run.update p.2.call).2 = (p.1.idealUpdate p.2).2)
    (fun t s l s' ih hapart hs => by
      obtain ⟨hids, hfaithful⟩ := hstep s l s' ih.1 hapart hs
      refine ⟨hfaithful, fun p hp => ?_⟩
      rcases List.mem_append.mp hp with hp | hp
      · exact ih.2 p hp
      · obtain rfl := List.mem_singleton.mp hp
        exact hids)
    ⟨faithful_new, by simp⟩ hapart
  exact ⟨hfinal.2, hfinal.1.identified.one⟩

def boxAt (x : ℚ) : DetectionBox ℚ where
  className := "person"
  confidence := 1 / 2
  xMin := x
  yMin := 0
  xMax := x + 2
  yMax := 2

/-- Two objects pass each other in the list, one leaves for long, and is back. -/
def passing : List (SceneFrame Bool ℚ) :=
  [⟨[(false, boxAt 0), (true, boxAt 4)], 0⟩, ⟨[(true, boxAt (7 / 2)), (false, boxAt (1 / 2))], 1⟩,
    ⟨[(true, boxAt 3)], 32⟩, ⟨[(true, boxAt 3), (false, boxAt (1 / 2))], 33⟩]

theorem ids_ideal_passing :
    ∃ t s, (sceneSystem ({} : TemporalTracker.Config ℚ)).Run (new {}) t s ∧
      t.map Prod.snd = passing ∧
      s.named = [(1, false), (2, true), (2, true), (1, false), (2, true), (2, true), (3, false)] ∧
      ∀ i o o', (i, o) ∈ s.named → (i, o') ∈ s.named → o = o' := by
  have hview : ((sceneSystem ({} : TemporalTracker.Config ℚ)).execTrace (new {}) passing).map
      (fun r => (decide (TransitionSystem.Respects Apart r.1), r.2.named)) =
        some (true, [(1, false), (2, true), (2, true), (1, false), (2, true), (2, true),
          (3, false)]) := by decide +kernel
  obtain ⟨t, s, hrun, hlabels, hview⟩ := TransitionSystem.exists_run_of_execTrace hview
  obtain ⟨hapart, hnamed⟩ := Prod.mk.inj hview
  have hbounded : ({} : TemporalTracker.Config ℚ).Bounded := ⟨by decide, by decide⟩
  exact ⟨t, s, hrun, hlabels, hnamed,
    (ids_ideal hbounded (by decide) hrun (of_decide_eq_true hapart)).2⟩

end SceneRun
