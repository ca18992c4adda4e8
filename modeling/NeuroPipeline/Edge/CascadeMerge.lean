-- SUMMARY: What the merged detections of a cascade contain: exactly when no object is in them twice.
import NeuroPipeline.Edge.CascadeMapping
import NeuroPipeline.Edge.Suppression

/-!
# Merged detections

The heavy model answers for one crop at a time, and its answers are collected without a
look at those for other crops. The merge compares light detections with heavy ones only.
-/

open PostProcessor

namespace ModelCascade

/-- No object twice: what every single invocation is to return. -/
def Distinct (dets : List (DetectionBox ℚ)) : Prop := dets.Pairwise (Apart (1/2))

def Reliable (model : CascadeModel ℚ) : Prop :=
  ∀ n buffer dets, model.infer n buffer = some dets → Distinct dets

theorem Reliable.distinct_getD {model : CascadeModel ℚ} (h : Reliable model) (n : Nat)
    (buffer : List UInt8) : Distinct ((model.infer n buffer).getD []) := by
  cases hdets : model.infer n buffer with
  | none => exact List.Pairwise.nil
  | some dets => exact h n buffer dets hdets

instance (nmsThreshold : ℚ) (a b : DetectionBox ℚ) : Decidable (Apart nmsThreshold a b) :=
  inferInstanceAs (Decidable (_ → _))

instance (dets : List (DetectionBox ℚ)) : Decidable (Distinct dets) :=
  inferInstanceAs (Decidable (dets.Pairwise _))

/-- A model that answers from a list, as long as it lasts. -/
def scripted (answers : List (List (DetectionBox ℚ))) : CascadeModel ℚ where
  inputWidth := 1
  infer n _ := answers[n]?

theorem reliable_scripted {answers : List (List (DetectionBox ℚ))}
    (h : ∀ dets ∈ answers, Distinct dets) : Reliable (scripted answers) :=
  fun _ _ _ hdets => h _ (List.mem_of_getElem? hdets)

/-! ## The merge -/

/-- The merge tests the union for being positive, the post-processor for not being so. -/
theorem mergeIoU_eq (l h : DetectionBox ℚ) : mergeIoU l h = computeIoU l h := by
  unfold mergeIoU computeIoU intersectionOverUnion
  simp only
  split
  next hpos => rw [if_neg (not_le.mpr hpos)]
  next hnot => rw [if_pos (not_lt.mp hnot)]

section

variable {config : CascadeConfig ℚ} {light heavy : List (DetectionBox ℚ)} {l : DetectionBox ℚ}

theorem overlaps_iff : overlaps heavy l = true ↔
    ∃ h ∈ heavy, l.classId = h.classId ∧ 1/2 < computeIoU l h := by
  simp only [overlaps, List.any_eq_true, Bool.and_eq_true, decide_eq_true_eq, mergeIoU_eq]
  refine exists_congr fun h => and_congr_right fun _ => ?_
  rw [and_comm, show (CFloat.const 0.5 : ℚ) = 1/2 by decide +kernel]

/-- The merge keeps no light detection that a heavy one covers, so it is distinct when
the heavy ones are. -/
theorem distinct_merge_iff (hmerge : config.mergeResults = true) (hlight : Distinct light) :
    Distinct (mergeDetections config light heavy) ↔ Distinct heavy := by
  rw [mergeDetections, if_pos hmerge, Distinct, List.pairwise_append, List.pairwise_map]
  constructor
  · exact fun h => h.1
  · intro hdistinct
    refine ⟨hdistinct, hlight.sublist List.filter_sublist, ?_⟩
    intro _ hh l hl hclass
    obtain ⟨h, hheavy, rfl⟩ := List.mem_map.mp hh
    obtain ⟨-, hkept⟩ := List.mem_filter.mp hl
    intro hoverlap
    rw [Bool.not_eq_true', ← Bool.not_eq_true, overlaps_iff] at hkept
    refine hkept ⟨h, hheavy, hclass.symm, ?_⟩
    rwa [computeIoU, intersectionOverUnion_comm]

/-- Where a light detection is missing, a heavy one of its class covers it. -/
theorem covered_merge (hmerge : config.mergeResults = true) (hl : l ∈ light) :
    l ∈ mergeDetections config light heavy ∨
      ∃ h ∈ heavy, weighted config h ∈ mergeDetections config light heavy ∧
        l.classId = h.classId ∧ 1/2 < computeIoU l h := by
  rw [mergeDetections, if_pos hmerge]
  cases hcovered : overlaps heavy l with
  | false =>
    exact .inl (List.mem_append.mpr (.inr (List.mem_filter.mpr ⟨hl, by rw [hcovered]; rfl⟩)))
  | true =>
    obtain ⟨h, hh, hoverlap⟩ := overlaps_iff.mp hcovered
    exact .inr ⟨h, hh, List.mem_append.mpr (.inl (List.mem_map_of_mem hh)), hoverlap⟩

end

/-! ## The heavy detections -/

/-- A detection of the heavy model with the crop that it was found in. -/
structure Sighting where
  crop : Nat
  roi : DetectionBox ℚ
  det : DetectionBox ℚ

/-- The sightings in all crops, the crops counted from `n`. -/
def sightingsFrom (heavy : CascadeModel ℚ) :
    Nat → List (DetectionBox ℚ × List UInt8) → List Sighting
  | _, [] => []
  | n, roi :: rest =>
    (((heavy.infer n roi.2).getD []).map fun det => ⟨n, roi.1, det⟩) ++
      sightingsFrom heavy (n + 1) rest

variable (config : CascadeConfig ℚ)

def Sighting.mapped (x : Sighting) : DetectionBox ℚ := mapToOriginalFrame config x.det x.roi

/-- Part of the sighting is outside the frame, and the clamp moves its sides. -/
def Sighting.Moved (x : Sighting) : Prop := x.mapped config ≠ unclamped config x.det x.roi

/-- Sightings of one object are only in one crop, and there inside the frame. -/
def SeenOnce (xs : List Sighting) : Prop :=
  xs.Pairwise fun x y => x.crop ≠ y.crop ∨ x.Moved config ∨ y.Moved config →
    Apart (1/2) (x.mapped config) (y.mapped config)

instance (x : Sighting) : Decidable (x.Moved config) := inferInstanceAs (Decidable (_ ≠ _))

instance (xs : List Sighting) : Decidable (SeenOnce config xs) :=
  inferInstanceAs (Decidable (xs.Pairwise _))

theorem heavyFrom_eq (heavy : CascadeModel ℚ) (n : Nat)
    (rois : List (DetectionBox ℚ × List UInt8)) :
    heavyFrom config heavy n rois = (sightingsFrom heavy n rois).map (Sighting.mapped config) := by
  induction rois generalizing n with
  | nil => rfl
  | cons roi rest ih =>
    rw [heavyFrom, sightingsFrom, List.map_append, ih, heavyDetections, List.map_map]
    rfl

/-! ### Crops -/

theorem truncate_nonpos {q : ℚ} (hq : q ≤ 0) : truncate q ≤ 0 := by
  have hneg : 0 ≤ (-q.num).tdiv q.den :=
    Int.tdiv_nonneg (neg_nonneg.mpr (Rat.num_nonpos.mpr hq)) (Int.natCast_nonneg _)
  rw [Int.neg_tdiv] at hneg
  exact neg_nonneg.mp hneg

/-- Truncated sides that are in order come from sides that are. -/
theorem lt_of_truncate_lt {a b : ℚ} (h : max 0 (truncate a) < truncate b) : a < b := by
  obtain ⟨hpos, hlt⟩ := max_lt_iff.mp h
  have hb : 0 < b := lt_of_not_ge fun hb => absurd (truncate_nonpos hb) (by omega)
  by_contra hle
  have hle : b ≤ a := not_lt.mp hle
  rw [truncate_of_nonneg hb.le, truncate_of_nonneg (hb.le.trans hle)] at hlt
  exact absurd (Int.floor_mono hle) (by omega)

variable {config}

/-- The padded region of a crop is not empty. -/
structure Stretches (config : CascadeConfig ℚ) (roi : DetectionBox ℚ) : Prop where
  x : paddedMin config roi.xMin < paddedMax config roi.xMax
  y : paddedMin config roi.yMin < paddedMax config roi.yMax

theorem padded_lt {size : Int} {low high left right : ℚ}
    (h : max 0 (truncate (low * size * left)) < min size (truncate (high * size * right))) :
    low * left < high * right := by
  obtain ⟨hsize, hlt⟩ := lt_min_iff.mp h
  have hpos : (0 : ℚ) < size := by exact_mod_cast (le_max_left _ _).trans_lt hsize
  have hscaled : size * (low * left) < size * (high * right) := by
    calc size * (low * left) = low * size * left := by ring
      _ < high * size * right := lt_of_truncate_lt hlt
      _ = size * (high * right) := by ring
  exact lt_of_mul_lt_mul_left hscaled hpos.le

theorem stretches_of_crop {frame : List UInt8} {frameWidth frameHeight targetSize : Int}
    {roi : DetectionBox ℚ}
    (hcrop : cropResizeROI config truncate frame frameWidth frameHeight roi targetSize ≠ []) :
    Stretches config roi := by
  obtain ⟨hx, hy⟩ := rect_of_crop hcrop
  exact ⟨padded_lt hx, padded_lt hy⟩

theorem stretches_of_mem_extractFrom {frame : List UInt8} {frameWidth frameHeight modelSize : Int}
    {dets : List (DetectionBox ℚ)} {count : Int} {roi : DetectionBox ℚ × List UInt8}
    (hroi : roi ∈ extractFrom config truncate frame frameWidth frameHeight modelSize count dets) :
    Stretches config roi.1 := by
  induction dets generalizing count with
  | nil => cases hroi
  | cons det rest ih =>
    unfold extractFrom at hroi
    split at hroi
    next => cases hroi
    next =>
      split at hroi
      next => exact ih hroi
      next =>
        split at hroi
        next => exact ih hroi
        next =>
          simp only at hroi
          split at hroi
          next => exact ih hroi
          next hcrop =>
            rcases List.mem_cons.mp hroi with rfl | hrest
            · exact stretches_of_crop fun hnil => hcrop (by rw [hnil]; rfl)
            · exact ih hrest

/-! ### Sightings in one crop -/

/-- A crop keeps the overlap of what is found in it, as long as nothing is clamped. -/
theorem computeIoU_unclamped {roi : DetectionBox ℚ} (h : Stretches config roi)
    (a b : DetectionBox ℚ) :
    computeIoU (unclamped config a roi) (unclamped config b roi) = computeIoU a b :=
  intersectionOverUnion_affine _ _ (sub_pos.mpr h.x) (sub_pos.mpr h.y) _ _ _ _ _ _ _ _

/-- What two sightings have in common. -/
structure Consistent (x y : Sighting) : Prop where
  sameCrop : x.crop = y.crop → x.roi = y.roi
  apart : x.crop = y.crop → Apart (1/2) x.det y.det

theorem le_crop {heavy : CascadeModel ℚ} {n : Nat} {rois : List (DetectionBox ℚ × List UInt8)}
    {x : Sighting} (hx : x ∈ sightingsFrom heavy n rois) : n ≤ x.crop := by
  induction rois generalizing n with
  | nil => cases hx
  | cons roi rest ih =>
    rcases List.mem_append.mp hx with hx | hx
    · obtain ⟨det, -, rfl⟩ := List.mem_map.mp hx
      exact le_rfl
    · exact (Nat.le_succ n).trans (ih hx)

theorem sightingsFrom_consistent {heavy : CascadeModel ℚ} (hheavy : Reliable heavy) (n : Nat)
    (rois : List (DetectionBox ℚ × List UInt8)) :
    (sightingsFrom heavy n rois).Pairwise Consistent := by
  induction rois generalizing n with
  | nil => exact List.Pairwise.nil
  | cons roi rest ih =>
    rw [sightingsFrom, List.pairwise_append, List.pairwise_map]
    refine ⟨?_, ih (n + 1), ?_⟩
    · exact (hheavy.distinct_getD n roi.2).imp fun hapart => ⟨fun _ => rfl, fun _ => hapart⟩
    · -- the crops that follow have larger numbers
      intro x hx y hy
      obtain ⟨det, -, rfl⟩ := List.mem_map.mp hx
      have hlater := le_crop hy
      have hne : n ≠ y.crop := by omega
      exact ⟨fun heq => absurd heq hne, fun heq => absurd heq hne⟩

theorem stretches_of_mem_sightings {heavy : CascadeModel ℚ} {n : Nat}
    {rois : List (DetectionBox ℚ × List UInt8)} (hrois : ∀ roi ∈ rois, Stretches config roi.1)
    {x : Sighting} (hx : x ∈ sightingsFrom heavy n rois) : Stretches config x.roi := by
  induction rois generalizing n with
  | nil => cases hx
  | cons roi rest ih =>
    rcases List.mem_append.mp hx with hx | hx
    · obtain ⟨det, -, rfl⟩ := List.mem_map.mp hx
      exact hrois roi List.mem_cons_self
    · exact ih (fun r hr => hrois r (List.mem_cons_of_mem roi hr)) hx

/-- Two sightings in one crop are apart on the frame as they are in the crop. -/
theorem Consistent.apart_mapped {x y : Sighting} (h : Consistent x y)
    (hx : Stretches config x.roi) (hcrop : x.crop = y.crop) (hxIn : ¬ x.Moved config)
    (hyIn : ¬ y.Moved config) : Apart (1/2) (x.mapped config) (y.mapped config) := by
  have hroi := h.sameCrop hcrop
  intro hclass hoverlap
  rw [not_not.mp hxIn, not_not.mp hyIn, ← hroi, computeIoU_unclamped hx] at hoverlap
  exact h.apart hcrop hclass hoverlap

theorem distinct_mapped_iff {xs : List Sighting} (hconsistent : xs.Pairwise Consistent)
    (hstretches : ∀ x ∈ xs, Stretches config x.roi) :
    Distinct (xs.map (Sighting.mapped config)) ↔ SeenOnce config xs := by
  rw [Distinct, List.pairwise_map, SeenOnce]
  constructor
  · intro h
    refine h.imp ?_
    intro x y hapart _
    exact hapart
  · intro h
    refine (h.and hconsistent).imp_of_mem ?_
    rintro x y hx - ⟨hapart, hxy⟩
    by_cases hother : x.crop ≠ y.crop ∨ x.Moved config ∨ y.Moved config
    · exact hapart hother
    · obtain ⟨hcrop, hxIn, hyIn⟩ : ¬ x.crop ≠ y.crop ∧ ¬ x.Moved config ∧ ¬ y.Moved config := by
        tauto
      exact hxy.apart_mapped (hstretches x hx) (not_not.mp hcrop) hxIn hyIn

/-! ## A frame -/

/-- `l` is in the merged detections, or a heavy detection of its class that overlaps it is. -/
def Covered (config : CascadeConfig ℚ) (result : CascadeResult ℚ) (l : DetectionBox ℚ) : Prop :=
  l ∈ result.mergedDetections ∨
    ∃ h ∈ result.heavyDetections, weighted config h ∈ result.mergedDetections ∧
      l.classId = h.classId ∧ 1/2 < computeIoU l h

theorem processFrame_of_cascade {light heavy : CascadeModel ℚ} {frame : List UInt8}
    (hrun : shouldCascade config (lightDetections light frame) = true)
    (frameWidth frameHeight : Int) :
    processFrame config truncate frame frameWidth frameHeight (some light) (some heavy) =
      let lightDets := lightDetections light frame
      let rois := extractROIs config truncate frame lightDets frameWidth frameHeight
        (int32 heavy.inputWidth)
      { lightDetections := lightDets
        heavyDetections := heavyFrom config heavy 0 rois
        mergedDetections := mergeDetections config lightDets (heavyFrom config heavy 0 rois)
        cascadeCount := rois.length } := by
  rw [processFrame]
  simp only [hrun, Bool.not_true, Bool.false_eq_true, if_false]

end ModelCascade
