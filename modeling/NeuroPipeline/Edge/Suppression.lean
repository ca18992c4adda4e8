-- SUMMARY: Non-maximum suppression with its array of flags, and what it keeps of a list of boxes.
import NeuroPipeline.Edge.Overlap
import NeuroPipeline.Edge.PostProcess
import NeuroPipeline.Lib.Greedy

/-!
# Non-maximum suppression

`YOLOPostProcessor::NMS` marks the boxes that a box suppresses before it comes to them.
That takes the same boxes as the greedy selection.
-/

namespace PostProcessor

variable {F : Type} [CFloat F]

/-! ## The loops -/

/-- The inner loop: the flags of the boxes after `a`. -/
def suppressAfter (nmsThreshold : F) (a : DetectionBox F) (rest : List (DetectionBox F))
    (suppressed : List Bool) : List Bool :=
  List.zipWith (fun b flag => flag || suppresses nmsThreshold a b) rest suppressed

/-- The outer loop, from a box on. -/
def suppressionLoop (nmsThreshold : F) : List (DetectionBox F) → List Bool → List (DetectionBox F)
  | [], _ => []
  | a :: rest, suppressed =>
    if suppressed.headD false then suppressionLoop nmsThreshold rest suppressed.tail
    else a :: suppressionLoop nmsThreshold rest
      (suppressAfter nmsThreshold a rest suppressed.tail)

/-- `NMS` -/
def flaggedNms (std : StdSort (DetectionBox F)) (boxes : List (DetectionBox F))
    (nmsThreshold : F) : List (DetectionBox F) :=
  if boxes.isEmpty then []
  else
    suppressionLoop nmsThreshold (std.sort moreConfident boxes)
      (List.replicate boxes.length false)

/-- The flags say which boxes are suppressed by those that were kept. -/
theorem suppressionLoop_flags (nmsThreshold : F) (kept boxes : List (DetectionBox F)) :
    suppressionLoop nmsThreshold boxes
        (boxes.map fun b => kept.any fun a => suppresses nmsThreshold a b) =
      Greedy.selectFrom (suppresses nmsThreshold) kept boxes := by
  induction boxes generalizing kept with
  | nil => rfl
  | cons a rest ih =>
    rw [Greedy.selectFrom, suppressionLoop, List.map_cons, List.headD_cons, List.tail_cons]
    split
    next => exact ih kept
    next =>
      have hflags : suppressAfter nmsThreshold a rest
          (rest.map fun b => kept.any fun a => suppresses nmsThreshold a b) =
          rest.map fun b => (kept ++ [a]).any fun a => suppresses nmsThreshold a b := by
        rw [suppressAfter, List.zipWith_map_right, List.zipWith_self]
        simp only [List.any_append, List.any_cons, List.any_nil, Bool.or_false]
      rw [hflags, ih]

theorem nms_eq_selectFrom (std : StdSort (DetectionBox F)) (boxes : List (DetectionBox F))
    (nmsThreshold : F) : nms std boxes nmsThreshold =
      Greedy.selectFrom (suppresses nmsThreshold) [] (std.sort moreConfident boxes) :=
  Greedy.foldl_keep

theorem replicate_false (boxes : List (DetectionBox F)) (nmsThreshold : F) :
    List.replicate boxes.length false =
      boxes.map fun b => ([] : List (DetectionBox F)).any fun a => suppresses nmsThreshold a b := by
  simp only [List.any_nil, List.map_const']

/-- Marking and selecting keep the same boxes. -/
theorem flaggedNms_eq_nms [LawfulCFloat F] {std : StdSort (DetectionBox F)}
    {boxes : List (DetectionBox F)} (nmsThreshold : F)
    (hnum : ∀ b ∈ boxes, CFloat.IsNumber b.confidence) :
    flaggedNms std boxes nmsThreshold = nms std boxes nmsThreshold := by
  have hperm := std.perm moreConfident boxes (moreConfident_strictWeakOn hnum)
  rw [nms_eq_selectFrom, flaggedNms]
  split
  next hempty =>
    obtain rfl := List.isEmpty_iff.mp hempty
    rw [hperm.eq_nil]
    rfl
  next =>
    rw [← hperm.length_eq, replicate_false _ nmsThreshold, suppressionLoop_flags]

/-! ## What is kept -/

/-- One object is not kept twice. -/
def Apart (nmsThreshold : F) (a b : DetectionBox F) : Prop :=
  a.classId = b.classId → ¬ nmsThreshold < computeIoU a b

theorem suppresses_eq_true {nmsThreshold : F} {a b : DetectionBox F} :
    suppresses nmsThreshold a b = true ↔ a.classId = b.classId ∧ nmsThreshold < computeIoU a b := by
  rw [suppresses, Bool.and_eq_true, decide_eq_true_eq, decide_eq_true_eq]

theorem suppresses_eq_false {nmsThreshold : F} {a b : DetectionBox F} :
    suppresses nmsThreshold a b = false ↔ Apart nmsThreshold a b := by
  rw [← Bool.not_eq_true, suppresses_eq_true, not_and]
  exact Iff.rfl

theorem apart_comm {nmsThreshold : ℚ} {a b : DetectionBox ℚ} :
    Apart nmsThreshold a b ↔ Apart nmsThreshold b a := by
  rw [Apart, Apart, eq_comm, computeIoU, intersectionOverUnion_comm, computeIoU]

theorem isNumber_rat (x : ℚ) : CFloat.IsNumber x := le_refl x

/-- What suppression does to a list of boxes: `kept` is left of it. -/
structure Suppressed (nmsThreshold : ℚ) (boxes kept : List (DetectionBox ℚ)) : Prop where
  sorted : kept.Pairwise fun a b => b.confidence ≤ a.confidence
  apart : kept.Pairwise fun a b => Apart nmsThreshold a b ∧ Apart nmsThreshold b a
  /-- every box that is dropped, counted as often as it is dropped -/
  dominated : ∃ dropped, (kept ++ dropped).Perm boxes ∧
    ∀ b ∈ dropped, ∃ a ∈ kept,
      a.classId = b.classId ∧ b.confidence ≤ a.confidence ∧ nmsThreshold < computeIoU a b

variable {std : StdSort (DetectionBox ℚ)} {boxes : List (DetectionBox ℚ)}

theorem sort_perm : (std.sort moreConfident boxes).Perm boxes :=
  std.perm moreConfident boxes (moreConfident_strictWeakOn fun b _ => isNumber_rat b.confidence)

theorem sort_sorted :
    (std.sort moreConfident boxes).Pairwise fun a b => b.confidence ≤ a.confidence := by
  have hsorted := std.sorted moreConfident boxes
    (moreConfident_strictWeakOn fun b _ => isNumber_rat b.confidence)
  refine hsorted.imp fun hab => ?_
  exact not_lt.mp (of_decide_eq_false hab)

theorem nms_suppressed (std : StdSort (DetectionBox ℚ)) (boxes : List (DetectionBox ℚ))
    (nmsThreshold : ℚ) : Suppressed nmsThreshold boxes (nms std boxes nmsThreshold) := by
  rw [nms_eq_selectFrom]
  constructor
  · exact sort_sorted.sublist Greedy.selectFrom_sublist
  · have hapart : (Greedy.selectFrom (suppresses nmsThreshold) []
        (std.sort moreConfident boxes)).Pairwise fun a b => suppresses nmsThreshold a b = false :=
      Greedy.pairwise_selectFrom List.Pairwise.nil
    refine hapart.imp fun hab => ?_
    exact ⟨suppresses_eq_false.mp hab, apart_comm.mp (suppresses_eq_false.mp hab)⟩
  · refine ⟨Greedy.rejectFrom (suppresses nmsThreshold) [] (std.sort moreConfident boxes),
      Greedy.selectFrom_append_rejectFrom.trans sort_perm, fun b hb => ?_⟩
    obtain ⟨a, ha, hab, hconfidence⟩ :=
      Greedy.exists_excludes_of_rejected (by simp) sort_sorted hb
    obtain ⟨hclass, hoverlap⟩ := suppresses_eq_true.mp hab
    exact ⟨a, ha, hclass, hconfidence, hoverlap⟩

/-- Nothing is suppressed among boxes that are apart. -/
theorem nms_of_apart {nmsThreshold : ℚ}
    (h : boxes.Pairwise fun a b => Apart nmsThreshold a b ∧ Apart nmsThreshold b a) :
    (nms std boxes nmsThreshold).Perm boxes := by
  have hsorted : (std.sort moreConfident boxes).Pairwise fun a b =>
      Apart nmsThreshold a b ∧ Apart nmsThreshold b a :=
    (sort_perm.pairwise_iff fun hab => hab.symm).mpr h
  rw [nms_eq_selectFrom, Greedy.selectFrom_eq_self]
  · exact sort_perm
  · exact hsorted.imp fun hab => suppresses_eq_false.mpr hab.1

/-- Whatever `std::sort` makes of equal confidences: the kept boxes are sorted and apart,
each dropped box is dominated by a kept one, and a second suppression keeps them all. -/
theorem flaggedNms_suppressed (std : StdSort (DetectionBox ℚ)) (boxes : List (DetectionBox ℚ))
    (nmsThreshold : ℚ) :
    let kept := flaggedNms std boxes nmsThreshold
    Suppressed nmsThreshold boxes kept ∧
      Suppressed nmsThreshold kept (flaggedNms std kept nmsThreshold) ∧
      (flaggedNms std kept nmsThreshold).Perm kept := by
  have hnum (l : List (DetectionBox ℚ)) : ∀ b ∈ l, CFloat.IsNumber b.confidence :=
    fun b _ => isNumber_rat b.confidence
  intro kept
  have hkept : Suppressed nmsThreshold boxes kept := by
    rw [show kept = nms std boxes nmsThreshold from flaggedNms_eq_nms _ (hnum boxes)]
    exact nms_suppressed std boxes nmsThreshold
  rw [flaggedNms_eq_nms _ (hnum kept)]
  exact ⟨hkept, nms_suppressed std kept nmsThreshold, nms_of_apart hkept.apart⟩

end PostProcessor
