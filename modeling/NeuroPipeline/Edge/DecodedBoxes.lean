-- SUMMARY: What the two decoders return in exact arithmetic: boxes in the unit square, above the threshold, of a best class.
import NeuroPipeline.Edge.Overlap
import NeuroPipeline.Edge.Suppression

/-!
# Decoded boxes

Both decoders scan the classes of a cell for the best score, compute two corners
and clamp them. The scans differ: one starts below every score and filters
afterwards, the other filters while it scans.
-/

/-- Inside the unit square, with the corners in order. -/
structure DetectionBox.WellFormed (b : DetectionBox ℚ) : Prop where
  xMin_nonneg : 0 ≤ b.xMin
  xMin_le : b.xMin ≤ b.xMax
  xMax_le : b.xMax ≤ 1
  yMin_nonneg : 0 ≤ b.yMin
  yMin_le : b.yMin ≤ b.yMax
  yMax_le : b.yMax ≤ 1

namespace PostProcessor

/-! ## Clamping -/

theorem clamp_rat (x : ℚ) : clamp x = max 0 (min 1 x) := by
  rw [clamp, CFloat.max_rat, CFloat.min_rat]
  rfl

theorem clamp_nonneg (x : ℚ) : 0 ≤ clamp x := by
  rw [clamp_rat]
  exact le_max_left 0 _

theorem clamp_le_one (x : ℚ) : clamp x ≤ 1 := by
  rw [clamp_rat]
  exact max_le zero_le_one (min_le_left 1 x)

theorem clamp_mono {x y : ℚ} (h : x ≤ y) : clamp x ≤ clamp y := by
  rw [clamp_rat, clamp_rat]
  exact max_le_max_left 0 (min_le_min_left 1 h)

/-- Clamped corners that were in order. -/
theorem wellFormed_of_clamp {b : DetectionBox ℚ} {x₀ y₀ x₁ y₁ : ℚ} (hxMin : b.xMin = clamp x₀)
    (hyMin : b.yMin = clamp y₀) (hxMax : b.xMax = clamp x₁) (hyMax : b.yMax = clamp y₁)
    (hx : x₀ ≤ x₁) (hy : y₀ ≤ y₁) : b.WellFormed where
  xMin_nonneg := by rw [hxMin]; exact clamp_nonneg x₀
  xMin_le := by rw [hxMin, hxMax]; exact clamp_mono hx
  xMax_le := by rw [hxMax]; exact clamp_le_one x₁
  yMin_nonneg := by rw [hyMin]; exact clamp_nonneg y₀
  yMin_le := by rw [hyMin, hyMax]; exact clamp_mono hy
  yMax_le := by rw [hyMax]; exact clamp_le_one y₁

/-- Class `c` is one of the classes and none has a larger score. -/
structure BestOf (numClasses : Int) (score : Nat → ℚ) (c : Nat) : Prop where
  isClass : (c : Int) < numClasses
  maximal : ∀ d : Nat, (d : Int) < numClasses → score d ≤ score c

end PostProcessor

open PostProcessor
open CFloat (const)

/-! ## YOLOv5 -/

namespace YoloPostProcessor

theorem decode_confidence {F : Type} [CFloat F] (p : YoloPostProcessor F) (math : CMath F)
    (output : List F) (k : Cell) :
    (p.decode math output k).confidence = p.confidence output k := rfl

theorem classId_mk {F : Type} (best : Nat × F) (className : String)
    (confidence xMin yMin xMax yMax : F) :
    (DetectionBox.mk best.1 className confidence xMin yMin xMax yMax).classId = best.1 := rfl

/-- By a lemma for any class: to compare the sides would be to run the scan of the classes. -/
theorem decode_classId {F : Type} [CFloat F] (p : YoloPostProcessor F) (math : CMath F)
    (output : List F) (k : Cell) :
    (p.decode math output k).classId = (p.bestClass output k).1 :=
  classId_mk (p.bestClass output k) (className (p.bestClass output k).1) _ _ _ _ _

variable {p : YoloPostProcessor ℚ}

/-- The scan of the classes after `n` of them. -/
theorem foldl_best (score : Nat → ℚ) (n : Nat) :
    let best := (List.range n).foldl
      (fun best c => if best.2 < score c then (c, score c) else best) (0, (-1 : ℚ))
    (∀ c < n, score c ≤ best.2) ∧ (best.2 = -1 ∨ best.1 < n ∧ best.2 = score best.1) := by
  induction n with
  | zero => exact ⟨fun c hc => absurd hc (Nat.not_lt_zero c), .inl rfl⟩
  | succ n ih =>
    rw [List.range_succ, List.foldl_append, List.foldl_cons, List.foldl_nil]
    obtain ⟨hbound, hbest⟩ := ih
    split
    next hlt =>
      refine ⟨fun c hc => ?_, .inr ⟨Nat.lt_succ_self n, rfl⟩⟩
      rcases Nat.lt_succ_iff_lt_or_eq.mp hc with hc | rfl
      · exact (hbound c hc).trans hlt.le
      · exact le_refl _
    next hnot =>
      refine ⟨fun c hc => ?_, hbest.imp_right fun h => ⟨Nat.lt_succ_of_lt h.1, h.2⟩⟩
      rcases Nat.lt_succ_iff_lt_or_eq.mp hc with hc | rfl
      · exact hbound c hc
      · exact not_lt.mp hnot

/-- An objectness and a product above zero leave only a class that was found. -/
theorem bestClass_spec {output : List ℚ} {k : Cell} (hthr : 0 < p.confidenceThreshold)
    (hobj : p.confidenceThreshold ≤ p.objConf output k)
    (hconf : p.confidenceThreshold ≤ p.confidence output k) :
    BestOf (int32 p.numClasses) (fun c => p.channel output k (5 + (c : Nat)))
      (p.bestClass output k).1 := by
  obtain ⟨hbound, hbest⟩ :=
    foldl_best (fun c => p.channel output k (5 + (c : Nat))) (int32 p.numClasses).toNat
  change ∀ c < (int32 p.numClasses).toNat,
    p.channel output k (5 + (c : Nat)) ≤ (p.bestClass output k).2 at hbound
  rcases hbest with hnone | ⟨hclass, hscore⟩
  · -- without a class the product would be negative
    have hnegative : p.confidence output k = p.objConf output k * -1 :=
      congrArg (p.objConf output k * ·) hnone
    linarith
  · refine ⟨by exact Int.lt_toNat.mp hclass, fun d hd => ?_⟩
    exact (hbound d (Int.lt_toNat.mpr hd)).trans (le_of_eq hscore)

theorem kAnchors_nonneg (s i : Nat) : 0 ≤ (kAnchors.getD s []).getD i 0 := by
  have hall : ∀ row ∈ kAnchors, ∀ a ∈ row, (0 : ℚ) ≤ a := by decide +kernel
  rw [List.getD_eq_getElem?_getD, List.getD_eq_getElem?_getD]
  cases hrow : kAnchors[s]? with
  | none => simp
  | some row =>
    cases hanchor : row[i]? with
    | none => simp [hanchor]
    | some a =>
      simpa [hanchor] using
        hall row (List.mem_of_getElem? hrow) a (List.mem_of_getElem? hanchor)

/-- The two sides of a centre, in pixels, then as fractions of the size of the input. -/
theorem side_le {c extent size : ℚ} (hextent : 0 ≤ extent) (hsize : 0 ≤ size) :
    (c - extent / 2) / size ≤ (c + extent / 2) / size := by
  apply div_le_div_of_nonneg_right _ hsize
  linarith

theorem decode_wellFormed {math : CMath ℚ} (hpow : ∀ x, math.pow x 2 = x * x)
    (output : List ℚ) (k : Cell) : (p.decode math output k).WellFormed := by
  have hextent (v : ℚ) (i : Nat) :
      0 ≤ math.pow v (const 2) * const ((kAnchors.getD k.s []).getD i 0) := by
    change 0 ≤ math.pow v 2 * (kAnchors.getD k.s []).getD i 0
    rw [hpow]
    exact mul_nonneg (mul_self_nonneg v) (kAnchors_nonneg k.s i)
  apply wellFormed_of_clamp rfl rfl rfl rfl
  · exact side_le (hextent _ _) (Nat.cast_nonneg p.inputWidth)
  · exact side_le (hextent _ _) (Nat.cast_nonneg p.inputHeight)

/-- The decoded box of an anchor that passes both tests of its confidence. -/
theorem mem_process {math : CMath ℚ} {std : StdSort (DetectionBox ℚ)} {outputs : Tensors ℚ}
    {b : DetectionBox ℚ} (hb : b ∈ p.process math std outputs) :
    ∃ c ∈ p.decodedCells outputs, b = p.decode math c.1 c.2 ∧
      p.confidenceThreshold ≤ p.objConf c.1 c.2 ∧
      p.confidenceThreshold ≤ p.confidence c.1 c.2 := by
  unfold process at hb
  split at hb
  next => cases hb
  next =>
    obtain ⟨c, hc, hcand⟩ := List.mem_filterMap.mp (mem_nms (fun b _ => isNumber_rat _) hb)
    refine ⟨c, hc, ?_⟩
    unfold candidate at hcand
    split at hcand
    next => cases hcand
    next hobj =>
      split at hcand
      next => cases hcand
      next hconf =>
        exact ⟨(Option.some.inj hcand).symm, not_lt.mp hobj, not_lt.mp hconf⟩

end YoloPostProcessor

/-! ## YOLOv8 -/

namespace Yolov8PostProcessor

variable {p : Yolov8PostProcessor ℚ}

/-- The scan of the classes after `n` of them: what it has passed over is below the
threshold or not better. -/
theorem foldl_betterClass_spec (scores : List ℚ) (k : Cell) (n : Nat) :
    let best := (List.range n).foldl (p.betterClass scores k) (none, 0)
    (∀ c < n, p.confidenceThreshold < p.score scores k c → p.score scores k c ≤ best.2) ∧
      ∀ c, best.1 = some c →
        c < n ∧ best.2 = p.score scores k c ∧ p.confidenceThreshold < p.score scores k c := by
  induction n with
  | zero => exact ⟨fun c hc => absurd hc (Nat.not_lt_zero c), fun c hc => by cases hc⟩
  | succ n ih =>
    rw [List.range_succ, List.foldl_append, List.foldl_cons, List.foldl_nil, betterClass]
    obtain ⟨hbound, hbest⟩ := ih
    split
    next hbetter =>
      refine ⟨fun c hc habove => ?_, fun c hc => ?_⟩
      · rcases Nat.lt_succ_iff_lt_or_eq.mp hc with hc | rfl
        · exact (hbound c hc habove).trans hbetter.2.le
        · exact le_refl _
      · obtain rfl := Option.some.inj hc
        exact ⟨Nat.lt_succ_self n, rfl, hbetter.1⟩
    next hnot =>
      refine ⟨fun c hc habove => ?_, fun c hc => ?_⟩
      · rcases Nat.lt_succ_iff_lt_or_eq.mp hc with hc | rfl
        · exact hbound c hc habove
        · exact not_lt.mp fun hlt => hnot ⟨habove, hlt⟩
      · obtain ⟨hlt, hscore⟩ := hbest c hc
        exact ⟨Nat.lt_succ_of_lt hlt, hscore⟩

theorem maxClass_spec {scores : List ℚ} {k : Cell} {c : Nat}
    (hc : (p.maxClass scores k).1 = some c) :
    (p.maxClass scores k).2 = p.score scores k c ∧
      BestOf (int32 p.numClasses) (p.score scores k) c := by
  obtain ⟨hbound, hbest⟩ := foldl_betterClass_spec (p := p) scores k (int32 p.numClasses).toNat
  obtain ⟨hclass, hscore, habove⟩ := hbest c hc
  refine ⟨hscore, Int.lt_toNat.mp hclass, fun d hd => ?_⟩
  -- a class that was passed over for the threshold is below the chosen one
  rcases le_or_gt (p.score scores k d) p.confidenceThreshold with hbelow | hpassed
  · exact hbelow.trans habove.le
  · exact (hbound d (Int.lt_toNat.mpr hd) hpassed).trans (le_of_eq hscore)

theorem foldl_add_nonneg {ι : Type} (l : List ι) {f : ι → ℚ} (hf : ∀ i ∈ l, 0 ≤ f i) {sum : ℚ}
    (hsum : 0 ≤ sum) : 0 ≤ l.foldl (fun sum i => sum + f i) sum := by
  induction l generalizing sum with
  | nil => exact hsum
  | cons i l ih =>
    apply ih fun j hj => hf j (List.mem_cons_of_mem i hj)
    exact add_nonneg hsum (hf i List.mem_cons_self)

/-- A side of a box is a weighted mean of distances. -/
theorem computeDFL_nonneg {math : CMath ℚ} (hexp : ∀ x, 0 < math.exp x) (tensor : Int → ℚ)
    (dflLen : Int) (b : Nat) : 0 ≤ computeDFL math tensor dflLen b := by
  apply foldl_add_nonneg _ _ le_rfl
  intro i _
  apply mul_nonneg _ (Nat.cast_nonneg i)
  apply div_nonneg (hexp _).le
  exact foldl_add_nonneg _ (fun j _ => (hexp _).le) le_rfl

theorem edge_le {a b : ℚ} (ha : 0 ≤ a) (hb : 0 ≤ b) (j half : ℚ) {stride size : ℚ}
    (hstride : 0 ≤ stride) (hsize : 0 ≤ size) :
    (-a + j + half) * stride / size ≤ (b + j + half) * stride / size := by
  apply div_le_div_of_nonneg_right _ hsize
  apply mul_le_mul_of_nonneg_right _ hstride
  linarith

theorem decode_wellFormed {math : CMath ℚ} (hexp : ∀ x, 0 < math.exp x) (boxes : List ℚ)
    (k : Cell) (c : Nat) (score : ℚ) : (p.decode math boxes k c score).WellFormed := by
  have hstride : (0 : ℚ) ≤ const (kStrides.getD k.s 1) := Int.cast_nonneg kStrides_pos.le
  apply wellFormed_of_clamp rfl rfl rfl rfl
  · exact edge_le (computeDFL_nonneg hexp _ _ _) (computeDFL_nonneg hexp _ _ _) _ _ hstride
      (Nat.cast_nonneg p.inputWidth)
  · exact edge_le (computeDFL_nonneg hexp _ _ _) (computeDFL_nonneg hexp _ _ _) _ _ hstride
      (Nat.cast_nonneg p.inputHeight)

theorem mem_process {math : CMath ℚ} {std : StdSort (DetectionBox ℚ)} {outputs : Tensors ℚ}
    {b : DetectionBox ℚ} (hb : b ∈ p.process math std outputs) :
    ∃ s < 3, ∃ k ∈ p.cells s,
      p.candidate math (boxTensor outputs s) (scoreTensor outputs s) k = some b := by
  unfold process at hb
  split at hb
  next => cases hb
  next =>
    obtain ⟨s, hs, hb⟩ := List.mem_flatMap.mp (mem_nms (fun b _ => isNumber_rat _) hb)
    exact ⟨s, List.mem_range.mp hs, mem_scaleCandidates hb⟩

end Yolov8PostProcessor

/-! ## Both decoders -/

namespace YoloPostProcessor

theorem process_spec {p : YoloPostProcessor ℚ} {math : CMath ℚ} {std : StdSort (DetectionBox ℚ)}
    {outputs : Tensors ℚ} {b : DetectionBox ℚ} (hpow : ∀ x, math.pow x 2 = x * x)
    (hthr : 0 < p.confidenceThreshold) (hb : b ∈ p.process math std outputs) :
    b.WellFormed ∧ p.confidenceThreshold ≤ b.confidence ∧
      ∃ c ∈ p.decodedCells outputs, b = p.decode math c.1 c.2 ∧
        BestOf (int32 p.numClasses) (fun d => p.channel c.1 c.2 (5 + (d : Nat))) b.classId := by
  obtain ⟨c, hc, hdecode, hobj, hconf⟩ := mem_process hb
  have hbest := bestClass_spec hthr hobj hconf
  refine ⟨?_, ?_, c, hc, hdecode, ?_⟩
  · rw [hdecode]
    exact decode_wellFormed hpow c.1 c.2
  · rw [hdecode, decode_confidence]
    exact hconf
  · rw [hdecode, decode_classId]
    exact hbest

end YoloPostProcessor

namespace Yolov8PostProcessor

theorem process_spec {p : Yolov8PostProcessor ℚ} {math : CMath ℚ}
    {std : StdSort (DetectionBox ℚ)} {outputs : Tensors ℚ} {b : DetectionBox ℚ}
    (hexp : ∀ x, 0 < math.exp x) (hb : b ∈ p.process math std outputs) :
    b.WellFormed ∧ p.confidenceThreshold ≤ b.confidence ∧
      ∃ s < 3, ∃ k ∈ p.cells s,
        p.candidate math (boxTensor outputs s) (scoreTensor outputs s) k = some b ∧
          BestOf (int32 p.numClasses) (p.score (scoreTensor outputs s) k) b.classId := by
  obtain ⟨s, hs, k, hk, hcand⟩ := mem_process hb
  obtain ⟨c, hc, hdecode⟩ := Option.map_eq_some_iff.mp hcand
  obtain ⟨-, hbest⟩ := maxClass_spec hc
  refine ⟨?_, process_confidence hb, s, hs, k, hk, hcand, ?_⟩
  · rw [← hdecode]
    exact decode_wellFormed hexp _ k c _
  · rw [← hdecode]
    exact hbest

end Yolov8PostProcessor

namespace PostProcessor

/-- For all tensors, with any positive function for `exp` and `pow` squaring. -/
theorem process_decodedWellFormed {math : CMath ℚ} (hexp : ∀ x, 0 < math.exp x)
    (hpow : ∀ x, math.pow x 2 = x * x) (std : StdSort (DetectionBox ℚ)) :
    (∀ (p : YoloPostProcessor ℚ) (outputs : Tensors ℚ), 0 < p.confidenceThreshold →
      ∀ b ∈ p.process math std outputs,
        b.WellFormed ∧ p.confidenceThreshold ≤ b.confidence ∧
          ∃ c ∈ p.decodedCells outputs, b = p.decode math c.1 c.2 ∧
            BestOf (int32 p.numClasses) (fun d => p.channel c.1 c.2 (5 + (d : Nat)))
              b.classId) ∧
    ∀ (p : Yolov8PostProcessor ℚ) (outputs : Tensors ℚ), 0 < p.confidenceThreshold →
      p.dflLen ≤ 16 → ∀ b ∈ p.process math std outputs,
        b.WellFormed ∧ p.confidenceThreshold ≤ b.confidence ∧
          ∃ s < 3, ∃ k ∈ p.cells s,
            p.candidate math (Yolov8PostProcessor.boxTensor outputs s)
              (Yolov8PostProcessor.scoreTensor outputs s) k = some b ∧
            BestOf (int32 p.numClasses) (p.score (Yolov8PostProcessor.scoreTensor outputs s) k)
              b.classId := by
  constructor
  · intro p outputs hthr b hb
    exact YoloPostProcessor.process_spec hpow hthr hb
  · intro p outputs _ _ b hb
    exact Yolov8PostProcessor.process_spec hexp hb

/-- The library's values at the arguments that the two inputs below give it. -/
def flatMath : CMath ℚ where
  exp _ := 1
  pow x _ := x * x

/-- One cell with one class, for each of the decoders. -/
theorem process_decodedWellFormed_oneCell :
    let v5 : YoloPostProcessor ℚ := { numClasses := 1, inputWidth := 8, inputHeight := 8 }
    let v8 : Yolov8PostProcessor ℚ :=
      { numClasses := 1, inputWidth := 8, inputHeight := 8, dflLen := 2 }
    let std := StdSort.insertion (DetectionBox ℚ)
    let anchors : Tensors ℚ := [[1/2, 1/2, 1/8, 1/8, 1, 3/4] ++ List.replicate 12 0]
    let sides : Tensors ℚ := [List.replicate 8 0, [3/4], [], [], [], []]
    (v5.process flatMath std anchors).map (·.confidence) = [3/4] ∧
      (v8.process flatMath std sides).map (·.confidence) = [3/4] ∧
      (∀ b ∈ v5.process flatMath std anchors, b.WellFormed) ∧
      ∀ b ∈ v8.process flatMath std sides, b.WellFormed := by
  intro v5 v8 std anchors sides
  obtain ⟨h5, h8⟩ :=
    process_decodedWellFormed (fun x => show 0 < flatMath.exp x from one_pos) (fun _ => rfl) std
  refine ⟨by decide +kernel, by decide +kernel, fun b hb => ?_, fun b hb => ?_⟩
  · exact (h5 v5 anchors (by decide +kernel) b hb).1
  · exact (h8 v8 sides (by decide +kernel) (by decide) b hb).1

end PostProcessor
