-- SUMMARY: Decoding of output tensors into boxes for the two model families, and non-maximum suppression.
import NeuroPipeline.Lib.StdSort
import NeuroPipeline.Edge.DetectionBox

/-!
# Post-processing

Model of yolo_postprocess.cpp and yolov8_postprocess.cpp. Both decode every cell
of three grids, keep the candidates above the confidence threshold of their own
configuration, and suppress overlapping ones.
-/

open CFloat (const)

/-- The tensors of one inference. -/
abbrev Tensors (F : Type) := List (List F)

namespace PostProcessor

variable {F : Type} [CFloat F]

def kStrides : List Int := [8, 16, 32]

theorem kStrides_pos {s : Nat} : 0 < kStrides.getD s 1 := by
  rcases s with _ | _ | _ | s
  · decide
  · decide
  · decide
  · exact Int.one_pos

/-- The class names that are used when no file of names is configured. -/
def classNames : List String :=
  ["person", "bicycle", "car", "motorcycle", "airplane", "bus", "train", "truck", "boat",
   "traffic light", "fire hydrant", "stop sign", "parking meter", "bench", "bird", "cat", "dog",
   "horse", "sheep", "cow", "elephant", "bear", "zebra", "giraffe", "backpack", "umbrella",
   "handbag", "tie", "suitcase", "frisbee", "skis", "snowboard", "sports ball", "kite",
   "baseball bat", "baseball glove", "skateboard", "surfboard", "tennis racket", "bottle",
   "wine glass", "cup", "fork", "knife", "spoon", "bowl", "banana", "apple", "sandwich", "orange",
   "broccoli", "carrot", "hot dog", "pizza", "donut", "cake", "chair", "couch", "potted plant",
   "bed", "dining table", "toilet", "tv", "laptop", "mouse", "remote", "keyboard", "cell phone",
   "microwave", "oven", "toaster", "sink", "refrigerator", "book", "clock", "vase", "scissors",
   "teddy bear", "hair drier", "toothbrush"]

def className (c : Nat) : String := classNames.getD c s!"class_{c}"

/-- `tensor[i]`. -/
def valueAt (tensor : List F) (i : Int) : F := tensor.getD (int32 i).toNat (const 0)

def clamp (x : F) : F := CFloat.max (const 0) (CFloat.min (const 1) x)

/-- The cells of a grid along one side. -/
def grid (size : Nat) (s : Nat) : Int := (int32 size).tdiv (kStrides.getD s 1)

/-! ## Non-maximum suppression -/

def computeIoU (a b : DetectionBox F) : F :=
  intersectionOverUnion a.xMin a.yMin a.xMax a.yMax b.xMin b.yMin b.xMax b.yMax

def suppresses (nmsThreshold : F) (a b : DetectionBox F) : Bool :=
  a.classId = b.classId && nmsThreshold < computeIoU a b

def moreConfident (a b : DetectionBox F) : Bool := b.confidence < a.confidence

/-- A box is kept unless a kept box before it suppresses it. -/
def keep (nmsThreshold : F) (kept : List (DetectionBox F)) (b : DetectionBox F) :
    List (DetectionBox F) :=
  if kept.any fun a => suppresses nmsThreshold a b then kept else kept ++ [b]

def nms (std : StdSort (DetectionBox F)) (boxes : List (DetectionBox F)) (nmsThreshold : F) :
    List (DetectionBox F) :=
  (std.sort moreConfident boxes).foldl (keep nmsThreshold) []

theorem moreConfident_strictWeakOn [LawfulCFloat F] {boxes : List (DetectionBox F)}
    (h : ∀ b ∈ boxes, CFloat.IsNumber b.confidence) : StrictWeakOn moreConfident boxes := by
  constructor
  · intro a _ b _ hab
    have hlt : b.confidence < a.confidence := by simpa [moreConfident] using hab
    have hnot : ¬ a.confidence < b.confidence := fun hba =>
      LawfulCFloat.not_le_of_lt hlt (LawfulCFloat.le_of_lt hba)
    simpa [moreConfident] using hnot
  · intro a ha b hb c hc hac
    have hlt : c.confidence < a.confidence := by simpa [moreConfident] using hac
    by_contra hnone
    obtain ⟨hab, hbc⟩ := not_or.mp hnone
    have hab' : ¬ b.confidence < a.confidence := by simpa [moreConfident] using hab
    have hbc' : ¬ c.confidence < b.confidence := by simpa [moreConfident] using hbc
    apply LawfulCFloat.not_le_of_lt hlt
    exact LawfulCFloat.le_trans (LawfulCFloat.le_of_not_lt (h b hb) (h a ha) hab')
      (LawfulCFloat.le_of_not_lt (h c hc) (h b hb) hbc')

theorem mem_foldl_keep {nmsThreshold : F} {boxes kept : List (DetectionBox F)} {b : DetectionBox F}
    (hb : b ∈ boxes.foldl (keep nmsThreshold) kept) : b ∈ kept ∨ b ∈ boxes := by
  induction boxes generalizing kept with
  | nil => exact .inl hb
  | cons a rest ih =>
      rcases ih hb with hkept | hrest
      · unfold keep at hkept
        split at hkept
        · exact .inl hkept
        · rcases List.mem_append.mp hkept with hkept | ha
          · exact .inl hkept
          · exact .inr (List.mem_cons.mpr (.inl (List.mem_singleton.mp ha)))
      · exact .inr (List.mem_cons_of_mem a hrest)

/-- Suppression adds no box. -/
theorem mem_nms [LawfulCFloat F] {std : StdSort (DetectionBox F)} {boxes : List (DetectionBox F)}
    {nmsThreshold : F} {b : DetectionBox F} (hnum : ∀ b ∈ boxes, CFloat.IsNumber b.confidence)
    (hb : b ∈ nms std boxes nmsThreshold) : b ∈ boxes := by
  have hperm := std.perm moreConfident boxes (moreConfident_strictWeakOn hnum)
  rcases mem_foldl_keep hb with hnil | hsorted
  · cases hnil
  · exact hperm.mem_iff.mp hsorted

end PostProcessor

open PostProcessor

/-! ## YOLOv5 -/

structure YoloPostProcessor (F : Type) [CFloat F] where
  confidenceThreshold : F := const 0.5
  nmsThreshold : F := const 0.45
  numClasses : Nat := 80
  inputWidth : Nat := 640
  inputHeight : Nat := 640

namespace YoloPostProcessor

variable {F : Type} [CFloat F]

def kAnchors : List (List ℚ) :=
  [[10, 13, 16, 30, 33, 23], [30, 61, 62, 45, 59, 119], [116, 90, 156, 198, 373, 326]]

def kNumAnchors : Nat := 3

/-- An anchor `a` at a cell of the grid of scale `s`. -/
structure Cell where
  s : Nat
  a : Nat
  y : Nat
  x : Nat

variable (p : YoloPostProcessor F)

def gridLen (s : Nat) : Int := int32 (grid p.inputHeight s * grid p.inputWidth s)

def propSize : Int := int32 (5 + int32 p.numClasses)

def expectedSize (s : Nat) : Int := int32 (p.gridLen s * kNumAnchors * p.propSize)

/-- Channel `c` of an anchor. -/
def channel (output : List F) (k : Cell) (c : Int) : F :=
  valueAt output (k.a * p.propSize * p.gridLen k.s + c * p.gridLen k.s +
    (k.y * grid p.inputWidth k.s + k.x))

def objConf (output : List F) (k : Cell) : F := p.channel output k 4

/-- The first class of largest score. -/
def bestClass (output : List F) (k : Cell) : Nat × F :=
  (List.range (int32 p.numClasses).toNat).foldl
    (fun best c =>
      let score := p.channel output k (5 + (c : Nat))
      if best.2 < score then (c, score) else best)
    (0, const (-1))

def confidence (output : List F) (k : Cell) : F := p.objConf output k * (p.bestClass output k).2

def decode (math : CMath F) (output : List F) (k : Cell) : DetectionBox F :=
  let stride : F := const (kStrides.getD k.s 1)
  let anchors := kAnchors.getD k.s []
  let bx := p.channel output k 0
  let by_ := p.channel output k 1
  let bw := p.channel output k 2
  let bh := p.channel output k 3
  let cx := (bx * const 2 - const 0.5 + const k.x) * stride
  let cy := (by_ * const 2 - const 0.5 + const k.y) * stride
  let w := math.pow (bw * const 2) (const 2) * const (anchors.getD (k.a * 2) 0)
  let h := math.pow (bh * const 2) (const 2) * const (anchors.getD (k.a * 2 + 1) 0)
  { classId := (p.bestClass output k).1
    className := className (p.bestClass output k).1
    confidence := p.confidence output k
    xMin := clamp ((cx - w / const 2) / const p.inputWidth)
    yMin := clamp ((cy - h / const 2) / const p.inputHeight)
    xMax := clamp ((cx + w / const 2) / const p.inputWidth)
    yMax := clamp ((cy + h / const 2) / const p.inputHeight) }

def candidate (math : CMath F) (output : List F) (k : Cell) : Option (DetectionBox F) :=
  if p.objConf output k < p.confidenceThreshold then none
  else if p.confidence output k < p.confidenceThreshold then none
  else some (p.decode math output k)

def cells (s : Nat) : List Cell :=
  (List.range kNumAnchors).flatMap fun a =>
    (List.range (grid p.inputHeight s).toNat).flatMap fun y =>
      (List.range (grid p.inputWidth s).toNat).map fun x => ⟨s, a, y, x⟩

/-- The cells that are decoded: those of the outputs that have the expected size. -/
def decodedCells (outputs : Tensors F) : List (List F × Cell) :=
  (List.range (Nat.min outputs.length 3)).flatMap fun s =>
    let output := outputs.getD s []
    if int32 output.length = p.expectedSize s then (p.cells s).map fun k => (output, k) else []

def candidates (math : CMath F) (outputs : Tensors F) : List (DetectionBox F) :=
  (p.decodedCells outputs).filterMap fun c => p.candidate math c.1 c.2

def process (math : CMath F) (std : StdSort (DetectionBox F)) (outputs : Tensors F) :
    List (DetectionBox F) :=
  if outputs.isEmpty then [] else nms std (p.candidates math outputs) p.nmsThreshold

/-- No anchor with enough objectness has a NaN for its confidence. -/
def NanFree (outputs : Tensors F) : Prop :=
  ∀ c ∈ p.decodedCells outputs, ¬ p.objConf c.1 c.2 < p.confidenceThreshold →
    CFloat.IsNumber (p.confidence c.1 c.2)

instance (outputs : Tensors F) : Decidable (p.NanFree outputs) :=
  inferInstanceAs (Decidable (∀ c ∈ p.decodedCells outputs,
    ¬ p.objConf c.1 c.2 < p.confidenceThreshold → CFloat.IsNumber (p.confidence c.1 c.2)))

variable {p}

/-- A candidate comes from an anchor whose confidence is not below the threshold. -/
theorem mem_candidates {math : CMath F} {outputs : Tensors F} {b : DetectionBox F}
    (hb : b ∈ p.candidates math outputs) :
    ∃ c ∈ p.decodedCells outputs, b.confidence = p.confidence c.1 c.2 ∧
      ¬ p.objConf c.1 c.2 < p.confidenceThreshold ∧
      ¬ p.confidence c.1 c.2 < p.confidenceThreshold := by
  obtain ⟨c, hc, hcand⟩ := List.mem_filterMap.mp hb
  unfold candidate at hcand
  split at hcand
  · cases hcand
  split at hcand
  · cases hcand
  next hobj hconf =>
    obtain rfl := Option.some.inj hcand
    exact ⟨c, hc, rfl, hobj, hconf⟩

/-- What is emitted reaches the threshold of this post-processor. -/
theorem process_confidence [LawfulCFloat F] {math : CMath F} {std : StdSort (DetectionBox F)}
    {outputs : Tensors F} {b : DetectionBox F} (hthr : CFloat.IsNumber p.confidenceThreshold)
    (hnan : p.NanFree outputs) (hb : b ∈ p.process math std outputs) :
    p.confidenceThreshold ≤ b.confidence := by
  have hcand : ∀ b ∈ p.candidates math outputs,
      CFloat.IsNumber b.confidence ∧ p.confidenceThreshold ≤ b.confidence := by
    intro b hb
    obtain ⟨c, hc, hconf, hobj, hthrough⟩ := mem_candidates hb
    have hnum := hnan c hc hobj
    rw [hconf]
    exact ⟨hnum, LawfulCFloat.le_of_not_lt hnum hthr hthrough⟩
  unfold process at hb
  split at hb
  · cases hb
  · exact (hcand b (mem_nms (fun b hb => (hcand b hb).1) hb)).2

end YoloPostProcessor

/-! ## YOLOv8 -/

structure Yolov8PostProcessor (F : Type) [CFloat F] where
  confidenceThreshold : F := const 0.5
  nmsThreshold : F := const 0.45
  numClasses : Nat := 80
  inputWidth : Nat := 640
  inputHeight : Nat := 640
  dflLen : Int := 16

namespace Yolov8PostProcessor

variable {F : Type} [CFloat F]

/-- Expected value of the softmax distribution of side `b`. -/
def computeDFL (math : CMath F) (tensor : Int → F) (dflLen : Int) (b : Nat) : F :=
  let expSum := (List.range dflLen.toNat).foldl
    (fun sum (i : Nat) => sum + math.exp (tensor (i + b * dflLen))) (const 0)
  (List.range dflLen.toNat).foldl
    (fun sum (i : Nat) => sum + math.exp (tensor (i + b * dflLen)) / expSum * const i) (const 0)

structure Cell where
  s : Nat
  i : Nat
  j : Nat

variable (p : Yolov8PostProcessor F)

def gridLen (s : Nat) : Int := int32 (grid p.inputHeight s * grid p.inputWidth s)

def offset (k : Cell) : Int := k.i * grid p.inputWidth k.s + k.j

def score (scores : List F) (k : Cell) (c : Nat) : F :=
  valueAt scores (c * p.gridLen k.s + p.offset k)

def betterClass (scores : List F) (k : Cell) (best : Option Nat × F) (c : Nat) : Option Nat × F :=
  if p.confidenceThreshold < p.score scores k c ∧ best.2 < p.score scores k c then
    (some c, p.score scores k c)
  else best

/-- The first class of largest score above the threshold and above zero. -/
def maxClass (scores : List F) (k : Cell) : Option Nat × F :=
  (List.range (int32 p.numClasses).toNat).foldl (p.betterClass scores k) (none, const 0)

def decode (math : CMath F) (boxes : List F) (k : Cell) (classId : Nat) (score : F) :
    DetectionBox F :=
  let beforeDfl (n : Int) : F := valueAt boxes (n * p.gridLen k.s + p.offset k)
  let box (b : Nat) : F := computeDFL math beforeDfl p.dflLen b
  let stride : F := const (kStrides.getD k.s 1)
  { classId := classId
    className := className classId
    confidence := score
    xMin := clamp ((-box 0 + const k.j + const 0.5) * stride / const p.inputWidth)
    yMin := clamp ((-box 1 + const k.i + const 0.5) * stride / const p.inputHeight)
    xMax := clamp ((box 2 + const k.j + const 0.5) * stride / const p.inputWidth)
    yMax := clamp ((box 3 + const k.i + const 0.5) * stride / const p.inputHeight) }

def candidate (math : CMath F) (boxes scores : List F) (k : Cell) : Option (DetectionBox F) :=
  (p.maxClass scores k).1.map fun c => p.decode math boxes k c (p.maxClass scores k).2

def cells (s : Nat) : List Cell :=
  (List.range (grid p.inputHeight s).toNat).flatMap fun i =>
    (List.range (grid p.inputWidth s).toNat).map fun j => ⟨s, i, j⟩

/-- The tensors of one scale, which are skipped when their sizes are not the expected ones. -/
def scaleCandidates (math : CMath F) (s : Nat) (boxes scores : List F) : List (DetectionBox F) :=
  if int32 boxes.length = int32 (p.dflLen * 4 * p.gridLen s) ∧
      int32 scores.length = int32 (int32 p.numClasses * p.gridLen s) then
    (p.cells s).filterMap fun k => p.candidate math boxes scores k
  else []

/-- Two tensors for each scale, or three of which the last is not used. -/
def outputsPerBranch (outputs : Tensors F) : Int := (int32 outputs.length).tdiv 3

def boxTensor (outputs : Tensors F) (s : Nat) : List F :=
  outputs.getD (s * outputsPerBranch outputs).toNat []

def scoreTensor (outputs : Tensors F) (s : Nat) : List F :=
  outputs.getD (s * outputsPerBranch outputs + 1).toNat []

def candidates (math : CMath F) (outputs : Tensors F) : List (DetectionBox F) :=
  (List.range 3).flatMap fun s =>
    p.scaleCandidates math s (boxTensor outputs s) (scoreTensor outputs s)

def process (math : CMath F) (std : StdSort (DetectionBox F)) (outputs : Tensors F) :
    List (DetectionBox F) :=
  if outputs.isEmpty || outputsPerBranch outputs < 2 then []
  else nms std (p.candidates math outputs) p.nmsThreshold

variable {p}

theorem foldl_betterClass {scores : List F} {k : Cell} {cs : List Nat} {best : Option Nat × F}
    (hbest : best.1.isSome = true → p.confidenceThreshold < best.2) :
    (cs.foldl (p.betterClass scores k) best).1.isSome = true →
      p.confidenceThreshold < (cs.foldl (p.betterClass scores k) best).2 := by
  induction cs generalizing best with
  | nil => exact hbest
  | cons c cs ih =>
      apply ih
      unfold betterClass
      split
      next hbetter => exact fun _ => hbetter.1
      next => exact hbest

theorem maxClass_above {scores : List F} {k : Cell} (h : (p.maxClass scores k).1.isSome = true) :
    p.confidenceThreshold < (p.maxClass scores k).2 := by
  apply foldl_betterClass ?_ h
  simp

theorem mem_scaleCandidates {math : CMath F} {s : Nat} {boxes scores : List F} {b : DetectionBox F}
    (hb : b ∈ p.scaleCandidates math s boxes scores) :
    ∃ k ∈ p.cells s, p.candidate math boxes scores k = some b := by
  unfold scaleCandidates at hb
  split at hb
  · exact List.mem_filterMap.mp hb
  · cases hb

theorem decode_confidence (math : CMath F) (boxes : List F) (k : Cell) (c : Nat) (score : F) :
    (p.decode math boxes k c score).confidence = score := rfl

/-- A candidate has a class whose score is above the threshold. -/
theorem mem_candidates {math : CMath F} {outputs : Tensors F} {b : DetectionBox F}
    (hb : b ∈ p.candidates math outputs) : p.confidenceThreshold < b.confidence := by
  obtain ⟨s, -, hb⟩ := List.mem_flatMap.mp hb
  obtain ⟨k, -, hcand⟩ := mem_scaleCandidates hb
  unfold candidate at hcand
  obtain ⟨c, hc, hdecode⟩ := Option.map_eq_some_iff.mp hcand
  rw [← hdecode, decode_confidence]
  exact maxClass_above (by rw [hc]; rfl)

theorem process_confidence [LawfulCFloat F] {math : CMath F} {std : StdSort (DetectionBox F)}
    {outputs : Tensors F} {b : DetectionBox F} (hb : b ∈ p.process math std outputs) :
    p.confidenceThreshold ≤ b.confidence := by
  unfold process at hb
  split at hb
  · cases hb
  · apply LawfulCFloat.le_of_lt
    refine mem_candidates (mem_nms ?_ hb)
    intro b hb
    exact (LawfulCFloat.isNumber_of_lt (mem_candidates hb)).2

end Yolov8PostProcessor
