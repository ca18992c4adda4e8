-- SUMMARY: What the cascade reads of the frame: exactly when all of it is inside, with single-precision coordinates.
import NeuroPipeline.Lib.CheckedInt
import NeuroPipeline.Lib.Rounding
import NeuroPipeline.Edge.CascadeMapping

/-!
# Reads of the frame

`ProcessFrame` copies the input of the light model from the frame as a square of the
model's own size, and samples the crops from it in rows of the frame's width. The reads
are uses of indices, in the integers of the source; an overflow makes a use invalid.
-/

open CFloat (const)
open HasValue (value)

namespace ModelCascade

/-! ## The reads of the source -/

/-- The conversion to `int`, which is undefined for a number that does not fit. -/
def converted (x : Binary32) : CheckedInt :=
  match value x with
  | some q => .of (truncate q)
  | none => ⟨0, false⟩

def toInt (x : Binary32) : Int := (converted x).value

/-- The copy into the input buffer of the light model. -/
def lightReads (inputWidth frameSize : Nat) : List IntUse :=
  let modelSize := int32 inputWidth
  .computed (.of modelSize * .of modelSize * .of 3) ::
    (List.range (modelSize * modelSize * 3).toNat).map fun i : Nat => .index (.of i) frameSize

/-- The column or row of the frame for one of the crop. -/
def sourceCoordinate (size first last targetSize : Int) (d : Nat) : CheckedInt :=
  let scale : Binary32 := const (last - first : Int) / const targetSize
  (CheckedInt.of first + converted (const d * scale)).minimum (.of (size - 1))

def srcIdx (frameWidth frameHeight : Int) (r : PixelRect) (targetSize : Int) (dx dy : Nat) :
    CheckedInt :=
  (sourceCoordinate frameHeight r.y1 r.y2 targetSize dy * .of frameWidth +
    sourceCoordinate frameWidth r.x1 r.x2 targetSize dx) * .of 3

def dstIdx (targetSize : Int) (dx dy : Nat) : CheckedInt :=
  (.of dy * .of targetSize + .of dx) * .of 3

/-- The three assignments for one pixel of the crop. -/
def sampleReads (frameSize : Nat) (frameWidth frameHeight : Int) (r : PixelRect)
    (targetSize : Int) (dx dy : Nat) : List IntUse :=
  [0, 1, 2].flatMap fun channel =>
    [.index (srcIdx frameWidth frameHeight r targetSize dx dy + .of channel) frameSize,
      .index (dstIdx targetSize dx dy + .of channel) (targetSize * targetSize * 3).toNat]

variable (config : CascadeConfig Binary32)

/-- The four ends of the padded region, before they are cut off at the frame. -/
def paddedEnds (frameWidth frameHeight : Int) (roi : DetectionBox Binary32) : List Binary32 :=
  [roi.xMin * const frameWidth * (const 1 - config.roiPadding),
    roi.yMin * const frameHeight * (const 1 - config.roiPadding),
    roi.xMax * const frameWidth * (const 1 + config.roiPadding),
    roi.yMax * const frameHeight * (const 1 + config.roiPadding)]

def cropReads (frameSize : Nat) (frameWidth frameHeight : Int) (roi : DetectionBox Binary32)
    (targetSize : Int) : List IntUse :=
  let r := cropBounds config toInt frameWidth frameHeight roi
  (paddedEnds config frameWidth frameHeight roi).map (fun x => .computed (converted x)) ++
    .computed (.of (r.x2 - r.x1)) :: .computed (.of (r.y2 - r.y1)) ::
    if r.x2 - r.x1 ≤ 0 ∨ r.y2 - r.y1 ≤ 0 then []
    else
      .computed (.of targetSize * .of targetSize * .of 3) ::
        (List.range targetSize.toNat).flatMap fun dy =>
          (List.range targetSize.toNat).flatMap fun dx =>
            sampleReads frameSize frameWidth frameHeight r targetSize dx dy

/-- The detections that `CropResizeROI` is called with, from one on. -/
def croppedFrom (frame : List UInt8) (frameWidth frameHeight modelSize : Int) :
    Int → List (DetectionBox Binary32) → List (DetectionBox Binary32)
  | _, [] => []
  | roiCount, det :: rest =>
    if config.maxCascadePerFrame ≤ roiCount then []
    else if !targeted config det then
      croppedFrom frame frameWidth frameHeight modelSize roiCount rest
    else if det.confidence < config.minConfidence ∨ config.maxConfidence ≤ det.confidence then
      croppedFrom frame frameWidth frameHeight modelSize roiCount rest
    else
      let roi := cropResizeROI config toInt frame frameWidth frameHeight det modelSize
      det :: croppedFrom frame frameWidth frameHeight modelSize
        (if roi.isEmpty then roiCount else roiCount + 1) rest

def cropped (frame : List UInt8) (frameWidth frameHeight : Int)
    (light heavy : CascadeModel Binary32) : List (DetectionBox Binary32) :=
  let lightDets := lightDetections light frame
  if !shouldCascade config lightDets then []
  else croppedFrom config frame frameWidth frameHeight (int32 heavy.inputWidth) 0 lightDets

def frameReads (frame : List UInt8) (frameWidth frameHeight : Int)
    (light heavy : Option (CascadeModel Binary32)) : List IntUse :=
  match light with
  | none => []
  | some lightSlot =>
    lightReads lightSlot.inputWidth frame.length ++
      match heavy with
      | none => []
      | some heavySlot =>
        (cropped config frame frameWidth frameHeight lightSlot heavySlot).flatMap fun det =>
          cropReads config frame.length frameWidth frameHeight det (int32 heavySlot.inputWidth)

/-! ### The reads and the crops -/

variable {config}
variable {frame : List UInt8} {frameWidth frameHeight targetSize roiCount : Int}

/-- A sample is made of the bytes at the indices. -/
theorem sample_eq (r : PixelRect) (dx dy : Nat) :
    sample toInt frame frameWidth frameHeight r targetSize dx dy =
      [0, 1, 2].map fun channel => frame.getD
        (srcIdx frameWidth frameHeight r targetSize dx dy + .of channel).value.toNat 0 := by
  simp [sample, srcIdx, sourceCoordinate, toInt]

/-- The crops that are not empty are those of the cascade. -/
theorem extractFrom_eq (dets : List (DetectionBox Binary32)) :
    extractFrom config toInt frame frameWidth frameHeight targetSize roiCount dets =
      ((croppedFrom config frame frameWidth frameHeight targetSize roiCount dets).map
        fun det => (det, cropResizeROI config toInt frame frameWidth frameHeight det
          targetSize)).filter fun crop => !crop.2.isEmpty := by
  induction dets generalizing roiCount with
  | nil => rfl
  | cons det rest ih =>
      rw [extractFrom, croppedFrom]
      split
      · rfl
      split
      · exact ih
      split
      · exact ih
      dsimp only
      split
      · next hempty => simp [hempty, ih]
      · next hsome => simp [hsome, ih]

/-! ## Single-precision numbers -/

theorem represents_two_pow {k : Int} (hmin : -149 ≤ k) (hmax : k ≤ 104) :
    FloatFormat.binary32.Represents (2 ^ k) :=
  ⟨1, k, by decide, hmin, hmax, by norm_num⟩

theorem represents_limit : FloatFormat.binary32.Represents (2 ^ 31) := by
  exact_mod_cast represents_two_pow (k := 31) (by decide) (by decide)

theorem represents_int {n : Int} (hn : |n| < 2 ^ 24) : FloatFormat.binary32.Represents n :=
  BinaryFloat.represents_intCast hn (by decide) (by decide)

theorem value_const_int {n : Int} (hn : |n| < 2 ^ 24) :
    value (const (n : ℚ) : Binary32) = some (n : ℚ) :=
  BinaryFloat.value_round_of_represents (represents_int hn)

theorem value_const_zero : value (const 0 : Binary32) = some 0 := by
  exact_mod_cast value_const_int (n := 0) (by decide)

theorem value_const_one : value (const 1 : Binary32) = some 1 := by
  exact_mod_cast value_const_int (n := 1) (by decide)

theorem value_const_limit : value (const (2 ^ 31) : Binary32) = some (2 ^ 31) :=
  BinaryFloat.value_round_of_represents represents_limit

/-- A number from zero to one. -/
def InUnitInterval (x : Binary32) : Prop := const 0 ≤ x ∧ x ≤ const 1

theorem InUnitInterval.exists_value {x : Binary32} (h : InUnitInterval x) :
    ∃ q, value x = some q ∧ 0 ≤ q ∧ q ≤ 1 :=
  BinaryFloat.value_of_between value_const_zero value_const_one h.1 h.2

variable {x y : Binary32} {q : ℚ}

theorem converted_of_value (hx : value x = some q) (hq : 0 ≤ q) : converted x = .of ⌊q⌋ := by
  rw [converted, hx]
  exact congrArg CheckedInt.of (truncate_of_nonneg hq)

theorem toInt_of_value (hx : value x = some q) (hq : 0 ≤ q) : toInt x = ⌊q⌋ := by
  rw [toInt, converted_of_value hx hq, CheckedInt.value_of]

/-- A number that is not negative has a value in the type if it is below the limit. -/
theorem converted_defined_iff (hx : value x = some q) (hq : 0 ≤ q) :
    (converted x).Defined ↔ x < const (2 ^ 31) := by
  have hlimit : ⌊q⌋ < 2 ^ 31 ↔ q < 2 ^ 31 := by
    rw [Int.floor_lt]
    norm_num
  have hfits : Fits ⌊q⌋ ↔ ⌊q⌋ < 2 ^ 31 := by
    have hfloor := Int.floor_nonneg.mpr hq
    exact and_iff_right (by omega)
  rw [converted_of_value hx hq, CheckedInt.defined_of, hfits, hlimit,
    BinaryFloat.lt_iff_of_value hx value_const_limit]

/-! ### The ends of a region -/

/-- An end of a region on an axis whose size has the bound `bound`. -/
theorem value_end {size : Int} {c bound : ℚ} (hx : InUnitInterval x) (hsize : 0 ≤ size)
    (hbound : (size : ℚ) ≤ bound) (hrepresents : FloatFormat.binary32.Represents bound)
    (hdouble : FloatFormat.binary32.Represents (bound * 2)) (hy : value y = some c)
    (hc₀ : 0 ≤ c) (hc₂ : c ≤ 2) :
    ∃ q, value (x * const (size : ℚ) * y) = some q ∧ 0 ≤ q ∧ q ≤ bound * 2 := by
  obtain ⟨a, ha, ha₀, ha₁⟩ := hx.exists_value
  have hsizeRat : (0 : ℚ) ≤ size := by exact_mod_cast hsize
  obtain ⟨width, hwidth, hwidth₀, hwidth₁⟩ : ∃ width, value (const (size : ℚ) : Binary32) =
      some width ∧ 0 ≤ width ∧ width ≤ bound :=
    BinaryFloat.exists_value_round (by exact_mod_cast hsize) hbound hrepresents
  obtain ⟨product, hproduct, hproduct₀, hproduct₁⟩ : ∃ product, value (x * const (size : ℚ)) =
      some product ∧ 0 ≤ product ∧ product ≤ bound := by
    rw [BinaryFloat.mul_eq_round ha hwidth]
    exact BinaryFloat.exists_value_round (mul_nonneg ha₀ hwidth₀)
      ((mul_le_of_le_one_left hwidth₀ ha₁).trans hwidth₁) hrepresents
  rw [BinaryFloat.mul_eq_round hproduct hy]
  exact BinaryFloat.exists_value_round (mul_nonneg hproduct₀ hc₀)
    (mul_le_mul hproduct₁ hc₂ hc₀ (hproduct₀.trans hproduct₁)) hdouble

/-- One less a padding, and one more. -/
theorem value_factors (hx : InUnitInterval x) :
    (∃ c, value (const 1 - x) = some c ∧ 0 ≤ c ∧ c ≤ 2) ∧
      ∃ c, value (const 1 + x) = some c ∧ 0 ≤ c ∧ c ≤ 2 := by
  obtain ⟨a, ha, ha₀, ha₁⟩ := hx.exists_value
  have htwo : FloatFormat.binary32.Represents 2 := by
    exact_mod_cast represents_int (n := 2) (by decide)
  constructor
  · rw [BinaryFloat.sub_eq_round value_const_one ha]
    exact BinaryFloat.exists_value_round (by linarith) (by linarith) htwo
  · rw [BinaryFloat.add_eq_round value_const_one ha]
    exact BinaryFloat.exists_value_round (by linarith) (by linarith) htwo

/-! ### The offset of a sample -/

/-- Numbers that are not tiny are rounded by a small part of themselves. -/
theorem roundedValue_bounds (hq : 1 / 2 ^ 20 ≤ q) :
    q * (1 - 1 / 2 ^ 24) ≤ BinaryFloat.roundedValue .binary32 q ∧
      BinaryFloat.roundedValue .binary32 q ≤ q * (1 + 1 / 2 ^ 24) := by
  have htiny : (2 : ℚ) ^ (FloatFormat.binary32.minExp + FloatFormat.binary32.precision - 1) ≤ q :=
    le_trans (by norm_num [FloatFormat.binary32]) hq
  obtain ⟨hlo, hhi⟩ := abs_le.mp (BinaryFloat.abs_roundedValue_sub_le htiny)
  have hdigits : q / 2 ^ FloatFormat.binary32.precision = q * (1 / 2 ^ 24) := by
    rw [mul_one_div]
    rfl
  rw [hdigits] at hlo hhi
  constructor <;> linarith

/-- The number of pixels of the frame for each pixel of the crop. -/
def scale (size targetSize : Int) : ℚ :=
  BinaryFloat.roundedValue .binary32 (BinaryFloat.roundedValue .binary32 size / targetSize)

def offset (size targetSize : Int) (d : Nat) : ℚ :=
  BinaryFloat.roundedValue .binary32 (d * scale size targetSize)

/-- An axis of a crop: `size` pixels of the frame are sampled `targetSize` times, and the crop is
a square whose bytes can be counted. -/
structure Sampled (size targetSize : Int) : Prop where
  size_pos : 0 < size
  size_lt : size < 2 ^ 31
  target_pos : 0 < targetSize
  square : 3 * (targetSize * targetSize) < 2 ^ 31

namespace Sampled

variable {size : Int} {d d' : Nat}

theorem target_lt (h : Sampled size targetSize) : targetSize < 2 ^ 15 := by
  by_contra hge
  have hle : (2 : Int) ^ 15 * 2 ^ 15 ≤ targetSize * targetSize :=
    Int.mul_le_mul (not_lt.mp hge) (not_lt.mp hge) (by decide) h.target_pos.le
  have hsquare := h.square
  omega

theorem size_bounds (h : Sampled size targetSize) : (1 : ℚ) ≤ size ∧ (size : ℚ) ≤ 2 ^ 31 :=
  ⟨by exact_mod_cast h.size_pos, by exact_mod_cast h.size_lt.le⟩

theorem target_bounds (h : Sampled size targetSize) :
    (1 : ℚ) ≤ targetSize ∧ (targetSize : ℚ) ≤ 2 ^ 15 :=
  ⟨by exact_mod_cast h.target_pos, by exact_mod_cast h.target_lt.le⟩

theorem scale_nonneg (h : Sampled size targetSize) : 0 ≤ scale size targetSize := by
  have hsize := h.size_bounds
  have htarget := h.target_bounds
  exact BinaryFloat.roundedValue_nonneg (div_nonneg (BinaryFloat.roundedValue_nonneg
    (by linarith)) (by linarith))

theorem scale_le (h : Sampled size targetSize) : scale size targetSize ≤ 2 ^ 31 := by
  have hsize := h.size_bounds
  have htarget := h.target_bounds
  have hwidth := BinaryFloat.roundedValue_nonneg (f := .binary32) (q := size) (by linarith)
  refine BinaryFloat.roundedValue_le (div_nonneg hwidth (by linarith)) ?_ represents_limit
  exact (div_le_self hwidth htarget.1).trans
    (BinaryFloat.roundedValue_le (by linarith) hsize.2 represents_limit)

/-- What the source computes, with `d` one of the columns of the crop. -/
theorem value_offset (h : Sampled size targetSize) (hd : d < targetSize) :
    value (const (d : ℚ) * (const (size : ℚ) / const (targetSize : ℚ)) : Binary32) =
      some (offset size targetSize d) := by
  have hsize := h.size_bounds
  have htarget := h.target_bounds
  have hlt := h.target_lt
  have hlarge : FloatFormat.binary32.Represents (2 ^ 46) := by
    exact_mod_cast represents_two_pow (k := 46) (by decide) (by decide)
  have hwidth : value (const (size : ℚ) : Binary32) =
      some (BinaryFloat.roundedValue .binary32 size) :=
    BinaryFloat.value_round_of_le (by linarith) hsize.2 represents_limit
  have hsquare : value (const (targetSize : ℚ) : Binary32) = some (targetSize : ℚ) :=
    value_const_int (abs_lt.mpr (by omega))
  have hcolumn : value (const (d : ℚ) : Binary32) = some (d : ℚ) := by
    exact_mod_cast value_const_int (n := d) (abs_lt.mpr (by omega))
  have hwidth₀ := BinaryFloat.roundedValue_nonneg (f := .binary32) (q := size) (by linarith)
  have hquotient : value (const (size : ℚ) / const (targetSize : ℚ) : Binary32) =
      some (scale size targetSize) := by
    rw [BinaryFloat.div_eq_round hwidth hsquare (by linarith)]
    refine BinaryFloat.value_round_of_le (div_nonneg hwidth₀ (by linarith)) ?_ represents_limit
    exact (div_le_self hwidth₀ htarget.1).trans
      (BinaryFloat.roundedValue_le (by linarith) hsize.2 represents_limit)
  have hdRat : (d : ℚ) ≤ 2 ^ 15 := by
    have hd' : (d : Int) ≤ 2 ^ 15 := by omega
    exact_mod_cast hd'
  rw [BinaryFloat.mul_eq_round hcolumn hquotient]
  refine BinaryFloat.value_round_of_le (mul_nonneg (Nat.cast_nonneg d) h.scale_nonneg) ?_ hlarge
  calc (d : ℚ) * scale size targetSize ≤ 2 ^ 15 * 2 ^ 31 :=
        mul_le_mul hdRat h.scale_le h.scale_nonneg (by norm_num)
    _ = 2 ^ 46 := by norm_num

theorem offset_nonneg (h : Sampled size targetSize) (d : Nat) : 0 ≤ offset size targetSize d :=
  BinaryFloat.roundedValue_nonneg (mul_nonneg (Nat.cast_nonneg d) h.scale_nonneg)

theorem offset_mono (h : Sampled size targetSize) (hd : d ≤ d') :
    offset size targetSize d ≤ offset size targetSize d' :=
  BinaryFloat.roundedValue_mono (mul_nonneg (Nat.cast_nonneg d) h.scale_nonneg)
    (mul_le_mul_of_nonneg_right (by exact_mod_cast hd) h.scale_nonneg)

theorem scale_bounds (h : Sampled size targetSize) : 1 / 2 ^ 17 ≤ scale size targetSize ∧
    scale size targetSize ≤ size / targetSize * (1 + 1 / 2 ^ 24) ^ 2 := by
  have hsize := h.size_bounds
  have htarget := h.target_bounds
  have hpos : (0 : ℚ) < targetSize := by linarith
  obtain ⟨hlo, hhi⟩ := roundedValue_bounds (q := (size : ℚ)) (by linarith)
  have hwidth : 1 / 2 ≤ BinaryFloat.roundedValue .binary32 size := by linarith
  have hquotient : 1 / 2 ^ 16 ≤ BinaryFloat.roundedValue .binary32 size / targetSize := by
    rw [le_div_iff₀ hpos]
    linarith
  obtain ⟨hlo', hhi'⟩ :=
    roundedValue_bounds (le_trans (by norm_num : (1 : ℚ) / 2 ^ 20 ≤ 1 / 2 ^ 16) hquotient)
  constructor
  · rw [scale]
    linarith
  · calc scale size targetSize
        ≤ BinaryFloat.roundedValue .binary32 size / targetSize * (1 + 1 / 2 ^ 24) := hhi'
      _ ≤ size * (1 + 1 / 2 ^ 24) / targetSize * (1 + 1 / 2 ^ 24) := by
          refine mul_le_mul_of_nonneg_right ?_ (by norm_num)
          exact div_le_div_of_nonneg_right hhi hpos.le
      _ = size / targetSize * (1 + 1 / 2 ^ 24) ^ 2 := by ring

/-- Three roundings do not carry the last column to the end of the axis: of `targetSize`
columns it is one column away. -/
theorem offset_lt (h : Sampled size targetSize) (hd : d < targetSize) :
    offset size targetSize d < size := by
  have hsize := h.size_bounds
  have htarget := h.target_bounds
  have hpos : (0 : ℚ) < targetSize := by linarith
  obtain ⟨hlo, hhi⟩ := h.scale_bounds
  rcases Nat.eq_zero_or_pos d with rfl | hfirst
  · have hzero : offset size targetSize 0 = 0 := by
      rw [offset, Nat.cast_zero, zero_mul]
      exact BinaryFloat.roundedValue_of_represents (FloatFormat.represents_zero _)
    linarith
  have hd₁ : (1 : ℚ) ≤ d := by exact_mod_cast hfirst
  have hd₂ : (d : ℚ) ≤ targetSize - 1 := by
    have hle : (d : Int) ≤ targetSize - 1 := by omega
    exact_mod_cast hle
  have hproduct : 1 / 2 ^ 17 ≤ (d : ℚ) * scale size targetSize :=
    hlo.trans (le_mul_of_one_le_left h.scale_nonneg hd₁)
  obtain ⟨-, hround⟩ :=
    roundedValue_bounds (le_trans (by norm_num : (1 : ℚ) / 2 ^ 20 ≤ 1 / 2 ^ 17) hproduct)
  have hcolumns : (d : ℚ) * (1 + 1 / 2 ^ 24) ^ 3 < targetSize := by
    have hcube : ((1 : ℚ) + 1 / 2 ^ 24) ^ 3 ≤ 1 + 1 / 2 ^ 20 := by norm_num
    have hle := mul_le_mul hd₂ hcube (by norm_num) (by linarith)
    linarith
  calc offset size targetSize d
      ≤ d * scale size targetSize * (1 + 1 / 2 ^ 24) := hround
    _ ≤ d * (size / targetSize * (1 + 1 / 2 ^ 24) ^ 2) * (1 + 1 / 2 ^ 24) := by
        refine mul_le_mul_of_nonneg_right ?_ (by norm_num)
        exact mul_le_mul_of_nonneg_left hhi (Nat.cast_nonneg d)
    _ = size / targetSize * (d * (1 + 1 / 2 ^ 24) ^ 3) := by ring
    _ < size / targetSize * targetSize :=
        mul_lt_mul_of_pos_left hcolumns (div_pos (by linarith) hpos)
    _ = size := div_mul_cancel₀ _ hpos.ne'

end Sampled

/-! ## The reads of a crop -/

/-- The last column or row that a crop takes from the frame. -/
def lastSample (first last targetSize : Int) : Int :=
  first + toInt (const (targetSize - 1 : Int) * (const (last - first : Int) / const targetSize))

/-- What the pixel `d` of the crop is taken from, before the source clamps it. -/
def sampled (first last targetSize : Int) (d : Nat) : Int :=
  first + ⌊offset (last - first) targetSize d⌋

section

variable {size first last : Int} {d d' : Nat}

theorem sampled_bounds (h : Sampled (last - first) targetSize) (hd : d < targetSize) :
    first ≤ sampled first last targetSize d ∧ sampled first last targetSize d < last := by
  have hnonneg := Int.floor_nonneg.mpr (h.offset_nonneg d)
  have hlt : ⌊offset (last - first) targetSize d⌋ < last - first :=
    Int.floor_lt.mpr (h.offset_lt hd)
  rw [sampled]
  omega

theorem sampled_mono (h : Sampled (last - first) targetSize) (hd : d ≤ d') :
    sampled first last targetSize d ≤ sampled first last targetSize d' :=
  Int.add_le_add_left (Int.floor_mono (h.offset_mono hd)) first

theorem lastSample_eq (h : Sampled (last - first) targetSize) :
    lastSample first last targetSize = sampled first last targetSize (targetSize - 1).toNat := by
  have htarget := h.target_pos
  have hcast : (((targetSize - 1).toNat : Nat) : ℚ) = ((targetSize - 1 : Int) : ℚ) := by
    exact_mod_cast Int.toNat_of_nonneg (by omega : 0 ≤ targetSize - 1)
  have hvalue := h.value_offset (d := (targetSize - 1).toNat) (by omega)
  rw [hcast] at hvalue
  rw [lastSample, toInt_of_value hvalue (h.offset_nonneg _), sampled]

/-- The clamp of the source changes nothing. -/
theorem sourceCoordinate_spec (h : Sampled (last - first) targetSize) (hfirst : 0 ≤ first)
    (hlast : last ≤ size) (hsize : Fits size) (hd : d < targetSize) :
    (sourceCoordinate size first last targetSize d).Defined ∧
      (sourceCoordinate size first last targetSize d).value =
        sampled first last targetSize d := by
  have hbounds := sampled_bounds h hd
  have hvalue := converted_of_value (h.value_offset hd) (h.offset_nonneg d)
  have hfloor : sampled first last targetSize d =
      first + ⌊offset (last - first) targetSize d⌋ := rfl
  have hnonneg := Int.floor_nonneg.mpr (h.offset_nonneg d)
  rw [Fits] at hsize
  rw [sourceCoordinate, hvalue]
  constructor
  · simp only [CheckedInt.defined_minimum, CheckedInt.defined_add, CheckedInt.defined_of,
      CheckedInt.value_of, Fits]
    omega
  · simp only [CheckedInt.value_minimum, CheckedInt.value_add, CheckedInt.value_of]
    omega

end

/-- A rectangle inside the frame that is not empty. -/
structure InFrame (frameWidth frameHeight : Int) (r : PixelRect) : Prop where
  x1_nonneg : 0 ≤ r.x1
  y1_nonneg : 0 ≤ r.y1
  x2_le : r.x2 ≤ frameWidth
  y2_le : r.y2 ≤ frameHeight
  x_lt : r.x1 < r.x2
  y_lt : r.y1 < r.y2

section

variable {r : PixelRect} {frameSize : Nat} {dx dy : Nat}

theorem dstIdx_valid (channel : Int) (hsquare : 3 * (targetSize * targetSize) < 2 ^ 31)
    (hx : dx < targetSize) (hy : dy < targetSize) (h₀ : 0 ≤ channel) (h₂ : channel ≤ 2) :
    (IntUse.index (dstIdx targetSize dx dy + .of channel)
      (targetSize * targetSize * 3).toNat).Valid := by
  obtain ⟨hlo, hhi⟩ := row_bounds (Int.natCast_nonneg dy) hy (Int.natCast_nonneg dx) hx
  have hrow : (0 : Int) ≤ dy * targetSize :=
    Int.mul_nonneg (Int.natCast_nonneg dy) (by omega)
  have hself : targetSize ≤ targetSize * targetSize := by nlinarith
  simp only [IntUse.Valid, dstIdx, CheckedInt.defined_add, CheckedInt.defined_mul,
    CheckedInt.defined_of, CheckedInt.value_add, CheckedInt.value_mul, CheckedInt.value_of, Fits]
  omega

theorem srcIdx_valid_iff (channel : Int) (hr : InFrame frameWidth frameHeight r)
    (hwidth : Fits frameWidth) (hheight : Fits frameHeight) (hsize : (frameSize : Int) = frameWidth * frameHeight * 3)
    (hX : Sampled (r.x2 - r.x1) targetSize) (hY : Sampled (r.y2 - r.y1) targetSize)
    (hx : dx < targetSize) (hy : dy < targetSize) (h₀ : 0 ≤ channel) (h₂ : channel ≤ 2) :
    (IntUse.index (srcIdx frameWidth frameHeight r targetSize dx dy + .of channel)
      frameSize).Valid ↔
      3 * (sampled r.y1 r.y2 targetSize dy * frameWidth + sampled r.x1 r.x2 targetSize dx) +
        channel < 2 ^ 31 := by
  obtain ⟨hcolumn, hcolumnEq⟩ := sourceCoordinate_spec hX hr.x1_nonneg hr.x2_le hwidth hx
  obtain ⟨hrow, hrowEq⟩ := sourceCoordinate_spec hY hr.y1_nonneg hr.y2_le hheight hy
  obtain ⟨hcolumn₀, hcolumn₁⟩ := sampled_bounds hX hx
  obtain ⟨hrow₀, hrow₁⟩ := sampled_bounds hY hy
  have hx₀ := hr.x1_nonneg
  have hy₀ := hr.y1_nonneg
  obtain ⟨hpixel₀, hpixel₁⟩ := row_bounds (hy₀.trans hrow₀) (hrow₁.trans_le hr.y2_le)
    (hx₀.trans hcolumn₀) (hcolumn₁.trans_le hr.x2_le)
  have hstart : 0 ≤ sampled r.y1 r.y2 targetSize dy * frameWidth :=
    Int.mul_nonneg (hy₀.trans hrow₀) (hx₀.trans (hr.x_lt.le.trans hr.x2_le))
  have hcommute : frameWidth * frameHeight = frameHeight * frameWidth := Int.mul_comm _ _
  simp only [IntUse.Valid, srcIdx, CheckedInt.defined_add, CheckedInt.defined_mul,
    CheckedInt.defined_of, CheckedInt.value_add, CheckedInt.value_mul, CheckedInt.value_of,
    hcolumn, hrow, hcolumnEq, hrowEq, hwidth, hsize, hcommute, true_and]
  generalize sampled r.y1 r.y2 targetSize dy * frameWidth = start at *
  generalize frameHeight * frameWidth = pixels at *
  simp only [Fits]
  omega

theorem sampleReads_valid_iff (hr : InFrame frameWidth frameHeight r) (hwidth : Fits frameWidth)
    (hheight : Fits frameHeight) (hsize : (frameSize : Int) = frameWidth * frameHeight * 3)
    (hX : Sampled (r.x2 - r.x1) targetSize) (hY : Sampled (r.y2 - r.y1) targetSize)
    (hx : dx < targetSize) (hy : dy < targetSize) :
    (∀ u ∈ sampleReads frameSize frameWidth frameHeight r targetSize dx dy, u.Valid) ↔
      3 * (sampled r.y1 r.y2 targetSize dy * frameWidth + sampled r.x1 r.x2 targetSize dx) + 2 <
        2 ^ 31 := by
  have hsource := fun channel => srcIdx_valid_iff channel hr hwidth hheight hsize hX hY hx hy
  have htarget := fun channel => dstIdx_valid channel hX.square hx hy
  simp only [sampleReads, List.flatMap_cons, List.flatMap_nil, List.forall_mem_append,
    List.forall_mem_cons, List.not_mem_nil, false_imp_iff, implies_true, and_true]
  constructor
  · rintro ⟨⟨-, -⟩, ⟨-, -⟩, hlast, -⟩
    exact (hsource 2 (by decide) (by decide)).mp hlast
  · intro hlast
    exact ⟨⟨(hsource 0 (by decide) (by decide)).mpr (by omega), htarget 0 (by decide) (by decide)⟩,
      ⟨(hsource 1 (by decide) (by decide)).mpr (by omega), htarget 1 (by decide) (by decide)⟩,
      (hsource 2 (by decide) (by decide)).mpr hlast, htarget 2 (by decide) (by decide)⟩

/-- The last pixel of the crop has the largest index. -/
theorem samples_valid_iff (hr : InFrame frameWidth frameHeight r) (hwidth : Fits frameWidth)
    (hheight : Fits frameHeight) (hsize : (frameSize : Int) = frameWidth * frameHeight * 3)
    (hsquare : 3 * (targetSize * targetSize) < 2 ^ 31) :
    (∀ u ∈ (List.range targetSize.toNat).flatMap fun dy =>
        (List.range targetSize.toNat).flatMap fun dx =>
          sampleReads frameSize frameWidth frameHeight r targetSize dx dy, u.Valid) ↔
      (0 < targetSize → 3 * (lastSample r.y1 r.y2 targetSize * frameWidth +
        lastSample r.x1 r.x2 targetSize) + 2 < 2 ^ 31) := by
  have hx₀ := hr.x1_nonneg
  have hy₀ := hr.y1_nonneg
  have hx₁ := hr.x_lt
  have hy₁ := hr.y_lt
  have hx₂ := hr.x2_le
  have hy₂ := hr.y2_le
  rcases le_or_gt targetSize 0 with hempty | htarget
  · have hnone : targetSize.toNat = 0 := Int.toNat_of_nonpos hempty
    simp [hnone, not_lt.mpr hempty]
  have hX : Sampled (r.x2 - r.x1) targetSize :=
    ⟨by omega, by have := hwidth.2; omega, htarget, hsquare⟩
  have hY : Sampled (r.y2 - r.y1) targetSize :=
    ⟨by omega, by have := hheight.2; omega, htarget, hsquare⟩
  have hsamples := fun (dx dy : Nat) (hx : dx < targetSize) (hy : dy < targetSize) =>
    sampleReads_valid_iff hr hwidth hheight hsize hX hY hx hy
  rw [lastSample_eq hX, lastSample_eq hY]
  simp only [List.forall_mem_flatMap, List.mem_range, htarget, true_imp_iff]
  constructor
  · intro hall
    exact (hsamples _ _ (by omega) (by omega)).mp
      (hall (targetSize - 1).toNat (by omega) (targetSize - 1).toNat (by omega))
  · -- later rows and later columns of the crop have larger indices in the frame
    intro hlast dy hdy dx hdx
    refine (hsamples dx dy (by omega) (by omega)).mpr ?_
    have hrow : sampled r.y1 r.y2 targetSize dy ≤
        sampled r.y1 r.y2 targetSize (targetSize - 1).toNat := sampled_mono hY (by omega)
    have hcolumn : sampled r.x1 r.x2 targetSize dx ≤
        sampled r.x1 r.x2 targetSize (targetSize - 1).toNat := sampled_mono hX (by omega)
    have hrows := Int.mul_le_mul_of_nonneg_right hrow (by omega : 0 ≤ frameWidth)
    omega

end

/-! ### One crop -/

/-- A box in the unit square. -/
structure OnFrame (b : DetectionBox Binary32) : Prop where
  xMin : InUnitInterval b.xMin
  yMin : InUnitInterval b.yMin
  xMax : InUnitInterval b.xMax
  yMax : InUnitInterval b.yMax

/-- Nothing overflows: the ends of the padded region, the number of bytes of the crop, and the
index of the last byte that it takes from the frame. -/
structure CropFits (config : CascadeConfig Binary32) (frameWidth frameHeight : Int)
    (roi : DetectionBox Binary32) (targetSize : Int) : Prop where
  ends : ∀ x ∈ paddedEnds config frameWidth frameHeight roi, x < const (2 ^ 31)
  square : (cropBounds config toInt frameWidth frameHeight roi).x1 <
      (cropBounds config toInt frameWidth frameHeight roi).x2 →
    (cropBounds config toInt frameWidth frameHeight roi).y1 <
      (cropBounds config toInt frameWidth frameHeight roi).y2 →
    3 * (targetSize * targetSize) < 2 ^ 31
  last : (cropBounds config toInt frameWidth frameHeight roi).x1 <
      (cropBounds config toInt frameWidth frameHeight roi).x2 →
    (cropBounds config toInt frameWidth frameHeight roi).y1 <
      (cropBounds config toInt frameWidth frameHeight roi).y2 →
    0 < targetSize →
    3 * (lastSample (cropBounds config toInt frameWidth frameHeight roi).y1
        (cropBounds config toInt frameWidth frameHeight roi).y2 targetSize * frameWidth +
      lastSample (cropBounds config toInt frameWidth frameHeight roi).x1
        (cropBounds config toInt frameWidth frameHeight roi).x2 targetSize) + 2 < 2 ^ 31

section

variable {roi : DetectionBox Binary32} {frameSize : Nat}

/-- The ends of a padded region are numbers, and none is negative. -/
theorem paddedEnds_value {bound : ℚ} (hpadding : InUnitInterval config.roiPadding)
    (hroi : OnFrame roi) (hwidth : 0 ≤ frameWidth) (hheight : 0 ≤ frameHeight)
    (hwidth' : (frameWidth : ℚ) ≤ bound) (hheight' : (frameHeight : ℚ) ≤ bound)
    (hbound : FloatFormat.binary32.Represents bound)
    (hdouble : FloatFormat.binary32.Represents (bound * 2)) :
    ∀ x ∈ paddedEnds config frameWidth frameHeight roi,
      ∃ q, value x = some q ∧ 0 ≤ q ∧ q ≤ bound * 2 := by
  obtain ⟨⟨less, hless, hless₀, hless₂⟩, more, hmore, hmore₀, hmore₂⟩ := value_factors hpadding
  simp only [paddedEnds, List.forall_mem_cons, List.not_mem_nil, false_imp_iff, implies_true,
    and_true]
  exact ⟨value_end hroi.xMin hwidth hwidth' hbound hdouble hless hless₀ hless₂,
    value_end hroi.yMin hheight hheight' hbound hdouble hless hless₀ hless₂,
    value_end hroi.xMax hwidth hwidth' hbound hdouble hmore hmore₀ hmore₂,
    value_end hroi.yMax hheight hheight' hbound hdouble hmore hmore₀ hmore₂⟩

/-- The same for every frame whose sides are numbers of the type. -/
theorem paddedEnds_nonneg (hpadding : InUnitInterval config.roiPadding) (hroi : OnFrame roi)
    (hwidth : 0 < frameWidth) (hheight : 0 < frameHeight) (hwidth' : Fits frameWidth)
    (hheight' : Fits frameHeight) :
    ∀ x ∈ paddedEnds config frameWidth frameHeight roi, ∃ q, value x = some q ∧ 0 ≤ q := by
  have hdouble : FloatFormat.binary32.Represents (2 ^ 31 * 2) := by
    have hpow : (2 : ℚ) ^ 31 * 2 = 2 ^ (32 : Int) := by norm_num
    exact hpow ▸ represents_two_pow (by decide) (by decide)
  intro x hx
  obtain ⟨q, hq, hq₀, -⟩ := paddedEnds_value hpadding hroi hwidth.le hheight.le
    (by exact_mod_cast hwidth'.2.le) (by exact_mod_cast hheight'.2.le) represents_limit hdouble x hx
  exact ⟨q, hq, hq₀⟩

theorem toInt_bounds {q : ℚ} {x : Binary32} (hx : value x = some q) (hq : 0 ≤ q)
    (hlt : x < const (2 ^ 31)) : 0 ≤ toInt x ∧ toInt x < 2 ^ 31 := by
  have hfits := (converted_defined_iff hx hq).mpr hlt
  rw [converted_of_value hx hq, CheckedInt.defined_of] at hfits
  rw [toInt_of_value hx hq]
  exact ⟨Int.floor_nonneg.mpr hq, hfits.2⟩

/-- The ends of the cropped rectangle, if those of the padded region are in range. -/
theorem cropBounds_bounds (hpadding : InUnitInterval config.roiPadding) (hroi : OnFrame roi)
    (hwidth : 0 < frameWidth) (hheight : 0 < frameHeight) (hwidth' : Fits frameWidth)
    (hheight' : Fits frameHeight)
    (hends : ∀ x ∈ paddedEnds config frameWidth frameHeight roi, x < const (2 ^ 31)) :
    (0 ≤ (cropBounds config toInt frameWidth frameHeight roi).x1 ∧
        (cropBounds config toInt frameWidth frameHeight roi).x1 < 2 ^ 31) ∧
      (0 ≤ (cropBounds config toInt frameWidth frameHeight roi).y1 ∧
        (cropBounds config toInt frameWidth frameHeight roi).y1 < 2 ^ 31) ∧
      (0 ≤ (cropBounds config toInt frameWidth frameHeight roi).x2 ∧
        (cropBounds config toInt frameWidth frameHeight roi).x2 ≤ frameWidth) ∧
      0 ≤ (cropBounds config toInt frameWidth frameHeight roi).y2 ∧
        (cropBounds config toInt frameWidth frameHeight roi).y2 ≤ frameHeight := by
  have hall : ∀ x ∈ paddedEnds config frameWidth frameHeight roi,
      0 ≤ toInt x ∧ toInt x < 2 ^ 31 := by
    intro x hx
    obtain ⟨q, hq, hq₀⟩ :=
      paddedEnds_nonneg hpadding hroi hwidth hheight hwidth' hheight' x hx
    exact toInt_bounds hq hq₀ (hends x hx)
  simp only [paddedEnds, List.forall_mem_cons] at hall
  obtain ⟨hleft, htop, hright, hbottom, -⟩ := hall
  simp only [cropBounds]
  omega

theorem square_valid_iff (htarget : Fits targetSize) :
    (IntUse.computed (.of targetSize * .of targetSize * .of 3)).Valid ↔
      3 * (targetSize * targetSize) < 2 ^ 31 := by
  have hnonneg := mul_self_nonneg targetSize
  rw [Fits] at htarget
  simp only [IntUse.Valid, CheckedInt.defined_mul, CheckedInt.defined_of, CheckedInt.value_mul,
    CheckedInt.value_of, Fits]
  omega

/-- What a crop reads is inside the frame exactly when nothing overflows. -/
theorem cropReads_valid_iff (hpadding : InUnitInterval config.roiPadding) (hroi : OnFrame roi)
    (hwidth : 0 < frameWidth) (hheight : 0 < frameHeight) (hwidth' : Fits frameWidth)
    (hheight' : Fits frameHeight)
    (hsize : (frameSize : Int) = frameWidth * frameHeight * 3) (htarget : Fits targetSize) :
    (∀ u ∈ cropReads config frameSize frameWidth frameHeight roi targetSize, u.Valid) ↔
      CropFits config frameWidth frameHeight roi targetSize := by
  have hvalues := paddedEnds_nonneg hpadding hroi hwidth hheight hwidth' hheight'
  have hends : (∀ u ∈ (paddedEnds config frameWidth frameHeight roi).map
      fun x => IntUse.computed (converted x), u.Valid) ↔
      ∀ x ∈ paddedEnds config frameWidth frameHeight roi, x < const (2 ^ 31) := by
    rw [List.forall_mem_map]
    refine forall₂_congr fun x hx => ?_
    obtain ⟨q, hq, hq₀⟩ := hvalues x hx
    exact converted_defined_iff hq hq₀
  have hsquare := square_valid_iff htarget
  have hbounds := cropBounds_bounds hpadding hroi hwidth hheight hwidth' hheight'
  have hwidth₁ := hwidth'.2
  have hheight₁ := hheight'.2
  rw [cropReads, List.forall_mem_append, hends, List.forall_mem_cons, List.forall_mem_cons]
  constructor
  · rintro ⟨hlt, -, -, hrest⟩
    obtain ⟨hx₁, hy₁, hx₂, hy₂⟩ := hbounds hlt
    split at hrest
    · -- no buffer and no loop for a rectangle that is empty
      next hempty => exact ⟨hlt, fun hx hy => by omega, fun hx hy => by omega⟩
    · next hsome =>
      rw [List.forall_mem_cons, hsquare] at hrest
      obtain ⟨hbytes, hsamples⟩ := hrest
      refine ⟨hlt, fun _ _ => hbytes, fun hx hy => ?_⟩
      exact (samples_valid_iff ⟨hx₁.1, hy₁.1, hx₂.2, hy₂.2, hx, hy⟩ hwidth' hheight' hsize
        hbytes).mp hsamples
  · intro h
    obtain ⟨hx₁, hy₁, hx₂, hy₂⟩ := hbounds h.ends
    refine ⟨h.ends, CheckedInt.defined_of.mpr ⟨by omega, by omega⟩,
      CheckedInt.defined_of.mpr ⟨by omega, by omega⟩, ?_⟩
    split
    · exact List.forall_mem_nil _
    · next hsome =>
      have hx : (cropBounds config toInt frameWidth frameHeight roi).x1 <
          (cropBounds config toInt frameWidth frameHeight roi).x2 := by omega
      have hy : (cropBounds config toInt frameWidth frameHeight roi).y1 <
          (cropBounds config toInt frameWidth frameHeight roi).y2 := by omega
      rw [List.forall_mem_cons, hsquare]
      refine ⟨h.square hx hy, ?_⟩
      exact (samples_valid_iff ⟨hx₁.1, hy₁.1, hx₂.2, hy₂.2, hx, hy⟩ hwidth' hheight' hsize
        (h.square hx hy)).mpr (h.last hx hy)

end

/-- Crops of a frame that has at most as many bytes as there are indices never leave it. -/
theorem cropFits_of_small {roi : DetectionBox Binary32}
    (hpadding : InUnitInterval config.roiPadding) (hroi : OnFrame roi) (hwidth : 0 < frameWidth)
    (hheight : 0 < frameHeight) (hsmall : frameWidth * frameHeight * 3 ≤ 2 ^ 31)
    (hsquare : 3 * (targetSize * targetSize) < 2 ^ 31) :
    CropFits config frameWidth frameHeight roi targetSize := by
  have hwidth₁ : frameWidth ≤ frameWidth * frameHeight := by nlinarith
  have hheight₁ : frameHeight ≤ frameWidth * frameHeight := by nlinarith
  have hbound : FloatFormat.binary32.Represents (3 * 2 ^ 28) :=
    ⟨3, 28, by decide, by decide, by decide, by norm_num⟩
  have hdouble : FloatFormat.binary32.Represents (3 * 2 ^ 28 * 2) :=
    ⟨3, 29, by decide, by decide, by decide, by norm_num⟩
  have hwidth₂ : frameWidth ≤ 3 * 2 ^ 28 := by omega
  have hheight₂ : frameHeight ≤ 3 * 2 ^ 28 := by omega
  have hends : ∀ x ∈ paddedEnds config frameWidth frameHeight roi, x < const (2 ^ 31) := by
    intro x hx
    obtain ⟨q, hq, -, hle⟩ := paddedEnds_value hpadding hroi hwidth.le hheight.le
      (by exact_mod_cast hwidth₂) (by exact_mod_cast hheight₂) hbound hdouble x hx
    rw [BinaryFloat.lt_iff_of_value hq value_const_limit]
    linarith
  refine ⟨hends, fun _ _ => hsquare, fun hx hy htarget => ?_⟩
  obtain ⟨hx₁, hy₁, hx₂, hy₂⟩ := cropBounds_bounds hpadding hroi hwidth hheight
    ⟨by omega, by omega⟩ ⟨by omega, by omega⟩ hends
  have hX : Sampled ((cropBounds config toInt frameWidth frameHeight roi).x2 -
      (cropBounds config toInt frameWidth frameHeight roi).x1) targetSize :=
    ⟨by omega, by omega, htarget, hsquare⟩
  have hY : Sampled ((cropBounds config toInt frameWidth frameHeight roi).y2 -
      (cropBounds config toInt frameWidth frameHeight roi).y1) targetSize :=
    ⟨by omega, by omega, htarget, hsquare⟩
  have hcolumn := sampled_bounds hX (d := (targetSize - 1).toNat) (by omega)
  have hrow := sampled_bounds hY (d := (targetSize - 1).toNat) (by omega)
  rw [lastSample_eq hX, lastSample_eq hY]
  obtain ⟨-, hpixel⟩ := row_bounds (hy₁.1.trans hrow.1) (hrow.2.trans_le hy₂.2)
    (hx₁.1.trans hcolumn.1) (hcolumn.2.trans_le hx₂.2)
  have hcommute : frameWidth * frameHeight = frameHeight * frameWidth := Int.mul_comm _ _
  omega

/-! ## The reads of a frame -/

section

variable {frameSize : Nat} {light heavy : Option (CascadeModel Binary32)}

/-- The square of the light model is inside the frame if the frame has as many pixels. -/
theorem lightReads_valid_iff (inputWidth : Nat)
    (hsize : (frameSize : Int) = frameWidth * frameHeight * 3) :
    (∀ u ∈ lightReads inputWidth frameSize, u.Valid) ↔
      3 * (int32 inputWidth * int32 inputWidth) < 2 ^ 31 ∧
        int32 inputWidth * int32 inputWidth ≤ frameWidth * frameHeight := by
  have hsquare := square_valid_iff (fits_int32 inputWidth)
  rw [lightReads, List.forall_mem_cons, hsquare, List.forall_mem_map]
  generalize int32 inputWidth = modelSize at *
  have hnonneg := mul_self_nonneg modelSize
  refine and_congr_right fun hlt => ?_
  simp only [List.mem_range, IntUse.Valid, CheckedInt.defined_of, CheckedInt.value_of, Fits]
  generalize modelSize * modelSize = pixels at *
  generalize frameWidth * frameHeight = framePixels at *
  constructor
  · -- the first byte behind the frame is read otherwise
    intro hreads
    by_contra hmore
    have hbyte := hreads (framePixels * 3).toNat (by omega)
    omega
  · intro hle i hi
    omega

theorem mem_of_mem_croppedFrom {dets : List (DetectionBox Binary32)} {det : DetectionBox Binary32}
    (h : det ∈ croppedFrom config frame frameWidth frameHeight targetSize roiCount dets) :
    det ∈ dets := by
  induction dets generalizing roiCount with
  | nil => cases h
  | cons other rest ih =>
      rw [croppedFrom] at h
      split at h
      · cases h
      split at h
      · exact List.mem_cons_of_mem _ (ih h)
      split at h
      · exact List.mem_cons_of_mem _ (ih h)
      · rcases List.mem_cons.mp h with rfl | hrest
        · exact List.mem_cons_self
        · exact List.mem_cons_of_mem _ (ih hrest)

theorem mem_of_mem_cropped {lightSlot heavySlot : CascadeModel Binary32}
    {det : DetectionBox Binary32}
    (h : det ∈ cropped config frame frameWidth frameHeight lightSlot heavySlot) :
    det ∈ lightDetections lightSlot frame := by
  rw [cropped] at h
  split at h
  · cases h
  · exact mem_of_mem_croppedFrom h

/-- All reads of a frame are inside it exactly when it has as many pixels as the input of the light
model and no integer of the two copies overflows. -/
theorem frameReads_valid_iff (hpadding : InUnitInterval config.roiPadding)
    (hwidth : 0 < frameWidth) (hheight : 0 < frameHeight) (hwidth' : Fits frameWidth)
    (hheight' : Fits frameHeight)
    (hsize : (frame.length : Int) = frameWidth * frameHeight * 3)
    (hrois : ∀ slot, light = some slot → ∀ det ∈ lightDetections slot frame, OnFrame det) :
    (∀ u ∈ frameReads config frame frameWidth frameHeight light heavy, u.Valid) ↔
      ∀ lightSlot, light = some lightSlot →
        (3 * (int32 lightSlot.inputWidth * int32 lightSlot.inputWidth) < 2 ^ 31 ∧
          int32 lightSlot.inputWidth * int32 lightSlot.inputWidth ≤ frameWidth * frameHeight) ∧
        ∀ heavySlot, heavy = some heavySlot →
          ∀ det ∈ cropped config frame frameWidth frameHeight lightSlot heavySlot,
            CropFits config frameWidth frameHeight det (int32 heavySlot.inputWidth) := by
  cases light with
  | none => exact iff_of_true (List.forall_mem_nil _) fun _ h => absurd h (by simp)
  | some lightSlot =>
      have hlight := lightReads_valid_iff lightSlot.inputWidth hsize
      have hcrop : ∀ heavySlot : CascadeModel Binary32,
          ∀ det ∈ cropped config frame frameWidth frameHeight lightSlot heavySlot,
          ((∀ u ∈ cropReads config frame.length frameWidth frameHeight det
              (int32 heavySlot.inputWidth), u.Valid) ↔
            CropFits config frameWidth frameHeight det (int32 heavySlot.inputWidth)) :=
        fun heavySlot det hdet => cropReads_valid_iff hpadding
          (hrois lightSlot rfl det (mem_of_mem_cropped hdet)) hwidth hheight hwidth' hheight' hsize
          (fits_int32 _)
      simp only [frameReads, List.forall_mem_append, hlight, Option.some.injEq, forall_eq']
      refine and_congr_right fun _ => ?_
      cases heavy with
      | none => simp
      | some heavySlot =>
          simp only [List.forall_mem_flatMap, Option.some.injEq, forall_eq']
          exact forall₂_congr fun det hdet => hcrop heavySlot det hdet

end

/-- A model that finds one box, which is uncertain enough to be refined. -/
def oneBox (inputWidth : Nat) : CascadeModel Binary32 where
  inputWidth := inputWidth
  infer _ _ := some [.mk 0 "" (const (1 / 2)) (const (1 / 4)) (const (1 / 4)) (const (3 / 4))
    (const (3 / 4))]

theorem onFrame_oneBox {inputWidth : Nat} :
    ∀ det ∈ lightDetections (oneBox inputWidth) frame, OnFrame det := by
  have hquarter : InUnitInterval (const (1 / 4)) := ⟨by decide +kernel, by decide +kernel⟩
  have hrest : InUnitInterval (const (3 / 4)) := ⟨by decide +kernel, by decide +kernel⟩
  exact List.forall_mem_singleton.mpr ⟨hquarter, hquarter, hrest, hrest⟩

theorem inUnitInterval_padding : InUnitInterval ({} : CascadeConfig Binary32).roiPadding :=
  ⟨by decide +kernel, by decide +kernel⟩

/-- A frame of 4 by 4 pixels, of which the middle is sampled at 2 by 2. -/
theorem frameReads_valid_iff_oneBox :
    let reads := frameReads {} (List.replicate 48 0) 4 4 (some (oneBox 4)) (some (oneBox 2))
    reads.length = 80 ∧ ∀ u ∈ reads, u.Valid := by
  have hsmall : ∀ heavySlot, some (oneBox 2) = some heavySlot →
      ∀ det ∈ cropped {} (List.replicate 48 0) 4 4 (oneBox 4) heavySlot,
        CropFits {} 4 4 det (int32 heavySlot.inputWidth) := by
    intro heavySlot hheavy det hdet
    obtain rfl := Option.some.inj hheavy
    exact cropFits_of_small inUnitInterval_padding (onFrame_oneBox det (mem_of_mem_cropped hdet))
      (by decide) (by decide) (by decide) (by decide)
  refine ⟨by decide +kernel, ?_⟩
  refine (frameReads_valid_iff inUnitInterval_padding (by decide) (by decide) (by decide)
    (by decide) rfl ?_).mpr ?_
  · intro slot hslot
    obtain rfl := Option.some.inj hslot
    exact onFrame_oneBox
  · intro lightSlot hlight
    obtain rfl := Option.some.inj hlight
    exact ⟨by decide, hsmall⟩

/-- A frame of 320 by 240 pixels is copied as if it had 640 by 640. -/
theorem not_frameReads_valid_smallFrame :
    ¬ ∀ (config : CascadeConfig Binary32) (frame : List UInt8) (frameWidth frameHeight : Int)
      (light heavy : Option (CascadeModel Binary32)), InUnitInterval config.roiPadding →
      0 < frameWidth → 0 < frameHeight → Fits frameWidth → Fits frameHeight →
      (frame.length : Int) = frameWidth * frameHeight * 3 →
      (∀ slot, light = some slot → ∀ det ∈ lightDetections slot frame, OnFrame det) →
        ∀ u ∈ frameReads config frame frameWidth frameHeight light heavy, u.Valid := by
  intro hclaim
  obtain ⟨frame, hframe⟩ : ∃ frame : List UInt8, (frame.length : Int) = 320 * 240 * 3 :=
    ⟨List.replicate 230400 0, by rw [List.length_replicate]; rfl⟩
  have hall := hclaim {} frame 320 240 (some (oneBox 640)) none inUnitInterval_padding (by decide)
    (by decide) (by decide) (by decide) hframe (by
      intro slot hslot
      obtain rfl := Option.some.inj hslot
      exact onFrame_oneBox)
  have hlight : ∀ u ∈ lightReads 640 frame.length, u.Valid :=
    fun u hu => hall u (List.mem_append_left _ hu)
  exact absurd ((lightReads_valid_iff 640 hframe).mp hlight).2 (by decide)

end ModelCascade
