-- SUMMARY: Where the cascade maps coordinates of a crop: exactly when they come within a pixel of the rectangle that was cropped.
import NeuroPipeline.Edge.ModelCascade
import NeuroPipeline.Edge.Overlap
import Mathlib.Data.Rat.Floor
import Mathlib.Tactic.Linarith

/-!
# Crops and the frame

`CropResizeROI` cuts the padded region at the border of the frame, while
`MapToOriginalFrame` stretches the crop over the whole padded region and clamps the
result. The two part inside a crop that reaches over the right or the lower border.
-/

namespace ModelCascade

/-- The conversion of the source to `int`: what follows the point is dropped. -/
def truncate (q : ℚ) : Int := q.num.tdiv q.den

theorem truncate_of_nonneg {q : ℚ} (hq : 0 ≤ q) : truncate q = ⌊q⌋ := by
  rw [truncate, Rat.floor_def', Int.tdiv_eq_ediv_of_nonneg (Rat.num_nonneg.mpr hq)]

theorem clampUnit_rat (x : ℚ) : clampUnit x = max 0 (min 1 x) := by
  rw [clampUnit, CFloat.max_rat, CFloat.min_rat]
  rfl

/-- A value between two values below one. -/
theorem mix_lt_one {u a b : ℚ} (hu₀ : 0 ≤ u) (hu₁ : u ≤ 1) (ha : a < 1) (hb : b < 1) :
    (1 - u) * a + u * b < 1 := by
  have hleft : (1 - u) * a ≤ (1 - u) * max a b :=
    mul_le_mul_of_nonneg_left (le_max_left a b) (sub_nonneg.mpr hu₁)
  have hright : u * b ≤ u * max a b := mul_le_mul_of_nonneg_left (le_max_right a b) hu₀
  calc (1 - u) * a + u * b ≤ (1 - u) * max a b + u * max a b := add_le_add hleft hright
    _ = max a b := by ring
    _ < 1 := max_lt ha hb

/-- A value between two values that are not negative. -/
theorem mix_nonneg {u a b : ℚ} (hu₀ : 0 ≤ u) (hu₁ : u ≤ 1) (ha : 0 ≤ a) (hb : 0 ≤ b) :
    0 ≤ (1 - u) * a + u * b :=
  add_nonneg (mul_nonneg (sub_nonneg.mpr hu₁) ha) (mul_nonneg hu₀ hb)

/-! ## One axis -/

/-- Coordinate `mapped` of an axis of `size` pixels is less than one of them away from
coordinate `u` of the pixels from `first` to `last`. -/
def WithinPixel (size first last : Int) (mapped u : ℚ) : Prop :=
  |size * mapped - (first + u * (last - first))| < 1

/-- The padded region from `low` to `high` leaves the axis by so little that the
coordinates inside it stay within a pixel. -/
def AxisFits (size : Int) (low high : ℚ) : Prop :=
  (size - ⌊size * low⌋) * (high - 1) < high - low

instance (size first last : Int) (mapped u : ℚ) :
    Decidable (WithinPixel size first last mapped u) := inferInstanceAs (Decidable (_ < _))

instance (size : Int) (low high : ℚ) : Decidable (AxisFits size low high) :=
  inferInstanceAs (Decidable (_ < _))

/-- A region of an axis and the pixels that are cropped of it. -/
structure Axis (size first last : Int) (low high : ℚ) : Prop where
  low_nonneg : 0 ≤ low
  size_pos : (0 : ℚ) < size
  first_eq : first = ⌊size * low⌋
  last_eq : last = min size ⌊size * high⌋
  first_lt : first < last

namespace Axis

variable {size first last : Int} {low high : ℚ}

theorem first_le (h : Axis size first last low high) : first ≤ size * low := by
  rw [h.first_eq]
  exact Int.floor_le _

theorem lt_first_add_one (h : Axis size first last low high) : size * low < first + 1 := by
  rw [h.first_eq]
  exact Int.lt_floor_add_one _

theorem first_lt_size (h : Axis size first last low high) : (first : ℚ) < size := by
  have hlast : last ≤ size := h.last_eq ▸ min_le_left _ _
  exact_mod_cast h.first_lt.trans_le hlast

/-- Something is cropped, so the region is not empty. -/
theorem low_lt_high (h : Axis size first last low high) : low < high := by
  have hlast : last ≤ ⌊size * high⌋ := h.last_eq ▸ min_le_right _ _
  have hfloor : ⌊size * low⌋ < ⌊size * high⌋ := h.first_eq ▸ h.first_lt.trans_le hlast
  have hlt : size * low < size * high :=
    lt_of_not_ge fun hge => absurd (Int.floor_mono hge) (by omega)
  exact lt_of_mul_lt_mul_left hlt h.size_pos.le

theorem low_lt_one (h : Axis size first last low high) : low < 1 := by
  have hlt : size * low < size * 1 := by
    have hlast : last ≤ size := h.last_eq ▸ min_le_left _ _
    have hfirst : first + 1 ≤ size := by have := h.first_lt; omega
    have hcast : (first : ℚ) + 1 ≤ size := by exact_mod_cast hfirst
    linarith [h.lt_first_add_one]
  exact lt_of_mul_lt_mul_left hlt h.size_pos.le

/-- The pixel that coordinate `u` is mapped to, less the one that it was taken from. -/
def error (size first last : Int) (low high u : ℚ) : ℚ :=
  size * clampUnit (mapCoordinate low high u) - (first + u * (last - first))

theorem mapCoordinate_eq (low high u : ℚ) :
    mapCoordinate low high u = low + u * (high - low) := rfl

theorem error_eq (h : Axis size first last low high) {u : ℚ} (hu : 0 ≤ u) :
    error size first last low high u =
      size * min 1 (low + u * (high - low)) - (first + u * (last - first)) := by
  have hpos : 0 ≤ low + u * (high - low) :=
    add_nonneg h.low_nonneg (mul_nonneg hu (sub_nonneg.mpr h.low_lt_high.le))
  rw [error, clampUnit_rat, mapCoordinate_eq, max_eq_right (le_min zero_le_one hpos)]

/-! ### A region inside the frame -/

/-- Each end is truncated by less than a pixel, and so is everything in between. -/
theorem error_inside (h : Axis size first last low high) (hhigh : high ≤ 1) {u : ℚ} (hu₀ : 0 ≤ u)
    (hu₁ : u ≤ 1) : |error size first last low high u| < 1 := by
  have hlast : last = ⌊size * high⌋ := by
    have hle : size * high ≤ size := by nlinarith [h.size_pos]
    rw [h.last_eq, min_eq_right (by exact_mod_cast (Int.floor_le _).trans hle)]
  have hlast₀ : last ≤ size * high := hlast ▸ Int.floor_le _
  have hlast₁ : size * high < last + 1 := hlast ▸ Int.lt_floor_add_one _
  have hfirst₀ := h.first_le
  have hfirst₁ := h.lt_first_add_one
  have hmapped : low + u * (high - low) ≤ 1 := by nlinarith [h.low_lt_high]
  have hsplit : size * (low + u * (high - low)) - (first + u * (last - first)) =
      (1 - u) * (size * low - first) + u * (size * high - last) := by ring
  rw [h.error_eq hu₀, min_eq_right hmapped, hsplit]
  rw [abs_of_nonneg (mix_nonneg hu₀ hu₁ (by linarith) (by linarith))]
  exact mix_lt_one hu₀ hu₁ (by linarith) (by linarith)

/-! ### A region that leaves the frame -/

theorem last_eq_size (h : Axis size first last low high) (hhigh : 1 < high) : last = size := by
  have hle : (size : ℚ) ≤ size * high := by nlinarith [h.size_pos]
  rw [h.last_eq, min_eq_left (Int.le_floor.mpr hle)]

theorem error_nonneg (h : Axis size first last low high) (hhigh : 1 < high) {u : ℚ} (hu₀ : 0 ≤ u)
    (hu₁ : u ≤ 1) : 0 ≤ error size first last low high u := by
  rw [h.error_eq hu₀, h.last_eq_size hhigh]
  rcases le_total (low + u * (high - low)) 1 with hle | hge
  · have hsplit : size * (low + u * (high - low)) - (first + u * (size - first)) =
        (1 - u) * (size * low - first) + u * (size * (high - 1)) := by ring
    rw [min_eq_right hle, hsplit]
    exact mix_nonneg hu₀ hu₁ (sub_nonneg.mpr h.first_le)
      (mul_nonneg h.size_pos.le (sub_nonneg.mpr hhigh.le))
  · have hsplit : size * 1 - (first + u * (size - first)) = (1 - u) * (size - first) := by ring
    rw [min_eq_left hge, hsplit]
    exact mul_nonneg (sub_nonneg.mpr hu₁) (sub_nonneg.mpr h.first_lt_size.le)

/-- The coordinate whose place is the border of the frame. -/
def border (low high : ℚ) : ℚ := (1 - low) / (high - low)

theorem border_mul (h : Axis size first last low high) :
    border low high * (high - low) = 1 - low :=
  div_mul_cancel₀ _ (sub_pos.mpr h.low_lt_high).ne'

theorem border_pos (h : Axis size first last low high) : 0 < border low high :=
  div_pos (sub_pos.mpr h.low_lt_one) (sub_pos.mpr h.low_lt_high)

theorem border_le_one (h : Axis size first last low high) (hhigh : 1 < high) :
    border low high ≤ 1 := by
  rw [border, div_le_one (sub_pos.mpr h.low_lt_high)]
  linarith

theorem error_border (h : Axis size first last low high) (hhigh : 1 < high) :
    error size first last low high (border low high) =
      (1 - border low high) * (size - first) := by
  rw [h.error_eq h.border_pos.le, h.last_eq_size hhigh, h.border_mul, add_sub_cancel, min_self]
  ring

theorem error_border_lt_iff (h : Axis size first last low high) (hhigh : 1 < high) :
    error size first last low high (border low high) < 1 ↔ AxisFits size low high := by
  have hwidth : 0 < high - low := sub_pos.mpr h.low_lt_high
  have hscaled : (1 - border low high) * (size - first) * (high - low) =
      (size - first) * (high - 1) := by
    calc (1 - border low high) * (size - first) * (high - low)
        = (size - first) * (high - low - border low high * (high - low)) := by ring
      _ = (size - first) * (high - 1) := by rw [h.border_mul]; ring
  rw [h.error_border hhigh, AxisFits, ← h.first_eq, ← hscaled]
  exact (mul_lt_iff_lt_one_left hwidth).symm

/-- Nowhere is the error larger than at the border or at the first pixel. -/
theorem error_lt_one (h : Axis size first last low high) (hhigh : 1 < high)
    (hfits : AxisFits size low high) {u : ℚ} (hu₀ : 0 ≤ u) :
    error size first last low high u < 1 := by
  have hborder := (h.error_border_lt_iff hhigh).mpr hfits
  have hpos := h.border_pos
  have hwidth : 0 < high - low := sub_pos.mpr h.low_lt_high
  rw [h.error_border hhigh] at hborder
  rw [h.error_eq hu₀, h.last_eq_size hhigh]
  rcases le_total u (border low high) with hle | hge
  · -- before the border the error is between the errors at both ends
    have hmapped : u * (high - low) ≤ 1 - low :=
      h.border_mul ▸ mul_le_mul_of_nonneg_right hle hwidth.le
    have hpart : u / border low high * border low high = u := div_mul_cancel₀ _ hpos.ne'
    have hsplit : size * (low + u * (high - low)) - (first + u * (size - first)) =
        (1 - u / border low high) * (size * low - first) +
          u / border low high * ((1 - border low high) * (size - first)) := by
      have hmoved : u / border low high * (1 - low) = u * (high - low) := by
        rw [← h.border_mul, ← mul_assoc, hpart]
      calc size * (low + u * (high - low)) - (first + u * (size - first))
          = size * low - first + size * (u * (high - low)) - u * (size - first) := by ring
        _ = size * low - first + size * (u / border low high * (1 - low)) -
              u / border low high * border low high * (size - first) := by rw [hmoved, hpart]
        _ = (1 - u / border low high) * (size * low - first) +
              u / border low high * ((1 - border low high) * (size - first)) := by ring
    rw [min_eq_right (by linarith), hsplit]
    exact mix_lt_one (div_nonneg hu₀ hpos.le) ((div_le_one hpos).mpr hle)
      (by linarith [h.lt_first_add_one]) hborder
  · have hmapped : 1 - low ≤ u * (high - low) :=
      h.border_mul ▸ mul_le_mul_of_nonneg_right hge hwidth.le
    have hsplit : size * 1 - (first + u * (size - first)) = (1 - u) * (size - first) := by ring
    rw [min_eq_left (by linarith), hsplit]
    refine lt_of_le_of_lt ?_ hborder
    exact mul_le_mul_of_nonneg_right (by linarith) (sub_nonneg.mpr h.first_lt_size.le)

/-- All coordinates of the crop come within a pixel exactly when the region fits. -/
theorem withinPixel_iff (h : Axis size first last low high) :
    (∀ u, 0 ≤ u → u ≤ 1 →
      WithinPixel size first last (clampUnit (mapCoordinate low high u)) u) ↔
      AxisFits size low high := by
  change (∀ u, 0 ≤ u → u ≤ 1 → |error size first last low high u| < 1) ↔ _
  rcases le_or_gt high 1 with hin | hout
  · have hfits : AxisFits size low high := by
      have hwidth := h.low_lt_high
      have hrest := h.first_lt_size
      rw [AxisFits, ← h.first_eq]
      nlinarith
    exact ⟨fun _ => hfits, fun _ u hu₀ hu₁ => h.error_inside hin hu₀ hu₁⟩
  · constructor
    · intro hall
      refine (h.error_border_lt_iff hout).mp ?_
      exact (abs_lt.mp (hall _ h.border_pos.le (h.border_le_one hout))).2
    · intro hfits u hu₀ hu₁
      rw [abs_of_nonneg (h.error_nonneg hout hu₀ hu₁)]
      exact h.error_lt_one hout hfits hu₀

/-- The ends of the crop do in any case, since what leaves the frame is clamped. -/
theorem withinPixel_ends (h : Axis size first last low high) :
    WithinPixel size first last (clampUnit (mapCoordinate low high 0)) 0 ∧
      WithinPixel size first last (clampUnit (mapCoordinate low high 1)) 1 := by
  change |error size first last low high 0| < 1 ∧ |error size first last low high 1| < 1
  rcases le_or_gt high 1 with hin | hout
  · exact ⟨h.error_inside hin le_rfl zero_le_one, h.error_inside hin zero_le_one le_rfl⟩
  · rw [abs_of_nonneg (h.error_nonneg hout le_rfl zero_le_one),
      abs_of_nonneg (h.error_nonneg hout zero_le_one le_rfl), h.error_eq le_rfl,
      h.error_eq zero_le_one, h.last_eq_size hout]
    have hlow : min 1 (low + 0 * (high - low)) ≤ low := by simp
    have hhigh : min 1 (low + 1 * (high - low)) ≤ 1 := min_le_left _ _
    have hsize := h.size_pos
    constructor
    · nlinarith [h.lt_first_add_one]
    · nlinarith

end Axis

/-! ## Both axes -/

/-- The coordinates of a box are between the ends of both axes. -/
structure InUnit (b : DetectionBox ℚ) : Prop where
  xMin : 0 ≤ b.xMin ∧ b.xMin ≤ 1
  yMin : 0 ≤ b.yMin ∧ b.yMin ≤ 1
  xMax : 0 ≤ b.xMax ∧ b.xMax ≤ 1
  yMax : 0 ≤ b.yMax ∧ b.yMax ≤ 1

/-- The box from (0,0) to (1,1). -/
structure IsWhole (b : DetectionBox ℚ) : Prop where
  xMin : b.xMin = 0
  yMin : b.yMin = 0
  xMax : b.xMax = 1
  yMax : b.yMax = 1

/-- Both corners of a box in the crop are mapped to their place in the cropped rectangle. -/
structure Agrees (config : CascadeConfig ℚ) (frameWidth frameHeight : Int)
    (roi b : DetectionBox ℚ) : Prop where
  xMin : WithinPixel frameWidth (cropBounds config truncate frameWidth frameHeight roi).x1
    (cropBounds config truncate frameWidth frameHeight roi).x2
    (mapToOriginalFrame config b roi).xMin b.xMin
  yMin : WithinPixel frameHeight (cropBounds config truncate frameWidth frameHeight roi).y1
    (cropBounds config truncate frameWidth frameHeight roi).y2
    (mapToOriginalFrame config b roi).yMin b.yMin
  xMax : WithinPixel frameWidth (cropBounds config truncate frameWidth frameHeight roi).x1
    (cropBounds config truncate frameWidth frameHeight roi).x2
    (mapToOriginalFrame config b roi).xMax b.xMax
  yMax : WithinPixel frameHeight (cropBounds config truncate frameWidth frameHeight roi).y1
    (cropBounds config truncate frameWidth frameHeight roi).y2
    (mapToOriginalFrame config b roi).yMax b.yMax

variable {config : CascadeConfig ℚ} {frameWidth frameHeight : Int} {roi : DetectionBox ℚ}

section

variable (config : CascadeConfig ℚ) (b roi : DetectionBox ℚ)

theorem xMin_mapped : (mapToOriginalFrame config b roi).xMin =
    clampUnit (mapCoordinate (paddedMin config roi.xMin) (paddedMax config roi.xMax) b.xMin) := rfl

theorem yMin_mapped : (mapToOriginalFrame config b roi).yMin =
    clampUnit (mapCoordinate (paddedMin config roi.yMin) (paddedMax config roi.yMax) b.yMin) := rfl

theorem xMax_mapped : (mapToOriginalFrame config b roi).xMax =
    clampUnit (mapCoordinate (paddedMin config roi.xMin) (paddedMax config roi.xMax) b.xMax) := rfl

theorem yMax_mapped : (mapToOriginalFrame config b roi).yMax =
    clampUnit (mapCoordinate (paddedMin config roi.yMin) (paddedMax config roi.yMax) b.yMax) := rfl

end

/-- One axis of a crop: both ends of it are cut in the same way. -/
theorem axis_of_lt {size : Int} {low high padding : ℚ} (hlow : 0 ≤ low) (hhigh : 0 ≤ high)
    (hpadding₀ : 0 ≤ padding) (hpadding₁ : padding ≤ 1)
    (hlt : max 0 (truncate (low * size * (1 - padding))) <
      min size (truncate (high * size * (1 + padding)))) :
    Axis size (max 0 (truncate (low * size * (1 - padding))))
      (min size (truncate (high * size * (1 + padding)))) (low * (1 - padding))
      (high * (1 + padding)) := by
  have hsize : 0 < size :=
    ((le_max_left _ _).trans_lt hlt).trans_le (min_le_left _ _)
  have hsizeRat : (0 : ℚ) < size := by exact_mod_cast hsize
  have hleft : 0 ≤ low * (1 - padding) := mul_nonneg hlow (sub_nonneg.mpr hpadding₁)
  have hright : 0 ≤ high * (1 + padding) := mul_nonneg hhigh (by linarith)
  have hfirst : low * size * (1 - padding) = size * (low * (1 - padding)) := by ring
  have hlast : high * size * (1 + padding) = size * (high * (1 + padding)) := by ring
  have hfloor : 0 ≤ ⌊size * (low * (1 - padding))⌋ :=
    Int.floor_nonneg.mpr (mul_nonneg hsizeRat.le hleft)
  rw [hfirst, hlast, truncate_of_nonneg (mul_nonneg hsizeRat.le hleft),
    truncate_of_nonneg (mul_nonneg hsizeRat.le hright)] at hlt ⊢
  exact ⟨hleft, hsizeRat, max_eq_right hfloor, rfl, hlt⟩

/-- A crop is returned for a rectangle that is not empty. -/
theorem rect_of_crop {frame : List UInt8} {targetSize : Int}
    (hcrop : cropResizeROI config truncate frame frameWidth frameHeight roi targetSize ≠ []) :
    (cropBounds config truncate frameWidth frameHeight roi).x1 <
        (cropBounds config truncate frameWidth frameHeight roi).x2 ∧
      (cropBounds config truncate frameWidth frameHeight roi).y1 <
        (cropBounds config truncate frameWidth frameHeight roi).y2 := by
  by_contra hempty
  apply hcrop
  rw [cropResizeROI, if_pos]
  omega

/-- For a crop that is returned: its corners are always mapped back, and every coordinate
in it is exactly when the padded region fits on both axes. -/
theorem mapToOriginalFrame_agrees_iff (hpadding : 0 ≤ config.roiPadding ∧ config.roiPadding ≤ 1)
    (hroi : InUnit roi) {frame : List UInt8} {targetSize : Int}
    (hcrop : cropResizeROI config truncate frame frameWidth frameHeight roi targetSize ≠ []) :
    (∀ b, IsWhole b → Agrees config frameWidth frameHeight roi b) ∧
      ((∀ b, InUnit b → Agrees config frameWidth frameHeight roi b) ↔
        AxisFits frameWidth (paddedMin config roi.xMin) (paddedMax config roi.xMax) ∧
          AxisFits frameHeight (paddedMin config roi.yMin) (paddedMax config roi.yMax)) := by
  obtain ⟨hx, hy⟩ := rect_of_crop hcrop
  have haxisX : Axis frameWidth (cropBounds config truncate frameWidth frameHeight roi).x1
      (cropBounds config truncate frameWidth frameHeight roi).x2 (paddedMin config roi.xMin)
      (paddedMax config roi.xMax) :=
    axis_of_lt hroi.xMin.1 hroi.xMax.1 hpadding.1 hpadding.2 hx
  have haxisY : Axis frameHeight (cropBounds config truncate frameWidth frameHeight roi).y1
      (cropBounds config truncate frameWidth frameHeight roi).y2 (paddedMin config roi.yMin)
      (paddedMax config roi.yMax) :=
    axis_of_lt hroi.yMin.1 hroi.yMax.1 hpadding.1 hpadding.2 hy
  constructor
  · intro b hb
    obtain ⟨hx₀, hx₁⟩ := haxisX.withinPixel_ends
    obtain ⟨hy₀, hy₁⟩ := haxisY.withinPixel_ends
    constructor
    · rwa [xMin_mapped, hb.xMin]
    · rwa [yMin_mapped, hb.yMin]
    · rwa [xMax_mapped, hb.xMax]
    · rwa [yMax_mapped, hb.yMax]
  · constructor
    · intro hall
      -- a box that is a single point serves both axes
      have hpoint (u : ℚ) (hu₀ : 0 ≤ u) (hu₁ : u ≤ 1) :
          Agrees config frameWidth frameHeight roi (DetectionBox.mk 0 "" 0 u u u u) :=
        hall _ ⟨⟨hu₀, hu₁⟩, ⟨hu₀, hu₁⟩, ⟨hu₀, hu₁⟩, ⟨hu₀, hu₁⟩⟩
      exact ⟨haxisX.withinPixel_iff.mp fun u hu₀ hu₁ => (hpoint u hu₀ hu₁).xMin,
        haxisY.withinPixel_iff.mp fun u hu₀ hu₁ => (hpoint u hu₀ hu₁).yMin⟩
    · rintro ⟨hfitsX, hfitsY⟩ b hb
      have hallX := haxisX.withinPixel_iff.mpr hfitsX
      have hallY := haxisY.withinPixel_iff.mpr hfitsY
      exact ⟨hallX _ hb.xMin.1 hb.xMin.2, hallY _ hb.yMin.1 hb.yMin.2,
        hallX _ hb.xMax.1 hb.xMax.2, hallY _ hb.yMax.1 hb.yMax.2⟩

theorem inUnit_mk {xMin yMin xMax yMax : ℚ} (hx : 0 ≤ xMin ∧ xMin ≤ 1) (hy : 0 ≤ yMin ∧ yMin ≤ 1)
    (hx' : 0 ≤ xMax ∧ xMax ≤ 1) (hy' : 0 ≤ yMax ∧ yMax ≤ 1) :
    InUnit (DetectionBox.mk 0 "" 0 xMin yMin xMax yMax) := ⟨hx, hy, hx', hy'⟩

/-- A region in the middle of a frame of 10 by 10 pixels. -/
theorem mapToOriginalFrame_agrees_iff_inside :
    let roi : DetectionBox ℚ := .mk 0 "" 0 (1/4) (1/4) (1/2) (1/2)
    ∀ b, InUnit b → Agrees {} 10 10 roi b := by
  intro roi
  have hpadding : (0 : ℚ) ≤ ({} : CascadeConfig ℚ).roiPadding ∧
      ({} : CascadeConfig ℚ).roiPadding ≤ 1 := by decide +kernel
  have hroi : InUnit roi := inUnit_mk (by decide +kernel) (by decide +kernel) (by decide +kernel)
    (by decide +kernel)
  have hcrop : cropResizeROI {} truncate (List.replicate 300 0) 10 10 roi 1 ≠ [] := by
    decide +kernel
  exact (mapToOriginalFrame_agrees_iff hpadding hroi hcrop).2.mpr (by decide +kernel)

/-- A region at the right border of it, padded by half: the middle of the crop is column 7,
and it is mapped to the middle of column 9. -/
theorem not_agrees_rightBorder :
    let config : CascadeConfig ℚ := { roiPadding := 1/2 }
    let roi : DetectionBox ℚ := .mk 0 "" 0 (4/5) 0 1 1
    cropResizeROI config truncate (List.replicate 300 0) 10 10 roi 1 ≠ [] ∧
      cropBounds config truncate 10 10 roi = ⟨4, 0, 10, 10⟩ ∧
      (mapToOriginalFrame config (.mk 0 "" 0 (1/2) 0 1 1) roi).xMin = 19/20 ∧
      ¬ ∀ b, InUnit b → Agrees config 10 10 roi b := by
  intro config roi
  refine ⟨by decide +kernel, by decide +kernel, by decide +kernel, fun hall => ?_⟩
  have hpoint := hall (.mk 0 "" 0 (1/2) 0 1 1)
    (inUnit_mk (by decide +kernel) (by decide +kernel) (by decide +kernel) (by decide +kernel))
  exact absurd hpoint.xMin (by decide +kernel)

end ModelCascade
