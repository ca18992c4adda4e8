-- SUMMARY: Colour conversion and scaling in software: which bytes of the frame and of the images they touch, for all sizes.
import NeuroPipeline.Lib.CheckedBuffer
import NeuroPipeline.Lib.CNumber
import NeuroPipeline.Lib.Rounding

/-!
# Image conversion in software

Model of `NV12ToRGB`, `ResizeRGB` and `Process` (rga_processor.cpp) and of the frames that the
capture layer makes (v4l2_camera.cpp), both as they are built without the hardware. Sizes and
indices are `uint32_t`, also where they are used for pointers.
-/

open CheckedBuffer (read write writeBlock succeedsIff_read succeedsIff_write)
open UInt32 (forBelow)

structure ImageMetadata where
  width : UInt32 := 0
  height : UInt32 := 0
  /-- bytes per row -/
  stride : UInt32 := 0
  /-- FourCC -/
  format : UInt32 := 0
  timestampUs : UInt64 := 0
  frameId : UInt64 := 0
  deriving DecidableEq

structure ImageBuffer where
  data : List UInt8
  metadata : ImageMetadata
  deriving DecidableEq

/-! ## Capture -/

structure SyntheticCamera where
  width : UInt32 := 1920
  height : UInt32 := 1080
  streaming : Bool := false
  frameSize : UInt32 := 0
  frameId : UInt64 := 0

namespace SyntheticCamera

/-- The bytes of an NV12 frame. -/
def nv12Size (width height : UInt32) : UInt32 := width * height * 3 / 2

/-- `Initialize`. -/
def initialized (camera : SyntheticCamera) : SyntheticCamera :=
  { camera with frameSize := nv12Size camera.width camera.height }

def start (camera : SyntheticCamera) : SyntheticCamera :=
  { camera with streaming := true, frameId := 0 }

/-- A gradient that moves from frame to frame. -/
def luma (camera : SyntheticCamera) (x y : UInt32) : UInt8 :=
  (((x + y).toUInt64 + camera.frameId * 3) % 256).toUInt8

/-- The result is missing where a write is outside the frame. -/
def captureFrame (camera : SyntheticCamera) (now : UInt64) :
    Option (Option ImageBuffer × SyntheticCamera) :=
  if !camera.streaming then some (none, camera)
  else do
    let ySize := camera.width * camera.height
    let data ← camera.height.forBelow (fun y => camera.width.forBelow fun x data =>
      write data (y * camera.width + x).toNat (camera.luma x y))
        (List.replicate camera.frameSize.toNat 0)
    -- neutral chroma
    let data ← writeBlock data ySize.toNat (Vector.replicate (ySize / 2).toNat 128)
    some (some
      { data := data
        metadata :=
          { width := camera.width
            height := camera.height
            stride := camera.width
            format := 0x3231564E
            timestampUs := now
            frameId := camera.frameId } },
      { camera with frameId := camera.frameId + 1 })

end SyntheticCamera

/-! ## Conversion and scaling -/

namespace RgaProcessor

structure Config where
  srcWidth : UInt32 := 1920
  srcHeight : UInt32 := 1080
  dstWidth : UInt32 := 640
  dstHeight : UInt32 := 640

/-- `std::max(0, std::min(255, x))` as a byte. -/
def clampByte (x : Int) : UInt8 := UInt8.ofNat (max 0 (min 255 x)).toNat

/-- Where the three bytes of a pixel begin. -/
def rgbIndex (width row col : UInt32) : Nat := ((row * width + col) * 3).toNat

/-- The body of `NV12ToRGB`. A pair of columns and of rows shares its chroma bytes. -/
def convertPixel (nv12 : List UInt8) (width height row col : UInt32) (rgb : List UInt8) :
    Option (List UInt8) := do
  let uvPlane := (width * height).toNat
  let y ← read nv12 (row * width + col).toNat
  -- the first of the two columns has the chroma of both
  let u ← read nv12 (uvPlane + (row / 2 * width + (col &&& ~~~1)).toNat)
  let v ← read nv12 (uvPlane + (row / 2 * width + (col ||| 1)).toNat)
  let y : Int := y.toNat
  let u : Int := u.toNat - 128
  let v : Int := v.toNat - 128
  let idx := rgbIndex width row col
  let rgb ← write rgb idx (clampByte (y + (359 * v).shiftRight 8))
  let rgb ← write rgb (idx + 1) (clampByte (y - (88 * u + 183 * v).shiftRight 8))
  write rgb (idx + 2) (clampByte (y + (454 * u).shiftRight 8))

def nv12ToRgb (nv12 rgb : List UInt8) (width height : UInt32) : Option (List UInt8) :=
  height.forBelow (fun row => width.forBelow fun col => convertPixel nv12 width height row col) rgb

/-- The coordinate in the source, computed in single precision. It is missing where the number
is not one of `uint32_t`, which leaves the rest undefined. -/
def sample (d src dst : UInt32) : Option UInt32 := do
  let s : Binary32 := CFloat.const d.toNat * CFloat.const src.toNat / CFloat.const dst.toNat
  let whole ← (HasValue.value s).bind (toUnsigned 32)
  -- `std::min`
  let whole := UInt32.ofNat whole
  some (if src - 1 < whole then src - 1 else whole)

def resizePixel (src : List UInt8) (sw sh dw dh dy dx : UInt32) (dst : List UInt8) :
    Option (List UInt8) := do
  let x0 ← sample dx sw dw
  let y0 ← sample dy sh dh
  let srcIdx := rgbIndex sw y0 x0
  let dstIdx := rgbIndex dw dy dx
  let r ← read src srcIdx
  let dst ← write dst dstIdx r
  let g ← read src (srcIdx + 1)
  let dst ← write dst (dstIdx + 1) g
  let b ← read src (srcIdx + 2)
  write dst (dstIdx + 2) b

def resizeRgb (src : List UInt8) (sw sh : UInt32) (dst : List UInt8) (dw dh : UInt32) :
    Option (List UInt8) :=
  dh.forBelow (fun dy => dw.forBelow fun dx => resizePixel src sw sh dw dh dy dx) dst

/-- An image of this size, as it is allocated. -/
def newImage (width height : UInt32) : List UInt8 := List.replicate (width * height * 3).toNat 0

/-- The result is missing where an access is outside its buffer. -/
def process (config : Config) (input : Option ImageBuffer) : Option (Option ImageBuffer) :=
  match input with
  | none => some none
  | some input => do
    let rgbTemp ← nv12ToRgb input.data (newImage config.srcWidth config.srcHeight)
      config.srcWidth config.srcHeight
    let output ← resizeRgb rgbTemp config.srcWidth config.srcHeight
      (newImage config.dstWidth config.dstHeight) config.dstWidth config.dstHeight
    some (some
      { data := output
        metadata :=
          { width := config.dstWidth
            height := config.dstHeight
            stride := config.dstWidth * 3
            format := 0x33424752
            timestampUs := input.metadata.timestampUs
            frameId := input.metadata.frameId } })

end RgaProcessor

/-! ## Indices -/

theorem UInt32.toNat_or_one (x : UInt32) : (x ||| 1).toNat = 2 * (x.toNat / 2) + 1 := by
  have hhalf : (x.toNat ||| 1) / 2 = x.toNat / 2 := by simp [Nat.or_div_two]
  have hodd : (x.toNat ||| 1) % 2 = 1 := by simp
  rw [UInt32.toNat_or, UInt32.toNat_one]
  omega

theorem UInt32.toNat_and_not_one (x : UInt32) : (x &&& ~~~1).toNat = 2 * (x.toNat / 2) := by
  have hmask : (~~~1 : UInt32).toNat = 2 * (2 ^ 31 - 1) := by decide +kernel
  have hhalf : (x.toNat &&& 2 * (2 ^ 31 - 1)) / 2 = x.toNat / 2 := by
    have hbound := x.toNat_lt
    rw [Nat.and_div_two, Nat.mul_div_cancel_left _ (by omega), Nat.and_two_pow_sub_one_eq_mod]
    omega
  have heven : (x.toNat &&& 2 * (2 ^ 31 - 1)) % 2 = 0 := by
    rw [← Nat.and_one_is_mod, Nat.and_assoc]
    simp
  rw [UInt32.toNat_and, hmask]
  omega

/-- A pixel inside the image, counted row by row. -/
theorem pixel_lt {w h row col : Nat} (hrow : row < h) (hcol : col < w) : row * w + col < w * h := by
  calc row * w + col < row * w + w := Nat.add_lt_add_left hcol _
    _ = (row + 1) * w := (Nat.succ_mul row w).symm
    _ ≤ h * w := Nat.mul_le_mul_right w hrow
    _ = w * h := Nat.mul_comm h w

namespace RgaProcessor

variable {width height row col : UInt32}

theorem toNat_size (h : 3 * (width.toNat * height.toNat) < 2 ^ 32) :
    (width * height * 3).toNat = 3 * (width.toNat * height.toNat) := by
  rw [UInt32.toNat_mul, UInt32.toNat_mul]
  have hthree : (3 : UInt32).toNat = 3 := rfl
  rw [hthree]
  omega

theorem rgbIndex_eq (h : 3 * (width.toNat * height.toNat) < 2 ^ 32) (hrow : row < height)
    (hcol : col < width) : rgbIndex width row col = 3 * (row.toNat * width.toNat + col.toNat) := by
  have hpixel := pixel_lt (UInt32.lt_iff_toNat_lt.mp hrow) (UInt32.lt_iff_toNat_lt.mp hcol)
  have hthree : (3 : UInt32).toNat = 3 := rfl
  rw [rgbIndex, UInt32.toNat_mul, UInt32.toNat_add, UInt32.toNat_mul, hthree]
  omega

/-- The pixels of an image are inside the bytes that are allocated for it exactly when the
number of these bytes fits into 32 bits. -/
theorem forall_rgbIndex_iff : (∀ row < height, ∀ col < width,
    rgbIndex width row col + 2 < (width * height * 3).toNat) ↔
      3 * (width.toNat * height.toNat) < 2 ^ 32 := by
  constructor
  · intro hall
    by_contra hlarge
    -- the pixel whose first byte has the last of all indices
    obtain ⟨p, hlast⟩ : ∃ p, 3 * p = 2 ^ 32 - 1 := ⟨1431655765, rfl⟩
    have hp : p < width.toNat * height.toNat := by omega
    have hwidth : 0 < width.toNat := Nat.pos_of_mul_pos_right (Nat.zero_lt_of_lt hp)
    have hrow : p / width.toNat < height.toNat := Nat.div_lt_of_lt_mul hp
    have hcol : p % width.toNat < width.toNat := Nat.mod_lt p hwidth
    have hrow32 : (UInt32.ofNat (p / width.toNat)).toNat = p / width.toNat :=
      UInt32.toNat_ofNat_of_lt' (hrow.trans height.toNat_lt)
    have hcol32 : (UInt32.ofNat (p % width.toNat)).toNat = p % width.toNat :=
      UInt32.toNat_ofNat_of_lt' (hcol.trans width.toNat_lt)
    have hinside := hall (UInt32.ofNat (p / width.toNat))
      (UInt32.lt_iff_toNat_lt.mpr (hrow32.trans_lt hrow)) (UInt32.ofNat (p % width.toNat))
      (UInt32.lt_iff_toNat_lt.mpr (hcol32.trans_lt hcol))
    have hpixel : p / width.toNat * width.toNat + p % width.toNat = p := Nat.div_add_mod' p _
    have hthree : (3 : UInt32).toNat = 3 := rfl
    have hindex : rgbIndex width (UInt32.ofNat (p / width.toNat))
        (UInt32.ofNat (p % width.toNat)) = 2 ^ 32 - 1 := by
      rw [rgbIndex, UInt32.toNat_mul, UInt32.toNat_add, UInt32.toNat_mul, hrow32, hcol32, hthree,
        Nat.mod_add_mod, hpixel]
      omega
    have hsize := (width * height * 3).toNat_lt
    omega
  · intro h row hrow col hcol
    have hpixel := pixel_lt (UInt32.lt_iff_toNat_lt.mp hrow) (UInt32.lt_iff_toNat_lt.mp hcol)
    rw [rgbIndex_eq h hrow hcol, toNat_size h]
    omega

/-! ## Conversion -/

variable {rgb : List UInt8} {m : Nat}

/-- What `NV12ToRGB` reads and writes for a pixel, with `n` bytes of source and `m` bytes of
destination. -/
structure ConvertsInside (width height : UInt32) (n m : Nat) (row col : UInt32) : Prop where
  y : (row * width + col).toNat < n
  u : (width * height).toNat + (row / 2 * width + (col &&& ~~~1)).toNat < n
  v : (width * height).toNat + (row / 2 * width + (col ||| 1)).toNat < n
  rgb : rgbIndex width row col + 2 < m

theorem succeedsIff_convertPixel (nv12 : List UInt8) (width height row col : UInt32)
    (hrgb : rgb.length = m) :
    SucceedsIff (ConvertsInside width height nv12.length m row col) (fun rgb' => rgb'.length = m)
      (convertPixel nv12 width height row col rgb) := by
  refine SucceedsIff.of_iff
    ((succeedsIff_read nv12 _).bind fun y _ =>
      (succeedsIff_read nv12 _).bind fun u _ =>
      (succeedsIff_read nv12 _).bind fun v _ =>
      (succeedsIff_write hrgb _ _).bind fun rgb₁ h₁ =>
      (succeedsIff_write h₁ _ _).bind fun rgb₂ h₂ => succeedsIff_write h₂ _ _) ?_
  constructor
  · rintro ⟨hy, hu, hv, -, -, hidx⟩
    exact ⟨hy, hu, hv, hidx⟩
  · rintro ⟨hy, hu, hv, hidx⟩
    exact ⟨hy, hu, hv, by omega, by omega, hidx⟩

theorem succeedsIff_nv12ToRgb (nv12 : List UInt8) (width height : UInt32)
    (hrgb : rgb.length = m) :
    SucceedsIff (∀ row < height, ∀ col < width, ConvertsInside width height nv12.length m row col)
      (fun rgb' => rgb'.length = m) (nv12ToRgb nv12 rgb width height) :=
  UInt32.succeedsIff_forBelow (fun row _ _ h =>
    UInt32.succeedsIff_forBelow (fun col _ _ h =>
      succeedsIff_convertPixel nv12 width height row col h) h) hrgb

/-! ## Sizes -/

open SyntheticCamera (nv12Size)

theorem toNat_nv12Size (h : 3 * (width.toNat * height.toNat) < 2 ^ 32) :
    (nv12Size width height).toNat = 3 * (width.toNat * height.toNat) / 2 := by
  rw [nv12Size, UInt32.toNat_div, toNat_size h]
  rfl

theorem toNat_pixels (h : width.toNat * height.toNat < 2 ^ 32) :
    (width * height).toNat = width.toNat * height.toNat := by
  rw [UInt32.toNat_mul, Nat.mod_eq_of_lt h]

/-- Where a chroma byte of a pixel is, behind the luminance. -/
theorem toNat_chroma (hpixels : width.toNat * height.toNat < 2 ^ 32) (hrow : row < height)
    (hcol : col < width) {x : UInt32} (hx : x.toNat ≤ 2 * (col.toNat / 2) + 1) :
    (row / 2 * width + x).toNat = row.toNat / 2 * width.toNat + x.toNat := by
  have hhalf : (row / 2).toNat = row.toNat / 2 := UInt32.toNat_div row 2
  have hrow' := UInt32.lt_iff_toNat_lt.mp hrow
  have hcol' := UInt32.lt_iff_toNat_lt.mp hcol
  have hrows : (row.toNat / 2 + 1) * width.toNat ≤ height.toNat * width.toNat :=
    Nat.mul_le_mul_right _ (by omega)
  rw [Nat.succ_mul, Nat.mul_comm height.toNat] at hrows
  rw [UInt32.toNat_add, UInt32.toNat_mul, hhalf]
  omega

/-- The last chroma byte that is read is inside the frame only if there is one of it for each
pair of columns and of rows. -/
theorem dvd_of_chroma_lt {w h : Nat} (hw : 0 < w) (hh : 0 < h)
    (hlast : w * h + ((h - 1) / 2 * w + (2 * ((w - 1) / 2) + 1)) < 3 * (w * h) / 2) :
    2 ∣ w ∧ 2 ∣ h := by
  have hrows : h * w ≤ (2 * ((h - 1) / 2) + 2) * w := Nat.mul_le_mul_right w (by omega)
  rw [Nat.mul_comm h w, Nat.add_mul, Nat.mul_assoc] at hrows
  have heven : 2 ∣ w := by
    by_contra hodd
    -- the row of chroma bytes is one byte longer than the row of the image
    have hcols : 2 * ((w - 1) / 2) + 1 = w := by omega
    omega
  refine ⟨heven, ?_⟩
  by_contra hodd
  -- the last row has a row of chroma bytes of its own
  have hhalf : (2 * ((h - 1) / 2) + 1) * w = h * w := by
    congr 1
    omega
  rw [Nat.mul_comm h w, Nat.add_mul, Nat.mul_assoc] at hhalf
  omega

/-- With pairs of columns and of rows, each chroma byte that is read is inside. -/
theorem chroma_lt {w h row col : Nat} (hw : 2 ∣ w) (hh : 2 ∣ h) (hrow : row < h) (hcol : col < w) :
    w * h + (row / 2 * w + (2 * (col / 2) + 1)) < 3 * (w * h) / 2 := by
  obtain ⟨b, rfl⟩ := hh
  have hpixel : row / 2 * w + (2 * (col / 2) + 1) < w * b := pixel_lt (by omega) (by omega)
  rw [Nat.mul_left_comm w 2 b]
  omega

theorem toNat_pred {x : UInt32} (h : 0 < x.toNat) : (x - 1).toNat = x.toNat - 1 := by
  have hbound := x.toNat_lt
  rw [UInt32.toNat_sub, UInt32.toNat_one]
  omega

/-- The conversion stays inside exactly for images with pairs of columns and of rows. -/
theorem forall_convertsInside_iff (hwidth : 0 < width) (hheight : 0 < height) :
    (∀ row < height, ∀ col < width, ConvertsInside width height (nv12Size width height).toNat
      (width * height * 3).toNat row col) ↔
        2 ∣ width.toNat ∧ 2 ∣ height.toNat ∧ 3 * (width.toNat * height.toNat) < 2 ^ 32 := by
  constructor
  · intro hall
    have hw : 0 < width.toNat := UInt32.lt_iff_toNat_lt.mp hwidth
    have hh : 0 < height.toNat := UInt32.lt_iff_toNat_lt.mp hheight
    have hsize : 3 * (width.toNat * height.toNat) < 2 ^ 32 :=
      forall_rgbIndex_iff.mp fun row hrow col hcol => (hall row hrow col hcol).rgb
    -- the last pixel has the last chroma byte
    have hrow : height - 1 < height := UInt32.lt_iff_toNat_lt.mpr (by rw [toNat_pred hh]; omega)
    have hcol : width - 1 < width := UInt32.lt_iff_toNat_lt.mpr (by rw [toNat_pred hw]; omega)
    have hv := (hall _ hrow _ hcol).v
    rw [toNat_pixels (by omega), toNat_chroma (by omega) hrow hcol (UInt32.toNat_or_one _).le,
      UInt32.toNat_or_one, toNat_nv12Size hsize, toNat_pred hh, toNat_pred hw] at hv
    obtain ⟨hwidths, hheights⟩ := dvd_of_chroma_lt hw hh hv
    exact ⟨hwidths, hheights, hsize⟩
  · rintro ⟨hwidths, hheights, hsize⟩ row hrow col hcol
    have hrow' := UInt32.lt_iff_toNat_lt.mp hrow
    have hcol' := UInt32.lt_iff_toNat_lt.mp hcol
    have hpixel := pixel_lt hrow' hcol'
    have hchroma := chroma_lt hwidths hheights hrow' hcol'
    refine ⟨?_, ?_, ?_, forall_rgbIndex_iff.mpr hsize row hrow col hcol⟩
    · rw [UInt32.toNat_add, UInt32.toNat_mul, toNat_nv12Size hsize]
      omega
    · have hu := UInt32.toNat_and_not_one col
      rw [toNat_pixels (by omega), toNat_chroma (by omega) hrow hcol (by omega),
        toNat_nv12Size hsize]
      omega
    · have hv := UInt32.toNat_or_one col
      rw [toNat_pixels (by omega), toNat_chroma (by omega) hrow hcol hv.le, hv,
        toNat_nv12Size hsize]
      exact hchroma

/-! ## Scaling -/

open BinaryFloat HasValue

/-- The powers of two that are used as bounds. -/
theorem represents_two_pow {k : Nat} (hk : k ≤ 104) :
    FloatFormat.binary32.Represents (2 ^ k) := by
  refine ⟨1, k, by decide, by simp [FloatFormat.binary32], ?_, by simp⟩
  simpa [FloatFormat.binary32] using hk

/-- Sizes as numbers of single precision. -/
theorem exists_value_const (x : UInt32) : ∃ r, value (CFloat.const x.toNat : Binary32) = some r ∧
    r = roundedValue .binary32 x.toNat ∧ 0 ≤ r ∧ r ≤ 2 ^ 32 := by
  have hbound : (x.toNat : ℚ) ≤ 2 ^ 32 := by exact_mod_cast x.toNat_lt.le
  have hrepresents := represents_two_pow (k := 32) (by omega)
  exact ⟨_, value_round_of_le (Nat.cast_nonneg _) hbound hrepresents, rfl,
    roundedValue_nonneg (Nat.cast_nonneg _), roundedValue_le (Nat.cast_nonneg _) hbound hrepresents⟩

/-- The scaled coordinate, for images with at most 2^31 columns and rows. -/
theorem exists_value_coordinate {d src dst : UInt32} (hd : d < dst) (hsmall : src.toNat ≤ 2 ^ 31) :
    ∃ q, value (CFloat.const d.toNat * CFloat.const src.toNat / CFloat.const dst.toNat :
      Binary32) = some q ∧ 0 ≤ q ∧ q ≤ 2 ^ 31 := by
  obtain ⟨a, ha, haeq, ha₀, -⟩ := exists_value_const d
  obtain ⟨b, hb, hbeq, hb₀, -⟩ := exists_value_const src
  obtain ⟨c, hc, hceq, -, hc₁⟩ := exists_value_const dst
  have hdst : d.toNat < dst.toNat := UInt32.lt_iff_toNat_lt.mp hd
  have hac : a ≤ c := by
    rw [haeq, hceq]
    exact roundedValue_mono (Nat.cast_nonneg _) (by exact_mod_cast hdst.le)
  have hbound : b ≤ 2 ^ 31 := by
    rw [hbeq]
    exact roundedValue_le (Nat.cast_nonneg _) (by exact_mod_cast hsmall)
      (represents_two_pow (by omega))
  have hpos : 0 < c := by
    have hone : roundedValue .binary32 ((2 : ℚ) ^ 0) = 2 ^ 0 :=
      roundedValue_of_represents (represents_two_pow (Nat.zero_le _))
    have hmono : roundedValue .binary32 ((2 : ℚ) ^ 0) ≤ c := by
      rw [hceq]
      exact roundedValue_mono (by norm_num) (by exact_mod_cast Nat.one_le_of_lt hdst)
    rw [hone] at hmono
    linarith
  refine exists_value_scaled ha hb hc ha₀ hac hpos hb₀ hbound (represents_two_pow (by omega)) ?_
  calc c * 2 ^ 31 ≤ 2 ^ 32 * 2 ^ 31 := mul_le_mul_of_nonneg_right hc₁ (by norm_num)
    _ ≤ 2 ^ FloatFormat.binary32.maxExp := by norm_num [FloatFormat.binary32]

/-- Every pixel is taken from a column and a row that the source has. -/
theorem sample_lt {d src dst : UInt32} (hd : d < dst) (hsrc : 0 < src)
    (hsmall : src.toNat ≤ 2 ^ 31) : ∃ x, sample d src dst = some x ∧ x < src := by
  obtain ⟨q, hvalue, hq₀, hq₁⟩ := exists_value_coordinate hd hsmall
  have hwhole : toUnsigned 32 q = some ⌊q⌋₊ :=
    toUnsigned_of_le (n := 2 ^ 31) hq₀ (by exact_mod_cast hq₁) (by norm_num)
  rw [sample, hvalue, Option.bind_some, hwhole]
  refine ⟨_, rfl, ?_⟩
  have hpos : 0 < src.toNat := UInt32.lt_iff_toNat_lt.mp hsrc
  have hpred := toNat_pred hpos
  rw [UInt32.lt_iff_toNat_lt]
  -- the result is the last one where rounding leads beyond it
  split
  next hlarge => omega
  next hinside =>
    rw [UInt32.lt_iff_toNat_lt] at hinside
    omega

variable {sw sh dw dh : UInt32} {src dst : List UInt8}

theorem succeedsIff_resizePixel (hsw : 0 < sw) (hsh : 0 < sh)
    (hsize : 3 * (sw.toNat * sh.toNat) < 2 ^ 32)
    (hsrc : src.length = 3 * (sw.toNat * sh.toNat)) {dy dx : UInt32} (hdy : dy < dh) (hdx : dx < dw)
    (hdst : dst.length = m) :
    SucceedsIff (rgbIndex dw dy dx + 2 < m) (fun dst' => dst'.length = m)
      (resizePixel src sw sh dw dh dy dx dst) := by
  have hw : 0 < sw.toNat := UInt32.lt_iff_toNat_lt.mp hsw
  have hh : 0 < sh.toNat := UInt32.lt_iff_toNat_lt.mp hsh
  have hcols : sw.toNat ≤ sw.toNat * sh.toNat := Nat.le_mul_of_pos_right _ hh
  have hrows : sh.toNat ≤ sw.toNat * sh.toNat := Nat.le_mul_of_pos_left _ hw
  obtain ⟨x0, hx, hx0⟩ := sample_lt hdx hsw (by omega)
  obtain ⟨y0, hy, hy0⟩ := sample_lt hdy hsh (by omega)
  -- a pixel of the source, so that its bytes are read inside
  have hsample : rgbIndex sw y0 x0 + 2 < src.length := by
    rw [hsrc, ← toNat_size hsize]
    exact forall_rgbIndex_iff.mpr hsize y0 hy0 x0 hx0
  rw [resizePixel, hx, hy]
  refine SucceedsIff.of_iff
    ((succeedsIff_read src _).bind fun r _ =>
      (succeedsIff_write hdst _ r).bind fun dst₁ h₁ =>
      (succeedsIff_read src _).bind fun g _ =>
      (succeedsIff_write h₁ _ g).bind fun dst₂ h₂ =>
      (succeedsIff_read src _).bind fun b _ => succeedsIff_write h₂ _ b) ?_
  constructor
  · rintro ⟨-, -, -, -, -, hidx⟩
    exact hidx
  · intro hidx
    exact ⟨by omega, by omega, by omega, by omega, by omega, hidx⟩

/-- Whatever the ratio of the sizes is, scaling depends on the size of the destination only. -/
theorem succeedsIff_resizeRgb (hsw : 0 < sw) (hsh : 0 < sh)
    (hsize : 3 * (sw.toNat * sh.toNat) < 2 ^ 32)
    (hsrc : src.length = 3 * (sw.toNat * sh.toNat)) (hdst : dst.length = (dw * dh * 3).toNat) :
    SucceedsIff (3 * (dw.toNat * dh.toNat) < 2 ^ 32)
      (fun dst' => dst'.length = (dw * dh * 3).toNat) (resizeRgb src sw sh dst dw dh) :=
  (UInt32.succeedsIff_forBelow (fun _ hdy _ h =>
    UInt32.succeedsIff_forBelow (fun _ hdx _ h =>
      succeedsIff_resizePixel hsw hsh hsize hsrc hdy hdx h) h) hdst).of_iff forall_rgbIndex_iff

end RgaProcessor

/-! ## Captured frames -/

namespace SyntheticCamera

theorem succeedsIff_captureFrame {camera : SyntheticCamera} (hstreaming : camera.streaming)
    (now : UInt64) :
    SucceedsIff
      ((∀ y < camera.height, ∀ x < camera.width,
        (y * camera.width + x).toNat < camera.frameSize.toNat) ∧
          (camera.width * camera.height).toNat + (camera.width * camera.height / 2).toNat ≤
            camera.frameSize.toNat)
      (fun r => ∃ frame, r.1 = some frame ∧ frame.data.length = camera.frameSize.toNat)
      (camera.captureFrame now) := by
  rw [captureFrame, if_neg (by simp [hstreaming])]
  refine SucceedsIff.of_iff
    ((UInt32.succeedsIff_forBelow (fun y _ _ h =>
        UInt32.succeedsIff_forBelow (fun x _ _ h => succeedsIff_write h _ _) h)
          List.length_replicate).bind fun luma hluma =>
      (CheckedBuffer.succeedsIff_writeBlock hluma _ _).bind fun data hdata =>
        .some ⟨_, rfl, hdata⟩) ?_
  rw [and_true]

/-- The capture layer stays inside its frames, also where rows or columns do not come in pairs. -/
theorem exists_captureFrame {camera : SyntheticCamera} (hstreaming : camera.streaming)
    (hsize : camera.frameSize = nv12Size camera.width camera.height)
    (hfits : 3 * (camera.width.toNat * camera.height.toNat) < 2 ^ 32) (now : UInt64) :
    ∃ frame camera', camera.captureFrame now = some (some frame, camera') ∧
      frame.data.length = (nv12Size camera.width camera.height).toNat := by
  have hframe : camera.frameSize.toNat = 3 * (camera.width.toNat * camera.height.toNat) / 2 :=
    hsize ▸ RgaProcessor.toNat_nv12Size hfits
  have hpixels : (camera.width * camera.height).toNat =
      camera.width.toNat * camera.height.toNat :=
    RgaProcessor.toNat_pixels (by omega)
  obtain ⟨⟨_, camera'⟩, hcapture, frame, rfl, hlength⟩ :=
    (succeedsIff_captureFrame hstreaming now).exists_eq_some (by
      constructor
      · intro y hy x hx
        have hpixel := pixel_lt (UInt32.lt_iff_toNat_lt.mp hy) (UInt32.lt_iff_toNat_lt.mp hx)
        rw [hframe, UInt32.toNat_add, UInt32.toNat_mul]
        omega
      · have hhalf : (camera.width * camera.height / 2).toNat =
            (camera.width * camera.height).toNat / 2 := UInt32.toNat_div _ 2
        rw [hhalf, hpixels, hframe]
        omega)
  exact ⟨frame, camera', hcapture, hsize ▸ hlength⟩

end SyntheticCamera

/-! ## The whole path -/

namespace RgaProcessor

open SyntheticCamera (nv12Size)

theorem length_newImage (width height : UInt32) :
    (newImage width height).length = (width * height * 3).toNat :=
  List.length_replicate

theorem succeedsIff_process {config : Config} (hwidth : 0 < config.srcWidth)
    (hheight : 0 < config.srcHeight) {frame : ImageBuffer}
    (hframe : frame.data.length = (nv12Size config.srcWidth config.srcHeight).toNat) :
    SucceedsIff
      ((2 ∣ config.srcWidth.toNat ∧ 2 ∣ config.srcHeight.toNat ∧
        3 * (config.srcWidth.toNat * config.srcHeight.toNat) < 2 ^ 32) ∧
          3 * (config.dstWidth.toNat * config.dstHeight.toNat) < 2 ^ 32)
      (fun output => ∃ image, output = some image ∧
        image.data.length = 3 * (config.dstWidth.toNat * config.dstHeight.toNat))
      (process config (some frame)) := by
  have hconvert := (succeedsIff_nv12ToRgb frame.data config.srcWidth config.srcHeight
    (length_newImage config.srcWidth config.srcHeight)).of_iff
      (hframe ▸ forall_convertsInside_iff hwidth hheight)
  refine SucceedsIff.of_iff (hconvert.bind_of_imp fun hsource rgb hrgb =>
    (succeedsIff_resizeRgb hwidth hheight hsource.2.2 (hrgb.trans (toNat_size hsource.2.2))
      (length_newImage config.dstWidth config.dstHeight)).bind_of_imp
        fun hdst output houtput => .some ⟨_, rfl, ?_⟩) ?_
  · exact houtput.trans (toNat_size hdst)
  · rw [and_true]

/-- The path from a frame to an image makes no access outside its buffers exactly when the
frame has pairs of columns and of rows, and the sizes of the two images fit into 32 bits. -/
theorem process_isSome_iff {config : Config} (hwidth : 0 < config.srcWidth)
    (hheight : 0 < config.srcHeight) {frame : ImageBuffer}
    (hframe : frame.data.length = (nv12Size config.srcWidth config.srcHeight).toNat) :
    (process config (some frame)).isSome ↔
      2 ∣ config.srcWidth.toNat ∧ 2 ∣ config.srcHeight.toNat ∧
        3 * (config.srcWidth.toNat * config.srcHeight.toNat) < 2 ^ 32 ∧
          3 * (config.dstWidth.toNat * config.dstHeight.toNat) < 2 ^ 32 := by
  rw [(succeedsIff_process hwidth hheight hframe).isSome, and_assoc, and_assoc]

theorem process_isSome_pairs : (process
    { srcWidth := 4, srcHeight := 2, dstWidth := 3, dstHeight := 5 }
    (some { data := List.replicate 12 128, metadata := {} })).isSome :=
  (process_isSome_iff (by decide) (by decide) (by decide +kernel)).mpr (by decide)

/-- A frame with three columns: the pixels of the last one take a chroma byte from behind it. -/
theorem not_inside_odd : ∃ frame camera,
    SyntheticCamera.captureFrame (.start (.initialized { width := 3, height := 2 })) 0 =
      some (some frame, camera) ∧
    frame.data.length = 3 * 2 * 3 / 2 ∧
    process { srcWidth := 3, srcHeight := 2, dstWidth := 1, dstHeight := 1 } (some frame) = none :=
  ⟨_, _, rfl, by decide +kernel, by decide +kernel⟩

end RgaProcessor
