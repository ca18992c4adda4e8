-- SUMMARY: What the software conversion and scaling of images compute: the colour of each pixel, and from where in the source it comes.
import NeuroPipeline.Edge.RgaProcessor

/-!
# Images in software, pixel by pixel

The loops of rga_processor.cpp fill their destination from its first byte to its last. What
they write to a pixel is said with whole numbers, where the sizes are small enough for the
coordinates in single precision to have the right floor.
-/

open CheckedBuffer (read write writeBlock filled filled_zero filled_of_length write_filled read_of_lt)
open UInt32 (forBelow)

namespace RgaProcessor

/-! ## The other operations -/

def resize (input : Option ImageBuffer) (dstWidth dstHeight : UInt32) :
    Option (Option ImageBuffer) :=
  match input with
  | none => some none
  | some input => do
    let output ← resizeRgb input.data input.metadata.width input.metadata.height
      (newImage dstWidth dstHeight) dstWidth dstHeight
    some (some
      { data := output
        metadata :=
          { input.metadata with
            width := dstWidth
            height := dstHeight
            stride := dstWidth * 3 } })

/-- Whatever the format is, the bytes are those of `NV12ToRGB`. -/
def convertFormat (input : Option ImageBuffer) (dstFormat : UInt32) :
    Option (Option ImageBuffer) :=
  match input with
  | none => some none
  | some input => do
    let output ← nv12ToRgb input.data (newImage input.metadata.width input.metadata.height)
      input.metadata.width input.metadata.height
    some (some
      { data := output
        metadata :=
          { input.metadata with
            stride := input.metadata.width * 3
            format := dstFormat } })

/-! ## Loops over the pixels -/

variable {w h : UInt32} {f : Nat → UInt8}

/-- A loop over rows and columns that writes `q` bytes for each pixel. -/
theorem forBelow_pixels (buf : List UInt8) (q : Nat)
    (body : UInt32 → UInt32 → List UInt8 → Option (List UInt8))
    (hbody : ∀ row < h, ∀ col < w,
      body row col (filled f buf (q * (row.toNat * w.toNat + col.toNat))) =
        some (filled f buf (q * (row.toNat * w.toNat + col.toNat + 1)))) :
    h.forBelow (fun row => w.forBelow fun col => body row col) buf =
      some (filled f buf (q * (w.toNat * h.toNat))) := by
  have hrow : ∀ row < h, w.forBelow (fun col => body row col)
      (filled f buf (q * (row.toNat * w.toNat))) =
        some (filled f buf (q * ((row.toNat + 1) * w.toNat))) := by
    intro row hrow
    rw [Nat.succ_mul]
    exact UInt32.forBelow_eq (fun col => filled f buf (q * (row.toNat * w.toNat + col)))
      fun col hcol => hbody row hrow col hcol
  have hrows := UInt32.forBelow_eq (fun row => filled f buf (q * (row * w.toNat))) hrow
  rw [Nat.zero_mul, Nat.mul_zero, filled_zero] at hrows
  rw [hrows, Nat.mul_comm h.toNat]

/-! ## Coordinates -/

section

open BinaryFloat HasValue

variable {d src dst : UInt32}

theorem represents_of_le {n : Nat} (h : n ≤ 2 ^ 24) : FloatFormat.binary32.Represents (n : ℚ) := by
  rcases h.eq_or_lt with rfl | hlt
  · exact_mod_cast represents_two_pow (k := 24) (by omega)
  · have habs : |(n : Int)| < 2 ^ FloatFormat.binary32.precision := by
      rw [Nat.abs_cast]
      exact_mod_cast hlt
    exact_mod_cast represents_intCast habs (by decide) (by decide)

theorem floor_roundedValue {a b : Nat} (ha : a < 2 ^ 24) (hb : 0 < b) (hsmall : b ≤ 2 ^ 24) :
    ⌊roundedValue .binary32 (a / b)⌋₊ = a / b := by
  rcases Nat.eq_zero_or_pos a with rfl | hpos
  · simp [roundedValue_of_represents FloatFormat.binary32.represents_zero]
  · refine floor_roundedValue_div ha hb (represents_of_le ((Nat.div_le_self a b).trans ha.le)) ?_
    have hb' : (0 : ℚ) < b := Nat.cast_pos.mpr hb
    have hone : (1 : ℚ) ≤ a := by exact_mod_cast hpos
    have hbound : (b : ℚ) ≤ 2 ^ 24 := by exact_mod_cast hsmall
    rw [le_div_iff₀ hb']
    calc (2 : ℚ) ^ (FloatFormat.binary32.minExp + FloatFormat.binary32.precision - 1) * b
        ≤ 2 ^ (-24 : Int) * 2 ^ 24 :=
          mul_le_mul (zpow_le_zpow_right₀ one_le_two (by decide)) hbound hb'.le (by positivity)
      _ = 1 := by norm_num
      _ ≤ a := hone

/-- The coordinate is the floor of the quotient, without an error of rounding. -/
theorem sample_eq (hd : d < dst) (hsrc : 0 < src) (hsmall : src.toNat * dst.toNat ≤ 2 ^ 24) :
    sample d src dst = some (UInt32.ofNat (d.toNat * src.toNat / dst.toNat)) := by
  have hd' : d.toNat < dst.toNat := UInt32.lt_iff_toNat_lt.mp hd
  have hsrc' : 0 < src.toNat := UInt32.lt_iff_toNat_lt.mp hsrc
  have hdst : 0 < dst.toNat := Nat.zero_lt_of_lt hd'
  have hsrcle : src.toNat ≤ 2 ^ 24 := (Nat.le_mul_of_pos_right _ hdst).trans hsmall
  have hdstle : dst.toNat ≤ 2 ^ 24 := (Nat.le_mul_of_pos_left _ hsrc').trans hsmall
  have hproduct : d.toNat * src.toNat < 2 ^ 24 := by
    calc d.toNat * src.toNat < dst.toNat * src.toNat := Nat.mul_lt_mul_of_pos_right hd' hsrc'
      _ = src.toNat * dst.toNat := Nat.mul_comm ..
      _ ≤ 2 ^ 24 := hsmall
  have hvalue : ∀ n : Nat, n ≤ 2 ^ 24 → value (CFloat.const (n : ℚ) : Binary32) = some (n : ℚ) :=
    fun n hn => value_round_of_represents (represents_of_le hn)
  have hmul : (CFloat.const d.toNat * CFloat.const src.toNat : Binary32) =
      round .binary32 (d.toNat * src.toNat) :=
    mul_eq_round (hvalue _ (hd'.le.trans hdstle)) (hvalue _ hsrcle)
  have hmulvalue : value (CFloat.const d.toNat * CFloat.const src.toNat : Binary32) =
      some ((d.toNat * src.toNat : Nat) : ℚ) := by
    rw [hmul, ← Nat.cast_mul]
    exact hvalue _ hproduct.le
  have hdiv := div_eq_round hmulvalue (hvalue _ hdstle) (Nat.cast_ne_zero.mpr hdst.ne')
  have hquotient : (((d.toNat * src.toNat : Nat) : ℚ) / dst.toNat) ≤ ((2 ^ 24 : Nat) : ℚ) := by
    rw [div_le_iff₀ (Nat.cast_pos.mpr hdst)]
    exact_mod_cast hproduct.le.trans (Nat.le_mul_of_pos_right _ hdst)
  have hnonneg : (0 : ℚ) ≤ ((d.toNat * src.toNat : Nat) : ℚ) / dst.toNat :=
    div_nonneg (Nat.cast_nonneg _) (Nat.cast_nonneg _)
  have hrounded := value_round_of_le hnonneg hquotient (represents_of_le le_rfl)
  have hwhole : toUnsigned 32 (roundedValue .binary32
      (((d.toNat * src.toNat : Nat) : ℚ) / dst.toNat)) =
        some (d.toNat * src.toNat / dst.toNat) := by
    rw [toUnsigned_of_le (n := 2 ^ 24) (roundedValue_nonneg hnonneg)
      (roundedValue_le hnonneg hquotient (represents_of_le le_rfl)) (by norm_num),
      floor_roundedValue hproduct hdst hdstle]
  rw [sample, hdiv, hrounded, Option.bind_some, hwhole]
  -- the last column and the last row are never passed
  have hlt : d.toNat * src.toNat / dst.toNat < src.toNat :=
    Nat.div_lt_of_lt_mul (Nat.mul_lt_mul_of_pos_right hd' hsrc')
  refine congrArg some (if_neg ?_)
  rw [UInt32.lt_iff_toNat_lt, toNat_pred hsrc', UInt32.toNat_ofNat_of_lt' (hlt.trans src.toNat_lt)]
  omega

end

/-! ## Scaling -/

/-- A byte of the scaled image: its pixel is the one of the source at the same share of the
width and of the height, rounded down. -/
def scaledByte (src : List UInt8) (sw sh dw dh k : Nat) : UInt8 :=
  let pixel := k / 3
  src.getD (3 * (pixel / dw * sh / dh * sw + pixel % dw * sw / dw) + k % 3) 0

def scaled (src : List UInt8) (sw sh dw dh : Nat) : List UInt8 :=
  (List.range (3 * (dw * dh))).map (scaledByte src sw sh dw dh)

@[simp] theorem length_scaled (src : List UInt8) (sw sh dw dh : Nat) :
    (scaled src sw sh dw dh).length = 3 * (dw * dh) := by
  rw [scaled, List.length_map, List.length_range]

theorem getD_scaled {src : List UInt8} {sw sh dw dh k : Nat} (hk : k < 3 * (dw * dh)) :
    (scaled src sw sh dw dh).getD k 0 = scaledByte src sw sh dw dh k := by
  have hlt : k < (scaled src sw sh dw dh).length := by rwa [length_scaled]
  rw [List.getD_eq_getElem _ _ hlt]
  simp [scaled]

/-- The place of a byte in its image. -/
theorem byte_place {width col c : Nat} (row : Nat) (hcol : col < width) (hc : c < 3) :
    (3 * (row * width + col) + c) / 3 = row * width + col ∧
      (3 * (row * width + col) + c) % 3 = c ∧
      (row * width + col) / width = row ∧ (row * width + col) % width = col := by
  have hwidth : 0 < width := Nat.zero_lt_of_lt hcol
  refine ⟨by omega, by omega, ?_, ?_⟩
  · rw [Nat.mul_comm, Nat.mul_add_div hwidth, Nat.div_eq_of_lt hcol, Nat.add_zero]
  · rw [Nat.mul_comm, Nat.mul_add_mod, Nat.mod_eq_of_lt hcol]

theorem scaledByte_place {src : List UInt8} {sw sh dw dh row col c : Nat} (hcol : col < dw)
    (hc : c < 3) : scaledByte src sw sh dw dh (3 * (row * dw + col) + c) =
      src.getD (3 * (row * sh / dh * sw + col * sw / dw) + c) 0 := by
  obtain ⟨hpixel, hchannel, hrow, hcol'⟩ := byte_place row hcol hc
  simp only [scaledByte, hpixel, hchannel, hrow, hcol']

variable {src dst : List UInt8} {sw sh dw dh : UInt32}

/-- What is asked of the sizes of two images. -/
structure Fits (sw sh dw dh : UInt32) : Prop where
  width_pos : 0 < sw
  height_pos : 0 < sh
  source : 3 * (sw.toNat * sh.toNat) < 2 ^ 32
  destination : 3 * (dw.toNat * dh.toNat) < 2 ^ 32
  widths : sw.toNat * dw.toNat ≤ 2 ^ 24
  heights : sh.toNat * dh.toNat ≤ 2 ^ 24

theorem resizePixel_filled (h : Fits sw sh dw dh) (hsrc : src.length = 3 * (sw.toNat * sh.toNat))
    (hdst : dst.length = 3 * (dw.toNat * dh.toNat)) {dy dx : UInt32} (hdy : dy < dh)
    (hdx : dx < dw) :
    let f := scaledByte src sw.toNat sh.toNat dw.toNat dh.toNat
    resizePixel src sw sh dw dh dy dx (filled f dst (3 * (dy.toNat * dw.toNat + dx.toNat))) =
      some (filled f dst (3 * (dy.toNat * dw.toNat + dx.toNat + 1))) := by
  intro f
  have hdy' : dy.toNat < dh.toNat := UInt32.lt_iff_toNat_lt.mp hdy
  have hdx' : dx.toNat < dw.toNat := UInt32.lt_iff_toNat_lt.mp hdx
  have hx₀ : dx.toNat * sw.toNat / dw.toNat < sw.toNat := Nat.div_lt_of_lt_mul
    (Nat.mul_lt_mul_of_pos_right hdx' (UInt32.lt_iff_toNat_lt.mp h.width_pos))
  have hy₀ : dy.toNat * sh.toNat / dh.toNat < sh.toNat := Nat.div_lt_of_lt_mul
    (Nat.mul_lt_mul_of_pos_right hdy' (UInt32.lt_iff_toNat_lt.mp h.height_pos))
  have hx₁ : (UInt32.ofNat (dx.toNat * sw.toNat / dw.toNat)).toNat =
      dx.toNat * sw.toNat / dw.toNat := UInt32.toNat_ofNat_of_lt' (hx₀.trans sw.toNat_lt)
  have hy₁ : (UInt32.ofNat (dy.toNat * sh.toNat / dh.toNat)).toNat =
      dy.toNat * sh.toNat / dh.toNat := UInt32.toNat_ofNat_of_lt' (hy₀.trans sh.toNat_lt)
  have hsrcIdx := rgbIndex_eq h.source (UInt32.lt_iff_toNat_lt.mpr (hy₁.trans_lt hy₀))
    (UInt32.lt_iff_toNat_lt.mpr (hx₁.trans_lt hx₀))
  rw [hx₁, hy₁] at hsrcIdx
  have hdstIdx := rgbIndex_eq h.destination hdy hdx
  have hinside := pixel_lt hy₀ hx₀
  have hroom := pixel_lt hdy' hdx'
  rw [resizePixel, sample_eq hdx h.width_pos h.widths, sample_eq hdy h.height_pos h.heights]
  simp only [Option.bind_eq_bind, Option.bind_some, hsrcIdx, hdstIdx]
  have hbyte : ∀ c < 3, read src
      (3 * (dy.toNat * sh.toNat / dh.toNat * sw.toNat + dx.toNat * sw.toNat / dw.toNat) + c) =
        some (f (3 * (dy.toNat * dw.toNat + dx.toNat) + c)) := by
    intro c hc
    have hf : f (3 * (dy.toNat * dw.toNat + dx.toNat) + c) = _ := scaledByte_place hdx' hc
    rw [hf]
    exact read_of_lt (by omega) 0
  have hr := hbyte 0 (by omega)
  rw [Nat.add_zero, Nat.add_zero] at hr
  rw [hr, Option.bind_some, write_filled (by omega), Option.bind_some, hbyte 1 (by omega),
    Option.bind_some, write_filled (by omega), Option.bind_some, hbyte 2 (by omega),
    Option.bind_some]
  exact write_filled (by omega)

/-- Scaling takes each pixel from where it should. -/
theorem resizeRgb_eq (h : Fits sw sh dw dh) (hsrc : src.length = 3 * (sw.toNat * sh.toNat))
    (hdst : dst.length = 3 * (dw.toNat * dh.toNat)) :
    resizeRgb src sw sh dst dw dh =
      some (scaled src sw.toNat sh.toNat dw.toNat dh.toNat) := by
  have hloop := forBelow_pixels dst 3 (fun dy dx => resizePixel src sw sh dw dh dy dx)
    fun dy hdy dx hdx => resizePixel_filled h hsrc hdst hdy hdx
  rw [resizeRgb, hloop, filled_of_length hdst]
  rfl

/-! ## There and back -/

theorem exists_place {k width height : Nat} (hk : k < 3 * (width * height)) :
    ∃ row < height, ∃ col < width, ∃ c < 3, k = 3 * (row * width + col) + c := by
  have hpixel : k / 3 < width * height := Nat.div_lt_of_lt_mul hk
  have hwidth : 0 < width := Nat.pos_of_mul_pos_right (Nat.zero_lt_of_lt hpixel)
  refine ⟨k / 3 / width, Nat.div_lt_of_lt_mul hpixel, k / 3 % width, Nat.mod_lt _ hwidth,
    k % 3, Nat.mod_lt _ (by omega), ?_⟩
  rw [Nat.div_add_mod']
  omega

/-- Images of one size are equal when their bytes are. -/
theorem image_ext {a b : List UInt8} {width height : Nat} (ha : a.length = 3 * (width * height))
    (hb : b.length = 3 * (width * height))
    (h : ∀ row < height, ∀ col < width, ∀ c < 3,
      a.getD (3 * (row * width + col) + c) 0 = b.getD (3 * (row * width + col) + c) 0) :
    a = b := by
  refine List.ext_getElem (ha.trans hb.symm) fun k hka hkb => ?_
  obtain ⟨row, hrow, col, hcol, c, hc, rfl⟩ := exists_place (hka.trans_eq ha)
  have hbyte := h row hrow col hcol c hc
  rwa [List.getD_eq_getElem _ _ hka, List.getD_eq_getElem _ _ hkb] at hbyte

theorem getD_scaled_place {src : List UInt8} {sw sh dw dh row col c : Nat} (hrow : row < dh)
    (hcol : col < dw) (hc : c < 3) :
    (scaled src sw sh dw dh).getD (3 * (row * dw + col) + c) 0 =
      src.getD (3 * (row * sh / dh * sw + col * sw / dw) + c) 0 := by
  have hroom := pixel_lt hrow hcol
  rw [getD_scaled (by omega), scaledByte_place hcol hc]

/-- An image that is made larger by whole factors, and small again, is the same. -/
theorem scaled_scaled {src : List UInt8} {width height k l : Nat} (hk : 0 < k) (hl : 0 < l)
    (hsrc : src.length = 3 * (width * height)) :
    scaled (scaled src width height (k * width) (l * height)) (k * width) (l * height)
      width height = src := by
  refine image_ext (length_scaled ..) hsrc fun row hrow col hcol c hc => ?_
  have hwidth : 0 < width := Nat.zero_lt_of_lt hcol
  have hheight : 0 < height := Nat.zero_lt_of_lt hrow
  have hrow' : row * (l * height) / height = l * row := by
    rw [← Nat.mul_assoc, Nat.mul_div_cancel _ hheight, Nat.mul_comm]
  have hcol' : col * (k * width) / width = k * col := by
    rw [← Nat.mul_assoc, Nat.mul_div_cancel _ hwidth, Nat.mul_comm]
  have hrowback : l * row * height / (l * height) = row := by
    rw [Nat.mul_assoc, Nat.mul_div_mul_left _ _ hl, Nat.mul_div_cancel _ hheight]
  have hcolback : k * col * width / (k * width) = col := by
    rw [Nat.mul_assoc, Nat.mul_div_mul_left _ _ hk, Nat.mul_div_cancel _ hwidth]
  rw [getD_scaled_place hrow hcol hc, hrow', hcol',
    getD_scaled_place (Nat.mul_lt_mul_of_pos_left hrow hl) (Nat.mul_lt_mul_of_pos_left hcol hk) hc,
    hrowback, hcolback]

theorem Fits.swap (h : Fits sw sh dw dh) (hw : 0 < dw) (hh : 0 < dh) : Fits dw dh sw sh where
  width_pos := hw
  height_pos := hh
  source := h.destination
  destination := h.source
  widths := Nat.mul_comm .. ▸ h.widths
  heights := Nat.mul_comm .. ▸ h.heights

theorem resize_eq {frame : ImageBuffer} (h : Fits frame.metadata.width frame.metadata.height dw dh)
    (hlength : frame.data.length =
      3 * (frame.metadata.width.toNat * frame.metadata.height.toNat)) :
    resize (some frame) dw dh = some (some
      { data := scaled frame.data frame.metadata.width.toNat frame.metadata.height.toNat
          dw.toNat dh.toNat
        metadata := { frame.metadata with width := dw, height := dh, stride := dw * 3 } }) := by
  have hnew : (newImage dw dh).length = 3 * (dw.toNat * dh.toNat) :=
    (length_newImage dw dh).trans (toNat_size h.destination)
  simp only [resize, resizeRgb_eq h hlength hnew]
  rfl

/-- Scaling takes each pixel from the row and the column at its share of the source, rounded
down; and an image that is scaled to multiples of its sizes, and back, is the same. -/
theorem resize_exact {frame : ImageBuffer}
    (h : Fits frame.metadata.width frame.metadata.height dw dh)
    (hlength : frame.data.length =
      3 * (frame.metadata.width.toNat * frame.metadata.height.toNat)) :
    ∃ image, resize (some frame) dw dh = some (some image) ∧
      image.data.length = 3 * (dw.toNat * dh.toNat) ∧
      (∀ row < dh.toNat, ∀ col < dw.toNat, ∀ c < 3,
        image.data.getD (3 * (row * dw.toNat + col) + c) 0 =
          frame.data.getD (3 * (row * frame.metadata.height.toNat / dh.toNat *
            frame.metadata.width.toNat + col * frame.metadata.width.toNat / dw.toNat) + c) 0) ∧
      (0 < dw → 0 < dh → frame.metadata.width.toNat ∣ dw.toNat →
        frame.metadata.height.toNat ∣ dh.toNat →
        resize (some image) frame.metadata.width frame.metadata.height = some (some
          { frame with metadata := { frame.metadata with stride := frame.metadata.width * 3 } })) := by
  refine ⟨_, resize_eq h hlength, length_scaled .., fun row hrow col hcol c hc =>
    getD_scaled_place hrow hcol hc, fun hdw hdh hw hh => ?_⟩
  obtain ⟨k, hk⟩ := hw
  obtain ⟨l, hl⟩ := hh
  have hk₀ : 0 < k := Nat.pos_of_mul_pos_left (hk ▸ UInt32.lt_iff_toNat_lt.mp hdw)
  have hl₀ : 0 < l := Nat.pos_of_mul_pos_left (hl ▸ UInt32.lt_iff_toNat_lt.mp hdh)
  rw [resize_eq (h.swap hdw hdh) (length_scaled ..)]
  simp only [hk, hl, Nat.mul_comm _ k, Nat.mul_comm _ l, scaled_scaled hk₀ hl₀ hlength]

/-- Two pixels, each of which becomes four, and back. -/
theorem resize_exact_twice :
    ∃ image, resize (some ⟨[1, 2, 3, 4, 5, 6], { width := 2, height := 1, stride := 6 }⟩) 4 2 =
        some (some image) ∧
      resize (some image) 2 1 =
        some (some ⟨[1, 2, 3, 4, 5, 6], { width := 2, height := 1, stride := 6 }⟩) := by
  obtain ⟨image, himage, -, -, hback⟩ := @resize_exact 4 2
    ⟨[1, 2, 3, 4, 5, 6], { width := 2, height := 1, stride := 6 }⟩
    ⟨by decide, by decide, by decide, by decide, by decide, by decide⟩ rfl
  exact ⟨image, himage, hback (by decide) (by decide) (by decide) (by decide)⟩

/-! ## Conversion -/

/-- The three bytes of a pixel with these components. -/
def colour (y u v : UInt8) (channel : Nat) : UInt8 :=
  let y : Int := y.toNat
  let u : Int := u.toNat - 128
  let v : Int := v.toNat - 128
  match channel with
  | 0 => clampByte (y + (359 * v).shiftRight 8)
  | 1 => clampByte (y - (88 * u + 183 * v).shiftRight 8)
  | _ => clampByte (y + (454 * u).shiftRight 8)

/-- A channel of a pixel of an NV12 frame. -/
def frameColour (nv12 : List UInt8) (width height row col channel : Nat) : UInt8 :=
  let chroma := width * height + (row / 2 * width + 2 * (col / 2))
  colour (nv12.getD (row * width + col) 0) (nv12.getD chroma 0) (nv12.getD (chroma + 1) 0) channel

def convertedByte (nv12 : List UInt8) (width height k : Nat) : UInt8 :=
  frameColour nv12 width height (k / 3 / width) (k / 3 % width) (k % 3)

def converted (nv12 : List UInt8) (width height : Nat) : List UInt8 :=
  (List.range (3 * (width * height))).map (convertedByte nv12 width height)

theorem convertedByte_place {nv12 : List UInt8} {width height row col c : Nat}
    (hcol : col < width) (hc : c < 3) :
    convertedByte nv12 width height (3 * (row * width + col) + c) =
      frameColour nv12 width height row col c := by
  obtain ⟨hpixel, hchannel, hrow, hcol'⟩ := byte_place row hcol hc
  rw [convertedByte, hpixel, hchannel, hrow, hcol']

@[simp] theorem length_converted (nv12 : List UInt8) (width height : Nat) :
    (converted nv12 width height).length = 3 * (width * height) := by
  rw [converted, List.length_map, List.length_range]

theorem getD_converted {nv12 : List UInt8} {width height row col c : Nat} (hrow : row < height)
    (hcol : col < width) (hc : c < 3) :
    (converted nv12 width height).getD (3 * (row * width + col) + c) 0 =
      frameColour nv12 width height row col c := by
  have hroom := pixel_lt hrow hcol
  have hlt : 3 * (row * width + col) + c < (converted nv12 width height).length := by
    rw [length_converted]
    omega
  rw [List.getD_eq_getElem _ _ hlt, ← convertedByte_place hcol hc]
  simp [converted]

variable {nv12 rgb : List UInt8} {width height : UInt32}

theorem convertPixel_filled (hsize : 3 * (width.toNat * height.toNat) < 2 ^ 32)
    (hrgb : rgb.length = 3 * (width.toNat * height.toNat)) {row col : UInt32} (hrow : row < height)
    (hcol : col < width) (hinside : ConvertsInside width height nv12.length
      (3 * (width.toNat * height.toNat)) row col) :
    let f := convertedByte nv12 width.toNat height.toNat
    convertPixel nv12 width height row col
        (filled f rgb (3 * (row.toNat * width.toNat + col.toNat))) =
      some (filled f rgb (3 * (row.toNat * width.toNat + col.toNat + 1))) := by
  intro f
  have hpixels : width.toNat * height.toNat < 2 ^ 32 := by omega
  have hroom := pixel_lt (UInt32.lt_iff_toNat_lt.mp hrow) (UInt32.lt_iff_toNat_lt.mp hcol)
  have heven : (col &&& ~~~1).toNat = 2 * (col.toNat / 2) := UInt32.toNat_and_not_one col
  have hodd : (col ||| 1).toNat = 2 * (col.toNat / 2) + 1 := UInt32.toNat_or_one col
  have hu : (row / 2 * width + (col &&& ~~~1)).toNat =
      row.toNat / 2 * width.toNat + 2 * (col.toNat / 2) :=
    (toNat_chroma hpixels hrow hcol (by omega)).trans (congrArg _ heven)
  have hv : (row / 2 * width + (col ||| 1)).toNat =
      row.toNat / 2 * width.toNat + (2 * (col.toNat / 2) + 1) :=
    (toNat_chroma hpixels hrow hcol (by omega)).trans (congrArg _ hodd)
  have hy : (row * width + col).toNat = row.toNat * width.toNat + col.toNat := by
    rw [UInt32.toNat_add, UInt32.toNat_mul]
    omega
  have hbyte : ∀ c < 3, f (3 * (row.toNat * width.toNat + col.toNat) + c) =
      frameColour nv12 width.toNat height.toNat row.toNat col.toNat c :=
    fun c hc => convertedByte_place (UInt32.lt_iff_toNat_lt.mp hcol) hc
  have hready := read_of_lt hinside.y 0
  have hreadu := read_of_lt hinside.u 0
  have hreadv := read_of_lt hinside.v 0
  rw [convertPixel]
  simp only [Option.bind_eq_bind, hready, hreadu, hreadv, Option.bind_some,
    rgbIndex_eq hsize hrow hcol]
  simp only [hy, hu, hv, toNat_pixels hpixels, ← Nat.add_assoc]
  have hr := hbyte 0 (by omega)
  have hg := hbyte 1 (by omega)
  have hb := hbyte 2 (by omega)
  simp only [frameColour, colour, Nat.add_zero, ← Nat.add_assoc] at hr hg hb
  rw [← hr, write_filled (by omega), Option.bind_some, ← hg, write_filled (by omega),
    Option.bind_some, ← hb]
  exact write_filled (by omega)

open SyntheticCamera (nv12Size)

/-- What is asked of the size of a frame. -/
structure Paired (width height : UInt32) : Prop where
  width_pos : 0 < width
  height_pos : 0 < height
  columns : 2 ∣ width.toNat
  rows : 2 ∣ height.toNat
  size : 3 * (width.toNat * height.toNat) < 2 ^ 32

/-- The conversion gives each pixel its colour. -/
theorem nv12ToRgb_eq (h : Paired width height)
    (hframe : nv12.length = (nv12Size width height).toNat)
    (hrgb : rgb.length = 3 * (width.toNat * height.toNat)) :
    nv12ToRgb nv12 rgb width height = some (converted nv12 width.toNat height.toNat) := by
  have hinside : ∀ row < height, ∀ col < width, ConvertsInside width height nv12.length
      (3 * (width.toNat * height.toNat)) row col := by
    rw [hframe, ← toNat_size h.size]
    exact (forall_convertsInside_iff h.width_pos h.height_pos).mpr ⟨h.columns, h.rows, h.size⟩
  have hloop := forBelow_pixels rgb 3 (fun row col => convertPixel nv12 width height row col)
    fun row hrow col hcol => convertPixel_filled h.size hrgb hrow hcol (hinside row hrow col hcol)
  rw [nv12ToRgb, hloop, filled_of_length hrgb]
  rfl

theorem newImage_length (hsize : 3 * (width.toNat * height.toNat) < 2 ^ 32) :
    (newImage width height).length = 3 * (width.toNat * height.toNat) :=
  (length_newImage width height).trans (toNat_size hsize)

theorem process_eq {config : Config} (hpaired : Paired config.srcWidth config.srcHeight)
    (hfits : Fits config.srcWidth config.srcHeight config.dstWidth config.dstHeight)
    {frame : ImageBuffer}
    (hframe : frame.data.length = (nv12Size config.srcWidth config.srcHeight).toNat) :
    process config (some frame) = some (some
      { data := scaled (converted frame.data config.srcWidth.toNat config.srcHeight.toNat)
          config.srcWidth.toNat config.srcHeight.toNat config.dstWidth.toNat config.dstHeight.toNat
        metadata :=
          { width := config.dstWidth
            height := config.dstHeight
            stride := config.dstWidth * 3
            format := 0x33424752
            timestampUs := frame.metadata.timestampUs
            frameId := frame.metadata.frameId } }) := by
  have hconvert := nv12ToRgb_eq hpaired hframe (newImage_length hpaired.size)
  have hscale := resizeRgb_eq hfits (length_converted frame.data _ _)
    (newImage_length hfits.destination)
  simp only [process, hconvert, hscale, Option.bind_eq_bind, Option.bind_some]

theorem share_lt {source destination k : Nat} (hsource : 0 < source) (hk : k < destination) :
    k * source / destination < source :=
  Nat.div_lt_of_lt_mul (Nat.mul_lt_mul_of_pos_right hk hsource)

theorem getD_processed {nv12 : List UInt8} {sw sh dw dh row col c : Nat} (hw : 0 < sw)
    (hh : 0 < sh) (hrow : row < dh) (hcol : col < dw) (hc : c < 3) :
    (scaled (converted nv12 sw sh) sw sh dw dh).getD (3 * (row * dw + col) + c) 0 =
      frameColour nv12 sw sh (row * sh / dh) (col * sw / dw) c := by
  rw [getD_scaled_place hrow hcol hc, getD_converted (share_lt hh hrow) (share_lt hw hcol) hc]

theorem clampByte_toNat (y : UInt8) : clampByte y.toNat = y := by
  have hbound := y.toNat_lt
  have hclamp : (max 0 (min 255 (y.toNat : Int))).toNat = y.toNat := by omega
  rw [clampByte, hclamp, UInt8.ofNat_toNat]

/-- Without chroma a pixel is grey. -/
theorem colour_neutral (y : UInt8) (channel : Nat) : colour y 128 128 channel = y := by
  have hgrey : ∀ x : Int, x = 0 → clampByte (y.toNat + x) = y := by
    rintro x rfl
    rw [Int.add_zero, clampByte_toNat]
  match channel with
  | 0 => exact hgrey _ (by decide)
  | 1 =>
      have hgreen : clampByte (y.toNat + -(88 * 0 + 183 * 0 : Int).shiftRight 8) = y :=
        hgrey _ (by decide)
      exact hgreen
  | _ + 2 => exact hgrey _ (by decide)

end RgaProcessor

namespace SyntheticCamera

/-- A byte of a captured frame: the luminance of a pixel, or chroma, which is neutral. -/
def frameByte (camera : SyntheticCamera) (k : Nat) : UInt8 :=
  if k < camera.width.toNat * camera.height.toNat then
    camera.luma (.ofNat (k % camera.width.toNat)) (.ofNat (k / camera.width.toNat))
  else 128

def frameBytes (camera : SyntheticCamera) : List UInt8 :=
  (List.range (3 * (camera.width.toNat * camera.height.toNat) / 2)).map camera.frameByte

/-- The next frame. -/
def captured (camera : SyntheticCamera) (now : UInt64) : ImageBuffer where
  data := camera.frameBytes
  metadata :=
    { width := camera.width
      height := camera.height
      stride := camera.width
      format := 0x3231564E
      timestampUs := now
      frameId := camera.frameId }

variable {camera : SyntheticCamera}

theorem frameByte_pixel {row col : Nat} (hrow : row < camera.height.toNat)
    (hcol : col < camera.width.toNat) :
    camera.frameByte (row * camera.width.toNat + col) = camera.luma (.ofNat col) (.ofNat row) := by
  have hwidth : 0 < camera.width.toNat := Nat.zero_lt_of_lt hcol
  have hdiv : (row * camera.width.toNat + col) / camera.width.toNat = row := by
    rw [Nat.mul_comm, Nat.mul_add_div hwidth, Nat.div_eq_of_lt hcol, Nat.add_zero]
  have hmod : (row * camera.width.toNat + col) % camera.width.toNat = col := by
    rw [Nat.mul_comm, Nat.mul_add_mod, Nat.mod_eq_of_lt hcol]
  rw [frameByte, if_pos (pixel_lt hrow hcol), hdiv, hmod]

theorem getD_frameBytes {k : Nat}
    (hk : k < 3 * (camera.width.toNat * camera.height.toNat) / 2) :
    camera.frameBytes.getD k 0 = camera.frameByte k := by
  have hlt : k < camera.frameBytes.length := by
    rwa [frameBytes, List.length_map, List.length_range]
  rw [List.getD_eq_getElem _ _ hlt]
  simp [frameBytes]

theorem captureFrame_eq (hstreaming : camera.streaming)
    (hsize : camera.frameSize = nv12Size camera.width camera.height)
    (hfits : 3 * (camera.width.toNat * camera.height.toNat) < 2 ^ 32) (now : UInt64) :
    camera.captureFrame now =
      some (some (camera.captured now), { camera with frameId := camera.frameId + 1 }) := by
  have hpixels : (camera.width * camera.height).toNat =
      camera.width.toNat * camera.height.toNat := RgaProcessor.toNat_pixels (by omega)
  have hframe : camera.frameSize.toNat = 3 * (camera.width.toNat * camera.height.toNat) / 2 :=
    hsize ▸ RgaProcessor.toNat_nv12Size hfits
  have hhalf : (camera.width * camera.height / 2).toNat =
      camera.width.toNat * camera.height.toNat / 2 := by
    rw [UInt32.toNat_div, hpixels]
    rfl
  have hlength : (List.replicate camera.frameSize.toNat (0 : UInt8)).length =
      3 * (camera.width.toNat * camera.height.toNat) / 2 := by
    rw [List.length_replicate, hframe]
  have hchroma := CheckedBuffer.writeBlock_filled (f := camera.frameByte)
    (n := camera.width.toNat * camera.height.toNat) (m := (camera.width * camera.height / 2).toNat)
    (by rw [hlength, hhalf]; omega) (fun k hk => by
      have hneutral : camera.frameByte (camera.width.toNat * camera.height.toNat + k) = 128 :=
        if_neg (by omega)
      rw [hneutral]
      exact Vector.getElem_replicate hk)
  have htotal : camera.width.toNat * camera.height.toNat +
      (camera.width * camera.height / 2).toNat =
        3 * (camera.width.toNat * camera.height.toNat) / 2 := by omega
  rw [htotal, filled_of_length hlength] at hchroma
  have hluma := RgaProcessor.forBelow_pixels (f := camera.frameByte)
    (List.replicate camera.frameSize.toNat 0) 1
    (fun y x data => write data (y * camera.width + x).toNat (camera.luma x y))
    fun y (hy : y < camera.height) x (hx : x < camera.width) => by
      have hpixel := pixel_lt (UInt32.lt_iff_toNat_lt.mp hy) (UInt32.lt_iff_toNat_lt.mp hx)
      have hindex : (y * camera.width + x).toNat = y.toNat * camera.width.toNat + x.toNat := by
        rw [UInt32.toNat_add, UInt32.toNat_mul]
        omega
      have hbyte := frameByte_pixel (UInt32.lt_iff_toNat_lt.mp hy) (UInt32.lt_iff_toNat_lt.mp hx)
      rw [UInt32.ofNat_toNat, UInt32.ofNat_toNat] at hbyte
      rw [Nat.one_mul, Nat.one_mul, hindex, ← hbyte]
      exact write_filled (by omega)
  rw [Nat.one_mul] at hluma
  rw [captureFrame, if_neg (by simp [hstreaming])]
  simp only [hluma, hpixels, hchroma, Option.bind_eq_bind, Option.bind_some]
  rfl

end SyntheticCamera
