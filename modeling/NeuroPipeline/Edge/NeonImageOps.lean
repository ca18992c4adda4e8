-- SUMMARY: Image kernels with and without vector instructions: both leave the same bytes, for every number of pixels.
import NeuroPipeline.Lib.Neon

/-!
# Vectorised image kernels

Model of `NeonImageOps` (neon_image_ops.cpp). Where the target has vectors, blocks of 16
elements go before the scalar loop, which then does what is left. A buffer is what its pointer
leads to; source and destination are apart.
-/

open CheckedBuffer (read write filled filled_zero write_filled read_of_lt)
open Neon

namespace NeonImageOps

/-- What a pointer leads to. No object has more than `PTRDIFF_MAX` bytes. -/
structure Buffer where
  bytes : List UInt8
  length_lt : bytes.length < 2 ^ 63

/-! ## The kernels -/

/-- `dst[j] = src[i]`. -/
def copyByte (src : List UInt8) (i : UInt64) (dst : List UInt8) (j : UInt64) :
    Option (List UInt8) := do
  let x ← read src i.toNat
  write dst j.toNat x

/-- The loop over blocks, which is compiled with `USE_NEON`, and the scalar one. -/
def run (useNeon : Bool) (count : UInt64) (block pixel : UInt64 → List UInt8 → Option (List UInt8))
    (dst : List UInt8) : Option (List UInt8) := do
  let (i, dst) ←
    if useNeon then forLoop (fun i => i + 16 ≤ count) (· + 16) block (count.toNat + 1) 0 dst
    else some (0, dst)
  let (_, dst) ← forLoop (fun i => i < count) (· + 1) pixel (count.toNat + 1) i dst
  some dst

variable (useNeon : Bool)

def rgbToBgrBlock (src : List UInt8) (i : UInt64) (dst : List UInt8) : Option (List UInt8) := do
  let rgb ← vldq 3 src (i * 3).toNat
  -- red and blue change places
  let tmp := rgb[0]
  let rgb := rgb.set 0 rgb[2]
  let rgb := rgb.set 2 tmp
  vstq dst (i * 3).toNat rgb

def rgbToBgrPixel (src : List UInt8) (i : UInt64) (dst : List UInt8) : Option (List UInt8) := do
  let off := i * 3
  let dst ← copyByte src (off + 2) dst (off + 0)
  let dst ← copyByte src (off + 1) dst (off + 1)
  copyByte src (off + 0) dst (off + 2)

/-- The destination afterwards. It is missing where an access is outside its buffer. -/
def rgbToBgr (src dst : Option (List UInt8)) (pixelCount : UInt64) :
    Option (Option (List UInt8)) :=
  match src, dst with
  | some src, some dst =>
    if pixelCount = 0 then some (some dst)
    else some <$> run useNeon pixelCount (rgbToBgrBlock src) (rgbToBgrPixel src) dst
  | _, _ => some dst

def rgbaToRgbBlock (src : List UInt8) (i : UInt64) (dst : List UInt8) : Option (List UInt8) := do
  let rgba ← vldq 4 src (i * 4).toNat
  vstq dst (i * 3).toNat #v[rgba[0], rgba[1], rgba[2]]

def rgbaToRgbPixel (src : List UInt8) (i : UInt64) (dst : List UInt8) : Option (List UInt8) := do
  let dst ← copyByte src (i * 4 + 0) dst (i * 3 + 0)
  let dst ← copyByte src (i * 4 + 1) dst (i * 3 + 1)
  copyByte src (i * 4 + 2) dst (i * 3 + 2)

def rgbaToRgb (src dst : Option (List UInt8)) (pixelCount : UInt64) :
    Option (Option (List UInt8)) :=
  match src, dst with
  | some src, some dst =>
    if pixelCount = 0 then some (some dst)
    else some <$> run useNeon pixelCount (rgbaToRgbBlock src) (rgbaToRgbPixel src) dst
  | _, _ => some dst

def absDiffBlock (a b : List UInt8) (i : UInt64) (dst : List UInt8) : Option (List UInt8) := do
  let va ← vld1q a i.toNat
  let vb ← vld1q b i.toNat
  vst1q dst i.toNat (vabdq va vb)

def absDiffPixel (a b : List UInt8) (i : UInt64) (dst : List UInt8) : Option (List UInt8) := do
  let x ← read a i.toNat
  let y ← read b i.toNat
  write dst i.toNat (UInt8.ofNat ((x.toNat : Int) - y.toNat).natAbs)

def absDiff (a b dst : Option (List UInt8)) (size : UInt64) : Option (Option (List UInt8)) :=
  match a, b, dst with
  | some a, some b, some dst =>
    if size = 0 then some (some dst)
    else some <$> run useNeon size (absDiffBlock a b) (absDiffPixel a b) dst
  | _, _, _ => some dst

def clampBlock (src : List UInt8) (lo hi : UInt8) (i : UInt64) (dst : List UInt8) :
    Option (List UInt8) := do
  let v ← vld1q src i.toNat
  let v := vmaxq v (vdupq lo)
  let v := vminq v (vdupq hi)
  vst1q dst i.toNat v

/-- `std::max(a, b)` and `std::min(a, b)`. -/
def maxByte (a b : UInt8) : UInt8 := if a < b then b else a

def minByte (a b : UInt8) : UInt8 := if b < a then b else a

def clampPixel (src : List UInt8) (lo hi : UInt8) (i : UInt64) (dst : List UInt8) :
    Option (List UInt8) := do
  let x ← read src i.toNat
  write dst i.toNat (minByte (maxByte x lo) hi)

def clamp (src dst : Option (List UInt8)) (size : UInt64) (lo hi : UInt8) :
    Option (Option (List UInt8)) :=
  match src, dst with
  | some src, some dst =>
    if size = 0 then some (some dst)
    else some <$> run useNeon size (clampBlock src lo hi) (clampPixel src lo hi) dst
  | _, _ => some dst

/-! ## The loops -/

variable {useNeon} {count : UInt64} {block pixel : UInt64 → List UInt8 → Option (List UInt8)}
  {f : Nat → UInt8} {q : Nat} {src dst : List UInt8}

/-- The scalar loop from an element on. -/
theorem forLoop_pixels {start : Nat} (hstart : start ≤ count.toNat)
    (hpixel : ∀ i < count.toNat,
      pixel (.ofNat i) (filled f dst (q * i)) = some (filled f dst (q * (i + 1)))) :
    forLoop (fun i => i < count) (· + 1) pixel (count.toNat + 1) (.ofNat start)
      (filled f dst (q * start)) = some (count, filled f dst (q * count.toNat)) := by
  have hloop := (UInt64.counts_below hstart).forLoop_eq
    (Nat.lt_succ_of_le (Nat.sub_le count.toNat start)) (fun k => filled f dst (q * (start + k)))
    fun k hk => hpixel (start + k) (by omega)
  simpa only [Nat.add_zero, Nat.add_sub_cancel' hstart, UInt64.ofNat_toNat] using hloop

/-- The loop over blocks, which ends where no other block fits. -/
theorem forLoop_blocks (hcount : count.toNat < 2 ^ 63)
    (hblock : ∀ i, i + 16 ≤ count.toNat →
      block (.ofNat i) (filled f dst (q * i)) = some (filled f dst (q * (i + 16)))) :
    forLoop (fun i => i + 16 ≤ count) (· + 16) block (count.toNat + 1) 0 dst =
      some (.ofNat (16 * (count.toNat / 16)), filled f dst (q * (16 * (count.toNat / 16)))) := by
  have hsixteen : (16 : UInt64).toNat = 16 := rfl
  have hcounts := UInt64.counts_blocks (n := count) (d := 16) (by omega) (by omega)
  rw [hsixteen] at hcounts
  refine hcounts.forLoop_eq (by omega) (fun k => filled f dst (q * (16 * k))) ?_
  intro k hk
  exact hblock (16 * k) (by omega)

/-- Blocks and what they leave make up all elements, however many there are. -/
theorem run_eq (hcount : count.toNat < 2 ^ 63)
    (hblock : ∀ i, i + 16 ≤ count.toNat →
      block (.ofNat i) (filled f dst (q * i)) = some (filled f dst (q * (i + 16))))
    (hpixel : ∀ i < count.toNat,
      pixel (.ofNat i) (filled f dst (q * i)) = some (filled f dst (q * (i + 1)))) :
    run useNeon count block pixel dst = some (filled f dst (q * count.toNat)) := by
  cases useNeon with
  | false =>
    have hscalar := forLoop_pixels (Nat.zero_le count.toNat) hpixel
    rw [Nat.mul_zero, filled_zero] at hscalar
    rw [run, if_neg Bool.false_ne_true]
    exact congrArg (Option.bind · fun r => some r.2) hscalar
  | true =>
    -- the scalar loop goes on from the multiple of 16 that the blocks end at
    have htail := forLoop_pixels (Nat.mul_div_le count.toNat 16) hpixel
    rw [run, if_pos rfl, forLoop_blocks hcount hblock]
    exact congrArg (Option.bind · fun r => some r.2) htail

theorem kernel_eq (hcount : count.toNat < 2 ^ 63)
    (hblock : ∀ i, i + 16 ≤ count.toNat →
      block (.ofNat i) (filled f dst (q * i)) = some (filled f dst (q * (i + 16))))
    (hpixel : ∀ i < count.toNat,
      pixel (.ofNat i) (filled f dst (q * i)) = some (filled f dst (q * (i + 1)))) :
    (if count = 0 then some (some dst) else some <$> run useNeon count block pixel dst) =
      some (some (filled f dst (q * count.toNat))) := by
  split
  next hzero => simp [hzero]
  next => rw [run_eq hcount hblock hpixel, Option.map_eq_map, Option.map_some]

/-- Kernels with one byte for each element. -/
theorem elements_eq (hcount : count.toNat < 2 ^ 63)
    (hblock : ∀ i, i + 16 ≤ count.toNat →
      block (.ofNat i) (filled f dst i) = some (filled f dst (i + 16)))
    (hpixel : ∀ i < count.toNat,
      pixel (.ofNat i) (filled f dst i) = some (filled f dst (i + 1))) :
    (if count = 0 then some (some dst) else some <$> run useNeon count block pixel dst) =
      some (some (filled f dst count.toNat)) := by
  simpa only [Nat.one_mul] using kernel_eq (q := 1) hcount
    (by simpa only [Nat.one_mul] using hblock) (by simpa only [Nat.one_mul] using hpixel)

/-! ## What the kernels compute -/

/-- An assignment goes on from the bytes before it. -/
theorem copyByte_filled {i j : UInt64} {n : Nat} (hj : j.toNat = n) (hn : n < dst.length)
    (hi : i.toNat < src.length) (hf : f n = src.getD i.toNat 0) :
    copyByte src i (filled f dst n) j = some (filled f dst (n + 1)) := by
  rw [copyByte, read_of_lt hi 0, ← hf, hj]
  exact write_filled hn

theorem toNat_offset {i s c : Nat} (h : s * i + c < 2 ^ 64) :
    (UInt64.ofNat i * UInt64.ofNat s + UInt64.ofNat c).toNat = s * i + c := by
  rw [← UInt64.ofNat_mul, ← UInt64.ofNat_add, Nat.mul_comm i s]
  exact UInt64.toNat_ofNat_of_lt' h

theorem toNat_start {i s : Nat} (h : s * i < 2 ^ 64) :
    (UInt64.ofNat i * UInt64.ofNat s).toNat = s * i := by
  rw [← UInt64.ofNat_mul, Nat.mul_comm i s]
  exact UInt64.toNat_ofNat_of_lt' h

/-- The three assignments to a pixel. -/
theorem copyPixel_filled {i : Nat} {a₀ a₁ a₂ : UInt64} (hdst : 3 * (i + 1) ≤ dst.length)
    (hsmall : dst.length < 2 ^ 63)
    (h₀ : a₀.toNat < src.length ∧ f (3 * i) = src.getD a₀.toNat 0)
    (h₁ : a₁.toNat < src.length ∧ f (3 * i + 1) = src.getD a₁.toNat 0)
    (h₂ : a₂.toNat < src.length ∧ f (3 * i + 2) = src.getD a₂.toNat 0) :
    (do
      let dst ← copyByte src a₀ (filled f dst (3 * i)) (.ofNat i * 3 + 0)
      let dst ← copyByte src a₁ dst (.ofNat i * 3 + 1)
      copyByte src a₂ dst (.ofNat i * 3 + 2)) = some (filled f dst (3 * (i + 1))) := by
  have hr : copyByte src a₀ (filled f dst (3 * i)) (.ofNat i * 3 + 0) =
      some (filled f dst (3 * i + 1)) :=
    copyByte_filled (toNat_offset (s := 3) (c := 0) (by omega)) (by omega) h₀.1 h₀.2
  have hg : copyByte src a₁ (filled f dst (3 * i + 1)) (.ofNat i * 3 + 1) =
      some (filled f dst (3 * i + 2)) :=
    copyByte_filled (toNat_offset (s := 3) (c := 1) (by omega)) (by omega) h₁.1 h₁.2
  rw [hr, Option.bind_eq_bind, Option.bind_some, hg, Option.bind_some]
  exact copyByte_filled (toNat_offset (s := 3) (c := 2) (by omega)) (by omega) h₂.1 h₂.2

/-- Byte `k` of the image with red and blue exchanged. -/
def bgrByte (src : List UInt8) (k : Nat) : UInt8 := src.getD (3 * (k / 3) + (2 - k % 3)) 0

theorem bgrByte_eq {c : Nat} (hc : c < 3) (src : List UInt8) (i : Nat) :
    bgrByte src (3 * i + c) = src.getD (3 * i + (2 - c)) 0 := by
  rw [bgrByte]
  congr 1
  omega

theorem rgbToBgrPixel_filled {i : Nat} (hsrc : 3 * (i + 1) ≤ src.length)
    (hdst : 3 * (i + 1) ≤ dst.length) (hsmall : dst.length < 2 ^ 63) :
    rgbToBgrPixel src (.ofNat i) (filled (bgrByte src) dst (3 * i)) =
      some (filled (bgrByte src) dst (3 * (i + 1))) := by
  have hread : ∀ c < 3, ∀ a : UInt64, a.toNat = 3 * i + (2 - c) →
      a.toNat < src.length ∧ bgrByte src (3 * i + c) = src.getD a.toNat 0 := by
    intro c hc a ha
    exact ⟨by omega, ha ▸ bgrByte_eq hc src i⟩
  exact copyPixel_filled hdst hsmall
    (hread 0 (by omega) _ (toNat_offset (s := 3) (c := 2) (by omega)))
    (hread 1 (by omega) _ (toNat_offset (s := 3) (c := 1) (by omega)))
    (hread 2 (by omega) _ (toNat_offset (s := 3) (c := 0) (by omega)))

theorem rgbToBgrBlock_filled {i : Nat} (hsrc : 3 * (i + 16) ≤ src.length)
    (hdst : 3 * (i + 16) ≤ dst.length) (hsmall : dst.length < 2 ^ 63) :
    rgbToBgrBlock src (.ofNat i) (filled (bgrByte src) dst (3 * i)) =
      some (filled (bgrByte src) dst (3 * (i + 16))) := by
  have hoff : (UInt64.ofNat i * 3).toNat = 3 * i := toNat_start (s := 3) (by omega)
  have hload : 3 * i + 3 * 16 ≤ src.length := by omega
  obtain ⟨rgb, hrgb, hlanes⟩ := exists_vldq hload
  have hswap : ∀ c (hc : c < 3), ((rgb.set 0 rgb[2]).set 2 rgb[0])[c] = rgb[2 - c] := by
    intro c hc
    obtain rfl | rfl | rfl : c = 0 ∨ c = 1 ∨ c = 2 := by omega
    all_goals simp
  rw [rgbToBgrBlock, hoff, hrgb, Nat.mul_add]
  -- lane `l` of channel `c` is byte `3 * l + c` of the block
  refine vstq_filled (by omega) fun c hc l hl => ?_
  rw [hswap c hc, hlanes (2 - c) (by omega) l hl, ← Nat.add_assoc, ← Nat.add_assoc,
    ← Nat.mul_add, bgrByte_eq hc]

theorem rgbToBgr_eq {dst : Buffer} (hsrc : 3 * count.toNat ≤ src.length)
    (hdst : 3 * count.toNat ≤ dst.bytes.length) (useNeon : Bool) :
    rgbToBgr useNeon (some src) (some dst.bytes) count =
      some (some (filled (bgrByte src) dst.bytes (3 * count.toNat))) := by
  have hsmall := dst.length_lt
  exact kernel_eq (by omega)
    (fun i hi => rgbToBgrBlock_filled (by omega) (by omega) hsmall)
    (fun i hi => rgbToBgrPixel_filled (by omega) (by omega) hsmall)

example : rgbToBgr true (some [1, 2, 3, 4, 5, 6]) (some [0, 0, 0, 0, 0, 0, 7]) 2 =
    some (some [3, 2, 1, 6, 5, 4, 7]) := by decide +kernel

/-- Byte `k` of the image without the fourth channel. -/
def rgbByte (src : List UInt8) (k : Nat) : UInt8 := src.getD (4 * (k / 3) + k % 3) 0

theorem rgbByte_eq {c : Nat} (hc : c < 3) (src : List UInt8) (i : Nat) :
    rgbByte src (3 * i + c) = src.getD (4 * i + c) 0 := by
  rw [rgbByte]
  congr 1
  omega

theorem rgbaToRgbPixel_filled {i : Nat} (hsrc : 4 * (i + 1) ≤ src.length)
    (hdst : 3 * (i + 1) ≤ dst.length) (hsmall : dst.length < 2 ^ 63) :
    rgbaToRgbPixel src (.ofNat i) (filled (rgbByte src) dst (3 * i)) =
      some (filled (rgbByte src) dst (3 * (i + 1))) := by
  have hread : ∀ c < 3, ∀ a : UInt64, a.toNat = 4 * i + c →
      a.toNat < src.length ∧ rgbByte src (3 * i + c) = src.getD a.toNat 0 := by
    intro c hc a ha
    exact ⟨by omega, ha ▸ rgbByte_eq hc src i⟩
  exact copyPixel_filled hdst hsmall
    (hread 0 (by omega) _ (toNat_offset (s := 4) (c := 0) (by omega)))
    (hread 1 (by omega) _ (toNat_offset (s := 4) (c := 1) (by omega)))
    (hread 2 (by omega) _ (toNat_offset (s := 4) (c := 2) (by omega)))

theorem rgbaToRgbBlock_filled {i : Nat} (hsrc : 4 * (i + 16) ≤ src.length)
    (hdst : 3 * (i + 16) ≤ dst.length) (hsmall : dst.length < 2 ^ 63) :
    rgbaToRgbBlock src (.ofNat i) (filled (rgbByte src) dst (3 * i)) =
      some (filled (rgbByte src) dst (3 * (i + 16))) := by
  have hin : (UInt64.ofNat i * 4).toNat = 4 * i := toNat_start (s := 4) (by omega)
  have hout : (UInt64.ofNat i * 3).toNat = 3 * i := toNat_start (s := 3) (by omega)
  have hload : 4 * i + 4 * 16 ≤ src.length := by omega
  obtain ⟨rgba, hrgba, hlanes⟩ := exists_vldq hload
  have hkept : ∀ c (hc : c < 3), #v[rgba[0], rgba[1], rgba[2]][c] = rgba[c] := by
    intro c hc
    obtain rfl | rfl | rfl : c = 0 ∨ c = 1 ∨ c = 2 := by omega
    all_goals rfl
  rw [rgbaToRgbBlock, hin, hout, hrgba, Nat.mul_add]
  refine vstq_filled (by omega) fun c hc l hl => ?_
  rw [hkept c hc, hlanes c (by omega) l hl, ← Nat.add_assoc, ← Nat.add_assoc, ← Nat.mul_add,
    ← Nat.mul_add, rgbByte_eq hc]

theorem rgbaToRgb_eq {dst : Buffer} (hsrc : 4 * count.toNat ≤ src.length)
    (hdst : 3 * count.toNat ≤ dst.bytes.length) (useNeon : Bool) :
    rgbaToRgb useNeon (some src) (some dst.bytes) count =
      some (some (filled (rgbByte src) dst.bytes (3 * count.toNat))) := by
  have hsmall := dst.length_lt
  exact kernel_eq (by omega)
    (fun i hi => rgbaToRgbBlock_filled (by omega) (by omega) hsmall)
    (fun i hi => rgbaToRgbPixel_filled (by omega) (by omega) hsmall)

/-! ### One byte for each element -/

/-- Element `k` of the difference. -/
def diffByte (a b : List UInt8) (k : Nat) : UInt8 :=
  UInt8.ofNat (((a.getD k 0).toNat : Int) - (b.getD k 0).toNat).natAbs

def clampByte (src : List UInt8) (lo hi : UInt8) (k : Nat) : UInt8 :=
  minByte (maxByte (src.getD k 0) lo) hi

theorem toNat_element {i : Nat} (hi : i < 2 ^ 63) : (UInt64.ofNat i).toNat = i :=
  UInt64.toNat_ofNat_of_lt' (hi.trans (by decide))

theorem absDiffPixel_filled {a b : List UInt8} {i : Nat} (ha : i < a.length) (hb : i < b.length)
    (hdst : i < dst.length) (hsmall : dst.length < 2 ^ 63) :
    absDiffPixel a b (.ofNat i) (filled (diffByte a b) dst i) =
      some (filled (diffByte a b) dst (i + 1)) := by
  rw [absDiffPixel, toNat_element (hdst.trans hsmall), read_of_lt ha 0, read_of_lt hb 0]
  exact write_filled hdst

theorem absDiffBlock_filled {a b : List UInt8} {i : Nat} (ha : i + 16 ≤ a.length)
    (hb : i + 16 ≤ b.length) (hdst : i + 16 ≤ dst.length) (hsmall : dst.length < 2 ^ 63) :
    absDiffBlock a b (.ofNat i) (filled (diffByte a b) dst i) =
      some (filled (diffByte a b) dst (i + 16)) := by
  obtain ⟨va, hva, ha'⟩ := exists_vld1q ha
  obtain ⟨vb, hvb, hb'⟩ := exists_vld1q hb
  rw [absDiffBlock, toNat_element (by omega), hva, hvb]
  refine vst1q_filled hdst fun l hl => ?_
  rw [vabdq, Vector.getElem_zipWith, ha' l hl, hb' l hl, diffByte]

theorem absDiff_eq {a b : List UInt8} {dst : Buffer} (ha : count.toNat ≤ a.length)
    (hb : count.toNat ≤ b.length) (hdst : count.toNat ≤ dst.bytes.length) (useNeon : Bool) :
    absDiff useNeon (some a) (some b) (some dst.bytes) count =
      some (some (filled (diffByte a b) dst.bytes count.toNat)) := by
  have hsmall := dst.length_lt
  exact elements_eq (by omega)
    (fun i hi => absDiffBlock_filled (by omega) (by omega) (by omega) hsmall)
    (fun i hi => absDiffPixel_filled (by omega) (by omega) (by omega) hsmall)

theorem clampPixel_filled (lo hi : UInt8) {i : Nat} (hsrc : i < src.length) (hdst : i < dst.length)
    (hsmall : dst.length < 2 ^ 63) :
    clampPixel src lo hi (.ofNat i) (filled (clampByte src lo hi) dst i) =
      some (filled (clampByte src lo hi) dst (i + 1)) := by
  rw [clampPixel, toNat_element (hdst.trans hsmall), read_of_lt hsrc 0]
  exact write_filled hdst

theorem clampBlock_filled (lo hi : UInt8) {i : Nat} (hsrc : i + 16 ≤ src.length)
    (hdst : i + 16 ≤ dst.length) (hsmall : dst.length < 2 ^ 63) :
    clampBlock src lo hi (.ofNat i) (filled (clampByte src lo hi) dst i) =
      some (filled (clampByte src lo hi) dst (i + 16)) := by
  obtain ⟨v, hv, hlanes⟩ := exists_vld1q hsrc
  rw [clampBlock, toNat_element (by omega), hv]
  -- the lanes are compared as `std::max` and `std::min` compare
  refine vst1q_filled hdst fun l hl => ?_
  rw [vminq, Vector.getElem_zipWith, vmaxq, Vector.getElem_zipWith, vdupq, vdupq,
    Vector.getElem_replicate, Vector.getElem_replicate, hlanes l hl]
  rfl

theorem clamp_eq {dst : Buffer} (hsrc : count.toNat ≤ src.length)
    (hdst : count.toNat ≤ dst.bytes.length) (lo hi : UInt8) (useNeon : Bool) :
    clamp useNeon (some src) (some dst.bytes) count lo hi =
      some (some (filled (clampByte src lo hi) dst.bytes count.toNat)) := by
  have hsmall := dst.length_lt
  exact elements_eq (by omega)
    (fun i hi' => clampBlock_filled lo hi (by omega) (by omega) hsmall)
    (fun i hi' => clampPixel_filled lo hi (by omega) (by omega) hsmall)

/-! ## Both paths -/

/-- With and without vectors no access is outside a buffer and the same bytes are left, in
which only the first `m` can differ from the bytes before. -/
def SameBytes (kernel : Bool → Option (Option (List UInt8))) (dst : Buffer) (m : Nat) : Prop :=
  ∃ out, (∀ useNeon, kernel useNeon = some (some out)) ∧
    out.length = dst.bytes.length ∧ out.drop m = dst.bytes.drop m

theorem sameBytes_of_filled {kernel : Bool → Option (Option (List UInt8))} {dst : Buffer} {m : Nat}
    (hdst : m ≤ dst.bytes.length)
    (hkernel : ∀ useNeon, kernel useNeon = some (some (filled f dst.bytes m))) :
    SameBytes kernel dst m :=
  ⟨_, hkernel, CheckedBuffer.length_filled hdst, CheckedBuffer.drop_filled le_rfl⟩

/-- Exchanging red and blue twice. -/
theorem bgrByte_filled {n k : Nat} (hk : k < 3 * n) :
    bgrByte (filled (bgrByte src) dst (3 * n)) k = src.getD k 0 := by
  rw [bgrByte, CheckedBuffer.getD_filled (by omega), bgrByte]
  congr 1
  omega

theorem rgbToBgr_twice {dst back : Buffer} (hsrc : 3 * count.toNat ≤ src.length)
    (hdst : 3 * count.toNat ≤ dst.bytes.length) (hback : 3 * count.toNat ≤ back.bytes.length)
    (useNeon useNeon' : Bool) :
    ∃ out, rgbToBgr useNeon (some src) (some dst.bytes) count = some (some out) ∧
      rgbToBgr useNeon' (some out) (some back.bytes) count =
        some (some (src.take (3 * count.toNat) ++ back.bytes.drop (3 * count.toNat))) := by
  have hlength : 3 * count.toNat ≤ (filled (bgrByte src) dst.bytes (3 * count.toNat)).length :=
    hdst.trans (CheckedBuffer.length_filled hdst).ge
  refine ⟨_, rgbToBgr_eq hsrc hdst useNeon, ?_⟩
  rw [rgbToBgr_eq hlength hback, CheckedBuffer.filled_congr fun k hk => bgrByte_filled hk,
    CheckedBuffer.filled_getD hsrc]

/-- The kernels compute the same with vectors as without, in buffers that are large enough
for the number of elements, and exchanging red and blue twice gives the original back. -/
theorem neon_eq_scalar (src a b : List UInt8) (dst : Buffer) (count : UInt64) (lo hi : UInt8) :
    (3 * count.toNat ≤ src.length → 3 * count.toNat ≤ dst.bytes.length →
      SameBytes (rgbToBgr · (some src) (some dst.bytes) count) dst (3 * count.toNat)) ∧
    (4 * count.toNat ≤ src.length → 3 * count.toNat ≤ dst.bytes.length →
      SameBytes (rgbaToRgb · (some src) (some dst.bytes) count) dst (3 * count.toNat)) ∧
    (count.toNat ≤ a.length → count.toNat ≤ b.length → count.toNat ≤ dst.bytes.length →
      SameBytes (absDiff · (some a) (some b) (some dst.bytes) count) dst count.toNat) ∧
    (count.toNat ≤ src.length → count.toNat ≤ dst.bytes.length →
      SameBytes (clamp · (some src) (some dst.bytes) count lo hi) dst count.toNat) ∧
    (3 * count.toNat ≤ src.length → 3 * count.toNat ≤ dst.bytes.length →
      ∀ back : Buffer, 3 * count.toNat ≤ back.bytes.length → ∀ useNeon useNeon',
        ∃ out, rgbToBgr useNeon (some src) (some dst.bytes) count = some (some out) ∧
          rgbToBgr useNeon' (some out) (some back.bytes) count =
            some (some (src.take (3 * count.toNat) ++ back.bytes.drop (3 * count.toNat)))) := by
  refine ⟨fun hsrc hdst => ?_, fun hsrc hdst => ?_, fun ha hb hdst => ?_, fun hsrc hdst => ?_,
    fun hsrc hdst back hback => rgbToBgr_twice hsrc hdst hback⟩
  · exact sameBytes_of_filled hdst (rgbToBgr_eq hsrc hdst)
  · exact sameBytes_of_filled hdst (rgbaToRgb_eq hsrc hdst)
  · exact sameBytes_of_filled hdst (absDiff_eq ha hb hdst)
  · exact sameBytes_of_filled hdst (clamp_eq hsrc hdst lo hi)

def sampleBytes (n : Nat) : List UInt8 := (List.range n).map UInt8.ofNat

theorem length_sampleBytes (n : Nat) : (sampleBytes n).length = n := by
  simp [sampleBytes]

/-- Seventeen pixels: a block and one more. -/
def sampleBuffer : Buffer where
  bytes := sampleBytes 51
  length_lt := by
    rw [length_sampleBytes]
    omega

theorem neon_eq_scalar_seventeen :
    SameBytes (rgbToBgr · (some (sampleBytes 68)) (some sampleBuffer.bytes) 17) sampleBuffer 51 ∧
    SameBytes (rgbaToRgb · (some (sampleBytes 68)) (some sampleBuffer.bytes) 17) sampleBuffer 51 ∧
    SameBytes (absDiff · (some (sampleBytes 17)) (some (sampleBytes 40)) (some sampleBuffer.bytes)
      17) sampleBuffer 17 ∧
    SameBytes (clamp · (some (sampleBytes 68)) (some sampleBuffer.bytes) 17 5 9) sampleBuffer 17 ∧
    ∃ out, rgbToBgr true (some (sampleBytes 68)) (some sampleBuffer.bytes) 17 = some (some out) ∧
      rgbToBgr false (some out) (some sampleBuffer.bytes) 17 = some (some (sampleBytes 51)) := by
  obtain ⟨hbgr, hrgb, hdiff, hclamp, htwice⟩ := neon_eq_scalar (sampleBytes 68) (sampleBytes 17)
    (sampleBytes 40) sampleBuffer 17 5 9
  have hlarge : ∀ m n : Nat, m ≤ n → m ≤ (sampleBytes n).length := fun m n h =>
    h.trans_eq (length_sampleBytes n).symm
  have hdst : 51 ≤ sampleBuffer.bytes.length := hlarge 51 51 le_rfl
  refine ⟨hbgr (hlarge 51 68 (by decide)) hdst, hrgb (hlarge 68 68 le_rfl) hdst,
    hdiff (hlarge 17 17 le_rfl) (hlarge 17 40 (by decide)) (hlarge 17 51 (by decide)),
    hclamp (hlarge 17 68 (by decide)) (hlarge 17 51 (by decide)), ?_⟩
  exact htwice (hlarge 51 68 (by decide)) hdst sampleBuffer hdst true false

end NeonImageOps
