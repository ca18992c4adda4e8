-- SUMMARY: Vector instructions on sixteen bytes: plain and interleaved loads and stores, and operations on lanes.
import NeuroPipeline.Lib.CheckedBuffer
import Mathlib.Data.List.GetD

/-!
# Vectors of sixteen bytes

Loads and stores with `k` vectors take `k` bytes for each lane: lane `l` of vector `c` is
byte `k * l + c`.
-/

namespace Neon

open CheckedBuffer

/-- `uint8x16_t`. -/
abbrev U8x16 := Vector UInt8 16

variable {buf : List UInt8} {f : Nat → UInt8} {i k : Nat}

/-! ## Loads and stores -/

def vld1q (buf : List UInt8) (i : Nat) : Option U8x16 := readBlock buf i 16

def vst1q (buf : List UInt8) (i : Nat) (v : U8x16) : Option (List UInt8) := writeBlock buf i v

theorem lane_lt {c l : Nat} (hc : c < k) (hl : l < 16) : k * l + c < k * 16 := by
  calc k * l + c < k * l + k := Nat.add_lt_add_left hc _
    _ = k * (l + 1) := (Nat.mul_succ k l).symm
    _ ≤ k * 16 := Nat.mul_le_mul_left k hl

def deinterleave (bytes : Vector UInt8 (k * 16)) : Vector U8x16 k :=
  .ofFn fun c => .ofFn fun l =>
    have hlane := lane_lt c.isLt l.isLt
    bytes[k * l.val + c.val]

def interleave (v : Vector U8x16 k) : Vector UInt8 (k * 16) :=
  .ofFn fun j =>
    have hk : 0 < k := Nat.pos_of_mul_pos_right (Nat.zero_lt_of_lt j.isLt)
    have hc := Nat.mod_lt j.val hk
    have hl := Nat.div_lt_of_lt_mul j.isLt
    v[j.val % k][j.val / k]

/-- `vld3q_u8` and `vld4q_u8`. -/
def vldq (k : Nat) (buf : List UInt8) (i : Nat) : Option (Vector U8x16 k) :=
  (readBlock buf i (k * 16)).map deinterleave

/-- `vst3q_u8`. -/
def vstq (buf : List UInt8) (i : Nat) (v : Vector U8x16 k) : Option (List UInt8) :=
  writeBlock buf i (interleave v)

theorem exists_vld1q (h : i + 16 ≤ buf.length) :
    ∃ v, vld1q buf i = some v ∧ ∀ l (hl : l < 16), v[l] = buf.getD (i + l) 0 := by
  refine ⟨_, readBlock_of_le h, fun l hl => ?_⟩
  rw [Vector.getElem_ofFn]
  exact (List.getD_eq_getElem _ _ (by omega)).symm

theorem exists_vldq (h : i + k * 16 ≤ buf.length) :
    ∃ v, vldq k buf i = some v ∧
      ∀ c (hc : c < k) l (hl : l < 16), v[c][l] = buf.getD (i + (k * l + c)) 0 := by
  refine ⟨_, congrArg (Option.map deinterleave) (readBlock_of_le h), fun c hc l hl => ?_⟩
  have hlane := lane_lt hc hl
  simp only [deinterleave, Vector.getElem_ofFn]
  exact (List.getD_eq_getElem _ _ (by omega)).symm

theorem vst1q_filled (h : i + 16 ≤ buf.length) {v : U8x16}
    (hv : ∀ l (hl : l < 16), v[l] = f (i + l)) :
    vst1q (filled f buf i) i v = some (filled f buf (i + 16)) :=
  writeBlock_filled h hv

theorem vstq_filled (h : i + k * 16 ≤ buf.length) {v : Vector U8x16 k}
    (hv : ∀ c (hc : c < k) l (hl : l < 16), v[c][l] = f (i + (k * l + c))) :
    vstq (filled f buf i) i v = some (filled f buf (i + k * 16)) := by
  refine writeBlock_filled h fun j hj => ?_
  have hk : 0 < k := Nat.pos_of_mul_pos_right (Nat.zero_lt_of_lt hj)
  have hlane := hv (j % k) (Nat.mod_lt _ hk) (j / k) (Nat.div_lt_of_lt_mul hj)
  rw [Nat.div_add_mod] at hlane
  simpa [interleave] using hlane

/-! ## Lanes -/

/-- The absolute difference of the numbers, as a byte. -/
def vabdq (a b : U8x16) : U8x16 :=
  .zipWith (fun x y => UInt8.ofNat ((x.toNat : Int) - y.toNat).natAbs) a b

def vmaxq (a b : U8x16) : U8x16 := .zipWith (fun x y => if x < y then y else x) a b

def vminq (a b : U8x16) : U8x16 := .zipWith (fun x y => if y < x then y else x) a b

def vdupq (x : UInt8) : U8x16 := .replicate 16 x

end Neon
