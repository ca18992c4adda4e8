-- SUMMARY: The int computations of the distribution decoder, and when no index of either decoder leaves its table.
import NeuroPipeline.Edge.TensorIndices

/-!
# Indices into the distribution

`YOLOv8PostProcessor::Process` copies the distribution of a cell into a buffer of fixed
size before it decodes it. The length of the distribution comes from the configuration.
-/

open PostProcessor
open CFloat (const)

/-! ## YOLOv8 -/

namespace PostProcessor.Scale

open Yolov8PostProcessor

variable (g : Scale) (dflLen : Int)

def expectedBox : CheckedInt := .of dflLen * .of 4 * g.gridLen

def expectedScore : CheckedInt := .of g.nc * g.gridLen

/-- The entry at a cell in row `n` of a tensor. -/
def rowIndex (k : Cell) (n : Nat) : CheckedInt := .of n * g.gridLen + g.offset k.i k.j

variable {g dflLen}

@[simp] theorem value_expectedBox : (g.expectedBox dflLen).value = dflLen * 4 * g.area := rfl

@[simp] theorem value_expectedScore : g.expectedScore.value = g.nc * g.area := rfl

theorem value_rowIndex (k : Cell) (n : Nat) :
    (g.rowIndex k n).value = n * g.area + (g.offset k.i k.j).value := rfl

theorem IsInt.expectedBox (h : g.IsInt) :
    (g.expectedBox dflLen).Defined ↔
      Fits g.area ∧ Fits dflLen ∧ Fits (dflLen * 4) ∧ Fits (dflLen * 4 * g.area) := by
  rw [Scale.expectedBox, CheckedInt.defined_mul, CheckedInt.defined_mul, h.gridLen,
    CheckedInt.defined_of, CheckedInt.defined_of]
  constructor
  · rintro ⟨⟨hlen, -, hsides⟩, harea, hsize⟩
    exact ⟨harea, hlen, hsides, hsize⟩
  · rintro ⟨harea, hlen, hsides, hsize⟩
    exact ⟨⟨hlen, by decide, hsides⟩, harea, hsize⟩

theorem IsInt.expectedScore (h : g.IsInt) :
    g.expectedScore.Defined ↔ Fits g.area ∧ Fits (g.nc * g.area) := by
  rw [Scale.expectedScore, CheckedInt.defined_mul, h.gridLen, CheckedInt.defined_of]
  exact and_iff_right h.nc

/-- A row of a tensor that has all its rows. -/
theorem OnGrid.rowIndex_valid {k : Cell} (h : g.OnGrid k.i k.j) {rows : Int} {size n : Nat}
    (hn : n < rows) (hfits : Fits (rows * g.area)) (hsize : int32 size = rows * g.area) :
    (IntUse.index (g.rowIndex k n) size).Valid := by
  obtain ⟨hlow, hhigh⟩ := h.offset_bounds
  have hcells : 1 ≤ g.area := by omega
  have hlen := int32_le size
  obtain ⟨hindex₀, hindex⟩ := row_bounds (Int.natCast_nonneg n) hn hlow hhigh
  obtain ⟨hplane₀, hplane⟩ := row_bounds (Int.natCast_nonneg n) hn le_rfl (hlow.trans_lt hhigh)
  have hrow : n ≤ n * g.area := le_mul_of_one_le_right (Int.natCast_nonneg n) hcells
  have honce : 1 * g.area ≤ rows * g.area := Int.mul_le_mul_of_nonneg_right (by omega) (by omega)
  have hfitsHigh := hfits.2
  have hdefined := h.offset_defined (by omega)
  refine ⟨?_, hindex₀, ?_⟩
  · rw [rowIndex, CheckedInt.defined_add, CheckedInt.defined_mul, CheckedInt.defined_of,
      h.isInt.gridLen]
    exact ⟨⟨⟨by omega, by omega⟩, ⟨by omega, by omega⟩, by simp; omega, by simp; omega⟩, hdefined,
      by simp; omega, by simp; omega⟩
  · rw [value_rowIndex]
    omega

end PostProcessor.Scale

namespace Yolov8PostProcessor

variable {F : Type} [CFloat F] (p : Yolov8PostProcessor F)

def scale (s : Nat) : Scale := .ofConfig p.numClasses p.inputWidth p.inputHeight s

/-- Size of `before_dfl`. -/
def bufferSize : Nat := 64

def classUses (g : Scale) (scores : List F) (k : Cell) : List IntUse :=
  (List.range g.nc.toNat).map fun c => .index (g.rowIndex k c) scores.length

/-- The loop that fills the buffer. -/
def bufferUses (g : Scale) (dflLen : Int) (boxes : List F) (k : Cell) : List IntUse :=
  (List.range (dflLen * 4).toNat).flatMap fun (n : Nat) =>
    [.index (g.rowIndex k n) boxes.length, .index (.of n) bufferSize]

/-- The reads of the buffer in `ComputeDFL`, and the sides of the box. -/
def dflUses (dflLen : Int) : List IntUse :=
  (List.range 4).flatMap fun (b : Nat) =>
    ((List.range dflLen.toNat).map fun (i : Nat) =>
      .index (.of i + .of b * .of dflLen) bufferSize) ++ [.index (.of b) 4]

def cellUses (g : Scale) (boxes scores : List F) (k : Cell) : List IntUse :=
  classUses g scores k ++
    if (p.maxClass scores k).1.isNone then []
    else bufferUses g p.dflLen boxes k ++ dflUses p.dflLen ++ [.index (.of k.s) kStrides.length]

def scaleUses (g : Scale) (boxes scores : List F) (s : Nat) : List IntUse :=
  [.index (.of s) kStrides.length, .computed g.gridLen, .computed (g.expectedBox p.dflLen),
    .computed g.expectedScore] ++
    if int32 boxes.length = (g.expectedBox p.dflLen).value ∧
        int32 scores.length = g.expectedScore.value then
      (p.cells s).flatMap (p.cellUses g boxes scores)
    else []

def boxIdx (outputs : Tensors F) (s : Nat) : CheckedInt := .of s * .of (outputsPerBranch outputs)

def scoreIdx (outputs : Tensors F) (s : Nat) : CheckedInt := boxIdx outputs s + .of 1

/-- As for the other decoder. The test of both indices against the number of tensors never
ends the loop, since both are below it. -/
def intUses (outputs : Tensors F) : List IntUse :=
  if outputs.isEmpty || outputsPerBranch outputs < 2 then []
  else (List.range 3).flatMap fun (s : Nat) =>
    [.index (boxIdx outputs s) outputs.length, .index (scoreIdx outputs s) outputs.length] ++
      p.scaleUses (p.scale s) (boxTensor outputs s) (scoreTensor outputs s) s

def Passes (scores : List F) (k : Cell) (c : Nat) : Prop :=
  p.confidenceThreshold < p.score scores k c ∧ const 0 < p.score scores k c

/-- The sizes of one scale fit, and where both tensors have the expected sizes and the
score of a class is above the threshold and above zero, the buffer is long enough. -/
structure ScaleFits (g : Scale) (boxes scores : List F) (s : Nat) : Prop where
  area : Fits g.area
  dflLen : Fits p.dflLen
  sides : Fits (p.dflLen * 4)
  boxSize : Fits (p.dflLen * 4 * g.area)
  scoreSize : Fits (g.nc * g.area)
  buffer : int32 boxes.length = p.dflLen * 4 * g.area → int32 scores.length = g.nc * g.area →
    (∃ k ∈ p.cells s, ∃ c < (int32 p.numClasses).toNat, p.Passes scores k c) → p.dflLen ≤ 16

def IndicesFit (outputs : Tensors F) : Prop :=
  outputs ≠ [] → 2 ≤ outputsPerBranch outputs → ∀ s < 3,
    p.ScaleFits (p.scale s) (boxTensor outputs s) (scoreTensor outputs s) s

variable {p}

theorem mem_cells {s : Nat} {k : Cell} :
    k ∈ p.cells s ↔ k.s = s ∧ (k.i : Int) < (p.scale s).gridH ∧
      (k.j : Int) < (p.scale s).gridW := by
  rw [scale, Scale.ofConfig]
  unfold cells
  generalize grid p.inputHeight s = gridH
  generalize grid p.inputWidth s = gridW
  simp only [List.mem_flatMap, List.mem_map, List.mem_range]
  constructor
  · rintro ⟨i, hi, j, hj, rfl⟩
    exact ⟨rfl, Int.lt_toNat.mp hi, Int.lt_toNat.mp hj⟩
  · rintro ⟨rfl, hi, hj⟩
    exact ⟨k.i, Int.lt_toNat.mpr hi, k.j, Int.lt_toNat.mpr hj, rfl⟩

theorem gridW_scale (s : Nat) : (p.scale s).gridW = grid p.inputWidth s := by
  rw [scale, Scale.ofConfig]

theorem area_scale (s : Nat) :
    (p.scale s).area = grid p.inputHeight s * grid p.inputWidth s := by
  rw [scale, Scale.ofConfig, Scale.area]

theorem onGrid_of_mem {s : Nat} {k : Cell} (hk : k ∈ p.cells s) :
    (p.scale s).OnGrid k.i k.j := by
  obtain ⟨-, hi, hj⟩ := mem_cells.mp hk
  exact ⟨Scale.isInt_ofConfig _ _ _ _, hi, hj⟩

/-- The scan of the classes after `n` of them: it has nothing, or a class passed. -/
theorem foldl_betterClass_cases (scores : List F) (k : Cell) (n : Nat) :
    let best := (List.range n).foldl (p.betterClass scores k) (none, const 0)
    (best = (none, const 0) ∧ ∀ c < n, ¬ p.Passes scores k c) ∨
      best.1.isSome = true ∧ ∃ c < n, p.Passes scores k c := by
  induction n with
  | zero => exact .inl ⟨rfl, fun c hc => absurd hc (Nat.not_lt_zero c)⟩
  | succ n ih =>
    rw [List.range_succ, List.foldl_append, List.foldl_cons, List.foldl_nil, betterClass]
    rcases ih with ⟨hbest, hnone⟩ | ⟨hsome, c, hc, hpass⟩
    · rw [hbest]
      split
      next hpass => exact .inr ⟨rfl, n, Nat.lt_succ_self n, hpass⟩
      next hfail =>
        refine .inl ⟨rfl, fun c hc => ?_⟩
        rcases Nat.lt_succ_iff_lt_or_eq.mp hc with hc | rfl
        · exact hnone c hc
        · exact hfail
    · refine .inr ⟨?_, c, Nat.lt_succ_of_lt hc, hpass⟩
      split
      next => rfl
      next => exact hsome

/-- A class is found exactly when one passes both tests. -/
theorem isSome_maxClass {scores : List F} {k : Cell} :
    (p.maxClass scores k).1.isSome = true ↔
      ∃ c < (int32 p.numClasses).toNat, p.Passes scores k c := by
  have hcases := foldl_betterClass_cases (p := p) scores k (int32 p.numClasses).toNat
  unfold maxClass
  rcases hcases with ⟨hbest, hnone⟩ | ⟨hsome, hpass⟩
  · rw [hbest]
    exact ⟨fun h => by simp at h, fun ⟨c, hc, hpass⟩ => absurd hpass (hnone c hc)⟩
  · exact ⟨fun _ => hpass, fun _ => hsome⟩

/-! ### Uses at one cell -/

omit [CFloat F] in
theorem classUses_valid {g : Scale} {k : Cell} (h : g.OnGrid k.i k.j) {scores : List F}
    (hfits : Fits (g.nc * g.area)) (hsize : int32 scores.length = g.nc * g.area) :
    ∀ u ∈ classUses g scores k, u.Valid := by
  refine List.forall_mem_map.mpr fun c hc => ?_
  exact h.rowIndex_valid (Int.lt_toNat.mp (List.mem_range.mp hc)) hfits hsize

omit [CFloat F] in
/-- The buffer is filled from the tensor, and overrun by a longer distribution than 16. -/
theorem bufferUses_valid_iff {g : Scale} {k : Cell} (h : g.OnGrid k.i k.j) {dflLen : Int}
    {boxes : List F} (hfits : Fits (dflLen * 4 * g.area))
    (hsize : int32 boxes.length = dflLen * 4 * g.area) :
    (∀ u ∈ bufferUses g dflLen boxes k, u.Valid) ↔ dflLen ≤ 16 := by
  simp only [bufferUses, List.forall_mem_flatMap, List.mem_range, List.forall_mem_cons]
  constructor
  · intro hvalid
    by_contra hlong
    -- the first write behind the buffer
    obtain ⟨-, hwrite, -⟩ := hvalid 64 (by omega)
    exact absurd hwrite.2.2 (by decide)
  · intro hlen n hn
    have hrow : (n : Int) < dflLen * 4 := by omega
    exact ⟨h.rowIndex_valid hrow hfits hsize,
      IntUse.valid_of_lt (Int.natCast_nonneg n) (by simp [bufferSize]; omega) (by decide), by simp⟩

theorem dflUses_valid {dflLen : Int} (hlen : dflLen ≤ 16) : ∀ u ∈ dflUses dflLen, u.Valid := by
  simp only [dflUses, List.forall_mem_flatMap, List.mem_range]
  intro b hb
  refine List.forall_mem_append.mpr ⟨List.forall_mem_map.mpr fun i hi => ?_, ?_⟩
  · have hi : (i : Int) < dflLen := Int.lt_toNat.mp (List.mem_range.mp hi)
    have hrow := row_bounds (Int.natCast_nonneg b) (Int.ofNat_lt.mpr hb) (Int.natCast_nonneg i) hi
    simp only [IntUse.Valid, CheckedInt.defined_add, CheckedInt.defined_mul,
      CheckedInt.defined_of, CheckedInt.value_add, CheckedInt.value_mul, CheckedInt.value_of,
      bufferSize]
    unfold Fits
    have hmul : 0 ≤ b * dflLen := Int.mul_nonneg (Int.natCast_nonneg b) (by omega)
    omega
  · simp only [List.forall_mem_singleton]
    exact IntUse.valid_of_lt (Int.natCast_nonneg b) (by omega) (by decide)

theorem cellUses_valid_iff {g : Scale} {k : Cell} (h : g.OnGrid k.i k.j) (hs : k.s < 3)
    {boxes scores : List F} (hboxFits : Fits (p.dflLen * 4 * g.area))
    (hscoreFits : Fits (g.nc * g.area))
    (hbox : int32 boxes.length = p.dflLen * 4 * g.area)
    (hscore : int32 scores.length = g.nc * g.area) :
    (∀ u ∈ p.cellUses g boxes scores k, u.Valid) ↔
      ((∃ c < (int32 p.numClasses).toNat, p.Passes scores k c) → p.dflLen ≤ 16) := by
  rw [cellUses, List.forall_mem_append, ← isSome_maxClass]
  have hclasses := classUses_valid h hscoreFits hscore
  split
  next hnone =>
    have hempty : ¬ (p.maxClass scores k).1.isSome = true := by simpa using hnone
    exact ⟨fun _ hsome => absurd hsome hempty, fun _ => ⟨hclasses, by simp⟩⟩
  next hsome =>
    have hsome : (p.maxClass scores k).1.isSome = true := by
      rw [Option.isSome_iff_ne_none]
      simpa using hsome
    rw [List.forall_mem_append, List.forall_mem_append, bufferUses_valid_iff h hboxFits hbox]
    constructor
    · rintro ⟨-, ⟨hlen, -⟩, -⟩ -
      exact hlen
    · intro hlen
      exact ⟨hclasses, ⟨hlen hsome, dflUses_valid (hlen hsome)⟩,
        List.forall_mem_singleton.mpr (stride_valid hs)⟩

/-! ### A scale -/

theorem scaleUses_valid_iff {g : Scale} {s : Nat} {boxes scores : List F} (hg : p.scale s = g)
    (hs : s < 3) :
    (∀ u ∈ p.scaleUses g boxes scores s, u.Valid) ↔ p.ScaleFits g boxes scores s := by
  have hint : g.IsInt := hg ▸ Scale.isInt_ofConfig _ _ _ _
  rw [scaleUses, List.forall_mem_append]
  simp only [List.forall_mem_cons, IntUse.Valid]
  rw [hint.gridLen, hint.expectedBox, hint.expectedScore]
  constructor
  · rintro ⟨⟨-, -, ⟨harea, hlen, hsides, hbox⟩, ⟨-, hscore⟩, -⟩, hcells⟩
    refine ⟨harea, hlen, hsides, hbox, hscore, fun hboxSize hscoreSize hpass => ?_⟩
    obtain ⟨k, hk, hpass⟩ := hpass
    have hgrid : g.OnGrid k.i k.j := hg ▸ onGrid_of_mem hk
    have hks : k.s < 3 := (mem_cells.mp hk).1 ▸ hs
    rw [Scale.value_expectedBox, Scale.value_expectedScore, if_pos ⟨hboxSize, hscoreSize⟩] at hcells
    have hcell : ∀ u ∈ p.cellUses g boxes scores k, u.Valid := fun u hu =>
      hcells u (List.mem_flatMap.mpr ⟨k, hk, hu⟩)
    exact (cellUses_valid_iff hgrid hks hbox hscore hboxSize hscoreSize).mp hcell hpass
  · rintro ⟨harea, hlen, hsides, hbox, hscore, hbuffer⟩
    refine ⟨⟨stride_valid hs, harea, ⟨harea, hlen, hsides, hbox⟩, ⟨harea, hscore⟩, by simp⟩, ?_⟩
    split
    next hmatch =>
      obtain ⟨hboxSize, hscoreSize⟩ := hmatch
      intro u hu
      obtain ⟨k, hk, hu⟩ := List.mem_flatMap.mp hu
      have hgrid : g.OnGrid k.i k.j := hg ▸ onGrid_of_mem hk
      have hks : k.s < 3 := (mem_cells.mp hk).1 ▸ hs
      refine (cellUses_valid_iff hgrid hks hbox hscore hboxSize hscoreSize).mpr ?_ u hu
      exact fun hpass => hbuffer hboxSize hscoreSize ⟨k, hk, hpass⟩
    next => simp

omit [CFloat F] in
/-- Both tensors of each scale are among the outputs. -/
theorem tensorIdx_valid {outputs : Tensors F} (hbranch : 2 ≤ outputsPerBranch outputs) {s : Nat}
    (hs : s < 3) :
    (IntUse.index (boxIdx outputs s) outputs.length).Valid ∧
      (IntUse.index (scoreIdx outputs s) outputs.length).Valid := by
  have hlen := int32_le outputs.length
  obtain ⟨-, hhigh⟩ := fits_int32 outputs.length
  have hthird : outputsPerBranch outputs * 3 ≤ int32 outputs.length := by
    unfold outputsPerBranch at *
    rcases le_total 0 (int32 outputs.length) with hpos | hneg
    · rw [Int.tdiv_eq_ediv_of_nonneg hpos]
      omega
    · have hquotient : 0 ≤ (-int32 outputs.length).tdiv 3 :=
        Int.tdiv_nonneg (by omega) (by decide)
      rw [Int.neg_tdiv] at hquotient
      omega
  simp only [IntUse.Valid, scoreIdx, boxIdx, CheckedInt.defined_add, CheckedInt.defined_mul,
    CheckedInt.defined_of, CheckedInt.value_add, CheckedInt.value_mul, CheckedInt.value_of]
  unfold Fits
  generalize outputsPerBranch outputs = per at *
  interval_cases s <;> omega

/-- Where its index is valid, an entry that the decoder uses is one of the tensor. -/
theorem row_read {s : Nat} {k : Cell} (hk : k ∈ p.cells s) {tensor : List F} {n : Nat}
    (h : (IntUse.index ((p.scale s).rowIndex k n) tensor.length).Valid) :
    tensor[((p.scale s).rowIndex k n).value.toNat]? =
      some (valueAt tensor (n * p.gridLen k.s + p.offset k)) := by
  obtain ⟨rfl, -⟩ := mem_cells.mp hk
  have hgridLen := (CheckedInt.defined_mul.mp (CheckedInt.defined_add.mp h.1).1).2.1
  rw [(onGrid_of_mem hk).isInt.gridLen, area_scale] at hgridLen
  rw [valueAt_of_valid h h.1.fits_add, gridLen, offset, int32_eq_of_fits hgridLen, ← area_scale,
    ← gridW_scale, Scale.value_rowIndex, Scale.value_offset]

theorem intUses_valid_iff (outputs : Tensors F) :
    (∀ u ∈ p.intUses outputs, u.Valid) ↔ p.IndicesFit outputs := by
  unfold intUses IndicesFit
  split
  next hskipped =>
    simp only [Bool.or_eq_true, List.isEmpty_iff, decide_eq_true_eq] at hskipped
    refine ⟨fun _ hne hbranch => ?_, fun _ => by simp⟩
    rcases hskipped with hnil | hfew
    · exact absurd hnil hne
    · omega
  next hrun =>
    simp only [Bool.or_eq_true, List.isEmpty_iff, decide_eq_true_eq, not_or, not_lt] at hrun
    obtain ⟨hne, hbranch⟩ := hrun
    simp only [hne, hbranch, ne_eq, not_false_eq_true, forall_const, List.forall_mem_flatMap,
      List.mem_range]
    refine forall₂_congr fun s hs => ?_
    obtain ⟨hbox, hscore⟩ := tensorIdx_valid hbranch hs
    rw [List.forall_mem_append, scaleUses_valid_iff rfl hs]
    exact and_iff_right (by simp [hbox, hscore])

end Yolov8PostProcessor

/-! ## Both decoders -/

/-- No index leaves its table exactly when the sizes fit and the configured lengths do. -/
theorem PostProcessor.intUses_valid_iff_indicesFit {F : Type} [CFloat F] (outputs : Tensors F) :
    (∀ p : YoloPostProcessor F, (∀ u ∈ p.intUses outputs, u.Valid) ↔ p.IndicesFit outputs) ∧
      ∀ p : Yolov8PostProcessor F, (∀ u ∈ p.intUses outputs, u.Valid) ↔ p.IndicesFit outputs :=
  ⟨fun p => p.intUses_valid_iff outputs, fun p => p.intUses_valid_iff outputs⟩

/-- A distribution of length 17, with tensors of the sizes that it asks for and one score
above the threshold: the entry after the last one of the buffer is written. -/
theorem Yolov8PostProcessor.not_valid_dflLen17 :
    let p : Yolov8PostProcessor ℚ :=
      { numClasses := 1, inputWidth := 8, inputHeight := 8, dflLen := 17 }
    let outputs : Tensors ℚ := [List.replicate 68 0, [3/4], [], [], [], []]
    .index (.of 64) 64 ∈ p.intUses outputs ∧ ¬ ∀ u ∈ p.intUses outputs, u.Valid := by
  decide +kernel
