-- SUMMARY: The int computations of the anchor decoder: when every size and every index it computes is inside its range.
import NeuroPipeline.Lib.CheckedInt
import NeuroPipeline.Edge.PostProcess
import Mathlib.Tactic.IntervalCases

/-!
# Indices into tensors

The decoders compute sizes and indices in `int` from the configuration and compare
the sizes with those of the tensors. Here the expressions are the ones of the source,
listed in the order in which a run uses them.
-/

open PostProcessor

/-- A size is never below what it wraps to. -/
theorem int32_le (n : Nat) : int32 n ≤ n := by
  have hlow := Int.le_bmod (x := (n : Int)) (m := 2 ^ 32) (by decide)
  unfold int32
  rcases Nat.lt_or_ge n (2 ^ 31) with hlt | hge
  · exact le_of_eq (Int.bmod_eq_of_le (by omega) (by omega))
  · have hhigh := Int.bmod_lt (x := (n : Int)) (m := 2 ^ 32) (by decide)
    omega

namespace PostProcessor

theorem fits_grid (size s : Nat) : Fits (grid size s) := by
  obtain ⟨hlow, hhigh⟩ := fits_int32 size
  have habs : (grid size s).natAbs ≤ (int32 size).natAbs := by
    rw [grid, Int.natAbs_tdiv]
    exact Nat.div_le_self _ _
  rcases le_total 0 (int32 size) with hpos | hneg
  · have hgrid : 0 ≤ grid size s := Int.tdiv_nonneg hpos kStrides_pos.le
    unfold Fits
    omega
  · have hgrid : 0 ≤ -grid size s := by
      rw [grid, ← Int.neg_tdiv]
      exact Int.tdiv_nonneg (by omega) kStrides_pos.le
    unfold Fits
    omega

/-- A read at a valid index is a read of the tensor. -/
theorem valueAt_of_valid {F : Type} [CFloat F] {tensor : List F} {e : CheckedInt}
    (h : (IntUse.index e tensor.length).Valid) (hfits : Fits e.value) :
    tensor[e.value.toNat]? = some (valueAt tensor e.value) := by
  obtain ⟨-, hlow, hhigh⟩ := h
  rw [valueAt, int32_eq_of_fits hfits, List.getD_eq_getElem?_getD,
    List.getElem?_eq_getElem (by omega), Option.getD_some]

/-! ## Sizes of a scale -/

/-- The numbers that the sizes of one scale are computed from. -/
structure Scale where
  nc : Int
  gridW : Int
  gridH : Int

namespace Scale

def ofConfig (numClasses inputWidth inputHeight s : Nat) : Scale where
  nc := int32 numClasses
  gridW := grid inputWidth s
  gridH := grid inputHeight s

variable (g : Scale)

def gridLen : CheckedInt := .of g.gridH * .of g.gridW

/-- A cell by its row and its column. -/
def offset (y x : Nat) : CheckedInt := .of y * .of g.gridW + .of x

/-- The number of cells. -/
def area : Int := g.gridH * g.gridW

variable {g}

@[simp] theorem value_gridLen : g.gridLen.value = g.area := rfl

theorem value_offset (y x : Nat) : (g.offset y x).value = y * g.gridW + x := rfl

/-- Its numbers are values of the type. -/
structure IsInt (g : Scale) : Prop where
  nc : Fits g.nc
  gridW : Fits g.gridW
  gridH : Fits g.gridH

theorem isInt_mk {nc gridW gridH : Int} (hnc : Fits nc) (hgridW : Fits gridW)
    (hgridH : Fits gridH) : (mk nc gridW gridH).IsInt := ⟨hnc, hgridW, hgridH⟩

theorem isInt_ofConfig (numClasses inputWidth inputHeight s : Nat) :
    (ofConfig numClasses inputWidth inputHeight s).IsInt := by
  rw [ofConfig]
  exact isInt_mk (fits_int32 _) (fits_grid _ _) (fits_grid _ _)

theorem IsInt.gridLen (h : g.IsInt) : g.gridLen.Defined ↔ Fits g.area := by
  rw [Scale.gridLen, CheckedInt.defined_mul, CheckedInt.defined_of, CheckedInt.defined_of]
  exact ⟨fun hd => hd.2.2, fun harea => ⟨h.gridH, h.gridW, harea⟩⟩

structure OnGrid (g : Scale) (y x : Nat) : Prop where
  isInt : g.IsInt
  row : (y : Int) < g.gridH
  column : (x : Int) < g.gridW

namespace OnGrid

variable {y x : Nat}

theorem offset_bounds (h : g.OnGrid y x) :
    0 ≤ (g.offset y x).value ∧ (g.offset y x).value < g.area := by
  rw [value_offset]
  exact row_bounds (Int.natCast_nonneg y) h.row (Int.natCast_nonneg x) h.column

theorem offset_defined (h : g.OnGrid y x) (harea : g.area ≤ 2 ^ 31) : (g.offset y x).Defined := by
  obtain ⟨hlow, hhigh⟩ := h.offset_bounds
  obtain ⟨⟨-, hfitsW, hfitsH⟩, hrow, hcolumn⟩ := h
  have hstart : 0 ≤ y * g.gridW :=
    Int.mul_nonneg (Int.natCast_nonneg y) ((Int.natCast_nonneg x).trans hcolumn.le)
  rw [value_offset] at hlow hhigh
  simp only [offset, CheckedInt.defined_add, CheckedInt.defined_mul, CheckedInt.defined_of,
    CheckedInt.value_of, CheckedInt.value_mul]
  unfold Fits at *
  omega

end OnGrid

end Scale

theorem stride_valid {s : Nat} (hs : s < 3) : (IntUse.index (.of s) kStrides.length).Valid :=
  IntUse.valid_of_lt (Int.natCast_nonneg s) (by simp [kStrides]; omega) (by simp [kStrides])

end PostProcessor

/-! ## YOLOv5 -/

namespace PostProcessor.Scale

open YoloPostProcessor

variable (g : Scale)

def propSize : CheckedInt := .of 5 + .of g.nc

def expectedSize : CheckedInt := g.gridLen * .of kNumAnchors * g.propSize

def base (k : Cell) : CheckedInt := .of k.a * g.propSize * g.gridLen

/-- The index of channel `c` of an anchor at a cell. -/
def channelIndex (k : Cell) (c : CheckedInt) : CheckedInt :=
  g.base k + c * g.gridLen + g.offset k.y k.x

/-- What one anchor predicts. -/
def props : Int := 5 + g.nc

variable {g}

@[simp] theorem value_propSize : g.propSize.value = g.props := rfl

@[simp] theorem value_expectedSize : g.expectedSize.value = g.area * 3 * g.props := rfl

theorem value_channelIndex (k : Cell) (c : CheckedInt) :
    (g.channelIndex k c).value =
      k.a * g.props * g.area + c.value * g.area + (g.offset k.y k.x).value := rfl

theorem IsInt.propSize (h : g.IsInt) : g.propSize.Defined ↔ Fits g.props := by
  rw [Scale.propSize, CheckedInt.defined_add, CheckedInt.defined_of, CheckedInt.defined_of]
  exact ⟨fun hd => hd.2.2, fun hprops => ⟨by decide, h.nc, hprops⟩⟩

theorem IsInt.expectedSize (h : g.IsInt) :
    g.expectedSize.Defined ↔
      Fits g.area ∧ Fits (g.area * 3) ∧ Fits g.props ∧ Fits (g.area * 3 * g.props) := by
  rw [Scale.expectedSize, CheckedInt.defined_mul, CheckedInt.defined_mul, h.gridLen, h.propSize,
    CheckedInt.defined_of]
  constructor
  · rintro ⟨⟨harea, -, hanchors⟩, hprops, hsize⟩
    exact ⟨harea, hanchors, hprops, hsize⟩
  · rintro ⟨harea, hanchors, hprops, hsize⟩
    exact ⟨⟨harea, by decide, hanchors⟩, hprops, hsize⟩

end PostProcessor.Scale

namespace YoloPostProcessor

variable {F : Type} [CFloat F] (p : YoloPostProcessor F)

def scale (s : Nat) : Scale := .ofConfig p.numClasses p.inputWidth p.inputHeight s

/-- The values that are read to find the class of an anchor. -/
def classUses (g : Scale) (output : List F) (k : Cell) : List IntUse :=
  (List.range g.nc.toNat).map fun (c : Nat) =>
    .index (g.channelIndex k (.of 5 + .of c)) output.length

/-- The values and the constants from which its box is computed. -/
def boxUses (g : Scale) (output : List F) (k : Cell) : List IntUse :=
  let anchors := kAnchors.getD k.s []
  [.index (g.channelIndex k (.of 0)) output.length,
    .index (g.channelIndex k (.of 1)) output.length,
    .index (g.channelIndex k (.of 2)) output.length,
    .index (g.channelIndex k (.of 3)) output.length,
    .index (.of k.s) kStrides.length, .index (.of k.s) kAnchors.length,
    .index (.of k.a * .of 2) anchors.length, .index (.of k.a * .of 2 + .of 1) anchors.length]

def cellUses (g : Scale) (output : List F) (k : Cell) : List IntUse :=
  .index (g.channelIndex k (.of 4)) output.length ::
    if p.objConf output k < p.confidenceThreshold then []
    else classUses g output k ++
      if p.confidence output k < p.confidenceThreshold then [] else boxUses g output k

def scaleUses (g : Scale) (output : List F) (s : Nat) : List IntUse :=
  [.index (.of s) kStrides.length, .computed g.gridLen, .computed g.expectedSize] ++
    if int32 output.length = g.expectedSize.value then (p.cells s).flatMap (p.cellUses g output)
    else []

/-- Everything that `Process` computes in `int` on the way to an index, and every index. -/
def intUses (outputs : Tensors F) : List IntUse :=
  if outputs.isEmpty then []
  else .computed (p.scale 0).propSize ::
    (List.range (Nat.min outputs.length 3)).flatMap fun (s : Nat) =>
      .index (.of s) outputs.length :: p.scaleUses (p.scale s) (outputs.getD s []) s

/-! ### When the indices are inside -/

/-- The tensor holds the planes that are read although there are no classes. The number of
channels is then at most 4, and below zero it sends the second and the third anchor to
planes before the first. -/
structure PlanesInside (g : Scale) (output : List F) (s : Nat) : Prop where
  objectness : -2 ≤ g.props
  inTensor : (2 * max g.props 0 + 5) * g.area ≤ output.length
  inRange : (2 * max g.props 0 + 5) * g.area ≤ 2 ^ 31
  boxes : ∀ k ∈ p.cells s, ¬ p.objConf output k < p.confidenceThreshold →
    ¬ p.confidence output k < p.confidenceThreshold → 0 ≤ k.a * g.props

/-- The sizes of one scale fit, and where it has cells and a tensor of the expected size,
either the number of classes is not negative as an `int` or the tensor is large enough
all the same. -/
structure ScaleFits (g : Scale) (output : List F) (s : Nat) : Prop where
  area : Fits g.area
  anchors : Fits (g.area * 3)
  size : Fits (g.area * 3 * g.props)
  planes : int32 output.length = g.area * 3 * g.props → 0 < g.gridH → 0 < g.gridW → g.nc < 0 →
    p.PlanesInside g output s

def IndicesFit (outputs : Tensors F) : Prop :=
  outputs ≠ [] → Fits (p.scale 0).props ∧
    ∀ s < Nat.min outputs.length 3, p.ScaleFits (p.scale s) (outputs.getD s []) s

variable {p}

theorem gridW_scale (s : Nat) : (p.scale s).gridW = grid p.inputWidth s := by
  rw [scale, Scale.ofConfig]

theorem gridH_scale (s : Nat) : (p.scale s).gridH = grid p.inputHeight s := by
  rw [scale, Scale.ofConfig]

theorem mem_cells {s : Nat} {k : Cell} :
    k ∈ p.cells s ↔ k.s = s ∧ k.a < 3 ∧ (k.y : Int) < (p.scale s).gridH ∧
      (k.x : Int) < (p.scale s).gridW := by
  rw [gridW_scale, gridH_scale]
  unfold cells
  generalize grid p.inputHeight s = gridH
  generalize grid p.inputWidth s = gridW
  simp only [kNumAnchors, List.mem_flatMap, List.mem_map, List.mem_range]
  constructor
  · rintro ⟨a, ha, y, hy, x, hx, rfl⟩
    exact ⟨rfl, ha, Int.lt_toNat.mp hy, Int.lt_toNat.mp hx⟩
  · rintro ⟨rfl, ha, hy, hx⟩
    exact ⟨k.a, ha, k.y, Int.lt_toNat.mpr hy, k.x, Int.lt_toNat.mpr hx, rfl⟩

/-! ### Uses at one cell -/

/-- An anchor at a cell of the grid. -/
structure OnGrid (g : Scale) (k : Cell) : Prop where
  anchor : k.a < 3
  cell : g.OnGrid k.y k.x

namespace OnGrid

variable {g : Scale} {k : Cell}

/-- Channel `c`, on a plane before the last of `rows` planes that the tensor holds. -/
theorem channelIndex_valid (h : OnGrid g k) {size : Nat} {rows : Int}
    (hsize : rows * g.area ≤ size) (hint : rows * g.area ≤ 2 ^ 31) (hrows : 4 ≤ rows)
    (hprops : Fits g.props) (hfirst : -4 ≤ k.a * g.props) {c : CheckedInt} (hc : c.Defined)
    (hc₀ : 0 ≤ c.value) (hcrow : c.value < rows) (hrow₀ : 0 ≤ k.a * g.props + c.value)
    (hrow : k.a * g.props + c.value < rows) :
    (IntUse.index (g.channelIndex k c) size).Valid := by
  obtain ⟨hlow, hhigh⟩ := h.cell.offset_bounds
  have hcells : 1 ≤ g.area := by omega
  obtain ⟨hplane₀, hplane⟩ := row_bounds hrow₀ hrow hlow hhigh
  rw [Int.add_mul] at hplane₀ hplane
  have hcplane := row_bounds hc₀ hcrow le_rfl (hlow.trans_lt hhigh)
  have hone : rows ≤ rows * g.area := le_mul_of_one_le_right (by omega) hcells
  have hfour : 4 * g.area ≤ rows * g.area := Int.mul_le_mul_of_nonneg_right hrows (by omega)
  have hbase : -4 * g.area ≤ k.a * g.props * g.area :=
    Int.mul_le_mul_of_nonneg_right hfirst (by omega)
  have hpos := h.cell.offset_defined (by omega)
  have harea : Fits g.area := ⟨by omega, by omega⟩
  have hfitsBase : Fits (k.a * g.props * g.area) := ⟨by omega, by omega⟩
  -- a row is at most its plane, since there is a cell
  have hfitsRow : Fits (k.a * g.props) := ⟨by omega, by omega⟩
  have hfitsPlane : Fits (c.value * g.area) := ⟨by omega, by omega⟩
  have hfitsSum : Fits (k.a * g.props * g.area + c.value * g.area) := ⟨by omega, by omega⟩
  have hfitsIndex : Fits (k.a * g.props * g.area + c.value * g.area + (g.offset k.y k.x).value) :=
    ⟨by omega, by omega⟩
  have hanchor := h.anchor
  refine ⟨?_, ?_, ?_⟩
  · rw [Scale.channelIndex, CheckedInt.defined_add, CheckedInt.defined_add, CheckedInt.defined_mul,
      Scale.base, CheckedInt.defined_mul, CheckedInt.defined_mul, CheckedInt.defined_of,
      h.cell.isInt.propSize, h.cell.isInt.gridLen]
    exact ⟨⟨⟨⟨⟨by omega, by omega⟩, hprops, hfitsRow⟩, harea, hfitsBase⟩,
      ⟨hc, harea, hfitsPlane⟩, hfitsSum⟩, hpos, hfitsIndex⟩
  · rw [Scale.value_channelIndex]
    exact hplane₀
  · rw [Scale.value_channelIndex]
    omega

/-- Uses at a cell, from the planes that they lie on. -/
theorem cellUses_valid (h : OnGrid g k) (hs : k.s < 3) {output : List F} (rows : Int)
    (hsize : rows * g.area ≤ output.length) (hint : rows * g.area ≤ 2 ^ 31) (hrows : 5 ≤ rows)
    (hprops : Fits g.props) (hfirst : -4 ≤ k.a * g.props) (hobj : k.a * g.props + 4 < rows)
    (hclass : ∀ c : Nat, (c : Int) < g.nc → k.a * g.props + (5 + c) < rows ∧ 5 + (c : Int) < rows)
    (hbox : ¬ p.objConf output k < p.confidenceThreshold →
      ¬ p.confidence output k < p.confidenceThreshold → 0 ≤ k.a * g.props) :
    ∀ u ∈ p.cellUses g output k, u.Valid := by
  have hchannel {c : Int} (hc₀ : 0 ≤ c) (hc : c ≤ 4) (hrow₀ : 0 ≤ k.a * g.props + c) :
      (IntUse.index (g.channelIndex k (.of c)) output.length).Valid :=
    h.channelIndex_valid hsize hint (by omega) hprops hfirst
      (CheckedInt.defined_of.mpr ⟨by omega, by omega⟩) hc₀ (by simp; omega) hrow₀ (by simp; omega)
  have hclasses : ∀ u ∈ classUses g output k, u.Valid := by
    obtain ⟨hlow, hhigh⟩ := h.cell.offset_bounds
    have hone : rows ≤ rows * g.area := le_mul_of_one_le_right (by omega) (by omega)
    refine List.forall_mem_map.mpr fun c hc => ?_
    obtain ⟨hrow, hcrow⟩ := hclass c (Int.lt_toNat.mp (List.mem_range.mp hc))
    have hdefined : (CheckedInt.of 5 + .of (c : Nat)).Defined := by
      rw [CheckedInt.defined_add, CheckedInt.defined_of, CheckedInt.defined_of]
      exact ⟨by decide, ⟨by omega, by omega⟩, by simp; omega, by simp; omega⟩
    exact h.channelIndex_valid hsize hint (by omega) hprops hfirst hdefined (by simp; omega)
      (by simpa using hcrow) (by simp; omega) (by simpa using hrow)
  have htables : ∀ s < 3, ∀ a < 3,
      (IntUse.index (.of (s : Nat)) kStrides.length).Valid ∧
      (IntUse.index (.of (s : Nat)) kAnchors.length).Valid ∧
      (IntUse.index (.of (a : Nat) * .of 2) (kAnchors.getD s []).length).Valid ∧
      (IntUse.index (.of (a : Nat) * .of 2 + .of 1) (kAnchors.getD s []).length).Valid := by
    decide +kernel
  obtain ⟨hstride, hanchors, hwidth, hheight⟩ := htables k.s hs k.a h.anchor
  unfold cellUses
  refine List.forall_mem_cons.mpr ⟨hchannel (by omega) le_rfl (by omega), ?_⟩
  split
  next => simp
  next hthrough =>
    refine List.forall_mem_append.mpr ⟨hclasses, ?_⟩
    split
    next => simp
    next hconf =>
      have hrow := hbox hthrough hconf
      simp only [boxUses, List.forall_mem_cons]
      exact ⟨hchannel le_rfl (by omega) (by omega), hchannel (by omega) (by omega) (by omega),
        hchannel (by omega) (by omega) (by omega), hchannel (by omega) (by omega) (by omega),
        hstride, hanchors, hwidth, hheight, by simp⟩

/-- With classes, each anchor has its own planes in a tensor of the expected size. -/
theorem cellUses_valid_of_classes (h : OnGrid g k) (hs : k.s < 3) (hnc : 0 ≤ g.nc)
    {output : List F} (hprops : Fits g.props) (hfits : Fits (g.area * 3 * g.props))
    (hsize : int32 output.length = g.area * 3 * g.props) :
    ∀ u ∈ p.cellUses g output k, u.Valid := by
  have hplanes : 3 * g.props * g.area = g.area * 3 * g.props := by ring
  have hlen := int32_le output.length
  have hanchor := h.anchor
  have hpos : 5 ≤ g.props := by unfold Scale.props; omega
  have hbefore : 0 ≤ k.a * g.props := Int.mul_nonneg (Int.natCast_nonneg k.a) (by omega)
  have hlast : k.a * g.props ≤ 2 * g.props :=
    Int.mul_le_mul_of_nonneg_right (by omega) (by omega)
  have hfitsHigh := hfits.2
  refine h.cellUses_valid hs (3 * g.props) (by omega) (by omega) (by omega) hprops
    (by omega) (by omega) (fun c hc => ?_) fun _ _ => hbefore
  unfold Scale.props at *
  omega

/-- Without classes, as far as the tensor reaches. -/
theorem cellUses_valid_of_planes {s : Nat} (h : OnGrid g k) (hk : k ∈ p.cells s) (hs : k.s < 3)
    (hnc : g.nc < 0) {output : List F} (hprops : Fits g.props)
    (hplanes : p.PlanesInside g output s) : ∀ u ∈ p.cellUses g output k, u.Valid := by
  have hanchor := h.anchor
  have hfirst : -4 ≤ k.a * g.props := by
    have := hplanes.objectness
    interval_cases k.a <;> omega
  have hlast : k.a * g.props ≤ 2 * max g.props 0 := by
    interval_cases k.a <;> omega
  exact h.cellUses_valid hs _ hplanes.inTensor hplanes.inRange (by omega) hprops hfirst (by omega)
    (fun c hc => by omega) (hplanes.boxes k hk)

/-- The plane of a use that is inside the tensor is not before the first. -/
theorem row_nonneg (h : OnGrid g k) {size : Nat} {c : CheckedInt}
    (hvalid : (IntUse.index (g.channelIndex k c) size).Valid) : 0 ≤ k.a * g.props + c.value := by
  obtain ⟨hlow, hhigh⟩ := h.cell.offset_bounds
  have hindex := hvalid.2.1
  rw [Scale.value_channelIndex, ← Int.add_mul] at hindex
  exact row_nonneg_of_index hhigh hlow hindex

end OnGrid

/-! ### A scale -/

theorem isInt_scale (p : YoloPostProcessor F) (s : Nat) : (p.scale s).IsInt :=
  Scale.isInt_ofConfig _ _ _ _

theorem onGrid_of_mem {s : Nat} {k : Cell} (hk : k ∈ p.cells s) : OnGrid (p.scale s) k := by
  obtain ⟨-, ha, hy, hx⟩ := mem_cells.mp hk
  exact ⟨ha, isInt_scale p s, hy, hx⟩

/-- The last cell of anchor `a`. -/
def lastCell (g : Scale) (s a : Nat) : Cell := ⟨s, a, g.gridH.toNat - 1, g.gridW.toNat - 1⟩

theorem offset_lastCell {g : Scale} (hH : 0 < g.gridH) (hW : 0 < g.gridW) (s a : Nat) :
    (g.offset (lastCell g s a).y (lastCell g s a).x).value = g.area - 1 := by
  have hy : ((g.gridH.toNat - 1 : Nat) : Int) = g.gridH - 1 := by omega
  have hx : ((g.gridW.toNat - 1 : Nat) : Int) = g.gridW - 1 := by omega
  simp only [Scale.value_offset, lastCell, Scale.area, hy, hx]
  ring

theorem objectness_mem (g : Scale) (output : List F) (k : Cell) :
    .index (g.channelIndex k (.of 4)) output.length ∈ p.cellUses g output k :=
  List.mem_cons_self

/-- The plane of the objectness of anchor `a`, when the use at its last cell is valid. -/
theorem plane_le {g : Scale} (hH : 0 < g.gridH) (hW : 0 < g.gridW) {s a size : Nat}
    (hvalid : (IntUse.index (g.channelIndex (lastCell g s a) (.of 4)) size).Valid) :
    (a * g.props + 5) * g.area ≤ size ∧ (a * g.props + 5) * g.area ≤ 2 ^ 31 := by
  obtain ⟨hdefined, -, hlt⟩ := hvalid
  have hpos := offset_lastCell hH hW s a
  have hfits := hdefined.fits_add.2
  rw [Scale.value_channelIndex, hpos] at hlt
  rw [hpos] at hfits
  have hplane : (a * g.props + 5) * g.area = a * g.props * g.area + 4 * g.area + g.area := by ring
  rw [hplane]
  change a * g.props * g.area + 4 * g.area + (g.area - 1) < size at hlt
  change a * g.props * g.area + 4 * g.area + (g.area - 1) < 2 ^ 31 at hfits
  omega

theorem planesInside_of_valid {g : Scale} {s : Nat} {output : List F} (hg : p.scale s = g)
    (hH : 0 < g.gridH) (hW : 0 < g.gridW)
    (hvalid : ∀ k ∈ p.cells s, ∀ u ∈ p.cellUses g output k, u.Valid) :
    p.PlanesInside g output s := by
  have hcell (a y x : Nat) (ha : a < 3) (hy : (y : Int) < g.gridH) (hx : (x : Int) < g.gridW) :
      (⟨s, a, y, x⟩ : Cell) ∈ p.cells s := mem_cells.mpr ⟨rfl, ha, by rwa [hg], by rwa [hg]⟩
  have hobj {k : Cell} (hk : k ∈ p.cells s) :
      (IntUse.index (g.channelIndex k (.of 4)) output.length).Valid :=
    hvalid k hk _ (objectness_mem g output k)
  have hgrid {k : Cell} (hk : k ∈ p.cells s) : OnGrid g k := hg ▸ onGrid_of_mem hk
  have hlast (a : Nat) (ha : a < 3) : lastCell g s a ∈ p.cells s :=
    hcell _ _ _ ha (by omega) (by omega)
  have hfirst := hcell 2 0 0 (by omega) hH hW
  obtain ⟨hsize₀, hrange₀⟩ := plane_le hH hW (hobj (hlast 0 (by omega)))
  obtain ⟨hsize₂, hrange₂⟩ := plane_le hH hW (hobj (hlast 2 (by omega)))
  constructor
  · have hrow := (hgrid hfirst).row_nonneg (hobj hfirst)
    change 0 ≤ ((2 : Nat) : Int) * g.props + 4 at hrow
    omega
  · rcases max_cases g.props 0 with ⟨hmax, -⟩ | ⟨hmax, -⟩
    · rw [hmax]
      exact hsize₂
    · rw [hmax]
      simpa using hsize₀
  · rcases max_cases g.props 0 with ⟨hmax, -⟩ | ⟨hmax, -⟩
    · rw [hmax]
      exact hrange₂
    · rw [hmax]
      simpa using hrange₀
  · intro k hk hthrough hconf
    have hbox : (IntUse.index (g.channelIndex k (.of 0)) output.length).Valid := by
      apply hvalid k hk
      simp [cellUses, if_neg hthrough, if_neg hconf, boxUses]
    have hrow := (hgrid hk).row_nonneg hbox
    simpa using hrow

theorem cells_of_pos {s : Nat} {k : Cell} {g : Scale} (hg : p.scale s = g) (hk : k ∈ p.cells s) :
    0 < g.gridH ∧ 0 < g.gridW := by
  obtain ⟨-, -, hy, hx⟩ := mem_cells.mp hk
  rw [hg] at hy hx
  exact ⟨by omega, by omega⟩

theorem scaleUses_valid_iff {g : Scale} {s : Nat} {output : List F} (hg : p.scale s = g)
    (hs : s < 3) (hprops : Fits g.props) :
    (∀ u ∈ p.scaleUses g output s, u.Valid) ↔ p.ScaleFits g output s := by
  have hint : g.IsInt := hg ▸ isInt_scale p s
  rw [scaleUses, List.forall_mem_append]
  simp only [List.forall_mem_cons, IntUse.Valid]
  rw [hint.gridLen, hint.expectedSize]
  constructor
  · rintro ⟨⟨-, -, ⟨harea, hanchors, -, hsize⟩, -⟩, hcells⟩
    refine ⟨harea, hanchors, hsize, fun hmatch hH hW _ => ?_⟩
    rw [Scale.value_expectedSize, if_pos hmatch] at hcells
    exact planesInside_of_valid hg hH hW fun k hk u hu =>
      hcells u (List.mem_flatMap.mpr ⟨k, hk, hu⟩)
  · rintro ⟨harea, hanchors, hsize, hplanes⟩
    refine ⟨⟨stride_valid hs, harea, ⟨harea, hanchors, hprops, hsize⟩, by simp⟩, ?_⟩
    split
    next hmatch =>
      intro u hu
      obtain ⟨k, hk, hu⟩ := List.mem_flatMap.mp hu
      have hgrid : OnGrid g k := hg ▸ onGrid_of_mem hk
      have hks : k.s < 3 := (mem_cells.mp hk).1 ▸ hs
      obtain ⟨hH, hW⟩ := cells_of_pos hg hk
      rcases lt_or_ge g.nc 0 with hneg | hnc
      · exact hgrid.cellUses_valid_of_planes hk hks hneg hprops (hplanes hmatch hH hW hneg) u hu
      · exact hgrid.cellUses_valid_of_classes hks hnc hprops hsize hmatch u hu
    next => simp

theorem props_eq (s : Nat) : (p.scale s).props = 5 + int32 p.numClasses := by
  rw [scale, Scale.ofConfig, Scale.props]

theorem area_scale (s : Nat) :
    (p.scale s).area = grid p.inputHeight s * grid p.inputWidth s := by
  rw [scale, Scale.ofConfig, Scale.area]

theorem intUses_valid_iff (outputs : Tensors F) :
    (∀ u ∈ p.intUses outputs, u.Valid) ↔ p.IndicesFit outputs := by
  unfold intUses IndicesFit
  cases outputs with
  | nil => simp
  | cons output rest =>
    have hne : output :: rest ≠ [] := List.cons_ne_nil output rest
    rw [if_neg (by simp), List.forall_mem_cons, List.forall_mem_flatMap]
    simp only [hne, ne_eq, not_false_eq_true, forall_const, List.mem_range]
    change (Scale.propSize _).Defined ∧ _ ↔ _
    rw [(isInt_scale p 0).propSize]
    refine and_congr_right fun hprops => forall₂_congr fun s hs => ?_
    obtain ⟨hlen, hs⟩ := Nat.lt_min.mp hs
    have htensor : (IntUse.index (.of s) (output :: rest).length).Valid := by
      refine ⟨CheckedInt.defined_of.mpr ⟨by omega, by omega⟩, by simp, ?_⟩
      exact Int.ofNat_lt.mpr hlen
    rw [List.forall_mem_cons, scaleUses_valid_iff rfl hs (by rwa [props_eq, ← props_eq 0])]
    exact and_iff_right htensor

/-- Where its index is valid, a channel that the decoder uses is an entry of the tensor. -/
theorem channel_read {s : Nat} {k : Cell} (hk : k ∈ p.cells s) {output : List F} {c : Int}
    (h : (IntUse.index ((p.scale s).channelIndex k (.of c)) output.length).Valid) :
    output[((p.scale s).channelIndex k (.of c)).value.toNat]? = some (p.channel output k c) := by
  obtain ⟨rfl, -⟩ := mem_cells.mp hk
  obtain ⟨hbase, hchannel, -⟩ :=
    CheckedInt.defined_add.mp (CheckedInt.defined_add.mp h.1).1
  have hgridLen := (CheckedInt.defined_mul.mp hchannel).2.1
  have hpropSize := (CheckedInt.defined_mul.mp (CheckedInt.defined_mul.mp hbase).1).2.1
  rw [(isInt_scale p k.s).gridLen, area_scale] at hgridLen
  rw [(isInt_scale p k.s).propSize, props_eq] at hpropSize
  rw [valueAt_of_valid h h.1.fits_add, channel, propSize, gridLen, int32_eq_of_fits hgridLen,
    int32_eq_of_fits hpropSize, ← area_scale, ← props_eq k.s, ← gridW_scale,
    Scale.value_channelIndex, Scale.value_offset, CheckedInt.value_of]

end YoloPostProcessor
