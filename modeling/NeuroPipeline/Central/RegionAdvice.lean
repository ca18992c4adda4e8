-- SUMMARY: The regions that recommendations ask for: when their corners are in order and inside the frame.
import NeuroPipeline.Central.SensitivityAdvice

/-!
# Regions of the advice

A text that names a direction yields half of the frame or its middle. Any other yields its
first four numbers as two corners, each cut to the frame, in whatever order they come.
-/

open CFloat (const)

/-- Two corners in order, inside the frame. -/
structure DetectionRegion.WellFormed (r : DetectionRegion) : Prop where
  xMin_nonneg : const 0 ≤ r.xMin
  xMin_lt : r.xMin < r.xMax
  xMax_le : r.xMax ≤ const 1
  yMin_nonneg : const 0 ≤ r.yMin
  yMin_lt : r.yMin < r.yMax
  yMax_le : r.yMax ≤ const 1

instance (r : DetectionRegion) : Decidable r.WellFormed :=
  decidable_of_iff (const 0 ≤ r.xMin ∧ r.xMin < r.xMax ∧ r.xMax ≤ const 1 ∧ const 0 ≤ r.yMin ∧
      r.yMin < r.yMax ∧ r.yMax ≤ const 1)
    ⟨fun ⟨h₁, h₂, h₃, h₄, h₅, h₆⟩ => ⟨h₁, h₂, h₃, h₄, h₅, h₆⟩,
      fun ⟨h₁, h₂, h₃, h₄, h₅, h₆⟩ => ⟨h₁, h₂, h₃, h₄, h₅, h₆⟩⟩

namespace VlmConfigGuide

open DetectionRegion (clampValue)

/-! ## Clamping -/

theorem zero_lt_one : (const 0 : Binary64) < const 1 := by decide +kernel

theorem clampValue_eq (x : Binary64) : clampValue x =
    if x < const 1 then (if const 0 < x then x else const 0) else const 1 := by
  unfold clampValue CFloat.max CFloat.min
  split
  next => rfl
  next => rw [if_pos zero_lt_one]

theorem clampValue_nonneg (x : Binary64) : const 0 ≤ clampValue x := by
  rw [clampValue_eq]
  split
  next =>
      split
      next h => exact LawfulCFloat.le_of_lt h
      next => decide +kernel
  next => exact LawfulCFloat.le_of_lt zero_lt_one

theorem clampValue_le_one (x : Binary64) : clampValue x ≤ const 1 := by
  rw [clampValue_eq]
  split
  next hone =>
      split
      next => exact LawfulCFloat.le_of_lt hone
      next => exact LawfulCFloat.le_of_lt zero_lt_one
  next => decide +kernel

/-- `x` is in the frame, and `x'` is behind it and not left of the frame. -/
def Before (x x' : Binary64) : Prop := x < const 1 ∧ ¬x' ≤ x ∧ ¬x' ≤ const 0

theorem clampValue_lt_iff {x x' : Binary64} : clampValue x < clampValue x' ↔ Before x x' := by
  rw [clampValue_eq x, clampValue_eq x', Before]
  -- three places for each number: left of the frame, inside it, and from 1 on
  by_cases hone : x < const 1
  · rw [if_pos hone]
    have hx := (LawfulCFloat.isNumber_of_lt hone).1
    by_cases hone' : x' < const 1
    · have hx' := (LawfulCFloat.isNumber_of_lt hone').1
      rw [if_pos hone', LawfulCFloat.not_le_iff hx hx',
        LawfulCFloat.not_le_iff (by decide +kernel) hx']
      by_cases hpos' : const 0 < x'
      · rw [if_pos hpos']
        split
        next => simp [hone, hpos']
        next hnot =>
            have hle := LawfulCFloat.le_of_not_lt (by decide +kernel) hx hnot
            simp [hone, hpos', LawfulCFloat.lt_of_le_of_lt hle hpos']
      · rw [if_neg hpos']
        refine iff_of_false ?_ (fun h => hpos' h.2.2)
        split
        next hpos => exact fun h => LawfulCFloat.not_le_of_lt h (LawfulCFloat.le_of_lt hpos)
        next => decide +kernel
    · -- what is not below 1, a NaN too, becomes 1
      rw [if_neg hone']
      refine iff_of_true ?_ ⟨hone, ?_, ?_⟩
      · split
        next => exact hone
        next => exact zero_lt_one
      · exact fun hle => hone' (LawfulCFloat.lt_of_le_of_lt hle hone)
      · exact fun hle => hone' (LawfulCFloat.lt_of_le_of_lt hle zero_lt_one)
  · rw [if_neg hone]
    refine iff_of_false ?_ (fun h => hone h.1)
    rw [← clampValue_eq x']
    exact fun h => LawfulCFloat.not_le_of_lt h (clampValue_le_one x')

/-! ## Directions -/

def directionWords : List String :=
  ["upper", "top", "lower", "bottom", "left", "right", "center", "middle"]

def namesDirection (text : List Char) : Bool := directionWords.any (contains text)

/-- With a direction the region is another than the frame, and well formed. -/
theorem namedRegion_cases (text : List Char) :
    (namedRegion text = {} ↔ namesDirection text = false) ∧
      (namedRegion text ≠ {} → (namedRegion text).clamp.WellFormed) := by
  have hwords : namesDirection text =
      ((contains text "upper" || contains text "top") ||
        ((contains text "lower" || contains text "bottom") || (contains text "left" ||
          (contains text "right" || (contains text "center" || contains text "middle"))))) := by
    simp only [namesDirection, directionWords, List.any_cons, List.any_nil, Bool.or_false,
      Bool.or_assoc]
  rw [hwords]
  unfold namedRegion
  -- five answers are left, and 32 ways to give them
  generalize (contains text "upper" || contains text "top") = upper
  generalize (contains text "lower" || contains text "bottom") = lower
  generalize contains text "left" = left
  generalize contains text "right" = right
  generalize (contains text "center" || contains text "middle") = center
  revert upper lower left right center
  decide +kernel

/-! ## Numbers -/

def coordinate (py : Python) (s : List Char) : Binary64 := py.floatOf s / const 100

/-- The first four numbers of the text are two corners in order, the first in the frame. -/
def CornersInOrder (py : Python) (text : List Char) : Prop :=
  match (coordinatePattern py).findall text with
  | x :: y :: x2 :: y2 :: _ =>
    Before (coordinate py x) (coordinate py x2) ∧ Before (coordinate py y) (coordinate py y2)
  | _ => True

variable {guide : VlmConfigGuide} {py : Python} {s text : List Char}

theorem clamp_wellFormed_iff {r : DetectionRegion} :
    r.clamp.WellFormed ↔ Before r.xMin r.xMax ∧ Before r.yMin r.yMax := by
  rw [← clampValue_lt_iff, ← clampValue_lt_iff]
  constructor
  · intro h
    exact ⟨h.xMin_lt, h.yMin_lt⟩
  · rintro ⟨hx, hy⟩
    exact ⟨clampValue_nonneg _, hx, clampValue_le_one _, clampValue_nonneg _, hy,
      clampValue_le_one _⟩

theorem extractRegion_wellFormed_iff :
    (∀ r ∈ extractRegion py text, r.WellFormed) ↔
      (namesDirection text = false → CornersInOrder py text) := by
  obtain ⟨hdefault, hnamed⟩ := namedRegion_cases text
  unfold extractRegion
  by_cases hr : namedRegion text = {}
  · rw [if_neg (not_not.mpr hr)]
    simp only [hdefault.mp hr, true_imp_iff, CornersInOrder]
    -- both sides read the same numbers, and less than four of them give no region
    rcases (coordinatePattern py).findall text with
      _ | ⟨x, _ | ⟨y, _ | ⟨x2, _ | ⟨y2, rest⟩⟩⟩⟩
    case cons.cons.cons.cons =>
        simp only [Option.mem_some_iff, forall_eq']
        exact clamp_wellFormed_iff
    all_goals simp
  · rw [if_pos hr]
    refine iff_of_true ?_ ?_
    · intro r hmem
      obtain rfl := Option.some_inj.mp hmem
      exact hnamed hr
    · intro hfalse
      exact absurd (hdefault.mpr hfalse) hr

/-! ## Results -/

/-- The guide takes the recommendation for one about the region, and is sure enough. -/
def AsksForRegion (guide : VlmConfigGuide) (py : Python) (s : List Char) : Prop :=
  guide.enableRegionAdjustment = true ∧ guide.minConfidence ≤ const 0.7 ∧
    searchAny regionKeywords (py.lower s) = true

/-- The recommendations that are read. -/
def considered (guide : VlmConfigGuide) (py : Python) (text : String) : List (List Char) :=
  sliceTo (extractRecommendations py text.toList) guide.maxAdjustmentsPerResult

/-- What a recommendation yields, if it is sure enough. -/
def adjustmentOf (guide : VlmConfigGuide) (py : Python) (s : List Char) : Option ConfigAdjustment :=
  (guide.parseRecommendation py s).filter fun a => guide.minConfidence ≤ a.confidence

theorem adjustments_eq (guide : VlmConfigGuide) (py : Python) (text : String) :
    (guide.parseVlmResult py text).adjustments =
      (guide.considered py text).filterMap (guide.adjustmentOf py) := rfl

/-- A region comes from a recommendation that asks for it, and is the one of its text. -/
theorem adjustmentOf_region {a : ConfigAdjustment} (h : guide.adjustmentOf py s = some a)
    (htype : a.adjustmentType = .detectionRegion) :
    guide.AsksForRegion py s ∧ ∃ r ∈ extractRegion py (py.lower s), a.region = some r := by
  obtain ⟨hparse, hsure⟩ := Option.filter_eq_some_iff.mp h
  simp only [parseRecommendation, Option.orElse_eq_orElse, Option.orElse_eq_or,
    Option.or_eq_some_iff] at hparse
  -- only the first of the three readings yields a region
  rcases hparse with hregion | ⟨-, hsensitivity | ⟨-, hfps⟩⟩
  · obtain ⟨henabled, hregion⟩ := Option.ite_none_right_eq_some.mp hregion
    rw [regionAdjustment] at hregion
    split at hregion
    next hasks =>
        obtain ⟨r, hr, rfl⟩ := Option.map_eq_some_iff.mp hregion
        exact ⟨⟨henabled, of_decide_eq_true hsure, hasks⟩, r, hr, rfl⟩
    next => cases hregion
  · obtain ⟨-, hsensitivity⟩ := Option.ite_none_right_eq_some.mp hsensitivity
    cases (type_sensitivityAdjustment hsensitivity).symm.trans htype
  · obtain ⟨-, hfps⟩ := Option.ite_none_right_eq_some.mp hfps
    cases (type_fpsAdjustment hfps).symm.trans htype

theorem regionAdjustment_of_search (h : searchAny regionKeywords (py.lower s) = true)
    {r : DetectionRegion} (hr : r ∈ extractRegion py (py.lower s)) :
    ∃ a, regionAdjustment py s = some a ∧ a.adjustmentType = .detectionRegion ∧
      a.confidence = const 0.7 ∧ a.region = some r := by
  rw [regionAdjustment, if_pos h, Option.mem_def.mp hr]
  exact ⟨_, rfl, rfl, rfl, rfl⟩

theorem adjustmentOf_of_asks (hasks : guide.AsksForRegion py s) {r : DetectionRegion}
    (hr : r ∈ extractRegion py (py.lower s)) :
    ∃ a, guide.adjustmentOf py s = some a ∧ a.adjustmentType = .detectionRegion ∧
      a.region = some r := by
  obtain ⟨henabled, hsure, hsearch⟩ := hasks
  obtain ⟨a, ha, htype, hconfidence, hregion⟩ := regionAdjustment_of_search hsearch hr
  refine ⟨a, ?_, htype, hregion⟩
  rw [adjustmentOf, parseRecommendation, if_pos henabled, ha]
  refine Option.filter_some_pos (decide_eq_true ?_)
  rwa [hconfidence]

/-- Every region of a result is well formed exactly when the recommendations that ask for one,
and name no direction, give their numbers as corners in order. -/
theorem regions_wellFormed_iff (guide : VlmConfigGuide) (py : Python) (text : String) :
    (∀ a ∈ (guide.parseVlmResult py text).adjustments, a.adjustmentType = .detectionRegion →
        ∃ r, a.region = some r ∧ r.WellFormed) ↔
      ∀ s ∈ guide.considered py text, guide.AsksForRegion py s →
        namesDirection (py.lower s) = false → CornersInOrder py (py.lower s) := by
  rw [adjustments_eq]
  constructor
  · intro h s hs hasks
    rw [← extractRegion_wellFormed_iff]
    intro r hr
    obtain ⟨a, ha, htype, hregion⟩ := adjustmentOf_of_asks hasks hr
    obtain ⟨r', hr', hwf⟩ := h a (List.mem_filterMap.mpr ⟨s, hs, ha⟩) htype
    rw [hregion] at hr'
    rwa [Option.some_inj.mp hr']
  · intro h a ha htype
    obtain ⟨s, hs, ha⟩ := List.mem_filterMap.mp ha
    obtain ⟨hasks, r, hr, hregion⟩ := adjustmentOf_region ha htype
    exact ⟨r, hregion, extractRegion_wellFormed_iff.mpr (h s hs hasks) r hr⟩

/-! ## Corners the wrong way round -/

/-- `float` on decimal digits with at most one point between them. -/
def decimalFloat (s : List Char) : Binary64 :=
  let fraction := (s.dropWhile (· ≠ '.')).drop 1
  const (Nat.ofDigitChars 10 (s.takeWhile (· ≠ '.') ++ fraction) 0 / 10 ^ fraction.length)

def decimalPython : Python := { asciiPython with floatOf := decimalFloat }

def cornersText : String := "1. Adjust detection region to 80 80 20 20."

/-- The first corner is at 80 percent, and the second at 20. -/
theorem not_wellFormed_cornersText :
    ¬ ∀ a ∈ (({} : VlmConfigGuide).parseVlmResult decimalPython cornersText).adjustments,
      a.adjustmentType = .detectionRegion → ∃ r, a.region = some r ∧ r.WellFormed := by
  intro h
  have hparse : (({} : VlmConfigGuide).parseVlmResult decimalPython cornersText).adjustments.map
      (fun a => (a.adjustmentType, a.region)) =
        [(.detectionRegion, some ⟨const 0.8, const 0.8, const 0.2, const 0.2⟩)] := by
    decide +kernel
  obtain ⟨a, ha, hfields⟩ := List.mem_map.mp (hparse ▸ List.mem_singleton_self _)
  obtain ⟨htype, hregion⟩ := Prod.mk.inj hfields
  obtain ⟨r, hr, hwf⟩ := h a ha htype
  rw [hregion] at hr
  obtain rfl := Option.some_inj.mp hr
  exact absurd hwf.xMin_lt (by decide +kernel)

end VlmConfigGuide
