-- SUMMARY: The direction of sensitivity advice: which texts are turned the wrong way, or none.
import NeuroPipeline.Central.VlmConfigGuide
import NeuroPipeline.Lib.RegexCaptures

/-!
# Direction of the advice

One list of patterns tells that a recommendation is about sensitivity, and a list of
words in which direction it goes. A lower threshold is a higher sensitivity.
-/

open CFloat (const)

namespace VlmConfigGuide

open Regex (lit opt sequence)

/-! ## Patterns -/

def lowerThreshold : Regex := sequence [lit "lower ", the, lit "threshold"]

def raiseThreshold : Regex := sequence [lit "raise ", the, lit "threshold"]

/-- The raising patterns, but for that of the threshold. -/
def plainRaising : List Regex :=
  [sequence [lit "increase ", opt (lit "detection "), lit "sensitivity"], lit "more sensitive",
    lit "catch more detections"]

def plainLowering : List Regex :=
  [sequence [lit "decrease ", opt (lit "detection "), lit "sensitivity"], lit "less sensitive",
    lit "reduce false positives"]

def raisingKeywords : List Regex := lowerThreshold :: plainRaising

def loweringKeywords : List Regex := raiseThreshold :: plainLowering

/-- The patterns of `SENSITIVITY_KEYWORDS` are those of the two kinds. -/
theorem searchAny_sensitivityKeywords (text : List Char) :
    searchAny sensitivityKeywords text =
      (searchAny raisingKeywords text || searchAny loweringKeywords text) := by
  simp only [searchAny, sensitivityKeywords, raisingKeywords, loweringKeywords, plainRaising,
    plainLowering, lowerThreshold, raiseThreshold, List.any_cons, List.any_nil, Bool.or_false]
  ac_rfl

def raisingWords : List String := ["increase", "higher", "more sensitive", "catch more"]

def loweringWords : List String := ["decrease", "lower", "less sensitive", "reduce false"]

/-! ## Directions -/

def RaisingOnly (text : List Char) : Prop :=
  searchAny raisingKeywords text = true ∧ searchAny loweringKeywords text = false

def LoweringOnly (text : List Char) : Prop :=
  searchAny loweringKeywords text = true ∧ searchAny raisingKeywords text = false

/-- Patterns of one kind decide the sign. -/
def KeepsDirection (text : List Char) (delta : Binary64) : Prop :=
  (RaisingOnly text → const 0 < delta) ∧ (LoweringOnly text → delta < const 0)

/-- Nothing but the threshold says in which direction, and no word happens to. -/
def SilentlyRaising (text : List Char) : Prop :=
  RaisingOnly text ∧ searchAny plainRaising text = false ∧
    ["increase", "higher", "catch more"].any (contains text) = false

/-- The same, or a word says the opposite. -/
def MisledLowering (text : List Char) : Prop :=
  LoweringOnly text ∧
    (["increase", "higher", "catch more"].any (contains text) = true ∨
      searchAny plainLowering text = false ∧
        ["decrease", "lower", "reduce false"].any (contains text) = false)

/-- A recommendation that yields an adjustment of the sensitivity turns it the right way. -/
def TurnsRight (guide : VlmConfigGuide) (py : Python) (s : List Char) : Prop :=
  ∀ a, guide.parseRecommendation py s = some a → a.adjustmentType = .sensitivity →
    KeepsDirection (py.lower s) a.sensitivityDelta

def YieldsSensitivity (guide : VlmConfigGuide) (py : Python) (s : List Char) : Prop :=
  ∃ a, guide.parseRecommendation py s = some a ∧ a.adjustmentType = .sensitivity

variable {guide : VlmConfigGuide} {py : Python} {s text : List Char}

/-! ## Words of patterns -/

theorem raisingWords_of_plainRaising (h : searchAny plainRaising text = true) :
    raisingWords.any (contains text) = true := by
  simp only [searchAny, plainRaising, List.any_cons, List.any_nil, Bool.or_false,
    Bool.or_eq_true] at h
  simp only [raisingWords, List.any_cons, List.any_nil, Bool.or_false, Bool.or_eq_true]
  rcases h with hincrease | hmore | hcatch
  · exact .inl (Regex.search_lit_of_sequence (by decide) hincrease)
  · exact .inr (.inr (.inl hmore))
  · exact .inr (.inr (.inr (Regex.search_lit_of_initial (by decide) hcatch)))

theorem loweringWords_of_plainLowering (h : searchAny plainLowering text = true) :
    loweringWords.any (contains text) = true := by
  simp only [searchAny, plainLowering, List.any_cons, List.any_nil, Bool.or_false,
    Bool.or_eq_true] at h
  simp only [loweringWords, List.any_cons, List.any_nil, Bool.or_false, Bool.or_eq_true]
  rcases h with hdecrease | hless | hreduce
  · exact .inl (Regex.search_lit_of_sequence (by decide) hdecrease)
  · exact .inr (.inr (.inl hless))
  · exact .inr (.inr (.inr (Regex.search_lit_of_initial (by decide) hreduce)))

/-- The words are found where a pattern is matched, or by themselves. -/
theorem raisingWords_iff : raisingWords.any (contains text) = true ↔
    searchAny plainRaising text = true ∨
      ["increase", "higher", "catch more"].any (contains text) = true := by
  constructor
  · intro h
    simp only [raisingWords, List.any_cons, List.any_nil, Bool.or_false, Bool.or_eq_true] at h ⊢
    rcases h with hincrease | hhigher | hmore | hcatch
    · exact .inr (.inl hincrease)
    · exact .inr (.inr (.inl hhigher))
    · refine .inl (List.any_eq_true.mpr ⟨lit "more sensitive", ?_, hmore⟩)
      exact List.mem_cons_of_mem _ List.mem_cons_self
    · exact .inr (.inr (.inr hcatch))
  · rintro (hpattern | hword)
    · exact raisingWords_of_plainRaising hpattern
    · simp only [raisingWords, List.any_cons, List.any_nil, Bool.or_false,
        Bool.or_eq_true] at hword ⊢
      rcases hword with hincrease | hhigher | hcatch
      · exact .inl hincrease
      · exact .inr (.inl hhigher)
      · exact .inr (.inr (.inr hcatch))

theorem loweringWords_iff : loweringWords.any (contains text) = true ↔
    searchAny plainLowering text = true ∨
      ["decrease", "lower", "reduce false"].any (contains text) = true := by
  constructor
  · intro h
    simp only [loweringWords, List.any_cons, List.any_nil, Bool.or_false, Bool.or_eq_true] at h ⊢
    rcases h with hdecrease | hlower | hless | hreduce
    · exact .inr (.inl hdecrease)
    · exact .inr (.inr (.inl hlower))
    · refine .inl (List.any_eq_true.mpr ⟨lit "less sensitive", ?_, hless⟩)
      exact List.mem_cons_of_mem _ List.mem_cons_self
    · exact .inr (.inr (.inr hreduce))
  · rintro (hpattern | hword)
    · exact loweringWords_of_plainLowering hpattern
    · simp only [loweringWords, List.any_cons, List.any_nil, Bool.or_false,
        Bool.or_eq_true] at hword ⊢
      rcases hword with hdecrease | hlower | hreduce
      · exact .inl hdecrease
      · exact .inr (.inl hlower)
      · exact .inr (.inr (.inr hreduce))

/-! ## Signs -/

theorem extractSensitivityDelta_eq (text : List Char) : extractSensitivityDelta text =
    if raisingWords.any (contains text) then const 0.05
    else if loweringWords.any (contains text) then const (-0.05)
    else const 0 := rfl

theorem delta_pos_iff : const 0 < extractSensitivityDelta text ↔
    raisingWords.any (contains text) = true := by
  rw [extractSensitivityDelta_eq]
  cases raisingWords.any (contains text) with
  | true => exact iff_of_true (by rw [if_pos rfl]; decide +kernel) rfl
  | false => cases loweringWords.any (contains text) <;> decide +kernel

theorem delta_neg_iff : extractSensitivityDelta text < const 0 ↔
    raisingWords.any (contains text) = false ∧ loweringWords.any (contains text) = true := by
  rw [extractSensitivityDelta_eq]
  cases raisingWords.any (contains text) with
  | true => cases loweringWords.any (contains text) <;> decide +kernel
  | false => cases loweringWords.any (contains text) <;> decide +kernel

/-- Without a raising pattern a raising word stands by itself. -/
theorem raisingWords_of_loweringOnly (h : LoweringOnly text) :
    raisingWords.any (contains text) = true ↔
      ["increase", "higher", "catch more"].any (contains text) = true := by
  have hplain : searchAny plainRaising text = false := by
    have hnone := h.2
    rw [raisingKeywords, searchAny, List.any_cons, Bool.or_eq_false_iff] at hnone
    exact hnone.2
  rw [raisingWords_iff, hplain]
  simp

theorem keepsDirection_iff : KeepsDirection text (extractSensitivityDelta text) ↔
    ¬ (SilentlyRaising text ∨ MisledLowering text) := by
  rw [KeepsDirection, delta_pos_iff, delta_neg_iff, SilentlyRaising, MisledLowering, not_or]
  refine and_congr ?_ ?_
  · rw [not_and, raisingWords_iff]
    refine imp_congr Iff.rfl ?_
    simp only [not_and, Bool.not_eq_false]
    cases searchAny plainRaising text <;> simp
  · rw [not_and]
    refine imp_congr_right fun honly => ?_
    rw [← Bool.not_eq_true, raisingWords_of_loweringOnly honly, loweringWords_iff]
    generalize ["increase", "higher", "catch more"].any (contains text) = raising
    generalize ["decrease", "lower", "reduce false"].any (contains text) = lowering
    cases searchAny plainLowering text <;> simp

/-! ## Recommendations -/

theorem type_regionAdjustment {a : ConfigAdjustment} (h : regionAdjustment py s = some a) :
    a.adjustmentType = .detectionRegion := by
  rw [regionAdjustment] at h
  split at h
  · obtain ⟨region, -, rfl⟩ := Option.map_eq_some_iff.mp h
    rfl
  · cases h

theorem type_fpsAdjustment {a : ConfigAdjustment} (h : fpsAdjustment py s = some a) :
    a.adjustmentType = .fps := by
  rw [fpsAdjustment] at h
  split at h
  · obtain rfl := Option.some.inj h
    rfl
  · cases h

theorem type_sensitivityAdjustment {a : ConfigAdjustment}
    (h : sensitivityAdjustment py s = some a) : a.adjustmentType = .sensitivity := by
  rw [sensitivityAdjustment] at h
  split at h
  · obtain rfl := Option.some.inj h
    rfl
  · cases h

theorem delta_sensitivityAdjustment {a : ConfigAdjustment}
    (h : sensitivityAdjustment py s = some a) :
    a.sensitivityDelta = extractSensitivityDelta (py.lower s) := by
  rw [sensitivityAdjustment] at h
  split at h
  · obtain rfl := Option.some.inj h
    rfl
  · cases h

/-- An adjustment of the sensitivity is made by that branch. -/
theorem delta_of_parse {a : ConfigAdjustment} (h : guide.parseRecommendation py s = some a)
    (htype : a.adjustmentType = .sensitivity) :
    a.sensitivityDelta = extractSensitivityDelta (py.lower s) := by
  simp only [parseRecommendation, Option.orElse_eq_orElse, Option.orElse_eq_or,
    Option.or_eq_some_iff] at h
  rcases h with hregion | ⟨-, hsensitivity | ⟨-, hfps⟩⟩
  · obtain ⟨-, hregion⟩ := Option.ite_none_right_eq_some.mp hregion
    cases (type_regionAdjustment hregion).symm.trans htype
  · obtain ⟨-, hsensitivity⟩ := Option.ite_none_right_eq_some.mp hsensitivity
    exact delta_sensitivityAdjustment hsensitivity
  · obtain ⟨-, hfps⟩ := Option.ite_none_right_eq_some.mp hfps
    cases (type_fpsAdjustment hfps).symm.trans htype

/-- The sign is right just when the words that decide it are there, and only those. -/
theorem turnsRight_iff : guide.TurnsRight py s ↔
    ¬ (guide.YieldsSensitivity py s ∧
      (SilentlyRaising (py.lower s) ∨ MisledLowering (py.lower s))) := by
  constructor
  · rintro h ⟨⟨a, ha, htype⟩, hwrong⟩
    have hkeeps := h a ha htype
    rw [delta_of_parse ha htype, keepsDirection_iff] at hkeeps
    exact hkeeps hwrong
  · intro h a ha htype
    rw [delta_of_parse ha htype, keepsDirection_iff]
    exact fun hwrong => h ⟨⟨a, ha, htype⟩, hwrong⟩

/-! ## A lower threshold -/

def lowerThresholdText : List Char := "please lower the threshold".toList

/-- It is to raise the sensitivity, and lowers it. -/
theorem not_turnsRight_lowerThreshold :
    ¬ ({} : VlmConfigGuide).TurnsRight asciiPython lowerThresholdText := by
  intro h
  have hparse : (({} : VlmConfigGuide).parseRecommendation asciiPython lowerThresholdText).map
      (fun a => (a.adjustmentType, a.sensitivityDelta)) =
        some (.sensitivity, const (-0.05)) := by decide +kernel
  obtain ⟨a, ha, hfields⟩ := Option.map_eq_some_iff.mp hparse
  obtain ⟨htype, hdelta⟩ := Prod.mk.inj hfields
  have hraising : RaisingOnly (asciiPython.lower lowerThresholdText) := by
    constructor <;> decide +kernel
  have hpositive := (h a ha htype).1 hraising
  rw [hdelta] at hpositive
  exact absurd hpositive (by decide +kernel)

end VlmConfigGuide
