-- SUMMARY: Prompts made of templates and detections: no template fails with detections, and what they are called is put into the text as it stands.
import NeuroPipeline.Central.VlmPipeline
import NeuroPipeline.Lib.FormatString

/-!
# Prompts

Model of prompt_generator.py. The templates are given by their pieces: what is between the
fields is written as it stands there, and has no braces.
-/

/-- How numbers are written. -/
structure NumberStyle where
  str : Binary64 → List Char
  /-- `.2f` -/
  fixed2 : Binary64 → List Char
  /-- `.1%` -/
  percent1 : Binary64 → List Char

inductive PromptVariable where
  | text (s : List Char)
  | number (x : Binary64)

def fixed2Spec : List Char := ['.', '2', 'f']

def percent1Spec : List Char := ['.', '1', '%']

/-- A value in a field, unless its type has no such format. -/
def NumberStyle.format (style : NumberStyle) : PromptVariable → List Char → Option (List Char)
  | .text s, spec => if spec = [] then some s else none
  | .number x, spec =>
    if spec = [] then some (style.str x)
    else if spec = fixed2Spec then some (style.fixed2 x)
    else if spec = percent1Spec then some (style.percent1 x)
    else none

namespace PromptGenerator

/-! ## Templates -/

def plain (text : String) : FormatPiece := .literal text.toList

def slot (name : String) : FormatPiece := .field name.toList []

def slotWith (name : String) (spec : List Char) : FormatPiece := .field name.toList spec

def sceneAnalysis : List FormatPiece :=
  [plain "Analyze the following scene. Detected objects: ", slot "detections",
    plain ". Describe what is happening and identify any potential safety concerns."]

def personBehavior : List FormatPiece :=
  [plain "A person was detected at coordinates (", slotWith "x_min" fixed2Spec, plain ", ",
    slotWith "y_min" fixed2Spec, plain ") to (", slotWith "x_max" fixed2Spec, plain ", ",
    slotWith "y_max" fixed2Spec, plain ") in the frame with confidence ", slotWith "confidence" percent1Spec,
    plain (". Describe the person's likely activity and assess if there are any " ++
      "safety hazards in the area.")]

def anomalyDetection : List FormatPiece :=
  [plain "The following objects were detected in a monitored area: ", slot "detections",
    plain ". Normal objects for this area include: ", slot "normal_objects",
    plain ". Identify any anomalies or unusual patterns."]

def multiObject : List FormatPiece :=
  [plain "Multiple objects detected:\n", slot "detection_list",
    plain ("\n\nAnalyze the spatial relationships between these objects and describe " ++
      "the overall scene context.")]

def reasoningObserve : List FormatPiece :=
  [plain "Observe this scene carefully. Detected objects: ", slot "detections",
    plain (". Describe exactly what you see — objects, positions, actions, " ++
      "and environmental context. Be factual and specific.")]

def reasoningReason : List FormatPiece :=
  [plain "Based on this observation: \"", slot "previous_context",
    plain ("\"\nNow reason about what is happening. What activities are taking place? " ++
      "Are there any safety concerns, unusual patterns, or noteworthy interactions? " ++
      "Explain your reasoning step by step.")]

def reasoningVerify : List FormatPiece :=
  [plain "Based on this analysis: \"", slot "previous_context",
    plain ("\"\nVerify your conclusions. Rate confidence (high/medium/low). " ++
      "Identify what could be wrong with the analysis. " ++
      "Provide a final concise assessment with actionable recommendations.")]

def ragSceneAnalysis : List FormatPiece :=
  [plain "Analyze the following scene. Detected objects: ", slot "detections",
    plain ".\n\nHistorical context from this location:\n", slot "rag_context",
    plain ("\n\nConsidering both the current scene and historical patterns, " ++
      "describe what is happening and identify any concerns.")]

def edgeConfigSuggestion : List FormatPiece :=
  [plain "Based on this analysis: \"", slot "previous_context",
    plain "\"\nDetected objects: ", slot "detections",
    plain (".\nSuggest optimal edge device configuration adjustments:\n" ++
      "1. Detection region of interest (ROI) as normalized coordinates\n" ++
      "2. Confidence threshold adjustment\n" ++
      "3. Frame rate recommendation\n" ++
      "Respond in JSON format with keys: roi, threshold, fps_recommendation.")]

def templates : List (String × List FormatPiece) :=
  [("scene_analysis", sceneAnalysis), ("person_behavior", personBehavior),
    ("anomaly_detection", anomalyDetection), ("multi_object", multiObject),
    ("reasoning_observe", reasoningObserve), ("reasoning_reason", reasoningReason),
    ("reasoning_verify", reasoningVerify), ("rag_scene_analysis", ragSceneAnalysis),
    ("edge_config_suggestion", edgeConfigSuggestion)]

def availableTemplates : List String := templates.map Prod.fst

/-! ## Generation -/

variable (style : NumberStyle)

def describe (d : DetectionDict) : List Char :=
  d.className.toList ++ " (conf=".toList ++ style.percent1 d.confidence ++ ", bbox=[".toList ++
    style.fixed2 d.xMin ++ ",".toList ++ style.fixed2 d.yMin ++ ",".toList ++
    style.fixed2 d.xMax ++ ",".toList ++ style.fixed2 d.yMax ++ "])".toList

/-- `"; ".join(detection_strs)` -/
def detectionsText (detections : List DetectionDict) : List Char :=
  "; ".toList.intercalate (detections.map (describe style))

/-- The same with a line for each. -/
def detectionList (detections : List DetectionDict) : List Char :=
  "\n".toList.intercalate (detections.map fun d => "- ".toList ++ describe style d)

abbrev Variables := List (List Char × PromptVariable)

/-- Of the first detection. -/
def firstDetection : List DetectionDict → Variables
  | [] => []
  | d :: _ =>
    [("x_min".toList, .number d.xMin), ("y_min".toList, .number d.yMin),
      ("x_max".toList, .number d.xMax), ("y_max".toList, .number d.yMax),
      ("confidence".toList, .number d.confidence)]

/-- What comes first here is set last. -/
def templateVars (detections : List DetectionDict) (kwargs : Variables) : Variables :=
  firstDetection detections ++ kwargs ++
    [("detections".toList, .text (detectionsText style detections)),
      ("detection_list".toList, .text (detectionList style detections))]

def formatPrompt (template : List FormatPiece) (vars : Variables) :
    Except FormatError (List Char) :=
  FormatString.formatText (fun name => vars.lookup name) style.format
    (template.flatMap FormatPiece.spell)

/-- `template` and the other keyword arguments; an exception comes out of it unless it is
a KeyError. -/
def generate (defaultTemplate : String) (detections : List DetectionDict)
    (template : Option String) (kwargs : Variables) : Except FormatError String :=
  let name := template.getD defaultTemplate
  let template := (templates.lookup name).getD sceneAnalysis
  let prompt :=
    match formatPrompt style template (templateVars style detections kwargs) with
    | .error (.key _) =>
      formatPrompt style sceneAnalysis
        [("detections".toList, .text (detectionsText style detections))]
    | prompt => prompt
  prompt.map String.ofList

/-! ## What comes of it -/

variable {style} {detections : List DetectionDict} {kwargs : Variables}

theorem templates_wellFormed : ∀ e ∈ templates, ∀ p ∈ e.2, p.WellFormed := by decide +kernel

theorem formatPrompt_eq {template : List FormatPiece} (h : ∀ p ∈ template, p.WellFormed)
    (vars : Variables) : formatPrompt style template vars =
      FormatPiece.renderAll (fun name => vars.lookup name) style.format template :=
  FormatString.formatText_spell h

/-- A template that is not there stands for the first one. -/
theorem template_mem (name : String) :
    ∃ e ∈ templates, (templates.lookup name).getD sceneAnalysis = e.2 := by
  cases h : templates.lookup name with
  | none => exact ⟨_, List.mem_cons_self, rfl⟩
  | some template =>
      obtain ⟨before, after, heq, -⟩ := List.lookup_eq_some_iff.mp h
      refine ⟨(name, template), ?_, rfl⟩
      rw [heq]
      exact List.mem_append_right _ List.mem_cons_self

/-! ### Values and their specifications -/

def coordinateNames : List (List Char) :=
  ["x_min", "y_min", "x_max", "y_max", "confidence"].map String.toList

/-- Only what is a number of the first detection has a specification. -/
def suits : FormatPiece → Bool
  | .literal _ => true
  | .field name spec =>
    spec = [] || ((spec = fixed2Spec || spec = percent1Spec) && coordinateNames.contains name)

theorem templates_suit : ∀ e ∈ templates, ∀ p ∈ e.2, suits p = true := by decide +kernel

theorem lookup_coordinate {name : List Char} (h : name ∈ coordinateNames) (d : DetectionDict)
    (rest : List DetectionDict) (kwargs : Variables) :
    ∃ x, (templateVars style (d :: rest) kwargs).lookup name = some (.number x) := by
  simp only [coordinateNames, List.map_cons, List.map_nil, List.mem_cons, List.not_mem_nil,
    or_false] at h
  rcases h with rfl | rfl | rfl | rfl | rfl <;> exact ⟨_, rfl⟩

theorem format_isSome {p : FormatPiece} {name spec : List Char} (hp : suits p = true)
    (heq : p = .field name spec) {d : DetectionDict} {rest : List DetectionDict}
    {v : PromptVariable} (hv : (templateVars style (d :: rest) kwargs).lookup name = some v) :
    (style.format v spec).isSome := by
  subst heq
  simp only [suits, Bool.or_eq_true, Bool.and_eq_true, decide_eq_true_eq,
    List.contains_iff_mem] at hp
  rcases hp with rfl | ⟨hspec, hname⟩
  · cases v <;> rfl
  · obtain ⟨x, hx⟩ :
        ∃ x, (templateVars style (d :: rest) kwargs).lookup name = some (.number x) :=
      lookup_coordinate hname d rest kwargs
    obtain rfl := Option.some_inj.mp (hx.symm.trans hv)
    rcases hspec with rfl | rfl <;> rfl

/-! ### Templates without fields that are missing -/

theorem wellFormed_listing {before after : String} {name : List Char}
    (h : (FormatPiece.field name []).WellFormed) :
    ∀ p ∈ [plain before, .field name [], plain after], p.WellFormed := by
  intro p hp
  simp only [List.mem_cons, List.not_mem_nil, or_false] at hp
  rcases hp with rfl | rfl | rfl
  · trivial
  · exact h
  · trivial

theorem formatPrompt_listing {before after : String} {name : List Char} {text : List Char}
    {vars : Variables} (hname : (FormatPiece.field name []).WellFormed)
    (h : vars.lookup name = some (.text text)) :
    formatPrompt style [plain before, .field name [], plain after] vars =
      .ok (before.toList ++ (text ++ after.toList)) := by
  rw [formatPrompt_eq (wellFormed_listing hname)]
  simp [FormatPiece.renderAll, plain, FormatPiece.render, h, NumberStyle.format, Except.bind,
    FormatString.prepend, Except.map]

theorem formatPrompt_sceneAnalysis {vars : Variables} {text : List Char}
    (h : vars.lookup "detections".toList = some (.text text)) :
    formatPrompt style sceneAnalysis vars =
      .ok ("Analyze the following scene. Detected objects: ".toList ++ (text ++
        ". Describe what is happening and identify any potential safety concerns.".toList)) :=
  formatPrompt_listing (templates_wellFormed _ List.mem_cons_self _
    (List.mem_cons_of_mem _ List.mem_cons_self)) h

/-- With a detection there is always a prompt. -/
theorem exists_generate (defaultTemplate : String) (hdetections : detections ≠ [])
    (template : Option String) (kwargs : Variables) :
    ∃ prompt, generate style defaultTemplate detections template kwargs = .ok prompt := by
  obtain ⟨d, rest, rfl⟩ := List.exists_cons_of_ne_nil hdetections
  obtain ⟨e, he, htemplate⟩ := template_mem (template.getD defaultTemplate)
  have hcases := @FormatPiece.renderAll_cases _
    (fun name => (templateVars style (d :: rest) kwargs).lookup name) style.format e.2
    fun name spec hmem v hv => format_isSome (templates_suit e he _ hmem) rfl hv
  rw [generate]
  simp only [htemplate, formatPrompt_eq (templates_wellFormed e he)]
  rcases hcases with ⟨text, htext⟩ | ⟨name, hname⟩
  · exact ⟨String.ofList text, by rw [htext]; rfl⟩
  · rw [hname]
    exact ⟨_, by rw [formatPrompt_sceneAnalysis rfl]; rfl⟩

/-! ### What is made of the detections -/

/-- The prompt is a text in which all detections are described one after the other. -/
def Describes (style : NumberStyle) (prompt : List DetectionDict → Except FormatError String) :
    Prop :=
  ∃ before mark separator after : List Char, ∀ detections, prompt detections = .ok (String.ofList
    (before ++ (separator.intercalate (detections.map fun d => mark ++ describe style d) ++ after)))

theorem detectionsText_eq (style : NumberStyle) (detections : List DetectionDict) :
    detectionsText style detections =
      "; ".toList.intercalate (detections.map fun d => [] ++ describe style d) := by
  simp only [detectionsText, List.nil_append]

theorem describes_sceneAnalysis {vars : List DetectionDict → Variables}
    (h : ∀ detections, (vars detections).lookup "detections".toList =
      some (.text (detectionsText style detections))) :
    Describes style fun detections =>
      (formatPrompt style sceneAnalysis (vars detections)).map String.ofList :=
  ⟨_, [], "; ".toList, _, fun detections => by
    simp only [formatPrompt_sceneAnalysis (h detections), detectionsText_eq]
    rfl⟩

/-- A template with one list of all detections. -/
theorem describes_listing {name : List Char} {template : String} {before after : String}
    {mark separator : List Char} (hname : (FormatPiece.field name []).WellFormed)
    (htemplate : templates.lookup template = some [plain before, .field name [], plain after])
    (h : ∀ detections, (templateVars style detections []).lookup name = some (.text
      (separator.intercalate (detections.map fun d => mark ++ describe style d))))
    (defaultTemplate : String) :
    Describes style fun detections => generate style defaultTemplate detections (some template) [] :=
  ⟨before.toList, mark, separator, after.toList, fun detections => by
    simp only [generate, Option.getD_some, htemplate, formatPrompt_listing hname (h detections)]
    rfl⟩

/-- A template with a field that has no value. -/
theorem describes_missing {pieces rest : List FormatPiece} {name : List Char} {template : String}
    (htemplate : templates.lookup template = some (pieces ++ .field name [] :: rest))
    (hpieces : ∀ detections, ∃ text, FormatPiece.renderAll
      (fun name => (templateVars style detections []).lookup name) style.format pieces = .ok text)
    (hname : ∀ detections, (templateVars style detections []).lookup name = none)
    (defaultTemplate : String) :
    Describes style fun detections => generate style defaultTemplate detections (some template) [] := by
  have hgenerate : ∀ detections, generate style defaultTemplate detections (some template) [] =
      (formatPrompt style sceneAnalysis
        [("detections".toList, .text (detectionsText style detections))]).map String.ofList := by
    intro detections
    obtain ⟨text, htext⟩ := hpieces detections
    have hwf : ∀ p ∈ pieces ++ FormatPiece.field name [] :: rest, p.WellFormed := by
      obtain ⟨before, after, heq, -⟩ := List.lookup_eq_some_iff.mp htemplate
      refine templates_wellFormed (template, _) ?_
      rw [heq]
      exact List.mem_append_right _ List.mem_cons_self
    rw [generate]
    simp only [Option.getD_some, htemplate, formatPrompt_eq hwf,
      FormatPiece.renderAll_missing htext (hname detections)]
  simp only [hgenerate]
  exact describes_sceneAnalysis fun _ => rfl

theorem lookup_templateVars {name : List Char} (h : coordinateNames.contains name = false)
    (detections : List DetectionDict) :
    (templateVars style detections []).lookup name =
      [("detections".toList, PromptVariable.text (detectionsText style detections)),
        ("detection_list".toList, .text (detectionList style detections))].lookup name := by
  cases detections with
  | nil => rfl
  | cons d rest =>
      simp only [coordinateNames, List.map_cons, List.map_nil, List.contains_cons,
        List.contains_nil, Bool.or_false, Bool.or_eq_false_iff] at h
      obtain ⟨h₁, h₂, h₃, h₄, h₅⟩ := h
      simp only [templateVars, firstDetection, List.append_nil, List.cons_append, List.nil_append,
        List.lookup_cons, h₁, h₂, h₃, h₄, h₅]

/-- As long as there is a detection no template and no argument makes the generator fail. What
the detection processor asks for is, with any template but `person_behavior`, a text that is the
same for all detections, around their descriptions as they stand. -/
theorem generate_describes (style : NumberStyle) (defaultTemplate : String) :
    (∀ detections ≠ [], ∀ template kwargs, ∃ prompt,
      generate style defaultTemplate detections template kwargs = .ok prompt) ∧
    ∀ template ≠ "person_behavior", Describes style fun detections =>
      generate style defaultTemplate detections (some template) [] := by
  refine ⟨fun detections h template kwargs => exists_generate defaultTemplate h template kwargs,
    fun template hperson => ?_⟩
  have hname : (FormatPiece.field "detections".toList []).WellFormed := by decide +kernel
  have hdetections : ∀ detections, (templateVars style detections []).lookup "detections".toList =
      some (.text (detectionsText style detections)) :=
    fun detections => (lookup_templateVars (by decide +kernel) detections).trans rfl
  have hdescribed : ∀ detections, (templateVars style detections []).lookup "detections".toList =
      some (.text ("; ".toList.intercalate (detections.map fun d => [] ++ describe style d))) :=
    fun detections => by rw [hdetections, detectionsText_eq]
  have hprevious : ∀ detections,
      (templateVars style detections []).lookup "previous_context".toList = none :=
    fun detections => (lookup_templateVars (by decide +kernel) detections).trans rfl
  have hbefore : ∀ (before after : String) detections, ∃ text, FormatPiece.renderAll
      (fun name => (templateVars style detections []).lookup name) style.format
      [plain before, slot "detections", plain after] = .ok text := by
    intro before after detections
    refine ⟨before.toList ++ (detectionsText style detections ++ after.toList), ?_⟩
    exact (formatPrompt_eq (wellFormed_listing hname) _).symm.trans
      (formatPrompt_listing hname (hdetections detections))
  have hlist : ∀ detections,
      (templateVars style detections []).lookup "detection_list".toList = some (.text
        ("\n".toList.intercalate (detections.map fun d => "- ".toList ++ describe style d))) :=
    fun detections => (lookup_templateVars (by decide +kernel) detections).trans rfl
  have hnormal : ∀ detections,
      (templateVars style detections []).lookup "normal_objects".toList = none :=
    fun detections => (lookup_templateVars (by decide +kernel) detections).trans rfl
  have hrag : ∀ detections,
      (templateVars style detections []).lookup "rag_context".toList = none :=
    fun detections => (lookup_templateVars (by decide +kernel) detections).trans rfl
  have hplain : ∀ (before : String) (detections : List DetectionDict), ∃ text,
      FormatPiece.renderAll (fun name => (templateVars style detections []).lookup name)
        style.format [plain before] = .ok text := fun before _ => ⟨_, rfl⟩
  cases h : templates.lookup template with
  | none =>
      have hscene : ∀ detections, generate style defaultTemplate detections (some template) [] =
          (formatPrompt style sceneAnalysis (templateVars style detections [])).map
            String.ofList := by
        intro detections
        simp only [generate, Option.getD_some, h, Option.getD_none,
          formatPrompt_sceneAnalysis (hdetections detections)]
      simp only [hscene]
      exact describes_sceneAnalysis hdetections
  | some pieces =>
      obtain ⟨before, after, heq, -⟩ := List.lookup_eq_some_iff.mp h
      have hmem : (template, pieces) ∈ templates := by
        rw [heq]
        exact List.mem_append_right _ List.mem_cons_self
      simp only [templates, List.mem_cons, List.not_mem_nil, or_false, Prod.mk.injEq] at hmem
      rcases hmem with ⟨rfl, rfl⟩ | ⟨rfl, rfl⟩ | ⟨rfl, rfl⟩ | ⟨rfl, rfl⟩ | ⟨rfl, rfl⟩ | ⟨rfl, rfl⟩ |
        ⟨rfl, rfl⟩ | ⟨rfl, rfl⟩ | ⟨rfl, rfl⟩
      · exact describes_listing hname h hdescribed _
      · exact absurd rfl hperson
      · exact describes_missing h (hbefore _ _) hnormal _
      · exact describes_listing (by decide +kernel) h hlist _
      · exact describes_listing hname h hdescribed _
      · exact describes_missing h (hplain _) hprevious _
      · exact describes_missing h (hplain _) hprevious _
      · exact describes_missing h (hbefore _ _) hrag _
      · exact describes_missing h (hplain _) hprevious _

/-- A brace in the name of a class is not read as a field. -/
theorem generate_describes_brace :
    ∃ prompt, generate ⟨fun _ => [], fun _ => [], fun _ => []⟩ "scene_analysis"
      [⟨"\x7bx\x7d", CFloat.const 1, CFloat.const 0, CFloat.const 0,
        CFloat.const 1, CFloat.const 1⟩] (some "multi_object") [] =
        .ok prompt :=
  (generate_describes _ _).1 _ (List.cons_ne_nil _ _) _ _

end PromptGenerator
