-- SUMMARY: Configuration guidance: the recommendations in a model's text, the adjustments they ask for, and the commands made of them.
import NeuroPipeline.Lib.CNumber
import NeuroPipeline.Lib.Regex
import NeuroPipeline.Proto.ControlCommand

/-!
# Guidance for the edge

Model of vlm_config_guide.py and of `_apply_vlm_guidance`. Texts are lists of
code points while they are searched. Log messages are left out.
-/

open CFloat (const)

/-- Numbers of Python. -/
abbrev Binary64 := BinaryFloat ⟨53, -1074, 971, by decide, by decide⟩

/-- What the interpreter's tables and conversions say. -/
structure Python where
  isDecimal : Char → Bool
  isSpace : Char → Bool
  sameIgnoringCase : Char → Char → Bool
  lower : List Char → List Char
  floatOf : List Char → Binary64
  floatStr : Binary64 → String
  sum : List Binary64 → Binary64

inductive ConfigAdjustmentType where
  | detectionRegion
  | sensitivity
  | fps
  | focusArea
  deriving DecidableEq

structure DetectionRegion where
  xMin : Binary64 := const 0
  yMin : Binary64 := const 0
  xMax : Binary64 := const 1
  yMax : Binary64 := const 1
  deriving DecidableEq

namespace DetectionRegion

def clampValue (x : Binary64) : Binary64 := CFloat.max (const 0) (CFloat.min (const 1) x)

def clamp (r : DetectionRegion) : DetectionRegion :=
  ⟨clampValue r.xMin, clampValue r.yMin, clampValue r.xMax, clampValue r.yMax⟩

end DetectionRegion

/-- A value of a dictionary that becomes a command's parameters. -/
inductive PyValue where
  | str (s : String)
  | int (n : Int)
  | float (x : Binary64)

/-- `v` for a string, and `str(v)` for a number. -/
def PyValue.text (py : Python) : PyValue → String
  | .str s => s
  | .int n => toString n
  | .float x => py.floatStr x

def DetectionRegion.toDict (r : DetectionRegion) : List (String × PyValue) :=
  [("x_min", .float r.xMin), ("y_min", .float r.yMin), ("x_max", .float r.xMax),
    ("y_max", .float r.yMax)]

structure ConfigAdjustment where
  adjustmentType : ConfigAdjustmentType
  reason : String
  confidence : Binary64
  region : Option DetectionRegion := none
  sensitivityDelta : Binary64 := const 0
  fpsDelta : Int := 0
  targetClasses : List String := []

def ConfigAdjustment.toCommandParams (a : ConfigAdjustment) : List (String × PyValue) :=
  ("reason", .str a.reason) ::
    match a.adjustmentType with
    | .detectionRegion => a.region.elim [] DetectionRegion.toDict
    | .sensitivity => [("delta", .float a.sensitivityDelta)]
    | .fps => [("delta", .int a.fpsDelta)]
    | .focusArea => a.region.elim [] DetectionRegion.toDict ++
        [("classes", .str (String.intercalate "," a.targetClasses))]

structure VlmGuidanceResult where
  adjustments : List ConfigAdjustment := []
  rawRecommendations : List (List Char) := []
  parsingConfidence : Binary64 := const 0
  shouldApply : Bool := false

structure VlmConfigGuide where
  minConfidence : Binary64 := const 0.6
  maxAdjustmentsPerResult : Int := 3
  enableRegionAdjustment : Bool := true
  enableSensitivityAdjustment : Bool := true
  enableFpsAdjustment : Bool := false

/-- What `create_control_command` returns. -/
structure CommandDict where
  type : Int
  commandId : Nat
  parameters : List (String × PyValue)
  targetDeviceId : String

namespace VlmConfigGuide

open Regex (lit opt oneOf sequence plus word)

/-! ## Patterns -/

def the : Regex := opt (lit "the ")

def directions : Regex := oneOf (["upper", "lower", "left", "right", "center"].map lit)

def regionKeywords : List Regex :=
  [sequence [lit "focus on ", the, directions, lit " ",
      oneOf (["area", "region", "corner", "portion"].map lit)],
    sequence [lit "adjust ", opt (lit "detection "), lit "region"],
    sequence [lit "change ", the, oneOf (["roi", "region of interest"].map lit)],
    sequence [lit "ignore ", the, directions],
    sequence [lit "monitor ", the, directions],
    sequence [lit "move ", the, lit "detection ", oneOf (["area", "zone", "region"].map lit)]]

def sensitivityKeywords : List Regex :=
  [sequence [lit "increase ", opt (lit "detection "), lit "sensitivity"],
    sequence [lit "decrease ", opt (lit "detection "), lit "sensitivity"],
    sequence [lit "lower ", the, lit "threshold"],
    sequence [lit "raise ", the, lit "threshold"],
    lit "more sensitive",
    lit "less sensitive",
    lit "reduce false positives",
    lit "catch more detections"]

def fpsKeywords : List Regex :=
  [sequence [lit "increase ", oneOf (["frame rate", "fps"].map lit)],
    sequence [lit "decrease ", oneOf (["frame rate", "fps"].map lit)],
    lit "higher fps",
    lit "lower fps",
    sequence [lit "slow ", opt (lit "down "), lit "the ", oneOf (["capture", "stream"].map lit)],
    sequence [lit "speed up ", the, oneOf (["capture", "stream"].map lit)]]

/-- The rest of the line, without the space before it. -/
def restOfLine (py : Python) : List Regex :=
  [.star py.isSpace true, .group (plus (· != '\n') false), oneOf [lit "\n", .endOfLine]]

def recommendationPatterns (py : Python) : List Regex :=
  [sequence (oneOf (["recommendation", "suggest", "advise", "should"].map
      (word py.sameIgnoringCase)) :: opt (word py.sameIgnoringCase "s") :: opt (lit ":") ::
      restOfLine py),
    sequence (plus py.isDecimal true :: lit "." :: restOfLine py),
    sequence (oneOf [lit "-", lit "•"] :: restOfLine py)]

def endsSentence (c : Char) : Bool := c == '.' || c == '!' || c == '?'

def actionPattern : Regex :=
  .group (sequence [.char fun c => 'A' ≤ c && c ≤ 'Z', .star (fun c => !endsSentence c) true,
    oneOf (["adjust", "change", "modify", "increase", "decrease", "focus", "monitor",
      "ignore"].map lit),
    .star (fun c => !endsSentence c) true, .char endsSentence])

def coordinatePattern (py : Python) : Regex :=
  sequence [.group (sequence [plus py.isDecimal true, opt (sequence [lit ".", plus py.isDecimal true])]),
    .star py.isSpace true, opt (oneOf [lit "%", lit "percent"])]

/-! ## Extraction -/

def strip (py : Python) (s : List Char) : List Char :=
  ((s.dropWhile py.isSpace).reverse.dropWhile py.isSpace).reverse

/-- `w in text`. -/
def contains (text : List Char) (w : String) : Bool := (lit w).search text

/-- `l[:n]`. -/
def sliceTo {α : Type} (l : List α) (n : Int) : List α :=
  if 0 ≤ n then l.take n.toNat else l.take (l.length + n).toNat

/-- A recommendation is kept when it is long enough and new. -/
def clean (cleaned : List (List Char)) (s : List Char) : List (List Char) :=
  if s ∉ cleaned ∧ 10 < s.length then cleaned ++ [s] else cleaned

def extractRecommendations (py : Python) (text : List Char) : List (List Char) :=
  let recommendations := (recommendationPatterns py).flatMap fun pattern => pattern.findall text
  ((recommendations ++ actionPattern.findall text).map (strip py)).foldl clean []

def namedRegion (text : List Char) : DetectionRegion :=
  let r : DetectionRegion := {}
  let r := if contains text "upper" || contains text "top" then
    { r with yMin := const 0, yMax := const 0.5 } else r
  let r := if contains text "lower" || contains text "bottom" then
    { r with yMin := const 0.5, yMax := const 1 } else r
  let r := if contains text "left" then { r with xMin := const 0, xMax := const 0.5 } else r
  let r := if contains text "right" then { r with xMin := const 0.5, xMax := const 1 } else r
  if contains text "center" || contains text "middle" then
    ⟨const 0.25, const 0.25, const 0.75, const 0.75⟩ else r

def extractRegion (py : Python) (text : List Char) : Option DetectionRegion :=
  let r := namedRegion text
  if r ≠ {} then some r.clamp
  else match (coordinatePattern py).findall text with
    | x :: y :: x2 :: y2 :: _ =>
      let coordinate (s : List Char) := py.floatOf s / const 100
      some (DetectionRegion.clamp ⟨coordinate x, coordinate y, coordinate x2, coordinate y2⟩)
    | _ => none

def extractSensitivityDelta (text : List Char) : Binary64 :=
  if ["increase", "higher", "more sensitive", "catch more"].any (contains text) then const 0.05
  else if ["decrease", "lower", "less sensitive", "reduce false"].any (contains text) then
    const (-0.05)
  else const 0

def extractFpsDelta (text : List Char) : Int :=
  if ["increase", "higher", "speed up", "faster"].any (contains text) then 5
  else if ["decrease", "lower", "slow down", "slower"].any (contains text) then -5
  else 0

/-! ## Parsing -/

def searchAny (patterns : List Regex) (text : List Char) : Bool := patterns.any (·.search text)

def reason (s : List Char) : String := String.ofList (s.take 200)

def regionAdjustment (py : Python) (s : List Char) : Option ConfigAdjustment :=
  if searchAny regionKeywords (py.lower s) then
    (extractRegion py (py.lower s)).map fun region =>
      { adjustmentType := .detectionRegion, reason := reason s, confidence := const 0.7,
        region := some region }
  else none

def sensitivityAdjustment (py : Python) (s : List Char) : Option ConfigAdjustment :=
  if searchAny sensitivityKeywords (py.lower s) then
    some { adjustmentType := .sensitivity, reason := reason s, confidence := const 0.75,
           sensitivityDelta := extractSensitivityDelta (py.lower s) }
  else none

def fpsAdjustment (py : Python) (s : List Char) : Option ConfigAdjustment :=
  if searchAny fpsKeywords (py.lower s) then
    some { adjustmentType := .fps, reason := reason s, confidence := const 0.6,
           fpsDelta := extractFpsDelta (py.lower s) }
  else none

variable (guide : VlmConfigGuide) (py : Python)

/-- The first kind of adjustment that is enabled and asked for. -/
def parseRecommendation (s : List Char) : Option ConfigAdjustment :=
  (if guide.enableRegionAdjustment then regionAdjustment py s else none) <|>
    (if guide.enableSensitivityAdjustment then sensitivityAdjustment py s else none) <|>
    (if guide.enableFpsAdjustment then fpsAdjustment py s else none)

def parseVlmResult (text : String) : VlmGuidanceResult :=
  let raw := extractRecommendations py text.toList
  let adjustments := (sliceTo raw guide.maxAdjustmentsPerResult).filterMap fun s =>
    (guide.parseRecommendation py s).filter fun a => guide.minConfidence ≤ a.confidence
  { adjustments := adjustments
    rawRecommendations := raw
    parsingConfidence :=
      if adjustments.isEmpty then const 0
      else py.sum (adjustments.map ConfigAdjustment.confidence) / const adjustments.length
    shouldApply := !adjustments.isEmpty }

/-! ## Commands -/

def typeMapping : ConfigAdjustmentType → Int
  | .detectionRegion => 7
  | .sensitivity => 8
  | .fps => 0
  | .focusArea => 7

def createControlCommand (a : ConfigAdjustment) (deviceId : String) (commandId : Nat) :
    CommandDict where
  type := typeMapping a.adjustmentType
  commandId := commandId
  parameters := a.toCommandParams
  targetDeviceId := deviceId

/-- The message that is made of the dictionary; it has no place for the target. -/
def toMessage (d : CommandDict) : ControlCommand where
  type := .ofNumber d.type
  parameters := d.parameters.map fun p => (p.1, p.2.text py)
  commandId := d.commandId

/-- The messages for the adjustments of a result, numbered after `counter`. -/
def guidanceCommands (deviceId : String) : Nat → List ConfigAdjustment →
    List (ConfigAdjustment × ControlCommand)
  | _, [] => []
  | counter, a :: rest =>
    (a, toMessage py (createControlCommand a deviceId (counter + 1))) ::
      guidanceCommands deviceId (counter + 1) rest

/-- `_apply_vlm_guidance`: the commands it puts into the queue, each with its adjustment. -/
def applyVlmGuidance (counter : Nat) (text deviceId : String) :
    List (ConfigAdjustment × ControlCommand) :=
  let guidance := guide.parseVlmResult py text
  if guidance.shouldApply then guidanceCommands py deviceId counter guidance.adjustments else []

/-! ## A text with a recommendation -/

/-- An interpreter that knows the characters of ASCII and the numbers that guidance prints. -/
def asciiPython : Python where
  isDecimal c := '0' ≤ c && c ≤ '9'
  isSpace c := c.val = 32 || 9 ≤ c.val && c.val ≤ 13 || 28 ≤ c.val && c.val ≤ 31
  sameIgnoringCase c d := c.toLower == d.toLower
  lower := List.map Char.toLower
  floatOf _ := const 0
  floatStr x := if x = const 0.05 then "0.05" else if x = const (-0.05) then "-0.05" else "0.0"
  sum := List.foldl (· + ·) (const 0)

def sensitivityText : String := "1. Increase detection sensitivity."

end VlmConfigGuide
