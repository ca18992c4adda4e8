-- SUMMARY: The reader of the edge's configuration file: one pass over its lines, and the typed getters.
import NeuroPipeline.Lib.Dict
import NeuroPipeline.Lib.Strto
import Mathlib.Data.List.DropRight

/-!
# Configuration reader

Model of config_manager.hpp. The columns of a line and the positions in a list are
numbers without a bound.
-/

/-- The characters of a line, a key or a value. -/
abbrev Text := List Char

structure ConfigManager where
  config : Dict Text Text := ∅

namespace ConfigManager

/-! ## Parts of a line -/

/-- A character of `" \t\r\n"`. -/
def isBlank (c : Char) : Bool := c = ' ' || c = '\t' || c = '\r' || c = '\n'

def isSpaceOrTab (c : Char) : Bool := c = ' ' || c = '\t'

/-- A character of `" \t\""`. -/
def isBlankOrQuote (c : Char) : Bool := isSpaceOrTab c || c = '"'

def trimValue (s : Text) : Text := (s.dropWhile isBlankOrQuote).rdropWhile isBlankOrQuote

/-- The column at which a line starts and what it says, without its comment. -/
def cleanLine (line : Text) : Option (Nat × Text) :=
  let line := line.takeWhile (· ≠ '#')
  let body := line.dropWhile isBlank
  if body.isEmpty then none
  else some ((line.takeWhile isBlank).length, body.rdropWhile isBlank)

/-- What stands before the first colon and after it. -/
def splitColon (s : Text) : Option (Text × Text) :=
  match s.dropWhile (· ≠ ':') with
  | [] => none
  | _ :: value => some (s.takeWhile (· ≠ ':'), value)

def isQuotedEmpty (value : Text) : Bool :=
  match value.dropWhile isSpaceOrTab with
  | '"' :: '"' :: _ => true
  | _ => false

/-! ## LoadFromFile -/

/-- The variables of the loop; the innermost section comes first. -/
structure Parser where
  sectionStack : List (Nat × Text) := []
  listIndex : Int := -1
  listSection : Text := []
  listIndent : Int := -1
  config : Dict Text Text

/-- `a.b` -/
def joined (a b : Text) : Text := a ++ '.' :: b

def currentSection (stack : List (Nat × Text)) : Text :=
  stack.foldr (fun p result => if result.isEmpty then p.2 else joined result p.2) []

namespace Parser

/-- `key: value` in an item of the current list. -/
def putItem (st : Parser) (item : Text) : Parser :=
  match splitColon item with
  | none => st
  | some (k, v) =>
    let fullKey := joined (joined st.listSection (toString st.listIndex).toList) (trimValue k)
    { st with config := st.config.set fullKey (trimValue v) }

/-- A line that starts with `- `. -/
def listItem (st : Parser) (indent : Nat) (line : Text) : Parser :=
  let st :=
    if st.listSection.isEmpty then
      { st with listSection := currentSection st.sectionStack, listIndex := 0, listIndent := indent }
    else if (indent : Int) ≤ st.listIndent then { st with listIndex := st.listIndex + 1 }
    else st
  st.putItem ((line.drop 2).dropWhile isSpaceOrTab)

/-- The list is over when a line starts no further right. -/
def closeList (st : Parser) (indent : Nat) : Parser :=
  if !st.listSection.isEmpty && (indent : Int) ≤ st.listIndent then
    { st with listSection := [], listIndex := -1, listIndent := -1 }
  else st

def popSections (st : Parser) (indent : Nat) : Parser :=
  { st with sectionStack := st.sectionStack.dropWhile fun p => indent ≤ p.1 }

/-- A line of a section: the head of another one, or a value. -/
def sectionLine (st : Parser) (indent : Nat) (line : Text) : Parser :=
  let st := (st.closeList indent).popSections indent
  match splitColon line with
  | none => st
  | some (key, value) =>
    if (trimValue value).isEmpty && !isQuotedEmpty value then
      { st with sectionStack := (indent, trimValue key) :: st.sectionStack }
    else
      let sect := currentSection st.sectionStack
      let fullKey := if sect.isEmpty then trimValue key else joined sect (trimValue key)
      { st with config := st.config.set fullKey (trimValue value) }

def isListItem (line : Text) : Bool :=
  match line with
  | '-' :: ' ' :: _ => true
  | _ => false

/-- A line starts further right than the item of the list before it. -/
def continuesItem (st : Parser) (indent : Nat) : Bool :=
  !st.listSection.isEmpty && st.listIndent < indent && 0 ≤ st.listIndex

def readLine (st : Parser) (line : Text) : Parser :=
  match cleanLine line with
  | none => st
  | some (indent, line) =>
    if isListItem line then st.listItem indent line
    else if st.continuesItem indent then st.putItem line
    else st.sectionLine indent line

end Parser

/-- The lines that `std::getline` gives, and possibly an empty one after them. -/
def fileLines (content : Text) : List Text := content.splitOn '\n'

/-- `content` is what the file holds, if it can be opened. -/
def loadFromFile (cfg : ConfigManager) (content : Option Text) : ConfigManager × Bool :=
  match content with
  | none => (cfg, false)
  | some content =>
    (⟨((fileLines content).foldl Parser.readLine { config := cfg.config }).config⟩, true)

/-! ## Getters -/

def get (cfg : ConfigManager) (key : Text) (defaultValue : Text := []) : Text :=
  (cfg.config.lookup key).getD defaultValue

def getInt (cfg : ConfigManager) (key : Text) (defaultValue : Int := 0) : Int :=
  match cfg.config.lookup key with
  | none => defaultValue
  | some text =>
    match stoi (.ofList text) with
    | .ok n => n.value
    | .error _ => defaultValue

def getFloat {F : Type} [OfNumeral F] (cfg : ConfigManager) (key : Text) (defaultValue : F) : F :=
  match cfg.config.lookup key with
  | none => defaultValue
  | some text =>
    match stof (.ofList text) with
    | .ok x => x.value
    | .error _ => defaultValue

def getBool (cfg : ConfigManager) (key : Text) (defaultValue : Bool := false) : Bool :=
  match cfg.config.lookup key with
  | none => defaultValue
  | some text => text = "true".toList || text = "1".toList || text = "yes".toList

def set (cfg : ConfigManager) (key value : Text) : ConfigManager := ⟨cfg.config.set key value⟩

def has (cfg : ConfigManager) (key : Text) : Bool := key ∈ cfg.config

end ConfigManager
