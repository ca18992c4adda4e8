-- SUMMARY: Format strings with named fields: formatting from left to right, and how literal text and fields are spelled.
import Mathlib.Data.List.TakeWhile

/-!
# Format strings

`str.format` of strings with plain fields, `{name}` or `{name:spec}`, in one pass. Fields
inside of fields, conversions, attributes and elements are left out.
-/

universe u

inductive FormatError where
  /-- a brace without its partner, or a value that a specification does not fit -/
  | value
  | index
  | key (name : List Char)
  deriving DecidableEq

/-- What has been read last. -/
inductive FormatMode where
  | text
  | opened
  | closed
  | field (body : List Char)

namespace FormatString

variable {V : Type u} (lookup : List Char → Option V)
  (format : V → List Char → Option (List Char))

/-- The text of a field. -/
def fieldText (body : List Char) : Except FormatError (List Char) :=
  let name := body.takeWhile (· ≠ ':')
  let spec := (body.dropWhile (· ≠ ':')).tail
  -- a position, and no positional arguments
  if name.all Char.isDigit then .error .index
  else
    match lookup name with
    | none => .error (.key name)
    | some v =>
      match format v spec with
      | none => .error .value
      | some text => .ok text

/-- Text in front of what is still to be formatted. -/
def prepend (text : List Char) (rest : Except FormatError (List Char)) :
    Except FormatError (List Char) :=
  rest.map (text ++ ·)

theorem prepend_append (text text' : List Char) (rest : Except FormatError (List Char)) :
    prepend (text ++ text') rest = prepend text (prepend text' rest) := by
  cases rest with
  | error e => rfl
  | ok out => exact congrArg Except.ok (List.append_assoc text text' out)

theorem prepend_nil (rest : Except FormatError (List Char)) : prepend [] rest = rest := by
  cases rest <;> rfl

def formatFrom : FormatMode → List Char → Except FormatError (List Char)
  | .text, [] => .ok []
  | .text, c :: rest =>
    if c = '{' then formatFrom .opened rest
    else if c = '}' then formatFrom .closed rest
    else prepend [c] (formatFrom .text rest)
  | .opened, [] => .error .value
  | .opened, c :: rest =>
    if c = '{' then prepend ['{'] (formatFrom .text rest)
    else if c = '}' then (fieldText lookup format []).bind fun text =>
      prepend text (formatFrom .text rest)
    else formatFrom (.field [c]) rest
  | .closed, [] => .error .value
  | .closed, c :: rest =>
    if c = '}' then prepend ['}'] (formatFrom .text rest) else .error .value
  | .field _, [] => .error .value
  | .field body, c :: rest =>
    if c = '}' then (fieldText lookup format body).bind fun text =>
      prepend text (formatFrom .text rest)
    else if c = '{' then .error .value
    else formatFrom (.field (body ++ [c])) rest

/-- `template.format(...)` -/
def formatText (template : List Char) : Except FormatError (List Char) :=
  formatFrom lookup format .text template

end FormatString

/-! ## Spelling -/

inductive FormatPiece where
  | literal (text : List Char)
  | field (name spec : List Char)
  deriving DecidableEq

namespace FormatPiece

/-- Braces are doubled. -/
def escape (text : List Char) : List Char :=
  text.flatMap fun c => if c = '{' then ['{', '{'] else if c = '}' then ['}', '}'] else [c]

def fieldBody (name spec : List Char) : List Char :=
  if spec = [] then name else name ++ ':' :: spec

def spell : FormatPiece → List Char
  | .literal text => escape text
  | .field name spec => '{' :: fieldBody name spec ++ ['}']

/-- Names are not numbers, and neither names nor specifications have braces. -/
def WellFormed : FormatPiece → Prop
  | .literal _ => True
  | .field name spec => name.all Char.isDigit = false ∧
      (∀ c ∈ name, c ≠ '{' ∧ c ≠ '}' ∧ c ≠ ':') ∧ ∀ c ∈ spec, c ≠ '{' ∧ c ≠ '}'

instance (p : FormatPiece) : Decidable p.WellFormed :=
  match p with
  | .literal _ => inferInstanceAs (Decidable True)
  | .field name spec =>
    -- not by a search through all characters
    let _ := List.decidableBAll (fun c => c ≠ '{' ∧ c ≠ '}' ∧ c ≠ ':') name
    let _ := List.decidableBAll (fun c => c ≠ '{' ∧ c ≠ '}') spec
    inferInstanceAs (Decidable (name.all Char.isDigit = false ∧
      (∀ c ∈ name, c ≠ '{' ∧ c ≠ '}' ∧ c ≠ ':') ∧ ∀ c ∈ spec, c ≠ '{' ∧ c ≠ '}'))

variable {V : Type u} (lookup : List Char → Option V)
  (format : V → List Char → Option (List Char))

def render : FormatPiece → Except FormatError (List Char)
  | .literal text => .ok text
  | .field name spec =>
    match lookup name with
    | none => .error (.key name)
    | some v =>
      match format v spec with
      | none => .error .value
      | some text => .ok text

/-- From left to right, up to the first piece that fails. -/
def renderAll : List FormatPiece → Except FormatError (List Char)
  | [] => .ok []
  | p :: rest => (p.render lookup format).bind fun text =>
    FormatString.prepend text (renderAll rest)

/-! ### Pieces that are rendered -/

section

variable {lookup : List Char → Option V} {format : V → List Char → Option (List Char)}

theorem renderAll_append {pieces : List FormatPiece} {text : List Char}
    (h : renderAll lookup format pieces = .ok text) (rest : List FormatPiece) :
    renderAll lookup format (pieces ++ rest) =
      FormatString.prepend text (renderAll lookup format rest) := by
  induction pieces generalizing text with
  | nil =>
      obtain rfl := Except.ok.inj h
      exact (FormatString.prepend_nil _).symm
  | cons p pieces ih =>
      rw [renderAll] at h
      rw [List.cons_append, renderAll]
      cases hp : p.render lookup format with
      | error e =>
          rw [hp] at h
          cases h
      | ok first =>
          cases hpieces : renderAll lookup format pieces with
          | error e =>
              rw [hp, hpieces] at h
              cases h
          | ok others =>
              rw [hp, hpieces] at h
              obtain rfl := Except.ok.inj h
              have happend := ih hpieces
              simp only [Except.bind, happend]
              exact (FormatString.prepend_append first others _).symm

/-- A field without a value behind pieces that have theirs. -/
theorem renderAll_missing {pieces rest : List FormatPiece} {text name spec : List Char}
    (h : renderAll lookup format pieces = .ok text) (hname : lookup name = none) :
    renderAll lookup format (pieces ++ .field name spec :: rest) = .error (.key name) := by
  rw [renderAll_append h, renderAll, render, hname]
  rfl

/-- Where every value fits its specification, only a value that is missing can fail. -/
theorem renderAll_cases {pieces : List FormatPiece}
    (h : ∀ name spec, .field name spec ∈ pieces → ∀ v, lookup name = some v →
      (format v spec).isSome) :
    (∃ text, renderAll lookup format pieces = .ok text) ∨
      ∃ name, renderAll lookup format pieces = .error (.key name) := by
  induction pieces with
  | nil => exact .inl ⟨[], rfl⟩
  | cons p rest ih =>
      have hrest := ih fun name spec hmem => h name spec (List.mem_cons_of_mem p hmem)
      have hp : (∃ text, p.render lookup format = .ok text) ∨
          ∃ name, p.render lookup format = .error (.key name) := by
        cases p with
        | literal text => exact .inl ⟨text, rfl⟩
        | field name spec =>
            rw [render]
            cases hv : lookup name with
            | none => exact .inr ⟨name, rfl⟩
            | some v =>
                obtain ⟨text, htext⟩ :=
                  Option.isSome_iff_exists.mp (h name spec List.mem_cons_self v hv)
                exact .inl ⟨text, by simp only [htext]⟩
      rw [renderAll]
      rcases hp with ⟨text, hp⟩ | ⟨name, hp⟩
      · rw [hp]
        rcases hrest with ⟨text', hrest⟩ | ⟨name, hrest⟩
        · exact .inl ⟨text ++ text', by rw [hrest]; rfl⟩
        · exact .inr ⟨name, by rw [hrest]; rfl⟩
      · exact .inr ⟨name, by rw [hp]; rfl⟩

end

end FormatPiece

namespace FormatString

variable {V : Type u} {lookup : List Char → Option V}
  {format : V → List Char → Option (List Char)}

theorem formatFrom_escape (text rest : List Char) :
    formatFrom lookup format .text (FormatPiece.escape text ++ rest) =
      prepend text (formatFrom lookup format .text rest) := by
  induction text with
  | nil => exact (prepend_nil _).symm
  | cons c text ih =>
      have hcons : FormatPiece.escape (c :: text) ++ rest =
          (if c = '{' then ['{', '{'] else if c = '}' then ['}', '}'] else [c]) ++
            (FormatPiece.escape text ++ rest) := by
        rw [FormatPiece.escape, List.flatMap_cons, List.append_assoc]
        rfl
      have hprepend : ∀ r, prepend (c :: text) r = prepend [c] (prepend text r) :=
        fun r => prepend_append [c] text r
      rw [hcons, hprepend, ← ih]
      by_cases hopen : c = '{'
      · subst hopen
        rfl
      · by_cases hclose : c = '}'
        · subst hclose
          rfl
        · rw [if_neg hopen, if_neg hclose, List.singleton_append, formatFrom, if_neg hopen,
            if_neg hclose]

theorem formatFrom_field {body : List Char} (rest : List Char)
    (h : ∀ c ∈ body, c ≠ '{' ∧ c ≠ '}') (before : List Char) :
    formatFrom lookup format (.field before) (body ++ '}' :: rest) =
      (fieldText lookup format (before ++ body)).bind fun text =>
        prepend text (formatFrom lookup format .text rest) := by
  induction body generalizing before with
  | nil => rw [List.nil_append, formatFrom, if_pos rfl, List.append_nil]
  | cons c body ih =>
      obtain ⟨⟨hopen, hclose⟩, hbody⟩ := List.forall_mem_cons.mp h
      rw [List.cons_append, formatFrom, if_neg hclose, if_neg hopen, ih hbody, List.append_assoc,
        List.singleton_append]

theorem formatFrom_opened {body : List Char} (rest : List Char)
    (h : ∀ c ∈ body, c ≠ '{' ∧ c ≠ '}') :
    formatFrom lookup format .opened (body ++ '}' :: rest) =
      (fieldText lookup format body).bind fun text =>
        prepend text (formatFrom lookup format .text rest) := by
  cases body with
  | nil => rfl
  | cons c body =>
      obtain ⟨⟨hopen, hclose⟩, hbody⟩ := List.forall_mem_cons.mp h
      rw [List.cons_append, formatFrom, if_neg hopen, if_neg hclose, formatFrom_field rest hbody,
        List.singleton_append]

theorem fieldText_fieldBody {name spec : List Char}
    (h : (FormatPiece.field name spec).WellFormed) :
    fieldText lookup format (FormatPiece.fieldBody name spec) =
      (FormatPiece.field name spec).render lookup format := by
  obtain ⟨hname, hcolon, -⟩ := h
  have hkeep : ∀ c ∈ name, decide (c ≠ ':') = true := fun c hc => by simp [(hcolon c hc).2.2]
  have htake : (FormatPiece.fieldBody name spec).takeWhile (· ≠ ':') = name := by
    rw [FormatPiece.fieldBody]
    split
    · exact List.takeWhile_eq_self_iff.mpr hkeep
    · rw [List.takeWhile_append_of_pos hkeep]
      simp
  have hdrop : ((FormatPiece.fieldBody name spec).dropWhile (· ≠ ':')).tail = spec := by
    rw [FormatPiece.fieldBody]
    split
    · next hspec => rw [List.dropWhile_eq_nil_iff.mpr hkeep, hspec, List.tail_nil]
    · rw [List.dropWhile_append_of_pos hkeep]
      simp
  rw [fieldText]
  simp only [htake, hdrop, hname, Bool.false_eq_true, if_false]
  rfl

/-- What is spelled out of pieces is formatted piece by piece: nothing of what a field stands
for is read as a field again. -/
theorem formatText_spell {pieces : List FormatPiece} (h : ∀ p ∈ pieces, p.WellFormed) :
    formatText lookup format (pieces.flatMap FormatPiece.spell) =
      FormatPiece.renderAll lookup format pieces := by
  rw [formatText]
  induction pieces with
  | nil => rfl
  | cons p rest ih =>
      obtain ⟨hp, hrest⟩ := List.forall_mem_cons.mp h
      rw [List.flatMap_cons, FormatPiece.renderAll, ← ih hrest]
      cases p with
      | literal text => exact formatFrom_escape text _
      | field name spec =>
          have hbody : ∀ c ∈ FormatPiece.fieldBody name spec, c ≠ '{' ∧ c ≠ '}' := by
            obtain ⟨-, hname, hspec⟩ := hp
            intro c hc
            rw [FormatPiece.fieldBody] at hc
            split at hc
            · exact ⟨(hname c hc).1, (hname c hc).2.1⟩
            · rcases List.mem_append.mp hc with hc | hc
              · exact ⟨(hname c hc).1, (hname c hc).2.1⟩
              · rcases List.mem_cons.mp hc with rfl | hc
                · decide
                · exact hspec c hc
          rw [FormatPiece.spell, List.cons_append, List.cons_append, List.append_assoc,
            List.singleton_append, formatFrom, if_pos rfl, formatFrom_opened _ hbody,
            fieldText_fieldBody hp]

end FormatString
