-- SUMMARY: Loading of a dataclass from a YAML document: the conversions of Python, the loader, and when every field gets its type.
import NeuroPipeline.Lib.Fallible
import NeuroPipeline.Central.VlmConfigGuide

/-!
# Loader of dataclasses

Model of config_loader.py. A class is given by its fields, each with its type and its
default value; the loader goes along the fields and into the types that are classes.
A document is a tree, and of a date or a time only its text is kept.
-/

open CFloat (const)

/-- What `yaml.safe_load` returns. -/
inductive Yaml where
  | null
  | bool (b : Bool)
  | int (n : Int)
  | float (x : Binary64)
  | str (s : String)
  | bytes (b : List UInt8)
  | timestamp (text : String)
  | list (items : List Yaml)
  | map (entries : List (Yaml × Yaml))

/-- What Python reads in a text and in bytes, and the texts that it prints. -/
structure PyText where
  intOf : String → Option Int
  floatOf : String → Option Binary64
  intOfBytes : List UInt8 → Option Int
  floatOfBytes : List UInt8 → Option Binary64
  /-- `str`, which fails on an integer with too many digits -/
  print : Yaml → Option String

inductive PyError where
  | typeError
  | valueError
  | overflowError
  | attributeError
  | osError
  deriving DecidableEq

def valueOr {α : Type} : Option α → Except PyError α
  | some v => .ok v
  | none => .error .valueError

namespace Yaml

def truthy : Yaml → Bool
  | .null => false
  | .bool b => b
  | .int n => n ≠ 0
  | .float x => x ≠ const 0
  | .str s => s ≠ ""
  | .bytes b => !b.isEmpty
  | .timestamp _ => true
  | .list items => !items.isEmpty
  | .map entries => !entries.isEmpty

/-- `int(raw)` -/
def toInt (py : PyText) : Yaml → Except PyError Int
  | .bool b => .ok (if b then 1 else 0)
  | .int n => .ok n
  | .float .nan => .error .valueError
  | .float (.inf _) => .error .overflowError
  | .float (.finite q _) => .ok (q.num.tdiv q.den)
  | .str s => valueOr (py.intOf s)
  | .bytes b => valueOr (py.intOfBytes b)
  | .null | .timestamp _ | .list _ | .map _ => .error .typeError

/-- `float(raw)` -/
def toFloat (py : PyText) : Yaml → Except PyError Binary64
  | .bool b => .ok (if b then const 1 else const 0)
  | .int n =>
    match BinaryFloat.round _ n with
    | .inf _ => .error .overflowError
    | x => .ok x
  | .float x => .ok x
  | .str s => valueOr (py.floatOf s)
  | .bytes b => valueOr (py.floatOfBytes b)
  | .null | .timestamp _ | .list _ | .map _ => .error .typeError

/-- `str(raw)` -/
def toStr (py : PyText) : Yaml → Except PyError String
  | .str s => .ok s
  | raw => valueOr (py.print raw)

def isStr (name : String) : Yaml → Bool
  | .str s => s = name
  | _ => false

def mapEntries : Yaml → Option (List (Yaml × Yaml))
  | .map entries => some entries
  | _ => none

/-- The value of a key in a mapping. -/
def lookup (entries : List (Yaml × Yaml)) (name : String) : Option Yaml :=
  (entries.find? fun p => p.1.isStr name).map Prod.snd

end Yaml

namespace ConfigLoader

/-! ## Classes -/

inductive ScalarType where
  | bool
  | int
  | float
  | str
  deriving DecidableEq

/-- The value of a field: a value of the document or of a scalar type, a list that the
loader made, or an instance of a class. -/
inductive Obj where
  | yaml (v : Yaml)
  | list (items : List Obj)
  | record (fields : List (String × Obj))

mutual

inductive FieldType where
  | scalar (t : ScalarType)
  | dataclass (fields : Fields)
  | listOf (t : ScalarType)
  | listOfClass (fields : Fields)

/-- The fields of a class in their order, each with its default value. -/
inductive Fields where
  | nil
  | cons (name : String) (type : FieldType) (default : Obj) (rest : Fields)

end

namespace Fields

/-- `cls()` -/
def defaults : Fields → List (String × Obj)
  | .nil => []
  | .cons name _ default rest => (name, default) :: rest.defaults

def lookup (name : String) : Fields → Option (FieldType × Obj)
  | .nil => none
  | .cons name' type default rest => if name' = name then some (type, default) else rest.lookup name

end Fields

/-- `o.name` -/
def Obj.attr (o : Obj) (name : String) : Except PyError Obj :=
  match o with
  | .record fields =>
    match fields.find? fun p => p.1 = name with
    | some p => .ok p.2
    | none => .error .attributeError
  | _ => .error .attributeError

/-! ## Loader -/

/-- The conversion that `_coerce_scalar` tries. -/
def ScalarType.convert (py : PyText) (raw : Yaml) : ScalarType → Except PyError Yaml
  | .bool => .ok (.bool raw.truthy)
  | .int => (raw.toInt py).map .int
  | .float => (raw.toFloat py).map .float
  | .str => (raw.toStr py).map .str

def coerceScalar (py : PyText) (raw : Yaml) (t : ScalarType) : Except PyError Yaml :=
  match raw with
  | .null => .ok .null
  | raw =>
    match t.convert py raw with
    | .error .valueError | .error .typeError => .ok raw
    | result => result

mutual

/-- `_coerce_value`. An empty mapping leads to the defaults through the loop as well. -/
def FieldType.coerceValue (py : PyText) : FieldType → Yaml → Except PyError Obj
  | .listOfClass fields, .list items =>
    ((items.filterMap Yaml.mapEntries).mapM fun entries =>
      (fields.loadFields py entries).map .record).map .list
  | .listOf t, .list items =>
    (items.mapM fun item => (coerceScalar py item t).map .yaml).map .list
  | .dataclass fields, .map entries => (fields.loadFields py entries).map .record
  | .scalar t, raw => (coerceScalar py raw t).map .yaml
  | _, raw => .ok (.yaml raw)

/-- The loop over the fields. -/
def Fields.loadFields (py : PyText) :
    Fields → List (Yaml × Yaml) → Except PyError (List (String × Obj))
  | .nil, _ => .ok []
  | .cons name type default rest, entries => do
    let value ← (Yaml.lookup entries name).elim (.ok default) fun raw => type.coerceValue py raw
    let values ← rest.loadFields py entries
    return (name, value) :: values

end

def loadDataclassFromDict (py : PyText) (cls : Fields) (data : Yaml) : Except PyError Obj :=
  match data with
  | .map entries =>
    if entries.isEmpty then .ok (.record cls.defaults) else (cls.loadFields py entries).map .record
  | _ => .ok (.record cls.defaults)

/-! ## Types of values -/

def ScalarType.Has : ScalarType → Yaml → Prop
  | .bool, .bool _ | .int, .int _ | .float, .float _ | .str, .str _ => True
  | _, _ => False

mutual

/-- An object is a value of its declared type. -/
def FieldType.Has : FieldType → Obj → Prop
  | .scalar t, .yaml v => t.Has v
  | .dataclass fields, .record values => fields.Has values
  | .listOf t, .list items => ∀ o ∈ items, ∃ v, o = .yaml v ∧ t.Has v
  | .listOfClass fields, .list items => ∀ o ∈ items, ∃ values, o = .record values ∧ fields.Has values
  | _, _ => False

def Fields.Has : Fields → List (String × Obj) → Prop
  | .nil, values => values = []
  | .cons name type _ rest, values =>
    ∃ o values', values = (name, o) :: values' ∧ type.Has o ∧ rest.Has values'

end

mutual

/-- The defaults of every class of a type have their types. -/
def FieldType.Typed : FieldType → Prop
  | .dataclass fields | .listOfClass fields => fields.Typed
  | .scalar _ | .listOf _ => True

def Fields.Typed : Fields → Prop
  | .nil => True
  | .cons _ type default rest => type.Has default ∧ type.Typed ∧ rest.Typed

end

/-! ## Values of a document -/

mutual

/-- Every value that a document gives for a scalar has `P`; one that cannot be walked, such
as a scalar for a class, has `shape`. -/
def FieldType.Every (shape : Prop) (P : ScalarType → Yaml → Prop) : FieldType → Yaml → Prop
  | .listOfClass fields, .list items =>
    ∀ entries ∈ items.filterMap Yaml.mapEntries, fields.Every shape P entries
  | .listOf t, .list items => ∀ item ∈ items, P t item
  | .dataclass fields, .map entries => fields.Every shape P entries
  | .scalar t, raw => P t raw
  | _, _ => shape

def Fields.Every (shape : Prop) (P : ScalarType → Yaml → Prop) : Fields → List (Yaml × Yaml) → Prop
  | .nil, _ => True
  | .cons name type _ rest, entries =>
    (∀ raw ∈ Yaml.lookup entries name, type.Every shape P raw) ∧ rest.Every shape P entries

end

section

variable (py : PyText)

/-- A value that `int` or `float` does not take for its size. -/
def ScalarType.Overflows (t : ScalarType) (raw : Yaml) : Prop :=
  t.convert py raw = .error .overflowError

/-- A value other than null that the conversion takes. -/
def ScalarType.Converts (t : ScalarType) (raw : Yaml) : Prop :=
  raw ≠ .null ∧ ∃ v, t.convert py raw = .ok v

def Fields.Loads (fields : Fields) : List (Yaml × Yaml) → Prop :=
  fields.Every True fun t raw => ¬ t.Overflows py raw

def Fields.Converts (fields : Fields) : List (Yaml × Yaml) → Prop :=
  fields.Every False (ScalarType.Converts py)

end

/-! ## What the loader gives -/

section

variable {py : PyText} {t : ScalarType} {raw : Yaml}

/-- A conversion refuses only values of other types, and only with these errors. -/
def ScalarType.Refuses (t : ScalarType) (raw : Yaml) (e : PyError) : Prop :=
  ¬ t.Has raw ∧ (e = .valueError ∨ e = .typeError ∨ e = .overflowError)

theorem ends_valueOr {α : Type} {o : Option α} (h : ¬ t.Has raw) :
    (valueOr o).Ends (fun _ => True) (t.Refuses raw) := by
  cases o with
  | some a => trivial
  | none => exact ⟨h, .inl rfl⟩

theorem ends_toInt : (raw.toInt py).Ends (fun _ => True) (ScalarType.int.Refuses raw) := by
  cases raw
  case bool | int => trivial
  case str | bytes => exact ends_valueOr id
  case null | timestamp | list | map => exact ⟨id, .inr (.inl rfl)⟩
  case float x =>
    cases x with
    | nan => exact ⟨id, .inl rfl⟩
    | inf negative => exact ⟨id, .inr (.inr rfl)⟩
    | finite q hq => trivial

/-- An integer is only refused for its size. -/
theorem ends_toFloat_int (py : PyText) (n : Int) :
    ((Yaml.int n).toFloat py).Ends (fun _ => True) (· = .overflowError) := by
  have hround (x : Binary64) : Except.Ends (match x with
      | .inf _ => .error .overflowError
      | x => .ok x : Except PyError Binary64) (fun _ => True) (· = .overflowError) := by
    cases x with
    | nan | finite => trivial
    | inf negative => rfl
  exact hround (BinaryFloat.round _ n)

theorem ends_toFloat : (raw.toFloat py).Ends (fun _ => True) (ScalarType.float.Refuses raw) := by
  cases raw
  case bool | float => trivial
  case str | bytes => exact ends_valueOr id
  case null | timestamp | list | map => exact ⟨id, .inr (.inl rfl)⟩
  case int n => exact (ends_toFloat_int py n).mono (fun _ h => h) fun _ he => ⟨id, .inr (.inr he)⟩

theorem ends_toStr : (raw.toStr py).Ends (fun _ => True) (ScalarType.str.Refuses raw) := by
  cases raw
  case str => trivial
  all_goals exact ends_valueOr id

theorem ends_convert : (t.convert py raw).Ends t.Has (t.Refuses raw) := by
  cases t
  case bool => trivial
  case int => exact Except.ends_map.mpr ends_toInt
  case float => exact Except.ends_map.mpr ends_toFloat
  case str => exact Except.ends_map.mpr ends_toStr

theorem not_overflows_null : ¬ t.Overflows py .null := by
  cases t
  case bool | int | float => rintro ⟨⟩
  case str =>
    simp only [ScalarType.Overflows, ScalarType.convert, Yaml.toStr]
    cases py.print .null with
    | none => rintro ⟨⟩
    | some text => rintro ⟨⟩

theorem coerceScalar_of_ne_null (h : raw ≠ .null) : coerceScalar py raw t =
    match t.convert py raw with
    | .error .valueError | .error .typeError => .ok raw
    | result => result := by
  cases raw
  case null => exact absurd rfl h
  all_goals rfl

/-- A scalar is loaded unless it overflows, and has its type if it converts. -/
theorem ends_coerceScalar : (coerceScalar py raw t).Ends
    (fun v => ¬ t.Overflows py raw ∧ (t.Has v ↔ t.Converts py raw))
    fun _ => t.Overflows py raw := by
  by_cases hnull : raw = .null
  · subst hnull
    have hnot : ¬ t.Has .null := by cases t <;> exact id
    exact ⟨not_overflows_null, iff_of_false hnot fun h => h.1 rfl⟩
  · have hconvert : (t.convert py raw).Ends t.Has (t.Refuses raw) := ends_convert
    rw [coerceScalar_of_ne_null hnull]
    cases h : t.convert py raw with
    | ok v =>
      rw [h, Except.ends_ok] at hconvert
      refine ⟨?_, iff_of_true hconvert ⟨hnull, v, h⟩⟩
      rintro ho
      cases h.symm.trans ho
    | error e =>
      rw [h, Except.ends_error] at hconvert
      have hnot : ¬ t.Converts py raw := by
        rintro ⟨-, v, hv⟩
        cases h.symm.trans hv
      have hkept (hne : e ≠ .overflowError) :
          ¬ t.Overflows py raw ∧ (t.Has raw ↔ t.Converts py raw) := by
        refine ⟨fun ho => hne ?_, iff_of_false hconvert.1 hnot⟩
        cases h.symm.trans ho
        rfl
      obtain rfl | rfl | rfl := hconvert.2
      · exact hkept (by decide)
      · exact hkept (by decide)
      · exact h

variable (py) in
/-- A value is loaded unless something in it overflows, and has its type if all of it
converts. -/
def FieldType.Sound (type : FieldType) : Prop :=
  ∀ raw, (type.coerceValue py raw).Ends
    (fun o => type.Every True (fun t raw => ¬ t.Overflows py raw) raw ∧
      (type.Has o ↔ type.Every False (ScalarType.Converts py) raw))
    fun _ => ¬ type.Every True (fun t raw => ¬ t.Overflows py raw) raw

variable (py) in
def Fields.Sound (fields : Fields) : Prop :=
  ∀ entries, (fields.loadFields py entries).Ends
    (fun values => fields.Loads py entries ∧ (fields.Has values ↔ fields.Converts py entries))
    fun _ => ¬ fields.Loads py entries

variable {name : String} {type : FieldType} {default : Obj} {fields rest : Fields}

theorem sound_scalar : (FieldType.scalar t).Sound py := by
  intro raw
  rw [FieldType.coerceValue, Except.ends_map]
  exact ends_coerceScalar.mono (fun v h => h) fun _ h => not_not_intro h

theorem sound_dataclass (h : fields.Sound py) : (FieldType.dataclass fields).Sound py := by
  intro raw
  cases raw
  case map entries =>
    rw [FieldType.coerceValue, Except.ends_map]
    exact h entries
  all_goals exact ⟨trivial, Iff.rfl⟩

theorem sound_listOf : (FieldType.listOf t).Sound py := by
  intro raw
  cases raw
  case list items =>
    rw [FieldType.coerceValue, Except.ends_map]
    apply Except.ends_mapM_iff
    intro item _
    simp only [Except.ends_map, Obj.yaml.injEq, exists_eq_left']
    exact ends_coerceScalar.mono (fun v h => h) fun _ h => not_not_intro h
  all_goals exact ⟨trivial, Iff.rfl⟩

theorem sound_listOfClass (h : fields.Sound py) : (FieldType.listOfClass fields).Sound py := by
  intro raw
  cases raw
  case list items =>
    rw [FieldType.coerceValue, Except.ends_map]
    apply Except.ends_mapM_iff
    intro entries _
    simp only [Except.ends_map, Obj.record.injEq, exists_eq_left']
    exact h entries
  all_goals exact ⟨trivial, Iff.rfl⟩

theorem sound_nil : Fields.nil.Sound py := fun _ => ⟨trivial, iff_of_true rfl trivial⟩

theorem has_cons {o : Obj} {values : List (String × Obj)} :
    (Fields.cons name type default rest).Has ((name, o) :: values) ↔
      type.Has o ∧ rest.Has values := by
  constructor
  · rintro ⟨o', values', ⟨⟩, ho', hvalues'⟩
    exact ⟨ho', hvalues'⟩
  · rintro ⟨ho', hvalues'⟩
    exact ⟨o, values, rfl, ho', hvalues'⟩

theorem sound_cons (hdefault : type.Has default) (htype : type.Sound py) (hrest : rest.Sound py) :
    (Fields.cons name type default rest).Sound py := by
  intro entries
  rw [Fields.loadFields, Except.ends_bind]
  have hvalue : ((Yaml.lookup entries name).elim (.ok default) fun raw =>
      type.coerceValue py raw).Ends
      (fun o => (∀ raw ∈ Yaml.lookup entries name,
          type.Every True (fun t raw => ¬ t.Overflows py raw) raw) ∧
        (type.Has o ↔ ∀ raw ∈ Yaml.lookup entries name,
          type.Every False (ScalarType.Converts py) raw))
      fun _ => ¬ ∀ raw ∈ Yaml.lookup entries name,
          type.Every True (fun t raw => ¬ t.Overflows py raw) raw := by
    cases Yaml.lookup entries name with
    | none => simpa using hdefault
    | some raw => simpa using htype raw
  refine hvalue.mono (fun o ho => ?_) fun e he hloads => he hloads.1
  rw [Except.ends_bind]
  refine (hrest entries).mono (fun values hvalues => ?_) fun e he hloads => he hloads.2
  exact ⟨⟨ho.1, hvalues.1⟩, has_cons.trans (and_congr ho.2 hvalues.2)⟩

mutual

/-- Induction on the type, and along the fields of a class. -/
theorem FieldType.sound : ∀ type : FieldType, type.Typed → type.Sound py
  | .scalar _, _ => sound_scalar
  | .dataclass fields, h => sound_dataclass (fields.sound h)
  | .listOf _, _ => sound_listOf
  | .listOfClass fields, h => sound_listOfClass (fields.sound h)

theorem Fields.sound : ∀ fields : Fields, fields.Typed → fields.Sound py
  | .nil, _ => sound_nil
  | .cons _ type _ rest, h => sound_cons h.1 (type.sound h.2.1) (rest.sound h.2.2)

end

theorem loadFields_nil (fields : Fields) : fields.loadFields py [] = .ok fields.defaults := by
  induction fields using Fields.defaults.induct with
  | case1 => rfl
  | case2 name type default rest ih =>
    rw [Fields.loadFields, ih]
    rfl

/-- A field of what was loaded is its default, or the value that the document gives for it. -/
theorem attr_loadFields {values : List (String × Obj)} {entries : List (Yaml × Yaml)}
    (h : fields.loadFields py entries = .ok values)
    (hfield : fields.lookup name = some (type, default)) :
    ∃ o, (Obj.record values).attr name = .ok o ∧
      ((Yaml.lookup entries name).elim (.ok default) fun raw => type.coerceValue py raw) = .ok o := by
  induction fields using Fields.defaults.induct generalizing values with
  | case1 => cases hfield
  | case2 name' type' default' rest ih =>
    rw [Fields.loadFields] at h
    obtain ⟨o, ho, h⟩ := Except.bind_eq_ok.mp h
    obtain ⟨values', hvalues', h⟩ := Except.bind_eq_ok.mp h
    cases h
    rw [Fields.lookup] at hfield
    by_cases hname : name' = name
    · subst hname
      rw [if_pos rfl] at hfield
      cases hfield
      exact ⟨o, by simp [Obj.attr], ho⟩
    · rw [if_neg hname] at hfield
      obtain ⟨o', ho', hvalue⟩ := ih hvalues' hfield
      refine ⟨o', ?_, hvalue⟩
      rw [← ho']
      simp [Obj.attr, hname]

end

end ConfigLoader
