-- SUMMARY: When loading a configuration is sound: the documents that end in a complaint or give every field its type.
import NeuroPipeline.Central.ConfigChecks

/-!
# Soundness of the loaded configuration

A document is loaded from the values it gives. What is loaded has its types where those
convert, and it is only looked at where the checks do not complain before.
-/

namespace ConfigLoader

/-! ## Loaded documents -/

/-- The values that a document gives. Nothing can be looked up in a scalar other than a text. -/
def documentEntries : Option Yaml → Option (List (Yaml × Yaml))
  | none => some []
  | some document =>
    if document.truthy then
      match document with
      | .map entries => some entries
      | .list _ | .str _ => some []
      | _ => none
    else some []

section

variable {py : PyText} {entries : List (Yaml × Yaml)} {values : List (String × Obj)}

theorem mem_defaults_of_loadFields {fields : Fields} {name : String} {o : Obj}
    (h : fields.loadFields py entries = .ok values) (hnone : Yaml.lookup entries name = none)
    (hmem : (name, o) ∈ values) : (name, o) ∈ fields.defaults := by
  induction fields using Fields.defaults.induct generalizing values with
  | case1 =>
    cases h
    exact hmem
  | case2 name' type default rest ih =>
    rw [Fields.loadFields] at h
    obtain ⟨o', ho', h⟩ := Except.bind_eq_ok.mp h
    obtain ⟨values', hvalues', h⟩ := Except.bind_eq_ok.mp h
    cases h
    rw [Fields.defaults]
    obtain heq | hmem := List.mem_cons.mp hmem
    · cases heq
      rw [hnone] at ho'
      cases ho'
      exact List.mem_cons_self
    · exact List.mem_cons_of_mem _ (ih hvalues' hmem)

/-- Assigning its default to a field that is not given changes nothing. -/
theorem setattr_default {fields : Fields} {name : String} {value : Obj}
    (h : fields.loadFields py entries = .ok values) (hnone : Yaml.lookup entries name = none)
    (hdefault : ∀ p ∈ fields.defaults, p.1 = name → p.2 = value) :
    (Obj.record values).setattr name value = .record values := by
  apply congrArg Obj.record
  refine (List.map_congr_left ?_).trans (List.map_id values)
  rintro ⟨name', o⟩ hmem
  by_cases hname : name' = name
  · subst hname
    have hvalue : o = value := hdefault _ (mem_defaults_of_loadFields h hnone hmem) rfl
    rw [if_pos rfl, hvalue]
    rfl
  · exact if_neg hname

theorem appConfig_rules : ∀ p ∈ appConfig.defaults, p.1 = "vlm_rules" →
    p.2 = .list defaultVlmRules := by
  simp [appConfig, Fields.defaults, Fields.dataclass, Fields.listOf]

theorem loadDataclassFromDict_map :
    loadDataclassFromDict py appConfig (.map entries) =
      (appConfig.loadFields py entries).map .record := by
  cases entries with
  | nil =>
    rw [loadFields_nil]
    rfl
  | cons entry entries => rfl

theorem fromYaml_of_contains {loaded data : Yaml} {b : Bool}
    (hdata : (if loaded.truthy then loaded else .map []) = data)
    (hload : loadDataclassFromDict py appConfig data =
      (appConfig.loadFields py entries).map .record)
    (hcontains : contains "vlm_rules" data = .ok b)
    (hgiven : b = false → Yaml.lookup entries "vlm_rules" = none) :
    fromYaml py (some loaded) = (appConfig.loadFields py entries).map .record := by
  simp only [fromYaml, hdata, hload, hcontains]
  cases hvalues : appConfig.loadFields py entries with
  | error e => rfl
  | ok values =>
    cases b with
    | true => rfl
    | false => exact congrArg Except.ok (setattr_default hvalues (hgiven rfl) appConfig_rules)

/-- A document is loaded from the values it gives. -/
theorem fromYaml_eq {document : Option Yaml} (h : documentEntries document = some entries) :
    fromYaml py document = (appConfig.loadFields py entries).map .record := by
  have hempty {loaded : Yaml} (hfalse : loaded.truthy = false) :
      fromYaml py (some loaded) = (appConfig.loadFields py []).map .record :=
    fromYaml_of_contains (if_neg (by simp [hfalse])) loadDataclassFromDict_map rfl fun _ => rfl
  cases document with
  | none =>
    cases h
    rw [loadFields_nil]
    rfl
  | some loaded =>
    cases htruthy : loaded.truthy with
    | false =>
      simp only [documentEntries, htruthy, Bool.false_eq_true, if_false] at h
      cases h
      exact hempty htruthy
    | true =>
      simp only [documentEntries, htruthy, if_true] at h
      cases loaded
      case map given =>
        cases h
        exact fromYaml_of_contains (if_pos htruthy) loadDataclassFromDict_map rfl fun hnone => by
          simpa using hnone
      case list | str =>
        cases h
        exact fromYaml_of_contains (if_pos htruthy) (loadFields_nil appConfig ▸ rfl) rfl fun _ => rfl
      all_goals cases h

/-- Other documents cannot be searched for the rules. -/
theorem fromYaml_error {document : Option Yaml} (h : documentEntries document = none) :
    fromYaml py document = .error .typeError := by
  cases document with
  | none => cases h
  | some loaded =>
    cases htruthy : loaded.truthy with
    | false =>
      simp only [documentEntries, htruthy, Bool.false_eq_true, if_false] at h
      cases h
    | true =>
      simp only [documentEntries, htruthy, if_true] at h
      simp only [fromYaml, htruthy, if_true]
      cases loaded
      case map | list | str => cases h
      all_goals rfl

end

/-! ## Main result -/

section

variable (env : Environment) (document : Option Yaml)

/-- Loading ends in a `ConfigError`, or every field at every level has its type. -/
def Sound : Prop :=
  (load env document).Ends (FieldType.dataclass appConfig).Has fun e => ∃ c, e = .configError c

/-- No number overflows, and the checks end in a complaint, or pass where all values convert. -/
def WellGiven : Prop :=
  ∃ entries, documentEntries document = some entries ∧ appConfig.Loads env.py entries ∧
    (verdict env entries = .complains ∨
      verdict env entries = .passes ∧ appConfig.Converts env.py entries)

variable {env document}

theorem sound_of_loadFields {values : List (String × Obj)}
    (h : fromYaml env.py document = .ok (.record values)) :
    Sound env document ↔ verdictOf (validate env (.record values)) = .complains ∨
      verdictOf (validate env (.record values)) = .passes ∧ appConfig.Has values := by
  have hload : load env document = (do
      validate env (.record values)
      return .record values) := by
    rw [load, h]
    rfl
  rw [Sound, hload]
  rcases validate env (.record values) with (e | e) | ⟨⟩
  · exact iff_of_true ⟨e, rfl⟩ (.inl rfl)
  · refine iff_of_false ?_ ?_
    · rintro ⟨c, ⟨⟩⟩
    · rintro (⟨⟨⟩⟩ | ⟨⟨⟩, -⟩)
  · constructor
    · intro hhas
      exact .inr ⟨rfl, hhas⟩
    · rintro (⟨⟨⟩⟩ | ⟨-, hhas⟩)
      exact hhas

theorem sound_iff_of_entries {entries : List (Yaml × Yaml)}
    (hentries : documentEntries document = some entries) :
    Sound env document ↔ appConfig.Loads env.py entries ∧
      (verdict env entries = .complains ∨
        verdict env entries = .passes ∧ appConfig.Converts env.py entries) := by
  have hsound : appConfig.Sound env.py := appConfig.sound appConfig_typed
  have hends := hsound entries
  have hload : fromYaml env.py document = (appConfig.loadFields env.py entries).map .record :=
    fromYaml_eq hentries
  cases hvalues : appConfig.loadFields env.py entries with
  | error e =>
    rw [hvalues] at hload hends
    refine iff_of_false ?_ fun h => hends h.1
    rw [Sound, load, hload]
    rintro ⟨c, ⟨⟩⟩
  | ok values =>
    rw [hvalues] at hload hends
    rw [sound_of_loadFields hload, verdictOf_validate hvalues, hends.2]
    exact (and_iff_right hends.1).symm

/-- Loading is sound for the documents that are well given, and for no others. -/
theorem sound_iff_wellGiven (env : Environment) (document : Option Yaml) :
    Sound env document ↔ WellGiven env document := by
  cases hentries : documentEntries document with
  | none =>
    have hload : load env document = .error (.other .typeError) := by
      rw [load, fromYaml_error hentries]
      rfl
    rw [Sound, hload]
    refine iff_of_false ?_ ?_
    · rintro ⟨c, ⟨⟩⟩
    · rintro ⟨entries, hsome, -⟩
      cases hentries.symm.trans hsome
  | some entries =>
    simp only [sound_iff_of_entries hentries, WellGiven, hentries, Option.some.injEq,
      exists_eq_left']

/-! ### A section that is null -/

/-- Nothing is read or printed, and no path exists. -/
def bareEnvironment : Environment where
  py :=
    { intOf := fun _ => none
      floatOf := fun _ => none
      intOfBytes := fun _ => none
      floatOfBytes := fun _ => none
      print := fun _ => none }
  pathExists _ := .ok false

/-- `logging:` -/
def nullLogging : List (Yaml × Yaml) := [(.str "logging", .null)]

theorem not_converts_nullLogging : ¬ appConfig.Converts bareEnvironment.py nullLogging :=
  fun h => h.2.1 .null rfl

/-- The section is left as null, and no check reads it. -/
theorem not_sound_nullLogging : ¬ Sound bareEnvironment (some (.map nullLogging)) := by
  have hentries : documentEntries (some (.map nullLogging)) = some nullLogging := rfl
  rw [sound_iff_of_entries hentries]
  rintro ⟨-, h | ⟨-, h⟩⟩
  · have hverdict : verdict bareEnvironment nullLogging = .passes := by decide
    cases hverdict.symm.trans h
  · exact not_converts_nullLogging h

/-- A port that is a text is read before anything complains. -/
example : verdict bareEnvironment
    [(.str "metrics", .map [(.str "port", .str "none")])] = .breaks := by decide

end

end ConfigLoader
