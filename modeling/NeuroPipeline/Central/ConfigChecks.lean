-- SUMMARY: Where the checks of a configuration end, read off its document: each check of what was loaded against the values given for it.
import NeuroPipeline.Central.ConfigSchema

/-!
# Checks of the loaded configuration

`verdict` reads a document in the order of the checks and says where they end, without
loading it. The loaded configuration is checked to the same end.
-/

open CFloat (const)

namespace ConfigLoader

/-! ## Declared classes -/

section Typed

variable {name : String} {rest cls : Fields}

@[simp] theorem typed_bool {default : Bool} : (rest.bool name default).Typed ↔ rest.Typed :=
  ⟨fun h => h.2.2, fun h => ⟨trivial, trivial, h⟩⟩

@[simp] theorem typed_int {default : Int} : (rest.int name default).Typed ↔ rest.Typed :=
  ⟨fun h => h.2.2, fun h => ⟨trivial, trivial, h⟩⟩

@[simp] theorem typed_float {default : ℚ} : (rest.float name default).Typed ↔ rest.Typed :=
  ⟨fun h => h.2.2, fun h => ⟨trivial, trivial, h⟩⟩

@[simp] theorem typed_str {default : String} : (rest.str name default).Typed ↔ rest.Typed :=
  ⟨fun h => h.2.2, fun h => ⟨trivial, trivial, h⟩⟩

theorem Fields.Typed.has_defaults {fields : Fields} (h : fields.Typed) :
    fields.Has fields.defaults := by
  induction fields using Fields.defaults.induct with
  | case1 => rfl
  | case2 name type default rest ih => exact has_cons.mpr ⟨h.1, ih h.2.2⟩

@[simp] theorem typed_dataclass : (Fields.dataclass name cls rest).Typed ↔ cls.Typed ∧ rest.Typed :=
  ⟨fun h => h.2, fun h => ⟨h.1.has_defaults, h⟩⟩

@[simp] theorem typed_listOf {default : List Obj} : (Fields.listOf name cls default rest).Typed ↔
    (∀ o ∈ default, ∃ values, o = .record values ∧ cls.Has values) ∧ cls.Typed ∧ rest.Typed :=
  Iff.rfl

theorem vlmRuleConfig_typed : vlmRuleConfig.Typed := by
  simp [vlmRuleConfig, Fields.Typed]

/-- Every default of the configuration has its type. -/
theorem appConfig_typed : appConfig.Typed := by
  have hrules : ∀ o ∈ defaultVlmRules, ∃ values, o = .record values ∧ vlmRuleConfig.Has values := by
    intro o ho
    obtain rfl := List.mem_singleton.mp ho
    exact ⟨_, rfl, vlmRuleConfig_typed.has_defaults⟩
  simpa [appConfig, centralConfig, loggingConfig, tlsConfig, storageConfig, metricsConfig,
    alertingConfig, circuitBreakerConfig, tracingConfig, batchConfig, sessionConfig,
    cloudStorageConfig, rateLimitingConfig, modelManagementConfig, reasoningConfig, ragConfig,
    abTestConfig, anomalyConfig, reIDConfig, timeSeriesConfig, autoAnnotatorConfig,
    reportingConfig, vlmConfigGuideConfig, vlmModelConfig, alertRuleConfig, alertRouteConfig,
    vlmRuleConfig_typed, Fields.Typed] using hrules

end Typed

/-! ## Checks of a document -/

/-- Where checks end: after the last one, in a `ConfigError`, or in another error. -/
inductive Verdict where
  | passes
  | complains
  | breaks
  deriving DecidableEq

namespace Verdict

/-- The checks of `v`, and then those of `w`. -/
def next (v w : Verdict) : Verdict :=
  match v with
  | .passes => w
  | .complains => .complains
  | .breaks => .breaks

end Verdict

section

variable (env : Environment)

/-- A `ConfigError` with `v` in its message, which has to be printed first. -/
def complaintOn (v : Yaml) : Verdict :=
  match v.toStr env.py with
  | .ok _ => .complains
  | .error _ => .breaks

def isNan : Yaml → Bool
  | .float .nan => true
  | _ => false

/-- A number given for an integer. What does not convert cannot be compared, but for a NaN,
which no comparison holds of. -/
def intVerdict (ok : Int → Bool) (nan : Verdict) : Option Yaml → Verdict
  | none => .passes
  | some v =>
    match v.toInt env.py with
    | .ok n => if ok n then .passes else complaintOn env (.int n)
    | .error _ => if isNan v then nan else .breaks

def portVerdict (given : Option Yaml) : Verdict :=
  intVerdict env (fun n => 1 ≤ n && n ≤ 65535) (complaintOn env (.float .nan)) given

def maxDevicesVerdict (given : Option Yaml) : Verdict :=
  intVerdict env (fun n => !decide (n ≤ 0)) .passes given

def floatVerdict (ok : Binary64 → Bool) : Option Yaml → Verdict
  | none => .passes
  | some v =>
    match v.toFloat env.py with
    | .ok x => if ok x then .passes else complaintOn env (.float x)
    | .error _ => .breaks

def timeoutVerdict (given : Option Yaml) : Verdict :=
  floatVerdict env (fun x => !decide (x ≤ const 0)) given

def confidenceVerdict (given : Option Yaml) : Verdict :=
  floatVerdict env (fun x => decide (const 0 ≤ x) && decide (x ≤ const 1)) given

/-- The rules of a list are its mappings; what is not a list must be empty to loop over. -/
def rulesVerdict : Option Yaml → Verdict
  | none => .passes
  | some (.list items) =>
    (items.filterMap Yaml.mapEntries).foldr
      (fun rule v => (confidenceVerdict env (Yaml.lookup rule "min_confidence")).next v) .passes
  | some (.str s) => if s = "" then .passes else .breaks
  | some (.bytes b) => if b.isEmpty then .passes else .breaks
  | some (.map entries) => if entries.isEmpty then .passes else .breaks
  | some _ => .breaks

/-- A path that is not given, or null, does not exist. -/
def pathVerdict : Option Yaml → Verdict
  | none => complaintOn env (.str "")
  | some .null => complaintOn env .null
  | some v =>
    match v.toStr env.py with
    | .error _ => .breaks
    | .ok s =>
      if s = "" then .complains
      else
        match env.pathExists s with
        | .ok true => .passes
        | .ok false => .complains
        | .error _ => .breaks

/-- A switch is on if it is given and true. -/
def isOn (given : Option Yaml) : Bool := given.any Yaml.truthy

def tlsVerdict (tls : List (Yaml × Yaml)) : Verdict :=
  if isOn (Yaml.lookup tls "enabled") then
    (pathVerdict env (Yaml.lookup tls "ca_cert")).next <|
    (pathVerdict env (Yaml.lookup tls "server_cert")).next <|
    pathVerdict env (Yaml.lookup tls "server_key")
  else .passes

def modeVerdict : Option Yaml → Verdict
  | none => .passes
  | some .null => complaintOn env .null
  | some v =>
    match v.toStr env.py with
    | .ok s => if s = "llm" ∨ s = "vlm" then .passes else .complains
    | .error _ => .breaks

/-- A bucket must be given and not be empty. -/
def nonEmptyVerdict : Option Yaml → Verdict
  | none | some .null => .complains
  | some v =>
    match v.toStr env.py with
    | .ok s => if s = "" then .complains else .passes
    | .error _ => if v.truthy then .passes else .complains

def bucketVerdict (cloudStorage : List (Yaml × Yaml)) : Verdict :=
  if isOn (Yaml.lookup cloudStorage "enabled") then
    nonEmptyVerdict env (Yaml.lookup cloudStorage "bucket")
  else .passes

/-- The values given in a section; one that is not a mapping has no attributes. -/
def inSection (entries : List (Yaml × Yaml)) (name : String)
    (k : List (Yaml × Yaml) → Verdict) : Verdict :=
  match Yaml.lookup entries name with
  | none => k []
  | some (.map given) => k given
  | some _ => .breaks

/-- Where the checks of a document end. -/
def verdict (entries : List (Yaml × Yaml)) : Verdict :=
  inSection entries "central" fun central =>
  inSection entries "metrics" fun metrics =>
  (portVerdict env (Yaml.lookup central "port")).next <|
  (portVerdict env (Yaml.lookup metrics "port")).next <|
  (rulesVerdict env (Yaml.lookup entries "vlm_rules")).next <|
  inSection entries "circuit_breaker" fun circuitBreaker =>
  inSection entries "sessions" fun sessions =>
  inSection entries "batch" fun batch =>
  (timeoutVerdict env (Yaml.lookup circuitBreaker "recovery_timeout")).next <|
  (timeoutVerdict env (Yaml.lookup sessions "expiry_timeout")).next <|
  (timeoutVerdict env (Yaml.lookup batch "timeout_seconds")).next <|
  inSection entries "tls" fun tls =>
  (tlsVerdict env tls).next <|
  (modeVerdict env (Yaml.lookup central "inference_mode")).next <|
  (maxDevicesVerdict env (Yaml.lookup sessions "max_devices")).next <|
  inSection entries "cloud_storage" (bucketVerdict env)

end

/-! ## Checks of what was loaded -/

def verdictOf (x : Except Raised Unit) : Verdict :=
  match x with
  | .ok () => .passes
  | .error (.configError _) => .complains
  | .error (.other _) => .breaks

section

variable {env : Environment} {x : Except Raised Unit}

theorem verdictOf_seq {y : Except Raised Unit} :
    verdictOf (x >>= fun _ => y) = (verdictOf x).next (verdictOf y) := by
  rcases x with (e | e) | u <;> rfl

theorem verdictOf_complain {field : String} {v : Yaml} {complaint : String → String} :
    verdictOf (complain env field (.yaml v) complaint) = complaintOn env v := by
  rw [complain, Obj.format, complaintOn]
  cases v.toStr env.py <;> rfl

/-- A scalar that is loaded is converted, or kept where the conversion refuses it. -/
theorem coerceScalar_eq_ok {t : ScalarType} {raw w : Yaml}
    (h : coerceScalar env.py raw t = .ok w) :
    t.convert env.py raw = .ok w ∧ raw ≠ .null ∨
      w = raw ∧ (raw = .null ∨ ∃ e, t.convert env.py raw = .error e) ∧
        ¬ t.Overflows env.py raw := by
  have hload : (coerceScalar env.py raw t).Ends
      (fun v => ¬ t.Overflows env.py raw ∧ (t.Has v ↔ t.Converts env.py raw))
      fun _ => t.Overflows env.py raw := ends_coerceScalar
  rw [h, Except.ends_ok] at hload
  by_cases hnull : raw = .null
  · subst hnull
    cases h
    exact .inr ⟨rfl, .inl rfl, hload.1⟩
  · rw [coerceScalar_of_ne_null hnull] at h
    cases hc : t.convert env.py raw with
    | ok v =>
      rw [hc] at h
      cases h
      exact .inl ⟨rfl, hnull⟩
    | error e =>
      rw [hc] at h
      refine .inr ⟨?_, .inr ⟨e, rfl⟩, hload.1⟩
      cases e <;> cases h <;> rfl

/-- A value that no comparison takes. -/
def Incomparable (v : Yaml) : Prop :=
  (∀ lo hi, (Obj.yaml v).inRange lo hi = .error .typeError) ∧
    (Obj.yaml v).notPositive = .error .typeError

theorem Incomparable.isNan {v : Yaml} (h : Incomparable v) : ConfigLoader.isNan v = false := by
  cases v
  case float x => cases h.2
  all_goals rfl

theorem inRange_nan (lo hi : Int) : (Obj.yaml (.float .nan)).inRange lo hi = .ok false := by
  have hnot : ¬ (const lo : Binary64) ≤ .nan := fun h => (BinaryFloat.ne_nan_of_le h).2 rfl
  simp only [Obj.inRange, decide_eq_false hnot, Bool.false_and]

theorem notPositive_nan : (Obj.yaml (.float .nan)).notPositive = .ok false := by
  have hnot : ¬ (.nan : Binary64) ≤ const 0 := fun h => (BinaryFloat.ne_nan_of_le h).1 rfl
  simp only [Obj.notPositive, decide_eq_false hnot]

/-- What is kept has not been converted, which nothing is either. -/
theorem exists_error_of_kept {A : Type} {x : Except PyError A} {f : A → Yaml} {w : Yaml}
    (h : w = .null ∨ ∃ e, x.map f = .error e) (hnull : w = .null → ∃ e, x = .error e) :
    ∃ e, x = .error e := by
  rcases h with hw | ⟨e, he⟩
  · exact hnull hw
  · exact ⟨e, Except.map_eq_error.mp he⟩

/-- What is kept for an integer cannot be compared, or is a NaN. -/
theorem coerceInt_eq_ok {raw w : Yaml} (h : coerceScalar env.py raw .int = .ok w) :
    (∃ n, raw.toInt env.py = .ok n ∧ w = .int n) ∨
      (∃ e, raw.toInt env.py = .error e) ∧ w = raw ∧ (raw = .float .nan ∨ Incomparable raw) := by
  obtain ⟨hconvert, -⟩ | ⟨rfl, hfail, hload⟩ := coerceScalar_eq_ok h
  · obtain ⟨n, hn, hw⟩ := Except.map_eq_ok.mp hconvert
    exact .inl ⟨n, hn, hw.symm⟩
  · have herror : ∃ e, w.toInt env.py = .error e :=
      exists_error_of_kept hfail fun hw => hw ▸ ⟨_, rfl⟩
    refine .inr ⟨herror, rfl, ?_⟩
    obtain ⟨e, he⟩ := herror
    cases w
    case bool | int => cases he
    case float x =>
      cases x with
      | nan => exact .inl rfl
      | inf negative => exact absurd rfl hload
      | finite q hq => cases he
    all_goals exact .inr ⟨fun _ _ => rfl, rfl⟩

theorem coerceFloat_eq_ok {raw w : Yaml} (h : coerceScalar env.py raw .float = .ok w) :
    (∃ x, raw.toFloat env.py = .ok x ∧ w = .float x) ∨
      (∃ e, raw.toFloat env.py = .error e) ∧ w = raw ∧ Incomparable raw := by
  obtain ⟨hconvert, -⟩ | ⟨rfl, hfail, hload⟩ := coerceScalar_eq_ok h
  · obtain ⟨n, hn, hw⟩ := Except.map_eq_ok.mp hconvert
    exact .inl ⟨n, hn, hw.symm⟩
  · have herror : ∃ e, w.toFloat env.py = .error e :=
      exists_error_of_kept hfail fun hw => hw ▸ ⟨_, rfl⟩
    refine .inr ⟨herror, rfl, ?_⟩
    obtain ⟨e, he⟩ := herror
    cases w
    case bool | float => cases he
    case int n =>
      have hover := ends_toFloat_int env.py n
      rw [he, Except.ends_error] at hover
      subst hover
      exact absurd (Except.map_eq_error.mpr he) hload
    all_goals exact ⟨fun _ _ => rfl, rfl⟩

theorem coerceStr_eq_ok {raw w : Yaml} (h : coerceScalar env.py raw .str = .ok w) :
    (∃ s, raw.toStr env.py = .ok s ∧ w = .str s) ∧ raw ≠ .null ∨
      w = raw ∧ (raw = .null ∨ ∃ e, raw.toStr env.py = .error e) := by
  obtain ⟨hconvert, hnull⟩ | ⟨rfl, hfail, -⟩ := coerceScalar_eq_ok h
  · obtain ⟨s, hs, hw⟩ := Except.map_eq_ok.mp hconvert
    exact .inl ⟨⟨s, hs, hw.symm⟩, hnull⟩
  · refine .inr ⟨rfl, hfail.imp_right ?_⟩
    rintro ⟨e, he⟩
    exact ⟨e, Except.map_eq_error.mp he⟩

theorem truthy_coerceBool {raw w : Yaml} (h : coerceScalar env.py raw .bool = .ok w) :
    w.truthy = raw.truthy := by
  cases raw
  all_goals cases h; rfl

/-- A field of a scalar type: its default, or what is loaded for a given value. -/
def LoadedAs (env : Environment) (t : ScalarType) (default : Yaml) (given : Option Yaml) (o : Obj) :
    Prop :=
  (given.elim (.ok (.yaml default)) fun raw => (FieldType.scalar t).coerceValue env.py raw) = .ok o

theorem LoadedAs.cases {t : ScalarType} {default : Yaml} {given : Option Yaml} {o : Obj}
    (h : LoadedAs env t default given o) : given = none ∧ o = .yaml default ∨
      ∃ raw w, given = some raw ∧ o = .yaml w ∧ coerceScalar env.py raw t = .ok w := by
  cases given with
  | none =>
    cases h
    exact .inl ⟨rfl, rfl⟩
  | some raw =>
    obtain ⟨w, hw, rfl⟩ := Except.map_eq_ok.mp h
    exact .inr ⟨raw, w, rfl, rfl, hw⟩

/-! ### Scalars -/

section

variable {name : String} {given : Option Yaml} {o : Obj}

theorem verdictOf_ite {c : Except PyError Bool} {x y : Except Raised Unit} :
    verdictOf (do if ← lift c then x else y) =
      match c with
      | .ok b => if b then verdictOf x else verdictOf y
      | .error _ => .breaks := by
  rcases c with e | b
  · rfl
  · cases b <;> rfl

theorem verdictOf_checkPort {default : Int} (h : LoadedAs env .int (.int default) given o)
    (hdefault : (1 ≤ default && default ≤ 65535) = true) :
    verdictOf (checkPort env name o) = portVerdict env given := by
  rw [checkPort, verdictOf_ite]
  obtain ⟨rfl, rfl⟩ | ⟨raw, w, rfl, rfl, hw⟩ := h.cases
  · simp only [Obj.inRange, hdefault, portVerdict, intVerdict]
    rfl
  · rw [verdictOf_complain, portVerdict, intVerdict]
    obtain ⟨n, hn, rfl⟩ | ⟨⟨e, he⟩, rfl, rfl | hcompare⟩ := coerceInt_eq_ok hw
    · simp only [hn, Obj.inRange]
      rfl
    · rw [inRange_nan, he]
      rfl
    · simp only [he, hcompare.1, hcompare.isNan]
      rfl

theorem verdictOf_checkMaxDevices {default : Int} (h : LoadedAs env .int (.int default) given o)
    (hdefault : decide (default ≤ 0) = false) :
    verdictOf (checkPositive env name o) = maxDevicesVerdict env given := by
  rw [checkPositive, verdictOf_ite]
  obtain ⟨rfl, rfl⟩ | ⟨raw, w, rfl, rfl, hw⟩ := h.cases
  · simp only [Obj.notPositive, hdefault, maxDevicesVerdict, intVerdict]
    rfl
  · rw [verdictOf_complain, maxDevicesVerdict, intVerdict]
    obtain ⟨n, hn, rfl⟩ | ⟨⟨e, he⟩, rfl, rfl | hcompare⟩ := coerceInt_eq_ok hw
    · simp only [hn, Obj.notPositive]
      cases decide (n ≤ 0) <;> rfl
    · rw [notPositive_nan, he]
      rfl
    · simp only [he, hcompare.2, hcompare.isNan]
      rfl

theorem verdictOf_checkTimeout {default : Binary64}
    (h : LoadedAs env .float (.float default) given o)
    (hdefault : decide (default ≤ const 0) = false) :
    verdictOf (checkPositive env name o) = timeoutVerdict env given := by
  rw [checkPositive, verdictOf_ite]
  obtain ⟨rfl, rfl⟩ | ⟨raw, w, rfl, rfl, hw⟩ := h.cases
  · simp only [Obj.notPositive, hdefault, timeoutVerdict, floatVerdict]
    rfl
  · rw [verdictOf_complain, timeoutVerdict, floatVerdict]
    obtain ⟨x, hx, rfl⟩ | ⟨⟨e, he⟩, rfl, hcompare⟩ := coerceFloat_eq_ok hw
    · simp only [hx, Obj.notPositive]
      cases decide (x ≤ const 0) <;> rfl
    · simp only [he, hcompare.2]

theorem verdictOf_lift_bind {α : Type} {c : Except PyError α} {k : α → Except Raised Unit} :
    verdictOf (lift c >>= k) =
      match c with
      | .ok a => verdictOf (k a)
      | .error _ => .breaks := by
  cases c <;> rfl

theorem verdictOf_lift_ok {α : Type} {c : Except PyError α} {a : α} (h : c = .ok a)
    {k : α → Except Raised Unit} : verdictOf (lift c >>= k) = verdictOf (k a) := by
  rw [h]
  rfl

theorem verdictOf_checkPath (h : LoadedAs env .str (.str "") given o) :
    verdictOf (checkPath env name o) = pathVerdict env given := by
  rw [checkPath, verdictOf_ite]
  obtain ⟨rfl, rfl⟩ | ⟨raw, w, rfl, rfl, hw⟩ := h.cases
  · have hmissing : missing env (.yaml (.str "")) = .ok true := rfl
    simp only [hmissing, if_true]
    exact verdictOf_complain
  · rw [verdictOf_complain]
    obtain ⟨⟨s, hs, rfl⟩, hnull⟩ | ⟨rfl, rfl | ⟨e, he⟩⟩ := coerceStr_eq_ok hw
    · have hverdict : pathVerdict env (some raw) =
          if s = "" then .complains
          else
            match env.pathExists s with
            | .ok true => .passes
            | .ok false => .complains
            | .error _ => .breaks := by
        cases raw
        case null => exact absurd rfl hnull
        all_goals simp only [pathVerdict, hs]
      rw [hverdict]
      by_cases hempty : s = ""
      · subst hempty
        rfl
      · simp only [missing, Obj.truthy, Yaml.truthy, hempty, ne_eq, not_false_eq_true, decide_true,
          if_true, if_false]
        rcases env.pathExists s with e | found
        · rfl
        · cases found <;> rfl
    · rfl
    · have hcomplaint : complaintOn env w = .breaks := by
        simp only [complaintOn, he]
      have hmissing : missing env (.yaml w) = if w.truthy then .error .typeError else .ok true := by
        cases w
        case str s => cases he
        all_goals rfl
      have hverdict : pathVerdict env (some w) = .breaks := by
        cases w
        case null => exact hcomplaint
        all_goals simp only [pathVerdict, he]
      rw [hmissing, hcomplaint, hverdict]
      cases w.truthy <;> rfl

theorem checkMode_of_ne {v : Yaml} (hllm : v ≠ .str "llm") (hvlm : v ≠ .str "vlm") :
    verdictOf (checkMode env (.yaml v)) = complaintOn env v := by
  rw [checkMode]
  · exact verdictOf_complain
  · rintro ⟨⟩
    exact hllm rfl
  · rintro ⟨⟩
    exact hvlm rfl

theorem verdictOf_checkMode (h : LoadedAs env .str (.str "llm") given o) :
    verdictOf (checkMode env o) = modeVerdict env given := by
  obtain ⟨rfl, rfl⟩ | ⟨raw, w, rfl, rfl, hw⟩ := h.cases
  · rfl
  · obtain ⟨⟨s, hs, rfl⟩, hnull⟩ | ⟨rfl, hkept⟩ := coerceStr_eq_ok hw
    · have hverdict : modeVerdict env (some raw) =
          if s = "llm" ∨ s = "vlm" then .passes else .complains := by
        cases raw
        case null => exact absurd rfl hnull
        all_goals simp only [modeVerdict, hs]
      rw [hverdict]
      by_cases hmode : s = "llm" ∨ s = "vlm"
      · rw [if_pos hmode]
        obtain rfl | rfl := hmode <;> rfl
      · rw [if_neg hmode]
        apply checkMode_of_ne
        · rintro ⟨⟩
          exact hmode (.inl rfl)
        · rintro ⟨⟩
          exact hmode (.inr rfl)
    · have hne (s : String) : w ≠ .str s := by
        rintro rfl
        obtain ⟨⟨⟩⟩ | ⟨e, ⟨⟩⟩ := hkept
      rw [checkMode_of_ne (hne _) (hne _)]
      cases w
      case null => rfl
      case str s => exact absurd rfl (hne s)
      all_goals
        obtain ⟨⟨⟩⟩ | ⟨e, he⟩ := hkept
        simp only [complaintOn, modeVerdict, he]

theorem truthy_switch (h : LoadedAs env .bool (.bool false) given o) : o.truthy = isOn given := by
  obtain ⟨rfl, rfl⟩ | ⟨raw, w, rfl, rfl, hw⟩ := h.cases
  · rfl
  · exact truthy_coerceBool hw

theorem truthy_bucket (h : LoadedAs env .str (.str "") given o) :
    (if o.truthy then .passes else .complains) = nonEmptyVerdict env given := by
  obtain ⟨rfl, rfl⟩ | ⟨raw, w, rfl, rfl, hw⟩ := h.cases
  · rfl
  · obtain ⟨⟨s, hs, rfl⟩, hnull⟩ | ⟨rfl, hkept⟩ := coerceStr_eq_ok hw
    · have hverdict : nonEmptyVerdict env (some raw) =
          if s = "" then .complains else .passes := by
        cases raw
        case null => exact absurd rfl hnull
        all_goals simp only [nonEmptyVerdict, hs]
      rw [hverdict]
      by_cases hempty : s = ""
      · subst hempty
        rfl
      · simp only [Obj.truthy, Yaml.truthy, hempty, ne_eq, not_false_eq_true, decide_true,
          if_true, if_false]
    · cases w
      case null => rfl
      all_goals
        obtain ⟨⟨⟩⟩ | ⟨e, he⟩ := hkept
        simp only [nonEmptyVerdict, he, Obj.truthy]
        rfl

end

/-! ### Rules -/

section

variable {o : Obj} {entries : List (Yaml × Yaml)} {values : List (String × Obj)}

theorem verdictOf_checkConfidence {name : String} {default : Binary64} {given : Option Yaml}
    (h : LoadedAs env .float (.float default) given o)
    (hdefault : (decide (const 0 ≤ default) && decide (default ≤ const 1)) = true) :
    verdictOf (do
      if ← lift (o.inRange 0 1) then return ()
      else complain env name o fun text => s!" must be 0.0-1.0, got {text}") =
      confidenceVerdict env given := by
  rw [verdictOf_ite]
  obtain ⟨rfl, rfl⟩ | ⟨raw, w, rfl, rfl, hw⟩ := h.cases
  · simp only [Obj.inRange, Int.cast_zero, Int.cast_one, hdefault, confidenceVerdict, floatVerdict]
    rfl
  · rw [verdictOf_complain, confidenceVerdict, floatVerdict]
    obtain ⟨x, hx, rfl⟩ | ⟨⟨e, he⟩, rfl, hcompare⟩ := coerceFloat_eq_ok hw
    · simp only [hx, Obj.inRange, Int.cast_zero, Int.cast_one]
      rfl
    · simp only [he, hcompare.1]

theorem verdictOf_checkRule {i : Nat} (h : vlmRuleConfig.loadFields env.py entries = .ok values) :
    verdictOf (checkRule env i (.record values)) =
      confidenceVerdict env (Yaml.lookup entries "min_confidence") := by
  have hfield : vlmRuleConfig.lookup "min_confidence" =
      some (.scalar .float, .yaml (.float (const 0.8))) := rfl
  obtain ⟨confidence, hattr, hloaded⟩ := attr_loadFields h hfield
  rw [checkRule, hattr, verdictOf_lift_bind]
  exact verdictOf_checkConfidence hloaded (by decide +kernel)

theorem verdictOf_checkRules {rules : List Obj} {l : List (List (Yaml × Yaml))} {i : Nat}
    (h : List.Forall₂ (fun entries rule =>
      (vlmRuleConfig.loadFields env.py entries).map .record = .ok rule) l rules) :
    verdictOf (checkRules env i rules) = l.foldr (fun rule v =>
      (confidenceVerdict env (Yaml.lookup rule "min_confidence")).next v) .passes := by
  induction h generalizing i with
  | nil => rfl
  | cons hrule _ ih =>
    obtain ⟨values, hvalues, rfl⟩ := Except.map_eq_ok.mp hrule
    rw [checkRules, verdictOf_seq, verdictOf_checkRule hvalues, ih]
    rfl

/-- A value of a document is not a rule. -/
theorem verdictOf_checkRules_yaml {α : Type} {f : α → Yaml} {l : List α} :
    verdictOf (checkRules env 0 (l.map fun a => .yaml (f a))) =
      if l.isEmpty then .passes else .breaks := by
  cases l <;> rfl

/-- What the checks see of a field with rules. -/
theorem verdictOf_rules {given : Option Yaml}
    (h : (given.elim (.ok (.list defaultVlmRules)) fun raw =>
      (FieldType.listOfClass vlmRuleConfig).coerceValue env.py raw) = .ok o) :
    verdictOf (do checkRules env 0 (← lift o.iterate)) = rulesVerdict env given := by
  rw [verdictOf_lift_bind]
  cases given with
  | none =>
    cases h
    have hrule : (vlmRuleConfig.loadFields env.py []).map Obj.record =
        .ok (.record vlmRuleConfig.defaults) := by
      rw [loadFields_nil]
      rfl
    exact verdictOf_checkRules (.cons hrule .nil)
  | some raw =>
    cases raw
    case list items =>
      obtain ⟨rules, hrules, rfl⟩ := Except.map_eq_ok.mp h
      exact verdictOf_checkRules (Except.forall₂_of_mapM hrules)
    case str s =>
      cases h
      by_cases hempty : s = ""
      · subst hempty
        rfl
      · have hchars : s.toList.isEmpty = false := by
          rw [List.isEmpty_eq_false_iff]
          intro hnil
          exact hempty (by rw [← String.ofList_toList (s := s), hnil])
        rw [rulesVerdict, if_neg hempty]
        exact verdictOf_checkRules_yaml.trans (by rw [hchars]; rfl)
    case bytes b =>
      cases h
      exact verdictOf_checkRules_yaml
    case map entries =>
      cases h
      exact verdictOf_checkRules_yaml
    all_goals
      cases h
      rfl

end

/-! ### Sections -/

section

variable {entries : List (Yaml × Yaml)} {values : List (String × Obj)} {name : String} {cls : Fields}

/-- What a section of a configuration is: loaded from the values given in it, or something
without attributes. -/
theorem attr_section (h : appConfig.loadFields env.py entries = .ok values)
    (hfield : appConfig.lookup name = some (.dataclass cls, .record cls.defaults)) :
    (∃ given fields, (∀ k, inSection entries name k = k given) ∧
      cls.loadFields env.py given = .ok fields ∧
      (Obj.record values).attr name = .ok (.record fields)) ∨
    (∀ k, inSection entries name k = .breaks) ∧
      ∃ raw, (Obj.record values).attr name = .ok (.yaml raw) := by
  obtain ⟨o, hattr, hloaded⟩ := attr_loadFields h hfield
  cases hgiven : Yaml.lookup entries name with
  | none =>
    rw [hgiven] at hloaded
    cases hloaded
    refine .inl ⟨[], cls.defaults, fun k => ?_, loadFields_nil cls, hattr⟩
    rw [inSection, hgiven]
  | some raw =>
    rw [hgiven] at hloaded
    cases raw
    case map given =>
      obtain ⟨fields, hfields, rfl⟩ := Except.map_eq_ok.mp hloaded
      refine .inl ⟨given, fields, fun k => ?_, hfields, hattr⟩
      rw [inSection, hgiven]
    all_goals
      cases hloaded
      refine .inr ⟨fun k => ?_, _, hattr⟩
      rw [inSection, hgiven]

end

/-- The attributes of a section that was loaded from the values `given` in it. -/
structure IsSection (env : Environment) (cfg : Obj) (name : String) (cls : Fields)
    (given : List (Yaml × Yaml)) (fields : List (String × Obj)) : Prop where
  attr_eq : cfg.attr name = .ok (.record fields)
  loaded : cls.loadFields env.py given = .ok fields

theorem IsSection.exists_attr {cfg : Obj} {given : List (Yaml × Yaml)} {fields : List (String × Obj)}
    {key : String} {t : ScalarType} {default : Yaml}
    (h : IsSection env cfg name cls given fields)
    (hfield : cls.lookup key = some (.scalar t, .yaml default)) :
    ∃ o, (Obj.record fields).attr key = .ok o ∧
      LoadedAs env t default (Yaml.lookup given key) o :=
  attr_loadFields h.loaded hfield

theorem IsSection.read_eq {cfg o : Obj} {given : List (Yaml × Yaml)} {fields : List (String × Obj)}
    {key : String} (h : IsSection env cfg name cls given fields)
    (ho : (Obj.record fields).attr key = .ok o) : read cfg name key = .ok o := by
  rw [read, h.attr_eq]
  exact congrArg lift ho

theorem IsSection.verdictOf_checkTls {cfg : Obj} {tls : List (Yaml × Yaml)}
    {fields : List (String × Obj)} (h : IsSection env cfg name tlsConfig tls fields) :
    verdictOf (checkTls env (.record fields)) = tlsVerdict env tls := by
  have hswitch : tlsConfig.lookup "enabled" = some (.scalar .bool, .yaml (.bool false)) := rfl
  have hca : tlsConfig.lookup "ca_cert" = some (.scalar .str, .yaml (.str "")) := rfl
  have hcert : tlsConfig.lookup "server_cert" = some (.scalar .str, .yaml (.str "")) := rfl
  have hkey : tlsConfig.lookup "server_key" = some (.scalar .str, .yaml (.str "")) := rfl
  obtain ⟨enabled, henabled, hon⟩ := h.exists_attr hswitch
  obtain ⟨ca, hattr₁, h₁⟩ := h.exists_attr hca
  obtain ⟨cert, hattr₂, h₂⟩ := h.exists_attr hcert
  obtain ⟨key, hattr₃, h₃⟩ := h.exists_attr hkey
  rw [tlsVerdict, ← truthy_switch hon, checkTls, verdictOf_lift_ok henabled]
  cases enabled.truthy with
  | false => rfl
  | true =>
    simp only [if_true, verdictOf_lift_ok hattr₁, verdictOf_lift_ok hattr₂,
      verdictOf_lift_ok hattr₃, verdictOf_seq, verdictOf_checkPath h₁, verdictOf_checkPath h₂,
      verdictOf_checkPath h₃]

theorem IsSection.verdictOf_checkBucket {cfg : Obj} {cloudStorage : List (Yaml × Yaml)}
    {fields : List (String × Obj)}
    (h : IsSection env cfg name cloudStorageConfig cloudStorage fields) :
    verdictOf (checkBucket (.record fields)) = bucketVerdict env cloudStorage := by
  have hswitch : cloudStorageConfig.lookup "enabled" =
      some (.scalar .bool, .yaml (.bool false)) := rfl
  have hname : cloudStorageConfig.lookup "bucket" = some (.scalar .str, .yaml (.str "")) := rfl
  obtain ⟨enabled, henabled, hon⟩ := h.exists_attr hswitch
  obtain ⟨bucket, hbucket, hloaded⟩ := h.exists_attr hname
  rw [bucketVerdict, ← truthy_switch hon, ← truthy_bucket hloaded, checkBucket,
    verdictOf_lift_ok henabled]
  cases enabled.truthy with
  | false => rfl
  | true =>
    simp only [if_true, verdictOf_lift_ok hbucket]
    cases bucket.truthy <;> rfl

/-- An attribute of a section is there if the section is. -/
theorem verdictOf_attr (h : appConfig.loadFields env.py entries = .ok values)
    (hsection : appConfig.lookup name = some (.dataclass cls, .record cls.defaults))
    {k : Obj → Except Raised Unit} {k' : List (Yaml × Yaml) → Verdict}
    (hbreaks : ∀ raw, verdictOf (k (.yaml raw)) = .breaks)
    (hk : ∀ given fields, IsSection env (.record values) name cls given fields →
      verdictOf (k (.record fields)) = k' given) :
    verdictOf (do k (← lift ((Obj.record values).attr name))) = inSection entries name k' := by
  rw [verdictOf_lift_bind]
  obtain ⟨given, fields, hin, hfields, hattr⟩ | ⟨hin, raw, hattr⟩ := attr_section h hsection
  · rw [hin, hattr]
    exact hk given fields ⟨hattr, hfields⟩
  · rw [hin, hattr]
    exact hbreaks raw

theorem verdictOf_read (h : appConfig.loadFields env.py entries = .ok values)
    (hsection : appConfig.lookup name = some (.dataclass cls, .record cls.defaults))
    {key : String} {t : ScalarType} {default : Yaml}
    (hfield : cls.lookup key = some (.scalar t, .yaml default))
    {k : Obj → Except Raised Unit} {k' : List (Yaml × Yaml) → Verdict}
    (hk : ∀ given fields o, IsSection env (.record values) name cls given fields →
      LoadedAs env t default (Yaml.lookup given key) o → verdictOf (k o) = k' given) :
    verdictOf (read (.record values) name key >>= k) = inSection entries name k' := by
  rw [read, bind_assoc]
  apply verdictOf_attr h hsection
  · intro raw
    rfl
  · intro given fields hgiven
    obtain ⟨o, ho, hloaded⟩ := hgiven.exists_attr hfield
    rw [ho]
    exact hk given fields o hgiven hloaded

/-- The checks of a configuration end where those of its document do. -/
theorem verdictOf_validate (h : appConfig.loadFields env.py entries = .ok values) :
    verdictOf (validate env (.record values)) = verdict env entries := by
  have hrules : appConfig.lookup "vlm_rules" =
      some (.listOfClass vlmRuleConfig, .list defaultVlmRules) := rfl
  have hmodeField : centralConfig.lookup "inference_mode" =
      some (.scalar .str, .yaml (.str "llm")) := rfl
  have hdevicesField : sessionConfig.lookup "max_devices" =
      some (.scalar .int, .yaml (.int 16)) := rfl
  rw [validate, verdict]
  refine verdictOf_read h rfl rfl fun central _ centralPort hcentral hcentralPort => ?_
  refine verdictOf_read h rfl rfl fun metrics _ metricsPort _ hmetricsPort => ?_
  rw [verdictOf_seq, verdictOf_checkPort hcentralPort (by decide), verdictOf_seq,
    verdictOf_checkPort hmetricsPort (by decide)]
  congr 2
  obtain ⟨rules, hattr, hloaded⟩ := attr_loadFields h hrules
  rw [verdictOf_lift_ok hattr, ← bind_assoc, verdictOf_seq, verdictOf_rules hloaded]
  congr 1
  refine verdictOf_read h rfl rfl fun breaker _ recovery _ hrecovery => ?_
  refine verdictOf_read h rfl rfl fun sessions _ expiry hsessions hexpiry => ?_
  refine verdictOf_read h rfl rfl fun batch _ timeout _ htimeout => ?_
  rw [verdictOf_seq, verdictOf_checkTimeout hrecovery (by decide +kernel), verdictOf_seq,
    verdictOf_checkTimeout hexpiry (by decide +kernel), verdictOf_seq,
    verdictOf_checkTimeout htimeout (by decide +kernel)]
  congr 3
  refine verdictOf_attr h rfl (fun _ => rfl) fun tls _ htls => ?_
  obtain ⟨mode, hmode, hmodeLoaded⟩ := hcentral.exists_attr hmodeField
  obtain ⟨devices, hdevices, hdevicesLoaded⟩ := hsessions.exists_attr hdevicesField
  rw [hcentral.read_eq hmode, hsessions.read_eq hdevices, verdictOf_seq, htls.verdictOf_checkTls]
  simp only [Except.bind_ok]
  rw [verdictOf_seq, verdictOf_checkMode hmodeLoaded, verdictOf_seq,
    verdictOf_checkMaxDevices hdevicesLoaded (by decide)]
  congr 3
  exact verdictOf_attr h rfl (fun _ => rfl) fun _ _ hcloud => hcloud.verdictOf_checkBucket

end

end ConfigLoader
