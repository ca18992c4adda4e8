-- SUMMARY: Validation of a configuration by the dashboard: what it accepts, and which fields the loader can still complain of.
import NeuroPipeline.Central.ConfigSoundness
import NeuroPipeline.Integration.DashboardCommands
import NeuroPipeline.Lib.Rounding

/-!
# Validation of a configuration

Model of the dashboard's validators.py, beside the loader of the central service. Both check a
document before it is used, and each checks fields that the other does not.
-/

open CFloat (const)
open ConfigLoader (Raised Obj Environment)

/-! ## Values -/

namespace Json

def isStr (name : String) : Json → Bool
  | .str s => s = name
  | _ => false

/-- `isinstance(value, int)` -/
def isInt : Json → Bool
  | .bool _ | .int _ => true
  | _ => false

/-- `isinstance(value, (int, float))` -/
def isNumber : Json → Bool
  | .bool _ | .int _ | .float _ => true
  | _ => false

/-- `value < bound`, for a number -/
def lessThan (bound : Int) : Json → Bool
  | .bool b => b.toInt < bound
  | .int n => n < bound
  | .float x => x < const bound
  | _ => false

/-- `value <= bound` -/
def atMost (bound : Int) : Json → Bool
  | .bool b => b.toInt ≤ bound
  | .int n => n ≤ bound
  | .float x => x ≤ const bound
  | _ => false

/-- `value > bound` -/
def moreThan (bound : Int) : Json → Bool
  | .bool b => bound < b.toInt
  | .int n => bound < n
  | .float x => const bound < x
  | _ => false

/-- `value.get(name, {})` -/
def get (name : String) : Json → Except PyError Json
  | .dict items => .ok ((items.lookup name).getD (.dict []))
  | _ => .error .attributeError

/-- `value[name]`, where `name in value`. A list or a text that has the name in it cannot be
indexed with it. -/
def entry (name : String) : Json → Except PyError (Option Json)
  | .dict items => .ok (items.lookup name)
  | .list items => if items.any (isStr name) then .error .typeError else .ok none
  | .str s => if name.toList <:+: s.toList then .error .typeError else .ok none
  | .null | .bool _ | .int _ | .float _ => .error .typeError

mutual

/-- What `yaml.safe_load` reads of the text that `yaml.dump` writes, up to the order of keys. -/
def toYaml : Json → Yaml
  | .null => .null
  | .bool b => .bool b
  | .int n => .int n
  | .float x => .float x
  | .str s => .str s
  | .list items => .list (listToYaml items)
  | .dict items => .map (dictToYaml items)

def listToYaml : List Json → List Yaml
  | [] => []
  | v :: items => v.toYaml :: listToYaml items

def dictToYaml : List (String × Json) → List (Yaml × Yaml)
  | [] => []
  | (key, v) :: items => (.str key, v.toYaml) :: dictToYaml items

end

theorem lookup_dictToYaml {items : List (String × Json)} {name : String} :
    Yaml.lookup (dictToYaml items) name = (items.lookup name).map toYaml := by
  induction items with
  | nil => rfl
  | cons p items ih =>
      obtain ⟨key, v⟩ := p
      rw [dictToYaml, List.lookup_cons]
      by_cases hkey : name = key
      · subst hkey
        simp [Yaml.lookup, Yaml.isStr]
      · have hne : (name == key) = false := by simpa using hkey
        rw [hne, ← ih]
        simp [Yaml.lookup, Yaml.isStr, Ne.symm hkey]

end Json

namespace Validators

/-! ## Checks -/

/-- A check of a value, which is made where the value is given. -/
structure FieldCheck where
  name : String
  refuses : Json → Bool
  message : String

def FieldCheck.run (check : FieldCheck) (given : Json) : Except PyError (List String) :=
  (given.entry check.name).map fun value =>
    if value.any check.refuses then [check.message] else []

def fpsCheck : FieldCheck where
  name := "fps"
  refuses fps := !fps.isNumber || fps.atMost 0 || fps.moreThan 120
  message := "edge.fps must be between 1 and 120"

def confidenceCheck : FieldCheck where
  name := "confidence_threshold"
  refuses conf := !conf.isNumber || conf.lessThan 0 || conf.moreThan 1
  message := "edge.confidence_threshold must be between 0 and 1"

def nmsCheck : FieldCheck where
  name := "nms_threshold"
  refuses nms := !nms.isNumber || nms.lessThan 0 || nms.moreThan 1
  message := "edge.nms_threshold must be between 0 and 1"

def portCheck : FieldCheck where
  name := "port"
  refuses port := !port.isInt || port.lessThan 1 || port.moreThan 65535
  message := "central.port must be between 1 and 65535"

def modeCheck : FieldCheck where
  name := "inference_mode"
  refuses mode := !(mode.isStr "llm" || mode.isStr "vlm")
  message := "central.inference_mode must be 'llm' or 'vlm'"

def retentionCheck : FieldCheck where
  name := "retention_days"
  refuses days := !days.isNumber || days.lessThan 1
  message := "storage.retention_days must be at least 1"

def thresholdCheck : FieldCheck where
  name := "failure_threshold"
  refuses threshold := !threshold.isInt || threshold.lessThan 1
  message := "circuit_breaker.failure_threshold must be at least 1"

def timeoutCheck : FieldCheck where
  name := "recovery_timeout"
  refuses timeout := !timeout.isNumber || timeout.lessThan 1
  message := "circuit_breaker.recovery_timeout must be at least 1"

def splitCheck : FieldCheck where
  name := "traffic_split"
  refuses split := !split.isNumber || split.lessThan 0 || split.moreThan 1
  message := "ab_test.traffic_split must be between 0 and 1"

def zScoreCheck : FieldCheck where
  name := "z_score_threshold"
  refuses z := !z.isNumber || z.lessThan 1
  message := "anomaly.z_score_threshold must be at least 1"

/-- A section that must be there, and be an object. -/
def requireSection (name : String) (config : Json) : Except PyError (List String) :=
  (config.entry name).map fun value =>
    match value with
    | none => [s!"Missing '{name}' section"]
    | some (.dict _) => []
    | some _ => [s!"'{name}' must be an object"]

def requiredCerts : List String := ["ca_cert", "server_cert", "server_key"]

def checkTls : Json → Except PyError (List String)
  | .dict tls =>
    let isOn (name : String) := ((tls.lookup name).getD .null).truthy
    if isOn "enabled" then
      .ok ((requiredCerts.filter fun cert => !isOn cert).map fun cert =>
        s!"tls.{cert} is required when TLS is enabled")
    else .ok []
  | _ => .error .attributeError

def validateConfig (config : Json) : Except PyError (List String) := do
  let edgeErrors ← requireSection "edge" config
  let centralErrors ← requireSection "central" config
  let edge ← config.get "edge"
  let fpsErrors ← fpsCheck.run edge
  let confidenceErrors ← confidenceCheck.run edge
  let nmsErrors ← nmsCheck.run edge
  let central ← config.get "central"
  let portErrors ← portCheck.run central
  let modeErrors ← modeCheck.run central
  let storage ← config.get "storage"
  let retentionErrors ← retentionCheck.run storage
  let tls ← config.get "tls"
  let tlsErrors ← checkTls tls
  let cb ← config.get "circuit_breaker"
  let thresholdErrors ← thresholdCheck.run cb
  let timeoutErrors ← timeoutCheck.run cb
  let ab ← config.get "ab_test"
  let splitErrors ← splitCheck.run ab
  let anomaly ← config.get "anomaly"
  let zScoreErrors ← zScoreCheck.run anomaly
  return edgeErrors ++ centralErrors ++ fpsErrors ++ confidenceErrors ++ nmsErrors ++ portErrors ++
    modeErrors ++ retentionErrors ++ tlsErrors ++ thresholdErrors ++ timeoutErrors ++
    splitErrors ++ zScoreErrors

/-! ## Acceptance -/

/-- The checks, each with the section it looks in. -/
def fieldChecks : List (String × FieldCheck) :=
  [("edge", fpsCheck), ("edge", confidenceCheck), ("edge", nmsCheck), ("central", portCheck),
   ("central", modeCheck), ("storage", retentionCheck), ("circuit_breaker", thresholdCheck),
   ("circuit_breaker", timeoutCheck), ("ab_test", splitCheck), ("anomaly", zScoreCheck)]

/-- A value that a section does not give, or that is not refused. A section that is a list or a
text gives none. -/
def FieldCheck.Passes (check : FieldCheck) (given : Json) : Prop :=
  match given with
  | .dict items => ∀ v, items.lookup check.name = some v → check.refuses v = false
  | .list items => items.any (Json.isStr check.name) = false
  | .str s => ¬ check.name.toList <:+: s.toList
  | .null | .bool _ | .int _ | .float _ => False

/-- Certificates are given if TLS is on. -/
def TlsComplete (tls : Json) : Prop :=
  ∃ items, tls = .dict items ∧ (((items.lookup "enabled").getD .null).truthy →
    ∀ cert ∈ requiredCerts, ((items.lookup cert).getD .null).truthy)

/-- A document without errors. -/
structure Accepted (items : List (String × Json)) : Prop where
  edge : ∃ edge, items.lookup "edge" = some (.dict edge)
  central : ∃ central, items.lookup "central" = some (.dict central)
  checks : ∀ p ∈ fieldChecks, p.2.Passes ((items.lookup p.1).getD (.dict []))
  tls : TlsComplete ((items.lookup "tls").getD (.dict []))

theorem run_eq_nil_iff {check : FieldCheck} {given : Json} :
    check.run given = .ok [] ↔ check.Passes given := by
  cases given with
  | dict items =>
      cases hvalue : items.lookup check.name with
      | none => simp [FieldCheck.run, FieldCheck.Passes, Json.entry, hvalue, Except.map]
      | some v =>
          cases hrefuses : check.refuses v <;>
            simp [FieldCheck.run, FieldCheck.Passes, Json.entry, hvalue, hrefuses, Except.map]
  | list items =>
      cases hany : items.any (Json.isStr check.name) <;>
        simp [FieldCheck.run, FieldCheck.Passes, Json.entry, hany, Except.map]
  | str s =>
      by_cases hin : check.name.toList <:+: s.toList <;>
        simp [FieldCheck.run, FieldCheck.Passes, Json.entry, hin, Except.map]
  | null | bool | int | float =>
      simp [FieldCheck.run, FieldCheck.Passes, Json.entry, Except.map]

theorem requireSection_eq_nil_iff {items : List (String × Json)} {name : String} :
    requireSection name (.dict items) = .ok [] ↔
      ∃ given, items.lookup name = some (.dict given) := by
  rw [requireSection, Json.entry]
  cases items.lookup name with
  | none => simp [Except.map]
  | some v => cases v <;> simp [Except.map]

theorem checkTls_eq_nil_iff {tls : Json} : checkTls tls = .ok [] ↔ TlsComplete tls := by
  cases tls with
  | dict items =>
      simp only [checkTls, TlsComplete, Json.dict.injEq, exists_eq_left']
      cases ((items.lookup "enabled").getD .null).truthy <;> simp [List.filter_eq_nil_iff]
  | null | bool | int | float | str | list => simp [checkTls, TlsComplete]

theorem get_eq_ok {config v : Json} {name : String} (h : config.get name = .ok v) :
    ∃ items, config = .dict items ∧ v = (items.lookup name).getD (.dict []) := by
  cases config with
  | dict items => exact ⟨items, rfl, (Except.ok.inj h).symm⟩
  | null | bool | int | float | str | list => cases h

/-- What the validation returns no error for. -/
theorem validateConfig_eq_nil_iff {config : Json} :
    validateConfig config = .ok [] ↔ ∃ items, config = .dict items ∧ Accepted items := by
  constructor
  · intro h
    simp only [validateConfig, Except.bind_eq_ok, Except.pure_eq_ok, List.append_eq_nil_iff,
      and_assoc] at h
    obtain ⟨_, hedge, _, hcentral, edge, hget, _, hfps, _, hconfidence, _, hnms, central, hget₁, _,
      hport, _, hmode, storage, hget₂, _, hretention, tls, hget₃, _, htls, cb, hget₄, _, hthreshold,
      _, htimeout, ab, hget₅, _, hsplit, anomaly, hget₆, _, hzScore, rfl, rfl, rfl, rfl, rfl, rfl,
      rfl, rfl, rfl, rfl, rfl, rfl, rfl⟩ := h
    obtain ⟨items, rfl, rfl⟩ := get_eq_ok hget
    cases hget₁
    cases hget₂
    cases hget₃
    cases hget₄
    cases hget₅
    cases hget₆
    refine ⟨items, rfl, requireSection_eq_nil_iff.mp hedge, requireSection_eq_nil_iff.mp hcentral,
      ?_, checkTls_eq_nil_iff.mp htls⟩
    simp only [fieldChecks, List.forall_mem_cons, List.not_mem_nil, false_imp_iff, implies_true,
      and_true]
    simp only [run_eq_nil_iff] at *
    exact ⟨hfps, hconfidence, hnms, hport, hmode, hretention, hthreshold, htimeout, hsplit, hzScore⟩
  · rintro ⟨items, rfl, h⟩
    have hchecks := h.checks
    simp only [fieldChecks, List.forall_mem_cons, ← run_eq_nil_iff] at hchecks
    obtain ⟨hfps, hconfidence, hnms, hport, hmode, hretention, hthreshold, htimeout, hsplit,
      hzScore, -⟩ := hchecks
    simp only [validateConfig, requireSection_eq_nil_iff.mpr h.edge,
      requireSection_eq_nil_iff.mpr h.central, Json.get, Except.bind_ok, hfps, hconfidence, hnms,
      hport, hmode, hretention, checkTls_eq_nil_iff.mpr h.tls, hthreshold, htimeout, hsplit,
      hzScore]
    rfl

/-- A value that is given was not refused. -/
theorem Accepted.refuses_eq {items given : List (String × Json)} {name : String}
    {check : FieldCheck} {v : Json} (h : Accepted items) (hcheck : (name, check) ∈ fieldChecks)
    (hgiven : (items.lookup name).getD (.dict []) = .dict given)
    (hv : given.lookup check.name = some v) : check.refuses v = false := by
  have hpasses := h.checks _ hcheck
  rw [hgiven] at hpasses
  exact hpasses v hv

/-! ## The loader -/

/-- The field that an error of the loader is about, if it is a complaint. -/
def Names (P : String → Prop) : Raised → Prop
  | .configError e => P e.field
  | .other _ => True

/-- The fields that the dashboard does not check, or not as the loader does. -/
inductive Unchecked : String → Prop where
  | metricsPort : Unchecked "metrics.port"
  | minConfidence (i : Nat) : Unchecked s!"vlm_rules[{i}].min_confidence"
  | expiryTimeout : Unchecked "sessions.expiry_timeout"
  | timeoutSeconds : Unchecked "batch.timeout_seconds"
  | caCert : Unchecked "tls.ca_cert"
  | serverCert : Unchecked "tls.server_cert"
  | serverKey : Unchecked "tls.server_key"
  | maxDevices : Unchecked "sessions.max_devices"
  | bucket : Unchecked "cloud_storage.bucket"

section

variable {env : Environment} {P : String → Prop} {α β : Type}

theorem ends_lift {x : Except PyError α} :
    (ConfigLoader.lift x).Ends (fun _ => True) (Names P) := by
  cases x <;> trivial

theorem ends_step {x : Except Raised α} {f : α → Except Raised β}
    (hx : x.Ends (fun _ => True) (Names P))
    (hf : ∀ a, x = .ok a → (f a).Ends (fun _ => True) (Names P)) :
    (x >>= f).Ends (fun _ => True) (Names P) := by
  cases x with
  | error e => exact hx
  | ok a => exact hf a rfl

theorem ends_read {cfg : Obj} {sectionName name : String} :
    (ConfigLoader.read cfg sectionName name).Ends (fun _ => True) (Names P) :=
  ends_step ends_lift fun _ _ => ends_lift

theorem ends_complain {field : String} {o : Obj} {complaint : String → String} (h : P field) :
    (ConfigLoader.complain env field o complaint).Ends (fun _ => True) (Names P) :=
  ends_step ends_lift fun _ _ => h

theorem ends_checkPort {field : String} {o : Obj} (h : P field) :
    (ConfigLoader.checkPort env field o).Ends (fun _ => True) (Names P) := by
  refine ends_step ends_lift fun b _ => ?_
  cases b with
  | true => trivial
  | false => exact ends_complain h

theorem ends_checkPositive {field : String} {o : Obj} (h : P field) :
    (ConfigLoader.checkPositive env field o).Ends (fun _ => True) (Names P) := by
  refine ends_step ends_lift fun b _ => ?_
  cases b with
  | true => exact ends_complain h
  | false => trivial

theorem ends_checkPath {field : String} {o : Obj} (h : P field) :
    (ConfigLoader.checkPath env field o).Ends (fun _ => True) (Names P) := by
  refine ends_step ends_lift fun b _ => ?_
  cases b with
  | true => exact ends_complain h
  | false => trivial

theorem ends_checkRule {i : Nat} {rule : Obj} (h : P s!"vlm_rules[{i}].min_confidence") :
    (ConfigLoader.checkRule env i rule).Ends (fun _ => True) (Names P) := by
  refine ends_step ends_lift fun confidence _ => ?_
  refine ends_step ends_lift fun b _ => ?_
  cases b with
  | true => trivial
  | false => exact ends_complain h

theorem ends_checkRules {i : Nat} {rules : List Obj} :
    (ConfigLoader.checkRules env i rules).Ends (fun _ => True) (Names Unchecked) := by
  induction rules generalizing i with
  | nil => trivial
  | cons rule rules ih => exact ends_step (ends_checkRule (.minConfidence i)) fun _ _ => ih

theorem ends_checkTls {tls : Obj} :
    (ConfigLoader.checkTls env tls).Ends (fun _ => True) (Names Unchecked) := by
  refine ends_step ends_lift fun enabled _ => ?_
  cases enabled.truthy with
  | false => trivial
  | true =>
      refine ends_step ends_lift fun _ _ => ?_
      refine ends_step ends_lift fun _ _ => ?_
      refine ends_step ends_lift fun _ _ => ?_
      refine ends_step (ends_checkPath .caCert) fun _ _ => ?_
      exact ends_step (ends_checkPath .serverCert) fun _ _ => ends_checkPath .serverKey

theorem ends_checkBucket {cloudStorage : Obj} :
    (ConfigLoader.checkBucket cloudStorage).Ends (fun _ => True) (Names Unchecked) := by
  refine ends_step ends_lift fun enabled _ => ?_
  cases enabled.truthy with
  | false => trivial
  | true =>
      refine ends_step ends_lift fun bucket _ => ?_
      cases bucket.truthy with
      | false => exact Unchecked.bucket
      | true => trivial

theorem eq_ok_of_verdict {x : Except Raised Unit} (h : ConfigLoader.verdictOf x = .passes) :
    x = .ok () := by
  obtain (e | e) | _ := x
  · cases h
  · cases h
  · rfl

theorem exists_error_of_verdict {x : Except Raised Unit}
    (h : ConfigLoader.verdictOf x = .complains) : ∃ e, x = .error (.configError e) := by
  obtain (e | e) | _ := x
  · exact ⟨e, rfl⟩
  · cases h
  · cases h

/-- Checks that do not end in a complaint do not name a field. -/
theorem ends_of_verdict {x : Except Raised Unit} (h : ConfigLoader.verdictOf x ≠ .complains) :
    x.Ends (fun _ => True) (Names P) := by
  obtain (e | e) | _ := x
  · exact absurd rfl h
  · trivial
  · trivial

end

/-! ### Fields that both check -/

section

variable {env : Environment} {v : Json}

theorem portVerdict_of_accepted (h : portCheck.refuses v = false) :
    ConfigLoader.portVerdict env (some v.toYaml) = .passes := by
  cases v with
  | bool b =>
      cases b with
      | false => exact absurd h (by decide)
      | true => rfl
  | int n =>
      obtain ⟨hlow, hhigh⟩ : ¬ n < 1 ∧ ¬ 65535 < n := by
        simpa [portCheck, Json.isInt, Json.lessThan, Json.moreThan] using h
      have hin : (decide (1 ≤ n) && decide (n ≤ 65535)) = true := by
        simpa using And.intro hlow hhigh
      exact if_pos hin
  | null | float | str | list | dict => cases h

theorem modeVerdict_of_accepted (h : modeCheck.refuses v = false) :
    ConfigLoader.modeVerdict env (some v.toYaml) = .passes := by
  cases v with
  | str s =>
      have hmode : s = "llm" ∨ s = "vlm" := by
        simpa [modeCheck, Json.isStr, or_iff_not_imp_left] using h
      exact if_pos hmode
  | null | bool | int | float | list | dict => cases h

/-- A number from 1 on is positive as a float, where it is one. -/
theorem toFloat_pos (h : timeoutCheck.refuses v = false) {py : PyText} {x : Binary64}
    (hx : v.toYaml.toFloat py = .ok x) : ¬ x ≤ const 0 := by
  have hone : ¬ (const 1 : Binary64) ≤ const 0 := by decide +kernel
  cases v with
  | bool b =>
      cases b with
      | false => exact absurd h (by decide)
      | true =>
          cases hx
          exact hone
  | int n =>
      have hn : 1 ≤ n := by
        simpa [timeoutCheck, Json.isNumber, Json.lessThan] using h
      have hround : x = BinaryFloat.round _ n := by
        rw [Json.toYaml, Yaml.toFloat] at hx
        split at hx
        · cases hx
        · exact (Except.ok.inj hx).symm
      have hle : (const 1 : Binary64) ≤ x := by
        rw [hround]
        exact BinaryFloat.round_mono (by norm_num) (by exact_mod_cast hn)
      exact fun hzero => hone (BinaryFloat.le_trans' hle hzero)
  | float y =>
      cases hx
      have hone' : ¬ x < const 1 := by
        simpa [timeoutCheck, Json.isNumber, Json.lessThan] using h
      have hlt : (const 0 : Binary64) < const 1 := by decide +kernel
      exact fun hzero => hone' (LawfulCFloat.lt_of_le_of_lt hzero hlt)
  | null | str | list | dict => cases h

theorem timeoutVerdict_of_accepted (h : timeoutCheck.refuses v = false) :
    ConfigLoader.timeoutVerdict env (some v.toYaml) ≠ .complains := by
  rw [ConfigLoader.timeoutVerdict, ConfigLoader.floatVerdict]
  cases hx : v.toYaml.toFloat env.py with
  | error e => rintro ⟨⟩
  | ok x =>
      have hpos : decide (x ≤ const 0) = false := decide_eq_false (toFloat_pos h hx)
      simp only [hpos]
      rintro ⟨⟩

end

section

variable {env : Environment} {items : List (String × Json)} {values : List (String × Obj)}

theorem inSection_ne_complains {name : String} {k : List (Yaml × Yaml) → ConfigLoader.Verdict}
    (h : ∀ given, (items.lookup name).getD (.dict []) = .dict given →
      k (Json.dictToYaml given) ≠ .complains) :
    ConfigLoader.inSection (Json.dictToYaml items) name k ≠ .complains := by
  rw [ConfigLoader.inSection, Json.lookup_dictToYaml]
  cases hvalue : items.lookup name with
  | none => exact h [] (by rw [hvalue]; rfl)
  | some v =>
      cases v with
      | dict given => exact h given (by rw [hvalue]; rfl)
      | null | bool | int | float | str | list => rintro ⟨⟩

/-- The loader's check of a field that the dashboard checks as well. -/
theorem Accepted.inSection_ne_complains {name : String} {check : FieldCheck}
    {k : Option Yaml → ConfigLoader.Verdict} (h : Accepted items)
    (hcheck : (name, check) ∈ fieldChecks) (hnone : k none = .passes)
    (hk : ∀ v, check.refuses v = false → k (some (Json.toYaml v)) ≠ .complains) :
    ConfigLoader.inSection (Json.dictToYaml items) name
      (fun given => k (Yaml.lookup given check.name)) ≠ .complains := by
  refine Validators.inSection_ne_complains fun given hgiven => ?_
  rw [Json.lookup_dictToYaml]
  cases hv : given.lookup check.name with
  | none =>
      rw [Option.map_none, hnone]
      decide
  | some v => exact hk v (h.refuses_eq hcheck hgiven hv)

/-- What the loader complains of in a document that the dashboard accepts. -/
theorem Accepted.names_unchecked (haccepted : Accepted items)
    (h : ConfigLoader.appConfig.loadFields env.py (Json.dictToYaml items) = .ok values) :
    (ConfigLoader.validate env (.record values)).Ends (fun _ => True) (Names Unchecked) := by
  have hport : ConfigLoader.verdictOf (ConfigLoader.read (.record values) "central" "port" >>=
      ConfigLoader.checkPort env "central.port") ≠ .complains := by
    have hcheck : ("central", portCheck) ∈ fieldChecks := by simp [fieldChecks]
    rw [ConfigLoader.verdictOf_read h rfl rfl fun _ _ _ _ hloaded =>
      ConfigLoader.verdictOf_checkPort hloaded (by decide)]
    refine haccepted.inSection_ne_complains hcheck rfl fun v hv => ?_
    rw [portVerdict_of_accepted hv]
    decide
  have hmode : ConfigLoader.verdictOf (ConfigLoader.read (.record values) "central"
      "inference_mode" >>= ConfigLoader.checkMode env) ≠ .complains := by
    have hcheck : ("central", modeCheck) ∈ fieldChecks := by simp [fieldChecks]
    rw [ConfigLoader.verdictOf_read h rfl rfl fun _ _ _ _ hloaded =>
      ConfigLoader.verdictOf_checkMode hloaded]
    refine haccepted.inSection_ne_complains hcheck rfl fun v hv => ?_
    rw [modeVerdict_of_accepted hv]
    decide
  have htimeout : ConfigLoader.verdictOf (ConfigLoader.read (.record values) "circuit_breaker"
      "recovery_timeout" >>=
        ConfigLoader.checkPositive env "circuit_breaker.recovery_timeout") ≠ .complains := by
    have hcheck : ("circuit_breaker", timeoutCheck) ∈ fieldChecks := by simp [fieldChecks]
    rw [ConfigLoader.verdictOf_read h rfl rfl fun _ _ _ _ hloaded =>
      ConfigLoader.verdictOf_checkTimeout hloaded (by decide +kernel)]
    exact haccepted.inSection_ne_complains hcheck rfl fun v hv => timeoutVerdict_of_accepted hv
  rw [ConfigLoader.validate]
  refine ends_step ends_read fun centralPort hcentral => ?_
  refine ends_step ends_read fun _ _ => ?_
  rw [hcentral] at hport
  refine ends_step (ends_of_verdict hport) fun _ _ => ?_
  refine ends_step (ends_checkPort .metricsPort) fun _ _ => ?_
  refine ends_step ends_lift fun _ _ => ?_
  refine ends_step ends_lift fun _ _ => ?_
  refine ends_step ends_checkRules fun _ _ => ?_
  refine ends_step ends_read fun recoveryTimeout hrecovery => ?_
  refine ends_step ends_read fun _ _ => ?_
  refine ends_step ends_read fun _ _ => ?_
  rw [hrecovery] at htimeout
  refine ends_step (ends_of_verdict htimeout) fun _ _ => ?_
  refine ends_step (ends_checkPositive .expiryTimeout) fun _ _ => ?_
  refine ends_step (ends_checkPositive .timeoutSeconds) fun _ _ => ?_
  refine ends_step ends_lift fun _ _ => ?_
  refine ends_step ends_checkTls fun _ _ => ?_
  refine ends_step ends_read fun mode hmodeRead => ?_
  rw [hmodeRead] at hmode
  refine ends_step (ends_of_verdict hmode) fun _ _ => ?_
  refine ends_step ends_read fun _ _ => ?_
  refine ends_step (ends_checkPositive .maxDevices) fun _ _ => ?_
  exact ends_step ends_lift fun _ _ => ends_checkBucket

theorem documentEntries_toYaml :
    ConfigLoader.documentEntries (some (Json.dict items).toYaml) =
      some (Json.dictToYaml items) := by
  cases items <;> rfl

/-- The field that the loader complains of. -/
def complaint (env : Environment) (document : Yaml) : Option String :=
  match ConfigLoader.load env (some document) with
  | .error (.configError e) => some e.field
  | .error (.other _) | .ok _ => none

theorem of_complaint {P : String → Prop} {document : Yaml} {field : String}
    (h : complaint env document = some field)
    (hends : (ConfigLoader.load env (some document)).Ends (fun _ => True) (Names P)) : P field := by
  rw [complaint] at h
  split at h
  · next e hload =>
    rw [hload] at hends
    cases h
    exact hends
  · cases h
  · cases h

theorem Accepted.complaint_unchecked {field : String} (haccepted : Accepted items)
    (h : complaint env (Json.dict items).toYaml = some field) : Unchecked field := by
  refine of_complaint h ?_
  rw [ConfigLoader.load, ConfigLoader.fromYaml_eq documentEntries_toYaml]
  refine ends_step ends_lift fun cfg hcfg => ?_
  cases hvalues : ConfigLoader.appConfig.loadFields env.py (Json.dictToYaml items) with
  | error e =>
      rw [hvalues] at hcfg
      cases hcfg
  | ok values =>
      rw [hvalues] at hcfg
      cases hcfg
      exact ends_step (haccepted.names_unchecked hvalues) fun _ _ => trivial

/-- In some document that the dashboard accepts, the loader complains of this field. -/
def StillRefused (field : String) : Prop :=
  ∃ env config, validateConfig config = .ok [] ∧ complaint env config.toYaml = some field

/-! ### Each of them can be complained of -/

/-- Every value is printed, and some paths exist. -/
def environmentWith (found : List String) : Environment where
  py :=
    { intOf := fun _ => none
      floatOf := fun _ => none
      intOfBytes := fun _ => none
      floatOfBytes := fun _ => none
      print := fun _ => some "" }
  pathExists path := .ok (found.contains path)

def documentWith (name : String) (given : Json) : Json :=
  .dict [("edge", .dict []), ("central", .dict []), (name, given)]

def tlsOn : Json :=
  .dict [("enabled", .bool true), ("ca_cert", .str "ca"), ("server_cert", .str "cert"),
    ("server_key", .str "key")]

theorem lookup_eq_none {fields : ConfigLoader.Fields} {name : String}
    (h : name ∉ fields.defaults.map Prod.fst) : fields.lookup name = none := by
  induction fields using ConfigLoader.Fields.defaults.induct with
  | case1 => rfl
  | case2 name' type default rest ih =>
      rw [ConfigLoader.Fields.defaults, List.map_cons, List.mem_cons, not_or] at h
      rw [ConfigLoader.Fields.lookup, if_neg (Ne.symm h.1), ih h.2]

/-- What is loaded where the document decides the value of each field on its own. -/
theorem loadFields_eq_map {py : PyText} {fields : ConfigLoader.Fields}
    {entries : List (Yaml × Yaml)} {value : String → Obj → Obj}
    (hdistinct : (fields.defaults.map Prod.fst).Nodup)
    (h : ∀ name type default, fields.lookup name = some (type, default) →
      (Yaml.lookup entries name).elim (.ok default) (type.coerceValue py) =
        .ok (value name default)) :
    fields.loadFields py entries = .ok (fields.defaults.map fun p => (p.1, value p.1 p.2)) := by
  induction fields using ConfigLoader.Fields.defaults.induct with
  | case1 => rfl
  | case2 name type default rest ih =>
      rw [ConfigLoader.Fields.defaults, List.map_cons, List.nodup_cons] at hdistinct
      have hhead := h name type default (if_pos rfl)
      have hrest := ih hdistinct.2 fun name' type' default' hfield => by
        have hne : name ≠ name' := by
          rintro rfl
          rw [lookup_eq_none hdistinct.1] at hfield
          cases hfield
        exact h name' type' default' ((if_neg hne).trans hfield)
      rw [ConfigLoader.Fields.loadFields, hhead, hrest]
      rfl

/-- Rules of which only the last has a bad confidence. -/
def manyRules (i : Nat) : Json :=
  .list (List.replicate i (.dict []) ++ [.dict [("min_confidence", .float (const 2))]])

def boldRule : List (String × Obj) :=
  [("class_name", .yaml (.str "person")), ("min_confidence", .yaml (.float (const 2))),
    ("prompt_template", .yaml (.str "person_behavior"))]

def loadedRules (i : Nat) : List Obj :=
  List.replicate i (.record ConfigLoader.vlmRuleConfig.defaults) ++ [.record boldRule]

theorem coerceValue_manyRules {py : PyText} (i : Nat) :
    (ConfigLoader.FieldType.listOfClass ConfigLoader.vlmRuleConfig).coerceValue py
      (manyRules i).toYaml = .ok (.list (loadedRules i)) := by
  rw [manyRules, Json.toYaml, ConfigLoader.FieldType.coerceValue, Except.map_eq_ok]
  refine ⟨loadedRules i, ?_, rfl⟩
  induction i with
  | zero => rfl
  | succ i ih =>
      have hentries : Yaml.mapEntries (Json.dict []).toYaml = some [] := rfl
      rw [List.replicate_succ, List.cons_append, Json.listToYaml,
        List.filterMap_cons_some hentries, List.mapM_cons, ih, ConfigLoader.loadFields_nil]
      rfl

theorem checkRule_default (j : Nat) :
    ConfigLoader.checkRule env j (.record ConfigLoader.vlmRuleConfig.defaults) = .ok () := by
  have hvalues : ConfigLoader.vlmRuleConfig.loadFields env.py [] =
      .ok ConfigLoader.vlmRuleConfig.defaults := ConfigLoader.loadFields_nil _
  exact eq_ok_of_verdict (ConfigLoader.verdictOf_checkRule hvalues)

theorem checkRule_bold (j : Nat) : ∃ e,
    ConfigLoader.checkRule (environmentWith []) j (.record boldRule) = .error (.configError e) ∧
      e.field = s!"vlm_rules[{j}].min_confidence" := by
  have hvalues : ConfigLoader.vlmRuleConfig.loadFields (environmentWith []).py
      [(.str "min_confidence", .float (const 2))] = .ok boldRule := rfl
  have hcomplains : ConfigLoader.confidenceVerdict (environmentWith [])
      (some (.float (const 2))) = .complains := by decide +kernel
  have hends : (ConfigLoader.checkRule (environmentWith []) j (.record boldRule)).Ends
      (fun _ => True) (Names (· = s!"vlm_rules[{j}].min_confidence")) := ends_checkRule rfl
  obtain ⟨e, he⟩ := exists_error_of_verdict
    ((ConfigLoader.verdictOf_checkRule hvalues).trans hcomplains)
  rw [he] at hends
  exact ⟨e, he, hends⟩

theorem checkRules_loadedRules (i j : Nat) : ∃ e,
    ConfigLoader.checkRules (environmentWith []) j (loadedRules i) = .error (.configError e) ∧
      e.field = s!"vlm_rules[{j + i}].min_confidence" := by
  induction i generalizing j with
  | zero =>
      obtain ⟨e, he, hfield⟩ := checkRule_bold j
      refine ⟨e, ?_, hfield⟩
      change ConfigLoader.checkRule _ _ (.record boldRule) >>= _ = _
      rw [he]
      rfl
  | succ i ih =>
      obtain ⟨e, he, hfield⟩ := ih (j + 1)
      refine ⟨e, ?_, by rw [hfield, Nat.add_right_comm]; rfl⟩
      rw [loadedRules, List.replicate_succ, List.cons_append, ConfigLoader.checkRules,
        checkRule_default]
      exact he

/-- The configuration with these rules and defaults everywhere else. -/
def withRules (rules : List Obj) : List (String × Obj) :=
  ConfigLoader.appConfig.defaults.map fun p =>
    (p.1, if p.1 = "vlm_rules" then .list rules else p.2)

theorem validate_withRules {rules : List Obj} {e : Raised}
    (h : ConfigLoader.checkRules env 0 rules = .error e) :
    ConfigLoader.validate env (.record (withRules rules)) = .error e := by
  have hcentral : ConfigLoader.read (.record (withRules rules)) "central" "port" =
      .ok (.yaml (.int 50051)) := rfl
  have hmetrics : ConfigLoader.read (.record (withRules rules)) "metrics" "port" =
      .ok (.yaml (.int 9090)) := rfl
  have hrules : ConfigLoader.lift ((Obj.record (withRules rules)).attr "vlm_rules") =
      .ok (.list rules) := rfl
  have hiterate : ConfigLoader.lift (Obj.list rules).iterate = .ok rules := rfl
  have hcentralOk : ConfigLoader.checkPort env "central.port" (.yaml (.int 50051)) = .ok () := rfl
  have hmetricsOk : ConfigLoader.checkPort env "metrics.port" (.yaml (.int 9090)) = .ok () := rfl
  simp only [ConfigLoader.validate, hcentral, hmetrics, hcentralOk, hmetricsOk, hrules, hiterate,
    Except.bind_ok, h]
  rfl

theorem loadFields_manyRules {py : PyText} (i : Nat) :
    ConfigLoader.appConfig.loadFields py (Json.dictToYaml
      [("edge", .dict []), ("central", .dict []), ("vlm_rules", manyRules i)]) =
      .ok (withRules (loadedRules i)) := by
  have hdistinct : (ConfigLoader.appConfig.defaults.map Prod.fst).Nodup := by decide
  refine @loadFields_eq_map _ _ _
    (fun name default => if name = "vlm_rules" then .list (loadedRules i) else default) hdistinct
    fun name type default hfield => ?_
  rw [Json.lookup_dictToYaml]
  by_cases hrules : name = "vlm_rules"
  · subst hrules
    cases hfield
    exact coerceValue_manyRules i
  by_cases hcentral : name = "central"
  · subst hcentral
    cases hfield
    have hcentral : ConfigLoader.centralConfig.loadFields py [] =
        .ok ConfigLoader.centralConfig.defaults := ConfigLoader.loadFields_nil _
    exact congrArg (Except.map Obj.record) hcentral
  by_cases hedge : name = "edge"
  · subst hedge
    cases hfield
  · have hnone : List.lookup name
        [("edge", Json.dict []), ("central", .dict []), ("vlm_rules", manyRules i)] = none := by
      simp [List.lookup_eq_none_iff, hrules, hcentral, hedge]
    rw [hnone, if_neg hrules]
    rfl

theorem stillRefused_minConfidence (i : Nat) : StillRefused s!"vlm_rules[{i}].min_confidence" := by
  refine ⟨environmentWith [], documentWith "vlm_rules" (manyRules i), rfl, ?_⟩
  obtain ⟨e, he, hfield⟩ := checkRules_loadedRules i 0
  have hload : ConfigLoader.load (environmentWith [])
      (some (documentWith "vlm_rules" (manyRules i)).toYaml) = .error (.configError e) := by
    rw [documentWith, ConfigLoader.load, ConfigLoader.fromYaml_eq documentEntries_toYaml,
      loadFields_manyRules]
    have hvalidate := validate_withRules he
    change ConfigLoader.validate _ _ >>= _ = _
    rw [hvalidate]
    rfl
  rw [complaint, hload]
  exact congrArg some (hfield.trans (by rw [Nat.zero_add]))

/-- Where the dashboard accepts a document, these are the fields that the loader can still complain
of: never the port, the mode and the timeout that the dashboard has checked. -/
theorem stillRefused_iff {field : String} : StillRefused field ↔ Unchecked field := by
  constructor
  · rintro ⟨env, config, hvalid, h⟩
    obtain ⟨items, rfl, haccepted⟩ := validateConfig_eq_nil_iff.mp hvalid
    exact haccepted.complaint_unchecked h
  · intro h
    cases h with
    | metricsPort =>
        exact ⟨environmentWith [], documentWith "metrics" (.dict [("port", .int 0)]),
          by decide +kernel, by decide +kernel⟩
    | minConfidence i => exact stillRefused_minConfidence i
    | expiryTimeout =>
        exact ⟨environmentWith [], documentWith "sessions" (.dict [("expiry_timeout", .int 0)]),
          by decide +kernel, by decide +kernel⟩
    | timeoutSeconds =>
        exact ⟨environmentWith [], documentWith "batch" (.dict [("timeout_seconds", .int 0)]),
          by decide +kernel, by decide +kernel⟩
    | caCert =>
        exact ⟨environmentWith [], documentWith "tls" tlsOn, by decide +kernel, by decide +kernel⟩
    | serverCert =>
        exact ⟨environmentWith ["ca"], documentWith "tls" tlsOn, by decide +kernel,
          by decide +kernel⟩
    | serverKey =>
        exact ⟨environmentWith ["ca", "cert"], documentWith "tls" tlsOn, by decide +kernel,
          by decide +kernel⟩
    | maxDevices =>
        exact ⟨environmentWith [], documentWith "sessions" (.dict [("max_devices", .int 0)]),
          by decide +kernel, by decide +kernel⟩
    | bucket =>
        exact ⟨environmentWith [], documentWith "cloud_storage" (.dict [("enabled", .bool true)]),
          by decide +kernel, by decide +kernel⟩

end

end Validators
