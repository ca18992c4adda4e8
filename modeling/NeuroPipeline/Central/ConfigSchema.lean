-- SUMMARY: The classes of the central configuration with all their fields, their loading from a document, and the checks of what was loaded.
import Mathlib.Data.List.Infix
import NeuroPipeline.Central.AppConfig
import NeuroPipeline.Central.ConfigLoader

/-!
# Loaded configuration

Model of `AppConfig.from_yaml` and `AppConfig.validate` on what the loader really gives:
an attribute can be missing and a comparison can fail where a field does not have its type.
-/

open CFloat (const)

namespace ConfigLoader

/-! ## Classes of config.py -/

namespace Fields

def bool (name : String) (default : Bool) (rest : Fields) : Fields :=
  .cons name (.scalar .bool) (.yaml (.bool default)) rest

def int (name : String) (default : Int) (rest : Fields) : Fields :=
  .cons name (.scalar .int) (.yaml (.int default)) rest

def float (name : String) (default : ℚ) (rest : Fields) : Fields :=
  .cons name (.scalar .float) (.yaml (.float (const default))) rest

def str (name : String) (default : String) (rest : Fields) : Fields :=
  .cons name (.scalar .str) (.yaml (.str default)) rest

/-- `default_factory=cls` -/
def dataclass (name : String) (cls : Fields) (rest : Fields) : Fields :=
  .cons name (.dataclass cls) (.record cls.defaults) rest

/-- A list of instances of a class. -/
def listOf (name : String) (cls : Fields) (default : List Obj) (rest : Fields) : Fields :=
  .cons name (.listOfClass cls) (.list default) rest

end Fields

def vlmRuleConfig : Fields :=
  .str "class_name" "person" <|
  .float "min_confidence" 0.8 <|
  .str "prompt_template" "person_behavior" .nil

def vlmModelConfig : Fields :=
  .str "model_id" "" <|
  .str "model_path" "" <|
  .bool "is_default" false .nil

def centralConfig : Fields :=
  .str "host" "0.0.0.0" <|
  .int "port" 50051 <|
  .str "model_path" "models/Llama-3.2-3B-Instruct" <|
  .int "max_message_size_mb" 16 <|
  .str "vlm_model_path" "" <|
  .str "inference_mode" "llm" <|
  .listOf "vlm_models" vlmModelConfig [] .nil

def loggingConfig : Fields :=
  .str "level" "info" <|
  .str "format" "text" <|
  .bool "trace_enabled" true <|
  .str "file_path" "" <|
  .int "max_bytes" (10 * 1024 * 1024) <|
  .int "backup_count" 5 .nil

def tlsConfig : Fields :=
  .bool "enabled" false <|
  .str "ca_cert" "" <|
  .str "server_cert" "" <|
  .str "server_key" "" .nil

def storageConfig : Fields :=
  .str "db_path" "data/detections.db" <|
  .int "retention_days" 7 .nil

def metricsConfig : Fields :=
  .bool "enabled" true <|
  .int "port" 9090 .nil

def alertRuleConfig : Fields :=
  .str "name" "" <|
  .float "cooldown_seconds" 300 <|
  .str "severity" "critical" .nil

def alertRouteConfig : Fields :=
  .str "severity" "critical" <|
  .str "webhook_url" "" .nil

def alertingConfig : Fields :=
  .bool "enabled" true <|
  .str "webhook_url" "" <|
  .listOf "rules" alertRuleConfig [] <|
  .listOf "routes" alertRouteConfig [] .nil

def circuitBreakerConfig : Fields :=
  .int "failure_threshold" 5 <|
  .float "recovery_timeout" 30 <|
  .int "half_open_max" 1 .nil

def tracingConfig : Fields :=
  .bool "enabled" false <|
  .str "endpoint" "http://localhost:4317" <|
  .str "service_name" "neuro-pipeline-central" <|
  .float "sample_rate" 1 .nil

def batchConfig : Fields :=
  .int "max_size" 8 <|
  .float "timeout_seconds" 2 <|
  .bool "enabled" true .nil

def sessionConfig : Fields :=
  .float "heartbeat_interval" 10 <|
  .float "expiry_timeout" 30 <|
  .int "max_devices" 16 .nil

def cloudStorageConfig : Fields :=
  .bool "enabled" false <|
  .str "provider" "s3" <|
  .str "bucket" "" <|
  .str "prefix" "neuro-pipeline/" <|
  .str "endpoint_url" "" <|
  .str "region" "us-east-1" .nil

def rateLimitingConfig : Fields :=
  .bool "enabled" false <|
  .int "max_rps" 100 <|
  .int "burst" 20 .nil

def modelManagementConfig : Fields :=
  .bool "enabled" false <|
  .int "max_models_per_device" 3 .nil

def reasoningConfig : Fields :=
  .bool "enabled" false <|
  .int "max_steps" 3 <|
  .float "timeout_per_step" 15 .nil

def ragConfig : Fields :=
  .bool "enabled" false <|
  .int "max_history_items" 10 <|
  .float "time_window_hours" 24 .nil

def abTestConfig : Fields :=
  .bool "enabled" false <|
  .float "traffic_split" 0.5 <|
  .int "min_samples" 100 <|
  .str "metric" "accuracy" .nil

def anomalyConfig : Fields :=
  .bool "enabled" false <|
  .float "baseline_window_hours" 168 <|
  .float "z_score_threshold" 3 <|
  .int "min_samples" 50 .nil

def reIDConfig : Fields :=
  .bool "enabled" false <|
  .float "similarity_threshold" 0.85 <|
  .float "time_window_seconds" 300 .nil

def timeSeriesConfig : Fields :=
  .bool "enabled" false <|
  .int "aggregation_interval" 60 .nil

def autoAnnotatorConfig : Fields :=
  .bool "enabled" false <|
  .float "min_confidence" 0.9 <|
  .str "output_dir" "data/annotations" .nil

def reportingConfig : Fields :=
  .bool "enabled" false <|
  .str "output_dir" "data/reports" <|
  .float "schedule_hours" 24 .nil

def vlmConfigGuideConfig : Fields :=
  .bool "enabled" false <|
  .float "min_confidence" 0.7 <|
  .int "max_adjustments_per_result" 3 <|
  .bool "auto_apply" false <|
  .bool "enable_region_adjustment" true <|
  .bool "enable_sensitivity_adjustment" true <|
  .bool "enable_fps_adjustment" false .nil

def defaultVlmRules : List Obj := [.record vlmRuleConfig.defaults]

def appConfig : Fields :=
  .dataclass "central" centralConfig <|
  .dataclass "logging" loggingConfig <|
  .dataclass "tls" tlsConfig <|
  .dataclass "storage" storageConfig <|
  .dataclass "metrics" metricsConfig <|
  .dataclass "alerting" alertingConfig <|
  .dataclass "circuit_breaker" circuitBreakerConfig <|
  .listOf "vlm_rules" vlmRuleConfig defaultVlmRules <|
  .dataclass "tracing" tracingConfig <|
  .dataclass "batch" batchConfig <|
  .dataclass "sessions" sessionConfig <|
  .dataclass "cloud_storage" cloudStorageConfig <|
  .dataclass "rate_limiting" rateLimitingConfig <|
  .dataclass "model_management" modelManagementConfig <|
  .dataclass "reasoning" reasoningConfig <|
  .dataclass "rag" ragConfig <|
  .dataclass "ab_test" abTestConfig <|
  .dataclass "anomaly" anomalyConfig <|
  .dataclass "reid" reIDConfig <|
  .dataclass "timeseries" timeSeriesConfig <|
  .dataclass "auto_annotator" autoAnnotatorConfig <|
  .dataclass "reporting" reportingConfig <|
  .dataclass "vlm_config_guide" vlmConfigGuideConfig .nil

/-! ## Loading -/

inductive Raised where
  | configError (e : ConfigError)
  | other (e : PyError)

def lift {α : Type} (x : Except PyError α) : Except Raised α := x.mapError .other

/-- `name in data` -/
def contains (name : String) : Yaml → Except PyError Bool
  | .map entries => .ok (Yaml.lookup entries name).isSome
  | .list items => .ok (items.any (Yaml.isStr name))
  | .str s => .ok (decide (name.toList <:+: s.toList))
  | .null | .bool _ | .int _ | .float _ | .bytes _ | .timestamp _ => .error .typeError

def Obj.setattr (o : Obj) (name : String) (value : Obj) : Obj :=
  match o with
  | .record fields => .record (fields.map fun p => if p.1 = name then (name, value) else p)
  | o => o

/-- `AppConfig.from_yaml`; there is no document where there is no file. -/
def fromYaml (py : PyText) (document : Option Yaml) : Except PyError Obj :=
  match document with
  | none => .ok (.record appConfig.defaults)
  | some loaded => do
    let data := if loaded.truthy then loaded else .map []
    let cfg ← loadDataclassFromDict py appConfig data
    if ← contains "vlm_rules" data then return cfg
    else return cfg.setattr "vlm_rules" (.list defaultVlmRules)

/-! ## Checks -/

/-- What the checks use of the world: texts, and whether a path exists. -/
structure Environment where
  py : PyText
  pathExists : String → Except PyError Bool

namespace Obj

/-- `not o` is the negation. -/
def truthy : Obj → Bool
  | .yaml v => v.truthy
  | .list items => !items.isEmpty
  | .record _ => true

/-- The elements that a loop over `o` sees. -/
def iterate : Obj → Except PyError (List Obj)
  | .list items => .ok items
  | .yaml (.list items) => .ok (items.map .yaml)
  | .yaml (.str s) => .ok (s.toList.map fun c => .yaml (.str (.singleton c)))
  | .yaml (.bytes b) => .ok (b.map fun n => .yaml (.int n.toNat))
  | .yaml (.map entries) => .ok (entries.map fun p => .yaml p.1)
  | .yaml .null | .yaml (.bool _) | .yaml (.int _) | .yaml (.float _) | .yaml (.timestamp _)
  | .record _ => .error .typeError

/-- `lo <= o <= hi` -/
def inRange (lo hi : Int) : Obj → Except PyError Bool
  | .yaml (.int n) => .ok (lo ≤ n && n ≤ hi)
  | .yaml (.bool b) => .ok (lo ≤ b.toInt && b.toInt ≤ hi)
  | .yaml (.float x) => .ok (const lo ≤ x && x ≤ const hi)
  | _ => .error .typeError

/-- `o <= 0` -/
def notPositive : Obj → Except PyError Bool
  | .yaml (.int n) => .ok (n ≤ 0)
  | .yaml (.bool b) => .ok !b
  | .yaml (.float x) => .ok (x ≤ const 0)
  | _ => .error .typeError

/-- The value in an f-string. No message shows an object that the loader built. -/
def format (py : PyText) : Obj → Except PyError String
  | .yaml v => v.toStr py
  | .list _ | .record _ => .ok "object"

end Obj

section

variable (env : Environment)

/-- `raise ConfigError(...)`, where the message is built first. -/
def complain (field : String) (o : Obj) (complaint : String → String) : Except Raised Unit := do
  let text ← lift (o.format env.py)
  throw (.configError ⟨field, complaint text⟩)

def checkPort (name : String) (port : Obj) : Except Raised Unit := do
  if ← lift (port.inRange 1 65535) then return ()
  else complain env name port fun text => s!" must be 1-65535, got {text}"

def checkRule (i : Nat) (rule : Obj) : Except Raised Unit := do
  let confidence ← lift (rule.attr "min_confidence")
  if ← lift (confidence.inRange 0 1) then return ()
  else complain env s!"vlm_rules[{i}].min_confidence" confidence fun text =>
    s!" must be 0.0-1.0, got {text}"

def checkRules : Nat → List Obj → Except Raised Unit
  | _, [] => .ok ()
  | i, rule :: rules => do
    checkRule env i rule
    checkRules (i + 1) rules

def checkPositive (name : String) (val : Obj) : Except Raised Unit := do
  if ← lift val.notPositive then complain env name val fun text => s!" must be > 0, got {text}"
  else return ()

/-- `not path or not Path(path).exists()` -/
def missing (path : Obj) : Except PyError Bool :=
  if path.truthy then
    match path with
    | .yaml (.str s) => (env.pathExists s).map fun found => !found
    | _ => .error .typeError
  else .ok true

def checkPath (name : String) (path : Obj) : Except Raised Unit := do
  if ← lift (missing env path) then
    complain env name path fun text => s!" path does not exist: {text}"
  else return ()

def checkTls (tls : Obj) : Except Raised Unit := do
  if (← lift (tls.attr "enabled")).truthy then
    let caCert ← lift (tls.attr "ca_cert")
    let serverCert ← lift (tls.attr "server_cert")
    let serverKey ← lift (tls.attr "server_key")
    checkPath env "tls.ca_cert" caCert
    checkPath env "tls.server_cert" serverCert
    checkPath env "tls.server_key" serverKey
  else return ()

def checkMode (mode : Obj) : Except Raised Unit :=
  match mode with
  | .yaml (.str "llm") | .yaml (.str "vlm") => .ok ()
  | mode => complain env "inference_mode" mode fun text => s!" must be 'llm' or 'vlm', got '{text}'"

def checkBucket (cloudStorage : Obj) : Except Raised Unit := do
  if (← lift (cloudStorage.attr "enabled")).truthy then
    if (← lift (cloudStorage.attr "bucket")).truthy then return ()
    else throw (.configError ⟨"cloud_storage.bucket", " must be non-empty when enabled"⟩)
  else return ()

/-- A field of a section. -/
def read (cfg : Obj) (sectionName name : String) : Except Raised Obj := do
  let sectionObj ← lift (cfg.attr sectionName)
  lift (sectionObj.attr name)

def validate (cfg : Obj) : Except Raised Unit := do
  let centralPort ← read cfg "central" "port"
  let metricsPort ← read cfg "metrics" "port"
  checkPort env "central.port" centralPort
  checkPort env "metrics.port" metricsPort
  let vlmRules ← lift (cfg.attr "vlm_rules")
  checkRules env 0 (← lift vlmRules.iterate)
  let recoveryTimeout ← read cfg "circuit_breaker" "recovery_timeout"
  let expiryTimeout ← read cfg "sessions" "expiry_timeout"
  let timeoutSeconds ← read cfg "batch" "timeout_seconds"
  checkPositive env "circuit_breaker.recovery_timeout" recoveryTimeout
  checkPositive env "sessions.expiry_timeout" expiryTimeout
  checkPositive env "batch.timeout_seconds" timeoutSeconds
  checkTls env (← lift (cfg.attr "tls"))
  checkMode env (← read cfg "central" "inference_mode")
  checkPositive env "sessions.max_devices" (← read cfg "sessions" "max_devices")
  checkBucket (← lift (cfg.attr "cloud_storage"))

/-- A configuration that was loaded and passed the checks. -/
def load (document : Option Yaml) : Except Raised Obj := do
  let cfg ← lift (fromYaml env.py document)
  validate env cfg
  return cfg

end

/-! ## Typed configurations -/

section

/-- A configuration whose fields have their types, as an object. -/
def ofAppConfig (cfg : AppConfig) : Obj := .record
  [("central", .record
      [("port", .yaml (.int cfg.central.port)),
       ("inference_mode", .yaml (.str cfg.central.inferenceMode))]),
   ("tls", .record
      [("enabled", .yaml (.bool cfg.tls.enabled)),
       ("ca_cert", .yaml (.str cfg.tls.caCert)),
       ("server_cert", .yaml (.str cfg.tls.serverCert)),
       ("server_key", .yaml (.str cfg.tls.serverKey))]),
   ("metrics", .record [("port", .yaml (.int cfg.metrics.port))]),
   ("circuit_breaker", .record
      [("recovery_timeout", .yaml (.float cfg.circuitBreaker.recoveryTimeout))]),
   ("vlm_rules", .list (cfg.vlmRules.map fun rule =>
      .record [("min_confidence", .yaml (.float rule.minConfidence))])),
   ("batch", .record [("timeout_seconds", .yaml (.float cfg.batch.timeoutSeconds))]),
   ("sessions", .record
      [("expiry_timeout", .yaml (.float cfg.sessions.expiryTimeout)),
       ("max_devices", .yaml (.int cfg.sessions.maxDevices))]),
   ("cloud_storage", .record
      [("enabled", .yaml (.bool cfg.cloudStorage.enabled)),
       ("bucket", .yaml (.str cfg.cloudStorage.bucket))])]

/-- Texts and paths without failures. -/
structure Plain (env : Environment) (floatStr : Binary64 → String) (pathExists : String → Bool) :
    Prop where
  print_int : ∀ n, env.py.print (.int n) = some (toString n)
  print_float : ∀ x, env.py.print (.float x) = some (floatStr x)
  pathExists_eq : ∀ path, env.pathExists path = .ok (pathExists path)

variable {env : Environment} {floatStr : Binary64 → String} {pathExists : String → Bool}

/-- A complaint of typed checks, as an exception. -/
def raise (x : Except ConfigError Unit) : Except Raised Unit := x.mapError .configError

theorem raise_bind {x y : Except ConfigError Unit} :
    raise (x >>= fun _ => y) = raise x >>= fun _ => raise y := by
  cases x <;> rfl

theorem checkPort_typed (h : Plain env floatStr pathExists) (name : String) (port : Int) :
    checkPort env name (.yaml (.int port)) = raise (AppConfig.checkPort name port) := by
  simp only [checkPort, AppConfig.checkPort, AppConfig.check, Obj.inRange]
  cases hok : (decide (1 ≤ port) && decide (port ≤ 65535)) with
  | true => rfl
  | false =>
    simp only [complain, Obj.format, Yaml.toStr, h.print_int]
    rfl

theorem checkPositive_float (h : Plain env floatStr pathExists) (name : String) (x : Binary64) :
    checkPositive env name (.yaml (.float x)) =
      raise (AppConfig.checkPositive floatStr name x) := by
  simp only [checkPositive, AppConfig.checkPositive, AppConfig.check, Obj.notPositive]
  cases hok : decide (x ≤ const 0) with
  | false => rfl
  | true =>
    simp only [complain, Obj.format, Yaml.toStr, h.print_float]
    rfl

theorem checkPositive_int (h : Plain env floatStr pathExists) (name : String) (n : Int) :
    checkPositive env name (.yaml (.int n)) =
      raise (AppConfig.check name (decide (0 < n)) s!" must be > 0, got {n}") := by
  simp only [checkPositive, AppConfig.check, Obj.notPositive]
  by_cases hpos : 0 < n
  · rw [decide_eq_true hpos, decide_eq_false (not_le.mpr hpos)]
    rfl
  · rw [decide_eq_false hpos, decide_eq_true (not_lt.mp hpos)]
    simp only [complain, Obj.format, Yaml.toStr, h.print_int]
    rfl

theorem checkRules_typed (h : Plain env floatStr pathExists) (i : Nat)
    (rules : List VLMRuleConfig) :
    checkRules env i (rules.map fun rule =>
      .record [("min_confidence", .yaml (.float rule.minConfidence))]) =
      raise (AppConfig.checkConfidences floatStr i rules) := by
  induction rules generalizing i with
  | nil => rfl
  | cons rule rules ih =>
    have hrule : checkRule env i (.record [("min_confidence", .yaml (.float rule.minConfidence))]) =
        raise (AppConfig.checkConfidence floatStr i rule) := by
      have hattr : (Obj.record [("min_confidence", .yaml (.float rule.minConfidence))]).attr
          "min_confidence" = .ok (.yaml (.float rule.minConfidence)) := rfl
      simp only [checkRule, AppConfig.checkConfidence, AppConfig.check, hattr, Obj.inRange,
        Int.cast_zero, Int.cast_one]
      cases hok : (decide (const 0 ≤ rule.minConfidence) &&
          decide (rule.minConfidence ≤ const 1)) with
      | true =>
        simp only [Except.mapError, lift, Except.bind_ok, hok]
        rfl
      | false =>
        simp only [Except.mapError, lift, Except.bind_ok, hok, complain, Obj.format, Yaml.toStr,
          h.print_float]
        rfl
    rw [List.map_cons, checkRules, AppConfig.checkConfidences, raise_bind, hrule, ih]

theorem checkPath_typed (h : Plain env floatStr pathExists) (name path : String) :
    checkPath env name (.yaml (.str path)) = raise (AppConfig.checkPath pathExists name path) := by
  by_cases hempty : path = ""
  · subst hempty
    rfl
  · simp only [checkPath, AppConfig.checkPath, AppConfig.check, missing, Obj.truthy, Yaml.truthy,
      h.pathExists_eq, hempty, ne_eq, not_false_eq_true, decide_true, if_true]
    have hne : (path != "") = true := bne_iff_ne.mpr hempty
    rw [hne]
    cases pathExists path <;> rfl

theorem checkMode_typed (mode : String) :
    checkMode env (.yaml (.str mode)) = raise (AppConfig.check "inference_mode"
      (decide (mode = "llm") || decide (mode = "vlm")) s!" must be 'llm' or 'vlm', got '{mode}'") := by
  by_cases hllm : mode = "llm"
  · subst hllm
    rfl
  · by_cases hvlm : mode = "vlm"
    · subst hvlm
      rfl
    · rw [decide_eq_false hllm, decide_eq_false hvlm, checkMode]
      · rfl
      · rintro ⟨⟩
        exact hllm rfl
      · rintro ⟨⟩
        exact hvlm rfl

theorem checkTls_typed (h : Plain env floatStr pathExists) (tls : TLSConfig) :
    checkTls env (.record
      [("enabled", .yaml (.bool tls.enabled)),
       ("ca_cert", .yaml (.str tls.caCert)),
       ("server_cert", .yaml (.str tls.serverCert)),
       ("server_key", .yaml (.str tls.serverKey))]) = raise (AppConfig.checkTls pathExists tls) := by
  rw [AppConfig.checkTls]
  cases hon : tls.enabled with
  | false => rfl
  | true =>
    rw [if_pos rfl, raise_bind, raise_bind, ← checkPath_typed h, ← checkPath_typed h,
      ← checkPath_typed h]
    rfl

theorem checkBucket_typed (cloudStorage : CloudStorageConfig) :
    checkBucket (.record
      [("enabled", .yaml (.bool cloudStorage.enabled)),
       ("bucket", .yaml (.str cloudStorage.bucket))]) =
      raise (AppConfig.check "cloud_storage.bucket"
        (!cloudStorage.enabled || cloudStorage.bucket != "") " must be non-empty when enabled") := by
  cases hon : cloudStorage.enabled with
  | false => rfl
  | true =>
    by_cases hempty : cloudStorage.bucket = ""
    · rw [hempty]
      rfl
    · have hne : (cloudStorage.bucket != "") = true := bne_iff_ne.mpr hempty
      have htruthy : (Obj.yaml (.str cloudStorage.bucket)).truthy = true := decide_eq_true hempty
      have hstep : checkBucket (.record
          [("enabled", .yaml (.bool true)), ("bucket", .yaml (.str cloudStorage.bucket))]) =
          if (Obj.yaml (.str cloudStorage.bucket)).truthy then .ok ()
          else .error (.configError ⟨"cloud_storage.bucket", " must be non-empty when enabled"⟩) := rfl
      rw [hne, hstep, if_pos htruthy]
      rfl

/-- Where every field has its type, the checks are those of the typed configuration. -/
theorem validate_ofAppConfig (h : Plain env floatStr pathExists) (cfg : AppConfig) :
    validate env (ofAppConfig cfg) = raise (cfg.validate floatStr pathExists) := by
  have hcentral : read (ofAppConfig cfg) "central" "port" =
      .ok (.yaml (.int cfg.central.port)) := rfl
  have hmetrics : read (ofAppConfig cfg) "metrics" "port" =
      .ok (.yaml (.int cfg.metrics.port)) := rfl
  have hrecovery : read (ofAppConfig cfg) "circuit_breaker" "recovery_timeout" =
      .ok (.yaml (.float cfg.circuitBreaker.recoveryTimeout)) := rfl
  have hexpiry : read (ofAppConfig cfg) "sessions" "expiry_timeout" =
      .ok (.yaml (.float cfg.sessions.expiryTimeout)) := rfl
  have htimeout : read (ofAppConfig cfg) "batch" "timeout_seconds" =
      .ok (.yaml (.float cfg.batch.timeoutSeconds)) := rfl
  have hmode : read (ofAppConfig cfg) "central" "inference_mode" =
      .ok (.yaml (.str cfg.central.inferenceMode)) := rfl
  have hdevices : read (ofAppConfig cfg) "sessions" "max_devices" =
      .ok (.yaml (.int cfg.sessions.maxDevices)) := rfl
  simp only [AppConfig.validate, raise_bind, validate, hcentral, hmetrics, hrecovery, hexpiry,
    htimeout, hmode, hdevices, Except.bind_ok, checkPort_typed h, checkPositive_float h,
    checkPositive_int h, checkMode_typed]
  rw [← checkRules_typed h, ← checkTls_typed h, ← checkBucket_typed]
  rfl

end

end ConfigLoader
