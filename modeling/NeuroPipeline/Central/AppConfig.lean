-- SUMMARY: The configuration of the central server: its sections, their defaults, and its validation.
import NeuroPipeline.Central.VlmConfigGuide

/-!
# Configuration

Model of config.py: the sections that are validated, or used where the
configuration is reloaded. Every message of `ConfigError` begins with the field
that it is about.
-/

open CFloat (const)

structure VLMRuleConfig where
  className : String := "person"
  minConfidence : Binary64 := const 0.8
  promptTemplate : String := "person_behavior"
  deriving DecidableEq

structure AlertRuleConfig where
  name : String := ""
  cooldownSeconds : Binary64 := const 300
  severity : String := "critical"
  deriving DecidableEq

structure AlertRouteConfig where
  severity : String := "critical"
  webhookUrl : String := ""
  deriving DecidableEq

structure AlertingConfig where
  enabled : Bool := true
  webhookUrl : String := ""
  rules : List AlertRuleConfig := []
  routes : List AlertRouteConfig := []
  deriving DecidableEq

structure RateLimitingConfig where
  enabled : Bool := false
  maxRps : Int := 100
  burst : Int := 20
  deriving DecidableEq

structure CentralConfig where
  port : Int := 50051
  inferenceMode : String := "llm"
  deriving DecidableEq

structure TLSConfig where
  enabled : Bool := false
  caCert : String := ""
  serverCert : String := ""
  serverKey : String := ""
  deriving DecidableEq

structure MetricsConfig where
  port : Int := 9090
  deriving DecidableEq

structure CircuitBreakerConfig where
  recoveryTimeout : Binary64 := const 30
  deriving DecidableEq

structure BatchConfig where
  timeoutSeconds : Binary64 := const 2
  deriving DecidableEq

structure SessionConfig where
  expiryTimeout : Binary64 := const 30
  maxDevices : Int := 16
  deriving DecidableEq

structure CloudStorageConfig where
  enabled : Bool := false
  bucket : String := ""
  deriving DecidableEq

structure AppConfig where
  central : CentralConfig := {}
  tls : TLSConfig := {}
  metrics : MetricsConfig := {}
  alerting : AlertingConfig := {}
  circuitBreaker : CircuitBreakerConfig := {}
  vlmRules : List VLMRuleConfig := [{}]
  batch : BatchConfig := {}
  sessions : SessionConfig := {}
  cloudStorage : CloudStorageConfig := {}
  rateLimiting : RateLimitingConfig := {}
  deriving DecidableEq

/-! ## Validation -/

structure ConfigError where
  field : String
  complaint : String
  deriving DecidableEq

def ConfigError.message (e : ConfigError) : String := e.field ++ e.complaint

namespace AppConfig

/-- Complain of the field unless it is in order. -/
def check (field : String) (ok : Bool) (complaint : String) : Except ConfigError Unit :=
  if ok then .ok () else .error ⟨field, complaint⟩

def checkPort (name : String) (port : Int) : Except ConfigError Unit :=
  check name (1 ≤ port && port ≤ 65535) s!" must be 1-65535, got {port}"

def checkConfidence (floatStr : Binary64 → String) (i : Nat) (rule : VLMRuleConfig) :
    Except ConfigError Unit :=
  check s!"vlm_rules[{i}].min_confidence"
    (const 0 ≤ rule.minConfidence && rule.minConfidence ≤ const 1)
    s!" must be 0.0-1.0, got {floatStr rule.minConfidence}"

def checkConfidences (floatStr : Binary64 → String) :
    Nat → List VLMRuleConfig → Except ConfigError Unit
  | _, [] => .ok ()
  | i, rule :: rules => do
    checkConfidence floatStr i rule
    checkConfidences floatStr (i + 1) rules

def checkPositive (floatStr : Binary64 → String) (name : String) (val : Binary64) :
    Except ConfigError Unit :=
  -- a NaN is not found to be too small
  check name (!decide (val ≤ const 0)) s!" must be > 0, got {floatStr val}"

def checkPath (pathExists : String → Bool) (name path : String) : Except ConfigError Unit :=
  check name (path != "" && pathExists path) s!" path does not exist: {path}"

def checkTls (pathExists : String → Bool) (tls : TLSConfig) : Except ConfigError Unit :=
  if tls.enabled then do
    checkPath pathExists "tls.ca_cert" tls.caCert
    checkPath pathExists "tls.server_cert" tls.serverCert
    checkPath pathExists "tls.server_key" tls.serverKey
  else .ok ()

def validate (floatStr : Binary64 → String) (pathExists : String → Bool) (cfg : AppConfig) :
    Except ConfigError Unit := do
  checkPort "central.port" cfg.central.port
  checkPort "metrics.port" cfg.metrics.port
  checkConfidences floatStr 0 cfg.vlmRules
  checkPositive floatStr "circuit_breaker.recovery_timeout" cfg.circuitBreaker.recoveryTimeout
  checkPositive floatStr "sessions.expiry_timeout" cfg.sessions.expiryTimeout
  checkPositive floatStr "batch.timeout_seconds" cfg.batch.timeoutSeconds
  checkTls pathExists cfg.tls
  check "inference_mode" (cfg.central.inferenceMode = "llm" || cfg.central.inferenceMode = "vlm")
    s!" must be 'llm' or 'vlm', got '{cfg.central.inferenceMode}'"
  check "sessions.max_devices" (0 < cfg.sessions.maxDevices)
    s!" must be > 0, got {cfg.sessions.maxDevices}"
  check "cloud_storage.bucket" (!cfg.cloudStorage.enabled || cfg.cloudStorage.bucket != "")
    " must be non-empty when enabled"

variable {floatStr : Binary64 → String} {pathExists : String → Bool}

theorem check_of_true {field complaint : String} {ok : Bool} (h : ok = true) :
    check field ok complaint = .ok () := if_pos h

/-- The defaults of what is checked pass every check, whatever the rest is. -/
theorem validate_of_defaults {vlmRules : List VLMRuleConfig} (alerting : AlertingConfig)
    (rateLimiting : RateLimitingConfig) (h : checkConfidences floatStr 0 vlmRules = .ok ()) :
    AppConfig.validate floatStr pathExists
      { vlmRules := vlmRules, alerting := alerting, rateLimiting := rateLimiting } = .ok () := by
  have hrecovery : checkPositive floatStr "circuit_breaker.recovery_timeout" (const 30) = .ok () :=
    check_of_true (by decide +kernel)
  have hexpiry : checkPositive floatStr "sessions.expiry_timeout" (const 30) = .ok () :=
    check_of_true (by decide +kernel)
  have htimeout : checkPositive floatStr "batch.timeout_seconds" (const 2) = .ok () :=
    check_of_true (by decide +kernel)
  simp only [validate, h, hrecovery, hexpiry, htimeout]
  rfl

theorem checkConfidences_singleton {rule : VLMRuleConfig}
    (h : (const 0 ≤ rule.minConfidence && rule.minConfidence ≤ const 1) = true) :
    checkConfidences floatStr 0 [rule] = .ok () := by
  simp only [checkConfidences, checkConfidence, check_of_true h]
  rfl

/-- The default configuration is valid. -/
theorem validate_default : ({} : AppConfig).validate floatStr pathExists = .ok () :=
  validate_of_defaults {} {} (checkConfidences_singleton (by decide +kernel))

end AppConfig
