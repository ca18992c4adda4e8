-- SUMMARY: Reloading of the configuration: what is in force after a reload, after a restart, and after a reload that fails.
import NeuroPipeline.Central.Alerting
import NeuroPipeline.Central.RateLimiter
import NeuroPipeline.Lib.Fallible

/-!
# Hot reload

Model of `_on_config_change` of main.py and of what container.py builds at the
start: the rules that trigger the vision model, the alert manager and the rate
limiter. The loader of the file is not modelled: a file is given by what it is
read as. Each statement of the callback may raise.
-/

open CFloat (const)

structure VLMTriggerRule where
  className : String := "person"
  minConfidence : Binary64 := const 0.8
  promptTemplate : String := "person_behavior"
  deriving DecidableEq

/-- The services whose settings a reload changes. -/
structure CentralServices where
  vlmRules : List VLMTriggerRule
  alertManager : Option AlertManager
  rateLimiter : Option TokenBucketRateLimiter

/-! ## What is in force -/

/-- The settings of an alert manager. -/
structure AlertSettings where
  rule : String → Option AlertRule
  route : AlertSeverity → Option String
  webhookUrl : String

def AlertManager.settings (m : AlertManager) : AlertSettings where
  rule name := m.rules.lookup name
  route severity := m.routes.lookup severity
  webhookUrl := m.webhookUrl

theorem AlertManager.settings_checkAndFire (m : AlertManager) (alert : Alert) (now : Binary64) :
    (m.checkAndFire alert now).1.settings = m.settings := by
  obtain ⟨hrules, hroutes, hurl⟩ := m.checkAndFire_settings alert now
  simp only [AlertManager.settings, hrules, hroutes, hurl]

structure InForce where
  vlmRules : List VLMTriggerRule
  alerts : Option AlertSettings
  limits : Option (String → ℚ × Int)

def CentralServices.inForce (s : CentralServices) : InForce where
  vlmRules := s.vlmRules
  alerts := s.alertManager.map AlertManager.settings
  limits := s.rateLimiter.map TokenBucketRateLimiter.limits

/-! ## Start -/

namespace ServiceContainer

def triggerRule (r : VLMRuleConfig) : VLMTriggerRule where
  className := r.className
  minConfidence := r.minConfidence
  promptTemplate := r.promptTemplate

/-- `_build_orchestrator`: without a rule there is the default one. -/
def buildVlmRules (cfg : AppConfig) : List VLMTriggerRule :=
  let rules := cfg.vlmRules.map triggerRule
  if rules.isEmpty then [{}] else rules

/-- `_build_rate_limiter` -/
def buildRateLimiter (cfg : RateLimitingConfig) : Option TokenBucketRateLimiter :=
  if !cfg.enabled then none else some { maxPerSec := cfg.maxRps, burst := cfg.burst }

def build (cfg : AppConfig) : Except String CentralServices := do
  let alertManager ← AlertingConfig.buildAlertManager cfg.alerting
  return {
    vlmRules := buildVlmRules cfg
    alertManager := alertManager
    rateLimiter := buildRateLimiter cfg.rateLimiting }

end ServiceContainer

/-! ## Reload -/

/-- The file of the configuration, and what it is read as. -/
inductive ConfigFile where
  | missing
  | unreadable (error : String)
  | contents (cfg : AppConfig)

/-- The statements of the callback. -/
inductive ReloadStep where
  | fromYaml
  | validate
  | logLevel
  | vlmRules
  | getRateLimiter
  | updateLimits
  | getAlertManager
  | alertRules
  | alertRoutes
  | updateRules
  deriving DecidableEq

structure ReloadEnv where
  floatStr : Binary64 → String
  pathExists : String → Bool
  /-- what a statement raises before it does anything -/
  raises : ReloadStep → Option String

namespace HotReload

variable (env : ReloadEnv)

def reach (step : ReloadStep) : Except String Unit :=
  match env.raises step with
  | some e => .error e
  | none => .ok ()

/-- `from_yaml`: a file that is not there is the default configuration. -/
def fromYaml : ConfigFile → Except String AppConfig
  | .missing => .ok {}
  | .unreadable e => .error e
  | .contents cfg => .ok cfg

/-- Up to the rules of the vision model; nothing is changed yet. -/
def load (file : ConfigFile) : Except String (AppConfig × List VLMTriggerRule) := do
  reach env .fromYaml
  let cfg ← fromYaml file
  reach env .validate
  (cfg.validate env.floatStr env.pathExists).mapError ConfigError.message
  reach env .logLevel
  reach env .vlmRules
  return (cfg, cfg.vlmRules.map ServiceContainer.triggerRule)

def reloadLimits (cfg : RateLimitingConfig) (limiter : Option TokenBucketRateLimiter) :
    Except String (Option TokenBucketRateLimiter) := do
  reach env .getRateLimiter
  match limiter with
  | none => return none
  | some l =>
    if cfg.enabled then do
      reach env .updateLimits
      return some (l.updateLimits cfg.maxRps cfg.burst)
    else return some l

def reloadAlerts (cfg : AlertingConfig) (manager : Option AlertManager) :
    Except String (Option AlertManager) := do
  reach env .getAlertManager
  match manager with
  | none => return none
  | some m =>
    if cfg.enabled then do
      reach env .alertRules
      let rules := cfg.rules.map AlertingConfig.alertRule
      reach env .alertRoutes
      let routes ← AlertingConfig.alertRoutes cfg.routes
      reach env .updateRules
      return some (m.updateRules rules routes)
    else return some m

/-- `_on_config_change`, and what it has caught. -/
def onConfigChange (file : ConfigFile) (s : CentralServices) : CentralServices × Option String :=
  match load env file with
  | .error e => (s, some e)
  | .ok (cfg, rules) =>
    let s := { s with vlmRules := rules }
    match reloadLimits env cfg.rateLimiting s.rateLimiter with
    | .error e => (s, some e)
    | .ok limiter =>
      let s := { s with rateLimiter := limiter }
      match reloadAlerts env cfg.alerting s.alertManager with
      | .error e => (s, some e)
      | .ok manager => ({ s with alertManager := manager }, none)

/-! ## What the stages do -/

variable {env} {file : ConfigFile} {cfg : AppConfig} {s : CentralServices}

theorem reach_eq_ok_iff {step : ReloadStep} {u : Unit} :
    reach env step = .ok u ↔ env.raises step = none := by
  cases h : env.raises step <;> simp [reach, h]

theorem mapError_eq_ok {α ε : Type} {x : Except ε α} {f : ε → String} {a : α} :
    x.mapError f = .ok a ↔ x = .ok a := by
  cases x <;> simp [Except.mapError]

/-- A file is loaded when it is read, valid, and nothing raises on the way. -/
theorem load_eq_ok_iff {rules : List VLMTriggerRule} :
    load env file = .ok (cfg, rules) ↔
      fromYaml file = .ok cfg ∧ cfg.validate env.floatStr env.pathExists = .ok () ∧
      (∀ step ∈ [ReloadStep.fromYaml, .validate, .logLevel, .vlmRules], env.raises step = none) ∧
      rules = cfg.vlmRules.map ServiceContainer.triggerRule := by
  simp only [load, Except.bind_eq_ok, reach_eq_ok_iff, mapError_eq_ok]
  constructor
  · rintro ⟨-, hyaml, cfg', hfile, -, hvalidate, ⟨⟩, hvalid, -, hlevel, -, hrules, heq⟩
    obtain ⟨rfl, rfl⟩ := Prod.mk.inj (Except.ok.inj heq)
    exact ⟨hfile, hvalid, by simp [hyaml, hvalidate, hlevel, hrules], rfl⟩
  · rintro ⟨hfile, hvalid, hraises, rfl⟩
    exact ⟨(), hraises _ (by simp), cfg, hfile, (), hraises _ (by simp), (), hvalid, (),
      hraises _ (by simp), (), hraises _ (by simp), rfl⟩

/-- The rate limiter that the configuration asks for, if there is one. -/
def newLimiter (cfg : RateLimitingConfig) (limiter : Option TokenBucketRateLimiter) :
    Option TokenBucketRateLimiter :=
  limiter.map fun l => if cfg.enabled then l.updateLimits cfg.maxRps cfg.burst else l

theorem reloadLimits_ok {cfg : RateLimitingConfig} {limiter limiter' : Option TokenBucketRateLimiter}
    (h : reloadLimits env cfg limiter = .ok limiter') : limiter' = newLimiter cfg limiter := by
  obtain ⟨-, -, h⟩ := Except.bind_eq_ok.mp h
  cases limiter with
  | none => exact (Except.ok.inj h).symm
  | some l =>
      cases henabled : cfg.enabled with
      | false =>
          simp only [henabled, Bool.false_eq_true, if_false] at h
          rw [← Except.ok.inj h]
          simp [newLimiter, henabled]
      | true =>
          simp only [henabled, if_true] at h
          obtain ⟨-, -, h⟩ := Except.bind_eq_ok.mp h
          rw [← Except.ok.inj h]
          simp [newLimiter, henabled]

/-- A reload of the alerts that succeeds has read the routes, if it had to. -/
theorem reloadAlerts_ok {cfg : AlertingConfig} {manager manager' : Option AlertManager}
    (h : reloadAlerts env cfg manager = .ok manager') :
    ((manager = none ∨ cfg.enabled = false) ∧ manager' = manager) ∨
    ∃ m routes, manager = some m ∧ cfg.enabled = true ∧
      AlertingConfig.alertRoutes cfg.routes = .ok routes ∧
      manager' = some (m.updateRules (cfg.rules.map AlertingConfig.alertRule) routes) := by
  obtain ⟨-, -, h⟩ := Except.bind_eq_ok.mp h
  cases manager with
  | none => exact .inl ⟨.inl rfl, (Except.ok.inj h).symm⟩
  | some m =>
      cases henabled : cfg.enabled with
      | false =>
          simp only [henabled, Bool.false_eq_true, if_false] at h
          exact .inl ⟨.inr rfl, (Except.ok.inj h).symm⟩
      | true =>
          simp only [henabled, if_true, Except.bind_eq_ok] at h
          obtain ⟨-, -, -, -, routes, hroutes, -, -, h⟩ := h
          exact .inr ⟨m, routes, rfl, rfl, hroutes, (Except.ok.inj h).symm⟩

/-- What raises in the update of the limits. -/
def LimitsRaise (env : ReloadEnv) (cfg : RateLimitingConfig)
    (limiter : Option TokenBucketRateLimiter) : Prop :=
  env.raises .getRateLimiter ≠ none ∨
  (limiter ≠ none ∧ cfg.enabled = true ∧ env.raises .updateLimits ≠ none)

theorem reloadLimits_raises_iff {cfg : RateLimitingConfig}
    {limiter : Option TokenBucketRateLimiter} :
    (∃ e, reloadLimits env cfg limiter = .error e) ↔ LimitsRaise env cfg limiter := by
  cases hget : env.raises .getRateLimiter with
  | some e => simp [reloadLimits, reach, LimitsRaise, hget, bind, Except.bind]
  | none =>
      cases limiter with
      | none => simp [reloadLimits, reach, LimitsRaise, hget, bind, Except.bind, pure, Except.pure]
      | some l =>
          cases henabled : cfg.enabled <;> cases hupdate : env.raises .updateLimits <;>
            simp [reloadLimits, reach, LimitsRaise, hget, henabled, hupdate, bind, Except.bind,
              pure, Except.pure]

/-- What raises in the update of the alerts. -/
def AlertsRaise (env : ReloadEnv) (cfg : AlertingConfig) (manager : Option AlertManager) : Prop :=
  env.raises .getAlertManager ≠ none ∨
  (manager ≠ none ∧ cfg.enabled = true ∧
    (env.raises .alertRules ≠ none ∨ env.raises .alertRoutes ≠ none ∨
      (∃ e, AlertingConfig.alertRoutes cfg.routes = .error e) ∨ env.raises .updateRules ≠ none))

theorem reloadAlerts_raises_iff {cfg : AlertingConfig} {manager : Option AlertManager} :
    (∃ e, reloadAlerts env cfg manager = .error e) ↔ AlertsRaise env cfg manager := by
  cases hget : env.raises .getAlertManager with
  | some e => simp [reloadAlerts, reach, AlertsRaise, hget, bind, Except.bind]
  | none =>
      cases manager with
      | none => simp [reloadAlerts, reach, AlertsRaise, hget, bind, Except.bind, pure, Except.pure]
      | some m =>
          cases henabled : cfg.enabled <;> cases hrules : env.raises .alertRules <;>
            cases hroutes : env.raises .alertRoutes <;>
            cases hread : AlertingConfig.alertRoutes cfg.routes <;>
            cases hupdate : env.raises .updateRules <;>
            simp [reloadAlerts, reach, AlertsRaise, hget, henabled, hrules, hroutes, hread, hupdate,
              bind, Except.bind, pure, Except.pure]

/-! ## What a reload leaves unchanged -/

/-- The limits that the configuration asks for are the ones that are met. -/
def LimitsSame (cfg : RateLimitingConfig) (limiter : Option TokenBucketRateLimiter) : Prop :=
  ∀ l, limiter = some l → cfg.enabled = true →
    ∀ k, l.limits k = ((cfg.maxRps : ℚ), cfg.burst)

theorem newLimiter_limits_iff (cfg : RateLimitingConfig) (limiter : Option TokenBucketRateLimiter) :
    (newLimiter cfg limiter).map TokenBucketRateLimiter.limits =
        limiter.map TokenBucketRateLimiter.limits ↔ LimitsSame cfg limiter := by
  cases limiter with
  | none => simp [newLimiter, LimitsSame]
  | some l =>
      cases henabled : cfg.enabled with
      | false => simp [newLimiter, LimitsSame, henabled]
      | true =>
          simp only [newLimiter, LimitsSame, henabled, Option.map_some, if_true, Option.some.injEq,
            TokenBucketRateLimiter.limits_updateLimits, forall_eq', true_implies, funext_iff]
          exact forall_congr' fun k => eq_comm

/-- The three ways through the callback. -/
theorem onConfigChange_cases (env : ReloadEnv) (file : ConfigFile) (s : CentralServices) :
    (∃ e, load env file = .error e ∧ onConfigChange env file s = (s, some e)) ∨
    ∃ cfg rules, load env file = .ok (cfg, rules) ∧
      ((∃ e, LimitsRaise env cfg.rateLimiting s.rateLimiter ∧
        onConfigChange env file s = ({ s with vlmRules := rules }, some e)) ∨
      (¬ LimitsRaise env cfg.rateLimiting s.rateLimiter ∧
        ((∃ e, AlertsRaise env cfg.alerting s.alertManager ∧
          onConfigChange env file s = ({ s with
            vlmRules := rules
            rateLimiter := newLimiter cfg.rateLimiting s.rateLimiter }, some e)) ∨
        ∃ manager, ¬ AlertsRaise env cfg.alerting s.alertManager ∧
          reloadAlerts env cfg.alerting s.alertManager = .ok manager ∧
          onConfigChange env file s = ({ s with
            vlmRules := rules
            rateLimiter := newLimiter cfg.rateLimiting s.rateLimiter
            alertManager := manager }, none)))) := by
  cases hload : load env file with
  | error e => exact .inl ⟨e, rfl, by simp [onConfigChange, hload]⟩
  | ok loaded =>
      obtain ⟨cfg, rules⟩ := loaded
      refine .inr ⟨cfg, rules, rfl, ?_⟩
      rw [← reloadLimits_raises_iff, ← reloadAlerts_raises_iff]
      cases hlimits : reloadLimits env cfg.rateLimiting s.rateLimiter with
      | error e => exact .inl ⟨e, ⟨e, rfl⟩, by simp [onConfigChange, hload, hlimits]⟩
      | ok limiter =>
          obtain rfl := reloadLimits_ok hlimits
          refine .inr ⟨by simp, ?_⟩
          cases halerts : reloadAlerts env cfg.alerting s.alertManager with
          | error e => exact .inl ⟨e, ⟨e, rfl⟩, by simp [onConfigChange, hload, hlimits, halerts]⟩
          | ok manager =>
              exact .inr ⟨manager, by simp, rfl, by simp [onConfigChange, hload, hlimits, halerts]⟩

/-! ## A failed reload -/

/-- The file is gone, or the callback has caught an exception. -/
def Failed (env : ReloadEnv) (file : ConfigFile) (s : CentralServices) : Prop :=
  file = .missing ∨ (onConfigChange env file s).2 ≠ none

/-- There is no rule to fire, and no route. -/
def NoAlerts (manager : Option AlertManager) : Prop :=
  ∀ m, manager = some m →
    (∀ name, m.rules.lookup name = none) ∧ ∀ severity, m.routes.lookup severity = none

/-- What raises comes before the first assignment, or the assignments before it are of
what is in force. A file that is gone is the default configuration. -/
def Harmless (env : ReloadEnv) (file : ConfigFile) (s : CentralServices) : Prop :=
  (∃ e, load env file = .error e) ∨
  ∃ cfg, fromYaml file = .ok cfg ∧ cfg.vlmRules.map ServiceContainer.triggerRule = s.vlmRules ∧
    (LimitsRaise env cfg.rateLimiting s.rateLimiter ∨
      (LimitsSame cfg.rateLimiting s.rateLimiter ∧
        (file = .missing →
          AlertsRaise env cfg.alerting s.alertManager ∨ NoAlerts s.alertManager)))

/-- The default configuration has alerting enabled, without a rule or a route. -/
theorem defaultAlerts_settings_iff {manager manager' : Option AlertManager}
    (h : reloadAlerts env {} manager = .ok manager') :
    manager'.map AlertManager.settings = manager.map AlertManager.settings ↔
      NoAlerts manager := by
  rcases reloadAlerts_ok h with ⟨hskip, rfl⟩ | ⟨m, routes, rfl, -, hroutes, rfl⟩
  · obtain rfl : manager' = none := hskip.resolve_right (by simp)
    simp [NoAlerts]
  · obtain rfl := Except.ok.inj hroutes
    simp [NoAlerts, AlertManager.settings, AlertManager.updateRules, AlertManager.rulesOf,
      AlertManager.routesOf, funext_iff, eq_comm]

/-- A failed reload changes nothing exactly when it is harmless. -/
theorem failed_unchanged_iff {env : ReloadEnv} {file : ConfigFile} {s : CentralServices}
    (hfailed : Failed env file s) :
    (onConfigChange env file s).1.inForce = s.inForce ↔ Harmless env file s := by
  rcases onConfigChange_cases env file s with ⟨e, hload, hrun⟩ | ⟨cfg, rules, hload, hrun⟩
  · rw [hrun]
    exact iff_of_true rfl (.inl ⟨e, hload⟩)
  · obtain ⟨hfile, -, -, rfl⟩ := load_eq_ok_iff.mp hload
    have hharmless : Harmless env file s ↔
        cfg.vlmRules.map ServiceContainer.triggerRule = s.vlmRules ∧
        (LimitsRaise env cfg.rateLimiting s.rateLimiter ∨
          (LimitsSame cfg.rateLimiting s.rateLimiter ∧
            (file = .missing →
              AlertsRaise env cfg.alerting s.alertManager ∨ NoAlerts s.alertManager))) := by
      simp [Harmless, hload, hfile]
    have hlimiter := newLimiter_limits_iff cfg.rateLimiting s.rateLimiter
    rw [hharmless]
    rcases hrun with ⟨e, hraise, hrun⟩ | ⟨hlimits, ⟨e, hraise, hrun⟩ | ⟨manager, hquiet, halerts, hrun⟩⟩
    · simp [hrun, CentralServices.inForce, hraise]
    · simp [hrun, CentralServices.inForce, hlimits, hraise, hlimiter]
    · -- nothing was raised, so the file is gone
      obtain rfl : file = .missing := hfailed.resolve_right (by simp [hrun])
      obtain rfl := Except.ok.inj hfile
      have hsettings := defaultAlerts_settings_iff halerts
      simp only [hrun, CentralServices.inForce, InForce.mk.injEq, hsettings, hlimiter]
      tauto

/-! ## A restart -/

/-- Nothing is raised but by what the file says. -/
def quiet (floatStr : Binary64 → String) (pathExists : String → Bool) : ReloadEnv :=
  ⟨floatStr, pathExists, fun _ => none⟩

/-- The services were started with this configuration, and none was put in force since. -/
def Running (old : AppConfig) (s : CentralServices) : Prop :=
  ∃ s₀, ServiceContainer.build old = .ok s₀ ∧ s.inForce = s₀.inForce

/-- Serving requests and firing alerts puts nothing in force. -/
theorem Running.served {old : AppConfig} {s : CentralServices} (h : Running old s)
    (deviceId : String) (now : ℚ) :
    Running old { s with rateLimiter := s.rateLimiter.map fun l => (l.allow deviceId now).1 } := by
  obtain ⟨s₀, hbuild, hsame⟩ := h
  refine ⟨s₀, hbuild, ?_⟩
  rw [← hsame]
  cases hl : s.rateLimiter <;> simp [CentralServices.inForce, hl]

theorem Running.fired {old : AppConfig} {s : CentralServices} (h : Running old s) (alert : Alert)
    (now : Binary64) :
    Running old { s with
      alertManager := s.alertManager.map fun m => (m.checkAndFire alert now).1 } := by
  obtain ⟨s₀, hbuild, hsame⟩ := h
  refine ⟨s₀, hbuild, ?_⟩
  rw [← hsame]
  cases hm : s.alertManager <;>
    simp [CentralServices.inForce, hm, AlertManager.settings_checkAndFire]

/-- The reload puts in force what a start with the new configuration would. -/
def LikeRestart (floatStr : Binary64 → String) (pathExists : String → Bool) (new : AppConfig)
    (s : CentralServices) : Prop :=
  ∃ fresh, ServiceContainer.build new = .ok fresh ∧
    (onConfigChange (quiet floatStr pathExists) (.contents new) s).1.inForce = fresh.inForce

/-- The new configuration has a rule for the vision model, enables what the old one does,
and, with alerting, has routes for severities only and the old default webhook. -/
def Reloadable (old new : AppConfig) : Prop :=
  new.vlmRules ≠ [] ∧ old.rateLimiting.enabled = new.rateLimiting.enabled ∧
  old.alerting.enabled = new.alerting.enabled ∧
  (new.alerting.enabled = true →
    (∀ rt ∈ new.alerting.routes, ∃ severity : AlertSeverity, rt.severity = severity.value) ∧
    old.alerting.webhookUrl = new.alerting.webhookUrl)

variable {old new : AppConfig} {floatStr : Binary64 → String} {pathExists : String → Bool}

theorem alertRoutes_ok_iff {rts : List AlertRouteConfig} :
    (∃ routes, AlertingConfig.alertRoutes rts = .ok routes) ↔
      ∀ rt ∈ rts, ∃ severity : AlertSeverity, rt.severity = severity.value := by
  simp only [AlertingConfig.alertRoutes_eq_ok_iff]
  constructor
  · rintro ⟨routes, rfl⟩ rt hrt
    obtain ⟨route, -, rfl⟩ := List.mem_map.mp hrt
    exact ⟨route.severity, rfl⟩
  · intro h
    induction rts with
    | nil => exact ⟨[], rfl⟩
    | cons rt rts ih =>
        obtain ⟨severity, hseverity⟩ := h rt List.mem_cons_self
        obtain ⟨routes, hroutes⟩ := ih fun rt hrt => h rt (List.mem_cons_of_mem _ hrt)
        refine ⟨⟨severity, rt.webhookUrl⟩ :: routes, ?_⟩
        rw [List.map_cons, ← hroutes, AlertingConfig.routeConfig, ← hseverity]

theorem buildAlertManager_cases (cfg : AlertingConfig) :
    (cfg.enabled = false ∧ cfg.buildAlertManager = .ok none) ∨
    (cfg.enabled = true ∧ ∃ routes, AlertingConfig.alertRoutes cfg.routes = .ok routes ∧
      cfg.buildAlertManager =
        .ok (some (.new (cfg.rules.map AlertingConfig.alertRule) cfg.webhookUrl routes))) ∨
    (cfg.enabled = true ∧ ∃ e, AlertingConfig.alertRoutes cfg.routes = .error e ∧
      cfg.buildAlertManager = .error e) := by
  cases henabled : cfg.enabled with
  | false => exact .inl ⟨rfl, by simp [AlertingConfig.buildAlertManager, henabled]⟩
  | true =>
      cases hroutes : AlertingConfig.alertRoutes cfg.routes with
      | error e =>
          refine .inr (.inr ⟨rfl, e, rfl, ?_⟩)
          simp [AlertingConfig.buildAlertManager, henabled, hroutes, bind, Except.bind]
      | ok routes =>
          refine .inr (.inl ⟨rfl, routes, rfl, ?_⟩)
          simp [AlertingConfig.buildAlertManager, henabled, hroutes, bind, Except.bind, pure,
            Except.pure]

theorem build_eq_ok_iff {cfg : AppConfig} {s : CentralServices} :
    ServiceContainer.build cfg = .ok s ↔
      ∃ manager, cfg.alerting.buildAlertManager = .ok manager ∧
        s = ⟨ServiceContainer.buildVlmRules cfg, manager,
          ServiceContainer.buildRateLimiter cfg.rateLimiting⟩ := by
  cases h : cfg.alerting.buildAlertManager <;>
    simp [ServiceContainer.build, h, bind, Except.bind, pure, Except.pure, eq_comm]

/-- A start without rules for the vision model has the default one, a reload has none. -/
theorem vlmRules_like_restart_iff :
    new.vlmRules.map ServiceContainer.triggerRule = ServiceContainer.buildVlmRules new ↔
      new.vlmRules ≠ [] := by
  cases hrules : new.vlmRules <;> simp [ServiceContainer.buildVlmRules, hrules]

theorem limits_like_restart_iff {cfg cfg' : RateLimitingConfig}
    {limiter : Option TokenBucketRateLimiter}
    (h : limiter.map TokenBucketRateLimiter.limits =
      (ServiceContainer.buildRateLimiter cfg).map TokenBucketRateLimiter.limits) :
    (newLimiter cfg' limiter).map TokenBucketRateLimiter.limits =
        (ServiceContainer.buildRateLimiter cfg').map TokenBucketRateLimiter.limits ↔
      cfg.enabled = cfg'.enabled := by
  have hfresh : ∀ c : RateLimitingConfig,
      (ServiceContainer.buildRateLimiter c).map TokenBucketRateLimiter.limits =
        if c.enabled then some fun _ => ((c.maxRps : ℚ), c.burst) else none := by
    intro c
    cases hc : c.enabled
    · simp [ServiceContainer.buildRateLimiter, hc]
    · simp [ServiceContainer.buildRateLimiter, hc, TokenBucketRateLimiter.limits, funext_iff]
  rw [hfresh] at h ⊢
  cases limiter with
  | none =>
      cases ho : cfg.enabled with
      | false => cases hn : cfg'.enabled <;> simp [newLimiter]
      | true => simp [ho] at h
  | some l =>
      cases ho : cfg.enabled with
      | false => simp [ho] at h
      | true => cases hn : cfg'.enabled <;> simp [newLimiter, hn]

/-- Where the services end up when nothing else raises. -/
theorem onConfigChange_quiet (hnew : new.validate floatStr pathExists = .ok ())
    (s : CentralServices) :
    (onConfigChange (quiet floatStr pathExists) (.contents new) s).1 =
      ⟨new.vlmRules.map ServiceContainer.triggerRule,
        (reloadAlerts (quiet floatStr pathExists) new.alerting s.alertManager).toOption.getD
          s.alertManager,
        newLimiter new.rateLimiting s.rateLimiter⟩ := by
  have hload : load (quiet floatStr pathExists) (.contents new) =
      .ok (new, new.vlmRules.map ServiceContainer.triggerRule) :=
    load_eq_ok_iff.mpr ⟨rfl, hnew, fun _ _ => rfl, rfl⟩
  rcases onConfigChange_cases (quiet floatStr pathExists) (.contents new) s with
    ⟨e, herror, -⟩ | ⟨cfg, rules, hload', hrun⟩
  · rw [hload] at herror
    cases herror
  · obtain ⟨rfl, rfl⟩ := Prod.mk.inj (Except.ok.inj (hload.symm.trans hload'))
    rcases hrun with ⟨e, hraise, -⟩ | ⟨-, ⟨e, hraise, hrun⟩ | ⟨manager, -, halerts, hrun⟩⟩
    · simp [LimitsRaise, quiet] at hraise
    · obtain ⟨e', halerts⟩ := reloadAlerts_raises_iff.mpr hraise
      rw [hrun, halerts]
      rfl
    · rw [hrun, halerts]
      rfl

theorem alerts_like_restart_iff {cfg cfg' : AlertingConfig} {manager manager₀ : Option AlertManager}
    (hbuild : cfg.buildAlertManager = .ok manager₀)
    (h : manager.map AlertManager.settings = manager₀.map AlertManager.settings) :
    (∃ fresh, cfg'.buildAlertManager = .ok fresh ∧
      ((reloadAlerts (quiet floatStr pathExists) cfg' manager).toOption.getD manager).map
        AlertManager.settings = fresh.map AlertManager.settings) ↔
    cfg.enabled = cfg'.enabled ∧
      (cfg'.enabled = true →
        (∃ routes, AlertingConfig.alertRoutes cfg'.routes = .ok routes) ∧
        cfg.webhookUrl = cfg'.webhookUrl) := by
  -- the running manager is there when it was enabled, with the URL that it was built with
  have hrunning : (cfg.enabled = false ∧ manager = none) ∨
      ∃ m, cfg.enabled = true ∧ manager = some m ∧ m.webhookUrl = cfg.webhookUrl := by
    rcases buildAlertManager_cases cfg with ⟨hoff, hb⟩ | ⟨hon, routes, -, hb⟩ | ⟨-, e, -, hb⟩
    · obtain rfl := Except.ok.inj (hbuild.symm.trans hb)
      exact .inl ⟨hoff, by simpa using h⟩
    · obtain rfl := Except.ok.inj (hbuild.symm.trans hb)
      obtain ⟨m, rfl, hm⟩ := Option.map_eq_some_iff.mp h
      exact .inr ⟨m, hon, rfl, congrArg AlertSettings.webhookUrl hm⟩
    · rw [hbuild] at hb
      cases hb
  have hreload : ∀ m, cfg'.enabled = true → ∀ routes,
      AlertingConfig.alertRoutes cfg'.routes = .ok routes →
      reloadAlerts (quiet floatStr pathExists) cfg' (some m) =
        .ok (some (m.updateRules (cfg'.rules.map AlertingConfig.alertRule) routes)) := by
    intro m hon routes hroutes
    simp [reloadAlerts, reach, quiet, hon, hroutes, bind, Except.bind, pure, Except.pure]
  rcases buildAlertManager_cases cfg' with ⟨hoff, hb⟩ | ⟨hon, routes, hroutes, hb⟩ | ⟨hon, e, herror, hb⟩
  · have hsame : reloadAlerts (quiet floatStr pathExists) cfg' manager = .ok manager := by
      cases manager <;>
        simp [reloadAlerts, reach, quiet, hoff, bind, Except.bind, pure, Except.pure]
    rcases hrunning with ⟨hold, rfl⟩ | ⟨m, hold, rfl, -⟩
    · simp [hb, hsame, hoff, hold, Except.toOption]
    · simp [hb, hsame, hoff, hold, Except.toOption]
  · rcases hrunning with ⟨hold, rfl⟩ | ⟨m, hold, rfl, hwebhook⟩
    · have hnone : reloadAlerts (quiet floatStr pathExists) cfg' none = .ok none := rfl
      simp [hb, hnone, hon, hold, Except.toOption]
    · simp [hb, hreload m hon routes hroutes, hon, hold, hroutes, Except.toOption,
        AlertManager.settings, AlertManager.updateRules, AlertManager.new, hwebhook]
      exact eq_comm
  · simp [hb, herror, hon]

/-- A reload to a file without rules for the vision model. -/
def withoutRules : AppConfig := { vlmRules := [] }

/-- A new rule for the vision model, and a route for a severity that there is not. -/
def urgentRoute : AppConfig where
  vlmRules := [{ className := "car" }]
  alerting := { routes := [⟨"urgent", "https://hooks/urgent"⟩] }

/-- What a start with the defaults builds. -/
def defaultServices : CentralServices := ⟨[{}], some (.new [] "" []), none⟩

theorem running_default : Running {} defaultServices := ⟨defaultServices, rfl, rfl⟩

theorem valid_urgentRoute (floatStr : Binary64 → String) (pathExists : String → Bool) :
    urgentRoute.validate floatStr pathExists = .ok () :=
  AppConfig.validate_of_defaults _ {} (AppConfig.checkConfidences_singleton (by decide +kernel))

/-- The route raises when the rules have been assigned. -/
theorem onConfigChange_urgentRoute :
    onConfigChange (quiet (fun _ => "") fun _ => false) (.contents urgentRoute) defaultServices =
      ({ defaultServices with vlmRules := [{ className := "car" }] },
        some "'urgent' is not a valid AlertSeverity") := by
  have hload : load (quiet (fun _ => "") fun _ => false) (.contents urgentRoute) =
      .ok (urgentRoute, [{ className := "car" }]) :=
    load_eq_ok_iff.mpr ⟨rfl, valid_urgentRoute _ _, fun _ _ => rfl, rfl⟩
  rw [onConfigChange, hload]
  rfl

theorem not_unchanged_urgentRoute :
    ¬ ∀ (env : ReloadEnv) (file : ConfigFile) (s : CentralServices), Failed env file s →
      (onConfigChange env file s).1.inForce = s.inForce := by
  intro h
  have hfailed : Failed (quiet (fun _ => "") fun _ => false) (.contents urgentRoute)
      defaultServices := .inr (by simp [onConfigChange_urgentRoute])
  have heq := h _ _ _ hfailed
  rw [onConfigChange_urgentRoute] at heq
  exact absurd (congrArg InForce.vlmRules heq) (by decide +kernel)

theorem failed_unchanged_iff_missing :
    (onConfigChange (quiet (fun _ => "") fun _ => false) .missing defaultServices).1.inForce =
        defaultServices.inForce ↔
      Harmless (quiet (fun _ => "") fun _ => false) .missing defaultServices :=
  failed_unchanged_iff (.inl rfl)

end HotReload
