-- SUMMARY: Alerts over whole runs: the severity and the URL of what fires, against the configuration that the rules come from.
import NeuroPipeline.Central.HotReload
import NeuroPipeline.Lib.TransitionSystem

/-!
# Routing of alerts

Runs of the services in which events are checked and the configuration is
reloaded, beside the configuration that the rules were installed from.
-/

/-! ## What the configuration asks for -/

namespace AlertingConfig

/-- The rule of an event: the last one with its name. -/
def ruleFor (cfg : AlertingConfig) (name : String) : Option AlertRuleConfig :=
  cfg.rules.reverse.find? fun r => name = r.name

/-- The URL of a severity: that of the last route for it. -/
def routeFor (cfg : AlertingConfig) (severity : String) : Option String :=
  (cfg.routes.reverse.find? fun rt => severity = rt.severity).map AlertRouteConfig.webhookUrl

/-- Where alerts of a severity go: to its URL, or to the default one if it has none or
an empty one. -/
def destination (cfg : AlertingConfig) (severity : String) : Option String :=
  match cfg.routeFor severity with
  | none | some "" => AlertManager.post cfg.webhookUrl
  | some url => some url

/-- The alert has the severity of its rule and is posted where this severity goes. -/
def Conforms (cfg : AlertingConfig) (fired : FiredAlert) : Prop :=
  ∃ r, cfg.ruleFor fired.alert.name = some r ∧ fired.severity.value = r.severity ∧
    fired.postedTo = cfg.destination r.severity

theorem lookup_rulesOf (cfg : AlertingConfig) (name : String) :
    (AlertManager.rulesOf (cfg.rules.map alertRule)).lookup name =
      (cfg.ruleFor name).map alertRule := by
  rw [AlertManager.rulesOf, Dict.lookup_ofList, ruleFor, List.map_map, ← List.map_reverse,
    List.find?_map, Option.map_map]
  rfl

theorem lookup_routesOf {cfg : AlertingConfig} {routes : List AlertRoute}
    (h : alertRoutes cfg.routes = .ok routes) (severity : AlertSeverity) :
    (AlertManager.routesOf routes).lookup severity = cfg.routeFor severity.value := by
  have hvalue : ∀ severity' : AlertSeverity,
      severity.value = severity'.value ↔ severity = severity' := by
    intro severity'
    cases severity <;> cases severity' <;> simp [AlertSeverity.value]
  rw [AlertManager.routesOf, Dict.lookup_ofList, routeFor, alertRoutes_eq_ok_iff.mp h,
    ← List.map_reverse, ← List.map_reverse, List.find?_map, List.find?_map, Option.map_map,
    Option.map_map]
  simp only [Function.comp_def, routeConfig, hvalue]

end AlertingConfig

/-! ## Runs -/

structure AlertService where
  services : CentralServices
  /-- the configuration that the rules and routes come from -/
  installed : AlertingConfig

inductive AlertAct where
  /-- `check_and_fire` for an event -/
  | check (alert : Alert) (now : Binary64)
  | reload (env : ReloadEnv) (file : ConfigFile)

namespace AlertService

/-- The configuration whose alerts a reload has put in force, if it has. -/
def reloaded (s : AlertService) (env : ReloadEnv) (file : ConfigFile) : AlertingConfig :=
  match HotReload.load env file, (HotReload.onConfigChange env file s.services).2 with
  | .ok (cfg, _), none =>
    if s.services.alertManager.isSome && cfg.alerting.enabled then cfg.alerting else s.installed
  | _, _ => s.installed

def step (s : AlertService) : AlertAct → Option AlertService
  | .check alert now =>
    match s.services.alertManager with
    | none => some s
    | some m =>
      some { s with
        services := { s.services with alertManager := some (m.checkAndFire alert now).1 } }
  | .reload env file =>
    some ⟨(HotReload.onConfigChange env file s.services).1, s.reloaded env file⟩

/-- What an event fires. -/
def fires (s : AlertService) (alert : Alert) (now : Binary64) : Option FiredAlert :=
  s.services.alertManager.bind fun m => (m.checkAndFire alert now).2

end AlertService

def alertSystem (floatStr : Binary64 → String) (pathExists : String → Bool) :
    TransitionSystem AlertService AlertAct where
  init s := ∃ cfg : AppConfig, cfg.validate floatStr pathExists = .ok () ∧
    ServiceContainer.build cfg = .ok s.services ∧ s.installed = cfg.alerting
  step := AlertService.step

namespace AlertService

/-- Whatever is fired conforms to the configuration. -/
def FiresRight (s : AlertService) : AlertAct → Prop
  | .check alert now => ∀ fired, s.fires alert now = some fired → s.installed.Conforms fired
  | .reload _ _ => True

/-- The URL that the manager falls back to: that of the configuration it was built from. -/
def fallback (s : AlertService) : String :=
  (s.services.alertManager.map AlertManager.webhookUrl).getD ""

/-- The rule is configured as critical, and the critical severity has a URL, or the
fallback is the default URL and not covered by an empty one. -/
def PlainlyCritical (s : AlertService) (name : String) : Prop :=
  ∃ r, s.installed.ruleFor name = some r ∧ r.severity = "critical" ∧
    match s.installed.routeFor "critical" with
    | none => s.fallback = s.installed.webhookUrl
    | some url => url = "" → s.installed.webhookUrl = ""

def FiresPlain (s : AlertService) : AlertAct → Prop
  | .check alert now => s.fires alert now ≠ none → s.PlainlyCritical alert.name
  | .reload _ _ => True

/-- The rules and routes of the manager are those of the configuration. -/
def Installed (s : AlertService) : Prop :=
  ∀ m, s.services.alertManager = some m →
    (∀ name, m.rules.lookup name = (s.installed.ruleFor name).map AlertingConfig.alertRule) ∧
    ∀ severity : AlertSeverity, m.routes.lookup severity = s.installed.routeFor severity.value

variable {s s' : AlertService} {alert : Alert} {now : Binary64} {fired : FiredAlert}

/-! ## What is fired -/

/-- What is fired is critical, whatever its rule is configured as. -/
theorem Installed.fires (h : s.Installed) (hfires : s.fires alert now = some fired) :
    ∃ m r, s.services.alertManager = some m ∧ s.installed.ruleFor alert.name = some r ∧
      fired = ⟨alert, .critical,
        AlertManager.post ((s.installed.routeFor "critical").getD m.webhookUrl)⟩ := by
  obtain ⟨m, hm, hfired⟩ := Option.bind_eq_some_iff.mp hfires
  obtain ⟨rule, hrule, rfl⟩ := AlertManager.checkAndFire_fired hfired
  obtain ⟨hrules, hroutes⟩ := h m hm
  rw [hrules, Option.map_eq_some_iff] at hrule
  obtain ⟨r, hr, rfl⟩ := hrule
  refine ⟨m, r, hm, hr, ?_⟩
  simp only [AlertManager.getWebhookUrl, hroutes]
  rfl

theorem post_eq_destination_iff (cfg : AlertingConfig) (url : String) :
    AlertManager.post ((cfg.routeFor "critical").getD url) = cfg.destination "critical" ↔
      match cfg.routeFor "critical" with
      | none => url = cfg.webhookUrl
      | some url' => url' = "" → cfg.webhookUrl = "" := by
  cases hroute : cfg.routeFor "critical" with
  | none =>
      simp only [AlertingConfig.destination, hroute, Option.getD_none]
      exact AlertManager.post_injective.eq_iff
  | some url' =>
      by_cases hempty : url' = ""
      · subst hempty
        simp only [AlertingConfig.destination, hroute, Option.getD_some, true_implies]
        exact AlertManager.post_injective.eq_iff.trans eq_comm
      · simp [AlertingConfig.destination, hroute, hempty, AlertManager.post]

theorem Installed.conforms_iff (h : s.Installed) (hfires : s.fires alert now = some fired) :
    s.installed.Conforms fired ↔ s.PlainlyCritical alert.name := by
  obtain ⟨m, r, hm, hr, rfl⟩ := h.fires hfires
  have hfallback : s.fallback = m.webhookUrl := by simp [fallback, hm]
  have hdestination := post_eq_destination_iff s.installed m.webhookUrl
  rw [PlainlyCritical, hfallback, ← hdestination]
  constructor
  · rintro ⟨r', hr', hseverity, hposted⟩
    have hcritical : r'.severity = "critical" := hseverity.symm
    rw [hcritical] at hposted
    exact ⟨r', hr', hcritical, hposted⟩
  · rintro ⟨r', hr', hcritical, hposted⟩
    refine ⟨r', hr', hcritical.symm, ?_⟩
    rw [hcritical]
    exact hposted

theorem Installed.firesRight_iff (h : s.Installed) (a : AlertAct) :
    s.FiresRight a ↔ s.FiresPlain a := by
  cases a with
  | reload env file => exact Iff.rfl
  | check alert now =>
      cases hfires : s.fires alert now with
      | none => simp [FiresRight, FiresPlain, hfires]
      | some fired => simp [FiresRight, FiresPlain, hfires, h.conforms_iff hfires]

/-! ## What is installed -/

theorem Installed.of_settings (h : s.Installed)
    (hsettings : s'.services.alertManager.map AlertManager.settings =
      s.services.alertManager.map AlertManager.settings)
    (hinstalled : s'.installed = s.installed) : s'.Installed := by
  intro m' hm'
  rw [hm', Option.map_some] at hsettings
  obtain ⟨m, hm, heq⟩ := Option.map_eq_some_iff.mp hsettings.symm
  obtain ⟨hrules, hroutes⟩ := h m hm
  rw [hinstalled]
  refine ⟨fun name => ?_, fun severity => ?_⟩
  · exact (congrFun (congrArg AlertSettings.rule heq) name).symm.trans (hrules name)
  · exact (congrFun (congrArg AlertSettings.route heq) severity).symm.trans (hroutes severity)

theorem installed_of_routes {cfg : AlertingConfig} {routes : List AlertRoute} {m : AlertManager}
    (hroutes : AlertingConfig.alertRoutes cfg.routes = .ok routes)
    (hm : m.rules = AlertManager.rulesOf (cfg.rules.map AlertingConfig.alertRule))
    (hr : m.routes = AlertManager.routesOf routes)
    (hs : s.services.alertManager = some m) (hinstalled : s.installed = cfg) : s.Installed := by
  intro m' hm'
  obtain rfl := Option.some.inj (hs.symm.trans hm')
  rw [hm, hr, hinstalled]
  exact ⟨cfg.lookup_rulesOf, AlertingConfig.lookup_routesOf hroutes⟩

theorem Installed.check (h : s.Installed) (hs : s.step (.check alert now) = some s') :
    s'.Installed := by
  cases hm : s.services.alertManager with
  | none =>
      simp only [step, hm, Option.some.injEq] at hs
      exact hs ▸ h
  | some m =>
      simp only [step, hm, Option.some.injEq] at hs
      subst hs
      refine h.of_settings ?_ rfl
      simp [hm, AlertManager.settings_checkAndFire]

/-- A reload installs the rules and routes together, or neither. -/
theorem Installed.reload {env : ReloadEnv} {file : ConfigFile} (h : s.Installed)
    (hs : s.step (.reload env file) = some s') : s'.Installed := by
  obtain rfl := Option.some.inj hs
  rcases HotReload.onConfigChange_cases env file s.services with
    ⟨e, hload, hrun⟩ | ⟨cfg, rules, hload, ⟨e, -, hrun⟩ | ⟨-, ⟨e, -, hrun⟩ | ⟨manager, -, halerts, hrun⟩⟩⟩
  · exact h.of_settings (by rw [hrun]) (by simp [reloaded, hload])
  · exact h.of_settings (by rw [hrun]) (by simp [reloaded, hload, hrun])
  · exact h.of_settings (by rw [hrun]) (by simp [reloaded, hload, hrun])
  · rcases HotReload.reloadAlerts_ok halerts with
      ⟨hskip, rfl⟩ | ⟨m, routes, hm, henabled, hroutes, rfl⟩
    · refine h.of_settings (by rw [hrun]) ?_
      rcases hskip with hnone | hoff
      · simp [reloaded, hload, hrun, hnone]
      · simp [reloaded, hload, hrun, hoff]
    · exact installed_of_routes hroutes rfl rfl (by rw [hrun])
        (by simp [reloaded, hload, hrun, hm, henabled])

theorem installed_of_init {floatStr : Binary64 → String} {pathExists : String → Bool}
    (h : (alertSystem floatStr pathExists).init s) : s.Installed := by
  obtain ⟨cfg, -, hbuild, hinstalled⟩ := h
  obtain ⟨manager, hmanager, hservices⟩ := HotReload.build_eq_ok_iff.mp hbuild
  have hs : s.services.alertManager = manager := by rw [hservices]
  rcases HotReload.buildAlertManager_cases cfg.alerting with
    ⟨-, hb⟩ | ⟨-, routes, hroutes, hb⟩ | ⟨-, e, -, hb⟩
  · obtain rfl := Except.ok.inj (hmanager.symm.trans hb)
    intro m hm
    rw [hs] at hm
    cases hm
  · obtain rfl := Except.ok.inj (hmanager.symm.trans hb)
    exact installed_of_routes hroutes rfl rfl hs hinstalled
  · rw [hmanager] at hb
    cases hb

end AlertService

/-- Alerts keep their severity and go where it goes in exactly the runs in which
only plainly critical rules fire. -/
theorem alertSystem.firesRight_iff_plain {floatStr : Binary64 → String} {pathExists : String → Bool}
    {s₀ s : AlertService} {t : List (AlertService × AlertAct)}
    (h₀ : (alertSystem floatStr pathExists).init s₀)
    (hrun : (alertSystem floatStr pathExists).Run s₀ t s) :
    TransitionSystem.Respects AlertService.FiresRight t ↔
      TransitionSystem.Respects AlertService.FiresPlain t := by
  apply hrun.respects_congr (I := AlertService.Installed)
  · intro s a s' h hs
    cases a with
    | check alert now => exact h.check hs
    | reload env file => exact h.reload hs
  · intro s a s' h _
    exact h.firesRight_iff a
  · exact AlertService.installed_of_init h₀

namespace alertSystem

open CFloat (const)

/-- A rule that is to be a warning, and a URL for warnings. -/
def warningConfig : AppConfig where
  alerting :=
    { webhookUrl := "https://hooks/default"
      rules := [{ name := "vlm_queue_full", severity := "warning" }]
      routes := [⟨"warning", "https://hooks/warning"⟩] }

def warningService : AlertService where
  services := ⟨[{}], some (.new [{ name := "vlm_queue_full" }] "https://hooks/default"
    [⟨.warning, "https://hooks/warning"⟩]), none⟩
  installed := warningConfig.alerting

theorem init_warningService (floatStr : Binary64 → String) (pathExists : String → Bool) :
    (alertSystem floatStr pathExists).init warningService :=
  ⟨warningConfig,
    AppConfig.validate_of_defaults _ {} (AppConfig.checkConfidences_singleton (by decide +kernel)),
    rfl, rfl⟩

def queueFull : Alert := ⟨"vlm_queue_full", [("frame_id", "7")]⟩

theorem fires_queueFull : warningService.fires queueFull (const 0) =
    some ⟨queueFull, .critical, some "https://hooks/default"⟩ := by
  decide +kernel

theorem not_firesRight_queueFull :
    ¬ ∀ (floatStr : Binary64 → String) (pathExists : String → Bool) (s₀ s : AlertService)
      (t : List (AlertService × AlertAct)), (alertSystem floatStr pathExists).init s₀ →
        (alertSystem floatStr pathExists).Run s₀ t s →
          TransitionSystem.Respects AlertService.FiresRight t := by
  intro h
  have hrun : (alertSystem (fun _ => "") fun _ => false).Run warningService
      ([] ++ [(warningService, .check queueFull (const 0))]) _ := .snoc .nil rfl
  have hall := h _ _ _ _ _ (init_warningService _ _) hrun
  obtain ⟨r, hr, hseverity, -⟩ := (TransitionSystem.respects_snoc.mp hall).2 _ fires_queueFull
  obtain rfl : { name := "vlm_queue_full", severity := "warning" } = r := Option.some.inj hr
  exact absurd hseverity (by decide)

/-- A critical rule, and a URL for critical alerts. -/
def criticalConfig : AppConfig where
  alerting :=
    { rules := [{ name := "vlm_queue_full" }]
      routes := [⟨"critical", "https://hooks/critical"⟩] }

def criticalService : AlertService where
  services := ⟨[{}], some (.new [{ name := "vlm_queue_full" }] ""
    [⟨.critical, "https://hooks/critical"⟩]), none⟩
  installed := criticalConfig.alerting

theorem firesRight_iff_plain_queueFull :
    criticalService.fires queueFull (const 0) =
        some ⟨queueFull, .critical, some "https://hooks/critical"⟩ ∧
      (TransitionSystem.Respects AlertService.FiresRight
          [(criticalService, .check queueFull (const 0))] ↔
        TransitionSystem.Respects AlertService.FiresPlain
          [(criticalService, .check queueFull (const 0))]) := by
  have h₀ : (alertSystem (fun _ => "") fun _ => false).init criticalService :=
    ⟨criticalConfig,
      AppConfig.validate_of_defaults _ {} (AppConfig.checkConfidences_singleton (by decide +kernel)),
      rfl, rfl⟩
  have hrun : (alertSystem (fun _ => "") fun _ => false).Run criticalService
      ([] ++ [(criticalService, .check queueFull (const 0))]) _ := .snoc .nil rfl
  exact ⟨by decide +kernel, firesRight_iff_plain h₀ hrun⟩

end alertSystem
