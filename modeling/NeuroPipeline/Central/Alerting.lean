-- SUMMARY: The alert manager: rules with cooldowns, severities, and the webhooks they are routed to.
import NeuroPipeline.Central.AppConfig
import NeuroPipeline.Central.EdgeEvents
import NeuroPipeline.Lib.Dict

/-!
# Alerting

Model of alerting.py, and of its construction in container.py. What is written
to the log is left out; an alert is fired when it reaches the log.
-/

open CFloat (const)

inductive AlertSeverity where
  | info
  | warning
  | critical
  deriving DecidableEq

namespace AlertSeverity

def value : AlertSeverity → String
  | info => "info"
  | warning => "warning"
  | critical => "critical"

/-- `AlertSeverity(s)`, which may raise. -/
def ofValue (s : String) : Except String AlertSeverity :=
  if s = "info" then .ok info
  else if s = "warning" then .ok warning
  else if s = "critical" then .ok critical
  else .error s!"'{s}' is not a valid AlertSeverity"

theorem ofValue_eq_ok_iff {s : String} {severity : AlertSeverity} :
    ofValue s = .ok severity ↔ s = severity.value := by
  constructor
  · intro h
    simp only [ofValue] at h
    split at h
    · cases h; assumption
    · split at h
      · cases h; assumption
      · split at h
        · cases h; assumption
        · cases h
  · rintro rfl
    cases severity <;> rfl

end AlertSeverity

structure AlertRoute where
  severity : AlertSeverity := .critical
  webhookUrl : String := ""
  deriving DecidableEq

structure AlertRule where
  name : String
  cooldownSeconds : Binary64 := const 300
  severity : AlertSeverity := .critical
  deriving DecidableEq

/-- An alert with its severity, and the URL that it is posted to. -/
structure FiredAlert where
  alert : Alert
  severity : AlertSeverity
  postedTo : Option String
  deriving DecidableEq

structure AlertManager where
  rules : Dict String AlertRule := ∅
  webhookUrl : String := ""
  enabled : Bool := true
  lastFired : Dict String Binary64 := ∅
  routes : Dict AlertSeverity String := ∅

namespace AlertManager

def rulesOf (rules : List AlertRule) : Dict String AlertRule :=
  Dict.ofList (rules.map fun r => (r.name, r))

def routesOf (routes : List AlertRoute) : Dict AlertSeverity String :=
  Dict.ofList (routes.map fun r => (r.severity, r.webhookUrl))

/-- `AlertManager(...)`, where no routes and an empty list of routes are the same. -/
def new (rules : List AlertRule) (webhookUrl : String) (routes : List AlertRoute) :
    AlertManager where
  rules := rulesOf rules
  webhookUrl := webhookUrl
  routes := routesOf routes

def getWebhookUrl (m : AlertManager) (severity : AlertSeverity) : String :=
  (m.routes.lookup severity).getD m.webhookUrl

def updateRules (m : AlertManager) (rules : List AlertRule) (routes : List AlertRoute) :
    AlertManager :=
  { m with rules := rulesOf rules, routes := routesOf routes }

/-- The last alert of this type is too recent. -/
def coolingDown (m : AlertManager) (rule : AlertRule) (eventType : String) (now : Binary64) :
    Bool :=
  match m.lastFired.lookup eventType with
  | some last => now - last < rule.cooldownSeconds
  | none => false

/-- The URL that is posted to: none if it is empty. -/
def post (url : String) : Option String := if url = "" then none else some url

/-- `check_and_fire`, and what it fires. -/
def checkAndFire (m : AlertManager) (alert : Alert) (now : Binary64) :
    AlertManager × Option FiredAlert :=
  if !m.enabled then (m, none)
  else
    match m.rules.lookup alert.name with
    | none => (m, none)
    | some rule =>
      if m.coolingDown rule alert.name now then (m, none)
      else
        ({ m with lastFired := Dict.set m.lastFired alert.name now },
          some ⟨alert, rule.severity, post (m.getWebhookUrl rule.severity)⟩)

variable {m : AlertManager} {alert : Alert} {now : Binary64} {fired : FiredAlert}

theorem post_injective : Function.Injective post := by
  intro url url' h
  by_cases hu : url = "" <;> by_cases hu' : url' = "" <;> simp_all [post]

/-- Nothing fires and nothing changes, or the rule of that name fires and the time is noted. -/
theorem checkAndFire_cases (m : AlertManager) (alert : Alert) (now : Binary64) :
    m.checkAndFire alert now = (m, none) ∨
      ∃ rule, m.rules.lookup alert.name = some rule ∧
        m.coolingDown rule alert.name now = false ∧
        m.checkAndFire alert now = ({ m with lastFired := Dict.set m.lastFired alert.name now },
          some ⟨alert, rule.severity, post (m.getWebhookUrl rule.severity)⟩) := by
  unfold checkAndFire
  by_cases henabled : m.enabled = true
  · cases hrule : m.rules.lookup alert.name with
    | none => exact .inl (if_neg (by simp [henabled]))
    | some rule =>
        cases hcool : m.coolingDown rule alert.name now with
        | true => exact .inl (by simp [henabled, hcool])
        | false => exact .inr ⟨rule, rfl, hcool, by simp [henabled, hcool]⟩
  · exact .inl (if_pos (by simpa using henabled))

/-- What is fired is by the rule with the name of the event. -/
theorem checkAndFire_fired (h : (m.checkAndFire alert now).2 = some fired) :
    ∃ rule, m.rules.lookup alert.name = some rule ∧
      fired = ⟨alert, rule.severity, post (m.getWebhookUrl rule.severity)⟩ := by
  rcases m.checkAndFire_cases alert now with hnone | ⟨rule, hrule, -, hfires⟩
  · rw [hnone] at h
    cases h
  · rw [hfires] at h
    exact ⟨rule, hrule, (Option.some_inj.mp h).symm⟩

/-- Firing changes neither the rules nor where alerts go. -/
theorem checkAndFire_settings (m : AlertManager) (alert : Alert) (now : Binary64) :
    (m.checkAndFire alert now).1.rules = m.rules ∧
    (m.checkAndFire alert now).1.routes = m.routes ∧
    (m.checkAndFire alert now).1.webhookUrl = m.webhookUrl := by
  rcases m.checkAndFire_cases alert now with hnone | ⟨rule, -, -, hfires⟩
  · rw [hnone]
    exact ⟨rfl, rfl, rfl⟩
  · rw [hfires]
    exact ⟨rfl, rfl, rfl⟩

end AlertManager

/-! ## From the configuration -/

namespace AlertingConfig

/-- `AlertRule(name=..., cooldown_seconds=...)`: the severity is not passed on. -/
def alertRule (r : AlertRuleConfig) : AlertRule where
  name := r.name
  cooldownSeconds := r.cooldownSeconds

def alertRoute (rt : AlertRouteConfig) : Except String AlertRoute := do
  let severity ← AlertSeverity.ofValue rt.severity
  return { severity := severity, webhookUrl := rt.webhookUrl }

def alertRoutes : List AlertRouteConfig → Except String (List AlertRoute)
  | [] => .ok []
  | rt :: rts => do
    let route ← alertRoute rt
    let routes ← alertRoutes rts
    return route :: routes

/-- `_build_alert_manager` -/
def buildAlertManager (cfg : AlertingConfig) : Except String (Option AlertManager) :=
  if !cfg.enabled then .ok none
  else do
    let routes ← alertRoutes cfg.routes
    return some (.new (cfg.rules.map alertRule) cfg.webhookUrl routes)

/-- What a route is configured with. -/
def routeConfig (route : AlertRoute) : AlertRouteConfig := ⟨route.severity.value, route.webhookUrl⟩

theorem alertRoute_eq_ok_iff {rt : AlertRouteConfig} {route : AlertRoute} :
    alertRoute rt = .ok route ↔ rt = routeConfig route := by
  constructor
  · intro h
    cases hv : AlertSeverity.ofValue rt.severity with
    | error e => simp [alertRoute, hv, bind, Except.bind] at h
    | ok severity =>
        have hseverity := AlertSeverity.ofValue_eq_ok_iff.mp hv
        simp only [alertRoute, hv, bind, Except.bind, pure, Except.pure, Except.ok.injEq] at h
        rw [← h, routeConfig, ← hseverity]
  · rintro rfl
    have hv : AlertSeverity.ofValue route.severity.value = .ok route.severity :=
      AlertSeverity.ofValue_eq_ok_iff.mpr rfl
    simp [alertRoute, routeConfig, hv, bind, Except.bind, pure, Except.pure]

/-- The routes are read when every one of them is for a severity that there is. -/
theorem alertRoutes_eq_ok_iff {rts : List AlertRouteConfig} {routes : List AlertRoute} :
    alertRoutes rts = .ok routes ↔ rts = routes.map routeConfig := by
  induction rts generalizing routes with
  | nil => cases routes <;> simp [alertRoutes]
  | cons rt rts ih =>
      constructor
      · intro h
        cases hrt : alertRoute rt with
        | error e => simp [alertRoutes, hrt, bind, Except.bind] at h
        | ok route =>
            cases hrts : alertRoutes rts with
            | error e => simp [alertRoutes, hrt, hrts, bind, Except.bind] at h
            | ok rest =>
                simp only [alertRoutes, hrt, hrts, bind, Except.bind, pure, Except.pure,
                  Except.ok.injEq] at h
                rw [← h, List.map_cons, ← alertRoute_eq_ok_iff.mp hrt, ← ih.mp hrts]
      · intro h
        cases routes with
        | nil => cases h
        | cons route rest =>
            obtain ⟨rfl, hrest⟩ := List.cons.inj h
            simp [alertRoutes, alertRoute_eq_ok_iff.mpr rfl, ih.mpr hrest, bind, Except.bind, pure,
              Except.pure]

end AlertingConfig
