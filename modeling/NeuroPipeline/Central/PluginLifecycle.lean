-- SUMMARY: Runs of initialisation and shutdown of the plugins, and exactly when each plugin goes through its lifecycle in order.
import NeuroPipeline.Central.PluginManager
import NeuroPipeline.Lib.TransitionSystem

/-!
# Lifecycle of a plugin

One flag stands for the state of all plugins. An initialisation that a critical plugin
ends leaves it unset, whatever has been initialised before that plugin; a shutdown goes
to every plugin, initialised or not.
-/

namespace PluginManager

variable {C : Type}

/-! ## Order of the events -/

/-- Whether a plugin is initialised after an event, from whether it was before. -/
def track (name : String) (up : Bool) : PluginEvent C → Bool
  | .initialized name' _ => up || name' == name
  | .initializeFailed _ _ => up
  | .shutdown name' _ => up && name' != name

/-- The plugin has been initialised and not been shut down since. -/
def Up (events : List (PluginEvent C)) (name : String) : Prop :=
  events.foldl (track name) false = true

instance (events : List (PluginEvent C)) (name : String) : Decidable (Up events name) :=
  inferInstanceAs (Decidable (_ = true))

/-- What a plugin may be asked to do: to come up once, and to go down when it is up. -/
def Allowed (events : List (PluginEvent C)) : PluginEvent C → Prop
  | .initialized name _ => ¬ Up events name
  | .initializeFailed _ _ => True
  | .shutdown name _ => Up events name

/-- Each event is allowed after those before it. -/
def InOrder (events : List (PluginEvent C)) : Prop :=
  ∀ before e after, events = before ++ e :: after → Allowed before e

theorem inOrder_nil : InOrder ([] : List (PluginEvent C)) := by
  intro before e after h
  simp at h

theorem inOrder_snoc {events : List (PluginEvent C)} {e : PluginEvent C} :
    InOrder (events ++ [e]) ↔ InOrder events ∧ Allowed events e := by
  constructor
  · intro h
    refine ⟨fun before e' after heq => h before e' (after ++ [e]) ?_, h events e [] rfl⟩
    rw [heq, List.append_assoc, List.cons_append]
  · rintro ⟨hevents, hlast⟩ before e' after heq
    -- the event is the last one or stands among the earlier ones
    rcases List.eq_nil_or_concat' after with rfl | ⟨after', e'', rfl⟩
    · obtain ⟨rfl, hsame⟩ := List.append_inj' heq rfl
      obtain rfl := List.singleton_inj.mp hsame
      exact hlast
    · rw [← List.cons_append, ← List.append_assoc] at heq
      exact hevents before e' after' (List.append_inj' heq rfl).1

section

variable {events : List (PluginEvent C)} {name name' : String}

theorem up_initialized {config : C} :
    Up (events ++ [.initialized name' config]) name ↔ Up events name ∨ name' = name := by
  rw [Up, List.foldl_append, List.foldl_cons, List.foldl_nil, track, Bool.or_eq_true, beq_iff_eq]
  exact Iff.rfl

theorem up_initializeFailed {config : C} :
    Up (events ++ [.initializeFailed name' config]) name ↔ Up events name := by
  rw [Up, List.foldl_append, List.foldl_cons, List.foldl_nil, track]
  exact Iff.rfl

theorem up_shutdown {failed : Bool} :
    Up (events ++ [.shutdown name' failed]) name ↔ Up events name ∧ name' ≠ name := by
  rw [Up, List.foldl_append, List.foldl_cons, List.foldl_nil, track, Bool.and_eq_true, bne_iff_ne]
  exact Iff.rfl

/-- Only events of a plugin change whether it is up. -/
theorem up_snoc_of_ne {e : PluginEvent C} (h : e.name ≠ name) :
    Up (events ++ [e]) name ↔ Up events name := by
  cases e with
  | initialized name' config =>
    rw [up_initialized]
    exact or_iff_left h
  | initializeFailed name' config => exact up_initializeFailed
  | shutdown name' failed =>
    rw [up_shutdown]
    exact and_iff_left h

end

theorem allowed_snoc_of_ne {events : List (PluginEvent C)} {e e' : PluginEvent C}
    (h : e.name ≠ e'.name) : Allowed (events ++ [e]) e' ↔ Allowed events e' := by
  cases e' with
  | initialized name config => exact not_congr (up_snoc_of_ne h)
  | initializeFailed name config => exact Iff.rfl
  | shutdown name failed => exact up_snoc_of_ne h

/-- The events of one call, of which no two are about the same plugin. -/
theorem inOrder_append {events batch : List (PluginEvent C)}
    (hnodup : (batch.map PluginEvent.name).Nodup) :
    InOrder (events ++ batch) ↔ InOrder events ∧ ∀ e ∈ batch, Allowed events e := by
  induction batch generalizing events with
  | nil => simp
  | cons e rest ih =>
    rw [List.map_cons, List.nodup_cons] at hnodup
    have hothers : (∀ e' ∈ rest, Allowed (events ++ [e]) e') ↔ ∀ e' ∈ rest, Allowed events e' := by
      refine forall₂_congr fun e' he' => allowed_snoc_of_ne fun heq => hnodup.1 ?_
      rw [heq]
      exact List.mem_map_of_mem he'
    rw [← List.singleton_append, ← List.append_assoc, ih hnodup.2, inOrder_snoc, hothers, and_assoc,
      List.singleton_append, List.forall_mem_cons]

/-! ## The events of a call -/

/-- The plugins that an initialisation brings up when the given ones fail. -/
def initialisedBy (fails : String → Bool) : List Registered → List String
  | [] => []
  | ⟨name, plugin⟩ :: rest =>
    if !plugin.enabled then initialisedBy fails rest
    else if fails name then
      if critical plugin then [] else initialisedBy fails rest
    else name :: initialisedBy fails rest

/-- The plugins that an initialisation gets to, the critical one that ends it included. -/
def attempted (fails : String → Bool) : List Registered → List Registered
  | [] => []
  | ⟨name, plugin⟩ :: rest =>
    if !plugin.enabled then attempted fails rest
    else if fails name && critical plugin then [⟨name, plugin⟩]
    else ⟨name, plugin⟩ :: attempted fails rest

/-- What an initialisation reports about a plugin that it gets to. -/
def initializeEvent (configs : String → C) (fails : String → Bool) (name : String) :
    PluginEvent C :=
  if fails name then .initializeFailed name (configs name) else .initialized name (configs name)

section

variable {configs : String → C} {fails : String → Bool} {l : List Registered}

theorem initializeFrom_eq_map :
    (initializeFrom configs fails l).1 =
      (attempted fails l).map fun entry => initializeEvent configs fails entry.1 := by
  fun_induction attempted fails l with
  | case1 => rfl
  | case2 name plugin rest hdisabled ih => simp [initializeFrom, hdisabled, ih]
  | case3 name plugin rest henabled hends =>
    obtain ⟨hfails, hcritical⟩ := Bool.and_eq_true_iff.mp hends
    simp [initializeFrom, initializeEvent, henabled, hfails, hcritical]
  | case4 name plugin rest henabled hgoes ih =>
    cases hfails : fails name with
    | true =>
      have hcritical : critical plugin = false := by simpa [hfails] using hgoes
      simp [initializeFrom, initializeEvent, henabled, hfails, hcritical, ih]
    | false => simp [initializeFrom, initializeEvent, henabled, hfails, ih]

theorem initialisedBy_eq_filter :
    initialisedBy fails l = ((attempted fails l).map Sigma.fst).filter fun name => !fails name := by
  fun_induction attempted fails l with
  | case1 => rfl
  | case2 name plugin rest hdisabled ih => simp [initialisedBy, hdisabled, ih]
  | case3 name plugin rest henabled hends =>
    obtain ⟨hfails, hcritical⟩ := Bool.and_eq_true_iff.mp hends
    simp [initialisedBy, henabled, hfails, hcritical]
  | case4 name plugin rest henabled hgoes ih =>
    cases hfails : fails name with
    | true =>
      have hcritical : critical plugin = false := by simpa [hfails] using hgoes
      simp [initialisedBy, henabled, hfails, hcritical, ih]
    | false => simp [initialisedBy, henabled, hfails, ih]

theorem attempted_sublist : (attempted fails l).Sublist l := by
  induction l with
  | nil => exact List.Sublist.slnil
  | cons entry rest ih =>
    unfold attempted
    split
    next => exact ih.cons entry
    next =>
      split
      next => exact (List.nil_sublist _).cons_cons entry
      next => exact ih.cons_cons entry

theorem names_initializeFrom :
    ((initializeFrom configs fails l).1.map PluginEvent.name).Sublist (l.map Sigma.fst) := by
  have hname : ∀ name, (initializeEvent configs fails name).name = name := by
    intro name
    unfold initializeEvent
    split <;> rfl
  rw [initializeFrom_eq_map, List.map_map]
  simp only [Function.comp_def, hname]
  exact attempted_sublist.map Sigma.fst

theorem initialisedBy_sublist : (initialisedBy fails l).Sublist (l.map Sigma.fst) := by
  rw [initialisedBy_eq_filter]
  exact List.filter_sublist.trans (attempted_sublist.map Sigma.fst)

theorem allowed_initializeEvent {before : List (PluginEvent C)} {name : String} :
    Allowed before (initializeEvent configs fails name) ↔
      (fails name = false → ¬ Up before name) := by
  unfold initializeEvent
  cases fails name with
  | true => exact iff_of_true trivial fun h => by cases h
  | false => exact ⟨fun h _ => h, fun h => h rfl⟩

/-- An initialisation is out of order only where it brings a plugin up again. -/
theorem forall_allowed_iff {before : List (PluginEvent C)} :
    (∀ e ∈ (initializeFrom configs fails l).1, Allowed before e) ↔
      ∀ name ∈ initialisedBy fails l, ¬ Up before name := by
  rw [initializeFrom_eq_map, initialisedBy_eq_filter, List.forall_mem_map]
  simp only [allowed_initializeEvent, List.mem_filter, List.mem_map, Bool.not_eq_true']
  constructor
  · rintro h _ ⟨⟨entry, hentry, rfl⟩, hfails⟩
    exact h entry hentry hfails
  · exact fun h entry hentry hfails => h entry.1 ⟨⟨entry, hentry, rfl⟩, hfails⟩

/-- Initialising shuts nothing down. -/
theorem up_initializeFrom {events : List (PluginEvent C)} {name : String} :
    Up (events ++ (initializeFrom configs fails l).1) name ↔
      Up events name ∨ name ∈ initialisedBy fails l := by
  rw [initializeFrom_eq_map, initialisedBy_eq_filter]
  induction attempted fails l generalizing events with
  | nil => simp
  | cons entry rest ih =>
    rw [List.map_cons, ← List.singleton_append, ← List.append_assoc, ih, List.map_cons]
    cases hfails : fails entry.1 with
    | true => simp [initializeEvent, hfails, up_initializeFailed]
    | false =>
      rw [List.filter_cons_of_pos (by simp [hfails]), List.mem_cons, eq_comm (a := name),
        ← or_assoc]
      simp [initializeEvent, hfails, up_initialized]

theorem up_shutdownAll {events : List (PluginEvent C)} {name : String} :
    Up (events ++ l.map fun entry => .shutdown entry.1 (fails entry.1)) name ↔
      Up events name ∧ name ∉ l.map Sigma.fst := by
  induction l generalizing events with
  | nil => simp
  | cons entry rest ih =>
    rw [List.map_cons, ← List.singleton_append, ← List.append_assoc, ih, up_shutdown, List.map_cons,
      List.mem_cons, not_or, and_assoc, ne_comm]

theorem initializeAll_skipped {m : PluginManager} (h : m.initialized = true) :
    m.initializeAll configs fails = (m, [], false) := if_pos h

theorem initializeAll_eq {m : PluginManager} (h : m.initialized = false) :
    m.initializeAll configs fails =
      ({ m with initialized := !(initializeFrom configs fails m.byPriority).2 },
        initializeFrom configs fails m.byPriority) :=
  if_neg (by simp [h])

end

/-! ## Runs -/

/-- A call of the manager, with the plugins that raise an exception in it. -/
inductive LifecycleCall (C : Type) where
  | initializeAll (configs : String → C) (fails : String → Bool)
  | shutdownAll (fails : String → Bool)

structure LifecycleState (C : Type) where
  manager : PluginManager
  events : List (PluginEvent C) := []
  /-- the failures of the initialisations that were not skipped since the last shutdown -/
  attempts : List (String → Bool) := []

namespace LifecycleState

def call (s : LifecycleState C) : LifecycleCall C → LifecycleState C
  | .initializeAll configs fails =>
    let (manager, events, _) := s.manager.initializeAll configs fails
    { manager := manager
      events := s.events ++ events
      attempts := if s.manager.initialized then s.attempts else s.attempts ++ [fails] }
  | .shutdownAll fails =>
    let (manager, events) := s.manager.shutdownAll fails
    { manager := manager, events := s.events ++ events }

/-- The plugin was initialised since the last shutdown, as the failures tell. -/
def Attempted (s : LifecycleState C) (name : String) : Prop :=
  ∃ fails ∈ s.attempts, name ∈ initialisedBy fails s.manager.byPriority

instance (s : LifecycleState C) (name : String) : Decidable (s.Attempted name) :=
  inferInstanceAs (Decidable (∃ fails ∈ _, _))

/-- What keeps the plugins in order: to initialise none again after an initialisation that
raised, and to shut down when all plugins are initialised, disabled ones included. -/
def Orderly (s : LifecycleState C) : LifecycleCall C → Prop
  | .initializeAll _ fails => s.manager.initialized = false →
      ∀ name ∈ initialisedBy fails s.manager.byPriority, ¬ s.Attempted name
  | .shutdownAll _ => ∀ name ∈ s.manager.byPriorityReversed.map Sigma.fst, s.Attempted name

instance (s : LifecycleState C) (c : LifecycleCall C) : Decidable (s.Orderly c) :=
  match c with
  | .initializeAll _ _ => inferInstanceAs (Decidable (_ → ∀ name ∈ _, _))
  | .shutdownAll _ => inferInstanceAs (Decidable (∀ name ∈ _, _))

end LifecycleState

/-- Any plugins, and calls in any order with any failures. -/
def lifecycleSystem (C : Type) : TransitionSystem (LifecycleState C) (LifecycleCall C) where
  init s := s.manager.initialized = false ∧ s.events = [] ∧ s.attempts = []
  step s c := some (s.call c)

namespace LifecycleState

variable {s : LifecycleState C}

/-- The failures of the calls since the last shutdown say which plugins are up. -/
def Tracked (s : LifecycleState C) : Prop := ∀ name, Up s.events name ↔ s.Attempted name

theorem call_tracked (h : s.Tracked) (c : LifecycleCall C) : (s.call c).Tracked := by
  intro name
  cases c with
  | initializeAll configs fails =>
    cases hflag : s.manager.initialized with
    | true =>
      simp only [call, initializeAll_skipped hflag, hflag, List.append_nil, if_true]
      exact h name
    | false =>
      simp only [call, initializeAll_eq hflag, hflag, Bool.false_eq_true, if_false]
      rw [up_initializeFrom, h name]
      simp only [Attempted, List.mem_append, List.mem_singleton, or_and_right, exists_or,
        exists_eq_left]
      exact Iff.rfl
  | shutdownAll fails =>
    simp only [call, shutdownAll]
    rw [up_shutdownAll, h name]
    -- a shutdown goes to every plugin, so none is left
    have hall : s.Attempted name → name ∈ s.manager.byPriorityReversed.map Sigma.fst := by
      rintro ⟨fails', -, hname⟩
      rw [mem_byPriorityReversed_iff]
      exact initialisedBy_sublist.subset hname
    exact ⟨fun ⟨hup, hnot⟩ => absurd (hall hup) hnot, fun ⟨_, hmem, _⟩ => absurd hmem (by simp)⟩

/-- The events of a call are in order exactly when the call is orderly. -/
theorem call_inOrder_iff (h : s.Tracked) (hs : InOrder s.events) (c : LifecycleCall C) :
    InOrder (s.call c).events ↔ s.Orderly c := by
  cases c with
  | initializeAll configs fails =>
    cases hflag : s.manager.initialized with
    | true => simp [call, initializeAll_skipped hflag, Orderly, hflag, hs]
    | false =>
      simp only [call, initializeAll_eq hflag, Orderly, hflag, forall_const]
      rw [inOrder_append (names_initializeFrom.nodup nodup_byPriority), and_iff_right hs,
        forall_allowed_iff]
      exact forall₂_congr fun name _ => not_congr (h name)
  | shutdownAll fails =>
    simp only [call, shutdownAll, Orderly]
    rw [inOrder_append, and_iff_right hs, List.forall_mem_map, List.forall_mem_map]
    · exact forall₂_congr fun entry _ => h entry.1
    · rw [List.map_map]
      exact nodup_byPriorityReversed

end LifecycleState

/-- From a new manager with any plugins, every plugin goes through its lifecycle in order
after every call exactly when the calls are orderly. -/
theorem inOrder_iff_orderly {s₀ s : LifecycleState C}
    {t : List (LifecycleState C × LifecycleCall C)} (hinit : (lifecycleSystem C).init s₀)
    (hrun : (lifecycleSystem C).Run s₀ t s) :
    TransitionSystem.Throughout (fun s => InOrder s.events) t s ↔
      TransitionSystem.Respects LifecycleState.Orderly t := by
  obtain ⟨-, hevents, hattempts⟩ := hinit
  refine hrun.throughout_iff_respects (I := LifecycleState.Tracked) ?_ ?_ ?_ ?_
  · rintro s c _ htracked ⟨⟩
    exact LifecycleState.call_tracked htracked c
  · rintro s c _ htracked hs ⟨⟩
    exact LifecycleState.call_inOrder_iff htracked hs c
  · intro name
    simp [hevents, Up, LifecycleState.Attempted, hattempts]
  · rw [hevents]
    exact inOrder_nil

/-- A critical plugin and another one. -/
def alarmAndLog : LifecycleState Unit where
  manager :=
    { plugins := Dict.ofList [("log", { name := "log" }),
        ("alarm", { name := "alarm", priority := 10 })] }

/-- Started, shut down with a failure, started again. -/
theorem inOrder_iff_orderly_restart :
    ∃ t s, (lifecycleSystem Unit).Run alarmAndLog t s ∧
      s.events = [.initialized "alarm" (), .initialized "log" (), .shutdown "log" true,
        .shutdown "alarm" false, .initialized "alarm" (), .initialized "log" ()] ∧
      TransitionSystem.Throughout (fun s => InOrder s.events) t s := by
  have hview : ((lifecycleSystem Unit).execTrace alarmAndLog
      [.initializeAll (fun _ => ()) fun _ => false, .shutdownAll fun name => name == "log",
        .initializeAll (fun _ => ()) fun _ => false]).map (fun r =>
        (r.2.events, decide (TransitionSystem.Respects LifecycleState.Orderly r.1))) =
      some ([.initialized "alarm" (), .initialized "log" (), .shutdown "log" true,
        .shutdown "alarm" false, .initialized "alarm" (), .initialized "log" ()], true) := by
    decide +kernel
  obtain ⟨t, s, hrun, -, hresult⟩ := TransitionSystem.exists_run_of_execTrace hview
  obtain ⟨hevents, horderly⟩ := Prod.mk.inj hresult
  have hinit : (lifecycleSystem Unit).init alarmAndLog := ⟨rfl, rfl, rfl⟩
  exact ⟨t, s, hrun, hevents, (inOrder_iff_orderly hinit hrun).mpr (of_decide_eq_true horderly)⟩

/-- The plugin that fails is critical, and comes after the alarm. -/
def alarmAndCamera : LifecycleState Unit where
  manager :=
    { plugins := Dict.ofList [("alarm", { name := "alarm", priority := 10 }),
        ("camera", { name := "camera", priority := 20 })] }

def disabledLog : LifecycleState Unit where
  manager := { plugins := Dict.ofList [("log", { name := "log", enabled := false })] }

/-- A disabled plugin is shut down, and a plugin that was initialised before a critical
failure is initialised again by the next attempt. -/
theorem not_inOrder_lifecycle :
    (∃ t s, (lifecycleSystem Unit).Run disabledLog t s ∧
      s.events = [.shutdown "log" false] ∧ ¬ InOrder s.events) ∧
    ∃ t s, (lifecycleSystem Unit).Run alarmAndCamera t s ∧
      s.events = [.initialized "alarm" (), .initializeFailed "camera" (),
        .initialized "alarm" (), .initialized "camera" ()] ∧ ¬ InOrder s.events := by
  constructor
  · have hview : ((lifecycleSystem Unit).execTrace disabledLog
        [.initializeAll (fun _ => ()) fun _ => false, .shutdownAll fun _ => false]).map
          (fun r => r.2.events) = some [.shutdown "log" false] := by decide +kernel
    obtain ⟨t, s, hrun, -, hevents⟩ := TransitionSystem.exists_run_of_execTrace hview
    refine ⟨t, s, hrun, hevents, fun horder => ?_⟩
    have hup : Up [] "log" := horder [] _ [] hevents
    exact absurd hup (by decide)
  · have hview : ((lifecycleSystem Unit).execTrace alarmAndCamera
        [.initializeAll (fun _ => ()) fun name => name == "camera",
          .initializeAll (fun _ => ()) fun _ => false]).map (fun r => r.2.events) =
        some [.initialized "alarm" (), .initializeFailed "camera" (),
          .initialized "alarm" (), .initialized "camera" ()] := by decide +kernel
    obtain ⟨t, s, hrun, -, hevents⟩ := TransitionSystem.exists_run_of_execTrace hview
    refine ⟨t, s, hrun, hevents, fun horder => ?_⟩
    have hdown : ¬ Up [.initialized "alarm" (), .initializeFailed "camera" ()] "alarm" :=
      horder [.initialized "alarm" (), .initializeFailed "camera" ()] (.initialized "alarm" ())
        [.initialized "camera" ()] hevents
    exact hdown (by decide)

end PluginManager
