-- SUMMARY: The plugin manager: registration, initialisation and shutdown in order of priority, and the hooks of the pipeline.
import NeuroPipeline.Lib.Dict
import Mathlib.Data.List.Sort

/-!
# Plugins

Model of core/plugin.py. A plugin is its metadata; what its own methods do is a
parameter of the operations that call them. The manager reports every call that it
makes to a plugin for its lifecycle.
-/

structure PluginInfo where
  name : String
  version : String := "1.0.0"
  description : String := ""
  author : String := ""
  /-- lower goes first -/
  priority : Int := 100
  enabled : Bool := true
  deriving DecidableEq

structure PluginManager where
  plugins : Dict String PluginInfo := ∅
  initialized : Bool := false

/-- A call to a plugin, by the name under which it is registered. -/
inductive PluginEvent (C : Type) where
  | initialized (name : String) (config : C)
  | initializeFailed (name : String) (config : C)
  | shutdown (name : String) (failed : Bool)
  deriving DecidableEq

def PluginEvent.name {C : Type} : PluginEvent C → String
  | initialized name _ => name
  | initializeFailed name _ => name
  | shutdown name _ => name

namespace PluginManager

/-! ## Registration -/

def register (m : PluginManager) (plugin : PluginInfo) : Except String PluginManager :=
  if plugin.name ∈ m.plugins then .error ("Plugin '" ++ plugin.name ++ "' already registered")
  else .ok { m with plugins := m.plugins.set plugin.name plugin }

def unregister (m : PluginManager) (name : String) : PluginManager × Bool :=
  if name ∈ m.plugins then ({ m with plugins := m.plugins.erase name }, true) else (m, false)

def getPlugin (m : PluginManager) (name : String) : Option PluginInfo := m.plugins.lookup name

def listPlugins (m : PluginManager) : List PluginInfo := m.plugins.values

/-! ## Lifecycle -/

/-- A name and the plugin that is registered under it. -/
abbrev Registered := Dict.Entry String PluginInfo

/-- `sorted` by priority, which leaves equal priorities as they are registered. -/
def byPriority (m : PluginManager) : List Registered :=
  m.plugins.entries.insertionSort fun a b => a.2.priority ≤ b.2.priority

/-- The same with `reverse=True`: equal priorities are still left as they are. -/
def byPriorityReversed (m : PluginManager) : List Registered :=
  m.plugins.entries.insertionSort fun a b => b.2.priority ≤ a.2.priority

/-- A failure of such a plugin is raised. -/
def critical (plugin : PluginInfo) : Bool := plugin.priority < 50

variable {C : Type}

/-- The calls to the plugins from one on, and whether a critical one ends them. -/
def initializeFrom (configs : String → C) (fails : String → Bool) :
    List Registered → List (PluginEvent C) × Bool
  | [] => ([], false)
  | ⟨name, plugin⟩ :: rest =>
    if !plugin.enabled then initializeFrom configs fails rest
    else if fails name then
      if critical plugin then ([.initializeFailed name (configs name)], true)
      else
        let (events, raised) := initializeFrom configs fails rest
        (.initializeFailed name (configs name) :: events, raised)
    else
      let (events, raised) := initializeFrom configs fails rest
      (.initialized name (configs name) :: events, raised)

/-- `fails` says which of the plugins raise an exception this time. The last result is
whether the call raises. -/
def initializeAll (m : PluginManager) (configs : String → C) (fails : String → Bool) :
    PluginManager × List (PluginEvent C) × Bool :=
  if m.initialized then (m, [], false)
  else
    let (events, raised) := initializeFrom configs fails m.byPriority
    ({ m with initialized := !raised }, events, raised)

def shutdownAll (m : PluginManager) (fails : String → Bool) :
    PluginManager × List (PluginEvent C) :=
  ({ m with initialized := false },
    m.byPriorityReversed.map fun entry => .shutdown entry.1 (fails entry.1))

/-! ## Hooks -/

variable {D : Type}

/-- A result goes from plugin to plugin; a plugin that raises leaves it as it was. -/
def processFrom (process : String → D → Except String (Option D)) :
    List Registered → D → Option D
  | [], result => some result
  | ⟨name, plugin⟩ :: rest, result =>
    if !plugin.enabled then processFrom process rest result
    else
      match process name result with
      | .ok none => none
      | .ok (some result') => processFrom process rest result'
      | .error _ => processFrom process rest result

def processDetection (m : PluginManager) (process : String → D → Except String (Option D))
    (detection : D) : Option D := processFrom process m.byPriority detection

def processFrame (m : PluginManager) (process : String → D → Except String (Option D))
    (frameData : D) : Option D := processFrom process m.byPriority frameData

/-- The plugins that an event is given to. -/
def emitEvent (m : PluginManager) : List String :=
  (m.plugins.entries.filter fun entry => entry.2.enabled).map Sigma.fst

/-- A disabled plugin has no part in the hooks. -/
theorem processFrom_congr {process process' : String → D → Except String (Option D)}
    {l : List Registered}
    (h : ∀ entry ∈ l, entry.2.enabled = true → process entry.1 = process' entry.1) (result : D) :
    processFrom process l result = processFrom process' l result := by
  induction l generalizing result with
  | nil => rfl
  | cons entry rest ih =>
    obtain ⟨name, plugin⟩ := entry
    have hrest := ih fun entry hentry => h entry (List.mem_cons_of_mem _ hentry)
    unfold processFrom
    split
    next => exact hrest result
    next henabled =>
      rw [h ⟨name, plugin⟩ List.mem_cons_self (by simpa using henabled)]
      simp only [hrest]

/-! ## The plugins of a call -/

variable {m : PluginManager}

theorem byPriority_perm : m.byPriority.Perm m.plugins.entries := List.perm_insertionSort _ _

theorem byPriorityReversed_perm : m.byPriorityReversed.Perm m.plugins.entries :=
  List.perm_insertionSort _ _

theorem nodup_byPriority : (m.byPriority.map Sigma.fst).Nodup :=
  (byPriority_perm.map Sigma.fst).nodup_iff.mpr m.plugins.nodupKeys

theorem nodup_byPriorityReversed : (m.byPriorityReversed.map Sigma.fst).Nodup :=
  (byPriorityReversed_perm.map Sigma.fst).nodup_iff.mpr m.plugins.nodupKeys

/-- A shutdown goes to the plugins that an initialisation goes through. -/
theorem mem_byPriorityReversed_iff {name : String} :
    name ∈ m.byPriorityReversed.map Sigma.fst ↔ name ∈ m.byPriority.map Sigma.fst :=
  ((byPriorityReversed_perm.trans byPriority_perm.symm).map Sigma.fst).mem_iff

end PluginManager
