-- SUMMARY: The service container of the central server: every service is built once, out of the services everybody else gets, also where builders fail.
import NeuroPipeline.Lib.LazyGraph

/-!
# Service container

Model of container.py: `get` and what each builder asks for. How building a service goes is part
of the request.
-/

/-- The services, each with a `_build_` of its own. -/
inductive Service where
  | store
  | sessionManager
  | circuitBreaker
  | alertManager
  | cloudStorage
  | behaviorAnalyzer
  | reasoningChain
  | ragRetriever
  | anomalyBaseline
  | reidEngine
  | timeseriesEngine
  | autoAnnotator
  | reportGenerator
  | rateLimiter
  | modelRegistry
  | abTestManager
  | orchestrator
  | grpcServer
  deriving DecidableEq

/-- The sections of the configuration with an `enabled` that a builder looks at. -/
inductive ServiceSection where
  | alerting
  | cloudStorage
  | reasoning
  | rag
  | anomaly
  | reid
  | timeseries
  | autoAnnotator
  | reporting
  | rateLimiting
  | modelManagement
  | abTest
  deriving DecidableEq

namespace Service

def all : List Service :=
  [.store, .sessionManager, .circuitBreaker, .alertManager, .cloudStorage, .behaviorAnalyzer,
    .reasoningChain, .ragRetriever, .anomalyBaseline, .reidEngine, .timeseriesEngine,
    .autoAnnotator, .reportGenerator, .rateLimiter, .modelRegistry, .abTestManager, .orchestrator,
    .grpcServer]

/-- What follows `_build_`. -/
def name : Service → String
  | .store => "store"
  | .sessionManager => "session_manager"
  | .circuitBreaker => "circuit_breaker"
  | .alertManager => "alert_manager"
  | .cloudStorage => "cloud_storage"
  | .behaviorAnalyzer => "behavior_analyzer"
  | .reasoningChain => "reasoning_chain"
  | .ragRetriever => "rag_retriever"
  | .anomalyBaseline => "anomaly_baseline"
  | .reidEngine => "reid_engine"
  | .timeseriesEngine => "timeseries_engine"
  | .autoAnnotator => "auto_annotator"
  | .reportGenerator => "report_generator"
  | .rateLimiter => "rate_limiter"
  | .modelRegistry => "model_registry"
  | .abTestManager => "ab_test_manager"
  | .orchestrator => "orchestrator"
  | .grpcServer => "grpc_server"

/-- `getattr(self, f"_build_{name}", None)` -/
def ofName (name : String) : Option Service := all.find? fun n => n.name = name

def configSection : Service → Option ServiceSection
  | .alertManager => some .alerting
  | .cloudStorage => some .cloudStorage
  | .reasoningChain => some .reasoning
  | .ragRetriever => some .rag
  | .anomalyBaseline => some .anomaly
  | .reidEngine => some .reid
  | .timeseriesEngine => some .timeseries
  | .autoAnnotator => some .autoAnnotator
  | .reportGenerator => some .reporting
  | .rateLimiter => some .rateLimiting
  | .modelRegistry => some .modelManagement
  | .abTestManager => some .abTest
  | _ => none

/-- What the builder gets of the container, in this order. -/
def needs : Service → List Service
  | .behaviorAnalyzer | .ragRetriever | .anomalyBaseline | .timeseriesEngine | .autoAnnotator =>
    [.store]
  | .reportGenerator => [.store, .cloudStorage]
  | .orchestrator =>
    [.store, .circuitBreaker, .alertManager, .cloudStorage, .behaviorAnalyzer, .reasoningChain,
      .ragRetriever, .anomalyBaseline]
  | .grpcServer =>
    [.orchestrator, .sessionManager, .rateLimiter, .modelRegistry, .store, .abTestManager]
  | _ => []

def rank : Service → Nat
  | .grpcServer => 3
  | .orchestrator => 2
  | .behaviorAnalyzer | .ragRetriever | .anomalyBaseline | .timeseriesEngine | .autoAnnotator
  | .reportGenerator => 1
  | _ => 0

/-- No service needs itself, also not by way of others. -/
theorem rank_lt {n d : Service} (h : d ∈ n.needs) : d.rank < n.rank := by
  cases n <;> simp only [needs, List.mem_cons, List.not_mem_nil, or_false] at h
  all_goals rcases h with rfl | rfl | rfl | rfl | rfl | rfl | rfl | rfl <;> decide

end Service

inductive ContainerError where
  /-- `KeyError` -/
  | unknown (name : String)
  /-- what the builder of a service raised -/
  | raised (service : Service)
  deriving DecidableEq

namespace ServiceContainer

variable (enabled : ServiceSection → Bool)

def graph : LazyGraph Service where
  needs := Service.needs
  enabled n := n.configSection.all enabled
  rank := Service.rank
  rank_lt := Service.rank_lt

/-- A request, and how building each service goes then. -/
structure Call where
  name : String
  outcome : Service → Attempt := fun _ => .succeeds

def get (call : Call) : EStateM ContainerError (LazyCache Service) (Option Nat) :=
  match Service.ofName call.name with
  | none => throw (.unknown call.name)
  | some n => EStateM.adaptExcept .raised ((graph enabled).get call.outcome n)

/-- What is returned. -/
def answer (s : LazyCache Service) (call : Call) : Option (Option Nat) :=
  match get enabled call s with
  | .ok v _ => some v
  | .error _ _ => none

def after (s : LazyCache Service) (call : Call) : LazyCache Service :=
  match get enabled call s with
  | .ok _ s' => s'
  | .error _ s' => s'

end ServiceContainer

def containerSystem (enabled : ServiceSection → Bool) :
    TransitionSystem (LazyCache Service) ServiceContainer.Call where
  init s := s = {}
  step s call := some (ServiceContainer.after enabled s call)

namespace ServiceContainer

open TransitionSystem

variable {enabled : ServiceSection → Bool} {s s' : LazyCache Service} {call : Call}
  {t : List (LazyCache Service × Call)} {n : Service}

theorem get_of_ofName (h : Service.ofName call.name = some n) :
    get enabled call = EStateM.adaptExcept .raised ((graph enabled).get call.outcome n) := by
  rw [get, h]

theorem get_of_unknown (h : Service.ofName call.name = none) :
    get enabled call s = .error (.unknown call.name) s := by
  rw [get, h]
  rfl

theorem get_eq_ok {v : Option Nat} (h : Service.ofName call.name = some n) :
    get enabled call s = .ok v s' ↔ (graph enabled).get call.outcome n s = .ok v s' := by
  rw [get_of_ofName h, EStateM.adaptExcept]
  cases (graph enabled).get call.outcome n s <;> simp

theorem get_eq_raised {m : Service} (h : Service.ofName call.name = some n) :
    get enabled call s = .error (.raised m) s' ↔
      (graph enabled).get call.outcome n s = .error m s' := by
  rw [get_of_ofName h, EStateM.adaptExcept]
  cases (graph enabled).get call.outcome n s <;> simp

theorem answer_eq (h : Service.ofName call.name = some n) :
    answer enabled s call = (graph enabled).answer s ⟨n, call.outcome⟩ := by
  rw [answer, get_of_ofName h, LazyGraph.answer, EStateM.adaptExcept]
  dsimp only
  cases (graph enabled).get call.outcome n s <;> rfl

theorem after_eq (h : Service.ofName call.name = some n) :
    after enabled s call = (graph enabled).after s ⟨n, call.outcome⟩ := by
  rw [after, get_of_ofName h, LazyGraph.after, EStateM.adaptExcept]
  dsimp only
  cases (graph enabled).get call.outcome n s <;> rfl

/-- What the graph sees of a request. -/
def asked (call : Call) : Option (LazyGraph.Asked Service) :=
  (Service.ofName call.name).map fun n => ⟨n, call.outcome⟩

theorem projects_graph :
    Projects (containerSystem enabled) (graph enabled).system id fun _ call => asked call := by
  intro s call s' hstep
  obtain rfl := Option.some_inj.mp hstep
  cases hname : Service.ofName call.name with
  | none =>
      simp only [asked, hname, Option.map_none]
      rw [after, get_of_unknown hname]
  | some n =>
      simp only [asked, hname, Option.map_some]
      exact congrArg some (after_eq hname).symm

theorem run_graph (hrun : (containerSystem enabled).Run {} t s) :
    (graph enabled).system.Run {} (projectTrace id (fun _ call => asked call) t) s :=
  hrun.project projects_graph

theorem mem_projectTrace {q : LazyCache Service × Call} (hq : q ∈ t)
    (h : Service.ofName q.2.name = some n) :
    (q.1, ⟨n, q.2.outcome⟩) ∈ projectTrace id (fun _ call => asked call) t :=
  List.mem_filterMap.mpr ⟨q, hq, by simp [asked, h]⟩

theorem exists_of_mem_projectTrace {p : LazyCache Service × LazyGraph.Asked Service}
    (h : p ∈ projectTrace id (fun _ call => asked call) t) :
    ∃ q ∈ t, Service.ofName q.2.name = some p.2.node := by
  obtain ⟨q, hq, hp⟩ := List.mem_filterMap.mp h
  obtain ⟨a, ha, rfl⟩ := Option.map_eq_some_iff.mp hp
  obtain ⟨n, hn, rfl⟩ := Option.map_eq_some_iff.mp ha
  exact ⟨q, hq, hn⟩

/-- However requests and failures of builders follow each other: no service is built twice; what
one was built from is what everybody else is given for it; two requests for a service that
return, return the same; and there is no service that nobody needed. -/
theorem services_shared (hrun : (containerSystem enabled).Run {} t s) :
    (∀ (i j : Nat) b c, s.built[i]? = some b → s.built[j]? = some c → b.node = c.node → i = j) ∧
    (∀ (i : Nat) b, s.built[i]? = some b → s.cached.lookup b.node = some (some i) ∧
      b.node.needs.map s.cached.lookup = b.parts.map some) ∧
    (∀ q ∈ t, ∀ n v, Service.ofName q.2.name = some n → answer enabled q.1 q.2 = some v →
      s.cached.lookup n = some v) ∧
    ∀ n ∈ s.cached, ∃ q ∈ t, ∃ m, Service.ofName q.2.name = some m ∧
      (graph enabled).Needed m n := by
  have hgraph := run_graph hrun
  have hwired := LazyGraph.wired_run hgraph
  refine ⟨fun i j b c hi hj => hwired.node_inj hi hj, fun i b hb => ?_, fun q hq n v hn hv => ?_,
    fun n hn => ?_⟩
  · have hcached := hwired.kept i b hb
    obtain ⟨-, parts, hbuilt, hparts⟩ := hwired.wired b.node i hcached
    have hb' := Option.some_inj.mp (hb.symm.trans hbuilt)
    exact ⟨hcached, hb' ▸ hparts⟩
  · rw [answer_eq hn] at hv
    exact LazyGraph.answer_run hgraph (mem_projectTrace hq hn) hv
  · obtain ⟨p, hp, hneeded⟩ := LazyGraph.needed_run hgraph hn
    obtain ⟨q, hq, hname⟩ := exists_of_mem_projectTrace hp
    exact ⟨q, hq, _, hname, hneeded⟩

/-- The server of a first attempt fails, the next one finds what it had built. -/
theorem services_shared_retried :
    ∃ t s, (containerSystem fun _ => false).Run {} t s ∧
      (t.map fun q => answer (fun _ => false) q.1 q.2) = [none, some (some 5), some (some 0)] ∧
      s.built.map Built.node = [.store, .circuitBreaker, .behaviorAnalyzer, .orchestrator,
        .sessionManager, .grpcServer] ∧
      ∀ (i j : Nat) b c, s.built[i]? = some b → s.built[j]? = some c → b.node = c.node → i = j := by
  have hview : ((containerSystem fun _ => false).execTrace {}
      [⟨"grpc_server", fun n => if n = .grpcServer then .failsLast else .succeeds⟩,
        ⟨"grpc_server", fun _ => .succeeds⟩, ⟨"store", fun _ => .failsFirst⟩]).map
          (fun r => (r.1.map fun q => answer (fun _ => false) q.1 q.2, r.2.built.map Built.node)) =
      some ([none, some (some 5), some (some 0)], [.store, .circuitBreaker, .behaviorAnalyzer,
        .orchestrator, .sessionManager, .grpcServer]) := by
    decide +kernel
  obtain ⟨t, s, hrun, -, hview⟩ := exists_run_of_execTrace hview
  obtain ⟨hanswers, hbuilt⟩ := Prod.mk.inj hview
  exact ⟨t, s, hrun, hanswers, hbuilt, (services_shared hrun).1⟩

/-- A request returns where its service is known and no service it still needs fails; the same
request then returns the same, whatever would fail. A request that fails names the builder, which
was needed, and keeps what was built before. -/
theorem get_returns_iff (hrun : (containerSystem enabled).Run {} t s) (call : Call) :
    ((∃ v s', get enabled call s = .ok v s') ↔
      ∃ n, Service.ofName call.name = some n ∧ (graph enabled).Ready call.outcome s n) ∧
    (∀ v s', get enabled call s = .ok v s' → ∀ outcome,
      get enabled ⟨call.name, outcome⟩ s' = .ok v s') ∧
    ∀ m s', get enabled call s = .error (.raised m) s' →
      (∃ n, Service.ofName call.name = some n ∧ (graph enabled).Failed call.outcome n m s') ∧
      ∀ k v, s.cached.lookup k = some v → s'.cached.lookup k = some v := by
  have hwired := LazyGraph.wired_run (run_graph hrun)
  cases hname : Service.ofName call.name with
  | none =>
      have hunknown : get enabled call s = .error (.unknown call.name) s := get_of_unknown hname
      refine ⟨by simp [hunknown], fun v s' hget => ?_, fun m s' hget => ?_⟩
      · cases hunknown.symm.trans hget
      · cases hunknown.symm.trans hget
  | some n =>
      have hends := (graph enabled).ends_get call.outcome n s
      refine ⟨?_, fun v s' hget outcome => ?_, fun m s' hget => ?_⟩
      · simp only [get_eq_ok hname, Option.some.injEq, exists_eq_left']
        exact LazyGraph.get_ok_iff hwired
      · have hcached := (hends.of_ok ((get_eq_ok hname).mp hget)).2
        exact (@get_eq_ok enabled s' s' ⟨call.name, outcome⟩ n v hname).mpr
          (LazyGraph.get_of_cached hcached)
      · obtain ⟨hgrown, hfailed, -⟩ := hends.of_error ((get_eq_raised hname).mp hget)
        exact ⟨⟨n, rfl, hfailed⟩, fun k v => hgrown.lookup⟩

/-- The orchestrator and what it needs are there; the rate limiter, which is enabled, is not. -/
theorem get_returns_iff_partial :
    ∃ t s, (containerSystem fun _ => true).Run {} t s ∧
      s.built.length = 9 ∧
      ∃ s', get (fun _ => true)
        ⟨"grpc_server", fun n => if n = .rateLimiter then .failsFirst else .succeeds⟩ s =
          .error (.raised .rateLimiter) s' ∧ s'.built.length = 10 ∧
        ∀ k v, s.cached.lookup k = some v → s'.cached.lookup k = some v := by
  have hview : ((containerSystem fun _ => true).execTrace {} [⟨"orchestrator", fun _ => .succeeds⟩]).map
      (fun r => (r.2.built.length,
        match get (fun _ => true)
          ⟨"grpc_server", fun n => if n = .rateLimiter then .failsFirst else .succeeds⟩ r.2 with
        | .ok _ _ => none
        | .error e s' => some (e, s'.built.length))) =
      some (9, some (.raised .rateLimiter, 10)) := by
    decide +kernel
  obtain ⟨t, s, hrun, -, hview⟩ := exists_run_of_execTrace hview
  obtain ⟨hbuilt, hfails⟩ := Prod.mk.inj hview
  refine ⟨t, s, hrun, hbuilt, ?_⟩
  dsimp only at hfails
  split at hfails
  · cases hfails
  · next e s' hget =>
      obtain ⟨rfl, hlength⟩ := Prod.mk.inj (Option.some_inj.mp hfails)
      exact ⟨s', hget, hlength, ((get_returns_iff hrun _).2.2 _ _ hget).2⟩

end ServiceContainer
