-- SUMMARY: Commands made by the dashboard: which requests reach the edge as the command that they name and are acted on.
import NeuroPipeline.Central.VlmConfigGuide
import NeuroPipeline.Edge.Run

/-!
# Dashboard commands

Model of the endpoints that queue a command (routers/v2/status.py and models.py), with
the edge's handler. The names of the commands stand in a table of the dashboard, their
numbers in the protocol, and what is done for each in the handler.
-/

open CFloat (const)

/-! ## Requests -/

/-- A value as it is parsed from JSON; the keys of a dictionary are distinct. -/
inductive Json where
  | null
  | bool (b : Bool)
  | int (n : Int)
  | float (x : Binary64)
  | str (s : String)
  | list (items : List Json)
  | dict (items : List (String × Json))

namespace Json

/-- `bool(value)` -/
def truthy : Json → Bool
  | .null => false
  | .bool b => b
  | .int n => n ≠ 0
  | .float x => !(x ≤ const 0 && const 0 ≤ x)
  | .str s => s ≠ ""
  | .list items => !items.isEmpty
  | .dict items => !items.isEmpty

end Json

/-- What the endpoints find around them, and the conversions of the libraries. -/
structure Dashboard where
  /-- `orchestrator` is not `None` -/
  orchestrator : Bool := true
  /-- `neuro_pipeline_pb2` can be imported -/
  protobuf : Bool := true
  /-- `repr` of a number with a point, a list or a dictionary -/
  repr : Json → String
  /-- the number that a `uint64` field takes of a value, unless it raises -/
  uint64Of : Json → Option Nat
  /-- `int(time.time() * 1000)` -/
  now : Nat := 0

inductive DashboardRequest where
  /-- `api_v2_command` -/
  | command (body : List (String × Json))
  /-- `api_v2_models_switch` -/
  | switch (modelId : String) (body : List (String × Json))
  /-- `api_v2_models_reload` -/
  | reload (body : Option (List (String × Json)))

inductive DashboardAnswer where
  /-- an HTTP error -/
  | httpException (statusCode : Nat) (detail : String)
  /-- `success` is false -/
  | refused (message : String)
  /-- `success` is false, with the text of an exception -/
  | raised
  /-- `success` is true, and the command is in the queue -/
  | queued (message : String) (cmd : ControlCommand)

namespace Dashboard

variable (d : Dashboard)

/-- `str(value)` -/
def str : Json → String
  | .null => "None"
  | .bool b => if b then "True" else "False"
  | .int n => toString n
  | .str s => s
  | v => d.repr v

/-- `type_map` -/
def typeMap : String → Option Int
  | "SET_FPS" => some 0
  | "CHANGE_MODEL" => some 1
  | "ENABLE_DEBUG" => some 2
  | "SET_DETECTION_THRESHOLD" => some 3
  | "SHUTDOWN" => some 4
  | "RELOAD_MODEL" => some 5
  | _ => none

/-- `type_map.get(cmd_type, 0)`; a list or a dictionary cannot be hashed. -/
def typeNumber : Json → Option Int
  | .str name => some ((typeMap name).getD 0)
  | .list _ | .dict _ => none
  | _ => some 0

/-- The loop that fills the parameters; only a dictionary has `items`. -/
def messageParameters : Json → Option (List (String × String))
  | .dict items => some (items.map fun kv => (kv.1, d.str kv.2))
  | _ => none

def apiV2Command (body : List (String × Json)) : DashboardAnswer :=
  let cmdType := (body.lookup "type").getD (.str "")
  let parameters := (body.lookup "parameters").getD (.dict [])
  let commandId := (body.lookup "commandId").getD (.int 0)
  if !cmdType.truthy then .httpException 400 "Missing command type"
  else if !d.orchestrator then .refused "Orchestrator not available"
  else if !d.protobuf then .refused "Protobuf not available"
  else match typeNumber cmdType, d.uint64Of commandId, d.messageParameters parameters with
    | some n, some id, some params =>
      .queued s!"Command {d.str cmdType} queued" ⟨.ofNumber n, params, id⟩
    | _, _, _ => .raised

/-- The device of a request, which only a text can be. -/
def deviceId (body : List (String × Json)) : Option String :=
  match (body.lookup "device_id").getD (.str "edge-001") with
  | .str device => some device
  | _ => none

def apiV2ModelsSwitch (modelId : String) (body : List (String × Json)) : DashboardAnswer :=
  if !d.orchestrator then .refused "Orchestrator not available"
  else if !d.protobuf then .refused "Protobuf not available"
  else match deviceId body with
    | some device =>
      .queued s!"Switch to {modelId} queued"
        ⟨.changeModel, [("model_id", modelId), ("device_id", device)], d.now⟩
    | none => .raised

def apiV2ModelsReload (body : Option (List (String × Json))) : DashboardAnswer :=
  if !d.orchestrator then .refused "Orchestrator not available"
  else if !d.protobuf then .refused "Protobuf not available"
  else match deviceId (body.getD []) with
    | some device =>
      .queued "Reload command queued" ⟨.reloadModel, [("device_id", device)], d.now⟩
    | none => .raised

def handle : DashboardRequest → DashboardAnswer
  | .command body => d.apiV2Command body
  | .switch modelId body => d.apiV2ModelsSwitch modelId body
  | .reload body => d.apiV2ModelsReload body

end Dashboard

/-! ## The law -/

/-- The command of that name in the protocol. -/
def CommandType.ofName : String → Option CommandType
  | "SET_FPS" => some .setFps
  | "CHANGE_MODEL" => some .changeModel
  | "ENABLE_DEBUG" => some .enableDebug
  | "SET_DETECTION_THRESHOLD" => some .setDetectionThreshold
  | "SHUTDOWN" => some .shutdown
  | "RELOAD_MODEL" => some .reloadModel
  | "SWITCH_MODEL_VARIANT" => some .switchModelVariant
  | "SET_DETECTION_REGION" => some .setDetectionRegion
  | "SET_SENSITIVITY" => some .setSensitivity
  | _ => none

/-- `HandleCommand` has a case for it; the others are logged as unknown. -/
def CommandType.known : CommandType → Bool
  | .changeModel | .enableDebug | .unrecognized _ => false
  | _ => true

namespace DashboardRequest

/-- The value under `type`. -/
def cmdType : DashboardRequest → Json
  | .command body => (body.lookup "type").getD (.str "")
  | .switch _ _ => .str "CHANGE_MODEL"
  | .reload _ => .str "RELOAD_MODEL"

/-- The command that a request names. -/
def named (r : DashboardRequest) : Option CommandType :=
  match r.cmdType with
  | .str name => CommandType.ofName name
  | _ => none

/-- The parameter that a request gives under a key. -/
def parameter (r : DashboardRequest) (key : String) : Option Json :=
  match r with
  | .command body =>
    match (body.lookup "parameters").getD (.dict []) with
    | .dict items => items.lookup key
    | _ => none
  | .switch modelId _ => if key = "model_id" then some (.str modelId) else none
  | .reload _ => none

end DashboardRequest

namespace Coordinator

variable {F : Type} [CFloat F] [OfNumeral F]

/-- What the protocol says that a command does, once it is done. -/
def Performed (c : Coordinator F) (cmd : ControlCommand) (answer : EngineInit)
    (c' : Coordinator F) : Prop :=
  match cmd.type with
  | .setFps => ∃ text ∈ cmd.find "fps", ∃ fps, stoul text = .ok fps ∧
      c'.config.fps = fps.value % 2 ^ 32
  | .setDetectionThreshold => ∃ text ∈ cmd.find "threshold", ∃ threshold : Conversion F,
      stof text = .ok threshold ∧ c'.config.confidenceThreshold = threshold.value
  | .shutdown => c'.running = false
  | .reloadModel => ∃ ok, c.engine.release.initializeEngine answer = .ok (c'.engine, ok)
  | .switchModelVariant => ∃ modelId ∈ cmd.find "model_id", ∃ mgr ∈ c'.modelMgr,
      mgr.activeModelId = modelId
  | .setDetectionRegion => ∀ key ∈ ["x_min", "y_min", "x_max", "y_max"],
      ∃ text ∈ cmd.find key, ∃ v : Conversion F, stof text = .ok v
  | .setSensitivity => ∃ text ∈ cmd.find "sensitivity", ∃ sens : Conversion F,
      stof text = .ok sens ∧ c'.config.confidenceThreshold = const 1 - sens.value
  | .changeModel | .enableDebug | .unrecognized _ => False

/-- The queued command is the one that the request names, the edge knows it and does it. -/
structure MeansWhatItSays (c : Coordinator F) (r : DashboardRequest) (cmd : ControlCommand)
    (answer : EngineInit) : Prop where
  named : r.named = some cmd.type
  known : cmd.type.known = true
  performed : ∃ c', c.handleCommand cmd answer = .ok c' ∧ c.Performed cmd answer c'

end Coordinator

/-- The request names a command that both the table and the handler have, and gives the
parameter that is read in a form that converts. -/
def DashboardRequest.Honest (F : Type) [OfNumeral F] (d : Dashboard) (r : DashboardRequest)
    (answer : EngineInit) : Prop :=
  match r.named with
  | some .setFps => ∃ v ∈ r.parameter "fps", ∃ fps, stoul (d.str v) = .ok fps
  | some .setDetectionThreshold =>
    ∃ v ∈ r.parameter "threshold", ∃ threshold : Conversion F, stof (d.str v) = .ok threshold
  | some .shutdown => True
  | some .reloadModel => answer ≠ .allocationThrows
  | _ => False

/-! ## The edge -/

namespace Coordinator

variable {F : Type} [CFloat F] {c : Coordinator F} {cmd : ControlCommand} {answer : EngineInit}

/-- A command that stores a value does so exactly when the value is there and converts. -/
theorem stored_iff {A : Type} {key : String} {convert : String → Except StdException A}
    {store : A → Coordinator F} {Q : Coordinator F → A → Prop} (hstore : ∀ v, Q (store v) v) :
    (∃ c', c.storeParameter cmd key convert store = .ok c' ∧
        ∃ text ∈ cmd.find key, ∃ v, convert text = .ok v ∧ Q c' v) ↔
      ∃ text ∈ cmd.find key, ∃ v, convert text = .ok v := by
  constructor
  · rintro ⟨c', -, text, htext, v, hv, -⟩
    exact ⟨text, htext, v, hv⟩
  · rintro ⟨text, htext, v, hv⟩
    refine ⟨store v, ?_, text, htext, v, hv, hstore v⟩
    rw [storeParameter, show cmd.find key = some text from htext]
    exact Except.map_eq_ok.mpr ⟨v, hv, rfl⟩

variable [OfNumeral F]

/-- What is logged as unknown has no effect. -/
theorem handleCommand_of_not_known (h : cmd.type.known = false) :
    c.handleCommand cmd answer = .ok c := by
  unfold handleCommand
  cases htype : cmd.type with
  | changeModel | enableDebug | unrecognized _ => rfl
  | _ =>
      rw [htype] at h
      cases h

theorem performed_setFps_iff (htype : cmd.type = .setFps) :
    (∃ c', c.handleCommand cmd answer = .ok c' ∧ c.Performed cmd answer c') ↔
      ∃ text ∈ cmd.find "fps", ∃ fps, stoul text = .ok fps := by
  simp only [handleCommand, Performed, htype, setFps]
  exact stored_iff fun _ => rfl

theorem performed_setDetectionThreshold_iff (htype : cmd.type = .setDetectionThreshold) :
    (∃ c', c.handleCommand cmd answer = .ok c' ∧ c.Performed cmd answer c') ↔
      ∃ text ∈ cmd.find "threshold", ∃ threshold : Conversion F, stof text = .ok threshold := by
  simp only [handleCommand, Performed, htype, setDetectionThreshold]
  exact stored_iff fun _ => rfl

theorem performed_shutdown (htype : cmd.type = .shutdown) :
    ∃ c', c.handleCommand cmd answer = .ok c' ∧ c.Performed cmd answer c' := by
  simp only [handleCommand, Performed, htype]
  exact ⟨_, rfl, rfl⟩

theorem performed_reloadModel_iff (htype : cmd.type = .reloadModel) :
    (∃ c', c.handleCommand cmd answer = .ok c' ∧ c.Performed cmd answer c') ↔
      answer ≠ .allocationThrows := by
  simp only [handleCommand, Performed, htype, reloadModel]
  constructor
  · rintro ⟨c', hc, -⟩ rfl
    cases hc
  · intro hne
    cases answer with
    | allocationThrows => exact absurd rfl hne
    | fileUnreadable | initFailed | queryFailed | ready => exact ⟨_, rfl, _, rfl⟩

end Coordinator

/-! ## The endpoints -/

namespace Dashboard

variable {d : Dashboard} {message : String} {cmd : ControlCommand}

theorem lookup_str (d : Dashboard) (items : List (String × Json)) (key : String) :
    (items.map fun kv => (kv.1, d.str kv.2)).lookup key = (items.lookup key).map d.str := by
  induction items with
  | nil => rfl
  | cons kv items ih =>
      rw [List.map_cons, List.lookup_cons, List.lookup_cons]
      cases key == kv.1 with
      | true => rfl
      | false => exact ih

/-- What is queued has passed the two refusals. -/
theorem queued_of_guards {orchestrator protobuf : Bool} {noOrchestrator noProtobuf : String}
    {answer : DashboardAnswer}
    (h : (if !orchestrator then .refused noOrchestrator
      else if !protobuf then .refused noProtobuf else answer) = .queued message cmd) :
    answer = .queued message cmd := by
  split at h
  · cases h
  · split at h
    · cases h
    · exact h

/-- The command that the endpoint queues. -/
theorem apiV2Command_queued {body : List (String × Json)}
    (h : d.apiV2Command body = .queued message cmd) :
    ∃ n, typeNumber (DashboardRequest.command body).cmdType = some n ∧ cmd.type = .ofNumber n ∧
      ∀ key, cmd.find key = ((DashboardRequest.command body).parameter key).map d.str := by
  unfold apiV2Command at h
  simp only at h
  split at h
  · cases h
  · have hmade := queued_of_guards h
    split at hmade
    next n id params htype _ hparams =>
      obtain ⟨-, rfl⟩ := DashboardAnswer.queued.inj hmade
      refine ⟨n, htype, rfl, ?_⟩
      intro key
      simp only [DashboardRequest.parameter, ControlCommand.find]
      cases hdict : (body.lookup "parameters").getD (.dict []) with
      | dict items =>
          rw [hdict] at hparams
          obtain rfl := Option.some.inj hparams
          exact lookup_str d items key
      | _ =>
          rw [hdict] at hparams
          cases hparams
    next => cases hmade

theorem apiV2ModelsSwitch_queued {modelId : String} {body : List (String × Json)}
    (h : d.apiV2ModelsSwitch modelId body = .queued message cmd) : cmd.type = .changeModel := by
  unfold apiV2ModelsSwitch at h
  have hmade := queued_of_guards h
  split at hmade
  · obtain ⟨-, rfl⟩ := DashboardAnswer.queued.inj hmade
    rfl
  · cases hmade

theorem apiV2ModelsReload_queued {body : Option (List (String × Json))}
    (h : d.apiV2ModelsReload body = .queued message cmd) : cmd.type = .reloadModel := by
  unfold apiV2ModelsReload at h
  have hmade := queued_of_guards h
  split at hmade
  · obtain ⟨-, rfl⟩ := DashboardAnswer.queued.inj hmade
    rfl
  · cases hmade

/-- A name of the table is the name of the command with that number. -/
theorem ofName_of_typeMap {name : String} {n : Int} (h : typeMap name = some n) :
    CommandType.ofName name = some (.ofNumber n) := by
  unfold typeMap at h
  split at h
  all_goals cases h
  all_goals rfl

/-- A command that an honest request can name is in the table. -/
theorem typeMap_of_ofName {name : String} {type : CommandType}
    (h : CommandType.ofName name = some type)
    (htype : type ∈ [.setFps, .setDetectionThreshold, .shutdown, .reloadModel]) :
    typeMap name ≠ none := by
  unfold CommandType.ofName at h
  split at h
  all_goals cases h
  all_goals
    revert htype
    decide

end Dashboard

/-! ## Requests that mean what they say -/

open Dashboard

variable {F : Type} [CFloat F] [OfNumeral F]

theorem Coordinator.meansWhatItSays_iff {c : Coordinator F} {r : DashboardRequest}
    {cmd : ControlCommand} {answer : EngineInit} {P : Prop} (hnamed : r.named = some cmd.type)
    (hknown : cmd.type.known = true)
    (hperformed : (∃ c', c.handleCommand cmd answer = .ok c' ∧ c.Performed cmd answer c') ↔ P) :
    c.MeansWhatItSays r cmd answer ↔ P := by
  rw [← hperformed]
  exact ⟨fun h => h.performed, fun h => ⟨hnamed, hknown, h⟩⟩

theorem Dashboard.find_iff {d : Dashboard} {r : DashboardRequest} {cmd : ControlCommand}
    {key : String} {Q : String → Prop} (hfind : cmd.find key = (r.parameter key).map d.str) :
    (∃ text ∈ cmd.find key, Q text) ↔ ∃ v ∈ r.parameter key, Q (d.str v) := by
  rw [hfind]
  constructor
  · rintro ⟨text, htext, hQ⟩
    obtain ⟨v, hv, rfl⟩ := Option.map_eq_some_iff.mp htext
    exact ⟨v, hv, hQ⟩
  · rintro ⟨v, hv, hQ⟩
    exact ⟨d.str v, Option.map_eq_some_iff.mpr ⟨v, hv, rfl⟩, hQ⟩

/-- A request whose name is in the table. -/
theorem Dashboard.meansWhatItSays_iff_of_typeMap {d : Dashboard} {r : DashboardRequest}
    {cmd : ControlCommand} {name : String} {n : Int} (hname : r.cmdType = .str name)
    (hn : typeMap name = some n) (htype : cmd.type = .ofNumber n)
    (hfind : ∀ key, cmd.find key = (r.parameter key).map d.str) (c : Coordinator F)
    (answer : EngineInit) : c.MeansWhatItSays r cmd answer ↔ r.Honest F d answer := by
  have hnamed : r.named = some cmd.type := by
    rw [DashboardRequest.named, hname, htype]
    exact ofName_of_typeMap hn
  have hcommand : cmd.type ∈ [.setFps, .changeModel, .enableDebug, .setDetectionThreshold,
      .shutdown, .reloadModel] := by
    rw [htype]
    unfold typeMap at hn
    split at hn
    all_goals cases hn
    all_goals decide
  unfold DashboardRequest.Honest
  rw [hnamed]
  cases hcase : cmd.type with
  | setFps =>
      apply Coordinator.meansWhatItSays_iff hnamed (by rw [hcase]; rfl)
      rw [Coordinator.performed_setFps_iff hcase]
      exact find_iff (hfind "fps")
  | setDetectionThreshold =>
      apply Coordinator.meansWhatItSays_iff hnamed (by rw [hcase]; rfl)
      rw [Coordinator.performed_setDetectionThreshold_iff hcase]
      exact find_iff (hfind "threshold")
  | shutdown =>
      apply Coordinator.meansWhatItSays_iff hnamed (by rw [hcase]; rfl)
      exact iff_of_true (Coordinator.performed_shutdown hcase) trivial
  | reloadModel =>
      apply Coordinator.meansWhatItSays_iff hnamed (by rw [hcase]; rfl)
      exact Coordinator.performed_reloadModel_iff hcase
  | changeModel | enableDebug =>
      refine iff_of_false ?_ not_false
      intro hmeans
      have hknown := hmeans.known
      rw [hcase] at hknown
      cases hknown
  | switchModelVariant | setDetectionRegion | setSensitivity | unrecognized _ =>
      rw [hcase] at hcommand
      simp at hcommand

omit [CFloat F] in
/-- A name that is not in the table is not honest. -/
theorem Dashboard.not_honest_of_typeMap {d : Dashboard} {r : DashboardRequest} {name : String}
    {answer : EngineInit} (hname : r.cmdType = .str name) (hn : typeMap name = none) :
    ¬ r.Honest F d answer := by
  intro h
  unfold DashboardRequest.Honest at h
  have hnamed : r.named = CommandType.ofName name := by rw [DashboardRequest.named, hname]
  rw [hnamed] at h
  cases htype : CommandType.ofName name with
  | none => simp only [htype] at h
  | some type =>
      rw [htype] at h
      refine typeMap_of_ofName htype ?_ hn
      cases type with
      | setFps | setDetectionThreshold | shutdown | reloadModel => decide
      | _ => exact h.elim

/-- Conversions for whole numbers, and for the one other number that is given. -/
def smallDashboard : Dashboard where
  repr _ := "0.8"
  uint64Of
    | .int n => if 0 ≤ n ∧ n < 2 ^ 64 then some n.toNat else none
    | _ => none

/-- A name that the protocol has and the table has not. -/
def sensitivityBody : List (String × Json) :=
  [("type", .str "SET_SENSITIVITY"), ("parameters", .dict [("sensitivity", .float (const 0.8))])]

def fpsBody : List (String × Json) :=
  [("type", .str "SET_FPS"), ("parameters", .dict [("fps", .int 15)]), ("commandId", .int 7)]
