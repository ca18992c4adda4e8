-- SUMMARY: The code of the vision worker over values of any type, as a program whose every operation may fail.
import NeuroPipeline.Lib.Program
import NeuroPipeline.Central.CircuitBreaker

/-!
# Items of any shape

Model of `_process_item`, `_apply_vlm_guidance` and the batched call of `_worker`
(vlm_pipeline.py) for queue items that nobody has checked. What an operation on
a value gives, also a subscript or a truth value, is left to the surroundings.
An exception is its text. Metrics and log messages are left out, the formatting
of a log message is not.
-/

/-- A Python value; of an instance only its identity is known. -/
inductive PyObject where
  | none
  | int (n : Int)
  | float (x : ℚ)
  | str (s : String)
  | list (values : List PyObject)
  | dict (entries : List (String × PyObject))
  | instance (id : Nat)

def PyObject.isNone : PyObject → Bool
  | .none => true
  | _ => false

/-! ## Calls -/

/-- An operation that runs code the pipeline does not know. -/
inductive PyCall where
  | truthy (value : PyObject)
  /-- a method or a class is called, and awaited where it is a coroutine -/
  | invoke (receiver : PyObject) (method : String) (args : List PyObject)
      (kwargs : List (String × PyObject))
  | getattr (value : PyObject) (name : String)
  | subscript (value key : PyObject)
  | setSubscript (value key new : PyObject)
  /-- `value[:n]` -/
  | upTo (value : PyObject) (n : Nat)
  | len (value : PyObject)
  | iterate (value : PyObject)
  /-- `k, v = value` -/
  | unpackPair (value : PyObject)
  /-- `str(value)`, also in an f-string -/
  | text (value : PyObject)
  | isInstance (value : PyObject) (types : List String)
  | importModule (name : String)

def PyCall.Answer : PyCall → Type
  | .truthy _ | .isInstance _ _ => Bool
  | .invoke _ _ _ _ | .getattr _ _ | .subscript _ _ | .upTo _ _ | .importModule _ => PyObject
  | .setSubscript _ _ _ => Unit
  | .len _ => Int
  -- the elements, and what the iterator raises after them
  | .iterate _ => List PyObject × Option String
  | .unpackPair _ => PyObject × PyObject
  | .text _ => String

/-- The other calls are to the pipeline's own parts, which do not raise, apart from
`task_done` where nothing is unfinished. -/
inductive Call where
  | ask (call : PyCall)
  | hasattr (value : PyObject) (name : String)
  | allowRequest
  | recordSuccess
  | recordFailure
  /-- `self._circuit_breaker.state` -/
  | breakerState
  /-- `self._command_id_counter += 1` -/
  | nextCommandId
  /-- `asyncio.create_task` of an alert -/
  | createAlertTask (error : String)
  /-- `time.time()` -/
  | time
  | taskDone

def Call.Answer : Call → Type
  | .ask call => call.Answer
  | .hasattr _ _ | .allowRequest => Bool
  | .recordSuccess | .recordFailure | .createAlertTask _ | .taskDone => Unit
  | .breakerState => BreakerState
  | .nextCommandId => Int
  | .time => ℚ

abbrev Code (α : Type) := Prog Call Call.Answer String α

namespace Code

def raise {α : Type} (error : String) : Code α := .done (.raised error)

def ask (call : PyCall) : Code call.Answer := Prog.perform (Call.ask call)

def truthy (value : PyObject) : Code Bool := ask (.truthy value)

def invoke (receiver : PyObject) (method : String) (args : List PyObject)
    (kwargs : List (String × PyObject)) : Code PyObject :=
  ask (.invoke receiver method args kwargs)

def getattr (value : PyObject) (name : String) : Code PyObject := ask (.getattr value name)

def subscript (value : PyObject) (key : String) : Code PyObject :=
  ask (.subscript value (.str key))

def setSubscript (value key new : PyObject) : Code Unit := ask (.setSubscript value key new)

def upTo (value : PyObject) (n : Nat) : Code PyObject := ask (.upTo value n)

def len (value : PyObject) : Code Int := ask (.len value)

def iterate (value : PyObject) : Code (List PyObject × Option String) := ask (.iterate value)

def unpackPair (value : PyObject) : Code (PyObject × PyObject) := ask (.unpackPair value)

def text (value : PyObject) : Code String := ask (.text value)

def isInstance (value : PyObject) (types : List String) : Code Bool :=
  ask (.isInstance value types)

def hasattr (value : PyObject) (name : String) : Code Bool :=
  Prog.perform (Call.hasattr value name)

def allowRequest : Code Bool := Prog.perform Call.allowRequest

def recordSuccess : Code Unit := Prog.perform Call.recordSuccess

def recordFailure : Code Unit := Prog.perform Call.recordFailure

def breakerState : Code BreakerState := Prog.perform Call.breakerState

def nextCommandId : Code Int := Prog.perform Call.nextCommandId

def createAlertTask (error : String) : Code Unit := Prog.perform (Call.createAlertTask error)

def time : Code ℚ := Prog.perform Call.time

def taskDone : Code Unit := Prog.perform Call.taskDone

/-- `value.get(key, default)` -/
def get (value : PyObject) (key : String) (default : List PyObject) : Code PyObject :=
  invoke value "get" (.str key :: default) []

/-- `for x in value: body(x)` -/
def forIn (value : PyObject) (body : PyObject → Code Unit) : Code Unit := do
  let (elements, error) ← iterate value
  Prog.each body elements
  match error with
  | some e => raise e
  | none => pure ()

/-- `[body(x) for x in value]` -/
def comprehension (value : PyObject) (body : PyObject → Code PyObject) : Code PyObject := do
  let (elements, error) ← iterate value
  let results ← Prog.collect body elements
  match error with
  | some e => raise e
  | none => pure (.list results)

/-- `v and w`, as a condition -/
def both (v w : PyObject) : Code Bool := do
  if ← truthy v then truthy w else pure false

end Code

/-! ## The pipeline -/

/-- The parts of the pipeline, `none` where one is absent. -/
structure ItemPipeline where
  inferenceEngine : PyObject
  eventBus : PyObject
  cloudStorage : PyObject
  ragRetriever : PyObject
  vlmConfigGuide : PyObject
  commandQueue : PyObject
  /-- `_tracer` of tracing.py -/
  tracer : PyObject
  hasAlertManager : Bool
  batchMaxSize : Int := 8
  /-- of the queue of items, without a limit where it is not positive -/
  queueMaxSize : Int := 32

namespace ItemPipeline

open Code

/-- `span` of tracing.py around `body`. -/
def span {α : Type} (p : ItemPipeline) (name : String) (attributes : List (String × PyObject))
    (body : Code α) : Code α := do
  if ← truthy p.tracer then
    let manager ← invoke p.tracer "start_as_current_span" [.str name] []
    let s ← invoke manager "__enter__" [] []
    -- what is raised inside goes through the generator and on
    let inside : Code α := do
      Prog.each (fun (k, v) => do
        let t ← text v
        let _ ← invoke s "set_attribute" [.str k, .str t] []
        pure ()) attributes
      body
    inside.tryFinally do
      let _ ← invoke manager "__exit__" [] []
      pure ()
  else body

/-- The prompt with what the retriever knows, or as it is. -/
def withHistory (p : ItemPipeline) (item deviceId prompt : PyObject) : Code PyObject :=
  let retrieval : Code PyObject := do
    let detections ← get item "detections" [.list []]
    let classNames ← comprehension detections fun d => get d "class_name" []
    let ragCtx ← invoke p.ragRetriever "retrieve" [deviceId] [("class_names", classNames)]
    let items ← getattr ragCtx "items"
    if ← truthy items then
      let ragText ← invoke p.ragRetriever "format_for_prompt" [ragCtx] []
      let before ← text prompt
      let history ← text ragText
      pure (.str (before ++ "\n\nHistorical context:\n" ++ history))
    else pure prompt
  do
    if ← both p.ragRetriever deviceId then retrieval.tryExcept fun _ => pure prompt
    else pure prompt

def withConversation (p : ItemPipeline) (deviceId prompt : PyObject) : Code PyObject := do
  if ← both deviceId p.inferenceEngine then
    let ctx ← invoke p.inferenceEngine "get_conversation" [deviceId] []
    invoke ctx "build_prompt" [prompt] []
  else pure prompt

/-- The item's place in the batched results, if it has one. -/
def hasBatchResult (batchResults : PyObject) (idx : Nat) : Code Bool :=
  if batchResults.isNone then pure false
  else do
    let n ← len batchResults
    pure (decide ((idx : Int) < n))

def infer (p : ItemPipeline) (item prompt batchResults : PyObject) (idx : Nat) :
    Code PyObject := do
  if ← hasBatchResult batchResults idx then
    ask (.subscript batchResults (.int idx))
  else
    let frameData ← subscript item "frame_data"
    invoke p.inferenceEngine "analyze_image" [frameData, prompt] []

def inferTraced (p : ItemPipeline) (item deviceId prompt batchResults : PyObject) (idx : Nat) :
    Code PyObject := do
  let frameId ← subscript item "frame_id"
  let frameText ← text frameId
  let rule ← get item "rule" [.str ""]
  p.span "vlm_inference" [("device_id", deviceId), ("frame_id", .str frameText), ("rule", rule)]
    (p.infer item prompt batchResults idx)

def recordTurns (p : ItemPipeline) (item deviceId vlmResult : PyObject) : Code Unit := do
  if ← both deviceId p.inferenceEngine then
    let ctx ← invoke p.inferenceEngine "get_conversation" [deviceId] []
    let prompt ← subscript item "prompt"
    let _ ← invoke ctx "add_turn" [.str "user", prompt] []
    let answer ← upTo vlmResult 200
    let _ ← invoke ctx "add_turn" [.str "assistant", answer] []
    pure ()
  else pure ()

/-- The log message of a result. -/
def logResult (item vlmResult : PyObject) : Code Unit := do
  let frameId ← subscript item "frame_id"
  let _ ← text frameId
  let shown ← upTo vlmResult 100
  let _ ← text shown
  pure ()

def publishAnalysis (p : ItemPipeline) (item deviceId vlmResult : PyObject) : Code Unit := do
  let frameId ← subscript item "frame_id"
  let traceId ← subscript item "trace_id"
  let detections ← subscript item "detections"
  let shown ← upTo vlmResult 200
  let rule ← subscript item "rule"
  let now ← time
  let _ ← invoke p.eventBus "publish"
    [.dict [("type", .str "vlm_analysis"), ("frame_id", frameId), ("trace_id", traceId),
      ("device_id", deviceId), ("detections", detections), ("vlm_result", shown),
      ("rule", rule), ("timestamp", .float now)]] []
  pure ()

def uploadFrame (p : ItemPipeline) (item deviceId vlmResult : PyObject) : Code Unit := do
  let device ← (do if ← truthy deviceId then pure deviceId else pure (.str "unknown"))
  let frameId ← subscript item "frame_id"
  let frameData ← subscript item "frame_data"
  let shown ← upTo vlmResult 100
  let rule ← subscript item "rule"
  let _ ← invoke p.cloudStorage "upload_frame" []
    [("device_id", device), ("frame_id", frameId), ("frame_data", frameData),
      ("metadata", .dict [("vlm_result", shown), ("rule", rule)])]
  pure ()

/-- The cloud client and the frame are both there. -/
def shouldUpload (p : ItemPipeline) (item : PyObject) : Code Bool := do
  if ← truthy p.cloudStorage then
    let frameData ← get item "frame_data" []
    truthy frameData
  else pure false

/-- Strings are kept and numbers written out; parameters of other types are dropped. -/
def setParameter (cmd entry : PyObject) : Code Unit := do
  let (k, v) ← unpackPair entry
  if ← isInstance v ["str"] then
    let parameters ← getattr cmd "parameters"
    setSubscript parameters k v
  else if ← isInstance v ["int", "float"] then
    let t ← text v
    let parameters ← getattr cmd "parameters"
    setSubscript parameters k (.str t)
  else pure ()

def sendAdjustment (p : ItemPipeline) (deviceId adj : PyObject) : Code Unit := do
  let id ← nextCommandId
  let cmdDict ← invoke p.vlmConfigGuide "create_control_command" [adj, deviceId, .int id] []
  let pb ← ask (.importModule "neuro_pipeline_pb2")
  let type ← subscript cmdDict "type"
  let commandId ← subscript cmdDict "command_id"
  let cmd ← invoke pb "ControlCommand" [] [("type", type), ("command_id", commandId)]
  let parameters ← get cmdDict "parameters" [.dict []]
  let entries ← invoke parameters "items" [] []
  forIn entries (setParameter cmd)
  let _ ← invoke p.commandQueue "put" [cmd] []
  -- the log message
  let sent ← getattr cmd "type"
  let _ ← text sent
  let _ ← text deviceId
  let reason ← getattr adj "reason"
  let shown ← upTo reason 50
  let _ ← text shown
  pure ()

def applyVlmGuidance (p : ItemPipeline) (vlmResult deviceId : PyObject) : Code Unit :=
  let guided : Code Unit := do
    let guidance ← invoke p.vlmConfigGuide "parse_vlm_result" [vlmResult]
      [("context", .dict [("device_id", deviceId)])]
    let shouldApply ← getattr guidance "should_apply"
    if ← both shouldApply p.commandQueue then
      let adjustments ← getattr guidance "adjustments"
      forIn adjustments (p.sendAdjustment deviceId)
    else pure ()
  guided.tryExcept fun _ => pure ()

/-- Cloud storage of a critical frame. -/
def uploadCritical (p : ItemPipeline) (item deviceId vlmResult : PyObject) : Code Unit := do
  if ← p.shouldUpload item then (p.uploadFrame item deviceId vlmResult).tryExcept fun _ => pure ()
  else pure ()

def guideEdge (p : ItemPipeline) (vlmResult deviceId : PyObject) : Code Unit := do
  if ← both p.vlmConfigGuide deviceId then p.applyVlmGuidance vlmResult deviceId else pure ()

/-- The `try` of `_process_item`. -/
def analyse (p : ItemPipeline) (item : PyObject) (idx : Nat) (batchResults : PyObject) :
    Code Unit := do
  let deviceId ← get item "device_id" [.str ""]
  let prompt ← subscript item "prompt"
  -- an error of the retriever is caught inside, one of the conversation is not
  let prompt ← p.withHistory item deviceId prompt
  let prompt ← p.withConversation deviceId prompt
  let vlmResult ← p.inferTraced item deviceId prompt batchResults idx
  p.recordTurns item deviceId vlmResult
  recordSuccess
  logResult item vlmResult
  p.publishAnalysis item deviceId vlmResult
  p.uploadCritical item deviceId vlmResult
  p.guideEdge vlmResult deviceId

/-- Its `except`. -/
def handleFailure (p : ItemPipeline) (error : String) : Code Unit := do
  recordFailure
  let state ← breakerState
  if state = .opened ∧ p.hasAlertManager = true then createAlertTask error
  else pure ()

def processItem (p : ItemPipeline) (item : PyObject) (idx : Nat) (batchResults : PyObject) :
    Code Unit := do
  if ← allowRequest then
    ((p.analyse item idx batchResults).tryExcept p.handleFailure).tryFinally
      taskDone
  else
    -- the breaker refuses: the item is skipped
    taskDone

/-- The items as `batch_analyze` gets them. -/
def batchItem (it : PyObject) : Code PyObject := do
  let frameData ← subscript it "frame_data"
  let prompt ← subscript it "prompt"
  pure (.dict [("frame_data", frameData), ("prompt", prompt)])

/-- The batched call, `none` where the items are to be analysed one by one. -/
def batchResults (p : ItemPipeline) (batch : List PyObject) : Code PyObject :=
  let batched : Code PyObject := do
    let batchItems ← Prog.collect batchItem batch
    invoke p.inferenceEngine "batch_analyze" [.list batchItems] []
  do
    if (← hasattr p.inferenceEngine "batch_analyze") ∧ 1 < batch.length then
      batched.tryExcept fun _ => pure .none
    else pure .none

end ItemPipeline

/-! ## Nothing but the `finally` calls `task_done` -/

/-- How a call may be answered: the pipeline's own parts return, and the surroundings
cancel only under `c`. -/
def Call.Admits (c : Prop) : (call : Call) → Reply String call.Answer → Prop
  | .ask _, o => o.Within c
  | .hasattr _ _, o | .allowRequest, o | .recordSuccess, o | .recordFailure, o
  | .breakerState, o | .nextCommandId, o | .createAlertTask _, o | .time, o | .taskDone, o =>
    o.Returned

namespace Code

variable {c : Prop} {α : Type}

/-- `task_done` is not called, and the code is cancelled only under `c`. -/
abbrev Quiet (c : Prop) (code : Code α) : Prop :=
  code.Silent (· = Call.taskDone) (Call.Admits c) c

/-- `task_done` is called `n` times, and nothing but a cancellation leaves the code. -/
abbrev Owes (c : Prop) (n : Nat) (code : Code α) : Prop :=
  code.Tallies (· = Call.taskDone) (Call.Admits c) (Reply.Settled c) n

/-- `task_done` is called `n` times and the code returns. -/
abbrev Returns (c : Prop) (n : Nat) (code : Code α) : Prop :=
  code.Tallies (· = Call.taskDone) (Call.Admits c) Reply.Returned n

theorem within_of_returned {o : Reply String α} (h : o.Returned) : o.Within c := by
  cases o with
  | returned a => trivial
  | raised e => trivial
  | cancelled => exact h.elim

theorem settled_of_returned {o : Reply String α} (h : o.Returned) : o.Settled c := by
  cases o with
  | returned a => trivial
  | raised e => exact h.elim
  | cancelled => exact h.elim

theorem Returns.quiet {code : Code α} (h : Returns c 0 code) : Quiet c code :=
  h.mono fun _ => within_of_returned

theorem Returns.owes {code : Code α} {n : Nat} (h : Returns c n code) : Owes c n code :=
  h.mono fun _ => settled_of_returned

/-- Caught by a handler that returns, silent code owes nothing. -/
theorem Quiet.tryExcept_owes {code : Code α} {handler : String → Code α} (h : Quiet c code)
    (hh : ∀ e, Returns c 0 (handler e)) : Owes c 0 (code.tryExcept handler) := by
  refine Prog.Tallies.tryExcept h ?_ fun e _ => (hh e).owes
  intro o hraised ho
  cases o with
  | returned _ => trivial
  | raised e => exact hraised e rfl
  | cancelled => exact ho

theorem ask_quiet (call : PyCall) : Quiet c (ask call) :=
  Prog.Silent.perform (by simp) fun _ ho => ho

theorem part_returns {call : Call} (hcall : call ≠ .taskDone)
    (h : ∀ o, call.Admits c o → o.Returned) : Returns c 0 (Prog.perform call) :=
  Prog.Tallies.perform hcall h

theorem hasattr_returns (value : PyObject) (name : String) : Returns c 0 (hasattr value name) :=
  part_returns (by simp) fun _ ho => ho

theorem allowRequest_returns : Returns c 0 allowRequest :=
  part_returns (by simp) fun _ ho => ho

theorem recordSuccess_returns : Returns c 0 recordSuccess :=
  part_returns (by simp) fun _ ho => ho

theorem recordFailure_returns : Returns c 0 recordFailure :=
  part_returns (by simp) fun _ ho => ho

theorem breakerState_returns : Returns c 0 breakerState :=
  part_returns (by simp) fun _ ho => ho

theorem nextCommandId_returns : Returns c 0 nextCommandId :=
  part_returns (by simp) fun _ ho => ho

theorem createAlertTask_returns (error : String) : Returns c 0 (createAlertTask error) :=
  part_returns (by simp) fun _ ho => ho

theorem time_returns : Returns c 0 time :=
  part_returns (by simp) fun _ ho => ho

theorem taskDone_returns : Returns c 1 taskDone :=
  Prog.Tallies.tallied rfl fun _ => .done trivial

theorem raise_quiet {error : String} : Quiet c (raise error : Code α) :=
  .done trivial

theorem both_quiet (v w : PyObject) : Quiet c (both v w) :=
  .bind (ask_quiet _) fun _ => .ite (ask_quiet _) .pure

theorem forIn_quiet {value : PyObject} {body : PyObject → Code Unit}
    (h : ∀ x, Quiet c (body x)) : Quiet c (forIn value body) := by
  refine .bind (ask_quiet _) fun ⟨elements, error⟩ => ?_
  refine .bind (.each fun x _ => h x) fun _ => ?_
  cases error with
  | none => exact .pure
  | some e => exact raise_quiet

theorem comprehension_quiet {value : PyObject} {body : PyObject → Code PyObject}
    (h : ∀ x, Quiet c (body x)) : Quiet c (comprehension value body) := by
  refine .bind (ask_quiet _) fun ⟨elements, error⟩ => ?_
  refine .bind (.collect fun x _ => h x) fun _ => ?_
  cases error with
  | none => exact .pure
  | some e => exact raise_quiet

end Code

namespace ItemPipeline

open Code

variable {c : Prop} (p : ItemPipeline)

theorem span_quiet {α : Type} {name : String} {attributes : List (String × PyObject)}
    {body : Code α} (h : Quiet c body) : Quiet c (p.span name attributes body) := by
  refine .bind (ask_quiet _) fun _ => .ite ?_ h
  refine .bind (ask_quiet _) fun _ => .bind (ask_quiet _) fun _ => .tryFinally ?_ ?_
  · refine .bind (.each fun _ _ => ?_) fun _ => h
    exact .bind (ask_quiet _) fun _ => .bind (ask_quiet _) fun _ => .pure
  · exact .bind (ask_quiet _) fun _ => .pure

theorem withHistory_quiet (item deviceId prompt : PyObject) :
    Quiet c (p.withHistory item deviceId prompt) := by
  refine .bind (both_quiet _ _) fun _ => .ite (.tryExcept ?_ fun _ => .pure) .pure
  refine .bind (ask_quiet _) fun detections => ?_
  refine .bind (comprehension_quiet fun _ => ask_quiet _) fun classNames => ?_
  refine .bind (ask_quiet _) fun ragCtx => .bind (ask_quiet _) fun items => ?_
  refine .bind (ask_quiet _) fun _ => .ite ?_ .pure
  refine .bind (ask_quiet _) fun ragText => .bind (ask_quiet _) fun _ => ?_
  exact .bind (ask_quiet _) fun _ => .pure

theorem withConversation_quiet (deviceId prompt : PyObject) :
    Quiet c (p.withConversation deviceId prompt) := by
  refine .bind (both_quiet _ _) fun _ => .ite ?_ .pure
  exact .bind (ask_quiet _) fun _ => ask_quiet _

theorem infer_quiet (item prompt batchResults : PyObject) (idx : Nat) :
    Quiet c (p.infer item prompt batchResults idx) := by
  refine .bind (.ite .pure ?_) fun _ => .ite (ask_quiet _) ?_
  · exact .bind (ask_quiet _) fun _ => .pure
  · exact .bind (ask_quiet _) fun _ => ask_quiet _

theorem inferTraced_quiet (item deviceId prompt batchResults : PyObject) (idx : Nat) :
    Quiet c (p.inferTraced item deviceId prompt batchResults idx) := by
  refine .bind (ask_quiet _) fun frameId => .bind (ask_quiet _) fun frameText => ?_
  exact .bind (ask_quiet _) fun rule => p.span_quiet (p.infer_quiet _ _ _ _)

theorem recordTurns_quiet (item deviceId vlmResult : PyObject) :
    Quiet c (p.recordTurns item deviceId vlmResult) := by
  refine .bind (both_quiet _ _) fun _ => .ite ?_ .pure
  refine .bind (ask_quiet _) fun ctx => .bind (ask_quiet _) fun prompt => ?_
  refine .bind (ask_quiet _) fun _ => .bind (ask_quiet _) fun answer => ?_
  exact .bind (ask_quiet _) fun _ => .pure

theorem logResult_quiet (item vlmResult : PyObject) : Quiet c (logResult item vlmResult) := by
  refine .bind (ask_quiet _) fun frameId => .bind (ask_quiet _) fun _ => ?_
  exact .bind (ask_quiet _) fun shown => .bind (ask_quiet _) fun _ => .pure

theorem publishAnalysis_quiet (item deviceId vlmResult : PyObject) :
    Quiet c (p.publishAnalysis item deviceId vlmResult) := by
  refine .bind (ask_quiet _) fun frameId => .bind (ask_quiet _) fun traceId => ?_
  refine .bind (ask_quiet _) fun detections => .bind (ask_quiet _) fun shown => ?_
  refine .bind (ask_quiet _) fun rule => .bind time_returns.quiet fun now => ?_
  exact .bind (ask_quiet _) fun _ => .pure

theorem uploadFrame_quiet (item deviceId vlmResult : PyObject) :
    Quiet c (p.uploadFrame item deviceId vlmResult) := by
  refine .bind (.bind (ask_quiet _) fun _ => .ite .pure .pure) fun device => ?_
  refine .bind (ask_quiet _) fun frameId => .bind (ask_quiet _) fun frameData => ?_
  refine .bind (ask_quiet _) fun shown => .bind (ask_quiet _) fun rule => ?_
  exact .bind (ask_quiet _) fun _ => .pure

theorem shouldUpload_quiet (item : PyObject) : Quiet c (p.shouldUpload item) := by
  refine .bind (ask_quiet _) fun _ => .ite ?_ .pure
  exact .bind (ask_quiet _) fun _ => ask_quiet _

theorem setParameter_quiet (cmd entry : PyObject) : Quiet c (setParameter cmd entry) := by
  refine .bind (ask_quiet _) fun ⟨k, v⟩ => .bind (ask_quiet _) fun _ => .ite ?_ ?_
  · exact .bind (ask_quiet _) fun _ => ask_quiet _
  refine .bind (ask_quiet _) fun _ => .ite ?_ .pure
  exact .bind (ask_quiet _) fun _ => .bind (ask_quiet _) fun _ => ask_quiet _

theorem sendAdjustment_quiet (deviceId adj : PyObject) :
    Quiet c (p.sendAdjustment deviceId adj) := by
  refine .bind nextCommandId_returns.quiet fun id => .bind (ask_quiet _) fun cmdDict => ?_
  refine .bind (ask_quiet _) fun pb => .bind (ask_quiet _) fun type => ?_
  refine .bind (ask_quiet _) fun commandId => .bind (ask_quiet _) fun cmd => ?_
  refine .bind (ask_quiet _) fun parameters => .bind (ask_quiet _) fun entries => ?_
  refine .bind (forIn_quiet (setParameter_quiet cmd)) fun _ => .bind (ask_quiet _) fun _ => ?_
  refine .bind (ask_quiet _) fun sent => .bind (ask_quiet _) fun _ => ?_
  refine .bind (ask_quiet _) fun _ => .bind (ask_quiet _) fun reason => ?_
  exact .bind (ask_quiet _) fun shown => .bind (ask_quiet _) fun _ => .pure

theorem applyVlmGuidance_quiet (vlmResult deviceId : PyObject) :
    Quiet c (p.applyVlmGuidance vlmResult deviceId) := by
  refine .tryExcept ?_ fun _ => .pure
  refine .bind (ask_quiet _) fun guidance => .bind (ask_quiet _) fun shouldApply => ?_
  refine .bind (both_quiet _ _) fun _ => .ite ?_ .pure
  exact .bind (ask_quiet _) fun _ => forIn_quiet (p.sendAdjustment_quiet deviceId)

theorem uploadCritical_quiet (item deviceId vlmResult : PyObject) :
    Quiet c (p.uploadCritical item deviceId vlmResult) := by
  refine .bind (p.shouldUpload_quiet _) fun _ => .ite ?_ .pure
  exact .tryExcept (p.uploadFrame_quiet _ _ _) fun _ => .pure

theorem guideEdge_quiet (vlmResult deviceId : PyObject) :
    Quiet c (p.guideEdge vlmResult deviceId) :=
  .bind (both_quiet _ _) fun _ => .ite (p.applyVlmGuidance_quiet _ _) .pure

theorem analyse_quiet (item : PyObject) (idx : Nat) (batchResults : PyObject) :
    Quiet c (p.analyse item idx batchResults) := by
  refine .bind (ask_quiet _) fun deviceId => .bind (ask_quiet _) fun prompt => ?_
  refine .bind (p.withHistory_quiet _ _ _) fun prompt => ?_
  refine .bind (p.withConversation_quiet _ _) fun prompt => ?_
  refine .bind (p.inferTraced_quiet _ _ _ _ _) fun vlmResult => ?_
  refine .bind (p.recordTurns_quiet _ _ _) fun _ => .bind recordSuccess_returns.quiet fun _ => ?_
  refine .bind (logResult_quiet _ _) fun _ => .bind (p.publishAnalysis_quiet _ _ _) fun _ => ?_
  exact .bind (p.uploadCritical_quiet _ _ _) fun _ => p.guideEdge_quiet _ _

/-! ## What an item and a batch owe -/

theorem handleFailure_returns (error : String) : Returns c 0 (p.handleFailure error) := by
  refine .bind recordFailure_returns fun _ => .bind breakerState_returns fun state => ?_
  split
  · exact createAlertTask_returns error
  · exact .pure trivial

/-- Whatever the item is and whatever is answered, `task_done` is called once. -/
theorem processItem_owes (item : PyObject) (idx : Nat) (batchResults : PyObject) :
    Owes c 1 (p.processItem item idx batchResults) := by
  refine .bind allowRequest_returns fun allowed => ?_
  split
  · have hcaught := (p.analyse_quiet (c := c) item idx batchResults).tryExcept_owes
      p.handleFailure_returns
    exact hcaught.tryFinally taskDone_returns
  · exact taskDone_returns.owes

/-- An exception of the batched call stays inside. -/
theorem batchResults_owes (batch : List PyObject) : Owes c 0 (p.batchResults batch) := by
  refine .bind (hasattr_returns _ _) fun has => ?_
  split
  · refine Quiet.tryExcept_owes ?_ fun _ => .pure trivial
    refine .bind (.collect fun it _ => ?_) fun batchItems => ask_quiet _
    exact .bind (ask_quiet _) fun _ => .bind (ask_quiet _) fun _ => .pure
  · exact .pure trivial

end ItemPipeline
