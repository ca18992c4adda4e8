-- SUMMARY: The processing loop together with the gRPC client it feeds and the commands that arrive meanwhile.
import NeuroPipeline.Edge.GrpcClient
import NeuroPipeline.Edge.PipelineCoordinator

/-!
# The processing loop

Model of `PipelineCoordinator::Impl::Run`. The pipeline thread is the only one
that calls `StreamDetection`, and nobody connects or closes the client while the
loop runs. Commands and the end of the event stream come from the reader thread
between any two steps. Events that the loop sends change no state and are left
out.
-/

/-- The libraries that the edge is built on. -/
structure Platform (F : Type) where
  codec : Codec (DetectionResult F)
  math : CMath F
  std : StdSort (DetectionBox F)

/-- What one round of the loop is given: whether a frame is captured and converted,
the engine's answer, the clocks and the encoded picture. -/
structure FrameInput (F : Type) where
  captured : Bool := true
  processed : Bool := true
  outputs : Option (Tensors F)
  timestampUs : Nat := 0
  /-- time that passes before each test of the deduplication cache -/
  ticks : Nat → Nat := fun _ => 0
  jpeg : List UInt8 := []

/-- Where the pipeline thread is. -/
inductive RunPc where
  /-- in `Initialize`, about to connect -/
  | starting
  /-- about to start the event stream -/
  | starts
  /-- at the head of the loop -/
  | top
  /-- inside of `StreamDetection` -/
  | sending
  /-- past the send, in the rest of the round -/
  | tail
  /-- out of the loop, about to flush the stream -/
  | leaving
  /-- about to stop the event stream -/
  | flushed
  | stopped
  /-- an exception ended the process -/
  | terminated
  deriving DecidableEq

structure EdgeSystem {F : Type} [CFloat F] (P : Platform F) where
  coordinator : Coordinator F
  client : ClientSystem P.codec Unit
  frameCount : Nat
  pc : RunPc

/-- Steps of the pipeline thread, of the reader thread and of `Stop`. -/
inductive EdgeAct (F : Type) where
  | connect (o : Outcome)
  | startEventStream (o : Outcome)
  | frame (f : FrameInput F)
  | client (o : Outcome)
  | finish
  | leave
  | flushStream (o : Outcome)
  | stopEventStream
  | command (cmd : ControlCommand) (answer : EngineInit)
  | eventReaderEnds
  | stop

/-! ## One frame -/

/-- What a frame yields before anything is sent. -/
structure Analysis (F : Type) [CFloat F] where
  coordinator : Coordinator F
  detections : List (DetectionBox F)
  trackIds : List Nat
  verdicts : List (DetectionCache.Verdict F)

namespace Coordinator

variable {F : Type} [CFloat F] (c : Coordinator F)

/-- The detections of a frame, or `none` when inference fails. -/
def infer (P : Platform F) (outputs : Option (Tensors F)) : Option (List (DetectionBox F)) :=
  match c.modelMgr with
  | some mgr =>
    match mgr.getActiveModel with
    | some slot => (slot.engine.infer outputs).map fun out =>
        slot.postprocessor.elim [] (PostProcessor.process P.math P.std out)
    | none => some []
  | none => (c.engine.infer outputs).map fun out => c.postprocessor.process P.math P.std out

/-- Track ids are assigned to all detections, in their order. -/
def track (detections : List (DetectionBox F)) (frameCount : Nat) : Coordinator F × List Nat :=
  match c.temporalTracker with
  | none => (c, [])
  | some t =>
    let updated := t.update detections frameCount
    ({ c with temporalTracker := some updated.1 }, updated.2)

def dedup (detections : List (DetectionBox F)) (ticks : Nat → Nat) :
    Coordinator F × List (DetectionCache.Verdict F) :=
  let deduped := c.detectionCache.dedup detections ticks
  ({ c with detectionCache := deduped.1 }, deduped.2)

def analyse (P : Platform F) (frameCount : Nat) (f : FrameInput F) : Option (Analysis F) :=
  if f.captured && f.processed then
    (c.infer P f.outputs).map fun detections =>
      let tracked := c.track detections frameCount
      let deduped := tracked.1.dedup detections f.ticks
      ⟨deduped.1, detections, tracked.2, deduped.2⟩
  else none

/-- The frame skip. -/
def shouldSend (frameCount : Nat) : Bool :=
  c.config.frameSkipInterval = 0 || frameCount % c.config.frameSkipInterval = 0

/-- A novel detection at position `di` is paired with the id at that position. -/
def boundingBox (trackIds : List Nat) (di : Nat) (det : DetectionBox F) : BoundingBox F where
  classId := 0
  className := det.className
  confidence := det.confidence
  xMin := det.xMin
  yMin := det.yMin
  xMax := det.xMax
  yMax := det.yMax
  trackId := trackIds.getD di 0

def buildResult (frameCount : Nat) (f : FrameInput F) (novel : List (DetectionBox F))
    (trackIds : List Nat) : DetectionResult F where
  frameId := frameCount
  deviceId := c.config.deviceId
  traceId := s!"{c.config.deviceId}-{frameCount}"
  timestampUs := f.timestampUs
  boxes := novel.mapIdx (boundingBox trackIds)
  frameData := if c.config.sendFrameData then f.jpeg else []

/-- What the analysis of a frame has done with the components. -/
structure Analysed (P : Platform F) (f : FrameInput F) (a : Analysis F) : Prop where
  captured : f.captured = true
  infer : c.infer P f.outputs = some a.detections
  verdicts : a.verdicts = (c.detectionCache.dedup a.detections f.ticks).2
  detectionCache : a.coordinator.detectionCache = (c.detectionCache.dedup a.detections f.ticks).1
  config : a.coordinator.config = c.config
  postprocessor : a.coordinator.postprocessor = c.postprocessor
  modelMgr : a.coordinator.modelMgr = c.modelMgr

theorem track_eq (detections : List (DetectionBox F)) (n : Nat) :
    ∃ t, (c.track detections n).1 = { c with temporalTracker := t } := by
  unfold track
  split <;> exact ⟨_, rfl⟩

variable {c}

theorem analyse_eq_some {P : Platform F} {n : Nat} {f : FrameInput F} {a : Analysis F}
    (h : c.analyse P n f = some a) :
    c.Analysed P f a ∧ a.trackIds = (c.track a.detections n).2 := by
  unfold analyse at h
  split at h
  next hframe =>
    obtain ⟨detections, hinfer, rfl⟩ := Option.map_eq_some_iff.mp h
    have hcaptured : f.captured = true := (Bool.and_eq_true_iff.mp hframe).1
    obtain ⟨t, ht⟩ := c.track_eq detections n
    refine ⟨⟨hcaptured, hinfer, ?_, ?_, ?_, ?_, ?_⟩, rfl⟩
    all_goals simp only [dedup, ht]
  next => cases h

end Coordinator

/-! ## The loop -/

namespace EdgeSystem

variable {F : Type} [CFloat F] {P : Platform F}

def new (P : Platform F) (c : Coordinator F) : EdgeSystem P where
  coordinator := c
  client := .new P.codec Unit { cacheQueue := c.config.cacheQueue }
  frameCount := 0
  pc := .starting

def analyse (s : EdgeSystem P) (f : FrameInput F) : Option (Analysis F) :=
  s.coordinator.analyse P s.frameCount f

/-- `grpc_client_ && grpc_client_->IsConnected()`. -/
def linkUp (s : EdgeSystem P) : Bool :=
  s.coordinator.config.grpcEnabled && s.client.client.connected

theorem connected_of_linkUp {s : EdgeSystem P} (h : s.linkUp = true) :
    s.client.client.connected = true :=
  (Bool.and_eq_true_iff.mp h).2

/-- The result that a frame has to report: there is one when a detection is novel. -/
def novelResult (s : EdgeSystem P) (f : FrameInput F) : Option (DetectionResult F) :=
  match s.analyse f with
  | none => none
  | some a =>
    if (DetectionCache.novelDetections a.verdicts).isEmpty then none
    else some (s.coordinator.buildResult s.frameCount f
      (DetectionCache.novelDetections a.verdicts) a.trackIds)

/-- The result that the frame hands to `StreamDetection`. -/
def handedResult (s : EdgeSystem P) (f : FrameInput F) : Option (DetectionResult F) :=
  if s.linkUp then
    if s.coordinator.shouldSend s.frameCount then s.novelResult f else none
  else none

def withClient (s : EdgeSystem P) (client : ClientSystem P.codec Unit) (pc : RunPc) :
    EdgeSystem P :=
  { s with client := client, pc := pc }

/-- One round of the loop, up to the send. -/
def frame (s : EdgeSystem P) (f : FrameInput F) : Option (EdgeSystem P) :=
  if !f.captured && s.coordinator.config.sources = 1 then some { s with pc := .leaving }
  else match s.analyse f with
    | none => some s
    | some a =>
      match s.handedResult f with
      | none => some { s with coordinator := a.coordinator, pc := .tail }
      | some result =>
        (s.client.step (.streamDetection () result)).map fun client =>
          { s with coordinator := a.coordinator, client := client, pc := .sending }

/-- Where the pipeline thread is after a step inside of `StreamDetection`. -/
def sendingPc (client : ClientSystem P.codec Unit) : RunPc :=
  match client.threads () with
  | .idle => .tail
  | _ => .sending

def finish (s : EdgeSystem P) : EdgeSystem P :=
  let limit := s.coordinator.config.maxFrames
  { s with
    frameCount := s.frameCount + 1
    pc := if 0 < limit ∧ limit ≤ s.frameCount + 1 then .leaving else .top }

/-- A call on the client that is made only when the guard holds. -/
def callClient (s : EdgeSystem P) (guard : Bool) (act : ClientAct (DetectionResult F) Unit)
    (pc : RunPc) : Option (EdgeSystem P) :=
  if guard then (s.client.step act).map fun client => s.withClient client pc
  else some { s with pc := pc }

variable [OfNumeral F]

/-- The reader thread handles a command; an exception there ends the process. -/
def command (s : EdgeSystem P) (cmd : ControlCommand) (answer : EngineInit) : EdgeSystem P :=
  match s.coordinator.handleCommand cmd answer with
  | .ok c => { s with coordinator := c }
  | .error _ => { s with pc := .terminated }

/-- The reader thread is alive. -/
def reading (s : EdgeSystem P) : Bool :=
  s.client.client.eventStreamActive && s.pc != .terminated

def step (s : EdgeSystem P) : EdgeAct F → Option (EdgeSystem P)
  | .connect o =>
    if s.pc = .starting then
      s.callClient s.coordinator.config.grpcEnabled (.connect o) .starts
    else none
  | .startEventStream o =>
    if s.pc = .starts then s.callClient s.linkUp (.startEventStream o) .top else none
  | .frame f => if s.pc = .top ∧ s.coordinator.running then s.frame f else none
  | .client o =>
    if s.pc = .sending then
      (s.client.step (.run () o)).map fun client => s.withClient client (sendingPc client)
    else none
  | .finish => if s.pc = .tail then some s.finish else none
  | .leave =>
    if s.pc = .top ∧ ¬ s.coordinator.running then some { s with pc := .leaving } else none
  | .flushStream o =>
    if s.pc = .leaving then
      s.callClient s.coordinator.config.grpcEnabled (.flushStream o) .flushed
    else none
  | .stopEventStream =>
    if s.pc = .flushed then
      s.callClient s.coordinator.config.grpcEnabled .stopEventStream .stopped
    else none
  | .command cmd answer => if s.reading then some (s.command cmd answer) else none
  | .eventReaderEnds =>
    if s.reading then
      (s.client.step .eventReaderEnds).map fun client => s.withClient client s.pc
    else none
  | .stop => if s.pc = .terminated then none
    else some { s with coordinator := { s.coordinator with running := false } }

end EdgeSystem

/-- All runs of the pipeline from a successful `Initialize`. -/
def edgeSystem {F : Type} [CFloat F] [OfNumeral F] (P : Platform F) (config : PipelineConfig F) :
    TransitionSystem (EdgeSystem P) (EdgeAct F) where
  init s := ∃ engineAnswer modelAnswers now c,
    Coordinator.initializePipeline config engineAnswer modelAnswers now = .ok (some c) ∧
      s = EdgeSystem.new P c
  step := EdgeSystem.step

/-! ## What a step does -/

namespace EdgeSystem

variable {F : Type} [CFloat F] {P : Platform F}

/-- The result that a step has to report. -/
def reports (s : EdgeSystem P) : EdgeAct F → Option (DetectionResult F)
  | .frame f => s.novelResult f
  | _ => none

/-- The result that a step hands to the client. -/
def hands (s : EdgeSystem P) : EdgeAct F → Option (DetectionResult F)
  | .frame f => s.handedResult f
  | _ => none

/-- What the cache says about the detections of a step. -/
def verdicts (s : EdgeSystem P) : EdgeAct F → List (DetectionCache.Verdict F)
  | .frame f => ((s.analyse f).map Analysis.verdicts).getD []
  | _ => []

/-- The step that the client takes in a step of the whole. -/
def clientAct (s : EdgeSystem P) : EdgeAct F → Option (ClientAct (DetectionResult F) Unit)
  | .connect o => if s.coordinator.config.grpcEnabled then some (.connect o) else none
  | .startEventStream o => if s.linkUp then some (.startEventStream o) else none
  | .frame f => (s.handedResult f).map (.streamDetection ())
  | .client o => some (.run () o)
  | .flushStream o => if s.coordinator.config.grpcEnabled then some (.flushStream o) else none
  | .stopEventStream => if s.coordinator.config.grpcEnabled then some .stopEventStream else none
  | .eventReaderEnds => some .eventReaderEnds
  | .finish | .leave | .command _ _ | .stop => none

theorem callClient_client {s s' : EdgeSystem P} {guard : Bool}
    {act : ClientAct (DetectionResult F) Unit} {pc : RunPc}
    (h : s.callClient guard act pc = some s') :
    match if guard then some act else none with
    | some act => s.client.step act = some s'.client
    | none => s'.client = s.client := by
  unfold callClient at h
  split at h
  next hguard =>
    obtain ⟨client, hstep, rfl⟩ := Option.map_eq_some_iff.mp h
    simp only [hguard, if_true]
    exact hstep
  next hguard =>
    cases h
    simp [hguard]

theorem callClient_coordinator {s s' : EdgeSystem P} {guard : Bool}
    {act : ClientAct (DetectionResult F) Unit} {pc : RunPc}
    (h : s.callClient guard act pc = some s') :
    s'.coordinator = s.coordinator ∧ s'.frameCount = s.frameCount ∧ s'.pc = pc := by
  unfold callClient at h
  split at h
  · obtain ⟨client, -, rfl⟩ := Option.map_eq_some_iff.mp h
    exact ⟨rfl, rfl, rfl⟩
  · cases h
    exact ⟨rfl, rfl, rfl⟩

theorem novelResult_of_analyse_none {s : EdgeSystem P} {f : FrameInput F}
    (h : s.analyse f = none) : s.novelResult f = none := by
  simp [novelResult, h]

theorem handedResult_of_analyse_none {s : EdgeSystem P} {f : FrameInput F}
    (h : s.analyse f = none) : s.handedResult f = none := by
  simp [handedResult, novelResult_of_analyse_none h]

/-- The loop hands a result to the client only while it is connected. -/
theorem linkUp_of_handedResult {s : EdgeSystem P} {f : FrameInput F} {result : DetectionResult F}
    (h : s.handedResult f = some result) : s.linkUp = true := by
  unfold handedResult at h
  split at h
  next hup => exact hup
  next => cases h

/-- A result that is handed over is that of a frame whose analysis succeeds. -/
theorem handedResult_eq_some {s : EdgeSystem P} {f : FrameInput F} {result : DetectionResult F}
    (h : s.handedResult f = some result) :
    ∃ a, s.analyse f = some a ∧ result = s.coordinator.buildResult s.frameCount f
      (DetectionCache.novelDetections a.verdicts) a.trackIds := by
  have hnovel : s.novelResult f = some result := by
    unfold handedResult at h
    split at h
    · split at h
      · exact h
      · cases h
    · cases h
  unfold novelResult at hnovel
  split at hnovel
  next => cases hnovel
  next a hanalyse =>
    split at hnovel
    · cases hnovel
    · exact ⟨a, hanalyse, (Option.some.inj hnovel).symm⟩

/-- What a round of the loop does. -/
inductive FrameEffect (s s' : EdgeSystem P) (f : FrameInput F) : Prop where
  /-- the sources have ended, or the round is given up -/
  | nothing (hanalyse : s.analyse f = none) (hcoordinator : s'.coordinator = s.coordinator)
      (hclient : s'.client = s.client) (hpc : s'.pc = .top ∨ s'.pc = .leaving)
  /-- nothing is sent -/
  | quiet (a : Analysis F) (hanalyse : s.analyse f = some a) (hhanded : s.handedResult f = none)
      (hcoordinator : s'.coordinator = a.coordinator) (hclient : s'.client = s.client)
      (hpc : s'.pc = .tail)
  | hands (a : Analysis F) (result : DetectionResult F) (hanalyse : s.analyse f = some a)
      (hhanded : s.handedResult f = some result) (hcoordinator : s'.coordinator = a.coordinator)
      (hclient : s.client.step (.streamDetection () result) = some s'.client)
      (hpc : s'.pc = .sending)

theorem frame_effect {s s' : EdgeSystem P} {f : FrameInput F} (htop : s.pc = .top)
    (h : s.frame f = some s') : FrameEffect s s' f := by
  unfold frame at h
  split at h
  next hended =>
    cases h
    have hcaptured : f.captured = false := by
      simp only [Bool.and_eq_true, Bool.not_eq_true'] at hended
      exact hended.1
    have hnone : s.analyse f = none := by
      simp [analyse, Coordinator.analyse, hcaptured]
    exact .nothing hnone rfl rfl (.inr rfl)
  next =>
    split at h
    next hanalyse =>
      cases h
      exact .nothing hanalyse rfl rfl (.inl htop)
    next a hanalyse =>
      split at h
      next hhanded =>
        cases h
        exact .quiet a hanalyse hhanded rfl rfl rfl
      next result hhanded =>
        obtain ⟨client, hstep, rfl⟩ := Option.map_eq_some_iff.mp h
        exact .hands a result hanalyse hhanded rfl hstep rfl

variable [OfNumeral F]

/-- What a step is, with the place of the pipeline thread where it is taken. -/
inductive Moves (s : EdgeSystem P) : EdgeAct F → EdgeSystem P → Prop where
  | connect {o : Outcome} {s' : EdgeSystem P} (hpc : s.pc = .starting)
      (hcall : s.callClient s.coordinator.config.grpcEnabled (.connect o) .starts = some s') :
      Moves s (.connect o) s'
  | startEventStream {o : Outcome} {s' : EdgeSystem P} (hpc : s.pc = .starts)
      (hcall : s.callClient s.linkUp (.startEventStream o) .top = some s') :
      Moves s (.startEventStream o) s'
  | frame {f : FrameInput F} {s' : EdgeSystem P} (hpc : s.pc = .top)
      (hframe : s.frame f = some s') : Moves s (.frame f) s'
  | client {o : Outcome} {client : ClientSystem P.codec Unit} (hpc : s.pc = .sending)
      (hclient : s.client.step (.run () o) = some client) :
      Moves s (.client o) (s.withClient client (sendingPc client))
  | finish (hpc : s.pc = .tail) : Moves s .finish s.finish
  | leave (hpc : s.pc = .top) : Moves s .leave { s with pc := .leaving }
  | flushStream {o : Outcome} {s' : EdgeSystem P} (hpc : s.pc = .leaving)
      (hcall : s.callClient s.coordinator.config.grpcEnabled (.flushStream o) .flushed = some s') :
      Moves s (.flushStream o) s'
  | stopEventStream {s' : EdgeSystem P} (hpc : s.pc = .flushed)
      (hcall : s.callClient s.coordinator.config.grpcEnabled .stopEventStream .stopped = some s') :
      Moves s .stopEventStream s'
  -- the other threads
  | command {cmd : ControlCommand} {answer : EngineInit} (hreading : s.reading = true) :
      Moves s (.command cmd answer) (s.command cmd answer)
  | eventReaderEnds {client : ClientSystem P.codec Unit} (hreading : s.reading = true)
      (hclient : s.client.step .eventReaderEnds = some client) :
      Moves s .eventReaderEnds (s.withClient client s.pc)
  | stop : Moves s .stop { s with coordinator := { s.coordinator with running := false } }

theorem step_moves {s s' : EdgeSystem P} {l : EdgeAct F} (h : s.step l = some s') :
    s.Moves l s' := by
  cases l with
  | connect o =>
      obtain ⟨hpc, hcall⟩ := Option.ite_none_right_eq_some.mp h
      exact .connect hpc hcall
  | startEventStream o =>
      obtain ⟨hpc, hcall⟩ := Option.ite_none_right_eq_some.mp h
      exact .startEventStream hpc hcall
  | frame f =>
      obtain ⟨htop, hframe⟩ := Option.ite_none_right_eq_some.mp h
      exact .frame htop.1 hframe
  | client o =>
      obtain ⟨hpc, hrun⟩ := Option.ite_none_right_eq_some.mp h
      obtain ⟨client, hclient, rfl⟩ := Option.map_eq_some_iff.mp hrun
      exact .client hpc hclient
  | finish =>
      obtain ⟨hpc, ⟨⟩⟩ := Option.ite_none_right_eq_some.mp h
      exact .finish hpc
  | leave =>
      obtain ⟨hpc, ⟨⟩⟩ := Option.ite_none_right_eq_some.mp h
      exact .leave hpc.1
  | flushStream o =>
      obtain ⟨hpc, hcall⟩ := Option.ite_none_right_eq_some.mp h
      exact .flushStream hpc hcall
  | stopEventStream =>
      obtain ⟨hpc, hcall⟩ := Option.ite_none_right_eq_some.mp h
      exact .stopEventStream hpc hcall
  | command cmd answer =>
      obtain ⟨hreading, ⟨⟩⟩ := Option.ite_none_right_eq_some.mp h
      exact .command hreading
  | eventReaderEnds =>
      obtain ⟨hreading, hends⟩ := Option.ite_none_right_eq_some.mp h
      obtain ⟨client, hclient, rfl⟩ := Option.map_eq_some_iff.mp hends
      exact .eventReaderEnds hreading hclient
  | stop =>
      obtain ⟨-, ⟨⟩⟩ := Option.ite_none_left_eq_some.mp h
      exact .stop

theorem frame_of_step {s s' : EdgeSystem P} {f : FrameInput F} (h : s.step (.frame f) = some s') :
    s.pc = .top ∧ s.frame f = some s' := by
  cases step_moves h with
  | frame hpc hframe => exact ⟨hpc, hframe⟩

theorem command_client (s : EdgeSystem P) (cmd : ControlCommand) (answer : EngineInit) :
    (s.command cmd answer).client = s.client := by
  unfold command
  split <;> rfl

/-- Seen through the client, a run of the whole is a run of the client. -/
theorem step_client {s s' : EdgeSystem P} {l : EdgeAct F} (h : s.step l = some s') :
    match s.clientAct l with
    | some act => s.client.step act = some s'.client
    | none => s'.client = s.client := by
  cases step_moves h with
  | connect _ hcall | startEventStream _ hcall | flushStream _ hcall | stopEventStream _ hcall =>
      exact callClient_client hcall
  | frame hpc hframe =>
      cases frame_effect hpc hframe with
      | nothing hanalyse _ hclient =>
          simpa [clientAct, handedResult_of_analyse_none hanalyse] using hclient
      | quiet a _ hhanded _ hclient => simpa [clientAct, hhanded] using hclient
      | hands a result _ hhanded _ hclient => simpa [clientAct, hhanded] using hclient
  | client _ hclient | eventReaderEnds _ hclient => exact hclient
  | command => exact command_client s _ _
  | finish | leave | stop => rfl

/-- A step is none of the client's, or it is a step of the client. -/
theorem step_client_cases {s s' : EdgeSystem P} {l : EdgeAct F} (h : s.step l = some s') :
    (s.clientAct l = none ∧ s'.client = s.client) ∨
      ∃ act, s.clientAct l = some act ∧ s.client.step act = some s'.client := by
  have hstep := step_client h
  cases hact : s.clientAct l with
  | none =>
      rw [hact] at hstep
      exact .inl ⟨rfl, hstep⟩
  | some act =>
      rw [hact] at hstep
      exact .inr ⟨act, rfl, hstep⟩

theorem projects (P : Platform F) (config : PipelineConfig F) (clientConfig : GrpcClient.Config) :
    TransitionSystem.Projects (edgeSystem P config) (clientSystem P.codec Unit clientConfig)
      EdgeSystem.client EdgeSystem.clientAct := by
  intro s l s' h
  have hstep := step_client h
  cases hact : s.clientAct l with
  | none => rwa [hact] at hstep
  | some act => rwa [hact] at hstep

/-- What a step does to the components of the coordinator. -/
inductive CoordinatorEffect (s s' : EdgeSystem P) (l : EdgeAct F) : Prop where
  | analysed (f : FrameInput F) (a : Analysis F) (hlabel : l = .frame f)
      (hanalyse : s.analyse f = some a) (hcoordinator : s'.coordinator = a.coordinator)
  | commanded (hlabel : ∀ f, l ≠ .frame f)
      (hcoordinator : Coordinator.Commanded s.coordinator s'.coordinator)
  | same (hlabel : ∀ f, l = .frame f → s.analyse f = none)
      (hcoordinator : s'.coordinator = s.coordinator)

theorem step_coordinator {s s' : EdgeSystem P} {l : EdgeAct F} (h : s.step l = some s') :
    CoordinatorEffect s s' l := by
  cases step_moves h with
  | connect _ hcall | startEventStream _ hcall | flushStream _ hcall | stopEventStream _ hcall =>
      exact .same (fun _ hl => by cases hl) (callClient_coordinator hcall).1
  | @frame f _ hpc hframe =>
      cases frame_effect hpc hframe with
      | nothing hanalyse hcoordinator =>
          refine .same ?_ hcoordinator
          intro f' hf'
          cases hf'
          exact hanalyse
      | quiet a hanalyse _ hcoordinator => exact .analysed f a rfl hanalyse hcoordinator
      | hands a result hanalyse _ hcoordinator => exact .analysed f a rfl hanalyse hcoordinator
  | client | eventReaderEnds | finish | leave => exact .same (fun _ hl => by cases hl) rfl
  | command =>
      unfold command
      split
      next c hok =>
        exact .commanded (fun _ hl => by cases hl) (Coordinator.handleCommand_commanded hok)
      next => exact .same (fun _ hl => by cases hl) rfl
  | stop => exact .commanded (fun _ hl => by cases hl) ⟨⟨_, _, rfl⟩, rfl, rfl, rfl, rfl⟩

/-- Where the pipeline thread goes. -/
theorem step_pc {s s' : EdgeSystem P} {l : EdgeAct F} (h : s.step l = some s') :
    match l with
    | .connect _ => s.pc = .starting ∧ s'.pc = .starts
    | .startEventStream _ => s.pc = .starts ∧ s'.pc = .top
    | .frame _ => s.pc = .top ∧ (s'.pc = .top ∨ s'.pc = .leaving ∨ s'.pc = .tail ∨
        (s'.pc = .sending ∧ s.linkUp = true))
    | .client _ => s.pc = .sending ∧ (s'.pc = .sending ∨ s'.pc = .tail)
    | .finish => s.pc = .tail ∧ (s'.pc = .leaving ∨ s'.pc = .top)
    | .leave => s.pc = .top ∧ s'.pc = .leaving
    | .flushStream _ => s.pc = .leaving ∧ s'.pc = .flushed
    | .stopEventStream => s.pc = .flushed ∧ s'.pc = .stopped
    | .command _ _ => s.reading = true ∧ (s'.pc = s.pc ∨ s'.pc = .terminated)
    | .eventReaderEnds => s.reading = true ∧ s'.pc = s.pc
    | .stop => s'.pc = s.pc := by
  cases step_moves h with
  | connect hpc hcall | startEventStream hpc hcall | flushStream hpc hcall
  | stopEventStream hpc hcall =>
      exact ⟨hpc, (callClient_coordinator hcall).2.2⟩
  | frame hpc hframe =>
      refine ⟨hpc, ?_⟩
      cases frame_effect hpc hframe with
      | nothing _ _ _ hpc => exact hpc.elim .inl (.inr ∘ .inl)
      | quiet _ _ _ _ _ hpc => exact .inr (.inr (.inl hpc))
      | hands _ _ _ hhanded _ _ hpc =>
          exact .inr (.inr (.inr ⟨hpc, linkUp_of_handedResult hhanded⟩))
  | client hpc _ =>
      refine ⟨hpc, ?_⟩
      simp only [withClient, sendingPc]
      split
      · exact .inr rfl
      · exact .inl rfl
  | finish hpc =>
      refine ⟨hpc, ?_⟩
      simp only [finish]
      split
      · exact .inl rfl
      · exact .inr rfl
  | leave hpc => exact ⟨hpc, rfl⟩
  | command hreading =>
      refine ⟨hreading, ?_⟩
      unfold command
      split
      · exact .inl rfl
      · exact .inr rfl
  | eventReaderEnds hreading _ => exact ⟨hreading, rfl⟩
  | stop => rfl

/-- The configuration, but for the values that commands store, is that of the start. -/
theorem step_config {s s' : EdgeSystem P} {l : EdgeAct F} (h : s.step l = some s') :
    ∃ fps threshold, s'.coordinator.config =
      { s.coordinator.config with fps := fps, confidenceThreshold := threshold } := by
  cases step_coordinator h with
  | analysed f a _ hanalyse hcoordinator =>
      rw [hcoordinator, (Coordinator.analyse_eq_some hanalyse).1.config]
      exact ⟨_, _, rfl⟩
  | commanded _ hcoordinator => exact hcoordinator.config
  | same _ hcoordinator =>
      rw [hcoordinator]
      exact ⟨_, _, rfl⟩

end EdgeSystem

/-! ## A pipeline with one grid cell -/

/-- The platform of a pipeline that sends the given results only. -/
def Platform.small (results : List (DetectionResult Binary32)) : Platform Binary32 where
  codec := .table results
  math := { exp := fun _ => CFloat.const 1, pow := fun x _ => x * x }
  std := .insertion _

namespace EdgeSystem

/-- A model of 8 by 8 pixels has a single cell with three anchors. -/
def smallConfig : PipelineConfig Binary32 where
  modelWidth := 8
  modelHeight := 8
  grpcEnabled := true

/-- The output of that model for some objects that fill the picture, each given by
its anchor, class and score. -/
def smallOutputs (objects : List (Nat × Nat × ℚ)) : Tensors Binary32 :=
  [(List.range 255).map fun i => CFloat.const <|
    if objects.any fun object => i = object.1 * 85 + 4 then 1
    else if objects.any fun object => object.1 * 85 ≤ i ∧ i < object.1 * 85 + 4 then 1 / 2
    else ((objects.find? fun object => i = object.1 * 85 + 5 + object.2.1).map
      fun object => object.2.2).getD 0]

def smallFrame (objects : List (Nat × Nat × ℚ)) : FrameInput Binary32 where
  outputs := some (smallOutputs objects)

/-- The coordinator after a successful start with one model. -/
def smallCoordinator (config : PipelineConfig Binary32) : Coordinator Binary32 where
  config := config
  engine := ⟨config.modelPath, config.npuCoreMask, true⟩
  postprocessor := Coordinator.yoloConfig config
  modelMgr := none
  temporalTracker := if config.enableTemporalTracker then some (.new {}) else none
  detectionCache := .new config.dedupIouThreshold config.dedupTtl 0
  running := true

theorem init_small (P : Platform Binary32) (config : PipelineConfig Binary32)
    (h : config.enableMultiModel = false) :
    (edgeSystem P config).init (new P (smallCoordinator config)) := by
  refine ⟨.ready, fun _ => .ready, 0, smallCoordinator config, ?_, rfl⟩
  simp [Coordinator.initializePipeline, RknnEngine.initializeEngine, smallCoordinator, h]

end EdgeSystem
