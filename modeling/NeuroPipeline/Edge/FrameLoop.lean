-- SUMMARY: The processing loop together with the frames it captures, hands on, records and releases.
import NeuroPipeline.Edge.InputSource
import NeuroPipeline.Edge.MultiCamera
import NeuroPipeline.Edge.VideoRecorder

/-!
# The frames of the loop

Model of what `PipelineCoordinator::Impl::Run` does with a frame, over the model of the
loop. Whether a round of the loop has a frame is what its input source answers.
-/

/-- A captured frame; its number tells it apart from every other. -/
structure Frame where
  source : Nat
  serial : Nat
  buffer : FrameBuffer
  deriving DecidableEq

namespace Frame

/-- The driver may write to the buffer once it has been released. -/
def driverOwned (fr : Frame) : Bool :=
  match fr.buffer with
  | .v4l2Mmap _ => true
  | .dma | .mppFrame _ => false

/-- What the decoder gave. -/
def decoded (fr : Frame) : Option MppFrame :=
  match fr.buffer with
  | .mppFrame frame => some frame
  | .v4l2Mmap _ | .dma => none

end Frame

namespace Coordinator

/-- There is an engine to hand a frame to. -/
def runsModel {F : Type} [CFloat F] (c : Coordinator F) : Bool :=
  match c.modelMgr with
  | some mgr => mgr.getActiveModel.isSome
  | none => true

end Coordinator

/-- The loop, its sources and its recorder, with the logs of what became of the frames. -/
structure FrameSystem {F : Type} [CFloat F] (P : Platform F) where
  loop : EdgeSystem P
  sources : Nat → InputSource
  videoRecorder : Option (VideoRecorder Frame)
  activeCamIdx : Nat := 0
  /-- the frame of the round, until it is released -/
  frame : Option Frame := none
  captured : List Frame := []
  /-- the calls of `ReleaseFrame`, with the source that is called -/
  released : List (Nat × Frame) := []
  /-- the frames handed to inference -/
  handed : List Frame := []
  /-- the loop has left because the stream ended -/
  streamEnded : Bool := false

/-- A step of the loop, and the buffer that a camera's driver has filled. -/
structure FrameAct (F : Type) where
  act : EdgeAct F
  dequeued : Option Nat := none

namespace FrameSystem

variable {F : Type} [CFloat F] {P : Platform F}

def new (loop : EdgeSystem P) (sources : Nat → InputSource)
    (recording : Option VideoRecorder.Config) : FrameSystem P where
  loop := loop
  sources := sources
  videoRecorder := recording.map .new

/-! ## One round -/

/-- `sources_[active_cam_idx]->CaptureFrame()` -/
def captureFrame (s : FrameSystem P) (dequeued : Option Nat) : FrameSystem P :=
  let idx := EdgeSystem.camera s.loop.coordinator.config.sources s.loop.frameCount
  let (buffer, source) := (s.sources idx).captureFrame dequeued
  let frame := buffer.map fun b => ⟨idx, s.captured.length, b⟩
  { s with
    sources := Function.update s.sources idx source
    activeCamIdx := idx
    frame := frame
    captured := s.captured ++ frame.toList }

/-- `sources_[active_cam_idx]->ReleaseFrame(frame)` -/
def releaseFrame (s : FrameSystem P) (frame : Frame) : FrameSystem P :=
  { s with
    sources := Function.update s.sources s.activeCamIdx
      ((s.sources s.activeCamIdx).releaseFrame frame.buffer)
    frame := none
    released := s.released ++ [(s.activeCamIdx, frame)] }

/-- The recorder is given every frame, and is triggered by a novel detection. -/
def record (s : FrameSystem P) (frame : Frame) (novel : Bool) : FrameSystem P :=
  { s with
    videoRecorder := s.videoRecorder.map fun r =>
      if novel then (r.pushFrame frame).triggerRecording else r.pushFrame frame }

/-- The frame goes to the engine once it is converted. -/
def handOver (s : FrameSystem P) (frame : Frame) (f : FrameInput F) : FrameSystem P :=
  if f.processed && s.loop.coordinator.runsModel then { s with handed := s.handed ++ [frame] }
  else s

/-- The only source has no frame: the stream has ended. -/
def endStream (s : FrameSystem P) : FrameSystem P :=
  { s with streamEnded := s.loop.coordinator.config.sources = 1 }

/-- What becomes of the frame, up to the send of its detections. -/
def process (s : FrameSystem P) (f : FrameInput F) : FrameSystem P :=
  match s.frame with
  | none => s.endStream
  | some frame =>
    match s.loop.analyse f with
    | none => (s.handOver frame f).releaseFrame frame
    | some a =>
      (s.handOver frame f).record frame !(DetectionCache.novelDetections a.verdicts).isEmpty

/-- What the loop is given: it has a frame if the source has one. -/
def input (s : FrameSystem P) (f : FrameInput F) : FrameInput F :=
  { f with captured := s.frame.isSome }

def releaseHeld (s : FrameSystem P) : FrameSystem P :=
  match s.frame with
  | none => s
  | some frame => s.releaseFrame frame

def withLoop (s : FrameSystem P) (loop : EdgeSystem P) : FrameSystem P := { s with loop := loop }

variable [OfNumeral F]

def step (s : FrameSystem P) (l : FrameAct F) : Option (FrameSystem P) :=
  match l.act with
  | .frame f =>
    let s := s.captureFrame l.dequeued
    (s.loop.step (.frame (s.input f))).map (s.process (s.input f)).withLoop
  | .finish => (s.loop.step .finish).map s.releaseHeld.withLoop
  | act => (s.loop.step act).map s.withLoop

end FrameSystem

/-- All runs of the pipeline on some sources, with or without a recorder. -/
def frameSystem {F : Type} [CFloat F] [OfNumeral F] (P : Platform F) (config : PipelineConfig F)
    (sources : Nat → InputSource) (recording : Option VideoRecorder.Config) :
    TransitionSystem (FrameSystem P) (FrameAct F) where
  init s := ∃ loop, (edgeSystem P config).init loop ∧ s = .new loop sources recording
  step := FrameSystem.step

namespace FrameSystem

variable {F : Type} [CFloat F] {P : Platform F}

/-! ## What the operations leave alone -/

@[simp] theorem captureFrame_loop (s : FrameSystem P) (dequeued : Option Nat) :
    (s.captureFrame dequeued).loop = s.loop := rfl

@[simp] theorem captureFrame_videoRecorder (s : FrameSystem P) (dequeued : Option Nat) :
    (s.captureFrame dequeued).videoRecorder = s.videoRecorder := rfl

@[simp] theorem captureFrame_released (s : FrameSystem P) (dequeued : Option Nat) :
    (s.captureFrame dequeued).released = s.released := rfl

@[simp] theorem captureFrame_handed (s : FrameSystem P) (dequeued : Option Nat) :
    (s.captureFrame dequeued).handed = s.handed := rfl

theorem captureFrame_captured (s : FrameSystem P) (dequeued : Option Nat) :
    (s.captureFrame dequeued).captured =
      s.captured ++ (s.captureFrame dequeued).frame.toList := rfl

theorem captureFrame_frame {s : FrameSystem P} {dequeued : Option Nat} {frame : Frame}
    (h : (s.captureFrame dequeued).frame = some frame) :
    frame.source = (s.captureFrame dequeued).activeCamIdx ∧ frame.serial = s.captured.length := by
  simp only [captureFrame, Option.map_eq_some_iff] at h
  obtain ⟨buffer, -, rfl⟩ := h
  exact ⟨rfl, rfl⟩

/-- A hand-over logs the frame and does nothing else. -/
theorem handOver_eq (s : FrameSystem P) (frame : Frame) (f : FrameInput F) :
    ∃ handed, s.handOver frame f = { s with handed := handed } := by
  unfold handOver
  split <;> exact ⟨_, rfl⟩

/-- What the frames of a round come to. -/
inductive RoundEffect (s s' : FrameSystem P) (dequeued : Option Nat) (f : FrameInput F) : Prop where
  /-- the source has no frame -/
  | ended (hframe : (s.captureFrame dequeued).frame = none)
      (hanalyse : s.loop.analyse ((s.captureFrame dequeued).input f) = none)
      (hs' : s' = (s.captureFrame dequeued).endStream.withLoop s'.loop)
  /-- the frame is released at once -/
  | dropped (frame : Frame) (hframe : (s.captureFrame dequeued).frame = some frame)
      (hanalyse : s.loop.analyse ((s.captureFrame dequeued).input f) = none)
      (hs' : s' = (((s.captureFrame dequeued).handOver frame
        ((s.captureFrame dequeued).input f)).releaseFrame frame).withLoop s'.loop)
  /-- the frame is recorded, and released at the end of the round -/
  | kept (frame : Frame) (a : Analysis F)
      (hframe : (s.captureFrame dequeued).frame = some frame)
      (hanalyse : s.loop.analyse ((s.captureFrame dequeued).input f) = some a)
      (hs' : s' = (((s.captureFrame dequeued).handOver frame
        ((s.captureFrame dequeued).input f)).record frame
          !(DetectionCache.novelDetections a.verdicts).isEmpty).withLoop s'.loop)

variable [OfNumeral F]

/-- The step of the loop in a step of the whole. -/
def loopAct (s : FrameSystem P) (l : FrameAct F) : EdgeAct F :=
  match l.act with
  | .frame f => .frame ((s.captureFrame l.dequeued).input f)
  | act => act

theorem step_loop {s s' : FrameSystem P} {l : FrameAct F} (h : s.step l = some s') :
    s.loop.step (s.loopAct l) = some s'.loop := by
  obtain ⟨act, dequeued⟩ := l
  cases act with
  | _ =>
      obtain ⟨loop, hstep, rfl⟩ := Option.map_eq_some_iff.mp h
      exact hstep

/-- Without its frames, a run is one of the loop. -/
theorem projects (P : Platform F) (config : PipelineConfig F) (sources : Nat → InputSource)
    (recording : Option VideoRecorder.Config) :
    TransitionSystem.Projects (frameSystem P config sources recording) (edgeSystem P config)
      FrameSystem.loop fun s l => some (s.loopAct l) := by
  intro s l s' h
  exact step_loop h

/-- What a step does with the frames. -/
inductive FrameEffect (s s' : FrameSystem P) (l : FrameAct F) : Prop where
  | round (f : FrameInput F) (hact : l.act = .frame f) (hround : RoundEffect s s' l.dequeued f)
  | finished (hact : l.act = .finish) (hs' : s' = s.releaseHeld.withLoop s'.loop)
  | other (hframe : ∀ f, l.act ≠ .frame f) (hfinish : l.act ≠ .finish)
      (hs' : s' = s.withLoop s'.loop)

theorem step_effect {s s' : FrameSystem P} {l : FrameAct F} (h : s.step l = some s') :
    FrameEffect s s' l := by
  unfold step at h
  cases hact : l.act with
  | frame f =>
      rw [hact] at h
      obtain ⟨loop, hstep, rfl⟩ := Option.map_eq_some_iff.mp h
      refine .round f hact ?_
      cases hframe : (s.captureFrame l.dequeued).frame with
      | none =>
          refine .ended hframe ?_ ?_
          · simp [EdgeSystem.analyse, Coordinator.analyse, input, hframe]
          · simp only [process, hframe]
            rfl
      | some frame =>
          cases hanalyse : s.loop.analyse ((s.captureFrame l.dequeued).input f) with
          | none =>
              refine .dropped frame hframe hanalyse ?_
              simp only [process, hframe, captureFrame_loop, hanalyse]
              rfl
          | some a =>
              refine .kept frame a hframe hanalyse ?_
              simp only [process, hframe, captureFrame_loop, hanalyse]
              rfl
  | finish =>
      rw [hact] at h
      obtain ⟨loop, hstep, rfl⟩ := Option.map_eq_some_iff.mp h
      exact .finished hact rfl
  | _ =>
      rw [hact] at h
      obtain ⟨loop, hstep, rfl⟩ := Option.map_eq_some_iff.mp h
      exact .other (by rintro _ h; rw [h] at hact; cases hact) (by rw [hact]; rintro ⟨⟩) rfl

end FrameSystem
