-- SUMMARY: The video recorder: a ring of the last frames, and the count of frames that are left to record.
import Mathlib.Data.List.Basic

/-!
# Video recorder

Model of video_recorder.cpp. The recorder keeps the frames themselves and not copies
of their pictures.
-/

universe u

structure VideoRecorder.Config where
  /-- `pre_seconds * fps`, as the constructor converts it -/
  preFrames : Nat := 300
  /-- `post_seconds * fps`, as `TriggerRecording` converts it -/
  postFrames : Nat := 900

structure VideoRecorder (Frame : Type u) where
  config : VideoRecorder.Config
  maxBufferFrames : Nat
  ringBuffer : List Frame := []
  recording : Bool := false
  recordingsCompleted : Nat := 0
  postFramesRemaining : Nat := 0

namespace VideoRecorder

variable {Frame : Type u}

def new (config : Config) : VideoRecorder Frame where
  config := config
  maxBufferFrames := config.preFrames

/-- The frames that are left to record are counted down, and then the recording is complete. -/
def countDown (r : VideoRecorder Frame) : VideoRecorder Frame :=
  if r.recording then
    if 0 < r.postFramesRemaining then
      { r with postFramesRemaining := r.postFramesRemaining - 1 }
    else { r with recording := false, recordingsCompleted := r.recordingsCompleted + 1 }
  else r

def pushFrame (r : VideoRecorder Frame) (frame : Frame) : VideoRecorder Frame :=
  let r := r.countDown
  let frames := r.ringBuffer ++ [frame]
  { r with ringBuffer := frames.drop (frames.length - r.maxBufferFrames) }

def triggerRecording (r : VideoRecorder Frame) : VideoRecorder Frame :=
  if r.recording then r
  else { r with recording := true, postFramesRemaining := r.config.postFrames }

variable {r : VideoRecorder Frame} {frame x : Frame}

@[simp] theorem countDown_ringBuffer (r : VideoRecorder Frame) :
    r.countDown.ringBuffer = r.ringBuffer := by
  unfold countDown
  split
  · split <;> rfl
  · rfl

@[simp] theorem countDown_maxBufferFrames (r : VideoRecorder Frame) :
    r.countDown.maxBufferFrames = r.maxBufferFrames := by
  unfold countDown
  split
  · split <;> rfl
  · rfl

@[simp] theorem pushFrame_maxBufferFrames (r : VideoRecorder Frame) (frame : Frame) :
    (r.pushFrame frame).maxBufferFrames = r.maxBufferFrames :=
  r.countDown_maxBufferFrames

@[simp] theorem triggerRecording_ringBuffer (r : VideoRecorder Frame) :
    r.triggerRecording.ringBuffer = r.ringBuffer := by
  unfold triggerRecording
  split <;> rfl

@[simp] theorem triggerRecording_maxBufferFrames (r : VideoRecorder Frame) :
    r.triggerRecording.maxBufferFrames = r.maxBufferFrames := by
  unfold triggerRecording
  split <;> rfl

theorem pushFrame_ringBuffer (r : VideoRecorder Frame) (frame : Frame) :
    (r.pushFrame frame).ringBuffer =
      (r.ringBuffer ++ [frame]).drop ((r.ringBuffer ++ [frame]).length - r.maxBufferFrames) := by
  simp only [pushFrame, countDown_ringBuffer, countDown_maxBufferFrames]

theorem length_pushFrame_le (r : VideoRecorder Frame) (frame : Frame) :
    (r.pushFrame frame).ringBuffer.length ≤ (r.pushFrame frame).maxBufferFrames := by
  rw [pushFrame_maxBufferFrames, pushFrame_ringBuffer, List.length_drop]
  omega

/-- The ring holds nothing but what was pushed. -/
theorem mem_pushFrame (h : x ∈ (r.pushFrame frame).ringBuffer) : x ∈ r.ringBuffer ∨ x = frame := by
  rw [pushFrame_ringBuffer] at h
  simpa using List.mem_of_mem_drop h

/-- A ring with room for a frame holds the last one. -/
theorem mem_pushFrame_self (h : 0 < (r.pushFrame frame).maxBufferFrames) :
    frame ∈ (r.pushFrame frame).ringBuffer := by
  rw [pushFrame_maxBufferFrames] at h
  rw [pushFrame_ringBuffer, List.length_append, List.length_singleton,
    List.drop_append_of_le_length (by omega)]
  exact List.mem_append_right _ List.mem_cons_self

end VideoRecorder
