-- SUMMARY: Histories of the video recorder: what its ring holds, and how long a recording that was triggered lasts.
import NeuroPipeline.Edge.VideoRecorder
import NeuroPipeline.Lib.CNumber
import NeuroPipeline.Lib.Truncation
import NeuroPipeline.Lib.Window
import NeuroPipeline.Lib.TransitionSystem

/-!
# Histories of the video recorder

Frames and triggers in any order. The settings are in seconds; a product that is no value
of the integer type it is converted to leaves the call undefined, and no step models it.
-/

structure VideoRecorder.Settings (F : Type) [CFloat F] where
  preSeconds : F := CFloat.const 10
  postSeconds : F := CFloat.const 30
  fps : Nat := 30

namespace VideoRecorder

variable {F Frame : Type} [CFloat F] [HasValue F]

/-- `seconds * fps`, as a number. -/
def product (seconds : F) (fps : Nat) : Option ℚ := HasValue.value (seconds * CFloat.const fps)

/-- The same, converted to `size_t` or `uint64_t`. -/
def frameCount (seconds : F) (fps : Nat) : Option Nat :=
  (product seconds fps).bind (toUnsigned 64)

theorem eq_floor_of_frameCount {seconds : F} {fps n : Nat} (h : frameCount seconds fps = some n) :
    ∃ v, product seconds fps = some v ∧ n = ⌊v⌋₊ := by
  obtain ⟨v, hv, hconverted⟩ := Option.bind_eq_some_iff.mp h
  exact ⟨v, hv, eq_floor_of_toUnsigned hconverted⟩

inductive Call (Frame : Type) where
  | pushFrame (frame : Frame)
  | triggerRecording
  deriving DecidableEq

/-- The second conversion is that of a trigger, and there only of one that is accepted. -/
def system (Frame : Type) (settings : Settings F) :
    TransitionSystem (VideoRecorder Frame) (Call Frame) where
  init r := ∃ capacity, frameCount settings.preSeconds settings.fps = some capacity ∧
    r = .new ⟨capacity, (frameCount settings.postSeconds settings.fps).getD 0⟩
  step r
    | .pushFrame frame => some (r.pushFrame frame)
    | .triggerRecording =>
      if r.recording then some r.triggerRecording
      else (frameCount settings.postSeconds settings.fps).map fun _ => r.triggerRecording

/-- The frames pushed so far. -/
def pushed (t : List (VideoRecorder Frame × Call Frame)) : List Frame :=
  t.filterMap fun p => match p.2 with
    | .pushFrame frame => some frame
    | .triggerRecording => none

/-- The triggers that started a recording. -/
def accepted (t : List (VideoRecorder Frame × Call Frame)) : Nat :=
  t.countP fun p => match p.2 with
    | .pushFrame _ => false
    | .triggerRecording => !p.1.recording

variable {settings : Settings F} {r r' s s' s₁ s₂ : VideoRecorder Frame}
  {t t₁ t₂ : List (VideoRecorder Frame × Call Frame)} {frame : Frame} {capacity : Nat}

@[simp] theorem pushed_push : pushed (t ++ [(s, .pushFrame frame)]) = pushed t ++ [frame] := by
  simp [pushed]

@[simp] theorem pushed_trigger : pushed (t ++ [(s, .triggerRecording)]) = pushed t := by
  simp [pushed]

@[simp] theorem accepted_push : accepted (t ++ [(s, .pushFrame frame)]) = accepted t := by
  simp [accepted]

@[simp] theorem accepted_trigger : accepted (t ++ [(s, .triggerRecording)]) =
    accepted t + if s.recording then 0 else 1 := by
  cases hrecording : s.recording <;> simp [accepted, List.countP_append, hrecording]

/-! ## Steps -/

theorem step_push_iff :
    (system Frame settings).step s (.pushFrame frame) = some s' ↔ s' = s.pushFrame frame :=
  ⟨fun h => (Option.some.inj h).symm, fun h => h ▸ rfl⟩

/-- A trigger is ignored, or it starts a recording of as many frames as the settings say. -/
theorem step_trigger (h : (system Frame settings).step s .triggerRecording = some s') :
    s' = s.triggerRecording ∧ (s.recording = false →
      ∃ n, frameCount settings.postSeconds settings.fps = some n) := by
  simp only [system] at h
  split at h
  · next hrecording =>
    exact ⟨(Option.some.inj h).symm, fun hnot => absurd (hrecording.symm.trans hnot) (by decide)⟩
  · obtain ⟨n, hn, rfl⟩ := Option.map_eq_some_iff.mp h
    exact ⟨rfl, fun _ => ⟨n, hn⟩⟩

theorem countDown_of_idle (h : r.recording = false) : r.countDown = r := by
  simp [countDown, h]

theorem countDown_of_recording (h : r.recording = true) (hleft : 0 < r.postFramesRemaining) :
    r.countDown = { r with postFramesRemaining := r.postFramesRemaining - 1 } := by
  simp [countDown, h, hleft]

theorem countDown_of_last (h : r.recording = true) (hleft : r.postFramesRemaining = 0) :
    r.countDown =
      { r with recording := false, recordingsCompleted := r.recordingsCompleted + 1 } := by
  simp [countDown, h, hleft]

/-- A recording is counted when it is complete, and not before. -/
theorem countDown_count (r : VideoRecorder Frame) :
    (r.countDown.recordingsCompleted + if r.countDown.recording then 1 else 0) =
      r.recordingsCompleted + if r.recording then 1 else 0 := by
  cases hrecording : r.recording with
  | false => rw [countDown_of_idle hrecording, hrecording]
  | true =>
      rcases Nat.eq_zero_or_pos r.postFramesRemaining with hleft | hleft
      · simp [countDown_of_last hrecording hleft]
      · simp [countDown_of_recording hrecording hleft, hrecording]

theorem triggerRecording_count (r : VideoRecorder Frame) :
    (r.triggerRecording.recordingsCompleted + if r.triggerRecording.recording then 1 else 0) =
      (r.recordingsCompleted + if r.recording then 1 else 0) + if r.recording then 0 else 1 := by
  cases hrecording : r.recording <;> simp [triggerRecording, hrecording]

/-! ## Invariants -/

/-- What the steps so far determine. -/
structure Recorded (capacity : Nat) (settings : Settings F)
    (t : List (VideoRecorder Frame × Call Frame)) (s : VideoRecorder Frame) : Prop where
  limit : s.maxBufferFrames = capacity
  length : s.config.postFrames = (frameCount settings.postSeconds settings.fps).getD 0
  ring : s.ringBuffer = (pushed t).rtake capacity
  count : accepted t = s.recordingsCompleted + if s.recording then 1 else 0

@[simp] theorem countDown_config (r : VideoRecorder Frame) : r.countDown.config = r.config := by
  unfold countDown
  split
  · split <;> rfl
  · rfl

@[simp] theorem triggerRecording_config (r : VideoRecorder Frame) :
    r.triggerRecording.config = r.config := by
  unfold triggerRecording
  split <;> rfl

theorem Recorded.push (h : Recorded capacity settings t s) (frame : Frame) :
    Recorded capacity settings (t ++ [(s, .pushFrame frame)]) (s.pushFrame frame) where
  limit := by rw [pushFrame_maxBufferFrames, h.limit]
  length := by rw [← h.length]; exact congrArg Config.postFrames s.countDown_config
  ring := by
    rw [pushed_push, pushFrame_ringBuffer, h.limit, h.ring, ← List.rtake_rtake_concat]
    rfl
  count := by
    rw [accepted_push, h.count, ← s.countDown_count]
    rfl

theorem Recorded.trigger (h : Recorded capacity settings t s) :
    Recorded capacity settings (t ++ [(s, .triggerRecording)]) s.triggerRecording where
  limit := by rw [triggerRecording_maxBufferFrames, h.limit]
  length := by rw [triggerRecording_config, h.length]
  ring := by rw [pushed_trigger, triggerRecording_ringBuffer, h.ring]
  count := by rw [accepted_trigger, triggerRecording_count, h.count]

theorem Recorded.step {l : Call Frame} (h : Recorded capacity settings t s)
    (hs : (system Frame settings).step s l = some s') :
    Recorded capacity settings (t ++ [(s, l)]) s' := by
  cases l with
  | pushFrame frame =>
      rw [step_push_iff.mp hs]
      exact h.push frame
  | triggerRecording =>
      rw [(step_trigger hs).1]
      exact h.trigger

theorem recorded (h₀ : (system Frame settings).init r)
    (hrun : (system Frame settings).Run r t s) :
    ∃ capacity, frameCount settings.preSeconds settings.fps = some capacity ∧
      Recorded capacity settings t s := by
  obtain ⟨capacity, hcapacity, rfl⟩ := h₀
  refine ⟨capacity, hcapacity, hrun.invariant_history (fun _ _ _ _ h hs => h.step hs) ?_⟩
  exact ⟨rfl, rfl, (List.rtake_nil capacity).symm, rfl⟩

/-! ## A recording -/

/-- Since a trigger was accepted with `completed` recordings behind it, no more frames
were pushed than the recording has. -/
def Continues (completed n : Nat) (t : List (VideoRecorder Frame × Call Frame))
    (s : VideoRecorder Frame) : Prop :=
  (pushed t).length ≤ n → s.recording = true ∧ s.recordingsCompleted = completed ∧
    s.postFramesRemaining + (pushed t).length = n

theorem Continues.step {l : Call Frame} {completed n : Nat} (h : Continues completed n t s)
    (hs : (system Frame settings).step s l = some s') :
    Continues completed n (t ++ [(s, l)]) s' := by
  cases l with
  | triggerRecording =>
      intro hle
      rw [pushed_trigger] at hle ⊢
      obtain ⟨hrecording, hcompleted, hleft⟩ := h hle
      -- a trigger during the recording is ignored
      have hsame : s.triggerRecording = s := if_pos hrecording
      rw [(step_trigger hs).1, hsame]
      exact ⟨hrecording, hcompleted, hleft⟩
  | pushFrame frame =>
      intro hle
      rw [pushed_push, List.length_append, List.length_singleton] at hle ⊢
      obtain ⟨hrecording, hcompleted, hleft⟩ := h (by omega)
      have hdown := countDown_of_recording hrecording (by omega)
      rw [step_push_iff.mp hs, pushFrame, hdown]
      exact ⟨hrecording, hcompleted, by simp only; omega⟩

theorem continues_of_trigger {n : Nat} (hidle : s₁.recording = false)
    (hn : s₁.config.postFrames = n)
    (hrun : (system Frame settings).Run s₁.triggerRecording t s) :
    Continues s₁.recordingsCompleted n t s := by
  refine hrun.invariant_history (fun _ _ _ _ h hs => h.step hs) fun _ => ?_
  simp [triggerRecording, hidle, hn, pushed]

/-- The push after the last frame completes the recording. -/
theorem Continues.complete {completed n : Nat} (h : Continues completed n t s)
    (hlen : (pushed t).length = n) (frame : Frame) :
    (s.pushFrame frame).recording = false ∧
      (s.pushFrame frame).recordingsCompleted = completed + 1 := by
  obtain ⟨hrecording, hcompleted, hleft⟩ := h hlen.le
  rw [pushFrame, countDown_of_last hrecording (by omega), hcompleted]
  exact ⟨rfl, rfl⟩

/-! ## Every history -/

/-- What a history of calls, and the recorder after it, are like. -/
structure Protocol (settings : Settings F) (t : List (VideoRecorder Frame × Call Frame))
    (s : VideoRecorder Frame) : Prop where
  ring : ∃ v, product settings.preSeconds settings.fps = some v ∧
    s.ringBuffer = (pushed t).rtake ⌊v⌋₊
  count : accepted t = s.recordingsCompleted + if s.recording then 1 else 0
  spans : ∀ t₁ s₁ t₂, t = t₁ ++ (s₁, .triggerRecording) :: t₂ → s₁.recording = false →
    ∃ v, product settings.postSeconds settings.fps = some v ∧
      ((pushed t₂).length ≤ ⌊v⌋₊ →
        s.recording = true ∧ s.recordingsCompleted = s₁.recordingsCompleted) ∧
      ∀ t₃ s₃ frame, t₂ = t₃ ++ [(s₃, .pushFrame frame)] → (pushed t₃).length = ⌊v⌋₊ →
        s.recording = false ∧ s.recordingsCompleted = s₁.recordingsCompleted + 1

end VideoRecorder
