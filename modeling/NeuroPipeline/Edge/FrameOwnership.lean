-- SUMMARY: Who has a frame: each is released once, and when the recorder keeps none that the driver has back.
import NeuroPipeline.Edge.FrameLoop

/-!
# Frame ownership

A frame is the loop's from its capture to its release, at one of the early exits of the
round or at its end. The recorder keeps frames for many rounds; those of a camera live
in memory that the driver has back by then.
-/

open EdgeSystem (smallConfig smallCoordinator smallFrame)

namespace FrameSystem

variable {F : Type} [CFloat F] {P : Platform F}

/-! ## The law -/

/-- The frames that the recorder holds. -/
def ring (s : FrameSystem P) : List Frame := s.videoRecorder.elim [] VideoRecorder.ringBuffer

/-- The recorder holds no frame that has been released to a driver. -/
def NotHeld (s : FrameSystem P) : Prop :=
  ∀ fr ∈ s.ring, fr.driverOwned = true → fr ∉ s.released.map Prod.snd

/-- Inside of a round, or stopped in one by an exception in the reader thread. -/
def inRound (s : FrameSystem P) : Bool :=
  s.loop.pc = .sending || s.loop.pc = .tail || s.loop.pc = .terminated

/-- Each captured frame, but for that of the round, has been released exactly once and to
the source it is from; the recorder holds none that the driver may write to. -/
structure Owned (s : FrameSystem P) : Prop where
  once : s.captured = s.released.map Prod.snd ++ s.frame.toList
  distinct : s.captured.Nodup
  toItsSource : ∀ r ∈ s.released, r.1 = r.2.source
  roundOver : s.inRound = false → s.frame = none
  notHeld : s.NotHeld

/-- No round with a camera's frame comes to its end while a recorder has room for frames. -/
def SparesBuffers (s : FrameSystem P) (l : FrameAct F) : Prop :=
  l.act = .finish → ∀ fr ∈ s.frame, fr.driverOwned = true →
    ∀ r ∈ s.videoRecorder, r.maxBufferFrames = 0

/-! ## The frame of the round -/

/-- What holds whether or not the recorder keeps frames. -/
structure Holding (s : FrameSystem P) : Prop where
  once : s.captured = s.released.map Prod.snd ++ s.frame.toList
  serials : s.captured.map Frame.serial = List.range s.captured.length
  toItsSource : ∀ r ∈ s.released, r.1 = r.2.source
  itsSource : ∀ fr ∈ s.frame, s.activeCamIdx = fr.source
  roundOver : s.inRound = false → s.frame = none
  ringCaptured : ∀ fr ∈ s.ring, fr ∈ s.captured
  ringRoom : ∀ r ∈ s.videoRecorder, r.ringBuffer.length ≤ r.maxBufferFrames
  ringLast : ∀ fr ∈ s.frame, ∀ r ∈ s.videoRecorder, 0 < r.maxBufferFrames → fr ∈ r.ringBuffer

variable {s s' : FrameSystem P} {fr : Frame} {dequeued : Option Nat} {f : FrameInput F}

theorem Holding.distinct (h : Holding s) : s.captured.Nodup := by
  apply List.Nodup.of_map Frame.serial
  rw [h.serials]
  exact List.nodup_range

theorem owned_iff_notHeld (h : Holding s) : s.Owned ↔ s.NotHeld :=
  ⟨Owned.notHeld, fun hring => ⟨h.once, h.distinct, h.toItsSource, h.roundOver, hring⟩⟩

/-- A frame that is just captured is none of those before it. -/
theorem Holding.fresh (h : Holding s) (hframe : (s.captureFrame dequeued).frame = some fr) :
    fr ∉ s.captured := by
  intro hmem
  have hserial : fr.serial ∈ s.captured.map Frame.serial := List.mem_map_of_mem hmem
  rw [h.serials, (captureFrame_frame hframe).2, List.mem_range] at hserial
  exact Nat.lt_irrefl _ hserial

theorem Holding.serials_snoc (h : Holding s)
    (hframe : (s.captureFrame dequeued).frame = some fr) :
    (s.captured ++ [fr]).map Frame.serial = List.range (s.captured ++ [fr]).length := by
  rw [List.map_append, h.serials, List.length_append, List.length_singleton, List.range_succ,
    List.map_singleton, (captureFrame_frame hframe).2]

theorem Holding.released_captured (h : Holding s) : ∀ fr ∈ s.released.map Prod.snd,
    fr ∈ s.captured := by
  intro fr hfr
  rw [h.once]
  exact List.mem_append_left _ hfr

/-! ## The recorder -/

theorem ring_record (s : FrameSystem P) (fr : Frame) (novel : Bool) :
    (s.record fr novel).ring = s.videoRecorder.elim [] fun r => (r.pushFrame fr).ringBuffer := by
  unfold ring record
  cases s.videoRecorder with
  | none => rfl
  | some r => cases novel <;> simp

theorem mem_ring_record {novel : Bool} {x : Frame} (h : x ∈ (s.record fr novel).ring) :
    x ∈ s.ring ∨ x = fr := by
  rw [ring_record] at h
  unfold ring
  cases hr : s.videoRecorder with
  | none =>
      rw [hr] at h
      cases h
  | some r =>
      rw [hr] at h
      exact VideoRecorder.mem_pushFrame h

theorem record_videoRecorder {novel : Bool} {r : VideoRecorder Frame}
    (h : r ∈ (s.record fr novel).videoRecorder) :
    r.ringBuffer.length ≤ r.maxBufferFrames ∧ (0 < r.maxBufferFrames → fr ∈ r.ringBuffer) := by
  obtain ⟨before, -, rfl⟩ := Option.map_eq_some_iff.mp h
  cases novel with
  | false => exact ⟨before.length_pushFrame_le fr, VideoRecorder.mem_pushFrame_self⟩
  | true =>
      simp only [if_true, VideoRecorder.triggerRecording_ringBuffer,
        VideoRecorder.triggerRecording_maxBufferFrames]
      exact ⟨before.length_pushFrame_le fr, VideoRecorder.mem_pushFrame_self⟩

/-- With the frame of the round in hand, the recorder holds it exactly when it has room. -/
theorem Holding.mem_ring_iff (h : Holding s) (hframe : s.frame = some fr) :
    fr ∈ s.ring ↔ ∃ r ∈ s.videoRecorder, r.maxBufferFrames ≠ 0 := by
  constructor
  · intro hring
    unfold ring at hring
    cases hr : s.videoRecorder with
    | none =>
        rw [hr] at hring
        cases hring
    | some r =>
        rw [hr] at hring
        have hle := h.ringRoom r hr
        have hpos : 0 < r.ringBuffer.length := List.length_pos_of_mem hring
        exact ⟨r, rfl, by omega⟩
  · rintro ⟨r, hr, hroom⟩
    rw [ring, hr]
    exact h.ringLast fr hframe r hr (Nat.pos_of_ne_zero hroom)

/-! ## One step -/

theorem releaseHeld_of_some (h : s.frame = some fr) : s.releaseHeld = s.releaseFrame fr := by
  rw [releaseHeld, h]

theorem releaseHeld_of_none (h : s.frame = none) : s.releaseHeld = s := by
  rw [releaseHeld, h]

variable [OfNumeral F] {l : FrameAct F}

omit [OfNumeral F] in
theorem inRound_eq_false : s.inRound = false ↔
    s.loop.pc ≠ .sending ∧ s.loop.pc ≠ .tail ∧ s.loop.pc ≠ .terminated := by
  simp [inRound, and_assoc]

/-- A step that is neither a round nor its end does not leave a round. -/
theorem inRound_of_other (hframe : ∀ f, l.act ≠ .frame f) (hfinish : l.act ≠ .finish)
    (h : s.step l = some s') (hout : s'.inRound = false) : s.inRound = false := by
  have hpc := EdgeSystem.step_pc (step_loop h)
  rw [inRound_eq_false] at hout ⊢
  obtain ⟨act, dequeued⟩ := l
  cases act with
  | frame f => exact absurd rfl (hframe f)
  | finish => exact absurd rfl hfinish
  | connect o | startEventStream o | flushStream o | stopEventStream | leave =>
      have hpc : s.loop.pc = _ := hpc.1
      simp [hpc]
  | client o =>
      rcases hpc.2 with hpc | hpc
      · exact absurd hpc hout.1
      · exact absurd hpc hout.2.1
  | command cmd answer =>
      rcases hpc.2 with hpc | hpc
      · rwa [← hpc]
      · exact absurd hpc hout.2.2
  | eventReaderEnds =>
      rw [← hpc.2]
      exact hout
  | stop =>
      rw [← show s'.loop.pc = s.loop.pc from hpc]
      exact hout

/-- A round whose frame is kept goes on. -/
theorem inRound_of_kept {f : FrameInput F} {a : Analysis F} (hact : l.act = .frame f)
    (hanalyse : s.loop.analyse ((s.captureFrame l.dequeued).input f) = some a)
    (h : s.step l = some s') : s'.inRound = true := by
  have hstep := step_loop h
  rw [loopAct, hact] at hstep
  obtain ⟨htop, hframe⟩ := EdgeSystem.frame_of_step hstep
  cases EdgeSystem.frame_effect htop hframe with
  | nothing hnone =>
      rw [hanalyse] at hnone
      cases hnone
  | quiet _ _ _ _ _ hpc => simp [inRound, hpc]
  | hands _ _ _ _ _ _ hpc => simp [inRound, hpc]

omit [OfNumeral F] in
/-- Nothing but the frame of the round has changed hands. -/
theorem Holding.congr (h : Holding s) (hcaptured : s'.captured = s.captured)
    (hreleased : s'.released = s.released) (hrecorder : s'.videoRecorder = s.videoRecorder)
    (hcam : s'.frame = s.frame) (hsource : ∀ fr ∈ s'.frame, s'.activeCamIdx = fr.source)
    (hround : s'.inRound = false → s'.frame = none) : Holding s' where
  once := by rw [hcaptured, hreleased, hcam, h.once]
  serials := by rw [hcaptured, h.serials]
  toItsSource := by rw [hreleased]; exact h.toItsSource
  itsSource := hsource
  roundOver := hround
  ringCaptured := by rw [ring, hrecorder, hcaptured]; exact h.ringCaptured
  ringRoom := by rw [hrecorder]; exact h.ringRoom
  ringLast := by rw [hrecorder, hcam]; exact h.ringLast

omit [OfNumeral F] in
theorem Holding.dropped (h : Holding s) (hnone : s.frame = none)
    (hframe : (s.captureFrame dequeued).frame = some fr) (f : FrameInput F) (loop : EdgeSystem P) :
    Holding ((((s.captureFrame dequeued).handOver fr f).releaseFrame fr).withLoop loop) := by
  obtain ⟨handed, hhanded⟩ := (s.captureFrame dequeued).handOver_eq fr f
  have hcaptured := s.captureFrame_captured dequeued
  have honce := h.once
  rw [hframe] at hcaptured
  rw [hnone] at honce
  rw [hhanded]
  refine ⟨?_, ?_, ?_, ?_, ?_, ?_, ?_, ?_⟩
  · simp only [releaseFrame, withLoop, hcaptured, honce]
    simp
  · simp only [releaseFrame, withLoop, hcaptured]
    exact h.serials_snoc hframe
  · intro r hr
    rcases List.mem_append.mp hr with hr | hr
    · exact h.toItsSource r hr
    · rw [List.mem_singleton.mp hr]
      exact (captureFrame_frame hframe).1.symm
  · rintro _ ⟨⟩
  · intro _
    rfl
  · intro x hx
    simp only [releaseFrame, withLoop, hcaptured]
    exact List.mem_append_left _ (h.ringCaptured x hx)
  · exact h.ringRoom
  · rintro _ ⟨⟩

omit [OfNumeral F] in
theorem Holding.kept (h : Holding s) (hnone : s.frame = none)
    (hframe : (s.captureFrame dequeued).frame = some fr) (f : FrameInput F) (novel : Bool)
    {loop : EdgeSystem P}
    (hround : ((((s.captureFrame dequeued).handOver fr f).record fr novel).withLoop loop).inRound =
      true) :
    Holding ((((s.captureFrame dequeued).handOver fr f).record fr novel).withLoop loop) := by
  obtain ⟨handed, hhanded⟩ := (s.captureFrame dequeued).handOver_eq fr f
  have hcaptured := s.captureFrame_captured dequeued
  have honce := h.once
  rw [hframe] at hcaptured
  rw [hnone] at honce
  rw [hhanded] at hround ⊢
  refine ⟨?_, ?_, ?_, ?_, ?_, ?_, ?_, ?_⟩
  · simp only [record, withLoop, hcaptured, hframe, honce]
    simp
  · simp only [record, withLoop, hcaptured]
    exact h.serials_snoc hframe
  · exact h.toItsSource
  · intro x hx
    obtain rfl := Option.some.inj (hframe.symm.trans hx)
    exact (captureFrame_frame hframe).1.symm
  · intro hout
    rw [hround] at hout
    cases hout
  · intro x hx
    simp only [record, withLoop, hcaptured]
    have hrecorded : x ∈ (s.record fr novel).ring := hx
    rcases mem_ring_record hrecorded with hx | rfl
    · exact List.mem_append_left _ (h.ringCaptured x hx)
    · exact List.mem_append_right _ List.mem_cons_self
  · intro r hr
    have hrecorded : r ∈ (s.record fr novel).videoRecorder := hr
    exact (record_videoRecorder hrecorded).1
  · intro x hx r hr
    have hrecorded : r ∈ (s.record fr novel).videoRecorder := hr
    obtain rfl := Option.some.inj (hframe.symm.trans hx)
    exact (record_videoRecorder hrecorded).2

omit [OfNumeral F] in
theorem Holding.finished (h : Holding s) (hframe : s.frame = some fr) (loop : EdgeSystem P) :
    Holding ((s.releaseFrame fr).withLoop loop) := by
  have honce := h.once
  rw [hframe] at honce
  refine ⟨?_, h.serials, ?_, ?_, ?_, h.ringCaptured, h.ringRoom, ?_⟩
  · simp only [releaseFrame, withLoop, honce]
    simp
  · intro r hr
    rcases List.mem_append.mp hr with hr | hr
    · exact h.toItsSource r hr
    · rw [List.mem_singleton.mp hr]
      exact h.itsSource fr hframe
  · rintro _ ⟨⟩
  · intro _
    rfl
  · rintro _ ⟨⟩

theorem frame_none_of_round (hI : Holding s) {f : FrameInput F} (hact : l.act = .frame f)
    (h : s.step l = some s') : s.frame = none := by
  have hstep := step_loop h
  rw [loopAct, hact] at hstep
  apply hI.roundOver
  rw [inRound_eq_false, (EdgeSystem.frame_of_step hstep).1]
  decide

theorem holding_step (hI : Holding s) (h : s.step l = some s') : Holding s' := by
  cases step_effect h with
  | round f hact hround =>
      have hnone := frame_none_of_round hI hact h
      cases hround with
      | ended hframe _ hs' =>
          have hframe' : s'.frame = none := by
            rw [hs']
            exact hframe
          apply hI.congr
          · rw [hs']
            simp only [withLoop, endStream, captureFrame_captured, hframe, Option.toList_none,
              List.append_nil]
          · rw [hs']
            rfl
          · rw [hs']
            rfl
          · rw [hframe', hnone]
          · intro x hx
            cases hframe'.symm.trans hx
          · exact fun _ => hframe'
      | dropped frame hframe _ hs' =>
          rw [hs']
          exact hI.dropped hnone hframe _ _
      | kept frame a hframe hanalyse hs' =>
          have hround := inRound_of_kept hact hanalyse h
          rw [hs'] at hround ⊢
          exact hI.kept hnone hframe _ _ hround
  | finished hact hs' =>
      rw [hs']
      cases hframe : s.frame with
      | none =>
          rw [releaseHeld_of_none hframe]
          have hround : (s.withLoop s'.loop).inRound = false → s.frame = none := fun _ => hframe
          exact hI.congr rfl rfl rfl rfl hI.itsSource hround
      | some fr =>
          rw [releaseHeld_of_some hframe]
          exact hI.finished hframe _
  | other hframe hfinish hs' =>
      have hround := fun hout => hI.roundOver (inRound_of_other hframe hfinish h hout)
      rw [hs'] at hround ⊢
      exact hI.congr rfl rfl rfl rfl hI.itsSource hround

/-- A step keeps the recorder from released frames exactly when it spares the buffers. -/
theorem notHeld_step_iff (hI : Holding s) (hheld : s.NotHeld) (h : s.step l = some s') :
    s'.NotHeld ↔ s.SparesBuffers l := by
  have hspares : l.act ≠ .finish → s.SparesBuffers l := fun hne heq => absurd heq hne
  cases step_effect h with
  | round f hact hround =>
      have hne : l.act ≠ .finish := by
        rw [hact]
        rintro ⟨⟩
      refine iff_of_true ?_ (hspares hne)
      cases hround with
      | ended hframe _ hs' =>
          rw [hs']
          exact hheld
      | dropped frame hframe _ hs' =>
          obtain ⟨handed, hhanded⟩ := (s.captureFrame l.dequeued).handOver_eq frame
            ((s.captureFrame l.dequeued).input f)
          rw [hs', hhanded]
          intro x hx hdriver hmem
          simp only [releaseFrame, withLoop, captureFrame_released, List.map_append,
            List.mem_append, List.map_singleton, List.mem_singleton] at hmem
          rcases hmem with hmem | rfl
          · exact hheld x hx hdriver hmem
          · exact hI.fresh hframe (hI.ringCaptured x hx)
      | kept frame a hframe hanalyse hs' =>
          obtain ⟨handed, hhanded⟩ := (s.captureFrame l.dequeued).handOver_eq frame
            ((s.captureFrame l.dequeued).input f)
          rw [hs', hhanded]
          intro x hx hdriver hmem
          rcases mem_ring_record (s := s) hx with hx | rfl
          · exact hheld x hx hdriver hmem
          · exact hI.fresh hframe (hI.released_captured x hmem)
  | finished hact hs' =>
      cases hframe : s.frame with
      | none =>
          rw [releaseHeld_of_none hframe] at hs'
          rw [hs']
          refine iff_of_true hheld ?_
          intro _ fr hfr
          cases hframe.symm.trans hfr
      | some fr =>
          rw [releaseHeld_of_some hframe] at hs'
          rw [hs']
          constructor
          · intro hheld' _ fr' hfr' hdriver r hr
            obtain rfl := Option.some.inj (hframe.symm.trans hfr')
            by_contra hroom
            apply hheld' fr ((hI.mem_ring_iff hframe).mpr ⟨r, hr, hroom⟩) hdriver
            simp [releaseFrame, withLoop]
          · intro hroom x hx hdriver hmem
            simp only [releaseFrame, withLoop, List.map_append, List.mem_append,
              List.map_singleton, List.mem_singleton] at hmem
            rcases hmem with hmem | rfl
            · exact hheld x hx hdriver hmem
            · obtain ⟨r, hr, hne⟩ := (hI.mem_ring_iff hframe).mp hx
              exact hne (hroom hact x hframe hdriver r hr)
  | other hframe hfinish hs' =>
      rw [hs']
      exact iff_of_true hheld (hspares hfinish)

/-! ## Runs -/

variable {config : PipelineConfig F} {sources : Nat → InputSource}
  {recording : Option VideoRecorder.Config} {s₀ : FrameSystem P}
  {t : List (FrameSystem P × FrameAct F)}

omit [OfNumeral F] in
theorem ring_new (loop : EdgeSystem P) (sources : Nat → InputSource)
    (recording : Option VideoRecorder.Config) : (new loop sources recording).ring = [] := by
  cases recording <;> rfl

theorem holding_init (h₀ : (frameSystem P config sources recording).init s₀) : Holding s₀ := by
  obtain ⟨loop, -, rfl⟩ := h₀
  refine ⟨rfl, rfl, ?_, ?_, ?_, ?_, ?_, ?_⟩
  · rintro _ ⟨⟩
  · rintro _ ⟨⟩
  · intro _
    rfl
  · rw [ring_new]
    rintro _ ⟨⟩
  · intro r hr
    obtain ⟨config, -, rfl⟩ := Option.map_eq_some_iff.mp hr
    exact Nat.zero_le _
  · rintro _ ⟨⟩

/-- Frame ownership holds throughout exactly the runs in which no camera's frame is kept by
the recorder to the end of its round. -/
theorem owned_iff_sparesBuffers (h₀ : (frameSystem P config sources recording).init s₀)
    (hrun : (frameSystem P config sources recording).Run s₀ t s) :
    TransitionSystem.Throughout Owned t s ↔ TransitionSystem.Respects SparesBuffers t := by
  refine hrun.throughout_iff_respects (I := Holding) (fun _ _ _ hI hs => holding_step hI hs) ?_
    (holding_init h₀) ?_
  · intro s l s' hI howned hs
    rw [owned_iff_notHeld (holding_step hI hs)]
    exact notHeld_step_iff hI howned.notHeld hs
  · apply (owned_iff_notHeld (holding_init h₀)).mpr
    obtain ⟨loop, -, rfl⟩ := h₀
    intro fr hfr
    rw [ring_new] at hfr
    cases hfr

def oneCamera : PipelineConfig Binary32 := { smallConfig with grpcEnabled := false }

/-- One frame of the camera's first buffer, from its capture to its release. -/
def oneRound : List (FrameAct Binary32) :=
  [⟨.connect {}, none⟩, ⟨.startEventStream {}, none⟩, ⟨.frame (smallFrame []), some 0⟩,
    ⟨.finish, none⟩]

/-- The driver has the buffer back, and the recorder holds the frame in it. -/
theorem not_owned_oneRound :
    ¬ ∀ (s₀ s : FrameSystem (.small [])) (t : List (FrameSystem (.small []) × FrameAct Binary32)),
      (frameSystem (.small []) oneCamera (fun _ => .v4l2 (.new 4)) (some {})).init s₀ →
        (frameSystem (.small []) oneCamera (fun _ => .v4l2 (.new 4)) (some {})).Run s₀ t s →
          s.Owned := by
  intro h
  have hview : ((frameSystem (.small []) oneCamera (fun _ => .v4l2 (.new 4)) (some {})).execTrace
      (new (.new _ (smallCoordinator oneCamera)) (fun _ => .v4l2 (.new 4)) (some {}))
        oneRound).map (fun x => (x.2.ring, x.2.released)) =
        some ([⟨0, 0, .v4l2Mmap 0⟩], [(0, ⟨0, 0, .v4l2Mmap 0⟩)]) := by
    decide +kernel
  obtain ⟨t, s, hrun, -, hview⟩ := TransitionSystem.exists_run_of_execTrace hview
  obtain ⟨hring, hreleased⟩ := Prod.mk.inj hview
  have hinit : (frameSystem (.small []) oneCamera (fun _ => .v4l2 (.new 4)) (some {})).init
      (new (.new _ (smallCoordinator oneCamera)) (fun _ => .v4l2 (.new 4)) (some {})) :=
    ⟨_, EdgeSystem.init_small _ oneCamera rfl, rfl⟩
  have howned := h _ s t hinit hrun
  exact howned.notHeld ⟨0, 0, .v4l2Mmap 0⟩ (by rw [hring]; decide) rfl (by rw [hreleased]; decide)

/-- The same of a stream: the frame is not shared with a driver. -/
theorem owned_iff_sparesBuffers_oneRound :
    ∃ t s, (frameSystem (.small []) oneCamera (fun _ => .rtsp) (some {})).Run
        (new (.new _ (smallCoordinator oneCamera)) (fun _ => .rtsp) (some {})) t s ∧
      s.ring = [⟨0, 0, .dma⟩] ∧ s.released = [(0, ⟨0, 0, .dma⟩)] ∧
      (TransitionSystem.Throughout Owned t s ↔ TransitionSystem.Respects SparesBuffers t) := by
  have hview : ((frameSystem (.small []) oneCamera (fun _ => .rtsp) (some {})).execTrace
      (new (.new _ (smallCoordinator oneCamera)) (fun _ => .rtsp) (some {})) oneRound).map
        (fun x => (x.2.ring, x.2.released)) = some ([⟨0, 0, .dma⟩], [(0, ⟨0, 0, .dma⟩)]) := by
    decide +kernel
  obtain ⟨t, s, hrun, -, hview⟩ := TransitionSystem.exists_run_of_execTrace hview
  obtain ⟨hring, hreleased⟩ := Prod.mk.inj hview
  refine ⟨t, s, hrun, hring, hreleased, owned_iff_sparesBuffers ?_ hrun⟩
  exact ⟨_, EdgeSystem.init_small _ oneCamera rfl, rfl⟩

end FrameSystem
