-- SUMMARY: A video file in the loop: which of its frames reach the engine, and when it is read to its end.
import NeuroPipeline.Edge.FrameOwnership

/-!
# Video file

A round reads one chunk of the file and takes at most one frame from the decoder. That
there is none ends the stream, whether the decoder needs more data, the frame is corrupt
or the file is at its end.
-/

/-! ## The decoder -/

namespace MppDecoder

/-- The frames that some packets complete, given one after the other. -/
def completed (completes : List (List UInt8) → List MppFrame) (packets : List (List UInt8)) :
    List MppFrame :=
  (List.range packets.length).flatMap fun i => completes (packets.take (i + 1))

theorem completed_snoc (completes : List (List UInt8) → List MppFrame)
    (packets : List (List UInt8)) (data : List UInt8) :
    completed completes (packets ++ [data]) =
      completed completes packets ++ completes (packets ++ [data]) := by
  rw [completed, List.length_append, List.length_singleton, List.range_succ, List.flatMap_append,
    List.flatMap_singleton, List.take_of_length_le (by simp)]
  congr 1
  apply List.flatMap_congr
  intro i hi
  rw [List.mem_range] at hi
  rw [List.take_append_of_le_length (by omega)]

end MppDecoder

/-! ## The source -/

namespace VideoFileInputSource

variable {src : VideoFileInputSource} {k : Nat}

/-- The chunks in which a file is read. -/
def chunks : List UInt8 → List (List UInt8)
  | [] => []
  | b :: rest => (b :: rest).take kChunk :: chunks ((b :: rest).drop kChunk)
termination_by file => file.length
decreasing_by
  simp only [List.length_drop, List.length_cons, kChunk]
  omega

@[simp] theorem chunks_nil : chunks [] = [] := by
  rw [chunks]

theorem chunks_of_ne_nil {file : List UInt8} (h : file ≠ []) :
    chunks file = file.take kChunk :: chunks (file.drop kChunk) := by
  cases file with
  | nil => exact absurd rfl h
  | cons b rest => rw [chunks]

theorem chunks_eq_nil {file : List UInt8} : chunks file = [] ↔ file = [] := by
  constructor
  · intro h
    by_contra hne
    rw [chunks_of_ne_nil hne] at h
    cases h
  · rintro rfl
    exact chunks_nil

theorem captureFrame_of_nil (h : src.file = []) : src.captureFrame = (none, src) := by
  rw [captureFrame, h]
  rfl

theorem captureFrame_of_ne_nil (h : src.file ≠ []) :
    src.captureFrame =
      ((src.decoder.decode (src.file.take kChunk)).1,
        ⟨src.file.drop kChunk, (src.decoder.decode (src.file.take kChunk)).2⟩) := by
  rw [captureFrame, if_neg]
  simpa using h

/-! ## Captures in a row -/

/-- The source after some captures. -/
def after (src : VideoFileInputSource) : Nat → VideoFileInputSource
  | 0 => src
  | k + 1 => (src.after k).captureFrame.2

/-- The frame that a capture gives. -/
def frameAt (src : VideoFileInputSource) (k : Nat) : Option MppFrame :=
  (src.after k).captureFrame.1

/-- The frames of the first captures. -/
def taken (src : VideoFileInputSource) (k : Nat) : List MppFrame :=
  (List.range k).filterMap src.frameAt

theorem taken_succ (src : VideoFileInputSource) (k : Nat) :
    src.taken (k + 1) = src.taken k ++ (src.frameAt k).toList := by
  rw [taken, List.range_succ, List.filterMap_append]
  cases h : src.frameAt k <;> simp [h, taken]

/-- How far a source has read its file. -/
structure ReadTo (completes : List (List UInt8) → List MppFrame) (file : List UInt8) (k : Nat)
    (src : VideoFileInputSource) : Prop where
  completes : src.decoder.completes = completes
  packets : src.decoder.packets = (chunks file).take k
  rest : chunks src.file = (chunks file).drop k
  whole : src.decoder.packets.flatten ++ src.file = file

variable {completes : List (List UInt8) → List MppFrame} {file : List UInt8}

theorem ReadTo.file_eq_nil (h : ReadTo completes file k src) :
    src.file = [] ↔ (chunks file).length ≤ k := by
  rw [← chunks_eq_nil, h.rest, List.drop_eq_nil_iff]

/-- The next chunk is given to the decoder. -/
theorem ReadTo.putPacket (h : ReadTo completes file k src) (hfile : src.file ≠ []) :
    src.decoder.packets ++ [src.file.take kChunk] = (chunks file).take (k + 1) ∧
      chunks (src.file.drop kChunk) = (chunks file).drop (k + 1) := by
  have hrest := h.rest
  rw [chunks_of_ne_nil hfile] at hrest
  constructor
  · rw [List.take_add, h.packets, ← hrest]
    rfl
  · rw [← List.drop_drop, ← hrest]
    rfl

theorem ReadTo.captureFrame (h : ReadTo completes file k src) :
    ReadTo completes file (k + 1) src.captureFrame.2 := by
  by_cases hfile : src.file = []
  · have hle := h.file_eq_nil.mp hfile
    rw [captureFrame_of_nil hfile]
    refine ⟨h.completes, ?_, ?_, h.whole⟩
    · rw [h.packets, List.take_of_length_le hle, List.take_of_length_le (by omega)]
    · rw [h.rest, List.drop_of_length_le hle, List.drop_of_length_le (by omega)]
  · obtain ⟨hpackets, hrest⟩ := h.putPacket hfile
    rw [captureFrame_of_ne_nil hfile]
    refine ⟨h.completes, hpackets, hrest, ?_⟩
    calc (src.decoder.packets ++ [src.file.take kChunk]).flatten ++ src.file.drop kChunk
        = src.decoder.packets.flatten ++ src.file := by
          rw [List.flatten_append, List.append_assoc]
          simp
      _ = file := h.whole

theorem readTo_after (completes : List (List UInt8) → List MppFrame) (file : List UInt8) (k : Nat) :
    ReadTo completes file k ((new completes file).after k) := by
  induction k with
  | zero => exact ⟨rfl, rfl, rfl, rfl⟩
  | succ k ih => exact ih.captureFrame

/-! ## The frames -/

/-- The frames that the decoder holds once the next packet is in. -/
def ready (src : VideoFileInputSource) : List MppFrame :=
  src.decoder.frames ++ src.decoder.completes (src.decoder.packets ++ [src.file.take kChunk])

theorem captureFrame_frame (h : src.file ≠ []) :
    src.captureFrame.1 = src.ready.head?.filter MppFrame.intact := by
  rw [captureFrame_of_ne_nil h]
  rfl

theorem captureFrame_frames (h : src.file ≠ []) :
    src.captureFrame.2.decoder.frames = src.ready.tail := by
  rw [captureFrame_of_ne_nil h]
  rfl

theorem head_filter_append_tail (l : List MppFrame) :
    (l.head?.filter MppFrame.intact).toList ++ l.tail.filter MppFrame.intact =
      l.filter MppFrame.intact := by
  cases l with
  | nil => rfl
  | cons frame l =>
      rw [List.head?_cons, List.tail_cons, List.filter_cons, Option.filter_some]
      cases frame.intact <;> rfl

/-- Each intact frame has been given, or is still with the decoder. -/
theorem taken_append_frames (completes : List (List UInt8) → List MppFrame) (file : List UInt8)
    (k : Nat) :
    (new completes file).taken k ++
        ((new completes file).after k).decoder.frames.filter MppFrame.intact =
      (MppDecoder.completed completes ((chunks file).take k)).filter MppFrame.intact := by
  induction k with
  | zero => rfl
  | succ k ih =>
      have hread := readTo_after completes file k
      rw [taken_succ, frameAt, List.append_assoc, after]
      by_cases hfile : ((new completes file).after k).file = []
      · have hle := hread.file_eq_nil.mp hfile
        rw [captureFrame_of_nil hfile, List.take_of_length_le (by omega), Option.toList_none,
          List.nil_append, ih, List.take_of_length_le hle]
      · rw [captureFrame_frame hfile, captureFrame_frames hfile, head_filter_append_tail, ready,
          List.filter_append, ← List.append_assoc, ih, ← (hread.putPacket hfile).1,
          MppDecoder.completed_snoc, List.filter_append, hread.completes, hread.packets]

/-- The frame that a capture finds with the decoder, as long as each capture has found one. -/
def nextFrame (completes : List (List UInt8) → List MppFrame) (file : List UInt8) (k : Nat) :
    Option MppFrame :=
  if k < (chunks file).length then
    (MppDecoder.completed completes ((chunks file).take (k + 1)))[k]?.filter MppFrame.intact
  else none

/-- Each capture has taken one frame. -/
structure InStep (completes : List (List UInt8) → List MppFrame) (file : List UInt8) (k : Nat)
    (src : VideoFileInputSource) : Prop where
  chunks_le : k ≤ (chunks file).length
  frames_le : k ≤ (MppDecoder.completed completes ((chunks file).take k)).length
  frames : src.decoder.frames = (MppDecoder.completed completes ((chunks file).take k)).drop k

theorem InStep.ready (h : InStep completes file k src) (hread : ReadTo completes file k src)
    (hfile : src.file ≠ []) :
    src.ready = (MppDecoder.completed completes ((chunks file).take (k + 1))).drop k := by
  rw [VideoFileInputSource.ready, h.frames, ← (hread.putPacket hfile).1,
    MppDecoder.completed_snoc, hread.completes, hread.packets,
    List.drop_append_of_le_length h.frames_le]

theorem InStep.captureFrame_eq (h : InStep completes file k src)
    (hread : ReadTo completes file k src) : src.captureFrame.1 = nextFrame completes file k := by
  by_cases hfile : src.file = []
  · rw [captureFrame_of_nil hfile, nextFrame, if_neg]
    have hle := hread.file_eq_nil.mp hfile
    omega
  · have hlt := Nat.lt_of_not_le (mt hread.file_eq_nil.mpr hfile)
    rw [captureFrame_frame hfile, h.ready hread hfile, List.head?_drop, nextFrame, if_pos hlt]

theorem InStep.captureFrame (h : InStep completes file k src) (hread : ReadTo completes file k src)
    (hsome : src.captureFrame.1.isSome = true) : InStep completes file (k + 1) src.captureFrame.2 := by
  have hfile : src.file ≠ [] := by
    intro hnil
    rw [captureFrame_of_nil hnil] at hsome
    cases hsome
  have hlt := Nat.lt_of_not_le (mt hread.file_eq_nil.mpr hfile)
  refine ⟨hlt, ?_, ?_⟩
  · by_contra hle
    rw [captureFrame_frame hfile, h.ready hread hfile, List.drop_of_length_le (by omega)] at hsome
    cases hsome
  · rw [captureFrame_frames hfile, h.ready hread hfile, List.tail_drop]

theorem inStep_after (h : ∀ i < k, ((new completes file).frameAt i).isSome = true) :
    InStep completes file k ((new completes file).after k) := by
  induction k with
  | zero => exact ⟨Nat.zero_le _, Nat.zero_le _, rfl⟩
  | succ k ih =>
      have hstep := ih fun i hi => h i (by omega)
      exact hstep.captureFrame (readTo_after completes file k) (h k (by omega))

/-- Each capture finds a frame; or all chunks are read by then, and have completed no more
frames than there are chunks. -/
def KeepsUp (completes : List (List UInt8) → List MppFrame) (file : List UInt8) (k : Nat) : Prop :=
  ∀ i < k, (nextFrame completes file i).isSome = true ∨ ((chunks file).length ≤ i + 1 ∧
    (MppDecoder.completed completes (chunks file)).length ≤ (chunks file).length)

theorem frameAt_eq (h : ∀ i < k, ((new completes file).frameAt i).isSome = true) :
    (new completes file).frameAt k = nextFrame completes file k :=
  (inStep_after h).captureFrame_eq (readTo_after completes file k)

theorem keepsUp_of_frames (h : ∀ i < k, ((new completes file).frameAt i).isSome = true) :
    KeepsUp completes file k := by
  intro i hi
  refine .inl ?_
  rw [← frameAt_eq fun j hj => h j (by omega)]
  exact h i hi

theorem keepsUp_succ_iff (h : ∀ i < k, ((new completes file).frameAt i).isSome = true)
    (hnone : (new completes file).frameAt k = none) :
    KeepsUp completes file (k + 1) ↔ (chunks file).length ≤ k + 1 ∧
      (MppDecoder.completed completes (chunks file)).length ≤ (chunks file).length := by
  rw [frameAt_eq h] at hnone
  constructor
  · intro hkeeps
    rcases hkeeps k (Nat.lt_succ_self k) with hsome | hread
    · rw [hnone] at hsome
      cases hsome
    · exact hread
  · intro hread i hi
    rcases Nat.lt_succ_iff_lt_or_eq.mp hi with hi | rfl
    · exact keepsUp_of_frames h i hi
    · exact .inr hread

/-- After captures that each gave a frame, one more leaves nothing exactly when all chunks
are read then and have completed no more frames than there are chunks. -/
theorem exhausted_iff (h : ∀ i < k, ((new completes file).frameAt i).isSome = true) :
    (((new completes file).after (k + 1)).file = [] ∧
        ((new completes file).after (k + 1)).decoder.frames = []) ↔
      (chunks file).length ≤ k + 1 ∧
        (MppDecoder.completed completes (chunks file)).length ≤ (chunks file).length := by
  have hread := readTo_after completes file k
  have hstep := inStep_after h
  rw [(readTo_after completes file (k + 1)).file_eq_nil]
  refine and_congr_right fun hle => ?_
  rw [after]
  by_cases hfile : ((new completes file).after k).file = []
  · have hk : k = (chunks file).length :=
      le_antisymm hstep.chunks_le (hread.file_eq_nil.mp hfile)
    rw [captureFrame_of_nil hfile, hstep.frames, List.drop_eq_nil_iff,
      List.take_of_length_le (by omega), ← hk]
  · have hlt := Nat.lt_of_not_le (mt hread.file_eq_nil.mpr hfile)
    have hk : k + 1 = (chunks file).length := by omega
    rw [captureFrame_frames hfile, hstep.ready hread hfile, List.tail_drop, List.drop_eq_nil_iff,
      List.take_of_length_le (by omega), hk]

end VideoFileInputSource

/-! ## The loop -/

open EdgeSystem (smallCoordinator smallFrame)

namespace FrameSystem

variable {F : Type} [CFloat F] {P : Platform F}

/-- The file that is played. -/
def videoFile (s : FrameSystem P) : Option VideoFileInputSource :=
  match s.sources 0 with
  | .videoFile src => some src
  | .v4l2 _ | .rtsp => none

/-- The frames of the file that were handed to inference. -/
def handedFrames (s : FrameSystem P) : List MppFrame := s.handed.filterMap Frame.decoded

/-- Of the chunks read so far each intact frame has been handed to inference once and in
order, or is pending; once the stream has ended the file is read and nothing is pending. -/
structure ReadsWhole (file : List UInt8) (s : FrameSystem P) : Prop where
  inOrder : ∀ src ∈ s.videoFile,
    s.handedFrames ++ src.decoder.frames.filter MppFrame.intact =
      (MppDecoder.completed src.decoder.completes src.decoder.packets).filter MppFrame.intact
  unskipped : ∀ src ∈ s.videoFile, src.decoder.packets.flatten ++ src.file = file
  toItsEnd : s.streamEnded = true → ∀ src ∈ s.videoFile, src.file = [] ∧ src.decoder.frames = []

/-- A frame that the source gives is converted, and there is an engine to hand it to. -/
def Converts (s : FrameSystem P) (l : FrameAct F) : Prop :=
  ∀ f, l.act = .frame f → (s.captureFrame l.dequeued).frame.isSome = true →
    (f.processed && s.loop.coordinator.runsModel) = true

def isRound (l : FrameAct F) : Bool :=
  match l.act with
  | .frame _ => true
  | _ => false

/-- The rounds that a run has begun. -/
def rounds (t : List (FrameSystem P × FrameAct F)) : Nat := t.countP fun p => isRound p.2

/-- The loop has been left. -/
def left (s : FrameSystem P) : Bool :=
  s.loop.pc = .leaving || s.loop.pc = .flushed || s.loop.pc = .stopped || s.loop.pc = .terminated

variable {completes : List (List UInt8) → List MppFrame} {file : List UInt8}
  {src : VideoFileInputSource} {s s' : FrameSystem P} {t : List (FrameSystem P × FrameAct F)}
  {l : FrameAct F} {fr : Frame} {dequeued : Option Nat}

theorem rounds_snoc (t : List (FrameSystem P × FrameAct F)) (s : FrameSystem P) (l : FrameAct F) :
    rounds (t ++ [(s, l)]) = rounds t + (isRound l).toNat := by
  rw [rounds, List.countP_append, List.countP_singleton]
  cases isRound l <;> rfl

/-- How far a run has played a file. -/
structure Playing (completes : List (List UInt8) → List MppFrame) (file : List UInt8)
    (t : List (FrameSystem P × FrameAct F)) (s : FrameSystem P) : Prop where
  only : s.loop.coordinator.config.sources = 1
  source : s.sources 0 = .videoFile ((VideoFileInputSource.new completes file).after (rounds t))
  handed : s.handedFrames.Sublist ((VideoFileInputSource.new completes file).taken (rounds t))
  converts : TransitionSystem.Respects Converts t ↔
    s.handedFrames = (VideoFileInputSource.new completes file).taken (rounds t)
  streaming : s.streamEnded = false →
    ∀ i < rounds t, ((VideoFileInputSource.new completes file).frameAt i).isSome = true
  ended : s.streamEnded = true → s.left = true ∧ ∃ k, rounds t = k + 1 ∧
    (∀ i < k, ((VideoFileInputSource.new completes file).frameAt i).isSome = true) ∧
    (VideoFileInputSource.new completes file).frameAt k = none

/-! ## One round -/

theorem captureFrame_videoFile (honly : s.loop.coordinator.config.sources = 1)
    (hsource : s.sources 0 = .videoFile src) (dequeued : Option Nat) :
    (s.captureFrame dequeued).sources 0 = .videoFile src.captureFrame.2 ∧
      ((s.captureFrame dequeued).frame.bind Frame.decoded) = src.captureFrame.1 ∧
      (s.captureFrame dequeued).frame.isSome = src.captureFrame.1.isSome := by
  have hidx : EdgeSystem.camera s.loop.coordinator.config.sources s.loop.frameCount = 0 := by
    rw [honly, EdgeSystem.camera, Nat.mod_one]
  simp only [captureFrame, hidx, hsource, InputSource.captureFrame, Prod.map, Function.update_self,
    true_and]
  constructor
  · cases src.captureFrame.1 <;> rfl
  · cases src.captureFrame.1 <;> rfl

theorem releaseFrame_videoFile (hsource : s.sources 0 = .videoFile src) (fr : Frame) :
    (s.releaseFrame fr).sources 0 = .videoFile src := by
  by_cases hidx : 0 = s.activeCamIdx
  · simp only [releaseFrame, ← hidx, Function.update_self, hsource]
    rfl
  · simp only [releaseFrame, Function.update_of_ne hidx, hsource]

theorem releaseHeld_videoFile (hsource : s.sources 0 = .videoFile src) :
    s.releaseHeld.sources 0 = .videoFile src := by
  unfold releaseHeld
  split
  · exact hsource
  · exact releaseFrame_videoFile hsource _

theorem handOver_handed (s : FrameSystem P) (fr : Frame) (f : FrameInput F) :
    (s.handOver fr f).handed =
      s.handed ++ if f.processed && s.loop.coordinator.runsModel then [fr] else [] := by
  unfold handOver
  split
  · rfl
  · rw [List.append_nil]

theorem handedFrames_append {handed : List Frame} {x : MppFrame} {flag : Bool}
    (hdecoded : fr.decoded = some x) :
    (handed ++ if flag then [fr] else []).filterMap Frame.decoded =
      handed.filterMap Frame.decoded ++ if flag then [x] else [] := by
  rw [List.filterMap_append]
  cases flag with
  | false => rfl
  | true => simp [hdecoded]

/-- A list that keeps up with another stays so exactly when what the other gains is added. -/
theorem append_flag_eq_iff {α : Type} {l l' : List α} {x : α} {flag : Bool} (h : l.Sublist l') :
    (l ++ if flag then [x] else []) = l' ++ [x] ↔ l = l' ∧ flag = true := by
  cases flag with
  | true => simp
  | false =>
      refine iff_of_false ?_ ?_
      · intro heq
        have hlength := congrArg List.length heq
        have hle := h.length_le
        simp only [Bool.false_eq_true, if_false, List.append_nil, List.length_append,
          List.length_singleton] at hlength
        omega
      · rintro ⟨-, ⟨⟩⟩

theorem append_flag_sublist {α : Type} {l l' : List α} {x : α} {flag : Bool}
    (h : l.Sublist l') : (l ++ if flag then [x] else []).Sublist (l' ++ [x]) := by
  cases flag with
  | true => exact h.append (List.Sublist.refl _)
  | false => exact h.append (List.nil_sublist _)

omit [CFloat F] in
theorem isRound_of_frame {f : FrameInput F} (h : l.act = .frame f) : isRound l = true := by
  rw [isRound, h]

theorem converts_of_not_frame (h : ∀ f, l.act ≠ .frame f) : s.Converts l :=
  fun f hact => absurd hact (h f)

omit [CFloat F] in
theorem isRound_of_not_frame (h : ∀ f, l.act ≠ .frame f) : isRound l = false := by
  unfold isRound
  split
  next f hact => exact absurd hact (h f)
  next => rfl

/-- A step that takes no frame leaves the file where it is. -/
theorem Playing.idle (hI : Playing completes file t s) (hframe : ∀ f, l.act ≠ .frame f)
    (honly : s'.loop.coordinator.config.sources = 1)
    (hsource : s'.sources 0 = .videoFile
      ((VideoFileInputSource.new completes file).after (rounds t)))
    (hhanded : s'.handed = s.handed) (hended : s'.streamEnded = s.streamEnded)
    (hleft : s.left = true → s'.left = true) : Playing completes file (t ++ [(s, l)]) s' := by
  have hrounds : rounds (t ++ [(s, l)]) = rounds t := by
    rw [rounds_snoc, isRound_of_not_frame hframe]
    rfl
  have hsame : s'.handedFrames = s.handedFrames := by rw [handedFrames, hhanded, handedFrames]
  refine ⟨honly, ?_, ?_, ?_, ?_, ?_⟩
  · rw [hrounds, hsource]
  · rw [hrounds, hsame]
    exact hI.handed
  · rw [hrounds, hsame, TransitionSystem.respects_snoc, ← hI.converts]
    exact and_iff_left (converts_of_not_frame hframe)
  · rw [hrounds, hended]
    exact hI.streaming
  · rw [hrounds, hended]
    intro h
    exact ⟨hleft (hI.ended h).1, (hI.ended h).2⟩

/-- A round that finds a frame takes the next one of the file. -/
theorem Playing.gain (hI : Playing completes file t s) {f : FrameInput F} {x : MppFrame}
    (hact : l.act = .frame f) (hopen : s.streamEnded = false)
    (hx : (VideoFileInputSource.new completes file).frameAt (rounds t) = some x)
    (hsome : (s.captureFrame l.dequeued).frame.isSome = true)
    (honly : s'.loop.coordinator.config.sources = 1)
    (hsource : s'.sources 0 = .videoFile
      ((VideoFileInputSource.new completes file).after (rounds t + 1)))
    (hhanded : s'.handedFrames =
      s.handedFrames ++ if f.processed && s.loop.coordinator.runsModel then [x] else [])
    (hended : s'.streamEnded = false) : Playing completes file (t ++ [(s, l)]) s' := by
  have hrounds : rounds (t ++ [(s, l)]) = rounds t + 1 := by
    rw [rounds_snoc, isRound_of_frame hact]
    rfl
  have hconverts : s.Converts l ↔ (f.processed && s.loop.coordinator.runsModel) = true := by
    constructor
    · exact fun h => h f hact hsome
    · intro h f' hf' _
      rw [hact] at hf'
      obtain rfl := EdgeAct.frame.inj hf'
      exact h
  have htaken := (VideoFileInputSource.new completes file).taken_succ (rounds t)
  rw [hx] at htaken
  refine ⟨honly, ?_, ?_, ?_, ?_, ?_⟩
  · rw [hrounds, hsource]
  · rw [hrounds, htaken, hhanded]
    exact append_flag_sublist hI.handed
  · rw [hrounds, htaken, hhanded, TransitionSystem.respects_snoc, hconverts, hI.converts]
    exact (append_flag_eq_iff hI.handed).symm
  · rw [hrounds]
    intro _ i hi
    rcases Nat.lt_succ_iff_lt_or_eq.mp hi with hi | rfl
    · exact hI.streaming hopen i hi
    · rw [hx]
      rfl
  · rw [hended]
    rintro ⟨⟩

/-- A round that finds none ends the stream. -/
theorem Playing.endStream (hI : Playing completes file t s) {f : FrameInput F}
    (hact : l.act = .frame f) (hopen : s.streamEnded = false)
    (hnone : (VideoFileInputSource.new completes file).frameAt (rounds t) = none)
    (hframe : (s.captureFrame l.dequeued).frame = none)
    (honly : s'.loop.coordinator.config.sources = 1)
    (hsource : s'.sources 0 = .videoFile
      ((VideoFileInputSource.new completes file).after (rounds t + 1)))
    (hhanded : s'.handed = s.handed) (hended : s'.streamEnded = true) (hleft : s'.left = true) :
    Playing completes file (t ++ [(s, l)]) s' := by
  have hrounds : rounds (t ++ [(s, l)]) = rounds t + 1 := by
    rw [rounds_snoc, isRound_of_frame hact]
    rfl
  have hsame : s'.handedFrames = s.handedFrames := by rw [handedFrames, hhanded, handedFrames]
  have htaken := (VideoFileInputSource.new completes file).taken_succ (rounds t)
  rw [hnone, Option.toList_none, List.append_nil] at htaken
  refine ⟨honly, ?_, ?_, ?_, ?_, ?_⟩
  · rw [hrounds, hsource]
  · rw [hrounds, htaken, hsame]
    exact hI.handed
  · rw [hrounds, htaken, hsame, TransitionSystem.respects_snoc, ← hI.converts]
    refine and_iff_left ?_
    intro f _ hsome
    rw [hframe] at hsome
    cases hsome
  · rw [hended]
    rintro ⟨⟩
  · intro _
    exact ⟨hleft, rounds t, hrounds, hI.streaming hopen, hnone⟩

theorem frame_of_ended {s s' : EdgeSystem P} {f : FrameInput F} (hcaptured : f.captured = false)
    (honly : s.coordinator.config.sources = 1) (h : s.frame f = some s') : s'.pc = .leaving := by
  simp only [EdgeSystem.frame, hcaptured, honly, Bool.not_false, decide_true, Bool.and_self,
    if_true] at h
  cases h
  rfl

variable [OfNumeral F]

/-- Once left, the loop is not entered again. -/
theorem left_step (h : s.step l = some s') (hleft : s.left = true) : s'.left = true := by
  have hpc := EdgeSystem.step_pc (step_loop h)
  simp only [left, Bool.or_eq_true, decide_eq_true_eq] at hleft ⊢
  obtain ⟨act, dequeued⟩ := l
  cases act with
  | frame f | connect o | startEventStream o | client o | finish | leave =>
      have hpc : s.loop.pc = _ := hpc.1
      simp [hpc] at hleft
  | flushStream o | stopEventStream => simp [show s'.loop.pc = _ from hpc.2]
  | command cmd answer =>
      rcases hpc.2 with hpc | hpc
      · rwa [hpc]
      · exact .inr hpc
  | eventReaderEnds => rwa [hpc.2]
  | stop => rwa [show s'.loop.pc = s.loop.pc from hpc]

theorem sources_step (h : s.step l = some s') :
    s'.loop.coordinator.config.sources = s.loop.coordinator.config.sources := by
  obtain ⟨fps, threshold, hconfig⟩ := EdgeSystem.step_config (step_loop h)
  rw [hconfig]

omit [OfNumeral F] in
/-- A round that has a frame finds it with the decoder. -/
theorem Playing.round (hI : Playing completes file t s) {f : FrameInput F}
    (hact : l.act = .frame f) (hopen : s.streamEnded = false)
    (hframe : (s.captureFrame l.dequeued).frame = some fr)
    (honly : s'.loop.coordinator.config.sources = 1)
    (hsource : s'.sources 0 = (s.captureFrame l.dequeued).sources 0)
    (hhanded : s'.handed = ((s.captureFrame l.dequeued).handOver fr
      ((s.captureFrame l.dequeued).input f)).handed)
    (hended : s'.streamEnded = false) : Playing completes file (t ++ [(s, l)]) s' := by
  obtain ⟨hafter, hdecoded, hsome⟩ := captureFrame_videoFile hI.only hI.source l.dequeued
  rw [hframe] at hdecoded hsome
  obtain ⟨x, hx⟩ := Option.isSome_iff_exists.mp hsome.symm
  rw [hx] at hdecoded
  refine hI.gain hact hopen hx (by rw [hframe]; rfl) honly (hsource.trans hafter) ?_ hended
  rw [handedFrames, hhanded, handOver_handed, handedFrames_append hdecoded]
  rfl

theorem playing_step (hI : Playing completes file t s) (h : s.step l = some s') :
    Playing completes file (t ++ [(s, l)]) s' := by
  have honly : s'.loop.coordinator.config.sources = 1 := (sources_step h).trans hI.only
  cases step_effect h with
  | round f hact hround =>
      have hstep := step_loop h
      rw [loopAct, hact] at hstep
      obtain ⟨htop, hloop⟩ := EdgeSystem.frame_of_step hstep
      have hopen : s.streamEnded = false := by
        cases hended : s.streamEnded with
        | false => rfl
        | true =>
            have hleft := (hI.ended hended).1
            simp [left, htop] at hleft
      cases hround with
      | ended hframe _ hs' =>
          obtain ⟨hafter, hdecoded, -⟩ := captureFrame_videoFile hI.only hI.source l.dequeued
          rw [hframe] at hdecoded
          have hpc := frame_of_ended (by simp [input, hframe]) hI.only hloop
          apply hI.endStream hact hopen hdecoded.symm hframe honly
          · rw [hs']
            exact hafter
          · rw [hs']
            rfl
          · rw [hs']
            simp [withLoop, FrameSystem.endStream, hI.only]
          · simp [left, hpc]
      | dropped frame hframe _ hs' =>
          obtain ⟨hafter, -, -⟩ := captureFrame_videoFile hI.only hI.source l.dequeued
          obtain ⟨handed, hhanded⟩ := (s.captureFrame l.dequeued).handOver_eq frame
            ((s.captureFrame l.dequeued).input f)
          apply hI.round hact hopen hframe honly
          · rw [hs', hafter, hhanded]
            exact releaseFrame_videoFile hafter frame
          · rw [hs']
            rfl
          · rw [hs', hhanded]
            exact hopen
      | kept frame a hframe _ hs' =>
          obtain ⟨handed, hhanded⟩ := (s.captureFrame l.dequeued).handOver_eq frame
            ((s.captureFrame l.dequeued).input f)
          apply hI.round hact hopen hframe honly
          · rw [hs', hhanded]
            rfl
          · rw [hs']
            rfl
          · rw [hs', hhanded]
            exact hopen
  | finished hact hs' =>
      apply hI.idle (by rw [hact]; rintro _ ⟨⟩) honly
      · rw [hs']
        exact releaseHeld_videoFile hI.source
      · rw [hs']
        unfold releaseHeld
        split <;> rfl
      · rw [hs']
        unfold releaseHeld
        split <;> rfl
      · exact left_step h
  | other hframe _ hs' =>
      apply hI.idle hframe honly
      · rw [hs']
        exact hI.source
      · rw [hs']
        rfl
      · rw [hs']
        rfl
      · exact left_step h

/-! ## Runs -/

variable {config : PipelineConfig F} {recording : Option VideoRecorder.Config}
  {s₀ : FrameSystem P}

theorem playing (hsources : config.sources = 1)
    (h₀ : (frameSystem P config (fun _ => .videoFile (.new completes file)) recording).init s₀)
    (hrun : (frameSystem P config (fun _ => .videoFile (.new completes file)) recording).Run
      s₀ t s) : Playing completes file t s := by
  apply hrun.invariant_history (fun _ _ _ _ hI hs => playing_step hI hs)
  obtain ⟨loop, hloop, rfl⟩ := h₀
  have honly : loop.coordinator.config.sources = 1 := by
    obtain ⟨engineAnswer, modelAnswers, now, c, hc, rfl⟩ := hloop
    rw [← hsources]
    exact congrArg PipelineConfig.sources (Coordinator.initializePipeline_started hc).config
  refine ⟨honly, rfl, List.nil_sublist _, ?_, ?_, ?_⟩
  · exact iff_of_true TransitionSystem.respects_nil rfl
  · rintro _ i ⟨⟩
  · rintro ⟨⟩

/-- A file is read as a whole exactly when each frame that the source gives is converted and
has an engine to go to, and the decoder keeps up with the chunks. -/
theorem readsWhole_iff_keepsUp (hsources : config.sources = 1)
    (h₀ : (frameSystem P config (fun _ => .videoFile (.new completes file)) recording).init s₀)
    (hrun : (frameSystem P config (fun _ => .videoFile (.new completes file)) recording).Run
      s₀ t s) :
    s.ReadsWhole file ↔ TransitionSystem.Respects Converts t ∧
      VideoFileInputSource.KeepsUp completes file (rounds t) := by
  have hI := playing hsources h₀ hrun
  have hread := VideoFileInputSource.readTo_after completes file (rounds t)
  have hvideo : ∀ src, src ∈ s.videoFile ↔
      (VideoFileInputSource.new completes file).after (rounds t) = src := by
    intro src
    rw [videoFile, hI.source]
    exact Option.some_inj
  have hinOrder : s.handedFrames = (VideoFileInputSource.new completes file).taken (rounds t) ↔
      ∀ src ∈ s.videoFile, s.handedFrames ++ src.decoder.frames.filter MppFrame.intact =
        (MppDecoder.completed src.decoder.completes src.decoder.packets).filter
          MppFrame.intact := by
    simp only [hvideo, forall_eq']
    rw [hread.completes, hread.packets, ← VideoFileInputSource.taken_append_frames,
      List.append_left_inj]
  have htoItsEnd : VideoFileInputSource.KeepsUp completes file (rounds t) ↔
      (s.streamEnded = true → ∀ src ∈ s.videoFile,
        src.file = [] ∧ src.decoder.frames = []) := by
    simp only [hvideo, forall_eq']
    cases hended : s.streamEnded with
    | false =>
        refine iff_of_true (VideoFileInputSource.keepsUp_of_frames (hI.streaming hended)) ?_
        rintro ⟨⟩
    | true =>
        obtain ⟨-, k, hk, hframes, hnone⟩ := hI.ended hended
        rw [hk, VideoFileInputSource.keepsUp_succ_iff hframes hnone,
          ← VideoFileInputSource.exhausted_iff hframes]
        exact ⟨fun h _ => h, fun h => h rfl⟩
  rw [hI.converts, hinOrder, htoItsEnd]
  constructor
  · exact fun h => ⟨h.inOrder, h.toItsEnd⟩
  · rintro ⟨hinOrder, htoItsEnd⟩
    refine ⟨hinOrder, ?_, htoItsEnd⟩
    simp only [hvideo, forall_eq']
    exact hread.whole

/-- A round that has a frame is carried through. -/
def noFailure (s : FrameSystem P) (l : FrameAct F) : Bool :=
  match l.act with
  | .frame f =>
    let s := s.captureFrame l.dequeued
    !s.frame.isSome || (s.loop.analyse (s.input f)).isSome
  | _ => true

/-- Two rounds of the loop. -/
def twoRounds : List (FrameAct Binary32) :=
  [⟨.connect {}, none⟩, ⟨.startEventStream {}, none⟩, ⟨.frame (smallFrame []), none⟩,
    ⟨.finish, none⟩, ⟨.frame (smallFrame []), none⟩]

/-- The only chunk of the file completes two frames, and the second stays with the decoder. -/
theorem not_readsWhole_twoRounds :
    ¬ ∀ (completes : List (List UInt8) → List MppFrame) (file : List UInt8)
      (s₀ s : FrameSystem (.small [])) (t : List (FrameSystem (.small []) × FrameAct Binary32)),
        (frameSystem (.small []) oneCamera (fun _ => .videoFile (.new completes file)) none).init
          s₀ →
        (frameSystem (.small []) oneCamera (fun _ => .videoFile (.new completes file)) none).Run
          s₀ t s →
        TransitionSystem.Respects (fun s l => s.noFailure l = true) t → s.ReadsWhole file := by
  intro h
  have hview : ((frameSystem (.small []) oneCamera
      (fun _ => .videoFile (.new (fun _ => [⟨1, false, false, true⟩, ⟨2, false, false, true⟩]) [0]))
        none).execTrace
      (new (.new _ (smallCoordinator oneCamera))
        (fun _ => .videoFile (.new (fun _ => [⟨1, false, false, true⟩, ⟨2, false, false, true⟩]) [0]))
          none) twoRounds).map (fun x =>
        (decide (TransitionSystem.Respects (fun s l => s.noFailure l = true) x.1),
          x.2.streamEnded, x.2.videoFile.map fun src => src.decoder.frames)) =
        some (true, true, some [⟨2, false, false, true⟩]) := by
    decide +kernel
  obtain ⟨t, s, hrun, -, hview⟩ := TransitionSystem.exists_run_of_execTrace hview
  obtain ⟨hfailure, hview⟩ := Prod.mk.inj hview
  obtain ⟨hended, hframes⟩ := Prod.mk.inj hview
  obtain ⟨src, hsrc, hpending⟩ := Option.map_eq_some_iff.mp hframes
  have hwhole := h _ [0] _ s t ⟨_, EdgeSystem.init_small _ oneCamera rfl, rfl⟩ hrun
    (of_decide_eq_true hfailure)
  have hnil := (hwhole.toItsEnd hended src hsrc).2
  rw [hpending] at hnil
  cases hnil

/-- It completes one, which is handed to inference before the stream ends. -/
theorem readsWhole_iff_keepsUp_twoRounds :
    ∃ t s, (frameSystem (.small []) oneCamera
        (fun _ => .videoFile (.new (fun _ => [⟨1, false, false, true⟩]) [0])) none).Run
      (new (.new _ (smallCoordinator oneCamera))
        (fun _ => .videoFile (.new (fun _ => [⟨1, false, false, true⟩]) [0])) none) t s ∧
      s.streamEnded = true ∧ s.handedFrames = [⟨1, false, false, true⟩] ∧
      (s.ReadsWhole [0] ↔ TransitionSystem.Respects Converts t ∧
        VideoFileInputSource.KeepsUp (fun _ => [⟨1, false, false, true⟩]) [0] (rounds t)) := by
  have hview : ((frameSystem (.small []) oneCamera
      (fun _ => .videoFile (.new (fun _ => [⟨1, false, false, true⟩]) [0])) none).execTrace
      (new (.new _ (smallCoordinator oneCamera))
        (fun _ => .videoFile (.new (fun _ => [⟨1, false, false, true⟩]) [0])) none)
          twoRounds).map (fun x => (x.2.streamEnded, x.2.handedFrames)) =
        some (true, [⟨1, false, false, true⟩]) := by
    decide +kernel
  obtain ⟨t, s, hrun, -, hview⟩ := TransitionSystem.exists_run_of_execTrace hview
  obtain ⟨hended, hhanded⟩ := Prod.mk.inj hview
  refine ⟨t, s, hrun, hended, hhanded, readsWhole_iff_keepsUp rfl ?_ hrun⟩
  exact ⟨_, EdgeSystem.init_small _ oneCamera rfl, rfl⟩

end FrameSystem
