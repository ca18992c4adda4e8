-- SUMMARY: The server of detection streams: sessions, rate limits and processing over all interleavings.
import NeuroPipeline.Central.DeviceSessions
import NeuroPipeline.Central.RateLimiter
import NeuroPipeline.Edge.DetectionBox
import NeuroPipeline.Lib.TransitionSystem

/-!
# Detection streams

Model of `StreamDetectionResults` and `RegisterDevice` of grpc_server.py and of
the cleanup task of main.py. The handlers run on one event loop, so that what a
handler does between two of its waits is one step, which takes no time. It waits
for the next message, for `process_detection` and for `context.abort`; where it
waits it can be cancelled.
-/

/-! ## Validation -/

inductive ValidationError (F : Type) where
  | emptyDeviceId
  | outOfRange (field : String) (value : F)

namespace ValidationError

def text {F : Type} (str : F → String) : ValidationError F → String
  | .emptyDeviceId => "device_id must not be empty"
  | .outOfRange field value => s!"{field} out of range [0,1]: {str value}"

end ValidationError

namespace DetectionResult

variable {F : Type} [CFloat F]

/-- `0.0 <= val <= 1.0`, which a NaN is not. -/
def inUnit (val : F) : Bool := CFloat.const 0 ≤ val && val ≤ (CFloat.const 1 : F)

def checkRange (field : String) (val : F) : Option (ValidationError F) :=
  if inUnit val then none else some (.outOfRange field val)

/-- `_validate_detection`. -/
def validate (result : DetectionResult F) : Option (ValidationError F) :=
  if result.deviceId = "" then some .emptyDeviceId
  else result.boxes.findSome? fun box =>
    checkRange "confidence" box.confidence <|> checkRange "x_min" box.xMin <|>
      checkRange "y_min" box.yMin <|> checkRange "x_max" box.xMax <|> checkRange "y_max" box.yMax

theorem deviceId_ne_of_validate {result : DetectionResult F} (h : result.validate = none) :
    result.deviceId ≠ "" := by
  intro hempty
  simp [validate, hempty] at h

end DetectionResult

/-! ## The server -/

inductive DetectionPhase (F : Type) where
  /-- at the head of the loop -/
  | waiting
  /-- in `process_detection` -/
  | processing (result : DetectionResult F)
  /-- in `context.abort` -/
  | aborting
  | ended

structure ResultStream (F : Type) where
  deviceId : String := ""
  framesReceived : Nat := 0
  phase : DetectionPhase F := .waiting

/-- A detection that was passed to `process_detection`. -/
structure Passage where
  stream : Nat
  /-- the device that the message names -/
  deviceId : String
  /-- the key of the bucket that paid for it -/
  charged : Option String
  time : ℚ

/-- A detection whose processing is over. -/
structure Completion where
  deviceId : String
  /-- the devices whose frame counter went up for it -/
  counted : List String

structure DetectionServer (F : Type) where
  sessionManager : DeviceSessionManager
  rateLimiter : Option TokenBucketRateLimiter
  streams : List (ResultStream F) := []
  /-- the last reading of the monotonic clock -/
  clock : ℚ := 0
  /-- the devices that `register` has accepted so far -/
  accepted : List String := []
  passed : List Passage := []
  completed : List Completion := []

inductive DetectionAct (F : Type) where
  /-- `RegisterDevice`, with the group and version of an A/B test -/
  | registerDevice (r : DeviceRegistration) (group : Option (String × String)) (wall : ℚ)
  | openStream
  /-- a message arrives, and the handler runs until it waits again -/
  | message (i : Nat) (result : DetectionResult F) (wall now : ℚ)
  /-- `process_detection` returns -/
  | processed (i : Nat) (wall : ℚ)
  /-- the messages end, or an exception is raised where the handler waits -/
  | endStream (i : Nat)
  | cleanupExpired (wall : ℚ)

namespace ResultStream

variable {F : Type}

def isOpen (st : ResultStream F) : Bool :=
  match st.phase with
  | .waiting | .processing _ | .aborting => true
  | .ended => false

/-- The device that the detection in process names. -/
def inProcess (st : ResultStream F) : Option String :=
  match st.phase with
  | .processing result => some result.deviceId
  | .waiting | .aborting | .ended => none

/-- The device of the stream once it has seen a message. -/
def identified (st : ResultStream F) (result : DetectionResult F) : String :=
  if st.deviceId = "" then result.deviceId else st.deviceId

end ResultStream

namespace DeviceSessionManager

/-- `heartbeat` and `increment_frames` after a detection. -/
def count (m : DeviceSessionManager) (deviceId : String) (wall : ℚ) : DeviceSessionManager :=
  if deviceId = "" then m else (m.heartbeat deviceId wall).incrementFrames deviceId 1

def frames (m : DeviceSessionManager) (deviceId : String) : Nat :=
  (m.getSession deviceId).elim 0 DeviceSession.framesReceived

/-- The devices whose frame counter is higher in `m'`. -/
def moved (m m' : DeviceSessionManager) : List String :=
  m'.ids.filter fun d => m.frames d < m'.frames d

end DeviceSessionManager

namespace DetectionServer

variable {F : Type} [CFloat F]

open TokenBucketRateLimiter (key)

/-- A registration by either path. -/
def register (s : DetectionServer F) (r : DeviceRegistration) (wall : ℚ) : DetectionServer F :=
  let result := s.sessionManager.register r wall
  { s with
    sessionManager := result.1
    accepted := if result.2 then s.accepted ++ [r.deviceId] else s.accepted }

def registerDevice (s : DetectionServer F) (r : DeviceRegistration)
    (group : Option (String × String)) (wall : ℚ) : DetectionServer F :=
  let s' := s.register r wall
  if (s.sessionManager.register r wall).2 then
    match group with
    | some (group, version) =>
      { s' with sessionManager := s'.sessionManager.assign r.deviceId group version }
    | none => s'
  else s'

/-- The first message that names a device registers it; the outcome is not looked at. -/
def identify (s : DetectionServer F) (st : ResultStream F) (result : DetectionResult F)
    (wall : ℚ) : DetectionServer F :=
  if st.deviceId = "" ∧ result.deviceId ≠ "" then s.register { deviceId := result.deviceId } wall
  else s

/-- The answer of the rate limiter, if there is one. -/
def allows (s : DetectionServer F) (deviceId : String) (now : ℚ) : Bool :=
  s.rateLimiter.elim true fun limiter => (limiter.allow deviceId now).2

/-- The token is taken. -/
def charge (s : DetectionServer F) (deviceId : String) (now : ℚ) : DetectionServer F :=
  { s with
    rateLimiter := s.rateLimiter.map fun limiter => (limiter.allow deviceId now).1
    clock := now }

def setStream (s : DetectionServer F) (i : Nat) (st : ResultStream F) : DetectionServer F :=
  { s with streams := s.streams.set i st }

def message (s : DetectionServer F) (i : Nat) (st : ResultStream F) (result : DetectionResult F)
    (wall now : ℚ) : DetectionServer F :=
  let st' := { st with deviceId := st.identified result }
  let s' := (s.identify st result wall).charge st'.deviceId now
  if s.allows st'.deviceId now then
    match result.validate with
    | some _ => s'.setStream i st'
    | none =>
      { s'.setStream i { st' with phase := .processing result } with
        passed := s'.passed ++
          [⟨i, result.deviceId, s.rateLimiter.map fun _ => key st'.deviceId, now⟩] }
  else s'.setStream i { st' with phase := .aborting }

def processed (s : DetectionServer F) (i : Nat) (st : ResultStream F)
    (result : DetectionResult F) (wall : ℚ) : DetectionServer F :=
  let counted := s.sessionManager.count st.deviceId wall
  { s.setStream i { st with framesReceived := st.framesReceived + 1, phase := .waiting } with
    sessionManager := counted
    completed := s.completed ++ [⟨result.deviceId, s.sessionManager.moved counted⟩] }

/-- The `finally` of the handler. A detection in process is not counted. -/
def endStream (s : DetectionServer F) (i : Nat) (st : ResultStream F) : DetectionServer F :=
  { s.setStream i { st with phase := .ended } with
    sessionManager :=
      if st.deviceId = "" then s.sessionManager else s.sessionManager.unregister st.deviceId
    completed :=
      match st.phase with
      | .processing result => s.completed ++ [⟨result.deviceId, []⟩]
      | .waiting | .aborting | .ended => s.completed }

def step (s : DetectionServer F) : DetectionAct F → Option (DetectionServer F)
  | .registerDevice r group wall => some (s.registerDevice r group wall)
  | .openStream => some { s with streams := s.streams ++ [{}] }
  | .message i result wall now =>
    match s.streams[i]? with
    | some ⟨deviceId, frames, .waiting⟩ =>
      if s.clock ≤ now then some (s.message i ⟨deviceId, frames, .waiting⟩ result wall now) else none
    | _ => none
  | .processed i wall =>
    match s.streams[i]? with
    | some ⟨deviceId, frames, .processing result⟩ =>
      some (s.processed i ⟨deviceId, frames, .processing result⟩ result wall)
    | _ => none
  | .endStream i =>
    match s.streams[i]? with
    | some st => if st.isOpen then some (s.endStream i st) else none
    | none => none
  | .cleanupExpired wall =>
    some { s with sessionManager := (s.sessionManager.cleanupExpired wall).1 }

end DetectionServer

/-- The server starts without sessions, buckets and streams. -/
def detectionSystem (F : Type) [CFloat F] : TransitionSystem (DetectionServer F) (DetectionAct F) where
  init s := ∃ heartbeatInterval expiryTimeout maxDevices limits clock,
    s = { sessionManager := .new heartbeatInterval expiryTimeout maxDevices
          rateLimiter := Option.map (fun l : ℚ × Int => { maxPerSec := l.1, burst := l.2 }) limits
          clock := clock }
  step := DetectionServer.step

namespace DetectionServer

variable {F : Type} [CFloat F] {s s' : DetectionServer F} {st : ResultStream F}
  {result : DetectionResult F} {wall now : ℚ}

open TokenBucketRateLimiter (key)

/-! ## Steps -/

/-- What a step does. -/
inductive Moves (s : DetectionServer F) : DetectionAct F → DetectionServer F → Prop where
  | registerDevice (r : DeviceRegistration) (group : Option (String × String)) (wall : ℚ) :
      Moves s (.registerDevice r group wall) (s.registerDevice r group wall)
  | openStream : Moves s .openStream { s with streams := s.streams ++ [{}] }
  | message {i : Nat} {st : ResultStream F} (result : DetectionResult F) (wall : ℚ) {now : ℚ}
      (hst : s.streams[i]? = some st) (hphase : st.phase = .waiting) (hclock : s.clock ≤ now) :
      Moves s (.message i result wall now) (s.message i st result wall now)
  | processed {i : Nat} {st : ResultStream F} {result : DetectionResult F} (wall : ℚ)
      (hst : s.streams[i]? = some st) (hphase : st.phase = .processing result) :
      Moves s (.processed i wall) (s.processed i st result wall)
  | endStream {i : Nat} {st : ResultStream F} (hst : s.streams[i]? = some st)
      (hopen : st.isOpen = true) : Moves s (.endStream i) (s.endStream i st)
  | cleanupExpired (wall : ℚ) : Moves s (.cleanupExpired wall)
      { s with sessionManager := (s.sessionManager.cleanupExpired wall).1 }

theorem step_moves {l : DetectionAct F} (h : s.step l = some s') : s.Moves l s' := by
  cases l with
  | registerDevice r group wall =>
      obtain rfl := Option.some.inj h
      exact .registerDevice r group wall
  | openStream =>
      obtain rfl := Option.some.inj h
      exact .openStream
  | message i result wall now =>
      simp only [step] at h
      cases hst : s.streams[i]? with
      | none => simp [hst] at h
      | some st =>
          obtain ⟨deviceId, frames, phase⟩ := st
          cases phase with
          | waiting =>
              simp only [hst] at h
              obtain ⟨hclock, heq⟩ := Option.ite_none_right_eq_some.mp h
              obtain rfl := Option.some.inj heq
              exact .message result wall hst rfl hclock
          | processing _ => simp [hst] at h
          | aborting => simp [hst] at h
          | ended => simp [hst] at h
  | processed i wall =>
      simp only [step] at h
      cases hst : s.streams[i]? with
      | none => simp [hst] at h
      | some st =>
          obtain ⟨deviceId, frames, phase⟩ := st
          cases phase with
          | processing result =>
              simp only [hst] at h
              obtain rfl := Option.some.inj h
              exact .processed wall hst rfl
          | waiting => simp [hst] at h
          | aborting => simp [hst] at h
          | ended => simp [hst] at h
  | endStream i =>
      simp only [step] at h
      cases hst : s.streams[i]? with
      | none => simp [hst] at h
      | some st =>
          simp only [hst] at h
          obtain ⟨hopen, heq⟩ := Option.ite_none_right_eq_some.mp h
          obtain rfl := Option.some.inj heq
          exact .endStream hst hopen
  | cleanupExpired wall =>
      obtain rfl := Option.some.inj h
      exact .cleanupExpired wall

theorem step_processed {i : Nat} (hst : s.streams[i]? = some st)
    (hphase : st.phase = .processing result) :
    s.step (.processed i wall) = some (s.processed i st result wall) := by
  obtain ⟨deviceId, frames, phase⟩ := st
  obtain rfl : phase = .processing result := hphase
  simp only [step, hst]

/-! ## One message -/

/-- The message is within the rate limit and valid. -/
def passes (s : DetectionServer F) (st : ResultStream F) (result : DetectionResult F)
    (now : ℚ) : Bool :=
  s.allows (st.identified result) now && result.validate.isNone

omit [CFloat F] in
theorem registerDevice_fields (s : DetectionServer F) (r : DeviceRegistration)
    (group : Option (String × String)) (wall : ℚ) :
    (s.registerDevice r group wall).streams = s.streams ∧
    (s.registerDevice r group wall).accepted = (s.register r wall).accepted ∧
    (s.registerDevice r group wall).passed = s.passed ∧
    (s.registerDevice r group wall).completed = s.completed ∧
    (s.registerDevice r group wall).rateLimiter = s.rateLimiter ∧
    (s.registerDevice r group wall).clock = s.clock := by
  simp only [registerDevice]
  split
  · cases group <;> exact ⟨rfl, rfl, rfl, rfl, rfl, rfl⟩
  · exact ⟨rfl, rfl, rfl, rfl, rfl, rfl⟩

omit [CFloat F] in
theorem identify_fields (s : DetectionServer F) (st : ResultStream F) (result : DetectionResult F)
    (wall : ℚ) : (s.identify st result wall).streams = s.streams ∧
    (s.identify st result wall).passed = s.passed ∧
    (s.identify st result wall).completed = s.completed ∧
    (s.identify st result wall).rateLimiter = s.rateLimiter := by
  simp only [identify]
  split <;> exact ⟨rfl, rfl, rfl, rfl⟩

/-- What a message does: it is passed on, or it changes no more than the phase. -/
theorem message_cases (s : DetectionServer F) (i : Nat) (st : ResultStream F)
    (result : DetectionResult F) (wall now : ℚ) (hphase : st.phase = .waiting) :
    (s.passes st result now = true ∧ s.message i st result wall now =
      { ((s.identify st result wall).charge (st.identified result) now).setStream i
          { st with deviceId := st.identified result, phase := .processing result } with
        passed := s.passed ++ [⟨i, result.deviceId,
          s.rateLimiter.map fun _ => key (st.identified result), now⟩] }) ∨
    (s.passes st result now = false ∧ ∃ phase, (phase = .waiting ∨ phase = .aborting) ∧
      s.message i st result wall now =
        ((s.identify st result wall).charge (st.identified result) now).setStream i
          { st with deviceId := st.identified result, phase := phase }) := by
  obtain ⟨-, hpassed, -, -⟩ := identify_fields s st result wall
  cases hallows : s.allows (st.identified result) now with
  | false =>
      refine .inr ⟨by rw [passes, hallows, Bool.false_and], .aborting, .inr rfl, ?_⟩
      simp only [message, hallows, Bool.false_eq_true, if_false]
  | true =>
      cases hvalid : result.validate with
      | some error =>
          refine .inr ⟨by rw [passes, hvalid, Option.isNone_some, Bool.and_false], .waiting,
            .inl rfl, ?_⟩
          simp only [message, hallows, hvalid, if_true, ← hphase]
      | none =>
          refine .inl ⟨by rw [passes, hallows, hvalid, Option.isNone_none, Bool.and_self], ?_⟩
          rw [← hpassed]
          simp only [message, hallows, hvalid, if_true]
          rfl

theorem message_sessionManager {i : Nat} {now : ℚ} (hphase : st.phase = .waiting) :
    (s.message i st result wall now).sessionManager = (s.identify st result wall).sessionManager := by
  rcases message_cases s i st result wall now hphase with ⟨-, heq⟩ | ⟨-, phase, -, heq⟩
  · rw [heq]
    rfl
  · rw [heq]
    rfl

theorem message_streams (s : DetectionServer F) (i : Nat) (result : DetectionResult F)
    (wall now : ℚ) (hphase : st.phase = .waiting) : ∃ phase,
    (s.message i st result wall now).streams =
      s.streams.set i { st with deviceId := st.identified result, phase := phase } ∧
    (phase = .waiting ∨ phase = .aborting ∨
      (s.passes st result now = true ∧ phase = .processing result)) := by
  obtain ⟨hstreams, -⟩ := identify_fields s st result wall
  rcases message_cases s i st result wall now hphase with ⟨hpasses, heq⟩ | ⟨-, phase, hidle, heq⟩
  · refine ⟨.processing result, ?_, .inr (.inr ⟨hpasses, rfl⟩)⟩
    rw [heq, ← hstreams]
    rfl
  · refine ⟨phase, ?_, hidle.imp_right .inl⟩
    rw [heq, ← hstreams]
    rfl

theorem message_passed (s : DetectionServer F) (i : Nat) (result : DetectionResult F)
    (wall now : ℚ) (hphase : st.phase = .waiting) :
    (s.message i st result wall now).passed = s.passed ++
      if s.passes st result now then [⟨i, result.deviceId,
        s.rateLimiter.map fun _ => key (st.identified result), now⟩] else [] := by
  obtain ⟨-, hpassed, -⟩ := identify_fields s st result wall
  rcases message_cases s i st result wall now hphase with ⟨hpasses, heq⟩ | ⟨hstays, phase, -, heq⟩
  · rw [heq, if_pos hpasses]
  · rw [heq, hstays, if_neg Bool.false_ne_true, List.append_nil, ← hpassed]
    rfl

/-- What a message leaves to the session, the limiter and the clock. -/
theorem message_fields (s : DetectionServer F) (i : Nat) (result : DetectionResult F)
    (wall now : ℚ) (hphase : st.phase = .waiting) :
    (s.message i st result wall now).accepted = (s.identify st result wall).accepted ∧
    (s.message i st result wall now).completed = s.completed ∧
    (s.message i st result wall now).clock = now ∧
    (s.message i st result wall now).rateLimiter =
      s.rateLimiter.map fun limiter => (limiter.allow (st.identified result) now).1 := by
  obtain ⟨-, -, hcompleted, hlimiter⟩ :=
    identify_fields s st result wall
  rw [← hcompleted, ← hlimiter]
  rcases message_cases s i st result wall now hphase with ⟨-, heq⟩ | ⟨-, phase, -, heq⟩
  · rw [heq]
    exact ⟨rfl, rfl, rfl, rfl⟩
  · rw [heq]
    exact ⟨rfl, rfl, rfl, rfl⟩

/-! ## One stream -/

omit [CFloat F] in
/-- What holds of every stream, and of the one that changes, holds afterwards. -/
theorem forall_streams_set {P Q : ResultStream F → Prop} {i : Nat}
    (hstreams : s'.streams = s.streams.set i st) (h : ∀ st ∈ s.streams, P st)
    (hsame : ∀ st, P st → Q st) (hst : Q st) : ∀ st ∈ s'.streams, Q st := by
  intro st' hst'
  rw [hstreams] at hst'
  rcases List.mem_or_eq_of_mem_set hst' with hbefore | rfl
  · exact hsame st' (h st' hbefore)
  · exact hst

omit [CFloat F] in
theorem device_set {streams : List (ResultStream F)} {i j : Nat} {st st₁ st₂ : ResultStream F}
    (hst₁ : streams[j]? = some st₁) (hst : streams[i]? = some st)
    (hid : st.deviceId ≠ "" → st₂.deviceId = st.deviceId) (hne : st₁.deviceId ≠ "") :
    ∃ st', (streams.set i st₂)[j]? = some st' ∧ st'.deviceId = st₁.deviceId := by
  rcases eq_or_ne i j with rfl | hij
  · obtain rfl := Option.some.inj (hst.symm.trans hst₁)
    obtain ⟨hlt, -⟩ := List.getElem?_eq_some_iff.mp hst
    exact ⟨st₂, List.getElem?_set_self hlt, hid hne⟩
  · exact ⟨st₁, by rw [List.getElem?_set_ne hij, hst₁], rfl⟩

omit [CFloat F] in
theorem identified_of_ne (hid : st.deviceId ≠ "") : st.identified result = st.deviceId :=
  if_neg hid

/-- A stream keeps its device. -/
theorem device_step {l : DetectionAct F} (hs : s.Moves l s') {j : Nat} {st₁ : ResultStream F}
    (hst₁ : s.streams[j]? = some st₁) (hne : st₁.deviceId ≠ "") :
    ∃ st', s'.streams[j]? = some st' ∧ st'.deviceId = st₁.deviceId := by
  cases hs with
  | registerDevice r group wall =>
      obtain ⟨hstreams, -⟩ := registerDevice_fields s r group wall
      rw [hstreams]
      exact ⟨st₁, hst₁, rfl⟩
  | openStream =>
      obtain ⟨hlt, -⟩ := List.getElem?_eq_some_iff.mp hst₁
      exact ⟨st₁, by rw [List.getElem?_append_left hlt, hst₁], rfl⟩
  | @message i st result wall now hst hphase hclock =>
      obtain ⟨phase, hstreams, -⟩ := message_streams s i result wall now hphase
      rw [hstreams]
      exact device_set hst₁ hst (fun hid => identified_of_ne hid) hne
  | @processed i st result wall hst hphase => exact device_set hst₁ hst (fun _ => rfl) hne
  | @endStream i st hst hopen => exact device_set hst₁ hst (fun _ => rfl) hne
  | cleanupExpired wall => exact ⟨st₁, hst₁, rfl⟩

end DetectionServer
