-- SUMMARY: Which open streams have a session, and how many devices have detections in process.
import NeuroPipeline.Central.DetectionStreams

/-!
# Sessions of open streams

A session is kept for a device, not for a stream: it is removed by the end of any
stream of the device and by the cleanup. As long as that does not happen to a
device with another open stream, every device that streams has its session.
-/

namespace DeviceSessionManager

variable {m : DeviceSessionManager} {d e : String} {wall : ℚ}

@[simp] theorem ids_count : (m.count d wall).ids = m.ids := by
  unfold count
  split <;> simp

theorem getSession_count_self (wall : ℚ) (hd : d ≠ "") {before : DeviceSession}
    (hbefore : m.getSession d = some before) :
    ∃ after, (m.count d wall).getSession d = some after ∧ after.status = .connected ∧
      after.framesReceived = before.framesReceived + 1 := by
  have hid := deviceId_of_getSession hbefore
  have hafter : (m.count d wall).getSession d = some { before with
      lastHeartbeat := wall, status := .connected,
      framesReceived := before.framesReceived + 1 } := by
    rw [count, if_neg hd, incrementFrames, getSession_modify, heartbeat, getSession_modify,
      hbefore]
    simp [hid]
  exact ⟨_, hafter, rfl, rfl⟩

theorem getSession_count_of_ne (hne : e ≠ d) :
    (m.count d wall).getSession e = m.getSession e := by
  unfold count
  split
  · rfl
  · rw [incrementFrames, getSession_modify, heartbeat, getSession_modify]
    cases hget : m.getSession e with
    | none => rfl
    | some session =>
        have hid := deviceId_of_getSession hget
        simp [hid, hne]

end DeviceSessionManager

namespace DetectionServer

variable {F : Type} {s s' : DetectionServer F} {l : DetectionAct F}
  {st : ResultStream F} {result : DetectionResult F} {wall : ℚ}

/-! ## Specification -/

/-- The device of every open stream has a session. -/
def Attended (s : DetectionServer F) : Prop :=
  ∀ st ∈ s.streams, st.isOpen = true → st.deviceId ≠ "" → st.deviceId ∈ s.sessionManager.ids

/-- A detection whose processing is done moves the frame counter of its device, which
has a connected session. -/
def Counts (s : DetectionServer F) (l : DetectionAct F) (s' : DetectionServer F) : Prop :=
  match l with
  | .processed i _ => ∀ st result, s.streams[i]? = some st → st.phase = .processing result →
      ∃ before after, s.sessionManager.getSession result.deviceId = some before ∧
        s'.sessionManager.getSession result.deviceId = some after ∧ after.status = .connected ∧
        after.framesReceived = before.framesReceived + 1
  | .registerDevice .. | .openStream | .message .. | .endStream _ | .cleanupExpired _ => True

def Serves [CFloat F] (s : DetectionServer F) (l : DetectionAct F) : Prop :=
  ∀ s', s.step l = some s' → s'.Attended ∧ s.Counts l s'

/-- No session is removed while another stream of its device is open. -/
def Kept (s : DetectionServer F) : DetectionAct F → Prop
  | .endStream i => ∀ st, s.streams[i]? = some st → ∀ j st', s.streams[j]? = some st' → j ≠ i →
      st'.isOpen = true → st'.deviceId ≠ "" → st'.deviceId ≠ st.deviceId
  | .cleanupExpired wall => ∀ st ∈ s.streams, st.isOpen = true → st.deviceId ≠ "" →
      ∀ session ∈ s.sessionManager.sessions, session.deviceId = st.deviceId →
        s.sessionManager.expired wall session = false
  | .registerDevice .. | .openStream | .message .. | .processed .. => True

/-- The detection that was processed names the device of its stream. -/
def Named (s : DetectionServer F) : DetectionAct F → Prop
  | .processed i _ => ∀ st result, s.streams[i]? = some st → st.phase = .processing result →
      result.deviceId = st.deviceId
  | .registerDevice .. | .openStream | .message .. | .endStream _ | .cleanupExpired _ => True

/-- A detection that is passed on names the device of its stream. -/
def NamedOn [CFloat F] (s : DetectionServer F) : DetectionAct F → Prop
  | .message i result _ now => ∀ st, s.streams[i]? = some st → st.deviceId ≠ "" →
      s.passes st result now = true → result.deviceId = st.deviceId
  | .registerDevice .. | .openStream | .processed .. | .endStream _ | .cleanupExpired _ => True

/-- The first message of a stream finds a session of its device or room for one. -/
def Accepted (s : DetectionServer F) : DetectionAct F → Prop
  | .message i result _ _ => ∀ st, s.streams[i]? = some st → st.deviceId = "" →
      result.deviceId ≠ "" → s.sessionManager.Accepts result.deviceId
  | .registerDevice .. | .openStream | .processed .. | .endStream _ | .cleanupExpired _ => True

/-! ## Sessions through a step -/

theorem mem_ids_register {r : DeviceRegistration} {e : String} :
    e ∈ (s.register r wall).sessionManager.ids ↔
      e ∈ s.sessionManager.ids ∨ (e = r.deviceId ∧ s.sessionManager.Accepts r.deviceId) :=
  DeviceSessionManager.mem_ids_register

theorem ids_registerDevice {r : DeviceRegistration} {group : Option (String × String)} :
    (s.registerDevice r group wall).sessionManager.ids = (s.register r wall).sessionManager.ids := by
  unfold registerDevice
  split
  · cases group with
    | none => rfl
    | some assigned => exact DeviceSessionManager.ids_assign
  · rfl

/-- A first message adds what the registration of its device adds, to any list of devices. -/
theorem mem_identify_iff (devices : DetectionServer F → List String) {e : String}
    (hregister : ∀ r : DeviceRegistration, e ∈ devices (s.register r wall) ↔
      e ∈ devices s ∨ (e = r.deviceId ∧ s.sessionManager.Accepts r.deviceId)) :
    e ∈ devices (s.identify st result wall) ↔
      e ∈ devices s ∨ (st.deviceId = "" ∧ result.deviceId ≠ "" ∧ e = result.deviceId ∧
        s.sessionManager.Accepts result.deviceId) := by
  by_cases hfirst : st.deviceId = "" ∧ result.deviceId ≠ ""
  · rw [identify, if_pos hfirst, hregister]
    simp only [hfirst, ne_eq, not_false_eq_true, true_and]
  · rw [identify, if_neg hfirst]
    constructor
    · exact .inl
    · rintro (hbefore | ⟨hst, hresult, -⟩)
      · exact hbefore
      · exact absurd ⟨hst, hresult⟩ hfirst

theorem mem_ids_identify {e : String} : e ∈ (s.identify st result wall).sessionManager.ids ↔
    e ∈ s.sessionManager.ids ∨ (st.deviceId = "" ∧ result.deviceId ≠ "" ∧ e = result.deviceId ∧
      s.sessionManager.Accepts result.deviceId) :=
  mem_identify_iff (fun s => s.sessionManager.ids) fun _ => mem_ids_register

/-- The device of a stream has its session after the first message, if it is accepted. -/
theorem identified_mem_ids (wall : ℚ)
    (hattended : st.deviceId ≠ "" → st.deviceId ∈ s.sessionManager.ids)
    (haccepted : st.deviceId = "" → result.deviceId ≠ "" →
      s.sessionManager.Accepts result.deviceId) (hid : st.identified result ≠ "") :
    st.identified result ∈ (s.identify st result wall).sessionManager.ids := by
  rw [mem_ids_identify]
  by_cases hempty : st.deviceId = ""
  · rw [ResultStream.identified, if_pos hempty] at hid ⊢
    exact .inr ⟨hempty, hid, rfl, haccepted hempty hid⟩
  · rw [ResultStream.identified, if_neg hempty]
    exact .inl (hattended hempty)

/-- One stream changes, and no session is removed. -/
theorem Attended.set (h : s.Attended) {i : Nat} (hstreams : s'.streams = s.streams.set i st)
    (hids : ∀ e ∈ s.sessionManager.ids, e ∈ s'.sessionManager.ids)
    (hst : st.isOpen = true → st.deviceId ≠ "" → st.deviceId ∈ s'.sessionManager.ids) :
    s'.Attended :=
  forall_streams_set hstreams h (fun _ hbefore hopen hid => hids _ (hbefore hopen hid)) hst

theorem endStream_streams {i : Nat} :
    (s.endStream i st).streams = s.streams.set i { st with phase := .ended } := rfl

theorem mem_ids_endStream {i : Nat} {e : String} :
    e ∈ (s.endStream i st).sessionManager.ids ↔
      e ∈ s.sessionManager.ids ∧ (st.deviceId ≠ "" → e ≠ st.deviceId) := by
  by_cases hid : st.deviceId = ""
  · have hsame : (s.endStream i st).sessionManager = s.sessionManager := if_pos hid
    rw [hsame]
    exact ⟨fun he => ⟨he, fun hne => absurd hid hne⟩, And.left⟩
  · have hgone : (s.endStream i st).sessionManager = s.sessionManager.unregister st.deviceId :=
      if_neg hid
    rw [hgone, DeviceSessionManager.mem_ids_unregister]
    exact ⟨fun he => ⟨he.1, fun _ => he.2⟩, fun he => ⟨he.1, he.2 hid⟩⟩

theorem isOpen_of_waiting (hphase : st.phase = .waiting) : st.isOpen = true := by
  simp [ResultStream.isOpen, hphase]

theorem isOpen_of_processing (hphase : st.phase = .processing result) : st.isOpen = true := by
  simp [ResultStream.isOpen, hphase]

variable [CFloat F]

theorem attended_step (h : s.Attended) (hs : s.Moves l s') (haccepted : s.Accepted l)
    (hkept : s.Kept l) : s'.Attended := by
  cases hs with
  | registerDevice r group wall =>
      intro st hst hopen hid
      obtain ⟨hstreams, -⟩ := registerDevice_fields s r group wall
      rw [ids_registerDevice, mem_ids_register]
      exact .inl (h st (hstreams ▸ hst) hopen hid)
  | openStream =>
      intro st hst hopen hid
      rcases List.mem_append.mp hst with hbefore | hnew
      · exact h st hbefore hopen hid
      · rw [List.mem_singleton.mp hnew] at hid
        exact absurd rfl hid
  | @message i st result wall now hst hphase hclock =>
      have hmem := List.mem_of_getElem? hst
      have hid := identified_mem_ids wall
        (h st hmem (isOpen_of_waiting hphase)) (haccepted st hst)
      have hids : ∀ e ∈ s.sessionManager.ids,
          e ∈ (s.identify st result wall).sessionManager.ids := fun e he =>
        mem_ids_identify.mpr (.inl he)
      obtain ⟨phase, hstreams, -⟩ := message_streams s i result wall now hphase
      rw [← message_sessionManager hphase] at hid hids
      exact h.set hstreams hids fun _ => hid
  | @processed i st result wall hst hphase =>
      have hids : (s.processed i st result wall).sessionManager.ids = s.sessionManager.ids :=
        DeviceSessionManager.ids_count
      apply h.set rfl
      · rw [hids]
        exact fun e he => he
      · rw [hids]
        exact fun _ => h st (List.mem_of_getElem? hst) (isOpen_of_processing hphase)
  | @endStream i st hst hopen =>
      intro st' hst' hopen' hid
      obtain ⟨j, hj⟩ := List.mem_iff_getElem?.mp hst'
      rcases eq_or_ne i j with rfl | hne
      · -- the stream itself is no longer open
        obtain ⟨hlt, -⟩ := List.getElem?_eq_some_iff.mp hst
        rw [endStream_streams, List.getElem?_set_self hlt] at hj
        obtain rfl := Option.some.inj hj
        cases hopen'
      · rw [endStream_streams, List.getElem?_set_ne hne] at hj
        have hbefore := h st' (List.mem_of_getElem? hj) hopen' hid
        rw [mem_ids_endStream]
        exact ⟨hbefore, fun _ => hkept st hst j st' hj hne.symm hopen' hid⟩
  | cleanupExpired wall =>
      intro st hst hopen hid
      obtain ⟨session, hsession, hsame⟩ := List.mem_map.mp (h st hst hopen hid)
      exact DeviceSessionManager.mem_ids_cleanupExpired.mpr
        ⟨session, hsession, hsame, hkept st hst hopen hid session hsession hsame⟩

/-! ## Other invariants -/

/-- A stream in process has its device. -/
def Identified (s : DetectionServer F) : Prop :=
  ∀ st ∈ s.streams, ∀ result, st.phase = .processing result → st.deviceId ≠ ""

theorem identified_ne_of_passes {now : ℚ} (h : s.passes st result now = true) :
    st.identified result ≠ "" := by
  obtain ⟨-, hvalid⟩ := Bool.and_eq_true_iff.mp h
  have hresult := DetectionResult.deviceId_ne_of_validate (Option.isNone_iff_eq_none.mp hvalid)
  by_cases hempty : st.deviceId = ""
  · rwa [ResultStream.identified, if_pos hempty]
  · rwa [ResultStream.identified, if_neg hempty]

omit [CFloat F] in
theorem Identified.set (h : s.Identified) {i : Nat} (hstreams : s'.streams = s.streams.set i st)
    (hst : ∀ result, st.phase = .processing result → st.deviceId ≠ "") : s'.Identified :=
  forall_streams_set hstreams h (fun _ hbefore => hbefore) hst

theorem identified_step (h : s.Identified) (hs : s.Moves l s') : s'.Identified := by
  cases hs with
  | registerDevice r group wall =>
      obtain ⟨hstreams, -⟩ := registerDevice_fields s r group wall
      rw [Identified, hstreams]
      exact h
  | openStream =>
      intro st hst result hphase
      rcases List.mem_append.mp hst with hbefore | hnew
      · exact h st hbefore result hphase
      · rw [List.mem_singleton.mp hnew] at hphase
        cases hphase
  | @message i st result wall now hst hphase hclock =>
      obtain ⟨phase, hstreams, hidle | hidle | ⟨hpasses, -⟩⟩ :=
        message_streams s i result wall now hphase
      · exact h.set hstreams fun _ hprocessing => by cases hidle.symm.trans hprocessing
      · exact h.set hstreams fun _ hprocessing => by cases hidle.symm.trans hprocessing
      · exact h.set hstreams fun _ _ => identified_ne_of_passes hpasses
  | @processed i st result wall hst hphase => exact h.set rfl fun _ hprocessing => by cases hprocessing
  | @endStream i st hst hopen => exact h.set rfl fun _ hprocessing => by cases hprocessing
  | cleanupExpired wall => exact h

/-- Only these devices register and send. -/
def Only (devices : Finset String) : DetectionAct F → Prop
  | .registerDevice r _ _ => r.deviceId ∈ devices
  | .message _ result _ _ => result.deviceId ≠ "" → result.deviceId ∈ devices
  | .openStream | .processed .. | .endStream _ | .cleanupExpired _ => True

omit [CFloat F] in
theorem maxDevices_register {r : DeviceRegistration} :
    (s.register r wall).sessionManager.maxDevices = s.sessionManager.maxDevices :=
  DeviceSessionManager.maxDevices_register

theorem maxDevices_step (hs : s.Moves l s') :
    s'.sessionManager.maxDevices = s.sessionManager.maxDevices := by
  cases hs with
  | registerDevice r group wall =>
      simp only [registerDevice]
      split
      · cases group <;> exact maxDevices_register
      · exact maxDevices_register
  | openStream => rfl
  | @message i st result wall now hst hphase hclock =>
      have hidentify : (s.identify st result wall).sessionManager.maxDevices =
          s.sessionManager.maxDevices := by
        simp only [identify]
        split
        · exact maxDevices_register
        · rfl
      rw [message_sessionManager hphase]
      exact hidentify
  | @processed i st result wall hst hphase =>
      simp only [processed, DeviceSessionManager.count]
      split <;> rfl
  | @endStream i st hst hopen =>
      simp only [endStream]
      split <;> rfl
  | cleanupExpired wall => rfl

theorem known_step {devices : Finset String} (h : ∀ e ∈ s.sessionManager.ids, e ∈ devices)
    (hs : s.Moves l s') (honly : Only devices l) : ∀ e ∈ s'.sessionManager.ids, e ∈ devices := by
  intro e he
  cases hs with
  | registerDevice r group wall =>
      rw [ids_registerDevice, mem_ids_register] at he
      rcases he with hbefore | ⟨rfl, -⟩
      · exact h e hbefore
      · exact honly
  | openStream => exact h e he
  | @message i st result wall now hst hphase hclock =>
      rw [message_sessionManager hphase, mem_ids_identify] at he
      rcases he with hbefore | ⟨-, hresult, rfl, -⟩
      · exact h e hbefore
      · exact honly hresult
  | @processed i st result wall hst hphase =>
      have hids : (s.processed i st result wall).sessionManager.ids = s.sessionManager.ids :=
        DeviceSessionManager.ids_count
      exact h e (hids ▸ he)
  | @endStream i st hst hopen => exact h e (mem_ids_endStream.mp he).1
  | cleanupExpired wall =>
      obtain ⟨session, hsession, rfl, -⟩ := DeviceSessionManager.mem_ids_cleanupExpired.mp he
      exact h _ (List.mem_map_of_mem hsession)

/-! ## Few devices -/

/-- What holds between the steps when no more than these devices register and send. -/
structure Streaming (devices : Finset String) (s : DetectionServer F) : Prop where
  attended : s.Attended
  identified : s.Identified
  known : ∀ e ∈ s.sessionManager.ids, e ∈ devices
  room : devices.card ≤ s.sessionManager.maxDevices

variable {devices : Finset String}

omit [CFloat F] in
theorem Streaming.accepted (h : Streaming devices s) (honly : Only devices l) : s.Accepted l := by
  cases l with
  | message i result wall now =>
      intro st hst hempty hresult
      exact DeviceSessionManager.accepts_of_mem h.known (honly hresult) h.room
  | registerDevice | openStream | processed | endStream | cleanupExpired => trivial

theorem Streaming.step (h : Streaming devices s) (hs : s.Moves l s') (honly : Only devices l)
    (hkept : s.Kept l) : Streaming devices s' where
  attended := attended_step h.attended hs (h.accepted honly) hkept
  identified := identified_step h.identified hs
  known := known_step h.known hs honly
  room := (maxDevices_step hs).symm ▸ h.room

/-- The frame counter moves if the detection names the device of its stream. -/
theorem Streaming.counts (h : Streaming devices s) (hs : s.Moves l s') (hnamed : s.Named l) :
    s.Counts l s' := by
  cases hs with
  | @processed i st result wall hst hphase =>
      intro st' result' hst' hphase'
      obtain rfl := Option.some.inj (hst.symm.trans hst')
      obtain rfl := DetectionPhase.processing.inj (hphase.symm.trans hphase')
      have hmem := List.mem_of_getElem? hst
      have hid := h.identified st hmem result hphase
      obtain ⟨before, hbefore⟩ := DeviceSessionManager.mem_ids_iff.mp
        (h.attended st hmem (isOpen_of_processing hphase) hid)
      obtain ⟨after, hafter, hstatus, hframes⟩ :=
        DeviceSessionManager.getSession_count_self wall hid hbefore
      rw [hnamed st result hst hphase]
      exact ⟨before, after, hbefore, hafter, hstatus, hframes⟩
  | registerDevice | openStream | message | endStream | cleanupExpired => trivial

/-- A session that is removed too early is missed by the stream that is still open. -/
theorem kept_of_attended (hs : s.Moves l s') (hattended : s'.Attended) : s.Kept l := by
  cases hs with
  | @endStream i st hst hopen =>
      intro st₀ hst₀ j st' hst' hne hopen' hid hsame
      obtain rfl := Option.some.inj (hst.symm.trans hst₀)
      have hmem : st' ∈ (s.endStream i st).streams := by
        refine List.mem_iff_getElem?.mpr ⟨j, ?_⟩
        rw [endStream_streams, List.getElem?_set_ne hne.symm, hst']
      exact (mem_ids_endStream.mp (hattended st' hmem hopen' hid)).2 (hsame ▸ hid) hsame
  | cleanupExpired wall =>
      intro st hst hopen hid session hsession hsame
      obtain ⟨kept, hmem, hkeptId, hkept⟩ :=
        DeviceSessionManager.mem_ids_cleanupExpired.mp (hattended st hst hopen hid)
      rwa [DeviceSessionManager.session_unique hsession hmem (hsame.trans hkeptId.symm)]
  | registerDevice | openStream | message | processed => trivial

/-- A detection of another device moves no counter of its own device. -/
theorem named_of_counts (hs : s.Moves l s') (hcounts : s.Counts l s') : s.Named l := by
  cases hs with
  | @processed i st result wall hst hphase =>
      intro st' result' hst' hphase'
      obtain rfl := Option.some.inj (hst.symm.trans hst')
      obtain rfl := DetectionPhase.processing.inj (hphase.symm.trans hphase')
      obtain ⟨before, after, hbefore, hafter, -, hframes⟩ := hcounts st result hst hphase
      by_contra hne
      have hsame : (s.processed i st result wall).sessionManager.getSession result.deviceId =
          s.sessionManager.getSession result.deviceId :=
        DeviceSessionManager.getSession_count_of_ne hne
      rw [hsame, hbefore] at hafter
      obtain rfl := Option.some.inj hafter
      exact absurd hframes (Nat.succ_ne_self _).symm
  | registerDevice | openStream | message | endStream | cleanupExpired => trivial

/-- Each step keeps the sessions of open streams, and what is processed is of the
stream's device. -/
def Careful (s : DetectionServer F) (l : DetectionAct F) : Prop := s.Kept l ∧ s.Named l

theorem Streaming.serves_iff (h : Streaming devices s) (hs : s.step l = some s')
    (honly : Only devices l) : s.Serves l ↔ s.Careful l := by
  have hmoves := step_moves hs
  constructor
  · intro hserves
    obtain ⟨hattended, hcounts⟩ := hserves s' hs
    exact ⟨kept_of_attended hmoves hattended, named_of_counts hmoves hcounts⟩
  · rintro ⟨hkept, hnamed⟩ s'' hs'
    obtain rfl := Option.some.inj (hs.symm.trans hs')
    exact ⟨(h.step hmoves honly hkept).attended, h.counts hmoves hnamed⟩

theorem streaming_init {s₀ : DetectionServer F} (hinit : (detectionSystem F).init s₀)
    (hroom : devices.card ≤ s₀.sessionManager.maxDevices) : Streaming devices s₀ := by
  obtain ⟨heartbeatInterval, expiryTimeout, maxDevices, limits, clock, rfl⟩ := hinit
  constructor
  · exact fun st hst => absurd hst List.not_mem_nil
  · exact fun st hst => absurd hst List.not_mem_nil
  · exact fun e he => absurd he List.not_mem_nil
  · exact hroom

/-- With fewer devices than the manager allows, every open stream has its session
and every detection is counted exactly if all steps are careful. -/
theorem serves_iff_careful {t : List (DetectionServer F × DetectionAct F)} {s₀ : DetectionServer F}
    (hinit : (detectionSystem F).init s₀) (hrun : (detectionSystem F).Run s₀ t s)
    (hfewer : devices.card < s₀.sessionManager.maxDevices)
    (honly : TransitionSystem.Respects (fun _ l => Only devices l) t) :
    TransitionSystem.Respects Serves t ↔ TransitionSystem.Respects Careful t := by
  have hboth := hrun.respects_congr_of_respects (I := Streaming devices)
    (C := fun s l => Only devices l ∧ s.Serves l) (D := fun s l => Only devices l ∧ s.Careful l)
    (fun s l s' h hl hs => h.step (step_moves hs) hl.1 hl.2.1)
    (fun s l s' h hs => and_congr_right fun hl => h.serves_iff hs hl)
    (streaming_init hinit hfewer.le)
  rw [TransitionSystem.respects_and, TransitionSystem.respects_and] at hboth
  simpa [honly] using hboth

/-- A server with a limit of devices and no rate limiter. -/
def emptyServer (maxDevices : Nat) : DetectionServer ℚ where
  sessionManager := .new 10 30 maxDevices
  rateLimiter := none

theorem init_emptyServer (maxDevices : Nat) :
    (detectionSystem ℚ).init (emptyServer maxDevices) := ⟨10, 30, maxDevices, none, 0, rfl⟩

omit [CFloat F] in
theorem exists_processing_of_inProcess {d : String} (h : st.inProcess = some d) :
    ∃ result, st.phase = .processing result ∧ result.deviceId = d := by
  cases hphase : st.phase with
  | processing result =>
      simp only [ResultStream.inProcess, hphase] at h
      exact ⟨result, rfl, Option.some.inj h⟩
  | waiting | aborting | ended => simp [ResultStream.inProcess, hphase] at h

def detectionOf (deviceId : String) : DetectionResult ℚ where
  frameId := 1
  deviceId := deviceId
  traceId := ""
  timestampUs := 0
  boxes := []
  frameData := []

/-- A device connects, and one of its detections is processed. -/
def connectOnce : List (DetectionAct ℚ) :=
  [.registerDevice { deviceId := "cam" } none 0, .openStream, .message 0 (detectionOf "cam") 0 0,
    .processed 0 0, .endStream 0]

theorem serves_iff_careful_connectOnce :
    ∃ s₀ t s, (detectionSystem ℚ).init s₀ ∧ (detectionSystem ℚ).Run s₀ t s ∧
      t.map Prod.snd = connectOnce ∧
      ({"cam"} : Finset String).card < s₀.sessionManager.maxDevices ∧
      TransitionSystem.Respects (fun _ l => Only {"cam"} l) t ∧
      (TransitionSystem.Respects Serves t ↔ TransitionSystem.Respects Careful t) := by
  have hview : ((detectionSystem ℚ).execTrace (emptyServer 2) connectOnce).map (fun _ => ()) =
      some () := by decide +kernel
  obtain ⟨t, s, hrun, hlabels, -⟩ := TransitionSystem.exists_run_of_execTrace hview
  have hfewer : ({"cam"} : Finset String).card < (emptyServer 2).sessionManager.maxDevices := by
    decide
  have honly : TransitionSystem.Respects (fun _ l => Only {"cam"} l) t := by
    rw [TransitionSystem.respects_labels, hlabels]
    simp [connectOnce, Only, detectionOf]
  exact ⟨_, t, s, init_emptyServer 2, hrun, hlabels, hfewer, honly,
    serves_iff_careful (init_emptyServer 2) hrun hfewer honly⟩

/-- A device connects again, its old stream ends, and a message comes on the new one. -/
def reconnect : List (DetectionAct ℚ) :=
  [.openStream, .message 0 (detectionOf "cam") 0 0, .processed 0 0,
    .openStream, .message 1 (detectionOf "cam") 1 1, .processed 1 1,
    .endStream 0, .message 1 (detectionOf "cam") 2 2]

theorem only_reconnect : ∀ l ∈ reconnect ++ [.processed 1 2], Only {"cam"} l := by
  simp [reconnect, Only, detectionOf]

/-- The detection is processed, and its device has no session. -/
theorem not_counts_reconnect :
    ∃ s₀ t s, (detectionSystem ℚ).init s₀ ∧ (detectionSystem ℚ).Run s₀ t s ∧
      t.map Prod.snd = reconnect ++ [.processed 1 2] ∧
      ({"cam"} : Finset String).card < s₀.sessionManager.maxDevices ∧
      TransitionSystem.Respects (fun _ l => Only {"cam"} l) t ∧
      ¬ TransitionSystem.Respects (fun s l => ∀ s', s.step l = some s' → s.Counts l s') t := by
  have hview : ((detectionSystem ℚ).execTrace (emptyServer 16) reconnect).map (fun r =>
      (r.2.sessionManager.ids, r.2.streams[1]?.bind ResultStream.inProcess)) =
      some ([], some "cam") := by decide +kernel
  obtain ⟨t, s, hrun, hlabels, hlast⟩ := TransitionSystem.exists_run_of_execTrace hview
  obtain ⟨hids, hprocess⟩ := Prod.mk.inj hlast
  obtain ⟨st, hst, hprocess⟩ := Option.bind_eq_some_iff.mp hprocess
  obtain ⟨result, hphase, hdevice⟩ := exists_processing_of_inProcess hprocess
  have hstep : (detectionSystem ℚ).step s (.processed 1 2) = some (s.processed 1 st result 2) :=
    step_processed hst hphase
  have hlabels' : (t ++ [(s, DetectionAct.processed 1 2)]).map Prod.snd =
      reconnect ++ [.processed 1 2] := by
    rw [List.map_append, hlabels]
    rfl
  refine ⟨_, _, _, init_emptyServer 16, hrun.snoc hstep, hlabels', by decide, ?_, ?_⟩
  · rw [TransitionSystem.respects_labels, hlabels']
    exact only_reconnect
  · intro hcounts
    obtain ⟨before, after, hbefore, -⟩ :=
      (TransitionSystem.respects_snoc.mp hcounts).2 _ hstep st result hst hphase
    have hsession := DeviceSessionManager.mem_ids_iff.mpr ⟨before, hbefore⟩
    rw [hids] at hsession
    cases hsession

end DetectionServer
