-- SUMMARY: The limit of devices over all runs of the detection streams.
import NeuroPipeline.Central.StreamSessions

/-!
# The device limit

The manager never holds more sessions than it allows. A stream whose registration
is rejected goes on all the same, so that the limit holds for the detections only
while every stream is accepted and keeps its session.
-/

namespace DetectionServer

variable {F : Type} {s s' : DetectionServer F} {l : DetectionAct F} {st : ResultStream F}
  {result : DetectionResult F} {wall : ℚ}

/-! ## Specification -/

/-- The detection came on a stream that is still open. -/
def onOpenStream (s : DetectionServer F) (p : Passage) : Bool :=
  s.streams[p.stream]?.any ResultStream.isOpen

/-- The devices with detections on open streams. -/
def streamingDevices (s : DetectionServer F) : Finset String :=
  ((s.passed.filter s.onOpenStream).map Passage.deviceId).toFinset

structure Limited (s : DetectionServer F) : Prop where
  accepted : ∀ p ∈ s.passed, p.deviceId ∈ s.accepted
  within : s.streamingDevices.card ≤ s.sessionManager.maxDevices

/-- Every stream is accepted, names one device and keeps its session. -/
def Admits [CFloat F] (s : DetectionServer F) (l : DetectionAct F) : Prop :=
  s.Kept l ∧ s.Accepted l ∧ s.NamedOn l

/-! ## Accepted devices -/

theorem mem_accepted_register {r : DeviceRegistration} {e : String} :
    e ∈ (s.register r wall).accepted ↔
      e ∈ s.accepted ∨ (e = r.deviceId ∧ s.sessionManager.Accepts r.deviceId) := by
  simp only [register]
  rw [← DeviceSessionManager.register_eq_true_iff wall]
  split
  next haccepted => rw [List.mem_append, List.mem_singleton, and_iff_left haccepted]
  next hrejected => simp [hrejected]

theorem mem_accepted_identify {e : String} : e ∈ (s.identify st result wall).accepted ↔
    e ∈ s.accepted ∨ (st.deviceId = "" ∧ result.deviceId ≠ "" ∧ e = result.deviceId ∧
      s.sessionManager.Accepts result.deviceId) :=
  mem_identify_iff accepted fun _ => mem_accepted_register

/-! ## Invariant -/

/-- Sessions are of accepted devices, and what was passed on came on a stream of its device. -/
structure Admitted (s : DetectionServer F) : Prop where
  attended : s.Attended
  registered : ∀ e ∈ s.sessionManager.ids, e ∈ s.accepted
  accepted : ∀ p ∈ s.passed, p.deviceId ∈ s.accepted
  own : ∀ p ∈ s.passed, p.deviceId ≠ "" ∧
    ∃ st, s.streams[p.stream]? = some st ∧ st.deviceId = p.deviceId

theorem Admitted.limited (h : s.Admitted) : s.Limited where
  accepted := h.accepted
  within := by
    have hsub : s.streamingDevices ⊆ s.sessionManager.ids.toFinset := by
      intro d hd
      obtain ⟨p, hp, rfl⟩ := List.mem_map.mp (List.mem_toFinset.mp hd)
      obtain ⟨hpassed, hopen⟩ := List.mem_filter.mp hp
      obtain ⟨hne, st, hst, hid⟩ := h.own p hpassed
      rw [onOpenStream, hst, Option.any_some] at hopen
      rw [List.mem_toFinset, ← hid]
      exact h.attended st (List.mem_of_getElem? hst) hopen (hid ▸ hne)
    calc s.streamingDevices.card
        ≤ s.sessionManager.ids.toFinset.card := Finset.card_le_card hsub
      _ ≤ s.sessionManager.ids.length := List.toFinset_card_le _
      _ = s.sessionManager.sessions.length := List.length_map _
      _ ≤ s.sessionManager.maxDevices := s.sessionManager.bounded

variable [CFloat F]

/-- The accepted devices stay accepted, and new sessions are of accepted devices. -/
theorem accepted_step (h : ∀ e ∈ s.sessionManager.ids, e ∈ s.accepted) (hs : s.Moves l s') :
    (∀ e ∈ s.accepted, e ∈ s'.accepted) ∧ ∀ e ∈ s'.sessionManager.ids, e ∈ s'.accepted := by
  cases hs with
  | registerDevice r group wall =>
      obtain ⟨-, haccepted, -⟩ := registerDevice_fields s r group wall
      rw [haccepted, ids_registerDevice]
      refine ⟨fun e he => mem_accepted_register.mpr (.inl he), fun e he => ?_⟩
      exact mem_accepted_register.mpr ((mem_ids_register.mp he).imp_left (h e))
  | openStream => exact ⟨fun e he => he, h⟩
  | @message i st result wall now hst hphase hclock =>
      obtain ⟨haccepted, -⟩ := message_fields s i result wall now hphase
      rw [haccepted, message_sessionManager hphase]
      refine ⟨fun e he => mem_accepted_identify.mpr (.inl he), fun e he => ?_⟩
      exact mem_accepted_identify.mpr ((mem_ids_identify.mp he).imp_left (h e))
  | @processed i st result wall hst hphase =>
      have hids : (s.processed i st result wall).sessionManager.ids = s.sessionManager.ids :=
        DeviceSessionManager.ids_count
      exact ⟨fun e he => he, fun e he => h e (hids ▸ he)⟩
  | @endStream i st hst hopen => exact ⟨fun e he => he, fun e he => h e (mem_ids_endStream.mp he).1⟩
  | cleanupExpired wall =>
      refine ⟨fun e he => he, fun e he => ?_⟩
      obtain ⟨session, hsession, rfl, -⟩ := DeviceSessionManager.mem_ids_cleanupExpired.mp he
      exact h _ (List.mem_map_of_mem hsession)

/-- What a step passes on. -/
theorem passed_step (hs : s.Moves l s') {p : Passage} (hp : p ∈ s'.passed) :
    p ∈ s.passed ∨ ∃ i st result wall now, l = .message i result wall now ∧
      s.streams[i]? = some st ∧ st.phase = .waiting ∧ s.passes st result now = true ∧
      p.stream = i ∧ p.deviceId = result.deviceId ∧ s' = s.message i st result wall now := by
  cases hs with
  | registerDevice r group wall =>
      obtain ⟨-, -, hpassed, -⟩ := registerDevice_fields s r group wall
      exact .inl (hpassed ▸ hp)
  | @message i st result wall now hst hphase hclock =>
      rw [message_passed s i result wall now hphase] at hp
      rcases List.mem_append.mp hp with hbefore | hnew
      · exact .inl hbefore
      · cases hpasses : s.passes st result now with
        | false =>
            rw [hpasses, if_neg Bool.false_ne_true] at hnew
            cases hnew
        | true =>
            rw [hpasses, if_pos rfl] at hnew
            obtain rfl := List.mem_singleton.mp hnew
            exact .inr ⟨i, st, result, wall, now, rfl, hst, hphase, hpasses, rfl, rfl, rfl⟩
  | openStream | processed | endStream | cleanupExpired => exact .inl hp

/-- The device of a detection that is passed on is the one of its stream, and has a session. -/
theorem Admitted.session_of_passes (h : s.Admitted) {i : Nat} {now : ℚ}
    (hl : s.Admits (.message i result wall now)) (hst : s.streams[i]? = some st)
    (hphase : st.phase = .waiting) (hpasses : s.passes st result now = true) :
    st.identified result = result.deviceId ∧
      result.deviceId ∈ (s.message i st result wall now).sessionManager.ids := by
  obtain ⟨-, haccepted, hnamed⟩ := hl
  have hsame : st.identified result = result.deviceId := by
    by_cases hempty : st.deviceId = ""
    · rw [ResultStream.identified, if_pos hempty]
    · rw [identified_of_ne hempty]
      exact (hnamed st hst hempty hpasses).symm
  have hsession := identified_mem_ids wall
    (h.attended st (List.mem_of_getElem? hst) (isOpen_of_waiting hphase)) (haccepted st hst)
    (identified_ne_of_passes hpasses)
  rw [message_sessionManager hphase, ← hsame]
  exact ⟨rfl, hsession⟩

theorem Admitted.step (h : s.Admitted) (hs : s.Moves l s') (hl : s.Admits l) : s'.Admitted := by
  have hattended := attended_step h.attended hs hl.2.1 hl.1
  obtain ⟨hmono, hregistered⟩ := accepted_step h.registered hs
  constructor
  · exact hattended
  · exact hregistered
  · intro p hp
    rcases passed_step hs hp with hbefore | ⟨i, st, result, wall, now, rfl, hst, hphase, hpasses, -,
      hdevice, rfl⟩
    · exact hmono _ (h.accepted p hbefore)
    · rw [hdevice]
      exact hregistered _ (h.session_of_passes hl hst hphase hpasses).2
  · intro p hp
    rcases passed_step hs hp with hbefore | ⟨i, st, result, wall, now, rfl, hst, hphase, hpasses,
      rfl, hdevice, rfl⟩
    · obtain ⟨hne, st, hst, hid⟩ := h.own p hbefore
      obtain ⟨st', hst', hid'⟩ := device_step hs hst (hid ▸ hne)
      exact ⟨hne, st', hst', hid'.trans hid⟩
    · have hsame := (h.session_of_passes hl hst hphase hpasses).1
      obtain ⟨phase, hstreams, -⟩ := message_streams s p.stream result wall now hphase
      obtain ⟨hlt, -⟩ := List.getElem?_eq_some_iff.mp hst
      rw [hdevice, hstreams, List.getElem?_set_self hlt]
      exact ⟨hsame ▸ identified_ne_of_passes hpasses, _, rfl, hsame⟩

theorem admitted_init {s₀ : DetectionServer F} (hinit : (detectionSystem F).init s₀) :
    s₀.Admitted := by
  obtain ⟨heartbeatInterval, expiryTimeout, maxDevices, limits, clock, rfl⟩ := hinit
  constructor
  · exact fun st hst => absurd hst List.not_mem_nil
  · exact fun e he => absurd he List.not_mem_nil
  · exact fun p hp => absurd hp List.not_mem_nil
  · exact fun p hp => absurd hp List.not_mem_nil

/-- In every run in which each stream is accepted, names one device and keeps its
session, detections are of accepted devices only, and of no more than are allowed. -/
theorem limited_of_admits {t : List (DetectionServer F × DetectionAct F)} {s₀ : DetectionServer F}
    (hinit : (detectionSystem F).init s₀) (hrun : (detectionSystem F).Run s₀ t s)
    (hadmits : TransitionSystem.Respects Admits t) : s.Limited := by
  have hadmitted : s.Admitted := hrun.invariant_of_respects
    (fun s l s' h hl hs => h.step (step_moves hs) hl) (admitted_init hinit) hadmits
  exact hadmitted.limited

/-- The server with one stream that has seen no message. -/
def oneStream : DetectionServer ℚ := { emptyServer 1 with streams := [{}] }

theorem limited_of_admits_oneStream :
    ∃ s₀ t s, (detectionSystem ℚ).init s₀ ∧ (detectionSystem ℚ).Run s₀ t s ∧
      t.map Prod.snd = [.openStream, .message 0 (detectionOf "cam") 0 0] ∧
      TransitionSystem.Respects Admits t ∧ s.Limited := by
  have hopen : (detectionSystem ℚ).step (emptyServer 1) .openStream = some oneStream := rfl
  have hmessage : (detectionSystem ℚ).step oneStream (.message 0 (detectionOf "cam") 0 0) =
      some (oneStream.message 0 {} (detectionOf "cam") 0 0) := rfl
  have hrun := (TransitionSystem.Run.nil.snoc hopen).snoc hmessage
  have hadmits : TransitionSystem.Respects Admits
      (([] ++ [(emptyServer 1, .openStream)]) ++
        [(oneStream, .message 0 (detectionOf "cam") 0 0)]) := by
    rw [TransitionSystem.respects_snoc, TransitionSystem.respects_snoc]
    refine ⟨⟨TransitionSystem.respects_nil, trivial, trivial, trivial⟩, trivial, ?_, ?_⟩
    · exact fun st _ _ _ => .inr Nat.one_pos
    · intro st hst hne
      obtain rfl := Option.some.inj hst
      exact absurd rfl hne
  exact ⟨_, _, _, init_emptyServer 1, hrun, rfl, hadmits,
    limited_of_admits (init_emptyServer 1) hrun hadmits⟩

/-! ## One device too many -/

/-- Two devices send to a server that allows one. -/
def secondDevice : List (DetectionAct ℚ) :=
  [.openStream, .message 0 (detectionOf "cam") 0 0, .openStream,
    .message 1 (detectionOf "door") 0 0]

/-- The second is rejected, and its detection is passed on. -/
theorem not_limited_secondDevice :
    ∃ s₀ t s, (detectionSystem ℚ).init s₀ ∧ (detectionSystem ℚ).Run s₀ t s ∧
      t.map Prod.snd = secondDevice ∧ s₀.sessionManager.maxDevices = 1 ∧
      s.streamingDevices.card = 2 ∧ "door" ∉ s.accepted ∧ ¬ s.Limited := by
  have hview : ((detectionSystem ℚ).execTrace (emptyServer 1) secondDevice).map (fun r =>
      (r.2.sessionManager.maxDevices, r.2.streamingDevices.card, r.2.accepted)) =
      some (1, 2, ["cam"]) := by decide +kernel
  obtain ⟨t, s, hrun, hlabels, hlast⟩ := TransitionSystem.exists_run_of_execTrace hview
  simp only [Prod.mk.injEq] at hlast
  obtain ⟨hmax, hcard, haccepted⟩ := hlast
  refine ⟨_, t, s, init_emptyServer 1, hrun, hlabels, rfl, hcard, ?_, ?_⟩
  · rw [haccepted]
    decide
  · intro hlimited
    have hwithin := hlimited.within
    rw [hcard, hmax] at hwithin
    omega

end DetectionServer
