-- SUMMARY: The client as the loop uses it: called only while connected, it never reconnects.
import NeuroPipeline.Edge.Run

/-!
# The client inside the loop

The loop calls `StreamDetection` only while the client is connected, and nobody
else connects or closes it. The branch of `StreamDetection` that reconnects and
drains the queue is therefore never entered, and a stream that a result was
written on stays open until the call returns.
-/

namespace Pc

variable {R : Type}

/-- In the branch that reconnects. -/
def reconnecting : Pc R → Bool
  | .sleeping _ | .draining _ | .drained _ _ | .drainPutBack _ _ | .relock _ => true
  | _ => false

/-- Between the write of the result and the second look at the stream. -/
def afterWrite : Pc R → Bool
  | .wrote | .taking | .taken _ => true
  | _ => false

theorem afterWrite_of_rechecks {pc : Pc R} (h : pc.rechecks = true) : pc.afterWrite = true := by
  cases pc with
  | taken queued => rfl
  | _ => cases h

end Pc

namespace ClientSystem

variable {R : Type} {codec : Codec R}

/-- What holds of the one thread that calls the client from the loop. -/
structure Attended (s : ClientSystem codec Unit) : Prop where
  entry : ∀ r, s.threads () = .entry r → s.client.connected = true
  steady : (s.threads ()).reconnecting = false
  live : (s.threads ()).afterWrite = true → s.client.detectionStream.live = true
  stub : s.client.connected = true → s.client.stub.isSome = true
  stream : ∀ ch, s.client.detectionStream.stream = some ch → s.client.stub = some ch
  written : ∀ w ∈ s.written, s.client.stub = some w.1

/-- The connection that a step leaves alone. -/
structure SameConnection (c c' : GrpcClient codec) : Prop where
  stub : c'.stub = c.stub
  connected : c'.connected = true → c.connected = true
  eventStream : c'.eventStream = c.eventStream
  eventStreamActive : c'.eventStreamActive = c.eventStreamActive
  readerJoinable : c'.readerJoinable = c.readerJoinable

theorem SameConnection.refl (c : GrpcClient codec) : SameConnection c c :=
  ⟨rfl, id, rfl, rfl, rfl⟩

/-- Opening the stream touches nothing but the stream, which is then that of the stub. -/
theorem openStream_connection (c : GrpcClient codec) (o : Outcome) :
    SameConnection c (c.openStream o).1 ∧ (c.openStream o).1.connected = c.connected ∧
      ((∀ ch, c.detectionStream.stream = some ch → c.stub = some ch) →
        ∀ ch, (c.openStream o).1.detectionStream.stream = some ch → c.stub = some ch) := by
  unfold GrpcClient.openStream
  split
  · exact ⟨.refl c, rfl, id⟩
  · split
    next => exact ⟨.refl c, rfl, id⟩
    next ch hstub =>
      split
      · refine ⟨⟨rfl, id, rfl, rfl, rfl⟩, rfl, ?_⟩
        intro _ ch' hch'
        cases hch'
        exact hstub
      · refine ⟨⟨rfl, id, rfl, rfl, rfl⟩, rfl, ?_⟩
        intro _ ch' hch'
        cases hch'

theorem closeStream_stream (c : GrpcClient codec) :
    SameConnection c c.closeStream ∧ c.closeStream.detectionStream.stream = none := by
  unfold GrpcClient.closeStream
  split
  next => exact ⟨⟨rfl, id, rfl, rfl, rfl⟩, rfl⟩
  next hopen =>
    refine ⟨.refl c, ?_⟩
    have h := c.detectionStream.open_iff
    cases hstream : c.detectionStream.stream with
    | none => rfl
    | some ch =>
        rw [hstream] at h
        exact absurd h hopen

theorem writeLocked_attended {s : ClientSystem codec Unit} {o : Outcome} {r : R}
    (h : s.Attended) :
    (s.writeLocked () o r).Attended ∧ SameConnection s.client (s.writeLocked () o r).client := by
  obtain ⟨hsame, hconnected, hstream⟩ := openStream_connection s.client o
  have hstream := hstream h.stream
  unfold writeLocked
  split
  next c hopen =>
    rw [hopen] at hsame hstream
    refine ⟨⟨?_, rfl, ?_, ?_, ?_, ?_⟩, ⟨hsame.stub, ?_, hsame.eventStream, hsame.eventStreamActive,
      hsame.readerJoinable⟩⟩
    · intro r' hr'
      simp [goto] at hr'
    · intro hafter
      simp [goto, Pc.afterWrite] at hafter
    · intro hconn
      cases hconn
    · intro ch hch
      exact hsame.stub.trans (hstream ch hch)
    · intro w hw
      exact hsame.stub.trans (h.written w hw)
    · intro hconn
      cases hconn
  next c hopen =>
    have hlive := GrpcClient.openStream_live hopen
    rw [hopen] at hsame hconnected hstream
    split
    · refine ⟨⟨?_, rfl, fun _ => hlive, ?_, ?_, ?_⟩, hsame⟩
      · intro r' hr'
        simp [goto] at hr'
      · intro hconn
        have hstub := h.stub (hsame.connected hconn)
        rw [← hsame.stub] at hstub
        exact hstub
      · intro ch hch
        exact hsame.stub.trans (hstream ch hch)
      · intro w hw
        rcases List.mem_append.mp hw with hw | hw
        · exact hsame.stub.trans (h.written w hw)
        · rw [List.mem_singleton.mp hw]
          obtain ⟨ch, hch⟩ := DetectionStream.exists_of_live hlive
          have hget : (s.withClient c).client.detectionStream.stream.getD 0 = ch := by
            simp [withClient, hch]
          rw [hget]
          exact hsame.stub.trans (hstream ch hch)
    · obtain ⟨hclose, hnone⟩ := closeStream_stream c
      refine ⟨⟨?_, rfl, ?_, ?_, ?_, ?_⟩, ⟨hclose.stub.trans hsame.stub, ?_,
        hclose.eventStream.trans hsame.eventStream,
        hclose.eventStreamActive.trans hsame.eventStreamActive,
        hclose.readerJoinable.trans hsame.readerJoinable⟩⟩
      · intro r' hr'
        simp [goto] at hr'
      · intro hafter
        simp [goto, Pc.afterWrite] at hafter
      · intro hconn
        cases hconn
      · intro ch hch
        rw [show (goto _ () (Pc.buffering r)).client.detectionStream.stream =
          c.closeStream.detectionStream.stream from rfl, hnone] at hch
        cases hch
      · intro w hw
        exact (hclose.stub.trans hsame.stub).trans (h.written w hw)
      · intro hconn
        cases hconn

/-- A step that touches the queue and the thread only. -/
theorem attended_of_same {s s' : ClientSystem codec Unit} {q : DetectionQueue codec} {pc : Pc R}
    (h : s.Attended) (hclient : s'.client = { s.client with queue := q })
    (hthreads : s'.threads = Function.update s.threads () pc) (hwritten : s'.written = s.written)
    (hentry : ∀ r, pc ≠ .entry r) (hsteady : pc.reconnecting = false)
    (hafter : pc.afterWrite = true → (s.threads ()).afterWrite = true) :
    s'.Attended ∧ SameConnection s.client s'.client := by
  have hpc : s'.threads () = pc := by rw [hthreads, Function.update_self]
  refine ⟨⟨?_, ?_, ?_, ?_, ?_, ?_⟩, ?_⟩
  · intro r hr
    exact absurd (hpc.symm.trans hr) (hentry r)
  · rw [hpc]
    exact hsteady
  · intro haft
    rw [hpc] at haft
    rw [hclient]
    exact h.live (hafter haft)
  · rw [hclient]
    exact h.stub
  · rw [hclient]
    exact h.stream
  · rw [hclient, hwritten]
    exact h.written
  · rw [hclient]
    exact ⟨rfl, id, rfl, rfl, rfl⟩

/-- A step inside of `StreamDetection` keeps the connection, or loses it. -/
theorem runThread_attended {s s' : ClientSystem codec Unit} {o : Outcome} (h : s.Attended)
    (hstep : s.runThread () o = some s') : s'.Attended ∧ SameConnection s.client s'.client := by
  have hsteady := h.steady
  unfold runThread at hstep
  cases hpc : s.threads () with
  | idle => simp [hpc] at hstep
  | entry r =>
      simp only [hpc, h.entry r hpc, if_true] at hstep
      split at hstep
      · cases hstep
      · cases hstep
        exact writeLocked_attended h
  | sleeping r => simp [hpc, Pc.reconnecting] at hsteady
  | draining r => simp [hpc, Pc.reconnecting] at hsteady
  | drained r q => simp [hpc, Pc.reconnecting] at hsteady
  | drainPutBack r q => simp [hpc, Pc.reconnecting] at hsteady
  | relock r => simp [hpc, Pc.reconnecting] at hsteady
  | buffering r =>
      simp only [hpc, Option.map_eq_some_iff] at hstep
      obtain ⟨⟨q, ok⟩, -, rfl⟩ := hstep
      exact attended_of_same h rfl rfl rfl (by simp) rfl (by simp [Pc.afterWrite])
  | wrote =>
      simp only [hpc] at hstep
      split at hstep
      all_goals
        cases hstep
        refine attended_of_same h rfl rfl rfl (by simp) rfl ?_
        intro _
        rw [hpc]
        rfl
  | taking =>
      simp only [hpc] at hstep
      split at hstep
      all_goals
        cases hstep
        refine attended_of_same h rfl rfl rfl (by simp) rfl ?_
        intro _
        rw [hpc]
        rfl
  | taken queued =>
      simp only [hpc] at hstep
      split at hstep
      · cases hstep
      split at hstep
      next hlive =>
        split at hstep
        · cases hstep
          obtain ⟨ch, hch⟩ := DetectionStream.exists_of_live hlive
          refine ⟨⟨?_, rfl, ?_, h.stub, h.stream, ?_⟩, .refl _⟩
          · intro r hr
            simp [goto] at hr
          · intro hafter
            simp [goto, Pc.afterWrite] at hafter
          · intro w hw
            rcases List.mem_append.mp hw with hw | hw
            · exact h.written w hw
            · rw [List.mem_singleton.mp hw, hch]
              exact h.stream ch hch
        · cases hstep
          exact attended_of_same h rfl rfl rfl (by simp) rfl (by simp [Pc.afterWrite])
      next =>
        cases hstep
        exact attended_of_same h rfl rfl rfl (by simp) rfl (by simp [Pc.afterWrite])
  | putBack queued =>
      simp only [hpc, Option.map_eq_some_iff] at hstep
      obtain ⟨⟨q, ok⟩, -, rfl⟩ := hstep
      exact attended_of_same h rfl rfl rfl (by simp) rfl (by simp [Pc.afterWrite])
  | leaving =>
      simp only [hpc] at hstep
      split at hstep
      · cases hstep
      · cases hstep
        exact attended_of_same h rfl rfl rfl (by simp) rfl (by simp [Pc.afterWrite])

/-- A call that begins while the client is connected. -/
theorem attended_of_call {s s' : ClientSystem codec Unit} {r : R} (h : s.Attended)
    (hconnected : s.client.connected = true)
    (hcall : s.step (.streamDetection () r) = some s') :
    s'.Attended ∧ s'.client = s.client := by
  obtain ⟨-, hthreads, -, hwritten, hsame⟩ := step_call hcall
  have hentry : s'.threads () = .entry r := by rw [hthreads, Function.update_self]
  refine ⟨⟨?_, ?_, ?_, ?_, ?_, ?_⟩, hsame⟩
  · intro r' _
    rw [hsame]
    exact hconnected
  · rw [hentry]
    rfl
  · intro hafter
    rw [hentry] at hafter
    cases hafter
  · rw [hsame]
    exact h.stub
  · rw [hsame]
    exact h.stream
  · rw [hsame, hwritten]
    exact h.written

/-- A call of the client's other methods, made while no thread is in `StreamDetection`. -/
theorem attended_of_idle {s s' : ClientSystem codec Unit} (h : s.Attended)
    (hidle : s'.threads () = .idle) (hwritten : s'.written = s.written)
    (hstub : s'.client.stub = s.client.stub)
    (hconnected : s'.client.connected = true → s.client.connected = true)
    (hstream : s'.client.detectionStream.stream = s.client.detectionStream.stream ∨
      s'.client.detectionStream.stream = none) : s'.Attended := by
  refine ⟨?_, ?_, ?_, ?_, ?_, ?_⟩
  · intro r hr
    rw [hidle] at hr
    cases hr
  · rw [hidle]
    rfl
  · intro hafter
    rw [hidle] at hafter
    cases hafter
  · intro hconn
    rw [hstub]
    exact h.stub (hconnected hconn)
  · intro ch hch
    rw [hstub]
    rcases hstream with hsame | hnone
    · exact h.stream ch (hsame ▸ hch)
    · rw [hnone] at hch
      cases hch
  · rw [hwritten, hstub]
    exact h.written

theorem connect_stub {c : GrpcClient codec} {o : Outcome} (hbefore : c.connected = false)
    (h : (c.connect o).1.connected = true) : (c.connect o).1.stub.isSome = true := by
  unfold GrpcClient.connect GrpcClient.establish GrpcClient.createChannel at h ⊢
  simp only [hbefore, Bool.false_eq_true, if_false] at h ⊢
  cases hcreated : o.channelCreated with
  | false => simp [hcreated] at h
  | true =>
      simp only [hcreated, if_true] at h ⊢
      split
      · rfl
      · split <;> rfl

theorem connect_detectionStream (c : GrpcClient codec) (o : Outcome) :
    (c.connect o).1.detectionStream = c.detectionStream := by
  unfold GrpcClient.connect GrpcClient.establish GrpcClient.createChannel
  cases c.connected <;> cases o.channelCreated <;> cases o.channelReady <;> simp
  split <;> rfl

/-- The client's other methods, by what they do to the connection. -/
structure OtherCall (s s' : ClientSystem codec Unit) : Prop where
  threads : s'.threads = s.threads
  written : s'.written = s.written
  stub : s'.client.stub = s.client.stub
  connected : s'.client.connected = true → s.client.connected = true
  stream : s'.client.detectionStream.stream = s.client.detectionStream.stream ∨
    s'.client.detectionStream.stream = none

theorem OtherCall.attended {s s' : ClientSystem codec Unit} (h : OtherCall s s')
    (hidle : s.threads () = .idle) (hattended : s.Attended) : s'.Attended := by
  have hidle' : s'.threads () = .idle := by rw [h.threads, hidle]
  exact attended_of_idle hattended hidle' h.written h.stub h.connected h.stream

theorem flushStream_connection (c : GrpcClient codec) (o : Outcome) :
    (c.flushStream o).1.stub = c.stub ∧
      ((c.flushStream o).1.connected = true → c.connected = true) ∧
      ((c.flushStream o).1.detectionStream.stream = c.detectionStream.stream ∨
        (c.flushStream o).1.detectionStream.stream = none) := by
  unfold GrpcClient.flushStream
  split
  · split
    · exact ⟨rfl, id, .inr rfl⟩
    · refine ⟨rfl, ?_, .inr rfl⟩
      intro hconn
      cases hconn
  · exact ⟨rfl, id, .inl rfl⟩

theorem flushStream_otherCall {s s' : ClientSystem codec Unit} {o : Outcome}
    (h : s.step (.flushStream o) = some s') : OtherCall s s' := by
  simp only [step] at h
  split at h
  · cases h
  cases h
  obtain ⟨hstub, hconnected, hstream⟩ := flushStream_connection s.client o
  exact ⟨rfl, rfl, hstub, hconnected, hstream⟩

theorem startEventStream_otherCall {s s' : ClientSystem codec Unit} {o : Outcome}
    (h : s.step (.startEventStream o) = some s') : OtherCall s s' := by
  simp only [step] at h
  split at h
  · cases h
  obtain ⟨⟨c, ok⟩, hstart, rfl⟩ := Option.map_eq_some_iff.mp h
  unfold GrpcClient.startEventStream at hstart
  split at hstart
  · obtain ⟨rfl, -⟩ := Prod.mk.inj (Option.some.inj hstart)
    exact ⟨rfl, rfl, rfl, id, .inl rfl⟩
  split at hstart
  · obtain ⟨rfl, -⟩ := Prod.mk.inj (Option.some.inj hstart)
    exact ⟨rfl, rfl, rfl, id, .inl rfl⟩
  split at hstart
  · obtain ⟨rfl, -⟩ := Prod.mk.inj (Option.some.inj hstart)
    exact ⟨rfl, rfl, rfl, id, .inl rfl⟩
  split at hstart
  · cases hstart
  · obtain ⟨rfl, -⟩ := Prod.mk.inj (Option.some.inj hstart)
    exact ⟨rfl, rfl, rfl, id, .inl rfl⟩

theorem stopEventStream_otherCall {s s' : ClientSystem codec Unit}
    (h : s.step .stopEventStream = some s') : OtherCall s s' := by
  simp only [step] at h
  split at h
  · cases h
  cases h
  exact ⟨rfl, rfl, rfl, id, .inl rfl⟩

/-- The reader thread may end while a call is under way. -/
theorem eventReaderEnds_attended {s s' : ClientSystem codec Unit} (h : s.Attended)
    (hstep : s.step .eventReaderEnds = some s') : s'.Attended ∧ OtherCall s s' := by
  cases hstep
  have hattended : ClientSystem.Attended { s with client := s.client.eventReaderEnds } :=
    ⟨h.entry, h.steady, h.live, h.stub, h.stream, h.written⟩
  exact ⟨hattended, ⟨rfl, rfl, rfl, id, .inl rfl⟩⟩

end ClientSystem

namespace EdgeSystem

variable {F : Type} [CFloat F] {P : Platform F}

/-- The client's thread is inside of `StreamDetection` only while the loop waits for it. -/
structure Loop (s : EdgeSystem P) : Prop where
  idle : s.pc ≠ .sending → s.pc ≠ .terminated → s.client.threads () = .idle
  attended : s.client.Attended
  fresh : s.pc = .starting → s.client.client.connected = false ∧
    s.client.client.detectionStream.stream = none ∧ s.client.written = []

theorem loop_new (P : Platform F) (c : Coordinator F) : Loop (new P c) where
  idle _ _ := rfl
  attended := by
    refine ⟨?_, rfl, ?_, ?_, ?_, ?_⟩
    · intro r hr
      cases hr
    · intro hafter
      cases hafter
    · intro hconn
      cases hconn
    · intro ch hch
      cases hch
    · intro w hw
      cases hw
  fresh _ := ⟨rfl, rfl, rfl⟩

/-- A step after the first connect keeps the connection, or loses it. -/
def KeepsConnection (s s' : EdgeSystem P) : Prop :=
  s'.client.client.stub = s.client.client.stub ∧
    (s'.client.client.connected = true → s.client.client.connected = true)

/-- A step that leaves the client alone. -/
theorem loop_of_same {s s' : EdgeSystem P} (h : s.Loop) (hclient : s'.client = s.client)
    (hidle : s'.pc ≠ .sending → s'.pc ≠ .terminated → s.client.threads () = .idle)
    (hpc : s'.pc ≠ .starting ∨ s.pc = .starting) : s'.Loop ∧ KeepsConnection s s' := by
  refine ⟨⟨?_, hclient ▸ h.attended, ?_⟩, ?_⟩
  · rw [hclient]
    exact hidle
  · intro hstarting
    rw [hclient]
    exact h.fresh (hpc.resolve_left (not_not.mpr hstarting))
  · simp [KeepsConnection, hclient]

/-- A call of one of the client's other methods, by the loop. -/
theorem loop_of_callClient {s s' : EdgeSystem P} {guard : Bool}
    {act : ClientAct (DetectionResult F) Unit} {pc : RunPc} (h : s.Loop)
    (hcalls : s.pc ≠ .sending ∧ s.pc ≠ .terminated) (hpc : pc ≠ .starting)
    (hact : ∀ client, s.client.step act = some client → ClientSystem.OtherCall s.client client)
    (hcall : s.callClient guard act pc = some s') : s'.Loop ∧ KeepsConnection s s' := by
  have hidle := h.idle hcalls.1 hcalls.2
  unfold callClient at hcall
  split at hcall
  next =>
    obtain ⟨client, hstep, rfl⟩ := Option.map_eq_some_iff.mp hcall
    have hother := hact client hstep
    refine ⟨⟨?_, hother.attended hidle h.attended, ?_⟩, hother.stub, hother.connected⟩
    · intro _ _
      exact (congrFun hother.threads ()).trans hidle
    · intro hstarting
      exact absurd hstarting hpc
  next =>
    cases hcall
    exact loop_of_same h rfl (fun _ _ => hidle) (.inl hpc)

/-- The first connect finds a client that was never used. -/
theorem loop_of_connect {s s' : EdgeSystem P} {o : Outcome} (h : s.Loop) (hstart : s.pc = .starting)
    (hcall : s.callClient s.coordinator.config.grpcEnabled (.connect o) .starts = some s') :
    s'.Loop := by
  have hidle : s.client.threads () = .idle := h.idle (by simp [hstart]) (by simp [hstart])
  obtain ⟨hunconnected, hnostream, hunwritten⟩ := h.fresh hstart
  unfold callClient at hcall
  split at hcall
  next =>
    obtain ⟨client, hstep, rfl⟩ := Option.map_eq_some_iff.mp hcall
    simp only [ClientSystem.step] at hstep
    split at hstep
    · cases hstep
    cases hstep
    refine ⟨fun _ _ => hidle, ⟨?_, ?_, ?_, ?_, ?_, ?_⟩, fun hstarting => by cases hstarting⟩
    · intro r hr
      exact absurd (hidle.symm.trans hr) (by simp)
    · exact hidle ▸ rfl
    · intro hafter
      exact absurd (hidle ▸ hafter) (by simp [Pc.afterWrite])
    · exact ClientSystem.connect_stub hunconnected
    · intro ch hch
      have hnone : (s.client.client.connect o).1.detectionStream.stream = none := by
        rw [ClientSystem.connect_detectionStream, hnostream]
      exact absurd (hnone.symm.trans hch) (by simp)
    · intro w hw
      have hnone : w ∈ s.client.written := hw
      rw [hunwritten] at hnone
      cases hnone
  next =>
    cases hcall
    exact ⟨fun _ _ => hidle, h.attended, fun hstarting => by cases hstarting⟩

variable [OfNumeral F]

/-- Every step keeps the invariant, and all but the first connect keep the connection. -/
theorem step_loop {s s' : EdgeSystem P} {l : EdgeAct F} (h : s.Loop) (hs : s.step l = some s') :
    s'.Loop ∧ ((∀ o, l ≠ .connect o) → KeepsConnection s s') := by
  cases step_moves hs with
  | @connect o _ hpc hcall =>
      exact ⟨loop_of_connect h hpc hcall, fun hne => absurd rfl (hne o)⟩
  | startEventStream hpc hcall =>
      have hloop := loop_of_callClient h (by simp [hpc]) (by simp)
        (fun _ => ClientSystem.startEventStream_otherCall) hcall
      exact ⟨hloop.1, fun _ => hloop.2⟩
  | flushStream hpc hcall =>
      have hloop := loop_of_callClient h (by simp [hpc]) (by simp)
        (fun _ => ClientSystem.flushStream_otherCall) hcall
      exact ⟨hloop.1, fun _ => hloop.2⟩
  | stopEventStream hpc hcall =>
      have hloop := loop_of_callClient h (by simp [hpc]) (by simp)
        (fun _ => ClientSystem.stopEventStream_otherCall) hcall
      exact ⟨hloop.1, fun _ => hloop.2⟩
  | frame htop hframe =>
      have hidle := h.idle (by simp [htop]) (by simp [htop])
      cases frame_effect htop hframe with
      | nothing _ _ hclient hpc =>
          have hpc' : s'.pc ≠ .starting := by rcases hpc with hpc | hpc <;> simp [hpc]
          have hloop := loop_of_same h hclient (fun _ _ => hidle) (.inl hpc')
          exact ⟨hloop.1, fun _ => hloop.2⟩
      | quiet a _ _ _ hclient hpc =>
          have hloop := loop_of_same h hclient (fun _ _ => hidle) (.inl (by simp [hpc]))
          exact ⟨hloop.1, fun _ => hloop.2⟩
      | hands a result _ hhanded _ hclient hpc =>
          have hconnected := connected_of_linkUp (linkUp_of_handedResult hhanded)
          obtain ⟨hattended, hsame⟩ :=
            ClientSystem.attended_of_call h.attended hconnected hclient
          refine ⟨⟨?_, hattended, ?_⟩, fun _ => ?_⟩
          · intro hne
            exact absurd hpc hne
          · intro hstarting
            rw [hpc] at hstarting
            cases hstarting
          · simp [KeepsConnection, hsame]
  | client hpc hclient =>
      obtain ⟨hattended, hsame⟩ := ClientSystem.runThread_attended h.attended hclient
      refine ⟨⟨?_, hattended, ?_⟩, fun _ => ⟨hsame.stub, hsame.connected⟩⟩
      · intro hne _
        simp only [withClient, sendingPc] at hne ⊢
        split at hne
        next hidle => exact hidle
        next => exact absurd rfl hne
      · intro hstarting
        simp only [withClient, sendingPc] at hstarting
        split at hstarting <;> cases hstarting
  | eventReaderEnds _ hclient =>
      obtain ⟨hattended, hother⟩ := ClientSystem.eventReaderEnds_attended h.attended hclient
      refine ⟨⟨?_, hattended, ?_⟩, fun _ => ⟨hother.stub, hother.connected⟩⟩
      · intro hsending hterminated
        exact (congrFun hother.threads ()).trans (h.idle hsending hterminated)
      · intro hstarting
        cases hclient
        exact h.fresh hstarting
  | finish hpc =>
      have hidle := h.idle (by simp [hpc]) (by simp [hpc])
      have hpc' : s.finish.pc ≠ .starting := by
        simp only [finish]
        split <;> simp
      exact ⟨⟨fun _ _ => hidle, h.attended, fun hstarting => absurd hstarting hpc'⟩,
        fun _ => ⟨rfl, id⟩⟩
  | leave hpc =>
      have hidle := h.idle (by simp [hpc]) (by simp [hpc])
      exact ⟨⟨fun _ _ => hidle, h.attended, fun hstarting => by cases hstarting⟩,
        fun _ => ⟨rfl, id⟩⟩
  | command =>
      unfold command
      split
      · exact ⟨⟨h.idle, h.attended, h.fresh⟩, fun _ => ⟨rfl, id⟩⟩
      · refine ⟨⟨?_, h.attended, ?_⟩, fun _ => ⟨rfl, id⟩⟩
        · intro _ hne
          exact absurd rfl hne
        · intro hstarting
          cases hstarting
  | stop => exact ⟨⟨h.idle, h.attended, h.fresh⟩, fun _ => ⟨rfl, id⟩⟩

theorem loop_of_reachable {config : PipelineConfig F} {s : EdgeSystem P}
    (h : (edgeSystem P config).Reachable s) : s.Loop := by
  apply h.invariant
  · rintro s₀ ⟨_, _, _, c, -, rfl⟩
    exact loop_new P c
  · intro s l s' hloop hs
    exact (step_loop hloop hs).1

end EdgeSystem
