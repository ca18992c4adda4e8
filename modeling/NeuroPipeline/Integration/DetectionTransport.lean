-- SUMMARY: Detections on their way from the edges to the listeners: where each accepted result is, and what a listener hears of it.
import NeuroPipeline.Central.DetectionProcessor
import NeuroPipeline.Central.DetectionStreams
import NeuroPipeline.Edge.Conservation
import NeuroPipeline.Lib.Pipe

/-!
# Detections on their way

The clients of all edges, the streams that they open, the handlers of `StreamDetectionResults`
at the other end, and the processor that the handlers call. `process` waits for nothing, so
that a message is processed in the step in which a handler is given it. What is under way on a
stream whose handler has ended stays there.
-/

/-- A message that a handler was given, with the time of its event unless it was refused. -/
structure Arrival (Device R : Type) where
  device : Device
  stream : Nat
  message : R
  announcedAt : Option ℚ

structure DetectionTransport {R : Type} (codec : Codec R) (Device Tid : Type) where
  edges : Device → ClientSystem codec Tid
  /-- the streams of a device, in the order in which it opened them -/
  streams : Device → List (Pipe R)
  /-- the stream that each handler reads -/
  peers : List (Device × Nat)
  server : DetectionServer Binary64
  processor : DetectionProcessor
  arrivals : List (Arrival Device R)

inductive TransportAct (Device R Tid : Type) where
  | edge (d : Device) (act : ClientAct R Tid)
  /-- the server starts a handler for a stream -/
  | accept (d : Device) (n : Nat)
  /-- a handler is given its next message; the clock is read for the session, for the rate
  limiter and for the heartbeat -/
  | arrive (i : Nat) (wall now beat : ℚ) (env : ProcessEnv)
  | server (act : DetectionAct Binary64)
  | processor (act : ProcessorAct)

/-- What the server does beside its handlers' messages. -/
def DetectionAct.besides {F : Type} : DetectionAct F → Bool
  | .registerDevice .. | .endStream _ | .cleanupExpired _ => true
  | .openStream | .message .. | .processed .. => false

/-- What happens at the processor beside the calls of the handlers. -/
def ProcessorAct.besides : ProcessorAct → Bool
  | .process .. => false
  | _ => true

namespace DetectionTransport

variable {R Device Tid : Type} [DecidableEq Device] [DecidableEq Tid] {codec : Codec R}

/-- What a step of the client has written goes into the stream that is open then. -/
def carry (before after : ClientSystem codec Tid) (streams : List (Pipe R)) : List (Pipe R) :=
  Pipe.sendLast (after.writtenResults.drop before.written.length)
    (if !before.client.detectionStream.live && after.client.detectionStream.live then
      streams ++ [({} : Pipe R)]
    else streams)

def edgeMoved (s : DetectionTransport codec Device Tid) (d : Device)
    (client : ClientSystem codec Tid) : DetectionTransport codec Device Tid :=
  { s with
    edges := Function.update s.edges d client
    streams := Function.update s.streams d (carry (s.edges d) client (s.streams d)) }

/-- A message has left its stream. -/
def given (s : DetectionTransport codec Device Tid) (a : Arrival Device R) (p : Pipe R)
    (server : DetectionServer Binary64) (processor : DetectionProcessor) :
    DetectionTransport codec Device Tid :=
  { s with
    streams := Function.update s.streams a.device ((s.streams a.device).set a.stream p)
    server := server
    processor := processor
    arrivals := s.arrivals ++ [a] }

/-- The next message of a stream, and the stream without it. -/
def next (s : DetectionTransport codec Device Tid) (i : Nat) : Option (Device × Nat × R × Pipe R) :=
  s.peers[i]?.bind fun peer =>
    (s.streams peer.1)[peer.2]?.bind fun p =>
      p.receive.map fun r => (peer.1, peer.2, r.1, r.2)

/-- The handler goes on where it passes the message to `process_detection`. -/
def arrive (decode : R → DetectionResult Binary64) (s : DetectionTransport codec Device Tid)
    (i : Nat) (wall now beat : ℚ) (env : ProcessEnv) : Option (DetectionTransport codec Device Tid) :=
  (s.next i).bind fun (d, n, message, p) =>
    (s.server.step (.message i (decode message) wall now)).map fun server =>
      match server.step (.processed i beat) with
      | some server =>
        s.given ⟨d, n, message, some env.publishedAt⟩ p server
          (s.processor.process (decode message) env).1
      | none => s.given ⟨d, n, message, none⟩ p server s.processor

def step (decode : R → DetectionResult Binary64) (s : DetectionTransport codec Device Tid) :
    TransportAct Device R Tid → Option (DetectionTransport codec Device Tid)
  | .edge d act => ((s.edges d).step act).map (s.edgeMoved d)
  | .accept d n =>
    if n < (s.streams d).length ∧ (d, n) ∉ s.peers then
      (s.server.step .openStream).map fun server =>
        { s with peers := s.peers ++ [(d, n)], server := server }
    else none
  | .arrive i wall now beat env => s.arrive decode i wall now beat env
  | .server act =>
    if act.besides then (s.server.step act).map fun server => { s with server := server } else none
  | .processor act =>
    if act.besides then
      (s.processor.step act).map fun processor => { s with processor := processor }
    else none

end DetectionTransport

/-- Edges and server start without streams. `decode` is how the server reads a message. -/
def detectionTransport {R Device Tid : Type} [DecidableEq Device] [DecidableEq Tid]
    (codec : Codec R) (config : Device → GrpcClient.Config) (decode : R → DetectionResult Binary64) :
    TransitionSystem (DetectionTransport codec Device Tid) (TransportAct Device R Tid) where
  init s := ∃ server processor, (detectionSystem Binary64).init server ∧
    processorSystem.init processor ∧
    s = { edges := fun d => .new codec Tid (config d)
          streams := fun _ => []
          peers := []
          server := server
          processor := processor
          arrivals := [] }
  step := DetectionTransport.step decode

namespace DetectionTransport

/-- Messages of a single byte, each a detection of a person. -/
def sampleMessage (b : UInt8) : DetectionResult Binary64 :=
  { DetectionProcessor.sampleResult with frameId := b.toNat }

/-- Two edges with a thread each, and a server that allows one message a second. -/
def twoEdges : DetectionTransport Codec.byte Bool Unit where
  edges _ := .new Codec.byte Unit {}
  streams _ := []
  peers := []
  server := { sessionManager := .new 10 30 2, rateLimiter := some { maxPerSec := 1, burst := 1 } }
  processor := DetectionProcessor.sample
  arrivals := []

theorem twoEdges_init : (detectionTransport Codec.byte (fun _ => {}) sampleMessage).init twoEdges :=
  ⟨_, _, ⟨10, 30, 2, some (1, 1), 0, rfl⟩, DetectionProcessor.sample_init, rfl⟩

def sampleTransport : List (TransportAct Bool UInt8 Unit) :=
  [.processor .subscribe, .edge true (.connect {}),
    .edge true (.streamDetection () 7), .edge true (.run () {}), .edge true (.run () {}),
    .edge true (.streamDetection () 8), .edge true (.run () {}), .edge true (.run () {}),
    .accept true 0, .arrive 0 0 0 0 {}, .arrive 0 0 0 0 {}, .processor (.get 0)]

end DetectionTransport

namespace ClientSystem

variable {R Tid : Type} [DecidableEq Tid] {codec : Codec R} {s s' : ClientSystem codec Tid}

/-! ## Writes -/

/-- What is written is written on a stream that is open then. -/
def WritesLive (s s' : ClientSystem codec Tid) : Prop :=
  s'.written = s.written ∨
    ∃ p, s'.written = s.written ++ [p] ∧ s'.client.detectionStream.live = true

theorem writeLocked_writesLive (s : ClientSystem codec Tid) (t : Tid) (o : Outcome) (r : R) :
    s.WritesLive (s.writeLocked t o r) := by
  unfold writeLocked
  split
  · exact .inl rfl
  · next c hopen =>
      split
      · exact .inr ⟨_, rfl, GrpcClient.openStream_live hopen⟩
      · exact .inl rfl

theorem runThread_writesLive {t : Tid} {o : Outcome} (h : s.runThread t o = some s') :
    s.WritesLive s' := by
  unfold runThread at h
  cases hpc : s.threads t with
  | idle => simp [hpc] at h
  | entry r =>
      simp only [hpc] at h
      split at h
      · cases h
      split at h
      · cases h
        exact writeLocked_writesLive s t o r
      split at h <;> cases h <;> exact .inl rfl
  | relock r =>
      simp only [hpc] at h
      split at h
      · cases h
      · cases h
        exact writeLocked_writesLive s t o r
  | drained r queued =>
      simp only [hpc] at h
      split at h
      · cases h
      split at h
      · cases h
        exact .inl rfl
      · next c hopen =>
          split at h
          · cases h
            exact .inr ⟨_, rfl, GrpcClient.openStream_live hopen⟩
          · cases h
            exact .inl rfl
  | taken queued =>
      simp only [hpc] at h
      split at h
      · cases h
      split at h
      · next hlive =>
          split at h
          · cases h
            exact .inr ⟨_, rfl, hlive⟩
          · cases h
            exact .inl rfl
      · cases h
        exact .inl rfl
  | buffering | drainPutBack | putBack =>
      simp only [hpc, Option.map_eq_some_iff] at h
      obtain ⟨⟨q, ok⟩, -, rfl⟩ := h
      exact .inl rfl
  | sleeping r =>
      simp only [hpc] at h
      split at h
      · cases h
      split at h <;> cases h <;> exact .inl rfl
  | draining | taking | leaving =>
      simp only [hpc] at h
      split at h <;> cases h <;> exact .inl rfl
  | wrote =>
      simp only [hpc] at h
      cases h
      exact .inl rfl

theorem step_writesLive {act : ClientAct R Tid} (h : s.step act = some s') : s.WritesLive s' := by
  cases act with
  | run t o => exact runThread_writesLive h
  | streamDetection t r => exact .inl (step_call h).2.2.2.1
  | connect | disconnect | flushStream | startEventStream | eventReaderEnds | stopEventStream =>
      exact .inl (step_other (by simp) (by simp) h).2.2.1

omit [DecidableEq Tid] in
/-- What was written before is still there. -/
theorem WritesLive.writtenResults (h : s.WritesLive s') :
    s'.writtenResults = s.writtenResults ++ s'.writtenResults.drop s.written.length := by
  rcases h with heq | ⟨p, heq, -⟩ <;> simp [ClientSystem.writtenResults, heq]

end ClientSystem

namespace DetectionServer

variable {F : Type} [CFloat F] {s s' : DetectionServer F} {result : DetectionResult F} {i : Nat}
  {wall now : ℚ}

/-! ## Messages -/

/-- A message is taken by a handler that waits, and passed on where it passes. -/
theorem step_message (h : s.step (.message i result wall now) = some s') :
    ∃ st, s.streams[i]? = some st ∧ st.phase = .waiting ∧
      ∀ beat, (s'.step (.processed i beat)).isSome = s.passes st result now := by
  cases step_moves h with
  | @message _ st _ _ _ hst hphase hclock =>
      obtain ⟨hlt, -⟩ := List.getElem?_eq_some_iff.mp hst
      obtain ⟨hstreams, -⟩ := identify_fields s st result wall
      refine ⟨st, hst, hphase, fun beat => ?_⟩
      rcases message_cases s i st result wall now hphase with ⟨hpasses, heq⟩ | ⟨hstays, phase, hidle, heq⟩
      · have hset : (s.message i st result wall now).streams[i]? =
            some { st with deviceId := st.identified result, phase := .processing result } := by
          rw [heq]
          exact List.getElem?_set_self (hstreams ▸ hlt)
        rw [step_processed hset rfl, hpasses, Option.isSome_some]
      · have hset : (s.message i st result wall now).streams[i]? =
            some { st with deviceId := st.identified result, phase := phase } := by
          rw [heq]
          exact List.getElem?_set_self (hstreams ▸ hlt)
        rw [step, hset, hstays]
        rcases hidle with rfl | rfl <;> rfl

end DetectionServer

namespace DetectionTransport

variable {R Device Tid : Type} {codec : Codec R} {before after : ClientSystem codec Tid}
  {streams : List (Pipe R)} {decode : R → DetectionResult Binary64}
  {s s' : DetectionTransport codec Device Tid}

/-! ## One device -/

theorem map_received_carry (before after : ClientSystem codec Tid) (streams : List (Pipe R)) :
    (carry before after streams).map Pipe.received = streams.map Pipe.received ∨
      (carry before after streams).map Pipe.received = streams.map Pipe.received ++ [[]] := by
  rw [carry, Pipe.map_received_sendLast]
  split
  · exact .inr (by simp)
  · exact .inl rfl

theorem total_carry (before after : ClientSystem codec Tid) (streams : List (Pipe R)) :
    Custody.total (fun p => (p.received : Multiset R)) (carry before after streams) =
      Custody.total (fun p => (p.received : Multiset R)) streams := by
  have htotal : ∀ l : List (Pipe R), Custody.total (fun p => (p.received : Multiset R)) l =
      Custody.total (fun r : List R => (r : Multiset R)) (l.map Pipe.received) := fun l => by
    rw [Custody.total, Custody.total, List.map_map]
    rfl
  rw [htotal, htotal]
  rcases map_received_carry before after streams with heq | heq
  · rw [heq]
  · rw [heq, Custody.total_snoc, Multiset.coe_nil, add_zero]

theorem length_le_carry (before after : ClientSystem codec Tid) (streams : List (Pipe R)) :
    streams.length ≤ (carry before after streams).length := by
  rw [← List.length_map Pipe.received, ← List.length_map Pipe.received]
  rcases map_received_carry before after streams with heq | heq <;> simp [heq]

/-- Nothing has been received on a new stream. -/
theorem received_carry {n : Nat} {p : Pipe R} (h : (carry before after streams)[n]? = some p) :
    (∃ q, streams[n]? = some q ∧ p.received = q.received) ∨
      streams.length ≤ n ∧ p.received = [] := by
  have hmap : ((carry before after streams).map Pipe.received)[n]? = some p.received := by
    rw [List.getElem?_map, h, Option.map_some]
  rcases Nat.lt_or_ge n streams.length with hlt | hge
  · left
    refine ⟨streams[n], List.getElem?_eq_getElem hlt, ?_⟩
    rcases map_received_carry before after streams with heq | heq
    · rw [heq] at hmap
      simpa [hlt] using hmap.symm
    · rw [heq, List.getElem?_append_left (by simpa using hlt)] at hmap
      simpa [hlt] using hmap.symm
  · right
    refine ⟨hge, ?_⟩
    rcases map_received_carry before after streams with heq | heq
    · rw [heq] at hmap
      simp [hge] at hmap
    · rw [heq, List.getElem?_append_right (by simpa using hge)] at hmap
      exact (List.mem_singleton.mp (List.mem_of_getElem? hmap)).symm ▸ rfl

/-- The stream that is open after a step is the last one. -/
theorem carry_ne_nil (hopened : before.client.detectionStream.live = true → streams ≠ [])
    (hlive : after.client.detectionStream.live = true) : carry before after streams ≠ [] := by
  have hne : (carry before after streams).map Pipe.received ≠ [] := by
    rw [carry, Pipe.map_received_sendLast]
    split
    · simp
    · next hclosed =>
        have hbefore : before.client.detectionStream.live = true := by simpa [hlive] using hclosed
        simpa using hopened hbefore
  simpa using hne

theorem sentAll_carry (hwrites : before.WritesLive after)
    (hopened : before.client.detectionStream.live = true → streams ≠ [])
    (hwritten : before.writtenResults = Pipe.sentAll streams) :
    after.writtenResults = Pipe.sentAll (carry before after streams) := by
  rw [hwrites.writtenResults, hwritten]
  rcases hwrites with heq | ⟨p, heq, hlive⟩
  · have hnone : after.writtenResults.drop before.written.length = [] := by
      simp [ClientSystem.writtenResults, heq]
    rw [carry, hnone, Pipe.sendLast_nil, List.append_nil]
    split <;> simp
  · have hne := carry_ne_nil hopened hlive
    rw [carry] at hne ⊢
    have hbase : ∀ l : List (Pipe R), Pipe.sendLast (after.writtenResults.drop before.written.length) l ≠ [] → l ≠ [] := by
      rintro l hl rfl
      exact hl rfl
    rw [Pipe.sentAll_sendLast _ (hbase _ hne)]
    split <;> simp

theorem next_eq_some {i : Nat} {d : Device} {n : Nat} {message : R} {p' : Pipe R}
    (h : s.next i = some (d, n, message, p')) : s.peers[i]? = some (d, n) ∧
      ∃ p, (s.streams d)[n]? = some p ∧ p.receive = some (message, p') := by
  obtain ⟨⟨d', n'⟩, hpeer, h⟩ := Option.bind_eq_some_iff.mp h
  obtain ⟨p, hstream, h⟩ := Option.bind_eq_some_iff.mp h
  obtain ⟨⟨x, q⟩, hreceive, heq⟩ := Option.map_eq_some_iff.mp h
  simp only [Prod.mk.injEq] at heq
  obtain ⟨rfl, rfl, rfl, rfl⟩ := heq
  exact ⟨hpeer, p, hstream, hreceive⟩

theorem next_eq {i : Nat} {d : Device} {n : Nat} {message : R} {p p' : Pipe R}
    (hpeer : s.peers[i]? = some (d, n)) (hstream : (s.streams d)[n]? = some p)
    (hreceive : p.receive = some (message, p')) : s.next i = some (d, n, message, p') := by
  simp [next, hpeer, hstream, hreceive]

variable [DecidableEq Device]

/-! ## Arrivals -/

/-- What has arrived on a stream. -/
def arrivedOn (s : DetectionTransport codec Device Tid) (d : Device) (n : Nat) : List R :=
  (s.arrivals.filter fun a => a.device = d ∧ a.stream = n).map Arrival.message

/-- What has arrived from a device. -/
def arrivalsOf (s : DetectionTransport codec Device Tid) (d : Device) : List (Arrival Device R) :=
  s.arrivals.filter fun a => a.device = d

/-- The streams of every device have taken what its client has written, and the handlers have been
given what came out of them. -/
structure Carried (s : DetectionTransport codec Device Tid) : Prop where
  opened : ∀ d, (s.edges d).client.detectionStream.live = true → s.streams d ≠ []
  written : ∀ d, (s.edges d).writtenResults = Pipe.sentAll (s.streams d)
  received : ∀ d n p, (s.streams d)[n]? = some p → p.received = s.arrivedOn d n
  known : ∀ a ∈ s.arrivals, a.stream < (s.streams a.device).length
  total : ∀ d, ((s.arrivalsOf d).map Arrival.message : Multiset R) =
    Custody.total (fun p => (p.received : Multiset R)) (s.streams d)

theorem arrivedOn_given (s : DetectionTransport codec Device Tid) (a : Arrival Device R) (p : Pipe R)
    (server : DetectionServer Binary64) (processor : DetectionProcessor) (d : Device) (n : Nat) :
    (s.given a p server processor).arrivedOn d n =
      s.arrivedOn d n ++ if a.device = d ∧ a.stream = n then [a.message] else [] := by
  rw [arrivedOn, given, List.filter_append, List.map_append, arrivedOn]
  split <;> simp [*]

theorem arrivalsOf_given (s : DetectionTransport codec Device Tid) (a : Arrival Device R)
    (p : Pipe R) (server : DetectionServer Binary64) (processor : DetectionProcessor) (d : Device) :
    (s.given a p server processor).arrivalsOf d =
      s.arrivalsOf d ++ if a.device = d then [a] else [] := by
  rw [arrivalsOf, given, List.filter_append, arrivalsOf]
  split <;> simp [*]

/-- A message goes from its stream to the handler. -/
theorem Carried.given (h : Carried s) {a : Arrival Device R} {p p' : Pipe R}
    (hstream : (s.streams a.device)[a.stream]? = some p)
    (hreceive : p.receive = some (a.message, p')) (server : DetectionServer Binary64)
    (processor : DetectionProcessor) : Carried (s.given a p' server processor) := by
  obtain ⟨hreceived, hsent⟩ := Pipe.receive_eq_some hreceive
  have hstreams : ∀ d, (s.given a p' server processor).streams d =
      if d = a.device then (s.streams d).set a.stream p' else s.streams d := fun d => by
    rw [DetectionTransport.given]
    by_cases hd : d = a.device
    · subst hd; simp
    · simp [hd]
  have hlength : ∀ d, ((s.given a p' server processor).streams d).length = (s.streams d).length :=
    fun d => by
      rw [hstreams]
      split <;> simp
  constructor
  · intro d hlive
    have hne := h.opened d hlive
    rwa [Ne, ← List.length_eq_zero_iff, hlength, List.length_eq_zero_iff]
  · intro d
    rw [hstreams]
    split
    · next hd =>
        subst hd
        rw [Pipe.sentAll_set hstream hsent]
        exact h.written _
    · exact h.written d
  · intro d n q hq
    rw [arrivedOn_given]
    rw [hstreams] at hq
    split at hq
    · next hd =>
        subst hd
        by_cases hn : a.stream = n
        · subst hn
          obtain ⟨hlt, -⟩ := List.getElem?_eq_some_iff.mp hstream
          rw [List.getElem?_set_self hlt] at hq
          obtain rfl := Option.some_inj.mp hq
          rw [if_pos ⟨rfl, rfl⟩, hreceived, h.received _ _ p hstream]
        · rw [List.getElem?_set_ne hn] at hq
          rw [if_neg (fun hboth => hn hboth.2), List.append_nil, h.received _ _ q hq]
    · next hd =>
        rw [if_neg (fun hboth => hd hboth.1.symm), List.append_nil, h.received _ _ q hq]
  · intro b hb
    rw [hlength]
    rcases List.mem_append.mp hb with hb | hb
    · exact h.known b hb
    · obtain rfl := List.mem_singleton.mp hb
      exact (List.getElem?_eq_some_iff.mp hstream).1
  · intro d
    rw [arrivalsOf_given, List.map_append, ← Multiset.coe_add, h.total d, hstreams]
    split
    · next hd =>
        subst hd
        have htotal := Custody.total_set (fun p => (p.received : Multiset R)) p' hstream
        apply add_right_cancel (b := (p.received : Multiset R))
        rw [if_pos rfl, htotal, hreceived, ← Multiset.coe_add, List.map_singleton]
        ac_rfl
    · next hd => rw [if_neg (Ne.symm hd), List.map_nil, Multiset.coe_nil, add_zero]

variable [DecidableEq Tid]

/-! ## Steps -/

/-- The message that a handler is given next passes. -/
def PassesAt (decode : R → DetectionResult Binary64) (s : DetectionTransport codec Device Tid)
    (i : Nat) (now : ℚ) (message : R) : Prop :=
  ∃ st, s.server.streams[i]? = some st ∧ s.server.passes st (decode message) now = true

/-- What a step does. -/
inductive Moves (decode : R → DetectionResult Binary64) (s : DetectionTransport codec Device Tid) :
    TransportAct Device R Tid → DetectionTransport codec Device Tid → Prop where
  | edge {d : Device} {act : ClientAct R Tid} {client : ClientSystem codec Tid}
      (hclient : (s.edges d).step act = some client) : Moves decode s (.edge d act) (s.edgeMoved d client)
  | accept {d : Device} {n : Nat} {server : DetectionServer Binary64}
      (hserver : s.server.step .openStream = some server) :
      Moves decode s (.accept d n) { s with peers := s.peers ++ [(d, n)], server := server }
  | announced {i : Nat} {wall now beat : ℚ} {env : ProcessEnv} {d : Device} {n : Nat} {message : R}
      {p p' : Pipe R} {server : DetectionServer Binary64} (hstream : (s.streams d)[n]? = some p)
      (hreceive : p.receive = some (message, p')) (hpeer : s.peers[i]? = some (d, n))
      (hpasses : PassesAt decode s i now message) :
      Moves decode s (.arrive i wall now beat env)
        (s.given ⟨d, n, message, some env.publishedAt⟩ p' server
          (s.processor.process (decode message) env).1)
  | refused {i : Nat} {wall now beat : ℚ} {env : ProcessEnv} {d : Device} {n : Nat} {message : R}
      {p p' : Pipe R} {server : DetectionServer Binary64} (hstream : (s.streams d)[n]? = some p)
      (hreceive : p.receive = some (message, p')) (hpeer : s.peers[i]? = some (d, n))
      (hrefuses : ¬ PassesAt decode s i now message) :
      Moves decode s (.arrive i wall now beat env)
        (s.given ⟨d, n, message, none⟩ p' server s.processor)
  | server {act : DetectionAct Binary64} {server : DetectionServer Binary64}
      (hserver : s.server.step act = some server) :
      Moves decode s (.server act) { s with server := server }
  | processor {act : ProcessorAct} {processor : DetectionProcessor} (hbesides : act.besides = true)
      (hprocessor : s.processor.step act = some processor) :
      Moves decode s (.processor act) { s with processor := processor }

theorem step_moves {act : TransportAct Device R Tid} (h : s.step decode act = some s') :
    Moves decode s act s' := by
  cases act with
  | edge d act =>
      obtain ⟨client, hclient, rfl⟩ := Option.map_eq_some_iff.mp h
      exact .edge hclient
  | accept d n =>
      simp only [step] at h
      obtain ⟨-, h⟩ := Option.ite_none_right_eq_some.mp h
      obtain ⟨server, hserver, rfl⟩ := Option.map_eq_some_iff.mp h
      exact .accept hserver
  | arrive i wall now beat env =>
      obtain ⟨⟨d, n, message, p'⟩, hnext, h⟩ := Option.bind_eq_some_iff.mp h
      obtain ⟨server, hmessage, rfl⟩ := Option.map_eq_some_iff.mp h
      obtain ⟨hpeer, p, hstream, hreceive⟩ := next_eq_some hnext
      obtain ⟨st, hst, -, hprocessed⟩ := DetectionServer.step_message hmessage
      split
      · next server' hserver' =>
          refine .announced hstream hreceive hpeer ⟨st, hst, ?_⟩
          rw [← hprocessed beat, hserver', Option.isSome_some]
      · next hserver' =>
          refine .refused hstream hreceive hpeer ?_
          rintro ⟨st', hst', hpasses⟩
          obtain rfl := Option.some_inj.mp (hst.symm.trans hst')
          rw [← hprocessed beat, hserver'] at hpasses
          cases hpasses
  | server act =>
      simp only [step] at h
      obtain ⟨-, h⟩ := Option.ite_none_right_eq_some.mp h
      obtain ⟨server, hserver, rfl⟩ := Option.map_eq_some_iff.mp h
      exact .server hserver
  | processor act =>
      simp only [step] at h
      obtain ⟨hbesides, h⟩ := Option.ite_none_right_eq_some.mp h
      obtain ⟨processor, hprocessor, rfl⟩ := Option.map_eq_some_iff.mp h
      exact .processor hbesides hprocessor

/-- The client of a device does a step. -/
theorem Carried.edgeMoved (h : Carried s) {d : Device} {act : ClientAct R Tid}
    {client : ClientSystem codec Tid} (hclient : (s.edges d).step act = some client) :
    Carried (s.edgeMoved d client) := by
  have hwrites := ClientSystem.step_writesLive hclient
  have hstreams : ∀ d', (s.edgeMoved d client).streams d' =
      if d' = d then carry (s.edges d) client (s.streams d) else s.streams d' := fun d' => by
    rw [DetectionTransport.edgeMoved]
    by_cases hd : d' = d
    · subst hd; simp
    · simp [hd]
  have hedges : ∀ d', (s.edgeMoved d client).edges d' = if d' = d then client else s.edges d' :=
    fun d' => Function.update_apply ..
  constructor
  · intro d' hlive
    rw [hedges] at hlive
    rw [hstreams]
    split at hlive
    · next hd => exact (if_pos hd).trans_ne (carry_ne_nil (h.opened d) hlive)
    · next hd => exact (if_neg hd).trans_ne (h.opened d' hlive)
  · intro d'
    rw [hedges, hstreams]
    split
    · exact sentAll_carry hwrites (h.opened d) (h.written d)
    · exact h.written d'
  · intro d' n p hp
    have hsame : (s.edgeMoved d client).arrivedOn d' n = s.arrivedOn d' n := rfl
    rw [hstreams] at hp
    rw [hsame]
    split at hp
    · next hd =>
        subst hd
        rcases received_carry hp with ⟨q, hq, heq⟩ | ⟨hge, hnil⟩
        · rw [heq, h.received _ _ q hq]
        · have hnone : s.arrivedOn d' n = [] := by
            rw [arrivedOn, List.map_eq_nil_iff, List.filter_eq_nil_iff]
            rintro a ha hboth
            obtain ⟨rfl, rfl⟩ := of_decide_eq_true hboth
            exact Nat.not_lt.mpr hge (h.known a ha)
          rw [hnil, hnone]
    · exact h.received d' n p hp
  · intro a ha
    rw [hstreams]
    split
    · next hd => exact Nat.lt_of_lt_of_le (hd ▸ h.known a ha) (length_le_carry ..)
    · exact h.known a ha
  · intro d'
    have hsame : (s.edgeMoved d client).arrivalsOf d' = s.arrivalsOf d' := rfl
    rw [hsame, h.total d', hstreams]
    split
    · next hd => rw [total_carry, hd]
    · rfl

theorem step_carried {act : TransportAct Device R Tid} (h : Carried s)
    (hs : s.step decode act = some s') : Carried s' := by
  cases step_moves hs with
  | edge hclient => exact h.edgeMoved hclient
  | announced hstream hreceive => exact h.given hstream hreceive _ _
  | refused hstream hreceive => exact h.given hstream hreceive _ _
  | accept | server | processor => exact ⟨h.opened, h.written, h.received, h.known, h.total⟩

variable {config : Device → GrpcClient.Config} {s₀ : DetectionTransport codec Device Tid}
  {t : List (DetectionTransport codec Device Tid × TransportAct Device R Tid)}

theorem carried_of_run (hinit : (detectionTransport codec config decode).init s₀)
    (hrun : (detectionTransport codec config decode).Run s₀ t s) : Carried s := by
  refine hrun.invariant (I := Carried)
    (fun s act s' h (hs : step decode s act = some s') => step_carried h hs) ?_
  obtain ⟨server, processor, -, -, rfl⟩ := hinit
  refine ⟨fun d hlive => ?_, fun _ => rfl, fun d n p hp => ?_, fun a ha => ?_, fun _ => rfl⟩
  · cases hlive
  · simp at hp
  · cases ha

/-! ## Where each result is -/

/-- The results of a device whose event has been published. -/
def announcedFrom (s : DetectionTransport codec Device Tid) (d : Device) : List R :=
  ((s.arrivalsOf d).filter fun a => a.announcedAt.isSome).map Arrival.message

/-- The results of a device that were beyond the rate limit or not valid. -/
def refusedFrom (s : DetectionTransport codec Device Tid) (d : Device) : List R :=
  ((s.arrivalsOf d).filter fun a => a.announcedAt.isNone).map Arrival.message

def underway (s : DetectionTransport codec Device Tid) (d : Device) : Multiset R :=
  Custody.total (fun p => (p.underway : Multiset R)) (s.streams d)

/-- A handler that is given a message of the device passes it on. -/
def PassesFrom (decode : R → DetectionResult Binary64) (d : Device)
    (s : DetectionTransport codec Device Tid) : TransportAct Device R Tid → Prop
  | .arrive i _ now _ _ => ∀ n message p, s.next i = some (d, n, message, p) →
      PassesAt decode s i now message
  | _ => True

/-- A step of the client of the device keeps its results. -/
def KeepsAt (d : Device) (s : DetectionTransport codec Device Tid) :
    TransportAct Device R Tid → Prop
  | .edge d' act => d' = d → (s.edges d).Keeps act
  | _ => True

omit [DecidableEq Tid] in
theorem coe_arrivalsOf (s : DetectionTransport codec Device Tid) (d : Device) :
    ((s.arrivalsOf d).map Arrival.message : Multiset R) = s.announcedFrom d + s.refusedFrom d := by
  have hperm := List.filter_append_perm (fun a => a.announcedAt.isSome) (s.arrivalsOf d)
  simp only [Option.not_isSome] at hperm
  rw [announcedFrom, refusedFrom, Multiset.coe_add, ← List.map_append]
  exact Multiset.coe_eq_coe.mpr (hperm.map Arrival.message).symm

omit [DecidableEq Tid] in
theorem refusedFrom_given (s : DetectionTransport codec Device Tid) (a : Arrival Device R)
    (p : Pipe R) (server : DetectionServer Binary64) (processor : DetectionProcessor) (d : Device) :
    (s.given a p server processor).refusedFrom d =
      s.refusedFrom d ++ if a.device = d ∧ a.announcedAt = none then [a.message] else [] := by
  rw [refusedFrom, arrivalsOf_given, List.filter_append, List.map_append, refusedFrom]
  by_cases hd : a.device = d <;> by_cases ha : a.announcedAt = none <;> simp [hd, ha]

/-- One step refuses a message of the device exactly when it does not pass it on. -/
theorem refusedFrom_step {act : TransportAct Device R Tid} (hs : s.step decode act = some s')
    (d : Device) : s'.refusedFrom d = [] ↔ s.refusedFrom d = [] ∧ PassesFrom decode d s act := by
  cases step_moves hs with
  | @announced i wall now beat env d' n message p p' server hstream hreceive hpeer hpasses =>
      have hpassesFrom : PassesFrom decode d s (.arrive i wall now beat env) := by
        rintro n' message' q hnext
        rw [next_eq hpeer hstream hreceive] at hnext
        simp only [Option.some.injEq, Prod.mk.injEq] at hnext
        obtain ⟨-, -, rfl, -⟩ := hnext
        exact hpasses
      rw [refusedFrom_given, if_neg (by simp), List.append_nil]
      exact (and_iff_left hpassesFrom).symm
  | @refused i wall now beat env d' n message p p' server hstream hreceive hpeer hrefuses =>
      have hnext := next_eq hpeer hstream hreceive
      rw [refusedFrom_given]
      by_cases hd : d' = d
      · subst hd
        have hnot : ¬ PassesFrom decode d' s (.arrive i wall now beat env) :=
          fun hpasses => hrefuses (hpasses n message p' hnext)
        simp [hnot]
      · have hpassesFrom : PassesFrom decode d s (.arrive i wall now beat env) := by
          rintro n' message' q hnext'
          rw [hnext] at hnext'
          simp only [Option.some.injEq, Prod.mk.injEq] at hnext'
          exact absurd hnext'.1 hd
        rw [if_neg (fun hboth => hd hboth.1), List.append_nil]
        exact (and_iff_left hpassesFrom).symm
  | edge | accept | server | processor => exact (and_iff_left trivial).symm

theorem refusedFrom_eq_nil_iff (hinit : (detectionTransport codec config decode).init s₀)
    (hrun : (detectionTransport codec config decode).Run s₀ t s) (d : Device) :
    s.refusedFrom d = [] ↔ TransitionSystem.Respects (PassesFrom decode d) t := by
  induction hrun with
  | nil =>
      obtain ⟨server, processor, -, -, rfl⟩ := hinit
      exact ⟨fun _ => TransitionSystem.respects_nil, fun _ => rfl⟩
  | snoc _ hs ih => rw [refusedFrom_step hs, ih, TransitionSystem.respects_snoc]

/-- What the client of a device does. -/
def edgeSeen (d : Device) (_ : DetectionTransport codec Device Tid) :
    TransportAct Device R Tid → Option (ClientAct R Tid)
  | .edge d' act => if d' = d then some act else none
  | _ => none

theorem projects_edge (d : Device) : (detectionTransport codec config decode).Projects
    (clientSystem codec Tid (config d)) (fun s => s.edges d) (edgeSeen d) := by
  intro s act s' hs
  cases step_moves hs with
  | @edge d' act client hclient =>
      by_cases hd : d' = d
      · subst hd
        simp only [edgeSeen, if_true, edgeMoved, Function.update_self]
        exact hclient
      · simp only [edgeSeen, if_neg hd, edgeMoved, Function.update_of_ne (Ne.symm hd)]
  | accept | announced | refused | server | processor => rfl

omit [DecidableEq Tid] in
theorem respects_keepsAt (d : Device) :
    TransitionSystem.Respects ClientSystem.Keeps (TransitionSystem.projectTrace
      (fun s : DetectionTransport codec Device Tid => s.edges d) (edgeSeen d) t) ↔
      TransitionSystem.Respects (KeepsAt d) t := by
  rw [TransitionSystem.respects_projectTrace]
  refine forall₂_congr fun p _ => ?_
  obtain ⟨s, act⟩ := p
  cases act with
  | edge d' act => simp [edgeSeen, KeepsAt]
  | accept | arrive | server | processor => simp [edgeSeen, KeepsAt]

theorem edge_books [Fintype Tid] (hinit : (detectionTransport codec config decode).init s₀)
    (hrun : (detectionTransport codec config decode).Run s₀ t s) (d : Device) :
    ∃ evicted forgotten : Multiset R,
      ((s.edges d).accepted : Multiset R) = (s.arrivalsOf d).map Arrival.message +
        (s.underway d + (s.edges d).queued + (s.edges d).inHand + evicted + forgotten) ∧
      (s.edges d).client.queue.dropped = evicted.card ∧
      (forgotten = 0 ↔ TransitionSystem.Respects (KeepsAt d) t) := by
  have hedge := hrun.project (projects_edge d)
  have hstart : s₀.edges d = .new codec Tid (config d) := by
    obtain ⟨server, processor, -, -, rfl⟩ := hinit
    rfl
  rw [hstart] at hedge
  obtain ⟨evicted, forgotten, hbalance, hdropped, hkeeps⟩ := ClientSystem.run_books hedge
  have hcarried := carried_of_run hinit hrun
  refine ⟨evicted, forgotten, ?_, hdropped, ?_⟩
  · rw [hbalance, hcarried.written, Pipe.coe_sentAll, ← hcarried.total, underway]
    ac_rfl
  · rw [← respects_keepsAt, hkeeps, Multiset.card_eq_zero]

/-- The arrivals that have been announced, in the order of their events. -/
def announced (s : DetectionTransport codec Device Tid) : List (Arrival Device R) :=
  s.arrivals.filter fun a => a.announcedAt.isSome

/-- The event of an arrival. -/
def event (decode : R → DetectionResult Binary64) (a : Arrival Device R) : PublishedEvent :=
  .detection (decode a.message) (a.announcedAt.getD 0)

/-- What the processor does. -/
def processorSeen (decode : R → DetectionResult Binary64) (s : DetectionTransport codec Device Tid) :
    TransportAct Device R Tid → Option ProcessorAct
  | .arrive i wall now beat env =>
    (s.arrive decode i wall now beat env).bind fun s' =>
      s'.arrivals.getLast?.bind fun a =>
        a.announcedAt.map fun _ => .process (decode a.message) env
  | .processor act => some act
  | _ => none

/-- Whatever is passed on is passed on while the queue is one of a listener. -/
def Listening (q : Nat) (s : DetectionTransport codec Device Tid) :
    TransportAct Device R Tid → Prop
  | .arrive .. => q ∈ s.processor.eventBus.listeners
  | _ => True

theorem processorSeen_arrive {i : Nat} {wall now beat : ℚ} {env : ProcessEnv} {a : Arrival Device R}
    {p : Pipe R} {server : DetectionServer Binary64} {processor : DetectionProcessor}
    (hs : s.step decode (.arrive i wall now beat env) = some (s.given a p server processor)) :
    processorSeen decode s (.arrive i wall now beat env) =
      a.announcedAt.map fun _ => .process (decode a.message) env := by
  have harrive : s.arrive decode i wall now beat env = some (s.given a p server processor) := hs
  have hlast : (s.given a p server processor).arrivals.getLast? = some a := List.getLast?_concat ..
  rw [processorSeen, harrive, Option.bind_some, hlast, Option.bind_some]

theorem projects_processor : TransitionSystem.Projects (detectionTransport codec config decode)
    processorSystem (fun s : DetectionTransport codec Device Tid => s.processor)
    (processorSeen decode) := by
  intro s act s' hs
  cases step_moves hs with
  | announced => rw [processorSeen_arrive hs]; rfl
  | refused => rw [processorSeen_arrive hs]; rfl
  | processor hbesides hprocessor => exact hprocessor
  | edge | accept | server => rfl

/-- What is known of the results that are processed while the queue is one of a listener. -/
structure Heard (decode : R → DetectionResult Binary64) (q : Nat)
    (t : List (DetectionTransport codec Device Tid × TransportAct Device R Tid))
    (s : DetectionTransport codec Device Tid) (heard : List (Arrival Device R)) : Prop where
  sublist : heard.Sublist s.announced
  processed : (DetectionProcessor.processedFor q (TransitionSystem.projectTrace
    (fun s => s.processor) (processorSeen decode) t)).map
      (fun r => PublishedEvent.detection r.1 r.2) = heard.map (event decode)
  complete : TransitionSystem.Respects (Listening q) t → heard = s.announced

theorem processedFor_append (q : Nat) (t t' : List (DetectionProcessor × ProcessorAct)) :
    DetectionProcessor.processedFor q (t ++ t') =
      DetectionProcessor.processedFor q t ++ DetectionProcessor.processedFor q t' :=
  List.filterMap_append

omit [DecidableEq Tid] in
theorem announced_given (s : DetectionTransport codec Device Tid) (a : Arrival Device R)
    (p : Pipe R) (server : DetectionServer Binary64) (processor : DetectionProcessor) :
    (s.given a p server processor).announced =
      s.announced ++ if a.announcedAt.isSome then [a] else [] := by
  rw [announced, given, List.filter_append, announced]
  split <;> simp [*]

omit [DecidableEq Tid] in
/-- A step that announces nothing. -/
theorem Heard.kept {q : Nat} {heard : List (Arrival Device R)} {act : TransportAct Device R Tid}
    (h : Heard decode q t s heard)
    (hseen : ∀ act', processorSeen decode s act = some act' → act'.besides = true)
    (hannounced : s'.announced = s.announced) : Heard decode q (t ++ [(s, act)]) s' heard := by
  have hnone : DetectionProcessor.processedFor q
      ((processorSeen decode s act).map fun act' => (s.processor, act')).toList = [] := by
    cases hact : processorSeen decode s act with
    | none => rfl
    | some act' =>
        cases act' with
        | process result env => cases hseen _ hact
        | setRules | setEngine | shutdown | takeItem | analyzed | subscribe | unsubscribe | get => rfl
  refine ⟨hannounced ▸ h.sublist, ?_, fun hlistening => ?_⟩
  · rw [TransitionSystem.projectTrace_snoc, processedFor_append, hnone, List.append_nil, h.processed]
  · rw [h.complete (TransitionSystem.respects_snoc.mp hlistening).1, hannounced]

theorem step_heard {q : Nat} {heard : List (Arrival Device R)} {act : TransportAct Device R Tid}
    (h : Heard decode q t s heard) (hs : s.step decode act = some s') :
    ∃ heard', Heard decode q (t ++ [(s, act)]) s' heard' := by
  cases step_moves hs with
  | @announced i wall now beat env d n message p p' server =>
      have hseen := processorSeen_arrive hs
      by_cases hq : q ∈ s.processor.eventBus.listeners
      · refine ⟨heard ++ [⟨d, n, message, some env.publishedAt⟩], ?_, ?_, fun hlistening => ?_⟩
        · rw [announced_given]
          exact h.sublist.append (List.Sublist.refl _)
        · rw [TransitionSystem.projectTrace_snoc, processedFor_append, List.map_append, h.processed,
            hseen, List.map_append]
          simp [DetectionProcessor.processedFor, hq, event]
        · rw [announced_given, h.complete (TransitionSystem.respects_snoc.mp hlistening).1]
          rfl
      · refine ⟨heard, ?_, ?_, fun hlistening => ?_⟩
        · rw [announced_given]
          exact h.sublist.trans (List.sublist_append_left _ _)
        · rw [TransitionSystem.projectTrace_snoc, processedFor_append, List.map_append, h.processed,
            hseen]
          simp [DetectionProcessor.processedFor, hq]
        · exact absurd (TransitionSystem.respects_snoc.mp hlistening).2 hq
  | refused =>
      refine ⟨heard, h.kept (fun act' hact => ?_) ?_⟩
      · rw [processorSeen_arrive hs] at hact
        cases hact
      · rw [announced_given]
        exact List.append_nil _
  | processor hbesides =>
      refine ⟨heard, h.kept (fun act' hact => ?_) rfl⟩
      obtain rfl := Option.some_inj.mp hact
      exact hbesides
  | edge | accept | server => exact ⟨heard, h.kept (fun _ hact => by cases hact) rfl⟩

theorem heard_of_run (hinit : (detectionTransport codec config decode).init s₀)
    (hrun : (detectionTransport codec config decode).Run s₀ t s) (q : Nat) :
    ∃ heard, Heard decode q t s heard := by
  induction hrun with
  | nil =>
      obtain ⟨server, processor, -, -, rfl⟩ := hinit
      exact ⟨[], List.Sublist.refl [], rfl, fun _ => rfl⟩
  | snoc _ hs ih =>
      obtain ⟨heard, h⟩ := ih
      exact step_heard h hs

/-- Only what a device has accepted arrives from it. -/
theorem arrivalsOf_le [Fintype Tid] (hinit : (detectionTransport codec config decode).init s₀)
    (hrun : (detectionTransport codec config decode).Run s₀ t s) (d : Device) :
    ((s.arrivalsOf d).map Arrival.message : Multiset R) ≤ (s.edges d).accepted := by
  obtain ⟨evicted, forgotten, hbalance, -, -⟩ := edge_books hinit hrun d
  rw [hbalance]
  exact Multiset.le_add_right _ _

/-- The results that a listener hears of are accepted ones, none of them twice, those of a stream in
the order in which the device wrote them, and where he listens and keeps up he hears of every
result that is passed on. -/
theorem hears_accepted [Fintype Tid] (hinit : (detectionTransport codec config decode).init s₀)
    (hrun : (detectionTransport codec config decode).Run s₀ t s) (q : Nat) :
    ∃ heard : List (Arrival Device R), heard.Sublist s.announced ∧
      (s.processor.eventBus.queue q).heard.filter DetectionProcessor.isDetection =
        heard.map (event decode) ∧
      (∀ d, ((heard.filter fun a => a.device = d).map Arrival.message : Multiset R) ≤
        (s.edges d).accepted) ∧
      (∀ d n p, (s.streams d)[n]? = some p →
        ((heard.filter fun a => a.device = d ∧ a.stream = n).map Arrival.message).Sublist p.sent) ∧
      (TransitionSystem.Respects (Listening q) t → Mailbox.KeepsUp 50
        (TransitionSystem.expandLabels (DetectionProcessor.busSeen q)
          (TransitionSystem.projectTrace (fun s => s.processor) (processorSeen decode) t)) →
        heard = s.announced) := by
  obtain ⟨all, hall⟩ := heard_of_run hinit hrun q
  have hstart : processorSystem.init s₀.processor := by
    obtain ⟨server, processor, -, hprocessor, rfl⟩ := hinit
    exact hprocessor
  obtain ⟨hsublist, hlossless⟩ :=
    DetectionProcessor.queue_account hstart (hrun.project projects_processor) q
  have hevents := hsublist.filter DetectionProcessor.isDetection
  rw [DetectionProcessor.filter_announced, hall.processed] at hevents
  obtain ⟨heard, hheard, heq⟩ := List.sublist_map_iff.mp hevents
  have harrived : heard.Sublist s.arrivals :=
    (hheard.trans hall.sublist).trans List.filter_sublist
  refine ⟨heard, hheard.trans hall.sublist, heq, fun d => ?_, fun d n p hp => ?_,
    fun hlistening hkeepsUp => ?_⟩
  · refine le_trans (Multiset.coe_le.mpr ?_) (arrivalsOf_le hinit hrun d)
    exact ((harrived.filter _).map _).subperm
  · have hcarried := carried_of_run hinit hrun
    have hreceived := (hcarried.received d n p hp) ▸ p.received_prefix_sent.sublist
    exact ((harrived.filter _).map _).trans hreceived
  · rw [← hall.complete hlistening]
    refine hheard.eq_of_length ?_
    have hlength := congrArg List.length heq
    rw [hlossless.mpr hkeepsUp, DetectionProcessor.filter_announced, hall.processed,
      List.length_map, List.length_map] at hlength
    exact hlength.symm

theorem hears_accepted_limited :
    ∃ t s, (detectionTransport Codec.byte (fun _ => {}) sampleMessage).Run twoEdges t s ∧
      t.map Prod.snd = sampleTransport ∧
      (s.processor.eventBus.queue 0).heard = [.detection (sampleMessage 7) 0] ∧
      ∃ heard : List (Arrival Bool UInt8), heard.Sublist s.announced ∧
        (s.processor.eventBus.queue 0).heard.filter DetectionProcessor.isDetection =
          heard.map (event sampleMessage) := by
  have hview : ((detectionTransport Codec.byte (fun _ => {}) sampleMessage).execTrace twoEdges
      sampleTransport).map (fun r => (r.2.processor.eventBus.queue 0).heard) =
        some [.detection (sampleMessage 7) 0] := by decide +kernel
  obtain ⟨t, s, hrun, hlabels, hend⟩ := TransitionSystem.exists_run_of_execTrace hview
  obtain ⟨heard, hsublist, hevents, -⟩ := hears_accepted twoEdges_init hrun 0
  exact ⟨t, s, hrun, hlabels, hend, heard, hsublist, hevents⟩

end DetectionTransport
