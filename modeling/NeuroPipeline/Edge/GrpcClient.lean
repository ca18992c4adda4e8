-- SUMMARY: The gRPC client's shared state, the operations that run under its mutex, and the threads that call it.
import NeuroPipeline.Lib.TransitionSystem
import NeuroPipeline.Edge.DetectionQueue
import Mathlib.Logic.Function.Basic

/-!
# gRPC client

Model of grpc_client.cpp. The first half is the state under `mu_` and the
operations that hold `mu_` throughout. The second half is `StreamDetection` at
lock granularity: a program counter for each thread, and one step for each
stretch of code between two lock operations (of `mu_` or of the queue's mutex).
What the network answers is part of the label of a step.
-/

/-- Channels are named by the order of their creation. -/
abbrev ChannelId := Nat

/-- The answers of gRPC and of the server during one step. -/
structure Outcome where
  channelCreated : Bool := true
  channelReady : Bool := true
  healthy : Bool := true
  streamOpened : Bool := true
  writeOk : Bool := true
  finishOk : Bool := true
  finishSuccess : Bool := true
  eventStreamOpened : Bool := true

structure GrpcClient.Config where
  maxReconnectAttempts : Int := 10
  initialBackoffMs : Int := 1000
  cacheQueue : DetectionQueue.Config := {}

/-- `stream_` (with the channel it was opened on) and `stream_open_`, which are
always changed together. -/
structure DetectionStream where
  stream : Option ChannelId
  streamOpen : Bool
  open_iff : streamOpen = stream.isSome

namespace DetectionStream

def closed : DetectionStream := ⟨none, false, rfl⟩

def opened (ch : ChannelId) : DetectionStream := ⟨some ch, true, rfl⟩

/-- The test `stream_open_ && stream_`. -/
def live (d : DetectionStream) : Bool := d.streamOpen && d.stream.isSome

theorem live_eq_streamOpen (d : DetectionStream) : d.live = d.streamOpen := by
  simp [live, d.open_iff]

/-- A live stream is that of some channel. -/
theorem exists_of_live {d : DetectionStream} (h : d.live = true) : ∃ ch, d.stream = some ch := by
  rw [live_eq_streamOpen, d.open_iff] at h
  exact Option.isSome_iff_exists.mp h

end DetectionStream

/-- The state under `mu_`, with the queue that has a mutex of its own. -/
structure GrpcClient {R : Type} (codec : Codec R) where
  config : GrpcClient.Config
  connected : Bool
  channel : Option ChannelId
  stub : Option ChannelId
  channels : Nat
  reconnectAttempts : Int
  queue : DetectionQueue codec
  detectionStream : DetectionStream
  eventStream : Option ChannelId
  eventStreamActive : Bool
  readerJoinable : Bool

namespace GrpcClient

variable {R : Type} {codec : Codec R}

def new (codec : Codec R) (config : Config) : GrpcClient codec where
  config := config
  connected := false
  channel := none
  stub := none
  channels := 0
  reconnectAttempts := 0
  queue := .new codec config.cacheQueue
  detectionStream := .closed
  eventStream := none
  eventStreamActive := false
  readerJoinable := false

/-! ## Operations under the mutex -/

def createChannel (c : GrpcClient codec) (o : Outcome) : GrpcClient codec × Bool :=
  if o.channelCreated then
    ({ c with channel := some c.channels, stub := some c.channels, channels := c.channels + 1 },
      true)
  else ({ c with channel := none }, false)

def healthCheckLocked (c : GrpcClient codec) (o : Outcome) : Bool :=
  c.stub.isSome && o.healthy

/-- The connection sequence that `Connect` and the reconnect branch of
`StreamDetection` share. -/
def establish (c : GrpcClient codec) (o : Outcome) : GrpcClient codec × Bool :=
  match c.createChannel o with
  | (c, false) => (c, false)
  | (c, true) =>
    if !o.channelReady then (c, false)
    else if !c.healthCheckLocked o then (c, false)
    else ({ c with connected := true, reconnectAttempts := 0 }, true)

def connect (c : GrpcClient codec) (o : Outcome) : GrpcClient codec × Bool :=
  if c.connected then (c, true) else c.establish o

def openStream (c : GrpcClient codec) (o : Outcome) : GrpcClient codec × Bool :=
  if c.detectionStream.streamOpen then (c, true)
  else match c.stub with
    | none => (c, false)
    | some ch =>
      if o.streamOpened then ({ c with detectionStream := .opened ch }, true)
      else ({ c with detectionStream := .closed }, false)

def closeStream (c : GrpcClient codec) : GrpcClient codec :=
  if c.detectionStream.streamOpen then { c with detectionStream := .closed } else c

def disconnect (c : GrpcClient codec) : GrpcClient codec :=
  let c := c.closeStream
  if c.connected then { c with connected := false, stub := none, channel := none } else c

def flushStream (c : GrpcClient codec) (o : Outcome) : GrpcClient codec × Bool :=
  if c.detectionStream.live then
    let c := { c with detectionStream := DetectionStream.closed }
    if o.finishOk then (c, o.finishSuccess) else ({ c with connected := false }, false)
  else (c, false)

/-- `StartEventStream`; `none` when it replaces a reader thread that was never
joined, which ends the process. -/
def startEventStream (c : GrpcClient codec) (o : Outcome) : Option (GrpcClient codec × Bool) :=
  if !c.connected || c.stub.isNone then some (c, false)
  else if c.eventStreamActive then some (c, true)
  else if !o.eventStreamOpened then some ({ c with eventStream := none }, false)
  else if c.readerJoinable then none
  else some ({ c with eventStream := c.stub, eventStreamActive := true, readerJoinable := true },
    true)

/-- The reader thread leaves its loop: `Read` failed. -/
def eventReaderEnds (c : GrpcClient codec) : GrpcClient codec :=
  { c with eventStreamActive := false }

def sendEdgeEvent (c : GrpcClient codec) (o : Outcome) : Bool :=
  c.eventStreamActive && c.eventStream.isSome && o.writeOk

def stopEventStream (c : GrpcClient codec) : GrpcClient codec :=
  { c with eventStreamActive := false, readerJoinable := false, eventStream := none }

/-! ## What the operations leave alone -/

@[simp] theorem createChannel_queue (c : GrpcClient codec) (o : Outcome) :
    (c.createChannel o).1.queue = c.queue := by
  unfold createChannel
  split <;> rfl

@[simp] theorem establish_queue (c : GrpcClient codec) (o : Outcome) :
    (c.establish o).1.queue = c.queue := by
  have h := c.createChannel_queue o
  unfold establish
  split
  next c' hc => rw [hc] at h; exact h
  next c' hc =>
    rw [hc] at h
    split
    · exact h
    · split <;> exact h

@[simp] theorem connect_queue (c : GrpcClient codec) (o : Outcome) :
    (c.connect o).1.queue = c.queue := by
  unfold connect
  split
  · rfl
  · exact establish_queue c o

@[simp] theorem openStream_queue (c : GrpcClient codec) (o : Outcome) :
    (c.openStream o).1.queue = c.queue := by
  unfold openStream
  split
  · rfl
  · split
    · rfl
    · split <;> rfl

@[simp] theorem closeStream_queue (c : GrpcClient codec) : c.closeStream.queue = c.queue := by
  unfold closeStream
  split <;> rfl

@[simp] theorem disconnect_queue (c : GrpcClient codec) : c.disconnect.queue = c.queue := by
  unfold disconnect
  simp only
  split
  · exact closeStream_queue c
  · exact closeStream_queue c

@[simp] theorem flushStream_queue (c : GrpcClient codec) (o : Outcome) :
    (c.flushStream o).1.queue = c.queue := by
  unfold flushStream
  split
  · simp only
    split <;> rfl
  · rfl

theorem startEventStream_queue {c c' : GrpcClient codec} {o : Outcome} {ok : Bool}
    (h : c.startEventStream o = some (c', ok)) : c'.queue = c.queue := by
  unfold startEventStream at h
  split at h
  next =>
    obtain ⟨rfl, -⟩ := Prod.mk.inj (Option.some.inj h)
    rfl
  split at h
  next =>
    obtain ⟨rfl, -⟩ := Prod.mk.inj (Option.some.inj h)
    rfl
  split at h
  next =>
    obtain ⟨rfl, -⟩ := Prod.mk.inj (Option.some.inj h)
    rfl
  split at h
  next => cases h
  next =>
    obtain ⟨rfl, -⟩ := Prod.mk.inj (Option.some.inj h)
    rfl

theorem openStream_live {c c' : GrpcClient codec} {o : Outcome} (h : c.openStream o = (c', true)) :
    c'.detectionStream.live = true := by
  unfold openStream at h
  split at h
  next hopen =>
    obtain ⟨rfl, -⟩ := Prod.mk.inj h
    rwa [DetectionStream.live_eq_streamOpen]
  next =>
    split at h
    · simp at h
    · split at h
      · obtain ⟨rfl, -⟩ := Prod.mk.inj h
        rfl
      · simp at h

end GrpcClient

/-! ## Threads inside StreamDetection -/

/-- Where a thread is in `StreamDetection`, with the results it holds. -/
inductive Pc (R : Type) where
  /-- outside of `StreamDetection` -/
  | idle
  /-- about to lock `mu_` for the first time -/
  | entry (result : R)
  /-- in the backoff sleep, about to lock `mu_` again -/
  | sleeping (result : R)
  /-- about to `Enqueue` the result and return -/
  | buffering (result : R)
  /-- at the head of the loop of `DrainQueue` -/
  | draining (result : R)
  /-- in `DrainQueue` with a dequeued entry, about to lock `mu_` -/
  | drained (result queued : R)
  /-- in `DrainQueue`, holding `mu_`, about to `Enqueue` the entry again -/
  | drainPutBack (result queued : R)
  /-- back from `DrainQueue`, about to lock `mu_` -/
  | relock (result : R)
  /-- the result is written; holding `mu_`, about to test `queue_.Empty()` -/
  | wrote
  /-- about to dequeue one entry after the write -/
  | taking
  /-- with that entry, about to lock `mu_` and look at the stream again -/
  | taken (queued : R)
  /-- about to `Enqueue` that entry again -/
  | putBack (queued : R)
  /-- about to lock `mu_` once more and return -/
  | leaving

namespace Pc

variable {R : Type}

/-- The result of the call itself, until it is written or queued. -/
def fresh : Pc R → List R
  | .entry r | .sleeping r | .buffering r | .draining r | .drained r _ | .drainPutBack r _
  | .relock r => [r]
  | .idle | .wrote | .taking | .taken _ | .putBack _ | .leaving => []

/-- The entry the thread took out of the queue. -/
def borrowed : Pc R → List R
  | .drained _ q | .drainPutBack _ q | .taken q | .putBack q => [q]
  | .idle | .entry _ | .sleeping _ | .buffering _ | .draining _ | .relock _ | .wrote | .taking
  | .leaving => []

/-- The result the thread is about to `Enqueue`. -/
def enqueues : Pc R → Option R
  | .buffering r => some r
  | .drainPutBack _ q | .putBack q => some q
  | _ => none

/-- The thread is about to look at the stream again, with an entry in its hand. -/
def rechecks : Pc R → Bool
  | .taken _ => true
  | _ => false

end Pc

/-- The client together with the threads `Tid` that use it. `accepted` are the
results `StreamDetection` was called with, which it never refuses; `written` are
the writes that succeeded, with the channel of their stream. -/
structure ClientSystem {R : Type} (codec : Codec R) (Tid : Type) where
  client : GrpcClient codec
  mu : Option Tid
  threads : Tid → Pc R
  accepted : List R
  written : List (ChannelId × R)

/-- The calls of other threads that hold `mu_` throughout are single steps. -/
inductive ClientAct (R Tid : Type) where
  | streamDetection (t : Tid) (result : R)
  | run (t : Tid) (o : Outcome)
  | connect (o : Outcome)
  | disconnect
  | flushStream (o : Outcome)
  | startEventStream (o : Outcome)
  | eventReaderEnds
  | stopEventStream

namespace ClientSystem

variable {R Tid : Type} [DecidableEq Tid] {codec : Codec R}

def new (codec : Codec R) (Tid : Type) (config : GrpcClient.Config) : ClientSystem codec Tid where
  client := .new codec config
  mu := none
  threads := fun _ => .idle
  accepted := []
  written := []

/-- Thread `t` moves on, with `mu_` held or released. -/
def goto (s : ClientSystem codec Tid) (t : Tid) (pc : Pc R) (holding : Bool := false) :
    ClientSystem codec Tid :=
  { s with
    threads := Function.update s.threads t pc
    mu := if holding then some t else none }

def withClient (s : ClientSystem codec Tid) (c : GrpcClient codec) : ClientSystem codec Tid :=
  { s with client := c }

def withQueue (s : ClientSystem codec Tid) (q : DetectionQueue codec) : ClientSystem codec Tid :=
  { s with client := { s.client with queue := q } }

/-- A write that succeeded, on the stream that is open. -/
def deliver (s : ClientSystem codec Tid) (r : R) : ClientSystem codec Tid :=
  { s with written := s.written ++ [(s.client.detectionStream.stream.getD 0, r)] }

/-- The stretch from `Lazily open persistent stream` to the write of the result. -/
def writeLocked (s : ClientSystem codec Tid) (t : Tid) (o : Outcome) (result : R) :
    ClientSystem codec Tid :=
  match s.client.openStream o with
  | (c, false) => (s.withClient { c with connected := false }).goto t (.buffering result)
  | (c, true) =>
    if o.writeOk then ((s.withClient c).deliver result).goto t .wrote true
    else (s.withClient { c.closeStream with connected := false }).goto t (.buffering result)

/-- The next step of thread `t`. A step that begins by locking `mu_` waits until
it is free. -/
def runThread (s : ClientSystem codec Tid) (t : Tid) (o : Outcome) :
    Option (ClientSystem codec Tid) :=
  match s.threads t with
  | .idle => none
  | .entry result =>
    if s.mu.isSome then none
    else if s.client.connected then some (s.writeLocked t o result)
    else if s.client.config.maxReconnectAttempts ≤ s.client.reconnectAttempts then
      some (s.goto t (.buffering result))
    else some (s.goto t (.sleeping result))
  | .sleeping result =>
    if s.mu.isSome then none
    else
      let c := { s.client with reconnectAttempts := s.client.reconnectAttempts + 1 }
      match c.establish o with
      | (c, false) => some ((s.withClient c).goto t (.buffering result))
      | (c, true) => some ((s.withClient c).goto t (.draining result))
  | .buffering result =>
    (s.client.queue.enqueue result).map fun (q, _) =>
      { s.withQueue q with threads := Function.update s.threads t .idle }
  | .draining result =>
    match s.client.queue.dequeue with
    | (q, some queued) =>
      some { s.withQueue q with threads := Function.update s.threads t (.drained result queued) }
    | (q, none) =>
      some { s.withQueue q with threads := Function.update s.threads t (.relock result) }
  | .drained result queued =>
    if s.mu.isSome then none
    else match s.client.openStream o with
      | (c, false) => some ((s.withClient c).goto t (.drainPutBack result queued) true)
      | (c, true) =>
        if o.writeOk then some (((s.withClient c).deliver queued).goto t (.draining result))
        else some ((s.withClient c).goto t (.drainPutBack result queued) true)
  | .drainPutBack result queued =>
    (s.client.queue.enqueue queued).map fun (q, _) => (s.withQueue q).goto t (.relock result)
  | .relock result =>
    if s.mu.isSome then none else some (s.writeLocked t o result)
  | .wrote => some (s.goto t (if s.client.queue.empty then .idle else .taking))
  | .taking =>
    match s.client.queue.dequeue with
    | (q, some queued) =>
      some { s.withQueue q with threads := Function.update s.threads t (.taken queued) }
    | (q, none) => some { s.withQueue q with threads := Function.update s.threads t .leaving }
  | .taken queued =>
    if s.mu.isSome then none
    else if s.client.detectionStream.live then
      if o.writeOk then some ((s.deliver queued).goto t .idle)
      else some (s.goto t (.putBack queued))
    -- the stream is closed: the function returns and nobody has the entry any more
    else some (s.goto t .idle)
  | .putBack queued =>
    (s.client.queue.enqueue queued).map fun (q, _) =>
      { s.withQueue q with threads := Function.update s.threads t .leaving }
  | .leaving => if s.mu.isSome then none else some (s.goto t .idle)

def step (s : ClientSystem codec Tid) : ClientAct R Tid → Option (ClientSystem codec Tid)
  | .streamDetection t result =>
    match s.threads t with
    | .idle =>
      some { s with
        threads := Function.update s.threads t (.entry result)
        accepted := s.accepted ++ [result] }
    | _ => none
  | .run t o => s.runThread t o
  | .connect o => if s.mu.isSome then none else some (s.withClient (s.client.connect o).1)
  | .disconnect => if s.mu.isSome then none else some (s.withClient s.client.disconnect)
  | .flushStream o => if s.mu.isSome then none else some (s.withClient (s.client.flushStream o).1)
  | .startEventStream o =>
    if s.mu.isSome then none
    else (s.client.startEventStream o).map fun (c, _) => s.withClient c
  | .eventReaderEnds => some (s.withClient s.client.eventReaderEnds)
  | .stopEventStream => if s.mu.isSome then none else some (s.withClient s.client.stopEventStream)

end ClientSystem

/-- All interleavings of the threads' calls. -/
def clientSystem {R : Type} (codec : Codec R) (Tid : Type) [DecidableEq Tid]
    (config : GrpcClient.Config) : TransitionSystem (ClientSystem codec Tid) (ClientAct R Tid) where
  init s := s = ClientSystem.new codec Tid config
  step := ClientSystem.step

namespace ClientSystem

variable {R Tid : Type} [DecidableEq Tid] {codec : Codec R}

/-! ## What a step does to the results -/

/-- The step writes the call's own result and the write succeeds. -/
def writesFresh (s : ClientSystem codec Tid) (t : Tid) (o : Outcome) : Bool :=
  match s.threads t with
  | .entry _ => s.client.connected && (s.client.openStream o).2 && o.writeOk
  | .relock _ => (s.client.openStream o).2 && o.writeOk
  | _ => false

/-- Everything a step of one thread can do to the results, with the thread's
program counter before and after it. -/
inductive Effect (s s' : ClientSystem codec Tid) (t : Tid) (o : Outcome)
    (before after : Pc R) : Prop where
  /-- nothing changes hands -/
  | move (hfresh : after.fresh = before.fresh) (hborrowed : after.borrowed = before.borrowed)
      (hwritten : s'.written = s.written) (hqueue : s'.client.queue = s.client.queue)
      (henq : before.enqueues = none)
      (hlive : before.rechecks = true → s.client.detectionStream.live = true)
  /-- the call's own result is enqueued -/
  | buffer (r : R) (ok : Bool) (hpc : before = .buffering r) (hafter : after = .idle)
      (henq : s.client.queue.enqueue r = some (s'.client.queue, ok))
      (hwritten : s'.written = s.written)
  /-- a borrowed entry is enqueued again -/
  | putBack (r : R) (ok : Bool) (hpc : before.enqueues = some r) (hrechecks : before.rechecks = false)
      (hborrowed : before.borrowed = [r]) (hborrowed' : after.borrowed = [])
      (hfresh : after.fresh = before.fresh)
      (henq : s.client.queue.enqueue r = some (s'.client.queue, ok))
      (hwritten : s'.written = s.written)
  /-- the oldest entry is borrowed -/
  | take (r : R) (henq : before.enqueues = none) (hrechecks : before.rechecks = false)
      (hborrowed : before.borrowed = []) (hborrowed' : after.borrowed = [r])
      (hfresh : after.fresh = before.fresh)
      (hdeq : s.client.queue.dequeue = (s'.client.queue, some r))
      (hwritten : s'.written = s.written)
  /-- the call's own result is written -/
  | writeFresh (r : R) (ch : ChannelId) (henq : before.enqueues = none)
      (hrechecks : before.rechecks = false)
      (hfresh : before.fresh = [r]) (hborrowed : before.borrowed = []) (hafter : after = .wrote)
      (hwrites : s.writesFresh t o = true)
      (hwritten : s'.written = s.written ++ [(ch, r)])
      (hqueue : s'.client.queue = s.client.queue)
  /-- a borrowed entry is written -/
  | writeBorrowed (r : R) (ch : ChannelId) (henq : before.enqueues = none)
      (hlive : before.rechecks = true → s.client.detectionStream.live = true)
      (hborrowed : before.borrowed = [r]) (hborrowed' : after.borrowed = [])
      (hfresh : after.fresh = before.fresh)
      (hwritten : s'.written = s.written ++ [(ch, r)])
      (hqueue : s'.client.queue = s.client.queue)
  /-- a borrowed entry is forgotten -/
  | forget (r : R) (hpc : before = .taken r) (hafter : after = .idle)
      (hlive : s.client.detectionStream.live = false)
      (hwritten : s'.written = s.written) (hqueue : s'.client.queue = s.client.queue)

theorem writeLocked_effect {s : ClientSystem codec Tid} {t : Tid} {o : Outcome} {r : R}
    (hfresh : (s.threads t).fresh = [r]) (hborrowed : (s.threads t).borrowed = [])
    (henq : (s.threads t).enqueues = none) (hrechecks : (s.threads t).rechecks = false)
    (hwrites : s.writesFresh t o = ((s.client.openStream o).2 && o.writeOk)) :
    ∃ pc, (s.writeLocked t o r).threads = Function.update s.threads t pc ∧
      (s.writeLocked t o r).accepted = s.accepted ∧
      Effect s (s.writeLocked t o r) t o (s.threads t) pc := by
  unfold writeLocked
  have hqueue := s.client.openStream_queue o
  split
  next c hopen =>
    rw [hopen] at hqueue
    refine ⟨.buffering r, rfl, rfl, .move ?_ ?_ rfl hqueue henq ?_⟩
    · rw [hfresh]; rfl
    · rw [hborrowed]; rfl
    · simp [hrechecks]
  next c hopen =>
    rw [hopen] at hqueue
    split
    next hok =>
      have hnow : s.writesFresh t o = true := by rw [hwrites, hopen, hok]; rfl
      exact ⟨.wrote, rfl, rfl,
        .writeFresh r _ henq hrechecks hfresh hborrowed rfl hnow rfl hqueue⟩
    next =>
      refine ⟨.buffering r, rfl, rfl, .move ?_ ?_ rfl ?_ henq ?_⟩
      · rw [hfresh]; rfl
      · rw [hborrowed]; rfl
      · exact (c.closeStream_queue).trans hqueue
      · simp [hrechecks]

/-- What a thread's step can do, said once. -/
theorem runThread_effect {s s' : ClientSystem codec Tid} {t : Tid} {o : Outcome}
    (h : s.runThread t o = some s') :
    ∃ pc, s'.threads = Function.update s.threads t pc ∧ s'.accepted = s.accepted ∧
      Effect s s' t o (s.threads t) pc := by
  unfold runThread at h
  cases hpc : s.threads t with
  | idle => simp [hpc] at h
  | entry r =>
      simp only [hpc] at h
      split at h
      · cases h
      split at h
      next hconn =>
        cases h
        rw [← hpc]
        exact writeLocked_effect (by simp [hpc, Pc.fresh]) (by simp [hpc, Pc.borrowed])
          (by simp [hpc, Pc.enqueues]) (by simp [hpc, Pc.rechecks])
          (by simp [writesFresh, hpc, hconn])
      split at h
      all_goals
        cases h
        exact ⟨_, rfl, rfl, .move rfl rfl rfl rfl rfl (by simp [Pc.rechecks])⟩
  | sleeping r =>
      simp only [hpc] at h
      split at h
      · cases h
      have hqueue := GrpcClient.establish_queue
        { s.client with reconnectAttempts := s.client.reconnectAttempts + 1 } o
      split at h
      all_goals
        next c hest =>
          rw [hest] at hqueue
          cases h
          exact ⟨_, rfl, rfl, .move rfl rfl rfl hqueue rfl (by simp [Pc.rechecks])⟩
  | buffering r =>
      simp only [hpc, Option.map_eq_some_iff] at h
      obtain ⟨⟨q, ok⟩, henq, rfl⟩ := h
      exact ⟨_, rfl, rfl, .buffer r ok rfl rfl henq rfl⟩
  | draining r =>
      simp only [hpc] at h
      split at h
      next q queued hdeq =>
        cases h
        exact ⟨_, rfl, rfl, .take queued rfl rfl rfl rfl rfl hdeq rfl⟩
      next q hdeq =>
        cases h
        exact ⟨_, rfl, rfl, .move rfl rfl rfl (DetectionQueue.dequeue_none hdeq).1 rfl
          (by simp [Pc.rechecks])⟩
  | drained r queued =>
      simp only [hpc] at h
      split at h
      · cases h
      have hqueue := s.client.openStream_queue o
      split at h
      next c hopen =>
        rw [hopen] at hqueue
        cases h
        exact ⟨_, rfl, rfl, .move rfl rfl rfl hqueue rfl (by simp [Pc.rechecks])⟩
      next c hopen =>
        rw [hopen] at hqueue
        split at h
        · cases h
          exact ⟨_, rfl, rfl,
            .writeBorrowed queued _ rfl (by simp [Pc.rechecks]) rfl rfl rfl rfl hqueue⟩
        · cases h
          exact ⟨_, rfl, rfl, .move rfl rfl rfl hqueue rfl (by simp [Pc.rechecks])⟩
  | drainPutBack r queued =>
      simp only [hpc, Option.map_eq_some_iff] at h
      obtain ⟨⟨q, ok⟩, henq, rfl⟩ := h
      exact ⟨_, rfl, rfl, .putBack queued ok rfl rfl rfl rfl rfl henq rfl⟩
  | relock r =>
      simp only [hpc] at h
      split at h
      · cases h
      cases h
      rw [← hpc]
      exact writeLocked_effect (by simp [hpc, Pc.fresh]) (by simp [hpc, Pc.borrowed])
        (by simp [hpc, Pc.enqueues]) (by simp [hpc, Pc.rechecks])
        (by simp [writesFresh, hpc])
  | wrote =>
      simp only [hpc] at h
      cases h
      refine ⟨_, rfl, rfl, .move ?_ ?_ rfl rfl rfl (by simp [Pc.rechecks])⟩
      all_goals split <;> rfl
  | taking =>
      simp only [hpc] at h
      split at h
      next q queued hdeq =>
        cases h
        exact ⟨_, rfl, rfl, .take queued rfl rfl rfl rfl rfl hdeq rfl⟩
      next q hdeq =>
        cases h
        exact ⟨_, rfl, rfl, .move rfl rfl rfl (DetectionQueue.dequeue_none hdeq).1 rfl
          (by simp [Pc.rechecks])⟩
  | taken queued =>
      simp only [hpc] at h
      split at h
      · cases h
      split at h
      next hlive =>
        split at h
        · cases h
          exact ⟨_, rfl, rfl, .writeBorrowed queued _ rfl (fun _ => hlive) rfl rfl rfl rfl rfl⟩
        · cases h
          exact ⟨_, rfl, rfl, .move rfl rfl rfl rfl rfl (fun _ => hlive)⟩
      next hlive =>
        cases h
        exact ⟨_, rfl, rfl, .forget queued rfl rfl (by simpa using hlive) rfl rfl⟩
  | putBack queued =>
      simp only [hpc, Option.map_eq_some_iff] at h
      obtain ⟨⟨q, ok⟩, henq, rfl⟩ := h
      exact ⟨_, rfl, rfl, .putBack queued ok rfl rfl rfl rfl rfl henq rfl⟩
  | leaving =>
      simp only [hpc] at h
      split at h
      · cases h
      cases h
      exact ⟨_, rfl, rfl, .move rfl rfl rfl rfl rfl (by simp [Pc.rechecks])⟩

/-- The calls that are single steps leave threads, queue and history alone. -/
theorem step_other {s s' : ClientSystem codec Tid} {l : ClientAct R Tid}
    (hcall : ∀ t r, l ≠ .streamDetection t r) (hrun : ∀ t o, l ≠ .run t o)
    (h : s.step l = some s') :
    s'.threads = s.threads ∧ s'.accepted = s.accepted ∧ s'.written = s.written ∧
      s'.client.queue = s.client.queue := by
  cases l with
  | streamDetection t r => exact absurd rfl (hcall t r)
  | run t o => exact absurd rfl (hrun t o)
  | connect o =>
      simp only [step] at h
      split at h
      · cases h
      cases h
      exact ⟨rfl, rfl, rfl, GrpcClient.connect_queue _ _⟩
  | disconnect =>
      simp only [step] at h
      split at h
      · cases h
      cases h
      exact ⟨rfl, rfl, rfl, GrpcClient.disconnect_queue _⟩
  | flushStream o =>
      simp only [step] at h
      split at h
      · cases h
      cases h
      exact ⟨rfl, rfl, rfl, GrpcClient.flushStream_queue _ _⟩
  | startEventStream o =>
      simp only [step] at h
      split at h
      · cases h
      obtain ⟨⟨c, ok⟩, hstart, rfl⟩ := Option.map_eq_some_iff.mp h
      exact ⟨rfl, rfl, rfl, GrpcClient.startEventStream_queue hstart⟩
  | eventReaderEnds =>
      cases h
      exact ⟨rfl, rfl, rfl, rfl⟩
  | stopEventStream =>
      simp only [step] at h
      split at h
      · cases h
      cases h
      exact ⟨rfl, rfl, rfl, rfl⟩

/-- A call begins on an idle thread and hands its result over. -/
theorem step_call {s s' : ClientSystem codec Tid} {t : Tid} {r : R}
    (h : s.step (.streamDetection t r) = some s') :
    s.threads t = .idle ∧ s'.threads = Function.update s.threads t (.entry r) ∧
      s'.accepted = s.accepted ++ [r] ∧ s'.written = s.written ∧ s'.client = s.client := by
  simp only [step] at h
  split at h
  next hidle =>
    cases h
    exact ⟨hidle, rfl, rfl, rfl, rfl⟩
  next => cases h

end ClientSystem
