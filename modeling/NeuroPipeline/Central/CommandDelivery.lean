-- SUMMARY: Commands between the queue and the event streams: what cancellations and disconnects make of them.
import NeuroPipeline.Lib.Custody
import NeuroPipeline.Lib.TransitionSystem
import NeuroPipeline.Proto.ControlCommand

/-!
# Delivery of commands

Model of the loop of `BidirectionalEventStream` of grpc_server.py with the
command queue of central_orchestrator.py. `wait_for` runs the `get` in a task of
its own: when that task has taken a command the wait ends with it, whatever else
has happened meanwhile, and before that a timeout or a cancellation takes
nothing from the queue.
-/

inductive StreamPhase where
  /-- in `wait_for` -/
  | waiting
  /-- the `get` has taken a command, and the handler has not gone on yet -/
  | taken (cmd : ControlCommand)
  /-- at the `yield` -/
  | yielding
  | ended

structure EventStream where
  phase : StreamPhase
  /-- `not context.cancelled()` -/
  live : Bool

structure CommandDelivery where
  commandQueue : List ControlCommand
  streams : List EventStream
  /-- the commands put into the queue so far -/
  sent : List ControlCommand
  /-- those yielded, and whether the stream was live at that time -/
  yielded : List (ControlCommand × Bool)

inductive DeliveryAct where
  | sendCommand (cmd : ControlCommand)
  | openStream
  /-- the task of `get_pending_command` takes the oldest command -/
  | getPendingCommand (i : Nat)
  /-- the handler goes on with it and yields it -/
  | yieldEvent (i : Nat)
  /-- the event was written, and the handler is resumed -/
  | resume (i : Nat)
  /-- one second has passed -/
  | timeout (i : Nat)
  /-- the peer is gone, and the handler does not know yet -/
  | disconnect (i : Nat)
  /-- the task of the handler is cancelled where it waits -/
  | cancel (i : Nat)

namespace EventStream

/-- The head of the loop. -/
def loop (st : EventStream) : EventStream :=
  { st with phase := if st.live then .waiting else .ended }

/-- A cancelled wait returns a command that was already taken. -/
def cancel (st : EventStream) : EventStream where
  phase :=
    match st.phase with
    | .taken cmd => .taken cmd
    | .waiting | .yielding | .ended => .ended
  live := false

/-- The command that is neither in the queue nor yielded. -/
def holding (st : EventStream) : Multiset ControlCommand :=
  match st.phase with
  | .taken cmd => {cmd}
  | .waiting | .yielding | .ended => 0

/-- The command that will be yielded too late. -/
def stranded (st : EventStream) : Multiset ControlCommand := if st.live then 0 else st.holding

end EventStream

namespace CommandDelivery

def new : CommandDelivery := ⟨[], [], [], []⟩

def step (s : CommandDelivery) : DeliveryAct → Option CommandDelivery
  | .sendCommand cmd =>
    some { s with commandQueue := s.commandQueue ++ [cmd], sent := s.sent ++ [cmd] }
  | .openStream => some { s with streams := s.streams ++ [⟨.waiting, true⟩] }
  | .getPendingCommand i =>
    match s.streams[i]?, s.commandQueue with
    | some ⟨.waiting, live⟩, cmd :: rest =>
      some { s with streams := s.streams.set i ⟨.taken cmd, live⟩, commandQueue := rest }
    | _, _ => none
  | .yieldEvent i =>
    match s.streams[i]? with
    | some ⟨.taken cmd, live⟩ =>
      some { s with
        streams := s.streams.set i ⟨.yielding, live⟩
        yielded := s.yielded ++ [(cmd, live)] }
    | _ => none
  | .resume i =>
    match s.streams[i]? with
    | some ⟨.yielding, live⟩ =>
      some { s with streams := s.streams.set i (EventStream.loop ⟨.yielding, live⟩) }
    | _ => none
  | .timeout i =>
    match s.streams[i]? with
    | some ⟨.waiting, live⟩ =>
      some { s with streams := s.streams.set i (EventStream.loop ⟨.waiting, live⟩) }
    | _ => none
  | .disconnect i =>
    match s.streams[i]? with
    | some st => some { s with streams := s.streams.set i { st with live := false } }
    | none => none
  | .cancel i =>
    match s.streams[i]? with
    | some st => some { s with streams := s.streams.set i st.cancel }
    | none => none

end CommandDelivery

def deliverySystem : TransitionSystem CommandDelivery DeliveryAct where
  init s := s = CommandDelivery.new
  step := CommandDelivery.step

namespace CommandDelivery

/-! ## Specification -/

def yieldedWhile (live : Bool) (s : CommandDelivery) : Multiset ControlCommand :=
  ((s.yielded.filter fun p => p.2 == live).map Prod.fst : List ControlCommand)

/-- Each command sent is in the queue or was yielded on a live stream. -/
def Conserved (s : CommandDelivery) : Prop :=
  (s.sent : Multiset ControlCommand) = s.commandQueue + s.yieldedWhile true

/-- No stream ends while it holds a command, and none takes one after its end. -/
def Careful (s : CommandDelivery) : DeliveryAct → Prop
  | .getPendingCommand i => ∀ st, s.streams[i]? = some st → st.live = true
  | .disconnect i | .cancel i => ∀ st, s.streams[i]? = some st → st.holding = 0
  | .sendCommand _ | .openStream | .yieldEvent _ | .resume _ | .timeout _ => True

/-- What was yielded too late, or will be. -/
def stranded (s : CommandDelivery) : Multiset ControlCommand :=
  Custody.total EventStream.stranded s.streams + s.yieldedWhile false

instance (s : CommandDelivery) : Decidable s.Conserved :=
  inferInstanceAs (Decidable (_ = _))

/-- The commands sent are in the queue, on the way or yielded. -/
def Books (s : CommandDelivery) : Prop :=
  (s.sent : Multiset ControlCommand) =
    s.commandQueue + Custody.total EventStream.holding s.streams +
      (s.yieldedWhile true + s.yieldedWhile false)

/-! ## One step -/

section

variable {s s' : CommandDelivery} {l : DeliveryAct}

theorem yieldedWhile_snoc {cmd : ControlCommand} {live b : Bool} {streams : List EventStream} :
    yieldedWhile b { s with streams := streams, yielded := s.yielded ++ [(cmd, live)] } =
      s.yieldedWhile b + if live = b then {cmd} else 0 := by
  by_cases h : live = b
  · simp [yieldedWhile, List.filter_append, h, ← Multiset.coe_add]
  · have hb : (live == b) = false := by simpa using h
    simp [yieldedWhile, List.filter_append, hb, h]

theorem books_set {i : Nat} {st st' : EventStream} (hst : s.streams[i]? = some st)
    (heq : st'.holding = st.holding) (h : s.Books) :
    Books { s with streams := s.streams.set i st' } := by
  simp only [Books, Custody.total_set_of_eq hst heq]
  exact h

theorem stranded_set {i : Nat} {st : EventStream} (st' : EventStream)
    (hst : s.streams[i]? = some st) :
    stranded { s with streams := s.streams.set i st' } + st.stranded =
      s.stranded + st'.stranded := by
  have hset := Custody.total_set EventStream.stranded st' hst
  simp only [stranded, yieldedWhile] at hset ⊢
  rw [add_right_comm, hset, add_right_comm]

/-- A stream that strands nothing before and after a step does not matter. -/
theorem stranded_set_of_zero {i : Nat} {st st' : EventStream} (hst : s.streams[i]? = some st)
    (h : st.stranded = 0) (h' : st'.stranded = 0) :
    stranded { s with streams := s.streams.set i st' } = s.stranded := by
  have hset := stranded_set st' hst
  rwa [h, h', add_zero, add_zero] at hset

/-- When a stream ends, what it holds is stranded. -/
theorem stranded_set_of_ended {i : Nat} {st st' : EventStream} (hst : s.streams[i]? = some st)
    (hholding : st'.holding = st.holding) (hlive : st'.live = false) :
    stranded { s with streams := s.streams.set i st' } = 0 ↔
      s.stranded = 0 ∧ st.holding = 0 := by
  have hset := stranded_set st' hst
  have hst' : st'.stranded = st.holding := by simp [EventStream.stranded, hlive, hholding]
  have hle : st.stranded = 0 ∨ st.stranded = st.holding := by
    cases hl : st.live <;> simp [EventStream.stranded, hl]
  rw [hst'] at hset
  constructor
  · intro hzero
    rw [hzero, zero_add] at hset
    rcases hle with h | h
    · rw [h] at hset
      exact Custody.add_eq_zero_iff.mp hset.symm
    · rw [h] at hset
      have hs : s.stranded = 0 := add_eq_right.mp hset.symm
      refine ⟨hs, ?_⟩
      rw [← h]
      exact Custody.total_eq_zero.mp (Custody.add_eq_zero_iff.mp hs).1 st
        (List.mem_of_getElem? hst)
  · rintro ⟨hs, hh⟩
    rw [hs, hh, add_zero] at hset
    exact (Custody.add_eq_zero_iff.mp hset).1

/-- A step of the handler with its task: what it does to the stream, and to the rest. -/
theorem step_cases (hs : s.step l = some s') :
    (∃ cmd, l = .sendCommand cmd ∧
      s' = { s with commandQueue := s.commandQueue ++ [cmd], sent := s.sent ++ [cmd] }) ∨
    (l = .openStream ∧ s' = { s with streams := s.streams ++ [⟨.waiting, true⟩] }) ∨
    (∃ i live cmd rest, l = .getPendingCommand i ∧ s.streams[i]? = some ⟨.waiting, live⟩ ∧
      s.commandQueue = cmd :: rest ∧
      s' = { s with streams := s.streams.set i ⟨.taken cmd, live⟩, commandQueue := rest }) ∨
    (∃ i cmd live, l = .yieldEvent i ∧ s.streams[i]? = some ⟨.taken cmd, live⟩ ∧
      s' = { s with
        streams := s.streams.set i ⟨.yielding, live⟩
        yielded := s.yielded ++ [(cmd, live)] }) ∨
    (∃ i st, (l = .resume i ∨ l = .timeout i) ∧ s.streams[i]? = some st ∧ st.holding = 0 ∧
      s' = { s with streams := s.streams.set i st.loop }) ∨
    (∃ i st st', (l = .disconnect i ∨ l = .cancel i) ∧ s.streams[i]? = some st ∧
      st'.holding = st.holding ∧ st'.live = false ∧
      s' = { s with streams := s.streams.set i st' }) := by
  cases l with
  | sendCommand cmd => exact .inl ⟨cmd, rfl, (Option.some.inj hs).symm⟩
  | openStream => exact .inr (.inl ⟨rfl, (Option.some.inj hs).symm⟩)
  | getPendingCommand i =>
      rcases hst : s.streams[i]? with _ | ⟨phase, live⟩
      · simp [step, hst] at hs
      cases phase <;> cases hq : s.commandQueue <;> simp only [step, hst, hq] at hs
      case waiting.cons cmd rest =>
        exact .inr (.inr (.inl ⟨i, live, cmd, rest, rfl, hst, rfl, (Option.some.inj hs).symm⟩))
      all_goals cases hs
  | yieldEvent i =>
      rcases hst : s.streams[i]? with _ | ⟨phase, live⟩
      · simp [step, hst] at hs
      cases phase <;> simp only [step, hst] at hs
      case taken cmd =>
        exact .inr (.inr (.inr (.inl ⟨i, cmd, live, rfl, hst, (Option.some.inj hs).symm⟩)))
      all_goals cases hs
  | resume i =>
      rcases hst : s.streams[i]? with _ | ⟨phase, live⟩
      · simp [step, hst] at hs
      cases phase <;> simp only [step, hst] at hs
      case yielding =>
        exact .inr (.inr (.inr (.inr (.inl ⟨i, _, .inl rfl, hst, rfl, (Option.some.inj hs).symm⟩))))
      all_goals cases hs
  | timeout i =>
      rcases hst : s.streams[i]? with _ | ⟨phase, live⟩
      · simp [step, hst] at hs
      cases phase <;> simp only [step, hst] at hs
      case waiting =>
        exact .inr (.inr (.inr (.inr (.inl ⟨i, _, .inr rfl, hst, rfl, (Option.some.inj hs).symm⟩))))
      all_goals cases hs
  | disconnect i =>
      rcases hst : s.streams[i]? with _ | st
      · simp [step, hst] at hs
      simp only [step, hst] at hs
      exact .inr (.inr (.inr (.inr (.inr
        ⟨i, st, { st with live := false }, .inl rfl, hst, rfl, rfl, (Option.some.inj hs).symm⟩))))
  | cancel i =>
      rcases hst : s.streams[i]? with _ | st
      · simp [step, hst] at hs
      simp only [step, hst] at hs
      have hholding : st.cancel.holding = st.holding := by
        rcases st with ⟨phase, live⟩
        cases phase <;> rfl
      exact .inr (.inr (.inr (.inr (.inr
        ⟨i, st, _, .inr rfl, hst, hholding, rfl, (Option.some.inj hs).symm⟩))))

theorem loop_holding {st : EventStream} : st.loop.holding = 0 := by
  cases hl : st.live <;> simp [EventStream.loop, EventStream.holding, hl]

/-- Every step keeps the books. -/
theorem step_books (h : s.Books) (hs : s.step l = some s') : s'.Books := by
  rcases step_cases hs with ⟨cmd, rfl, rfl⟩ | ⟨rfl, rfl⟩ | ⟨i, live, cmd, rest, rfl, hst, hq, rfl⟩ |
    ⟨i, cmd, live, rfl, hst, rfl⟩ | ⟨i, st, -, hst, hzero, rfl⟩ | ⟨i, st, st', -, hst, hsame, -, rfl⟩
  · simp only [Books, yieldedWhile, ← Multiset.coe_add] at h ⊢
    rw [h]
    ac_rfl
  · simpa [Books, yieldedWhile, EventStream.holding] using h
  · have hset := Custody.total_set EventStream.holding ⟨.taken cmd, live⟩ hst
    simp only [EventStream.holding, add_zero] at hset
    simp only [Books, yieldedWhile, hq, ← Multiset.cons_coe, hset] at h ⊢
    rw [h, ← Multiset.singleton_add]
    ac_rfl
  · have hset := Custody.total_set EventStream.holding ⟨.yielding, live⟩ hst
    simp only [EventStream.holding, add_zero] at hset
    simp only [Books, yieldedWhile_snoc] at h ⊢
    rw [h, ← hset]
    cases live <;> simp <;> ac_rfl
  · exact books_set hst (loop_holding.trans hzero.symm) h
  · exact books_set hst hsame h

/-- What every step does to the stranded commands. -/
theorem step_stranded (hs : s.step l = some s') :
    s'.stranded = 0 ↔ s.stranded = 0 ∧ s.Careful l := by
  rcases step_cases hs with ⟨cmd, rfl, rfl⟩ | ⟨rfl, rfl⟩ | ⟨i, live, cmd, rest, rfl, hst, hq, rfl⟩ |
    ⟨i, cmd, live, rfl, hst, rfl⟩ | ⟨i, st, hl, hst, hzero, rfl⟩ |
    ⟨i, st, st', hl, hst, hsame, hlive, rfl⟩
  · simp [Careful, stranded, yieldedWhile]
  · simp [Careful, stranded, yieldedWhile, EventStream.stranded]
  · -- the queue does not matter here
    have hqueue : stranded { s with
        streams := s.streams.set i ⟨.taken cmd, live⟩, commandQueue := rest } =
        stranded { s with streams := s.streams.set i ⟨.taken cmd, live⟩ } := rfl
    rw [hqueue]
    cases live with
    | true =>
        rw [stranded_set_of_zero hst rfl rfl]
        simp [Careful, hst]
    | false =>
        have hset := stranded_set ⟨.taken cmd, false⟩ hst
        rw [show EventStream.stranded ⟨.waiting, false⟩ = 0 from rfl, add_zero] at hset
        rw [hset, Custody.add_eq_zero_iff]
        simp [Careful, hst, EventStream.stranded, EventStream.holding]
  · have hlate : stranded { s with
        streams := s.streams.set i ⟨.yielding, live⟩, yielded := s.yielded ++ [(cmd, live)] } =
        stranded { s with streams := s.streams.set i ⟨.yielding, live⟩ } +
          if live = false then {cmd} else 0 := by
      rw [stranded, yieldedWhile_snoc, ← add_assoc]
      rfl
    have hsame : stranded { s with
        streams := s.streams.set i ⟨.yielding, live⟩, yielded := s.yielded ++ [(cmd, live)] } =
        s.stranded := by
      have hset := stranded_set ⟨.yielding, live⟩ hst
      rw [hlate]
      cases live with
      | true => simpa [EventStream.stranded] using hset
      | false => simpa [EventStream.stranded, EventStream.holding] using hset
    rw [hsame]
    simp [Careful]
  · have hcareful : s.Careful l := by rcases hl with rfl | rfl <;> trivial
    have hnone : st.stranded = 0 := by simp [EventStream.stranded, hzero]
    have hnone' : st.loop.stranded = 0 := by simp [EventStream.stranded, loop_holding]
    rw [stranded_set_of_zero hst hnone hnone']
    simp [hcareful]
  · rw [stranded_set_of_ended hst hsame hlive]
    have hcareful : s.Careful l ↔ st.holding = 0 := by
      rcases hl with rfl | rfl <;> simp [Careful, hst]
    rw [hcareful]

end

/-! ## Whole runs -/

theorem run_books {t : List (CommandDelivery × DeliveryAct)} {s : CommandDelivery}
    (hrun : deliverySystem.Run new t s) : s.Books :=
  hrun.invariant (I := Books) (fun _ _ _ h hs => step_books h hs) rfl

theorem run_stranded {t : List (CommandDelivery × DeliveryAct)} {s : CommandDelivery}
    (hrun : deliverySystem.Run new t s) :
    s.stranded = 0 ↔ TransitionSystem.Respects Careful t := by
  induction hrun with
  | nil => simp [stranded, yieldedWhile, new]
  | snoc _ hs ih => rw [TransitionSystem.respects_snoc, step_stranded hs, ih]

/-- Given balanced books, the commands are all accounted for when none is on its
way and none was yielded too late. -/
theorem conserved_of_books {s : CommandDelivery} (h : s.Books) :
    s.Conserved ↔ (∀ st ∈ s.streams, st.holding = 0) ∧ s.stranded = 0 := by
  have hheld : s.Conserved ↔
      Custody.total EventStream.holding s.streams + s.yieldedWhile false = 0 := by
    rw [Conserved, h, show s.commandQueue + Custody.total EventStream.holding s.streams +
      (s.yieldedWhile true + s.yieldedWhile false) = s.commandQueue + s.yieldedWhile true +
      (Custody.total EventStream.holding s.streams + s.yieldedWhile false) by ac_rfl]
    exact add_eq_left
  rw [hheld, Custody.add_eq_zero_iff, Custody.total_eq_zero, stranded, Custody.add_eq_zero_iff,
    Custody.total_eq_zero]
  constructor
  · rintro ⟨hnone, hlate⟩
    refine ⟨hnone, fun st hst => ?_, hlate⟩
    simp [EventStream.stranded, hnone st hst]
  · rintro ⟨hnone, -, hlate⟩
    exact ⟨hnone, hlate⟩

/-- No command has disappeared exactly when none is on its way and each stream has
yielded what it took before its end. -/
theorem conserved_iff_careful {t : List (CommandDelivery × DeliveryAct)} {s : CommandDelivery}
    (hrun : deliverySystem.Run new t s) :
    s.Conserved ↔
      (∀ st ∈ s.streams, st.holding = 0) ∧ TransitionSystem.Respects Careful t := by
  rw [conserved_of_books (run_books hrun), run_stranded hrun]

/-- The stream is cancelled when the command has just been taken. -/
def cancelledInTime : List DeliveryAct :=
  [.openStream, .sendCommand ⟨.setFps, [], 1⟩, .getPendingCommand 0, .cancel 0, .yieldEvent 0]

theorem exec_cancelledInTime :
    ∃ t s, deliverySystem.Run new t s ∧ ¬ s.Conserved ∧ ∀ st ∈ s.streams, st.holding = 0 := by
  have hview : (deliverySystem.execTrace new cancelledInTime).map
      (fun r => decide (¬ r.2.Conserved ∧ ∀ st ∈ r.2.streams, st.holding = 0)) = some true := by
    decide +kernel
  obtain ⟨t, s, hrun, -, hlost⟩ := TransitionSystem.exists_run_of_execTrace hview
  exact ⟨t, s, hrun, of_decide_eq_true hlost⟩

theorem not_conserved_cancelledInTime :
    ¬ ∀ t s, deliverySystem.Run new t s → (∀ st ∈ s.streams, st.holding = 0) → s.Conserved := by
  intro h
  obtain ⟨t, s, hrun, hlost, hquiet⟩ := exec_cancelledInTime
  exact hlost (h t s hrun hquiet)

theorem conserved_iff_careful_cancelledInTime :
    ∃ t s, deliverySystem.Run new t s ∧
      (s.Conserved ↔
        (∀ st ∈ s.streams, st.holding = 0) ∧ TransitionSystem.Respects Careful t) := by
  obtain ⟨t, s, hrun, -⟩ := exec_cancelledInTime
  exact ⟨t, s, hrun, conserved_iff_careful hrun⟩

end CommandDelivery
