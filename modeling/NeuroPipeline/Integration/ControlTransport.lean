-- SUMMARY: Control commands on their way from the central to the edges: where each command is, and what is left of it in the settings of an edge.
import NeuroPipeline.Central.CommandDelivery
import NeuroPipeline.Edge.CommandedSettings
import NeuroPipeline.Lib.Pipe
import NeuroPipeline.Lib.Refinement

/-!
# Commands on their way

The command queue with its handlers, the event streams, and the loops of all edges. There is one
queue for all of them, so that a command is for whichever edge's handler takes it. An edge opens
its event stream once, at the start of its loop.
-/

structure ControlTransport {F : Type} [CFloat F] (P : Platform F) (Device : Type) where
  edges : Device → EdgeSystem P
  /-- the device of each handler -/
  peers : List Device
  central : CommandDelivery
  /-- the commands on the event stream of a device -/
  streams : Device → Pipe ControlCommand

inductive ControlAct (Device F : Type) where
  | edge (d : Device) (act : EdgeAct F)
  /-- the server starts the handler of an event stream -/
  | accept (d : Device)
  | central (act : DeliveryAct)
  /-- the reader thread is given the next command -/
  | receive (d : Device) (answer : EngineInit)

/-- What happens at the central beside the opening of streams. -/
def DeliveryAct.besides : DeliveryAct → Bool
  | .openStream => false
  | _ => true

/-- The command that is neither in the queue nor yielded. -/
def EventStream.held (st : EventStream) : List ControlCommand :=
  match st.phase with
  | .taken cmd => [cmd]
  | .waiting | .yielding | .ended => []

/-- What a step of the handler writes to its stream; after a disconnect nothing is written. -/
def CommandDelivery.writes (s : CommandDelivery) : DeliveryAct → Option (Nat × ControlCommand)
  | .yieldEvent i =>
    match s.streams[i]? with
    | some ⟨.taken cmd, true⟩ => some (i, cmd)
    | _ => none
  | _ => none

namespace ControlTransport

variable {F : Type} [CFloat F] {P : Platform F} {Device : Type} [DecidableEq Device]

/-- The central has taken a step. -/
def centralMoved (s : ControlTransport P Device) (act : DeliveryAct) (central : CommandDelivery) :
    ControlTransport P Device :=
  { s with
    central := central
    streams :=
      match s.central.writes act with
      | none => s.streams
      | some (i, cmd) => s.peers[i]?.elim s.streams fun d =>
          Function.update s.streams d ((s.streams d).send [cmd]) }

variable [OfNumeral F]

def step (s : ControlTransport P Device) : ControlAct Device F → Option (ControlTransport P Device)
  | .edge d act =>
    if act.commanded.isNone then
      ((s.edges d).step act).map fun edge => { s with edges := Function.update s.edges d edge }
    else none
  | .accept d =>
    if (s.edges d).client.client.eventStream.isSome ∧ d ∉ s.peers then
      (s.central.step .openStream).map fun central =>
        { s with peers := s.peers ++ [d], central := central }
    else none
  | .central act =>
    if act.besides then (s.central.step act).map (s.centralMoved act) else none
  | .receive d answer =>
    (s.streams d).receive.bind fun (cmd, p) =>
      ((s.edges d).step (.command cmd answer)).map fun edge =>
        { s with
          edges := Function.update s.edges d edge
          streams := Function.update s.streams d p }

end ControlTransport

def controlTransport {F : Type} [CFloat F] [OfNumeral F] (P : Platform F) {Device : Type}
    [DecidableEq Device] (config : Device → PipelineConfig F) :
    TransitionSystem (ControlTransport P Device) (ControlAct Device F) where
  init s := (∀ d, (edgeSystem P (config d)).init (s.edges d)) ∧ s.peers = [] ∧
    s.central = .new ∧ s.streams = fun _ => {}
  step := ControlTransport.step

namespace ControlTransport

variable {F : Type} [CFloat F] {P : Platform F} {Device : Type} {s s' : ControlTransport P Device}

/-! ## The order of the commands -/

theorem getElem?_set_cases {α : Type} {xs : List α} {i j : Nat} {x y : α}
    (h : (xs.set i x)[j]? = some y) : (i = j ∧ x = y) ∨ (i ≠ j ∧ xs[j]? = some y) := by
  by_cases hij : i = j
  · subst hij
    obtain ⟨hlt, -⟩ := List.getElem?_eq_some_iff.mp h
    rw [List.getElem?_set_self (by simpa using hlt)] at h
    exact .inl ⟨rfl, Option.some_inj.mp h⟩
  · rw [List.getElem?_set_ne hij] at h
    exact .inr ⟨hij, h⟩

/-- What the devices have been given, or will be, is part of what the handlers have taken. -/
structure InOrder (s : ControlTransport P Device) (taken : List ControlCommand) : Prop where
  length : s.peers.length = s.central.streams.length
  nodup : s.peers.Nodup
  sent : s.central.sent = taken ++ s.central.commandQueue
  written : ∀ d, (s.streams d).sent.Sublist taken
  held : ∀ (i : Nat) d (st : EventStream), s.peers[i]? = some d → s.central.streams[i]? = some st →
    ((s.streams d).sent ++ st.held).Sublist taken

/-- A handler goes on, with nothing that it did not hold. -/
theorem InOrder.set {taken : List ControlCommand} (h : s.InOrder taken) {i : Nat}
    {st st' : EventStream} (hst : s.central.streams[i]? = some st) (hheld : st'.held.Sublist st.held)
    (yielded : List (ControlCommand × Bool)) :
    InOrder { s with central := { s.central with
      streams := s.central.streams.set i st', yielded := yielded } } taken where
  length := by rw [h.length]; exact (List.length_set ..).symm
  nodup := h.nodup
  sent := h.sent
  written := h.written
  held j d st₁ hd hst₁ := by
    obtain ⟨rfl, rfl⟩ | ⟨-, hother⟩ := getElem?_set_cases hst₁
    · exact (hheld.append_left _).trans (h.held _ d st hd hst)
    · exact h.held j d st₁ hd hother

/-- A handler takes the oldest command. -/
theorem InOrder.take {taken : List ControlCommand} (h : s.InOrder taken) {i : Nat} {live : Bool}
    {cmd : ControlCommand} {rest : List ControlCommand}
    (hqueue : s.central.commandQueue = cmd :: rest) :
    InOrder { s with central := { s.central with
      streams := s.central.streams.set i ⟨.taken cmd, live⟩, commandQueue := rest } }
      (taken ++ [cmd]) where
  length := by rw [h.length]; exact (List.length_set ..).symm
  nodup := h.nodup
  sent := by
    rw [List.append_assoc, List.singleton_append, ← hqueue]
    exact h.sent
  written d := (h.written d).trans (List.sublist_append_left _ _)
  held j d st₁ hd hst₁ := by
    obtain ⟨rfl, rfl⟩ | ⟨-, hother⟩ := getElem?_set_cases hst₁
    · exact (h.written d).append (List.Sublist.refl [cmd])
    · exact (h.held j d st₁ hd hother).trans (List.sublist_append_left _ _)

/-- A new handler holds nothing. -/
theorem InOrder.accept {taken : List ControlCommand} (h : s.InOrder taken) {d : Device}
    (hnew : d ∉ s.peers) : InOrder { s with
      peers := s.peers ++ [d]
      central := { s.central with streams := s.central.streams ++ [⟨.waiting, true⟩] } } taken where
  length := by simp [h.length]
  nodup := h.nodup.append (List.nodup_singleton d) (by simpa using hnew)
  sent := h.sent
  written := h.written
  held j d' st hd' hst := by
    rcases Nat.lt_or_ge j s.peers.length with hlt | hge
    · rw [List.getElem?_append_left hlt] at hd'
      rw [List.getElem?_append_left (h.length ▸ hlt)] at hst
      exact h.held j d' st hd' hst
    · rw [List.getElem?_append_right (h.length ▸ hge)] at hst
      obtain rfl := List.mem_singleton.mp (List.mem_of_getElem? hst)
      exact (List.append_nil _).symm ▸ h.written d'

theorem held_eq_of_holding {st st' : EventStream} (h : st'.holding = st.holding) :
    st'.held = st.held := by
  obtain ⟨phase, live⟩ := st
  obtain ⟨phase', live'⟩ := st'
  cases phase <;> cases phase' <;> simp_all [EventStream.holding, EventStream.held]

theorem InOrder.exists_peer {taken : List ControlCommand} (h : s.InOrder taken) {i : Nat}
    {st : EventStream} (hst : s.central.streams[i]? = some st) : ∃ d, s.peers[i]? = some d := by
  obtain ⟨hlt, -⟩ := List.getElem?_eq_some_iff.mp hst
  exact ⟨_, List.getElem?_eq_getElem (h.length ▸ hlt)⟩

variable [DecidableEq Device]

theorem sent_update_send (streams : Device → Pipe ControlCommand) (d d' : Device)
    (cmds : List ControlCommand) : (Function.update streams d ((streams d).send cmds) d').sent =
      (streams d').sent ++ if d' = d then cmds else [] := by
  by_cases hsame : d' = d
  · subst hsame
    rw [Function.update_self, Pipe.sent_send, if_pos rfl]
  · rw [Function.update_of_ne hsame, if_neg hsame, List.append_nil]

theorem centralMoved_of_none {act : DeliveryAct} {central : CommandDelivery}
    (h : s.central.writes act = none) : s.centralMoved act central = { s with central := central } := by
  rw [centralMoved, h]

theorem received_centralMoved (s : ControlTransport P Device) (act : DeliveryAct)
    (central : CommandDelivery) (d : Device) :
    ((s.centralMoved act central).streams d).received = (s.streams d).received := by
  unfold centralMoved
  cases s.central.writes act with
  | none => rfl
  | some w =>
      obtain ⟨i, cmd⟩ := w
      cases hpeer : s.peers[i]? with
      | none => simp [hpeer]
      | some d' => by_cases hd : d = d' <;> simp [hpeer, hd]

theorem centralMoved_yieldEvent {i : Nat} {d : Device} {cmd : ControlCommand}
    {central : CommandDelivery} (hst : s.central.streams[i]? = some ⟨.taken cmd, true⟩)
    (hd : s.peers[i]? = some d) : s.centralMoved (.yieldEvent i) central =
      { s with
        central := central
        streams := Function.update s.streams d ((s.streams d).send [cmd]) } := by
  simp [centralMoved, CommandDelivery.writes, hst, hd]

/-- A handler writes what it has taken. -/
theorem InOrder.write {taken : List ControlCommand} (h : s.InOrder taken) {i : Nat} {d : Device}
    {cmd : ControlCommand} (hst : s.central.streams[i]? = some ⟨.taken cmd, true⟩)
    (hd : s.peers[i]? = some d) (yielded : List (ControlCommand × Bool)) :
    InOrder { s with
      central := { s.central with
        streams := s.central.streams.set i ⟨.yielding, true⟩, yielded := yielded }
      streams := Function.update s.streams d ((s.streams d).send [cmd]) } taken where
  length := by rw [h.length]; exact (List.length_set ..).symm
  nodup := h.nodup
  sent := h.sent
  written d' := by
    simp only [sent_update_send]
    split
    · next hsame =>
        subst hsame
        exact h.held i d' _ hd hst
    · rw [List.append_nil]
      exact h.written d'
  held j d' st₁ hd' hst₁ := by
    simp only [sent_update_send]
    obtain ⟨rfl, rfl⟩ | ⟨hne, hother⟩ := getElem?_set_cases hst₁
    · obtain rfl : d = d' := Option.some_inj.mp (hd.symm.trans hd')
      rw [if_pos rfl, List.append_assoc]
      exact h.held i d _ hd hst
    · -- another handler is that of another device
      have hdiffer : d' ≠ d := by
        rintro rfl
        obtain ⟨hlt, -⟩ := List.getElem?_eq_some_iff.mp hd
        exact hne ((List.getElem?_inj hlt h.nodup).mp (hd.trans hd'.symm))
      rw [if_neg hdiffer, List.append_nil]
      exact h.held j d' st₁ hd' hother

theorem InOrder.central {taken : List ControlCommand} (h : s.InOrder taken) {act : DeliveryAct}
    {central : CommandDelivery} (hbesides : act.besides = true)
    (hs : s.central.step act = some central) :
    ∃ taken', InOrder (s.centralMoved act central) taken' := by
  rcases CommandDelivery.step_cases hs with ⟨cmd, rfl, rfl⟩ | ⟨rfl, rfl⟩ |
    ⟨i, live, cmd, rest, rfl, hst, hqueue, rfl⟩ | ⟨i, cmd, live, rfl, hst, rfl⟩ |
    ⟨i, st, hl, hst, hzero, rfl⟩ | ⟨i, st, st', hl, hst, hsame, hlive, rfl⟩
  · rw [centralMoved_of_none rfl]
    refine ⟨taken, h.length, h.nodup, ?_, h.written, h.held⟩
    rw [h.sent, List.append_assoc]
  · cases hbesides
  · rw [centralMoved_of_none rfl]
    exact ⟨_, h.take hqueue⟩
  · cases live with
    | true =>
        obtain ⟨d, hd⟩ := h.exists_peer hst
        rw [centralMoved_yieldEvent hst hd]
        exact ⟨taken, h.write hst hd _⟩
    | false =>
        rw [centralMoved_of_none (by simp [CommandDelivery.writes, hst])]
        refine ⟨taken, h.set hst ?_ _⟩
        exact List.nil_sublist _
  · have hnone : s.central.writes act = none := by rcases hl with rfl | rfl <;> rfl
    rw [centralMoved_of_none hnone]
    refine ⟨taken, h.set hst ?_ _⟩
    rw [held_eq_of_holding (CommandDelivery.loop_holding.trans hzero.symm)]
  · have hnone : s.central.writes act = none := by rcases hl with rfl | rfl <;> rfl
    rw [centralMoved_of_none hnone]
    refine ⟨taken, h.set hst ?_ _⟩
    rw [held_eq_of_holding hsame]

theorem sent_update_receive {streams : Device → Pipe ControlCommand} {d : Device}
    {cmd : ControlCommand} {p : Pipe ControlCommand} (h : (streams d).receive = some (cmd, p))
    (d' : Device) : (Function.update streams d p d').sent = (streams d').sent := by
  by_cases hsame : d' = d
  · subst hsame
    rw [Function.update_self, (Pipe.receive_eq_some h).2]
  · rw [Function.update_of_ne hsame]

/-! ## The account -/

theorem holdings_sent_send [Fintype Device] (streams : Device → Pipe ControlCommand) (d : Device)
    (cmd : ControlCommand) :
    Custody.holdings (fun d' =>
        ((Function.update streams d ((streams d).send [cmd]) d').sent : Multiset ControlCommand)) =
      Custody.holdings (fun d' => ((streams d').sent : Multiset ControlCommand)) + {cmd} := by
  have hone : ∀ d', ((if d' = d then [cmd] else [] : List ControlCommand) : Multiset ControlCommand) =
      if d' = d then {cmd} else 0 := fun d' => by split <;> rfl
  simp only [Custody.holdings, sent_update_send, ← Multiset.coe_add, hone, Finset.sum_add_distrib,
    Finset.sum_ite_eq', Finset.mem_univ, if_true]

/-- What handlers yield while their streams are live is written to these. -/
def Written [Fintype Device] (s : ControlTransport P Device) : Prop :=
  s.central.yieldedWhile true =
    Custody.holdings fun d => ((s.streams d).sent : Multiset ControlCommand)

theorem Written.central [Fintype Device] {taken : List ControlCommand} (hin : s.InOrder taken)
    (h : s.Written) {act : DeliveryAct} {central : CommandDelivery}
    (hs : s.central.step act = some central) : (s.centralMoved act central).Written := by
  rcases CommandDelivery.step_cases hs with ⟨cmd, rfl, rfl⟩ | ⟨rfl, rfl⟩ |
    ⟨i, live, cmd, rest, rfl, hst, hqueue, rfl⟩ | ⟨i, cmd, live, rfl, hst, rfl⟩ |
    ⟨i, st, hl, hst, hzero, rfl⟩ | ⟨i, st, st', hl, hst, hsame, hlive, rfl⟩
  · exact h
  · exact h
  · exact h
  · cases live with
    | true =>
        obtain ⟨d, hd⟩ := hin.exists_peer hst
        rw [centralMoved_yieldEvent hst hd, Written]
        simp only [holdings_sent_send]
        rw [CommandDelivery.yieldedWhile_snoc, if_pos rfl, h]
    | false =>
        rw [centralMoved_of_none (by simp [CommandDelivery.writes, hst]), Written,
          CommandDelivery.yieldedWhile_snoc, if_neg (by simp), add_zero]
        exact h
  · rcases hl with rfl | rfl <;> exact h
  · rcases hl with rfl | rfl <;> exact h

variable [OfNumeral F] {l : ControlAct Device F}

/-! ## One step -/

inductive Moves (s : ControlTransport P Device) :
    ControlAct Device F → ControlTransport P Device → Prop where
  | edge {d : Device} {act : EdgeAct F} {edge : EdgeSystem P} (hact : act.commanded = none)
      (hedge : (s.edges d).step act = some edge) :
      Moves s (.edge d act) { s with edges := Function.update s.edges d edge }
  | accept {d : Device} (hnew : d ∉ s.peers) :
      Moves s (.accept d) { s with
        peers := s.peers ++ [d]
        central := { s.central with streams := s.central.streams ++ [⟨.waiting, true⟩] } }
  | central {act : DeliveryAct} {central : CommandDelivery} (hbesides : act.besides = true)
      (hcentral : s.central.step act = some central) :
      Moves s (.central act) (s.centralMoved act central)
  | receive {d : Device} {answer : EngineInit} {cmd : ControlCommand} {p : Pipe ControlCommand}
      {edge : EdgeSystem P} (hreceive : (s.streams d).receive = some (cmd, p))
      (hedge : (s.edges d).step (.command cmd answer) = some edge) :
      Moves s (.receive d answer) { s with
        edges := Function.update s.edges d edge
        streams := Function.update s.streams d p }

theorem step_moves (hs : s.step l = some s') : s.Moves l s' := by
  cases l with
  | edge d act =>
      obtain ⟨hact, hstep⟩ := Option.ite_none_right_eq_some.mp hs
      obtain ⟨edge, hedge, rfl⟩ := Option.map_eq_some_iff.mp hstep
      exact .edge (Option.isNone_iff_eq_none.mp hact) hedge
  | accept d =>
      obtain ⟨hopened, hstep⟩ := Option.ite_none_right_eq_some.mp hs
      cases hstep
      exact .accept hopened.2
  | central act =>
      obtain ⟨hbesides, hstep⟩ := Option.ite_none_right_eq_some.mp hs
      obtain ⟨central, hcentral, rfl⟩ := Option.map_eq_some_iff.mp hstep
      exact .central hbesides hcentral
  | receive d answer =>
      obtain ⟨⟨cmd, p⟩, hreceive, hstep⟩ := Option.bind_eq_some_iff.mp hs
      obtain ⟨edge, hedge, rfl⟩ := Option.map_eq_some_iff.mp hstep
      exact .receive hreceive hedge

theorem step_inOrder {taken : List ControlCommand} (h : s.InOrder taken)
    (hs : s.step l = some s') : ∃ taken', s'.InOrder taken' := by
  cases step_moves hs with
  | edge => exact ⟨taken, h.length, h.nodup, h.sent, h.written, h.held⟩
  | accept hnew => exact ⟨taken, h.accept hnew⟩
  | central hbesides hcentral => exact h.central hbesides hcentral
  | receive hreceive hedge =>
      refine ⟨taken, h.length, h.nodup, h.sent, fun d' => ?_, fun j d' st hd' hst => ?_⟩
      · simp only [sent_update_receive hreceive]
        exact h.written d'
      · simp only [sent_update_receive hreceive]
        exact h.held j d' st hd' hst

theorem step_written [Fintype Device] {taken : List ControlCommand} (hin : s.InOrder taken)
    (h : s.Written) (hs : s.step l = some s') : s'.Written := by
  cases step_moves hs with
  | edge | accept => exact h
  | central _ hcentral => exact h.central hin hcentral
  | receive hreceive =>
      simp only [Written, sent_update_receive hreceive]
      exact h

/-! ## Two edges -/

/-- Two edges, and a central that has sent nothing. -/
def twoEdges : ControlTransport (.small []) Bool where
  edges _ := .new (.small []) (EdgeSystem.smallCoordinator EdgeSystem.smallConfig)
  peers := []
  central := .new
  streams _ := {}

theorem twoEdges_init :
    (controlTransport (.small []) fun _ => EdgeSystem.smallConfig).init twoEdges :=
  ⟨fun _ => EdgeSystem.init_small _ EdgeSystem.smallConfig rfl, rfl, rfl, rfl⟩

def fpsCommand (commandId : Nat) (text : String) : ControlCommand where
  type := .setFps
  parameters := [("fps", text)]
  commandId := commandId

/-- The second command ends the process of the edge. -/
def sampleCommands : List (ControlAct Bool Binary32) :=
  [.edge true (.connect {}), .edge true (.startEventStream {}), .accept true,
    .central (.sendCommand (fpsCommand 1 "15")), .central (.sendCommand (fpsCommand 2 "fast")),
    .central (.getPendingCommand 0), .central (.yieldEvent 0), .receive true .ready,
    .central (.resume 0), .central (.getPendingCommand 0), .central (.yieldEvent 0)]

/-! ## Whole runs -/

/-- What the loop of a device does. -/
def edgeSeen (d : Device) (s : ControlTransport P Device) : ControlAct Device F → Option (EdgeAct F)
  | .edge d' act => if d' = d then some act else none
  | .receive d' answer =>
    if d' = d then (s.streams d).receive.map fun r => .command r.1 answer else none
  | .accept _ | .central _ => none

/-- What happens at the queue and its handlers. -/
def centralSeen (_ : ControlTransport P Device) : ControlAct Device F → Option DeliveryAct
  | .accept _ => some .openStream
  | .central act => some act
  | .edge .. | .receive .. => none

variable {config : Device → PipelineConfig F} {s₀ : ControlTransport P Device}
  {t : List (ControlTransport P Device × ControlAct Device F)}

theorem projects_edge (d : Device) : (controlTransport P config).Projects
    (edgeSystem P (config d)) (fun s => s.edges d) (edgeSeen d) := by
  intro s l s' hs
  cases step_moves hs with
  | @edge d' act edge _ hedge =>
      by_cases hd : d' = d
      · subst hd
        simp only [edgeSeen, if_true, Function.update_self]
        exact hedge
      · simp only [edgeSeen, if_neg hd, Function.update_of_ne (Ne.symm hd)]
  | @receive d' answer cmd p edge hreceive hedge =>
      by_cases hd : d' = d
      · subst hd
        simp only [edgeSeen, if_true, hreceive, Option.map_some, Function.update_self]
        exact hedge
      · simp only [edgeSeen, if_neg hd, Function.update_of_ne (Ne.symm hd)]
  | accept | central => rfl

theorem projects_central : (controlTransport P config).Projects deliverySystem
    (fun s => s.central) centralSeen := by
  intro s l s' hs
  cases step_moves hs with
  | accept => rfl
  | central _ hcentral => exact hcentral
  | edge | receive => rfl

/-- The steps of the loop of a device. -/
def edgeTrace (d : Device) (t : List (ControlTransport P Device × ControlAct Device F)) :
    List (EdgeSystem P × EdgeAct F) :=
  TransitionSystem.projectTrace (fun s => s.edges d) (edgeSeen d) t

/-- The commands that a device has executed. -/
def executedAt (d : Device) (t : List (ControlTransport P Device × ControlAct Device F)) :
    List ControlCommand :=
  EdgeSystem.executed (edgeTrace d t)

omit [OfNumeral F] in
theorem executedAt_snoc (d : Device) (t : List (ControlTransport P Device × ControlAct Device F))
    (s : ControlTransport P Device) (l : ControlAct Device F) :
    executedAt d (t ++ [(s, l)]) =
      executedAt d t ++ ((edgeSeen d s l).bind EdgeAct.commanded).toList := by
  rw [executedAt, edgeTrace, TransitionSystem.projectTrace_snoc]
  cases h : edgeSeen d s l with
  | none => simp [executedAt, edgeTrace]
  | some act => exact EdgeSystem.executed_snoc _ _ act

/-- What the reader thread of a device has been given is what the device has executed. -/
theorem received_eq_executedAt (hinit : (controlTransport P config).init s₀)
    (hrun : (controlTransport P config).Run s₀ t s) (d : Device) :
    (s.streams d).received = executedAt d t := by
  induction hrun with
  | nil =>
      rw [hinit.2.2.2]
      rfl
  | @snoc t s₁ s₂ l _ hs ih =>
      rw [executedAt_snoc, ← ih]
      cases step_moves hs with
      | @edge d' act edge hact hedge =>
          by_cases hd : d' = d <;> simp [edgeSeen, hd, hact]
      | accept => simp [edgeSeen]
      | central => rw [received_centralMoved]; simp [edgeSeen]
      | @receive d' answer cmd p edge hreceive hedge =>
          by_cases hd : d' = d
          · subst hd
            simp [edgeSeen, hreceive, EdgeAct.commanded, (Pipe.receive_eq_some hreceive).1]
          · simp [edgeSeen, hd, Function.update_of_ne (Ne.symm hd)]

/-- No handler ends while it holds a command, and none takes one after its end. -/
def Careful (s : ControlTransport P Device) (l : ControlAct Device F) : Prop :=
  ∀ act, centralSeen s l = some act → s.central.Careful act

/-- What is known of the queue, the handlers and the streams. -/
theorem run_books [Fintype Device] (hinit : (controlTransport P config).init s₀)
    (hrun : (controlTransport P config).Run s₀ t s) :
    (s.central.Books ∧ (s.central.stranded = 0 ↔ TransitionSystem.Respects Careful t)) ∧
      s.Written ∧ ∃ taken, s.InOrder taken := by
  constructor
  · have hcentral := hrun.project projects_central
    rw [hinit.2.2.1] at hcentral
    refine ⟨CommandDelivery.run_books hcentral, ?_⟩
    rw [CommandDelivery.run_stranded hcentral, TransitionSystem.respects_projectTrace]
    rfl
  · refine hrun.invariant (I := fun s => s.Written ∧ ∃ taken, s.InOrder taken) ?_ ?_
    · rintro s l s' ⟨hwritten, taken, hin⟩ hs
      exact ⟨step_written hin hwritten hs, step_inOrder hin hs⟩
    · obtain ⟨edges, peers, central, streams⟩ := s₀
      obtain ⟨-, rfl, rfl, rfl⟩ := hinit
      refine ⟨?_, [], rfl, List.nodup_nil, rfl, fun _ => List.Sublist.refl [], fun i d st hd => ?_⟩
      · simp [Written, Custody.holdings, CommandDelivery.yieldedWhile, CommandDelivery.new]
      · cases hd

theorem sent_balance [Fintype Device] (hinit : (controlTransport P config).init s₀)
    (hrun : (controlTransport P config).Run s₀ t s) :
    (s.central.sent : Multiset ControlCommand) = s.central.commandQueue +
      Custody.total EventStream.holding s.central.streams +
      Custody.holdings (fun d => ((s.streams d).underway : Multiset ControlCommand)) +
      Custody.holdings (fun d => (executedAt d t : Multiset ControlCommand)) +
      s.central.yieldedWhile false := by
  obtain ⟨⟨hbooks, -⟩, hwritten, -⟩ := run_books hinit hrun
  have hsplit : Custody.holdings (fun d => ((s.streams d).sent : Multiset ControlCommand)) =
      Custody.holdings (fun d => ((s.streams d).underway : Multiset ControlCommand)) +
        Custody.holdings (fun d => (executedAt d t : Multiset ControlCommand)) := by
    simp only [Custody.holdings, Pipe.sent, ← Multiset.coe_add, Finset.sum_add_distrib,
      received_eq_executedAt hinit hrun]
    exact add_comm _ _
  rw [hbooks, hwritten, hsplit]
  ac_rfl

theorem executedAt_sublist [Fintype Device] (hinit : (controlTransport P config).init s₀)
    (hrun : (controlTransport P config).Run s₀ t s) (d : Device) :
    (executedAt d t).Sublist s.central.sent := by
  obtain ⟨-, -, taken, hin⟩ := run_books hinit hrun
  rw [← received_eq_executedAt hinit hrun, hin.sent]
  have hgiven := (s.streams d).received_prefix_sent.sublist.trans (hin.written d)
  exact hgiven.trans (List.sublist_append_left _ _)

/-- Every command is in the queue, with a handler that has not yet passed it on, on the event stream
of a device, executed there, or was yielded too late, and only one of these. None is stranded exactly
when no handler ends with a command in its hand. A device executes commands in the order in which
they were sent. -/
theorem commands_accounted [Fintype Device] (hinit : (controlTransport P config).init s₀)
    (hrun : (controlTransport P config).Run s₀ t s) :
    (s.central.sent : Multiset ControlCommand) = s.central.commandQueue +
      Custody.total EventStream.holding s.central.streams +
      Custody.holdings (fun d => ((s.streams d).underway : Multiset ControlCommand)) +
      Custody.holdings (fun d => (executedAt d t : Multiset ControlCommand)) +
      s.central.yieldedWhile false ∧
    (s.central.stranded = 0 ↔ TransitionSystem.Respects Careful t) ∧
    ∀ d, (executedAt d t).Sublist s.central.sent :=
  ⟨sent_balance hinit hrun, (run_books hinit hrun).1.2, executedAt_sublist hinit hrun⟩

theorem commands_accounted_sample :
    ∃ t s, (controlTransport (.small []) fun _ => EdgeSystem.smallConfig).Run twoEdges t s ∧
      t.map Prod.snd = sampleCommands ∧
      (executedAt true t, (s.streams true).underway) = ([fpsCommand 1 "15"], [fpsCommand 2 "fast"]) ∧
      (executedAt true t).Sublist s.central.sent := by
  have hview : ((controlTransport (.small []) fun _ => EdgeSystem.smallConfig).execTrace twoEdges
      sampleCommands).map (fun r => (executedAt true r.1, (r.2.streams true).underway)) =
        some ([fpsCommand 1 "15"], [fpsCommand 2 "fast"]) := by decide +kernel
  obtain ⟨t, s, hrun, hlabels, hend⟩ := TransitionSystem.exists_run_of_execTrace hview
  exact ⟨t, s, hrun, hlabels, hend, (commands_accounted twoEdges_init hrun).2.2 true⟩

/-- Nothing is on its way, and nothing went elsewhere. -/
structure Delivered (d : Device) (t : List (ControlTransport P Device × ControlAct Device F))
    (s : ControlTransport P Device) : Prop where
  queue : s.central.commandQueue = []
  handlers : ∀ st ∈ s.central.streams, st.holding = 0
  careful : TransitionSystem.Respects Careful t
  streams : ∀ d', (s.streams d').underway = []
  alone : ∀ d' ≠ d, executedAt d' t = []

theorem stranded_eq_zero_iff {s : CommandDelivery} (h : ∀ st ∈ s.streams, st.holding = 0) :
    s.stranded = 0 ↔ s.yieldedWhile false = 0 := by
  have hnone : Custody.total EventStream.stranded s.streams = 0 :=
    Custody.total_eq_zero.mpr fun st hst => by simp [EventStream.stranded, h st hst]
  rw [CommandDelivery.stranded, hnone, zero_add]

/-- What is not with a device. -/
def elsewhere [Fintype Device] (d : Device)
    (t : List (ControlTransport P Device × ControlAct Device F)) (s : ControlTransport P Device) :
    Multiset ControlCommand :=
  s.central.commandQueue + Custody.total EventStream.holding s.central.streams +
    Custody.holdings (fun d => ((s.streams d).underway : Multiset ControlCommand)) +
    Custody.holdings (Function.update
      (fun d => (executedAt d t : Multiset ControlCommand)) d 0) +
    s.central.yieldedWhile false

theorem elsewhere_eq_zero_iff [Fintype Device] (hinit : (controlTransport P config).init s₀)
    (hrun : (controlTransport P config).Run s₀ t s) (d : Device) :
    elsewhere d t s = 0 ↔ Delivered d t s := by
  simp only [elsewhere, Custody.add_eq_zero_iff, Custody.total_eq_zero, Custody.holdings_eq_zero,
    Multiset.coe_eq_zero]
  obtain ⟨⟨-, hcareful⟩, -⟩ := run_books hinit hrun
  constructor
  · rintro ⟨⟨⟨⟨hqueue, hheld⟩, hstreams⟩, hothers⟩, hlate⟩
    refine ⟨hqueue, hheld, hcareful.mp ((stranded_eq_zero_iff hheld).mpr hlate), hstreams, ?_⟩
    intro d' hd'
    simpa [Function.update_of_ne hd'] using hothers d'
  · rintro ⟨hqueue, hheld, hrespects, hstreams, halone⟩
    refine ⟨⟨⟨⟨hqueue, hheld⟩, hstreams⟩, fun d' => ?_⟩,
      (stranded_eq_zero_iff hheld).mp (hcareful.mpr hrespects)⟩
    by_cases hd' : d' = d
    · rw [hd', Function.update_self]
    · rw [Function.update_of_ne hd', halone d' hd', Multiset.coe_nil]

end ControlTransport
