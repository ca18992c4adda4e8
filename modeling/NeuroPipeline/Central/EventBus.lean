-- SUMMARY: The event bus: its tables of handlers, the loops of a publication over them, and what may be called while a handler runs.
import Mathlib.Logic.Function.Basic
import NeuroPipeline.Lib.Cursor
import NeuroPipeline.Lib.Dict
import NeuroPipeline.Lib.TransitionSystem

/-!
# Event bus

Model of EventBus of events.py, run inside an event loop. Handlers do what they like: while
a publication is inside of a handler, anything may be called on the bus, and other
publications may go on. Between two handlers of one publication nothing else runs.
-/

universe u

structure Event where
  type : String
  source : String := ""
  id : String := ""

/-- A handler in a table. The number tells two subscriptions of one handler apart. -/
structure Subscription (H : Type u) where
  id : Nat
  handler : H
  deriving DecidableEq

inductive HandlerKind where
  | sync
  | async
  deriving DecidableEq

/-- A set of handlers, which counts how often it has changed. -/
structure HandlerSet (H : Type u) where
  elements : List (Subscription H) := []
  changes : Nat := 0

/-- The function that a subscription returns. -/
structure Unsubscribe (H : Type u) where
  kind : HandlerKind
  eventType : String
  handler : H

structure EventBus (H : Type u) where
  maxHistory : Nat := 1000
  /-- `_subscribers` and `_async_subscribers` -/
  subscribers : HandlerKind → Dict String (List (Subscription H)) := fun _ => ∅
  /-- `_wildcard_subscribers` and `_wildcard_async_subscribers` -/
  wildcardSubscribers : HandlerKind → HandlerSet H := fun _ => {}
  history : List Event := []
  nextId : Nat := 0

namespace EventBus

variable {H : Type u}

/-! ## Tables -/

/-- The loops of a publication. -/
structure Phase where
  kind : HandlerKind
  wildcard : Bool
  deriving DecidableEq

/-- In their order. -/
def Phase.all : List Phase := [⟨.sync, false⟩, ⟨.sync, true⟩, ⟨.async, false⟩, ⟨.async, true⟩]

section

variable (bus : EventBus H)

/-- `get(event_type, [])` -/
def handlersOf (kind : HandlerKind) (type : String) : List (Subscription H) :=
  ((bus.subscribers kind).lookup type).getD []

def setHandlers (kind : HandlerKind) (type : String) (l : List (Subscription H)) : EventBus H :=
  { bus with
    subscribers := Function.update bus.subscribers kind ((bus.subscribers kind).set type l) }

def setWildcard (kind : HandlerKind) (l : List (Subscription H)) : EventBus H :=
  { bus with
    wildcardSubscribers := Function.update bus.wildcardSubscribers kind
      ⟨l, (bus.wildcardSubscribers kind).changes + 1⟩ }

/-- The handlers that a loop is about. -/
def table (type : String) (phase : Phase) : List (Subscription H) :=
  if phase.wildcard then (bus.wildcardSubscribers phase.kind).elements
  else bus.handlersOf phase.kind type

def withNextId : EventBus H := { bus with nextId := bus.nextId + 1 }

/-- `_add_to_history` -/
def addToHistory (event : Event) : EventBus H :=
  let history := bus.history ++ [event]
  { bus with history := if bus.maxHistory < history.length then history.tail else history }

variable [DecidableEq H]

/-- Where a handler is found, or the length of the list. -/
def position (l : List (Subscription H)) (handler : H) : Nat :=
  l.findIdx fun x => x.handler = handler

def inWildcard (kind : HandlerKind) (handler : H) : Bool :=
  (bus.wildcardSubscribers kind).elements.any fun x => x.handler = handler

def addHandler (kind : HandlerKind) (type : String) (handler : H) : EventBus H :=
  let new : Subscription H := ⟨bus.nextId, handler⟩
  if type = "*" then
    if bus.inWildcard kind handler then bus
    else (bus.setWildcard kind ((bus.wildcardSubscribers kind).elements ++ [new])).withNextId
  else (bus.setHandlers kind type (bus.handlersOf kind type ++ [new])).withNextId

def subscribe (type : String) (handler : H) : EventBus H := bus.addHandler .sync type handler

def subscribeAsync (type : String) (handler : H) : EventBus H := bus.addHandler .async type handler

/-- The first handler that is equal is removed, whichever subscription it is of. -/
def unsubscribe (u : Unsubscribe H) : EventBus H :=
  if u.eventType = "*" then
    if bus.inWildcard u.kind u.handler then
      let elements := (bus.wildcardSubscribers u.kind).elements
      bus.setWildcard u.kind (elements.eraseIdx (position elements u.handler))
    else bus
  else if u.eventType ∈ bus.subscribers u.kind then
    let handlers := bus.handlersOf u.kind u.eventType
    bus.setHandlers u.kind u.eventType (handlers.eraseIdx (position handlers u.handler))
  else bus

end

/-! ## Loops -/

/-- A loop by its iterator. One over a set keeps the size that the set had, and raises when it
has another; what it gives of a set that has changed otherwise is left open. -/
inductive Loop where
  | list (kind : HandlerKind) (position : Nat)
  | set (kind : HandlerKind) (used changes : Nat) (visited : List Nat)

namespace Loop

def phase : Loop → Phase
  | list kind _ => ⟨kind, false⟩
  | set kind _ _ _ => ⟨kind, true⟩

def start (bus : EventBus H) : Phase → Loop
  | ⟨kind, false⟩ => list kind 0
  | ⟨kind, true⟩ =>
    let handlers := bus.wildcardSubscribers kind
    set kind handlers.elements.length handlers.changes []

end Loop

/-- What an iterator gives. -/
inductive Visit (H : Type u) where
  | handler (x : Subscription H) (loop : Loop)
  | done
  /-- a RuntimeError -/
  | changedSize

/-- The next handler of a loop. The order of a set is open as well: `pick` is what it gives
next, and there is no step with a choice that it does not have. -/
def visit (bus : EventBus H) (type : String) (pick : HandlerKind → Option Nat) :
    Loop → Option (Visit H)
  | .list kind i =>
    match (bus.handlersOf kind type)[i]? with
    | some x => some (.handler x (.list kind (i + 1)))
    | none => some .done
  | .set kind used changes visited =>
    let handlers := bus.wildcardSubscribers kind
    if handlers.elements.length ≠ used then some .changedSize
    else match pick kind with
      | some id =>
        (handlers.elements.find? fun x =>
          x.id = id ∧ (handlers.changes = changes → id ∉ visited)).map fun x =>
            .handler x (.set kind used changes (visited ++ [id]))
      | none =>
        if handlers.changes = changes → ∀ x ∈ handlers.elements, x.id ∈ visited then some .done
        else none

/-! ## Publications -/

/-- How a handler ends. -/
inductive HandlerEnd where
  | returned
  /-- an Exception; it has no text when formatting it raises -/
  | raised (text : Option String)
  /-- what is not an Exception, such as a CancelledError -/
  | aborted
  deriving DecidableEq

/-- The publication goes on: the `except` clause catches it and logs its text. -/
def HandlerEnd.caught : HandlerEnd → Bool
  | returned => true
  | raised text => text.isSome
  | aborted => false

inductive Status where
  /-- in a handler of the loop, with loops to come -/
  | running (loop : Loop) (rest : List Phase)
  | returned
  | raised

/-- A publication, with what it was to call and what it has called or scheduled. -/
structure Publication where
  event : Event
  /-- `publish_async` -/
  awaits : Bool
  status : Status := .returned
  due : List (Phase × Nat)
  called : List (Phase × Nat) := []

/-- The subscriptions of a table. -/
def keys (bus : EventBus H) (type : String) (phase : Phase) : List (Phase × Nat) :=
  (bus.table type phase).map fun x => (phase, x.id)

/-- The subscriptions that an event concerns. -/
def matching (bus : EventBus H) (type : String) : List (Phase × Nat) :=
  Phase.all.flatMap (bus.keys type)

namespace Publication

section

variable (p : Publication) (bus : EventBus H) (pick : HandlerKind → Option Nat)

/-- The loop goes on to its next handler, or is left. -/
def continueLoop (loop : Loop) (rest : List Phase) (after : Option Publication) :
    Option Publication :=
  (bus.visit p.event.type pick loop).bind fun
    | .handler x next =>
      some { p with status := .running next rest, called := p.called ++ [(loop.phase, x.id)] }
    | .done => after
    | .changedSize => some { p with status := .raised }

/-- `publish` makes a task of each asynchronous handler, and none of them runs meanwhile. -/
def schedule (phases : List Phase) : Publication :=
  { p with
    status := .returned
    called := p.called ++ phases.flatMap (bus.keys p.event.type) }

/-- From the start of a loop on. -/
def goTo : List Phase → Option Publication
  | [] => some { p with status := .returned }
  | phase :: rest =>
    if phase.kind = .async ∧ p.awaits = false then some (p.schedule bus (phase :: rest))
    else p.continueLoop bus pick (Loop.start bus phase) rest (goTo rest)

/-- The handler that the publication is in has ended. -/
def handlerEnds (ended : HandlerEnd) : Option Publication :=
  match p.status with
  | .running loop rest =>
    if ended.caught then p.continueLoop bus pick loop rest (p.goTo bus pick rest)
    else some { p with status := .raised }
  | .returned | .raised => none

end

end Publication

section

variable (bus : EventBus H) (event : Event) (pick : HandlerKind → Option Nat)

def dispatch (awaits : Bool) : Option Publication :=
  Publication.goTo { event := event, awaits := awaits, due := bus.matching event.type } bus pick
    Phase.all

def publish : Option Publication := (bus.addToHistory event).dispatch event pick false

def publishAsync : Option Publication := (bus.addToHistory event).dispatch event pick true

end

end EventBus

/-! ## The system -/

/-- The bus with its publications and the functions that subscriptions have returned. -/
structure BusRun (H : Type u) where
  bus : EventBus H
  publications : List EventBus.Publication := []
  unsubscribes : List (Unsubscribe H) := []

inductive BusAct (H : Type u) where
  | subscribe (type : String) (handler : H)
  | subscribeAsync (type : String) (handler : H)
  /-- the function that the subscription with this number returned is called -/
  | unsubscribe (k : Nat)
  | publish (event : Event) (pick : HandlerKind → Option Nat)
  | publishAsync (event : Event) (pick : HandlerKind → Option Nat)
  /-- the handler that the publication with this number is in ends -/
  | handlerEnds (k : Nat) (ended : EventBus.HandlerEnd) (pick : HandlerKind → Option Nat)

namespace BusRun

variable {H : Type u}

def withUnsubscribe (s : BusRun H) (u : Unsubscribe H) : BusRun H :=
  { s with unsubscribes := s.unsubscribes ++ [u] }

/-- A publication that has begun. -/
def begin (s : BusRun H) (event : Event) (p : EventBus.Publication) : BusRun H :=
  { s with bus := s.bus.addToHistory event, publications := s.publications ++ [p] }

variable [DecidableEq H]

def step (s : BusRun H) : BusAct H → Option (BusRun H)
  | .subscribe type handler =>
    some (withUnsubscribe { s with bus := s.bus.subscribe type handler } ⟨.sync, type, handler⟩)
  | .subscribeAsync type handler =>
    some (withUnsubscribe { s with bus := s.bus.subscribeAsync type handler }
      ⟨.async, type, handler⟩)
  | .unsubscribe k => s.unsubscribes[k]?.map fun u => { s with bus := s.bus.unsubscribe u }
  | .publish event pick => (s.bus.publish event pick).map (s.begin event)
  | .publishAsync event pick => (s.bus.publishAsync event pick).map (s.begin event)
  | .handlerEnds k ended pick =>
    s.publications[k]?.bind fun p =>
      (p.handlerEnds s.bus pick ended).map fun p =>
        { s with publications := s.publications.set k p }

end BusRun

/-- All runs from a bus without handlers. -/
def busSystem (H : Type u) [DecidableEq H] (maxHistory : Nat) :
    TransitionSystem (BusRun H) (BusAct H) where
  init s := s = { bus := { maxHistory := maxHistory } }
  step := BusRun.step
