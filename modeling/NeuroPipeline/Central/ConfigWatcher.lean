-- SUMMARY: The configuration watcher: the tables of callbacks, the loops of a poll and of a forced reload, and what may be called inside them.
import Mathlib.Algebra.Order.Ring.Rat
import Mathlib.Logic.Function.Basic
import NeuroPipeline.Lib.Cursor
import NeuroPipeline.Lib.Dict
import NeuroPipeline.Lib.TransitionSystem

/-!
# Configuration watcher

Model of ConfigWatcher of hot_reload.py, less the starting and stopping of its task.
The tables hold references to lists, and a loop keeps the list that it was given: a
list that has left the tables is still looped over. Paths are absolute.
-/

universe u

/-! ## Tables -/

/-- A callback in a list. The number tells two registrations of one callback apart. -/
structure Registration (C : Type u) where
  id : Nat
  callback : C
  deriving DecidableEq

inductive CallbackKind where
  | file
  | fileAsync
  | global
  | globalAsync
  deriving DecidableEq

structure ConfigChange where
  path : String
  oldHash : String
  newHash : String
  deriving DecidableEq

structure ConfigWatcher (C : Type u) where
  debounceSeconds : ℚ := 1
  watchedFiles : Dict String String := ∅
  callbacks : Dict String Nat := ∅
  asyncCallbacks : Dict String Nat := ∅
  pendingChanges : Dict String ℚ := ∅
  /-- the lists by reference; the first two are `_global_callbacks` and `_global_async_callbacks` -/
  lists : Nat → List (Registration C) := fun _ => []
  nextList : Nat := 2
  nextId : Nat := 0

/-- The function that `watch` returns, or `on_any_change`, which has no path. -/
structure Unwatch (C : Type u) where
  path : Option String
  callback : Option C
  asyncCallback : Option C

namespace ConfigWatcher

variable {C : Type u} (w : ConfigWatcher C)

/-- The list that a table holds for the path. -/
def listRef (path : String) : CallbackKind → Option Nat
  | .file => w.callbacks.lookup path
  | .fileAsync => w.asyncCallbacks.lookup path
  | .global => some 0
  | .globalAsync => some 1

/-- `none` is the empty list that `get` returns for a path that is not there. -/
def items : Option Nat → List (Registration C)
  | none => []
  | some r => w.lists r

def registered (path : String) (kind : CallbackKind) : List (Registration C) :=
  w.items (w.listRef path kind)

/-- The callbacks of the path alone. -/
def ofPath (path : String) : List (Registration C) :=
  [.file, .fileAsync].flatMap (w.registered path)

/-- Every callback that a change of the path concerns. -/
def concerned (path : String) : List (Registration C) :=
  [.file, .fileAsync, .global, .globalAsync].flatMap (w.registered path)

def append (r : Nat) (callback : C) : ConfigWatcher C :=
  { w with
    lists := Function.update w.lists r (w.lists r ++ [⟨w.nextId, callback⟩])
    nextId := w.nextId + 1 }

/-- The path is watched from now on, with two new lists. -/
def addFile (path hash : String) : ConfigWatcher C :=
  if path ∈ w.watchedFiles then w
  else { w with
    watchedFiles := w.watchedFiles.set path hash
    callbacks := w.callbacks.set path w.nextList
    asyncCallbacks := w.asyncCallbacks.set path (w.nextList + 1)
    nextList := w.nextList + 2 }

/-- `none` is the KeyError for a path without a list. -/
def register (path : String) (kind : CallbackKind) : Option C → Option (ConfigWatcher C)
  | none => some w
  | some callback => (w.listRef path kind).map fun r => w.append r callback

/-- The flag tells a call that has raised. -/
def watch (path hash : String) (callback asyncCallback : Option C) : ConfigWatcher C × Bool :=
  let w := w.addFile path hash
  match w.register path .file callback with
  | none => (w, true)
  | some w =>
    match w.register path .fileAsync asyncCallback with
    | none => (w, true)
    | some w => (w, false)

def appendOpt (r : Nat) (callback : Option C) : ConfigWatcher C :=
  callback.elim w (w.append r)

def onAnyChange (callback asyncCallback : Option C) : ConfigWatcher C :=
  (w.appendOpt 0 callback).appendOpt 1 asyncCallback

section

variable [DecidableEq C]

/-- Where `remove` finds the callback, or the length of the list. -/
def position (r : Nat) (callback : C) : Nat :=
  (w.lists r).findIdx fun x => x.callback = callback

def remove : Option Nat → C → ConfigWatcher C
  | none, _ => w
  | some r, callback =>
    { w with lists := Function.update w.lists r ((w.lists r).eraseIdx (w.position r callback)) }

/-- What the returned function removes, from which lists, in its order. -/
def removals (u : Unwatch C) : List (Option Nat × C) :=
  match u.path with
  | some path =>
    u.callback.toList.map (w.listRef path .file, ·) ++
      u.asyncCallback.toList.map (w.listRef path .fileAsync, ·)
  | none =>
    (u.callback.toList ++ u.asyncCallback.toList).flatMap fun c => [(some 0, c), (some 1, c)]

def removeAll (rs : List (Option Nat × C)) : ConfigWatcher C :=
  rs.foldl (fun w r => w.remove r.1 r.2) w

/-- Remove from watched if no callbacks are left. -/
def dropEmpty (path : String) : ConfigWatcher C :=
  if (w.ofPath path).isEmpty then
    { w with
      watchedFiles := w.watchedFiles.erase path
      callbacks := w.callbacks.erase path
      asyncCallbacks := w.asyncCallbacks.erase path }
  else w

def unwatch (u : Unwatch C) : ConfigWatcher C :=
  match u.path with
  | some path => (w.removeAll (w.removals u)).dropEmpty path
  | none => w.removeAll (w.removals u)

end

end ConfigWatcher

/-! ## Dispatches -/

/-- The loops over the callbacks of one change. -/
structure Dispatch where
  change : ConfigChange
  /-- the list of the loop that is under way -/
  list : Option Nat
  index : Nat
  /-- the loops to come -/
  later : List CallbackKind
  /-- a callback has been called and has not returned -/
  running : Bool
  /-- the callbacks of the path at the start -/
  due : List Nat
  invoked : List Nat
  deriving DecidableEq

inductive Progress where
  | invoke (id : Nat) (d : Dispatch)
  | turn (d : Dispatch)
  | finish
  deriving DecidableEq

namespace Dispatch

variable {C : Type u} (w : ConfigWatcher C)

/-- A dispatch that is about to start the first of its loops. -/
def start (change : ConfigChange) (kinds : List CallbackKind) : Dispatch where
  change := change
  list := none
  index := 0
  later := kinds
  running := false
  due := (w.ofPath change.path).map Registration.id
  invoked := []

/-- What the loops go on to do. -/
def next (d : Dispatch) : Progress :=
  match (w.items d.list)[d.index]? with
  | some r =>
    .invoke r.id
      { d with index := d.index + 1, running := true, invoked := d.invoked ++ [r.id] }
  | none =>
    match d.later with
    | [] => .finish
    | kind :: later =>
      .turn { d with
        list := w.listRef d.change.path kind, index := 0, later := later, running := false }

/-- What is still to be called if nothing changes. -/
def left (d : Dispatch) : List (Registration C) :=
  Cursor.ahead (w.items d.list) d.index ++ d.later.flatMap (w.registered d.change.path)

end Dispatch

/-! ## Runs -/

/-- A pass of `_check_changes`. -/
structure Poll where
  now : ℚ
  todo : List String
  current : Option Dispatch

/-- The watcher, the files and the calls under way. -/
structure WatcherRun (C : Type u) where
  watcher : ConfigWatcher C
  /-- `none` for a file that cannot be read -/
  disk : String → Option (List UInt8)
  unwatches : List (Unwatch C) := []
  poll : Option Poll := none
  /-- the calls of `force_reload`, the innermost first -/
  forces : List Dispatch := []
  /-- errors raised by the watcher itself -/
  raised : Nat := 0
  /-- the registrations older than the last change of the content have a smaller number -/
  changedAt : String → Nat := fun _ => 0
  /-- who has been called for the path since -/
  since : String → List Nat := fun _ => []

inductive WatchAct (C : Type u) where
  | watch (path : String) (callback asyncCallback : Option C)
  | onAnyChange (callback asyncCallback : Option C)
  /-- a call of the function that the `k`-th call returned -/
  | unwatch (k : Nat)
  | edit (path : String) (content : Option (List UInt8))
  | startPoll (now : ℚ)
  | forceReload (path : String)
  /-- the innermost loop goes on -/
  | advance

namespace WatcherRun

variable {C : Type u} (md5 : List UInt8 → String) (s : WatcherRun C)

/-- `_compute_hash` -/
def computeHash (path : String) : String := (s.disk path).elim "" md5

def dispatches : List Dispatch := s.forces ++ (s.poll.bind Poll.current).toList

/-- No loop is between two callbacks: the watcher may be called. -/
def AtRest : Bool :=
  match s.forces with
  | d :: _ => d.running
  | [] =>
    match s.poll with
    | none => true
    | some q => q.current.elim false Dispatch.running

def watch (path : String) (callback asyncCallback : Option C) : WatcherRun C :=
  match s.watcher.watch path (s.computeHash md5 path) callback asyncCallback with
  | (w, true) => { s with watcher := w, raised := s.raised + 1 }
  | (w, false) =>
    { s with watcher := w, unwatches := s.unwatches ++ [⟨some path, callback, asyncCallback⟩] }

def onAnyChange (callback asyncCallback : Option C) : WatcherRun C :=
  { s with
    watcher := s.watcher.onAnyChange callback asyncCallback
    unwatches := s.unwatches ++ [⟨none, callback, asyncCallback⟩] }

def edit (path : String) (content : Option (List UInt8)) : WatcherRun C :=
  if content = s.disk path then s
  else { s with
    disk := Function.update s.disk path content
    changedAt := Function.update s.changedAt path s.watcher.nextId
    since := Function.update s.since path [] }

/-- The new hash is stored before the callbacks are called. -/
def forceReload (path : String) : WatcherRun C :=
  match s.watcher.watchedFiles.lookup path with
  | none => s
  | some oldHash =>
    let newHash := s.computeHash md5 path
    { s with
      watcher :=
        { s.watcher with watchedFiles := s.watcher.watchedFiles.set path newHash }
      forces := .start s.watcher ⟨path, oldHash, newHash⟩ [.file, .global] :: s.forces }

theorem forceReload_of_none {path : String} (h : s.watcher.watchedFiles.lookup path = none) :
    s.forceReload md5 path = s := by
  rw [forceReload, h]

theorem forceReload_of_some {path oldHash : String}
    (h : s.watcher.watchedFiles.lookup path = some oldHash) :
    s.forceReload md5 path =
      { s with
        watcher :=
          { s.watcher with
            watchedFiles := s.watcher.watchedFiles.set path (s.computeHash md5 path) }
        forces :=
          .start s.watcher ⟨path, oldHash, s.computeHash md5 path⟩ [.file, .global] ::
            s.forces } := by
  rw [forceReload, h]

/-- One path of a poll, up to the callbacks. -/
def visit (q : Poll) (path : String) : WatcherRun C :=
  match s.watcher.watchedFiles.lookup path with
  | none => { s with poll := none, raised := s.raised + 1 }
  | some oldHash =>
    let newHash := s.computeHash md5 path
    if newHash = oldHash then { s with poll := some q }
    else
      let firstChange := (s.watcher.pendingChanges.lookup path).getD q.now
      let w := { s.watcher with
        pendingChanges := s.watcher.pendingChanges.set path firstChange }
      if w.debounceSeconds ≤ q.now - firstChange then
        { s with
          watcher := w
          poll := some { q with
            current := some (.start w ⟨path, oldHash, newHash⟩
              [.file, .fileAsync, .global, .globalAsync]) } }
      else { s with watcher := w, poll := some q }

/-- After the callbacks: the hash is stored and the change no longer pending. -/
def store (q : Poll) (change : ConfigChange) : WatcherRun C :=
  let w := { s.watcher with
    watchedFiles := s.watcher.watchedFiles.set change.path change.newHash }
  if change.path ∈ w.pendingChanges then
    { s with
      watcher := { w with pendingChanges := w.pendingChanges.erase change.path }
      poll := some { q with current := none } }
  else { s with watcher := w, poll := none, raised := s.raised + 1 }

def told (path : String) (id : Nat) : WatcherRun C :=
  { s with since := Function.update s.since path (id :: s.since path) }

def advanceForce (d : Dispatch) (outer : List Dispatch) : WatcherRun C :=
  match d.next s.watcher with
  | .invoke id d' => { s.told d.change.path id with forces := d' :: outer }
  | .turn d' => { s with forces := d' :: outer }
  | .finish => { s with forces := outer }

def advancePoll (q : Poll) : WatcherRun C :=
  match q.current with
  | some d =>
    match d.next s.watcher with
    | .invoke id d' => { s.told d.change.path id with poll := some { q with current := some d' } }
    | .turn d' => { s with poll := some { q with current := some d' } }
    | .finish => s.store q d.change
  | none =>
    match q.todo with
    | [] => { s with poll := none }
    | path :: todo => s.visit md5 { q with todo := todo } path

def advance : Option (WatcherRun C) :=
  match s.forces with
  | d :: outer => some (s.advanceForce d outer)
  | [] => s.poll.map fun q => s.advancePoll md5 q

section

variable [DecidableEq C]

def unwatch (u : Unwatch C) : WatcherRun C := { s with watcher := s.watcher.unwatch u }

/-- Files change at any time. The watcher is called when no loop is between two
callbacks, by a callback or by a task while an asynchronous one waits. -/
def step : WatchAct C → Option (WatcherRun C)
  | .watch path callback asyncCallback =>
    if s.AtRest then some (s.watch md5 path callback asyncCallback) else none
  | .onAnyChange callback asyncCallback =>
    if s.AtRest then some (s.onAnyChange callback asyncCallback) else none
  | .unwatch k => if s.AtRest then (s.unwatches[k]?).map s.unwatch else none
  | .edit path content => some (s.edit path content)
  | .startPoll now =>
    if s.forces = [] ∧ s.poll.isNone then
      some { s with poll := some ⟨now, s.watcher.watchedFiles.keys, none⟩ }
    else none
  | .forceReload path => if s.AtRest then some (s.forceReload md5 path) else none
  | .advance => s.advance md5

end

end WatcherRun

/-- A new watcher over files with any contents. -/
def watcherSystem {C : Type u} [DecidableEq C] (md5 : List UInt8 → String) :
    TransitionSystem (WatcherRun C) (WatchAct C) where
  init s := ∃ debounceSeconds disk,
    s = { watcher := { debounceSeconds := debounceSeconds }, disk := disk }
  step s l := s.step md5 l

/-- The digests of no bytes, of `a` and of `b`. -/
def sampleDigest : List UInt8 → String
  | [] => "d41d8cd98f00b204e9800998ecf8427e"
  | [97] => "0cc175b9c0f1b6a831c399e269772661"
  | _ => "92eb5ffee6ae2fec3ad71c777531578f"
