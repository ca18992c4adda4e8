-- SUMMARY: The configuration watcher called from inside its own loops: its tables, its errors, and how often a dispatch calls each callback.
import NeuroPipeline.Central.WatcherTables

/-!
# Re-entrancy of the watcher

A callback that is being called may watch, unwatch and force a reload. A poll does not
look again at what it has read before its callbacks ran, and a loop over a list does not
notice what is removed from the list before its position.
-/

universe u

/-! ## The law -/

namespace WatcherRun

variable {C : Type u} {s s' : WatcherRun C} {md5 : List UInt8 → String}

/-- The tables have the same keys, the watcher has not raised, and a dispatch at its end has
called once each callback of the path that it found and that is still there. -/
structure Consistent (s : WatcherRun C) : Prop where
  callbacks : ∀ path, path ∈ s.watcher.watchedFiles ↔ path ∈ s.watcher.callbacks
  asyncCallbacks : ∀ path, path ∈ s.watcher.watchedFiles ↔ path ∈ s.watcher.asyncCallbacks
  raised : s.raised = 0
  once : ∀ d ∈ s.dispatches, d.next s.watcher = .finish → ∀ id ∈ d.due,
    id ∈ (s.watcher.ofPath d.change.path).map Registration.id → d.invoked.count id = 1

/-- The step is asked to watch the path. -/
def Watches (path : String) : WatchAct C → Prop
  | .watch path' _ _ => path' = path
  | _ => False

/-- No path becomes watched by itself. -/
def OnlyWhenAsked [DecidableEq C] (md5 : List UInt8 → String)
    (t : List (WatcherRun C × WatchAct C)) : Prop :=
  ∀ p ∈ t, ∀ s', p.1.step md5 p.2 = some s' → ∀ path, path ∈ s'.watcher.watchedFiles →
    path ∉ p.1.watcher.watchedFiles → Watches path p.2

/-- The path that the poll comes to, or comes back to from its callbacks, is still watched. -/
def Finds (s : WatcherRun C) (q : Poll) : Prop :=
  match q.current with
  | none => ∀ path ∈ q.todo.head?, path ∈ s.watcher.watchedFiles
  | some d => d.next s.watcher = .finish → d.change.path ∈ s.watcher.watchedFiles

/-- An unwatch moves no loop past a callback that it owes a call, a reload is forced for a
path without asynchronous callbacks, and a poll finds its paths still watched. -/
def Considerate [DecidableEq C] (s : WatcherRun C) : WatchAct C → Prop
  | .unwatch k => ∀ u ∈ s.unwatches[k]?, ∀ d ∈ s.dispatches, ∀ id ∈ d.due,
      id ∉ ConfigWatcher.passedOver d s.watcher (s.watcher.removals u)
  | .forceReload path => s.watcher.registered path .fileAsync = []
  | .advance => s.forces = [] → ∀ q ∈ s.poll, s.Finds q
  | _ => True

instance (s : WatcherRun C) : (q : Poll) → Decidable (s.Finds q)
  | ⟨_, todo, none⟩ =>
    inferInstanceAs (Decidable (∀ path ∈ todo.head?, path ∈ s.watcher.watchedFiles))
  | ⟨_, _, some d⟩ =>
    inferInstanceAs (Decidable
      (d.next s.watcher = .finish → d.change.path ∈ s.watcher.watchedFiles))

instance [DecidableEq C] (s : WatcherRun C) : (l : WatchAct C) → Decidable (s.Considerate l)
  | .unwatch k =>
    inferInstanceAs (Decidable (∀ u ∈ s.unwatches[k]?, ∀ d ∈ s.dispatches, ∀ id ∈ d.due,
      id ∉ ConfigWatcher.passedOver d s.watcher (s.watcher.removals u)))
  | .forceReload path =>
    inferInstanceAs (Decidable (s.watcher.registered path .fileAsync = []))
  | .advance => inferInstanceAs (Decidable (s.forces = [] → ∀ q ∈ s.poll, s.Finds q))
  | .watch .. | .onAnyChange .. | .edit .. | .startPoll .. => inferInstanceAs (Decidable True)

end WatcherRun

/-! ## Calls of one dispatch -/

namespace Dispatch

variable {C : Type u} {w w' : ConfigWatcher C} {d d' : Dispatch} {id : Nat}

/-- What the dispatch found and is still there has been called or is to come, once. -/
structure Covered (w : ConfigWatcher C) (d : Dispatch) : Prop where
  older : ∀ id ∈ d.due, id < w.nextId
  once : ∀ id ∈ d.due, 0 < tally id (w.ofPath d.change.path) →
    d.invoked.count id + tally id (d.left w) = 1

namespace Covered

theorem carries {passed : Dispatch → Nat → Prop} (h : d.Covered w) (hw : w.Carries w' passed)
    (hpassed : ∀ id ∈ d.due, ¬ passed d id) : d.Covered w' where
  older id hid := (h.older id hid).trans_le hw.nextId
  once id hid hpos := by
    have hold : id < w.nextId := h.older id hid
    obtain ⟨kind, hkind, hpos'⟩ := tally_flatMap_pos hpos
    rw [hw.left d _ kind id hold hpos' (hpassed id hid)]
    apply h.once id hid
    apply hpos.trans_le
    exact tally_flatMap_le fun k _ => hw.registered_le _ k id hold

theorem invoke (h : d.Covered w) (hnext : d.next w = .invoke id d') : d'.Covered w := by
  obtain ⟨r, rfl, hleft, hchange, hdue, hinvoked⟩ := next_invoke hnext
  refine ⟨hdue ▸ h.older, ?_⟩
  intro id' hid' hpos
  rw [hdue] at hid'
  rw [hchange] at hpos
  have honce := h.once id' hid' hpos
  rw [hleft, tally_cons] at honce
  rw [hinvoked, List.count_append, List.count_singleton]
  simp only [beq_iff_eq]
  omega

theorem turn (h : d.Covered w) (hnext : d.next w = .turn d') : d'.Covered w := by
  obtain ⟨hleft, hchange, hdue, hinvoked⟩ := next_turn hnext
  refine ⟨hdue ▸ h.older, ?_⟩
  rw [hdue, hchange, hleft, hinvoked]
  exact h.once

/-- At the end nothing is to come. -/
theorem finish (h : d.Covered w) (hnext : d.next w = .finish) {id : Nat} (hid : id ∈ d.due)
    (hmem : id ∈ (w.ofPath d.change.path).map Registration.id) : d.invoked.count id = 1 := by
  have honce := h.once id hid (tally_pos.mpr hmem)
  rwa [next_finish hnext, tally_nil, Nat.add_zero] at honce

/-- A dispatch starts with everything to come. -/
theorem start (hw : w.Sound) {change : ConfigChange} {kinds : List CallbackKind}
    (hnodup : kinds.Nodup)
    (hkinds : ∀ k ∈ [CallbackKind.file, .fileAsync], k ∈ kinds ∨ w.registered change.path k = []) :
    (Dispatch.start w change kinds).Covered w where
  older id hid := by
    obtain ⟨kind, -, hpos⟩ := tally_flatMap_pos (tally_pos.mpr hid)
    exact hw.registered_lt hpos
  once id _ hpos := by
    obtain ⟨kind, hkind, hpos'⟩ := tally_flatMap_pos hpos
    have hpos : 0 < tally id (w.registered change.path kind) := hpos'
    have hmem : kind ∈ kinds := by
      rcases hkinds kind hkind with hmem | hnil
      · exact hmem
      · rw [hnil] at hpos
        exact absurd rfl hpos.ne'
    have hle : tally id (w.registered change.path kind) ≤
        tally id (kinds.flatMap (w.registered change.path)) := by
      obtain ⟨before, after, rfl⟩ := List.append_of_mem hmem
      rw [List.flatMap_append, List.flatMap_cons, tally_append, tally_append]
      omega
    have hone : tally id (kinds.flatMap (w.registered change.path)) ≤ 1 :=
      hw.tally_kinds_le id hnodup
    have hleft : (Dispatch.start w change kinds).left w =
        kinds.flatMap (w.registered change.path) := rfl
    have hinvoked : (Dispatch.start w change kinds).invoked = [] := rfl
    rw [hleft, hinvoked, List.count_nil]
    omega

end Covered

end Dispatch

/-! ## Steps -/

namespace WatcherRun

variable {C : Type u} {s s' : WatcherRun C} {md5 : List UInt8 → String}

/-- What holds of the watcher in every state of a considerate run. -/
structure Tidy (s : WatcherRun C) : Prop where
  sound : s.watcher.Sound
  aligned : ∀ path, path ∈ s.watcher.watchedFiles → path ∈ s.watcher.callbacks
  raised : s.raised = 0
  covered : ∀ d ∈ s.dispatches, d.Covered s.watcher
  pending : ∀ q ∈ s.poll, ∀ d ∈ q.current, d.change.path ∈ s.watcher.pendingChanges

theorem Tidy.consistent (h : s.Tidy) : s.Consistent where
  callbacks path := ⟨h.aligned path, h.sound.watched path⟩
  asyncCallbacks path := by
    have hpaired : path ∈ s.watcher.asyncCallbacks ↔ path ∈ s.watcher.callbacks := by
      rw [← Dict.lookup_ne_none, ← Dict.lookup_ne_none, h.sound.paired, Ne, Option.map_eq_none_iff]
    rw [hpaired]
    exact ⟨h.aligned path, h.sound.watched path⟩
  raised := h.raised
  once d hd hnext id hid hmem := (h.covered d hd).finish hnext hid hmem

section

variable {passed : Dispatch → Nat → Prop}

/-- A call of the watcher keeps what the dispatches owe. -/
theorem Tidy.calls (h : s.Tidy) (hcalls : s.Calls s' passed)
    (hpassed : ∀ d ∈ s.dispatches, ∀ id ∈ d.due, ¬ passed d id)
    (haligned : ∀ path, path ∈ s'.watcher.watchedFiles → path ∈ s'.watcher.callbacks)
    (hraised : s'.raised = s.raised)
    (hpending : s'.watcher.pendingChanges = s.watcher.pendingChanges) : s'.Tidy where
  sound := hcalls.sound
  aligned := haligned
  raised := hraised.trans h.raised
  covered d hd := by
    rw [hcalls.dispatches] at hd
    exact (h.covered d hd).carries hcalls.carries (hpassed d hd)
  pending := by
    rw [hcalls.poll, hpending]
    exact h.pending

end

/-! ### Calls -/

theorem Tidy.watch (h : s.Tidy) (path : String) (callback asyncCallback : Option C) :
    (s.watch md5 path callback asyncCallback).Tidy := by
  obtain ⟨hadds, hraises⟩ := h.sound.adds_watch path (s.computeHash md5 path) callback asyncCallback
  have hcallbacks : ∀ path', path' ∈ (s.watcher.addFile path (s.computeHash md5 path)).watchedFiles →
      path' ∈ (s.watcher.addFile path (s.computeHash md5 path)).callbacks := by
    intro path' hmem
    by_cases hwatched : path ∈ s.watcher.watchedFiles
    · rw [ConfigWatcher.addFile_of_mem hwatched] at hmem ⊢
      exact h.aligned path' hmem
    · rw [ConfigWatcher.addFile_of_notMem hwatched] at hmem ⊢
      apply Dict.mem_set.mpr
      exact (Dict.mem_set.mp hmem).imp_right (h.aligned path')
  have hpath : path ∈ (s.watcher.addFile path (s.computeHash md5 path)).watchedFiles := by
    by_cases hwatched : path ∈ s.watcher.watchedFiles
    · rwa [ConfigWatcher.addFile_of_mem hwatched]
    · rw [ConfigWatcher.addFile_of_notMem hwatched]
      exact Dict.mem_set.mpr (.inl rfl)
  have hpending : (s.watcher.addFile path (s.computeHash md5 path)).pendingChanges =
      s.watcher.pendingChanges := by
    by_cases hwatched : path ∈ s.watcher.watchedFiles
    · rw [ConfigWatcher.addFile_of_mem hwatched]
    · rw [ConfigWatcher.addFile_of_notMem hwatched]
  have hcalls : Calls s (s.watch md5 path callback asyncCallback) fun _ _ => False :=
    calls_watch h.sound path callback asyncCallback
  rcases watch_cases md5 s path callback asyncCallback with ⟨hraised, -⟩ | ⟨-, hwatch⟩
  · exact absurd (hcallbacks path hpath) (hraises hraised)
  · rw [hwatch] at hcalls ⊢
    refine h.calls hcalls (fun _ _ _ _ => id) ?_ rfl (hadds.tables.pendingChanges.trans hpending)
    intro path' hmem
    rw [hadds.tables.watchedFiles] at hmem
    rw [hadds.tables.callbacks]
    exact hcallbacks path' hmem

theorem Tidy.onAnyChange (h : s.Tidy) (callback asyncCallback : Option C) :
    (s.onAnyChange callback asyncCallback).Tidy := by
  have hadds := h.sound.adds_onAnyChange callback asyncCallback
  refine h.calls (calls_onAnyChange h.sound callback asyncCallback) (fun _ _ _ _ => id) ?_ rfl
    hadds.tables.pendingChanges
  intro path hmem
  have hwatched : path ∈ s.watcher.watchedFiles := hadds.tables.watchedFiles ▸ hmem
  exact hadds.tables.callbacks ▸ h.aligned path hwatched

theorem Tidy.unwatch [DecidableEq C] (h : s.Tidy) {u : Unwatch C}
    (hpassed : ∀ d ∈ s.dispatches, ∀ id ∈ d.due,
      id ∉ ConfigWatcher.passedOver d s.watcher (s.watcher.removals u)) :
    (s.unwatch u).Tidy := by
  have hcalls := calls_unwatch h.sound u
  have hwatcher : (s.unwatch u).watcher = s.watcher.unwatch u := rfl
  rcases s.watcher.unwatch_cases u with htables | ⟨path, hwatched, hcallbacks, hpending⟩
  · refine h.calls hcalls hpassed ?_ rfl htables.pendingChanges
    rw [hwatcher, htables.watchedFiles, htables.callbacks]
    exact h.aligned
  · refine h.calls hcalls hpassed ?_ rfl hpending
    rw [hwatcher, hwatched, hcallbacks]
    intro path' hmem
    obtain ⟨hne, hold⟩ := AList.mem_erase.mp hmem
    exact AList.mem_erase.mpr ⟨hne, h.aligned path' hold⟩

/-! ### Loops -/

/-- A loop goes on: the lists are as before, and what is new of the dispatches is covered. -/
theorem Tidy.goesOn (h : s.Tidy) {s' : WatcherRun C}
    (hsame : s.watcher.SameLists s'.watcher)
    (hwatched : ∀ path, path ∈ s'.watcher.watchedFiles ↔ path ∈ s.watcher.watchedFiles)
    (hraised : s'.raised = s.raised)
    (hforces : ∀ d ∈ s'.forces, d ∈ s.forces ∨ d.Covered s.watcher)
    (hpoll : ∀ q ∈ s'.poll, ∀ d ∈ q.current,
      d.Covered s.watcher ∧ d.change.path ∈ s'.watcher.pendingChanges) : s'.Tidy where
  sound := h.sound.sameLists hsame fun path => (hwatched path).mpr
  aligned path hmem := by
    rw [hsame.callbacks]
    exact h.aligned path ((hwatched path).mp hmem)
  raised := hraised.trans h.raised
  covered d hd := by
    have hcovered : d.Covered s.watcher := by
      rcases mem_dispatches.mp hd with hforce | ⟨q, hq, hd⟩
      · rcases hforces d hforce with hold | hcovered
        · exact h.covered d (mem_dispatches.mpr (.inl hold))
        · exact hcovered
      · exact (hpoll q hq d hd).1
    exact hcovered.carries hsame.carries fun _ _ => id
  pending q hq d hd := (hpoll q hq d hd).2

theorem Tidy.polled (h : s.Tidy) : ∀ q ∈ s.poll, ∀ d ∈ q.current,
    d.Covered s.watcher ∧ d.change.path ∈ s.watcher.pendingChanges :=
  fun q hq d hd => ⟨h.covered d (mem_dispatches.mpr (.inr ⟨q, hq, hd⟩)), h.pending q hq d hd⟩

/-- A path that is watched gets another hash. -/
theorem mem_set_of_mem {files : Dict String String} {path path' hash : String} (h : path ∈ files) :
    path' ∈ files.set path hash ↔ path' ∈ files := by
  rw [Dict.mem_set]
  refine ⟨fun hor => ?_, .inr⟩
  rcases hor with rfl | hmem
  · exact h
  · exact hmem

theorem Tidy.forceReload (h : s.Tidy) {path : String}
    (hasync : s.watcher.registered path .fileAsync = []) : (s.forceReload md5 path).Tidy := by
  cases hlookup : s.watcher.watchedFiles.lookup path with
  | none =>
      rw [WatcherRun.forceReload_of_none md5 s hlookup]
      exact h
  | some oldHash =>
      rw [WatcherRun.forceReload_of_some md5 s hlookup]
      refine h.goesOn ⟨rfl, rfl, rfl, rfl, rfl⟩ ?_ rfl ?_ h.polled
      · exact fun _ => mem_set_of_mem (Dict.mem_of_lookup hlookup)
      · intro d hd
        rcases List.mem_cons.mp hd with rfl | hold
        · right
          apply Dispatch.Covered.start h.sound (by decide)
          intro k hk
          simp only [List.mem_cons, List.not_mem_nil, or_false] at hk
          rcases hk with rfl | rfl
          · exact .inl (by decide)
          · exact .inr hasync
        · exact .inl hold

theorem Tidy.visit (h : s.Tidy) {q : Poll} {path : String} (hcurrent : q.current = none)
    (hwatched : path ∈ s.watcher.watchedFiles) : (s.visit md5 q path).Tidy := by
  have hidle : ∀ q' ∈ some q, q'.current = none := by
    rintro q' ⟨⟩
    exact hcurrent
  obtain ⟨oldHash, hlookup⟩ := Dict.exists_lookup hwatched
  simp only [WatcherRun.visit, hlookup]
  split
  · refine h.goesOn ⟨rfl, rfl, rfl, rfl, rfl⟩ (fun _ => .rfl) rfl (fun _ => .inl) ?_
    intro q' hq' d hd
    rw [hidle q' hq'] at hd
    cases hd
  · split
    · refine h.goesOn ⟨rfl, rfl, rfl, rfl, rfl⟩ (fun _ => .rfl) rfl (fun _ => .inl) ?_
      rintro q' ⟨⟩ d ⟨⟩
      refine ⟨?_, Dict.mem_set.mpr (.inl rfl)⟩
      apply Dispatch.Covered.start (w := s.watcher) h.sound (by decide)
      intro k hk
      simp only [List.mem_cons, List.not_mem_nil, or_false] at hk
      rcases hk with rfl | rfl <;> exact .inl (by decide)
    · refine h.goesOn ⟨rfl, rfl, rfl, rfl, rfl⟩ (fun _ => .rfl) rfl (fun _ => .inl) ?_
      intro q' hq' d hd
      rw [hidle q' hq'] at hd
      cases hd

theorem Tidy.store (h : s.Tidy) {q : Poll} {d : Dispatch} (hpoll : s.poll = some q)
    (hcurrent : q.current = some d) (hwatched : d.change.path ∈ s.watcher.watchedFiles) :
    (s.store q d.change).Tidy := by
  have hpending : d.change.path ∈ s.watcher.pendingChanges := h.pending q hpoll d hcurrent
  rw [WatcherRun.store, if_pos hpending]
  refine h.goesOn ⟨rfl, rfl, rfl, rfl, rfl⟩ (fun _ => mem_set_of_mem hwatched) rfl (fun _ => .inl) ?_
  rintro q' ⟨⟩ d' ⟨⟩

theorem Tidy.forceTurn (h : s.Tidy) {d : Dispatch} {outer : List Dispatch}
    (hforces : s.forces = d :: outer) (hturn : ForceTurn s d outer s') : s'.Tidy := by
  have hd : d.Covered s.watcher :=
    h.covered d (mem_dispatches.mpr (.inl (hforces ▸ List.mem_cons_self)))
  have houter : ∀ d' ∈ outer, d' ∈ s.forces := fun d' hd' => hforces ▸ List.mem_cons_of_mem d hd'
  have hcons : ∀ d', d'.Covered s.watcher → ∀ d'' ∈ d' :: outer,
      d'' ∈ s.forces ∨ d''.Covered s.watcher := by
    intro d' hd' d'' hmem
    rcases List.mem_cons.mp hmem with rfl | hold
    · exact .inr hd'
    · exact .inl (houter d'' hold)
  cases hturn with
  | invokes id d' hnext =>
      exact h.goesOn ⟨rfl, rfl, rfl, rfl, rfl⟩ (fun _ => .rfl) rfl (hcons d' (hd.invoke hnext)) h.polled
  | turns d' hnext =>
      exact h.goesOn ⟨rfl, rfl, rfl, rfl, rfl⟩ (fun _ => .rfl) rfl (hcons d' (hd.turn hnext)) h.polled
  | returns hnext =>
      exact h.goesOn ⟨rfl, rfl, rfl, rfl, rfl⟩ (fun _ => .rfl) rfl
        (fun d' hd' => .inl (houter d' hd')) h.polled

theorem Tidy.pollTurn (h : s.Tidy) {q : Poll} (hpoll : s.poll = some q) (hfinds : s.Finds q)
    (hturn : PollTurn md5 s q s') : s'.Tidy := by
  cases hturn with
  | ends hcurrent htodo =>
      refine h.goesOn ⟨rfl, rfl, rfl, rfl, rfl⟩ (fun _ => .rfl) rfl (fun _ => .inl) ?_
      rintro q' ⟨⟩
  | visits path todo hcurrent htodo =>
      simp only [Finds, hcurrent, htodo] at hfinds
      exact h.visit hcurrent (hfinds path rfl)
  | invokes d id d' hcurrent hnext =>
      obtain ⟨hcovered, hpending⟩ := h.polled q hpoll d hcurrent
      refine h.goesOn ⟨rfl, rfl, rfl, rfl, rfl⟩ (fun _ => .rfl) rfl (fun _ => .inl) ?_
      rintro q' ⟨⟩ d'' ⟨⟩
      obtain ⟨_, -, -, hchange, -⟩ := Dispatch.next_invoke hnext
      exact ⟨hcovered.invoke hnext, hchange ▸ hpending⟩
  | turns d d' hcurrent hnext =>
      obtain ⟨hcovered, hpending⟩ := h.polled q hpoll d hcurrent
      refine h.goesOn ⟨rfl, rfl, rfl, rfl, rfl⟩ (fun _ => .rfl) rfl (fun _ => .inl) ?_
      rintro q' ⟨⟩ d'' ⟨⟩
      obtain ⟨-, hchange, -⟩ := Dispatch.next_turn hnext
      exact ⟨hcovered.turn hnext, hchange ▸ hpending⟩
  | stores d hcurrent hnext =>
      simp only [Finds, hcurrent] at hfinds
      exact h.store hpoll hcurrent (hfinds hnext)

theorem Tidy.step [DecidableEq C] {l : WatchAct C} (h : s.Tidy) (hl : s.Considerate l)
    (hs : s.step md5 l = some s') : s'.Tidy := by
  cases stepTurn hs with
  | watch path callback asyncCallback => exact h.watch path callback asyncCallback
  | onAnyChange callback asyncCallback => exact h.onAnyChange callback asyncCallback
  | unwatch k u hu => exact h.unwatch (hl u hu)
  | edit path content =>
      rw [WatcherRun.edit]
      split
      · exact h
      · exact ⟨h.sound, h.aligned, h.raised, h.covered, h.pending⟩
  | startPoll now hpoll =>
      refine h.goesOn ⟨rfl, rfl, rfl, rfl, rfl⟩ (fun _ => .rfl) rfl (fun _ => .inl) ?_
      rintro q ⟨⟩ d ⟨⟩
  | forceReload path => exact h.forceReload hl
  | forces d outer s' hforces hturn => exact h.forceTurn hforces hturn
  | polls q s' hforces hpoll hturn => exact h.pollTurn hpoll (hl hforces q hpoll) hturn

/-! ### What becomes watched -/

theorem watchedFiles_visit (s : WatcherRun C) (q : Poll) (path : String) :
    (s.visit md5 q path).watcher.watchedFiles = s.watcher.watchedFiles := by
  simp only [visit]
  cases s.watcher.watchedFiles.lookup path with
  | none => rfl
  | some oldHash =>
      simp only
      split
      · rfl
      · split <;> rfl

theorem ForceTurn.watchedFiles {d : Dispatch} {outer : List Dispatch}
    (hturn : ForceTurn s d outer s') : s'.watcher.watchedFiles = s.watcher.watchedFiles := by
  cases hturn with
  | invokes id d' hnext => rfl
  | turns d' hnext => rfl
  | returns hnext => rfl

theorem watchedFiles_store (s : WatcherRun C) (q : Poll) (change : ConfigChange) :
    (s.store q change).watcher.watchedFiles =
      s.watcher.watchedFiles.set change.path change.newHash := by
  simp only [store]
  split <;> rfl

theorem watchedFiles_edit (s : WatcherRun C) (path : String) (content : Option (List UInt8)) :
    (s.edit path content).watcher.watchedFiles = s.watcher.watchedFiles := by
  rw [WatcherRun.edit]
  split <;> rfl

/-- A forced reload stores a hash for a path that is watched. -/
theorem mem_forceReload {path path' : String} :
    path ∈ (s.forceReload md5 path').watcher.watchedFiles ↔ path ∈ s.watcher.watchedFiles := by
  cases hlookup : s.watcher.watchedFiles.lookup path' with
  | none => rw [WatcherRun.forceReload_of_none md5 s hlookup]
  | some oldHash =>
      rw [WatcherRun.forceReload_of_some md5 s hlookup]
      exact mem_set_of_mem (Dict.mem_of_lookup hlookup)

/-- So does a poll that finds its path still watched. -/
theorem PollTurn.mem_watchedFiles {q : Poll} (hturn : PollTurn md5 s q s') (hfinds : s.Finds q)
    {path : String} : path ∈ s'.watcher.watchedFiles ↔ path ∈ s.watcher.watchedFiles := by
  cases hturn with
  | ends hcurrent htodo => rfl
  | visits path' todo hcurrent htodo => rw [watchedFiles_visit]
  | invokes d id d' hcurrent hnext => rfl
  | turns d d' hcurrent hnext => rfl
  | stores d hcurrent hnext =>
      simp only [Finds, hcurrent] at hfinds
      rw [watchedFiles_store]
      exact mem_set_of_mem (hfinds hnext)

/-- A step of a considerate run makes a path watched only if it is asked to. -/
theorem Considerate.watches [DecidableEq C] {l : WatchAct C} (hl : s.Considerate l)
    (hs : s.step md5 l = some s') {path : String} (hnew : path ∈ s'.watcher.watchedFiles)
    (hold : path ∉ s.watcher.watchedFiles) : Watches path l := by
  cases stepTurn hs with
  | watch path' callback asyncCallback =>
      have hadds := s.watcher.sameTables_watch path' (s.computeHash md5 path') callback asyncCallback
      have hadd : path ∈ (s.watcher.addFile path' (s.computeHash md5 path')).watchedFiles := by
        rw [← hadds.watchedFiles]
        rcases watch_cases md5 s path' callback asyncCallback with ⟨-, hwatch⟩ | ⟨-, hwatch⟩
        · rwa [hwatch] at hnew
        · rwa [hwatch] at hnew
      by_cases hwatched : path' ∈ s.watcher.watchedFiles
      · rw [ConfigWatcher.addFile_of_mem hwatched] at hadd
        exact absurd hadd hold
      · rw [ConfigWatcher.addFile_of_notMem hwatched] at hadd
        exact ((Dict.mem_set.mp hadd).resolve_right hold).symm
  | onAnyChange callback asyncCallback =>
      have htables := s.watcher.sameTables_onAnyChange callback asyncCallback
      exact absurd (htables.watchedFiles ▸ hnew) hold
  | unwatch k u hu =>
      apply hold
      rcases s.watcher.unwatch_cases u with htables | ⟨path', hwatched, -⟩
      · exact htables.watchedFiles ▸ hnew
      · have hmem : path ∈ s.watcher.watchedFiles.erase path' := hwatched ▸ hnew
        exact (AList.mem_erase.mp hmem).2
  | edit path' content =>
      rw [watchedFiles_edit] at hnew
      exact absurd hnew hold
  | startPoll now hpoll => exact absurd hnew hold
  | forceReload path' => exact absurd (mem_forceReload.mp hnew) hold
  | forces d outer s' hforces hturn => exact absurd (hturn.watchedFiles ▸ hnew) hold
  | polls q s' hforces hpoll hturn =>
      exact absurd ((hturn.mem_watchedFiles (hl hforces q hpoll)).mp hnew) hold

end WatcherRun

/-! ## Runs -/

namespace watcherSystem

variable {C : Type u} [DecidableEq C] {md5 : List UInt8 → String} {s₀ s : WatcherRun C}
  {t : List (WatcherRun C × WatchAct C)}

theorem tidy_init (h₀ : (watcherSystem md5).init s₀) : s₀.Tidy := by
  obtain ⟨debounceSeconds, disk, rfl⟩ := h₀
  refine ⟨?_, ?_, rfl, ?_, ?_⟩
  · exact {
      paired := fun _ => rfl
      allotted := nofun
      two := le_rfl
      watched := nofun
      unused := fun _ _ => rfl
      once := fun _ _ => Nat.zero_le 1
      apart := fun _ _ _ h => absurd rfl h.ne'
      numbered := fun _ _ h => absurd rfl h.ne' }
  · nofun
  · nofun
  · nofun

/-- In every run whose steps are considerate the tables agree, nothing raises, no path becomes
watched by itself, and every dispatch calls each callback of its path once. -/
theorem consistent_of_considerate (h₀ : (watcherSystem md5).init s₀)
    (hrun : (watcherSystem md5).Run s₀ t s)
    (ht : TransitionSystem.Respects WatcherRun.Considerate t) :
    s.Consistent ∧ WatcherRun.OnlyWhenAsked md5 t := by
  have hstep (s : WatcherRun C) (l : WatchAct C) (s' : WatcherRun C) (htidy : s.Tidy)
      (hl : s.Considerate l) (hs : (watcherSystem md5).step s l = some s') : s'.Tidy :=
    htidy.step hl hs
  have htidy := hrun.invariant_of_respects hstep (tidy_init h₀) ht
  refine ⟨htidy.consistent, ?_⟩
  intro p hp s'' hs path hnew hold
  exact (ht p hp).watches hs hnew hold

/-- Over one empty file, with the default debounce. -/
def fresh : WatcherRun String where
  watcher := {}
  disk := fun _ => some []

theorem init_fresh : (watcherSystem sampleDigest).init fresh := ⟨1, _, rfl⟩

/-- Two polls, and the turns to the callbacks of the file. -/
def changed : List (WatchAct String) :=
  [.edit "a" (some [97]), .startPoll 0, .advance, .advance, .startPoll 2, .advance, .advance]

/-- The one callback unwatches its path while the poll calls it. -/
def unwatchInside : List (WatchAct String) :=
  .watch "a" (some "reload") none :: changed ++
    [.advance, .unwatch 0, .advance, .advance, .advance, .advance]

theorem not_consistent_unwatchInside :
    ¬ ∀ (s₀ s : WatcherRun String) (t : List (WatcherRun String × WatchAct String)),
      (watcherSystem sampleDigest).init s₀ → (watcherSystem sampleDigest).Run s₀ t s →
        s.Consistent ∧ WatcherRun.OnlyWhenAsked sampleDigest t := by
  intro h
  have hview : ((watcherSystem sampleDigest).execTrace fresh unwatchInside).map
      (fun x => decide ("a" ∈ x.2.watcher.watchedFiles ∧ "a" ∉ x.2.watcher.callbacks)) =
        some true := by
    decide +kernel
  obtain ⟨t, s, hrun, -, hview⟩ := TransitionSystem.exists_run_of_execTrace hview
  obtain ⟨hwatched, hnone⟩ := of_decide_eq_true hview
  exact hnone (((h fresh s t init_fresh hrun).1.callbacks "a").mp hwatched)

/-- Inside the call of the first callback another file is watched; the asynchronous one is
called after it. -/
def watchInside : List (WatchAct String) :=
  .watch "a" (some "reload") (some "notify") :: changed ++
    [.advance, .watch "b" (some "reload") none, .advance, .advance, .advance, .advance]

theorem consistent_of_considerate_watchInside :
    ∃ t s, (watcherSystem sampleDigest).Run fresh t s ∧
      s.dispatches.map Dispatch.invoked = [[0, 1]] ∧
      s.Consistent ∧ WatcherRun.OnlyWhenAsked sampleDigest t := by
  have hview : ((watcherSystem sampleDigest).execTrace fresh watchInside).map
      (fun x => decide (x.2.dispatches.map Dispatch.invoked = [[0, 1]] ∧
        TransitionSystem.Respects WatcherRun.Considerate x.1)) = some true := by
    decide +kernel
  obtain ⟨t, s, hrun, -, hview⟩ := TransitionSystem.exists_run_of_execTrace hview
  obtain ⟨hinvoked, ht⟩ := of_decide_eq_true hview
  exact ⟨t, s, hrun, hinvoked, consistent_of_considerate init_fresh hrun ht⟩

end watcherSystem
