-- SUMMARY: The configuration watcher and its callbacks: when the stored hash is that of the content, who has been called since it changed.
import NeuroPipeline.Central.ConfigReentrancy

/-!
# Deliveries of the watcher

A poll and a forced reload both store the hash that they have read, one after the
callbacks and one before them, and not for the same kinds of callbacks. A change that
brings back the stored hash is seen by neither.
-/

universe u

/-! ## The law -/

namespace WatcherRun

variable {C : Type u} {s s' : WatcherRun C} {md5 : List UInt8 → String} {path : String} {id : Nat}

/-- Outside a forced reload, a stored hash that is that of the content means that every
callback registered before the last change has been called since. -/
def Delivered (md5 : List UInt8 → String) (s : WatcherRun C) : Prop :=
  s.forces = [] → ∀ path, s.watcher.watchedFiles.lookup path = some (s.computeHash md5 path) →
    ∀ r ∈ s.watcher.concerned path, r.id < s.changedAt path → r.id ∈ s.since path

/-- The registration is older than the last change, and has not been called since. -/
def Owes (s : WatcherRun C) (path : String) (id : Nat) : Prop :=
  id ∈ (s.watcher.concerned path).map Registration.id ∧ id < s.changedAt path ∧ id ∉ s.since path

/-- A forced reload of the path comes to the registration. -/
def ToCome (s : WatcherRun C) (path : String) (id : Nat) : Prop :=
  ∃ d ∈ s.forces, d.change.path = path ∧ 0 < tally id (d.left s.watcher)

/-- With the new content the path has the stored hash, or the hash that a poll is calling
its callbacks for, only if all of them are to come. -/
def Shows (md5 : List UInt8 → String) (s : WatcherRun C) (path : String)
    (content : Option (List UInt8)) : Prop :=
  (s.watcher.watchedFiles.lookup path = some (content.elim "" md5) →
    ∀ r ∈ s.watcher.concerned path, s.ToCome path r.id) ∧
  ∀ q ∈ s.poll, ∀ d ∈ q.current, d.change.path = path → d.change.newHash = content.elim "" md5 →
    ∀ r ∈ s.watcher.concerned path, 0 < tally r.id (d.left s.watcher)

/-- A file is added when none is owed its last change, an unwatch moves no loop past a callback
that is owed a call, a content shows as a change, and a reload is forced when no
asynchronous callback is owed a call. -/
def Spares [DecidableEq C] (md5 : List UInt8 → String) (s : WatcherRun C) : WatchAct C → Prop
  | .watch path _ _ => path ∉ s.watcher.watchedFiles →
      ∀ r ∈ s.watcher.concerned path, s.Owes path r.id → s.ToCome path r.id
  | .unwatch k => ∀ u ∈ s.unwatches[k]?, ∀ d ∈ s.dispatches,
      ∀ id ∈ ConfigWatcher.passedOver d s.watcher (s.watcher.removals u), ¬ s.Owes d.change.path id
  | .edit path content => content ≠ s.disk path → s.Shows md5 path content
  | .forceReload path => path ∈ s.watcher.watchedFiles →
      ∀ r ∈ s.watcher.registered path .fileAsync ++ s.watcher.registered path .globalAsync,
        ¬ s.Owes path r.id
  | _ => True

instance (s : WatcherRun C) (path : String) (id : Nat) : Decidable (s.Owes path id) :=
  inferInstanceAs (Decidable (_ ∈ _ ∧ _ < _ ∧ _ ∉ _))

instance (s : WatcherRun C) (path : String) (id : Nat) : Decidable (s.ToCome path id) :=
  inferInstanceAs (Decidable (∃ d ∈ s.forces, _ ∧ _))

instance (s : WatcherRun C) (path : String) (content : Option (List UInt8)) :
    Decidable (s.Shows md5 path content) :=
  inferInstanceAs (Decidable ((_ → ∀ r ∈ s.watcher.concerned path, _) ∧
    ∀ q ∈ s.poll, ∀ d ∈ q.current, _ → _ → ∀ r ∈ s.watcher.concerned path, _))

instance [DecidableEq C] (s : WatcherRun C) : (l : WatchAct C) → Decidable (s.Spares md5 l)
  | .watch path _ _ =>
    inferInstanceAs (Decidable (path ∉ s.watcher.watchedFiles →
      ∀ r ∈ s.watcher.concerned path, s.Owes path r.id → s.ToCome path r.id))
  | .unwatch k =>
    inferInstanceAs (Decidable (∀ u ∈ s.unwatches[k]?, ∀ d ∈ s.dispatches,
      ∀ id ∈ ConfigWatcher.passedOver d s.watcher (s.watcher.removals u),
        ¬ s.Owes d.change.path id))
  | .edit path content =>
    inferInstanceAs (Decidable (content ≠ s.disk path → s.Shows md5 path content))
  | .forceReload path =>
    inferInstanceAs (Decidable (path ∈ s.watcher.watchedFiles →
      ∀ r ∈ s.watcher.registered path .fileAsync ++ s.watcher.registered path .globalAsync,
        ¬ s.Owes path r.id))
  | .onAnyChange .. | .startPoll .. | .advance => inferInstanceAs (Decidable True)

/-! ## What is owed -/

theorem owes_congr (hconcerned : s'.watcher.concerned path = s.watcher.concerned path)
    (hchanged : s'.changedAt path = s.changedAt path) (hsince : s'.since path = s.since path) :
    s'.Owes path id ↔ s.Owes path id := by
  rw [Owes, Owes, hconcerned, hchanged, hsince]

/-- A call settles what was owed to the one that is called. -/
theorem owes_told {path' : String} {id' : Nat} :
    (s.told path' id').Owes path id ↔ s.Owes path id ∧ ¬ (path = path' ∧ id = id') := by
  by_cases hpath : path = path'
  · subst hpath
    have hsince : (s.told path id').since path = id' :: s.since path := Function.update_self _ _ _
    rw [Owes, Owes, hsince, List.mem_cons, not_or]
    have hchanged : (s.told path id').changedAt = s.changedAt := rfl
    have hwatcher : (s.told path id').watcher = s.watcher := rfl
    rw [hchanged, hwatcher]
    tauto
  · have hsince : (s.told path' id').since path = s.since path := Function.update_of_ne hpath _ _
    have hsame : (s.told path' id').Owes path id ↔ s.Owes path id := owes_congr rfl rfl hsince
    rw [hsame]
    simp [hpath]

/-- Whom a watch, a removal or an edit elsewhere leaves unpaid was unpaid before. -/
theorem Calls.owes {passed : Dispatch → Nat → Prop} (hcalls : s.Calls s' passed)
    (hclock : s.changedAt path ≤ s.watcher.nextId) (h : s'.Owes path id) : s.Owes path id := by
  obtain ⟨hmem, hlt, hsince⟩ := h
  rw [hcalls.changedAt] at hlt
  rw [hcalls.since] at hsince
  refine ⟨?_, hlt, hsince⟩
  apply tally_pos.mp
  apply (tally_pos.mpr hmem).trans_le
  exact tally_flatMap_le fun k _ => hcalls.carries.registered_le path k id (hlt.trans_le hclock)

/-- A call takes nothing that is owed from a loop that it does not move past it. -/
theorem Calls.left {passed : Dispatch → Nat → Prop} (hcalls : s.Calls s' passed)
    (hclock : s.changedAt path ≤ s.watcher.nextId) (h : s'.Owes path id) {d : Dispatch}
    (hpassed : ¬ passed d id) : tally id (d.left s'.watcher) = tally id (d.left s.watcher) := by
  have hlt : id < s.watcher.nextId := (hcalls.changedAt ▸ h.2.1).trans_le hclock
  obtain ⟨kind, -, hpos⟩ := tally_flatMap_pos (tally_pos.mpr h.1)
  exact hcalls.carries.left d path kind id hlt hpos hpassed

/-! ## Steps -/

/-- What holds in every state of a run that spares no callback. -/
structure Tracked (md5 : List UInt8 → String) (s : WatcherRun C) : Prop where
  sound : s.watcher.Sound
  clock : ∀ path, s.changedAt path ≤ s.watcher.nextId
  stored : ∀ path, s.watcher.watchedFiles.lookup path = some (s.computeHash md5 path) →
    ∀ id, s.Owes path id → s.ToCome path id
  read : ∀ q ∈ s.poll, ∀ d ∈ q.current, d.change.newHash = s.computeHash md5 d.change.path →
    ∀ id, s.Owes d.change.path id → 0 < tally id (d.left s.watcher)

theorem Tracked.delivered (h : s.Tracked md5) : s.Delivered md5 := by
  intro hforces path hstored r hr hlt
  by_contra hsince
  obtain ⟨d, hd, -⟩ := h.stored path hstored r.id ⟨List.mem_map_of_mem hr, hlt, hsince⟩
  rw [hforces] at hd
  cases hd

theorem Tracked.calls {passed : Dispatch → Nat → Prop} (h : s.Tracked md5)
    (hcalls : s.Calls s' passed)
    (hpassed : ∀ d ∈ s.dispatches, ∀ id, passed d id → ¬ s.Owes d.change.path id)
    (hstored : ∀ path, s'.watcher.watchedFiles.lookup path = some (s.computeHash md5 path) →
      s.watcher.watchedFiles.lookup path = some (s.computeHash md5 path) ∨
        ∀ id, s.Owes path id → s.ToCome path id) : s'.Tracked md5 := by
  have hhash : ∀ path, s'.computeHash md5 path = s.computeHash md5 path := by
    intro path
    rw [computeHash, computeHash, hcalls.disk]
  refine ⟨hcalls.sound, ?_, ?_, ?_⟩
  · intro path
    rw [hcalls.changedAt]
    exact (h.clock path).trans hcalls.carries.nextId
  · intro path hlookup id howes
    rw [hhash] at hlookup
    have hold : s.Owes path id := hcalls.owes (h.clock path) howes
    have htoCome : s.ToCome path id := by
      rcases hstored path hlookup with hsame | hnew
      · exact h.stored path hsame id hold
      · exact hnew id hold
    obtain ⟨d, hd, rfl, hleft⟩ := htoCome
    refine ⟨d, hcalls.forces ▸ hd, rfl, ?_⟩
    rwa [hcalls.left (h.clock _) howes fun hp =>
      hpassed d (mem_dispatches.mpr (.inl hd)) id hp hold]
  · intro q hq d hd hread id howes
    rw [hcalls.poll] at hq
    rw [hhash] at hread
    have hold : s.Owes d.change.path id := hcalls.owes (h.clock _) howes
    rw [hcalls.left (h.clock _) howes fun hp =>
      hpassed d (mem_dispatches.mpr (.inr ⟨q, hq, hd⟩)) id hp hold]
    exact h.read q hq d hd hread id hold

/-! ### Calls -/

theorem Tracked.watch (h : s.Tracked md5) {callback asyncCallback : Option C}
    (hl : path ∉ s.watcher.watchedFiles →
      ∀ r ∈ s.watcher.concerned path, s.Owes path r.id → s.ToCome path r.id) :
    (s.watch md5 path callback asyncCallback).Tracked md5 := by
  have hcalls : s.Calls (s.watch md5 path callback asyncCallback) fun _ _ => False :=
    calls_watch h.sound path callback asyncCallback
  apply h.calls hcalls fun _ _ _ => False.elim
  intro path' hlookup
  obtain ⟨hadds, -⟩ := h.sound.adds_watch path (s.computeHash md5 path) callback asyncCallback
  have hfiles : (s.watch md5 path callback asyncCallback).watcher.watchedFiles =
      (s.watcher.addFile path (s.computeHash md5 path)).watchedFiles := by
    rw [← hadds.tables.watchedFiles]
    rcases watch_cases md5 s path callback asyncCallback with ⟨-, hwatch⟩ | ⟨-, hwatch⟩ <;>
      rw [hwatch]
  rw [hfiles] at hlookup
  by_cases hwatched : path ∈ s.watcher.watchedFiles
  · rw [ConfigWatcher.addFile_of_mem hwatched] at hlookup
    exact .inl hlookup
  · rw [ConfigWatcher.addFile_of_notMem hwatched] at hlookup
    by_cases hpath : path' = path
    · subst hpath
      right
      intro id howes
      obtain ⟨r, hr, rfl⟩ := List.mem_map.mp howes.1
      exact hl hwatched r hr howes
    · left
      rwa [Dict.lookup_set_of_ne hpath] at hlookup

theorem Tracked.onAnyChange (h : s.Tracked md5) (callback asyncCallback : Option C) :
    (s.onAnyChange callback asyncCallback).Tracked md5 := by
  apply h.calls (calls_onAnyChange h.sound callback asyncCallback) fun _ _ _ => False.elim
  intro path hlookup
  have htables := (h.sound.adds_onAnyChange callback asyncCallback).tables
  exact .inl (htables.watchedFiles ▸ hlookup)

theorem Tracked.unwatch [DecidableEq C] (h : s.Tracked md5) {u : Unwatch C}
    (hl : ∀ d ∈ s.dispatches,
      ∀ id ∈ ConfigWatcher.passedOver d s.watcher (s.watcher.removals u),
        ¬ s.Owes d.change.path id) : (s.unwatch u).Tracked md5 := by
  apply h.calls (calls_unwatch h.sound u) hl
  intro path hlookup
  have hwatcher : (s.unwatch u).watcher = s.watcher.unwatch u := rfl
  rw [hwatcher] at hlookup
  left
  rcases s.watcher.unwatch_cases u with htables | ⟨path', hwatched, -⟩
  · rwa [htables.watchedFiles] at hlookup
  · rw [hwatched] at hlookup
    by_cases hpath : path = path'
    · subst hpath
      rw [AList.lookup_erase] at hlookup
      cases hlookup
    · rwa [AList.lookup_erase_ne hpath] at hlookup

/-! ### Edits -/

section

variable {content : Option (List UInt8)} {path' : String}

theorem edit_of_ne (h : content ≠ s.disk path) :
    s.edit path content =
      { s with
        disk := Function.update s.disk path content
        changedAt := Function.update s.changedAt path s.watcher.nextId
        since := Function.update s.since path [] } := if_neg h

theorem computeHash_edit_self (h : content ≠ s.disk path) :
    (s.edit path content).computeHash md5 path = content.elim "" md5 := by
  have hdisk : (s.edit path content).disk path = content := by
    rw [edit_of_ne h]
    exact Function.update_self _ _ _
  rw [computeHash, hdisk]

theorem computeHash_edit_of_ne (h : content ≠ s.disk path) (hpath : path' ≠ path) :
    (s.edit path content).computeHash md5 path' = s.computeHash md5 path' := by
  have hdisk : (s.edit path content).disk path' = s.disk path' := by
    rw [edit_of_ne h]
    exact Function.update_of_ne hpath _ _
  rw [computeHash, computeHash, hdisk]

theorem owes_edit_of_ne (h : content ≠ s.disk path) (hpath : path' ≠ path) :
    (s.edit path content).Owes path' id ↔ s.Owes path' id := by
  rw [edit_of_ne h]
  apply owes_congr
  · rfl
  · exact Function.update_of_ne hpath _ _
  · exact Function.update_of_ne hpath _ _

/-- A change is owed to all, and all are to come where the hash does not show it. -/
theorem Tracked.edit (h : s.Tracked md5) (hl : content ≠ s.disk path → s.Shows md5 path content) :
    (s.edit path content).Tracked md5 := by
  by_cases hsame : content = s.disk path
  · rw [WatcherRun.edit, if_pos hsame]
    exact h
  · obtain ⟨hstored, hread⟩ := hl hsame
    have hwatcher : (s.edit path content).watcher = s.watcher := by rw [edit_of_ne hsame]
    have hforces : (s.edit path content).forces = s.forces := by rw [edit_of_ne hsame]
    have hpoll : (s.edit path content).poll = s.poll := by rw [edit_of_ne hsame]
    have htoCome : ∀ path' id, s.ToCome path' id → (s.edit path content).ToCome path' id := by
      intro path' id
      rw [ToCome, ToCome, hforces, hwatcher]
      exact fun hcome => hcome
    refine ⟨hwatcher ▸ h.sound, ?_, ?_, ?_⟩
    · intro path'
      rw [edit_of_ne hsame]
      by_cases hpath : path' = path
      · subst hpath
        exact (Function.update_self path' s.watcher.nextId s.changedAt).le
      · have hchanged : Function.update s.changedAt path s.watcher.nextId path' = s.changedAt path' :=
          Function.update_of_ne hpath _ _
        exact hchanged.trans_le (h.clock path')
    · intro path' hlookup id howes
      rw [hwatcher] at hlookup
      apply htoCome
      by_cases hpath : path' = path
      · subst hpath
        rw [computeHash_edit_self hsame] at hlookup
        obtain ⟨r, hr, rfl⟩ := List.mem_map.mp howes.1
        exact hstored hlookup r (hwatcher ▸ hr)
      · rw [computeHash_edit_of_ne hsame hpath] at hlookup
        exact h.stored path' hlookup id ((owes_edit_of_ne hsame hpath).mp howes)
    · intro q hq d hd hnew id howes
      rw [hpoll] at hq
      rw [hwatcher]
      by_cases hpath : d.change.path = path
      · rw [hpath, computeHash_edit_self hsame] at hnew
        obtain ⟨r, hr, rfl⟩ := List.mem_map.mp howes.1
        rw [hwatcher, hpath] at hr
        exact hread q hq d hd hpath hnew r hr
      · rw [computeHash_edit_of_ne hsame hpath] at hnew
        exact h.read q hq d hd hnew id ((owes_edit_of_ne hsame hpath).mp howes)

end

/-! ### Loops -/

/-- A loop that goes on: the lists are as before, nothing new is owed, and the stored and the
read hashes keep their promise. -/
theorem Tracked.goesOn (h : s.Tracked md5) (hsame : s.watcher.SameLists s'.watcher)
    (hwatched : ∀ path, path ∈ s.watcher.watchedFiles → path ∈ s'.watcher.watchedFiles)
    (hchanged : s'.changedAt = s.changedAt)
    (hstored : ∀ path, s'.watcher.watchedFiles.lookup path = some (s'.computeHash md5 path) →
      ∀ id, s'.Owes path id → ∃ d ∈ s'.forces, d.change.path = path ∧
        0 < tally id (d.left s.watcher))
    (hread : ∀ q ∈ s'.poll, ∀ d ∈ q.current, d.change.newHash = s'.computeHash md5 d.change.path →
      ∀ id, s'.Owes d.change.path id → 0 < tally id (d.left s.watcher)) : s'.Tracked md5 where
  sound := h.sound.sameLists hsame hwatched
  clock path := by
    rw [hchanged, hsame.nextId]
    exact h.clock path
  stored path hlookup id howes := by
    obtain ⟨d, hd, hpath, hleft⟩ := hstored path hlookup id howes
    exact ⟨d, hd, hpath, by rwa [hsame.left_eq]⟩
  read q hq d hd hnew id howes := by
    rw [hsame.left_eq]
    exact hread q hq d hd hnew id howes

theorem Tracked.forceReload (h : s.Tracked md5)
    (hl : path ∈ s.watcher.watchedFiles →
      ∀ r ∈ s.watcher.registered path .fileAsync ++ s.watcher.registered path .globalAsync,
        ¬ s.Owes path r.id) : (s.forceReload md5 path).Tracked md5 := by
  cases hlookup : s.watcher.watchedFiles.lookup path with
  | none =>
      rw [WatcherRun.forceReload_of_none md5 s hlookup]
      exact h
  | some oldHash =>
      rw [WatcherRun.forceReload_of_some md5 s hlookup]
      refine h.goesOn ⟨rfl, rfl, rfl, rfl, rfl⟩ (fun _ hmem => Dict.mem_set.mpr (.inr hmem)) rfl ?_ ?_
      · intro path' hstored id howes
        have hold : s.Owes path' id := howes
        by_cases hpath : path' = path
        · subst hpath
          refine ⟨_, List.mem_cons_self, rfl, ?_⟩
          apply tally_pos.mpr
          obtain ⟨r, hr, rfl⟩ := List.mem_map.mp hold.1
          apply List.mem_map_of_mem
          have hsync : r ∉ s.watcher.registered path' .fileAsync ++
              s.watcher.registered path' .globalAsync :=
            fun hmem => hl (Dict.mem_of_lookup hlookup) r hmem hold
          simp only [ConfigWatcher.concerned, List.mem_flatMap, List.mem_append, List.mem_cons,
            List.not_mem_nil, or_false, exists_eq_or_imp, exists_eq_left] at hr hsync
          have hleft : (Dispatch.start s.watcher ⟨path', oldHash, s.computeHash md5 path'⟩
              [.file, .global]).left s.watcher =
                s.watcher.registered path' .file ++ (s.watcher.registered path' .global ++ []) := rfl
          rw [hleft, List.append_nil, List.mem_append]
          tauto
        · simp only [Dict.lookup_set_of_ne hpath] at hstored
          obtain ⟨d, hd, hdpath, hleft⟩ := h.stored path' hstored id hold
          exact ⟨d, List.mem_cons_of_mem _ hd, hdpath, hleft⟩
      · exact fun q hq d hd hnew id howes => h.read q hq d hd hnew id howes

/-- A poll's dispatch starts with everything to come. -/
theorem Tracked.visit (h : s.Tracked md5) {q : Poll} (hcurrent : q.current = none) :
    (s.visit md5 q path).Tracked md5 := by
  have hidle : ∀ q' ∈ some q, ∀ d ∈ q'.current, False := by
    rintro q' ⟨⟩ d hd
    rw [hcurrent] at hd
    cases hd
  simp only [WatcherRun.visit]
  cases hlookup : s.watcher.watchedFiles.lookup path with
  | none =>
      refine h.goesOn ⟨rfl, rfl, rfl, rfl, rfl⟩ (fun _ => id) rfl h.stored ?_
      rintro _ ⟨⟩
  | some oldHash =>
      simp only
      split
      · exact h.goesOn ⟨rfl, rfl, rfl, rfl, rfl⟩ (fun _ => id) rfl h.stored
          fun q' hq' d hd => (hidle q' hq' d hd).elim
      · split
        · refine h.goesOn ⟨rfl, rfl, rfl, rfl, rfl⟩ (fun _ => id) rfl h.stored ?_
          rintro q' ⟨⟩ d ⟨⟩ - id howes
          exact tally_pos.mpr howes.1
        · exact h.goesOn ⟨rfl, rfl, rfl, rfl, rfl⟩ (fun _ => id) rfl h.stored
            fun q' hq' d hd => (hidle q' hq' d hd).elim

/-- At its end a dispatch owes nothing, and its hash may be stored. -/
theorem Tracked.store (h : s.Tracked md5) {q : Poll} {d : Dispatch} (hpoll : s.poll = some q)
    (hcurrent : q.current = some d) (hnext : d.next s.watcher = .finish) :
    (s.store q d.change).Tracked md5 := by
  have hstored : ∀ path,
      (s.watcher.watchedFiles.set d.change.path d.change.newHash).lookup path =
        some (s.computeHash md5 path) →
      ∀ id, s.Owes path id → s.ToCome path id := by
    intro path hlookup id howes
    by_cases hpath : path = d.change.path
    · subst hpath
      rw [Dict.lookup_set_self] at hlookup
      have hleft := h.read q hpoll d hcurrent (Option.some_inj.mp hlookup) id howes
      rw [Dispatch.next_finish hnext] at hleft
      exact absurd rfl hleft.ne'
    · rw [Dict.lookup_set_of_ne hpath] at hlookup
      exact h.stored path hlookup id howes
  have hwatched : ∀ path, path ∈ s.watcher.watchedFiles →
      path ∈ s.watcher.watchedFiles.set d.change.path d.change.newHash :=
    fun _ hmem => Dict.mem_set.mpr (.inr hmem)
  simp only [WatcherRun.store]
  split
  · refine h.goesOn ⟨rfl, rfl, rfl, rfl, rfl⟩ hwatched rfl hstored ?_
    rintro q' ⟨⟩ d' ⟨⟩
  · refine h.goesOn ⟨rfl, rfl, rfl, rfl, rfl⟩ hwatched rfl hstored ?_
    rintro _ ⟨⟩

/-- A call is one less to come, for the one that is called. -/
theorem tally_left_invoke {w : ConfigWatcher C} {d d' : Dispatch} {id' : Nat}
    (hnext : d.next w = .invoke id' d') (hne : id ≠ id') :
    tally id (d'.left w) = tally id (d.left w) := by
  obtain ⟨r, rfl, hleft, -⟩ := Dispatch.next_invoke hnext
  rw [hleft, tally_cons, if_neg fun heq => hne heq.symm, Nat.zero_add]

theorem Tracked.forceTurn (h : s.Tracked md5) {d : Dispatch} {outer : List Dispatch}
    (hforces : s.forces = d :: outer) (hturn : ForceTurn s d outer s') : s'.Tracked md5 := by
  -- the outer reloads come to what they came to; only the innermost goes on
  have hcome : ∀ {path id} {forces : List Dispatch}, s.ToCome path id →
      (∀ d₀ ∈ outer, d₀ ∈ forces) →
      (d.change.path = path → 0 < tally id (d.left s.watcher) →
        ∃ d' ∈ forces, d'.change.path = path ∧ 0 < tally id (d'.left s.watcher)) →
      ∃ d' ∈ forces, d'.change.path = path ∧ 0 < tally id (d'.left s.watcher) := by
    rintro path id forces ⟨d₀, hd₀, hpath, hleft⟩ houter hinner
    rw [hforces] at hd₀
    rcases List.mem_cons.mp hd₀ with rfl | hmem
    · exact hinner hpath hleft
    · exact ⟨d₀, houter d₀ hmem, hpath, hleft⟩
  cases hturn with
  | invokes id' d' hnext =>
      obtain ⟨_, -, -, hchange, -⟩ := Dispatch.next_invoke hnext
      refine h.goesOn ⟨rfl, rfl, rfl, rfl, rfl⟩ (fun _ => id) rfl ?_ ?_
      · intro path hlookup id howes
        have htold : (s.told d.change.path id').Owes path id := howes
        obtain ⟨hold, hother⟩ := owes_told.mp htold
        apply hcome (h.stored path hlookup id hold) fun _ hmem => List.mem_cons_of_mem d' hmem
        intro hpath hleft
        refine ⟨d', List.mem_cons_self, hchange ▸ hpath, ?_⟩
        rwa [tally_left_invoke hnext fun heq => hother ⟨hpath.symm, heq⟩]
      · intro q hq d₀ hd hnew id howes
        have htold : (s.told d.change.path id').Owes d₀.change.path id := howes
        exact h.read q hq d₀ hd hnew id (owes_told.mp htold).1
  | turns d' hnext =>
      obtain ⟨hsame, hchange, -⟩ := Dispatch.next_turn hnext
      refine h.goesOn ⟨rfl, rfl, rfl, rfl, rfl⟩ (fun _ => id) rfl ?_ h.read
      intro path hlookup id howes
      apply hcome (h.stored path hlookup id howes) fun _ hmem => List.mem_cons_of_mem d' hmem
      exact fun hpath hleft => ⟨d', List.mem_cons_self, hchange ▸ hpath, hsame ▸ hleft⟩
  | returns hnext =>
      refine h.goesOn ⟨rfl, rfl, rfl, rfl, rfl⟩ (fun _ => id) rfl ?_ h.read
      intro path hlookup id howes
      apply hcome (h.stored path hlookup id howes) fun _ hmem => hmem
      intro _ hleft
      rw [Dispatch.next_finish hnext] at hleft
      exact absurd rfl hleft.ne'

theorem Tracked.pollTurn (h : s.Tracked md5) {q : Poll} (hpoll : s.poll = some q)
    (hturn : PollTurn md5 s q s') : s'.Tracked md5 := by
  cases hturn with
  | ends hcurrent htodo =>
      refine h.goesOn ⟨rfl, rfl, rfl, rfl, rfl⟩ (fun _ => id) rfl h.stored ?_
      rintro _ ⟨⟩
  | visits path todo hcurrent htodo => exact h.visit hcurrent
  | invokes d id' d' hcurrent hnext =>
      obtain ⟨_, -, -, hchange, -⟩ := Dispatch.next_invoke hnext
      refine h.goesOn ⟨rfl, rfl, rfl, rfl, rfl⟩ (fun _ => id) rfl ?_ ?_
      · intro path hlookup id howes
        have htold : (s.told d.change.path id').Owes path id := howes
        exact h.stored path hlookup id (owes_told.mp htold).1
      · rintro q' ⟨⟩ d'' ⟨⟩ hnew id howes
        have htold : (s.told d.change.path id').Owes d'.change.path id := howes
        obtain ⟨hold, hother⟩ := owes_told.mp htold
        rw [hchange] at hnew hold hother
        rw [tally_left_invoke hnext fun heq => hother ⟨rfl, heq⟩]
        exact h.read q hpoll d hcurrent hnew id hold
  | turns d d' hcurrent hnext =>
      obtain ⟨hsame, hchange, -⟩ := Dispatch.next_turn hnext
      refine h.goesOn ⟨rfl, rfl, rfl, rfl, rfl⟩ (fun _ => id) rfl h.stored ?_
      rintro q' ⟨⟩ d'' ⟨⟩ hnew id howes
      rw [hsame]
      rw [hchange] at hnew howes
      exact h.read q hpoll d hcurrent hnew id howes
  | stores d hcurrent hnext => exact h.store hpoll hcurrent hnext

theorem Tracked.step [DecidableEq C] {l : WatchAct C} (h : s.Tracked md5) (hl : s.Spares md5 l)
    (hs : s.step md5 l = some s') : s'.Tracked md5 := by
  cases stepTurn hs with
  | watch path callback asyncCallback => exact h.watch hl
  | onAnyChange callback asyncCallback => exact h.onAnyChange callback asyncCallback
  | unwatch k u hu => exact h.unwatch (hl u hu)
  | edit path content => exact h.edit hl
  | startPoll now hpoll =>
      refine h.goesOn ⟨rfl, rfl, rfl, rfl, rfl⟩ (fun _ => id) rfl h.stored ?_
      rintro q ⟨⟩ d ⟨⟩
  | forceReload path => exact h.forceReload hl
  | forces d outer s' hforces hturn => exact h.forceTurn hforces hturn
  | polls q s' hforces hpoll hturn => exact h.pollTurn hpoll hturn

end WatcherRun

/-! ## Runs -/

namespace watcherSystem

variable {C : Type u} [DecidableEq C] {md5 : List UInt8 → String} {s₀ s : WatcherRun C}
  {t : List (WatcherRun C × WatchAct C)}

theorem tracked_init (h₀ : (watcherSystem md5).init s₀) : s₀.Tracked md5 := by
  have hsound : s₀.watcher.Sound := (tidy_init h₀).sound
  obtain ⟨debounceSeconds, disk, rfl⟩ := h₀
  exact ⟨hsound, fun _ => le_rfl, nofun, nofun⟩

/-- In every run whose steps spare the callbacks, each change is delivered. -/
theorem delivered_of_spares (h₀ : (watcherSystem md5).init s₀)
    (hrun : (watcherSystem md5).Run s₀ t s)
    (ht : TransitionSystem.Respects (WatcherRun.Spares md5) t) : s.Delivered md5 := by
  apply WatcherRun.Tracked.delivered
  apply hrun.invariant_of_respects _ (tracked_init h₀) ht
  exact fun _ _ _ htracked hl hs => htracked.step hl hs

/-- A change, a forced reload of it, and the turns of its loops. -/
def forcedReload : List (WatchAct String) :=
  [.watch "a" none (some "notify"), .edit "a" (some [97]), .forceReload "a",
    .advance, .advance, .advance]

theorem not_delivered_forcedReload :
    ¬ ∀ (s₀ s : WatcherRun String) (t : List (WatcherRun String × WatchAct String)),
      (watcherSystem sampleDigest).init s₀ → (watcherSystem sampleDigest).Run s₀ t s →
        s.Delivered sampleDigest := by
  intro h
  have hview : ((watcherSystem sampleDigest).execTrace fresh forcedReload).map
      (fun x => decide (x.2.forces = [] ∧
        x.2.watcher.watchedFiles.lookup "a" = some (x.2.computeHash sampleDigest "a") ∧
        x.2.watcher.concerned "a" = [⟨0, "notify"⟩] ∧ x.2.changedAt "a" = 1 ∧
        x.2.since "a" = [])) = some true := by
    decide +kernel
  obtain ⟨t, s, hrun, -, hview⟩ := TransitionSystem.exists_run_of_execTrace hview
  obtain ⟨hforces, hstored, hconcerned, hchanged, hsince⟩ := of_decide_eq_true hview
  have hdelivered := h fresh s t init_fresh hrun hforces "a" hstored ⟨0, "notify"⟩
    (hconcerned ▸ List.mem_cons_self)
  rw [hchanged, hsince] at hdelivered
  exact absurd (hdelivered Nat.zero_lt_one) List.not_mem_nil

/-- The same change, found by two polls. -/
def polled : List (WatchAct String) :=
  .watch "a" (some "reload") (some "notify") :: .onAnyChange (some "audit") none :: changed ++
    List.replicate 7 .advance

theorem delivered_of_spares_polled :
    ∃ t s, (watcherSystem sampleDigest).Run fresh t s ∧ s.since "a" = [2, 1, 0] ∧
      s.watcher.watchedFiles.lookup "a" = some (s.computeHash sampleDigest "a") ∧
      s.Delivered sampleDigest := by
  have hview : ((watcherSystem sampleDigest).execTrace fresh polled).map
      (fun x => decide (x.2.since "a" = [2, 1, 0] ∧
        x.2.watcher.watchedFiles.lookup "a" = some (x.2.computeHash sampleDigest "a") ∧
        TransitionSystem.Respects (WatcherRun.Spares sampleDigest) x.1)) = some true := by
    decide +kernel
  obtain ⟨t, s, hrun, -, hview⟩ := TransitionSystem.exists_run_of_execTrace hview
  obtain ⟨hsince, hstored, ht⟩ := of_decide_eq_true hview
  exact ⟨t, s, hrun, hsince, hstored, delivered_of_spares init_fresh hrun ht⟩

end watcherSystem
