-- SUMMARY: What every call of the configuration watcher keeps of its tables, and of what a running dispatch has left to call.
import NeuroPipeline.Central.ConfigWatcher

/-!
# Tables of the watcher

Calls of the watcher while dispatches run. A registration keeps its number for life, so
that what is registered and what a loop has left to visit can be compared across calls.
-/

universe u

/-! ## Registrations by number -/

section

variable {C : Type u} {id : Nat} {l l' : List (Registration C)} {r : Registration C}

/-- How often the registration with the number is in the list. -/
def tally (id : Nat) (l : List (Registration C)) : Nat := l.countP fun r => r.id = id

@[simp] theorem tally_nil : tally id ([] : List (Registration C)) = 0 := rfl

@[simp] theorem tally_append : tally id (l ++ l') = tally id l + tally id l' :=
  List.countP_append

theorem tally_cons : tally id (r :: l) = (if r.id = id then 1 else 0) + tally id l := by
  simp [tally, List.countP_cons, Nat.add_comm]

theorem tally_pos : 0 < tally id l ↔ id ∈ l.map Registration.id := by
  simp [tally, List.countP_pos_iff]

theorem tally_flatMap_congr {K : Type*} {f g : K → List (Registration C)} {ks : List K}
    (h : ∀ k ∈ ks, tally id (f k) = tally id (g k)) :
    tally id (ks.flatMap f) = tally id (ks.flatMap g) := by
  induction ks with
  | nil => rfl
  | cons k ks ih =>
      rw [List.flatMap_cons, List.flatMap_cons, tally_append, tally_append,
        h k List.mem_cons_self, ih fun k' hk' => h k' (List.mem_cons_of_mem k hk')]

theorem tally_flatMap_le {K : Type*} {f g : K → List (Registration C)} {ks : List K}
    (h : ∀ k ∈ ks, tally id (f k) ≤ tally id (g k)) :
    tally id (ks.flatMap f) ≤ tally id (ks.flatMap g) := by
  induction ks with
  | nil => exact le_refl _
  | cons k ks ih =>
      rw [List.flatMap_cons, List.flatMap_cons, tally_append, tally_append]
      exact Nat.add_le_add (h k List.mem_cons_self)
        (ih fun k' hk' => h k' (List.mem_cons_of_mem k hk'))

theorem tally_flatMap_pos {K : Type*} {f : K → List (Registration C)} {ks : List K}
    (h : 0 < tally id (ks.flatMap f)) : ∃ k ∈ ks, 0 < tally id (f k) := by
  simp only [tally_pos, List.mem_map, List.mem_flatMap] at h ⊢
  obtain ⟨x, ⟨k, hk, hx⟩, rfl⟩ := h
  exact ⟨k, hk, x, hx, rfl⟩

theorem tally_eraseIdx_le (j : Nat) : tally id (l.eraseIdx j) ≤ tally id l :=
  (List.eraseIdx_sublist l j).countP_le

/-- Of a registration that is there once, nothing is left. -/
theorem tally_eraseIdx_self {j : Nat} (h : tally r.id l ≤ 1) (hr : l[j]? = some r) :
    tally r.id (l.eraseIdx j) = 0 := by
  have hcount := Cursor.countP_eraseIdx_add (p := fun x => x.id = r.id) hr
  rw [if_pos (by simp)] at hcount
  rw [tally] at h ⊢
  omega

end

/-! ## What a call of the watcher keeps -/

namespace ConfigWatcher

variable {C : Type u} {w w' w'' : ConfigWatcher C}

/-- What holds of the tables at all times. -/
structure Sound (w : ConfigWatcher C) : Prop where
  paired : ∀ path, w.asyncCallbacks.lookup path = (w.callbacks.lookup path).map (· + 1)
  allotted : ∀ path r, w.callbacks.lookup path = some r → 2 ≤ r ∧ r + 1 < w.nextList
  two : 2 ≤ w.nextList
  watched : ∀ path, path ∈ w.callbacks → path ∈ w.watchedFiles
  unused : ∀ r, w.nextList ≤ r → w.lists r = []
  once : ∀ id r, tally id (w.lists r) ≤ 1
  apart : ∀ id r r', 0 < tally id (w.lists r) → 0 < tally id (w.lists r') → r = r'
  numbered : ∀ id r, 0 < tally id (w.lists r) → id < w.nextId

/-- `w'` has of the older registrations what `w` has, or less, and what it has a loop
still comes to as before, unless the loop has passed over it. -/
structure Carries (w w' : ConfigWatcher C) (passed : Dispatch → Nat → Prop) : Prop where
  nextId : w.nextId ≤ w'.nextId
  registered_le : ∀ path kind id, id < w.nextId →
    tally id (w'.registered path kind) ≤ tally id (w.registered path kind)
  left : ∀ d path kind id, id < w.nextId → 0 < tally id (w'.registered path kind) →
    ¬ passed d id → tally id (d.left w') = tally id (d.left w)

namespace Carries

variable {passed passed' : Dispatch → Nat → Prop}

theorem trans (h : Carries w w' passed) (h' : Carries w' w'' passed') :
    Carries w w'' fun d id => passed d id ∨ passed' d id where
  nextId := h.nextId.trans h'.nextId
  registered_le path kind id hid :=
    (h'.registered_le path kind id (hid.trans_le h.nextId)).trans (h.registered_le path kind id hid)
  left d path kind id hid hpos hpassed := by
    rw [not_or] at hpassed
    have hid' : id < w'.nextId := hid.trans_le h.nextId
    have hpos' : 0 < tally id (w'.registered path kind) :=
      hpos.trans_le (h'.registered_le path kind id hid')
    rw [h'.left d path kind id hid' hpos hpassed.2, h.left d path kind id hid hpos' hpassed.1]

theorem weaken (h : Carries w w' passed) (hle : ∀ d id, passed d id → passed' d id) :
    Carries w w' passed' where
  nextId := h.nextId
  registered_le := h.registered_le
  left d path kind id hid hpos hpassed :=
    h.left d path kind id hid hpos fun hp => hpassed (hle d id hp)

theorem of_eq (hlists : w'.lists = w.lists) (hid : w'.nextId = w.nextId)
    (hregistered : ∀ path kind, w'.registered path kind = w.registered path kind) :
    Carries w w' fun _ _ => False where
  nextId := hid.ge
  registered_le path kind id _ := by rw [hregistered]
  left d path kind id _ _ _ := by
    have hitems : w'.items d.list = w.items d.list := by
      cases d.list with
      | none => rfl
      | some r => exact congrFun hlists r
    have hrest : w'.registered d.change.path = w.registered d.change.path := by
      funext k
      exact hregistered _ k
    rw [Dispatch.left, Dispatch.left, hitems, hrest]

theorem refl (w : ConfigWatcher C) : Carries w w fun _ _ => False := of_eq rfl rfl fun _ _ => rfl

end Carries

/-- The tables and lists alone say what is registered. -/
theorem registered_congr (hlists : w'.lists = w.lists) (hcallbacks : w'.callbacks = w.callbacks)
    (hasync : w'.asyncCallbacks = w.asyncCallbacks) (path : String) (kind : CallbackKind) :
    w'.registered path kind = w.registered path kind := by
  have href : w'.listRef path kind = w.listRef path kind := by
    cases kind with
    | file => exact congrArg (·.lookup path) hcallbacks
    | fileAsync => exact congrArg (·.lookup path) hasync
    | global => rfl
    | globalAsync => rfl
  rw [registered, registered, href]
  cases w.listRef path kind with
  | none => rfl
  | some r => exact congrFun hlists r

/-- Only the hashes and the pending changes differ. -/
structure SameLists (w w' : ConfigWatcher C) : Prop where
  lists : w'.lists = w.lists
  nextList : w'.nextList = w.nextList
  nextId : w'.nextId = w.nextId
  callbacks : w'.callbacks = w.callbacks
  asyncCallbacks : w'.asyncCallbacks = w.asyncCallbacks

theorem SameLists.registered_eq (h : SameLists w w') (path : String) :
    w'.registered path = w.registered path :=
  funext (registered_congr h.lists h.callbacks h.asyncCallbacks path)

theorem SameLists.left_eq (h : SameLists w w') (d : Dispatch) : d.left w' = d.left w := by
  have hitems : w'.items d.list = w.items d.list := by
    cases d.list with
    | none => rfl
    | some r => exact congrFun h.lists r
  rw [Dispatch.left, Dispatch.left, hitems, h.registered_eq]

theorem SameLists.carries (h : SameLists w w') : Carries w w' fun _ _ => False :=
  .of_eq h.lists h.nextId (registered_congr h.lists h.callbacks h.asyncCallbacks)

theorem Sound.sameLists (h : w.Sound) (hsame : SameLists w w')
    (hwatched : ∀ path, path ∈ w.watchedFiles → path ∈ w'.watchedFiles) : w'.Sound where
  paired := by
    rw [hsame.asyncCallbacks, hsame.callbacks]
    exact h.paired
  allotted := by
    rw [hsame.callbacks, hsame.nextList]
    exact h.allotted
  two := by
    rw [hsame.nextList]
    exact h.two
  watched path hmem := by
    rw [hsame.callbacks] at hmem
    exact hwatched path (h.watched path hmem)
  unused := by
    rw [hsame.lists, hsame.nextList]
    exact h.unused
  once := by
    rw [hsame.lists]
    exact h.once
  apart := by
    rw [hsame.lists]
    exact h.apart
  numbered := by
    rw [hsame.lists, hsame.nextId]
    exact h.numbered

/-! ### Appending -/

section

variable {id r : Nat} {c : C}

theorem lists_append_self (w : ConfigWatcher C) (r : Nat) (c : C) :
    (w.append r c).lists r = w.lists r ++ [⟨w.nextId, c⟩] :=
  Function.update_self _ _ _

theorem lists_append_of_ne {r' : Nat} (h : r' ≠ r) : (w.append r c).lists r' = w.lists r' :=
  Function.update_of_ne h _ _

theorem listRef_append (w : ConfigWatcher C) (r : Nat) (c : C) (path : String) (kind : CallbackKind) :
    (w.append r c).listRef path kind = w.listRef path kind := by
  cases kind <;> rfl

theorem tally_ahead_append (h : id < w.nextId) (ref : Option Nat) (i : Nat) :
    tally id (Cursor.ahead ((w.append r c).items ref) i) = tally id (Cursor.ahead (w.items ref) i) := by
  cases ref with
  | none => rfl
  | some r' =>
      rw [items, items]
      by_cases hr : r' = r
      · subst hr
        rw [lists_append_self]
        apply Cursor.countP_ahead_append
        intro x hx
        obtain rfl := List.mem_singleton.mp hx
        simpa using h.ne'
      · rw [lists_append_of_ne hr]

theorem carries_append (w : ConfigWatcher C) (r : Nat) (c : C) :
    Carries w (w.append r c) fun _ _ => False where
  nextId := Nat.le_succ w.nextId
  registered_le path kind id hid := by
    rw [registered, registered, listRef_append]
    exact (tally_ahead_append hid _ 0).le
  left d path kind id hid _ _ := by
    have hrest : tally id (d.later.flatMap ((w.append r c).registered d.change.path)) =
        tally id (d.later.flatMap (w.registered d.change.path)) := by
      apply tally_flatMap_congr
      intro k _
      rw [registered, registered, listRef_append]
      exact tally_ahead_append hid _ 0
    rw [Dispatch.left, Dispatch.left, tally_append, tally_append, hrest, tally_ahead_append hid]

theorem tally_lists_append (w : ConfigWatcher C) (id r : Nat) (c : C) (r' : Nat) :
    tally id ((w.append r c).lists r') =
      tally id (w.lists r') + if r' = r ∧ w.nextId = id then 1 else 0 := by
  by_cases hr : r' = r
  · subst hr
    rw [lists_append_self, tally_append, tally_cons, tally_nil]
    simp
  · rw [lists_append_of_ne hr, if_neg fun h => hr h.1, Nat.add_zero]

theorem Sound.append (h : w.Sound) (hr : r < w.nextList) (c : C) : (w.append r c).Sound where
  paired := h.paired
  allotted := h.allotted
  two := h.two
  watched := h.watched
  unused r' hr' := by
    have hle : w.nextList ≤ r' := hr'
    have hne : r' ≠ r := by omega
    rw [lists_append_of_ne hne]
    exact h.unused r' hr'
  once id r' := by
    have hold := h.once id r'
    have hnumbered := h.numbered id r'
    rw [tally_lists_append]
    split <;> omega
  apart id r₁ r₂ h₁ h₂ := by
    rw [tally_lists_append] at h₁ h₂
    by_cases hid : w.nextId = id
    · have hnone : ∀ r', tally id (w.lists r') = 0 := by
        intro r'
        have hnumbered := h.numbered id r'
        omega
      simp only [hnone, hid, and_true, Nat.zero_add] at h₁ h₂
      obtain rfl : r₁ = r := by
        by_contra hne
        simp [hne] at h₁
      obtain rfl : r₂ = r₁ := by
        by_contra hne
        simp [hne] at h₂
      rfl
    · simp only [hid, and_false, if_false, Nat.add_zero] at h₁ h₂
      exact h.apart id r₁ r₂ h₁ h₂
  numbered id r' hpos := by
    rw [tally_lists_append] at hpos
    have hnumbered := h.numbered id r'
    have hid : (w.append r c).nextId = w.nextId + 1 := rfl
    rw [hid]
    by_cases hnew : r' = r ∧ w.nextId = id
    · omega
    · rw [if_neg hnew] at hpos
      omega

end

/-! ### Watching a file -/

section

variable {path hash : String}

theorem addFile_of_mem (h : path ∈ w.watchedFiles) : w.addFile path hash = w := if_pos h

theorem addFile_of_notMem (h : path ∉ w.watchedFiles) :
    w.addFile path hash =
      { w with
        watchedFiles := w.watchedFiles.set path hash
        callbacks := w.callbacks.set path w.nextList
        asyncCallbacks := w.asyncCallbacks.set path (w.nextList + 1)
        nextList := w.nextList + 2 } := if_neg h

theorem Sound.lookup_of_unwatched (h : w.Sound) (hpath : path ∉ w.watchedFiles) :
    w.callbacks.lookup path = none ∧ w.asyncCallbacks.lookup path = none := by
  have hnone : w.callbacks.lookup path = none :=
    AList.lookup_eq_none.mpr fun hmem => hpath (h.watched path hmem)
  exact ⟨hnone, by rw [h.paired, hnone]; rfl⟩

theorem Sound.registered_addFile (h : w.Sound) (hash : String) (path' : String)
    (kind : CallbackKind) :
    (w.addFile path hash).registered path' kind = w.registered path' kind := by
  by_cases hmem : path ∈ w.watchedFiles
  · rw [addFile_of_mem hmem]
  · rw [addFile_of_notMem hmem]
    obtain ⟨hcallbacks, hasync⟩ := h.lookup_of_unwatched hmem
    by_cases hpath : path' = path
    · subst hpath
      cases kind with
      | file =>
          simp only [registered, listRef, Dict.lookup_set_self, hcallbacks, items]
          exact h.unused _ le_rfl
      | fileAsync =>
          simp only [registered, listRef, Dict.lookup_set_self, hasync, items]
          exact h.unused _ (Nat.le_succ _)
      | global => rfl
      | globalAsync => rfl
    · cases kind with
      | file => simp only [registered, listRef, Dict.lookup_set_of_ne hpath, items]
      | fileAsync => simp only [registered, listRef, Dict.lookup_set_of_ne hpath, items]
      | global => rfl
      | globalAsync => rfl

theorem Sound.carries_addFile (h : w.Sound) (path hash : String) :
    Carries w (w.addFile path hash) fun _ _ => False := by
  by_cases hmem : path ∈ w.watchedFiles
  · rw [addFile_of_mem hmem]
    exact .refl w
  · apply Carries.of_eq
    · rw [addFile_of_notMem hmem]
    · rw [addFile_of_notMem hmem]
    · exact h.registered_addFile hash

theorem Sound.addFile (h : w.Sound) (path hash : String) : (w.addFile path hash).Sound := by
  by_cases hmem : path ∈ w.watchedFiles
  · rw [addFile_of_mem hmem]
    exact h
  · rw [addFile_of_notMem hmem]
    refine { h with
      paired := ?_, allotted := ?_, two := ?_, watched := ?_, unused := ?_ }
    · intro path'
      simp only [Dict.lookup_set]
      split
      · rfl
      · exact h.paired path'
    · intro path' r hr
      simp only [Dict.lookup_set] at hr
      have htwo := h.two
      split at hr
      · obtain rfl := Option.some_inj.mp hr
        exact ⟨htwo, Nat.lt_succ_self _⟩
      · obtain ⟨hle, hlt⟩ := h.allotted path' r hr
        exact ⟨hle, hlt.trans_le (Nat.le_add_right _ 2)⟩
    · exact h.two.trans (Nat.le_add_right _ 2)
    · intro path' hmem'
      rcases Dict.mem_set.mp hmem' with heq | hold
      · exact Dict.mem_set.mpr (.inl heq)
      · exact Dict.mem_set.mpr (.inr (h.watched path' hold))
    · intro r hr
      exact h.unused r ((Nat.le_add_right _ 2).trans hr)

end

/-! ### Calls -/

/-- Only the lists differ. -/
structure SameTables (w w' : ConfigWatcher C) : Prop where
  watchedFiles : w'.watchedFiles = w.watchedFiles
  callbacks : w'.callbacks = w.callbacks
  asyncCallbacks : w'.asyncCallbacks = w.asyncCallbacks
  pendingChanges : w'.pendingChanges = w.pendingChanges

namespace SameTables

theorem refl (w : ConfigWatcher C) : SameTables w w := ⟨rfl, rfl, rfl, rfl⟩

theorem trans (h : SameTables w w') (h' : SameTables w' w'') : SameTables w w'' :=
  ⟨h'.watchedFiles.trans h.watchedFiles, h'.callbacks.trans h.callbacks,
    h'.asyncCallbacks.trans h.asyncCallbacks, h'.pendingChanges.trans h.pendingChanges⟩

end SameTables

section

variable {path hash : String} {kind : CallbackKind} {c : Option C}

theorem Sound.listRef_lt (h : w.Sound) {r : Nat} (hr : w.listRef path kind = some r) :
    r < w.nextList := by
  have htwo := h.two
  cases kind with
  | file => exact (Nat.lt_succ_self r).trans (h.allotted path r hr).2
  | fileAsync =>
      have hasync : w.asyncCallbacks.lookup path = some r := hr
      rw [h.paired] at hasync
      obtain ⟨r', hr', rfl⟩ := Option.map_eq_some_iff.mp hasync
      exact (h.allotted path r' hr').2
  | global =>
      obtain rfl : 0 = r := Option.some_inj.mp hr
      omega
  | globalAsync =>
      obtain rfl : 1 = r := Option.some_inj.mp hr
      omega

/-- The lists of a path are different lists. -/
theorem Sound.kind_unique (h : w.Sound) {id : Nat} {kind kind' : CallbackKind}
    (hpos : 0 < tally id (w.registered path kind))
    (hpos' : 0 < tally id (w.registered path kind')) : kind = kind' := by
  have hlists : ∀ k, 0 < tally id (w.registered path k) →
      ∃ r, w.listRef path k = some r ∧ 0 < tally id (w.lists r) := by
    intro k hk
    rw [registered] at hk
    cases href : w.listRef path k with
    | none =>
        rw [href] at hk
        exact absurd rfl hk.ne'
    | some r =>
        rw [href] at hk
        exact ⟨r, rfl, hk⟩
  obtain ⟨r, href, hr⟩ := hlists kind hpos
  obtain ⟨r', href', hr'⟩ := hlists kind' hpos'
  obtain rfl : r = r' := h.apart id r r' hr hr'
  have hfile : w.listRef path .file = some r → 2 ≤ r := fun heq => (h.allotted path r heq).1
  have hasync : w.listRef path .fileAsync = some r →
      ∃ r', w.listRef path .file = some r' ∧ 2 ≤ r' ∧ r' + 1 = r := by
    intro heq
    have hpaired : (w.callbacks.lookup path).map (· + 1) = some r := (h.paired path).symm.trans heq
    obtain ⟨r', hr', hsucc⟩ := Option.map_eq_some_iff.mp hpaired
    exact ⟨r', hr', (h.allotted path r' hr').1, hsucc⟩
  have hglobal : w.listRef path .global = some 0 := rfl
  have hglobalAsync : w.listRef path .globalAsync = some 1 := rfl
  cases kind <;> cases kind' <;> grind

/-- Loops over different lists come to a registration once at most. -/
theorem Sound.tally_kinds_le (h : w.Sound) (id : Nat) {kinds : List CallbackKind}
    (hkinds : kinds.Nodup) : tally id (kinds.flatMap (w.registered path)) ≤ 1 := by
  induction kinds with
  | nil => exact Nat.zero_le 1
  | cons kind kinds ih =>
      obtain ⟨hnew, hrest⟩ := List.nodup_cons.mp hkinds
      rw [List.flatMap_cons, tally_append]
      rcases Nat.eq_zero_or_pos (tally id (kinds.flatMap (w.registered path))) with hzero | hpos
      · rw [hzero]
        cases href : w.listRef path kind with
        | none =>
            rw [registered, href]
            exact Nat.zero_le 1
        | some r =>
            rw [registered, href]
            exact h.once id r
      · obtain ⟨kind', hkind', hpos'⟩ := tally_flatMap_pos hpos
        have hzero : tally id (w.registered path kind) = 0 := by
          by_contra hne
          have heq := h.kind_unique (Nat.pos_of_ne_zero hne) hpos'
          exact hnew (heq ▸ hkind')
        rw [hzero, Nat.zero_add]
        exact ih hrest

theorem Sound.registered_lt (h : w.Sound) {id : Nat}
    (hpos : 0 < tally id (w.registered path kind)) : id < w.nextId := by
  rw [registered] at hpos
  cases href : w.listRef path kind with
  | none =>
      rw [href] at hpos
      exact absurd rfl hpos.ne'
  | some r =>
      rw [href] at hpos
      exact h.numbered id r hpos

/-- A call that leaves the tables, keeps them sound and takes nothing from a loop. -/
structure Adds (w w' : ConfigWatcher C) : Prop where
  sound : w'.Sound
  carries : Carries w w' fun _ _ => False
  tables : SameTables w w'

theorem Adds.refl (h : w.Sound) : Adds w w := ⟨h, .refl w, .refl w⟩

theorem Adds.trans (h : Adds w w') (h' : Adds w' w'') : Adds w w'' :=
  ⟨h'.sound, (h.carries.trans h'.carries).weaken (by simp), h.tables.trans h'.tables⟩

theorem Sound.adds_append (h : w.Sound) {r : Nat} (hr : r < w.nextList) (c : C) :
    Adds w (w.append r c) :=
  ⟨h.append hr c, carries_append w r c, ⟨rfl, rfl, rfl, rfl⟩⟩

theorem Sound.adds_appendOpt (h : w.Sound) {r : Nat} (hr : r < w.nextList) (c : Option C) :
    Adds w (w.appendOpt r c) := by
  cases c with
  | none => exact .refl h
  | some c => exact h.adds_append hr c

theorem Sound.adds_onAnyChange (h : w.Sound) (callback asyncCallback : Option C) :
    Adds w (w.onAnyChange callback asyncCallback) := by
  have htwo := h.two
  have hfirst : Adds w (w.appendOpt 0 callback) := h.adds_appendOpt (by omega) callback
  apply hfirst.trans
  exact hfirst.sound.adds_appendOpt (hfirst.sound.two.trans_lt' Nat.one_lt_two) asyncCallback

theorem sameTables_onAnyChange (w : ConfigWatcher C) (callback asyncCallback : Option C) :
    SameTables w (w.onAnyChange callback asyncCallback) := by
  cases callback <;> cases asyncCallback <;> exact ⟨rfl, rfl, rfl, rfl⟩

theorem sameTables_register (hw : w.register path kind c = some w') : SameTables w w' := by
  cases c with
  | none =>
      obtain rfl : w = w' := Option.some_inj.mp hw
      exact .refl w
  | some c =>
      obtain ⟨r, -, rfl⟩ := Option.map_eq_some_iff.mp hw
      exact ⟨rfl, rfl, rfl, rfl⟩

/-- A watch changes the tables as far as it adds the file. -/
theorem sameTables_watch (w : ConfigWatcher C) (path hash : String)
    (callback asyncCallback : Option C) :
    SameTables (w.addFile path hash) (w.watch path hash callback asyncCallback).1 := by
  cases hfile : (w.addFile path hash).register path .file callback with
  | none =>
      simp only [watch, hfile]
      exact .refl _
  | some w₁ =>
      have hfirst := sameTables_register hfile
      cases hasync : w₁.register path .fileAsync asyncCallback with
      | none =>
          simp only [watch, hfile, hasync]
          exact hfirst
      | some w₂ =>
          simp only [watch, hfile, hasync]
          exact hfirst.trans (sameTables_register hasync)

theorem Sound.adds_register (h : w.Sound) (hw : w.register path kind c = some w') : Adds w w' := by
  cases c with
  | none =>
      obtain rfl : w = w' := Option.some_inj.mp hw
      exact .refl h
  | some c =>
      obtain ⟨r, hr, rfl⟩ := Option.map_eq_some_iff.mp hw
      exact h.adds_append (h.listRef_lt hr) c

theorem listRef_of_register_none (hw : w.register path kind c = none) :
    w.listRef path kind = none := by
  cases c with
  | none => cases hw
  | some c => exact Option.map_eq_none_iff.mp hw

/-- A watch adds the file and then to its lists; it raises if the file has none. -/
theorem Sound.adds_watch (h : w.Sound) (path hash : String) (callback asyncCallback : Option C) :
    Adds (w.addFile path hash) (w.watch path hash callback asyncCallback).1 ∧
      ((w.watch path hash callback asyncCallback).2 = true →
        path ∉ (w.addFile path hash).callbacks) := by
  have hadd : (w.addFile path hash).Sound := h.addFile path hash
  cases hfile : (w.addFile path hash).register path .file callback with
  | none =>
      simp only [watch, hfile]
      refine ⟨.refl hadd, fun _ => ?_⟩
      exact AList.lookup_eq_none.mp (listRef_of_register_none hfile)
  | some w₁ =>
      have h₁ : Adds (w.addFile path hash) w₁ := hadd.adds_register hfile
      cases hasync : w₁.register path .fileAsync asyncCallback with
      | none =>
          simp only [watch, hfile, hasync]
          refine ⟨h₁, fun _ => ?_⟩
          have hnone : w₁.asyncCallbacks.lookup path = none := listRef_of_register_none hasync
          rw [h₁.sound.paired, h₁.tables.callbacks, Option.map_eq_none_iff] at hnone
          exact AList.lookup_eq_none.mp hnone
      | some w₂ =>
          simp only [watch, hfile, hasync]
          exact ⟨h₁.trans (h₁.sound.adds_register hasync), nofun⟩

end

/-! ### Removing -/

section

variable [DecidableEq C] {id r : Nat} {c : C}

/-- The registration that the removal makes a dispatch pass over. -/
def passed (w : ConfigWatcher C) (d : Dispatch) (ref : Option Nat) (c : C) : Option Nat :=
  match ref with
  | none => none
  | some r =>
    if d.list = ref then
      (Cursor.passed (w.lists r) d.index (w.position r c)).map Registration.id
    else none

/-- Those that the removals make it pass over one after the other. -/
def passedOver (d : Dispatch) : ConfigWatcher C → List (Option Nat × C) → List Nat
  | _, [] => []
  | w, (ref, c) :: rs => (w.passed d ref c).toList ++ passedOver d (w.remove ref c) rs

theorem lists_remove_self (w : ConfigWatcher C) (r : Nat) (c : C) :
    (w.remove (some r) c).lists r = (w.lists r).eraseIdx (w.position r c) :=
  Function.update_self _ _ _

theorem lists_remove_of_ne {r' : Nat} (h : r' ≠ r) :
    (w.remove (some r) c).lists r' = w.lists r' :=
  Function.update_of_ne h _ _

theorem listRef_remove (w : ConfigWatcher C) (r : Nat) (c : C) (path : String)
    (kind : CallbackKind) : (w.remove (some r) c).listRef path kind = w.listRef path kind := by
  cases kind <;> rfl

theorem tally_lists_remove_le (w : ConfigWatcher C) (id r : Nat) (c : C) (r' : Nat) :
    tally id ((w.remove (some r) c).lists r') ≤ tally id (w.lists r') := by
  by_cases hr : r' = r
  · subst hr
    rw [lists_remove_self]
    exact tally_eraseIdx_le _
  · rw [lists_remove_of_ne hr]

/-- What is removed is in no list any more. -/
theorem Sound.tally_removed (h : w.Sound) {x : Registration C}
    (hx : (w.lists r)[w.position r c]? = some x) (r' : Nat) :
    tally x.id ((w.remove (some r) c).lists r') = 0 := by
  by_cases hr : r' = r
  · subst hr
    rw [lists_remove_self]
    exact tally_eraseIdx_self (h.once x.id r') hx
  · rw [lists_remove_of_ne hr]
    by_contra hpos
    apply hr
    apply h.apart x.id r' r (Nat.pos_of_ne_zero hpos)
    exact tally_pos.mpr (List.mem_map_of_mem (List.mem_of_getElem? hx))

/-- What is still registered is not what has been removed. -/
theorem Sound.ne_removed (h : w.Sound) {path : String} {kind : CallbackKind}
    (hpos : 0 < tally id ((w.remove (some r) c).registered path kind)) {x : Registration C}
    (hx : (w.lists r)[w.position r c]? = some x) : decide (x.id = id) = false := by
  apply decide_eq_false
  rintro rfl
  rw [registered] at hpos
  cases href : (w.remove (some r) c).listRef path kind with
  | none =>
      rw [href] at hpos
      exact hpos.ne' rfl
  | some r' =>
      rw [href] at hpos
      exact hpos.ne' (h.tally_removed hx r')

theorem tally_items_remove
    (hkept : ∀ x, (w.lists r)[w.position r c]? = some x → decide (x.id = id) = false)
    (ref : Option Nat) : tally id ((w.remove (some r) c).items ref) = tally id (w.items ref) := by
  cases ref with
  | none => rfl
  | some r' =>
      rw [items, items]
      by_cases hr : r' = r
      · subst hr
        rw [lists_remove_self]
        exact Cursor.countP_eraseIdx hkept
      · rw [lists_remove_of_ne hr]

/-- What the removal does not make the loop pass over is still ahead of it. -/
theorem tally_ahead_remove
    (hkept : ∀ x, (w.lists r)[w.position r c]? = some x → decide (x.id = id) = false)
    {d : Dispatch} (hpassed : w.passed d (some r) c ≠ some id) :
    tally id (Cursor.ahead ((w.remove (some r) c).items d.list) d.index) =
      tally id (Cursor.ahead (w.items d.list) d.index) := by
  by_cases hlist : d.list = some r
  · simp only [passed, if_pos hlist] at hpassed
    rw [hlist, items, items, lists_remove_self]
    apply Cursor.countP_ahead_eraseIdx hkept
    intro x hx
    rw [hx] at hpassed
    simpa using hpassed
  · cases hcases : d.list with
    | none => rfl
    | some r' => rw [items, items, lists_remove_of_ne fun heq => hlist (by rw [hcases, heq])]

theorem Sound.carries_remove (h : w.Sound) (ref : Option Nat) (c : C) :
    Carries w (w.remove ref c) fun d id => w.passed d ref c = some id := by
  cases ref with
  | none => exact (Carries.refl w).weaken (by simp)
  | some r =>
      refine ⟨le_rfl, ?_, ?_⟩
      · intro path kind id _
        rw [registered, registered, listRef_remove]
        cases w.listRef path kind with
        | none => exact le_rfl
        | some r' => exact tally_lists_remove_le w id r c r'
      · intro d path kind id _ hpos hpassed
        have hkept x (hx : (w.lists r)[w.position r c]? = some x) := h.ne_removed hpos hx
        have hrest : tally id (d.later.flatMap ((w.remove (some r) c).registered d.change.path)) =
            tally id (d.later.flatMap (w.registered d.change.path)) := by
          apply tally_flatMap_congr
          intro k _
          rw [registered, registered, listRef_remove]
          exact tally_items_remove hkept _
        rw [Dispatch.left, Dispatch.left, tally_append, tally_append,
          tally_ahead_remove hkept hpassed, hrest]

theorem Sound.remove (h : w.Sound) (ref : Option Nat) (c : C) : (w.remove ref c).Sound := by
  cases ref with
  | none => exact h
  | some r =>
      refine { h with unused := ?_, once := ?_, apart := ?_, numbered := ?_ }
      · intro r' hr'
        have hnil : w.lists r' = [] := h.unused r' hr'
        by_cases hr : r' = r
        · subst hr
          rw [lists_remove_self, hnil]
          rfl
        · rw [lists_remove_of_ne hr, hnil]
      · intro id r'
        exact (tally_lists_remove_le w id r c r').trans (h.once id r')
      · intro id r₁ r₂ h₁ h₂
        exact h.apart id r₁ r₂ (h₁.trans_le (tally_lists_remove_le w id r c r₁))
          (h₂.trans_le (tally_lists_remove_le w id r c r₂))
      · intro id r' hpos
        exact h.numbered id r' (hpos.trans_le (tally_lists_remove_le w id r c r'))

theorem sameTables_remove (w : ConfigWatcher C) (ref : Option Nat) (c : C) :
    SameTables w (w.remove ref c) := by
  cases ref with
  | none => exact .refl w
  | some r => exact ⟨rfl, rfl, rfl, rfl⟩

theorem sameTables_removeAll (w : ConfigWatcher C) (rs : List (Option Nat × C)) :
    SameTables w (w.removeAll rs) := by
  induction rs generalizing w with
  | nil => exact .refl w
  | cons r rs ih => exact (sameTables_remove w r.1 r.2).trans (ih (w.remove r.1 r.2))

theorem Sound.removeAll (h : w.Sound) (rs : List (Option Nat × C)) :
    (w.removeAll rs).Sound ∧
      Carries w (w.removeAll rs) fun d id => id ∈ passedOver d w rs := by
  induction rs generalizing w with
  | nil => exact ⟨h, (Carries.refl w).weaken (by simp)⟩
  | cons r rs ih =>
      obtain ⟨hsound, hcarries⟩ := ih (h.remove r.1 r.2)
      refine ⟨hsound, ?_⟩
      apply ((h.carries_remove r.1 r.2).trans hcarries).weaken
      intro d id hpassed
      rw [passedOver, List.mem_append, Option.mem_toList]
      exact hpassed

end

theorem dropEmpty_cases (w : ConfigWatcher C) (path : String) :
    w.dropEmpty path = w ∨
      w.ofPath path = [] ∧ w.dropEmpty path =
        { w with
          watchedFiles := w.watchedFiles.erase path
          callbacks := w.callbacks.erase path
          asyncCallbacks := w.asyncCallbacks.erase path } := by
  cases hempty : (w.ofPath path).isEmpty with
  | true => exact .inr ⟨List.isEmpty_iff.mp hempty, if_pos hempty⟩
  | false => exact .inl (if_neg (by simp [hempty]))

theorem registered_dropEmpty (w : ConfigWatcher C) (path path' : String) (kind : CallbackKind) :
    (w.dropEmpty path).registered path' kind = w.registered path' kind := by
  rcases dropEmpty_cases w path with hsame | ⟨hnil, hdrop⟩
  · rw [hsame]
  · rw [hdrop]
    by_cases hpath : path' = path
    · subst hpath
      have hnils : ∀ k ∈ [CallbackKind.file, .fileAsync], w.registered path' k = [] :=
        List.flatMap_eq_nil_iff.mp hnil
      cases kind with
      | file =>
          rw [hnils .file (by simp)]
          simp only [registered, listRef, AList.lookup_erase, items]
      | fileAsync =>
          rw [hnils .fileAsync (by simp)]
          simp only [registered, listRef, AList.lookup_erase, items]
      | global => rfl
      | globalAsync => rfl
    · cases kind with
      | file => simp only [registered, listRef, AList.lookup_erase_ne hpath, items]
      | fileAsync => simp only [registered, listRef, AList.lookup_erase_ne hpath, items]
      | global => rfl
      | globalAsync => rfl

theorem carries_dropEmpty (w : ConfigWatcher C) (path : String) :
    Carries w (w.dropEmpty path) fun _ _ => False := by
  apply Carries.of_eq
  · rcases dropEmpty_cases w path with hsame | ⟨-, hdrop⟩
    · rw [hsame]
    · rw [hdrop]
  · rcases dropEmpty_cases w path with hsame | ⟨-, hdrop⟩
    · rw [hsame]
    · rw [hdrop]
  · exact registered_dropEmpty w path

theorem Sound.dropEmpty (h : w.Sound) (path : String) : (w.dropEmpty path).Sound := by
  rcases dropEmpty_cases w path with hsame | ⟨-, hdrop⟩
  · rw [hsame]
    exact h
  · rw [hdrop]
    refine { h with paired := ?_, allotted := ?_, watched := ?_ }
    · intro path'
      by_cases hpath : path' = path
      · subst hpath
        simp only [AList.lookup_erase, Option.map_none]
      · simp only [AList.lookup_erase_ne hpath]
        exact h.paired path'
    · intro path' r hr
      by_cases hpath : path' = path
      · subst hpath
        simp only [AList.lookup_erase] at hr
        cases hr
      · simp only [AList.lookup_erase_ne hpath] at hr
        exact h.allotted path' r hr
    · intro path' hmem
      obtain ⟨hne, hold⟩ := AList.mem_erase.mp hmem
      exact AList.mem_erase.mpr ⟨hne, h.watched path' hold⟩

/-- An unwatch takes at most its path from the tables, and leaves what is pending. -/
theorem unwatch_cases [DecidableEq C] (w : ConfigWatcher C) (u : Unwatch C) :
    SameTables w (w.unwatch u) ∨ ∃ path,
      (w.unwatch u).watchedFiles = w.watchedFiles.erase path ∧
      (w.unwatch u).callbacks = w.callbacks.erase path ∧
      (w.unwatch u).pendingChanges = w.pendingChanges := by
  have htables := sameTables_removeAll w (w.removals u)
  cases hpath : u.path with
  | none =>
      simp only [ConfigWatcher.unwatch, hpath]
      exact .inl htables
  | some path =>
      simp only [ConfigWatcher.unwatch, hpath]
      rcases dropEmpty_cases (w.removeAll (w.removals u)) path with hsame | ⟨-, hdrop⟩
      · rw [hsame]
        exact .inl htables
      · rw [hdrop]
        refine .inr ⟨path, ?_, ?_, htables.pendingChanges⟩
        · exact congrArg (AList.erase path) htables.watchedFiles
        · exact congrArg (AList.erase path) htables.callbacks

theorem Sound.unwatch [DecidableEq C] (h : w.Sound) (u : Unwatch C) :
    (w.unwatch u).Sound ∧
      Carries w (w.unwatch u) fun d id => id ∈ passedOver d w (w.removals u) := by
  obtain ⟨hsound, hcarries⟩ := h.removeAll (w.removals u)
  cases hpath : u.path with
  | none =>
      simp only [ConfigWatcher.unwatch, hpath]
      exact ⟨hsound, hcarries⟩
  | some path =>
      simp only [ConfigWatcher.unwatch, hpath]
      refine ⟨hsound.dropEmpty path, ?_⟩
      exact (hcarries.trans (carries_dropEmpty _ path)).weaken (by simp)

end ConfigWatcher

/-! ## Loops -/

namespace Dispatch

variable {C : Type u} {w : ConfigWatcher C} {d d' : Dispatch} {id : Nat}

/-- A loop calls the first of what it has left, the turn to the next loop calls nothing and
leaves everything, and the loops end when nothing is left. -/
theorem next_spec (w : ConfigWatcher C) (d : Dispatch) :
    match d.next w with
    | .invoke id d' => ∃ r, r.id = id ∧ d.left w = r :: d'.left w ∧ d'.change = d.change ∧
        d'.due = d.due ∧ d'.invoked = d.invoked ++ [id]
    | .turn d' => d'.left w = d.left w ∧ d'.change = d.change ∧ d'.due = d.due ∧
        d'.invoked = d.invoked
    | .finish => d.left w = [] := by
  rw [next]
  cases hitem : (w.items d.list)[d.index]? with
  | some r =>
      refine ⟨r, rfl, ?_, rfl, rfl, rfl⟩
      rw [left, Cursor.ahead_of_some hitem]
      rfl
  | none =>
      cases hlater : d.later with
      | nil =>
          change d.left w = []
          rw [left, Cursor.ahead_of_none hitem, hlater]
          rfl
      | cons kind later =>
          refine ⟨?_, rfl, rfl, rfl⟩
          rw [left, left, Cursor.ahead_of_none hitem, hlater]
          rfl

theorem next_invoke (h : d.next w = .invoke id d') :
    ∃ r, r.id = id ∧ d.left w = r :: d'.left w ∧ d'.change = d.change ∧ d'.due = d.due ∧
      d'.invoked = d.invoked ++ [id] := by
  have hspec := next_spec w d
  rwa [h] at hspec

theorem next_turn (h : d.next w = .turn d') :
    d'.left w = d.left w ∧ d'.change = d.change ∧ d'.due = d.due ∧ d'.invoked = d.invoked := by
  have hspec := next_spec w d
  rwa [h] at hspec

theorem next_finish (h : d.next w = .finish) : d.left w = [] := by
  have hspec := next_spec w d
  rwa [h] at hspec

end Dispatch

/-! ## Calls in a run -/

namespace WatcherRun

variable {C : Type u} {md5 : List UInt8 → String} {s s' : WatcherRun C}

/-- A call changes the watcher alone. -/
structure Calls (s s' : WatcherRun C) (passed : Dispatch → Nat → Prop) : Prop where
  sound : s'.watcher.Sound
  carries : s.watcher.Carries s'.watcher passed
  forces : s'.forces = s.forces
  poll : s'.poll = s.poll
  disk : s'.disk = s.disk
  changedAt : s'.changedAt = s.changedAt
  since : s'.since = s.since

theorem Calls.dispatches {passed : Dispatch → Nat → Prop} (h : Calls s s' passed) :
    s'.dispatches = s.dispatches := by
  rw [WatcherRun.dispatches, WatcherRun.dispatches, h.forces, h.poll]

theorem watch_cases (md5 : List UInt8 → String) (s : WatcherRun C) (path : String)
    (callback asyncCallback : Option C) :
    let call := s.watcher.watch path (s.computeHash md5 path) callback asyncCallback
    call.2 = true ∧ s.watch md5 path callback asyncCallback =
        { s with watcher := call.1, raised := s.raised + 1 } ∨
      call.2 = false ∧ s.watch md5 path callback asyncCallback =
        { s with
          watcher := call.1
          unwatches := s.unwatches ++ [⟨some path, callback, asyncCallback⟩] } := by
  intro call
  have hcall : s.watcher.watch path (s.computeHash md5 path) callback asyncCallback =
      (call.1, call.2) := rfl
  cases hraised : call.2 with
  | true =>
      rw [hraised] at hcall
      exact .inl ⟨rfl, by simp only [watch, hcall]⟩
  | false =>
      rw [hraised] at hcall
      exact .inr ⟨rfl, by simp only [watch, hcall]⟩

theorem calls_watch (h : s.watcher.Sound) (path : String) (callback asyncCallback : Option C) :
    Calls s (s.watch md5 path callback asyncCallback) fun _ _ => False := by
  obtain ⟨hadds, -⟩ := h.adds_watch path (s.computeHash md5 path) callback asyncCallback
  have hcarries : s.watcher.Carries
      (s.watcher.watch path (s.computeHash md5 path) callback asyncCallback).1
      fun _ _ => False :=
    ((h.carries_addFile path (s.computeHash md5 path)).trans hadds.carries).weaken (by simp)
  rcases watch_cases md5 s path callback asyncCallback with ⟨-, hwatch⟩ | ⟨-, hwatch⟩
  · rw [hwatch]
    exact ⟨hadds.sound, hcarries, rfl, rfl, rfl, rfl, rfl⟩
  · rw [hwatch]
    exact ⟨hadds.sound, hcarries, rfl, rfl, rfl, rfl, rfl⟩

theorem calls_onAnyChange (h : s.watcher.Sound) (callback asyncCallback : Option C) :
    Calls s (s.onAnyChange callback asyncCallback) fun _ _ => False :=
  have hadds := h.adds_onAnyChange callback asyncCallback
  ⟨hadds.sound, hadds.carries, rfl, rfl, rfl, rfl, rfl⟩

theorem calls_unwatch [DecidableEq C] (h : s.watcher.Sound) (u : Unwatch C) :
    Calls s (s.unwatch u) fun d id => id ∈ ConfigWatcher.passedOver d s.watcher (s.watcher.removals u) :=
  have hunwatch := h.unwatch u
  ⟨hunwatch.1, hunwatch.2, rfl, rfl, rfl, rfl, rfl⟩

/-! ### What a turn comes to -/

/-- One turn of the innermost forced reload. -/
inductive ForceTurn (s : WatcherRun C) (d : Dispatch) (outer : List Dispatch) :
    WatcherRun C → Prop where
  | invokes (id : Nat) (d' : Dispatch) (hnext : d.next s.watcher = .invoke id d') :
      ForceTurn s d outer { s.told d.change.path id with forces := d' :: outer }
  | turns (d' : Dispatch) (hnext : d.next s.watcher = .turn d') :
      ForceTurn s d outer { s with forces := d' :: outer }
  | returns (hnext : d.next s.watcher = .finish) : ForceTurn s d outer { s with forces := outer }

/-- One turn of the poll. -/
inductive PollTurn (md5 : List UInt8 → String) (s : WatcherRun C) (q : Poll) :
    WatcherRun C → Prop where
  | ends (hcurrent : q.current = none) (htodo : q.todo = []) : PollTurn md5 s q { s with poll := none }
  | visits (path : String) (todo : List String) (hcurrent : q.current = none)
      (htodo : q.todo = path :: todo) : PollTurn md5 s q (s.visit md5 { q with todo } path)
  | invokes (d : Dispatch) (id : Nat) (d' : Dispatch) (hcurrent : q.current = some d)
      (hnext : d.next s.watcher = .invoke id d') :
      PollTurn md5 s q { s.told d.change.path id with poll := some { q with current := some d' } }
  | turns (d d' : Dispatch) (hcurrent : q.current = some d) (hnext : d.next s.watcher = .turn d') :
      PollTurn md5 s q { s with poll := some { q with current := some d' } }
  | stores (d : Dispatch) (hcurrent : q.current = some d) (hnext : d.next s.watcher = .finish) :
      PollTurn md5 s q (s.store q d.change)

theorem forceTurn (s : WatcherRun C) (d : Dispatch) (outer : List Dispatch) :
    ForceTurn s d outer (s.advanceForce d outer) := by
  rw [advanceForce]
  cases hnext : d.next s.watcher with
  | invoke id d' => exact .invokes id d' hnext
  | turn d' => exact .turns d' hnext
  | finish => exact .returns hnext

theorem pollTurn (md5 : List UInt8 → String) (s : WatcherRun C) (q : Poll) :
    PollTurn md5 s q (s.advancePoll md5 q) := by
  cases hcurrent : q.current with
  | none =>
      cases htodo : q.todo with
      | nil =>
          simp only [advancePoll, hcurrent, htodo]
          exact .ends hcurrent htodo
      | cons path todo =>
          have hvisit : s.advancePoll md5 q = s.visit md5 { q with todo } path := by
            simp only [advancePoll, hcurrent, htodo]
          rw [hvisit]
          exact .visits path todo hcurrent htodo
  | some d =>
      cases hnext : d.next s.watcher with
      | invoke id d' =>
          simp only [advancePoll, hcurrent, hnext]
          exact .invokes d id d' hcurrent hnext
      | turn d' =>
          simp only [advancePoll, hcurrent, hnext]
          exact .turns d d' hcurrent hnext
      | finish =>
          simp only [advancePoll, hcurrent, hnext]
          exact .stores d hcurrent hnext

/-- What a step comes to. -/
inductive StepTurn [DecidableEq C] (md5 : List UInt8 → String) (s : WatcherRun C) :
    WatchAct C → WatcherRun C → Prop where
  | watch (path : String) (callback asyncCallback : Option C) :
      StepTurn md5 s (.watch path callback asyncCallback) (s.watch md5 path callback asyncCallback)
  | onAnyChange (callback asyncCallback : Option C) :
      StepTurn md5 s (.onAnyChange callback asyncCallback) (s.onAnyChange callback asyncCallback)
  | unwatch (k : Nat) (u : Unwatch C) (hu : s.unwatches[k]? = some u) :
      StepTurn md5 s (.unwatch k) (s.unwatch u)
  | edit (path : String) (content : Option (List UInt8)) :
      StepTurn md5 s (.edit path content) (s.edit path content)
  | startPoll (now : ℚ) (hpoll : s.poll = none) :
      StepTurn md5 s (.startPoll now)
        { s with poll := some ⟨now, s.watcher.watchedFiles.keys, none⟩ }
  | forceReload (path : String) : StepTurn md5 s (.forceReload path) (s.forceReload md5 path)
  | forces (d : Dispatch) (outer : List Dispatch) (s' : WatcherRun C)
      (hforces : s.forces = d :: outer) (hturn : ForceTurn s d outer s') :
      StepTurn md5 s .advance s'
  | polls (q : Poll) (s' : WatcherRun C) (hforces : s.forces = []) (hpoll : s.poll = some q)
      (hturn : PollTurn md5 s q s') : StepTurn md5 s .advance s'

theorem stepTurn [DecidableEq C] {l : WatchAct C} (hs : s.step md5 l = some s') :
    StepTurn md5 s l s' := by
  cases l with
  | watch path callback asyncCallback =>
      obtain ⟨-, ⟨⟩⟩ := Option.ite_none_right_eq_some.mp hs
      exact .watch path callback asyncCallback
  | onAnyChange callback asyncCallback =>
      obtain ⟨-, ⟨⟩⟩ := Option.ite_none_right_eq_some.mp hs
      exact .onAnyChange callback asyncCallback
  | unwatch k =>
      obtain ⟨-, hcall⟩ := Option.ite_none_right_eq_some.mp hs
      obtain ⟨u, hu, rfl⟩ := Option.map_eq_some_iff.mp hcall
      exact .unwatch k u hu
  | edit path content =>
      obtain rfl := Option.some_inj.mp hs
      exact .edit path content
  | startPoll now =>
      obtain ⟨⟨-, hpoll⟩, ⟨⟩⟩ := Option.ite_none_right_eq_some.mp hs
      exact .startPoll now (Option.isNone_iff_eq_none.mp hpoll)
  | forceReload path =>
      obtain ⟨-, ⟨⟩⟩ := Option.ite_none_right_eq_some.mp hs
      exact .forceReload path
  | advance =>
      change s.advance md5 = some s' at hs
      rw [advance] at hs
      cases hforces : s.forces with
      | cons d outer =>
          rw [hforces] at hs
          obtain rfl := Option.some_inj.mp hs
          exact .forces d outer _ hforces (s.forceTurn d outer)
      | nil =>
          rw [hforces] at hs
          obtain ⟨q, hpoll, rfl⟩ := Option.map_eq_some_iff.mp hs
          exact .polls q _ hforces hpoll (pollTurn md5 s q)

theorem mem_dispatches {d : Dispatch} :
    d ∈ s.dispatches ↔ d ∈ s.forces ∨ ∃ q ∈ s.poll, d ∈ q.current := by
  simp only [dispatches, List.mem_append, Option.mem_toList, Option.mem_def, Option.bind_eq_some_iff]

end WatcherRun
