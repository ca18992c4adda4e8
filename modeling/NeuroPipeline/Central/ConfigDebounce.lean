-- SUMMARY: Waiting before a change is dispatched: what a watched file was found to hold and what was applied of it, over whole runs.
import Mathlib.Tactic.NormNum
import NeuroPipeline.Central.ConfigReentrancy

/-!
# Debounce

The watcher keeps digests. The contents themselves are read off the steps of a run:
what a file held when a poll last looked at it, and what was last applied of it.
-/

universe u

namespace WatcherRun

variable {C : Type u}

/-! ## Looks and applications -/

/-- The change whose callbacks a poll is calling. -/
def dispatching (s : WatcherRun C) : Option ConfigChange :=
  (s.poll.bind Poll.current).map Dispatch.change

/-- The watched file that a step of a poll looks at, and the time of the poll. -/
def looksAt (s : WatcherRun C) : WatchAct C → Option (String × ℚ)
  | .advance =>
    match s.forces, s.poll with
    | [], some ⟨now, path :: _, none⟩ =>
      if path ∈ s.watcher.watchedFiles then some (path, now) else none
    | _, _ => none
  | _ => none

/-- A call that takes the content as it is: the first watch of a file, or a forced reload. -/
def takes (s : WatcherRun C) : WatchAct C → Option String
  | .watch path _ _ => if path ∈ s.watcher.watchedFiles then none else some path
  | .forceReload path => if path ∈ s.watcher.watchedFiles then some path else none
  | _ => none

/-- The end of a poll's dispatch. -/
def finishes (s : WatcherRun C) : WatchAct C → Option String
  | .advance =>
    match s.forces, s.poll with
    | [], some ⟨_, _, some d⟩ =>
      if d.next s.watcher = .finish then some d.change.path else none
    | _, _ => none
  | _ => none

def Applies (s : WatcherRun C) (l : WatchAct C) (path : String) : Prop :=
  s.takes l = some path ∨ s.finishes l = some path

/-- What files held when they were last looked at, and when they were last applied. -/
structure Contents where
  looked : String → Option (List UInt8) := fun _ => none
  applied : String → Option (List UInt8) := fun _ => none

/-- A dispatch applies what the poll has seen. -/
def Contents.after (c : Contents) (s : WatcherRun C) (l : WatchAct C) : Contents where
  looked :=
    match s.looksAt l with
    | some (path, _) => Function.update c.looked path (s.disk path)
    | none => c.looked
  applied :=
    match s.takes l, s.finishes l with
    | some path, _ => Function.update c.applied path (s.disk path)
    | none, some path => Function.update c.applied path (c.looked path)
    | none, none => c.applied

def contents (t : List (WatcherRun C × WatchAct C)) : Contents :=
  t.foldl (fun c p => c.after p.1 p.2) {}

/-! ## The law -/

/-- At the time `first` the file was seen to hold something else than was applied last, and
since then every look at it has found such content and nothing of it has been applied. -/
inductive WaitedSince (path : String) (first : ℚ) : List (WatcherRun C × WatchAct C) → Prop where
  | sees {t : List (WatcherRun C × WatchAct C)} {s : WatcherRun C} {l : WatchAct C}
      (hlook : s.looksAt l = some (path, first))
      (hother : s.disk path ≠ (contents t).applied path) : WaitedSince path first (t ++ [(s, l)])
  | goesOn {t : List (WatcherRun C × WatchAct C)} {s : WatcherRun C} {l : WatchAct C}
      (h : WaitedSince path first t)
      (hother : ∀ now, s.looksAt l = some (path, now) → s.disk path ≠ (contents t).applied path)
      (hkept : ¬ s.Applies l path) : WaitedSince path first (t ++ [(s, l)])

/-- The step is a look at the file that goes on to call the callbacks. -/
def Dispatches [DecidableEq C] (md5 : List UInt8 → String) (s : WatcherRun C) (l : WatchAct C)
    (path : String) (now : ℚ) : Prop :=
  s.looksAt l = some (path, now) ∧ (s.step md5 l).any fun s' => s'.dispatching.isSome

instance [DecidableEq C] (md5 : List UInt8 → String) (s : WatcherRun C) (l : WatchAct C)
    (path : String) (now : ℚ) : Decidable (s.Dispatches md5 l path now) :=
  inferInstanceAs (Decidable (_ ∧ _))

/-- The clock of the polls does not run back. -/
def Forward (t : List (WatcherRun C × WatchAct C)) : Prop :=
  (t.filterMap fun p => (p.1.looksAt p.2).map Prod.snd).Pairwise (· ≤ ·)

instance (t : List (WatcherRun C × WatchAct C)) : Decidable (Forward t) :=
  inferInstanceAs (Decidable (List.Pairwise _ _))

/-- A poll dispatches a change only when it has waited for it, so that every look during the
time of waiting has found content other than the one last applied. -/
structure Debounced [DecidableEq C] (md5 : List UInt8 → String)
    (t : List (WatcherRun C × WatchAct C)) : Prop where
  waited : ∀ t₁ s l path now, t₁ ++ [(s, l)] <+: t → s.Dispatches md5 l path now →
    ∃ first, WaitedSince path first (t₁ ++ [(s, l)]) ∧ s.watcher.debounceSeconds ≤ now - first
  differed : Forward t → ∀ t₁ s l path now, t₁ ++ [(s, l)] <+: t →
    s.Dispatches md5 l path now → ∀ t₂ s' l' time, t₂ ++ [(s', l')] <+: t₁ ++ [(s, l)] →
      s'.looksAt l' = some (path, time) → now - s.watcher.debounceSeconds < time →
        s'.disk path ≠ (contents t₂).applied path

/-- The digest of the file is the one that is kept for it. -/
def SeesApplied (md5 : List UInt8 → String) (s : WatcherRun C) (l : WatchAct C)
    (path : String) : Prop :=
  (s.looksAt l).map Prod.fst = some path ∧
    s.watcher.watchedFiles.lookup path = some (s.computeHash md5 path)

/-- No step leaves a pending change behind: what a poll finds reverted, or a call takes as it
is, has no change pending, unless the file is just being dispatched. -/
def LeavesNone (md5 : List UInt8 → String) (s : WatcherRun C) (l : WatchAct C) : Prop :=
  ∀ path ∈ s.watcher.pendingChanges.keys, s.dispatching.map ConfigChange.path ≠ some path →
    ¬ s.SeesApplied md5 l path ∧ s.takes l ≠ some path

instance (md5 : List UInt8 → String) (s : WatcherRun C) (l : WatchAct C) :
    Decidable (s.LeavesNone md5 l) :=
  inferInstanceAs (Decidable (∀ path ∈ s.watcher.pendingChanges.keys, _ →
    ¬ (_ ∧ _) ∧ _))

/-! ## What is kept of the contents -/

variable {md5 : List UInt8 → String} {s s' : WatcherRun C} {l : WatchAct C}
  {t : List (WatcherRun C × WatchAct C)} {path : String} {now first : ℚ}

theorem contents_snoc : contents (t ++ [(s, l)]) = (contents t).after s l := by
  rw [contents, contents, List.foldl_append]
  rfl

/-- A step that looks at nothing and applies nothing. -/
structure Quiet (s : WatcherRun C) (l : WatchAct C) : Prop where
  looksAt : s.looksAt l = none
  takes : s.takes l = none
  finishes : s.finishes l = none

theorem Quiet.contents (h : s.Quiet l) : contents (t ++ [(s, l)]) = contents t := by
  rw [contents_snoc, Contents.after, h.looksAt, h.takes, h.finishes]

theorem Quiet.not_applies (h : s.Quiet l) (path : String) : ¬ s.Applies l path := by
  rw [Applies, h.takes, h.finishes]
  nofun

def digest (md5 : List UInt8 → String) (content : Option (List UInt8)) : String :=
  content.elim "" md5

theorem computeHash_eq (md5 : List UInt8 → String) (s : WatcherRun C) (path : String) :
    s.computeHash md5 path = digest md5 (s.disk path) := rfl

/-- What holds of the digests and of the pending changes after a run. -/
structure Waiting (md5 : List UInt8 → String) (t : List (WatcherRun C × WatchAct C))
    (s : WatcherRun C) : Prop where
  recorded : ∀ path hash, s.watcher.watchedFiles.lookup path = some hash →
    hash = digest md5 ((contents t).applied path)
  seen : ∀ change ∈ s.dispatching,
    change.newHash = digest md5 ((contents t).looked change.path)
  pending : ∀ path first, s.watcher.pendingChanges.lookup path = some first →
    s.dispatching.map ConfigChange.path = some path ∨ WaitedSince path first t

/-! ## Looks -/

theorem of_looksAt (h : s.looksAt l = some (path, now)) : l = .advance ∧ s.forces = [] ∧
    path ∈ s.watcher.watchedFiles ∧ ∃ todo, s.poll = some ⟨now, path :: todo, none⟩ := by
  cases l with
  | advance =>
      rw [looksAt] at h
      split at h
      · next now' path' todo hforces hpoll =>
        obtain ⟨hmem, heq⟩ := Option.ite_none_right_eq_some.mp h
        obtain ⟨rfl, rfl⟩ := Prod.mk.inj (Option.some_inj.mp heq)
        exact ⟨rfl, hforces, hmem, todo, hpoll⟩
      · cases h
  | _ => cases h

theorem dispatching_of_looksAt (h : s.looksAt l = some (path, now)) : s.dispatching = none := by
  obtain ⟨-, -, -, todo, hpoll⟩ := of_looksAt h
  rw [dispatching, hpoll]
  rfl

theorem looksAt_of_dispatching {change : ConfigChange} (h : s.dispatching = some change) :
    s.looksAt l = none := by
  cases hlook : s.looksAt l with
  | none => rfl
  | some look => exact nomatch h.symm.trans (dispatching_of_looksAt hlook)

/-- A look applies nothing. -/
theorem takes_of_looksAt (h : s.looksAt l = some (path, now)) :
    s.takes l = none ∧ s.finishes l = none := by
  obtain ⟨rfl, hforces, -, todo, hpoll⟩ := of_looksAt h
  refine ⟨rfl, ?_⟩
  rw [finishes, hforces, hpoll]

theorem contents_of_looksAt (h : s.looksAt l = some (path, now)) :
    (contents (t ++ [(s, l)])).applied = (contents t).applied ∧
      (contents (t ++ [(s, l)])).looked =
        Function.update (contents t).looked path (s.disk path) := by
  obtain ⟨htakes, hfinishes⟩ := takes_of_looksAt h
  rw [contents_snoc, Contents.after, h, htakes, hfinishes]
  exact ⟨rfl, rfl⟩

/-- A file that holds what is applied is passed over. A change is waited for from the time
that is pending for it, and dispatched when it has waited. -/
theorem visit_cases (md5 : List UInt8 → String) (q : Poll) {oldHash : String}
    (hlookup : s.watcher.watchedFiles.lookup path = some oldHash) :
    s.computeHash md5 path = oldHash ∧ s.visit md5 q path = { s with poll := some q } ∨
      s.computeHash md5 path ≠ oldHash ∧
        (s.visit md5 q path).watcher = { s.watcher with
          pendingChanges := s.watcher.pendingChanges.set path
            ((s.watcher.pendingChanges.lookup path).getD q.now) } ∧
        (s.watcher.debounceSeconds ≤ q.now - (s.watcher.pendingChanges.lookup path).getD q.now ∧
            (s.visit md5 q path).dispatching = some ⟨path, oldHash, s.computeHash md5 path⟩ ∨
          (s.visit md5 q path).poll = some q) := by
  by_cases hsame : s.computeHash md5 path = oldHash
  · exact .inl ⟨hsame, by simp only [visit, hlookup, if_pos hsame]⟩
  · refine .inr ⟨hsame, ?_⟩
    simp only [visit, hlookup, if_neg hsame]
    split
    · next hdue => exact ⟨rfl, .inl ⟨hdue, rfl⟩⟩
    · exact ⟨rfl, .inr rfl⟩

theorem dispatching_store (s : WatcherRun C) (q : Poll) (change : ConfigChange) :
    (s.store q change).dispatching = none := by
  simp only [store]
  split <;> rfl

/-- The end of a dispatch deletes what is pending for its path, and nothing else. -/
theorem pendingChanges_store (s : WatcherRun C) (q : Poll) (change : ConfigChange)
    (path : String) :
    (s.store q change).watcher.pendingChanges.lookup path =
      if path = change.path then none else s.watcher.pendingChanges.lookup path := by
  simp only [store]
  split
  · by_cases hpath : path = change.path
    · rw [if_pos hpath, hpath]
      exact AList.lookup_erase change.path s.watcher.pendingChanges
    · rw [if_neg hpath]
      exact AList.lookup_erase_ne hpath
  · next hmem =>
    split
    · next hpath =>
      rw [hpath]
      exact AList.lookup_eq_none.mpr hmem
    · rfl

namespace Waiting

theorem disk_ne (h : Waiting md5 t s) {oldHash : String}
    (hlookup : s.watcher.watchedFiles.lookup path = some oldHash)
    (hne : s.computeHash md5 path ≠ oldHash) : s.disk path ≠ (contents t).applied path := by
  intro heq
  apply hne
  rw [computeHash_eq, heq, h.recorded path oldHash hlookup]

/-- A look that finds another digest goes on waiting, or begins to. -/
theorem waitedSince (h : Waiting md5 t s) (hlook : s.looksAt l = some (path, now))
    (hother : s.disk path ≠ (contents t).applied path) :
    WaitedSince path ((s.watcher.pendingChanges.lookup path).getD now) (t ++ [(s, l)]) := by
  cases hpending : s.watcher.pendingChanges.lookup path with
  | none => exact .sees hlook hother
  | some first =>
      have hwaited := (h.pending path first hpending).resolve_left
        (by rw [dispatching_of_looksAt hlook]; nofun)
      refine hwaited.goesOn (fun _ _ => hother) ?_
      obtain ⟨htakes, hfinishes⟩ := takes_of_looksAt hlook
      rw [Applies, htakes, hfinishes]
      nofun

/-- The other files are waited for as before. -/
theorem waitedSince_other (h : Waiting md5 t s) (hlook : s.looksAt l = some (path, now))
    {path' : String} (hpath : path' ≠ path)
    (hpending : s.watcher.pendingChanges.lookup path' = some first) :
    WaitedSince path' first (t ++ [(s, l)]) := by
  have hwaited := (h.pending path' first hpending).resolve_left
    (by rw [dispatching_of_looksAt hlook]; nofun)
  refine hwaited.goesOn ?_ ?_
  · intro now' hlook'
    rw [hlook] at hlook'
    exact absurd (congrArg Prod.fst (Option.some_inj.mp hlook')).symm hpath
  · obtain ⟨htakes, hfinishes⟩ := takes_of_looksAt hlook
    rw [Applies, htakes, hfinishes]
    nofun

/-- A look at a file. -/
theorem visited (h : Waiting md5 t s) {todo : List String}
    (hlook : s.looksAt .advance = some (path, now)) (hleaves : s.LeavesNone md5 .advance) :
    Waiting md5 (t ++ [(s, .advance)]) (s.visit md5 ⟨now, todo, none⟩ path) := by
  obtain ⟨-, -, hmem, -⟩ := of_looksAt hlook
  obtain ⟨oldHash, hlookup⟩ := Dict.exists_lookup hmem
  obtain ⟨happlied, hlooked⟩ := contents_of_looksAt (t := t) hlook
  have hnone := dispatching_of_looksAt hlook
  have hrecorded : ∀ path' hash, (s.visit md5 ⟨now, todo, none⟩ path).watcher.watchedFiles.lookup
      path' = some hash → hash = digest md5 ((contents (t ++ [(s, .advance)])).applied path') := by
    intro path' hash hhash
    rw [watchedFiles_visit] at hhash
    rw [happlied]
    exact h.recorded path' hash hhash
  rcases visit_cases md5 ⟨now, todo, none⟩ hlookup with ⟨hsame, hvisit⟩ | ⟨hne, hwatcher, hturn⟩
  · refine ⟨hrecorded, ?_, ?_⟩
    · rw [hvisit]
      nofun
    · intro path' first hpending
      rw [hvisit] at hpending
      refine .inr (h.waitedSince_other hlook ?_ hpending)
      rintro rfl
      have hkey := AList.mem_keys.mp (Dict.mem_of_lookup hpending)
      refine (hleaves path' hkey (by rw [hnone]; nofun)).1 ⟨by rw [hlook]; rfl, ?_⟩
      rw [hsame, hlookup]
  · refine ⟨hrecorded, ?_, ?_⟩
    · intro change hchange
      rcases hturn with ⟨-, hdispatching⟩ | hpoll
      · rw [hdispatching] at hchange
        obtain rfl := Option.mem_some_iff.mp hchange
        rw [hlooked, Function.update_self]
        rfl
      · rw [dispatching, hpoll] at hchange
        cases hchange
    · intro path' first hpending
      rw [hwatcher] at hpending
      refine .inr ?_
      by_cases hpath : path' = path
      · subst hpath
        rw [Dict.lookup_set_self] at hpending
        rw [← Option.some_inj.mp hpending]
        exact h.waitedSince hlook (h.disk_ne hlookup hne)
      · rw [Dict.lookup_set_of_ne hpath] at hpending
        exact h.waitedSince_other hlook hpath hpending

/-- Quiet steps keep the hashes, or lose some, and what is pending or dispatched. -/
theorem quiet (h : Waiting md5 t s) (hquiet : s.Quiet l)
    (hfiles : ∀ path hash, s'.watcher.watchedFiles.lookup path = some hash →
      s.watcher.watchedFiles.lookup path = some hash)
    (hpending : s'.watcher.pendingChanges = s.watcher.pendingChanges)
    (hdispatching : s'.dispatching = s.dispatching) : Waiting md5 (t ++ [(s, l)]) s' where
  recorded path hash hlookup := by
    rw [hquiet.contents]
    exact h.recorded path hash (hfiles path hash hlookup)
  seen := by
    rw [hquiet.contents, hdispatching]
    exact h.seen
  pending path first hlookup := by
    rw [hpending] at hlookup
    rw [hdispatching]
    refine (h.pending path first hlookup).imp id fun hwaited => hwaited.goesOn ?_ ?_
    · intro now hlook
      rw [hquiet.looksAt] at hlook
      cases hlook
    · exact hquiet.not_applies path

/-- A call takes the content of a file that is not waited for, and changes no other. -/
theorem taken (h : Waiting md5 t s) (hlook : s.looksAt l = none) (hfinishes : s.finishes l = none)
    (htakes : s.takes l = some path) (hleaves : s.LeavesNone md5 l)
    (hfiles : ∀ path', s'.watcher.watchedFiles.lookup path' =
      if path' = path then some (s.computeHash md5 path) else s.watcher.watchedFiles.lookup path')
    (hpending : s'.watcher.pendingChanges = s.watcher.pendingChanges)
    (hdispatching : s'.dispatching = s.dispatching) : Waiting md5 (t ++ [(s, l)]) s' where
  recorded path' hash hlookup := by
    rw [contents_snoc, Contents.after, htakes]
    rw [hfiles] at hlookup
    by_cases hpath : path' = path
    · subst hpath
      rw [if_pos rfl] at hlookup
      simp only [Function.update_self]
      exact (Option.some_inj.mp hlookup).symm
    · rw [if_neg hpath] at hlookup
      simp only [Function.update_of_ne hpath]
      exact h.recorded path' hash hlookup
  seen := by
    rw [hdispatching, contents_snoc, Contents.after, hlook]
    exact h.seen
  pending path' first hlookup := by
    rw [hpending] at hlookup
    rw [hdispatching]
    refine or_iff_not_imp_left.mpr fun hother => ?_
    refine ((h.pending path' first hlookup).resolve_left hother).goesOn ?_ ?_
    · intro now hnow
      rw [hlook] at hnow
      cases hnow
    · rintro (happlies | happlies)
      · exact (hleaves path' (AList.mem_keys.mp (Dict.mem_of_lookup hlookup)) hother).2 happlies
      · rw [hfinishes] at happlies
        cases happlies

/-- After the callbacks what the poll has seen is applied, and no longer waited for. -/
theorem stored (h : Waiting md5 t s) {q : Poll} {d : Dispatch} (hforces : s.forces = [])
    (hpoll : s.poll = some q) (hcurrent : q.current = some d)
    (hnext : d.next s.watcher = .finish) :
    Waiting md5 (t ++ [(s, .advance)]) (s.store q d.change) := by
  obtain ⟨now, todo, current⟩ := q
  obtain rfl : current = some d := hcurrent
  have hdispatching : s.dispatching = some d.change := by rw [dispatching, hpoll]; rfl
  have hlook : s.looksAt .advance = none := looksAt_of_dispatching hdispatching
  have htakes : s.takes .advance = none := rfl
  have hfinishes : s.finishes .advance = some d.change.path := by
    rw [finishes, hforces, hpoll]
    exact if_pos hnext
  refine ⟨?_, ?_, ?_⟩
  · intro path hash hhash
    rw [watchedFiles_store] at hhash
    rw [contents_snoc, Contents.after, htakes, hfinishes]
    by_cases hpath : path = d.change.path
    · subst hpath
      rw [Dict.lookup_set_self] at hhash
      simp only [Function.update_self]
      rw [← Option.some_inj.mp hhash]
      exact h.seen d.change hdispatching
    · rw [Dict.lookup_set_of_ne hpath] at hhash
      simp only [Function.update_of_ne hpath]
      exact h.recorded path hash hhash
  · rw [dispatching_store]
    nofun
  · intro path first hpending
    rw [pendingChanges_store] at hpending
    obtain ⟨hpath, hpending⟩ := Option.ite_none_left_eq_some.mp hpending
    have hother : s.dispatching.map ConfigChange.path ≠ some path := by
      rw [hdispatching]
      exact fun heq => hpath (Option.some_inj.mp heq).symm
    refine .inr (((h.pending path first hpending).resolve_left hother).goesOn ?_ ?_)
    · intro now' hlook'
      rw [hlook] at hlook'
      cases hlook'
    · rintro (happlies | happlies)
      · cases happlies
      · rw [hfinishes] at happlies
        exact hpath (Option.some_inj.mp happlies).symm

/-! ### Steps -/

theorem forceTurn (h : Waiting md5 t s) {d : Dispatch} {outer : List Dispatch}
    (hforces : s.forces = d :: outer) (hturn : ForceTurn s d outer s') :
    Waiting md5 (t ++ [(s, .advance)]) s' := by
  have hquiet : s.Quiet .advance := by
    refine ⟨?_, rfl, ?_⟩
    · rw [looksAt, hforces]
    · rw [finishes, hforces]
  cases hturn with
  | invokes number d' hnext => exact h.quiet hquiet (fun _ _ => id) rfl rfl
  | turns d' hnext => exact h.quiet hquiet (fun _ _ => id) rfl rfl
  | returns hnext => exact h.quiet hquiet (fun _ _ => id) rfl rfl

theorem pollTurn (h : Waiting md5 t s) {q : Poll} (hforces : s.forces = [])
    (hpoll : s.poll = some q) (hleaves : s.LeavesNone md5 .advance) (hturn : PollTurn md5 s q s') :
    Waiting md5 (t ++ [(s, .advance)]) s' := by
  obtain ⟨now, todo, current⟩ := q
  cases hturn with
  | ends hcurrent htodo =>
      obtain rfl : current = none := hcurrent
      obtain rfl : todo = [] := htodo
      refine h.quiet ⟨?_, rfl, ?_⟩ (fun _ _ => id) rfl ?_
      · rw [looksAt, hforces, hpoll]
      · rw [finishes, hforces, hpoll]
      · rw [dispatching, dispatching, hpoll]
        rfl
  | visits path todo' hcurrent htodo =>
      obtain rfl : current = none := hcurrent
      obtain rfl : todo = path :: todo' := htodo
      have hlooks : s.looksAt .advance =
          if path ∈ s.watcher.watchedFiles then some (path, now) else none := by
        rw [looksAt, hforces, hpoll]
      by_cases hmem : path ∈ s.watcher.watchedFiles
      · rw [if_pos hmem] at hlooks
        exact h.visited hlooks hleaves
      · -- the file is no longer watched: the poll raises
        rw [if_neg hmem] at hlooks
        have hnone := AList.lookup_eq_none.mpr hmem
        refine h.quiet ⟨hlooks, rfl, ?_⟩ ?_ ?_ ?_
        · rw [finishes, hforces, hpoll]
        · rw [watchedFiles_visit]
          exact fun _ _ => id
        · simp only [visit, hnone]
        · rw [dispatching, dispatching, hpoll]
          simp only [visit, hnone]
          rfl
  | invokes d number d' hcurrent hnext =>
      obtain rfl : current = some d := hcurrent
      have hdispatching : s.dispatching = some d.change := by rw [dispatching, hpoll]; rfl
      refine h.quiet ⟨looksAt_of_dispatching hdispatching, rfl, ?_⟩ (fun _ _ => id) rfl ?_
      · rw [finishes, hforces, hpoll]
        exact if_neg (by simp [hnext])
      · obtain ⟨-, -, -, hchange, -⟩ := Dispatch.next_invoke hnext
        rw [dispatching, dispatching, hpoll]
        exact congrArg some hchange
  | turns d d' hcurrent hnext =>
      obtain rfl : current = some d := hcurrent
      have hdispatching : s.dispatching = some d.change := by rw [dispatching, hpoll]; rfl
      refine h.quiet ⟨looksAt_of_dispatching hdispatching, rfl, ?_⟩ (fun _ _ => id) rfl ?_
      · rw [finishes, hforces, hpoll]
        exact if_neg (by simp [hnext])
      · obtain ⟨-, hchange, -⟩ := Dispatch.next_turn hnext
        rw [dispatching, dispatching, hpoll]
        exact congrArg some hchange
  | stores d hcurrent hnext => exact h.stored hforces hpoll hcurrent hnext

theorem watch (h : Waiting md5 t s) (path : String) (callback asyncCallback : Option C)
    (hleaves : s.LeavesNone md5 (.watch path callback asyncCallback)) :
    Waiting md5 (t ++ [(s, .watch path callback asyncCallback)])
      (s.watch md5 path callback asyncCallback) := by
  have htables := s.watcher.sameTables_watch path (s.computeHash md5 path) callback asyncCallback
  have hwatcher : (s.watch md5 path callback asyncCallback).watcher =
      (s.watcher.watch path (s.computeHash md5 path) callback asyncCallback).1 := by
    rcases watch_cases md5 s path callback asyncCallback with ⟨-, hwatch⟩ | ⟨-, hwatch⟩
    · rw [hwatch]
    · rw [hwatch]
  have hdispatching : (s.watch md5 path callback asyncCallback).dispatching = s.dispatching := by
    rcases watch_cases md5 s path callback asyncCallback with ⟨-, hwatch⟩ | ⟨-, hwatch⟩
    · rw [hwatch]
      rfl
    · rw [hwatch]
      rfl
  by_cases hmem : path ∈ s.watcher.watchedFiles
  · rw [ConfigWatcher.addFile_of_mem hmem] at htables
    refine h.quiet ⟨rfl, if_pos hmem, rfl⟩ ?_ ?_ hdispatching
    · rw [hwatcher, htables.watchedFiles]
      exact fun _ _ => id
    · rw [hwatcher, htables.pendingChanges]
  · rw [ConfigWatcher.addFile_of_notMem hmem] at htables
    refine h.taken rfl rfl (if_neg hmem) hleaves ?_ ?_ hdispatching
    · intro path'
      rw [hwatcher, htables.watchedFiles]
      exact Dict.lookup_set
    · rw [hwatcher, htables.pendingChanges]

theorem forceReload (h : Waiting md5 t s) (path : String)
    (hleaves : s.LeavesNone md5 (.forceReload path)) :
    Waiting md5 (t ++ [(s, .forceReload path)]) (s.forceReload md5 path) := by
  cases hlookup : s.watcher.watchedFiles.lookup path with
  | none =>
      have hmem := AList.lookup_eq_none.mp hlookup
      rw [WatcherRun.forceReload_of_none md5 s hlookup]
      exact h.quiet ⟨rfl, if_neg hmem, rfl⟩ (fun _ _ => id) rfl rfl
  | some oldHash =>
      have hmem := Dict.mem_of_lookup hlookup
      rw [WatcherRun.forceReload_of_some md5 s hlookup]
      exact h.taken rfl rfl (if_pos hmem) hleaves (fun _ => Dict.lookup_set) rfl rfl

theorem step [DecidableEq C] (h : Waiting md5 t s) (hleaves : s.LeavesNone md5 l)
    (hs : s.step md5 l = some s') : Waiting md5 (t ++ [(s, l)]) s' := by
  cases stepTurn hs with
  | watch path callback asyncCallback => exact h.watch path callback asyncCallback hleaves
  | onAnyChange callback asyncCallback =>
      have htables := s.watcher.sameTables_onAnyChange callback asyncCallback
      refine h.quiet ⟨rfl, rfl, rfl⟩ ?_ htables.pendingChanges rfl
      intro path hash hlookup
      rwa [← htables.watchedFiles]
  | unwatch k u hu =>
      rcases s.watcher.unwatch_cases u with htables | ⟨path, hwatched, -, hpending⟩
      · refine h.quiet ⟨rfl, rfl, rfl⟩ ?_ htables.pendingChanges rfl
        intro path hash hlookup
        rwa [← htables.watchedFiles]
      · refine h.quiet ⟨rfl, rfl, rfl⟩ ?_ hpending rfl
        intro path' hash hlookup
        have herase : (s.watcher.watchedFiles.erase path).lookup path' = some hash :=
          hwatched ▸ hlookup
        have hne := (AList.mem_erase.mp (Dict.mem_of_lookup herase)).1
        rwa [AList.lookup_erase_ne hne] at herase
  | edit path content =>
      refine h.quiet ⟨rfl, rfl, rfl⟩ ?_ ?_ ?_
      · rw [watchedFiles_edit]
        exact fun _ _ => id
      · rw [WatcherRun.edit]
        split <;> rfl
      · rw [WatcherRun.edit]
        split <;> rfl
  | startPoll now hpoll =>
      refine h.quiet ⟨rfl, rfl, rfl⟩ (fun _ _ => id) rfl ?_
      rw [dispatching, dispatching, hpoll]
      rfl
  | forceReload path => exact h.forceReload path hleaves
  | forces d outer s' hforces hturn => exact h.forceTurn hforces hturn
  | polls q s' hforces hpoll hturn => exact h.pollTurn hforces hpoll hleaves hturn

/-- A dispatch has been waited for. -/
theorem waited [DecidableEq C] (h : Waiting md5 t s) (hdispatches : s.Dispatches md5 l path now) :
    ∃ first, WaitedSince path first (t ++ [(s, l)]) ∧ s.watcher.debounceSeconds ≤ now - first := by
  obtain ⟨hlook, hstep⟩ := hdispatches
  obtain ⟨rfl, hforces, hmem, todo, hpoll⟩ := of_looksAt hlook
  obtain ⟨oldHash, hlookup⟩ := Dict.exists_lookup hmem
  have hvisit : s.step md5 .advance = some (s.visit md5 ⟨now, todo, none⟩ path) := by
    rw [WatcherRun.step, advance, hforces, hpoll]
    rfl
  rw [hvisit, Option.any_some] at hstep
  rcases visit_cases md5 ⟨now, todo, none⟩ hlookup with
    ⟨-, hpassed⟩ | ⟨hne, -, ⟨hdue, -⟩ | hlater⟩
  · rw [hpassed] at hstep
    cases hstep
  · exact ⟨_, h.waitedSince hlook (h.disk_ne hlookup hne), hdue⟩
  · rw [dispatching, hlater] at hstep
    cases hstep

end Waiting

/-! ## Clocks -/

theorem forward_snoc : Forward (t ++ [(s, l)]) ↔ Forward t ∧
    ∀ t₂ s' l' path' time, t₂ ++ [(s', l')] <+: t → s'.looksAt l' = some (path', time) →
      ∀ path now, s.looksAt l = some (path, now) → time ≤ now := by
  rw [Forward, List.filterMap_append, List.pairwise_append]
  refine and_congr_right fun _ => ⟨fun h => ?_, fun h => ⟨?_, ?_⟩⟩
  · intro t₂ s' l' path' time hinitial hearlier path now hlook
    refine h.2 time ?_ now ?_
    · exact List.mem_filterMap.mpr ⟨(s', l'), hinitial.subset (by simp), by rw [hearlier]; rfl⟩
    · simp [hlook]
  · cases hlook : s.looksAt l <;> simp [hlook]
  · intro time htime now hnow
    obtain ⟨⟨s', l'⟩, hmem, hearlier⟩ := List.mem_filterMap.mp htime
    obtain ⟨⟨path', time'⟩, hlook', rfl⟩ := Option.map_eq_some_iff.mp hearlier
    obtain ⟨⟨s'', l''⟩, hlast, hlater⟩ := List.mem_filterMap.mp hnow
    obtain ⟨rfl, rfl⟩ := Prod.mk.inj (List.mem_singleton.mp hlast)
    obtain ⟨⟨path, now'⟩, hlook, rfl⟩ := Option.map_eq_some_iff.mp hlater
    obtain ⟨t₂, t₃, rfl⟩ := List.append_of_mem hmem
    exact h t₂ s' l' path' time' ⟨t₃, by simp⟩ hlook' path now' hlook

/-- Of the looks of a run, those later than the first one that saw the change have found other
content, if the clock does not run back. -/
theorem WaitedSince.disk_ne (h : WaitedSince path first t) (hforward : Forward t)
    {t₂ : List (WatcherRun C × WatchAct C)} (hinitial : t₂ ++ [(s', l)] <+: t) {time : ℚ}
    (hlook : s'.looksAt l = some (path, time)) (htime : first < time) :
    s'.disk path ≠ (contents t₂).applied path := by
  induction h with
  | sees hfirst hother =>
      rcases List.prefix_concat_iff.mp hinitial with heq | hinitial
      · obtain ⟨rfl, hlast⟩ := List.append_inj' heq rfl
        obtain ⟨rfl, rfl⟩ := Prod.mk.inj (List.singleton_inj.mp hlast)
        exact hother
      · have hle := (forward_snoc.mp hforward).2 _ _ _ _ _ hinitial hlook _ _ hfirst
        exact absurd htime (not_lt.mpr hle)
  | goesOn _ hother _ ih =>
      rcases List.prefix_concat_iff.mp hinitial with heq | hinitial
      · obtain ⟨rfl, hlast⟩ := List.append_inj' heq rfl
        obtain ⟨rfl, rfl⟩ := Prod.mk.inj (List.singleton_inj.mp hlast)
        exact hother time hlook
      · exact ih (forward_snoc.mp hforward).1 hinitial

theorem Forward.of_initial {t₁ : List (WatcherRun C × WatchAct C)} (h : Forward t)
    (hinitial : t₁ <+: t) : Forward t₁ :=
  List.Pairwise.sublist (hinitial.sublist.filterMap _) h

theorem take_append_singleton {p : WatcherRun C × WatchAct C} {i : Nat} (h : t[i]? = some p) :
    t.take i ++ [p] = t.take (i + 1) := by
  rw [List.take_add_one, h]
  rfl

end WatcherRun

/-! ## Runs -/

namespace watcherSystem

open WatcherRun

variable {C : Type u} [DecidableEq C] {md5 : List UInt8 → String} {s₀ s : WatcherRun C}
  {t : List (WatcherRun C × WatchAct C)}

theorem waiting_init (h₀ : (watcherSystem md5).init s₀) : Waiting md5 [] s₀ := by
  obtain ⟨debounceSeconds, disk, rfl⟩ := h₀
  exact ⟨nofun, nofun, nofun⟩

/-- In every run that leaves no pending change behind, whatever is dispatched has been waited
for. -/
theorem debounced_of_leavesNone (h₀ : (watcherSystem md5).init s₀)
    (hrun : (watcherSystem md5).Run s₀ t s)
    (ht : TransitionSystem.Respects (LeavesNone md5) t) : Debounced md5 t := by
  have hwaiting : ∀ {t₁ s₁ l}, t₁ ++ [(s₁, l)] <+: t → Waiting md5 t₁ s₁ := by
    intro t₁ s₁ l hinitial
    refine (hrun.initial hinitial).1.invariant_history_of_respects (I := Waiting md5)
      (fun _ _ _ _ h hleaves hs => h.step hleaves hs) (waiting_init h₀) fun p hp => ?_
    exact ht p (hinitial.subset (List.mem_append_left _ hp))
  refine ⟨fun t₁ s₁ l path now hinitial => (hwaiting hinitial).waited, ?_⟩
  intro hforward t₁ s₁ l path now hinitial hdispatches t₂ s₂ l₂ time hearlier hlook htime
  obtain ⟨first, hwaited, hdue⟩ := (hwaiting hinitial).waited hdispatches
  exact hwaited.disk_ne (hforward.of_initial hinitial) hearlier hlook
    ((le_sub_comm.mp hdue).trans_lt htime)

/-- A change that is waited for and dispatched. -/
def editedOnce : List (WatchAct String) := .watch "a" (some "reload") none :: changed

theorem debounced_of_leavesNone_editedOnce :
    ∃ t s, (watcherSystem sampleDigest).Run fresh t s ∧ s.dispatching.isSome ∧
      Debounced sampleDigest t := by
  have hview : ((watcherSystem sampleDigest).execTrace fresh editedOnce).map
      (fun x => decide (x.2.dispatching.isSome ∧
        TransitionSystem.Respects (LeavesNone sampleDigest) x.1)) = some true := by
    decide +kernel
  obtain ⟨t, s, hrun, -, hview⟩ := TransitionSystem.exists_run_of_execTrace hview
  obtain ⟨hdispatching, ht⟩ := of_decide_eq_true hview
  exact ⟨t, s, hrun, hdispatching, debounced_of_leavesNone init_fresh hrun ht⟩

/-- A change, seen, reverted, seen to be reverted, and made again. -/
def editedAgain : List (WatchAct String) :=
  [.watch "a" (some "reload") none, .edit "a" (some [97]), .startPoll 0, .advance, .advance,
    .edit "a" (some []), .startPoll (1 / 2), .advance, .advance, .edit "a" (some [97]),
    .startPoll 1, .advance]

/-- The change that was made again is dispatched at once, half a second after the look that
found the file as it had been applied. -/
theorem not_debounced_editedAgain :
    ¬ ∀ (s₀ s : WatcherRun String) (t : List (WatcherRun String × WatchAct String)),
      (watcherSystem sampleDigest).init s₀ → (watcherSystem sampleDigest).Run s₀ t s →
        Debounced sampleDigest t := by
  intro h
  have hview : ((watcherSystem sampleDigest).execTrace fresh editedAgain).map
      (fun x => decide (Forward x.1 ∧
        (x.1[7]?.any fun p => p.1.looksAt p.2 = some ("a", 1 / 2) ∧
          p.1.disk "a" = (contents (x.1.take 7)).applied "a") ∧
        x.1[11]?.any fun p => p.1.Dispatches sampleDigest p.2 "a" 1 ∧
          p.1.watcher.debounceSeconds = 1)) = some true := by
    decide +kernel
  obtain ⟨t, s, hrun, -, hview⟩ := TransitionSystem.exists_run_of_execTrace hview
  obtain ⟨hforward, hreverted, hagain⟩ := of_decide_eq_true hview
  obtain ⟨⟨s₁, l₁⟩, hlook, hreverted⟩ := (Option.any_eq_true _ _).mp hreverted
  obtain ⟨⟨s₂, l₂⟩, hlast, hagain⟩ := (Option.any_eq_true _ _).mp hagain
  obtain ⟨hlooks, hsame⟩ := of_decide_eq_true hreverted
  obtain ⟨hdispatches, hdebounce⟩ := of_decide_eq_true hagain
  have hlong : t.take 11 ++ [(s₂, l₂)] <+: t := take_append_singleton hlast ▸ List.take_prefix 12 t
  have hshort : t.take 7 ++ [(s₁, l₁)] <+: t.take 11 ++ [(s₂, l₂)] := by
    rw [take_append_singleton hlook, take_append_singleton hlast]
    exact List.take_prefix_take_left (by decide)
  refine (h fresh s t init_fresh hrun).differed hforward _ _ _ _ _ hlong hdispatches _ _ _ _ hshort
    hlooks ?_ hsame
  rw [hdebounce]
  norm_num

end watcherSystem
