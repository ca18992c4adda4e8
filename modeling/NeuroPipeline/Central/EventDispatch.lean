-- SUMMARY: What the event bus owes to the handlers of an event while handlers subscribe and unsubscribe, and the runs in which it keeps to it.
import Mathlib.Order.Nat
import NeuroPipeline.Central.EventBus

/-!
# Dispatch of events

A loop over a list goes by position, and a removal before it makes it pass over a handler. A
loop over a set does not bear any change of the set.
-/

universe u

namespace EventBus

variable {H : Type u}

/-! ## The law -/

/-- What a loop is sure to give; of a set that has changed it is sure of nothing. -/
def ahead (bus : EventBus H) (type : String) : Loop → List (Subscription H)
  | .list kind i => Cursor.ahead (bus.handlersOf kind type) i
  | .set kind _ changes visited =>
    let handlers := bus.wildcardSubscribers kind
    if handlers.changes = changes then handlers.elements.filter fun x => x.id ∉ visited else []

namespace Publication

/-- What the publication is still to call. -/
def left (p : Publication) (bus : EventBus H) : List (Phase × Nat) :=
  match p.status with
  | .running loop rest =>
    (bus.ahead p.event.type loop).map (fun x => (loop.phase, x.id)) ++
      rest.flatMap (bus.keys p.event.type)
  | .returned | .raised => []

/-- The loop that the publication is in. -/
def loop (p : Publication) : Option Loop :=
  match p.status with
  | .running loop _ => some loop
  | .returned | .raised => none

/-- What its loop passes over when the entry `j` of a list is removed. -/
def passed (p : Publication) (bus : EventBus H) (kind : HandlerKind) (type : String) (j : Nat) :
    Option (Phase × Nat) :=
  match p.loop with
  | some (.list kind' i) =>
    if kind' = kind ∧ p.event.type = type then
      (Cursor.passed (bus.handlersOf kind type) i j).map fun x => (⟨kind, false⟩, x.id)
    else none
  | some (.set ..) | none => none

end Publication

end EventBus

open EventBus

namespace BusRun

variable {H : Type u}

/-- No publication has raised or calls anything twice, and what it found at its start and is
still subscribed it has called, or is still to call, once. -/
structure Tolerant (s : BusRun H) : Prop where
  raised : ∀ p ∈ s.publications, p.status ≠ .raised
  called : ∀ p ∈ s.publications, p.called.Nodup
  once : ∀ p ∈ s.publications, ∀ k ∈ p.due, k ∈ s.bus.matching p.event.type →
    (p.called ++ p.left s.bus).count k = 1

/-- A publication is in the loop over a set. -/
def InSet (s : BusRun H) (kind : HandlerKind) : Prop :=
  ∃ p ∈ s.publications, ∃ loop ∈ p.loop, loop.phase = ⟨kind, true⟩

/-- The removal makes no publication pass over a handler that it owes a call. -/
def PassesNone (s : BusRun H) (kind : HandlerKind) (type : String) (j : Nat) : Prop :=
  ∀ p ∈ s.publications, ∀ k ∈ p.passed s.bus kind type j, k ∉ p.due

variable [DecidableEq H]

/-- A set is not changed while a publication is in the loop over it, a removal from a list
passes over nothing that is due, and a handler ends with nothing that is not caught. -/
def Spares (s : BusRun H) : BusAct H → Prop
  | .subscribe type handler => type = "*" → s.bus.inWildcard .sync handler = false → ¬ s.InSet .sync
  | .subscribeAsync type handler =>
    type = "*" → s.bus.inWildcard .async handler = false → ¬ s.InSet .async
  | .unsubscribe k => ∀ u ∈ s.unsubscribes[k]?,
    if u.eventType = "*" then s.bus.inWildcard u.kind u.handler = true → ¬ s.InSet u.kind
    else s.PassesNone u.kind u.eventType
      (position (s.bus.handlersOf u.kind u.eventType) u.handler)
  | .publish .. | .publishAsync .. => True
  | .handlerEnds _ ended _ => ended.caught = true

omit [DecidableEq H] in
instance (s : BusRun H) (kind : HandlerKind) : Decidable (s.InSet kind) :=
  inferInstanceAs (Decidable (∃ p ∈ s.publications, ∃ loop ∈ p.loop, loop.phase = ⟨kind, true⟩))

instance (s : BusRun H) : (l : BusAct H) → Decidable (s.Spares l)
  | .subscribe type handler => inferInstanceAs (Decidable (type = "*" →
      s.bus.inWildcard .sync handler = false → ¬ s.InSet .sync))
  | .subscribeAsync type handler => inferInstanceAs (Decidable (type = "*" →
      s.bus.inWildcard .async handler = false → ¬ s.InSet .async))
  | .unsubscribe k => inferInstanceAs (Decidable (∀ u ∈ s.unsubscribes[k]?,
      if u.eventType = "*" then s.bus.inWildcard u.kind u.handler = true → ¬ s.InSet u.kind
      else ∀ p ∈ s.publications, ∀ k ∈ p.passed s.bus u.kind u.eventType
        (position (s.bus.handlersOf u.kind u.eventType) u.handler), k ∉ p.due))
  | .publish .. | .publishAsync .. => inferInstanceAs (Decidable True)
  | .handlerEnds _ ended _ => inferInstanceAs (Decidable (ended.caught = true))

end BusRun

/-! ## Tables -/

namespace EventBus

variable {H : Type u} {bus bus' : EventBus H}

theorem Phase.mem_all (phase : Phase) : phase ∈ Phase.all := by
  obtain ⟨kind, wildcard⟩ := phase
  cases kind <;> cases wildcard <;> decide

theorem mem_keys {type : String} {phase : Phase} {k : Phase × Nat} :
    k ∈ bus.keys type phase ↔ ∃ x ∈ bus.table type phase, k = (phase, x.id) := by
  simp only [keys, List.mem_map, eq_comm]

theorem mem_matching {type : String} {k : Phase × Nat} :
    k ∈ bus.matching type ↔ k ∈ bus.keys type k.1 := by
  constructor
  · intro h
    obtain ⟨phase, -, hk⟩ := List.mem_flatMap.mp h
    obtain ⟨x, -, rfl⟩ := mem_keys.mp hk
    exact hk
  · intro h
    exact List.mem_flatMap.mpr ⟨k.1, Phase.mem_all _, h⟩

/-- The subscriptions in one table are told apart by their numbers. -/
structure Sound (bus : EventBus H) : Prop where
  nodup : ∀ type phase, ((bus.table type phase).map Subscription.id).Nodup
  older : ∀ type phase, ∀ x ∈ bus.table type phase, x.id < bus.nextId

/-- What becomes of a table and of the next number. -/
inductive TableEdit (n : Nat) (l : List (Subscription H)) : Nat → List (Subscription H) → Prop where
  | same {n' : Nat} (hle : n ≤ n') : TableEdit n l n' l
  | add (handler : H) : TableEdit n l (n + 1) (l ++ [⟨n, handler⟩])
  | remove (j : Nat) : TableEdit n l n (l.eraseIdx j)

namespace TableEdit

variable {n n' : Nat} {l l' : List (Subscription H)}

theorem le (h : TableEdit n l n' l') : n ≤ n' := by
  cases h with
  | same hle => exact hle
  | add => exact Nat.le_succ n
  | remove => exact Nat.le_refl n

theorem mem (h : TableEdit n l n' l') {x : Subscription H} (hx : x ∈ l') : x ∈ l ∨ x.id = n := by
  cases h with
  | same => exact .inl hx
  | add handler =>
    refine (List.mem_append.mp hx).imp_right fun hnew => ?_
    rw [List.mem_singleton.mp hnew]
  | remove => exact .inl (List.mem_of_mem_eraseIdx hx)

theorem older (h : TableEdit n l n' l') (hl : ∀ x ∈ l, x.id < n) : ∀ x ∈ l', x.id < n' := by
  cases h with
  | same hle =>
    intro x hx
    exact (hl x hx).trans_le hle
  | add handler =>
    intro x hx
    rcases List.mem_append.mp hx with hold | hnew
    · exact (hl x hold).trans (Nat.lt_succ_self n)
    · rw [List.mem_singleton.mp hnew]
      exact Nat.lt_succ_self n
  | remove =>
    intro x hx
    exact hl x (List.mem_of_mem_eraseIdx hx)

theorem nodup (h : TableEdit n l n' l') (hl : ∀ x ∈ l, x.id < n)
    (hnodup : (l.map Subscription.id).Nodup) : (l'.map Subscription.id).Nodup := by
  cases h with
  | same => exact hnodup
  | add handler =>
    rw [List.map_append]
    refine List.nodup_append.mpr ⟨hnodup, List.nodup_singleton _, ?_⟩
    intro a ha b hb heq
    obtain ⟨x, hx, rfl⟩ := List.mem_map.mp ha
    rw [List.mem_singleton.mp hb] at heq
    exact (hl x hx).ne heq
  | remove j => exact hnodup.sublist ((List.eraseIdx_sublist l j).map _)

end TableEdit

theorem Sound.edit (h : bus.Sound) (hedit : ∀ type phase,
    TableEdit bus.nextId (bus.table type phase) bus'.nextId (bus'.table type phase)) :
    bus'.Sound where
  nodup type phase := (hedit type phase).nodup (h.older type phase) (h.nodup type phase)
  older type phase := (hedit type phase).older (h.older type phase)

/-! ## Calls on the bus -/

theorem handlersOf_setHandlers (kind kind' : HandlerKind) (type type' : String)
    (l : List (Subscription H)) : (bus.setHandlers kind type l).handlersOf kind' type' =
      if kind' = kind ∧ type' = type then l else bus.handlersOf kind' type' := by
  simp only [handlersOf, setHandlers]
  rcases eq_or_ne kind' kind with rfl | hkind
  · rw [Function.update_self, Dict.lookup_set]
    by_cases htype : type' = type <;> simp [htype]
  · rw [Function.update_of_ne hkind, if_neg fun h => hkind h.1]

theorem elements_setWildcard (kind kind' : HandlerKind) (l : List (Subscription H)) :
    ((bus.setWildcard kind l).wildcardSubscribers kind').elements =
      if kind' = kind then l else (bus.wildcardSubscribers kind').elements := by
  simp only [setWildcard]
  rcases eq_or_ne kind' kind with rfl | hkind
  · rw [Function.update_self, if_pos rfl]
  · rw [Function.update_of_ne hkind, if_neg hkind]

/-- A list of handlers is replaced. -/
theorem edit_setHandlers {kind : HandlerKind} {type : String} {n : Nat} {l : List (Subscription H)}
    (hedit : TableEdit bus.nextId (bus.handlersOf kind type) n l) (type' : String) (phase : Phase) :
    TableEdit bus.nextId (bus.table type' phase) n
      ((bus.setHandlers kind type l).table type' phase) := by
  obtain ⟨kind', wildcard⟩ := phase
  cases wildcard with
  | true => exact .same hedit.le
  | false =>
    change TableEdit _ (bus.handlersOf kind' type') n
      ((bus.setHandlers kind type l).handlersOf kind' type')
    rw [handlersOf_setHandlers]
    split
    next hsame =>
      obtain ⟨rfl, rfl⟩ := hsame
      exact hedit
    next => exact .same hedit.le

/-- A set of handlers is replaced. -/
theorem edit_setWildcard {kind : HandlerKind} {n : Nat} {l : List (Subscription H)}
    (hedit : TableEdit bus.nextId (bus.wildcardSubscribers kind).elements n l) (type : String)
    (phase : Phase) :
    TableEdit bus.nextId (bus.table type phase) n ((bus.setWildcard kind l).table type phase) := by
  obtain ⟨kind', wildcard⟩ := phase
  cases wildcard with
  | false => exact .same hedit.le
  | true =>
    change TableEdit _ (bus.wildcardSubscribers kind').elements n
      ((bus.setWildcard kind l).wildcardSubscribers kind').elements
    rw [elements_setWildcard]
    split
    next hsame =>
      obtain rfl := hsame
      exact hedit
    next => exact .same hedit.le

/-! ## One visit -/

/-- The set of a loop is as it was at the start of the loop. -/
def Loop.Steady (bus : EventBus H) : Loop → Prop
  | .list _ _ => True
  | .set kind used changes _ => (bus.wildcardSubscribers kind).changes = changes ∧
      (bus.wildcardSubscribers kind).elements.length = used

theorem Loop.start_phase (bus : EventBus H) (phase : Phase) :
    (Loop.start bus phase).phase = phase := by
  obtain ⟨kind, wildcard⟩ := phase
  cases wildcard <;> rfl

theorem Loop.start_steady (bus : EventBus H) (phase : Phase) :
    (Loop.start bus phase).Steady bus := by
  obtain ⟨kind, wildcard⟩ := phase
  cases wildcard with
  | false => trivial
  | true => exact ⟨rfl, rfl⟩

theorem ahead_start (type : String) (phase : Phase) :
    bus.ahead type (Loop.start bus phase) = bus.table type phase := by
  obtain ⟨kind, wildcard⟩ := phase
  cases wildcard with
  | false => rfl
  | true => simp [Loop.start, ahead, table]

theorem ahead_sublist (type : String) (loop : Loop) :
    (bus.ahead type loop).Sublist (bus.table type loop.phase) := by
  cases loop with
  | list kind i => exact List.drop_sublist i _
  | set kind used changes visited =>
    simp only [ahead]
    split
    · exact List.filter_sublist
    · exact List.nil_sublist _

/-- What a visit of a steady loop gives. -/
inductive VisitEffect (bus : EventBus H) (type : String) (loop : Loop) : Visit H → Prop where
  | handler {x : Subscription H} {next : Loop} (hx : x ∈ bus.ahead type loop)
      (hphase : next.phase = loop.phase) (hsteady : next.Steady bus)
      (hnext : ∀ y, y ∈ bus.ahead type next ↔ y ∈ bus.ahead type loop ∧ y.id ≠ x.id) :
      VisitEffect bus type loop (.handler x next)
  | done (hdone : bus.ahead type loop = []) : VisitEffect bus type loop .done

theorem visit_effect (h : bus.Sound) {type : String} {pick : HandlerKind → Option Nat} {loop : Loop}
    (hsteady : loop.Steady bus) {v : Visit H} (hv : bus.visit type pick loop = some v) :
    VisitEffect bus type loop v := by
  cases loop with
  | list kind i =>
    simp only [visit] at hv
    cases hx : (bus.handlersOf kind type)[i]? with
    | none =>
      simp only [hx] at hv
      obtain rfl := Option.some.inj hv
      exact .done (Cursor.ahead_of_none hx)
    | some x =>
      simp only [hx] at hv
      obtain rfl := Option.some.inj hv
      have hahead : bus.ahead type (.list kind i) = x :: bus.ahead type (.list kind (i + 1)) :=
        Cursor.ahead_of_some hx
      have hids := (h.nodup type ⟨kind, false⟩).sublist
        ((ahead_sublist type (Loop.list kind i)).map Subscription.id)
      rw [hahead, List.map_cons, List.nodup_cons] at hids
      refine .handler (by rw [hahead]; exact List.mem_cons_self) rfl trivial fun y => ?_
      rw [hahead, List.mem_cons]
      constructor
      · intro hy
        refine ⟨.inr hy, fun hid => hids.1 ?_⟩
        rw [← hid]
        exact List.mem_map_of_mem hy
      · rintro ⟨rfl | hy, hid⟩
        · exact absurd rfl hid
        · exact hy
  | set kind used changes visited =>
    obtain ⟨hchanges, hused⟩ := hsteady
    simp only [visit, hused, hchanges, ne_eq, not_true_eq_false, if_false, forall_const] at hv
    cases hpick : pick kind with
    | none =>
      simp only [hpick] at hv
      split at hv
      next hall =>
        obtain rfl := Option.some.inj hv
        apply VisitEffect.done
        simp only [ahead, hchanges, if_true]
        refine List.filter_eq_nil_iff.mpr fun x hx hnot => ?_
        exact of_decide_eq_true hnot (hall x hx)
      next => cases hv
    | some id =>
      simp only [hpick] at hv
      obtain ⟨x, hfind, rfl⟩ := Option.map_eq_some_iff.mp hv
      obtain ⟨rfl, hnew⟩ : x.id = id ∧ id ∉ visited := by simpa using List.find?_some hfind
      have hmem := List.mem_of_find?_eq_some hfind
      refine .handler ?_ rfl ⟨hchanges, hused⟩ fun y => ?_
      · simp only [ahead, hchanges, if_true]
        exact List.mem_filter.mpr ⟨hmem, decide_eq_true hnew⟩
      · simp only [ahead, hchanges, if_true, List.mem_filter, decide_eq_true_eq, List.mem_append,
          List.mem_singleton, not_or, and_assoc]

/-! ## What a publication owes -/

namespace Publication

variable {p p' : Publication}

/-- The publication, when it has so much left to call. -/
structure Owing (p : Publication) (bus : EventBus H) (left : List (Phase × Nat)) : Prop where
  called : p.called.Nodup
  calledOlder : ∀ k ∈ p.called, k.2 < bus.nextId
  dueOlder : ∀ k ∈ p.due, k.2 < bus.nextId
  apart : ∀ k ∈ left, k ∉ p.called
  reached : ∀ k ∈ p.due, k ∈ bus.matching p.event.type → k ∈ p.called ∨ k ∈ left

/-- What is left to call in a loop and in those after it. -/
def toCome (p : Publication) (bus : EventBus H) (loop : Loop) (rest : List Phase) :
    List (Phase × Nat) :=
  (bus.ahead p.event.type loop).map (fun x => (loop.phase, x.id)) ++
    rest.flatMap (bus.keys p.event.type)

structure Covered (p : Publication) (bus : EventBus H) : Prop where
  raised : p.status ≠ .raised
  owing : p.Owing bus (p.left bus)
  steady : ∀ loop rest, p.status = .running loop rest →
    loop.Steady bus ∧ (loop.phase :: rest).Nodup

theorem mem_toCome {loop : Loop} {rest : List Phase} {k : Phase × Nat} :
    k ∈ p.toCome bus loop rest ↔
      (∃ x ∈ bus.ahead p.event.type loop, k = (loop.phase, x.id)) ∨
        k.1 ∈ rest ∧ k ∈ bus.keys p.event.type k.1 := by
  rw [toCome, List.mem_append, List.mem_map]
  refine or_congr (by simp only [eq_comm]) ?_
  rw [List.mem_flatMap]
  constructor
  · rintro ⟨phase, hphase, hk⟩
    obtain ⟨x, -, rfl⟩ := mem_keys.mp hk
    exact ⟨hphase, hk⟩
  · rintro ⟨hphase, hk⟩
    exact ⟨k.1, hphase, hk⟩

/-- A handler of the loop is called. -/
theorem Owing.call {loop next : Loop} {rest : List Phase} {x : Subscription H} (hsound : bus.Sound)
    (h : p.Owing bus (p.toCome bus loop rest)) (hnodup : (loop.phase :: rest).Nodup)
    (hx : x ∈ bus.ahead p.event.type loop) (hphase : next.phase = loop.phase)
    (hsteady : next.Steady bus)
    (hnext : ∀ y, y ∈ bus.ahead p.event.type next ↔
      y ∈ bus.ahead p.event.type loop ∧ y.id ≠ x.id) :
    Covered
      { p with status := .running next rest, called := p.called ++ [(loop.phase, x.id)] } bus := by
  have hleft : ∀ k, k ∈ p.toCome bus next rest ↔
      k ∈ p.toCome bus loop rest ∧ k ≠ (loop.phase, x.id) := by
    intro k
    rw [mem_toCome, mem_toCome, hphase]
    constructor
    · rintro (⟨y, hy, rfl⟩ | ⟨hk, hkeys⟩)
      · obtain ⟨hy, hid⟩ := (hnext y).mp hy
        exact ⟨.inl ⟨y, hy, rfl⟩, fun heq => hid (Prod.mk.inj heq).2⟩
      · refine ⟨.inr ⟨hk, hkeys⟩, ?_⟩
        rintro rfl
        exact (List.nodup_cons.mp hnodup).1 hk
    · rintro ⟨⟨y, hy, rfl⟩ | hrest, hne⟩
      · refine .inl ⟨y, (hnext y).mpr ⟨hy, fun hid => hne ?_⟩, rfl⟩
        rw [hid]
      · exact .inr hrest
  have hxleft : (loop.phase, x.id) ∈ p.toCome bus loop rest := mem_toCome.mpr (.inl ⟨x, hx, rfl⟩)
  refine ⟨by rintro ⟨⟩, ⟨?_, ?_, h.dueOlder, ?_, ?_⟩, ?_⟩
  · refine List.nodup_append.mpr ⟨h.called, List.nodup_singleton _, ?_⟩
    intro k hk k' hk' heq
    rw [List.mem_singleton.mp hk'] at heq
    exact h.apart _ hxleft (heq ▸ hk)
  · intro k hk
    rcases List.mem_append.mp hk with hk | hk
    · exact h.calledOlder k hk
    · rw [List.mem_singleton.mp hk]
      exact hsound.older _ _ x ((ahead_sublist _ loop).subset hx)
  · intro k hk hmem
    obtain ⟨hk, hne⟩ := (hleft k).mp hk
    rcases List.mem_append.mp hmem with hmem | hmem
    · exact h.apart k hk hmem
    · exact hne (List.mem_singleton.mp hmem)
  · intro k hdue hk
    rcases h.reached k hdue hk with hcalled | hk
    · exact .inl (List.mem_append_left _ hcalled)
    · by_cases hne : k = (loop.phase, x.id)
      · rw [hne]
        exact .inl (List.mem_append_right _ (List.mem_singleton_self _))
      · exact .inr ((hleft k).mpr ⟨hk, hne⟩)
  · intro loop' rest' hstatus
    obtain ⟨rfl, rfl⟩ := Status.running.inj hstatus
    rw [hphase]
    exact ⟨hsteady, hnodup⟩

/-- A loop that has nothing more to give is left. -/
theorem Owing.done {loop : Loop} {rest : List Phase} (h : p.Owing bus (p.toCome bus loop rest))
    (hdone : bus.ahead p.event.type loop = []) :
    p.Owing bus (rest.flatMap (bus.keys p.event.type)) := by
  rwa [toCome, hdone] at h

theorem continueLoop_covered {pick : HandlerKind → Option Nat} {loop : Loop} {rest : List Phase}
    {after : Option Publication} (hsound : bus.Sound) (hsteady : loop.Steady bus)
    (hnodup : (loop.phase :: rest).Nodup) (hO : p.Owing bus (p.toCome bus loop rest))
    (hafter : p.Owing bus (rest.flatMap (bus.keys p.event.type)) →
      ∀ p', after = some p' → p'.Covered bus)
    (h : p.continueLoop bus pick loop rest after = some p') : p'.Covered bus := by
  obtain ⟨v, hv, h⟩ := Option.bind_eq_some_iff.mp h
  cases visit_effect hsound hsteady hv with
  | handler hx hphase hnext hahead =>
    obtain rfl := Option.some.inj h
    exact hO.call hsound hnodup hx hphase hnext hahead
  | done hdone => exact hafter (hO.done hdone) p' h

theorem keys_nodup (h : bus.Sound) (type : String) (phase : Phase) :
    (bus.keys type phase).Nodup := by
  have hkeys : bus.keys type phase =
      ((bus.table type phase).map Subscription.id).map (phase, ·) := by
    rw [List.map_map]
    rfl
  rw [hkeys]
  exact (h.nodup type phase).map fun _ _ heq => (Prod.mk.inj heq).2

theorem flatMap_keys_nodup (h : bus.Sound) (type : String) {phases : List Phase}
    (hphases : phases.Nodup) : (phases.flatMap (bus.keys type)).Nodup := by
  refine List.nodup_flatMap.mpr ⟨fun phase _ => keys_nodup h type phase, ?_⟩
  refine hphases.imp fun hne k hk hk' => ?_
  obtain ⟨x, -, rfl⟩ := mem_keys.mp hk
  obtain ⟨y, -, heq⟩ := mem_keys.mp hk'
  exact hne (Prod.mk.inj heq).1

/-- All the handlers that are left are made tasks. -/
theorem schedule_covered (hsound : bus.Sound) {phases : List Phase} (hphases : phases.Nodup)
    (hO : p.Owing bus (phases.flatMap (bus.keys p.event.type))) :
    (p.schedule bus phases).Covered bus := by
  refine ⟨by rintro ⟨⟩, ⟨?_, ?_, hO.dueOlder, ?_, ?_⟩, by rintro _ _ ⟨⟩⟩
  · refine List.nodup_append.mpr ⟨hO.called, flatMap_keys_nodup hsound _ hphases, ?_⟩
    rintro k hk _ hk' rfl
    exact hO.apart k hk' hk
  · intro k hk
    rcases List.mem_append.mp hk with hk | hk
    · exact hO.calledOlder k hk
    · obtain ⟨phase, -, hk⟩ := List.mem_flatMap.mp hk
      obtain ⟨x, hx, rfl⟩ := mem_keys.mp hk
      exact hsound.older _ _ x hx
  · intro k hk
    cases hk
  · intro k hdue hk
    exact .inl (List.mem_append.mpr (hO.reached k hdue hk))

theorem goTo_covered {pick : HandlerKind → Option Nat} (hsound : bus.Sound) {phases : List Phase}
    (hphases : phases.Nodup) (hO : p.Owing bus (phases.flatMap (bus.keys p.event.type)))
    (h : p.goTo bus pick phases = some p') : p'.Covered bus := by
  induction phases generalizing p' with
  | nil =>
    obtain rfl := Option.some.inj h
    exact ⟨by rintro ⟨⟩, { hO with }, by rintro _ _ ⟨⟩⟩
  | cons phase rest ih =>
    rw [goTo] at h
    split at h
    · obtain rfl := Option.some.inj h
      exact schedule_covered hsound hphases hO
    · have hcome : p.toCome bus (Loop.start bus phase) rest =
          (phase :: rest).flatMap (bus.keys p.event.type) := by
        rw [toCome, ahead_start, Loop.start_phase]
        rfl
      refine continueLoop_covered hsound (Loop.start_steady bus phase) ?_ (hcome ▸ hO) ?_ h
      · rwa [Loop.start_phase]
      · intro hrest p' hp'
        exact ih (List.nodup_cons.mp hphases).2 hrest hp'

theorem dispatch_covered {event : Event} {pick : HandlerKind → Option Nat} {awaits : Bool}
    (hsound : bus.Sound) (h : bus.dispatch event pick awaits = some p) : p.Covered bus := by
  refine goTo_covered hsound (by decide) ⟨List.nodup_nil, ?_, ?_, ?_, ?_⟩ h
  · intro k hk
    cases hk
  · intro k hk
    obtain ⟨x, hx, hk⟩ := mem_keys.mp (mem_matching.mp hk)
    rw [hk]
    exact hsound.older _ _ x hx
  · intro k _ hk
    cases hk
  · intro k hk _
    exact .inr hk

theorem handlerEnds_covered {pick : HandlerKind → Option Nat} {ended : HandlerEnd}
    (hsound : bus.Sound) (hp : p.Covered bus) (hcaught : ended.caught = true)
    (h : p.handlerEnds bus pick ended = some p') : p'.Covered bus := by
  cases hstatus : p.status with
  | running loop rest =>
    simp only [handlerEnds, hstatus, hcaught, if_true] at h
    obtain ⟨hsteady, hnodup⟩ := hp.steady loop rest hstatus
    have hO := hp.owing
    simp only [left, hstatus] at hO
    refine continueLoop_covered hsound hsteady hnodup hO ?_ h
    intro hrest p' hp'
    exact goTo_covered hsound (List.nodup_cons.mp hnodup).2 hrest hp'
  | returned | raised =>
    simp only [handlerEnds, hstatus] at h
    cases h

/-! ### Calls of others meanwhile -/

/-- The tables change under the publication. -/
theorem Covered.edit (hp : p.Covered bus)
    (hedit : ∀ phase, TableEdit bus.nextId (bus.table p.event.type phase) bus'.nextId
      (bus'.table p.event.type phase))
    (hloop : ∀ loop ∈ p.loop, loop.Steady bus' ∧
      (∀ x ∈ bus'.ahead p.event.type loop, x ∈ bus.ahead p.event.type loop ∨ x.id = bus.nextId) ∧
        ∀ x ∈ bus.ahead p.event.type loop, (loop.phase, x.id) ∈ p.due →
          (loop.phase, x.id) ∈ bus'.keys p.event.type loop.phase →
            x ∈ bus'.ahead p.event.type loop) :
    p.Covered bus' := by
  have hle : bus.nextId ≤ bus'.nextId := (hedit ⟨.sync, true⟩).le
  have hkeys : ∀ phase, ∀ k ∈ bus'.keys p.event.type phase,
      k ∈ bus.keys p.event.type phase ∨ k.2 = bus.nextId := by
    intro phase k hk
    obtain ⟨x, hx, rfl⟩ := mem_keys.mp hk
    exact ((hedit phase).mem hx).imp_left fun hx => mem_keys.mpr ⟨x, hx, rfl⟩
  have hmatching : ∀ k ∈ p.due, k ∈ bus'.matching p.event.type →
      k ∈ bus.matching p.event.type ∧ k ∈ bus'.keys p.event.type k.1 := by
    intro k hdue hk
    have hk := mem_matching.mp hk
    refine ⟨mem_matching.mpr ((hkeys _ k hk).resolve_right ?_), hk⟩
    exact (hp.owing.dueOlder k hdue).ne
  refine ⟨hp.raised, ⟨hp.owing.called, ?_, ?_, ?_, ?_⟩, ?_⟩
  · exact fun k hk => (hp.owing.calledOlder k hk).trans_le hle
  · exact fun k hk => (hp.owing.dueOlder k hk).trans_le hle
  · intro k hk hcalled
    refine hp.owing.apart k ?_ hcalled
    have hold : k.2 ≠ bus.nextId := (hp.owing.calledOlder k hcalled).ne
    cases hstatus : p.status with
    | running loop rest =>
      simp only [left, hstatus] at hk ⊢
      obtain ⟨-, hsub, -⟩ := hloop loop (by rw [Publication.loop, hstatus]; rfl)
      rcases mem_toCome.mp hk with ⟨x, hx, rfl⟩ | ⟨hrest, hk⟩
      · exact mem_toCome.mpr (.inl ⟨x, (hsub x hx).resolve_right hold, rfl⟩)
      · exact mem_toCome.mpr (.inr ⟨hrest, (hkeys _ k hk).resolve_right hold⟩)
    | returned | raised =>
      simp only [left, hstatus] at hk
      cases hk
  · intro k hdue hk
    obtain ⟨hmatch, hk⟩ := hmatching k hdue hk
    refine (hp.owing.reached k hdue hmatch).imp_right fun hleft => ?_
    cases hstatus : p.status with
    | running loop rest =>
      simp only [left, hstatus] at hleft ⊢
      obtain ⟨-, -, hkeep⟩ := hloop loop (by rw [Publication.loop, hstatus]; rfl)
      rcases mem_toCome.mp hleft with ⟨x, hx, rfl⟩ | ⟨hrest, -⟩
      · exact mem_toCome.mpr (.inl ⟨x, hkeep x hx hdue hk, rfl⟩)
      · exact mem_toCome.mpr (.inr ⟨hrest, hk⟩)
    | returned | raised =>
      simp only [left, hstatus] at hleft
      cases hleft
  · intro loop rest hstatus
    exact ⟨(hloop loop (by rw [Publication.loop, hstatus]; rfl)).1, (hp.steady loop rest hstatus).2⟩

theorem Covered.loop_steady (hp : p.Covered bus) {loop : Loop} (h : loop ∈ p.loop) :
    loop.Steady bus := by
  cases hstatus : p.status with
  | running loop' rest =>
    rw [Publication.loop, hstatus] at h
    obtain rfl := Option.some.inj h
    exact (hp.steady _ rest hstatus).1
  | returned | raised =>
    rw [Publication.loop, hstatus] at h
    cases h

/-- A list of handlers changes. -/
theorem Covered.setHandlers {kind : HandlerKind} {type : String} {n : Nat}
    {l : List (Subscription H)} (hp : p.Covered bus)
    (hedit : TableEdit bus.nextId (bus.handlersOf kind type) n l)
    (hahead : p.event.type = type → ∀ i, .list kind i ∈ p.loop →
      (∀ x ∈ Cursor.ahead l i, x ∈ Cursor.ahead (bus.handlersOf kind type) i ∨ x.id = bus.nextId) ∧
        ∀ x ∈ Cursor.ahead (bus.handlersOf kind type) i, (⟨kind, false⟩, x.id) ∈ p.due →
          x.id ∈ l.map Subscription.id → x ∈ Cursor.ahead l i) :
    p.Covered { bus.setHandlers kind type l with nextId := n } := by
  refine hp.edit (edit_setHandlers hedit p.event.type) fun loop hloop => ?_
  cases loop with
  | set kind' used changes visited =>
    exact ⟨hp.loop_steady hloop, fun _ hx => .inl hx, fun _ hx _ _ => hx⟩
  | list kind' i =>
    refine ⟨trivial, ?_⟩
    have hsame : ∀ l', (bus.setHandlers kind type l).handlersOf kind' p.event.type = l' →
        EventBus.ahead { bus.setHandlers kind type l with nextId := n } p.event.type
          (.list kind' i) = Cursor.ahead l' i := by
      rintro l' rfl
      rfl
    rw [handlersOf_setHandlers] at hsame
    by_cases hhere : kind' = kind ∧ p.event.type = type
    · obtain ⟨rfl, htype⟩ := hhere
      rw [hsame l (by rw [if_pos ⟨rfl, htype⟩])]
      obtain ⟨hsub, hkeep⟩ := hahead htype i hloop
      simp only [ahead, htype]
      refine ⟨hsub, fun x hx hdue hk => hkeep x hx hdue ?_⟩
      obtain ⟨y, hy, heq⟩ := mem_keys.mp hk
      have hl : y ∈ (bus.setHandlers kind' type l).handlersOf kind' type := hy
      rw [handlersOf_setHandlers, if_pos ⟨rfl, rfl⟩] at hl
      rw [(Prod.mk.inj heq).2]
      exact List.mem_map_of_mem hl
    · rw [hsame _ (if_neg hhere)]
      exact ⟨fun _ hx => .inl hx, fun _ hx _ _ => hx⟩

/-- A set of handlers changes, and no loop is over it. -/
theorem Covered.setWildcard {kind : HandlerKind} {n : Nat} {l : List (Subscription H)}
    (hp : p.Covered bus)
    (hedit : TableEdit bus.nextId (bus.wildcardSubscribers kind).elements n l)
    (hset : ∀ loop ∈ p.loop, loop.phase ≠ ⟨kind, true⟩) :
    p.Covered { bus.setWildcard kind l with nextId := n } := by
  refine hp.edit (edit_setWildcard hedit p.event.type) fun loop hloop => ?_
  cases loop with
  | list kind' i => exact ⟨trivial, fun _ hx => .inl hx, fun _ hx _ _ => hx⟩
  | set kind' used changes visited =>
    have hkind : kind' ≠ kind := by
      rintro rfl
      exact hset _ hloop rfl
    have hsame : (bus.setWildcard kind l).wildcardSubscribers kind' =
        bus.wildcardSubscribers kind' := Function.update_of_ne hkind ..
    have hahead : EventBus.ahead { bus.setWildcard kind l with nextId := n } p.event.type
        (.set kind' used changes visited) =
          bus.ahead p.event.type (.set kind' used changes visited) := by
      simp only [ahead, hsame]
    rw [hahead]
    refine ⟨?_, fun _ hx => .inl hx, fun _ hx _ _ => hx⟩
    have hsteady := hp.loop_steady hloop
    simp only [Loop.Steady] at hsteady ⊢
    rwa [hsame]

/-! ### Subscribing and unsubscribing -/

section

variable [DecidableEq H]

omit [DecidableEq H] in
theorem covered_append {kind : HandlerKind} {type : String} {handler : H} (hp : p.Covered bus) :
    p.Covered (bus.setHandlers kind type
      (bus.handlersOf kind type ++ [⟨bus.nextId, handler⟩])).withNextId := by
  refine hp.setHandlers (.add handler) fun _ i _ => ⟨fun x hx => ?_, fun x hx _ _ => ?_⟩
  · rw [Cursor.ahead_append] at hx
    refine (List.mem_append.mp hx).imp_right fun hnew => ?_
    rw [List.mem_singleton.mp (List.mem_of_mem_drop hnew)]
  · rw [Cursor.ahead_append]
    exact List.mem_append_left _ hx

theorem Covered.addHandler {kind : HandlerKind} {type : String} {handler : H} (hp : p.Covered bus)
    (hset : type = "*" → bus.inWildcard kind handler = false →
      ∀ loop ∈ p.loop, loop.phase ≠ ⟨kind, true⟩) :
    p.Covered (bus.addHandler kind type handler) := by
  rw [EventBus.addHandler]
  by_cases htype : type = "*"
  · rw [if_pos htype]
    cases hin : bus.inWildcard kind handler with
    | true => exact hp
    | false => exact hp.setWildcard (.add handler) (hset htype hin)
  · rw [if_neg htype]
    exact covered_append hp

omit [DecidableEq H] in
/-- What is still in the list is not what has been removed. -/
theorem not_removed {l : List (Subscription H)} (hnodup : (l.map Subscription.id).Nodup) {j : Nat}
    {x : Subscription H} (hx : x.id ∈ (l.eraseIdx j).map Subscription.id) : l[j]? ≠ some x := by
  intro hj
  obtain ⟨y, hy, hid⟩ := List.mem_map.mp hx
  obtain ⟨m, hne, hm⟩ := List.mem_eraseIdx_iff_getElem?.mp hy
  have hlt : m < (l.map Subscription.id).length := by
    rw [List.length_map]
    exact (List.getElem?_eq_some_iff.mp hm).1
  refine hne ((List.getElem?_inj hlt hnodup).mp ?_)
  rw [List.getElem?_map, List.getElem?_map, hm, hj, Option.map_some, Option.map_some, hid]

theorem Covered.unsubscribe {u : Unsubscribe H} (hsound : bus.Sound) (hp : p.Covered bus)
    (hset : u.eventType = "*" → bus.inWildcard u.kind u.handler = true →
      ∀ loop ∈ p.loop, loop.phase ≠ ⟨u.kind, true⟩)
    (hlist : u.eventType ≠ "*" → ∀ k ∈ p.passed bus u.kind u.eventType
      (position (bus.handlersOf u.kind u.eventType) u.handler), k ∉ p.due) :
    p.Covered (bus.unsubscribe u) := by
  rw [EventBus.unsubscribe]
  by_cases htype : u.eventType = "*"
  · rw [if_pos htype]
    cases hin : bus.inWildcard u.kind u.handler with
    | false => exact hp
    | true => exact hp.setWildcard (.remove _) (hset htype hin)
  · rw [if_neg htype]
    split
    · refine hp.setHandlers (.remove _) fun hevent i hloop => ⟨?_, fun x hx hdue hmem => ?_⟩
      · exact fun x hx => .inl (Cursor.mem_ahead_of_mem_eraseIdx hx)
      · refine Cursor.mem_ahead_eraseIdx hx (not_removed (hsound.nodup _ ⟨u.kind, false⟩) hmem) ?_
        intro hpassed
        refine hlist htype (⟨u.kind, false⟩, x.id) ?_ hdue
        rw [Publication.passed, show p.loop = some (.list u.kind i) from hloop]
        simp only [hevent, and_self, if_true]
        rw [hpassed]
        rfl
    · exact hp

end

end Publication

section

variable [DecidableEq H]

theorem Sound.addHandler (h : bus.Sound) (kind : HandlerKind) (type : String) (handler : H) :
    (bus.addHandler kind type handler).Sound := by
  rw [EventBus.addHandler]
  by_cases htype : type = "*"
  · rw [if_pos htype]
    cases bus.inWildcard kind handler with
    | true => exact h
    | false => exact h.edit fun type phase => edit_setWildcard (.add handler) type phase
  · rw [if_neg htype]
    exact h.edit fun type phase => edit_setHandlers (.add handler) type phase

theorem Sound.unsubscribe (h : bus.Sound) (u : Unsubscribe H) : (bus.unsubscribe u).Sound := by
  rw [EventBus.unsubscribe]
  by_cases htype : u.eventType = "*"
  · rw [if_pos htype]
    cases bus.inWildcard u.kind u.handler with
    | false => exact h
    | true => exact h.edit fun type phase => edit_setWildcard (.remove _) type phase
  · rw [if_neg htype]
    split
    · exact h.edit fun type phase => edit_setHandlers (.remove _) type phase
    · exact h

end

theorem Sound.addToHistory (h : bus.Sound) (event : Event) : (bus.addToHistory event).Sound :=
  h.edit fun _ _ => .same le_rfl

theorem Publication.Covered.addToHistory {p : Publication} (hp : p.Covered bus) (event : Event) :
    p.Covered (bus.addToHistory event) :=
  hp.edit (fun _ => .same le_rfl) fun _ hloop =>
    ⟨hp.loop_steady hloop, fun _ hx => .inl hx, fun _ hx _ _ => hx⟩

/-- Nothing is left to call twice. -/
theorem Publication.Covered.left_nodup {p : Publication} (hsound : bus.Sound)
    (hp : p.Covered bus) : (p.left bus).Nodup := by
  cases hstatus : p.status with
  | running loop rest =>
    simp only [left, hstatus]
    have hnodup := flatMap_keys_nodup hsound p.event.type (hp.steady loop rest hstatus).2
    rw [List.flatMap_cons] at hnodup
    refine hnodup.sublist (List.Sublist.append ?_ (List.Sublist.refl _))
    exact (ahead_sublist _ loop).map _
  | returned | raised =>
    simp only [left, hstatus]
    exact List.nodup_nil

end EventBus

/-! ## Runs -/

namespace BusRun

variable {H : Type u} {s s' : BusRun H}

structure Inv (s : BusRun H) : Prop where
  sound : s.bus.Sound
  covered : ∀ p ∈ s.publications, p.Covered s.bus

theorem Inv.tolerant (h : s.Inv) : s.Tolerant where
  raised p hp := (h.covered p hp).raised
  called p hp := (h.covered p hp).owing.called
  once p hp k hdue hk := by
    have hcovered := h.covered p hp
    have hnodup : (p.called ++ p.left s.bus).Nodup := by
      refine List.nodup_append.mpr ⟨hcovered.owing.called, hcovered.left_nodup h.sound, ?_⟩
      rintro k hk _ hleft rfl
      exact hcovered.owing.apart k hleft hk
    apply List.count_eq_one_of_mem hnodup
    exact List.mem_append.mpr (hcovered.owing.reached k hdue hk)

/-- A publication that is not in the loop over the set. -/
theorem not_inSet {kind : HandlerKind} (h : ¬ s.InSet kind) {p : Publication}
    (hp : p ∈ s.publications) : ∀ loop ∈ p.loop, loop.phase ≠ ⟨kind, true⟩ :=
  fun loop hloop hphase => h ⟨p, hp, loop, hloop, hphase⟩

theorem Inv.begin (h : s.Inv) {event : Event} {p : Publication}
    (hp : p.Covered (s.bus.addToHistory event)) : (s.begin event p).Inv where
  sound := h.sound.addToHistory event
  covered q hq := by
    rcases List.mem_append.mp hq with hold | hnew
    · exact (h.covered q hold).addToHistory event
    · rwa [List.mem_singleton.mp hnew]

variable [DecidableEq H]

theorem inv_step {l : BusAct H} (h : s.Inv) (hl : s.Spares l) (hs : s.step l = some s') :
    s'.Inv := by
  cases l with
  | subscribe type handler =>
    cases hs
    refine ⟨h.sound.addHandler .sync type handler, fun p hp => ?_⟩
    exact (h.covered p hp).addHandler fun htype hin => not_inSet (hl htype hin) hp
  | subscribeAsync type handler =>
    cases hs
    refine ⟨h.sound.addHandler .async type handler, fun p hp => ?_⟩
    exact (h.covered p hp).addHandler fun htype hin => not_inSet (hl htype hin) hp
  | unsubscribe k =>
    obtain ⟨u, hu, rfl⟩ := Option.map_eq_some_iff.mp hs
    have hu := hl u hu
    refine ⟨h.sound.unsubscribe u, fun p hp => (h.covered p hp).unsubscribe h.sound ?_ ?_⟩
    · intro htype hin
      rw [if_pos htype] at hu
      exact not_inSet (hu hin) hp
    · intro htype
      rw [if_neg htype] at hu
      exact hu p hp
  | publish event pick | publishAsync event pick =>
    obtain ⟨p, hp, rfl⟩ := Option.map_eq_some_iff.mp hs
    exact h.begin (Publication.dispatch_covered (h.sound.addToHistory event) hp)
  | handlerEnds k ended pick =>
    obtain ⟨p, hp, hs⟩ := Option.bind_eq_some_iff.mp hs
    obtain ⟨p', hp', rfl⟩ := Option.map_eq_some_iff.mp hs
    refine ⟨h.sound, fun q hq => ?_⟩
    rcases List.mem_or_eq_of_mem_set hq with hold | rfl
    · exact h.covered q hold
    · have hcovered := h.covered p (List.mem_of_getElem? hp)
      exact Publication.handlerEnds_covered h.sound hcovered hl hp'

theorem inv_init {maxHistory : Nat} (h : (busSystem H maxHistory).init s) : s.Inv := by
  obtain rfl := h
  refine ⟨⟨fun type phase => ?_, fun type phase x hx => ?_⟩, fun p hp => by cases hp⟩
  · obtain ⟨kind, wildcard⟩ := phase
    cases wildcard <;> exact List.nodup_nil
  · obtain ⟨kind, wildcard⟩ := phase
    cases wildcard <;> cases hx

def detected : Event := { type := "detection.received" }

/-- No set has a handler. -/
def noPick : HandlerKind → Option Nat := fun _ => none

/-- Of two handlers of the event, the first one unsubscribes itself when it is called. -/
def unsubscribesItself : List (BusAct Nat) :=
  [.subscribe detected.type 0, .subscribe detected.type 1, .publish detected noPick,
    .unsubscribe 0, .handlerEnds 0 .returned noPick]

/-- The first handler unsubscribes the second and raises, and the handler of all events
subscribes another one. -/
def unsubscribesOther : List (BusAct Nat) :=
  [.subscribe detected.type 0, .subscribe detected.type 1, .subscribe "*" 2,
    .publishAsync detected noPick, .unsubscribe 1,
    .handlerEnds 0 (.raised (some "failed")) fun _ => some 2,
    .subscribeAsync detected.type 3, .handlerEnds 0 .returned noPick]

end BusRun
