-- SUMMARY: Graphs whose nodes are built when they are first asked for: what a cache of them holds after any requests, and which requests succeed.
import NeuroPipeline.Lib.Dict
import NeuroPipeline.Lib.Fallible
import NeuroPipeline.Lib.TransitionSystem
import Mathlib.Logic.Relation

/-!
# Lazily built graphs

A node is built from other nodes, which are asked for in order. What is built is kept, also where
the build that asked for it fails.
-/

structure LazyGraph (N : Type) where
  /-- what a node is built from -/
  needs : N → List N
  /-- nothing stands for a node that is not enabled -/
  enabled : N → Bool
  rank : N → Nat
  rank_lt : ∀ {n d}, d ∈ needs n → rank d < rank n

/-- How it goes to build a node: a failure comes before anything is asked for, or after all is. -/
inductive Attempt where
  | succeeds
  | failsFirst
  | failsLast
  deriving DecidableEq

/-- Something that was built for a node, and the numbers of what it was built from. -/
structure Built (N : Type) where
  node : N
  parts : List (Option Nat)
  deriving DecidableEq

structure LazyCache (N : Type) where
  cached : Dict N (Option Nat) := ∅
  built : List (Built N) := []

namespace LazyGraph

variable {N : Type}

/-- The state, and the node that failed. -/
abbrev Request (N α : Type) := EStateM N (LazyCache N) α

def getAll (get : N → Request N (Option Nat)) : List N → Request N (List (Option Nat))
  | [] => pure []
  | d :: ds => do
      let v ← get d
      let vs ← getAll get ds
      return v :: vs

variable (G : LazyGraph N) (outcome : N → Attempt)

def build (get : N → Request N (Option Nat)) (n : N) : Request N (Option Nat) :=
  if G.enabled n = false then pure none
  else if outcome n = .failsFirst then throw n
  else do
    let parts ← getAll get (G.needs n)
    if outcome n = .failsLast then throw n
    else modifyGet fun s => (some s.built.length, { s with built := s.built ++ [⟨n, parts⟩] })

variable [DecidableEq N]

/-- With a bound on the depth. -/
def getWithin : Nat → N → Request N (Option Nat)
  | 0, n => throw n
  | depth + 1, n => do
      let s ← get
      match s.cached.lookup n with
      | some v => return v
      | none => do
          let v ← G.build outcome (getWithin depth) n
          modify fun s => { s with cached := s.cached.set n v }
          return v

def get (n : N) : Request N (Option Nat) := G.getWithin outcome (G.rank n + 1) n

/-! ## The bound is never reached -/

omit [DecidableEq N] in
theorem getAll_congr {f g : N → Request N (Option Nat)} {ds : List N} (h : ∀ d ∈ ds, f d = g d) :
    getAll f ds = getAll g ds := by
  induction ds with
  | nil => rfl
  | cons d ds ih =>
      obtain ⟨hd, hds⟩ := List.forall_mem_cons.mp h
      rw [getAll, getAll, hd, ih hds]

omit [DecidableEq N] in
theorem build_congr {f g : N → Request N (Option Nat)} {n : N}
    (h : ∀ d ∈ G.needs n, f d = g d) : G.build outcome f n = G.build outcome g n := by
  rw [build, build, getAll_congr h]

theorem getWithin_eq {depth depth' : Nat} {n : N} (h : G.rank n < depth) (h' : G.rank n < depth') :
    G.getWithin outcome depth n = G.getWithin outcome depth' n := by
  induction depth generalizing n depth' with
  | zero => omega
  | succ depth ih =>
      match depth', h' with
      | depth' + 1, h' =>
          have hbuild : G.build outcome (G.getWithin outcome depth) n =
              G.build outcome (G.getWithin outcome depth') n := by
            refine G.build_congr outcome fun d hd => ?_
            have hrank := G.rank_lt hd
            exact ih (by omega) (by omega)
          rw [getWithin, getWithin, hbuild]

/-- What a request does, by itself. -/
theorem get_eq (n : N) :
    G.get outcome n = do
      let s ← MonadState.get
      match s.cached.lookup n with
      | some v => return v
      | none => do
          let v ← G.build outcome (G.get outcome) n
          modify fun s => { s with cached := s.cached.set n v }
          return v := by
  have hbuild : G.build outcome (G.getWithin outcome (G.rank n)) n =
      G.build outcome (G.get outcome) n :=
    G.build_congr outcome fun d hd => G.getWithin_eq outcome (G.rank_lt hd) (Nat.lt_succ_self _)
  rw [get, getWithin, hbuild]

/-! ## What a request leaves -/

/-- What may become of a cache, one node at a time. -/
inductive Growth : LazyCache N → LazyCache N → Prop where
  | skip {s : LazyCache N} {n : N} : n ∉ s.cached → G.enabled n = false →
      Growth s { s with cached := s.cached.set n none }
  | build {s : LazyCache N} {n : N} {parts : List (Option Nat)} : n ∉ s.cached →
      G.enabled n = true → outcome n = .succeeds →
      (G.needs n).map s.cached.lookup = parts.map some →
      Growth s
        { cached := s.cached.set n (some s.built.length), built := s.built ++ [⟨n, parts⟩] }

variable {G outcome} {s s' s'' : LazyCache N} {P P' : N → Prop} {n k : N}

theorem Growth.lookup {v : Option Nat} (h : G.Growth outcome s s')
    (hk : s.cached.lookup k = some v) : s'.cached.lookup k = some v := by
  have hne : ∀ {n}, n ∉ s.cached → k ≠ n := by
    rintro n hn rfl
    exact hn (Dict.mem_of_lookup hk)
  cases h with
  | skip hn _ => exact (Dict.lookup_set_of_ne (hne hn)).trans hk
  | build hn _ _ _ => exact (Dict.lookup_set_of_ne (hne hn)).trans hk

/-- By steps that concern nodes in `P` only. -/
structure Grown (G : LazyGraph N) (outcome : N → Attempt) (P : N → Prop) (s s' : LazyCache N) :
    Prop where
  steps : Relation.ReflTransGen (G.Growth outcome) s s'
  only : ∀ k, k ∈ s'.cached → k ∉ s.cached → P k ∧ (G.enabled k = true → outcome k = .succeeds)

theorem Grown.refl : G.Grown outcome P s s := ⟨.refl, fun _ hk hnot => absurd hk hnot⟩

theorem Grown.trans (h : G.Grown outcome P s s') (h' : G.Grown outcome P s' s'') :
    G.Grown outcome P s s'' where
  steps := h.steps.trans h'.steps
  only k hk hnot := by
    by_cases hmid : k ∈ s'.cached
    · exact h.only k hmid hnot
    · exact h'.only k hk hmid

theorem Grown.mono (h : G.Grown outcome P s s') (hP : ∀ k, P k → P' k) :
    G.Grown outcome P' s s' :=
  ⟨h.steps, fun k hk hnot => (h.only k hk hnot).imp_left (hP k)⟩

theorem Grown.lookup {v : Option Nat} (h : G.Grown outcome P s s')
    (hk : s.cached.lookup k = some v) : s'.cached.lookup k = some v := by
  obtain ⟨hsteps, -⟩ := h
  induction hsteps with
  | refl => exact hk
  | tail _ hstep ih => exact hstep.lookup ih

theorem Grown.mem (h : G.Grown outcome P s s') (hk : k ∈ s.cached) : k ∈ s'.cached := by
  obtain ⟨v, hv⟩ := Dict.exists_lookup hk
  exact Dict.mem_of_lookup (h.lookup hv)

/-- The nodes that a request can come to: of those that are enabled, what they are built from. -/
def Uses (G : LazyGraph N) (n d : N) : Prop := G.enabled n = true ∧ d ∈ G.needs n

def Needed (G : LazyGraph N) : N → N → Prop := Relation.ReflTransGen G.Uses

omit [DecidableEq N] in
theorem rank_lt_of_transGen (h : Relation.TransGen G.Uses n k) : G.rank k < G.rank n := by
  induction h with
  | single h => exact G.rank_lt h.2
  | tail _ h ih => exact Nat.lt_trans (G.rank_lt h.2) ih

theorem ends_getAll {get : N → Request N (Option Nat)} {ds : List N} {E : N → LazyCache N → Prop}
    (h : ∀ d ∈ ds, ∀ s, (get d).Ends s
      (fun v s' => G.Grown outcome P s s' ∧ s'.cached.lookup d = some v)
      fun e s' => G.Grown outcome P s s' ∧ E e s') (s : LazyCache N) :
    (getAll get ds).Ends s
      (fun vs s' => G.Grown outcome P s s' ∧ ds.map s'.cached.lookup = vs.map some)
      fun e s' => G.Grown outcome P s s' ∧ E e s' := by
  induction ds generalizing s with
  | nil => exact ⟨.refl, rfl⟩
  | cons d ds ih =>
      obtain ⟨hd, hds⟩ := List.forall_mem_cons.mp h
      rw [getAll, EStateM.ends_bind]
      refine (hd s).mono (fun v s₁ hv => ?_) fun _ _ => id
      obtain ⟨hgrown, hlookup⟩ := hv
      rw [EStateM.ends_bind]
      refine (ih hds s₁).mono (fun vs s₂ hvs => ?_) fun e s₂ he => ⟨hgrown.trans he.1, he.2⟩
      rw [EStateM.ends_pure, List.map_cons, List.map_cons, hvs.2, hvs.1.lookup hlookup]
      exact ⟨hgrown.trans hvs.1, rfl⟩

/-- A node in need of which a request failed. -/
structure Failed (G : LazyGraph N) (outcome : N → Attempt) (n e : N) (s : LazyCache N) :
    Prop where
  needed : G.Needed n e
  enabled : G.enabled e = true
  fails : outcome e ≠ .succeeds
  not_cached : e ∉ s.cached

theorem ends_build {get : N → Request N (Option Nat)} (hn : n ∉ s.cached)
    (h : ∀ d ∈ G.needs n, ∀ s, (get d).Ends s
      (fun v s' => G.Grown outcome (G.Needed d) s s' ∧ s'.cached.lookup d = some v)
      fun e s' => G.Grown outcome (G.Needed d) s s' ∧ G.Failed outcome d e s' ∧ d ∉ s'.cached) :
    (G.build outcome get n).Ends s
      (fun v s' => G.Grown outcome (G.Needed n) s { s' with cached := s'.cached.set n v })
      fun e s' => G.Grown outcome (G.Needed n) s s' ∧ G.Failed outcome n e s' ∧ n ∉ s'.cached := by
  have hset : ∀ {s₁ s₂ : LazyCache N} {v : Option Nat}, G.Growth outcome s₁ s₂ →
      s₂.cached = s₁.cached.set n v → (G.enabled n = true → outcome n = .succeeds) →
      G.Grown outcome (G.Needed n) s₁ s₂ := by
    intro s₁ s₂ v hstep hcached houtcome
    refine ⟨.single hstep, fun k hk hnot => ?_⟩
    rw [hcached, Dict.mem_set] at hk
    obtain rfl := hk.resolve_right hnot
    exact ⟨.refl, houtcome⟩
  rw [build]
  split
  · next hdisabled =>
      exact hset (.skip hn hdisabled) rfl fun henabled => absurd henabled (by simp [hdisabled])
  · next henabled =>
      have henabled : G.enabled n = true := by simpa using henabled
      split
      · next hfirst =>
          exact ⟨.refl, ⟨.refl, henabled, by simp [hfirst], hn⟩, hn⟩
      · next hfirst =>
          have hbelow : ∀ {d k}, d ∈ G.needs n → G.Needed d k → Relation.TransGen G.Uses n k :=
            fun hd hk => Relation.TransGen.head' ⟨henabled, hd⟩ hk
          -- what is below a node is not the node
          have hnot : ∀ {s' : LazyCache N},
              G.Grown outcome (Relation.TransGen G.Uses n) s s' → n ∉ s'.cached :=
            fun hgrown hmem =>
              Nat.lt_irrefl _ (rank_lt_of_transGen (hgrown.only n hmem hn).1)
          have hneeded : ∀ {s' : LazyCache N},
              G.Grown outcome (Relation.TransGen G.Uses n) s s' →
                G.Grown outcome (G.Needed n) s s' :=
            fun hgrown => hgrown.mono fun k => Relation.TransGen.to_reflTransGen
          rw [EStateM.ends_bind]
          refine (ends_getAll (P := Relation.TransGen G.Uses n)
            (E := fun e s' => G.Failed outcome n e s') (fun d hd s₁ => ?_) s).mono
            (fun parts s₁ hparts => ?_) fun e s₁ he => ⟨hneeded he.1, he.2, hnot he.1⟩
          · refine (h d hd s₁).mono (fun v s₂ hv => ?_) fun e s₂ he => ?_
            · exact ⟨hv.1.mono fun k => hbelow hd, hv.2⟩
            · obtain ⟨hgrown, hfailed, -⟩ := he
              exact ⟨hgrown.mono fun k => hbelow hd,
                { hfailed with needed := (hbelow hd hfailed.needed).to_reflTransGen }⟩
          · obtain ⟨hgrown, hlookup⟩ := hparts
            split
            · next hlast =>
                exact ⟨hneeded hgrown, ⟨.refl, henabled, by simp [hlast], hnot hgrown⟩, hnot hgrown⟩
            · next hlast =>
                have houtcome : outcome n = .succeeds := by
                  cases hcase : outcome n with
                  | succeeds => rfl
                  | failsFirst => exact absurd hcase hfirst
                  | failsLast => exact absurd hcase hlast
                exact (hneeded hgrown).trans
                  (hset (.build (hnot hgrown) henabled houtcome hlookup) rfl fun _ => houtcome)

/-- What is asked for is cached then, and so is everything that was built, even in vain. -/
theorem ends_get (G : LazyGraph N) (outcome : N → Attempt) (n : N) (s : LazyCache N) :
    (G.get outcome n).Ends s
      (fun v s' => G.Grown outcome (G.Needed n) s s' ∧ s'.cached.lookup n = some v)
      fun e s' => G.Grown outcome (G.Needed n) s s' ∧ G.Failed outcome n e s' ∧ n ∉ s'.cached := by
  induction hrank : G.rank n using Nat.strong_induction_on generalizing n s with
  | _ r ih =>
      subst hrank
      rw [get_eq, EStateM.ends_bind, EStateM.ends_get]
      split
      · next v hv => exact ⟨.refl, hv⟩
      · next hnone =>
          have hn : n ∉ s.cached := AList.lookup_eq_none.mp hnone
          rw [EStateM.ends_bind]
          refine (ends_build hn fun d hd s₁ => ih _ (G.rank_lt hd) d s₁ rfl).mono
            (fun v s₁ hgrown => ?_) fun _ _ => id
          exact ⟨hgrown, Dict.lookup_set_self⟩

theorem get_of_cached {v : Option Nat} (h : s.cached.lookup n = some v) :
    G.get outcome n s = .ok v s := by
  have hends : (G.get outcome n).Ends s (fun w s' => w = v ∧ s' = s) fun _ _ => False := by
    rw [get_eq, EStateM.ends_bind, EStateM.ends_get, h]
    exact ⟨rfl, rfl⟩
  cases hget : G.get outcome n s with
  | ok w s' =>
      obtain ⟨rfl, rfl⟩ := hends.of_ok hget
      rfl
  | error e s' => exact (hends.of_error hget).elim

/-! ## What is cached -/

/-- What stands for a node that is enabled is the one thing that was ever built for it, out of what
stands for the nodes it needs. -/
structure Wired (G : LazyGraph N) (s : LazyCache N) : Prop where
  disabled : ∀ n, s.cached.lookup n = some none → G.enabled n = false
  wired : ∀ n i, s.cached.lookup n = some (some i) → G.enabled n = true ∧
    ∃ parts, s.built[i]? = some ⟨n, parts⟩ ∧
      (G.needs n).map s.cached.lookup = parts.map some
  kept : ∀ (i : Nat) b, s.built[i]? = some b → s.cached.lookup b.node = some (some i)

theorem wired_init : G.Wired {} where
  disabled _ h := by simp at h
  wired _ _ h := by simp at h
  kept _ _ h := by simp at h

theorem Growth.map_lookup {ds : List N} {vs : List (Option Nat)} (h : G.Growth outcome s s')
    (hds : ds.map s.cached.lookup = vs.map some) : ds.map s'.cached.lookup = vs.map some := by
  rw [← hds]
  refine List.map_congr_left fun d hd => ?_
  have hmem : s.cached.lookup d ∈ vs.map some := hds ▸ List.mem_map_of_mem hd
  obtain ⟨v, -, hv⟩ := List.mem_map.mp hmem
  rw [← hv]
  exact h.lookup hv.symm

theorem Wired.step (h : G.Wired s) (hstep : G.Growth outcome s s') : G.Wired s' := by
  have hmap : ∀ {ds : List N} {vs : List (Option Nat)}, ds.map s.cached.lookup = vs.map some →
      ds.map s'.cached.lookup = vs.map some := hstep.map_lookup
  have hlookup : ∀ {k : N} {v : Option Nat}, s.cached.lookup k = some v →
      s'.cached.lookup k = some v := hstep.lookup
  cases hstep with
  | @skip n hn hdisabled =>
      have hback : ∀ k i, (s.cached.set n none).lookup k = some (some i) →
          s.cached.lookup k = some (some i) := by
        intro k i hk
        rw [Dict.lookup_set] at hk
        split at hk
        · cases hk
        · exact hk
      refine ⟨fun k hk => ?_, fun k i hk => ?_, fun i b hb => hlookup (h.kept i b hb)⟩
      · rcases eq_or_ne k n with rfl | hne
        · exact hdisabled
        · exact h.disabled k ((Dict.lookup_set_of_ne hne).symm.trans hk)
      · obtain ⟨henabled, parts, hbuilt, hparts⟩ := h.wired k i (hback k i hk)
        exact ⟨henabled, parts, hbuilt, hmap hparts⟩
  | @build n parts hn henabled houtcome hparts =>
      refine ⟨fun k hk => ?_, fun k i hk => ?_, fun i b hb => ?_⟩
      · rcases eq_or_ne k n with rfl | hne
        · simp at hk
        · exact h.disabled k ((Dict.lookup_set_of_ne hne).symm.trans hk)
      · rcases eq_or_ne k n with rfl | hne
        · obtain rfl : s.built.length = i := by simpa using hk
          exact ⟨henabled, parts, List.getElem?_concat_length, hmap hparts⟩
        · obtain ⟨henabled, parts', hbuilt, hparts'⟩ :=
            h.wired k i ((Dict.lookup_set_of_ne hne).symm.trans hk)
          have hlt : i < s.built.length := (List.getElem?_eq_some_iff.mp hbuilt).1
          exact ⟨henabled, parts', (List.getElem?_append_left hlt).trans hbuilt, hmap hparts'⟩
      · rcases Nat.lt_or_ge i s.built.length with hlt | hge
        · rw [List.getElem?_append_left hlt] at hb
          exact hlookup (h.kept i b hb)
        · obtain rfl : i = s.built.length := by
            have hlt := (List.getElem?_eq_some_iff.mp hb).1
            rw [List.length_append, List.length_singleton] at hlt
            omega
          rw [List.getElem?_concat_length] at hb
          obtain rfl := Option.some_inj.mp hb
          exact Dict.lookup_set_self

theorem Wired.grown (h : G.Wired s) (hgrown : G.Grown outcome P s s') : G.Wired s' := by
  obtain ⟨hsteps, -⟩ := hgrown
  induction hsteps with
  | refl => exact h
  | tail _ hstep ih => exact ih.step hstep

/-- Of all built things, each is for a node of its own. -/
theorem Wired.node_inj (h : G.Wired s) {i j : Nat} {b c : Built N} (hi : s.built[i]? = some b)
    (hj : s.built[j]? = some c) (hnode : b.node = c.node) : i = j := by
  have heq := (h.kept i b hi).symm.trans (hnode ▸ h.kept j c hj)
  simpa using heq

theorem Wired.mem_of_needed (h : G.Wired s) (hn : n ∈ s.cached) (hk : G.Needed n k) :
    k ∈ s.cached := by
  induction hk with
  | refl => exact hn
  | @tail a b _ huses ih =>
      obtain ⟨henabled, hb⟩ := huses
      obtain ⟨v, hv⟩ := Dict.exists_lookup ih
      cases v with
      | none => rw [h.disabled a hv] at henabled; cases henabled
      | some i =>
          obtain ⟨-, parts, -, hparts⟩ := h.wired a i hv
          have hmem : s.cached.lookup b ∈ parts.map some := hparts ▸ List.mem_map_of_mem hb
          obtain ⟨w, -, hw⟩ := List.mem_map.mp hmem
          exact Dict.mem_of_lookup hw.symm

/-- A request succeeds where nothing it still needs fails. -/
def Ready (G : LazyGraph N) (outcome : N → Attempt) (s : LazyCache N) (n : N) : Prop :=
  ∀ k, G.Needed n k → k ∉ s.cached → G.enabled k = true → outcome k = .succeeds

theorem get_ok_iff (h : G.Wired s) :
    (∃ v s', G.get outcome n s = .ok v s') ↔ G.Ready outcome s n := by
  have hends := G.ends_get outcome n s
  constructor
  · rintro ⟨v, s', hget⟩ k hk hnot henabled
    obtain ⟨hgrown, hlookup⟩ := hends.of_ok hget
    have hmem := (h.grown hgrown).mem_of_needed (Dict.mem_of_lookup hlookup) hk
    exact (hgrown.only k hmem hnot).2 henabled
  · intro hready
    cases hget : G.get outcome n s with
    | ok v s' => exact ⟨v, s', rfl⟩
    | error e s' =>
        obtain ⟨hgrown, hfailed, -⟩ := hends.of_error hget
        have hnot : e ∉ s.cached := fun hmem => hfailed.not_cached (hgrown.mem hmem)
        exact absurd (hready e hfailed.needed hnot hfailed.enabled) hfailed.fails

/-! ## Requests one after the other -/

/-- A request, and how building goes then. -/
structure Asked (N : Type) where
  node : N
  outcome : N → Attempt

def answer (G : LazyGraph N) (s : LazyCache N) (a : Asked N) : Option (Option Nat) :=
  match G.get a.outcome a.node s with
  | .ok v _ => some v
  | .error _ _ => none

def after (G : LazyGraph N) (s : LazyCache N) (a : Asked N) : LazyCache N :=
  match G.get a.outcome a.node s with
  | .ok _ s' => s'
  | .error _ s' => s'

def system (G : LazyGraph N) : TransitionSystem (LazyCache N) (Asked N) where
  init s := s = {}
  step s a := some (G.after s a)

variable {a : Asked N} {t : List (LazyCache N × Asked N)}

theorem grown_after (G : LazyGraph N) (s : LazyCache N) (a : Asked N) :
    G.Grown a.outcome (G.Needed a.node) s (G.after s a) := by
  have hends := G.ends_get a.outcome a.node s
  rw [after]
  split
  · next hget => exact (hends.of_ok hget).1
  · next hget => exact (hends.of_error hget).1

theorem wired_run (hrun : G.system.Run {} t s) : G.Wired s :=
  hrun.invariant (fun s a s' hwired hstep => by
    obtain rfl := Option.some_inj.mp hstep
    exact hwired.grown (G.grown_after s a)) wired_init

/-- Nothing is built that nobody has asked for. -/
theorem needed_run (hrun : G.system.Run {} t s) (hk : k ∈ s.cached) :
    ∃ p ∈ t, G.Needed p.2.node k := by
  revert k
  refine hrun.invariant_history (I := fun t s => ∀ {k}, k ∈ s.cached →
    ∃ p ∈ t, G.Needed p.2.node k) (fun t s a s' ih hstep k hk => ?_) ?_
  · obtain rfl := Option.some_inj.mp hstep
    by_cases hmem : k ∈ s.cached
    · obtain ⟨p, hp, hneeded⟩ := ih hmem
      exact ⟨p, List.mem_append_left _ hp, hneeded⟩
    · exact ⟨(s, a), List.mem_append_right _ (List.mem_singleton_self _),
        ((G.grown_after s a).only k hk hmem).1⟩
  · intro k hk
    exact absurd hk (AList.notMem_empty k)

/-- Every answer that was ever given still stands. -/
theorem answer_run (hrun : G.system.Run {} t s) {p : LazyCache N × Asked N} (hp : p ∈ t)
    {v : Option Nat} (hv : G.answer p.1 p.2 = some v) : s.cached.lookup p.2.node = some v := by
  revert p v
  refine hrun.invariant_history (I := fun t s => ∀ {p : LazyCache N × Asked N}, p ∈ t →
    ∀ {v}, G.answer p.1 p.2 = some v → s.cached.lookup p.2.node = some v)
    (fun t s a s' ih hstep p hp v hv => ?_) ?_
  · obtain rfl := Option.some_inj.mp hstep
    rcases List.mem_append.mp hp with hp | hp
    · exact (G.grown_after s a).lookup (ih hp hv)
    · obtain rfl := List.mem_singleton.mp hp
      have hends := G.ends_get a.outcome a.node s
      rw [answer] at hv
      split at hv
      · next w s' hget =>
          obtain rfl := Option.some_inj.mp hv
          rw [after, hget]
          exact (hends.of_ok hget).2
      · cases hv
  · intro p hp
    cases hp

end LazyGraph
