-- SUMMARY: Dictionaries that keep the order in which their keys were first set: assignment, deletion, counting of values.
import Mathlib.Data.List.AList
import Mathlib.Data.List.Induction

/-!
# Dictionaries

Finite maps in insertion order. An assignment to a key that is there keeps its
place; a new key comes last.
-/

universe u v

abbrev Dict (K : Type u) (V : Type v) := AList fun _ : K => V

namespace Dict

variable {K : Type u} {V : Type v} [DecidableEq K] {d : Dict K V} {k k' : K} {v w : V}

/-- A key with its value. -/
abbrev Entry (K : Type u) (V : Type v) := Sigma fun _ : K => V

def entry (k : K) (v : V) : Entry K V := ⟨k, v⟩

omit [DecidableEq K] in
theorem nodupKeys_snoc (h : k ∉ d) : (d.entries ++ [entry k v]).NodupKeys := by
  rw [List.NodupKeys, List.keys_append]
  apply List.nodup_append.mpr
  refine ⟨d.keys_nodup, List.nodup_singleton k, ?_⟩
  intro a ha b hb heq
  obtain rfl : b = k := List.mem_singleton.mp hb
  exact h (heq ▸ ha)

/-- `d[k] = v` -/
def set (d : Dict K V) (k : K) (v : V) : Dict K V :=
  if h : k ∈ d then AList.replace k v d else ⟨d.entries ++ [entry k v], nodupKeys_snoc h⟩

/-- `d.values()` -/
def values (d : Dict K V) : List V := d.entries.map Sigma.snd

theorem set_of_mem (h : k ∈ d) : set d k v = AList.replace k v d := dif_pos h

theorem entries_set_of_notMem (h : k ∉ d) : (set d k v).entries = d.entries ++ [entry k v] := by
  rw [set, dif_neg h]

theorem values_set_of_notMem (h : k ∉ d) : values (set d k v) = values d ++ [v] := by
  rw [values, entries_set_of_notMem h, List.map_append]
  rfl

/-- A new key that is deleted again has never been there. -/
theorem erase_set_of_notMem (h : k ∉ d) : (set d k v).erase k = d := by
  have hentries : ∀ l : List (Entry K V), k ∉ l.keys → List.kerase k (l ++ [entry k v]) = l := by
    intro l hl
    induction l with
    | nil => exact List.kerase_cons_eq rfl
    | cons e l ih =>
      obtain ⟨hne, hl⟩ := List.ne_and_not_mem_of_not_mem_cons hl
      rw [List.cons_append, List.kerase_cons_ne hne, ih hl]
  apply AList.ext
  exact (congrArg (List.kerase k) (entries_set_of_notMem h)).trans (hentries d.entries h)

theorem values_erase_sublist (d : Dict K V) (k : K) : (values (d.erase k)).Sublist (values d) :=
  (List.kerase_sublist k d.entries).map fun e : Entry K V => e.2

theorem keys_set_of_mem (h : k ∈ d) : (set d k v).keys = d.keys := by
  rw [set_of_mem h, AList.keys_replace]

theorem keys_set_of_notMem (h : k ∉ d) : (set d k v).keys = d.keys ++ [k] := by
  rw [AList.keys, entries_set_of_notMem h, List.keys_append]
  rfl

/-! ## Lookup -/

section

variable {l : List (Entry K V)}

theorem kreplace_cons (s : Entry K V) :
    List.kreplace k v (s :: l) =
      if k = s.1 then ⟨k, v⟩ :: l else s :: List.kreplace k v l := by
  by_cases h : k = s.1
  · rw [if_pos h]
    exact List.lookmap_cons_some _ _ (if_pos h)
  · rw [if_neg h]
    exact List.lookmap_cons_none _ _ (if_neg h)

theorem dlookup_kreplace (h : k ∈ l.keys) :
    List.dlookup k' (List.kreplace k v l) = if k' = k then some v else List.dlookup k' l := by
  induction l with
  | nil => simp at h
  | cons s l ih =>
      obtain ⟨a, b⟩ := s
      rw [kreplace_cons]
      by_cases ha : k = a
      · subst ha
        by_cases hk : k' = k
        · subst hk
          simp
        · simp [hk, List.dlookup_cons_ne]
      · have hl : k ∈ l.keys := by simpa [ha] using h
        rw [if_neg ha]
        by_cases hk : k' = a
        · subst hk
          simp [Ne.symm ha]
        · rw [List.dlookup_cons_ne _ _ hk, List.dlookup_cons_ne _ _ hk]
          exact ih hl

end

theorem lookup_set : (set d k v).lookup k' = if k' = k then some v else d.lookup k' := by
  by_cases h : k ∈ d
  · rw [set_of_mem h]
    exact dlookup_kreplace h
  · have hlookup : (set d k v).lookup k' = (d.entries ++ [entry k v]).dlookup k' := by
      rw [← entries_set_of_notMem h]
      rfl
    rw [hlookup, List.dlookup_append]
    by_cases hk : k' = k
    · subst hk
      have hnone : d.entries.dlookup k' = none := List.dlookup_eq_none.mpr h
      simp [hnone, entry]
    · have hone : List.dlookup k' [entry k v] = none := by
        simp [entry, hk]
      rw [hone, if_neg hk, Option.or_none]
      rfl

@[simp] theorem lookup_set_self : (set d k v).lookup k = some v := by
  rw [lookup_set, if_pos rfl]

theorem lookup_set_of_ne (h : k' ≠ k) : (set d k v).lookup k' = d.lookup k' := by
  rw [lookup_set, if_neg h]

@[simp] theorem mem_set : k' ∈ set d k v ↔ k' = k ∨ k' ∈ d := by
  rw [← AList.lookup_isSome, lookup_set]
  by_cases h : k' = k
  · simp [h]
  · simp [h, AList.lookup_isSome]

theorem lookup_ne_none : d.lookup k ≠ none ↔ k ∈ d := by
  rw [Ne, AList.lookup_eq_none, not_not]

theorem mem_of_lookup (h : d.lookup k = some v) : k ∈ d :=
  lookup_ne_none.mp (by simp [h])

theorem exists_lookup (h : k ∈ d) : ∃ v, d.lookup k = some v :=
  Option.isSome_iff_exists.mp (AList.lookup_isSome.mpr h)

/-! ## From a list -/

/-- The pairs are assigned in their order. -/
def ofList (l : List (K × V)) : Dict K V := l.foldl (fun d p => set d p.1 p.2) ∅

@[simp] theorem ofList_nil : ofList ([] : List (K × V)) = ∅ := rfl

theorem ofList_snoc (l : List (K × V)) (p : K × V) :
    ofList (l ++ [p]) = set (ofList l) p.1 p.2 := by
  rw [ofList, List.foldl_append]
  rfl

/-- The last pair with a key counts. -/
theorem lookup_ofList (l : List (K × V)) (k : K) :
    (ofList l).lookup k = (l.reverse.find? fun p => k = p.1).map Prod.snd := by
  induction l using List.reverseRecOn with
  | nil => rfl
  | append_singleton l p ih =>
      rw [ofList_snoc, lookup_set, ih, List.reverse_append, List.reverse_singleton,
        List.singleton_append, List.find?_cons]
      by_cases h : k = p.1
      · simp [h]
      · simp [h]

theorem lookup_ofList_of_mem {l : List (K × V)} {p : K × V} (h : (l.map Prod.fst).Nodup)
    (hp : p ∈ l) : (ofList l).lookup p.1 = some p.2 := by
  rw [lookup_ofList]
  cases hfind : l.reverse.find? fun q => p.1 = q.1 with
  | none =>
      have hnot := List.find?_eq_none.mp hfind p (List.mem_reverse.mpr hp)
      simp at hnot
  | some q =>
      have hq : q ∈ l := List.mem_reverse.mp (List.mem_of_find?_eq_some hfind)
      have hkey : p.1 = q.1 := by simpa using List.find?_some hfind
      rw [List.inj_on_of_nodup_map h hp hq hkey]
      rfl

theorem lookup_ofList_of_notMem {l : List (K × V)} {k : K} (h : ∀ p ∈ l, k ≠ p.1) :
    (ofList l).lookup k = none := by
  rw [lookup_ofList, List.find?_eq_none.mpr]
  · rfl
  · intro p hp
    simpa using h p (List.mem_reverse.mp hp)

/-! ## Sums and counting -/

/-- The sum of a number that each value has. -/
def sumBy (f : V → Nat) (d : Dict K V) : Nat := d.values.foldr (fun v total => f v + total) 0

/-- How many values have the property. -/
def countP (P : V → Bool) (d : Dict K V) : Nat := d.values.countP P

theorem sum_kreplace (f : V → Nat) {l : List (Entry K V)} (h : List.dlookup k l = some w) :
    ((List.kreplace k v l).map Sigma.snd).foldr (fun v total => f v + total) 0 + f w =
      (l.map Sigma.snd).foldr (fun v total => f v + total) 0 + f v := by
  induction l with
  | nil => simp at h
  | cons s l ih =>
      obtain ⟨a, b⟩ := s
      rw [kreplace_cons]
      by_cases ha : k = a
      · subst ha
        obtain rfl : b = w := by simpa using h
        simp only [if_pos, List.map_cons, List.foldr_cons]
        omega
      · have hl : List.dlookup k l = some w := by
          rwa [List.dlookup_cons_ne _ _ ha] at h
        have hrest := ih hl
        simp only [if_neg ha, List.map_cons, List.foldr_cons] at hrest ⊢
        omega

theorem sumBy_set_of_lookup (f : V → Nat) (h : d.lookup k = some w) :
    sumBy f (set d k v) + f w = sumBy f d + f v := by
  rw [set_of_mem (mem_of_lookup h)]
  exact sum_kreplace f h

theorem sumBy_set_of_notMem (f : V → Nat) (h : k ∉ d) :
    sumBy f (set d k v) = sumBy f d + f v := by
  rw [sumBy, values, entries_set_of_notMem h, List.map_append, sumBy, values]
  induction d.entries with
  | nil => simp [entry]
  | cons s entries ih =>
      rw [List.map_cons, List.cons_append, List.foldr_cons, ih, List.foldr_cons, Nat.add_assoc]

omit [DecidableEq K] in
theorem countP_eq_sumBy (P : V → Bool) (d : Dict K V) : countP P d = sumBy (fun v => (P v).toNat) d := by
  rw [countP, sumBy]
  induction d.values with
  | nil => rfl
  | cons v values ih =>
      rw [List.countP_cons, ih, List.foldr_cons]
      cases P v <;> simp [Nat.add_comm]

theorem countP_set_of_lookup (P : V → Bool) (h : d.lookup k = some w) :
    countP P (set d k v) + (P w).toNat = countP P d + (P v).toNat := by
  rw [countP_eq_sumBy, countP_eq_sumBy]
  exact sumBy_set_of_lookup _ h

theorem countP_set_of_notMem (P : V → Bool) (h : k ∉ d) :
    countP P (set d k v) = countP P d + (P v).toNat := by
  rw [countP_eq_sumBy, countP_eq_sumBy]
  exact sumBy_set_of_notMem _ h

end Dict
