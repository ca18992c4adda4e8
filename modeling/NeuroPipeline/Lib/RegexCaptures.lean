-- SUMMARY: Where the groups of a regular expression stand in a text, and what the first part of an expression matches.
import NeuroPipeline.Lib.Regex
import Mathlib.Data.List.Infix

/-!
# Captures

`findall` returns what the group of each match has captured. Here every capture
keeps its place, and what is found from left to right does not overlap.
-/

namespace Regex

/-! ## First parts -/

/-- The expression matches at the head of the text. -/
def Matches (r : Regex) (s : List Char) : Prop := r.ways s ≠ []

theorem search_iff {r : Regex} {s : List Char} :
    r.search s = true ↔ ∃ t ∈ s.tails, r.Matches t := by
  simp [search, matchHead, Matches, List.isSome_head?]

theorem Matches.of_seq {r t : Regex} {s : List Char} (h : (seq r t).Matches s) : r.Matches s := by
  intro hnone
  rw [Matches, ways, hnone] at h
  exact h rfl

theorem Matches.of_sequence_append {l l' : List Regex} {s : List Char}
    (h : (sequence (l ++ l')).Matches s) : (sequence l).Matches s := by
  induction l generalizing s with
  | nil => simp [sequence, Matches, ways]
  | cons r l ih =>
      obtain ⟨m, hm⟩ := List.exists_mem_of_ne_nil _ h
      rw [List.cons_append, sequence, ways] at hm
      obtain ⟨first, hfirst, hrest⟩ := List.mem_flatMap.mp hm
      obtain ⟨second, hsecond, -⟩ := List.mem_map.mp hrest
      obtain ⟨last, hlast⟩ := List.exists_mem_of_ne_nil _ (ih (List.ne_nil_of_mem hsecond))
      exact List.ne_nil_of_mem
        (List.mem_flatMap.mpr ⟨first, hfirst, List.mem_map.mpr ⟨last, hlast, rfl⟩⟩)

theorem search_mono {r t : Regex} (h : ∀ s, r.Matches s → t.Matches s) {s : List Char}
    (hs : r.search s = true) : t.search s = true := by
  obtain ⟨u, hu, hmatches⟩ := search_iff.mp hs
  exact search_iff.mpr ⟨u, hu, h u hmatches⟩

/-- A word begins with each of its first parts. -/
theorem search_lit_of_initial {v w : String} (h : v.toList <+: w.toList) {s : List Char}
    (hs : (lit w).search s = true) : (lit v).search s = true := by
  obtain ⟨u, hu⟩ := h
  refine search_mono (fun t ht => ?_) hs
  rw [lit, word, ← hu, List.map_append] at ht
  exact ht.of_sequence_append

/-- So does a sequence that begins with the word. -/
theorem search_lit_of_sequence {v w : String} {rest : List Regex} (h : v.toList <+: w.toList)
    {s : List Char} (hs : (sequence (lit w :: rest)).search s = true) :
    (lit v).search s = true := by
  refine search_lit_of_initial h (search_mono (fun t ht => ?_) hs)
  rw [sequence] at ht
  exact ht.of_seq

/-! ## Places -/

/-- A way to match that remembers where in its text the group begins. -/
structure Way where
  text : List Char
  rest : List Char
  group : Option (Nat × List Char) := none
  deriving DecidableEq

def Way.toMatch (w : Way) : Match := ⟨w.text, w.rest, w.group.map Prod.snd⟩

/-- The group of what comes behind a text. -/
def shift (n : Nat) (group : Option (Nat × List Char)) : Option (Nat × List Char) :=
  group.map fun g => (n + g.1, g.2)

/-- The ways of `ways`, in their order. -/
def placed : Regex → List Char → List Way
  | .seq r t, s => (placed r s).flatMap fun m =>
      (placed t m.rest).map fun n =>
        ⟨m.text ++ n.text, n.rest, shift m.text.length n.group <|> m.group⟩
  | .alt r t, s => placed r s ++ placed t s
  | .group r, s => (placed r s).map fun m => { m with group := some (0, m.text) }
  | r, s => (ways r s).map fun m => ⟨m.text, m.rest, none⟩

/-- The group stands in the text, which stands at the head of what was searched. -/
structure Way.Placed (w : Way) (s : List Char) : Prop where
  split : w.text ++ w.rest = s
  group : ∀ g ∈ w.group, ∃ before after,
    w.text = before ++ g.2 ++ after ∧ before.length = g.1

theorem split_of_mem_starWays {p : Char → Bool} {greedy : Bool} {s : List Char} {m : Match}
    (h : m ∈ starWays p greedy s) : m.text ++ m.rest = s ∧ m.group = none := by
  induction s generalizing m with
  | nil =>
      obtain rfl := List.mem_singleton.mp h
      exact ⟨rfl, rfl⟩
  | cons c s ih =>
      have hmore : ∀ {m}, m ∈ (if p c then (starWays p greedy s).map fun m =>
          { m with text := c :: m.text } else []) → m.text ++ m.rest = c :: s ∧ m.group = none := by
        intro m hm
        split at hm
        · obtain ⟨n, hn, rfl⟩ := List.mem_map.mp hm
          obtain ⟨hsplit, hgroup⟩ := ih hn
          exact ⟨congrArg (c :: ·) hsplit, hgroup⟩
        · cases hm
      rw [starWays] at h
      split at h
      · rcases List.mem_append.mp h with hm | hm
        · exact hmore hm
        · obtain rfl := List.mem_singleton.mp hm
          exact ⟨rfl, rfl⟩
      · rcases List.mem_cons.mp h with rfl | hm
        · exact ⟨rfl, rfl⟩
        · exact hmore hm

/-- No parts that could have a group. -/
def IsLeaf : Regex → Bool
  | .empty | .char _ | .star _ _ | .endOfLine => true
  | .seq _ _ | .alt _ _ | .group _ => false

theorem split_of_mem_ways {r : Regex} (hr : r.IsLeaf = true) {s : List Char} {m : Match}
    (h : m ∈ ways r s) : m.text ++ m.rest = s ∧ m.group = none := by
  cases r with
  | empty =>
      obtain rfl := List.mem_singleton.mp h
      exact ⟨rfl, rfl⟩
  | char p =>
      cases s with
      | nil => cases h
      | cons c s =>
          rw [ways] at h
          split at h
          · rw [List.mem_singleton.mp h]
            exact ⟨rfl, rfl⟩
          · cases h
  | star p greedy => exact split_of_mem_starWays h
  | endOfLine =>
      cases s with
      | nil =>
          obtain rfl := List.mem_singleton.mp h
          exact ⟨rfl, rfl⟩
      | cons c s =>
          rw [ways] at h
          split at h
          · rw [List.mem_singleton.mp h]
            exact ⟨rfl, rfl⟩
          · cases h
  | seq | alt | group => cases hr

theorem placed_leaf {r : Regex} (hr : r.IsLeaf = true) (s : List Char) :
    placed r s = (ways r s).map fun m => ⟨m.text, m.rest, none⟩ := by
  cases r with
  | empty | char | star | endOfLine => rfl
  | seq | alt | group => cases hr

theorem map_toMatch_leaf {r : Regex} (hr : r.IsLeaf = true) (s : List Char) :
    (placed r s).map Way.toMatch = ways r s := by
  rw [placed_leaf hr, List.map_map]
  refine (List.map_congr_left fun m hm => ?_).trans (List.map_id _)
  have hgroup := (split_of_mem_ways hr hm).2
  cases m
  obtain rfl := hgroup
  rfl

/-- The ways without their places are those of the matcher. -/
theorem map_toMatch_placed (r : Regex) (s : List Char) :
    (placed r s).map Way.toMatch = ways r s := by
  induction r generalizing s with
  | empty | char | star | endOfLine => exact map_toMatch_leaf rfl s
  | alt r t hr ht => rw [placed, ways, List.map_append, hr, ht]
  | group r hr =>
      rw [placed, ways, ← hr, List.map_map, List.map_map]
      rfl
  | seq r t hr ht =>
      rw [placed, ways, ← hr, List.map_flatMap, List.flatMap_map]
      refine List.flatMap_congr fun m _ => ?_
      have hrest : m.toMatch.rest = m.rest := rfl
      rw [hrest, ← ht, List.map_map, List.map_map]
      refine List.map_congr_left fun n _ => ?_
      cases hn : n.group <;> cases hm : m.group <;> simp [Way.toMatch, shift, hn, hm]

theorem mem_placed_seq {r t : Regex} {s : List Char} {w : Way} :
    w ∈ placed (seq r t) s ↔ ∃ m ∈ placed r s, ∃ n ∈ placed t m.rest,
      w = ⟨m.text ++ n.text, n.rest, shift m.text.length n.group <|> m.group⟩ := by
  simp [placed, eq_comm]

theorem Way.Placed.of_leaf {r : Regex} (hr : r.IsLeaf = true) {s : List Char} {w : Way}
    (h : w ∈ placed r s) : w.Placed s := by
  rw [placed_leaf hr] at h
  obtain ⟨m, hm, rfl⟩ := List.mem_map.mp h
  exact ⟨(split_of_mem_ways hr hm).1, by simp⟩

theorem Way.Placed.of_mem {r : Regex} {s : List Char} {w : Way} (h : w ∈ placed r s) :
    w.Placed s := by
  induction r generalizing s w with
  | empty | char | star | endOfLine => exact .of_leaf rfl h
  | alt r t hr ht =>
      rcases List.mem_append.mp h with hw | hw
      · exact hr hw
      · exact ht hw
  | group r hr =>
      obtain ⟨m, hm, rfl⟩ := List.mem_map.mp h
      refine ⟨(hr hm).split, fun g hg => ⟨[], [], ?_⟩⟩
      obtain rfl := Option.mem_some_iff.mp hg
      simp
  | seq r t hr ht =>
      obtain ⟨m, hm, n, hn, rfl⟩ := mem_placed_seq.mp h
      refine ⟨?_, fun g hg => ?_⟩
      · rw [List.append_assoc, (ht hn).split, (hr hm).split]
      · cases hgroup : n.group with
        | some own =>
            -- a group of the second part, behind all of the first
            rw [hgroup] at hg
            obtain rfl := Option.mem_some_iff.mp hg
            obtain ⟨before, after, htext, hbefore⟩ := (ht hn).group own hgroup
            refine ⟨m.text ++ before, after, ?_, ?_⟩
            · simp [htext]
            · simp [hbefore]
        | none =>
            rw [hgroup] at hg
            obtain ⟨before, after, htext, hbefore⟩ := (hr hm).group g hg
            exact ⟨before, after ++ n.text, by simp [htext], hbefore⟩

/-! ## Parts of a sequence -/

theorem exists_of_mem_char {p : Char → Bool} {s : List Char} {w : Way}
    (h : w ∈ placed (char p) s) : ∃ c, w.text = [c] ∧ p c = true := by
  obtain ⟨m, hm, rfl⟩ := List.mem_map.mp h
  cases s with
  | nil => cases hm
  | cons c s =>
      rw [ways] at hm
      split at hm
      · next hc =>
        obtain rfl := List.mem_singleton.mp hm
        exact ⟨c, rfl, hc⟩
      · cases hm

/-- The text of a sequence is that of its first parts and that of the others. -/
theorem exists_parts_of_mem (l l' : List Regex) {s : List Char} {w : Way}
    (h : w ∈ placed (sequence (l ++ l')) s) :
    ∃ m ∈ placed (sequence l) s, ∃ n ∈ placed (sequence l') m.rest,
      w.text = m.text ++ n.text ∧ w.rest = n.rest := by
  induction l generalizing s w with
  | nil =>
      refine ⟨⟨[], s, none⟩, ?_, w, h, rfl, rfl⟩
      rw [sequence, placed_leaf rfl]
      exact List.mem_singleton_self _
  | cons r l ih =>
      obtain ⟨first, hfirst, rest, hrest, rfl⟩ := mem_placed_seq.mp h
      obtain ⟨m, hm, n, hn, htext, hend⟩ := ih hrest
      refine ⟨_, mem_placed_seq.mpr ⟨first, hfirst, m, hm, rfl⟩, n, hn, ?_, hend⟩
      rw [htext, List.append_assoc]

/-- The characters that the expression may match. -/
def Only (q : Char → Prop) : Regex → Prop
  | .empty | .endOfLine => True
  | .char p | .star p _ => ∀ c, p c = true → q c
  | .seq r t | .alt r t => Only q r ∧ Only q t
  | .group r => Only q r

variable {q : Char → Prop}

theorem Only.sequence {l : List Regex} (h : ∀ r ∈ l, Only q r) : Only q (sequence l) := by
  induction l with
  | nil => exact trivial
  | cons r l ih =>
      exact ⟨h r List.mem_cons_self, ih fun t ht => h t (List.mem_cons_of_mem _ ht)⟩

theorem Only.oneOf {l : List Regex} (h : ∀ r ∈ l, Only q r) : Only q (oneOf l) := by
  induction l with
  | nil => exact fun _ hc => nomatch hc
  | cons r l ih =>
      cases l with
      | nil => exact h r List.mem_cons_self
      | cons t l =>
          exact ⟨h r List.mem_cons_self, ih fun u hu => h u (List.mem_cons_of_mem _ hu)⟩

theorem Only.lit {w : String} (h : ∀ c ∈ w.toList, q c) : Only q (lit w) := by
  refine Only.sequence fun r hr => ?_
  obtain ⟨c, hc, rfl⟩ := List.mem_map.mp hr
  intro d hd
  rw [← eq_of_beq hd]
  exact h c hc

theorem mem_of_mem_starWays {p : Char → Bool} {greedy : Bool} {s : List Char} {m : Match}
    (h : m ∈ starWays p greedy s) {c : Char} (hc : c ∈ m.text) : p c = true := by
  induction s generalizing m with
  | nil =>
      obtain rfl := List.mem_singleton.mp h
      cases hc
  | cons d s ih =>
      have hcases : m = ⟨[], d :: s, none⟩ ∨
          (p d = true ∧ ∃ n ∈ starWays p greedy s, { n with text := d :: n.text } = m) := by
        rw [starWays] at h
        cases hd : p d <;> cases greedy <;> simp_all [or_comm]
      rcases hcases with rfl | ⟨hd, n, hn, rfl⟩
      · cases hc
      · rcases List.mem_cons.mp hc with rfl | hc
        · exact hd
        · exact ih hn hc

theorem Only.of_mem_text {r : Regex} (hr : Only q r) {s : List Char} {w : Way}
    (h : w ∈ placed r s) {c : Char} (hc : c ∈ w.text) : q c := by
  induction r generalizing s w with
  | empty =>
      obtain rfl := List.mem_singleton.mp h
      cases hc
  | endOfLine =>
      obtain ⟨m, hm, rfl⟩ := List.mem_map.mp h
      cases s with
      | nil =>
          obtain rfl := List.mem_singleton.mp hm
          cases hc
      | cons d s =>
          rw [ways] at hm
          split at hm
          · obtain rfl := List.mem_singleton.mp hm
            cases hc
          · cases hm
  | char p =>
      obtain ⟨d, htext, hd⟩ := exists_of_mem_char h
      rw [htext] at hc
      obtain rfl := List.mem_singleton.mp hc
      exact hr c hd
  | star p greedy =>
      obtain ⟨m, hm, rfl⟩ := List.mem_map.mp h
      exact hr c (mem_of_mem_starWays hm hc)
  | alt r t ihr iht =>
      rcases List.mem_append.mp h with hw | hw
      · exact ihr hr.1 hw hc
      · exact iht hr.2 hw hc
  | group r ih =>
      obtain ⟨m, hm, rfl⟩ := List.mem_map.mp h
      exact ih hr hm hc
  | seq r t ihr iht =>
      obtain ⟨m, hm, n, hn, rfl⟩ := mem_placed_seq.mp h
      rcases List.mem_append.mp hc with hc | hc
      · exact ihr hr.1 hm hc
      · exact iht hr.2 hn hc

/-! ## Captures of a text -/

/-- What a match captures, and where, if it begins at a place. -/
def capture (start : Nat) (w : Way) : Nat × List Char :=
  match w.group with
  | some (offset, text) => (start + offset, text)
  | none => (start, [])

/-- The captures of `findallFrom`, with the places they begin at. -/
def capturesFrom (r : Regex) : Nat → Nat → List Char → List (Nat × List Char)
  | _, _, [] => []
  | start, skip + 1, _ :: s => capturesFrom r (start + 1) skip s
  | start, 0, c :: s =>
    match (placed r (c :: s)).head? with
    | some w => capture start w :: capturesFrom r (start + 1) (w.text.length - 1) s
    | none => capturesFrom r (start + 1) 0 s

def captures (r : Regex) (s : List Char) : List (Nat × List Char) := capturesFrom r 0 0 s

theorem capturesFrom_texts (r : Regex) (start skip : Nat) (s : List Char) :
    (capturesFrom r start skip s).map Prod.snd =
      (findallFrom r skip s).map fun m => m.group.getD [] := by
  induction s generalizing start skip with
  | nil => rfl
  | cons c s ih =>
      cases skip with
      | succ skip => exact ih (start + 1) skip
      | zero =>
          have hhead : r.matchHead (c :: s) = ((placed r (c :: s)).head?).map Way.toMatch := by
            rw [matchHead, ← map_toMatch_placed, List.head?_map]
          rw [capturesFrom, findallFrom, hhead]
          cases (placed r (c :: s)).head? with
          | none => exact ih (start + 1) 0
          | some w =>
              simp only [Option.map_some, List.map_cons, ih]
              congr 1
              cases hgroup : w.group <;> simp [capture, Way.toMatch, hgroup]

/-- The captures are those of `findall`. -/
theorem captures_texts (r : Regex) (s : List Char) : (captures r s).map Prod.snd = findall r s :=
  capturesFrom_texts r 0 0 s

/-- A capture is that of a way to match at some place. -/
theorem exists_way_of_mem {r : Regex} {start skip : Nat} {s : List Char} {c : Nat × List Char}
    (h : c ∈ capturesFrom r start skip s) : ∃ before t w, s = before ++ t ∧ skip ≤ before.length ∧
      w ∈ placed r t ∧ c = capture (start + before.length) w := by
  induction s generalizing start skip with
  | nil => cases h
  | cons d s ih =>
      -- what is found further on
      have hlater : ∀ {skip'}, skip ≤ skip' + 1 → c ∈ capturesFrom r (start + 1) skip' s →
          ∃ before t w, d :: s = before ++ t ∧ skip ≤ before.length ∧ w ∈ placed r t ∧
            c = capture (start + before.length) w := by
        intro skip' hskip hc
        obtain ⟨before, t, w, rfl, hle, hw, rfl⟩ := ih hc
        refine ⟨d :: before, t, w, rfl, ?_, hw, ?_⟩
        · rw [List.length_cons]
          omega
        · rw [List.length_cons, Nat.add_right_comm, Nat.add_assoc]
      cases skip with
      | succ skip => exact hlater le_rfl h
      | zero =>
          rw [capturesFrom] at h
          split at h
          · next w hw =>
            rcases List.mem_cons.mp h with rfl | hc
            · exact ⟨[], d :: s, w, rfl, le_rfl, List.mem_of_head? hw, rfl⟩
            · exact hlater (Nat.zero_le _) hc
          · exact hlater (Nat.zero_le _) h

/-- A capture is within the match. -/
theorem capture_bounds {r : Regex} {s : List Char} {w : Way} (h : w ∈ placed r s) (start : Nat) :
    start ≤ (capture start w).1 ∧
      (capture start w).1 + (capture start w).2.length ≤ start + w.text.length := by
  rw [capture]
  cases hgroup : w.group with
  | none => simp
  | some g =>
      obtain ⟨before, after, htext, hbefore⟩ := (Way.Placed.of_mem h).group g hgroup
      have hlength := congrArg List.length htext
      simp only [List.length_append] at hlength
      constructor
      · exact Nat.le_add_right _ _
      · simp only
        omega

theorem start_le_of_mem {r : Regex} {start skip : Nat} {s : List Char} {c : Nat × List Char}
    (h : c ∈ capturesFrom r start skip s) : start + skip ≤ c.1 := by
  obtain ⟨before, t, w, -, hskip, hw, rfl⟩ := exists_way_of_mem h
  have hstart := (capture_bounds hw (start + before.length)).1
  omega

/-- Each capture ends before the next begins. -/
theorem capturesFrom_disjoint (r : Regex) (start skip : Nat) (s : List Char) :
    (capturesFrom r start skip s).Pairwise fun c d => c.1 + c.2.length ≤ d.1 := by
  induction s generalizing start skip with
  | nil => exact .nil
  | cons c s ih =>
      cases skip with
      | succ skip => exact ih (start + 1) skip
      | zero =>
          rw [capturesFrom]
          split
          · next w hw =>
            refine List.pairwise_cons.mpr ⟨fun d hd => ?_, ih _ _⟩
            have hlast := (capture_bounds (List.mem_of_head? hw) start).2
            have hnext := start_le_of_mem hd
            omega
          · exact ih (start + 1) 0

theorem captures_disjoint (r : Regex) (s : List Char) :
    (captures r s).Pairwise fun c d => c.1 + c.2.length ≤ d.1 := capturesFrom_disjoint r 0 0 s

end Regex
