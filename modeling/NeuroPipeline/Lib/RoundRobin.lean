-- SUMMARY: Turns taken by a counter that only some rounds advance, and when everyone gets a turn in time.
import Mathlib.Data.Nat.Count
import Mathlib.Order.Interval.Finset.Nat
import Mathlib.Data.Int.CardIntervalMod

/-!
# Turns by a counter

Each round is the turn of the counter's remainder. A round that fails leaves the
counter as it is, and the next round is the same one's turn.
-/

namespace RoundRobin

variable {n p : Nat} {oks rest : List Bool} {b : Bool}

/-- Whose turn each round is, from the counter `p` on. -/
def turns (n : Nat) : Nat → List Bool → List Nat
  | _, [] => []
  | p, ok :: rest => p % n :: turns n (p + ok.toNat) rest

/-- After `k` rounds everyone has had `k / n` turns. -/
def Fair (n : Nat) (l : List Nat) : Prop := ∀ k ≤ l.length, ∀ j < n, k / n ≤ (l.take k).count j

/-- Of `n` rounds in a row, counted from the first, only the last fails. -/
def Advances (n : Nat) (oks : List Bool) : Prop :=
  ∀ i < n * (oks.length / n), (i + 1) % n ≠ 0 → oks[i]? = some true

instance (n : Nat) (l : List Nat) : Decidable (Fair n l) :=
  inferInstanceAs (Decidable (∀ k ≤ l.length, ∀ j < n, _))

instance (n : Nat) (oks : List Bool) : Decidable (Advances n oks) :=
  inferInstanceAs (Decidable (∀ i < _, _ → _))

@[simp] theorem length_turns (n p : Nat) (oks : List Bool) : (turns n p oks).length = oks.length := by
  induction oks generalizing p with
  | nil => rfl
  | cons ok rest ih => rw [turns, List.length_cons, List.length_cons, ih]

theorem turns_append (n p : Nat) (oks rest : List Bool) :
    turns n p (oks ++ rest) = turns n p oks ++ turns n (p + oks.count true) rest := by
  induction oks generalizing p with
  | nil => rfl
  | cons ok oks ih =>
      cases ok with
      | false => simpa [turns] using ih p
      | true => simpa [turns, Nat.add_comm 1, Nat.add_assoc] using ih (p + 1)

theorem turns_snoc (n p : Nat) (oks : List Bool) (ok : Bool) :
    turns n p (oks ++ [ok]) = turns n p oks ++ [(p + oks.count true) % n] :=
  turns_append n p oks [ok]

theorem getElem?_turns {i : Nat} (hi : i < oks.length) :
    (turns n p oks)[i]? = some ((p + (oks.take i).count true) % n) := by
  have hsplit : turns n p oks = turns n p (oks.take i) ++
      turns n (p + (oks.take i).count true) (oks.drop i) := by
    rw [← turns_append, List.take_append_drop]
  rw [hsplit, List.getElem?_append_right (by simp), length_turns, List.length_take_of_le hi.le,
    Nat.sub_self, List.drop_eq_getElem_cons hi]
  rfl

/-! ## One turn for everyone -/

theorem turns_all_true (n p k : Nat) :
    turns n p (List.replicate k true) = (List.range' p k).map (· % n) := by
  induction k generalizing p with
  | zero => rfl
  | succ k ih => rw [List.replicate_succ, turns, ih, List.range'_succ, List.map_cons, Bool.toNat_true]

/-- As many rounds as there are turns to take, with everyone's among them: nobody has two. -/
theorem nodup_of_covers {l : List Nat} (hlength : l.length = n) (hcovers : ∀ j < n, j ∈ l) :
    l.Nodup := by
  have hsub : Finset.range n ⊆ l.toFinset := by
    intro j hj
    exact List.mem_toFinset.mpr (hcovers j (Finset.mem_range.mp hj))
  have hcard : l.length ≤ l.toFinset.card := by
    rw [hlength, ← Finset.card_range n]
    exact Finset.card_le_card hsub
  exact Multiset.coe_nodup.mp
    (Multiset.toFinset_card_eq_card_iff_nodup.mp (le_antisymm (List.toFinset_card_le l) hcard))

/-- In `n` rounds everyone has a turn exactly when only the last may fail. -/
theorem covers_iff (hlength : oks.length = n) :
    (∀ j < n, j ∈ turns n p oks) ↔ ∀ i, i + 1 < n → oks[i]? = some true := by
  constructor
  · intro hcovers i hi
    have hnodup := nodup_of_covers (l := turns n p oks) (by simp [hlength]) hcovers
    cases hok : oks[i]? with
    | none =>
        have hle := List.getElem?_eq_none_iff.mp hok
        omega
    | some ok =>
        cases ok with
        | true => rfl
        | false =>
            -- the failing round and the next are the same one's turn
            exfalso
            have hget : (turns n p oks)[i]? = some ((p + (oks.take i).count true) % n) :=
              getElem?_turns (by omega)
            have hnext : (turns n p oks)[i + 1]? =
                some ((p + (oks.take (i + 1)).count true) % n) := getElem?_turns (by omega)
            have hcount : (oks.take (i + 1)).count true = (oks.take i).count true := by
              rw [List.take_add_one, hok, List.count_append]
              rfl
            rw [hcount, ← hget] at hnext
            have heq := (List.getElem?_inj (by simp; omega) hnodup).mp hnext
            omega
  · intro hok j hj
    obtain ⟨k, hk⟩ : ∃ k, n = k + 1 := ⟨n - 1, by omega⟩
    have hinit : oks.take k = List.replicate k true := by
      apply List.eq_replicate_iff.mpr
      refine ⟨List.length_take_of_le (by omega), ?_⟩
      intro b hb
      obtain ⟨i, hi, rfl⟩ := List.mem_iff_getElem.mp hb
      rw [List.length_take] at hi
      have hget := hok i (by omega)
      rw [List.getElem?_eq_getElem (by omega)] at hget
      rw [List.getElem_take]
      exact Option.some_inj.mp hget
    obtain ⟨last, hlast⟩ : ∃ last, oks = List.replicate k true ++ [last] := by
      rw [← hinit]
      have hlt : k < oks.length := by omega
      refine ⟨oks[k], ?_⟩
      rw [List.take_append_getElem hlt, List.take_of_length_le (by omega)]
    have hturns : turns n p oks = (List.range' p n).map (· % n) := by
      rw [hlast, turns_snoc, turns_all_true, List.count_replicate_self, hk, List.range'_concat,
        List.map_append]
      simp
    rw [hturns, List.mem_map]
    have himage : j ∈ (Finset.Ico p (p + n)).image (· % n) := by
      rw [Nat.image_Ico_mod]
      exact Finset.mem_range.mpr hj
    obtain ⟨i, hi, hmod⟩ := Finset.mem_image.mp himage
    refine ⟨i, ?_, hmod⟩
    rw [List.mem_range'_1]
    exact Finset.mem_Ico.mp hi

/-! ## Fairness -/

theorem fair_of_short {l : List Nat} (h : l.length < n) : Fair n l := by
  intro k hk j _
  rw [Nat.div_eq_of_lt (hk.trans_lt h)]
  exact Nat.zero_le _

/-- The first `n` turns are one for each, and the rest is fair. -/
theorem fair_append_iff {l l' : List Nat} (hlength : l.length = n) (hpos : 0 < n) :
    Fair n (l ++ l') ↔ (∀ j < n, j ∈ l) ∧ Fair n l' := by
  constructor
  · intro h
    have hcovers : ∀ j < n, j ∈ l := by
      intro j hj
      have hone := h n (by simp [hlength]) j hj
      rw [Nat.div_self hpos, List.take_append_of_le_length hlength.ge,
        List.take_of_length_le hlength.le] at hone
      exact List.count_pos_iff.mp hone
    refine ⟨hcovers, ?_⟩
    intro k hk j hj
    have hcount : l.count j = 1 :=
      List.count_eq_one_of_mem (nodup_of_covers hlength hcovers) (hcovers j hj)
    have hmore := h (n + k) (by simp [hlength, hk]) j hj
    rw [← hlength, List.take_length_add_append, List.count_append, hcount, hlength,
      Nat.add_div_left k hpos] at hmore
    omega
  · rintro ⟨hcovers, h⟩ k hk j hj
    by_cases hlt : k < n
    · rw [Nat.div_eq_of_lt hlt]
      exact Nat.zero_le _
    · obtain ⟨k, rfl⟩ := Nat.exists_eq_add_of_le (Nat.le_of_not_lt hlt)
      have hcount : 1 ≤ l.count j := List.count_pos_iff.mpr (hcovers j hj)
      have hrest := h k (by rw [List.length_append] at hk; omega) j hj
      have htake : (l ++ l').take (n + k) = l ++ l'.take k := by
        rw [← hlength, List.take_length_add_append]
      rw [htake, List.count_append, Nat.add_div_left k hpos]
      omega

theorem advances_append_iff (hlength : oks.length = n) (hpos : 0 < n) :
    Advances n (oks ++ rest) ↔ (∀ i, i + 1 < n → oks[i]? = some true) ∧ Advances n rest := by
  have hblocks : n * ((oks ++ rest).length / n) = n + n * (rest.length / n) := by
    rw [List.length_append, hlength, Nat.add_div_left _ hpos, Nat.mul_succ, Nat.add_comm]
  constructor
  · intro h
    constructor
    · intro i hi
      have hfirst := h i (by omega) (by rw [Nat.mod_eq_of_lt hi]; omega)
      rwa [List.getElem?_append_left (by omega)] at hfirst
    · intro i hi hmod
      have hlater := h (n + i) (by omega) (by rwa [Nat.add_assoc, Nat.add_mod_left])
      rwa [List.getElem?_append_right (by omega), hlength, Nat.add_sub_cancel_left] at hlater
  · rintro ⟨hfirst, hlater⟩ i hi hmod
    by_cases hlt : i < n
    · rw [List.getElem?_append_left (by omega)]
      apply hfirst
      by_contra hnot
      have heq : i + 1 = n := by omega
      rw [heq, Nat.mod_self] at hmod
      exact hmod rfl
    · obtain ⟨i, rfl⟩ := Nat.exists_eq_add_of_le (Nat.le_of_not_lt hlt)
      rw [List.getElem?_append_right (by omega), hlength, Nat.add_sub_cancel_left]
      apply hlater i (by omega)
      rwa [Nat.add_assoc, Nat.add_mod_left] at hmod

/-- Everyone has turns in time exactly when, of `n` rounds in a row, only the last fails. -/
theorem fair_iff_advances (n p : Nat) (oks : List Bool) :
    Fair n (turns n p oks) ↔ Advances n oks := by
  rcases Nat.eq_zero_or_pos n with rfl | hpos
  · refine iff_of_true ?_ ?_
    · intro k _ j hj
      cases hj
    · intro i hi
      rw [Nat.zero_mul] at hi
      cases hi
  · induction hsize : oks.length using Nat.strong_induction_on generalizing oks p with
    | _ size ih =>
        by_cases hshort : oks.length < n
        · refine iff_of_true (fair_of_short (by simpa using hshort)) ?_
          intro i hi
          rw [Nat.div_eq_of_lt hshort] at hi
          cases hi
        · have hle : n ≤ oks.length := Nat.le_of_not_lt hshort
          have hlength : (oks.take n).length = n := List.length_take_of_le hle
          rw [← List.take_append_drop n oks, turns_append,
            fair_append_iff (by rw [length_turns, hlength]) hpos, advances_append_iff hlength hpos,
            covers_iff hlength]
          refine and_congr_right fun _ => ?_
          exact ih (oks.drop n).length (by rw [List.length_drop]; omega) _ _ rfl

/-! ## A counter that wraps

The turn is the remainder of a counter that starts over at `m`. Where `n` does not divide
`m`, the order of the turns breaks at each such point.
-/

/-- Whose turn it is in round `i`. -/
def wrappedTurn (m n i : Nat) : Nat := i % m % n

/-- Whose turns the `n` rounds from `i` on are. -/
def wrappedTurns (m n i : Nat) : List Nat := (List.range n).map fun k => wrappedTurn m n (i + k)

theorem wrappedTurn_of_dvd {m : Nat} (h : n ∣ m) (i : Nat) : wrappedTurn m n i = i % n :=
  Nat.mod_mod_of_dvd i h

/-- Before the counter starts over. -/
theorem wrappedTurn_add_of_lt {m i k : Nat} (h : i % m + k < m) :
    wrappedTurn m n (i + k) = (i % m + k) % n := by
  have hk : k % m = k := Nat.mod_eq_of_lt (by omega)
  rw [wrappedTurn, Nat.add_mod, hk, Nat.mod_eq_of_lt h]

/-- From where the counter starts over. -/
theorem wrappedTurn_add_of_ge {m i k : Nat} (h : m ≤ i % m + k) (hk : i % m + k < m + m) :
    wrappedTurn m n (i + k) = (i % m + k - m) % n := by
  have hmod : (i + k) % m = i % m + k - m := by
    rw [← Nat.mod_add_mod, Nat.mod_eq_sub_mod h, Nat.mod_eq_of_lt (by omega)]
  rw [wrappedTurn, hmod]

theorem add_mod_injective {a j k : Nat} (hj : j < n) (hk : k < n)
    (h : (a + j) % n = (a + k) % n) : j = k := by
  have hmod : j ≡ k [MOD n] := Nat.ModEq.add_left_cancel' a h
  exact Nat.ModEq.eq_of_lt_of_lt hmod hj hk

theorem nodup_wrappedTurns_iff {m i : Nat} :
    (wrappedTurns m n i).Nodup ↔
      ∀ j < n, ∀ k < n, wrappedTurn m n (i + j) = wrappedTurn m n (i + k) → j = k := by
  rw [wrappedTurns, List.nodup_map_iff_inj_on List.nodup_range]
  simp only [List.mem_range]

/-- A break in `n` rounds gives somebody two turns, unless `n` divides `m`. -/
theorem dvd_of_break {m i : Nat} (hle : n ≤ m) (hbreak : m < i % m + n) (hin : i % m < m)
    (hinj : ∀ j < n, ∀ k < n, wrappedTurn m n (i + j) = wrappedTurn m n (i + k) → j = k) :
    n ∣ m := by
  -- `p` rounds before the break, and `n - p` from the turn of 0 on after it
  obtain ⟨p, hp⟩ : ∃ p, i % m + p = m := ⟨m - i % m, by omega⟩
  have hafter : ∀ k, k < n - p → wrappedTurn m n (i + (p + k)) = k := by
    intro k hk
    have hsub : i % m + (p + k) - m = k := by omega
    rw [wrappedTurn_add_of_ge (by omega) (by omega), hsub, Nat.mod_eq_of_lt (by omega)]
  have hbefore : ∀ t < p, wrappedTurn m n (i + (p - 1 - t)) = (m - 1 - t) % n := by
    intro t ht
    have hadd : i % m + (p - 1 - t) = m - 1 - t := by omega
    rw [wrappedTurn_add_of_lt (by omega), hadd]
  by_contra hnot
  have hpos : 0 < m % n := Nat.pos_of_ne_zero fun h => hnot (Nat.dvd_of_mod_eq_zero h)
  have hlast : ∀ t, t < m % n → (m - 1 - t) % n = m % n - 1 - t := by
    intro t ht
    have hsplit : m - 1 - t = (m % n - 1 - t) + n * (m / n) := by
      have hdiv := Nat.mod_add_div m n
      omega
    have hlt : m % n < n := Nat.mod_lt m (by omega)
    rw [hsplit, Nat.add_mul_mod_self_left, Nat.mod_eq_of_lt (by omega)]
  have hlt : m % n < n := Nat.mod_lt m (by omega)
  by_cases hsmall : m % n - 1 < n - p
  · -- the last turn before the break comes again after it
    have hagain := hbefore 0 (by omega)
    rw [Nat.sub_zero, hlast 0 hpos, Nat.sub_zero, ← hafter (m % n - 1) hsmall] at hagain
    have heq := hinj _ (by omega) _ (by omega) hagain
    omega
  · -- the last turn after the break was there before it
    obtain ⟨t, ht⟩ : ∃ t, m % n - 1 - t = n - p - 1 ∧ t < p ∧ t < m % n :=
      ⟨m % n - 1 - (n - p - 1), by omega⟩
    have hagain := hbefore t ht.2.1
    rw [hlast t ht.2.2, ht.1, ← hafter (n - p - 1) (by omega)] at hagain
    have heq := hinj _ (by omega) _ (by omega) hagain
    omega

/-- Any `n` rounds in a row are one turn for each exactly when the counter does not start
over among them, or it starts over at a multiple of `n`. -/
theorem nodup_wrappedTurns {m : Nat} (hpos : 0 < n) (hle : n ≤ m) (i : Nat) :
    (wrappedTurns m n i).Nodup ↔ i % m + n ≤ m ∨ n ∣ m := by
  have hin : i % m < m := Nat.mod_lt i (by omega)
  rw [nodup_wrappedTurns_iff]
  constructor
  · intro hinj
    by_cases hbreak : i % m + n ≤ m
    · exact .inl hbreak
    · exact .inr (dvd_of_break hle (by omega) hin hinj)
  · rintro (hfits | hdvd) j hj k hk h
    · rw [wrappedTurn_add_of_lt (by omega), wrappedTurn_add_of_lt (by omega)] at h
      exact add_mod_injective hj hk h
    · rw [wrappedTurn_of_dvd hdvd, wrappedTurn_of_dvd hdvd] at h
      exact add_mod_injective hj hk h

end RoundRobin
