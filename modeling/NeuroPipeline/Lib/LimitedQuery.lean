-- SUMMARY: Ordered queries with a limit: rows sorted by a key with ties in any order, the part of them that a limit leaves, and the last rows of a kind.
import Mathlib.Data.List.DropRight
import Mathlib.Data.List.Sort
import Mathlib.Order.OrderDual

/-!
# Limited queries

`ORDER BY key LIMIT n`: rows with equal keys come in any order. What such a query
should give is a part of the rows that comes before all the others, and that is
as large as the limit lets it be.
-/

universe u v

/-- One way to sort rows by a key. -/
structure OrderBy {α : Type u} {K : Type v} [LinearOrder K] (key : α → K) where
  sort : List α → List α
  perm : ∀ rows, (sort rows).Perm rows
  sorted : ∀ rows, (sort rows).Pairwise fun a b => key a ≤ key b

/-- `LIMIT n`, which a negative number does not limit. -/
def limited {α : Type u} (limit : Int) (rows : List α) : List α :=
  if limit < 0 then rows else rows.take limit.toNat

/-- `chosen` are `n` of the rows, or all when there are fewer, and nothing that is left
comes before any of them. -/
def Leading {α : Type u} {K : Type v} [LinearOrder K] (key : α → K) (n : Nat)
    (rows chosen : List α) : Prop :=
  chosen.length = min n rows.length ∧
    ∃ left, (chosen ++ left).Perm rows ∧ ∀ c ∈ chosen, ∀ r ∈ left, key c ≤ key r

section

variable {α : Type u} {K : Type v} [LinearOrder K] {key : α → K}

namespace OrderBy

/-- Insertion sort, for instance. -/
def insertion (key : α → K) : OrderBy key where
  sort rows := rows.insertionSort fun a b => key a ≤ key b
  perm rows := List.perm_insertionSort _ rows
  sorted rows := by
    have htotal : Std.Total fun a b : α => key a ≤ key b := ⟨fun a b => le_total (key a) (key b)⟩
    have htrans : IsTrans α fun a b => key a ≤ key b := ⟨fun _ _ _ => le_trans⟩
    exact List.pairwise_insertionSort _ rows

variable (order : OrderBy key)

@[simp] theorem length_sort (rows : List α) : (order.sort rows).length = rows.length :=
  (order.perm rows).length_eq

@[simp] theorem mem_sort {rows : List α} {a : α} : a ∈ order.sort rows ↔ a ∈ rows :=
  (order.perm rows).mem_iff

@[simp] theorem countP_sort (p : α → Bool) (rows : List α) :
    (order.sort rows).countP p = rows.countP p :=
  (order.perm rows).countP_eq p

end OrderBy

/-! ## Limits -/

section

variable {limit : Int} {rows : List α}

theorem limited_of_neg (h : limit < 0) : limited limit rows = rows := if_pos h

theorem limited_of_nonneg (h : 0 ≤ limit) : limited limit rows = rows.take limit.toNat :=
  if_neg (not_lt.mpr h)

theorem limited_initial (limit : Int) (rows : List α) : limited limit rows <+: rows := by
  rw [limited]
  split
  · exact List.prefix_refl rows
  · exact List.take_prefix _ rows

@[simp] theorem limited_natCast (n : Nat) (rows : List α) :
    limited (n : Int) rows = rows.take n := by
  rw [limited_of_nonneg (Int.natCast_nonneg n), Int.toNat_natCast]

end

/-! ## What leads -/

theorem Leading.congr {n : Nat} {rows rows' chosen : List α} (h : rows.Perm rows') :
    Leading key n rows chosen ↔ Leading key n rows' chosen := by
  have hleft : ∀ left, (chosen ++ left).Perm rows ↔ (chosen ++ left).Perm rows' :=
    fun _ => List.Perm.congr_right h _
  simp only [Leading, h.length_eq, hleft]

/-- A first part of sorted rows leads if it is as long as it should be. -/
theorem leading_iff_length {n : Nat} {rows chosen : List α}
    (hsorted : rows.Pairwise fun a b => key a ≤ key b) (hinitial : chosen <+: rows) :
    Leading key n rows chosen ↔ chosen.length = min n rows.length := by
  obtain ⟨left, rfl⟩ := hinitial
  refine ⟨And.left, fun hlength => ⟨hlength, left, List.Perm.refl _, ?_⟩⟩
  intro c hc r hr
  exact (List.pairwise_append.mp hsorted).2.2 c hc r hr

/-- Filtered after a limit and then cut to `m`: what leads among the filtered rows, if
the limit leaves enough of them. -/
theorem leading_filter_iff {n m : Nat} {rows chosen : List α} (p : α → Bool)
    (hsorted : rows.Pairwise fun a b => key a ≤ key b)
    (hchosen : chosen = ((rows.take n).filter p).take m) :
    Leading key m (rows.filter p) chosen ↔
      min m ((rows.take n).countP p) = min m (rows.countP p) := by
  have hinitial : chosen <+: rows.filter p := by
    rw [hchosen]
    exact ( List.take_prefix _ _).trans (( List.take_prefix n rows).filter p)
  rw [leading_iff_length (hsorted.filter p) hinitial, hchosen, List.length_take,
    List.countP_eq_length_filter, List.countP_eq_length_filter]

/-! ## The wrong end -/

open OrderDual (toDual)

/-- Sorted rows have one key if what comes behind the first of them does not come later. -/
theorem keys_eq_of_drop_le {n : Nat} {sorted : List α} (hn : 0 < n) (hcut : n < sorted.length)
    (hsorted : sorted.Pairwise fun a b => key a ≤ key b)
    (hdrop : ∀ a ∈ sorted.drop n, ∀ c ∈ sorted.take n, key a ≤ key c) :
    ∀ a ∈ sorted, ∀ b ∈ sorted, key a = key b := by
  have htake : ∀ c ∈ sorted.take n, ∀ a ∈ sorted.drop n, key c ≤ key a := by
    have hparts := hsorted
    rw [← List.take_append_drop n sorted] at hparts
    exact (List.pairwise_append.mp hparts).2.2
  obtain ⟨last, hlastmem⟩ : ∃ a, a ∈ sorted.drop n :=
    List.exists_mem_of_length_pos (by rw [List.length_drop]; omega)
  obtain ⟨first, hfirstmem⟩ : ∃ a, a ∈ sorted.take n :=
    List.exists_mem_of_length_pos (by rw [List.length_take]; omega)
  have hsame : ∀ a ∈ sorted, key a = key last := by
    intro a ha
    rw [← List.take_append_drop n sorted] at ha
    rcases List.mem_append.mp ha with hkept | hlost
    · exact le_antisymm (htake a hkept last hlastmem) (hdrop last hlastmem a hkept)
    · have hleast := htake first hfirstmem
      have hmost := fun b hb => hdrop b hb first hfirstmem
      exact le_antisymm ((hmost a hlost).trans (hleast last hlastmem))
        ((hmost last hlastmem).trans (hleast a hlost))
  exact fun a ha b hb => (hsame a ha).trans (hsame b hb).symm

/-- Rows that are sorted the other way, and of which the first are taken: they lead when
nothing is cut off, or when all keys are equal. `q` holds of a last part of the rows. -/
theorem leading_dual_iff {n : Nat} {rows sorted : List α} {q : α → Bool} (hn : 0 < n)
    (hperm : sorted.Perm (rows.filter q)) (hsorted : sorted.Pairwise fun a b => key a ≤ key b)
    (hlast : ∀ a ∈ rows, ∀ b ∈ rows, q a = true → q b = false → key b ≤ key a) :
    Leading (toDual ∘ key) n rows (sorted.take n) ↔
      min n rows.length ≤ sorted.length ∧
        (sorted.length ≤ n ∨ ∀ a ∈ sorted, ∀ b ∈ sorted, key a = key b) := by
  have hmem : ∀ {a}, a ∈ sorted ↔ a ∈ rows ∧ q a = true := fun {a} => by
    rw [hperm.mem_iff, List.mem_filter]
  have hrows : (sorted ++ rows.filter fun a => !q a).Perm rows :=
    (hperm.append_right _).trans (List.filter_append_perm q rows)
  have hlength : sorted.length ≤ rows.length := by
    rw [hperm.length_eq]
    exact List.length_filter_le q rows
  constructor
  · rintro ⟨hchosen, left, hleft, horder⟩
    rw [List.length_take] at hchosen
    refine ⟨by omega, ?_⟩
    rcases Nat.lt_or_ge n sorted.length with hcut | hall
    · right
      -- what is cut off is among the rows that are left
      have hcutoff : ((sorted.drop n) ++ rows.filter fun a => !q a).Perm left := by
        refine (List.perm_append_left_iff (sorted.take n)).mp ?_
        rw [← List.append_assoc, List.take_append_drop]
        exact hrows.trans hleft.symm
      have hdrop : ∀ a ∈ sorted.drop n, ∀ c ∈ sorted.take n, key a ≤ key c := fun a ha c hc =>
        horder c hc a (hcutoff.subset (List.mem_append_left _ ha))
      exact keys_eq_of_drop_le hn hcut hsorted hdrop
    · exact .inl hall
  · rintro ⟨henough, hkept⟩
    refine ⟨?_, sorted.drop n ++ rows.filter fun a => !q a, ?_, ?_⟩
    · rw [List.length_take]
      omega
    · rw [← List.append_assoc, List.take_append_drop]
      exact hrows
    · intro c hc r hr
      have hcmem : c ∈ sorted := List.mem_of_mem_take hc
      rcases List.mem_append.mp hr with hcut | hother
      · rcases hkept with hall | hequal
        · rw [List.drop_eq_nil_of_le hall] at hcut
          cases hcut
        · exact (hequal r (List.mem_of_mem_drop hcut) c hcmem).le
      · obtain ⟨hrrows, hrq⟩ := List.mem_filter.mp hother
        obtain ⟨hcrows, hcq⟩ := hmem.mp hcmem
        exact hlast c hcrows r hrrows hcq (by simpa using hrq)

end

/-! ## The last rows of a kind -/

section

variable {α : Type u} {p q : α → Bool} {n : Nat} {rows : List α} {a : α}

/-- A row with fewer than `n` rows of the kind behind it, so that the last `n` of them
do not settle yet whether it is taken. -/
def InReach (p : α → Bool) (n : Nat) (rows : List α) (a : α) : Prop :=
  ∃ before after, rows = before ++ a :: after ∧ after.countP p < n

@[simp] theorem not_inReach_nil : ¬InReach p n [] a := by
  rintro ⟨before, after, h, -⟩
  exact absurd h (by simp)

theorem InReach.mem (h : InReach p n rows a) : a ∈ rows := by
  obtain ⟨before, after, rfl, -⟩ := h
  exact List.mem_append_right before List.mem_cons_self

theorem inReach_concat {b : α} :
    InReach p n (rows ++ [b]) a ↔
      (0 < n ∧ a = b) ∨ InReach p (n - if p b = true then 1 else 0) rows a := by
  constructor
  · rintro ⟨before, after, h, hafter⟩
    -- the row is the new one, or it is before that
    rcases List.eq_nil_or_concat after with rfl | ⟨after, c, rfl⟩
    · obtain ⟨-, hba⟩ := List.append_inj' h rfl
      exact .inl ⟨by simpa using hafter, (List.singleton_inj.mp hba).symm⟩
    · rw [List.concat_eq_append, ← List.cons_append, ← List.append_assoc] at h
      obtain ⟨rfl, hbc⟩ := List.append_inj' h rfl
      rw [List.concat_eq_append, List.countP_append, List.countP_singleton,
        ← List.singleton_inj.mp hbc] at hafter
      exact .inr ⟨before, after, rfl, by omega⟩
  · rintro (⟨hn, rfl⟩ | ⟨before, after, rfl, hafter⟩)
    · exact ⟨rows, [], rfl, by simpa using hn⟩
    · refine ⟨before, after ++ [b], by simp, ?_⟩
      rw [List.countP_append, List.countP_singleton]
      omega

theorem rtake_filter_ne_concat {m : Nat} {other : List α} {b : α} (hb : p b = false) :
    (rows.filter p).rtake m ≠ other ++ [b] := by
  intro h
  have hlast : b ∈ (rows.filter p).rtake m := by simp [h]
  have hmem : b ∈ rows.filter p := List.mem_of_mem_drop hlast
  simp [hb] at hmem

/-- The last rows of two kinds are the same if no row in reach is of one kind only. -/
theorem rtake_filter_eq_iff :
    (rows.filter p).rtake n = (rows.filter q).rtake n ↔
      ∀ a, InReach p n rows a → p a = q a := by
  induction rows using List.reverseRecOn generalizing n with
  | nil => simp
  | append_singleton rows b ih =>
    simp only [inReach_concat, List.filter_append, List.filter_singleton]
    cases n with
    | zero => simp [InReach]
    | succ n =>
      have hlast : (∀ a, (0 < n + 1 ∧ a = b) ∨
            InReach p (n + 1 - if p b = true then 1 else 0) rows a → p a = q a) ↔
          p b = q b ∧
            ∀ a, InReach p (n + 1 - if p b = true then 1 else 0) rows a → p a = q a :=
        ⟨fun h => ⟨h b (.inl ⟨n.succ_pos, rfl⟩), fun a ha => h a (.inr ha)⟩,
          fun h a => Or.rec (fun hb => hb.2 ▸ h.1) (h.2 a)⟩
      rw [hlast, ← ih]
      -- if `b` is of one kind only, it is the last row of just one of the two
      cases hp : p b <;> cases hq : q b
      · simp
      · simp [List.rtake_concat_succ, rtake_filter_ne_concat hp]
      · simp [List.rtake_concat_succ, (rtake_filter_ne_concat hq).symm]
      · simp [List.rtake_concat_succ]

end
