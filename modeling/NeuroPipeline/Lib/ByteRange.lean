-- SUMMARY: Ranges of addresses: when they are disjoint, how many fit into a larger one, and rounding up to an alignment.
import Mathlib.Data.Nat.Bitwise
import Mathlib.Order.CompletePartialOrder
import Mathlib.Order.Interval.Finset.Nat
import Mathlib.Order.Interval.Set.Disjoint

/-!
# Byte ranges

Addresses are natural numbers. The mask that programs round up with is that of a 64-bit
word. A range from a word on starts over at 0 where the words do.
-/

/-- The addresses of `length` bytes from `start` on. -/
def bytes (start length : Nat) : Finset Nat := Finset.Ico start (start + length)

namespace ByteRange

/-! ## Disjoint ranges -/

@[simp] theorem card_bytes (start length : Nat) : (bytes start length).card = length := by
  rw [bytes, Nat.card_Ico, Nat.add_sub_cancel_left]

theorem disjoint_bytes_iff {p q n : Nat} :
    Disjoint (bytes p n) (bytes q n) ↔ n = 0 ∨ p + n ≤ q ∨ q + n ≤ p := by
  rw [bytes, bytes, ← Finset.disjoint_coe, Finset.coe_Ico, Finset.coe_Ico, Set.Ico_disjoint_Ico]
  omega

theorem bytes_subset {p n lo hi : Nat} (hlo : lo ≤ p) (hhi : p + n ≤ hi) :
    bytes p n ⊆ Finset.Ico lo hi :=
  Finset.Ico_subset_Ico hlo hhi

/-- Disjoint ranges of one length need as many bytes as they have together. -/
theorem length_mul_le {starts : List Nat} {n lo hi : Nat}
    (hdisjoint : starts.Pairwise fun p q => Disjoint (bytes p n) (bytes q n))
    (hinside : ∀ p ∈ starts, lo ≤ p ∧ p + n ≤ hi) : starts.length * n ≤ hi - lo := by
  have hunion : ∃ S : Finset Nat, S.card = starts.length * n ∧ S ⊆ Finset.Ico lo hi ∧
      ∀ x ∈ S, ∃ p ∈ starts, x ∈ bytes p n := by
    induction starts with
    | nil => exact ⟨∅, by simp, Finset.empty_subset _, by simp⟩
    | cons p rest ih =>
        obtain ⟨hfirst, hrest⟩ := List.pairwise_cons.mp hdisjoint
        obtain ⟨S, hcard, hsub, hcover⟩ :=
          ih hrest fun q hq => hinside q (List.mem_cons_of_mem _ hq)
        obtain ⟨hlo, hhi⟩ := hinside p List.mem_cons_self
        have hapart : Disjoint (bytes p n) S := by
          refine Finset.disjoint_left.mpr fun x hx hxS => ?_
          obtain ⟨q, hq, hxq⟩ := hcover x hxS
          exact Finset.disjoint_left.mp (hfirst q hq) hx hxq
        refine ⟨bytes p n ∪ S, ?_, Finset.union_subset (bytes_subset hlo hhi) hsub, ?_⟩
        · rw [Finset.card_union_of_disjoint hapart, card_bytes, hcard, List.length_cons,
            Nat.succ_mul, Nat.add_comm]
        · intro x hx
          rcases Finset.mem_union.mp hx with hxp | hxS
          · exact ⟨p, List.mem_cons_self, hxp⟩
          · obtain ⟨q, hq, hxq⟩ := hcover x hxS
            exact ⟨q, List.mem_cons_of_mem _ hq, hxq⟩
  obtain ⟨S, hcard, hsub, -⟩ := hunion
  rw [← hcard, ← Nat.card_Ico]
  exact Finset.card_le_card hsub

/-! ## Rounding up -/

/-- The next multiple of `a` that is not below `x`. -/
def alignUp (a x : Nat) : Nat := (x + a - 1) / a * a

variable {a x y : Nat}

theorem dvd_alignUp (a x : Nat) : a ∣ alignUp a x := Nat.dvd_mul_left _ _

theorem le_alignUp (ha : 0 < a) (x : Nat) : x ≤ alignUp a x := by
  have hdiv := Nat.div_add_mod' (x + a - 1) a
  have hmod := Nat.mod_lt (x + a - 1) ha
  rw [alignUp]
  omega

theorem alignUp_le (ha : 0 < a) (hdvd : a ∣ y) (h : x ≤ y) : alignUp a x ≤ y := by
  obtain ⟨n, rfl⟩ := hdvd
  have hlt : (x + a - 1) / a < n + 1 := by
    rw [Nat.div_lt_iff_lt_mul ha, Nat.succ_mul, Nat.mul_comm n]
    omega
  calc alignUp a x ≤ n * a := Nat.mul_le_mul_right a (Nat.le_of_lt_succ hlt)
    _ = a * n := Nat.mul_comm _ _

theorem alignUp_eq_self_iff (ha : 0 < a) : alignUp a x = x ↔ a ∣ x := by
  constructor
  · intro h
    exact h ▸ dvd_alignUp a x
  · intro h
    exact le_antisymm (alignUp_le ha h le_rfl) (le_alignUp ha x)

/-- How far it is to the next multiple. -/
theorem alignUp_eq_add (ha : 0 < a) (x : Nat) : alignUp a x = x + (a - x % a) % a := by
  have hmod := Nat.mod_lt x ha
  have hpad : (a - x % a) % a < a := Nat.mod_lt _ ha
  have hdvd : a ∣ x + (a - x % a) % a := by
    rcases Nat.eq_zero_or_pos (x % a) with hzero | hpos
    · rw [hzero, Nat.sub_zero, Nat.mod_self]
      exact Nat.dvd_of_mod_eq_zero hzero
    · rw [Nat.mod_eq_of_lt (by omega : a - x % a < a)]
      have hquot := Nat.div_add_mod x a
      exact ⟨x / a + 1, by rw [Nat.mul_add, Nat.mul_one]; omega⟩
  have hle := alignUp_le ha hdvd (Nat.le_add_right _ _)
  have hge := le_alignUp ha x
  have hgap := Nat.dvd_sub hdvd (dvd_alignUp a x)
  have hzero := Nat.eq_zero_of_dvd_of_lt hgap (by omega)
  omega

/-! ## The mask -/

/-- The low bits of a 64-bit word are cleared. -/
theorem and_high_mask {k : Nat} (hx : x < 2 ^ 64) (hk : k < 64) :
    x &&& (2 ^ 64 - 1 - (2 ^ k - 1)) = x / 2 ^ k * 2 ^ k := by
  have hlow : 2 ^ k - 1 < 2 ^ 64 :=
    (Nat.sub_le _ _).trans_lt (Nat.pow_lt_pow_right (by decide) hk)
  have hmask : 2 ^ 64 - 1 - (2 ^ k - 1) = 2 ^ 64 - ((2 ^ k - 1) + 1) := by omega
  refine Nat.eq_of_testBit_eq fun i => ?_
  rw [Nat.testBit_and, hmask, Nat.testBit_two_pow_sub_succ hlow, Nat.testBit_two_pow_sub_one,
    ← Nat.shiftRight_eq_div_pow, ← Nat.shiftLeft_eq, Nat.testBit_shiftLeft, Nat.testBit_shiftRight]
  by_cases hik : i < k
  · simp [hik]
  · have hindex : k + (i - k) = i := by omega
    by_cases hi : i < 64
    · simp [hik, hi, hindex, Nat.not_lt.mp hik]
    · have hzero : x.testBit i = false :=
        Nat.testBit_lt_two_pow (hx.trans_le (Nat.pow_le_pow_right (by decide) (Nat.not_lt.mp hi)))
      simp [hi, hindex, hzero]

/-- The mask and the word that it is applied to, where neither wraps. -/
theorem toNat_mask_operands {addr align : UInt64} (hpos : 0 < align.toNat)
    (hroom : addr.toNat + align.toNat ≤ 2 ^ 64) :
    (align - 1).toNat = align.toNat - 1 ∧
      (addr + align - 1).toNat = addr.toNat + align.toNat - 1 := by
  have hbound := align.toNat_lt
  rw [UInt64.toNat_sub, UInt64.toNat_sub, UInt64.toNat_add, UInt64.toNat_one]
  omega

/-- Rounding up as it is written with a mask. -/
theorem toNat_mask {addr align : UInt64} {k : Nat} (hk : k < 64) (halign : align.toNat = 2 ^ k)
    (hroom : addr.toNat + align.toNat ≤ 2 ^ 64) :
    ((addr + align - 1) &&& ~~~(align - 1)).toNat = alignUp align.toNat addr.toNat := by
  have hbound := align.toNat_lt
  obtain ⟨hone, hsum⟩ := toNat_mask_operands (halign ▸ Nat.two_pow_pos k) hroom
  rw [UInt64.toNat_and, UInt64.toNat_not, hone, hsum, alignUp, halign]
  exact and_high_mask (by omega) hk

/-- A word is what a mask leaves of it and what it takes away. -/
theorem toNat_and_not_add (x m : UInt64) : (x &&& ~~~m).toNat + (x &&& m).toNat = x.toNat := by
  have hapart : (x.toBitVec &&& ~~~m.toBitVec) &&& (x.toBitVec &&& m.toBitVec) = 0#64 := by
    ext i
    simp only [BitVec.getElem_and, BitVec.getElem_not, BitVec.getElem_zero]
    grind
  have hboth : (x.toBitVec &&& ~~~m.toBitVec) ||| (x.toBitVec &&& m.toBitVec) = x.toBitVec := by
    ext i
    simp only [BitVec.getElem_or, BitVec.getElem_and, BitVec.getElem_not]
    grind
  have hadd := BitVec.toNat_add_of_and_eq_zero hapart
  rw [BitVec.add_eq_or_of_and_eq_zero _ _ hapart, hboth] at hadd
  exact hadd.symm

/-- Whatever the alignment is, the mask does not lead below the address. -/
theorem mask_bounds {addr align : UInt64} (hpos : 0 < align.toNat)
    (hroom : addr.toNat + align.toNat ≤ 2 ^ 64) :
    addr.toNat ≤ ((addr + align - 1) &&& ~~~(align - 1)).toNat ∧
      ((addr + align - 1) &&& ~~~(align - 1)).toNat < addr.toNat + align.toNat := by
  obtain ⟨hone, hsum⟩ := toNat_mask_operands hpos hroom
  have hsplit := toNat_and_not_add (addr + align - 1) (align - 1)
  have hlow : ((addr + align - 1) &&& (align - 1)).toNat ≤ (align - 1).toNat := by
    rw [UInt64.toNat_and]
    exact Nat.and_le_right
  omega

/-! ## Ranges of words -/

/-- The addresses of `length` bytes from a word on. -/
def words (start : UInt64) (length : Nat) : Set UInt64 := {a | (a - start).toNat < length}

section

variable {p q a : UInt64} {m n : Nat}

theorem mem_words : a ∈ words p m ↔ (a - p).toNat < m := Iff.rfl

theorem start_mem_words (hm : 0 < m) : p ∈ words p m := by
  rwa [mem_words, UInt64.sub_self]

/-- Seen from one range, the other starts behind its end, and ends before it comes round. -/
theorem disjoint_words_iff (hm : 0 < m) (hn : 0 < n) :
    Disjoint (words p m) (words q n) ↔ m ≤ (q - p).toNat ∧ (q - p).toNat + n ≤ 2 ^ 64 := by
  have hp := p.toNat_lt
  have hq := q.toNat_lt
  have hdist : (q - p).toNat = (2 ^ 64 - p.toNat + q.toNat) % 2 ^ 64 := UInt64.toNat_sub q p
  have hback : (p - q).toNat = (2 ^ 64 - q.toNat + p.toNat) % 2 ^ 64 := UInt64.toNat_sub p q
  rw [Set.disjoint_left]
  constructor
  · intro h
    have hbehind : ¬(q - p).toNat < m := fun hlt => h (mem_words.mpr hlt) (start_mem_words hn)
    have hround : ¬(p - q).toNat < n := fun hlt => h (start_mem_words hm) (mem_words.mpr hlt)
    omega
  · rintro ⟨hbehind, hround⟩ a hap haq
    rw [mem_words, UInt64.toNat_sub] at hap haq
    have ha := a.toNat_lt
    omega

end

end ByteRange
