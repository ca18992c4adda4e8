-- SUMMARY: Counted loops whose body can fail: what they compute, and exactly when none of their steps fails.
import Mathlib.Algebra.Group.Nat.Defs
import Mathlib.Data.Option.Basic
import Mathlib.Order.Nat

/-!
# Counted loops

`for (i = start; cond(i); i = next(i)) body` over a counter of any type. The body can fail,
as an access outside a buffer does.
-/

universe u v

/-- The counter and the state after the loop. They are missing where the body fails, and
where the condition holds more often than there is `fuel`. -/
def forLoop {ι : Type u} {S : Type v} (cond : ι → Bool) (next : ι → ι) (body : ι → S → Option S) :
    Nat → ι → S → Option (ι × S)
  | 0, _, _ => none
  | fuel + 1, i, s =>
    if cond i then (body i s).bind (forLoop cond next body fuel (next i)) else some (i, s)

/-! ## When a computation succeeds -/

/-- The computation succeeds exactly where `p` holds, and then with a result that has `Q`. -/
structure SucceedsIff {S : Type u} (p : Prop) (Q : S → Prop) (r : Option S) : Prop where
  isSome : r.isSome ↔ p
  holds : ∀ s ∈ r, Q s

namespace SucceedsIff

variable {S : Type u} {T : Type v} {p p' : Prop} {Q : S → Prop} {R : T → Prop} {r : Option S}

theorem some {s : S} (hs : Q s) : SucceedsIff True Q (some s) where
  isSome := iff_of_true rfl trivial
  holds _ h := Option.mem_some_iff.mp h ▸ hs

theorem of_iff (h : SucceedsIff p Q r) (hp : p ↔ p') : SucceedsIff p' Q r :=
  ⟨h.isSome.trans hp, h.holds⟩

theorem exists_eq_some (h : SucceedsIff p Q r) (hp : p) : ∃ s, r = Option.some s ∧ Q s := by
  obtain ⟨s, hs⟩ := Option.isSome_iff_exists.mp (h.isSome.mpr hp)
  exact ⟨s, hs, h.holds s hs⟩

/-- The second computation is made where the first succeeds. -/
theorem bind_of_imp {f : S → Option T} (h : SucceedsIff p Q r)
    (hf : p → ∀ s, Q s → SucceedsIff p' R (f s)) : SucceedsIff (p ∧ p') R (r.bind f) := by
  cases r with
  | none =>
    have hp : ¬p := fun hp => nomatch h.isSome.mpr hp
    exact ⟨iff_of_false nofun fun hboth => hp hboth.1, nofun⟩
  | some s =>
    have hp : p := h.isSome.mp rfl
    have hrest := hf hp s (h.holds s rfl)
    exact ⟨hrest.isSome.trans (and_iff_right hp).symm, hrest.holds⟩

theorem bind {f : S → Option T} (h : SucceedsIff p Q r)
    (hf : ∀ s, Q s → SucceedsIff p' R (f s)) : SucceedsIff (p ∧ p') R (r.bind f) :=
  h.bind_of_imp fun _ => hf

theorem map {f : S → T} (h : SucceedsIff p Q r) (hf : ∀ s, Q s → R (f s)) :
    SucceedsIff p R (r.map f) := by
  constructor
  · rw [Option.isSome_map]
    exact h.isSome
  · intro t ht
    obtain ⟨s, hs, rfl⟩ := Option.map_eq_some_iff.mp ht
    exact hf s (h.holds s hs)

end SucceedsIff

/-! ## Counters -/

/-- The values of the counter, the last of which is the first to fail the condition. -/
structure Counts {ι : Type u} (cond : ι → Bool) (next : ι → ι) (index : Nat → ι) (n : Nat) :
    Prop where
  holds : ∀ k < n, cond (index k)
  ends : ¬cond (index n)
  succ : ∀ k < n, next (index k) = index (k + 1)

namespace Counts

variable {ι : Type u} {S : Type v} {cond : ι → Bool} {next : ι → ι} {index : Nat → ι}
  {n fuel : Nat} {body : ι → S → Option S}

theorem tail (h : Counts cond next index (n + 1)) :
    Counts cond next (fun k => index (k + 1)) n where
  holds k hk := h.holds (k + 1) (Nat.succ_lt_succ hk)
  ends := h.ends
  succ k hk := h.succ (k + 1) (Nat.succ_lt_succ hk)

theorem forLoop_zero (h : Counts cond next index 0) (hfuel : 0 < fuel) (s : S) :
    forLoop cond next body fuel (index 0) s = some (index 0, s) := by
  obtain ⟨fuel, rfl⟩ := Nat.exists_eq_succ_of_ne_zero hfuel.ne'
  rw [forLoop, if_neg h.ends]

theorem forLoop_succ (h : Counts cond next index (n + 1)) (s : S) :
    forLoop cond next body (fuel + 1) (index 0) s =
      (body (index 0) s).bind (forLoop cond next body fuel (index 1)) := by
  rw [forLoop, if_pos (h.holds 0 (Nat.succ_pos n)), h.succ 0 (Nat.succ_pos n)]

/-- A loop that goes through given states. -/
theorem forLoop_eq (h : Counts cond next index n) (hfuel : n < fuel) (state : Nat → S)
    (hbody : ∀ k < n, body (index k) (state k) = some (state (k + 1))) :
    forLoop cond next body fuel (index 0) (state 0) = some (index n, state n) := by
  induction n generalizing index state fuel with
  | zero => exact h.forLoop_zero hfuel _
  | succ n ih =>
    obtain ⟨fuel, rfl⟩ := Nat.exists_eq_succ_of_ne_zero (Nat.ne_zero_of_lt hfuel)
    rw [h.forLoop_succ, hbody 0 (Nat.succ_pos n)]
    -- what is left is a loop whose counter starts one step later
    exact ih h.tail (Nat.lt_of_succ_lt_succ hfuel) (fun k => state (k + 1))
      fun k hk => hbody (k + 1) (Nat.succ_lt_succ hk)

/-- A loop whose steps succeed or fail whatever the state is, as long as the invariant holds. -/
theorem succeedsIff (h : Counts cond next index n) (hfuel : n < fuel) {p : Nat → Prop}
    {Inv : S → Prop}
    (hbody : ∀ k < n, ∀ s, Inv s → SucceedsIff (p k) Inv (body (index k) s)) {s : S} (hs : Inv s) :
    SucceedsIff (∀ k < n, p k) (fun r => r.1 = index n ∧ Inv r.2)
      (forLoop cond next body fuel (index 0) s) := by
  induction n generalizing index p fuel s with
  | zero =>
    rw [h.forLoop_zero hfuel]
    exact (SucceedsIff.some ⟨rfl, hs⟩).of_iff (iff_of_true trivial nofun)
  | succ n ih =>
    obtain ⟨fuel, rfl⟩ := Nat.exists_eq_succ_of_ne_zero (Nat.ne_zero_of_lt hfuel)
    rw [h.forLoop_succ]
    refine ((hbody 0 (Nat.succ_pos n) s hs).bind fun s' hs' =>
      ih h.tail (Nat.lt_of_succ_lt_succ hfuel) (p := fun k => p (k + 1))
        (fun k hk => hbody (k + 1) (Nat.succ_lt_succ hk)) hs').of_iff ?_
    exact Nat.forall_lt_succ_left.symm

end Counts

/-! ## Counters of machine words -/

namespace UInt32

variable {S : Type u} {n : UInt32}

/-- `for (uint32_t i = 0; i < n; ++i) body`. -/
def forBelow (n : UInt32) (body : UInt32 → S → Option S) (s : S) : Option S :=
  (forLoop (fun i => i < n) (· + 1) body (n.toNat + 1) 0 s).map Prod.snd

theorem counts_below (n : UInt32) :
    Counts (fun i => decide (i < n)) (· + 1) (fun k => UInt32.ofNat k) n.toNat where
  holds k hk := by
    rw [decide_eq_true_iff, UInt32.lt_iff_toNat_lt, UInt32.toNat_ofNat_of_lt' (hk.trans n.toNat_lt)]
    exact hk
  ends := by
    rw [decide_eq_true_iff, UInt32.ofNat_toNat]
    exact UInt32.lt_irrefl n
  succ k _ := (UInt32.ofNat_add k 1).symm

theorem succeedsIff_forBelow {p : UInt32 → Prop} {Inv : S → Prop}
    {body : UInt32 → S → Option S}
    (hbody : ∀ i < n, ∀ s, Inv s → SucceedsIff (p i) Inv (body i s)) {s : S} (hs : Inv s) :
    SucceedsIff (∀ i < n, p i) Inv (forBelow n body s) := by
  have hindex : ∀ k < n.toNat, UInt32.ofNat k < n := fun k hk =>
    of_decide_eq_true ((counts_below n).holds k hk)
  have hloop := (counts_below n).succeedsIff (Nat.lt_succ_self _)
    (fun k hk => hbody (UInt32.ofNat k) (hindex k hk)) hs
  refine (hloop.map fun r hr => hr.2).of_iff ⟨fun hall i hi => ?_, fun hall k hk => ?_⟩
  · simpa using hall i.toNat (UInt32.lt_iff_toNat_lt.mp hi)
  · exact hall _ (hindex k hk)

/-- A loop that goes through given states. -/
theorem forBelow_eq {body : UInt32 → S → Option S} (state : Nat → S)
    (hbody : ∀ i < n, body i (state i.toNat) = some (state (i.toNat + 1))) :
    forBelow n body (state 0) = some (state n.toNat) := by
  have hindex : ∀ k < n.toNat, body (UInt32.ofNat k) (state k) = some (state (k + 1)) := by
    intro k hk
    have hlt : UInt32.ofNat k < n := of_decide_eq_true ((counts_below n).holds k hk)
    have htoNat : (UInt32.ofNat k).toNat = k := UInt32.toNat_ofNat_of_lt' (hk.trans n.toNat_lt)
    simpa only [htoNat] using hbody _ hlt
  exact congrArg (Option.map Prod.snd)
    ((counts_below n).forLoop_eq (Nat.lt_succ_self _) state hindex)

end UInt32

namespace UInt64

variable {n d : UInt64}

/-- A counter that a step moves on by one. -/
theorem counts_below {start : Nat} (hstart : start ≤ n.toNat) :
    Counts (fun i => decide (i < n)) (· + 1) (fun k => UInt64.ofNat (start + k))
      (n.toNat - start) where
  holds k hk := by
    have hlt : start + k < n.toNat := Nat.add_lt_of_lt_sub' hk
    rw [decide_eq_true_iff, UInt64.lt_iff_toNat_lt,
      UInt64.toNat_ofNat_of_lt' (hlt.trans n.toNat_lt)]
    exact hlt
  ends := by
    rw [decide_eq_true_iff, Nat.add_sub_cancel' hstart, UInt64.ofNat_toNat]
    exact UInt64.lt_irrefl n
  succ k _ := (UInt64.ofNat_add (start + k) 1).symm

/-- A counter that moves on by whole blocks, as long as another block fits. -/
theorem counts_blocks (hd : 0 < d.toNat) (hfits : n.toNat + d.toNat < 2 ^ 64) :
    Counts (fun i => decide (i + d ≤ n)) (· + d) (fun k => UInt64.ofNat (d.toNat * k))
      (n.toNat / d.toNat) := by
  have hle : d.toNat * (n.toNat / d.toNat) ≤ n.toNat := Nat.mul_div_le _ _
  have hnext : ∀ k, UInt64.ofNat (d.toNat * k) + d = UInt64.ofNat (d.toNat * (k + 1)) := by
    intro k
    rw [Nat.mul_succ, UInt64.ofNat_add, UInt64.ofNat_toNat]
  have hbound : ∀ k ≤ n.toNat / d.toNat,
      (UInt64.ofNat (d.toNat * (k + 1))).toNat = d.toNat * (k + 1) := by
    intro k hk
    have hblock := Nat.mul_le_mul_left d.toNat hk
    exact UInt64.toNat_ofNat_of_lt' (by rw [Nat.mul_succ, UInt64.size]; omega)
  refine ⟨fun k hk => ?_, ?_, fun k _ => hnext k⟩
  · rw [hnext, decide_eq_true_iff, UInt64.le_iff_toNat_le, hbound k hk.le]
    exact (Nat.mul_le_mul_left _ hk).trans hle
  · rw [hnext, decide_eq_true_iff, UInt64.le_iff_toNat_le, hbound _ le_rfl, Nat.not_le]
    exact Nat.lt_mul_div_succ _ hd

end UInt64
