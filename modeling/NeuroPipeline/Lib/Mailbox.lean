-- SUMMARY: Bounded mailboxes that refuse what is offered while they are full: what is read of one, and exactly when nothing that was offered to it is lost.
import Mathlib.Data.List.Basic
import NeuroPipeline.Lib.TransitionSystem

/-!
# Bounded mailboxes

A queue of bounded length between one who offers and one who takes. An offer to a full
queue is lost. The record of what has been taken is kept with the queue.
-/

universe u

structure Mailbox (α : Type u) (capacity : Nat) where
  queue : List α := []
  taken : List α := []
  bounded : queue.length ≤ capacity := by exact Nat.zero_le _

inductive MailboxAct (α : Type u) where
  | offer (x : α)
  | take

namespace Mailbox

variable {α : Type u} {capacity : Nat}

def HasRoom (m : Mailbox α capacity) : Prop := m.queue.length < capacity

instance (m : Mailbox α capacity) : Decidable m.HasRoom :=
  inferInstanceAs (Decidable (_ < _))

def offer (m : Mailbox α capacity) (x : α) : Mailbox α capacity :=
  if h : m.HasRoom then
    { m with
      queue := m.queue ++ [x]
      bounded := by rw [List.length_append, List.length_singleton]; exact h }
  else m

def take (m : Mailbox α capacity) : Option (α × Mailbox α capacity) :=
  match h : m.queue with
  | [] => none
  | x :: rest =>
    have hrest : rest.length ≤ capacity := by
      have hbounded := m.bounded
      rw [h, List.length_cons] at hbounded
      exact Nat.le_of_succ_le hbounded
    some (x, { queue := rest, taken := m.taken ++ [x], bounded := hrest })

/-- Everything that has come into the mailbox, in order. -/
def heard (m : Mailbox α capacity) : List α := m.taken ++ m.queue

def system (α : Type u) (capacity : Nat) : TransitionSystem (Mailbox α capacity) (MailboxAct α) where
  init m := m = {}
  step m
    | .offer x => some (m.offer x)
    | .take => m.take.map Prod.snd

/-! ## Operations -/

variable {m m' : Mailbox α capacity} {x : α}

@[simp] theorem heard_empty : ({} : Mailbox α capacity).heard = [] := rfl

@[simp] theorem taken_offer (m : Mailbox α capacity) (x : α) : (m.offer x).taken = m.taken := by
  rw [offer]
  split <;> rfl

theorem queue_offer_of_hasRoom (h : m.HasRoom) (x : α) : (m.offer x).queue = m.queue ++ [x] := by
  rw [offer, dif_pos h]

theorem offer_of_full (h : ¬ m.HasRoom) (x : α) : m.offer x = m := dif_neg h

theorem heard_offer (m : Mailbox α capacity) (x : α) :
    (m.offer x).heard = if m.HasRoom then m.heard ++ [x] else m.heard := by
  split
  · next h => rw [heard, taken_offer, queue_offer_of_hasRoom h, ← List.append_assoc, heard]
  · next h => rw [offer_of_full h]

theorem take_eq_some (h : m.take = some (x, m')) :
    m.queue = x :: m'.queue ∧ m'.taken = m.taken ++ [x] := by
  rw [take] at h
  split at h
  · cases h
  · next hqueue =>
      obtain ⟨rfl, rfl⟩ := Prod.mk.inj (Option.some_inj.mp h)
      exact ⟨hqueue, rfl⟩

theorem heard_take (h : m.take = some (x, m')) : m'.heard = m.heard := by
  obtain ⟨hqueue, htaken⟩ := take_eq_some h
  rw [heard, heard, hqueue, htaken, List.append_assoc, List.singleton_append]

/-- Offers, one after the other. -/
theorem exec_offers (m : Mailbox α capacity) (xs : List α) :
    (system α capacity).exec m (xs.map .offer) = some (xs.foldl offer m) := by
  induction xs generalizing m with
  | nil => rfl
  | cons x xs ih => exact ih (m.offer x)

/-! ## Runs -/

/-- What is offered. -/
def offers (acts : List (MailboxAct α)) : List α :=
  acts.filterMap fun
    | .offer x => some x
    | .take => none

def takes (acts : List (MailboxAct α)) : Nat :=
  acts.countP fun
    | .offer _ => false
    | .take => true

/-- At no time is the taker behind by more than the mailbox holds. -/
def KeepsUp (capacity : Nat) (acts : List (MailboxAct α)) : Prop :=
  ∀ initial, initial <+: acts → (offers initial).length ≤ takes initial + capacity

@[simp] theorem offers_snoc_offer (acts : List (MailboxAct α)) (x : α) :
    offers (acts ++ [.offer x]) = offers acts ++ [x] := by
  simp [offers]

@[simp] theorem offers_snoc_take (acts : List (MailboxAct α)) :
    offers (acts ++ [.take]) = offers acts := by
  simp [offers]

@[simp] theorem takes_snoc_offer (acts : List (MailboxAct α)) (x : α) :
    takes (acts ++ [.offer x]) = takes acts := by
  simp [takes]

@[simp] theorem takes_snoc_take (acts : List (MailboxAct α)) :
    takes (acts ++ [.take]) = takes acts + 1 := by
  simp [takes]

@[simp] theorem offers_nil : offers ([] : List (MailboxAct α)) = [] := rfl

theorem offers_append (acts acts' : List (MailboxAct α)) :
    offers (acts ++ acts') = offers acts ++ offers acts' := List.filterMap_append

@[simp] theorem offers_map_offer (xs : List α) : offers (xs.map .offer) = xs := by
  induction xs with
  | nil => rfl
  | cons x xs ih => exact congrArg (x :: ·) ih

theorem keepsUp_snoc {acts : List (MailboxAct α)} {act : MailboxAct α} :
    KeepsUp capacity (acts ++ [act]) ↔ KeepsUp capacity acts ∧
      (offers (acts ++ [act])).length ≤ takes (acts ++ [act]) + capacity := by
  constructor
  · intro h
    exact ⟨fun initial hinitial => h initial (hinitial.trans (List.prefix_append _ _)),
      h _ (List.prefix_refl _)⟩
  · rintro ⟨hinit, hlast⟩ initial hinitial
    rcases List.prefix_concat_iff.mp hinitial with rfl | hinitial
    · exact hlast
    · exact hinit initial hinitial

/-- What can be said of a mailbox and all that has been done with it. -/
structure Account (t : List (Mailbox α capacity × MailboxAct α)) (m : Mailbox α capacity) :
    Prop where
  sublist : m.heard.Sublist (offers (t.map Prod.snd))
  taken : m.taken.length = takes (t.map Prod.snd)
  /-- nothing is lost unless the taker falls behind -/
  lossless : m.heard = offers (t.map Prod.snd) ↔ KeepsUp capacity (t.map Prod.snd)

variable {t : List (Mailbox α capacity × MailboxAct α)}

theorem Account.offered (h : Account t m) (x : α) : Account (t ++ [(m, .offer x)]) (m.offer x) := by
  have hlength : m.heard.length = takes (t.map Prod.snd) + m.queue.length := by
    rw [heard, List.length_append, h.taken]
  have hmap : (t ++ [(m, MailboxAct.offer x)]).map Prod.snd = t.map Prod.snd ++ [.offer x] := by
    simp
  constructor
  · rw [hmap, offers_snoc_offer, heard_offer]
    split
    · exact h.sublist.append (List.Sublist.refl [x])
    · exact h.sublist.trans (List.sublist_append_left _ _)
  · rw [hmap, takes_snoc_offer, taken_offer, h.taken]
  · rw [hmap, keepsUp_snoc, ← h.lossless, heard_offer, offers_snoc_offer, takes_snoc_offer,
      List.length_append, List.length_singleton]
    by_cases hroom : m.HasRoom
    · rw [if_pos hroom, List.append_left_inj]
      refine ⟨fun heq => ⟨heq, ?_⟩, And.left⟩
      rw [← heq, hlength]
      have hlt : m.queue.length < capacity := hroom
      omega
    · rw [if_neg hroom]
      constructor
      · intro heq
        have hle := h.sublist.length_le
        rw [heq, List.length_append, List.length_singleton] at hle
        omega
      · rintro ⟨heq, hle⟩
        rw [← heq, hlength] at hle
        have hfull : ¬ m.queue.length < capacity := hroom
        omega

theorem Account.took (h : Account t m) (htake : m.take = some (x, m')) :
    Account (t ++ [(m, .take)]) m' := by
  have hmap : (t ++ [(m, MailboxAct.take)]).map Prod.snd = t.map Prod.snd ++ [.take] := by simp
  constructor
  · rw [hmap, offers_snoc_take, heard_take htake]
    exact h.sublist
  · rw [hmap, takes_snoc_take, (take_eq_some htake).2, List.length_append, List.length_singleton,
      h.taken]
  · rw [hmap, keepsUp_snoc, ← h.lossless, heard_take htake, offers_snoc_take, takes_snoc_take]
    refine ⟨fun heq => ⟨heq, ?_⟩, And.left⟩
    have hlength : m.heard.length = takes (t.map Prod.snd) + m.queue.length := by
      rw [heard, List.length_append, h.taken]
    have hbounded := m.bounded
    rw [← heq, hlength]
    omega

/-- Whoever takes from the mailbox gets what was offered in its order, and all of it exactly
when he is never behind by more than the mailbox holds. -/
theorem run_account {m₀ : Mailbox α capacity} (hinit : (system α capacity).init m₀)
    (hrun : (system α capacity).Run m₀ t m) : Account t m := by
  obtain rfl : m₀ = {} := hinit
  refine hrun.invariant_history (I := Account) ?_ ⟨List.Sublist.refl [], rfl, ?_⟩
  · intro t m act m' h hs
    cases act with
    | offer x =>
        obtain rfl := Option.some_inj.mp hs
        exact h.offered x
    | take =>
        obtain ⟨⟨x, m''⟩, htake, rfl⟩ := Option.map_eq_some_iff.mp hs
        exact h.took htake
  · refine ⟨fun _ initial hinitial => ?_, fun _ => rfl⟩
    rw [List.prefix_nil.mp hinitial]
    exact Nat.zero_le _

end Mailbox
