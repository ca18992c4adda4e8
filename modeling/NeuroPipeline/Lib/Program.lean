-- SUMMARY: Programs that call their surroundings, with exceptions and cancellation, and rules for counting their calls.
import Mathlib.Data.List.Defs

/-!
# Programs that call their surroundings

A program either has ended or waits for the reply to a call. A reply is, like the
end of a program, a value, an exception or a cancellation, so that a handler is a
program that goes on after another one.

`Tallies T A Q n` says of a program that it makes exactly `n` of the calls in `T`
and ends as `Q` says, whatever the replies that `A` allows.
-/

universe u

inductive Reply (E : Type u) (α : Type u) where
  | returned (a : α)
  | raised (e : E)
  | cancelled

namespace Reply

variable {E α β : Type u}

/-- A cancellation is permitted only under `c`. -/
def Within (c : Prop) : Reply E α → Prop
  | .cancelled => c
  | _ => True

/-- Nothing was raised, and a cancellation is permitted only under `c`. -/
def Settled (c : Prop) : Reply E α → Prop
  | .returned _ => True
  | .raised _ => False
  | .cancelled => c

def Returned : Reply E α → Prop
  | .returned _ => True
  | _ => False

/-- The same end, where there is no value. -/
def orElse (f : α → Reply E β) : Reply E α → Reply E β
  | .returned a => f a
  | .raised e => .raised e
  | .cancelled => .cancelled

end Reply

/-- A program of calls `C`, replied to in `R`, that returns a value in `α`. -/
inductive Prog (C : Type u) (R : C → Type u) (E : Type u) (α : Type u) where
  | done (o : Reply E α)
  | call (c : C) (next : Reply E (R c) → Prog C R E α)

namespace Prog

variable {C : Type u} {R : C → Type u} {E α β : Type u}

def perform (c : C) : Prog C R E (R c) := .call c .done

/-- However `p` ends, go on with `f`; sequence and handlers are cases of it. -/
def resume (p : Prog C R E α) (f : Reply E α → Prog C R E β) : Prog C R E β :=
  match p with
  | .done o => f o
  | .call c next => .call c fun o => (next o).resume f

instance : Monad (Prog C R E) where
  pure a := .done (.returned a)
  bind p f := p.resume fun
    | .returned a => f a
    | .raised e => .done (.raised e)
    | .cancelled => .done .cancelled

/-- `try: p except Exception as e: handler(e)`; a cancellation is no exception. -/
def tryExcept (p : Prog C R E α) (handler : E → Prog C R E α) : Prog C R E α :=
  p.resume fun
    | .raised e => handler e
    | o => .done o

/-- `try: p finally: finalizer`; the end of `p` stands unless the finalizer fails. -/
def tryFinally (p : Prog C R E α) (finalizer : Prog C R E PUnit) : Prog C R E α :=
  p.resume fun o => finalizer.resume fun f => .done (f.orElse fun _ => o)

/-- A comprehension over `l`. -/
def collect (f : α → Prog C R E β) : List α → Prog C R E (List β)
  | [] => pure []
  | a :: l => do
    let b ← f a
    let bs ← collect f l
    return b :: bs

def each (f : α → Prog C R E PUnit) : List α → Prog C R E PUnit
  | [] => pure ⟨⟩
  | a :: l => do
    f a
    each f l

/-! ## Counting calls -/

inductive Tallies (T : C → Prop) (A : (c : C) → Reply E (R c) → Prop)
    (Q : Reply E α → Prop) : Nat → Prog C R E α → Prop where
  | done {o : Reply E α} : Q o → Tallies T A Q 0 (.done o)
  /-- whoever asks for the count sees to it that these calls return -/
  | tallied {c : C} {next : Reply E (R c) → Prog C R E α} {n : Nat} :
      T c → (∀ r, Tallies T A Q n (next (.returned r))) → Tallies T A Q (n + 1) (.call c next)
  | other {c : C} {next : Reply E (R c) → Prog C R E α} {n : Nat} :
      ¬ T c → (∀ o, A c o → Tallies T A Q n (next o)) → Tallies T A Q n (.call c next)

namespace Tallies

variable {T : C → Prop} {A : (c : C) → Reply E (R c) → Prop}
variable {Q Q' : Reply E α → Prop} {S : Reply E β → Prop} {m n : Nat}
variable {p : Prog C R E α} {f : α → Prog C R E β}

/-- The rule all others come from: how `p` ends decides what goes on. -/
theorem resume {g : Reply E α → Prog C R E β} (hp : Tallies T A Q n p)
    (hg : ∀ o, Q o → Tallies T A S m (g o)) : Tallies T A S (m + n) (p.resume g) := by
  induction hp with
  | done hQ => exact hg _ hQ
  | tallied hc _ ih => exact tallied hc ih
  | other hc _ ih => exact other hc ih

theorem mono (h : Tallies T A Q n p) (hQ : ∀ o, Q o → Q' o) : Tallies T A Q' n p := by
  induction h with
  | done hQ' => exact done (hQ _ hQ')
  | tallied hc _ ih => exact tallied hc ih
  | other hc _ ih => exact other hc ih

theorem pure {a : α} (h : Q (.returned a)) : Tallies T A Q 0 (Pure.pure a) :=
  done h

theorem perform {c : C} {Q : Reply E (R c) → Prop} (hc : ¬ T c) (h : ∀ o, A c o → Q o) :
    Tallies T A Q 0 (Prog.perform c) :=
  other hc fun o ho => done (h o ho)

/-- After a program that returns. -/
theorem bind (hp : Tallies T A Reply.Returned n p) (hf : ∀ a, Tallies T A S m (f a)) :
    Tallies T A S (m + n) (p >>= f) := by
  apply hp.resume
  intro o ho
  cases o with
  | returned a => exact hf a
  | raised e => exact ho.elim
  | cancelled => exact ho.elim

theorem tryExcept {handler : E → Prog C R E α} (hp : Tallies T A Q n p)
    (hkept : ∀ o, (∀ e, o ≠ .raised e) → Q o → Q' o)
    (hcaught : ∀ e, Q (.raised e) → Tallies T A Q' 0 (handler e)) :
    Tallies T A Q' n (p.tryExcept handler) := by
  rw [← Nat.zero_add n]
  apply hp.resume
  intro o ho
  cases o with
  | returned a => exact done (hkept _ (by simp) ho)
  | raised e => exact hcaught e ho
  | cancelled => exact done (hkept _ (by simp) ho)

/-- A finalizer that returns is run once, whichever way the program ends. -/
theorem tryFinally {finalizer : Prog C R E PUnit} (hp : Tallies T A Q n p)
    (hf : Tallies T A Reply.Returned m finalizer) :
    Tallies T A Q (m + n) (p.tryFinally finalizer) := by
  apply hp.resume
  intro o ho
  rw [← Nat.zero_add m]
  apply hf.resume
  intro r hr
  cases r with
  | returned _ => exact done ho
  | raised e => exact hr.elim
  | cancelled => exact hr.elim

end Tallies

/-! ## Code that makes none of the calls -/

/-- None of the calls in `T` is made, and the program is cancelled only under `c`. -/
def Silent (T : C → Prop) (A : (c : C) → Reply E (R c) → Prop) (c : Prop)
    (p : Prog C R E α) : Prop :=
  Tallies T A (Reply.Within c) 0 p

namespace Silent

variable {T : C → Prop} {A : (c : C) → Reply E (R c) → Prop} {c : Prop}
variable {p q : Prog C R E α} {f : α → Prog C R E β}

theorem pure {a : α} : Silent T A c (Pure.pure a) :=
  Tallies.pure trivial

theorem perform {x : C} (hx : ¬ T x) (h : ∀ o, A x o → o.Within c) :
    Silent T A c (Prog.perform x) :=
  Tallies.perform hx h

theorem bind (hp : Silent T A c p) (hf : ∀ a, Silent T A c (f a)) : Silent T A c (p >>= f) := by
  apply Tallies.resume hp
  intro o ho
  cases o with
  | returned a => exact hf a
  | raised e => exact .done trivial
  | cancelled => exact .done ho

theorem ite {P : Prop} [Decidable P] (hp : Silent T A c p) (hq : Silent T A c q) :
    Silent T A c (if P then p else q) := by
  split
  · exact hp
  · exact hq

theorem tryExcept {handler : E → Prog C R E α} (hp : Silent T A c p)
    (hh : ∀ e, Silent T A c (handler e)) : Silent T A c (p.tryExcept handler) :=
  Tallies.tryExcept hp (fun _ _ ho => ho) fun e _ => hh e

theorem tryFinally {finalizer : Prog C R E PUnit} (hp : Silent T A c p)
    (hf : Silent T A c finalizer) : Silent T A c (p.tryFinally finalizer) := by
  apply Tallies.resume hp
  intro o ho
  apply Tallies.resume hf
  intro r hr
  cases r with
  | returned _ => exact .done ho
  | raised e => exact .done trivial
  | cancelled => exact .done hr

theorem collect {l : List α} (h : ∀ a ∈ l, Silent T A c (f a)) :
    Silent T A c (Prog.collect f l) := by
  induction l with
  | nil => exact pure
  | cons a l ih =>
      obtain ⟨ha, hl⟩ := List.forall_mem_cons.mp h
      exact bind ha fun b => bind (ih hl) fun bs => pure

theorem each {f : α → Prog C R E PUnit} {l : List α} (h : ∀ a ∈ l, Silent T A c (f a)) :
    Silent T A c (Prog.each f l) := by
  induction l with
  | nil => exact pure
  | cons a l ih =>
      obtain ⟨ha, hl⟩ := List.forall_mem_cons.mp h
      exact bind ha fun _ => ih hl

end Silent

end Prog
