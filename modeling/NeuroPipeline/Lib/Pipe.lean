-- SUMMARY: Pipes: what is sent into one comes out at the other end in its order, also where several are filled one after the other.
import Mathlib.Data.List.ModifyLast
import NeuroPipeline.Lib.Custody

/-!
# Pipes

A first-in first-out connection. What has been sent into it is received or under way. A sender
that opens one pipe after the other sends into the last.
-/

universe u

structure Pipe (α : Type u) where
  received : List α := []
  underway : List α := []

namespace Pipe

variable {α : Type u} {p p' : Pipe α} {x : α} {pipes : List (Pipe α)}

def sent (p : Pipe α) : List α := p.received ++ p.underway

def send (p : Pipe α) (xs : List α) : Pipe α := { p with underway := p.underway ++ xs }

def receive (p : Pipe α) : Option (α × Pipe α) :=
  match p.underway with
  | [] => none
  | x :: rest => some (x, ⟨p.received ++ [x], rest⟩)

@[simp] theorem sent_empty : ({} : Pipe α).sent = [] := rfl

@[simp] theorem received_send (p : Pipe α) (xs : List α) : (p.send xs).received = p.received := rfl

@[simp] theorem sent_send (p : Pipe α) (xs : List α) : (p.send xs).sent = p.sent ++ xs :=
  (List.append_assoc ..).symm

theorem received_prefix_sent (p : Pipe α) : p.received <+: p.sent := List.prefix_append _ _

theorem receive_eq_some (h : p.receive = some (x, p')) :
    p'.received = p.received ++ [x] ∧ p'.sent = p.sent := by
  rw [receive] at h
  split at h
  · cases h
  · next hunderway =>
      obtain ⟨rfl, rfl⟩ := Prod.mk.inj (Option.some_inj.mp h)
      exact ⟨rfl, by rw [sent, sent, hunderway, List.append_assoc, List.singleton_append]⟩

/-! ## Pipes that are filled one after the other -/

def sendLast (xs : List α) (pipes : List (Pipe α)) : List (Pipe α) :=
  pipes.modifyLast (·.send xs)

theorem sendLast_concat (xs : List α) (pipes : List (Pipe α)) (p : Pipe α) :
    sendLast xs (pipes ++ [p]) = pipes ++ [p.send xs] := List.modifyLast_concat ..

/-- Everything that has been sent. -/
def sentAll (pipes : List (Pipe α)) : List α := pipes.flatMap sent

@[simp] theorem sentAll_concat (pipes : List (Pipe α)) (p : Pipe α) :
    sentAll (pipes ++ [p]) = sentAll pipes ++ p.sent := by
  simp [sentAll]

theorem sentAll_sendLast (xs : List α) (h : pipes ≠ []) :
    sentAll (sendLast xs pipes) = sentAll pipes ++ xs := by
  obtain ⟨init, p, rfl⟩ := pipes.eq_nil_or_concat'.resolve_left h
  rw [sendLast_concat, sentAll_concat, sentAll_concat, sent_send, List.append_assoc]

@[simp] theorem map_received_sendLast (xs : List α) (pipes : List (Pipe α)) :
    (sendLast xs pipes).map received = pipes.map received := by
  rcases pipes.eq_nil_or_concat' with rfl | ⟨init, p, rfl⟩
  · rfl
  · rw [sendLast_concat, List.map_append, List.map_append]
    rfl

theorem sendLast_nil (pipes : List (Pipe α)) : sendLast [] pipes = pipes := by
  rcases pipes.eq_nil_or_concat' with rfl | ⟨init, p, rfl⟩
  · rfl
  · rw [sendLast_concat, send, List.append_nil]

/-- Something is received from one of the pipes. -/
theorem sentAll_set {n : Nat} (h : pipes[n]? = some p) (hsent : p'.sent = p.sent) :
    sentAll (pipes.set n p') = sentAll pipes := by
  have hmap : (pipes.set n p').map sent = pipes.map sent := by
    obtain ⟨hlt, rfl⟩ := List.getElem?_eq_some_iff.mp h
    rw [List.map_set, hsent, ← List.getElem_map sent (h := by simpa using hlt), List.set_getElem_self]
  rw [sentAll, List.flatMap_def, hmap, ← List.flatMap_def, sentAll]

/-- What has been sent is received or under way. -/
theorem coe_sentAll (pipes : List (Pipe α)) : (sentAll pipes : Multiset α) =
    Custody.total (fun p => (p.received : Multiset α)) pipes +
      Custody.total (fun p => (p.underway : Multiset α)) pipes := by
  induction pipes with
  | nil => rfl
  | cons p rest ih =>
      have hsent : (sentAll (p :: rest) : Multiset α) = ↑p.received + ↑p.underway + sentAll rest := by
        rw [sentAll, List.flatMap_cons, ← Multiset.coe_add, sent, ← Multiset.coe_add]
        rfl
      rw [hsent, ih]
      simp only [Custody.total, List.map_cons, List.sum_cons]
      ac_rfl

end Pipe
