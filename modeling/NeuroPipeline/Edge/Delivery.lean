-- SUMMARY: First-in-first-out delivery by one producer: the condition under which no result overtakes another.
import NeuroPipeline.Edge.GrpcClient

/-!
# Order of delivery

With one producer, everything the client still owes stands in one line: the
written results, the borrowed entry, the queue, and the result of the call in
progress. The line stays in the order of the calls as long as an entry goes back
into an empty queue only and no result is written past a queued one.
-/

namespace ClientSystem

variable {R : Type} {codec : Codec R}

def delivered (s : ClientSystem codec Unit) : List R := s.written.map Prod.snd

/-- Everything written or still owed, in the order in which it stands. -/
def line (s : ClientSystem codec Unit) : List R :=
  s.delivered ++ (s.threads ()).borrowed ++ s.client.queue.contents ++ (s.threads ()).fresh

/-- The step about to be taken does not change the order of the line: an entry is
put back, and a fresh result is written, only while the queue is empty. -/
def InTurn (s : ClientSystem codec Unit) : ClientAct R Unit → Prop
  | .run _ o =>
    ((s.threads ()).borrowed ≠ [] → (s.threads ()).enqueues.isSome = true →
      s.client.queue.empty = true) ∧
    (s.writesFresh () o = true → s.client.queue.empty = true)
  | _ => True

/-- The queue loses entries at the front only; what `DroppedTotal` counts in the
step are the oldest ones. -/
def DropsOldest (s s' : ClientSystem codec Unit) : Prop :=
  ∃ k added, s'.client.queue.contents = s.client.queue.contents.drop k ++ added ∧
    s'.client.queue.dropped ≤ s.client.queue.dropped + k

/-! ## One step -/

theorem dropsOldest_of_same {s s' : ClientSystem codec Unit}
    (hqueue : s'.client.queue = s.client.queue) : DropsOldest s s' :=
  ⟨0, [], by simp [hqueue], by simp [hqueue]⟩

theorem dropsOldest_of_enqueue {s s' : ClientSystem codec Unit} {r : R} {ok : Bool}
    (h : s.client.queue.enqueue r = some (s'.client.queue, ok)) : DropsOldest s s' := by
  cases ok with
  | true =>
      obtain ⟨k, hcont, _, hdropped⟩ := DetectionQueue.enqueue_true h
      exact ⟨k, [r], hcont, Nat.le_of_eq hdropped⟩
  | false => exact dropsOldest_of_same (DetectionQueue.enqueue_false h).1

/-- Only the oldest entries ever leave the queue. -/
theorem step_dropsOldest {s s' : ClientSystem codec Unit} {l : ClientAct R Unit}
    (h : s.step l = some s') : DropsOldest s s' := by
  cases l with
  | streamDetection t r =>
      obtain ⟨-, -, -, -, hclient⟩ := step_call h
      exact dropsOldest_of_same (by rw [hclient])
  | run t o =>
      obtain ⟨pc, -, -, heffect⟩ := runThread_effect h
      cases heffect with
      | move _ _ _ hqueue => exact dropsOldest_of_same hqueue
      | buffer r ok _ _ henq => exact dropsOldest_of_enqueue henq
      | putBack r ok _ _ _ _ _ henq => exact dropsOldest_of_enqueue henq
      | take r _ _ _ _ _ hdeq =>
          obtain ⟨hcont, hdropped⟩ := DetectionQueue.dequeue_some hdeq
          exact ⟨1, [], by simp [hcont], by omega⟩
      | writeFresh r ch _ _ _ _ _ _ _ hqueue => exact dropsOldest_of_same hqueue
      | writeBorrowed r ch _ _ _ _ _ _ hqueue => exact dropsOldest_of_same hqueue
      | forget r _ _ _ _ hqueue => exact dropsOldest_of_same hqueue
  | connect _ | disconnect | flushStream _ | startEventStream _ | eventReaderEnds
  | stopEventStream =>
      obtain ⟨-, -, -, hqueue⟩ := step_other (by simp) (by simp) h
      exact dropsOldest_of_same hqueue

/-- Enqueuing at the back of a list keeps a sublist of the list with that element. -/
theorem enqueue_sublist {q q' : DetectionQueue codec} {r : R} {ok : Bool}
    (h : q.enqueue r = some (q', ok)) : q'.contents.Sublist (q.contents ++ [r]) := by
  cases ok with
  | true =>
      obtain ⟨k, hcont, -, -⟩ := DetectionQueue.enqueue_true h
      rw [hcont]
      exact (List.drop_sublist k _).append_right [r]
  | false =>
      rw [(DetectionQueue.enqueue_false h).1]
      exact List.sublist_append_left _ _

/-- A step in turn of the producer leaves the line as it is, or shortens it. -/
theorem runThread_line {s s' : ClientSystem codec Unit} {o : Outcome}
    (h : s.runThread () o = some s') (hturn : s.InTurn (.run () o)) :
    s'.line.Sublist s.line := by
  obtain ⟨pc, hthreads, -, heffect⟩ := runThread_effect h
  have hpc : s'.threads () = pc := by rw [hthreads, Function.update_self]
  obtain ⟨hback, hfront⟩ := hturn
  cases heffect with
  | move hfresh hborrowed hwritten hqueue =>
      simp only [line, delivered, hpc, hfresh, hborrowed, hwritten, hqueue]
      exact List.Sublist.refl _
  | buffer r ok hbefore hafter henq hwritten =>
      have hsub := enqueue_sublist henq
      simp only [line, delivered, hpc, hbefore, hafter, hwritten, Pc.fresh, Pc.borrowed,
        List.append_nil, List.append_assoc]
      exact hsub.append_left _
  | putBack r ok henqueues _ hborrowed hborrowed' hfresh henq hwritten =>
      have hempty : s.client.queue.contents = [] :=
        DetectionQueue.contents_eq_nil.mpr (hback (by simp [hborrowed]) (by simp [henqueues]))
      have hsub := enqueue_sublist henq
      rw [hempty, List.nil_append] at hsub
      simp only [line, delivered, hpc, hborrowed, hborrowed', hfresh, hwritten, hempty,
        List.append_nil]
      exact (hsub.append_left _).append_right _
  | take r _ _ hborrowed hborrowed' hfresh hdeq hwritten =>
      have hcont := (DetectionQueue.dequeue_some hdeq).1
      simp only [line, delivered, hpc, hborrowed, hborrowed', hfresh, hwritten, hcont,
        List.append_nil, List.append_assoc, List.cons_append]
      exact List.Sublist.refl _
  | writeFresh r ch _ _ hfresh hborrowed hafter hwrites hwritten hqueue =>
      have hempty : s.client.queue.contents = [] :=
        DetectionQueue.contents_eq_nil.mpr (hfront hwrites)
      have hfresh' : pc.fresh = [] := by rw [hafter]; rfl
      have hborrowed' : pc.borrowed = [] := by rw [hafter]; rfl
      simp only [line, delivered, hpc, hfresh, hfresh', hborrowed, hborrowed', hwritten, hqueue,
        hempty, List.append_nil, List.map_append, List.map_cons, List.map_nil]
      exact List.Sublist.refl _
  | writeBorrowed r ch _ _ hborrowed hborrowed' hfresh hwritten hqueue =>
      simp only [line, delivered, hpc, hborrowed, hborrowed', hfresh, hwritten, hqueue,
        List.append_nil, List.map_append, List.map_cons, List.map_nil]
      exact List.Sublist.refl _
  | forget r hbefore hafter _ hwritten hqueue =>
      simp only [line, delivered, hpc, hbefore, hafter, hwritten, hqueue, Pc.fresh, Pc.borrowed,
        List.append_nil]
      exact (List.sublist_append_left _ _).append_right _

/-- The line is what was accepted, in order, less what is gone. -/
theorem step_line {s s' : ClientSystem codec Unit} {l : ClientAct R Unit}
    (hline : s.line.Sublist s.accepted) (hturn : s.InTurn l) (h : s.step l = some s') :
    s'.line.Sublist s'.accepted := by
  cases l with
  | streamDetection t r =>
      obtain ⟨hidle, hthreads, haccepted, hwritten, hclient⟩ := step_call h
      have hpc : s'.threads () = .entry r := by rw [hthreads, Function.update_self]
      have hline' : s'.line = s.line ++ [r] := by
        simp [line, delivered, hpc, hidle, hwritten, hclient, Pc.fresh, Pc.borrowed]
      rw [hline', haccepted]
      exact hline.append_right [r]
  | run t o =>
      obtain ⟨pc, -, haccepted, -⟩ := runThread_effect h
      rw [haccepted]
      exact (runThread_line h hturn).trans hline
  | connect _ | disconnect | flushStream _ | startEventStream _ | eventReaderEnds
  | stopEventStream =>
      obtain ⟨hthreads, haccepted, hwritten, hqueue⟩ := step_other (by simp) (by simp) h
      have hline' : s'.line = s.line := by
        simp only [line, delivered, hthreads, hwritten, hqueue]
      rwa [hline', haccepted]

/-! ## Whole runs -/

/-- Two results are queued while the server is away. The third call reconnects;
writing the older entry fails, and the entry goes back behind the newer one. The
fourth call reconnects again and drains the queue. -/
def overtakingDrain : List (ClientAct UInt8 Unit) :=
  let away : Outcome := { channelReady := false }
  let broken : Outcome := { writeOk := false }
  [.streamDetection () 1, .run () {}, .run () away, .run () {},
    .streamDetection () 2, .run () {}, .run () away, .run () {},
    .streamDetection () 3, .run () {}, .run () {}, .run () {}, .run () broken, .run () {},
    .run () broken, .run () {},
    .streamDetection () 4, .run () {}, .run () {},
    .run () {}, .run () {}, .run () {}, .run () {}, .run () {}, .run () {}, .run () {},
    .run () {}, .run () {}]

end ClientSystem
