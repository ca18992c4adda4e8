-- SUMMARY: No accepted result is lost: the client's books balance exactly on the runs that never meet a closed stream after a write.
import Mathlib.Data.Fintype.Basic
import NeuroPipeline.Lib.Custody
import NeuroPipeline.Edge.GrpcClient

/-!
# Conservation of accepted results

The client is a store-and-forward component: its purpose is a `Custody` record.
The books of a client are compared with such a record after every step. One
step moves results between the thread's hands, the queue and the streams; the
only places where a result leaves the books are a refused `Enqueue` and the
re-check of the stream after a write.
-/

/-- The results a thread holds: its own, and the one it took from the queue. -/
def Pc.hand {R : Type} (pc : Pc R) : Multiset R := ↑pc.fresh + ↑pc.borrowed

namespace ClientSystem

variable {R Tid : Type} [Fintype Tid] [DecidableEq Tid] {codec : Codec R}

/-! ## The books -/

def writtenResults (s : ClientSystem codec Tid) : List R := s.written.map Prod.snd

def queued (s : ClientSystem codec Tid) : List R := s.client.queue.contents

def inHand (s : ClientSystem codec Tid) : Multiset R :=
  Custody.holdings fun t => (s.threads t).hand

/-- The client's state is that of a balanced custody record: delivered is what
was written, held is what is queued or in the hands of a call, and the dropped
results are counted by the queue. -/
def Conserved (s : ClientSystem codec Tid) : Prop :=
  ∃ k : Custody R,
    k.accepted = ↑s.accepted ∧
    k.delivered = ↑s.writtenResults ∧
    k.held = ↑s.queued + s.inHand ∧
    k.dropped.card = s.client.queue.dropped

/-- The step about to be taken does not let go of a result: what it enqueues can
be serialized, and the stream is still open when an entry taken after a write
is looked at again. -/
def Keeps (s : ClientSystem codec Tid) : ClientAct R Tid → Prop
  | .run t _ =>
    (∀ r, (s.threads t).enqueues = some r → codec.serializeToString r ≠ none) ∧
      ((s.threads t).rechecks = true → s.client.detectionStream.live = true)
  | _ => True

/-! ## One step -/

/-- What a step does to the books: `evicted` goes to the drop count, `lost` to
nobody. -/
structure Books (s s' : ClientSystem codec Tid) (evicted lost : Multiset R) : Prop where
  balance : (s'.accepted : Multiset R) + (s.writtenResults + s.queued + s.inHand) =
    s.accepted + (s'.writtenResults + s'.queued + s'.inHand) + evicted + lost
  dropped : s'.client.queue.dropped = s.client.queue.dropped + evicted.card

/-- The same for the one thread that moves; the others keep what they hold. -/
theorem books_of_thread {s s' : ClientSystem codec Tid} {t : Tid} {pc : Pc R}
    {evicted lost : Multiset R}
    (hthreads : s'.threads = Function.update s.threads t pc)
    (hbalance : (s'.accepted : Multiset R) + (s.writtenResults + s.queued + (s.threads t).hand) =
      s.accepted + (s'.writtenResults + s'.queued + pc.hand) + evicted + lost)
    (hdropped : s'.client.queue.dropped = s.client.queue.dropped + evicted.card) :
    Books s s' evicted lost := by
  have hhand : s'.inHand + (s.threads t).hand = s.inHand + pc.hand := by
    have h := Custody.holdings_update (fun u => (s.threads u).hand) t pc.hand
    have hfun : (fun u => (s'.threads u).hand) =
        Function.update (fun u => (s.threads u).hand) t pc.hand := by
      funext u
      rw [hthreads]
      by_cases hu : u = t
      · subst hu; simp
      · simp [hu]
    rw [← hfun] at h
    exact h
  refine ⟨?_, hdropped⟩
  apply add_right_cancel (b := (s.threads t).hand + pc.hand)
  calc (s'.accepted : Multiset R) + (s.writtenResults + s.queued + s.inHand)
          + ((s.threads t).hand + pc.hand)
      = (s'.accepted + (s.writtenResults + s.queued + (s.threads t).hand))
          + (s.inHand + pc.hand) := by ac_rfl
    _ = (s.accepted + (s'.writtenResults + s'.queued + pc.hand) + evicted + lost)
          + (s'.inHand + (s.threads t).hand) := by rw [hbalance, hhand]
    _ = s.accepted + (s'.writtenResults + s'.queued + s'.inHand) + evicted + lost
          + ((s.threads t).hand + pc.hand) := by ac_rfl

/-- A step that touches neither the books nor what the thread holds. -/
theorem books_of_unchanged {s s' : ClientSystem codec Tid} {t : Tid} {pc : Pc R}
    (hthreads : s'.threads = Function.update s.threads t pc)
    (hhand : pc.hand = (s.threads t).hand)
    (haccepted : s'.accepted = s.accepted) (hwritten : s'.written = s.written)
    (hqueue : s'.client.queue = s.client.queue) : Books s s' 0 0 := by
  refine books_of_thread hthreads ?_ (by simp [hqueue])
  simp only [writtenResults, queued, haccepted, hwritten, hqueue, hhand, add_zero]

/-- The results that leave the queue's contents from the front. -/
theorem drop_balance (l : List R) (k : Nat) (hk : k ≤ l.length) :
    (l : Multiset R) = ↑(l.drop k) + ↑(l.take k) ∧ Multiset.card (↑(l.take k) : Multiset R) = k := by
  constructor
  · rw [add_comm, Multiset.coe_add, List.take_append_drop]
  · simp [hk]

/-- A thread that enqueues the result in its hand. A refused result is lost. -/
theorem books_of_enqueue {s s' : ClientSystem codec Tid} {t : Tid} {pc : Pc R} {r : R}
    {q : DetectionQueue codec} {ok : Bool}
    (henq : s.client.queue.enqueue r = some (q, ok))
    (hthreads : s'.threads = Function.update s.threads t pc)
    (hhand : (s.threads t).hand = pc.hand + {r})
    (haccepted : s'.accepted = s.accepted) (hwritten : s'.written = s.written)
    (hqueue : s'.client.queue = q) :
    ∃ evicted lost, Books s s' evicted lost ∧
      lost.card = if codec.serializeToString r = none then 1 else 0 := by
  cases ok with
  | true =>
      obtain ⟨k, hcont, hk, hdropped⟩ := DetectionQueue.enqueue_true henq
      have hser := DetectionQueue.serialize_of_enqueue_true henq
      obtain ⟨hsplit, hcard⟩ := drop_balance s.client.queue.contents k hk
      refine ⟨↑(s.client.queue.contents.take k), 0, books_of_thread hthreads ?_ ?_, by simp [hser]⟩
      · simp only [writtenResults, queued, haccepted, hwritten, hqueue, hcont, hhand,
          ← Multiset.coe_add, add_zero]
        rw [hsplit]
        simp only [Multiset.coe_singleton]
        ac_rfl
      · rw [hqueue, hdropped, hcard]
  | false =>
      obtain ⟨rfl, hser⟩ := DetectionQueue.enqueue_false henq
      refine ⟨0, {r}, books_of_thread hthreads ?_ (by simp [hqueue]), by simp [hser]⟩
      simp only [writtenResults, queued, haccepted, hwritten, hqueue, hhand, add_zero]
      ac_rfl

/-- A thread that dequeues an entry takes it into its hand. -/
theorem books_of_dequeue {s s' : ClientSystem codec Tid} {t : Tid} {pc : Pc R} {r : R}
    {q : DetectionQueue codec}
    (hdeq : s.client.queue.dequeue = (q, some r))
    (hthreads : s'.threads = Function.update s.threads t pc)
    (hhand : pc.hand = (s.threads t).hand + {r})
    (haccepted : s'.accepted = s.accepted) (hwritten : s'.written = s.written)
    (hqueue : s'.client.queue = q) : Books s s' 0 0 := by
  obtain ⟨hcont, hdropped⟩ := DetectionQueue.dequeue_some hdeq
  refine books_of_thread hthreads ?_ (by simp [hqueue, hdropped])
  simp only [writtenResults, queued, haccepted, hwritten, hqueue, hcont, hhand, add_zero,
    ← Multiset.cons_coe, ← Multiset.singleton_add]
  ac_rfl

/-- A thread that writes a result on the open stream has it in its hand no more. -/
theorem books_of_write {s s' : ClientSystem codec Tid} {t : Tid} {pc : Pc R} {r : R}
    {ch : ChannelId}
    (hthreads : s'.threads = Function.update s.threads t pc)
    (hhand : (s.threads t).hand = pc.hand + {r})
    (haccepted : s'.accepted = s.accepted) (hwritten : s'.written = s.written ++ [(ch, r)])
    (hqueue : s'.client.queue = s.client.queue) : Books s s' 0 0 := by
  refine books_of_thread hthreads ?_ (by simp [hqueue])
  simp only [writtenResults, queued, haccepted, hwritten, hqueue, hhand, add_zero,
    List.map_append, List.map_cons, List.map_nil, ← Multiset.coe_add, Multiset.coe_singleton]
  ac_rfl

/-- One step of a thread, entered in the books: nothing is lost exactly when the
step keeps its results, and otherwise one result is. -/
theorem runThread_books {s s' : ClientSystem codec Tid} {t : Tid} {o : Outcome}
    (h : s.runThread t o = some s') :
    ∃ evicted lost, Books s s' evicted lost ∧ (s.Keeps (.run t o) ↔ lost.card = 0) := by
  obtain ⟨pc, hthreads, haccepted, heffect⟩ := runThread_effect h
  have hkeeps : s.Keeps (.run t o) ↔
      (∀ r, (s.threads t).enqueues = some r → codec.serializeToString r ≠ none) ∧
        ((s.threads t).rechecks = true → s.client.detectionStream.live = true) := Iff.rfl
  rw [hkeeps]
  cases heffect with
  | move hfresh hborrowed hwritten hqueue henq hlive =>
      have hhand : pc.hand = (s.threads t).hand := by rw [Pc.hand, Pc.hand, hfresh, hborrowed]
      exact ⟨0, 0, books_of_unchanged hthreads hhand haccepted hwritten hqueue,
        by simpa [henq] using hlive⟩
  | buffer r ok hpc hafter henq hwritten =>
      have hhand : (s.threads t).hand = pc.hand + {r} := by
        rw [hpc, hafter]
        simp [Pc.hand, Pc.fresh, Pc.borrowed]
      obtain ⟨evicted, lost, hbooks, hcard⟩ :=
        books_of_enqueue henq hthreads hhand haccepted hwritten rfl
      refine ⟨evicted, lost, hbooks, ?_⟩
      simp [hpc, Pc.enqueues, Pc.rechecks, hcard]
  | putBack r ok hpc hrechecks hborrowed hborrowed' hfresh henq hwritten =>
      have hhand : (s.threads t).hand = pc.hand + {r} := by
        rw [Pc.hand, Pc.hand, hfresh, hborrowed, hborrowed']
        simp
      obtain ⟨evicted, lost, hbooks, hcard⟩ :=
        books_of_enqueue henq hthreads hhand haccepted hwritten rfl
      refine ⟨evicted, lost, hbooks, ?_⟩
      simp [hpc, hrechecks, hcard]
  | take r henq hrechecks hborrowed hborrowed' hfresh hdeq hwritten =>
      have hhand : pc.hand = (s.threads t).hand + {r} := by
        rw [Pc.hand, Pc.hand, hfresh, hborrowed, hborrowed']
        simp
      exact ⟨0, 0, books_of_dequeue hdeq hthreads hhand haccepted hwritten rfl,
        by simp [henq, hrechecks]⟩
  | writeFresh r ch henq hrechecks hfresh hborrowed hafter _ hwritten hqueue =>
      have hhand : (s.threads t).hand = pc.hand + {r} := by
        rw [hafter, Pc.hand, hfresh, hborrowed]
        simp [Pc.hand, Pc.fresh, Pc.borrowed]
      exact ⟨0, 0, books_of_write hthreads hhand haccepted hwritten hqueue,
        by simp [henq, hrechecks]⟩
  | writeBorrowed r ch henq hlive hborrowed hborrowed' hfresh hwritten hqueue =>
      have hhand : (s.threads t).hand = pc.hand + {r} := by
        rw [Pc.hand, Pc.hand, hfresh, hborrowed, hborrowed']
        simp
      exact ⟨0, 0, books_of_write hthreads hhand haccepted hwritten hqueue,
        by simpa [henq] using hlive⟩
  | forget r hpc hafter hlive hwritten hqueue =>
      have hhand : (s.threads t).hand = pc.hand + {r} := by
        rw [hpc, hafter]
        simp [Pc.hand, Pc.fresh, Pc.borrowed]
      refine ⟨0, {r}, books_of_thread hthreads ?_ (by simp [hqueue]), ?_⟩
      · simp only [writtenResults, queued, haccepted, hwritten, hqueue, hhand, add_zero]
        ac_rfl
      · simp [hpc, hlive, Pc.rechecks]

/-- A step of any kind, entered in the books. -/
theorem step_books {s s' : ClientSystem codec Tid} {l : ClientAct R Tid}
    (h : s.step l = some s') :
    ∃ evicted lost, Books s s' evicted lost ∧ (s.Keeps l ↔ lost.card = 0) := by
  cases l with
  | run t o => exact runThread_books h
  | streamDetection t r =>
      obtain ⟨hidle, hthreads, haccepted, hwritten, hclient⟩ := step_call h
      refine ⟨0, 0, books_of_thread hthreads ?_ (by simp [hclient]), by simp [Keeps]⟩
      simp only [writtenResults, queued, haccepted, hwritten, hclient, hidle, Pc.hand, Pc.fresh,
        Pc.borrowed, ← Multiset.coe_add, Multiset.coe_nil, add_zero]
      ac_rfl
  | connect _ | disconnect | flushStream _ | startEventStream _ | eventReaderEnds
  | stopEventStream =>
      obtain ⟨hthreads, haccepted, hwritten, hqueue⟩ := step_other (by simp) (by simp) h
      refine ⟨0, 0, ⟨?_, by simp [hqueue]⟩, by simp [Keeps]⟩
      simp only [writtenResults, queued, inHand, hthreads, haccepted, hwritten, hqueue, add_zero]

/-! ## Whole runs -/

/-- The books after a run: `lost` is empty exactly when every step kept its
results. -/
theorem run_books {config : GrpcClient.Config} {t : List (ClientSystem codec Tid × ClientAct R Tid)}
    {s : ClientSystem codec Tid}
    (hrun : (clientSystem codec Tid config).Run (.new codec Tid config) t s) :
    ∃ evicted lost : Multiset R,
      (s.accepted : Multiset R) = s.writtenResults + s.queued + s.inHand + evicted + lost ∧
      s.client.queue.dropped = evicted.card ∧
      (TransitionSystem.Respects Keeps t ↔ lost.card = 0) := by
  induction hrun with
  | nil =>
      refine ⟨0, 0, ?_, rfl, by simp⟩
      simp [new, writtenResults, queued, inHand, GrpcClient.new, Custody.holdings, Pc.hand,
        Pc.fresh, Pc.borrowed]
  | @snoc t s₁ s₂ l _ hs ih =>
      obtain ⟨evicted, lost, hbal, hdropped, hkeeps⟩ := ih
      obtain ⟨evicted', lost', hbooks, hkeeps'⟩ := step_books (show s₁.step l = some s₂ from hs)
      refine ⟨evicted + evicted', lost + lost', ?_, ?_, ?_⟩
      · apply add_right_cancel
          (b := (s₁.writtenResults : Multiset R) + s₁.queued + s₁.inHand)
        rw [hbooks.balance, hbal]
        ac_rfl
      · rw [hbooks.dropped, hdropped, Multiset.card_add]
      · rw [TransitionSystem.respects_snoc, hkeeps, hkeeps', Multiset.card_add]
        omega

omit [DecidableEq Tid] in
/-- The books are those of a balanced custody record exactly when nothing is lost. -/
theorem conserved_iff_card_lost {s : ClientSystem codec Tid} {evicted lost : Multiset R}
    (hbal : (s.accepted : Multiset R) = s.writtenResults + s.queued + s.inHand + evicted + lost)
    (hdropped : s.client.queue.dropped = evicted.card) : s.Conserved ↔ lost.card = 0 := by
  constructor
  · rintro ⟨k, hacc, hdel, hheld, hdrop⟩
    have hcount := k.card_balanced
    have hcard := congrArg Multiset.card hbal
    rw [hacc, hdel, hheld, hdrop] at hcount
    simp only [Multiset.card_add] at hcount hcard
    omega
  · intro hlost
    obtain rfl := Multiset.card_eq_zero.mp hlost
    refine ⟨⟨s.accepted, s.writtenResults, s.queued + s.inHand, evicted, ?_⟩, rfl, rfl, rfl,
      hdropped.symm⟩
    rw [hbal, add_zero]
    ac_rfl

/-- No accepted result is lost exactly in the runs whose steps keep their
results: no entry taken from the queue after a write finds the stream closed
again, and whatever is enqueued can be serialized. -/
theorem conserved_iff_keeps {config : GrpcClient.Config}
    {t : List (ClientSystem codec Tid × ClientAct R Tid)} {s : ClientSystem codec Tid}
    (hrun : (clientSystem codec Tid config).Run (.new codec Tid config) t s) :
    s.Conserved ↔ TransitionSystem.Respects Keeps t := by
  obtain ⟨evicted, lost, hbal, hdropped, hkeeps⟩ := run_books hrun
  rw [hkeeps]
  exact conserved_iff_card_lost hbal hdropped

/-! ## The entry that is forgotten -/

/-- A result is queued while the server is away, the client connects again, and
the next call takes the queued entry after its own write; before it looks at the
stream again, another thread flushes it. -/
def forgottenEntry : List (ClientAct UInt8 Unit) :=
  [.streamDetection () 1, .run () {}, .run () { channelReady := false }, .run () {},
    .connect {},
    .streamDetection () 2, .run () {}, .run () {}, .run () {},
    .flushStream {}, .run () {}]

/-- Two results accepted, one written, none queued, held or counted as dropped. -/
theorem not_conserved_forgottenEntry :
    ∃ t s, (clientSystem Codec.byte Unit {}).Run (.new Codec.byte Unit {}) t s ∧
      t.map Prod.snd = forgottenEntry ∧ ¬ s.Conserved := by
  obtain ⟨s, hs⟩ : ∃ s, (clientSystem Codec.byte Unit {}).exec (.new Codec.byte Unit {})
      forgottenEntry = some s := ⟨_, rfl⟩
  have hview : ((clientSystem Codec.byte Unit {}).exec (.new Codec.byte Unit {})
      forgottenEntry).map (fun s => (s.accepted, s.writtenResults, s.queued, s.threads (),
        s.client.queue.dropped)) = some ([1, 2], [2], [], .idle, 0) := rfl
  obtain ⟨t, hrun, hlabels⟩ := TransitionSystem.exec_run hs
  refine ⟨t, s, hrun, hlabels, ?_⟩
  rw [hs] at hview
  simp only [Option.map_some, Option.some.injEq, Prod.mk.injEq] at hview
  obtain ⟨hacc, hwritten, hqueued, hidle, hdropped⟩ := hview
  rintro ⟨k, hkacc, hkdel, hkheld, hkdrop⟩
  have hcount := k.card_balanced
  have hhand : s.inHand = 0 := by simp [inHand, Custody.holdings, hidle, Pc.hand, Pc.fresh, Pc.borrowed]
  rw [hkacc, hkdel, hkheld, hkdrop, hacc, hwritten, hqueued, hhand, hdropped] at hcount
  simp at hcount

/-- The call of one result on a connected client meets the condition. -/
theorem conserved_iff_keeps_single :
    ∃ t s, ((clientSystem Codec.byte Unit {}).Run (.new Codec.byte Unit {}) t s ∧
      t.map Prod.snd = [.connect {}, .streamDetection () 7, .run () {}, .run () {}]) ∧
      (s.Conserved ↔ TransitionSystem.Respects Keeps t) := by
  obtain ⟨s, hs⟩ : ∃ s, (clientSystem Codec.byte Unit {}).exec (.new Codec.byte Unit {})
      [.connect {}, .streamDetection () 7, .run () {}, .run () {}] = some s := ⟨_, rfl⟩
  obtain ⟨t, hrun, hlabels⟩ := TransitionSystem.exec_run hs
  exact ⟨t, s, ⟨hrun, hlabels⟩, conserved_iff_keeps hrun⟩

end ClientSystem
