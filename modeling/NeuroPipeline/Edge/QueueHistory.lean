-- SUMMARY: The detection queue over whole runs: its limits, its counters, and which of the accepted results it holds.
import NeuroPipeline.Edge.DetectionQueue
import NeuroPipeline.Lib.TransitionSystem

/-!
# History of the detection queue

Calls of `Enqueue` and `Dequeue`, one after another. What the queue holds is read
off the calls so far.
-/

inductive QueueAct (R : Type) where
  | enqueue (result : R)
  | dequeue

def queueSystem {R : Type} (codec : Codec R) :
    TransitionSystem (DetectionQueue codec) (QueueAct R) where
  init q := ∃ config, q = .new codec config
  step q
    | .enqueue result => (q.enqueue result).map Prod.fst
    | .dequeue => some q.dequeue.1

namespace queueSystem

variable {R : Type} {codec : Codec R}

/-- The results that `Enqueue` has accepted, in that order. -/
def accepted (t : List (DetectionQueue codec × QueueAct R)) : List R :=
  t.filterMap fun p =>
    match p.2 with
    | .enqueue result => if (p.1.enqueue result).any Prod.snd then some result else none
    | .dequeue => none

/-- The results that `Dequeue` has returned, in that order. -/
def dequeued (t : List (DetectionQueue codec × QueueAct R)) : List R :=
  t.filterMap fun p =>
    match p.2 with
    | .enqueue _ => none
    | .dequeue => p.1.dequeue.2

/-- The entries are within their limit, and the bytes except for a single entry that is
larger than the limit. -/
structure Limited (config : DetectionQueue.Config) (q : DetectionQueue codec) : Prop where
  limits : q.config = config
  entries : q.queue.length ≤ config.maxEntries
  memory : config.maxMemoryBytes < q.currentBytes → q.queue.length = 1

/-- What the queue holds is left of the accepted results when as many as were dequeued
and dropped are gone from the front. -/
structure Suffix (t : List (DetectionQueue codec × QueueAct R)) (q : DetectionQueue codec) :
    Prop where
  enqueued : q.enqueued = (accepted t).length
  total : q.enqueued = (dequeued t).length + q.dropped + q.queue.length
  contents : q.contents = (accepted t).drop ((dequeued t).length + q.dropped)
  gone : (dequeued t).Sublist ((accepted t).take ((dequeued t).length + q.dropped))

/-! ## One call -/

variable {config : DetectionQueue.Config} {q q' : DetectionQueue codec} {r : R}
  {t : List (DetectionQueue codec × QueueAct R)}

theorem enqueue_cases (h : (queueSystem codec).step q (.enqueue r) = some q') :
    q.enqueue r = some (q', true) ∨ q.enqueue r = some (q', false) := by
  obtain ⟨⟨q₁, ok⟩, hq, rfl⟩ := Option.map_eq_some_iff.mp h
  cases ok with
  | true => exact .inl hq
  | false => exact .inr hq

/-- What an accepted result is put behind. -/
theorem enqueue_true_pushBack (h : q.enqueue r = some (q', true)) :
    ∃ bytes q₁, q.makeRoom bytes.length = some q₁ ∧ q'.config = q₁.config ∧
      q'.queue = q₁.queue ++ [bytes] ∧ q'.currentBytes = q₁.currentBytes + bytes.length ∧
      q'.enqueued = q₁.enqueued + 1 := by
  unfold DetectionQueue.enqueue at h
  split at h
  next => cases h
  next bytes hs =>
    obtain ⟨q₁, hroom, heq⟩ := Option.map_eq_some_iff.mp h
    obtain ⟨rfl, -⟩ := Prod.mk.inj heq
    exact ⟨bytes, q₁, hroom, rfl, rfl, rfl, rfl⟩

theorem Limited.enqueue (hq : Limited config q) (h : q.enqueue r = some (q', true)) :
    Limited config q' := by
  obtain ⟨bytes, q₁, hroom, hconfig, hqueue, hbytes, -⟩ := enqueue_true_pushBack h
  obtain ⟨hdone, hconfig₁, -⟩ := DetectionQueue.evictLoop_spec hroom
  have hlimits : q₁.config = config := hconfig₁.trans hq.limits
  simp only [DetectionQueue.needsRoom, hlimits, Bool.or_eq_false_iff, Bool.and_eq_false_iff,
    decide_eq_false_iff_not, Bool.not_eq_false', List.isEmpty_iff] at hdone
  obtain ⟨hentries, hmemory⟩ := hdone
  refine ⟨hconfig.trans hlimits, ?_, ?_⟩
  · rw [hqueue, List.length_append, List.length_singleton]
    omega
  · intro hover
    rw [hbytes] at hover
    rcases hmemory with hfits | hempty
    · exact absurd hover hfits
    · rw [hqueue, hempty]
      rfl

theorem Limited.dequeue (hq : Limited config q) : Limited config q.dequeue.1 := by
  unfold DetectionQueue.dequeue
  split
  next => exact hq
  next front rest hqueue =>
    have hentries := hq.entries
    rw [hqueue, List.length_cons] at hentries
    refine ⟨hq.limits, Nat.le_of_succ_le hentries, ?_⟩
    intro (hover : config.maxMemoryBytes < q.currentBytes - front.length)
    -- a queue above its limit has one entry only, and that one is dequeued
    have hone := hq.memory (Nat.lt_of_lt_of_le hover (Nat.sub_le _ _))
    rw [hqueue, List.length_cons] at hone
    have hempty : rest = [] := List.eq_nil_of_length_eq_zero (by omega)
    have hbytes := q.bytes_eq
    rw [hqueue, hempty] at hbytes
    simp only [List.map_cons, List.map_nil, List.sum_cons, List.sum_nil] at hbytes
    omega

theorem accepted_enqueue_true (h : q.enqueue r = some (q', true)) :
    accepted (t ++ [(q, .enqueue r)]) = accepted t ++ [r] := by
  simp [accepted, h]

theorem accepted_enqueue_false (h : q.enqueue r = some (q', false)) :
    accepted (t ++ [(q, .enqueue r)]) = accepted t := by
  simp [accepted, h]

theorem dequeued_enqueue : dequeued (t ++ [(q, .enqueue r)]) = dequeued t := by
  simp [dequeued]

theorem accepted_dequeue : accepted (t ++ [(q, .dequeue)]) = accepted t := by
  simp [accepted]

theorem dequeued_dequeue : dequeued (t ++ [(q, .dequeue)]) = dequeued t ++ q.dequeue.2.toList := by
  cases h : q.dequeue.2 <;> simp [dequeued, h]

theorem Suffix.enqueue (hq : Suffix t q) (h : q.enqueue r = some (q', true)) :
    Suffix (t ++ [(q, .enqueue r)]) q' := by
  obtain ⟨bytes, q₁, hroom, -, -, -, henqueued⟩ := enqueue_true_pushBack h
  obtain ⟨-, -, henqueued₁⟩ := DetectionQueue.evictLoop_spec hroom
  obtain ⟨k, hcontents, hk, hdropped⟩ := DetectionQueue.enqueue_true h
  have hlen : q'.queue.length + k = q.queue.length + 1 := by
    rw [← q'.length_contents, ← q.length_contents, hcontents, List.length_append,
      List.length_drop, List.length_singleton]
    omega
  have hgone : (dequeued t).length + q.dropped + k ≤ (accepted t).length := by
    rw [← hq.enqueued, hq.total, ← q.length_contents]
    omega
  constructor
  · rw [accepted_enqueue_true h, List.length_append, List.length_singleton, ← hq.enqueued,
      henqueued, henqueued₁]
  · rw [dequeued_enqueue, henqueued, henqueued₁, hq.total, hdropped]
    omega
  · rw [accepted_enqueue_true h, dequeued_enqueue, hdropped, ← Nat.add_assoc,
      List.drop_append_of_le_length hgone, hcontents, hq.contents, List.drop_drop]
  · rw [accepted_enqueue_true h, dequeued_enqueue, hdropped, ← Nat.add_assoc,
      List.take_append_of_le_length hgone]
    exact hq.gone.trans (List.take_sublist_take_left (Nat.le_add_right _ _))

theorem Suffix.dequeue (hq : Suffix t q) : Suffix (t ++ [(q, .dequeue)]) q.dequeue.1 := by
  have henqueued : q.dequeue.1.enqueued = q.enqueued := by
    unfold DetectionQueue.dequeue
    split <;> rfl
  cases hresult : q.dequeue.2 with
  | none =>
    have hd : q.dequeue = (q.dequeue.1, none) := Prod.ext rfl hresult
    obtain ⟨hsame, -⟩ := DetectionQueue.dequeue_none hd
    rw [hsame]
    constructor
    · rw [accepted_dequeue, hq.enqueued]
    · rw [dequeued_dequeue, hresult, Option.toList_none, List.append_nil, hq.total]
    · rw [accepted_dequeue, dequeued_dequeue, hresult, Option.toList_none, List.append_nil,
        hq.contents]
    · rw [accepted_dequeue, dequeued_dequeue, hresult, Option.toList_none, List.append_nil]
      exact hq.gone
  | some r =>
    have hd : q.dequeue = (q.dequeue.1, some r) := Prod.ext rfl hresult
    obtain ⟨hcontents, hdropped⟩ := DetectionQueue.dequeue_some hd
    have hlen : q.dequeue.1.queue.length + 1 = q.queue.length := by
      rw [← q.dequeue.1.length_contents, ← q.length_contents, hcontents, List.length_cons]
    have hnext : (accepted t).drop ((dequeued t).length + q.dropped) =
        r :: q.dequeue.1.contents := by
      rw [← hq.contents, hcontents]
    have hk : (dequeued t ++ [r]).length + q.dropped = (dequeued t).length + q.dropped + 1 := by
      rw [List.length_append, List.length_singleton]
      omega
    constructor
    · rw [accepted_dequeue, henqueued, hq.enqueued]
    · rw [dequeued_dequeue, hresult, Option.toList_some, henqueued, hq.total, hdropped, hk]
      omega
    · rw [accepted_dequeue, dequeued_dequeue, hresult, Option.toList_some, hdropped, hk,
        ← List.drop_drop, hnext, List.drop_one, List.tail_cons]
    · rw [accepted_dequeue, dequeued_dequeue, hresult, Option.toList_some, hdropped, hk,
        List.take_add, hnext]
      exact hq.gone.append (List.Sublist.refl [r])

/-! ## Runs -/

theorem step_limited (hq : Limited config q) {l : QueueAct R}
    (h : (queueSystem codec).step q l = some q') : Limited config q' := by
  cases l with
  | enqueue r =>
    rcases enqueue_cases h with h | h
    · exact hq.enqueue h
    · rwa [(DetectionQueue.enqueue_false h).1]
  | dequeue =>
    cases h
    exact hq.dequeue

theorem step_suffix (hq : Suffix t q) {l : QueueAct R}
    (h : (queueSystem codec).step q l = some q') : Suffix (t ++ [(q, l)]) q' := by
  cases l with
  | enqueue r =>
    rcases enqueue_cases h with h | h
    · exact hq.enqueue h
    · rw [(DetectionQueue.enqueue_false h).1]
      exact ⟨by rw [accepted_enqueue_false h, hq.enqueued], by rw [dequeued_enqueue, hq.total],
        by rw [accepted_enqueue_false h, dequeued_enqueue, hq.contents],
        by rw [accepted_enqueue_false h, dequeued_enqueue]; exact hq.gone⟩
  | dequeue =>
    cases h
    exact hq.dequeue

/-- With room for an entry every call returns. -/
theorem step_isSome (hq : Limited config q) (hmax : 1 ≤ config.maxEntries) (l : QueueAct R) :
    ∃ q', (queueSystem codec).step q l = some q' := by
  cases l with
  | dequeue => exact ⟨_, rfl⟩
  | enqueue r =>
    have hroom (size : Nat) : ∃ q₁, q.makeRoom size = some q₁ :=
      DetectionQueue.evictLoop_isSome _ (by rw [hq.limits]; omega) rfl
    have hreturns : ∃ p, q.enqueue r = some p := by
      unfold DetectionQueue.enqueue
      split
      next => exact ⟨_, rfl⟩
      next bytes hs =>
        obtain ⟨q₁, hq₁⟩ := hroom bytes.length
        rw [hq₁]
        exact ⟨_, rfl⟩
    obtain ⟨p, hp⟩ := hreturns
    exact ⟨p.1, by simp [queueSystem, hp]⟩

theorem limited_new : Limited config (.new codec config) :=
  ⟨rfl, Nat.zero_le _, fun h => absurd h (Nat.not_lt_zero _)⟩

theorem suffix_new : Suffix [] (DetectionQueue.new codec config) :=
  ⟨rfl, rfl, rfl, List.Sublist.refl _⟩

theorem exists_execTrace (hq : Limited config q) (hmax : 1 ≤ config.maxEntries)
    (calls : List (QueueAct R)) :
    ∃ t q', (queueSystem codec).execTrace q calls = some (t, q') := by
  induction calls generalizing q with
  | nil => exact ⟨[], q, rfl⟩
  | cons l calls ih =>
    obtain ⟨q₁, hs⟩ := step_isSome hq hmax l
    obtain ⟨t, q', ht⟩ := ih (step_limited hq hs)
    exact ⟨(q, l) :: t, q', by simp [TransitionSystem.execTrace, hs, ht]⟩

/-- The calls return whatever they are, and leave a queue within its limits that holds
the most recent of the accepted results. -/
theorem holdsRecent_accepted (codec : Codec R) (config : DetectionQueue.Config)
    (hmax : 1 ≤ config.maxEntries) (calls : List (QueueAct R)) :
    ∃ t q, (queueSystem codec).execTrace (.new codec config) calls = some (t, q) ∧
      q.currentBytes = (q.queue.map List.length).sum ∧ Limited config q ∧ Suffix t q := by
  obtain ⟨t, q, hexec⟩ := exists_execTrace limited_new hmax calls
  obtain ⟨hrun, -⟩ := TransitionSystem.execTrace_run hexec
  refine ⟨t, q, hexec, q.bytes_eq, ?_, ?_⟩
  · exact hrun.invariant (I := Limited config) (fun _ _ _ hq hs => step_limited hq hs) limited_new
  · exact hrun.invariant_history (I := Suffix) (fun _ _ _ _ hq hs => step_suffix hq hs) suffix_new

/-- Three results of which the last one evicts the first. -/
theorem holdsRecent_accepted_threeResults :
    ∃ t q, (queueSystem Codec.byte).execTrace (.new Codec.byte ⟨2, 8⟩)
        [.enqueue 1, .enqueue 2, .enqueue 3] = some (t, q) ∧
      q.currentBytes = (q.queue.map List.length).sum ∧ Limited ⟨2, 8⟩ q ∧ Suffix t q :=
  holdsRecent_accepted Codec.byte ⟨2, 8⟩ (by decide) _

/-- A result that is larger than the whole limit is accepted by an empty queue. -/
theorem not_withinMemory_largeResult :
    ¬ ∀ (R : Type) (codec : Codec R) (config : DetectionQueue.Config) (calls : List (QueueAct R))
        (t : List (DetectionQueue codec × QueueAct R)) (q : DetectionQueue codec),
      1 ≤ config.maxEntries →
      (queueSystem codec).execTrace (.new codec config) calls = some (t, q) →
      q.currentBytes = (q.queue.map List.length).sum ∧ q.queue.length ≤ config.maxEntries ∧
        q.currentBytes ≤ config.maxMemoryBytes ∧ Suffix t q := by
  intro h
  have hexec : ((queueSystem Codec.byte).execTrace (.new Codec.byte ⟨1, 0⟩) [.enqueue 7]).map
      (fun p => p.2.currentBytes) = some 1 := by decide
  obtain ⟨⟨t, q⟩, hexec, hbytes⟩ := Option.map_eq_some_iff.mp hexec
  obtain ⟨-, -, hmemory, -⟩ := h UInt8 Codec.byte ⟨1, 0⟩ [.enqueue 7] t q (by decide) hexec
  rw [hbytes] at hmemory
  cases hmemory

end queueSystem
