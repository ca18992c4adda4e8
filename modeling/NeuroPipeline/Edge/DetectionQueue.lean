-- SUMMARY: The bounded queue of serialized detection results, with the contract of each operation.
import Mathlib.Algebra.GroupWithZero.Nat
import Mathlib.Data.List.Basic

/-!
# Detection queue

Model of detection_queue.cpp. The queue holds serialized messages; an entry is
evicted from the front when the entry or byte limit is reached. Each operation
runs under the queue's own mutex and is one step.
-/

/-- Protobuf's serialization of a message type: parsing undoes serializing. -/
structure Codec (R : Type) where
  serializeToString : R → Option (List UInt8)
  parseFromString : List UInt8 → Option R
  parse_serialize : ∀ r bytes, serializeToString r = some bytes → parseFromString bytes = some r

/-- Messages of a single byte, which are their own serialization. -/
def Codec.byte : Codec UInt8 where
  serializeToString b := some [b]
  parseFromString
    | [b] => some b
    | _ => none
  parse_serialize := by
    intro r bytes h
    cases h
    rfl

/-- Messages from a table, which are serialized as their place in it. -/
def Codec.table {R : Type} [DecidableEq R] (messages : List R) : Codec R where
  serializeToString r :=
    if r ∈ messages ∧ messages.idxOf r < 256 then some [(messages.idxOf r).toUInt8] else none
  parseFromString
    | [b] => messages[b.toNat]?
    | _ => none
  parse_serialize := by
    intro r bytes h
    split at h
    next hr =>
      cases h
      have hplace : (messages.idxOf r).toUInt8.toNat = messages.idxOf r := by
        simp
        omega
      simp only [hplace]
      exact List.getElem?_idxOf hr.1
    next => cases h

structure DetectionQueue.Config where
  maxEntries : Nat := 1000
  maxMemoryBytes : Nat := 64 * 1024 * 1024

/-- The state under the queue's mutex. The byte count is the size of the
entries, and every entry was put there by serializing a result. -/
structure DetectionQueue {R : Type} (codec : Codec R) where
  config : DetectionQueue.Config
  queue : List (List UInt8)
  currentBytes : Nat
  enqueued : Nat
  dropped : Nat
  bytes_eq : currentBytes = (queue.map List.length).sum
  serialized : ∀ b ∈ queue, ∃ r, codec.serializeToString r = some b

namespace DetectionQueue

variable {R : Type} {codec : Codec R}

def new (codec : Codec R) (config : Config) : DetectionQueue codec where
  config := config
  queue := []
  currentBytes := 0
  enqueued := 0
  dropped := 0
  bytes_eq := by simp
  serialized := by simp

/-- The results the entries stand for, oldest first. -/
def contents (q : DetectionQueue codec) : List R :=
  q.queue.filterMap codec.parseFromString

def empty (q : DetectionQueue codec) : Bool := q.queue.isEmpty

/-! ## Operations -/

def evictOldest (q : DetectionQueue codec) : DetectionQueue codec :=
  match h : q.queue with
  | [] => q
  | front :: rest =>
    { q with
      queue := rest
      currentBytes := q.currentBytes - front.length
      dropped := q.dropped + 1
      bytes_eq := by rw [q.bytes_eq, h]; simp
      serialized := fun b hb => q.serialized b (h ▸ List.mem_cons_of_mem front hb) }

/-- The condition of the eviction loop for a new entry of the given size. -/
def needsRoom (q : DetectionQueue codec) (size : Nat) : Bool :=
  q.config.maxEntries ≤ q.queue.length ||
    (q.config.maxMemoryBytes < q.currentBytes + size && !q.queue.isEmpty)

/-- The eviction loop. Each round but the last shortens the queue, so after as
many rounds as there are entries the queue is empty; a loop that still asks for
room then evicts nothing any more and never ends (`none`). -/
def evictLoop (size : Nat) : Nat → DetectionQueue codec → Option (DetectionQueue codec)
  | 0, q => if q.needsRoom size then none else some q
  | n + 1, q => if q.needsRoom size then evictLoop size n q.evictOldest else some q

def makeRoom (q : DetectionQueue codec) (size : Nat) : Option (DetectionQueue codec) :=
  evictLoop size q.queue.length q

def pushBack (q : DetectionQueue codec) (bytes : List UInt8)
    (h : ∃ r, codec.serializeToString r = some bytes) : DetectionQueue codec :=
  { q with
    queue := q.queue ++ [bytes]
    currentBytes := q.currentBytes + bytes.length
    enqueued := q.enqueued + 1
    bytes_eq := by simp [q.bytes_eq]
    serialized := by
      intro b hb
      rcases List.mem_append.mp hb with hb | hb
      · exact q.serialized b hb
      · rwa [List.mem_singleton.mp hb] }

/-- `Enqueue`; `none` when the eviction loop never ends. A result that cannot be
serialized is refused. -/
def enqueue (q : DetectionQueue codec) (result : R) : Option (DetectionQueue codec × Bool) :=
  match h : codec.serializeToString result with
  | none => some (q, false)
  | some bytes => (q.makeRoom bytes.length).map fun q' => (q'.pushBack bytes ⟨result, h⟩, true)

/-- `Dequeue`; an entry that does not parse is discarded. -/
def dequeue (q : DetectionQueue codec) : DetectionQueue codec × Option R :=
  match h : q.queue with
  | [] => (q, none)
  | front :: rest =>
    ({ q with
        queue := rest
        currentBytes := q.currentBytes - front.length
        bytes_eq := by rw [q.bytes_eq, h]; simp
        serialized := fun b hb => q.serialized b (h ▸ List.mem_cons_of_mem front hb) },
      codec.parseFromString front)

/-! ## Contents -/

@[simp] theorem contents_new (config : Config) : (new codec config).contents = [] := rfl

@[simp] theorem dropped_new (config : Config) : (new codec config).dropped = 0 := rfl

theorem parse_mem {q : DetectionQueue codec} {b : List UInt8} (hb : b ∈ q.queue) :
    ∃ r, codec.parseFromString b = some r := by
  obtain ⟨r, hr⟩ := q.serialized b hb
  exact ⟨r, codec.parse_serialize r b hr⟩

theorem contents_cons {q : DetectionQueue codec} {front : List UInt8} {rest : List (List UInt8)}
    (h : q.queue = front :: rest) :
    ∃ r, codec.parseFromString front = some r ∧
      q.contents = r :: rest.filterMap codec.parseFromString := by
  obtain ⟨r, hr⟩ := q.parse_mem (b := front) (by simp [h])
  exact ⟨r, hr, by simp [contents, h, hr]⟩

theorem contents_eq_nil {q : DetectionQueue codec} : q.contents = [] ↔ q.empty = true := by
  cases h : q.queue with
  | nil => simp [contents, empty, h]
  | cons front rest =>
      obtain ⟨r, -, hc⟩ := contents_cons h
      simp [hc, empty, h]

theorem contents_evictOldest (q : DetectionQueue codec) :
    q.evictOldest.contents = q.contents.tail := by
  unfold evictOldest
  split
  next h => simp [contents, h]
  next front rest h =>
    obtain ⟨r, -, hc⟩ := contents_cons h
    rw [hc]
    rfl

theorem evictOldest_of_queue_ne_nil {q : DetectionQueue codec} (h : q.queue ≠ []) :
    q.evictOldest.queue.length + 1 = q.queue.length ∧
      q.evictOldest.dropped = q.dropped + 1 := by
  unfold evictOldest
  split
  next h' => exact absurd h' h
  next front rest h' => simp [h']

/-! ## What each operation does to the contents -/

/-- The loop drops some of the oldest entries and counts each of them. -/
theorem evictLoop_contents {size n : Nat} {q q' : DetectionQueue codec}
    (hn : n = q.queue.length) (h : evictLoop size n q = some q') :
    ∃ k, q'.contents = q.contents.drop k ∧ k ≤ q.contents.length ∧
      q'.dropped = q.dropped + k := by
  induction n generalizing q with
  | zero =>
      simp only [evictLoop] at h
      split at h
      · cases h
      · cases h
        exact ⟨0, by simp⟩
  | succ n ih =>
      simp only [evictLoop] at h
      split at h
      · have hne : q.queue ≠ [] := by
          intro hnil
          simp [hnil] at hn
        obtain ⟨hlen, hdrop⟩ := evictOldest_of_queue_ne_nil hne
        obtain ⟨k, hcont, hk, hdropped⟩ := ih (by omega) h
        obtain ⟨front, rest, hq⟩ := List.exists_cons_of_ne_nil hne
        obtain ⟨r, -, hc⟩ := contents_cons hq
        rw [contents_evictOldest] at hcont hk
        rw [hc] at hcont hk ⊢
        exact ⟨k + 1, by simpa using hcont, by simpa using hk, by omega⟩
      · cases h
        exact ⟨0, by simp⟩

theorem makeRoom_contents {size : Nat} {q q' : DetectionQueue codec}
    (h : q.makeRoom size = some q') :
    ∃ k, q'.contents = q.contents.drop k ∧ k ≤ q.contents.length ∧
      q'.dropped = q.dropped + k :=
  evictLoop_contents rfl h

theorem contents_pushBack {q : DetectionQueue codec} {bytes : List UInt8} {r : R}
    (h : codec.serializeToString r = some bytes) :
    (q.pushBack bytes ⟨r, h⟩).contents = q.contents ++ [r] := by
  simp [contents, pushBack, codec.parse_serialize r bytes h]

/-- An accepted result goes to the back; some of the oldest entries may go, each
counted as dropped. -/
theorem enqueue_true {q q' : DetectionQueue codec} {r : R} (h : q.enqueue r = some (q', true)) :
    ∃ k, q'.contents = q.contents.drop k ++ [r] ∧ k ≤ q.contents.length ∧
      q'.dropped = q.dropped + k := by
  unfold enqueue at h
  split at h
  next => simp at h
  next bytes hs =>
    simp only [Option.map_eq_some_iff, Prod.mk.injEq, and_true] at h
    obtain ⟨q₁, hroom, rfl⟩ := h
    obtain ⟨k, hcont, hk, hdropped⟩ := makeRoom_contents hroom
    exact ⟨k, by rw [contents_pushBack hs, hcont], hk, hdropped⟩

/-- Only a result that cannot be serialized is refused, and then nothing changes. -/
theorem enqueue_false {q q' : DetectionQueue codec} {r : R}
    (h : q.enqueue r = some (q', false)) : q' = q ∧ codec.serializeToString r = none := by
  unfold enqueue at h
  split at h
  next hs =>
    simp only [Option.some.injEq, Prod.mk.injEq, and_true] at h
    exact ⟨h.symm, hs⟩
  next => simp at h

theorem serialize_of_enqueue_true {q q' : DetectionQueue codec} {r : R}
    (h : q.enqueue r = some (q', true)) : codec.serializeToString r ≠ none := by
  intro hnone
  unfold enqueue at h
  split at h
  next => simp at h
  next bytes hs =>
    rw [hs] at hnone
    cases hnone

theorem dequeue_some {q q' : DetectionQueue codec} {r : R} (h : q.dequeue = (q', some r)) :
    q.contents = r :: q'.contents ∧ q'.dropped = q.dropped := by
  unfold dequeue at h
  split at h
  next => simp at h
  next front rest hq =>
    obtain ⟨r', hr', hc⟩ := contents_cons hq
    obtain ⟨rfl, hr⟩ := Prod.mk.inj h
    rw [hr'] at hr
    cases hr
    exact ⟨hc, rfl⟩

/-- `Dequeue` fails on an empty queue only: every entry parses. -/
theorem dequeue_none {q q' : DetectionQueue codec} (h : q.dequeue = (q', none)) :
    q' = q ∧ q.contents = [] := by
  unfold dequeue at h
  split at h
  next hq =>
    simp only [Prod.mk.injEq, and_true] at h
    exact ⟨h.symm, by simp [contents, hq]⟩
  next front rest hq =>
    obtain ⟨r, hr, -⟩ := contents_cons hq
    rw [hr] at h
    simp at h

/-! ## Limits of the eviction loop -/

theorem evictOldest_config (q : DetectionQueue codec) : q.evictOldest.config = q.config := by
  unfold evictOldest
  split <;> rfl

theorem evictOldest_enqueued (q : DetectionQueue codec) :
    q.evictOldest.enqueued = q.enqueued := by
  unfold evictOldest
  split <;> rfl

theorem length_evictOldest (q : DetectionQueue codec) :
    q.evictOldest.queue.length = q.queue.length - 1 := by
  unfold evictOldest
  split
  next h => simp [h]
  next front rest h => simp [h]

theorem needsRoom_of_empty {q : DetectionQueue codec} {size : Nat} (h : q.queue = []) :
    q.needsRoom size = decide (q.config.maxEntries = 0) := by
  simp [needsRoom, h]

/-- What the loop leaves needs no more room, and has the counter and the limits it had. -/
theorem evictLoop_spec {size n : Nat} {q q' : DetectionQueue codec}
    (h : evictLoop size n q = some q') :
    q'.needsRoom size = false ∧ q'.config = q.config ∧ q'.enqueued = q.enqueued := by
  induction n generalizing q with
  | zero =>
      cases hroom : q.needsRoom size with
      | true =>
          simp only [evictLoop, hroom, if_true] at h
          cases h
      | false =>
          simp only [evictLoop, hroom, Bool.false_eq_true, if_false] at h
          cases h
          exact ⟨hroom, rfl, rfl⟩
  | succ n ih =>
      cases hroom : q.needsRoom size with
      | true =>
          simp only [evictLoop, hroom, if_true] at h
          obtain ⟨hdone, hconfig, henqueued⟩ := ih h
          exact ⟨hdone, hconfig.trans q.evictOldest_config,
            henqueued.trans q.evictOldest_enqueued⟩
      | false =>
          simp only [evictLoop, hroom, Bool.false_eq_true, if_false] at h
          cases h
          exact ⟨hroom, rfl, rfl⟩

/-- With room for an entry the loop ends, at the latest when the queue is empty. -/
theorem evictLoop_isSome (size : Nat) {n : Nat} {q : DetectionQueue codec}
    (hmax : q.config.maxEntries ≠ 0) (hn : n = q.queue.length) :
    ∃ q', evictLoop size n q = some q' := by
  induction n generalizing q with
  | zero =>
      have hempty : q.queue = [] := List.eq_nil_of_length_eq_zero hn.symm
      have hroom : q.needsRoom size = false := by
        rw [needsRoom_of_empty hempty]
        exact decide_eq_false hmax
      exact ⟨q, by simp [evictLoop, hroom]⟩
  | succ n ih =>
      cases hroom : q.needsRoom size with
      | true =>
          have hlen : n = q.evictOldest.queue.length := by
            rw [length_evictOldest]
            omega
          obtain ⟨q', hq'⟩ := ih (q.evictOldest_config.symm ▸ hmax) hlen
          exact ⟨q', by simpa [evictLoop, hroom] using hq'⟩
      | false => exact ⟨q, by simp [evictLoop, hroom]⟩

theorem length_contents (q : DetectionQueue codec) : q.contents.length = q.queue.length := by
  have hall : ∀ b ∈ q.queue, (codec.parseFromString b).isSome := by
    intro b hb
    obtain ⟨r, hr⟩ := q.parse_mem hb
    rw [hr]
    rfl
  rw [contents, List.length_filterMap_eq_countP]
  exact List.countP_eq_length.mpr hall

end DetectionQueue
