-- SUMMARY: The vision worker over items of any shape: only a cancellation ends it, and every item taken is accounted for.
import Mathlib.Data.List.Range
import NeuroPipeline.Lib.TransitionSystem
import NeuroPipeline.Central.VlmItemCode

/-!
# The worker's accounts

Model of `_worker` of vlm_pipeline.py on an `asyncio.Queue`. The worker makes one
call at a time and the surroundings answer it as they like; others put items into
the queue between any two calls. The deadline of a batch may come at any moment.
-/

/-- How the surroundings answer the pending call, whichever it is. -/
structure Surroundings where
  ask : (call : PyCall) → Reply String call.Answer
  hasattr : PyObject → String → Bool
  /-- `time.monotonic()` -/
  monotonic : ℚ
  /-- `time.time()` -/
  time : ℚ

def Surroundings.Uncancelling (env : Surroundings) : Prop := ∀ call, env.ask call ≠ .cancelled

inductive ItemPc where
  | gathering (batch : List PyObject)
  /-- the batched call -/
  | analysing (batch : List PyObject) (code : Code PyObject)
  | processing (item : PyObject) (code : Code Unit) (rest : List PyObject) (idx : Nat)
      (batchResults : PyObject)
  /-- ended by a cancellation -/
  | cancelled (pending : List PyObject)
  /-- ended by an exception -/
  | crashed (error : String) (pending : List PyObject)

/-- The items of the current batch up to the one that is being processed. -/
def ItemPc.inHand : ItemPc → List PyObject
  | .gathering batch | .analysing batch _ => batch
  | .processing item _ rest _ _ => item :: rest
  | .cancelled pending | .crashed _ pending => pending

def ItemPc.inBatch : ItemPc → Bool
  | .analysing _ _ | .processing _ _ _ _ _ => true
  | _ => false

structure ItemWorker where
  pc : ItemPc := .gathering []
  queue : List PyObject
  /-- `_unfinished_tasks` of the queue -/
  unfinished : Nat
  breaker : CircuitBreaker
  commandId : Int := 0
  /-- the errors of the alerts about the breaker -/
  alerts : List String := []
  /-- the calls of `task_done` since the item was begun -/
  taskDones : Nat := 0
  taken : List PyObject := []
  /-- the items whose processing ended, with the calls of `task_done` for each -/
  handled : List (PyObject × Nat) := []

inductive ItemAct where
  | put (item : PyObject)
  | get
  /-- the batch is full or its deadline has come -/
  | dispatch
  | proceed (env : Surroundings)
  /-- the worker is cancelled while it waits for items -/
  | cancel

namespace ItemWorker

/-- What the pipeline's own parts do, and what the surroundings answer. -/
def perform (w : ItemWorker) (env : Surroundings) :
    (c : Call) → ItemWorker × Reply String c.Answer
  | .ask call => (w, env.ask call)
  | .hasattr value name => (w, .returned (env.hasattr value name))
  | .allowRequest =>
    let (breaker, allowed) := w.breaker.allowRequest env.monotonic
    ({ w with breaker }, .returned allowed)
  | .recordSuccess => ({ w with breaker := w.breaker.recordSuccess }, .returned ())
  | .recordFailure => ({ w with breaker := w.breaker.recordFailure env.monotonic }, .returned ())
  | .breakerState => (w, .returned w.breaker.state)
  | .nextCommandId => ({ w with commandId := w.commandId + 1 }, .returned (w.commandId + 1))
  | .createAlertTask error => ({ w with alerts := w.alerts ++ [error] }, .returned ())
  | .time => (w, .returned env.time)
  | .taskDone =>
    let called := { w with taskDones := w.taskDones + 1 }
    if w.unfinished = 0 then (called, .raised "task_done() called too many times")
    else ({ called with unfinished := w.unfinished - 1 }, .returned ())

/-- Make the pending call, or end. -/
def advance {α : Type} (w : ItemWorker) (env : Surroundings) (waiting : Code α → ItemPc)
    (ended : ItemWorker → Reply String α → ItemWorker) : Code α → ItemWorker
  | .done o => ended w o
  | .call c next =>
    let (w', o) := w.perform env c
    { w' with pc := waiting (next o) }

/-- Turn to the items of a batch from the one at `idx` on. -/
def beginItems (p : ItemPipeline) (w : ItemWorker) (batchResults : PyObject) (idx : Nat) :
    List PyObject → ItemWorker
  | [] => { w with pc := .gathering [] }
  | item :: rest =>
    { w with
      pc := .processing item (p.processItem item idx batchResults) rest idx batchResults
      taskDones := 0 }

def endBatch (p : ItemPipeline) (batch : List PyObject) (w : ItemWorker) :
    Reply String PyObject → ItemWorker
  | .returned batchResults => w.beginItems p batchResults 0 batch
  | .raised error => { w with pc := .crashed error batch }
  | .cancelled => { w with pc := .cancelled batch }

def endItem (p : ItemPipeline) (item : PyObject) (rest : List PyObject) (idx : Nat)
    (batchResults : PyObject) (w : ItemWorker) (o : Reply String Unit) : ItemWorker :=
  let w := { w with handled := w.handled ++ [(item, w.taskDones)] }
  match o with
  | .returned _ => w.beginItems p batchResults (idx + 1) rest
  | .raised error => { w with pc := .crashed error rest }
  | .cancelled => { w with pc := .cancelled rest }

/-- There is room in the queue. -/
def hasRoom (p : ItemPipeline) (w : ItemWorker) : Bool :=
  p.queueMaxSize ≤ 0 || (w.queue.length : Int) < p.queueMaxSize

/-- The worker waits for an item, for the first one without a deadline. -/
def waitsForItem (p : ItemPipeline) (batch : List PyObject) : Bool :=
  batch.isEmpty || (batch.length : Int) < p.batchMaxSize

def step (p : ItemPipeline) (w : ItemWorker) : ItemAct → Option ItemWorker
  | .put item =>
    if w.hasRoom p then
      some { w with queue := w.queue ++ [item], unfinished := w.unfinished + 1 }
    else none
  | .get =>
    match w.pc, w.queue with
    | .gathering batch, item :: rest =>
      if waitsForItem p batch then
        some { w with
          pc := .gathering (batch ++ [item])
          queue := rest
          taken := w.taken ++ [item] }
      else none
    | _, _ => none
  | .dispatch =>
    match w.pc with
    | .gathering (item :: batch) =>
      some { w with pc := .analysing (item :: batch) (p.batchResults (item :: batch)) }
    | _ => none
  | .proceed env =>
    match w.pc with
    | .analysing batch code => some (w.advance env (.analysing batch) (endBatch p batch) code)
    | .processing item code rest idx batchResults =>
      some (w.advance env (fun code => .processing item code rest idx batchResults)
        (endItem p item rest idx batchResults) code)
    | _ => none
  | .cancel =>
    match w.pc with
    | .gathering batch =>
      if waitsForItem p batch then some { w with pc := .cancelled batch } else none
    | _ => none

/-- The items of the current batch that `task_done` was not called for. -/
def unhandled (w : ItemWorker) : List PyObject :=
  match w.pc with
  | .processing item _ rest _ _ => if w.taskDones = 0 then item :: rest else rest
  | pc => pc.inHand

/-- The call that the worker's code waits for. -/
def pendingCall (w : ItemWorker) : Option PyCall :=
  match w.pc with
  | .analysing _ (.call (.ask call) _) => some call
  | .processing _ (.call (.ask call) _) _ _ _ => some call
  | _ => none

/-- The worker is cancelled, while it waits for an item or for an answer. -/
def Cancels (w : ItemWorker) (l : ItemAct) : Prop :=
  l = .cancel ∨
    ∃ env call, l = .proceed env ∧ w.pendingCall = some call ∧ env.ask call = .cancelled

end ItemWorker

/-- Items may wait before the worker starts, and the breaker may be in any state. -/
def itemSystem (p : ItemPipeline) : TransitionSystem ItemWorker ItemAct where
  init w := ∃ queue breaker commandId,
    w = { queue, unfinished := queue.length, breaker, commandId }
  step := ItemWorker.step p

namespace ItemWorker

open Code

variable {p : ItemPipeline} {w w' : ItemWorker} {env : Surroundings} {c : Prop} {α : Type}

/-! ## One call -/

/-- What the parts of the pipeline leave alone. -/
structure SameItems (w w' : ItemWorker) : Prop where
  queue : w'.queue = w.queue
  taken : w'.taken = w.taken
  handled : w'.handled = w.handled

theorem perform_same (w : ItemWorker) (env : Surroundings) (call : Call) :
    SameItems w (w.perform env call).1 := by
  cases call with
  | taskDone =>
      by_cases hnone : w.unfinished = 0 <;> simp only [perform, hnone, if_true, if_false] <;>
        exact ⟨rfl, rfl, rfl⟩
  | _ => exact ⟨rfl, rfl, rfl⟩

/-- A call pays what the code owes: while enough is unfinished it is answered as the
code expects, and what is paid is taken off the unfinished count. -/
theorem perform_owes {call : Call} {next : Reply String call.Answer → Code α} {n : Nat}
    (h : Owes c n (.call call next)) (hn : n ≤ w.unfinished)
    (hc : ∀ q, call = .ask q → env.ask q = .cancelled → c) :
    ∃ m ≤ n, Owes c m (next (w.perform env call).2) ∧
      (w.perform env call).1.unfinished + n = w.unfinished + m ∧
      (w.perform env call).1.taskDones + m = w.taskDones + n := by
  cases h with
  | tallied hcall hnext =>
      -- the call of `task_done`: the debt is what keeps it from raising
      subst hcall
      have hpos : w.unfinished ≠ 0 := by omega
      simp only [perform, hpos, if_false]
      exact ⟨_, Nat.le_succ _, hnext (), by omega, by omega⟩
  | other hcall hnext =>
      cases call with
      | ask q =>
          have hadmitted : (env.ask q).Within c := by
            cases hq : env.ask q with
            | returned a => trivial
            | raised e => trivial
            | cancelled => exact hc q rfl hq
          exact ⟨n, le_rfl, hnext _ hadmitted, rfl, rfl⟩
      | taskDone => exact absurd rfl hcall
      -- the pipeline's own parts return
      | _ => exact ⟨n, le_rfl, hnext _ trivial, rfl, rfl⟩

/-! ## The accounts -/

/-- What the code of the worker owes, and the count of unfinished items. -/
def Balanced (c : Prop) (w : ItemWorker) : Prop :=
  match w.pc with
  | .gathering batch => w.unfinished = w.queue.length + batch.length
  | .analysing batch code => Owes c 0 code ∧ w.unfinished = w.queue.length + batch.length
  | .processing _ code rest _ _ =>
    ∃ n, Owes c n code ∧ w.taskDones + n = 1 ∧ w.unfinished = w.queue.length + n + rest.length
  | .cancelled pending => c ∧ w.unfinished = w.queue.length + pending.length
  | .crashed _ _ => False

/-- The accounts are right; the worker is cancelled only under `c`. -/
structure Accounted (c : Prop) (w : ItemWorker) : Prop where
  balanced : w.Balanced c
  once : ∀ r ∈ w.handled, r.2 = 1
  taken : w.taken = w.handled.map Prod.fst ++ w.pc.inHand

theorem accounted_beginItems {batchResults : PyObject} {idx : Nat} {items : List PyObject}
    (hunfinished : w.unfinished = w.queue.length + items.length)
    (honce : ∀ r ∈ w.handled, r.2 = 1) (htaken : w.taken = w.handled.map Prod.fst ++ items) :
    (w.beginItems p batchResults idx items).Accounted c := by
  cases items with
  | nil => exact ⟨hunfinished, honce, htaken⟩
  | cons item rest =>
      refine ⟨⟨1, p.processItem_owes item idx batchResults, rfl, ?_⟩, honce, htaken⟩
      simp only [beginItems, List.length_cons] at hunfinished ⊢
      omega

theorem accounted_endBatch {batch : List PyObject} {o : Reply String PyObject}
    (ho : o.Settled c) (hunfinished : w.unfinished = w.queue.length + batch.length)
    (honce : ∀ r ∈ w.handled, r.2 = 1) (htaken : w.taken = w.handled.map Prod.fst ++ batch) :
    (w.endBatch p batch o).Accounted c := by
  cases o with
  | returned batchResults => exact accounted_beginItems hunfinished honce htaken
  | raised e => exact ho.elim
  | cancelled => exact ⟨⟨ho, hunfinished⟩, honce, htaken⟩

theorem accounted_endItem {item : PyObject} {rest : List PyObject} {idx : Nat}
    {batchResults : PyObject} {o : Reply String Unit} (ho : o.Settled c)
    (hdone : w.taskDones = 1) (hunfinished : w.unfinished = w.queue.length + rest.length)
    (honce : ∀ r ∈ w.handled, r.2 = 1)
    (htaken : w.taken = w.handled.map Prod.fst ++ item :: rest) :
    (w.endItem p item rest idx batchResults o).Accounted c := by
  have honce' : ∀ r ∈ w.handled ++ [(item, w.taskDones)], r.2 = 1 := by
    simpa [or_imp, forall_and, hdone] using honce
  have htaken' : w.taken = (w.handled ++ [(item, w.taskDones)]).map Prod.fst ++ rest := by
    simpa using htaken
  cases o with
  | returned _ => exact accounted_beginItems hunfinished honce' htaken'
  | raised e => exact ho.elim
  | cancelled => exact ⟨⟨ho, hunfinished⟩, honce', htaken'⟩

theorem accounted_analysing {batch : List PyObject} {code : Code PyObject}
    (hpc : w.pc = .analysing batch code) (h : w.Accounted c)
    (hc : ∀ q, w.pendingCall = some q → env.ask q = .cancelled → c) :
    (w.advance env (.analysing batch) (endBatch p batch) code).Accounted c := by
  obtain ⟨hbalanced, honce, htaken⟩ := h
  rw [Balanced, hpc] at hbalanced
  rw [hpc] at htaken
  obtain ⟨howes, hunfinished⟩ := hbalanced
  cases code with
  | done o =>
      cases howes with
      | done ho => exact accounted_endBatch ho hunfinished honce htaken
  | call call next =>
      have hcancel : ∀ q, call = .ask q → env.ask q = .cancelled → c := by
        rintro q rfl
        exact hc q (by rw [pendingCall, hpc])
      obtain ⟨m, hm, howes', hpaid, -⟩ :=
        perform_owes (w := w) howes (Nat.zero_le _) hcancel
      have hsame := perform_same w env call
      -- the batched call never touches the count
      obtain rfl : m = 0 := by omega
      refine ⟨⟨howes', ?_⟩, ?_, ?_⟩
      · show (w.perform env call).1.unfinished = (w.perform env call).1.queue.length + batch.length
        rw [hsame.queue]
        exact hpaid.trans hunfinished
      · exact hsame.handled ▸ honce
      · exact hsame.taken.trans (hsame.handled ▸ htaken)

theorem accounted_processing {item : PyObject} {code : Code Unit} {rest : List PyObject}
    {idx : Nat} {batchResults : PyObject}
    (hpc : w.pc = .processing item code rest idx batchResults) (h : w.Accounted c)
    (hc : ∀ q, w.pendingCall = some q → env.ask q = .cancelled → c) :
    (w.advance env (fun code => .processing item code rest idx batchResults)
      (endItem p item rest idx batchResults) code).Accounted c := by
  obtain ⟨hbalanced, honce, htaken⟩ := h
  rw [Balanced, hpc] at hbalanced
  rw [hpc] at htaken
  obtain ⟨n, howes, hcount, hunfinished⟩ := hbalanced
  cases code with
  | done o =>
      cases howes with
      | done ho => exact accounted_endItem ho hcount hunfinished honce htaken
  | call call next =>
      have hcancel : ∀ q, call = .ask q → env.ask q = .cancelled → c := by
        rintro q rfl
        exact hc q (by rw [pendingCall, hpc])
      obtain ⟨m, hm, howes', hpaid, hcalls⟩ :=
        perform_owes (w := w) howes (by omega) hcancel
      have hsame := perform_same w env call
      refine ⟨⟨m, howes', hcalls.trans hcount, ?_⟩, ?_, ?_⟩
      · show (w.perform env call).1.unfinished =
          (w.perform env call).1.queue.length + m + rest.length
        rw [hsame.queue]
        omega
      · exact hsame.handled ▸ honce
      · exact hsame.taken.trans (hsame.handled ▸ htaken)

theorem Accounted.put {item : PyObject} (h : w.Accounted c) :
    { w with queue := w.queue ++ [item], unfinished := w.unfinished + 1 }.Accounted c := by
  refine ⟨?_, h.once, h.taken⟩
  have hbalanced := h.balanced
  cases hpc : w.pc <;> simp only [Balanced, hpc, List.length_append, List.length_singleton]
    at hbalanced ⊢
  case gathering batch => omega
  case analysing batch code => exact ⟨hbalanced.1, by omega⟩
  case processing item code rest idx batchResults =>
    obtain ⟨n, howes, hcount, hunfinished⟩ := hbalanced
    exact ⟨n, howes, hcount, by omega⟩
  case cancelled pending => exact ⟨hbalanced.1, by omega⟩

theorem Accounted.get {batch rest : List PyObject} {item : PyObject} (h : w.Accounted c)
    (hpc : w.pc = .gathering batch) (hqueue : w.queue = item :: rest) :
    { w with pc := .gathering (batch ++ [item]), queue := rest,
             taken := w.taken ++ [item] }.Accounted c := by
  have hbalanced := h.balanced
  have htaken := h.taken
  simp only [Balanced, hpc, hqueue, List.length_cons] at hbalanced
  rw [hpc, ItemPc.inHand] at htaken
  refine ⟨?_, h.once, by simp [htaken, ItemPc.inHand]⟩
  simp only [Balanced, List.length_append, List.length_singleton]
  omega

theorem Accounted.dispatch {batch : List PyObject} (h : w.Accounted c)
    (hpc : w.pc = .gathering batch) :
    { w with pc := .analysing batch (p.batchResults batch) }.Accounted c := by
  have hbalanced := h.balanced
  have htaken := h.taken
  simp only [Balanced, hpc] at hbalanced
  rw [hpc] at htaken
  exact ⟨⟨p.batchResults_owes batch, hbalanced⟩, h.once, htaken⟩

theorem Accounted.cancel {batch : List PyObject} (h : w.Accounted c)
    (hpc : w.pc = .gathering batch) (hc : c) :
    { w with pc := .cancelled batch }.Accounted c := by
  have hbalanced := h.balanced
  have htaken := h.taken
  simp only [Balanced, hpc] at hbalanced
  rw [hpc] at htaken
  exact ⟨⟨hc, hbalanced⟩, h.once, htaken⟩

/-- Every step keeps the accounts; only a cancellation makes a cancellation possible. -/
theorem Accounted.step {l : ItemAct} (h : w.Accounted c) (hl : w.Cancels l → c)
    (hs : w.step p l = some w') : w'.Accounted c := by
  cases l with
  | put item =>
      simp only [ItemWorker.step, Option.ite_none_right_eq_some, Option.some.injEq] at hs
      obtain ⟨-, rfl⟩ := hs
      exact h.put
  | get =>
      simp only [ItemWorker.step] at hs
      split at hs
      · rename_i batch item rest hpc hqueue
        simp only [Option.ite_none_right_eq_some, Option.some.injEq] at hs
        obtain ⟨-, rfl⟩ := hs
        exact h.get hpc hqueue
      · cases hs
  | dispatch =>
      simp only [ItemWorker.step] at hs
      split at hs
      · rename_i item batch hpc
        obtain rfl := Option.some.inj hs
        exact h.dispatch hpc
      · cases hs
  | proceed env =>
      have hcancel : ∀ q, w.pendingCall = some q → env.ask q = .cancelled → c :=
        fun q hq ho => hl (.inr ⟨env, q, rfl, hq, ho⟩)
      simp only [ItemWorker.step] at hs
      split at hs
      · obtain rfl := Option.some.inj hs
        exact accounted_analysing ‹_› h hcancel
      · obtain rfl := Option.some.inj hs
        exact accounted_processing ‹_› h hcancel
      · cases hs
  | cancel =>
      simp only [ItemWorker.step] at hs
      split at hs
      · rename_i batch hpc
        simp only [Option.ite_none_right_eq_some, Option.some.injEq] at hs
        obtain ⟨-, rfl⟩ := hs
        exact h.cancel hpc (hl (.inl rfl))
      · cases hs

theorem Accounted.unfinished_eq (h : w.Accounted c) :
    w.unfinished = w.queue.length + w.unhandled.length := by
  have hbalanced := h.balanced
  cases hpc : w.pc <;> simp only [Balanced, hpc] at hbalanced
  case gathering batch => simpa [unhandled, hpc, ItemPc.inHand] using hbalanced
  case analysing batch code => simpa [unhandled, hpc, ItemPc.inHand] using hbalanced.2
  case processing item code rest idx batchResults =>
    obtain ⟨n, -, hcount, hunfinished⟩ := hbalanced
    by_cases hdone : w.taskDones = 0 <;> simp [unhandled, hpc, hdone] <;> omega
  case cancelled pending => simpa [unhandled, hpc, ItemPc.inHand] using hbalanced.2

/-! ## A batch comes to its end -/

/-- The calls of a batch, answered by one surroundings after the other. -/
def proceeds (envs : Nat → Surroundings) (n : Nat) : List ItemAct :=
  (List.range n).map fun i => .proceed (envs i)

/-- The worker gets back to the queue with every item it took handled. -/
def Finishes (p : ItemPipeline) (envs : Nat → Surroundings) (w : ItemWorker) : Prop :=
  ∃ n w', (itemSystem p).exec w (proceeds envs n) = some w' ∧ w'.pc = .gathering [] ∧
    w'.handled.map Prod.fst = w.taken

theorem proceeds_succ (envs : Nat → Surroundings) (n : Nat) :
    proceeds envs (n + 1) = .proceed (envs 0) :: proceeds (fun i => envs (i + 1)) n := by
  simp [proceeds, List.range_succ_eq_map]

variable {envs : Nat → Surroundings}

theorem step_analysing {batch : List PyObject} {code : Code PyObject}
    (hpc : w.pc = .analysing batch code) :
    w.step p (.proceed env) = some (w.advance env (.analysing batch) (endBatch p batch) code) := by
  rw [step, hpc]

theorem step_processing {item : PyObject} {code : Code Unit} {rest : List PyObject} {idx : Nat}
    {batchResults : PyObject} (hpc : w.pc = .processing item code rest idx batchResults) :
    w.step p (.proceed env) =
      some (w.advance env (fun code => .processing item code rest idx batchResults)
        (endItem p item rest idx batchResults) code) := by
  rw [step, hpc]

theorem finishes_of_gathering (hpc : w.pc = .gathering []) (h : w.Accounted c) :
    Finishes p envs w := by
  have htaken := h.taken
  rw [hpc, ItemPc.inHand, List.append_nil] at htaken
  exact ⟨0, w, rfl, hpc, htaken.symm⟩

theorem finishes_of_proceed (hs : w.step p (.proceed (envs 0)) = some w')
    (htaken : w'.taken = w.taken) (h : Finishes p (fun i => envs (i + 1)) w') :
    Finishes p envs w := by
  obtain ⟨n, w'', hexec, hpc, hhandled⟩ := h
  refine ⟨n + 1, w'', ?_, hpc, hhandled.trans htaken⟩
  rw [proceeds_succ, TransitionSystem.exec]
  simpa [itemSystem, hs] using hexec

theorem finishes_processing {batchResults : PyObject} {rest : List PyObject}
    (hrest : ∀ (w : ItemWorker) idx envs, (∀ i, (envs i).Uncancelling) →
      (w.beginItems p batchResults idx rest).Accounted False →
      Finishes p envs (w.beginItems p batchResults idx rest))
    {item : PyObject} {idx : Nat} (code : Code Unit)
    (hpc : w.pc = .processing item code rest idx batchResults) (h : w.Accounted False)
    (henvs : ∀ i, (envs i).Uncancelling) : Finishes p envs w := by
  induction code generalizing w envs with
  | done o =>
      have hnext := accounted_processing (p := p) hpc h fun q _ => henvs 0 q
      have howes := h.balanced
      simp only [Balanced, hpc] at howes
      obtain ⟨n, howes, -⟩ := howes
      cases howes with
      | done ho =>
          cases o with
          | raised e => exact ho.elim
          | cancelled => exact ho.elim
          | returned _ =>
              refine finishes_of_proceed (step_processing hpc) ?_ ?_
              · cases rest <;> rfl
              · exact hrest _ _ _ (fun i => henvs (i + 1)) hnext
  | call call next ih =>
      have hnext := accounted_processing (p := p) hpc h fun q _ => henvs 0 q
      refine finishes_of_proceed (step_processing hpc) (perform_same w (envs 0) call).taken ?_
      exact ih _ rfl hnext fun i => henvs (i + 1)

/-- By induction on the rest of the batch. -/
theorem finishes_beginItems {batchResults : PyObject} {items : List PyObject} {idx : Nat}
    (h : (w.beginItems p batchResults idx items).Accounted False)
    (henvs : ∀ i, (envs i).Uncancelling) :
    Finishes p envs (w.beginItems p batchResults idx items) := by
  induction items generalizing w idx envs with
  | nil => exact finishes_of_gathering rfl h
  | cons item rest ih =>
      exact finishes_processing (fun w idx envs henvs h => ih h henvs) _ rfl h henvs

theorem finishes_analysing {batch : List PyObject} (code : Code PyObject)
    (hpc : w.pc = .analysing batch code) (h : w.Accounted False)
    (henvs : ∀ i, (envs i).Uncancelling) : Finishes p envs w := by
  induction code generalizing w envs with
  | done o =>
      have hnext := accounted_analysing (p := p) hpc h fun q _ => henvs 0 q
      have howes := h.balanced
      simp only [Balanced, hpc] at howes
      cases howes.1 with
      | done ho =>
          cases o with
          | raised e => exact ho.elim
          | cancelled => exact ho.elim
          | returned batchResults =>
              refine finishes_of_proceed (step_analysing hpc) ?_ ?_
              · cases batch <;> rfl
              · exact finishes_beginItems hnext fun i => henvs (i + 1)
  | call call next ih =>
      have hnext := accounted_analysing (p := p) hpc h fun q _ => henvs 0 q
      refine finishes_of_proceed (step_analysing hpc) (perform_same w (envs 0) call).taken ?_
      exact ih _ rfl hnext fun i => henvs (i + 1)

/-- The worker goes on: it waits for an item only while the queue is empty, begins with
every batch, and is through with it after finitely many answers. -/
structure GoesOn (p : ItemPipeline) (w : ItemWorker) : Prop where
  get : ∀ item rest, w.pc = .gathering [] → w.queue = item :: rest → ∃ w', w.step p .get = some w'
  dispatch : ∀ item batch, w.pc = .gathering (item :: batch) → ∃ w', w.step p .dispatch = some w'
  finishes : ∀ envs : Nat → Surroundings, w.pc.inBatch → (∀ i, (envs i).Uncancelling) →
    Finishes p envs w

theorem Accounted.goesOn (h : w.Accounted False) : w.GoesOn p where
  get item rest hpc hqueue := by
    simp only [ItemWorker.step, hpc, hqueue, waitsForItem, List.isEmpty_nil, Bool.true_or, if_true]
    exact ⟨_, rfl⟩
  dispatch item batch hpc := by
    simp only [ItemWorker.step, hpc]
    exact ⟨_, rfl⟩
  finishes envs hbatch henvs := by
    cases hpc : w.pc with
    | analysing batch code => exact finishes_analysing code hpc h henvs
    | processing item code rest idx batchResults =>
        refine finishes_processing ?_ code hpc h henvs
        exact fun w idx envs henvs h => finishes_beginItems h henvs
    | gathering batch => simp [hpc, ItemPc.inBatch] at hbatch
    | cancelled pending => simp [hpc, ItemPc.inBatch] at hbatch
    | crashed e pending => simp [hpc, ItemPc.inBatch] at hbatch

theorem accounted_run {w₀ : ItemWorker} {t : List (ItemWorker × ItemAct)}
    (h₀ : (itemSystem p).init w₀) (hrun : (itemSystem p).Run w₀ t w)
    (ht : TransitionSystem.Respects (fun w l => w.Cancels l → c) t) : w.Accounted c := by
  refine hrun.invariant_of_respects (fun w l w' h hl hs => h.step hl hs) ?_ ht
  obtain ⟨queue, breaker, commandId, rfl⟩ := h₀
  exact ⟨rfl, by simp, rfl⟩

/-- A worker without any of its parts, before its first item. -/
def bare : ItemWorker := { queue := [], unfinished := 0, breaker := {} }

def withoutParts : ItemPipeline := ⟨.none, .none, .none, .none, .none, .none, .none, false, 8, 32⟩

/-- An item that is a dictionary with a frame number and nothing else. -/
def keylessItem : PyObject := .dict [("frame_id", .int 1)]

/-- What Python answers about that item. -/
def keyless : Surroundings where
  ask
    | .invoke _ "get" [_, default] _ => .returned default
    | .invoke _ method _ _ => .raised ("no method " ++ method)
    | .truthy value => .returned (!value.isNone)
    | .isInstance _ _ => .returned false
    | .getattr _ name => .raised ("no attribute " ++ name)
    | .subscript _ (.str "frame_id") => .returned (.int 1)
    | .subscript _ (.str key) => .raised key
    | .subscript _ _ => .raised "unhashable"
    | .setSubscript _ _ _ => .returned ()
    | .upTo _ _ => .raised "not a sequence"
    | .len _ => .raised "no length"
    | .iterate _ => .returned ([], none)
    | .unpackPair _ => .raised "not a pair"
    | .text _ => .returned ""
    | .importModule name => .raised ("no module named " ++ name)
  hasattr _ _ := false
  monotonic := 0
  time := 0

end ItemWorker
