-- SUMMARY: The records of the detection store: inserts that are retried on one connection, and how often each is committed.
import Mathlib.Algebra.Order.Ring.Rat
import NeuroPipeline.Central.VlmConfigGuide
import NeuroPipeline.Lib.Transaction
import NeuroPipeline.Lib.TransitionSystem

/-!
# Records of the store

Model of `record` of the three repositories of detection_store.py with
`retry_sync` of retry.py, and of `cleanup`. The lock is held for one attempt:
between two attempts of a call, other calls go on. A commit that fails leaves the
transaction open with its rows, and an insert that fails adds nothing.
-/

/-! ## Rows -/

/-- The fields of an event that `record` reads; `none` for a key that is not there. -/
structure DetectionEvent where
  timestamp : Option ℚ := none
  frameId : Option Int := none
  traceId : Option String := none
  type : Option String := none
  /-- as dumped to JSON -/
  detections : Option String := none
  vlmResult : Option String := none
  rule : Option String := none
  deviceId : Option String := none
  deriving DecidableEq

inductive StoreRecord where
  | detection (event : DetectionEvent)
  | timeseries (deviceId metricName : String) (value : Binary64) (timestamp : ℚ)
  | conversation (deviceId role content contextType : String) (timestamp : ℚ)
  deriving DecidableEq

inductive StoreRow where
  | detection (timestamp : ℚ) (frameId : Option Int) (traceId : Option String) (eventType : String)
      (detectionsJson : String) (vlmResult ruleMatched : Option String) (deviceId : String)
  | timeseries (timestamp : ℚ) (deviceId metricName : String) (value : Binary64)
  | conversation (deviceId : String) (timestamp : ℚ) (role content contextType : String)
  deriving DecidableEq

/-- `timestamp or time.time()` -/
def orNow (timestamp now : ℚ) : ℚ := if timestamp = 0 then now else timestamp

/-- The row that an attempt inserts. A detection reads the clock at each attempt, the
others at the call. -/
def StoreRecord.row (calledAt now : ℚ) : StoreRecord → StoreRow
  | .detection e =>
    .detection (e.timestamp.getD now) e.frameId e.traceId (e.type.getD "detection")
      (e.detections.getD "[]") e.vlmResult e.rule (e.deviceId.getD "")
  | .timeseries deviceId metricName value timestamp =>
    .timeseries (orNow timestamp calledAt) deviceId metricName value
  | .conversation deviceId role content contextType timestamp =>
    .conversation deviceId (orNow timestamp calledAt) role content contextType

/-- A row, and the call that has inserted it. -/
structure StoredRow where
  call : Nat
  row : StoreRow
  deriving DecidableEq

/-- A detection from before the cutoff. -/
def StoredRow.expired (cutoff : ℚ) (r : StoredRow) : Bool :=
  match r.row with
  | .detection timestamp .. => timestamp < cutoff
  | _ => false

/-! ## Calls -/

/-- How a pair of `execute` and `commit` ends. -/
inductive SqlOutcome where
  | executeRaises
  | commitRaises
  | commits
  deriving DecidableEq

inductive CallStatus where
  /-- so many attempts have failed -/
  | retrying (failed : Nat)
  | returned
  | raised
  deriving DecidableEq

structure RecordCall where
  record : StoreRecord
  calledAt : ℚ
  status : CallStatus
  deriving DecidableEq

structure DetectionStore where
  conn : Transaction StoredRow
  calls : List RecordCall

inductive StoreAct where
  | record (r : StoreRecord) (now : ℚ)
  | attempt (call : Nat) (outcome : SqlOutcome) (now : ℚ)
  | cleanup (cutoff : ℚ) (outcome : SqlOutcome)
  /-- the store is closed, and opened again: nothing is left of an open transaction -/
  | close
  deriving DecidableEq

namespace DetectionStore

def maxRetries : Nat := 3

/-- An attempt of `retry_sync` has raised: the last one is not caught. -/
def failed (n : Nat) : CallStatus := if n = maxRetries then .raised else .retrying (n + 1)

/-- `execute` and `commit`, with what the statement does. -/
def transact (conn : Transaction StoredRow) (statement : Transaction StoredRow → Transaction StoredRow) :
    SqlOutcome → Transaction StoredRow
  | .executeRaises => conn
  | .commitRaises => statement conn
  | .commits => (statement conn).commit

def attemptStatus (n : Nat) : SqlOutcome → CallStatus
  | .commits => .returned
  | .executeRaises | .commitRaises => failed n

def step (s : DetectionStore) : StoreAct → Option DetectionStore
  | .record r now => some { s with calls := s.calls ++ [⟨r, now, .retrying 0⟩] }
  | .attempt call outcome now =>
    match s.calls[call]? with
    | some ⟨record, calledAt, .retrying n⟩ =>
      some {
        conn := transact s.conn (·.insert ⟨call, record.row calledAt now⟩) outcome
        calls := s.calls.set call ⟨record, calledAt, attemptStatus n outcome⟩ }
    | _ => none
  | .cleanup cutoff outcome =>
    some { s with conn := transact s.conn (·.delete (StoredRow.expired cutoff)) outcome }
  | .close => some { s with conn := s.conn.rollback }

end DetectionStore

def storeSystem : TransitionSystem DetectionStore StoreAct where
  init s := ∃ table, s = ⟨.ofTable table, []⟩
  step := DetectionStore.step

namespace DetectionStore

variable {s s' : DetectionStore}

/-- How many rows of a call have been committed. -/
def added (s : DetectionStore) (call : Nat) : Nat :=
  s.conn.published.countP fun r => r.call = call

/-- A call that has returned has added one row, one that has raised none. -/
def ExactlyOnce (s : DetectionStore) : Prop :=
  ∀ call c, s.calls[call]? = some c →
    (c.status = .returned → s.added call = 1) ∧ (c.status = .raised → s.added call = 0)

/-- A commit that succeeds finds no rows of an attempt whose commit has failed. -/
def CommitsAlone (s : DetectionStore) : StoreAct → Prop
  | .attempt _ .commits _ => s.conn.fresh = []
  | .cleanup cutoff .commits => (s.conn.delete (StoredRow.expired cutoff)).fresh = []
  | _ => True

/-! ## What is added -/

/-- How many rows a call is to have added. -/
def due : CallStatus → Nat
  | .returned => 1
  | .retrying _ | .raised => 0

@[simp] theorem due_retrying (n : Nat) : due (.retrying n) = 0 := rfl

@[simp] theorem due_failed (n : Nat) : due (failed n) = 0 := by
  rw [failed]
  split <;> rfl

/-- How many of the rows are a call's. -/
def rowsOf (rows : List StoredRow) (call : Nat) : Nat := rows.countP fun r => r.call = call

@[simp] theorem rowsOf_nil (call : Nat) : rowsOf [] call = 0 := rfl

@[simp] theorem rowsOf_append (rows rows' : List StoredRow) (call : Nat) :
    rowsOf (rows ++ rows') call = rowsOf rows call + rowsOf rows' call :=
  List.countP_append

@[simp] theorem rowsOf_singleton_self (call : Nat) (row : StoreRow) :
    rowsOf [⟨call, row⟩] call = 1 := by
  simp [rowsOf]

theorem rowsOf_singleton_of_ne {call call' : Nat} (row : StoreRow) (h : call ≠ call') :
    rowsOf [⟨call, row⟩] call' = 0 := by
  simp [rowsOf, h]

theorem rowsOf_pos {rows : List StoredRow} {r : StoredRow} (h : r ∈ rows) :
    0 < rowsOf rows r.call :=
  List.countP_pos_iff.mpr ⟨r, h, by simp⟩

/-- What a commit adds. -/
def committed (s : DetectionStore) : StoreAct → List StoredRow
  | .attempt call .commits now =>
    match s.calls[call]? with
    | some c => s.conn.fresh ++ [⟨call, c.record.row c.calledAt now⟩]
    | none => []
  | .cleanup cutoff .commits => (s.conn.delete (StoredRow.expired cutoff)).fresh
  | _ => []

theorem step_attempt {call : Nat} {outcome : SqlOutcome} {now : ℚ}
    (hs : s.step (.attempt call outcome now) = some s') :
    ∃ record calledAt n, s.calls[call]? = some ⟨record, calledAt, .retrying n⟩ ∧
      s'.conn = transact s.conn (·.insert ⟨call, record.row calledAt now⟩) outcome ∧
      s'.calls = s.calls.set call ⟨record, calledAt, attemptStatus n outcome⟩ := by
  cases hcall : s.calls[call]? with
  | none => simp [step, hcall] at hs
  | some c =>
      obtain ⟨record, calledAt, status⟩ := c
      cases status with
      | returned => simp [step, hcall] at hs
      | raised => simp [step, hcall] at hs
      | retrying n =>
          simp only [step, hcall, Option.some.injEq] at hs
          subst hs
          exact ⟨record, calledAt, n, rfl, rfl, rfl⟩

/-- Only commits add rows: those that are fresh, and their own. -/
theorem step_published {l : StoreAct} (hs : s.step l = some s') (call : Nat) :
    s'.added call = s.added call + rowsOf (s.committed l) call := by
  have hadded : ∀ x : DetectionStore, x.added call = rowsOf x.conn.published call := fun _ => rfl
  rw [hadded, hadded, ← rowsOf_append]
  cases l with
  | record r now =>
      obtain rfl := Option.some.inj hs
      simp [committed]
  | close =>
      obtain rfl := Option.some.inj hs
      simp [committed]
  | attempt call' outcome now =>
      obtain ⟨record, calledAt, n, hcall, hconn, -⟩ := step_attempt hs
      cases outcome <;> simp [hconn, transact, committed, hcall]
  | cleanup cutoff outcome =>
      obtain rfl := Option.some.inj hs
      cases outcome <;> simp [transact, committed]

/-! ## Commits that find nothing -/

/-- Every call has added what is due. -/
def Balanced (s : DetectionStore) : Prop :=
  ∀ call, s.added call = ((s.calls[call]?).map fun c => due c.status).getD 0

theorem Balanced.exactlyOnce (h : s.Balanced) : s.ExactlyOnce := by
  intro call c hc
  have hadded := h call
  rw [hc, Option.map_some, Option.getD_some] at hadded
  constructor
  · intro hreturned
    rw [hadded, hreturned]
    rfl
  · intro hraised
    rw [hadded, hraised]
    rfl

/-- A status that is due the same leaves the balance as it is. -/
theorem Balanced.set_calls (h : s.Balanced) {call : Nat} {c c' : RecordCall}
    (hc : s.calls[call]? = some c) (hcalls : s'.calls = s.calls.set call c')
    (hadded : ∀ call', s'.added call' =
      s.added call' + if call' = call then due c'.status - due c.status else 0)
    (hle : due c.status ≤ due c'.status) : s'.Balanced := by
  intro call'
  have hlen : call < s.calls.length := (List.getElem?_eq_some_iff.mp hc).1
  have hbefore := h call'
  rw [hadded, hcalls]
  by_cases hcall : call' = call
  · subst hcall
    rw [hc] at hbefore
    simp only [Option.map_some, Option.getD_some] at hbefore
    simp only [if_true, List.getElem?_set_self hlen, Option.map_some, Option.getD_some]
    omega
  · rw [if_neg hcall, List.getElem?_set_ne (Ne.symm hcall)]
    exact hbefore

theorem Balanced.step {l : StoreAct} (h : s.Balanced) (hl : s.CommitsAlone l)
    (hs : s.step l = some s') : s'.Balanced := by
  have hadded := step_published hs
  cases l with
  | record r now =>
      obtain rfl := Option.some.inj hs
      intro call
      rw [hadded call, h call]
      by_cases hcall : call < s.calls.length
      · simp [committed, List.getElem?_append_left hcall]
      · have hnone : s.calls[call]? = none := List.getElem?_eq_none (by omega)
        rw [hnone, List.getElem?_append_right (by omega)]
        cases call - s.calls.length <;> simp [committed, due]
  | close =>
      obtain rfl := Option.some.inj hs
      intro call
      rw [hadded call]
      exact h call
  | cleanup cutoff outcome =>
      obtain rfl := Option.some.inj hs
      intro call
      rw [hadded call]
      cases outcome with
      | executeRaises => exact h call
      | commitRaises => exact h call
      | commits =>
          have hnone : s.committed (.cleanup cutoff .commits) = [] := hl
          rw [hnone]
          exact h call
  | attempt call outcome now =>
      obtain ⟨record, calledAt, n, hcall, -, hcalls⟩ := step_attempt hs
      apply h.set_calls hcall hcalls
      · intro call'
        rw [hadded call']
        cases outcome with
        | executeRaises => simp [committed, attemptStatus]
        | commitRaises => simp [committed, attemptStatus]
        | commits =>
            have hfresh : s.conn.fresh = [] := hl
            by_cases hc : call' = call
            · subst hc
              simp [committed, hcall, hfresh, attemptStatus, due]
            · simp [committed, hcall, hfresh, hc, rowsOf_singleton_of_ne _ (Ne.symm hc)]
      · exact Nat.zero_le _

/-! ## Commits that find rows -/

/-- Some call has added more than is due. -/
def Spoiled (s : DetectionStore) : Prop :=
  ∃ call c, s.calls[call]? = some c ∧ due c.status < s.added call

/-- A row in an open transaction is of a call that has not returned. -/
def FreshOpen (s : DetectionStore) : Prop :=
  ∀ r ∈ s.conn.fresh, ∃ c, s.calls[r.call]? = some c ∧ c.status ≠ .returned

theorem due_of_not_returned {status : CallStatus} (h : status ≠ .returned) : due status = 0 := by
  cases status with
  | returned => exact absurd rfl h
  | retrying n => rfl
  | raised => rfl

/-- With every call finished, too much is not exactly once. -/
theorem Spoiled.not_exactlyOnce (h : s.Spoiled)
    (hdone : ∀ c ∈ s.calls, ∀ n, c.status ≠ .retrying n) : ¬ s.ExactlyOnce := by
  obtain ⟨call, c, hc, hlt⟩ := h
  intro honce
  obtain ⟨hreturned, hraised⟩ := honce call c hc
  cases hstatus : c.status with
  | retrying n => exact hdone c (List.mem_of_getElem? hc) n hstatus
  | returned =>
      rw [hreturned hstatus, hstatus] at hlt
      exact absurd hlt (Nat.lt_irrefl 1)
  | raised =>
      rw [hraised hstatus] at hlt
      exact absurd hlt (Nat.not_lt_zero _)

theorem Spoiled.step {l : StoreAct} (h : s.Spoiled) (hs : s.step l = some s') : s'.Spoiled := by
  obtain ⟨call, c, hc, hlt⟩ := h
  have hadded := step_published hs call
  have hlen : call < s.calls.length := (List.getElem?_eq_some_iff.mp hc).1
  have hkeep : s'.calls[call]? = some c → s'.Spoiled := fun hc' => ⟨call, c, hc', by omega⟩
  cases l with
  | record r now =>
      obtain rfl := Option.some.inj hs
      apply hkeep
      simpa [List.getElem?_append_left hlen] using hc
  | close =>
      obtain rfl := Option.some.inj hs
      exact hkeep hc
  | cleanup cutoff outcome =>
      obtain rfl := Option.some.inj hs
      exact hkeep hc
  | attempt call' outcome now =>
      obtain ⟨record, calledAt, n, hcall, -, hcalls⟩ := step_attempt hs
      by_cases heq : call' = call
      · subst heq
        obtain rfl := Option.some.inj (hcall.symm.trans hc)
        refine ⟨call', _, by rw [hcalls, List.getElem?_set_self hlen], ?_⟩
        rw [due_retrying] at hlt
        cases outcome with
        | executeRaises =>
            simp only [attemptStatus, due_failed]
            omega
        | commitRaises =>
            simp only [attemptStatus, due_failed]
            omega
        | commits =>
            -- one more is due, and one more is added
            simp only [committed, hcall, rowsOf_append, rowsOf_singleton_self] at hadded
            simp only [attemptStatus, due]
            omega
      · apply hkeep
        rw [hcalls, List.getElem?_set_ne heq, hc]

/-- A commit that finds rows adds too much to their calls. -/
theorem spoiled_of_found {l : StoreAct} (hfresh : s.FreshOpen) (hl : ¬ s.CommitsAlone l)
    (hs : s.step l = some s') : s'.Spoiled := by
  have hadded := step_published hs
  cases l with
  | record r now => exact absurd trivial hl
  | close => exact absurd trivial hl
  | cleanup cutoff outcome =>
      cases outcome with
      | executeRaises => exact absurd trivial hl
      | commitRaises => exact absurd trivial hl
      | commits =>
          obtain ⟨r, hr⟩ := List.exists_mem_of_ne_nil _ hl
          obtain ⟨c, hc, hopen⟩ := hfresh r (List.mem_of_mem_filter hr)
          obtain rfl := Option.some.inj hs
          refine ⟨r.call, c, hc, ?_⟩
          have hpos := rowsOf_pos hr
          have hcount := hadded r.call
          rw [committed] at hcount
          rw [due_of_not_returned hopen]
          omega
  | attempt call outcome now =>
      obtain ⟨record, calledAt, n, hcall, -, hcalls⟩ := step_attempt hs
      cases outcome with
      | executeRaises => exact absurd trivial hl
      | commitRaises => exact absurd trivial hl
      | commits =>
          obtain ⟨r, hr⟩ := List.exists_mem_of_ne_nil _ hl
          obtain ⟨c, hc, hopen⟩ := hfresh r hr
          have hpos := rowsOf_pos hr
          have hcount := hadded r.call
          simp only [committed, hcall, rowsOf_append] at hcount
          by_cases heq : call = r.call
          · subst heq
            have hlen : r.call < s.calls.length := (List.getElem?_eq_some_iff.mp hc).1
            refine ⟨r.call, _, by rw [hcalls, List.getElem?_set_self hlen], ?_⟩
            rw [rowsOf_singleton_self] at hcount
            simp only [attemptStatus, due]
            omega
          · refine ⟨r.call, c, by rw [hcalls, List.getElem?_set_ne heq, hc], ?_⟩
            rw [due_of_not_returned hopen]
            omega

theorem failed_ne_returned (n : Nat) : failed n ≠ .returned := by
  rw [failed]
  split <;> simp

/-- An attempt that does not commit returns to no call. -/
theorem not_returned_attempt {call call' : Nat} {outcome : SqlOutcome} {now : ℚ}
    (hs : s.step (.attempt call outcome now) = some s') (houtcome : outcome ≠ .commits)
    (hcall' : call' = call ∨ ∃ c, s.calls[call']? = some c ∧ c.status ≠ .returned) :
    ∃ c, s'.calls[call']? = some c ∧ c.status ≠ .returned := by
  obtain ⟨record, calledAt, n, hcall, -, hcalls⟩ := step_attempt hs
  have hlen : call < s.calls.length := (List.getElem?_eq_some_iff.mp hcall).1
  rw [hcalls]
  by_cases heq : call = call'
  · subst heq
    refine ⟨_, List.getElem?_set_self hlen, ?_⟩
    cases outcome with
    | commits => exact absurd rfl houtcome
    | executeRaises => exact failed_ne_returned n
    | commitRaises => exact failed_ne_returned n
  · rw [List.getElem?_set_ne heq]
    exact hcall'.resolve_left (Ne.symm heq)

theorem FreshOpen.step {l : StoreAct} (h : s.FreshOpen) (hs : s.step l = some s') :
    s'.FreshOpen := by
  cases l with
  | record r now =>
      obtain rfl := Option.some.inj hs
      intro row hrow
      obtain ⟨c, hc, hopen⟩ := h row hrow
      have hlen : row.call < s.calls.length := (List.getElem?_eq_some_iff.mp hc).1
      exact ⟨c, by rw [List.getElem?_append_left hlen, hc], hopen⟩
  | close =>
      obtain rfl := Option.some.inj hs
      intro row hrow
      cases hrow
  | cleanup cutoff outcome =>
      obtain rfl := Option.some.inj hs
      intro row hrow
      cases outcome with
      | executeRaises => exact h row hrow
      | commitRaises => exact h row (List.mem_of_mem_filter hrow)
      | commits => cases hrow
  | attempt call outcome now =>
      obtain ⟨record, calledAt, n, -, hconn, -⟩ := step_attempt hs
      intro row hrow
      rw [hconn] at hrow
      cases outcome with
      | commits => cases hrow
      | executeRaises => exact not_returned_attempt hs (by simp) (.inr (h row hrow))
      | commitRaises =>
          apply not_returned_attempt hs (by simp)
          rcases List.mem_append.mp hrow with hold | hnew
          · exact .inr (h row hold)
          · exact .inl (congrArg StoredRow.call (List.mem_singleton.mp hnew))

/-! ## Runs -/

/-- Every call has added what is due, or a commit has found rows and some call has added
too much. -/
def Account (t : List (DetectionStore × StoreAct)) (s : DetectionStore) : Prop :=
  s.FreshOpen ∧ (TransitionSystem.Respects CommitsAlone t ∧ s.Balanced ∨
    ¬ TransitionSystem.Respects CommitsAlone t ∧ s.Spoiled)

theorem Account.step {t : List (DetectionStore × StoreAct)} {l : StoreAct} (h : Account t s)
    (hs : s.step l = some s') : Account (t ++ [(s, l)]) s' := by
  obtain ⟨hfresh, hstate⟩ := h
  refine ⟨hfresh.step hs, ?_⟩
  rw [TransitionSystem.respects_snoc]
  rcases hstate with ⟨ht, hbalanced⟩ | ⟨ht, hspoiled⟩
  · by_cases hl : s.CommitsAlone l
    · exact .inl ⟨⟨ht, hl⟩, hbalanced.step hl hs⟩
    · exact .inr ⟨fun h => hl h.2, spoiled_of_found hfresh hl hs⟩
  · exact .inr ⟨fun h => ht h.1, hspoiled.step hs⟩

end DetectionStore

namespace storeSystem

theorem account {s₀ s : DetectionStore} {t : List (DetectionStore × StoreAct)}
    (h₀ : storeSystem.init s₀) (hrun : storeSystem.Run s₀ t s) : DetectionStore.Account t s := by
  apply hrun.invariant_history (I := DetectionStore.Account)
  · exact fun t s l s' h hs => h.step hs
  · obtain ⟨table, rfl⟩ := h₀
    refine ⟨?_, .inl ⟨TransitionSystem.respects_nil, fun _ => rfl⟩⟩
    intro r hr
    cases hr

/-- Every call adds exactly one row if it returns and none if it raises, in the runs in
which no commit finds the rows of an attempt whose commit has failed; and when all
calls are finished, in no others. -/
theorem exactlyOnce_iff_commitsAlone {s₀ s : DetectionStore}
    {t : List (DetectionStore × StoreAct)} (h₀ : storeSystem.init s₀)
    (hrun : storeSystem.Run s₀ t s) :
    (TransitionSystem.Respects DetectionStore.CommitsAlone t → s.ExactlyOnce) ∧
    ((∀ c ∈ s.calls, ∀ n, c.status ≠ .retrying n) → s.ExactlyOnce →
      TransitionSystem.Respects DetectionStore.CommitsAlone t) := by
  obtain ⟨-, ⟨ht, hbalanced⟩ | ⟨ht, hspoiled⟩⟩ := account h₀ hrun
  · exact ⟨fun _ => hbalanced.exactlyOnce, fun _ _ => ht⟩
  · exact ⟨fun h => absurd h ht, fun hdone honce => absurd honce (hspoiled.not_exactlyOnce hdone)⟩

/-- What the table has, it had at first or a commit has added it. -/
theorem table_accounted {table : List StoredRow} {s : DetectionStore}
    {t : List (DetectionStore × StoreAct)} (hrun : storeSystem.Run ⟨.ofTable table, []⟩ t s) :
    s.conn.Accounted table := by
  apply hrun.invariant (I := fun s => s.conn.Accounted table)
  · intro s l s' h hs
    cases l with
    | record r now =>
        obtain rfl := Option.some.inj hs
        exact h
    | close =>
        obtain rfl := Option.some.inj hs
        exact h.rollback
    | cleanup cutoff outcome =>
        obtain rfl := Option.some.inj hs
        cases outcome with
        | executeRaises => exact h
        | commitRaises => exact h.delete
        | commits => exact h.delete.commit
    | attempt call outcome now =>
        obtain ⟨record, calledAt, n, -, hconn, -⟩ := DetectionStore.step_attempt hs
        rw [hconn]
        cases outcome with
        | executeRaises => exact h
        | commitRaises => exact h.insert
        | commits => exact h.insert.commit
  · exact .ofTable

def temperature : StoreRecord := .timeseries "edge-001" "temperature" (CFloat.const 20) 100

/-- The first commit is locked out, the second goes through. -/
def commitTwice : List StoreAct :=
  [.record temperature 100, .attempt 0 .commitRaises 100, .attempt 0 .commits 101]

theorem exec_commitTwice :
    ∃ t s, storeSystem.Run ⟨.ofTable [], []⟩ t s ∧ s.added 0 = 2 ∧
      s.calls = [⟨temperature, 100, .returned⟩] := by
  have hview : (storeSystem.execTrace ⟨.ofTable [], []⟩ commitTwice).map
      (fun x => (x.2.added 0, x.2.calls)) = some (2, [⟨temperature, 100, .returned⟩]) := by
    decide +kernel
  obtain ⟨t, s, hrun, -, hview⟩ := TransitionSystem.exists_run_of_execTrace hview
  exact ⟨t, s, hrun, congrArg Prod.fst hview, congrArg Prod.snd hview⟩

theorem not_exactlyOnce_commitTwice :
    ¬ ∀ (s₀ s : DetectionStore) (t : List (DetectionStore × StoreAct)),
      storeSystem.init s₀ → storeSystem.Run s₀ t s → s.ExactlyOnce := by
  intro h
  obtain ⟨t, s, hrun, hadded, hcalls⟩ := exec_commitTwice
  have honce := (h _ _ _ ⟨[], rfl⟩ hrun 0 _ (by rw [hcalls]; rfl)).1 rfl
  rw [hadded] at honce
  cases honce

/-- The first insert is locked out, the second attempt goes through. -/
def executeTwice : List StoreAct :=
  [.record temperature 100, .attempt 0 .executeRaises 100, .attempt 0 .commits 101]

theorem exactlyOnce_iff_commitsAlone_executeTwice :
    ∃ t s, storeSystem.Run ⟨.ofTable [], []⟩ t s ∧ s.added 0 = 1 ∧
      (TransitionSystem.Respects DetectionStore.CommitsAlone t → s.ExactlyOnce) ∧
      ((∀ c ∈ s.calls, ∀ n, c.status ≠ .retrying n) → s.ExactlyOnce →
        TransitionSystem.Respects DetectionStore.CommitsAlone t) := by
  have hview : (storeSystem.execTrace ⟨.ofTable [], []⟩ executeTwice).map
      (fun x => x.2.added 0) = some 1 := by
    decide +kernel
  obtain ⟨t, s, hrun, -, hadded⟩ := TransitionSystem.exists_run_of_execTrace hview
  exact ⟨t, s, hrun, hadded, exactlyOnce_iff_commitsAlone ⟨[], rfl⟩ hrun⟩

end storeSystem
