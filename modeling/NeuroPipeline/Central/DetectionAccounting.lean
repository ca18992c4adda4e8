-- SUMMARY: What each device is charged and counted for, over all runs of the detection streams.
import NeuroPipeline.Central.DeviceLimit
import NeuroPipeline.Lib.Custody

/-!
# Accounting of detections

A detection is charged to the bucket of its stream's device and counted in the
session of that device, whatever device the message names. The two are the same
as long as a stream sends for one device.
-/

namespace DeviceSessionManager

variable {m : DeviceSessionManager} {d e : String} {wall : ℚ}

theorem frames_count_self (hd : d ≠ "") (hmem : d ∈ m.ids) :
    (m.count d wall).frames d = m.frames d + 1 := by
  obtain ⟨before, hbefore⟩ := mem_ids_iff.mp hmem
  obtain ⟨after, hafter, -, hframes⟩ := getSession_count_self wall hd hbefore
  rw [frames, frames, hbefore, hafter]
  exact hframes

theorem frames_count_of_ne (hne : e ≠ d) : (m.count d wall).frames e = m.frames e := by
  rw [frames, frames, getSession_count_of_ne hne]

/-- Only the counter of the device moves, if it has a session. -/
theorem moved_count (hd : d ≠ "") :
    m.moved (m.count d wall) = if d ∈ m.ids then [d] else [] := by
  have hfilter : m.moved (m.count d wall) = m.ids.filter fun e => e = d := by
    rw [moved, ids_count]
    refine List.filter_congr fun e he => ?_
    rcases eq_or_ne e d with rfl | hne
    · simp [frames_count_self hd he]
    · simp [frames_count_of_ne hne, hne]
  have hnodup : m.ids.Nodup := m.distinct
  rw [hfilter, List.filter_eq, hnodup.count]
  split <;> rfl

end DeviceSessionManager

namespace DetectionServer

variable {F : Type} {s s' : DetectionServer F} {l : DetectionAct F} {st : ResultStream F}
  {result : DetectionResult F} {wall : ℚ}

open TokenBucketRateLimiter (key)
open TokenBucket (countIn)

/-! ## Specification -/

/-- The device of the detection that a stream has in process. -/
def held (st : ResultStream F) : Multiset String := st.inProcess.elim 0 fun d => {d}

/-- The detection was counted for its device and for no other. -/
def countedOwn (c : Completion) : Bool := c.counted = [c.deviceId]

def passedTimes (s : DetectionServer F) (deviceId : String) : List ℚ :=
  (s.passed.filter fun p => p.deviceId = deviceId).map Passage.time

/-- The accounts of a server with these limits. -/
structure PerDevice (limits : TokenBucketRateLimiter) (s : DetectionServer F) : Prop where
  window : ∀ d a c, a ≤ c → (countIn (s.passedTimes d) a c : ℚ) ≤
    limits.burst + limits.maxPerSec * (c - a)
  charged : ∀ p ∈ s.passed, p.charged = some (key p.deviceId)
  /-- what was passed on is in process or counted in its own session -/
  counted : (s.passed.map Passage.deviceId : Multiset String) =
    Custody.total held s.streams + ((s.completed.filter countedOwn).map Completion.deviceId : List String)

/-- Detections name the device of their stream, are processed to their end, and find
the session of the device there. -/
def Accountable [CFloat F] (s : DetectionServer F) (l : DetectionAct F) : Prop :=
  s.NamedOn l ∧
    match l with
    | .processed i _ => ∀ st, s.streams[i]? = some st → st.deviceId ∈ s.sessionManager.ids
    | .endStream i => ∀ st, s.streams[i]? = some st → st.inProcess = none
    | .registerDevice .. | .openStream | .message .. | .cleanupExpired _ => True

/-! ## Books -/

/-- What was passed on is in process or done. -/
def Books (s : DetectionServer F) : Prop :=
  (s.passed.map Passage.deviceId : Multiset String) =
    Custody.total held s.streams + (s.completed.map Completion.deviceId : List String)

/-- Every bucket and every session so far was the right one. -/
structure Own (s : DetectionServer F) : Prop where
  charged : ∀ p ∈ s.passed, p.charged = some (key p.deviceId)
  counted : ∀ c ∈ s.completed, c.counted = [c.deviceId]

/-- A detection in process was charged to the device of its stream. -/
def Charged (s : DetectionServer F) : Prop :=
  ∀ st ∈ s.streams, ∀ result, st.phase = .processing result → st.deviceId ≠ "" ∧
    result.deviceId ≠ "" ∧
    ∃ p ∈ s.passed, p.deviceId = result.deviceId ∧ p.charged = some (key st.deviceId)

theorem counted_iff (h : s.Books) :
    ((s.passed.map Passage.deviceId : Multiset String) = Custody.total held s.streams +
      ((s.completed.filter countedOwn).map Completion.deviceId : List String)) ↔
    ∀ c ∈ s.completed, c.counted = [c.deviceId] := by
  rw [Books] at h
  rw [h, add_right_inj]
  constructor
  · intro hsame c hc
    have hlength := congrArg Multiset.card hsame
    simp only [Multiset.coe_card, List.length_map] at hlength
    have hown := List.length_filter_eq_length_iff.mp hlength.symm c hc
    exact of_decide_eq_true hown
  · intro hown
    have hall : s.completed.filter countedOwn = s.completed :=
      List.filter_eq_self.mpr fun c hc => decide_eq_true (hown c hc)
    rw [hall]

theorem held_of_processing (hphase : st.phase = .processing result) :
    held st = {result.deviceId} := by
  simp [held, ResultStream.inProcess, hphase]

theorem held_of_ne (hphase : ∀ result, st.phase ≠ .processing result) : held st = 0 := by
  cases h : st.phase with
  | processing result => exact absurd h (hphase result)
  | waiting | aborting | ended => simp [held, ResultStream.inProcess, h]

theorem held_of_inProcess (h : st.inProcess = none) : held st = 0 := by
  simp [held, h]

/-- One stream changes: what it held and what is passed on is what it holds then and
what is done. -/
theorem Books.set (h : s.Books) (new : List Passage) (done : List Completion) {i : Nat}
    {st' : ResultStream F} (hst : s.streams[i]? = some st)
    (hstreams : s'.streams = s.streams.set i st') (hpassed : s'.passed = s.passed ++ new)
    (hcompleted : s'.completed = s.completed ++ done)
    (hbalance : held st + (new.map Passage.deviceId : List String) =
      held st' + (done.map Completion.deviceId : List String)) : s'.Books := by
  have htotal := Custody.total_set held st' hst
  rw [← hstreams] at htotal
  rw [Books] at h ⊢
  rw [hpassed, hcompleted, List.map_append, List.map_append, ← Multiset.coe_add,
    ← Multiset.coe_add, h]
  apply add_right_cancel (b := held st)
  calc Custody.total held s.streams + (s.completed.map Completion.deviceId : List String) +
        (new.map Passage.deviceId : List String) + held st
      = Custody.total held s.streams + (s.completed.map Completion.deviceId : List String) +
          (held st + (new.map Passage.deviceId : List String)) := by ac_rfl
    _ = Custody.total held s.streams + held st' +
          ((s.completed.map Completion.deviceId : List String) +
            (done.map Completion.deviceId : List String)) := by
        rw [hbalance]
        ac_rfl
    _ = Custody.total held s'.streams + ((s.completed.map Completion.deviceId : List String) +
          (done.map Completion.deviceId : List String)) + held st := by
        rw [← htotal]
        ac_rfl

theorem own_iff : s.Own ↔ (∀ p ∈ s.passed, p.charged = some (key p.deviceId)) ∧
    ∀ c ∈ s.completed, c.counted = [c.deviceId] :=
  ⟨fun h => ⟨h.charged, h.counted⟩, fun h => ⟨h.1, h.2⟩⟩

theorem own_congr (hpassed : s'.passed = s.passed) (hcompleted : s'.completed = s.completed) :
    s'.Own ↔ s.Own := by
  rw [own_iff, own_iff, hpassed, hcompleted]

theorem own_completed (c : Completion) (hpassed : s'.passed = s.passed)
    (hcompleted : s'.completed = s.completed ++ [c]) :
    s'.Own ↔ s.Own ∧ c.counted = [c.deviceId] := by
  rw [own_iff, own_iff, hpassed, hcompleted, List.forall_mem_append, List.forall_mem_singleton,
    and_assoc]

theorem own_passed (p : Passage) (hpassed : s'.passed = s.passed ++ [p])
    (hcompleted : s'.completed = s.completed) :
    s'.Own ↔ s.Own ∧ p.charged = some (key p.deviceId) := by
  rw [own_iff, own_iff, hpassed, hcompleted, List.forall_mem_append, List.forall_mem_singleton]
  exact and_right_comm

variable [CFloat F]

theorem books_step (h : s.Books) (hs : s.Moves l s') : s'.Books := by
  cases hs with
  | registerDevice r group wall =>
      obtain ⟨hstreams, -, hpassed, hcompleted, -⟩ := registerDevice_fields s r group wall
      rwa [Books, hpassed, hcompleted, hstreams]
  | openStream =>
      rw [Books, Custody.total_snoc]
      exact h.trans (congrArg (· + _) (add_zero _).symm)
  | @message i st result wall now hst hphase hclock =>
      have hidle : held st = 0 := held_of_ne fun _ hprocessing => by
        cases hphase.symm.trans hprocessing
      obtain ⟨hstreams, hpassed, hcompleted, -⟩ :=
        identify_fields s st result wall
      rcases message_cases s i st result wall now hphase with ⟨-, heq⟩ | ⟨-, phase, hnone, heq⟩
      · rw [heq]
        refine h.set [_] [] hst (congrArg (List.set · i _) hstreams) rfl
          (hcompleted.trans (List.append_nil _).symm) ?_
        rw [hidle, held_of_processing rfl]
        exact add_comm _ _
      · rw [heq]
        refine h.set [] [] hst (congrArg (List.set · i _) hstreams)
          (hpassed.trans (List.append_nil _).symm) (hcompleted.trans (List.append_nil _).symm) ?_
        have hstill : held { st with deviceId := st.identified result, phase := phase } = 0 := by
          rcases hnone with rfl | rfl
          · rfl
          · rfl
        rw [hidle, hstill]
        rfl
  | @processed i st result wall hst hphase =>
      refine h.set [] [_] hst rfl (List.append_nil _).symm rfl ?_
      rw [held_of_processing hphase, held_of_ne fun _ hprocessing => by cases hprocessing]
      exact add_comm _ _
  | @endStream i st hst hopen =>
      have hended : held ({ st with phase := .ended } : ResultStream F) = 0 := rfl
      cases hphase : st.phase with
      | processing result =>
          refine h.set [] [⟨result.deviceId, []⟩] hst rfl (List.append_nil _).symm ?_ ?_
          · simp only [endStream, hphase]
          · rw [held_of_processing hphase, hended]
            exact add_comm _ _
      | waiting | aborting | ended =>
          refine h.set [] [] hst rfl (List.append_nil _).symm ?_ ?_
          · simp only [endStream, hphase, List.append_nil]
          · rw [hended, held_of_inProcess (by simp only [ResultStream.inProcess, hphase])]
            rfl
  | cleanupExpired wall => exact h

/-! ## The right bucket and the right session -/

omit [CFloat F] in
theorem Charged.set (h : s.Charged) {i : Nat} {st' : ResultStream F}
    (hstreams : s'.streams = s.streams.set i st') (hpassed : ∀ p ∈ s.passed, p ∈ s'.passed)
    (hst' : ∀ result, st'.phase = .processing result → st'.deviceId ≠ "" ∧ result.deviceId ≠ "" ∧
      ∃ p ∈ s'.passed, p.deviceId = result.deviceId ∧ p.charged = some (key st'.deviceId)) :
    s'.Charged := by
  refine forall_streams_set hstreams h ?_ hst'
  intro st hbefore result hphase
  obtain ⟨hid, hresult, p, hp, hsame⟩ := hbefore result hphase
  exact ⟨hid, hresult, p, hpassed p hp, hsame⟩

theorem charged_step (h : s.Charged) (hs : s.Moves l s') {limiter : TokenBucketRateLimiter}
    (hlimiter : s.rateLimiter = some limiter) : s'.Charged := by
  cases hs with
  | registerDevice r group wall =>
      obtain ⟨hstreams, -, hpassed, -⟩ := registerDevice_fields s r group wall
      rw [Charged, hstreams, hpassed]
      exact h
  | openStream =>
      intro st hst result hphase
      rcases List.mem_append.mp hst with hbefore | hnew
      · exact h st hbefore result hphase
      · rw [List.mem_singleton.mp hnew] at hphase
        cases hphase
  | @message i st result wall now hst hphase hclock =>
      have hpassed := message_passed s i result wall now hphase
      have hmono : ∀ p ∈ s.passed, p ∈ (s.message i st result wall now).passed := fun p hp =>
        hpassed ▸ List.mem_append_left _ hp
      obtain ⟨phase, hstreams, hcases⟩ := message_streams s i result wall now hphase
      refine h.set hstreams hmono fun result' hprocessing => ?_
      rcases hcases with rfl | rfl | ⟨hpasses, rfl⟩
      · cases hprocessing
      · cases hprocessing
      · obtain rfl := DetectionPhase.processing.inj hprocessing
        rw [if_pos hpasses, hlimiter] at hpassed
        obtain ⟨-, hvalid⟩ := Bool.and_eq_true_iff.mp hpasses
        have hnew : (⟨i, result.deviceId, some (key (st.identified result)), now⟩ : Passage) ∈
            (s.message i st result wall now).passed := by
          rw [hpassed]
          exact List.mem_append_right _ (List.mem_singleton_self _)
        exact ⟨identified_ne_of_passes hpasses,
          DetectionResult.deviceId_ne_of_validate (Option.isNone_iff_eq_none.mp hvalid), _, hnew,
          rfl, rfl⟩
  | processed wall hst hphase =>
      exact h.set rfl (fun p hp => hp) fun _ hprocessing => by cases hprocessing
  | endStream hst hopen => exact h.set rfl (fun p hp => hp) fun _ hprocessing => by cases hprocessing
  | cleanupExpired wall => exact h

omit [CFloat F] in
/-- The stream pays from the bucket of the device that the message names. -/
theorem key_identified_iff (hid : st.identified result ≠ "") (hresult : result.deviceId ≠ "") :
    key (st.identified result) = key result.deviceId ↔
      (st.deviceId ≠ "" → result.deviceId = st.deviceId) := by
  rw [TokenBucketRateLimiter.key_of_ne hid, TokenBucketRateLimiter.key_of_ne hresult]
  by_cases hempty : st.deviceId = ""
  · rw [ResultStream.identified, if_pos hempty]
    exact iff_of_true rfl fun hne => absurd hempty hne
  · rw [identified_of_ne hempty]
    exact ⟨fun h _ => h.symm, fun h => (h hempty).symm⟩

/-- A message is charged to the right bucket if it names the device of its stream. -/
theorem own_message {i : Nat} {now : ℚ} (hst : s.streams[i]? = some st)
    (hphase : st.phase = .waiting) {limiter : TokenBucketRateLimiter}
    (hlimiter : s.rateLimiter = some limiter) :
    (s.message i st result wall now).Own ↔
      s.Own ∧ s.Accountable (.message i result wall now) := by
  have hpassed := message_passed s i result wall now hphase
  obtain ⟨-, hcompleted, -⟩ := message_fields s i result wall now hphase
  cases hpasses : s.passes st result now with
  | false =>
      rw [hpasses, if_neg Bool.false_ne_true, List.append_nil] at hpassed
      rw [own_congr hpassed hcompleted]
      refine (and_iff_left ⟨fun st' hst' _ hpasses' => ?_, trivial⟩).symm
      obtain rfl := Option.some.inj (hst.symm.trans hst')
      cases hpasses.symm.trans hpasses'
  | true =>
      rw [hpasses, if_pos rfl, hlimiter] at hpassed
      obtain ⟨-, hvalid⟩ := Bool.and_eq_true_iff.mp hpasses
      rw [own_passed _ hpassed hcompleted]
      refine and_congr_right fun _ => ?_
      rw [Option.map_some, Option.some.injEq, key_identified_iff (identified_ne_of_passes hpasses)
        (DetectionResult.deviceId_ne_of_validate (Option.isNone_iff_eq_none.mp hvalid))]
      constructor
      · intro hnamed
        refine ⟨fun st' hst' hid _ => ?_, trivial⟩
        obtain rfl := Option.some.inj (hst.symm.trans hst')
        exact hnamed hid
      · exact fun hnamed hid => hnamed.1 st hst hid hpasses

/-- A detection is counted for its device if that has a session when it is done. -/
theorem own_processed (hcharged : s.Charged) {i : Nat} (hst : s.streams[i]? = some st)
    (hphase : st.phase = .processing result) :
    (s.processed i st result wall).Own ↔ s.Own ∧ s.Accountable (.processed i wall) := by
  obtain ⟨hid, hresult, p, hp, hdevice, hpaid⟩ :=
    hcharged st (List.mem_of_getElem? hst) result hphase
  have hpassed : (s.processed i st result wall).passed = s.passed := rfl
  have hcompleted : (s.processed i st result wall).completed = s.completed ++
    [⟨result.deviceId, s.sessionManager.moved (s.sessionManager.count st.deviceId wall)⟩] := rfl
  rw [own_completed _ hpassed hcompleted]
  refine and_congr_right fun hown => ?_
  -- the detection paid from the right bucket, so it names the device of its stream
  have hsame : result.deviceId = st.deviceId := by
    have hkey := Option.some.inj ((hown.charged p hp).symm.trans hpaid)
    rwa [hdevice, TokenBucketRateLimiter.key_of_ne hresult,
      TokenBucketRateLimiter.key_of_ne hid] at hkey
  rw [DeviceSessionManager.moved_count hid, hsame]
  constructor
  · intro hmoved
    refine ⟨trivial, fun st' hst' => ?_⟩
    obtain rfl := Option.some.inj (hst.symm.trans hst')
    by_contra hgone
    rw [if_neg hgone] at hmoved
    cases hmoved
  · intro hl
    rw [if_pos (hl.2 st hst)]

/-- The end of a stream leaves the accounts right if it has nothing in process. -/
theorem own_endStream {i : Nat} (hst : s.streams[i]? = some st) :
    (s.endStream i st).Own ↔ s.Own ∧ s.Accountable (.endStream i) := by
  have hpassed : (s.endStream i st).passed = s.passed := rfl
  cases hphase : st.phase with
  | processing result =>
      have hcompleted : (s.endStream i st).completed = s.completed ++ [⟨result.deviceId, []⟩] := by
        simp only [endStream, hphase]
      rw [own_completed _ hpassed hcompleted]
      refine and_congr_right fun _ => iff_of_false (fun hcut => by cases hcut) fun hl => ?_
      have hnone := hl.2 st hst
      rw [ResultStream.inProcess, hphase] at hnone
      cases hnone
  | waiting | aborting | ended =>
      have hcompleted : (s.endStream i st).completed = s.completed := by
        simp only [endStream, hphase]
      have haccountable : s.Accountable (.endStream i) := by
        refine ⟨trivial, fun st' hst' => ?_⟩
        obtain rfl := Option.some.inj (hst.symm.trans hst')
        simp only [ResultStream.inProcess, hphase]
      exact (own_congr hpassed hcompleted).trans (and_iff_left haccountable).symm

theorem own_step (hcharged : s.Charged) (hs : s.Moves l s') {limiter : TokenBucketRateLimiter}
    (hlimiter : s.rateLimiter = some limiter) : s'.Own ↔ s.Own ∧ s.Accountable l := by
  cases hs with
  | registerDevice r group wall =>
      obtain ⟨-, -, hpassed, hcompleted, -⟩ := registerDevice_fields s r group wall
      have haccountable : s.Accountable (.registerDevice r group wall) := ⟨trivial, trivial⟩
      exact (own_congr hpassed hcompleted).trans (and_iff_left haccountable).symm
  | openStream =>
      have haccountable : s.Accountable .openStream := ⟨trivial, trivial⟩
      exact Iff.trans (b := s.Own) (own_congr rfl rfl) (and_iff_left haccountable).symm
  | message result wall hst hphase hclock => exact own_message hst hphase hlimiter
  | processed wall hst hphase => exact own_processed hcharged hst hphase
  | endStream hst hopen => exact own_endStream hst
  | cleanupExpired wall =>
      have haccountable : s.Accountable (.cleanupExpired wall) := ⟨trivial, trivial⟩
      exact Iff.trans (b := s.Own) (own_congr rfl rfl) (and_iff_left haccountable).symm

/-! ## The rate limit -/

/-- When detections were charged to a key. -/
def paidTimes (s : DetectionServer F) (k : String) : List ℚ :=
  (s.passed.filter fun p => p.charged = some k).map Passage.time

/-- The limiter has its limits, and has been paid for every detection. -/
def Metered (limits : TokenBucketRateLimiter) (s : DetectionServer F) : Prop :=
  ∃ r, s.rateLimiter = some r ∧ r.burst = limits.burst ∧ r.maxPerSec = limits.maxPerSec ∧
    (0 ≤ limits.burst → 0 ≤ limits.maxPerSec → r.Accounts s.clock s.paidTimes)

variable {limits : TokenBucketRateLimiter}

omit [CFloat F] in
theorem Metered.congr (h : Metered limits s) (hlimiter : s'.rateLimiter = s.rateLimiter)
    (hclock : s'.clock = s.clock) (hpassed : s'.passed = s.passed) : Metered limits s' := by
  obtain ⟨r, hr, hburst, hrate, haccounts⟩ := h
  refine ⟨r, hlimiter.trans hr, hburst, hrate, ?_⟩
  rw [hclock, show s'.paidTimes = s.paidTimes by funext k; rw [paidTimes, hpassed, paidTimes]]
  exact haccounts

omit [CFloat F] in
theorem paidTimes_snoc {p : Passage} {k : String} (hpassed : s'.passed = s.passed ++ [p])
    (hcharged : p.charged = some k) :
    s'.paidTimes = Function.update s.paidTimes k (s.paidTimes k ++ [p.time]) := by
  funext j
  rw [paidTimes, hpassed, List.filter_append, List.map_append]
  rcases eq_or_ne j k with rfl | hne
  · simp [hcharged, paidTimes]
  · simp [hcharged, paidTimes, hne, hne.symm]

theorem Metered.step (h : Metered limits s) (hs : s.Moves l s') : Metered limits s' := by
  cases hs with
  | registerDevice r group wall =>
      obtain ⟨-, -, hpassed, -, hlimiter, hclock⟩ := registerDevice_fields s r group wall
      exact h.congr hlimiter hclock hpassed
  | @message i st result wall now hst hphase hclock =>
      obtain ⟨r, hr, hburst, hrate, haccounts⟩ := h
      have hpassed := message_passed s i result wall now hphase
      obtain ⟨-, -, hnow, hlimiter⟩ := message_fields s i result wall now hphase
      rw [hr, Option.map_some] at hlimiter
      refine ⟨_, hlimiter, hburst, hrate, fun hburst₀ hrate₀ => ?_⟩
      have hlater := (haccounts hburst₀ hrate₀).later hclock
      rw [hnow]
      cases hpasses : s.passes st result now with
      | false =>
          rw [hpasses, if_neg Bool.false_ne_true, List.append_nil] at hpassed
          have hsame : (s.message i st result wall now).paidTimes = s.paidTimes := by
            funext k
            rw [paidTimes, hpassed, paidTimes]
          rw [hsame]
          exact hlater.allow _
      | true =>
          rw [hpasses, if_pos rfl, hr, Option.map_some] at hpassed
          have hallowed : (r.allow (st.identified result) now).2 = true := by
            have hallows := (Bool.and_eq_true_iff.mp hpasses).1
            rwa [allows, hr] at hallows
          rw [paidTimes_snoc hpassed rfl]
          exact hlater.serve hallowed
  | openStream => exact h.congr rfl rfl rfl
  | processed wall hst hphase => exact h.congr rfl rfl rfl
  | endStream hst hopen => exact h.congr rfl rfl rfl
  | cleanupExpired wall => exact h.congr rfl rfl rfl

omit [CFloat F] in
/-- Where every bucket was the right one, the detections of a device are among those
that its bucket paid for. -/
theorem countIn_passedTimes_le (h : s.Own) (d : String) (a c : ℚ) :
    countIn (s.passedTimes d) a c ≤ countIn (s.paidTimes (key d)) a c := by
  rw [countIn, countIn, passedTimes, paidTimes, List.countP_map, List.countP_map,
    List.countP_filter, List.countP_filter]
  refine List.countP_mono_left fun p hp hin => ?_
  simp only [Function.comp, Bool.and_eq_true, decide_eq_true_eq] at hin ⊢
  obtain ⟨hwindow, rfl⟩ := hin
  exact ⟨hwindow, h.charged p hp⟩

omit [CFloat F] in
theorem Metered.window (h : Metered limits s) (hburst : 0 ≤ limits.burst)
    (hrate : 0 ≤ limits.maxPerSec) (hown : s.Own) (d : String) {a c : ℚ} (hac : a ≤ c) :
    (countIn (s.passedTimes d) a c : ℚ) ≤ limits.burst + limits.maxPerSec * (c - a) := by
  obtain ⟨r, -, hburst', hrate', haccounts⟩ := h
  have hle : (countIn (s.passedTimes d) a c : ℚ) ≤ countIn (s.paidTimes (key d)) a c :=
    Nat.cast_le.mpr (countIn_passedTimes_le hown d a c)
  have hwindow := (haccounts hburst hrate).window (key d) hac
  rw [hburst', hrate'] at hwindow
  exact hle.trans hwindow

omit [CFloat F] in
/-- A bound that holds for every window is not negative. -/
theorem limits_nonneg (h : PerDevice limits s) : 0 ≤ limits.burst ∧ 0 ≤ limits.maxPerSec := by
  have hburst : (0 : ℚ) ≤ limits.burst := by
    have hwindow := h.window "" 0 0 le_rfl
    have hcount : (0 : ℚ) ≤ countIn (s.passedTimes "") 0 0 := Nat.cast_nonneg _
    linarith
  refine ⟨Int.cast_nonneg_iff.mp hburst, ?_⟩
  by_contra hneg
  have hrate : 0 < -limits.maxPerSec := by linarith
  -- after this time nothing would be left of the burst
  have hlong : 0 ≤ (limits.burst + 1) / -limits.maxPerSec := by positivity
  have hwindow := h.window "" 0 _ hlong
  have hcount : (0 : ℚ) ≤ countIn (s.passedTimes "") 0 ((limits.burst + 1) / -limits.maxPerSec) :=
    Nat.cast_nonneg _
  have hproduct : limits.maxPerSec * ((limits.burst + 1) / -limits.maxPerSec - 0) =
      -(limits.burst + 1) := by
    have hne : limits.maxPerSec ≠ 0 := (neg_pos.mp hrate).ne
    rw [sub_zero, div_neg, mul_neg, mul_div_cancel₀ _ hne]
  linarith

/-! ## Whole runs -/

theorem metered_init {s₀ : DetectionServer F} (hinit : (detectionSystem F).init s₀)
    (hlimits : s₀.rateLimiter = some limits) : Metered limits s₀ := by
  obtain ⟨heartbeatInterval, expiryTimeout, maxDevices, config, clock, rfl⟩ := hinit
  obtain ⟨l, -, rfl⟩ := Option.map_eq_some_iff.mp hlimits
  exact ⟨_, hlimits, rfl, rfl, fun hburst hrate => .new hburst hrate fun _ => rfl⟩

theorem accounts_init {s₀ : DetectionServer F} (hinit : (detectionSystem F).init s₀) :
    s₀.Books ∧ s₀.Charged ∧ s₀.Own := by
  obtain ⟨heartbeatInterval, expiryTimeout, maxDevices, config, clock, rfl⟩ := hinit
  refine ⟨rfl, fun st hst => absurd hst List.not_mem_nil, ?_, ?_⟩
  · exact fun p hp => absurd hp List.not_mem_nil
  · exact fun c hc => absurd hc List.not_mem_nil

theorem accounts_of_run {t : List (DetectionServer F × DetectionAct F)} {s₀ : DetectionServer F}
    (hinit : (detectionSystem F).init s₀) (hrun : (detectionSystem F).Run s₀ t s)
    (hlimits : s₀.rateLimiter = some limits) :
    s.Metered limits ∧ s.Books ∧ (s.Own ↔ TransitionSystem.Respects Accountable t) := by
  have hall : s.Metered limits ∧ s.Books ∧ s.Charged ∧
      (s.Own ↔ TransitionSystem.Respects Accountable t) := by
    refine hrun.invariant_history (I := fun t s => Metered limits s ∧ s.Books ∧ s.Charged ∧
      (s.Own ↔ TransitionSystem.Respects Accountable t)) ?_ ?_
    · rintro t s l s' ⟨hmetered, hbooks, hcharged, hown⟩ hs
      have hmoves := step_moves hs
      have hafter := hmetered.step hmoves
      obtain ⟨r, hr, -⟩ := hmetered
      rw [TransitionSystem.respects_snoc, ← hown]
      exact ⟨hafter, books_step hbooks hmoves, charged_step hcharged hmoves hr,
        own_step hcharged hmoves hr⟩
    · obtain ⟨hbooks, hcharged, hown⟩ := accounts_init hinit
      exact ⟨metered_init hinit hlimits, hbooks, hcharged,
        iff_of_true hown TransitionSystem.respects_nil⟩
  exact ⟨hall.1, hall.2.1, hall.2.2.2⟩

/-- One token, and one more each second. -/
def oneToken : TokenBucketRateLimiter := { maxPerSec := 1, burst := 1 }

def limitedServer : DetectionServer ℚ := { emptyServer 16 with rateLimiter := some oneToken }

theorem init_limitedServer : (detectionSystem ℚ).init limitedServer :=
  ⟨10, 30, 16, some (1, 1), 0, rfl⟩

/-- A device sends twice in two seconds. -/
def sendTwice : List (DetectionAct ℚ) :=
  [.openStream, .message 0 (detectionOf "cam") 0 0, .processed 0 0,
    .message 0 (detectionOf "cam") 1 1, .processed 0 1, .endStream 0]

/-- In the same second a device sends on its own stream and on that of another. -/
def sharedStream : List (DetectionAct ℚ) :=
  [.openStream, .message 0 (detectionOf "cam") 0 0, .processed 0 0,
    .message 0 (detectionOf "door") 1 1, .processed 0 1,
    .openStream, .message 1 (detectionOf "door") 1 1, .processed 1 1]

end DetectionServer
