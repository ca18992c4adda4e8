-- SUMMARY: A batch of requests against the same requests one after another.
import NeuroPipeline.Central.VlmWorker

/-!
# Batches

The two ways of the worker with a list of items. Nothing goes wrong here but what
the engine does, and an item meets the same clock on both ways.
-/

abbrev VlmWork := List (VlmItem × ItemEnv)

namespace VLMProcessingPipeline

variable (p : VLMProcessingPipeline)

/-- The loop over a batch. -/
def processAll (batchResults : Option (List String)) : VlmState → Nat → VlmWork → VlmState
  | s, _, [] => s
  | s, idx, (item, env) :: rest =>
    processAll batchResults (p.processItem s item idx batchResults env {}).1 (idx + 1) rest

def viaBatch (s : VlmState) (env : BatchEnv) (work : VlmWork) : VlmState :=
  match p.dispatch s (work.map Prod.fst) env with
  | (s, .returned batchResults) => p.processAll batchResults s 0 work
  | (s, _) => s

/-- Each item a batch of its own. -/
def oneByOne : VlmState → VlmWork → VlmState
  | s, [] => s
  | s, (item, env) :: rest => oneByOne (p.processItem s item 0 none env {}).1 rest

end VLMProcessingPipeline

/-- What the engine, the breaker and the listeners get to see. -/
structure VlmState.SameOutcome (s s' : VlmState) : Prop where
  prompts : s.analyzed.map AnalyzeCall.prompt = s'.analyzed.map AnalyzeCall.prompt
  verdicts : s.verdicts = s'.verdicts
  published : s.published = s'.published

namespace VlmWork

/-- The breaker admits the first item. -/
def firstAdmitted (s : VlmState) : VlmWork → Bool
  | [] => true
  | (_, env) :: _ => (s.breaker.allowRequest env.admitAt).2

/-- No item says which device it is of. -/
def anonymous (work : VlmWork) : Bool := work.all fun w => w.1.deviceId = ""

/-- The calls of the engine with the bare prompts, numbered from `call`, all have a result. -/
def answered (model : ModelCalls) : Nat → VlmWork → Bool
  | _, [] => true
  | call, (item, _) :: rest =>
    (model call item.frameData item.prompt).isOk && answered model (call + 1) rest

def prompts (work : VlmWork) : List String := work.map fun w => w.1.prompt

/-- The texts of `batch_analyze`. -/
def texts (model : ModelCalls) : Nat → VlmWork → List String
  | _, [] => []
  | call, (item, _) :: rest =>
    MLXInferenceEngine.batchText (model call item.frameData item.prompt) ::
      texts model (call + 1) rest

def analyses (model : ModelCalls) : Nat → VlmWork → List VlmAnalysis
  | _, [] => []
  | call, (item, env) :: rest =>
    item.analysis (MLXInferenceEngine.batchText (model call item.frameData item.prompt))
      env.publishedAt :: analyses model (call + 1) rest

/-- What the two ways need to agree. -/
def Transparent (p : VLMProcessingPipeline) (s : VlmState) (work : VlmWork) : Prop :=
  work.length ≤ 1 ∨ s.engine.loaded = false ∨
    (work.firstAdmitted s = true ∧ work.anonymous = true ∧
      work.answered p.model s.analyzed.length = true)

theorem mapIdx_texts (model : ModelCalls) (call : Nat) (work : VlmWork) :
    ((VLMProcessingPipeline.batchItems (work.map Prod.fst)).mapIdx fun i item =>
      MLXInferenceEngine.batchText (model (call + i) item.1 item.2)) = work.texts model call := by
  induction work generalizing call with
  | nil => rfl
  | cons w rest ih =>
      simp only [VLMProcessingPipeline.batchItems, List.map_cons, List.mapIdx_cons, texts,
        Nat.add_zero]
      congr 1
      rw [← ih (call + 1)]
      simp only [VLMProcessingPipeline.batchItems, Nat.add_assoc, Nat.add_comm 1]

end VlmWork

namespace VLMProcessingPipeline

variable {p : VLMProcessingPipeline} {s : VlmState} {env : BatchEnv} {work : VlmWork}

/-! ## One item on either way -/

/-- An item with a text of the batch is a success when the breaker admits it. -/
theorem processItem_of_text (p : VLMProcessingPipeline) (item : VlmItem) {idx : Nat}
    {texts : List String} {text : String}
    {env : ItemEnv} {b : CircuitBreaker} (h : s.breaker.allowRequest env.admitAt = (b, true))
    (ht : texts[idx]? = some text) :
    s.Adds (p.processItem s item idx (some texts) env {}).1 b.recordSuccess [] [.success]
      [item.analysis text env.publishedAt] := by
  have hr : batchResult idx (some texts) = some text := ht
  have hadds := p.processItem_adds item idx (some texts) {} h
  simpa only [analysisEnd, newCalls, hr, itemVerdicts, newAnalyses, List.foldl_cons,
    List.foldl_nil, CircuitBreaker.record] using hadds

theorem processItem_alone (p : VLMProcessingPipeline) (item : VlmItem) {env : ItemEnv}
    {b : CircuitBreaker}
    (h : s.breaker.allowRequest env.admitAt = (b, true)) :
    s.Adds (p.processItem s item 0 none env {}).1
      ((itemVerdicts {} (waitFor {} (p.engineAnswer s item env))).foldl
        (CircuitBreaker.record env.verdictAt) b)
      [⟨item.frameData, (p.builtPrompt s item env).2, b, env.callAt⟩]
      (itemVerdicts {} (waitFor {} (p.engineAnswer s item env)))
      (newAnalyses item env {} (waitFor {} (p.engineAnswer s item env))) :=
  p.processItem_adds item 0 none {} h

/-- Only an item without a device keeps its bare prompt. -/
theorem builtPrompt_eq_iff {item : VlmItem} {env : ItemEnv} :
    (p.builtPrompt s item env).2 = item.prompt ↔ item.deviceId = "" := by
  by_cases hd : item.deviceId = ""
  · simp [builtPrompt, withContext, hd]
  · have hcontext : item.prompt.length ≤ (p.withContext item env).length := by
      cases hr : p.ragRetriever with
      | false => simp [withContext, hr]
      | true =>
          rcases hq : env.retrieve item.deviceId (item.detections.map DetectionDict.className) with
            e | _ | text
          · simp [withContext, hr, hd, hq]
          · simp [withContext, hr, hd, hq]
          · simp [withContext, hr, hd, hq, String.length_append, Nat.add_assoc]
    have hlonger : item.prompt.length < (p.builtPrompt s item env).2.length := by
      simp only [builtPrompt, hd, if_false]
      exact lt_of_le_of_lt hcontext (ConversationContext.length_lt_buildPrompt _ _)
    constructor
    · intro heq
      rw [heq] at hlonger
      exact absurd hlonger (lt_irrefl _)
    · exact fun h => absurd h hd

theorem engineAnswer_of_ready (hl : s.engine.loaded = true) (hs : s.engine.useStub = false)
    (item : VlmItem) (env : ItemEnv) :
    p.engineAnswer s item env =
      p.model s.analyzed.length item.frameData (p.builtPrompt s item env).2 :=
  MLXInferenceEngine.analyzeImage_of_ready hl hs _ _

theorem recordSuccess_closed {b b' : CircuitBreaker} {now : ℚ}
    (h : b.allowRequest now = (b', true)) : b'.recordSuccess.state = .closed := by
  have hopen := CircuitBreaker.allowed_not_opened h
  cases hb : b'.state <;> simp_all [CircuitBreaker.recordSuccess]

theorem firstAdmitted_of_closed (h : s.breaker.state = .closed) (work : VlmWork) :
    work.firstAdmitted s = true := by
  cases work with
  | nil => rfl
  | cons w rest =>
      simp only [VlmWork.firstAdmitted, CircuitBreaker.allowRequest_of_closed h]

/-! ## The loop over a batch with texts -/

theorem drop_eq_cons {α : Type} {l rest : List α} {i : Nat} {a : α} (h : l.drop i = a :: rest) :
    l[i]? = some a ∧ l.drop (i + 1) = rest := by
  constructor
  · rw [← List.head?_drop, h, List.head?_cons]
  · rw [← List.tail_drop, h, List.tail_cons]

/-- The engine is not called again, and every verdict is a success. -/
theorem processAll_texts {texts : List String} {idx call : Nat}
    (h : texts.drop idx = work.texts p.model call) :
    (p.processAll (some texts) s idx work).analyzed = s.analyzed ∧
    ∃ n, (p.processAll (some texts) s idx work).verdicts =
      s.verdicts ++ List.replicate n .success := by
  induction work generalizing s idx call with
  | nil => exact ⟨rfl, 0, by simp [processAll]⟩
  | cons w rest ih =>
      obtain ⟨item, env⟩ := w
      obtain ⟨hget, hrest⟩ := drop_eq_cons h
      rw [processAll]
      obtain ⟨hanalyzed, n, hverdicts⟩ := ih hrest
      rw [hanalyzed, hverdicts]
      rcases hallow : s.breaker.allowRequest env.admitAt with ⟨b, allowed⟩
      cases allowed with
      | false =>
          rw [processItem_of_refused hallow]
          exact ⟨rfl, n, rfl⟩
      | true =>
          have hadds := p.processItem_of_text item hallow hget
          refine ⟨by rw [hadds.analyzed, List.append_nil], n + 1, ?_⟩
          rw [hadds.verdicts, List.append_assoc, List.singleton_append, ← List.replicate_succ]

theorem processAll_admitted {texts : List String} {idx call : Nat}
    (h : texts.drop idx = work.texts p.model call) (hfirst : work.firstAdmitted s = true) :
    (p.processAll (some texts) s idx work).verdicts =
      s.verdicts ++ List.replicate work.length .success ∧
    (p.processAll (some texts) s idx work).published =
      s.published ++ work.analyses p.model call := by
  induction work generalizing s idx call with
  | nil => exact ⟨by simp [processAll], by simp [processAll, VlmWork.analyses]⟩
  | cons w rest ih =>
      obtain ⟨item, env⟩ := w
      obtain ⟨hget, hrest⟩ := drop_eq_cons h
      have hallow : s.breaker.allowRequest env.admitAt = (_, true) := Prod.ext rfl hfirst
      have hadds := p.processItem_of_text item hallow hget
      have hclosed := recordSuccess_closed hallow
      rw [← hadds.breaker] at hclosed
      obtain ⟨hverdicts, hpublished⟩ := ih hrest (firstAdmitted_of_closed hclosed rest)
      rw [processAll]
      constructor
      · rw [hverdicts, hadds.verdicts, List.append_assoc, List.singleton_append,
          List.length_cons, List.replicate_succ]
      · rw [hpublished, hadds.published, List.append_assoc, List.singleton_append,
          VlmWork.analyses]

/-! ## One after another -/

/-- Each item adds at most one call. -/
theorem oneByOne_analyzed (s : VlmState) (work : VlmWork) :
    ∃ calls, (p.oneByOne s work).analyzed = s.analyzed ++ calls ∧ calls.length ≤ work.length := by
  induction work generalizing s with
  | nil => exact ⟨[], by simp [oneByOne], by simp⟩
  | cons w rest ih =>
      obtain ⟨item, env⟩ := w
      obtain ⟨calls, hcalls, hlen⟩ := ih (p.processItem s item 0 none env {}).1
      rw [oneByOne, hcalls]
      rcases hallow : s.breaker.allowRequest env.admitAt with ⟨b, allowed⟩
      cases allowed with
      | false =>
          rw [processItem_of_refused hallow]
          exact ⟨calls, rfl, by simp; omega⟩
      | true =>
          rw [(p.processItem_alone item hallow).analyzed, List.append_assoc]
          exact ⟨_, rfl, by simp; omega⟩

theorem oneByOne_verdicts (s : VlmState) (work : VlmWork) :
    ∃ verdicts, (p.oneByOne s work).verdicts = s.verdicts ++ verdicts := by
  induction work generalizing s with
  | nil => exact ⟨[], by simp [oneByOne]⟩
  | cons w rest ih =>
      obtain ⟨item, env⟩ := w
      obtain ⟨verdicts, hverdicts⟩ := ih (p.processItem s item 0 none env {}).1
      rw [oneByOne, hverdicts]
      rcases hallow : s.breaker.allowRequest env.admitAt with ⟨b, allowed⟩
      cases allowed with
      | false =>
          rw [processItem_of_refused hallow]
          exact ⟨verdicts, rfl⟩
      | true =>
          rw [(p.processItem_alone item hallow).verdicts, List.append_assoc]
          exact ⟨_, rfl⟩

/-- The head of the work, when the engine answers its bare prompt with a text. -/
theorem processItem_answered {item : VlmItem} {env : ItemEnv} {b : CircuitBreaker} {text : String}
    (hallow : s.breaker.allowRequest env.admitAt = (b, true)) (hd : item.deviceId = "")
    (ha : p.engineAnswer s item env = .ok text) :
    s.Adds (p.processItem s item 0 none env {}).1 b.recordSuccess
      [⟨item.frameData, item.prompt, b, env.callAt⟩] [.success]
      [item.analysis text env.publishedAt] := by
  have hadds := p.processItem_alone item hallow
  rw [builtPrompt_eq_iff.mpr hd, ha] at hadds
  exact hadds

theorem oneByOne_of_answered (hl : s.engine.loaded = true) (hs : s.engine.useStub = false)
    (hfirst : work.firstAdmitted s = true) (hanon : work.anonymous = true)
    (hans : work.answered p.model s.analyzed.length = true) :
    (p.oneByOne s work).analyzed.map AnalyzeCall.prompt =
      s.analyzed.map AnalyzeCall.prompt ++ work.prompts ∧
    (p.oneByOne s work).verdicts = s.verdicts ++ List.replicate work.length .success ∧
    (p.oneByOne s work).published =
      s.published ++ work.analyses p.model s.analyzed.length := by
  induction work generalizing s with
  | nil => exact ⟨by simp [oneByOne, VlmWork.prompts], by simp [oneByOne],
      by simp [oneByOne, VlmWork.analyses]⟩
  | cons w rest ih =>
      obtain ⟨item, env⟩ := w
      obtain ⟨hd, hanonRest⟩ : item.deviceId = "" ∧ VlmWork.anonymous rest = true := by
        simpa [VlmWork.anonymous] using hanon
      obtain ⟨hok, hansRest⟩ :
          (p.model s.analyzed.length item.frameData item.prompt).isOk = true ∧
          VlmWork.answered p.model (s.analyzed.length + 1) rest = true := by
        simpa [VlmWork.answered] using hans
      have hallow : s.breaker.allowRequest env.admitAt = (_, true) := Prod.ext rfl hfirst
      cases hm : p.model s.analyzed.length item.frameData item.prompt with
      | error e => simp [hm, Except.isOk, Except.toBool] at hok
      | ok text =>
          have ha : p.engineAnswer s item env = .ok text := by
            rw [engineAnswer_of_ready hl hs, builtPrompt_eq_iff.mpr hd, hm]
          have hadds := processItem_answered hallow hd ha
          have hclosed := recordSuccess_closed hallow
          rw [← hadds.breaker] at hclosed
          have hlength : (p.processItem s item 0 none env {}).1.analyzed.length =
              s.analyzed.length + 1 := by rw [hadds.analyzed, List.length_append]; rfl
          obtain ⟨hprompts, hverdicts, hpublished⟩ :=
            ih (hadds.loaded.trans hl) (hadds.useStub.trans hs) (firstAdmitted_of_closed hclosed rest)
              hanonRest (by rw [hlength]; exact hansRest)
          rw [oneByOne]
          refine ⟨?_, ?_, ?_⟩
          · rw [hprompts, hadds.analyzed, List.map_append, List.append_assoc]
            rfl
          · rw [hverdicts, hadds.verdicts, List.append_assoc, List.singleton_append,
              List.length_cons, List.replicate_succ]
          · rw [hpublished, hadds.published, hlength, List.append_assoc, List.singleton_append,
              VlmWork.analyses, hm]
            rfl

/-- Bare prompts for all items and nothing but successes: so each item was
admitted, has no device, and was answered. -/
theorem transparent_of_oneByOne (hl : s.engine.loaded = true) (hs : s.engine.useStub = false)
    (hprompts : (p.oneByOne s work).analyzed.map AnalyzeCall.prompt =
      s.analyzed.map AnalyzeCall.prompt ++ work.prompts)
    (hverdicts : ∃ n, (p.oneByOne s work).verdicts = s.verdicts ++ List.replicate n .success) :
    work.firstAdmitted s = true ∧ work.anonymous = true ∧
      work.answered p.model s.analyzed.length = true := by
  induction work generalizing s with
  | nil => exact ⟨rfl, rfl, rfl⟩
  | cons w rest ih =>
      obtain ⟨item, env⟩ := w
      rw [oneByOne] at hprompts hverdicts
      obtain ⟨calls, hcalls, hshort⟩ :=
        p.oneByOne_analyzed (p.processItem s item 0 none env {}).1 rest
      rcases hallow : s.breaker.allowRequest env.admitAt with ⟨b, allowed⟩
      cases allowed with
      | false =>
          have hlen := congrArg List.length hprompts
          rw [hcalls, processItem_of_refused hallow] at hlen
          simp [VlmState.taskDone, VlmWork.prompts] at hlen
          omega
      | true =>
          have hadds := p.processItem_alone item hallow
          have hsplit : (p.builtPrompt s item env).2 = item.prompt ∧
              calls.map AnalyzeCall.prompt = VlmWork.prompts rest := by
            rw [hcalls, hadds.analyzed, List.map_append, List.map_append, List.append_assoc,
              List.append_cancel_left_eq] at hprompts
            simpa [VlmWork.prompts] using hprompts
          have hd := builtPrompt_eq_iff.mp hsplit.1
          have ha : p.engineAnswer s item env =
              p.model s.analyzed.length item.frameData item.prompt := by
            rw [engineAnswer_of_ready hl hs, hsplit.1]
          cases hm : p.model s.analyzed.length item.frameData item.prompt with
          | error e =>
              obtain ⟨n, hn⟩ := hverdicts
              obtain ⟨later, hlater⟩ :=
                p.oneByOne_verdicts (p.processItem s item 0 none env {}).1 rest
              rw [hlater, hadds.verdicts, ha, hm, List.append_assoc,
                List.append_cancel_left_eq] at hn
              have hmem : Verdict.failure ∈ List.replicate n Verdict.success := by
                rw [← hn]
                simp [itemVerdicts, waitFor]
              cases (List.mem_replicate.mp hmem).2
          | ok text =>
              have hadds' := processItem_answered hallow hd (ha.trans hm)
              have hlength : (p.processItem s item 0 none env {}).1.analyzed.length =
                  s.analyzed.length + 1 := by rw [hadds'.analyzed, List.length_append]; rfl
              have hrest := ih (hadds'.loaded.trans hl) (hadds'.useStub.trans hs)
                (by rw [hcalls, List.map_append, hsplit.2])
                (by
                  obtain ⟨n, hn⟩ := hverdicts
                  obtain ⟨later, hlater⟩ :=
                    p.oneByOne_verdicts (p.processItem s item 0 none env {}).1 rest
                  have hall : [Verdict.success] ++ later = List.replicate n .success := by
                    rw [hlater, hadds'.verdicts, List.append_assoc,
                      List.append_cancel_left_eq] at hn
                    exact hn
                  refine ⟨later.length, ?_⟩
                  rw [hlater, List.append_cancel_left_eq]
                  exact List.eq_replicate_of_mem fun v hv =>
                    (List.mem_replicate.mp (hall ▸ List.mem_append_right _ hv)).2)
              refine ⟨by simp [VlmWork.firstAdmitted, hallow], ?_, ?_⟩
              · simpa [VlmWork.anonymous, hd] using hrest.2.1
              · rw [VlmWork.answered, hm, ← hlength, hrest.2.2]
                rfl

/-! ## The two ways together -/

/-- Without texts the place in the batch does not matter. -/
theorem processAll_none (s : VlmState) (idx : Nat) (work : VlmWork) :
    p.processAll none s idx work = p.oneByOne s work := by
  induction work generalizing s idx with
  | nil => rfl
  | cons w rest ih =>
      obtain ⟨item, env⟩ := w
      rw [processAll, oneByOne, ih]
      rfl

theorem viaBatch_of_returned {s' : VlmState} {batchResults : Option (List String)}
    (h : p.dispatch s (work.map Prod.fst) env = (s', .returned batchResults)) :
    p.viaBatch s env work = p.processAll batchResults s' 0 work := by
  rw [viaBatch, h]

/-- An engine without a model is not asked about the items of the batch. -/
theorem dispatch_of_unloaded {batch : List VlmItem} (hint : env.interrupt = none)
    (hl : s.engine.loaded = false) : p.dispatch s batch env = (s, .returned none) := by
  by_cases hlen : batch.length ≤ 1
  · exact dispatch_of_single hlen
  · have hnone : batchAnalyzed s batch env = [] := by
      simp [batchAnalyzed, MLXInferenceEngine.batchCalls, hint, hl]
    simp only [dispatch, hlen, if_false, hint, MLXInferenceEngine.batchAnalyze_of_unloaded hl,
      hnone, List.append_nil]

theorem dispatch_of_ready (hint : env.interrupt = none) (hl : s.engine.loaded = true)
    (hs : s.engine.useStub = false) (hlen : 1 < work.length) :
    p.dispatch s (work.map Prod.fst) env =
      ({ s with analyzed := s.analyzed ++ batchAnalyzed s (work.map Prod.fst) env },
        .returned (some (work.texts p.model s.analyzed.length))) := by
  have hmany : ¬ (work.map Prod.fst).length ≤ 1 := by simpa using hlen
  simp only [dispatch, hmany, if_false, hint, MLXInferenceEngine.batchAnalyze_of_ready hl hs,
    VlmWork.mapIdx_texts]

theorem batchAnalyzed_prompts (hint : env.interrupt = none) (hl : s.engine.loaded = true)
    (hs : s.engine.useStub = false) :
    (batchAnalyzed s (work.map Prod.fst) env).map AnalyzeCall.prompt = work.prompts := by
  simp only [batchAnalyzed, MLXInferenceEngine.batchCalls, hint, hl, hs, batchItems,
    VlmWork.prompts]
  apply List.ext_getElem
  · simp
  · intro i _ _
    simp

/-- A batch gives what the items one after another give exactly when it is no real
batch, or no model is loaded, or the breaker admits its first item, no item has a
device, and the engine has a result for each. -/
theorem viaBatch_sameOutcome_iff (hint : env.interrupt = none) (hs : s.engine.useStub = false) :
    (p.viaBatch s env work).SameOutcome (p.oneByOne s work) ↔ work.Transparent p s := by
  by_cases hlen : work.length ≤ 1
  · have hsingle : (work.map Prod.fst).length ≤ 1 := by simpa using hlen
    rw [viaBatch_of_returned (dispatch_of_single hsingle), processAll_none]
    exact ⟨fun _ => .inl hlen, fun _ => ⟨rfl, rfl, rfl⟩⟩
  cases hl : s.engine.loaded with
  | false =>
      rw [viaBatch_of_returned (dispatch_of_unloaded hint hl), processAll_none]
      exact ⟨fun _ => .inr (.inl hl), fun _ => ⟨rfl, rfl, rfl⟩⟩
  | true =>
      rw [viaBatch_of_returned (dispatch_of_ready hint hl hs (by omega))]
      have hprompts : ∀ calls, (s.analyzed ++ batchAnalyzed s (work.map Prod.fst) env).map
          AnalyzeCall.prompt = calls ↔ s.analyzed.map AnalyzeCall.prompt ++ work.prompts = calls := by
        intro calls
        rw [List.map_append, batchAnalyzed_prompts hint hl hs]
      generalize hcalls : s.analyzed ++ batchAnalyzed s (work.map Prod.fst) env = calls at hprompts
      have hdrop : (work.texts p.model s.analyzed.length).drop 0 =
          work.texts p.model s.analyzed.length := rfl
      obtain ⟨hanalyzed, hsuccesses⟩ :=
        processAll_texts (s := { s with analyzed := calls }) hdrop
      constructor
      · intro hsame
        refine .inr (.inr (transparent_of_oneByOne hl hs ?_ ?_))
        · have h := hsame.prompts
          rw [hanalyzed, hprompts] at h
          exact h.symm
        · obtain ⟨n, hn⟩ := hsuccesses
          exact ⟨n, hsame.verdicts.symm.trans hn⟩
      · rintro (h | h | ⟨hfirst, hanon, hans⟩)
        · exact absurd h hlen
        · rw [hl] at h
          cases h
        · obtain ⟨hprompts', hverdicts, hpublished⟩ := oneByOne_of_answered hl hs hfirst hanon hans
          obtain ⟨hverdicts', hpublished'⟩ :=
            processAll_admitted (s := { s with analyzed := calls }) hdrop hfirst
          refine ⟨?_, hverdicts'.trans hverdicts.symm, hpublished'.trans hpublished.symm⟩
          rw [hanalyzed, hprompts, hprompts']

/-- Two items of a device in one batch. -/
def deviceWork : VlmWork :=
  let item : VlmItem := { VlmItem.anonymous with deviceId := "edge-1" }
  [(item, .quiet 0), (item, .quiet 1)]

/-- The engine sees the bare prompts of a batch, and not the conversation. -/
theorem not_sameOutcome_device :
    ¬ ∀ (p : VLMProcessingPipeline) (s : VlmState) (env : BatchEnv) (work : VlmWork),
      env.interrupt = none → s.engine.useStub = false →
        (p.viaBatch s env work).SameOutcome (p.oneByOne s work) := by
  intro h
  let s : VlmState := { engine := ⟨true, false, []⟩ }
  have hprompts := (h seesPerson s ⟨0, fun _ => 0, 0, none⟩ deviceWork rfl rfl).prompts
  have hfirst : ((seesPerson.viaBatch s ⟨0, fun _ => 0, 0, none⟩ deviceWork).analyzed.map
      AnalyzeCall.prompt).head? = some "describe" := by decide +kernel
  rw [hprompts] at hfirst
  revert hfirst
  decide +kernel

theorem viaBatch_sameOutcome_iff_device :
    let s : VlmState := { engine := ⟨true, false, []⟩ }
    (seesPerson.viaBatch s ⟨0, fun _ => 0, 0, none⟩ deviceWork).SameOutcome
      (seesPerson.oneByOne s deviceWork) ↔ deviceWork.Transparent seesPerson s :=
  viaBatch_sameOutcome_iff rfl rfl

end VLMProcessingPipeline
