-- SUMMARY: The reasoning chain: steps that build on each other, and when the result says success.
import NeuroPipeline.Central.StoreQueries

/-!
# Reasoning chain

Model of reasoning_chain.py. A run of the chain is given what each call of the
engine and of the conversation store comes to. Times are left out.
-/

structure ReasoningDetection where
  className : String
  confidence : ℚ

inductive EngineReply where
  | answer (text : String)
  /-- an exception and its text -/
  | error (message : String)
  | timeout
  deriving DecidableEq

structure ReasoningStep where
  stepName : String
  prompt : String
  result : String := ""
  deriving DecidableEq

structure ReasoningResult where
  steps : List ReasoningStep := []
  finalConclusion : String := ""
  success : Bool := false
  deriving DecidableEq

structure ConversationTurn where
  deviceId : String
  role : String
  content : String
  contextType : String
  deriving DecidableEq

/-- The calls of the conversation store so far, and which of them raise. -/
structure ConversationStore where
  turns : List ConversationTurn := []
  raises : Nat → Bool

structure ReasoningChain where
  maxSteps : Int
  timeoutPerStep : Binary64

def EngineReply.answers : EngineReply → Bool
  | .answer _ => true
  | .error _ | .timeout => false

namespace ConversationStore

/-- A call, and whether it raises. -/
def recordConversation (store : ConversationStore) (turn : ConversationTurn) :
    ConversationStore × Bool :=
  ({ store with turns := store.turns ++ [turn] }, store.raises store.turns.length)

end ConversationStore

namespace ReasoningChain

open CFloat (const)

def stepNames : List String := ["observe", "reason", "verify"]

/-- `__init__` -/
def create (maxSteps : Int) (timeoutPerStep : Binary64) : ReasoningChain where
  maxSteps := min maxSteps 3
  timeoutPerStep := timeoutPerStep

/-! ## Prompts -/

def detectionSummary (detections : List ReasoningDetection) : String :=
  if detections.isEmpty then "no objects"
  else
    String.intercalate "; "
      (detections.map fun d => d.className ++ " (" ++ wholeText (d.confidence * 100) ++ "%)")

def buildStepPrompt (stepName : String) (detections : List ReasoningDetection)
    (previousContext : String) : String :=
  let context := String.ofList (previousContext.toList.take 300)
  if stepName = "observe" then
    "Observe this scene carefully. Detected objects: " ++ detectionSummary detections ++ ". " ++
      "Describe exactly what you see — objects, positions, actions, " ++
      "and environmental context. Be factual and specific."
  else if stepName = "reason" then
    "Based on this observation: \"" ++ context ++ "\" " ++
      "Now reason about what is happening. What activities are taking place? " ++
      "Are there any safety concerns, unusual patterns, or noteworthy interactions? " ++
      "Explain your reasoning step by step."
  else if stepName = "verify" then
    "Based on this analysis: \"" ++ context ++ "\" " ++
      "Verify your conclusions. Rate confidence (high/medium/low). " ++
      "Identify what could be wrong with the analysis. " ++
      "Provide a final concise assessment with actionable recommendations."
  else "Analyze: " ++ detectionSummary detections

/-! ## Execution -/

/-- What a call does with the store: the second turn is not recorded when the first raises. -/
def persist (deviceId stepName prompt result : String) (store : Option ConversationStore) :
    Option ConversationStore :=
  store.map fun store =>
    if deviceId = "" then store
    else
      let (asked, raised) := store.recordConversation
        ⟨deviceId, "system", "[" ++ stepName ++ "] " ++ prompt, "reasoning"⟩
      if raised then asked
      else (asked.recordConversation
        ⟨deviceId, "assistant", String.ofList (result.toList.take 500), "reasoning"⟩).1

variable (c : ReasoningChain) (py : Python) (engine : Nat → EngineReply)
  (detections : List ReasoningDetection) (deviceId : String)

/-- The steps from the `i`-th on. A step that fails is the last. -/
def executeFrom : Nat → List String → String → Option ConversationStore →
    List ReasoningStep × Option ConversationStore
  | _, [], _, store => ([], store)
  | i, stepName :: rest, context, store =>
    let prompt := buildStepPrompt stepName detections context
    match engine i with
    | .answer text =>
      let (steps, store) :=
        executeFrom (i + 1) rest text (persist deviceId stepName prompt text store)
      (⟨stepName, prompt, text⟩ :: steps, store)
    | .timeout =>
      ([⟨stepName, prompt, "[timeout after " ++ py.floatStr c.timeoutPerStep ++ "s]"⟩], store)
    | .error message => ([⟨stepName, prompt, "[error: " ++ message ++ "]"⟩], store)

/-- The steps that are configured. -/
def configured : List String := stepNames.take c.maxSteps.toNat

def execute (store : Option ConversationStore) : ReasoningResult × Option ConversationStore :=
  let (steps, store) := c.executeFrom py engine detections deviceId 0 c.configured "" store
  ({ steps := steps
     finalConclusion := (steps.getLast?.map ReasoningStep.result).getD ""
     success := (steps.length : Int) = c.maxSteps }, store)

/-! ## Truthful results -/

/-- The steps before it have been completed. -/
def Executed (i : Nat) : Prop := i < c.configured.length ∧ ∀ j < i, (engine j).answers = true

/-- Success stands for all configured steps, and the entries for the steps executed. -/
structure Truthful (result : ReasoningResult) : Prop where
  success : result.success = true ↔ ∀ i < c.configured.length, (engine i).answers = true
  executed : ∀ i, i < result.steps.length ↔ c.Executed engine i
  names : result.steps.map ReasoningStep.stepName <+: c.configured
  answered : ∀ i text, engine i = .answer text → ∀ step, result.steps[i]? = some step →
    step.result = text

/-- The last of the configured steps is executed and fails. -/
def FailsLast : Prop :=
  ∃ last, c.configured.length = last + 1 ∧ c.Executed engine last ∧ (engine last).answers = false

variable {c py engine detections deviceId}

/-! ## Steps -/

/-- A step is answered and the others follow, or it fails and is the last. -/
theorem executeFrom_cases (i : Nat) (stepName : String) (rest : List String) (context : String)
    (store : Option ConversationStore) :
    (∃ text store', engine i = .answer text ∧
      (c.executeFrom py engine detections deviceId i (stepName :: rest) context store).1 =
        ⟨stepName, buildStepPrompt stepName detections context, text⟩ ::
          (c.executeFrom py engine detections deviceId (i + 1) rest text store').1) ∨
    ((engine i).answers = false ∧ ∃ text,
      (c.executeFrom py engine detections deviceId i (stepName :: rest) context store).1 =
        [⟨stepName, buildStepPrompt stepName detections context, text⟩]) := by
  cases hreply : engine i with
  | answer text =>
      refine .inl ⟨text, persist deviceId stepName (buildStepPrompt stepName detections context)
        text store, rfl, ?_⟩
      simp only [executeFrom, hreply]
  | error message =>
      refine .inr ⟨rfl, "[error: " ++ message ++ "]", ?_⟩
      simp only [executeFrom, hreply]
  | timeout =>
      refine .inr ⟨rfl, "[timeout after " ++ py.floatStr c.timeoutPerStep ++ "s]", ?_⟩
      simp only [executeFrom, hreply]

/-- An entry is made for a step while all before it answer. -/
theorem lt_length_executeFrom {names : List String} {i k : Nat} {context : String}
    {store : Option ConversationStore} :
    k < (c.executeFrom py engine detections deviceId i names context store).1.length ↔
      k < names.length ∧ ∀ j < k, (engine (i + j)).answers = true := by
  induction names generalizing i k context store with
  | nil => simp [executeFrom]
  | cons stepName rest ih =>
      rcases c.executeFrom_cases i stepName rest context store with
        ⟨text, store', hreply, hsteps⟩ | ⟨hfails, text, hsteps⟩
      · rw [hsteps, List.length_cons, List.length_cons]
        cases k with
        | zero => simp
        | succ k =>
            rw [Nat.succ_lt_succ_iff, Nat.succ_lt_succ_iff, ih, Nat.forall_lt_succ_left]
            simp [hreply, EngineReply.answers, Nat.add_right_comm i 1, Nat.add_assoc i]
      · rw [hsteps, List.length_singleton, List.length_cons]
        constructor
        · intro hk
          obtain rfl : k = 0 := by omega
          simp
        · rintro ⟨-, hall⟩
          by_contra hk
          have hfirst := hall 0 (by omega)
          rw [Nat.add_zero, hfails] at hfirst
          cases hfirst

theorem names_executeFrom (names : List String) (i : Nat) (context : String)
    (store : Option ConversationStore) :
    (c.executeFrom py engine detections deviceId i names context store).1.map
      ReasoningStep.stepName <+: names := by
  induction names generalizing i context store with
  | nil => simp [executeFrom]
  | cons stepName rest ih =>
      rcases c.executeFrom_cases i stepName rest context store with
        ⟨text, store', -, hsteps⟩ | ⟨-, text, hsteps⟩
      · rw [hsteps, List.map_cons]
        exact ( List.prefix_cons_inj stepName).mpr (ih _ _ _)
      · rw [hsteps]
        simp

theorem answered_executeFrom {names : List String} {i k : Nat} {context text : String}
    {store : Option ConversationStore} (hreply : engine (i + k) = .answer text)
    {step : ReasoningStep}
    (hstep : (c.executeFrom py engine detections deviceId i names context store).1[k]? =
      some step) : step.result = text := by
  induction names generalizing i k context store with
  | nil => simp [executeFrom] at hstep
  | cons stepName rest ih =>
      rcases c.executeFrom_cases i stepName rest context store with
        ⟨first, store', hfirst, hsteps⟩ | ⟨hfails, _, hsteps⟩
      · rw [hsteps] at hstep
        cases k with
        | zero =>
            rw [Nat.add_zero, hfirst] at hreply
            obtain rfl := Option.some.inj hstep
            exact EngineReply.answer.inj hreply
        | succ k =>
            refine ih (i := i + 1) (k := k) ?_ hstep
            rwa [Nat.add_right_comm, Nat.add_assoc]
      · rw [hsteps] at hstep
        cases k with
        | zero =>
            rw [Nat.add_zero] at hreply
            rw [hreply] at hfails
            cases hfails
        | succ k => simp at hstep

/-! ## Results -/

section

variable {store : Option ConversationStore}

theorem lt_length_steps {i : Nat} :
    i < (c.execute py engine detections deviceId store).1.steps.length ↔ c.Executed engine i := by
  have hsteps : i < (c.executeFrom py engine detections deviceId 0 c.configured "" store).1.length ↔
      i < c.configured.length ∧ ∀ j < i, (engine (0 + j)).answers = true := lt_length_executeFrom
  simp only [Nat.zero_add] at hsteps
  exact hsteps

theorem success_iff : (c.execute py engine detections deviceId store).1.success = true ↔
    ((c.execute py engine detections deviceId store).1.steps.length : Int) = c.maxSteps :=
  decide_eq_true_iff

theorem length_configured (maxSteps : Int) (timeoutPerStep : Binary64) :
    (create maxSteps timeoutPerStep).configured.length = (min maxSteps 3).toNat := by
  rw [configured, List.length_take]
  change min (min maxSteps 3).toNat 3 = (min maxSteps 3).toNat
  omega

/-- All configured steps are completed when the last is executed and answers. -/
theorem all_answer_iff {last : Nat} (hlast : c.configured.length = last + 1) :
    (∀ i < c.configured.length, (engine i).answers = true) ↔
      c.Executed engine last ∧ (engine last).answers = true := by
  constructor
  · intro hall
    exact ⟨⟨by omega, fun j hj => hall j (by omega)⟩, hall last (by omega)⟩
  · rintro ⟨⟨-, hbefore⟩, hanswers⟩ i hi
    rcases Nat.lt_or_ge i last with hlt | hge
    · exact hbefore i hlt
    · obtain rfl : i = last := by omega
      exact hanswers

/-- With as many steps as are configured the chain has come to the last. -/
theorem success_iff_executed {last : Nat} (hlast : c.configured.length = last + 1)
    (hmax : (c.configured.length : Int) = c.maxSteps) :
    (c.execute py engine detections deviceId store).1.success = true ↔ c.Executed engine last := by
  have hreached : last < (c.execute py engine detections deviceId store).1.steps.length ↔
      c.Executed engine last := lt_length_steps
  have hbound : ¬ c.configured.length <
      (c.execute py engine detections deviceId store).1.steps.length := by
    intro hlt
    exact absurd (lt_length_steps.mp hlt).1 (lt_irrefl _)
  rw [success_iff, ← hreached]
  omega

/-- What is right whatever the engine does: the entries of the result. -/
theorem truthful_of_success
    (h : (c.execute py engine detections deviceId store).1.success = true ↔
      ∀ i < c.configured.length, (engine i).answers = true) :
    c.Truthful engine (c.execute py engine detections deviceId store).1 where
  success := h
  executed _ := lt_length_steps
  names := names_executeFrom _ _ _ _
  answered i text hreply step hstep := by
    rw [← Nat.zero_add i] at hreply
    exact answered_executeFrom hreply hstep

/-- A result is truthful just when the number of steps is not negative and the last
configured step, if it comes to it, does not fail. -/
theorem truthful_iff {maxSteps : Int} {timeoutPerStep : Binary64} :
    (create maxSteps timeoutPerStep).Truthful engine
        ((create maxSteps timeoutPerStep).execute py engine detections deviceId store).1 ↔
      0 ≤ maxSteps ∧ ¬ (create maxSteps timeoutPerStep).FailsLast engine := by
  have hlength := length_configured maxSteps timeoutPerStep
  have hconfigured : (create maxSteps timeoutPerStep).maxSteps = min maxSteps 3 := rfl
  generalize create maxSteps timeoutPerStep = c at hlength hconfigured ⊢
  constructor
  · intro h
    constructor
    · by_contra hneg
      -- no steps at all, which is not the number that was asked for
      have hsuccess := h.success.mpr fun i hi => by omega
      rw [success_iff] at hsuccess
      omega
    · rintro ⟨last, hlast, hexecuted, hfails⟩
      have hsuccess := h.success.mp ((success_iff_executed hlast (by omega)).mpr hexecuted)
      have hall := (all_answer_iff hlast).mp hsuccess
      rw [hfails] at hall
      cases hall.2
  · rintro ⟨hnonneg, hlast⟩
    apply truthful_of_success
    cases hn : c.configured.length with
    | zero =>
        have hnone : ¬ 0 < (c.execute py engine detections deviceId store).1.steps.length := by
          intro hpos
          have hexecuted := (lt_length_steps.mp hpos).1
          omega
        rw [success_iff]
        constructor
        · intro _ i hi
          omega
        · intro _
          omega
    | succ last =>
        rw [← hn, success_iff_executed hn (by omega), all_answer_iff hn]
        constructor
        · intro hexecuted
          refine ⟨hexecuted, ?_⟩
          by_contra hfails
          exact hlast ⟨last, hn, hexecuted, by simpa using hfails⟩
        · exact And.left

end

/-! ## A timeout at the end -/

/-- Two answers, and no third. -/
def slowVerifier : Nat → EngineReply
  | 0 => .answer "a person at the door"
  | 1 => .answer "a delivery"
  | _ => .timeout

/-- The verification has timed out, and the result says success. -/
theorem not_truthful_slowVerifier :
    ¬ (create 3 (const 15)).Truthful slowVerifier
      ((create 3 (const 15)).execute VlmConfigGuide.asciiPython slowVerifier [] "" none).1 := by
  intro h
  have hsuccess : ((create 3 (const 15)).execute VlmConfigGuide.asciiPython slowVerifier []
      "" none).1.success = true := by decide +kernel
  have hthird := h.success.mp hsuccess 2 (by decide +kernel)
  cases hthird

end ReasoningChain
