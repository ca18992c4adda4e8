-- SUMMARY: The inference engine: conversations by device, single and batched analysis.
import Mathlib.Data.List.Basic
import NeuroPipeline.Lib.Window

/-!
# Inference engine

Model of mlx_llm_inference.py. What the loaded model answers is a parameter: one
answer, a text or an error, for each call with its number.
-/

/-- `l[i:]` -/
def sliceFrom {α : Type} (l : List α) (i : Int) : List α :=
  if i < 0 then l.drop (l.length + i).toNat else l.drop i.toNat

/-- `s[:n]` -/
def firstChars (n : Nat) (s : String) : String := String.ofList (s.toList.take n)

/-! ## Conversations -/

structure Turn where
  role : String
  content : String
  deriving DecidableEq

structure ConversationContext where
  maxTurns : Int := 10
  history : List Turn := []
  deriving DecidableEq

namespace ConversationContext

def addTurn (c : ConversationContext) (role content : String) : ConversationContext :=
  let history := c.history ++ [⟨role, content⟩]
  { c with
    history :=
      if c.maxTurns * 2 < history.length then sliceFrom history (-c.maxTurns * 2) else history }

def line (turn : Turn) : String :=
  (if turn.role = "user" then "User" else "Assistant") ++ ": " ++ turn.content

def buildPrompt (c : ConversationContext) (newPrompt : String) : String :=
  "\n".intercalate (c.history.map line ++ ["User: " ++ newPrompt])

/-- The prompt of a conversation ends with the new prompt and is longer. -/
theorem length_lt_buildPrompt (c : ConversationContext) (newPrompt : String) :
    newPrompt.length < (c.buildPrompt newPrompt).length := by
  by_cases h : c.history.map line = []
  · have hlen : ("User: ").length = 6 := rfl
    simp [buildPrompt, h, String.intercalate_singleton, hlen]
  · rw [buildPrompt, String.intercalate_append_of_ne_nil h (by simp)]
    simp only [String.intercalate_singleton, String.length_append]
    have hlen : ("User: ").length = 6 := rfl
    omega

/-! ### The turns that are kept -/

def addTurns (c : ConversationContext) (turns : List Turn) : ConversationContext :=
  turns.foldl (fun c turn => c.addTurn turn.role turn.content) c

variable {c : ConversationContext} {turn : Turn} {turns : List Turn} {n : Nat}

theorem addTurns_concat (c : ConversationContext) (turns : List Turn) (turn : Turn) :
    c.addTurns (turns ++ [turn]) = (c.addTurns turns).addTurn turn.role turn.content := by
  rw [addTurns, List.foldl_append]
  rfl

theorem maxTurns_addTurns (c : ConversationContext) (turns : List Turn) :
    (c.addTurns turns).maxTurns = c.maxTurns := by
  induction turns using List.reverseRecOn with
  | nil => rfl
  | append_singleton turns turn ih =>
    rw [addTurns_concat]
    exact ih

/-- A slice from a position counted from the end keeps as many entries as it counts. -/
theorem sliceFrom_neg {α : Type} (l : List α) (hn : 0 < n) : sliceFrom l (-n) = l.rtake n := by
  rw [sliceFrom, if_pos (by omega), List.rtake]
  congr 1
  omega

theorem history_addTurn_of_pos (hn : 0 < n) (hmax : c.maxTurns = n) (turn : Turn) :
    (c.addTurn turn.role turn.content).history = (c.history ++ [turn]).rtake (2 * n) := by
  have hcut : -c.maxTurns * 2 = -(2 * n : Nat) := by omega
  have hstep : (c.addTurn turn.role turn.content).history =
      if c.maxTurns * 2 < (c.history ++ [turn]).length then
        sliceFrom (c.history ++ [turn]) (-c.maxTurns * 2)
      else c.history ++ [turn] := rfl
  rw [hstep]
  split
  next => rw [hcut, sliceFrom_neg _ (by omega)]
  next hshort => rw [List.rtake_of_length_le (by omega)]

/-- `-0` counts from the start, so the slice of a context without turns is all of it. -/
theorem history_addTurn_of_zero (hmax : c.maxTurns = 0) (turn : Turn) :
    (c.addTurn turn.role turn.content).history = c.history ++ [turn] := by
  simp [addTurn, hmax, sliceFrom]

theorem history_addTurns_of_pos (hn : 0 < n) (turns : List Turn) :
    (addTurns { maxTurns := n } turns).history = turns.rtake (2 * n) := by
  induction turns using List.reverseRecOn with
  | nil => simp [addTurns]
  | append_singleton turns turn ih =>
    rw [addTurns_concat, history_addTurn_of_pos hn (maxTurns_addTurns _ turns), ih,
      List.rtake_rtake_concat]

theorem history_addTurns_of_zero (turns : List Turn) :
    (addTurns { maxTurns := 0 } turns).history = turns := by
  induction turns using List.reverseRecOn with
  | nil => rfl
  | append_singleton turns turn ih =>
    rw [addTurns_concat, history_addTurn_of_zero (maxTurns_addTurns _ turns), ih]

/-- The last turns are kept, twice as many as the bound, unless the bound is zero: then all
turns are. -/
theorem history_addTurns_iff (maxTurns : Nat) (turns : List Turn) :
    (addTurns { maxTurns } turns).history =
        turns.rtake (min turns.length (2 * maxTurns)) ↔
      0 < maxTurns ∨ turns = [] := by
  rcases Nat.eq_zero_or_pos maxTurns with rfl | hpos
  · rw [Int.natCast_zero, history_addTurns_of_zero, Nat.mul_zero, Nat.min_zero, List.rtake_zero]
    simp
  · refine iff_of_true ?_ (.inl hpos)
    rw [history_addTurns_of_pos hpos]
    rcases Nat.le_total turns.length (2 * maxTurns) with hshort | hlong
    · rw [Nat.min_eq_left hshort, List.rtake_of_length_le hshort,
        List.rtake_of_length_le (Nat.le_refl _)]
    · rw [Nat.min_eq_right hlong]

theorem not_lastTurns_zero :
    (addTurns { maxTurns := 0 } [⟨"user", "Is the gate open?"⟩]).history ≠
      ([⟨"user", "Is the gate open?"⟩] : List Turn).rtake (min 1 (2 * 0)) := by
  decide

end ConversationContext

/-! ## The engine -/

/-- What the model does when it is called: by the number of the call, the image and the prompt. -/
abbrev ModelCalls := Nat → List UInt8 → String → Except String String

structure MLXInferenceEngine where
  loaded : Bool := false
  useStub : Bool := true
  conversations : List (String × ConversationContext) := []

namespace MLXInferenceEngine

def notLoaded : String := "Model not loaded. Call load_model() first."

def getConversation (e : MLXInferenceEngine) (deviceId : String) :
    MLXInferenceEngine × ConversationContext :=
  match e.conversations.lookup deviceId with
  | some c => (e, c)
  | none => ({ e with conversations := e.conversations ++ [(deviceId, {})] }, {})

/-- The conversation of the device is changed where it stands. -/
def setConversation (e : MLXInferenceEngine) (deviceId : String) (c : ConversationContext) :
    MLXInferenceEngine :=
  { e with
    conversations := e.conversations.map fun p => if p.1 = deviceId then (p.1, c) else p }

def analyzeImage (e : MLXInferenceEngine) (model : ModelCalls) (call : Nat)
    (frameData : List UInt8) (prompt : String) : Except String String :=
  if e.loaded = false then .error notLoaded
  else if e.useStub then .ok ("[STUB] Analysis of: " ++ firstChars 80 prompt)
  else model call frameData prompt

/-- An item of a batch that fails becomes a text. -/
def batchText (answer : Except String String) : String :=
  match answer with
  | .ok text => text
  | .error e => "[ERROR] " ++ e

/-- The images and prompts `batch_analyze` has analysed one after another. -/
def batchCalls (e : MLXInferenceEngine) (items : List (List UInt8 × String)) :
    List (List UInt8 × String) :=
  if e.loaded && !e.useStub then items else []

def batchAnalyze (e : MLXInferenceEngine) (model : ModelCalls) (call : Nat)
    (items : List (List UInt8 × String)) : Except String (List String) :=
  if e.loaded = false then .error notLoaded
  else if e.useStub then
    .ok (items.mapIdx fun i item => "[STUB] batch " ++ toString i ++ ": " ++ firstChars 60 item.2)
  else .ok (items.mapIdx fun i item => batchText (e.analyzeImage model (call + i) item.1 item.2))

variable {e : MLXInferenceEngine} {model : ModelCalls} {call : Nat}

theorem analyzeImage_of_ready (hl : e.loaded = true) (hs : e.useStub = false)
    (frameData : List UInt8) (prompt : String) :
    e.analyzeImage model call frameData prompt = model call frameData prompt := by
  simp [analyzeImage, hl, hs]

theorem batchAnalyze_of_ready (hl : e.loaded = true) (hs : e.useStub = false)
    (items : List (List UInt8 × String)) :
    e.batchAnalyze model call items =
      .ok (items.mapIdx fun i item => batchText (model (call + i) item.1 item.2)) := by
  simp [batchAnalyze, analyzeImage, hl, hs]

theorem batchAnalyze_of_unloaded (hl : e.loaded = false) (items : List (List UInt8 × String)) :
    e.batchAnalyze model call items = .error notLoaded := by
  simp [batchAnalyze, hl]

end MLXInferenceEngine
