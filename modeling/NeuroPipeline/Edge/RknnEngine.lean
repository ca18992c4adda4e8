-- SUMMARY: The inference engine with its driver context and the tensors it was told of, step by step through its initialisation.
import NeuroPipeline.Edge.Inference

/-!
# Engine with its context

Model of rknn_engine.cpp on the real driver. A context is a handle that `rknn_init` makes of
the data of a model file; what the driver answers is given with each call. The affinity to
cores changes no result and is left out.
-/

/-- `rknn_context`: no two are the same. -/
structure RknnContext where
  serial : Nat
  modelData : List UInt8
  deriving DecidableEq

inductive TensorFormat where
  | nchw
  | nhwc
  | other
  deriving DecidableEq

/-- `rknn_tensor_attr`, as far as it is read. -/
structure TensorAttr where
  index : Nat := 0
  fmt : TensorFormat := .nchw
  dims : List Nat := []

/-- What opening the model file gives. -/
inductive ModelFile where
  | unreadable
  /-- it opens, but has no size -/
  | unsized
  | data (bytes : List UInt8)

/-- The answers of the file system and of the driver to `Initialize`; a query that fails
has none. -/
structure InitAnswers where
  file : ModelFile
  /-- `rknn_init` does not fail -/
  init : Bool
  ioNum : Option (Nat × Nat)
  inputAttr : Nat → Option TensorAttr
  outputAttr : Nat → Option TensorAttr

/-- `RKNNEngine::Impl` -/
structure RknnImpl where
  modelPath : String
  coreMask : Int
  ctx : Option RknnContext := none
  nInput : Nat := 0
  nOutput : Nat := 0
  inputWidth : Nat := 0
  inputHeight : Nat := 0
  inputChannels : Nat := 0
  inputAttrs : List TensorAttr := []
  outputAttrs : List TensorAttr := []

namespace RknnImpl

/-! ## Initialize -/

/-- `attrs.resize(n)` -/
def resize (attrs : List TensorAttr) (n : Nat) : List TensorAttr :=
  attrs.take n ++ List.replicate (n - attrs.length) ({} : TensorAttr)

/-- The loop over the tensors from `i` on, `k` of them; it ends with the first failure. -/
def queryAttrs (answer : Nat → Option TensorAttr) :
    (k i : Nat) → List TensorAttr → List TensorAttr × Bool
  | 0, _, attrs => (attrs, true)
  | k + 1, i, attrs =>
    match answer i with
    | none => (attrs.modify i fun attr => { attr with index := i }, false)
    | some attr => queryAttrs answer k (i + 1) (attrs.set i attr)

def queryTensors (answer : Nat → Option TensorAttr) (n : Nat) (attrs : List TensorAttr) :
    List TensorAttr × Bool :=
  queryAttrs answer n 0 (resize attrs n)

/-- The dimensions of the first input; a model has one. -/
def readDimensions (e : RknnImpl) : RknnImpl :=
  let attr := e.inputAttrs.headD {}
  let dim i := attr.dims.getD i 0
  match attr.fmt with
  | .nhwc => { e with inputHeight := dim 1, inputWidth := dim 2, inputChannels := dim 3 }
  | .nchw | .other => { e with inputChannels := dim 1, inputHeight := dim 2, inputWidth := dim 3 }

/-- The queries to a new context. -/
def query (e : RknnImpl) (a : InitAnswers) : RknnImpl × Bool :=
  match a.ioNum with
  | none => (e, false)
  | some (nInput, nOutput) =>
    let e := { e with nInput := nInput, nOutput := nOutput }
    let inputs := queryTensors a.inputAttr nInput e.inputAttrs
    let e := { e with inputAttrs := inputs.1 }
    if inputs.2 then
      let outputs := queryTensors a.outputAttr nOutput e.outputAttrs
      let e := { e with outputAttrs := outputs.1 }
      if outputs.2 then (e.readDimensions, true) else (e, false)
    else (e, false)

/-- `Initialize`, where the next context has the number `serial`. -/
def initializeModel (e : RknnImpl) (serial : Nat) (a : InitAnswers) :
    Except StdException (RknnImpl × Bool) :=
  match a.file with
  | .unreadable => .ok (e, false)
  | .unsized => .error .lengthError
  | .data bytes =>
    if a.init then .ok ({ e with ctx := some ⟨serial, bytes⟩ }.query a) else .ok (e, false)

/-! ## Infer, Release -/

/-- `run` is the driver's answer to a context that is asked for so many outputs. -/
def infer {T : Type} (e : RknnImpl) (run : RknnContext → Nat → Option T) : Option T :=
  e.ctx.bind fun ctx => run ctx e.nOutput

def release (e : RknnImpl) : RknnImpl := { e with ctx := none }

end RknnImpl

namespace InitAnswers

/-- All queries have answers. -/
def queriesAnswered (a : InitAnswers) : Bool :=
  match a.ioNum with
  | none => false
  | some (nInput, nOutput) =>
    (List.range nInput).all (fun i => (a.inputAttr i).isSome) &&
      (List.range nOutput).all fun i => (a.outputAttr i).isSome

/-- What the initialisation comes to. -/
def outcome (a : InitAnswers) : EngineInit :=
  match a.file with
  | .unreadable => .fileUnreadable
  | .unsized => .allocationThrows
  | .data _ =>
    if a.init then if a.queriesAnswered then .ready else .queryFailed
    else .initFailed

end InitAnswers

namespace RknnImpl

/-! ## The engine without its tensors -/

/-- What the coordinator depends on. -/
def toEngine (e : RknnImpl) : RknnEngine := ⟨e.modelPath, e.coreMask, e.ctx.isSome⟩

theorem queryAttrs_snd (answer : Nat → Option TensorAttr) (k i : Nat) (attrs : List TensorAttr) :
    (queryAttrs answer k i attrs).2 = (List.range' i k).all fun i => (answer i).isSome := by
  induction k generalizing i attrs with
  | zero => rfl
  | succ k ih =>
    rw [queryAttrs, List.range'_succ, List.all_cons]
    cases hanswer : answer i with
    | none => rfl
    | some attr => exact ih (i + 1) _

theorem queryTensors_snd (answer : Nat → Option TensorAttr) (n : Nat) (attrs : List TensorAttr) :
    (queryTensors answer n attrs).2 = (List.range n).all fun i => (answer i).isSome := by
  rw [queryTensors, queryAttrs_snd, List.range_eq_range']

theorem query_snd (e : RknnImpl) (a : InitAnswers) : (e.query a).2 = a.queriesAnswered := by
  rw [query, InitAnswers.queriesAnswered]
  cases a.ioNum with
  | none => rfl
  | some n =>
    dsimp only
    rw [← queryTensors_snd a.inputAttr n.1 e.inputAttrs,
      ← queryTensors_snd a.outputAttr n.2 e.outputAttrs]
    cases (queryTensors a.inputAttr n.1 e.inputAttrs).2 with
    | false => rfl
    | true => cases (queryTensors a.outputAttr n.2 e.outputAttrs).2 <;> rfl

theorem readDimensions_engine (e : RknnImpl) :
    e.readDimensions.ctx = e.ctx ∧ e.readDimensions.toEngine = e.toEngine := by
  rw [readDimensions]
  cases (e.inputAttrs.headD {}).fmt <;> exact ⟨rfl, rfl⟩

/-- The queries leave the context alone. -/
theorem query_engine (e : RknnImpl) (a : InitAnswers) :
    (e.query a).1.ctx = e.ctx ∧ (e.query a).1.toEngine = e.toEngine := by
  rw [query]
  cases a.ioNum with
  | none => exact ⟨rfl, rfl⟩
  | some n =>
    cases hinputs : (queryTensors a.inputAttr n.1 e.inputAttrs).2 with
    | false =>
      simp only [hinputs]
      exact ⟨rfl, rfl⟩
    | true =>
      simp only [hinputs, if_true]
      cases houtputs : (queryTensors a.outputAttr n.2 e.outputAttrs).2 with
      | false => exact ⟨rfl, rfl⟩
      | true =>
        simp only [if_true]
        exact readDimensions_engine _

/-- The initialisation, seen without the tensors. -/
theorem initializeModel_toEngine (e : RknnImpl) (serial : Nat) (a : InitAnswers) :
    (e.initializeModel serial a).map (fun r => (r.1.toEngine, r.2)) =
      e.toEngine.initializeEngine a.outcome := by
  rw [initializeModel, InitAnswers.outcome]
  cases a.file with
  | unreadable => rfl
  | unsized => rfl
  | data bytes =>
    cases a.init with
    | false => rfl
    | true =>
      have hengine := (query_engine { e with ctx := some ⟨serial, bytes⟩ } a).2
      have hready := query_snd { e with ctx := some ⟨serial, bytes⟩ } a
      simp only [if_true, Except.map, hengine, hready]
      cases a.queriesAnswered <;> rfl

theorem release_toEngine (e : RknnImpl) : e.release.toEngine = e.toEngine.release := rfl

/-- Only an engine with a context gives outputs. -/
theorem infer_toEngine {F : Type} (e : RknnImpl) (run : RknnContext → Nat → Option (Tensors F)) :
    e.toEngine.infer (e.infer run) = e.infer run := by
  cases h : e.ctx with
  | none => simp [toEngine, RknnEngine.infer, infer, h]
  | some ctx => simp [toEngine, RknnEngine.infer, h]

end RknnImpl
