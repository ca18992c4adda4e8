-- SUMMARY: Commands on their way from guidance to the event streams: any stream may take any of them.
import Mathlib.Data.Set.Insert
import NeuroPipeline.Lib.TransitionSystem
import NeuroPipeline.Central.VlmConfigGuide

/-!
# Routing of commands

Model of the command queue of central_orchestrator.py with the handlers of
`BidirectionalEventStream` that take from it, and of the worker of
vlm_pipeline.py that puts guidance into it. A step is what a task does between
two points where it waits. The batches of the worker may have any size.
-/

/-- A command in the queue. What device it was made for is not in the message; it
is recorded here and never read. -/
structure PendingCommand where
  command : ControlCommand
  madeFor : Option String

/-- The handler of one event stream. -/
structure StreamHandler where
  /-- the device that opened the stream, which the handler does not know -/
  device : String
  /-- the command it has taken and not yet sent -/
  holding : Option PendingCommand

structure Central where
  commandQueue : List PendingCommand
  commandIdCounter : Nat
  /-- the devices whose detections wait for an analysis -/
  vlmQueue : List String
  /-- those the worker has taken -/
  batch : List String
  streams : Nat → Option StreamHandler
  /-- what was sent, with the device of the stream -/
  yielded : List (String × PendingCommand)

inductive CentralAct where
  /-- a device opens an event stream -/
  | openStream (i : Nat) (device : String)
  /-- a detection of the device that matches a rule -/
  | detection (device : String)
  /-- the worker takes the oldest one into its batch -/
  | collect
  /-- it has the next one of the batch analysed and gets this text -/
  | analyse (vlmResult : String)
  | analysisFails
  | sendControlCommand (cmd : ControlCommand)
  /-- `get_pending_command` returns in the handler of the stream -/
  | getPendingCommand (i : Nat)
  /-- it times out, and the handler tries again -/
  | timeout (i : Nat)
  | yieldEvent (i : Nat)
  /-- the stream is cancelled -/
  | closeStream (i : Nat)

namespace Central

def new : Central := ⟨[], 0, [], [], fun _ => none, []⟩

def vlmQueueSize : Nat := 32

def withStream (s : Central) (i : Nat) (h : Option StreamHandler) : Central :=
  { s with streams := Function.update s.streams i h }

/-- What `_apply_vlm_guidance` puts into the queue for a device. -/
def guidance (guide : VlmConfigGuide) (py : Python) (s : Central) (vlmResult device : String) :
    List PendingCommand :=
  if device = "" then []
  else (guide.applyVlmGuidance py s.commandIdCounter vlmResult device).map fun p =>
    ⟨p.2, some device⟩

def step (guide : VlmConfigGuide) (py : Python) (s : Central) : CentralAct → Option Central
  | .openStream i device =>
    match s.streams i with
    | none => some (s.withStream i (some ⟨device, none⟩))
    | some _ => none
  | .detection device =>
    -- a full queue drops it
    if s.vlmQueue.length < vlmQueueSize then some { s with vlmQueue := s.vlmQueue ++ [device] }
    else some s
  | .collect =>
    match s.vlmQueue with
    | [] => none
    | device :: rest => some { s with vlmQueue := rest, batch := s.batch ++ [device] }
  | .analyse vlmResult =>
    match s.batch with
    | [] => none
    | device :: rest =>
      let commands := guidance guide py s vlmResult device
      some { s with
        commandQueue := s.commandQueue ++ commands
        commandIdCounter := s.commandIdCounter + commands.length
        batch := rest }
  | .analysisFails =>
    match s.batch with
    | [] => none
    | _ :: rest => some { s with batch := rest }
  | .sendControlCommand cmd => some { s with commandQueue := s.commandQueue ++ [⟨cmd, none⟩] }
  | .getPendingCommand i =>
    match s.streams i, s.commandQueue with
    | some ⟨device, none⟩, cmd :: rest =>
      some { s.withStream i (some ⟨device, some cmd⟩) with commandQueue := rest }
    | _, _ => none
  | .timeout i =>
    match s.streams i with
    | some ⟨_, none⟩ => some s
    | _ => none
  | .yieldEvent i =>
    match s.streams i with
    | some ⟨device, some cmd⟩ =>
      some { s.withStream i (some ⟨device, none⟩) with yielded := s.yielded ++ [(device, cmd)] }
    | _ => none
  | .closeStream i => if (s.streams i).isSome then some (s.withStream i none) else none

end Central

/-- All interleavings of the handlers, the worker and the senders. -/
def centralSystem (guide : VlmConfigGuide) (py : Python) : TransitionSystem Central CentralAct where
  init s := s = Central.new
  step := Central.step guide py

namespace Central

/-! ## Specification -/

/-- What was made for a device was sent on its own streams only. -/
def Routed (s : Central) : Prop :=
  ∀ p ∈ s.yielded, ∀ device, p.2.madeFor = some device → p.1 = device

/-- Which devices open event streams, and which have their detections analysed. -/
def Among (openers analysed : Set String) (_ : Central) : CentralAct → Prop
  | .openStream _ device => device ∈ openers
  | .detection device => device ∈ analysed
  | _ => True

/-- No text leads to an adjustment. -/
def Silent (guide : VlmConfigGuide) (py : Python) : Prop :=
  ∀ vlmResult, (guide.parseVlmResult py vlmResult).adjustments = []

/-! ## One step -/

/-- Commands are on their way for these targets only, to streams of these openers. -/
structure Within (openers analysed targets : Set String) (s : Central) : Prop where
  queued : ∀ cmd ∈ s.commandQueue, ∀ d, cmd.madeFor = some d → d ∈ targets
  detected : ∀ d ∈ s.vlmQueue, d ∈ analysed
  taken : ∀ d ∈ s.batch, d ∈ analysed
  opened : ∀ i h, s.streams i = some h → h.device ∈ openers
  held : ∀ i h cmd, s.streams i = some h → h.holding = some cmd → ∀ d, cmd.madeFor = some d →
    d ∈ targets
  yielded : ∀ p ∈ s.yielded, p.1 ∈ openers ∧ ∀ d, p.2.madeFor = some d → d ∈ targets

section

variable {guide : VlmConfigGuide} {py : Python} {openers analysed targets : Set String}

theorem within_new : Within openers analysed targets new where
  queued := by simp [new]
  detected := by simp [new]
  taken := by simp [new]
  opened := by simp [new]
  held := by simp [new]
  yielded := by simp [new]

/-- What a handler may be when the stream is changed to it. -/
theorem Within.withStream {s : Central} (h : Within openers analysed targets s) (i : Nat)
    {handler : Option StreamHandler}
    (hopened : ∀ new, handler = some new → new.device ∈ openers)
    (hheld : ∀ new cmd, handler = some new → new.holding = some cmd →
      ∀ d, cmd.madeFor = some d → d ∈ targets) :
    Within openers analysed targets (s.withStream i handler) where
  queued := h.queued
  detected := h.detected
  taken := h.taken
  opened j new hj := by
    by_cases hji : j = i
    · subst hji
      apply hopened new
      simpa [Central.withStream] using hj
    · apply h.opened j new
      simpa [Central.withStream, hji] using hj
  held j new cmd hj hcmd := by
    by_cases hji : j = i
    · subst hji
      refine hheld new cmd ?_ hcmd
      simpa [Central.withStream] using hj
    · refine h.held j new cmd ?_ hcmd
      simpa [Central.withStream, hji] using hj
  yielded := h.yielded

theorem Within.withHandler {s : Central} (h : Within openers analysed targets s) (i : Nat)
    {device : String} {holding : Option PendingCommand} (hopened : device ∈ openers)
    (hheld : ∀ cmd, holding = some cmd → ∀ d, cmd.madeFor = some d → d ∈ targets) :
    Within openers analysed targets (s.withStream i (some ⟨device, holding⟩)) := by
  apply h.withStream i
  · intro new hnew
    cases hnew
    exact hopened
  · intro new cmd hnew hcmd
    cases hnew
    exact hheld cmd hcmd

theorem mem_guidance {s : Central} {vlmResult device : String} {cmd : PendingCommand}
    (h : cmd ∈ guidance guide py s vlmResult device) :
    cmd.madeFor = some device ∧ device ≠ "" ∧ ¬ Silent guide py := by
  unfold guidance at h
  split at h
  next => cases h
  next hdevice =>
    obtain ⟨p, hp, rfl⟩ := List.mem_map.mp h
    refine ⟨rfl, hdevice, ?_⟩
    intro hsilent
    simp [VlmConfigGuide.applyVlmGuidance, VlmConfigGuide.guidanceCommands,
      hsilent vlmResult] at hp

namespace Within

variable {s : Central} {device : String} {cmd : PendingCommand} {i : Nat}

theorem detection (h : Within openers analysed targets s) (hdevice : device ∈ analysed) :
    Within openers analysed targets { s with vlmQueue := s.vlmQueue ++ [device] } := by
  refine { h with detected := List.forall_mem_append.mpr ⟨h.detected, ?_⟩ }
  exact List.forall_mem_singleton.mpr hdevice

theorem collect {rest : List String} (h : Within openers analysed targets s)
    (hqueue : s.vlmQueue = device :: rest) :
    Within openers analysed targets { s with vlmQueue := rest, batch := s.batch ++ [device] } := by
  have hall := hqueue ▸ h.detected
  rw [List.forall_mem_cons] at hall
  refine { h with detected := hall.2, taken := List.forall_mem_append.mpr ⟨h.taken, ?_⟩ }
  exact List.forall_mem_singleton.mpr hall.1

theorem uncollect {rest : List String} (h : Within openers analysed targets s)
    (hbatch : s.batch = device :: rest) :
    device ∈ analysed ∧ Within openers analysed targets { s with batch := rest } := by
  have hall := hbatch ▸ h.taken
  rw [List.forall_mem_cons] at hall
  exact ⟨hall.1, { h with taken := hall.2 }⟩

theorem queue {commands : List PendingCommand} (h : Within openers analysed targets s)
    (hcommands : ∀ cmd ∈ commands, ∀ d, cmd.madeFor = some d → d ∈ targets) (counter : Nat) :
    Within openers analysed targets
      { s with commandQueue := s.commandQueue ++ commands, commandIdCounter := counter } :=
  { h with queued := List.forall_mem_append.mpr ⟨h.queued, hcommands⟩ }

/-- The next command of the queue is held by a handler. -/
theorem getPendingCommand {rest : List PendingCommand} (h : Within openers analysed targets s)
    (hstream : s.streams i = some ⟨device, none⟩) (hqueue : s.commandQueue = cmd :: rest) :
    Within openers analysed targets
      { s.withStream i (some ⟨device, some cmd⟩) with commandQueue := rest } := by
  have hall := hqueue ▸ h.queued
  rw [List.forall_mem_cons] at hall
  have hopened : device ∈ openers := h.opened i ⟨device, none⟩ hstream
  have hheld : ∀ pending, some cmd = some pending → ∀ d, pending.madeFor = some d →
      d ∈ targets := by
    intro pending hpending
    cases hpending
    exact hall.1
  exact { h.withHandler i hopened hheld with queued := hall.2 }

/-- The command that a handler holds is sent. -/
theorem yieldEvent (h : Within openers analysed targets s)
    (hstream : s.streams i = some ⟨device, some cmd⟩) :
    Within openers analysed targets { s.withStream i (some ⟨device, none⟩) with
      yielded := s.yielded ++ [(device, cmd)] } := by
  have hopened : device ∈ openers := h.opened i ⟨device, some cmd⟩ hstream
  have hstep : Within openers analysed targets (s.withStream i (some ⟨device, none⟩)) :=
    h.withHandler i hopened (by simp)
  refine { hstep with yielded := List.forall_mem_append.mpr ⟨h.yielded, ?_⟩ }
  exact List.forall_mem_singleton.mpr ⟨hopened, h.held i _ cmd hstream rfl⟩

end Within

theorem step_within
    (htargets : Silent guide py ∨ ∀ d ∈ analysed, d ≠ "" → d ∈ targets)
    (s : Central) (l : CentralAct) (s' : Central) (h : Within openers analysed targets s)
    (hamong : Among openers analysed s l) (hs : step guide py s l = some s') :
    Within openers analysed targets s' := by
  cases l with
  | openStream i device =>
      simp only [step] at hs
      split at hs
      next =>
        cases hs
        exact h.withHandler i hamong (by simp)
      next => cases hs
  | detection device =>
      simp only [step] at hs
      split at hs
      next =>
        cases hs
        exact h.detection hamong
      next =>
        cases hs
        exact h
  | collect =>
      simp only [step] at hs
      split at hs
      next => cases hs
      next hqueue =>
        cases hs
        exact h.collect hqueue
  | analyse vlmResult =>
      simp only [step] at hs
      split at hs
      next => cases hs
      next device rest hbatch =>
        cases hs
        obtain ⟨hanalysed, hrest⟩ := h.uncollect hbatch
        refine hrest.queue ?_ _
        intro cmd hcmd d hd
        obtain ⟨hmade, hdevice, hloud⟩ := mem_guidance hcmd
        obtain rfl := Option.some.inj (hmade.symm.trans hd)
        exact htargets.resolve_left hloud _ hanalysed hdevice
  | analysisFails =>
      simp only [step] at hs
      split at hs
      next => cases hs
      next hbatch =>
        cases hs
        exact (h.uncollect hbatch).2
  | sendControlCommand cmd =>
      cases hs
      refine h.queue (List.forall_mem_singleton.mpr fun d hd => ?_) _
      -- it was made for no device
      cases hd
  | getPendingCommand i =>
      simp only [step] at hs
      split at hs
      next hstream hqueue =>
        cases hs
        exact h.getPendingCommand hstream hqueue
      next => cases hs
  | timeout i =>
      simp only [step] at hs
      split at hs
      next =>
        cases hs
        exact h
      next => cases hs
  | yieldEvent i =>
      simp only [step] at hs
      split at hs
      next hstream =>
        cases hs
        exact h.yieldEvent hstream
      next => cases hs
  | closeStream i =>
      simp only [step] at hs
      split at hs
      next =>
        cases hs
        exact h.withStream i (by simp) (by simp)
      next => cases hs

/-! ## Whole runs -/

theorem run_within (htargets : Silent guide py ∨ ∀ d ∈ analysed, d ≠ "" → d ∈ targets)
    {t : List (Central × CentralAct)} {s : Central} (hrun : (centralSystem guide py).Run new t s)
    (hamong : TransitionSystem.Respects (Among openers analysed) t) :
    Within openers analysed targets s :=
  hrun.invariant_of_respects (step_within htargets) within_new hamong

/-- A text with an adjustment makes a command for the device. -/
theorem exists_guidance {vlmResult : String}
    (hloud : (guide.parseVlmResult py vlmResult).adjustments ≠ []) (s : Central)
    {device : String} (hdevice : device ≠ "") :
    ∃ cmd rest, guidance guide py s vlmResult device = cmd :: rest ∧
      cmd.madeFor = some device := by
  obtain ⟨first, others, hadjustments⟩ := List.exists_cons_of_ne_nil hloud
  have happly : (guide.parseVlmResult py vlmResult).shouldApply = true := by
    change (!(guide.parseVlmResult py vlmResult).adjustments.isEmpty) = true
    rw [hadjustments]
    rfl
  unfold guidance VlmConfigGuide.applyVlmGuidance
  rw [if_neg hdevice, if_pos happly, hadjustments]
  exact ⟨_, _, rfl, rfl⟩

/-- A stream of `a` takes what guidance has made of a detection of `b`. -/
def crossing (a b vlmResult : String) : List CentralAct :=
  [.openStream 0 a, .detection b, .collect, .analyse vlmResult, .getPendingCommand 0,
    .yieldEvent 0]

theorem exec_crossing {a b vlmResult : String} (hb : b ≠ "")
    (hloud : (guide.parseVlmResult py vlmResult).adjustments ≠ []) :
    ∃ s cmd, (centralSystem guide py).exec new (crossing a b vlmResult) = some s ∧
      (a, cmd) ∈ s.yielded ∧ cmd.madeFor = some b := by
  let opened : Nat → Option StreamHandler := Function.update (fun _ => none) 0 (some ⟨a, none⟩)
  let waiting : Central := ⟨[], 0, [], [b], opened, []⟩
  obtain ⟨cmd, rest, hguidance, hmade⟩ := exists_guidance hloud waiting hb
  have hanalyse : step guide py waiting (.analyse vlmResult) =
      some { waiting with
        commandQueue := cmd :: rest
        commandIdCounter := (cmd :: rest).length
        batch := [] } := by
    simp only [step, waiting] at hguidance ⊢
    rw [hguidance]
    simp
  let taken := Function.update opened 0 (some ⟨a, some cmd⟩)
  let sent : Central := ⟨rest, rest.length + 1, [], [],
    Function.update taken 0 (some ⟨a, none⟩), [(a, cmd)]⟩
  have hexec : (centralSystem guide py).exec new (crossing a b vlmResult) = some sent := by
    change (step guide py waiting (.analyse vlmResult)).bind (fun s =>
      (centralSystem guide py).exec s [.getPendingCommand 0, .yieldEvent 0]) = some sent
    rw [hanalyse]
    rfl
  exact ⟨sent, cmd, hexec, List.mem_singleton_self _, hmade⟩

end

end Central
