-- SUMMARY: The turns that the cameras get in a run of the loop, and when each gets its share of them.
import NeuroPipeline.Edge.MultiCamera
import NeuroPipeline.Lib.RoundRobin

/-!
# Camera progress

The camera of a round is chosen by the number of the frame, and only a round that is
carried through counts as a frame. A round that is given up, because the capture, the
conversion or the inference fails, is followed by one with the same camera.
-/

namespace EdgeSystem

variable {F : Type} [CFloat F] {P : Platform F}

/-! ## The law -/

/-- The round is carried through: no step up to the inference fails. -/
def carriedThrough (s : EdgeSystem P) (f : FrameInput F) : Bool :=
  f.captured && f.processed && (s.coordinator.infer P f.outputs).isSome

/-- The camera that a step tries to take a frame from. -/
def tries (s : EdgeSystem P) : EdgeAct F → Option Nat
  | .frame _ => some (camera s.coordinator.config.sources s.frameCount)
  | _ => none

def outcome (s : EdgeSystem P) : EdgeAct F → Option Bool
  | .frame f => some (s.carriedThrough f)
  | _ => none

/-- The cameras that the rounds try, in their order. -/
def triedCameras (t : List (EdgeSystem P × EdgeAct F)) : List Nat :=
  t.filterMap fun p => p.1.tries p.2

def outcomes (t : List (EdgeSystem P × EdgeAct F)) : List Bool :=
  t.filterMap fun p => p.1.outcome p.2

/-- After `k` rounds each camera has been tried at least `k / sources` times. -/
def CamerasProgress (sources : Nat) (t : List (EdgeSystem P × EdgeAct F)) : Prop :=
  RoundRobin.Fair sources (triedCameras t)

/-- With the rounds counted off by the number of cameras, only the last of a group is
given up. -/
def GivesUpLastOnly (sources : Nat) (t : List (EdgeSystem P × EdgeAct F)) : Prop :=
  RoundRobin.Advances sources (outcomes t)

/-! ## The count of the rounds -/

theorem isSome_analyse (s : EdgeSystem P) (f : FrameInput F) :
    (s.analyse f).isSome = s.carriedThrough f := by
  unfold analyse Coordinator.analyse carriedThrough
  cases f.captured && f.processed with
  | false => rfl
  | true => simp

/-- The rounds carried through: the last may still be on its way to be counted. -/
def counted (s : EdgeSystem P) : Nat :=
  match s.pc with
  | .sending | .tail => s.frameCount + 1
  | _ => s.frameCount

theorem counted_of_out {s : EdgeSystem P} (h : s.pc ≠ .sending ∧ s.pc ≠ .tail) :
    s.counted = s.frameCount := by
  unfold counted
  split
  next hpc => exact absurd hpc h.1
  next hpc => exact absurd hpc h.2
  next => rfl

theorem counted_of_in {s : EdgeSystem P} (h : s.pc = .sending ∨ s.pc = .tail) :
    s.counted = s.frameCount + 1 := by
  rcases h with h | h <;> rw [counted, h]

theorem counted_congr {s s' : EdgeSystem P} (hcount : s'.frameCount = s.frameCount)
    (hpc : (s'.pc = .sending ∨ s'.pc = .tail) ↔ (s.pc = .sending ∨ s.pc = .tail)) :
    s'.counted = s.counted := by
  by_cases hin : s.pc = .sending ∨ s.pc = .tail
  · rw [counted_of_in hin, counted_of_in (hpc.mpr hin), hcount]
  · rw [counted_of_out (not_or.mp hin), counted_of_out (not_or.mp (mt hpc.mp hin)), hcount]

theorem frame_frameCount {s s' : EdgeSystem P} {f : FrameInput F} (h : s.frame f = some s') :
    s'.frameCount = s.frameCount := by
  unfold frame at h
  split at h
  next => cases h; rfl
  next =>
    split at h
    next => cases h; rfl
    next =>
      split at h
      next => cases h; rfl
      next =>
        obtain ⟨client, -, rfl⟩ := Option.map_eq_some_iff.mp h
        rfl

/-- The round goes on to its end exactly when it is carried through. -/
theorem frame_counted {s s' : EdgeSystem P} {f : FrameInput F} (htop : s.pc = .top)
    (h : s.frame f = some s') : s'.counted = s.frameCount + (s.carriedThrough f).toNat := by
  rw [← frame_frameCount h, ← isSome_analyse]
  cases frame_effect htop h with
  | nothing hanalyse _ _ hpc =>
      rw [hanalyse]
      apply counted_of_out
      rcases hpc with hpc | hpc <;> simp [hpc]
  | quiet a hanalyse _ _ _ hpc =>
      rw [hanalyse]
      exact counted_of_in (.inr hpc)
  | hands a result hanalyse _ _ _ hpc =>
      rw [hanalyse]
      exact counted_of_in (.inl hpc)

variable [OfNumeral F]

theorem command_frameCount (s : EdgeSystem P) (cmd : ControlCommand) (answer : EngineInit) :
    (s.command cmd answer).frameCount = s.frameCount := by
  unfold command
  split <;> rfl

theorem step_frameCount {s s' : EdgeSystem P} {l : EdgeAct F} (h : s.step l = some s')
    (hl : l ≠ .finish) : s'.frameCount = s.frameCount := by
  cases step_moves h with
  | connect _ hcall | startEventStream _ hcall | flushStream _ hcall | stopEventStream _ hcall =>
      exact (callClient_coordinator hcall).2.1
  | frame _ hframe => exact frame_frameCount hframe
  | finish => exact absurd rfl hl
  | command => exact command_frameCount s _ _
  | client | eventReaderEnds | leave | stop => rfl

/-- The rounds that an outcome adds to the count. -/
def outcomeCount (s : EdgeSystem P) (l : EdgeAct F) : Nat :=
  ((s.outcome l).map Bool.toNat).getD 0

/-- A round adds its outcome to the count and nothing else does; an exception in the
reader thread ends the count. -/
theorem step_counted {s s' : EdgeSystem P} {l : EdgeAct F} (h : s.step l = some s') :
    s'.pc = .terminated ∨ s'.counted = s.counted + s.outcomeCount l := by
  have hpc := step_pc h
  cases l with
  | frame f =>
      have hframe := (frame_of_step h).2
      refine .inr ?_
      rw [frame_counted hpc.1 hframe, counted_of_out (by simp [hpc.1])]
      rfl
  | finish =>
      refine .inr ?_
      have hcount : s'.frameCount = s.frameCount + 1 := by
        cases step_moves h
        rfl
      have hout : s'.pc ≠ .sending ∧ s'.pc ≠ .tail := by
        rcases hpc.2 with hpc | hpc <;> simp [hpc]
      rw [counted_of_out hout, counted_of_in (.inr hpc.1), hcount]
      rfl
  | connect o | startEventStream o | flushStream o | stopEventStream | leave =>
      exact .inr (counted_congr (step_frameCount h (by rintro ⟨⟩)) (by simp [hpc]))
  | client o =>
      refine .inr (counted_congr (step_frameCount h (by rintro ⟨⟩)) ?_)
      exact iff_of_true hpc.2 (.inl hpc.1)
  | eventReaderEnds =>
      refine .inr (counted_congr (step_frameCount h (by rintro ⟨⟩)) ?_)
      rw [hpc.2]
  | stop =>
      refine .inr (counted_congr (step_frameCount h (by rintro ⟨⟩)) ?_)
      rw [hpc]
  | command cmd answer =>
      rcases hpc.2 with hsame | hterminated
      · refine .inr (counted_congr (step_frameCount h (by rintro ⟨⟩)) ?_)
        rw [hsame]
      · exact .inl hterminated

theorem step_of_terminated {s s' : EdgeSystem P} {l : EdgeAct F} (hs : s.pc = .terminated) :
    s.step l ≠ some s' := by
  intro h
  cases l <;> simp [step, reading, hs] at h

variable {config : PipelineConfig F} {s₀ s : EdgeSystem P} {t : List (EdgeSystem P × EdgeAct F)}

omit [OfNumeral F] in
theorem triedCameras_snoc (t : List (EdgeSystem P × EdgeAct F)) (s : EdgeSystem P) (l : EdgeAct F) :
    triedCameras (t ++ [(s, l)]) = triedCameras t ++ (s.tries l).toList := by
  rw [triedCameras, List.filterMap_append, List.filterMap_cons]
  cases s.tries l <;> rfl

omit [OfNumeral F] in
theorem outcomes_snoc (t : List (EdgeSystem P × EdgeAct F)) (s : EdgeSystem P) (l : EdgeAct F) :
    outcomes (t ++ [(s, l)]) = outcomes t ++ (s.outcome l).toList := by
  rw [outcomes, List.filterMap_append, List.filterMap_cons]
  cases s.outcome l <;> rfl

/-- The cameras take turns by the count of the rounds that were carried through. -/
structure TakesTurns (sources : Nat) (t : List (EdgeSystem P × EdgeAct F)) (s : EdgeSystem P) :
    Prop where
  sources_eq : s.coordinator.config.sources = sources
  turns : triedCameras t = RoundRobin.turns sources 0 (outcomes t)
  counted : s.pc = .terminated ∨ s.counted = (outcomes t).count true

theorem takesTurns_step {sources : Nat} {s s' : EdgeSystem P} {l : EdgeAct F}
    (hI : TakesTurns sources t s) (h : s.step l = some s') :
    TakesTurns sources (t ++ [(s, l)]) s' := by
  have hrunning : s.pc ≠ .terminated := fun hs => step_of_terminated hs h
  have hcounted := hI.counted.resolve_left hrunning
  have hsources : s'.coordinator.config.sources = sources := by
    obtain ⟨fps, threshold, hconfig⟩ := step_config h
    rw [hconfig]
    exact hI.sources_eq
  refine ⟨hsources, ?_, ?_⟩
  · rw [triedCameras_snoc, outcomes_snoc, hI.turns, RoundRobin.turns_append, Nat.zero_add,
      ← hcounted]
    congr 1
    cases l with
    | frame f =>
        have htop : s.pc = .top := (step_pc h).1
        rw [counted_of_out (by simp [htop]), ← hI.sources_eq]
        rfl
    | _ => rfl
  · refine (step_counted h).imp_right fun hcount => ?_
    rw [hcount, hcounted, outcomes_snoc, List.count_append, outcomeCount]
    cases houtcome : s.outcome l with
    | none => rfl
    | some b => cases b <;> rfl

theorem takesTurns (h₀ : (edgeSystem P config).init s₀) (hrun : (edgeSystem P config).Run s₀ t s) :
    TakesTurns config.sources t s := by
  apply hrun.invariant_history (fun _ _ _ _ hI hs => takesTurns_step hI hs)
  obtain ⟨engineAnswer, modelAnswers, now, c, hc, rfl⟩ := h₀
  exact ⟨congrArg PipelineConfig.sources (Coordinator.initializePipeline_started hc).config, rfl,
    .inr rfl⟩

/-! ## Runs -/

/-- In every run each camera gets its share of the rounds exactly when, of as many rounds
in a row as there are cameras, only the last is given up. -/
theorem camerasProgress_iff_givesUpLastOnly (h₀ : (edgeSystem P config).init s₀)
    (hrun : (edgeSystem P config).Run s₀ t s) :
    CamerasProgress config.sources t ↔ GivesUpLastOnly config.sources t := by
  rw [CamerasProgress, (takesTurns h₀ hrun).turns]
  exact RoundRobin.fair_iff_advances config.sources 0 (outcomes t)

/-- The first camera gives no frame. -/
def firstFails : List (EdgeAct Binary32) :=
  [.connect {}, .startEventStream {}, .frame { smallFrame [] with captured := false },
    .frame { smallFrame [] with captured := false }]

/-- Two rounds, and the second camera has not been tried. -/
theorem not_camerasProgress_firstFails :
    ¬ ∀ (s₀ s : EdgeSystem (.small [])) (t : List (EdgeSystem (.small []) × EdgeAct Binary32)),
      (edgeSystem (.small []) twoCameras).init s₀ → (edgeSystem (.small []) twoCameras).Run s₀ t s →
        CamerasProgress twoCameras.sources t := by
  intro h
  have hview : ((edgeSystem (.small []) twoCameras).execTrace
      (new _ (smallCoordinator twoCameras)) firstFails).map (fun x => triedCameras x.1) =
        some [0, 0] := by
    decide +kernel
  obtain ⟨t, s, hrun, -, htried⟩ := TransitionSystem.exists_run_of_execTrace hview
  have hfair := h _ _ _ (init_small _ twoCameras rfl) hrun
  rw [CamerasProgress, show triedCameras t = [0, 0] from htried] at hfair
  exact absurd hfair (by decide)

/-- The second camera gives no frame once, and the first is tried in time. -/
def secondFails : List (EdgeAct Binary32) :=
  [.connect {}, .startEventStream {}, .frame (smallFrame []), .finish,
    .frame { smallFrame [] with captured := false }, .frame (smallFrame []), .finish,
    .frame (smallFrame [])]

theorem camerasProgress_iff_secondFails :
    ∃ t s, (edgeSystem (.small []) twoCameras).Run (new _ (smallCoordinator twoCameras)) t s ∧
      triedCameras t = [0, 1, 1, 0] ∧ GivesUpLastOnly twoCameras.sources t ∧
      (CamerasProgress twoCameras.sources t ↔ GivesUpLastOnly twoCameras.sources t) := by
  have hview : ((edgeSystem (.small []) twoCameras).execTrace
      (new _ (smallCoordinator twoCameras)) secondFails).map (fun x =>
        (triedCameras x.1, outcomes x.1)) = some ([0, 1, 1, 0], [true, false, true, true]) := by
    decide +kernel
  obtain ⟨t, s, hrun, -, hview⟩ := TransitionSystem.exists_run_of_execTrace hview
  obtain ⟨htried, houtcomes⟩ := Prod.mk.inj hview
  refine ⟨t, s, hrun, htried, ?_, camerasProgress_iff_givesUpLastOnly (init_small _ twoCameras rfl)
    hrun⟩
  rw [GivesUpLastOnly, houtcomes]
  decide

end EdgeSystem
