-- SUMMARY: From the frame to the wire: no result is discarded exactly when the link is up at every novel frame.
import NeuroPipeline.Edge.Conservation
import NeuroPipeline.Edge.LoopClient

/-!
# Store and forward

The queue that outlives an outage sits inside of `StreamDetection`, which the
loop does not call during one. The books of the client are joined to the frames
of the loop: what the client has accepted is compared with what the frames had
to report.
-/

/-! ## Filters that let through less -/

section

variable {α β : Type} {g f : α → Option β} {l : List α}

theorem filterMap_sublist_of_or (h : ∀ a ∈ l, g a = f a ∨ g a = none) :
    (l.filterMap g).Sublist (l.filterMap f) := by
  induction l with
  | nil => exact .slnil
  | cons a l ih =>
      have htail := ih fun b hb => h b (List.mem_cons_of_mem a hb)
      rw [List.filterMap_cons, List.filterMap_cons]
      rcases h a List.mem_cons_self with hsame | hnone
      · rw [hsame]
        cases f a with
        | none => exact htail
        | some b => exact htail.cons_cons b
      · rw [hnone]
        cases f a with
        | none => exact htail
        | some b => exact htail.cons b

/-- The list is the same only if everything was let through. -/
theorem filterMap_eq_iff_of_or (h : ∀ a ∈ l, g a = f a ∨ g a = none) :
    l.filterMap g = l.filterMap f ↔ ∀ a ∈ l, g a = f a := by
  constructor
  · intro heq a ha
    rcases h a ha with hsame | hnone
    · exact hsame
    · cases hf : f a with
      | none => exact hnone
      | some b =>
          -- `g` lets through less than `f` on both sides of `a`, and nothing at `a`
          obtain ⟨l₁, l₂, rfl⟩ := List.append_of_mem ha
          have h₁ := filterMap_sublist_of_or fun c hc => h c (List.mem_append_left _ hc)
          have h₂ := filterMap_sublist_of_or fun c hc =>
            h c (List.mem_append_right _ (List.mem_cons_of_mem a hc))
          have hlength := congrArg List.length heq
          simp only [List.filterMap_append, List.filterMap_cons, hnone, hf, List.length_append,
            List.length_cons] at hlength
          have hle₁ := h₁.length_le
          have hle₂ := h₂.length_le
          omega
  · intro hsame
    exact List.filterMap_congr hsame

end

namespace ClientAct

variable {R Tid : Type}

/-- The result that a call hands over. -/
def result : ClientAct R Tid → Option R
  | .streamDetection _ r => some r
  | _ => none

end ClientAct

namespace ClientSystem

variable {R Tid : Type} [DecidableEq Tid] {codec : Codec R}

theorem step_accepted {s s' : ClientSystem codec Tid} {l : ClientAct R Tid}
    (h : s.step l = some s') : s'.accepted = s.accepted ++ l.result.toList := by
  cases l with
  | streamDetection t r => exact (step_call h).2.2.1
  | run t o =>
      obtain ⟨_, -, haccepted, -⟩ := runThread_effect h
      simpa [ClientAct.result] using haccepted
  | connect _ | disconnect | flushStream _ | startEventStream _ | eventReaderEnds
  | stopEventStream =>
      obtain ⟨-, haccepted, -, -⟩ := step_other (by simp) (by simp) h
      simpa [ClientAct.result] using haccepted

end ClientSystem

namespace EdgeSystem

variable {F : Type} [CFloat F] {P : Platform F}

/-- The results of the frames with a novel detection. -/
def reported (t : List (EdgeSystem P × EdgeAct F)) : List (DetectionResult F) :=
  t.filterMap fun p => p.1.reports p.2

/-- Every result was handed to the client, and the client has lost none of them:
each is written, queued, in the hands of the call under way, or counted as
dropped. -/
def Forwarded (t : List (EdgeSystem P × EdgeAct F)) (s : EdgeSystem P) : Prop :=
  s.client.accepted = reported t ∧ s.client.Conserved

/-- The step about to be taken discards nothing: a frame with something to report
finds the link up, and what the client enqueues can be serialized. -/
def Forwards (s : EdgeSystem P) : EdgeAct F → Prop
  | .frame f => s.novelResult f ≠ none → s.client.client.connected = true
  | .client _ => ∀ r, (s.client.threads ()).enqueues = some r → P.codec.serializeToString r ≠ none
  | _ => True

/-! ## One step -/

theorem clientAct_result (s : EdgeSystem P) (l : EdgeAct F) :
    (s.clientAct l).bind ClientAct.result = s.hands l := by
  cases l with
  | frame f =>
      simp only [clientAct, hands]
      cases s.handedResult f <;> rfl
  | connect o | startEventStream o | flushStream o | stopEventStream =>
      simp only [clientAct, hands]
      split <;> rfl
  | client o | eventReaderEnds | finish | leave | command _ _ | stop => rfl

/-- The loop sends every result it may send. -/
structure Sending (s : EdgeSystem P) : Prop where
  loop : s.Loop
  grpcEnabled : s.coordinator.config.grpcEnabled = true
  frameSkipInterval : s.coordinator.config.frameSkipInterval = 0

theorem Sending.handedResult {s : EdgeSystem P} (h : s.Sending) (f : FrameInput F) :
    s.handedResult f = if s.client.client.connected then s.novelResult f else none := by
  simp [EdgeSystem.handedResult, linkUp, Coordinator.shouldSend, h.grpcEnabled, h.frameSkipInterval]

theorem Sending.hands_or {s : EdgeSystem P} (h : s.Sending) (l : EdgeAct F) :
    s.hands l = s.reports l ∨ s.hands l = none := by
  cases l with
  | frame f =>
      simp only [hands, reports, h.handedResult f]
      split
      · exact .inl rfl
      · exact .inr rfl
  | _ => exact .inl rfl

/-- A step discards nothing exactly when it hands on what it has to report and
the client keeps it. -/
theorem Sending.forwards_iff {s : EdgeSystem P} (h : s.Sending) (l : EdgeAct F) :
    s.Forwards l ↔
      s.hands l = s.reports l ∧ ∀ act, s.clientAct l = some act → s.client.Keeps act := by
  have hlive : (s.client.threads ()).rechecks = true →
      s.client.client.detectionStream.live = true := by
    intro hrechecks
    apply h.loop.attended.live
    exact Pc.afterWrite_of_rechecks hrechecks
  cases l with
  | frame f =>
      have hkeeps : ∀ act, s.clientAct (.frame f) = some act → s.client.Keeps act := by
        intro act hact
        obtain ⟨r, -, rfl⟩ := Option.map_eq_some_iff.mp hact
        trivial
      simp only [Forwards, hands, reports, h.handedResult f]
      constructor
      · intro hup
        refine ⟨?_, hkeeps⟩
        cases hnovel : s.novelResult f with
        | none => simp
        | some r => simp [hup (by simp [hnovel])]
      · rintro ⟨hsame, -⟩ hnovel
        by_contra hdown
        rw [if_neg hdown] at hsame
        exact hnovel hsame.symm
  | client o =>
      constructor
      · intro hser
        refine ⟨rfl, ?_⟩
        intro act hact
        cases hact
        exact ⟨hser, hlive⟩
      · rintro ⟨-, hkeeps⟩
        exact (hkeeps _ rfl).1
  | connect o | startEventStream o | flushStream o | stopEventStream =>
      refine ⟨fun _ => ⟨rfl, ?_⟩, fun _ => trivial⟩
      intro act hact
      simp only [clientAct] at hact
      split at hact
      · cases hact
        trivial
      · cases hact
  | eventReaderEnds =>
      refine ⟨fun _ => ⟨rfl, ?_⟩, fun _ => trivial⟩
      intro act hact
      cases hact
      trivial
  | finish | leave | command _ _ | stop =>
      refine ⟨fun _ => ⟨rfl, ?_⟩, fun _ => trivial⟩
      intro act hact
      cases hact

variable [OfNumeral F]

theorem step_hands {s s' : EdgeSystem P} {l : EdgeAct F} (h : s.step l = some s') :
    s'.client.accepted = s.client.accepted ++ (s.hands l).toList := by
  rw [← clientAct_result]
  rcases step_client_cases h with ⟨hact, hsame⟩ | ⟨act, hact, hstep⟩
  · simp [hact, hsame]
  · rw [hact]
    exact ClientSystem.step_accepted hstep

theorem step_sending (s : EdgeSystem P) (l : EdgeAct F) (s' : EdgeSystem P) (h : s.Sending)
    (hs : s.step l = some s') : s'.Sending := by
  obtain ⟨fps, threshold, hconfig⟩ := step_config hs
  refine ⟨(step_loop h.loop hs).1, ?_, ?_⟩
  · rw [hconfig]
    exact h.grpcEnabled
  · rw [hconfig]
    exact h.frameSkipInterval

/-! ## Whole runs -/

theorem init_sending {config : PipelineConfig F} (hgrpc : config.grpcEnabled = true)
    (hskip : config.frameSkipInterval = 0) {s : EdgeSystem P}
    (h : (edgeSystem P config).init s) : s.Sending := by
  obtain ⟨engineAnswer, modelAnswers, now, c, hc, rfl⟩ := h
  have hconfig := (Coordinator.initializePipeline_started hc).config
  exact ⟨loop_new P c, hconfig ▸ hgrpc, hconfig ▸ hskip⟩

/-- What the client has accepted is what the frames handed over. -/
theorem run_accepted {config : PipelineConfig F} {s₀ s : EdgeSystem P}
    {t : List (EdgeSystem P × EdgeAct F)} (h₀ : (edgeSystem P config).init s₀)
    (hrun : (edgeSystem P config).Run s₀ t s) :
    s.client.accepted = t.filterMap fun p => p.1.hands p.2 := by
  induction hrun with
  | nil =>
      obtain ⟨_, _, _, c, -, rfl⟩ := h₀
      rfl
  | @snoc t s₁ s₂ l _ hs ih =>
      rw [step_hands hs, ih, List.filterMap_append]
      cases hhands : s₁.hands l with
      | none => simp [hhands]
      | some result => simp [hhands]

/-- The client loses nothing exactly when every step of the loop lets it keep its results. -/
theorem run_conserved {config : PipelineConfig F} {s₀ s : EdgeSystem P}
    {t : List (EdgeSystem P × EdgeAct F)} (h₀ : (edgeSystem P config).init s₀)
    (hrun : (edgeSystem P config).Run s₀ t s) :
    s.client.Conserved ↔ TransitionSystem.Respects
      (fun s l => ∀ act, s.clientAct l = some act → s.client.Keeps act) t := by
  obtain ⟨_, _, _, c, -, rfl⟩ := h₀
  have hclient := hrun.project (projects P config { cacheQueue := c.config.cacheQueue })
  obtain ⟨evicted, lost, hbal, hdropped, hkeeps⟩ := ClientSystem.run_books hclient
  rw [ClientSystem.conserved_iff_card_lost hbal hdropped, ← hkeeps,
    TransitionSystem.respects_projectTrace]

/-- No result of a frame is discarded exactly in the runs in which the link is up
whenever a frame has something to report. -/
theorem forwarded_iff_forwards {config : PipelineConfig F} (hgrpc : config.grpcEnabled = true)
    (hskip : config.frameSkipInterval = 0) {s₀ s : EdgeSystem P}
    {t : List (EdgeSystem P × EdgeAct F)} (h₀ : (edgeSystem P config).init s₀)
    (hrun : (edgeSystem P config).Run s₀ t s) :
    Forwarded t s ↔ TransitionSystem.Respects Forwards t := by
  have hsending := init_sending hgrpc hskip h₀
  have hor : ∀ p ∈ t, p.1.hands p.2 = p.1.reports p.2 ∨ p.1.hands p.2 = none := by
    intro p hp
    exact (hrun.invariant_trace step_sending hsending p hp).hands_or p.2
  rw [Forwarded, run_accepted h₀ hrun, reported, filterMap_eq_iff_of_or hor, run_conserved h₀ hrun,
    hrun.respects_congr step_sending (fun s l _ h _ => h.forwards_iff l) hsending,
    TransitionSystem.respects_and]
  rfl

/-! ## A frame during an outage -/

/-- The result of a first frame that shows a person. -/
def personResult : DetectionResult Binary32 :=
  (smallCoordinator smallConfig).buildResult 0 (smallFrame [(0, 0, 3 / 4)])
    (((smallCoordinator smallConfig).infer (.small []) (smallFrame [(0, 0, 3 / 4)]).outputs).getD [])
    []

/-- The write of the first result fails; the next frame shows a bicycle. -/
def outage : List (EdgeAct Binary32) :=
  [.connect {}, .startEventStream {},
    .frame (smallFrame [(0, 0, 3 / 4)]), .client { writeOk := false }, .client {}, .finish,
    .frame (smallFrame [(0, 1, 3 / 4)]), .finish]

/-- Two frames have a result to report; the client is given the first one only. -/
theorem run_outage :
    ∃ t s, (edgeSystem (.small [personResult]) smallConfig).Run
        (new _ (smallCoordinator smallConfig)) t s ∧
      t.map Prod.snd = outage ∧ s.client.accepted.length = 1 ∧ (reported t).length = 2 := by
  have hview : ((edgeSystem (.small [personResult]) smallConfig).execTrace
      (new _ (smallCoordinator smallConfig)) outage).map (fun r =>
        (r.2.client.accepted.length, (reported r.1).length)) = some (1, 2) := by decide +kernel
  obtain ⟨t, s, hrun, hlabels, hlengths⟩ := TransitionSystem.exists_run_of_execTrace hview
  obtain ⟨haccepted, hreported⟩ := Prod.mk.inj hlengths
  exact ⟨t, s, hrun, hlabels, haccepted, hreported⟩

theorem not_forwarded_outage :
    ∃ s₀ t s, (edgeSystem (.small [personResult]) smallConfig).init s₀ ∧
      (edgeSystem (.small [personResult]) smallConfig).Run s₀ t s ∧
      t.map Prod.snd = outage ∧ ¬ Forwarded t s := by
  obtain ⟨t, s, hrun, hlabels, haccepted, hreported⟩ := run_outage
  refine ⟨_, t, s, init_small _ smallConfig rfl, hrun, hlabels, ?_⟩
  rintro ⟨hsame, -⟩
  have hlength := congrArg List.length hsame
  omega

theorem forwarded_iff_forwards_outage :
    ∃ s₀ t s, ((edgeSystem (.small [personResult]) smallConfig).init s₀ ∧
      (edgeSystem (.small [personResult]) smallConfig).Run s₀ t s ∧ t.map Prod.snd = outage) ∧
      (Forwarded t s ↔ TransitionSystem.Respects Forwards t) := by
  obtain ⟨t, s, hrun, hlabels, -⟩ := run_outage
  have hinit := init_small (.small [personResult]) smallConfig rfl
  exact ⟨_, t, s, ⟨hinit, hrun, hlabels⟩, forwarded_iff_forwards rfl rfl hinit hrun⟩

end EdgeSystem
