-- SUMMARY: The command channel: every connection that the loop has made had its event stream started.
import NeuroPipeline.Edge.LoopClient

/-!
# The event stream of a connection

The event stream is started at one place, before the loop. Inside of the loop the
client never connects again, so the one connection there can be is the one that
the event stream was started on.
-/

namespace GrpcClient

variable {R : Type} {codec : Codec R}

/-- The part of the client that belongs to the event stream. -/
def commandChannel (c : GrpcClient codec) : Option ChannelId × Bool × Bool :=
  (c.eventStream, c.eventStreamActive, c.readerJoinable)

theorem connect_commandChannel (c : GrpcClient codec) (o : Outcome) :
    (c.connect o).1.commandChannel = c.commandChannel := by
  unfold connect establish createChannel
  split
  · rfl
  · cases o.channelCreated with
    | false => rfl
    | true =>
        simp only [if_true]
        split
        · rfl
        · split <;> rfl

theorem flushStream_commandChannel (c : GrpcClient codec) (o : Outcome) :
    (c.flushStream o).1.commandChannel = c.commandChannel := by
  unfold flushStream
  split
  · split <;> rfl
  · rfl

theorem disconnect_commandChannel (c : GrpcClient codec) :
    c.disconnect.commandChannel = c.commandChannel := by
  have hclose : c.closeStream.commandChannel = c.commandChannel := by
    unfold closeStream
    split <;> rfl
  rw [← hclose]
  simp only [disconnect]
  split <;> rfl

/-- The first event stream of a connected client. -/
theorem startEventStream_live {c c' : GrpcClient codec} {o : Outcome} {ok : Bool}
    (h : c.startEventStream o = some (c', ok)) (hconnected : c.connected = true)
    (hstub : c.stub.isSome = true) (hidle : c.eventStreamActive = false)
    (hopened : o.eventStreamOpened = true) :
    c'.eventStreamActive = true ∧ c'.eventStream = c.stub := by
  have hsome : c.stub.isNone = false := by
    rw [Option.isNone_eq_false_iff]
    exact hstub
  simp only [startEventStream, hconnected, hsome, hidle, hopened, Bool.not_true, Bool.or_self,
    Bool.false_eq_true, if_false] at h
  split at h
  · cases h
  · obtain ⟨rfl, -⟩ := Prod.mk.inj (Option.some.inj h)
    exact ⟨rfl, rfl⟩

end GrpcClient

namespace ClientAct

variable {R Tid : Type}

/-- The calls that the event stream is about. -/
def onEventStream : ClientAct R Tid → Bool
  | .startEventStream _ | .eventReaderEnds | .stopEventStream => true
  | _ => false

end ClientAct

namespace ClientSystem

variable {R : Type} {codec : Codec R}

theorem step_commandChannel {s s' : ClientSystem codec Unit} {l : ClientAct R Unit}
    (h : s.Attended) (hs : s.step l = some s') (hother : l.onEventStream = false) :
    s'.client.commandChannel = s.client.commandChannel := by
  cases l with
  | streamDetection t r => rw [(step_call hs).2.2.2.2]
  | run t o =>
      have hsame := (runThread_attended h hs).2
      simp only [GrpcClient.commandChannel, hsame.eventStream, hsame.eventStreamActive,
        hsame.readerJoinable]
  | connect o =>
      simp only [step] at hs
      split at hs
      · cases hs
      · cases hs
        exact GrpcClient.connect_commandChannel s.client o
  | disconnect =>
      simp only [step] at hs
      split at hs
      · cases hs
      · cases hs
        exact GrpcClient.disconnect_commandChannel s.client
  | flushStream o =>
      simp only [step] at hs
      split at hs
      · cases hs
      · cases hs
        exact GrpcClient.flushStream_commandChannel s.client o
  | startEventStream o | eventReaderEnds | stopEventStream => cases hother

end ClientSystem

/-! ## What is said of a run -/

namespace EdgeAct

variable {F : Type}

/-- The server keeps the event stream open. -/
def Undisturbed : EdgeAct F → Prop
  | .startEventStream o => o.eventStreamOpened = true
  | .eventReaderEnds => False
  | _ => True

end EdgeAct

namespace EdgeSystem

variable {F : Type} [CFloat F] {P : Platform F}

/-- The client becomes connected. -/
def Connects (s s' : EdgeSystem P) : Prop :=
  s.client.client.connected = false ∧ s'.client.client.connected = true

/-- `StartEventStream` was called while the client was connected on that channel. -/
def StartedOn (t : List (EdgeSystem P × EdgeAct F)) (ch : ChannelId) : Prop :=
  ∃ p ∈ t, (∃ o, p.2 = .startEventStream o) ∧ p.1.linkUp = true ∧ p.1.client.client.stub = some ch

/-- The client is connected, or was. -/
def HasConnected (t : List (EdgeSystem P × EdgeAct F)) (s : EdgeSystem P) : Prop :=
  s.client.client.connected = true ∨ ∃ p ∈ t, p.1.client.client.connected = true

/-- Commands are read from the channel, and events are written to it. -/
def LiveOn (s : EdgeSystem P) (ch : ChannelId) : Prop :=
  s.reading = true ∧ s.client.client.eventStream = some ch ∧
    ∀ o, s.client.client.sendEdgeEvent o = o.writeOk

/-- Before the event stream is started. -/
def Early (s : EdgeSystem P) : Prop := s.pc = .starting ∨ s.pc = .starts

/-- Before the event stream is stopped, and after it was started. -/
def RunPc.inLoop : RunPc → Bool
  | .top | .sending | .tail | .leaving | .flushed => true
  | .starting | .starts | .stopped | .terminated => false

theorem StartedOn.snoc {t : List (EdgeSystem P × EdgeAct F)} {ch : ChannelId} (h : StartedOn t ch)
    (p : EdgeSystem P × EdgeAct F) : StartedOn (t ++ [p]) ch := by
  obtain ⟨q, hq, hstart⟩ := h
  exact ⟨q, List.mem_append_left _ hq, hstart⟩

theorem hasConnected_snoc {t : List (EdgeSystem P × EdgeAct F)} {s s' : EdgeSystem P}
    {l : EdgeAct F} :
    HasConnected (t ++ [(s, l)]) s' ↔
      s'.client.client.connected = true ∨ HasConnected t s := by
  constructor
  · rintro (hnow | ⟨p, hp, hpast⟩)
    · exact .inl hnow
    · rcases List.mem_append.mp hp with hp | hp
      · exact .inr (.inr ⟨p, hp, hpast⟩)
      · rw [List.mem_singleton.mp hp] at hpast
        exact .inr (.inl hpast)
  · rintro (hnow | hnow | ⟨p, hp, hpast⟩)
    · exact .inl hnow
    · exact .inr ⟨(s, l), List.mem_append_right _ (List.mem_singleton_self _), hnow⟩
    · exact .inr ⟨p, List.mem_append_left _ hp, hpast⟩

/-- What holds after the steps `t`. -/
structure Served (t : List (EdgeSystem P × EdgeAct F)) (s : EdgeSystem P) : Prop where
  loop : s.Loop
  grpcEnabled : s.coordinator.config.grpcEnabled = true
  idle : s.Early → s.client.written = [] ∧ s.client.client.eventStreamActive = false
  held : s.Early → HasConnected t s → s.client.client.connected = true
  delivered : s.pc = .sending ∨ s.client.written ≠ [] → HasConnected t s
  started : ¬ s.Early → HasConnected t s → ∃ ch, s.client.client.stub = some ch ∧ StartedOn t ch
  live : RunPc.inLoop s.pc = true → HasConnected t s →
    TransitionSystem.Respects (fun _ l => l.Undisturbed) t →
    s.client.client.eventStreamActive = true ∧
      s.client.client.eventStream = s.client.client.stub

theorem served_new {c : Coordinator F} (hgrpc : c.config.grpcEnabled = true) :
    Served [] (new P c) where
  loop := loop_new P c
  grpcEnabled := hgrpc
  idle _ := ⟨rfl, rfl⟩
  held _ h := by
    rcases h with hnow | ⟨p, hp, -⟩
    · exact hnow
    · cases hp
  delivered h := by
    rcases h with hsending | hwritten
    · cases hsending
    · exact absurd rfl hwritten
  started h := absurd (.inl rfl) h
  live h := by cases h

variable [OfNumeral F]

/-! ## One step -/

theorem step_written {s s' : EdgeSystem P} {l : EdgeAct F} (h : s.step l = some s')
    (hclient : ∀ o, l ≠ .client o) : s'.client.written = s.client.written := by
  rcases step_client_cases h with ⟨-, hsame⟩ | ⟨act, hact, hstep⟩
  · rw [hsame]
  · cases act with
    | streamDetection t r => exact (ClientSystem.step_call hstep).2.2.2.1
    | run t o =>
        cases l with
        | client o => exact absurd rfl (hclient o)
        | frame f =>
            simp only [clientAct, Option.map_eq_some_iff] at hact
            obtain ⟨_, -, hact⟩ := hact
            cases hact
        | connect o | startEventStream o | flushStream o | stopEventStream =>
            simp only [clientAct] at hact
            split at hact <;> cases hact
        | eventReaderEnds | finish | leave | command _ _ | stop => cases hact
    | connect _ | disconnect | flushStream _ | startEventStream _ | eventReaderEnds
    | stopEventStream => exact (ClientSystem.step_other (by simp) (by simp) hstep).2.2.1

theorem step_commandChannel {s s' : EdgeSystem P} {l : EdgeAct F} (hloop : s.Loop)
    (h : s.step l = some s') (hstart : ∀ o, l ≠ .startEventStream o)
    (hreader : l ≠ .eventReaderEnds) (hstop : l ≠ .stopEventStream) :
    s'.client.client.commandChannel = s.client.client.commandChannel := by
  rcases step_client_cases h with ⟨-, hsame⟩ | ⟨act, hact, hstep⟩
  · rw [hsame]
  · apply ClientSystem.step_commandChannel hloop.attended hstep
    cases l with
    | startEventStream o => exact absurd rfl (hstart o)
    | eventReaderEnds => exact absurd rfl hreader
    | stopEventStream => exact absurd rfl hstop
    | frame f =>
        simp only [clientAct, Option.map_eq_some_iff] at hact
        obtain ⟨_, -, rfl⟩ := hact
        rfl
    | connect o | flushStream o =>
        simp only [clientAct] at hact
        split at hact
        · cases hact
          rfl
        · cases hact
    | client o =>
        cases hact
        rfl
    | finish | leave | command _ _ | stop => cases hact

/-- Before the event stream is started nothing happens but that `Stop` is called. -/
theorem step_early {s s' : EdgeSystem P} {l : EdgeAct F} (h : s.step l = some s')
    (hearly : s.Early) (hidle : s.client.client.eventStreamActive = false) :
    (∃ o, l = .connect o) ∨ (∃ o, l = .startEventStream o) ∨ l = .stop := by
  have hpc := step_pc h
  have hreading : s.reading = false := by simp [reading, hidle]
  cases l with
  | connect o => exact .inl ⟨o, rfl⟩
  | startEventStream o => exact .inr (.inl ⟨o, rfl⟩)
  | stop => exact .inr (.inr rfl)
  | command cmd answer => simp [hreading] at hpc
  | eventReaderEnds => simp [hreading] at hpc
  | frame f | client o | finish | leave | flushStream o | stopEventStream =>
      rcases hearly with hearly | hearly
      all_goals
        have hwas := hpc.1
        rw [hearly] at hwas
        cases hwas

/-- What is started stays so. -/
theorem step_late {s s' : EdgeSystem P} {l : EdgeAct F} (h : s.step l = some s')
    (hlate : ¬ s.Early) : ¬ s'.Early ∧ (∀ o, l ≠ .connect o) ∧ (∀ o, l ≠ .startEventStream o) := by
  have hpc := step_pc h
  unfold Early at hlate ⊢
  cases l with
  | connect o => exact absurd (.inl hpc.1) hlate
  | startEventStream o => exact absurd (.inr hpc.1) hlate
  | stop =>
      simp only at hpc
      rw [hpc]
      exact ⟨hlate, by simp, by simp⟩
  | command cmd answer =>
      rcases hpc.2 with hsame | hended
      · rw [hsame]
        exact ⟨hlate, by simp, by simp⟩
      · simp [hended]
  | eventReaderEnds =>
      rw [hpc.2]
      exact ⟨hlate, by simp, by simp⟩
  | frame f => rcases hpc.2 with h | h | h | ⟨h, -⟩ <;> simp [h]
  | client o | finish => rcases hpc.2 with h | h <;> simp [h]
  | leave | flushStream o | stopEventStream => simp [hpc.2]

theorem step_pc_ne_starting {s s' : EdgeSystem P} {l : EdgeAct F} (h : s.step l = some s')
    (hne : s.pc ≠ .starting) : s'.pc ≠ .starting := by
  by_cases hstarts : s.pc = .starts
  · have hpc := step_pc h
    cases l with
    | stop => exact hpc ▸ hne
    | command cmd answer =>
        rcases hpc.2 with hpc' | hpc'
        · exact hpc' ▸ hne
        · simp [hpc']
    | eventReaderEnds => exact hpc.2 ▸ hne
    | startEventStream o => simp [hpc.2]
    | connect o | frame f | client o | finish | leave | flushStream o | stopEventStream =>
        have hwas := hpc.1
        rw [hstarts] at hwas
        cases hwas
  · intro hstarting
    have hlate : ¬ s.Early := fun hearly => hearly.elim hne hstarts
    exact (step_late h hlate).1 (.inl hstarting)

/-- The loop waits for a call if it did before, or if the link was up. -/
theorem sending_or_linkUp {s s' : EdgeSystem P} {l : EdgeAct F} (h : s.step l = some s')
    (hsending : s'.pc = .sending) : s.pc = .sending ∨ s.linkUp = true := by
  have hpc := step_pc h
  cases l with
  | frame f =>
      rcases hpc.2 with hpc' | hpc' | hpc' | ⟨-, hup⟩
      · simp [hpc'] at hsending
      · simp [hpc'] at hsending
      · simp [hpc'] at hsending
      · exact .inr hup
  | client o => exact .inl hpc.1
  | finish => rcases hpc.2 with hpc' | hpc' <;> simp [hpc'] at hsending
  | command cmd answer =>
      rcases hpc.2 with hpc' | hpc'
      · exact .inl (hpc' ▸ hsending)
      · simp [hpc'] at hsending
  | connect o | startEventStream o | leave | flushStream o | stopEventStream =>
      simp [hpc.2] at hsending
  | eventReaderEnds => exact .inl (hpc.2 ▸ hsending)
  | stop => exact .inl (hpc ▸ hsending)

/-- Only the start of the event stream leads into the loop. -/
theorem step_inLoop {s s' : EdgeSystem P} {l : EdgeAct F} (h : s.step l = some s')
    (hstart : ∀ o, l ≠ .startEventStream o) (hin : RunPc.inLoop s'.pc = true) :
    RunPc.inLoop s.pc = true := by
  have hpc := step_pc h
  cases l with
  | frame f | client o | finish | leave | flushStream o =>
      rw [hpc.1]
      rfl
  | startEventStream o => exact absurd rfl (hstart o)
  | connect o | stopEventStream =>
      rw [hpc.2] at hin
      cases hin
  | command cmd answer =>
      rcases hpc.2 with hpc' | hpc'
      · exact hpc' ▸ hin
      · rw [hpc'] at hin
        cases hin
  | eventReaderEnds => exact hpc.2 ▸ hin
  | stop => exact hpc ▸ hin

/-- The first connect. -/
theorem served_connect {t : List (EdgeSystem P × EdgeAct F)} {s s' : EdgeSystem P} {o : Outcome}
    (h : Served t s) (hs : s.step (.connect o) = some s') : Served (t ++ [(s, .connect o)]) s' := by
  obtain ⟨hpc, hpc'⟩ := step_pc hs
  obtain ⟨hwritten, hactive⟩ := h.idle (.inl hpc)
  have hwritten' := step_written hs (by simp)
  have hchannel := step_commandChannel h.loop hs (by simp) (by simp) (by simp)
  obtain ⟨_, _, hconfig⟩ := step_config hs
  have hunconnected : ¬ HasConnected t s := by
    intro hconnected
    have hnow := h.held (.inl hpc) hconnected
    rw [(h.loop.fresh hpc).1] at hnow
    cases hnow
  refine ⟨(step_loop h.loop hs).1, ?_, ?_, ?_, ?_, ?_, ?_⟩
  · rw [hconfig]
    exact h.grpcEnabled
  · intro _
    have hsame := congrArg (fun channel => channel.2.1) hchannel
    exact ⟨hwritten'.trans hwritten, hsame.trans hactive⟩
  · intro _ hconnected
    rcases hasConnected_snoc.mp hconnected with hnow | hpast
    · exact hnow
    · exact absurd hpast hunconnected
  · rintro (hsending | hsome)
    · rw [hpc'] at hsending
      cases hsending
    · exact absurd (hwritten'.trans hwritten) hsome
  · intro hlate
    exact absurd (.inr hpc') hlate
  · intro hin
    rw [hpc'] at hin
    cases hin

/-- The event stream is started on the connection there is. -/
theorem served_startEventStream {t : List (EdgeSystem P × EdgeAct F)} {s s' : EdgeSystem P}
    {o : Outcome} (h : Served t s) (hs : s.step (.startEventStream o) = some s') :
    Served (t ++ [(s, .startEventStream o)]) s' := by
  obtain ⟨hpc, hpc'⟩ := step_pc hs
  obtain ⟨hwritten, hactive⟩ := h.idle (.inr hpc)
  have hwritten' := step_written hs (by simp)
  obtain ⟨_, _, hconfig⟩ := step_config hs
  obtain ⟨hloop, hkeeps⟩ := step_loop h.loop hs
  obtain ⟨hstub, hconnected⟩ := hkeeps (by simp)
  have hpast : HasConnected (t ++ [(s, .startEventStream o)]) s' →
      s.client.client.connected = true := by
    intro hever
    rcases hasConnected_snoc.mp hever with hnow | hpast
    · exact hconnected hnow
    · exact h.held (.inr hpc) hpast
  have hup : s.client.client.connected = true → s.linkUp = true := by
    intro hnow
    rw [linkUp, h.grpcEnabled, hnow]
    rfl
  refine ⟨hloop, ?_, ?_, ?_, ?_, ?_, ?_⟩
  · rw [hconfig]
    exact h.grpcEnabled
  · rintro (hearly | hearly) <;> simp [hpc'] at hearly
  · rintro (hearly | hearly) <;> simp [hpc'] at hearly
  · rintro (hsending | hsome)
    · rw [hpc'] at hsending
      cases hsending
    · exact absurd (hwritten'.trans hwritten) hsome
  · intro _ hever
    have hnow := hpast hever
    obtain ⟨ch, hch⟩ := Option.isSome_iff_exists.mp (h.loop.attended.stub hnow)
    refine ⟨ch, hstub.trans hch, (s, .startEventStream o), ?_, ⟨o, rfl⟩, hup hnow, hch⟩
    exact List.mem_append_right _ (List.mem_singleton_self _)
  · intro _ hever hundisturbed
    have hnow := hpast hever
    have hopened : o.eventStreamOpened = true := (TransitionSystem.respects_snoc.mp hundisturbed).2
    have hstep := step_client hs
    simp only [clientAct, hup hnow, if_true] at hstep
    simp only [ClientSystem.step] at hstep
    split at hstep
    · cases hstep
    · obtain ⟨⟨c, ok⟩, hstart, hclient⟩ := Option.map_eq_some_iff.mp hstep
      have hlive := GrpcClient.startEventStream_live hstart hnow (h.loop.attended.stub hnow)
        hactive hopened
      rw [hstub, ← hclient]
      exact hlive

/-- A step inside of the loop. -/
theorem served_late {t : List (EdgeSystem P × EdgeAct F)} {s s' : EdgeSystem P} {l : EdgeAct F}
    (h : Served t s) (hs : s.step l = some s') (hlate : ¬ s.Early) : Served (t ++ [(s, l)]) s' := by
  obtain ⟨hlate', hconnect, hstart⟩ := step_late hs hlate
  obtain ⟨_, _, hconfig⟩ := step_config hs
  obtain ⟨hloop, hkeeps⟩ := step_loop h.loop hs
  obtain ⟨hstub, hconnected⟩ := hkeeps hconnect
  have hpc := step_pc hs
  have hpast : HasConnected (t ++ [(s, l)]) s' → HasConnected t s := by
    intro hever
    rcases hasConnected_snoc.mp hever with hnow | hpast
    · exact .inl (hconnected hnow)
    · exact hpast
  refine ⟨hloop, ?_, fun hearly => absurd hearly hlate', fun hearly => absurd hearly hlate', ?_, ?_,
    ?_⟩
  · rw [hconfig]
    exact h.grpcEnabled
  · intro hdelivered
    apply hasConnected_snoc.mpr
    right
    -- a result is written only inside of a call, and a call begins while the link is up
    by_cases hclient : ∃ o, l = .client o
    · obtain ⟨o, rfl⟩ := hclient
      exact h.delivered (.inl hpc.1)
    · rcases hdelivered with hsending | hwritten
      · rcases sending_or_linkUp hs hsending with hsending' | hup
        · exact h.delivered (.inl hsending')
        · exact .inl (connected_of_linkUp hup)
      · rw [step_written hs (fun o hl => hclient ⟨o, hl⟩)] at hwritten
        exact h.delivered (.inr hwritten)
  · intro _ hever
    obtain ⟨ch, hch, hstarted⟩ := h.started hlate (hpast hever)
    exact ⟨ch, hstub.trans hch, hstarted.snoc _⟩
  · intro hin hever hundisturbed
    obtain ⟨hbefore, hnow⟩ := TransitionSystem.respects_snoc.mp hundisturbed
    have hreader : l ≠ .eventReaderEnds := by
      rintro rfl
      exact hnow
    have hstop : l ≠ .stopEventStream := by
      rintro rfl
      rw [hpc.2] at hin
      cases hin
    have hlive := h.live (step_inLoop hs hstart hin) (hpast hever) hbefore
    have hchannel := step_commandChannel h.loop hs hstart hreader hstop
    simp only [GrpcClient.commandChannel, Prod.mk.injEq] at hchannel
    rw [hchannel.1, hchannel.2.1, hstub]
    exact hlive

/-- `Stop` is called before the event stream is started. -/
theorem served_stop {t : List (EdgeSystem P × EdgeAct F)} {s s' : EdgeSystem P}
    (h : Served t s) (hs : s.step .stop = some s') (hearly : s.Early) :
    Served (t ++ [(s, .stop)]) s' := by
  have hpc : s'.pc = s.pc := step_pc hs
  have hclient : s'.client = s.client := step_client hs
  obtain ⟨_, _, hconfig⟩ := step_config hs
  have hearly' : s'.Early := by
    rw [Early, hpc]
    exact hearly
  obtain ⟨hwritten, hactive⟩ := h.idle hearly
  refine ⟨(step_loop h.loop hs).1, ?_, ?_, ?_, ?_, fun hlate => absurd hearly' hlate, ?_⟩
  · rw [hconfig]
    exact h.grpcEnabled
  · intro _
    rw [hclient]
    exact ⟨hwritten, hactive⟩
  · intro _ hever
    rw [hclient]
    rcases hasConnected_snoc.mp hever with hnow | hpast
    · exact hclient ▸ hnow
    · exact h.held hearly hpast
  · rw [hpc, hclient]
    intro hdelivered
    exact hasConnected_snoc.mpr (.inr (h.delivered hdelivered))
  · intro hin
    rcases hearly' with hpc' | hpc'
    all_goals
      rw [hpc'] at hin
      cases hin

theorem served_step {t : List (EdgeSystem P × EdgeAct F)} {s s' : EdgeSystem P} {l : EdgeAct F}
    (h : Served t s) (hs : s.step l = some s') : Served (t ++ [(s, l)]) s' := by
  by_cases hearly : s.Early
  · rcases step_early hs hearly (h.idle hearly).2 with ⟨o, rfl⟩ | ⟨o, rfl⟩ | rfl
    · exact served_connect h hs
    · exact served_startEventStream h hs
    · exact served_stop h hs hearly
  · exact served_late h hs hearly

/-! ## Whole runs -/

theorem run_served {config : PipelineConfig F} (hgrpc : config.grpcEnabled = true)
    {s₀ s : EdgeSystem P} {t : List (EdgeSystem P × EdgeAct F)}
    (h₀ : (edgeSystem P config).init s₀) (hrun : (edgeSystem P config).Run s₀ t s) :
    Served t s := by
  induction hrun with
  | nil =>
      obtain ⟨_, _, _, c, hc, rfl⟩ := h₀
      exact served_new ((Coordinator.initializePipeline_started hc).config ▸ hgrpc)
  | snoc _ hs ih => exact served_step ih hs

/-- The step that connects is the first connect, on the channel that is kept from then on. -/
theorem run_connects {config : PipelineConfig F} {s₀ s : EdgeSystem P}
    {t : List (EdgeSystem P × EdgeAct F)} (h₀ : (edgeSystem P config).init s₀)
    (hrun : (edgeSystem P config).Run s₀ t s) :
    ∀ p ∈ t, ∀ s', p.1.step p.2 = some s' → Connects p.1 s' →
      s.pc ≠ .starting ∧ s.client.client.stub = s'.client.client.stub ∧ HasConnected t s := by
  induction hrun with
  | nil => simp
  | @snoc t s₁ s₂ l hpre hs ih =>
      have hloop := loop_of_reachable ⟨s₀, t, h₀, hpre⟩
      have hs' : s₁.step l = some s₂ := hs
      intro p hp s' hstep hconnects
      rcases List.mem_append.mp hp with hp | hp
      · obtain ⟨hpc, hstub, hever⟩ := ih p hp s' hstep hconnects
        have hlater : ∀ o, l ≠ .connect o := by
          rintro o rfl
          exact hpc (step_pc hs').1
        exact ⟨step_pc_ne_starting hs' hpc, (((step_loop hloop hs').2 hlater).1).trans hstub,
          hasConnected_snoc.mpr (.inr hever)⟩
      · rw [List.mem_singleton.mp hp] at hstep hconnects
        obtain rfl := Option.some.inj (hs'.symm.trans hstep)
        have hfirst : ∃ o, l = .connect o := by
          by_contra hnone
          have hkeeps := (step_loop hloop hs').2 fun o hl => hnone ⟨o, hl⟩
          have hbefore := hkeeps.2 hconnects.2
          rw [hconnects.1] at hbefore
          cases hbefore
        obtain ⟨o, rfl⟩ := hfirst
        refine ⟨?_, rfl, hasConnected_snoc.mpr (.inl hconnects.2)⟩
        rw [(step_pc hs').2]
        simp

/-- A result is delivered, and the loop is at its head again. -/
def delivery : List (EdgeAct Binary32) :=
  [.connect {}, .startEventStream {}, .frame (smallFrame [(0, 0, 3 / 4)]), .client {}, .client {},
    .finish]

end EdgeSystem
