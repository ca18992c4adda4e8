-- SUMMARY: Runs of the live broadcast with connections that come and go: a post never raises and every client that stays is sent the event once.
import NeuroPipeline.Integration.DashboardEvents
import NeuroPipeline.Lib.TransitionSystem

/-!
# Live broadcast

Model of `post_event` and of the handler of a connection (routers/v2/status.py). A post
goes through a copy of the list of clients and is suspended in each send. Meanwhile
handlers and other posts take clients off the list that they share.
-/

open CFloat (const)

/-- A post that has come to its loop. -/
structure Broadcast where
  form : NormalizedEvent
  /-- the clients that are connected when it starts -/
  connected : List Nat
  /-- `list(ws_clients)`, without those whose send has ended -/
  pending : List Nat
  /-- the sends that have ended, and whether the event went out -/
  sends : List (Nat × Bool) := []
  /-- it has ended with an exception -/
  raised : Bool := false

structure LiveBoard where
  events : List RawEvent := []
  wsClients : List Nat := []
  /-- the clients that have disconnected or failed to receive -/
  down : List Nat := []
  /-- `websocket_endpoint` of these has not ended -/
  handlers : List Nat := []
  nextClient : Nat := 0
  broadcasts : List Broadcast := []
  /-- the posts that have raised -/
  raised : Nat := 0

inductive LiveAct where
  | connect
  | disconnect (ws : Nat)
  /-- `receive_text` raises -/
  | handlerEnds (ws : Nat)
  | post (event : RawEvent) (now : Binary64)
  /-- the send that post `i` is suspended in ends -/
  | sendEnds (i : Nat) (ok : Bool)

/-- The clients that were sent the event. -/
def Broadcast.delivered (b : Broadcast) : List Nat := (b.sends.filter (·.2)).map (·.1)

/-- `event.setdefault("timestamp", time.time())` -/
def RawEvent.withTimestamp (event : RawEvent) (now : Binary64) : RawEvent :=
  if (event.lookup "timestamp").isSome then event else event ++ [("timestamp", .float now)]

namespace LiveBoard

variable (v : EventFormat) (s : LiveBoard)

/-- `websocket_endpoint` up to its first wait. -/
def connect : LiveBoard :=
  { s with
    wsClients := s.wsClients ++ [s.nextClient]
    handlers := s.handlers ++ [s.nextClient]
    nextClient := s.nextClient + 1 }

/-- `finally` in `websocket_endpoint`. -/
def handlerEnds (ws : Nat) : LiveBoard :=
  { s with
    wsClients := if s.wsClients.contains ws then s.wsClients.erase ws else s.wsClients
    down := ws :: s.down
    handlers := s.handlers.erase ws }

/-- The clients whose connection is up. -/
def up : List Nat := (List.range s.nextClient).filter fun ws => !s.down.contains ws

/-- `post_event` up to its first send. -/
def post (event : RawEvent) (now : Binary64) : LiveBoard :=
  let event := event.withTimestamp now
  let events := s.events ++ [event]
  -- the event is stored before `_normalize_event` may raise
  let events := if 500 < events.length then events.tail else events
  match v.normalizeEvent event with
  | none => { s with events := events, raised := s.raised + 1 }
  | some form =>
    { s with
      events := events
      broadcasts := s.broadcasts ++
        [{ form := form, connected := s.up, pending := s.wsClients }] }

/-- One turn of the loop. A client that fails to receive is taken off the list, which
raises if it is no longer on it. -/
def sendEnds (i : Nat) (b : Broadcast) (ws : Nat) (rest : List Nat) : Bool → LiveBoard
  | true =>
    { s with
      broadcasts := s.broadcasts.set i { b with pending := rest, sends := b.sends ++ [(ws, true)] } }
  | false =>
    let b := { b with pending := rest, sends := b.sends ++ [(ws, false)] }
    if s.wsClients.contains ws then
      { s with
        wsClients := s.wsClients.erase ws
        down := ws :: s.down
        broadcasts := s.broadcasts.set i b }
    else
      { s with
        down := ws :: s.down
        -- `remove` raises out of the loop, and the clients behind are left out
        broadcasts := s.broadcasts.set i { b with raised := true }
        raised := s.raised + 1 }

end LiveBoard

def liveSystem (v : EventFormat) : TransitionSystem LiveBoard LiveAct where
  init s := s = {}
  step s
    | .connect => some s.connect
    | .disconnect ws => if ws < s.nextClient then some { s with down := ws :: s.down } else none
    | .handlerEnds ws => if s.handlers.contains ws then some (s.handlerEnds ws) else none
    | .post event now => some (s.post v event now)
    | .sendEnds i ok =>
      match s.broadcasts[i]? with
      | some b =>
        match b.raised, b.pending with
        | false, ws :: rest => some (s.sendEnds i b ws rest ok)
        | _, _ => none
      | none => none

/-! ## The law -/

namespace LiveBoard

/-- No post has raised, nobody is sent an event twice, and a post that is through has
sent its event to every client that was connected when it started and still is. -/
structure ReachesAll (s : LiveBoard) : Prop where
  raised : s.raised = 0
  atMostOnce : ∀ b ∈ s.broadcasts, ∀ ws, b.delivered.count ws ≤ 1
  once : ∀ b ∈ s.broadcasts, b.pending = [] → ∀ ws ∈ b.connected, ws ∉ s.down →
    b.delivered.count ws = 1

/-- The events that are posted can be normalised, and a client that fails to receive is
still on the list. -/
def Orderly (v : EventFormat) (s : LiveBoard) : LiveAct → Prop
  | .post event now => v.Readable (event.withTimestamp now)
  | .sendEnds i false => ∀ b ∈ s.broadcasts[i]?, ∀ ws ∈ b.pending.head?, ws ∈ s.wsClients
  | _ => True

end LiveBoard

/-! ## The invariant -/

/-- A broadcast has each client of its copy once, behind it or before it, and failed only
at those that are down. -/
structure Broadcast.Sound (b : Broadcast) (down : List Nat) : Prop where
  nodup : (b.sends.map (·.1) ++ b.pending).Nodup
  copied : ∀ ws ∈ b.connected, ws ∈ b.sends.map (·.1) ++ b.pending
  failed : ∀ ws, (ws, false) ∈ b.sends → ws ∈ down

namespace Broadcast.Sound

variable {b : Broadcast} {down : List Nat} {ws : Nat}

theorem mono (h : b.Sound down) : b.Sound (ws :: down) :=
  ⟨h.nodup, h.copied, fun ws' hws' => List.mem_cons_of_mem _ (h.failed ws' hws')⟩

/-- The send that is under way ends. -/
theorem sent {rest : List Nat} (h : b.Sound down) (hb : b.pending = ws :: rest)
    (ok raised : Bool) (hok : ok = false → ws ∈ down) :
    ({ b with pending := rest, sends := b.sends ++ [(ws, ok)], raised := raised } :
      Broadcast).Sound down := by
  have hclients : (b.sends ++ [(ws, ok)]).map (·.1) ++ rest = b.sends.map (·.1) ++ b.pending := by
    simp [hb]
  refine ⟨hclients ▸ h.nodup, hclients ▸ h.copied, ?_⟩
  intro ws' hws'
  rcases List.mem_append.mp hws' with hold | hnew
  · exact h.failed ws' hold
  · cases List.mem_singleton.mp hnew
    exact hok rfl

theorem atMostOnce (h : b.Sound down) (ws : Nat) : b.delivered.count ws ≤ 1 := by
  have hsub : b.delivered.Sublist (b.sends.map (·.1)) := List.filter_sublist.map _
  have hnodup : (b.sends.map (·.1)).Nodup := (List.nodup_append.mp h.nodup).1
  exact List.nodup_iff_count_le_one.mp (hnodup.sublist hsub) ws

theorem once (h : b.Sound down) (hend : b.pending = []) (hws : ws ∈ b.connected)
    (hup : ws ∉ down) : b.delivered.count ws = 1 := by
  have hsent := h.copied ws hws
  rw [hend, List.append_nil] at hsent
  obtain ⟨⟨ws', ok⟩, hmem, rfl⟩ := List.mem_map.mp hsent
  -- a send that failed is to a client that is down
  have hok : ok = true := by
    cases ok with
    | true => rfl
    | false => exact absurd (h.failed _ hmem) hup
  have hdelivered : ws' ∈ b.delivered :=
    List.mem_map.mpr ⟨(ws', ok), List.mem_filter.mpr ⟨hmem, hok⟩, rfl⟩
  exact le_antisymm (h.atMostOnce ws') (List.one_le_count_iff.mpr hdelivered)

end Broadcast.Sound

namespace LiveBoard

variable {v : EventFormat} {s s' : LiveBoard} {t : List (LiveBoard × LiveAct)} {l : LiveAct}

/-- The list holds known clients, each once and all that are up. -/
structure Sound (s : LiveBoard) : Prop where
  nodup : s.wsClients.Nodup
  known : ∀ ws ∈ s.wsClients, ws < s.nextClient
  listed : ∀ ws < s.nextClient, ws ∉ s.down → ws ∈ s.wsClients
  broadcasts : ∀ b ∈ s.broadcasts, b.Sound s.down

theorem sendEnds_cases {i : Nat} {ok : Bool} (hs : (liveSystem v).step s (.sendEnds i ok) = some s') :
    ∃ b ws rest, s.broadcasts[i]? = some b ∧ b.raised = false ∧ b.pending = ws :: rest ∧
      s' = s.sendEnds i b ws rest ok := by
  simp only [liveSystem] at hs
  split at hs
  · next b hb =>
    split at hs
    · next ws rest hraised hpending =>
      exact ⟨b, ws, rest, hb, hraised, hpending, (Option.some_inj.mp hs).symm⟩
    · cases hs
  · cases hs

/-- A client that is down may be taken off the list. -/
theorem Sound.remove (h : s.Sound) (ws : Nat) (handlers : List Nat) :
    ({ s with
      wsClients := s.wsClients.erase ws
      down := ws :: s.down
      handlers := handlers } : LiveBoard).Sound where
  nodup := h.nodup.erase ws
  known ws' hws' := h.known ws' (List.mem_of_mem_erase hws')
  listed ws' hknown hup := by
    have hlisted := h.listed ws' hknown (List.not_mem_of_not_mem_cons hup)
    exact (List.mem_erase_of_ne (List.ne_of_not_mem_cons hup)).mpr hlisted
  broadcasts b hb := (h.broadcasts b hb).mono

theorem Sound.disconnect (h : s.Sound) (ws : Nat) :
    ({ s with down := ws :: s.down } : LiveBoard).Sound where
  nodup := h.nodup
  known := h.known
  listed ws' hknown hup := h.listed ws' hknown fun hdown => hup (List.mem_cons_of_mem ws hdown)
  broadcasts b hb := (h.broadcasts b hb).mono

theorem Sound.connect (h : s.Sound) : s.connect.Sound where
  nodup := by
    refine h.nodup.append (List.nodup_singleton _) ?_
    simpa using fun hmem => (h.known _ hmem).ne rfl
  known ws hws := by
    rcases List.mem_append.mp hws with hold | hnew
    · exact Nat.lt_succ_of_lt (h.known ws hold)
    · rw [List.mem_singleton.mp hnew]
      exact Nat.lt_succ_self _
  listed ws hknown hup := by
    rcases Nat.lt_succ_iff_lt_or_eq.mp hknown with hold | rfl
    · exact List.mem_append_left _ (h.listed ws hold hup)
    · exact List.mem_append_right _ List.mem_cons_self
  broadcasts := h.broadcasts

theorem mem_up {ws : Nat} : ws ∈ s.up ↔ ws < s.nextClient ∧ ws ∉ s.down := by
  simp [up]

theorem Sound.post (h : s.Sound) (event : RawEvent) (now : Binary64) : (s.post v event now).Sound := by
  rw [LiveBoard.post]
  split
  · exact ⟨h.nodup, h.known, h.listed, h.broadcasts⟩
  -- the copy is the list, which holds all that are up
  · refine ⟨h.nodup, h.known, h.listed, ?_⟩
    refine List.forall_mem_append.mpr ⟨h.broadcasts, List.forall_mem_singleton.mpr ?_⟩
    refine ⟨by simpa using h.nodup, ?_, by simp⟩
    intro ws hws
    obtain ⟨hknown, hup⟩ := mem_up.mp hws
    exact List.mem_append_right _ (h.listed ws hknown hup)

theorem Sound.setBroadcast {b : Broadcast} (h : s.Sound) (hb : b.Sound s.down) (i raised : Nat) :
    ({ s with broadcasts := s.broadcasts.set i b, raised := raised } : LiveBoard).Sound where
  nodup := h.nodup
  known := h.known
  listed := h.listed
  broadcasts b' hb' := by
    rcases List.mem_or_eq_of_mem_set hb' with hold | rfl
    · exact h.broadcasts b' hold
    · exact hb

theorem Sound.sendEnds {i : Nat} {b : Broadcast} {ws : Nat} {rest : List Nat} (h : s.Sound)
    (hb : b ∈ s.broadcasts) (hpending : b.pending = ws :: rest) (ok : Bool) :
    (s.sendEnds i b ws rest ok).Sound := by
  have hsound := h.broadcasts b hb
  cases ok with
  | true => exact h.setBroadcast (hsound.sent hpending true b.raised nofun) i s.raised
  | false =>
    -- either way the client counts as down, and its send is behind
    have hfailed := fun raised =>
      hsound.mono.sent hpending false raised fun _ => List.mem_cons_self
    rw [LiveBoard.sendEnds]
    split
    · exact (h.remove ws s.handlers).setBroadcast (hfailed b.raised) i s.raised
    · exact (h.disconnect ws).setBroadcast (hfailed true) i (s.raised + 1)

theorem Sound.step (h : s.Sound) (hs : (liveSystem v).step s l = some s') : s'.Sound := by
  cases l with
  | connect =>
    obtain rfl := Option.some_inj.mp hs
    exact h.connect
  | disconnect ws =>
    obtain ⟨-, hs⟩ := Option.ite_none_right_eq_some.mp hs
    obtain rfl := Option.some_inj.mp hs
    exact h.disconnect ws
  -- the guard of `finally` makes no difference: what is not listed is not erased
  | handlerEnds ws =>
    obtain ⟨-, hs⟩ := Option.ite_none_right_eq_some.mp hs
    obtain rfl := Option.some_inj.mp hs
    have herase : (if s.wsClients.contains ws then s.wsClients.erase ws else s.wsClients) =
        s.wsClients.erase ws := by
      split
      · rfl
      · next habsent => exact (List.erase_of_not_mem (by simpa using habsent)).symm
    rw [handlerEnds, herase]
    exact h.remove ws _
  | post event now =>
    obtain rfl := Option.some_inj.mp hs
    exact h.post event now
  | sendEnds i ok =>
    obtain ⟨b, ws, rest, hb, -, hpending, rfl⟩ := sendEnds_cases hs
    exact h.sendEnds (List.mem_of_getElem? hb) hpending ok

/-! ## Exceptions -/

/-- A step raises unless it is orderly. -/
theorem raised_step (hs : (liveSystem v).step s l = some s') :
    s'.raised = 0 ↔ s.raised = 0 ∧ Orderly v s l := by
  cases l with
  | connect =>
    obtain rfl := Option.some_inj.mp hs
    simp [connect, Orderly]
  | disconnect ws =>
    obtain ⟨-, hs⟩ := Option.ite_none_right_eq_some.mp hs
    obtain rfl := Option.some_inj.mp hs
    simp [Orderly]
  | handlerEnds ws =>
    obtain ⟨-, hs⟩ := Option.ite_none_right_eq_some.mp hs
    obtain rfl := Option.some_inj.mp hs
    simp [handlerEnds, Orderly]
  | post event now =>
    obtain rfl := Option.some_inj.mp hs
    rw [post, Orderly, ← EventFormat.normalizeEvent_isSome_iff]
    cases hform : v.normalizeEvent (event.withTimestamp now) <;> simp
  | sendEnds i ok =>
    obtain ⟨b, ws, rest, hb, -, hpending, rfl⟩ := sendEnds_cases hs
    cases ok with
    | true => simp [sendEnds, Orderly]
    | false =>
      simp only [sendEnds, Orderly, hb, hpending, Option.mem_some_iff, List.head?_cons,
        forall_eq', List.contains_iff_mem]
      split <;> simp [*]

theorem raised_eq_zero_iff {s₀ : LiveBoard} (hrun : (liveSystem v).Run s₀ t s)
    (h₀ : s₀.raised = 0) : s.raised = 0 ↔ TransitionSystem.Respects (Orderly v) t := by
  induction hrun with
  | nil => simp [h₀]
  | snoc _ hs ih => rw [TransitionSystem.respects_snoc, raised_step hs, ih]

end LiveBoard

/-! ## Runs -/

open LiveBoard

/-- However connections come and go while posts are under way, no post raises and each
reaches all clients that stay exactly when every step is orderly. -/
theorem liveSystem.reachesAll_iff {v : EventFormat} {s₀ s : LiveBoard}
    {t : List (LiveBoard × LiveAct)} (h₀ : (liveSystem v).init s₀)
    (hrun : (liveSystem v).Run s₀ t s) :
    s.ReachesAll ↔ TransitionSystem.Respects (Orderly v) t := by
  obtain rfl : s₀ = {} := h₀
  have hsound : s.Sound :=
    hrun.invariant (fun s l s' h hs => h.step hs) ⟨by simp, by simp, by simp, by simp⟩
  -- who is sent what is sound in any run; only exceptions tell runs apart
  rw [← raised_eq_zero_iff hrun rfl]
  refine ⟨fun h => h.raised, fun hraised => ⟨hraised, ?_, ?_⟩⟩
  · intro b hb ws
    exact (hsound.broadcasts b hb).atMostOnce ws
  · intro b hb hend ws hws hup
    exact (hsound.broadcasts b hb).once hend hws hup

/-- The first of two clients fails to receive, and its handler ends after that. -/
def orderlyActs : List LiveAct :=
  [.connect, .connect, .post (EventFormat.plainEvent "SYSTEM_ERROR" (some "critical")) (const 0),
    .disconnect 0, .sendEnds 0 false, .handlerEnds 0, .sendEnds 0 true]

theorem liveSystem.reachesAll_iff_orderlyActs :
    ∃ t s, (liveSystem .ascii).Run {} t s ∧ TransitionSystem.Respects (Orderly .ascii) t ∧
      s.ReachesAll ∧ s.broadcasts.map Broadcast.delivered = [[1]] := by
  have hexec : ((liveSystem .ascii).execTrace {} orderlyActs).map
      (fun r => (r.2.raised, r.2.broadcasts.map Broadcast.delivered)) = some (0, [[1]]) := by
    decide +kernel
  obtain ⟨t, s, hrun, -, hs⟩ := TransitionSystem.exists_run_of_execTrace hexec
  obtain ⟨hraised, hdelivered⟩ := Prod.mk.inj hs
  have hrespects := (raised_eq_zero_iff hrun rfl).mp hraised
  exact ⟨t, s, hrun, hrespects, (liveSystem.reachesAll_iff rfl hrun).mpr hrespects, hdelivered⟩

/-- The handler of the first client ends while a send to it is failing. -/
def crossingActs : List LiveAct :=
  [.connect, .connect, .post (EventFormat.plainEvent "SYSTEM_ERROR" (some "critical")) (const 0),
    .disconnect 0, .handlerEnds 0, .sendEnds 0 false]

/-- The post raises, and the second client, which is up, is not sent the event. -/
theorem liveSystem.not_reachesAll_crossingActs :
    ∃ t s, (liveSystem .ascii).Run {} t s ∧ s.up = [1] ∧
      s.broadcasts.map (fun b => (b.delivered, b.raised)) = [([], true)] ∧ ¬s.ReachesAll := by
  have hexec : ((liveSystem .ascii).execTrace {} crossingActs).map
      (fun r => (r.2.raised, r.2.up, r.2.broadcasts.map fun b => (b.delivered, b.raised))) =
        some (1, [1], [([], true)]) := by
    decide +kernel
  obtain ⟨t, s, hrun, -, hs⟩ := TransitionSystem.exists_run_of_execTrace hexec
  obtain ⟨hraised, hup, hbroadcasts⟩ : s.raised = 1 ∧ s.up = [1] ∧
    s.broadcasts.map (fun b => (b.delivered, b.raised)) = [([], true)] := by simpa using hs
  refine ⟨t, s, hrun, hup, hbroadcasts, fun h => ?_⟩
  rw [h.raised] at hraised
  cases hraised
