-- SUMMARY: Retrieval of past events: which of the newest events are kept for a prompt.
import NeuroPipeline.Central.StoreQueries

/-!
# Retrieval of history

Model of rag_retriever.py. How long a query takes is left out.
-/

open OrderDual (toDual)

structure RagContext where
  items : List StoredEvent
  summary : String

structure RagRetriever where
  maxItems : Int := 10
  timeWindowHours : ℚ := 24

namespace RagRetriever

variable (r : RagRetriever)

/-- A detection of one of the classes; without classes every event is wanted. -/
def wanted (classNames : List String) (e : StoredEvent) : Bool :=
  classNames.isEmpty || e.detections.any fun d => d.className.any fun c => classNames.contains c

/-- `timeText` is `time.strftime` of the local time. -/
def summaryLine (timeText : ℚ → String) (item : StoredEvent) : String :=
  let classes := item.detections.map fun d => d.className.getD "?"
  let timeStr := if item.timestamp = 0 then "?" else timeText item.timestamp
  let detStr := if classes.isEmpty then "none" else String.intercalate ", " classes
  let vlm := item.vlmResult.getD ""
  let line := "  [" ++ timeStr ++ "] " ++ item.eventType ++ ": " ++ detStr
  if vlm = "" then line else line ++ " — VLM: " ++ String.ofList (vlm.toList.take 80)

def formatSummary (timeText : ℚ → String) (items : List StoredEvent) (deviceId : String)
    (hours : ℚ) : String :=
  if items.isEmpty then
    "No recent events for device " ++ deviceId ++ " in the last " ++ wholeText hours ++ "h."
  else
    String.intercalate "\n"
      (("Recent history for " ++ deviceId ++ " (" ++ toString items.length ++ " events, last " ++
        wholeText hours ++ "h):") :: items.map (summaryLine timeText))

/-- `time_window_hours or self._time_window_hours` -/
def window (hours : ℚ) : ℚ := if hours = 0 then r.timeWindowHours else hours

def since (hours now : ℚ) : ℚ := now - r.window hours * 3600

/-- The rows that are asked for are three times the items. `none` is a query that raises. -/
def retrieve (timeText : ℚ → String) (store : Option StoreReads) (deviceId : String)
    (classNames : List String) (hours now queriedAt : ℚ) : Option RagContext :=
  match store with
  | none => some ⟨[], "No history available."⟩
  | some store =>
    (store.query (r.since hours now) 0 (r.maxItems * 3) deviceId queriedAt).map fun rows =>
      let items := VlmConfigGuide.sliceTo (rows.filter (wanted classNames)) r.maxItems
      ⟨items, formatSummary timeText items deviceId (r.window hours)⟩

/-- The events that the context is to be taken from. -/
def relevant (store : StoreReads) (deviceId : String) (classNames : List String)
    (hours now queriedAt : ℚ) : List StoredEvent :=
  (store.matching (r.since hours now) queriedAt deviceId).filter (wanted classNames)

/-- The newest of the relevant events, the newest first. -/
def RetrievesNewest (timeText : ℚ → String) (store : StoreReads) (deviceId : String)
    (classNames : List String) (hours now queriedAt : ℚ) : Prop :=
  ∃ context,
    r.retrieve timeText (some store) deviceId classNames hours now queriedAt = some context ∧
    Leading (fun e => toDual e.timestamp) r.maxItems.toNat
      (r.relevant store deviceId classNames hours now queriedAt) context.items ∧
    context.items.Pairwise fun a b => b.timestamp ≤ a.timestamp

/-- How many relevant events are among those that the query returns. -/
def found (store : StoreReads) (deviceId : String) (classNames : List String)
    (hours now queriedAt : ℚ) : Nat :=
  (store.newest (r.since hours now) queriedAt deviceId (r.maxItems * 3)).countP (wanted classNames)

/-- The rows of the query have as many relevant events as there can be items, or all of
them. With a negative limit, which does not limit the query, there must be no more than
are cut off at the end. -/
def FindsEnough (store : StoreReads) (deviceId : String) (classNames : List String)
    (hours now queriedAt : ℚ) : Prop :=
  let all := (r.relevant store deviceId classNames hours now queriedAt).length
  if r.maxItems < 0 then (all : Int) ≤ -r.maxItems
  else r.maxItems ≤ r.found store deviceId classNames hours now queriedAt ∨
    r.found store deviceId classNames hours now queriedAt = all

variable {r} {timeText : ℚ → String} {store : StoreReads} {deviceId : String}
  {classNames : List String} {hours now queriedAt : ℚ}

theorem sliceTo_initial {α : Type} (l : List α) (n : Int) : VlmConfigGuide.sliceTo l n <+: l := by
  rw [VlmConfigGuide.sliceTo]
  split
  · exact List.take_prefix _ l
  · exact List.take_prefix _ l

/-- What is returned, from the rows in the order of the query. -/
theorem retrieve_eq (r : RagRetriever) (timeText : ℚ → String) (deviceId : String)
    (classNames : List String) (hours now queriedAt : ℚ) (hanswers : store.Answers) :
    ∃ summary, r.retrieve timeText (some store) deviceId classNames hours now queriedAt =
      some ⟨VlmConfigGuide.sliceTo
        ((store.newest (r.since hours now) queriedAt deviceId (r.maxItems * 3)).filter
          (wanted classNames)) r.maxItems, summary⟩ := by
  have hquery : store.query (r.since hours now) 0 (r.maxItems * 3) deviceId queriedAt =
      some (store.newest (r.since hours now) queriedAt deviceId (r.maxItems * 3)) := by
    rw [StoreReads.query, StoreReads.readUntil_zero, StoreReads.retrySync_of_answers hanswers]
  exact ⟨_, by rw [retrieve, hquery, Option.map_some]⟩

/-- The items lead among the relevant events if they are as many as they can be. -/
theorem leading_items_iff :
    Leading (fun e => toDual e.timestamp) r.maxItems.toNat
      (r.relevant store deviceId classNames hours now queriedAt)
      (VlmConfigGuide.sliceTo
        ((store.newest (r.since hours now) queriedAt deviceId (r.maxItems * 3)).filter
          (wanted classNames)) r.maxItems) ↔
      r.FindsEnough store deviceId classNames hours now queriedAt := by
  obtain ⟨rows, hrows⟩ : ∃ rows, rows =
      store.newestFirst.sort (store.matching (r.since hours now) queriedAt deviceId) := ⟨_, rfl⟩
  have hsorted : rows.Pairwise fun a b => toDual a.timestamp ≤ toDual b.timestamp := by
    rw [hrows]
    exact store.newestFirst.sorted _
  have hperm : (rows.filter (wanted classNames)).Perm
      (r.relevant store deviceId classNames hours now queriedAt) := by
    rw [hrows]
    exact (store.newestFirst.perm _).filter _
  have hall : (r.relevant store deviceId classNames hours now queriedAt).length =
      rows.countP (wanted classNames) := by
    rw [← hperm.length_eq, List.countP_eq_length_filter]
  rw [← Leading.congr hperm, FindsEnough, hall]
  rcases lt_or_ge r.maxItems 0 with hneg | hnonneg
  · have hread : store.newest (r.since hours now) queriedAt deviceId (r.maxItems * 3) = rows := by
      rw [hrows]
      exact limited_of_neg (by omega)
    rw [if_pos hneg, hread, leading_iff_length (hsorted.filter _) (sliceTo_initial _ _),
      VlmConfigGuide.sliceTo, if_neg (by omega), List.length_take, List.countP_eq_length_filter]
    omega
  · obtain ⟨m, hm⟩ := Int.eq_ofNat_of_zero_le hnonneg
    have hread : store.newest (r.since hours now) queriedAt deviceId (r.maxItems * 3) =
        rows.take (m * 3) := by
      rw [StoreReads.newest, hm, hrows]
      exact limited_natCast (m * 3) _
    have hitems : VlmConfigGuide.sliceTo ((rows.take (m * 3)).filter (wanted classNames)) m =
        ((rows.take (m * 3)).filter (wanted classNames)).take m := by
      rw [VlmConfigGuide.sliceTo, if_pos (Int.natCast_nonneg m), Int.toNat_natCast]
    rw [if_neg (by omega), found, hread, hm, Int.toNat_natCast,
      leading_filter_iff (wanted classNames) hsorted hitems]
    have hle : (rows.take (m * 3)).countP (wanted classNames) ≤ rows.countP (wanted classNames) :=
      (List.take_sublist _ rows).countP_le
    omega

/-- The context is right just when the query answers and its rows have enough of the
relevant events. -/
theorem retrievesNewest_iff :
    r.RetrievesNewest timeText store deviceId classNames hours now queriedAt ↔
      store.Answers ∧ r.FindsEnough store deviceId classNames hours now queriedAt := by
  by_cases hanswers : store.Answers
  · obtain ⟨summary, hresult⟩ :=
      r.retrieve_eq timeText deviceId classNames hours now queriedAt hanswers
    rw [RetrievesNewest, hresult]
    constructor
    · rintro ⟨context, hcontext, hleading, -⟩
      obtain rfl := Option.some.inj hcontext
      exact ⟨hanswers, leading_items_iff.mp hleading⟩
    · rintro ⟨-, henough⟩
      refine ⟨_, rfl, leading_items_iff.mpr henough, ?_⟩
      have hsorted := store.newestFirst.sorted
        (store.matching (r.since hours now) queriedAt deviceId)
      have hrows := hsorted.sublist (limited_initial (r.maxItems * 3) _).sublist
      exact (hrows.filter _).sublist (sliceTo_initial _ _).sublist
  · have hresult :
        r.retrieve timeText (some store) deviceId classNames hours now queriedAt = none := by
      rw [retrieve, StoreReads.query, StoreReads.retrySync_of_not_answers hanswers, Option.map_none]
    simp [RetrievesNewest, hresult, hanswers]

/-! ## A person behind many cars -/

/-- The time of day where the local time is UTC. -/
def utcText (timestamp : ℚ) : String :=
  let seconds := (⌊timestamp⌋ % 86400).toNat
  let digits (n : Nat) : String := (if n < 10 then "0" else "") ++ toString n
  digits (seconds / 3600) ++ ":" ++ digits (seconds / 60 % 60) ++ ":" ++ digits (seconds % 60)

def manyCars : StoreReads :=
  sampleReads
    (detectionRow 100 personJson "cam" :: List.replicate 30 (detectionRow 900 carJson "cam"))

/-- The thirty newest events are cars, and the person is not found. -/
theorem not_retrievesNewest_manyCars :
    ¬ ({} : RagRetriever).RetrievesNewest utcText manyCars "cam" ["person"] 0 1000 1000 := by
  rintro ⟨context, hcontext, ⟨hlength, -⟩, -⟩
  obtain ⟨summary, hresult⟩ := retrieve_eq {} utcText "cam" ["person"] 0 1000 1000
    (show manyCars.Answers by decide)
  rw [hresult] at hcontext
  obtain rfl := Option.some.inj hcontext
  have hnone : (VlmConfigGuide.sliceTo ((manyCars.newest (({} : RagRetriever).since 0 1000) 1000
      "cam" (({} : RagRetriever).maxItems * 3)).filter (wanted ["person"])) 10).length = 0 := by
    decide +kernel
  have hone : (({} : RagRetriever).relevant manyCars "cam" ["person"] 0 1000 1000).length = 1 := by
    decide +kernel
  rw [hone] at hlength
  cases hnone.symm.trans hlength

end RagRetriever
