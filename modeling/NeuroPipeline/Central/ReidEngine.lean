-- SUMMARY: Runs of the re-identification engine: features and tracks belong together, identifiers are never used again, no sighting is lost.
import NeuroPipeline.Central.VlmConfigGuide
import NeuroPipeline.Lib.Dict
import NeuroPipeline.Lib.TransitionSystem

/-!
# Re-identification across cameras

Model of `register_feature` (analytics/reid_engine.py). A feature joins the track of the
most similar feature that other devices have left, or opens a track of its own. Features
are forgotten with time, tracks are not. The similarity is any function that may raise.
-/

universe u

open CFloat (const)

structure FeatureEntry (V : Type u) where
  deviceId : String
  className : String
  featureVector : V
  timestamp : Binary64
  trackId : Option String := none

structure ReIDSighting where
  deviceId : String
  timestamp : Binary64
  similarity : Binary64

structure ReIDTrack where
  trackId : String
  className : String
  sightings : List ReIDSighting := []

structure ReIDEngine (V : Type u) where
  threshold : Binary64 := const (85 / 100)
  timeWindow : Binary64 := const 300
  featureStore : List (FeatureEntry V) := []
  tracks : Dict String ReIDTrack := ∅
  nextTrackId : Nat := 1

/-- A call of `register_feature`, with the time of the clock. -/
structure RegisterCall (V : Type u) where
  deviceId : String
  className : String
  featureVector : V
  timestamp : Binary64 := const 0
  now : Binary64

/-- `timestamp or time.time()` -/
def RegisterCall.ts {V : Type u} (c : RegisterCall V) : Binary64 :=
  if c.timestamp ≤ const 0 ∧ const 0 ≤ c.timestamp then c.now else c.timestamp

namespace ReIDEngine

variable {V : Type u} (cosineSimilarity : V → V → Option Binary64) (e : ReIDEngine V)

/-- A number with leading zeros, as `{n:04d}` writes it. -/
def padded (n : Nat) : List Char :=
  List.replicate (4 - (Nat.toDigits 10 n).length) '0' ++ Nat.toDigits 10 n

def trackName (n : Nat) : String := "track-" ++ String.ofList (padded n)

/-- The loop over the stored features, with the best match so far. -/
def scan (c : RegisterCall V) :
    Option (FeatureEntry V) × Binary64 → List (FeatureEntry V) →
      Option (Option (FeatureEntry V) × Binary64)
  | best, [] => some best
  | best, existing :: rest =>
    if existing.deviceId = c.deviceId then scan c best rest
    -- a time later than that of the call is never too far away
    else if existing.timestamp < c.ts - e.timeWindow then scan c best rest
    else if existing.className ≠ c.className then scan c best rest
    else (cosineSimilarity c.featureVector existing.featureVector).bind fun sim =>
      scan c (if e.threshold ≤ sim ∧ best.2 < sim then (some existing, sim) else best) rest

def bestMatch (c : RegisterCall V) : Option (Option (FeatureEntry V) × Binary64) :=
  e.scan cosineSimilarity c (none, const 0) e.featureStore

def pruneOld (now : Binary64) : ReIDEngine V :=
  { e with
    featureStore := e.featureStore.filter fun f => now - e.timeWindow * const 2 ≤ f.timestamp }

/-- The end of `register_feature`. -/
def store (c : RegisterCall V) (trackId : String) : ReIDEngine V :=
  let entry := ⟨c.deviceId, c.className, c.featureVector, c.ts, some trackId⟩
  pruneOld { e with featureStore := e.featureStore ++ [entry] } c.ts

/-- The feature joins a track. -/
def join (c : RegisterCall V) (trackId : String) (track : ReIDTrack) (similarity : Binary64) :
    ReIDEngine V :=
  let sightings := track.sightings ++ [⟨c.deviceId, c.ts, similarity⟩]
  store { e with tracks := Dict.set e.tracks trackId { track with sightings } } c trackId

/-- The feature opens a track. -/
def create (c : RegisterCall V) : ReIDEngine V :=
  let trackId := trackName e.nextTrackId
  let track : ReIDTrack := ⟨trackId, c.className, [⟨c.deviceId, c.ts, const 1⟩]⟩
  let e := { e with
    nextTrackId := e.nextTrackId + 1
    tracks := Dict.set e.tracks trackId track }
  e.store c trackId

/-- `register_feature`, unless it raises; it changes nothing before it may do so. -/
def registerFeature (c : RegisterCall V) : Option (String × ReIDEngine V) :=
  (e.bestMatch cosineSimilarity c).bind fun best =>
    match best.1.bind (·.trackId) with
    | some trackId =>
      -- a track that is not there is a `KeyError`
      (e.tracks.lookup trackId).map fun track => (trackId, e.join c trackId track best.2)
    | none => some (trackName e.nextTrackId, e.create c)

/-- The identifier that a call returns. -/
def returned (p : ReIDEngine V × RegisterCall V) : Option String :=
  (p.1.registerFeature cosineSimilarity p.2).map (·.1)

/-- The identifiers of the tracks that the calls have opened. -/
def created (t : List (ReIDEngine V × RegisterCall V)) : List String :=
  t.filterMap fun p =>
    (returned cosineSimilarity p).filter fun id => (p.1.tracks.lookup id).isNone

end ReIDEngine

def reidSystem {V : Type u} (cosineSimilarity : V → V → Option Binary64) :
    TransitionSystem (ReIDEngine V) (RegisterCall V) where
  init e := e.featureStore = [] ∧ e.tracks = ∅ ∧ e.nextTrackId = 1
  step e c := some (((e.registerFeature cosineSimilarity c).map (·.2)).getD e)

/-! ## The law -/

namespace ReIDEngine

variable {V : Type u} (cosineSimilarity : V → V → Option Binary64)

/-- `x` is not before `cutoff`: it is at least that, unless one of them is no number. -/
def NotBefore (cutoff x : Binary64) : Prop :=
  ¬x < cutoff ∧ (CFloat.IsNumber x → CFloat.IsNumber cutoff → cutoff ≤ x)

/-- A stored feature through which the call may join a track. -/
structure Links (e : ReIDEngine V) (c : RegisterCall V) (id : String) (f : FeatureEntry V) :
    Prop where
  stored : f ∈ e.featureStore
  trackId : f.trackId = some id
  otherDevice : f.deviceId ≠ c.deviceId
  sameClass : f.className = c.className
  recent : NotBefore (c.ts - e.timeWindow) f.timestamp

/-- What holds of the engine after the calls of `t`. -/
structure Kept (t : List (ReIDEngine V × RegisterCall V)) (e : ReIDEngine V) : Prop where
  carried : ∀ f ∈ e.featureStore, ∃ id track, f.trackId = some id ∧
    e.tracks.lookup id = some track ∧ track.trackId = id ∧ track.className = f.className
  distinct : (created cosineSimilarity t).Nodup
  lasting : e.tracks.keys = created cosineSimilarity t
  joins : ∀ p ∈ t, ∀ id ∈ returned cosineSimilarity p, id ∈ p.1.tracks →
    ∃ f, p.1.Links p.2 id f
  total : Dict.sumBy (·.sightings.length) e.tracks =
    t.countP fun p => (p.1.bestMatch cosineSimilarity p.2).isSome

/-! ## Identifiers -/

theorem trackName_injective {m n : Nat} (h : trackName m = trackName n) : m = n := by
  have hpadded : padded m = padded n := by
    simpa [trackName] using congrArg String.toList h
  -- the zeros in front do not change the number that is read
  have hvalue : ∀ k, Nat.ofDigitChars 10 (padded k) 0 = k := fun k => by
    rw [padded, Nat.ofDigitChars_append, Nat.ofDigitChars_replicate_zero, Nat.mul_zero,
      Nat.ofDigitChars_ten_toDigits]
  rw [← hvalue m, hpadded, hvalue n]

/-! ## One registration -/

variable {cosineSimilarity} {e : ReIDEngine V} {c : RegisterCall V}

/-- What the loop finds, it has found before or among the features that it goes through. -/
theorem scan_finds {P : FeatureEntry V → Prop} {best r : Option (FeatureEntry V) × Binary64}
    {rest : List (FeatureEntry V)} (h : e.scan cosineSimilarity c best rest = some r)
    (hbest : ∀ f ∈ best.1, P f)
    (hrest : ∀ f ∈ rest, f.deviceId ≠ c.deviceId → ¬f.timestamp < c.ts - e.timeWindow →
      f.className = c.className → P f) :
    ∀ f ∈ r.1, P f := by
  induction rest generalizing best with
  | nil =>
    obtain rfl := Option.some_inj.mp h
    exact hbest
  | cons existing rest ih =>
    obtain ⟨hexisting, hrest⟩ := List.forall_mem_cons.mp hrest
    rw [scan] at h
    split at h
    next => exact ih h hbest hrest
    next hdevice =>
    split at h
    next => exact ih h hbest hrest
    next hrecent =>
    split at h
    next => exact ih h hbest hrest
    next hclass =>
    obtain ⟨sim, -, h⟩ := Option.bind_eq_some_iff.mp h
    refine ih h ?_ hrest
    split
    next =>
      intro f hf
      obtain rfl := Option.some_inj.mp hf
      exact hexisting hdevice hrecent (not_not.mp hclass)
    next => exact hbest

theorem notBefore_of_not_lt {cutoff x : Binary64} (h : ¬x < cutoff) : NotBefore cutoff x :=
  ⟨h, fun hx hcutoff => LawfulCFloat.le_of_not_lt hx hcutoff h⟩

/-- Features have tracks of their class, and tracks have the identifiers given so far. -/
structure Sound (e : ReIDEngine V) : Prop where
  carried : ∀ f ∈ e.featureStore, ∃ id track, f.trackId = some id ∧
    e.tracks.lookup id = some track ∧ track.trackId = id ∧ track.className = f.className
  given : ∀ id ∈ e.tracks, ∃ n < e.nextTrackId, id = trackName n

theorem Sound.fresh (h : e.Sound) : trackName e.nextTrackId ∉ e.tracks := by
  intro hmem
  obtain ⟨n, hn, heq⟩ := h.given _ hmem
  exact hn.ne (trackName_injective heq).symm

variable (cosineSimilarity) in
/-- A registration raises in a similarity, joins a track through a stored feature, or
opens one. -/
theorem Sound.registerFeature_cases (h : e.Sound) (c : RegisterCall V) :
    (e.bestMatch cosineSimilarity c = none ∧ e.registerFeature cosineSimilarity c = none) ∨
      (∃ f id track similarity, (e.bestMatch cosineSimilarity c).isSome ∧ e.Links c id f ∧
        e.tracks.lookup id = some track ∧ track.trackId = id ∧ track.className = c.className ∧
        e.registerFeature cosineSimilarity c = some (id, e.join c id track similarity)) ∨
      ((e.bestMatch cosineSimilarity c).isSome ∧
        e.registerFeature cosineSimilarity c = some (trackName e.nextTrackId, e.create c)) := by
  rw [registerFeature]
  cases hbest : e.bestMatch cosineSimilarity c with
  | none => exact .inl ⟨rfl, rfl⟩
  | some best =>
    obtain ⟨found, similarity⟩ := best
    have hfinds := scan_finds hbest (P := fun f => f ∈ e.featureStore ∧
      f.deviceId ≠ c.deviceId ∧ f.className = c.className ∧
      NotBefore (c.ts - e.timeWindow) f.timestamp) (by simp)
      fun f hf hdevice hrecent hclass => ⟨hf, hdevice, hclass, notBefore_of_not_lt hrecent⟩
    -- a feature that is found has a track of its class, so joining cannot raise
    cases found with
    | none => exact .inr (.inr ⟨rfl, rfl⟩)
    | some f =>
      obtain ⟨hstored, hdevice, hclass, hrecent⟩ := hfinds f rfl
      obtain ⟨id, track, htrackId, htrack, hid, htrackClass⟩ := h.carried f hstored
      refine .inr (.inl ⟨f, id, track, similarity, rfl, ?_, htrack, hid,
        htrackClass.trans hclass, ?_⟩)
      · exact ⟨hstored, htrackId, hdevice, hclass, hrecent⟩
      · simp [htrackId, htrack]

/-- The tracks may grow, but a track keeps its identifier and its class. -/
theorem Sound.store {e' : ReIDEngine V} (h : e.Sound) (hstore : e'.featureStore = e.featureStore)
    (hkept : ∀ id track, e.tracks.lookup id = some track → ∃ track', e'.tracks.lookup id =
      some track' ∧ track'.trackId = track.trackId ∧ track'.className = track.className)
    (hgiven : ∀ id ∈ e'.tracks, ∃ n < e'.nextTrackId, id = trackName n)
    {id : String} {track : ReIDTrack} (htrack : e'.tracks.lookup id = some track)
    (hid : track.trackId = id) (hclass : track.className = c.className) :
    (e'.store c id).Sound where
  given := hgiven
  carried f hf := by
    rcases List.mem_append.mp (List.mem_of_mem_filter hf) with hold | hnew
    · rw [hstore] at hold
      obtain ⟨id', old, htrackId, hold, hid', hclass'⟩ := h.carried f hold
      obtain ⟨new, hnew, hnewId, hnewClass⟩ := hkept id' old hold
      exact ⟨id', new, htrackId, hnew, hnewId.trans hid', hnewClass.trans hclass'⟩
    · obtain rfl := List.mem_singleton.mp hnew
      exact ⟨id, track, rfl, htrack, hid, hclass⟩

theorem Sound.join {id : String} {track : ReIDTrack} (h : e.Sound)
    (htrack : e.tracks.lookup id = some track) (hid : track.trackId = id)
    (hclass : track.className = c.className) (similarity : Binary64) :
    (e.join c id track similarity).Sound := by
  simp only [ReIDEngine.join]
  refine h.store ?_ ?_ ?_ Dict.lookup_set_self hid hclass
  · rfl
  -- the track that is joined keeps its identifier and its class, any other is as it was
  · intro id' old hold
    rw [Dict.lookup_set]
    split
    next heq =>
      rw [heq, htrack] at hold
      obtain rfl := Option.some_inj.mp hold
      exact ⟨_, rfl, rfl, rfl⟩
    next => exact ⟨old, hold, rfl, rfl⟩
  · intro id' hid'
    rcases Dict.mem_set.mp hid' with rfl | hold
    · exact h.given id' (Dict.mem_of_lookup htrack)
    · exact h.given id' hold

theorem Sound.create (h : e.Sound) (c : RegisterCall V) : (e.create c).Sound := by
  simp only [ReIDEngine.create]
  refine h.store ?_ ?_ ?_ Dict.lookup_set_self ?_ ?_
  · rfl
  · intro id' old hold
    have hne : id' ≠ trackName e.nextTrackId := fun heq =>
      h.fresh (heq ▸ Dict.mem_of_lookup hold)
    rw [Dict.lookup_set_of_ne hne]
    exact ⟨old, hold, rfl, rfl⟩
  · intro id' hid'
    rcases Dict.mem_set.mp hid' with rfl | hold
    · exact ⟨e.nextTrackId, Nat.lt_succ_self _, rfl⟩
    · obtain ⟨n, hn, heq⟩ := h.given id' hold
      exact ⟨n, Nat.lt_succ_of_lt hn, heq⟩
  · rfl
  · rfl

/-! ## Runs -/

variable {t : List (ReIDEngine V × RegisterCall V)}

theorem created_snoc : created cosineSimilarity (t ++ [(e, c)]) = created cosineSimilarity t ++
    ((returned cosineSimilarity (e, c)).filter fun id => (e.tracks.lookup id).isNone).toList := by
  rw [created, List.filterMap_append, created]
  congr 1

/-- What a run adds up to. -/
structure Tallied (cosineSimilarity : V → V → Option Binary64)
    (t : List (ReIDEngine V × RegisterCall V)) (e : ReIDEngine V) : Prop where
  sound : e.Sound
  keys : e.tracks.keys = created cosineSimilarity t
  joins : ∀ p ∈ t, ∀ id ∈ returned cosineSimilarity p, id ∈ p.1.tracks →
    ∃ f, p.1.Links p.2 id f
  total : Dict.sumBy (·.sightings.length) e.tracks =
    t.countP fun p => (p.1.bestMatch cosineSimilarity p.2).isSome

/-- A registration adds what it returns to the identifiers, and one to the sightings. -/
theorem Tallied.extend {e' : ReIDEngine V} (h : Tallied cosineSimilarity t e) (hsound : e'.Sound)
    (hkeys : e'.tracks.keys = e.tracks.keys ++ ((returned cosineSimilarity (e, c)).filter fun id =>
      (e.tracks.lookup id).isNone).toList)
    (hjoins : ∀ id ∈ returned cosineSimilarity (e, c), id ∈ e.tracks → ∃ f, e.Links c id f)
    (htotal : Dict.sumBy (·.sightings.length) e'.tracks =
      Dict.sumBy (·.sightings.length) e.tracks +
        (e.bestMatch cosineSimilarity c).isSome.toNat) :
    Tallied cosineSimilarity (t ++ [(e, c)]) e' where
  sound := hsound
  keys := by rw [hkeys, h.keys, created_snoc]
  joins := List.forall_mem_append.mpr ⟨h.joins, List.forall_mem_singleton.mpr hjoins⟩
  total := by
    rw [htotal, h.total, List.countP_append, List.countP_singleton]
    cases (e.bestMatch cosineSimilarity c).isSome <;> rfl

theorem sightings_join {id : String} {track : ReIDTrack} (similarity : Binary64)
    (htrack : e.tracks.lookup id = some track) :
    Dict.sumBy (·.sightings.length) (e.join c id track similarity).tracks =
      Dict.sumBy (·.sightings.length) e.tracks + 1 := by
  have hset : Dict.sumBy (·.sightings.length) (e.join c id track similarity).tracks +
      track.sightings.length = Dict.sumBy (·.sightings.length) e.tracks +
        (track.sightings ++ [ReIDSighting.mk c.deviceId c.ts similarity]).length :=
    Dict.sumBy_set_of_lookup _ htrack
  rw [List.length_append, List.length_singleton] at hset
  omega

theorem Tallied.step {e' : ReIDEngine V} (h : Tallied cosineSimilarity t e)
    (hs : (reidSystem cosineSimilarity).step e c = some e') :
    Tallied cosineSimilarity (t ++ [(e, c)]) e' := by
  obtain rfl := Option.some_inj.mp hs
  have hreturned : returned cosineSimilarity (e, c) =
    (e.registerFeature cosineSimilarity c).map (·.1) := rfl
  rcases h.sound.registerFeature_cases cosineSimilarity c with ⟨hraises, hnone⟩ |
    ⟨f, id, track, similarity, hfound, hlinks, htrack, hid, hclass, hjoins⟩ | ⟨hfound, hcreates⟩
  -- a similarity raises, and nothing has changed yet
  · rw [hnone] at hreturned ⊢
    refine h.extend h.sound ?_ ?_ ?_
    · simp [hreturned]
    · rw [hreturned]
      nofun
    · simp [hraises]
  -- one more sighting in a track that is there
  · rw [hjoins] at hreturned ⊢
    refine h.extend (h.sound.join htrack hid hclass similarity) ?_ ?_ ?_
    · have hkeys : (e.join c id track similarity).tracks.keys = e.tracks.keys :=
        Dict.keys_set_of_mem (Dict.mem_of_lookup htrack)
      simp [hreturned, htrack, hkeys, Option.filter_some]
    · rw [hreturned]
      intro id' hid' _
      obtain rfl := Option.some_inj.mp hid'
      exact ⟨f, hlinks⟩
    · rw [hfound]
      exact sightings_join similarity htrack
  -- a new identifier, whose track starts with one sighting
  · rw [hcreates] at hreturned ⊢
    refine h.extend (h.sound.create c) ?_ ?_ ?_
    · have hkeys : (e.create c).tracks.keys = e.tracks.keys ++ [trackName e.nextTrackId] :=
        Dict.keys_set_of_notMem h.sound.fresh
      have hfresh := AList.lookup_eq_none.mpr h.sound.fresh
      simp [hreturned, hfresh, hkeys, Option.filter_some]
    · rw [hreturned]
      intro id hid hmem
      obtain rfl := Option.some_inj.mp hid
      exact absurd hmem h.sound.fresh
    · rw [hfound]
      exact Dict.sumBy_set_of_notMem _ h.sound.fresh

/-- However features come in and whatever the similarities are, each stored feature has a
track of its class, no identifier is used twice, a track is joined through a feature of
another device and of the class that is not too old, and the sightings are the
registrations. -/
theorem registrations_kept {e₀ : ReIDEngine V} (h₀ : (reidSystem cosineSimilarity).init e₀)
    (hrun : (reidSystem cosineSimilarity).Run e₀ t e) : Kept cosineSimilarity t e := by
  have htallied : Tallied cosineSimilarity t e := by
    refine hrun.invariant_history (fun _ _ _ _ h hs => h.step hs) ?_
    obtain ⟨hstore, htracks, -⟩ := h₀
    refine ⟨⟨?_, ?_⟩, ?_, by simp, ?_⟩
    · simp [hstore]
    · simp [htracks]
    · simp [htracks, created]
    · simp [htracks, Dict.sumBy, Dict.values]
  exact ⟨htallied.sound.carried, htallied.keys ▸ e.tracks.keys_nodup, htallied.keys,
    htallied.joins, htallied.total⟩

/-! ## A time that goes back -/

/-- Unit vectors of one direction. -/
def same : Unit → Unit → Option Binary64 := fun _ _ => some (const 1)

/-- Two cameras see one person; the second reports a time long before the first. -/
def outOfOrder : List (RegisterCall Unit) :=
  [⟨"cam-1", "person", (), const 10000, const 10000⟩, ⟨"cam-2", "person", (), const 100, const 10001⟩]

theorem registrations_kept_outOfOrder :
    ∃ t e, (reidSystem same).Run {} t e ∧ Kept same t e ∧
      Dict.sumBy (·.sightings.length) e.tracks = 2 ∧ created same t = ["track-0001"] := by
  have hexec : ((reidSystem same).execTrace {} outOfOrder).map
      (fun r => (Dict.sumBy (·.sightings.length) r.2.tracks, created same r.1)) =
        some (2, ["track-0001"]) := by
    decide +kernel
  obtain ⟨t, e, hrun, -, hread⟩ := TransitionSystem.exists_run_of_execTrace hexec
  obtain ⟨htotal, hcreated⟩ := Prod.mk.inj hread
  exact ⟨t, e, hrun, registrations_kept ⟨rfl, rfl, rfl⟩ hrun, htotal, hcreated⟩

/-- The second camera joins the track of the first, although all stored features are more
than a time window away. -/
theorem not_within_outOfOrder :
    ∃ t e, (reidSystem same).Run {} t e ∧ ∃ p ∈ t, ∃ id ∈ returned same p, id ∈ p.1.tracks ∧
      ∀ f ∈ p.1.featureStore, p.2.ts + p.1.timeWindow < f.timestamp := by
  have hexec : ((reidSystem same).execTrace {} outOfOrder).map
      (fun r => r.1.any fun p => (returned same p).any fun id => id ∈ p.1.tracks ∧
        ∀ f ∈ p.1.featureStore, p.2.ts + p.1.timeWindow < f.timestamp) = some true := by
    decide +kernel
  obtain ⟨t, e, hrun, -, hread⟩ := TransitionSystem.exists_run_of_execTrace hexec
  obtain ⟨p, hp, hany⟩ := List.any_eq_true.mp hread
  obtain ⟨id, hid, hfar⟩ := (Option.any_eq_true _ _).mp hany
  exact ⟨t, e, hrun, p, hp, id, hid, of_decide_eq_true hfar⟩

end ReIDEngine
