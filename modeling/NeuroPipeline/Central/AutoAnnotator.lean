-- SUMMARY: Annotation exports: samples collected from the store, their COCO and YOLO forms, and when the two say the same.
import NeuroPipeline.Central.StoreQueries
import NeuroPipeline.Lib.Dict

/-!
# Annotation exports

Model of analytics/auto_annotator.py over the queries of the store. Coordinates and
confidences are exact numbers, and the boxes of the YOLO form are taken before they are
rounded to text. A sample has the position of its event in the answer of the store as the
identifier of its image.
-/

open OrderDual (toDual)

/-! ## The store -/

/-- A detection of an event, as far as it is read. -/
structure BoxDetection where
  className : Option String := none
  confidence : Option ℚ := none
  xMin : Option ℚ := none
  yMin : Option ℚ := none
  xMax : Option ℚ := none
  yMax : Option ℚ := none

structure BoxEvent where
  timestamp : ℚ
  deviceId : String
  detections : List BoxDetection

/-- The store as the annotator meets it. -/
structure AnnotationStore where
  /-- what the connection sees -/
  rows : List StoreRow
  loads : String → List BoxDetection
  newestFirst : OrderBy fun e : BoxEvent => toDual e.timestamp
  /-- the attempts of `retry_sync` that raise -/
  raised : Nat → Bool := fun _ => false

namespace AnnotationStore

variable (s : AnnotationStore)

def events : List BoxEvent :=
  s.rows.filterMap fun
    | .detection timestamp _ _ _ detectionsJson _ _ deviceId =>
      some ⟨timestamp, deviceId, if detectionsJson = "" then [] else s.loads detectionsJson⟩
    | _ => none

/-- `query` without an end, which is the clock then. -/
def query (since : ℚ) (limit : Int) (deviceId : String) (now : ℚ) : Option (List BoxEvent) :=
  if ∃ n ∈ StoreReads.attempts, s.raised n = false then
    some (limited limit (s.newestFirst.sort (s.events.filter fun e =>
      since ≤ e.timestamp && e.timestamp ≤ now && StoreReads.ofDevice deviceId e.deviceId)))
  else none

end AnnotationStore

/-! ## Samples -/

structure SampleAnnotation where
  className : String
  classId : Nat
  confidence : ℚ
  xMin : ℚ
  yMin : ℚ
  xMax : ℚ
  yMax : ℚ

structure AnnotatedSample where
  imageId : Nat
  deviceId : String
  timestamp : ℚ
  width : Nat
  height : Nat
  annotations : List SampleAnnotation := []

structure AutoAnnotator where
  minConfidence : ℚ := 9 / 10
  width : Nat := 1920
  height : Nat := 1080
  classMap : Dict String Nat := ∅
  nextClassId : Nat := 0

/-- A call of `collect_samples`, with what it finds. -/
structure CollectCall where
  /-- what is stored at the time, if there is a store -/
  store : Option AnnotationStore
  deviceId : String := ""
  hours : ℚ := 24
  limit : Int := 500
  /-- the clock at the call, and at the query -/
  calledAt : ℚ
  readAt : ℚ

/-- The events that the call is given. -/
def CollectCall.answer (c : CollectCall) : Option (List BoxEvent) :=
  match c.store with
  | none => some []
  | some store => store.query (c.calledAt - c.hours * 3600) (c.limit * 2) c.deviceId c.readAt

namespace AutoAnnotator

variable (a : AutoAnnotator)

def getClassId (className : String) : Nat × AutoAnnotator :=
  match a.classMap.lookup className with
  | some classId => (classId, a)
  -- the table of classes is the annotator's own, so it outlives the collection
  | none =>
    (a.nextClassId,
      { a with
        classMap := Dict.set a.classMap className a.nextClassId
        nextClassId := a.nextClassId + 1 })

/-- The detections that the annotator trusts. -/
def highConf (minConfidence : ℚ) (evt : BoxEvent) : List BoxDetection :=
  evt.detections.filter fun d => minConfidence ≤ d.confidence.getD 0

/-- The loop over the trusted detections of an event. -/
def annotate : AutoAnnotator → List BoxDetection → List SampleAnnotation × AutoAnnotator
  | a, [] => ([], a)
  | a, d :: rest =>
    let className := d.className.getD "unknown"
    let numbered := a.getClassId className
    let labelled : SampleAnnotation :=
      ⟨className, numbered.1, d.confidence.getD 0, d.xMin.getD 0, d.yMin.getD 0, d.xMax.getD 0,
        d.yMax.getD 0⟩
    let later := annotate numbered.2 rest
    (labelled :: later.1, later.2)

/-- The loop over the events from position `idx`, with `n` samples so far. -/
def collectFrom (limit : Int) :
    AutoAnnotator → Nat → Nat → List BoxEvent → List AnnotatedSample × AutoAnnotator
  | a, _, _, [] => ([], a)
  | a, idx, n, evt :: rest =>
    -- an event without a sample has a position too
    if (highConf a.minConfidence evt).isEmpty then collectFrom limit a (idx + 1) n rest
    else
      let annotated := a.annotate (highConf a.minConfidence evt)
      let sample : AnnotatedSample :=
        ⟨idx, evt.deviceId, evt.timestamp, a.width, a.height, annotated.1⟩
      -- the limit is looked at behind each sample, never before the first
      if limit ≤ ((n + 1 : Nat) : Int) then ([sample], annotated.2)
      else
        let later := collectFrom limit annotated.2 (idx + 1) (n + 1) rest
        (sample :: later.1, later.2)

/-- `collect_samples`, unless the query raises. -/
def collectSamples (c : CollectCall) : Option (List AnnotatedSample × AutoAnnotator) :=
  c.answer.map (a.collectFrom c.limit 0 0)

/-- Several calls; one that raises gives nothing. -/
def collectAll : AutoAnnotator → List CollectCall → List (List AnnotatedSample) × AutoAnnotator
  | a, [] => ([], a)
  | a, c :: rest =>
    let collected := (a.collectSamples c).getD ([], a)
    let later := collectAll collected.2 rest
    (collected.1 :: later.1, later.2)

end AutoAnnotator

/-! ## Exports -/

structure CocoImage where
  id : Nat
  width : Nat
  height : Nat
  fileName : String

/-- Corner and size in pixels. -/
structure BBox where
  x : ℚ
  y : ℚ
  w : ℚ
  h : ℚ

structure CocoAnnotation where
  id : Nat
  imageId : Nat
  categoryId : Nat
  bbox : BBox
  area : ℚ
  iscrowd : Nat := 0

structure CocoCategory where
  id : Nat
  name : String

structure CocoDataset where
  images : List CocoImage
  annotations : List CocoAnnotation
  categories : List CocoCategory

/-- Centre and size as parts of the image. -/
structure YoloBox where
  classId : Nat
  cx : ℚ
  cy : ℚ
  w : ℚ
  h : ℚ

namespace AnnotatedSample

variable (s : AnnotatedSample)

def cocoImage : CocoImage := ⟨s.imageId, s.width, s.height, s!"{s.deviceId}_{s.imageId}.jpg"⟩

/-- Corner and size of an annotation in the image. -/
def bbox (a : SampleAnnotation) : BBox :=
  let xMin := a.xMin * s.width
  let yMin := a.yMin * s.height
  let xMax := a.xMax * s.width
  let yMax := a.yMax * s.height
  ⟨xMin, yMin, xMax - xMin, yMax - yMin⟩

def cocoAnnotation (annId : Nat) (a : SampleAnnotation) : CocoAnnotation :=
  { id := annId
    imageId := s.imageId
    categoryId := a.classId
    bbox := s.bbox a
    area := (s.bbox a).w * (s.bbox a).h }

def cocoAnnotations (annId : Nat) : List CocoAnnotation :=
  (s.annotations.zipIdx annId).map fun p => s.cocoAnnotation p.2 p.1

def yoloBoxes : List YoloBox :=
  s.annotations.map fun a =>
    ⟨a.classId, (a.xMin + a.xMax) / 2, (a.yMin + a.yMax) / 2, a.xMax - a.xMin, a.yMax - a.yMin⟩

end AnnotatedSample

namespace AutoAnnotator

variable (a : AutoAnnotator)

/-- The loop of `export_coco`, with the next identifier. -/
def cocoAnnotations : Nat → List AnnotatedSample → List CocoAnnotation
  | _, [] => []
  | annId, s :: rest => s.cocoAnnotations annId ++ cocoAnnotations (annId + s.annotations.length) rest

def exportCoco (samples : List AnnotatedSample) : CocoDataset where
  images := samples.map AnnotatedSample.cocoImage
  annotations := cocoAnnotations 1 samples
  categories := a.classMap.entries.map fun e => ⟨e.2, e.1⟩

/-- `export_yolo` before its lines are formatted. -/
def exportYolo (samples : List AnnotatedSample) : List (List YoloBox) :=
  samples.map AnnotatedSample.yoloBoxes

end AutoAnnotator

/-! ## The law -/

/-- Two coordinates in order within the image. -/
def UnitSegment (lo hi : ℚ) : Prop := 0 ≤ lo ∧ lo ≤ hi ∧ hi ≤ 1

/-- The corners are in order within the image, with what is read where nothing is stored. -/
structure BoxDetection.WellFormed (d : BoxDetection) : Prop where
  x : UnitSegment (d.xMin.getD 0) (d.xMax.getD 0)
  y : UnitSegment (d.yMin.getD 0) (d.yMax.getD 0)

def CollectCall.WellFormed (c : CollectCall) : Prop :=
  ∀ store ∈ c.store, ∀ evt ∈ store.events, ∀ d ∈ evt.detections, d.WellFormed

structure BBox.Inside (b : BBox) (image : CocoImage) : Prop where
  left : 0 ≤ b.x
  top : 0 ≤ b.y
  width : 0 ≤ b.w
  height : 0 ≤ b.h
  right : b.x + b.w ≤ image.width
  bottom : b.y + b.h ≤ image.height

/-- The box in the pixels of an image. -/
def YoloBox.inPixels (b : YoloBox) (image : CocoImage) : BBox :=
  ⟨(b.cx - b.w / 2) * image.width, (b.cy - b.h / 2) * image.height, b.w * image.width,
    b.h * image.height⟩

namespace AutoAnnotator

variable (a : AutoAnnotator)

/-- The COCO form is sound in itself and has the labelled boxes of the YOLO form. -/
structure Consistent (samples : List AnnotatedSample) : Prop where
  imageIds : ((a.exportCoco samples).images.map (·.id)).Nodup
  annotationIds : ((a.exportCoco samples).annotations.map (·.id)).Nodup
  image : ∀ ann ∈ (a.exportCoco samples).annotations,
    ∃ image ∈ (a.exportCoco samples).images, image.id = ann.imageId
  category : ∀ ann ∈ (a.exportCoco samples).annotations,
    ∃ category ∈ (a.exportCoco samples).categories, category.id = ann.categoryId
  inside : ∀ ann ∈ (a.exportCoco samples).annotations,
    ∀ image ∈ (a.exportCoco samples).images, image.id = ann.imageId → ann.bbox.Inside image
  grouped : (a.exportCoco samples).images.map (fun image =>
      ((a.exportCoco samples).annotations.filter (·.imageId = image.id)).map fun ann =>
        (ann.categoryId, ann.bbox)) =
    List.zipWith (fun image boxes => boxes.map fun b => (b.classId, b.inPixels image))
      (a.exportCoco samples).images (exportYolo samples)

/-- The positions of the events that a call makes samples of: those with a detection that
is trusted, up to the limit. -/
def positions (minConfidence : ℚ) (c : CollectCall) : List Nat :=
  ((c.answer.getD []).zipIdx.filter fun p => !(highConf minConfidence p.1).isEmpty).map (·.2)
    |>.take (max 1 c.limit).toNat

/-! ## Classes -/

variable {a : AutoAnnotator}

/-- Classes keep their numbers. -/
structure Grows (a a' : AutoAnnotator) : Prop where
  minConfidence : a'.minConfidence = a.minConfidence
  lookup : ∀ className classId, a.classMap.lookup className = some classId →
    a'.classMap.lookup className = some classId

theorem Grows.refl (a : AutoAnnotator) : a.Grows a := ⟨rfl, fun _ _ => id⟩

theorem Grows.trans {a' a'' : AutoAnnotator} (h : a.Grows a') (h' : a'.Grows a'') : a.Grows a'' :=
  ⟨h'.minConfidence.trans h.minConfidence, fun k v hk => h'.lookup k v (h.lookup k v hk)⟩

theorem grows_getClassId (a : AutoAnnotator) (className : String) :
    a.Grows (a.getClassId className).2 := by
  rw [getClassId]
  split
  · exact .refl a
  · next hnone =>
    refine ⟨rfl, fun k v hk => ?_⟩
    have hne : k ≠ className := by
      rintro rfl
      rw [hnone] at hk
      cases hk
    rw [Dict.lookup_set_of_ne hne, hk]

theorem lookup_getClassId (a : AutoAnnotator) (className : String) :
    (a.getClassId className).2.classMap.lookup className = some (a.getClassId className).1 := by
  rw [getClassId]
  split
  · next hsome => exact hsome
  · exact Dict.lookup_set_self

/-! ## Collections -/

/-- An annotation has its corners in order and the number of its class. -/
structure Sound (a : AutoAnnotator) (ann : SampleAnnotation) : Prop where
  x : UnitSegment ann.xMin ann.xMax
  y : UnitSegment ann.yMin ann.yMax
  classId : a.classMap.lookup ann.className = some ann.classId

theorem Sound.grows {a' : AutoAnnotator} {ann : SampleAnnotation} (h : a.Sound ann)
    (hgrows : a.Grows a') : a'.Sound ann :=
  ⟨h.x, h.y, hgrows.lookup _ _ h.classId⟩

theorem grows_annotate (a : AutoAnnotator) (ds : List BoxDetection) : a.Grows (a.annotate ds).2 := by
  induction ds generalizing a with
  | nil => exact .refl a
  | cons d ds ih => exact (grows_getClassId a _).trans (ih _)

theorem grows_collectFrom (limit : Int) (a : AutoAnnotator) (idx n : Nat) (events : List BoxEvent) :
    a.Grows (a.collectFrom limit idx n events).2 := by
  induction events generalizing a idx n with
  | nil => exact .refl a
  | cons evt events ih =>
    rw [collectFrom]
    split
    · exact ih a (idx + 1) n
    · split
      · exact grows_annotate a _
      · exact (grows_annotate a _).trans (ih _ _ _)

theorem grows_collectSamples (a : AutoAnnotator) (c : CollectCall) :
    a.Grows ((a.collectSamples c).getD ([], a)).2 := by
  rw [collectSamples]
  cases c.answer with
  | none => exact .refl a
  | some events => exact grows_collectFrom c.limit a 0 0 events

theorem grows_collectAll (a : AutoAnnotator) (calls : List CollectCall) :
    a.Grows (a.collectAll calls).2 := by
  induction calls generalizing a with
  | nil => exact .refl a
  | cons c calls ih => exact (a.grows_collectSamples c).trans (ih _)

theorem sound_annotate (a : AutoAnnotator) {ds : List BoxDetection}
    (hds : ∀ d ∈ ds, d.WellFormed) :
    ∀ ann ∈ (a.annotate ds).1, (a.annotate ds).2.Sound ann := by
  induction ds generalizing a with
  | nil => nofun
  | cons d ds ih =>
    obtain ⟨hd, hds⟩ := List.forall_mem_cons.mp hds
    refine List.forall_mem_cons.mpr ⟨⟨hd.x, hd.y, ?_⟩, ih _ hds⟩
    exact (grows_annotate _ ds).lookup _ _ (lookup_getClassId a _)

theorem sound_collectFrom (limit : Int) (a : AutoAnnotator) (idx n : Nat) {events : List BoxEvent}
    (hevents : ∀ evt ∈ events, ∀ d ∈ evt.detections, d.WellFormed) :
    ∀ s ∈ (a.collectFrom limit idx n events).1, ∀ ann ∈ s.annotations,
      (a.collectFrom limit idx n events).2.Sound ann := by
  induction events generalizing a idx n with
  | nil => nofun
  | cons evt events ih =>
    obtain ⟨hevt, hevents⟩ := List.forall_mem_cons.mp hevents
    rw [collectFrom]
    split
    · exact ih a (idx + 1) n hevents
    · have htrusted : ∀ d ∈ highConf a.minConfidence evt, d.WellFormed := fun d hd =>
        hevt d (List.mem_of_mem_filter hd)
      have hsound := a.sound_annotate htrusted
      split
      · exact List.forall_mem_singleton.mpr hsound
      · refine List.forall_mem_cons.mpr ⟨?_, ih _ _ _ hevents⟩
        exact fun ann hann => (hsound ann hann).grows (grows_collectFrom limit _ _ _ events)

/-- What the store answers is stored. -/
theorem wellFormed_of_answer {c : CollectCall} {events : List BoxEvent} (hc : c.WellFormed)
    (h : c.answer = some events) : ∀ evt ∈ events, ∀ d ∈ evt.detections, d.WellFormed := by
  rw [CollectCall.answer] at h
  split at h
  · obtain rfl := Option.some_inj.mp h
    nofun
  · next store hstore =>
    obtain ⟨-, h⟩ := Option.ite_none_right_eq_some.mp h
    obtain rfl := Option.some_inj.mp h
    intro evt hevt
    have hsorted := (limited_initial _ _).mem hevt
    have hstored := List.mem_of_mem_filter ((store.newestFirst.mem_sort).mp hsorted)
    exact hc store hstore evt hstored

theorem sound_collectAll (a : AutoAnnotator) {calls : List CollectCall}
    (hcalls : ∀ c ∈ calls, c.WellFormed) :
    ∀ s ∈ (a.collectAll calls).1.flatten, ∀ ann ∈ s.annotations,
      (a.collectAll calls).2.Sound ann := by
  induction calls generalizing a with
  | nil => nofun
  | cons c calls ih =>
    obtain ⟨hc, hcalls⟩ := List.forall_mem_cons.mp hcalls
    refine List.forall_mem_append.mpr ⟨fun s hs ann hann => ?_, ih _ hcalls⟩
    -- the later calls only add classes, so this call is looked at alone
    refine Sound.grows ?_ (grows_collectAll _ calls)
    revert s ann
    rw [collectSamples]
    cases hanswer : c.answer with
    | none => nofun
    | some events => exact sound_collectFrom c.limit a 0 0 (wellFormed_of_answer hc hanswer)

/-! ## Positions -/

/-- The images are numbered by the positions of their events. -/
theorem map_imageId_collectFrom (limit : Int) (a : AutoAnnotator) (idx : Nat) {n : Nat}
    (events : List BoxEvent) :
    (a.collectFrom limit idx n events).1.map (·.imageId) =
      (((events.zipIdx idx).filter fun p => !(highConf a.minConfidence p.1).isEmpty).map (·.2)).take
        (max 1 (limit - n)).toNat := by
  induction events generalizing a idx n with
  | nil => simp [collectFrom]
  | cons evt events ih =>
    rw [collectFrom, List.zipIdx_cons]
    split
    next hnone =>
      rw [ih a (idx + 1), List.filter_cons_of_neg (by simpa using hnone)]
    next hsome =>
      rw [List.filter_cons_of_pos (by simpa using hsome), List.map_cons]
      split
      next hlimit =>
        -- `max 1`: the sample that meets the limit is in, and so is the first one
        have hlast : (max 1 (limit - n)).toNat = 1 := by omega
        simp [hlast]
      next hmore =>
        have hnext : (max 1 (limit - n)).toNat = (max 1 (limit - (n + 1 : Nat))).toNat + 1 := by
          omega
        rw [hnext, List.take_succ_cons, List.map_cons, ih,
          (grows_annotate a _).minConfidence]

theorem map_imageId_collectAll (a : AutoAnnotator) (calls : List CollectCall) :
    (a.collectAll calls).1.map (fun samples => samples.map (·.imageId)) =
      calls.map (positions a.minConfidence) := by
  induction calls generalizing a with
  | nil => rfl
  | cons c calls ih =>
    have hids : ((a.collectSamples c).getD ([], a)).1.map (·.imageId) =
        positions a.minConfidence c := by
      rw [collectSamples, positions]
      cases c.answer with
      | none => simp
      | some events => simpa using map_imageId_collectFrom c.limit a 0 (n := 0) events
    rw [collectAll, List.map_cons, List.map_cons, ih, (a.grows_collectSamples c).minConfidence,
      hids]

theorem nodup_positions (minConfidence : ℚ) (c : CollectCall) : (positions minConfidence c).Nodup := by
  have hsub : (((c.answer.getD []).zipIdx.filter fun p =>
      !(highConf minConfidence p.1).isEmpty).map (·.2)).Sublist
        ((c.answer.getD []).zipIdx.map (·.2)) := List.filter_sublist.map _
  refine (List.Nodup.sublist hsub ?_).take
  rw [List.zipIdx_map_snd]
  exact List.nodup_range'

theorem nodup_imageIds_iff (a : AutoAnnotator) (calls : List CollectCall) :
    ((a.collectAll calls).1.flatten.map (·.imageId)).Nodup ↔
      (calls.map (positions a.minConfidence)).Pairwise List.Disjoint := by
  rw [List.map_flatten, map_imageId_collectAll, List.nodup_flatten]
  refine and_iff_right fun ids hids => ?_
  obtain ⟨c, -, rfl⟩ := List.mem_map.mp hids
  exact nodup_positions a.minConfidence c

/-! ## The COCO form -/

variable {samples : List AnnotatedSample} {s : AnnotatedSample}

theorem map_id_cocoAnnotations (annId : Nat) (samples : List AnnotatedSample) :
    (cocoAnnotations annId samples).map (·.id) =
      List.range' annId (samples.map (·.annotations.length)).sum := by
  induction samples generalizing annId with
  | nil => rfl
  | cons s samples ih =>
    have hids : (s.cocoAnnotations annId).map (·.id) = List.range' annId s.annotations.length := by
      simp [AnnotatedSample.cocoAnnotations, AnnotatedSample.cocoAnnotation, Function.comp_def,
        ← List.zipIdx_map_snd]
    rw [cocoAnnotations, List.map_append, hids, ih, List.map_cons, List.sum_cons,
      List.range'_append_1]

theorem mem_cocoAnnotations {annId : Nat} {ann : CocoAnnotation}
    (h : ann ∈ cocoAnnotations annId samples) :
    ∃ s ∈ samples, ∃ b ∈ s.annotations, ∃ id, ann = s.cocoAnnotation id b := by
  induction samples generalizing annId with
  | nil => cases h
  | cons s samples ih =>
    rcases List.mem_append.mp h with hhere | hlater
    · obtain ⟨⟨b, id⟩, hb, rfl⟩ := List.mem_map.mp hhere
      exact ⟨s, List.mem_cons_self, b, List.fst_mem_of_mem_zipIdx hb, id, rfl⟩
    · obtain ⟨s', hs', hann⟩ := ih hlater
      exact ⟨s', List.mem_cons_of_mem s hs', hann⟩

/-- The labelled boxes of an image are those of the samples with its identifier. -/
theorem boxes_of_image (annId imageId : Nat) (samples : List AnnotatedSample) :
    ((cocoAnnotations annId samples).filter (·.imageId = imageId)).map
        (fun ann => (ann.categoryId, ann.bbox)) =
      (samples.filter (·.imageId = imageId)).flatMap fun s =>
        s.annotations.map fun b => (b.classId, s.bbox b) := by
  induction samples generalizing annId with
  | nil => rfl
  | cons s samples ih =>
    have hown : ∀ ann ∈ s.cocoAnnotations annId, ann.imageId = s.imageId := by
      intro ann hann
      obtain ⟨p, -, rfl⟩ := List.mem_map.mp hann
      rfl
    have hboxes : (s.cocoAnnotations annId).map (fun ann => (ann.categoryId, ann.bbox)) =
        s.annotations.map fun b => (b.classId, s.bbox b) := by
      conv_rhs => rw [← List.zipIdx_map_fst annId s.annotations, List.map_map]
      rw [AnnotatedSample.cocoAnnotations, List.map_map]
      rfl
    rw [cocoAnnotations, List.filter_append, List.map_append, ih, List.filter_cons]
    by_cases himage : s.imageId = imageId
    · rw [List.filter_eq_self.mpr (by simpa [himage] using hown), hboxes]
      simp [himage]
    · rw [List.filter_eq_nil_iff.mpr (by simpa [himage] using fun ann hann => hown ann hann ▸ himage)]
      simp [himage]

/-- Where the images have different identifiers, one sample has that of `s`. -/
theorem filter_imageId (h : (samples.map (·.imageId)).Nodup) (hs : s ∈ samples) :
    samples.filter (·.imageId = s.imageId) = [s] := by
  obtain ⟨before, after, rfl⟩ := List.append_of_mem hs
  rw [List.map_append, List.map_cons, List.nodup_middle, List.nodup_cons, ← List.map_append] at h
  have hothers : ∀ s' ∈ before ++ after, s'.imageId ≠ s.imageId := fun s' hs' heq =>
    h.1 (heq ▸ List.mem_map_of_mem hs')
  obtain ⟨hbefore, hafter⟩ := List.forall_mem_append.mp hothers
  rw [List.filter_append, List.filter_cons_of_pos (by simp),
    List.filter_eq_nil_iff.mpr (by simpa using hbefore),
    List.filter_eq_nil_iff.mpr (by simpa using hafter), List.nil_append]

theorem bbox_eq_inPixels (b : SampleAnnotation) :
    s.bbox b = YoloBox.inPixels ⟨b.classId, (b.xMin + b.xMax) / 2, (b.yMin + b.yMax) / 2,
      b.xMax - b.xMin, b.yMax - b.yMin⟩ s.cocoImage := by
  simp only [AnnotatedSample.bbox, YoloBox.inPixels, AnnotatedSample.cocoImage, BBox.mk.injEq]
  refine ⟨?_, ?_, ?_, ?_⟩ <;> ring

theorem UnitSegment.scaled {lo hi size : ℚ} (h : UnitSegment lo hi) (hsize : 0 ≤ size) :
    0 ≤ lo * size ∧ 0 ≤ hi * size - lo * size ∧ lo * size + (hi * size - lo * size) ≤ size := by
  obtain ⟨hlo, horder, hhi⟩ := h
  have hle : lo * size ≤ hi * size := mul_le_mul_of_nonneg_right horder hsize
  have hwhole : hi * size ≤ size := mul_le_of_le_one_left hsize hhi
  refine ⟨mul_nonneg hlo hsize, sub_nonneg.mpr hle, ?_⟩
  rwa [add_sub_cancel]

theorem inside_cocoImage {b : SampleAnnotation} (h : a.Sound b) : (s.bbox b).Inside s.cocoImage := by
  obtain ⟨hleft, hwidth, hright⟩ := UnitSegment.scaled h.x (Nat.cast_nonneg s.width)
  obtain ⟨htop, hheight, hbottom⟩ := UnitSegment.scaled h.y (Nat.cast_nonneg s.height)
  exact ⟨hleft, htop, hwidth, hheight, hright, hbottom⟩

theorem consistent_of_nodup (hsound : ∀ s ∈ samples, ∀ b ∈ s.annotations, a.Sound b)
    (hnodup : (samples.map (·.imageId)).Nodup) : a.Consistent samples where
  imageIds := by simpa [exportCoco, AnnotatedSample.cocoImage, Function.comp_def] using hnodup
  annotationIds := by
    rw [exportCoco, map_id_cocoAnnotations]
    exact List.nodup_range'
  image ann hann := by
    obtain ⟨s, hs, b, -, id, rfl⟩ := mem_cocoAnnotations hann
    exact ⟨s.cocoImage, List.mem_map_of_mem hs, rfl⟩
  category ann hann := by
    obtain ⟨s, hs, b, hb, id, rfl⟩ := mem_cocoAnnotations hann
    have hentry := AList.mem_lookup_iff.mp (hsound s hs b hb).classId
    exact ⟨⟨b.classId, b.className⟩, List.mem_map_of_mem hentry, rfl⟩
  inside ann hann image himage heq := by
    obtain ⟨s, hs, b, hb, id, rfl⟩ := mem_cocoAnnotations hann
    obtain ⟨s', hs', rfl⟩ := List.mem_map.mp himage
    -- no other image has the identifier, and this one has the size of the sample
    obtain rfl : s' = s := List.inj_on_of_nodup_map hnodup hs' hs heq
    exact inside_cocoImage (hsound s' hs b hb)
  grouped := by
    simp only [exportCoco, exportYolo, List.map_map, List.zipWith_map, List.zipWith_self]
    apply List.map_congr_left
    intro s hs
    have hboxes := boxes_of_image 1 s.imageId samples
    rw [filter_imageId hnodup hs, List.flatMap_singleton] at hboxes
    refine hboxes.trans ?_
    simp [AnnotatedSample.yoloBoxes, bbox_eq_inPixels, Function.comp_def]

/-- Samples of any of the calls are exported consistently exactly when their images have
different identifiers. All samples together do when no two calls have a sample at one
position of the answers of the store. -/
theorem consistent_iff (a : AutoAnnotator) (calls : List CollectCall)
    (hcalls : ∀ c ∈ calls, c.WellFormed) :
    (∀ samples, samples ⊆ (a.collectAll calls).1.flatten →
        ((a.collectAll calls).2.Consistent samples ↔ (samples.map (·.imageId)).Nodup)) ∧
      ((a.collectAll calls).2.Consistent (a.collectAll calls).1.flatten ↔
        (calls.map (positions a.minConfidence)).Pairwise List.Disjoint) := by
  have hany : ∀ samples, samples ⊆ (a.collectAll calls).1.flatten →
      ((a.collectAll calls).2.Consistent samples ↔ (samples.map (·.imageId)).Nodup) := by
    intro samples hsamples
    -- whatever the samples are, nothing but the identifiers of their images goes wrong
    refine ⟨fun h => ?_, consistent_of_nodup fun s hs => a.sound_collectAll hcalls s (hsamples hs)⟩
    simpa [exportCoco, AnnotatedSample.cocoImage, Function.comp_def] using h.imageIds
  exact ⟨hany, (hany _ (List.Subset.refl _)).trans (a.nodup_imageIds_iff calls)⟩

/-! ## Two collections -/

/-- One event with a person in the left half of the image. -/
def oneEvent : AnnotationStore where
  rows := [.detection 100 none none "detection" "[...]" none none "edge-001"]
  loads _ := [{ className := some "person", confidence := some (95 / 100), xMin := some 0,
                yMin := some (1 / 4), xMax := some (1 / 2), yMax := some (3 / 4) }]
  newestFirst := .insertion _

def oneCall : CollectCall where
  store := some oneEvent
  calledAt := 200
  readAt := 200

theorem wellFormed_oneCall : oneCall.WellFormed := by
  intro store hstore evt hevt d hd
  obtain rfl := Option.some_inj.mp hstore
  obtain rfl := List.mem_singleton.mp hevt
  obtain rfl := List.mem_singleton.mp hd
  refine ⟨?_, ?_⟩ <;> norm_num [UnitSegment]

theorem consistent_iff_oneCall :
    ((({} : AutoAnnotator).collectAll [oneCall]).2.Consistent
        (({} : AutoAnnotator).collectAll [oneCall]).1.flatten) ∧
      (({} : AutoAnnotator).collectAll [oneCall]).1.flatten.length = 1 := by
  refine ⟨?_, by decide +kernel⟩
  have hcalls : ∀ c ∈ [oneCall], c.WellFormed := List.forall_mem_singleton.mpr wellFormed_oneCall
  exact (consistent_iff {} [oneCall] hcalls).2.mpr (List.pairwise_singleton _ _)

/-- What one event gives in two collections has one identifier. -/
theorem not_consistent_twice :
    ¬(({} : AutoAnnotator).collectAll [oneCall, oneCall]).2.Consistent
        (({} : AutoAnnotator).collectAll [oneCall, oneCall]).1.flatten := by
  intro h
  exact absurd h.imageIds (by decide +kernel)

end AutoAnnotator
