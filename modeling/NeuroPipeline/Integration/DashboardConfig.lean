-- SUMMARY: The configuration file behind the dashboard: what it can hold over any run of requests, and exactly when the last whole document is never lost.
import NeuroPipeline.Integration.ConfigValidation
import NeuroPipeline.Lib.BackupFile
import NeuroPipeline.Lib.Refinement

/-!
# Configuration of the dashboard

Model of routers/v2/config.py. A request checks the document, copies the file to its backup and
writes it again; none of the handlers waits, so each request is one step. The file holds the
document that is read from it.
-/

open Validators (validateConfig complaint Unchecked)

structure ConfigRoutes where
  files : BackupFile Json
  /-- the documents that were in the file at the calls of `force_reload` -/
  reloads : List Json := []

inductive ConfigAct where
  /-- `api_v2_config`, where `yaml.safe_load` makes `parsed` of a torn file -/
  | get (parsed : Option Json)
  /-- `api_v2_config_update` with `body.get("config")` -/
  | update (config : Json) (copy write : WriteEnd)
  /-- `api_v2_config_dry_run` -/
  | dryRun (config : Json)
  /-- somebody else writes the file -/
  | edit (document : Json)
  | remove

inductive ConfigAnswer where
  /-- an HTTP error -/
  | httpException (statusCode : Nat) (detail : String)
  /-- an exception of the handler -/
  | raised
  /-- the document of the file -/
  | document (config : Json)
  /-- `success` is false, with the errors of the validation -/
  | invalid (errors : List String)
  /-- `success` is false, with the text of an exception -/
  | failed
  /-- `success` is true -/
  | updated
  /-- `valid`, and the errors -/
  | validated (valid : Bool) (errors : List String)
  /-- no request -/
  | none

namespace ConfigRoutes

variable (path : String) (s : ConfigRoutes)

def notFound : ConfigAnswer := .httpException 404 s!"Config file not found: {path}"

def missingConfig : ConfigAnswer := .httpException 400 "Missing config in body"

def isNull : Json → Bool
  | .null => true
  | _ => false

def apiV2Config (parsed : Option Json) : ConfigAnswer :=
  match s.files.file with
  | .missing => notFound path
  | .torn => parsed.elim .raised .document
  | .holds config => .document config

/-- An error of the copying is raised, one of the writing is answered. -/
def writeConfig (config : Json) (copy write : WriteEnd) : ConfigAnswer × ConfigRoutes :=
  let files := s.files.save config copy write
  if copy = .done then
    if write = .done then (.updated, { files, reloads := s.reloads ++ [config] })
    else (.failed, { s with files })
  else (.raised, { s with files })

def apiV2ConfigUpdate (config : Json) (copy write : WriteEnd) : ConfigAnswer × ConfigRoutes :=
  if s.files.file.isMissing then (notFound path, s)
  else if isNull config then (missingConfig, s)
  else
    match validateConfig config with
    | .error _ => (.raised, s)
    | .ok [] => s.writeConfig config copy write
    | .ok errors => (.invalid errors, s)

def apiV2ConfigDryRun (config : Json) : ConfigAnswer :=
  if isNull config then missingConfig
  else
    match validateConfig config with
    | .error _ => .raised
    | .ok errors => .validated errors.isEmpty errors

/-- What a request is answered, and what it leaves. -/
def handle : ConfigAct → ConfigAnswer × ConfigRoutes
  | .get parsed => (s.apiV2Config path parsed, s)
  | .update config copy write => s.apiV2ConfigUpdate path config copy write
  | .dryRun config => (apiV2ConfigDryRun config, s)
  | .edit document => (.none, { s with files := s.files.edit document })
  | .remove => (.none, { s with files := s.files.remove })

end ConfigRoutes

def configSystem (path : String) : TransitionSystem ConfigRoutes ConfigAct where
  init s := s.files.file = .holds s.files.good ∧ s.reloads = []
  step s l := some (s.handle path l).2

namespace ConfigRoutes

variable {path : String} {s s' s₀ : ConfigRoutes} {l : ConfigAct} {config : Json}
  {copy write : WriteEnd} {t : List (ConfigRoutes × ConfigAct)}

/-! ## Steps -/

/-- A document that an update writes. -/
def Writes (s : ConfigRoutes) (config : Json) : Prop :=
  s.files.file.isMissing = false ∧ validateConfig config = .ok []

instance : Decidable (s.Writes config) :=
  inferInstanceAs (Decidable (s.files.file.isMissing = false ∧ validateConfig config = .ok []))

theorem not_isNull_of_accepted (h : validateConfig config = .ok []) : isNull config = false := by
  cases config with
  | null => cases h
  | bool | int | float | str | list | dict => rfl

theorem apiV2ConfigUpdate_of_writes (h : s.Writes config) :
    s.apiV2ConfigUpdate path config copy write = s.writeConfig config copy write := by
  rw [apiV2ConfigUpdate, h.1, not_isNull_of_accepted h.2, h.2]
  rfl

theorem apiV2ConfigDryRun_iff :
    apiV2ConfigDryRun config = .validated true [] ↔ validateConfig config = .ok [] := by
  constructor
  · intro h
    rw [apiV2ConfigDryRun] at h
    split at h
    · cases h
    · split at h
      · cases h
      · next hvalid =>
        obtain ⟨-, rfl⟩ := ConfigAnswer.validated.inj h
        exact hvalid
  · intro h
    rw [apiV2ConfigDryRun, not_isNull_of_accepted h, h]
    rfl

/-- A request that is refused changes nothing. -/
theorem apiV2ConfigUpdate_of_not_writes (h : ¬ s.Writes config) :
    (s.apiV2ConfigUpdate path config copy write).1 ≠ .updated ∧
      (s.apiV2ConfigUpdate path config copy write).2 = s := by
  rw [apiV2ConfigUpdate]
  split
  · exact ⟨by rintro ⟨⟩, rfl⟩
  · next hthere =>
    split
    · exact ⟨by rintro ⟨⟩, rfl⟩
    · split
      · exact ⟨by rintro ⟨⟩, rfl⟩
      · next hvalid => exact absurd ⟨Bool.eq_false_iff.mpr hthere, hvalid⟩ h
      · exact ⟨by rintro ⟨⟩, rfl⟩

/-- Success is answered exactly where the document was copied and written. -/
theorem apiV2ConfigUpdate_updated_iff :
    (s.apiV2ConfigUpdate path config copy write).1 = .updated ↔
      s.Writes config ∧ copy = .done ∧ write = .done := by
  by_cases h : s.Writes config
  · rw [apiV2ConfigUpdate_of_writes h, writeConfig]
    by_cases hcopy : copy = .done
    · by_cases hwrite : write = .done <;> simp [h, hcopy, hwrite]
    · simp [hcopy]
  · exact iff_of_false (apiV2ConfigUpdate_of_not_writes h).1 fun hall => h hall.1

theorem files_writeConfig :
    (s.writeConfig config copy write).2.files = s.files.save config copy write := by
  rw [writeConfig]
  split
  · split <;> rfl
  · rfl

/-- What a step does to the files. -/
def saved (s : ConfigRoutes) : ConfigAct → Option (SaveAct Json)
  | .update config copy write =>
    if s.Writes config then some (.save config copy write) else Option.none
  | .edit document => some (.edit document)
  | .remove => some .remove
  | .get _ | .dryRun _ => Option.none

theorem projects_files :
    (configSystem path).Projects (backupSystem Json) ConfigRoutes.files saved := by
  intro s l s' hs
  obtain rfl := Option.some_inj.mp hs
  cases l with
  | update config copy write =>
      by_cases h : s.Writes config
      · have hstep : (backupSystem Json).step s.files (.save config copy write) =
            some (s.files.save config copy write) := if_neg (by simp [h.1])
        simpa [saved, h, handle, apiV2ConfigUpdate_of_writes, files_writeConfig] using hstep
      · simpa [saved, h, handle] using congrArg files (apiV2ConfigUpdate_of_not_writes h).2
  | edit document => rfl
  | remove => rfl
  | get parsed => rfl
  | dryRun config => rfl

/-! ## The last whole document -/

/-- An update that is written does not find the file torn, or cannot copy it, or writes it as a
whole; and the file is not removed unless it is in the backup. -/
def KeepsLast (s : ConfigRoutes) : ConfigAct → Prop
  | .update config copy write => s.Writes config →
    s.files.file = .holds s.files.good ∨ copy = .refused ∨ copy = .done ∧ write.isWhole
  | .remove => s.files.backup = .holds s.files.good
  | .get _ | .dryRun _ | .edit _ => True

theorem keepsLast_iff : s.KeepsLast l ↔ ∀ a, saved s l = some a → s.files.Keeps a := by
  cases l with
  | update config copy write =>
      by_cases h : s.Writes config <;> simp [KeepsLast, saved, h, BackupFile.Keeps]
  | edit document => simp [KeepsLast, saved, BackupFile.Keeps]
  | remove => simp [KeepsLast, saved, BackupFile.Keeps]
  | get | dryRun => simp [KeepsLast, saved]

theorem recoverable_iff (hinit : (configSystem path).init s₀)
    (hrun : (configSystem path).Run s₀ t s) :
    TransitionSystem.Throughout (·.files.Recoverable) t s ↔
      TransitionSystem.Respects KeepsLast t := by
  rw [hrun.throughout_project projects_files,
    BackupFile.recoverable_iff_keeps hinit.1 (hrun.project projects_files),
    TransitionSystem.respects_projectTrace]
  exact forall₂_congr fun _ _ => keepsLast_iff.symm

/-! ## What is in the file -/

/-- A document that was there, that somebody else wrote, or that the validation accepts. -/
def Offered (s₀ : ConfigRoutes) (t : List (ConfigRoutes × ConfigAct)) (config : Json) : Prop :=
  config = s₀.files.good ∨ .edit config ∈ t.map Prod.snd ∨ validateConfig config = .ok []

theorem Offered.snoc (h : Offered s₀ t config) : Offered s₀ (t ++ [(s, l)]) config := by
  refine h.imp_right (Or.imp_left fun hmem => ?_)
  rw [List.map_append]
  exact List.mem_append_left _ hmem

theorem offered_of_run (hinit : (configSystem path).init s₀)
    (hrun : (configSystem path).Run s₀ t s) :
    s.files.file = .holds config → Offered s₀ t config := by
  induction hrun with
  | nil =>
      intro h
      rw [hinit.1] at h
      cases h
      exact .inl rfl
  | @snoc t s s' l _ hs ih =>
      obtain rfl := Option.some_inj.mp hs
      intro h
      cases l with
      | update config' copy write =>
          by_cases hwrites : s.Writes config'
          · rw [handle, apiV2ConfigUpdate_of_writes hwrites, files_writeConfig] at h
            rcases BackupFile.holds_of_save h with hkept | rfl
            · exact (ih hkept).snoc
            · exact .inr (.inr hwrites.2)
          · rw [handle, (apiV2ConfigUpdate_of_not_writes hwrites).2] at h
            exact (ih h).snoc
      | edit document =>
          cases h
          exact .inr (.inl (by simp))
      | remove => cases h
      | get | dryRun => exact (ih h).snoc

/-- The watcher is told of accepted documents only. -/
theorem reloads_accepted (hinit : (configSystem path).init s₀)
    (hrun : (configSystem path).Run s₀ t s) :
    ∀ config ∈ s.reloads, validateConfig config = .ok [] := by
  refine hrun.invariant (I := fun s => ∀ config ∈ s.reloads, validateConfig config = .ok [])
    (fun s l s' h hs => ?_) (by simp [hinit.2])
  obtain rfl := Option.some_inj.mp hs
  cases l with
  | update config' copy write =>
      by_cases hwrites : s.Writes config'
      · rw [handle, apiV2ConfigUpdate_of_writes hwrites, writeConfig]
        split
        · split
          · exact List.forall_mem_append.mpr ⟨h, List.forall_mem_singleton.mpr hwrites.2⟩
          · exact h
        · exact h
      · rw [handle, (apiV2ConfigUpdate_of_not_writes hwrites).2]
        exact h
  | edit | remove | get | dryRun => exact h

theorem unchecked_of_accepted (h : validateConfig config = .ok []) {env : ConfigLoader.Environment}
    {field : String} (hcomplaint : complaint env config.toYaml = some field) : Unchecked field := by
  obtain ⟨items, rfl, hitems⟩ := Validators.validateConfig_eq_nil_iff.mp h
  exact hitems.complaint_unchecked hcomplaint

/-- Over any run of requests the last whole document of the configuration is in the file or in its
backup exactly when no update copies a torn file that it does not then write as a whole. What the
file holds was there, was written by somebody else, or is such that the loader complains at most of
a field that the dashboard does not check; the watcher is only told of the latter. -/
theorem config_kept (hinit : (configSystem path).init s₀)
    (hrun : (configSystem path).Run s₀ t s) :
    (TransitionSystem.Throughout (·.files.Recoverable) t s ↔
      TransitionSystem.Respects KeepsLast t) ∧
    (∀ config, s.files.file = .holds config →
      config = s₀.files.good ∨ .edit config ∈ t.map Prod.snd ∨
        ∀ env field, complaint env config.toYaml = some field → Unchecked field) ∧
    ∀ config ∈ s.reloads, ∀ env field,
      complaint env config.toYaml = some field → Unchecked field := by
  refine ⟨recoverable_iff hinit hrun, fun config h => ?_, fun config hmem _ _ hcomplaint => ?_⟩
  · rcases offered_of_run hinit hrun h with hgood | hedit | haccepted
    · exact .inl hgood
    · exact .inr (.inl hedit)
    · exact .inr (.inr fun _ _ hcomplaint => unchecked_of_accepted haccepted hcomplaint)
  · exact unchecked_of_accepted (reloads_accepted hinit hrun config hmem) hcomplaint

/-! ### A document that is lost -/

def shortConfig : Json := .dict [("edge", .dict []), ("central", .dict [])]

def portConfig : Json := .dict [("edge", .dict []), ("central", .dict [("port", .int 8080)])]

def freshRoutes : ConfigRoutes where
  files := { file := .holds shortConfig, backup := .missing, good := shortConfig }

/-- The second update copies what the first has left. -/
def tornTwice : List ConfigAct := [.update portConfig .done .torn, .update portConfig .done .torn]

def bothTorn (files : BackupFile Json) : Bool :=
  match files.file, files.backup with
  | .torn, .torn => true
  | _, _ => false

theorem not_recoverable_of_bothTorn {files : BackupFile Json} (h : bothTorn files = true) :
    ¬ files.Recoverable := by
  rw [bothTorn] at h
  split at h
  · next hfile hbackup => simp [BackupFile.Recoverable, hfile, hbackup]
  · cases h

theorem config_kept_tornTwice : ∃ t s, (configSystem "config.yaml").Run freshRoutes t s ∧
    t.map Prod.snd = tornTwice ∧ ¬ TransitionSystem.Respects KeepsLast t := by
  have hview : ((configSystem "config.yaml").execTrace freshRoutes tornTwice).map
      (fun r => bothTorn r.2.files) = some true := by decide +kernel
  obtain ⟨t, s, hrun, hlabels, hend⟩ := TransitionSystem.exists_run_of_execTrace hview
  refine ⟨t, s, hrun, hlabels, fun hkeeps => ?_⟩
  have hrecoverable := ((config_kept ⟨rfl, rfl⟩ hrun).1.mpr hkeeps).2
  exact not_recoverable_of_bothTorn hend hrecoverable

end ConfigRoutes
