-- SUMMARY: The command line against the file: which of the two decides each option at the start of the edge.
import NeuroPipeline.Edge.EdgeMain
import Mathlib.Logic.Function.Basic

/-!
# Options of the edge

`argumentValue` is what a command line gives for each option, `mergedFile` the file that
is merged over it. An option keeps its value where nothing of the merge takes its place.
-/

namespace EdgeMain

/-! ## Given options -/

/-- The options that an argument list gives, each with its value. -/
def given : List Text → List (Argument × Text)
  | [] => []
  | [_] => []
  | arg :: value :: rest =>
    match argumentOf arg with
    | some a => (a, value) :: given rest
    | none => given (value :: rest)

/-- Later values of an option take the place of earlier ones. -/
def record (l : List (Argument × Text)) (m : Argument → Option Text) : Argument → Option Text :=
  l.foldl (fun m p => Function.update m p.1 (some p.2)) m

/-- The value that an argument list gives for each option. -/
def argumentValue (args : List Text) : Argument → Option Text := record (given args) fun _ => none

inductive OptionValue where
  | text (t : Text)
  | number (n : Nat)
  deriving DecidableEq

def readNumber (text : Text) : Except StdException OptionValue :=
  (stoul (.ofList text)).map fun n => .number n.value

namespace CliOption

/-- What a user says with the text of an option. -/
def read (text : Text) : CliOption → Except StdException OptionValue
  | .video | .model | .device => .ok (.text text)
  | .width | .height | .maxFrames => readNumber text

/-- The key of the option in a file. -/
def key : CliOption → Text
  | .video => "edge.video_source".toList
  | .model => "edge.model_path".toList
  | .width => "edge.width".toList
  | .height => "edge.height".toList
  | .maxFrames => "edge.max_frames".toList
  | .device => "edge.camera_device".toList

end CliOption

/-! ## Values of the file -/

section File

variable (cfg : ConfigManager) (key : Text)

def fileText : Option Text := cfg.config.lookup key

def fileInt : Option Int :=
  (fileText cfg key).bind fun text =>
    match stoi (.ofList text) with
    | .ok n => some n.value
    | .error _ => none

variable {cfg key}

theorem get_eq (default : Text) : cfg.get key default = (fileText cfg key).getD default := rfl

theorem getInt_eq (default : Int) : cfg.getInt key default = (fileInt cfg key).getD default := by
  rw [ConfigManager.getInt, fileInt, fileText]
  cases cfg.config.lookup key with
  | none => rfl
  | some text =>
    simp only [Option.bind_some]
    cases stoi (.ofList text) with
    | ok n => rfl
    | error e => rfl

theorem fileInt_bounds {n : Int} (h : fileInt cfg key = some n) : -2 ^ 31 ≤ n ∧ n < 2 ^ 31 := by
  obtain ⟨text, -, h⟩ := Option.bind_eq_some_iff.mp h
  cases hn : stoi (.ofList text) with
  | error e =>
    rw [hn] at h
    cases h
  | ok c =>
    rw [hn] at h
    cases h
    exact stoi_bounds hn

theorem uint32_of_nonneg {n : Int} (h₀ : 0 ≤ n) (h : n < 2 ^ 31) : uint32 n = n.toNat := by
  have hmod : n % 2 ^ 32 = n := Int.emod_eq_of_lt h₀ (by omega)
  simp only [uint32, hmod]

theorem uint32_int32 {n : Nat} (h : n < 2 ^ 32) : uint32 (int32 n) = n := by
  have hmod : (int32 n) % 2 ^ 32 = n % 2 ^ 32 := Int.bmod_emod
  simp only [uint32, hmod]
  omega

theorem getUint32_eq {n : Nat} (h : n < 2 ^ 32) :
    getUint32 cfg key n = ((fileInt cfg key).map uint32).getD n := by
  rw [getUint32, getInt_eq]
  cases hfile : fileInt cfg key with
  | none =>
    rw [Option.getD_none, uint32_int32 h, Option.map_none, Option.getD_none]
  | some i => rw [Option.getD_some, Option.map_some, Option.getD_some]

/-- The values that an option can take from a file: any text, and any number from zero. -/
def fileValue (cfg : ConfigManager) (o : CliOption) : Option OptionValue :=
  match o with
  | .video | .model | .device => (fileText cfg o.key).map .text
  | .width | .height | .maxFrames =>
    ((fileInt cfg o.key).filter (0 ≤ ·)).map fun i => .number i.toNat

end File

/-! ## Arguments over the file -/

/-- What a path of a configuration file gives; no entries when there is no file. -/
def fileAt (path : Text) (files : Text → Option Text) : ConfigManager :=
  if path.isEmpty then {} else (ConfigManager.loadFromFile {} (files path)).1

/-- The file that is merged. -/
def mergedFile (args : List Text) (files : Text → Option Text) : ConfigManager :=
  fileAt ((argumentValue args .config).getD []) files

section

variable {F : Type} [CFloat F]

def Config.value (c : Config F) : CliOption → OptionValue
  | .video => .text c.videoSource
  | .model => .text c.modelPath
  | .width => .number c.width
  | .height => .number c.height
  | .maxFrames => .number c.maxFrames
  | .device => .text c.cameraDevice

/-- Every option that is given has its value, and every other one the value of the file. -/
def KeepsArguments (args : List Text) (files : Text → Option Text) (config : Config F) : Prop :=
  ∀ o, match argumentValue args (.option o) with
    | some text => o.read text = .ok (config.value o)
    | none => ∀ v ∈ fileValue (mergedFile args files) o, config.value o = v

end

/-- The number fits its field, and the file does not have another one. -/
def NumberSurvives (cfg : ConfigManager) (key text : Text) : Prop :=
  ∀ n, stoul (.ofList text) = .ok n →
    n.value < 2 ^ 32 ∧ ∀ i ∈ fileInt cfg key, uint32 i = n.value

/-- What is given for an option is not lost to the file. -/
def Survives (cfg : ConfigManager) (o : CliOption) (text : Text) : Prop :=
  match o with
  | .video => text ≠ [] ∨ cfg.get o.key = []
  | .model => text ≠ defaultModelPath ∨ ∀ path ∈ fileText cfg o.key, path = text
  | .device => ∀ path ∈ fileText cfg o.key, path = text
  | .width | .height | .maxFrames => NumberSurvives cfg o.key text

def ArgumentsSurvive (args : List Text) (files : Text → Option Text) : Prop :=
  ∀ o, ∀ text ∈ argumentValue args (.option o), Survives (mergedFile args files) o text

/-! ### After the arguments -/

section

variable {F : Type} [CFloat F] {c c' : Config F} {p p' : Parsed F} {o : CliOption} {text : Text}
  {m : Argument → Option Text}

/-- A field of 32 bits has the rest of a number. -/
def OptionValue.stored : OptionValue → OptionValue
  | .text t => .text t
  | .number n => .number (n % 2 ^ 32)

/-- `m` is what the arguments so far have given. -/
structure Stored (m : Argument → Option Text) (p : Parsed F) : Prop where
  configFile : p.configFile = (m .config).getD []
  stored : ∀ o, ∀ text ∈ m (.option o), ∃ v, o.read text = .ok v ∧ p.config.value o = v.stored
  untouched : ∀ o, m (.option o) = none → p.config.value o = ({} : Config F).value o

theorem storeNumber_ok {store : Nat → Config F} (h : storeNumber text store = .ok c') :
    ∃ n, readNumber text = .ok (.number n) ∧ c' = store (n % 2 ^ 32) := by
  rw [storeNumber] at h
  cases hn : stoul (.ofList text) with
  | ok n =>
    rw [hn] at h
    cases h
    exact ⟨n.value, by rw [readNumber, hn]; rfl, rfl⟩
  | error e =>
    rw [hn] at h
    cases h

theorem value_apply (h : c.apply text o = .ok c') :
    (∃ v, o.read text = .ok v ∧ c'.value o = v.stored) ∧ ∀ o' ≠ o, c'.value o' = c.value o' := by
  cases o
  case video | model | device =>
    cases h
    refine ⟨⟨_, rfl, rfl⟩, ?_⟩
    rintro (_ | _ | _ | _ | _ | _) hne <;> first | exact absurd rfl hne | rfl
  case width | height | maxFrames =>
    simp only [Config.apply] at h
    obtain ⟨n, hread, rfl⟩ := storeNumber_ok h
    refine ⟨⟨_, hread, rfl⟩, ?_⟩
    rintro (_ | _ | _ | _ | _ | _) hne <;> first | exact absurd rfl hne | rfl

theorem Stored.apply {a : Argument} (hm : Stored m p) (h : p.apply text a = .ok p') :
    Stored (Function.update m a (some text)) p' := by
  cases a with
  | config =>
    cases h
    refine ⟨by simp, fun o t ht => ?_, fun o ho => ?_⟩
    · rw [Function.update_of_ne (by simp)] at ht
      exact hm.stored o t ht
    · rw [Function.update_of_ne (by simp)] at ho
      exact hm.untouched o ho
  | option o =>
    simp only [Parsed.apply] at h
    cases hc : p.config.apply text o with
    | error e =>
      rw [hc] at h
      cases h
    | ok c =>
      rw [hc] at h
      cases h
      obtain ⟨hgiven, hother⟩ := value_apply hc
      refine ⟨?_, fun o' t ht => ?_, fun o' ho' => ?_⟩
      · rw [Function.update_of_ne (by simp)]
        exact hm.configFile
      · by_cases heq : o' = o
        · subst heq
          rw [Function.update_self] at ht
          cases ht
          exact hgiven
        · rw [Function.update_of_ne (by simpa using heq)] at ht
          rw [hother o' heq]
          exact hm.stored o' t ht
      · have heq : o' ≠ o := by
          rintro rfl
          rw [Function.update_self] at ho'
          cases ho'
        rw [Function.update_of_ne (by simpa using heq)] at ho'
        rw [hother o' heq]
        exact hm.untouched o' ho'

/-- Induction along the arguments. -/
theorem Stored.parseArgs {args : List Text} (hm : Stored m p) (h : parseArgs args p = .ok p') :
    Stored (record (given args) m) p' := by
  induction args using given.induct generalizing p m with
  | case1 =>
    cases h
    exact hm
  | case2 arg =>
    simp only [EdgeMain.parseArgs] at h
    split at h
    case isTrue => cases h
    case isFalse =>
      cases h
      exact hm
  | case3 arg value rest a ha ih =>
    simp only [EdgeMain.parseArgs, ha] at h
    cases hp : p.apply value a with
    | error e =>
      rw [hp] at h
      cases h
    | ok q =>
      rw [hp] at h
      rw [given, ha]
      exact ih (hm.apply hp) h
  | case4 arg value rest ha ih =>
    simp only [EdgeMain.parseArgs, ha] at h
    split at h
    case isTrue => cases h
    case isFalse =>
      rw [given, ha]
      exact ih hm h

end

/-! ### After the file -/

section

variable {F : Type} [CFloat F] [OfNumeral F] {c : Config F} {cfg : ConfigManager} {o : CliOption}

/-- What the file makes of the value of an option. -/
def CliOption.merged (cfg : ConfigManager) : CliOption → OptionValue → OptionValue
  | .video, .text t => .text (if t.isEmpty then cfg.get CliOption.video.key else t)
  | .model, .text t =>
    .text (if t = defaultModelPath then cfg.get CliOption.model.key t else t)
  | .device, .text t => .text (cfg.get CliOption.device.key t)
  | .width, .number n => .number (getUint32 cfg CliOption.width.key n)
  | .height, .number n => .number (getUint32 cfg CliOption.height.key n)
  | .maxFrames, .number n => .number (getUint32 cfg CliOption.maxFrames.key n)
  | _, v => v

theorem value_merge : (c.merge cfg).value o = o.merged cfg (c.value o) := by
  cases o <;> rfl

theorem getUint32_mod_eq_iff {key : Text} {n : Nat} :
    getUint32 cfg key (n % 2 ^ 32) = n ↔ n < 2 ^ 32 ∧ ∀ i ∈ fileInt cfg key, uint32 i = n := by
  have hmod : n % 2 ^ 32 < 2 ^ 32 := Nat.mod_lt _ (by omega)
  rw [getUint32_eq hmod]
  cases fileInt cfg key with
  | none => 
    rw [Option.map_none, Option.getD_none]
    constructor
    · intro h
      exact ⟨h ▸ hmod, by simp⟩
    · rintro ⟨h, -⟩
      exact Nat.mod_eq_of_lt h
  | some i =>
    rw [Option.map_some, Option.getD_some]
    have hfits : uint32 i < 2 ^ 32 := by
      rw [uint32]
      omega
    constructor
    · rintro rfl
      exact ⟨hfits, by simp⟩
    · rintro ⟨-, h⟩
      exact h i rfl

theorem merged_stored_number {key text : Text} {v : OptionValue} (h : readNumber text = .ok v)
    {merged : OptionValue → OptionValue}
    (hmerged : ∀ n, merged (.number n) = .number (getUint32 cfg key n)) :
    merged v.stored = v ↔ NumberSurvives cfg key text := by
  rw [readNumber] at h
  rw [NumberSurvives]
  cases hn : stoul (.ofList text) with
  | error e =>
    rw [hn] at h
    cases h
  | ok n =>
    rw [hn] at h
    cases h
    rw [OptionValue.stored, hmerged, OptionValue.number.injEq, getUint32_mod_eq_iff]
    constructor
    · rintro h _ ⟨⟩
      exact h
    · intro h
      exact h n rfl

/-- The value that is stored for an option stays what was given exactly if it survives. -/
theorem merged_stored_iff {text : Text} {v : OptionValue} (h : o.read text = .ok v) :
    o.merged cfg v.stored = v ↔ Survives cfg o text := by
  cases o
  case width | height | maxFrames => exact merged_stored_number h fun _ => rfl
  case video =>
    cases h
    rw [OptionValue.stored, CliOption.merged, OptionValue.text.injEq, ite_eq_right_iff,
      List.isEmpty_iff]
    constructor
    · intro h
      by_cases ht : text = []
      · exact .inr ((h ht).trans ht)
      · exact .inl ht
    · rintro (h | h) ht
      · exact absurd ht h
      · exact h.trans ht.symm
  case model =>
    cases h
    rw [OptionValue.stored, CliOption.merged, OptionValue.text.injEq, get_eq, ite_eq_right_iff,
      Survives, imp_iff_not_or]
    cases fileText cfg CliOption.model.key with
    | none => simp
    | some path => simp
  case device =>
    cases h
    rw [OptionValue.stored, CliOption.merged, OptionValue.text.injEq, get_eq, Survives]
    cases fileText cfg CliOption.device.key with
    | none => simp
    | some path => simp

omit [OfNumeral F] in
theorem default_fits {n : Nat} (h : ({} : Config F).value o = .number n) : n < 2 ^ 32 := by
  cases o
  case video | model | device => cases h
  case width => exact OptionValue.number.inj h ▸ (by decide : 1920 < 2 ^ 32)
  case height => exact OptionValue.number.inj h ▸ (by decide : 1080 < 2 ^ 32)
  case maxFrames => exact OptionValue.number.inj h ▸ (by decide : 0 < 2 ^ 32)

theorem merged_default_number {key : Text} {n : Nat} {v : OptionValue} (hn : n < 2 ^ 32)
    (h : v ∈ ((fileInt cfg key).filter (0 ≤ ·)).map fun i => OptionValue.number i.toNat) :
    OptionValue.number (getUint32 cfg key n) = v := by
  obtain ⟨i, hi, rfl⟩ := Option.map_eq_some_iff.mp h
  obtain ⟨hi, hpos⟩ := Option.filter_eq_some_iff.mp hi
  apply congrArg OptionValue.number
  rw [getUint32_eq hn, hi, Option.map_some, Option.getD_some]
  exact uint32_of_nonneg (of_decide_eq_true hpos) (fileInt_bounds hi).2

omit [OfNumeral F] in
/-- An option that is not given has the value of the file. -/
theorem merged_default {v : OptionValue} (h : v ∈ fileValue cfg o) :
    o.merged cfg (({} : Config F).value o) = v := by
  cases o
  case video | model | device =>
    obtain ⟨t, ht, rfl⟩ := Option.map_eq_some_iff.mp h
    apply congrArg OptionValue.text
    simp only [get_eq, ht, Option.getD_some, List.isEmpty_nil, if_true]
  case width => exact merged_default_number (default_fits (o := .width) rfl) h
  case height => exact merged_default_number (default_fits (o := .height) rfl) h
  case maxFrames => exact merged_default_number (default_fits (o := .maxFrames) rfl) h

/-- Without entries nothing changes. -/
theorem merged_empty {v : OptionValue} (h : ∀ n, v = .number n → n < 2 ^ 32) :
    o.merged {} v = v := by
  have hnone (key : Text) : fileInt {} key = none := rfl
  cases v with
  | text t =>
    cases o
    case video =>
      apply congrArg OptionValue.text
      rw [ite_eq_right_iff]
      intro hempty
      exact (List.isEmpty_iff.mp hempty).symm
    case model => exact congrArg OptionValue.text (ite_self t)
    all_goals rfl
  | number n =>
    cases o
    case width | height | maxFrames =>
      apply congrArg OptionValue.number
      rw [getUint32_eq (h n rfl), hnone, Option.map_none, Option.getD_none]
    all_goals rfl

omit [OfNumeral F] in
theorem Stored.fits {m : Argument → Option Text} {p : Parsed F} (hm : Stored m p) {n : Nat}
    (h : p.config.value o = .number n) : n < 2 ^ 32 := by
  cases ho : m (.option o) with
  | none => exact default_fits ((hm.untouched o ho).symm.trans h)
  | some text =>
    obtain ⟨v, -, hv⟩ := hm.stored o text ho
    cases v with
    | text t => cases hv.symm.trans h
    | number k =>
      cases hv.symm.trans h
      exact Nat.mod_lt _ (by omega)

omit [OfNumeral F] in
theorem stored_start : Stored (fun _ => none) ({} : Parsed F) where
  configFile := rfl
  stored := by rintro _ _ ⟨⟩
  untouched _ _ := rfl

theorem value_load {p : Parsed F} {files : Text → Option Text}
    (hfits : ∀ n, p.config.value o = .number n → n < 2 ^ 32) :
    (p.load files).value o = o.merged (fileAt p.configFile files) (p.config.value o) := by
  rw [Parsed.load, fileAt]
  by_cases hpath : p.configFile.isEmpty
  · rw [if_pos hpath, if_pos hpath, merged_empty hfits]
  · rw [if_neg hpath, if_neg hpath]
    cases files p.configFile with
    | none => exact (merged_empty hfits).symm
    | some content => exact value_merge

/-- The value of an option at the start is what the file makes of the stored one. -/
theorem value_startedWith {args : List Text} {files : Text → Option Text} {config : Config F}
    (h : startedWith args files = .ok config) :
    ∃ p : Parsed F, Stored (argumentValue args) p ∧
      ∀ o, config.value o = o.merged (mergedFile args files) (p.config.value o) := by
  cases hp : parseArgs args ({} : Parsed F) with
  | error e =>
    rw [startedWith, hp] at h
    cases h
  | ok p =>
    rw [startedWith, hp] at h
    cases h
    have hm : Stored (argumentValue args) p := stored_start.parseArgs hp
    refine ⟨p, hm, fun o => ?_⟩
    rw [mergedFile, ← hm.configFile]
    exact value_load fun _ => hm.fits

end

/-! ## Main result -/

variable {F : Type} [CFloat F] [OfNumeral F]

/-- The edge starts with the given values exactly if they survive the merge. -/
theorem keepsArguments_iff_argumentsSurvive (args : List Text) (files : Text → Option Text)
    (config : Config F) (h : startedWith args files = .ok config) :
    KeepsArguments args files config ↔ ArgumentsSurvive args files := by
  obtain ⟨p, hm, hvalue⟩ := value_startedWith h
  have hstep (o : CliOption) : (match argumentValue args (.option o) with
      | some text => o.read text = .ok (config.value o)
      | none => ∀ v ∈ fileValue (mergedFile args files) o, config.value o = v) ↔
      ∀ text ∈ argumentValue args (.option o), Survives (mergedFile args files) o text := by
    rw [hvalue]
    cases ho : argumentValue args (.option o) with
    | none =>
      have hfile : ∀ v ∈ fileValue (mergedFile args files) o,
          o.merged (mergedFile args files) (p.config.value o) = v := by
        intro v hv
        rw [hm.untouched o ho]
        exact merged_default hv
      exact iff_of_true hfile (by simp)
    | some text =>
      obtain ⟨v, hread, hv⟩ := hm.stored o text ho
      simp only [hread, Except.ok.injEq, hv, Option.mem_def, Option.some.injEq, forall_eq']
      rw [← merged_stored_iff hread, eq_comm]
  exact forall_congr' hstep

/-! ### Two starts -/

def wideFile (path : Text) : Option Text :=
  if path = "edge.yaml".toList then some "edge:\n  width: 1280\n".toList else none

def deviceArgs : List Text := ["-d", "/dev/video1", "-c", "edge.yaml"].map String.toList

def widthArgs : List Text := ["-w", "640", "-c", "edge.yaml"].map String.toList

theorem argumentsSurvive_deviceArgs : ArgumentsSurvive deviceArgs wideFile := by
  have hfile : fileText (mergedFile deviceArgs wideFile) CliOption.device.key = none := by
    decide +kernel
  intro o text htext
  cases o
  case device => simp [Survives, hfile]
  all_goals cases htext

theorem keepsArguments_iff_deviceArgs : ∃ config : Config Binary32,
    startedWith deviceArgs wideFile = .ok config ∧ config.width = 1280 ∧
      KeepsArguments deviceArgs wideFile config :=
  ⟨_, rfl, by decide +kernel,
    (keepsArguments_iff_argumentsSurvive deviceArgs wideFile _ rfl).mpr
      argumentsSurvive_deviceArgs⟩

/-- The width of the file takes the place of the one that is given. -/
theorem not_keepsArguments_widthArgs : ∃ config : Config Binary32,
    startedWith widthArgs wideFile = .ok config ∧ config.width = 1280 ∧
      ¬ KeepsArguments widthArgs wideFile config := by
  refine ⟨_, rfl, by decide +kernel, fun hkeeps => ?_⟩
  have hread : CliOption.width.read "640".toList = .ok (.number 1280) := hkeeps .width
  have hnumber : CliOption.width.read "640".toList = .ok (.number 640) := by decide +kernel
  cases hread.symm.trans hnumber

end EdgeMain
