-- SUMMARY: The start of the edge program: the options of its command line, and the file that is merged over them.
import NeuroPipeline.Edge.ConfigManager

/-!
# Starting the edge

Model of `main` in edge_main.cpp up to the construction of the coordinator. Both passes
write to one record: first the arguments, then the values of the file.
-/

open CFloat (const)
open ConfigManager (joined)

namespace EdgeMain

/-! ## Configuration -/

structure GrpcConfig where
  enabled : Bool := false
  serverAddress : Text := "192.168.1.100:50051".toList
  cacheQueueMaxEntries : Nat := 1000
  cacheQueueMaxMemoryBytes : Nat := 64 * 1024 * 1024

structure RecordingConfig (F : Type) [CFloat F] where
  enabled : Bool := false
  preSeconds : F := const 10
  postSeconds : F := const 30
  outputDir : Text := "/opt/neuro-pipeline/recordings".toList
  fps : Nat := 30

structure ModelConfig where
  modelId : Text
  modelPath : Text
  postprocessor : Text := "yolov5".toList
  npuCore : Int := -1

structure CameraConfig where
  device : Text := "/dev/video0".toList
  width : Nat := 1920
  height : Nat := 1080
  fps : Nat := 30
  label : Text := []

def defaultModelPath : Text := "/opt/neuro-pipeline/models/yolov5s-640-640.rknn".toList

/-- The fields of `PipelineConfig` that `main` writes. The double ones only get values of
type float. -/
structure Config (F : Type) [CFloat F] where
  videoSource : Text := []
  cameraDevice : Text := "/dev/video0".toList
  deviceId : Text := "edge-001".toList
  width : Nat := 1920
  height : Nat := 1080
  fps : Nat := 30
  modelPath : Text := defaultModelPath
  npuCoreMask : Int := 0
  confidenceThreshold : F := const 0.5
  nmsThreshold : F := const 0.45
  maxFrames : Nat := 0
  dedupIouThreshold : F := const 0.5
  dedupTtlSeconds : F := const 2
  grpc : GrpcConfig := {}
  recording : RecordingConfig F := {}
  cameras : List CameraConfig := []
  models : List ModelConfig := []
  enableTemporalTracker : Bool := false
  enableAdaptiveFps : Bool := false
  enableMultiModel : Bool := false
  sendFrameData : Bool := false
  jpegQuality : Int := 70

/-! ## Arguments -/

/-- The options that set a field. -/
inductive CliOption where
  | video
  | model
  | width
  | height
  | maxFrames
  | device
  deriving DecidableEq

inductive Argument where
  | config
  | option (o : CliOption)
  deriving DecidableEq

def argumentOf (arg : Text) : Option Argument :=
  if arg = "-c".toList ∨ arg = "--config".toList then some .config
  else if arg = "-v".toList ∨ arg = "--video".toList then some (.option .video)
  else if arg = "-m".toList ∨ arg = "--model".toList then some (.option .model)
  else if arg = "-w".toList ∨ arg = "--width".toList then some (.option .width)
  else if arg = "-h".toList ∨ arg = "--height".toList then some (.option .height)
  else if arg = "-n".toList ∨ arg = "--max-frames".toList then some (.option .maxFrames)
  else if arg = "-d".toList ∨ arg = "--device".toList then some (.option .device)
  else none

/-- The ways in which `main` returns without a pipeline. -/
inductive Exit where
  | help
  | exception (e : StdException)

variable {F : Type} [CFloat F]

/-- The variables of the loop over the arguments. -/
structure Parsed (F : Type) [CFloat F] where
  config : Config F := {}
  configFile : Text := []

/-- A number of the command line, in a field of 32 bits. -/
def storeNumber (value : Text) (store : Nat → Config F) : Except Exit (Config F) :=
  match stoul (.ofList value) with
  | .ok n => .ok (store (n.value % 2 ^ 32))
  | .error e => .error (.exception e)

def Config.apply (c : Config F) (value : Text) : CliOption → Except Exit (Config F)
  | .video => .ok { c with videoSource := value }
  | .model => .ok { c with modelPath := value }
  | .width => storeNumber value fun n => { c with width := n }
  | .height => storeNumber value fun n => { c with height := n }
  | .maxFrames => storeNumber value fun n => { c with maxFrames := n }
  | .device => .ok { c with cameraDevice := value }

def Parsed.apply (p : Parsed F) (value : Text) : Argument → Except Exit (Parsed F)
  | .config => .ok { p with configFile := value }
  | .option o => (p.config.apply value o).map fun c => { p with config := c }

/-- The loop over the arguments; the last one has no value after it. -/
def parseArgs : List Text → Parsed F → Except Exit (Parsed F)
  | [], p => .ok p
  | [arg], p => if arg = "--help".toList then .error .help else .ok p
  | arg :: value :: rest, p =>
    match argumentOf arg with
    | some a => (p.apply value a).bind (parseArgs rest)
    | none => if arg = "--help".toList then .error .help else parseArgs (value :: rest) p

/-! ## File -/

def uint32 (n : Int) : Nat := (n % 2 ^ 32).toNat

def sizeT (n : Int) : Nat := (n % 2 ^ 64).toNat

/-- An unsigned field goes through `int` as the default value of the getter. -/
def getUint32 (cfg : ConfigManager) (key : Text) (field : Nat) : Nat :=
  uint32 (cfg.getInt key (int32 field))

/-- `list.i.name` -/
def itemKey (list : Text) (i : Nat) (name : Text) : Text :=
  joined (joined list (toString i).toList) name

def kMaxCameras : Nat := 8

def readCamera (cfg : ConfigManager) (config : Config F) (i : Nat) : CameraConfig :=
  let key (name : String) : Text := itemKey "cameras".toList i name.toList
  { device := cfg.get (key "device") "/dev/video0".toList
    width := getUint32 cfg (key "width") config.width
    height := getUint32 cfg (key "height") config.height
    fps := getUint32 cfg (key "fps") config.fps
    label := cfg.get (key "label") ("cam".toList ++ (toString i).toList) }

def readCameras (cfg : ConfigManager) (config : Config F) : List CameraConfig :=
  ((List.range kMaxCameras).takeWhile fun i =>
    cfg.has (itemKey "cameras".toList i "device".toList)).map (readCamera cfg config)

def readModel (cfg : ConfigManager) (i : Nat) : ModelConfig :=
  let key (name : String) : Text := itemKey "edge.models".toList i name.toList
  { modelId := cfg.get (key "model_id")
    modelPath := cfg.get (key "model_path")
    postprocessor := cfg.get (key "postprocessor") "yolov5".toList
    npuCore := cfg.getInt (key "npu_core") (-1) }

def readModels (cfg : ConfigManager) : List ModelConfig :=
  ((List.range 10).takeWhile fun i =>
    cfg.has (itemKey "edge.models".toList i "model_id".toList)).map (readModel cfg)

def GrpcConfig.merge (grpc : GrpcConfig) (cfg : ConfigManager) : GrpcConfig where
  enabled := cfg.getBool "edge.enable_grpc".toList grpc.enabled
  serverAddress := cfg.get "edge.grpc_server".toList grpc.serverAddress
  cacheQueueMaxEntries :=
    sizeT (cfg.getInt "edge.cache_queue.max_entries".toList (int32 grpc.cacheQueueMaxEntries))
  cacheQueueMaxMemoryBytes :=
    sizeT (cfg.getInt "edge.cache_queue.max_memory_mb".toList 64) * 1024 * 1024 % 2 ^ 64

variable [OfNumeral F]

def RecordingConfig.merge (recording : RecordingConfig F) (cfg : ConfigManager) :
    RecordingConfig F where
  enabled := cfg.getBool "edge.recording.enabled".toList recording.enabled
  preSeconds := cfg.getFloat "edge.recording.pre_seconds".toList recording.preSeconds
  postSeconds := cfg.getFloat "edge.recording.post_seconds".toList recording.postSeconds
  outputDir := cfg.get "edge.recording.output_dir".toList recording.outputDir
  fps := getUint32 cfg "edge.recording.fps".toList recording.fps

/-- The values of the file without the two lists. -/
def Config.mergeValues (c : Config F) (cfg : ConfigManager) : Config F where
  videoSource :=
    if c.videoSource.isEmpty then cfg.get "edge.video_source".toList else c.videoSource
  modelPath :=
    if c.modelPath = defaultModelPath then cfg.get "edge.model_path".toList c.modelPath
    else c.modelPath
  cameraDevice := cfg.get "edge.camera_device".toList c.cameraDevice
  width := getUint32 cfg "edge.width".toList c.width
  height := getUint32 cfg "edge.height".toList c.height
  fps := getUint32 cfg "edge.fps".toList c.fps
  npuCoreMask := cfg.getInt "edge.npu_core_mask".toList c.npuCoreMask
  confidenceThreshold := cfg.getFloat "edge.confidence_threshold".toList c.confidenceThreshold
  nmsThreshold := cfg.getFloat "edge.nms_threshold".toList c.nmsThreshold
  maxFrames := getUint32 cfg "edge.max_frames".toList c.maxFrames
  grpc := c.grpc.merge cfg
  deviceId := cfg.get "edge.device_id".toList c.deviceId
  dedupIouThreshold := cfg.getFloat "edge.dedup_iou_threshold".toList c.dedupIouThreshold
  dedupTtlSeconds := cfg.getFloat "edge.dedup_ttl_seconds".toList c.dedupTtlSeconds
  recording := c.recording.merge cfg
  enableTemporalTracker :=
    cfg.getBool "edge.enable_temporal_tracker".toList c.enableTemporalTracker
  enableAdaptiveFps := cfg.getBool "edge.enable_adaptive_fps".toList c.enableAdaptiveFps
  enableMultiModel := cfg.getBool "edge.enable_multi_model".toList c.enableMultiModel
  sendFrameData := cfg.getBool "edge.send_frame_data".toList c.sendFrameData
  jpegQuality := cfg.getInt "edge.jpeg_quality".toList c.jpegQuality
  cameras := c.cameras
  models := c.models

/-- What a loaded file changes. The cameras take their defaults from the merged values. -/
def Config.merge (c : Config F) (cfg : ConfigManager) : Config F :=
  let c := c.mergeValues cfg
  { c with cameras := c.cameras ++ readCameras cfg c, models := c.models ++ readModels cfg }

/-- `files` is what the files hold that can be opened. -/
def Parsed.load (p : Parsed F) (files : Text → Option Text) : Config F :=
  if p.configFile.isEmpty then p.config
  else
    match ConfigManager.loadFromFile {} (files p.configFile) with
    | (cfg, true) => p.config.merge cfg
    | (_, false) => p.config

/-- The configuration that the coordinator gets. -/
def startedWith (args : List Text) (files : Text → Option Text) : Except Exit (Config F) :=
  (parseArgs args {}).map fun p => p.load files

end EdgeMain
