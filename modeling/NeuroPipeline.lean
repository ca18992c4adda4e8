import NeuroPipeline.Lib.TransitionSystem
import NeuroPipeline.Lib.Custody
import NeuroPipeline.Edge.DetectionQueue
import NeuroPipeline.Edge.GrpcClient
import NeuroPipeline.Edge.Conservation
import NeuroPipeline.Edge.Delivery
import NeuroPipeline.Lib.BinaryFloat
import NeuroPipeline.Lib.CNumber
import NeuroPipeline.Lib.Fallible
import NeuroPipeline.Lib.Strto
import NeuroPipeline.Lib.StdSort
import NeuroPipeline.Edge.DetectionBox
import NeuroPipeline.Edge.DetectionCache
import NeuroPipeline.Edge.TemporalTracker
import NeuroPipeline.Edge.PostProcess
import NeuroPipeline.Proto.ControlCommand
import NeuroPipeline.Edge.Inference
import NeuroPipeline.Edge.PipelineCoordinator
import NeuroPipeline.Edge.CommandRobustness
import NeuroPipeline.Edge.Run
import NeuroPipeline.Edge.LoopClient
import NeuroPipeline.Edge.StoreAndForward
import NeuroPipeline.Edge.EventStream
import NeuroPipeline.Edge.Deduplication
import NeuroPipeline.Edge.TrackIds
import NeuroPipeline.Edge.Thresholds
import NeuroPipeline.Lib.Regex
import NeuroPipeline.Central.VlmConfigGuide
import NeuroPipeline.Integration.CommandFormat
import NeuroPipeline.Central.CommandRouting
import NeuroPipeline.Central.CircuitBreaker
import NeuroPipeline.Central.InferenceEngine
import NeuroPipeline.Central.VlmPipeline
import NeuroPipeline.Central.VlmWorker
import NeuroPipeline.Central.VlmBatching
import NeuroPipeline.Central.CommandDelivery
import NeuroPipeline.Proto.EdgeEvent
import NeuroPipeline.Edge.EdgeMetrics
import NeuroPipeline.Central.EdgeEvents
import NeuroPipeline.Integration.HealthReport
import NeuroPipeline.Edge.TrackerRuns
import NeuroPipeline.Lib.TokenBucket
import NeuroPipeline.Central.RateLimiter
import NeuroPipeline.Central.DeviceSessions
import NeuroPipeline.Central.DetectionStreams
import NeuroPipeline.Central.StreamSessions
import NeuroPipeline.Central.DeviceLimit
import NeuroPipeline.Central.DetectionAccounting
import NeuroPipeline.Central.VlmShutdown
import NeuroPipeline.Lib.Dict
import NeuroPipeline.Central.ModelRegistry
import NeuroPipeline.Central.ModelRollback
import NeuroPipeline.Central.AppConfig
import NeuroPipeline.Central.Alerting
import NeuroPipeline.Central.HotReload
import NeuroPipeline.Central.AlertRouting
import NeuroPipeline.Lib.Transaction
import NeuroPipeline.Central.StoreRecords
import NeuroPipeline.Lib.Cursor
import NeuroPipeline.Central.ConfigWatcher
import NeuroPipeline.Central.WatcherTables
import NeuroPipeline.Central.ConfigReentrancy
import NeuroPipeline.Central.ConfigDeliveries
import NeuroPipeline.Edge.CameraTracks
import NeuroPipeline.Edge.CameraView
import NeuroPipeline.Edge.MultiCamera
import NeuroPipeline.Lib.RoundRobin
import NeuroPipeline.Edge.CameraProgress
import NeuroPipeline.Edge.InputSource
import NeuroPipeline.Edge.VideoRecorder
import NeuroPipeline.Edge.FrameLoop
import NeuroPipeline.Edge.FrameOwnership
import NeuroPipeline.Edge.VideoFile
import NeuroPipeline.Integration.DashboardCommands
import NeuroPipeline.Edge.ConfigManager
import NeuroPipeline.Edge.ConfigTree
import NeuroPipeline.Edge.EdgeMain
import NeuroPipeline.Edge.CommandLine
import NeuroPipeline.Central.ConfigLoader
import NeuroPipeline.Central.ConfigSchema
import NeuroPipeline.Central.ConfigChecks
import NeuroPipeline.Central.ConfigSoundness
import NeuroPipeline.Edge.RknnEngine
import NeuroPipeline.Edge.ModelReload
import NeuroPipeline.Lib.Fairness
import NeuroPipeline.Edge.ThreadPool
import NeuroPipeline.Edge.TaskExecution
import NeuroPipeline.Central.EventBus
import NeuroPipeline.Central.EventDispatch
import NeuroPipeline.Edge.QueueHistory
import NeuroPipeline.Edge.QueueTermination
import NeuroPipeline.Edge.Overlap
import NeuroPipeline.Edge.CacheHistory
import NeuroPipeline.Lib.Greedy
import NeuroPipeline.Edge.Suppression
import NeuroPipeline.Edge.DecodedBoxes
import NeuroPipeline.Lib.CheckedInt
import NeuroPipeline.Edge.TensorIndices
import NeuroPipeline.Edge.DistributionIndices
import NeuroPipeline.Edge.ModelCascade
import NeuroPipeline.Edge.CascadeMapping
import NeuroPipeline.Edge.CascadeMerge
import NeuroPipeline.Central.PluginManager
import NeuroPipeline.Central.PluginLifecycle
import NeuroPipeline.Lib.Program
import NeuroPipeline.Central.VlmItemCode
import NeuroPipeline.Central.VlmAccounting
import NeuroPipeline.Lib.Truncation
import NeuroPipeline.Lib.Window
import NeuroPipeline.Lib.ByteRange
import NeuroPipeline.Edge.AdaptiveFps
import NeuroPipeline.Edge.ReconnectBackoff
import NeuroPipeline.Edge.Behaviors
import NeuroPipeline.Edge.RecorderHistory
import NeuroPipeline.Edge.ModelManager
import NeuroPipeline.Edge.ModelScheduler
import NeuroPipeline.Edge.MemoryPool
import NeuroPipeline.Edge.PoolHistory
import NeuroPipeline.Lib.Rounding
import NeuroPipeline.Edge.CascadeReads
import NeuroPipeline.Lib.LimitedQuery
import NeuroPipeline.Central.RateLimits
import NeuroPipeline.Central.StoreQueries
import NeuroPipeline.Central.BehaviorAnalyzer
import NeuroPipeline.Central.RagRetriever
import NeuroPipeline.Central.ReportGenerator
import NeuroPipeline.Central.AnomalyBaseline
import NeuroPipeline.Central.TimeSeriesEngine
import NeuroPipeline.Central.ReasoningChain
import NeuroPipeline.Lib.RegexCaptures
import NeuroPipeline.Central.SensitivityAdvice
import NeuroPipeline.Central.Recommendations
import NeuroPipeline.Central.ConfigDebounce
import NeuroPipeline.Edge.NpuScheduler
import NeuroPipeline.Edge.QuotedScalars
import NeuroPipeline.Central.RegionAdvice
import NeuroPipeline.Central.AlertCooldown
import NeuroPipeline.Lib.LeastSquares
import NeuroPipeline.Central.TrendLine
import NeuroPipeline.Central.AbTestManager
import NeuroPipeline.Central.ReidEngine
import NeuroPipeline.Central.AutoAnnotator
import NeuroPipeline.Integration.DashboardEvents
import NeuroPipeline.Integration.LiveBroadcast
import NeuroPipeline.Edge.DmaBufSim
import NeuroPipeline.Lib.CountedLoop
import NeuroPipeline.Lib.CheckedBuffer
import NeuroPipeline.Edge.RgaProcessor
import NeuroPipeline.Lib.Neon
import NeuroPipeline.Edge.NeonImageOps
import NeuroPipeline.Lib.Mailbox
import NeuroPipeline.Lib.Refinement
import NeuroPipeline.Central.OrchestratorBus
import NeuroPipeline.Lib.FormatString
import NeuroPipeline.Central.PromptGenerator
import NeuroPipeline.Central.DetectionProcessor
import NeuroPipeline.Lib.Tape
import NeuroPipeline.Edge.VirtualDeviceIo
import NeuroPipeline.Edge.ImageScaling
import NeuroPipeline.Lib.Dispersion
import NeuroPipeline.Central.AnomalyPoints
import NeuroPipeline.Lib.LazyGraph
import NeuroPipeline.Central.ServiceContainer
import NeuroPipeline.Edge.TrackIdentity
import NeuroPipeline.Lib.Pipe
import NeuroPipeline.Integration.DetectionTransport
import NeuroPipeline.Lib.Register
import NeuroPipeline.Edge.CommandedSettings
import NeuroPipeline.Integration.ControlTransport
import NeuroPipeline.Integration.ConfigValidation
import NeuroPipeline.Lib.BackupFile
import NeuroPipeline.Integration.DashboardConfig
