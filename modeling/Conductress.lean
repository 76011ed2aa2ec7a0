import Conductress.Lib.Table
import Conductress.Lib.Transition
import Conductress.Lib.Except
import Conductress.Base.Json
import Conductress.Base.Clock
import Conductress.Control.Schema
import Conductress.Control.Directory
import Conductress.Control.Database
import Conductress.Control.Admission
import Conductress.Control.Service
import Conductress.Control.CanaryScheduler
import Conductress.Control.Lifecycle
import Conductress.Control.InFlight
import Conductress.Control.History
import Conductress.Control.App
import Conductress.Control.Approval
import Conductress.Control.CanaryTick
import Conductress.Control.AuditChain
import Conductress.Control.Leases
import Conductress.Control.Idempotency
import Conductress.Control.Dashboard
import Conductress.Lib.Prog
import Conductress.Lib.Sql
import Conductress.Control.Migration
import Conductress.Control.DriftAnalyzer
import Conductress.Control.Canaries
import Conductress.Control.DataHost
import Conductress.Control.DriftSeries
import Conductress.Runner.Task
import Conductress.Runner.OutcomeSize
import Conductress.Runner.World
import Conductress.Runner.Mailbox
import Conductress.Runner.Standing
import Conductress.Runner.Invariant
import Conductress.Runner.Served
import Conductress.Runner.Contract
import Conductress.Runner.Requests
import Conductress.Runner.Delivery
import Conductress.Runner.Reconcile
import Conductress.Runner.Turn
import Conductress.Runner.Runs
import Conductress.Runner.Ownership
import Conductress.Runner.Execution
import Conductress.Runner.Settlement
import Conductress.Runner.Resume
import Conductress.Lib.Raising
import Conductress.Bench.CpuAllocator
import Conductress.Bench.TaskRun
import Conductress.Bench.RateSearch
import Conductress.Bench.Release
import Conductress.Bench.CpuPlacement
import Conductress.Bench.ProbeBudget
import Conductress.Stormgen.Resp
import Conductress.Stormgen.Workers
import Conductress.Stormgen.StallFirst
import Conductress.Stormgen.StormClient
import Conductress.Stormgen.StormConfig
import Conductress.Stormgen.StormSpec
import Conductress.Stormgen.StormOverlay
import Conductress.Stormgen.StormValues
import Conductress.Stormgen.StormReproduced
import Conductress.Queue.TaskDocument
import Conductress.Queue.Submission
import Conductress.Queue.QueueScan
import Conductress.Bench.BinaryCache
import Conductress.Sweep.StacksExport
import Conductress.Results.Groups
import Conductress.Sweep.Coordinator
import Conductress.Bench.CpuAllocations
import Conductress.Runner.Ladder
import Conductress.Control.CanarySchedule
import Conductress.Control.CanaryFreshness
import Conductress.Control.DriftWindow
import Conductress.Lib.ArgParse
import Conductress.Lib.Shell
import Conductress.Lib.LexText
import Conductress.Base.ClockOrder
import Conductress.Control.LeaseExpiry
import Conductress.Base.ClockText
import Conductress.Control.QueueOrder
import Conductress.Control.CancelFrame
import Conductress.Control.QuotaBound
import Conductress.Control.Calibration
import Conductress.Runner.SentBytes
import Conductress.Runner.TrimTask
import Conductress.Stormgen.RespChunks
import Conductress.Stormgen.RespCommand
import Conductress.Stormgen.Quiescence
import Conductress.Results.TailReader
import Conductress.Runner.DeliveryRecord
import Conductress.Results.TailLines
import Conductress.Results.MetricsFile
import Conductress.Lib.Script
import Conductress.Sweep.Populator
import Conductress.Queue.HostBinding
import Conductress.Sweep.StateFile
import Conductress.Base.CpuList
import Conductress.Sweep.ResetSeries
import Conductress.Bench.RunnerAffinity
import Conductress.Sweep.PerfMetrics
import Conductress.Base.CpuListRoundTrip
import Conductress.Bench.GeneratorPin
import Conductress.Stormgen.SlowLoop
import Conductress.Stormgen.ProbeRecovery
import Conductress.Bench.CrashWindow
import Conductress.Bench.AcceptErrors
import Conductress.Bench.BottleneckVerdict
import Conductress.Bench.ReadRateSearch
import Conductress.Sweep.SweepConfig
import Conductress.Stormgen.Probe
import Conductress.Stormgen.StallClamp
import Conductress.Results.MemorySamples
import Conductress.Results.MemoryFold
import Conductress.Control.Tokens
import Conductress.Control.RequestFrame
import Conductress.Sweep.Schedule
import Conductress.Bench.GeneratorProfiles
import Conductress.Bench.ReplicationSync
import Conductress.Sweep.PopulatedServer
import Conductress.Sweep.MemoryMeasure
import Conductress.Lib.Tally
import Conductress.Base.TextParts
import Conductress.Sweep.HeapBreakdown
import Conductress.Sweep.CpuBreakdown
import Conductress.Sweep.Annotations
import Conductress.Sweep.Manifests
