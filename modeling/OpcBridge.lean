import OpcBridge.Lib.Run
import OpcBridge.Lib.Closure
import OpcBridge.Core.Text
import OpcBridge.Core.Value
import OpcBridge.Core.Config
import OpcBridge.Core.Snapshot
import OpcBridge.Poll.Dependents
import OpcBridge.Poll.Readback
import OpcBridge.Poll.Read
import OpcBridge.Poll.Publish
import OpcBridge.Poll.Suspend
import OpcBridge.Poll.Derive
import OpcBridge.Logic.Dependencies
import OpcBridge.Logic.Config
import OpcBridge.Demand.Sources
import OpcBridge.Demand.Collect
import OpcBridge.Demand.Scheduler
import OpcBridge.Logic.Reload
import OpcBridge.Logic.Freshness
import OpcBridge.Lib.Arena
import OpcBridge.Ua.Bindings
import OpcBridge.Ua.Registry
import OpcBridge.Alarms.Engine
import OpcBridge.Logic.WriteQueue
import OpcBridge.Alarms.Effects
import OpcBridge.Alarms.Events
import OpcBridge.Alarms.Delay
import OpcBridge.Alarms.Replay
import OpcBridge.Alarms.Reload
import OpcBridge.Load.Build
import OpcBridge.Poll.Lanes
import OpcBridge.Lib.Assign
import OpcBridge.Load.Agree
import OpcBridge.Load.Reload
import OpcBridge.Alarms.Chains
import OpcBridge.Alarms.ChainInv
import OpcBridge.Alarms.ConfigFromRoot
import OpcBridge.Alarms.Configure
import OpcBridge.Alarms.Rules
import OpcBridge.Alarms.Loaders
import OpcBridge.Alarms.Typed
import OpcBridge.Alarms.LoadersAgree
import OpcBridge.Alarms.Mirror
import OpcBridge.Alarms.MirrorRun
import OpcBridge.Flow.Event
import OpcBridge.Flow.Node
import OpcBridge.Flow.NodeSpec
import OpcBridge.Flow.Worker
import OpcBridge.Flow.Isolation
import OpcBridge.Flow.Validate
import OpcBridge.Flow.Deployed
import OpcBridge.Lib.Worklist
import OpcBridge.Flow.Drain
import OpcBridge.Flow.Collections
import OpcBridge.Logger.Runs
import OpcBridge.Logger.Sync
import OpcBridge.Logger.SyncRun
import OpcBridge.Logger.Converge
import OpcBridge.Logger.Backfill
import OpcBridge.Logger.ChunksAgree
import OpcBridge.Logger.Lifecycle
import OpcBridge.Logger.LifecycleInv
import OpcBridge.Lib.History
import OpcBridge.Poll.Gate
import OpcBridge.Demand.Leases
import OpcBridge.Demand.SchedulerRun
import OpcBridge.Poll.ActiveSweep
import OpcBridge.Load.ConfigState
import OpcBridge.Load.TargetedReloads
import OpcBridge.Load.PendingChanges
import OpcBridge.Historian.Flush
import OpcBridge.Admin.Sessions
import OpcBridge.Admin.SessionRun
import OpcBridge.Admin.SessionLive
import OpcBridge.Load.ReloadRequests
import OpcBridge.Load.ReloadAnswers
import OpcBridge.Lib.Digits
import OpcBridge.Historian.Tiers
import OpcBridge.Historian.TiersAgree
import OpcBridge.Demand.Keys
import OpcBridge.Logger.JobTags
import OpcBridge.Logger.Demand
import OpcBridge.Historian.Config
import OpcBridge.Historian.Recording
import OpcBridge.Demand.Recorders
import OpcBridge.Alarms.Schedules
import OpcBridge.Alarms.Configured
import OpcBridge.Alarms.TargetOrder
import OpcBridge.Alarms.PolicyKept
import OpcBridge.Lib.Decimal
import OpcBridge.Core.Doubles
import OpcBridge.Flow.NumberText
import OpcBridge.Alarms.Templates
import OpcBridge.Alarms.Smtp
import OpcBridge.Flow.NodeRun
import OpcBridge.Flow.TriggerRun
import OpcBridge.Flow.RateLimitRun
import OpcBridge.Historian.ChangeOnly
import OpcBridge.Lib.Words
import OpcBridge.Flow.Bits
import OpcBridge.Flow.MathExpression
import OpcBridge.Flow.MathGrammar
import OpcBridge.Flow.MathReads
import OpcBridge.Flow.MathMeaning
import OpcBridge.Flow.ComputeCheck
import OpcBridge.Flow.EmailRun
import OpcBridge.Core.Scanf
import OpcBridge.Lib.Calendar
import OpcBridge.Lib.Visits
import OpcBridge.Logger.Schedule
import OpcBridge.Logger.Columns
import OpcBridge.Lib.Batches
import OpcBridge.Logger.LogTags
import OpcBridge.Logger.FreshRead
import OpcBridge.Logger.VerifiedInserts
import OpcBridge.Historian.Deadband
import OpcBridge.Historian.InsertBatch
import OpcBridge.Lib.FixedPoint
import OpcBridge.Logger.StoredNumbers
import OpcBridge.Lib.StepFunction
import OpcBridge.Core.WriterPriority
import OpcBridge.Historian.TimeWeighted
import OpcBridge.Historian.RangeParams
import OpcBridge.Poll.RemoteArrays
import OpcBridge.Write.WriteTag
import OpcBridge.Write.AliasText
import OpcBridge.Csv.Table
import OpcBridge.Lib.Rfc4180
import OpcBridge.Csv.Rendering
import OpcBridge.Admin.Passwords
import OpcBridge.Admin.PasswordsKept
import OpcBridge.Demand.Glob
import OpcBridge.Ua.NodeId
import OpcBridge.Poll.AsyncBatch
import OpcBridge.Poll.BatchAccount
import OpcBridge.Core.FloatBits
import OpcBridge.Lib.Accessors
import OpcBridge.Write.Handle
import OpcBridge.Write.RegisterLayout
import OpcBridge.Write.IntegerText
import OpcBridge.Write.DerivedBit
import OpcBridge.Write.PlcWrite
import OpcBridge.Write.AliasChain
import OpcBridge.Mqtt.Publish
import OpcBridge.Ua.WritePolicy
import OpcBridge.Csv.ImportRow
import OpcBridge.Csv.ImportTags
import OpcBridge.Poll.ConfiguredSweep
import OpcBridge.Poll.ModbusRecovery
import OpcBridge.Demand.Observations
import OpcBridge.Logic.FreshInput
import OpcBridge.Poll.IdleProbe
import OpcBridge.Hmi.AnimatorFrames
import OpcBridge.Demand.ViewerDemand
import OpcBridge.Hmi.TrendExpression
import OpcBridge.Hmi.TrendGrammar
import OpcBridge.Hmi.TrendReader
import OpcBridge.Hmi.TrendCache
import OpcBridge.Hmi.TrendRows
