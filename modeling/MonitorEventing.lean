import MonitorEventing.Basic
import MonitorEventing.Lib.MixedRadix
import MonitorEventing.DeviceId.PatternIndex
import MonitorEventing.DeviceId.Syntax
import MonitorEventing.DeviceId.InputDomain
import MonitorEventing.DeviceId.Pattern
import MonitorEventing.DeviceId.Domain
import MonitorEventing.DeviceId.Grammar
import MonitorEventing.Accessor.Json
import MonitorEventing.Accessor.PropertyValue
import MonitorEventing.DeviceId.Values
import MonitorEventing.DeviceId.Evaluation
import MonitorEventing.DeviceId.Overflow
import MonitorEventing.Lib.Distinct
import MonitorEventing.DeviceId.Injective
import MonitorEventing.Accessor.DataAccessor
import MonitorEventing.Accessor.Equality
import MonitorEventing.Accessor.Hash
import MonitorEventing.Accessor.CheckAccessor
import MonitorEventing.Accessor.Coherence
import MonitorEventing.Accessor.Trigger
import MonitorEventing.Dat.Device
import MonitorEventing.Lib.Graph
import MonitorEventing.Selftest.Perform
import MonitorEventing.Selftest.Reach
import MonitorEventing.Selftest.Missing
import MonitorEventing.Selftest.Cycle
import MonitorEventing.EventInfo.EventNode
import MonitorEventing.Lib.Replacement
import MonitorEventing.EventInfo.MessageArg
import MonitorEventing.Selftest.RootCause
import MonitorEventing.Detection.ResolveLogs
import MonitorEventing.Detection.PropertyFilter
import MonitorEventing.Detection.Subscription
import MonitorEventing.Detection.EventsDetection
import MonitorEventing.Detection.Recoveries
import MonitorEventing.Detection.IsEvent
import MonitorEventing.Detection.ProcessEventList
import MonitorEventing.Health.Service
import MonitorEventing.Lib.Machine
import MonitorEventing.Health.Deferred
import MonitorEventing.Health.ErrorSets
import MonitorEventing.Threadpool.Manager
import MonitorEventing.Threadpool.TotalLimit
import MonitorEventing.Dbus.Delayer
import MonitorEventing.Lib.Report
import MonitorEventing.Schema.JsonPath
import MonitorEventing.Schema.JsonSchema
import MonitorEventing.Schema.Soundness
import MonitorEventing.Schema.Acceptance
import MonitorEventing.Schema.ConfigSchemas
import MonitorEventing.Accessor.View
import MonitorEventing.EventInfo.LoadFromJson
import MonitorEventing.DeviceStatus.Handler
import MonitorEventing.DeviceStatus.Rollup
import MonitorEventing.Diagnostics.TestRun
import MonitorEventing.Accessor.Criteria
import MonitorEventing.Accessor.Numerals
import MonitorEventing.Selftest.Expected
import MonitorEventing.Accessor.Outcome
import MonitorEventing.Accessor.Bitmap
import MonitorEventing.Lib.BreadthFirst
import MonitorEventing.Selftest.Nested
import MonitorEventing.Lib.Queue
import MonitorEventing.Dat.Traverse
import MonitorEventing.Dat.Ancestors
import MonitorEventing.Dat.Parents
import MonitorEventing.Selftest.Verdict
import MonitorEventing.Schema.JsonPattern
import MonitorEventing.EventInfo.LoadMessageArgs
import MonitorEventing.DeviceId.ExpandRange
import MonitorEventing.Accessor.Expand
import MonitorEventing.Selftest.Report
import MonitorEventing.CmdLine.Parse
import MonitorEventing.Dbus.ObjectMapper
import MonitorEventing.Dat.HealthRollup
import MonitorEventing.Lib.Regex
import MonitorEventing.Util.DeviceNumber
import MonitorEventing.DeviceId.IndexVector
import MonitorEventing.DeviceId.BracketPositions
import MonitorEventing.EventInfo.Views
import MonitorEventing.Detection.Discovery
import MonitorEventing.Lib.Worker
import MonitorEventing.Detection.PopFromQueue
import MonitorEventing.Detection.Pipeline
import MonitorEventing.Message.Composer
import MonitorEventing.Message.Journal
import MonitorEventing.Message.Announced
import MonitorEventing.Threadpool.EventThreads
import MonitorEventing.Tools.Ids
import MonitorEventing.Tools.Agreement
import MonitorEventing.Tools.Values
import MonitorEventing.Tools.Inverse
import MonitorEventing.Selftest.Determination
import MonitorEventing.Selftest.Boot
import MonitorEventing.Detection.BootUp
