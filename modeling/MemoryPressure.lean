import MemoryPressure.Foundation.Keyed
import MemoryPressure.Foundation.Machine
import MemoryPressure.Foundation.LastRow
import MemoryPressure.Types
import MemoryPressure.Arithmetic
import MemoryPressure.Foundation.WeightedMean
import MemoryPressure.Exact
import MemoryPressure.Budget
import MemoryPressure.Reserves
import MemoryPressure.Policy
import MemoryPressure.Hysteresis
import MemoryPressure.Debounce
import MemoryPressure.Foundation.LongestSuffix
import MemoryPressure.Foundation.LeastSquares
import MemoryPressure.Trend
import MemoryPressure.TrendWindow
import MemoryPressure.TrendLaws
import MemoryPressure.Score
import MemoryPressure.ScoreLaws
import MemoryPressure.Domain
import MemoryPressure.Events
import MemoryPressure.Interpretation
import MemoryPressure.ClosedLoop
import MemoryPressure.ClassifierOrder
import MemoryPressure.Runtime
import MemoryPressure.RefreshSpec
import MemoryPressure.ThrowAsFail
import MemoryPressure.Run
import MemoryPressure.AggregateScore
import MemoryPressure.FallingTrend
import MemoryPressure.BudgetsInForce
import MemoryPressure.SnapshotEvidence
import MemoryPressure.Generation
import MemoryPressure.Retained
import MemoryPressure.Episode
import MemoryPressure.Differences
import MemoryPressure.PollOrder
import MemoryPressure.Signals
import MemoryPressure.Headroom
import MemoryPressure.FreeFloor
import MemoryPressure.Expiry
import MemoryPressure.BoundedQueue
import MemoryPressure.ZeroQueue
import MemoryPressure.CloseFinal
import MemoryPressure.Foundation.SortedMap
import MemoryPressure.Json.Value
import MemoryPressure.Json.Record
import MemoryPressure.Json.Grammar
import MemoryPressure.Json.Parser
import MemoryPressure.Json.Tokens
import MemoryPressure.Json.Nesting
import MemoryPressure.Json.Accepts
import MemoryPressure.Json.DepthLimit
import MemoryPressure.Json.Printer
import MemoryPressure.Json.Document
import MemoryPressure.Spelling
import MemoryPressure.SnapshotCodec
import MemoryPressure.SnapshotRoundTrip
import MemoryPressure.Foundation.NearestEven
import MemoryPressure.Json.Rounding
import MemoryPressure.Json.IntegerViews
import MemoryPressure.ObservationCodec
import MemoryPressure.Lossless
import MemoryPressure.PolicyCodec
import MemoryPressure.PolicyRoundTrip
import MemoryPressure.Codec
import MemoryPressure.DomainId
import MemoryPressure.Uniqueness
import MemoryPressure.CrossTier
import MemoryPressure.Relief
import MemoryPressure.Announce
import MemoryPressure.Evidence
import MemoryPressure.Outage
import MemoryPressure.Agreement
import MemoryPressure.Isolation
import MemoryPressure.Republish
import MemoryPressure.Replay
import MemoryPressure.TraceCodec
import MemoryPressure.Narrowing
import MemoryPressure.Foundation.Threads
import MemoryPressure.Concurrency
import MemoryPressure.Session
import MemoryPressure.EventLoss
import MemoryPressure.Bounded
import MemoryPressure.Reentrancy
import MemoryPressure.PolicySwap
import MemoryPressure.Publication
import MemoryPressure.Undisturbed
import MemoryPressure.Serializable
import MemoryPressure.EventNumbers
import MemoryPressure.Subscriber
import MemoryPressure.Cell
import MemoryPressure.OneWayLoad
import MemoryPressure.Telemetry
import MemoryPressure.Foundation.Potential
import MemoryPressure.TransitionRate
import MemoryPressure.FromHistory
import MemoryPressure.WellFormed
import MemoryPressure.Synthetic
import MemoryPressure.SyntheticCurves
import MemoryPressure.Bench
import MemoryPressure.SnapshotText
import MemoryPressure.PolicyText
import MemoryPressure.TraceText
import MemoryPressure.EventText
