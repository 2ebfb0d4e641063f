import ClearFeature.Validator
import ClearFeature.Eval
import ClearFeature.Lineage
import ClearFeature.Lib.LastMax
import ClearFeature.WriteGuard
import ClearFeature.Pit
import ClearFeature.Training
import ClearFeature.Leakage
import ClearFeature.Freshness
import ClearFeature.Dedup
import ClearFeature.FeatureStore
import ClearFeature.Consistency
import ClearFeature.Rerun
import ClearFeature.Lib.Runs
import ClearFeature.RawWrites
import ClearFeature.Immutable
import ClearFeature.Lib.Prog
import ClearFeature.Runner
import ClearFeature.OnlineRunner
import ClearFeature.Propagation
import ClearFeature.Debounce
import ClearFeature.ModelBatch
import ClearFeature.ModelRows
import ClearFeature.WaveReport
import ClearFeature.WaveExact
import ClearFeature.AvailabilityAudit
import ClearFeature.Landing
import ClearFeature.LandingAccounts
import ClearFeature.LandingRows
import ClearFeature.LandingReplay
import ClearFeature.LandingRefs
import ClearFeature.Lib.Fresh
import ClearFeature.DedupCuts
import ClearFeature.BatchRunner
import ClearFeature.OfflineRunner
import ClearFeature.PropagationRunner
import ClearFeature.Sessions
import ClearFeature.Delivery
import ClearFeature.DeliveryWaves
import ClearFeature.NoSkip
import ClearFeature.Completed
import ClearFeature.Readable
import ClearFeature.Lib.Double
import ClearFeature.OnlineConverges
import ClearFeature.Valkey
import ClearFeature.ValkeyRefines
import ClearFeature.Promotion
import ClearFeature.PromotionTrail
import ClearFeature.Soak
import ClearFeature.Outline
import ClearFeature.StatusWriters
import ClearFeature.StatusKept
import ClearFeature.OfflineStatus
import ClearFeature.Expiry
import ClearFeature.Planner
import ClearFeature.BatchStatus
import ClearFeature.BatchScope
import ClearFeature.BatchJobs
import ClearFeature.IdempotencyKeys
import ClearFeature.BatchRecovery
import ClearFeature.BatchItems
import ClearFeature.Lib.Items
import ClearFeature.BadItems
import ClearFeature.BadEntries
import ClearFeature.EntityKeys
import ClearFeature.Recompute
import ClearFeature.UpdateWaves
import ClearFeature.WavesConverge
import ClearFeature.PropagationConverges
import ClearFeature.BatchAggregate
import ClearFeature.Wire
import ClearFeature.Lib.Writing
import ClearFeature.Lib.Closing
import ClearFeature.WireEvents
import ClearFeature.RequestMetadata
import ClearFeature.Redelivery
import ClearFeature.BatchMetadata
import ClearFeature.MetadataWriter
import ClearFeature.BatchProjection
import ClearFeature.BatchTable
import ClearFeature.BatchReplay
import ClearFeature.Lib.Latest
import ClearFeature.RequestProjection
import ClearFeature.Rejected
import ClearFeature.DwhImport
import ClearFeature.DwhRerun
import ClearFeature.Deadline
import ClearFeature.DependencyGraph
import ClearFeature.Resolution
import ClearFeature.Skipping
import ClearFeature.Faults
import ClearFeature.Completes
import ClearFeature.Computable
import ClearFeature.Closure
import ClearFeature.Lib.OrderBy
import ClearFeature.PostgresOffline
import ClearFeature.FutureRows
import ClearFeature.Lib.Logged
import ClearFeature.Evaluations
import ClearFeature.DirectRecompute
import ClearFeature.Lib.StableSort
import ClearFeature.CanonicalJson
import ClearFeature.Bundle
import ClearFeature.BundleIdentity
import ClearFeature.BundleStore
import ClearFeature.ArtifactVerifier
import ClearFeature.ArtifactSound
import ClearFeature.Lib.Shared
import ClearFeature.WheelStore
import ClearFeature.WheelReleases
import ClearFeature.Lib.Environment
import ClearFeature.Retries
import ClearFeature.AttemptHeader
import ClearFeature.RetryRounds
import ClearFeature.WireEncode
import ClearFeature.WireRoundTrip
import ClearFeature.EventsSurvive
import ClearFeature.RetryCopies
import ClearFeature.RetriesBounded
import ClearFeature.WireLosses
import ClearFeature.CalcTimes
import ClearFeature.BatchAttempts
import ClearFeature.BatchControls
import ClearFeature.Lib.Bucket
import ClearFeature.RateLimits
import ClearFeature.Throttling
import ClearFeature.AcceptedGraphs
import ClearFeature.CoreVersions
import ClearFeature.ManifestJobs
import ClearFeature.OnlineAddresses
import ClearFeature.PayloadStores
import ClearFeature.Lib.Optimistic
import ClearFeature.StatusRecords
import ClearFeature.BatchTransactions
import ClearFeature.Readiness
import ClearFeature.Security
import ClearFeature.ModelScores
import ClearFeature.WriterRunners
import ClearFeature.DeadLetters
import ClearFeature.ModelScores
import ClearFeature.WriterRunners
import ClearFeature.DeadLetters
import ClearFeature.Lib.Raising
import ClearFeature.ReleaseRecords
import ClearFeature.Releases
import ClearFeature.ReleaseSafety
import ClearFeature.ReleaseSound
import ClearFeature.ReleaseRuns
import ClearFeature.ReleaseStarts
