import Scam2Market.Library.Lists
import Scam2Market.Library.OrderedDict
import Scam2Market.Library.Procedure
import Scam2Market.Library.StableSort
import Scam2Market.Library.Clipping
import Scam2Market.Library.LastWriter
import Scam2Market.Library.Cooldown
import Scam2Market.Python.Values
import Scam2Market.Python.Statistics
import Scam2Market.Features.Schemas
import Scam2Market.Features.Formulas
import Scam2Market.Features.Engine
import Scam2Market.Features.EngineSteps
import Scam2Market.Features.Returned
import Scam2Market.Features.Isolation
import Scam2Market.Features.Totality
import Scam2Market.Features.Finalisation
import Scam2Market.Features.Watermarks
import Scam2Market.Evaluation.Agreement
import Scam2Market.Api.PolicyPeriods
import Scam2Market.Narratives.ClusteringLaw
import Scam2Market.Features.History
import Scam2Market.Features.RevisionTables
import Scam2Market.Features.Batch
import Scam2Market.Features.Checkpoint
import Scam2Market.Intelligence.Schemas
import Scam2Market.Intelligence.Detectors
import Scam2Market.Intelligence.Fusion
import Scam2Market.Intelligence.FusionSteps
import Scam2Market.Intelligence.SeverityPolicy
import Scam2Market.Intelligence.ThreatUplift
import Scam2Market.Intelligence.Monotonicity
import Scam2Market.Intelligence.TraceReplay
import Scam2Market.Streaming.Events
import Scam2Market.Services.State
import Scam2Market.Services.Calls
import Scam2Market.Services.CallEffects
import Scam2Market.Services.ReplayIsolation
import Scam2Market.Campaigns.Schemas
import Scam2Market.Campaigns.Policy
import Scam2Market.Campaigns.Tables
import Scam2Market.Campaigns.Repository
import Scam2Market.Campaigns.RepositorySteps
import Scam2Market.Campaigns.AlertSteps
import Scam2Market.Campaigns.Runs
import Scam2Market.Campaigns.Invariants
import Scam2Market.Campaigns.AlertSuppression
import Scam2Market.Campaigns.Totality
import Scam2Market.Campaigns.Staleness
import Scam2Market.Campaigns.Redelivery
import Scam2Market.Campaigns.InMemory
import Scam2Market.Campaigns.Refinement
import Scam2Market.Library.Faults
import Scam2Market.Services.ScoreDelivery
import Scam2Market.Library.HashChain
import Scam2Market.Features.Tables
import Scam2Market.Evidence.Schemas
import Scam2Market.Evidence.Repository
import Scam2Market.Evidence.Chain
import Scam2Market.Campaigns.AlertVersions
import Scam2Market.Evidence.Attribution
import Scam2Market.Library.Grouping
import Scam2Market.Verification.Schemas
import Scam2Market.Verification.Similarity
import Scam2Market.Verification.Repository
import Scam2Market.Verification.Service
import Scam2Market.Verification.Hindsight
import Scam2Market.Verification.Irrelevance
import Scam2Market.Features.Signals
import Scam2Market.Library.Rendezvous
import Scam2Market.Workers.Handlers
import Scam2Market.Workers.HandlerSteps
import Scam2Market.Workers.SocialJoin
import Scam2Market.Workers.TelemetryJoin
import Scam2Market.Library.Runs
import Scam2Market.Resilience.CircuitBreaker
import Scam2Market.Resilience.Batching
import Scam2Market.Library.Rows
import Scam2Market.Streaming.Outbox
import Scam2Market.Notifications.Service
import Scam2Market.Notifications.Stranding
import Scam2Market.Ingestion.Dedupe
import Scam2Market.Ingestion.Services
import Scam2Market.Ingestion.FailedIngest
import Scam2Market.Ingestion.Quality
import Scam2Market.Library.Positions
import Scam2Market.Ingestion.SequenceGaps
import Scam2Market.Ingestion.Providers
import Scam2Market.Ingestion.BinancePolls
import Scam2Market.Workers.TelemetryOffsets
import Scam2Market.Verification.SqlRepository
import Scam2Market.Verification.Versions
import Scam2Market.Verification.CurrentVersion
import Scam2Market.Verification.Retrieval
import Scam2Market.Library.KeepFirst
import Scam2Market.Verification.Claims
import Scam2Market.Verification.NarrativeService
import Scam2Market.Verification.Snapshots
import Scam2Market.Intelligence.Threat
import Scam2Market.Intelligence.ThreatRepository
import Scam2Market.Intelligence.ThreatPolls
import Scam2Market.Intelligence.ThreatFeed
import Scam2Market.Intelligence.ThreatWatermark
import Scam2Market.Intelligence.TextTools
import Scam2Market.Intelligence.CanonicalUrls
import Scam2Market.Workers.FeatureWorker
import Scam2Market.Workers.CrashConsistency
import Scam2Market.Workers.Restarts
import Scam2Market.Workers.RevisionHistory
import Scam2Market.Narratives.Repository
import Scam2Market.Narratives.Identity
import Scam2Market.Library.EventLog
import Scam2Market.Realtime.Broker
import Scam2Market.Realtime.Delivery
import Scam2Market.Security.Soundness
import Scam2Market.Library.TwoPhaseLocking
import Scam2Market.Library.CheckThenAct
import Scam2Market.Api.Investigations
import Scam2Market.Api.InvestigationUpdates
import Scam2Market.Api.Reviews
import Scam2Market.Security.ServiceKeys
import Scam2Market.Security.KeyChains
import Scam2Market.Security.KeyRotation
import Scam2Market.Security.Authorization
import Scam2Market.Evaluation.ReplayControl
import Scam2Market.Evaluation.ReplayLifecycle
import Scam2Market.Library.BoundedPasses
import Scam2Market.Verification.SecConnector
import Scam2Market.Verification.SecProgress
import Scam2Market.Library.Tokens
import Scam2Market.Intelligence.ThreatPrefilter
import Scam2Market.Verification.Aggregation
import Scam2Market.Verification.EvidenceAgreement
import Scam2Market.Narratives.Head
import Scam2Market.Intelligence.FusionTotality
import Scam2Market.Services.ScoreLedger
import Scam2Market.Features.Latest
import Scam2Market.Services.LatestFeatures
import Scam2Market.Features.Atomicity
import Scam2Market.Ingestion.SocialText
import Scam2Market.Ingestion.SocialTables
import Scam2Market.Library.Following
import Scam2Market.Narratives.Graph
import Scam2Market.Ingestion.AssetMentions
import Scam2Market.Ingestion.MentionSpans
import Scam2Market.Library.Scanning
import Scam2Market.Narratives.ReplyLinks
import Scam2Market.Library.Entropy
import Scam2Market.Narratives.GraphRange
import Scam2Market.Library.Packing
import Scam2Market.Narratives.Propagation
import Scam2Market.Verification.Chunks
import Scam2Market.Intelligence.UrlIdentity
import Scam2Market.Library.TokenBucket
import Scam2Market.Library.Cursors
import Scam2Market.Security.RateLimiter
import Scam2Market.Streaming.OutboxOrder
import Scam2Market.Intelligence.ThreatCoverage
import Scam2Market.Intelligence.TextCandidates
import Scam2Market.Library.Consumers
import Scam2Market.Workers.ArchiveWorker
import Scam2Market.Workers.CampaignWorker
import Scam2Market.Workers.NotificationWorker
import Scam2Market.Streaming.Publication
import Scam2Market.Workers.AlertPipeline
import Scam2Market.Verification.FeedConnectors
import Scam2Market.Verification.FeedPolls
import Scam2Market.Evaluation.Metrics
import Scam2Market.Library.Numerals
import Scam2Market.Library.Forecasts
import Scam2Market.Library.Descent
import Scam2Market.Library.Guarantees
import Scam2Market.Governance.Calibration
import Scam2Market.Governance.CalibrationFit
import Scam2Market.Governance.Registry
import Scam2Market.Governance.RegistrySafety
import Scam2Market.Governance.AliasHistory
import Scam2Market.Evaluation.Repository
import Scam2Market.Evaluation.StoredOnce
