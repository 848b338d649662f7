import SelericSwarm.RetryPrediction
import SelericSwarm.StartStep
import SelericSwarm.TranscriptFencing
import SelericSwarm.AuditTrail
import SelericSwarm.ActionExecution
import SelericSwarm.Rollbacks
import SelericSwarm.EventLog
import SelericSwarm.RetryBackoff
import SelericSwarm.MissionHandover
import SelericSwarm.SearchTenancy
import SelericSwarm.RunRefinement
import SelericSwarm.MissionPolling
import SelericSwarm.MemoryDeletion
import SelericSwarm.Retries
import SelericSwarm.ActionCommits
import SelericSwarm.CircuitBreaker
import SelericSwarm.QueryBudget
import SelericSwarm.EventNotifier
import SelericSwarm.RunSubscription
import SelericSwarm.BlobStore
import SelericSwarm.ModelHealth
import SelericSwarm.Migrations
import SelericSwarm.OfficeMissions
import SelericSwarm.McpSession
import SelericSwarm.VoiceTurns
import SelericSwarm.VoiceNarration
import SelericSwarm.ConversationChoice
import SelericSwarm.ListPages
import SelericSwarm.AttachmentOwners
import SelericSwarm.EventPolling
import SelericSwarm.RankFusion
import SelericSwarm.MemoryIngestion
import SelericSwarm.ContextBudget
import SelericSwarm.RunBudget
import SelericSwarm.ArtifactOrder
import SelericSwarm.MissionIngestion
import SelericSwarm.SingleFlight
import SelericSwarm.DimensionSanitizing
import SelericSwarm.AnomalyOrder
import SelericSwarm.CohortComparison
import SelericSwarm.FunnelConversions
import SelericSwarm.WindowSoundness
import SelericSwarm.AuditedAnswers
import SelericSwarm.UnmixedSegments
import SelericSwarm.RateLimiter
import SelericSwarm.SettledOffice
import SelericSwarm.ForecastScores
import SelericSwarm.MetricRegistry
import SelericSwarm.DomainSnapshots
import SelericSwarm.AnswerDrafts
import SelericSwarm.StateLaws
import SelericSwarm.NavLaws
import SelericSwarm.ProgressSinks
import SelericSwarm.GuardTransparency
import SelericSwarm.QueryIntent
import SelericSwarm.ExperimentLaws
import SelericSwarm.ForecastLaws
import SelericSwarm.TraceRedaction
import SelericSwarm.StructuredOutput
import SelericSwarm.RequiredScopes
