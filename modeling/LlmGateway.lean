import LlmGateway.Guarantees.Admission
import LlmGateway.Guarantees.Activation
import LlmGateway.Guarantees.CurrentGeneration
import LlmGateway.Guarantees.Cursor
import LlmGateway.Guarantees.Ownership
import LlmGateway.Guarantees.Heartbeat
import LlmGateway.Guarantees.StoppedCycles
import LlmGateway.Guarantees.SessionStop
import LlmGateway.Guarantees.SkillCalls
import LlmGateway.Guarantees.StopHosting
import LlmGateway.Guarantees.SupersededCycles
import LlmGateway.Guarantees.Casts
import LlmGateway.Guarantees.SweepOverlap
import LlmGateway.Guarantees.ChatSequences
import LlmGateway.Guarantees.Refusals
import LlmGateway.Guarantees.PlanReload
import LlmGateway.Guarantees.PlanReplay
import LlmGateway.Guarantees.PlanOrder
import LlmGateway.Guarantees.Replanning
import LlmGateway.Guarantees.Sending
import LlmGateway.Guarantees.Responses
import LlmGateway.Guarantees.Capacity
import LlmGateway.Guarantees.TrackedActions
import LlmGateway.Guarantees.StoredDecisions
import LlmGateway.Guarantees.DecisionClaims
import LlmGateway.Guarantees.Terminals
import LlmGateway.Guarantees.PlanPosition
import LlmGateway.Guarantees.PlanProgress
import LlmGateway.Guarantees.PlanPrepare
import LlmGateway.Guarantees.HostedChat
import LlmGateway.Guarantees.ChatReplies
import LlmGateway.Guarantees.Recovery
import LlmGateway.Guarantees.Authorized
import LlmGateway.Guarantees.RejectionOrder
import LlmGateway.Guarantees.StopPaths
import LlmGateway.Guarantees.Bookkeeping
import LlmGateway.Guarantees.ChatIdentities
import LlmGateway.Guarantees.ChatResults
import LlmGateway.Guarantees.Debounce
import LlmGateway.Guarantees.WorkerPolls
import LlmGateway.Guarantees.TrackingUpdates
import LlmGateway.Guarantees.MonitorStream
import LlmGateway.Guarantees.ProviderSelection
import LlmGateway.Guarantees.TokenAccounts
import LlmGateway.Guarantees.SceneTargets
import LlmGateway.Guarantees.Readiness
import LlmGateway.Guarantees.SignedRequests
import LlmGateway.Guarantees.RecoveryRows
import LlmGateway.Guarantees.ClientResponses
import LlmGateway.Guarantees.StepAgreement
import LlmGateway.Guarantees.SnapshotReaders
import LlmGateway.Guarantees.PlayerMemories
import LlmGateway.Guarantees.RateLimits
import LlmGateway.Guarantees.ClaimLoop
import LlmGateway.Guarantees.EventRetries
import LlmGateway.Guarantees.EventBatches
import LlmGateway.Guarantees.GatewayActions
import LlmGateway.Guarantees.LobbyTransitions
import LlmGateway.Guarantees.LatestContext
import LlmGateway.Guarantees.LostLeases
import LlmGateway.Guarantees.MonitorPages
import LlmGateway.Guarantees.Slots
import LlmGateway.Guarantees.LostClaims
import LlmGateway.Guarantees.Lifecycle
import LlmGateway.Guarantees.Transactions
import LlmGateway.Guarantees.CanonicalJson
import LlmGateway.Guarantees.FrozenBytes
import LlmGateway.Guarantees.LivePlan
import LlmGateway.Guarantees.ReadyWorkers
import LlmGateway.Guarantees.CursorTokens
