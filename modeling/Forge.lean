import Forge.AgentExports
import Forge.AgentOwnership
import Forge.AgentWorkspace
import Forge.ApprovalGate
import Forge.AssignmentChanges
import Forge.AssignmentInbox
import Forge.AtMostOnce
import Forge.AuditDetails
import Forge.AuthCallout
import Forge.BlockedReasons
import Forge.CacheSoundness
import Forge.CalloutRules
import Forge.CalloutWorld
import Forge.CapabilityFingerprint
import Forge.ChangeExactness
import Forge.Changes
import Forge.ChatPreservation
import Forge.CivilTime
import Forge.CliAuthRefresh
import Forge.CliImageUpdater
import Forge.CliImages
import Forge.CloneAttempts
import Forge.CloneChanges
import Forge.CloneDiscipline
import Forge.CloneDomain
import Forge.CloneHistory
import Forge.CloneLoop
import Forge.CloneOperations
import Forge.CloneRedaction
import Forge.CloneRepository
import Forge.CloneSafety
import Forge.CloneSweep
import Forge.CloneUserinfo
import Forge.CloneWorker
import Forge.CompletionContract
import Forge.ContainerAgreement
import Forge.ContainerLifecycle
import Forge.ContainerRoll
import Forge.ContainerSteps
import Forge.ContainerViews
import Forge.ContextCache
import Forge.ContextResolver
import Forge.CrashRecovery
import Forge.CredentialConsumer
import Forge.CredentialOrdering
import Forge.DagValidation
import Forge.DeliveryChanges
import Forge.DeliveryFencing
import Forge.DependencySafety
import Forge.DependencyWakeUp
import Forge.DispatchAgreement
import Forge.DispatchFencing
import Forge.EnrollmentSafety
import Forge.EnvelopeSigning
import Forge.EventDecoding
import Forge.EventIngest
import Forge.EventReceipts
import Forge.GitDiff
import Forge.GithubApp
import Forge.HookAgreement
import Forge.HookEvents
import Forge.HookRepublish
import Forge.HookSequencing
import Forge.HostEnrollment
import Forge.ImageSafety
import Forge.ImageTrust
import Forge.InboxDiscipline
import Forge.InboxSafety
import Forge.IngestSubject
import Forge.InputAgreement
import Forge.JobFencing
import Forge.JobQueue
import Forge.LeaderElection
import Forge.Library.AdvisoryLock
import Forge.Library.Base64
import Forge.Library.CompactJson
import Forge.Library.CountedStore
import Forge.Library.Csv
import Forge.Library.Dialogue
import Forge.Library.DurableEntry
import Forge.Library.Effectful
import Forge.Library.Fallible
import Forge.Library.Framing
import Forge.Library.History
import Forge.Library.Identifier
import Forge.Library.Interleaving
import Forge.Library.JsonDocument
import Forge.Library.JsonObject
import Forge.Library.JsonParts
import Forge.Library.JsonText
import Forge.Library.KeyedTable
import Forge.Library.Layering
import Forge.Library.MachineInt
import Forge.Library.Paging
import Forge.Library.PathTail
import Forge.Library.PosixShell
import Forge.Library.PowerShell
import Forge.Library.Records
import Forge.Library.Regex
import Forge.Library.Relay
import Forge.Library.Rewriting
import Forge.Library.StateMachine
import Forge.Library.UnixPath
import Forge.Library.Utf8
import Forge.Library.Writes
import Forge.LifecycleChanges
import Forge.LifecycleOrder
import Forge.LivenessChanges
import Forge.LlmStreams
import Forge.MainSafety
import Forge.MergeExecutor
import Forge.MergeSafety
import Forge.MountPolicy
import Forge.NatsPermissions
import Forge.Orchestrator
import Forge.OrchestratorChanges
import Forge.OrchestratorDiscipline
import Forge.OrchestratorSafety
import Forge.OrchestratorStore
import Forge.OutboxPublisher
import Forge.Presence
import Forge.PresenceSafety
import Forge.PromptExclusivity
import Forge.PromptHistory
import Forge.PromptRequests
import Forge.PromptStreams
import Forge.PromptTranscript
import Forge.ProviderBodies
import Forge.PublishSafety
import Forge.ReadinessAgreement
import Forge.RedactionSafety
import Forge.RefreshSafety
import Forge.ReplayWindow
import Forge.ResultMessages
import Forge.ResultOwnership
import Forge.ResultWire
import Forge.RetirementSafety
import Forge.ReviewAgreement
import Forge.ReviewResults
import Forge.ReviewSignals
import Forge.ReviewVerdicts
import Forge.RevocationSafety
import Forge.RunAgreement
import Forge.SelectionExactness
import Forge.SelfFixDomain
import Forge.SelfFixRebuild
import Forge.SidecarWal
import Forge.SignerIdentity
import Forge.SkillDomain
import Forge.SkillEffects
import Forge.SkillHistory
import Forge.SkillPublication
import Forge.SkillService
import Forge.Soundness
import Forge.SseFramer
import Forge.StatusStability
import Forge.StreamDiscipline
import Forge.SubjectIsolation
import Forge.SweepSafety
import Forge.System
import Forge.TaskEdges
import Forge.TaskHistoryExport
import Forge.TaskSafety
import Forge.TaskSteps
import Forge.Transactions
import Forge.TufReleases
import Forge.TufTrust
import Forge.TurnDelivery
import Forge.TurnDurations
import Forge.TurnInvariants
import Forge.TurnOrder
import Forge.TurnPagination
import Forge.TurnProjection
import Forge.WalAccounting
import Forge.WorkflowDag
import Forge.WorkflowOutcome
import Forge.WorkflowRequests
import Forge.WorkflowRun
import Forge.WorkspaceDirNames
