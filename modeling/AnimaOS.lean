import AnimaOS.ArcDirectory
import AnimaOS.ArcCoherence
import AnimaOS.HeapAllocator
import AnimaOS.QuotaWindows
import AnimaOS.UrlAuthority
import AnimaOS.EvictionSafety
import AnimaOS.StarvationBound
import AnimaOS.BreakerSafety
import AnimaOS.ToolCacheHits
import AnimaOS.CronFiring
import AnimaOS.JobRetries
import AnimaOS.OperatorLine
import AnimaOS.WorkspaceOwnership
import AnimaOS.ApprovalEvents
import AnimaOS.KnowledgeGraph
import AnimaOS.AuditTampering
import AnimaOS.PathSegments
import AnimaOS.MotorGate
import AnimaOS.CriticalPaths
import AnimaOS.ConsoleHub
import AnimaOS.ConsoleOrder
import AnimaOS.EgressDispatch
import AnimaOS.CortexBridge
import AnimaOS.ToolBudget
import AnimaOS.ArchiveReaders
import AnimaOS.ReaderProvenance
import AnimaOS.Prospective
import AnimaOS.SomaticLoop
import AnimaOS.OperatorWork
import AnimaOS.IntentionRuns
import AnimaOS.CorpusRecords
import AnimaOS.AddressReaders
import AnimaOS.GuardAgreement
import AnimaOS.ArchiveFaults
import AnimaOS.AdapterLibrary
import AnimaOS.AdapterClearance
import AnimaOS.ConsoleApprovals
import AnimaOS.ServingDecisions
import AnimaOS.SkillRegistry
import AnimaOS.SkillBridge
import AnimaOS.SkillApprovals
import AnimaOS.RootDot
import AnimaOS.WebhookRegistry
import AnimaOS.WebhookTargets
import AnimaOS.AttemptWindow
import AnimaOS.AuthLimiter
import AnimaOS.AuthThrottling
import AnimaOS.CursorReplay
import AnimaOS.EventStream
import AnimaOS.Reconnection
import AnimaOS.TokenSlices
import AnimaOS.CacheRetention
import AnimaOS.QuotaHints
import AnimaOS.QuotaSnapshots
import AnimaOS.QuotaSums
import AnimaOS.CronValidation
import AnimaOS.CronRejection
import AnimaOS.OperatorEvents
import AnimaOS.JsonCodec
import AnimaOS.JsonGrammar
import AnimaOS.JsonParser
import AnimaOS.EventLines
import AnimaOS.EventRecovery
import AnimaOS.LineFraming
import AnimaOS.IntentionAtomicity
import AnimaOS.SessionStore
import AnimaOS.WebhookDispatch
import AnimaOS.CodePacking
import AnimaOS.PSquare
import AnimaOS.BreadthFirst
import AnimaOS.GraphNeighbours
import AnimaOS.PolarRotation
import AnimaOS.FloatOrder
import AnimaOS.KvSelection
import AnimaOS.DreamWalk
import AnimaOS.IntentionIds
import AnimaOS.IntentionRecurrence
import AnimaOS.ReplayRollback
import AnimaOS.TracePairing
import AnimaOS.EpisodeCodec
import AnimaOS.Watchdog
import AnimaOS.KvGate
import AnimaOS.ChatTranscript
import AnimaOS.ShortReads
import AnimaOS.IpcFraming
import AnimaOS.IdentityFacts
import AnimaOS.UrlRedaction
import AnimaOS.InjectionScreen
import AnimaOS.VetoWindow
import AnimaOS.ConstitutionCheck
import AnimaOS.GoalRegistry
import AnimaOS.SkillPrompts
import AnimaOS.SkillLinks
import AnimaOS.MessageCorrelation
import AnimaOS.AuditTail
import AnimaOS.ApprovalRoutes
import AnimaOS.ConsoleBodies
import AnimaOS.ExpositionFormat
import AnimaOS.MetricRegistry
import AnimaOS.PrometheusRender
import AnimaOS.SensoryBridge
import AnimaOS.DecisionReplay
import AnimaOS.ConversationPrompt
import AnimaOS.ByteReader
import AnimaOS.TlsRecords
import AnimaOS.TlsTraffic
import AnimaOS.TlsClientHello
import AnimaOS.FinancialBudget
import AnimaOS.WebhookAtomicity
import AnimaOS.PriorityLattice
import AnimaOS.TierChoice
import AnimaOS.GateStress
import AnimaOS.KnowledgeCorpus
import AnimaOS.SleepPhases
import AnimaOS.AcpiDiscovery
import AnimaOS.Consolidation
import AnimaOS.HostMatching
import AnimaOS.AdjacentSpans
import AnimaOS.FrameAllocator
import AnimaOS.TokenPipe
import AnimaOS.ContextPressure
import AnimaOS.Screening
import AnimaOS.SyscallRouter
import AnimaOS.AgentTable
import AnimaOS.EdgeDetector
import AnimaOS.AlertRules
import AnimaOS.TierRouting
import AnimaOS.PairedLog
import AnimaOS.AgentDelegation
import AnimaOS.UserConsent
import AnimaOS.ConsentRegistry
import AnimaOS.AgentLoop
import AnimaOS.AgentTurns
import AnimaOS.CortexSession
import AnimaOS.QueueDrain
import AnimaOS.ChannelGateway
import AnimaOS.GatewayRounds
import AnimaOS.GatewayPolicy
import AnimaOS.RetryBackoff
import AnimaOS.FormEncoding
import AnimaOS.WebSearch
import AnimaOS.BrowserTools
import AnimaOS.TlsChannel
import AnimaOS.TlsServerHello
import AnimaOS.TlsHandshake
import AnimaOS.TlsAgreement
import AnimaOS.TlsOverTcp
