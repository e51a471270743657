import AiPlatform.Worker.Isolation
import AiPlatform.Worker.WriteDispatch
import AiPlatform.Worker.EventLog
import AiPlatform.Worker.ReadFencing
import AiPlatform.Worker.Tasks
import AiPlatform.Worker.Recovery
import AiPlatform.Worker.Cancel
import AiPlatform.Runtime.Ownership
import AiPlatform.Runtime.EventStream
import AiPlatform.Runtime.Delivery
import AiPlatform.Runtime.BridgeHonesty
import AiPlatform.Runtime.LedgerSafety
import AiPlatform.Capability.Validation
import AiPlatform.Lib.Loop
import AiPlatform.Runtime.PlatformLifecycle
import AiPlatform.Capability.CanonicalJson
import AiPlatform.Capability.PythonCanonical
import AiPlatform.Capability.LeaseIssuer
import AiPlatform.Runtime.WriteReceipts
import AiPlatform.Gateway.IdempotencyStores
import AiPlatform.Gateway.IdempotencyMiddleware
import AiPlatform.Gateway.ExecutesOnce
import AiPlatform.Gateway.GatewaySecret
import AiPlatform.Events.EventConsumer
import AiPlatform.Events.ConsumerSpec
import AiPlatform.Events.NoLoss
import AiPlatform.Events.NoRepeat
import AiPlatform.Capability.SafePattern
import AiPlatform.Mcp.CircuitLaw
import AiPlatform.Gateway.Signature
import AiPlatform.Gateway.ProxyHeaders
import AiPlatform.Gateway.AcceptOnce
import AiPlatform.Gateway.SignedEnvelope
import AiPlatform.Lib.Calendar
import AiPlatform.Billing.QuotaLedger
import AiPlatform.Gateway.RatePolicy
import AiPlatform.Gateway.RatePolicyResolver
import AiPlatform.Gateway.RateStaleness
import AiPlatform.Proxy.CircuitBreaker
import AiPlatform.Proxy.ProbeDiscipline
import AiPlatform.Dispatch.ServiceBreaker
import AiPlatform.Knowledge.LexicalLifecycle
import AiPlatform.Knowledge.LexicalCutover
import AiPlatform.Knowledge.ChunkingConfig
import AiPlatform.Dispatch.CapacityScripts
import AiPlatform.Dispatch.AdmissionWindow
import AiPlatform.Dispatch.SlidingWindow
import AiPlatform.Dispatch.WindowAgreement
import AiPlatform.Dispatch.RateLimiters
import AiPlatform.Dispatch.RejectedRequests
import AiPlatform.Dispatch.Admission
import AiPlatform.Dispatch.AdmissionSteps
import AiPlatform.Dispatch.AdmissionTasks
import AiPlatform.Dispatch.AdmissionAccounting
import AiPlatform.Knowledge.ChunkingRoundTrip
import AiPlatform.Knowledge.PdfSplitter
import AiPlatform.Knowledge.ParsingIr
import AiPlatform.Knowledge.TablePolicy
import AiPlatform.Lib.ServerSentEvents
import AiPlatform.Proxy.SseHeartbeat
import AiPlatform.Knowledge.ParserCascade
import AiPlatform.Knowledge.StructuredParser
import AiPlatform.Events.EventEnvelope
import AiPlatform.Events.PoisonContainment
import AiPlatform.Gateway.KeyRelease
import AiPlatform.Knowledge.ActionJobs
import AiPlatform.Knowledge.JobFencing
import AiPlatform.Knowledge.RollbackAvailable
import AiPlatform.Knowledge.EmbeddingMigration
import AiPlatform.Knowledge.LiveCollections
import AiPlatform.Memory.Redaction
import AiPlatform.Model.ProviderLines
import AiPlatform.Model.ChatHistory
import AiPlatform.Lib.Rewriting
import AiPlatform.Model.RequestBuilder
import AiPlatform.Model.AliasRoundTrip
import AiPlatform.Memory.TodoRuns
import AiPlatform.Memory.MemoryRuns
import AiPlatform.Memory.Handover
import AiPlatform.Memory.TaskMemory
import AiPlatform.Proxy.OneVerdict
import AiPlatform.Gateway.CapabilityProof
import AiPlatform.Runtime.TurnClosing
import AiPlatform.Runtime.UncertainWrites
import AiPlatform.Knowledge.Candidates
import AiPlatform.Knowledge.SummaryMerge
import AiPlatform.Knowledge.ParentFold
import AiPlatform.Knowledge.CharWindows
import AiPlatform.Knowledge.TokenWindows
import AiPlatform.Knowledge.MmrSelect
import AiPlatform.Knowledge.TokenSplit
import AiPlatform.Knowledge.TokenSplitLaw
import AiPlatform.Knowledge.Chunk
import AiPlatform.Lib.Coalescing
import AiPlatform.Knowledge.MergeChunks
import AiPlatform.Knowledge.TokenSlices
import AiPlatform.Worker.FailedCalls
import AiPlatform.Lib.SlidingLog
import AiPlatform.Dispatch.HonestRetry
import AiPlatform.Lib.AnchoredPattern
import AiPlatform.Capability.PatternMatcher
import AiPlatform.Capability.PatternStandard
import AiPlatform.Capability.PatternReading
import AiPlatform.Capability.PatternMeaning
import AiPlatform.Lib.Retelling
import AiPlatform.Lib.Lifecycles
import AiPlatform.Runtime.V1Projector
import AiPlatform.Runtime.TextProjection
import AiPlatform.Runtime.TextDelivery
import AiPlatform.Lib.ItemStream
import AiPlatform.Model.ResponsesProjector
import AiPlatform.Model.ProjectedCalls
import AiPlatform.Model.ProjectedStream
import AiPlatform.Model.StreamOrder
import AiPlatform.Model.LateReasoning
import AiPlatform.Model.StreamCompletion
import AiPlatform.Model.StreamWellFormed
import AiPlatform.Model.NativeStream
import AiPlatform.Model.NativeEvents
import AiPlatform.Model.NativeRuns
import AiPlatform.Lib.Binary64
import AiPlatform.Capability.SchemaContract
import AiPlatform.Capability.SchemaMeaning
import AiPlatform.Capability.SchemaValidation
import AiPlatform.Gateway.ProofRoundTrip
