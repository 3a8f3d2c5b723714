import Noema.Lib.PyRuntime
import Noema.Lib.PerfectTree
import Noema.Lib.PromotingTree
import Noema.Lib.Utf8
import Noema.Lib.Json
import Noema.Lib.JsonRoundTrip
import Noema.Lib.JsonText
import Noema.Lib.Sha256
import Noema.Lib.TextFile
import Noema.Utils.JsonUtils
import Noema.Audit.Merkle
import Noema.Audit.MerkleRuns
import Noema.Audit.MerkleImport
import Noema.Audit.MerkleForgery
import Noema.Audit.Incremental
import Noema.Audit.Commitment
import Noema.Audit.Logger
import Noema.Audit.LoggerRuns
import Noema.Audit.AuditTrail
import Noema.Audit.FailedWrites
import Noema.Sandbox.Ast
import Noema.Sandbox.StaticCheck
import Noema.Sandbox.Binding
import Noema.Sandbox.StaticCheckSound
import Noema.Lib.Regex
import Noema.Lib.PyInterp
import Noema.Lib.Smt
import Noema.Neurosymbolic.Symbolic
import Noema.Neurosymbolic.Names
import Noema.Neurosymbolic.TaskGraph
import Noema.Neurosymbolic.SymbolicSound
import Noema.Neurosymbolic.SolverPool
import Noema.Neurosymbolic.Static
import Noema.Tracing.ReasoningTrace
import Noema.Neurosymbolic.Engine
import Noema.Neurosymbolic.ThinkRuns
import Noema.Tracing.Replay
import Noema.Core.Prompts
import Noema.Budget.TokenBudget
import Noema.Lib.Leases
import Noema.Lib.Levels
import Noema.Core.ChainOfThought
import Noema.Core.LevelRuns
import Noema.Core.Schedule
import Noema.Core.ReasonRuns
import Noema.Core.Resume
import Noema.Core.Assemble
import Noema.Sandbox.Environment
import Noema.Sandbox.Engine
import Noema.Sandbox.EngineRuns
import Noema.Sandbox.ShortCircuit
import Noema.Autonomy.Fixer
import Noema.Lib.System
import Noema.Resilience.Cancellation
import Noema.Resilience.CircuitBreaker
import Noema.Resilience.BreakerRuns
import Noema.Lib.SlidingWindow
import Noema.Api.RateLimit
import Noema.Api.RateLimitRuns
import Noema.Api.RedisLimiter
import Noema.Lib.PyNumber
import Noema.Billing.Ledger
import Noema.Billing.LedgerFile
import Noema.Federation.Router
import Noema.Federation.RouterRuns
import Noema.Lib.LastWrite
import Noema.Billing.Quotas
import Noema.Lib.Opening
import Noema.Workers.Heartbeat
import Noema.Workers.Hierarchy
import Noema.Workers.HierarchyRuns
import Noema.Workers.Pool
import Noema.Workers.PoolRuns
import Noema.Lib.Blake2b
import Noema.Lib.DepthFirst
import Noema.Lib.Evaluation
import Noema.Ontology.Graph
import Noema.Ontology.GraphRuns
import Noema.Observability.Grid
import Noema.Ontology.Cycle
import Noema.Ontology.FindPaths
import Noema.Ontology.Persistence
import Noema.Ontology.Validator
import Noema.Ontology.Orl
import Noema.Experiments.Environment
import Noema.Experiments.Gate
import Noema.Experiments.GateSound
import Noema.Tracing.Tracer
import Noema.Billing.CostTracker
import Noema.Billing.MonthlyCost
import Noema.Billing.PrCost
import Noema.Api.Auth
import Noema.Api.Server
import Noema.Api.BillingRuns
import Noema.Api.TaskGuard
import Noema.Cache.Semantic
import Noema.Cache.Redis
import Noema.Core.Interleave
import Noema.Lib.PyText
import Noema.Lib.PyTriple
import Noema.Core.Judge
import Noema.Core.Think
import Noema.Core.ThinkGates
import Noema.Lib.Git
import Noema.Evolution.GitEvolution
import Noema.Evolution.EvolutionRuns
import Noema.Autonomy.FixFiles
import Noema.Autonomy.GitHub
import Noema.Lib.Posix
import Noema.Experiments.Artifacts
import Noema.Lib.Transaction
import Noema.Memory.Store
import Noema.Memory.StoreRuns
import Noema.Memory.PodRuns
import Noema.Resilience.GracefulDegradation
import Noema.Config.FeatureFlags
import Noema.Lib.LiveDict
import Noema.Api.Webhooks
import Noema.Tracing.Spans
import Noema.Core.ThinkSpans
import Noema.Workers.ThinkTask
import Noema.Core.Checkpoint
import Noema.Evolution.Landing
import Noema.Tracing.TraceFile
import Noema.Sandbox.Mounts
import Noema.Sandbox.ImportIssues
import Noema.Core.StaticAgreement
import Noema.Sandbox.ImportHygiene
import Noema.Billing.LedgerViews
import Noema.Federation.Attribution
import Noema.Ontology.AllOrNothing
import Noema.Lib.Folder
import Noema.Lib.PathSearch
import Noema.Lib.Rounding
import Noema.Lib.JsonIndent
import Noema.Utils.AtomicIo
import Noema.Lib.RegexMatch
import Noema.Lib.Phrases
import Noema.Lib.Extremes
import Noema.Neurosymbolic.BoundPhrases
import Noema.Neurosymbolic.BoundNarrowing
import Noema.Sandbox.PytestCounts
import Noema.Causal.Graph
import Noema.Causal.Counterfactuals
import Noema.Causal.Queries
import Noema.Causal.Instruments
import Noema.Experiments.FileCosts
import Noema.Core.JudgeAtomic
import Noema.Experiments.Matrix
import Noema.Healer.Healing
import Noema.Lib.FirstByKey
import Noema.Utils.JsonFiles
import Noema.Knowledge.Store
import Noema.Eval.Leaderboard
import Noema.Lib.IpAddress
import Noema.Api.WebhookUrl
import Noema.Core.TopologicalLevels
import Noema.Ontology.Subgraph
import Noema.Pipelines.Engine
import Noema.Pipelines.EngineRuns
import Noema.Lib.GitRef
import Noema.Autonomy.Incidents
import Noema.Lib.TextTree
import Noema.Scaffolder.Generator
import Noema.Scaffolder.Placement
import Noema.Scaffolder.Overwriting
import Noema.Lib.JsonCut
import Noema.Debug.Replay
import Noema.Utils.FencedJson
import Noema.Observability.Exposition
