import AgentHarness.Continuation
import AgentHarness.PlanOrder
import AgentHarness.Kernel
import AgentHarness.Suspension
import AgentHarness.ResumeFlow
import AgentHarness.Snapshot
import AgentHarness.PlanFlow
import AgentHarness.CheckpointFinal
import AgentHarness.CheckpointOnce
import AgentHarness.Decision
import AgentHarness.Pipeline
import AgentHarness.Sequential
import AgentHarness.Lib.Workflow
import AgentHarness.PIIGuard
import AgentHarness.Redaction
import AgentHarness.RedactionDepth
import AgentHarness.AuditExport
import AgentHarness.SQLGuard
import AgentHarness.Guardrails
import AgentHarness.LlmOps
import AgentHarness.Budget
import AgentHarness.Providers
import AgentHarness.Nl2sql
import AgentHarness.Nl2sqlPipeline
import AgentHarness.Judge
import AgentHarness.BudgetAccounting
import AgentHarness.BudgetLimit
import AgentHarness.Nl2sqlSuccess
import AgentHarness.CacheTransparency
import AgentHarness.RedisRateLimiter
import AgentHarness.StdioProtocol
import AgentHarness.Discovery
import AgentHarness.DeploymentGuard
import AgentHarness.McpConfinement
import AgentHarness.Engines
import AgentHarness.Orchestrator
import AgentHarness.GovernedStop
import AgentHarness.Middleware
import AgentHarness.Nl2sqlStream
import AgentHarness.StreamGrammar
import AgentHarness.EvalTraces
import AgentHarness.Lib.Uri
import AgentHarness.BusinessProbe
import AgentHarness.Lib.Spans
import AgentHarness.Lib.Regex
import AgentHarness.Lib.Utf8Stream
import AgentHarness.Lib.Framing
import AgentHarness.Lib.JsonRoundTrip
import AgentHarness.Lib.IsoTime
import AgentHarness.TimeRange
import AgentHarness.Lib.Table
import AgentHarness.CheckpointStores
import AgentHarness.CheckpointAgree
import AgentHarness.TaskStores
import AgentHarness.DeploymentRules
import AgentHarness.Lib.Extend
import AgentHarness.KernelRecords
import AgentHarness.KernelOutcomes
import AgentHarness.RecordKeeping
import AgentHarness.RecordDiscipline
import AgentHarness.Lib.SqlTokens
import AgentHarness.RowBound
import AgentHarness.GatewayRetry
import AgentHarness.RetryAfter
import AgentHarness.OidcRoles
import AgentHarness.ToolArguments
import AgentHarness.LlmPlanner
import AgentHarness.Lib.Keyed
import AgentHarness.StreamToolCalls
import AgentHarness.ClientContained
import AgentHarness.PilotReport
import AgentHarness.PromptLeak
import AgentHarness.UrlRoundTrip
import AgentHarness.DsnReadBack
import AgentHarness.DsnFixpoint
import AgentHarness.PilotFixpoint
import AgentHarness.Lib.WordSearch
import AgentHarness.GuardFixpoint
import AgentHarness.PreviewRuns
import AgentHarness.Lib.Rounding
import AgentHarness.Trajectory
import AgentHarness.Routing
import AgentHarness.EvalAccounting
import AgentHarness.Lib.SqlStatement
import AgentHarness.Lib.RegexPadding
import AgentHarness.InjectionGuard
import AgentHarness.Lib.JsonLoads
import AgentHarness.TolerantLoads
import AgentHarness.GuardVerb
import AgentHarness.ModeSuspension
import AgentHarness.AgentSuspension
import AgentHarness.PolicyPaths
import AgentHarness.ResumeIdentity
import AgentHarness.ResumeRuns
import AgentHarness.KernelFootprint
import AgentHarness.TaskRequests
import AgentHarness.TaskFootprint
import AgentHarness.ApprovedCalls
import AgentHarness.TaskDecision
import AgentHarness.ApprovalHistory
import AgentHarness.Lib.Mealy
import AgentHarness.ApprovalStores
import AgentHarness.ApprovalRefinement
import AgentHarness.UserStores
import AgentHarness.Access
import AgentHarness.Metrics
import AgentHarness.StreamedReply
import AgentHarness.Lib.Retry
import AgentHarness.ProviderRetries
import AgentHarness.TaskTrajectory
import AgentHarness.RunTrajectory
import AgentHarness.ShortTermMemory
