import AgentHarness.PyVal

/-!
# Schemas — the records the components exchange, and the rows of the stores

The enumerations carry the texts the stores hold (`value`).  Approval ids are the positions of the
rows in the approvals table, so an id is fresh by construction; `approvalIdVal` is the text that
appears in results.
-/

namespace AgentHarness

inductive TaskStatus where
  | created | pending | running | waiting_approval | completed | failed | cancelled
  deriving DecidableEq, Repr

def TaskStatus.value : TaskStatus → String
  | created => "created"
  | pending => "pending"
  | running => "running"
  | waiting_approval => "waiting_approval"
  | completed => "completed"
  | failed => "failed"
  | cancelled => "cancelled"

inductive RiskLevel where
  | low | medium | high
  deriving DecidableEq, Repr

def RiskLevel.value : RiskLevel → String
  | low => "low"
  | medium => "medium"
  | high => "high"

inductive ApprovalStatus where
  | pending | approved | rejected | expired
  deriving DecidableEq, Repr

def ApprovalStatus.value : ApprovalStatus → String
  | pending => "pending"
  | approved => "approved"
  | rejected => "rejected"
  | expired => "expired"

inductive CheckpointStatus where
  | running | completed | failed | blocked | interrupted | resuming | resumed | cancelled | expired
  deriving DecidableEq, Repr

def CheckpointStatus.value : CheckpointStatus → String
  | running => "running"
  | completed => "completed"
  | failed => "failed"
  | blocked => "blocked"
  | interrupted => "interrupted"
  | resuming => "resuming"
  | resumed => "resumed"
  | cancelled => "cancelled"
  | expired => "expired"

inductive ToolCallStatus where
  | pending | running | completed | failed
  deriving DecidableEq, Repr

def ToolCallStatus.value : ToolCallStatus → String
  | pending => "pending"
  | running => "running"
  | completed => "completed"
  | failed => "failed"

structure ToolSpec where
  toolName : String
  riskLevel : RiskLevel
  permissionScope : String
  /-- `retry_policy.get("max_retries", 0)` -/
  maxRetries : Nat
  source : String
  serverName : Option String
  mcpToolName : Option String

structure ToolCallRecord where
  callId : String
  toolName : String
  arguments : Dict
  result : PyVal
  status : ToolCallStatus
  success : Bool
  latencyMs : Rat
  retryCount : Nat
  /-- `None` is `PyVal.null`; a tool may return any truthy value under `error` -/
  error : PyVal
  calledAt : PyVal

/-- The pydantic fields of a record, as attribute access reads them. -/
def ToolCallRecord.field? (r : ToolCallRecord) : String → Option PyVal
  | "call_id" => some (.str r.callId)
  | "tool_name" => some (.str r.toolName)
  | "arguments" => some (.dict r.arguments)
  | "result" => some r.result
  | "status" => some (.str r.status.value)
  | "success" => some (.bool r.success)
  | "latency_ms" => some (.float r.latencyMs)
  | "retry_count" => some (.int r.retryCount)
  | "error" => some r.error
  | "called_at" => some r.calledAt
  | _ => none

/-- What `PolicyEngine.evaluate` returns. -/
structure Decision where
  action : String
  riskLevel : Option RiskLevel
  allowed : Bool
  requiresApproval : Bool
  reason : String
  errorType : Option String

def optStr : Option String → PyVal
  | some s => .str s
  | none => .null

def Decision.toDict (d : Decision) : Dict :=
  [("action", .str d.action), ("risk_level", optStr (d.riskLevel.map RiskLevel.value)),
    ("allowed", .bool d.allowed), ("reason", .str d.reason),
    ("requires_approval", .bool d.requiresApproval)] ++
  match d.errorType with
  | some t => [("error_type", .str t)]
  | none => []

/-- What `PromptInjectionGuard` reports on a text or a payload. -/
structure InjectionFinding where
  detected : Bool
  severity : String
  reason : String
  matchedPatterns : List String
  action : String

abbrev ApprovalId := Nat

/-- The text of an approval id in results and payloads. -/
def approvalIdVal (a : ApprovalId) : PyVal := .str ("apr_" ++ Nat.repr a)

/-- A row of `approvals`, with its payload column decoded. -/
structure ApprovalRow where
  taskId : String
  toolName : String
  action : String
  riskLevel : RiskLevel
  impactScope : String
  agentReason : String
  status : ApprovalStatus
  decidedBy : Option String
  decisionReason : Option String
  payload : Option Dict

/-- `approval.get("payload") or {}`. -/
def ApprovalRow.payloadDict (r : ApprovalRow) : Dict := r.payload.getD []

/-- A row of `tasks`. -/
structure TaskRow where
  query : String
  mode : String
  status : TaskStatus
  result : Option Dict
  error : Option String

/-- A row of `graph_run_states`. -/
structure CheckpointRow where
  checkpointId : String
  taskId : String
  approvalId : Option ApprovalId
  graphThreadId : Option String
  runId : Option String
  status : CheckpointStatus
  currentNode : Option String
  graphState : Dict
  pendingInterrupt : Option Dict
  resumePayload : Option Dict
  resultSnapshot : Option Dict
  consumed : Bool
  expiresAt : Option Nat
  resumeAttemptCount : Nat
  lastResumeError : Option String

/-- The run a task request is about. -/
structure TaskRun where
  taskId : String
  query : String
  status : TaskStatus
  result : Option Dict
  error : Option String

/-- `ContextAssembler.assemble`, dumped: the mock user and the mock policy of the source. -/
def assembleContext (availableTools : List String) (taskId query : String) : Dict :=
  [("task_id", .str taskId), ("user_query", .str query),
    ("user_info", .dict [("user_id", .str "mock_user_001"), ("role", .str "ops_analyst"),
      ("department", .str "运营部")]),
    ("available_tools", .list (availableTools.map .str)),
    ("policies", .dict [("allow_high_risk", .bool false), ("max_retries", .int 1),
      ("timeout_seconds", .int 30)]),
    ("trace_context", .dict []), ("metadata", .dict [("source", .str "context_assembler")])]

end AgentHarness
