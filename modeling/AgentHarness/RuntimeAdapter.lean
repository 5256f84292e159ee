import AgentHarness.Stores
import AgentHarness.Planner

/-!
# RuntimeAdapter — `GraphRuntimeAdapter.run_keyword`

One run assembles the context, plans, executes, verifies and responds, and writes a checkpoint row
after every stage.  A tool that needs approval ends the run: the `execute` checkpoint is created as
`interrupted`, the approval is created, and only then is the checkpoint tied to the approval by
`markPendingInterrupt`.

The body of the source is one `try`.  `guarded state p k` is a part `p` of that body, with the state
its handler would see; the handler writes a `failed` checkpoint.
-/

namespace AgentHarness

open Lib Py

/-- `GraphRuntimeState`. -/
structure GraphRuntimeState where
  taskId : String
  query : String
  stage : String
  context : Option Dict
  plan : Option Dict
  executionResult : Option Dict
  response : Option Dict
  error : Option String
  checkpointId : Option String
  checkpointStatus : Option CheckpointStatus

def GraphRuntimeState.toDict (s : GraphRuntimeState) : Dict :=
  let sub := fun (d : Option Dict) => match d with
    | some d => PyVal.dict d
    | none => .null
  [("task_id", .str s.taskId), ("query", .str s.query), ("mode", .str "keyword"),
    ("stage", .str s.stage), ("context", sub s.context), ("plan", sub s.plan),
    ("execution_result", sub s.executionResult), ("response", sub s.response),
    ("error", optStr s.error), ("checkpoint_id", optStr s.checkpointId),
    ("checkpoint_status", optStr (s.checkpointStatus.map CheckpointStatus.value))]

/-- `build_tool_approval_interrupt_payload`. -/
def buildToolApprovalInterruptPayload (taskId checkpointId toolName : String) (arguments : Dict)
    (riskLevel permissionScope : String) (policyDecision : Dict) (agentReason : String)
    (traceContext : Dict) (createdAt : Nat) : Dict :=
  [("schema_version", .int 1), ("interrupt_type", .str "tool_approval"), ("task_id", .str taskId),
    ("checkpoint_id", .str checkpointId), ("node", .str "execute"), ("mode", .str "keyword"),
    ("tool_name", .str toolName), ("arguments", .dict arguments), ("risk_level", .str riskLevel),
    ("permission_scope", .str permissionScope), ("policy_decision", .dict policyDecision),
    ("agent_reason", .str agentReason), ("trace_context", .dict traceContext),
    ("created_at", .int createdAt)]

namespace GraphRuntimeAdapter

variable (env : Env)

/-- The run id in the context; a missing context has no attribute `get`. -/
def runIdOf (context : Option Dict) : Except PyExc (Option String) :=
  match context with
  | none => .error (.attributeError "'NoneType' object has no attribute 'get'")
  | some c => do
    let runId ← (Dict.getD c "trace_context" (.dict [])).getD "run_id" (.str "")
    let text := env.format runId
    return if text = "" then none else some text

/-- The row `_checkpoint` inserts. -/
def checkpointRow (state : GraphRuntimeState) (checkpointId stage : String)
    (status : CheckpointStatus) (runId : Option String) : CheckpointRow where
  checkpointId := checkpointId
  taskId := state.taskId
  approvalId := none
  graphThreadId := some s!"graph-{state.taskId}"
  runId := runId
  status := status
  currentNode := some stage
  graphState := { state with
    stage := stage, checkpointId := some checkpointId, checkpointStatus := some status }.toDict
  pendingInterrupt := none
  resumePayload := none
  resultSnapshot := none
  consumed := false
  expiresAt := none
  resumeAttemptCount := 0
  lastResumeError := none

/-- `_checkpoint`; also the state with the id and status it sets. -/
def checkpoint (state : GraphRuntimeState) (stage : String) (status : CheckpointStatus) :
    Py (String × GraphRuntimeState) := do
  let hex ← uuid
  let checkpointId := s!"graph-{state.taskId}-{stage}-{hex}"
  let runId ← Prog.ofExcept (runIdOf env state.context)
  let _ ← createCheckpoint (checkpointRow state checkpointId stage status runId)
  recordTrace "graph_checkpoint_created" state.taskId
    [("checkpoint_id", .str checkpointId), ("stage", .str stage), ("status", .str status.value)]
  pure (checkpointId, { state with checkpointId := some checkpointId, checkpointStatus := some status })

def failure (exc : PyExc) : Dict :=
  [("success", .bool false), ("error", .str exc.text), ("graph_runtime", .bool true)]

/-- The handler of the `try`. -/
def fail (state : GraphRuntimeState) (exc : PyExc) : Py Dict := do
  let state := { state with error := some exc.text, response := some (failure exc) }
  let _ ← checkpoint env state (if state.stage = "" then "error" else state.stage) .failed
  pure (failure exc)

/-- A part of the `try` body: if it raises, the handler ends the run. -/
def guarded {α : Type} (state : GraphRuntimeState) (p : Py α) (k : α → Py Dict) : Py Dict := do
  let outcome ← MonadExcept.tryCatch (do let a ← p; pure (Except.ok a)) (fun exc => pure (.error exc))
  match outcome with
  | .error exc => fail env state exc
  | .ok a => k a

def notMatched : Dict :=
  [("answer", .str "抱歉，我暂时无法识别您的问题。当前支持查询：今日 GMV、本月新增用户、订单数量、Top 商品、退款率。"),
    ("tool_called", .null), ("success", .bool false), ("graph_runtime", .bool true)]

def notRegistered (toolName : String) : Dict :=
  [("answer", .str s!"工具 '{toolName}' 未注册"), ("tool_called", .str toolName),
    ("success", .bool false), ("graph_runtime", .bool true), ("error", .str s!"工具 '{toolName}' 未注册")]

/-- The last stage: the response is checkpointed and returned. -/
def respond (state : GraphRuntimeState) (response : Dict) (error : Option String)
    (status : CheckpointStatus) : Py Dict :=
  let state := { state with stage := "respond", response := some response, error := error }
  guarded env state (checkpoint env state "respond" status) fun _ => pure response

/-- The part of the response that says an approval is needed. -/
def baseResponse (toolName : String) (spec : ToolSpec) (decision : Decision) : Dict :=
  [("tool_called", .str toolName), ("success", .bool false), ("requires_approval", .bool true),
    ("not_supported", .bool true), ("graph_runtime", .bool true),
    ("risk_level", .str spec.riskLevel.value), ("reason", .str decision.reason)]

/-- A tool that needs approval. -/
def interrupt (state : GraphRuntimeState) (toolName : String) (spec : ToolSpec)
    (decision : Decision) : Py Dict := do
  let base := baseResponse toolName spec decision
  let state := { state with stage := "execute", executionResult := some base }
  guarded env state
    (checkpoint env state "execute" (if env.adapterApprovalStore then .interrupted else .blocked))
    fun (checkpointId, state) => guarded env state
      (do
        let createdAt ← now
        let payload := buildToolApprovalInterruptPayload state.taskId checkpointId toolName []
          spec.riskLevel.value spec.permissionScope decision.toDict decision.reason
          [("checkpoint_id", .str checkpointId)] createdAt
        if !env.adapterApprovalStore then
          pure (base ++
            [("answer", .str s!"High-risk tool '{toolName}' requires approval, but graph runtime has no approval_store; no approval was created."),
              ("approval_id", .null), ("checkpoint_id", .str checkpointId),
              ("graph_interrupt", .bool false)])
        else do
          let approval ← createApproval state.taskId toolName s!"Graph runtime approval for {toolName}"
            spec.riskLevel spec.permissionScope decision.reason
            [("mode", .str "graph_keyword"), ("checkpoint_id", .str checkpointId),
              ("graph_runtime", .bool true), ("interrupt_payload", .dict payload),
              ("query", .str state.query), ("tool_name", .str toolName), ("arguments", .dict [])]
          let response := base ++
            [("answer", .str s!"Approval has been created for high-risk tool '{toolName}'; graph resume is not implemented yet."),
              ("approval_id", approvalIdVal approval), ("checkpoint_id", .str checkpointId),
              ("graph_interrupt", .bool true)]
          let state := { state with executionResult := some response, response := some response }
          let _ ← markPendingInterrupt checkpointId approval payload state.toDict
          recordAudit [("event_type", .str "graph_interrupt_approval_created"),
            ("task_id", .str state.taskId), ("approval_id", approvalIdVal approval),
            ("tool_name", .str toolName), ("action", .str "graph_interrupt"), ("outcome", .str "success"),
            ("detail", .dict [("checkpoint_id", .str checkpointId)])]
          pure response)
      pure

/-- The response after the tool was called. -/
def callResponse (label toolName : String) (record : ToolCallRecord) : Dict :=
  if record.success then
    [("answer", .str s!"{label}查询结果：{env.format record.result}"), ("tool_called", .str toolName),
      ("data", record.result), ("success", .bool true), ("graph_runtime", .bool true)]
  else
    [("answer", .str (if record.error.truthy then s!"工具调用失败（{env.format record.error}），请稍后重试。"
        else "工具调用失败，请稍后重试。")),
      ("tool_called", .str toolName), ("success", .bool false), ("graph_runtime", .bool true),
      ("error", record.error)]

/-- The direct call. -/
def callTool (planner : Planner) (state : GraphRuntimeState) (toolName : String) : Py Dict :=
  guarded env state
    (do
      let record ← gatewayCall .graphKeyword (.str toolName) .null
      let dump ← Prog.ofExcept (env.dumpRecord record)
      pure (record, dump))
    fun (record, dump) =>
      let state := { state with stage := "execute", executionResult := some dump }
      guarded env state (checkpoint env state "execute" .running) fun (_, state) =>
        let state := { state with
          stage := "verify", executionResult := some (dump.set "verified" (.bool record.success)) }
        guarded env state (checkpoint env state "verify" .running) fun (_, state) =>
          respond env state (callResponse env (planner.getLabel (some toolName)) toolName record)
            state.error (if record.success then .completed else .failed)

/-- The stages after the plan. -/
def execute (planner : Planner) (state : GraphRuntimeState) (plan : PlanResult) : Py Dict :=
  match plan.toolName with
  | none => respond env state notMatched state.error .completed
  | some toolName =>
    if !plan.matched ∨ toolName = "" then respond env state notMatched state.error .completed
    else
      guarded env state (getTool toolName) fun spec =>
        match spec with
        | none =>
          respond env state (notRegistered toolName) (some s!"工具 '{toolName}' 未注册") .failed
        | some spec =>
          guarded env state (evaluate toolName spec.riskLevel) fun decision =>
            if spec.riskLevel = .high ∨ decision.requiresApproval then
              interrupt env state toolName spec decision
            else callTool env planner state toolName

/-- `run_keyword`. -/
def runKeyword (planner : Planner) (taskId query : String) : Py Dict :=
  let state : GraphRuntimeState := ⟨taskId, query, "created", none, none, none, none, none, none, none⟩
  let state := { state with
    stage := "assemble_context", context := some (assembleContext env.toolNames taskId query) }
  guarded env state (checkpoint env state "assemble_context" .running) fun (_, state) =>
    let plan := planner.plan query
    let state := { state with stage := "plan", plan := some plan.toDict }
    guarded env state (checkpoint env state "plan" .running) fun (_, state) =>
      execute env planner state plan

end GraphRuntimeAdapter

end AgentHarness
