import AgentHarness.MultiAgent
import AgentHarness.RuntimeAdapter

/-!
# Kernel — `AgentKernel.run_with_options` and its modes

The keyword path assembles the context, plans, executes, verifies and responds; the compiled graph
and the sequential fallback run the same steps.  The other modes run a pipeline: NL2SQL, the
multi-tool pipeline, the multi-agent orchestrator, or `auto`, which tries NL2SQL, the multi-tool
pipeline and the keyword path in turn.

A part of a `try` body is a `guarded` program with the task as its handler would see it.
-/

namespace AgentHarness

open Lib Py

/-- `str(v)[:200]`. -/
def summarize (s : String) : String := String.ofList (s.toList.take 200)

/-- The options of `run_with_options`. -/
structure RunOptions where
  generator : String
  provider : Option String
  fallbackToMock : Bool

/-- What a mode is asked to run for a task. -/
def TaskRun.request (task : TaskRun) (opts : RunOptions) : RunRequest :=
  ⟨task.query, task.taskId, opts.generator, opts.provider, opts.fallbackToMock⟩

structure AgentKernel where
  env : Env
  /-- `langgraph` or `sequential`; only a label of the first trace -/
  engine : String
  /-- `_active_planner()` -/
  planner : Planner
  multitoolPlanner : String → MultiToolPlan
  orchestrator : MultiAgentOrchestrator
  /-- the planner of the graph adapter, when it is enabled and wired -/
  graphAdapter : Option Planner

namespace AgentKernel

/-- What `_execute` returns. -/
inductive ToolResult where
  | none
  | blocked (d : Dict)
  | record (r : ToolCallRecord)

variable (k : AgentKernel)

/-! ## The keyword path -/

/-- `_check_hook_errors`. -/
def checkHookErrors (taskId : String) (payload : Dict) : Py Unit :=
  let hookErrors := Dict.getD payload "hook_errors" (.list [])
  if hookErrors.truthy then trace "hook_failed" taskId [("hook_errors", hookErrors)] else pure ()

/-- A hook stage, and the check of its errors. -/
def runHooks (taskId stage : String) (payload : Dict) : Py Unit := do
  let left ← hook stage payload
  checkHookErrors taskId left

/-- `_assemble_context`. -/
def assemble (task : TaskRun) : Py Dict := do
  let ctx := assembleContext k.env.toolNames task.taskId task.query
  trace "context_assembled" task.taskId [("available_tools", Dict.get ctx "available_tools")]
  pure ctx

/-- `_plan`. -/
def plan (task : TaskRun) : Py PlanResult := do
  let planResult := k.planner.plan task.query
  trace "plan_created" task.taskId planResult.toDict
  pure planResult

/-- The payload of the approval that a planned tool asks for. -/
def approvalPayload (query toolName : String) (arguments : Dict) (planResult : PlanResult) : Dict :=
  [("mode", .str "keyword"), ("query", .str query), ("tool_name", .str toolName),
    ("arguments", .dict arguments), ("plan_result", .dict planResult.toDict)]

/-- The approval of a planned tool; the task waits for it. -/
def requestApproval (task : TaskRun) (toolName : String) (arguments : Dict) (planResult : PlanResult)
    (spec : ToolSpec) (decision : Decision) : Py (ToolResult × TaskRun) := do
  let approval ← createApproval task.taskId toolName s!"调用工具 {toolName}" spec.riskLevel
    spec.permissionScope decision.reason (approvalPayload task.query toolName arguments planResult)
  trace "approval_requested" task.taskId
    [("approval_id", approvalIdVal approval), ("tool_name", .str toolName),
      ("risk_level", .str spec.riskLevel.value)]
  pure (.blocked [("blocked", .bool true), ("requires_approval", .bool true),
      ("approval_id", approvalIdVal approval), ("tool_name", .str toolName),
      ("risk_level", .str spec.riskLevel.value), ("reason", .str decision.reason)],
    { task with status := .waiting_approval })

/-- The policy's answer: `none` lets the tool be called. -/
def gate (task : TaskRun) (toolName : String) (arguments : Dict) (planResult : PlanResult) :
    Py (Option (ToolResult × TaskRun)) := do
  match ← getTool toolName with
  | none => pure none
  | some spec => do
    let decision ← evaluate toolName spec.riskLevel
    if decision.allowed then pure none
    else if decision.requiresApproval ∧ k.env.kernelApprovalStore then
      some <$> requestApproval task toolName arguments planResult spec decision
    else do
      trace "tool_called" task.taskId
        [("tool_name", .str toolName), ("blocked", .bool true), ("reason", .str decision.reason)]
      pure (some (.blocked [("blocked", .bool true), ("reason", .str decision.reason),
        ("tool_name", .str toolName)], task))

/-- The call of a tool, between its hooks. -/
def callTool (task : TaskRun) (toolName : String) (arguments : Dict) : Py (ToolResult × TaskRun) := do
  runHooks task.taskId "before_tool_call" [("task_id", .str task.taskId), ("tool_name", .str toolName)]
  let record ← gatewayCall .keyword (.str toolName) (.dict arguments)
  runHooks task.taskId "after_tool_call"
    [("task_id", .str task.taskId), ("tool_name", .str toolName), ("success", .bool record.success)]
  trace "tool_called" task.taskId
    [("tool_name", .str toolName), ("success", .bool record.success),
      ("latency_ms", .float record.latencyMs), ("error", record.error)]
  pure (.record record, task)

/-- `_execute`; also the task, whose status it may set. -/
def execute (task : TaskRun) (planResult : PlanResult) : Py (ToolResult × TaskRun) :=
  match planResult.toolName with
  | none => pure (.none, task)
  | some toolName =>
    if toolName = "" then pure (.none, task)
    else do
      let arguments := planResult.arguments.getD []
      match ← k.gate task toolName arguments planResult with
      | some stopped => pure stopped
      | none => callTool task toolName arguments

/-- `_verify`. -/
def verify : ToolResult → Bool
  | .none | .blocked _ => false
  | .record r => r.success

/-- The answers to a tool that was not called, or whose call failed or succeeded. -/
def respondCalled (planResult : PlanResult) (toolResult : ToolResult) (verified : Bool) : Dict :=
  if !verified then
    let errorMsg := match toolResult with
      | .record r => if r.error.truthy then s!"（{k.env.format r.error}）" else ""
      | _ => ""
    [("answer", .str s!"工具调用失败{errorMsg}，请稍后重试。"), ("tool_called", optStr planResult.toolName),
      ("success", .bool false)]
  else
    let data := match toolResult with
      | .record r => r.result
      | .blocked d => .dict d
      | .none => .null
    [("answer", .str s!"{k.planner.getLabel planResult.toolName}查询结果：{k.env.format data}"),
      ("tool_called", optStr planResult.toolName), ("data", data), ("success", .bool true)]

/-- `_respond`. -/
def respond (planResult : PlanResult) (toolResult : ToolResult) (verified : Bool) : Dict :=
  if !planResult.matched then
    [("answer", .str "抱歉，我暂时无法识别您的问题。当前支持查询：今日 GMV、本月新增用户、订单数量、Top 商品、退款率。"),
      ("tool_called", .null), ("success", .bool false)]
  else match toolResult with
    | .blocked d =>
      if (Dict.get d "requires_approval").truthy then
        [("answer", .str ("工具调用需要人工审批：" ++ k.env.format (Dict.get d "reason"))),
          ("tool_called", Dict.get d "tool_name"), ("success", .bool false),
          ("requires_approval", .bool true), ("approval_id", Dict.get d "approval_id"),
          ("risk_level", Dict.get d "risk_level"), ("blocked", .bool true)]
      else
        [("answer", .str ("工具调用被策略拦截：" ++ k.env.format (Dict.get d "reason"))),
          ("tool_called", Dict.get d "tool_name"), ("success", .bool false), ("blocked", .bool true)]
    | toolResult => k.respondCalled planResult toolResult verified

/-- The nodes of the graph, which `_run_sequential` calls in the same order. -/
def runNodes (task : TaskRun) : Py (Dict × TaskRun) := do
  let _ ← k.assemble task
  let planResult ← k.plan task
  let (toolResult, task) ← k.execute task planResult
  let verified := if task.status = .waiting_approval then false else verify toolResult
  pure (k.respond planResult toolResult verified, task)

/-- The handler of the `try` of `run`. -/
def failRun (task : TaskRun) (exc : PyExc) : Py TaskRun := do
  let task := { task with status := .failed, error := some exc.text }
  let _ ← hook "on_error" [("task_id", .str task.taskId), ("error", .str exc.text)]
  trace "task_failed" task.taskId [("error", .str exc.text)]
  pure task

/-- A part of a `try` body: if it raises, the handler is entered with the task it would see. -/
def guarded {α : Type} (task : TaskRun) (handler : TaskRun → PyExc → Py TaskRun) (p : Py α)
    (next : α → Py TaskRun) : Py TaskRun := do
  let outcome ← MonadExcept.tryCatch (do let a ← p; pure (Except.ok a)) (fun exc => pure (.error exc))
  match outcome with
  | .error exc => handler task exc
  | .ok a => next a

/-- The end of a keyword run that does not wait. -/
def completeRun (task : TaskRun) (result : Dict) : Py TaskRun := do
  runHooks task.taskId "after_task" [("task_id", .str task.taskId), ("result", .dict result)]
  trace "task_completed" task.taskId
    [("result_summary", .str (summarize (k.env.format (.dict result))))]
  pure { task with status := .completed }

/-- `run`. -/
def run (task : TaskRun) : Py TaskRun := do
  enterMode "keyword"
  let task := { task with status := .running }
  guarded task failRun
    (do
      trace "task_started" task.taskId [("query", .str task.query), ("engine", .str k.engine)]
      runHooks task.taskId "before_task" [("task_id", .str task.taskId), ("query", .str task.query)]
      k.runNodes task)
    fun (result, task) =>
      let task := { task with result := some result }
      if task.status = .waiting_approval then pure task
      else guarded task failRun (k.completeRun task result) pure

/-! ## The other modes -/

/-- The keyword mode through the graph adapter. -/
def runGraph (adapter : Planner) (task : TaskRun) : Py TaskRun := do
  enterMode "keyword"
  let payload ← GraphRuntimeAdapter.runKeyword k.env adapter task.taskId task.query
  let status : TaskStatus :=
    if (Dict.get payload "requires_approval").truthy then
      (if (Dict.get payload "approval_id").truthy then .waiting_approval else .failed)
    else if (Dict.get payload "success").truthy then .completed
    else .failed
  pure { task with status := status, result := some payload }

/-- The handlers of the pipeline modes: the task completes with a failed result. -/
def failMode (mode answerKey label : String) (task : TaskRun) (exc : PyExc) : Py TaskRun := do
  trace (mode ++ "_failed") task.taskId [("error", .str exc.text)]
  pure { task with
    status := .completed
    result := some [("mode", .str mode), ("success", .bool false),
      (answerKey, .str s!"{label}执行异常: {exc.text}")] }

/-- `str(v)[:100]` of a text; a value without slices raises. -/
def sqlPreview : PyVal → Except PyExc PyVal
  | .str s => .ok (.str (String.ofList (s.toList.take 100)))
  | .list l => .ok (.list (l.take 100))
  | _ => .error (.typeError "object is not subscriptable")

def traceCompleted (task : TaskRun) (result : String) : Py Unit :=
  trace "task_completed" task.taskId [("result_summary", .str (summarize result))]

/-- `_run_nl2sql`. -/
def runNl2sql (task : TaskRun) (opts : RunOptions) : Py TaskRun := do
  enterMode "nl2sql"
  let task := { task with status := .running }
  guarded task (failMode "nl2sql" "answer" "NL2SQL ")
    (do
      trace "task_started" task.taskId [("query", .str task.query), ("mode", .str "nl2sql")]
      trace "nl2sql_started" task.taskId
        [("generator", .str opts.generator), ("provider", optStr opts.provider)]
      Py.runNl2sql (task.request opts).nl2sql)
    fun result =>
      let task := { task with result := some result }
      guarded task (failMode "nl2sql" "answer" "NL2SQL ")
        (do
          let success ← Prog.ofExcept (Dict.index result "success")
          let generatorUsed ← Prog.ofExcept (Dict.index result "generator_used")
          let sql ← Prog.ofExcept (sqlPreview (Dict.getD result "sql" (.str "")))
          trace "nl2sql_completed" task.taskId
            [("success", success), ("generator_used", generatorUsed), ("sql", sql)]
          traceCompleted task (k.env.format (.dict result)))
        fun _ => pure { task with status := .completed }

/-- `len(result.get("tool_calls", []))`. -/
def stepCount (result : Dict) : Except PyExc PyVal :=
  match Dict.getD result "tool_calls" (.list []) with
  | .list l => .ok (.int l.length)
  | .dict d => .ok (.int d.length)
  | .str s => .ok (.int s.length)
  | _ => .error (.typeError "object has no len()")

/-- `_run_multitool`. -/
def runMultitool (task : TaskRun) : Py TaskRun := do
  enterMode "multitool"
  let task := { task with status := .running }
  guarded task (failMode "multitool" "answer" "多工具")
    (do
      trace "task_started" task.taskId [("query", .str task.query), ("mode", .str "multitool")]
      trace "multitool_started" task.taskId [("query", .str task.query)]
      MultiToolPipeline.run k.env k.multitoolPlanner task.query task.taskId)
    fun result =>
      let task := { task with result := some result }
      if (Dict.get result "requires_approval").truthy then
        let task := { task with status := .waiting_approval }
        guarded task (failMode "multitool" "answer" "多工具")
          (trace "multitool_waiting_approval" task.taskId
            [("approval_id", Dict.get result "approval_id"), ("failed_step", Dict.get result "failed_step")])
          fun _ => pure task
      else
        guarded task (failMode "multitool" "answer" "多工具")
          (do
            let success ← Prog.ofExcept (Dict.index result "success")
            if success.truthy then do
              let steps ← Prog.ofExcept (stepCount result)
              trace "multitool_completed" task.taskId
                [("intent", Dict.getD result "intent" (.str "")), ("steps", steps)]
            else
              trace "multitool_failed" task.taskId
                [("intent", Dict.getD result "intent" (.str "")),
                  ("reason", Dict.getD result "answer" (.str ""))]
            traceCompleted task (k.env.format (.dict result)))
          fun _ => pure { task with status := .completed }

/-- `_run_multi_agent`. -/
def runMultiAgent (task : TaskRun) (opts : RunOptions) : Py TaskRun := do
  enterMode "multi_agent"
  let task := { task with status := .running }
  guarded task (failMode "multi_agent" "final_answer" "多 Agent ")
    (do
      trace "task_started" task.taskId [("query", .str task.query), ("mode", .str "multi_agent")]
      k.orchestrator.run k.env (task.request opts))
    fun result =>
      let task := { task with status := .completed, result := some result.modelDump }
      guarded task (failMode "multi_agent" "final_answer" "多 Agent ")
        (traceCompleted task result.finalAnswer) fun _ => pure task

/-- The keys that `auto` adds to a result. -/
def autoKeys (executedMode : String) (chain : List String) : Dict :=
  [("requested_mode", .str "auto"), ("executed_mode", .str executedMode),
    ("fallback_chain", .list (chain.map .str))]

def fallbackKeys (reason : String) : Dict :=
  [("auto_fallback", .bool true), ("auto_fallback_reason", .str reason)]

/-- The keyword run that ends `auto`. -/
def autoKeyword (task : TaskRun) (chain : List String) (reason : String) : Py TaskRun := do
  let task ← k.run task
  pure { task with
    result := some (((task.result.getD []).update (autoKeys "keyword" chain)).update (fallbackKeys reason)) }

/-- The handler of `auto`. -/
def autoFailed (chain : List String) (task : TaskRun) (exc : PyExc) : Py TaskRun := do
  trace "nl2sql_failed" task.taskId [("error", .str exc.text)]
  trace "auto_fallback_keyword" task.taskId [("reason", .str exc.text)]
  k.autoKeyword task (chain ++ ["keyword"]) s!"nl2sql 异常: {exc.text}"

/-- `auto` from the multi-tool pipeline on. -/
def autoMultitool (task : TaskRun) : Py TaskRun :=
  let chain := ["nl2sql", "multitool"]
  guarded task (k.autoFailed chain)
    (do
      enterMode "multitool"
      trace "auto_fallback_multitool" task.taskId [("reason", .str "nl2sql failed")]
      trace "multitool_started" task.taskId [("query", .str task.query)]
      let result ← MultiToolPipeline.run k.env k.multitoolPlanner task.query task.taskId
      let success ← Prog.ofExcept (Dict.index result "success")
      pure (result, success))
    fun (result, success) =>
      if success.truthy then
        let result := (result.update (autoKeys "multitool" chain)).update
          (fallbackKeys "nl2sql 失败，回退到 multitool 模式")
        let task := { task with result := some result }
        guarded task (k.autoFailed chain)
          (do
            trace "multitool_completed" task.taskId [("intent", Dict.getD result "intent" (.str ""))]
            traceCompleted task (k.env.format (.dict result)))
          fun _ => pure { task with status := .completed }
      else
        guarded task (k.autoFailed chain)
          (trace "multitool_failed" task.taskId [("reason", Dict.getD result "answer" (.str ""))])
          fun _ => guarded task (k.autoFailed (chain ++ ["keyword"]))
            (do
              trace "auto_fallback_keyword" task.taskId [("reason", .str "multitool failed")]
              k.autoKeyword task (chain ++ ["keyword"]) "nl2sql 和 multitool 均失败，回退到 keyword 模式")
            pure

/-- `_run_auto`. -/
def runAuto (task : TaskRun) (opts : RunOptions) : Py TaskRun := do
  let task := { task with status := .running }
  guarded task (k.autoFailed ["nl2sql"])
    (do
      enterMode "nl2sql"
      trace "task_started" task.taskId [("query", .str task.query), ("mode", .str "auto")]
      trace "nl2sql_started" task.taskId
        [("generator", .str opts.generator), ("provider", optStr opts.provider)]
      let result ← Py.runNl2sql (task.request opts).nl2sql
      let success ← Prog.ofExcept (Dict.index result "success")
      pure (result, success))
    fun (result, success) =>
      if success.truthy then
        let result := result.update (autoKeys "nl2sql" ["nl2sql"])
        let task := { task with result := some result }
        guarded task (k.autoFailed ["nl2sql"])
          (do
            trace "nl2sql_completed" task.taskId [("success", .bool true)]
            traceCompleted task (k.env.format (.dict result)))
          fun _ => pure { task with status := .completed }
      else
        guarded task (k.autoFailed ["nl2sql"])
          (trace "nl2sql_completed" task.taskId
            [("success", .bool false), ("reason", Dict.getD result "guard_reason" (.str ""))])
          fun _ => k.autoMultitool task

/-- `run_with_options`; the graph adapter serves the keyword mode when there is one. -/
def runWithOptions (mode : String) (task : TaskRun) (opts : RunOptions) : Py TaskRun :=
  if mode = "keyword" then
    match k.graphAdapter with
    | some adapter => k.runGraph adapter task
    | none => k.run task
  else if mode = "nl2sql" then k.runNl2sql task opts
  else if mode = "multitool" then k.runMultitool task
  else if mode = "multi_agent" then k.runMultiAgent task opts
  else if mode = "auto" then k.runAuto task opts
  else k.run task

end AgentKernel

end AgentHarness
