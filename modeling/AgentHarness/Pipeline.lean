import AgentHarness.Stores
import AgentHarness.Variables
import AgentHarness.Planner

/-!
# Pipeline — `MultiToolPipeline.run`

The steps of a plan run in order.  A step needs the steps it depends on, a registered tool, the
consent of the policy and arguments that resolve; the first step that lacks one of these, or whose
tool call fails, ends the run.  A step that needs approval ends it with a pending approval, whose
payload carries the plan, the completed steps and the tool calls made so far.
-/

namespace AgentHarness

open Lib Py

namespace MultiToolPipeline

/-- `saved`, `completed_step_ids` and `tool_calls`. -/
structure State where
  saved : List (String × ToolCallRecord)
  completed : List String
  toolCalls : List PyVal

def State.init : State := ⟨[], [], []⟩

/-- The `call_data` of a call that was made. -/
def callData (step : MultiToolPlanStep) (r : ToolCallRecord) : Dict :=
  [("step_id", .str step.stepId), ("tool_name", .str r.toolName), ("arguments", .dict r.arguments),
    ("success", .bool r.success), ("result", r.result), ("latency_ms", .float r.latencyMs),
    ("error", r.error), ("retry_count", .int r.retryCount), ("save_as", optStr step.saveAs)]

/-- The `call_data` of a step that was not allowed to call its tool. -/
def blockedData (step : MultiToolPlanStep) (error : String) (extra : Dict) : Dict :=
  [("step_id", .str step.stepId), ("tool_name", .str step.toolName), ("arguments", .dict step.arguments),
    ("success", .bool false), ("result", .null), ("latency_ms", .float 0), ("error", .str error),
    ("policy_blocked", .bool true)] ++ extra

/-- `if step.save_as: saved[step.save_as] = record`. -/
def saveStep (saveAs : Option String) (r : ToolCallRecord) (saved : List (String × ToolCallRecord)) :
    List (String × ToolCallRecord) :=
  match saveAs with
  | none => saved
  | some k => if k = "" then saved else (k, r) :: saved

/-- The state after a successful call. -/
def State.after (st : State) (step : MultiToolPlanStep) (r : ToolCallRecord) : State where
  saved := saveStep step.saveAs r st.saved
  completed := st.completed ++ [step.stepId]
  toolCalls := st.toolCalls ++ [.dict (callData step r)]

/-- `x.result.get(key, dflt) if x and x.result else dflt` for `x = saved.get(name)`. -/
def savedField (saved : List (String × ToolCallRecord)) (name key : String) (dflt : PyVal) :
    Except PyExc PyVal :=
  match saved.lookup name with
  | none => .ok dflt
  | some r => if r.result.truthy then r.result.getD key dflt else .ok dflt

section

variable (env : Env)

/-- `_generate_answer`. -/
def generateAnswer (plan : MultiToolPlan) (saved : List (String × ToolCallRecord)) :
    Except PyExc String :=
  if plan.intent = "gmv_mom" then do
    let date ← savedField saved "date_info" "date" (.str "未知")
    let gmv ← savedField saved "current_gmv" "gmv" (.int 0)
    let change ← savedField saved "mom_change" "result" (.int 0)
    return s!"截至 {env.format date}，当前 GMV 为 {env.format gmv}，环比变化 {env.format change}%（上期基线 mock=100000）"
  else if plan.intent = "refund_rule" then do
    let rule ← savedField saved "refund_rule" "rule" (.str "未知")
    let rate ← savedField saved "refund_rate" "refund_rate_percent" (.int 0)
    return s!"退款规则：{env.format rule}；当前退款率：{env.format rate}%"
  else if plan.intent = "promotion_rule" then do
    let rule ← savedField saved "promotion_rule" "rule" (.str "未知")
    return s!"促销规则：{env.format rule}"
  else return plan.responseTemplate

def notMatched (plan : MultiToolPlan) : Dict :=
  [("mode", .str "multitool"), ("success", .bool false), ("intent", .str ""),
    ("answer", .str "未匹配多工具任务"), ("plan", plan.modelDump), ("tool_calls", .list [])]

/-- The result of a run that a step ended; `extra` is what the kind of failure adds. -/
def failedResult (plan : MultiToolPlan) (step : MultiToolPlanStep) (errorType : String) (extra : Dict)
    (answer : String) (toolCalls : List PyVal) : Dict :=
  [("mode", .str "multitool"), ("success", .bool false), ("intent", .str plan.intent),
    ("error_type", .str errorType)] ++ extra ++
  [("answer", .str answer), ("plan", plan.modelDump), ("tool_calls", .list toolCalls),
    ("failed_step", .str step.stepId)]

/-- The payload of the approval that a step asks for. -/
def approvalPayload (plan : MultiToolPlan) (query : String) (step : MultiToolPlanStep) (st : State) :
    Dict :=
  [("mode", .str "multitool"), ("query", .str query), ("step_id", .str step.stepId),
    ("tool_name", .str step.toolName), ("arguments", .dict step.arguments), ("plan", plan.modelDump),
    ("completed_step_ids", .list (st.completed.map .str)), ("tool_calls", .list st.toolCalls)]

/-- A tool that is not registered. -/
def refuseUnregistered (plan : MultiToolPlan) (taskId : String) (step : MultiToolPlanStep)
    (st : State) : Py Dict := do
  let reason := s!"工具 '{step.toolName}' 未在 ToolGateway 注册"
  traceTask "operation_whitelist_blocked" taskId
    [("step_id", .str step.stepId), ("tool_name", .str step.toolName), ("mode", .str "multitool"),
      ("reason", .str reason)]
  recordAudit [("event_type", .str "operation_whitelist_blocked"), ("task_id", .str taskId),
    ("tool_name", .str step.toolName), ("action", .str "multitool_step"), ("outcome", .str "blocked"),
    ("severity", .str "high"), ("reason", .str reason),
    ("detail", .dict [("step_id", .str step.stepId), ("mode", .str "multitool")])]
  pure (failedResult plan step "operation_not_whitelisted" []
    s!"步骤 {step.stepId} 工具 '{step.toolName}' 未注册，不允许执行"
    (st.toolCalls ++ [.dict (blockedData step reason [])]))

/-- A step that needs approval, with a store to ask in. -/
def suspend (plan : MultiToolPlan) (taskId query : String) (step : MultiToolPlanStep)
    (spec : ToolSpec) (decision : Decision) (st : State) : Py Dict := do
  let approval ← createApproval taskId step.toolName
    s!"多工具步骤 {step.stepId} 调用 {step.toolName}" spec.riskLevel spec.permissionScope
    decision.reason (approvalPayload plan query step st)
  traceTask "multitool_approval_required" taskId
    [("step_id", .str step.stepId), ("tool_name", .str step.toolName),
      ("approval_id", approvalIdVal approval), ("reason", .str decision.reason)]
  recordAudit [("event_type", .str "approval_requested"), ("task_id", .str taskId),
    ("approval_id", approvalIdVal approval), ("tool_name", .str step.toolName),
    ("action", .str "multitool_step"), ("outcome", .str "waiting_approval"),
    ("reason", .str decision.reason), ("detail", .dict [("step_id", .str step.stepId)])]
  pure (failedResult plan step "approval_required"
    [("requires_approval", .bool true), ("approval_id", approvalIdVal approval)]
    s!"步骤 {step.stepId} 需要人工审批: {decision.reason}"
    (st.toolCalls ++ [.dict (blockedData step decision.reason
      [("requires_approval", .bool true), ("approval_id", approvalIdVal approval)])]))

/-- A step that the policy refuses. -/
def refuse (plan : MultiToolPlan) (taskId : String) (step : MultiToolPlanStep)
    (decision : Decision) (st : State) : Py Dict := do
  traceTask "multitool_policy_blocked" taskId
    [("step_id", .str step.stepId), ("tool_name", .str step.toolName), ("reason", .str decision.reason)]
  pure (failedResult plan step "policy_blocked" [] s!"步骤 {step.stepId} 被策略拦截: {decision.reason}"
    (st.toolCalls ++ [.dict (blockedData step decision.reason [])]))

/-- The reading of the policy decision: `none` lets the step run. -/
def gateStep (plan : MultiToolPlan) (taskId query : String) (step : MultiToolPlanStep)
    (spec : ToolSpec) (st : State) : Py (Option Dict) :=
  match env.policyEngine with
  | none => pure none
  | some _ => do
    let decision ← evaluate step.toolName spec.riskLevel
    if decision.allowed then pure none
    else if decision.requiresApproval ∧ env.pipelineApprovalStore then
      some <$> suspend plan taskId query step spec decision st
    else some <$> refuse plan taskId step decision st

/-- The call of a step that may run; `next` is what follows its success. -/
def callStep (plan : MultiToolPlan) (taskId : String) (step : MultiToolPlanStep) (st : State)
    (next : State → Py Dict) : Py Dict :=
  match resolveArguments env (.dict step.arguments) st.saved with
  | .error exc => do
    traceTask "multitool_step_failed" taskId
      [("step_id", .str step.stepId), ("error_type", .str "variable_resolution_failed"),
        ("error_path", .str exc.path)]
    pure (failedResult plan step "variable_resolution_failed" [("error_path", .str exc.path)]
      s!"步骤 {step.stepId} 变量解析失败: ${exc.path}" st.toolCalls)
  | .ok resolvedArgs => do
    traceTask "multitool_step_started" taskId
      [("step_id", .str step.stepId), ("tool_name", .str step.toolName)]
    let record ← gatewayCall (.pipelineStep step.stepId) (.str step.toolName) resolvedArgs
    if !record.success then do
      traceTask "multitool_step_failed" taskId
        [("step_id", .str step.stepId), ("tool_name", .str step.toolName),
          ("error_type", .str "tool_call_failed"), ("error", record.error)]
      pure (failedResult plan step "tool_call_failed" []
        s!"步骤 {step.stepId} 工具调用失败: {env.format record.error}"
        (st.toolCalls ++ [.dict (callData step record)]))
    else do
      traceTask "multitool_step_completed" taskId
        [("step_id", .str step.stepId), ("tool_name", .str step.toolName)]
      next (st.after step record)

/-- The loop over the steps. -/
def runSteps (plan : MultiToolPlan) (taskId query : String) : List MultiToolPlanStep → State → Py Dict
  | [], st => do
    let answer ← Prog.ofExcept (generateAnswer env plan st.saved)
    pure [("mode", .str "multitool"), ("success", .bool true), ("intent", .str plan.intent),
      ("answer", .str answer), ("plan", plan.modelDump), ("tool_calls", .list st.toolCalls)]
  | step :: rest, st =>
    let missing := step.dependsOn.filter (· ∉ st.completed)
    if !missing.isEmpty then do
      traceTask "multitool_step_failed" taskId
        [("step_id", .str step.stepId), ("error_type", .str "dependency_not_satisfied"),
          ("missing_depends_on", .list (missing.map .str))]
      pure (failedResult plan step "dependency_not_satisfied"
        [("missing_depends_on", .list (missing.map .str))]
        s!"步骤 {step.stepId} 依赖未满足: {env.format (.list (missing.map .str))}" st.toolCalls)
    else do
      match ← getTool step.toolName with
      | none => refuseUnregistered plan taskId step st
      | some spec => do
        match ← gateStep env plan taskId query step spec st with
        | some stopped => pure stopped
        | none => callStep env plan taskId step st (runSteps plan taskId query rest)

/-- `run`; the planner is a parameter. -/
def run (planner : String → MultiToolPlan) (query taskId : String) : Py Dict :=
  if !(planner query).matched then pure (notMatched (planner query))
  else runSteps env (planner query) taskId query (planner query).steps .init

end

end MultiToolPipeline

end AgentHarness
