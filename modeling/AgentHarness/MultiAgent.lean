import AgentHarness.Pipeline
import Mathlib.Algebra.Order.Ring.Unbundled.Rat

/-!
# MultiAgent — the coordinator, the executor, the reviewer and their orchestrator

The coordinator routes a query to an execution mode, by an LLM function call or by the routing
rules.  The executor runs the mode; the reviewer approves the result or suggests another mode, which
is then tried once.  The provider of the LLM, the risk-intent guard and the planners are parameters.
-/

namespace AgentHarness

open Lib Py

inductive AgentRole where
  | coordinator | analyst | executor | reviewer
  deriving DecidableEq, Repr

def AgentRole.value : AgentRole → String
  | coordinator => "coordinator"
  | analyst => "analyst"
  | executor => "executor"
  | reviewer => "reviewer"

structure AgentDecision where
  role : AgentRole
  action : String
  reason : String
  confidence : Rat
  metadata : Dict

def AgentDecision.modelDump (d : AgentDecision) : PyVal :=
  .dict [("role", .str d.role.value), ("action", .str d.action), ("reason", .str d.reason),
    ("confidence", .float d.confidence), ("metadata", .dict d.metadata)]

/-- `decision.metadata[k] = v`. -/
def AgentDecision.note (d : AgentDecision) (k : String) (v : PyVal) : AgentDecision :=
  { d with metadata := d.metadata.set k v }

/-! ## Coordinator -/

/-- What the provider's `generate_with_metadata` returns; `tool_calls or []`. -/
structure LlmReply where
  toolCalls : List PyVal
  provider : PyVal
  model : PyVal

/-- `settings`, and the provider: an answer to a prompt, or the text of its exception. -/
structure CoordinatorAgent where
  settings : String → Bool
  generate : String → Except String LlmReply

namespace CoordinatorAgent

def candidateModes : List String := ["nl2sql", "multitool", "keyword", "auto"]

/-- `_match_rule`. -/
def matchRule (c : CoordinatorAgent) (query : String) : Option (RoutingRule × List String) :=
  (routingRuleSource.find? fun r => ruleEnabled c.settings r && matchesQuery query r).map fun r =>
    (r, r.keywords.filter (occursIn · query))

/-- `_confidence`. -/
def confidence (matched : List String) : Rat :=
  let countBonus : Rat := (min matched.length 2 : Nat) / 10
  let lengthBonus : Rat := if matched.any fun kw => 4 ≤ kw.length then 1 / 10 else 1 / 20
  min (6 / 10 + countBonus + lengthBonus) (95 / 100)

def decideWithRules (c : CoordinatorAgent) (query : String) (llmFallbackReason : Option String) :
    AgentDecision :=
  let extra : Dict := match llmFallbackReason with
    | some reason => [("llm_fallback_reason", .str reason)]
    | none => []
  match c.matchRule query with
  | some (rule, matched) =>
    ⟨.coordinator, rule.action,
      "关键词 '" ++ matched.headD "" ++ s!"' 匹配规则，选择 {rule.selectedMode} 模式", confidence matched,
      [("selected_mode", .str rule.selectedMode), ("matched_keywords", .list (matched.map .str)),
        ("decision_source", .str "rule"),
        ("confidence_basis", .str "keyword_match_count_and_length")] ++ extra⟩
  | none =>
    ⟨.coordinator, "unknown", "未匹配任何路由规则，使用 auto 模式", 1 / 2,
      [("selected_mode", .str "auto"), ("decision_source", .str "rule"),
        ("confidence_basis", .str "no_rule_matched")] ++ extra⟩

/-- The name of the function that a tool call names. -/
def functionName (env : Env) (toolCall : PyVal) : Except PyExc String := do
  let function := match toolCall with
    | .dict d => Dict.get d "function"
    | _ => .null
  let name ← (function.or (.dict [])).get "name"
  return env.format (name.or (.str ""))

/-- `name[len("route_to_"):] if name.startswith("route_to_") else ""`. -/
def routedMode (name : String) : String :=
  if "route_to_".toList.isPrefixOf name.toList then String.ofList (name.toList.drop 9) else ""

def prompt (query : String) : String :=
  "你是路由决策器。请调用 route_to_<mode> 中最合适的一个函数，为下面的查询选择执行模式。\n查询: " ++ query

/-- `_decide_with_llm`: a decision, or the reason to fall back on the rules. -/
def decideWithLlm (env : Env) (c : CoordinatorAgent) (query : String) :
    Except PyExc (Except String AgentDecision) :=
  match c.generate (prompt query) with
  | .error exc => .ok (.error s!"provider_error: {exc}")
  | .ok reply =>
    match reply.toolCalls with
    | [] => .ok (.error "no_tool_call: provider 未返回路由决策")
    | toolCall :: _ => do
      let name ← functionName env toolCall
      let selectedMode := routedMode name
      if selectedMode ∉ candidateModes then
        return .error s!"invalid_mode: 无法识别的路由函数 '{name}'"
      else
        let agrees := (c.matchRule query).filter fun r => r.1.selectedMode = selectedMode
        let (conf, basis, action) : Rat × String × String := match agrees with
          | some (rule, _) => (9 / 10, "llm_rule_agree", rule.action)
          | none => (7 / 10, "llm_only", "llm_route")
        return .ok ⟨.coordinator, action, s!"LLM function calling 选择 {selectedMode} 模式", conf,
          [("selected_mode", .str selectedMode), ("decision_source", .str "llm"),
            ("confidence_basis", .str basis), ("provider", reply.provider), ("model", reply.model)]⟩

def decide (env : Env) (c : CoordinatorAgent) (query : String) : Except PyExc AgentDecision :=
  if c.settings "coordinator_llm_enabled" then do
    match ← decideWithLlm env c query with
    | .ok decision => return decision
    | .error reason => return c.decideWithRules query (some reason)
  else .ok (c.decideWithRules query none)

end CoordinatorAgent

/-- `metadata.get("selected_mode", "auto")`; every coordinator decision has a text there. -/
def AgentDecision.selectedMode (d : AgentDecision) : String :=
  match Dict.getD d.metadata "selected_mode" (.str "auto") with
  | .str s => s
  | _ => "auto"

/-- `AnalystAgent.analyze`. -/
def analyze (query : String) (coordinator : AgentDecision) : AgentDecision :=
  let mode := coordinator.selectedMode
  let parts := (if mode = "nl2sql" then ["需要 schema 查询"] else []) ++
    (if mode = "multitool" then ["需要多工具串联"] else [])
  let needs := ", ".intercalate (if parts = [] then ["简单查询"] else parts)
  let planSummary := s!"查询 '{query}' → {coordinator.action}，{needs}"
  ⟨.analyst, "plan_analysis", planSummary, coordinator.confidence,
    [("selected_mode", .str mode), ("needs_schema", .bool (mode = "nl2sql")),
      ("needs_multitool", .bool (mode = "multitool")), ("plan_summary", .str planSummary)]⟩

/-! ## Executor -/

structure ExecutorAgent where
  planner : Planner
  multitoolPlanner : String → MultiToolPlan

/-- What the caller of an execution asks for. -/
structure RunRequest where
  query : String
  taskId : String
  generator : String
  provider : Option String
  fallbackToMock : Bool

def RunRequest.nl2sql (r : RunRequest) : Nl2sqlRequest := ⟨r.query, r.generator, r.provider, r.fallbackToMock⟩

namespace ExecutorAgent

variable (env : Env) (x : ExecutorAgent) (req : RunRequest)

/-- The decision that reports an execution. -/
def executed (action label mode : String) (extra : Dict) (success : Bool) : AgentDecision :=
  ⟨.executor, action, label ++ " 执行 " ++ (if success then "成功" else "失败"),
    if success then 9 / 10 else 1 / 2, ("selected_mode", .str mode) :: extra⟩

def executeNl2sql : Py (Dict × AgentDecision) := do
  enterMode "nl2sql"
  let result ← runNl2sql req.nl2sql
  let success ← Prog.ofExcept (Dict.index result "success")
  pure (result, executed "execute_nl2sql" "NL2SQL" "nl2sql" [] success.truthy)

def executeMultitool : Py (Dict × AgentDecision) := do
  enterMode "multitool"
  let result ← MultiToolPipeline.run env x.multitoolPlanner req.query req.taskId
  let success ← Prog.ofExcept (Dict.index result "success")
  pure (result, executed "execute_multitool" "MultiTool" "multitool" [] success.truthy)

def keywordFailed (answer : String) (extra : Dict) : Dict :=
  [("mode", .str "keyword"), ("success", .bool false), ("answer", .str answer)] ++ extra

def keywordBlocked (toolName reason : String) : Dict :=
  keywordFailed s!"工具调用被策略拦截: {reason}"
    [("tool_called", .str toolName), ("error_type", .str "policy_blocked"), ("blocked", .bool true)]

/-- The result of a call. -/
def keywordCalled (toolName : String) (record : ToolCallRecord) : Dict :=
  if record.success then
    [("mode", .str "keyword"), ("success", .bool true),
      ("answer", .str s!"{x.planner.getLabel (some toolName)}查询结果：{env.format record.result}"),
      ("data", record.result), ("tool_called", .str toolName)]
  else keywordFailed s!"工具调用失败: {env.format record.error}" [("tool_called", .str toolName)]

def keywordDecision (success : Bool) : AgentDecision :=
  executed "execute_keyword" "Keyword" "keyword" [("policy_blocked", .bool false)] success

/-- The policy's answer to the planned tool, when there is a spec and an engine to ask. -/
def keywordPolicy (toolName : String) : Py (Option Decision) := do
  match ← getTool toolName with
  | none => pure none
  | some spec =>
    match env.policyEngine with
    | none => pure none
    | some _ => some <$> evaluate toolName spec.riskLevel

def callKeyword (toolName : String) : Py (Dict × AgentDecision) := do
  let record ← gatewayCall .executor (.str toolName) .null
  pure (keywordCalled env x toolName record, keywordDecision record.success)

def executeKeyword : Py (Dict × AgentDecision) := do
  enterMode "keyword"
  let plan := x.planner.plan req.query
  if !plan.matched then pure (keywordFailed "未匹配关键词" [], keywordDecision false)
  else match plan.toolName with
    | none => pure (keywordFailed "无可用工具" [], keywordDecision false)
    | some toolName =>
      if toolName = "" then pure (keywordFailed "无可用工具" [], keywordDecision false)
      else do
        match ← keywordPolicy env toolName with
        | none => callKeyword env x toolName
        | some decision =>
          if decision.allowed then callKeyword env x toolName
          else pure (keywordBlocked toolName decision.reason,
            ⟨.executor, "execute_keyword", "Keyword 执行失败: 策略拦截", 3 / 10,
              [("selected_mode", .str "keyword"), ("policy_blocked", .bool true)]⟩)

/-- The result and the decision of the auto mode. -/
def autoResult (result : Dict) (mode reason : String) (confidence : Rat) (chain : List String) :
    Dict × AgentDecision :=
  ((result.set "executed_mode" (.str mode)).set "fallback_chain" (.list (chain.map .str)),
    ⟨.executor, "execute_auto", reason, confidence,
      [("selected_mode", .str "auto"), ("executed_mode", .str mode)]⟩)

def executeAuto : Py (Dict × AgentDecision) := do
  let (result, _) ← executeNl2sql req
  let success ← Prog.ofExcept (Dict.index result "success")
  if success.truthy then pure (autoResult result "nl2sql" "Auto 模式: NL2SQL 成功" (9 / 10) ["nl2sql"])
  else do
    let (resultMt, _) ← executeMultitool env x req
    let successMt ← Prog.ofExcept (Dict.index resultMt "success")
    if successMt.truthy then
      pure (autoResult resultMt "multitool" "Auto 模式: NL2SQL 失败，Multitool 成功" (7 / 10)
        ["nl2sql", "multitool"])
    else do
      let (resultKw, _) ← executeKeyword env x req
      pure (autoResult resultKw "keyword" "Auto 模式: NL2SQL 和 Multitool 均失败，Keyword fallback" (1 / 2)
        ["nl2sql", "multitool", "keyword"])

def execute (selectedMode : String) : Py (Dict × AgentDecision) :=
  if selectedMode = "nl2sql" then executeNl2sql req
  else if selectedMode = "multitool" then executeMultitool env x req
  else if selectedMode = "keyword" then executeKeyword env x req
  else executeAuto env x req

end ExecutorAgent

/-! ## Reviewer -/

structure ReviewResult where
  approved : Bool
  reason : String
  suggestedFallbackMode : Option String

def ReviewResult.toDict (r : ReviewResult) : Dict :=
  [("approved", .bool r.approved), ("reason", .str r.reason),
    ("suggested_fallback_mode", optStr r.suggestedFallbackMode)]

namespace ReviewerAgent

/-- `_suggest_fallback`. -/
def suggestFallback (failedMode : String) : String :=
  if failedMode = "nl2sql" then "multitool"
  else if failedMode = "multitool" then "keyword"
  else if failedMode = "keyword" then "auto"
  else "keyword"

def hasAnswer (result : Dict) : Bool :=
  (Dict.get result "answer").truthy || (Dict.get result "final_answer").truthy

def isBlocked (result : Dict) : Bool :=
  (Dict.get result "blocked").truthy || (Dict.get result "requires_approval").truthy

def blockedReason : String := "执行被策略拦截或等待人工审批，切换模式无法绕过审批，不建议 fallback"

def exhaustedReason : String := "auto 模式执行失败，内部 nl2sql→multitool→keyword 级联已穷尽，不再建议 fallback"

def review (result : Dict) (selectedMode : String) : ReviewResult × AgentDecision :=
  let success := (Dict.getD result "success" (.bool false)).truthy
  let rejection := fun (action reason : String) (confidence : Rat) (fallback : Option String) (extra : Dict) =>
    ((⟨false, reason, fallback⟩ : ReviewResult), (⟨.reviewer, action, reason, confidence,
      [("approved", .bool false), ("suggested_fallback_mode", optStr fallback)] ++ extra⟩ : AgentDecision))
  if success ∧ hasAnswer result then
    (⟨true, "执行成功且结果完整", none⟩,
      ⟨.reviewer, "approve", "执行成功且结果完整", 95 / 100, [("approved", .bool true)]⟩)
  else if isBlocked result then
    rejection "reject" blockedReason (85 / 100) none [("policy_blocked", .bool true)]
  else if !success ∧ selectedMode = "auto" then rejection "reject" exhaustedReason (8 / 10) none []
  else if !success then
    let fallback := suggestFallback selectedMode
    rejection "suggest_fallback" s!"执行失败，建议 fallback 到 {fallback}" (7 / 10) (some fallback) []
  else rejection "reject" "结果缺少 answer" (6 / 10) (some "keyword") []

end ReviewerAgent

/-! ## Orchestrator -/

/-- What `RiskIntentGuard.check` finds. -/
structure RiskIntentFinding where
  detected : Bool
  reason : String
  matchedKeywords : List String

/-- A pydantic `bool` field. -/
def boolField : PyVal → Except PyExc Bool
  | .bool b => .ok b
  | .int 0 => .ok false
  | .int 1 => .ok true
  | .float q => if q = 0 then .ok false else if q = 1 then .ok true else invalid
  | .str s =>
    if s.toLower ∈ ["1", "on", "t", "true", "y", "yes"] then .ok true
    else if s.toLower ∈ ["0", "off", "f", "false", "n", "no"] then .ok false
    else invalid
  | _ => invalid
where invalid : Except PyExc Bool := .error (.validationError "validation error for MultiAgentRunResult")

/-- A pydantic `str` field. -/
def strField : PyVal → Except PyExc String
  | .str s => .ok s
  | _ => .error (.validationError "validation error for MultiAgentRunResult")

structure MultiAgentRunResult where
  success : Bool
  executedMode : String
  finalAnswer : String
  decisions : List AgentDecision
  executionResult : Dict
  reviewResult : Dict
  fallbackChain : List String

def MultiAgentRunResult.modelDump (r : MultiAgentRunResult) : Dict :=
  [("mode", .str "multi_agent"), ("success", .bool r.success), ("requested_mode", .str "multi_agent"),
    ("executed_mode", .str r.executedMode), ("final_answer", .str r.finalAnswer),
    ("decisions", .list (r.decisions.map AgentDecision.modelDump)),
    ("execution_result", .dict r.executionResult), ("review_result", .dict r.reviewResult),
    ("fallback_chain", .list (r.fallbackChain.map .str))]

structure MultiAgentOrchestrator where
  coordinator : CoordinatorAgent
  executor : ExecutorAgent
  riskIntentGuard : String → RiskIntentFinding

namespace MultiAgentOrchestrator

variable (env : Env) (o : MultiAgentOrchestrator) (req : RunRequest)

def blockedRun (finding : RiskIntentFinding) : MultiAgentRunResult :=
  let answer := s!"高风险意图被拦截: {finding.reason}"
  ⟨false, "blocked", answer, [], [("success", .bool false), ("answer", .str answer),
    ("blocked", .bool true), ("blocked_reason", .str finding.reason)],
    [("approved", .bool false), ("reason", .str finding.reason)], []⟩

/-- The trace of an execution; `extra` marks a fallback. -/
def executorTrace (result : Dict) (executedMode : PyVal) (extra : Dict) : Dict :=
  [("success", Dict.getD result "success" (.bool false)), ("executed_mode", executedMode)] ++ extra ++
  (if (Dict.get result "tool_called").truthy then [("tool_called", Dict.get result "tool_called")] else []) ++
  (if (Dict.get result "tool_calls").truthy then [("tool_calls", Dict.get result "tool_calls")] else [])

/-- What the execution stages leave for the result. -/
structure Stages where
  result : Dict
  review : ReviewResult
  selectedMode : String
  decisions : List AgentDecision
  fallbackChain : List String

/-- `answer or formatted_result.summary`. -/
def finalAnswer (result : Dict) : Except PyExc PyVal :=
  let answer := Dict.getD result "answer" (.str "")
  if answer.truthy then .ok answer
  else (Dict.getD result "formatted_result" (.dict [])).getD "summary" (.str "")

section Run

/- How an event is traced, and how the executor is called, are left open. -/
variable {O : Type} {A : O → Type} (trace : String → Dict → Prog O A PyExc Unit)
  (execute : String → Prog O A PyExc (Dict × AgentDecision))

/-- The one fallback that a review may ask for. -/
def fallback (st : Stages) (fallbackMode : String) : Prog O A PyExc Stages := do
  trace "multi_agent_fallback_started"
    [("original_mode", .str st.selectedMode), ("fallback_mode", .str fallbackMode)]
  let (result, executor) ← execute fallbackMode
  trace "executor_completed" (executorTrace result (.str fallbackMode) [("fallback", .bool true)])
  let (review, reviewer) := ReviewerAgent.review result fallbackMode
  trace "reviewer_completed" [("approved", .bool review.approved), ("fallback", .bool true)]
  let decisions := st.decisions ++
    [executor.note "fallback" (.bool true), reviewer.note "fallback" (.bool true)]
  trace "multi_agent_fallback_completed"
    [("fallback_mode", .str fallbackMode), ("success", .bool review.approved)]
  pure (if review.approved then ⟨result, review, fallbackMode, decisions, st.fallbackChain ++ [fallbackMode]⟩
    else { st with decisions := decisions, fallbackChain := st.fallbackChain ++ [fallbackMode] })

/-- The execution, its review, and the fallback if the review suggests one. -/
def stages (selectedMode : String) (decisions : List AgentDecision) : Prog O A PyExc Stages := do
  let (result, executor) ← execute selectedMode
  trace "executor_completed" (executorTrace result (Dict.getD result "executed_mode" (.str selectedMode)) [])
  let (review, reviewer) := ReviewerAgent.review result selectedMode
  trace "reviewer_completed" [("approved", .bool review.approved)]
  let st : Stages := ⟨result, review, selectedMode, decisions ++ [executor, reviewer], [selectedMode]⟩
  match (if review.approved then none else review.suggestedFallbackMode) with
  | none => pure st
  | some fallbackMode => fallback trace execute st fallbackMode

def conclude (env : Env) (st : Stages) : Prog O A PyExc MultiAgentRunResult := do
  let answer ← Prog.ofExcept (finalAnswer st.result)
  let executedMode := Dict.getD st.result "executed_mode" (.str st.selectedMode)
  let success := Dict.getD st.result "success" (.bool false)
  let successField ← Prog.ofExcept (boolField success)
  let modeField ← Prog.ofExcept (strField executedMode)
  if success.truthy then trace "multi_agent_completed" [("executed_mode", executedMode)]
  else trace "multi_agent_failed" [("reason", answer.or (.str "执行失败"))]
  pure ⟨successField, modeField, env.format answer, st.decisions, st.result, st.review.toDict,
    st.fallbackChain⟩

def runOver (env : Env) (coordinator : CoordinatorAgent) (riskIntentGuard : String → RiskIntentFinding)
    (query : String) : Prog O A PyExc MultiAgentRunResult := do
  trace "multi_agent_started" [("query", .str query)]
  let finding := riskIntentGuard query
  if finding.detected then do
    trace "risk_intent_blocked"
      [("reason", .str finding.reason), ("matched_keywords", .list (finding.matchedKeywords.map .str))]
    trace "multi_agent_failed" [("reason", .str finding.reason)]
    pure (blockedRun finding)
  else do
    let decision ← Prog.ofExcept (coordinator.decide env query)
    trace "coordinator_decided"
      [("action", .str decision.action), ("selected_mode", Dict.get decision.metadata "selected_mode")]
    let analyst := analyze query decision
    trace "analyst_planned" [("plan_summary", Dict.getD analyst.metadata "plan_summary" (.str ""))]
    let st ← stages trace execute decision.selectedMode [decision, analyst]
    conclude trace env st

end Run

/-- The executor of the orchestrator, and its traces for the task. -/
def run : Py MultiAgentRunResult :=
  runOver (fun eventType detail => traceTask eventType req.taskId detail) (fun mode => o.executor.execute env req mode)
    env o.coordinator o.riskIntentGuard req.query

end MultiAgentOrchestrator

end AgentHarness
