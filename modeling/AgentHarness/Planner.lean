import AgentHarness.Schemas

/-!
# Planner — routing rules, `KeywordPlanner` and `MultiToolPlanner`

The planners map a query to a plan by the first rule with a keyword that occurs in the query.  The
components that use a planner take it as a parameter, since it can be replaced (`planner_mode`).
-/

namespace AgentHarness

/-- What `plan(query)` of a tool planner returns. -/
structure PlanResult where
  toolName : Option String
  matched : Bool
  label : Option String
  /-- only the LLM planner gives arguments -/
  arguments : Option Dict
  /-- `planner`, `provider`, `model`, `fallback_reason` -/
  extra : Dict

def PlanResult.toDict (p : PlanResult) : Dict :=
  [("tool_name", optStr p.toolName), ("matched", .bool p.matched), ("label", optStr p.label)] ++
  (match p.arguments with
    | some a => [("arguments", PyVal.dict a)]
    | none => []) ++ p.extra

/-- A tool planner. -/
structure Planner where
  plan : String → PlanResult
  getLabel : Option String → String

structure RoutingRule where
  keywords : List String
  toolName : Option String
  label : String
  action : String
  selectedMode : String
  settingsSwitch : Option String

/-- `kw in query`. -/
def occursIn (kw query : String) : Bool := query.toList.tails.any fun t => kw.toList.isPrefixOf t

/-- `ROUTING_RULE_SOURCE`; the first rule that matches decides. -/
def routingRuleSource : List RoutingRule :=
  [⟨["GMV环比", "环比增长", "退款规则", "退款政策", "促销规则"], none, "", "compound_tool_query",
      "multitool", none⟩,
    ⟨["模拟退款", "退款演练"], some "simulate_refund_order", "模拟退款单", "high_risk_operation",
      "keyword", some "demo_high_risk_tool_enabled"⟩,
    ⟨["今天几号", "当前日期", "日期"], some "date_lookup", "日期查询", "simple_query", "keyword", none⟩,
    ⟨["GMV", "gmv", "销售额"], some "get_today_gmv", "今日 GMV", "data_query", "nl2sql", none⟩,
    ⟨["新增用户", "用户"], some "get_month_new_users", "本月新增用户", "data_query", "nl2sql", none⟩,
    ⟨["订单", "订单量"], some "get_order_count", "订单数量", "data_query", "nl2sql", none⟩,
    ⟨["Top商品", "热销", "热门商品", "top商品"], some "get_top_products", "Top 商品", "data_query",
      "nl2sql", none⟩,
    ⟨["退款率", "退款"], some "get_refund_rate", "退款率", "data_query", "nl2sql", none⟩]

/-- `settings` reads the boolean switches. -/
def ruleEnabled (settings : String → Bool) (rule : RoutingRule) : Bool :=
  match rule.settingsSwitch with
  | none => true
  | some s => settings s

def matchesQuery (query : String) (rule : RoutingRule) : Bool := rule.keywords.any (occursIn · query)

namespace KeywordPlanner

def routingRules : List RoutingRule := routingRuleSource.filter fun r => r.toolName.isSome

def plan (settings : String → Bool) (query : String) : PlanResult :=
  match routingRules.find? fun r => ruleEnabled settings r && matchesQuery query r with
  | some r => ⟨r.toolName, true, some r.label, none, []⟩
  | none => ⟨none, false, none, none, []⟩

def getLabel (toolName : Option String) : String :=
  match toolName with
  | none => "未知"
  | some t =>
    if t = "" then "未知"
    else match routingRules.find? fun r => r.toolName == some t with
      | some r => r.label
      | none => t

end KeywordPlanner

def keywordPlanner (settings : String → Bool) : Planner :=
  ⟨KeywordPlanner.plan settings, KeywordPlanner.getLabel⟩

/-! ## Multi-tool plans -/

structure MultiToolPlanStep where
  stepId : String
  toolName : String
  arguments : Dict
  dependsOn : List String
  saveAs : Option String

structure MultiToolPlan where
  matched : Bool
  intent : String
  steps : List MultiToolPlanStep
  responseTemplate : String
  reason : String

/-- `model_dump()` of a step. -/
def MultiToolPlanStep.modelDump (s : MultiToolPlanStep) : PyVal :=
  .dict [("step_id", .str s.stepId), ("tool_name", .str s.toolName), ("arguments", .dict s.arguments),
    ("depends_on", .list (s.dependsOn.map .str)), ("save_as", optStr s.saveAs)]

/-- `model_dump()` of a plan. -/
def MultiToolPlan.modelDump (p : MultiToolPlan) : PyVal :=
  .dict [("matched", .bool p.matched), ("intent", .str p.intent),
    ("steps", .list (p.steps.map MultiToolPlanStep.modelDump)),
    ("response_template", .str p.responseTemplate), ("reason", .str p.reason)]

namespace MultiToolPlanner

def gmvMomPlan : MultiToolPlan where
  matched := true
  intent := "gmv_mom"
  steps :=
    [⟨"step_date", "date_lookup", [], [], some "date_info"⟩,
      ⟨"step_gmv", "get_today_gmv", [], [], some "current_gmv"⟩,
      ⟨"step_calc", "calculator",
        [("operation", .str "percent_change"), ("a", .str "$current_gmv.result.gmv"), ("b", .int 100000)],
        ["step_date", "step_gmv"], some "mom_change"⟩]
  responseTemplate := "GMV环比增长"
  reason := "使用 mock baseline=100000 作为上期 GMV，v0.3.2 将接入真实上月查询"

def refundRulePlan : MultiToolPlan where
  matched := true
  intent := "refund_rule"
  steps :=
    [⟨"step_rule", "rule_lookup", [("keyword", .str "refund")], [], some "refund_rule"⟩,
      ⟨"step_rate", "get_refund_rate", [], [], some "refund_rate"⟩]
  responseTemplate := "退款规则+退款率"
  reason := "查询退款规则并获取当前退款率"

def promotionRulePlan : MultiToolPlan where
  matched := true
  intent := "promotion_rule"
  steps := [⟨"step_rule", "rule_lookup", [("keyword", .str "promotion")], [], some "promotion_rule"⟩]
  responseTemplate := "促销规则"
  reason := "查询促销规则"

def unmatchedPlan : MultiToolPlan := ⟨false, "", [], "", "未匹配到多工具任务"⟩

def rules : List (List String × MultiToolPlan) :=
  [(["GMV环比", "环比增长"], gmvMomPlan), (["退款规则", "退款政策"], refundRulePlan),
    (["促销规则"], promotionRulePlan)]

def plan (query : String) : MultiToolPlan :=
  match rules.find? fun r => r.1.any (occursIn · query) with
  | some r => r.2
  | none => unmatchedPlan

end MultiToolPlanner

end AgentHarness
