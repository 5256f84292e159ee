import AgentHarness.Guardrails
import AgentHarness.Providers
import AgentHarness.SQLGuard

/-!
# Nl2sql — the generators of SQL

`SchemaPruner`, `MockNL2SQLGenerator` and `LLMNL2SQLGenerator`.  Every way out of the LLM generator
builds its own result record: a failure falls back to the mock generator or, where that is switched
off, becomes a refused result without SQL.
-/

namespace AgentHarness

open Lib

structure PrunedSchema where
  tables : List SchemaTable
  fallback : Bool
  reason : String
  matchedKeywords : List String

structure NL2SQLResult where
  query : String
  prunedSchema : PrunedSchema
  sql : String
  confidence : Rat
  reasoning : String
  guardResult : SQLGuardResult
  generatorUsed : String
  providerUsed : Option String
  fallbackUsed : Bool
  fallbackReason : Option String
  warnings : List String

/-- `sub in text`. -/
def textHas (text sub : String) : Bool := sub.toList <:+: text.toList

/-- `text.replace(old, new)` for a text `old` that is not empty. -/
def replaceIn (old new : List Char) : List Char → Nat → List Char
  | [], _ => []
  | _ :: cs, skip + 1 => replaceIn old new cs skip
  | c :: cs, 0 =>
    if old.isPrefixOf (c :: cs) then new ++ replaceIn old new cs (old.length - 1)
    else c :: replaceIn old new cs 0

def replaceText (text old new : String) : String :=
  String.ofList (replaceIn old.toList new.toList text.toList 0)

namespace SchemaPruner

structure Rule where
  keywords : List String
  tables : List String
  reason : String

def pruningRules : List Rule :=
  [⟨["GMV", "gmv", "销售额", "指标"], ["daily_metrics"], "查询涉及 GMV/销售额/指标，选择 daily_metrics"⟩,
    ⟨["订单", "订单量"], ["orders"], "查询涉及订单，选择 orders"⟩,
    ⟨["用户", "新增用户"], ["users"], "查询涉及用户，选择 users"⟩,
    ⟨["商品", "Top商品", "热销", "热门商品", "top商品"], ["products", "orders"],
      "查询涉及商品排名，选择 products + orders"⟩,
    ⟨["退款", "退款率"], ["refund_orders", "orders"], "查询涉及退款，选择 refund_orders + orders"⟩]

def prune (query : String) (schema : DatabaseSchema) : PrunedSchema :=
  match pruningRules.find? fun r => r.keywords.any (textHas query) with
  | none => ⟨schema.tables, true, "未匹配到关键词规则，返回所有表", []⟩
  | some rule => ⟨schema.tables.filter fun t => t.name ∈ rule.tables, false, rule.reason,
      rule.keywords.filter (textHas query)⟩

end SchemaPruner

namespace MockNL2SQLGenerator

structure Template where
  keywords : List String
  sql : String
  confidence : Rat
  reasoning : String

def sqlTemplates : List Template :=
  [⟨["GMV", "gmv", "销售额"],
      "SELECT metric_date, gmv, order_count FROM daily_metrics WHERE metric_date = '{today}'", 9 / 10,
      "根据关键词匹配到 GMV 查询，从 daily_metrics 表获取当日数据"⟩,
    ⟨["新增用户", "用户"],
      "SELECT COUNT(*) as new_users FROM users WHERE registered_date LIKE '{month_prefix}%'", 17 / 20,
      "根据关键词匹配到新增用户查询，从 users 表统计本月注册用户"⟩,
    ⟨["订单", "订单量"],
      "SELECT COUNT(*) as order_count, COALESCE(SUM(total_amount), 0) as total_amount FROM orders WHERE order_date = '{today}'",
      17 / 20, "根据关键词匹配到订单查询，从 orders 表获取当日订单统计"⟩,
    ⟨["商品", "Top商品", "热销", "热门商品", "top商品"],
      "SELECT p.name, p.category, SUM(o.quantity) as total_qty, SUM(o.total_amount) as total_revenue FROM orders o JOIN products p ON o.product_id = p.id WHERE o.status = 'completed' GROUP BY o.product_id ORDER BY total_revenue DESC LIMIT 5",
      4 / 5, "根据关键词匹配到商品排名查询，关联 products 和 orders 表"⟩,
    ⟨["退款", "退款率"],
      "SELECT (SELECT COUNT(*) FROM refund_orders) * 100.0 / (SELECT COUNT(*) FROM orders) as refund_rate_percent",
      4 / 5, "根据关键词匹配到退款率查询，从 refund_orders 和 orders 表计算比率"⟩]

def matchTemplate (query : String) : Option Template :=
  sqlTemplates.find? fun t => t.keywords.any (textHas query)

def fillTemplate (sql today monthPrefix : String) : String :=
  replaceText (replaceText sql "{today}" today) "{month_prefix}" monthPrefix

/-- The result for a template filled on a day. -/
def templateResult (u : Unicode) (query : String) (pruned : PrunedSchema) (t : Template)
    (today monthPrefix : String) : NL2SQLResult :=
  let guardResult := SQLGuard.check u (fillTemplate t.sql today monthPrefix)
  ⟨query, pruned, guardResult.sql, t.confidence, t.reasoning, guardResult, "mock", none, false, none, []⟩

def generate (u : Unicode) (query : String) (schema : DatabaseSchema) : Llm NL2SQLResult :=
  let pruned := SchemaPruner.prune query schema
  match matchTemplate query with
  | none => return ⟨query, pruned, "", 0, "未匹配到任何查询模板",
      ⟨false, "", "无法生成 SQL：未匹配到查询模板"⟩, "mock", none, false, none, []⟩
  | some template => do
    let (today, monthPrefix) ← Llm.perform .today
    return templateResult u query pruned template today monthPrefix

end MockNL2SQLGenerator

/-- A part of a call, with its exception as a value. -/
def Llm.attempt {α : Type} (p : Llm α) : Llm (Except Raised α) :=
  tryCatch (p >>= fun a => pure (.ok a)) fun e => pure (.error e)

namespace LLMNL2SQLGenerator

/-- What is made of a reply: a result, or the reason and the warnings to fall back with. -/
inductive Parsed where
  | accepted (result : NL2SQLResult)
  | fallback (reason : String) (warnings : List String)

section

variable (env : LlmEnv)

/-- One table of the prompt. -/
def formatTable (t : SchemaTable) : String :=
  let field (f : SchemaField) : String :=
    f.name ++ "(" ++ f.type ++ ")" ++ (if f.isPrimaryKey then " PK" else "") ++
      (if f.sampleValues.isEmpty then "" else " samples=" ++ env.format (.list f.sampleValues))
  "表 " ++ t.name ++ " (" ++ toString t.rowCount ++ " 行): " ++ ", ".intercalate (t.fields.map field)

def formatSchema (tables : List SchemaTable) : String :=
  "\n".intercalate (tables.map (formatTable env))

def renderPrompt (query : String) (pruned : PrunedSchema) : String :=
  let template := match env.promptTemplate with
    | none | some "" => "{query}\n{schema_text}"
    | some t => t
  replaceText (replaceText template "{query}" query) "{schema_text}" (formatSchema env pruned.tables)

/-- `json.loads`, where a decoding error lets the next attempt begin. -/
def tryLoads (text : List Char) (next : Except Raised (PyVal × Option String)) (hint : Option String) :
    Except Raised (PyVal × Option String) :=
  match env.jsonLoads (String.ofList text) with
  | .ok data => .ok (data, hint)
  | .error e => if e.cls = "JSONDecodeError" then next else .error e

def fence : List Char := "\x60\x60\x60".toList

/-- The text inside a markdown fence. -/
def unfence (u : Unicode) (raw : List Char) : Option (List Char) :=
  let text := u.strip raw
  if fence.isPrefixOf text then
    let text := match text.dropWhile (· ≠ '\n') with
      | _ :: rest => rest
      | [] => text
    let stripped := Unicode.dropEnd u.isSpace text
    some (if fence <:+ stripped then stripped.take (stripped.length - fence.length) else text)
  else none

/-- From the first opening to the last closing brace. -/
def braced (raw : List Char) : Option (List Char) :=
  let inner := Unicode.dropEnd (· ≠ '\x7d') (raw.dropWhile (· ≠ '\x7b'))
  if inner.head? = some '\x7b' ∧ 1 < inner.length then some inner else none

/-- `_loads_tolerant`: the data and a hint, or the first decoding error. -/
def loadsTolerant (raw : String) : Except Raised (PyVal × Option String) :=
  let first := env.jsonLoads raw
  let lastTry := match braced raw.toList with
    | some inner => tryLoads env inner (first.map fun d => (d, none)) (some "已从含前后缀文本的响应中提取 JSON")
    | none => first.map fun d => (d, none)
  let fenced := match unfence env.unicode raw.toList with
    | some inner => tryLoads env inner lastTry (some "已从 markdown 代码围栏中提取 JSON")
    | none => lastTry
  tryLoads env raw.toList fenced none

/-- `float(v)`. -/
def toFloat (v : PyVal) : Except Raised Rat :=
  match v with
  | .bool b => .ok (if b then 1 else 0)
  | .int i => .ok i
  | .float q => .ok q
  | .str s => match env.floatOfText s with
    | some q => .ok q
    | none => .error ⟨"ValueError", "could not convert string to float: '" ++ s ++ "'"⟩
  | _ => .error ⟨"TypeError", "float() argument must be a string or a real number"⟩

def clamp01 (q : Rat) : Rat := max 0 (min 1 q)

/-- The confidence of a reply, and a warning where it is not a number. -/
def readConfidence (data : Dict) : Rat × List String :=
  match toFloat env (Dict.getD data "confidence" (.float 0)) with
  | .ok q => (clamp01 q, [])
  | .error _ => (0, ["LLM 返回 confidence 非法，已使用默认值 0.0"])

/-- The reasoning of a reply after the guardrails, their warnings, and whether it is dangerous. -/
def readReasoning (data : Dict) : String × List String × Bool :=
  let reasoning := match Dict.getD data "reasoning" (.str "") with
    | .str s => if s = "" then "LLM 未提供 reasoning，已使用默认值。" else s
    | _ => "LLM 未提供 reasoning，已使用默认值。"
  let g := GuardrailsEngine.checkLlmOutput env.unicode reasoning
  let reasoning := match g.sanitizedText with
    | none | some "" => reasoning
    | some t => t
  let warnings := if g.action = "warn" ∨ g.action = "redact" then
    ["guardrails_output_" ++ g.action ++ ": " ++ g.reason] else []
  (reasoning, warnings, g.riskLevel = "high")

/-- The warnings about the tables that a reply names. -/
def readSelectedTables (data : Dict) (pruned : PrunedSchema) : List String :=
  match Dict.getD data "selected_tables" (.list []) with
  | .list l =>
    let names := l.filterMap fun
      | .str s => some s
      | _ => none
    let extra := names.filter fun n => n ∉ pruned.tables.map SchemaTable.name
    (if names.length ≠ l.length then ["selected_tables 包含非字符串项，已忽略。"] else []) ++
      (if extra.isEmpty then [] else
        ["LLM 选择了不在 pruned_schema 的表: " ++ env.format (.list (extra.map .str))])
  | _ => ["selected_tables 非 list，已重置为空列表。"]

/-- The SQL of a reply, or why there is none. -/
def readSql (u : Unicode) (data : Dict) : Except (String × String) String :=
  match Dict.get data "sql" with
  | .str s =>
    let sql := String.ofList (u.strip s.toList)
    if sql = "" then .error ("empty_sql", "LLM 返回空 SQL") else .ok sql
  | _ => .error ("invalid_sql:not_string", "LLM 返回 sql 字段必须是 string")

/-- `_parse_response` on a JSON object. -/
def parseObject (query : String) (pruned : PrunedSchema) (providerName : String) (data : Dict)
    (warnings : List String) : Parsed :=
  match readSql env.unicode data with
  | .error (reason, warning) => .fallback reason [warning]
  | .ok sql =>
    let (confidence, w₁) := readConfidence env data
    let (reasoning, w₂, dangerous) := readReasoning env data
    let warnings := warnings ++ w₁ ++ w₂
    if dangerous then .fallback "dangerous_output_suggestion" (warnings ++ ["LLM 输出包含危险操作建议"])
    else
      let warnings := warnings ++ readSelectedTables env data pruned
      let guardResult := SQLGuard.check env.unicode sql
      if !guardResult.allowed then
        .fallback ("guard_blocked:" ++ guardResult.reason)
          (warnings ++ ["SQLGuard 拦截: " ++ guardResult.reason])
      else .accepted ⟨query, pruned, guardResult.sql, confidence, reasoning, guardResult, "llm",
        some providerName, false, none, warnings⟩

/-- `_parse_response`; only an exception of `json.loads` that is no decoding error gets out. -/
def parseResponse (query : String) (pruned : PrunedSchema) (metadata : LLMGenerateMetadata)
    (providerName : String) : Except Raised Parsed :=
  match loadsTolerant env metadata.content with
  | .error e =>
    if e.cls = "JSONDecodeError" then
      .ok (.fallback ("invalid_json:" ++ e.text) ["LLM 返回非法 JSON: " ++ e.text])
    else .error e
  | .ok (.dict data, hint) => .ok (parseObject env query pruned providerName data hint.toList)
  | .ok _ => .ok (.fallback "invalid_payload:not_object" ["LLM 返回 JSON 必须是 object"])

/-- `_human_readable_reason`. -/
def humanReadableReason (fallbackReason : String) : String :=
  let starts (p : String) : Bool := p.toList.isPrefixOf fallbackReason.toList
  let behindColon := String.ofList ((fallbackReason.toList.dropWhile (· ≠ ':')).drop 1)
  if starts "invalid_json:" then "LLM 返回非法 JSON: " ++ behindColon
  else if starts "invalid_payload:not_object" then "LLM 返回 JSON 必须是 object。"
  else if starts "invalid_sql:not_string" then "LLM 返回 sql 字段必须是 string。"
  else if starts "empty_sql" then "LLM 返回空 SQL。"
  else if starts "guard_blocked:" then "SQLGuard 拦截: " ++ behindColon
  else fallbackReason

/-- `_build_mock_fallback_result`. -/
def buildMockFallbackResult (query : String) (schema : DatabaseSchema)
    (providerName fallbackReason : String) (extraWarnings : List String) : Llm NL2SQLResult := do
  let mock ← MockNL2SQLGenerator.generate env.unicode query schema
  return { mock with
    reasoning := "[fallback from LLM error: " ++ fallbackReason ++ "] " ++ mock.reasoning
    generatorUsed := "mock_fallback", providerUsed := some providerName, fallbackUsed := true
    fallbackReason := some fallbackReason, warnings := mock.warnings ++ extraWarnings }

/-- The result of a failure that does not fall back. -/
def failure (query : String) (pruned : PrunedSchema) (providerName reasoning fallbackReason : String)
    (warnings : List String) : NL2SQLResult :=
  ⟨query, pruned, "", 0, reasoning, ⟨false, "", reasoning⟩, "llm", some providerName, false,
    some fallbackReason, warnings⟩

/-- `_fallback_or_failure`. -/
def fallbackOrFailure (fallbackToMock : Bool) (query : String) (schema : DatabaseSchema)
    (pruned : PrunedSchema) (providerName fallbackReason : String) (warnings : List String) :
    Llm NL2SQLResult :=
  if fallbackToMock then buildMockFallbackResult env query schema providerName fallbackReason warnings
  else return (failure query pruned providerName (humanReadableReason fallbackReason) fallbackReason
    warnings)

/-- `_handle_generation_error`. -/
def handleGenerationError (fallbackToMock : Bool) (query : String) (schema : DatabaseSchema)
    (pruned : PrunedSchema) (providerName : String) (exc : Raised) : Llm NL2SQLResult :=
  let reason := "provider_error:" ++ exc.cls ++ ":" ++ exc.text
  if fallbackToMock then buildMockFallbackResult env query schema providerName reason []
  else return (failure query pruned providerName ("LLM 调用失败: " ++ exc.text) reason [reason])

/-- What is made of a reply. -/
def useReply (fallbackToMock : Bool) (query : String) (schema : DatabaseSchema)
    (pruned : PrunedSchema) (providerName : String) (metadata : LLMGenerateMetadata) :
    Llm NL2SQLResult := do
  match ← Prog.ofExcept (parseResponse env query pruned metadata providerName) with
  | .accepted result => return result
  | .fallback reason warnings =>
    fallbackOrFailure env fallbackToMock query schema pruned providerName reason warnings

/-- `generate`, with `last_provider_metadata`. -/
def generate (prov : Provider) (fallbackToMock : Bool) (query : String) (schema : DatabaseSchema) :
    Llm (NL2SQLResult × Option LLMGenerateMetadata) := do
  let pruned := SchemaPruner.prune query schema
  let handle := handleGenerationError env fallbackToMock query schema pruned prov.name
  match ← Llm.attempt (prov.generateWithMetadata env (renderPrompt env query pruned)) with
  | .error exc => return (← handle exc, none)
  | .ok metadata =>
    let result ← tryCatch (useReply env fallbackToMock query schema pruned prov.name metadata) handle
    return (result, some metadata)

end

end LLMNL2SQLGenerator

end AgentHarness
