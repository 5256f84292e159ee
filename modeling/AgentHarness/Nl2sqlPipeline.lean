import AgentHarness.Nl2sql
import AgentHarness.Schemas

/-!
# Nl2sqlPipeline — `SQLiteReadOnlyExecutor` and `NL2SQLPipeline`

`_generate` chooses the provider, asks the budget and the cache, calls the generator, charges the
budget and stores the record; `preview` sanitizes it, and `run` executes the SQL.
-/

namespace AgentHarness

open Lib

structure SQLExecutionResult where
  sql : String
  columns : List String
  rows : List Dict
  rowCount : Nat
  truncated : Bool
  success : Bool
  error : Option String

def SQLExecutionResult.failed (sql error : String) : SQLExecutionResult :=
  ⟨sql, [], [], 0, false, false, some error⟩

namespace SQLiteReadOnlyExecutor

def maxRows : Nat := 100

def execute (u : Unicode) (dbPath sql : String) : Llm SQLExecutionResult := do
  let guardResult := SQLGuard.check u sql
  if !guardResult.allowed then return .failed sql guardResult.reason
  else
    match ← Llm.attempt (Llm.perform (.query guardResult.sql)) with
    | .error exc => return .failed guardResult.sql exc.text
    | .ok none => return .failed guardResult.sql ("数据库文件不存在: " ++ dbPath)
    | .ok (some (columns, rows)) => return ⟨guardResult.sql, columns, rows.take maxRows, rows.length,
        maxRows < rows.length, true, none⟩

end SQLiteReadOnlyExecutor

structure FormattedResult where
  summary : String
  columns : List String
  rows : List Dict
  rowCount : Nat
  truncated : Bool

/-- `SQLResultFormatter.format_summary`. -/
def formatSummary (env : LlmEnv) (r : SQLExecutionResult) : FormattedResult :=
  if !r.success then ⟨"查询执行失败: " ++ r.error.getD "None", [], [], 0, false⟩
  else if r.rowCount = 0 then ⟨"查询成功，但未返回数据", r.columns, [], 0, r.truncated⟩
  else match r.rowCount, r.columns, r.rows with
    | 1, [column], row :: _ =>
      ⟨column ++ ": " ++ env.format (Dict.get row column), r.columns, r.rows, r.rowCount, r.truncated⟩
    | n, _, _ => ⟨"查询返回 " ++ toString n ++ " 行数据", r.columns, r.rows, n, r.truncated⟩

/-- The arguments of a call of the pipeline. -/
structure Nl2sqlCall where
  query : String
  generator : String
  provider : Option String
  fallbackToMock : Bool

structure PreviewResult where
  output : GenOutput
  success : Bool
  fallback : Bool
  guardrails : GuardrailsResult

structure RunResult where
  success : Bool
  answer : String
  execution : SQLExecutionResult
  formattedResult : FormattedResult
  chartSpec : PyVal
  preview : PreviewResult

namespace NL2SQLPipeline

section

variable (env : LlmEnv)

/-- The record of a generator's result. -/
def outputOf (result : NL2SQLResult) (metadata : Option LLMGenerateMetadata)
    (budget : Option BudgetDecision) : GenOutput :=
  ⟨result.prunedSchema.tables.map SchemaTable.name, result.sql, result.guardResult.allowed,
    result.guardResult.reason, result.reasoning, result.confidence, result.generatorUsed,
    result.providerUsed, result.fallbackUsed, result.fallbackReason, result.warnings, metadata, budget⟩

/-- The record of a refusal without SQL. -/
def refusal (reason reasoning : String) (provider : Option String) (warnings : List String)
    (budget : Option BudgetDecision) : GenOutput :=
  ⟨[], "", false, reason, reasoning, 0, "llm", provider, false, some reason, warnings, none, budget⟩

/-- `_build_mock_fallback_result`, and the fallback of a configuration error. -/
def mockFallback (query : String) (schema : DatabaseSchema) (providerName reason : String)
    (warnings : List String) (budget : Option BudgetDecision) : Llm GenOutput := do
  let result ← MockNL2SQLGenerator.generate env.unicode query schema
  return { outputOf result none budget with
    generatorUsed := "mock_fallback", providerUsed := some providerName, fallbackUsed := true
    fallbackReason := some reason, warnings := result.warnings ++ warnings }

/-- `_build_schema_hash`: names and types only. -/
def buildSchemaHash (schema : DatabaseSchema) : String :=
  env.schemaHash (schema.tables.map fun t => (t.name, t.fields.map fun f => (f.name, f.type)))

/-- `build_nl2sql_cache_key`. -/
def cacheKey (query : String) (schema : DatabaseSchema) (providerName providerModel : String) : String :=
  "nl2sql:" ++ env.stableHash
    [query, buildSchemaHash env schema, "nl2sql_prompt_v1", providerName, providerModel]

/-- `str(getattr(prov, "_model", "") or settings.llm_model or "")`. -/
def providerModel (prov : Provider) : String :=
  if prov.model = "" then env.settings.llmModel else prov.model

def cacheHitMark : String := "cache_hit:nl2sql"

/-- What a cache hit returns. -/
def fromCache (cached : GenOutput) (budget : BudgetDecision) : GenOutput :=
  { cached with
    warnings := if cacheHitMark ∈ cached.warnings then cached.warnings
      else cached.warnings ++ [cacheHitMark]
    providerMetadata := some { (cached.providerMetadata.getD ⟨"", "", "", 0, 0, 0, 0, "", none, false⟩) with
      cacheHit := true, promptTokens := 0, completionTokens := 0, totalTokens := 0, cost := 0 }
    budgetStatus := some budget }

/-- The charge for the metadata of a call; no exception gets out. -/
def charge (metadata : Option LLMGenerateMetadata) : Llm Unit :=
  match metadata with
  | none => pure ()
  | some m => tryCatch (LLMBudgetManager.recordUsage env "nl2sql" m.provider m.model m.promptTokens
      m.completionTokens m.cost) fun _ => pure ()

/-- The part of `_generate` behind the cache lookup: the record, and the reference the cache holds. -/
def generateFresh (call : Nl2sqlCall) (schema : DatabaseSchema) (prov : Provider)
    (budget : BudgetDecision) : Llm (GenOutput × Option Nat) := do
  let (result, metadata) ←
    LLMNL2SQLGenerator.generate env prov call.fallbackToMock call.query schema
  charge env metadata
  let output := outputOf result metadata (some budget)
  if output.generatorUsed = "llm" then
    let id ← tryCatch (LLMResultCache.setNl2sql env
      (cacheKey env call.query schema prov.name (providerModel env prov)) output) fun _ => pure none
    return (output, id)
  else return (output, none)

/-- The part of `_generate` behind `create_provider`. -/
def generateWith (call : Nl2sqlCall) (schema : DatabaseSchema) (prov : Provider) :
    Llm (GenOutput × Option Nat) := do
  let budget ← LLMBudgetManager.checkBudget env call.query
  if !budget.allowed then
    if call.fallbackToMock then
      let output ← mockFallback env call.query schema prov.name budget.reason [budget.reason] (some budget)
      return (output, none)
    else return (refusal budget.reason ("预算限制拦截: " ++ budget.reason) (some prov.name)
      [budget.reason] (some budget), none)
  else
    match ← LLMResultCache.getNl2sql env
      (cacheKey env call.query schema prov.name (providerModel env prov)) with
    | some cached => return (fromCache cached budget, none)
    | none => generateFresh env call schema prov budget

/-- `_generate`. -/
def generate (call : Nl2sqlCall) (schema : DatabaseSchema) : Llm (GenOutput × Option Nat) := do
  if call.generator = "llm" then
    match createProvider env.settings call.provider none none env.settings.llmMaxRetries with
    | .error (.unknownProvider text) => return (refusal text "" call.provider [] none, none)
    | .error (.providerConfig text) =>
      if call.fallbackToMock then
        return (← mockFallback env call.query schema "litellm" text [] none, none)
      else return (refusal text "" (some "litellm") [] none, none)
    | .ok prov => generateWith env call schema prov
  else
    let result ← MockNL2SQLGenerator.generate env.unicode call.query schema
    return (outputOf result none none, none)

/-- What `preview` changes in the record: the reasoning, and a warning. -/
def sanitized (output : GenOutput) (guard : GuardrailsResult) : GenOutput :=
  { output with
    reasoning := match guard.sanitizedText with
      | none | some "" => output.reasoning
      | some t => t
    warnings := if guard.action = "redact" then
        output.warnings ++ ["guardrails_output_redact: " ++ guard.reason]
      else output.warnings }

def preview (call : Nl2sqlCall) : Llm PreviewResult := do
  let schema ← Llm.perform .extractSchema
  let (output, id) ← generate env call schema
  let guard := GuardrailsEngine.sanitizeResponse env.unicode output.reasoning
  let output := sanitized output guard
  -- the cache holds this very record
  match id with
  | some id => Llm.perform (.updateObject id output)
  | none => pure ()
  return ⟨output, output.guardAllowed, !output.guardAllowed, guard⟩

/-- The part of `run` behind `preview`. -/
def finish (dbPath : String) (call : Nl2sqlCall) (p : PreviewResult) : Llm RunResult := do
  if p.output.guardAllowed && p.output.sql ≠ "" then
    let execution ← SQLiteReadOnlyExecutor.execute env.unicode dbPath p.output.sql
    let formatted := formatSummary env execution
    return ⟨p.output.guardAllowed, formatted.summary, execution, formatted,
      env.planChart execution.columns execution.rows call.query, p⟩
  else
    let execution := SQLExecutionResult.failed p.output.sql p.output.guardReason
    let answer := "查询执行失败: " ++ p.output.guardReason
    return ⟨p.output.guardAllowed, answer, execution, ⟨answer, [], [], 0, false⟩,
      env.planChart execution.columns execution.rows call.query, p⟩

def run (dbPath : String) (call : Nl2sqlCall) : Llm RunResult := do
  let p ← preview env call
  finish env dbPath call p

end

end NL2SQLPipeline

/-! ## The answers as dicts -/

def texts (l : List String) : PyVal := .list (l.map .str)

def LLMGenerateMetadata.toDict (m : LLMGenerateMetadata) : PyVal :=
  .dict ([("content", .str m.content), ("provider", .str m.provider), ("model", .str m.model),
    ("prompt_tokens", .int m.promptTokens), ("completion_tokens", .int m.completionTokens),
    ("total_tokens", .int m.totalTokens), ("cost", .float m.cost), ("request_id", .str m.requestId),
    ("error_type", optStr m.errorType)] ++ if m.cacheHit then [("cache_hit", .bool true)] else [])

def BudgetDecision.toDict (d : BudgetDecision) : PyVal :=
  .dict [("allowed", .bool d.allowed), ("action", .str d.action), ("reason", .str d.reason),
    ("budget_scope", .str d.budgetScope), ("current_cost", .float d.currentCost),
    ("soft_limit", .float d.softLimit), ("hard_limit", .float d.hardLimit),
    ("estimated_cost", .float d.estimatedCost)]

def SQLExecutionResult.modelDump (r : SQLExecutionResult) : Dict :=
  [("sql", .str r.sql), ("columns", texts r.columns), ("rows", .list (r.rows.map .dict)),
    ("row_count", .int r.rowCount), ("truncated", .bool r.truncated), ("success", .bool r.success),
    ("error", optStr r.error)]

def FormattedResult.toDict (r : FormattedResult) : Dict :=
  [("summary", .str r.summary), ("columns", texts r.columns), ("rows", .list (r.rows.map .dict)),
    ("row_count", .int r.rowCount), ("truncated", .bool r.truncated)]

/-- `value or None` of a record that may be missing. -/
def optRecord {α : Type} (toDict : α → PyVal) : Option α → PyVal
  | some a => toDict a
  | none => .null

/-- The fields that the answers of `preview` and `run` share, behind the reasoning. -/
def PreviewResult.sharedDict (p : PreviewResult) : Dict :=
  [("generator_used", .str p.output.generatorUsed), ("provider_used", optStr p.output.providerUsed),
    ("fallback_used", .bool p.output.fallbackUsed), ("fallback_reason", optStr p.output.fallbackReason),
    ("warnings", texts p.output.warnings), ("guardrails", .dict [("output", p.guardrails.toDict)]),
    ("provider_metadata", optRecord LLMGenerateMetadata.toDict p.output.providerMetadata),
    ("budget_status", optRecord BudgetDecision.toDict p.output.budgetStatus)]

/-- The dict that `run` returns. -/
def RunResult.toDict (r : RunResult) : Dict :=
  [("mode", .str "nl2sql"), ("success", .bool r.success), ("answer", .str r.answer),
    ("sql", .str r.preview.output.sql), ("selected_tables", texts r.preview.output.selectedTables),
    ("guard_allowed", .bool r.preview.output.guardAllowed),
    ("guard_reason", .str r.preview.output.guardReason), ("reasoning", .str r.preview.output.reasoning),
    ("confidence", .float r.preview.output.confidence), ("execution", .dict r.execution.modelDump),
    ("formatted_result", .dict r.formattedResult.toDict), ("chart_spec", r.chartSpec)] ++
    r.preview.sharedDict

end AgentHarness
