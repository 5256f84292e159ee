import AgentHarness.LlmOps
import AgentHarness.Lib.Text

/-!
# Budget — `LLMBudgetManager` and `LLMResultCache`

`check_budget` reads the cost of the current scope and decides on the projected cost; `record_usage`
adds a cost to the scope that is current then.  Each is one critical section, and the call of the
provider lies between them.  `LlmEnv` is what the modelled calls take from outside.
-/

namespace AgentHarness

open Lib

structure LlmSettings where
  llmProvider : String
  llmModel : String
  /-- the resolved key -/
  llmApiKey : String
  llmBaseUrl : String
  llmMaxRetries : Nat
  costEstimationEnabled : Bool
  costPer1kPromptTokens : Rat
  costPer1kCompletionTokens : Rat
  estimatedCompletionTokens : Int
  budgetEnabled : Bool
  budgetSoft : Rat
  budgetHard : Rat
  /-- stripped, in lower case, `daily` where it was empty -/
  budgetScope : String
  cacheEnabled : Bool
  cacheTtlSeconds : Int

/-- The settings, and the functions of the standard library and of packages that the calls use. -/
structure LlmEnv where
  settings : LlmSettings
  unicode : Unicode
  litellmInstalled : Bool
  /-- `strftime` of a reading of the clock -/
  hourText : Nat → String
  dayText : Nat → String
  /-- `json.loads`; the exception is a `JSONDecodeError` -/
  jsonLoads : String → Except Raised PyVal
  /-- `float(text)` -/
  floatOfText : String → Option Rat
  /-- `str(v)` -/
  format : PyVal → String
  /-- `_stable_hash` and the schema hash: `sha256` of the JSON text of what is hashed -/
  stableHash : List String → String
  schemaHash : List (String × List (String × String)) → String
  promptTemplate : Option String
  /-- the JSON text of the entry of `RESPONSE_MAP` a prompt matches -/
  fakeContent : String → String
  /-- the detail of an HTTP error, redacted -/
  httpErrorDetail : PyVal → String
  /-- `ChartPlanner.plan` on columns, rows and query -/
  planChart : List String → List Dict → String → PyVal

/-- `estimate_prompt_tokens`. -/
def estimatePromptTokens (text : String) : Int :=
  if text = "" then 0 else max 1 (text.length / 4 : Nat)

/-- `estimate_llm_cost_usd`, for the tokens of a completion that is known or not. -/
def estimateLlmCostUsd (s : LlmSettings) (promptTokens : Int) (completionTokens : Option Int) : Rat :=
  if !s.costEstimationEnabled then 0
  else
    let completionTokens := match completionTokens with
      | some n => n
      | none => max 0 s.estimatedCompletionTokens
    let promptPrice := max 0 s.costPer1kPromptTokens
    let completionPrice := max 0 s.costPer1kCompletionTokens
    (max 0 promptTokens : Int) / 1000 * promptPrice + (max 0 completionTokens : Int) / 1000 * completionPrice

namespace LLMBudgetManager

variable (env : LlmEnv)

def scopeKey : Llm String := do
  let now ← Llm.now
  if env.settings.budgetScope = "global" then return "global"
  else if env.settings.budgetScope = "hourly" then return env.hourText now
  else return env.dayText now

/-- The decision on a projected cost. -/
def decide (currentCost estimatedCost : Rat) : BudgetDecision :=
  let s := env.settings
  let decision (allowed : Bool) (action reason : String) : BudgetDecision :=
    ⟨allowed, action, reason, s.budgetScope, currentCost, s.budgetSoft, s.budgetHard, estimatedCost⟩
  let projectedCost := currentCost + estimatedCost
  if 0 < s.budgetHard ∧ s.budgetHard ≤ projectedCost then
    decision false "fallback" ("budget_blocked:hard_limit_exceeded:" ++ env.format (.float s.budgetHard))
  else if 0 < s.budgetSoft ∧ s.budgetSoft ≤ projectedCost then
    decision true "warn" ("budget_soft_limit_reached:" ++ env.format (.float s.budgetSoft))
  else decision true "allow" "budget_ok"

/-- `check_budget` as its callers use it: with a prompt and no estimate. -/
def checkBudget (prompt : String) : Llm BudgetDecision := do
  let s := env.settings
  if !s.budgetEnabled then
    return ⟨true, "allow", "budget_disabled", s.budgetScope, 0, s.budgetSoft, s.budgetHard, 0⟩
  let estimatedCost := estimateLlmCostUsd s (estimatePromptTokens prompt) none
  let scope ← scopeKey env
  let currentCost ← Llm.perform (.readCost scope)
  return decide env currentCost estimatedCost

def orUnknown (text : String) : String := if text = "" then "unknown" else text

def recordUsage (mode provider model : String) (promptTokens completionTokens : Int) (cost : Rat) :
    Llm Unit := do
  if !env.settings.budgetEnabled then return
  let scope ← scopeKey env
  Llm.perform (.addUsage ⟨scope, mode, orUnknown provider, orUnknown model, max 0 promptTokens,
    max 0 completionTokens, max 0 cost⟩)

end LLMBudgetManager

namespace LLMResultCache

variable (env : LlmEnv)

def expireAt : Llm Nat := do
  let ttl := env.settings.cacheTtlSeconds
  if ttl ≤ 0 then return 0
  let now ← Llm.now
  return now + ttl.toNat

def getNl2sql (key : String) : Llm (Option GenOutput) := do
  if !env.settings.cacheEnabled then return none
  let now ← Llm.now
  Llm.perform (.getNl2sql key now)

/-- The reference that the cache holds from now on, where it is enabled. -/
def setNl2sql (key : String) (output : GenOutput) : Llm (Option Nat) := do
  if !env.settings.cacheEnabled then return none
  let expire ← expireAt env
  let id ← Llm.perform (.setNl2sql key expire output)
  return some id

def getJudge (key : String) : Llm (Option JudgeResult) := do
  if !env.settings.cacheEnabled then return none
  let now ← Llm.now
  Llm.perform (.getJudge key now)

def setJudge (key : String) (result : JudgeResult) : Llm Unit := do
  if !env.settings.cacheEnabled then return
  let expire ← expireAt env
  Llm.perform (.setJudge key expire result)

end LLMResultCache

end AgentHarness
