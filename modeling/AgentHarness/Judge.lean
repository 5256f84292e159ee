import AgentHarness.Nl2sql
import AgentHarness.Redaction

/-!
# Judge — `FakeJudge` and `LLMJudgeProvider.evaluate`

The judge shares the budget manager and the cache with the NL2SQL pipeline.  It charges the budget
after the reply was parsed and validated, and stores its result after that.
-/

namespace AgentHarness

open Lib

structure JudgeInput where
  caseId : String
  query : String
  expected : String
  actual : String
  rubric : String

/-- The configuration of an `LLMJudgeProvider`. -/
structure JudgeConfig where
  provider : String
  fallbackToFake : Bool
  model : String
  baseUrl : String
  maxRetries : Nat

namespace FakeJudge

def result (score : Rat) (passed : Bool) (reasoning : String) : JudgeResult :=
  ⟨score, passed, reasoning, "fake", false, "", none, 0, 0, 0, 0⟩

def evaluate (input : JudgeInput) : JudgeResult :=
  if input.expected = input.actual then result 1 true ("expected==actual: " ++ input.expected)
  else if input.rubric ≠ "" ∧ textHas input.rubric input.actual then
    result 1 true ("actual matches rubric: " ++ input.rubric)
  else if input.expected = "blocked" ∧ (input.actual = "blocked" ∨ input.actual = "failed") then
    result (4 / 5) true "expected blocked, actual is blocked-like"
  else if input.expected = "success" ∧ input.actual = "success" then result 1 true "both success"
  else result 0 false ("mismatch: expected=" ++ input.expected ++ " actual=" ++ input.actual)

end FakeJudge

namespace LLMJudgeProvider

section

variable (env : LlmEnv) (j : JudgeConfig)

/-- `_clamp_01`. -/
def clamp01 (q : Rat) : Rat := if q < 0 then 0 else if 1 < q then 1 else q

def buildPrompt (input : JudgeInput) : String :=
  "你是评测裁判，请根据输入返回 JSON 对象，不要输出其他文本。\n" ++
  "JSON 字段要求：score(0~1), passed(bool), reasoning(string), confidence(0~1)。\n" ++
  "query: " ++ input.query ++ "\n" ++ "expected: " ++ input.expected ++ "\n" ++
  "actual: " ++ input.actual ++ "\n" ++ "rubric: " ++ input.rubric ++ "\n"

/-- A JSON object, or `judge_json_not_object`. -/
def asObject : PyVal → Except Raised Dict
  | .dict d => .ok d
  | _ => .error ⟨"ValueError", "judge_json_not_object"⟩

/-- `_extract_json_object`. -/
def extractJsonObject (text : String) : Except Raised Dict :=
  let stripped := env.unicode.strip text.toList
  match env.jsonLoads (String.ofList stripped) with
  | .ok payload => asObject payload
  | .error e =>
    if e.cls = "JSONDecodeError" then
      match LLMNL2SQLGenerator.braced stripped with
      | some candidate => env.jsonLoads (String.ofList candidate) >>= asObject
      | none => .error ⟨"ValueError", "judge_invalid_json"⟩
    else .error e

/-- `_parse_bool`. -/
def parseBool (v : PyVal) : Except Raised Bool :=
  let notBool : Except Raised Bool := .error ⟨"ValueError", "judge_passed_not_bool"⟩
  match v with
  | .bool b => .ok b
  | .str s =>
    let lowered := env.unicode.lower (env.unicode.strip s.toList)
    if lowered ∈ ["true".toList, "1".toList, "yes".toList] then .ok true
    else if lowered ∈ ["false".toList, "0".toList, "no".toList] then .ok false
    else notBool
  | _ => notBool

/-- `str(payload.get("reasoning", "")).strip()`, or a text where it is empty. -/
def readReasoning (payload : Dict) : String :=
  let text := match Dict.getD payload "reasoning" (.str "") with
    | .str s => s
    | v => env.format v
  match env.unicode.strip text.toList with
  | [] => "LLM judge returned empty reasoning"
  | s => String.ofList s

/-- What the metadata of a reply are read as. -/
def readReply (metadata : LLMGenerateMetadata) : Except Raised JudgeResult := do
  let payload ← extractJsonObject env metadata.content
  match Dict.get? payload "score" with
  | none => throw ⟨"ValueError", "judge_missing_score"⟩
  | some v =>
    let score := clamp01 (← LLMNL2SQLGenerator.toFloat env v)
    let confidence := clamp01 (← LLMNL2SQLGenerator.toFloat env
      (Dict.getD payload "confidence" (.float score)))
    let passed ← parseBool env (Dict.get payload "passed")
    return ⟨score, passed, readReasoning env payload, j.provider, false, "", some metadata,
      metadata.promptTokens, metadata.completionTokens, metadata.cost, confidence⟩

/-- `_fallback_or_unavailable`. -/
def fallbackOrUnavailable (input : JudgeInput) (reason : String) : JudgeResult :=
  if j.fallbackToFake then
    let fake := FakeJudge.evaluate input
    { fake with judgeProvider := "fallback_fake", fallbackUsed := true, fallbackReason := reason,
                confidence := clamp01 fake.score }
  else ⟨0, false, "LLM judge unavailable: " ++ reason, "llm_unavailable", false, reason, none, 0, 0, 0, 0⟩

/-- `build_judge_cache_key`. -/
def cacheKey (input : JudgeInput) : String :=
  "judge:" ++ env.stableHash [input.caseId, input.expected, input.actual, input.rubric, j.provider, j.model]

/-- What a cache hit returns. -/
def fromCache (cached : JudgeResult) : JudgeResult :=
  { cached with
    score := clamp01 cached.score
    confidence := clamp01 cached.confidence
    providerMetadata := some { (cached.providerMetadata.getD ⟨"", "", "", 0, 0, 0, 0, "", none, false⟩) with
      cacheHit := true, promptTokens := 0, completionTokens := 0, totalTokens := 0, cost := 0 }
    promptTokens := 0, completionTokens := 0, cost := 0 }

/-- `create_provider` as the judge calls it. -/
def judgeProvider : Except Raised Provider :=
  match createProvider env.settings (some j.provider) (some j.model)
    (if j.baseUrl = "" then none else some j.baseUrl) j.maxRetries with
  | .ok p => .ok p
  | .error (.unknownProvider text) => .error ⟨"UnknownProviderError", text⟩
  | .error (.providerConfig text) => .error ⟨"ProviderConfigError", text⟩

/-- The call, the charge and the store; every exception is answered by a fallback. -/
def askProvider (input : JudgeInput) : Llm JudgeResult := do
  let provider ← Prog.ofExcept (judgeProvider env j)
  let metadata ← provider.generateWithMetadata env (buildPrompt input)
  let result ← Prog.ofExcept (readReply env j metadata)
  LLMBudgetManager.recordUsage env "judge" j.provider
    (if j.model = "" then metadata.model else j.model)
    metadata.promptTokens metadata.completionTokens metadata.cost
  LLMResultCache.setJudge env (cacheKey env j input) result
  return result

/-- `evaluate` behind the budget check and the cache lookup. -/
def evaluateFresh (input : JudgeInput) : Llm JudgeResult :=
  tryCatch (askProvider env j input) fun exc => pure (fallbackOrUnavailable j input exc.text)

def evaluate (input : JudgeInput) : Llm JudgeResult :=
  if j.provider = "fake" then return FakeJudge.evaluate input
  else do
    let budget ← LLMBudgetManager.checkBudget env (buildPrompt input)
    if !budget.allowed then return fallbackOrUnavailable j input budget.reason
    else
      match ← LLMResultCache.getJudge env (cacheKey env j input) with
      | some cached => return fromCache cached
      | none => evaluateFresh env j input

end

end LLMJudgeProvider

end AgentHarness
