import AgentHarness.Budget
import Mathlib.Data.List.Infix

/-!
# Providers — `create_provider` and `generate_with_metadata`

The adapters turn a response into `LLMGenerateMetadata`, retry, and map exceptions.  The response of
an OpenAI-compatible endpoint reports tokens but no cost, and its metadata have the cost 0.
-/

namespace AgentHarness

open Lib

/-- Why `create_provider` fails. -/
inductive CreateError where
  | unknownProvider (text : String)
  | providerConfig (text : String)

/-- `create_provider` with the settings of its caller. -/
def createProvider (s : LlmSettings) (providerName : Option String) (model baseUrl : Option String)
    (maxRetries : Nat) : Except CreateError Provider :=
  let name := match providerName with
    | none | some "" => s.llmProvider
    | some name => name
  let modelName := match model with
    | none | some "" => if s.llmModel = "" then "gpt-3.5-turbo" else s.llmModel
    | some model => model
  let url := baseUrl.getD s.llmBaseUrl
  if name = "fake" then .ok ⟨.fake, "", "", 0⟩
  else if name = "litellm" then
    if s.llmApiKey = "" then .error (.providerConfig "LiteLLMProvider 需要 LLM_API_KEY 配置，当前为空。")
    else .ok ⟨.litellm, modelName, url, maxRetries⟩
  else if name = "openai_compatible" then
    if url = "" then
      .error (.providerConfig "OpenAICompatibleProvider 需要 LLM_BASE_URL 配置，当前为空。")
    else if s.llmApiKey = "" then
      .error (.providerConfig "OpenAICompatibleProvider 需要 LLM_API_KEY 配置，当前为空。")
    else .ok ⟨.openaiCompatible, modelName, url, maxRetries⟩
  else .error (.unknownProvider ("未知的 LLM Provider: '" ++ name ++
    "'，支持: fake, litellm, openai_compatible (unknown provider)"))

namespace Provider

def responseError (text : String) : Raised := ⟨"ProviderResponseError", text⟩

/-- `int(v or 0)` of a number in a usage dict. -/
def intOr0 (v : PyVal) : Except Raised Int :=
  match v with
  | .int i => .ok i
  | .bool b => .ok (if b then 1 else 0)
  | .float q => .ok (q.num.tdiv q.den)
  | .str "" | .null | .list [] | .dict [] => .ok 0
  | .str s => match s.toInt? with
    | some i => .ok i
    | none => .error ⟨"ValueError", "invalid literal for int() with base 10: '" ++ s ++ "'"⟩
  | _ => .error ⟨"TypeError", "int() argument must be a string, a bytes-like object or a real number"⟩

/-- `str(payload.get(key) or dflt)`. -/
def textOr (env : LlmEnv) (d : Dict) (key dflt : String) : String :=
  match Dict.get d key with
  | .str s => if s = "" then dflt else s
  | v => if v.truthy then env.format v else dflt

/-- The message of the first choice, and whether it carries tool calls. -/
def chatMessage (payload : PyVal) : Option Dict :=
  match payload with
  | .dict d => match Dict.get d "choices" with
    | .list (.dict c :: _) => match Dict.get c "message" with
      | .dict m => some m
      | _ => none
    | _ => none
  | _ => none

def hasChoices (payload : PyVal) : Bool :=
  match payload with
  | .dict d => (Dict.get d "choices").truthy
  | _ => false

/-- The `usage` of a response, where it is a dict. -/
def chatUsage (payload : PyVal) : Dict :=
  match payload with
  | .dict d => match Dict.get d "usage" with
    | .dict usage => usage
    | _ => []
  | _ => []

/-- `_parse_openai_chat_payload`. -/
def parseOpenaiChatPayload (env : LlmEnv) (payload : PyVal) (providerName fallbackModel : String) :
    Except Raised LLMGenerateMetadata := do
  if !hasChoices payload then
    throw (responseError "OpenAI-compatible endpoint response missing choices")
  let message := (chatMessage payload).getD []
  let content := Dict.get message "content"
  let hasToolCalls := (Dict.get message "tool_calls").truthy
  let isNone := match content with
    | .null => true
    | _ => false
  if isNone && !hasToolCalls then
    throw (responseError "OpenAI-compatible endpoint response missing message.content")
  let usage := chatUsage payload
  let promptTokens ← intOr0 (Dict.getD usage "prompt_tokens" (.int 0))
  let completionTokens ← intOr0 (Dict.getD usage "completion_tokens" (.int 0))
  let totalTokens ← intOr0 (Dict.getD usage "total_tokens" (.int (promptTokens + completionTokens)))
  let fields : Dict := match payload with
    | .dict d => d
    | _ => []
  let text := match content with
    | .null => ""
    | .str s => s
    | v => env.format v
  return ⟨text, providerName, textOr env fields "model" fallbackModel, promptTokens, completionTokens,
    totalTokens, 0, textOr env fields "id" "", none, false⟩

/-- `_raise_for_openai_compatible_status`. -/
def raiseForStatus (env : LlmEnv) (response : HttpResponse) : Except Raised Unit :=
  let code := toString response.statusCode
  if response.statusCode = 401 ∨ response.statusCode = 403 then
    .error ⟨"ProviderAuthError", "OpenAI-compatible endpoint auth failed: " ++ code⟩
  else if response.statusCode = 429 then
    .error ⟨"ProviderRateLimitError", "OpenAI-compatible endpoint rate limited"⟩
  else if 400 ≤ response.statusCode then
    let detail := match response.body with
      | .ok payload => env.httpErrorDetail payload
      | .error _ => ""
    .error (responseError ("OpenAI-compatible endpoint returned " ++ code ++
      (if detail = "" then "" else ": " ++ detail)))
  else .ok ()

/-- What is made of one response of the endpoint. -/
def readHttpResponse (env : LlmEnv) (p : Provider) (response : HttpResponse) :
    Except Raised LLMGenerateMetadata := do
  raiseForStatus env response
  match response.body with
  | .ok payload => parseOpenaiChatPayload env payload p.name p.model
  | .error _ => throw (responseError "OpenAI-compatible endpoint returned non-json response")

/-- `_request_once` and `_generate_openai_compatible`. -/
def requestOnce (env : LlmEnv) (p : Provider) (prompt : String) : Llm LLMGenerateMetadata := do
  let response ← Llm.perform (.httpPost p prompt)
  Prog.ofExcept (readHttpResponse env p response)

def retryable (e : Raised) : Bool :=
  e.cls ∈ ["ProviderTimeoutError", "ProviderRateLimitError", "ProviderResponseError"]

/-- `OpenAICompatibleProvider.generate_with_metadata`, with the attempts that are left. -/
def openaiLoop (env : LlmEnv) (p : Provider) (prompt : String) : Nat → Llm LLMGenerateMetadata
  | 0 => requestOnce env p prompt
  | n + 1 => tryCatch (requestOnce env p prompt) fun e =>
    if retryable e then openaiLoop env p prompt n else throw e

/-- `_normalize_response`. -/
def normalizeResponse (p : Provider) (response : LiteLLMResponse) : Except Raised LLMGenerateMetadata :=
  let totalTokens := response.totalTokens.getD (response.promptTokens + response.completionTokens)
  match response.message with
  | none => .error (responseError "LiteLLM 返回缺少 choices。")
  | some (none, false) => .error (responseError "LiteLLM 返回缺少 message.content。")
  | some (content, _) => .ok
    { content := content.getD "", provider := p.name, model := p.model,
      promptTokens := response.promptTokens, completionTokens := response.completionTokens, totalTokens,
      cost := response.responseCost, requestId := response.id, errorType := none, cacheHit := false }

/-- `_map_exception`. -/
def mapException (u : Unicode) (e : Raised) : Raised :=
  let text := u.lower e.text.toList
  let name := u.lower e.cls.toList
  let mentions (s : String) : Bool := s.toList <:+: text
  if mentions "auth" || mentions "authentication" || mentions "permission" then ⟨"ProviderAuthError", e.text⟩
  else if mentions "timeout" || mentions "timed out" || "timeouterror".toList <:+: name then
    ⟨"ProviderTimeoutError", e.text⟩
  else if mentions "rate limit" || "ratelimit".toList <:+: name || mentions "429" then
    ⟨"ProviderRateLimitError", e.text⟩
  else if mentions "model" || mentions "not found" then ⟨"ProviderModelError", e.text⟩
  else responseError e.text

/-- One attempt of `LiteLLMProvider.generate_with_metadata`; `retry` gets the mapped exception. -/
def litellmAttempt (env : LlmEnv) (p : Provider) (prompt : String)
    (retry : Raised → Llm LLMGenerateMetadata) : Llm LLMGenerateMetadata :=
  tryCatch (do
      let response ← Llm.perform (.litellmCompletion p prompt)
      Prog.ofExcept (normalizeResponse p response))
    fun e =>
      let mapped := mapException env.unicode e
      if p.baseUrl ≠ "" && mapped.cls = "ProviderResponseError" then requestOnce env p prompt
      else retry mapped

/-- Its loop, with the attempts that are left. -/
def litellmLoop (env : LlmEnv) (p : Provider) (prompt : String) : Nat → Llm LLMGenerateMetadata
  | 0 => litellmAttempt env p prompt fun mapped => throw mapped
  | n + 1 => litellmAttempt env p prompt fun _ => litellmLoop env p prompt n

def fakeMetadata (env : LlmEnv) (prompt : String) : LLMGenerateMetadata :=
  ⟨env.fakeContent prompt, "fake", "fake-offline", 0, 0, 0, 0, "fake-request", none, false⟩

def generateWithMetadata (env : LlmEnv) (p : Provider) (prompt : String) : Llm LLMGenerateMetadata :=
  match p.kind with
  | .fake => return fakeMetadata env prompt
  | .litellm =>
    if env.litellmInstalled then litellmLoop env p prompt p.maxRetries
    else throw ⟨"ProviderConfigError", "使用 LiteLLMProvider 需要安装 litellm，请执行: pip install litellm"⟩
  | .openaiCompatible => openaiLoop env p prompt p.maxRetries

end Provider

end AgentHarness
