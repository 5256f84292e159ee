import AgentHarness.StdioClient
import Mathlib.Data.List.Infix

/-!
# DeploymentGuard — `run_deployment_checks`

The settings of a production deployment are judged by a list of checks, of which those of level `error` decide.
What the checks call of the library (`urlsplit`, `os.getenv`) is a parameter.
-/

namespace AgentHarness

open Lib

/-- The settings that the deployment checks, and the setup of MCP, read. -/
structure Settings where
  appEnv : String
  jwtSecret : String
  authEnabled : Bool
  rbacEnabled : Bool
  corsEnabled : Bool
  corsAllowOrigins : String
  securityHeadersEnabled : Bool
  structuredLoggingEnabled : Bool
  logRedactionEnabled : Bool
  logLevel : String
  auditRetentionEnabled : Bool
  auditRetentionDays : Int
  auditExportEnabled : Bool
  auditExportMaxRows : Int
  auditExportFormat : String
  auditExportRedactionEnabled : Bool
  requestSizeLimitEnabled : Bool
  requestSizeLimitBytes : Int
  rateLimitEnabled : Bool
  rateLimitRequestsPerMinute : Int
  rateLimitBurst : Int
  rateLimitBackend : String
  redisEnabled : Bool
  redisUrl : String
  storageBackend : String
  databaseUrl : String
  mcpMode : String
  mcpServerName : String
  mcpServerCommand : String
  mcpServerArgs : String
  mcpServerCommandAllowlist : String
  mcpToolAllowlist : String
  realLlmAcceptanceEnabled : Bool
  realLlmModel : String
  realLlmApiKeyEnv : String
  oidcEnabled : Bool
  oidcIssuerUrl : String
  oidcClientId : String
  oidcClientSecretEnv : String
  oidcRedirectUri : String
  oidcDefaultRole : String
  oidcAllowedRoles : String
  oidcRequireHttps : Bool

/-- What `urlsplit` finds in a URL. -/
structure UrlParts where
  scheme : String
  netloc : String
  password : Option String

structure GuardEnv where
  unicode : Unicode
  /-- `urlsplit`, which may raise -/
  urlsplit : String → Option UrlParts
  /-- `os.getenv(name, "")` -/
  getenv : String → String

structure DeploymentCheck where
  name : String
  passed : Bool
  level : String
  detail : String

structure DeploymentCheckResult where
  ok : Bool
  environment : String
  errors : List String
  warnings : List String
  checks : List DeploymentCheck

namespace DeploymentGuard

def disallowedJwtSecrets : List String :=
  ["", "dev-only-change-me-please-32-bytes", "change-me-strong-secret", "change-me", "replace-me"]

def placeholderTokens : List String := ["change-me", "changeme", "replace-me", "replace_me", "example"]

def weakPasswordValues : List String := ["password", "password123", "secret", "token", "123456", "admin"]

def allowedOidcRoles : List String := ["admin", "operator", "viewer", "auditor"]

def addCheck (result : DeploymentCheckResult) (check : DeploymentCheck) : DeploymentCheckResult :=
  let result := { result with checks := result.checks ++ [check] }
  if check.passed then result
  else if check.level = "error" then
    { result with errors := result.errors ++ [check.name ++ ": " ++ check.detail], ok := false }
  else { result with warnings := result.warnings ++ [check.name ++ ": " ++ check.detail] }

variable (env : GuardEnv)

def strip (s : String) : String := String.ofList (env.unicode.strip s.toList)

def lower (s : String) : String := String.ofList (env.unicode.lower s.toList)

def upper (s : String) : String := String.ofList (env.unicode.upperAll s.toList)

/-- `part in text` -/
def contains (part text : String) : Bool := decide (part.toList <:+: text.toList)

def containsPlaceholderToken (value : String) : Bool :=
  placeholderTokens.any fun token => contains token (lower env value)

def extractUrlPassword (url : String) : String :=
  if url = "" then "" else ((env.urlsplit url).bind UrlParts.password).getD ""

def isWeakJwtSecret (secret : String) : Bool :=
  let normalized := strip env secret
  decide (normalized ∈ disallowedJwtSecrets) || decide (normalized.length < 32)

def isObviousPlaceholderPassword (password : String) : Bool :=
  let normalized := lower env (strip env password)
  if normalized = "" then false
  else if normalized ∈ weakPasswordValues then true
  else containsPlaceholderToken env normalized

def parseCsvConfig (value : String) : List String := parseCsv env.unicode value

def normalizeRoleList (rawRoles : String) : List String :=
  ((parseCsvConfig env rawRoles).map (lower env)).foldl
    (fun normalized role => if role ∈ normalized then normalized else normalized ++ [role]) []

def isHttpsUrl (url : String) : Bool :=
  match env.urlsplit (strip env url) with
  | none => false
  | some parsed => lower env parsed.scheme = "https" && parsed.netloc ≠ ""

def corsOriginPolicy (current : Settings) : Bool × String :=
  let origins := parseCsvConfig env current.corsAllowOrigins
  if origins = [] then (false, "CORS 启用时 CORS_ALLOW_ORIGINS 不能为空。")
  else if "*" ∈ origins then (false, "production 环境不允许 CORS_ALLOW_ORIGINS 使用通配符 *。")
  else (true, "")

def validateAuditRetentionSettings (current : Settings) : List String :=
  (if current.auditRetentionEnabled ∧ current.auditRetentionDays ≤ 0 then ["AUDIT_RETENTION_DAYS 必须大于 0。"]
    else []) ++
  (if current.auditExportMaxRows ≤ 0 ∨ 10000 < current.auditExportMaxRows then
    ["AUDIT_EXPORT_MAX_ROWS 必须在 1 到 10000 范围内。"] else []) ++
  (if lower env (strip env current.auditExportFormat) ≠ "jsonl" then ["AUDIT_EXPORT_FORMAT 当前仅支持 jsonl。"]
    else []) ++
  (if current.auditExportEnabled ∧ current.auditExportRedactionEnabled = false then
    ["AUDIT_EXPORT_ENABLED=true 时必须启用 AUDIT_EXPORT_REDACTION_ENABLED。"] else [])

def getOidcClientSecret (current : Settings) : String :=
  let envName := strip env current.oidcClientSecretEnv
  if envName = "" then "" else strip env (env.getenv envName)

/-- A check of level `error`. -/
def required (name : String) (passed : Bool) (detail : String) : DeploymentCheck := ⟨name, passed, "error", detail⟩

/-! ## The checks, in the order of the source -/

def accessChecks (current : Settings) : List DeploymentCheck :=
  [required "jwt_secret" (!isWeakJwtSecret env (strip env current.jwtSecret))
      "JWT_SECRET 不能为空、不能使用占位值，且长度必须不少于 32 字符。",
    required "auth_enabled" current.authEnabled "production 环境要求 AUTH_ENABLED=true。",
    required "rbac_enabled" current.rbacEnabled "production 环境要求 RBAC_ENABLED=true。"] ++
  if current.corsEnabled then
    let (corsOk, corsError) := corsOriginPolicy env current
    [required "cors_allow_origins" corsOk (if corsError = "" then "CORS origin 配置合法。" else corsError)]
  else []

def loggingChecks (current : Settings) : List DeploymentCheck :=
  let currentLogLevel := upper env (strip env current.logLevel)
  [required "security_headers_enabled" current.securityHeadersEnabled
      "production 环境要求 SECURITY_HEADERS_ENABLED=true。",
    required "structured_logging_enabled" current.structuredLoggingEnabled
      "production 环境要求 STRUCTURED_LOGGING_ENABLED=true。",
    required "log_redaction_enabled" current.logRedactionEnabled "production 环境要求 LOG_REDACTION_ENABLED=true。",
    required "log_level_valid" (decide (currentLogLevel ∈ ["DEBUG", "INFO", "WARNING", "ERROR", "CRITICAL"]))
      "LOG_LEVEL 必须为 DEBUG/INFO/WARNING/ERROR/CRITICAL 之一。",
    required "log_level_production" (decide (currentLogLevel ≠ "DEBUG")) "production 环境不允许 LOG_LEVEL=DEBUG。"]

def auditChecks (current : Settings) : List DeploymentCheck :=
  let retentionErrors := validateAuditRetentionSettings env current
  [required "audit_retention_enabled" current.auditRetentionEnabled
      "production 环境要求 AUDIT_RETENTION_ENABLED=true。",
    required "audit_retention_days" (decide (0 < current.auditRetentionDays)) "AUDIT_RETENTION_DAYS 必须大于 0。",
    required "audit_export_max_rows" (decide (0 < current.auditExportMaxRows ∧ current.auditExportMaxRows ≤ 10000))
      "AUDIT_EXPORT_MAX_ROWS 必须在 1 到 10000 范围内。",
    required "audit_export_redaction_enabled" current.auditExportRedactionEnabled
      "production 环境要求 AUDIT_EXPORT_REDACTION_ENABLED=true。",
    required "audit_retention_settings" retentionErrors.isEmpty
      (if retentionErrors.isEmpty then "审计留存与导出配置合法。" else "; ".intercalate retentionErrors)]

/-- `int(rate_limit_burst or -1)`: a burst of zero reads as -1. -/
def burstRead (burst : Int) : Int := if burst = 0 then -1 else burst

def limitChecks (current : Settings) : List DeploymentCheck :=
  let backend := lower env (strip env (if current.rateLimitBackend = "" then "memory" else current.rateLimitBackend))
  [required "request_size_limit_enabled" current.requestSizeLimitEnabled
      "production 环境要求 REQUEST_SIZE_LIMIT_ENABLED=true。",
    required "request_size_limit_bytes"
      (decide (0 < current.requestSizeLimitBytes ∧ current.requestSizeLimitBytes ≤ 10 * 1024 * 1024))
      "REQUEST_SIZE_LIMIT_BYTES 必须在 1 到 10485760（10MB）范围内。",
    required "rate_limit_enabled" current.rateLimitEnabled "production 环境要求 RATE_LIMIT_ENABLED=true。",
    required "rate_limit_requests_per_minute" (decide (0 < current.rateLimitRequestsPerMinute))
      "RATE_LIMIT_REQUESTS_PER_MINUTE 必须大于 0。",
    required "rate_limit_burst" (decide (0 ≤ burstRead current.rateLimitBurst)) "RATE_LIMIT_BURST 必须大于或等于 0。",
    required "rate_limit_backend_valid" (decide (backend ∈ ["memory", "redis"]))
      "RATE_LIMIT_BACKEND 必须为 memory 或 redis。"] ++
  (if backend = "redis" then
    [required "rate_limit_redis_enabled" current.redisEnabled "RATE_LIMIT_BACKEND=redis 时要求 REDIS_ENABLED=true。",
      required "rate_limit_redis_url" (decide (strip env current.redisUrl ≠ ""))
        "RATE_LIMIT_BACKEND=redis 时要求 REDIS_URL 非空。"]
  else []) ++
  -- a comma separated list is always parsed
  [required "rate_limit_exempt_paths" true "RATE_LIMIT_EXEMPT_PATHS 必须可解析为逗号分隔路径列表。"]

def storageChecks (current : Settings) : List DeploymentCheck :=
  let databaseUrl := strip env current.databaseUrl
  let redisUrl := strip env current.redisUrl
  let hasDisallowedToken := contains "replace-me" (lower env databaseUrl) ||
    contains ":change-me@" (lower env databaseUrl)
  (if lower env (strip env current.storageBackend) = "postgres" then
    required "database_url_required" (decide (databaseUrl ≠ "")) "STORAGE_BACKEND=postgres 时 DATABASE_URL 必须非空。" ::
    (if databaseUrl ≠ "" then
      [required "database_url_secret_strength"
        (!hasDisallowedToken && !isObviousPlaceholderPassword env (extractUrlPassword env databaseUrl))
        "DATABASE_URL 不可使用占位密码或弱口令占位标识。"]
    else [])
  else []) ++
  (if current.redisEnabled then
    required "redis_url_required" (decide (redisUrl ≠ "")) "REDIS_ENABLED=true 时 REDIS_URL 必须非空。" ::
    (if redisUrl ≠ "" then
      [required "redis_url_secret_strength" (!containsPlaceholderToken env redisUrl)
        "REDIS_URL 不可包含占位密钥标识。"]
    else [])
  else [])

def mcpChecks (current : Settings) : List DeploymentCheck :=
  if lower env (strip env current.mcpMode) = "real" then
    [required "mcp_server_command_allowlist" (decide (strip env current.mcpServerCommandAllowlist ≠ ""))
        "MCP_MODE=real 时 MCP_SERVER_COMMAND_ALLOWLIST 必须非空。",
      required "mcp_tool_allowlist" (decide (strip env current.mcpToolAllowlist ≠ ""))
        "MCP_MODE=real 时 MCP_TOOL_ALLOWLIST 必须非空。"]
  else []

def realLlmChecks (current : Settings) : List DeploymentCheck :=
  if current.realLlmAcceptanceEnabled then
    let envName := strip env current.realLlmApiKeyEnv
    [required "real_llm_model" (decide (strip env current.realLlmModel ≠ ""))
        "REAL_LLM_ACCEPTANCE_ENABLED=true 时 REAL_LLM_MODEL 必须非空。",
      required "real_llm_api_key_env" (decide (envName ≠ ""))
        "REAL_LLM_ACCEPTANCE_ENABLED=true 时 REAL_LLM_API_KEY_ENV 必须配置。",
      required "real_llm_api_key_present" (decide (envName ≠ "" ∧ strip env (env.getenv envName) ≠ ""))
        "REAL_LLM_API_KEY_ENV 指向的环境变量必须存在且非空。"]
  else []

def roleChecks (current : Settings) : List DeploymentCheck :=
  let allowedRoles := normalizeRoleList env current.oidcAllowedRoles
  let defaultRole := lower env (strip env current.oidcDefaultRole)
  let level := if current.oidcEnabled then "error" else "warning"
  [⟨"oidc_allowed_roles_valid", !allowedRoles.isEmpty && allowedRoles.all (· ∈ allowedOidcRoles), level,
      "OIDC_ALLOWED_ROLES 必须是 admin/operator/viewer/auditor 的子集，且不能为空。"⟩,
    ⟨"oidc_default_role_valid", decide (defaultRole ∈ allowedOidcRoles ∧ defaultRole ∈ allowedRoles), level,
      "OIDC_DEFAULT_ROLE 必须在 OIDC_ALLOWED_ROLES 内，且仅允许 admin/operator/viewer/auditor。"⟩]

def oidcChecks (current : Settings) : List DeploymentCheck :=
  if current.oidcEnabled = false then
    [⟨"oidc_enabled", false, "warning", "OIDC/SSO 当前未启用；生产接入前需完成企业 IdP 对接与安全评审。"⟩]
  else
    let issuerUrl := strip env current.oidcIssuerUrl
    let redirectUri := strip env current.oidcRedirectUri
    let secretEnv := strip env current.oidcClientSecretEnv
    [required "oidc_issuer_url" (decide (issuerUrl ≠ "")) "OIDC_ENABLED=true 时 OIDC_ISSUER_URL 必须非空。",
      required "oidc_client_id" (decide (strip env current.oidcClientId ≠ ""))
        "OIDC_ENABLED=true 时 OIDC_CLIENT_ID 必须非空。",
      required "oidc_redirect_uri" (decide (redirectUri ≠ "")) "OIDC_ENABLED=true 时 OIDC_REDIRECT_URI 必须非空。",
      required "oidc_client_secret_env" (decide (secretEnv ≠ ""))
        "OIDC_ENABLED=true 时 OIDC_CLIENT_SECRET_ENV 必须非空。",
      required "oidc_client_secret_present" (decide (secretEnv ≠ "" ∧ getOidcClientSecret env current ≠ ""))
        "OIDC_CLIENT_SECRET_ENV 指向的环境变量必须存在且非空。",
      required "oidc_require_https" current.oidcRequireHttps
        "production + OIDC_ENABLED=true 要求 OIDC_REQUIRE_HTTPS=true。"] ++
    if current.oidcRequireHttps then
      [required "oidc_issuer_url_https" (decide (issuerUrl = "") || isHttpsUrl env issuerUrl)
          "production 要求 OIDC_ISSUER_URL 使用 https。",
        required "oidc_redirect_uri_https" (decide (redirectUri = "") || isHttpsUrl env redirectUri)
          "production 要求 OIDC_REDIRECT_URI 使用 https。"]
    else []

def productionChecks (current : Settings) : List DeploymentCheck :=
  accessChecks env current ++ loggingChecks env current ++ auditChecks env current ++ limitChecks env current ++
    storageChecks env current ++ mcpChecks env current ++ realLlmChecks env current ++ roleChecks env current ++
    oidcChecks env current

def environment (current : Settings) : String :=
  lower env (strip env (if current.appEnv = "" then "development" else current.appEnv))

def runDeploymentChecks (current : Settings) : DeploymentCheckResult :=
  let checks := if environment env current = "production" then productionChecks env current else
    [⟨"app_env", false, "warning", "当前非 production 环境，跳过生产阻断门禁（默认开发路径保持不变）。"⟩]
  checks.foldl addCheck ⟨true, environment env current, [], [], []⟩

variable {env} {current : Settings} {result : DeploymentCheckResult} {checks : List DeploymentCheck}

/-- The result is ok exactly when every check of level `error` has passed. -/
theorem foldl_addCheck_ok : (checks.foldl addCheck result).ok = true ↔
    result.ok = true ∧ ∀ check ∈ checks, check.level = "error" → check.passed = true := by
  induction checks generalizing result with
  | nil => simp
  | cons check checks ih =>
    rw [List.foldl_cons, ih]
    unfold addCheck
    by_cases hpassed : check.passed = true
    · simp [hpassed]
    · by_cases hlevel : check.level = "error"
      · simp [hpassed, hlevel]
      · simp [hpassed, hlevel]

theorem runDeploymentChecks_ok (hprod : environment env current = "production") :
    (runDeploymentChecks env current).ok = true ↔
      ∀ check ∈ productionChecks env current, check.level = "error" → check.passed = true := by
  unfold runDeploymentChecks
  rw [if_pos hprod, foldl_addCheck_ok]
  simp

end DeploymentGuard

end AgentHarness
