import AgentHarness.McpConfinement

/-!
# DeploymentRules — what the deployment checks say, and what they do

The detail text of a check states a rule.  The rules stand here as the texts state them, group by group in the order of the
checks, and each group is compared with its checks.  One check does not do what its text says: `rate_limit_burst or -1`
reads a burst of zero as -1.
-/

namespace AgentHarness

open Lib

namespace DeploymentGuard

variable (env : GuardEnv) (s : Settings)

/-! ## The rules -/

structure AccessRules : Prop where
  jwtSecret : strip env s.jwtSecret ∉ disallowedJwtSecrets ∧ 32 ≤ (strip env s.jwtSecret).length
  authEnabled : s.authEnabled = true
  rbacEnabled : s.rbacEnabled = true
  corsAllowOrigins : s.corsEnabled = true →
    parseCsvConfig env s.corsAllowOrigins ≠ [] ∧ "*" ∉ parseCsvConfig env s.corsAllowOrigins

structure LoggingRules : Prop where
  securityHeadersEnabled : s.securityHeadersEnabled = true
  structuredLoggingEnabled : s.structuredLoggingEnabled = true
  logRedactionEnabled : s.logRedactionEnabled = true
  logLevelValid : upper env (strip env s.logLevel) ∈ ["DEBUG", "INFO", "WARNING", "ERROR", "CRITICAL"]
  logLevelProduction : upper env (strip env s.logLevel) ≠ "DEBUG"

structure AuditRules : Prop where
  auditRetentionEnabled : s.auditRetentionEnabled = true
  auditRetentionDays : 0 < s.auditRetentionDays
  auditExportMaxRows : 1 ≤ s.auditExportMaxRows ∧ s.auditExportMaxRows ≤ 10000
  auditExportRedactionEnabled : s.auditExportRedactionEnabled = true
  auditExportFormat : lower env (strip env s.auditExportFormat) = "jsonl"

/-- The backend that the setting names; without a setting it is `memory`. -/
def backendOf : String := lower env (strip env (if s.rateLimitBackend = "" then "memory" else s.rateLimitBackend))

structure LimitRules : Prop where
  requestSizeLimitEnabled : s.requestSizeLimitEnabled = true
  requestSizeLimitBytes : 1 ≤ s.requestSizeLimitBytes ∧ s.requestSizeLimitBytes ≤ 10485760
  rateLimitEnabled : s.rateLimitEnabled = true
  rateLimitRequestsPerMinute : 0 < s.rateLimitRequestsPerMinute
  rateLimitBurst : 0 ≤ s.rateLimitBurst
  rateLimitBackendValid : backendOf env s = "memory" ∨ backendOf env s = "redis"
  rateLimitRedisEnabled : backendOf env s = "redis" → s.redisEnabled = true
  rateLimitRedisUrl : backendOf env s = "redis" → strip env s.redisUrl ≠ ""

/-- Neither a placeholder in the URL, nor a placeholder or a weak word as its password. -/
def StrongDatabaseUrl (url : String) : Prop :=
  contains "replace-me" (lower env url) = false ∧ contains ":change-me@" (lower env url) = false ∧
    isObviousPlaceholderPassword env (extractUrlPassword env url) = false

structure StorageRules : Prop where
  databaseUrlRequired : lower env (strip env s.storageBackend) = "postgres" → strip env s.databaseUrl ≠ ""
  databaseUrlSecretStrength : lower env (strip env s.storageBackend) = "postgres" → strip env s.databaseUrl ≠ "" →
    StrongDatabaseUrl env (strip env s.databaseUrl)
  redisUrlRequired : s.redisEnabled = true → strip env s.redisUrl ≠ ""
  redisUrlSecretStrength : s.redisEnabled = true → strip env s.redisUrl ≠ "" →
    containsPlaceholderToken env (strip env s.redisUrl) = false

structure McpRules : Prop where
  mcpServerCommandAllowlist : lower env (strip env s.mcpMode) = "real" → strip env s.mcpServerCommandAllowlist ≠ ""
  mcpToolAllowlist : lower env (strip env s.mcpMode) = "real" → strip env s.mcpToolAllowlist ≠ ""

structure RealLlmRules : Prop where
  realLlmModel : s.realLlmAcceptanceEnabled = true → strip env s.realLlmModel ≠ ""
  realLlmApiKeyEnv : s.realLlmAcceptanceEnabled = true → strip env s.realLlmApiKeyEnv ≠ ""
  realLlmApiKeyPresent : s.realLlmAcceptanceEnabled = true → strip env s.realLlmApiKeyEnv ≠ "" →
    strip env (env.getenv (strip env s.realLlmApiKeyEnv)) ≠ ""

/-- The rules of OIDC, which apply if it is enabled. -/
structure OidcRules : Prop where
  allowedRolesValid : normalizeRoleList env s.oidcAllowedRoles ≠ [] ∧
    ∀ role ∈ normalizeRoleList env s.oidcAllowedRoles, role ∈ allowedOidcRoles
  defaultRoleValid : lower env (strip env s.oidcDefaultRole) ∈ allowedOidcRoles ∧
    lower env (strip env s.oidcDefaultRole) ∈ normalizeRoleList env s.oidcAllowedRoles
  issuerUrl : strip env s.oidcIssuerUrl ≠ ""
  clientId : strip env s.oidcClientId ≠ ""
  redirectUri : strip env s.oidcRedirectUri ≠ ""
  clientSecretEnv : strip env s.oidcClientSecretEnv ≠ ""
  clientSecretPresent : getOidcClientSecret env s ≠ ""
  requireHttps : s.oidcRequireHttps = true
  issuerUrlHttps : isHttpsUrl env (strip env s.oidcIssuerUrl) = true
  redirectUriHttps : isHttpsUrl env (strip env s.oidcRedirectUri) = true

/-- Every rule of level `error` that applies. -/
structure StatedRules : Prop where
  access : AccessRules env s
  logging : LoggingRules env s
  audit : AuditRules env s
  limit : LimitRules env s
  storage : StorageRules env s
  mcp : McpRules env s
  realLlm : RealLlmRules env s
  oidc : s.oidcEnabled = true → OidcRules env s

/-! ## The checks of each group -/

/-- Every check of level `error` has passed. -/
def Pass (checks : List DeploymentCheck) : Prop := ∀ check ∈ checks, check.level = "error" → check.passed = true

instance (checks : List DeploymentCheck) : Decidable (Pass checks) := by unfold Pass; infer_instance

variable {env s} {checks more : List DeploymentCheck} {passed : Bool} {name detail : String}

theorem pass_nil : Pass [] ↔ True := by simp [Pass]

theorem pass_append : Pass (checks ++ more) ↔ Pass checks ∧ Pass more := by
  unfold Pass
  rw [List.forall_mem_append]

theorem pass_required : Pass (required name passed detail :: checks) ↔ passed = true ∧ Pass checks := by
  unfold Pass required
  simp

theorem pass_if {p : Prop} [Decidable p] : Pass (if p then checks else []) ↔ (p → Pass checks) := by
  split
  · rename_i h
    exact ⟨fun hpass _ => hpass, fun hpass => hpass h⟩
  · rename_i h
    exact ⟨fun _ hp => absurd hp h, fun _ => pass_nil.mpr trivial⟩

theorem isWeakJwtSecret_strip (secret : String) : isWeakJwtSecret env (strip env secret) = false ↔
    strip env secret ∉ disallowedJwtSecrets ∧ 32 ≤ (strip env secret).length := by
  have hstrip : strip env (strip env secret) = strip env secret := by
    unfold strip
    rw [String.toList_ofList, Unicode.strip_strip]
  unfold isWeakJwtSecret
  simp only [hstrip, Bool.or_eq_false_iff, decide_eq_false_iff_not, Nat.not_lt]

theorem corsOriginPolicy_ok : (corsOriginPolicy env s).1 = true ↔
    parseCsvConfig env s.corsAllowOrigins ≠ [] ∧ "*" ∉ parseCsvConfig env s.corsAllowOrigins := by
  unfold corsOriginPolicy
  dsimp only
  split_ifs with hempty hstar
  · simp [hempty]
  · simp [hstar]
  · simp [hempty, hstar]

theorem accessChecks_pass : Pass (accessChecks env s) ↔ AccessRules env s := by
  show Pass (_ ++ if s.corsEnabled = true then
    [required "cors_allow_origins" (corsOriginPolicy env s).1
      (if (corsOriginPolicy env s).2 = "" then "CORS origin 配置合法。" else (corsOriginPolicy env s).2)] else []) ↔ _
  simp only [pass_append, pass_required, pass_nil, pass_if, and_true, Bool.not_eq_true', isWeakJwtSecret_strip,
    corsOriginPolicy_ok]
  exact ⟨fun ⟨⟨h1, h2, h3⟩, h4⟩ => ⟨h1, h2, h3, h4⟩, fun ⟨h1, h2, h3, h4⟩ => ⟨⟨h1, h2, h3⟩, h4⟩⟩

theorem loggingChecks_pass : Pass (loggingChecks env s) ↔ LoggingRules env s := by
  unfold loggingChecks
  simp only [pass_required, pass_nil, and_true, decide_eq_true_iff]
  exact ⟨fun ⟨h1, h2, h3, h4, h5⟩ => ⟨h1, h2, h3, h4, h5⟩, fun ⟨h1, h2, h3, h4, h5⟩ => ⟨h1, h2, h3, h4, h5⟩⟩

/-- The last check of the group repeats the others, and adds the format. -/
theorem auditChecks_pass : Pass (auditChecks env s) ↔ AuditRules env s := by
  have hsettings : (validateAuditRetentionSettings env s).isEmpty = true ↔
      ¬ (s.auditRetentionEnabled = true ∧ s.auditRetentionDays ≤ 0) ∧
      ¬ (s.auditExportMaxRows ≤ 0 ∨ 10000 < s.auditExportMaxRows) ∧
      lower env (strip env s.auditExportFormat) = "jsonl" ∧
      ¬ (s.auditExportEnabled = true ∧ s.auditExportRedactionEnabled = false) := by
    unfold validateAuditRetentionSettings
    rw [List.isEmpty_iff, List.append_eq_nil_iff, List.append_eq_nil_iff, List.append_eq_nil_iff]
    simp only [ite_eq_right_iff, List.cons_ne_nil, imp_false, and_assoc, Classical.not_not, ne_eq]
  unfold auditChecks
  simp only [pass_required, pass_nil, and_true, decide_eq_true_iff, hsettings]
  constructor
  · rintro ⟨h1, h2, ⟨h3, h4⟩, h5, -, -, h6, -⟩
    exact ⟨h1, h2, ⟨h3, h4⟩, h5, h6⟩
  · rintro ⟨h1, h2, ⟨h3, h4⟩, h5, h6⟩
    refine ⟨h1, h2, ⟨h3, h4⟩, h5, fun h => ?_, fun h => ?_, h6, fun h => ?_⟩
    · omega
    · omega
    · rw [h5] at h
      cases h.2

/-- A burst of zero is the one that the checks refuse and the rules do not. -/
theorem limitChecks_pass : Pass (limitChecks env s) ↔ LimitRules env s ∧ s.rateLimitBurst ≠ 0 := by
  have hburst : 0 ≤ burstRead s.rateLimitBurst ↔ 0 ≤ s.rateLimitBurst ∧ s.rateLimitBurst ≠ 0 := by
    unfold burstRead
    split_ifs with h <;> omega
  unfold limitChecks
  simp only [pass_append, pass_required, pass_nil, pass_if, and_true, decide_eq_true_iff, hburst, List.mem_cons,
    List.not_mem_nil, or_false]
  constructor
  · rintro ⟨⟨h1, ⟨h2, h3⟩, h4, h5, ⟨h6, h7⟩, h8⟩, h9⟩
    exact ⟨⟨h1, ⟨h2, h3⟩, h4, h5, h6, h8, fun h => (h9 h).1, fun h => (h9 h).2⟩, h7⟩
  · rintro ⟨⟨h1, ⟨h2, h3⟩, h4, h5, h6, h8, h9, h10⟩, h7⟩
    exact ⟨⟨h1, ⟨h2, h3⟩, h4, h5, ⟨h6, h7⟩, h8⟩, fun h => ⟨h9 h, h10 h⟩⟩

theorem storageChecks_pass : Pass (storageChecks env s) ↔ StorageRules env s := by
  have hstrong : (!(contains "replace-me" (lower env (strip env s.databaseUrl)) ||
      contains ":change-me@" (lower env (strip env s.databaseUrl))) &&
        !isObviousPlaceholderPassword env (extractUrlPassword env (strip env s.databaseUrl))) = true ↔
      StrongDatabaseUrl env (strip env s.databaseUrl) := by
    unfold StrongDatabaseUrl
    rw [Bool.and_eq_true, Bool.not_eq_true', Bool.not_eq_true', Bool.or_eq_false_iff, and_assoc]
  unfold storageChecks
  simp only [pass_append, pass_required, pass_nil, pass_if, and_true, decide_eq_true_iff, hstrong, Bool.not_eq_true']
  constructor
  · rintro ⟨h, h'⟩
    exact ⟨fun hp => (h hp).1, fun hp => (h hp).2, fun hr => (h' hr).1, fun hr => (h' hr).2⟩
  · rintro ⟨h1, h2, h3, h4⟩
    exact ⟨fun hp => ⟨h1 hp, h2 hp⟩, fun hr => ⟨h3 hr, h4 hr⟩⟩

theorem mcpChecks_pass : Pass (mcpChecks env s) ↔ McpRules env s := by
  unfold mcpChecks
  simp only [pass_if, pass_required, pass_nil, and_true, decide_eq_true_iff]
  exact ⟨fun h => ⟨fun hreal => (h hreal).1, fun hreal => (h hreal).2⟩, fun h hreal => ⟨h.1 hreal, h.2 hreal⟩⟩

theorem realLlmChecks_pass : Pass (realLlmChecks env s) ↔ RealLlmRules env s := by
  unfold realLlmChecks
  simp only [pass_if, pass_required, pass_nil, and_true, decide_eq_true_iff]
  constructor
  · intro h
    exact ⟨fun hreal => (h hreal).1, fun hreal => (h hreal).2.1, fun hreal _ => (h hreal).2.2.2⟩
  · rintro ⟨h1, h2, h3⟩ hreal
    exact ⟨h1 hreal, h2 hreal, h2 hreal, h3 hreal (h2 hreal)⟩

/-- Without OIDC the checks of the group are warnings. -/
theorem oidcChecks_pass :
    Pass (roleChecks env s) ∧ Pass (oidcChecks env s) ↔ (s.oidcEnabled = true → OidcRules env s) := by
  cases henabled : s.oidcEnabled with
  | false =>
    have hroles : Pass (roleChecks env s) := by
      intro check hcheck hlevel
      unfold roleChecks at hcheck
      simp only [henabled, List.mem_cons, List.not_mem_nil, or_false] at hcheck
      have hwarning : ¬ "warning" = "error" := by decide
      rcases hcheck with rfl | rfl <;> exact absurd hlevel hwarning
    have hoidc : Pass (oidcChecks env s) := by
      intro check hcheck hlevel
      unfold oidcChecks at hcheck
      rw [if_pos henabled, List.mem_singleton] at hcheck
      subst hcheck
      exact absurd hlevel (by decide)
    exact ⟨fun _ h => absurd h (by decide), fun _ => ⟨hroles, hoidc⟩⟩
  | true =>
    have hroles : Pass (roleChecks env s) ↔
        (normalizeRoleList env s.oidcAllowedRoles ≠ [] ∧
          ∀ role ∈ normalizeRoleList env s.oidcAllowedRoles, role ∈ allowedOidcRoles) ∧
        lower env (strip env s.oidcDefaultRole) ∈ allowedOidcRoles ∧
          lower env (strip env s.oidcDefaultRole) ∈ normalizeRoleList env s.oidcAllowedRoles := by
      unfold roleChecks
      simp only [henabled, if_true]
      rw [← required, ← required, pass_required, pass_required, Bool.and_eq_true, List.all_eq_true,
        Bool.not_eq_true', List.isEmpty_eq_false_iff]
      simp only [decide_eq_true_iff, pass_nil, and_true]
    rw [hroles]
    unfold oidcChecks
    rw [if_neg (by rw [henabled]; decide)]
    simp only [pass_append, pass_required, pass_nil, pass_if, and_true, decide_eq_true_iff, Bool.or_eq_true]
    constructor
    · rintro ⟨⟨h1, h2⟩, ⟨h3, h4, h5, h6, ⟨-, h7⟩, h8⟩, h9⟩ -
      obtain ⟨h10, h11⟩ := h9 h8
      exact ⟨h1, h2, h3, h4, h5, h6, h7, h8, h10.resolve_left h3, h11.resolve_left h5⟩
    · intro h
      obtain ⟨h1, h2, h3, h4, h5, h6, h7, h8, h9, h10⟩ := h trivial
      exact ⟨⟨h1, h2⟩, ⟨h3, h4, h5, h6, ⟨h6, h7⟩, h8⟩, fun _ => ⟨.inr h9, .inr h10⟩⟩

/-- The checks of production pass where the rules hold and the burst is not zero. -/
theorem productionChecks_pass :
    Pass (productionChecks env s) ↔ StatedRules env s ∧ s.rateLimitBurst ≠ 0 := by
  unfold productionChecks
  simp only [pass_append, accessChecks_pass, loggingChecks_pass, auditChecks_pass, limitChecks_pass,
    storageChecks_pass, mcpChecks_pass, realLlmChecks_pass]
  constructor
  · rintro ⟨⟨⟨⟨⟨⟨⟨⟨h1, h2⟩, h3⟩, h4, hburst⟩, h5⟩, h6⟩, h7⟩, hroles⟩, hoidc⟩
    exact ⟨⟨h1, h2, h3, h4, h5, h6, h7, oidcChecks_pass.mp ⟨hroles, hoidc⟩⟩, hburst⟩
  · rintro ⟨⟨h1, h2, h3, h4, h5, h6, h7, h8⟩, hburst⟩
    obtain ⟨hroles, hoidc⟩ := oidcChecks_pass.mpr h8
    exact ⟨⟨⟨⟨⟨⟨⟨⟨h1, h2⟩, h3⟩, h4, hburst⟩, h5⟩, h6⟩, h7⟩, hroles⟩, hoidc⟩

/-! ## The result -/

/-- `ok` says that there are no errors. -/
theorem foldl_addCheck_errors {result : DeploymentCheckResult} (h : result.ok = true ↔ result.errors = []) :
    (checks.foldl addCheck result).ok = true ↔ (checks.foldl addCheck result).errors = [] := by
  induction checks generalizing result with
  | nil => exact h
  | cons check checks ih =>
    refine ih ?_
    unfold addCheck
    dsimp only
    split_ifs
    · exact h
    · simp
    · exact h

theorem errors_eq_nil (hprod : environment env s = "production") :
    (runDeploymentChecks env s).errors = [] ↔ StatedRules env s ∧ s.rateLimitBurst ≠ 0 := by
  have hok : (runDeploymentChecks env s).ok = true ↔ (runDeploymentChecks env s).errors = [] :=
    foldl_addCheck_errors (by simp)
  rw [← hok, runDeploymentChecks_ok hprod]
  exact productionChecks_pass

/-- **The production check.**  The result is ok exactly if it has no errors; and it has none exactly if the rules hold as
they are stated, but for a burst of zero under rules that hold. -/
theorem production_check_exact_iff (env : GuardEnv) (s : Settings) (hprod : environment env s = "production") :
    (((runDeploymentChecks env s).ok = true ↔ (runDeploymentChecks env s).errors = []) ∧
      ((runDeploymentChecks env s).errors = [] ↔ StatedRules env s)) ↔
        (s.rateLimitBurst = 0 → ¬ StatedRules env s) := by
  have hok : (runDeploymentChecks env s).ok = true ↔ (runDeploymentChecks env s).errors = [] :=
    foldl_addCheck_errors (by simp)
  rw [errors_eq_nil hprod]
  constructor
  · rintro ⟨-, hexact⟩ hburst hrules
    exact (hexact.mpr hrules).2 hburst
  · intro hzero
    rw [errors_eq_nil hprod] at hok
    exact ⟨hok, fun h => h.1, fun hrules => ⟨hrules, fun hburst => hzero hburst hrules⟩⟩

/-- A production deployment over no environment. -/
def plainGuard : GuardEnv := ⟨.plain, fun _ => none, fun _ => ""⟩

theorem production_check_exact_demo :
    (((runDeploymentChecks plainGuard (McpGateway.productionSettings "python" "search")).ok = true ↔
        (runDeploymentChecks plainGuard (McpGateway.productionSettings "python" "search")).errors = []) ∧
      ((runDeploymentChecks plainGuard (McpGateway.productionSettings "python" "search")).errors = [] ↔
        StatedRules plainGuard (McpGateway.productionSettings "python" "search"))) ↔
      ((McpGateway.productionSettings "python" "search").rateLimitBurst = 0 →
        ¬ StatedRules plainGuard (McpGateway.productionSettings "python" "search")) :=
  production_check_exact_iff plainGuard (McpGateway.productionSettings "python" "search") (by decide +kernel)

/-- The settings of that deployment, with a burst of zero. -/
def zeroBurst : Settings := { McpGateway.productionSettings "python" "search" with rateLimitBurst := 0 }

/-- A burst of zero obeys its rule, and is refused. -/
theorem production_check_refuses_zero : ¬ ∀ (env : GuardEnv) (s : Settings), environment env s = "production" →
    (((runDeploymentChecks env s).ok = true ↔ (runDeploymentChecks env s).errors = []) ∧
      ((runDeploymentChecks env s).errors = [] ↔ StatedRules env s)) := by
  intro h
  have hlimit : LimitRules plainGuard zeroBurst := by
    constructor <;> decide +kernel
  have hrules : StatedRules plainGuard zeroBurst :=
    { access := accessChecks_pass.mp (by decide +kernel)
      logging := loggingChecks_pass.mp (by decide +kernel)
      audit := auditChecks_pass.mp (by decide +kernel)
      limit := hlimit
      storage := storageChecks_pass.mp (by decide +kernel)
      mcp := mcpChecks_pass.mp (by decide +kernel)
      realLlm := realLlmChecks_pass.mp (by decide +kernel)
      oidc := oidcChecks_pass.mp (by decide +kernel) }
  have herrors := (h plainGuard zeroBurst (by decide +kernel)).2.mpr hrules
  exact absurd herrors (by decide +kernel)

end DeploymentGuard

end AgentHarness
