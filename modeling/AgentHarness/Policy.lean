import AgentHarness.Schemas

/-!
# Policy — `OperationWhitelist` and `PolicyEngine`

`PolicyEngine.evaluate` answers whether a tool may be called directly.  A denial by the whitelist
is final (`requires_approval = False`); a denial because of a high risk level asks for approval.
`OperationWhitelist.check_payload_integrity` is the check made before an approved tool is resumed.
-/

namespace AgentHarness

structure OperationDecision where
  allowed : Bool
  reason : String
  operation : PyVal
  scope : Option String

/-- The whitelist, with the registry of its gateway when it has one. -/
structure OperationWhitelist where
  gateway : Option (String → Option ToolSpec)

namespace OperationWhitelist

def permit (operation : String) (scope : Option String) : OperationDecision :=
  ⟨true, "", .str operation, scope⟩

def guardedScope (scope : String) : Bool := scope ∈ ["write", "admin", "schema"]

def checkNl2sql (toolName : String) (permissionScope : Option String) : OperationDecision :=
  match permissionScope with
  | some s =>
    if guardedScope s then
      ⟨false, s!"nl2sql 模式不允许 write/admin/schema 操作: {s}", .str toolName, some s⟩
    else permit toolName (some s)
  | none => permit toolName none

def checkToolRegistered (w : OperationWhitelist) (toolName : String) (riskLevel : Option String)
    (permissionScope : Option String) : OperationDecision :=
  match w.gateway with
  | none => permit toolName permissionScope
  | some getTool =>
    match getTool toolName with
    | none =>
      ⟨false, s!"工具 '{toolName}' 未在 ToolGateway 注册", .str toolName, permissionScope⟩
    | some spec =>
      if guardedScope spec.permissionScope ∧ riskLevel ≠ some "high" then
        ⟨false, s!"工具 '{toolName}' 权限范围 '{spec.permissionScope}' 不允许直接执行", .str toolName,
          some spec.permissionScope⟩
      else permit toolName permissionScope

/-- The modes other than `nl2sql` all come to the registration check. -/
def isAllowed (w : OperationWhitelist) (toolName mode : String) (riskLevel : Option String)
    (permissionScope : Option String) : OperationDecision :=
  if mode = "nl2sql" then checkNl2sql toolName permissionScope
  else w.checkToolRegistered toolName riskLevel permissionScope

/-- `any(s.get("step_id") == step_id for s in plan_steps)`. -/
def anyStep (stepId : PyVal) : List PyVal → Except PyExc Bool
  | [] => .ok false
  | s :: l => do
    let id ← s.get "step_id"
    if id.pyEq stepId then .ok true else anyStep stepId l

/-- The integrity check of a payload against the approval record.  An absent or empty tool name in
the payload is not compared. -/
def checkPayloadIntegrity (fmt : PyVal → String) (payload : Dict) (approvalToolName : String)
    (planSteps : PyVal) : Except PyExc OperationDecision :=
  let payloadToolName := Dict.getD payload "tool_name" (.str "")
  if payloadToolName.truthy ∧ !payloadToolName.pyEq (.str approvalToolName) then
    .ok ⟨false, s!"payload tool_name '{fmt payloadToolName}' 与审批记录 '{approvalToolName}' 不匹配",
      payloadToolName, none⟩
  else
    match planSteps with
    | .null => .ok (permit approvalToolName none)
    | _ => do
      let stepId := Dict.getD payload "step_id" (.str "")
      let steps ← planSteps.iter
      let found ← anyStep stepId steps
      if stepId.truthy ∧ !found then
        .ok ⟨false, s!"resume step_id '{fmt stepId}' 不存在于原 plan.steps", stepId, none⟩
      else .ok (permit approvalToolName none)

end OperationWhitelist

/-- The context a caller may pass to `evaluate`. -/
structure PolicyContext where
  mode : String
  permissionScope : Option String

structure PolicyEngine where
  whitelist : Option OperationWhitelist

namespace PolicyEngine

def check (riskLevel : Option RiskLevel) : Bool := riskLevel ≠ some .high

/-- The decision once the whitelist, if there is one, has let the tool pass. -/
def decide (action : String) (riskLevel : Option RiskLevel) : Decision :=
  if check riskLevel then ⟨action, riskLevel, true, false, "", none⟩
  else ⟨action, riskLevel, false, true, s!"高风险工具 '{action}' 需要人工审批", none⟩

def evaluate (e : PolicyEngine) (action : String) (riskLevel : Option RiskLevel)
    (context : Option PolicyContext) : Decision :=
  match e.whitelist with
  | none => decide action riskLevel
  | some w =>
    let mode := (context.map PolicyContext.mode).getD ""
    let permissionScope := context.bind PolicyContext.permissionScope
    let wl := w.isAllowed action mode (riskLevel.map RiskLevel.value) permissionScope
    if !wl.allowed then
      ⟨action, riskLevel, false, false, s!"操作不在白名单内: {wl.reason}",
        some "operation_not_whitelisted"⟩
    else decide action riskLevel

/-- The whitelist of the engine refuses the tool. -/
def whitelistDenies (e : PolicyEngine) (action : String) (riskLevel : Option RiskLevel) : Bool :=
  match e.whitelist with
  | none => false
  | some w => !(w.isAllowed action "" (riskLevel.map RiskLevel.value) none).allowed

variable {e : PolicyEngine} {action : String} {r : Option RiskLevel}

/-- **A tool is allowed** exactly when the whitelist does not refuse it and its risk is not high. -/
theorem evaluate_allowed :
    (e.evaluate action r none).allowed = true ↔ e.whitelistDenies action r = false ∧ r ≠ some .high := by
  unfold evaluate whitelistDenies decide check
  cases e.whitelist with
  | none => by_cases h : r = some .high <;> simp [h]
  | some w =>
    by_cases hw : (w.isAllowed action "" (r.map RiskLevel.value) none).allowed
    · by_cases h : r = some .high <;> simp_all
    · simp [hw]

/-- Approval is asked for exactly where the risk is high and the whitelist does not refuse. -/
theorem evaluate_requiresApproval :
    (e.evaluate action r none).requiresApproval = true ↔
      e.whitelistDenies action r = false ∧ r = some .high := by
  unfold evaluate whitelistDenies decide check
  cases e.whitelist with
  | none => by_cases h : r = some .high <;> simp [h]
  | some w =>
    by_cases hw : (w.isAllowed action "" (r.map RiskLevel.value) none).allowed
    · by_cases h : r = some .high <;> simp_all
    · simp [hw]

end PolicyEngine

end AgentHarness
