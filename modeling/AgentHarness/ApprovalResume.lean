import AgentHarness.ResumeAdapter
import AgentHarness.Variables

/-!
# ApprovalResume — `ApprovalResumeService`

`resume` reads the approval, refuses unless it is approved and not yet resumed, checks the payload
against the record, executes the approved step in the body of its mode, and at the end marks the
approval as consumed or counts a failed attempt.  The check at the top and the mark at the end are
separate statements; the tool is called between them.

In `multitool` mode the steps after the approved one are executed too
(`executeSubsequentSteps`), from the plan, the completed steps and the tool calls that the payload
carries; a step that needs approval ends the run with a new approval.
-/

namespace AgentHarness

open Lib Py

namespace ApprovalResumeService

/-- `x + 1`. -/
def addOne : PyVal → Except PyExc PyVal
  | .int i => .ok (.int (i + 1))
  | .bool b => .ok (.int (if b then 2 else 1))
  | .float q => .ok (.float (q + 1))
  | _ => .error (.typeError "unsupported operand type(s) for +")

/-! ## Snapshot -/

/-- The results a snapshot makes available to placeholders. -/
def rebuildSaved : List PyVal → List (String × Saved) → Except PyExc (List (String × Saved))
  | [], saved => .ok saved
  | tc :: toolCalls, saved => do
    let key := (← tc.get "save_as").or (← tc.get "step_id")
    let result ← tc.get "result"
    if key.truthy ∧ (← tc.get "success").truthy ∧ !(result matches .null) then
      match key, tc with
      | .str k, .dict d => rebuildSaved toolCalls ((k, .entry d) :: saved)
      | .list _, _ | .dict _, _ => .error (.typeError "unhashable type")
      -- a key that is not a string is never looked up
      | _, _ => rebuildSaved toolCalls saved
    else rebuildSaved toolCalls saved

def findSaveAsIn (stepId : PyVal) : List PyVal → Except PyExc PyVal
  | [] => .ok .null
  | step :: steps => do
    if (← step.get "step_id").pyEq stepId then step.get "save_as" else findSaveAsIn stepId steps

def findSaveAs (planData stepId : PyVal) : Except PyExc PyVal := do
  findSaveAsIn stepId (← (← planData.getD "steps" (.list [])).iter)

/-- `if save_as: saved[save_as] = record`. -/
def saveRecord (saveAs : PyVal) (r : ToolCallRecord) (saved : List (String × Saved)) :
    Except PyExc (List (String × Saved)) :=
  if !saveAs.truthy then .ok saved
  else
    match saveAs with
    | .str k => .ok ((k, .record r) :: saved)
    | .list _ | .dict _ => .error (.typeError "unhashable type")
    | _ => .ok saved

/-- The dict a resume keeps of a call it made. -/
def stepCall (stepId toolName : PyVal) (r : ToolCallRecord) (saveAs : PyVal) : Dict :=
  [("step_id", stepId), ("tool_name", toolName), ("success", .bool r.success), ("result", r.result),
    ("save_as", saveAs)] ++ if r.error.truthy then [("error", r.error)] else []

/-- `gateway.get_tool` on a name from a payload. -/
def getToolVal : PyVal → Py (Option ToolSpec)
  | .str t => getTool t
  | .list _ | .dict _ => .raise (.typeError "unhashable type")
  | _ => pure none

/-- `x in completed_step_ids`. -/
def inCompleted (x : PyVal) (completed : List PyVal) : Except PyExc Bool :=
  if x.hashable then .ok (x.memOf completed) else .error (.typeError "unhashable type")

/-- `[d for d in depends_on if d not in completed_step_ids]`. -/
def missingOf (completed : List PyVal) : List PyVal → Except PyExc (List PyVal)
  | [] => .ok []
  | d :: ds => do
    let done ← inCompleted d completed
    let rest ← missingOf completed ds
    .ok (if done then rest else d :: rest)

/-! ## Subsequent steps -/

section

variable (env : Env)

/-- The payload of the approval that a later step asks for. -/
def nextPayload (stepId toolName arguments steps : PyVal) (completed toolCalls : List PyVal) : Dict :=
  [("mode", .str "multitool"), ("query", .str ""), ("step_id", stepId), ("tool_name", toolName),
    ("arguments", arguments), ("plan", .dict [("steps", steps)]),
    ("completed_step_ids", .list completed), ("tool_calls", .list toolCalls)]

/-- The reading of the policy decision for a later step: `none` lets it run. -/
def gateStep (taskId : String) (stepId toolName arguments steps : PyVal) (spec : ToolSpec)
    (completed toolCalls : List PyVal) : Py (Option Dict) :=
  match env.policyEngine with
  | none => pure none
  | some _ => do
    let decision ← evaluate (env.format toolName) spec.riskLevel
    if decision.allowed then pure none
    else if decision.requiresApproval then do
      let newApproval ← createApproval taskId (env.format toolName)
        s!"多工具恢复步骤 {env.format stepId} 调用 {env.format toolName}" spec.riskLevel
        spec.permissionScope decision.reason
        (nextPayload stepId toolName arguments steps completed toolCalls)
      pure (some [("waiting_approval", .bool true), ("new_approval_id", approvalIdVal newApproval),
        ("tool_calls", .list toolCalls)])
    else
      pure (some [("success", .bool false),
        ("error", .str s!"步骤 {env.format stepId} 被策略拦截: {decision.reason}"),
        ("tool_calls", .list toolCalls)])

/-- The call of a later step that may run; `next` is what follows its success. -/
def callStep (taskId : String) (original : ApprovalId) (stepId toolName arguments saveAs : PyVal)
    (saved : List (String × Saved)) (toolCalls : List PyVal)
    (next : List (String × Saved) → List PyVal → Py Dict) : Py Dict :=
  match resolveArguments env arguments saved with
  | .error exc =>
    pure [("success", .bool false),
      ("error", .str s!"步骤 {env.format stepId} 变量解析失败: ${exc.path}"), ("tool_calls", .list toolCalls)]
  | .ok resolvedArgs => do
    traceTask "multitool_resume_step_started" taskId
      [("approval_id", approvalIdVal original), ("step_id", stepId), ("tool_name", toolName)]
    let record ← gatewayCall (.subsequent original stepId) toolName resolvedArgs
    let toolCalls := toolCalls ++ [.dict (stepCall stepId toolName record saveAs)]
    if !record.success then do
      traceTask "multitool_resume_step_failed" taskId
        [("approval_id", approvalIdVal original), ("step_id", stepId), ("error", record.error)]
      pure [("success", .bool false),
        ("error", .str s!"步骤 {env.format stepId} 工具调用失败: {env.format record.error}"),
        ("tool_calls", .list toolCalls)]
    else do
      traceTask "multitool_resume_step_completed" taskId
        [("approval_id", approvalIdVal original), ("step_id", stepId), ("tool_name", toolName)]
      let saved ← Prog.ofExcept (saveRecord saveAs record saved)
      next saved toolCalls

/-- `_execute_subsequent_steps`: the loop over the remaining elements of `steps`. -/
def executeSubsequentSteps (taskId : String) (original : ApprovalId) (steps : PyVal) :
    List PyVal → (completed : List PyVal) → List (String × Saved) → (toolCalls : List PyVal) → Py Dict
  | [], _, _, toolCalls => pure [("success", .bool true), ("tool_calls", .list toolCalls)]
  | step :: rest, completed, saved, toolCalls => do
    let stepId ← Prog.ofExcept (step.getD "step_id" (.str ""))
    if ← Prog.ofExcept (inCompleted stepId completed) then
      executeSubsequentSteps taskId original steps rest completed saved toolCalls
    else do
      let toolName ← Prog.ofExcept (step.getD "tool_name" (.str ""))
      let arguments ← Prog.ofExcept (step.getD "arguments" (.dict []))
      let saveAs ← Prog.ofExcept (step.get "save_as")
      let dependsOn ← Prog.ofExcept (step.get "depends_on")
      let missing ← Prog.ofExcept ((dependsOn.or (.list [])).iter >>= missingOf completed)
      if !missing.isEmpty then do
        traceTask "multitool_resume_step_failed" taskId
          [("approval_id", approvalIdVal original), ("step_id", stepId),
            ("error_type", .str "resume_dependency_not_satisfied"), ("missing_depends_on", .list missing)]
        pure [("success", .bool false),
          ("error", .str s!"步骤 {env.format stepId} 依赖未满足: {env.format (.list missing)}"),
          ("error_type", .str "resume_dependency_not_satisfied"),
          ("missing_depends_on", .list missing), ("tool_calls", .list toolCalls),
          ("dependency_error", .bool true)]
      else do
        match ← getToolVal toolName with
        | none => do
          traceTask "operation_whitelist_blocked" taskId
            [("approval_id", approvalIdVal original), ("step_id", stepId), ("tool_name", toolName),
              ("mode", .str "multitool_resume"),
              ("reason", .str s!"工具 '{env.format toolName}' 未在 ToolGateway 注册")]
          pure [("success", .bool false),
            ("error", .str s!"步骤 {env.format stepId} 工具 '{env.format toolName}' 未注册，不允许执行"),
            ("error_type", .str "operation_not_whitelisted"), ("tool_calls", .list toolCalls)]
        | some spec => do
          match ← gateStep env taskId stepId toolName arguments steps spec completed toolCalls with
          | some stopped => pure stopped
          | none =>
            callStep env taskId original stepId toolName arguments saveAs saved toolCalls
              fun saved toolCalls =>
                executeSubsequentSteps taskId original steps rest (completed ++ [stepId]) saved toolCalls

/-! ## The bodies of the modes -/

/-- The result of a keyword resume whose tool call returned. -/
def keywordResult (a : ApprovalId) (toolName : PyVal) (record : ToolCallRecord) : Dict :=
  [("resumed_from_approval", .bool true), ("approval_id", approvalIdVal a), ("tool_called", toolName),
    ("data", record.result), ("success", .bool record.success),
    ("approved_step_executed", .bool true), ("approval_consumed", .bool record.success)] ++
  if record.error.truthy then [("error", record.error)] else []

/-- The result of a keyword resume in which something raised. -/
def keywordFailure (a : ApprovalId) (toolName : PyVal) (exc : PyExc) : Dict :=
  [("resumed_from_approval", .bool true), ("approval_id", approvalIdVal a), ("tool_called", toolName),
    ("success", .bool false), ("error", .str exc.text), ("approved_step_executed", .bool false),
    ("approval_consumed", .bool false)]

/-- `_resume_keyword`.  The update of the task is inside the `try`. -/
def resumeKeyword (a : ApprovalId) (taskId : String) (payload : Dict) : Py Dict := do
  let toolName := Dict.getD payload "tool_name" (.str "")
  let arguments := Dict.getD payload "arguments" (.dict [])
  traceTask "approval_resume_tool_called" taskId
    [("approval_id", approvalIdVal a), ("tool_name", toolName), ("mode", .str "keyword")]
  MonadExcept.tryCatch
    (do
      let record ← gatewayCall (.approved a .null) toolName arguments
      let resumeResult := keywordResult a toolName record
      let taskStatus := if record.success then TaskStatus.completed else .failed
      let _ ← updateTaskStatus taskId taskStatus (some resumeResult)
      traceTask "approval_resume_completed" taskId
        [("approval_id", approvalIdVal a), ("tool_name", toolName), ("success", .bool record.success)]
      recordAudit [("event_type", .str "approval_resume_completed"), ("task_id", .str taskId),
        ("approval_id", approvalIdVal a), ("tool_name", toolName), ("action", .str "resume_keyword"),
        ("outcome", .str (if record.success then "success" else "failed")), ("reason", record.error)]
      pure resumeResult)
    (fun exc => do
      let _ ← updateTaskStatus taskId .failed (some (keywordFailure a toolName exc))
      traceTask "approval_resume_failed" taskId
        [("approval_id", approvalIdVal a), ("error", .str exc.text)]
      recordAudit [("event_type", .str "approval_resume_failed"), ("task_id", .str taskId),
        ("approval_id", approvalIdVal a), ("tool_name", toolName), ("action", .str "resume_keyword"),
        ("outcome", .str "failed"), ("reason", .str exc.text)]
      pure (keywordFailure a toolName exc))

/-- The leading entries of every result of a multitool resume. -/
def multitoolHead (a : ApprovalId) (stepId : PyVal) : Dict :=
  [("mode", .str "multitool"), ("resumed_from_approval", .bool true), ("approval_id", approvalIdVal a),
    ("resumed_step_id", stepId)]

/-- The result when a later step asked for approval. -/
def waitingResult (a : ApprovalId) (stepId : PyVal) (toolCalls : PyVal) (subsequent : Dict) : Dict :=
  multitoolHead a stepId ++
  [("success", .bool false), ("waiting_approval", .bool true),
    ("new_approval_id", Dict.get subsequent "new_approval_id"), ("tool_calls", toolCalls),
    ("approved_step_executed", .bool true), ("approval_consumed", .bool true),
    ("resume_status", .str "waiting_approval")]

def carry (subsequent : Dict) (key : String) : Dict :=
  if (Dict.get subsequent key).truthy then [(key, Dict.get subsequent key)] else []

/-- The result when the remaining steps ran to an end. -/
def finalResult (a : ApprovalId) (stepId : PyVal) (toolCalls : PyVal) (subsequent : Dict) : Dict :=
  let overall := Dict.getD subsequent "success" (.bool true)
  let failed := (Dict.get subsequent "dependency_error").truthy || !overall.truthy
  multitoolHead a stepId ++
  [("success", overall), ("tool_calls", toolCalls), ("approved_step_executed", .bool true),
    ("approval_consumed", .bool true),
    ("resume_status", .str (if failed then "downstream_failed" else "completed"))] ++
  (if !overall.truthy then carry subsequent "error" else []) ++ carry subsequent "error_type" ++
  carry subsequent "missing_depends_on"

/-- What follows a successful call of the approved step. -/
def continueMultitool (a : ApprovalId) (taskId : String) (planData stepId toolName : PyVal)
    (completed : List PyVal) (saved : List (String × Saved)) (toolCalls : List PyVal)
    (saveAs : PyVal) (record : ToolCallRecord) : Py Dict := do
  traceTask "multitool_resume_step_completed" taskId
    [("approval_id", approvalIdVal a), ("step_id", stepId), ("tool_name", toolName)]
  let completed ← Prog.ofExcept (if stepId.hashable then .ok (completed ++ [stepId])
    else .error (.typeError "unhashable type"))
  let saved ← Prog.ofExcept (saveRecord saveAs record saved)
  let steps ← Prog.ofExcept (planData.getD "steps" (.list []))
  let stepList ← Prog.ofExcept steps.iter
  let subsequent ← executeSubsequentSteps env taskId a steps stepList completed saved toolCalls
  let allToolCalls := Dict.getD subsequent "tool_calls" (.list toolCalls)
  if (Dict.get subsequent "waiting_approval").truthy then do
    let result := waitingResult a stepId allToolCalls subsequent
    let _ ← updateTaskStatus taskId .waiting_approval (some result)
    traceTask "multitool_resume_waiting_approval" taskId
      [("approval_id", approvalIdVal a), ("new_approval_id", Dict.get subsequent "new_approval_id")]
    pure result
  else do
    let result := finalResult a stepId allToolCalls subsequent
    let completedOk := (Dict.get result "resume_status").pyEq (.str "completed")
    let _ ← updateTaskStatus taskId (if completedOk then .completed else .failed) (some result)
    traceTask "multitool_resume_completed" taskId
      [("approval_id", approvalIdVal a), ("success", Dict.get result "success")]
    recordAudit [("event_type", .str "approval_resume_completed"), ("task_id", .str taskId),
      ("approval_id", approvalIdVal a), ("tool_name", toolName), ("action", .str "resume_multitool"),
      ("outcome", .str (if (Dict.get result "success").truthy then "success" else "failed")),
      ("reason", Dict.get result "error"),
      ("detail", .dict [("resume_status", Dict.get result "resume_status")])]
    pure result

/-- The call of the approved step with its resolved arguments. -/
def runApprovedStep (a : ApprovalId) (taskId : String) (planData stepId toolName resolvedArgs : PyVal)
    (completed toolCalls : List PyVal) (saved : List (String × Saved)) : Py Dict := do
  let outcome ← MonadExcept.tryCatch
    (do
      let record ← gatewayCall (.approved a stepId) toolName resolvedArgs
      pure (Except.ok record))
    (fun exc => pure (Except.error exc))
  match outcome with
  | .error exc => do
    let result := multitoolHead a stepId ++
      [("success", .bool false), ("error", .str exc.text), ("approved_step_executed", .bool false),
        ("approval_consumed", .bool false)]
    let _ ← updateTaskStatus taskId .failed (some result)
    traceTask "multitool_resume_step_failed" taskId
      [("approval_id", approvalIdVal a), ("step_id", stepId), ("error", .str exc.text)]
    pure result
  | .ok record => do
    let saveAs ← Prog.ofExcept (findSaveAs planData stepId)
    let allToolCalls := toolCalls ++ [.dict (stepCall stepId toolName record saveAs)]
    if !record.success then do
      let result := multitoolHead a stepId ++
        [("success", .bool false), ("error", record.error), ("tool_calls", .list allToolCalls),
          ("approved_step_executed", .bool true), ("approval_consumed", .bool false)]
      let _ ← updateTaskStatus taskId .failed (some result)
      traceTask "multitool_resume_step_failed" taskId
        [("approval_id", approvalIdVal a), ("step_id", stepId), ("error", record.error)]
      pure result
    else
      continueMultitool env a taskId planData stepId toolName completed saved allToolCalls saveAs record

/-- `_resume_multitool`. -/
def resumeMultitool (a : ApprovalId) (taskId : String) (payload : Dict) : Py Dict := do
  let planData := Dict.getD payload "plan" (.dict [])
  let stepId := Dict.getD payload "step_id" (.str "")
  let toolName := Dict.getD payload "tool_name" (.str "")
  let arguments := Dict.getD payload "arguments" (.dict [])
  let completed ← Prog.ofExcept (Dict.getD payload "completed_step_ids" (.list [])).toSet
  let toolCalls ← Prog.ofExcept (Dict.getD payload "tool_calls" (.list [])).iter
  let saved ← Prog.ofExcept (rebuildSaved toolCalls [])
  traceTask "multitool_resume_started" taskId [("approval_id", approvalIdVal a), ("step_id", stepId)]
  match resolveArguments env arguments saved with
  | .error exc => do
    traceTask "approval_resume_failed" taskId
      [("approval_id", approvalIdVal a), ("error", .str s!"变量解析失败: ${exc.path}")]
    pure (multitoolHead a stepId ++
      [("success", .bool false), ("error_type", .str "resume_variable_resolution_failed"),
        ("error_path", .str exc.path), ("approved_step_executed", .bool false),
        ("approval_consumed", .bool false)])
  | .ok resolvedArgs => do
    traceTask "multitool_resume_step_started" taskId
      [("approval_id", approvalIdVal a), ("step_id", stepId), ("tool_name", toolName)]
    runApprovedStep env a taskId planData stepId toolName resolvedArgs completed toolCalls saved

/-! ## Resume -/

/-- The bookkeeping at the end of `resume`: the approval is consumed, or an attempt is counted. -/
def settle (a : ApprovalId) (result : Dict) : Py Unit := do
  if (Dict.get result "approval_consumed").truthy then do
    let _ ← updatePayload a
      [("resumed", .bool true),
        ("resume_status", Dict.getD result "resume_status" (.str "completed")),
        ("resume_result", .dict result), ("approval_consumed", .bool true)]
  else do
    let current ← getApproval .store a
    let currentPayload := (current.map ApprovalRow.payloadDict).getD []
    let attemptCount ←
      Prog.ofExcept (addOne (Dict.getD currentPayload "resume_attempt_count" (.int 0)))
    let _ ← updatePayload a
      [("resume_status", .str "failed"), ("last_resume_result", .dict result),
        ("last_resume_error", Dict.getD result "error" (.str "")),
        ("resume_attempt_count", attemptCount)]

/-- The report of a payload that does not match the approval record. -/
def tamperedResult (a : ApprovalId) (reason : String) : Dict :=
  [("resumed", .bool false), ("error", .str reason), ("error_type", .str "approval_payload_tampered"),
    ("approval_id", approvalIdVal a), ("approval_consumed", .bool false)]

/-- `payload.get("plan", {}).get("steps") if mode == "multitool" else None`. -/
def planSteps (payload : Dict) (mode : PyVal) : Except PyExc PyVal :=
  if mode.pyEq (.str "multitool") then (Dict.getD payload "plan" (.dict [])).get "steps"
  else .ok .null

/-- The body of the payload's mode. -/
def runMode (a : ApprovalId) (taskId : String) (payload : Dict) (mode : PyVal) : Py Dict :=
  if mode.pyEq (.str "keyword") then resumeKeyword a taskId payload
  else if mode.pyEq (.str "multitool") then resumeMultitool env a taskId payload
  else pure [("resumed", .bool false), ("error", .str s!"不支持的 resume mode: {env.format mode}"),
    ("approval_id", approvalIdVal a)]

/-- The integrity check, then the mode's body and its bookkeeping. -/
def resumeChecked (a : ApprovalId) (approval : ApprovalRow) (payload : Dict) (mode : PyVal) :
    Py Dict := do
  let steps ← Prog.ofExcept (planSteps payload mode)
  let integrity ← Prog.ofExcept
    (OperationWhitelist.checkPayloadIntegrity env.format payload approval.toolName steps)
  if !integrity.allowed then do
    traceTask "approval_payload_tampered" approval.taskId
      [("approval_id", approvalIdVal a), ("reason", .str integrity.reason),
        ("operation", integrity.operation), ("error_type", .str "approval_payload_tampered")]
    recordAudit [("event_type", .str "approval_payload_tampered"), ("task_id", .str approval.taskId),
      ("approval_id", approvalIdVal a), ("action", .str "resume"), ("outcome", .str "blocked"),
      ("severity", .str "critical"), ("reason", .str integrity.reason),
      ("detail", .dict [("operation", integrity.operation),
        ("error_type", .str "approval_payload_tampered")])]
    pure (tamperedResult a integrity.reason)
  else do
    let result ← runMode env a approval.taskId payload mode
    settle a result
    pure result

/-- After the approval was found approved and not resumed. -/
def resumeApproved (a : ApprovalId) (approval : ApprovalRow) : Py Dict := do
  let payload := approval.payloadDict
  let mode := Dict.getD payload "mode" (.str "")
  traceTask "approval_resume_started" approval.taskId
    [("approval_id", approvalIdVal a), ("mode", mode)]
  recordAudit [("event_type", .str "approval_resume_started"), ("task_id", .str approval.taskId),
    ("approval_id", approvalIdVal a), ("action", .str "resume"), ("outcome", .str "success"),
    ("detail", .dict [("mode", mode)])]
  if mode.pyEq (.str "graph_keyword") then
    if !(Dict.get payload "checkpoint_id").truthy then
      pure [("resumed", .bool false), ("error", .str "graph_keyword approval missing checkpoint_id"),
        ("error_type", .str "missing_checkpoint_id"), ("approval_id", approvalIdVal a)]
    else GraphResumeAdapter.resume a approval
  else resumeChecked env a approval payload mode

def resume (a : ApprovalId) : Py Dict := do
  match ← getApproval .resumeCheck a with
  | none =>
    pure [("error", .str s!"审批请求 '{env.format (approvalIdVal a)}' 不存在"), ("resumed", .bool false)]
  | some approval =>
    if approval.status ≠ .approved then
      pure [("error", .str s!"审批状态为 {approval.status.value}，无法恢复执行"), ("resumed", .bool false)]
    else if (Dict.get approval.payloadDict "resumed").truthy then
      pure [("already_resumed", .bool true), ("approval_id", approvalIdVal a),
        ("task_id", .str approval.taskId),
        ("resume_result", Dict.get approval.payloadDict "resume_result")]
    else resumeApproved env a approval

end

end ApprovalResumeService

end AgentHarness
