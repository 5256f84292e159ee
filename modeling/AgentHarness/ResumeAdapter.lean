import AgentHarness.Stores

/-!
# ResumeAdapter — `GraphResumeAdapter`

Resuming a `graph_keyword` approval starts with the compare-and-set `claimForResume`; only the
request whose claim changed the row calls the tool.  The tool name is looked for in the interrupt
payload first, then in the approval payload, then in the approval record.
-/

namespace AgentHarness

open Lib Py

def optDict : Option Dict → PyVal
  | some d => .dict d
  | none => .null

namespace GraphResumeAdapter

/-- `error` of the result: the exception text, else the record's error. -/
def resultError (record : Option ToolCallRecord) (error : Option String) : PyVal :=
  (optStr error).or ((record.map ToolCallRecord.error).getD .null)

def succeeded (record : Option ToolCallRecord) (error : Option String) : Bool :=
  (record.any ToolCallRecord.success) && !(optStr error).truthy

def buildResult (a : ApprovalId) (checkpointId toolName : PyVal) (record : Option ToolCallRecord)
    (error errorType : Option String) : Dict :=
  let success := succeeded record error
  [("mode", .str "graph_keyword"), ("graph_resumed", .bool true), ("resumed_from_approval", .bool true),
    ("approval_id", approvalIdVal a), ("checkpoint_id", checkpointId), ("tool_called", toolName),
    ("data", (record.map ToolCallRecord.result).getD .null), ("success", .bool success),
    ("approved_step_executed", .bool record.isSome), ("approval_consumed", .bool true),
    ("resume_status", .str (if success then "completed" else "failed"))] ++
  if (resultError record error).truthy then
    [("error", resultError record error),
      ("error_type", (optStr errorType).or (.str "tool_call_failed"))]
  else []

def handleClaimFailed (a : ApprovalId) (checkpointId : PyVal) : Py Dict := do
  let failed := fun (error errorType : String) =>
    [("resumed", PyVal.bool false), ("approval_id", approvalIdVal a), ("checkpoint_id", checkpointId),
      ("error", .str error), ("error_type", .str errorType)]
  match ← getCheckpoint checkpointId with
  | none => pure (failed "checkpoint claim failed" "checkpoint_claim_failed")
  | some row =>
    if row.consumed ∧ (row.status = .resumed ∨ row.status = .completed) then
      pure [("already_resumed", .bool true), ("approval_id", approvalIdVal a),
        ("checkpoint_id", checkpointId), ("resume_result", optDict row.resultSnapshot)]
    else if row.status = .cancelled ∨ row.status = .expired then
      pure (failed s!"checkpoint {row.status.value}" s!"checkpoint_{row.status.value}")
    else pure (failed "checkpoint claim failed" "checkpoint_claim_failed")

/-- The tool name the adapter calls. -/
def toolNameOf (interrupt : PyVal) (payload : Dict) (approvalToolName : String) :
    Except PyExc PyVal := do
  return (← interrupt.get "tool_name").or
    ((Dict.get payload "tool_name").or (.str approvalToolName))

def argumentsOf (interrupt : PyVal) (payload : Dict) : Except PyExc PyVal := do
  return (← interrupt.get "arguments").or ((Dict.get payload "arguments").or (.dict []))

/-- The interrupt payload: the approval's own, else the checkpoint's. -/
def interruptOf (payload : Dict) (claimed : CheckpointRow) : PyVal :=
  (Dict.get payload "interrupt_payload").or ((optDict claimed.pendingInterrupt).or (.dict []))

/-- The tool call; an exception becomes a failed result. -/
def callTool (a : ApprovalId) (checkpointId toolName arguments : PyVal) : Py Dict :=
  MonadExcept.tryCatch
    (do
      let record ← gatewayCall (.graphResume a checkpointId) toolName arguments
      pure (buildResult a checkpointId toolName (some record) none none))
    (fun exc =>
      pure (buildResult a checkpointId toolName none (some exc.text) (some "tool_call_exception")))

/-- What follows the tool call: the task, the checkpoint, then the approval are updated. -/
def record (a : ApprovalId) (taskId : String) (checkpointId toolName : PyVal)
    (resumeResult : Dict) : Py Dict := do
  let taskStatus :=
    if (Dict.get resumeResult "success").truthy then TaskStatus.completed else .failed
  let _ ← updateTaskStatus taskId taskStatus (some resumeResult)
  let _ ← markResumed checkpointId
    [("decision", .str "approved"), ("approval_id", approvalIdVal a)] resumeResult
  let _ ← updatePayload a
    [("resumed", .bool true), ("resume_status", Dict.get resumeResult "resume_status"),
      ("resume_result", .dict resumeResult), ("approval_consumed", .bool true)]
  recordTrace "graph_resume_completed" taskId
    [("approval_id", approvalIdVal a), ("checkpoint_id", checkpointId), ("tool_name", toolName),
      ("success", Dict.get resumeResult "success")]
  recordAudit [("event_type", .str "graph_resume_completed"), ("task_id", .str taskId),
    ("approval_id", approvalIdVal a), ("tool_name", toolName), ("action", .str "graph_resume"),
    ("outcome", .str (if (Dict.get resumeResult "success").truthy then "success" else "failed")),
    ("detail", .dict [("checkpoint_id", checkpointId),
      ("resume_status", Dict.get resumeResult "resume_status")])]
  pure resumeResult

/-- After a successful claim. -/
def resumeClaimed (a : ApprovalId) (approval : ApprovalRow) (checkpointId : PyVal)
    (claimed : CheckpointRow) : Py Dict := do
  let payload := approval.payloadDict
  let interrupt := interruptOf payload claimed
  let toolName ← Prog.ofExcept (toolNameOf interrupt payload approval.toolName)
  let arguments ← Prog.ofExcept (argumentsOf interrupt payload)
  recordTrace "graph_resume_started" approval.taskId
    [("approval_id", approvalIdVal a), ("checkpoint_id", checkpointId), ("tool_name", toolName)]
  let resumeResult ← callTool a checkpointId toolName arguments
  record a approval.taskId checkpointId toolName resumeResult

def resume (a : ApprovalId) (approval : ApprovalRow) : Py Dict := do
  let payload := approval.payloadDict
  if !(Dict.get payload "mode").pyEq (.str "graph_keyword") then
    pure [("resumed", .bool false), ("approval_id", approvalIdVal a),
      ("error", .str "unsupported graph resume mode"),
      ("error_type", .str "unsupported_graph_resume_mode")]
  else
    let checkpointId := Dict.get payload "checkpoint_id"
    if !checkpointId.truthy then
      pure [("resumed", .bool false), ("approval_id", approvalIdVal a),
        ("error", .str "graph_keyword approval missing checkpoint_id"),
        ("error_type", .str "missing_checkpoint_id")]
    else if (Dict.get payload "resumed").truthy then
      pure [("already_resumed", .bool true), ("approval_id", approvalIdVal a),
        ("checkpoint_id", checkpointId), ("resume_result", Dict.get payload "resume_result")]
    else do
      match ← claimForResume checkpointId a with
      | none => handleClaimFailed a checkpointId
      | some claimed => resumeClaimed a approval checkpointId claimed

end GraphResumeAdapter

end AgentHarness
