import AgentHarness.ApprovalResume

/-!
# Approvals — the endpoints that decide and resume approvals

`approve` and `reject` read the approval, let the store decide it, and then run the effects of the
decision: traces and audit records, and for a rejection the cancellation of the task and of its
graph checkpoint.  `approve` goes on to resume.  What the store's `decide_approval` returned is all
they know about whether they made the decision.
-/

namespace AgentHarness

open Lib Py

structure DecideRequest where
  decidedBy : String
  reason : String
  autoResume : Bool

def strList (l : List String) : PyVal := .list (l.map .str)

def optTask : Option TaskRow → PyVal
  | some r => .dict [("query", .str r.query), ("mode", .str r.mode), ("status", .str r.status.value),
      ("result", optDict r.result), ("error", optStr r.error)]
  | none => .null

/-- `_cancel_task`. -/
def cancelTask (taskId : String) (a : ApprovalId) (reason : String) : Py PyVal :=
  MonadExcept.tryCatch
    (do
      let row ← updateTaskStatus taskId .cancelled (some
        [("approval_rejected", .bool true), ("approval_id", approvalIdVal a),
          ("decision_reason", .str reason)])
      pure (optTask row))
    (fun _ => pure .null)

/-- `_cancel_graph_checkpoint_if_needed`; `decided` is what `decide_approval` returned. -/
def cancelGraphCheckpointIfNeeded (decided : Dict) (reason : String) : Py Unit := do
  let payload := (Dict.get decided "payload").or (.dict [])
  let checkpointId ← Prog.ofExcept (payload.get "checkpoint_id")
  let mode ← Prog.ofExcept (payload.get "mode")
  if !mode.pyEq (.str "graph_keyword") ∨ !checkpointId.truthy then pure ()
  else
    MonadExcept.tryCatch (do let _ ← markCancelled checkpointId reason; pure ()) (fun _ => pure ())

section

variable (env : Env)

def approvalMissing (a : ApprovalId) : Dict :=
  [("error", .str s!"审批请求 '{env.format (approvalIdVal a)}' 不存在")]

/-- A payload in which the guard finds an injection is not resumed. -/
def resumeUnblocked (a : ApprovalId) : Py Dict := do
  match ← getApproval .request a with
  | none => pure (approvalMissing env a ++ [("resumed", .bool false)])
  | some approval => do
    let finding := env.checkPayload approval.payloadDict
    if finding.action = "block" then do
      recordTrace "resume_blocked_by_policy" approval.taskId
        [("approval_id", approvalIdVal a), ("severity", .str finding.severity),
          ("reason", .str finding.reason), ("matched_patterns", strList finding.matchedPatterns)]
      recordAudit [("event_type", .str "resume_blocked_by_policy"), ("task_id", .str approval.taskId),
        ("approval_id", approvalIdVal a), ("action", .str "resume"), ("outcome", .str "blocked"),
        ("severity", .str finding.severity), ("reason", .str finding.reason),
        ("detail", .dict [("matched_patterns", strList finding.matchedPatterns)])]
      pure [("error", .str s!"resume payload 包含注入内容: {finding.reason}"), ("resumed", .bool false),
        ("error_type", .str "prompt_injection_blocked")]
    else ApprovalResumeService.resume env a

/-- `_do_resume`: every exception becomes an error result. -/
def doResume (a : ApprovalId) : Py Dict :=
  MonadExcept.tryCatch (resumeUnblocked env a)
    (fun exc => pure [("error", .str exc.text), ("resumed", .bool false)])

/-- `_do_resume(approval_id) if req.auto_resume else None`. -/
def autoResume (a : ApprovalId) (req : DecideRequest) : Py PyVal :=
  if req.autoResume then do
    let result ← doResume env a
    pure (.dict result)
  else pure .null

/-- The check of the reason that accompanies an approval; it only records. -/
def checkApproveReason (a : ApprovalId) (previous : ApprovalRow) (req : DecideRequest) : Py Unit :=
  if req.reason = "" then pure ()
  else
    let finding := env.checkText req.reason
    if !finding.detected then pure ()
    else do
      recordTrace "prompt_injection_detected" previous.taskId
        [("approval_id", approvalIdVal a), ("source", .str "approve_reason"),
          ("severity", .str finding.severity), ("reason", .str finding.reason),
          ("matched_patterns", strList finding.matchedPatterns), ("action", .str finding.action)]
      recordAudit [("event_type", .str "prompt_injection_detected"), ("task_id", .str previous.taskId),
        ("approval_id", approvalIdVal a), ("actor", .str req.decidedBy), ("action", .str "approve_reason"),
        ("outcome", .str "warn"), ("severity", .str finding.severity), ("reason", .str finding.reason),
        ("detail", .dict [("matched_patterns", strList finding.matchedPatterns),
          ("source", .str "approve_reason")])]

/-- What an endpoint records when the store reports an earlier decision. -/
def recordIgnored (a : ApprovalId) (previous : ApprovalRow) (attempted : String)
    (req : DecideRequest) : Py Unit :=
  recordTrace "approval_decision_ignored" previous.taskId
    [("approval_id", approvalIdVal a), ("previous_status", .str previous.status.value),
      ("attempted_action", .str attempted), ("decided_by", .str req.decidedBy)]

/-- `result.get(k)` where `decide_approval` may have returned `None`. -/
def resultOf : Option Dict → Except PyExc Dict
  | some d => .ok d
  | none => .error (.attributeError "'NoneType' object has no attribute 'get'")

def textOf : PyVal → String
  | .str s => s
  | _ => ""

/-- The trace and the audit record of a decision; `status` is the new status, `action` its verb. -/
def recordDecision (a : ApprovalId) (previous : ApprovalRow) (taskId status action : String)
    (req : DecideRequest) : Py Unit := do
  recordTrace ("approval_" ++ status) taskId
    [("approval_id", approvalIdVal a), ("previous_status", .str previous.status.value),
      ("new_status", .str status), ("decided_by", .str req.decidedBy),
      ("decision_reason", .str req.reason)]
  recordAudit [("event_type", .str ("approval_" ++ status)), ("task_id", .str taskId),
    ("approval_id", approvalIdVal a), ("actor", .str req.decidedBy), ("action", .str action),
    ("outcome", .str status), ("reason", .str req.reason),
    ("detail", .dict [("previous_status", .str previous.status.value)])]

/-- `approve_approval` from `decide_approval` on. -/
def approvePending (backend : Backend) (a : ApprovalId) (previous : ApprovalRow)
    (req : DecideRequest) : Py Dict := do
  let decided ← decideApproval backend a true req.decidedBy req.reason
  let result ← Prog.ofExcept (resultOf decided)
  if (Dict.get result "already_decided").truthy then do
    recordIgnored a previous "approve" req
    pure result
  else do
    recordDecision a previous (textOf (Dict.getD result "task_id" (.str ""))) "approved" "approve" req
    let resumeResult ← autoResume env a req
    pure (result.set "resume_result" resumeResult)

/-- `approve_approval`. -/
def approve (backend : Backend) (a : ApprovalId) (req : DecideRequest) : Py Dict := do
  match ← getApproval .request a with
  | none => pure (approvalMissing env a)
  | some previous => do
    let payload := previous.payloadDict
    checkApproveReason env a previous req
    if (Dict.get payload "resumed").truthy then
      pure [("status", .str previous.status.value), ("approval_id", approvalIdVal a),
        ("already_resumed", .bool true), ("resume_result", Dict.get payload "resume_result")]
    else if previous.status = .approved then do
      let resumeResult ← autoResume env a req
      pure [("status", .str "approved"), ("approval_id", approvalIdVal a),
        ("already_decided", .bool true), ("resume_result", resumeResult)]
    else approvePending env backend a previous req

/-- The task of a rejected approval and its graph checkpoint are cancelled. -/
def cancelEffects (a : ApprovalId) (result : Dict) (taskId : String) (req : DecideRequest) : Py PyVal :=
  if taskId = "" then pure .null
  else do
    let cancellation ← cancelTask taskId a req.reason
    cancelGraphCheckpointIfNeeded result req.reason
    recordTrace "task_cancelled_by_approval" taskId
      [("approval_id", approvalIdVal a), ("decided_by", .str req.decidedBy),
        ("decision_reason", .str req.reason)]
    pure cancellation

/-- `reject_approval` after the decision. -/
def cancelRejected (a : ApprovalId) (result : Dict) (req : DecideRequest) : Py Dict := do
  let cancellation ← cancelEffects a result (textOf (Dict.getD result "task_id" (.str ""))) req
  pure (result.set "cancellation_result" cancellation)

/-- `reject_approval`. -/
def reject (backend : Backend) (a : ApprovalId) (req : DecideRequest) : Py Dict := do
  match ← getApproval .request a with
  | none => pure (approvalMissing env a)
  | some previous => do
    let decided ← decideApproval backend a false req.decidedBy req.reason
    let result ← Prog.ofExcept (resultOf decided)
    if (Dict.get result "already_decided").truthy then do
      recordIgnored a previous "reject" req
      pure result
    else do
      recordDecision a previous (textOf (Dict.getD result "task_id" (.str ""))) "rejected" "reject" req
      cancelRejected a result req

/-- `manual_resume_approval` of the approvals console. -/
def manualResumeApproval (a : ApprovalId) : Py Dict := do
  match ← getApproval .request a with
  | none => pure (approvalMissing env a)
  | some approval =>
    if approval.status ≠ .approved then
      pure [("error", .str s!"审批状态为 {approval.status.value}，无法恢复执行")]
    else if (Dict.get approval.payloadDict "resumed").truthy then
      pure [("already_resumed", .bool true), ("approval_id", approvalIdVal a),
        ("resume_result", Dict.get approval.payloadDict "resume_result")]
    else do
      let result ← doResume env a
      pure [("approval_id", approvalIdVal a), ("resume_result", .dict result)]

end

end AgentHarness
