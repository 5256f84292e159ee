import AgentHarness.Ops

/-!
# Stores — the methods of the approval, task and checkpoint stores

Each method is the sequence of statements it sends; the statements of one method do not form a
transaction.  `decideApproval` and `updatePayload` read first and write later, so what they read
may be stale when they write.
-/

namespace AgentHarness

open Lib Py

/-- The two store implementations. -/
inductive Backend where
  | sqlite
  | postgres
  deriving DecidableEq, Repr

/-! ## Approval store -/

/-- `_row_to_dict`. -/
def ApprovalRow.toDict (a : ApprovalId) (r : ApprovalRow) : Dict :=
  [("approval_id", approvalIdVal a), ("task_id", .str r.taskId), ("tool_name", .str r.toolName),
    ("action", .str r.action), ("risk_level", .str r.riskLevel.value),
    ("impact_scope", .str r.impactScope), ("agent_reason", .str r.agentReason),
    ("status", .str r.status.value), ("decided_by", optStr r.decidedBy),
    ("decision_reason", optStr r.decisionReason),
    ("payload", match r.payload with
      | some p => .dict p
      | none => .null)]

/-- An empty payload is stored as no payload. -/
def storedPayload (payload : Dict) : Option Dict :=
  if payload.isEmpty then none else some payload.jsonable

def createApproval (taskId toolName action : String) (riskLevel : RiskLevel)
    (impactScope agentReason : String) (payload : Dict) : Py ApprovalId :=
  insertApproval ⟨taskId, toolName, action, riskLevel, impactScope, agentReason, .pending, none, none,
    storedPayload payload⟩

/-- What `decide_approval` adds to a row that is not pending. -/
def alreadyDecided (a : ApprovalId) (r : ApprovalRow) : Dict :=
  r.toDict a ++ [("already_decided", .bool true),
    ("decision_error", .str s!"审批已决策，当前状态为 {r.status.value}")]

def decidedStatus (approved : Bool) : ApprovalStatus := if approved then .approved else .rejected

/-- `SQLiteApprovalStore.decide_approval`: the row count of the conditional update is not read. -/
def decideApprovalSqlite (a : ApprovalId) (approved : Bool) (decidedBy reason : String) :
    Py (Option Dict) := do
  match ← getApproval .store a with
  | none => pure none
  | some current =>
    if current.status ≠ .pending then pure (some (alreadyDecided a current))
    else do
      perform (.decidePending a (decidedStatus approved) decidedBy reason)
      let row ← getApproval .store a
      pure (row.map (·.toDict a))

/-- `PostgresApprovalStore.decide_approval`: a second query looks for a pending row, and the update
flushed by the commit names the row by its key only. -/
def decideApprovalPostgres (a : ApprovalId) (approved : Bool) (decidedBy reason : String) :
    Py (Option Dict) := do
  match ← getApproval .store a with
  | none => pure none
  | some current =>
    if current.status ≠ .pending then pure (some (alreadyDecided a current))
    else do
      let found ← perform (.selectPending a)
      if !found then pure none
      else do
        perform (.commitDecision a (decidedStatus approved) decidedBy reason)
        let row ← getApproval .store a
        pure (row.map (·.toDict a))

def decideApproval : Backend → ApprovalId → Bool → String → String → Py (Option Dict)
  | .sqlite => decideApprovalSqlite
  | .postgres => decideApprovalPostgres

/-- `update_payload`: the merged payload of an earlier reading is written back. -/
def updatePayload (a : ApprovalId) (payloadUpdate : Dict) : Py (Option ApprovalRow) := do
  match ← getApproval .store a with
  | none => pure none
  | some current => do
    setPayload a (current.payloadDict.update payloadUpdate).jsonable
    getApproval .store a

/-! ## Task store -/

/-- The result column after `update_task_status`. -/
def mergedResult (row : TaskRow) : Option Dict → Option Dict
  | some r => some ((row.result.getD []).update r).jsonable
  | none => match row.result with
    | some [] => none
    | x => x

/-- A task that has no row is left alone. -/
def updateTaskStatus (taskId : String) (status : TaskStatus) (result : Option Dict) :
    Py (Option TaskRow) := do
  match ← getTask taskId with
  | none => pure none
  | some existing => do
    setTask taskId status (mergedResult existing result)
    getTask taskId

/-! ## Graph checkpoint store -/

/-- The inserted row is read back, and must be there. -/
def createCheckpoint (row : CheckpointRow) : Py CheckpointRow := do
  perform (.insertCheckpoint { row with graphState := row.graphState.jsonable })
  match ← getCheckpoint (.str row.checkpointId) with
  | none => .raise .assertionError
  | some loaded => pure loaded

def markPendingInterrupt (c : String) (a : ApprovalId) (payload graphState : Dict) :
    Py (Option CheckpointRow) := do
  perform (.markPendingInterrupt c a payload.jsonable graphState.jsonable)
  getCheckpoint (.str c)

/-- The compare-and-set a resume starts with: `none` unless exactly one row changed. -/
def claimForResume (c : PyVal) (a : ApprovalId) : Py (Option CheckpointRow) := do
  let t ← now
  let changed ← perform (.claimForResume c a t)
  if changed ≠ 1 then pure none else getCheckpoint c

def markResumed (c : PyVal) (resumePayload resultSnapshot : Dict) : Py (Option CheckpointRow) := do
  perform (.markResumed c resumePayload.jsonable resultSnapshot.jsonable)
  getCheckpoint c

def markCancelled (c : PyVal) (reason : String) : Py (Option CheckpointRow) := do
  perform (.markCancelled c reason)
  getCheckpoint c

def expireOld (now : Nat) : Py Nat := perform (.expireOld now)

/-! ## What the methods do -/

section Uses

variable {P : Op → Prop}

theorem updateTaskStatus_uses {t : String} {st : TaskStatus} {r : Option Dict}
    (hg : P (.getTask t)) (hs : ∀ r, P (.setTask t st r)) : (updateTaskStatus t st r).Uses P := by
  unfold updateTaskStatus
  refine Prog.uses_call_bind.mpr ⟨hg, fun row => ?_⟩
  cases row with
  | none => trivial
  | some row => exact Prog.uses_call_bind.mpr ⟨hs _, fun _ => Prog.uses_call.mpr hg⟩

theorem updatePayload_uses {a : ApprovalId} {u : Dict} (hg : P (.getApproval .store a))
    (hs : ∀ p, P (.setPayload a p)) : (updatePayload a u).Uses P := by
  unfold updatePayload
  refine Prog.uses_call_bind.mpr ⟨hg, fun row => ?_⟩
  cases row with
  | none => trivial
  | some row => exact Prog.uses_call_bind.mpr ⟨hs _, fun _ => Prog.uses_call.mpr hg⟩

end Uses

end AgentHarness
