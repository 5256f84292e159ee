import AgentHarness.Lib.Interleave
import AgentHarness.Policy
import AgentHarness.Gateway

/-!
# Ops — the atomic operations of the service, and what they do to the stores

An operation is one SQL statement, one gateway call, one policy evaluation, one trace or audit
record, or one reading of the clock.  The code of a request is a program over these operations, so
two requests interleave between any two of them.  `dbExec` is the effect of an operation when no
store fails; `faultyExec` lets a store operation raise, before or after it took effect.

The tables are the rows of one database; approvals are addressed by position (`ApprovalId`),
checkpoints by their `checkpoint_id` column.
-/

namespace AgentHarness

open Lib

/-- Which reading of an approval row this is; only a label. -/
inductive ReadSite where
  /-- at the top of an endpoint or of `_do_resume` -/
  | request
  /-- the check at the top of `ApprovalResumeService.resume` -/
  | resumeCheck
  /-- inside `decide_approval`, `update_payload` or after them -/
  | store
  deriving DecidableEq, Repr

/-- From where the gateway is called; only a label. -/
inductive CallSite where
  /-- `AgentKernel._execute` -/
  | keyword
  /-- `GraphRuntimeAdapter.run_keyword` -/
  | graphKeyword
  /-- `ExecutorAgent._execute_keyword` -/
  | executor
  /-- a step of `MultiToolPipeline.run` -/
  | pipelineStep (stepId : String)
  /-- the approved tool of an approval, called by its resume -/
  | approved (a : ApprovalId) (stepId : PyVal)
  /-- a later step executed by a resume -/
  | subsequent (a : ApprovalId) (stepId : PyVal)
  /-- `GraphResumeAdapter.resume` -/
  | graphResume (a : ApprovalId) (checkpointId : PyVal)

/-- The arguments of `NL2SQLPipeline.run`. -/
structure Nl2sqlRequest where
  query : String
  generator : String
  provider : Option String
  fallbackToMock : Bool

inductive Op where
  | getApproval (site : ReadSite) (a : ApprovalId)
  | insertApproval (row : ApprovalRow)
  /-- `UPDATE approvals SET status = ... WHERE approval_id = ? AND status = 'pending'` -/
  | decidePending (a : ApprovalId) (status : ApprovalStatus) (decidedBy reason : String)
  /-- Postgres: `SELECT ... WHERE approval_id = ? AND status = 'pending'` -/
  | selectPending (a : ApprovalId)
  /-- Postgres: the flushed `UPDATE ... WHERE approval_id = ?` and its commit -/
  | commitDecision (a : ApprovalId) (status : ApprovalStatus) (decidedBy reason : String)
  | setPayload (a : ApprovalId) (payload : Dict)
  | getTask (taskId : String)
  | setTask (taskId : String) (status : TaskStatus) (result : Option Dict)
  | insertCheckpoint (row : CheckpointRow)
  | getCheckpoint (c : PyVal)
  | markPendingInterrupt (c : String) (a : ApprovalId) (payload : Dict) (graphState : Dict)
  | claimForResume (c : PyVal) (a : ApprovalId) (now : Nat)
  | markResumed (c : PyVal) (resumePayload resultSnapshot : Dict)
  | markCancelled (c : PyVal) (reason : String)
  | expireOld (now : Nat)
  | now
  | uuid
  | getTool (tool : String)
  | evaluate (tool : String) (risk : RiskLevel)
  | gatewayCall (site : CallSite) (tool args : PyVal)
  | nl2sql (req : Nl2sqlRequest)
  | trace (eventType taskId : String) (detail : Dict)
  | audit (fields : Dict)
  /-- an execution mode is entered; only a label -/
  | enterMode (mode : String)
  /-- `HookPipeline.run`; the answer is the payload the hooks leave -/
  | hook (stage : String) (payload : Dict)

@[reducible] def Ans : Op → Type
  | .getApproval _ _ => Option ApprovalRow
  | .insertApproval _ => ApprovalId
  | .decidePending _ _ _ _ => Unit
  | .selectPending _ => Bool
  | .commitDecision _ _ _ _ => Unit
  | .setPayload _ _ => Unit
  | .getTask _ => Option TaskRow
  | .setTask _ _ _ => Unit
  | .insertCheckpoint _ => Unit
  | .getCheckpoint _ => Option CheckpointRow
  | .markPendingInterrupt _ _ _ _ => Unit
  | .claimForResume _ _ _ => Nat
  | .markResumed _ _ _ => Unit
  | .markCancelled _ _ => Unit
  | .expireOld _ => Nat
  | .now => Nat
  | .uuid => String
  | .getTool _ => Option ToolSpec
  | .evaluate _ _ => Decision
  | .gatewayCall _ _ _ => ToolCallRecord
  | .nl2sql _ => Dict
  | .trace _ _ _ => Unit
  | .audit _ => Unit
  | .enterMode _ => Unit
  | .hook _ _ => Dict

/-- The code of a request. -/
abbrev Py := Prog Op Ans PyExc

/-- One entry of the log. -/
abbrev Event := Ev Op Ans PyExc

structure Db where
  approvals : List ApprovalRow
  tasks : String → Option TaskRow
  checkpoints : List CheckpointRow

abbrev World := Logged Op Ans PyExc Db

/-- A tool call that reached the gateway with usable arguments. -/
structure Call where
  tool : String
  args : Dict

/-- What the modelled code takes from outside: the registered tools and what they do, the policy
engine, the wiring of the optional stores, the injection guard, the NL2SQL pipeline, the clock, and
Python's attribute access and `str()` on values that are not dicts. -/
structure Env where
  gateway : ToolGateway
  /-- what attempt `n` of a call does, after the calls made before it -/
  tool : List Call → Call → Nat → ToolOutcome × CallMeta
  policyEngine : Option (String → Option RiskLevel → Decision)
  kernelApprovalStore : Bool
  pipelineApprovalStore : Bool
  adapterApprovalStore : Bool
  checkPayload : Dict → InjectionFinding
  checkText : String → InjectionFinding
  /-- run `n` of the NL2SQL pipeline -/
  nl2sql : Nat → Nl2sqlRequest → Except PyExc Dict
  hook : Nat → String → Dict → Dict
  clock : Nat → Nat
  /-- the names `ToolGateway.list_tools` gives -/
  toolNames : List String
  /-- `model_dump(mode="json")` of a record, which fails on values that are not JSON -/
  dumpRecord : ToolCallRecord → Except PyExc Dict
  attr : PyVal → String → Option PyVal
  recordAttr : ToolCallRecord → String → Option PyVal
  /-- `str(v)` of a value that is not a string -/
  fmt : PyVal → String

/-- `f"{v}"`. -/
def Env.format (env : Env) : PyVal → String
  | .str s => s
  | v => env.fmt v

/-! ## Statements on the tables -/

/-- `UPDATE ... WHERE checkpoint_id = ?`, for a bound parameter of any JSON type. -/
def bindText : PyVal → Except PyExc (Option String)
  | .str s => .ok (some s)
  | .null => .ok none
  | .bool b => .ok (some (if b then "1" else "0"))
  | .int i => .ok (some (toString i))
  | .float q => .ok (some (toString q))
  | _ => .error (.typeError "Error binding parameter")

def updateCheckpoints (p : CheckpointRow → Bool) (f : CheckpointRow → CheckpointRow) (db : Db) : Db :=
  { db with checkpoints := db.checkpoints.map fun r => if p r then f r else r }

def hasId (c : String) (r : CheckpointRow) : Bool := r.checkpointId == c

/-- `expires_at IS NULL OR expires_at > ?`. -/
def notExpired (now : Nat) (r : CheckpointRow) : Bool :=
  match r.expiresAt with
  | none => true
  | some e => now < e

/-- The `WHERE` clause of `claim_for_resume`. -/
def claimable (c : String) (a : ApprovalId) (now : Nat) (r : CheckpointRow) : Bool :=
  hasId c r && r.approvalId == some a && !r.consumed && r.status == .interrupted && notExpired now r

/-- The `WHERE` clause of `expire_old`. -/
def expirable (now : Nat) (r : CheckpointRow) : Bool :=
  !r.consumed && match r.expiresAt with
    | none => false
    | some e => e ≤ now

/-- `mark_pending_interrupt` on a row. -/
def interruptRow (a : ApprovalId) (payload graphState : Dict) (r : CheckpointRow) : CheckpointRow :=
  { r with
    approvalId := some a, pendingInterrupt := some payload, status := .interrupted,
    graphState := graphState }

/-- `claim_for_resume` on a row. -/
def claimRow (r : CheckpointRow) : CheckpointRow :=
  { r with status := .resuming, resumeAttemptCount := r.resumeAttemptCount + 1 }

/-- `mark_resumed` on a row. -/
def resumedRow (resumePayload resultSnapshot : Dict) (r : CheckpointRow) : CheckpointRow :=
  { r with
    status := .resumed, consumed := true, resumePayload := some resumePayload,
    resultSnapshot := some resultSnapshot }

/-- `mark_cancelled` on a row. -/
def cancelledRow (reason : String) (r : CheckpointRow) : CheckpointRow :=
  { r with status := .cancelled, consumed := true, lastResumeError := some reason }

/-- `expire_old` on a row. -/
def expiredRow (r : CheckpointRow) : CheckpointRow := { r with status := .expired, consumed := true }

def updateApproval (a : ApprovalId) (f : ApprovalRow → ApprovalRow) (db : Db) : Db :=
  { db with approvals := db.approvals.modify a f }

def updateTask (t : String) (f : TaskRow → TaskRow) (db : Db) : Db :=
  { db with tasks := Function.update db.tasks t ((db.tasks t).map f) }

def decideRow (status : ApprovalStatus) (decidedBy reason : String) (r : ApprovalRow) : ApprovalRow :=
  { r with status := status, decidedBy := some decidedBy, decisionReason := some reason }

/-- The call of an event, when the gateway was given a tool name and a dict. -/
def callOf (e : Event) : Option Call :=
  match e.op with
  | .gatewayCall _ (.str tool) args =>
    match args.or (.dict []) with
    | .dict d => some ⟨tool, d⟩
    | _ => none
  | _ => none

/-- The tool calls of a log, in order. -/
def callsOf (log : List Event) : List Call := log.filterMap callOf

/-- How often the NL2SQL pipeline was run. -/
def nl2sqlRuns (log : List Event) : Nat :=
  log.countP fun e => match e.op with
    | .nl2sql _ => true
    | _ => false

/-- `ToolGateway.call` on the values the caller passes: a name that is not a string, or arguments
that are not a dict, do not make a record. -/
def gatewayAnswer (env : Env) (calls : List Call) (tool args : PyVal) : Except PyExc ToolCallRecord :=
  match tool, args.or (.dict []) with
  | .str name, .dict d => .ok (env.gateway.call (env.tool calls ⟨name, d⟩) name d)
  | .list _, _ => .error (.typeError "unhashable type: 'list'")
  | .dict _, _ => .error (.typeError "unhashable type: 'dict'")
  | _, _ => .error (.validationError "validation error for ToolCallRecord")

/-- `UPDATE` of the checkpoint named by a bound parameter. -/
def withBound (c : PyVal) (db : Db) (f : String → Db) : Except PyExc Unit × Db :=
  match bindText c with
  | .error e => (.error e, db)
  | .ok none => (.ok (), db)
  | .ok (some s) => (.ok (), f s)

/-- One operation, answered from the tables and the environment. -/
def dbExec (env : Env) (log : List Event) (_t : Nat) : (o : Op) → Db → Except PyExc (Ans o) × Db
  | .getApproval _ a, db => (.ok db.approvals[a]?, db)
  | .insertApproval row, db =>
    (.ok db.approvals.length, { db with approvals := db.approvals ++ [row] })
  | .decidePending a st d r, db =>
    (.ok (), updateApproval a (fun row => if row.status = .pending then decideRow st d r row else row) db)
  | .selectPending a, db => (.ok (db.approvals[a]?.any fun row => row.status = .pending), db)
  | .commitDecision a st d r, db => (.ok (), updateApproval a (decideRow st d r) db)
  | .setPayload a p, db => (.ok (), updateApproval a (fun row => { row with payload := some p }) db)
  | .getTask t, db => (.ok (db.tasks t), db)
  | .setTask t st res, db =>
    (.ok (), updateTask t (fun row => { row with status := st, result := res }) db)
  | .insertCheckpoint row, db =>
    if db.checkpoints.any (hasId row.checkpointId) then
      (.error (.valueError s!"{row.checkpointId} already exists"), db)
    else (.ok (), { db with checkpoints := db.checkpoints ++ [row] })
  | .getCheckpoint c, db =>
    match bindText c with
    | .error e => (.error e, db)
    | .ok none => (.ok none, db)
    | .ok (some s) => (.ok (db.checkpoints.find? (hasId s)), db)
  | .markPendingInterrupt c a p g, db =>
    (.ok (), updateCheckpoints (hasId c) (interruptRow a p g) db)
  | .claimForResume c a now, db =>
    match bindText c with
    | .error e => (.error e, db)
    | .ok none => (.ok 0, db)
    | .ok (some s) =>
      (.ok (db.checkpoints.countP (claimable s a now)), updateCheckpoints (claimable s a now) claimRow db)
  | .markResumed c p res, db =>
    withBound c db fun s => updateCheckpoints (hasId s) (resumedRow p res) db
  | .markCancelled c reason, db =>
    withBound c db fun s => updateCheckpoints (hasId s) (cancelledRow reason) db
  | .expireOld now, db =>
    (.ok (db.checkpoints.countP (expirable now)), updateCheckpoints (expirable now) expiredRow db)
  | .now, db => (.ok (env.clock log.length), db)
  | .uuid, db => (.ok (Nat.repr log.length), db)
  | .getTool tool, db => (.ok (env.gateway.registry tool), db)
  | .evaluate tool risk, db =>
    match env.policyEngine with
    | none => (.error (.attributeError "'NoneType' object has no attribute 'evaluate'"), db)
    | some e => (.ok (e tool (some risk)), db)
  | .gatewayCall _ tool args, db => (gatewayAnswer env (callsOf log) tool args, db)
  | .nl2sql req, db => (env.nl2sql (nl2sqlRuns log) req, db)
  | .trace _ _ _, db => (.ok (), db)
  | .audit _, db => (.ok (), db)
  | .enterMode _, db => (.ok (), db)
  | .hook stage payload, db => (.ok (env.hook log.length stage payload), db)

/-- One logged operation. -/
def exec (env : Env) : Nat → (o : Op) → World → Except PyExc (Ans o) × World :=
  Logged.exec (dbExec env)

/-- The state after one logged operation. -/
@[simp] theorem exec_db (env : Env) (t : Nat) (o : Op) (w : World) :
    (exec env t o w).2.db = (dbExec env w.log t o w.db).2 := rfl

@[simp] theorem exec_log (env : Env) (t : Nat) (o : Op) (w : World) :
    (exec env t o w).2.log = w.log ++ [⟨t, o, (exec env t o w).1⟩] := rfl

@[simp] theorem exec_ans (env : Env) (t : Nat) (o : Op) (w : World) :
    (exec env t o w).1 = (dbExec env w.log t o w.db).1 := rfl

/-! ## Faults -/

/-- The operations of `approval_store` and `task_store`. -/
def Op.isStore : Op → Bool
  | .getApproval _ _ | .insertApproval _ | .decidePending _ _ _ _ | .selectPending _
  | .commitDecision _ _ _ _ | .setPayload _ _ | .getTask _ | .setTask _ _ _ => true
  | _ => false

/-- What may go wrong with one store operation. -/
inductive Fault where
  | none
  /-- it raises without an effect -/
  | before
  /-- it raises although it took effect -/
  | after
  deriving DecidableEq, Repr

/-- `dbExec` where the `n`-th operation of the run fails as `faults n` says, if it is a store's. -/
def faultyDbExec (env : Env) (faults : Nat → Fault) (log : List Event) (t : Nat) (o : Op) (db : Db) :
    Except PyExc (Ans o) × Db :=
  if o.isStore then
    match faults log.length with
    | .none => dbExec env log t o db
    | .before => (.error (.storeError "store operation failed"), db)
    | .after => (.error (.storeError "store operation failed"), (dbExec env log t o db).2)
  else dbExec env log t o db

def faultyExec (env : Env) (faults : Nat → Fault) :
    Nat → (o : Op) → World → Except PyExc (Ans o) × World :=
  Logged.exec (faultyDbExec env faults)

/-! ## Operations as program steps -/

namespace Py

/-- Perform one operation. -/
abbrev perform (o : Op) : Py (Ans o) := Prog.call o

abbrev getApproval (site : ReadSite) (a : ApprovalId) : Py (Option ApprovalRow) :=
  perform (.getApproval site a)

abbrev insertApproval (row : ApprovalRow) : Py ApprovalId := perform (.insertApproval row)

abbrev setPayload (a : ApprovalId) (p : Dict) : Py Unit := perform (.setPayload a p)

abbrev getTask (t : String) : Py (Option TaskRow) := perform (.getTask t)

abbrev setTask (t : String) (st : TaskStatus) (r : Option Dict) : Py Unit := perform (.setTask t st r)

abbrev getCheckpoint (c : PyVal) : Py (Option CheckpointRow) := perform (.getCheckpoint c)

abbrev now : Py Nat := perform .now

abbrev uuid : Py String := perform .uuid

abbrev getTool (tool : String) : Py (Option ToolSpec) := perform (.getTool tool)

abbrev evaluate (tool : String) (r : RiskLevel) : Py Decision := perform (.evaluate tool r)

abbrev gatewayCall (site : CallSite) (tool args : PyVal) : Py ToolCallRecord :=
  perform (.gatewayCall site tool args)

abbrev trace (eventType taskId : String) (detail : Dict) : Py Unit :=
  perform (.trace eventType taskId detail)

abbrev audit (fields : Dict) : Py Unit := perform (.audit fields)

/-- `_trace` of the services: only with a task id. -/
def traceTask (eventType taskId : String) (detail : Dict) : Py Unit :=
  if taskId ≠ "" then trace eventType taskId detail else pure ()

/-- A trace whose failure the caller ignores. -/
def recordTrace (eventType taskId : String) (detail : Dict) : Py Unit :=
  MonadExcept.tryCatch (trace eventType taskId detail) (fun _ => pure ())

/-- An audit record; every caller ignores a failure. -/
def recordAudit (fields : Dict) : Py Unit :=
  MonadExcept.tryCatch (audit fields) (fun _ => pure ())

abbrev runNl2sql (req : Nl2sqlRequest) : Py Dict := perform (.nl2sql req)

abbrev enterMode (mode : String) : Py Unit := perform (.enterMode mode)

abbrev hook (stage : String) (payload : Dict) : Py Dict := perform (.hook stage payload)

end Py

end AgentHarness
