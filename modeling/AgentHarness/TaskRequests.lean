import AgentHarness.Requests
import AgentHarness.KernelFootprint
import AgentHarness.Lib.Extend

/-!
# TaskRequests — creating tasks beside the other requests

`create_task` runs the kernel and saves the task only after the run, by one `INSERT OR REPLACE`.  The requests of
this module are those of `Request` and the creation of tasks; their programs are over the operations of `Op` and
`SaveTask`, so a decision may come between the creation of an approval and the save of its task.  Any operation of
the approval and task stores may fail, before or after it took effect.
-/

namespace AgentHarness

open Lib Py

/-- `save_task`: one statement. -/
structure SaveTask where
  task : TaskRun
  mode : String

/-- The row that `save_task` writes; an empty result is stored as none. -/
def SaveTask.row (s : SaveTask) : TaskRow :=
  ⟨s.task.query, s.mode, s.task.status, s.task.result.bind storedPayload, s.task.error⟩

abbrev AppOp := Op ⊕ SaveTask

@[reducible] def SaveAns (_ : SaveTask) : Type := Unit

abbrev AppAns : AppOp → Type := SumAns Ans SaveAns

/-- The code of a request that may also save a task. -/
abbrev App := Prog AppOp AppAns PyExc

abbrev AppEvent := Ev AppOp AppAns PyExc

abbrev AppWorld := Logged AppOp AppAns PyExc Db

/-! ## `create_task` -/

structure CreateTaskRequest where
  query : String
  mode : String
  generator : String
  provider : Option String
  fallbackToMock : Bool

/-- The deployed components, with the kernel and `GuardrailsEngine.check_input`. -/
structure AppService extends Service where
  kernel : AgentKernel
  checkInput : String → Dict

namespace AppService

variable (sv : AppService)

/-- The kernel of the service. -/
def agentKernel : AgentKernel := { sv.kernel with env := sv.env }

/-- `input_guard.get("sanitized_text") or req.query`. -/
def safeQuery (query : String) : String :=
  textOf ((Dict.get (sv.checkInput query) "sanitized_text").or (.str query))

/-- `CreateTaskResponse`. -/
def taskResponse (taskId query : String) (status : TaskStatus) (result : Option Dict) (error persistenceError : PyVal) :
    Dict :=
  [("task_id", .str taskId), ("query", .str query), ("status", .str status.value), ("result", optDict result),
    ("error", error), ("persistence_error", persistenceError)]

/-- The answer to a query in which the guard finds an injection. -/
def blockTask (taskId : String) (req : CreateTaskRequest) (finding : InjectionFinding) : Py Dict := do
  let safe := sv.safeQuery req.query
  trace "prompt_injection_blocked" taskId
    [("query", .str safe), ("severity", .str finding.severity), ("reason", .str finding.reason),
      ("matched_patterns", strList finding.matchedPatterns), ("mode", .str req.mode)]
  recordAudit [("event_type", .str "prompt_injection_blocked"), ("task_id", .str taskId),
    ("action", .str "create_task"), ("outcome", .str "blocked"), ("severity", .str finding.severity),
    ("reason", .str finding.reason),
    ("detail", .dict [("matched_patterns", strList finding.matchedPatterns), ("mode", .str req.mode),
      ("query", .str safe), ("guardrails", .dict (sv.checkInput req.query))])]
  pure (taskResponse taskId safe .failed (some
    [("error_type", .str "prompt_injection_blocked"),
      ("injection_finding", .dict
        [("detected", .bool finding.detected), ("severity", .str finding.severity), ("reason", .str finding.reason),
          ("matched_patterns", strList finding.matchedPatterns), ("action", .str finding.action)]),
      ("guardrails", .dict [("input", .dict (sv.checkInput req.query))])]) .null .null)

/-- The save after the run; its failure is traced and answered. -/
def saveTask (task : TaskRun) (mode : String) : App PyVal :=
  MonadExcept.tryCatch
    (do
      (Prog.call (Sum.inr ⟨task, mode⟩ : AppOp) : App Unit)
      pure .null)
    fun exc => do
      (trace "task_persist_failed" task.taskId [("error", .str exc.text)]).extend SaveAns
      pure (.str exc.text)

/-- `create_task` of the new id `taskId`. -/
def createTask (taskId : String) (req : CreateTaskRequest) : App Dict :=
  let finding := sv.env.checkText req.query
  if finding.action = "block" then (sv.blockTask taskId req finding).extend SaveAns
  else do
    let task ← (sv.agentKernel.runWithOptions req.mode ⟨taskId, sv.safeQuery req.query, .created, none, none⟩
      ⟨req.generator, req.provider, req.fallbackToMock⟩).extend SaveAns
    let persistenceError ← saveTask task req.mode
    pure (taskResponse task.taskId task.query task.status task.result (optStr task.error) persistenceError)

end AppService

/-! ## Any number of requests over one database -/

/-- What a failing store operation leaves of an answer. -/
def Fault.apply {α : Type} (fault : Fault) (db : Db) (answer : Except PyExc α × Db) : Except PyExc α × Db :=
  match fault with
  | .none => answer
  | .before => (.error (.storeError "store operation failed"), db)
  | .after => (.error (.storeError "store operation failed"), answer.2)

/-- The event, if it is one of `Op`. -/
def opEvent : AppEvent → Option Event
  | ⟨t, .inl o, r⟩ => some ⟨t, o, r⟩
  | ⟨_, .inr _, _⟩ => none

/-- An operation of `Op`; the `n`-th of the run fails as `faults n` says, if it is a store's. -/
def opExec (env : Env) (faults : Nat → Fault) (log : List AppEvent) (t : Nat) (o : Op) (db : Db) :
    Except PyExc (Ans o) × Db :=
  let answer := dbExec env (log.filterMap opEvent) t o db
  if o.isStore then (faults log.length).apply db answer else answer

/-- `INSERT OR REPLACE INTO tasks`. -/
def saveExec (faults : Nat → Fault) (log : List AppEvent) (s : SaveTask) (db : Db) : Except PyExc Unit × Db :=
  (faults log.length).apply db
    (.ok (), { db with tasks := Function.update db.tasks s.task.taskId (some s.row) })

def appDbExec (env : Env) (faults : Nat → Fault) (log : List AppEvent) (t : Nat) :
    (x : AppOp) → Db → Except PyExc (AppAns x) × Db
  | .inl o, db => opExec env faults log t o db
  | .inr s, db => saveExec faults log s db

inductive AppRequest where
  | createTask (taskId : String) (req : CreateTaskRequest)
  | serve (r : Request)

/-- The code that serves the request. -/
def AppRequest.code (sv : AppService) : AppRequest → App Dict
  | createTask taskId req => sv.createTask taskId req
  | serve r => (r.code sv.toService).extend SaveAns

/-- Every thread at the start of its request, with an empty log. -/
def AppService.start (sv : AppService) (db : Db) (reqs : Nat → AppRequest) : Conf AppOp AppAns PyExc AppWorld Dict :=
  ⟨⟨db, []⟩, fun t => (reqs t).code sv⟩

/-- The configuration after a schedule. -/
def AppService.run (sv : AppService) (faults : Nat → Fault) (c : Conf AppOp AppAns PyExc AppWorld Dict)
    (sched : List Nat) : Conf AppOp AppAns PyExc AppWorld Dict :=
  c.run (Logged.exec (appDbExec sv.env faults)) sched

/-! ## What one operation does to the approvals -/

/-- The table of approvals after an operation. -/
def Op.approvalsAfter (o : Op) (approvals : List ApprovalRow) : List ApprovalRow :=
  match o with
  | .insertApproval row => approvals ++ [row]
  | .decidePending a st d r =>
    approvals.modify a fun row => if row.status = .pending then decideRow st d r row else row
  | .commitDecision a st d r => approvals.modify a (decideRow st d r)
  | .setPayload a p => approvals.modify a fun row => { row with payload := some p }
  | _ => approvals

/-- Writes the status `st` of `a`. -/
def Op.decides (a : ApprovalId) (st : ApprovalStatus) : Op → Bool
  | .decidePending b st' _ _ | .commitDecision b st' _ _ => b == a && st' == st
  | _ => false

section Tables

variable {env : Env} {faults : Nat → Fault} {log : List AppEvent} {t : Nat} {db : Db} {a : ApprovalId}

theorem dbExec_approvals {events : List Event} {o : Op} :
    (dbExec env events t o db).2.approvals = o.approvalsAfter db.approvals := by
  cases o with
  | claimForResume c b now | insertCheckpoint row | getCheckpoint c | evaluate tool risk =>
    simp only [dbExec]
    split <;> rfl
  | markResumed c p res | markCancelled c reason =>
    simp only [dbExec, withBound]
    split <;> rfl
  | _ => rfl

/-- A row keeps its status unless it is decided, or it is new. -/
theorem status_after {o : Op} {approvals : List ApprovalRow} {row : ApprovalRow}
    (h : (o.approvalsAfter approvals)[a]? = some row) :
    (∃ row', approvals[a]? = some row' ∧ row'.status = row.status) ∨ o.decides a row.status = true ∨
      o = .insertApproval row := by
  have hmodify : ∀ {b : ApprovalId} {f : ApprovalRow → ApprovalRow}, (approvals.modify b f)[a]? = some row →
      approvals[a]? = some row ∨ (b = a ∧ ∃ row', approvals[a]? = some row' ∧ f row' = row) := by
    intro b f hrow
    by_cases hb : b = a
    · subst hb
      rw [List.getElem?_modify_eq] at hrow
      exact .inr ⟨rfl, Option.map_eq_some_iff.mp hrow⟩
    · rw [List.getElem?_modify_ne _ _ hb] at hrow
      exact .inl hrow
  cases o with
  | insertApproval new =>
    rcases Nat.lt_trichotomy a approvals.length with hlt | heq | hgt
    · have hrow : (approvals ++ [new])[a]? = some row := h
      rw [List.getElem?_append_left hlt] at hrow
      exact .inl ⟨row, hrow, rfl⟩
    · have hrow : (approvals ++ [new])[a]? = some row := h
      rw [heq, List.getElem?_concat_length] at hrow
      rw [Option.some.inj hrow]
      exact .inr (.inr rfl)
    · have hrow : (approvals ++ [new])[a]? = some row := h
      rw [List.getElem?_eq_none (by simp; omega)] at hrow
      cases hrow
  | decidePending b st d r =>
    rcases hmodify h with hrow | ⟨rfl, row', hrow, hf⟩
    · exact .inl ⟨row, hrow, rfl⟩
    · split at hf
      · obtain rfl := hf
        exact .inr (.inl (by simp [Op.decides, decideRow]))
      · exact .inl ⟨row', hrow, congrArg ApprovalRow.status hf⟩
  | commitDecision b st d r =>
    rcases hmodify h with hrow | ⟨rfl, row', hrow, rfl⟩
    · exact .inl ⟨row, hrow, rfl⟩
    · exact .inr (.inl (by simp [Op.decides, decideRow]))
  | setPayload b p =>
    rcases hmodify h with hrow | ⟨rfl, row', hrow, rfl⟩
    · exact .inl ⟨row, hrow, rfl⟩
    · exact .inl ⟨row', hrow, rfl⟩
  | _ => exact .inl ⟨row, h, rfl⟩

/-- A decided row keeps its status, but for the update of `PostgresApprovalStore` by key. -/
theorem status_kept {o : Op} {approvals : List ApprovalRow} {row : ApprovalRow}
    (hcommit : ∀ b st d r, o ≠ .commitDecision b st d r) (hrow : approvals[a]? = some row)
    (hdecided : row.status ≠ .pending) :
    ∃ row', (o.approvalsAfter approvals)[a]? = some row' ∧ row'.status = row.status := by
  cases o with
  | insertApproval new =>
    exact ⟨row, (List.getElem?_append_left (List.getElem?_eq_some_iff.mp hrow).1).trans hrow, rfl⟩
  | decidePending b st d r =>
    by_cases hb : b = a
    · subst hb
      refine ⟨row, ?_, rfl⟩
      simp only [Op.approvalsAfter]
      rw [List.getElem?_modify_eq, hrow, Option.map_eq_map, Option.map_some, if_neg hdecided]
    · exact ⟨row, (List.getElem?_modify_ne _ _ hb).trans hrow, rfl⟩
  | commitDecision b st d r => exact absurd rfl (hcommit b st d r)
  | setPayload b p =>
    by_cases hb : b = a
    · subst hb
      refine ⟨{ row with payload := some p }, ?_, rfl⟩
      simp only [Op.approvalsAfter]
      rw [List.getElem?_modify_eq, hrow]
      rfl
    · exact ⟨row, (List.getElem?_modify_ne _ _ hb).trans hrow, rfl⟩
  | _ => exact ⟨row, hrow, rfl⟩

/-- A row keeps its task. -/
theorem taskId_kept {o : Op} {approvals : List ApprovalRow} {row : ApprovalRow} (hrow : approvals[a]? = some row) :
    ∃ row', (o.approvalsAfter approvals)[a]? = some row' ∧ row'.taskId = row.taskId := by
  have hmodify : ∀ (b : ApprovalId) (f : ApprovalRow → ApprovalRow), (∀ r, (f r).taskId = r.taskId) →
      ∃ row', (approvals.modify b f)[a]? = some row' ∧ row'.taskId = row.taskId := by
    intro b f hf
    by_cases hb : b = a
    · subst hb
      refine ⟨f row, ?_, hf row⟩
      rw [List.getElem?_modify_eq, hrow]
      rfl
    · exact ⟨row, (List.getElem?_modify_ne _ _ hb).trans hrow, rfl⟩
  cases o with
  | insertApproval new =>
    exact ⟨row, (List.getElem?_append_left (List.getElem?_eq_some_iff.mp hrow).1).trans hrow, rfl⟩
  | decidePending b st d r =>
    refine hmodify b _ fun r' => ?_
    split <;> rfl
  | commitDecision b st d r => exact hmodify b _ fun _ => rfl
  | setPayload b p => exact hmodify b _ fun _ => rfl
  | _ => exact ⟨row, hrow, rfl⟩

/-- With or without its fault, an operation leaves one of two tables. -/
theorem Fault.apply_db {α : Type} (fault : Fault) (answer : Except PyExc α × Db) :
    (fault.apply db answer).2 = db ∨ (fault.apply db answer).2 = answer.2 := by
  cases fault with
  | none => exact .inr rfl
  | before => exact .inl rfl
  | after => exact .inr rfl

/-- An operation that was answered had its effect. -/
theorem Fault.apply_ok {α : Type} {fault : Fault} {answer : Except PyExc α × Db} {v : α}
    (h : (fault.apply db answer).1 = .ok v) : fault.apply db answer = answer := by
  cases fault with
  | none => rfl
  | before => cases h
  | after => cases h

theorem opExec_db {o : Op} : (opExec env faults log t o db).2 = db ∨
    (opExec env faults log t o db).2 = (dbExec env (log.filterMap opEvent) t o db).2 := by
  unfold opExec
  dsimp only
  split
  · exact Fault.apply_db ..
  · exact .inr rfl

theorem opExec_approvals {o : Op} : (opExec env faults log t o db).2.approvals = db.approvals ∨
    (opExec env faults log t o db).2.approvals = o.approvalsAfter db.approvals := by
  rcases @opExec_db env faults log t db o with h | h
  · exact .inl (congrArg Db.approvals h)
  · exact .inr ((congrArg Db.approvals h).trans dbExec_approvals)

theorem saveExec_approvals {s : SaveTask} : (saveExec faults log s db).2.approvals = db.approvals := by
  unfold saveExec
  cases faults log.length <;> rfl

/-- An answered operation is answered as by the tables. -/
theorem opExec_ok {o : Op} {v : Ans o} (h : (opExec env faults log t o db).1 = .ok v) :
    opExec env faults log t o db = dbExec env (log.filterMap opEvent) t o db := by
  unfold opExec at h ⊢
  dsimp only at h ⊢
  by_cases hstore : o.isStore = true
  · rw [if_pos hstore] at h ⊢
    exact Fault.apply_ok h
  · rw [if_neg hstore]

/-- A reading that was answered gives the row. -/
theorem opExec_getApproval {site : ReadSite} {row : ApprovalRow}
    (h : (opExec env faults log t (.getApproval site a) db).1 = .ok (some row)) : db.approvals[a]? = some row := by
  rw [opExec_ok h] at h
  exact Except.ok.inj h

end Tables

/-! ## The small deployment, with a kernel -/

/-- A plan that matches nothing. -/
def noPlan : MultiToolPlan := ⟨false, "", [], "", ""⟩

/-- Every query is planned as a refund, which needs an approval. -/
def demoApp : AppService where
  toService := demoService
  kernel :=
    { env := demoEnv
      engine := "sequential"
      planner := demoPlanner "refund"
      multitoolPlanner := fun _ => noPlan
      orchestrator := ⟨⟨fun _ => false, fun _ => .error ""⟩, ⟨demoPlanner "refund", fun _ => noPlan⟩,
        fun _ => ⟨false, "", []⟩⟩
      graphAdapter := none }
  checkInput _ := []

def demoTaskRequest : AppRequest := .createTask "t" ⟨"q", "keyword", "mock", none, true⟩

/-- Empty tables. -/
def emptyDb : Db := ⟨[], fun _ => none, []⟩

end AgentHarness
