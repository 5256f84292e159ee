import AgentHarness.KernelOutcomes
import AgentHarness.Redaction
import AgentHarness.Requests

/-!
# ResumeIdentity — which tool a resume calls for the approved step

`KeepsTool` asks that the tool called for the approved step is the one of the approval record, and that a
payload naming another tool is reported as tampered before anything is called.  The check of the payload stands
behind the early return for a consumed approval, behind the dispatch to the graph adapter and behind the reading
of the plan, and it lets a payload without a tool name pass.  `toolKept` says for every mode what is left.
-/

namespace AgentHarness

open Lib Py ApprovalResumeService

/-- The tool that the operation calls for the approved step of `a`. -/
def Op.approvedTool (a : ApprovalId) : Op → Option PyVal
  | .gatewayCall (.approved b _) tool _ => if b = a then some tool else none
  | .gatewayCall (.graphResume b _) tool _ => if b = a then some tool else none
  | _ => none

def Op.isGatewayCall : Op → Bool
  | .gatewayCall _ _ _ => true
  | _ => false

/-- The tools called for the approved step, in order. -/
def approvedTools (a : ApprovalId) (log : List Event) : List PyVal := log.filterMap fun e => e.op.approvedTool a

namespace ApprovalRow

/-- `v` is a tool name, and not the record's. -/
def isOther (row : ApprovalRow) (v : PyVal) : Bool := v.truthy && !v.pyEq (.str row.toolName)

def mode (row : ApprovalRow) : PyVal := Dict.getD row.payloadDict "mode" (.str "")

/-- The tool name of the payload's own interrupt payload. -/
def interruptTool (row : ApprovalRow) : PyVal :=
  ((Dict.get row.payloadDict "interrupt_payload").get "tool_name").toOption.getD .null

/-- The payload names another tool where its mode reads a tool name. -/
def namesOther (row : ApprovalRow) : Bool :=
  row.isOther (Dict.get row.payloadDict "tool_name") ||
    (row.mode.pyEq (.str "graph_keyword") && row.isOther row.interruptTool)

end ApprovalRow

/-- **The approved tool, and no other.** -/
structure KeepsTool (a : ApprovalId) (row : ApprovalRow) (r : Except PyExc Dict) (log : List Event) : Prop where
  identity : ∀ tool ∈ approvedTools a log, tool = .str row.toolName
  tampered : row.namesOther = true → (∀ e ∈ log, e.op.isGatewayCall = false) ∧
    ∃ d, r = .ok d ∧ Dict.get d "error_type" = .str "approval_payload_tampered"

/-- The checkpoint that a claim at time `now` hands out. -/
def claimableCheckpoint (db : Db) (v : PyVal) (a : ApprovalId) (now : Nat) : Option CheckpointRow :=
  match bindText v with
  | .ok (some c) =>
    if db.checkpoints.countP (claimable c a now) = 1 then db.checkpoints.find? (hasId c) else none
  | _ => none

/-- How many operations of the resume come before the bodies of the modes. -/
def openingLength (row : ApprovalRow) : Nat := if row.taskId = "" then 2 else 3

/-- The payload leaves the tool name to the checkpoint, and that names another one. -/
def checkpointNamesOther (env : Env) (db : Db) (a : ApprovalId) (row : ApprovalRow) : Bool :=
  (Dict.get row.payloadDict "checkpoint_id").truthy && !(Dict.get row.payloadDict "interrupt_payload").truthy &&
    (claimableCheckpoint db (Dict.get row.payloadDict "checkpoint_id") a (env.clock (openingLength row))).any
      fun c => row.isOther (Dict.get (c.pendingInterrupt.getD []) "tool_name")

/-- The payload reads, passes the check and resolves, so that the approved step is called. -/
def reachesStep (env : Env) (row : ApprovalRow) : Except PyExc Bool := do
  let steps ← planSteps row.payloadDict row.mode
  let integrity ← OperationWhitelist.checkPayloadIntegrity env.format row.payloadDict row.toolName steps
  let _ ← (Dict.getD row.payloadDict "completed_step_ids" (.list [])).toSet
  let toolCalls ← (Dict.getD row.payloadDict "tool_calls" (.list [])).iter
  let saved ← rebuildSaved toolCalls []
  let _ ← resolveArguments env (Dict.getD row.payloadDict "arguments" (.dict [])) saved
  return integrity.allowed

/-- The payload gives the tool name of the record. -/
def givesOwn (row : ApprovalRow) : Bool :=
  (Dict.getD row.payloadDict "tool_name" (.str "")).pyEq (.str row.toolName)

/-- **When the law holds**, read on the payload, the record and the checkpoints before the resume. -/
def toolKept (env : Env) (db : Db) (a : ApprovalId) (row : ApprovalRow) : Bool :=
  if (Dict.get row.payloadDict "resumed").truthy then !row.namesOther
  else if row.mode.pyEq (.str "graph_keyword") then !row.namesOther && !checkpointNamesOther env db a row
  else if row.mode.pyEq (.str "keyword") then row.namesOther || givesOwn row
  else if row.mode.pyEq (.str "multitool") then
    if row.namesOther then (planSteps row.payloadDict row.mode).isOk
    else givesOwn row || !((reachesStep env row).toOption.getD false)
  else true

/-! ## The log of a part -/

section Log

variable {env : Env} {a : ApprovalId} {α : Type} {P : Op → Prop} {w : World} {row : ApprovalRow} {tool : PyVal}

/-- What a part performs is what its program may perform. -/
theorem logged_keeps {p : Py α} (hu : p.Uses P) : Keeps env (fun w => ∀ e ∈ w.log, P e.op) p := by
  refine keeps_of_uses (fun o ho w hw e he => ?_) hu
  rw [exec_log] at he
  rcases List.mem_append.mp he with he | he
  · exact hw e he
  · rw [List.mem_singleton.mp he]
    exact ho

/-- What was called stays called. -/
theorem called_keeps {p : Py α} : Keeps env (fun w => tool ∈ approvedTools a w.log) p := by
  refine keeps_of_uses (fun o _ w hw => ?_) (Prog.uses_true p)
  unfold approvedTools at hw ⊢
  rw [exec_log, List.filterMap_append]
  exact List.mem_append_left _ hw

theorem wp_called {site : CallSite} {args : PyVal}
    (h : (Op.gatewayCall site tool args).approvedTool a = some tool) :
    wp (sequential env) (gatewayCall site tool args) (fun _ w' => tool ∈ approvedTools a w'.log) w := by
  refine wp_perform.mpr ?_
  unfold approvedTools
  rw [exec_log, List.filterMap_append]
  exact List.mem_append_right _ (List.mem_filterMap.mpr ⟨_, List.mem_singleton_self _, h⟩)

/-- Calls the record's tool for the approved step, or none. -/
def OwnCall (a : ApprovalId) (row : ApprovalRow) (o : Op) : Prop :=
  ∀ tool, o.approvedTool a = some tool → tool = .str row.toolName

theorem ownCall_of_silent {o : Op} (h : o.isGatewayCall = false) : OwnCall a row o := by
  intro tool ho
  cases o <;> first | cases ho | cases h

theorem ownCall_tail {o : Op} (h : TailOp a o) : OwnCall a row o := by
  intro tool ho
  unfold Op.approvedTool at ho
  split at ho
  · exact h.elim
  · exact h.elim
  · cases ho

/-- A log of own calls. -/
theorem identity_of_log {log : List Event} (h : ∀ e ∈ log, OwnCall a row e.op) :
    ∀ tool ∈ approvedTools a log, tool = .str row.toolName := by
  intro tool htool
  obtain ⟨e, he, hop⟩ := List.mem_filterMap.mp htool
  exact h e he tool hop

/-- A payload that names no other tool: only the calls matter. -/
theorem keepsTool_iff (hnames : row.namesOther = false) {r : Except PyExc Dict} {log : List Event} :
    KeepsTool a row r log ↔ ∀ tool ∈ approvedTools a log, tool = .str row.toolName := by
  refine ⟨KeepsTool.identity, fun h => ⟨h, fun hother => ?_⟩⟩
  rw [hnames] at hother
  cases hother

/-- A payload that names another tool, and another report. -/
theorem not_keepsTool (hnames : row.namesOther = true) {r : Except PyExc Dict} {log : List Event}
    (h : ∀ d, r = .ok d → Dict.get d "error_type" ≠ .str "approval_payload_tampered") : ¬ KeepsTool a row r log := by
  intro hkeeps
  obtain ⟨-, d, hd, herror⟩ := hkeeps.tampered hnames
  exact h d hd herror

end Log

/-! ## Tool names -/

section Names

variable {row : ApprovalRow} {v v' : PyVal}

theorem eq_of_pyEq {s : String} (h : v.pyEq (.str s) = true) : v = .str s := by
  cases v with
  | str s' =>
    rw [PyVal.pyEq_str, beq_iff_eq] at h
    rw [h]
  | _ => simp [PyVal.pyEq, PyVal.number?] at h

/-- A name that is no other one is missing or the record's. -/
theorem own_or_falsy (h : row.isOther v = false) : v.truthy = false ∨ v = .str row.toolName := by
  unfold ApprovalRow.isOther at h
  cases htruthy : v.truthy with
  | false => exact .inl rfl
  | true =>
    rw [htruthy, Bool.true_and, Bool.not_eq_false'] at h
    exact .inr (eq_of_pyEq h)

theorem or_own (h : row.isOther v = false) (h' : v' = .str row.toolName) : v.or v' = .str row.toolName := by
  unfold PyVal.or
  rcases own_or_falsy h with hfalsy | hown
  · rw [if_neg (by simp [hfalsy]), h']
  · rw [h', hown]
    exact ite_self _

theorem or_other (h : row.isOther v = true) : v.or v' ≠ .str row.toolName := by
  unfold ApprovalRow.isOther at h
  rw [Bool.and_eq_true] at h
  unfold PyVal.or
  rw [if_pos h.1]
  rintro rfl
  simp at h

theorem namesOther_of_not_graph (h : row.mode.pyEq (.str "graph_keyword") = false) :
    row.namesOther = row.isOther (Dict.get row.payloadDict "tool_name") := by
  unfold ApprovalRow.namesOther
  rw [h, Bool.false_and, Bool.or_false]

end Names

/-! ## The opening of a resume -/

/-- Approval read, start reported: nothing is called yet and the tables are as before. -/
structure Opened (db : Db) (row : ApprovalRow) (w : World) : Prop where
  db : w.db = db
  length : w.log.length = openingLength row
  quiet : ∀ e ∈ w.log, e.op.isGatewayCall = false

section Opening

variable {env : Env} {a : ApprovalId} {db : Db} {row : ApprovalRow} {Q : Except PyExc Dict → World → Prop}

theorem wp_recordAudit_bind {fields : Dict} {k : Unit → Py Dict} {w : World}
    (h : wp (sequential env) (k ()) Q (exec env 0 (.audit fields) w).2) :
    wp (sequential env) (recordAudit fields >>= k) Q w := by
  let R : Except PyExc Unit → World → Prop := fun r w' => r = .ok () ∧ w' = (exec env 0 (.audit fields) w).2
  have haudit : wp (sequential env) (recordAudit fields) R w :=
    wp_try (wp_perform.mpr ⟨rfl, rfl⟩) (fun _ _ h => h) fun e w' h => nomatch h.1
  refine wp_seq haudit ?_ fun e w' h => nomatch h.1
  rintro b w' ⟨-, rfl⟩
  exact h

/-- An approved row that is consumed. -/
theorem wp_resume_consumed (hrow : db.approvals[a]? = some row) (hst : row.status = .approved)
    (hres : (Dict.get row.payloadDict "resumed").truthy = true)
    (h : ∀ w, (∀ e ∈ w.log, e.op.isGatewayCall = false) →
      Q (.ok [("already_resumed", .bool true), ("approval_id", approvalIdVal a), ("task_id", .str row.taskId),
        ("resume_result", Dict.get row.payloadDict "resume_result")]) w) :
    wp (sequential env) (resume env a) Q ⟨db, []⟩ := by
  unfold resume
  refine wp_perform_bind rfl ?_
  rw [hrow]
  dsimp only
  rw [if_neg (not_not.mpr hst), if_pos hres]
  refine h _ fun e he => ?_
  rw [exec_log, List.nil_append] at he
  rw [List.mem_singleton.mp he]
  rfl

/-- An approved row that is not consumed: the start is reported, and the payload's mode is entered. -/
theorem wp_resume_open (hrow : db.approvals[a]? = some row) (hst : row.status = .approved)
    (hres : (Dict.get row.payloadDict "resumed").truthy = false)
    (hmissing : row.mode.pyEq (.str "graph_keyword") = true →
      (Dict.get row.payloadDict "checkpoint_id").truthy = false → ∀ w, Opened db row w →
      Q (.ok [("resumed", .bool false), ("error", .str "graph_keyword approval missing checkpoint_id"),
        ("error_type", .str "missing_checkpoint_id"), ("approval_id", approvalIdVal a)]) w)
    (hgraph : row.mode.pyEq (.str "graph_keyword") = true →
      (Dict.get row.payloadDict "checkpoint_id").truthy = true → ∀ w, Opened db row w →
      wp (sequential env) (GraphResumeAdapter.resume a row) Q w)
    (hchecked : row.mode.pyEq (.str "graph_keyword") = false → ∀ w, Opened db row w →
      wp (sequential env) (resumeChecked env a row row.payloadDict row.mode) Q w) :
    wp (sequential env) (resume env a) Q ⟨db, []⟩ := by
  unfold resume
  refine wp_perform_bind rfl ?_
  rw [hrow]
  dsimp only
  rw [if_neg (not_not.mpr hst), hres, if_neg Bool.false_ne_true]
  have hbody : ∀ w, Opened db row w → wp (sequential env)
      (if row.mode.pyEq (.str "graph_keyword") then
        if !(Dict.get row.payloadDict "checkpoint_id").truthy then
          pure [("resumed", .bool false), ("error", .str "graph_keyword approval missing checkpoint_id"),
            ("error_type", .str "missing_checkpoint_id"), ("approval_id", approvalIdVal a)]
        else GraphResumeAdapter.resume a row
      else resumeChecked env a row row.payloadDict row.mode) Q w := by
    intro w hw
    cases hmode : row.mode.pyEq (.str "graph_keyword") with
    | false =>
      rw [if_neg Bool.false_ne_true]
      exact hchecked hmode w hw
    | true =>
      rw [if_pos rfl]
      cases hid : (Dict.get row.payloadDict "checkpoint_id").truthy with
      | false => exact hmissing hmode hid w hw
      | true => exact hgraph hmode hid w hw
  unfold resumeApproved
  dsimp only
  unfold traceTask
  by_cases htask : row.taskId = ""
  · rw [if_neg (not_not.mpr htask), Prog.pure_bind']
    refine wp_recordAudit_bind (hbody _ ⟨rfl, ?_, ?_⟩)
    · simp [openingLength, htask]
    · simp [Op.isGatewayCall]
  · rw [if_pos htask]
    refine wp_perform_bind rfl (wp_recordAudit_bind (hbody _ ⟨rfl, ?_, ?_⟩))
    · simp [openingLength, htask]
    · simp [Op.isGatewayCall]

end Opening

/-! ## The modes `keyword` and `multitool` -/

section Checked

variable {env : Env} {a : ApprovalId} {db : Db} {row : ApprovalRow} {w : World}

theorem isOther_getD : row.isOther (Dict.getD row.payloadDict "tool_name" (.str "")) =
    row.isOther (Dict.get row.payloadDict "tool_name") := by
  unfold Dict.get Dict.getD
  cases Dict.get? row.payloadDict "tool_name" with
  | none => rfl
  | some v => rfl

/-- The check refuses a payload that names another tool, whatever the plan. -/
theorem check_other (h : row.isOther (Dict.get row.payloadDict "tool_name") = true) {steps : PyVal} :
    ∃ dec, OperationWhitelist.checkPayloadIntegrity env.format row.payloadDict row.toolName steps = .ok dec ∧
      dec.allowed = false := by
  rw [← isOther_getD] at h
  unfold ApprovalRow.isOther at h
  rw [Bool.and_eq_true] at h
  unfold OperationWhitelist.checkPayloadIntegrity
  dsimp only
  rw [if_pos h]
  exact ⟨_, rfl, rfl⟩

/-- Without a plan it passes every other payload. -/
theorem check_own (h : row.isOther (Dict.get row.payloadDict "tool_name") = false) :
    OperationWhitelist.checkPayloadIntegrity env.format row.payloadDict row.toolName .null =
      .ok (OperationWhitelist.permit row.toolName none) := by
  rw [← isOther_getD] at h
  unfold ApprovalRow.isOther at h
  unfold OperationWhitelist.checkPayloadIntegrity
  dsimp only
  rw [if_neg]
  rintro ⟨htruthy, hne⟩
  rw [htruthy, hne] at h
  cases h

theorem report_silent {reason taskId : String} {operation : PyVal} :
    (do
      traceTask "approval_payload_tampered" taskId
        [("approval_id", approvalIdVal a), ("reason", .str reason), ("operation", operation),
          ("error_type", .str "approval_payload_tampered")]
      recordAudit [("event_type", .str "approval_payload_tampered"), ("task_id", .str taskId),
        ("approval_id", approvalIdVal a), ("action", .str "resume"), ("outcome", .str "blocked"),
        ("severity", .str "critical"), ("reason", .str reason),
        ("detail", .dict [("operation", operation), ("error_type", .str "approval_payload_tampered")])]
      pure (tamperedResult a reason) : Py Dict).Uses fun o => o.isGatewayCall = false :=
  Prog.Uses.bind (traceTask_uses rfl) fun _ => Prog.Uses.bind (recordAudit_uses rfl) fun _ => trivial

/-- **A payload that names another tool** is reported before anything is called. -/
theorem resumeChecked_tampered (hother : row.isOther (Dict.get row.payloadDict "tool_name") = true)
    (hsteps : (planSteps row.payloadDict row.mode).isOk = true) (hquiet : ∀ e ∈ w.log, e.op.isGatewayCall = false) :
    wp (sequential env) (resumeChecked env a row row.payloadDict row.mode) (fun r w' =>
      (∃ d, r = .ok d ∧ Dict.get d "error_type" = .str "approval_payload_tampered") ∧
        ∀ e ∈ w'.log, e.op.isGatewayCall = false) w := by
  unfold resumeChecked
  cases hplan : planSteps row.payloadDict row.mode with
  | error e =>
    rw [hplan] at hsteps
    cases hsteps
  | ok steps =>
    obtain ⟨dec, hdec, hallowed⟩ := @check_other env row hother steps
    simp only [hdec, hallowed, Prog.ofExcept_ok, Prog.pure_bind', Bool.not_false, if_true]
    refine wp_and ?_ (logged_keeps report_silent w hquiet)
    refine wp_silent_seq silent_traceTask fun _ w₁ _ => wp_silent_seq silent_recordAudit fun _ w₂ _ => ?_
    exact ⟨_, rfl, rfl⟩

/-- A resume whose payload gives the record's tool name calls no other for the approved step. -/
theorem resumeChecked_own {payload : Dict} {mode : PyVal}
    (h : ∀ s args, mode.pyEq (.str "keyword") = true →
      OwnCall a row (.gatewayCall (.approved a s) (Dict.getD payload "tool_name" (.str "")) args))
    (h' : ∀ steps dec completed toolCalls saved args, mode.pyEq (.str "multitool") = true →
      planSteps payload mode = .ok steps →
      OperationWhitelist.checkPayloadIntegrity env.format payload row.toolName steps = .ok dec →
      dec.allowed = true →
      (Dict.getD payload "completed_step_ids" (.list [])).toSet = .ok completed →
      (Dict.getD payload "tool_calls" (.list [])).iter = .ok toolCalls → rebuildSaved toolCalls [] = .ok saved →
      resolveArguments env (Dict.getD payload "arguments" (.dict [])) saved = .ok args →
      ∀ s, OwnCall a row (.gatewayCall (.approved a s) (Dict.getD payload "tool_name" (.str "")) args)) :
    (resumeChecked env a row payload mode).Uses (OwnCall a row) := by
  unfold resumeChecked
  refine Prog.uses_ofExcept_bind fun steps hsteps => Prog.uses_ofExcept_bind fun dec hdec => ?_
  split
  · exact report_silent.mono fun _ => ownCall_of_silent
  rename_i hallowed
  rw [Bool.not_eq_true, Bool.not_eq_false'] at hallowed
  refine Prog.Uses.bind ?_ fun result => Prog.Uses.bind ?_ fun _ => trivial
  · unfold runMode
    split
    · rename_i hmode
      exact resumeKeyword_uses (fun _ => ownCall_tail) fun s args => h s args hmode
    split
    · rename_i hmode
      refine resumeMultitool_uses (fun _ => ownCall_tail) fun completed toolCalls saved args h₁ h₂ h₃ h₄ s => ?_
      exact h' steps dec completed toolCalls saved args hmode hsteps hdec hallowed h₁ h₂ h₃ h₄ s
    · trivial
  · exact settle_uses (ownCall_of_silent rfl) (fun _ => ownCall_of_silent rfl) result

/-- What is called in one part of a program stays called at its end. -/
theorem wp_called_seq {α β : Type} {tool : PyVal} {p : Py α} {f : α → Py β}
    (h : wp (sequential env) p (fun _ w' => tool ∈ approvedTools a w'.log) w) :
    wp (sequential env) (p >>= f) (fun _ w' => tool ∈ approvedTools a w'.log) w :=
  wp_seq h (fun _ w' h' => called_keeps w' h') fun _ _ h' => h'

theorem wp_called_try {α : Type} {tool : PyVal} {p : Py α} {f : PyExc → Py α}
    (h : wp (sequential env) p (fun _ w' => tool ∈ approvedTools a w'.log) w) :
    wp (sequential env) (MonadExcept.tryCatch p f) (fun _ w' => tool ∈ approvedTools a w'.log) w :=
  wp_try h (fun _ _ h' => h') fun _ w' h' => called_keeps w' h'

theorem resumeKeyword_calls {taskId : String} {payload : Dict} :
    wp (sequential env) (resumeKeyword a taskId payload)
      (fun _ w' => Dict.getD payload "tool_name" (.str "") ∈ approvedTools a w'.log) w := by
  unfold resumeKeyword
  refine wp_silent_seq silent_traceTask fun _ w₁ _ => wp_called_try (wp_called_seq (wp_called ?_))
  exact if_pos rfl

/-- The approved step is reached, and called. -/
theorem resumeMultitool_calls {taskId : String} {payload : Dict} {completed toolCalls : List PyVal}
    {saved : List (String × Saved)} {args : PyVal}
    (h₁ : (Dict.getD payload "completed_step_ids" (.list [])).toSet = .ok completed)
    (h₂ : (Dict.getD payload "tool_calls" (.list [])).iter = .ok toolCalls) (h₃ : rebuildSaved toolCalls [] = .ok saved)
    (h₄ : resolveArguments env (Dict.getD payload "arguments" (.dict [])) saved = .ok args) :
    wp (sequential env) (resumeMultitool env a taskId payload)
      (fun _ w' => Dict.getD payload "tool_name" (.str "") ∈ approvedTools a w'.log) w := by
  unfold resumeMultitool
  simp only [h₁, h₂, h₃, h₄, Prog.ofExcept_ok, Prog.pure_bind']
  refine wp_silent_seq silent_traceTask fun _ w₁ _ => wp_silent_seq silent_traceTask fun _ w₂ _ => ?_
  unfold runApprovedStep
  refine wp_called_seq (wp_called_try (wp_called_seq (wp_called ?_)))
  exact if_pos rfl

/-- A payload that names another tool: all that matters is that the check is reached. -/
theorem resumeChecked_other {b : Bool} (hnames : row.namesOther = true)
    (hother : row.isOther (Dict.get row.payloadDict "tool_name") = true)
    (hquiet : ∀ e ∈ w.log, e.op.isGatewayCall = false) (hb : (planSteps row.payloadDict row.mode).isOk = b) :
    wp (sequential env) (resumeChecked env a row row.payloadDict row.mode) (fun r w' =>
      KeepsTool a row r w'.log ↔ b = true) w := by
  cases b with
  | true =>
    refine wp_mono (resumeChecked_tampered hother hb hquiet) ?_
    rintro r w' ⟨hreport, hlog⟩
    refine iff_of_true ⟨?_, fun _ => ⟨hlog, hreport⟩⟩ rfl
    exact identity_of_log fun e he => ownCall_of_silent (hlog e he)
  | false =>
    -- the plan is read before the check, and raises
    unfold resumeChecked
    cases hplan : planSteps row.payloadDict row.mode with
    | ok steps =>
      rw [hplan] at hb
      cases hb
    | error e =>
      rw [Prog.ofExcept_error, Prog.raise_bind, wp_raise]
      exact iff_of_false (not_keepsTool hnames nofun) Bool.false_ne_true

theorem givesOwn_iff : givesOwn row = true ↔ Dict.getD row.payloadDict "tool_name" (.str "") = .str row.toolName := by
  refine ⟨eq_of_pyEq, fun h => ?_⟩
  rw [givesOwn, h, PyVal.pyEq_str]
  exact beq_self_eq_true _

/-- The call of the approved step with the payload's tool. -/
theorem ownCall_approved {s args : PyVal} (hown : givesOwn row = true) :
    OwnCall a row (.gatewayCall (.approved a s) (Dict.getD row.payloadDict "tool_name" (.str "")) args) := by
  intro tool h
  rw [← givesOwn_iff.mp hown]
  simpa [Op.approvedTool] using h.symm

/-- All calls of the resume are own calls. -/
theorem resumeChecked_kept (hnames : row.namesOther = false) (hquiet : ∀ e ∈ w.log, e.op.isGatewayCall = false)
    (hu : (resumeChecked env a row row.payloadDict row.mode).Uses (OwnCall a row)) :
    wp (sequential env) (resumeChecked env a row row.payloadDict row.mode) (fun r w' =>
      KeepsTool a row r w'.log ↔ true = true) w := by
  refine wp_mono (logged_keeps hu w fun e he => ownCall_of_silent (hquiet e he)) fun r w' h => ?_
  exact iff_of_true ((keepsTool_iff hnames).mpr (identity_of_log h)) rfl

/-- The payload's tool is called, and is not the record's. -/
theorem resumeChecked_lost (hown : givesOwn row = false)
    (hcalls : wp (sequential env) (resumeChecked env a row row.payloadDict row.mode)
      (fun _ w' => Dict.getD row.payloadDict "tool_name" (.str "") ∈ approvedTools a w'.log) w) :
    wp (sequential env) (resumeChecked env a row row.payloadDict row.mode) (fun r w' =>
      KeepsTool a row r w'.log ↔ false = true) w := by
  refine wp_mono hcalls fun r w' h => iff_of_false (fun hkeeps => ?_) Bool.false_ne_true
  rw [givesOwn_iff.mpr (hkeeps.identity _ h)] at hown
  cases hown

/-- **The keyword mode** keeps the law if the payload names another tool, or the record's own. -/
theorem resumeChecked_keyword (hquiet : ∀ e ∈ w.log, e.op.isGatewayCall = false)
    (hmode : row.mode = .str "keyword") :
    wp (sequential env) (resumeChecked env a row row.payloadDict row.mode) (fun r w' =>
      KeepsTool a row r w'.log ↔ (row.namesOther || givesOwn row) = true) w := by
  have hplan : planSteps row.payloadDict row.mode = .ok .null := by
    rw [hmode]
    rfl
  have hnames : row.namesOther = row.isOther (Dict.get row.payloadDict "tool_name") :=
    namesOther_of_not_graph (by rw [hmode]; rfl)
  cases hother : row.isOther (Dict.get row.payloadDict "tool_name") with
  | true =>
    rw [hother] at hnames
    rw [hnames, Bool.true_or]
    exact resumeChecked_other hnames hother hquiet (by rw [hplan]; rfl)
  | false =>
    rw [hother] at hnames
    rw [hnames, Bool.false_or]
    cases hown : givesOwn row with
    | true =>
      refine resumeChecked_kept hnames hquiet (resumeChecked_own (fun s args _ => ownCall_approved hown) ?_)
      exact fun _ _ _ _ _ args _ _ _ _ _ _ _ _ s => ownCall_approved hown
    | false =>
      refine resumeChecked_lost hown ?_
      unfold resumeChecked
      simp only [hplan, check_own hother, Prog.ofExcept_ok, Prog.pure_bind', OperationWhitelist.permit, Bool.not_true,
        Bool.false_eq_true, if_false]
      refine wp_called_seq ?_
      unfold runMode
      rw [hmode, if_pos (by rfl)]
      exact resumeKeyword_calls

/-- **The multi-tool mode** keeps the law if the payload names another tool and has a plan, or the record's own,
or is not reached. -/
theorem resumeChecked_multitool (hquiet : ∀ e ∈ w.log, e.op.isGatewayCall = false)
    (hmode : row.mode = .str "multitool") :
    wp (sequential env) (resumeChecked env a row row.payloadDict row.mode) (fun r w' =>
      KeepsTool a row r w'.log ↔ (if row.namesOther then (planSteps row.payloadDict row.mode).isOk
        else givesOwn row || !((reachesStep env row).toOption.getD false)) = true) w := by
  have hnames : row.namesOther = row.isOther (Dict.get row.payloadDict "tool_name") :=
    namesOther_of_not_graph (by rw [hmode]; rfl)
  cases hother : row.isOther (Dict.get row.payloadDict "tool_name") with
  | true =>
    rw [hother] at hnames
    rw [hnames, if_pos rfl]
    exact resumeChecked_other hnames hother hquiet rfl
  | false =>
    rw [hother] at hnames
    rw [hnames, if_neg Bool.false_ne_true]
    cases hown : givesOwn row with
    | true =>
      rw [Bool.true_or]
      refine resumeChecked_kept hnames hquiet (resumeChecked_own (fun s args _ => ownCall_approved hown) ?_)
      exact fun _ _ _ _ _ args _ _ _ _ _ _ _ _ s => ownCall_approved hown
    | false =>
      rw [Bool.false_or]
      cases hreach : (reachesStep env row).toOption.getD false with
      | false =>
        refine resumeChecked_kept hnames hquiet (resumeChecked_own (fun s args h => ?_) ?_)
        · rw [hmode] at h
          simp at h
        · intro steps dec completed toolCalls saved args _ hsteps hdec hallowed h₁ h₂ h₃ h₄
          have hreached : reachesStep env row = .ok true := by
            unfold reachesStep
            simp only [hsteps, hdec, h₁, h₂, h₃, h₄, hallowed, bind, Except.bind, pure, Except.pure]
          rw [hreached] at hreach
          cases hreach
      | true =>
        have hok : reachesStep env row = .ok true := by
          cases hr : reachesStep env row with
          | error e =>
            rw [hr] at hreach
            cases hreach
          | ok b =>
            rw [hr] at hreach
            exact congrArg Except.ok hreach
        unfold reachesStep at hok
        obtain ⟨steps, hsteps, hok⟩ := bind_ok hok
        obtain ⟨dec, hdec, hok⟩ := bind_ok hok
        obtain ⟨completed, h₁, hok⟩ := bind_ok hok
        obtain ⟨toolCalls, h₂, hok⟩ := bind_ok hok
        obtain ⟨saved, h₃, hok⟩ := bind_ok hok
        obtain ⟨args, h₄, hok⟩ := bind_ok hok
        have hallowed : dec.allowed = true := Except.ok.inj hok
        refine resumeChecked_lost hown ?_
        unfold resumeChecked
        simp only [hsteps, hdec, hallowed, Prog.ofExcept_ok, Prog.pure_bind', Bool.not_true, Bool.false_eq_true,
          if_false]
        refine wp_called_seq ?_
        unfold runMode
        rw [hmode, if_neg (by simp), if_pos (by rfl)]
        exact resumeMultitool_calls h₁ h₂ h₃ h₄

/-- Any other mode calls nothing. -/
theorem resumeChecked_unknown (hquiet : ∀ e ∈ w.log, e.op.isGatewayCall = false)
    (hgraph : row.mode.pyEq (.str "graph_keyword") = false) (hkeyword : row.mode.pyEq (.str "keyword") = false)
    (hmultitool : row.mode.pyEq (.str "multitool") = false) :
    wp (sequential env) (resumeChecked env a row row.payloadDict row.mode) (fun r w' =>
      KeepsTool a row r w'.log ↔ true = true) w := by
  have hplan : planSteps row.payloadDict row.mode = .ok .null := by
    unfold planSteps
    rw [hmultitool, if_neg Bool.false_ne_true]
  have hnames := namesOther_of_not_graph hgraph
  cases hother : row.isOther (Dict.get row.payloadDict "tool_name") with
  | true =>
    rw [hother] at hnames
    exact resumeChecked_other hnames hother hquiet (by rw [hplan]; rfl)
  | false =>
    rw [hother] at hnames
    refine resumeChecked_kept hnames hquiet (resumeChecked_own (fun s args h => ?_) ?_)
    · rw [hkeyword] at h
      cases h
    · intro _ _ _ _ _ _ h
      rw [hmultitool] at h
      cases h

end Checked

/-! ## The graph mode -/

section Graph

variable {env : Env} {a : ApprovalId} {row : ApprovalRow} {w : World} {v : PyVal}

/-- The update of a claim keeps ids and interrupts. -/
theorem find_claimed {l : List CheckpointRow} {c : String} {p : CheckpointRow → Bool} :
    ((l.map fun r => if p r then claimRow r else r).find? (hasId c)).map CheckpointRow.pendingInterrupt =
      (l.find? (hasId c)).map CheckpointRow.pendingInterrupt := by
  induction l with
  | nil => rfl
  | cons r l ih =>
    have hid : hasId c (if p r then claimRow r else r) = hasId c r := by split <;> rfl
    have hpending : (if p r then claimRow r else r).pendingInterrupt = r.pendingInterrupt := by split <;> rfl
    rw [List.map_cons, List.find?_cons, List.find?_cons, hid]
    cases hasId c r with
    | true => exact congrArg some hpending
    | false => exact ih

/-- What a claim answers. -/
def Claims (found : Option CheckpointRow) (r : Except PyExc (Option CheckpointRow)) : Prop :=
  match found with
  | none => ∀ c, r ≠ .ok (some c)
  | some c => ∃ c', r = .ok (some c') ∧ c'.pendingInterrupt = c.pendingInterrupt

/-- A claim that fails leaves nothing to resume. -/
theorem claims_none {r : Except PyExc (Option CheckpointRow)} (h : r = .ok none ∨ ∃ e, r = .error e) :
    Claims none r := by
  intro c hc
  rcases h with rfl | ⟨e, rfl⟩
  · cases hc
  · cases hc

theorem claim_spec : wp (sequential env) (claimForResume v a)
    (fun r _ => Claims (claimableCheckpoint w.db v a (env.clock w.log.length)) r) w := by
  unfold claimForResume
  refine wp_perform_bind rfl ?_
  generalize hw₁ : (exec env 0 .now w).2 = w₁
  have hdb : w₁.db = w.db := by rw [← hw₁, exec_db, dbExec]
  cases hv : bindText v with
  | error e =>
    have hnone : claimableCheckpoint w.db v a (env.clock w.log.length) = none := by simp only [claimableCheckpoint, hv]
    rw [hnone]
    refine wp_seq (R := fun r _ => ∃ e, r = .error e) (wp_perform.mpr ⟨e, ?_⟩) ?_ ?_
    · simp only [exec_ans, dbExec, hv]
    · rintro n w₂ ⟨e, h⟩
      cases h
    · exact fun e w₂ _ => claims_none (.inr ⟨e, rfl⟩)
  | ok bound =>
    cases bound with
    | none =>
      have hnone : claimableCheckpoint w.db v a (env.clock w.log.length) = none := by
        simp only [claimableCheckpoint, hv]
      rw [hnone]
      refine wp_perform_bind (a := 0) ?_ ?_
      · simp only [dbExec, hv]
      · exact claims_none (.inl rfl)
    | some c =>
      refine wp_perform_bind (a := w.db.checkpoints.countP (claimable c a (env.clock w.log.length))) ?_ ?_
      · simp only [dbExec, hv, hdb]
      generalize hw₂ : (exec env 0 (.claimForResume v a (env.clock w.log.length)) w₁).2 = w₂
      by_cases hone : w.db.checkpoints.countP (claimable c a (env.clock w.log.length)) = 1
      · rw [if_neg (not_not.mpr hone)]
        refine wp_perform.mpr ?_
        have hfind : (w₂.db.checkpoints.find? (hasId c)).map CheckpointRow.pendingInterrupt =
            (w.db.checkpoints.find? (hasId c)).map CheckpointRow.pendingInterrupt := by
          rw [← hw₂, exec_db]
          simp only [dbExec, hv, updateCheckpoints, hdb]
          exact find_claimed
        simp only [exec_ans, dbExec, hv, claimableCheckpoint, if_pos hone]
        cases hfound : w.db.checkpoints.find? (hasId c) with
        | none =>
          rw [hfound, Option.map_none, Option.map_eq_none_iff] at hfind
          rw [hfind]
          exact claims_none (.inl rfl)
        | some r =>
          rw [hfound, Option.map_some, Option.map_eq_some_iff] at hfind
          obtain ⟨c', hc', hpending⟩ := hfind
          exact ⟨c', congrArg Except.ok hc', hpending⟩
      · rw [if_pos hone]
        simp only [claimableCheckpoint, hv, if_neg hone]
        exact claims_none (.inl rfl)

theorem claim_silent : (claimForResume v a).Uses fun o => o.isGatewayCall = false :=
  GraphResumeAdapter.claimForResume_uses rfl (fun _ => rfl) rfl

/-- A result that is not the report of the check. -/
def NotTampered (r : Except PyExc Dict) : Prop :=
  ∀ d, r = .ok d → Dict.get d "error_type" ≠ .str "approval_payload_tampered"

theorem notTampered_ok {d : Dict} (h : Dict.get d "error_type" ≠ .str "approval_payload_tampered") :
    NotTampered (.ok d) := by
  intro d' hd
  obtain rfl := Except.ok.inj hd
  exact h

theorem notTampered_error {e : PyExc} : NotTampered (.error e) := fun _ h => nomatch h

theorem buildResult_notTampered {c tool : PyVal} {r : Option ToolCallRecord} {error errorType : Option String}
    (h : errorType = none ∨ errorType = some "tool_call_exception") :
    Dict.get (GraphResumeAdapter.buildResult a c tool r error errorType) "error_type" ≠
      .str "approval_payload_tampered" := by
  unfold GraphResumeAdapter.buildResult
  dsimp only
  by_cases herror : (GraphResumeAdapter.resultError r error).truthy = true
  · rw [if_pos herror]
    rcases h with rfl | rfl <;> simp [Dict.get, Dict.getD, PyVal.or, optStr, PyVal.truthy]
  · rw [if_neg herror]
    simp [Dict.get, Dict.getD]

theorem handleClaimFailed_notTampered :
    wp (sequential env) (GraphResumeAdapter.handleClaimFailed a v) (fun r _ => NotTampered r) w := by
  unfold GraphResumeAdapter.handleClaimFailed
  refine wp_any_seq (fun found w₁ => ?_) fun _ _ => notTampered_error
  dsimp only
  split
  · exact notTampered_ok (by simp [Dict.get, Dict.getD])
  split
  · exact notTampered_ok (by simp [Dict.get, Dict.getD])
  split
  · rename_i hst
    refine notTampered_ok ?_
    rcases hst with hst | hst <;> rw [hst] <;> simp [Dict.get, Dict.getD, CheckpointStatus.value] <;> decide
  · exact notTampered_ok (by simp [Dict.get, Dict.getD])

theorem callTool_notTampered {c tool args : PyVal} :
    wp (sequential env) (GraphResumeAdapter.callTool a c tool args) (fun r _ => NotTampered r) w := by
  unfold GraphResumeAdapter.callTool
  refine wp_try (R := fun r _ => NotTampered r) ?_ (fun _ _ h => h) fun e w₁ _ => ?_
  · refine wp_any_seq (fun r w₁ => ?_) fun _ _ => notTampered_error
    exact notTampered_ok (buildResult_notTampered (.inl rfl))
  · exact notTampered_ok (buildResult_notTampered (.inr rfl))

/-- The report of the graph adapter is never the one of the check. -/
theorem graph_notTampered :
    wp (sequential env) (GraphResumeAdapter.resume a row) (fun r _ => NotTampered r) w := by
  unfold GraphResumeAdapter.resume
  dsimp only
  split
  · exact notTampered_ok (by simp [Dict.get, Dict.getD])
  split
  · exact notTampered_ok (by simp [Dict.get, Dict.getD])
  split
  · exact notTampered_ok (by simp [Dict.get, Dict.getD])
  refine wp_any_seq (fun claimed w₁ => ?_) fun _ _ => notTampered_error
  cases claimed with
  | none => exact handleClaimFailed_notTampered
  | some c =>
    unfold GraphResumeAdapter.resumeClaimed
    refine wp_any_seq (fun tool w₂ => wp_any_seq (fun args w₃ => wp_any_seq (fun _ w₄ => ?_) ?_) ?_) ?_
    · refine wp_seq callTool_notTampered (fun result w₅ hresult => ?_) fun _ _ h => h
      unfold GraphResumeAdapter.record
      refine wp_any_seq (fun _ _ => wp_any_seq (fun _ _ => wp_any_seq (fun _ _ => wp_any_seq (fun _ _ =>
        wp_any_seq (fun _ _ => hresult) ?_) ?_) ?_) ?_) ?_ <;> exact fun _ _ => notTampered_error
    all_goals exact fun _ _ => notTampered_error

/-- The tool name when the interrupt names one, or not. -/
theorem toolNameOf_own {interrupt tool : PyVal} {payload : Dict}
    (hpayload : row.isOther (Dict.get payload "tool_name") = false)
    (hinterrupt : ∀ t, interrupt.get "tool_name" = .ok t → row.isOther t = false)
    (h : GraphResumeAdapter.toolNameOf interrupt payload row.toolName = .ok tool) : tool = .str row.toolName := by
  obtain ⟨t, ht, h⟩ := bind_ok h
  obtain rfl := Except.ok.inj h
  exact or_own (hinterrupt t ht) (or_own hpayload rfl)

/-- The claim hands nothing out: no tool is called. -/
theorem graph_unclaimed (hquiet : ∀ e ∈ w.log, e.op.isGatewayCall = false)
    (hnone : claimableCheckpoint w.db (Dict.get row.payloadDict "checkpoint_id") a (env.clock w.log.length) = none) :
    wp (sequential env) (GraphResumeAdapter.resume a row)
      (fun _ w' => ∀ e ∈ w'.log, e.op.isGatewayCall = false) w := by
  unfold GraphResumeAdapter.resume
  dsimp only
  split
  · exact hquiet
  split
  · exact hquiet
  split
  · exact hquiet
  have hclaim := wp_and (@claim_spec env a w (Dict.get row.payloadDict "checkpoint_id"))
    (logged_keeps (P := fun o => o.isGatewayCall = false) claim_silent w hquiet)
  rw [hnone] at hclaim
  refine wp_seq hclaim (fun claimed w₁ h => ?_) fun _ _ h => h.2
  cases claimed with
  | none =>
    have hu : (GraphResumeAdapter.handleClaimFailed a (Dict.get row.payloadDict "checkpoint_id")).Uses
        fun o => o.isGatewayCall = false := GraphResumeAdapter.handleClaimFailed_uses rfl
    exact logged_keeps hu w₁ h.2
  | some c => exact absurd rfl (h.1 c)

/-- What the adapter does after the call. -/
theorem resumeClaimed_own {c : PyVal} {claimed : CheckpointRow}
    (h : ∀ tool, GraphResumeAdapter.toolNameOf (GraphResumeAdapter.interruptOf row.payloadDict claimed)
      row.payloadDict row.toolName = .ok tool → tool = .str row.toolName) :
    (GraphResumeAdapter.resumeClaimed a row c claimed).Uses (OwnCall a row) := by
  unfold GraphResumeAdapter.resumeClaimed
  refine Prog.uses_ofExcept_bind fun tool htool => Prog.uses_ofExcept_bind fun args _ => ?_
  refine Prog.Uses.bind (recordTrace_uses (ownCall_of_silent rfl)) fun _ => Prog.Uses.bind ?_ fun result => ?_
  · unfold GraphResumeAdapter.callTool
    refine Prog.Uses.tryCatch (Prog.uses_call_bind.mpr ⟨fun t ht => ?_, fun _ => trivial⟩) fun _ => trivial
    obtain rfl := h tool htool
    simpa [Op.approvedTool] using ht.symm
  · unfold GraphResumeAdapter.record markResumed
    refine Prog.Uses.bind (updateTaskStatus_uses (ownCall_of_silent rfl) fun _ => ownCall_of_silent rfl) fun _ => ?_
    refine Prog.Uses.bind (Prog.uses_call_bind.mpr ⟨?_, fun _ => Prog.uses_call.mpr ?_⟩) fun _ => ?_
    · exact ownCall_of_silent rfl
    · exact ownCall_of_silent rfl
    refine Prog.Uses.bind (updatePayload_uses (ownCall_of_silent rfl) fun _ => ownCall_of_silent rfl) fun _ => ?_
    refine Prog.Uses.bind (recordTrace_uses (ownCall_of_silent rfl)) fun _ => ?_
    exact Prog.Uses.bind (recordAudit_uses (ownCall_of_silent rfl)) fun _ => trivial

/-- Without an interrupt payload of its own, the approval's is the checkpoint's. -/
theorem interruptOf_get {payload : Dict} {c : CheckpointRow} {k : String}
    (h : (Dict.get payload "interrupt_payload").truthy = false) :
    (GraphResumeAdapter.interruptOf payload c).get k = .ok (Dict.get (c.pendingInterrupt.getD []) k) := by
  unfold GraphResumeAdapter.interruptOf PyVal.or
  rw [h, if_neg Bool.false_ne_true]
  cases c.pendingInterrupt with
  | none => rfl
  | some d =>
    cases d with
    | nil => rfl
    | cons kv d => rfl

/-- The tool of the interrupt is called. -/
theorem resumeClaimed_calls {v : PyVal} {c : CheckpointRow}
    (hinterrupt : (Dict.get row.payloadDict "interrupt_payload").truthy = false)
    (hother : row.isOther (Dict.get (c.pendingInterrupt.getD []) "tool_name") = true) :
    wp (sequential env) (GraphResumeAdapter.resumeClaimed a row v c)
      (fun _ w' => ∃ tool ∈ approvedTools a w'.log, tool ≠ .str row.toolName) w := by
  obtain ⟨tool, htool, hne⟩ : ∃ tool, GraphResumeAdapter.toolNameOf (GraphResumeAdapter.interruptOf row.payloadDict c)
      row.payloadDict row.toolName = .ok tool ∧ tool ≠ .str row.toolName := by
    unfold GraphResumeAdapter.toolNameOf
    rw [interruptOf_get hinterrupt]
    exact ⟨_, rfl, or_other hother⟩
  obtain ⟨args, hargs⟩ : ∃ args, GraphResumeAdapter.argumentsOf
      (GraphResumeAdapter.interruptOf row.payloadDict c) row.payloadDict = .ok args := by
    unfold GraphResumeAdapter.argumentsOf
    rw [interruptOf_get hinterrupt]
    exact ⟨_, rfl⟩
  unfold GraphResumeAdapter.resumeClaimed
  simp only [htool, hargs, Prog.ofExcept_ok, Prog.pure_bind']
  refine wp_mono (Q := fun _ w' => tool ∈ approvedTools a w'.log) ?_ fun _ _ h => ⟨tool, h, hne⟩
  refine wp_silent_seq silent_recordTrace fun _ w₁ _ => wp_called_seq ?_
  unfold GraphResumeAdapter.callTool
  refine wp_called_try (wp_called_seq (wp_called ?_))
  exact if_pos rfl

theorem resumeClaimed_kept {v : PyVal} {c : CheckpointRow} (hquiet : ∀ e ∈ w.log, e.op.isGatewayCall = false)
    (hnames : row.namesOther = false)
    (hinterrupt : ∀ t, (GraphResumeAdapter.interruptOf row.payloadDict c).get "tool_name" = .ok t →
      row.isOther t = false) :
    wp (sequential env) (GraphResumeAdapter.resumeClaimed a row v c)
      (fun _ w' => ∀ tool ∈ approvedTools a w'.log, tool = .str row.toolName) w := by
  have hpayload : row.isOther (Dict.get row.payloadDict "tool_name") = false := by
    unfold ApprovalRow.namesOther at hnames
    rw [Bool.or_eq_false_iff] at hnames
    exact hnames.1
  have hu : (GraphResumeAdapter.resumeClaimed a row v c).Uses (OwnCall a row) :=
    resumeClaimed_own fun tool h => toolNameOf_own hpayload hinterrupt h
  exact wp_mono (logged_keeps hu w fun e he => ownCall_of_silent (hquiet e he)) fun _ _ h => identity_of_log h

/-- **The graph mode** checks nothing: the law holds if neither the payload nor the checkpoint names another
tool. -/
theorem graph_kept_iff {db : Db} (hw : Opened db row w) (hmode : row.mode = .str "graph_keyword")
    (hres : (Dict.get row.payloadDict "resumed").truthy = false)
    (hid : (Dict.get row.payloadDict "checkpoint_id").truthy = true) :
    wp (sequential env) (GraphResumeAdapter.resume a row) (fun r w' => KeepsTool a row r w'.log ↔
      (!row.namesOther && !checkpointNamesOther env db a row) = true) w := by
  cases hnames : row.namesOther with
  | true =>
    refine wp_mono graph_notTampered fun r w' h => iff_of_false (not_keepsTool hnames h) ?_
    rw [Bool.not_true, Bool.false_and]
    exact Bool.false_ne_true
  | false =>
    simp only [Bool.not_false, Bool.true_and, keepsTool_iff hnames]
    have hpending : checkpointNamesOther env db a row = (!(Dict.get row.payloadDict "interrupt_payload").truthy &&
        (claimableCheckpoint w.db (Dict.get row.payloadDict "checkpoint_id") a (env.clock w.log.length)).any
          fun c => row.isOther (Dict.get (c.pendingInterrupt.getD []) "tool_name")) := by
      unfold checkpointNamesOther
      rw [hid, Bool.true_and, hw.db, hw.length]
    rw [hpending]
    cases hfound : claimableCheckpoint w.db (Dict.get row.payloadDict "checkpoint_id") a (env.clock w.log.length) with
    | none =>
      refine wp_mono (graph_unclaimed hw.quiet hfound) fun r w' h => iff_of_true ?_ ?_
      · exact identity_of_log fun e he => ownCall_of_silent (h e he)
      · rw [Option.any_none, Bool.and_false, Bool.not_false]
    | some c =>
      have hget : Dict.get row.payloadDict "mode" = .str "graph_keyword" := by
        unfold ApprovalRow.mode Dict.getD at hmode
        unfold Dict.get Dict.getD
        cases hm : Dict.get? row.payloadDict "mode" with
        | none =>
          rw [hm, Option.getD_none] at hmode
          simp at hmode
        | some m =>
          rw [hm, Option.getD_some] at hmode
          exact hmode
      have hclaim := wp_and (@claim_spec env a w (Dict.get row.payloadDict "checkpoint_id"))
        (logged_keeps (P := fun o => o.isGatewayCall = false) claim_silent w hw.quiet)
      rw [hfound] at hclaim
      unfold GraphResumeAdapter.resume
      simp only [hget, hid, hres, PyVal.pyEq_str, beq_self_eq_true, Bool.not_true, Bool.false_eq_true, if_false]
      refine wp_seq hclaim (fun claimed w₁ h => ?_) fun e w₁ h => ?_
      swap
      · obtain ⟨⟨c', hc', -⟩, -⟩ := h
        cases hc'
      obtain ⟨⟨c', hc', hsame⟩, hlog⟩ := h
      obtain rfl := Except.ok.inj hc'
      cases hinterrupt : (Dict.get row.payloadDict "interrupt_payload").truthy with
      | true =>
        refine wp_mono (resumeClaimed_kept hlog hnames fun t ht => ?_) fun r w' h => iff_of_true h rfl
        have hown : row.isOther row.interruptTool = false := by
          unfold ApprovalRow.namesOther at hnames
          rw [hmode, PyVal.pyEq_str, beq_self_eq_true, Bool.true_and, Bool.or_eq_false_iff] at hnames
          exact hnames.2
        unfold GraphResumeAdapter.interruptOf PyVal.or at ht
        rw [if_pos hinterrupt] at ht
        unfold ApprovalRow.interruptTool at hown
        rw [ht] at hown
        exact hown
      | false =>
        rw [Option.any_some, Bool.not_false, Bool.true_and, ← hsame]
        cases hother : row.isOther (Dict.get (c'.pendingInterrupt.getD []) "tool_name") with
        | true =>
          refine wp_mono (resumeClaimed_calls hinterrupt hother) ?_
          rintro r w' ⟨tool, htool, hne⟩
          exact iff_of_false (fun h => hne (h tool htool)) Bool.false_ne_true
        | false =>
          refine wp_mono (resumeClaimed_kept hlog hnames fun t ht => ?_) fun r w' h => iff_of_true h rfl
          rw [interruptOf_get hinterrupt] at ht
          obtain rfl := Except.ok.inj ht
          exact hother

end Graph

/-! ## Every resume -/

/-- **Which resumes keep the law.**  An approved approval is resumed with the tool of its record, and a payload
that names another tool is reported as tampered, exactly where `toolKept` says so. -/
theorem resume_keeps_tool_iff {env : Env} {db : Db} {a : ApprovalId} {row : ApprovalRow}
    (hrow : db.approvals[a]? = some row) (hst : row.status = .approved) :
    KeepsTool a row (serve env (resume env a) ⟨db, []⟩).1 (serve env (resume env a) ⟨db, []⟩).2.log ↔
      toolKept env db a row = true := by
  refine serve_of_wp (Q := fun r w' => KeepsTool a row r w'.log ↔ toolKept env db a row = true) ?_
  unfold toolKept
  cases hres : (Dict.get row.payloadDict "resumed").truthy with
  | true =>
    rw [if_pos rfl]
    refine wp_resume_consumed hrow hst hres fun w hquiet => ?_
    cases hnames : row.namesOther with
    | true => exact iff_of_false (not_keepsTool hnames (notTampered_ok (by simp [Dict.get, Dict.getD]))) nofun
    | false =>
      refine iff_of_true ((keepsTool_iff hnames).mpr ?_) rfl
      exact identity_of_log fun e he => ownCall_of_silent (hquiet e he)
  | false =>
    rw [if_neg Bool.false_ne_true]
    refine wp_resume_open hrow hst hres (fun hmode hid w hw => ?_) (fun hmode hid w hw => ?_) fun hmode w hw => ?_
    · rw [if_pos hmode]
      have hclaims : checkpointNamesOther env db a row = false := by
        unfold checkpointNamesOther
        rw [hid, Bool.false_and, Bool.false_and]
      rw [hclaims, Bool.not_false, Bool.and_true]
      cases hnames : row.namesOther with
      | true => exact iff_of_false (not_keepsTool hnames (notTampered_ok (by simp [Dict.get, Dict.getD]))) nofun
      | false =>
        refine iff_of_true ((keepsTool_iff hnames).mpr ?_) rfl
        exact identity_of_log fun e he => ownCall_of_silent (hw.quiet e he)
    · rw [if_pos hmode]
      exact graph_kept_iff hw (eq_of_pyEq hmode) hres hid
    · rw [hmode, if_neg Bool.false_ne_true]
      cases hkeyword : row.mode.pyEq (.str "keyword") with
      | true =>
        rw [if_pos rfl]
        exact resumeChecked_keyword hw.quiet (eq_of_pyEq hkeyword)
      | false =>
        rw [if_neg Bool.false_ne_true]
        cases hmultitool : row.mode.pyEq (.str "multitool") with
        | true =>
          rw [if_pos rfl]
          exact resumeChecked_multitool hw.quiet (eq_of_pyEq hmultitool)
        | false =>
          rw [if_neg Bool.false_ne_true]
          exact resumeChecked_unknown hw.quiet hmode hkeyword hmultitool

/-- An approval of `report` in graph mode, whose payload names `tool`. -/
def graphApproval (tool : String) : ApprovalRow :=
  ⟨"t", "report", "call report", .high, "read", "", .approved, some "admin", some "",
    some [("mode", .str "graph_keyword"), ("checkpoint_id", .str "c"), ("tool_name", .str tool)]⟩

/-- With its interrupted checkpoint. -/
def graphApprovalDb (tool : String) : Db where
  approvals := [graphApproval tool]
  tasks := fun _ => none
  checkpoints := [⟨"c", "t", some 0, none, none, .interrupted, none, [], none, none, none, false, none, 0, none⟩]

theorem resume_keeps_tool_iff_report :
    KeepsTool 0 (graphApproval "report") (serve demoEnv (resume demoEnv 0) ⟨graphApprovalDb "report", []⟩).1
        (serve demoEnv (resume demoEnv 0) ⟨graphApprovalDb "report", []⟩).2.log ↔
      toolKept demoEnv (graphApprovalDb "report") 0 (graphApproval "report") = true :=
  resume_keeps_tool_iff rfl rfl

theorem graphApproval_calls : (approvedTools 0 (serve demoEnv (resume demoEnv 0)
    ⟨graphApprovalDb "refund", []⟩).2.log).any (fun v => v.pyEq (.str "refund")) = true := by
  decide +kernel

/-- **The approved `report` is resumed as `refund`.** -/
theorem graph_resume_swaps_tool :
    ¬ KeepsTool 0 (graphApproval "refund") (serve demoEnv (resume demoEnv 0) ⟨graphApprovalDb "refund", []⟩).1
        (serve demoEnv (resume demoEnv 0) ⟨graphApprovalDb "refund", []⟩).2.log := by
  intro h
  obtain ⟨v, hv, hrefund⟩ := List.any_eq_true.mp graphApproval_calls
  have hsame := h.identity v hv
  rw [eq_of_pyEq hrefund] at hsame
  simp [graphApproval] at hsame

end AgentHarness
