import AgentHarness.Approvals
import AgentHarness.RuntimeAdapter

/-!
# Footprint — which operations each program can perform

`ResumeOp a` are the operations of a resume of approval `a`, on every path and for every payload.
Most arguments about a request only use its footprint: a program whose operations keep an invariant
keeps it (`wp_of_keeps`), whatever it computes.
-/

namespace AgentHarness

open Lib Py

/-- The trace and audit events that report a decision. -/
def decisionEvents : List String := ["approval_approved", "approval_rejected"]

def auditEvent (fields : Dict) : String := textOf (Dict.get fields "event_type")

theorem auditEvent_cons (e : String) (rest : Dict) : auditEvent (("event_type", .str e) :: rest) = e := by
  simp [auditEvent, Dict.get, Dict.getD, textOf]

/-- What `ApprovalResumeService` does in the modes `keyword` and `multitool`. -/
def ServiceOp (a : ApprovalId) : Op → Prop
  | .getApproval _ b | .setPayload b _ => b = a
  | .insertApproval row => row.status = .pending
  | .getTask _ | .getTool _ | .evaluate _ _ => True
  | .setTask _ st _ => st ≠ .cancelled
  | .gatewayCall (.approved b _) _ _ | .gatewayCall (.subsequent b _) _ _ => b = a
  | .trace e _ _ => e ∉ decisionEvents
  | .audit f => auditEvent f ∉ decisionEvents
  | _ => False

/-- What follows a successful call of the approved step, up to the bookkeeping of `resume`. -/
def TailOp (a : ApprovalId) : Op → Prop
  | .insertApproval row => row.status = .pending
  | .getTask _ | .getTool _ | .evaluate _ _ => True
  | .setTask _ st _ => st ≠ .cancelled
  | .gatewayCall (.subsequent b _) _ _ => b = a
  | .trace e _ _ => e ∉ decisionEvents
  | .audit f => auditEvent f ∉ decisionEvents
  | _ => False

theorem TailOp.service {a : ApprovalId} {o : Op} (h : TailOp a o) : ServiceOp a o := by
  cases o with
  | gatewayCall site tool args =>
    cases site with
    | subsequent b s => exact h
    | _ => exact h.elim
  | getApproval _ _ | setPayload _ _ => exact h.elim
  | _ => exact h

/-- What `GraphResumeAdapter` does. -/
def AdapterOp (a : ApprovalId) : Op → Prop
  | .getApproval _ b | .setPayload b _ | .claimForResume _ b _ => b = a
  | .getTask _ | .getCheckpoint _ | .markResumed _ _ _ | .now => True
  | .setTask _ st _ => st ≠ .cancelled
  | .gatewayCall (.graphResume b _) _ _ => b = a
  | .trace e _ _ => e ∉ decisionEvents
  | .audit f => auditEvent f ∉ decisionEvents
  | _ => False

/-- What a resume of `a` may do. -/
def ResumeOp (a : ApprovalId) (o : Op) : Prop := ServiceOp a o ∨ AdapterOp a o

section Parts

variable {P : Op → Prop}

theorem recordTrace_uses {e t : String} {d : Dict} (h : P (.trace e t d)) :
    (recordTrace e t d).Uses P :=
  Prog.Uses.tryCatch (Prog.uses_call.mpr h) fun _ => trivial

theorem traceTask_uses {e t : String} {d : Dict} (h : P (.trace e t d)) : (traceTask e t d).Uses P := by
  unfold traceTask
  split
  · exact Prog.uses_call.mpr h
  · trivial

theorem recordAudit_uses {f : Dict} (h : P (.audit f)) : (recordAudit f).Uses P :=
  Prog.Uses.tryCatch (Prog.uses_call.mpr h) fun _ => trivial

variable {a : ApprovalId} {e t : String} {d rest : Dict}

theorem quietTrace_adapterOp (h : e ∉ decisionEvents) : (recordTrace e t d).Uses (AdapterOp a) :=
  recordTrace_uses h

theorem audit_adapterOp (h : e ∉ decisionEvents) :
    (recordAudit (("event_type", .str e) :: rest)).Uses (AdapterOp a) := by
  refine recordAudit_uses ?_
  rwa [AdapterOp, auditEvent_cons]

theorem audit_tailOp (h : e ∉ decisionEvents) :
    (recordAudit (("event_type", .str e) :: rest)).Uses (TailOp a) := by
  refine recordAudit_uses ?_
  rwa [TailOp, auditEvent_cons]

theorem audit_serviceOp (h : e ∉ decisionEvents) :
    (recordAudit (("event_type", .str e) :: rest)).Uses (ServiceOp a) :=
  (audit_tailOp h).mono fun _ => TailOp.service

theorem updateTask_tailOp {taskId : String} {st : TaskStatus} {r : Option Dict} (h : st ≠ .cancelled) :
    (updateTaskStatus taskId st r).Uses (TailOp a) :=
  updateTaskStatus_uses trivial fun _ => h

theorem updateTask_uses {taskId : String} {st : TaskStatus} {r : Option Dict} (h : st ≠ .cancelled) :
    (updateTaskStatus taskId st r).Uses (ServiceOp a) :=
  (updateTask_tailOp h).mono fun _ => TailOp.service

theorem adapterPayload_uses {u : Dict} : (updatePayload a u).Uses (AdapterOp a) :=
  updatePayload_uses rfl fun _ => rfl

end Parts

namespace ApprovalResumeService

variable {env : Env} {a : ApprovalId} {taskId : String}

theorem trace_tailOp {e : String} {d : Dict} (h : e ∉ decisionEvents) :
    (traceTask e taskId d).Uses (TailOp a) := traceTask_uses h

theorem trace_serviceOp {e : String} {d : Dict} (h : e ∉ decisionEvents) :
    (traceTask e taskId d).Uses (ServiceOp a) := traceTask_uses h

theorem getToolVal_uses {P : Op → Prop} (h : ∀ t, P (.getTool t)) (v : PyVal) :
    (getToolVal v).Uses P := by
  unfold getToolVal
  split
  · exact Prog.uses_call.mpr (h _)
  · trivial
  · trivial
  · trivial

theorem gateStep_uses {P : Op → Prop} {stepId toolName arguments steps : PyVal} {spec : ToolSpec}
    {completed toolCalls : List PyVal} (he : ∀ t r, P (.evaluate t r))
    (hi : ∀ row, row.status = .pending → P (.insertApproval row)) :
    (gateStep env taskId stepId toolName arguments steps spec completed toolCalls).Uses P := by
  unfold gateStep
  split
  · trivial
  · refine Prog.uses_call_bind.mpr ⟨he _ _, fun d => ?_⟩
    split
    · trivial
    split
    · exact Prog.uses_call_bind.mpr ⟨hi _ rfl, fun _ => trivial⟩
    · trivial

theorem callStep_uses {stepId toolName arguments saveAs : PyVal} {saved : List (String × Saved)}
    {toolCalls : List PyVal} {next : List (String × Saved) → List PyVal → Py Dict}
    (hnext : ∀ saved toolCalls, (next saved toolCalls).Uses (TailOp a)) :
    (callStep env taskId a stepId toolName arguments saveAs saved toolCalls next).Uses
      (TailOp a) := by
  unfold callStep
  split
  · trivial
  refine (trace_tailOp (by decide)).bind fun _ => Prog.uses_call_bind.mpr ⟨rfl, fun r => ?_⟩
  dsimp only
  split
  · exact (trace_tailOp (by decide)).bind fun _ => trivial
  refine (trace_tailOp (by decide)).bind fun _ => ?_
  exact Prog.uses_ofExcept_bind fun saved _ => hnext ..

theorem executeSubsequentSteps_uses {steps : PyVal} (l : List PyVal) (completed : List PyVal)
    (saved : List (String × Saved)) (toolCalls : List PyVal) :
    (executeSubsequentSteps env taskId a steps l completed saved toolCalls).Uses (TailOp a) := by
  induction l generalizing completed saved toolCalls with
  | nil => trivial
  | cons s l ih =>
    unfold executeSubsequentSteps
    refine Prog.uses_ofExcept_bind fun stepId _ => Prog.uses_ofExcept_bind fun done _ => ?_
    split
    · exact ih ..
    refine Prog.uses_ofExcept_bind fun tool _ => Prog.uses_ofExcept_bind fun args _ =>
      Prog.uses_ofExcept_bind fun saveAs _ => Prog.uses_ofExcept_bind fun deps _ =>
      Prog.uses_ofExcept_bind fun missing _ => ?_
    split
    · exact (trace_tailOp (by decide)).bind fun _ => trivial
    refine (getToolVal_uses (fun _ => trivial) _).bind fun spec => ?_
    split
    · exact (trace_tailOp (by decide)).bind fun _ => trivial
    refine (gateStep_uses (fun _ _ => trivial) fun _ h => h).bind fun stopped => ?_
    split
    · trivial
    · exact callStep_uses fun saved toolCalls => ih ..

theorem resumeKeyword_uses {P : Op → Prop} (htail : ∀ o, TailOp a o → P o) {payload : Dict}
    (hcall : ∀ s args, P (.gatewayCall (.approved a s) (Dict.getD payload "tool_name" (.str "")) args)) :
    (resumeKeyword a taskId payload).Uses P := by
  unfold resumeKeyword
  refine ((trace_tailOp (by decide)).mono htail).bind fun _ => Prog.Uses.tryCatch ?_ fun exc => ?_
  · refine Prog.uses_call_bind.mpr ⟨hcall _ _, fun r => ?_⟩
    refine ((updateTask_tailOp (by split <;> decide)).mono htail).bind fun _ => ?_
    refine ((trace_tailOp (by decide)).mono htail).bind fun _ => ?_
    exact ((audit_tailOp (by decide)).mono htail).bind fun _ => trivial
  · refine ((updateTask_tailOp (by decide)).mono htail).bind fun _ => ?_
    refine ((trace_tailOp (by decide)).mono htail).bind fun _ => ?_
    exact ((audit_tailOp (by decide)).mono htail).bind fun _ => trivial

theorem continueMultitool_uses (planData stepId toolName : PyVal) (completed : List PyVal)
    (saved : List (String × Saved)) (toolCalls : List PyVal) (saveAs : PyVal) (r : ToolCallRecord) :
    (continueMultitool env a taskId planData stepId toolName completed saved toolCalls saveAs r).Uses
      (TailOp a) := by
  unfold continueMultitool
  refine (trace_tailOp (by decide)).bind fun _ => ?_
  refine Prog.uses_ofExcept_bind fun completed _ => Prog.uses_ofExcept_bind fun saved _ =>
    Prog.uses_ofExcept_bind fun steps _ => Prog.uses_ofExcept_bind fun stepList _ => ?_
  refine (executeSubsequentSteps_uses ..).bind fun subsequent => ?_
  split
  · refine (updateTask_tailOp (by decide)).bind fun _ => ?_
    exact (trace_tailOp (by decide)).bind fun _ => trivial
  · refine (updateTask_tailOp (by split <;> decide)).bind fun _ => ?_
    refine (trace_tailOp (by decide)).bind fun _ => ?_
    exact (audit_tailOp (by decide)).bind
      fun _ => trivial

theorem runApprovedStep_uses {P : Op → Prop} (htail : ∀ o, TailOp a o → P o)
    {planData stepId toolName args : PyVal} {completed toolCalls : List PyVal} {saved : List (String × Saved)}
    (hcall : P (.gatewayCall (.approved a stepId) toolName args)) :
    (runApprovedStep env a taskId planData stepId toolName args completed toolCalls saved).Uses P := by
  unfold runApprovedStep
  refine Prog.Uses.bind (Prog.Uses.tryCatch (Prog.uses_call_bind.mpr ⟨hcall, fun _ => trivial⟩)
    fun _ => trivial) fun outcome => ?_
  split
  · refine ((updateTask_tailOp (by decide)).mono htail).bind fun _ => ?_
    exact ((trace_tailOp (by decide)).mono htail).bind fun _ => trivial
  · refine Prog.uses_ofExcept_bind fun saveAs _ => ?_
    split
    · refine ((updateTask_tailOp (by decide)).mono htail).bind fun _ => ?_
      exact ((trace_tailOp (by decide)).mono htail).bind fun _ => trivial
    · exact (continueMultitool_uses ..).mono htail

/-- The approved step is reached only from a payload that reads and resolves. -/
theorem resumeMultitool_uses {P : Op → Prop} (htail : ∀ o, TailOp a o → P o) {payload : Dict}
    (hcall : ∀ completed toolCalls saved args,
      (Dict.getD payload "completed_step_ids" (.list [])).toSet = .ok completed →
      (Dict.getD payload "tool_calls" (.list [])).iter = .ok toolCalls → rebuildSaved toolCalls [] = .ok saved →
      resolveArguments env (Dict.getD payload "arguments" (.dict [])) saved = .ok args →
      ∀ s, P (.gatewayCall (.approved a s) (Dict.getD payload "tool_name" (.str "")) args)) :
    (resumeMultitool env a taskId payload).Uses P := by
  unfold resumeMultitool
  refine Prog.uses_ofExcept_bind fun completed hcompleted => Prog.uses_ofExcept_bind fun toolCalls htoolCalls =>
    Prog.uses_ofExcept_bind fun saved hsaved => ?_
  refine ((trace_tailOp (by decide)).mono htail).bind fun _ => ?_
  split
  · exact ((trace_tailOp (by decide)).mono htail).bind fun _ => trivial
  · rename_i args hargs
    refine ((trace_tailOp (by decide)).mono htail).bind fun _ => ?_
    exact runApprovedStep_uses htail (hcall completed toolCalls saved args hcompleted htoolCalls hsaved hargs _)

theorem runMode_uses (payload : Dict) (mode : PyVal) :
    (runMode env a taskId payload mode).Uses (ServiceOp a) := by
  unfold runMode
  split
  · exact resumeKeyword_uses (fun _ => TailOp.service) fun _ _ => rfl
  split
  · exact resumeMultitool_uses (fun _ => TailOp.service) fun _ _ _ _ _ _ _ _ _ => rfl
  · trivial

theorem settle_uses {P : Op → Prop} (hg : P (.getApproval .store a)) (hs : ∀ p, P (.setPayload a p))
    (result : Dict) : (settle a result).Uses P := by
  unfold settle
  split
  · exact (updatePayload_uses hg hs).bind fun _ => trivial
  · refine Prog.uses_call_bind.mpr ⟨hg, fun current => Prog.uses_ofExcept_bind fun n _ => ?_⟩
    exact (updatePayload_uses hg hs).bind fun _ => trivial

theorem resumeChecked_uses (approval : ApprovalRow) (payload : Dict) (mode : PyVal) :
    (resumeChecked env a approval payload mode).Uses (ServiceOp a) := by
  unfold resumeChecked
  refine Prog.uses_ofExcept_bind fun steps _ => Prog.uses_ofExcept_bind fun integrity _ => ?_
  split
  · refine (trace_serviceOp (by decide)).bind fun _ => ?_
    exact (audit_serviceOp (by decide)).bind
      fun _ => trivial
  · exact (runMode_uses ..).bind fun result =>
      Prog.Uses.bind (settle_uses (P := ServiceOp a) rfl (fun _ => rfl) result) fun _ => trivial

end ApprovalResumeService

namespace GraphResumeAdapter

variable {a : ApprovalId}

theorem claimForResume_uses {P : Op → Prop} {c : PyVal} (hn : P .now)
    (hc : ∀ t, P (.claimForResume c a t)) (hg : P (.getCheckpoint c)) :
    (claimForResume c a).Uses P := by
  unfold claimForResume
  refine Prog.uses_call_bind.mpr ⟨hn, fun t => Prog.uses_call_bind.mpr ⟨hc t, fun n => ?_⟩⟩
  split
  · trivial
  · exact Prog.uses_call.mpr hg

theorem handleClaimFailed_uses {P : Op → Prop} {c : PyVal} (hg : P (.getCheckpoint c)) :
    (handleClaimFailed a c).Uses P := by
  unfold handleClaimFailed
  refine Prog.uses_call_bind.mpr ⟨hg, fun row => ?_⟩
  split
  · trivial
  split
  · trivial
  split <;> trivial

theorem adapter_status (b : Bool) : (if b = true then TaskStatus.completed else .failed) ≠ .cancelled := by
  cases b <;> decide

theorem record_uses (taskId : String) (c tool : PyVal) (result : Dict) :
    (record a taskId c tool result).Uses (AdapterOp a) := by
  unfold record markResumed
  refine (updateTaskStatus_uses trivial fun _ => adapter_status _).bind fun _ => ?_
  refine Prog.Uses.bind (Prog.uses_call_bind.mpr ⟨trivial, fun _ => Prog.uses_call.mpr trivial⟩)
    fun _ => ?_
  refine adapterPayload_uses.bind fun _ => ?_
  refine (quietTrace_adapterOp (by decide)).bind fun _ => ?_
  exact (audit_adapterOp (by decide)).bind
    fun _ => trivial

theorem resumeClaimed_uses (approval : ApprovalRow) (c : PyVal) (claimed : CheckpointRow) :
    (resumeClaimed a approval c claimed).Uses (AdapterOp a) := by
  unfold resumeClaimed
  refine Prog.uses_ofExcept_bind fun tool _ => Prog.uses_ofExcept_bind fun args _ => ?_
  refine (quietTrace_adapterOp (by decide)).bind fun _ => ?_
  exact Prog.Uses.bind (Prog.Uses.tryCatch (Prog.uses_call_bind.mpr ⟨rfl, fun _ => trivial⟩)
    fun _ => trivial) fun result => record_uses ..

theorem resume_uses (approval : ApprovalRow) : (resume a approval).Uses (AdapterOp a) := by
  unfold resume
  dsimp only
  split
  · trivial
  split
  · trivial
  split
  · trivial
  · refine (claimForResume_uses trivial (fun _ => rfl) trivial).bind fun claimed => ?_
    split
    · exact handleClaimFailed_uses trivial
    · exact resumeClaimed_uses ..

end GraphResumeAdapter

section Requests

variable {env : Env} {a : ApprovalId}

theorem ApprovalResumeService.resumeApproved_uses (approval : ApprovalRow) :
    (resumeApproved env a approval).Uses (ResumeOp a) := by
  unfold resumeApproved
  refine ((trace_serviceOp (by decide)).mono fun _ => .inl).bind fun _ => ?_
  refine ((audit_serviceOp (by decide)).mono fun _ => .inl).bind fun _ => ?_
  split
  · split
    · trivial
    · exact (GraphResumeAdapter.resume_uses _).mono fun _ => .inr
  · exact (resumeChecked_uses ..).mono fun _ => .inl

theorem ApprovalResumeService.resume_uses : (resume env a).Uses (ResumeOp a) := by
  unfold resume
  refine Prog.uses_call_bind.mpr ⟨.inl rfl, fun row => ?_⟩
  split
  · trivial
  split
  · trivial
  split
  · trivial
  · exact resumeApproved_uses ..

theorem resumeUnblocked_uses : (resumeUnblocked env a).Uses (ResumeOp a) := by
  unfold resumeUnblocked
  refine Prog.uses_call_bind.mpr ⟨.inl rfl, fun row => ?_⟩
  split
  · trivial
  dsimp only
  split
  · refine ((quietTrace_adapterOp (by decide)).mono fun _ => .inr).bind fun _ => ?_
    exact ((audit_adapterOp (by decide)).mono fun _ => .inr).bind fun _ => trivial
  · exact ApprovalResumeService.resume_uses

theorem doResume_uses : (doResume env a).Uses (ResumeOp a) :=
  Prog.Uses.tryCatch resumeUnblocked_uses fun _ => trivial

theorem autoResume_uses (req : DecideRequest) : (autoResume env a req).Uses (ResumeOp a) := by
  unfold autoResume
  split
  · exact doResume_uses.bind fun _ => trivial
  · trivial

/-! ## The endpoints -/

/-- The store operations of `decide_approval` with status `st`. -/
def DecideOp (a : ApprovalId) (st : ApprovalStatus) : Op → Prop
  | .getApproval site b => b = a ∧ site ≠ .resumeCheck
  | .selectPending b => b = a
  | .decidePending b st' _ _ | .commitDecision b st' _ _ => b = a ∧ st' = st
  | _ => False

theorem readStore_decideOp {st : ApprovalStatus} : DecideOp a st (.getApproval .store a) := ⟨rfl, nofun⟩

theorem readRequest_decideOp {st : ApprovalStatus} : DecideOp a st (.getApproval .request a) := ⟨rfl, nofun⟩

theorem decideApproval_uses {backend : Backend} {approved : Bool} {by' reason : String} :
    (decideApproval backend a approved by' reason).Uses (DecideOp a (decidedStatus approved)) := by
  cases backend with
  | sqlite =>
    unfold decideApproval decideApprovalSqlite
    refine Prog.uses_call_bind.mpr ⟨readStore_decideOp, fun row => ?_⟩
    split
    · trivial
    split
    · trivial
    · exact Prog.uses_call_bind.mpr ⟨⟨rfl, rfl⟩, fun _ =>
        Prog.uses_call_bind.mpr ⟨readStore_decideOp, fun _ => trivial⟩⟩
  | postgres =>
    unfold decideApproval decideApprovalPostgres
    refine Prog.uses_call_bind.mpr ⟨readStore_decideOp, fun row => ?_⟩
    split
    · trivial
    split
    · trivial
    refine Prog.uses_call_bind.mpr ⟨rfl, fun found => ?_⟩
    split
    · trivial
    · exact Prog.uses_call_bind.mpr ⟨⟨rfl, rfl⟩, fun _ =>
        Prog.uses_call_bind.mpr ⟨readStore_decideOp, fun _ => trivial⟩⟩

/-- What an approval with its resume may do. -/
def ApproveOp (a : ApprovalId) (o : Op) : Prop :=
  ResumeOp a o ∨ DecideOp a .approved o ∨ match o with
    | .trace _ _ _ | .audit _ => True
    | _ => False

/-- What a rejection may do. -/
def RejectOp (a : ApprovalId) (o : Op) : Prop :=
  DecideOp a .rejected o ∨ match o with
    | .trace _ _ _ | .audit _ | .getTask _ | .markCancelled _ _ | .getCheckpoint _ => True
    | .setTask _ st _ => st = .cancelled
    | _ => False

theorem recordDecision_uses {P : Op → Prop} {previous : ApprovalRow} {taskId status action : String}
    {req : DecideRequest} (ht : ∀ e t d, P (.trace e t d)) (ha : ∀ f, P (.audit f)) :
    (recordDecision a previous taskId status action req).Uses P :=
  (recordTrace_uses (ht _ _ _)).bind fun _ => recordAudit_uses (ha _)

theorem checkApproveReason_uses {P : Op → Prop} {previous : ApprovalRow} {req : DecideRequest}
    (ht : ∀ e t d, P (.trace e t d)) (ha : ∀ f, P (.audit f)) :
    (checkApproveReason env a previous req).Uses P := by
  unfold checkApproveReason
  split
  · trivial
  dsimp only
  split
  · trivial
  · exact (recordTrace_uses (ht _ _ _)).bind fun _ => recordAudit_uses (ha _)

theorem approvePending_uses {backend : Backend} {previous : ApprovalRow} {req : DecideRequest} :
    (approvePending env backend a previous req).Uses (ApproveOp a) := by
  unfold approvePending
  refine (decideApproval_uses.mono fun o h => .inr (.inl h)).bind fun decided =>
    Prog.uses_ofExcept_bind fun result _ => ?_
  split
  · exact (recordTrace_uses (.inr (.inr trivial))).bind fun _ => trivial
  · refine (recordDecision_uses (fun _ _ _ => .inr (.inr trivial)) fun _ => .inr (.inr trivial)).bind
      fun _ => ?_
    exact ((autoResume_uses req).mono fun _ => .inl).bind fun _ => trivial

theorem approve_uses {backend : Backend} {req : DecideRequest} :
    (approve env backend a req).Uses (ApproveOp a) := by
  unfold approve
  refine Prog.uses_call_bind.mpr ⟨.inr (.inl readRequest_decideOp), fun row => ?_⟩
  split
  · trivial
  refine (checkApproveReason_uses (fun _ _ _ => .inr (.inr trivial))
    fun _ => .inr (.inr trivial)).bind fun _ => ?_
  split
  · trivial
  split
  · exact ((autoResume_uses req).mono fun _ => .inl).bind fun _ => trivial
  · exact approvePending_uses

theorem cancelTask_uses {taskId reason : String} : (cancelTask taskId a reason).Uses (RejectOp a) := by
  unfold cancelTask
  refine Prog.Uses.tryCatch (Prog.Uses.bind ?_ fun _ => ?_) fun _ => trivial
  · exact updateTaskStatus_uses (.inr trivial) fun _ => .inr rfl
  · trivial

theorem cancelGraphCheckpointIfNeeded_uses {decided : Dict} {reason : String} :
    (cancelGraphCheckpointIfNeeded decided reason).Uses (RejectOp a) := by
  unfold cancelGraphCheckpointIfNeeded markCancelled
  refine Prog.uses_ofExcept_bind fun checkpointId _ => Prog.uses_ofExcept_bind fun mode _ => ?_
  split
  · trivial
  · refine Prog.Uses.tryCatch (Prog.Uses.bind ?_ fun _ => ?_) fun _ => trivial
    · exact Prog.uses_call_bind.mpr ⟨.inr trivial, fun _ => Prog.uses_call.mpr (.inr trivial)⟩
    · trivial

theorem cancelRejected_uses {result : Dict} {req : DecideRequest} :
    (cancelRejected a result req).Uses (RejectOp a) := by
  unfold cancelRejected cancelEffects
  refine Prog.Uses.bind ?_ fun _ => trivial
  split
  · trivial
  · refine cancelTask_uses.bind fun _ => cancelGraphCheckpointIfNeeded_uses.bind fun _ => ?_
    exact (recordTrace_uses (.inr trivial)).bind fun _ => trivial

theorem reject_uses {backend : Backend} {req : DecideRequest} :
    (reject env backend a req).Uses (RejectOp a) := by
  unfold reject
  refine Prog.uses_call_bind.mpr ⟨.inl readRequest_decideOp, fun row => ?_⟩
  split
  · trivial
  refine (decideApproval_uses.mono fun o h => .inl h).bind fun decided =>
    Prog.uses_ofExcept_bind fun result _ => ?_
  split
  · exact (recordTrace_uses (.inr trivial)).bind fun _ => trivial
  · exact (recordDecision_uses (fun _ _ _ => .inr trivial) fun _ => .inr trivial).bind
      fun _ => cancelRejected_uses

theorem manualResumeApproval_uses : (manualResumeApproval env a).Uses (ResumeOp a) := by
  unfold manualResumeApproval
  refine Prog.uses_call_bind.mpr ⟨.inl rfl, fun row => ?_⟩
  split
  · trivial
  split
  · trivial
  split
  · trivial
  · exact doResume_uses.bind fun _ => trivial

end Requests

/-! ## The graph run -/

/-- A row as `_checkpoint` creates it. -/
structure FreshCheckpoint (r : CheckpointRow) : Prop where
  notConsumed : r.consumed = false
  noApproval : r.approvalId = none
  status : r.status ∈ [.running, .completed, .failed, .blocked, .interrupted]

/-- What `run_keyword` may do. -/
def RunKeywordOp : Op → Prop
  | .insertApproval row => row.status = .pending
  | .insertCheckpoint row => FreshCheckpoint row
  | .getCheckpoint _ | .markPendingInterrupt _ _ _ _ | .now | .uuid | .getTool _ => True
  | .evaluate _ _ | .trace _ _ _ | .audit _ => True
  | .gatewayCall site _ _ => site = .graphKeyword
  | _ => False

namespace GraphRuntimeAdapter

variable {env : Env}

theorem checkpoint_uses {P : Op → Prop} {state : GraphRuntimeState} {stage : String}
    {status : CheckpointStatus} (hs : status ∈ [.running, .completed, .failed, .blocked, .interrupted])
    (hu : P .uuid) (hi : ∀ row, FreshCheckpoint row → P (.insertCheckpoint row))
    (hg : ∀ c, P (.getCheckpoint c)) (ht : ∀ e t d, P (.trace e t d)) :
    (checkpoint env state stage status).Uses P := by
  unfold checkpoint createCheckpoint
  refine Prog.uses_call_bind.mpr ⟨hu, fun hex => Prog.uses_ofExcept_bind fun runId _ => ?_⟩
  refine Prog.Uses.bind (Prog.uses_call_bind.mpr ⟨hi _ ⟨rfl, rfl, hs⟩, fun _ =>
    Prog.uses_call_bind.mpr ⟨hg _, fun row => ?_⟩⟩) fun _ => ?_
  · split <;> trivial
  · exact (recordTrace_uses (ht _ _ _)).bind fun _ => trivial

theorem checkpoint_runKeywordOp {state : GraphRuntimeState} {stage : String}
    {status : CheckpointStatus} (hs : status ∈ [.running, .completed, .failed, .blocked, .interrupted]) :
    (checkpoint env state stage status).Uses RunKeywordOp :=
  checkpoint_uses hs trivial (fun _ h => h) (fun _ => trivial) fun _ _ _ => trivial

theorem fail_uses (state : GraphRuntimeState) (exc : PyExc) :
    (fail env state exc).Uses RunKeywordOp :=
  (checkpoint_runKeywordOp (by decide)).bind fun _ => trivial

theorem guarded_uses {α : Type} {state : GraphRuntimeState} {p : Py α} {k : α → Py Dict}
    (hp : p.Uses RunKeywordOp) (hk : ∀ a, (k a).Uses RunKeywordOp) :
    (guarded env state p k).Uses RunKeywordOp := by
  unfold guarded
  refine Prog.Uses.bind (Prog.Uses.tryCatch (hp.bind fun _ => ?_) fun _ => ?_) fun outcome => ?_
  · trivial
  · trivial
  split
  · exact fail_uses ..
  · exact hk _

theorem respond_uses {state : GraphRuntimeState} {response : Dict} {error : Option String}
    {status : CheckpointStatus} (hs : status ∈ [.running, .completed, .failed, .blocked, .interrupted]) :
    (respond env state response error status).Uses RunKeywordOp :=
  guarded_uses (checkpoint_runKeywordOp hs) fun _ => trivial

theorem interrupt_uses {state : GraphRuntimeState} {toolName : String} {spec : ToolSpec}
    {decision : Decision} : (interrupt env state toolName spec decision).Uses RunKeywordOp := by
  unfold interrupt
  dsimp only
  refine guarded_uses (checkpoint_runKeywordOp (by split <;> decide)) fun c => ?_
  refine guarded_uses ?_ fun _ => Prog.uses_pure _
  refine Prog.uses_call_bind.mpr ⟨trivial, fun createdAt => ?_⟩
  split
  · trivial
  · unfold createApproval markPendingInterrupt
    refine Prog.uses_call_bind.mpr ⟨rfl, fun approval => ?_⟩
    refine Prog.Uses.bind ?_ fun _ => ?_
    · exact Prog.uses_call_bind.mpr ⟨trivial, fun _ => Prog.uses_call.mpr trivial⟩
    · exact Prog.Uses.bind (recordAudit_uses trivial) fun _ => trivial

theorem callTool_uses {planner : Planner} {state : GraphRuntimeState} {toolName : String} :
    (callTool env planner state toolName).Uses RunKeywordOp := by
  unfold callTool
  refine guarded_uses ?_ fun x => ?_
  · exact Prog.uses_call_bind.mpr ⟨rfl, fun r => Prog.uses_ofExcept_bind fun _ _ => trivial⟩
  dsimp only
  refine guarded_uses (checkpoint_runKeywordOp (by decide)) fun _ => ?_
  refine guarded_uses (checkpoint_runKeywordOp (by decide)) fun _ => ?_
  exact respond_uses (by split <;> decide)

theorem runKeyword_uses {planner : Planner} {taskId query : String} :
    (runKeyword env planner taskId query).Uses RunKeywordOp := by
  unfold runKeyword
  dsimp only
  refine guarded_uses (checkpoint_runKeywordOp (by decide)) fun _ => ?_
  refine guarded_uses (checkpoint_runKeywordOp (by decide)) fun _ => ?_
  unfold execute
  split
  · exact respond_uses (by decide)
  split
  · exact respond_uses (by decide)
  refine guarded_uses (Prog.uses_call.mpr trivial) fun spec => ?_
  split
  · exact respond_uses (by decide)
  refine guarded_uses (Prog.uses_call.mpr trivial) fun decision => ?_
  split
  · exact interrupt_uses
  · exact callTool_uses

end GraphRuntimeAdapter

end AgentHarness
