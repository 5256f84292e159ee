import AgentHarness.Footprint

/-!
# TaskFootprint — which task a resume writes

Every status that a resume writes is written to the task of the approval that it read at the start, and never the
status of a cancellation (`resumeApproved_writes`).
-/

namespace AgentHarness

open Lib Py

/-- Writes no task but `T`. -/
def WritesTask (T : String) : Op → Prop
  | .setTask T' _ _ => T' = T
  | _ => True

section Parts

variable {T e : String} {d f : Dict}

theorem traceTask_writes {task : String} : (traceTask e task d).Uses (WritesTask T) := traceTask_uses trivial

theorem recordTrace_writes {task : String} : (recordTrace e task d).Uses (WritesTask T) := recordTrace_uses trivial

theorem recordAudit_writes : (recordAudit f).Uses (WritesTask T) := recordAudit_uses trivial

theorem updateTaskStatus_writes {st : TaskStatus} {r : Option Dict} :
    (updateTaskStatus T st r).Uses (WritesTask T) :=
  updateTaskStatus_uses trivial fun _ => rfl

theorem updatePayload_writes {a : ApprovalId} {u : Dict} : (updatePayload a u).Uses (WritesTask T) :=
  updatePayload_uses trivial fun _ => trivial

end Parts

namespace ApprovalResumeService

variable {env : Env} {a : ApprovalId} {T : String}

theorem callStep_writes {stepId toolName arguments saveAs : PyVal} {saved : List (String × Saved)}
    {toolCalls : List PyVal} {next : List (String × Saved) → List PyVal → Py Dict}
    (hnext : ∀ saved toolCalls, (next saved toolCalls).Uses (WritesTask T)) :
    (callStep env T a stepId toolName arguments saveAs saved toolCalls next).Uses (WritesTask T) := by
  unfold callStep
  split
  · trivial
  refine traceTask_writes.bind fun _ => Prog.uses_call_bind.mpr ⟨trivial, fun r => ?_⟩
  dsimp only
  split
  · exact traceTask_writes.bind fun _ => trivial
  · exact traceTask_writes.bind fun _ => Prog.uses_ofExcept_bind fun saved _ => hnext ..

theorem executeSubsequentSteps_writes {steps : PyVal} (l : List PyVal) (completed : List PyVal)
    (saved : List (String × Saved)) (toolCalls : List PyVal) :
    (executeSubsequentSteps env T a steps l completed saved toolCalls).Uses (WritesTask T) := by
  induction l generalizing completed saved toolCalls with
  | nil => trivial
  | cons s l ih =>
    unfold executeSubsequentSteps
    refine Prog.uses_ofExcept_bind fun stepId _ => Prog.uses_ofExcept_bind fun done _ => ?_
    split
    · exact ih ..
    refine Prog.uses_ofExcept_bind fun tool _ => Prog.uses_ofExcept_bind fun args _ =>
      Prog.uses_ofExcept_bind fun saveAs _ => Prog.uses_ofExcept_bind fun deps _ =>
      Prog.uses_ofExcept_bind fun missing _ => ?_
    split
    · exact traceTask_writes.bind fun _ => trivial
    refine (getToolVal_uses (fun _ => trivial) _).bind fun spec => ?_
    split
    · exact traceTask_writes.bind fun _ => trivial
    refine (gateStep_uses (fun _ _ => trivial) fun _ _ => trivial).bind fun stopped => ?_
    split
    · trivial
    · exact callStep_writes fun saved toolCalls => ih ..

theorem resumeKeyword_writes {payload : Dict} : (resumeKeyword a T payload).Uses (WritesTask T) := by
  unfold resumeKeyword
  refine traceTask_writes.bind fun _ => Prog.Uses.tryCatch ?_ fun exc => ?_
  · refine Prog.uses_call_bind.mpr ⟨trivial, fun r => updateTaskStatus_writes.bind fun _ => ?_⟩
    exact traceTask_writes.bind fun _ => recordAudit_writes.bind fun _ => trivial
  · refine updateTaskStatus_writes.bind fun _ => ?_
    exact traceTask_writes.bind fun _ => recordAudit_writes.bind fun _ => trivial

theorem continueMultitool_writes {planData stepId toolName saveAs : PyVal} {completed toolCalls : List PyVal}
    {saved : List (String × Saved)} {r : ToolCallRecord} :
    (continueMultitool env a T planData stepId toolName completed saved toolCalls saveAs r).Uses
      (WritesTask T) := by
  unfold continueMultitool
  refine traceTask_writes.bind fun _ => ?_
  refine Prog.uses_ofExcept_bind fun completed _ => Prog.uses_ofExcept_bind fun saved _ =>
    Prog.uses_ofExcept_bind fun steps _ => Prog.uses_ofExcept_bind fun stepList _ => ?_
  refine (executeSubsequentSteps_writes ..).bind fun subsequent => ?_
  split
  · exact updateTaskStatus_writes.bind fun _ => traceTask_writes.bind fun _ => trivial
  · refine updateTaskStatus_writes.bind fun _ => traceTask_writes.bind fun _ => ?_
    exact recordAudit_writes.bind fun _ => trivial

theorem runApprovedStep_writes {planData stepId toolName args : PyVal} {completed toolCalls : List PyVal}
    {saved : List (String × Saved)} :
    (runApprovedStep env a T planData stepId toolName args completed toolCalls saved).Uses (WritesTask T) := by
  unfold runApprovedStep
  refine Prog.Uses.bind (Prog.Uses.tryCatch (Prog.uses_call_bind.mpr ⟨trivial, fun _ => trivial⟩)
    fun _ => trivial) fun outcome => ?_
  split
  · exact updateTaskStatus_writes.bind fun _ => traceTask_writes.bind fun _ => trivial
  · refine Prog.uses_ofExcept_bind fun saveAs _ => ?_
    split
    · exact updateTaskStatus_writes.bind fun _ => traceTask_writes.bind fun _ => trivial
    · exact continueMultitool_writes

theorem resumeMultitool_writes {payload : Dict} : (resumeMultitool env a T payload).Uses (WritesTask T) := by
  unfold resumeMultitool
  refine Prog.uses_ofExcept_bind fun completed _ => Prog.uses_ofExcept_bind fun toolCalls _ =>
    Prog.uses_ofExcept_bind fun saved _ => traceTask_writes.bind fun _ => ?_
  split
  · exact traceTask_writes.bind fun _ => trivial
  · exact traceTask_writes.bind fun _ => runApprovedStep_writes

theorem runMode_writes {payload : Dict} {mode : PyVal} : (runMode env a T payload mode).Uses (WritesTask T) := by
  unfold runMode
  split
  · exact resumeKeyword_writes
  split
  · exact resumeMultitool_writes
  · trivial

theorem resumeChecked_writes {approval : ApprovalRow} {payload : Dict} {mode : PyVal} :
    (resumeChecked env a approval payload mode).Uses (WritesTask approval.taskId) := by
  unfold resumeChecked
  refine Prog.uses_ofExcept_bind fun steps _ => Prog.uses_ofExcept_bind fun integrity _ => ?_
  split
  · exact traceTask_writes.bind fun _ => recordAudit_writes.bind fun _ => trivial
  · refine runMode_writes.bind fun result => Prog.Uses.bind ?_ fun _ => trivial
    exact settle_uses trivial (fun _ => trivial) result

end ApprovalResumeService

namespace GraphResumeAdapter

variable {a : ApprovalId} {T : String}

theorem record_writes {c tool : PyVal} {result : Dict} : (record a T c tool result).Uses (WritesTask T) := by
  unfold record markResumed
  refine updateTaskStatus_writes.bind fun _ => Prog.Uses.bind ?_ fun _ => ?_
  · exact Prog.uses_call_bind.mpr ⟨trivial, fun _ => Prog.uses_call.mpr trivial⟩
  · refine updatePayload_writes.bind fun _ => recordTrace_writes.bind fun _ => ?_
    exact recordAudit_writes.bind fun _ => trivial

theorem resume_writes {approval : ApprovalRow} : (resume a approval).Uses (WritesTask approval.taskId) := by
  unfold resume
  dsimp only
  split
  · trivial
  split
  · trivial
  split
  · trivial
  refine (claimForResume_uses trivial (fun _ => trivial) trivial).bind fun claimed => ?_
  split
  · exact handleClaimFailed_uses trivial
  · unfold resumeClaimed
    refine Prog.uses_ofExcept_bind fun tool _ => Prog.uses_ofExcept_bind fun args _ => ?_
    refine recordTrace_writes.bind fun _ => Prog.Uses.bind ?_ fun result => record_writes
    exact Prog.Uses.tryCatch (Prog.uses_call_bind.mpr ⟨trivial, fun _ => trivial⟩) fun _ => trivial

end GraphResumeAdapter

/-- **What a resume writes** is the task of its approval. -/
theorem ApprovalResumeService.resumeApproved_writes {env : Env} {a : ApprovalId} {approval : ApprovalRow} :
    (resumeApproved env a approval).Uses (WritesTask approval.taskId) := by
  unfold resumeApproved
  refine traceTask_writes.bind fun _ => recordAudit_writes.bind fun _ => ?_
  split
  · split
    · trivial
    · exact GraphResumeAdapter.resume_writes
  · exact resumeChecked_writes

/-- What the cancellation after a rejection does. -/
theorem cancelEffects_uses {P : Op → Prop} {a : ApprovalId} {result : Dict} {taskId : String} {req : DecideRequest}
    (hget : ∀ T, P (.getTask T)) (hset : ∀ T r, P (.setTask T .cancelled r)) (hmark : ∀ c r, P (.markCancelled c r))
    (hread : ∀ c, P (.getCheckpoint c)) (htrace : ∀ e t d, P (.trace e t d)) :
    (cancelEffects a result taskId req).Uses P := by
  unfold cancelEffects
  split
  · trivial
  refine Prog.Uses.bind (Prog.Uses.tryCatch (Prog.Uses.bind ?_ fun _ => trivial) fun _ => trivial) fun _ => ?_
  · exact updateTaskStatus_uses (hget _) fun _ => hset _ _
  refine Prog.Uses.bind ?_ fun _ => (recordTrace_uses (htrace _ _ _)).bind fun _ => trivial
  refine Prog.uses_ofExcept_bind fun c _ => Prog.uses_ofExcept_bind fun mode _ => ?_
  split
  · trivial
  refine Prog.Uses.tryCatch (Prog.Uses.bind ?_ fun _ => trivial) fun _ => trivial
  exact Prog.uses_call_bind.mpr ⟨hmark _ _, fun _ => Prog.uses_call.mpr (hread _)⟩

end AgentHarness
