import AgentHarness.TaskRequests
import AgentHarness.TaskFootprint
import AgentHarness.Lib.Rely

/-!
# ApprovedCalls — no tool is called on behalf of an approval that was not approved

`resume` reads the approval and goes on only if it is approved; everything it calls and every status it writes comes
after that reading.  So every request keeps to `approvalContract`: it calls a tool on behalf of an approval, or
settles its task, only when it knows of a reading that showed the approval approved.  From this, in every run and
whatever stores fail, a call on behalf of an approval comes after the decision that approved it (`CallsApproved`).
With `SQLiteApprovalStore`, whose update asks for a pending row, a decision is never overwritten, so an approval
whose tool was called stays approved (`StaysApproved`): one that is rejected is never executed, neither before nor
after.
-/

namespace AgentHarness

open Lib Py ApprovalResumeService

/-- A tool call on behalf of approval `a`: its own tool, or a later step of its plan. -/
def Op.callsFor (a : ApprovalId) : Op → Bool
  | .gatewayCall (.approved b _) _ _ | .gatewayCall (.subsequent b _) _ _ | .gatewayCall (.graphResume b _) _ _ =>
    b == a
  | _ => false

def callsFor (a : ApprovalId) (e : AppEvent) : Bool :=
  match e.op with
  | .inl o => o.callsFor a
  | .inr _ => false

/-- A statement that stores the approval of `a`. -/
def approves (a : ApprovalId) (e : AppEvent) : Bool :=
  match e.op with
  | .inl o => o.decides a .approved
  | .inr _ => false

/-- The status of task `T` is written, and it is not that of a cancellation. -/
def Op.settles (T : String) : Op → Bool
  | .setTask T' st _ => T' == T && st != .cancelled
  | _ => false

def settlesTask (T : String) (e : AppEvent) : Bool :=
  match e.op with
  | .inl o => o.settles T
  | .inr _ => false

/-- The approval and its row, if the event is a reading that shows the approval approved. -/
def approvedReading : AppEvent → Option (ApprovalId × ApprovalRow)
  | ⟨_, .inl (.getApproval _ a), .ok (some row)⟩ => if row.status = .approved then some (a, row) else none
  | _ => none

/-- Some event shows `a` approved. -/
def ShownApproved (a : ApprovalId) (known : List AppEvent) : Prop := ∃ e ∈ known, ∃ row, approvedReading e = some (a, row)

/-- Some event shows an approval of task `T` approved. -/
def ShownFor (T : String) (known : List AppEvent) : Prop :=
  ∃ e ∈ known, ∃ a row, approvedReading e = some (a, row) ∧ row.taskId = T

/-- The approval was approved before the run, or a statement of the log approved it. -/
def Approved (a : ApprovalId) (db : Db) (log : List AppEvent) : Prop :=
  (∃ row, db.approvals[a]? = some row ∧ row.status = .approved) ∨ ∃ e ∈ log, approves a e = true

/-- **Every call on behalf of `a` comes after its approval.** -/
def CallsFollowApproval (a : ApprovalId) (db : Db) (log : List AppEvent) : Prop :=
  ∀ pre e post, log = pre ++ e :: post → callsFor a e = true → Approved a db pre

/-! ## The contract of the requests -/

/-- What a request guarantees of its next operation. -/
structure Guaranteed (backend : Backend) (known : List AppEvent) (o : Op) : Prop where
  calls : ∀ a, o.callsFor a = true → ShownApproved a known
  settles : ∀ T, o.settles T = true → ShownFor T known
  inserts : ∀ row, o = .insertApproval row → row.status = .pending
  decides : ∀ a st d r, o = .commitDecision a st d r → backend = .postgres

def approvalContract (backend : Backend) : Contract AppOp AppAns PyExc where
  guarantee known x :=
    match x with
    | .inl o => Guaranteed backend known o
    | .inr _ => True
  rely _ _ _ := True

/-- The contract, for the operations of `Op`. -/
abbrev approvalMachine (backend : Backend) (t : Nat) : Machine Op Ans PyExc (List AppEvent) :=
  ((approvalContract backend).machine t).left

/-- Neither a call, nor a status, nor a statement on the approvals that the contract restricts. -/
def Op.harmless : Op → Bool
  | .gatewayCall _ _ _ | .setTask _ _ _ | .insertApproval _ | .commitDecision _ _ _ _ => false
  | _ => true

section Conformance

variable {backend : Backend} {a b : ApprovalId} {t : Nat} {known : List AppEvent} {o : Op} {env : Env} {T : String}

theorem Guaranteed.harmless (h : o.harmless = true) : Guaranteed backend known o := by
  cases o with
  | gatewayCall _ _ _ | setTask _ _ _ | insertApproval _ | commitDecision _ _ _ _ => cases h
  | _ => exact ⟨fun _ h => (by cases h), fun _ h => (by cases h), fun _ h => (by cases h), fun _ _ _ _ h => (by cases h)⟩

theorem Guaranteed.cancels {r : Option Dict} : Guaranteed backend known (.setTask T .cancelled r) := by
  refine ⟨fun _ h => (by cases h), fun T' h => ?_, fun _ h => (by cases h), fun _ _ _ _ h => (by cases h)⟩
  unfold Op.settles at h
  rw [Bool.and_eq_true] at h
  exact absurd h.2 Bool.false_ne_true

theorem Guaranteed.mono (h : Guaranteed backend [] o) : Guaranteed backend known o := by
  refine ⟨fun a hcall => ?_, fun T hsettles => ?_, h.inserts, h.decides⟩
  · obtain ⟨e, he, -⟩ := h.calls a hcall
    cases he
  · obtain ⟨e, he, -⟩ := h.settles T hsettles
    cases he

/-- Operations that are guaranteed without any knowledge. -/
theorem safe_of_uses {α : Type} {p : Py α} (h : p.Uses (Guaranteed backend [])) :
    (approvalMachine backend t).Safe p :=
  Machine.Safe.of_uses (fun _ ho _ => Guaranteed.mono ho) h

/-- What a resume of `b` does for the task `T`, by whoever knows that `b` is approved. -/
theorem guaranteed_resumeOp (hshown : ∃ e ∈ known, ∃ row, approvedReading e = some (b, row) ∧ row.taskId = T)
    (h : ResumeOp b o) (hT : WritesTask T o) : Guaranteed backend known o := by
  obtain ⟨e, he, row, hrow, htask⟩ := hshown
  refine ⟨fun a hcall => ⟨e, he, row, ?_⟩, fun T' hsettles => ⟨e, he, b, row, hrow, ?_⟩, fun new hnew => ?_,
    fun c st d r hcommit => ?_⟩
  · cases o with
    | gatewayCall site tool args =>
      cases site with
      | approved c s =>
        obtain rfl : c = b := h.elim id False.elim
        exact beq_iff_eq.mp hcall ▸ hrow
      | subsequent c s =>
        obtain rfl : c = b := h.elim id False.elim
        exact beq_iff_eq.mp hcall ▸ hrow
      | graphResume c checkpoint =>
        obtain rfl : c = b := h.elim False.elim id
        exact beq_iff_eq.mp hcall ▸ hrow
      | _ => cases hcall
    | _ => cases hcall
  · cases o with
    | setTask T₁ st r =>
      obtain rfl : T₁ = T := hT
      unfold Op.settles at hsettles
      rw [Bool.and_eq_true, beq_iff_eq] at hsettles
      exact htask.trans hsettles.1
    | _ => cases hsettles
  · subst hnew
    exact h.elim id False.elim
  · subst hcommit
    exact (h.elim id id : False).elim

theorem recordTrace_guaranteed {e task : String} {d : Dict} : (recordTrace e task d).Uses (Guaranteed backend []) :=
  recordTrace_uses (.harmless rfl)

theorem recordAudit_guaranteed {f : Dict} : (recordAudit f).Uses (Guaranteed backend []) :=
  recordAudit_uses (.harmless rfl)

/-- `decide_approval` updates by key only on Postgres. -/
theorem decideApproval_guaranteed {approved : Bool} {decidedBy reason : String} :
    (decideApproval backend b approved decidedBy reason).Uses (Guaranteed backend []) := by
  cases backend with
  | sqlite =>
    refine Prog.uses_call_bind.mpr ⟨.harmless rfl, fun row => ?_⟩
    split
    · trivial
    split
    · trivial
    refine Prog.uses_call_bind.mpr ⟨.harmless rfl, fun _ => ?_⟩
    exact Prog.uses_call_bind.mpr ⟨.harmless rfl, fun _ => trivial⟩
  | postgres =>
    refine Prog.uses_call_bind.mpr ⟨.harmless rfl, fun row => ?_⟩
    split
    · trivial
    split
    · trivial
    refine Prog.uses_call_bind.mpr ⟨.harmless rfl, fun found => ?_⟩
    split
    · trivial
    refine Prog.uses_call_bind.mpr ⟨⟨fun _ h => (by cases h), fun _ h => (by cases h), fun _ h => (by cases h),
      fun _ _ _ _ _ => rfl⟩, fun _ => ?_⟩
    exact Prog.uses_call_bind.mpr ⟨.harmless rfl, fun _ => trivial⟩

/-! ### The resume -/

/-- Whoever knows that the approval is approved may resume it. -/
theorem wp_informed {α : Type} {p : Py α} (hp : p.Uses (ResumeOp b)) (hT : p.Uses (WritesTask T))
    (hshown : ∃ e ∈ known, ∃ row, approvedReading e = some (b, row) ∧ row.taskId = T) :
    wp (approvalMachine backend t) p (fun _ _ => True) known := by
  refine wp_mono (wp_of_keeps (P := fun o => ResumeOp b o ∧ WritesTask T o)
    (I := fun known => ∃ e ∈ known, ∃ row, approvedReading e = some (b, row) ∧ row.taskId = T)
    ?_ (hp.and hT) hshown) fun _ _ _ => trivial
  rintro o ⟨ho, hoT⟩ known' hshown'
  refine ⟨guaranteed_resumeOp hshown' ho hoT, ?_⟩
  rintro r known'' ⟨hsub, -, -⟩
  obtain ⟨e, he, hrow⟩ := hshown'
  exact ⟨e, hsub he, hrow⟩

/-- **The resume** reads the approval first, and goes on only if that shows it approved. -/
theorem resume_informed : (approvalMachine backend t).Safe (resume env b) := by
  intro known
  unfold resume
  refine wp_bind.mpr (wp_call.mpr ⟨Guaranteed.harmless rfl, ?_⟩)
  rintro (e | row) known' ⟨-, hread, -⟩
  · trivial
  cases row with
  | none => trivial
  | some row =>
    dsimp only
    split
    · trivial
    rename_i hst
    split
    · trivial
    · exact wp_informed (resumeApproved_uses ..) resumeApproved_writes
        ⟨_, hread, row, if_pos (not_not.mp hst), rfl⟩

theorem doResume_informed : (approvalMachine backend t).Safe (doResume env b) := by
  refine Machine.Safe.tryCatch ?_ fun _ => .pure _
  refine Machine.Safe.bind (safe_of_uses (Prog.uses_call.mpr (.harmless rfl))) fun row => ?_
  cases row with
  | none => exact .pure _
  | some row =>
    dsimp only
    split
    · exact safe_of_uses (recordTrace_guaranteed.bind fun _ => recordAudit_guaranteed.bind fun _ => trivial)
    · exact resume_informed

theorem autoResume_informed {req : DecideRequest} : (approvalMachine backend t).Safe (autoResume env b req) := by
  unfold autoResume
  split
  · exact doResume_informed.bind fun _ => .pure _
  · exact .pure _

/-! ### The endpoints -/

theorem approve_informed {req : DecideRequest} : (approvalMachine backend t).Safe (approve env backend b req) := by
  refine Machine.Safe.bind (safe_of_uses (Prog.uses_call.mpr (.harmless rfl))) fun row => ?_
  cases row with
  | none => exact .pure _
  | some previous =>
    refine Machine.Safe.bind (safe_of_uses ?_) fun _ => ?_
    · exact checkApproveReason_uses (fun _ _ _ => .harmless rfl) fun _ => .harmless rfl
    split
    · exact .pure _
    split
    · exact autoResume_informed.bind fun _ => .pure _
    refine Machine.Safe.bind (safe_of_uses decideApproval_guaranteed) fun decided => ?_
    refine Machine.Safe.bind (.ofExcept _) fun result => ?_
    split
    · exact safe_of_uses (recordTrace_guaranteed.bind fun _ => trivial)
    · refine Machine.Safe.bind (safe_of_uses ?_) fun _ => autoResume_informed.bind fun _ => .pure _
      exact recordTrace_guaranteed.bind fun _ => recordAudit_guaranteed

theorem cancelEffects_guaranteed {result : Dict} {taskId : String} {req : DecideRequest} :
    (cancelEffects b result taskId req).Uses (Guaranteed backend []) :=
  cancelEffects_uses (fun _ => .harmless rfl) (fun _ _ => .cancels) (fun _ _ => .harmless rfl)
    (fun _ => .harmless rfl) fun _ _ _ => .harmless rfl

theorem reject_guaranteed {req : DecideRequest} : (reject env backend b req).Uses (Guaranteed backend []) := by
  refine Prog.uses_call_bind.mpr ⟨.harmless rfl, fun row => ?_⟩
  cases row with
  | none => trivial
  | some previous =>
    refine decideApproval_guaranteed.bind fun decided => Prog.uses_ofExcept_bind fun result _ => ?_
    split
    · exact recordTrace_guaranteed.bind fun _ => trivial
    · refine Prog.Uses.bind (recordTrace_guaranteed.bind fun _ => recordAudit_guaranteed) fun _ => ?_
      exact cancelEffects_guaranteed.bind fun _ => trivial

theorem manualResume_informed : (approvalMachine backend t).Safe (manualResumeApproval env b) := by
  refine Machine.Safe.bind (safe_of_uses (Prog.uses_call.mpr (.harmless rfl))) fun row => ?_
  cases row with
  | none => exact .pure _
  | some approval =>
    dsimp only
    split
    · exact .pure _
    split
    · exact .pure _
    · exact doResume_informed.bind fun _ => .pure _

theorem guaranteed_kernelOp (h : KernelOp o) : Guaranteed backend [] o := by
  cases o with
  | insertApproval row =>
    refine ⟨fun _ h => (by cases h), fun _ h => (by cases h), fun row' hrow => ?_, fun _ _ _ _ h => (by cases h)⟩
    obtain rfl := Op.insertApproval.inj hrow
    exact h
  | gatewayCall site tool args =>
    refine ⟨fun a hcall => ?_, fun _ h => (by cases h), fun _ h => (by cases h), fun _ _ _ _ h => (by cases h)⟩
    cases site <;> first | exact absurd h Bool.false_ne_true | exact absurd hcall Bool.false_ne_true
  | _ => first | exact h.elim | exact .harmless rfl

theorem request_informed {sv : Service} {r : Request} : (approvalMachine sv.backend t).Safe (r.code sv) := by
  cases r with
  | runKeyword taskId query =>
    refine safe_of_uses (GraphRuntimeAdapter.runKeyword_uses.mono fun _ h => ?_)
    exact guaranteed_kernelOp h.kernel
  | approve b req => exact approve_informed
  | reject b req => exact safe_of_uses reject_guaranteed
  | resume b => exact resume_informed
  | manualResume b => exact manualResume_informed
  | expireOld now => exact safe_of_uses (Prog.uses_call_bind.mpr ⟨.harmless rfl, fun _ => trivial⟩)

/-- **Every request** keeps to the contract. -/
theorem appRequest_informed {sv : AppService} {r : AppRequest} :
    ((approvalContract sv.backend).machine t).Safe (r.code sv) := by
  have hextend : ∀ {α : Type} {p : Py α}, p.Uses (Guaranteed sv.backend []) →
      ((approvalContract sv.backend).machine t).Safe (p.extend SaveAns) :=
    fun h known => wp_extend_left.mpr (safe_of_uses h known)
  cases r with
  | serve r => exact fun known => wp_extend_left.mpr (request_informed known)
  | createTask taskId req =>
    show ((approvalContract sv.backend).machine t).Safe (sv.createTask taskId req)
    unfold AppService.createTask
    dsimp only
    split
    · refine hextend (Prog.uses_call_bind.mpr ⟨.harmless rfl, fun _ => ?_⟩)
      exact recordAudit_guaranteed.bind fun _ => trivial
    · refine Machine.Safe.bind (hextend ?_) fun task => Machine.Safe.bind ?_ fun _ => .pure _
      · exact AgentKernel.runWithOptions_kernelOp.mono fun _ => guaranteed_kernelOp
      refine Machine.Safe.tryCatch (Machine.Safe.bind (fun known => ?_) fun _ => .pure _) fun exc => ?_
      · exact wp_call.mpr ⟨trivial, fun _ _ _ => trivial⟩
      · refine Machine.Safe.bind (hextend ?_) fun _ => .pure _
        exact Prog.uses_call.mpr (.harmless rfl)

end Conformance

/-! ## One step -/

theorem split_concat {α : Type} {l pre post : List α} {x y : α} (h : l ++ [x] = pre ++ y :: post) :
    (pre = l ∧ y = x) ∨ ∃ post', l = pre ++ y :: post' := by
  rcases List.eq_nil_or_concat post with rfl | ⟨post', z, rfl⟩
  · obtain ⟨hpre, hlast⟩ := List.append_inj' h rfl
    exact .inl ⟨hpre.symm, (List.cons.inj hlast).1.symm⟩
  · rw [List.concat_eq_append, ← List.cons_append, ← List.append_assoc] at h
    exact .inr ⟨post', (List.append_inj' h rfl).1⟩

section Step

variable {backend : Backend} {a : ApprovalId} {db₀ : Db} {w : AppWorld} {known log : List AppEvent} {env : Env}
  {faults : Nat → Fault} {t : Nat} {x : AppOp}

theorem Approved.append (h : Approved a db₀ log) (rest : List AppEvent) : Approved a db₀ (log ++ rest) := by
  rcases h with h | ⟨e, he, happroves⟩
  · exact .inl h
  · exact .inr ⟨e, List.mem_append_left _ he, happroves⟩

theorem callsFollowApproval_nil : CallsFollowApproval a db₀ [] := by
  intro pre e post h
  simp at h

theorem CallsFollowApproval.snoc {e : AppEvent} (h : CallsFollowApproval a db₀ log)
    (hnew : callsFor a e = true → Approved a db₀ log) : CallsFollowApproval a db₀ (log ++ [e]) := by
  intro pre e' post hsplit hcall
  rcases split_concat hsplit with ⟨rfl, rfl⟩ | ⟨post', hlog⟩
  · exact hnew hcall
  · exact h pre e' post' hlog hcall

/-- A reading is answered with the row. -/
theorem row_of_reading {row : ApprovalRow}
    (h : approvedReading ⟨t, x, (appDbExec env faults log t x w.db).1⟩ = some (a, row)) :
    w.db.approvals[a]? = some row ∧ row.status = .approved := by
  rcases x with o | s
  · cases o with
    | getApproval site b =>
      unfold approvedReading at h
      split at h
      · rename_i heq
        obtain ⟨-, hop, hans⟩ := (Ev.mk.injEq ..).mp heq
        obtain ⟨rfl, rfl⟩ := Op.getApproval.inj (Sum.inl.inj hop)
        split at h
        · rename_i hst
          obtain ⟨rfl, rfl⟩ := Prod.mk.inj (Option.some.inj h)
          exact ⟨opExec_getApproval (eq_of_heq hans), hst⟩
        · cases h
      · cases h
    | _ => cases h
  · cases h

/-- What holds of every world of a run: an approved row, a reading that shows one, and a call have their approval
in the log. -/
structure CallsApproved (db₀ : Db) (w : AppWorld) : Prop where
  stored : ∀ a row, w.db.approvals[a]? = some row → row.status = .approved → Approved a db₀ w.log
  shown : ∀ e ∈ w.log, ∀ a row, approvedReading e = some (a, row) → Approved a db₀ w.log
  called : ∀ a, CallsFollowApproval a db₀ w.log

theorem CallsApproved.step (h : CallsApproved db₀ w) (hknown : known ⊆ w.log)
    (hmay : (approvalContract backend).guarantee known x) :
    CallsApproved db₀ (Logged.exec (appDbExec env faults) t x w).2 := by
  refine ⟨fun a row hrow hst => ?_, fun e he a row hread => ?_, fun a => (h.called a).snoc fun hcall => ?_⟩
  · rcases x with o | s
    · have hrow : (opExec env faults w.log t o w.db).2.approvals[a]? = some row := hrow
      rcases @opExec_approvals env faults w.log t w.db o with hsame | hafter
      · rw [hsame] at hrow
        exact (h.stored a row hrow hst).append _
      rw [hafter] at hrow
      rcases status_after hrow with ⟨row', hrow', hst'⟩ | hdecides | rfl
      · exact (h.stored a row' hrow' (hst'.trans hst)).append _
      · rw [hst] at hdecides
        exact .inr ⟨_, List.mem_append_right _ List.mem_cons_self, hdecides⟩
      · have hpending : row.status = .pending := hmay.inserts row rfl
        rw [hst] at hpending
        cases hpending
    · have hrow : (saveExec faults w.log s w.db).2.approvals[a]? = some row := hrow
      rw [saveExec_approvals] at hrow
      exact (h.stored a row hrow hst).append _
  · rcases List.mem_append.mp he with he | he
    · exact (h.shown e he a row hread).append _
    · rw [List.mem_singleton.mp he] at hread
      obtain ⟨hrow, hst⟩ := row_of_reading hread
      exact (h.stored a row hrow hst).append _
  · rcases x with o | s
    · obtain ⟨e, he, row, hread⟩ := hmay.calls a hcall
      exact h.shown e (hknown he) a row hread
    · cases hcall

/-- `a` is approved, and for task `T`. -/
def ApprovedFor (db : Db) (a : ApprovalId) (T : String) : Prop :=
  ∃ row, db.approvals[a]? = some row ∧ row.status = .approved ∧ row.taskId = T

/-- What holds of every world of a run on SQLite: what a reading showed approved, what was called for, and what
settled a task, is approved still. -/
structure StaysApproved (w : AppWorld) : Prop where
  shown : ∀ e ∈ w.log, ∀ a row, approvedReading e = some (a, row) → ApprovedFor w.db a row.taskId
  called : ∀ e ∈ w.log, ∀ a, callsFor a e = true → ∃ T, ApprovedFor w.db a T
  settled : ∀ e ∈ w.log, ∀ T, settlesTask T e = true → ∃ a, ApprovedFor w.db a T

/-- A row keeps its task. -/
theorem task_kept {row : ApprovalRow} (hrow : w.db.approvals[a]? = some row) :
    ∃ row', (appDbExec env faults log t x w.db).2.approvals[a]? = some row' ∧ row'.taskId = row.taskId := by
  rcases x with o | s
  · show ∃ row', (opExec env faults log t o w.db).2.approvals[a]? = some row' ∧ row'.taskId = row.taskId
    rcases @opExec_approvals env faults log t w.db o with hsame | hafter
    · rw [hsame]
      exact ⟨row, hrow, rfl⟩
    · rw [hafter]
      exact taskId_kept hrow
  · show ∃ row', (saveExec faults log s w.db).2.approvals[a]? = some row' ∧ row'.taskId = row.taskId
    rw [saveExec_approvals]
    exact ⟨row, hrow, rfl⟩

/-- On SQLite an approved row stays approved. -/
theorem approved_kept {T : String} (hmay : (approvalContract .sqlite).guarantee known x)
    (h : ApprovedFor w.db a T) : ApprovedFor (appDbExec env faults log t x w.db).2 a T := by
  obtain ⟨row, hrow, hst, rfl⟩ := h
  have htasks : ∃ row', (appDbExec env faults log t x w.db).2.approvals[a]? = some row' ∧
      row'.taskId = row.taskId := task_kept hrow
  obtain ⟨row', hrow', htask⟩ := htasks
  refine ⟨row', hrow', ?_, htask⟩
  rcases x with o | s
  · have hrow' : (opExec env faults log t o w.db).2.approvals[a]? = some row' := hrow'
    rcases @opExec_approvals env faults log t w.db o with hsame | hafter
    · rw [hsame, hrow] at hrow'
      rwa [← Option.some.inj hrow']
    rw [hafter] at hrow'
    have hcommit : ∀ b st d r, o ≠ .commitDecision b st d r := by
      intro b st d r ho
      cases hmay.decides b st d r ho
    obtain ⟨row'', hrow'', hst''⟩ := status_kept hcommit hrow (by rw [hst]; decide)
    rw [hrow''] at hrow'
    rw [← Option.some.inj hrow', hst'', hst]
  · have hrow' : (saveExec faults log s w.db).2.approvals[a]? = some row' := hrow'
    rw [saveExec_approvals, hrow] at hrow'
    rwa [← Option.some.inj hrow']

theorem StaysApproved.step (h : StaysApproved w) (hknown : known ⊆ w.log)
    (hmay : (approvalContract .sqlite).guarantee known x) :
    StaysApproved (Logged.exec (appDbExec env faults) t x w).2 := by
  have hread : ∀ e ∈ w.log, ∀ a row, approvedReading e = some (a, row) →
      ApprovedFor (Logged.exec (appDbExec env faults) t x w).2.db a row.taskId :=
    fun e he a row hrow => approved_kept hmay (h.shown e he a row hrow)
  refine ⟨fun e he a row hrow => ?_, fun e he a hcall => ?_, fun e he T hsettles => ?_⟩
  · rcases List.mem_append.mp he with he | he
    · exact hread e he a row hrow
    · rw [List.mem_singleton.mp he] at hrow
      obtain ⟨hget, hst⟩ := row_of_reading hrow
      exact approved_kept hmay ⟨row, hget, hst, rfl⟩
  · rcases List.mem_append.mp he with he | he
    · obtain ⟨T, hT⟩ := h.called e he a hcall
      exact ⟨T, approved_kept hmay hT⟩
    · rw [List.mem_singleton.mp he] at hcall
      rcases x with o | s
      · obtain ⟨e', he', row, hrow⟩ := hmay.calls a hcall
        exact ⟨_, hread e' (hknown he') a row hrow⟩
      · cases hcall
  · rcases List.mem_append.mp he with he | he
    · obtain ⟨a, ha⟩ := h.settled e he T hsettles
      exact ⟨a, approved_kept hmay ha⟩
    · rw [List.mem_singleton.mp he] at hsettles
      rcases x with o | s
      · obtain ⟨e', he', a, row, hrow, rfl⟩ := hmay.settles T hsettles
        exact ⟨a, hread e' (hknown he') a row hrow⟩
      · cases hsettles

end Step

/-! ## Every run -/

/-- Every run on SQLite keeps what it showed, called for and settled approved. -/
theorem staysApproved_run {sv : AppService} (hsqlite : sv.backend = .sqlite) {db : Db} {reqs : Nat → AppRequest}
    {faults : Nat → Fault} {sched : List Nat} : StaysApproved (sv.run faults (sv.start db reqs) sched).world := by
  have hstart : StaysApproved (sv.start db reqs).world :=
    ⟨(fun e he => nomatch he), (fun e he => nomatch he), fun e he => nomatch he⟩
  have hconforms : ∀ t, wp ((approvalContract .sqlite).machine t) ((sv.start db reqs).threads t)
      (fun _ _ => True) [] := by
    intro t
    rw [← hsqlite]
    exact appRequest_informed []
  have hrun := Conf.run_contract (f := appDbExec sv.env faults) (C := fun _ => approvalContract .sqlite)
    (Q := fun _ _ _ => True) (fun c t x known hI hknown hmay _ => ⟨trivial, hI.step hknown hmay⟩) hstart hconforms
    (Conf.meets_of_forall (fun _ _ _ => trivial) _ sched)
  exact hrun.1

/-- **What was called for stays approved.**  With `SQLiteApprovalStore`: once something was called on behalf of an
approval, its stored status is and remains approved; an approval that is rejected is never executed. -/
theorem called_stays_approved (sv : AppService) (hsqlite : sv.backend = .sqlite) (db : Db) (reqs : Nat → AppRequest)
    (faults : Nat → Fault) (sched : List Nat) (a : ApprovalId)
    (hcalled : ∃ e ∈ (sv.run faults (sv.start db reqs) sched).world.log, callsFor a e = true) :
    ∃ row, (sv.run faults (sv.start db reqs) sched).world.db.approvals[a]? = some row ∧ row.status = .approved := by
  obtain ⟨e, he, hcall⟩ := hcalled
  obtain ⟨T, row, hrow, hst, -⟩ := (staysApproved_run hsqlite).called e he a hcall
  exact ⟨row, hrow, hst⟩

/-- A task that asks for the refund, and its approval. -/
def createAndApprove : Nat → AppRequest := fun t => if t = 0 then demoTaskRequest else .serve (.approve 0 demoRequest)

theorem called_stays_approved_demo :
    ∃ row, (demoApp.run (fun _ => .none) (demoApp.start emptyDb createAndApprove)
      (List.replicate 20 0 ++ List.replicate 30 1)).world.db.approvals[0]? = some row ∧ row.status = .approved :=
  called_stays_approved demoApp rfl emptyDb createAndApprove (fun _ => .none) _ 0 (by decide +kernel)

end AgentHarness
