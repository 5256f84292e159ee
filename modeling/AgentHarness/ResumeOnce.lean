import AgentHarness.Requests

/-!
# ResumeOnce — when the approved tool is called successfully at most once

`resume` lets an approval pass that is approved and not marked as resumed, calls the tool, and writes the mark
after that.  Fix an approval `a`: a thread is *checked* from a reading that passed, *called* from the call of the
approved tool, and idle again when it writes the payload.  `resumeMachine a` permits the call to a checked thread
only, and after a successful call permits no payload without the mark, as long as the stores do not fail.

Nothing keeps a second thread from passing the check in between, and nothing makes up for a mark that was never
written; so the law is one about the runs that avoid both (`resume_calls_once`).
-/

namespace AgentHarness

open Lib Py ApprovalResumeService

namespace ApprovalRow

/-- The mark that a resume leaves. -/
def isResumed (row : ApprovalRow) : Bool := (Dict.get row.payloadDict "resumed").truthy

/-- What the check at the top of `resume` lets pass. -/
def passesCheck (row : ApprovalRow) : Bool := row.status = .approved && !row.isResumed

end ApprovalRow

/-- Where a thread stands with respect to one approval. -/
inductive ResumePhase where
  | idle
  | checked
  | called (success : Bool)
  deriving DecidableEq

def callSucceeded : Except PyExc ToolCallRecord → Bool
  | .ok r => r.success
  | .error _ => false

/-- Records, which never fail. -/
def Op.isReport : Op → Bool
  | .trace _ _ _ | .audit _ => true
  | _ => false

def Op.isSetPayload : Op → Bool
  | .setPayload _ _ => true
  | _ => false

namespace ResumePhase

/-- The phase after an answered operation. -/
def next (a : ApprovalId) (s : ResumePhase) : (o : Op) → Except PyExc (Ans o) → ResumePhase
  | .getApproval .resumeCheck b, .ok (some row) => if b = a ∧ row.passesCheck = true then .checked else s
  | .gatewayCall (.approved b _) _ _, r => if b = a then .called (callSucceeded r) else s
  | .setPayload b _, _ => if b = a then .idle else s
  | _, _ => s

/-- What a phase permits. -/
def may (a : ApprovalId) (s : ResumePhase) : Op → Prop
  | .getApproval .resumeCheck b => b = a → s = .idle
  | .gatewayCall (.approved b _) _ _ => b = a → s = .checked
  | .setPayload b p => b = a → s ≠ .idle ∧ (s = .called true → (Dict.get p "resumed").truthy = true)
  | _ => True

/-- Operations that do not fail: records, and after a successful call those of the stores before the mark. -/
def sure (s : ResumePhase) (o : Op) : Bool :=
  o.isReport || (s == .called true && o.isStore && !o.isSetPayload)

end ResumePhase

def resumeMachine (a : ApprovalId) : Machine Op Ans PyExc ResumePhase where
  may := ResumePhase.may a
  step s o r s' := (s.sure o = true → ∃ v, r = .ok v) ∧ s' = s.next a o r

/-! ## Every request keeps to the machine -/

section Conformance

variable {a b : ApprovalId} {env : Env} {taskId : String} {s : ResumePhase}

/-- Permitted in every phase, and changing none. -/
def KeepsPhase (a : ApprovalId) (o : Op) : Prop := ∀ s : ResumePhase, s.may a o ∧ ∀ r, s.next a o r = s

theorem wp_keepsPhase {α : Type} {p : Py α} (h : p.Uses (KeepsPhase a)) :
    wp (resumeMachine a) p (fun _ s' => s' = s) s := by
  refine wp_of_keeps (fun o ho s₁ hs₁ => ⟨(ho s₁).1, fun r s' hs' => ?_⟩) h rfl
  rw [hs'.2, (ho s₁).2 r]
  exact hs₁

theorem wp_keepsPhase_seq {α β : Type} {p : Py α} {f : α → Py β} {Q : Except PyExc β → ResumePhase → Prop}
    (h : p.Uses (KeepsPhase a)) (hok : ∀ x, wp (resumeMachine a) (f x) Q s) (herr : ∀ e, Q (.error e) s) :
    wp (resumeMachine a) (p >>= f) Q s := by
  refine wp_seq (wp_keepsPhase h) ?_ ?_
  · rintro x s' rfl
    exact hok x
  · rintro e s' rfl
    exact herr e

theorem keepsPhase_report {o : Op} (h : o.isReport = true) : KeepsPhase a o := by
  intro s
  cases o <;> first | exact ⟨trivial, fun _ => rfl⟩ | cases h

theorem keepsPhase_tail {o : Op} (h : TailOp b o) : KeepsPhase a o := by
  intro s
  cases o with
  | gatewayCall site tool args =>
    cases site with
    | subsequent c step => exact ⟨trivial, fun _ => rfl⟩
    | _ => exact h.elim
  | getApproval _ _ | setPayload _ _ => exact h.elim
  | _ => exact ⟨trivial, fun _ => rfl⟩

theorem keepsPhase_store {o : Op} (h : o = .getApproval .store b) : KeepsPhase a o := by
  subst h
  exact fun s => ⟨trivial, fun _ => rfl⟩

theorem traceTask_keepsPhase {e : String} {d : Dict} : (traceTask e taskId d).Uses (KeepsPhase a) :=
  traceTask_uses (keepsPhase_report rfl)

theorem recordAudit_keepsPhase {f : Dict} : (recordAudit f).Uses (KeepsPhase a) :=
  recordAudit_uses (keepsPhase_report rfl)

theorem getTask_keepsPhase {t : String} : KeepsPhase a (.getTask t) := fun _ => ⟨trivial, fun _ => rfl⟩

theorem setTask_keepsPhase {t : String} {st : TaskStatus} {r : Option Dict} : KeepsPhase a (.setTask t st r) :=
  fun _ => ⟨trivial, fun _ => rfl⟩

theorem updateTask_keepsPhase {t : String} {st : TaskStatus} {r : Option Dict} :
    (updateTaskStatus t st r).Uses (KeepsPhase a) :=
  updateTaskStatus_uses getTask_keepsPhase fun _ => setTask_keepsPhase

/-! ### After a successful call nothing fails -/

/-- The part does not raise after a successful call, and leaves the phase. -/
def Sure (a : ApprovalId) {α : Type} (p : Py α) : Prop :=
  wp (resumeMachine a) p (fun r s' => (∃ v, r = .ok v) ∧ s' = .called true) (.called true)

theorem sure_pure {α : Type} (v : α) : Sure a (pure v : Py α) := ⟨⟨v, rfl⟩, rfl⟩

theorem Sure.bind {α β : Type} {p : Py α} {f : α → Py β} (hp : Sure a p) (hf : ∀ v, Sure a (f v)) :
    Sure a (p >>= f) := by
  refine wp_seq hp ?_ ?_
  · rintro v s' ⟨-, rfl⟩
    exact hf v
  · rintro e s' ⟨⟨v, hv⟩, -⟩
    cases hv

theorem sure_perform {o : Op} (hsure : (ResumePhase.called true).sure o = true) (hkeeps : KeepsPhase a o) :
    Sure a (perform o) := by
  refine wp_call.mpr ⟨(hkeeps _).1, ?_⟩
  rintro r s' ⟨hok, hs'⟩
  exact ⟨hok hsure, hs'.trans ((hkeeps _).2 r)⟩

theorem sure_traceTask {e : String} {d : Dict} : Sure a (traceTask e taskId d) := by
  unfold traceTask
  split
  · exact sure_perform rfl (keepsPhase_report rfl)
  · exact sure_pure ()

theorem sure_recordAudit {f : Dict} : Sure a (recordAudit f) := by
  refine wp_try (sure_perform rfl (keepsPhase_report rfl)) (fun _ _ h => h) ?_
  rintro e s' ⟨⟨v, hv⟩, -⟩
  cases hv

theorem sure_updateTaskStatus {t : String} {st : TaskStatus} {r : Option Dict} : Sure a (updateTaskStatus t st r) := by
  have hget : Sure a (getTask t) := sure_perform rfl getTask_keepsPhase
  unfold updateTaskStatus
  refine hget.bind fun row => ?_
  cases row with
  | none => exact sure_pure none
  | some row => exact (sure_perform rfl setTask_keepsPhase).bind fun _ => hget

/-! ### The bodies of the modes -/

/-- What a body leaves: not idle, and after a successful call a result that is to be marked. -/
def Executed (r : Except PyExc Dict) (s : ResumePhase) : Prop :=
  s ≠ .idle ∧ (s = .called true → ∀ d, r = .ok d → (Dict.get d "approval_consumed").truthy = true)

theorem executed_of_ne {r : Except PyExc Dict} (h : s ≠ .idle) (h' : s ≠ .called true) : Executed r s :=
  ⟨h, fun hs => absurd hs h'⟩

theorem executed_checked {r : Except PyExc Dict} : Executed r .checked := executed_of_ne nofun nofun

theorem executed_failed {r : Except PyExc Dict} : Executed r (.called false) := executed_of_ne nofun nofun

theorem executed_error {e : PyExc} {success : Bool} : Executed (.error e) (.called success) :=
  ⟨nofun, fun _ _ h => nomatch h⟩

theorem executed_consumed {d : Dict} (h : (Dict.get d "approval_consumed").truthy = true) :
    Executed (.ok d) (.called true) := by
  refine ⟨nofun, fun _ d' hd => ?_⟩
  obtain rfl := Except.ok.inj hd
  exact h

/-- The call of the approved tool, from a passed check. -/
theorem approvedCall_phase {step tool args : PyVal} : wp (resumeMachine a) (gatewayCall (.approved a step) tool args)
    (fun r s' => s' = .called (callSucceeded r)) .checked := by
  refine wp_call.mpr ⟨fun _ => rfl, ?_⟩
  rintro r s' ⟨-, hs'⟩
  rw [hs']
  exact if_pos rfl

theorem keywordResult_consumed {tool : PyVal} {r : ToolCallRecord} (h : r.success = true) :
    (Dict.get (keywordResult a tool r) "approval_consumed").truthy = true := by
  simp [keywordResult, Dict.get, Dict.getD, h]

/-- **The keyword mode.**  Its handler is entered only if the call failed. -/
theorem resumeKeyword_phase {payload : Dict} :
    wp (resumeMachine a) (resumeKeyword a taskId payload) Executed .checked := by
  let R : Except PyExc Dict → ResumePhase → Prop := fun r s' => s' = .called false ∨
    s' = .called true ∧ ∃ d, r = .ok d ∧ (Dict.get d "approval_consumed").truthy = true
  unfold resumeKeyword
  refine wp_keepsPhase_seq traceTask_keepsPhase (fun _ => ?_) fun _ => executed_checked
  refine wp_try (R := R) ?_ ?_ ?_
  · refine wp_seq approvedCall_phase ?_ ?_
    · rintro r s' rfl
      cases hok : r.success with
      | false =>
        have hphase : ResumePhase.called (callSucceeded (.ok r)) = .called false := congrArg ResumePhase.called hok
        rw [hphase]
        refine wp_mono (wp_keepsPhase ?_) fun _ _ h => .inl h
        refine updateTask_keepsPhase.bind fun _ => traceTask_keepsPhase.bind fun _ => ?_
        exact recordAudit_keepsPhase.bind fun _ => trivial
      | true =>
        have hphase : ResumePhase.called (callSucceeded (.ok r)) = .called true := congrArg ResumePhase.called hok
        rw [hphase]
        dsimp only
        refine wp_seq sure_updateTaskStatus (fun _ s' h => ?_) fun e s' h => absurd h.1 nofun
        obtain ⟨-, rfl⟩ := h
        refine wp_seq sure_traceTask (fun _ s' h => ?_) fun e s' h => absurd h.1 nofun
        obtain ⟨-, rfl⟩ := h
        refine wp_seq sure_recordAudit (fun _ s' h => ?_) fun e s' h => absurd h.1 nofun
        obtain ⟨-, rfl⟩ := h
        exact .inr ⟨rfl, _, rfl, keywordResult_consumed hok⟩
    · rintro e s' rfl
      exact .inl rfl
  · rintro d s' (rfl | ⟨rfl, d', hd, hconsumed⟩)
    · exact executed_failed
    · obtain rfl := Except.ok.inj hd
      exact executed_consumed hconsumed
  · rintro e s' (rfl | ⟨-, d, hd, -⟩)
    · refine wp_mono (wp_keepsPhase ?_) fun _ _ h => h ▸ executed_failed
      refine updateTask_keepsPhase.bind fun _ => traceTask_keepsPhase.bind fun _ => ?_
      exact recordAudit_keepsPhase.bind fun _ => trivial
    · cases hd

theorem waitingResult_consumed {step calls : PyVal} {sub : Dict} :
    (Dict.get (waitingResult a step calls sub) "approval_consumed").truthy = true := by
  simp [waitingResult, multitoolHead, Dict.get, Dict.getD]

theorem finalResult_consumed {step calls : PyVal} {sub : Dict} :
    (Dict.get (finalResult a step calls sub) "approval_consumed").truthy = true := by
  simp [finalResult, multitoolHead, Dict.get, Dict.getD]

/-- What follows the success either raises or is to be marked. -/
theorem continueMultitool_phase {planData step tool saveAs : PyVal} {completed toolCalls : List PyVal}
    {saved : List (String × Saved)} {r : ToolCallRecord} :
    wp (resumeMachine a) (continueMultitool env a taskId planData step tool completed saved toolCalls saveAs r)
      Executed (.called true) := by
  unfold continueMultitool
  refine wp_keepsPhase_seq traceTask_keepsPhase (fun _ => ?_) fun _ => executed_error
  refine wp_keepsPhase_seq (Prog.uses_ofExcept _) (fun completed => ?_) fun _ => executed_error
  refine wp_keepsPhase_seq (Prog.uses_ofExcept _) (fun saved => ?_) fun _ => executed_error
  refine wp_keepsPhase_seq (Prog.uses_ofExcept _) (fun steps => ?_) fun _ => executed_error
  refine wp_keepsPhase_seq (Prog.uses_ofExcept _) (fun stepList => ?_) fun _ => executed_error
  refine wp_keepsPhase_seq ((executeSubsequentSteps_uses ..).mono fun _ => keepsPhase_tail) (fun subsequent => ?_)
    fun _ => executed_error
  dsimp only
  split
  · refine wp_keepsPhase_seq updateTask_keepsPhase (fun _ => ?_) fun _ => executed_error
    refine wp_keepsPhase_seq traceTask_keepsPhase (fun _ => ?_) fun _ => executed_error
    exact executed_consumed waitingResult_consumed
  · refine wp_keepsPhase_seq updateTask_keepsPhase (fun _ => ?_) fun _ => executed_error
    refine wp_keepsPhase_seq traceTask_keepsPhase (fun _ => ?_) fun _ => executed_error
    refine wp_keepsPhase_seq recordAudit_keepsPhase (fun _ => ?_) fun _ => executed_error
    exact executed_consumed finalResult_consumed

/-- **The approved step** of a plan. -/
theorem runApprovedStep_phase {planData step tool args : PyVal} {completed toolCalls : List PyVal}
    {saved : List (String × Saved)} :
    wp (resumeMachine a) (runApprovedStep env a taskId planData step tool args completed toolCalls saved)
      Executed .checked := by
  let R : Except PyExc (Except PyExc ToolCallRecord) → ResumePhase → Prop := fun r s' =>
    ∃ answer, r = .ok answer ∧ s' = .called (callSucceeded answer)
  unfold runApprovedStep
  refine wp_seq (R := R) (wp_attempt approvedCall_phase) ?_ ?_
  · rintro answer s' ⟨_, ⟨⟩, rfl⟩
    cases answer with
    | error e =>
      refine wp_keepsPhase_seq updateTask_keepsPhase (fun _ => ?_) fun _ => executed_error
      exact wp_keepsPhase_seq traceTask_keepsPhase (fun _ => executed_failed) fun _ => executed_error
    | ok r =>
      refine wp_keepsPhase_seq (Prog.uses_ofExcept _) (fun saveAs => ?_) fun _ => executed_error
      dsimp only
      cases hok : r.success with
      | false =>
        have hphase : ResumePhase.called (callSucceeded (.ok r)) = .called false := congrArg ResumePhase.called hok
        rw [hphase, Bool.not_false, if_pos rfl]
        refine wp_keepsPhase_seq updateTask_keepsPhase (fun _ => ?_) fun _ => executed_error
        exact wp_keepsPhase_seq traceTask_keepsPhase (fun _ => executed_failed) fun _ => executed_error
      | true =>
        have hphase : ResumePhase.called (callSucceeded (.ok r)) = .called true := congrArg ResumePhase.called hok
        rw [hphase, Bool.not_true, if_neg Bool.false_ne_true]
        exact continueMultitool_phase
  · rintro e s' ⟨answer, h, -⟩
    cases h

theorem resumeMultitool_phase {payload : Dict} :
    wp (resumeMachine a) (resumeMultitool env a taskId payload) Executed .checked := by
  unfold resumeMultitool
  refine wp_keepsPhase_seq (Prog.uses_ofExcept _) (fun completed => ?_) fun _ => executed_checked
  refine wp_keepsPhase_seq (Prog.uses_ofExcept _) (fun toolCalls => ?_) fun _ => executed_checked
  refine wp_keepsPhase_seq (Prog.uses_ofExcept _) (fun saved => ?_) fun _ => executed_checked
  refine wp_keepsPhase_seq traceTask_keepsPhase (fun _ => ?_) fun _ => executed_checked
  split
  · exact wp_keepsPhase_seq traceTask_keepsPhase (fun _ => executed_checked) fun _ => executed_checked
  · exact wp_keepsPhase_seq traceTask_keepsPhase (fun _ => runApprovedStep_phase) fun _ => executed_checked

theorem runMode_phase {payload : Dict} {mode : PyVal} :
    wp (resumeMachine a) (runMode env a taskId payload mode) Executed .checked := by
  unfold runMode
  split
  · exact resumeKeyword_phase
  split
  · exact resumeMultitool_phase
  · exact executed_checked

/-! ### The mark -/

/-- A payload may be written that keeps the mark owed. -/
theorem updatePayload_phase {u : Dict} (hs : s ≠ .idle)
    (hmark : s = .called true → ∀ d : Dict, (Dict.get (d.update u).jsonable "resumed").truthy = true) :
    wp (resumeMachine a) (updatePayload a u) (fun _ _ => True) s := by
  unfold updatePayload
  refine wp_keepsPhase_seq (Prog.uses_call.mpr (keepsPhase_store rfl)) (fun row => ?_) fun _ => trivial
  cases row with
  | none => trivial
  | some row =>
    refine wp_bind.mpr (wp_call.mpr ⟨fun _ => ⟨hs, fun h => hmark h _⟩, fun r s' _ => ?_⟩)
    cases r with
    | error e => trivial
    | ok v => exact wp_mono (wp_keepsPhase (Prog.uses_call.mpr (keepsPhase_store rfl))) fun _ _ _ => trivial

theorem resumed_update {d : Dict} {status result consumed : PyVal} :
    (Dict.get (d.update [("resumed", .bool true), ("resume_status", status), ("resume_result", result),
      ("approval_consumed", consumed)]).jsonable "resumed").truthy = true := by
  simp [Dict.get, Dict.getD, Dict.get?_jsonable, Dict.update, Dict.get?_set_ne, PyVal.jsonable]

theorem settle_phase {result : Dict} (h : Executed (.ok result) s) :
    wp (resumeMachine a) (settle a result) (fun _ _ => True) s := by
  unfold settle
  split
  · exact wp_seq (updatePayload_phase h.1 fun _ d => resumed_update) (fun _ _ _ => trivial) fun _ _ _ => trivial
  · rename_i hconsumed
    have hs : s ≠ .called true := fun hs => hconsumed (h.2 hs result rfl)
    refine wp_keepsPhase_seq (Prog.uses_call.mpr (keepsPhase_store rfl)) (fun current => ?_) fun _ => trivial
    refine wp_keepsPhase_seq (Prog.uses_ofExcept _) (fun n => ?_) fun _ => trivial
    exact wp_seq (updatePayload_phase h.1 fun h' => absurd h' hs) (fun _ _ _ => trivial) fun _ _ _ => trivial

theorem resumeChecked_phase {approval : ApprovalRow} {payload : Dict} {mode : PyVal} :
    wp (resumeMachine a) (resumeChecked env a approval payload mode) (fun _ _ => True) .checked := by
  unfold resumeChecked
  refine wp_keepsPhase_seq (Prog.uses_ofExcept _) (fun steps => ?_) fun _ => trivial
  refine wp_keepsPhase_seq (Prog.uses_ofExcept _) (fun integrity => ?_) fun _ => trivial
  split
  · refine wp_keepsPhase_seq traceTask_keepsPhase (fun _ => ?_) fun _ => trivial
    exact wp_keepsPhase_seq recordAudit_keepsPhase (fun _ => trivial) fun _ => trivial
  · refine wp_seq runMode_phase (fun result s' h => ?_) fun _ _ _ => trivial
    exact wp_seq (settle_phase h) (fun _ _ _ => trivial) fun _ _ _ => trivial

/-! ### The graph adapter -/

theorem graphRecord_phase {c tool : PyVal} {result : Dict} :
    wp (resumeMachine a) (GraphResumeAdapter.record a taskId c tool result) (fun _ _ => True) .checked := by
  unfold GraphResumeAdapter.record markResumed
  refine wp_keepsPhase_seq updateTask_keepsPhase (fun _ => ?_) fun _ => trivial
  refine wp_keepsPhase_seq ?_ (fun _ => ?_) fun _ => trivial
  · exact Prog.uses_call_bind.mpr ⟨fun _ => ⟨trivial, fun _ => rfl⟩,
      fun _ => Prog.uses_call.mpr fun _ => ⟨trivial, fun _ => rfl⟩⟩
  refine wp_seq (updatePayload_phase nofun nofun) (fun _ s' _ => ?_) fun _ _ _ => trivial
  refine wp_mono (wp_keepsPhase ?_) fun _ _ _ => trivial
  refine Prog.Uses.bind (recordTrace_uses (keepsPhase_report rfl)) fun _ => ?_
  exact recordAudit_keepsPhase.bind fun _ => trivial

theorem graphResume_phase {approval : ApprovalRow} :
    wp (resumeMachine a) (GraphResumeAdapter.resume a approval) (fun _ _ => True) .checked := by
  unfold GraphResumeAdapter.resume
  dsimp only
  split
  · trivial
  split
  · trivial
  split
  · trivial
  refine wp_keepsPhase_seq ?_ (fun claimed => ?_) fun _ => trivial
  · exact GraphResumeAdapter.claimForResume_uses (fun _ => ⟨trivial, fun _ => rfl⟩)
      (fun _ _ => ⟨trivial, fun _ => rfl⟩) fun _ => ⟨trivial, fun _ => rfl⟩
  cases claimed with
  | none =>
    refine wp_mono (wp_keepsPhase ?_) fun _ _ _ => trivial
    exact GraphResumeAdapter.handleClaimFailed_uses fun _ => ⟨trivial, fun _ => rfl⟩
  | some row =>
    unfold GraphResumeAdapter.resumeClaimed
    refine wp_keepsPhase_seq (Prog.uses_ofExcept _) (fun tool => ?_) fun _ => trivial
    refine wp_keepsPhase_seq (Prog.uses_ofExcept _) (fun args => ?_) fun _ => trivial
    refine wp_keepsPhase_seq (recordTrace_uses (keepsPhase_report rfl)) (fun _ => ?_) fun _ => trivial
    refine wp_keepsPhase_seq ?_ (fun result => graphRecord_phase) fun _ => trivial
    unfold GraphResumeAdapter.callTool
    refine Prog.Uses.tryCatch (Prog.uses_call_bind.mpr ⟨fun _ => ⟨trivial, fun _ => rfl⟩, fun _ => trivial⟩) ?_
    exact fun _ => trivial

/-! ### The requests -/

/-- The program keeps to the machine from the idle phase. -/
def Starts (a : ApprovalId) {α : Type} (p : Py α) : Prop := wp (resumeMachine a) p (fun _ _ => True) .idle

theorem starts_of_keeps {α : Type} {p : Py α} (h : p.Uses (KeepsPhase a)) : Starts a p :=
  wp_mono (wp_keepsPhase h) fun _ _ _ => trivial

theorem Starts.after {α β : Type} {p : Py α} {f : α → Py β} (h : p.Uses (KeepsPhase a)) (hf : ∀ v, Starts a (f v)) :
    Starts a (p >>= f) := wp_keepsPhase_seq h hf fun _ => trivial

/-- The end of a request only returns. -/
theorem Starts.last {α β : Type} {p : Py α} {f : α → β} (h : Starts a p) : Starts a (p >>= fun v => pure (f v)) :=
  wp_seq h (fun _ _ _ => trivial) fun _ _ _ => trivial

theorem getRequest_keepsPhase : (getApproval .request b).Uses (KeepsPhase a) :=
  Prog.uses_call.mpr fun _ => ⟨trivial, fun _ => rfl⟩

theorem resumeApproved_phase {approval : ApprovalRow} :
    wp (resumeMachine a) (resumeApproved env a approval) (fun _ _ => True) .checked := by
  unfold resumeApproved
  dsimp only
  refine wp_keepsPhase_seq traceTask_keepsPhase (fun _ => ?_) fun _ => trivial
  refine wp_keepsPhase_seq recordAudit_keepsPhase (fun _ => ?_) fun _ => trivial
  split
  · split
    · trivial
    · exact graphResume_phase
  · exact resumeChecked_phase

/-- **The resume**: past the check the phase is `checked`. -/
theorem resume_starts : Starts a (resume env a) := by
  unfold resume
  refine wp_bind.mpr (wp_call.mpr ⟨fun _ => rfl, ?_⟩)
  rintro (e | row) s' ⟨-, hs'⟩
  · trivial
  dsimp only
  cases row with
  | none => trivial
  | some row =>
    dsimp only
    split
    · trivial
    rename_i hst
    split
    · trivial
    rename_i hres
    have hpasses : row.passesCheck = true := by
      unfold ApprovalRow.passesCheck ApprovalRow.isResumed
      rw [Bool.and_eq_true, Bool.not_eq_true']
      exact ⟨decide_eq_true (not_not.mp hst), Bool.eq_false_iff.mpr hres⟩
    have hchecked : s' = .checked := hs'.trans (if_pos ⟨rfl, hpasses⟩)
    rw [hchecked]
    exact resumeApproved_phase

theorem doResume_starts : Starts a (doResume env a) := by
  unfold doResume
  refine wp_try (R := fun _ _ => True) ?_ (fun _ _ _ => trivial) fun _ _ _ => trivial
  unfold resumeUnblocked
  refine Starts.after getRequest_keepsPhase fun row => ?_
  cases row with
  | none => trivial
  | some row =>
    dsimp only
    split
    · refine Starts.after (recordTrace_uses (keepsPhase_report rfl)) fun _ => ?_
      exact Starts.after recordAudit_keepsPhase fun _ => trivial
    · exact resume_starts

theorem autoResume_starts {req : DecideRequest} : Starts a (autoResume env a req) := by
  unfold autoResume
  split
  · exact doResume_starts.last
  · trivial

theorem decideOp_keepsPhase {st : ApprovalStatus} {o : Op} (h : DecideOp b st o) : KeepsPhase a o := by
  intro s
  cases o with
  | getApproval site c =>
    cases site with
    | resumeCheck => exact absurd rfl h.2
    | _ => exact ⟨trivial, fun _ => rfl⟩
  | setPayload _ _ | gatewayCall _ _ _ => exact h.elim
  | _ => exact ⟨trivial, fun _ => rfl⟩

theorem approve_starts {backend : Backend} {req : DecideRequest} : Starts a (approve env backend a req) := by
  unfold approve
  refine Starts.after getRequest_keepsPhase fun row => ?_
  cases row with
  | none => trivial
  | some previous =>
    refine Starts.after (checkApproveReason_uses (fun _ _ _ => keepsPhase_report rfl) fun _ => keepsPhase_report rfl)
      fun _ => ?_
    split
    · trivial
    split
    · exact autoResume_starts.last
    unfold approvePending recordIgnored
    refine Starts.after (decideApproval_uses.mono fun _ => decideOp_keepsPhase) fun decided => ?_
    refine Starts.after (Prog.uses_ofExcept _) fun result => ?_
    split
    · exact Starts.after (recordTrace_uses (keepsPhase_report rfl)) fun _ => trivial
    · refine Starts.after (recordDecision_uses (fun _ _ _ => keepsPhase_report rfl) fun _ => keepsPhase_report rfl)
        fun _ => autoResume_starts.last

theorem rejectOp_keepsPhase {o : Op} (h : RejectOp b o) : KeepsPhase a o := by
  rcases h with h | h
  · exact decideOp_keepsPhase h
  · intro s
    cases o with
    | getApproval _ _ | setPayload _ _ | gatewayCall _ _ _ => exact h.elim
    | _ => exact ⟨trivial, fun _ => rfl⟩

theorem manualResume_starts : Starts a (manualResumeApproval env a) := by
  unfold manualResumeApproval
  refine Starts.after getRequest_keepsPhase fun row => ?_
  cases row with
  | none => trivial
  | some approval =>
    dsimp only
    split
    · trivial
    split
    · trivial
    · exact doResume_starts.last

/-- A resume of another approval. -/
theorem resumeOp_keepsPhase {o : Op} (hb : b ≠ a) (h : ResumeOp b o) : KeepsPhase a o := by
  intro s
  cases o with
  | getApproval site c =>
    obtain rfl : c = b := h.elim id id
    cases site with
    | resumeCheck =>
      refine ⟨fun h => absurd h hb, fun r => ?_⟩
      rcases r with e | _ | row
      · rfl
      · rfl
      · exact if_neg fun h => hb h.1
    | _ => exact ⟨trivial, fun _ => rfl⟩
  | setPayload c p =>
    obtain rfl : c = b := h.elim id id
    exact ⟨fun h => absurd h hb, fun _ => if_neg hb⟩
  | gatewayCall site tool args =>
    cases site with
    | approved c step =>
      obtain rfl : c = b := h.elim id False.elim
      exact ⟨fun h => absurd h hb, fun _ => if_neg hb⟩
    | _ => exact ⟨trivial, fun _ => rfl⟩
  | _ => exact ⟨trivial, fun _ => rfl⟩

theorem approveOp_keepsPhase {o : Op} (hb : b ≠ a) (h : ApproveOp b o) : KeepsPhase a o := by
  rcases h with h | h | h
  · exact resumeOp_keepsPhase hb h
  · exact decideOp_keepsPhase h
  · cases o with
    | trace _ _ _ | audit _ => exact keepsPhase_report rfl
    | _ => exact h.elim

theorem runKeywordOp_keepsPhase {o : Op} (h : RunKeywordOp o) : KeepsPhase a o := by
  intro s
  cases o with
  | getApproval _ _ | setPayload _ _ => exact h.elim
  | gatewayCall site tool args =>
    obtain rfl : site = .graphKeyword := h
    exact ⟨trivial, fun _ => rfl⟩
  | _ => exact ⟨trivial, fun _ => rfl⟩

/-- **Every request** keeps to the machine. -/
theorem request_starts {sv : Service} (r : Request) : Starts a (r.code sv) := by
  have hother : (∀ o, r.Ops o → KeepsPhase a o) → Starts a (r.code sv) := fun h =>
    starts_of_keeps ((r.code_uses sv).mono h)
  cases r with
  | runKeyword t q => exact hother fun _ => runKeywordOp_keepsPhase
  | approve b req =>
    by_cases hb : b = a
    · subst hb
      exact approve_starts
    · exact hother fun _ => approveOp_keepsPhase hb
  | reject b req => exact hother fun _ => rejectOp_keepsPhase
  | resume b =>
    by_cases hb : b = a
    · subst hb
      exact resume_starts
    · exact hother fun _ => resumeOp_keepsPhase hb
  | manualResume b =>
    by_cases hb : b = a
    · subst hb
      exact manualResume_starts
    · exact hother fun _ => resumeOp_keepsPhase hb
  | expireOld now =>
    refine hother fun o h => ?_
    obtain rfl : o = .expireOld now := h
    exact fun s => ⟨trivial, fun _ => rfl⟩

end Conformance

end AgentHarness
