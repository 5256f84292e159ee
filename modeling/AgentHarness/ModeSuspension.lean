import AgentHarness.KernelOutcomes
import AgentHarness.Orchestrator

/-!
# ModeSuspension — which modes go on after they asked for an approval

The keyword path, the graph adapter, the multi-tool mode and the NL2SQL mode ask last, if at all, and leave
the task waiting.  `auto` and `multi_agent` run the multi-tool pipeline as one of several attempts and read no
`requires_approval` in its answer: `auto` goes on with the keyword path, `multi_agent` completes the task.  So
the law holds exactly where that inner pipeline is not reached or is not suspended (`asksInside`).
-/

namespace AgentHarness

open Lib Py

/-- Any operation but the creation of an approval. -/
def Op.leavesApprovals : Op → Bool
  | .insertApproval _ => false
  | _ => true

theorem leavesApprovals_of_quiet {o : Op} (h : o.isQuiet = true) : o.leavesApprovals = true := by
  cases o <;> first | rfl | cases h

/-- The part asked for an approval of the task if `b` says so, and for none if not. -/
def Asking (taskId : String) (b : Bool) (w w' : World) : Prop :=
  ∃ evs, Ran w w' evs ∧ if b then ∃ e ∈ evs, asksFor taskId e = true else Silences evs

section Asking

variable {env : Env} {α β : Type} {taskId : String} {b : Bool} {w w₁ w' : World}

theorem Asking.refl (w : World) : Asking taskId false w w := ⟨[], .refl w, .nil⟩

theorem Asking.trans {b' : Bool} (h : Asking taskId b w w₁) (h' : Asking taskId b' w₁ w') :
    Asking taskId (b || b') w w' := by
  obtain ⟨evs, hran, hevs⟩ := h
  obtain ⟨evs', hran', hevs'⟩ := h'
  refine ⟨evs ++ evs', hran.trans hran', ?_⟩
  cases b with
  | true =>
    obtain ⟨e, he, hasks⟩ := hevs
    exact ⟨e, List.mem_append_left _ he, hasks⟩
  | false =>
    cases b' with
    | true =>
      obtain ⟨e, he, hasks⟩ := hevs'
      exact ⟨e, List.mem_append_right _ he, hasks⟩
    | false => exact Silences.append hevs hevs'

/-- Nothing was asked for in the first part. -/
theorem Asking.after (h : Asking taskId false w w₁) (h' : Asking taskId b w₁ w') : Asking taskId b w w' := by
  have := h.trans h'
  rwa [Bool.false_or] at this

/-- Nothing was asked for in the second part. -/
theorem Asking.quiet (h : Asking taskId b w w₁) (h' : Asking taskId false w₁ w') : Asking taskId b w w' := by
  have := h.trans h'
  rwa [Bool.or_false] at this

theorem Moves.asking {rows : List ApprovalRow} (h : Moves w w' [] rows) : Asking taskId false w w' :=
  ⟨[], h.ran, .nil⟩

theorem asking_exec {o : Op} (h : o.leavesApprovals = true) : Asking taskId false w (exec env 0 o w).2 := by
  cases hact : o.isAct with
  | false => exact (moves_exec hact).asking
  | true =>
    refine ⟨_, (moves_act hact).ran, Silences.nil.cons ?_⟩
    cases o <;> first | rfl | cases h

/-- A part that creates no approval. -/
theorem wp_unasking {p : Py α} (hu : p.Uses fun o => o.leavesApprovals = true) :
    wp (sequential env) p (fun _ w' => Asking taskId false w w') w :=
  keeps_of_uses (fun _ ho _ h => h.quiet (asking_exec ho)) hu w (.refl w)

theorem wp_asking {p : Py α} (h : Asking taskId b w w₁) (hu : p.Uses fun o => o.leavesApprovals = true) :
    wp (sequential env) p (fun _ w' => Asking taskId b w w') w₁ :=
  wp_mono (wp_unasking hu) fun _ _ h' => h.quiet h'

theorem traceTask_unasked {e t : String} {d : Dict} : (traceTask e t d).Uses fun o => o.leavesApprovals = true :=
  traceTask_uses rfl

end Asking

theorem truthy_approvalIdVal {a : ApprovalId} : (approvalIdVal a).truthy = true := by
  simp [approvalIdVal, PyVal.truthy]

/-! ## The pipeline -/

section Pipeline

variable {taskId : String} {asks : Bool} {w w' : World}

/-- What the pipeline ends with, after silent acts. -/
theorem PipelineEnds.after {r : Except PyExc Dict} {w₁ : World}
    (h₁ : Asking taskId false w w₁) (h : PipelineEnds taskId asks w₁ r w') : PipelineEnds taskId asks w r w' := by
  obtain ⟨evs₁, hran₁, hs₁⟩ := h₁
  cases asks with
  | true =>
    obtain ⟨pre, e, d, a, hran, hpre, he, hr, hd⟩ := h
    refine ⟨evs₁ ++ pre, e, d, a, ?_, Silences.append hs₁ hpre, he, hr, hd⟩
    rw [List.append_assoc]
    exact hran₁.trans hran
  | false =>
    obtain ⟨evs, hran, hs, hd⟩ := h
    exact ⟨evs₁ ++ evs, hran₁.trans hran, Silences.append hs₁ hs, hd⟩

theorem PipelineEnds.asking {r : Except PyExc Dict} (h : PipelineEnds taskId asks w r w') : Asking taskId asks w w' := by
  cases asks with
  | true =>
    obtain ⟨pre, e, -, -, hran, -, he, -⟩ := h
    exact ⟨_, hran, e, List.mem_append_right _ List.mem_cons_self, he⟩
  | false =>
    obtain ⟨evs, hran, hs, -⟩ := h
    exact ⟨evs, hran, hs⟩

end Pipeline

/-! ## The keyword mode of the graph adapter -/

namespace GraphRuntimeAdapter

variable {env : Env} {w w' : World} {state : GraphRuntimeState} {α : Type}

/-- The answer creates no approval, or creates one last and says so. -/
def AsksLast (taskId : String) (w : World) (r : Except PyExc Dict) (w' : World) : Prop :=
  Asking taskId false w w' ∨ ∃ e d, Ran w w' [e] ∧ r = .ok d ∧
    (Dict.get d "requires_approval").truthy = true ∧ (Dict.get d "approval_id").truthy = true

variable {taskId : String}

/-- What has happened before asks for nothing. -/
theorem AsksLast.after {r : Except PyExc Dict} {w₁ : World} {rows : List ApprovalRow} (h₁ : Moves w w₁ [] rows)
    (h : AsksLast taskId w₁ r w') : AsksLast taskId w r w' := by
  rcases h with h | ⟨e, d, hran, hr, hd⟩
  · exact .inl (h₁.asking.after h)
  · exact .inr ⟨e, d, Ran.after h₁ hran, hr, hd⟩

theorem checkpoint_unasked {stage : String} {status : CheckpointStatus}
    (hs : status ∈ [.running, .completed, .failed, .blocked, .interrupted]) :
    (checkpoint env state stage status).Uses fun o => o.isQuiet = true :=
  checkpoint_uses hs rfl (fun _ _ => rfl) (fun _ => rfl) fun _ _ _ => rfl

theorem fail_unasked {exc : PyExc} : (fail env state exc).Uses fun o => o.isQuiet = true :=
  (checkpoint_unasked (by simp)).bind fun _ => trivial

/-- What a guarded part leaves is handled, or continued. -/
theorem wp_tried {p : Py α} {next : α → Py Dict} {R : Except PyExc α → World → Prop}
    {Q : Except PyExc Dict → World → Prop} (hp : wp (sequential env) p R w)
    (hok : ∀ a w', R (.ok a) w' → wp (sequential env) (next a) Q w')
    (herr : ∀ e w', R (.error e) w' → wp (sequential env) (fail env state e) Q w') :
    wp (sequential env) (guarded env state p next) Q w := by
  unfold guarded
  refine wp_seq (wp_attempt hp) ?_ ?_
  · rintro r w' ⟨_, ⟨⟩, h⟩
    cases r with
    | ok a => exact hok a w' h
    | error e => exact herr e w' h
  · rintro e w' ⟨_, h, -⟩
    cases h

/-- The handler asks for nothing after a part that asked for nothing. -/
theorem wp_guarded {p : Py α} {next : α → Py Dict} {R : Except PyExc α → World → Prop}
    (hp : wp (sequential env) p R w) (hok : ∀ a w', R (.ok a) w' → wp (sequential env) (next a) (AsksLast taskId w) w')
    (herr : ∀ e w', R (.error e) w' → Asking taskId false w w') :
    wp (sequential env) (guarded env state p next) (AsksLast taskId w) w := by
  refine wp_tried hp hok fun e w' h => ?_
  have hu := (@fail_unasked env state e).mono fun _ => leavesApprovals_of_quiet
  exact wp_mono (wp_asking (herr e w' h) hu) fun _ _ h => .inl h

/-- A guarded part that is quiet. -/
theorem wp_guarded_quiet {p : Py α} {next : α → Py Dict} (hu : p.Uses fun o => o.isQuiet = true)
    (hok : ∀ a w', wp (sequential env) (next a) (AsksLast taskId w') w') :
    wp (sequential env) (guarded env state p next) (AsksLast taskId w) w :=
  wp_guarded (wp_quiet hu) (fun a w' h => wp_mono (hok a w') fun _ _ h' => h'.after h) fun _ _ h => h.asking

theorem respond_spec {response : Dict} {error : Option String} {status : CheckpointStatus}
    (hs : status ∈ [.running, .completed, .failed, .blocked, .interrupted]) :
    wp (sequential env) (respond env state response error status) (AsksLast taskId w) w :=
  wp_guarded_quiet (checkpoint_unasked hs) fun _ w' => .inl (.refl w')

theorem silent_markPendingInterrupt {c : String} {a : ApprovalId} {payload graphState : Dict} :
    Silent env (markPendingInterrupt c a payload graphState) := by
  unfold markPendingInterrupt
  refine Silent.bind (silent_perform rfl fun _ _ => ⟨⟨_, rfl⟩, rfl⟩) fun _ => ?_
  exact silent_perform rfl fun _ _ => ⟨⟨_, rfl⟩, rfl⟩

/-- The approval is created after the checkpoint, and what follows it does not fail. -/
theorem interrupt_spec {toolName : String} {spec : ToolSpec} {decision : Decision} :
    wp (sequential env) (interrupt env state toolName spec decision) (AsksLast taskId w) w := by
  unfold interrupt
  dsimp only
  refine wp_guarded_quiet (checkpoint_unasked (by split <;> simp)) fun c w₁ => ?_
  refine wp_guarded (R := AsksLast taskId w₁) ?_ (fun d w' h => h) fun e w' h => ?_
  · refine wp_perform_bind rfl ?_
    have h₀ : Moves w₁ (exec env 0 .now w₁).2 [] w₁.db.approvals := moves_quiet rfl
    split
    · exact .inl h₀.asking
    unfold createApproval
    refine wp_perform_bind rfl ?_
    refine wp_silent_seq silent_markPendingInterrupt fun _ w₂ h₂ => ?_
    refine wp_silent_seq silent_recordAudit fun _ w₃ h₃ => ?_
    have hran := Ran.quiet (Ran.quiet (Ran.after h₀ (Moves.ran moves_insertApproval)) h₂) h₃
    exact .inr ⟨_, _, hran, rfl, rfl, truthy_approvalIdVal⟩
  · rcases h with h | ⟨_, _, -, h, -⟩
    · exact h
    · cases h

theorem guarded_unasked {p : Py α} {next : α → Py Dict} (hp : p.Uses fun o => o.leavesApprovals = true)
    (hnext : ∀ a, (next a).Uses fun o => o.leavesApprovals = true) :
    (guarded env state p next).Uses fun o => o.leavesApprovals = true := by
  unfold guarded
  refine Prog.Uses.bind (Prog.Uses.tryCatch (hp.bind fun _ => trivial) fun _ => trivial) fun outcome => ?_
  cases outcome with
  | ok a => exact hnext a
  | error e => exact fail_unasked.mono fun _ => leavesApprovals_of_quiet

theorem callTool_unasked {planner : Planner} {toolName : String} :
    (callTool env planner state toolName).Uses fun o => o.leavesApprovals = true := by
  have hcheck : ∀ (state : GraphRuntimeState) stage status,
      status ∈ [CheckpointStatus.running, .completed, .failed, .blocked, .interrupted] →
      (checkpoint env state stage status).Uses fun o => o.leavesApprovals = true := fun _ _ _ hs =>
    (checkpoint_unasked hs).mono fun _ => leavesApprovals_of_quiet
  unfold callTool
  refine guarded_unasked ?_ fun x => ?_
  · exact Prog.uses_call_bind.mpr ⟨rfl, fun r => Prog.uses_ofExcept_bind fun _ _ => trivial⟩
  refine guarded_unasked (hcheck _ _ _ (by simp)) fun _ => ?_
  refine guarded_unasked (hcheck _ _ _ (by simp)) fun _ => ?_
  exact guarded_unasked (hcheck _ _ _ (by split <;> simp)) fun _ => trivial

/-- **The graph run** asks last, if at all. -/
theorem runKeyword_spec {planner : Planner} {query : String} :
    wp (sequential env) (runKeyword env planner taskId query) (AsksLast taskId w) w := by
  unfold runKeyword
  dsimp only
  refine wp_guarded_quiet (checkpoint_unasked (by simp)) fun _ w₁ => ?_
  refine wp_guarded_quiet (checkpoint_unasked (by simp)) fun _ w₂ => ?_
  unfold execute
  split
  · exact respond_spec (by simp)
  split
  · exact respond_spec (by simp)
  refine wp_guarded_quiet (Prog.uses_call.mpr rfl) fun spec w₃ => ?_
  split
  · exact respond_spec (by simp)
  refine wp_guarded_quiet (Prog.uses_call.mpr rfl) fun decision w₄ => ?_
  split
  · exact interrupt_spec
  · exact wp_mono (wp_unasking callTool_unasked) fun _ _ h => .inl h

end GraphRuntimeAdapter

namespace AgentKernel

variable {k : AgentKernel} {task : TaskRun} {opts : RunOptions} {w w' : World}

/-- A mode that asks last, if at all, and leaves the task waiting then. -/
def SuspendsRun (w : World) (r : Except PyExc TaskRun) (w' : World) : Prop :=
  ∃ evs, Ran w w' evs ∧ Suspends evs r

theorem SuspendsRun.of_unasked {taskId : String} {r : Except PyExc TaskRun} (h : Asking taskId false w w') :
    SuspendsRun w r w' := by
  obtain ⟨evs, hran, hs⟩ := h
  exact ⟨evs, hran, .inl hs⟩

/-- Silent acts come before. -/
theorem SuspendsRun.after {taskId : String} {r : Except PyExc TaskRun} {w₁ : World} (h₁ : Asking taskId false w w₁)
    (h : SuspendsRun w₁ r w') : SuspendsRun w r w' := by
  obtain ⟨evs₁, hran₁, hs₁⟩ := h₁
  obtain ⟨evs, hran, hs⟩ := h
  exact ⟨evs₁ ++ evs, hran₁.trans hran, hs.append hs₁⟩

/-- Handler and parts of a `try` that create no approval. -/
theorem guarded_unasked {α : Type} {t : TaskRun} {handler : TaskRun → PyExc → Py TaskRun} {p : Py α}
    {next : α → Py TaskRun} (hhandler : ∀ e, (handler t e).Uses fun o => o.leavesApprovals = true)
    (hp : p.Uses fun o => o.leavesApprovals = true) (hnext : ∀ a, (next a).Uses fun o => o.leavesApprovals = true) :
    (guarded t handler p next).Uses fun o => o.leavesApprovals = true := by
  unfold guarded
  refine Prog.Uses.bind (Prog.Uses.tryCatch (hp.bind fun _ => trivial) fun _ => trivial) fun outcome => ?_
  cases outcome with
  | ok a => exact hnext a
  | error e => exact hhandler e

theorem failMode_unasked {mode answerKey label : String} {t : TaskRun} (e : PyExc) :
    (failMode mode answerKey label t e).Uses fun o => o.leavesApprovals = true :=
  Prog.uses_call_bind.mpr ⟨rfl, fun _ => trivial⟩

theorem run_suspends : wp (sequential k.env) (k.run task) (SuspendsRun w) w := by
  refine wp_mono run_spec ?_
  rintro r w' ⟨evs, hran, hs, -⟩
  exact ⟨_, hran, hs.cons rfl⟩

theorem runGraph_suspends {adapter : Planner} :
    wp (sequential k.env) (k.runGraph adapter task) (SuspendsRun w) w := by
  unfold runGraph
  refine wp_perform_bind rfl ?_
  have h₀ : Asking task.taskId false w (exec k.env 0 (.enterMode "keyword") w).2 := asking_exec rfl
  refine wp_seq GraphRuntimeAdapter.runKeyword_spec (fun payload w₁ h => ?_) fun e w₁ h => ?_
  · rcases h with h | ⟨e, d, hran, hd, hasks, hid⟩
    · exact .of_unasked (h₀.after h)
    · obtain rfl := Except.ok.inj hd
      refine SuspendsRun.after h₀ ⟨[e], hran, .inr ⟨[], e, _, rfl, .nil, rfl, ?_⟩⟩
      rw [if_pos hasks, if_pos hid]
  · rcases h with h | ⟨_, _, -, hd, -⟩
    · exact .of_unasked (h₀.after h)
    · cases hd

/-- NL2SQL creates no approval. -/
theorem runNl2sql_unasked : (k.runNl2sql task opts).Uses fun o => o.leavesApprovals = true := by
  unfold runNl2sql
  refine Prog.uses_call_bind.mpr ⟨rfl, fun _ => ?_⟩
  refine guarded_unasked failMode_unasked ?_ fun result => guarded_unasked failMode_unasked ?_ fun _ => trivial
  · exact Prog.uses_call_bind.mpr ⟨rfl, fun _ => Prog.uses_call_bind.mpr ⟨rfl, fun _ => Prog.uses_call.mpr rfl⟩⟩
  · refine Prog.uses_ofExcept_bind fun _ _ => Prog.uses_ofExcept_bind fun _ _ => Prog.uses_ofExcept_bind fun _ _ => ?_
    exact Prog.uses_call_bind.mpr ⟨rfl, fun _ => Prog.uses_call.mpr rfl⟩

theorem runMultitool_suspends : wp (sequential k.env) (k.runMultitool task) (SuspendsRun w) w := by
  unfold runMultitool
  refine wp_perform_bind rfl ?_
  have h₀ : Asking task.taskId false w (exec k.env 0 (.enterMode "multitool") w).2 := asking_exec rfl
  generalize (exec k.env 0 (.enterMode "multitool") w).2 = w₀ at h₀ ⊢
  refine wp_guarded (R := fun r w' => ∃ asks, PipelineEnds task.taskId asks w r w') ?_ ?_ ?_
  · refine wp_silent_seq silent_trace fun _ w₁ h₁ => wp_silent_seq silent_trace fun _ w₂ h₂ => ?_
    exact wp_mono pipeline_spec fun r w' h => ⟨_, h.after (h₀.quiet (h₁.quiet h₂).asking)⟩
  · rintro result w₁ ⟨asks, h⟩
    dsimp only
    cases asks with
    | true =>
      obtain ⟨pre, e, d, a, hran, hpre, he, hd, hwaits⟩ := h
      obtain rfl := Except.ok.inj hd
      rw [if_pos (by simp [Dict.get, Dict.getD, hwaits.requiresApproval, PyVal.truthy])]
      refine wp_guarded_silent silent_trace fun _ w₂ h₂ => ?_
      exact ⟨_, hran.quiet h₂, .inr ⟨pre, e, _, rfl, hpre, rfl, rfl⟩⟩
    | false =>
      have hnone : Dict.get? result "requires_approval" = none := by
        obtain ⟨_, -, -, hd⟩ := h
        exact hd result rfl
      rw [if_neg (by simp [Dict.get, Dict.getD, hnone, PyVal.truthy])]
      refine wp_mono (wp_asking h.asking ?_) fun _ _ h' => .of_unasked h'
      refine guarded_unasked failMode_unasked (Prog.uses_ofExcept_bind fun success _ => ?_) fun _ => trivial
      split
      · refine Prog.uses_ofExcept_bind fun _ _ => Prog.uses_call_bind.mpr ⟨rfl, fun _ => Prog.uses_call.mpr rfl⟩
      · exact Prog.uses_call_bind.mpr ⟨rfl, fun _ => Prog.uses_call.mpr rfl⟩
  · rintro e w₁ ⟨asks, h⟩
    cases asks with
    | true =>
      obtain ⟨_, _, _, _, -, -, -, hd, -⟩ := h
      cases hd
    | false => exact wp_mono (wp_asking h.asking (failMode_unasked e)) fun _ _ h' => .of_unasked h'

/-! ## `auto` -/

/-- An approval of the task is created, and the run goes on or does not leave the task waiting. -/
def Overruns (taskId : String) (w : World) (r : Except PyExc TaskRun) (w' : World) : Prop :=
  ∃ pre e post, Ran w w' (pre ++ e :: post) ∧ asksFor taskId e = true ∧
    ((∃ e' ∈ post, startsWork e' = true) ∨ ∀ task, r = .ok task → task.status ≠ .waiting_approval)

theorem not_suspendsTask {taskId : String} {db : Db} {r : Except PyExc TaskRun}
    (h : Overruns taskId ⟨db, []⟩ r w') : ¬ SuspendsTask taskId (r, w') := by
  obtain ⟨pre, e, post, hran, he, hover⟩ := h
  intro hsuspends
  have hacts : w'.log.filter (fun e => e.op.isAct) = pre ++ e :: post := hran
  obtain ⟨l₁, l₂, hlog, -, hl₂⟩ := List.filter_eq_append_iff.mp hacts
  obtain ⟨l₃, l₄, rfl, -, -, rfl⟩ := List.filter_eq_cons_iff.mp hl₂
  obtain ⟨hquiet, task, hr, hwaits⟩ := hsuspends (l₁ ++ l₃) e l₄ (by simp [hlog]) he
  rcases hover with ⟨e', he', hstarts⟩ | hst
  · have hmem : e' ∈ l₄ := (List.mem_filter.mp he').1
    exact absurd (hquiet e' hmem) (by simp [hstarts])
  · exact hst task hr hwaits

/-- The run overruns the approval if `b` says so, and suspends the task if not. -/
def Verdict (taskId : String) (b : Bool) (w : World) (r : Except PyExc TaskRun) (w' : World) : Prop :=
  if b then Overruns taskId w r w' else SuspendsRun w r w'

theorem Verdict.after {taskId : String} {b : Bool} {r : Except PyExc TaskRun} {w₁ : World}
    (h₁ : Asking taskId false w w₁) (h : Verdict taskId b w₁ r w') : Verdict taskId b w r w' := by
  cases b with
  | true =>
    obtain ⟨evs₁, hran₁, -⟩ := h₁
    obtain ⟨pre, e, post, hran, h⟩ := h
    refine ⟨evs₁ ++ pre, e, post, ?_, h⟩
    rw [List.append_assoc]
    exact hran₁.trans hran
  | false => exact SuspendsRun.after h₁ h

theorem Verdict.suspendsTask_iff {taskId : String} {b : Bool} {db : Db} {r : Except PyExc TaskRun}
    (h : Verdict taskId b ⟨db, []⟩ r w') : SuspendsTask taskId (r, w') ↔ b = false := by
  cases b with
  | true => exact iff_of_false (not_suspendsTask h) nofun
  | false =>
    obtain ⟨evs, hran, hs⟩ := h
    exact iff_of_true (hs.task hran) rfl

/-- The keyword run that ends `auto` keeps what the run keeps, and enters its mode. -/
theorem autoKeyword_spec {chain : List String} {reason : String} :
    wp (sequential k.env) (k.autoKeyword task chain reason)
      (fun r w' => SuspendsRun w r w' ∧ (∃ evs, Ran w w' (enterEvent "keyword" :: evs)) ∧ ∃ t, r = .ok t) w := by
  unfold autoKeyword
  refine wp_seq run_spec ?_ ?_
  · rintro t w₁ ⟨evs, hran, hs, -⟩
    refine ⟨⟨_, hran, Suspends.cons rfl ?_⟩, ⟨_, hran⟩, _, rfl⟩
    rcases hs with hs | ⟨pre, e, t', rfl, hpre, ht, hst⟩
    · exact .inl hs
    · obtain rfl := Except.ok.inj ht
      exact .inr ⟨pre, e, _, rfl, hpre, rfl, hst⟩
  · rintro e w₁ ⟨_, -, -, _, h⟩
    cases h

theorem autoFailed_suspends {chain : List String} {e : PyExc} :
    wp (sequential k.env) (k.autoFailed chain task e) (SuspendsRun w) w := by
  unfold autoFailed
  refine wp_silent_seq silent_trace fun _ w₁ h₁ => wp_silent_seq silent_trace fun _ w₂ h₂ => ?_
  have hasked : Asking "" false w w₂ := (h₁.quiet h₂).asking
  exact wp_mono autoKeyword_spec fun r w' h => h.1.after hasked

/-- A part of `auto` that creates no approval: what follows it, and the keyword run of the handler, suspend. -/
theorem wp_guarded_auto {α : Type} {t : TaskRun} {chain : List String} {p : Py α} {next : α → Py TaskRun}
    {w₁ : World} {taskId : String} (h : Asking taskId false w w₁) (hp : p.Uses fun o => o.leavesApprovals = true)
    (hok : ∀ a w', Asking taskId false w w' → wp (sequential k.env) (next a) (SuspendsRun w) w') :
    wp (sequential k.env) (guarded t (k.autoFailed chain) p next) (SuspendsRun w) w₁ :=
  wp_guarded (wp_asking h hp) hok fun _ _ h' => wp_mono autoFailed_suspends fun _ _ hs => hs.after h'

/-- What the pipeline leaves for `auto`. -/
def Attempted (taskId : String) (asks : Bool) (w : World) (r : Except PyExc (Dict × PyVal)) (w' : World) : Prop :=
  if asks then ∃ pre e d, Ran w w' (pre ++ [e]) ∧ asksFor taskId e = true ∧ r = .ok (d, .bool false)
  else Asking taskId false w w'

theorem autoMultitool_attempt :
    wp (sequential k.env) (do
        enterMode "multitool"
        trace "auto_fallback_multitool" task.taskId [("reason", .str "nl2sql failed")]
        trace "multitool_started" task.taskId [("query", .str task.query)]
        let result ← MultiToolPipeline.run k.env k.multitoolPlanner task.query task.taskId
        let success ← Prog.ofExcept (Dict.index result "success")
        pure (result, success))
      (Attempted task.taskId (pipelineAsks k.env k.multitoolPlanner task.query (callsOf w.log)) w) w := by
  refine wp_perform_bind rfl ?_
  have h₀ : Asking task.taskId false w (exec k.env 0 (.enterMode "multitool") w).2 := asking_exec rfl
  have hcalls₀ := @callsOf_enterMode w k.env "multitool"
  refine wp_silent_seq silent_trace fun _ w₁ h₁ => wp_silent_seq silent_trace fun _ w₂ h₂ => ?_
  have hcalls : callsOf w₂.log = callsOf w.log :=
    h₂.callsOf_quiet.trans (h₁.callsOf_quiet.trans hcalls₀)
  have hspec := @pipeline_spec k.env w₂ task.taskId task.query k.multitoolPlanner
  rw [hcalls] at hspec
  generalize pipelineAsks k.env k.multitoolPlanner task.query (callsOf w.log) = asks at hspec ⊢
  have hbefore := h₀.quiet (h₁.quiet h₂).asking
  refine wp_seq hspec (fun d w₃ h => ?_) fun e w₃ h => ?_
  · have h := h.after hbefore
    cases asks with
    | true =>
      obtain ⟨pre, e, d', a, hran, -, he, hd, hwaits⟩ := h
      obtain rfl := Except.ok.inj hd
      rw [Reports.index hwaits.success]
      exact ⟨pre, e, d, hran, he, rfl⟩
    | false =>
      cases Dict.index d "success" with
      | ok success => exact h.asking
      | error e => exact h.asking
  · have h := h.after hbefore
    cases asks with
    | true =>
      obtain ⟨_, _, _, _, -, -, -, hd, -⟩ := h
      cases hd
    | false => exact h.asking

/-- After the pipeline was suspended `auto` enters the keyword path. -/
theorem autoMultitool_verdict :
    wp (sequential k.env) (k.autoMultitool task)
      (Verdict task.taskId (pipelineAsks k.env k.multitoolPlanner task.query (callsOf w.log)) w) w := by
  unfold autoMultitool
  dsimp only
  refine wp_guarded autoMultitool_attempt ?_ ?_
  · rintro ⟨d, success⟩ w₁ h
    generalize pipelineAsks k.env k.multitoolPlanner task.query (callsOf w.log) = asks at h ⊢
    dsimp only
    cases asks with
    | true =>
      obtain ⟨pre, e, d', hran, he, hd⟩ := h
      obtain ⟨rfl, rfl⟩ := Prod.mk.inj (Except.ok.inj hd)
      rw [if_neg (show ¬ (PyVal.bool false).truthy = true from Bool.false_ne_true)]
      refine wp_guarded_silent silent_trace fun _ w₂ h₂ => ?_
      refine wp_guarded (R := fun r w' => (∃ t, r = .ok t) ∧ ∃ evs, Ran w₂ w' (enterEvent "keyword" :: evs)) ?_ ?_ ?_
      · refine wp_silent_seq silent_trace fun _ w₃ h₃ => wp_mono autoKeyword_spec ?_
        rintro r w' ⟨-, ⟨evs, hran⟩, hr⟩
        exact ⟨hr, evs, Ran.after h₃ hran⟩
      · rintro t w₃ ⟨-, evs, hkeyword⟩
        refine ⟨pre, e, enterEvent "keyword" :: evs, ?_, he, .inl ⟨_, List.mem_cons_self, rfl⟩⟩
        have := (hran.quiet h₂).trans hkeyword
        rwa [List.append_assoc] at this
      · rintro exc w₃ ⟨⟨t, ht⟩, -⟩
        cases ht
    | false =>
      have h : Asking task.taskId false w w₁ := h
      show wp _ _ (SuspendsRun w) _
      split
      · refine wp_guarded_auto h ?_ fun _ w₂ h₂ => .of_unasked h₂
        exact Prog.uses_call_bind.mpr ⟨rfl, fun _ => Prog.uses_call.mpr rfl⟩
      · refine wp_guarded_auto h (Prog.uses_call.mpr rfl) fun _ w₂ h₂ => ?_
        refine wp_guarded (R := fun r w' => SuspendsRun w r w' ∧ ∃ t, r = .ok t) ?_ (fun t w₃ h₃ => h₃.1) ?_
        · refine wp_silent_seq silent_trace fun _ w₃ h₃ => ?_
          exact wp_mono autoKeyword_spec fun r w' hs => ⟨hs.1.after (h₂.quiet h₃.asking), hs.2.2⟩
        · rintro exc w₃ ⟨-, t, ht⟩
          cases ht
  · rintro e w₁ h
    generalize pipelineAsks k.env k.multitoolPlanner task.query (callsOf w.log) = asks at h ⊢
    cases asks with
    | true =>
      obtain ⟨_, _, _, -, -, hd⟩ := h
      cases hd
    | false =>
      have h : Asking task.taskId false w w₁ := h
      exact wp_mono autoFailed_suspends fun _ _ hs => hs.after h

end AgentKernel

/-! ## NL2SQL -/

/-- What run `runs` of NL2SQL answers, and whether that is a success. -/
def nl2sqlAttempt (env : Env) (req : Nl2sqlRequest) (runs : Nat) : Except PyExc (Dict × PyVal) := do
  let result ← env.nl2sql runs req
  let success ← Dict.index result "success"
  return (result, success)

theorem nl2sqlAttempt_ok {env : Env} {req : Nl2sqlRequest} {runs : Nat} {d : Dict} {success : PyVal}
    (h : nl2sqlAttempt env req runs = .ok (d, success)) :
    env.nl2sql runs req = .ok d ∧ Dict.index d "success" = .ok success := by
  change (env.nl2sql runs req >>= fun d => Dict.index d "success" >>= fun success => .ok (d, success)) = _ at h
  cases hresult : env.nl2sql runs req with
  | error e =>
    rw [hresult] at h
    cases h
  | ok result =>
    rw [hresult] at h
    change (Dict.index result "success" >>= fun success => .ok (result, success)) = _ at h
    cases hindex : Dict.index result "success" with
    | error e =>
      rw [hindex] at h
      cases h
    | ok v =>
      rw [hindex] at h
      obtain ⟨rfl, rfl⟩ := Prod.mk.inj (Except.ok.inj h)
      exact ⟨rfl, hindex⟩

/-- NL2SQL gives an answer that is no success, and the pipeline is suspended after it. -/
def autoAsks (env : Env) (planner : String → MultiToolPlan) (req : RunRequest) (calls : List Call) (runs : Nat) :
    Bool :=
  match nl2sqlAttempt env req.nl2sql runs with
  | .ok (_, success) => !success.truthy && pipelineAsks env planner req.query calls
  | .error _ => false

section Counts

variable {env : Env} {w w' : World} {evs : List Event} {req : Nl2sqlRequest}

theorem Ran.callsOf (h : Ran w w' evs) : callsOf w'.log = AgentHarness.callsOf w.log ++ AgentHarness.callsOf evs := by
  rw [← callsOf_acts, h]
  unfold AgentHarness.callsOf
  rw [List.filterMap_append]
  exact congrArg (· ++ _) (callsOf_acts w.log)

theorem Ran.nl2sqlRuns (h : Ran w w' evs) :
    nl2sqlRuns w'.log = AgentHarness.nl2sqlRuns w.log + AgentHarness.nl2sqlRuns evs := by
  rw [← nl2sqlRuns_acts, h]
  unfold AgentHarness.nl2sqlRuns
  rw [List.countP_append]
  exact congrArg (· + _) (nl2sqlRuns_acts w.log)

theorem Moves.nl2sqlRuns_quiet {rows : List ApprovalRow} (h : Moves w w' [] rows) :
    AgentHarness.nl2sqlRuns w'.log = AgentHarness.nl2sqlRuns w.log := h.ran.nl2sqlRuns

def nl2sqlEvent (env : Env) (req : Nl2sqlRequest) (runs : Nat) : Event := ⟨0, .nl2sql req, env.nl2sql runs req⟩

theorem runNl2sql_spec : wp (sequential env) (Py.runNl2sql req) (fun r w' =>
    r = env.nl2sql (nl2sqlRuns w.log) req ∧ Ran w w' [nl2sqlEvent env req (nl2sqlRuns w.log)]) w :=
  wp_perform.mpr ⟨rfl, (moves_act rfl).ran⟩

end Counts

namespace AgentKernel

variable {k : AgentKernel} {task : TaskRun} {opts : RunOptions} {w w' : World}

theorem auto_attempt {t : TaskRun} {taskId : String} :
    wp (sequential k.env) (do
        enterMode "nl2sql"
        trace "task_started" t.taskId [("query", .str t.query), ("mode", .str "auto")]
        trace "nl2sql_started" t.taskId [("generator", .str opts.generator), ("provider", optStr opts.provider)]
        let result ← Py.runNl2sql (t.request opts).nl2sql
        let success ← Prog.ofExcept (Dict.index result "success")
        pure (result, success))
      (fun r w' => r = nl2sqlAttempt k.env (t.request opts).nl2sql (nl2sqlRuns w.log) ∧
        callsOf w'.log = callsOf w.log ∧ Asking taskId false w w') w := by
  refine wp_perform_bind rfl ?_
  have h₀ := @ran_enterMode k.env w "nl2sql"
  refine wp_silent_seq silent_trace fun _ w₁ h₁ => wp_silent_seq silent_trace fun _ w₂ h₂ => ?_
  have hran := h₀.quiet (h₁.quiet h₂)
  have hruns : nl2sqlRuns w₂.log = nl2sqlRuns w.log := hran.nl2sqlRuns
  have hspec := @runNl2sql_spec k.env w₂ (t.request opts).nl2sql
  rw [hruns] at hspec
  unfold nl2sqlAttempt
  refine wp_seq hspec ?_ ?_
  · rintro d w₃ ⟨hd, hran₃⟩
    have hran₃ := hran.trans hran₃
    have hcalls : callsOf w₃.log = callsOf w.log := hran₃.callsOf.trans (List.append_nil _)
    have hasked : Asking taskId false w w₃ := ⟨_, hran₃, (Silences.nil.cons rfl).cons rfl⟩
    rw [← hd]
    show wp _ _ (fun r w' => r = (Dict.index d "success" >>= fun success => .ok (d, success)) ∧ _) _
    cases Dict.index d "success" with
    | ok success => exact ⟨rfl, hcalls, hasked⟩
    | error e => exact ⟨rfl, hcalls, hasked⟩
  · rintro e w₃ ⟨hd, hran₃⟩
    have hran₃ := hran.trans hran₃
    rw [← hd]
    exact ⟨rfl, hran₃.callsOf.trans (List.append_nil _), _, hran₃, (Silences.nil.cons rfl).cons rfl⟩

/-- **`auto`** overruns the approval that its pipeline asks for. -/
theorem runAuto_verdict : wp (sequential k.env) (k.runAuto task opts) (Verdict task.taskId
    (autoAsks k.env k.multitoolPlanner (task.request opts) (callsOf w.log) (nl2sqlRuns w.log)) w) w := by
  unfold runAuto
  dsimp only
  refine wp_guarded (@auto_attempt k opts w _ task.taskId) ?_ ?_
  · rintro ⟨d, success⟩ w₁ ⟨hattempt, hcalls, hasked⟩
    unfold autoAsks
    rw [show nl2sqlAttempt k.env (task.request opts).nl2sql (nl2sqlRuns w.log) = .ok (d, success) from hattempt.symm]
    dsimp only
    by_cases hs : success.truthy = true
    · rw [if_pos hs, hs]
      show wp _ _ (SuspendsRun w) _
      refine wp_guarded_auto hasked ?_ fun _ w₂ h₂ => .of_unasked h₂
      exact Prog.uses_call_bind.mpr ⟨rfl, fun _ => Prog.uses_call.mpr rfl⟩
    · rw [if_neg hs, Bool.eq_false_iff.mpr hs, Bool.not_false, Bool.true_and]
      refine wp_guarded_silent silent_trace fun _ w₂ h₂ => ?_
      have hcalls₂ : callsOf w₂.log = callsOf w.log := h₂.callsOf_quiet.trans hcalls
      rw [← hcalls₂]
      exact wp_mono autoMultitool_verdict fun r w' h => h.after (hasked.quiet h₂.asking)
  · rintro e w₁ ⟨hattempt, -, hasked⟩
    unfold autoAsks
    rw [show nl2sqlAttempt k.env (task.request opts).nl2sql (nl2sqlRuns w.log) = .error e from hattempt.symm]
    exact wp_mono autoFailed_suspends fun _ _ hs => hs.after hasked

end AgentKernel

end AgentHarness
