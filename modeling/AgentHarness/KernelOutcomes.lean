import AgentHarness.Suspension

/-!
# KernelOutcomes — how each mode leaves its task

The status a mode leaves is known before it runs: the keyword path waits exactly where the planned
tool needs an approval (`asks`), the multi-tool mode exactly where the pipeline is suspended
(`pipelineAsks`), and the other pipeline modes complete whatever happens.  `auto` ends without the
keyword path exactly where NL2SQL succeeds, or gives an answer that is no success and the multi-tool
pipeline succeeds after it (`autoAnswers`).
-/

namespace AgentHarness

open Lib Py

section Wp

variable {env : Env} {α β : Type} {w : World}

theorem wp_any (p : Py α) : wp (sequential env) p (fun _ _ => True) w :=
  keeps_of_uses (P := fun _ => True) (fun _ _ _ h => h) (Prog.uses_true p) w trivial

/-- A part of which nothing is known. -/
theorem wp_any_seq {p : Py α} {f : α → Py β} {Q : Except PyExc β → World → Prop}
    (hok : ∀ a w', wp (sequential env) (f a) Q w') (herr : ∀ e w', Q (.error e) w') :
    wp (sequential env) (p >>= f) Q w :=
  wp_seq (wp_any p) (fun a w' _ => hok a w') fun e w' _ => herr e w'

end Wp

/-- Only acts are runs of NL2SQL. -/
theorem nl2sqlRuns_acts (log : List Event) : nl2sqlRuns (acts log) = nl2sqlRuns log := by
  unfold nl2sqlRuns acts
  rw [List.countP_filter]
  refine congrArg (List.countP · log) (funext fun e => ?_)
  cases h : e.op <;> simp [Op.isAct]

/-- The pipeline's run of the plan, after `calls`, ends with a success. -/
def pipelineSucceeds (env : Env) (planner : String → MultiToolPlan) (query : String)
    (calls : List Call) : Bool :=
  (planner query).matched &&
    match ((planWorkflow env env.pipelineApprovalStore).run (liveMemory env) (planner query).steps
      (MultiToolPipeline.State.init.flow calls)).2 with
    | .finished st =>
      match MultiToolPipeline.generateAnswer env (planner query) st.saved.saved with
      | .ok _ => true
      | .error _ => false
    | _ => false

/-- The result says whether it is a success. -/
def Reports (d : Dict) (b : Bool) : Prop := Dict.get? d "success" = some (.bool b)

theorem Reports.index {d : Dict} {b : Bool} (h : Reports d b) : Dict.index d "success" = .ok (.bool b) := by
  unfold Reports at h
  simp [Dict.index, h]

/-- The pipeline reports a success exactly where it is one. -/
theorem pipeline_reports {env : Env} {planner : String → MultiToolPlan} {query taskId : String} {w : World} :
    wp (sequential env) (MultiToolPipeline.run env planner query taskId) (fun r _ =>
      if pipelineSucceeds env planner query (callsOf w.log) then ∃ d, r = .ok d ∧ Reports d true
      else ∀ d, r = .ok d → Reports d false) w := by
  unfold MultiToolPipeline.run pipelineSucceeds
  by_cases hmatch : (planner query).matched = true
  swap
  · rw [if_pos (by simpa using hmatch)]
    simp only [hmatch, Bool.false_and, Bool.false_eq_true, if_false]
    rintro d ⟨⟩
    rfl
  rw [if_neg (by simpa using hmatch)]
  simp only [hmatch, Bool.true_and]
  refine wp_mono MultiToolPipeline.runSteps_spec fun r w' hends => ?_
  generalize (planWorkflow env env.pipelineApprovalStore).run (liveMemory env) (planner query).steps
    (MultiToolPipeline.State.init.flow (callsOf w.log)) = res at hends ⊢
  obtain ⟨l, e⟩ := res
  cases e with
  | finished st =>
    obtain ⟨-, rfl⟩ := hends
    obtain ⟨answer, hans⟩ : ∃ x, MultiToolPipeline.generateAnswer env (planner query) st.saved.saved = x :=
      ⟨_, rfl⟩
    simp only [hans]
    cases answer with
    | error e =>
      rintro d ⟨⟩
    | ok answer => exact ⟨_, rfl, rfl⟩
  | failed =>
    obtain ⟨-, d, rfl, hd⟩ := hends
    rintro _ ⟨⟩
    exact hd.success
  | suspended s rest st =>
    obtain ⟨row, -, -, d, rfl, hd⟩ := hends
    rintro _ ⟨⟩
    exact hd.success

namespace AgentKernel

variable (k : AgentKernel)

/-- The tool's call needs an approval, and there is a store to ask for it in. -/
def asksTool (toolName : String) : Bool :=
  match k.env.gateway.registry toolName, k.env.policyEngine with
  | some spec, some e =>
    !(e toolName (some spec.riskLevel)).allowed && (e toolName (some spec.riskLevel)).requiresApproval &&
      k.env.kernelApprovalStore
  | _, _ => false

/-- The planned tool needs an approval. -/
def asks (query : String) : Bool :=
  match (k.planner.plan query).toolName with
  | none => false
  | some toolName => !(toolName == "") && k.asksTool toolName

/-- What NL2SQL answers to a task, and whether that is a success. -/
def nl2sqlAnswer (task : TaskRun) (opts : RunOptions) (w : World) : Except PyExc (Dict × PyVal) := do
  let result ← k.env.nl2sql (nl2sqlRuns w.log) (task.request opts).nl2sql
  let success ← Dict.index result "success"
  return (result, success)

/-- `auto` ends without the keyword path. -/
def autoAnswers (task : TaskRun) (opts : RunOptions) (w : World) : Bool :=
  match k.nl2sqlAnswer task opts w with
  | .error _ => false
  | .ok (_, success) =>
    success.truthy || pipelineSucceeds k.env k.multitoolPlanner task.query (callsOf w.log)

/-- The mode returns the task with this status. -/
def Ends (task : TaskRun) (status : TaskStatus) (r : Except PyExc TaskRun) : Prop :=
  ∃ t, r = .ok t ∧ t.taskId = task.taskId ∧ t.status = status

variable {k} {task : TaskRun} {w : World} {env : Env}

/-! ## The keyword path -/

/-- The part waits if `b` says so, and leaves the task as it is if not. -/
def WaitsIf {α : Type} (b : Bool) (task : TaskRun) (r : Except PyExc (α × TaskRun)) : Prop :=
  if b then ∃ x, r = .ok x ∧ x.2 = { task with status := .waiting_approval }
  else ∀ x, r = .ok x → x.2 = task

/-- Only the task matters. -/
theorem WaitsIf.of_ok {α β : Type} {b : Bool} {x : α × TaskRun} {y : β × TaskRun} (hy : y.2 = x.2)
    (h : WaitsIf b task (.ok x)) : WaitsIf b task (.ok y) := by
  cases b with
  | true =>
    obtain ⟨_, ⟨⟩, hx⟩ := h
    exact ⟨y, rfl, hy.trans hx⟩
  | false =>
    rintro _ ⟨⟩
    exact hy.trans (h x rfl)

/-- A part that raised did not have to wait. -/
theorem WaitsIf.of_error {α β : Type} {b : Bool} {e : PyExc}
    (h : WaitsIf b task (.error e : Except PyExc (α × TaskRun))) :
    WaitsIf b task (.error e : Except PyExc (β × TaskRun)) := by
  cases b with
  | true =>
    obtain ⟨_, ⟨⟩, -⟩ := h
  | false =>
    rintro _ ⟨⟩

theorem requestApproval_waits {toolName : String} {arguments : Dict} {planResult : PlanResult}
    {spec : ToolSpec} {decision : Decision} :
    wp (sequential env) (requestApproval task toolName arguments planResult spec decision)
      (fun r _ => WaitsIf true task r) w := by
  unfold requestApproval createApproval
  refine wp_perform_bind rfl ?_
  exact wp_silent_seq silent_trace fun _ w₁ _ => ⟨_, rfl, rfl⟩

/-- The gate asks exactly where `asksTool` says so. -/
theorem gate_asks {toolName : String} {arguments : Dict} {planResult : PlanResult} :
    wp (sequential k.env) (k.gate task toolName arguments planResult) (fun r _ =>
      if k.asksTool toolName then
        ∃ x, r = .ok (some x) ∧ x.2 = { task with status := .waiting_approval }
      else ∀ x, r = .ok (some x) → x.2 = task) w := by
  unfold gate asksTool
  refine wp_perform_bind rfl ?_
  cases k.env.gateway.registry toolName with
  | none =>
    rintro x ⟨⟩
  | some spec =>
    dsimp only
    cases he : k.env.policyEngine with
    | none =>
      refine wp_seq (R := fun r _ => ∃ e, r = .error e) (wp_perform.mpr ?_) ?_ ?_
      · rw [exec_ans]
        simp [dbExec, he]
      · rintro a w' ⟨e, ⟨⟩⟩
      · rintro e w' - x ⟨⟩
    | some e =>
      have ha : ∀ w : World, (dbExec k.env w.log 0 (.evaluate toolName spec.riskLevel) w.db).1 =
          .ok (e toolName (some spec.riskLevel)) := fun w => by simp only [dbExec, he]
      refine wp_perform_bind (ha _) ?_
      by_cases hallow : (e toolName (some spec.riskLevel)).allowed = true
      · rw [if_pos hallow]
        simp only [hallow, Bool.not_true, Bool.false_and, Bool.false_eq_true, if_false]
        rintro x ⟨⟩
      rw [if_neg hallow]
      by_cases hreq : (e toolName (some spec.riskLevel)).requiresApproval = true ∧
          k.env.kernelApprovalStore = true
      · rw [if_pos hreq, ← bind_pure_comp]
        simp only [hallow, hreq, Bool.not_false, Bool.true_and, if_true]
        refine wp_seq requestApproval_waits ?_ ?_
        · rintro x w' ⟨_, ⟨⟩, hx⟩
          exact ⟨x, rfl, hx⟩
        · rintro exc w' ⟨_, h, -⟩
          cases h
      · rw [if_neg hreq]
        have hasks : (!(e toolName (some spec.riskLevel)).allowed &&
            (e toolName (some spec.riskLevel)).requiresApproval && k.env.kernelApprovalStore) = false := by
          simpa [hallow] using hreq
        simp only [hasks, Bool.false_eq_true, if_false]
        refine wp_silent_seq silent_trace fun _ w₁ _ => ?_
        rintro x ⟨⟩
        rfl

theorem callTool_leaves {toolName : String} {arguments : Dict} :
    wp (sequential env) (callTool task toolName arguments) (fun r _ => WaitsIf false task r) w := by
  unfold callTool
  refine wp_any_seq (fun _ _ => ?_) fun _ _ x hx => nomatch hx
  refine wp_any_seq (fun record _ => ?_) fun _ _ x hx => nomatch hx
  refine wp_any_seq (fun _ _ => ?_) fun _ _ x hx => nomatch hx
  refine wp_any_seq (fun _ _ => ?_) fun _ _ x hx => nomatch hx
  rintro x ⟨⟩
  rfl

/-- **The keyword path waits** exactly where the planned tool needs an approval. -/
theorem runNodes_waits :
    wp (sequential k.env) (k.runNodes task) (fun r _ => WaitsIf (k.asks task.query) task r) w := by
  have hexecute : ∀ w, wp (sequential k.env) (k.execute task (k.planner.plan task.query))
      (fun r _ => WaitsIf (k.asks task.query) task r) w := by
    intro w
    unfold execute asks
    cases (k.planner.plan task.query).toolName with
    | none =>
      rintro x ⟨⟩
      rfl
    | some toolName =>
      dsimp only
      by_cases hname : toolName = ""
      · subst hname
        rintro x ⟨⟩
        rfl
      rw [if_neg hname]
      have hne : (!(toolName == "")) = true := by simpa using hname
      rw [hne, Bool.true_and]
      refine wp_seq gate_asks (fun stopped w₁ h => ?_) fun e w₁ h => ?_
      · cases hasks : k.asksTool toolName with
        | true =>
          rw [hasks, if_pos rfl] at h
          obtain ⟨x, hx, hst⟩ := h
          cases hx
          exact ⟨x, rfl, hst⟩
        | false =>
          rw [hasks, if_neg Bool.false_ne_true] at h
          cases stopped with
          | none => exact callTool_leaves
          | some y =>
            rintro x ⟨⟩
            exact h y rfl
      · cases hasks : k.asksTool toolName with
        | true =>
          rw [hasks, if_pos rfl] at h
          obtain ⟨x, hx, -⟩ := h
          cases hx
        | false =>
          rintro x ⟨⟩
  unfold runNodes assemble plan
  simp only [Prog.bind_assoc', Prog.pure_bind']
  refine wp_silent_seq silent_trace fun _ w₁ _ => wp_silent_seq silent_trace fun _ w₂ _ => ?_
  refine wp_seq (hexecute w₂) (fun x w₃ h => ?_) fun e w₃ h => h.of_error
  refine WaitsIf.of_ok ?_ h
  rfl

/-! ## The pipeline modes -/

theorem failMode_ends {mode answerKey label : String} {t : TaskRun} {exc : PyExc}
    (ht : t.taskId = task.taskId) :
    wp (sequential env) (failMode mode answerKey label t exc) (fun r _ => Ends task .completed r) w := by
  unfold failMode
  exact wp_silent_seq silent_trace fun _ w₁ _ => ⟨_, rfl, ht, rfl⟩

/-- A part of a pipeline mode, of which nothing is known: the mode completes if it raises. -/
theorem guarded_ends {α : Type} {mode answerKey label : String} {t : TaskRun} {p : Py α} {next : α → Py TaskRun}
    {status : TaskStatus} {R : Except PyExc α → Prop} (ht : t.taskId = task.taskId)
    (hp : wp (sequential env) p (fun r _ => R r) w) (hstatus : ∀ e, R (.error e) → status = .completed)
    (hok : ∀ a w', R (.ok a) → wp (sequential env) (next a) (fun r _ => Ends task status r) w') :
    wp (sequential env) (guarded t (failMode mode answerKey label) p next)
      (fun r _ => Ends task status r) w := by
  refine wp_guarded hp (fun a w' h => hok a w' h) fun e w' h => ?_
  rw [hstatus e h]
  exact failMode_ends ht

/-- NL2SQL completes its task, whatever it answers. -/
theorem runNl2sql_ends {opts : RunOptions} :
    wp (sequential k.env) (k.runNl2sql task opts) (fun r _ => Ends task .completed r) w := by
  unfold runNl2sql
  refine wp_perform_bind rfl ?_
  refine guarded_ends (R := fun _ => True) rfl (wp_any _) (fun _ _ => rfl) fun result w₁ _ => ?_
  exact guarded_ends (R := fun _ => True) rfl (wp_any _) (fun _ _ => rfl) fun _ w₂ _ => ⟨_, rfl, rfl, rfl⟩

/-- The multi-agent mode completes its task. -/
theorem runMultiAgent_ends {opts : RunOptions} :
    wp (sequential k.env) (k.runMultiAgent task opts) (fun r _ => Ends task .completed r) w := by
  unfold runMultiAgent
  refine wp_perform_bind rfl ?_
  refine guarded_ends (R := fun _ => True) rfl (wp_any _) (fun _ _ => rfl) fun result w₁ _ => ?_
  exact guarded_ends (R := fun _ => True) rfl (wp_any _) (fun _ _ => rfl) fun _ w₂ _ => ⟨_, rfl, rfl, rfl⟩

/-- The entry of a mode is no tool call. -/
theorem callsOf_enterMode {mode : String} :
    callsOf (exec env 0 (.enterMode mode) w).2.log = callsOf w.log := by
  have hm := @moves_act env w (.enterMode mode) rfl
  rw [hm.callsOf]
  exact List.append_nil _

/-- The multi-tool mode waits exactly where the pipeline is suspended. -/
theorem runMultitool_ends :
    wp (sequential k.env) (k.runMultitool task) (fun r _ => Ends task
      (if pipelineAsks k.env k.multitoolPlanner task.query (callsOf w.log) then .waiting_approval
        else .completed) r) w := by
  unfold runMultitool
  refine wp_perform_bind rfl ?_
  have hcalls₀ := @callsOf_enterMode w k.env "multitool"
  refine guarded_ends (R := fun r =>
      if pipelineAsks k.env k.multitoolPlanner task.query (callsOf w.log) then
        ∃ d a, r = .ok d ∧ MultiToolPipeline.Waits d a
      else ∀ d, r = .ok d → Dict.get? d "requires_approval" = none) rfl ?_ (fun e he => ?_)
    fun result w₁ hresult => ?_
  · refine wp_silent_seq silent_trace fun _ w₁ h₁ => wp_silent_seq silent_trace fun _ w₂ h₂ => ?_
    have hcalls : callsOf w₂.log = callsOf w.log :=
      h₂.callsOf_quiet.trans (h₁.callsOf_quiet.trans hcalls₀)
    have hspec := @pipeline_spec k.env w₂ task.taskId task.query k.multitoolPlanner
    rw [hcalls] at hspec
    refine wp_mono hspec fun r w' hends => ?_
    unfold PipelineEnds at hends
    split at hends
    · rename_i hasks
      obtain ⟨_, _, d, a, -, -, -, hr, hd⟩ := hends
      rw [if_pos hasks]
      exact ⟨d, a, hr, hd⟩
    · rename_i hasks
      obtain ⟨_, -, -, hd⟩ := hends
      rw [if_neg hasks]
      exact hd
  · split at he
    · obtain ⟨d, a, hd, -⟩ := he
      cases hd
    · rename_i hasks
      rw [if_neg hasks]
  · dsimp only
    split at hresult
    · rename_i hasks
      obtain ⟨d, a, hd, hwaits⟩ := hresult
      cases hd
      rw [if_pos hasks, if_pos (by simp [Dict.get, Dict.getD, hwaits.requiresApproval, PyVal.truthy])]
      refine guarded_ends (R := fun r => ∃ a, r = .ok a) rfl
        (wp_mono (silent_trace w₁) fun r w' h => h.1) (fun e he => ?_) fun _ w₂ _ => ⟨_, rfl, rfl, rfl⟩
      obtain ⟨_, ⟨⟩⟩ := he
    · rename_i hasks
      have hnone := hresult result rfl
      rw [if_neg hasks, if_neg (by simp [Dict.get, Dict.getD, hnone, PyVal.truthy])]
      exact guarded_ends (R := fun _ => True) rfl (wp_any _) (fun _ _ => rfl)
        fun _ w₂ _ => ⟨_, rfl, rfl, rfl⟩

end AgentKernel

end AgentHarness
