import AgentHarness.Pipeline
import AgentHarness.Sequential
import AgentHarness.Lib.Workflow

/-!
# PlanFlow — a plan as a workflow, and `MultiToolPipeline.run` as its run

`planWorkflow` is a plan with the registry and the policy as its gate and the gateway as the answer
to its calls.  `runSteps_spec` says that the loop of the pipeline is the run of this workflow over
the live records: the same calls in the same order, and the end it reports.
-/

namespace AgentHarness

open Lib Py

/-- What the registry and the policy decide about a step; `store` says whether there is a store to
ask for an approval in. -/
def stepGate (env : Env) (store : Bool) (s : MultiToolPlanStep) : Gate :=
  match env.gateway.registry s.toolName with
  | none => .stop
  | some spec =>
    match env.policyEngine with
    | none => .run
    | some e =>
      if (e s.toolName (some spec.riskLevel)).allowed then .run
      else if (e s.toolName (some spec.riskLevel)).requiresApproval ∧ store then .suspend
      else .stop

def planWorkflow (env : Env) (store : Bool) :
    Workflow MultiToolPlanStep String Call ToolCallRecord where
  id := MultiToolPlanStep.stepId
  deps := MultiToolPlanStep.dependsOn
  gate := stepGate env store
  answer calls c := env.gateway.call (env.tool calls c) c.tool c.args
  ok := ToolCallRecord.success

/-- A call that was made for a step of a plan. -/
abbrev StepMade := Workflow.Made MultiToolPlanStep Call ToolCallRecord

/-- The call of a step whose arguments resolve. -/
def stepCallOf (s : MultiToolPlanStep) : Except PyExc PyVal → Option Call
  | .ok (.dict d) => some ⟨s.toolName, d⟩
  | _ => none

/-- The pipeline's memory: live records. -/
def liveMemory (env : Env) :
    Memory MultiToolPlanStep Call ToolCallRecord MultiToolPipeline.State where
  resolve st s := stepCallOf s (MultiToolPipeline.resolveArguments env (.dict s.arguments) st.saved)
  save st s r := st.after s r

/-- The call as the log has it. -/
def callEvent (site : String → CallSite) (x : StepMade) : Event :=
  ⟨0, .gatewayCall (site x.step.stepId) (.str x.call.tool) (.dict x.call.args), .ok x.result⟩

theorem gatewayAnswer_dict (env : Env) (calls : List Call) (t : String) (d : Dict) :
    gatewayAnswer env calls (.str t) (.dict d) =
      .ok (env.gateway.call (env.tool calls ⟨t, d⟩) t d) := by
  have hor : (PyVal.dict d).or (.dict []) = .dict d := by
    cases d <;> simp [PyVal.or, PyVal.truthy]
  simp only [gatewayAnswer, hor]

theorem callOf_callEvent {site : String → CallSite} {x : StepMade} :
    callOf (callEvent site x) = some x.call := by
  have hor : (PyVal.dict x.call.args).or (.dict []) = .dict x.call.args := by
    cases x.call.args <;> simp [PyVal.or, PyVal.truthy]
  simp only [callOf, callEvent, hor]

theorem callsOf_map_callEvent {site : String → CallSite} (l : List StepMade) :
    callsOf (l.map (callEvent site)) = l.map Workflow.Made.call := by
  unfold callsOf
  rw [List.filterMap_map]
  exact List.filterMap_eq_map_iff_forall_eq_some.mpr fun x _ => callOf_callEvent

/-- The row of a new approval. -/
structure ApprovalRow.AsksFor (row : ApprovalRow) (taskId toolName : String) (payload : Dict) :
    Prop where
  taskId : row.taskId = taskId
  toolName : row.toolName = toolName
  pending : row.status = .pending
  payload : row.payload = some payload.jsonable

/-- The creation of approval `a` as the log has it. -/
def approvalEvent (a : ApprovalId) (row : ApprovalRow) : Event := ⟨0, .insertApproval row, .ok a⟩

theorem moves_insertApproval {env : Env} {w : World} {row : ApprovalRow} :
    Moves w (exec env 0 (.insertApproval row) w).2 [approvalEvent w.db.approvals.length row]
      (w.db.approvals ++ [row]) := moves_act rfl

namespace MultiToolPipeline

/-- The pipeline's state as a state of the workflow. -/
def State.flow (st : State) (calls : List Call) : Workflow.State String Call State :=
  ⟨st.completed, st, calls⟩

variable {env : Env} {plan : MultiToolPlan} {taskId query : String} {w w₁ w' : World}

/-- The result of a run in which every step succeeded. -/
def okResult (plan : MultiToolPlan) (st : State) (answer : String) : Dict :=
  [("mode", .str "multitool"), ("success", .bool true), ("intent", .str plan.intent),
    ("answer", .str answer), ("plan", plan.modelDump), ("tool_calls", .list st.toolCalls)]

/-- A failure that asks for nothing. -/
structure Refused (d : Dict) : Prop where
  success : Dict.get? d "success" = some (.bool false)
  requiresApproval : Dict.get? d "requires_approval" = none

/-- A failure that reports approval `a`. -/
structure Waits (d : Dict) (a : ApprovalId) : Prop where
  success : Dict.get? d "success" = some (.bool false)
  requiresApproval : Dict.get? d "requires_approval" = some (.bool true)
  approvalId : Dict.get? d "approval_id" = some (approvalIdVal a)

theorem refused_failedResult {step : MultiToolPlanStep} {errorType answer : String} {extra : Dict}
    {toolCalls : List PyVal} (h : extra = [] ∨ ∃ k v, extra = [(k, v)] ∧
      k ∈ ["missing_depends_on", "error_path"]) :
    Refused (failedResult plan step errorType extra answer toolCalls) := by
  rcases h with rfl | ⟨k, v, rfl, hk⟩
  · exact ⟨by simp [failedResult], by simp [failedResult]⟩
  · simp only [List.mem_cons, List.not_mem_nil, or_false] at hk
    rcases hk with rfl | rfl
    · exact ⟨by simp [failedResult], by simp [failedResult]⟩
    · exact ⟨by simp [failedResult], by simp [failedResult]⟩

/-- What a run of the pipeline from `w` leaves and returns, for each end of the workflow. -/
def EndsAs (env : Env) (plan : MultiToolPlan) (taskId query : String) (w : World) (evs : List Event)
    (e : Workflow.End MultiToolPlanStep String Call State) (r : Except PyExc Dict) (w' : World) : Prop :=
  match e with
  | .finished st => Moves w w' evs w.db.approvals ∧
      r = (generateAnswer env plan st.saved.saved).map (okResult plan st.saved)
  | .failed => Moves w w' evs w.db.approvals ∧ ∃ d, r = .ok d ∧ Refused d
  | .suspended s _ st => ∃ row : ApprovalRow,
      row.AsksFor taskId s.toolName (approvalPayload plan query s st.saved) ∧
      Moves w w' (evs ++ [approvalEvent w.db.approvals.length row]) (w.db.approvals ++ [row]) ∧
      ∃ d, r = .ok d ∧ Waits d w.db.approvals.length

theorem EndsAs.after {evs evs₁ : List Event} {e : Workflow.End MultiToolPlanStep String Call State}
    {r : Except PyExc Dict} (h₁ : Moves w w₁ evs₁ w.db.approvals)
    (h : EndsAs env plan taskId query w₁ evs e r w') :
    EndsAs env plan taskId query w (evs₁ ++ evs) e r w' := by
  have hdb := h₁.rows
  cases e with
  | finished st =>
    obtain ⟨hm, hr⟩ := h
    rw [hdb] at hm
    exact ⟨h₁.trans hm, hr⟩
  | failed =>
    obtain ⟨hm, hr⟩ := h
    rw [hdb] at hm
    exact ⟨h₁.trans hm, hr⟩
  | suspended s rest st =>
    obtain ⟨row, hrow, hm, hr⟩ := h
    rw [hdb] at hm hr
    exact ⟨row, hrow, by rw [List.append_assoc]; exact h₁.trans hm, hr⟩

theorem ready_eq {env : Env} {store : Bool} {s : MultiToolPlanStep} {done : List String} :
    (planWorkflow env store).ready s done = (s.dependsOn.filter (· ∉ done)).isEmpty := by
  rw [Bool.eq_iff_iff, Workflow.ready_iff, List.isEmpty_iff, List.filter_eq_nil_iff]
  simp [planWorkflow]

/-- A part that is silent and then ends with a refusal. -/
theorem wp_refused {α : Type} {p : Py α} {d : Dict} {w₀ : World} (hp : Silent env p) (hd : Refused d)
    (h₀ : Moves w₀ w [] w₀.db.approvals) :
    wp (sequential env) (p >>= fun _ => pure d) (EndsAs env plan taskId query w₀ [] .failed) w :=
  wp_silent_seq hp fun _ _ h => ⟨h₀.quiet h, d, rfl, hd⟩

/-- A suspension creates the approval that its result names. -/
theorem suspend_spec {s : MultiToolPlanStep} {spec : ToolSpec} {decision : Decision} {st : State} :
    wp (sequential env) (suspend plan taskId query s spec decision st) (fun r w' =>
      ∃ row : ApprovalRow, row.AsksFor taskId s.toolName (approvalPayload plan query s st) ∧
        Moves w w' [approvalEvent w.db.approvals.length row] (w.db.approvals ++ [row]) ∧
        ∃ d, r = .ok d ∧ Waits d w.db.approvals.length) w := by
  unfold suspend createApproval
  refine wp_perform_bind rfl ?_
  refine wp_silent_seq silent_traceTask fun _ w₁ h₁ => wp_silent_seq silent_recordAudit fun _ w₂ h₂ => ?_
  refine ⟨_, ?_, (moves_insertApproval.quiet h₁).quiet h₂, _, rfl, ?_⟩
  · exact ⟨rfl, rfl, rfl, rfl⟩
  exact ⟨by simp [failedResult], by simp [failedResult], by simp [failedResult]⟩

/-- The reading of the policy decision is the gate of the workflow. -/
theorem gateStep_spec {s : MultiToolPlanStep} {spec : ToolSpec} {st : State}
    (hspec : env.gateway.registry s.toolName = some spec) {calls : List Call} {rest : List MultiToolPlanStep} :
    wp (sequential env) (gateStep env plan taskId query s spec st) (fun r w' =>
      match stepGate env env.pipelineApprovalStore s with
      | .run => r = .ok none ∧ Moves w w' [] w.db.approvals
      | .stop => ∃ d, r = .ok (some d) ∧ EndsAs env plan taskId query w [] .failed (.ok d) w'
      | .suspend => ∃ d, r = .ok (some d) ∧
          EndsAs env plan taskId query w [] (.suspended s rest (st.flow calls)) (.ok d) w') w := by
  unfold gateStep
  cases he : env.policyEngine with
  | none =>
    have hg : stepGate env env.pipelineApprovalStore s = .run := by simp only [stepGate, hspec, he]
    rw [hg]
    exact ⟨rfl, .refl w⟩
  | some e =>
    have ha : (dbExec env w.log 0 (.evaluate s.toolName spec.riskLevel) w.db).1 =
        .ok (e s.toolName (some spec.riskLevel)) := by simp only [dbExec, he]
    have hm : Moves w (exec env 0 (.evaluate s.toolName spec.riskLevel) w).2 [] w.db.approvals := by
      have := @moves_exec env w (.evaluate s.toolName spec.riskLevel) rfl
      simpa only [dbExec, he] using this
    refine wp_perform_bind ha ?_
    by_cases hallow : (e s.toolName (some spec.riskLevel)).allowed = true
    · have hg : stepGate env env.pipelineApprovalStore s = .run := by
        simp only [stepGate, hspec, he, hallow, if_true]
      rw [hg, if_pos hallow]
      exact ⟨rfl, hm⟩
    rw [if_neg hallow]
    by_cases hreq : (e s.toolName (some spec.riskLevel)).requiresApproval = true ∧
        env.pipelineApprovalStore = true
    · have hg : stepGate env env.pipelineApprovalStore s = .suspend := by
        simp only [stepGate, hspec, he]
        rw [if_neg hallow, if_pos hreq]
      rw [hg, if_pos hreq, ← bind_pure_comp]
      refine wp_seq suspend_spec (fun d w' h => ?_) fun e w' h => ?_
      · obtain ⟨row, hrow, hm', d', ⟨⟩, hw⟩ := h
        rw [hm.rows] at hm' hw
        exact ⟨d, rfl, row, hrow, hm.trans hm', d, rfl, hw⟩
      · obtain ⟨-, -, -, d', hd, -⟩ := h
        cases hd
    · have hg : stepGate env env.pipelineApprovalStore s = .stop := by
        simp only [stepGate, hspec, he]
        rw [if_neg hallow, if_neg hreq]
      rw [hg, if_neg hreq, ← bind_pure_comp]
      unfold refuse
      rw [Prog.bind_assoc']
      refine wp_silent_seq silent_traceTask fun _ w₁ h₁ => ?_
      exact ⟨_, rfl, hm.quiet h₁, _, rfl, refused_failedResult (.inl rfl)⟩

/-- Arguments that resolve are a dict. -/
theorem resolve_step {s : MultiToolPlanStep} {st : State} {v : PyVal}
    (h : resolveArguments env (.dict s.arguments) st.saved = .ok v) :
    ∃ d, v = .dict d ∧ (liveMemory env).resolve st s = some ⟨s.toolName, d⟩ := by
  obtain ⟨d, rfl⟩ := resolveWith_dict h
  exact ⟨d, rfl, by simp only [liveMemory, h, stepCallOf]⟩

/-- The call of a step that may run, given the spec of what follows it. -/
theorem callStep_spec {s : MultiToolPlanStep} {st : State} {w₀ : World} (h₀ : Moves w₀ w [] w₀.db.approvals)
    {next : State → Py Dict}
    {run : Workflow.State String Call State → List StepMade × Workflow.End MultiToolPlanStep String Call State}
    (hnext : ∀ st w, wp (sequential env) (next st)
      (EndsAs env plan taskId query w ((run (st.flow (callsOf w.log))).1.map (callEvent .pipelineStep))
        (run (st.flow (callsOf w.log))).2) w) :
    let r := (planWorkflow env env.pipelineApprovalStore).perform (liveMemory env) .failed s
      (st.flow (callsOf w₀.log)) run
    wp (sequential env) (callStep env plan taskId s st next)
      (EndsAs env plan taskId query w₀ (r.1.map (callEvent .pipelineStep)) r.2) w := by
  unfold callStep Workflow.perform
  cases hres : resolveArguments env (.dict s.arguments) st.saved with
  | error exc =>
    have hnone : (liveMemory env).resolve (st.flow (callsOf w₀.log)).saved s = none := by
      simp only [liveMemory, State.flow, hres, stepCallOf]
    rw [hnone]
    exact wp_refused silent_traceTask (refused_failedResult (.inr ⟨_, _, rfl, by decide⟩)) h₀
  | ok v =>
    obtain ⟨d, rfl, hsome⟩ := resolve_step hres
    rw [show (st.flow (callsOf w₀.log)).saved = st from rfl, hsome]
    refine wp_silent_seq silent_traceTask fun _ w₁ h₁ => ?_
    have h₁ := h₀.quiet h₁
    have hcalls₁ : callsOf w₁.log = callsOf w₀.log := h₁.callsOf_quiet
    -- the record of the log is the answer of the workflow
    have hans : (dbExec env w₁.log 0 (.gatewayCall (.pipelineStep s.stepId) (.str s.toolName)
        (.dict d)) w₁.db).1 = .ok ((planWorkflow env env.pipelineApprovalStore).made s
          (st.flow (callsOf w₀.log)) ⟨s.toolName, d⟩).result := by
      simp only [dbExec, gatewayAnswer_dict, hcalls₁]
      rfl
    refine wp_perform_bind hans ?_
    obtain ⟨x, hx⟩ : ∃ x, (planWorkflow env env.pipelineApprovalStore).made s
      (st.flow (callsOf w₀.log)) ⟨s.toolName, d⟩ = x := ⟨_, rfl⟩
    simp only [hx]
    have hm : Moves w₀ (exec env 0 (.gatewayCall (.pipelineStep s.stepId) (.str s.toolName)
        (.dict d)) w₁).2 [callEvent .pipelineStep x] w₀.db.approvals := by
      have hact := @moves_act env w₁ (.gatewayCall (.pipelineStep s.stepId) (.str s.toolName)
        (.dict d)) rfl
      rw [hans, hx] at hact
      have := h₁.after ⟨hact.acts, hact.rows.trans h₁.rows⟩
      rw [← hx] at this ⊢
      exact this
    have hcalls₂ := hm.callsOf
    rw [show [callEvent .pipelineStep x] = [x].map (callEvent .pipelineStep) from rfl,
      callsOf_map_callEvent] at hcalls₂
    have hres : x.step = s := by rw [← hx]; rfl
    by_cases hok : x.result.success = true
    · have hok' : (planWorkflow env env.pipelineApprovalStore).ok x.result = true := hok
      simp only [hok, hok', Bool.not_true, Bool.false_eq_true, if_false, if_true, List.map_cons]
      refine wp_silent_seq silent_traceTask fun _ w₃ h₃ => ?_
      have hm₃ := hm.quiet h₃
      have hcalls₃ : callsOf w₃.log = callsOf w₀.log ++ [x.call] := by
        rw [h₃.callsOf_quiet, hcalls₂]
        rfl
      refine wp_mono (hnext (st.after s x.result) w₃) fun r w' h => ?_
      have hflow : (planWorkflow env env.pipelineApprovalStore).after (liveMemory env)
          (st.flow (callsOf w₀.log)) x = (st.after s x.result).flow (callsOf w₃.log) := by
        rw [hcalls₃, ← hres]
        rfl
      rw [hflow]
      exact h.after hm₃
    · have hok' : ¬ (planWorkflow env env.pipelineApprovalStore).ok x.result = true := hok
      simp only [hok, hok', Bool.not_false, Bool.false_eq_true, if_false, if_true]
      refine wp_silent_seq silent_traceTask fun _ w₃ h₃ => ?_
      exact ⟨hm.quiet h₃, _, rfl, refused_failedResult (.inl rfl)⟩

/-- **The loop of the pipeline is the run of the workflow** over the live records. -/
theorem runSteps_spec {steps : List MultiToolPlanStep} {st : State} :
    wp (sequential env) (runSteps env plan taskId query steps st)
      (EndsAs env plan taskId query w
        (((planWorkflow env env.pipelineApprovalStore).run (liveMemory env) steps
          (st.flow (callsOf w.log))).1.map (callEvent .pipelineStep))
        ((planWorkflow env env.pipelineApprovalStore).run (liveMemory env) steps
          (st.flow (callsOf w.log))).2) w := by
  induction steps generalizing st w with
  | nil =>
    unfold runSteps Workflow.run
    cases hans : generateAnswer env plan st.saved with
    | error e => exact ⟨.refl w, by simp [State.flow, hans, Except.map]⟩
    | ok answer => exact ⟨.refl w, by simp [State.flow, hans, Except.map, okResult]⟩
  | cons s rest ih =>
    unfold runSteps Workflow.run
    dsimp only
    rw [show (st.flow (callsOf w.log)).done = st.completed from rfl, ready_eq]
    by_cases hready : (s.dependsOn.filter (· ∉ st.completed)).isEmpty = true
    swap
    · simp only [hready, Bool.not_false, if_true]
      exact wp_refused silent_traceTask (refused_failedResult (.inr ⟨_, _, rfl, by decide⟩)) (.refl w)
    simp only [hready, Bool.not_true, Bool.false_eq_true, if_false]
    refine wp_perform_bind rfl ?_
    have h₀ := @moves_exec env w (.getTool s.toolName) rfl
    cases hspec : env.gateway.registry s.toolName with
    | none =>
      have hg : (planWorkflow env env.pipelineApprovalStore).gate s = .stop := by
        simp only [planWorkflow, stepGate, hspec]
      rw [hg]
      refine wp_silent_seq silent_traceTask fun _ w₁ h₁ => ?_
      exact wp_refused silent_recordAudit (refused_failedResult (.inl rfl)) (h₀.quiet h₁)
    | some spec =>
      have hgate := @gateStep_spec env plan taskId query (exec env 0 (.getTool s.toolName) w).2 s spec st
        hspec (callsOf w.log) rest
      have hg : (planWorkflow env env.pipelineApprovalStore).gate s =
        stepGate env env.pipelineApprovalStore s := rfl
      rw [hg]
      cases hs : stepGate env env.pipelineApprovalStore s with
      | stop =>
        simp only [hs] at hgate
        refine wp_seq hgate ?_ ?_
        · rintro r w₁ ⟨d, ⟨⟩, h⟩
          exact h.after h₀
        · rintro e w₁ ⟨d, ⟨⟩, -⟩
      | suspend =>
        simp only [hs] at hgate
        refine wp_seq hgate ?_ ?_
        · rintro r w₁ ⟨d, ⟨⟩, h⟩
          exact h.after h₀
        · rintro e w₁ ⟨d, ⟨⟩, -⟩
      | run =>
        simp only [hs] at hgate
        refine wp_seq hgate ?_ ?_
        swap
        · rintro e w₁ ⟨⟨⟩, -⟩
        rintro r w₁ ⟨⟨⟩, h₁⟩
        have h₁ := h₀.quiet h₁
        exact callStep_spec h₁ fun st w => ih

end MultiToolPipeline

end AgentHarness
