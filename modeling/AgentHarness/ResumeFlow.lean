import AgentHarness.Snapshot

/-!
# ResumeFlow — a resume of a suspended plan as a segment of its workflow

`executeSubsequentSteps_spec`: the loop over the remaining steps is the run of `planWorkflow` over the
durable memory.  `resume_open_spec`: the resume of an open approval performs the waiting step and that
loop; it consumes the approval exactly if the call of the waiting step succeeded, and otherwise leaves
the snapshot in the payload.
-/

namespace AgentHarness

open Lib Py

namespace ApprovalResumeService

variable {env : Env} {a : ApprovalId} {taskId : String} {w w₁ w' : World}

/-- An end of a workflow over the durable memory. -/
abbrev ResumedEnd := Workflow.End MultiToolPlanStep String Call Resumed

/-- What the loop over the remaining steps leaves and returns, for each end of the workflow. -/
def EndsAs (taskId : String) (steps : PyVal) (w : World) (evs : List Event) (e : ResumedEnd)
    (r : Except PyExc Dict) (w' : World) : Prop :=
  match e with
  | .finished st => Moves w w' evs w.db.approvals ∧
      r = .ok [("success", .bool true), ("tool_calls", .list st.saved.toolCalls)]
  | .failed => Moves w w' evs w.db.approvals ∧ ∃ d, r = .ok d ∧
      Dict.get? d "success" = some (.bool false) ∧ Dict.get? d "waiting_approval" = none
  | .suspended s _ st => ∃ row : ApprovalRow,
      row.AsksFor taskId s.toolName (nextPayload (.str s.stepId) (.str s.toolName)
        (.dict (Dict.jsonable s.arguments)) steps (st.done.map .str) st.saved.toolCalls) ∧
      Moves w w' (evs ++ [approvalEvent w.db.approvals.length row]) (w.db.approvals ++ [row]) ∧
      r = .ok [("waiting_approval", .bool true),
        ("new_approval_id", approvalIdVal w.db.approvals.length),
        ("tool_calls", .list st.saved.toolCalls)]

theorem EndsAs.after {steps : PyVal} {evs evs₁ : List Event} {e : ResumedEnd} {r : Except PyExc Dict}
    (h₁ : Moves w w₁ evs₁ w.db.approvals) (h : EndsAs taskId steps w₁ evs e r w') :
    EndsAs taskId steps w (evs₁ ++ evs) e r w' := by
  have hrows := h₁.rows
  cases e with
  | finished st =>
    obtain ⟨hm, hr⟩ := h
    rw [hrows] at hm
    exact ⟨h₁.trans hm, hr⟩
  | failed =>
    obtain ⟨hm, hr⟩ := h
    rw [hrows] at hm
    exact ⟨h₁.trans hm, hr⟩
  | suspended s rest st =>
    obtain ⟨row, hrow, hm, hr⟩ := h
    rw [hrows] at hm hr
    exact ⟨row, hrow, by rw [List.append_assoc]; exact h₁.trans hm, hr⟩

/-- The policy gate of a later step. -/
theorem gateStep_spec {s : MultiToolPlanStep} {steps : PyVal} {spec : ToolSpec}
    {st : Workflow.State String Call Resumed} {rest : List MultiToolPlanStep}
    (hspec : env.gateway.registry s.toolName = some spec) :
    wp (sequential env) (gateStep env taskId (.str s.stepId) (.str s.toolName)
      (.dict (Dict.jsonable s.arguments)) steps spec (st.done.map .str) st.saved.toolCalls) (fun r w' =>
      match stepGate env true s with
      | .run => r = .ok none ∧ Moves w w' [] w.db.approvals
      | .stop => ∃ d, r = .ok (some d) ∧ EndsAs taskId steps w [] .failed (.ok d) w'
      | .suspend => ∃ d, r = .ok (some d) ∧
          EndsAs taskId steps w [] (.suspended s rest st) (.ok d) w') w := by
  unfold gateStep
  cases he : env.policyEngine with
  | none =>
    have hg : stepGate env true s = .run := by simp only [stepGate, hspec, he]
    rw [hg]
    exact ⟨rfl, .refl w⟩
  | some e =>
    have ha : (dbExec env w.log 0 (.evaluate s.toolName spec.riskLevel) w.db).1 =
        .ok (e s.toolName (some spec.riskLevel)) := by simp only [dbExec, he]
    have hm : Moves w (exec env 0 (.evaluate s.toolName spec.riskLevel) w).2 [] w.db.approvals := by
      have := @moves_exec env w (.evaluate s.toolName spec.riskLevel) rfl
      simpa only [dbExec, he] using this
    refine wp_perform_bind ha ?_
    by_cases hallow : (e s.toolName (some spec.riskLevel)).allowed = true
    · have hg : stepGate env true s = .run := by simp only [stepGate, hspec, he, hallow, if_true]
      rw [hg, if_pos hallow]
      exact ⟨rfl, hm⟩
    rw [if_neg hallow]
    by_cases hreq : (e s.toolName (some spec.riskLevel)).requiresApproval = true
    · have hg : stepGate env true s = .suspend := by
        simp only [stepGate, hspec, he]
        rw [if_neg hallow, if_pos ⟨hreq, trivial⟩]
      rw [hg, if_pos hreq]
      unfold createApproval
      refine wp_perform_bind rfl ⟨_, rfl, _, ?_, hm.rows ▸ hm.after moves_insertApproval, ?_⟩
      · exact ⟨rfl, rfl, rfl, rfl⟩
      · rw [← hm.rows]
        rfl
    · have hg : stepGate env true s = .stop := by
        simp only [stepGate, hspec, he]
        rw [if_neg hallow, if_neg fun h => hreq h.1]
      rw [hg, if_neg hreq]
      exact ⟨_, rfl, hm, _, rfl, by simp, by simp⟩

theorem endsAs_ok {steps : PyVal} {evs : List Event} {e : ResumedEnd} {r : Except PyExc Dict}
    (h : EndsAs taskId steps w evs e r w') : ∃ d, r = .ok d := by
  cases e with
  | finished st => exact ⟨_, h.2⟩
  | failed => exact ⟨_, h.2.choose_spec.1⟩
  | suspended s rest st => exact ⟨_, h.choose_spec.2.2⟩

/-! ## The loop over the remaining steps -/

section Typed

variable {s : MultiToolPlanStep}

theorem getD_stepId : s.modelDump.getD "step_id" (.str "") = .ok (.str s.stepId) := by
  simp [MultiToolPlanStep.modelDump, PyVal.getD, Dict.getD]

theorem getD_toolName : s.modelDump.getD "tool_name" (.str "") = .ok (.str s.toolName) := by
  simp [MultiToolPlanStep.modelDump, PyVal.getD, Dict.getD]

theorem getD_arguments : s.modelDump.getD "arguments" (.dict []) = .ok (.dict s.arguments) := by
  simp [MultiToolPlanStep.modelDump, PyVal.getD, Dict.getD]

theorem get_dependsOn : s.modelDump.get "depends_on" = .ok (.list (s.dependsOn.map .str)) := by
  simp [MultiToolPlanStep.modelDump, PyVal.get, PyVal.getD, Dict.getD]

theorem get_saveAs : s.modelDump.get "save_as" = .ok (optStr s.saveAs) := by
  simp [MultiToolPlanStep.modelDump, PyVal.get, PyVal.getD, Dict.getD]

theorem get_stepId : s.modelDump.get "step_id" = .ok (.str s.stepId) := by
  simp [MultiToolPlanStep.modelDump, PyVal.get, PyVal.getD, Dict.getD]

theorem inCompleted_str (id : String) (done : List String) :
    inCompleted (.str id) (done.map .str) = .ok (decide (id ∈ done)) := by
  simp [inCompleted, PyVal.hashable]

theorem missingOf_str (done : List String) (l : List String) :
    missingOf (done.map .str) (l.map .str) = .ok ((l.filter (· ∉ done)).map .str) := by
  induction l with
  | nil => rfl
  | cons d l ih =>
    simp only [List.map_cons, missingOf, inCompleted_str, ih, bind, Except.bind]
    by_cases h : d ∈ done <;> simp [h]

/-- The missing dependencies of a step of the plan. -/
theorem missing_step (done : List String) :
    (((PyVal.list (s.dependsOn.map .str)).or (.list [])).iter >>= missingOf (done.map .str)) =
      .ok ((s.dependsOn.filter (· ∉ done)).map .str) := by
  have hor : (PyVal.list (s.dependsOn.map .str)).or (.list []) = .list (s.dependsOn.map .str) := by
    cases h : s.dependsOn <;> simp [PyVal.or, PyVal.truthy]
  rw [hor]
  exact missingOf_str done s.dependsOn

/-- Steps that are completed are passed over. -/
theorem executeSubsequentSteps_skip {steps : PyVal} {pre : List MultiToolPlanStep} {l : List PyVal}
    {done : List String} {saved : List (String × Saved)} {toolCalls : List PyVal}
    (h : ∀ s ∈ pre, s.stepId ∈ done) :
    executeSubsequentSteps env taskId a steps ((pre.map fun s => s.stored.modelDump) ++ l)
        (done.map .str) saved toolCalls =
      executeSubsequentSteps env taskId a steps l (done.map .str) saved toolCalls := by
  induction pre with
  | nil => rfl
  | cons s pre ih =>
    have hs : decide (s.stored.stepId ∈ done) = true := decide_eq_true (h s List.mem_cons_self)
    rw [List.map_cons, List.cons_append]
    conv_lhs => unfold executeSubsequentSteps
    simp only [getD_stepId, inCompleted_str, hs, Prog.ofExcept_ok, Prog.pure_bind', if_true]
    exact ih fun s hs => h s (List.mem_cons_of_mem _ hs)

/-- A refusal of a later step. -/
theorem wp_refused {α : Type} {p : Py α} {d : Dict} {steps : PyVal} {w₀ : World} (hp : Silent env p)
    (hd : Dict.get? d "success" = some (.bool false)) (hw : Dict.get? d "waiting_approval" = none)
    (h₀ : Moves w₀ w [] w₀.db.approvals) :
    wp (sequential env) (p >>= fun _ => pure d) (EndsAs taskId steps w₀ [] .failed) w :=
  wp_silent_seq hp fun _ _ h => ⟨h₀.quiet h, d, rfl, hd, hw⟩

theorem resolve_step {s : MultiToolPlanStep} {m : Resumed} {v : PyVal}
    (h : resolveArguments env (.dict (Dict.jsonable s.arguments)) m.saved = .ok v) :
    ∃ d, v = .dict d ∧ (durableMemory env).resolve m s = some ⟨s.toolName, d⟩ := by
  obtain ⟨d, rfl⟩ := resolveWith_dict h
  exact ⟨d, rfl, by simp only [durableMemory, h, stepCallOf]⟩

/-- The call of a later step, given the spec of what follows it. -/
theorem callStep_spec {steps : PyVal} {done : List String} {m : Resumed} {w₀ : World}
    (h₀ : Moves w₀ w [] w₀.db.approvals) {next : List (String × Saved) → List PyVal → Py Dict}
    {run : Workflow.State String Call Resumed → List StepMade × ResumedEnd}
    (hnext : ∀ (m : Resumed) w, wp (sequential env) (next m.saved m.toolCalls)
      (EndsAs taskId steps w ((run ⟨done ++ [s.stepId], m, callsOf w.log⟩).1.map
        (callEvent fun id => .subsequent a (.str id))) (run ⟨done ++ [s.stepId], m, callsOf w.log⟩).2) w) :
    wp (sequential env) (callStep env taskId a (.str s.stepId) (.str s.toolName)
        (.dict (Dict.jsonable s.arguments)) (optStr s.saveAs) m.saved m.toolCalls next)
      (EndsAs taskId steps w₀
        (((planWorkflow env true).perform (durableMemory env) .failed s ⟨done, m, callsOf w₀.log⟩ run).1.map
          (callEvent fun id => .subsequent a (.str id)))
        ((planWorkflow env true).perform (durableMemory env) .failed s ⟨done, m, callsOf w₀.log⟩ run).2)
      w := by
  unfold callStep Workflow.perform
  cases hres : resolveArguments env (.dict (Dict.jsonable s.arguments)) m.saved with
  | error exc =>
    have hnone : (durableMemory env).resolve m s = none := by
      simp only [durableMemory, hres, stepCallOf]
    simp only [hnone]
    exact ⟨h₀, _, rfl, by simp, by simp⟩
  | ok v =>
    obtain ⟨d, rfl, hsome⟩ := resolve_step hres
    simp only [hsome]
    refine wp_silent_seq silent_traceTask fun _ w₁ h₁ => ?_
    have h₁ := h₀.quiet h₁
    -- the record of the log is the answer of the workflow
    have hans : (dbExec env w₁.log 0 (.gatewayCall (.subsequent a (.str s.stepId)) (.str s.toolName)
        (.dict d)) w₁.db).1 = .ok ((planWorkflow env true).made s
          (⟨done, m, callsOf w₀.log⟩ : Workflow.State String Call Resumed) ⟨s.toolName, d⟩).result := by
      simp only [dbExec, gatewayAnswer_dict, h₁.callsOf_quiet]
      rfl
    refine wp_perform_bind hans ?_
    obtain ⟨x, hx⟩ : ∃ x, (planWorkflow env true).made s
      (⟨done, m, callsOf w₀.log⟩ : Workflow.State String Call Resumed) ⟨s.toolName, d⟩ = x := ⟨_, rfl⟩
    simp only [hx]
    have hm : Moves w₀ (exec env 0 (.gatewayCall (.subsequent a (.str s.stepId)) (.str s.toolName)
        (.dict d)) w₁).2 [callEvent (fun id => .subsequent a (.str id)) x] w₀.db.approvals := by
      have hact := @moves_act env w₁ (.gatewayCall (.subsequent a (.str s.stepId)) (.str s.toolName)
        (.dict d)) rfl
      rw [hans, hx] at hact
      have := h₁.after ⟨hact.acts, hact.rows.trans h₁.rows⟩
      rw [← hx] at this ⊢
      exact this
    have hcalls := hm.callsOf
    rw [← List.map_singleton, callsOf_map_callEvent] at hcalls
    have hstep : x.step = s := by rw [← hx]; rfl
    by_cases hok : x.result.success = true
    · have hok' : (planWorkflow env true).ok x.result = true := hok
      simp only [hok, hok', Bool.not_true, Bool.false_eq_true, if_false, if_true, List.map_cons]
      refine wp_silent_seq silent_traceTask fun _ w₃ h₃ => ?_
      have hcalls₃ : callsOf w₃.log = callsOf w₀.log ++ [x.call] := by
        rw [h₃.callsOf_quiet, hcalls]
        rfl
      simp only [saveRecord_optStr, Prog.ofExcept_ok, Prog.pure_bind']
      refine wp_mono (hnext (m.after s x.result) w₃) fun r w' h => ?_
      have hflow : (planWorkflow env true).after (durableMemory env) ⟨done, m, callsOf w₀.log⟩ x =
          ⟨done ++ [s.stepId], m.after s x.result, callsOf w₃.log⟩ := by
        rw [hcalls₃, ← hstep]
        rfl
      rw [hflow]
      exact h.after (hm.quiet h₃)
    · have hok' : ¬ (planWorkflow env true).ok x.result = true := hok
      simp only [hok, hok', Bool.not_false, Bool.false_eq_true, if_false, if_true]
      refine wp_silent_seq silent_traceTask fun _ w₃ h₃ => ?_
      exact ⟨hm.quiet h₃, _, rfl, by simp, by simp⟩

/-- **The loop over the remaining steps is the run of the workflow** over the durable memory. -/
theorem executeSubsequentSteps_spec {steps : PyVal} {rest : List MultiToolPlanStep}
    {done : List String} {m : Resumed} (hids : (rest.map MultiToolPlanStep.stepId).Nodup)
    (hnew : ∀ s ∈ rest, s.stepId ∉ done) :
    wp (sequential env) (executeSubsequentSteps env taskId a steps
        (rest.map fun s => s.stored.modelDump) (done.map .str) m.saved m.toolCalls)
      (EndsAs taskId steps w
        (((planWorkflow env true).run (durableMemory env) rest ⟨done, m, callsOf w.log⟩).1.map
          (callEvent fun id => .subsequent a (.str id)))
        ((planWorkflow env true).run (durableMemory env) rest ⟨done, m, callsOf w.log⟩).2) w := by
  induction rest generalizing done m w with
  | nil => exact ⟨.refl w, rfl⟩
  | cons s rest ih =>
    have hdone : decide (s.stored.stepId ∈ done) = false :=
      decide_eq_false (hnew s List.mem_cons_self)
    rw [List.map_cons]
    unfold executeSubsequentSteps Workflow.run
    simp only [getD_stepId, getD_toolName, getD_arguments, get_saveAs, get_dependsOn, inCompleted_str,
      hdone, missing_step, Prog.ofExcept_ok, Prog.pure_bind', Bool.false_eq_true, if_false,
      MultiToolPipeline.ready_eq]
    by_cases hready : (s.dependsOn.filter (· ∉ done)).isEmpty = true
    swap
    · simp only [hready, MultiToolPlanStep.stored, List.isEmpty_map, Bool.not_false, if_true]
      exact wp_refused silent_traceTask (by simp) (by simp) (.refl w)
    simp only [hready, MultiToolPlanStep.stored, List.isEmpty_map, Bool.not_true, Bool.false_eq_true,
      if_false]
    unfold getToolVal
    refine wp_perform_bind rfl ?_
    have h₀ := @moves_exec env w (.getTool s.toolName) rfl
    have hg : (planWorkflow env true).gate s = stepGate env true s := rfl
    cases hspec : env.gateway.registry s.toolName with
    | none =>
      have hstop : stepGate env true s = .stop := by simp only [stepGate, hspec]
      rw [hg, hstop]
      exact wp_refused silent_traceTask (by simp) (by simp) h₀
    | some spec =>
      have hgate := @gateStep_spec env taskId (exec env 0 (.getTool s.toolName) w).2 s steps spec
        ⟨done, m, callsOf w.log⟩ rest hspec
      rw [hg]
      cases hs : stepGate env true s with
      | stop =>
        simp only [hs] at hgate
        refine wp_seq hgate ?_ ?_
        · rintro r w₁ ⟨d, ⟨⟩, h⟩
          exact h.after h₀
        · rintro e w₁ ⟨d, ⟨⟩, -⟩
      | suspend =>
        simp only [hs] at hgate
        refine wp_seq hgate ?_ ?_
        · rintro r w₁ ⟨d, ⟨⟩, h⟩
          exact h.after h₀
        · rintro e w₁ ⟨d, ⟨⟩, -⟩
      | run =>
        simp only [hs] at hgate
        refine wp_seq hgate ?_ ?_
        swap
        · rintro e w₁ ⟨⟨⟩, -⟩
        rintro r w₁ ⟨⟨⟩, h₁⟩
        refine callStep_spec (h₀.quiet h₁) fun m' w' => ?_
        have hids' := List.nodup_cons.mp hids
        have hih := @ih w' (done ++ [s.stepId]) m' hids'.2 fun s' hs' hmem => by
          rcases List.mem_append.mp hmem with hmem | hmem
          · exact hnew s' (List.mem_cons_of_mem _ hs') hmem
          · exact hids'.1 (List.mem_singleton.mp hmem ▸ List.mem_map_of_mem hs')
        rwa [List.map_append] at hih

end Typed

/-! ## The waiting step and the loop after it -/

/-- The approvals a segment created: one if it was suspended. -/
def Created (taskId : String) (steps : PyVal) (extra : List ApprovalRow) : ResumedEnd → Prop
  | .suspended s _ st => ∃ row : ApprovalRow, extra = [row] ∧
      row.AsksFor taskId s.toolName (nextPayload (.str s.stepId) (.str s.toolName)
        (.dict (Dict.jsonable s.arguments)) steps (st.done.map .str) st.saved.toolCalls)
  | _ => extra = []

/-- The end of a segment that ran all its steps. -/
def isFinished : ResumedEnd → Bool
  | .finished _ => true
  | _ => false

/-- The acts of a segment that created `extra`, from a state with `n` approvals. -/
def withCreated (evs : List Event) (n : ApprovalId) (extra : List ApprovalRow) : List Event :=
  evs ++ extra.map (approvalEvent n)

/-- The result of a resume that used its approval up. -/
structure Consumes (d : Dict) (e : ResumedEnd) : Prop where
  success : d.get? "success" = some (.bool (isFinished e))
  consumed : d.get? "approval_consumed" = some (.bool true)

variable {s : MultiToolPlanStep} {pre rest : List MultiToolPlanStep} {d : Dict}

/-- The plan in a payload. -/
def storedSteps (steps : List MultiToolPlanStep) : PyVal :=
  .list (steps.map fun s => s.stored.modelDump)

theorem consumes_waitingResult {calls : PyVal} {sub : Dict} {e : ResumedEnd} (h : isFinished e = false) :
    Consumes (waitingResult a (.str s.stepId) calls sub) e :=
  ⟨by simp [waitingResult, multitoolHead, h], by simp [waitingResult, multitoolHead]⟩

theorem consumes_finalResult {calls : PyVal} {sub : Dict} {e : ResumedEnd}
    (h : sub.get? "success" = some (.bool (isFinished e))) :
    Consumes (finalResult a (.str s.stepId) calls sub) e :=
  ⟨by simp [finalResult, multitoolHead, Dict.getD, h], by simp [finalResult, multitoolHead]⟩

/-- How the caller of the loop reads its result. -/
theorem EndsAs.read {steps : PyVal} {evs : List Event} {e : ResumedEnd} {sub : Dict}
    (h : EndsAs taskId steps w evs e (.ok sub) w') :
    ∃ extra, Created taskId steps extra e ∧
      Moves w w' (withCreated evs w.db.approvals.length extra) (w.db.approvals ++ extra) ∧
      if (Dict.get sub "waiting_approval").truthy then isFinished e = false
      else sub.get? "success" = some (.bool (isFinished e)) := by
  cases e with
  | finished st =>
    obtain ⟨hm, ⟨⟩⟩ := h
    exact ⟨[], rfl, by simpa [withCreated] using hm, by simp [Dict.get, Dict.getD, isFinished]⟩
  | failed =>
    obtain ⟨hm, d, ⟨⟩, hd, hw⟩ := h
    exact ⟨[], rfl, by simpa [withCreated] using hm, by simp [Dict.get, Dict.getD, hw, hd, isFinished]⟩
  | suspended s rest st =>
    obtain ⟨row, hrow, hm, ⟨⟩⟩ := h
    exact ⟨[row], ⟨row, rfl, hrow⟩, hm, by simp [Dict.get, Dict.getD, isFinished]⟩

/-- The steps after the waiting one are new. -/
theorem rest_new {steps : List MultiToolPlanStep} (hsteps : steps = pre ++ s :: rest)
    (hids : (steps.map MultiToolPlanStep.stepId).Nodup) :
    (rest.map MultiToolPlanStep.stepId).Nodup ∧
      ∀ s' ∈ rest, s'.stepId ∉ pre.map MultiToolPlanStep.stepId ++ [s.stepId] := by
  rw [hsteps, List.map_append, List.map_cons] at hids
  obtain ⟨-, hrest, hdisj⟩ := List.nodup_append.mp hids
  obtain ⟨hs, hrest⟩ := List.nodup_cons.mp hrest
  refine ⟨hrest, fun s' hs' hmem => ?_⟩
  have hs'' : s'.stepId ∈ rest.map MultiToolPlanStep.stepId := List.mem_map_of_mem hs'
  rcases List.mem_append.mp hmem with hmem | hmem
  · exact hdisj _ hmem _ (List.mem_cons_of_mem _ hs'') rfl
  · exact hs (List.mem_singleton.mp hmem ▸ hs'')

/-- What follows a successful call of the waiting step. -/
theorem continueMultitool_spec {done : List String} {m : Resumed} {r : ToolCallRecord}
    {steps : List MultiToolPlanStep} (hsteps : steps = pre ++ s :: rest)
    (hids : (steps.map MultiToolPlanStep.stepId).Nodup) (hdone : done = pre.map MultiToolPlanStep.stepId)
    (hd : Dict.get? d "steps" = some (storedSteps steps)) :
    let seg := (planWorkflow env true).run (durableMemory env) rest
      ⟨done ++ [s.stepId], m.after s r, callsOf w.log⟩
    wp (sequential env) (continueMultitool env a taskId (.dict d) (.str s.stepId) (.str s.toolName)
      (done.map .str) m.saved (m.after s r).toolCalls (optStr s.saveAs) r) (fun res w' =>
      ∃ d' extra, res = .ok d' ∧ Consumes d' seg.2 ∧ Created taskId (storedSteps steps) extra seg.2 ∧
        Moves w w' (withCreated (seg.1.map (callEvent fun id => .subsequent a (.str id)))
          w.db.approvals.length extra) (w.db.approvals ++ extra)) w := by
  intro seg
  unfold continueMultitool
  refine wp_silent_seq silent_traceTask fun _ w₁ h₁ => ?_
  obtain ⟨hnodup, hnew⟩ := rest_new hsteps hids
  have hlist : (steps.map fun s => s.stored.modelDump) =
      ((pre ++ [s]).map fun s => s.stored.modelDump) ++ rest.map fun s => s.stored.modelDump := by
    rw [hsteps]
    simp
  have hcompleted : done.map PyVal.str ++ [.str s.stepId] = (done ++ [s.stepId]).map .str := by simp
  have hskip : ∀ s' ∈ pre ++ [s], s'.stepId ∈ done ++ [s.stepId] := by
    intro s' hs'
    rcases List.mem_append.mp hs' with h | h
    · exact List.mem_append_left _ (hdone ▸ List.mem_map_of_mem h)
    · exact List.mem_append_right _ (by simp [List.mem_singleton.mp h])
  have hgetD : (PyVal.dict d).getD "steps" (.list []) = .ok (storedSteps steps) := by
    simp only [PyVal.getD, Dict.getD, hd, Option.getD_some]
  have hiter : (storedSteps steps).iter = .ok (steps.map fun s => s.stored.modelDump) := rfl
  simp only [PyVal.hashable, if_true, Prog.ofExcept_ok, Prog.pure_bind', saveRecord_optStr, hgetD, hiter,
    hcompleted]
  rw [hlist, executeSubsequentSteps_skip hskip]
  have hloop := @executeSubsequentSteps_spec env a taskId w₁ (storedSteps steps) rest
    (done ++ [s.stepId]) (m.after s r) hnodup (hdone ▸ hnew)
  rw [h₁.callsOf_quiet] at hloop
  refine wp_seq hloop (fun sub w₂ h => ?_) fun e w₂ h => ?_
  swap
  · obtain ⟨d, hd⟩ := endsAs_ok h
    cases hd
  obtain ⟨extra, hcreated, hm, hread⟩ := h.read
  rw [h₁.rows] at hm
  have hm := h₁.after hm
  by_cases hw : (Dict.get sub "waiting_approval").truthy = true
  · rw [if_pos hw] at hread ⊢
    refine wp_silent_seq silent_updateTaskStatus fun _ w₃ h₃ => ?_
    refine wp_silent_seq silent_traceTask fun _ w₄ h₄ => ?_
    exact ⟨_, extra, rfl, consumes_waitingResult hread, hcreated, (hm.quiet h₃).quiet h₄⟩
  · rw [if_neg hw] at hread ⊢
    refine wp_silent_seq silent_updateTaskStatus fun _ w₃ h₃ => ?_
    refine wp_silent_seq silent_traceTask fun _ w₄ h₄ => ?_
    refine wp_silent_seq silent_recordAudit fun _ w₅ h₅ => ?_
    exact ⟨_, extra, rfl, consumes_finalResult hread, hcreated,
      ((hm.quiet h₃).quiet h₄).quiet h₅⟩

/-- `_find_save_as` for a step of the plan. -/
theorem findSaveAs_step {steps : List MultiToolPlanStep} (hsteps : steps = pre ++ s :: rest)
    (hids : (steps.map MultiToolPlanStep.stepId).Nodup)
    (hd : Dict.get? d "steps" = some (storedSteps steps)) :
    findSaveAs (.dict d) (.str s.stepId) = .ok (optStr s.saveAs) := by
  have hpre : ∀ s' ∈ pre, s'.stepId ≠ s.stepId := by
    rw [hsteps, List.map_append, List.map_cons] at hids
    obtain ⟨-, -, hdisj⟩ := List.nodup_append.mp hids
    exact fun s' hs' => hdisj _ (List.mem_map_of_mem hs') _ List.mem_cons_self
  have hfind : ∀ l, (∀ s' ∈ l, s'.stepId ≠ s.stepId) →
      findSaveAsIn (.str s.stepId) ((l ++ s :: rest).map fun s => s.stored.modelDump) =
        .ok (optStr s.saveAs) := by
    intro l hl
    induction l with
    | nil =>
      simp only [List.nil_append, List.map_cons, findSaveAsIn, get_stepId, get_saveAs, bind, Except.bind]
      simp [MultiToolPlanStep.stored]
    | cons x l ih =>
      have hne : (x.stored.stepId == s.stepId) = false := beq_false_of_ne (hl x List.mem_cons_self)
      simp only [List.cons_append, List.map_cons, findSaveAsIn, get_stepId, bind, Except.bind,
        PyVal.pyEq_str, hne, Bool.false_eq_true, if_false]
      exact ih fun s' hs' => hl s' (List.mem_cons_of_mem _ hs')
  have hgetD : (PyVal.dict d).getD "steps" (.list []) = .ok (storedSteps steps) := by
    simp only [PyVal.getD, Dict.getD, hd, Option.getD_some]
  simp only [findSaveAs, hgetD, bind, Except.bind, storedSteps, PyVal.iter]
  rw [hsteps]
  exact hfind pre hpre

/-- The events of a segment: the waiting step is called as approved, the later ones as subsequent. -/
def resumeEvents (a : ApprovalId) : List StepMade → List Event
  | [] => []
  | x :: l => callEvent (fun id => .approved a (.str id)) x ::
      l.map (callEvent fun id => .subsequent a (.str id))

/-- The call of the waiting step succeeded. -/
def consumed : List StepMade → Bool
  | [] => false
  | x :: _ => x.result.success

/-- The segment that a resume of the snapshot performs. -/
def segment (env : Env) (sn : Snapshot) (rest : List MultiToolPlanStep) (calls : List Call) :
    List StepMade × ResumedEnd :=
  (planWorkflow env true).perform (durableMemory env) .failed sn.step
    ⟨sn.completed, .load sn.toolCalls, calls⟩ ((planWorkflow env true).run (durableMemory env) rest)

/-- What the body of a multitool resume leaves and returns. -/
def SegmentEnds (taskId : String) (steps : List MultiToolPlanStep) (a : ApprovalId) (w : World)
    (seg : List StepMade × ResumedEnd) (r : Except PyExc Dict) (w' : World) : Prop :=
  ∃ d extra, r = .ok d ∧ d.get? "success" = some (.bool (isFinished seg.2)) ∧
    d.get? "approval_consumed" = some (.bool (consumed seg.1)) ∧
    Created taskId (storedSteps steps) extra seg.2 ∧
    Moves w w' (withCreated (resumeEvents a seg.1) w.db.approvals.length extra) (w.db.approvals ++ extra)

/-- The call of the waiting step, and what follows it. -/
theorem runApprovedStep_spec {sn : Snapshot} (hplace : sn.Placed pre rest)
    (hd : Dict.get? d "steps" = some (storedSteps sn.steps)) {args : Dict} {w₀ : World}
    (h₀ : Moves w₀ w [] w₀.db.approvals) :
    let st : Workflow.State String Call Resumed := ⟨sn.completed, .load sn.toolCalls, callsOf w₀.log⟩
    let x := (planWorkflow env true).made sn.step st ⟨sn.step.toolName, args⟩
    let after := (planWorkflow env true).run (durableMemory env) rest
      ((planWorkflow env true).after (durableMemory env) st x)
    wp (sequential env) (runApprovedStep env a taskId (.dict d) (.str sn.step.stepId)
        (.str sn.step.toolName) (.dict args) (sn.completed.map .str) sn.toolCalls (loadSaved sn.toolCalls))
      (SegmentEnds taskId sn.steps a w₀
        (if (planWorkflow env true).ok x.result then (x :: after.1, after.2) else ([x], .failed))) w := by
  intro st x after
  have hans : (dbExec env w.log 0 (.gatewayCall (.approved a (.str sn.step.stepId))
      (.str sn.step.toolName) (.dict args)) w.db).1 = .ok x.result := by
    simp only [dbExec, gatewayAnswer_dict, h₀.callsOf_quiet]
    rfl
  have hm : Moves w₀ (exec env 0 (.gatewayCall (.approved a (.str sn.step.stepId))
      (.str sn.step.toolName) (.dict args)) w).2 [callEvent (fun id => .approved a (.str id)) x]
      w₀.db.approvals := by
    have hact := @moves_act env w (.gatewayCall (.approved a (.str sn.step.stepId))
      (.str sn.step.toolName) (.dict args)) rfl
    rw [hans] at hact
    exact h₀.after ⟨hact.acts, hact.rows.trans h₀.rows⟩
  unfold runApprovedStep
  refine wp_seq (R := fun r w' => r = .ok (.ok x.result) ∧ w' = (exec env 0
    (.gatewayCall (.approved a (.str sn.step.stepId)) (.str sn.step.toolName) (.dict args)) w).2)
    ?_ ?_ fun e w' h => by cases h.1
  · refine wp_try (R := fun r w' => r = .ok (.ok x.result) ∧ w' = (exec env 0
      (.gatewayCall (.approved a (.str sn.step.stepId)) (.str sn.step.toolName) (.dict args)) w).2)
      (wp_perform_bind hans ⟨rfl, rfl⟩) (fun _ _ h => h) fun e w' h => by cases h.1
  rintro outcome w₁ ⟨⟨⟩, rfl⟩
  simp only [findSaveAs_step hplace.steps hplace.ids hd, Prog.ofExcept_ok, Prog.pure_bind']
  by_cases hok : x.result.success = true
  · have hok' : (planWorkflow env true).ok x.result = true := hok
    simp only [hok, hok', Bool.not_true, Bool.false_eq_true, if_false, if_true]
    have hcont := @continueMultitool_spec env a taskId (exec env 0 (.gatewayCall (.approved a
      (.str sn.step.stepId)) (.str sn.step.toolName) (.dict args)) w).2 sn.step pre rest d sn.completed
      (.load sn.toolCalls) x.result sn.steps hplace.steps hplace.ids hplace.completed hd
    refine wp_mono hcont fun r w' h => ?_
    obtain ⟨d', extra, hr, hcons, hcreated, hm'⟩ := h
    have hst : (⟨sn.completed ++ [sn.step.stepId], (Resumed.load sn.toolCalls).after sn.step x.result,
        callsOf (exec env 0 (.gatewayCall (.approved a (.str sn.step.stepId)) (.str sn.step.toolName)
          (.dict args)) w).2.log⟩ : Workflow.State String Call Resumed) =
        (planWorkflow env true).after (durableMemory env) st x := by
      have hcalls := hm.callsOf
      rw [← List.map_singleton, callsOf_map_callEvent] at hcalls
      rw [hcalls]
      rfl
    rw [hst] at hcons hcreated hm'
    rw [hm.rows] at hm'
    refine ⟨d', extra, hr, hcons.success, ?_, hcreated, ?_⟩
    · rw [hcons.consumed]
      exact congrArg (fun b => some (PyVal.bool b)) hok.symm
    · exact hm.trans hm'
  · have hok' : ¬ (planWorkflow env true).ok x.result = true := hok
    simp only [hok, hok', Bool.not_false, Bool.false_eq_true, if_false, if_true]
    refine wp_silent_seq silent_updateTaskStatus fun _ w₂ h₂ => ?_
    refine wp_silent_seq silent_traceTask fun _ w₃ h₃ => ?_
    refine ⟨_, [], rfl, ?_, ?_, rfl, ?_⟩
    · simp [multitoolHead, isFinished]
    · simp [multitoolHead, consumed, hok]
    · simpa [withCreated, resumeEvents] using (hm.quiet h₂).quiet h₃

/-- `_resume_multitool` performs the segment of its snapshot. -/
theorem resumeMultitool_spec {sn : Snapshot} {p : Dict} (hin : sn.In p) (hplace : sn.Placed pre rest) :
    wp (sequential env) (resumeMultitool env a taskId p)
      (SegmentEnds taskId sn.steps a w (segment env sn rest (callsOf w.log))) w := by
  obtain ⟨d, hplan, hd⟩ := hin.plan
  have hset : (PyVal.list (sn.completed.map .str)).toSet = .ok (sn.completed.map .str) := by
    have hall : (sn.completed.map PyVal.str).all PyVal.hashable = true := by simp [PyVal.hashable]
    simp [PyVal.toSet, PyVal.iter, hall]
  have hiter : (PyVal.list sn.toolCalls).iter = .ok sn.toolCalls := rfl
  unfold resumeMultitool
  simp only [Dict.getD, hplan, hin.stepId, hin.toolName, hin.arguments, hin.completed, hin.toolCalls,
    Option.getD_some, hset, hiter, rebuildSaved_eq hin.entries, Prog.ofExcept_ok, Prog.pure_bind']
  refine wp_silent_seq silent_traceTask fun _ w₁ h₁ => ?_
  unfold segment Workflow.perform
  cases hres : resolveArguments env (.dict (Dict.jsonable sn.step.arguments)) (loadSaved sn.toolCalls) with
  | error exc =>
    have hnone : (durableMemory env).resolve (.load sn.toolCalls) sn.step = none := by
      simp only [durableMemory, Resumed.load, hres, stepCallOf]
    simp only [hnone]
    refine wp_silent_seq silent_traceTask fun _ w₂ h₂ => ?_
    refine ⟨_, [], rfl, ?_, ?_, rfl, ?_⟩
    · simp [multitoolHead, isFinished]
    · simp [multitoolHead, consumed]
    · simpa [withCreated, resumeEvents] using h₁.quiet h₂
  | ok v =>
    obtain ⟨args, rfl, hsome⟩ := @resolve_step env sn.step (.load sn.toolCalls) v hres
    simp only [hsome]
    refine wp_silent_seq silent_traceTask fun _ w₂ h₂ => ?_
    have h₂ := h₁.quiet h₂
    exact runApprovedStep_spec hplace hd h₂

/-! ## The whole resume -/

/-- `update_payload` on an approval that exists. -/
theorem updatePayload_spec {row : ApprovalRow} {u : Dict} (hrow : w.db.approvals[a]? = some row) :
    wp (sequential env) (updatePayload a u) (fun r w' => (∃ x, r = .ok x) ∧
      Moves w w' [] (w.db.approvals.modify a fun row' =>
        { row' with payload := some (row.payloadDict.update u).jsonable })) w := by
  have hget : Silent env (getApproval .store a) :=
    silent_perform rfl fun _ db => ⟨⟨db.approvals[a]?, rfl⟩, rfl⟩
  unfold updatePayload
  refine wp_perform_bind rfl ?_
  rw [hrow]
  have h₁ := @moves_exec env w (.getApproval .store a) rfl
  refine wp_perform_bind rfl ?_
  have h₂ := @moves_exec env (exec env 0 (.getApproval .store a) w).2
    (.setPayload a (row.payloadDict.update u).jsonable) rfl
  refine wp_mono (hget _) fun r w' h => ⟨h.1, (h₁.after h₂).quiet h.2⟩

/-- What `settle` leaves in the payload. -/
def Settled (sn : Snapshot) (consumed : Bool) (p : Dict) : Prop :=
  if consumed then p.get? "resumed" = some (.bool true) else sn.Open p

theorem addOne_attempts {sn : Snapshot} {p : Dict} (h : sn.Open p) :
    ∃ n, addOne (Dict.getD p "resume_attempt_count" (.int 0)) = .ok (.int n) := by
  rcases h.attempts with h | ⟨n, h⟩
  · exact ⟨0 + 1, by simp [Dict.getD, h, addOne]⟩
  · exact ⟨n + 1, by simp [Dict.getD, h, addOne]⟩

/-- The bookkeeping of a resume whose call succeeded, or did not. -/
theorem settle_spec {row : ApprovalRow} {p result : Dict} {b : Bool} {sn : Snapshot}
    (hrow : w.db.approvals[a]? = some row) (hp : row.payload = some p) (hopen : sn.Open p)
    (hb : result.get? "approval_consumed" = some (.bool b)) :
    wp (sequential env) (settle a result) (fun r w' => r = .ok () ∧ ∃ p', Settled sn b p' ∧
      Moves w w' [] (w.db.approvals.modify a fun row' => { row' with payload := some p' })) w := by
  have hpay : row.payloadDict = p := by simp [ApprovalRow.payloadDict, hp]
  have hget : Dict.get result "approval_consumed" = .bool b := by simp [Dict.get, Dict.getD, hb]
  unfold settle
  rw [hget]
  cases b with
  | true =>
    simp only [PyVal.truthy_bool, if_true]
    refine wp_seq (updatePayload_spec hrow) (fun x w' h => ?_) fun e w' h => ?_
    · refine ⟨rfl, _, ?_, h.2⟩
      rw [Settled, if_pos rfl, Dict.get?_jsonable]
      simp [Dict.get?_set_ne, PyVal.jsonable]
    · obtain ⟨⟨x, hx⟩, -⟩ := h
      cases hx
  | false =>
    simp only [PyVal.truthy_bool, Bool.false_eq_true, if_false]
    refine wp_perform_bind rfl ?_
    rw [hrow]
    have h₁ := @moves_exec env w (.getApproval .store a) rfl
    obtain ⟨n, hn⟩ := addOne_attempts hopen
    simp only [Option.map_some, Option.getD_some, hpay, hn, Prog.ofExcept_ok, Prog.pure_bind']
    refine wp_seq (updatePayload_spec hrow) (fun x w' h => ?_) fun e w' h => ?_
    · refine ⟨rfl, _, ?_, h₁.after h.2⟩
      rw [Settled, if_neg Bool.false_ne_true, hpay]
      refine hopen.update (fun kv hkv => ?_) ⟨n, ?_⟩
      · simp only [List.mem_cons, List.not_mem_nil, or_false] at hkv
        rcases hkv with rfl | rfl | rfl | rfl <;> simp [attemptKeys]
      · simp
    · obtain ⟨⟨x, hx⟩, -⟩ := h
      cases hx

/-- The integrity check passes a payload that names the tool of its record and a step of its plan. -/
theorem integrity_step {sn : Snapshot} {p : Dict} (hin : sn.In p) (hplace : sn.Placed pre rest)
    {fmt : PyVal → String} :
    ∃ dec, OperationWhitelist.checkPayloadIntegrity fmt p sn.step.toolName (storedSteps sn.steps) =
      .ok dec ∧ dec.allowed = true := by
  have hany : ∀ l : List MultiToolPlanStep, sn.step ∈ l → OperationWhitelist.anyStep (.str sn.step.stepId)
      (l.map fun s => s.stored.modelDump) = .ok true := by
    intro l hl
    induction l with
    | nil => cases hl
    | cons x l ih =>
      simp only [List.map_cons, OperationWhitelist.anyStep, get_stepId, bind, Except.bind,
        PyVal.pyEq_str]
      by_cases hx : x.stored.stepId = sn.step.stepId
      · simp [hx]
      · rw [if_neg (by simpa using hx)]
        rcases List.mem_cons.mp hl with rfl | hl
        · exact absurd rfl hx
        · exact ih hl
  have hmem : sn.step ∈ sn.steps := by simp [hplace.steps]
  refine ⟨OperationWhitelist.permit sn.step.toolName none, ?_, rfl⟩
  simp [OperationWhitelist.checkPayloadIntegrity, Dict.getD, hin.toolName, hin.stepId, storedSteps,
    PyVal.iter, hany _ hmem, bind, Except.bind]

/-- What the resume of an open approval leaves and returns. -/
def ResumeEnds (sn : Snapshot) (a : ApprovalId) (taskId : String) (w : World)
    (seg : List StepMade × ResumedEnd) (r : Except PyExc Dict) (w' : World) : Prop :=
  ∃ d p' extra, r = .ok d ∧ d.get? "success" = some (.bool (isFinished seg.2)) ∧
    Settled sn (consumed seg.1) p' ∧ Created taskId (storedSteps sn.steps) extra seg.2 ∧
    Moves w w' (withCreated (resumeEvents a seg.1) w.db.approvals.length extra)
      ((w.db.approvals ++ extra).modify a fun row => { row with payload := some p' })

/-- **The resume of an open approval** performs the segment of its snapshot. -/
theorem resume_open_spec {sn : Snapshot} {row : ApprovalRow} {p : Dict}
    (hrow : w.db.approvals[a]? = some row) (hst : row.status = .approved) (hp : row.payload = some p)
    (hopen : sn.Open p) (htool : row.toolName = sn.step.toolName) (hplace : sn.Placed pre rest) :
    wp (sequential env) (resume env a)
      (ResumeEnds sn a row.taskId w (segment env sn rest (callsOf w.log))) w := by
  have hpay : row.payloadDict = p := by simp [ApprovalRow.payloadDict, hp]
  have hresumed : Dict.get p "resumed" = .null := by simp [Dict.get, Dict.getD, hopen.notResumed]
  have hmode : Dict.getD p "mode" (.str "") = .str "multitool" := by simp [Dict.getD, hopen.mode]
  obtain ⟨d, hplan, hd⟩ := hopen.plan
  have hsteps : planSteps p (.str "multitool") = .ok (storedSteps sn.steps) := by
    simp [planSteps, Dict.getD, hplan, PyVal.get, PyVal.getD, hd, storedSteps]
  obtain ⟨dec, hdec, hallowed⟩ := @integrity_step pre rest sn p hopen.toIn hplace env.format
  unfold resume
  refine wp_perform_bind rfl ?_
  have h₁ : Moves w (exec env 0 (.getApproval .resumeCheck a) w).2 [] w.db.approvals := moves_exec rfl
  rw [hrow]
  simp only [hst, ne_eq, not_true_eq_false, if_false, hpay, hresumed, PyVal.truthy_null,
    Bool.false_eq_true]
  unfold resumeApproved
  simp only [hpay, hmode]
  refine wp_silent_seq silent_traceTask fun _ w₂ h₂ => ?_
  refine wp_silent_seq silent_recordAudit fun _ w₃ h₃ => ?_
  have h₃ := (h₁.quiet h₂).quiet h₃
  simp only [PyVal.pyEq_str, beq_iff_eq, String.reduceEq, if_false]
  unfold resumeChecked
  rw [htool]
  simp only [hsteps, hdec, hallowed, Prog.ofExcept_ok, Prog.pure_bind', Bool.not_true, Bool.false_eq_true,
    if_false]
  unfold runMode
  simp only [PyVal.pyEq_str, beq_iff_eq, String.reduceEq, if_false, if_true]
  have hseg := @resumeMultitool_spec env a row.taskId w₃ pre rest sn p hopen.toIn hplace
  rw [h₃.callsOf_quiet] at hseg
  refine wp_seq hseg (fun result w₄ h => ?_) fun e w₄ h => ?_
  swap
  · obtain ⟨d, extra, hd, -⟩ := h
    cases hd
  obtain ⟨result, extra, ⟨⟩, hsuccess, hconsumed, hcreated, hm⟩ := h
  rw [h₃.rows] at hm
  have hm := h₃.after hm
  have hrow₄ : w₄.db.approvals[a]? = some row := by
    rw [hm.rows, List.getElem?_append_left (List.getElem?_eq_some_iff.mp hrow).1]
    exact hrow
  refine wp_seq (settle_spec hrow₄ hp hopen hconsumed) (fun _ w₅ h₅ => ?_) fun e w₅ h₅ => by cases h₅.1
  obtain ⟨-, p', hsettled, hm₅⟩ := h₅
  rw [hm.rows] at hm₅
  have hm := hm.trans hm₅
  rw [List.append_nil] at hm
  exact ⟨result, p', extra, rfl, hsuccess, hsettled, hcreated, hm⟩

/-- The resume of an approval that is missing, not approved or consumed does nothing. -/
theorem resume_closed_spec (h : ∀ row, w.db.approvals[a]? = some row → row.status = .approved →
      (Dict.get row.payloadDict "resumed").truthy = true) :
    wp (sequential env) (resume env a)
      (fun r w' => (∃ d, r = .ok d) ∧ Moves w w' [] w.db.approvals) w := by
  unfold resume
  refine wp_perform_bind rfl ?_
  have h₁ : Moves w (exec env 0 (.getApproval .resumeCheck a) w).2 [] w.db.approvals := moves_exec rfl
  cases hrow : w.db.approvals[a]? with
  | none => exact ⟨⟨_, rfl⟩, h₁⟩
  | some row =>
    dsimp only
    by_cases hst : row.status = .approved
    · have hres : (Dict.get row.payloadDict "resumed").truthy = true := h row hrow hst
      simp only [hst, hres, ne_eq, not_true_eq_false, if_false, if_true]
      exact ⟨⟨_, rfl⟩, h₁⟩
    · rw [if_pos hst]
      exact ⟨⟨_, rfl⟩, h₁⟩

/-! ## The next snapshot -/

theorem entries_after {m : Resumed} {s : MultiToolPlanStep} {r : ToolCallRecord}
    (h : ∀ tc ∈ m.toolCalls, IsStepCall tc) : ∀ tc ∈ (m.after s r).toolCalls, IsStepCall tc := by
  intro tc htc
  rcases List.mem_append.mp htc with htc | htc
  · exact h tc htc
  · rw [List.mem_singleton.mp htc]
    exact isStepCall_stepCall

/-- Where a suspended segment was suspended, as the next snapshot. -/
theorem segment_suspended {sn : Snapshot} {pre rest : List MultiToolPlanStep} (hplace : sn.Placed pre rest)
    (hentries : ∀ tc ∈ sn.toolCalls, IsStepCall tc) {calls : List Call} {s : MultiToolPlanStep}
    {rest' : List MultiToolPlanStep} {st : Workflow.State String Call Resumed}
    (h : (segment env sn rest calls).2 = .suspended s rest' st) :
    (∃ pre', (⟨s, sn.steps, st.done, st.saved.toolCalls.map PyVal.jsonable⟩ : Snapshot).Placed pre' rest') ∧
      rest'.length < rest.length ∧ (∀ tc ∈ st.saved.toolCalls, IsStepCall tc) ∧
      st.history = calls ++ (segment env sn rest calls).1.map Workflow.Made.call ∧
      consumed (segment env sn rest calls).1 = true := by
  obtain ⟨c, -, hok, hl, he⟩ := Workflow.perform_suspended h
  obtain ⟨⟨mid, hmid, hdone⟩, hhist⟩ := Workflow.run_suspended he
  refine ⟨⟨pre ++ sn.step :: mid, ?_, hplace.ids, ?_⟩, ?_, ?_, ?_, ?_⟩
  · rw [show (⟨s, sn.steps, st.done, st.saved.toolCalls.map PyVal.jsonable⟩ : Snapshot).steps =
      sn.steps from rfl, hplace.steps, hmid]
    simp
  · rw [show (⟨s, sn.steps, st.done, st.saved.toolCalls.map PyVal.jsonable⟩ : Snapshot).completed =
      st.done from rfl, hdone]
    simp [Workflow.after, Workflow.made, planWorkflow, hplace.completed]
  · rw [hmid]
    simp
    omega
  · refine @Workflow.run_saved _ _ _ _ _ _ _ _ _ _
      (fun st => ∀ tc ∈ st.saved.toolCalls, IsStepCall tc) ?_ ?_ _ _ _ he
    · exact fun st x hst => entries_after hst
    · exact entries_after hentries
  · unfold segment
    rw [hhist, hl]
    simp [Workflow.after, Workflow.made]
  · unfold segment
    rw [hl]
    exact hok

end ApprovalResumeService

end AgentHarness
