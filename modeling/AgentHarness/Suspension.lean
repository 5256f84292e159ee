import AgentHarness.Footprint
import AgentHarness.Kernel
import AgentHarness.PlanFlow

/-!
# Suspension — what a run does after it asked for an approval

`SuspendsTask` says that after the creation of a pending approval a run starts no tool call and no
mode, and that the task ends as `waiting_approval`.  The keyword path, the graph adapter, the
multi-tool mode and the NL2SQL mode keep it, because the approval is the last act of each.
-/

namespace AgentHarness

open Lib Py

/-- The creation of a pending approval for the task. -/
def asksFor (taskId : String) (e : Event) : Bool :=
  match e with
  | ⟨_, .insertApproval row, .ok _⟩ => row.taskId == taskId && row.status == .pending
  | _ => false

/-- The start of a tool call or of an execution mode. -/
def startsWork (e : Event) : Bool :=
  match e.op with
  | .gatewayCall _ _ _ | .nl2sql _ | .enterMode _ => true
  | _ => false

/-- **A pending approval suspends the task.** -/
def SuspendsTask (taskId : String) (r : Except PyExc TaskRun × World) : Prop :=
  ∀ pre e post, r.2.log = pre ++ e :: post → asksFor taskId e = true →
    (∀ e' ∈ post, startsWork e' = false) ∧ ∃ task, r.1 = .ok task ∧ task.status = .waiting_approval

/-- Any creation of an approval. -/
def isInsert (e : Event) : Bool :=
  match e.op with
  | .insertApproval _ => true
  | _ => false

/-- From `w` to `w'` the acts `evs` were added. -/
def Ran (w w' : World) (evs : List Event) : Prop := acts w'.log = acts w.log ++ evs

/-- No approval is created. -/
def Silences (evs : List Event) : Prop := ∀ e ∈ evs, isInsert e = false

/-- The acts of a run that created no approval, or created one last and left the task waiting. -/
def Suspends (evs : List Event) (r : Except PyExc TaskRun) : Prop :=
  Silences evs ∨ ∃ pre e task, evs = pre ++ [e] ∧ Silences pre ∧ r = .ok task ∧
    task.status = .waiting_approval

section Acts

variable {w w₁ w' : World} {evs evs' : List Event} {e : Event} {taskId : String}

theorem Ran.refl (w : World) : Ran w w [] := (List.append_nil _).symm

theorem Ran.trans (h : Ran w w₁ evs) (h' : Ran w₁ w' evs') : Ran w w' (evs ++ evs') := by
  unfold Ran at *
  rw [h', h, List.append_assoc]

theorem Moves.ran {rows : List ApprovalRow} (h : Moves w w' evs rows) : Ran w w' evs := h.acts

/-- Nothing acted in the first part. -/
theorem Ran.after {rows : List ApprovalRow} (h : Moves w w₁ [] rows) (h' : Ran w₁ w' evs) :
    Ran w w' evs := h.ran.trans h'

/-- Nothing acted in the second part. -/
theorem Ran.quiet {rows : List ApprovalRow} (h : Ran w w₁ evs) (h' : Moves w₁ w' [] rows) :
    Ran w w' evs := by
  have := h.trans h'.ran
  rwa [List.append_nil] at this

theorem Silences.nil : Silences [] := List.forall_mem_nil _

theorem Silences.append (h : Silences evs) (h' : Silences evs') : Silences (evs ++ evs') :=
  List.forall_mem_append.mpr ⟨h, h'⟩

theorem Silences.cons (h : isInsert e = false) (h' : Silences evs) : Silences (e :: evs) :=
  List.forall_mem_cons.mpr ⟨h, h'⟩

theorem asksFor_isInsert (h : asksFor taskId e = true) : isInsert e = true := by
  obtain ⟨t, o, r⟩ := e
  unfold asksFor at h
  split at h
  · rename_i heq
    cases heq
    rfl
  · cases h

theorem Suspends.cons {r : Except PyExc TaskRun} (he : isInsert e = false) (h : Suspends evs r) :
    Suspends (e :: evs) r := by
  rcases h with h | ⟨pre, e', task, rfl, hpre, hr⟩
  · exact .inl (h.cons he)
  · exact .inr ⟨e :: pre, e', task, rfl, hpre.cons he, hr⟩

/-- A suspending run of acts after silent ones. -/
theorem Suspends.append {r : Except PyExc TaskRun} (hs : Silences evs') (h : Suspends evs r) :
    Suspends (evs' ++ evs) r := by
  induction evs' with
  | nil => exact h
  | cons e evs' ih =>
    obtain ⟨he, hs⟩ := List.forall_mem_cons.mp hs
    exact (ih hs).cons he

theorem isAct_of_insert (h : isInsert e = true) : e.op.isAct = true := by
  obtain ⟨t, o, r⟩ := e
  cases o <;> first | rfl | cases h

theorem isAct_of_starts (h : startsWork e = true) : e.op.isAct = true := by
  obtain ⟨t, o, r⟩ := e
  cases o <;> first | rfl | cases h

theorem acts_split {pre post log : List Event} (h : log = pre ++ e :: post) (he : e.op.isAct = true) :
    acts log = acts pre ++ e :: acts post := by
  rw [h, acts_append]
  simp [acts, he]

/-- A run whose acts suspend the task. -/
theorem Suspends.task {db : Db} {r : Except PyExc TaskRun} (hran : Ran ⟨db, []⟩ w' evs)
    (h : Suspends evs r) : SuspendsTask taskId (r, w') := by
  intro pre e post hlog he
  have hacts := acts_split hlog (isAct_of_insert (asksFor_isInsert he))
  rw [show acts w'.log = evs from hran] at hacts
  rcases h with h | ⟨pre', e', task, rfl, hpre, hr, hst⟩
  · have := h e (hacts ▸ List.mem_append_right _ List.mem_cons_self)
    exact absurd (this.symm.trans (asksFor_isInsert he)) Bool.false_ne_true
  · have hpost : acts post = [] := by
      rcases List.eq_nil_or_concat (acts post) with hnil | ⟨post', x, hx⟩
      · exact hnil
      have hacts' : pre' ++ [e'] = (acts pre ++ e :: post') ++ [x] := by
        rw [hacts, hx]
        simp
      obtain ⟨hpre', -⟩ := List.append_inj' hacts' rfl
      have hmem : e ∈ pre' := by
        rw [hpre']
        simp
      exact absurd ((hpre e hmem).symm.trans (asksFor_isInsert he)) Bool.false_ne_true
    refine ⟨fun x hx => ?_, task, hr, hst⟩
    cases hs : startsWork x with
    | false => rfl
    | true =>
      have hmem : x ∈ acts post := List.mem_filter.mpr ⟨hx, isAct_of_starts hs⟩
      rw [hpost] at hmem
      cases hmem

end Acts

/-! ## The pipeline -/

/-- The pipeline's run of the plan, after `calls`, is suspended by a step that needs approval. -/
def pipelineAsks (env : Env) (planner : String → MultiToolPlan) (query : String) (calls : List Call) :
    Bool :=
  (planner query).matched &&
    match ((planWorkflow env env.pipelineApprovalStore).run (liveMemory env) (planner query).steps
      (MultiToolPipeline.State.init.flow calls)).2 with
    | .suspended _ _ _ => true
    | _ => false

/-- What a run of the pipeline leaves and returns. -/
def PipelineEnds (taskId : String) (asks : Bool) (w : World) (r : Except PyExc Dict) (w' : World) :
    Prop :=
  if asks then ∃ pre e d a, Ran w w' (pre ++ [e]) ∧ Silences pre ∧ asksFor taskId e = true ∧
    r = .ok d ∧ MultiToolPipeline.Waits d a
  else ∃ evs, Ran w w' evs ∧ Silences evs ∧ ∀ d, r = .ok d → Dict.get? d "requires_approval" = none

variable {env : Env} {w w' : World} {taskId query : String}

theorem silences_callEvent {site : String → CallSite} (l : List StepMade) :
    Silences (l.map (callEvent site)) := by
  intro e he
  obtain ⟨x, -, rfl⟩ := List.mem_map.mp he
  rfl

theorem pipeline_spec {planner : String → MultiToolPlan} :
    wp (sequential env) (MultiToolPipeline.run env planner query taskId)
      (PipelineEnds taskId (pipelineAsks env planner query (callsOf w.log)) w) w := by
  unfold MultiToolPipeline.run pipelineAsks PipelineEnds
  by_cases hmatch : (planner query).matched = true
  swap
  · rw [if_pos (by simpa using hmatch)]
    simp only [hmatch, Bool.false_and, Bool.false_eq_true, if_false]
    refine ⟨[], .refl w, .nil, fun d hd => ?_⟩
    cases hd
    simp [MultiToolPipeline.notMatched]
  rw [if_neg (by simpa using hmatch)]
  simp only [hmatch, Bool.true_and]
  refine wp_mono MultiToolPipeline.runSteps_spec fun r w' hends => ?_
  generalize (planWorkflow env env.pipelineApprovalStore).run (liveMemory env) (planner query).steps
    (MultiToolPipeline.State.init.flow (callsOf w.log)) = res at hends ⊢
  obtain ⟨l, e⟩ := res
  cases e with
  | finished st =>
    obtain ⟨hm, rfl⟩ := hends
    refine ⟨_, hm.ran, silences_callEvent l, fun d hd => ?_⟩
    cases hans : MultiToolPipeline.generateAnswer env (planner query) st.saved.saved with
    | error e => simp [hans, Except.map] at hd
    | ok ans =>
      simp only [hans, Except.map, Except.ok.injEq] at hd
      subst hd
      simp [MultiToolPipeline.okResult]
  | failed =>
    obtain ⟨hm, d, rfl, hd⟩ := hends
    refine ⟨_, hm.ran, silences_callEvent l, fun d' hd' => ?_⟩
    cases hd'
    exact hd.requiresApproval
  | suspended s rest st =>
    obtain ⟨row, hrow, hm, d, rfl, hd⟩ := hends
    refine ⟨_, _, d, _, hm.ran, silences_callEvent l, ?_, rfl, hd⟩
    simp [asksFor, approvalEvent, hrow.taskId, hrow.pending]

/-! ## The keyword path -/

namespace AgentKernel

variable {k : AgentKernel} {task : TaskRun}

def enterEvent (mode : String) : Event := ⟨0, .enterMode mode, .ok ()⟩

theorem ran_enterMode {mode : String} : Ran w (exec env 0 (.enterMode mode) w).2 [enterEvent mode] :=
  Moves.ran (moves_act rfl)

theorem silent_hook {stage : String} {payload : Dict} : Silent env (hook stage payload) :=
  silent_perform rfl fun _ _ => ⟨⟨_, rfl⟩, rfl⟩

theorem silent_runHooks {stage : String} {payload : Dict} : Silent env (runHooks taskId stage payload) := by
  unfold runHooks checkHookErrors
  refine silent_hook.bind fun left => ?_
  dsimp only
  split
  · exact silent_trace
  · exact silent_pure

/-- A part that leaves the task as it is and creates no approval, or creates one last and leaves the
task waiting. -/
def LeavesTask {α : Type} (task : TaskRun) (w : World) (r : Except PyExc (α × TaskRun)) (w' : World) :
    Prop :=
  (∃ evs, Ran w w' evs ∧ Silences evs ∧ ∀ x, r = .ok x → x.2 = task) ∨
    ∃ e x, Ran w w' [e] ∧ r = .ok x ∧ x.2.status = .waiting_approval

/-- What has happened before does not act. -/
theorem LeavesTask.after {α : Type} {w₁ : World} {r : Except PyExc (α × TaskRun)}
    {rows : List ApprovalRow} (h₁ : Moves w w₁ [] rows) (h : LeavesTask task w₁ r w') :
    LeavesTask task w r w' := by
  rcases h with ⟨evs, hran, hs, hr⟩ | ⟨e, x, hran, hr, hst⟩
  · exact .inl ⟨evs, Ran.after h₁ hran, hs, hr⟩
  · exact .inr ⟨e, x, Ran.after h₁ hran, hr, hst⟩

theorem requestApproval_spec {toolName : String} {arguments : Dict} {planResult : PlanResult}
    {spec : ToolSpec} {decision : Decision} :
    wp (sequential env) (requestApproval task toolName arguments planResult spec decision)
      (fun r w' => ∃ e x, Ran w w' [e] ∧ r = .ok x ∧ x.2.status = .waiting_approval) w := by
  unfold requestApproval createApproval
  refine wp_perform_bind rfl ?_
  refine wp_silent_seq silent_trace fun _ w₁ h₁ => ?_
  exact ⟨_, _, Ran.quiet (Moves.ran moves_insertApproval) h₁, rfl, rfl⟩

/-- The gate stops the run with what `_execute` then returns. -/
theorem gate_spec {toolName : String} {arguments : Dict} {planResult : PlanResult} :
    wp (sequential k.env) (k.gate task toolName arguments planResult) (fun r w' =>
      match r with
      | .ok none => Moves w w' [] w.db.approvals
      | .ok (some x) => LeavesTask task w (.ok x) w'
      | .error _ => Moves w w' [] w.db.approvals) w := by
  unfold gate
  refine wp_perform_bind rfl ?_
  have h₀ : Moves w (exec k.env 0 (.getTool toolName) w).2 [] w.db.approvals := moves_exec rfl
  cases k.env.gateway.registry toolName with
  | none => exact h₀
  | some spec =>
    refine wp_quiet_seq (Prog.uses_call.mpr rfl) (fun decision w₁ h₁ => ?_) fun e w₁ h₁ => h₀.quiet h₁
    have h₁ := h₀.quiet h₁
    split
    · exact h₁
    split
    · rw [← bind_pure_comp]
      refine wp_seq requestApproval_spec (fun x w₂ h₂ => LeavesTask.after h₁ (.inr h₂)) fun e w₂ h₂ => ?_
      obtain ⟨_, _, -, h, -⟩ := h₂
      cases h
    · refine wp_silent_seq silent_trace fun _ w₂ h₂ => ?_
      exact .inl ⟨[], (h₁.quiet h₂).ran, .nil, fun x hx => by cases hx; rfl⟩

theorem callTool_spec {toolName : String} {arguments : Dict} :
    wp (sequential env) (callTool task toolName arguments) (LeavesTask task w) w := by
  unfold callTool
  refine wp_silent_seq silent_runHooks fun _ w₁ h₁ => ?_
  have hcall := @moves_act env w₁ (.gatewayCall .keyword (.str toolName) (.dict arguments)) rfl
  refine wp_seq (R := fun r w' => w' = (exec env 0 (.gatewayCall .keyword (.str toolName)
    (.dict arguments)) w₁).2) (wp_perform.mpr rfl) ?_ ?_
  · rintro record w₂ rfl
    refine wp_silent_seq silent_runHooks fun _ w₃ h₃ => ?_
    refine wp_silent_seq silent_trace fun _ w₄ h₄ => .inl ?_
    have hran := (Ran.quiet (Ran.after h₁ hcall.ran) h₃).quiet h₄
    exact ⟨_, hran, Silences.nil.cons rfl, fun x hx => by cases hx; rfl⟩
  · rintro e w₂ rfl
    exact .inl ⟨_, Ran.after h₁ hcall.ran, Silences.nil.cons rfl, fun _ hx => nomatch hx⟩

theorem execute_spec {planResult : PlanResult} :
    wp (sequential k.env) (k.execute task planResult) (LeavesTask task w) w := by
  have hnone : LeavesTask task w (.ok (ToolResult.none, task)) w :=
    .inl ⟨[], .refl w, .nil, fun x hx => by cases hx; rfl⟩
  unfold execute
  cases planResult.toolName with
  | none => exact hnone
  | some toolName =>
    dsimp only
    split
    · exact hnone
    refine wp_seq gate_spec (fun stopped w₁ h₁ => ?_) fun e w₁ h₁ =>
      .inl ⟨[], h₁.ran, .nil, fun _ hx => nomatch hx⟩
    cases stopped with
    | none => exact wp_mono callTool_spec fun r w' h => h.after h₁
    | some x => exact h₁

theorem runNodes_spec :
    wp (sequential k.env) (k.runNodes task) (LeavesTask task w) w := by
  have hassemble : Silent k.env (k.assemble task) := silent_trace.bind fun _ => silent_pure
  have hplan : Silent k.env (k.plan task) := silent_trace.bind fun _ => silent_pure
  unfold runNodes
  refine wp_silent_seq hassemble fun _ w₁ h₁ => ?_
  refine wp_silent_seq hplan fun planResult w₂ h₂ => ?_
  refine wp_seq execute_spec (fun x w₃ h₃ => ?_) fun e w₃ h₃ => ?_
  · refine LeavesTask.after (h₁.quiet h₂) ?_
    rcases h₃ with ⟨evs, hran, hs, hr⟩ | ⟨e, y, hran, hr, hst⟩
    · exact .inl ⟨evs, hran, hs, fun y hy => by cases hy; exact hr x rfl⟩
    · cases hr
      exact .inr ⟨e, _, hran, rfl, hst⟩
  · rcases h₃ with ⟨evs, hran, hs, -⟩ | ⟨_, _, -, h, -⟩
    · exact .inl ⟨evs, Ran.after (h₁.quiet h₂) hran, hs, fun _ hx => nomatch hx⟩
    · cases h

/-- What a guarded part leaves is handled, or continued. -/
theorem wp_guarded {α : Type} {handler : TaskRun → PyExc → Py TaskRun} {p : Py α} {next : α → Py TaskRun}
    {R : Except PyExc α → World → Prop} {Q : Except PyExc TaskRun → World → Prop}
    (hp : wp (sequential env) p R w)
    (hok : ∀ a w', R (.ok a) w' → wp (sequential env) (next a) Q w')
    (herr : ∀ e w', R (.error e) w' → wp (sequential env) (handler task e) Q w') :
    wp (sequential env) (guarded task handler p next) Q w := by
  unfold guarded
  refine wp_seq (wp_attempt hp) ?_ ?_
  · rintro r w' ⟨_, ⟨⟩, h⟩
    cases r with
    | ok a => exact hok a w' h
    | error e => exact herr e w' h
  · rintro e w' ⟨_, h, -⟩
    cases h

/-- A guarded part that is silent. -/
theorem wp_guarded_silent {α : Type} {handler : TaskRun → PyExc → Py TaskRun} {p : Py α}
    {next : α → Py TaskRun} {Q : Except PyExc TaskRun → World → Prop} (hp : Silent env p)
    (hok : ∀ a w', Moves w w' [] w.db.approvals → wp (sequential env) (next a) Q w') :
    wp (sequential env) (guarded task handler p next) Q w :=
  wp_guarded (hp w) (fun a w' h => hok a w' h.2) fun _ _ h => nomatch h.1.choose_spec

/-- The handler of `run` fails the task, and does not act. -/
theorem failRun_spec {e : PyExc} {evs : List Event} {w₀ : World} (h₀ : Ran w₀ w evs) (hs : Silences evs) :
    wp (sequential env) (failRun task e)
      (fun r w' => ∃ evs, Ran w₀ w' evs ∧ Suspends evs r ∧ ∃ task', r = .ok task') w := by
  unfold failRun
  refine wp_silent_seq silent_hook fun _ w₁ h₁ => wp_silent_seq silent_trace fun _ w₂ h₂ => ?_
  exact ⟨_, (h₀.quiet h₁).quiet h₂, .inl hs, _, rfl⟩

/-- **The keyword path** enters its mode, and suspends the task if it asks for an approval. -/
theorem run_spec :
    wp (sequential k.env) (k.run task) (fun r w' => ∃ evs, Ran w w' (enterEvent "keyword" :: evs) ∧
      Suspends evs r ∧ ∃ task', r = .ok task') w := by
  unfold run
  have h₀ := @ran_enterMode k.env w "keyword"
  refine wp_perform_bind rfl ?_
  suffices h : ∀ w₀, wp (sequential k.env) _ (fun r w' => ∃ evs, Ran w₀ w' evs ∧ Suspends evs r ∧
      ∃ task', r = .ok task') w₀ from
    wp_mono (h _) fun r w' ⟨evs, hran, hs, hr⟩ => ⟨evs, h₀.trans hran, hs, hr⟩
  intro w₀
  refine wp_guarded (R := LeavesTask { task with status := .running } w₀) ?_ (fun x w₁ h₁ => ?_) fun e w₁ h₁ => ?_
  · refine wp_silent_seq silent_trace fun _ w₁ h₁ => wp_silent_seq silent_runHooks fun _ w₂ h₂ => ?_
    exact wp_mono runNodes_spec fun r w' h => h.after (h₁.quiet h₂)
  · rcases h₁ with ⟨evs, hran, hs, hr⟩ | ⟨e, y, hran, hr, hst⟩
    · have hx := hr x rfl
      obtain ⟨result, task₁⟩ := x
      obtain rfl : task₁ = { task with status := .running } := hx
      dsimp only
      rw [if_neg (by decide)]
      have hcomplete : Silent k.env (k.completeRun
          { task with status := .running, result := some result } result) :=
        silent_runHooks.bind fun _ => silent_trace.bind fun _ => silent_pure
      exact wp_guarded_silent hcomplete fun task' w₂ h₂ => ⟨_, hran.quiet h₂, .inl hs, task', rfl⟩
    · cases hr
      obtain ⟨result, task₁⟩ := x
      have hst : task₁.status = .waiting_approval := hst
      dsimp only
      rw [if_pos hst]
      exact ⟨_, hran, .inr ⟨[], e, _, rfl, .nil, rfl, hst⟩, _, rfl⟩
  · rcases h₁ with ⟨evs, hran, hs, -⟩ | ⟨_, _, -, h, -⟩
    · exact failRun_spec hran hs
    · cases h

end AgentKernel

end AgentHarness
