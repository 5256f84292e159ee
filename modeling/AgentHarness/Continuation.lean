import AgentHarness.Requests
import AgentHarness.ResumeFlow

/-!
# Continuation — a suspended plan, approved and resumed in turn, against the uninterrupted run

`interruptedRun` runs the pipeline and then approves and resumes every approval that the run or a
resume created; `uninterruptedRun` is the pipeline under a policy that allows the steps that asked for
approval.  Both make the same calls and end alike exactly if `SnapshotsAgree`: from the first
suspension on, the live records and the payload resolve the arguments of every step reached to the
same values (or both fail), and the answer of a completed plan can be generated.
-/

namespace AgentHarness

open Lib Py ApprovalResumeService

/-- Who decides an approval, in which store. -/
structure Decider where
  backend : Backend
  decidedBy : String
  reason : String

/-- Approval `a` is approved and resumed. -/
def approveAndResume (env : Env) (by' : Decider) (a : ApprovalId) : Py Dict := do
  let _ ← decideApproval by'.backend a true by'.decidedBy by'.reason
  resume env a

/-- After a request: as long as there is an approval from `a` on, the next one is approved and
resumed. -/
def continueRun (env : Env) (by' : Decider) :
    Nat → ApprovalId → Except PyExc Dict × World → Except PyExc Dict × World
  | 0, _, r => r
  | fuel + 1, a, r =>
    if a < r.2.db.approvals.length then
      continueRun env by' fuel (a + 1) (serve env (approveAndResume env by' a) r.2)
    else r

/-- The pipeline, and the approval and resume of each suspension in turn. -/
def interruptedRun (env : Env) (by' : Decider) (planner : String → MultiToolPlan)
    (query taskId : String) (db : Db) : Except PyExc Dict × World :=
  continueRun env by' (planner query).steps.length db.approvals.length
    (serve env (MultiToolPipeline.run env planner query taskId) ⟨db, []⟩)

/-- The decision that lets a tool run where it would ask for approval. -/
def Decision.granted (d : Decision) : Decision :=
  if d.requiresApproval then { d with allowed := true, requiresApproval := false } else d

/-- The environment whose policy allows what needs approval. -/
def Env.allowing (env : Env) : Env :=
  { env with policyEngine := env.policyEngine.map fun e t r => (e t r).granted }

/-- The pipeline under that policy. -/
def uninterruptedRun (env : Env) (planner : String → MultiToolPlan) (query taskId : String) (db : Db) :
    Except PyExc Dict × World :=
  serve env.allowing (MultiToolPipeline.run env.allowing planner query taskId) ⟨db, []⟩

/-- `result["success"]`; a run that raised is no success. -/
def succeededResult : Except PyExc Dict → Bool
  | .ok d => (Dict.get d "success").truthy
  | .error _ => false

/-- The sequence of tool calls, and the overall success. -/
def runOutcome (r : Except PyExc Dict × World) : List Call × Bool :=
  (callsOf r.2.log, succeededResult r.1)

/-- The answer of a completed plan can be generated. -/
def answers (env : Env) (plan : MultiToolPlan) (st : MultiToolPipeline.State) : Bool :=
  (MultiToolPipeline.generateAnswer env plan st.saved).isOk

/-- **From the first suspension on, the payload resolves what the live records resolve.** -/
def SnapshotsAgree (env : Env) (plan : MultiToolPlan) : Prop :=
  plan.matched = true → (planWorkflow env true).Agree (liveMemory env) (durableMemory env)
    MultiToolPipeline.State.handoff Resumed.reload (answers env plan) plan.steps
    (MultiToolPipeline.State.init.flow [])

variable {env : Env} {by' : Decider} {planner : String → MultiToolPlan} {query taskId : String} {db : Db}
  {w w' : World} {a : ApprovalId}

/-! ## The uninterrupted run -/

theorem stepGate_allowing (s : MultiToolPlanStep) :
    stepGate env.allowing true s = if stepGate env true s = .suspend then .run else stepGate env true s := by
  unfold stepGate
  have hreg : env.allowing.gateway = env.gateway := rfl
  have hpol : env.allowing.policyEngine = env.policyEngine.map fun e t r => (e t r).granted := rfl
  rw [hreg, hpol]
  cases env.gateway.registry s.toolName with
  | none => rfl
  | some spec =>
    cases env.policyEngine with
    | none => rfl
    | some e =>
      simp only [Option.map_some, Decision.granted]
      by_cases hreq : (e s.toolName (some spec.riskLevel)).requiresApproval = true
      · by_cases hall : (e s.toolName (some spec.riskLevel)).allowed = true <;> simp [hreq, hall]
      · by_cases hall : (e s.toolName (some spec.riskLevel)).allowed = true <;> simp [hreq, hall]

theorem planWorkflow_allowing : planWorkflow env.allowing true = (planWorkflow env true).lift := by
  have hgate : stepGate env.allowing true =
      fun s => if stepGate env true s = .suspend then .run else stepGate env true s :=
    funext stepGate_allowing
  unfold planWorkflow Workflow.lift
  rw [hgate]
  rfl

/-- Resolution does not read the policy. -/
theorem walk_allowing (v : PyVal) (ps : List String) : walk env.allowing v ps = walk env v ps := by
  induction ps generalizing v with
  | nil => rfl
  | cons p ps ih =>
    have hpart : valuePart env.allowing v p = valuePart env v p := by cases v <;> rfl
    simp only [walk, hpart, ih]

theorem liveMemory_allowing : liveMemory env.allowing = liveMemory env := by
  have hlook : MultiToolPipeline.look env.allowing = MultiToolPipeline.look env := by
    funext saved path
    have hvar : MultiToolPipeline.resolveVariable env.allowing path saved =
        MultiToolPipeline.resolveVariable env path saved := by
      unfold MultiToolPipeline.resolveVariable
      split
      · simp only [walk_allowing]
        rfl
      · rfl
    simp only [MultiToolPipeline.look, hvar]
  unfold liveMemory MultiToolPipeline.resolveArguments MultiToolPipeline.resolveValue
  rw [hlook]

/-- The calls and the success that an end of the pipeline reports. -/
theorem pipeline_outcome {plan : MultiToolPlan} {l : List StepMade}
    {e : Workflow.End MultiToolPlanStep String Call MultiToolPipeline.State} {r : Except PyExc Dict}
    (h : MultiToolPipeline.EndsAs env plan taskId query w (l.map (callEvent .pipelineStep)) e r w') :
    callsOf w'.log = callsOf w.log ++ l.map Workflow.Made.call ∧
      succeededResult r = e.success (answers env plan) := by
  cases e with
  | finished st =>
    obtain ⟨hm, rfl⟩ := h
    refine ⟨by rw [hm.callsOf, callsOf_map_callEvent], ?_⟩
    simp only [Workflow.End.success, answers]
    cases MultiToolPipeline.generateAnswer env plan st.saved.saved with
    | error e => rfl
    | ok ans => rfl
  | failed =>
    obtain ⟨hm, d, rfl, hd⟩ := h
    refine ⟨by rw [hm.callsOf, callsOf_map_callEvent], ?_⟩
    simp [succeededResult, Dict.get, Dict.getD, hd.success, Workflow.End.success]
  | suspended s rest st =>
    obtain ⟨row, -, hm, d, rfl, hd⟩ := h
    refine ⟨?_, ?_⟩
    · rw [hm.callsOf]
      unfold callsOf
      rw [List.filterMap_append]
      rw [show (l.map (callEvent .pipelineStep)).filterMap callOf = l.map Workflow.Made.call from
        callsOf_map_callEvent l]
      simp [callOf, approvalEvent]
    · simp [succeededResult, Dict.get, Dict.getD, hd.success, Workflow.End.success]

theorem uninterruptedRun_outcome (hstore : env.pipelineApprovalStore = true)
    (hmatch : (planner query).matched = true) :
    runOutcome (uninterruptedRun env planner query taskId db) =
      Workflow.outcome ((planWorkflow env true).uninterrupted (liveMemory env)
        (answers env (planner query)) (planner query).steps (MultiToolPipeline.State.init.flow [])) := by
  have hspec := @MultiToolPipeline.runSteps_spec env.allowing (planner query) taskId query ⟨db, []⟩
    (planner query).steps .init
  have hs : env.allowing.pipelineApprovalStore = true := hstore
  rw [hs, planWorkflow_allowing, liveMemory_allowing] at hspec
  obtain ⟨hcalls, hsuccess⟩ := pipeline_outcome (serve_of_wp hspec)
  unfold uninterruptedRun MultiToolPipeline.run
  rw [hmatch]
  exact Prod.ext hcalls hsuccess

/-! ## The interrupted run -/

/-- The last approval is pending, and carries the snapshot. -/
structure WaitsAt (w : World) (a : ApprovalId) (sn : Snapshot) (pre rest : List MultiToolPlanStep) :
    Prop where
  last : w.db.approvals.length = a + 1
  row : ∃ row, w.db.approvals[a]? = some row ∧ row.status = .pending ∧
    row.toolName = sn.step.toolName ∧ ∃ p, row.payload = some p ∧ sn.Open p
  placed : sn.Placed pre rest

/-- The calls of the events that a segment adds. -/
theorem callsOf_withCreated {l : List StepMade} {n : ApprovalId} {extra : List ApprovalRow} :
    callsOf (withCreated (resumeEvents a l) n extra) = l.map Workflow.Made.call := by
  have hextra : (extra.map (approvalEvent n)).filterMap callOf = [] := by
    refine List.filterMap_eq_nil_iff.mpr fun e he => ?_
    obtain ⟨row, -, rfl⟩ := List.mem_map.mp he
    rfl
  unfold callsOf withCreated
  rw [List.filterMap_append, hextra, List.append_nil]
  cases l with
  | nil => rfl
  | cons x l =>
    have hl : (l.map (callEvent fun id => .subsequent a (.str id))).filterMap callOf =
        l.map Workflow.Made.call := callsOf_map_callEvent l
    simp only [resumeEvents, List.filterMap_cons, callOf_callEvent, hl, List.map_cons]

/-- **One approval and its resume**: the segment of the snapshot, and the next approval if it was
suspended. -/
theorem approveAndResume_spec {sn : Snapshot} {pre rest : List MultiToolPlanStep}
    (h : WaitsAt w a sn pre rest) :
    wp (sequential env) (approveAndResume env by' a) (fun r w' =>
      callsOf w'.log = callsOf w.log ++ (segment env sn rest (callsOf w.log)).1.map Workflow.Made.call ∧
      succeededResult r = isFinished (segment env sn rest (callsOf w.log)).2 ∧
      match (segment env sn rest (callsOf w.log)).2 with
      | .suspended s rest' st => ∃ pre', WaitsAt w' (a + 1)
          ⟨s, sn.steps, st.done, st.saved.toolCalls.map PyVal.jsonable⟩ pre' rest'
      | _ => w'.db.approvals.length = a + 1) w := by
  obtain ⟨row, hrow, hpending, htool, p, hp, hopen⟩ := h.row
  unfold approveAndResume
  refine wp_seq decideApproval_sequential (fun _ w₁ h₁ => ?_) fun e w₁ h₁ => ?_
  swap
  · obtain ⟨⟨d, hd⟩, -⟩ := h₁
    cases hd
  obtain ⟨-, hm₁⟩ := h₁
  have hrow₁ : w₁.db.approvals[a]? =
      some (decideIfPending (decidedStatus true) by'.decidedBy by'.reason row) := by
    rw [hm₁.rows, List.getElem?_modify_eq, hrow]
    rfl
  rw [decideIfPending, if_pos hpending] at hrow₁
  have hlen₁ : w₁.db.approvals.length = a + 1 := by rw [hm₁.rows, List.length_modify, h.last]
  have hresume := @resume_open_spec env a w₁ pre rest sn _ p hrow₁ rfl hp hopen htool h.placed
  rw [hm₁.callsOf_quiet] at hresume
  refine wp_mono hresume fun r w' hr => ?_
  obtain ⟨d, p', extra, rfl, hsuccess, -, hcreated, hm⟩ := hr
  refine ⟨?_, ?_, ?_⟩
  · rw [hm.callsOf, callsOf_withCreated, hm₁.callsOf_quiet]
  · simp [succeededResult, Dict.get, Dict.getD, hsuccess]
  · have hlen : w'.db.approvals.length = a + 1 + extra.length := by
      rw [hm.rows, List.length_modify, List.length_append, hlen₁]
    cases hseg : (segment env sn rest (callsOf w.log)).2 with
    | finished st =>
      rw [hseg] at hcreated
      obtain rfl := hcreated
      exact hlen
    | failed =>
      rw [hseg] at hcreated
      obtain rfl := hcreated
      exact hlen
    | suspended s rest' st =>
      rw [hseg] at hcreated
      obtain ⟨row', rfl, hasks⟩ := hcreated
      obtain ⟨⟨pre', hplaced⟩, -, hentries, -⟩ := segment_suspended h.placed hopen.entries hseg
      refine ⟨pre', hlen, ⟨row', ?_, hasks.pending, hasks.toolName, _, hasks.payload, ?_⟩, hplaced⟩
      · rw [hm.rows, List.getElem?_modify_ne _ _ (Nat.ne_of_lt (Nat.lt_succ_self a)),
          show a.succ = w₁.db.approvals.length from hlen₁.symm]
        exact List.getElem?_concat_length
      · exact open_nextPayload hentries

theorem continueRun_done {fuel : Nat} {r : Except PyExc Dict × World}
    (h : r.2.db.approvals.length ≤ a) : continueRun env by' fuel a r = r := by
  cases fuel with
  | zero => rfl
  | succ fuel => exact if_neg (Nat.not_lt.mpr h)

/-- **The approvals and resumes of a chain** are the continued run of the workflow. -/
theorem continueRun_outcome {fuel : Nat} {sn : Snapshot} {pre rest : List MultiToolPlanStep}
    {r : Except PyExc Dict} (hfuel : rest.length < fuel) (h : WaitsAt w a sn pre rest) :
    let chain := (planWorkflow env true).perform (durableMemory env) false sn.step
      ⟨sn.completed, .load sn.toolCalls, callsOf w.log⟩
      ((planWorkflow env true).continued (durableMemory env) Resumed.reload rest)
    callsOf (continueRun env by' fuel a (r, w)).2.log =
        callsOf w.log ++ chain.1.map Workflow.Made.call ∧
      succeededResult (continueRun env by' fuel a (r, w)).1 = chain.2 := by
  intro chain
  induction fuel generalizing w a sn pre rest r with
  | zero => exact absurd hfuel (Nat.not_lt_zero _)
  | succ fuel ih =>
    have hlt : a < w.db.approvals.length := h.last ▸ Nat.lt_succ_self a
    obtain ⟨hcalls, hsuccess, hnext⟩ := serve_of_wp (@approveAndResume_spec env by' w a sn pre rest h)
    have hrun : continueRun env by' (fuel + 1) a (r, w) =
        continueRun env by' fuel (a + 1) (serve env (approveAndResume env by' a) w) := if_pos hlt
    have hchain : chain = (planWorkflow env true).proceed (durableMemory env) Resumed.reload
        (fun _ => true) Resumed.reload (segment env sn rest (callsOf w.log)) :=
      Workflow.perform_continued_eq
    obtain ⟨row, -, -, -, p, -, hopen⟩ := h.row
    rw [hrun, hchain]
    have hsus := @segment_suspended env sn pre rest h.placed hopen.entries (callsOf w.log)
    rcases hseg : segment env sn rest (callsOf w.log) with ⟨l, e⟩
    rw [hseg] at hcalls hsuccess hnext hsus
    cases e with
    | finished st =>
      rw [continueRun_done (Nat.le_of_eq hnext)]
      exact ⟨hcalls, hsuccess⟩
    | failed =>
      rw [continueRun_done (Nat.le_of_eq hnext)]
      exact ⟨hcalls, hsuccess⟩
    | suspended s rest' st =>
      obtain ⟨pre', hwaits⟩ := hnext
      obtain ⟨-, hlt', -, hhist, -⟩ := hsus rfl
      have hst : st.map Resumed.reload = (⟨st.done, .load (st.saved.toolCalls.map PyVal.jsonable),
          callsOf (serve env (approveAndResume env by' a) w).2.log⟩ :
          Workflow.State String Call Resumed) := by
        rw [hcalls]
        simp only [Workflow.State.map, hhist, Resumed.reload]
      obtain ⟨hcalls', hsuccess'⟩ := ih (r := (serve env (approveAndResume env by' a) w).1)
        (Nat.lt_of_lt_of_le hlt' (Nat.le_of_lt_succ hfuel)) hwaits
      unfold Workflow.proceed
      dsimp only
      rw [hst]
      refine ⟨?_, hsuccess'⟩
      rw [hcalls', hcalls, List.map_append, List.append_assoc]

/-- The interrupted run is the run of the workflow that hands over at its first suspension. -/
theorem interruptedRun_outcome (hstore : env.pipelineApprovalStore = true)
    (hids : ((planner query).steps.map MultiToolPlanStep.stepId).Nodup)
    (hmatch : (planner query).matched = true) :
    runOutcome (interruptedRun env by' planner query taskId db) =
      Workflow.outcome ((planWorkflow env true).interrupted (liveMemory env) (durableMemory env)
        MultiToolPipeline.State.handoff Resumed.reload (answers env (planner query))
        (planner query).steps (MultiToolPipeline.State.init.flow [])) := by
  have hspec := @MultiToolPipeline.runSteps_spec env (planner query) taskId query ⟨db, []⟩
    (planner query).steps .init
  rw [hstore] at hspec
  have hends := serve_of_wp hspec
  have hrun : MultiToolPipeline.run env planner query taskId = MultiToolPipeline.runSteps env
      (planner query) taskId query (planner query).steps .init := by
    unfold MultiToolPipeline.run
    rw [hmatch]
    rfl
  unfold interruptedRun
  rw [hrun, Workflow.interrupted_eq]
  obtain ⟨hcalls, hsuccess⟩ := pipeline_outcome hends
  rcases hr : (planWorkflow env true).run (liveMemory env) (planner query).steps
    (MultiToolPipeline.State.init.flow []) with ⟨l, e⟩
  have hcs : callsOf (⟨db, []⟩ : World).log = [] := rfl
  rw [hcs, hr] at hends hcalls hsuccess
  cases e with
  | finished st =>
    have hrows : (serve env (MultiToolPipeline.runSteps env (planner query) taskId query
      (planner query).steps .init) ⟨db, []⟩).2.db.approvals = db.approvals := hends.1.rows
    rw [continueRun_done (Nat.le_of_eq (congrArg List.length hrows))]
    exact Prod.ext hcalls hsuccess
  | failed =>
    have hrows : (serve env (MultiToolPipeline.runSteps env (planner query) taskId query
      (planner query).steps .init) ⟨db, []⟩).2.db.approvals = db.approvals := hends.1.rows
    rw [continueRun_done (Nat.le_of_eq (congrArg List.length hrows))]
    exact Prod.ext hcalls hsuccess
  | suspended s rest st =>
    obtain ⟨row, hasks, hm, -⟩ := hends
    have hsus := @run_suspended_snapshot env (planner query) true s rest st hids
    rw [hr] at hsus
    obtain ⟨⟨pre, hplaced⟩, hcompleted, hentries, hhist⟩ := hsus rfl
    obtain ⟨w₁, hw₁⟩ : ∃ w₁, (serve env (MultiToolPipeline.runSteps env (planner query) taskId query
      (planner query).steps .init) ⟨db, []⟩).2 = w₁ := ⟨_, rfl⟩
    obtain ⟨r₁, hr₁⟩ : ∃ r₁, (serve env (MultiToolPipeline.runSteps env (planner query) taskId query
      (planner query).steps .init) ⟨db, []⟩).1 = r₁ := ⟨_, rfl⟩
    have hpair : serve env (MultiToolPipeline.runSteps env (planner query) taskId query
        (planner query).steps .init) ⟨db, []⟩ = (r₁, w₁) := Prod.ext hr₁ hw₁
    rw [hw₁] at hm hcalls
    have hopen := @open_approvalPayload (planner query) query s st.saved hentries
    rw [hcompleted] at hopen
    have hwaits : WaitsAt w₁ db.approvals.length
        ⟨s, (planner query).steps, st.done, st.saved.toolCalls.map PyVal.jsonable⟩ pre rest := by
      refine ⟨?_, ⟨row, ?_, hasks.pending, hasks.toolName, _, hasks.payload, hopen⟩, hplaced⟩
      · rw [hm.rows, List.length_append]
        rfl
      · rw [hm.rows]
        exact List.getElem?_concat_length
    have hfuel : rest.length < (planner query).steps.length := by
      have hsteps : (planner query).steps = pre ++ s :: rest := hplaced.steps
      rw [hsteps, List.length_append, List.length_cons]
      exact Nat.lt_of_lt_of_le (Nat.lt_succ_self _) (Nat.le_add_left _ _)
    obtain ⟨hcalls', hsuccess'⟩ := @continueRun_outcome env by' w₁ db.approvals.length _ _ pre rest r₁
      hfuel hwaits
    rw [hpair]
    unfold Workflow.proceed
    dsimp only
    have hst : st.map MultiToolPipeline.State.handoff = (⟨st.done,
        .load (st.saved.toolCalls.map PyVal.jsonable), callsOf w₁.log⟩ :
        Workflow.State String Call Resumed) := by
      rw [hcalls]
      simp only [Workflow.State.map, hhist, MultiToolPipeline.State.handoff, List.nil_append]
    rw [hst]
    refine Prod.ext ?_ hsuccess'
    simp only [runOutcome, Workflow.outcome, hcalls', hcalls, List.map_append, List.nil_append]

/-- **Suspend, approve and resume refines the uninterrupted run** exactly if the payloads resolve
what the live records resolve. -/
theorem interrupted_refines_iff (env : Env) (by' : Decider) (planner : String → MultiToolPlan)
    (query taskId : String) (db : Db) (hstore : env.pipelineApprovalStore = true)
    (hids : ((planner query).steps.map MultiToolPlanStep.stepId).Nodup) :
    runOutcome (interruptedRun env by' planner query taskId db) =
        runOutcome (uninterruptedRun env planner query taskId db) ↔
      SnapshotsAgree env (planner query) := by
  unfold SnapshotsAgree
  by_cases hmatch : (planner query).matched = true
  · rw [interruptedRun_outcome hstore hids hmatch, uninterruptedRun_outcome hstore hmatch]
    simp only [hmatch, forall_const]
    exact eq_comm.trans Workflow.interrupted_iff
  · simp only [hmatch, Bool.false_eq_true, false_implies, iff_true]
    have hrun : ∀ env, MultiToolPipeline.run env planner query taskId =
        pure (MultiToolPipeline.notMatched (planner query)) := fun env => by
      unfold MultiToolPipeline.run
      rw [if_pos (by simpa using hmatch)]
    unfold interruptedRun uninterruptedRun
    have hrows : (serve env (pure (MultiToolPipeline.notMatched (planner query)))
        ⟨db, []⟩).2.db.approvals.length ≤ db.approvals.length := Nat.le_refl _
    rw [hrun, hrun, continueRun_done hrows]
    rfl

/-- A report whose `note` is `None`, and a refund that passes the note on. -/
def noteEnv : Env :=
  { demoEnv with tool := fun _ _ _ => (.value (.dict [("note", .null)]), ⟨"call", 0, .null⟩) }

def notePlan : MultiToolPlan where
  matched := true
  intent := "note"
  steps := [⟨"s1", "report", [], [], some "x"⟩,
    ⟨"s2", "refund", [("note", .str "$x.result.note")], ["s1"], none⟩]
  responseTemplate := "done"
  reason := ""

def demoDecider : Decider := ⟨.sqlite, "admin", ""⟩

theorem interrupted_refines_iff_demo :
    runOutcome (interruptedRun noteEnv demoDecider (fun _ => notePlan) "q" "t" ⟨[], fun _ => none, []⟩) =
        runOutcome (uninterruptedRun noteEnv (fun _ => notePlan) "q" "t" ⟨[], fun _ => none, []⟩) ↔
      SnapshotsAgree noteEnv notePlan :=
  interrupted_refines_iff noteEnv demoDecider (fun _ => notePlan) "q" "t" ⟨[], fun _ => none, []⟩ rfl
    (by decide)

/-- The uninterrupted run refunds with the note `None`; the resume takes it for unresolved. -/
theorem interrupted_refines_fails :
    runOutcome (interruptedRun noteEnv demoDecider (fun _ => notePlan) "q" "t" ⟨[], fun _ => none, []⟩) ≠
      runOutcome (uninterruptedRun noteEnv (fun _ => notePlan) "q" "t" ⟨[], fun _ => none, []⟩) := by
  have hcalls : (runOutcome (interruptedRun noteEnv demoDecider (fun _ => notePlan) "q" "t"
        ⟨[], fun _ => none, []⟩)).1.map Call.tool = ["report"] ∧
      (runOutcome (uninterruptedRun noteEnv (fun _ => notePlan) "q" "t"
        ⟨[], fun _ => none, []⟩)).1.map Call.tool = ["report", "refund"] := by decide +kernel
  intro h
  rw [h, hcalls.2] at hcalls
  exact absurd hcalls.1 (by decide)

end AgentHarness
