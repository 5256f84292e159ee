import AgentHarness.Nl2sqlPipeline
import AgentHarness.TaskTrajectory

/-!
# RunTrajectory — the trajectory of a multi-agent run

The traces of a multi-agent run are those of the kernel, of the stages of the orchestrator, and of the steps that
its executor takes.  The journal is what the trajectory shows of them so far, beside whether an approval was
created; one rule for each trace carries it through the run, whatever answers the operations.
-/

namespace AgentHarness

open Lib Py

namespace Observability

/-! ## What a trace adds -/

/-- The keys of a detail that the summary reads. -/
def viewKeys : List String := ["selected_mode", "executed_mode", "fallback", "requires_approval", "tool_calls"]

/-- None of the keys is there. -/
def isFree (keys : List String) (d : Dict) : Bool := d.all fun entry => decide (entry.1 ∉ keys)

def isQuiet (d : Dict) : Bool := isFree viewKeys d

/-- The event types around a run: of the memory, of the self-check, and of a task that was not saved. -/
def aroundEvents : List String := ["memory_message_added", "reflection_completed", "task_persist_failed"]

/-- The event types whose details are quiet, and that add nothing by themselves. -/
def quietEvents : List String :=
  ["task_started", "task_completed", "risk_intent_blocked", "operation_whitelist_blocked", "multitool_policy_blocked",
    "multitool_step_failed", "multitool_step_started", "multitool_step_completed"] ++ aroundEvents

def isAround (e : TraceEvent) : Bool := decide (e.eventType ∈ aroundEvents) && isQuiet e.detail

/-- The traces of the task in both are the same, but for those around the run. -/
def SameRun (taskId : String) (recorder traces : List TraceEvent) : Prop :=
  (eventsOf taskId recorder).filter (!isAround ·) = (eventsOf taskId traces).filter (!isAround ·)

section

variable {env : Env} {s : ViewState} {e taskId : String} {d : Dict}

theorem get?_of_free {keys : List String} (h : isFree keys d = true) {key : String} (hkey : key ∈ keys) :
    Dict.get? d key = none := by
  unfold Dict.get?
  rw [List.lookup_eq_none_iff]
  intro entry hentry
  have hfar := List.all_eq_true.mp h entry hentry
  refine bne_iff_ne.mpr ?_
  rintro rfl
  exact of_decide_eq_true hfar hkey

theorem get_of_quiet (h : isQuiet d = true) {key : String} (hkey : key ∈ viewKeys) : Dict.get d key = .null := by
  unfold Dict.get Dict.getD
  rw [get?_of_free h hkey]
  rfl

theorem see_of_quiet (h : isQuiet d = true) : s.see env ⟨e, taskId, d⟩ =
    ⟨s.multiAgent || decide (trajectoryRole e ∈ agentRoles), s.selectedMode, s.executedMode,
      s.fallbackUsed || occursIn "fallback" e, s.approvalRequired || occursIn "approval" e,
      statusAfter s.status ⟨e, taskId, d⟩, s.readable⟩ := by
  have hselected : Dict.get d "selected_mode" = .null := get_of_quiet h (by decide)
  have hexecuted : Dict.get d "executed_mode" = .null := get_of_quiet h (by decide)
  have hfallback : Dict.get d "fallback" = .null := get_of_quiet h (by decide)
  have happroval : Dict.get d "requires_approval" = .null := get_of_quiet h (by decide)
  have hcalls : toolCallItems d = .ok [] := by
    unfold toolCallItems
    rw [get_of_quiet h (by decide)]
    rfl
  unfold ViewState.see modeAfter isFallback asksApproval
  rw [hselected, hexecuted, hfallback, happroval, hcalls]
  simp [Except.isOk, Except.toBool]

/-- A trace that adds nothing. -/
theorem see_quiet (he : e ∈ quietEvents) (h : isQuiet d = true) : s.see env ⟨e, taskId, d⟩ = s := by
  have hquiet : ∀ e ∈ quietEvents, decide (trajectoryRole e ∈ agentRoles) = false ∧ occursIn "fallback" e = false ∧
      occursIn "approval" e = false ∧ e ≠ "multi_agent_completed" ∧ e ≠ "multi_agent_failed" := by decide
  obtain ⟨hrole, hfallback, happroval, hcompleted, hfailed⟩ := hquiet e he
  rw [see_of_quiet h, hrole, hfallback, happroval]
  unfold statusAfter
  rw [if_neg hcompleted, if_neg hfailed]
  simp

theorem foldl_see_around {events : List TraceEvent} :
    (events.filter (!isAround ·)).foldl (ViewState.see env) s = events.foldl (ViewState.see env) s := by
  induction events generalizing s with
  | nil => rfl
  | cons event events ih =>
    by_cases haround : isAround event = true
    · obtain ⟨hevent, hquiet⟩ := Bool.and_eq_true _ _ |>.mp haround
      have hsame : s.see env event = s :=
        see_quiet (List.mem_append_right _ (of_decide_eq_true hevent)) hquiet
      rw [List.filter_cons_of_neg (by simpa using haround), List.foldl_cons, hsame, ih]
    · rw [List.filter_cons_of_pos (by simpa using haround), List.foldl_cons, List.foldl_cons, ih]

/-- What is around the run does not show. -/
theorem SameRun.viewOf_eq {recorder traces : List TraceEvent} (h : SameRun taskId recorder traces) :
    viewOf env (eventsOf taskId recorder) = viewOf env (eventsOf taskId traces) := by
  unfold viewOf
  rw [← foldl_see_around, h, foldl_see_around]

end

/-! ## The journal of a run -/

/-- What the trajectory shows so far, and whether an approval was created. -/
structure Journal where
  shown : ViewState
  asked : Bool

/-- An approval is shown exactly if it was created. -/
def Journal.Settled (j : Journal) : Prop := j.shown.approvalRequired = j.asked

/-- The same journal but for approvals. -/
def Journal.asking (j : Journal) (asked : Bool) : Journal := ⟨{ j.shown with approvalRequired := asked }, asked⟩

/-- Nothing but approvals, created and shown. -/
def Journal.OnlyAsks (j j' : Journal) : Prop := ∃ asked, j' = j.asking asked

theorem Journal.Settled.onlyAsks {j : Journal} (h : j.Settled) : j.OnlyAsks j := by
  obtain ⟨s, asked⟩ := j
  obtain rfl : s.approvalRequired = asked := h
  exact ⟨s.approvalRequired, rfl⟩

theorem Journal.OnlyAsks.settled {j j' : Journal} (h : j.OnlyAsks j') : j'.Settled := by
  obtain ⟨asked, rfl⟩ := h
  rfl

theorem Journal.OnlyAsks.trans {j j' j'' : Journal} (h : j.OnlyAsks j') (h' : j'.OnlyAsks j'') : j.OnlyAsks j'' := by
  obtain ⟨asked, rfl⟩ := h
  obtain ⟨asked', rfl⟩ := h'
  exact ⟨asked', rfl⟩

/-- The answer of a mode: whether it succeeded, no mode it was executed in, and its tool calls as a list if any. -/
structure IsReport (d : Dict) : Prop where
  success : ∃ b, Dict.get? d "success" = some (.bool b)
  executedMode : Dict.get? d "executed_mode" = none
  toolCalls : Dict.get? d "tool_calls" = none ∨ ∃ l, Dict.get? d "tool_calls" = some (.list l)

/-- The NL2SQL pipeline gives such answers. -/
theorem isReport_toDict (r : RunResult) : IsReport r.toDict := ⟨⟨r.success, rfl⟩, rfl, .inl rfl⟩

/-- The traces of the task and the approvals; the recorder does not raise. -/
def journal (env : Env) (taskId : String) : Machine Op Ans PyExc Journal where
  may _ _ := True
  step j
    | .trace e t d, r, j' =>
      r = .ok () ∧ j' = if t = taskId then { j with shown := j.shown.see env ⟨e, t, d⟩ } else j
    | .insertApproval _, r, j' => j' = { j with asked := j.asked || r.isOk }
    | .nl2sql _, r, j' => j' = j ∧ ∀ d, r = .ok d → IsReport d
    | .enterMode _, r, j' => j' = j ∧ r = .ok ()
    | _, _, j' => j' = j

/-- The operations that leave the journal. -/
def Still : Op → Prop
  | .trace _ _ _ | .insertApproval _ | .nl2sql _ => False
  | _ => True

section Rules

variable {env : Env} {taskId e : String} {d : Dict} {j : Journal} {s' : ViewState} {α β : Type}
  {Q : Except PyExc α → Journal → Prop} {f : Unit → Py α}

theorem wp_trace (hsee : j.shown.see env ⟨e, taskId, d⟩ = s')
    (h : wp (journal env taskId) (f ()) Q ⟨s', j.asked⟩) :
    wp (journal env taskId) (trace e taskId d >>= f) Q j := by
  refine wp_bind.mpr (wp_call.mpr ⟨trivial, ?_⟩)
  rintro r j' ⟨rfl, hj'⟩
  rw [if_pos rfl, hsee] at hj'
  rw [hj']
  exact h

theorem wp_traceTask (htask : taskId ≠ "") (hsee : j.shown.see env ⟨e, taskId, d⟩ = s')
    (h : wp (journal env taskId) (f ()) Q ⟨s', j.asked⟩) :
    wp (journal env taskId) (traceTask e taskId d >>= f) Q j := by
  unfold traceTask
  rw [if_pos htask]
  exact wp_trace hsee h

/-- A trace that adds nothing. -/
theorem wp_quietTrace (htask : taskId ≠ "") (he : e ∈ quietEvents) (hd : isQuiet d = true)
    (h : wp (journal env taskId) (f ()) Q j) : wp (journal env taskId) (traceTask e taskId d >>= f) Q j :=
  wp_traceTask htask (see_quiet he hd) h

theorem wp_still {p : Py α} (hp : p.Uses Still) : wp (journal env taskId) p (fun _ j' => j' = j) j := by
  refine wp_of_keeps (I := fun j' => j' = j) ?_ hp rfl
  rintro o ho _ rfl
  refine ⟨trivial, fun r j' hstep => ?_⟩
  cases o with
  | trace _ _ _ => exact ho.elim
  | insertApproval _ => exact ho.elim
  | nl2sql _ => exact ho.elim
  | enterMode _ => exact hstep.1
  | _ => exact hstep

theorem wp_still_seq {p : Py β} {f : β → Py α} (hp : p.Uses Still) (hok : ∀ b, wp (journal env taskId) (f b) Q j)
    (herr : ∀ exc, Q (.error exc) j) : wp (journal env taskId) (p >>= f) Q j := by
  refine wp_seq (wp_still hp) ?_ ?_
  · rintro b _ rfl
    exact hok b
  · rintro exc _ rfl
    exact herr exc

/-- Where it ends, only approvals were added, and what it returned has the property. -/
def Ends (P : α → Prop) (j : Journal) (r : Except PyExc α) (j' : Journal) : Prop :=
  j.OnlyAsks j' ∧ ∀ a, r = .ok a → P a

theorem Ends.error {P : α → Prop} {exc : PyExc} (hj : j.Settled) : Ends P j (.error exc) j :=
  ⟨hj.onlyAsks, fun a h => by cases h⟩

theorem Ends.ok {P : α → Prop} {a : α} (hj : j.Settled) (ha : P a) : Ends P j (.ok a) j := by
  refine ⟨hj.onlyAsks, fun a' h => ?_⟩
  cases h
  exact ha

theorem wp_ends_seq {P : β → Prop} {P' : α → Prop} {p : Py β} {f : β → Py α}
    (hp : wp (journal env taskId) p (Ends P j) j)
    (hf : ∀ b j', P b → j'.Settled → wp (journal env taskId) (f b) (Ends P' j') j') :
    wp (journal env taskId) (p >>= f) (Ends P' j) j := by
  refine wp_seq hp ?_ ?_
  · rintro b j' ⟨hasks, hb⟩
    refine wp_mono (hf b j' (hb b rfl) hasks.settled) ?_
    rintro r j'' ⟨hasks', hr⟩
    exact ⟨hasks.trans hasks', hr⟩
  · rintro exc j' ⟨hasks, -⟩
    exact ⟨hasks, fun a h => by cases h⟩

theorem wp_still_ends {P' : α → Prop} {p : Py β} {f : β → Py α} (hp : p.Uses Still) (hj : j.Settled)
    (hf : ∀ b, wp (journal env taskId) (f b) (Ends P' j) j) :
    wp (journal env taskId) (p >>= f) (Ends P' j) j :=
  wp_still_seq hp hf fun _ => .error hj

end Rules

/-! ## The steps of the tools -/

section Pipeline

open MultiToolPipeline

variable {env : Env} {taskId query : String} {plan : MultiToolPlan} {step : MultiToolPlanStep} {st : State} {j : Journal}

theorem isReport_failed {errorType answer : String} {extra : Dict} {calls : List PyVal}
    (hextra : isFree ["success", "executed_mode", "tool_calls"] extra = true) :
    IsReport (failedResult plan step errorType extra answer calls) := by
  have hskip : ∀ key ∈ ["success", "executed_mode", "tool_calls"], ∀ rest : Dict,
      Dict.get? (extra ++ rest) key = Dict.get? rest key := by
    intro key hkey rest
    have hnone := get?_of_free hextra hkey
    unfold Dict.get? at hnone ⊢
    rw [List.lookup_append, hnone]
    rfl
  unfold failedResult
  refine ⟨⟨false, rfl⟩, ?_, .inr ⟨calls, ?_⟩⟩
  · simp [hskip]
  · simp [hskip]

theorem refuseUnregistered_ends (htask : taskId ≠ "") (hj : j.Settled) :
    wp (journal env taskId) (refuseUnregistered plan taskId step st) (Ends IsReport j) j := by
  unfold refuseUnregistered
  refine wp_quietTrace htask (by decide) rfl (wp_still_ends (recordAudit_uses trivial) hj fun _ => ?_)
  exact .ok hj (isReport_failed rfl)

theorem suspend_ends {spec : ToolSpec} {decision : Decision} (htask : taskId ≠ "") (hj : j.Settled) :
    wp (journal env taskId) (suspend plan taskId query step spec decision st) (Ends IsReport j) j := by
  unfold suspend createApproval
  refine wp_bind.mpr (wp_call.mpr ⟨trivial, ?_⟩)
  rintro (exc | approval) j' hj'
  · -- the row was not inserted
    obtain rfl : j' = j := by
      rw [hj']
      simp [Except.isOk, Except.toBool]
    exact .error hj
  · obtain rfl : j' = ⟨j.shown, true⟩ := by
      rw [hj']
      simp [Except.isOk, Except.toBool]
    have hsee : j.shown.see env ⟨"multitool_approval_required", taskId, [("step_id", .str step.stepId),
        ("tool_name", .str step.toolName), ("approval_id", approvalIdVal approval), ("reason", .str decision.reason)]⟩ =
        { j.shown with approvalRequired := true } := by
      rw [see_of_quiet rfl]
      simp [show decide (trajectoryRole "multitool_approval_required" ∈ agentRoles) = false by decide,
        show occursIn "fallback" "multitool_approval_required" = false by decide,
        show occursIn "approval" "multitool_approval_required" = true by decide, statusAfter]
    refine wp_traceTask htask hsee (wp_still_seq (recordAudit_uses trivial) (fun _ => ?_) fun exc => ?_)
    · refine ⟨⟨true, rfl⟩, fun d hd => ?_⟩
      cases hd
      exact isReport_failed rfl
    · exact ⟨⟨true, rfl⟩, fun d hd => by cases hd⟩

theorem refuse_ends {decision : Decision} (htask : taskId ≠ "") (hj : j.Settled) :
    wp (journal env taskId) (refuse plan taskId step decision st) (Ends IsReport j) j := by
  unfold refuse
  refine wp_quietTrace htask (by decide) rfl ?_
  exact .ok hj (isReport_failed rfl)

theorem gateStep_ends {spec : ToolSpec} (htask : taskId ≠ "") (hj : j.Settled) :
    wp (journal env taskId) (gateStep env plan taskId query step spec st)
      (Ends (fun stopped => ∀ d, stopped = some d → IsReport d) j) j := by
  have hsome : ∀ {p : Py Dict}, wp (journal env taskId) p (Ends IsReport j) j →
      wp (journal env taskId) (some <$> p) (Ends (fun stopped => ∀ d, stopped = some d → IsReport d) j) j := by
    intro p hp
    rw [map_eq_pure_bind]
    refine wp_ends_seq hp fun d j' hd hj' => .ok hj' fun d' hd' => ?_
    cases hd'
    exact hd
  unfold gateStep
  split
  · exact .ok hj fun d hd => by cases hd
  · refine wp_still_ends (Prog.uses_call.mpr trivial) hj fun decision => ?_
    split
    · exact .ok hj fun d hd => by cases hd
    · split
      · exact hsome (suspend_ends htask hj)
      · exact hsome (refuse_ends htask hj)

theorem callStep_ends {next : State → Py Dict} (htask : taskId ≠ "") (hj : j.Settled)
    (hnext : ∀ st', wp (journal env taskId) (next st') (Ends IsReport j) j) :
    wp (journal env taskId) (callStep env plan taskId step st next) (Ends IsReport j) j := by
  unfold callStep
  split
  · rename_i exc _
    refine wp_quietTrace htask (by decide) rfl ?_
    exact .ok hj (isReport_failed rfl)
  · refine wp_quietTrace htask (by decide) rfl ?_
    refine wp_still_ends (Prog.uses_call.mpr trivial) hj fun record => ?_
    split
    · refine wp_quietTrace htask (by decide) rfl ?_
      exact .ok hj (isReport_failed rfl)
    · exact wp_quietTrace htask (by decide) rfl (hnext _)

/-- The loop over the steps. -/
theorem runSteps_ends (htask : taskId ≠ "") {steps : List MultiToolPlanStep} (hj : j.Settled) :
    wp (journal env taskId) (runSteps env plan taskId query steps st) (Ends IsReport j) j := by
  induction steps generalizing st j with
  | nil =>
    unfold runSteps
    refine wp_still_ends (Prog.uses_ofExcept _) hj fun answer => .ok hj ?_
    exact ⟨⟨true, rfl⟩, rfl, .inr ⟨_, rfl⟩⟩
  | cons step rest ih =>
    unfold runSteps
    dsimp only
    split
    · refine wp_quietTrace htask (by decide) rfl ?_
      exact .ok hj (isReport_failed rfl)
    · refine wp_still_ends (Prog.uses_call.mpr trivial) hj fun spec => ?_
      cases spec with
      | none => exact refuseUnregistered_ends htask hj
      | some spec =>
        refine wp_ends_seq (gateStep_ends htask hj) fun stopped j' hstopped hj' => ?_
        cases stopped with
        | none => exact callStep_ends htask hj' fun st' => ih hj'
        | some d => exact .ok hj' (hstopped d rfl)

theorem run_ends {planner : String → MultiToolPlan} (htask : taskId ≠ "") (hj : j.Settled) :
    wp (journal env taskId) (MultiToolPipeline.run env planner query taskId) (Ends IsReport j) j := by
  unfold MultiToolPipeline.run
  split
  · exact .ok hj ⟨⟨false, rfl⟩, rfl, .inr ⟨_, rfl⟩⟩
  · exact runSteps_ends htask hj

end Pipeline

/-! ## The executor -/

/-- The answer of an execution: the mode that it ran is a text that is not empty. -/
structure IsAnswer (mode : String) (d : Dict) : Prop where
  success : ∃ b, Dict.get? d "success" = some (.bool b)
  executedMode : ∃ m, m ≠ "" ∧ Dict.getD d "executed_mode" (.str mode) = .str m
  toolCalls : Dict.get? d "tool_calls" = none ∨ ∃ l, Dict.get? d "tool_calls" = some (.list l)

theorem IsReport.answer {mode : String} {d : Dict} (h : IsReport d) (hmode : mode ≠ "") : IsAnswer mode d := by
  refine ⟨h.success, ⟨mode, hmode, ?_⟩, h.toolCalls⟩
  unfold Dict.getD
  rw [h.executedMode]
  rfl

section Executor

open ExecutorAgent

variable {env : Env} {x : ExecutorAgent} {req : RunRequest} {j : Journal} {mode executed reason : String}
  {confidence : Rat} {chain : List String} {d : Dict}

theorem IsReport.auto (h : IsReport d) (hmode : executed ≠ "") :
    IsAnswer mode (autoResult d executed reason confidence chain).1 := by
  have hkept : ∀ key, key ≠ "executed_mode" → key ≠ "fallback_chain" →
      Dict.get? (autoResult d executed reason confidence chain).1 key = Dict.get? d key := by
    intro key hexecuted hchain
    unfold autoResult
    rw [Dict.get?_set_ne hchain, Dict.get?_set_ne hexecuted]
  refine ⟨?_, ⟨executed, hmode, ?_⟩, ?_⟩
  · rw [hkept _ (by decide) (by decide)]
    exact h.success
  · unfold autoResult Dict.getD
    rw [Dict.get?_set_ne (by decide), Dict.get?_set_self]
    rfl
  · rw [hkept _ (by decide) (by decide)]
    exact h.toolCalls

theorem executeNl2sql_ends {taskId : String} (hj : j.Settled) :
    wp (journal env taskId) (executeNl2sql req) (Ends (fun r => IsReport r.1) j) j := by
  unfold executeNl2sql
  refine wp_still_ends (Prog.uses_call.mpr trivial) hj fun _ => ?_
  refine wp_ends_seq (P := IsReport) ?_ fun result j' hreport hj' => ?_
  · refine wp_call.mpr ⟨trivial, ?_⟩
    rintro r j' ⟨rfl, hreport⟩
    exact ⟨hj.onlyAsks, hreport⟩
  · exact wp_still_ends (Prog.uses_ofExcept _) hj' fun _ => .ok hj' hreport

theorem executeMultitool_ends (htask : req.taskId ≠ "") (hj : j.Settled) :
    wp (journal env req.taskId) (executeMultitool env x req) (Ends (fun r => IsReport r.1) j) j := by
  unfold executeMultitool
  refine wp_still_ends (Prog.uses_call.mpr trivial) hj fun _ => ?_
  refine wp_ends_seq (run_ends htask hj) fun result j' hreport hj' => ?_
  exact wp_still_ends (Prog.uses_ofExcept _) hj' fun _ => .ok hj' hreport

theorem callKeyword_ends {taskId toolName : String} (hj : j.Settled) :
    wp (journal env taskId) (callKeyword env x toolName) (Ends (fun r => IsReport r.1) j) j := by
  unfold callKeyword
  refine wp_still_ends (Prog.uses_call.mpr trivial) hj fun record => .ok hj ?_
  dsimp only
  unfold keywordCalled
  split
  · exact ⟨⟨true, rfl⟩, rfl, .inl rfl⟩
  · exact ⟨⟨false, rfl⟩, rfl, .inl rfl⟩

theorem keywordPolicy_still {toolName : String} : (keywordPolicy env toolName).Uses Still := by
  unfold keywordPolicy
  refine Prog.Uses.bind (Prog.uses_call.mpr trivial) fun spec => ?_
  cases spec with
  | none => trivial
  | some spec =>
    dsimp only
    split
    · trivial
    · exact Prog.uses_map.mpr (Prog.uses_call.mpr trivial)

theorem executeKeyword_ends {taskId : String} (hj : j.Settled) :
    wp (journal env taskId) (executeKeyword env x req) (Ends (fun r => IsReport r.1) j) j := by
  unfold executeKeyword
  refine wp_still_ends (Prog.uses_call.mpr trivial) hj fun _ => ?_
  dsimp only
  split
  · exact .ok hj ⟨⟨false, rfl⟩, rfl, .inl rfl⟩
  · split
    · exact .ok hj ⟨⟨false, rfl⟩, rfl, .inl rfl⟩
    · split
      · exact .ok hj ⟨⟨false, rfl⟩, rfl, .inl rfl⟩
      · refine wp_still_ends keywordPolicy_still hj fun decision => ?_
        cases decision with
        | none => exact callKeyword_ends hj
        | some decision =>
          dsimp only
          split
          · exact callKeyword_ends hj
          · exact .ok hj ⟨⟨false, rfl⟩, rfl, .inl rfl⟩

theorem executeAuto_ends (htask : req.taskId ≠ "") (hj : j.Settled) :
    wp (journal env req.taskId) (executeAuto env x req) (Ends (fun r => IsAnswer mode r.1) j) j := by
  unfold executeAuto
  refine wp_ends_seq (executeNl2sql_ends hj) fun nl2sql j₁ hnl2sql hj₁ => ?_
  refine wp_still_ends (Prog.uses_ofExcept _) hj₁ fun _ => ?_
  split
  · exact .ok hj₁ (hnl2sql.auto (by decide))
  · refine wp_ends_seq (executeMultitool_ends htask hj₁) fun multitool j₂ hmultitool hj₂ => ?_
    refine wp_still_ends (Prog.uses_ofExcept _) hj₂ fun _ => ?_
    split
    · exact .ok hj₂ (hmultitool.auto (by decide))
    · refine wp_ends_seq (executeKeyword_ends hj₂) fun keyword j₃ hkeyword hj₃ => ?_
      exact .ok hj₃ (hkeyword.auto (by decide))

theorem execute_ends (htask : req.taskId ≠ "") (hj : j.Settled) :
    wp (journal env req.taskId) (x.execute env req mode) (Ends (fun r => IsAnswer mode r.1) j) j := by
  have hreport : ∀ {p : Py (Dict × AgentDecision)}, mode ≠ "" →
      wp (journal env req.taskId) p (Ends (fun r => IsReport r.1) j) j →
      wp (journal env req.taskId) p (Ends (fun r => IsAnswer mode r.1) j) j := by
    intro p hmode hp
    refine wp_mono hp ?_
    rintro r j' ⟨hasks, hr⟩
    exact ⟨hasks, fun a ha => (hr a ha).answer hmode⟩
  unfold ExecutorAgent.execute
  split
  · rename_i hmode
    exact hreport (by rw [hmode]; decide) (executeNl2sql_ends hj)
  · split
    · rename_i hmode
      exact hreport (by rw [hmode]; decide) (executeMultitool_ends htask hj)
    · split
      · rename_i hmode
        exact hreport (by rw [hmode]; decide) (executeKeyword_ends hj)
      · exact executeAuto_ends htask hj

end Executor

/-! ## The stages of the orchestrator -/

/-- What is shown of a run of agents so far. -/
def agentView (selected executed : String) (fallback asked : Bool) (status : String) : ViewState :=
  ⟨true, selected, executed, fallback, asked, status, true⟩

/-- The journal of a run that has no outcome yet. -/
def agentJournal (selected executed : String) (fallback asked : Bool) : Journal :=
  ⟨agentView selected executed fallback asked "unknown", asked⟩

section Events

variable {env : Env} {selected executed status taskId e m : String} {fallback asked : Bool} {d result extra : Dict}

theorem see_agents (hd : isQuiet d = true) (happroval : occursIn "approval" e = false)
    (he : e ≠ "multi_agent_completed" ∧ e ≠ "multi_agent_failed") :
    (agentView selected executed fallback asked status).see env ⟨e, taskId, d⟩ =
      agentView selected executed (fallback || occursIn "fallback" e) asked status := by
  rw [see_of_quiet hd, happroval]
  unfold agentView statusAfter
  rw [if_neg he.1, if_neg he.2, Bool.or_false, Bool.true_or]

theorem see_failed (hd : isQuiet d = true) : (agentView selected executed fallback asked status).see env
    ⟨"multi_agent_failed", taskId, d⟩ = agentView selected executed fallback asked "failed" := by
  rw [see_of_quiet hd]
  have hfallback : occursIn "fallback" "multi_agent_failed" = false := by decide
  have happroval : occursIn "approval" "multi_agent_failed" = false := by decide
  rw [hfallback, happroval, Bool.or_false, Bool.or_false]
  rfl

theorem modeAfter_str {key old : String} (hget : Dict.get d key = .str m) (hm : m ≠ "") :
    modeAfter env key old d = m := by
  unfold modeAfter
  rw [hget, if_pos (by simpa using hm)]
  rfl

/-- A trace that names modes, or that a fallback marks. -/
theorem see_modes {m' : String} {marked : Bool} (hselected : modeAfter env "selected_mode" selected d = m)
    (hexecuted : modeAfter env "executed_mode" executed d = m') (hmark : (Dict.get d "fallback").truthy = marked)
    (happroval : (Dict.get d "requires_approval").truthy = false) (hitems : (toolCallItems d).isOk = true)
    (he : occursIn "fallback" e = false ∧ occursIn "approval" e = false) :
    (agentView selected executed fallback asked status).see env ⟨e, taskId, d⟩ =
      agentView m m' (fallback || marked) asked (statusAfter status ⟨e, taskId, d⟩) := by
  unfold ViewState.see isFallback asksApproval
  dsimp only [agentView]
  rw [hselected, hexecuted, hmark, happroval, hitems, he.1, he.2]
  simp

theorem see_completed (hm : m ≠ "") : (agentView selected executed fallback asked status).see env
    ⟨"multi_agent_completed", taskId, [("executed_mode", .str m)]⟩ =
      agentView selected m fallback asked "completed" := by
  rw [see_modes rfl (modeAfter_str rfl hm) rfl rfl rfl (by decide)]
  show agentView selected m (fallback || false) asked "completed" = _
  rw [Bool.or_false]

/-- The mode that the coordinator chose. -/
theorem see_decided {action : String} : (agentView "" executed fallback asked status).see env
    ⟨"coordinator_decided", taskId, [("action", .str action), ("selected_mode", .str m)]⟩ =
      agentView m executed fallback asked status := by
  have hmode : modeAfter env "selected_mode" "" [("action", .str action), ("selected_mode", .str m)] = m := by
    by_cases hm : m = ""
    · rw [hm]
      rfl
    · exact modeAfter_str rfl hm
  rw [see_modes hmode rfl rfl rfl rfl (by decide)]
  show agentView m executed (fallback || false) asked status = _
  rw [Bool.or_false]

/-- The review of a fallback. -/
theorem see_reviewed {b : Bool} : (agentView selected executed true asked status).see env
    ⟨"reviewer_completed", taskId, [("approved", .bool b), ("fallback", .bool true)]⟩ =
      agentView selected executed true asked status := by
  rw [see_modes rfl rfl rfl rfl rfl (by decide), Bool.true_or]
  rfl

end Events

section Orchestrator

open MultiAgentOrchestrator

variable {env : Env} {taskId mode m f : String} {selected executed status : String} {fallback asked : Bool} {d : Dict}
  {st : Stages} {j : Journal}

/-- The mark that the execution of a fallback has. -/
def fallbackMark (marked : Bool) : Dict := if marked then [("fallback", .bool true)] else []

theorem toolCallItems_isOk (h : Dict.get d "tool_calls" = .null ∨ ∃ l, Dict.get d "tool_calls" = .list l) :
    (toolCallItems d).isOk = true := by
  unfold toolCallItems
  rcases h with hnone | ⟨l, hl⟩
  · rw [hnone]
    rfl
  · rw [hl]
    unfold PyVal.or
    split_ifs <;> rfl

/-- The tool calls of an execution are those of its answer, if any. -/
theorem executorTrace_toolCalls {marked : Bool} (hans : IsAnswer mode d) :
    Dict.get (executorTrace d (.str m) (fallbackMark marked)) "tool_calls" = .null ∨
      ∃ l, Dict.get (executorTrace d (.str m) (fallbackMark marked)) "tool_calls" = .list l := by
  have hcalls : Dict.get d "tool_calls" = .null ∨ ∃ l, Dict.get d "tool_calls" = .list l := by
    unfold Dict.get Dict.getD
    rcases hans.toolCalls with hnone | ⟨l, hl⟩
    · exact .inl (by rw [hnone]; rfl)
    · exact .inr ⟨l, by rw [hl]; rfl⟩
  unfold executorTrace
  cases marked <;> split_ifs <;> first | exact hcalls | exact .inl rfl

theorem see_executed (marked : Bool) (hans : IsAnswer mode d) (hm : m ≠ "") :
    (agentView selected executed fallback asked status).see env
      ⟨"executor_completed", taskId, executorTrace d (.str m) (fallbackMark marked)⟩ =
        agentView selected m (fallback || marked) asked status := by
  have hselected : Dict.get (executorTrace d (.str m) (fallbackMark marked)) "selected_mode" = .null := by
    unfold executorTrace
    cases marked <;> split_ifs <;> rfl
  have hexecuted : Dict.get (executorTrace d (.str m) (fallbackMark marked)) "executed_mode" = .str m := by
    unfold executorTrace
    cases marked <;> split_ifs <;> rfl
  have hmark : (Dict.get (executorTrace d (.str m) (fallbackMark marked)) "fallback").truthy = marked := by
    unfold executorTrace
    cases marked <;> split_ifs <;> rfl
  have happroval : (Dict.get (executorTrace d (.str m) (fallbackMark marked)) "requires_approval").truthy = false := by
    unfold executorTrace
    cases marked <;> split_ifs <;> rfl
  have hkept : modeAfter env "selected_mode" selected (executorTrace d (.str m) (fallbackMark marked)) = selected := by
    unfold modeAfter
    rw [hselected]
    rfl
  rw [see_modes hkept (modeAfter_str hexecuted hm) hmark happroval (toolCallItems_isOk (executorTrace_toolCalls hans))
    (by decide)]
  rfl

section Coordinator

variable {c : CoordinatorAgent} {query : String} {decision : AgentDecision}

theorem decideWithRules_mode {reason : Option String} :
    ∃ m, Dict.get? (c.decideWithRules query reason).metadata "selected_mode" = some (.str m) := by
  unfold CoordinatorAgent.decideWithRules
  dsimp only
  split
  · exact ⟨_, rfl⟩
  · exact ⟨_, rfl⟩

theorem decideWithLlm_mode (h : c.decideWithLlm env query = .ok (.ok decision)) :
    ∃ m, Dict.get? decision.metadata "selected_mode" = some (.str m) := by
  unfold CoordinatorAgent.decideWithLlm at h
  split at h
  · cases h
  · split at h
    · cases h
    · rename_i reply toolCall rest heq
      cases hname : CoordinatorAgent.functionName env toolCall with
      | error exc =>
        rw [hname] at h
        cases h
      | ok name =>
        rw [hname] at h
        dsimp only [bind, Except.bind] at h
        split at h
        · cases h
        · cases h
          exact ⟨_, rfl⟩

/-- The coordinator names the mode that it chose. -/
theorem decide_mode (h : c.decide env query = .ok decision) :
    Dict.get decision.metadata "selected_mode" = .str decision.selectedMode := by
  have hmode : ∃ m, Dict.get? decision.metadata "selected_mode" = some (.str m) := by
    unfold CoordinatorAgent.decide at h
    split at h
    · cases hdecided : c.decideWithLlm env query with
      | error exc =>
        rw [hdecided] at h
        cases h
      | ok outcome =>
        rw [hdecided] at h
        cases outcome with
        | ok decision' =>
          cases h
          exact decideWithLlm_mode hdecided
        | error reason =>
          cases h
          exact decideWithRules_mode
    · cases h
      exact decideWithRules_mode
  obtain ⟨m, hm⟩ := hmode
  unfold AgentDecision.selectedMode Dict.get Dict.getD
  rw [hm]
  rfl

end Coordinator

/-- The modes that a review suggests. -/
theorem suggested_ne {result : Dict}
    (h : (ReviewerAgent.review result mode).1.suggestedFallbackMode = some f) : f ≠ "" := by
  have hsuggest : ReviewerAgent.suggestFallback mode ≠ "" := by
    unfold ReviewerAgent.suggestFallback
    split_ifs <;> decide
  unfold ReviewerAgent.review at h
  dsimp only at h
  split_ifs at h
  all_goals cases h
  · exact hsuggest
  · decide

/-- What the stages leave in the journal. -/
def StagesView (mode : String) (r : Except PyExc Stages) (j' : Journal) : Prop :=
  ∃ executed fallback asked, j' = agentJournal mode executed fallback asked ∧ ∀ st, r = .ok st →
    IsAnswer st.selectedMode st.result ∧
      (st.fallbackChain = [mode] ∧ fallback = false ∧
          Dict.getD st.result "executed_mode" (.str st.selectedMode) = .str executed ∨
        st.fallbackChain = [mode, executed] ∧ fallback = true)

section Runs

variable {x : ExecutorAgent} {req : RunRequest} {decisions : List AgentDecision} {asked : Bool}

theorem fallback_view (htask : req.taskId ≠ "") (hf : f ≠ "") (hchain : st.fallbackChain = [mode])
    (hans : IsAnswer st.selectedMode st.result) :
    wp (journal env req.taskId) (MultiAgentOrchestrator.fallback (fun e d => traceTask e req.taskId d)
      (fun m => x.execute env req m) st f) (StagesView mode) (agentJournal mode executed false asked) := by
  unfold MultiAgentOrchestrator.fallback
  refine wp_traceTask htask (see_agents rfl (by decide) (by decide)) ?_
  refine wp_seq (@execute_ends env x req _ f htask rfl) ?_ ?_
  · rintro ⟨result, decision⟩ j' ⟨⟨asked', rfl⟩, hresult⟩
    have hresult : IsAnswer f result := hresult _ rfl
    dsimp only
    refine wp_traceTask htask (see_executed true hresult hf) ?_
    rcases ReviewerAgent.review result f with ⟨review, reviewer⟩
    refine wp_traceTask htask see_reviewed ?_
    refine wp_traceTask htask (see_agents rfl (by decide) (by decide)) ?_
    refine ⟨f, true, asked', rfl, fun st' hst' => ?_⟩
    cases hst'
    split
    · exact ⟨hresult, .inr ⟨by rw [hchain]; rfl, rfl⟩⟩
    · exact ⟨hans, .inr ⟨by rw [hchain]; rfl, rfl⟩⟩
  · rintro exc j' ⟨⟨asked', rfl⟩, -⟩
    exact ⟨executed, true, asked', rfl, fun st h => by cases h⟩

theorem stages_view (htask : req.taskId ≠ "") :
    wp (journal env req.taskId) (stages (fun e d => traceTask e req.taskId d) (fun m => x.execute env req m) mode
      decisions) (StagesView mode) (agentJournal mode "" false asked) := by
  unfold stages
  refine wp_seq (@execute_ends env x req _ mode htask rfl) ?_ ?_
  · rintro ⟨result, decision⟩ j' ⟨⟨asked', rfl⟩, hresult⟩
    have hresult : IsAnswer mode result := hresult _ rfl
    obtain ⟨m, hm, hmode⟩ := hresult.executedMode
    dsimp only
    rw [hmode]
    refine wp_traceTask htask (see_executed false hresult hm) ?_
    rcases hreviewed : ReviewerAgent.review result mode with ⟨review, reviewer⟩
    refine wp_traceTask htask (see_agents rfl (by decide) (by decide)) ?_
    dsimp only
    split
    · refine ⟨m, false, asked', rfl, fun st h => ?_⟩
      cases h
      exact ⟨hresult, .inl ⟨rfl, rfl, hmode⟩⟩
    · rename_i fallbackMode hsuggested
      refine fallback_view htask ?_ rfl hresult
      refine @suggested_ne mode fallbackMode result ?_
      rw [hreviewed]
      split_ifs at hsuggested
      exact hsuggested
  · rintro exc j' ⟨⟨asked', rfl⟩, -⟩
    exact ⟨"", false, asked', rfl, fun st h => by cases h⟩

end Runs

/-- What the summary says of a run that came to a result. -/
structure Told (s : ViewState) (r : MultiAgentRunResult) : Prop where
  status : s.status = if r.success then "completed" else "failed"
  fallbackUsed : s.fallbackUsed = decide (2 ≤ r.fallbackChain.length)
  selectedMode : s.selectedMode = r.fallbackChain.headD ""
  /-- After a fallback that was not adopted, a failed run shows the mode of the fallback. -/
  executedMode : s.executedMode =
    if r.success ∨ r.fallbackChain.length = 1 then r.executedMode else r.fallbackChain.getLastD ""

def RunView (r : Except PyExc MultiAgentRunResult) (j' : Journal) : Prop :=
  j'.Settled ∧ j'.shown.readable = true ∧ ∀ result, r = .ok result → j'.shown.multiAgent = true ∧ Told j'.shown result

theorem conclude_view (htask : taskId ≠ "") {r : Except PyExc Stages} (hst : r = .ok st) (h : StagesView mode r j) :
    wp (journal env taskId) (conclude (fun e d => traceTask e taskId d) env st) RunView j := by
  obtain ⟨executed, fallback, asked, rfl, hstages⟩ := h
  obtain ⟨hans, hchain⟩ := hstages st hst
  obtain ⟨b, hb⟩ := hans.success
  obtain ⟨m, hm, hmode⟩ := hans.executedMode
  have hsuccess : Dict.getD st.result "success" (.bool false) = .bool b := by
    unfold Dict.getD
    rw [hb]
    rfl
  unfold conclude
  refine wp_still_seq (Prog.uses_ofExcept _) (fun answer => ?_) fun exc => ⟨rfl, rfl, fun result h => by cases h⟩
  dsimp only
  rw [hsuccess, hmode]
  cases b with
  | true =>
    refine wp_traceTask htask (see_completed hm) ?_
    refine ⟨rfl, rfl, fun result hresult => ⟨rfl, ?_⟩⟩
    cases hresult
    rcases hchain with ⟨hchain, rfl, -⟩ | ⟨hchain, rfl⟩
    · exact ⟨rfl, by rw [hchain]; rfl, by rw [hchain]; rfl, by rw [if_pos (.inl rfl)]; rfl⟩
    · exact ⟨rfl, by rw [hchain]; rfl, by rw [hchain]; rfl, by rw [if_pos (.inl rfl)]; rfl⟩
  | false =>
    refine wp_traceTask htask (see_failed rfl) ?_
    refine ⟨rfl, rfl, fun result hresult => ⟨rfl, ?_⟩⟩
    cases hresult
    rcases hchain with ⟨hchain, rfl, hexecuted⟩ | ⟨hchain, rfl⟩
    · have hshown : m = executed := PyVal.str.inj (hmode.symm.trans hexecuted)
      refine ⟨rfl, by rw [hchain]; rfl, by rw [hchain]; rfl, ?_⟩
      rw [if_pos (.inr (by rw [hchain]; rfl)), hshown]
      rfl
    · refine ⟨rfl, by rw [hchain]; rfl, by rw [hchain]; rfl, ?_⟩
      rw [hchain, if_neg (by simp)]
      rfl

theorem run_view {o : MultiAgentOrchestrator} {req : RunRequest} (htask : req.taskId ≠ "") :
    wp (journal env req.taskId) (o.run env req) RunView ⟨.init, false⟩ := by
  unfold MultiAgentOrchestrator.run runOver
  have hstarted : ViewState.init.see env ⟨"multi_agent_started", req.taskId, [("query", .str req.query)]⟩ =
      agentView "" "" false false "unknown" := by
    have hfallback : occursIn "fallback" "multi_agent_started" = false := by decide
    have happroval : occursIn "approval" "multi_agent_started" = false := by decide
    have hrole : decide (trajectoryRole "multi_agent_started" ∈ agentRoles) = true := by decide
    rw [see_of_quiet rfl, hfallback, happroval, hrole]
    rfl
  refine wp_traceTask htask hstarted ?_
  dsimp only
  split
  · refine wp_quietTrace htask (by decide) rfl (wp_traceTask htask (see_failed rfl) ?_)
    refine ⟨rfl, rfl, fun result h => ⟨rfl, ?_⟩⟩
    cases h
    exact ⟨rfl, rfl, rfl, rfl⟩
  · cases hdecided : o.coordinator.decide env req.query with
    | error exc => exact ⟨rfl, rfl, fun result h => by cases h⟩
    | ok decision =>
      rw [Prog.ofExcept_ok, Prog.pure_bind', decide_mode hdecided]
      refine wp_traceTask htask see_decided ?_
      refine wp_traceTask htask (see_agents rfl (by decide) (by decide)) ?_
      refine wp_seq (stages_view htask) (fun st j' hst => conclude_view htask rfl hst) ?_
      rintro exc j' ⟨executed, fallback, asked, rfl, -⟩
      exact ⟨rfl, rfl, fun result h => by cases h⟩

end Orchestrator

/-! ## The run of the kernel -/

section Kernel

open AgentKernel

variable {k : AgentKernel} {task : TaskRun} {opts : RunOptions} {taskId : String} {env : Env} {j : Journal}

theorem wp_guarded {α : Type} {R : Except PyExc α → Journal → Prop} {Q : Except PyExc TaskRun → Journal → Prop}
    {handler : TaskRun → PyExc → Py TaskRun} {p : Py α} {next : α → Py TaskRun}
    (hp : wp (journal env taskId) p R j) (hok : ∀ a j', R (.ok a) j' → wp (journal env taskId) (next a) Q j')
    (herr : ∀ exc j', R (.error exc) j' → wp (journal env taskId) (handler task exc) Q j') :
    wp (journal env taskId) (AgentKernel.guarded task handler p next) Q j := by
  unfold AgentKernel.guarded
  refine wp_seq (wp_attempt hp) ?_ ?_
  · rintro r j' ⟨_, ⟨⟩, h⟩
    cases r with
    | ok a => exact hok a j' h
    | error exc => exact herr exc j' h
  · rintro exc j' ⟨_, h, -⟩
    cases h

/-- The answer of a run that raised. -/
def failedAnswer (exc : PyExc) : Dict :=
  [("mode", .str "multi_agent"), ("success", .bool false), ("final_answer", .str s!"多 Agent 执行异常: {exc.text}")]

/-- What the journal shows of a run with this answer. -/
structure Shows (j : Journal) (answer : Dict) : Prop where
  settled : j.Settled
  readable : j.shown.readable = true
  multiAgent : j.shown.multiAgent = true
  outcome : (∃ result, answer = result.modelDump ∧ Told j.shown result) ∨
    ∃ exc, answer = failedAnswer exc ∧ j.shown.status = "failed"

theorem failMode_shows (hj : j.Settled) (hread : j.shown.readable = true) {exc : PyExc} :
    wp (journal env task.taskId) (failMode "multi_agent" "final_answer" "多 Agent " task exc)
      (fun r j' => ∃ task' answer, r = .ok task' ∧ task'.result = some answer ∧ Shows j' answer) j := by
  have hevent : "multi_agent" ++ "_failed" = "multi_agent_failed" := by decide
  have hfallback : occursIn "fallback" "multi_agent_failed" = false := by decide
  have happroval : occursIn "approval" "multi_agent_failed" = false := by decide
  have hrole : decide (trajectoryRole "multi_agent_failed" ∈ agentRoles) = true := by decide
  unfold failMode
  rw [hevent]
  refine wp_trace (see_of_quiet rfl) ?_
  rw [hfallback, happroval, hrole, Bool.or_false, Bool.or_false, Bool.or_true]
  exact ⟨_, failedAnswer exc, rfl, rfl, hj, hread, rfl, .inr ⟨exc, rfl, rfl⟩⟩

theorem runMultiAgent_shows (htask : task.taskId ≠ "") : wp (journal k.env task.taskId) (k.runMultiAgent task opts)
    (fun r j' => ∃ task' answer, r = .ok task' ∧ task'.result = some answer ∧ Shows j' answer) ⟨.init, false⟩ := by
  unfold runMultiAgent
  refine wp_bind.mpr (wp_call.mpr ⟨trivial, ?_⟩)
  rintro r j₁ ⟨rfl, rfl⟩
  dsimp only
  refine wp_guarded (R := RunView) ?_ ?_ ?_
  · refine wp_trace (see_quiet (by decide) rfl) ?_
    exact @run_view k.env k.orchestrator (task.request opts) htask
  · rintro result j' ⟨hsettled, hread, hresult⟩
    obtain ⟨hagents, htold⟩ := hresult result rfl
    refine wp_guarded (R := fun r j'' => r = .ok () ∧ j'' = j') ?_ ?_ ?_
    · refine wp_call.mpr ⟨trivial, ?_⟩
      rintro r j'' ⟨rfl, hj''⟩
      rw [if_pos rfl, see_quiet (by decide) rfl] at hj''
      exact ⟨rfl, hj''⟩
    · rintro _ _ ⟨-, rfl⟩
      exact ⟨_, result.modelDump, rfl, rfl, hsettled, hread, hagents, .inl ⟨result, rfl, htold⟩⟩
    · rintro exc _ ⟨h, -⟩
      cases h
  · rintro exc j' ⟨hsettled, hread, -⟩
    exact failMode_shows hsettled hread

end Kernel

/-! ## What was performed -/

/-- An operation with its answer. -/
abbrev Done := (o : Op) × Except PyExc (Ans o)

/-- The traces that the recorder keeps. -/
def tracesOf (done : List Done) : List TraceEvent := done.flatMap fun x => recorded x.1 x.2

def createsApproval : Done → Bool
  | ⟨.insertApproval _, r⟩ => r.isOk
  | _ => false

section Performed

variable {W : Type}

/-- A world that answers in any way, with what was done. -/
def performed (answer : (o : Op) → W → Except PyExc (Ans o) × W) (o : Op) (w : W × List Done) :
    Except PyExc (Ans o) × W × List Done :=
  ((answer o w.1).1, (answer o w.1).2, w.2 ++ [⟨o, (answer o w.1).1⟩])

/-- The recorder and the label of a mode do not raise, and the NL2SQL pipeline gives its reports. -/
structure Answering (answer : (o : Op) → W → Except PyExc (Ans o) × W) : Prop where
  trace : ∀ e t d w, (answer (.trace e t d) w).1 = .ok ()
  enterMode : ∀ mode w, (answer (.enterMode mode) w).1 = .ok ()
  nl2sql : ∀ req w d, (answer (.nl2sql req) w).1 = .ok d → IsReport d

/-- The journal is kept with what was done. -/
def KeepsJournal (env : Env) (taskId : String) (w : W × List Done) (j : Journal) : Prop :=
  j.shown = viewOf env (eventsOf taskId (tracesOf w.2)) ∧ j.asked = w.2.any createsApproval

variable {answer : (o : Op) → W → Except PyExc (Ans o) × W} {env : Env} {taskId : String}

theorem keepsJournal_other {w : W × List Done} {j : Journal} {o : Op} (h : KeepsJournal env taskId w j)
    (htrace : recorded o (answer o w.1).1 = []) (hcreate : createsApproval ⟨o, (answer o w.1).1⟩ = false) :
    KeepsJournal env taskId (performed answer o w).2 j := by
  obtain ⟨hshown, hasked⟩ := h
  unfold KeepsJournal performed tracesOf
  rw [List.flatMap_append, List.flatMap_singleton, htrace, List.append_nil, List.any_append, List.any_cons, hcreate]
  refine ⟨hshown, ?_⟩
  rw [hasked]
  simp

theorem keepsJournal_step (hans : Answering answer) {w : W × List Done} {j : Journal} {o : Op}
    (h : KeepsJournal env taskId w j) : ∃ j', (journal env taskId).step j o (performed answer o w).1 j' ∧
      KeepsJournal env taskId (performed answer o w).2 j' := by
  cases o with
  | trace e t d =>
    refine ⟨_, ⟨hans.trace e t d w.1, rfl⟩, ?_⟩
    obtain ⟨hshown, hasked⟩ := h
    have hrecorded : recorded (.trace e t d) (answer (.trace e t d) w.1).1 = [⟨e, t, d⟩] := by
      rw [hans.trace]
      rfl
    have hevents : eventsOf taskId (tracesOf (performed answer (.trace e t d) w).2.2) =
        eventsOf taskId (tracesOf w.2) ++ if t = taskId then [⟨e, t, d⟩] else [] := by
      unfold performed tracesOf eventsOf
      rw [List.flatMap_append, List.flatMap_singleton, hrecorded, List.filter_append]
      by_cases ht : t = taskId
      · simp [ht]
      · simp [ht]
    unfold KeepsJournal
    rw [hevents]
    unfold viewOf
    rw [List.foldl_append]
    have hsame : (performed answer (.trace e t d) w).2.2.any createsApproval = w.2.any createsApproval := by
      unfold performed
      rw [List.any_append]
      simp [createsApproval]
    rw [hsame]
    split_ifs
    · refine ⟨?_, hasked⟩
      rw [hshown]
      rfl
    · exact ⟨hshown, hasked⟩
  | insertApproval row =>
    refine ⟨_, rfl, ?_⟩
    obtain ⟨hshown, hasked⟩ := h
    unfold KeepsJournal performed tracesOf
    rw [List.flatMap_append, List.any_append]
    refine ⟨?_, ?_⟩
    · rw [hshown]
      unfold tracesOf
      simp [recorded]
    · rw [hasked]
      simp [createsApproval]
  | nl2sql req => exact ⟨j, ⟨rfl, hans.nl2sql req w.1⟩, keepsJournal_other h rfl rfl⟩
  | enterMode mode => exact ⟨j, ⟨rfl, hans.enterMode mode w.1⟩, keepsJournal_other h rfl rfl⟩
  | _ => exact ⟨j, rfl, keepsJournal_other h rfl rfl⟩

/-- What the summary of a run says: of its answer, and of the approvals that it created. -/
structure Tells (s : TrajectorySummary) (answer : Dict) (created : Bool) : Prop where
  isMultiAgent : s.isMultiAgent = true
  approvalRequired : s.approvalRequired = created
  outcome : (∃ r : MultiAgentRunResult, answer = r.modelDump ∧
      s.status = (if r.success then "completed" else "failed") ∧
      s.fallbackUsed = decide (2 ≤ r.fallbackChain.length) ∧ s.selectedMode = r.fallbackChain.headD "" ∧
      s.executedMode = if r.success ∨ r.fallbackChain.length = 1 then r.executedMode else r.fallbackChain.getLastD "") ∨
    ∃ exc, answer = failedAnswer exc ∧ s.status = "failed"

theorem Shows.tells {j : Journal} {d : Dict} {s : TrajectorySummary} (h : Shows j d)
    (hs : (⟨s.isMultiAgent, s.selectedMode, s.executedMode, s.fallbackUsed, s.approvalRequired, s.status, true⟩ :
      ViewState) = j.shown) : Tells s d j.asked := by
  obtain ⟨hsettled, -, hagents, houtcome⟩ := h
  unfold Journal.Settled at hsettled
  rw [← hs] at hsettled hagents houtcome
  refine ⟨hagents, hsettled, houtcome.imp ?_ id⟩
  rintro ⟨result, hresult, htold⟩
  exact ⟨result, hresult, htold.status, htold.fallbackUsed, htold.selectedMode, htold.executedMode⟩

/-- **The trajectory tells the run.**  Whatever the tools, the policy, the stores and the pipeline answer, a
multi-agent run ends with an answer, and the trajectory of its task is shown, with a summary that agrees with it:
the status, the modes, whether it fell back, and an approval exactly if one was created. -/
theorem trajectory_tells_run {k : AgentKernel} {task : TaskRun} {opts : RunOptions} (htask : task.taskId ≠ "")
    (hans : Answering answer) (w : W) :
    ∃ task' d, ((k.runMultiAgent task opts).run (performed answer) (w, [])).1 = .ok task' ∧ task'.result = some d ∧
      ∀ u recorder,
        SameRun task.taskId recorder (tracesOf ((k.runMultiAgent task opts).run (performed answer) (w, [])).2.2) →
        ∃ view, getTaskTrajectory u k.env task.taskId recorder = .ok view ∧
          Tells view.summary d
            (((k.runMultiAgent task opts).run (performed answer) (w, [])).2.2.any createsApproval) := by
  have hstart : KeepsJournal k.env task.taskId (w, []) ⟨.init, false⟩ := ⟨rfl, rfl⟩
  obtain ⟨j, ⟨hshown, hasked⟩, task', d, hrun, hresult, hshows⟩ :=
    wp_run (fun w j o hw _ => keepsJournal_step hans hw) hstart (runMultiAgent_shows htask)
  refine ⟨task', d, hrun, hresult, fun u recorder hrecorder => ?_⟩
  have hshown : j.shown = viewOf k.env (eventsOf task.taskId recorder) := hshown.trans hrecorder.viewOf_eq.symm
  have hread : (viewOf k.env (eventsOf task.taskId recorder)).readable = true := by
    rw [← hshown]
    exact hshows.readable
  obtain ⟨view, hview, hsummary⟩ := @getTaskTrajectory_shown u k.env task.taskId recorder hread
  refine ⟨view, hview, ?_⟩
  rw [← hasked]
  exact hshows.tells (hsummary.trans hshown.symm)

end Performed

theorem dbExec_answering : Answering (dbExec demoEnv [] 0) := by
  refine ⟨fun _ _ _ _ => rfl, fun _ _ => rfl, fun _ _ d h => ?_⟩
  cases h
  exact ⟨⟨false, rfl⟩, rfl, .inl rfl⟩

/-- What the kernel that plans the refund performs for a query. -/
def demoDone : List Done :=
  ((AgentKernel.demoKernel.runMultiAgent AgentKernel.demoTask ⟨"mock", none, true⟩).run
    (performed (dbExec demoEnv [] 0)) (⟨[], fun _ => none, []⟩, [])).2.2

/-- A recorder that also holds a trace of another task, and one of the memory. -/
theorem trajectory_tells_run_demo : ∃ d, ∀ u, ∃ view,
    getTaskTrajectory u demoEnv "t" (⟨"task_started", "other", []⟩ ::
      ⟨"memory_message_added", "t", [("role", .str "user")]⟩ :: tracesOf demoDone) = .ok view ∧
      Tells view.summary d (demoDone.any createsApproval) := by
  have hsame : SameRun "t" (⟨"task_started", "other", []⟩ ::
      ⟨"memory_message_added", "t", [("role", .str "user")]⟩ :: tracesOf demoDone) (tracesOf demoDone) := rfl
  obtain ⟨-, d, -, -, hview⟩ := @trajectory_tells_run Db (dbExec demoEnv [] 0) AgentKernel.demoKernel
    AgentKernel.demoTask ⟨"mock", none, true⟩ (by decide) dbExec_answering ⟨[], fun _ => none, []⟩
  exact ⟨d, fun u => hview u _ hsame⟩

end Observability

end AgentHarness
