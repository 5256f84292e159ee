import AgentHarness.Engines
import AgentHarness.Lib.Text

/-!
# TaskTrajectory — what `get_task_trajectory` shows of a task

The endpoint goes through the trace events of a task once, and collects roles, tools, modes and flags for a
summary, and one step per event.  The names of the tools are read out of values of any type, and a value that is
not iterable ends the request; the rest of the summary is a plain fold (`ViewState`), which `getTaskTrajectory_shown`
reads off the answer.
-/

namespace AgentHarness

open Lib

structure TrajectoryStep where
  role : String
  eventType : String
  status : String
  action : String
  reason : String
  selectedMode : String
  executedMode : String
  toolNames : List String
  approved : Option Bool
  detail : Dict

structure TrajectorySummary where
  taskId : String
  isMultiAgent : Bool
  roles : List String
  selectedMode : String
  executedMode : String
  status : String
  fallbackUsed : Bool
  approvalRequired : Bool
  toolNames : List String
  eventCount : Nat

structure TrajectoryResponse where
  taskId : String
  summary : TrajectorySummary
  steps : List TrajectoryStep

namespace Observability

/-- `text.startswith(head)`. -/
def startsWith (text head : String) : Bool := head.toList.isPrefixOf text.toList

/-- `text.endswith(tail)`. -/
def endsWith (text tail : String) : Bool := tail.toList.isSuffixOf text.toList

/-- `value is b`. -/
def isBool (b : Bool) : PyVal → Bool
  | .bool b' => b' == b
  | _ => false

def trajectoryRole (eventType : String) : String :=
  if startsWith eventType "coordinator_" then "coordinator"
  else if startsWith eventType "analyst_" then "analyst"
  else if startsWith eventType "executor_" then "executor"
  else if startsWith eventType "reviewer_" then "reviewer"
  else if startsWith eventType "multi_agent_" then "orchestrator"
  else if startsWith eventType "approval_" || startsWith eventType "multitool_approval" then "approval"
  else if startsWith eventType "multitool_" then "multitool"
  else if startsWith eventType "nl2sql_" then "nl2sql"
  else "runtime"

def trajectoryAction (eventType : String) : String :=
  if eventType = "multi_agent_started" then "start"
  else if eventType = "coordinator_decided" then "route_intent"
  else if eventType = "analyst_planned" then "analyze_plan"
  else if eventType = "executor_completed" then "execute"
  else if eventType = "reviewer_completed" then "review"
  else if eventType = "multi_agent_completed" then "complete"
  else if eventType = "multi_agent_failed" then "fail"
  else if occursIn "approval" eventType then "approval"
  else eventType

def trajectoryStatus (eventType : String) (detail : Dict) : String :=
  if endsWith eventType "_failed" || isBool false (Dict.get detail "success") then "failed"
  else if isBool false (Dict.get detail "approved") then "rejected"
  else if occursIn "approval" eventType || (Dict.get detail "requires_approval").truthy then "waiting_approval"
  else if endsWith eventType "_started" then "running"
  else if endsWith eventType "_completed" || isBool true (Dict.get detail "success") ||
      isBool true (Dict.get detail "approved") then "completed"
  else "recorded"

/-- The roles of a multi-agent run. -/
def agentRoles : List String := ["coordinator", "analyst", "executor", "reviewer", "orchestrator"]

/-- The dicts of `detail.get("tool_calls") or []`; the items of a text or of a dict are texts. -/
def toolCallItems (detail : Dict) : Except PyExc (List Dict) :=
  match (Dict.get detail "tool_calls").or (.list []) with
  | .list l => .ok (l.filterMap fun
      | .dict d => some d
      | _ => none)
  | .dict _ | .str _ => .ok []
  | _ => .error (.typeError "object is not iterable")

section

variable (u : Unicode) (env : Env)

/-- `str(value or "")`. -/
def strOr (value : PyVal) : String := env.format (value.or (.str ""))

/-- `_append_unique`. -/
def appendUnique (values : List String) (value : PyVal) : List String :=
  let text := String.ofList (u.strip (strOr env value).toList)
  if text ≠ "" ∧ text ∉ values then values ++ [text] else values

/-- `_extract_tool_names`. -/
def extractToolNames (detail : Dict) : Except PyExc (List String) := do
  let items ← toolCallItems detail
  return items.foldl
    (fun names item => appendUnique u env names ((Dict.get item "tool_name").or (Dict.get item "tool_called")))
    (appendUnique u env [] (Dict.get detail "tool_called"))

/-- The variables of the loop. -/
structure LoopState where
  roles : List String
  allToolNames : List String
  selectedMode : String
  executedMode : String
  fallbackUsed : Bool
  approvalRequired : Bool
  status : String
  steps : List TrajectoryStep

def LoopState.init : LoopState := ⟨[], [], "", "", false, false, "unknown", []⟩

/-- The step of an event. -/
def stepOf (e : TraceEvent) (toolNames : List String) : TrajectoryStep where
  role := trajectoryRole e.eventType
  eventType := e.eventType
  status := trajectoryStatus e.eventType e.detail
  action := trajectoryAction e.eventType
  reason := strOr env ((Dict.get e.detail "reason").or (Dict.get e.detail "plan_summary"))
  selectedMode := strOr env (Dict.get e.detail "selected_mode")
  executedMode := strOr env (Dict.get e.detail "executed_mode")
  toolNames := toolNames
  approved := match Dict.get e.detail "approved" with
    | .bool b => some b
    | _ => none
  detail := e.detail

/-- A mode of the summary: the last that an event names. -/
def modeAfter (key old : String) (detail : Dict) : String :=
  if (Dict.get detail key).truthy then env.format (Dict.get detail key) else old

def isFallback (e : TraceEvent) : Bool :=
  (Dict.get e.detail "fallback").truthy || occursIn "fallback" e.eventType

def asksApproval (e : TraceEvent) : Bool :=
  (Dict.get e.detail "requires_approval").truthy || occursIn "approval" e.eventType

def statusAfter (old : String) (e : TraceEvent) : String :=
  if e.eventType = "multi_agent_completed" then "completed"
  else if e.eventType = "multi_agent_failed" then "failed"
  else old

/-- The body of the loop. -/
def LoopState.after (st : LoopState) (e : TraceEvent) : Except PyExc LoopState := do
  let toolNames ← extractToolNames u env e.detail
  return {
    roles := appendUnique u env st.roles (.str (trajectoryRole e.eventType))
    allToolNames := toolNames.foldl (fun names name => appendUnique u env names (.str name)) st.allToolNames
    selectedMode := modeAfter env "selected_mode" st.selectedMode e.detail
    executedMode := modeAfter env "executed_mode" st.executedMode e.detail
    fallbackUsed := st.fallbackUsed || isFallback e
    approvalRequired := st.approvalRequired || asksApproval e
    status := statusAfter st.status e
    steps := st.steps ++ [stepOf env e toolNames] }

/-- `recorder.get_events(task_id=task_id)`. -/
def eventsOf (taskId : String) (recorder : List TraceEvent) : List TraceEvent :=
  recorder.filter (·.taskId = taskId)

/-- What is behind the loop. -/
def responseOf (taskId : String) (events : List TraceEvent) (st : LoopState) : TrajectoryResponse where
  taskId := taskId
  summary := {
    taskId := taskId
    isMultiAgent := st.steps.any (·.role ∈ agentRoles)
    roles := st.roles
    selectedMode := st.selectedMode
    executedMode := st.executedMode
    status := st.status
    fallbackUsed := st.fallbackUsed
    approvalRequired := st.approvalRequired
    toolNames := st.allToolNames
    eventCount := events.length }
  steps := st.steps

def getTaskTrajectory (taskId : String) (recorder : List TraceEvent) : Except PyExc TrajectoryResponse := do
  let events := eventsOf taskId recorder
  let st ← events.foldlM (LoopState.after u env) .init
  return responseOf taskId events st

/-! ## The plain part of the fold -/

/-- What the summary holds but for its lists, and whether the tools of every event could be read. -/
structure ViewState where
  multiAgent : Bool
  selectedMode : String
  executedMode : String
  fallbackUsed : Bool
  approvalRequired : Bool
  status : String
  readable : Bool

def ViewState.init : ViewState := ⟨false, "", "", false, false, "unknown", true⟩

def ViewState.see (s : ViewState) (e : TraceEvent) : ViewState where
  multiAgent := s.multiAgent || decide (trajectoryRole e.eventType ∈ agentRoles)
  selectedMode := modeAfter env "selected_mode" s.selectedMode e.detail
  executedMode := modeAfter env "executed_mode" s.executedMode e.detail
  fallbackUsed := s.fallbackUsed || isFallback e
  approvalRequired := s.approvalRequired || asksApproval e
  status := statusAfter s.status e
  readable := s.readable && (toolCallItems e.detail).isOk

def viewOf (events : List TraceEvent) : ViewState := events.foldl (ViewState.see env) .init

/-- The variables of the loop hold what is shown. -/
def LoopState.shown (st : LoopState) : ViewState :=
  ⟨st.steps.any (·.role ∈ agentRoles), st.selectedMode, st.executedMode, st.fallbackUsed, st.approvalRequired, st.status, true⟩

variable {u env}

theorem after_shown {st : LoopState} {e : TraceEvent} (h : (toolCallItems e.detail).isOk = true) :
    ∃ st', st.after u env e = .ok st' ∧ st'.shown = st.shown.see env e := by
  unfold LoopState.after extractToolNames
  cases hitems : toolCallItems e.detail with
  | error exc =>
    rw [hitems] at h
    cases h
  | ok items =>
    refine ⟨_, rfl, ?_⟩
    unfold LoopState.shown ViewState.see
    rw [hitems, List.any_append]
    simp [stepOf, Except.isOk, Except.toBool]

theorem readable_foldl {s : ViewState} {events : List TraceEvent} (h : (events.foldl (ViewState.see env) s).readable = true) :
    s.readable = true := by
  induction events generalizing s with
  | nil => exact h
  | cons e events ih =>
    have hafter : (s.readable && (toolCallItems e.detail).isOk) = true := ih h
    exact (Bool.and_eq_true _ _ |>.mp hafter).1

theorem foldlM_shown {st : LoopState} {events : List TraceEvent}
    (h : (events.foldl (ViewState.see env) st.shown).readable = true) :
    ∃ st', events.foldlM (LoopState.after u env) st = .ok st' ∧ st'.shown = events.foldl (ViewState.see env) st.shown := by
  induction events generalizing st with
  | nil => exact ⟨st, rfl, rfl⟩
  | cons e events ih =>
    have hafter : (st.shown.readable && (toolCallItems e.detail).isOk) = true :=
      @readable_foldl env (st.shown.see env e) events h
    obtain ⟨-, hitems⟩ := Bool.and_eq_true _ _ |>.mp hafter
    obtain ⟨st₁, hst₁, hshown⟩ := @after_shown u env st e hitems
    rw [List.foldl_cons, ← hshown] at h
    obtain ⟨st', hst', hshown'⟩ := ih h
    refine ⟨st', ?_, by rw [hshown', hshown, List.foldl_cons]⟩
    rw [List.foldlM_cons, hst₁]
    exact hst'

/-- **The summary, read off the fold.** -/
theorem getTaskTrajectory_shown {taskId : String} {recorder : List TraceEvent}
    (h : (viewOf env (eventsOf taskId recorder)).readable = true) :
    ∃ view, getTaskTrajectory u env taskId recorder = .ok view ∧
      (⟨view.summary.isMultiAgent, view.summary.selectedMode, view.summary.executedMode, view.summary.fallbackUsed,
        view.summary.approvalRequired, view.summary.status, true⟩ : ViewState) =
        viewOf env (eventsOf taskId recorder) := by
  obtain ⟨st, hst, hshown⟩ := @foldlM_shown u env .init (eventsOf taskId recorder) h
  have hview : getTaskTrajectory u env taskId recorder = .ok (responseOf taskId (eventsOf taskId recorder) st) := by
    unfold getTaskTrajectory
    dsimp only
    rw [hst]
    rfl
  exact ⟨_, hview, hshown⟩

end

end Observability

end AgentHarness
