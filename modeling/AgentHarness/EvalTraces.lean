import AgentHarness.Orchestrator
import AgentHarness.Trajectory

/-!
# EvalTraces — the traces that an evaluation leaves

`MultiAgentEvalRunner.run` answers each case with the orchestrator, on the recorder that the live requests use,
and clears the recorder before each case.  The failures name the traces of their cases.

The events of a failed case are kept in `traced` as they were recorded, so that what is left of them can be said.
-/

namespace AgentHarness

open Lib

namespace MultiAgentEval

/-! ## The recorder -/

/-- An event; its actor and its timestamp are left out. -/
structure AuditEvent where
  eventId : Nat
  eventType : String
  taskId : Option String
  detail : Dict

/-- The recorder.  `uuid4` gives no id twice: `issued` is the first that is new. -/
structure TraceRecorder where
  events : List AuditEvent
  issued : Nat
  known : ∀ e ∈ events, e.eventId < issued

namespace TraceRecorder

def record (r : TraceRecorder) (eventType : String) (taskId : Option String) (detail : Dict) : TraceRecorder where
  events := r.events ++ [⟨r.issued, eventType, taskId, detail⟩]
  issued := r.issued + 1
  known := by
    intro e he
    rcases List.mem_append.mp he with hold | hnew
    · exact Nat.lt_succ_of_lt (r.known e hold)
    · rw [List.mem_singleton.mp hnew]
      exact Nat.lt_succ_self _

/-- `get_events` -/
def getEvents (r : TraceRecorder) (taskId eventType : Option String) : List AuditEvent :=
  let events := match taskId with
    | none => r.events
    | some t => r.events.filter fun e => e.taskId = some t
  match eventType with
  | none => events
  | some t => events.filter fun e => e.eventType = t

def clear (r : TraceRecorder) : TraceRecorder where
  events := []
  issued := r.issued
  known := fun _ he => absurd he List.not_mem_nil

/-- The events of a task, one after the other. -/
def recordAll (r : TraceRecorder) (taskId : String) (entries : List (String × Dict)) : TraceRecorder :=
  entries.foldl (fun r entry => r.record entry.1 (some taskId) entry.2) r

end TraceRecorder

/-! ## The runner -/

structure MultiAgentEvalCase (T : Type) where
  caseId : String
  query : String
  expectedExecutedMode : Option String
  expectedSuccess : Bool
  trajectoryExpectation : Option T

structure EvalFailure where
  caseId : String
  query : String
  expectedExecutedMode : Option String
  actualExecutedMode : String
  expectedSuccess : Bool
  actualSuccess : Bool
  reason : String
  failureStage : Option String
  traceTaskId : Option String
  trajectoryIssues : List String

structure BadCase where
  suite : String
  caseId : String
  query : String
  expected : String
  actual : String
  reason : String
  traceTaskId : Option String

/-- The counts; the ratios made of them are left out. -/
structure MultiAgentEvalResult where
  total : Nat
  passed : Nat
  failures : List EvalFailure
  modeConfusionCount : Nat
  badCases : List BadCase
  trajectoryPassed : Nat
  trajectoryFailed : Nat

/-- The runner with its orchestrator. -/
structure MultiAgentEvalRunner (T : Type) where
  env : Env
  coordinator : CoordinatorAgent
  riskIntentGuard : String → RiskIntentFinding
  /-- What the executor records for the task and returns, by the position of the case, the executions of the case so
  far, and the mode. -/
  executor : Nat → Nat → String → List (String × Dict) × Except PyExc (Dict × AgentDecision)
  /-- `TrajectoryEvaluator.evaluate` -/
  evaluate : List TrajectoryEvent → T → Except PyExc TrajectoryEvalResult
  /-- `self._trace_recorder is not None`: it is the recorder of the orchestrator. -/
  hasTraceRecorder : Bool

variable {T : Type}

def traceTaskId (case : MultiAgentEvalCase T) : String := "eval_" ++ case.caseId

namespace MultiAgentEvalRunner

variable (m : MultiAgentEvalRunner T)

/-- The orchestrator records its own events, and the executor the ones it has. -/
def answer (position : Nat) : (op : OrchestratorOp) → List (String × Dict) × Nat →
    Except PyExc op.Answer × List (String × Dict) × Nat
  | .execute mode, (entries, executions) =>
    let (recorded, result) := m.executor position executions mode
    (result, entries ++ recorded, executions + 1)
  | .trace eventType detail, (entries, executions) => (.ok (), entries ++ [(eventType, detail)], executions)

/-- `self._orchestrator.run`: what it records for the task, and its result. -/
def orchestrate (position : Nat) (case : MultiAgentEvalCase T) :
    List (String × Dict) × Except PyExc MultiAgentRunResult :=
  let out := (MultiAgentOrchestrator.runAsking m.env m.coordinator m.riskIntentGuard case.query).run
    (m.answer position) ([], 0)
  (out.2.1, out.1)

/-- What the evaluator is given. -/
def traceEventsOf (entries : List (String × Dict)) : List TrajectoryEvent := entries.map fun entry => ⟨entry.1, entry.2⟩

/-- What the trajectory of a case is found to be: that it passes, and its issues. -/
def trajectory (case : MultiAgentEvalCase T) (traceEvents : List TrajectoryEvent) :
    Except PyExc (Option (Bool × List String)) :=
  match case.trajectoryExpectation with
  | none => .ok none
  | some expectation =>
    if m.hasTraceRecorder then
      (m.evaluate traceEvents expectation).map fun result =>
        some (result.passed, if result.passed then [] else result.issues)
    else .ok (some (false, ["trace_recorder missing"]))

def modeOk (case : MultiAgentEvalCase T) (result : MultiAgentRunResult) : Bool :=
  match case.expectedExecutedMode with
  | none => true
  | some mode => result.executedMode = mode

def successOk (case : MultiAgentEvalCase T) (result : MultiAgentRunResult) : Bool :=
  result.success = case.expectedSuccess

/-- `trajectory_issues` -/
def trajectoryIssues (trajectory : Option (Bool × List String)) : List String := (trajectory.map Prod.snd).getD []

/-- `mode_ok and success_ok and not trajectory_issues` -/
def passes (case : MultiAgentEvalCase T) (result : MultiAgentRunResult)
    (trajectory : Option (Bool × List String)) : Bool :=
  modeOk case result && successOk case result && (trajectoryIssues trajectory).isEmpty

def pyBool (b : Bool) : String := if b then "True" else "False"

/-- `reason` and `failure_stage`. -/
def failureOf (case : MultiAgentEvalCase T) (result : MultiAgentRunResult)
    (trajectory : Option (Bool × List String)) : EvalFailure :=
  let issues := trajectoryIssues trajectory
  let reasonParts :=
    (if modeOk case result then []
      else ["mode 期望 " ++ case.expectedExecutedMode.getD "None" ++ " 实际 " ++ result.executedMode]) ++
    (if successOk case result then []
      else ["success 期望 " ++ pyBool case.expectedSuccess ++ " 实际 " ++ pyBool result.success]) ++
    (if issues.isEmpty then [] else ["trajectory: " ++ "; ".intercalate issues])
  let stage := if issues.isEmpty then none else some "trajectory"
  let stage := if modeOk case result then stage else stage.or (some "mode")
  let stage := if successOk case result then stage else stage.or (some "outcome")
  ⟨case.caseId, case.query, case.expectedExecutedMode, result.executedMode, case.expectedSuccess, result.success,
    "; ".intercalate reasonParts, stage, some (traceTaskId case), issues⟩

/-- `_format_expected` -/
def formatExpected (case : MultiAgentEvalCase T) : String :=
  ", ".intercalate ((case.expectedExecutedMode.map fun mode => "mode=" ++ mode).toList ++
    ["success=" ++ pyBool case.expectedSuccess])

def badCaseOf (case : MultiAgentEvalCase T) (failure : EvalFailure) : BadCase :=
  ⟨"multi_agent", case.caseId, case.query, formatExpected case,
    "mode=" ++ failure.actualExecutedMode ++ ", success=" ++ pyBool failure.actualSuccess, failure.reason,
    failure.traceTaskId⟩

end MultiAgentEvalRunner

/-- The variables of the loop, and the failures with the events that were recorded for their cases. -/
structure RunState where
  recorder : TraceRecorder
  result : MultiAgentEvalResult
  traced : List (EvalFailure × List AuditEvent)

namespace MultiAgentEvalRunner

variable (m : MultiAgentEvalRunner T)

/-- The end of the loop's body, once the orchestrator has answered and the trajectory is evaluated. -/
def judge (case : MultiAgentEvalCase T) (result : MultiAgentRunResult) (trajectory : Option (Bool × List String))
    (st : RunState) : RunState :=
  let trajectoryPassed := trajectory.map Prod.fst
  let tally := { st.result with
    modeConfusionCount := st.result.modeConfusionCount + if modeOk case result then 0 else 1
    trajectoryPassed := st.result.trajectoryPassed + if trajectoryPassed = some true then 1 else 0
    trajectoryFailed := st.result.trajectoryFailed + if trajectoryPassed = some false then 1 else 0 }
  if passes case result trajectory then { st with result := { tally with passed := tally.passed + 1 } }
  else
    let failure := failureOf case result trajectory
    { st with
      result := { tally with
        failures := tally.failures ++ [failure]
        badCases := tally.badCases ++ [badCaseOf case failure] }
      traced := st.traced ++ [(failure, st.recorder.getEvents (some (traceTaskId case)) none)] }

/-- What an orchestrator does with a case, by its position: what it records for the task, and its result. -/
abbrev Answers (T : Type) : Type := Nat → MultiAgentEvalCase T → List (String × Dict) × Except PyExc MultiAgentRunResult

/-- `self._trace_recorder.clear()`, and what the orchestrator records. -/
def recordCase (o : Answers T) (position : Nat) (case : MultiAgentEvalCase T) (r : TraceRecorder) : TraceRecorder :=
  (if m.hasTraceRecorder then r.clear else r).recordAll (traceTaskId case) (o position case).1

/-- The trace of the case, as the evaluator sees it. -/
def traceEvents (case : MultiAgentEvalCase T) (r : TraceRecorder) : List TrajectoryEvent :=
  (r.getEvents (some (traceTaskId case)) none).map fun e => ⟨e.eventType, e.detail⟩

/-- The loop over the cases; an exception of the orchestrator, or of the evaluator, ends it. -/
def loop (o : Answers T) : Nat → List (MultiAgentEvalCase T) → RunState → RunState × Option PyExc
  | _, [], st => (st, none)
  | position, case :: cases, st =>
    let st := { st with recorder := m.recordCase o position case st.recorder }
    match (o position case).2 with
    | .error e => (st, some e)
    | .ok result =>
      match m.trajectory case (traceEvents case st.recorder) with
      | .error e => (st, some e)
      | .ok trajectory => loop o (position + 1) cases (judge case result trajectory st)

/-- `run`, on the cases of the file. -/
def runWith (o : Answers T) (cases : List (MultiAgentEvalCase T)) (recorder : TraceRecorder) :
    RunState × Option PyExc :=
  m.loop o 0 cases ⟨recorder, ⟨cases.length, 0, [], 0, [], 0, 0⟩, []⟩

/-- `run`, with the orchestrator of the live requests. -/
def run (cases : List (MultiAgentEvalCase T)) (recorder : TraceRecorder) : RunState × Option PyExc :=
  m.runWith m.orchestrate cases recorder

end MultiAgentEvalRunner

/-! ## What the claim is about -/

/-- The traces of all the tasks that are no case stand as they were. -/
def LeavesTraces (cases : List (MultiAgentEvalCase T)) (before after : TraceRecorder) : Prop :=
  ∀ t, (∀ case ∈ cases, t ≠ traceTaskId case) → after.getEvents (some t) none = before.getEvents (some t) none

/-- The events of the failed cases are found under their trace ids. -/
def Retrievable (st : RunState) : Prop :=
  ∀ p ∈ st.traced, ∀ e ∈ p.2, e ∈ st.recorder.getEvents p.1.traceTaskId none

namespace MultiAgentEvalRunner

variable (m : MultiAgentEvalRunner T) (o : Answers T) (position : Nat) (case : MultiAgentEvalCase T)

/-- What comes of the case: the result, and what its trajectory is found to be. -/
def outcome : Except PyExc (MultiAgentRunResult × Option (Bool × List String)) :=
  match (o position case).2 with
  | .error e => .error e
  | .ok result => (m.trajectory case (traceEventsOf (o position case).1)).map fun trajectory => (result, trajectory)

/-- The orchestrator raises on the case, or the evaluator on its trace. -/
def Raises : Prop := ∃ e, m.outcome o position case = .error e

/-- The orchestrator answers the case otherwise than it expects. -/
def Fails : Prop := ∃ result trajectory, m.outcome o position case = .ok (result, trajectory) ∧
  passes case result trajectory = false

end MultiAgentEvalRunner

/-! ## The recorder -/

namespace TraceRecorder

variable {r : TraceRecorder} {t taskId : String} {entries : List (String × Dict)} {e : AuditEvent}

theorem mem_getEvents : e ∈ r.getEvents (some t) none ↔ e ∈ r.events ∧ e.taskId = some t := by
  unfold getEvents
  simp

theorem recordAll_events : ∃ recorded, (r.recordAll taskId entries).events = r.events ++ recorded ∧
    recorded.map (fun e => (e.eventType, e.detail)) = entries ∧
    ∀ e ∈ recorded, e.taskId = some taskId ∧ r.issued ≤ e.eventId := by
  unfold recordAll
  induction entries generalizing r with
  | nil => exact ⟨[], (List.append_nil _).symm, rfl, by simp⟩
  | cons entry entries ih =>
    obtain ⟨recorded, hevents, hentries, hnew⟩ := @ih (r.record entry.1 (some taskId) entry.2)
    refine ⟨⟨r.issued, entry.1, some taskId, entry.2⟩ :: recorded, ?_, ?_, ?_⟩
    · rw [List.foldl_cons, hevents]
      unfold record
      rw [List.append_assoc]
      rfl
    · rw [List.map_cons, hentries]
    · refine List.forall_mem_cons.mpr ⟨⟨rfl, le_refl _⟩, fun e he => ⟨(hnew e he).1, ?_⟩⟩
      exact Nat.le_of_succ_le (hnew e he).2

theorem issued_le_recordAll : r.issued ≤ (r.recordAll taskId entries).issued := by
  unfold recordAll
  induction entries generalizing r with
  | nil => exact le_refl _
  | cons entry entries ih => exact Nat.le_of_succ_le (@ih (r.record entry.1 (some taskId) entry.2))

theorem getEvents_recordAll_of_ne (h : t ≠ taskId) :
    (r.recordAll taskId entries).getEvents (some t) none = r.getEvents (some t) none := by
  obtain ⟨recorded, hevents, -, hnew⟩ := @recordAll_events r taskId entries
  unfold getEvents
  dsimp only
  rw [hevents, List.filter_append]
  have hnone : recorded.filter (fun e => e.taskId = some t) = [] := by
    refine List.filter_eq_nil_iff.mpr fun e he => ?_
    rw [(hnew e he).1]
    simpa using h.symm
  rw [hnone, List.append_nil]

/-- After a clear there is only what is recorded for the task. -/
theorem getEvents_clear_recordAll :
    (r.clear.recordAll taskId entries).getEvents (some taskId) none = (r.clear.recordAll taskId entries).events ∧
      ((r.clear.recordAll taskId entries).events.map fun e => (e.eventType, e.detail)) = entries := by
  obtain ⟨recorded, hevents, hentries, hnew⟩ := @recordAll_events r.clear taskId entries
  have hall : (r.clear.recordAll taskId entries).events = recorded := hevents
  refine ⟨?_, by rw [hall, hentries]⟩
  unfold getEvents
  dsimp only
  rw [hall]
  exact List.filter_eq_self.mpr fun e he => decide_eq_true (hnew e he).1

end TraceRecorder

namespace MultiAgentEvalRunner

variable {m : MultiAgentEvalRunner T} {position : Nat} {case : MultiAgentEvalCase T}
  {cases : List (MultiAgentEvalCase T)} {st : RunState} {r : TraceRecorder} {result : MultiAgentRunResult}
  {o : Answers T} {trajectory : Option (Bool × List String)}

/-- The orchestrator records that it has started, before all else. -/
theorem orchestrate_ne_nil : (m.orchestrate position case).1 ≠ [] := by
  have hkeep : (Machine.exact (m.answer position)).Keeps (fun _ => True) fun w => w.1 ≠ [] := by
    refine fun op _ w hw => ⟨trivial, ?_⟩
    rintro result w' ⟨-, rfl⟩
    cases op with
    | execute mode => simp [answer, hw]
    | trace eventType detail => simp [answer]
  unfold orchestrate MultiAgentOrchestrator.runAsking MultiAgentOrchestrator.runOver
  dsimp only
  rw [Prog.run_bind]
  exact wp_exact.mp (wp_of_keeps hkeep (Prog.uses_true _) (List.cons_ne_nil _ _))

/-! ## The loop on the recorder of the live requests -/

theorem mem_recordCase (hm : m.hasTraceRecorder = true) {e : AuditEvent}
    (he : e ∈ (m.recordCase o position case r).events) :
    r.issued ≤ e.eventId ∧ e.taskId = some (traceTaskId case) := by
  unfold recordCase at he
  rw [if_pos hm] at he
  obtain ⟨recorded, hevents, -, hnew⟩ :=
    @TraceRecorder.recordAll_events r.clear (traceTaskId case) (o position case).1
  rw [hevents] at he
  have hrecorded : e ∈ recorded := he
  exact (hnew e hrecorded).symm

theorem issued_le_recordCase : r.issued ≤ (m.recordCase o position case r).issued := by
  unfold recordCase
  split
  · exact TraceRecorder.issued_le_recordAll (r := r.clear)
  · exact TraceRecorder.issued_le_recordAll

/-- The evaluator sees what was recorded for the case, if it sees anything. -/
theorem trajectory_recorded : m.trajectory case (traceEvents case (m.recordCase o position case r)) =
    m.trajectory case (traceEventsOf (o position case).1) := by
  by_cases hm : m.hasTraceRecorder = true
  · obtain ⟨hall, hentries⟩ := @TraceRecorder.getEvents_clear_recordAll r (traceTaskId case) (o position case).1
    have hevents : traceEvents case (m.recordCase o position case r) = traceEventsOf (o position case).1 := by
      unfold traceEvents recordCase traceEventsOf
      rw [if_pos hm, hall]
      conv_rhs => rw [← hentries]
      rw [List.map_map]
      rfl
    rw [hevents]
  · unfold trajectory
    cases case.trajectoryExpectation with
    | none => rfl
    | some expectation =>
      dsimp only
      rw [if_neg hm, if_neg hm]

theorem loop_cons : m.loop o position (case :: cases) st =
    match m.outcome o position case with
    | .error e => ({ st with recorder := m.recordCase o position case st.recorder }, some e)
    | .ok (result, trajectory) => m.loop o (position + 1) cases
        (judge case result trajectory { st with recorder := m.recordCase o position case st.recorder }) := by
  unfold outcome
  rw [loop]
  dsimp only
  cases (o position case).2 with
  | error e => rfl
  | ok result =>
    dsimp only
    rw [trajectory_recorded]
    cases m.trajectory case (traceEventsOf (o position case).1) <;> rfl

theorem judge_recorder : (judge case result trajectory st).recorder = st.recorder := by
  unfold judge
  dsimp only
  split <;> rfl

/-- A failed case keeps the events that it has recorded. -/
theorem judge_traced (hm : m.hasTraceRecorder = true) (hst : st.recorder = m.recordCase o position case r) :
    ∃ failure, failure.traceTaskId = some (traceTaskId case) ∧
      (judge case result trajectory st).traced = st.traced ++
        if passes case result trajectory then [] else [(failure, st.recorder.events)] := by
  obtain ⟨hall, -⟩ := @TraceRecorder.getEvents_clear_recordAll r (traceTaskId case) (o position case).1
  have hrecorder : st.recorder = r.clear.recordAll (traceTaskId case) (o position case).1 := by
    rw [hst]
    unfold recordCase
    rw [if_pos hm]
  refine ⟨failureOf case result trajectory, rfl, ?_⟩
  unfold judge
  dsimp only
  rw [hrecorder, hall]
  split
  · exact (List.append_nil _).symm
  · rfl

/-- After a run there are only new events, of the cases. -/
theorem loop_events (hm : m.hasTraceRecorder = true) {e : AuditEvent}
    (he : e ∈ (m.loop o position cases st).1.recorder.events) :
    (cases = [] ∧ e ∈ st.recorder.events) ∨
      (st.recorder.issued ≤ e.eventId ∧ ∃ case ∈ cases, e.taskId = some (traceTaskId case)) := by
  induction cases generalizing position st with
  | nil => exact .inl ⟨rfl, he⟩
  | cons case cases ih =>
    rw [loop_cons] at he
    have hcase : ∀ e ∈ (m.recordCase o position case st.recorder).events, st.recorder.issued ≤ e.eventId ∧
        ∃ c ∈ case :: cases, e.taskId = some (traceTaskId c) := fun e he =>
      ⟨(mem_recordCase hm he).1, case, List.mem_cons_self, (mem_recordCase hm he).2⟩
    split at he
    · exact .inr (hcase e he)
    · rcases ih he with ⟨-, hlast⟩ | ⟨hissued, c, hc, hid⟩
      · rw [judge_recorder] at hlast
        exact .inr (hcase e hlast)
      · rw [judge_recorder] at hissued
        exact .inr ⟨issued_le_recordCase.trans hissued, c, List.mem_cons_of_mem _ hc, hid⟩

/-- What holds at every position holds at the first one and at the others. -/
theorem forall_cons_getElem? {P : Nat → MultiAgentEvalCase T → Prop} :
    (∀ k c, (case :: cases)[k]? = some c → P k c) ↔ P 0 case ∧ ∀ k c, cases[k]? = some c → P (k + 1) c := by
  refine ⟨fun h => ⟨h 0 case rfl, fun k c hk => h (k + 1) c hk⟩, fun ⟨hfirst, hrest⟩ k c hk => ?_⟩
  cases k with
  | zero => exact Option.some.inj hk ▸ hfirst
  | succ k => exact hrest k c hk

theorem loop_raises : (m.loop o position cases st).2 = none ↔
    ∀ k c, cases[k]? = some c → ¬ m.Raises o (position + k) c := by
  induction cases generalizing position st with
  | nil => exact iff_of_true rfl fun k c hk => by cases hk
  | cons case cases ih =>
    rw [loop_cons, forall_cons_getElem?]
    cases hanswer : m.outcome o position case with
    | error e => exact iff_of_false (by simp) fun h => h.1 ⟨e, hanswer⟩
    | ok answer =>
      have hnot : ¬ m.Raises o (position + 0) case := by
        rintro ⟨e, he⟩
        cases hanswer.symm.trans he
      refine ih.trans ⟨fun h => ⟨hnot, fun k c hk => ?_⟩, fun h k c hk => ?_⟩
      · rw [Nat.add_comm k, ← Nat.add_assoc]
        exact h k c hk
      · rw [Nat.add_assoc, Nat.add_comm 1]
        exact h.2 k c hk

/-- The failures so far have events, which are no longer new. -/
def Traced (st : RunState) : Prop :=
  ∀ p ∈ st.traced, p.2 ≠ [] ∧ ∀ e ∈ p.2, e.eventId < st.recorder.issued

theorem Traced.judge (hm : m.hasTraceRecorder = true) (ho : ∀ position case, (o position case).1 ≠ [])
    (h : Traced st) :
    Traced (judge case result trajectory { st with recorder := m.recordCase o position case st.recorder }) := by
  obtain ⟨failure, -, htraced⟩ := @judge_traced T m position case
    { st with recorder := m.recordCase o position case st.recorder } st.recorder result o trajectory hm rfl
  unfold Traced
  rw [htraced, judge_recorder]
  intro p hp
  rcases List.mem_append.mp hp with hold | hnew
  · exact ⟨(h p hold).1, fun e he => lt_of_lt_of_le ((h p hold).2 e he) issued_le_recordCase⟩
  · split at hnew
    · exact absurd hnew List.not_mem_nil
    · rw [List.mem_singleton.mp hnew]
      refine ⟨fun hnil => ?_, TraceRecorder.known _⟩
      obtain ⟨hall, hentries⟩ :=
        @TraceRecorder.getEvents_clear_recordAll st.recorder (traceTaskId case) (o position case).1
      dsimp only at hnil
      unfold recordCase at hnil
      rw [if_pos hm] at hnil
      rw [hnil] at hentries
      exact ho position case hentries.symm

theorem retrievable_last (hm : m.hasTraceRecorder = true) (htraced : Traced st) :
    Retrievable (judge case result trajectory { st with recorder := m.recordCase o position case st.recorder }) ↔
      st.traced = [] := by
  obtain ⟨failure, hid, hjudge⟩ := @judge_traced T m position case
    { st with recorder := m.recordCase o position case st.recorder } st.recorder result o trajectory hm rfl
  unfold Retrievable
  rw [hjudge, judge_recorder]
  constructor
  · intro h
    refine List.eq_nil_iff_forall_not_mem.mpr fun p hp => ?_
    obtain ⟨hne, hissued⟩ := htraced p hp
    obtain ⟨e, he⟩ := List.exists_mem_of_ne_nil _ hne
    have hfound := h p (List.mem_append_left _ hp) e he
    have hevent : e ∈ (m.recordCase o position case st.recorder).events := by
      unfold TraceRecorder.getEvents at hfound
      dsimp only at hfound
      split at hfound
      · exact hfound
      · exact (List.mem_filter.mp hfound).1
    have hnew := (mem_recordCase hm hevent).1
    have hold := hissued e he
    omega
  · intro hnil p hp e he
    rw [hnil, List.nil_append] at hp
    split at hp
    · exact absurd hp List.not_mem_nil
    · rw [List.mem_singleton.mp hp] at he ⊢
      rw [hid]
      exact TraceRecorder.mem_getEvents.mpr ⟨he, (mem_recordCase hm he).2⟩

/-- After a whole run the events of the failed cases are found exactly if no case but the last one fails. -/
theorem retrievable_loop (hm : m.hasTraceRecorder = true) (ho : ∀ position case, (o position case).1 ≠ [])
    (hne : cases ≠ []) (htraced : Traced st)
    (hok : ∀ k c, cases[k]? = some c → ¬ m.Raises o (position + k) c) :
    Retrievable (m.loop o position cases st).1 ↔ st.traced = [] ∧
      ∀ k c, cases[k]? = some c → k + 1 < cases.length → ¬ m.Fails o (position + k) c := by
  induction cases generalizing position st with
  | nil => exact absurd rfl hne
  | cons case cases ih =>
    obtain ⟨hfirst, hrest⟩ := forall_cons_getElem?.mp hok
    rw [loop_cons]
    cases hanswer : m.outcome o position case with
    | error e => exact absurd ⟨e, hanswer⟩ hfirst
    | ok answer =>
      obtain ⟨result, trajectory⟩ := answer
      dsimp only
      cases cases with
      | nil =>
        refine (retrievable_last hm htraced).trans (and_iff_left ?_).symm
        intro k c hk hlt
        simp at hlt
      | cons next cases =>
        have hrest' : ∀ k c, (next :: cases)[k]? = some c → ¬ m.Raises o (position + 1 + k) c := by
          intro k c hk
          rw [Nat.add_assoc, Nat.add_comm 1]
          exact hrest k c hk
        obtain ⟨failure, -, hjudge⟩ := @judge_traced T m position case
          { st with recorder := m.recordCase o position case st.recorder } st.recorder result o trajectory hm rfl
        have hfails : m.Fails o position case ↔ passes case result trajectory = false := by
          constructor
          · rintro ⟨result', trajectory', houtcome, hno⟩
            obtain ⟨rfl, rfl⟩ := Prod.mk.inj (Except.ok.inj (houtcome.symm.trans hanswer))
            exact hno
          · exact fun hno => ⟨result, trajectory, hanswer, hno⟩
        have hshift : (∀ k c, (next :: cases)[k]? = some c → k + 1 < (next :: cases).length →
            ¬ m.Fails o (position + 1 + k) c) ↔ ∀ k c, (next :: cases)[k]? = some c →
              k + 1 + 1 < (case :: next :: cases).length → ¬ m.Fails o (position + (k + 1)) c := by
          refine forall_congr' fun k => forall_congr' fun c => imp_congr_right fun _ => ?_
          rw [Nat.add_assoc, Nat.add_comm 1, List.length_cons (a := case), Nat.add_lt_add_iff_right]
        have hlt : 0 + 1 < (case :: next :: cases).length := by simp
        rw [ih (List.cons_ne_nil _ _) (htraced.judge hm ho) hrest', hjudge, hshift]
        refine Iff.trans ?_ (and_congr_right fun _ => (@forall_cons_getElem? T case (next :: cases)
          fun k c => k + 1 < (case :: next :: cases).length → ¬ m.Fails o (position + k) c).symm)
        rw [forall_prop_of_true hlt, Nat.add_zero, hfails]
        cases passes case result trajectory <;> simp

/-! ## The loop of a runner without a recorder -/

theorem recordCase_unshared (hm : m.hasTraceRecorder = false) : m.recordCase o position case r =
    r.recordAll (traceTaskId case) (o position case).1 := by
  unfold recordCase
  rw [if_neg (by simp [hm])]

theorem loop_unshared (hm : m.hasTraceRecorder = false) :
    LeavesTraces cases st.recorder (m.loop o position cases st).1.recorder ∧
      (Retrievable st → Retrievable (m.loop o position cases st).1) := by
  induction cases generalizing position st with
  | nil => exact ⟨fun t _ => rfl, id⟩
  | cons case cases ih =>
    have hleaves : ∀ t, (∀ c ∈ case :: cases, t ≠ traceTaskId c) →
        (m.recordCase o position case st.recorder).getEvents (some t) none = st.recorder.getEvents (some t) none := by
      intro t ht
      rw [recordCase_unshared hm]
      exact TraceRecorder.getEvents_recordAll_of_ne (ht case List.mem_cons_self)
    have hkeeps : ∀ t, ∀ e ∈ st.recorder.getEvents t none,
        e ∈ (m.recordCase o position case st.recorder).getEvents t none := by
      intro t e he
      obtain ⟨recorded, hevents, -⟩ :=
        @TraceRecorder.recordAll_events st.recorder (traceTaskId case) (o position case).1
      rw [recordCase_unshared hm]
      unfold TraceRecorder.getEvents at he ⊢
      dsimp only at he ⊢
      rw [hevents]
      split
      · exact List.mem_append_left _ he
      · rw [List.filter_append]
        exact List.mem_append_left _ he
    rw [loop_cons]
    cases hanswer : m.outcome o position case with
    | error e => exact ⟨fun t ht => hleaves t ht, fun h p hp e he => hkeeps _ e (h p hp e he)⟩
    | ok answer =>
      obtain ⟨result, trajectory⟩ := answer
      obtain ⟨hrest, hfound⟩ := @ih (position + 1)
        (judge case result trajectory { st with recorder := m.recordCase o position case st.recorder })
      refine ⟨fun t ht => ?_, fun h => hfound ?_⟩
      · rw [hrest t fun c hc => ht c (List.mem_cons_of_mem _ hc), judge_recorder]
        exact hleaves t ht
      · intro p hp e he
        rw [judge_recorder]
        unfold judge at hp
        dsimp only at hp
        split at hp
        · exact hkeeps _ e (h p hp e he)
        · rcases List.mem_append.mp hp with hold | hnew
          · exact hkeeps _ e (h p hold e he)
          · rw [List.mem_singleton.mp hnew] at he ⊢
            exact he

/-! ## Runs -/

/-- The failures of the loop are the ones of its result. -/
theorem loop_failures (h : st.traced.map Prod.fst = st.result.failures) :
    (m.loop o position cases st).1.traced.map Prod.fst = (m.loop o position cases st).1.result.failures := by
  induction cases generalizing position st with
  | nil => exact h
  | cons case cases ih =>
    rw [loop_cons]
    split
    · exact h
    · refine ih ?_
      unfold judge
      dsimp only
      split
      · exact h
      · rw [List.map_append, h]
        rfl

theorem run_failures {before : TraceRecorder} :
    (m.run cases before).1.traced.map Prod.fst = (m.run cases before).1.result.failures :=
  loop_failures rfl

/-- A run that does no harm: it clears nothing, or the recorder holds no other task, and no case fails whose trace
the next case clears. -/
def Harmless (m : MultiAgentEvalRunner T) (cases : List (MultiAgentEvalCase T)) (before : TraceRecorder) : Prop :=
  m.hasTraceRecorder = false ∨ cases = [] ∨
    ((∀ e ∈ before.events, ∀ t, e.taskId = some t → ∃ case ∈ cases, t = traceTaskId case) ∧
      ((∃ k case, cases[k]? = some case ∧ m.Raises m.orchestrate k case) ∨
        ∀ k case, cases[k]? = some case → k + 1 < cases.length → ¬ m.Fails m.orchestrate k case))

theorem leavesTraces_iff (hm : m.hasTraceRecorder = true) (hne : cases ≠ []) {before : TraceRecorder} :
    LeavesTraces cases before (m.run cases before).1.recorder ↔
      ∀ e ∈ before.events, ∀ t, e.taskId = some t → ∃ case ∈ cases, t = traceTaskId case := by
  have hcleared : ∀ t, (∀ case ∈ cases, t ≠ traceTaskId case) →
      (m.run cases before).1.recorder.getEvents (some t) none = [] := by
    refine fun t ht => List.eq_nil_iff_forall_not_mem.mpr fun e he => ?_
    obtain ⟨hmem, hid⟩ := TraceRecorder.mem_getEvents.mp he
    rcases loop_events hm hmem with ⟨hnil, -⟩ | ⟨-, case, hcase, hid'⟩
    · exact hne hnil
    · exact ht case hcase (Option.some.inj (hid.symm.trans hid'))
  constructor
  · intro h e he t hid
    by_contra hother
    have ht : ∀ case ∈ cases, t ≠ traceTaskId case := fun case hcase heq => hother ⟨case, hcase, heq⟩
    have hmem : e ∈ before.getEvents (some t) none := TraceRecorder.mem_getEvents.mpr ⟨he, hid⟩
    rw [← h t ht, hcleared t ht] at hmem
    exact List.not_mem_nil hmem
  · intro h t ht
    rw [hcleared t ht]
    refine (List.eq_nil_iff_forall_not_mem.mpr fun e he => ?_).symm
    obtain ⟨hmem, hid⟩ := TraceRecorder.mem_getEvents.mp he
    obtain ⟨case, hcase, heq⟩ := h e hmem t hid
    exact ht case hcase heq

/-- **Live traces.**  A run leaves the traces of all other tasks alone, and the ones of its failures to be found,
exactly if it is harmless. -/
theorem leaves_live_traces_iff (m : MultiAgentEvalRunner T) (cases : List (MultiAgentEvalCase T))
    (before : TraceRecorder) :
    (LeavesTraces cases before (m.run cases before).1.recorder ∧
      ((m.run cases before).2 = none → Retrievable (m.run cases before).1)) ↔ m.Harmless cases before := by
  unfold Harmless
  by_cases hm : m.hasTraceRecorder = true
  · by_cases hne : cases = []
    · subst hne
      exact iff_of_true ⟨fun t _ => rfl, fun _ p hp => absurd hp List.not_mem_nil⟩ (.inr (.inl rfl))
    · have hraises : (m.run cases before).2 = none ↔ ∀ k c, cases[k]? = some c → ¬ m.Raises m.orchestrate k c := by
        refine loop_raises.trans ?_
        simp only [Nat.zero_add]
      rw [leavesTraces_iff hm hne, or_iff_right (by simp [hm]), or_iff_right hne]
      refine and_congr_right fun _ => ?_
      by_cases hok : (m.run cases before).2 = none
      · have hall := hraises.mp hok
        have hfound := @retrievable_loop T m 0 cases ⟨before, ⟨cases.length, 0, [], 0, [], 0, 0⟩, []⟩ m.orchestrate
          hm (fun _ _ => orchestrate_ne_nil) hne (fun p hp => absurd hp List.not_mem_nil)
          (by simpa only [Nat.zero_add] using hall)
        simp only [Nat.zero_add, true_and] at hfound
        rw [forall_prop_of_true hok, or_iff_right (by rintro ⟨k, c, hc, hraise⟩; exact hall k c hc hraise)]
        exact hfound
      · refine iff_of_true (fun h => absurd h hok) (.inl ?_)
        by_contra hnone
        exact hok (hraises.mpr fun k c hc hraise => hnone ⟨k, c, hc, hraise⟩)
  · have hm' : m.hasTraceRecorder = false := by simpa using hm
    obtain ⟨hleaves, hfound⟩ := @loop_unshared T m 0 cases ⟨before, ⟨cases.length, 0, [], 0, [], 0, 0⟩, []⟩
      m.orchestrate hm'
    exact iff_of_true ⟨hleaves, fun _ => hfound fun p hp => absurd hp List.not_mem_nil⟩ (.inl hm')

/-- One case that is blocked as it should be, on a recorder with the trace of a live task: the trace is gone. -/
theorem live_trace_cleared : ¬ ∀ (m : MultiAgentEvalRunner Unit) (cases : List (MultiAgentEvalCase Unit))
    (before : TraceRecorder), LeavesTraces cases before (m.run cases before).1.recorder ∧
      ((m.run cases before).2 = none → Retrievable (m.run cases before).1) := by
  intro h
  let m : MultiAgentEvalRunner Unit := ⟨demoEnv, ⟨fun _ => false, fun _ => .error ""⟩,
    fun _ => ⟨true, "risk", ["delete"]⟩, fun _ _ _ => ([], .error (.typeError "")),
    fun _ _ => .ok ⟨true, 1, [], [], [], []⟩, true⟩
  let before : TraceRecorder := ⟨[⟨0, "task_started", some "task_1", []⟩], 1, by simp⟩
  obtain ⟨hleaves, -⟩ := h m [⟨"c1", "delete all orders", some "blocked", false, none⟩] before
  obtain ⟨case, hcase, hid⟩ := (leavesTraces_iff rfl (by simp)).mp hleaves _ (List.mem_singleton_self _) "task_1" rfl
  rw [List.mem_singleton.mp hcase] at hid
  exact absurd hid (by decide)

end MultiAgentEvalRunner

end MultiAgentEval

end AgentHarness
