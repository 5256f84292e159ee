import AgentHarness.EvalTraces

/-!
# EvalAccounting — which cases an evaluation counts as passed

The runner goes by the issues of a trajectory, not by its verdict.  The two say the same, since the evaluator does
not fail without an issue (`passes_eq`), and so every case is counted once, as passed or as a failure.
-/

namespace AgentHarness

open Lib

namespace MultiAgentEval

namespace MultiAgentEvalRunner

/-- The runner with `TrajectoryEvaluator`. -/
def evaluating (x : Texts) (m : MultiAgentEvalRunner TrajectoryExpectation) :
    MultiAgentEvalRunner TrajectoryExpectation :=
  { m with evaluate := TrajectoryEvaluator.evaluate x }

variable {T : Type} (m : MultiAgentEvalRunner T) (o : Answers T)

/-- The trajectory is evaluated, and passes, where one is expected. -/
def trajectoryOk (case : MultiAgentEvalCase T) (events : List TrajectoryEvent) : Bool :=
  match case.trajectoryExpectation with
  | none => true
  | some expectation => m.hasTraceRecorder &&
    match m.evaluate events expectation with
    | .ok r => r.passed
    | .error _ => false

/-- The three checks of a case. -/
def accepts (position : Nat) (case : MultiAgentEvalCase T) : Bool :=
  match (o position case).2 with
  | .ok result => modeOk case result && successOk case result &&
    m.trajectoryOk case (traceEventsOf (o position case).1)
  | .error _ => false

/-- A result that counts every case, and names the others as failures, in their order and with a reason. -/
structure Accounts (cases : List (MultiAgentEvalCase T)) (result : MultiAgentEvalResult) : Prop where
  total : result.total = cases.length
  passed : result.passed = (cases.zipIdx.filter fun p => m.accepts o p.2 p.1).length
  failures : result.failures.map (fun failure => (failure.caseId, failure.query, failure.traceTaskId)) =
    (cases.zipIdx.filter fun p => !m.accepts o p.2 p.1).map fun p =>
      (p.1.caseId, p.1.query, some (traceTaskId p.1))
  reasons : ∀ failure ∈ result.failures, failure.reason ≠ ""
  all : result.passed + result.failures.length = result.total

variable {m o} {case : MultiAgentEvalCase T} {cases : List (MultiAgentEvalCase T)} {position : Nat}
  {result : MultiAgentRunResult} {trajectory : Option (Bool × List String)} {st : RunState}

/-! ## One case -/

/-- The evaluator of the runner does not fail without an issue. -/
def Explains (m : MultiAgentEvalRunner T) : Prop :=
  ∀ events expectation r, m.evaluate events expectation = .ok r → r.issues = [] → r.passed = true

theorem explains_evaluating (x : Texts) (m : MultiAgentEvalRunner TrajectoryExpectation) : (m.evaluating x).Explains :=
  fun _ _ _ h hissues => TrajectoryEvaluator.passed_of_no_issues h hissues

theorem trajectoryIssues_isEmpty (hm : m.Explains) {events : List TrajectoryEvent}
    (h : m.trajectory case events = .ok trajectory) :
    (trajectoryIssues trajectory).isEmpty = m.trajectoryOk case events := by
  unfold MultiAgentEvalRunner.trajectory at h
  unfold trajectoryOk
  cases hexpects : case.trajectoryExpectation with
  | none =>
    rw [hexpects] at h
    obtain rfl := Except.ok.inj h
    rfl
  | some expectation =>
    rw [hexpects] at h
    dsimp only at h ⊢
    cases hrecorder : m.hasTraceRecorder with
    | false =>
      rw [hrecorder, if_neg Bool.false_ne_true] at h
      obtain rfl := Except.ok.inj h
      rfl
    | true =>
      rw [hrecorder, if_pos rfl] at h
      obtain ⟨r, hr, rfl⟩ := TrajectoryEvaluator.map_eq_ok.mp h
      rw [hr, Bool.true_and]
      show (if r.passed then [] else r.issues).isEmpty = r.passed
      cases hpassed : r.passed with
      | true => rfl
      | false =>
        have hissues : r.issues ≠ [] := by
          intro hnil
          rw [hm events expectation r hr hnil] at hpassed
          cases hpassed
        simpa using hissues

/-- What the runner counts as passed passes all checks. -/
theorem passes_eq (hm : m.Explains) (h : m.outcome o position case = .ok (result, trajectory)) :
    passes case result trajectory = m.accepts o position case := by
  unfold outcome at h
  unfold passes accepts
  cases hanswer : (o position case).2 with
  | error e =>
    rw [hanswer] at h
    cases h
  | ok result' =>
    rw [hanswer] at h
    obtain ⟨trajectory', htrajectory, heq⟩ := TrajectoryEvaluator.map_eq_ok.mp h
    obtain ⟨rfl, rfl⟩ := Prod.mk.inj heq
    dsimp only
    rw [trajectoryIssues_isEmpty hm htrajectory]

theorem intercalate_ne_empty {sep part : String} {parts : List String} (h : part ≠ "") :
    sep.intercalate (part :: parts) ≠ "" := by
  cases parts with
  | nil => rwa [String.intercalate_singleton]
  | cons next parts =>
    rw [String.intercalate_cons_cons]
    intro hempty
    simp only [String.append_eq_empty_iff] at hempty
    exact h hempty.1.1

/-- A failure has a reason. -/
theorem reason_ne_empty (h : passes case result trajectory = false) :
    (failureOf case result trajectory).reason ≠ "" := by
  unfold passes at h
  unfold failureOf
  dsimp only
  cases hmode : modeOk case result with
  | false =>
    refine intercalate_ne_empty ?_
    simp
  | true =>
    cases hsuccess : successOk case result with
    | false =>
      refine intercalate_ne_empty ?_
      simp
    | true =>
      rw [hmode, hsuccess, Bool.true_and, Bool.true_and] at h
      rw [h]
      refine intercalate_ne_empty ?_
      simp

/-! ## Whole runs -/

/-- What the loop adds to the result, where it comes to its end. -/
structure Adds (m : MultiAgentEvalRunner T) (o : Answers T) (position : Nat) (cases : List (MultiAgentEvalCase T))
    (before after : MultiAgentEvalResult) : Prop where
  total : after.total = before.total
  passed : after.passed = before.passed +
    ((cases.zipIdx position).filter fun p => m.accepts o p.2 p.1).length
  failures : after.failures.map (fun failure => (failure.caseId, failure.query, failure.traceTaskId)) =
    before.failures.map (fun failure => (failure.caseId, failure.query, failure.traceTaskId)) ++
      ((cases.zipIdx position).filter fun p => !m.accepts o p.2 p.1).map fun p =>
        (p.1.caseId, p.1.query, some (traceTaskId p.1))
  reasons : (∀ failure ∈ before.failures, failure.reason ≠ "") → ∀ failure ∈ after.failures, failure.reason ≠ ""

theorem adds_loop (hm : m.Explains) (h : (m.loop o position cases st).2 = none) :
    Adds m o position cases st.result (m.loop o position cases st).1.result := by
  induction cases generalizing position st with
  | nil => exact ⟨rfl, rfl, (List.append_nil _).symm, id⟩
  | cons case cases ih =>
    rw [loop_cons] at h ⊢
    cases hanswer : m.outcome o position case with
    | error e =>
      rw [hanswer] at h
      cases h
    | ok answer =>
      obtain ⟨result, trajectory⟩ := answer
      rw [hanswer] at h
      dsimp only at h ⊢
      have hrest := ih h
      have hpasses := passes_eq hm hanswer
      have hzip : (case :: cases).zipIdx position = (case, position) :: cases.zipIdx (position + 1) := List.zipIdx_cons
      unfold judge at hrest ⊢
      dsimp only at hrest ⊢
      cases haccepts : m.accepts o position case with
      | true =>
        rw [haccepts] at hpasses
        rw [if_pos hpasses] at hrest ⊢
        refine ⟨hrest.total, ?_, ?_, hrest.reasons⟩
        · rw [hrest.passed, hzip, List.filter_cons_of_pos (by exact haccepts), List.length_cons]
          dsimp only
          omega
        · rw [hrest.failures, hzip, List.filter_cons_of_neg (by simp [haccepts])]
      | false =>
        rw [haccepts] at hpasses
        rw [if_neg (by simp [hpasses])] at hrest ⊢
        refine ⟨hrest.total, ?_, ?_, fun hold => hrest.reasons ?_⟩
        · rw [hrest.passed, hzip, List.filter_cons_of_neg (by simp [haccepts])]
        · rw [hrest.failures, hzip, List.filter_cons_of_pos (by simp [haccepts]), List.map_append, List.append_assoc]
          rfl
        · intro failure hfailure
          rcases List.mem_append.mp hfailure with hfailure | hfailure
          · exact hold failure hfailure
          · rw [List.mem_singleton.mp hfailure]
            exact reason_ne_empty hpasses

/-- **Every case is counted once.**  For all cases, results and traces: where a run of the runner comes to its end, it
counts the cases as passed whose three checks pass, and names the others as failures. -/
theorem run_accounts (x : Texts) (m : MultiAgentEvalRunner TrajectoryExpectation) (o : Answers TrajectoryExpectation)
    (cases : List (MultiAgentEvalCase TrajectoryExpectation)) (before : TraceRecorder)
    (h : ((m.evaluating x).runWith o cases before).2 = none) :
    (m.evaluating x).Accounts o cases ((m.evaluating x).runWith o cases before).1.result := by
  obtain ⟨htotal, hpassed, hfailures, hreasons⟩ := adds_loop (explains_evaluating x m) h
  have hpassed : ((m.evaluating x).runWith o cases before).1.result.passed =
      (cases.zipIdx.filter fun p => (m.evaluating x).accepts o p.2 p.1).length :=
    hpassed.trans (Nat.zero_add _)
  refine ⟨htotal, hpassed, hfailures, hreasons fun _ hmem => absurd hmem List.not_mem_nil, ?_⟩
  have hlength := congrArg List.length hfailures
  rw [List.length_map, List.map_nil, List.nil_append, List.length_map] at hlength
  rw [hpassed]
  show _ + ((m.evaluating x).loop o 0 cases _).1.result.failures.length = _
  rw [hlength]
  refine (List.length_eq_length_filter_add _).symm.trans ?_
  rw [List.length_zipIdx]
  exact htotal.symm

/-- An orchestrator that blocks every query. -/
def blocks : Answers TrajectoryExpectation := fun _ _ =>
  ([("risk_blocked", [])], .ok (MultiAgentOrchestrator.blockedRun ⟨true, "risk", ["delete"]⟩))

def blockedRunner : MultiAgentEvalRunner TrajectoryExpectation :=
  ⟨demoEnv, ⟨fun _ => false, fun _ => .error ""⟩, fun _ => ⟨true, "risk", ["delete"]⟩,
    fun _ _ _ => ([], .error (.typeError "")), fun _ _ => .error (.typeError ""), true⟩

/-- One that should be blocked, with a trace, and one that should be answered. -/
def blockedCases : List (MultiAgentEvalCase TrajectoryExpectation) :=
  [⟨"c1", "delete all orders", some "blocked", false, some ⟨none, [], [], ["risk"], none, some 3, true⟩⟩,
    ⟨"c2", "orders", none, true, none⟩]

theorem run_accounts_blocked :
    (blockedRunner.evaluating TrajectoryEvaluator.demoTexts).Accounts blocks blockedCases
      ((blockedRunner.evaluating TrajectoryEvaluator.demoTexts).runWith blocks blockedCases
        ⟨[], 0, fun _ he => absurd he List.not_mem_nil⟩).1.result :=
  run_accounts TrajectoryEvaluator.demoTexts blockedRunner blocks blockedCases _ rfl

end MultiAgentEvalRunner

end MultiAgentEval

end AgentHarness
