import AgentHarness.LlmRuns
import AgentHarness.Suspension

/-!
# Nl2sqlSuccess — what `success` of an NL2SQL run says

`run` reports `success` as soon as the guard has allowed the SQL.  It agrees with "allowed and
executed" exactly where the database answers the allowed SQL (`Answers`), and where it does not, both
auto modes return the failed query as the answer of the task.
-/

namespace AgentHarness

open Lib Py

section

variable (env : LlmEnv) (out : LlmOutside)

/-- The executor's guard lets the SQL pass, the database file exists and the query raises nothing. -/
def Answered (w : LlmWorld) (sql : String) : Prop :=
  (SQLGuard.check env.unicode sql).allowed = true ∧
    ∃ answer, out.database w.log.length (SQLGuard.check env.unicode sql).sql = .ok (some answer)

/-- The database answers the previewed SQL if the guard has allowed it. -/
def Answers (t : Nat) (call : Nl2sqlCall) (w : LlmWorld) : Prop :=
  ∀ p, ((NL2SQLPipeline.preview env call).run (llmStep out t) w).1 = .ok p → p.output.guardAllowed = true →
    Answered env out ((NL2SQLPipeline.preview env call).run (llmStep out t) w).2 p.output.sql

end

/-- The answer is that of an NL2SQL query, and the query has failed. -/
def ReportsFailedQuery (d : Dict) : Prop :=
  Dict.get? d "executed_mode" = some (.str "nl2sql") ∧
    ∃ e, Dict.get? d "execution" = some (.dict e) ∧ Dict.get? e "success" = some (.bool false)

/-! ## The run -/

section Run

variable {env : LlmEnv} {out : LlmOutside} {t : Nat} {w : LlmWorld} {call : Nl2sqlCall} {dbPath : String}

/-- An attempted operation goes on with its answer. -/
theorem run_attempt {β : Type} {o : LlmOp} {f : Except Raised (LlmAns o) → Llm β} :
    (Llm.attempt (Llm.perform o) >>= f).run (llmStep out t) w =
      (f (llmStep out t o w).1).run (llmStep out t) (llmStep out t o w).2 := by
  show (Prog.run (llmStep out t) _ (llmStep out t o w).2) = _
  cases (llmStep out t o w).1 <;> rfl

/-- The executor succeeds exactly on SQL that is answered. -/
theorem execute_success (sql : String) :
    ∃ e, ((SQLiteReadOnlyExecutor.execute env.unicode dbPath sql).run (llmStep out t) w).1 = .ok e ∧
      (e.success = true ↔ Answered env out w sql) := by
  unfold SQLiteReadOnlyExecutor.execute Answered
  dsimp only
  cases hallowed : (SQLGuard.check env.unicode sql).allowed with
  | false => exact ⟨_, rfl, by simp [SQLExecutionResult.failed]⟩
  | true =>
    rw [Bool.not_true, if_neg (by decide), run_attempt]
    have hans : (llmStep out t (.query (SQLGuard.check env.unicode sql).sql) w).1 =
      out.database w.log.length (SQLGuard.check env.unicode sql).sql := rfl
    rw [hans]
    cases out.database w.log.length (SQLGuard.check env.unicode sql).sql with
    | error exc => exact ⟨_, rfl, by simp [SQLExecutionResult.failed]⟩
    | ok answer =>
      cases answer with
      | none => exact ⟨_, rfl, by simp [SQLExecutionResult.failed]⟩
      | some rows => exact ⟨_, rfl, by simp⟩

/-- What `run` makes of a preview. -/
theorem finish_success (p : PreviewResult) :
    ∃ r, ((NL2SQLPipeline.finish env dbPath call p).run (llmStep out t) w).1 = .ok r ∧
      r.success = p.output.guardAllowed ∧ r.preview = p ∧
      (r.execution.success = true ↔
        p.output.guardAllowed = true ∧ Answered env out w p.output.sql) := by
  unfold NL2SQLPipeline.finish
  by_cases hcond : (p.output.guardAllowed && p.output.sql ≠ "") = true
  · rw [if_pos hcond]
    obtain ⟨hallowed, -⟩ := Bool.and_eq_true _ _ |>.mp hcond
    obtain ⟨e, he, hsuccess⟩ := @execute_success env out t w dbPath p.output.sql
    rw [Prog.run_bind]
    generalize (SQLiteReadOnlyExecutor.execute env.unicode dbPath p.output.sql).run (llmStep out t) w = x
      at he
    obtain ⟨x, w'⟩ := x
    cases he
    refine ⟨_, rfl, rfl, rfl, hsuccess.trans ?_⟩
    simp [hallowed]
  · rw [if_neg hcond]
    refine ⟨_, rfl, rfl, rfl, ?_⟩
    refine ⟨fun h => Bool.noConfusion h, ?_⟩
    rintro ⟨hallowed, hanswered⟩
    -- the executor's guard refuses the empty text
    have hempty : p.output.sql = "" := by
      by_contra hne
      exact hcond (by simp [hallowed, hne])
    have hrefused : (SQLGuard.check env.unicode p.output.sql).allowed = false := by
      rw [hempty]
      rfl
    exact Bool.noConfusion (hrefused.symm.trans hanswered.1)

/-- A run reports the guard's decision; it is the outcome of the query exactly where the database
answers. -/
theorem run_success {r : RunResult}
    (h : ((NL2SQLPipeline.run env dbPath call).run (llmStep out t) w).1 = .ok r) :
    r.success = r.preview.output.guardAllowed ∧
      (Answers env out t call w ↔ (r.success = true → r.execution.success = true)) ∧
      (r.execution.success = true → r.success = true) := by
  unfold NL2SQLPipeline.run at h
  rw [Prog.run_bind] at h
  unfold Answers
  generalize (NL2SQLPipeline.preview env call).run (llmStep out t) w = x at h ⊢
  obtain ⟨x, w'⟩ := x
  cases x with
  | error e => cases h
  | ok p =>
    obtain ⟨r', hr', hsuccess, hpreview, hexec⟩ := @finish_success env out t w' call dbPath p
    obtain rfl : r' = r := Except.ok.inj (hr'.symm.trans h)
    rw [hpreview, hexec, hsuccess]
    refine ⟨rfl, ⟨fun hans hallowed => ⟨hallowed, hans p rfl hallowed⟩, fun himp p' hp' hallowed => ?_⟩,
      fun h => h.1⟩
    obtain rfl := Except.ok.inj hp'
    exact (himp hallowed).2

end Run

/-! ## The auto modes -/

section Auto

variable {r : RunResult}

theorem index_success (r : RunResult) : Dict.index r.toDict "success" = .ok (.bool r.success) := rfl

theorem get_execution (r : RunResult) :
    Dict.get? r.toDict "execution" = some (.dict r.execution.modelDump) := rfl

theorem get_modelDump_success (e : SQLExecutionResult) :
    Dict.get? e.modelDump "success" = some (.bool e.success) := rfl

/-- An answer of another mode. -/
theorem not_reportsFailedQuery {d : Dict} {mode : String}
    (h : Dict.get? d "executed_mode" = some (.str mode)) (hmode : mode ≠ "nl2sql") :
    ¬ ReportsFailedQuery d := by
  rintro ⟨hnl2sql, -⟩
  rw [h] at hnl2sql
  cases hnl2sql
  exact hmode rfl

/-- The answer of an NL2SQL run, with keys that do not touch the execution. -/
theorem reportsFailedQuery_iff {d : Dict} (hmode : Dict.get? d "executed_mode" = some (.str "nl2sql"))
    (hexec : Dict.get? d "execution" = Dict.get? r.toDict "execution") :
    ReportsFailedQuery d ↔ r.execution.success = false := by
  unfold ReportsFailedQuery
  rw [hexec, get_execution]
  constructor
  · rintro ⟨-, e, he, hfailed⟩
    cases he
    exact PyVal.bool.inj (Option.some.inj hfailed)
  · intro hfailed
    refine ⟨hmode, _, rfl, ?_⟩
    rw [get_modelDump_success, hfailed]

theorem nl2sql_answer {env : Env} {req : Nl2sqlRequest} {d : Dict} {log : List Event} {db : Db}
    (h : ∀ n, env.nl2sql n req = .ok d) : (dbExec env log 0 (.nl2sql req) db).1 = .ok d := by
  simp only [dbExec]
  exact h _

theorem wp_anything {env : Env} {α : Type} {p : Py α} {w : World} :
    wp (sequential env) p (fun _ _ => True) w := wp_sequential.mpr trivial

namespace AgentKernel

variable {k : AgentKernel} {task : TaskRun} {w : World}

/-- The task has an answer that is no failed query. -/
def NoFailedQuery (res : Except PyExc TaskRun) : Prop :=
  ∀ task' d, res = .ok task' → task'.result = some d → ¬ ReportsFailedQuery d

theorem autoKeyword_noFailedQuery {chain : List String} {reason : String} :
    wp (sequential k.env) (k.autoKeyword task chain reason) (fun res _ => NoFailedQuery res) w := by
  refine wp_seq wp_anything (fun task₁ w₁ _ => ?_) fun e w₁ _ task' d h => by cases h
  intro task' d htask hd
  cases htask
  cases hd
  refine @not_reportsFailedQuery _ "keyword" ?_ (by decide)
  simp [autoKeys, fallbackKeys, Dict.get?_set_ne]

theorem autoFailed_noFailedQuery {chain : List String} {exc : PyExc} :
    wp (sequential k.env) (k.autoFailed chain task exc) (fun res _ => NoFailedQuery res) w := by
  refine wp_seq wp_anything (fun _ w₁ _ => ?_) fun e w₁ _ task' d h => by cases h
  refine wp_seq wp_anything (fun _ w₂ _ => ?_) fun e w₂ _ task' d h => by cases h
  exact autoKeyword_noFailedQuery

theorem autoMultitool_noFailedQuery :
    wp (sequential k.env) (k.autoMultitool task) (fun res _ => NoFailedQuery res) w := by
  refine wp_guarded wp_anything ?_ fun e w₁ _ => autoFailed_noFailedQuery
  rintro ⟨result, success⟩ w₁ -
  dsimp only
  split
  · refine wp_guarded wp_anything ?_ fun e w₂ _ => autoFailed_noFailedQuery
    intro _ w₂ _ task' d htask hd
    cases htask
    cases hd
    refine @not_reportsFailedQuery _ "multitool" ?_ (by decide)
    simp [autoKeys, fallbackKeys, Dict.get?_set_ne]
  · refine wp_guarded wp_anything ?_ fun e w₂ _ => autoFailed_noFailedQuery
    intro _ w₂ _
    refine wp_guarded (R := fun res _ => NoFailedQuery res) ?_ ?_ fun e w₃ _ => autoFailed_noFailedQuery
    · refine wp_seq wp_anything (fun _ w₃ _ => autoKeyword_noFailedQuery) fun e w₃ _ task' d h => by cases h
    · exact fun task' w₃ h => h

/-- The auto mode answers with the query exactly where the query reports success. -/
theorem runAuto_spec {opts : RunOptions}
    (hk : ∀ n, k.env.nl2sql n (task.request opts).nl2sql = .ok r.toDict) :
    wp (sequential k.env) (k.runAuto task opts) (fun res _ =>
      if r.success = true then ∃ task' d, res = .ok task' ∧ task'.result = some d ∧
        Dict.get? d "executed_mode" = some (.str "nl2sql") ∧
        Dict.get? d "execution" = Dict.get? r.toDict "execution"
      else NoFailedQuery res) w := by
  have hk : ∀ n, k.env.nl2sql n (({ task with status := .running } : TaskRun).request opts).nl2sql =
      .ok r.toDict := hk
  unfold runAuto
  refine wp_guarded (R := fun x _ => x = .ok (r.toDict, .bool r.success)) ?_ ?_ ?_
  · refine wp_perform_bind (a := ()) rfl ?_
    refine wp_silent_seq silent_trace fun _ w₁ _ => wp_silent_seq silent_trace fun _ w₂ _ => ?_
    refine wp_perform_bind (a := r.toDict) (nl2sql_answer hk) ?_
    rw [index_success]
    exact rfl
  · rintro x w₁ ⟨⟩
    dsimp only
    rw [PyVal.truthy_bool]
    split
    · have hsilent : Silent k.env (do
          trace "nl2sql_completed" task.taskId [("success", .bool true)]
          traceCompleted { task with status := .running, result := some (r.toDict.update (autoKeys "nl2sql" ["nl2sql"])) }
            (k.env.format (.dict (r.toDict.update (autoKeys "nl2sql" ["nl2sql"]))))) :=
        silent_trace.bind fun _ => silent_trace
      refine wp_guarded_silent hsilent fun _ w₂ _ => ?_
      refine ⟨_, _, rfl, rfl, ?_, ?_⟩
      · simp [autoKeys, Dict.get?_set_ne]
      · simp [autoKeys, Dict.get?_set_ne]
    · refine wp_guarded_silent silent_trace fun _ w₂ _ => ?_
      exact autoMultitool_noFailedQuery
  · intro e w₁ h
    cases h

end AgentKernel

namespace ExecutorAgent

variable {env : Env} {x : ExecutorAgent} {req : RunRequest} {w : World}

theorem executeNl2sql_spec (hk : ∀ n, env.nl2sql n req.nl2sql = .ok r.toDict) :
    wp (sequential env) (executeNl2sql req) (fun res _ => ∃ decision, res = .ok (r.toDict, decision)) w := by
  refine wp_perform_bind (a := ()) rfl ?_
  refine wp_perform_bind (a := r.toDict) (nl2sql_answer hk) ?_
  rw [index_success]
  exact ⟨_, rfl⟩

/-- The answer is that of the query exactly where the query reports success. -/
theorem executeAuto_spec (hk : ∀ n, env.nl2sql n req.nl2sql = .ok r.toDict) :
    wp (sequential env) (executeAuto env x req) (fun res _ =>
      if r.success = true then ∃ d decision, res = .ok (d, decision) ∧
        Dict.get? d "executed_mode" = some (.str "nl2sql") ∧
        Dict.get? d "execution" = Dict.get? r.toDict "execution"
      else ∀ d decision, res = .ok (d, decision) → ¬ ReportsFailedQuery d) w := by
  unfold executeAuto
  refine wp_seq (executeNl2sql_spec hk) ?_ fun e w₁ h => ?_
  · rintro ⟨d, decision⟩ w₁ ⟨_, ⟨⟩⟩
    dsimp only
    rw [index_success]
    simp only [Prog.ofExcept_ok, Prog.pure_bind', PyVal.truthy_bool]
    by_cases hs : r.success = true
    · simp only [hs, if_true]
      refine ⟨_, _, rfl, ?_, ?_⟩
      · simp [Dict.get?_set_ne]
      · simp [Dict.get?_set_ne]
    · simp only [hs]
      refine wp_seq wp_anything (fun mt w₂ _ => ?_) fun e w₂ _ d decision h => by cases h
      refine wp_seq wp_anything (fun success w₃ _ => ?_) fun e w₃ _ d decision h => by cases h
      split
      · intro d decision h
        cases h
        refine @not_reportsFailedQuery _ "multitool" ?_ (by decide)
        simp [Dict.get?_set_ne]
      · refine wp_seq wp_anything (fun kw w₄ _ => ?_) fun e w₄ _ d decision h => by cases h
        intro d decision h
        cases h
        refine @not_reportsFailedQuery _ "keyword" ?_ (by decide)
        simp [Dict.get?_set_ne]
  · obtain ⟨_, h⟩ := h
    cases h

end ExecutorAgent

end Auto

/-! ## Success and execution -/

/-- The auto mode of the kernel does not answer with a failed query. -/
def KernelReportsNoFailure (k : AgentKernel) (task : TaskRun) (opts : RunOptions) (w : World) : Prop :=
  ∀ task' d, (serve k.env (k.runAuto task opts) w).1 = .ok task' → task'.result = some d →
    ¬ ReportsFailedQuery d

/-- The auto mode of the executor does not answer with a failed query. -/
def ExecutorReportsNoFailure (env : Env) (x : ExecutorAgent) (req : RunRequest) (w : World) : Prop :=
  ∀ d decision, (serve env (x.executeAuto env req) w).1 = .ok (d, decision) → ¬ ReportsFailedQuery d

/-- An answer that passes the query on reports a failure exactly where the query has failed. -/
theorem failed_iff_not_executed {d : Dict} {r : RunResult}
    (hmode : Dict.get? d "executed_mode" = some (.str "nl2sql"))
    (hexec : Dict.get? d "execution" = Dict.get? r.toDict "execution") :
    ¬ ReportsFailedQuery d ↔ r.execution.success = true := by
  rw [reportsFailedQuery_iff hmode hexec]
  cases r.execution.success <;> decide

theorem kernelReports_iff {r : RunResult} {k : AgentKernel} {task : TaskRun} {opts : RunOptions} {w : World}
    (hk : ∀ n, k.env.nl2sql n (task.request opts).nl2sql = .ok r.toDict) :
    KernelReportsNoFailure k task opts w ↔ (r.success = true → r.execution.success = true) := by
  have hspec := serve_of_wp (@AgentKernel.runAuto_spec r k task w opts hk)
  unfold KernelReportsNoFailure
  by_cases hs : r.success = true
  · rw [if_pos hs] at hspec
    obtain ⟨task', d, htask, hd, hmode, hexec⟩ := hspec
    rw [← failed_iff_not_executed hmode hexec]
    constructor
    · exact fun h _ => h task' d htask hd
    · intro h task'' d'' htask'' hd''
      obtain rfl := Except.ok.inj (htask.symm.trans htask'')
      obtain rfl := Option.some.inj (hd.symm.trans hd'')
      exact h hs
  · rw [if_neg hs] at hspec
    exact ⟨fun _ h => absurd h hs, fun _ => hspec⟩

theorem executorReports_iff {r : RunResult} {env : Env} {x : ExecutorAgent} {req : RunRequest} {w : World}
    (hk : ∀ n, env.nl2sql n req.nl2sql = .ok r.toDict) :
    ExecutorReportsNoFailure env x req w ↔ (r.success = true → r.execution.success = true) := by
  have hspec := serve_of_wp (@ExecutorAgent.executeAuto_spec r env x req w hk)
  unfold ExecutorReportsNoFailure
  by_cases hs : r.success = true
  · rw [if_pos hs] at hspec
    obtain ⟨d, decision, hd, hmode, hexec⟩ := hspec
    rw [← failed_iff_not_executed hmode hexec]
    constructor
    · exact fun h _ => h d decision hd
    · intro h d' decision' hd'
      obtain ⟨rfl, -⟩ := Prod.mk.inj (Except.ok.inj (hd.symm.trans hd'))
      exact h hs
  · rw [if_neg hs] at hspec
    exact ⟨fun _ h => absurd h hs, fun _ => hspec⟩

/-- **Success and execution.**  `success` means that the guard allowed the SQL and its execution
succeeded exactly where the database answers what the guard allowed; and exactly there the auto modes,
given the answer of the run, report no failed query. -/
theorem success_means_executed_iff (env : LlmEnv) (out : LlmOutside) (t : Nat) (w : LlmWorld)
    (dbPath : String) (call : Nl2sqlCall) (r : RunResult)
    (h : ((NL2SQLPipeline.run env dbPath call).run (llmStep out t) w).1 = .ok r) :
    ((r.success = true ↔ r.preview.output.guardAllowed = true ∧ r.execution.success = true) ↔
      Answers env out t call w) ∧
    (∀ (k : AgentKernel) (task : TaskRun) (opts : RunOptions) (w' : World),
      (∀ n, k.env.nl2sql n (task.request opts).nl2sql = .ok r.toDict) →
      (KernelReportsNoFailure k task opts w' ↔ Answers env out t call w)) ∧
    ∀ (e : Env) (x : ExecutorAgent) (req : RunRequest) (w' : World),
      (∀ n, e.nl2sql n req.nl2sql = .ok r.toDict) →
      (ExecutorReportsNoFailure e x req w' ↔ Answers env out t call w) := by
  obtain ⟨hguard, hanswers, hexec⟩ := run_success h
  refine ⟨?_, fun k task opts w' hk => ?_, fun e x req w' hk => ?_⟩
  · rw [hanswers, ← hguard]
    exact ⟨fun h hs => (h.mp hs).2, fun h => ⟨fun hs => ⟨hs, h hs⟩, fun h => h.1⟩⟩
  · rw [hanswers, kernelReports_iff hk]
  · rw [hanswers, executorReports_iff hk]

/-- A run whose SQL is a guarded reply and whose query the database answers or refuses. -/
def sampleRun (database : Except Raised QueryAnswer) : Except Raised RunResult :=
  ((NL2SQLPipeline.run (.sample .sample) "demo.db" ⟨"q", "llm", none, false⟩).run
    (llmStep { LlmOutside.sample fun _ => .ok (.sample "generation" 1 1) with database := fun _ _ => database } 0)
    ⟨LlmDb.initial, []⟩).1

theorem success_means_executed_demo :
    ∃ r, sampleRun (.ok (some ([], []))) = .ok r ∧
      ((r.success = true ↔ r.preview.output.guardAllowed = true ∧ r.execution.success = true) ↔
        Answers (.sample .sample) { LlmOutside.sample fun _ => .ok (.sample "generation" 1 1) with
          database := fun _ _ => .ok (some ([], [])) } 0 ⟨"q", "llm", none, false⟩ ⟨LlmDb.initial, []⟩) := by
  have hok : ∃ r, sampleRun (.ok (some ([], []))) = .ok r := by
    have : (sampleRun (.ok (some ([], [])))).isOk = true := by decide +kernel
    cases h : sampleRun (.ok (some ([], []))) with
    | ok r => exact ⟨r, rfl⟩
    | error e =>
      rw [h] at this
      cases this
  obtain ⟨r, hr⟩ := hok
  exact ⟨r, hr, (success_means_executed_iff _ _ _ _ _ _ r hr).1⟩

/-- The table of an allowed query does not exist, and the run reports success. -/
theorem success_of_failed_query :
    ¬ ∀ (env : LlmEnv) (out : LlmOutside) (t : Nat) (w : LlmWorld) (dbPath : String) (call : Nl2sqlCall)
      (r : RunResult), ((NL2SQLPipeline.run env dbPath call).run (llmStep out t) w).1 = .ok r →
      (r.success = true ↔ r.preview.output.guardAllowed = true ∧ r.execution.success = true) := by
  intro h
  have hrun : ∃ r, sampleRun (.error ⟨"OperationalError", "no such table: gmv"⟩) = .ok r ∧
      r.success = true ∧ r.execution.success = false := by
    have hshows : (match sampleRun (.error ⟨"OperationalError", "no such table: gmv"⟩) with
        | .ok r => r.success && !r.execution.success
        | .error _ => false) = true := by decide +kernel
    split at hshows
    · rename_i r hr
      obtain ⟨hs, hfailed⟩ := Bool.and_eq_true _ _ |>.mp hshows
      exact ⟨r, hr, hs, by simpa using hfailed⟩
    · cases hshows
  obtain ⟨r, hr, hs, hfailed⟩ := hrun
  have := ((h _ _ _ _ _ _ r hr).mp hs).2
  rw [hfailed] at this
  cases this

end AgentHarness
