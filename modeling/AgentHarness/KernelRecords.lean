import AgentHarness.Kernel
import AgentHarness.Suspension
import AgentHarness.Lib.Extend

/-!
# KernelRecords — task metrics, session memory and self check of a kernel run

`run` and `run_with_options` with the records they keep: a task metric at the end of a mode, the
user's message and the assistant's message in the short-term memory of a session, and the reflection
of the self-check engine on the result.  Every failure of a record is swallowed.  The programs are
those of `Kernel` with these operations added; `runWithOptions_erase` says that nothing else differs.
-/

namespace AgentHarness

open Lib Py

/-! ## The recorders -/

/-- The arguments of `record_task`. -/
structure TaskMetric where
  taskId : String
  mode : String
  status : String
  deriving DecidableEq, Repr

/-- `MemoryMessage`. -/
structure MemoryMessage where
  role : String
  content : String
  deriving DecidableEq, Repr

/-- `ReflectionResult`. -/
structure ReflectionResult where
  passed : Bool
  score : Rat
  issues : List String
  suggestions : List String
  checkedItems : List String

def ReflectionResult.modelDump (r : ReflectionResult) : Dict :=
  [("passed", .bool r.passed), ("score", .float r.score), ("issues", .list (r.issues.map .str)),
    ("suggestions", .list (r.suggestions.map .str)),
    ("checked_items", .list (r.checkedItems.map .str))]

/-- What a run writes besides the work of its mode. -/
inductive Note where
  /-- `RuntimeMetricsRecorder.record_task` -/
  | recordTask (m : TaskMetric)
  /-- `ShortTermMemory.add_message` -/
  | addMessage (sessionId : String) (m : MemoryMessage)
  /-- `reflection_count`, and `reflection_failed_count` if the check did not pass -/
  | countReflection (passed : Bool)
  /-- a trace whose failure is swallowed with the rest of the record -/
  | trace (eventType taskId : String) (detail : Dict)

/-- A note is answered by nothing. -/
@[reducible] def NoteAns (_ : Note) : Type := Unit

/-- The code of a run that keeps records. -/
abbrev Rec := Prog (Op ⊕ Note) (SumAns Ans NoteAns) PyExc

/-- The task metrics in the order they were recorded, and the messages of every session. -/
structure Ledger where
  taskMetrics : List TaskMetric
  sessions : String → List MemoryMessage
  reflections : List Bool

namespace Ledger

def recordTask (l : Ledger) (m : TaskMetric) : Ledger := { l with taskMetrics := l.taskMetrics ++ [m] }

/-- `add_message`; a session without messages and a missing one are the same. -/
def addMessage (l : Ledger) (sessionId : String) (m : MemoryMessage) : Ledger :=
  { l with sessions := Function.update l.sessions sessionId (l.sessions sessionId ++ [m]) }

def countReflection (l : Ledger) (passed : Bool) : Ledger :=
  { l with reflections := l.reflections ++ [passed] }

end Ledger

/-- A note never fails: a metric row that cannot be written is only logged. -/
def noteExec : (n : Note) → Ledger → Except PyExc (NoteAns n) × Ledger
  | .recordTask m, l => (.ok (), l.recordTask m)
  | .addMessage s m, l => (.ok (), l.addMessage s m)
  | .countReflection b, l => (.ok (), l.countReflection b)
  | .trace _ _ _, l => (.ok (), l)

def recordExec (env : Env) : (x : Op ⊕ Note) → World × Ledger → Except PyExc (SumAns Ans NoteAns x) × World × Ledger :=
  Prog.execSum (exec env 0) noteExec

/-- The machine of a run that keeps records. -/
abbrev recording (env : Env) : Machine (Op ⊕ Note) (SumAns Ans NoteAns) PyExc (World × Ledger) :=
  Machine.exact (recordExec env)

/-- A part that only does the work of the mode. -/
abbrev work {α : Type} (p : Py α) : Rec α := p.extend NoteAns

abbrev note (n : Note) : Rec Unit := Prog.call (Sum.inr n)

/-- The kernel with what `set_metrics_recorder`, `set_memory` and `set_self_check_engine` set. -/
structure RecordingKernel extends AgentKernel where
  metricsRecorder : Bool
  memory : Bool
  selfCheckEngine : Option (Dict → Except PyExc ReflectionResult)

/-- `session_id or task.task_id`. -/
def sessionKey (sessionId : Option String) (taskId : String) : String :=
  match sessionId with
  | none => taskId
  | some s => if s = "" then taskId else s

namespace RecordingKernel

variable (k : RecordingKernel)

/-- `_record_task_metrics` knows two statuses. -/
def metricStatus (s : TaskStatus) : String := if s = .completed then "completed" else "failed"

/-- `_record_task_metrics`. -/
def recordTaskMetrics (task : TaskRun) (mode : String) : Rec Unit :=
  if k.metricsRecorder then
    MonadExcept.tryCatch (note (.recordTask ⟨task.taskId, mode, metricStatus task.status⟩)) fun _ => pure ()
  else pure ()

/-- `_memory_add`. -/
def memoryAdd (sessionId role content : String) : Rec Unit :=
  if k.memory then
    MonadExcept.tryCatch
      (do
        note (.addMessage sessionId ⟨role, content⟩)
        note (.trace "memory_message_added" sessionId [("role", .str role)]))
      fun _ => pure ()
  else pure ()

/-- The detail of `reflection_completed`. -/
def reflectionDetail (r : ReflectionResult) : Dict :=
  [("passed", .bool r.passed), ("score", .float r.score), ("issue_count", .int r.issues.length)]

/-- `_run_self_check`; the reflection is added to the result of the task. -/
def runSelfCheck (task : TaskRun) : Rec TaskRun :=
  match k.selfCheckEngine with
  | none => pure task
  | some check =>
    match check (task.result.getD []) with
    | .error _ => pure task
    | .ok reflection => do
      MonadExcept.tryCatch
        (do
          note (.trace "reflection_completed" task.taskId (reflectionDetail reflection))
          if k.metricsRecorder then note (.countReflection reflection.passed) else pure ())
        fun _ => pure ()
      pure { task with
        result := some ((task.result.getD []).set "reflection" (.dict reflection.modelDump)) }

/-- `str(result.get("answer", ""))[:200]`. -/
def answerText (result : Dict) : String := summarize (k.env.format (Dict.getD result "answer" (.str "")))

/-- The same of a result that may be missing or empty. -/
def resultAnswer (task : TaskRun) : String :=
  match task.result with
  | none | some [] => ""
  | some result => k.answerText result

/-! ## The modes -/

/-- `AgentKernel.guarded`, for a run that keeps records. -/
def guarded {α : Type} (task : TaskRun) (handler : TaskRun → PyExc → Rec TaskRun) (p : Rec α)
    (next : α → Rec TaskRun) : Rec TaskRun := do
  let outcome ← MonadExcept.tryCatch (do let a ← p; pure (Except.ok a)) (fun exc => pure (.error exc))
  match outcome with
  | .error exc => handler task exc
  | .ok a => next a

/-- The end of `run` after its `try`. -/
def finishRun (task : TaskRun) : Rec TaskRun := do
  k.recordTaskMetrics task "keyword"
  k.runSelfCheck task

/-- The handler of `run`, and what follows it. -/
def failRun (task : TaskRun) (exc : PyExc) : Rec TaskRun := do
  let task ← work (AgentKernel.failRun task exc)
  k.finishRun task

/-- `run`. -/
def run (task : TaskRun) (sessionId : Option String) : Rec TaskRun := do
  work (enterMode "keyword")
  let task := { task with status := .running }
  let sid := sessionKey sessionId task.taskId
  k.memoryAdd sid "user" task.query
  guarded task k.failRun
    (work do
      trace "task_started" task.taskId [("query", .str task.query), ("engine", .str k.engine)]
      AgentKernel.runHooks task.taskId "before_task"
        [("task_id", .str task.taskId), ("query", .str task.query)]
      k.runNodes task)
    fun (result, task) =>
      let task := { task with result := some result }
      if task.status = .waiting_approval then pure task
      else guarded task k.failRun
        (do
          let task ← work (k.completeRun task result)
          k.memoryAdd sid "assistant" (k.answerText result)
          pure task)
        k.finishRun

/-- What `run_with_options` does after a mode. -/
def finishMode (mode sid : String) (task : TaskRun) : Rec TaskRun := do
  k.recordTaskMetrics task mode
  k.memoryAdd sid "assistant" (k.resultAnswer task)
  k.runSelfCheck task

/-- The keyword mode through the graph adapter. -/
def runGraph (adapter : Planner) (task : TaskRun) (sid : String) : Rec TaskRun := do
  let task ← work (k.toAgentKernel.runGraph adapter task)
  k.recordTaskMetrics task "keyword"
  k.memoryAdd sid "assistant" (k.answerText (task.result.getD []))
  k.runSelfCheck task

/-- The keyword run that ends `auto`: it is given no session. -/
def autoKeyword (task : TaskRun) (chain : List String) (reason : String) : Rec TaskRun := do
  let task ← k.run task none
  pure { task with
    result := some (((task.result.getD []).update (AgentKernel.autoKeys "keyword" chain)).update
      (AgentKernel.fallbackKeys reason)) }

/-- The handler of `auto`. -/
def autoFailed (chain : List String) (task : TaskRun) (exc : PyExc) : Rec TaskRun := do
  work (trace "nl2sql_failed" task.taskId [("error", .str exc.text)])
  work (trace "auto_fallback_keyword" task.taskId [("reason", .str exc.text)])
  k.autoKeyword task (chain ++ ["keyword"]) s!"nl2sql 异常: {exc.text}"

/-- `auto` from the multi-tool pipeline on. -/
def autoMultitool (task : TaskRun) : Rec TaskRun :=
  let chain := ["nl2sql", "multitool"]
  guarded task (k.autoFailed chain)
    (work do
      enterMode "multitool"
      trace "auto_fallback_multitool" task.taskId [("reason", .str "nl2sql failed")]
      trace "multitool_started" task.taskId [("query", .str task.query)]
      let result ← MultiToolPipeline.run k.env k.multitoolPlanner task.query task.taskId
      let success ← Prog.ofExcept (Dict.index result "success")
      pure (result, success))
    fun (result, success) =>
      if success.truthy then
        let result := (result.update (AgentKernel.autoKeys "multitool" chain)).update
          (AgentKernel.fallbackKeys "nl2sql 失败，回退到 multitool 模式")
        let task := { task with result := some result }
        guarded task (k.autoFailed chain)
          (work do
            trace "multitool_completed" task.taskId [("intent", Dict.getD result "intent" (.str ""))]
            AgentKernel.traceCompleted task (k.env.format (.dict result)))
          fun _ => pure { task with status := .completed }
      else
        guarded task (k.autoFailed chain)
          (work (trace "multitool_failed" task.taskId [("reason", Dict.getD result "answer" (.str ""))]))
          fun _ => guarded task (k.autoFailed (chain ++ ["keyword"]))
            (do
              work (trace "auto_fallback_keyword" task.taskId [("reason", .str "multitool failed")])
              k.autoKeyword task (chain ++ ["keyword"]) "nl2sql 和 multitool 均失败，回退到 keyword 模式")
            pure

/-- `_run_auto`. -/
def runAuto (task : TaskRun) (opts : RunOptions) : Rec TaskRun := do
  let task := { task with status := .running }
  guarded task (k.autoFailed ["nl2sql"])
    (work do
      enterMode "nl2sql"
      trace "task_started" task.taskId [("query", .str task.query), ("mode", .str "auto")]
      trace "nl2sql_started" task.taskId
        [("generator", .str opts.generator), ("provider", optStr opts.provider)]
      let result ← Py.runNl2sql (task.request opts).nl2sql
      let success ← Prog.ofExcept (Dict.index result "success")
      pure (result, success))
    fun (result, success) =>
      if success.truthy then
        let result := result.update (AgentKernel.autoKeys "nl2sql" ["nl2sql"])
        let task := { task with result := some result }
        guarded task (k.autoFailed ["nl2sql"])
          (work do
            trace "nl2sql_completed" task.taskId [("success", .bool true)]
            AgentKernel.traceCompleted task (k.env.format (.dict result)))
          fun _ => pure { task with status := .completed }
      else
        guarded task (k.autoFailed ["nl2sql"])
          (work (trace "nl2sql_completed" task.taskId
            [("success", .bool false), ("reason", Dict.getD result "guard_reason" (.str ""))]))
          fun _ => k.autoMultitool task

/-- `run_with_options`. -/
def runWithOptions (mode : String) (task : TaskRun) (opts : RunOptions) (sessionId : Option String) :
    Rec TaskRun := do
  let sid := sessionKey sessionId task.taskId
  k.memoryAdd sid "user" task.query
  if mode = "keyword" then
    match k.graphAdapter with
    | some adapter => k.runGraph adapter task sid
    | none => k.run task sessionId
  else if mode = "nl2sql" then do
    let result ← work (k.toAgentKernel.runNl2sql task opts)
    k.finishMode "nl2sql" sid result
  else if mode = "multitool" then do
    let result ← work (k.toAgentKernel.runMultitool task)
    k.finishMode "multitool" sid result
  else if mode = "multi_agent" then do
    let result ← work (k.toAgentKernel.runMultiAgent task opts)
    k.finishMode "multi_agent" sid result
  else if mode = "auto" then do
    let result ← k.runAuto task opts
    k.finishMode "auto" sid result
  else k.run task sessionId

/-! ## The same work -/

section Erase

/-- The work of a run, without its records. -/
def bare {α : Type} (p : Rec α) : Py α := p.erase fun _ => ()

variable {k} {α β : Type} {task : TaskRun}

@[simp] theorem bare_pure (a : α) : bare (pure a) = pure a := rfl

@[simp] theorem bare_work (p : Py α) : bare (work p) = p := Prog.erase_extend p

@[simp] theorem bare_bind (p : Rec α) (f : α → Rec β) : bare (p >>= f) = bare p >>= fun a => bare (f a) :=
  Prog.erase_bind p f

@[simp] theorem bare_tryCatch (p : Rec α) (h : PyExc → Rec α) :
    bare (MonadExcept.tryCatch p h) = MonadExcept.tryCatch (bare p) fun e => bare (h e) :=
  Prog.erase_tryCatch p h

@[simp] theorem bare_note (n : Note) : bare (note n) = pure () := rfl

@[simp] theorem bare_recordTaskMetrics {mode : String} :
    bare (k.recordTaskMetrics task mode) = pure () := by
  unfold recordTaskMetrics
  split
  · rw [bare_tryCatch, bare_note]
    rfl
  · rfl

@[simp] theorem bare_memoryAdd {sid role content : String} :
    bare (k.memoryAdd sid role content) = pure () := by
  unfold memoryAdd
  split
  · rw [bare_tryCatch, bare_bind, bare_note, bare_note]
    rfl
  · rfl

@[simp] theorem bare_guarded {handler : TaskRun → PyExc → Rec TaskRun} {p : Rec α}
    {next : α → Rec TaskRun} : bare (guarded task handler p next) =
      AgentKernel.guarded task (fun t e => bare (handler t e)) (bare p) fun a => bare (next a) := by
  unfold guarded AgentKernel.guarded
  rw [bare_bind, bare_tryCatch, bare_bind]
  refine congrArg (_ >>= ·) (funext fun outcome => ?_)
  cases outcome <;> rfl

section

variable (hcheck : k.selfCheckEngine = none)
include hcheck

theorem bare_runSelfCheck : bare (k.runSelfCheck task) = pure task := by
  unfold runSelfCheck
  rw [hcheck]
  rfl

theorem bare_finishRun (task : TaskRun) : bare (k.finishRun task) = pure task := by
  unfold finishRun
  rw [bare_bind, bare_recordTaskMetrics]
  exact bare_runSelfCheck hcheck

theorem bare_failRun {exc : PyExc} : bare (k.failRun task exc) = AgentKernel.failRun task exc := by
  unfold failRun
  rw [bare_bind, bare_work, funext (bare_finishRun hcheck)]
  exact Prog.bind_pure' _

theorem bare_finishMode {mode sid : String} (task : TaskRun) :
    bare (k.finishMode mode sid task) = pure task := by
  unfold finishMode
  rw [bare_bind, bare_recordTaskMetrics, Prog.pure_bind', bare_bind, bare_memoryAdd]
  exact bare_runSelfCheck hcheck

theorem bare_run {sessionId : Option String} : bare (k.run task sessionId) = k.toAgentKernel.run task := by
  unfold run AgentKernel.run
  rw [bare_bind, bare_work]
  refine congrArg (_ >>= ·) (funext fun _ => ?_)
  rw [bare_bind, bare_memoryAdd, Prog.pure_bind', bare_guarded, bare_work]
  have hfail : (fun t e => bare (k.failRun t e)) = AgentKernel.failRun :=
    funext fun t => funext fun e => bare_failRun hcheck
  rw [hfail]
  refine congrArg (AgentKernel.guarded _ _ _) (funext fun x => ?_)
  dsimp only
  split
  · rfl
  · rw [bare_guarded, hfail, funext (bare_finishRun hcheck)]
    refine congrArg (AgentKernel.guarded _ _ · _) ?_
    simp only [bare_bind, bare_work, bare_memoryAdd, bare_pure, Prog.pure_bind']
    exact Prog.bind_pure' _

theorem bare_autoKeyword {chain : List String} {reason : String} :
    bare (k.autoKeyword task chain reason) = k.toAgentKernel.autoKeyword task chain reason := by
  unfold autoKeyword AgentKernel.autoKeyword
  rw [bare_bind, bare_run hcheck]
  rfl

theorem bare_autoFailed (chain : List String) :
    (fun t e => bare (k.autoFailed chain t e)) = k.toAgentKernel.autoFailed chain := by
  refine funext fun t => funext fun e => ?_
  unfold autoFailed AgentKernel.autoFailed
  rw [bare_bind, bare_work]
  refine congrArg (_ >>= ·) (funext fun _ => ?_)
  rw [bare_bind, bare_work, bare_autoKeyword hcheck]

theorem bare_autoMultitool : bare (k.autoMultitool task) = k.toAgentKernel.autoMultitool task := by
  unfold autoMultitool AgentKernel.autoMultitool
  dsimp only
  rw [bare_guarded, bare_work, bare_autoFailed hcheck]
  refine congrArg (AgentKernel.guarded _ _ _) (funext fun x => ?_)
  obtain ⟨result, success⟩ := x
  dsimp only
  split
  · rw [bare_guarded, bare_work, bare_autoFailed hcheck]
    rfl
  · rw [bare_guarded, bare_work, bare_autoFailed hcheck]
    refine congrArg (AgentKernel.guarded _ _ _) (funext fun _ => ?_)
    rw [bare_guarded, bare_autoFailed hcheck, bare_bind, bare_work, bare_autoKeyword hcheck]
    rfl

theorem bare_runAuto {opts : RunOptions} : bare (k.runAuto task opts) = k.toAgentKernel.runAuto task opts := by
  unfold runAuto AgentKernel.runAuto
  dsimp only
  rw [bare_guarded, bare_work, bare_autoFailed hcheck]
  refine congrArg (AgentKernel.guarded _ _ _) (funext fun x => ?_)
  obtain ⟨result, success⟩ := x
  dsimp only
  split
  · rw [bare_guarded, bare_work, bare_autoFailed hcheck]
    rfl
  · rw [bare_guarded, bare_work, bare_autoFailed hcheck, bare_autoMultitool hcheck]

/-- A mode, and the records after it. -/
theorem bare_mode {p : Rec TaskRun} {q : Py TaskRun} (h : bare p = q) {mode sid : String} :
    bare (p >>= fun result => k.finishMode mode sid result) = q := by
  rw [bare_bind, h, funext (bare_finishMode hcheck)]
  exact Prog.bind_pure' _

theorem bare_runGraph {adapter : Planner} {sid : String} :
    bare (k.runGraph adapter task sid) = k.toAgentKernel.runGraph adapter task := by
  unfold runGraph
  rw [bare_bind, bare_work]
  have hfinish : ∀ t : TaskRun, bare (k.recordTaskMetrics t "keyword" >>= fun _ =>
      k.memoryAdd sid "assistant" (k.answerText (t.result.getD [])) >>= fun _ => k.runSelfCheck t) =
      pure t := by
    intro t
    rw [bare_bind, bare_recordTaskMetrics, Prog.pure_bind', bare_bind, bare_memoryAdd]
    exact bare_runSelfCheck hcheck
  rw [funext hfinish]
  exact Prog.bind_pure' _

/-- **The records are all that a run adds**: without a self-check engine, the work of
`run_with_options` is that of the kernel without recorders. -/
theorem bare_runWithOptions {mode : String} {opts : RunOptions} (sessionId : Option String) :
    bare (k.runWithOptions mode task opts sessionId) =
      k.toAgentKernel.runWithOptions mode task opts := by
  unfold runWithOptions AgentKernel.runWithOptions
  rw [bare_bind, bare_memoryAdd, Prog.pure_bind']
  split
  · cases k.graphAdapter with
    | some adapter => exact bare_runGraph hcheck
    | none => exact bare_run hcheck
  split
  · exact bare_mode hcheck (bare_work _)
  split
  · exact bare_mode hcheck (bare_work _)
  split
  · exact bare_mode hcheck (bare_work _)
  split
  · exact bare_mode hcheck (bare_runAuto hcheck)
  · exact bare_run hcheck

/-- What `run_with_options` returns and leaves in the stores is what the kernel without recorders
returns and leaves. -/
theorem run_runWithOptions {mode : String} {opts : RunOptions} {sessionId : Option String} {w : World}
    {l : Ledger} : serve k.env (k.toAgentKernel.runWithOptions mode task opts) w =
      (((k.runWithOptions mode task opts sessionId).run (recordExec k.env) (w, l)).1,
        ((k.runWithOptions mode task opts sessionId).run (recordExec k.env) (w, l)).2.1) := by
  have hnote : ∀ n l, (noteExec n l).1 = .ok () := by
    rintro (_ | _ | _ | _) l <;> rfl
  rw [serve, ← bare_runWithOptions hcheck sessionId]
  exact Prog.run_erase hnote _

end

end Erase

end RecordingKernel

end AgentHarness
