import AgentHarness.Kernel
import AgentHarness.Requests
import AgentHarness.Lib.Handler
import AgentHarness.Lib.StateGraph

/-!
# Engines — the compiled graph and `_run_sequential`

The keyword path exists twice: as the nodes and edges that `build_graph` compiles, over the fields of a state,
and as the statements of `_run_sequential`.  The stages are the methods of the kernel; here they are any
programs, which may raise and perform any operations.  The task of the state is the one object that all see.
-/

namespace AgentHarness

open Lib Py

/-- The methods that the nodes wrap. -/
structure KeywordStages where
  assembleContext : TaskRun → Py Dict
  plan : Dict → Py PlanResult
  /-- also the task, whose status it may set -/
  execute : TaskRun → PlanResult → Py (AgentKernel.ToolResult × TaskRun)
  verify : AgentKernel.ToolResult → Py Bool
  respond : PlanResult → AgentKernel.ToolResult → Bool → Py Dict

/-- The engine of a run. -/
inductive Engine where
  | langgraph
  | sequential

def Engine.value : Engine → String
  | langgraph => "langgraph"
  | sequential => "sequential"

/-! ## The compiled graph -/

/-- `KeywordGraphState`; a field that no node has written is absent. -/
structure KeywordGraphState where
  task : TaskRun
  ctx : Option Dict
  planResult : Option PlanResult
  toolRecord : Option AgentKernel.ToolResult
  waitingApproval : Option Bool
  verified : Option Bool
  result : Option Dict

def KeywordGraphState.start (task : TaskRun) : KeywordGraphState := ⟨task, none, none, none, none, none, none⟩

inductive KeywordNode where
  | assembleContext | plan | execute | verify | respond

/-- `state[key]` -/
def stateField {α : Type} (key : String) : Option α → Py α
  | none => .raise (.keyError key)
  | some a => pure a

namespace KeywordStages

variable (st : KeywordStages)

/-- The nodes. -/
def graphNode (s : KeywordGraphState) : KeywordNode → Py KeywordGraphState
  | .assembleContext => do
    let ctx ← st.assembleContext s.task
    pure { s with ctx := some ctx }
  | .plan => do
    let ctx ← stateField "ctx" s.ctx
    let planResult ← st.plan ctx
    pure { s with planResult := some planResult }
  | .execute => do
    let planResult ← stateField "plan_result" s.planResult
    let (toolRecord, task) ← st.execute s.task planResult
    pure { s with
      task := task, toolRecord := some toolRecord, waitingApproval := some (task.status = .waiting_approval) }
  | .verify => do
    let verified ← st.verify (s.toolRecord.getD .none)
    pure { s with verified := some verified }
  | .respond => do
    let verified := if s.waitingApproval.getD false then false else s.verified.getD false
    let planResult ← stateField "plan_result" s.planResult
    let result ← st.respond planResult (s.toolRecord.getD .none) verified
    pure { s with result := some result }

/-- The edges, the conditional one after `execute` included. -/
def graphEdge (s : KeywordGraphState) : KeywordNode → Option KeywordNode
  | .assembleContext => some .plan
  | .plan => some .execute
  | .execute => if s.waitingApproval.getD false then some .respond else some .verify
  | .verify => some .respond
  | .respond => none

def graph : StateGraph KeywordNode KeywordGraphState Op Ans PyExc where
  entry := .assembleContext
  node x s := st.graphNode s x
  next x s := graphEdge s x

/-- How many nodes LangGraph runs before it gives up. -/
def recursionLimit : Nat := 25

def recursionError : PyExc := .valueError "Recursion limit of 25 reached without hitting a stop condition."

/-- `self._graph.invoke({"task": task})["result"]` -/
def invokeGraph (task : TaskRun) : Py (Dict × TaskRun) := do
  let final ← st.graph.invoke recursionError recursionLimit (.start task)
  let result ← stateField "result" final.result
  pure (result, final.task)

/-! ## The statements -/

/-- `_run_sequential` -/
def runSequential (task : TaskRun) : Py (Dict × TaskRun) := do
  let ctx ← st.assembleContext task
  let planResult ← st.plan ctx
  let (toolRecord, task) ← st.execute task planResult
  if task.status = .waiting_approval then do
    let result ← st.respond planResult toolRecord false
    pure (result, task)
  else do
    let verified ← st.verify toolRecord
    let result ← st.respond planResult toolRecord verified
    pure (result, task)

def runEngine (task : TaskRun) : Engine → Py (Dict × TaskRun)
  | .langgraph => st.invokeGraph task
  | .sequential => st.runSequential task

end KeywordStages

namespace AgentKernel

variable (k : AgentKernel)

/-- The methods of the kernel; planning and answering may be anything, with an LLM behind them or not. -/
def stages (planning : Dict → Py PlanResult) (answering : PlanResult → ToolResult → Bool → Py Dict) :
    KeywordStages where
  assembleContext := k.assemble
  plan := planning
  execute := k.execute
  verify toolResult := pure (verify toolResult)
  respond := answering

def startedDetail (query engine : String) : Dict := [("query", .str query), ("engine", .str engine)]

/-- `run`, on an engine. -/
def runOn (st : KeywordStages) (engine : Engine) (task : TaskRun) : Py TaskRun := do
  enterMode "keyword"
  let task := { task with status := .running }
  guarded task failRun
    (do
      trace "task_started" task.taskId (startedDetail task.query engine.value)
      runHooks task.taskId "before_task" [("task_id", .str task.taskId), ("query", .str task.query)]
      st.runEngine task engine)
    fun (result, task) =>
      let task := { task with result := some result }
      if task.status = .waiting_approval then pure task
      else guarded task failRun (k.completeRun task result) pure

end AgentKernel

/-! ## The two engines -/

namespace KeywordStages

variable {st : KeywordStages} {task : TaskRun}

/-- How many nodes follow. -/
def rank : KeywordNode → Nat
  | .assembleContext => 4
  | .plan => 3
  | .execute => 2
  | .verify => 1
  | .respond => 0

theorem rank_lt {x y : KeywordNode} {s : KeywordGraphState} (h : st.graph.next x s = some y) : rank y < rank x := by
  cases x with
  | assembleContext | plan | verify =>
    obtain rfl := Option.some.inj h
    decide
  | execute =>
    change (if s.waitingApproval.getD false then some .respond else some .verify) = some y at h
    split at h
    · obtain rfl := Option.some.inj h
      decide
    · obtain rfl := Option.some.inj h
      decide
  | respond => cases h

/-- The graph is acyclic, so the limit is not met: five nodes are enough. -/
theorem invoke_five {s : KeywordGraphState} :
    st.graph.invoke recursionError recursionLimit s = st.graph.runFrom recursionError 5 .assembleContext s :=
  have hrank : ∀ x s y, st.graph.next x s = some y → rank y < rank x := fun _ _ _ h => rank_lt h
  StateGraph.runFrom_limit hrank (show 4 < 25 by decide) (show 4 < 5 by decide)

/-- **One program.**  Invoking the graph does what the statements do. -/
theorem invokeGraph_eq : st.invokeGraph task = st.runSequential task := by
  unfold invokeGraph runSequential
  rw [invoke_five]
  simp only [StateGraph.runFrom, graph, graphNode, graphEdge, KeywordGraphState.start, stateField, bind_assoc,
    pure_bind, Option.getD_some, Option.getD_none]
  refine congrArg (st.assembleContext task >>= ·) (funext fun ctx => ?_)
  refine congrArg (st.plan ctx >>= ·) (funext fun planResult => ?_)
  refine congrArg (st.execute task planResult >>= ·) (funext fun executed => ?_)
  obtain ⟨toolRecord, task⟩ := executed
  by_cases hwait : task.status = .waiting_approval
  · simp [hwait]
  · simp [hwait]

end KeywordStages

/-! ## Runs -/

/-- A trace event as it was recorded. -/
structure TraceEvent where
  eventType : String
  taskId : String
  detail : Dict

/-- The event without the engine that `task_started` names. -/
def TraceEvent.unlabelled (e : TraceEvent) : TraceEvent :=
  if e.eventType = "task_started" then { e with detail := e.detail.filter fun f => f.1 ≠ "engine" } else e

/-- The event of an operation that records one. -/
def recorded : (o : Op) → Except PyExc (Ans o) → List TraceEvent
  | .trace eventType taskId detail, .ok _ => [⟨eventType, taskId, detail⟩]
  | _, _ => []

section Runs

variable {W : Type} (answer : (o : Op) → W → Except PyExc (Ans o) × W)

/-- A world that answers in any way, with the trace. -/
def traced (o : Op) (w : W × List TraceEvent) : Except PyExc (Ans o) × W × List TraceEvent :=
  ((answer o w.1).1, (answer o w.1).2, w.2 ++ recorded o (answer o w.1).1)

/-- What answers does not look at the engine that `task_started` names. -/
def LabelBlind : Prop :=
  ∀ taskId query w, answer (.trace "task_started" taskId (AgentKernel.startedDetail query "langgraph")) w =
    answer (.trace "task_started" taskId (AgentKernel.startedDetail query "sequential")) w

/-- The same world, and the same trace but for the label. -/
def SameButLabel (w w' : W × List TraceEvent) : Prop :=
  w.1 = w'.1 ∧ w.2.map TraceEvent.unlabelled = w'.2.map TraceEvent.unlabelled

variable {answer} {w w' : W × List TraceEvent} {α β : Type}

/-- Two programs that do the same, from the same world and the same trace but for the label. -/
def Alike (answer : (o : Op) → W → Except PyExc (Ans o) × W) (p q : Py α) : Prop :=
  ∀ w w', SameButLabel w w' → (p.run (traced answer) w).1 = (q.run (traced answer) w').1 ∧
    SameButLabel (p.run (traced answer) w).2 (q.run (traced answer) w').2

theorem traced_same (o : Op) (h : SameButLabel w w') :
    (traced answer o w).1 = (traced answer o w').1 ∧ SameButLabel (traced answer o w).2 (traced answer o w').2 := by
  obtain ⟨hworld, htrace⟩ := h
  unfold traced
  rw [hworld]
  refine ⟨rfl, rfl, ?_⟩
  rw [List.map_append, List.map_append, htrace]

theorem Alike.refl (p : Py α) : Alike answer p p := fun _ _ h => Prog.run_rel (fun o _ _ h => traced_same o h) h

theorem Alike.bind {p q : Py α} {f g : α → Py β} (h : Alike answer p q) (hf : ∀ a, Alike answer (f a) (g a)) :
    Alike answer (p >>= f) (q >>= g) := by
  intro w w' hw
  obtain ⟨hvalue, hworld⟩ := h w w' hw
  rw [Prog.run_bind, Prog.run_bind]
  generalize p.run (traced answer) w = out at hvalue hworld
  generalize q.run (traced answer) w' = out' at hvalue hworld
  obtain ⟨r, w₁⟩ := out
  obtain ⟨r', w₁'⟩ := out'
  obtain rfl : r = r' := hvalue
  cases r with
  | error e => exact ⟨rfl, hworld⟩
  | ok a => exact hf a w₁ w₁' hworld

theorem Alike.tryCatch {p q : Py α} {handler : PyExc → Py α} (h : Alike answer p q) :
    Alike answer (MonadExcept.tryCatch p handler) (MonadExcept.tryCatch q handler) := by
  intro w w' hw
  obtain ⟨hvalue, hworld⟩ := h w w' hw
  rw [Prog.run_tryCatch, Prog.run_tryCatch]
  generalize p.run (traced answer) w = out at hvalue hworld
  generalize q.run (traced answer) w' = out' at hvalue hworld
  obtain ⟨r, w₁⟩ := out
  obtain ⟨r', w₁'⟩ := out'
  obtain rfl : r = r' := hvalue
  cases r with
  | error e => exact Alike.refl (handler e) w₁ w₁' hworld
  | ok a => exact ⟨rfl, hworld⟩

theorem Alike.guarded {task : TaskRun} {handler : TaskRun → PyExc → Py TaskRun} {p q : Py α} {next : α → Py TaskRun}
    (h : Alike answer p q) :
    Alike answer (AgentKernel.guarded task handler p next) (AgentKernel.guarded task handler q next) :=
  Alike.bind (Alike.tryCatch (h.bind fun _ => .refl _)) fun _ => .refl _

theorem recorded_unlabelled {taskId query label label' : String} {r : Except PyExc Unit} :
    (recorded (.trace "task_started" taskId (AgentKernel.startedDetail query label)) r).map TraceEvent.unlabelled =
      (recorded (.trace "task_started" taskId (AgentKernel.startedDetail query label')) r).map TraceEvent.unlabelled := by
  cases r <;> rfl

/-- The first trace of a run, under the one label or the other. -/
theorem alike_started (hblind : LabelBlind answer) {taskId query : String} :
    Alike answer (trace "task_started" taskId (AgentKernel.startedDetail query "langgraph"))
      (trace "task_started" taskId (AgentKernel.startedDetail query "sequential")) := by
  rintro w w' ⟨hworld, htrace⟩
  rw [Prog.run_call, Prog.run_call]
  unfold traced
  rw [hworld, hblind]
  refine ⟨rfl, rfl, ?_⟩
  rw [List.map_append, List.map_append, htrace]
  exact congrArg _ recorded_unlabelled

namespace AgentKernel

/-- The kernel's own stages. -/
def ownStages (k : AgentKernel) (task : TaskRun) : KeywordStages :=
  k.stages (fun _ => k.plan task) fun planResult toolResult verified =>
    pure (k.respond planResult toolResult verified)

theorem runSequential_ownStages {k : AgentKernel} {task task' : TaskRun} (htask : k.plan task' = k.plan task) :
    (k.ownStages task).runSequential task' = k.runNodes task' := by
  unfold KeywordStages.runSequential runNodes ownStages stages
  refine congrArg (k.assemble task' >>= ·) (funext fun ctx => ?_)
  show (k.plan task >>= _) = _
  rw [htask]
  refine congrArg (k.plan task >>= ·) (funext fun planResult => ?_)
  refine congrArg (k.execute task' planResult >>= ·) (funext fun executed => ?_)
  obtain ⟨toolResult, task⟩ := executed
  by_cases hwait : task.status = .waiting_approval
  · simp [hwait]
  · simp [hwait]

/-- The run of the kernel is the run on its engine. -/
theorem run_eq_runOn {k : AgentKernel} {engine : Engine} {task : TaskRun} (hengine : k.engine = engine.value) :
    k.run task = k.runOn (k.ownStages task) engine task := by
  have hnodes : (k.ownStages task).runEngine { task with status := .running } engine =
      k.runNodes { task with status := .running } := by
    rw [← runSequential_ownStages rfl]
    cases engine with
    | langgraph => exact KeywordStages.invokeGraph_eq
    | sequential => rfl
  unfold run runOn
  dsimp only
  rw [hnodes, hengine]
  rfl

theorem alike_runOn {k : AgentKernel} {st : KeywordStages} {task : TaskRun} (hblind : LabelBlind answer) :
    Alike answer (k.runOn st .langgraph task) (k.runOn st .sequential task) := by
  have hengine : ∀ task, st.runEngine task .langgraph = st.runEngine task .sequential := fun _ =>
    KeywordStages.invokeGraph_eq
  unfold runOn
  simp only [hengine]
  refine Alike.bind (.refl _) fun _ => Alike.guarded ?_
  exact (alike_started hblind).bind fun _ => .refl _

/-- **The engines agree.**  Whatever the stages do and whatever answers them, a run on the compiled graph and a
run of the statements end with the same task, or the same exception, in the same world, and leave the same trace
but for the engine that `task_started` names. -/
theorem engines_agree (k : AgentKernel) (planning : Dict → Py PlanResult)
    (answering : PlanResult → ToolResult → Bool → Py Dict) (task : TaskRun)
    (answer : (o : Op) → W → Except PyExc (Ans o) × W) (w : W) (hblind : LabelBlind answer) :
    ((k.runOn (k.stages planning answering) .langgraph task).run (traced answer) (w, [])).1 =
        ((k.runOn (k.stages planning answering) .sequential task).run (traced answer) (w, [])).1 ∧
      SameButLabel ((k.runOn (k.stages planning answering) .langgraph task).run (traced answer) (w, [])).2
        ((k.runOn (k.stages planning answering) .sequential task).run (traced answer) (w, [])).2 :=
  alike_runOn hblind _ _ ⟨rfl, rfl⟩

/-- A kernel that plans the refund for every query. -/
def demoKernel : AgentKernel where
  env := demoEnv
  engine := Engine.langgraph.value
  planner := demoPlanner "refund"
  multitoolPlanner _ := ⟨false, "", [], "", ""⟩
  orchestrator := ⟨⟨fun _ => false, fun _ => .error ""⟩, ⟨demoPlanner "refund", fun _ => ⟨false, "", [], "", ""⟩⟩,
    fun _ => ⟨false, "", []⟩⟩
  graphAdapter := none

def demoTask : TaskRun := ⟨"t", "q", .pending, none, none⟩

/-- With the stages of that kernel, which ask for an approval. -/
theorem engines_agree_demo :
    ((demoKernel.runOn (demoKernel.ownStages demoTask) .langgraph demoTask).run
        (traced (dbExec demoEnv [] 0)) (⟨[], fun _ => none, []⟩, [])).1 =
      ((demoKernel.runOn (demoKernel.ownStages demoTask) .sequential demoTask).run
        (traced (dbExec demoEnv [] 0)) (⟨[], fun _ => none, []⟩, [])).1 :=
  (engines_agree demoKernel (fun _ => demoKernel.plan demoTask)
    (fun planResult toolResult verified => pure (demoKernel.respond planResult toolResult verified)) demoTask
    (dbExec demoEnv [] 0) ⟨[], fun _ => none, []⟩ fun _ _ _ => rfl).1

end AgentKernel

end Runs

end AgentHarness
