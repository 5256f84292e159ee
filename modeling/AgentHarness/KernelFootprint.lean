import AgentHarness.Footprint
import AgentHarness.Kernel

/-!
# KernelFootprint — which operations a run of the kernel can perform

`KernelOp` covers every mode of `run_with_options`: a run creates pending approvals and fresh checkpoints, and
calls tools from its own call sites.  It never reads or decides an approval, never touches the task store, and
never calls a tool on behalf of an approval.
-/

namespace AgentHarness

open Lib Py

/-- The call sites of a run that no approval stands behind. -/
def CallSite.isRun : CallSite → Bool
  | .keyword | .graphKeyword | .executor | .pipelineStep _ => true
  | _ => false

/-- What a run of the kernel may do. -/
def KernelOp : Op → Prop
  | .insertApproval row => row.status = .pending
  | .insertCheckpoint row => FreshCheckpoint row
  | .gatewayCall site _ _ => site.isRun = true
  | .getCheckpoint _ | .markPendingInterrupt _ _ _ _ | .now | .uuid | .getTool _ | .evaluate _ _ => True
  | .nl2sql _ | .trace _ _ _ | .audit _ | .enterMode _ | .hook _ _ => True
  | _ => False

theorem RunKeywordOp.kernel {o : Op} (h : RunKeywordOp o) : KernelOp o := by
  cases o with
  | gatewayCall site tool args =>
    obtain rfl : site = .graphKeyword := h
    rfl
  | _ => first | exact h | exact h.elim

theorem traceTask_kernelOp {e t : String} {d : Dict} : (traceTask e t d).Uses KernelOp := traceTask_uses trivial

theorem recordAudit_kernelOp {f : Dict} : (recordAudit f).Uses KernelOp := recordAudit_uses trivial

theorem createApproval_kernelOp {taskId toolName action scope reason : String} {risk : RiskLevel} {payload : Dict} :
    (createApproval taskId toolName action risk scope reason payload).Uses KernelOp :=
  Prog.uses_call.mpr rfl

/-! ## The multi-tool pipeline -/

namespace MultiToolPipeline

variable {env : Env} {plan : MultiToolPlan} {taskId query : String} {st : State}

theorem gateStep_kernelOp {step : MultiToolPlanStep} {spec : ToolSpec} :
    (gateStep env plan taskId query step spec st).Uses KernelOp := by
  unfold gateStep
  split
  · trivial
  refine Prog.uses_call_bind.mpr ⟨trivial, fun decision => ?_⟩
  split
  · trivial
  split
  · refine Prog.uses_map.mpr (createApproval_kernelOp.bind fun _ => ?_)
    exact traceTask_kernelOp.bind fun _ => recordAudit_kernelOp.bind fun _ => trivial
  · exact Prog.uses_map.mpr (traceTask_kernelOp.bind fun _ => trivial)

theorem callStep_kernelOp {step : MultiToolPlanStep} {next : State → Py Dict} (hnext : ∀ st, (next st).Uses KernelOp) :
    (callStep env plan taskId step st next).Uses KernelOp := by
  unfold callStep
  split
  · exact traceTask_kernelOp.bind fun _ => trivial
  refine traceTask_kernelOp.bind fun _ => Prog.uses_call_bind.mpr ⟨rfl, fun record => ?_⟩
  split
  · exact traceTask_kernelOp.bind fun _ => trivial
  · exact traceTask_kernelOp.bind fun _ => hnext _

theorem runSteps_kernelOp {steps : List MultiToolPlanStep} :
    (runSteps env plan taskId query steps st).Uses KernelOp := by
  induction steps generalizing st with
  | nil => exact Prog.uses_ofExcept_bind fun _ _ => trivial
  | cons step rest ih =>
    unfold runSteps
    dsimp only
    split
    · exact traceTask_kernelOp.bind fun _ => trivial
    refine Prog.uses_call_bind.mpr ⟨trivial, fun spec => ?_⟩
    cases spec with
    | none => exact traceTask_kernelOp.bind fun _ => recordAudit_kernelOp.bind fun _ => trivial
    | some spec =>
      refine gateStep_kernelOp.bind fun stopped => ?_
      cases stopped with
      | some stopped => trivial
      | none => exact callStep_kernelOp fun _ => ih

theorem run_kernelOp {planner : String → MultiToolPlan} : (run env planner query taskId).Uses KernelOp := by
  unfold run
  split
  · trivial
  · exact runSteps_kernelOp

end MultiToolPipeline

/-! ## The multi-agent orchestrator -/

namespace ExecutorAgent

variable {env : Env} {x : ExecutorAgent} {req : RunRequest}

theorem executeNl2sql_kernelOp : (executeNl2sql req).Uses KernelOp := by
  refine Prog.uses_call_bind.mpr ⟨trivial, fun _ => Prog.uses_call_bind.mpr ⟨trivial, fun result => ?_⟩⟩
  exact Prog.uses_ofExcept_bind fun _ _ => trivial

theorem executeMultitool_kernelOp : (executeMultitool env x req).Uses KernelOp := by
  refine Prog.uses_call_bind.mpr ⟨trivial, fun _ => MultiToolPipeline.run_kernelOp.bind fun result => ?_⟩
  exact Prog.uses_ofExcept_bind fun _ _ => trivial

theorem callKeyword_kernelOp {tool : String} : (callKeyword env x tool).Uses KernelOp :=
  Prog.uses_call_bind.mpr ⟨rfl, fun _ => trivial⟩

theorem keywordPolicy_kernelOp {tool : String} : (keywordPolicy env tool).Uses KernelOp := by
  refine Prog.uses_call_bind.mpr ⟨trivial, fun spec => ?_⟩
  cases spec with
  | none => trivial
  | some spec =>
    dsimp only
    split
    · trivial
    · exact Prog.uses_map.mpr (Prog.uses_call.mpr trivial)

theorem executeKeyword_kernelOp : (executeKeyword env x req).Uses KernelOp := by
  unfold executeKeyword
  refine Prog.uses_call_bind.mpr ⟨trivial, fun _ => ?_⟩
  dsimp only
  split
  · trivial
  split
  · trivial
  split
  · trivial
  refine keywordPolicy_kernelOp.bind fun decision => ?_
  cases decision with
  | none => exact callKeyword_kernelOp
  | some decision =>
    dsimp only
    split
    · exact callKeyword_kernelOp
    · trivial

theorem executeAuto_kernelOp : (executeAuto env x req).Uses KernelOp := by
  refine executeNl2sql_kernelOp.bind fun result => Prog.uses_ofExcept_bind fun success _ => ?_
  split
  · trivial
  refine executeMultitool_kernelOp.bind fun result => Prog.uses_ofExcept_bind fun success _ => ?_
  split
  · trivial
  · exact executeKeyword_kernelOp.bind fun _ => trivial

theorem execute_kernelOp {mode : String} : (execute env x req mode).Uses KernelOp := by
  unfold execute
  split
  · exact executeNl2sql_kernelOp
  split
  · exact executeMultitool_kernelOp
  split
  · exact executeKeyword_kernelOp
  · exact executeAuto_kernelOp

end ExecutorAgent

namespace MultiAgentOrchestrator

variable {env : Env} {req : RunRequest} {tr : String → Dict → Py Unit} {execute : String → Py (Dict × AgentDecision)}

theorem stages_kernelOp (htrace : ∀ e d, (tr e d).Uses KernelOp) (hexecute : ∀ mode, (execute mode).Uses KernelOp)
    {mode : String} {decisions : List AgentDecision} : (stages tr execute mode decisions).Uses KernelOp := by
  refine (hexecute mode).bind fun result => (htrace _ _).bind fun _ => (htrace _ _).bind fun _ => ?_
  dsimp only
  split
  · trivial
  refine (htrace _ _).bind fun _ => (hexecute _).bind fun result => (htrace _ _).bind fun _ => ?_
  exact (htrace _ _).bind fun _ => (htrace _ _).bind fun _ => trivial

theorem conclude_kernelOp (htrace : ∀ e d, (tr e d).Uses KernelOp) {st : Stages} :
    (conclude tr env st).Uses KernelOp := by
  unfold conclude
  refine Prog.uses_ofExcept_bind fun answer _ => Prog.uses_ofExcept_bind fun _ _ => ?_
  refine Prog.uses_ofExcept_bind fun _ _ => ?_
  split
  · exact (htrace _ _).bind fun _ => trivial
  · exact (htrace _ _).bind fun _ => trivial

theorem run_kernelOp {o : MultiAgentOrchestrator} : (o.run env req).Uses KernelOp := by
  have htrace : ∀ e d, (traceTask e req.taskId d).Uses KernelOp := fun _ _ => traceTask_kernelOp
  unfold run runOver
  refine (htrace _ _).bind fun _ => ?_
  dsimp only
  split
  · exact (htrace _ _).bind fun _ => (htrace _ _).bind fun _ => trivial
  refine Prog.uses_ofExcept_bind fun decision _ => (htrace _ _).bind fun _ => (htrace _ _).bind fun _ => ?_
  refine (stages_kernelOp htrace fun mode => ?_).bind fun st => conclude_kernelOp htrace
  exact ExecutorAgent.execute_kernelOp

end MultiAgentOrchestrator

/-! ## The kernel -/

namespace AgentKernel

variable {k : AgentKernel} {task : TaskRun} {opts : RunOptions}

theorem guarded_kernelOp {α : Type} {t : TaskRun} {handler : TaskRun → PyExc → Py TaskRun} {p : Py α}
    {next : α → Py TaskRun} (hhandler : ∀ e, (handler t e).Uses KernelOp) (hp : p.Uses KernelOp)
    (hnext : ∀ a, (next a).Uses KernelOp) : (guarded t handler p next).Uses KernelOp := by
  unfold guarded
  refine Prog.Uses.bind (Prog.Uses.tryCatch (hp.bind fun _ => trivial) fun _ => trivial) fun outcome => ?_
  cases outcome with
  | ok a => exact hnext a
  | error e => exact hhandler e

theorem trace_kernelOp {e t : String} {d : Dict} : (trace e t d).Uses KernelOp := Prog.uses_call.mpr trivial

theorem traceCompleted_kernelOp {result : String} : (traceCompleted task result).Uses KernelOp := trace_kernelOp

theorem runHooks_kernelOp {t stage : String} {payload : Dict} : (runHooks t stage payload).Uses KernelOp := by
  refine Prog.uses_call_bind.mpr ⟨trivial, fun left => ?_⟩
  unfold checkHookErrors
  dsimp only
  split
  · exact trace_kernelOp
  · trivial

theorem gate_kernelOp {tool : String} {arguments : Dict} {planResult : PlanResult} :
    (k.gate task tool arguments planResult).Uses KernelOp := by
  refine Prog.uses_call_bind.mpr ⟨trivial, fun spec => ?_⟩
  cases spec with
  | none => trivial
  | some spec =>
    refine Prog.uses_call_bind.mpr ⟨trivial, fun decision => ?_⟩
    split
    · trivial
    split
    · exact Prog.uses_map.mpr (createApproval_kernelOp.bind fun _ => trace_kernelOp.bind fun _ => trivial)
    · exact trace_kernelOp.bind fun _ => trivial

theorem callTool_kernelOp {tool : String} {arguments : Dict} : (callTool task tool arguments).Uses KernelOp := by
  refine runHooks_kernelOp.bind fun _ => Prog.uses_call_bind.mpr ⟨rfl, fun record => ?_⟩
  exact runHooks_kernelOp.bind fun _ => trace_kernelOp.bind fun _ => trivial

theorem execute_kernelOp {planResult : PlanResult} : (k.execute task planResult).Uses KernelOp := by
  unfold execute
  split
  · trivial
  split
  · trivial
  refine gate_kernelOp.bind fun stopped => ?_
  cases stopped with
  | some stopped => trivial
  | none => exact callTool_kernelOp

theorem failRun_kernelOp {t : TaskRun} (e : PyExc) : (failRun t e).Uses KernelOp :=
  Prog.uses_call_bind.mpr ⟨trivial, fun _ => trace_kernelOp.bind fun _ => trivial⟩

theorem run_kernelOp : (k.run task).Uses KernelOp := by
  refine Prog.uses_call_bind.mpr ⟨trivial, fun _ => guarded_kernelOp failRun_kernelOp ?_ fun result => ?_⟩
  · refine trace_kernelOp.bind fun _ => runHooks_kernelOp.bind fun _ => ?_
    refine Prog.Uses.bind (trace_kernelOp.bind fun _ => trivial) fun _ => ?_
    refine Prog.Uses.bind (trace_kernelOp.bind fun _ => trivial) fun planResult => ?_
    exact execute_kernelOp.bind fun _ => trivial
  · dsimp only
    split
    · trivial
    · refine guarded_kernelOp failRun_kernelOp ?_ fun _ => trivial
      exact runHooks_kernelOp.bind fun _ => trace_kernelOp.bind fun _ => trivial

theorem runGraph_kernelOp {adapter : Planner} : (k.runGraph adapter task).Uses KernelOp := by
  refine Prog.uses_call_bind.mpr ⟨trivial, fun _ => Prog.Uses.bind ?_ fun payload => trivial⟩
  exact GraphRuntimeAdapter.runKeyword_uses.mono fun _ => RunKeywordOp.kernel

theorem failMode_kernelOp {mode answerKey label : String} {t : TaskRun} (e : PyExc) :
    (failMode mode answerKey label t e).Uses KernelOp := trace_kernelOp.bind fun _ => trivial

theorem runNl2sql_kernelOp : (k.runNl2sql task opts).Uses KernelOp := by
  refine Prog.uses_call_bind.mpr ⟨trivial, fun _ => guarded_kernelOp failMode_kernelOp ?_ fun result => ?_⟩
  · exact trace_kernelOp.bind fun _ => trace_kernelOp.bind fun _ => Prog.uses_call.mpr trivial
  · refine guarded_kernelOp failMode_kernelOp ?_ fun _ => trivial
    refine Prog.uses_ofExcept_bind fun _ _ => Prog.uses_ofExcept_bind fun _ _ => Prog.uses_ofExcept_bind fun _ _ => ?_
    exact trace_kernelOp.bind fun _ => traceCompleted_kernelOp

theorem runMultitool_kernelOp : (k.runMultitool task).Uses KernelOp := by
  refine Prog.uses_call_bind.mpr ⟨trivial, fun _ => guarded_kernelOp failMode_kernelOp ?_ fun result => ?_⟩
  · exact trace_kernelOp.bind fun _ => trace_kernelOp.bind fun _ => MultiToolPipeline.run_kernelOp
  dsimp only
  split
  · exact guarded_kernelOp failMode_kernelOp trace_kernelOp fun _ => trivial
  refine guarded_kernelOp failMode_kernelOp (Prog.uses_ofExcept_bind fun success _ => ?_) fun _ => trivial
  split
  · exact Prog.uses_ofExcept_bind fun _ _ => trace_kernelOp.bind fun _ => traceCompleted_kernelOp
  · exact trace_kernelOp.bind fun _ => traceCompleted_kernelOp

theorem runMultiAgent_kernelOp : (k.runMultiAgent task opts).Uses KernelOp := by
  refine Prog.uses_call_bind.mpr ⟨trivial, fun _ => guarded_kernelOp failMode_kernelOp ?_ fun result => ?_⟩
  · exact trace_kernelOp.bind fun _ => MultiAgentOrchestrator.run_kernelOp
  · exact guarded_kernelOp failMode_kernelOp traceCompleted_kernelOp fun _ => trivial

theorem autoKeyword_kernelOp {chain : List String} {reason : String} :
    (k.autoKeyword task chain reason).Uses KernelOp := run_kernelOp.bind fun _ => trivial

theorem autoFailed_kernelOp {chain : List String} {t : TaskRun} (e : PyExc) :
    (k.autoFailed chain t e).Uses KernelOp :=
  trace_kernelOp.bind fun _ => trace_kernelOp.bind fun _ => autoKeyword_kernelOp

theorem autoMultitool_kernelOp : (k.autoMultitool task).Uses KernelOp := by
  refine guarded_kernelOp autoFailed_kernelOp ?_ fun result => ?_
  · refine Prog.uses_call_bind.mpr ⟨trivial, fun _ => trace_kernelOp.bind fun _ => trace_kernelOp.bind fun _ => ?_⟩
    exact MultiToolPipeline.run_kernelOp.bind fun result => Prog.uses_ofExcept_bind fun _ _ => trivial
  dsimp only
  split
  · refine guarded_kernelOp autoFailed_kernelOp ?_ fun _ => trivial
    exact trace_kernelOp.bind fun _ => traceCompleted_kernelOp
  · refine guarded_kernelOp autoFailed_kernelOp trace_kernelOp fun _ => ?_
    exact guarded_kernelOp autoFailed_kernelOp (trace_kernelOp.bind fun _ => autoKeyword_kernelOp) fun _ => trivial

theorem runAuto_kernelOp : (k.runAuto task opts).Uses KernelOp := by
  refine guarded_kernelOp autoFailed_kernelOp ?_ fun result => ?_
  · refine Prog.uses_call_bind.mpr ⟨trivial, fun _ => trace_kernelOp.bind fun _ => trace_kernelOp.bind fun _ => ?_⟩
    exact Prog.uses_call_bind.mpr ⟨trivial, fun result => Prog.uses_ofExcept_bind fun _ _ => trivial⟩
  dsimp only
  split
  · refine guarded_kernelOp autoFailed_kernelOp ?_ fun _ => trivial
    exact trace_kernelOp.bind fun _ => traceCompleted_kernelOp
  · exact guarded_kernelOp autoFailed_kernelOp trace_kernelOp fun _ => autoMultitool_kernelOp

/-- **Every mode** keeps to the operations of a run. -/
theorem runWithOptions_kernelOp {mode : String} : (k.runWithOptions mode task opts).Uses KernelOp := by
  unfold runWithOptions
  split
  · split
    · exact runGraph_kernelOp
    · exact run_kernelOp
  split
  · exact runNl2sql_kernelOp
  split
  · exact runMultitool_kernelOp
  split
  · exact runMultiAgent_kernelOp
  split
  · exact runAuto_kernelOp
  · exact run_kernelOp

end AgentKernel

end AgentHarness
