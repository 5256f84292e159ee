import AgentHarness.Orchestrator

/-!
# GovernedStop — executions that governance has ended

The executor says in `error_type` that the policy has blocked a tool, that a tool is not whitelisted or that an
approval is required.  The reviewer looks for other flags, which some of these results lack.
-/

namespace AgentHarness

open Lib Py

namespace MultiAgentOrchestrator

/-- The path that has given the result: the mode that was asked for, or what `auto` reports. -/
def pathOf (mode : String) (d : Dict) : PyVal :=
  if mode = "nl2sql" ∨ mode = "multitool" ∨ mode = "keyword" then .str mode else Dict.get d "executed_mode"

def governedErrors : List String := ["policy_blocked", "operation_not_whitelisted", "approval_required"]

/-- The multi-tool pipeline or the keyword path has ended with such an error. -/
def IsGovernedStop (mode : String) (d : Dict) : Prop :=
  (pathOf mode d = .str "multitool" ∨ pathOf mode d = .str "keyword") ∧
    ∃ t ∈ governedErrors, Dict.get d "error_type" = .str t

/-- A refusal of the multi-tool pipeline: its result carries no flag. -/
def IsUnflagged (mode : String) (d : Dict) : Prop :=
  mode = "multitool" ∧
    (Dict.get d "error_type" = .str "policy_blocked" ∨ Dict.get d "error_type" = .str "operation_not_whitelisted")

end MultiAgentOrchestrator

/-! ## What the paths return -/

namespace MultiToolPipeline

/-- A result that reports a governed error is a failure, flagged where an approval is required. -/
structure Flagged (d : Dict) : Prop where
  failed : (∃ t ∈ MultiAgentOrchestrator.governedErrors, Dict.get d "error_type" = .str t) →
    (Dict.getD d "success" (.bool false)).truthy = false
  asks : Dict.get d "error_type" = .str "approval_required" → ReviewerAgent.isBlocked d = true
  refuses : (Dict.get d "error_type" = .str "policy_blocked" ∨
    Dict.get d "error_type" = .str "operation_not_whitelisted") → ReviewerAgent.isBlocked d = false

variable {env : Env} {plan : MultiToolPlan} {taskId query : String} {step : MultiToolPlanStep} {st : State}

/-- The entries of a failed result that the reviewer looks at. -/
theorem failedResult_entries {errorType answer : String} {extra : Dict} {toolCalls : List PyVal} :
    Dict.getD (failedResult plan step errorType extra answer toolCalls) "success" (.bool false) = .bool false ∧
      Dict.get (failedResult plan step errorType extra answer toolCalls) "error_type" = .str errorType := by
  refine ⟨rfl, rfl⟩

theorem flagged_failedResult {errorType answer : String} {extra : Dict} {toolCalls : List PyVal}
    (hblocked : ReviewerAgent.isBlocked (failedResult plan step errorType extra answer toolCalls) =
      decide (errorType = "approval_required")) :
    Flagged (failedResult plan step errorType extra answer toolCalls) := by
  obtain ⟨hsuccess, herror⟩ := @failedResult_entries plan step errorType answer extra toolCalls
  refine ⟨fun _ => congrArg PyVal.truthy hsuccess, fun h => ?_, fun h => ?_⟩
  · rw [herror] at h
    rw [hblocked]
    simpa using h
  · rw [herror] at h
    rw [hblocked]
    rcases h with h | h
    · simp only [PyVal.str.injEq] at h
      simp [h]
    · simp only [PyVal.str.injEq] at h
      simp [h]

theorem flagged_of_success {d : Dict} (h : Dict.get d "error_type" = .null) : Flagged d := by
  refine ⟨?_, fun ht => ?_, fun ht => ?_⟩
  · rintro ⟨t, -, ht⟩
    rw [h] at ht
    cases ht
  · rw [h] at ht
    cases ht
  · rw [h] at ht
    rcases ht with ht | ht <;> cases ht

theorem refuseUnregistered_flagged : (refuseUnregistered plan taskId step st).Returns Flagged := by
  unfold refuseUnregistered
  refine Prog.returns_bind fun _ => Prog.returns_bind fun _ => ?_
  exact flagged_failedResult rfl

theorem suspend_flagged {spec : ToolSpec} {decision : Decision} :
    (suspend plan taskId query step spec decision st).Returns Flagged := by
  unfold suspend
  refine Prog.returns_bind fun approval => Prog.returns_bind fun _ => Prog.returns_bind fun _ => ?_
  exact flagged_failedResult rfl

theorem refuse_flagged {decision : Decision} : (refuse plan taskId step decision st).Returns Flagged := by
  unfold refuse
  refine Prog.returns_bind fun _ => ?_
  exact flagged_failedResult rfl

theorem gateStep_flagged {spec : ToolSpec} :
    (gateStep env plan taskId query step spec st).Returns fun stopped => ∀ d, stopped = some d → Flagged d := by
  have hnone : (pure none : Py (Option Dict)).Returns fun stopped => ∀ d, stopped = some d → Flagged d :=
    fun d h => by cases h
  have hsome : ∀ p : Py Dict, p.Returns Flagged →
      (some <$> p).Returns fun stopped => ∀ d, stopped = some d → Flagged d := fun p hp =>
    Prog.returns_map (hp.mono fun d hd d' h => Option.some.inj h ▸ hd)
  unfold gateStep
  split
  · exact hnone
  · refine Prog.returns_bind fun decision => ?_
    split
    · exact hnone
    · split
      · exact hsome _ suspend_flagged
      · exact hsome _ refuse_flagged

theorem callStep_flagged {next : State → Py Dict} (hnext : ∀ st, (next st).Returns Flagged) :
    (callStep env plan taskId step st next).Returns Flagged := by
  unfold callStep
  split
  · refine Prog.returns_bind fun _ => ?_
    exact flagged_failedResult rfl
  · refine Prog.returns_bind fun _ => Prog.returns_bind fun record => ?_
    split
    · refine Prog.returns_bind fun _ => ?_
      exact flagged_failedResult rfl
    · exact Prog.returns_bind fun _ => hnext _

theorem runSteps_flagged {steps : List MultiToolPlanStep} :
    (runSteps env plan taskId query steps st).Returns Flagged := by
  induction steps generalizing st with
  | nil =>
    unfold runSteps
    refine Prog.returns_bind fun answer => ?_
    exact flagged_of_success rfl
  | cons step rest ih =>
    unfold runSteps
    dsimp only
    split
    · refine Prog.returns_bind fun _ => ?_
      exact flagged_failedResult rfl
    · refine Prog.returns_bind fun spec => ?_
      cases spec with
      | none => exact refuseUnregistered_flagged
      | some spec =>
        refine gateStep_flagged.bind fun stopped hstopped => ?_
        cases stopped with
        | some d => exact hstopped d rfl
        | none => exact callStep_flagged fun _ => ih

theorem run_flagged {planner : String → MultiToolPlan} : (run env planner query taskId).Returns Flagged := by
  unfold run
  split
  · exact flagged_of_success rfl
  · exact runSteps_flagged

end MultiToolPipeline

namespace ExecutorAgent

open MultiToolPipeline

variable {env : Env} {x : ExecutorAgent} {req : RunRequest}

theorem executeMultitool_flagged : (executeMultitool env x req).Returns fun out => Flagged out.1 := by
  unfold executeMultitool
  refine Prog.returns_bind fun _ => run_flagged.bind fun result hresult => Prog.returns_bind fun _ => hresult

/-- A governed error of the keyword path is a block, and flagged. -/
structure KeywordFlagged (d : Dict) : Prop where
  flagged : (∃ t ∈ MultiAgentOrchestrator.governedErrors, Dict.get d "error_type" = .str t) →
    (Dict.getD d "success" (.bool false)).truthy = false ∧ ReviewerAgent.isBlocked d = true

theorem keywordFlagged_of_no_error {d : Dict} (h : Dict.get d "error_type" = .null) : KeywordFlagged d := by
  refine ⟨?_⟩
  rintro ⟨t, -, ht⟩
  rw [h] at ht
  cases ht

theorem callKeyword_flagged {toolName : String} :
    (callKeyword env x toolName).Returns fun out => KeywordFlagged out.1 := by
  unfold callKeyword
  refine Prog.returns_bind fun record => keywordFlagged_of_no_error ?_
  unfold keywordCalled
  split <;> rfl

theorem executeKeyword_flagged : (executeKeyword env x req).Returns fun out => KeywordFlagged out.1 := by
  unfold executeKeyword
  refine Prog.returns_bind fun _ => ?_
  dsimp only
  split
  · exact keywordFlagged_of_no_error rfl
  · split
    · exact keywordFlagged_of_no_error rfl
    · split
      · exact keywordFlagged_of_no_error rfl
      · refine Prog.returns_bind fun decision => ?_
        cases decision with
        | none => exact callKeyword_flagged
        | some decision =>
          dsimp only
          split
          · exact callKeyword_flagged
          · exact ⟨fun _ => ⟨rfl, rfl⟩⟩

/-- What `auto` adds leaves the entries that are looked at. -/
theorem autoResult_entries {result : Dict} {mode reason : String} {confidence : Rat} {chain : List String} :
    Dict.get (autoResult result mode reason confidence chain).1 "executed_mode" = .str mode ∧
      ∀ k, k ≠ "executed_mode" → k ≠ "fallback_chain" →
        Dict.get? (autoResult result mode reason confidence chain).1 k = Dict.get? result k := by
  unfold autoResult
  refine ⟨?_, fun k hk hk' => ?_⟩
  · simp [Dict.get, Dict.getD, Dict.get?_set_ne]
  · rw [Dict.get?_set_ne hk', Dict.get?_set_ne hk]

theorem keywordFlagged_autoResult {result : Dict} {mode reason : String} {confidence : Rat} {chain : List String}
    (h : KeywordFlagged result) : KeywordFlagged (autoResult result mode reason confidence chain).1 := by
  obtain ⟨-, hsame⟩ := @autoResult_entries result mode reason confidence chain
  have hget : ∀ k v, k ≠ "executed_mode" → k ≠ "fallback_chain" →
      Dict.getD (autoResult result mode reason confidence chain).1 k v = Dict.getD result k v := fun k v hk hk' =>
    congrArg (Option.getD · v) (hsame k hk hk')
  refine ⟨?_⟩
  rintro ⟨t, ht, herror⟩
  have herror' : Dict.get result "error_type" = .str t := by
    rw [← herror]
    exact (hget "error_type" .null (by decide) (by decide)).symm
  obtain ⟨hsuccess, hblocked⟩ := h.flagged ⟨t, ht, herror'⟩
  refine ⟨?_, ?_⟩
  · rw [hget "success" _ (by decide) (by decide)]
    exact hsuccess
  · rw [← hblocked]
    unfold ReviewerAgent.isBlocked Dict.get
    rw [hget "blocked" _ (by decide) (by decide), hget "requires_approval" _ (by decide) (by decide)]

/-- A governed stop of `auto` is a block of its keyword path. -/
theorem executeAuto_flagged : (executeAuto env x req).Returns fun out =>
    (Dict.get out.1 "executed_mode" = .str "multitool" ∨ Dict.get out.1 "executed_mode" = .str "keyword") →
      KeywordFlagged out.1 := by
  unfold executeAuto
  refine Prog.returns_bind fun nl2sql => Prog.returns_bind fun success => ?_
  split
  · intro hmode
    rw [autoResult_entries.1] at hmode
    exact absurd hmode (by simp)
  · refine executeMultitool_flagged.bind fun mt hmt => ?_
    refine (Prog.returns_ofExcept fun success hsuccess => hsuccess).bind fun success hsuccess => ?_
    split
    · rename_i htruthy
      refine fun _ => keywordFlagged_autoResult ⟨fun herror => ?_⟩
      have hfailed := hmt.failed herror
      have hentry : Dict.get? mt.1 "success" = some success := by
        unfold Dict.index at hsuccess
        split at hsuccess
        · rename_i hget
          rw [hget, Except.ok.inj hsuccess]
        · cases hsuccess
      unfold Dict.getD at hfailed
      rw [hentry] at hfailed
      exact absurd htruthy (by simpa using hfailed)
    · exact executeKeyword_flagged.bind fun kw hkw _ => keywordFlagged_autoResult hkw

end ExecutorAgent

/-! ## What follows the first execution -/

namespace MultiAgentOrchestrator

open ExecutorAgent

variable {env : Env} {o : MultiAgentOrchestrator} {req : RunRequest} {mode : String} {d : Dict}

theorem suggestion_of_blocked (hsuccess : (Dict.getD d "success" (.bool false)).truthy = false)
    (hblocked : ReviewerAgent.isBlocked d = true) : suggestion d mode = none := by
  unfold suggestion ReviewerAgent.review
  simp [hsuccess, hblocked]

theorem suggestion_of_failed (hsuccess : (Dict.getD d "success" (.bool false)).truthy = false)
    (hblocked : ReviewerAgent.isBlocked d = false) : suggestion d "multitool" = some "keyword" := by
  unfold suggestion ReviewerAgent.review
  simp [hsuccess, hblocked, ReviewerAgent.suggestFallback]

/-- The review of a governed stop suggests a fallback exactly for the unflagged ones. -/
theorem execute_suggestion : (o.executor.execute env req mode).Returns fun out => IsGovernedStop mode out.1 →
    (suggestion out.1 mode = none ↔ ¬ IsUnflagged mode out.1) := by
  have hkeyword : ∀ d, KeywordFlagged d → mode ≠ "multitool" → IsGovernedStop mode d →
      (suggestion d mode = none ↔ ¬ IsUnflagged mode d) := by
    intro d hd hmode hstop
    obtain ⟨hsuccess, hblocked⟩ := hd.flagged hstop.2
    exact iff_of_true (suggestion_of_blocked hsuccess hblocked) fun h => hmode h.1
  unfold ExecutorAgent.execute
  split
  · rename_i hmode
    subst hmode
    refine Prog.returns_true.mono fun out _ hstop => ?_
    exact absurd hstop.1 (by simp [pathOf])
  · rename_i hnl2sql
    split
    · rename_i hmode
      subst hmode
      refine executeMultitool_flagged.mono fun out hout hstop => ?_
      have hsuccess := hout.failed hstop.2
      by_cases hunflagged : IsUnflagged "multitool" out.1
      · rw [suggestion_of_failed hsuccess (hout.refuses hunflagged.2)]
        exact iff_of_false (by simp) (not_not.mpr hunflagged)
      · have hasks : Dict.get out.1 "error_type" = .str "approval_required" := by
          obtain ⟨t, ht, herror⟩ := hstop.2
          rcases List.mem_cons.mp ht with rfl | ht
          · exact absurd ⟨rfl, .inl herror⟩ hunflagged
          · rcases List.mem_cons.mp ht with rfl | ht
            · exact absurd ⟨rfl, .inr herror⟩ hunflagged
            · obtain rfl := List.mem_singleton.mp ht
              exact herror
        exact iff_of_true (suggestion_of_blocked hsuccess (hout.asks hasks)) hunflagged
    · rename_i hmultitool
      split
      · rename_i hmode
        exact executeKeyword_flagged.mono fun out hout => hkeyword out.1 hout hmultitool
      · rename_i hmode
        refine executeAuto_flagged.mono fun out hout hstop => hkeyword out.1 (hout ?_) hmultitool hstop
        have hpath := hstop.1
        unfold pathOf at hpath
        rwa [if_neg (by tauto)] at hpath

/-! ## The runs of the service -/

/-- The executor and the recorder of the service, over its stores. -/
def serviceAnswer (env : Env) (o : MultiAgentOrchestrator) (req : RunRequest) (op : OrchestratorOp) (w : World) :
    Except PyExc op.Answer × World := (handler env o req op).run (exec env 0) w

/-- The executions of a run, in order. -/
def serviceLog (env : Env) (o : MultiAgentOrchestrator) (req : RunRequest) (w : World) : List Execution :=
  ((runAsking env o.coordinator o.riskIntentGuard req.query).run (watched (serviceAnswer env o req)) (w, [])).2.2

/-- A governed stop of the first execution is the last one. -/
def NeverRetried (l : List Execution) : Prop :=
  ∀ first rest d decision, l = first :: rest → first.result = .ok (d, decision) →
    IsGovernedStop first.mode d → rest = []

/-- The first execution is no refusal of the multi-tool pipeline. -/
def NotUnflagged (l : List Execution) : Prop :=
  ∀ first rest d decision, l = first :: rest → first.result = .ok (d, decision) → ¬ IsUnflagged first.mode d

theorem service_traces {eventType : String} {detail : Dict} {w : World} :
    (serviceAnswer env o req (.trace eventType detail) w).1 = .ok () := by
  show ((traceTask eventType req.taskId detail).run (exec env 0) w).1 = .ok ()
  unfold traceTask
  split
  · rfl
  · rfl

theorem IsUnflagged.isGovernedStop (h : IsUnflagged mode d) : IsGovernedStop mode d := by
  obtain ⟨rfl, herror⟩ := h
  refine ⟨.inl rfl, ?_⟩
  rcases herror with herror | herror
  · exact ⟨_, by decide, herror⟩
  · exact ⟨_, by decide, herror⟩

/-- Every execution of the log was answered by the executor. -/
theorem watched_answered {W α : Type} {answer : (op : OrchestratorOp) → W → Except PyExc op.Answer × W}
    {p : OrchestratorProg α} {w : W × List Execution} {e : Execution} (he : e ∈ (p.run (watched answer) w).2.2) :
    e ∈ w.2 ∨ ∃ w', e.result = (answer (.execute e.mode) w').1 := by
  induction p generalizing w with
  | ret a => exact .inl he
  | raise exc => exact .inl he
  | op op k ih =>
    rcases ih _ he with hmem | hanswered
    · cases op with
      | execute mode =>
        rcases List.mem_append.mp hmem with hmem | hmem
        · exact .inl hmem
        · obtain rfl := List.mem_singleton.mp hmem
          exact .inr ⟨w.1, rfl⟩
      | trace eventType detail => exact .inl hmem
    · exact .inr hanswered

/-- The first execution of a run that has one is followed by a second exactly where its review suggests it. -/
theorem serviceLog_spec {w : World} {first : Execution} {rest : List Execution} {decision : AgentDecision}
    (hlog : serviceLog env o req w = first :: rest) (hresult : first.result = .ok (d, decision)) :
    (rest = [] ↔ suggestion d first.mode = none) ∧
      (IsGovernedStop first.mode d → (suggestion d first.mode = none ↔ ¬ IsUnflagged first.mode d)) := by
  obtain ⟨hspec, -⟩ := @run_executions World (serviceAnswer env o req) (w, []) _ False _
    (runAsking env o.coordinator o.riskIntentGuard req.query) (fun _ _ _ => .inl service_traces) run_spec
  change serviceLog env o req w = [] ∨ ∃ mode st, Staged False mode st (serviceLog env o req w) at hspec
  rw [hlog] at hspec
  obtain hnil | ⟨mode, st, hst⟩ := hspec
  · cases hnil
  refine ⟨?_, ?_⟩
  · obtain ⟨first', ⟨hone, hsuggest⟩ | ⟨d', decision', fallbackMode, second, hfirst, hsuggest, htwo⟩⟩ := hst.executed
    · obtain ⟨rfl, rfl⟩ := List.cons.inj hone
      exact iff_of_true rfl ((hsuggest d decision hresult).resolve_right id)
    · obtain ⟨rfl, rfl⟩ := List.cons.inj htwo
      obtain ⟨rfl, rfl⟩ := Prod.mk.inj (Except.ok.inj (hfirst.symm.trans hresult))
      refine iff_of_false (by simp) ?_
      rw [hsuggest]
      simp
  · have hmem : first ∈ serviceLog env o req w := by
      rw [hlog]
      exact List.mem_cons_self
    obtain hold | ⟨w', hanswer⟩ := watched_answered hmem
    · cases hold
    · rw [hresult] at hanswer
      exact execute_suggestion.run hanswer.symm

/-- **Governed stops.**  An execution that the policy, the whitelist or a pending approval has ended is never
followed by a fallback exactly in the runs whose first execution is no refusal of the multi-tool pipeline. -/
theorem governed_stop_final (env : Env) (o : MultiAgentOrchestrator) (req : RunRequest) (w : World) :
    NeverRetried (serviceLog env o req w) ↔ NotUnflagged (serviceLog env o req w) := by
  constructor
  · intro h first rest d decision hlog hresult hunflagged
    have hstop : IsGovernedStop first.mode d := hunflagged.isGovernedStop
    obtain ⟨hrest, hsuggest⟩ := serviceLog_spec hlog hresult
    exact (hsuggest hstop).mp (hrest.mp (h first rest d decision hlog hresult hstop)) hunflagged
  · intro h first rest d decision hlog hresult hstop
    obtain ⟨hrest, hsuggest⟩ := serviceLog_spec hlog hresult
    exact hrest.mpr ((hsuggest hstop).mpr (h first rest d decision hlog hresult))

/-- A plan whose one step calls a tool that is not registered. -/
def ghostPlan : MultiToolPlan := ⟨true, "refund_rule", [⟨"step1", "ghost", [], [], none⟩], "", ""⟩

def ghostOrchestrator : MultiAgentOrchestrator :=
  ⟨rulesOnly, ⟨demoPlanner "report", fun _ => ghostPlan⟩, fun _ => ⟨false, "", []⟩⟩

def ghostRequest : RunRequest := ⟨"退款规则", "t", "mock", none, true⟩

/-- The pipeline refuses the tool, and the keyword path is run after it. -/
theorem governed_stop_retried :
    ¬ ∀ (env : Env) (o : MultiAgentOrchestrator) (req : RunRequest) (w : World), NeverRetried (serviceLog env o req w) := by
  intro h
  have hmodes : (serviceLog demoEnv ghostOrchestrator ghostRequest ⟨⟨[], fun _ => none, []⟩, []⟩).map Execution.mode =
      ["multitool", "keyword"] := by decide +kernel
  have hunflagged : ∀ e ∈ (serviceLog demoEnv ghostOrchestrator ghostRequest ⟨⟨[], fun _ => none, []⟩, []⟩).head?,
      ∃ d decision, e.result = .ok (d, decision) ∧ IsUnflagged e.mode d := by
    rintro e ⟨⟩
    exact ⟨_, _, rfl, rfl, .inr rfl⟩
  generalize hlog : serviceLog demoEnv ghostOrchestrator ghostRequest ⟨⟨[], fun _ => none, []⟩, []⟩ = l at hmodes hunflagged
  rcases l with _ | ⟨first, rest⟩
  · cases hmodes
  · obtain ⟨d, decision, hresult, hstop⟩ := hunflagged first rfl
    have hrest := h _ _ _ _ first rest d decision hlog hresult hstop.isGovernedStop
    rw [hrest] at hmodes
    simp at hmodes

end MultiAgentOrchestrator

end AgentHarness
