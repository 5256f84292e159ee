import AgentHarness.ModeSuspension

/-!
# AgentSuspension — a pending approval under `multi_agent`, and in every mode

The executor runs the multi-tool pipeline as the mode the coordinator selects, inside its own `auto`, or as the
fallback that the review suggests.  Wherever that pipeline is suspended the orchestrator returns a result as usual,
and the kernel completes the task.
-/

namespace AgentHarness

open Lib Py

namespace ExecutorAgent

variable (env : Env) (x : ExecutorAgent) (req : RunRequest)

/-- An execution with this mode asks for an approval, after `calls` and `runs` of NL2SQL. -/
def asks (mode : String) (calls : List Call) (runs : Nat) : Bool :=
  if mode = "nl2sql" then false
  else if mode = "multitool" then pipelineAsks env x.multitoolPlanner req.query calls
  else if mode = "keyword" then false
  else autoAsks env x.multitoolPlanner req calls runs

/-- The answer of the policy, when there is a spec and an engine. -/
def policyAnswer (toolName : String) : Option Decision :=
  match env.gateway.registry toolName, env.policyEngine with
  | some spec, some e => some (e toolName (some spec.riskLevel))
  | _, _ => none

/-- The tool that the keyword mode calls, or the result it gives without a call. -/
def keywordChoice : Except Dict String :=
  let plan := x.planner.plan req.query
  if !plan.matched then .error (keywordFailed "未匹配关键词" [])
  else match plan.toolName with
    | none => .error (keywordFailed "无可用工具" [])
    | some toolName =>
      if toolName = "" then .error (keywordFailed "无可用工具" [])
      else match policyAnswer env toolName with
        | none => .ok toolName
        | some decision => if decision.allowed then .ok toolName else .error (keywordBlocked toolName decision.reason)

/-- The calls of the keyword mode. -/
def keywordCalls : List Call :=
  match keywordChoice env x req with
  | .ok toolName => [⟨toolName, []⟩]
  | .error _ => []

/-- The result of the keyword mode. -/
def keywordResult (calls : List Call) : Dict :=
  match keywordChoice env x req with
  | .ok toolName => keywordCalled env x toolName (env.gateway.call (env.tool calls ⟨toolName, []⟩) toolName [])
  | .error d => d

end ExecutorAgent

namespace MultiAgentOrchestrator

variable (env : Env) (o : MultiAgentOrchestrator) (req : RunRequest)

/-- The fallback that the review of a result suggests asks for an approval. -/
def fallbackAsks (mode : String) (d : Dict) (calls : List Call) (runs : Nat) : Bool :=
  match suggestion d mode with
  | none => false
  | some fallbackMode => o.executor.asks env req fallbackMode calls runs

/-- The execution with the selected mode, or its fallback, asks for an approval. -/
def stagesAsk (mode : String) (calls : List Call) (runs : Nat) : Bool :=
  o.executor.asks env req mode calls runs ||
    if mode = "nl2sql" then
      match nl2sqlAttempt env req.nl2sql runs with
      | .ok (d, _) => fallbackAsks env o req mode d calls (runs + 1)
      | .error _ => false
    else if mode = "keyword" then
      fallbackAsks env o req mode (o.executor.keywordResult env req calls)
        (calls ++ o.executor.keywordCalls env req) runs
    else false

/-- The run asks for an approval. -/
def asks (calls : List Call) (runs : Nat) : Bool :=
  !(o.riskIntentGuard req.query).detected &&
    match o.coordinator.decide env req.query with
    | .ok decision => stagesAsk env o req decision.selectedMode calls runs
    | .error _ => false

end MultiAgentOrchestrator

/-! ## The executor -/

namespace ExecutorAgent

variable {env : Env} {x : ExecutorAgent} {req : RunRequest} {w w' : World}

theorem executeNl2sql_attempts : wp (sequential env) (executeNl2sql req) (fun r w' =>
    Ran w w' [AgentKernel.enterEvent "nl2sql", nl2sqlEvent env req.nl2sql (nl2sqlRuns w.log)] ∧
      r = (nl2sqlAttempt env req.nl2sql (nl2sqlRuns w.log)).map fun a =>
        (a.1, executed "execute_nl2sql" "NL2SQL" "nl2sql" [] a.2.truthy)) w := by
  unfold executeNl2sql
  refine wp_perform_bind rfl ?_
  have hran := @AgentKernel.ran_enterMode env w "nl2sql"
  generalize (exec env 0 (.enterMode "nl2sql") w).2 = w₁ at hran ⊢
  have hruns : nl2sqlRuns w₁.log = nl2sqlRuns w.log := hran.nl2sqlRuns
  have hspec := @runNl2sql_spec env w₁ req.nl2sql
  rw [hruns] at hspec
  unfold nl2sqlAttempt
  refine wp_seq hspec ?_ ?_
  · rintro d w₂ ⟨hd, hran₂⟩
    have hran₂ := hran.trans hran₂
    rw [← hd]
    show wp _ _ (fun r w' => _ ∧ r = Except.map _ (Dict.index d "success" >>= fun success => .ok (d, success))) _
    cases Dict.index d "success" with
    | ok success => exact ⟨hran₂, rfl⟩
    | error e => exact ⟨hran₂, rfl⟩
  · rintro e w₂ ⟨hd, hran₂⟩
    rw [← hd]
    exact ⟨hran.trans hran₂, rfl⟩

theorem executeMultitool_asks : wp (sequential env) (executeMultitool env x req) (fun _ w' =>
    Asking req.taskId (pipelineAsks env x.multitoolPlanner req.query (callsOf w.log)) w w') w := by
  unfold executeMultitool
  refine wp_perform_bind rfl ?_
  have h₀ : Asking req.taskId false w (exec env 0 (.enterMode "multitool") w).2 := asking_exec rfl
  have hspec := @pipeline_spec env (exec env 0 (.enterMode "multitool") w).2 req.taskId req.query x.multitoolPlanner
  rw [AgentKernel.callsOf_enterMode] at hspec
  refine wp_seq (wp_mono hspec fun r w' h => (h.after h₀).asking) (fun d w₁ h => ?_) fun e w₁ h => h
  exact wp_asking h (Prog.uses_ofExcept_bind fun _ _ => trivial)

theorem keywordPolicy_spec {toolName : String} : wp (sequential env) (keywordPolicy env toolName) (fun r w' =>
    Moves w w' [] w.db.approvals ∧ r = .ok (policyAnswer env toolName)) w := by
  unfold keywordPolicy policyAnswer
  refine wp_perform_bind rfl ?_
  have h₀ : Moves w (exec env 0 (.getTool toolName) w).2 [] w.db.approvals := moves_quiet rfl
  cases env.gateway.registry toolName with
  | none => exact ⟨h₀, rfl⟩
  | some spec =>
    cases he : env.policyEngine with
    | none => exact ⟨h₀, rfl⟩
    | some e =>
      have hanswer : ∀ w : World, (dbExec env w.log 0 (.evaluate toolName spec.riskLevel) w.db).1 =
          .ok (e toolName (some spec.riskLevel)) := fun w => by simp only [dbExec, he]
      dsimp only
      rw [← bind_pure_comp]
      exact wp_perform_bind (hanswer _) ⟨h₀.quiet (moves_quiet rfl), rfl⟩

/-- The keyword mode ends as its choice says. -/
def KeywordEnds (env : Env) (x : ExecutorAgent) (req : RunRequest) (w : World)
    (r : Except PyExc (Dict × AgentDecision)) (w' : World) : Prop :=
  Asking req.taskId false w w' ∧ callsOf w'.log = callsOf w.log ++ keywordCalls env x req ∧
    nl2sqlRuns w'.log = nl2sqlRuns w.log ∧ ∃ decision, r = .ok (keywordResult env x req (callsOf w.log), decision)

theorem KeywordEnds.after {r : Except PyExc (Dict × AgentDecision)} {w₁ : World} {evs : List Event}
    (h₁ : Ran w w₁ evs) (hs : Silences evs) (hcalls : callsOf evs = []) (hruns : nl2sqlRuns evs = 0)
    (h : KeywordEnds env x req w₁ r w') : KeywordEnds env x req w r w' := by
  have hcalls₁ : callsOf w₁.log = callsOf w.log := by rw [h₁.callsOf, hcalls, List.append_nil]
  have hruns₁ : nl2sqlRuns w₁.log = nl2sqlRuns w.log := by rw [h₁.nl2sqlRuns, hruns, Nat.add_zero]
  obtain ⟨hasked, hc, hr, hd⟩ := h
  rw [hcalls₁] at hc hd
  exact ⟨Asking.after ⟨evs, h₁, hs⟩ hasked, hc, hr.trans hruns₁, hd⟩

theorem keywordEnds_stop {d : Dict} {decision : AgentDecision} (h : keywordChoice env x req = .error d) :
    KeywordEnds env x req w (.ok (d, decision)) w := by
  refine ⟨.refl w, ?_, rfl, decision, ?_⟩
  · unfold keywordCalls
    rw [h, List.append_nil]
  · unfold keywordResult
    rw [h]

theorem callKeyword_spec {toolName : String} (h : keywordChoice env x req = .ok toolName) :
    wp (sequential env) (callKeyword env x toolName) (KeywordEnds env x req w) w := by
  unfold callKeyword
  have hanswer : (dbExec env w.log 0 (.gatewayCall .executor (.str toolName) .null) w.db).1 =
      .ok (env.gateway.call (env.tool (callsOf w.log) ⟨toolName, []⟩) toolName []) := rfl
  have hran := (@moves_act env w (.gatewayCall .executor (.str toolName) .null) rfl).ran
  refine wp_perform_bind hanswer ?_
  suffices h : ∀ decision, KeywordEnds env x req w (.ok (keywordCalled env x toolName
    (env.gateway.call (env.tool (callsOf w.log) ⟨toolName, []⟩) toolName []), decision)) _ from h _
  intro decision
  refine ⟨⟨_, hran, Silences.nil.cons rfl⟩, ?_, hran.nl2sqlRuns, decision, ?_⟩
  · unfold keywordCalls
    rw [hran.callsOf, h]
    rfl
  · unfold keywordResult
    rw [h]

/-- **The keyword mode** of the executor makes its choice, and asks for nothing. -/
theorem executeKeyword_spec : wp (sequential env) (executeKeyword env x req) (KeywordEnds env x req w) w := by
  unfold executeKeyword
  refine wp_perform_bind rfl ?_
  have h₀ := @AgentKernel.ran_enterMode env w "keyword"
  generalize (exec env 0 (.enterMode "keyword") w).2 = w₁ at h₀ ⊢
  refine wp_mono (Q := KeywordEnds env x req w₁) ?_ fun r w' h => h.after h₀ (Silences.nil.cons rfl) rfl rfl
  obtain ⟨choice, hchoice⟩ : ∃ c, keywordChoice env x req = c := ⟨_, rfl⟩
  have hchosen := hchoice
  unfold keywordChoice at hchosen
  dsimp only at hchosen ⊢
  by_cases hmatched : (x.planner.plan req.query).matched = true
  swap
  · rw [if_pos (by simpa using hmatched)] at hchosen ⊢
    exact keywordEnds_stop (hchoice.trans hchosen.symm)
  rw [if_neg (by simpa using hmatched)] at hchosen ⊢
  cases htool : (x.planner.plan req.query).toolName with
  | none =>
    rw [htool] at hchosen
    exact keywordEnds_stop (hchoice.trans hchosen.symm)
  | some toolName =>
    rw [htool] at hchosen
    dsimp only at hchosen ⊢
    by_cases hname : toolName = ""
    · rw [if_pos hname] at hchosen ⊢
      exact keywordEnds_stop (hchoice.trans hchosen.symm)
    rw [if_neg hname] at hchosen ⊢
    refine wp_seq keywordPolicy_spec ?_ ?_
    · rintro decision w₂ ⟨h₂, hdecision⟩
      obtain rfl := Except.ok.inj hdecision
      refine wp_mono (Q := KeywordEnds env x req w₂) ?_ fun r w' h => h.after h₂.ran .nil rfl rfl
      cases hpolicy : policyAnswer env toolName with
      | none =>
        rw [hpolicy] at hchosen
        exact callKeyword_spec (hchoice.trans hchosen.symm)
      | some decision =>
        rw [hpolicy] at hchosen
        dsimp only at hchosen ⊢
        split at hchosen
        · rename_i hallowed
          rw [if_pos hallowed]
          exact callKeyword_spec (hchoice.trans hchosen.symm)
        · rename_i hallowed
          rw [if_neg hallowed]
          exact keywordEnds_stop (hchoice.trans hchosen.symm)
    · rintro e w₂ ⟨-, he⟩
      cases he

theorem executeAuto_asks : wp (sequential env) (executeAuto env x req) (fun _ w' =>
    Asking req.taskId (autoAsks env x.multitoolPlanner req (callsOf w.log) (nl2sqlRuns w.log)) w w') w := by
  unfold executeAuto
  refine wp_seq executeNl2sql_attempts ?_ ?_
  · rintro ⟨d, decision⟩ w₁ ⟨hran, hd⟩
    have hasked : Asking req.taskId false w w₁ := ⟨_, hran, (Silences.nil.cons rfl).cons rfl⟩
    have hcalls : callsOf w₁.log = callsOf w.log := hran.callsOf.trans (List.append_nil _)
    unfold autoAsks
    cases hattempt : nl2sqlAttempt env req.nl2sql (nl2sqlRuns w.log) with
    | error e =>
      rw [hattempt] at hd
      cases hd
    | ok a =>
      rw [hattempt] at hd
      obtain ⟨d', success⟩ := a
      obtain ⟨rfl, -⟩ := Prod.mk.inj (Except.ok.inj hd)
      show wp _ (Prog.ofExcept (Dict.index d "success") >>= _) _ _
      rw [(nl2sqlAttempt_ok hattempt).2]
      show wp _ (if success.truthy then _ else _) (fun _ w' => Asking req.taskId
        (!success.truthy && pipelineAsks env x.multitoolPlanner req.query (callsOf w.log)) w w') _
      by_cases hs : success.truthy = true
      · rw [if_pos hs, hs]
        exact hasked
      · rw [if_neg hs, Bool.eq_false_iff.mpr hs, Bool.not_false, Bool.true_and, ← hcalls]
        refine wp_mono (Q := fun _ w' => Asking req.taskId
          (pipelineAsks env x.multitoolPlanner req.query (callsOf w₁.log)) w₁ w') ?_ fun _ _ h => hasked.after h
        refine wp_seq executeMultitool_asks (fun a w₂ h => ?_) fun e w₂ h => h
        dsimp only
        cases Dict.index a.1 "success" with
        | error e => exact h
        | ok successMt =>
          show wp _ (if successMt.truthy then _ else _) _ _
          split
          · exact h
          · exact wp_seq executeKeyword_spec (fun _ _ h₃ => h.quiet h₃.1) fun _ _ h₃ => h.quiet h₃.1
  · rintro e w₁ ⟨hran, hd⟩
    unfold autoAsks
    cases hattempt : nl2sqlAttempt env req.nl2sql (nl2sqlRuns w.log) with
    | error e => exact ⟨_, hran, (Silences.nil.cons rfl).cons rfl⟩
    | ok a =>
      rw [hattempt] at hd
      cases hd

theorem execute_asks {mode : String} : wp (sequential env) (execute env x req mode) (fun _ w' =>
    Asking req.taskId (x.asks env req mode (callsOf w.log) (nl2sqlRuns w.log)) w w') w := by
  unfold execute asks
  split
  · refine wp_mono executeNl2sql_attempts ?_
    rintro r w' ⟨hran, -⟩
    exact ⟨_, hran, (Silences.nil.cons rfl).cons rfl⟩
  split
  · exact executeMultitool_asks
  split
  · exact wp_mono executeKeyword_spec fun _ _ h => h.1
  · exact executeAuto_asks

end ExecutorAgent

/-! ## The orchestrator -/

namespace MultiAgentOrchestrator

variable {env : Env} {o : MultiAgentOrchestrator} {req : RunRequest} {w w' : World}

/-- Only the NL2SQL mode and the keyword mode have a fallback other than the keyword mode. -/
theorem suggestion_keyword {d : Dict} {mode fallbackMode : String} (hnl : mode ≠ "nl2sql") (hkw : mode ≠ "keyword")
    (h : suggestion d mode = some fallbackMode) : fallbackMode = "keyword" := by
  unfold suggestion ReviewerAgent.review at h
  dsimp only at h
  split at h
  · cases h
  split at h
  · cases h
  split at h
  · cases h
  split at h
  · have hsuggest : ReviewerAgent.suggestFallback mode = "keyword" := by
      unfold ReviewerAgent.suggestFallback
      rw [if_neg hnl, if_neg hkw]
      exact ite_self _
    exact (Option.some.inj h).symm.trans hsuggest
  · exact (Option.some.inj h).symm

/-- What the first execution leaves for the second. -/
theorem first_spec {mode : String} : wp (sequential env) (o.executor.execute env req mode) (fun r w' =>
    Asking req.taskId (o.executor.asks env req mode (callsOf w.log) (nl2sqlRuns w.log)) w w' ∧
      stagesAsk env o req mode (callsOf w.log) (nl2sqlRuns w.log) =
        (o.executor.asks env req mode (callsOf w.log) (nl2sqlRuns w.log) ||
          match r with
          | .ok (d, _) => fallbackAsks env o req mode d (callsOf w'.log) (nl2sqlRuns w'.log)
          | .error _ => false)) w := by
  unfold stagesAsk
  by_cases hnl : mode = "nl2sql"
  · subst hnl
    rw [if_pos rfl]
    refine wp_mono ExecutorAgent.executeNl2sql_attempts ?_
    rintro r w' ⟨hran, hr⟩
    refine ⟨⟨_, hran, (Silences.nil.cons rfl).cons rfl⟩, congrArg _ ?_⟩
    rw [hr]
    cases nl2sqlAttempt env req.nl2sql (nl2sqlRuns w.log) with
    | error e => rfl
    | ok a =>
      have hcalls : callsOf w'.log = callsOf w.log := hran.callsOf.trans (List.append_nil _)
      have hruns : nl2sqlRuns w'.log = nl2sqlRuns w.log + 1 := hran.nl2sqlRuns
      show fallbackAsks env o req "nl2sql" a.1 _ _ = fallbackAsks env o req "nl2sql" a.1 _ _
      rw [hcalls, hruns]
  rw [if_neg hnl]
  by_cases hkw : mode = "keyword"
  · subst hkw
    rw [if_pos rfl]
    refine wp_mono ExecutorAgent.executeKeyword_spec ?_
    rintro r w' ⟨hasked, hcalls, hruns, decision, rfl⟩
    refine ⟨hasked, congrArg _ ?_⟩
    rw [← hcalls, ← hruns]
  rw [if_neg hkw]
  refine wp_mono ExecutorAgent.execute_asks fun r w' h => ⟨h, congrArg _ ?_⟩
  rcases r with e | ⟨d, decision⟩
  · rfl
  · show false = fallbackAsks env o req mode d _ _
    unfold fallbackAsks
    cases hsuggest : suggestion d mode with
    | none => rfl
    | some fallbackMode =>
      obtain rfl := suggestion_keyword hnl hkw hsuggest
      rfl

theorem fallback_asks {st : Stages} {fallbackMode : String} :
    wp (sequential env) (fallback (fun eventType detail => traceTask eventType req.taskId detail)
      (fun mode => o.executor.execute env req mode) st fallbackMode) (fun _ w' => Asking req.taskId
        (o.executor.asks env req fallbackMode (callsOf w.log) (nl2sqlRuns w.log)) w w') w := by
  unfold fallback
  refine wp_silent_seq silent_traceTask fun _ w₁ h₁ => ?_
  rw [← h₁.callsOf_quiet, ← h₁.nl2sqlRuns_quiet]
  refine wp_seq ExecutorAgent.execute_asks (fun a w₂ h => ?_) fun e w₂ h => h₁.asking.after h
  refine wp_asking (h₁.asking.after h) ?_
  refine Prog.Uses.bind traceTask_unasked fun _ => Prog.Uses.bind traceTask_unasked fun _ => ?_
  exact Prog.Uses.bind traceTask_unasked fun _ => trivial

theorem stages_asks {mode : String} {decisions : List AgentDecision} :
    wp (sequential env) (stages (fun eventType detail => traceTask eventType req.taskId detail)
      (fun mode => o.executor.execute env req mode) mode decisions) (fun _ w' => Asking req.taskId
        (stagesAsk env o req mode (callsOf w.log) (nl2sqlRuns w.log)) w w') w := by
  unfold stages
  refine wp_seq first_spec ?_ ?_
  · rintro ⟨d, decision⟩ w₁ ⟨h, hasks⟩
    rw [hasks]
    dsimp only
    refine wp_silent_seq silent_traceTask fun _ w₂ h₂ => wp_silent_seq silent_traceTask fun _ w₃ h₃ => ?_
    have hquiet := h₂.quiet h₃
    have hnext : (if (ReviewerAgent.review d mode).1.approved then none
        else (ReviewerAgent.review d mode).1.suggestedFallbackMode) = suggestion d mode := rfl
    rw [hnext]
    unfold fallbackAsks
    cases suggestion d mode with
    | none =>
      rw [Bool.or_false]
      exact h.quiet hquiet.asking
    | some fallbackMode =>
      dsimp only
      rw [← hquiet.callsOf_quiet, ← hquiet.nl2sqlRuns_quiet]
      exact wp_mono fallback_asks fun _ _ h' => (h.quiet hquiet.asking).trans h'
  · rintro e w₁ ⟨h, hasks⟩
    rw [hasks, Bool.or_false]
    exact h

theorem run_asks : wp (sequential env) (o.run env req) (fun _ w' =>
    Asking req.taskId (o.asks env req (callsOf w.log) (nl2sqlRuns w.log)) w w') w := by
  unfold run runOver asks
  refine wp_silent_seq silent_traceTask fun _ w₁ h₁ => ?_
  dsimp only
  by_cases hdetected : (o.riskIntentGuard req.query).detected = true
  · rw [if_pos hdetected, hdetected]
    refine wp_asking h₁.asking (Prog.Uses.bind traceTask_unasked fun _ => ?_)
    exact Prog.Uses.bind traceTask_unasked fun _ => trivial
  rw [if_neg hdetected, Bool.eq_false_iff.mpr hdetected, Bool.not_false, Bool.true_and]
  cases o.coordinator.decide env req.query with
  | error e => exact h₁.asking
  | ok decision =>
    rw [Prog.ofExcept_ok, Prog.pure_bind']
    refine wp_silent_seq silent_traceTask fun _ w₂ h₂ => wp_silent_seq silent_traceTask fun _ w₃ h₃ => ?_
    have hquiet := h₁.quiet (h₂.quiet h₃)
    dsimp only
    rw [← hquiet.callsOf_quiet, ← hquiet.nl2sqlRuns_quiet]
    refine wp_seq (wp_mono stages_asks fun _ _ h => hquiet.asking.after h) (fun st w₄ h => ?_) fun _ _ h => h
    refine wp_asking h ?_
    unfold conclude
    refine Prog.uses_ofExcept_bind fun _ _ => Prog.uses_ofExcept_bind fun _ _ => Prog.uses_ofExcept_bind fun _ _ => ?_
    split
    · exact Prog.Uses.bind traceTask_unasked fun _ => trivial
    · exact Prog.Uses.bind traceTask_unasked fun _ => trivial

end MultiAgentOrchestrator

/-! ## Every mode -/

namespace AgentKernel

variable (k : AgentKernel) (mode : String) (task : TaskRun) (opts : RunOptions)

/-- A pipeline inside `auto` or `multi_agent` asks for an approval. -/
def asksInside : Bool :=
  if mode = "multi_agent" then k.orchestrator.asks k.env (task.request opts) [] 0
  else if mode = "auto" then autoAsks k.env k.multitoolPlanner (task.request opts) [] 0
  else false

variable {k mode task opts} {w : World}

/-- **`multi_agent`** completes the task, whatever is asked for. -/
theorem runMultiAgent_verdict : wp (sequential k.env) (k.runMultiAgent task opts) (Verdict task.taskId
    (k.orchestrator.asks k.env (task.request opts) (callsOf w.log) (nl2sqlRuns w.log)) w) w := by
  have hasks : wp (sequential k.env) (k.runMultiAgent task opts) (fun _ w' => Asking task.taskId
      (k.orchestrator.asks k.env (task.request opts) (callsOf w.log) (nl2sqlRuns w.log)) w w') w := by
    unfold runMultiAgent
    refine wp_perform_bind rfl ?_
    have h₀ := @ran_enterMode k.env w "multi_agent"
    generalize (exec k.env 0 (.enterMode "multi_agent") w).2 = w₀ at h₀ ⊢
    have hcalls : callsOf w₀.log = callsOf w.log := h₀.callsOf.trans (List.append_nil _)
    have hruns : nl2sqlRuns w₀.log = nl2sqlRuns w.log := h₀.nl2sqlRuns
    have hbefore : Asking task.taskId false w w₀ := ⟨_, h₀, Silences.nil.cons rfl⟩
    rw [← hcalls, ← hruns]
    refine wp_guarded (R := fun _ w' => Asking task.taskId
      (k.orchestrator.asks k.env (task.request opts) (callsOf w₀.log) (nl2sqlRuns w₀.log)) w w') ?_ ?_ ?_
    · refine wp_silent_seq silent_trace fun _ w₁ h₁ => ?_
      rw [← h₁.callsOf_quiet, ← h₁.nl2sqlRuns_quiet]
      exact wp_mono MultiAgentOrchestrator.run_asks fun _ _ h => (hbefore.quiet h₁.asking).after h
    · intro result w₁ h
      exact wp_asking h (guarded_unasked failMode_unasked (Prog.uses_call.mpr rfl) fun _ => trivial)
    · intro e w₁ h
      exact wp_asking h (failMode_unasked e)
  refine wp_mono (wp_and hasks runMultiAgent_ends) ?_
  rintro r w' ⟨h, t, hr, -, hst⟩
  generalize k.orchestrator.asks k.env (task.request opts) (callsOf w.log) (nl2sqlRuns w.log) = b at h ⊢
  cases b with
  | true =>
    obtain ⟨evs, hran, e, he, hasks⟩ := h
    obtain ⟨pre, post, rfl⟩ := List.append_of_mem he
    refine ⟨pre, e, post, hran, hasks, .inr fun t' ht' => ?_⟩
    obtain rfl := Except.ok.inj (hr.symm.trans ht')
    rw [hst]
    decide
  | false => exact .of_unasked h

theorem runWithOptions_verdict {db : Db} : wp (sequential k.env) (k.runWithOptions mode task opts)
    (Verdict task.taskId (k.asksInside mode task opts) ⟨db, []⟩) ⟨db, []⟩ := by
  unfold runWithOptions asksInside
  by_cases hma : mode = "multi_agent"
  · subst hma
    exact runMultiAgent_verdict
  rw [if_neg hma, if_neg hma]
  by_cases hauto : mode = "auto"
  · subst hauto
    exact runAuto_verdict
  rw [if_neg hauto, if_neg hauto]
  show wp _ _ (SuspendsRun ⟨db, []⟩) _
  split
  · split
    · exact runGraph_suspends
    · exact run_suspends
  split
  · have hnone : wp (sequential k.env) (k.runNl2sql task opts) (fun _ w' => Asking "" false ⟨db, []⟩ w') ⟨db, []⟩ :=
      wp_unasking runNl2sql_unasked
    exact wp_mono hnone fun _ _ h => .of_unasked h
  split
  · exact runMultitool_suspends
  · exact run_suspends

/-- **A pending approval suspends the task** exactly in the runs in which no pipeline asks for it inside `auto` or
`multi_agent`. -/
theorem suspends_iff (k : AgentKernel) (mode : String) (task : TaskRun) (opts : RunOptions) (db : Db) :
    SuspendsTask task.taskId (serve k.env (k.runWithOptions mode task opts) ⟨db, []⟩) ↔
      k.asksInside mode task opts = false :=
  Verdict.suspendsTask_iff (serve_of_wp runWithOptions_verdict)

/-- A plan whose only step is the refund. -/
def refundPlan : MultiToolPlan := ⟨true, "refund", [⟨"s1", "refund", [], [], none⟩], "done", ""⟩

/-- A kernel whose pipeline plans the refund, and whose keyword path plans the report. -/
def refundKernel : AgentKernel where
  env := demoEnv
  engine := "langgraph"
  planner := demoPlanner "report"
  multitoolPlanner _ := refundPlan
  orchestrator := ⟨⟨fun _ => false, fun _ => .error ""⟩, ⟨demoPlanner "report", fun _ => refundPlan⟩,
    fun _ => ⟨false, "", []⟩⟩
  graphAdapter := none

/-- NL2SQL fails, the pipeline waits for the approval of the refund, and `auto` runs the report. -/
theorem auto_overruns : ¬ SuspendsTask "t" (serve refundKernel.env (refundKernel.runWithOptions "auto"
    ⟨"t", "q", .pending, none, none⟩ ⟨"mock", none, true⟩) ⟨⟨[], fun _ => none, []⟩, []⟩) := by
  have hasks : refundKernel.asksInside "auto" ⟨"t", "q", .pending, none, none⟩ ⟨"mock", none, true⟩ = true := by
    decide +kernel
  have hverdict := serve_of_wp (@runWithOptions_verdict refundKernel "auto" ⟨"t", "q", .pending, none, none⟩
    ⟨"mock", none, true⟩ ⟨[], fun _ => none, []⟩)
  rw [hasks] at hverdict
  exact not_suspendsTask hverdict

end AgentKernel

end AgentHarness
