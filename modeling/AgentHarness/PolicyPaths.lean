import AgentHarness.ModeSuspension

/-!
# PolicyPaths — which tool calls a path makes without the policy's permission

`ObeysPolicy` says of a log that a tool is called only after `PolicyEngine.evaluate` allowed it, and never
where it did not.  Each path reads the decision in its own way.  The pipeline keeps the law.  The keyword path
evaluates nothing for a tool that is not registered, and calls it; the graph adapter asks only for the risk and
for `requires_approval`, so it calls a tool that the whitelist refused.
-/

namespace AgentHarness

open Lib Py

/-- The environment with this policy engine, as the paths call it: without a context. -/
def Env.under (env : Env) (e : PolicyEngine) : Env :=
  { env with policyEngine := some fun tool risk => e.evaluate tool risk none }

/-- The tool that an event calls. -/
def calledTool (e : Event) : Option String :=
  match e.op with
  | .gatewayCall _ (.str tool) _ => some tool
  | _ => none

/-- An evaluation of the tool that answered `allowed`. -/
def answersFor (tool : String) (allowed : Bool) (e : Event) : Bool :=
  match e with
  | ⟨_, .evaluate t _, .ok d⟩ => t == tool && d.allowed == allowed
  | _ => false

/-- Every call comes after an evaluation that allowed the tool. -/
def Permitted (log : List Event) : Prop :=
  ∀ pre e post, log = pre ++ e :: post → ∀ tool, calledTool e = some tool →
    ∃ e' ∈ pre, answersFor tool true e' = true

/-- **No path bypasses the policy.** -/
structure ObeysPolicy (log : List Event) : Prop where
  permitted : Permitted log
  notRefused : ∀ e ∈ log, ∀ tool, calledTool e = some tool → ∀ e' ∈ log, answersFor tool false e' = false

/-- An evaluation, or a call. -/
def Op.isGate : Op → Bool
  | .evaluate _ _ | .gatewayCall _ _ _ => true
  | _ => false

def gates (log : List Event) : List Event := log.filter fun e => e.op.isGate

section Gates

variable {log : List Event} {e : Event} {tool : String} {allowed : Bool}

theorem isGate_of_called (h : calledTool e = some tool) : e.op.isGate = true := by
  unfold calledTool at h
  split at h
  · rename_i hop
    rw [hop]
    rfl
  · cases h

theorem isGate_of_answers (h : answersFor tool allowed e = true) : e.op.isGate = true := by
  unfold answersFor at h
  split at h
  · rfl
  · cases h

/-- Only evaluations and calls matter. -/
theorem obeysPolicy_gates : ObeysPolicy (gates log) ↔ ObeysPolicy log := by
  constructor
  · rintro ⟨hpermitted, hrefused⟩
    refine ⟨?_, ?_⟩
    · rintro pre e post rfl tool hcall
      have hsplit : gates (pre ++ e :: post) = gates pre ++ e :: gates post := by
        simp [gates, isGate_of_called hcall]
      obtain ⟨e', he', hallows⟩ := hpermitted _ e _ hsplit tool hcall
      exact ⟨e', (List.mem_filter.mp he').1, hallows⟩
    · intro e he tool hcall e' he'
      by_contra hanswers
      have hanswers := Bool.eq_true_of_not_eq_false hanswers
      have hmem : e' ∈ gates log := List.mem_filter.mpr ⟨he', isGate_of_answers hanswers⟩
      rw [hrefused e (List.mem_filter.mpr ⟨he, isGate_of_called hcall⟩) tool hcall e' hmem] at hanswers
      cases hanswers
  · rintro ⟨hpermitted, hrefused⟩
    refine ⟨?_, ?_⟩
    · intro pre e post hgates tool hcall
      obtain ⟨l₁, l₂, rfl, rfl, hl₂⟩ := List.filter_eq_append_iff.mp hgates
      obtain ⟨l₃, l₄, rfl, hl₃, -, rfl⟩ := List.filter_eq_cons_iff.mp hl₂
      obtain ⟨e', he', hallows⟩ := hpermitted (l₁ ++ l₃) e l₄ (by simp) tool hcall
      refine ⟨e', ?_, hallows⟩
      rcases List.mem_append.mp he' with he' | he'
      · exact List.mem_filter.mpr ⟨he', isGate_of_answers hallows⟩
      · exact absurd (isGate_of_answers hallows) (hl₃ e' he')
    · intro e he tool hcall e' he'
      exact hrefused e (List.mem_filter.mp he).1 tool hcall e' (List.mem_filter.mp he').1

end Gates

/-! ## Evaluations and calls of a part -/

/-- The part added these evaluations and calls. -/
def Gated (w w' : World) (evs : List Event) : Prop := gates w'.log = gates w.log ++ evs

section Gated

variable {env : Env} {α : Type} {w w₁ w' : World} {evs evs' : List Event} {o : Op}

theorem Gated.refl (w : World) : Gated w w [] := (List.append_nil _).symm

theorem Gated.trans (h : Gated w w₁ evs) (h' : Gated w₁ w' evs') : Gated w w' (evs ++ evs') := by
  unfold Gated at *
  rw [h', h, List.append_assoc]

theorem Gated.after (h : Gated w w₁ []) (h' : Gated w₁ w' evs) : Gated w w' evs := h.trans h'

theorem Gated.quiet (h : Gated w w₁ evs) (h' : Gated w₁ w' []) : Gated w w' evs := by
  have := h.trans h'
  rwa [List.append_nil] at this

theorem gated_exec (h : o.isGate = false) : Gated w (exec env 0 o w).2 [] := by
  unfold Gated gates
  rw [exec_log, List.filter_append]
  simp [h]

theorem gated_gate (h : o.isGate = true) :
    Gated w (exec env 0 o w).2 [⟨0, o, (dbExec env w.log 0 o w.db).1⟩] := by
  unfold Gated gates
  rw [exec_log, List.filter_append]
  simp [h]

/-- A part that neither evaluates nor calls. -/
theorem wp_ungated {p : Py α} (hu : p.Uses fun o => o.isGate = false) :
    wp (sequential env) p (fun _ w' => Gated w w' []) w :=
  keeps_of_uses (fun _ ho _ h => h.quiet (gated_exec ho)) hu w (.refl w)

theorem wp_ungated_seq {β : Type} {p : Py α} {f : α → Py β} {Q : Except PyExc β → World → Prop}
    (hu : p.Uses fun o => o.isGate = false)
    (hok : ∀ a w', Gated w w' [] → wp (sequential env) (f a) Q w')
    (herr : ∀ e w', Gated w w' [] → Q (.error e) w') : wp (sequential env) (p >>= f) Q w :=
  wp_seq (wp_ungated hu) hok herr

/-- A part that neither raises, nor evaluates, nor calls. -/
theorem wp_silent_ungated {β : Type} {p : Py α} {f : α → Py β} {Q : Except PyExc β → World → Prop}
    (hp : Silent env p) (hu : p.Uses fun o => o.isGate = false)
    (hf : ∀ a w', Gated w w' [] → wp (sequential env) (f a) Q w') : wp (sequential env) (p >>= f) Q w := by
  refine wp_seq (wp_and (hp w) (wp_ungated hu)) (fun a w' h => hf a w' h.2) ?_
  rintro e w' ⟨⟨⟨a, ha⟩, -⟩, -⟩
  cases ha

end Gated

/-- The tool was evaluated with this answer, and then called if `called` says so. -/
def Evaluated (tool : String) (allowed called : Bool) (evs : List Event) : Prop :=
  ∃ e, answersFor tool allowed e = true ∧
    if called then ∃ e', evs = [e, e'] ∧ calledTool e' = some tool else evs = [e]

section Evaluated

variable {tool : String} {allowed called : Bool} {evs evs' : List Event} {e : Event}

theorem calledTool_of_answers (h : answersFor tool allowed e = true) : calledTool e = none := by
  unfold answersFor at h
  split at h
  · rfl
  · cases h

theorem answers_of_called (h : calledTool e = some tool) {t : String} : answersFor t allowed e = false := by
  cases hanswers : answersFor t allowed e with
  | false => rfl
  | true =>
    rw [calledTool_of_answers hanswers] at h
    cases h

/-- An event is the answer for one tool, and one answer. -/
theorem answers_inj {t : String} {a : Bool} (h : answersFor tool allowed e = true) (h' : answersFor t a e = true) :
    tool = t ∧ allowed = a := by
  unfold answersFor at h h'
  split at h
  · simp only [Bool.and_eq_true, beq_iff_eq] at h h'
    exact ⟨h.1.symm.trans h'.1, h.2.symm.trans h'.2⟩
  · cases h

theorem permitted_nil : Permitted [] := by
  intro pre e post h
  simp at h

theorem Permitted.append (h : Permitted evs) (h' : Permitted evs') : Permitted (evs ++ evs') := by
  intro pre e post hsplit tool hcall
  rcases List.append_eq_append_iff.mp hsplit with ⟨rest, rfl, hrest⟩ | ⟨rest, rfl, hrest⟩
  · obtain ⟨e', he', hallows⟩ := h' rest e post hrest tool hcall
    exact ⟨e', List.mem_append_right _ he', hallows⟩
  · cases rest with
    | nil =>
      obtain ⟨e', he', -⟩ := h' [] e post hrest.symm tool hcall
      cases he'
    | cons e₁ rest =>
      obtain ⟨rfl, rfl⟩ := List.cons.inj hrest
      exact h pre e rest rfl tool hcall

/-- A tool that is evaluated and then called was allowed, if the law holds. -/
theorem evaluated_obeys_iff (h : Evaluated tool allowed called evs) :
    ObeysPolicy evs ↔ (called = true → allowed = true) := by
  obtain ⟨e, he, hevs⟩ := h
  cases called with
  | false =>
    obtain rfl : evs = [e] := hevs
    refine iff_of_true ⟨?_, ?_⟩ nofun
    · intro pre e₁ post hsplit t hcall
      have hmem : e₁ ∈ [e] := by simp [hsplit]
      rw [List.mem_singleton.mp hmem, calledTool_of_answers he] at hcall
      cases hcall
    · intro e₁ hmem t hcall
      rw [List.mem_singleton.mp hmem, calledTool_of_answers he] at hcall
      cases hcall
  | true =>
    obtain ⟨e', rfl, hcalled⟩ := hevs
    constructor
    · rintro ⟨hpermitted, -⟩
      obtain ⟨e₁, he₁, hallows⟩ := hpermitted [e] e' [] rfl tool hcalled
      obtain rfl := List.mem_singleton.mp he₁
      exact fun _ => (answers_inj he hallows).2
    · intro hallowed
      obtain rfl := hallowed rfl
      refine ⟨?_, ?_⟩
      · intro pre e₁ post hsplit t hcall
        have hpre : pre = [e] ∧ e₁ = e' := by
          cases pre with
          | nil =>
            obtain ⟨rfl, -⟩ := List.cons.inj hsplit
            rw [calledTool_of_answers he] at hcall
            cases hcall
          | cons e₂ pre =>
            obtain ⟨rfl, hrest⟩ := List.cons.inj hsplit
            cases pre with
            | nil =>
              obtain ⟨rfl, -⟩ := List.cons.inj hrest
              exact ⟨rfl, rfl⟩
            | cons e₃ pre => simp at hrest
        obtain ⟨rfl, rfl⟩ := hpre
        obtain rfl := Option.some.inj (hcalled.symm.trans hcall)
        exact ⟨e, List.mem_cons_self, he⟩
      · intro e₁ he₁ t hcall e₂ he₂
        cases hanswers : answersFor t false e₂ with
        | false => rfl
        | true =>
          simp only [List.mem_cons, List.not_mem_nil, or_false] at he₂
          rcases he₂ with rfl | rfl
          · cases (answers_inj he hanswers).2
          · rw [answers_of_called hcalled] at hanswers
            cases hanswers

/-- Every evaluation is one of a registered tool, by the policy engine. -/
def Faithful (env : Env) (evs : List Event) : Prop :=
  ∀ e ∈ evs, ∀ tool allowed, answersFor tool allowed e = true → ∃ spec, env.gateway.registry tool = some spec ∧
    ∃ p, env.policyEngine = some p ∧ (p tool (some spec.riskLevel)).allowed = allowed

theorem Faithful.append {env : Env} (h : Faithful env evs) (h' : Faithful env evs') : Faithful env (evs ++ evs') :=
  fun e he => (List.mem_append.mp he).elim (h e) (h' e)

/-- One engine and one registry answer for a tool always in the same way. -/
theorem obeys_of_faithful {env : Env} (h : Permitted evs) (hfaithful : Faithful env evs) : ObeysPolicy evs := by
  refine ⟨h, fun e he tool hcall e' he' => ?_⟩
  cases hanswers : answersFor tool false e' with
  | false => rfl
  | true =>
    obtain ⟨pre, post, rfl⟩ := List.append_of_mem he
    obtain ⟨e₁, he₁, hallows⟩ := h pre e post rfl tool hcall
    obtain ⟨spec, hspec, p, hp, hno⟩ := hfaithful e' he' tool false hanswers
    obtain ⟨spec', hspec', p', hp', hyes⟩ := hfaithful e₁ (List.mem_append_left _ he₁) tool true hallows
    obtain rfl := Option.some.inj (hspec.symm.trans hspec')
    obtain rfl := Option.some.inj (hp.symm.trans hp')
    rw [hno] at hyes
    cases hyes

end Evaluated

/-! ## The keyword path -/

namespace AgentKernel

variable {k : AgentKernel} {task : TaskRun} {w w' : World} {toolName : String}

theorem trace_ungated {e t : String} {d : Dict} : (trace e t d).Uses fun o => o.isGate = false :=
  Prog.uses_call.mpr rfl

theorem runHooks_ungated {taskId stage : String} {payload : Dict} :
    (runHooks taskId stage payload).Uses fun o => o.isGate = false := by
  unfold runHooks checkHookErrors
  refine Prog.uses_call_bind.mpr ⟨rfl, fun _ => ?_⟩
  dsimp only
  split
  · exact trace_ungated
  · trivial

/-- What the part evaluates and calls for the planned tool. -/
def KeywordGates (env : Env) (toolName : Option String) (evs : List Event) : Prop :=
  match toolName with
  | none => evs = []
  | some tool =>
    if tool = "" then evs = []
    else match env.gateway.registry tool with
      | none => ∃ e, evs = [e] ∧ calledTool e = some tool
      | some spec => ∃ p, env.policyEngine = some p ∧
        Evaluated tool (p tool (some spec.riskLevel)).allowed (p tool (some spec.riskLevel)).allowed evs

/-- The call of a tool, whatever comes of it. -/
theorem callTool_gates {env : Env} {arguments : Dict} :
    wp (sequential env) (callTool task toolName arguments)
      (fun _ w' => ∃ e, Gated w w' [e] ∧ calledTool e = some toolName) w := by
  unfold callTool
  refine wp_silent_ungated silent_runHooks runHooks_ungated fun _ w₁ h₁ => ?_
  have hcall := @gated_gate env w₁ (.gatewayCall .keyword (.str toolName) (.dict arguments)) rfl
  refine wp_seq (R := fun _ w' => ∃ e, Gated w w' [e] ∧ calledTool e = some toolName) (wp_perform.mpr ?_) ?_
    fun e w' h => h
  · exact ⟨_, h₁.after hcall, rfl⟩
  · rintro record w₂ ⟨e, h₂, he⟩
    refine wp_mono (wp_ungated ?_) fun r w' h => ⟨e, h₂.quiet h, he⟩
    exact runHooks_ungated.bind fun _ => trace_ungated.bind fun _ => trivial

theorem requestApproval_ungated {arguments : Dict} {planResult : PlanResult} {spec : ToolSpec} {decision : Decision} :
    (requestApproval task toolName arguments planResult spec decision).Uses fun o => o.isGate = false :=
  Prog.uses_call_bind.mpr ⟨rfl, fun _ => Prog.uses_call_bind.mpr ⟨rfl, fun _ => trivial⟩⟩

theorem answersFor_evaluate {env : Env} {p : String → Option RiskLevel → Decision} {risk : RiskLevel}
    (hp : env.policyEngine = some p) :
    answersFor toolName (p toolName (some risk)).allowed
      ⟨0, .evaluate toolName risk, (dbExec env w.log 0 (.evaluate toolName risk) w.db).1⟩ = true := by
  simp only [dbExec, hp, answersFor, beq_self_eq_true, Bool.and_self]

theorem execute_gates {planResult : PlanResult} (hp : ∃ p, k.env.policyEngine = some p) :
    wp (sequential k.env) (k.execute task planResult)
      (fun _ w' => ∃ evs, Gated w w' evs ∧ KeywordGates k.env planResult.toolName evs) w := by
  obtain ⟨p, hp⟩ := hp
  unfold execute KeywordGates
  cases planResult.toolName with
  | none => exact ⟨[], .refl w, rfl⟩
  | some tool =>
    dsimp only
    by_cases hname : tool = ""
    · simp only [if_pos hname]
      exact ⟨[], .refl w, rfl⟩
    simp only [if_neg hname]
    unfold gate
    rw [Prog.bind_assoc']
    refine wp_perform_bind rfl ?_
    have h₀ := @gated_exec k.env w (.getTool tool) rfl
    cases hspec : k.env.gateway.registry tool with
    | none =>
      refine wp_mono callTool_gates ?_
      rintro r w' ⟨e, h, he⟩
      exact ⟨[e], h₀.after h, e, rfl, he⟩
    | some spec =>
      dsimp only
      have hanswer : ∀ w : World, (dbExec k.env w.log 0 (.evaluate tool spec.riskLevel) w.db).1 =
          .ok (p tool (some spec.riskLevel)) := fun w => by simp only [dbExec, hp]
      rw [Prog.bind_assoc']
      refine wp_perform_bind (hanswer _) ?_
      have h₁ := h₀.after (@gated_gate k.env (exec k.env 0 (.getTool tool) w).2 (.evaluate tool spec.riskLevel) rfl)
      have hev := @answersFor_evaluate (exec k.env 0 (.getTool tool) w).2 tool k.env p spec.riskLevel hp
      by_cases hallowed : (p tool (some spec.riskLevel)).allowed = true
      · rw [if_pos hallowed, Prog.pure_bind']
        refine wp_mono callTool_gates ?_
        rintro r w' ⟨e, h, he⟩
        refine ⟨_, h₁.trans h, p, hp, _, hev, ?_⟩
        rw [if_pos hallowed]
        exact ⟨e, rfl, he⟩
      · have hend : ∀ w', Gated (exec k.env 0 (.evaluate tool spec.riskLevel) (exec k.env 0 (.getTool tool) w).2).2 w' [] →
            ∃ evs, Gated w w' evs ∧ ∃ p, k.env.policyEngine = some p ∧
              Evaluated tool (p tool (some spec.riskLevel)).allowed (p tool (some spec.riskLevel)).allowed evs := by
          intro w' h
          refine ⟨_, h₁.quiet h, p, hp, _, hev, ?_⟩
          rw [if_neg hallowed]
        rw [if_neg hallowed]
        split
        · rw [← bind_pure_comp, Prog.bind_assoc']
          exact wp_ungated_seq requestApproval_ungated (fun x w' h => hend w' h) fun e w' h => hend w' h
        · rw [Prog.bind_assoc']
          exact wp_ungated_seq trace_ungated (fun x w' h => hend w' h) fun e w' h => hend w' h

theorem failRun_ungated {t : TaskRun} (e : PyExc) : (failRun t e).Uses fun o => o.isGate = false :=
  Prog.uses_call_bind.mpr ⟨rfl, fun _ => Prog.uses_call_bind.mpr ⟨rfl, fun _ => trivial⟩⟩

theorem completeRun_ungated {t : TaskRun} {result : Dict} :
    (k.completeRun t result).Uses fun o => o.isGate = false :=
  runHooks_ungated.bind fun _ => trace_ungated.bind fun _ => trivial

theorem runNodes_gates (hp : ∃ p, k.env.policyEngine = some p) : wp (sequential k.env) (k.runNodes task)
    (fun _ w' => ∃ evs, Gated w w' evs ∧ KeywordGates k.env (k.planner.plan task.query).toolName evs) w := by
  unfold runNodes assemble plan
  simp only [Prog.bind_assoc', Prog.pure_bind']
  refine wp_silent_ungated silent_trace trace_ungated fun _ w₁ h₁ => ?_
  refine wp_silent_ungated silent_trace trace_ungated fun _ w₂ h₂ => ?_
  have hbefore := h₁.quiet h₂
  refine wp_seq (execute_gates hp) ?_ ?_
  · rintro x w₃ ⟨evs, h, hevs⟩
    exact ⟨evs, hbefore.after h, hevs⟩
  · rintro e w₃ ⟨evs, h, hevs⟩
    exact ⟨evs, hbefore.after h, hevs⟩

/-- **The keyword path** evaluates and calls the planned tool, and nothing else. -/
theorem run_gates (hp : ∃ p, k.env.policyEngine = some p) : wp (sequential k.env) (k.run task)
    (fun _ w' => ∃ evs, Gated w w' evs ∧ KeywordGates k.env (k.planner.plan task.query).toolName evs) w := by
  unfold run
  refine wp_perform_bind rfl ?_
  have h₀ := @gated_exec k.env w (.enterMode "keyword") rfl
  refine wp_guarded (R := fun _ w' =>
    ∃ evs, Gated w w' evs ∧ KeywordGates k.env (k.planner.plan task.query).toolName evs) ?_ ?_ ?_
  · refine wp_silent_ungated silent_trace trace_ungated fun _ w₁ h₁ => ?_
    refine wp_silent_ungated silent_runHooks runHooks_ungated fun _ w₂ h₂ => wp_mono (runNodes_gates hp) ?_
    rintro r w' ⟨evs, h, hevs⟩
    exact ⟨evs, (h₀.quiet (h₁.quiet h₂)).after h, hevs⟩
  · rintro ⟨result, t⟩ w₁ ⟨evs, h, hevs⟩
    dsimp only
    split
    · exact ⟨evs, h, hevs⟩
    · refine wp_mono (Q := fun _ w' => Gated w₁ w' []) ?_ fun r w' h' => ⟨evs, h.quiet h', hevs⟩
      refine wp_guarded (R := fun _ w' => Gated w₁ w' []) (wp_ungated completeRun_ungated) (fun _ _ h' => h') ?_
      exact fun e w₂ h₂ => wp_mono (wp_ungated (failRun_ungated e)) fun _ _ h' => h₂.quiet h'
  · rintro e w₁ ⟨evs, h, hevs⟩
    exact wp_mono (wp_ungated (failRun_ungated e)) fun _ _ h' => ⟨evs, h.quiet h', hevs⟩

theorem keywordGates_obeys {env : Env} {tool : Option String} {evs : List Event} (h : KeywordGates env tool evs) :
    ObeysPolicy evs ↔ ∀ t, tool = some t → t ≠ "" → (env.gateway.registry t).isSome := by
  have hnil : ObeysPolicy [] := ⟨permitted_nil, fun e he => by cases he⟩
  unfold KeywordGates at h
  cases tool with
  | none =>
    rw [h]
    exact iff_of_true hnil nofun
  | some tool =>
    dsimp only at h
    split at h
    · rename_i hname
      rw [h]
      refine iff_of_true hnil fun t ht hne => ?_
      obtain rfl := Option.some.inj ht
      exact absurd hname hne
    · rename_i hname
      cases hspec : env.gateway.registry tool with
      | none =>
        rw [hspec] at h
        obtain ⟨e, rfl, he⟩ := h
        refine iff_of_false (fun hobeys => ?_) fun hall => ?_
        · obtain ⟨e', he', -⟩ := hobeys.permitted [] e [] rfl tool he
          cases he'
        · have := hall tool rfl hname
          rw [hspec] at this
          cases this
      | some spec =>
        rw [hspec] at h
        obtain ⟨p, -, hevs⟩ := h
        refine iff_of_true ((evaluated_obeys_iff hevs).mpr id) fun t ht _ => ?_
        obtain rfl := Option.some.inj ht
        rw [hspec]
        rfl

end AgentKernel

/-! ## The pipeline -/

namespace MultiToolPipeline

variable {env : Env} {plan : MultiToolPlan} {taskId query : String} {w w' : World} {step : MultiToolPlanStep}
  {st : State} {p : String → Option RiskLevel → Decision}

/-- The part evaluates what it calls. -/
def StepsObey (env : Env) (w w' : World) : Prop := ∃ evs, Gated w w' evs ∧ Permitted evs ∧ Faithful env evs

theorem StepsObey.of_ungated (h : Gated w w' []) : StepsObey env w w' :=
  ⟨[], h, permitted_nil, fun e he => by cases he⟩

theorem StepsObey.trans {w₁ : World} (h : StepsObey env w w₁) (h' : StepsObey env w₁ w') : StepsObey env w w' := by
  obtain ⟨evs, hg, hp, hf⟩ := h
  obtain ⟨evs', hg', hp', hf'⟩ := h'
  exact ⟨evs ++ evs', hg.trans hg', hp.append hp', hf.append hf'⟩

/-- A registered tool that is called only where its evaluation allowed it. -/
theorem StepsObey.of_evaluated {tool : String} (called : Bool) {evs : List Event} {spec : ToolSpec}
    (hg : Gated w w' evs) (hspec : env.gateway.registry tool = some spec) (hp : env.policyEngine = some p)
    (h : Evaluated tool (p tool (some spec.riskLevel)).allowed called evs)
    (hcalled : called = true → (p tool (some spec.riskLevel)).allowed = true) : StepsObey env w w' := by
  refine ⟨evs, hg, ((evaluated_obeys_iff h).mpr hcalled).permitted, ?_⟩
  obtain ⟨e, he, hevs⟩ := h
  intro e₁ he₁ t allowed hanswers
  have hmem : e₁ = e := by
    cases called with
    | false =>
      obtain rfl : evs = [e] := hevs
      exact List.mem_singleton.mp he₁
    | true =>
      obtain ⟨e', rfl, hcall⟩ := hevs
      simp only [List.mem_cons, List.not_mem_nil, or_false] at he₁
      rcases he₁ with rfl | rfl
      · rfl
      · rw [answers_of_called hcall] at hanswers
        cases hanswers
  subst hmem
  obtain ⟨rfl, rfl⟩ := answers_inj he hanswers
  exact ⟨spec, hspec, p, hp, rfl⟩

theorem traceTask_ungated {e t : String} {d : Dict} : (traceTask e t d).Uses fun o => o.isGate = false :=
  traceTask_uses rfl

/-- The gate of a step evaluates its tool, and lets it pass only where that allowed it. -/
theorem gateStep_gates {spec : ToolSpec} (hp : env.policyEngine = some p) :
    wp (sequential env) (gateStep env plan taskId query step spec st) (fun r w' => ∃ e, Gated w w' [e] ∧
      answersFor step.toolName (p step.toolName (some spec.riskLevel)).allowed e = true ∧
      (r = .ok none → (p step.toolName (some spec.riskLevel)).allowed = true)) w := by
  have hanswer : (dbExec env w.log 0 (.evaluate step.toolName spec.riskLevel) w.db).1 =
      .ok (p step.toolName (some spec.riskLevel)) := by simp only [dbExec, hp]
  have h₀ := @gated_gate env w (.evaluate step.toolName spec.riskLevel) rfl
  have hev := @AgentKernel.answersFor_evaluate w step.toolName env p spec.riskLevel hp
  unfold gateStep
  rw [hp]
  refine wp_perform_bind hanswer ?_
  by_cases hallowed : (p step.toolName (some spec.riskLevel)).allowed = true
  · rw [if_pos hallowed]
    exact ⟨_, h₀, hev, fun _ => hallowed⟩
  have hstop : ∀ {w' : World} (x : Except PyExc (Option Dict)), x ≠ .ok none →
      Gated (exec env 0 (.evaluate step.toolName spec.riskLevel) w).2 w' [] → ∃ e, Gated w w' [e] ∧
        answersFor step.toolName (p step.toolName (some spec.riskLevel)).allowed e = true ∧
        (x = .ok none → (p step.toolName (some spec.riskLevel)).allowed = true) :=
    fun x hx h => ⟨_, h₀.quiet h, hev, fun hx' => absurd hx' hx⟩
  rw [if_neg hallowed]
  split
  · rw [← bind_pure_comp]
    refine wp_ungated_seq ?_ (fun d w' h => hstop (.ok (some d)) (by rintro ⟨⟩) h)
      fun e w' h => hstop (.error e) (by rintro ⟨⟩) h
    unfold suspend createApproval
    refine Prog.uses_call_bind.mpr ⟨rfl, fun _ => traceTask_ungated.bind fun _ => ?_⟩
    exact Prog.Uses.bind (recordAudit_uses rfl) fun _ => trivial
  · rw [← bind_pure_comp]
    refine wp_ungated_seq ?_ (fun d w' h => hstop (.ok (some d)) (by rintro ⟨⟩) h)
      fun e w' h => hstop (.error e) (by rintro ⟨⟩) h
    exact traceTask_ungated.bind fun _ => trivial

/-- The call of a step comes after its evaluation. -/
theorem callStep_gates {spec : ToolSpec} {next : State → Py Dict} {e : Event} {w₀ : World}
    (hspec : env.gateway.registry step.toolName = some spec) (hp : env.policyEngine = some p)
    (he : answersFor step.toolName (p step.toolName (some spec.riskLevel)).allowed e = true)
    (hallowed : (p step.toolName (some spec.riskLevel)).allowed = true) (h₀ : Gated w₀ w [e])
    (hnext : ∀ st w, wp (sequential env) (next st) (fun _ w' => StepsObey env w w') w) :
    wp (sequential env) (callStep env plan taskId step st next) (fun _ w' => StepsObey env w₀ w') w := by
  have hstop : ∀ w', Gated w w' [] → StepsObey env w₀ w' := fun w' h =>
    .of_evaluated false (h₀.quiet h) hspec hp ⟨e, he, rfl⟩ nofun
  unfold callStep
  cases resolveArguments env (.dict step.arguments) st.saved with
  | error exc => exact wp_ungated_seq traceTask_ungated (fun _ w' h => hstop w' h) fun _ w' h => hstop w' h
  | ok resolvedArgs =>
    refine wp_ungated_seq traceTask_ungated (fun _ w₁ h₁ => ?_) fun _ w' h => hstop w' h
    have hcall := @gated_gate env w₁ (.gatewayCall (.pipelineStep step.stepId) (.str step.toolName) resolvedArgs) rfl
    refine wp_seq (R := fun _ w' => StepsObey env w₀ w') (wp_perform.mpr ?_) (fun record w₂ h₂ => ?_) fun _ _ h => h
    · exact .of_evaluated true ((h₀.quiet h₁).trans hcall) hspec hp ⟨e, he, _, rfl, rfl⟩ fun _ => hallowed
    split
    · exact wp_ungated_seq traceTask_ungated (fun _ w' h => h₂.trans (.of_ungated h))
        fun _ w' h => h₂.trans (.of_ungated h)
    · refine wp_ungated_seq traceTask_ungated (fun _ w₃ h₃ => ?_) fun _ w' h => h₂.trans (.of_ungated h)
      exact wp_mono (hnext _ w₃) fun _ _ h => (h₂.trans (.of_ungated h₃)).trans h

theorem runSteps_gates (hp : env.policyEngine = some p) {steps : List MultiToolPlanStep} :
    wp (sequential env) (runSteps env plan taskId query steps st) (fun _ w' => StepsObey env w w') w := by
  induction steps generalizing st w with
  | nil =>
    unfold runSteps
    exact wp_mono (wp_ungated (Prog.uses_ofExcept_bind fun _ _ => trivial)) fun _ _ h => .of_ungated h
  | cons step rest ih =>
    unfold runSteps
    dsimp only
    split
    · refine wp_mono (wp_ungated (traceTask_ungated.bind fun _ => trivial)) fun _ _ h => .of_ungated h
    refine wp_perform_bind rfl ?_
    have h₀ := @gated_exec env w (.getTool step.toolName) rfl
    cases hspec : env.gateway.registry step.toolName with
    | none =>
      refine wp_mono (wp_ungated ?_) fun _ _ h => .of_ungated (h₀.after h)
      exact traceTask_ungated.bind fun _ => Prog.Uses.bind (recordAudit_uses rfl) fun _ => trivial
    | some spec =>
      refine wp_seq (gateStep_gates hp) ?_ ?_
      · rintro stopped w₁ ⟨e, h, he, hpass⟩
        cases stopped with
        | some d => exact .of_evaluated false (h₀.after h) hspec hp ⟨e, he, rfl⟩ (by rintro ⟨⟩)
        | none => exact callStep_gates hspec hp he (hpass rfl) (h₀.after h) fun st w => ih
      · rintro exc w₁ ⟨e, h, he, -⟩
        exact .of_evaluated false (h₀.after h) hspec hp ⟨e, he, rfl⟩ (by rintro ⟨⟩)

/-- **The pipeline** evaluates the tool of every step that it calls. -/
theorem run_gates (hp : env.policyEngine = some p) {planner : String → MultiToolPlan} :
    wp (sequential env) (run env planner query taskId) (fun _ w' => StepsObey env w w') w := by
  unfold run
  split
  · exact .of_ungated (.refl w)
  · exact runSteps_gates hp

end MultiToolPipeline

/-! ## The graph adapter -/

namespace GraphRuntimeAdapter

variable {env : Env} {planner : Planner} {taskId query : String} {w w' : World} {state : GraphRuntimeState}
  {stage : String} {status : CheckpointStatus} {p : String → Option RiskLevel → Decision}

/-- The id of a checkpoint whose `uuid` is drawn after `n` operations. -/
def checkpointIdAt (taskId stage : String) (n : Nat) : String := s!"graph-{taskId}-{stage}-{Nat.repr n}"

/-- The next checkpoint of the stage has an id that the table has already. -/
def collides (taskId stage : String) (n : Nat) (checkpoints : List CheckpointRow) : Bool :=
  checkpoints.any (hasId (checkpointIdAt taskId stage n))

theorem recordTrace_spec {e t : String} {d : Dict} : wp (sequential env) (recordTrace e t d)
    (fun r w' => r = .ok () ∧ w' = (exec env 0 (.trace e t d) w).2) w := by
  unfold recordTrace
  have hperform : wp (sequential env) (trace e t d)
      (fun r w' => r = .ok () ∧ w' = (exec env 0 (.trace e t d) w).2) w := wp_perform.mpr ⟨rfl, rfl⟩
  exact wp_try hperform (fun _ _ h => h) fun e w' h => nomatch h.1

/-- A row is inserted unless its id is taken, and read back. -/
theorem createCheckpoint_spec {row : CheckpointRow} : wp (sequential env) (createCheckpoint row) (fun r w' =>
    Gated w w' [] ∧ if w.db.checkpoints.any (hasId row.checkpointId) then ∃ e, r = .error e
      else (∃ loaded, r = .ok loaded) ∧ w'.log.length = w.log.length + 2 ∧ ∃ row' : CheckpointRow,
        row'.checkpointId = row.checkpointId ∧ w'.db.checkpoints = w.db.checkpoints ++ [row']) w := by
  unfold createCheckpoint
  generalize hstored : ({ row with graphState := row.graphState.jsonable } : CheckpointRow) = stored
  have hid : stored.checkpointId = row.checkpointId := by rw [← hstored]
  have h₀ := @gated_exec env w (.insertCheckpoint stored) rfl
  by_cases htaken : w.db.checkpoints.any (hasId row.checkpointId) = true
  · simp only [htaken, if_true]
    have hanswer : ∃ e, (dbExec env w.log 0 (.insertCheckpoint stored) w.db).1 = .error e := by
      simp only [dbExec, hid, htaken, if_true]
      exact ⟨_, rfl⟩
    refine wp_seq (R := fun r w' => Gated w w' [] ∧ ∃ e, r = .error e) (wp_perform.mpr ⟨h₀, hanswer⟩) ?_ ?_
    · rintro a w' ⟨-, e, he⟩
      cases he
    · rintro e w' ⟨h, -⟩
      exact ⟨h, e, rfl⟩
  · simp only [htaken, if_false, Bool.false_eq_true]
    have hinsert : dbExec env w.log 0 (.insertCheckpoint stored) w.db =
        (.ok (), { w.db with checkpoints := w.db.checkpoints ++ [stored] }) := by
      simp only [dbExec, hid, htaken, if_false, Bool.false_eq_true]
    refine wp_perform_bind (congrArg Prod.fst hinsert) ?_
    have hdb : (exec env 0 (.insertCheckpoint stored) w).2.db.checkpoints = w.db.checkpoints ++ [stored] := by
      rw [exec_db, hinsert]
    have hlen : (exec env 0 (.insertCheckpoint stored) w).2.log.length = w.log.length + 1 := by simp
    generalize (exec env 0 (.insertCheckpoint stored) w).2 = w₁ at h₀ hdb hlen ⊢
    obtain ⟨loaded, hfind⟩ : ∃ loaded, w₁.db.checkpoints.find? (hasId row.checkpointId) = some loaded := by
      rw [hdb, ← Option.isSome_iff_exists, List.find?_isSome]
      exact ⟨stored, by simp, by simp [hasId, hid]⟩
    refine wp_perform_bind (a := some loaded) ?_ ?_
    · simp only [dbExec, bindText, hfind]
    · have h₁ := h₀.quiet (@gated_exec env w₁ (.getCheckpoint (.str row.checkpointId)) rfl)
      refine ⟨h₁, ⟨loaded, rfl⟩, ?_, stored, hid, hdb⟩
      rw [exec_log, List.length_append, hlen]
      rfl

/-- A checkpoint is written unless its id is taken. -/
theorem checkpoint_spec {runId : Option String} (hrun : runIdOf env state.context = .ok runId) :
    wp (sequential env) (checkpoint env state stage status) (fun r w' => Gated w w' [] ∧
      if collides state.taskId stage w.log.length w.db.checkpoints then ∃ e, r = .error e
      else r = .ok (checkpointIdAt state.taskId stage w.log.length, { state with
          checkpointId := some (checkpointIdAt state.taskId stage w.log.length), checkpointStatus := some status }) ∧
        w'.log.length = w.log.length + 4 ∧ ∃ row : CheckpointRow,
          row.checkpointId = checkpointIdAt state.taskId stage w.log.length ∧
          w'.db.checkpoints = w.db.checkpoints ++ [row]) w := by
  unfold checkpoint collides
  refine wp_perform_bind rfl ?_
  rw [hrun, Prog.ofExcept_ok, Prog.pure_bind']
  have h₀ := @gated_exec env w .uuid rfl
  have hlen₀ : (exec env 0 .uuid w).2.log.length = w.log.length + 1 := by simp
  have hdb₀ : (exec env 0 .uuid w).2.db = w.db := rfl
  generalize (exec env 0 .uuid w).2 = w₁ at h₀ hlen₀ hdb₀ ⊢
  have hid : s!"graph-{state.taskId}-{stage}-{w.log.length.repr}" = checkpointIdAt state.taskId stage w.log.length := rfl
  rw [hid, ← hdb₀]
  refine wp_seq createCheckpoint_spec ?_ ?_
  · rintro loaded w₂ ⟨h₂, hrows⟩
    change if w₁.db.checkpoints.any (hasId (checkpointIdAt state.taskId stage w.log.length)) then _ else _ at hrows
    refine wp_seq (wp_and recordTrace_spec (wp_ungated (recordTrace_uses rfl))) ?_ ?_
    · rintro _ w₃ ⟨⟨-, rfl⟩, h₃⟩
      refine ⟨(h₀.quiet h₂).quiet h₃, ?_⟩
      split at hrows
      · obtain ⟨e, he⟩ := hrows
        cases he
      · rename_i hfree
        obtain ⟨-, hlen, row, hrow, hdb⟩ := hrows
        rw [if_neg hfree]
        refine ⟨rfl, ?_, row, hrow, hdb⟩
        rw [exec_log, List.length_append, hlen, hlen₀]
        rfl
    · rintro e w₃ ⟨⟨h, -⟩, -⟩
      cases h
  · rintro e w₂ ⟨h₂, hrows⟩
    change if w₁.db.checkpoints.any (hasId (checkpointIdAt state.taskId stage w.log.length)) then _ else _ at hrows
    refine ⟨h₀.quiet h₂, ?_⟩
    split at hrows
    · rename_i htaken
      rw [if_pos htaken]
      exact ⟨e, rfl⟩
    · obtain ⟨⟨loaded, h⟩, -⟩ := hrows
      cases h

theorem checkpoint_ungated (hs : status ∈ [.running, .completed, .failed, .blocked, .interrupted]) :
    (checkpoint env state stage status).Uses fun o => o.isGate = false :=
  checkpoint_uses hs rfl (fun _ _ => rfl) (fun _ => rfl) fun _ _ _ => rfl

theorem fail_ungated {exc : PyExc} : (fail env state exc).Uses fun o => o.isGate = false :=
  (checkpoint_ungated (by simp)).bind fun _ => trivial

theorem guarded_ungated {α : Type} {q : Py α} {next : α → Py Dict} (hq : q.Uses fun o => o.isGate = false)
    (hnext : ∀ a, (next a).Uses fun o => o.isGate = false) :
    (guarded env state q next).Uses fun o => o.isGate = false := by
  unfold guarded
  refine Prog.Uses.bind (Prog.Uses.tryCatch (hq.bind fun _ => trivial) fun _ => trivial) fun outcome => ?_
  cases outcome with
  | ok a => exact hnext a
  | error e => exact fail_ungated

theorem respond_ungated {response : Dict} {error : Option String}
    (hs : status ∈ [.running, .completed, .failed, .blocked, .interrupted]) :
    (respond env state response error status).Uses fun o => o.isGate = false :=
  guarded_ungated (checkpoint_ungated hs) fun _ => trivial

theorem interrupt_ungated {toolName : String} {spec : ToolSpec} {decision : Decision} :
    (interrupt env state toolName spec decision).Uses fun o => o.isGate = false := by
  unfold interrupt
  dsimp only
  refine guarded_ungated (checkpoint_ungated (by split <;> simp)) fun c => guarded_ungated ?_ fun _ => trivial
  refine Prog.uses_call_bind.mpr ⟨rfl, fun _ => ?_⟩
  split
  · trivial
  unfold createApproval markPendingInterrupt
  refine Prog.uses_call_bind.mpr ⟨rfl, fun _ => Prog.Uses.bind ?_ fun _ => ?_⟩
  · exact Prog.uses_call_bind.mpr ⟨rfl, fun _ => Prog.uses_call.mpr rfl⟩
  · exact Prog.Uses.bind (recordAudit_uses rfl) fun _ => trivial

/-- The direct call. -/
theorem callTool_gates {toolName : String} : wp (sequential env) (callTool env planner state toolName)
    (fun _ w' => ∃ e, Gated w w' [e] ∧ calledTool e = some toolName) w := by
  unfold callTool
  refine wp_tried (R := fun _ w' => ∃ e, Gated w w' [e] ∧ calledTool e = some toolName) ?_ ?_ ?_
  · have hcall := @gated_gate env w (.gatewayCall .graphKeyword (.str toolName) .null) rfl
    refine wp_seq (R := fun _ w' => ∃ e, Gated w w' [e] ∧ calledTool e = some toolName)
      (wp_perform.mpr ⟨_, hcall, rfl⟩) ?_ fun e w' h => h
    rintro record w₁ ⟨e, h, he⟩
    exact wp_mono (wp_ungated (Prog.uses_ofExcept_bind fun _ _ => trivial)) fun _ _ h' => ⟨e, h.quiet h', he⟩
  · rintro ⟨record, dump⟩ w₁ ⟨e, h, he⟩
    refine wp_mono (wp_ungated ?_) fun _ _ h' => ⟨e, h.quiet h', he⟩
    refine guarded_ungated (checkpoint_ungated (by simp)) fun _ => ?_
    refine guarded_ungated (checkpoint_ungated (by simp)) fun _ => ?_
    exact respond_ungated (by split <;> simp)
  · rintro exc w₁ ⟨e, h, he⟩
    exact wp_mono (wp_ungated fail_ungated) fun _ _ h' => ⟨e, h.quiet h', he⟩

/-- What the adapter evaluates and calls for a plan. -/
def GraphGates (env : Env) (plan : PlanResult) (evs : List Event) : Prop :=
  match plan.toolName with
  | none => evs = []
  | some tool =>
    if !plan.matched ∨ tool = "" then evs = []
    else match env.gateway.registry tool with
      | none => evs = []
      | some spec => ∃ p, env.policyEngine = some p ∧ Evaluated tool (p tool (some spec.riskLevel)).allowed
        (!decide (spec.riskLevel = .high ∨ (p tool (some spec.riskLevel)).requiresApproval = true)) evs

theorem execute_gates (hp : ∃ p, env.policyEngine = some p) {plan : PlanResult} :
    wp (sequential env) (execute env planner state plan) (fun _ w' => ∃ evs, Gated w w' evs ∧
      GraphGates env plan evs) w := by
  obtain ⟨p, hp⟩ := hp
  have hrespond : ∀ {response error status w₁}, Gated w w₁ [] →
      status ∈ [CheckpointStatus.running, .completed, .failed, .blocked, .interrupted] →
      wp (sequential env) (respond env state response error status) (fun _ w' => ∃ evs, Gated w w' evs ∧ evs = []) w₁ :=
    fun h₁ hs => wp_mono (wp_ungated (respond_ungated hs)) fun _ _ h => ⟨[], h₁.quiet h, rfl⟩
  unfold execute GraphGates
  cases plan.toolName with
  | none =>
    refine hrespond (.refl w) ?_
    simp
  | some tool =>
    dsimp only
    by_cases hname : (!plan.matched) = true ∨ tool = ""
    · simp only [if_pos hname]
      refine hrespond (.refl w) ?_
      simp
    simp only [if_neg hname]
    refine wp_tried (R := fun r w' => r = .ok (env.gateway.registry tool) ∧ Gated w w' [])
      (wp_perform.mpr ⟨rfl, gated_exec rfl⟩) ?_ (by rintro e w' ⟨⟨⟩, -⟩)
    rintro spec w₁ ⟨hspec, h₁⟩
    obtain rfl := Except.ok.inj hspec
    cases env.gateway.registry tool with
    | none =>
      refine hrespond h₁ ?_
      simp
    | some spec =>
      dsimp only
      have hanswer : (dbExec env w₁.log 0 (.evaluate tool spec.riskLevel) w₁.db).1 =
          .ok (p tool (some spec.riskLevel)) := by simp only [dbExec, hp]
      have hev := @AgentKernel.answersFor_evaluate w₁ tool env p spec.riskLevel hp
      have hgate := h₁.after (@gated_gate env w₁ (.evaluate tool spec.riskLevel) rfl)
      generalize (⟨0, .evaluate tool spec.riskLevel, (dbExec env w₁.log 0 (.evaluate tool spec.riskLevel) w₁.db).1⟩ :
        Event) = e at hev hgate
      refine wp_tried (R := fun r w' => r = .ok (p tool (some spec.riskLevel)) ∧ Gated w w' [e])
        (wp_perform.mpr ⟨hanswer, hgate⟩) ?_ (by rintro e w' ⟨⟨⟩, -⟩)
      rintro decision w₂ ⟨hdecision, h₂⟩
      obtain rfl := Except.ok.inj hdecision
      by_cases hasks : spec.riskLevel = .high ∨ (p tool (some spec.riskLevel)).requiresApproval = true
      · rw [if_pos hasks]
        refine wp_mono (wp_ungated interrupt_ungated) fun _ w' h => ⟨[e], h₂.quiet h, p, hp, e, hev, ?_⟩
        simp [hasks]
      · rw [if_neg hasks]
        refine wp_mono callTool_gates ?_
        rintro r w' ⟨e', h, he'⟩
        refine ⟨_, h₂.trans h, p, hp, e, hev, ?_⟩
        rw [if_pos (by simpa using hasks)]
        exact ⟨e', rfl, he'⟩

/-- The two checkpoints before the execution find their ids free. -/
def reachesExecute (taskId : String) (n : Nat) (checkpoints : List CheckpointRow) : Bool :=
  !collides taskId "assemble_context" n checkpoints && !collides taskId "plan" (n + 4) checkpoints

theorem checkpointIdAt_ne {n m : Nat} : checkpointIdAt taskId "assemble_context" n ≠ checkpointIdAt taskId "plan" m := by
  intro h
  have hlist := congrArg String.toList h
  simp only [checkpointIdAt, String.toList_append, List.append_assoc, List.append_cancel_left_eq] at hlist
  have hassemble : (toString "assemble_context").toList = 'a' :: "ssemble_context".toList := by decide
  have hplan : (toString "plan").toList = 'p' :: "lan".toList := by decide
  rw [hassemble, hplan] at hlist
  exact absurd (List.cons.inj hlist).1 (by decide)

/-- **The graph adapter** evaluates and calls the planned tool once its checkpoints are written. -/
theorem runKeyword_gates (hp : ∃ p, env.policyEngine = some p) :
    wp (sequential env) (runKeyword env planner taskId query) (fun _ w' => ∃ evs, Gated w w' evs ∧
      if reachesExecute taskId w.log.length w.db.checkpoints then GraphGates env (planner.plan query) evs
      else evs = []) w := by
  have hrun : runIdOf env (some (assembleContext env.toolNames taskId query)) = .ok none := by
    rfl
  have hfail : ∀ {state e w₁} {b : Bool}, b = false → Gated w w₁ [] → wp (sequential env) (fail env state e)
      (fun _ w' => ∃ evs, Gated w w' evs ∧ if b then GraphGates env (planner.plan query) evs else evs = []) w₁ := by
    rintro state e w₁ b rfl h₁
    exact wp_mono (wp_ungated fail_ungated) fun _ _ h => ⟨[], h₁.quiet h, rfl⟩
  unfold runKeyword
  dsimp only
  refine wp_tried (checkpoint_spec hrun) ?_ ?_
  · rintro ⟨c, state⟩ w₁ ⟨h₁, hrows⟩
    split at hrows
    · obtain ⟨e, he⟩ := hrows
      cases he
    rename_i hfree
    obtain ⟨hstate, hlen, row, hrow, hdb⟩ := hrows
    obtain ⟨rfl, rfl⟩ := Prod.mk.inj (Except.ok.inj hstate)
    have hsecond : collides taskId "plan" w₁.log.length w₁.db.checkpoints =
        collides taskId "plan" (w.log.length + 4) w.db.checkpoints := by
      have hne : hasId (checkpointIdAt taskId "plan" (w.log.length + 4)) row = false := by
        simp only [hasId, beq_eq_false_iff_ne, hrow]
        exact checkpointIdAt_ne
      unfold collides
      rw [hdb, hlen, List.any_append]
      simp [hne]
    refine wp_tried (checkpoint_spec hrun) ?_ ?_
    · rintro ⟨c', state'⟩ w₂ ⟨h₂, hrows⟩
      split at hrows
      · obtain ⟨e, he⟩ := hrows
        cases he
      rename_i hfree'
      have hreaches : reachesExecute taskId w.log.length w.db.checkpoints = true := by
        unfold reachesExecute
        rw [← hsecond]
        simp [hfree, hfree']
      simp only [hreaches, if_true]
      refine wp_mono (execute_gates hp) ?_
      rintro r w' ⟨evs, h, hevs⟩
      exact ⟨evs, (h₁.quiet h₂).after h, hevs⟩
    · rintro e w₂ ⟨h₂, hrows⟩
      split at hrows
      · rename_i htaken
        refine hfail ?_ (h₁.quiet h₂)
        unfold reachesExecute
        rw [← hsecond]
        simp [htaken]
      · cases hrows.1
  · rintro e w₁ ⟨h₁, hrows⟩
    split at hrows
    · rename_i htaken
      refine hfail ?_ h₁
      unfold reachesExecute
      simp [htaken]
    · cases hrows.1

end GraphRuntimeAdapter

/-! ## The law on each path -/

/-- The log of a part that was served alone has the evaluations and calls of the part. -/
theorem obeys_serve {env : Env} {α : Type} {p : Py α} {db : Db} {R : List Event → Prop} {c : Prop}
    (h : wp (sequential env) p (fun _ w' => ∃ evs, Gated ⟨db, []⟩ w' evs ∧ R evs) ⟨db, []⟩)
    (hiff : ∀ evs, R evs → (ObeysPolicy evs ↔ c)) : ObeysPolicy (serve env p ⟨db, []⟩).2.log ↔ c := by
  obtain ⟨evs, hgates, hevs⟩ := serve_of_wp h
  have hlog : gates (serve env p ⟨db, []⟩).2.log = evs := hgates
  rw [← obeysPolicy_gates, hlog]
  exact hiff evs hevs

namespace AgentKernel

/-- The kernel with this policy engine. -/
def under (k : AgentKernel) (e : PolicyEngine) : AgentKernel := { k with env := k.env.under e }

/-- The planned tool is not registered. -/
def plansUnregistered (k : AgentKernel) (query : String) : Bool :=
  match (k.planner.plan query).toolName with
  | none => false
  | some tool => !(tool == "") && (k.env.gateway.registry tool).isNone

theorem run_obeys_iff {k : AgentKernel} {e : PolicyEngine} {task : TaskRun} {db : Db} :
    ObeysPolicy (serve (k.under e).env ((k.under e).run task) ⟨db, []⟩).2.log ↔
      k.plansUnregistered task.query = false := by
  refine obeys_serve (@run_gates (k.under e) task ⟨db, []⟩ ⟨_, rfl⟩) fun evs hevs => ?_
  rw [keywordGates_obeys hevs]
  show (∀ t, (k.planner.plan task.query).toolName = some t → t ≠ "" → (k.env.gateway.registry t).isSome) ↔ _
  unfold plansUnregistered
  cases (k.planner.plan task.query).toolName with
  | none => exact iff_of_true nofun rfl
  | some tool =>
    dsimp only
    rw [Bool.and_eq_false_iff]
    constructor
    · intro hall
      by_cases hname : tool = ""
      · exact .inl (by simp [hname])
      · exact .inr (by simpa using hall tool rfl hname)
    · rintro h t ht hne
      obtain rfl := Option.some.inj ht
      rcases h with h | h
      · exact absurd (by simpa using h) hne
      · simpa using h

end AgentKernel

namespace GraphRuntimeAdapter

/-- The whitelist refuses the planned tool, whose risk is not high. -/
def callsDenied (env : Env) (e : PolicyEngine) (planner : Planner) (taskId query : String)
    (checkpoints : List CheckpointRow) : Bool :=
  reachesExecute taskId 0 checkpoints && (planner.plan query).matched &&
    match (planner.plan query).toolName with
    | none => false
    | some tool => !(tool == "") && match env.gateway.registry tool with
      | none => false
      | some spec => !decide (spec.riskLevel = .high) && e.whitelistDenies tool (some spec.riskLevel)

theorem graphGates_obeys {env : Env} {e : PolicyEngine} {plan : PlanResult} {evs : List Event}
    (h : GraphGates (env.under e) plan evs) : ObeysPolicy evs ↔ (plan.matched && match plan.toolName with
      | none => false
      | some tool => !(tool == "") && match env.gateway.registry tool with
        | none => false
        | some spec => !decide (spec.riskLevel = .high) && e.whitelistDenies tool (some spec.riskLevel)) = false := by
  have hnil : ObeysPolicy [] := ⟨permitted_nil, fun e he => by cases he⟩
  unfold GraphGates at h
  cases htool : plan.toolName with
  | none =>
    rw [htool] at h
    rw [h]
    exact iff_of_true hnil (Bool.and_false _)
  | some tool =>
    rw [htool] at h
    dsimp only at h ⊢
    split at h
    · rename_i hname
      rw [h]
      refine iff_of_true hnil ?_
      rcases hname with hmatched | rfl
      · rw [show plan.matched = false by simpa using hmatched]
        rfl
      · simp
    · rename_i hname
      obtain ⟨hmatched, hname⟩ := not_or.mp hname
      have hmatched : plan.matched = true := by simpa using hmatched
      have hne : (!(tool == "")) = true := by simpa using hname
      rw [hmatched, hne, Bool.true_and, Bool.true_and]
      change (match env.gateway.registry tool with
        | none => evs = []
        | some spec => ∃ p, (env.under e).policyEngine = some p ∧ _) at h
      cases hspec : env.gateway.registry tool with
      | none =>
        rw [hspec] at h
        rw [show evs = [] from h]
        exact iff_of_true hnil rfl
      | some spec =>
        rw [hspec] at h
        obtain ⟨p, hp, hevs⟩ := h
        obtain rfl := Option.some.inj hp
        rw [evaluated_obeys_iff hevs]
        simp only [PolicyEngine.evaluate_allowed, PolicyEngine.evaluate_requiresApproval]
        by_cases hhigh : spec.riskLevel = .high
        · simp [hhigh]
        · cases e.whitelistDenies tool (some spec.riskLevel) <;> simp [hhigh]

theorem runKeyword_obeys_iff {env : Env} {e : PolicyEngine} {planner : Planner} {taskId query : String} {db : Db} :
    ObeysPolicy (serve (env.under e) (runKeyword (env.under e) planner taskId query) ⟨db, []⟩).2.log ↔
      callsDenied env e planner taskId query db.checkpoints = false := by
  refine obeys_serve (@runKeyword_gates (env.under e) planner taskId query ⟨db, []⟩ ⟨_, rfl⟩) fun evs hevs => ?_
  change if reachesExecute taskId 0 db.checkpoints then _ else _ at hevs
  unfold callsDenied
  rw [Bool.and_assoc]
  split at hevs
  · rename_i hreaches
    rw [graphGates_obeys hevs, hreaches, Bool.true_and]
  · rename_i hreaches
    rw [hevs, Bool.eq_false_iff.mpr hreaches]
    exact iff_of_true ⟨permitted_nil, fun e he => by cases he⟩ rfl

end GraphRuntimeAdapter

theorem MultiToolPipeline.run_obeys {env : Env} {e : PolicyEngine} {planner : String → MultiToolPlan}
    {taskId query : String} {db : Db} :
    ObeysPolicy (serve (env.under e) (run (env.under e) planner query taskId) ⟨db, []⟩).2.log := by
  refine (obeys_serve (c := True) (@run_gates (env.under e) taskId query ⟨db, []⟩ _ rfl planner) ?_).mpr trivial
  exact fun evs h => iff_true_intro (obeys_of_faithful h.1 h.2)

/-- **No path bypasses the policy**, but the keyword path where it plans a tool that is not registered, and the
graph adapter where the whitelist refuses a tool whose risk is not high. -/
theorem paths_obey_iff (k : AgentKernel) (e : PolicyEngine) (adapter : Planner) (planner : String → MultiToolPlan)
    (task : TaskRun) (db : Db) :
    (ObeysPolicy (serve (k.under e).env ((k.under e).run task) ⟨db, []⟩).2.log ↔
        k.plansUnregistered task.query = false) ∧
      (ObeysPolicy (serve (k.env.under e) (GraphRuntimeAdapter.runKeyword (k.env.under e) adapter task.taskId
          task.query) ⟨db, []⟩).2.log ↔
        GraphRuntimeAdapter.callsDenied k.env e adapter task.taskId task.query db.checkpoints = false) ∧
      ObeysPolicy (serve (k.env.under e) (MultiToolPipeline.run (k.env.under e) planner task.query task.taskId)
        ⟨db, []⟩).2.log :=
  ⟨AgentKernel.run_obeys_iff, GraphRuntimeAdapter.runKeyword_obeys_iff, MultiToolPipeline.run_obeys⟩

/-- The report is of low risk and writes, so a whitelist over the registry refuses it; the graph adapter calls it. -/
theorem graph_bypasses : ¬ ObeysPolicy (serve (demoEnv.under ⟨some ⟨some demoEnv.gateway.registry⟩⟩)
    (GraphRuntimeAdapter.runKeyword (demoEnv.under ⟨some ⟨some demoEnv.gateway.registry⟩⟩) (demoPlanner "report") "t" "q")
    ⟨⟨[], fun _ => none, []⟩, []⟩).2.log := by
  rw [GraphRuntimeAdapter.runKeyword_obeys_iff]
  decide

end AgentHarness
