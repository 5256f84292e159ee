import AgentHarness.Lib.Handler
import AgentHarness.MultiAgent
import AgentHarness.Requests

/-!
# Orchestrator — what `MultiAgentOrchestrator.run` makes of its executions

The orchestrator calls the executor once, has the result reviewed, and calls it once more if the review
suggests another mode.  Here the executor is what answers an operation, in any way; `run_eq_interp` puts the
executor of the service behind it.
-/

namespace AgentHarness

open Lib Py

/-- What the orchestrator asks for. -/
inductive OrchestratorOp where
  | execute (mode : String)
  | trace (eventType : String) (detail : Dict)

def OrchestratorOp.Answer : OrchestratorOp → Type
  | execute _ => Dict × AgentDecision
  | trace _ _ => Unit

abbrev OrchestratorProg (α : Type) := Prog OrchestratorOp OrchestratorOp.Answer PyExc α

def askExecute (mode : String) : OrchestratorProg (Dict × AgentDecision) := Prog.call (OrchestratorOp.execute mode)

def askTrace (eventType : String) (detail : Dict) : OrchestratorProg Unit :=
  Prog.call (OrchestratorOp.trace eventType detail)

/-- An execution with the mode that was asked for. -/
structure Execution where
  mode : String
  result : Except PyExc (Dict × AgentDecision)

namespace MultiAgentOrchestrator

/-- `run`, over the operations. -/
def runAsking (env : Env) (coordinator : CoordinatorAgent) (riskIntentGuard : String → RiskIntentFinding)
    (query : String) : OrchestratorProg MultiAgentRunResult :=
  runOver askTrace askExecute env coordinator riskIntentGuard query

/-- The executor and the traces of the service. -/
def handler (env : Env) (o : MultiAgentOrchestrator) (req : RunRequest) :
    (op : OrchestratorOp) → Py op.Answer
  | .execute mode => o.executor.execute env req mode
  | .trace eventType detail => traceTask eventType req.taskId detail

section Interp

variable {O O' : Type} {A : O → Type} {A' : O' → Type} {h : (o : O) → Prog O' A' PyExc (A o)}
  {trace : String → Dict → Prog O A PyExc Unit} {execute : String → Prog O A PyExc (Dict × AgentDecision)}
  {env : Env} {st : Stages}

theorem interp_fallback {mode : String} : (fallback trace execute st mode).interp h =
    fallback (fun e d => (trace e d).interp h) (fun m => (execute m).interp h) st mode := by
  unfold fallback
  simp only [Prog.interp_bind]
  rfl

theorem interp_stages {mode : String} {decisions : List AgentDecision} :
    (stages trace execute mode decisions).interp h =
      stages (fun e d => (trace e d).interp h) (fun m => (execute m).interp h) mode decisions := by
  unfold stages
  simp only [Prog.interp_bind]
  refine congrArg (_ >>= ·) (funext fun executed => ?_)
  refine congrArg (_ >>= ·) (funext fun _ => congrArg (_ >>= ·) (funext fun _ => ?_))
  split
  · rfl
  · exact interp_fallback

theorem interp_conclude : (conclude trace env st).interp h = conclude (fun e d => (trace e d).interp h) env st := by
  unfold conclude
  simp only [Prog.interp_bind, Prog.interp_ofExcept]
  refine congrArg (_ >>= ·) (funext fun answer => congrArg (_ >>= ·) (funext fun successField =>
    congrArg (_ >>= ·) (funext fun modeField => ?_)))
  split
  · exact Prog.interp_bind
  · exact Prog.interp_bind

theorem interp_runOver {coordinator : CoordinatorAgent} {riskIntentGuard : String → RiskIntentFinding}
    {query : String} : (runOver trace execute env coordinator riskIntentGuard query).interp h =
      runOver (fun e d => (trace e d).interp h) (fun m => (execute m).interp h) env coordinator riskIntentGuard
        query := by
  unfold runOver
  rw [Prog.interp_bind]
  refine congrArg (_ >>= ·) (funext fun _ => ?_)
  dsimp only
  split
  · simp only [Prog.interp_bind]
    rfl
  · simp only [Prog.interp_bind, Prog.interp_ofExcept, interp_stages, interp_conclude]

end Interp

/-- The run of the service is the run over the operations, with its executor behind them. -/
theorem run_eq_interp {env : Env} {o : MultiAgentOrchestrator} {req : RunRequest} :
    o.run env req =
      (runAsking env o.coordinator o.riskIntentGuard req.query).interp (handler env o req) := by
  have htrace : (fun eventType detail => (askTrace eventType detail).interp (handler env o req)) =
      fun eventType detail => traceTask eventType req.taskId detail :=
    funext fun eventType => funext fun detail =>
      Prog.interp_call (h := handler env o req) (o := OrchestratorOp.trace eventType detail)
  have hexecute : (fun mode => (askExecute mode).interp (handler env o req)) =
      fun mode => o.executor.execute env req mode :=
    funext fun mode => Prog.interp_call (h := handler env o req) (o := OrchestratorOp.execute mode)
  unfold run runAsking
  rw [interp_runOver, htrace, hexecute]

/-! ## Runs -/

section Runs

variable {W : Type}

/-- A world that answers in any way, with the executions. -/
def watched (answer : (o : OrchestratorOp) → W → Except PyExc o.Answer × W) :
    (o : OrchestratorOp) → W × List Execution → Except PyExc o.Answer × W × List Execution
  | .execute mode, w => ((answer (.execute mode) w.1).1, (answer (.execute mode) w.1).2,
      w.2 ++ [⟨mode, (answer (.execute mode) w.1).1⟩])
  | .trace eventType detail, w => ((answer (.trace eventType detail) w.1).1, (answer (.trace eventType detail) w.1).2, w.2)

/-- The executions so far; the traces raise only where that is granted. -/
def executions (faulty : Prop) : Machine OrchestratorOp OrchestratorOp.Answer PyExc (List Execution) where
  may _ _ := True
  step l
    | .execute mode, r, l' => l' = l ++ [⟨mode, r⟩]
    | .trace _ _, r, l' => l' = l ∧ (r = .ok () ∨ faulty)

variable {answer : (o : OrchestratorOp) → W → Except PyExc o.Answer × W} {w : W × List Execution} {α : Type}
  {faulty : Prop} {l : List Execution} {Q : Except PyExc α → List Execution → Prop}

theorem run_executions {p : OrchestratorProg α}
    (htrace : ∀ eventType detail w, (answer (.trace eventType detail) w).1 = .ok () ∨ faulty)
    (h : wp (executions faulty) p Q w.2) : Q (p.run (watched answer) w).1 (p.run (watched answer) w).2.2 := by
  have hsim : ∀ (w : W × List Execution) (l : List Execution) o, w.2 = l → (executions faulty).may l o →
      ∃ l', (executions faulty).step l o (watched answer o w).1 l' ∧ (watched answer o w).2.2 = l' := by
    rintro w l o rfl -
    cases o with
    | execute mode => exact ⟨_, rfl, rfl⟩
    | trace eventType detail => exact ⟨_, ⟨rfl, htrace eventType detail w.1⟩, rfl⟩
  obtain ⟨l', hl, hQ⟩ := wp_run hsim rfl h
  rw [hl]
  exact hQ

theorem wp_askTrace {eventType : String} {detail : Dict} {f : Unit → OrchestratorProg α}
    (h : wp (executions faulty) (f ()) Q l) (herr : faulty → ∀ e, Q (.error e) l) :
    wp (executions faulty) (askTrace eventType detail >>= f) Q l := by
  refine wp_bind.mpr ((wp_call (o := OrchestratorOp.trace eventType detail)).mpr ⟨trivial, ?_⟩)
  rintro (e | ⟨⟩) l' ⟨rfl, hok | hfaulty⟩
  · cases hok
  · exact herr hfaulty e
  · exact h
  · exact h

theorem wp_askExecute {mode : String} {f : Dict × AgentDecision → OrchestratorProg α}
    (h : ∀ x, wp (executions faulty) (f x) Q (l ++ [⟨mode, .ok x⟩]))
    (herr : ∀ e, Q (.error e) (l ++ [⟨mode, .error e⟩])) :
    wp (executions faulty) (askExecute mode >>= f) Q l := by
  refine wp_bind.mpr ((wp_call (o := OrchestratorOp.execute mode)).mpr ⟨trivial, ?_⟩)
  rintro (e | x) l' rfl
  · exact herr e
  · exact h x

end Runs

/-! ## The stages -/

/-- The mode that the review of a result suggests. -/
def suggestion (d : Dict) (mode : String) : Option String :=
  if (ReviewerAgent.review d mode).1.approved then none else (ReviewerAgent.review d mode).1.suggestedFallbackMode

end MultiAgentOrchestrator

namespace Execution

/-- The review approves of what the execution returned. -/
def approved (e : Execution) : Bool :=
  match e.result with
  | .ok (d, _) => (ReviewerAgent.review d e.mode).1.approved
  | .error _ => false

/-- The execution returned this result, and this is its review. -/
def Judges (e : Execution) (d : Dict) (review : ReviewResult) : Prop :=
  ∃ decision, e.result = .ok (d, decision) ∧ review = (ReviewerAgent.review d e.mode).1

/-- The execution that the orchestrator reports. -/
def reported : List Execution → Option Execution
  | [] => none
  | [e] => some e
  | e :: e' :: _ => if e'.approved then some e' else some e

theorem mem_of_reported {l : List Execution} {e : Execution} (h : reported l = some e) : e ∈ l := by
  rcases l with _ | ⟨first, _ | ⟨second, rest⟩⟩
  · cases h
  · obtain rfl := Option.some.inj h
    exact List.mem_cons_self
  · unfold reported at h
    dsimp only at h
    split at h
    · obtain rfl := Option.some.inj h
      exact List.mem_cons_of_mem _ List.mem_cons_self
    · obtain rfl := Option.some.inj h
      exact List.mem_cons_self

end Execution

namespace MultiAgentOrchestrator

/-- The executions that a review lets happen: one, and one more where the first review suggests it. -/
structure Staged (faulty : Prop) (mode : String) (r : Except PyExc Stages) (l : List Execution) : Prop where
  executed : ∃ first, l = [⟨mode, first⟩] ∧ (∀ d decision, first = .ok (d, decision) →
      suggestion d mode = none ∨ faulty) ∨
    ∃ d decision fallbackMode second, first = .ok (d, decision) ∧ suggestion d mode = some fallbackMode ∧
      l = [⟨mode, first⟩, ⟨fallbackMode, second⟩]
  result : ∀ st, r = .ok st → st.fallbackChain = l.map Execution.mode ∧
    ∃ e, Execution.reported l = some e ∧ e.Judges st.result st.review

variable {faulty : Prop} {mode fallbackMode : String} {decisions : List AgentDecision} {st : Stages} {d : Dict}
  {decision : AgentDecision}

/-- From one execution, whose result the stages hold. -/
theorem fallback_spec (hresult : st.result = d) (hreview : st.review = (ReviewerAgent.review d mode).1)
    (hchain : st.fallbackChain = [mode]) (hsuggest : suggestion d mode = some fallbackMode) :
    wp (executions faulty) (fallback askTrace askExecute st fallbackMode) (Staged faulty mode)
      [⟨mode, .ok (d, decision)⟩] := by
  have htwice : ∀ e second, Staged faulty mode (.error e) [⟨mode, .ok (d, decision)⟩, ⟨fallbackMode, second⟩] :=
    fun e second => ⟨⟨_, .inr ⟨d, decision, fallbackMode, second, rfl, hsuggest, rfl⟩⟩, fun st h => by cases h⟩
  unfold fallback
  refine wp_askTrace ?_ fun hfaulty e => ⟨⟨_, .inl ⟨rfl, fun _ _ _ => .inr hfaulty⟩⟩, fun st h => by cases h⟩
  refine wp_askExecute (fun x => ?_) fun e => htwice e _
  obtain ⟨d', decision'⟩ := x
  refine wp_askTrace ?_ fun _ e => htwice e _
  rcases hreviewed : ReviewerAgent.review d' fallbackMode with ⟨review, reviewer⟩
  refine wp_askTrace ?_ fun _ e => htwice e _
  refine wp_askTrace ?_ fun _ e => htwice e _
  refine ⟨⟨_, .inr ⟨d, decision, fallbackMode, _, rfl, hsuggest, rfl⟩⟩, ?_⟩
  intro st' hst
  obtain rfl := Except.ok.inj hst
  have hsecond : (⟨fallbackMode, .ok (d', decision')⟩ : Execution).approved = review.approved := by
    show (ReviewerAgent.review d' fallbackMode).1.approved = review.approved
    rw [hreviewed]
  by_cases happroved : review.approved = true
  · rw [if_pos happroved]
    refine ⟨by simp [hchain], ⟨fallbackMode, .ok (d', decision')⟩, ?_, decision', rfl, by rw [hreviewed]⟩
    exact if_pos (hsecond.trans happroved)
  · rw [if_neg happroved]
    refine ⟨by simp [hchain], ⟨mode, .ok (d, decision)⟩, ?_, decision, by rw [hresult], by rw [hreview, hresult]⟩
    exact if_neg fun h => happroved (hsecond.symm.trans h)

theorem stages_spec : wp (executions faulty) (stages askTrace askExecute mode decisions) (Staged faulty mode) [] := by
  unfold stages
  refine wp_askExecute (fun x => ?_) fun e => ?_
  · obtain ⟨d, decision⟩ := x
    have hstop : ∀ e, faulty → Staged faulty mode (.error e) [⟨mode, .ok (d, decision)⟩] := fun e hfaulty =>
      ⟨⟨_, .inl ⟨rfl, fun _ _ _ => .inr hfaulty⟩⟩, fun st h => by cases h⟩
    refine wp_askTrace ?_ fun hfaulty e => hstop e hfaulty
    rcases hreviewed : ReviewerAgent.review d mode with ⟨review, reviewer⟩
    have hnext : (if review.approved then none else review.suggestedFallbackMode) = suggestion d mode := by
      unfold suggestion
      rw [hreviewed]
    have hreview : review = (ReviewerAgent.review d mode).1 := by rw [hreviewed]
    refine wp_askTrace ?_ fun hfaulty e => hstop e hfaulty
    dsimp only
    rw [hnext]
    rcases hsuggest : suggestion d mode with _ | fallbackMode
    · refine ⟨⟨_, .inl ⟨rfl, ?_⟩⟩, ?_⟩
      · rintro d' decision' ⟨⟩
        exact .inl hsuggest
      · rintro st ⟨⟩
        exact ⟨rfl, _, rfl, decision, rfl, hreview⟩
    · exact fallback_spec rfl hreview rfl hsuggest
  · exact ⟨⟨_, .inl ⟨rfl, fun d decision h => by cases h⟩⟩, fun st h => by cases h⟩

/-! ## What is reported -/

/-- The success of a result, as the model reads it, is what the review makes of it. -/
def AgreesWithReview (d : Dict) : Prop :=
  ∀ b, boolField (Dict.getD d "success" (.bool false)) = .ok b →
    (b = true ↔ (Dict.getD d "success" (.bool false)).truthy = true ∧ ReviewerAgent.hasAnswer d = true)

/-- The result that is reported agrees with its review. -/
def ReportAgrees (l : List Execution) : Prop :=
  ∀ e ∈ Execution.reported l, ∀ d decision, e.result = .ok (d, decision) → AgreesWithReview d

/-- The result of a run fits the executions of the run. -/
structure Consistent (r : MultiAgentRunResult) (l : List Execution) : Prop where
  success_iff : r.success = true ↔ Dict.get r.reviewResult "approved" = .bool true
  judged : l ≠ [] → ∃ e ∈ l, ∃ review, e.Judges r.executionResult review ∧ r.reviewResult = review.toDict
  twice : l.length ≤ 2
  chain : r.fallbackChain = l.map Execution.mode

theorem review_approved : (ReviewerAgent.review d mode).1.approved = true ↔
    (Dict.getD d "success" (.bool false)).truthy = true ∧ ReviewerAgent.hasAnswer d = true := by
  unfold ReviewerAgent.review
  dsimp only
  by_cases hgood : (Dict.getD d "success" (.bool false)).truthy = true ∧ ReviewerAgent.hasAnswer d = true
  · rw [if_pos hgood]
    exact ⟨fun _ => hgood, fun _ => rfl⟩
  · rw [if_neg hgood]
    refine ⟨fun happroved => absurd happroved ?_, fun h => absurd h hgood⟩
    split
    · exact Bool.false_ne_true
    · split
      · exact Bool.false_ne_true
      · split <;> exact Bool.false_ne_true

theorem wp_ofExcept_bind {α β : Type} {x : Except PyExc α} {f : α → OrchestratorProg β} {l : List Execution}
    {Q : Except PyExc β → List Execution → Prop} (h : ∀ a, x = .ok a → wp (executions faulty) (f a) Q l)
    (herr : ∀ e, Q (.error e) l) : wp (executions faulty) (Prog.ofExcept x >>= f) Q l := by
  cases x with
  | error e => exact herr e
  | ok a => exact h a rfl

/-- What is concluded is what the stages have left. -/
theorem conclude_spec {env : Env} {l : List Execution} :
    wp (executions faulty) (conclude askTrace env st) (fun r l' => l' = l ∧ ∀ result, r = .ok result →
      boolField (Dict.getD st.result "success" (.bool false)) = .ok result.success ∧
        result.executionResult = st.result ∧ result.reviewResult = st.review.toDict ∧
        result.fallbackChain = st.fallbackChain) l := by
  have hraised : ∀ e : PyExc, l = l ∧ ∀ result, (.error e : Except PyExc MultiAgentRunResult) = .ok result →
      boolField (Dict.getD st.result "success" (.bool false)) = .ok result.success ∧
        result.executionResult = st.result ∧ result.reviewResult = st.review.toDict ∧
        result.fallbackChain = st.fallbackChain := fun e => ⟨rfl, fun result h => by cases h⟩
  unfold conclude
  refine wp_ofExcept_bind (fun answer _ => ?_) hraised
  refine wp_ofExcept_bind (fun success hsuccess => ?_) hraised
  refine wp_ofExcept_bind (fun mode _ => ?_) hraised
  have hdone : ∀ result, (.ok ⟨success, mode, env.format answer, st.decisions, st.result, st.review.toDict,
      st.fallbackChain⟩ : Except PyExc MultiAgentRunResult) = .ok result →
      boolField (Dict.getD st.result "success" (.bool false)) = .ok result.success ∧
        result.executionResult = st.result ∧ result.reviewResult = st.review.toDict ∧
        result.fallbackChain = st.fallbackChain := by
    intro result h
    obtain rfl := Except.ok.inj h
    exact ⟨hsuccess, rfl, rfl, rfl⟩
  split
  · exact wp_askTrace ⟨rfl, hdone⟩ fun _ e => hraised e
  · exact wp_askTrace ⟨rfl, hdone⟩ fun _ e => hraised e

theorem consistent_iff {l : List Execution} {result : MultiAgentRunResult} (hst : Staged faulty mode (.ok st) l)
    (hresult : boolField (Dict.getD st.result "success" (.bool false)) = .ok result.success ∧
      result.executionResult = st.result ∧ result.reviewResult = st.review.toDict ∧
      result.fallbackChain = st.fallbackChain) : Consistent result l ↔ ReportAgrees l := by
  obtain ⟨hfield, hexecution, hreview, hchain⟩ := hresult
  obtain ⟨hmodes, e, hreported, decision, he, hjudged⟩ := hst.result st rfl
  have happroved : Dict.get result.reviewResult "approved" = .bool true ↔
      (Dict.getD st.result "success" (.bool false)).truthy = true ∧ ReviewerAgent.hasAnswer st.result = true := by
    rw [← @review_approved e.mode, ← hjudged, hreview]
    show PyVal.bool st.review.approved = .bool true ↔ _
    simp
  constructor
  · rintro ⟨hsuccess, -, -, -⟩ e' he' d decision' hd b hb
    obtain rfl := Option.some.inj (hreported.symm.trans he')
    obtain ⟨rfl, rfl⟩ := Prod.mk.inj (Except.ok.inj (he.symm.trans hd))
    obtain rfl := Except.ok.inj (hfield.symm.trans hb)
    rw [hsuccess, happroved]
  · intro hagrees
    have htwice : l.length ≤ 2 := by
      obtain ⟨first, ⟨rfl, -⟩ | ⟨d, _, fallbackMode, second, -, -, rfl⟩⟩ := hst.executed
      · exact Nat.le_succ 1
      · exact Nat.le_refl 2
    refine ⟨?_, fun _ => ⟨e, Execution.mem_of_reported hreported, st.review, ⟨decision, ?_, ?_⟩, hreview⟩, htwice, hchain.trans hmodes⟩
    · rw [happroved]
      exact hagrees e hreported st.result decision he result.success hfield
    · rw [hexecution]
      exact he
    · rw [hexecution]
      exact hjudged

theorem run_spec {env : Env} {coordinator : CoordinatorAgent} {riskIntentGuard : String → RiskIntentFinding}
    {query : String} :
    wp (executions faulty) (runAsking env coordinator riskIntentGuard query) (fun r l =>
      (l = [] ∨ ∃ mode st, Staged faulty mode st l) ∧
      ∀ result, r = .ok result → (Consistent result l ↔ ReportAgrees l)) [] := by
  have hnone : ∀ e : PyExc, (([] : List Execution) = [] ∨ ∃ mode st, Staged faulty mode st ([] : List Execution)) ∧
      ∀ result, (.error e : Except PyExc MultiAgentRunResult) = .ok result →
        (Consistent result [] ↔ ReportAgrees []) := fun e => ⟨.inl rfl, fun result h => by cases h⟩
  unfold runAsking runOver
  refine wp_askTrace ?_ fun _ e => hnone e
  dsimp only
  split
  · refine wp_askTrace ?_ fun _ e => hnone e
    refine wp_askTrace ?_ fun _ e => hnone e
    refine ⟨.inl rfl, ?_⟩
    intro result hresult
    obtain rfl := Except.ok.inj hresult
    refine ⟨fun _ e he => absurd he (Option.not_mem_none e), fun _ => ⟨?_, fun h => absurd rfl h, Nat.zero_le 2, rfl⟩⟩
    exact ⟨fun h => absurd h Bool.false_ne_true, fun h => nomatch h⟩
  · refine wp_ofExcept_bind (fun decision _ => ?_) hnone
    refine wp_askTrace ?_ fun _ e => hnone e
    refine wp_askTrace ?_ fun _ e => hnone e
    refine wp_seq stages_spec (fun st l hst => ?_) fun e l hst => ⟨.inr ⟨_, _, hst⟩, fun result h => by cases h⟩
    refine wp_mono conclude_spec ?_
    rintro r l' ⟨rfl, hconclude⟩
    refine ⟨.inr ⟨_, _, hst⟩, fun result hresult => ?_⟩
    exact consistent_iff hst (hconclude result hresult)

/-- **Result consistency.**  Whatever the executor answers, a result that is returned fits the executions of the
run exactly when the success of the reported one agrees with its review. -/
theorem result_consistent {W : Type} (env : Env) (coordinator : CoordinatorAgent)
    (riskIntentGuard : String → RiskIntentFinding) (query : String)
    (answer : (o : OrchestratorOp) → W → Except PyExc o.Answer × W) (w : W) :
    ∀ result, ((runAsking env coordinator riskIntentGuard query).run (watched answer) (w, [])).1 = .ok result →
      (Consistent result ((runAsking env coordinator riskIntentGuard query).run (watched answer) (w, [])).2.2 ↔
        ReportAgrees ((runAsking env coordinator riskIntentGuard query).run (watched answer) (w, [])).2.2) :=
  (run_executions (w := (w, [])) (fun _ _ _ => .inr trivial) run_spec).2

/-- A coordinator that follows the routing rules. -/
def rulesOnly : CoordinatorAgent := ⟨fun _ => false, fun _ => .error ""⟩

/-- An executor that returns the same result whatever the mode. -/
def alwaysReturns (d : Dict) : (o : OrchestratorOp) → Unit → Except PyExc o.Answer × Unit
  | .execute _, w => (.ok (d, ⟨.executor, "", "", 0, []⟩), w)
  | .trace _ _, w => (.ok (), w)

/-- The run of a query that no rule routes, past the guard. -/
def plainRun (d : Dict) : Except PyExc MultiAgentRunResult × Unit × List Execution :=
  (runAsking demoEnv rulesOnly (fun _ => ⟨false, "", []⟩) "q").run (watched (alwaysReturns d)) ((), [])

/-- Success and approval of the result that is returned. -/
def verdicts : Except PyExc MultiAgentRunResult → Option (Bool × Bool)
  | .ok result => some (result.success, (Dict.get result.reviewResult "approved").truthy)
  | .error _ => none

theorem result_consistent_demo :
    ∃ result, (plainRun [("success", .bool true), ("answer", .str "42")]).1 = .ok result ∧
      Consistent result (plainRun [("success", .bool true), ("answer", .str "42")]).2.2 := by
  have hlog : (plainRun [("success", .bool true), ("answer", .str "42")]).2.2 =
      [⟨"auto", .ok ([("success", .bool true), ("answer", .str "42")], ⟨.executor, "", "", 0, []⟩)⟩] := by rfl
  have hverdicts : verdicts (plainRun [("success", .bool true), ("answer", .str "42")]).1 = some (true, true) := by
    decide +kernel
  rcases hrun : (plainRun [("success", .bool true), ("answer", .str "42")]).1 with e | result
  · rw [hrun] at hverdicts
    cases hverdicts
  · refine ⟨result, rfl, ?_⟩
    refine (result_consistent demoEnv rulesOnly (fun _ => ⟨false, "", []⟩) "q"
      (alwaysReturns [("success", .bool true), ("answer", .str "42")]) () result hrun).mpr ?_
    show ReportAgrees (plainRun [("success", .bool true), ("answer", .str "42")]).2.2
    rw [hlog]
    rintro e ⟨⟩ d decision ⟨⟩ b hb
    obtain rfl := Except.ok.inj hb
    exact iff_of_true rfl ⟨rfl, rfl⟩

/-- A success without an answer: the review rejects it twice, and the run is a success. -/
theorem result_inconsistent : ¬ ∀ result, (plainRun [("success", .bool true)]).1 = .ok result →
    Consistent result (plainRun [("success", .bool true)]).2.2 := by
  have hverdicts : verdicts (plainRun [("success", .bool true)]).1 = some (true, false) := by decide +kernel
  intro h
  rcases hrun : (plainRun [("success", .bool true)]).1 with e | result
  · rw [hrun] at hverdicts
    cases hverdicts
  · rw [hrun] at hverdicts
    obtain ⟨hsuccess, happroved⟩ := Prod.mk.inj (Option.some.inj hverdicts)
    have hget := (h result hrun).success_iff.mp hsuccess
    rw [hget] at happroved
    cases happroved

end MultiAgentOrchestrator

end AgentHarness
