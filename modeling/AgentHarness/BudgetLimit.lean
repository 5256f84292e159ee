import AgentHarness.LlmRuns
import Mathlib.Tactic.Linarith

/-!
# BudgetLimit — the hard limit under concurrent calls

`check_budget` and `record_usage` are two critical sections with the call of the provider between
them, and the second charges the scope that is current then.  `ChargesCheckedCost` is the condition
that the charged scope has not grown beyond the cost that the call's check read.  In every run whose
charges meet it, and whose recorded costs are at most the estimates of the checks, the cost of every
scope stays within the hard limit.
-/

namespace AgentHarness

open Lib

/-- The estimate that a request's budget check uses. -/
def LlmRequest.estimate (s : LlmSettings) : LlmRequest → Rat
  | .generate _ _ _ _ => 0
  | .preview call | .run _ call => estimateLlmCostUsd s (estimatePromptTokens call.query) none
  | .judge _ input => estimateLlmCostUsd s (estimatePromptTokens (LLMJudgeProvider.buildPrompt input)) none

/-- What a budget check of thread `t` read. -/
def checkedCost? (t : Nat) (e : LlmEvent) : Option Rat :=
  match e with
  | ⟨u, .readCost _, .ok cost⟩ => if u = t then some cost else none
  | _ => none

/-- The recorded cost is at most the estimate of the check. -/
def ChargesAtMostEstimate (env : LlmEnv) (reqs : Nat → LlmRequest) (_c : LlmConf) (t : Nat) : LlmOp → Prop
  | .addUsage usage => usage.cost ≤ (reqs t).estimate env.settings
  | _ => True

/-- The scope that is charged costs no more than the check of the call read. -/
def ChargesCheckedCost (c : LlmConf) (t : Nat) : LlmOp → Prop
  | .addUsage usage => ∀ cost ∈ c.world.log.filterMap (checkedCost? t), c.world.db.costByScope usage.scopeKey ≤ cost
  | _ => True

instance (env : LlmEnv) (reqs : Nat → LlmRequest) (c : LlmConf) (t : Nat) (o : LlmOp) :
    Decidable (ChargesAtMostEstimate env reqs c t o) := by
  cases o <;> unfold ChargesAtMostEstimate <;> infer_instance

instance (c : LlmConf) (t : Nat) (o : LlmOp) : Decidable (ChargesCheckedCost c t o) := by
  cases o <;> unfold ChargesCheckedCost <;> infer_instance

/-- Every scope is within the hard limit. -/
def WithinHardLimit (env : LlmEnv) (w : LlmWorld) : Prop :=
  ∀ scope, w.db.costByScope scope ≤ env.settings.budgetHard

/-! ## The contract of a call -/

/-- Thread `t` has read a cost that leaves room for the estimate. -/
def Cleared (env : LlmEnv) (est : Rat) (t : Nat) (known : List LlmEvent) : Prop :=
  ∃ cost ∈ known.filterMap (checkedCost? t), cost + est < env.settings.budgetHard

/-- Only a cleared call charges. -/
def budgetContract (env : LlmEnv) (est : Rat) (t : Nat) : Contract LlmOp LlmAns Raised where
  guarantee known
    | .addUsage _ => Cleared env est t known
    | _ => True
  rely _ _ _ := True

section Conformance

variable {env : LlmEnv} {est : Rat} {t : Nat} {known known' : List LlmEvent} {α : Type}

theorem Cleared.mono (h : Cleared env est t known) (hsub : known ⊆ known') : Cleared env est t known' := by
  obtain ⟨cost, hcost, hroom⟩ := h
  obtain ⟨e, he, hread⟩ := List.mem_filterMap.mp hcost
  exact ⟨cost, List.mem_filterMap.mpr ⟨e, hsub he, hread⟩, hroom⟩

theorem uncharged_guarantee {o : LlmOp} (h : isUncharged o) (known : List LlmEvent) :
    (budgetContract env est t).guarantee known o := by
  cases o <;> first | exact trivial | exact h.elim

/-- A part that charges nothing. -/
theorem wp_uncharged {p : Llm α} (hu : p.Uses isUncharged) :
    wp ((budgetContract env est t).machine t) p (fun _ _ => True) known :=
  wp_mono (wp_free (fun _ ho known => uncharged_guarantee ho known) hu) fun _ _ _ => trivial

/-- A cleared call may do anything. -/
theorem wp_cleared (h : Cleared env est t known) (p : Llm α) :
    wp ((budgetContract env est t).machine t) p (fun _ _ => True) known := by
  have hkeeps : ((budgetContract env est t).machine t).Keeps (fun _ => True) (Cleared env est t) := by
    rintro o - known₁ h₁
    refine ⟨?_, fun r known₂ hstep => h₁.mono hstep.1⟩
    cases o <;> first | exact h₁ | exact trivial
  refine wp_mono (wp_of_keeps hkeeps (p := p) ?_ h) fun _ _ _ => trivial
  exact p.uses_true

/-- **The check.**  An allowed check has read a cost that leaves room for the estimate. -/
theorem wp_checkBudget (prompt : String) (henabled : env.settings.budgetEnabled = true)
    (hhard : 0 < env.settings.budgetHard) :
    wp ((budgetContract env (estimateLlmCostUsd env.settings (estimatePromptTokens prompt) none) t).machine t)
      (LLMBudgetManager.checkBudget env prompt) (fun r known' => ∀ budget, r = .ok budget →
        budget.allowed = true →
          Cleared env (estimateLlmCostUsd env.settings (estimatePromptTokens prompt) none) t known')
      known := by
  unfold LLMBudgetManager.checkBudget
  dsimp only
  rw [henabled, Bool.not_true, if_neg (by decide)]
  refine wp_seq (wp_uncharged (scopeKey_uses trivial)) (fun scope known₁ _ => ?_) fun e known₁ _ b h => by cases h
  refine wp_seq (R := fun r known₂ => ∀ cost, r = .ok cost → cost ∈ known₂.filterMap (checkedCost? t))
    (wp_call.mpr ⟨trivial, ?_⟩) ?_ fun e known₂ _ b h => by cases h
  · rintro r known₂ ⟨-, hmem, -⟩ cost rfl
    exact List.mem_filterMap.mpr ⟨_, hmem, if_pos rfl⟩
  · intro cost known₂ hcost budget hbudget hallowed
    cases hbudget
    refine ⟨cost, hcost cost rfl, ?_⟩
    by_contra hno
    rw [LLMBudgetManager.decide, if_pos ⟨hhard, not_lt.mp hno⟩] at hallowed
    cases hallowed

theorem wp_judge (j : JudgeConfig) (input : JudgeInput) (henabled : env.settings.budgetEnabled = true)
    (hhard : 0 < env.settings.budgetHard) :
    wp ((budgetContract env (estimateLlmCostUsd env.settings
        (estimatePromptTokens (LLMJudgeProvider.buildPrompt input)) none) t).machine t)
      (LLMJudgeProvider.evaluate env j input) (fun _ _ => True) known := by
  unfold LLMJudgeProvider.evaluate
  split
  · trivial
  · refine wp_seq (wp_checkBudget _ henabled hhard) (fun budget known₁ h => ?_) fun _ _ _ => trivial
    cases hallowed : budget.allowed with
    | false => trivial
    | true => exact wp_cleared (h budget rfl hallowed) _

theorem wp_pipelineGenerate_budget (call : Nl2sqlCall) (schema : DatabaseSchema)
    (henabled : env.settings.budgetEnabled = true) (hhard : 0 < env.settings.budgetHard) :
    wp ((budgetContract env (estimateLlmCostUsd env.settings (estimatePromptTokens call.query) none) t).machine t)
      (NL2SQLPipeline.generate env call schema) (fun _ _ => True) known := by
  unfold NL2SQLPipeline.generate
  split
  · split
    · trivial
    · split
      · exact wp_uncharged (Prog.Uses.bind (mockFallback_uses trivial _ _ _ _ _ _) fun _ => trivial)
      · trivial
    · refine wp_seq (wp_checkBudget _ henabled hhard) (fun budget known₁ h => ?_) fun _ _ _ => trivial
      cases hallowed : budget.allowed with
      | false =>
        split
        · split
          · exact wp_uncharged (Prog.Uses.bind (mockFallback_uses trivial _ _ _ _ _ _) fun _ => trivial)
          · trivial
        · rename_i hno
          exact absurd rfl hno
      | true => exact wp_cleared (h budget rfl hallowed) _
  · exact wp_uncharged (Prog.Uses.bind (mockGenerate_uses trivial _ _) fun _ => trivial)

/-- Sequencing where nothing is asked of the result. -/
theorem wp_thenAny {β : Type} {C : Contract LlmOp LlmAns Raised} {p : Llm α} {f : α → Llm β}
    (hp : wp (C.machine t) p (fun _ _ => True) known)
    (hf : ∀ a known', wp (C.machine t) (f a) (fun _ _ => True) known') :
    wp (C.machine t) (p >>= f) (fun _ _ => True) known :=
  wp_seq hp (fun a known' _ => hf a known') fun _ _ _ => trivial

theorem wp_preview_budget (call : Nl2sqlCall) (henabled : env.settings.budgetEnabled = true)
    (hhard : 0 < env.settings.budgetHard) :
    wp ((budgetContract env (estimateLlmCostUsd env.settings (estimatePromptTokens call.query) none) t).machine t)
      (NL2SQLPipeline.preview env call) (fun _ _ => True) known := by
  refine wp_thenAny (wp_uncharged (p := Llm.perform .extractSchema) (Prog.uses_call.mpr trivial))
    fun schema known₁ => ?_
  refine wp_thenAny (wp_pipelineGenerate_budget call schema henabled hhard) fun x known₂ => ?_
  obtain ⟨o, id⟩ := x
  cases id with
  | none => trivial
  | some id => exact wp_uncharged (Prog.Uses.bind (Prog.uses_call.mpr trivial) fun _ => trivial)

/-- Every request charges only when its check has cleared it. -/
theorem wp_code_budget (req : LlmRequest) (henabled : env.settings.budgetEnabled = true)
    (hhard : 0 < env.settings.budgetHard) :
    wp ((budgetContract env (req.estimate env.settings) t).machine t) (req.code env) (fun _ _ => True)
      known := by
  cases req with
  | generate prov ftm query schema =>
    have hu := @llmGenerate_uses env _ (fun _ h => isUncharged_of_isAsk h) trivial prov ftm query schema
    exact wp_uncharged (hu.bind fun _ => trivial)
  | preview call => exact wp_thenAny (wp_preview_budget call henabled hhard) fun _ _ => trivial
  | run dbPath call =>
    refine wp_thenAny (wp_thenAny (wp_preview_budget call henabled hhard) fun p known' => ?_) fun _ _ => trivial
    exact wp_uncharged (finish_uses (fun _ => trivial) dbPath call p)
  | judge j input => exact wp_thenAny (wp_judge j input henabled hhard) fun _ _ => trivial

end Conformance

/-! ## Runs -/

section Runs

variable {env : LlmEnv} {out : LlmOutside} {reqs : Nat → LlmRequest}

/-- An operation that is no charge leaves the costs. -/
theorem costByScope_llmExec {o : LlmOp} (h : isUncharged o) (log : List LlmEvent) (db : LlmDb) :
    (llmExec out log o db).2.costByScope = db.costByScope := by
  cases o with
  | addUsage usage => exact h.elim
  | getNl2sql key now =>
    simp only [llmExec]
    split
    · rfl
    · split <;> rfl
  | getJudge key now =>
    simp only [llmExec]
    split
    · rfl
    · split <;> rfl
  | _ => rfl

/-- **One step** that meets the conditions keeps every scope within the limit. -/
theorem withinHardLimit_step {c : LlmConf} {t : Nat} {o : LlmOp} {known : List LlmEvent}
    (hI : WithinHardLimit env c.world) (hknown : known ⊆ c.world.log)
    (hmay : (budgetContract env ((reqs t).estimate env.settings) t).guarantee known o)
    (hcost : ChargesAtMostEstimate env reqs c t o) (hchecked : ChargesCheckedCost c t o) :
    WithinHardLimit env (llmStep out t o c.world).2 := by
  intro scope
  cases o with
  | addUsage usage =>
    obtain ⟨cost, hread, hroom⟩ := Cleared.mono hmay hknown
    have hold : c.world.db.costByScope usage.scopeKey ≤ cost := hchecked cost hread
    have hnew : usage.cost ≤ (reqs t).estimate env.settings := hcost
    show Function.update c.world.db.costByScope usage.scopeKey
      (c.world.db.costByScope usage.scopeKey + usage.cost) scope ≤ _
    by_cases hscope : scope = usage.scopeKey
    · subst hscope
      rw [Function.update_self]
      linarith
    · rw [Function.update_of_ne hscope]
      exact hI scope
  | _ =>
    refine le_of_eq_of_le (congrFun (costByScope_llmExec ?_ c.world.log c.world.db) scope) (hI scope)
    trivial

/-- **The hard limit.**  With budgets enabled and a positive hard limit, in every run whose recorded
costs are at most the checked estimates and whose charges find their scope no dearer than the check
did, every scope stays within the hard limit in every state. -/
theorem budget_within_hard_limit (env : LlmEnv) (out : LlmOutside) (reqs : Nat → LlmRequest)
    (sched : List Nat) (henabled : env.settings.budgetEnabled = true) (hhard : 0 < env.settings.budgetHard)
    (hcost : Conf.Meets (llmStep out) (ChargesAtMostEstimate env reqs) (LlmConf.start env reqs) sched)
    (hchecked : Conf.Meets (llmStep out) ChargesCheckedCost (LlmConf.start env reqs) sched) :
    Conf.Always (llmStep out) (fun c => WithinHardLimit env c.world) (LlmConf.start env reqs) sched := by
  refine Conf.always_of_prefix fun ts hts => ?_
  have hmeets := Conf.Meets.and (hcost.initial hts) (hchecked.initial hts)
  refine (LlmConf.run_contract (I := WithinHardLimit env) (Q := fun _ _ _ => True) ?_ (fun _ => hhard.le)
    (fun t => wp_code_budget (reqs t) henabled hhard) hmeets).1
  rintro c t o known hI hknown hmay ⟨hcost, hchecked⟩
  exact ⟨trivial, withinHardLimit_step hI hknown hmay hcost hchecked⟩

end Runs

/-! ## Two calls at once -/

/-- A call whose query is estimated at 6. -/
def pricedCall : LlmRequest := .preview ⟨"how many orders were paid", "llm", none, false⟩

/-- One call after the other: the second is refused. -/
theorem budget_within_hard_limit_demo :
    Conf.Always (llmStep (.priced 6)) (fun c => WithinHardLimit .priced c.world)
      (LlmConf.start .priced fun _ => pricedCall) (List.replicate 20 0 ++ List.replicate 20 1) :=
  budget_within_hard_limit .priced (.priced 6) (fun _ => pricedCall) _ rfl (by decide) (by decide +kernel)
    (by decide +kernel)

/-- Both calls are checked before either is charged, and 12 is spent of 10. -/
theorem budget_exceeds_hard_limit :
    ¬ ∀ (env : LlmEnv) (out : LlmOutside) (reqs : Nat → LlmRequest) (sched : List Nat),
      env.settings.budgetEnabled = true → 0 < env.settings.budgetHard →
      Conf.Meets (llmStep out) (ChargesAtMostEstimate env reqs) (LlmConf.start env reqs) sched →
      Conf.Always (llmStep out) (fun c => WithinHardLimit env c.world) (LlmConf.start env reqs) sched := by
  intro h
  have hrun := (h .priced (.priced 6) (fun _ => pricedCall)
    (List.replicate 5 0 ++ List.replicate 20 1 ++ List.replicate 20 0) rfl (by decide) (by decide +kernel)).last
  exact absurd (hrun "global") (by decide +kernel)

end AgentHarness
