import AgentHarness.Judge
import AgentHarness.Nl2sqlPipeline
import AgentHarness.Lib.Rely

/-!
# LlmRuns — concurrent calls of the NL2SQL pipeline and of the judge

Every thread serves one request on the shared budget manager and cache.  A history of calls that
follow each other is the schedule that runs one thread after the other.
-/

namespace AgentHarness

open Lib

/-! ## Footprints -/

def isCheck : LlmOp → Prop
  | .now | .readCost _ => True
  | _ => False

def isCharge : LlmOp → Prop
  | .now | .addUsage _ => True
  | _ => False

def isAsk : LlmOp → Prop
  | .litellmCompletion _ _ | .httpPost _ _ => True
  | _ => False

section Footprints

variable {env : LlmEnv}

theorem scopeKey_uses {P : LlmOp → Prop} (hP : P .now) : (LLMBudgetManager.scopeKey env).Uses P := by
  refine Prog.Uses.bind (Prog.uses_call.mpr hP) fun now => ?_
  split
  · trivial
  · split <;> trivial

theorem checkBudget_uses (prompt : String) : (LLMBudgetManager.checkBudget env prompt).Uses isCheck := by
  unfold LLMBudgetManager.checkBudget
  dsimp only
  split
  · trivial
  · refine Prog.Uses.bind (scopeKey_uses trivial) fun scope => ?_
    exact Prog.Uses.bind (Prog.uses_call.mpr trivial) fun cost => trivial

theorem recordUsage_uses (mode provider model : String) (promptTokens completionTokens : Int) (cost : Rat) :
    (LLMBudgetManager.recordUsage env mode provider model promptTokens completionTokens cost).Uses
      isCharge := by
  unfold LLMBudgetManager.recordUsage
  split
  · trivial
  · refine Prog.Uses.bind (scopeKey_uses trivial) fun scope => ?_
    exact Prog.uses_call.mpr trivial

theorem requestOnce_uses (p : Provider) (prompt : String) : (p.requestOnce env prompt).Uses isAsk :=
  Prog.Uses.bind (Prog.uses_call.mpr trivial) fun _ => Prog.uses_ofExcept _

theorem openaiLoop_uses (p : Provider) (prompt : String) (n : Nat) :
    (p.openaiLoop env prompt n).Uses isAsk := by
  induction n with
  | zero => exact requestOnce_uses p prompt
  | succ n ih =>
    refine Prog.Uses.tryCatch (requestOnce_uses p prompt) fun e => ?_
    exact Prog.uses_ite.mpr ⟨fun _ => ih, fun _ => trivial⟩

theorem litellmAttempt_uses (p : Provider) (prompt : String) {retry : Raised → Llm LLMGenerateMetadata}
    (hretry : ∀ e, (retry e).Uses isAsk) : (p.litellmAttempt env prompt retry).Uses isAsk := by
  refine Prog.Uses.tryCatch ?_ fun e => Prog.uses_ite.mpr ⟨fun _ => requestOnce_uses p prompt, fun _ => hretry _⟩
  exact Prog.Uses.bind (Prog.uses_call.mpr trivial) fun _ => Prog.uses_ofExcept _

theorem litellmLoop_uses (p : Provider) (prompt : String) (n : Nat) :
    (p.litellmLoop env prompt n).Uses isAsk := by
  induction n with
  | zero => exact litellmAttempt_uses p prompt fun _ => trivial
  | succ n ih => exact litellmAttempt_uses p prompt fun _ => ih

theorem generateWithMetadata_uses (p : Provider) (prompt : String) :
    (p.generateWithMetadata env prompt).Uses isAsk := by
  unfold Provider.generateWithMetadata
  cases p.kind with
  | fake => trivial
  | litellm => exact Prog.uses_ite.mpr ⟨fun _ => litellmLoop_uses p prompt _, fun _ => trivial⟩
  | openaiCompatible => exact openaiLoop_uses p prompt _

/-- Any operation but a charge. -/
def isUncharged : LlmOp → Prop
  | .addUsage _ => False
  | _ => True

theorem isUncharged_of_isAsk {o : LlmOp} (h : isAsk o) : isUncharged o := by
  cases o <;> first | exact trivial | exact h.elim

theorem attempt_uses {α : Type} {P : LlmOp → Prop} {p : Llm α} (h : p.Uses P) : (Llm.attempt p).Uses P :=
  Prog.Uses.tryCatch (h.bind fun _ => trivial) fun _ => trivial

section Cache

variable {P : LlmOp → Prop}

theorem expireAt_uses (hnow : P .now) : (LLMResultCache.expireAt env).Uses P := by
  unfold LLMResultCache.expireAt
  dsimp only
  split
  · trivial
  · exact Prog.Uses.bind (Prog.uses_call.mpr hnow) fun _ => trivial

theorem getNl2sql_uses (hnow : P .now) (hget : ∀ k n, P (.getNl2sql k n)) (key : String) :
    (LLMResultCache.getNl2sql env key).Uses P := by
  unfold LLMResultCache.getNl2sql
  split
  · trivial
  · exact Prog.Uses.bind (Prog.uses_call.mpr hnow) fun _ => Prog.uses_call.mpr (hget _ _)

theorem setNl2sql_uses (hnow : P .now) (hset : ∀ k e o, P (.setNl2sql k e o)) (key : String) (o : GenOutput) :
    (LLMResultCache.setNl2sql env key o).Uses P := by
  unfold LLMResultCache.setNl2sql
  split
  · trivial
  · refine Prog.Uses.bind (expireAt_uses hnow) fun expire => ?_
    exact Prog.Uses.bind (Prog.uses_call.mpr (hset _ _ _)) fun _ => trivial

theorem getJudge_uses (hnow : P .now) (hget : ∀ k n, P (.getJudge k n)) (key : String) :
    (LLMResultCache.getJudge env key).Uses P := by
  unfold LLMResultCache.getJudge
  split
  · trivial
  · exact Prog.Uses.bind (Prog.uses_call.mpr hnow) fun _ => Prog.uses_call.mpr (hget _ _)

theorem setJudge_uses (hnow : P .now) (hset : ∀ k e r, P (.setJudge k e r)) (key : String)
    (result : JudgeResult) : (LLMResultCache.setJudge env key result).Uses P := by
  unfold LLMResultCache.setJudge
  split
  · trivial
  · exact Prog.Uses.bind (expireAt_uses hnow) fun expire => Prog.uses_call.mpr (hset _ _ _)

theorem mockGenerate_uses (htoday : P .today) (query : String) (schema : DatabaseSchema) :
    (MockNL2SQLGenerator.generate env.unicode query schema).Uses P := by
  unfold MockNL2SQLGenerator.generate
  dsimp only
  split
  · trivial
  · exact Prog.Uses.bind (Prog.uses_call.mpr htoday) fun _ => trivial

theorem mockFallback_uses (htoday : P .today) (query : String) (schema : DatabaseSchema)
    (name reason : String) (warnings : List String) (budget : Option BudgetDecision) :
    (NL2SQLPipeline.mockFallback env query schema name reason warnings budget).Uses P :=
  Prog.Uses.bind (mockGenerate_uses htoday query schema) fun _ => trivial

theorem mockFallbackResult_uses (htoday : P .today) (query : String) (schema : DatabaseSchema)
    (name reason : String) (warnings : List String) :
    (LLMNL2SQLGenerator.buildMockFallbackResult env query schema name reason warnings).Uses P :=
  Prog.Uses.bind (mockGenerate_uses htoday query schema) fun _ => trivial

theorem handleGenerationError_uses (htoday : P .today) (ftm : Bool) (query : String)
    (schema : DatabaseSchema) (pruned : PrunedSchema) (name : String) (exc : Raised) :
    (LLMNL2SQLGenerator.handleGenerationError env ftm query schema pruned name exc).Uses P := by
  unfold LLMNL2SQLGenerator.handleGenerationError
  dsimp only
  split
  · exact mockFallbackResult_uses htoday _ _ _ _ _
  · trivial

/-- Making a result of a reply asks nobody. -/
theorem useReply_uses (htoday : P .today) (ftm : Bool) (query : String) (schema : DatabaseSchema)
    (pruned : PrunedSchema) (name : String) (m : LLMGenerateMetadata) :
    (LLMNL2SQLGenerator.useReply env ftm query schema pruned name m).Uses P := by
  refine Prog.Uses.bind (Prog.uses_ofExcept _) fun parsed => ?_
  cases parsed with
  | accepted result => trivial
  | fallback reason warnings =>
    dsimp only
    unfold LLMNL2SQLGenerator.fallbackOrFailure
    split
    · exact mockFallbackResult_uses htoday _ _ _ _ _
    · trivial

theorem execute_uses (hquery : ∀ sql, P (.query sql)) (dbPath sql : String) :
    (SQLiteReadOnlyExecutor.execute env.unicode dbPath sql).Uses P := by
  unfold SQLiteReadOnlyExecutor.execute
  dsimp only
  split
  · trivial
  · refine Prog.Uses.bind (attempt_uses (Prog.uses_call.mpr (hquery _))) fun r => ?_
    rcases r with exc | _ | ⟨columns, rows⟩ <;> trivial

/-- Behind the preview only the database is asked. -/
theorem finish_uses (hquery : ∀ sql, P (.query sql)) (dbPath : String) (call : Nl2sqlCall)
    (p : PreviewResult) : (NL2SQLPipeline.finish env dbPath call p).Uses P := by
  unfold NL2SQLPipeline.finish
  split
  · exact Prog.Uses.bind (execute_uses hquery dbPath _) fun _ => trivial
  · trivial

end Cache

/-- The generator asks its provider, and the clock for a fallback. -/
theorem llmGenerate_uses {P : LlmOp → Prop} (hask : ∀ o, isAsk o → P o) (htoday : P .today) (prov : Provider)
    (ftm : Bool) (query : String) (schema : DatabaseSchema) :
    (LLMNL2SQLGenerator.generate env prov ftm query schema).Uses P := by
  unfold LLMNL2SQLGenerator.generate
  refine Prog.Uses.bind (attempt_uses ((generateWithMetadata_uses prov _).mono hask)) fun r => ?_
  cases r with
  | error exc => exact Prog.Uses.bind (handleGenerationError_uses htoday _ _ _ _ _ _) fun _ => trivial
  | ok m =>
    refine Prog.Uses.bind (Prog.Uses.tryCatch (useReply_uses htoday _ _ _ _ _ m) fun e => ?_) fun _ => trivial
    exact handleGenerationError_uses htoday _ _ _ _ _ _

/-- The judge uses the operations of the budget, of the providers and of its own part of the cache. -/
theorem evaluate_uses {P : LlmOp → Prop} (hcheck : ∀ o, isCheck o → P o) (hcharge : ∀ o, isCharge o → P o)
    (hask : ∀ o, isAsk o → P o) (hget : ∀ k n, P (.getJudge k n)) (hset : ∀ k e r, P (.setJudge k e r))
    (j : JudgeConfig) (input : JudgeInput) : (LLMJudgeProvider.evaluate env j input).Uses P := by
  have hnow : P .now := hcheck .now trivial
  have hfresh : (LLMJudgeProvider.evaluateFresh env j input).Uses P := by
    refine Prog.Uses.tryCatch ?_ fun _ => trivial
    refine Prog.Uses.bind (Prog.uses_ofExcept _) fun provider => ?_
    refine Prog.Uses.bind ((generateWithMetadata_uses provider _).mono hask) fun metadata => ?_
    refine Prog.Uses.bind (Prog.uses_ofExcept _) fun result => ?_
    refine Prog.Uses.bind ((recordUsage_uses _ _ _ _ _ _).mono hcharge) fun _ => ?_
    exact Prog.Uses.bind (setJudge_uses hnow hset _ _) fun _ => trivial
  unfold LLMJudgeProvider.evaluate
  split
  · trivial
  · refine Prog.Uses.bind ((checkBudget_uses _).mono hcheck) fun budget => ?_
    split
    · trivial
    · refine Prog.Uses.bind (getJudge_uses hnow hget _) fun cached => ?_
      cases cached with
      | none => exact hfresh
      | some cached => trivial

end Footprints

/-! ## Asking a provider -/

/-- What holds while nothing readable has been answered (`I`), and when an adapter has made metadata of
an answer (`Q`). -/
structure Asks {σ : Type} (M : Machine LlmOp LlmAns Raised σ) (env : LlmEnv) (p : Provider) (prompt : String)
    (I : σ → Prop) (Q : LLMGenerateMetadata → σ → Prop) : Prop where
  http : ∀ s, I s → M.may s (.httpPost p prompt) ∧ ∀ r s', M.step s (.httpPost p prompt) r s' →
    match r >>= Provider.readHttpResponse env p with
    | .ok m => Q m s'
    | .error _ => I s'
  litellm : ∀ s, I s → M.may s (.litellmCompletion p prompt) ∧
    ∀ r s', M.step s (.litellmCompletion p prompt) r s' →
      match r >>= Provider.normalizeResponse p with
      | .ok m => Q m s'
      | .error _ => I s'
  fake : ∀ s, I s → p.kind = .fake → Q (Provider.fakeMetadata env prompt) s

/-- How asking a provider ends. -/
def Asked {σ : Type} (I : σ → Prop) (Q : LLMGenerateMetadata → σ → Prop) (r : Except Raised LLMGenerateMetadata)
    (s : σ) : Prop :=
  match r with
  | .ok m => Q m s
  | .error _ => I s

section Asks

variable {σ : Type} {M : Machine LlmOp LlmAns Raised σ} {env : LlmEnv} {p : Provider} {prompt : String}
  {I : σ → Prop} {Q : LLMGenerateMetadata → σ → Prop} {s : σ}

/-- One request, and what the adapter makes of its answer. -/
theorem wp_read {o : LlmOp} {read : LlmAns o → Except Raised LLMGenerateMetadata} (hmay : M.may s o)
    (h : ∀ r s', M.step s o r s' → match r >>= read with
      | .ok m => Q m s'
      | .error _ => I s') :
    wp M (Llm.perform o >>= fun a => Prog.ofExcept (read a)) (Asked I Q) s := by
  refine wp_seq (wp_call.mpr ⟨hmay, h⟩) ?_ fun e s' h => h
  intro a s' h
  have h : match read a with
    | .ok m => Q m s'
    | .error _ => I s' := h
  cases hread : read a with
  | error e =>
    rw [hread] at h
    exact h
  | ok m =>
    rw [hread] at h
    exact h

theorem Asks.wp_requestOnce (h : Asks M env p prompt I Q) (hI : I s) :
    wp M (p.requestOnce env prompt) (Asked I Q) s :=
  wp_read (h.http s hI).1 (h.http s hI).2

theorem Asks.wp_openaiLoop (h : Asks M env p prompt I Q) (hI : I s) (n : Nat) :
    wp M (p.openaiLoop env prompt n) (Asked I Q) s := by
  induction n generalizing s with
  | zero => exact h.wp_requestOnce hI
  | succ n ih =>
    refine wp_try (h.wp_requestOnce hI) (fun a s' h => h) fun e s' hI' => ?_
    split
    · exact ih hI'
    · exact hI'

theorem Asks.wp_litellmAttempt (h : Asks M env p prompt I Q) (hI : I s)
    {retry : Raised → Llm LLMGenerateMetadata} (hretry : ∀ e s', I s' → wp M (retry e) (Asked I Q) s') :
    wp M (p.litellmAttempt env prompt retry) (Asked I Q) s := by
  refine wp_try (wp_read (h.litellm s hI).1 (h.litellm s hI).2) (fun a s' h => h) fun e s' hI' => ?_
  dsimp only
  split
  · exact h.wp_requestOnce hI'
  · exact hretry _ s' hI'

theorem Asks.wp_litellmLoop (h : Asks M env p prompt I Q) (hI : I s) (n : Nat) :
    wp M (p.litellmLoop env prompt n) (Asked I Q) s := by
  induction n generalizing s with
  | zero => exact h.wp_litellmAttempt hI fun e s' hI' => hI'
  | succ n ih => exact h.wp_litellmAttempt hI fun e s' hI' => ih hI'

/-- **Asking a provider**, whatever adapter it has. -/
theorem Asks.wp_generateWithMetadata (h : Asks M env p prompt I Q) (hI : I s) :
    wp M (p.generateWithMetadata env prompt) (Asked I Q) s := by
  unfold Provider.generateWithMetadata
  split
  · rename_i hkind
    exact h.fake s hI hkind
  · split
    · exact h.wp_litellmLoop hI _
    · exact hI
  · exact h.wp_openaiLoop hI _

end Asks

/-! ## Requests -/

inductive LlmRequest where
  | generate (prov : Provider) (fallbackToMock : Bool) (query : String) (schema : DatabaseSchema)
  | preview (call : Nl2sqlCall)
  | run (dbPath : String) (call : Nl2sqlCall)
  | judge (j : JudgeConfig) (input : JudgeInput)

inductive LlmOutcome where
  | generated (result : NL2SQLResult)
  | previewed (p : PreviewResult)
  | ran (r : RunResult)
  | judged (r : JudgeResult)

def LlmRequest.code (env : LlmEnv) : LlmRequest → Llm LlmOutcome
  | .generate prov fallbackToMock query schema => do
    let (result, _) ← LLMNL2SQLGenerator.generate env prov fallbackToMock query schema
    return .generated result
  | .preview call => do
    let p ← NL2SQLPipeline.preview env call
    return .previewed p
  | .run dbPath call => do
    let r ← NL2SQLPipeline.run env dbPath call
    return .ran r
  | .judge j input => do
    let r ← LLMJudgeProvider.evaluate env j input
    return .judged r

abbrev LlmConf := Conf LlmOp LlmAns Raised LlmWorld LlmOutcome

/-- A fresh process, with a thread for every request. -/
def LlmConf.start (env : LlmEnv) (reqs : Nat → LlmRequest) : LlmConf :=
  ⟨⟨LlmDb.initial, []⟩, fun t => (reqs t).code env⟩

/-- The configuration after a schedule. -/
def LlmConf.after (env : LlmEnv) (out : LlmOutside) (reqs : Nat → LlmRequest) (sched : List Nat) : LlmConf :=
  (LlmConf.start env reqs).run (llmStep out) sched

/-- Runs of the process under contracts. -/
theorem LlmConf.run_contract {out : LlmOutside} {C : Nat → Contract LlmOp LlmAns Raised}
    {I : LlmWorld → Prop} {Q : Nat → Except Raised LlmOutcome → List LlmEvent → Prop}
    {ok : LlmConf → Nat → LlmOp → Prop}
    (hstep : ∀ c t o known, I c.world → known ⊆ c.world.log → (C t).guarantee known o → ok c t o →
      (C t).rely (llmStep out t o c.world).2.log o (llmStep out t o c.world).1 ∧
        I (llmStep out t o c.world).2)
    {c : LlmConf} (hI : I c.world) (hc : ∀ t, wp ((C t).machine t) (c.threads t) (Q t) []) {sched : List Nat}
    (hm : c.Meets (llmStep out) ok sched) :
    I (c.run (llmStep out) sched).world ∧ ∀ t r, (c.run (llmStep out) sched).outcome t = some r →
      ∃ known, known ⊆ (c.run (llmStep out) sched).world.log ∧ Q t r known :=
  Conf.run_contract hstep hI hc hm

/-! ## A process for concrete runs -/

def LlmSettings.sample : LlmSettings where
  llmProvider := "openai_compatible"
  llmModel := "m"
  llmApiKey := "key"
  llmBaseUrl := "http://llm"
  llmMaxRetries := 0
  costEstimationEnabled := true
  costPer1kPromptTokens := 1000
  costPer1kCompletionTokens := 1000
  estimatedCompletionTokens := 0
  budgetEnabled := true
  budgetSoft := 0
  budgetHard := 10
  budgetScope := "global"
  cacheEnabled := true
  cacheTtlSeconds := 0

/-- The only JSON texts are those of a generation and of a judgement. -/
def LlmEnv.sample (settings : LlmSettings) : LlmEnv where
  settings := settings
  unicode := .plain
  litellmInstalled := false
  hourText := toString
  dayText := toString
  jsonLoads text :=
    if text = "generation" then .ok (.dict [("sql", .str "SELECT 1 LIMIT 1")])
    else if text = "judgement" then .ok (.dict [("score", .int 1), ("passed", .bool true)])
    else .error ⟨"JSONDecodeError", "Expecting value"⟩
  floatOfText _ := none
  format _ := ""
  stableHash parts := "|".intercalate parts
  schemaHash tables := "|".intercalate (tables.map Prod.fst)
  promptTemplate := none
  fakeContent _ := ""
  httpErrorDetail _ := ""
  planChart _ _ _ := .null

/-- One empty table, and an endpoint. -/
def LlmOutside.sample (http : Nat → Except Raised HttpResponse) : LlmOutside where
  clock _ := 0
  today _ := ("2026-01-01", "2026-01")
  litellm _ _ _ := .error ⟨"ProviderConfigError", ""⟩
  http n _ _ := http n
  schema _ := .ok ⟨[⟨"daily_metrics", [], 0⟩], "demo.db"⟩
  database _ _ := .ok (some (["1"], [[("1", .int 1)]]))

/-- The process with a LiteLLM provider. -/
def LlmEnv.priced : LlmEnv :=
  { LlmEnv.sample { LlmSettings.sample with llmProvider := "litellm" } with litellmInstalled := true }

/-- Its replies are empty, report one token of each kind, and have a cost. -/
def LlmOutside.priced (cost : Rat) : LlmOutside :=
  { LlmOutside.sample fun _ => .error ⟨"", ""⟩ with
    litellm := fun _ _ _ => .ok ⟨1, 1, none, cost, "r", some (some "", false)⟩ }

/-- A chat completion with a text and the tokens it used. -/
def HttpResponse.sample (content : String) (promptTokens completionTokens : Int) : HttpResponse where
  statusCode := 200
  body := .ok (.dict [("choices", .list [.dict [("message", .dict [("content", .str content)])]]),
    ("usage", .dict [("prompt_tokens", .int promptTokens), ("completion_tokens", .int completionTokens)])])

end AgentHarness
