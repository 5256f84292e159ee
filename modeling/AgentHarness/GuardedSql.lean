import AgentHarness.LlmRuns

/-!
# GuardedSql — no SQL of a model reaches the database unguarded

A generation in LLM mode ends in one of three shapes: SQL of a reply that passed the guard, a refusal
without SQL, or a fallback to the mock generator (`LlmSound`).  The cache only ever holds the first
two.  Where SQL comes from is read off the log: `Replied` is the metadata that an adapter made of a
logged answer.
-/

namespace AgentHarness

open Lib

section

variable (env : LlmEnv)

/-- The output of an allowed check. -/
def Guarded (sql : String) : Prop :=
  ∃ s, (SQLGuard.check env.unicode s).allowed = true ∧ sql = (SQLGuard.check env.unicode s).sql

/-- The event is an answer of which an adapter makes the metadata `m`. -/
def ReadAs (m : LLMGenerateMetadata) : LlmEvent → Prop
  | ⟨_, .litellmCompletion p _, .ok response⟩ => Provider.normalizeResponse p response = .ok m
  | ⟨_, .httpPost p _, .ok response⟩ => Provider.readHttpResponse env p response = .ok m
  | _ => False

/-- A provider has replied `m`; the fake provider replies without a request. -/
def Replied (log : List LlmEvent) (m : LLMGenerateMetadata) : Prop :=
  (∃ prompt, m = Provider.fakeMetadata env prompt) ∨ ∃ e ∈ log, ReadAs env m e

/-- The `sql` field of a reply. -/
def ReplySql (m : LLMGenerateMetadata) (sql : String) : Prop :=
  ∃ data hint, LLMNL2SQLGenerator.loadsTolerant env m.content = .ok (.dict data, hint) ∧
    LLMNL2SQLGenerator.readSql env.unicode data = .ok sql

/-- The output of an allowed check of the `sql` field of a reply. -/
def FromReply (log : List LlmEvent) (sql : String) : Prop :=
  ∃ m s, Replied env log m ∧ ReplySql env m s ∧ (SQLGuard.check env.unicode s).allowed = true ∧
    sql = (SQLGuard.check env.unicode s).sql

/-- The shapes of a result in LLM mode. -/
inductive LlmSound (log : List LlmEvent) (fallbackToMock : Bool) : Bool → String → String → Bool → Prop where
  | reply {sql : String} (h : FromReply env log sql) : LlmSound log fallbackToMock true sql "llm" false
  | refused : LlmSound log fallbackToMock false "" "llm" false
  | mock {allowed : Bool} {sql : String} (hmock : fallbackToMock = true)
      (h : allowed = true → Guarded env sql) :
      LlmSound log fallbackToMock allowed sql "mock_fallback" true

/-- What is reported about SQL: guarded where it is allowed, and in LLM mode with the right fields. -/
structure SqlSound (log : List LlmEvent) (llm fallbackToMock allowed : Bool) (sql generatorUsed : String)
    (fallbackUsed : Bool) : Prop where
  guarded : allowed = true → Guarded env sql
  fallback_iff : llm = true → (fallbackUsed = true ↔ generatorUsed = "mock_fallback")
  no_mock : llm = true → fallbackToMock = false →
    generatorUsed = "llm" ∧ (sql = "" ∨ FromReply env log sql)

end

variable {env : LlmEnv} {log log' : List LlmEvent}

theorem Replied.mono {m : LLMGenerateMetadata} (h : Replied env log m) (hsub : log ⊆ log') :
    Replied env log' m := by
  rcases h with hfake | ⟨e, he, hread⟩
  · exact .inl hfake
  · exact .inr ⟨e, hsub he, hread⟩

theorem FromReply.mono {sql : String} (h : FromReply env log sql) (hsub : log ⊆ log') :
    FromReply env log' sql := by
  obtain ⟨m, s, hm, hs, hallowed, hsql⟩ := h
  exact ⟨m, s, hm.mono hsub, hs, hallowed, hsql⟩

theorem FromReply.guarded {sql : String} (h : FromReply env log sql) : Guarded env sql := by
  obtain ⟨m, s, -, -, hallowed, hsql⟩ := h
  exact ⟨s, hallowed, hsql⟩

namespace LlmSound

variable {ftm allowed fallbackUsed : Bool} {sql generatorUsed : String}

theorem mono (h : LlmSound env log ftm allowed sql generatorUsed fallbackUsed) (hsub : log ⊆ log') :
    LlmSound env log' ftm allowed sql generatorUsed fallbackUsed := by
  cases h with
  | reply h => exact .reply (h.mono hsub)
  | refused => exact .refused
  | mock hmock h => exact .mock hmock h

/-- What is sound without a mock fallback is sound with one. -/
theorem of_cached (h : LlmSound env log false allowed sql generatorUsed fallbackUsed) :
    LlmSound env log ftm allowed sql generatorUsed fallbackUsed := by
  cases h with
  | reply h => exact .reply h
  | refused => exact .refused
  | mock hmock h => cases hmock

/-- What the pipeline stores has no mock SQL. -/
theorem cached (h : LlmSound env log ftm allowed sql generatorUsed fallbackUsed)
    (hllm : generatorUsed = "llm") : LlmSound env log false allowed sql generatorUsed fallbackUsed := by
  cases h with
  | reply h => exact .reply h
  | refused => exact .refused
  | mock hmock h => exact absurd hllm (by decide)

theorem sound (h : LlmSound env log ftm allowed sql generatorUsed fallbackUsed) :
    SqlSound env log true ftm allowed sql generatorUsed fallbackUsed := by
  cases h with
  | reply h =>
    exact ⟨fun _ => h.guarded, fun _ => by decide, fun _ _ => ⟨rfl, .inr h⟩⟩
  | refused => exact ⟨fun h => absurd h (by decide), fun _ => by decide, fun _ _ => ⟨rfl, .inl rfl⟩⟩
  | mock hmock h =>
    exact ⟨h, fun _ => ⟨fun _ => rfl, fun _ => rfl⟩, fun _ hno => absurd (hmock.symm.trans hno) (by decide)⟩

end LlmSound

/-- A record of the pipeline, of the shape that `log` explains. -/
def GenOutput.Sound (env : LlmEnv) (log : List LlmEvent) (ftm : Bool) (o : GenOutput) : Prop :=
  LlmSound env log ftm o.guardAllowed o.sql o.generatorUsed o.fallbackUsed

/-- A result of the generator, likewise. -/
def NL2SQLResult.Sound (env : LlmEnv) (log : List LlmEvent) (ftm : Bool) (r : NL2SQLResult) : Prop :=
  LlmSound env log ftm r.guardResult.allowed r.sql r.generatorUsed r.fallbackUsed

/-! ## The contract of a call -/

/-- What the executor hands to the database: the output of its own allowed check of guarded SQL. -/
def Handed (env : LlmEnv) (sql : String) : Prop :=
  ∃ s, Guarded env s ∧ (SQLGuard.check env.unicode s).allowed = true ∧
    sql = (SQLGuard.check env.unicode s).sql

/-- Only sound records are stored, and only guarded SQL is run; what the cache answers is sound. -/
def sqlContract (env : LlmEnv) : Contract LlmOp LlmAns Raised where
  guarantee known
    | .setNl2sql _ _ o | .updateObject _ o => o.Sound env known false
    | .query sql => Handed env sql
    | _ => True
  rely known
    | .getNl2sql _ _, .ok (some o) => o.Sound env known false
    | _, _ => True

/-- The operations that the contract does not speak of. -/
def isFree : LlmOp → Prop
  | .setNl2sql _ _ _ | .updateObject _ _ | .query _ => False
  | _ => True

theorem isFree_guarantee {o : LlmOp} (h : isFree o) (known : List LlmEvent) :
    (sqlContract env).guarantee known o := by
  cases o <;> first | exact trivial | exact h.elim

theorem isFree_of_isCheck {o : LlmOp} (h : isCheck o) : isFree o := by
  cases o <;> first | exact trivial | exact h.elim

theorem isFree_of_isCharge {o : LlmOp} (h : isCharge o) : isFree o := by
  cases o <;> first | exact trivial | exact h.elim

theorem isFree_of_isAsk {o : LlmOp} (h : isAsk o) : isFree o := by
  cases o <;> first | exact trivial | exact h.elim

/-- A part of a call that the contract does not speak of. -/
theorem wp_isFree {α : Type} {p : Llm α} (hu : p.Uses isFree) (known : List LlmEvent) :
    wp ((sqlContract env).machine t) p (fun _ known' => known ⊆ known') known :=
  wp_free (fun _ ho known => isFree_guarantee ho known) hu

/-! ## The provider -/

section Provider

variable {known : List LlmEvent}

/-- The metadata that a provider returns are a reply. -/
def Replies (env : LlmEnv) (r : Except Raised LLMGenerateMetadata) (known : List LlmEvent) : Prop :=
  ∀ m, r = .ok m → Replied env known m

/-- An answer that an adapter reads is a reply. -/
theorem replied_of_read {o : LlmOp} {r : Except Raised (LlmAns o)}
    {read : LlmAns o → Except Raised LLMGenerateMetadata} (hmem : (⟨t, o, r⟩ : LlmEvent) ∈ known)
    (hread : ∀ a m, r = .ok a → read a = .ok m → ReadAs env m ⟨t, o, r⟩) :
    match r >>= read with
    | .ok m => Replied env known m
    | .error _ => True := by
  cases r with
  | error e => trivial
  | ok a =>
    show match read a with
      | .ok m => Replied env known m
      | .error _ => True
    cases hm : read a with
    | error e => trivial
    | ok m => exact .inr ⟨_, hmem, hread a m rfl hm⟩

/-- **Replies.**  Whatever a provider returns was a logged answer, or came from the fake provider. -/
theorem wp_generateWithMetadata (p : Provider) (prompt : String) :
    wp ((sqlContract env).machine t) (p.generateWithMetadata env prompt) (Replies env) known := by
  have hasks : Asks ((sqlContract env).machine t) env p prompt (fun _ => True)
      (fun m known' => Replied env known' m) := by
    refine ⟨fun s _ => ⟨trivial, ?_⟩, fun s _ => ⟨trivial, ?_⟩, fun s _ _ => .inl ⟨prompt, rfl⟩⟩
    · rintro r s' ⟨-, hmem, -⟩
      exact replied_of_read hmem fun a m hr hread => by subst hr; exact hread
    · rintro r s' ⟨-, hmem, -⟩
      exact replied_of_read hmem fun a m hr hread => by subst hr; exact hread
  refine wp_mono (hasks.wp_generateWithMetadata trivial) ?_
  rintro r s' h m rfl
  exact h

end Provider

/-! ## The generators -/

section Generator

variable {known : List LlmEvent} {ftm : Bool} {query : String} {schema : DatabaseSchema}
  {pruned : PrunedSchema} {providerName : String}

/-- The program returns a sound result, whatever it raises. -/
def ReturnsSound (env : LlmEnv) (ftm : Bool) (r : Except Raised NL2SQLResult) (known : List LlmEvent) :
    Prop :=
  ∀ result, r = .ok result → result.Sound env known ftm

theorem templateResult_guarded {t : MockNL2SQLGenerator.Template} {today monthPrefix : String} :
    (MockNL2SQLGenerator.templateResult env.unicode query pruned t today monthPrefix).guardResult.allowed
      = true →
    Guarded env
      (MockNL2SQLGenerator.templateResult env.unicode query pruned t today monthPrefix).sql := by
  unfold MockNL2SQLGenerator.templateResult
  dsimp only
  intro h
  exact ⟨MockNL2SQLGenerator.fillTemplate t.sql today monthPrefix, h, rfl⟩

/-- Allowed SQL of the mock generator is guarded. -/
theorem wp_mockGenerate :
    wp ((sqlContract env).machine t) (MockNL2SQLGenerator.generate env.unicode query schema)
      (fun r _ => ∀ result, r = .ok result →
        (result.guardResult.allowed = true → Guarded env result.sql)) known := by
  unfold MockNL2SQLGenerator.generate
  cases MockNL2SQLGenerator.matchTemplate query with
  | none =>
    intro result hresult
    cases hresult
    intro h
    cases h
  | some t =>
    refine wp_seq (R := fun _ _ => True) (wp_call.mpr ⟨trivial, fun _ _ _ => trivial⟩) ?_ ?_
    · rintro ⟨today, monthPrefix⟩ known' - result hresult
      obtain rfl := Except.ok.inj hresult
      exact templateResult_guarded
    · intro e known' _ result hresult
      cases hresult

theorem wp_mockFallback (reason : String) (warnings : List String) :
    wp ((sqlContract env).machine t) (LLMNL2SQLGenerator.buildMockFallbackResult env query schema
      providerName reason warnings) (ReturnsSound env true) known := by
  refine wp_seq wp_mockGenerate ?_ ?_
  · intro mock known' h result hresult
    cases hresult
    exact .mock rfl (h mock rfl)
  · intro e known' _ result hresult
    cases hresult

theorem wp_fallbackOrFailure (reason : String) (warnings : List String) :
    wp ((sqlContract env).machine t) (LLMNL2SQLGenerator.fallbackOrFailure env ftm query schema pruned
      providerName reason warnings) (ReturnsSound env ftm) known := by
  unfold LLMNL2SQLGenerator.fallbackOrFailure
  cases ftm with
  | true => exact wp_mockFallback reason warnings
  | false =>
    intro result hresult
    cases hresult
    exact .refused

theorem wp_handleGenerationError (exc : Raised) :
    wp ((sqlContract env).machine t) (LLMNL2SQLGenerator.handleGenerationError env ftm query schema pruned
      providerName exc) (ReturnsSound env ftm) known := by
  unfold LLMNL2SQLGenerator.handleGenerationError
  cases ftm with
  | true => exact wp_mockFallback _ []
  | false =>
    intro result hresult
    cases hresult
    exact .refused

/-- SQL that is accepted from a JSON object passed the guard. -/
theorem parseObject_accepted {data : Dict} {warnings : List String} {result : NL2SQLResult}
    (h : LLMNL2SQLGenerator.parseObject env query pruned providerName data warnings = .accepted result) :
    ∃ s, LLMNL2SQLGenerator.readSql env.unicode data = .ok s ∧
      (SQLGuard.check env.unicode s).allowed = true ∧ result.sql = (SQLGuard.check env.unicode s).sql ∧
      result.guardResult.allowed = true ∧ result.generatorUsed = "llm" ∧ result.fallbackUsed = false := by
  unfold LLMNL2SQLGenerator.parseObject at h
  cases hsql : LLMNL2SQLGenerator.readSql env.unicode data with
  | error e =>
    rw [hsql] at h
    cases h
  | ok s =>
    rw [hsql] at h
    dsimp only at h
    split at h
    · cases h
    · split at h
      · cases h
      · rename_i hallowed
        have hallowed : (SQLGuard.check env.unicode s).allowed = true := by simpa using hallowed
        cases h
        exact ⟨s, rfl, hallowed, rfl, hallowed, rfl, rfl⟩

/-- A reply whose SQL is accepted makes a sound result. -/
theorem parseResponse_accepted {m : LLMGenerateMetadata} {result : NL2SQLResult}
    (hm : Replied env known m)
    (h : LLMNL2SQLGenerator.parseResponse env query pruned m providerName = .ok (.accepted result)) :
    result.Sound env known ftm := by
  unfold LLMNL2SQLGenerator.parseResponse at h
  split at h
  · split at h <;> cases h
  · rename_i data hint hload
    obtain ⟨s, hs, hallowed, hsql, hg, hllm, hfb⟩ := parseObject_accepted (Except.ok.inj h)
    unfold NL2SQLResult.Sound
    rw [hg, hllm, hfb]
    exact .reply ⟨m, s, hm, ⟨data, hint, hload, hs⟩, hallowed, hsql⟩
  · cases h

theorem wp_useReply {m : LLMGenerateMetadata} (hm : Replied env known m) :
    wp ((sqlContract env).machine t) (LLMNL2SQLGenerator.useReply env ftm query schema pruned providerName m)
      (ReturnsSound env ftm) known := by
  unfold LLMNL2SQLGenerator.useReply
  cases hp : LLMNL2SQLGenerator.parseResponse env query pruned m providerName with
  | error e =>
    intro result hresult
    cases hresult
  | ok parsed =>
    cases parsed with
    | accepted result =>
      intro result' hresult
      cases hresult
      exact parseResponse_accepted hm hp
    | fallback reason warnings => exact wp_fallbackOrFailure reason warnings

/-- **The generator.**  Every exit of `LLMNL2SQLGenerator.generate` has one of the three shapes. -/
theorem wp_llmGenerate (prov : Provider) :
    wp ((sqlContract env).machine t) (LLMNL2SQLGenerator.generate env prov ftm query schema)
      (fun r known' => ∀ result metadata, r = .ok (result, metadata) → result.Sound env known' ftm)
      known := by
  unfold LLMNL2SQLGenerator.generate
  refine wp_seq (wp_attempt (wp_generateWithMetadata prov _)) ?_ ?_
  · rintro (exc | m) known' ⟨r', hr', h⟩
    · refine wp_seq (wp_handleGenerationError exc) ?_ ?_
      · intro result known'' hresult result' metadata heq
        cases heq
        exact hresult result rfl
      · intro e known'' _ result' metadata heq
        cases heq
    · cases hr'
      refine wp_seq (R := ReturnsSound env ftm)
        (wp_try (wp_useReply (h m rfl)) (fun _ _ h => h) fun exc _ _ => wp_handleGenerationError exc) ?_ ?_
      · intro result known'' hresult result' metadata heq
        cases heq
        exact hresult result rfl
      · intro e known'' _ result' metadata heq
        cases heq
  · rintro e known' ⟨r', hr', -⟩
    cases hr'

end Generator

/-! ## The pipeline -/

section Pipeline

variable {known : List LlmEvent} {call : Nl2sqlCall} {schema : DatabaseSchema}

/-- What the record of a call reports is sound. -/
def GenOutput.SoundFor (env : LlmEnv) (known : List LlmEvent) (call : Nl2sqlCall) (o : GenOutput) : Prop :=
  SqlSound env known (call.generator = "llm") call.fallbackToMock o.guardAllowed o.sql o.generatorUsed
    o.fallbackUsed

theorem SqlSound.mono {known' : List LlmEvent} {llm ftm allowed fallbackUsed : Bool}
    {sql generatorUsed : String} (h : SqlSound env known llm ftm allowed sql generatorUsed fallbackUsed)
    (hsub : known ⊆ known') : SqlSound env known' llm ftm allowed sql generatorUsed fallbackUsed where
  guarded := h.guarded
  fallback_iff := h.fallback_iff
  no_mock hllm hftm := by
    obtain ⟨hused, hsql⟩ := h.no_mock hllm hftm
    exact ⟨hused, hsql.imp_right fun h => h.mono hsub⟩

/-- The record and the reference of a generation: a referenced record may be cached. -/
def Generated (env : LlmEnv) (ftm : Bool) (r : Except Raised (GenOutput × Option Nat))
    (known : List LlmEvent) : Prop :=
  ∀ o id, r = .ok (o, id) → o.Sound env known ftm ∧ (id.isSome = true → o.Sound env known false)

/-- A record without a reference. -/
theorem Generated.uncached {ftm : Bool} {o : GenOutput} (h : o.Sound env known ftm) :
    Generated env ftm (.ok (o, none)) known := by
  intro o' id heq
  cases heq
  exact ⟨h, fun h => absurd h (by decide)⟩

theorem Generated.raised {ftm : Bool} {e : Raised} : Generated env ftm (.error e) known := by
  intro o id heq
  cases heq

theorem wp_pipelineMockFallback (providerName reason : String) (warnings : List String)
    (budget : Option BudgetDecision) :
    wp ((sqlContract env).machine t) (NL2SQLPipeline.mockFallback env call.query schema providerName reason
      warnings budget) (fun r known' => ∀ o, r = .ok o → o.Sound env known' true) known := by
  refine wp_seq wp_mockGenerate ?_ ?_
  · intro result known' h o ho
    cases ho
    exact .mock rfl (h result rfl)
  · intro e known' _ o ho
    cases ho

/-- Storing a record that may be cached. -/
theorem wp_setNl2sql (key : String) {o : GenOutput} (h : o.Sound env known false) :
    wp ((sqlContract env).machine t) (LLMResultCache.setNl2sql env key o) (fun _ known' => known ⊆ known')
      known := by
  unfold LLMResultCache.setNl2sql
  split
  · exact fun _ he => he
  · refine wp_seq (wp_isFree (expireAt_uses trivial) known) ?_ fun _ _ h => h
    intro expire known₁ h₁
    refine wp_seq (R := fun _ known' => known ⊆ known') (wp_call.mpr ⟨h.mono h₁, ?_⟩) (fun _ _ h => h)
      fun _ _ h => h
    rintro r known₂ ⟨h₂, -, -⟩
    exact fun e he => h₂ (h₁ he)

/-- What the cache answers may be cached. -/
theorem wp_getNl2sql (key : String) :
    wp ((sqlContract env).machine t) (LLMResultCache.getNl2sql env key)
      (fun r known' => ∀ o, r = .ok (some o) → o.Sound env known' false) known := by
  unfold LLMResultCache.getNl2sql
  split
  · intro o ho
    cases ho
  · refine wp_seq (wp_isFree (p := Llm.now) (Prog.uses_call.mpr trivial) known) ?_ ?_
    · intro now known₁ _
      refine wp_call.mpr ⟨trivial, ?_⟩
      rintro r known₂ ⟨-, -, hrely⟩ o rfl
      exact hrely
    · intro e known₁ _ o ho
      cases ho

/-- The call of the generator, the charge, and the store where the record is not a fallback. -/
theorem wp_generateFresh (prov : Provider) (budget : BudgetDecision) :
    wp ((sqlContract env).machine t) (NL2SQLPipeline.generateFresh env call schema prov budget)
      (Generated env call.fallbackToMock) known := by
  refine wp_seq (wp_llmGenerate prov) ?_ fun e known' _ => Generated.raised
  rintro ⟨result, metadata⟩ known₁ hresult
  have hsound : (NL2SQLPipeline.outputOf result metadata (some budget)).Sound env known₁
      call.fallbackToMock := hresult result metadata rfl
  have hcharge : (NL2SQLPipeline.charge env metadata).Uses isFree := by
    cases metadata with
    | none => trivial
    | some m =>
      exact Prog.Uses.tryCatch ((recordUsage_uses _ _ _ _ _ _).mono fun o ho => isFree_of_isCharge ho)
        fun _ => trivial
  refine wp_seq (wp_isFree hcharge known₁) ?_ fun e known' _ => Generated.raised
  rintro - known₂ hsub
  have hsound := hsound.mono hsub
  dsimp only
  split
  · rename_i hllm
    -- the stored record is not a fallback
    have hcached := hsound.cached hllm
    refine wp_seq (R := fun _ known' => known₂ ⊆ known') ?_ ?_ fun e known' _ => Generated.raised
    · exact wp_try (wp_setNl2sql _ hcached) (fun _ _ h => h) fun _ _ h => h
    · intro id known₃ h₃ o id' heq
      cases heq
      exact ⟨hsound.mono h₃, fun _ => hcached.mono h₃⟩
  · exact Generated.uncached hsound

/-- The generation behind `create_provider`: over budget, from the cache, or fresh. -/
theorem wp_generateWith (prov : Provider) :
    wp ((sqlContract env).machine t) (NL2SQLPipeline.generateWith env call schema prov)
      (Generated env call.fallbackToMock) known := by
  unfold NL2SQLPipeline.generateWith
  refine wp_seq (wp_isFree ((checkBudget_uses _).mono fun o ho => isFree_of_isCheck ho) known) ?_
    fun e known' _ => Generated.raised
  intro budget known₁ _
  split
  · split
    · rename_i hftm
      refine wp_seq (wp_pipelineMockFallback prov.name budget.reason [budget.reason] (some budget)) ?_
        fun e known' _ => Generated.raised
      intro o known' ho
      rw [hftm]
      exact Generated.uncached (ho o rfl)
    · exact Generated.uncached .refused
  · refine wp_seq (wp_getNl2sql _) ?_ fun e known' _ => Generated.raised
    intro cached known₂ hcached
    cases cached with
    | none => exact wp_generateFresh prov budget
    | some o => exact Generated.uncached (LlmSound.of_cached (hcached o rfl))

/-- **The pipeline.**  What `_generate` returns is sound for the call, and what it refers to may be
cached. -/
theorem wp_pipelineGenerate :
    wp ((sqlContract env).machine t) (NL2SQLPipeline.generate env call schema)
      (fun r known' => ∀ o id, r = .ok (o, id) →
        o.SoundFor env known' call ∧ (id.isSome = true → o.Sound env known' false)) known := by
  unfold NL2SQLPipeline.generate
  by_cases hllm : call.generator = "llm"
  · rw [if_pos hllm]
    have hpost : ∀ r known', Generated env call.fallbackToMock r known' → ∀ o id, r = .ok (o, id) →
        o.SoundFor env known' call ∧ (id.isSome = true → o.Sound env known' false) := by
      intro r known' h o id heq
      obtain ⟨hsound, hid⟩ := h o id heq
      refine ⟨?_, hid⟩
      unfold GenOutput.SoundFor
      rw [decide_eq_true hllm]
      exact LlmSound.sound hsound
    refine wp_mono ?_ hpost
    split
    · exact Generated.uncached .refused
    · split
      · rename_i hftm
        refine wp_seq (wp_pipelineMockFallback "litellm" _ [] none) ?_ fun e known' _ => Generated.raised
        intro o known' ho
        rw [hftm]
        exact Generated.uncached (ho o rfl)
      · exact Generated.uncached .refused
    · exact wp_generateWith _
  · rw [if_neg hllm]
    refine wp_seq wp_mockGenerate ?_ ?_
    · intro result known' h o id heq
      cases heq
      refine ⟨⟨h result rfl, ?_, ?_⟩, fun h => absurd h (by decide)⟩
      · exact fun h => absurd (of_decide_eq_true h) hllm
      · exact fun h => absurd (of_decide_eq_true h) hllm
    · intro e known' _ o id heq
      cases heq

/-- `preview` changes the reasoning and the warnings only. -/
theorem sanitized_soundFor {o : GenOutput} {g : GuardrailsResult} (h : o.SoundFor env known call) :
    (NL2SQLPipeline.sanitized o g).SoundFor env known call := h

theorem sanitized_sound {o : GenOutput} {g : GuardrailsResult} {ftm : Bool}
    (h : o.Sound env known ftm) : (NL2SQLPipeline.sanitized o g).Sound env known ftm := h

theorem wp_preview :
    wp ((sqlContract env).machine t) (NL2SQLPipeline.preview env call)
      (fun r known' => ∀ p, r = .ok p → p.output.SoundFor env known' call) known := by
  refine wp_seq (wp_isFree (p := Llm.perform .extractSchema) (Prog.uses_call.mpr trivial) known) ?_ ?_
  · intro schema known₁ _
    refine wp_seq wp_pipelineGenerate ?_ ?_
    · rintro ⟨o, id⟩ known₂ h
      obtain ⟨hsound, hcached⟩ := h o id rfl
      cases id with
      | none =>
        intro p hp
        cases hp
        exact sanitized_soundFor hsound
      | some id =>
        refine wp_seq (R := fun _ known' => known₂ ⊆ known')
          (wp_call.mpr ⟨sanitized_sound (hcached rfl), ?_⟩) ?_ ?_
        · rintro r known₃ ⟨hsub, -, -⟩
          exact hsub
        · intro _ known₃ hsub p hp
          cases hp
          exact sanitized_soundFor (SqlSound.mono hsound hsub)
        · intro e known₃ _ p hp
          cases hp
    · intro e known₂ _ p hp
      cases hp
  · intro e known₁ _ p hp
    cases hp

/-- The executor runs the output of its own check of the SQL that it is handed. -/
theorem wp_execute (dbPath sql : String) (hsql : Guarded env sql) :
    wp ((sqlContract env).machine t) (SQLiteReadOnlyExecutor.execute env.unicode dbPath sql)
      (fun _ _ => True) known := by
  unfold SQLiteReadOnlyExecutor.execute
  dsimp only
  split
  · trivial
  · rename_i hallowed
    have hallowed : (SQLGuard.check env.unicode sql).allowed = true := by simpa using hallowed
    refine wp_seq (wp_attempt (Q := fun _ _ => True) (wp_call.mpr ⟨⟨sql, hsql, hallowed, rfl⟩, ?_⟩)) ?_ ?_
    · exact fun _ _ _ => trivial
    · rintro (exc | _ | ⟨columns, rows⟩) known' - <;> trivial
    · exact fun _ _ _ => trivial

theorem wp_pipelineRun (dbPath : String) :
    wp ((sqlContract env).machine t) (NL2SQLPipeline.run env dbPath call)
      (fun r known' => ∀ result, r = .ok result → result.preview.output.SoundFor env known' call) known := by
  refine wp_seq wp_preview ?_ ?_
  · intro p known₁ h
    have hsound := h p rfl
    unfold NL2SQLPipeline.finish
    split
    · rename_i hcond
      obtain ⟨hallowed, -⟩ := Bool.and_eq_true _ _ |>.mp hcond
      refine wp_seq (wp_known (wp_execute dbPath p.output.sql (hsound.guarded hallowed))) ?_ ?_
      · rintro execution known₂ ⟨-, hsub⟩ result heq
        cases heq
        exact SqlSound.mono hsound hsub
      · intro e known₂ _ result heq
        cases heq
    · intro result heq
      cases heq
      exact hsound
  · intro e known₁ _ result heq
    cases heq

end Pipeline

/-! ## Runs -/

/-- What a request reports about SQL is sound. -/
def LlmRequest.SoundOutcome (env : LlmEnv) (log : List LlmEvent) : LlmRequest → LlmOutcome → Prop
  | .generate _ fallbackToMock _ _, .generated r =>
    SqlSound env log true fallbackToMock r.guardResult.allowed r.sql r.generatorUsed r.fallbackUsed
  | .preview call, .previewed p => p.output.SoundFor env log call
  | .run _ call, .ran r => r.preview.output.SoundFor env log call
  | .judge _ _, .judged _ => True
  | _, _ => False

theorem LlmRequest.SoundOutcome.mono {req : LlmRequest} {o : LlmOutcome}
    (h : req.SoundOutcome env log o) (hsub : log ⊆ log') : req.SoundOutcome env log' o := by
  cases req <;> cases o <;> first | exact h.elim | exact SqlSound.mono h hsub | trivial

/-- Every request keeps the contract and reports soundly. -/
theorem wp_code (req : LlmRequest) (known : List LlmEvent) :
    wp ((sqlContract env).machine t) (req.code env)
      (fun r known' => ∀ o, r = .ok o → req.SoundOutcome env known' o) known := by
  cases req with
  | generate prov ftm query schema =>
    refine wp_seq (wp_llmGenerate prov) ?_ ?_
    · rintro ⟨result, metadata⟩ known' h o heq
      cases heq
      exact LlmSound.sound (h result metadata rfl)
    · intro e known' _ o heq
      cases heq
  | preview call =>
    refine wp_seq wp_preview ?_ ?_
    · intro p known' h o heq
      cases heq
      exact h p rfl
    · intro e known' _ o heq
      cases heq
  | run dbPath call =>
    refine wp_seq (wp_pipelineRun dbPath) ?_ ?_
    · intro r known' h o heq
      cases heq
      exact h r rfl
    · intro e known' _ o heq
      cases heq
  | judge j input =>
    have hu : (LLMJudgeProvider.evaluate env j input).Uses isFree :=
      evaluate_uses (fun _ h => isFree_of_isCheck h) (fun _ h => isFree_of_isCharge h)
        (fun _ h => isFree_of_isAsk h) (fun _ _ => trivial) (fun _ _ _ => trivial) j input
    refine wp_seq (wp_isFree hu known) ?_ ?_
    · intro r known' _ o heq
      cases heq
      trivial
    · intro e known' _ o heq
      cases heq

/-- Every cached record is sound, and every query so far was handed guarded SQL. -/
structure SqlInv (env : LlmEnv) (w : LlmWorld) : Prop where
  cached : ∀ o ∈ w.db.objects, o.Sound env w.log false
  queries : ∀ e ∈ w.log, ∀ sql, e.op = .query sql → Handed env sql

/-- An operation that neither stores a record nor queries. -/
theorem SqlInv.frame {w w' : LlmWorld} (h : SqlInv env w) {e : LlmEvent} (hlog : w'.log = w.log ++ [e])
    (hobjects : ∀ o ∈ w'.db.objects, o ∈ w.db.objects ∨ o.Sound env w.log false)
    (hquery : ∀ sql, e.op = .query sql → Handed env sql) : SqlInv env w' where
  cached o ho := by
    rw [hlog]
    rcases hobjects o ho with hold | hnew
    · exact (h.cached o hold).mono (List.subset_append_left _ _)
    · exact hnew.mono (List.subset_append_left _ _)
  queries e' he' sql hsql := by
    rw [hlog, List.mem_append, List.mem_singleton] at he'
    rcases he' with hold | rfl
    · exact h.queries e' hold sql hsql
    · exact hquery sql hsql

/-- **One operation** under the contract keeps the invariant, and answers as relied on. -/
theorem sqlInv_step (out : LlmOutside) (t : Nat) (o : LlmOp) (w : LlmWorld) (known : List LlmEvent)
    (h : SqlInv env w) (hknown : known ⊆ w.log) (hmay : (sqlContract env).guarantee known o) :
    (sqlContract env).rely (llmStep out t o w).2.log o (llmStep out t o w).1 ∧
      SqlInv env (llmStep out t o w).2 := by
  cases o with
  | setNl2sql key expireAt record =>
    refine ⟨trivial, h.frame rfl (fun o ho => ?_) fun sql hsql => by cases hsql⟩
    rcases List.mem_append.mp ho with hold | hnew
    · exact .inl hold
    · cases List.mem_singleton.mp hnew
      exact .inr (LlmSound.mono hmay hknown)
  | updateObject id record =>
    refine ⟨trivial, h.frame rfl (fun o ho => ?_) fun sql hsql => by cases hsql⟩
    rcases List.mem_or_eq_of_mem_set ho with hold | rfl
    · exact .inl hold
    · exact .inr (LlmSound.mono hmay hknown)
  | query sql =>
    refine ⟨trivial, h.frame rfl (fun o ho => .inl ho) fun sql' hsql => ?_⟩
    cases hsql
    exact hmay
  | getNl2sql key now =>
    obtain ⟨hobjects, hanswer⟩ := @llmExec_getNl2sql out w.log w.db key now
    have hinv : SqlInv env (llmStep out t (.getNl2sql key now) w).2 := by
      refine h.frame rfl (fun o ho => .inl ?_) fun sql hsql => by cases hsql
      rw [← hobjects]
      exact ho
    refine ⟨?_, hinv⟩
    cases hans : (llmStep out t (.getNl2sql key now) w).1 with
    | error e => trivial
    | ok answer =>
      cases answer with
      | none => trivial
      | some o =>
        refine hinv.cached o ?_
        rw [show (llmStep out t (.getNl2sql key now) w).2.db.objects = w.db.objects from hobjects]
        exact hanswer o hans
  | getJudge key now =>
    refine ⟨trivial, h.frame rfl (fun o ho => .inl ?_) fun sql hsql => by cases hsql⟩
    rw [← llmExec_getJudge]
    exact ho
  | _ => exact ⟨trivial, h.frame rfl (fun o ho => .inl ho) fun sql hsql => by cases hsql⟩

/-- The invariant holds after every schedule, and every outcome is sound. -/
theorem sqlInv_after (env : LlmEnv) (out : LlmOutside) (reqs : Nat → LlmRequest) (sched : List Nat) :
    SqlInv env (LlmConf.after env out reqs sched).world ∧
    ∀ t o, (LlmConf.after env out reqs sched).outcome t = some (.ok o) →
      (reqs t).SoundOutcome env (LlmConf.after env out reqs sched).world.log o := by
  have hinit : SqlInv env (LlmConf.start env reqs).world :=
    ⟨fun o ho => absurd ho List.not_mem_nil, fun e he => absurd he List.not_mem_nil⟩
  have hmeets : Conf.Meets (llmStep out) (fun _ _ _ => True) (LlmConf.start env reqs) sched :=
    Conf.meets_of_forall (fun _ _ _ => trivial) _ sched
  obtain ⟨hinv, hout⟩ := LlmConf.run_contract
    (fun c t o known hI hknown hmay (_ : True) => sqlInv_step out t o c.world known hI hknown hmay)
    hinit (fun t => wp_code (reqs t) []) hmeets
  refine ⟨hinv, fun t o ho => ?_⟩
  obtain ⟨known, hknown, h⟩ := hout t _ ho
  exact (h o rfl).mono hknown

/-- **Guarded SQL.**  For any requests on one process, any answers from outside and every
interleaving: what a finished request reports about its SQL is sound, and the database has only been
asked what the executor's check made of guarded SQL. -/
theorem sql_guarded (env : LlmEnv) (out : LlmOutside) (reqs : Nat → LlmRequest) (sched : List Nat) :
    (∀ t o, (LlmConf.after env out reqs sched).outcome t = some (.ok o) →
      (reqs t).SoundOutcome env (LlmConf.after env out reqs sched).world.log o) ∧
    ∀ e ∈ (LlmConf.after env out reqs sched).world.log, ∀ sql, e.op = .query sql → Handed env sql := by
  obtain ⟨hinv, hout⟩ := sqlInv_after env out reqs sched
  exact ⟨hout, hinv.queries⟩

/-- The SQL a finished preview shows. -/
def shownSql : Option (Except Raised LlmOutcome) → String
  | some (.ok (.previewed p)) => p.output.sql
  | _ => ""

theorem exists_preview_of_shownSql {o : Option (Except Raised LlmOutcome)} (h : shownSql o ≠ "") :
    ∃ p, o = some (.ok (.previewed p)) ∧ p.output.sql ≠ "" := by
  unfold shownSql at h
  split at h
  · exact ⟨_, rfl, h⟩
  · exact absurd rfl h

/-- An operation answered by this process itself. -/
def LlmOp.isLocal : LlmOp → Bool
  | .extractSchema | .today => true
  | _ => false

/-- A caller that chose the mock generator gets mock SQL, also where it allows no fallback. -/
theorem mock_generator_without_fallback :
    ¬ ∀ (env : LlmEnv) (out : LlmOutside) (reqs : Nat → LlmRequest) (sched : List Nat) (t : Nat)
      (call : Nl2sqlCall) (p : PreviewResult), reqs t = .preview call → call.fallbackToMock = false →
        (LlmConf.after env out reqs sched).outcome t = some (.ok (.previewed p)) →
        p.output.sql = "" ∨ FromReply env (LlmConf.after env out reqs sched).world.log p.output.sql := by
  intro h
  let call : Nl2sqlCall := ⟨"GMV", "mock", none, false⟩
  let out : LlmOutside := .sample fun _ => .error ⟨"", ""⟩
  let c := LlmConf.after (.sample .sample) out (fun _ => .preview call) [0, 0]
  have hshows : shownSql (c.outcome 0) ≠ "" := by decide +kernel
  obtain ⟨p, hp, hsql⟩ := exists_preview_of_shownSql hshows
  rcases h (.sample .sample) out (fun _ => .preview call) [0, 0] 0 call p rfl rfl hp with hno | ⟨m, s, hm, ⟨data, hint, hload, -⟩, -⟩
  · exact hsql hno
  · have hempty : LLMNL2SQLGenerator.loadsTolerant (.sample .sample) "" =
        .error ⟨"JSONDecodeError", "Expecting value"⟩ := rfl
    rcases hm with ⟨prompt, rfl⟩ | ⟨e, he, hread⟩
    · cases hempty.symm.trans hload
    · have hquiet : (c.world.log.all fun e => e.op.isLocal) = true := by decide +kernel
      have hop := List.all_eq_true.mp hquiet e he
      obtain ⟨t, o, r⟩ := e
      cases o <;> first | exact hread | cases hop

end AgentHarness
