import AgentHarness.LlmRuns

/-!
# CacheContract — what a call of the pipeline stores in the cache and takes from it

A call asks for one generation (`Ask`): its question, the schema it was given and its provider.  The
key of the cache is made of less than the prompt: the row counts and the sample values of the schema are
in the prompt and not in the key.  `Generated` is the record of a reply that was accepted; a generation
that failed is stored likewise where the call does not fall back to the mock generator.
-/

namespace AgentHarness

open Lib

deriving instance DecidableEq for Provider

/-- The call of the pipeline that a request makes. -/
def LlmRequest.nl2sqlCall : LlmRequest → Option Nl2sqlCall
  | .preview call | .run _ call => some call
  | _ => none

/-- The schema that a thread was given. -/
def schemaGiven? (e : LlmEvent) : Option DatabaseSchema :=
  match e with
  | ⟨_, .extractSchema, .ok schema⟩ => some schema
  | _ => none

structure Ask where
  query : String
  schema : DatabaseSchema
  prov : Provider

/-- The generation that a call with these events asks for, in LLM mode. -/
def LlmRequest.ask (env : LlmEnv) (req : LlmRequest) (events : List LlmEvent) : Option Ask :=
  match req.nl2sqlCall, events.findSome? schemaGiven? with
  | some call, some schema =>
    if call.generator = "llm" then
      match createProvider env.settings call.provider none none env.settings.llmMaxRetries with
      | .ok prov => some ⟨call.query, schema, prov⟩
      | .error _ => none
    else none
  | _, _ => none

namespace Ask

variable (env : LlmEnv) (a : Ask)

def pruned : PrunedSchema := SchemaPruner.prune a.query a.schema

def prompt : String := LLMNL2SQLGenerator.renderPrompt env a.query a.pruned

def key : String :=
  NL2SQLPipeline.cacheKey env a.query a.schema a.prov.name (NL2SQLPipeline.providerModel env a.prov)

/-- The metadata that the adapter makes of an answer to the prompt. -/
def reply? (e : LlmEvent) : Option LLMGenerateMetadata :=
  match e with
  | ⟨_, .litellmCompletion p text, .ok response⟩ =>
    if p = a.prov ∧ text = a.prompt env then (Provider.normalizeResponse p response).toOption else none
  | ⟨_, .httpPost p text, .ok response⟩ =>
    if p = a.prov ∧ text = a.prompt env then (Provider.readHttpResponse env p response).toOption else none
  | _ => none

/-- The replies to a call; the fake provider replies without a request. -/
def replies (events : List LlmEvent) : List LLMGenerateMetadata :=
  if a.prov.kind = .fake then [Provider.fakeMetadata env (a.prompt env)]
  else events.filterMap (a.reply? env)

/-- The result that is accepted from a reply. -/
def accepted? (m : LLMGenerateMetadata) : Option NL2SQLResult :=
  match LLMNL2SQLGenerator.parseResponse env a.query a.pruned m a.prov.name with
  | .ok (.accepted result) => some result
  | _ => none

/-- Some reply is accepted. -/
def succeeds (events : List LlmEvent) : Bool :=
  (a.replies env events).any fun m => (a.accepted? env m).isSome

/-- The record of an accepted reply. -/
def Generated (events : List LlmEvent) (o : GenOutput) : Prop :=
  ∃ m ∈ a.replies env events, ∃ result, a.accepted? env m = some result ∧
    ∃ budget, o = NL2SQLPipeline.outputOf result (some m) budget

end Ask

/-- The records agree but for what `preview` and a cache hit change. -/
structure GenOutput.Same (o o' : GenOutput) : Prop where
  selectedTables : o.selectedTables = o'.selectedTables
  sql : o.sql = o'.sql
  guardAllowed : o.guardAllowed = o'.guardAllowed
  guardReason : o.guardReason = o'.guardReason
  confidence : o.confidence = o'.confidence
  generatorUsed : o.generatorUsed = o'.generatorUsed
  providerUsed : o.providerUsed = o'.providerUsed
  fallbackUsed : o.fallbackUsed = o'.fallbackUsed
  fallbackReason : o.fallbackReason = o'.fallbackReason

/-- The metadata say that the record is from the cache. -/
def GenOutput.cacheHit (o : GenOutput) : Bool := o.providerMetadata.any LLMGenerateMetadata.cacheHit

namespace GenOutput.Same

variable {o o' o'' : GenOutput}

theorem refl (o : GenOutput) : o.Same o := ⟨rfl, rfl, rfl, rfl, rfl, rfl, rfl, rfl, rfl⟩

theorem symm (h : o.Same o') : o'.Same o :=
  ⟨h.1.symm, h.2.symm, h.3.symm, h.4.symm, h.5.symm, h.6.symm, h.7.symm, h.8.symm, h.9.symm⟩

theorem trans (h : o.Same o') (h' : o'.Same o'') : o.Same o'' :=
  ⟨h.1.trans h'.1, h.2.trans h'.2, h.3.trans h'.3, h.4.trans h'.4, h.5.trans h'.5, h.6.trans h'.6,
    h.7.trans h'.7, h.8.trans h'.8, h.9.trans h'.9⟩

end GenOutput.Same

theorem sanitized_same (o : GenOutput) (g : GuardrailsResult) : o.Same (NL2SQLPipeline.sanitized o g) :=
  ⟨rfl, rfl, rfl, rfl, rfl, rfl, rfl, rfl, rfl⟩

theorem fromCache_same (o : GenOutput) (budget : BudgetDecision) :
    o.Same (NL2SQLPipeline.fromCache o budget) :=
  ⟨rfl, rfl, rfl, rfl, rfl, rfl, rfl, rfl, rfl⟩

/-! ## The contract -/

/-- A record that a call stores: that of an accepted reply, or of a failure without a fallback. -/
def Storable (env : LlmEnv) (req : LlmRequest) (events : List LlmEvent) (key : String) (o : GenOutput) :
    Prop :=
  ∃ a, req.ask env events = some a ∧ key = a.key env ∧
    (a.Generated env events o ∨
      (∃ call ∈ req.nl2sqlCall, call.fallbackToMock = false) ∧ a.succeeds env events = false)

/-- What a thread that serves `req` does with the cache of generations. -/
def cacheMay (env : LlmEnv) (req : LlmRequest) (t : Nat) (events : List LlmEvent) : LlmOp → Prop
  | .getNl2sql key _ => ∃ a, req.ask env events = some a ∧ key = a.key env
  | .setNl2sql key _ o => Storable env req events key o
  | .updateObject id o => ∃ key expireAt o₀, (⟨t, .setNl2sql key expireAt o₀, .ok id⟩ : LlmEvent) ∈ events ∧
      o₀.Same o
  | _ => True

/-! ## What the events of a call say -/

section Events

variable {env : LlmEnv} {req : LlmRequest} {t : Nat} {a : Ask} {events events' : List LlmEvent}
  {rs : List LLMGenerateMetadata} {α : Type}

/-- What has been asked for stays. -/
theorem LlmRequest.ask_mono (h : req.ask env events = some a) (hpre : events <+: events') :
    req.ask env events' = some a := by
  obtain ⟨later, rfl⟩ := hpre
  unfold ask at h ⊢
  split at h
  · rename_i call schema hcall hschema
    rw [hcall, List.findSome?_append, hschema]
    exact h
  · cases h

theorem Ask.replies_mono {m : LLMGenerateMetadata} (h : m ∈ a.replies env events) (hpre : events <+: events') :
    m ∈ a.replies env events' := by
  obtain ⟨later, rfl⟩ := hpre
  unfold replies at h ⊢
  by_cases hfake : a.prov.kind = .fake
  · rwa [if_pos hfake] at h ⊢
  · rw [if_neg hfake] at h ⊢
    rw [List.filterMap_append]
    exact List.mem_append_left _ h

theorem Ask.Generated.mono {o : GenOutput} (h : a.Generated env events o) (hpre : events <+: events') :
    a.Generated env events' o := by
  obtain ⟨m, hm, rest⟩ := h
  exact ⟨m, replies_mono hm hpre, rest⟩

/-- The request asks for `a`, and `rs` are the answers read so far. -/
structure At (env : LlmEnv) (req : LlmRequest) (a : Ask) (rs : List LLMGenerateMetadata)
    (events : List LlmEvent) : Prop where
  ask : req.ask env events = some a
  read : events.filterMap (a.reply? env) = rs

theorem At.append (h : At env req a rs events) (e : LlmEvent) :
    At env req a (rs ++ (a.reply? env e).toList) (events ++ [e]) := by
  refine ⟨LlmRequest.ask_mono h.ask (List.prefix_append _ _), ?_⟩
  rw [List.filterMap_append, h.read]
  cases hread : a.reply? env e with
  | none => rw [List.filterMap_cons_none hread, List.filterMap_nil, Option.toList_none]
  | some m => rw [List.filterMap_cons_some hread, List.filterMap_nil, Option.toList_some]

/-- The operations that neither the contract nor the replies speak of. -/
def isQuietLlm : LlmOp → Prop
  | .litellmCompletion _ _ | .httpPost _ _ | .getNl2sql _ _ | .setNl2sql _ _ _ | .updateObject _ _ => False
  | _ => True

theorem At.quiet (h : At env req a rs events) {o : LlmOp} (ho : isQuietLlm o) (r : Except Raised (LlmAns o)) :
    At env req a rs (events ++ [⟨t, o, r⟩]) := by
  have hnone : a.reply? env ⟨t, o, r⟩ = none := by
    cases o <;> first | exact ho.elim | rfl
  simpa [hnone] using h.append ⟨t, o, r⟩

theorem isQuietLlm_may {o : LlmOp} (ho : isQuietLlm o) (events : List LlmEvent) :
    cacheMay env req t events o := by
  cases o <;> first | exact ho.elim | trivial

/-- A part of a call that is quiet. -/
theorem wp_unread {p : Llm α} (hu : p.Uses isQuietLlm) (h : At env req a rs events) :
    wp (Machine.own (cacheMay env req t) t) p (fun _ events' => At env req a rs events') events := by
  refine wp_of_keeps (I := At env req a rs) ?_ hu h
  intro o ho s hs
  refine ⟨isQuietLlm_may ho s, ?_⟩
  rintro r s' rfl
  exact hs.quiet ho r

theorem isQuietLlm_of_isCheck {o : LlmOp} (h : isCheck o) : isQuietLlm o := by
  cases o <;> trivial

theorem isQuietLlm_of_isCharge {o : LlmOp} (h : isCharge o) : isQuietLlm o := by
  cases o <;> trivial

end Events

/-! ## Conformance -/

section Conformance

variable {env : LlmEnv} {req : LlmRequest} {t : Nat} {a : Ask} {events : List LlmEvent}
  {rs : List LLMGenerateMetadata} {call : Nl2sqlCall}

/-- How asking the provider ends: with the only reply there is, or with none. -/
def Heard (env : LlmEnv) (req : LlmRequest) (a : Ask) (r : Except Raised LLMGenerateMetadata)
    (events : List LlmEvent) : Prop :=
  ∃ rs, At env req a rs events ∧ a.replies env events = r.toOption.toList

theorem At.heard (h : At env req a rs events) (hkind : a.prov.kind ≠ .fake)
    {r : Except Raised LLMGenerateMetadata} (hr : rs = r.toOption.toList) : Heard env req a r events := by
  refine ⟨rs, h, ?_⟩
  rw [Ask.replies, if_neg hkind, h.read, hr]

/-- **The provider.**  The replies that the events show are what the adapter returns. -/
theorem wp_generateWithMetadata_heard (h : At env req a [] events) :
    wp (Machine.own (cacheMay env req t) t) (a.prov.generateWithMetadata env (a.prompt env))
      (Heard env req a) events := by
  by_cases hkind : a.prov.kind = .fake
  · unfold Provider.generateWithMetadata
    rw [hkind]
    refine ⟨[], h, ?_⟩
    rw [Ask.replies, if_pos hkind]
    rfl
  · have hasks : Asks (Machine.own (cacheMay env req t) t) env a.prov (a.prompt env) (At env req a [])
        (fun m => At env req a [m]) := by
      refine ⟨fun s hs => ⟨trivial, ?_⟩, fun s hs => ⟨trivial, ?_⟩, fun s _ hfake => absurd hfake hkind⟩
      · rintro r s' rfl
        have := hs.append ⟨t, .httpPost a.prov (a.prompt env), r⟩
        cases r with
        | error e => exact this
        | ok response =>
          simp only [Ask.reply?, true_and, if_true] at this
          have hbind : ((.ok response : Except Raised HttpResponse) >>= Provider.readHttpResponse env a.prov) =
              Provider.readHttpResponse env a.prov response := rfl
          rw [hbind]
          cases hread : Provider.readHttpResponse env a.prov response with
          | error e => rw [hread] at this; exact this
          | ok m => rw [hread] at this; exact this
      · rintro r s' rfl
        have := hs.append ⟨t, .litellmCompletion a.prov (a.prompt env), r⟩
        cases r with
        | error e => exact this
        | ok response =>
          simp only [Ask.reply?, true_and, if_true] at this
          have hbind : ((.ok response : Except Raised _) >>= Provider.normalizeResponse a.prov) =
              Provider.normalizeResponse a.prov response := rfl
          rw [hbind]
          cases hread : Provider.normalizeResponse a.prov response with
          | error e => rw [hread] at this; exact this
          | ok m => rw [hread] at this; exact this
    refine wp_mono (hasks.wp_generateWithMetadata h) ?_
    rintro (e | m) s' hs
    · exact At.heard hs hkind rfl
    · exact At.heard hs hkind rfl

/-- A result that is no generation, or a failure that does not fall back. -/
def FailedOver (ftm : Bool) (result : NL2SQLResult) : Prop := result.generatorUsed = "llm" → ftm = false

section Generator

variable {ftm : Bool} {query providerName : String} {schema : DatabaseSchema} {pruned : PrunedSchema}

/-- The program returns a failed result, whatever it raises. -/
def ReturnsFailed (env : LlmEnv) (req : LlmRequest) (a : Ask) (rs : List LLMGenerateMetadata) (ftm : Bool)
    (r : Except Raised NL2SQLResult) (events : List LlmEvent) : Prop :=
  At env req a rs events ∧ ∀ result, r = .ok result → FailedOver ftm result

theorem wp_mockFallback_failed (h : At env req a rs events) (reason : String) (warnings : List String) :
    wp (Machine.own (cacheMay env req t) t) (LLMNL2SQLGenerator.buildMockFallbackResult env query schema
      providerName reason warnings) (ReturnsFailed env req a rs ftm) events := by
  refine wp_seq (wp_unread (mockGenerate_uses trivial query schema) h) ?_ ?_
  · intro mock s' hs
    refine ⟨hs, fun result hresult => ?_⟩
    cases hresult
    exact fun hllm => absurd (show "mock_fallback" = "llm" from hllm) (by decide)
  · exact fun e s' hs => ⟨hs, fun result hresult => by cases hresult⟩

theorem wp_handle_failed (h : At env req a rs events) (exc : Raised) :
    wp (Machine.own (cacheMay env req t) t) (LLMNL2SQLGenerator.handleGenerationError env ftm query schema
      pruned providerName exc) (ReturnsFailed env req a rs ftm) events := by
  unfold LLMNL2SQLGenerator.handleGenerationError
  cases ftm with
  | true => exact wp_mockFallback_failed h _ _
  | false => exact ⟨h, fun result _ _ => rfl⟩

theorem wp_fallbackOrFailure_failed (h : At env req a rs events) (reason : String)
    (warnings : List String) :
    wp (Machine.own (cacheMay env req t) t) (LLMNL2SQLGenerator.fallbackOrFailure env ftm query schema pruned
      providerName reason warnings) (ReturnsFailed env req a rs ftm) events := by
  unfold LLMNL2SQLGenerator.fallbackOrFailure
  cases ftm with
  | true => exact wp_mockFallback_failed h _ _
  | false => exact ⟨h, fun result _ _ => rfl⟩

/-- What is made of a reply: the accepted result, or a failure where there is none. -/
def Used (env : LlmEnv) (req : LlmRequest) (a : Ask) (rs : List LLMGenerateMetadata) (ftm : Bool)
    (m : LLMGenerateMetadata) (r : Except Raised NL2SQLResult) (events : List LlmEvent) : Prop :=
  At env req a rs events ∧ match r with
    | .ok result => a.accepted? env m = some result ∨ a.accepted? env m = none ∧ FailedOver ftm result
    | .error _ => a.accepted? env m = none

theorem wp_useReply_used (h : At env req a rs events) (m : LLMGenerateMetadata) :
    wp (Machine.own (cacheMay env req t) t) (LLMNL2SQLGenerator.useReply env ftm a.query a.schema a.pruned
      a.prov.name m) (Used env req a rs ftm m) events := by
  unfold LLMNL2SQLGenerator.useReply
  cases hparse : LLMNL2SQLGenerator.parseResponse env a.query a.pruned m a.prov.name with
  | error e => exact ⟨h, by simp only [Ask.accepted?, hparse]⟩
  | ok parsed =>
    rw [Prog.ofExcept_ok, Prog.pure_bind']
    cases parsed with
    | accepted result => exact ⟨h, .inl (by simp only [Ask.accepted?, hparse])⟩
    | fallback reason warnings =>
      have hnone : a.accepted? env m = none := by simp only [Ask.accepted?, hparse]
      refine wp_mono (wp_fallbackOrFailure_failed h reason warnings) ?_
      rintro (e | result) s' ⟨hs, hfailed⟩
      · exact ⟨hs, hnone⟩
      · exact ⟨hs, .inr ⟨hnone, hfailed result rfl⟩⟩

/-- How a generation ends: its metadata are the reply, and its result is the accepted one, that of a
fallback, or that of a failure. -/
structure Ended (env : LlmEnv) (req : LlmRequest) (a : Ask) (ftm : Bool) (result : NL2SQLResult)
    (metadata : Option LLMGenerateMetadata) (events : List LlmEvent) : Prop where
  at_ask : ∃ rs, At env req a rs events
  replies : a.replies env events = metadata.toList
  result : (∃ m, metadata = some m ∧ a.accepted? env m = some result) ∨
    (∀ m, metadata = some m → a.accepted? env m = none) ∧ FailedOver ftm result

/-- The replies do not change while nothing is asked. -/
theorem At.replies_eq {events' : List LlmEvent} (h : At env req a rs events) (h' : At env req a rs events') :
    a.replies env events' = a.replies env events := by
  rw [Ask.replies, Ask.replies, h.read, h'.read]

theorem wp_llmGenerate_ended (h : At env req a [] events) :
    wp (Machine.own (cacheMay env req t) t) (LLMNL2SQLGenerator.generate env a.prov ftm a.query a.schema)
      (fun r events' => ∀ result metadata, r = .ok (result, metadata) →
        Ended env req a ftm result metadata events') events := by
  unfold LLMNL2SQLGenerator.generate
  refine wp_seq (wp_attempt (wp_generateWithMetadata_heard h)) ?_ ?_
  · rintro (exc | m) s₁ ⟨r', ⟨⟩, rs, hs₁, hreplies⟩
    · refine wp_seq (wp_handle_failed hs₁ exc) ?_ fun e s₂ _ result metadata heq => by cases heq
      rintro result s₂ ⟨hs₂, hfailed⟩ result' metadata heq
      cases heq
      refine ⟨⟨rs, hs₂⟩, ?_, .inr ⟨fun m hm => (by cases hm), hfailed result rfl⟩⟩
      rw [hs₁.replies_eq hs₂, hreplies]
      rfl
    · refine wp_seq (R := fun r s' => At env req a rs s' ∧ ∀ result, r = .ok result →
        a.accepted? env m = some result ∨ a.accepted? env m = none ∧ FailedOver ftm result) ?_ ?_
        fun e s₂ _ result metadata heq => by cases heq
      · refine wp_try (wp_useReply_used hs₁ m) ?_ ?_
        · rintro result s₂ ⟨hs₂, hused⟩
          refine ⟨hs₂, fun result' heq => ?_⟩
          cases heq
          exact hused
        · rintro e s₂ ⟨hs₂, hnone⟩
          refine wp_mono (wp_handle_failed hs₂ e) ?_
          rintro r s₃ ⟨hs₃, hfailed⟩
          exact ⟨hs₃, fun result hr => .inr ⟨hnone, hfailed result hr⟩⟩
      · rintro result s₂ ⟨hs₂, hresult⟩ result' metadata heq
        cases heq
        refine ⟨⟨rs, hs₂⟩, ?_, ?_⟩
        · rw [hs₁.replies_eq hs₂, hreplies]
          rfl
        · rcases hresult result rfl with haccepted | ⟨hnone, hfailed⟩
          · exact .inl ⟨m, rfl, haccepted⟩
          · refine .inr ⟨fun m' hm' => ?_, hfailed⟩
            cases hm'
            exact hnone
  · rintro e s₁ ⟨r', hr', -⟩
    cases hr'

/-- The record of a generation that ended in LLM mode may be stored. -/
theorem Ended.storable {result : NL2SQLResult} {metadata : Option LLMGenerateMetadata}
    {budget : Option BudgetDecision} (h : Ended env req a ftm result metadata events)
    (hcall : call ∈ req.nl2sqlCall) (hftm : call.fallbackToMock = ftm) (hllm : result.generatorUsed = "llm") :
    Storable env req events (a.key env) (NL2SQLPipeline.outputOf result metadata budget) := by
  obtain ⟨rs, hat⟩ := h.at_ask
  refine ⟨a, hat.ask, rfl, ?_⟩
  rcases h.result with ⟨m, hm, haccepted⟩ | ⟨hnone, hfailed⟩
  · refine .inl ⟨m, ?_, result, haccepted, budget, by rw [hm]⟩
    rw [h.replies, hm]
    exact List.mem_singleton_self m
  · refine .inr ⟨⟨call, hcall, hftm.trans (hfailed hllm)⟩, ?_⟩
    unfold Ask.succeeds
    rw [h.replies]
    cases metadata with
    | none => rfl
    | some m => simp [hnone m rfl]

end Generator

/-! ### The pipeline -/

/-- What the record of a call refers to: the store of this very record, or the lookup that it is from. -/
structure Filed (t : Nat) (o : GenOutput) (id : Option Nat) (events : List LlmEvent) : Prop where
  stored : ∀ n, id = some n →
    ∃ key expireAt, (⟨t, .setNl2sql key expireAt o, .ok n⟩ : LlmEvent) ∈ events
  hit : o.cacheHit = true →
    ∃ key now c, (⟨t, .getNl2sql key now, .ok (some c)⟩ : LlmEvent) ∈ events ∧ c.Same o

/-- How a part of the pipeline ends. -/
def ReturnsFiled (t : Nat) (r : Except Raised (GenOutput × Option Nat)) (events : List LlmEvent) : Prop :=
  ∀ o id, r = .ok (o, id) → Filed t o id events

theorem ReturnsFiled.raised {e : Raised} : ReturnsFiled t (.error e) events :=
  fun o id h => by cases h

/-- A record that is neither stored nor from the cache. -/
theorem ReturnsFiled.plain {o : GenOutput} (h : o.cacheHit = false) :
    ReturnsFiled t (.ok (o, none)) events := by
  intro o' id heq
  cases heq
  exact ⟨fun n hn => (by cases hn), fun hhit => Bool.noConfusion (h.symm.trans hhit)⟩

theorem parseOpenaiChatPayload_cacheHit {payload : PyVal} {name model : String} {m : LLMGenerateMetadata}
    (h : Provider.parseOpenaiChatPayload env payload name model = .ok m) : m.cacheHit = false := by
  unfold Provider.parseOpenaiChatPayload at h
  simp only [bind, Except.bind, pure, Except.pure] at h
  repeat' split at h
  all_goals first | cases h; done | (cases h; rfl)

/-- No adapter marks its metadata as a hit. -/
theorem Ask.replies_cacheHit {m : LLMGenerateMetadata} (h : m ∈ a.replies env events) : m.cacheHit = false := by
  unfold replies at h
  by_cases hfake : a.prov.kind = .fake
  · rw [if_pos hfake, List.mem_singleton] at h
    rw [h]
    rfl
  · rw [if_neg hfake] at h
    obtain ⟨e, -, he⟩ := List.mem_filterMap.mp h
    unfold reply? at he
    split at he
    · split at he
      · rename_i response _
        unfold Provider.normalizeResponse at he
        split at he
        · cases he
        · cases he
        · cases he
          rfl
      · cases he
    · split at he
      · rename_i p text response _
        cases hread : Provider.readHttpResponse env p response with
        | error e =>
          rw [hread] at he
          cases he
        | ok m' =>
          rw [hread] at he
          cases he
          unfold Provider.readHttpResponse at hread
          simp only [bind, Except.bind] at hread
          split at hread
          · cases hread
          · split at hread
            · exact parseOpenaiChatPayload_cacheHit hread
            · cases hread
      · cases he
    · cases he

theorem Ended.cacheHit {ftm : Bool} {result : NL2SQLResult} {metadata : Option LLMGenerateMetadata}
    {budget : Option BudgetDecision} (h : Ended env req a ftm result metadata events) :
    (NL2SQLPipeline.outputOf result metadata budget).cacheHit = false := by
  cases metadata with
  | none => rfl
  | some m =>
    have hm : m ∈ a.replies env events := by
      rw [h.replies]
      exact List.mem_singleton_self m
    exact Ask.replies_cacheHit hm

/-- Storing a record that may be stored; afterwards the cache refers to it. -/
theorem wp_setNl2sql_filed {key : String} {o : GenOutput} {rs : List LLMGenerateMetadata}
    (h : At env req a rs events) (hstore : ∀ s, At env req a rs s → Storable env req s key o) :
    wp (Machine.own (cacheMay env req t) t) (LLMResultCache.setNl2sql env key o) (fun r events' =>
      ∀ n, r = .ok (some n) → ∃ key expireAt, (⟨t, .setNl2sql key expireAt o, .ok n⟩ : LlmEvent) ∈ events')
      events := by
  unfold LLMResultCache.setNl2sql
  split
  · exact fun n hn => by cases hn
  · refine wp_seq (wp_unread (expireAt_uses trivial) h) ?_ fun e s₁ _ n hn => by cases hn
    intro expire s₁ hs₁
    refine wp_seq (R := fun r s₂ => ∀ n, r = .ok n →
      (⟨t, .setNl2sql key expire o, .ok n⟩ : LlmEvent) ∈ s₂) (wp_call.mpr ⟨hstore s₁ hs₁, ?_⟩) ?_
      fun e s₂ _ n hn => by cases hn
    · rintro r s₂ rfl n rfl
      exact List.mem_append_right _ (List.mem_singleton_self _)
    · intro n s₂ hn n' hn'
      cases hn'
      exact ⟨key, expire, hn n rfl⟩

/-- The generation behind a missed lookup. -/
theorem wp_generateFresh_filed (hcall : call ∈ req.nl2sqlCall) (hquery : a.query = call.query)
    (h : At env req a [] events) (budget : BudgetDecision) :
    wp (Machine.own (cacheMay env req t) t) (NL2SQLPipeline.generateFresh env call a.schema a.prov budget)
      (ReturnsFiled t) events := by
  unfold NL2SQLPipeline.generateFresh
  rw [← hquery]
  refine wp_seq (wp_llmGenerate_ended h) ?_ fun e s₁ _ => ReturnsFiled.raised
  rintro ⟨result, metadata⟩ s₁ hended
  have hended := hended result metadata rfl
  obtain ⟨rs, hs₁⟩ := hended.at_ask
  have hcharge : (NL2SQLPipeline.charge env metadata).Uses isQuietLlm := by
    cases metadata with
    | none => trivial
    | some m =>
      exact Prog.Uses.tryCatch ((recordUsage_uses _ _ _ _ _ _).mono fun o ho => isQuietLlm_of_isCharge ho)
        fun _ => trivial
  refine wp_seq (wp_unread hcharge hs₁) ?_ fun e s₂ _ => ReturnsFiled.raised
  intro _ s₂ hs₂
  dsimp only
  split
  · rename_i hllm
    have hstorable : ∀ s, At env req a rs s →
        Storable env req s (a.key env) (NL2SQLPipeline.outputOf result metadata (some budget)) := by
      intro s hs
      have : Ended env req a call.fallbackToMock result metadata s :=
        ⟨⟨rs, hs⟩, (hs₁.replies_eq hs).trans hended.replies, hended.result⟩
      exact this.storable hcall rfl hllm
    refine wp_seq (R := fun r s₃ => ∀ n, r = .ok (some n) → ∃ key expireAt, (⟨t, .setNl2sql key expireAt
      (NL2SQLPipeline.outputOf result metadata (some budget)), .ok n⟩ : LlmEvent) ∈ s₃) ?_ ?_
      fun e s₃ _ => ReturnsFiled.raised
    · exact wp_try (wp_setNl2sql_filed hs₂ hstorable) (fun _ _ h => h) fun e s₃ _ n hn => by cases hn
    intro id s₃ hid o id' heq
    cases heq
    refine ⟨fun n hn => hid n (by rw [hn]), fun hhit => ?_⟩
    exact Bool.noConfusion (hended.cacheHit.symm.trans hhit)
  · exact ReturnsFiled.plain hended.cacheHit

/-- A lookup; what it finds is in the events. -/
theorem wp_getNl2sql_found (h : At env req a rs events) :
    wp (Machine.own (cacheMay env req t) t) (LLMResultCache.getNl2sql env (a.key env)) (fun r events' =>
      match r with
      | .ok (some c) => ∃ key now, (⟨t, .getNl2sql key now, .ok (some c)⟩ : LlmEvent) ∈ events'
      | _ => At env req a rs events') events := by
  unfold LLMResultCache.getNl2sql
  split
  · exact h
  · refine wp_seq (wp_unread (p := Llm.now) (Prog.uses_call.mpr trivial) h) ?_ fun e s₁ hs₁ => hs₁
    intro now s₁ hs₁
    refine wp_call.mpr ⟨⟨a, hs₁.ask, rfl⟩, ?_⟩
    rintro r s₂ rfl
    have hs₂ := hs₁.append ⟨t, .getNl2sql (a.key env) now, r⟩
    cases r with
    | error e => simpa [Ask.reply?] using hs₂
    | ok answer =>
      cases answer with
      | none => simpa [Ask.reply?] using hs₂
      | some c => exact ⟨_, now, List.mem_append_right _ (List.mem_singleton_self _)⟩

theorem wp_generateWith_filed (hcall : call ∈ req.nl2sqlCall) (hquery : a.query = call.query)
    (h : At env req a [] events) :
    wp (Machine.own (cacheMay env req t) t) (NL2SQLPipeline.generateWith env call a.schema a.prov)
      (ReturnsFiled t) events := by
  unfold NL2SQLPipeline.generateWith
  refine wp_seq (wp_unread ((checkBudget_uses _).mono fun o ho => isQuietLlm_of_isCheck ho) h) ?_
    fun e s₁ _ => ReturnsFiled.raised
  intro budget s₁ hs₁
  split
  · split
    · refine wp_seq (R := fun r _ => ∀ o, r = .ok o → o.cacheHit = false) ?_ ?_
        fun e s₂ _ => ReturnsFiled.raised
      · refine wp_seq (wp_unread (mockGenerate_uses trivial _ _) hs₁) ?_ fun e s₂ _ o ho => by cases ho
        intro result s₂ _ o ho
        cases ho
        rfl
      · exact fun o s₂ ho => ReturnsFiled.plain (ho o rfl)
    · exact ReturnsFiled.plain rfl
  · have hkey : NL2SQLPipeline.cacheKey env call.query a.schema a.prov.name
        (NL2SQLPipeline.providerModel env a.prov) = a.key env := by
      rw [Ask.key, hquery]
    rw [hkey]
    refine wp_seq (wp_getNl2sql_found hs₁) ?_ fun e s₂ _ => ReturnsFiled.raised
    intro cached s₂ hfound
    cases cached with
    | none => exact wp_generateFresh_filed hcall hquery hfound budget
    | some c =>
      obtain ⟨key, now, hmem⟩ := hfound
      intro o id heq
      cases heq
      exact ⟨fun n hn => (by cases hn), fun _ => ⟨key, now, c, hmem, fromCache_same c budget⟩⟩

/-- **The pipeline** keeps the contract, from the schema that it was given. -/
theorem wp_pipelineGenerate_filed (hcall : call ∈ req.nl2sqlCall) (schema : DatabaseSchema) :
    wp (Machine.own (cacheMay env req t) t) (NL2SQLPipeline.generate env call schema) (ReturnsFiled t)
      [⟨t, .extractSchema, .ok schema⟩] := by
  -- the ways that neither look up nor store
  have hplain (p : Llm GenOutput) (hp : ∀ events, wp (Machine.own (cacheMay env req t) t) p
      (fun r _ => ∀ o, r = .ok o → o.cacheHit = false) events) (events : List LlmEvent) :
      wp (Machine.own (cacheMay env req t) t) (p >>= fun o => pure (o, none)) (ReturnsFiled t) events :=
    wp_seq (hp events) (fun o s ho => ReturnsFiled.plain (ho o rfl)) fun e s _ => ReturnsFiled.raised
  have hmock (events : List LlmEvent) : wp (Machine.own (cacheMay env req t) t)
      (MockNL2SQLGenerator.generate env.unicode call.query schema) (fun _ _ => True) events := by
    refine wp_of_keeps (P := isQuietLlm) (fun o ho s _ => ⟨isQuietLlm_may ho s, fun _ _ _ => trivial⟩) ?_ trivial
    exact mockGenerate_uses trivial _ _
  unfold NL2SQLPipeline.generate
  split
  · rename_i hllm
    split
    · exact ReturnsFiled.plain rfl
    · split
      · refine hplain _ (fun events => ?_) _
        refine wp_seq (hmock events) (fun result s _ o ho => ?_) fun e s _ o ho => by cases ho
        cases ho
        rfl
      · exact ReturnsFiled.plain rfl
    · rename_i prov hprov
      have hat : At env req ⟨call.query, schema, prov⟩ [] [⟨t, .extractSchema, .ok schema⟩] := by
        refine ⟨?_, rfl⟩
        simp only [LlmRequest.ask, Option.mem_def.mp hcall, List.findSome?_cons, schemaGiven?, hllm, if_true, hprov]
      exact wp_generateWith_filed (a := ⟨call.query, schema, prov⟩) hcall rfl hat
  · refine wp_seq (hmock _) (fun result s _ => ReturnsFiled.plain rfl) fun e s _ => ReturnsFiled.raised

/-- What a preview answers: a hit is a lookup's record. -/
def ReturnsPreview (t : Nat) (r : Except Raised PreviewResult) (events : List LlmEvent) : Prop :=
  ∀ p, r = .ok p → p.success = p.output.guardAllowed ∧ p.fallback = !p.output.guardAllowed ∧
    (p.output.cacheHit = true →
      ∃ key now c, (⟨t, .getNl2sql key now, .ok (some c)⟩ : LlmEvent) ∈ events ∧ c.Same p.output)

theorem wp_preview_filed {call : Nl2sqlCall} (hcall : call ∈ req.nl2sqlCall) :
    wp (Machine.own (cacheMay env req t) t) (NL2SQLPipeline.preview env call) (ReturnsPreview t) [] := by
  unfold NL2SQLPipeline.preview
  refine wp_seq (R := fun r s => s = [⟨t, .extractSchema, r⟩]) (wp_call.mpr ⟨trivial, ?_⟩) ?_
    fun e s _ p hp => by cases hp
  · rintro r s rfl
    rfl
  rintro schema s rfl
  refine wp_seq (wp_pipelineGenerate_filed hcall schema) ?_ fun e s _ p hp => by cases hp
  rintro ⟨o, id⟩ s hfiled
  obtain ⟨hstored, hhit⟩ := hfiled o id rfl
  have hfound (s' : List LlmEvent) (hpre : s <+: s') (g : GuardrailsResult) :
      ReturnsPreview t (.ok ⟨NL2SQLPipeline.sanitized o g, o.guardAllowed, !o.guardAllowed, g⟩) s' := by
    intro p hp
    cases hp
    refine ⟨rfl, rfl, fun h => ?_⟩
    obtain ⟨key, now, c, hmem, hsame⟩ := hhit h
    exact ⟨key, now, c, hpre.subset hmem, hsame.trans (sanitized_same o g)⟩
  cases id with
  | none => exact hfound s List.prefix_rfl _
  | some n =>
    obtain ⟨key, expire, hmem⟩ := hstored n rfl
    refine wp_seq (R := fun _ s' => s <+: s')
      (wp_call.mpr ⟨⟨key, expire, o, hmem, sanitized_same o _⟩, ?_⟩) ?_ fun e s' _ p hp => by cases hp
    · rintro r s' rfl
      exact List.prefix_append _ _
    · exact fun _ s' hpre => hfound s' hpre _

/-- The preview that an outcome carries. -/
def LlmOutcome.preview? : LlmOutcome → Option PreviewResult
  | .previewed p => some p
  | .ran r => some r.preview
  | _ => none

/-- **Every request** keeps the contract, and a hit that it answers with is a lookup's record. -/
theorem wp_code_filed (req : LlmRequest) :
    wp (Machine.own (cacheMay env req t) t) (req.code env) (fun r events => ∀ o p, r = .ok o →
      o.preview? = some p → ReturnsPreview t (.ok p) events) [] := by
  have hfree {α : Type} {p : Llm α} (hu : p.Uses fun o => ∀ events, cacheMay env req t events o) :
      wp (Machine.own (cacheMay env req t) t) p (fun _ _ => True) [] :=
    wp_of_keeps (I := fun _ => True) (fun o ho s _ => ⟨ho s, fun _ _ _ => trivial⟩) hu trivial
  have hcheck : ∀ o, isCheck o → ∀ events, cacheMay env req t events o :=
    fun o ho => isQuietLlm_may (isQuietLlm_of_isCheck ho)
  have hcharge : ∀ o, isCharge o → ∀ events, cacheMay env req t events o :=
    fun o ho => isQuietLlm_may (isQuietLlm_of_isCharge ho)
  have hask : ∀ o, isAsk o → ∀ events, cacheMay env req t events o := by
    intro o ho events
    cases o <;> trivial
  cases hreq : req with
  | generate prov ftm query schema =>
    rw [hreq] at hfree hask
    refine wp_seq (hfree (llmGenerate_uses hask (fun _ => trivial) prov ftm query schema)) ?_
      fun e s _ o p ho => by cases ho
    intro x s _ o p ho hp
    cases ho
    cases hp
  | judge j input =>
    rw [hreq] at hfree hask hcheck hcharge
    refine wp_seq (hfree (evaluate_uses hcheck hcharge hask (fun _ _ _ => trivial) (fun _ _ _ _ => trivial) j input))
      ?_ fun e s _ o p ho => by cases ho
    intro x s _ o p ho hp
    cases ho
    cases hp
  | preview call =>
    refine wp_seq (@wp_preview_filed env _ t call rfl) ?_ fun e s _ o p ho => by cases ho
    intro x s hx o p ho hp
    cases ho
    cases hp
    exact hx
  | run dbPath call =>
    refine wp_seq (R := fun r s => ∀ x, r = .ok x → ReturnsPreview t (.ok x.preview) s) ?_ ?_
      fun e s _ o p ho => by cases ho
    · refine wp_seq (@wp_preview_filed env _ t call rfl) ?_ fun e s _ x hx => by cases hx
      intro p s hp
      have hkeeps : wp (Machine.own (cacheMay env (.run dbPath call) t) t)
          (NL2SQLPipeline.finish env dbPath call p) (fun r _ => ∀ x, r = .ok x → x.preview = p) s := by
        unfold NL2SQLPipeline.finish
        split
        · refine wp_seq (R := fun _ _ => True) ?_ ?_ fun e s' _ x hx => by cases hx
          · exact wp_of_keeps (P := isQuietLlm) (fun o ho s _ => ⟨isQuietLlm_may ho s, fun _ _ _ => trivial⟩)
              (execute_uses (fun _ => trivial) dbPath _) trivial
          · intro execution s' _ x hx
            cases hx
            rfl
        · intro x hx
          cases hx
          rfl
      refine wp_mono (wp_own_grows hkeeps) ?_
      rintro r s' ⟨hpreview, hpre⟩ x hx p' hp'
      cases hp'
      rw [hpreview x hx]
      obtain ⟨hsuccess, hfallback, hhit⟩ := hp p rfl
      refine ⟨hsuccess, hfallback, fun h => ?_⟩
      obtain ⟨key, now, c, hmem, hsame⟩ := hhit h
      exact ⟨key, now, c, hpre.subset hmem, hsame⟩
    · intro x s hx o p ho hp
      cases ho
      cases hp
      exact hx x rfl

end Conformance

end AgentHarness
