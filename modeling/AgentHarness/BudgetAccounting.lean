import AgentHarness.LlmRuns
import Mathlib.Data.List.Forall2

/-!
# BudgetAccounting — what the budget is charged for

The events of one thread are read as the responses that report usage (`response?`) and the charges
(`charged?`).  A request's responses are accounted for if its charges are, one for one, those of the
responses, and none is below the configured prices.  That holds exactly where every response that
reports usage is made metadata of, with a cost of at least the configured price, and, for the judge,
passes its parsing and validation (`AllChargeable`).
-/

namespace AgentHarness

open Lib

section

variable (env : LlmEnv)

/-- The tokens that the body of a response reports. -/
def reportedUsage (response : HttpResponse) : Option (Int × Int) :=
  match response.body with
  | .ok (.dict d) => match Dict.get d "usage" with
    | .dict usage =>
      match Provider.intOr0 (Dict.getD usage "prompt_tokens" (.int 0)),
        Provider.intOr0 (Dict.getD usage "completion_tokens" (.int 0)) with
      | .ok p, .ok c => some (p, c)
      | _, _ => none
    | _ => none
  | _ => none

/-- A response that reports usage: the metadata made of it, or its tokens where the adapter raises. -/
def response? : LlmEvent → Option (Except (Int × Int) LLMGenerateMetadata)
  | ⟨_, .litellmCompletion p _, .ok response⟩ =>
    match Provider.normalizeResponse p response with
    | .ok m => some (.ok m)
    | .error _ => some (.error (response.promptTokens, response.completionTokens))
  | ⟨_, .httpPost p _, .ok response⟩ =>
    match Provider.readHttpResponse env p response with
    | .ok m => some (.ok m)
    | .error _ => (reportedUsage response).map .error
  | _ => none

def charged? : LlmEvent → Option Usage
  | ⟨_, .addUsage usage, .ok _⟩ => some usage
  | _ => none

/-- The tokens that a response reports. -/
def tokensOf : Except (Int × Int) LLMGenerateMetadata → Int × Int
  | .ok m => (m.promptTokens, m.completionTokens)
  | .error tokens => tokens

/-- The configured prices on reported tokens. -/
def configuredPrice (tokens : Int × Int) : Rat := estimateLlmCostUsd env.settings tokens.1 (some tokens.2)

/-- The charge of a response, not below the configured prices. -/
def Covers (response : Except (Int × Int) LLMGenerateMetadata) (usage : Usage) : Prop :=
  usage.promptTokens = max 0 (tokensOf response).1 ∧ usage.completionTokens = max 0 (tokensOf response).2 ∧
    configuredPrice env (tokensOf response) ≤ usage.cost

/-- Every response is charged exactly once, and not below the configured prices. -/
def Accounted (responses : List (Except (Int × Int) LLMGenerateMetadata)) (charges : List Usage) : Prop :=
  responses = [] ∨ List.Forall₂ (Covers env) responses charges

/-- The request charges for metadata that it has got; the judge only where it can read a judgement. -/
def LlmRequest.chargesFor (m : LLMGenerateMetadata) : LlmRequest → Prop
  | .generate _ _ _ _ => False
  | .preview _ | .run _ _ => True
  | .judge j _ => ∃ result, LLMJudgeProvider.readReply env j m = .ok result

/-- Every response is made metadata of that the request charges for, at no less than the configured
price. -/
def AllChargeable (req : LlmRequest) (responses : List (Except (Int × Int) LLMGenerateMetadata)) : Prop :=
  ∀ r ∈ responses, ∃ m, r = .ok m ∧ configuredPrice env (m.promptTokens, m.completionTokens) ≤ max 0 m.cost ∧
    req.chargesFor env m

end

def responsesOf (env : LlmEnv) (log : List LlmEvent) : List (Except (Int × Int) LLMGenerateMetadata) :=
  log.filterMap (response? env)

def chargesOf (log : List LlmEvent) : List Usage := log.filterMap charged?

/-! ## How a request ends -/

section Settled

variable {env : LlmEnv} {req : LlmRequest} {rs lost : List (Except (Int × Int) LLMGenerateMetadata)}
  {us : List Usage} {m : LLMGenerateMetadata}

/-- No metadata was made of the responses. -/
def AllLost (rs : List (Except (Int × Int) LLMGenerateMetadata)) : Prop :=
  ∀ r ∈ rs, ∃ tokens, r = .error tokens

/-- The charge that is recorded for metadata. -/
def RecordedFor (m : LLMGenerateMetadata) (usage : Usage) : Prop :=
  usage.promptTokens = max 0 m.promptTokens ∧ usage.completionTokens = max 0 m.completionTokens ∧
    usage.cost = max 0 m.cost

/-- A finished request asked for nothing, or lost all its responses, or lost all but the last, which it
charged for or did not. -/
inductive Settled (env : LlmEnv) (req : LlmRequest) :
    List (Except (Int × Int) LLMGenerateMetadata) → List Usage → Prop where
  | unasked {us : List Usage} : Settled env req [] us
  | lost {rs : List (Except (Int × Int) LLMGenerateMetadata)} (h : AllLost rs) : Settled env req rs []
  | charged {lost : List (Except (Int × Int) LLMGenerateMetadata)} {m : LLMGenerateMetadata} {u : Usage}
      (h : AllLost lost) (hm : req.chargesFor env m) (hu : RecordedFor m u) :
      Settled env req (lost ++ [.ok m]) [u]
  | uncharged {lost : List (Except (Int × Int) LLMGenerateMetadata)} {m : LLMGenerateMetadata}
      (h : AllLost lost) (hm : ¬ req.chargesFor env m) : Settled env req (lost ++ [.ok m]) []

/-- A lost response is not chargeable. -/
theorem AllLost.chargeable (h : AllLost rs) : AllChargeable env req rs ↔ rs = [] := by
  refine ⟨fun hall => ?_, fun hnil => ?_⟩
  · refine List.eq_nil_iff_forall_not_mem.mpr fun r hr => ?_
    obtain ⟨tokens, rfl⟩ := h r hr
    obtain ⟨m, hm, -⟩ := hall _ hr
    cases hm
  · rw [hnil]
    exact fun r hr => absurd hr List.not_mem_nil

theorem AllLost.chargeable_append (h : AllLost lost) : AllChargeable env req (lost ++ [.ok m]) ↔
    lost = [] ∧ configuredPrice env (m.promptTokens, m.completionTokens) ≤ max 0 m.cost ∧
      req.chargesFor env m := by
  constructor
  · intro hall
    have hlost : lost = [] := (AllLost.chargeable h).mp fun r hr => hall r (List.mem_append_left _ hr)
    obtain ⟨m', hm', hprice, hcharges⟩ := hall (.ok m) (List.mem_append_right _ (List.mem_singleton_self _))
    cases hm'
    exact ⟨hlost, hprice, hcharges⟩
  · rintro ⟨rfl, hprice, hcharges⟩ r hr
    obtain rfl := List.mem_singleton.mp hr
    exact ⟨m, rfl, hprice, hcharges⟩

/-- **One request** is accounted for exactly where its responses are chargeable. -/
theorem Settled.accounted_iff (h : Settled env req rs us) : Accounted env rs us ↔ AllChargeable env req rs := by
  unfold Accounted
  cases h with
  | unasked => exact ⟨fun _ r hr => absurd hr List.not_mem_nil, fun _ => .inl rfl⟩
  | lost h =>
    rw [h.chargeable, List.forall₂_nil_right_iff, or_self]
  | charged h hm hu =>
    obtain ⟨hprompt, hcompletion, hcost⟩ := hu
    rw [h.chargeable_append]
    constructor
    · rintro (hnil | hall)
      · exact absurd hnil (List.append_ne_nil_of_right_ne_nil _ (List.cons_ne_nil _ _))
      · -- one charge, so nothing was lost
        have hlen := hall.length_eq
        rw [List.length_append, List.length_singleton, List.length_singleton] at hlen
        obtain rfl := List.length_eq_zero_iff.mp (Nat.succ.inj hlen)
        obtain ⟨⟨-, -, hprice⟩, -⟩ := List.forall₂_cons.mp hall
        rw [hcost] at hprice
        exact ⟨rfl, hprice, hm⟩
    · rintro ⟨rfl, hprice, -⟩
      refine .inr (.cons ⟨hprompt, hcompletion, ?_⟩ .nil)
      rw [hcost]
      exact hprice
  | uncharged h hm =>
    rw [h.chargeable_append, List.forall₂_nil_right_iff, or_self]
    constructor
    · intro hnil
      exact absurd hnil (List.append_ne_nil_of_right_ne_nil _ (List.cons_ne_nil _ _))
    · rintro ⟨-, -, hcharges⟩
      exact absurd hcharges hm

end Settled

/-! ## The tally of a thread -/

structure Tally where
  responses : List (Except (Int × Int) LLMGenerateMetadata)
  charges : List Usage

def Tally.empty : Tally := ⟨[], []⟩

def Tally.add (env : LlmEnv) (s : Tally) (e : LlmEvent) : Tally :=
  ⟨s.responses ++ (response? env e).toList, s.charges ++ (charged? e).toList⟩

/-- The tally of a log. -/
def tallyOf (env : LlmEnv) (log : List LlmEvent) : Tally := ⟨responsesOf env log, chargesOf log⟩

theorem tallyOf_append (env : LlmEnv) (log : List LlmEvent) (e : LlmEvent) :
    tallyOf env (log ++ [e]) = (tallyOf env log).add env e := by
  refine congrArg₂ Tally.mk ?_ ?_
  · cases h : response? env e <;> simp [tallyOf, responsesOf, h]
  · cases h : charged? e <;> simp [tallyOf, chargesOf, h]

/-- The operations that the process answers itself; they raise nothing. -/
def isInternal : LlmOp → Prop
  | .litellmCompletion _ _ | .httpPost _ _ | .extractSchema | .query _ => False
  | _ => True

/-- Neither a request to a provider nor a charge. -/
def isSilent : LlmOp → Prop
  | .litellmCompletion _ _ | .httpPost _ _ | .addUsage _ => False
  | _ => True

def tallying (env : LlmEnv) (t : Nat) : Machine LlmOp LlmAns Raised Tally where
  may _ _ := True
  step s o r s' := s' = s.add env ⟨t, o, r⟩ ∧ (isInternal o → ∃ a, r = .ok a)

section Tally

variable {env : LlmEnv} {t : Nat} {s : Tally} {α β : Type}

theorem Tally.add_silent {o : LlmOp} (h : isSilent o) (r : Except Raised (LlmAns o)) :
    s.add env ⟨t, o, r⟩ = s := by
  have hresponse : response? env ⟨t, o, r⟩ = none := by
    cases o <;> first | rfl | exact h.elim
  have hcharge : charged? ⟨t, o, r⟩ = none := by
    cases o <;> first | rfl | exact h.elim
  unfold Tally.add
  rw [hresponse, hcharge]
  simp

theorem Tally.add_charge (u : Usage) :
    s.add env ⟨t, .addUsage u, .ok ()⟩ = ⟨s.responses, s.charges ++ [u]⟩ := by
  simp [Tally.add, response?, charged?]

/-- A silent part leaves the tally. -/
theorem wp_tally_silent {p : Llm α} (hu : p.Uses isSilent) : wp (tallying env t) p (fun _ s' => s' = s) s := by
  refine wp_of_keeps (P := isSilent) (I := fun s' => s' = s) ?_ hu rfl
  rintro o ho s₁ rfl
  refine ⟨trivial, ?_⟩
  rintro r s' ⟨rfl, -⟩
  exact Tally.add_silent ho r

/-- An internal operation returns. -/
theorem wp_internal {o : LlmOp} (h : isInternal o) (hsilent : isSilent o) :
    wp (tallying env t) (Llm.perform o) (fun r s' => s' = s ∧ ∃ a, r = .ok a) s := by
  refine wp_call.mpr ⟨trivial, ?_⟩
  rintro r s' ⟨rfl, hok⟩
  exact ⟨Tally.add_silent hsilent r, hok h⟩

theorem wp_scopeKey :
    wp (tallying env t) (LLMBudgetManager.scopeKey env) (fun r s' => s' = s ∧ ∃ a, r = .ok a) s := by
  refine wp_seq (R := fun r s' => s' = s ∧ ∃ a, r = .ok a) (wp_internal trivial trivial) ?_ ?_
  · rintro now s₁ ⟨rfl, -⟩
    split
    · exact ⟨rfl, _, rfl⟩
    · split <;> exact ⟨rfl, _, rfl⟩
  · rintro e s₁ ⟨-, a, ha⟩
    cases ha

/-- **The charge** is recorded, and raises nothing. -/
theorem wp_recordUsage (henabled : env.settings.budgetEnabled = true) (mode provider model : String)
    (m : LLMGenerateMetadata) :
    wp (tallying env t) (LLMBudgetManager.recordUsage env mode provider model m.promptTokens
      m.completionTokens m.cost) (fun r s' => r = .ok () ∧
        ∃ u, RecordedFor m u ∧ s' = ⟨s.responses, s.charges ++ [u]⟩) s := by
  unfold LLMBudgetManager.recordUsage
  rw [henabled, Bool.not_true, if_neg (by decide)]
  refine wp_seq wp_scopeKey ?_ ?_
  · rintro scope s₁ ⟨rfl, -⟩
    refine wp_call.mpr ⟨trivial, ?_⟩
    rintro r s' ⟨rfl, hok⟩
    obtain ⟨⟨⟩, rfl⟩ := hok trivial
    exact ⟨rfl, _, ⟨rfl, rfl, rfl⟩, Tally.add_charge _⟩
  · rintro e s₁ ⟨-, a, ha⟩
    cases ha

/-! ## Asking -/

/-- All responses so far were lost, and nothing is charged. -/
def Unheard (s : Tally) : Prop := AllLost s.responses ∧ s.charges = []

/-- The metadata `m` are those of the last response, or of the fake provider, and nothing is charged. -/
def Holds (m : LLMGenerateMetadata) (s : Tally) : Prop :=
  s.charges = [] ∧ (s.responses = [] ∨ ∃ lost, AllLost lost ∧ s.responses = lost ++ [.ok m])

theorem Unheard.lost (h : Unheard s) (tokens : Int × Int) :
    Unheard ⟨s.responses ++ [.error tokens], s.charges⟩ := by
  refine ⟨fun r hr => ?_, h.2⟩
  rcases List.mem_append.mp hr with hold | hnew
  · exact h.1 r hold
  · exact ⟨tokens, List.mem_singleton.mp hnew⟩

theorem Unheard.holds (h : Unheard s) (m : LLMGenerateMetadata) :
    Holds m ⟨s.responses ++ [.ok m], s.charges⟩ :=
  ⟨h.2, .inr ⟨s.responses, h.1, rfl⟩⟩

/-- An answer of a provider is held if an adapter reads it, and lost if it does not. -/
theorem Unheard.answered {o : LlmOp} (h : Unheard s) (r : Except Raised (LlmAns o))
    (read : LlmAns o → Except Raised LLMGenerateMetadata) (hcharge : charged? ⟨t, o, r⟩ = none)
    (hread : ∀ a m, r = .ok a → read a = .ok m → response? env ⟨t, o, r⟩ = some (.ok m))
    (hlost : (∀ a m, r = .ok a → read a ≠ .ok m) →
      ∀ x, response? env ⟨t, o, r⟩ = some x → ∃ tokens, x = .error tokens) :
    match r >>= read with
    | .ok m => Holds m (s.add env ⟨t, o, r⟩)
    | .error _ => Unheard (s.add env ⟨t, o, r⟩) := by
  have hwaiting (hno : ∀ a m, r = .ok a → read a ≠ .ok m) : Unheard (s.add env ⟨t, o, r⟩) := by
    unfold Tally.add
    rw [hcharge, Option.toList_none, List.append_nil]
    cases hx : response? env ⟨t, o, r⟩ with
    | none =>
      rw [Option.toList_none, List.append_nil]
      exact h
    | some x =>
      obtain ⟨tokens, rfl⟩ := hlost hno x hx
      exact h.lost tokens
  cases r with
  | error e => exact hwaiting fun a m hr => by cases hr
  | ok a =>
    show match read a with
      | .ok m => Holds m (s.add env ⟨t, o, .ok a⟩)
      | .error _ => Unheard (s.add env ⟨t, o, .ok a⟩)
    cases hm : read a with
    | error e =>
      refine hwaiting fun a' m hr hread' => ?_
      cases hr
      rw [hm] at hread'
      cases hread'
    | ok m =>
      unfold Tally.add
      rw [hread a m rfl hm, hcharge]
      simpa using h.holds m

theorem wp_ask (p : Provider) (prompt : String) (hs : s = .empty) :
    wp (tallying env t) (p.generateWithMetadata env prompt) (Asked Unheard Holds) s := by
  have hempty : Unheard s := by
    subst hs
    exact ⟨fun r hr => absurd hr List.not_mem_nil, rfl⟩
  by_cases hfake : p.kind = .fake
  · unfold Provider.generateWithMetadata
    rw [hfake]
    subst hs
    exact ⟨rfl, .inl rfl⟩
  · have hasks : Asks (tallying env t) env p prompt Unheard Holds := by
      refine ⟨fun s hI => ⟨trivial, ?_⟩, fun s hI => ⟨trivial, ?_⟩, fun s _ h => absurd h hfake⟩
      · rintro r s' ⟨rfl, -⟩
        refine hI.answered r _ rfl (fun a m hr hread => ?_) fun hno x hx => ?_
        · subst hr
          simp only [response?, hread]
        · cases r with
          | error e => cases hx
          | ok a =>
            simp only [response?] at hx
            cases hread : Provider.readHttpResponse env p a with
            | ok m => exact absurd hread (hno a m rfl)
            | error e =>
              rw [hread] at hx
              obtain ⟨tokens, -, rfl⟩ := Option.map_eq_some_iff.mp hx
              exact ⟨tokens, rfl⟩
      · rintro r s' ⟨rfl, -⟩
        refine hI.answered r _ rfl (fun a m hr hread => ?_) fun hno x hx => ?_
        · subst hr
          simp only [response?, hread]
        · cases r with
          | error e => cases hx
          | ok a =>
            simp only [response?] at hx
            cases hread : Provider.normalizeResponse p a with
            | ok m => exact absurd hread (hno a m rfl)
            | error e =>
              rw [hread] at hx
              cases hx
              exact ⟨_, rfl⟩
    exact hasks.wp_generateWithMetadata hempty

end Tally

/-! ## The requests -/

section Requests

variable {env : LlmEnv} {t : Nat} {s : Tally} {α β : Type} {req : LlmRequest} {m : LLMGenerateMetadata}

/-- The tally of a request that has ended. -/
def Tally.Closed (env : LlmEnv) (req : LlmRequest) (s : Tally) : Prop := Settled env req s.responses s.charges

theorem closed_empty : Tally.empty.Closed env req := .unasked

theorem Unheard.closed (h : Unheard s) : s.Closed env req := by
  unfold Tally.Closed
  rw [h.2]
  exact .lost h.1

theorem Holds.charged {u : Usage} (h : Holds m s) (hm : req.chargesFor env m) (hu : RecordedFor m u) :
    Tally.Closed env req ⟨s.responses, s.charges ++ [u]⟩ := by
  unfold Tally.Closed
  obtain ⟨hcharges, hnil | ⟨lost, hlost, hresponses⟩⟩ := h
  · dsimp only
    rw [hnil]
    exact .unasked
  · dsimp only
    rw [hcharges, hresponses]
    exact .charged hlost hm hu

theorem Holds.uncharged (h : Holds m s) (hm : ¬ req.chargesFor env m) : s.Closed env req := by
  unfold Tally.Closed
  obtain ⟨hcharges, hnil | ⟨lost, hlost, hresponses⟩⟩ := h
  · rw [hnil]
    exact .unasked
  · rw [hcharges, hresponses]
    exact .uncharged hlost hm

/-- A silent rest. -/
theorem wp_bind_silent {K : Tally → Prop} {p : Llm α} {f : α → Llm β}
    (hp : wp (tallying env t) p (fun _ s' => K s') s) (hf : ∀ a, (f a).Uses isSilent) :
    wp (tallying env t) (p >>= f) (fun _ s' => K s') s := by
  refine wp_seq hp (fun a s₁ hK => ?_) fun e s₁ hK => hK
  refine wp_mono (wp_tally_silent (hf a)) ?_
  rintro r s' rfl
  exact hK

/-- A silent beginning. -/
theorem wp_silent_bind {K : Tally → Prop} {p : Llm α} {f : α → Llm β} (hp : p.Uses isSilent) (hK : K s)
    (hf : ∀ a, wp (tallying env t) (f a) (fun _ s' => K s') s) :
    wp (tallying env t) (p >>= f) (fun _ s' => K s') s := by
  refine wp_seq (wp_tally_silent hp) ?_ ?_
  · rintro a s₁ rfl
    exact hf a
  · rintro e s₁ rfl
    exact hK

theorem isSilent_of_isCheck {o : LlmOp} (h : isCheck o) : isSilent o := by
  cases o <;> first | exact trivial | exact h.elim

theorem wp_mockGenerate_tally (query : String) (schema : DatabaseSchema) :
    wp (tallying env t) (MockNL2SQLGenerator.generate env.unicode query schema)
      (fun r s' => s' = s ∧ ∃ a, r = .ok a) s := by
  unfold MockNL2SQLGenerator.generate
  dsimp only
  split
  · exact ⟨rfl, _, rfl⟩
  · refine wp_seq (R := fun r s' => s' = s ∧ ∃ a, r = .ok a) (wp_internal trivial trivial) ?_ ?_
    · rintro ⟨today, monthPrefix⟩ s₁ ⟨rfl, -⟩
      exact ⟨rfl, _, rfl⟩
    · rintro e s₁ ⟨-, a, ha⟩
      cases ha

theorem wp_buildMockFallback_tally (query : String) (schema : DatabaseSchema) (name reason : String)
    (warnings : List String) :
    wp (tallying env t) (LLMNL2SQLGenerator.buildMockFallbackResult env query schema name reason warnings)
      (fun r s' => s' = s ∧ ∃ a, r = .ok a) s := by
  refine wp_seq (wp_mockGenerate_tally query schema) ?_ ?_
  · rintro mock s₁ ⟨rfl, -⟩
    exact ⟨rfl, _, rfl⟩
  · rintro e s₁ ⟨-, a, ha⟩
    cases ha

/-- The handler of the generator returns a result. -/
theorem wp_handle_tally (ftm : Bool) (query : String) (schema : DatabaseSchema) (pruned : PrunedSchema)
    (name : String) (exc : Raised) :
    wp (tallying env t) (LLMNL2SQLGenerator.handleGenerationError env ftm query schema pruned name exc)
      (fun r s' => s' = s ∧ ∃ a, r = .ok a) s := by
  unfold LLMNL2SQLGenerator.handleGenerationError
  dsimp only
  split
  · exact wp_buildMockFallback_tally _ _ _ _ _
  · exact ⟨rfl, _, rfl⟩

/-- **The generator** returns the metadata that it holds, whatever becomes of the reply. -/
theorem wp_llmGenerate_tally (prov : Provider) (ftm : Bool) (query : String) (schema : DatabaseSchema) :
    wp (tallying env t) (LLMNL2SQLGenerator.generate env prov ftm query schema)
      (fun r s' => ∃ result metadata, r = .ok (result, metadata) ∧ match metadata with
        | none => Unheard s'
        | some m => Holds m s') .empty := by
  unfold LLMNL2SQLGenerator.generate
  refine wp_seq (wp_attempt (wp_ask prov _ rfl)) ?_ ?_
  · rintro (exc | m) s₁ ⟨r', hr', h⟩
    · cases hr'
      refine wp_seq (wp_handle_tally ftm query schema _ prov.name exc) ?_ ?_
      · rintro result s₂ ⟨rfl, -⟩
        exact ⟨result, none, rfl, h⟩
      · rintro e s₂ ⟨-, a, ha⟩
        cases ha
    · cases hr'
      refine wp_seq (R := fun r s' => s' = s₁ ∧ ∃ a, r = .ok a) ?_ ?_ ?_
      · refine wp_try (wp_tally_silent (useReply_uses trivial _ _ _ _ _ _)) (fun a s₂ h => ⟨h, a, rfl⟩) ?_
        rintro e s₂ rfl
        exact wp_handle_tally ftm query schema _ prov.name e
      · rintro result s₂ ⟨rfl, -⟩
        exact ⟨result, some m, rfl, h⟩
      · rintro e s₂ ⟨-, a, ha⟩
        cases ha
  · rintro e s₁ ⟨r', hr', -⟩
    cases hr'

/-- The pipeline charges for the metadata that the generator returned. -/
theorem wp_charge_tally (henabled : env.settings.budgetEnabled = true) {metadata : Option LLMGenerateMetadata}
    (hs : match metadata with
      | none => Unheard s
      | some m => Holds m s) (hreq : ∀ m, req.chargesFor env m) :
    wp (tallying env t) (NL2SQLPipeline.charge env metadata) (fun _ s' => s'.Closed env req) s := by
  cases metadata with
  | none => exact hs.closed
  | some m =>
    refine wp_try (wp_recordUsage henabled _ _ _ m) ?_ ?_
    · rintro a s' ⟨-, u, hu, rfl⟩
      exact hs.charged (hreq m) hu
    · rintro e s' ⟨he, -⟩
      cases he

theorem wp_generateFresh_tally (henabled : env.settings.budgetEnabled = true)
    (hreq : ∀ m, req.chargesFor env m) (call : Nl2sqlCall) (schema : DatabaseSchema) (prov : Provider)
    (budget : BudgetDecision) :
    wp (tallying env t) (NL2SQLPipeline.generateFresh env call schema prov budget)
      (fun _ s' => s'.Closed env req) .empty := by
  refine wp_seq (wp_llmGenerate_tally prov _ _ _) ?_ ?_
  · rintro x s₁ ⟨result, metadata, ⟨⟩, h⟩
    refine wp_bind_silent (wp_charge_tally henabled h hreq) fun _ => ?_
    dsimp only
    split
    · refine Prog.Uses.bind (Prog.Uses.tryCatch (setNl2sql_uses trivial (fun _ _ _ => trivial) _ _) fun _ => trivial) fun _ => trivial
    · trivial
  · rintro e s₁ ⟨_, _, h, -⟩
    cases h

/-- A silent part of a request that has not asked. -/
theorem wp_silent_closed {p : Llm α} (hu : p.Uses isSilent) :
    wp (tallying env t) p (fun _ s' => s'.Closed env req) .empty := by
  refine wp_mono (wp_tally_silent hu) ?_
  rintro r s' rfl
  exact closed_empty

theorem wp_pipelineGenerate_tally (henabled : env.settings.budgetEnabled = true)
    (hreq : ∀ m, req.chargesFor env m) (call : Nl2sqlCall) (schema : DatabaseSchema) :
    wp (tallying env t) (NL2SQLPipeline.generate env call schema) (fun _ s' => s'.Closed env req)
      .empty := by
  unfold NL2SQLPipeline.generate
  split
  · split
    · exact closed_empty
    · split
      · exact wp_silent_closed (Prog.Uses.bind (mockFallback_uses trivial _ _ _ _ _ _) fun _ => trivial)
      · exact closed_empty
    · refine wp_silent_bind ((checkBudget_uses _).mono fun _ h => isSilent_of_isCheck h) closed_empty
        fun budget => ?_
      split
      · split
        · exact wp_silent_closed (Prog.Uses.bind (mockFallback_uses trivial _ _ _ _ _ _) fun _ => trivial)
        · exact closed_empty
      · refine wp_silent_bind (getNl2sql_uses trivial (fun _ _ => trivial) _) closed_empty fun cached => ?_
        cases cached with
        | some o => exact closed_empty
        | none => exact wp_generateFresh_tally henabled hreq call schema _ budget
  · exact wp_silent_closed (Prog.Uses.bind (mockGenerate_uses trivial _ _) fun _ => trivial)

theorem wp_preview_tally (henabled : env.settings.budgetEnabled = true)
    (hreq : ∀ m, req.chargesFor env m) (call : Nl2sqlCall) :
    wp (tallying env t) (NL2SQLPipeline.preview env call) (fun _ s' => s'.Closed env req) .empty := by
  refine wp_silent_bind (p := Llm.perform .extractSchema) (Prog.uses_call.mpr trivial) closed_empty
    fun schema => ?_
  refine wp_bind_silent (wp_pipelineGenerate_tally henabled hreq call schema) fun x => ?_
  obtain ⟨o, id⟩ := x
  cases id with
  | none => trivial
  | some id => exact Prog.Uses.bind (Prog.uses_call.mpr trivial) fun _ => trivial

/-- **The judge** charges where it can read a judgement. -/
theorem wp_evaluate_tally (henabled : env.settings.budgetEnabled = true) (j : JudgeConfig) (input : JudgeInput) :
    wp (tallying env t) (LLMJudgeProvider.evaluate env j input)
      (fun _ s' => s'.Closed env (.judge j input)) .empty := by
  have hask : wp (tallying env t) (LLMJudgeProvider.askProvider env j input)
      (fun _ s' => s'.Closed env (.judge j input)) .empty := by
    refine wp_silent_bind (Prog.uses_ofExcept _) closed_empty fun provider => ?_
    refine wp_seq (wp_ask provider _ rfl) (fun m s₁ h => ?_) fun e s₁ h => Unheard.closed h
    have hholds : Holds m s₁ := h
    cases hread : LLMJudgeProvider.readReply env j m with
    | error e =>
      refine hholds.uncharged ?_
      rintro ⟨result, hresult⟩
      rw [hread] at hresult
      cases hresult
    | ok result =>
      rw [Prog.ofExcept_ok, Prog.pure_bind']
      refine wp_bind_silent ?_ fun _ => Prog.Uses.bind (setJudge_uses trivial (fun _ _ _ => trivial) _ _) fun _ => trivial
      refine wp_mono (wp_recordUsage henabled _ _ _ m) ?_
      rintro r s' ⟨-, u, hu, rfl⟩
      exact hholds.charged ⟨result, hread⟩ hu
  unfold LLMJudgeProvider.evaluate
  split
  · exact closed_empty
  · refine wp_silent_bind ((checkBudget_uses _).mono fun _ h => isSilent_of_isCheck h) closed_empty
      fun budget => ?_
    split
    · exact closed_empty
    · refine wp_silent_bind (getJudge_uses trivial (fun _ _ => trivial) _) closed_empty fun cached => ?_
      cases cached with
      | some result => exact closed_empty
      | none => exact wp_try hask (fun _ _ h => h) fun _ _ h => h

theorem wp_code_tally (henabled : env.settings.budgetEnabled = true) (req : LlmRequest) :
    wp (tallying env t) (req.code env) (fun _ s' => s'.Closed env req) .empty := by
  cases req with
  | generate prov ftm query schema =>
    refine wp_bind_silent ?_ fun _ => trivial
    refine wp_mono (wp_llmGenerate_tally prov ftm query schema) ?_
    rintro r s' ⟨result, metadata, -, h⟩
    cases metadata with
    | none => exact Unheard.closed h
    | some m => exact Holds.uncharged h id
  | preview call => exact wp_bind_silent (@wp_preview_tally env t (.preview call) henabled (fun _ => trivial) call) fun _ => trivial
  | run dbPath call =>
    refine wp_bind_silent (wp_bind_silent (@wp_preview_tally env t (.run dbPath call) henabled (fun _ => trivial) call) fun p => ?_)
      fun _ => trivial
    exact finish_uses (fun _ => trivial) dbPath call p
  | judge j input => exact wp_bind_silent (wp_evaluate_tally henabled j input) fun _ => trivial

end Requests

/-! ## Runs -/

section Runs

variable {env : LlmEnv} {out : LlmOutside} {reqs : Nat → LlmRequest}

/-- The process answers its own operations. -/
theorem llmExec_internal {o : LlmOp} (h : isInternal o) (log : List LlmEvent) (db : LlmDb) :
    ∃ a, (llmExec out log o db).1 = .ok a := by
  cases o with
  | getNl2sql key now =>
    simp only [llmExec]
    split
    · exact ⟨_, rfl⟩
    · split <;> exact ⟨_, rfl⟩
  | getJudge key now =>
    simp only [llmExec]
    split
    · exact ⟨_, rfl⟩
    · split <;> exact ⟨_, rfl⟩
  | litellmCompletion p prompt => exact h.elim
  | httpPost p prompt => exact h.elim
  | extractSchema => exact h.elim
  | query sql => exact h.elim
  | _ => exact ⟨_, rfl⟩

/-- In every run, each finished request has closed its tally. -/
theorem closed_of_run (henabled : env.settings.budgetEnabled = true) (sched : List Nat) {t : Nat}
    (hdone : ((LlmConf.after env out reqs sched).outcome t).isSome = true) :
    (tallyOf env (own t (LlmConf.after env out reqs sched).world.log)).Closed env (reqs t) := by
  have hmeets : Conf.Meets (llmStep out) (fun _ _ _ => True) (LlmConf.start env reqs) sched :=
    Conf.meets_of_forall (fun _ _ _ => trivial) _ sched
  have hrun : ∃ st : Nat → Tally,
      (∀ t, st t = tallyOf env (own t (LlmConf.after env out reqs sched).world.log)) ∧
      ∀ t r, (LlmConf.after env out reqs sched).outcome t = some r → (st t).Closed env (reqs t) := by
    refine Conf.run_family (m := tallying env) (Q := fun t _ s => s.Closed env (reqs t))
      (J := fun c st => ∀ t, st t = tallyOf env (own t c.world.log)) ?_ (fun t => rfl)
      (fun t => wp_code_tally henabled (reqs t)) hmeets
    rintro c st t o hst - - c' hc'
    refine ⟨(st t).add env ⟨t, o, (llmStep out t o c.world).1⟩, ⟨rfl, fun h => llmExec_internal h _ _⟩, ?_⟩
    intro u
    have hlog : c'.world.log = c.world.log ++ [⟨t, o, (llmStep out t o c.world).1⟩] := by
      rw [hc']
      rfl
    rw [hlog, own_append]
    by_cases hu : u = t
    · subst hu
      rw [Function.update_self, if_pos rfl, hst u, tallyOf_append]
    · rw [Function.update_of_ne hu, if_neg (Ne.symm hu), hst u]
  obtain ⟨st, hst, hout⟩ := hrun
  obtain ⟨r, hr⟩ := Option.isSome_iff_exists.mp hdone
  rw [← hst t]
  exact hout t r hr

/-- **Complete accounting.**  With budgets enabled, in every run of NL2SQL and judge calls, the
responses of a finished request are each charged exactly once, and not below the configured prices, if
and only if each of them is made metadata of, with a cost of at least the configured price, and, for
the judge, holds a judgement that can be read. -/
theorem charges_complete_iff (env : LlmEnv) (out : LlmOutside) (reqs : Nat → LlmRequest)
    (sched : List Nat) (henabled : env.settings.budgetEnabled = true) (t : Nat)
    (hdone : ((LlmConf.after env out reqs sched).outcome t).isSome = true) :
    Accounted env (responsesOf env (own t (LlmConf.after env out reqs sched).world.log))
      (chargesOf (own t (LlmConf.after env out reqs sched).world.log)) ↔
    AllChargeable env (reqs t) (responsesOf env (own t (LlmConf.after env out reqs sched).world.log)) :=
  Settled.accounted_iff (closed_of_run henabled sched hdone)

end Runs

/-- A LiteLLM reply of cost 6, where two tokens are priced at 2. -/
theorem charges_complete_demo :
    let log := (LlmConf.after .priced (.priced 6) (fun _ => .preview ⟨"q", "llm", none, false⟩)
      (List.replicate 20 0)).world.log
    Accounted .priced (responsesOf .priced (own 0 log)) (chargesOf (own 0 log)) ↔
      AllChargeable .priced (.preview ⟨"q", "llm", none, false⟩) (responsesOf .priced (own 0 log)) :=
  charges_complete_iff .priced (.priced 6) (fun _ => .preview ⟨"q", "llm", none, false⟩)
    (List.replicate 20 0) rfl 0 (by decide +kernel)

/-- Budgets and cost estimation are enabled. -/
def generousSettings : LlmSettings := { LlmSettings.sample with budgetHard := 100 }

/-- One request that is answered by an OpenAI-compatible endpoint. -/
def answered (req : LlmRequest) (content : String) : LlmConf :=
  LlmConf.after (.sample generousSettings) (.sample fun _ => .ok (.sample content 1 1)) (fun _ => req)
    (List.replicate 20 0)

/-- With budgets and cost estimation enabled, the finished request is not accounted for. -/
def Unaccounted (req : LlmRequest) (content : String) : Prop :=
  generousSettings.budgetEnabled = true ∧ generousSettings.costEstimationEnabled = true ∧
    ((answered req content).outcome 0).isSome = true ∧
    ¬ Accounted (.sample generousSettings) (responsesOf (.sample generousSettings) (own 0 (answered req content).world.log))
      (chargesOf (own 0 (answered req content).world.log))

/-- Some response is covered by some charge. -/
theorem exists_covered {env : LlmEnv} {rs : List (Except (Int × Int) LLMGenerateMetadata)} {us : List Usage}
    (h : List.Forall₂ (Covers env) rs us) (hne : rs ≠ []) :
    ∃ r ∈ rs, ∃ u ∈ us, configuredPrice env (tokensOf r) ≤ u.cost := by
  cases h with
  | nil => exact absurd rfl hne
  | @cons r u _ _ hcovers _ =>
    exact ⟨r, List.mem_cons_self, u, List.mem_cons_self, hcovers.2.2⟩

/-- An NL2SQL call is charged nothing for its two tokens, which are priced at 2; a judge call whose
reply is no judgement is not charged at all. -/
theorem charges_incomplete : Unaccounted (.preview ⟨"q", "llm", none, false⟩) "" ∧
    Unaccounted (.judge ⟨"openai_compatible", false, "", "", 0⟩ ⟨"c", "q", "a", "b", ""⟩) "" := by
  refine ⟨⟨rfl, rfl, by decide +kernel, ?_⟩, ⟨rfl, rfl, by decide +kernel, ?_⟩⟩
  · generalize hreq : LlmRequest.preview ⟨"q", "llm", none, false⟩ = req
    have hprice : ∀ r ∈ responsesOf (.sample generousSettings) (own 0 (answered req "").world.log),
        0 < configuredPrice (.sample generousSettings) (tokensOf r) := by
      subst hreq
      decide +kernel
    have hcost : ∀ u ∈ chargesOf (own 0 (answered req "").world.log), u.cost = 0 := by
      subst hreq
      decide +kernel
    rintro (hnil | hall)
    · subst hreq
      exact absurd (congrArg List.length hnil) (by decide +kernel)
    · have hne : responsesOf (.sample generousSettings) (own 0 (answered req "").world.log) ≠ [] := by
        subst hreq
        exact fun hnil => absurd (congrArg List.length hnil) (by decide +kernel)
      obtain ⟨r, hr, u, hu, hle⟩ := exists_covered hall hne
      rw [hcost u hu] at hle
      exact absurd (hprice r hr) (not_lt.mpr hle)
  · rintro (hnil | hall)
    · exact absurd (congrArg List.length hnil) (by decide +kernel)
    · exact absurd hall.length_eq (by decide +kernel)

end AgentHarness
