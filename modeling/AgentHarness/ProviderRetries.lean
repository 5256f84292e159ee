import AgentHarness.Lib.Retry
import AgentHarness.LlmRuns

/-!
# ProviderRetries — the requests of one `generate_with_metadata`

`OpenAICompatibleProvider` tries again after a timeout, a rate limit or a malformed response, and gives up at once on
anything else.  `LiteLLMProvider` tries again after every exception, but a response error with a base URL makes it ask
the endpoint itself, once, and that answer is final.  `openai_retry_law` and `litellm_retry_law` say which requests are
made and what comes of them.
-/

namespace AgentHarness

open Lib

/-- The world after some operations of thread `t` that leave the data alone. -/
def LlmWorld.answered (w : LlmWorld) (events : List LlmEvent) : LlmWorld := ⟨w.db, w.log ++ events⟩

namespace Provider

variable (env : LlmEnv) (out : LlmOutside) (t : Nat) (p : Provider) (prompt : String)

/-! ## One answer -/

/-- What is made of the answer of the endpoint, as the `i`-th operation of the process. -/
def httpOutcome (i : Nat) : Except Raised LLMGenerateMetadata := out.http i p prompt >>= readHttpResponse env p

def litellmOutcome (i : Nat) : Except Raised LLMGenerateMetadata := out.litellm i p prompt >>= normalizeResponse p

/-- `n` requests to the endpoint from the `i`-th operation on. -/
def httpPosts (i n : Nat) : List LlmEvent :=
  (List.range n).map fun k => ⟨t, .httpPost p prompt, out.http (i + k) p prompt⟩

def litellmCompletions (i n : Nat) : List LlmEvent :=
  (List.range n).map fun k => ⟨t, .litellmCompletion p prompt, out.litellm (i + k) p prompt⟩

/-- A success, or an exception that is not tried again. -/
def Decided : Except Raised LLMGenerateMetadata → Prop
  | .ok _ => True
  | .error e => retryable e = false

/-- An exception after which the endpoint is asked itself. -/
def switches (e : Raised) : Bool :=
  p.baseUrl ≠ "" && (mapException env.unicode e).cls = "ProviderResponseError"

/-- A success, or an exception after which the endpoint is asked itself. -/
def Concluded : Except Raised LLMGenerateMetadata → Prop
  | .ok _ => True
  | .error e => p.switches env e = true

/-- How the loop of LiteLLM ends after its attempt `m`, begun as the `i`-th operation. -/
def litellmEnd (w : LlmWorld) (m : Nat) : Except Raised LLMGenerateMetadata × LlmWorld :=
  let i := w.log.length
  match litellmOutcome out p prompt (i + m) with
  | .ok metadata => (.ok metadata, w.answered (litellmCompletions out t p prompt i (m + 1)))
  | .error e =>
    if p.switches env e then
      (httpOutcome env out p prompt (i + m + 1),
        w.answered (litellmCompletions out t p prompt i (m + 1) ++ httpPosts out t p prompt (i + m + 1) 1))
    else (.error (mapException env.unicode e), w.answered (litellmCompletions out t p prompt i (m + 1)))

variable {env out t p prompt}

theorem httpPosts_succ (i n : Nat) : httpPosts out t p prompt i (n + 1) =
    ⟨t, .httpPost p prompt, out.http i p prompt⟩ :: httpPosts out t p prompt (i + 1) n := by
  unfold httpPosts
  rw [List.range_succ_eq_map, List.map_cons, List.map_map]
  refine congrArg₂ List.cons rfl (List.map_congr_left fun k _ => ?_)
  rw [Function.comp_apply, Nat.succ_eq_add_one, Nat.add_comm k 1, Nat.add_assoc]

theorem litellmCompletions_succ (i n : Nat) : litellmCompletions out t p prompt i (n + 1) =
    ⟨t, .litellmCompletion p prompt, out.litellm i p prompt⟩ :: litellmCompletions out t p prompt (i + 1) n := by
  unfold litellmCompletions
  rw [List.range_succ_eq_map, List.map_cons, List.map_map]
  refine congrArg₂ List.cons rfl (List.map_congr_left fun k _ => ?_)
  rw [Function.comp_apply, Nat.succ_eq_add_one, Nat.add_comm k 1, Nat.add_assoc]

theorem run_perform {β : Type} {o : LlmOp} (read : LlmAns o → Except Raised β) (w : LlmWorld) :
    (Llm.perform o >>= fun answer => Prog.ofExcept (read answer)).run (llmStep out t) w =
      ((llmStep out t o w).1 >>= read, (llmStep out t o w).2) := by
  rw [Prog.run_bind, Llm.perform, Prog.run_call]
  obtain ⟨r, w'⟩ := llmStep out t o w
  cases r with
  | error e => rfl
  | ok answer =>
    dsimp only
    show (Prog.ofExcept (read answer)).run (llmStep out t) w' = (read answer, w')
    cases read answer with
    | error e => rfl
    | ok b => rfl

theorem run_requestOnce (w : LlmWorld) : (p.requestOnce env prompt).run (llmStep out t) w =
    (httpOutcome env out p prompt w.log.length, w.answered (httpPosts out t p prompt w.log.length 1)) :=
  run_perform (o := .httpPost p prompt) (readHttpResponse env p) w

/-! ## The loops -/

theorem run_openaiLoop (n : Nat) (w : LlmWorld) :
    ∃ m, Settles (fun k => Decided (httpOutcome env out p prompt (w.log.length + k))) n m ∧
      (p.openaiLoop env prompt n).run (llmStep out t) w =
        (httpOutcome env out p prompt (w.log.length + m),
          w.answered (httpPosts out t p prompt w.log.length (m + 1))) := by
  induction n generalizing w with
  | zero => exact ⟨0, .last, run_requestOnce w⟩
  | succ n ih =>
    unfold openaiLoop
    rw [Prog.run_tryCatch, run_requestOnce]
    cases hfirst : httpOutcome env out p prompt w.log.length with
    | ok metadata =>
      refine ⟨0, .at_once ?_, ?_⟩
      · show Decided (httpOutcome env out p prompt w.log.length)
        rw [hfirst]
        trivial
      · show _ = (httpOutcome env out p prompt w.log.length, _)
        rw [hfirst]
    | error e =>
      dsimp only
      by_cases hretry : retryable e = true
      · -- the attempt is followed by those of the rest
        rw [if_pos hretry]
        obtain ⟨m, hsettles, hrun⟩ := ih (w.answered (httpPosts out t p prompt w.log.length 1))
        have hlength : (w.answered (httpPosts out t p prompt w.log.length 1)).log.length = w.log.length + 1 :=
          List.length_append
        rw [hlength] at hsettles hrun
        have hshift : ∀ k, w.log.length + 1 + k = w.log.length + (k + 1) := fun k => by omega
        refine ⟨m + 1, .again ?_ ?_, ?_⟩
        · show ¬ Decided (httpOutcome env out p prompt w.log.length)
          rw [hfirst]
          exact fun hno => Bool.noConfusion (hretry.symm.trans hno)
        · simpa only [hshift] using hsettles
        · rw [hrun, hshift, httpPosts_succ w.log.length (m + 1)]
          refine congrArg (Prod.mk _) ?_
          unfold LlmWorld.answered
          rw [List.append_assoc]
          rfl
      · rw [if_neg hretry]
        refine ⟨0, .at_once ?_, ?_⟩
        · show Decided (httpOutcome env out p prompt w.log.length)
          rw [hfirst]
          exact Bool.eq_false_iff.mpr hretry
        · show _ = (httpOutcome env out p prompt w.log.length, _)
          rw [hfirst]
          rfl

theorem run_litellmAttempt (retry : Raised → Llm LLMGenerateMetadata) (w : LlmWorld) :
    (p.litellmAttempt env prompt retry).run (llmStep out t) w =
      match litellmOutcome out p prompt w.log.length with
      | .ok metadata => (.ok metadata, w.answered (litellmCompletions out t p prompt w.log.length 1))
      | .error e =>
        if p.switches env e then
          (httpOutcome env out p prompt (w.log.length + 1),
            w.answered (litellmCompletions out t p prompt w.log.length 1 ++
              httpPosts out t p prompt (w.log.length + 1) 1))
        else (retry (mapException env.unicode e)).run (llmStep out t)
          (w.answered (litellmCompletions out t p prompt w.log.length 1)) := by
  have hasked : (Llm.perform (.litellmCompletion p prompt) >>= fun response =>
      Prog.ofExcept (normalizeResponse p response)).run (llmStep out t) w =
      (litellmOutcome out p prompt w.log.length, w.answered (litellmCompletions out t p prompt w.log.length 1)) :=
    run_perform (o := .litellmCompletion p prompt) (normalizeResponse p) w
  unfold litellmAttempt
  rw [Prog.run_tryCatch, hasked]
  cases litellmOutcome out p prompt w.log.length with
  | ok metadata => rfl
  | error e =>
    dsimp only
    by_cases hswitch : p.switches env e = true
    · have hlength : (w.answered (litellmCompletions out t p prompt w.log.length 1)).log.length = w.log.length + 1 :=
        List.length_append
      unfold switches at hswitch ⊢
      rw [if_pos hswitch, if_pos hswitch, run_requestOnce, hlength]
      refine congrArg (Prod.mk _) ?_
      unfold LlmWorld.answered
      rw [List.append_assoc]
    · unfold switches at hswitch ⊢
      rw [if_neg hswitch, if_neg hswitch]

theorem run_litellmLoop (n : Nat) (w : LlmWorld) :
    ∃ m, Settles (fun k => Concluded env p (litellmOutcome out p prompt (w.log.length + k))) n m ∧
      (p.litellmLoop env prompt n).run (llmStep out t) w = litellmEnd env out t p prompt w m := by
  induction n generalizing w with
  | zero =>
    refine ⟨0, .last, ?_⟩
    unfold litellmLoop litellmEnd
    rw [run_litellmAttempt]
    rfl
  | succ n ih =>
    unfold litellmLoop
    rw [run_litellmAttempt]
    cases hfirst : litellmOutcome out p prompt w.log.length with
    | ok metadata =>
      refine ⟨0, .at_once ?_, ?_⟩
      · show Concluded env p (litellmOutcome out p prompt w.log.length)
        rw [hfirst]
        trivial
      · unfold litellmEnd
        dsimp only
        rw [Nat.add_zero, hfirst]
    | error e =>
      dsimp only
      by_cases hswitch : p.switches env e = true
      · rw [if_pos hswitch]
        refine ⟨0, .at_once ?_, ?_⟩
        · show Concluded env p (litellmOutcome out p prompt w.log.length)
          rw [hfirst]
          exact hswitch
        · have hzero : litellmOutcome out p prompt (w.log.length + 0) = .error e := hfirst
          unfold litellmEnd
          dsimp only
          rw [hzero]
          dsimp only
          rw [if_pos hswitch]
      · -- the attempt is followed by those of the rest
        rw [if_neg hswitch]
        obtain ⟨m, hsettles, hrun⟩ := ih (w.answered (litellmCompletions out t p prompt w.log.length 1))
        have hlength : (w.answered (litellmCompletions out t p prompt w.log.length 1)).log.length =
            w.log.length + 1 := List.length_append
        rw [hlength] at hsettles
        have hshift : ∀ k, w.log.length + 1 + k = w.log.length + (k + 1) := fun k => by omega
        refine ⟨m + 1, .again ?_ ?_, ?_⟩
        · show ¬ Concluded env p (litellmOutcome out p prompt w.log.length)
          rw [hfirst]
          exact hswitch
        · simpa only [hshift] using hsettles
        · rw [hrun]
          have hlogged : ∀ events : List LlmEvent,
              (w.answered (litellmCompletions out t p prompt w.log.length 1)).answered
                (litellmCompletions out t p prompt (w.log.length + 1) (m + 1) ++ events) =
              w.answered (litellmCompletions out t p prompt w.log.length (m + 1 + 1) ++ events) := by
            intro events
            rw [litellmCompletions_succ w.log.length (m + 1)]
            unfold LlmWorld.answered
            rw [List.append_assoc]
            rfl
          have hnone := hlogged []
          rw [List.append_nil, List.append_nil] at hnone
          unfold litellmEnd
          dsimp only
          rw [hlength, hshift, hnone, hlogged]

/-- An endpoint that answers in time only the second time. -/
def slowOutside : LlmOutside :=
  .sample fun n => if n = 0 then .error ⟨"ProviderTimeoutError", "timed out"⟩ else .ok (.sample "SELECT 1" 1 1)

def slowProvider : Provider := ⟨.openaiCompatible, "m", "http://localhost", 2⟩

/-- **The attempts with LiteLLM.**  They are made up to the first that succeeds or that makes the provider ask the
endpoint itself, at most `max_retries + 1` of them; then follows at most one request to the endpoint, whose outcome is
returned or raised as it is. -/
theorem litellm_retry_law (env : LlmEnv) (out : LlmOutside) (t : Nat) (p : Provider) (prompt : String) (w : LlmWorld)
    (hkind : p.kind = .litellm) (hinstalled : env.litellmInstalled = true) :
    ∃ m, Settles (fun k => Concluded env p (litellmOutcome out p prompt (w.log.length + k))) p.maxRetries m ∧
      (p.generateWithMetadata env prompt).run (llmStep out t) w = litellmEnd env out t p prompt w m := by
  unfold generateWithMetadata
  rw [hkind]
  dsimp only
  rw [if_pos hinstalled]
  exact run_litellmLoop p.maxRetries w

/-- LiteLLM fails in a way that names no cause, and the endpoint answers. -/
def fallenBack : LlmOutside :=
  { LlmOutside.sample fun _ => .ok (.sample "SELECT 1" 1 1) with litellm := fun _ _ _ => .error ⟨"Exception", "x"⟩ }

theorem litellm_retry_law_fallback :
    ((generateWithMetadata .priced ⟨.litellm, "m", "http://localhost", 2⟩ "q").run (llmStep fallenBack 0)
      ⟨.initial, []⟩).2.log.length = 2 := by
  obtain ⟨m, hsettles, hrun⟩ :=
    litellm_retry_law .priced fallenBack 0 ⟨.litellm, "m", "http://localhost", 2⟩ "q" ⟨.initial, []⟩ rfl rfl
  have hfirst : m = 0 := hsettles.unique (.at_once rfl)
  rw [hrun, hfirst]
  rfl

end Provider

end AgentHarness
