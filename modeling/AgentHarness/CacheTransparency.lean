import AgentHarness.BudgetLimit
import AgentHarness.CacheContract
import AgentHarness.GuardedSql

/-!
# CacheTransparency — what a call gets that is answered from the cache

Two conditions on the steps of a run make a hit as good as an uncached call.  `StoresSuccess`: a call
without a fallback only stores when a reply was accepted (otherwise it stores its failure).
`FindsSamePrompt`: the call that stored the entry of a lookup had the same prompt (the key leaves out the
row counts and sample values that the prompt shows).
-/

namespace AgentHarness

open Lib

section

variable (env : LlmEnv) (reqs : Nat → LlmRequest)

/-- The generation that thread `t` asks for. -/
def askOf (t : Nat) (log : List LlmEvent) : Option Ask := (reqs t).ask env (own t log)

/-- The key and the record of a store. -/
def storedAs? (e : LlmEvent) : Option (String × Nat) :=
  match e with
  | ⟨_, .setNl2sql key _ _, .ok id⟩ => some (key, id)
  | _ => none

/-- A call without a fallback stores where the provider's reply was accepted. -/
def StoresSuccess (c : LlmConf) (t : Nat) : LlmOp → Prop
  | .setNl2sql _ _ _ => ∀ call ∈ (reqs t).nl2sqlCall, call.fallbackToMock = false →
      ∃ a ∈ askOf env reqs t c.world.log, a.succeeds env (own t c.world.log) = true
  | _ => True

/-- The entry that a lookup finds was stored by a call with the same prompt. -/
def FindsSamePrompt (c : LlmConf) (t : Nat) : LlmOp → Prop
  | .getNl2sql key now => ∀ entry ∈ c.world.db.nl2sqlCache key, expired entry.1 now = false →
      ∀ e ∈ c.world.log, storedAs? e = some (key, entry.2) →
        (askOf env reqs e.tid c.world.log).map (Ask.prompt env) =
          (askOf env reqs t c.world.log).map (Ask.prompt env)
  | _ => True

/-! ## The invariant -/

/-- Thread `t` has generated the record `o` for the key. -/
def StoredBy (log : List LlmEvent) (t : Nat) (key : String) (o : GenOutput) : Prop :=
  ∃ a, askOf env reqs t log = some a ∧ key = a.key env ∧ a.Generated env (own t log) o

/-- What thread `t` finds under the key is what a thread has stored for the same prompt. -/
def FoundBy (log : List LlmEvent) (t : Nat) (key : String) (c : GenOutput) : Prop :=
  ∃ a, askOf env reqs t log = some a ∧ key = a.key env ∧
    ∃ t' expireAt o id a', (⟨t', .setNl2sql key expireAt o, .ok id⟩ : LlmEvent) ∈ log ∧
      askOf env reqs t' log = some a' ∧ key = a'.key env ∧ a'.Generated env (own t' log) o ∧ o.Same c ∧
      a'.prompt env = a.prompt env

/-- The answers of the providers are those from outside. -/
def AnsweredFrom (out : LlmOutside) (e : LlmEvent) : Prop :=
  match e with
  | ⟨_, .httpPost p prompt, r⟩ => ∃ n, r = out.http n p prompt
  | ⟨_, .litellmCompletion p prompt, r⟩ => ∃ n, r = out.litellm n p prompt
  | _ => True

structure CacheInv (out : LlmOutside) (w : LlmWorld) : Prop where
  stored : ∀ t key expireAt o id, (⟨t, .setNl2sql key expireAt o, .ok id⟩ : LlmEvent) ∈ w.log →
    StoredBy env reqs w.log t key o ∧ ∃ x, w.db.objects[id]? = some x ∧ o.Same x
  entries : ∀ key entry, w.db.nl2sqlCache key = some entry →
    ∃ t expireAt o, (⟨t, .setNl2sql key expireAt o, .ok entry.2⟩ : LlmEvent) ∈ w.log
  found : ∀ pre post t key now c, w.log = pre ++ ⟨t, .getNl2sql key now, .ok (some c)⟩ :: post →
    FoundBy env reqs pre t key c
  outside : ∀ e ∈ w.log, AnsweredFrom out e

end

section Invariant

variable {env : LlmEnv} {reqs : Nat → LlmRequest} {out : LlmOutside} {log log' : List LlmEvent} {t : Nat}
  {key : String} {o : GenOutput} {w w' : LlmWorld}

theorem askOf_mono {a : Ask} (h : askOf env reqs t log = some a) (hpre : log <+: log') :
    askOf env reqs t log' = some a :=
  LlmRequest.ask_mono h (own_mono t hpre)

theorem StoredBy.mono (h : StoredBy env reqs log t key o) (hpre : log <+: log') :
    StoredBy env reqs log' t key o := by
  obtain ⟨a, ha, hkey, hgen⟩ := h
  exact ⟨a, askOf_mono ha hpre, hkey, hgen.mono (own_mono t hpre)⟩

/-- **Extending the log** by one event.  What is new has to be shown of the event, and of the records. -/
theorem CacheInv.extend (h : CacheInv env reqs out w) {e : LlmEvent} (hlog : w'.log = w.log ++ [e])
    (hobjects : ∀ t key expireAt o id, (⟨t, .setNl2sql key expireAt o, .ok id⟩ : LlmEvent) ∈ w.log →
      ∃ x, w'.db.objects[id]? = some x ∧ o.Same x)
    (hstored : ∀ t key expireAt o id, e = ⟨t, .setNl2sql key expireAt o, .ok id⟩ →
      StoredBy env reqs w.log t key o ∧ ∃ x, w'.db.objects[id]? = some x ∧ o.Same x)
    (hentries : ∀ key entry, w'.db.nl2sqlCache key = some entry →
      ∃ t expireAt o, (⟨t, .setNl2sql key expireAt o, .ok entry.2⟩ : LlmEvent) ∈ w.log ++ [e])
    (hfound : ∀ t key now c, e = ⟨t, .getNl2sql key now, .ok (some c)⟩ → FoundBy env reqs w.log t key c)
    (hout : AnsweredFrom out e) : CacheInv env reqs out w' where
  stored t key expireAt o id hmem := by
    have hpre : w.log <+: w'.log := hlog ▸ List.prefix_append _ _
    rw [hlog, List.mem_append, List.mem_singleton] at hmem
    rcases hmem with hold | hnew
    · exact ⟨(h.stored t key expireAt o id hold).1.mono hpre, hobjects t key expireAt o id hold⟩
    · obtain ⟨hby, hx⟩ := hstored t key expireAt o id hnew.symm
      exact ⟨hby.mono hpre, hx⟩
  entries key entry hentry := by
    rw [hlog]
    exact hentries key entry hentry
  found pre post t key now c hsplit := by
    rw [hlog] at hsplit
    obtain rfl | ⟨post', x, rfl⟩ := List.eq_nil_or_concat post
    · obtain ⟨hpre, he⟩ := List.append_inj' hsplit rfl
      rw [← hpre]
      exact hfound t key now c (List.singleton_injective he)
    · rw [List.concat_eq_append, ← List.cons_append, ← List.append_assoc] at hsplit
      exact h.found pre post' t key now c (List.append_inj' hsplit rfl).1
  outside e' he' := by
    rw [hlog, List.mem_append, List.mem_singleton] at he'
    rcases he' with hold | rfl
    · exact h.outside e' hold
    · exact hout

/-- An operation that leaves the cache of generations alone. -/
theorem CacheInv.frame (h : CacheInv env reqs out w) {e : LlmEvent} (hlog : w'.log = w.log ++ [e])
    (hobjects : w'.db.objects = w.db.objects) (hcache : w'.db.nl2sqlCache = w.db.nl2sqlCache)
    (hset : ∀ t key expireAt o id, e ≠ ⟨t, .setNl2sql key expireAt o, .ok id⟩)
    (hget : ∀ t key now c, e ≠ ⟨t, .getNl2sql key now, .ok (some c)⟩) (hout : AnsweredFrom out e) :
    CacheInv env reqs out w' := by
  refine h.extend hlog (fun t key expireAt o id hmem => ?_) (fun t key expireAt o id he => absurd he (hset _ _ _ _ _))
    (fun key entry hentry => ?_) (fun t key now c he => absurd he (hget _ _ _ _)) hout
  · rw [hobjects]
    exact (h.stored t key expireAt o id hmem).2
  · rw [hcache] at hentry
    obtain ⟨t, expireAt, o, hmem⟩ := h.entries key entry hentry
    exact ⟨t, expireAt, o, List.mem_append_left _ hmem⟩

/-- A lookup adds no entry. -/
theorem llmExec_getNl2sql_entry {db : LlmDb} {now : Nat} {key' : String} {entry : Nat × Nat}
    (h : (llmExec out log (.getNl2sql key now) db).2.nl2sqlCache key' = some entry) :
    db.nl2sqlCache key' = some entry := by
  simp only [llmExec] at h
  split at h
  · exact h
  · split at h
    · dsimp only at h
      by_cases hkey : key' = key
      · subst hkey
        rw [Function.update_self] at h
        cases h
      · rwa [Function.update_of_ne hkey] at h
    · exact h

/-- What a lookup finds is the record of an entry that has not expired. -/
theorem llmExec_getNl2sql_hit {db : LlmDb} {now : Nat} {x : GenOutput}
    (h : (llmExec out log (.getNl2sql key now) db).1 = .ok (some x)) :
    ∃ entry, db.nl2sqlCache key = some entry ∧ expired entry.1 now = false ∧ db.objects[entry.2]? = some x := by
  simp only [llmExec] at h
  split at h
  · cases h
  · rename_i expireAt id hentry
    split at h
    · cases h
    · rename_i hfresh
      exact ⟨(expireAt, id), hentry, by simpa using hfresh, Except.ok.inj h⟩

theorem llmExec_getJudge_frame {db : LlmDb} {now : Nat} :
    (llmExec out log (.getJudge key now) db).2.objects = db.objects ∧
      (llmExec out log (.getJudge key now) db).2.nl2sqlCache = db.nl2sqlCache := by
  refine ⟨llmExec_getJudge, ?_⟩
  simp only [llmExec]
  split
  · rfl
  · split <;> rfl

/-- What a thread may store where the conditions hold. -/
theorem Storable.storedBy {c : LlmConf} {expireAt : Nat}
    (h : Storable env (reqs t) (own t c.world.log) key o)
    (hok : StoresSuccess env reqs c t (.setNl2sql key expireAt o)) : StoredBy env reqs c.world.log t key o := by
  obtain ⟨a, ha, hkey, hgen | ⟨⟨call, hcall, hftm⟩, hfailed⟩⟩ := h
  · exact ⟨a, ha, hkey, hgen⟩
  · obtain ⟨a', ha', hsucceeds⟩ := hok call hcall hftm
    obtain rfl : a' = a := Option.some.inj (ha'.symm.trans ha)
    exact Bool.noConfusion (hfailed.symm.trans hsucceeds)

theorem cacheInv_setNl2sql {c : LlmConf} {expireAt : Nat} (h : CacheInv env reqs out c.world)
    (hmay : cacheMay env (reqs t) t (own t c.world.log) (.setNl2sql key expireAt o))
    (hok : StoresSuccess env reqs c t (.setNl2sql key expireAt o)) :
    CacheInv env reqs out (llmStep out t (.setNl2sql key expireAt o) c.world).2 := by
  refine h.extend (e := ⟨t, .setNl2sql key expireAt o, .ok c.world.db.objects.length⟩) rfl ?_ ?_ ?_
    (fun t key now c he => by cases he) trivial
  · intro t' key' expireAt' o' id hmem
    obtain ⟨-, x, hx, hsame⟩ := h.stored t' key' expireAt' o' id hmem
    refine ⟨x, ?_, hsame⟩
    exact (List.getElem?_append_left (List.getElem?_eq_some_iff.mp hx).1).trans hx
  · intro t' key' expireAt' o' id he
    cases he
    refine ⟨Storable.storedBy hmay hok, o, ?_, .refl o⟩
    exact List.getElem?_concat_length
  · intro key' entry hentry
    by_cases hkey : key' = key
    · subst hkey
      have hentry : some (expireAt, c.world.db.objects.length) = some entry :=
        (Function.update_self key' _ _).symm.trans hentry
      cases hentry
      exact ⟨t, expireAt, o, List.mem_append_right _ (List.mem_singleton_self _)⟩
    · have hentry : c.world.db.nl2sqlCache key' = some entry :=
        (Function.update_of_ne hkey _ _).symm.trans hentry
      obtain ⟨t', expireAt', o', hmem⟩ := h.entries key' entry hentry
      exact ⟨t', expireAt', o', List.mem_append_left _ hmem⟩

theorem cacheInv_updateObject {c : LlmConf} {id : Nat} (h : CacheInv env reqs out c.world)
    (hmay : cacheMay env (reqs t) t (own t c.world.log) (.updateObject id o)) :
    CacheInv env reqs out (llmStep out t (.updateObject id o) c.world).2 := by
  refine h.extend (e := ⟨t, .updateObject id o, .ok ()⟩) rfl ?_ (fun t key expireAt o id he => by cases he) ?_
    (fun t key now c he => by cases he) trivial
  · intro t' key' expireAt' o' id' hmem
    obtain ⟨-, x, hx, hsame⟩ := h.stored t' key' expireAt' o' id' hmem
    by_cases hid : id = id'
    · -- both stores refer to the one record that is filled in
      subst hid
      obtain ⟨key, expireAt, o₀, hown, hfill⟩ := hmay
      obtain ⟨-, x', hx', hsame'⟩ := h.stored t key expireAt o₀ id (mem_own hown)
      obtain rfl := Option.some.inj (hx.symm.trans hx')
      refine ⟨o, ?_, (hsame.trans hsame'.symm).trans hfill⟩
      exact List.getElem?_set_self (List.getElem?_eq_some_iff.mp hx).1
    · exact ⟨x, (List.getElem?_set_ne hid).trans hx, hsame⟩
  · intro key' entry hentry
    obtain ⟨t', expireAt', o', hmem⟩ := h.entries key' entry hentry
    exact ⟨t', expireAt', o', List.mem_append_left _ hmem⟩

theorem cacheInv_getNl2sql {c : LlmConf} {now : Nat} (h : CacheInv env reqs out c.world)
    (hmay : cacheMay env (reqs t) t (own t c.world.log) (.getNl2sql key now))
    (hok : FindsSamePrompt env reqs c t (.getNl2sql key now)) :
    CacheInv env reqs out (llmStep out t (.getNl2sql key now) c.world).2 := by
  obtain ⟨hobjects, -⟩ := @llmExec_getNl2sql out c.world.log c.world.db key now
  refine h.extend (e := ⟨t, .getNl2sql key now, (llmExec out c.world.log (.getNl2sql key now) c.world.db).1⟩) rfl ?_
    (fun t key expireAt o id he => by cases he) ?_ ?_ trivial
  · intro t' key' expireAt' o' id hmem
    show ∃ x, (llmExec out c.world.log (.getNl2sql key now) c.world.db).2.objects[id]? = some x ∧ _
    rw [hobjects]
    exact (h.stored t' key' expireAt' o' id hmem).2
  · intro key' entry hentry
    have hold : c.world.db.nl2sqlCache key' = some entry := llmExec_getNl2sql_entry hentry
    obtain ⟨t', expireAt', o', hmem⟩ := h.entries key' entry hold
    exact ⟨t', expireAt', o', List.mem_append_left _ hmem⟩
  · intro t' key' now' x he
    obtain ⟨rfl, hop, hans⟩ := Ev.mk.inj he
    cases hop
    obtain ⟨entry, hentry, hfresh, hx⟩ := llmExec_getNl2sql_hit (eq_of_heq hans)
    obtain ⟨t', expireAt, o, hmem⟩ := h.entries key entry hentry
    obtain ⟨⟨a', ha', hkey', hgen⟩, y, hy, hsame⟩ := h.stored t' key expireAt o entry.2 hmem
    obtain rfl := Option.some.inj (hx.symm.trans hy)
    obtain ⟨a, ha, hkey⟩ := hmay
    have hprompt := hok entry hentry hfresh _ hmem rfl
    have ha : askOf env reqs t c.world.log = some a := ha
    simp only [ha, ha', Option.map_some] at hprompt
    exact ⟨a, ha, hkey, t', expireAt, o, entry.2, a', hmem, ha', hkey', hgen, hsame, Option.some.inj hprompt⟩

/-- **One operation** of a call that keeps the contract, under the two conditions. -/
theorem cacheInv_step {c : LlmConf} {op : LlmOp} (h : CacheInv env reqs out c.world)
    (hmay : cacheMay env (reqs t) t (own t c.world.log) op)
    (hstores : StoresSuccess env reqs c t op) (hfinds : FindsSamePrompt env reqs c t op) :
    CacheInv env reqs out (llmStep out t op c.world).2 := by
  cases op with
  | setNl2sql key expireAt o => exact cacheInv_setNl2sql h hmay hstores
  | updateObject id o => exact cacheInv_updateObject h hmay
  | getNl2sql key now => exact cacheInv_getNl2sql h hmay hfinds
  | getJudge key now =>
    obtain ⟨hobjects, hcache⟩ := @llmExec_getJudge_frame out c.world.log key c.world.db now
    exact h.frame rfl hobjects hcache (fun _ _ _ _ _ he => by cases he) (fun _ _ _ _ he => by cases he) trivial
  | httpPost p prompt =>
    exact h.frame rfl rfl rfl (fun _ _ _ _ _ he => by cases he) (fun _ _ _ _ he => by cases he) ⟨_, rfl⟩
  | litellmCompletion p prompt =>
    exact h.frame rfl rfl rfl (fun _ _ _ _ _ he => by cases he) (fun _ _ _ _ he => by cases he) ⟨_, rfl⟩
  | _ => exact h.frame rfl rfl rfl (fun _ _ _ _ _ he => by cases he) (fun _ _ _ _ he => by cases he) trivial

end Invariant

/-! ## The property -/

/-- The names and types of a schema, which its hash is made of. -/
def DatabaseSchema.shape (schema : DatabaseSchema) : List (String × List (String × String)) :=
  schema.tables.map fun t => (t.name, t.fields.map fun f => (f.name, f.type))

/-- The same question, schema, provider and model. -/
structure Ask.SameTask (a a' : Ask) : Prop where
  query : a.query = a'.query
  schema : a.schema.shape = a'.schema.shape
  prov : a.prov = a'.prov

/-- What the provider answers is, where it can be read, a function of the prompt. -/
structure Deterministic (env : LlmEnv) (content : String → String) (out : LlmOutside) (p : Provider) :
    Prop where
  http : ∀ n prompt m, (out.http n p prompt >>= Provider.readHttpResponse env p) = .ok m →
    m.content = content prompt
  litellm : ∀ n prompt m, (out.litellm n p prompt >>= Provider.normalizeResponse p) = .ok m →
    m.content = content prompt

/-- The provider always answers, and as this function says. -/
def Healthy (env : LlmEnv) (content : String → String) (out : LlmOutside) (p : Provider) : Prop :=
  match p.kind with
  | .fake => ∀ prompt, env.fakeContent prompt = content prompt
  | .litellm => env.litellmInstalled = true ∧ ∀ n prompt, ∃ m,
      (out.litellm n p prompt >>= Provider.normalizeResponse p) = .ok m ∧ m.content = content prompt
  | .openaiCompatible => ∀ n prompt, ∃ m,
      (out.http n p prompt >>= Provider.readHttpResponse env p) = .ok m ∧ m.content = content prompt

/-- The preview shows the record of a generation that a thread has stored for the same task before the
lookup, out of a reply that was accepted. -/
def FromEarlierSuccess (env : LlmEnv) (reqs : Nat → LlmRequest) (log : List LlmEvent) (t : Nat) (a : Ask)
    (p : PreviewResult) : Prop :=
  ∃ pre key now c post, log = pre ++ ⟨t, .getNl2sql key now, .ok (some c)⟩ :: post ∧
    ∃ t' expireAt o id a', (⟨t', .setNl2sql key expireAt o, .ok id⟩ : LlmEvent) ∈ pre ∧
      askOf env reqs t' pre = some a' ∧ a'.SameTask a ∧ a'.Generated env (own t' pre) o ∧ o.Same p.output

/-- On any process with an empty cache, with the same schema and a provider that is healthy and answers as
the provider of this history did, the call returns the same, unless its budget refuses it. -/
def AsUncached (env : LlmEnv) (out : LlmOutside) (call : Nl2sqlCall) (a : Ask) (p : PreviewResult) : Prop :=
  ∀ content, Deterministic env content out a.prov → ∀ out' t' w', Healthy env content out' a.prov →
    out'.schema w'.log.length = .ok a.schema → (∀ key, w'.db.nl2sqlCache key = none) →
    ∃ p', ((NL2SQLPipeline.preview env call).run (llmStep out' t') w').1 = .ok p' ∧
      ((∀ b ∈ p'.output.budgetStatus, b.allowed = true) →
        p'.success = p.success ∧ p'.fallback = p.fallback ∧ p'.output.Same p.output)

/-- Every answer that is marked as a hit is a success, from an earlier success, and as an uncached call
would give it. -/
def HitsTransparent (env : LlmEnv) (out : LlmOutside) (reqs : Nat → LlmRequest) (sched : List Nat) : Prop :=
  ∀ t o p, (LlmConf.after env out reqs sched).outcome t = some (.ok o) → o.preview? = some p →
    p.output.cacheHit = true →
    p.success = true ∧ ∃ call a, (reqs t).nl2sqlCall = some call ∧
      askOf env reqs t (LlmConf.after env out reqs sched).world.log = some a ∧
      FromEarlierSuccess env reqs (LlmConf.after env out reqs sched).world.log t a p ∧
      AsUncached env out call a p

/-! ## Equal keys -/

section Keys

variable {env : LlmEnv} {a a' : Ask} {log log' : List LlmEvent} {req req' : LlmRequest}

theorem Provider.kind_of_name {p p' : Provider} (h : p.name = p'.name) : p.kind = p'.kind := by
  unfold Provider.name at h
  cases hkind : p.kind <;> cases hkind' : p'.kind <;> simp [hkind, hkind'] at h ⊢

/-- The settings and the name determine the provider. -/
theorem createProvider_name {s : LlmSettings} {name name' : Option String} {p p' : Provider} {n : Nat}
    (h : createProvider s name none none n = .ok p) (h' : createProvider s name' none none n = .ok p')
    (hname : p.name = p'.name) : p = p' := by
  have hform : ∀ {name : Option String} {p : Provider}, createProvider s name none none n = .ok p →
      p = ⟨.fake, "", "", 0⟩ ∨ ∃ kind, kind ≠ .fake ∧
        p = ⟨kind, if s.llmModel = "" then "gpt-3.5-turbo" else s.llmModel, s.llmBaseUrl, n⟩ := by
    intro name p h
    unfold createProvider at h
    simp only [Option.getD_none] at h
    generalize (if s.llmModel = "" then "gpt-3.5-turbo" else s.llmModel) = model at h ⊢
    repeat' split at h
    all_goals first
      | exact .inl (Except.ok.inj h).symm
      | exact .inr ⟨.litellm, by decide, (Except.ok.inj h).symm⟩
      | exact .inr ⟨.openaiCompatible, by decide, (Except.ok.inj h).symm⟩
      | cases h
  have hkinds := Provider.kind_of_name hname
  rcases hform h with rfl | ⟨kind, hkind, rfl⟩ <;> rcases hform h' with rfl | ⟨kind', hkind', rfl⟩
  · rfl
  · exact absurd hkinds.symm hkind'
  · exact absurd hkinds hkind
  · rw [show kind = kind' from hkinds]

theorem LlmRequest.ask_eq (h : req.ask env log = some a) : ∃ call, req.nl2sqlCall = some call ∧
    call.generator = "llm" ∧ a.query = call.query ∧
    createProvider env.settings call.provider none none env.settings.llmMaxRetries = .ok a.prov := by
  unfold ask at h
  split at h
  · rename_i call schema hcall hschema
    split at h
    · rename_i hllm
      split at h
      · rename_i prov hprov
        cases h
        exact ⟨call, hcall, hllm, rfl, hprov⟩
      · cases h
    · cases h
  · cases h

/-- Without collisions of the hashes, equal keys are for the same task. -/
theorem Ask.sameTask_of_key (hstable : Function.Injective env.stableHash)
    (hschema : Function.Injective env.schemaHash) (h : req.ask env log = some a)
    (h' : req'.ask env log' = some a') (hkey : a.key env = a'.key env) : a.SameTask a' := by
  obtain ⟨call, -, -, -, hprov⟩ := LlmRequest.ask_eq h
  obtain ⟨call', -, -, -, hprov'⟩ := LlmRequest.ask_eq h'
  have hparts := hstable ((String.append_right_inj _).mp hkey)
  simp only [List.cons.injEq, and_true, true_and] at hparts
  obtain ⟨hquery, hhash, hname, -⟩ := hparts
  exact ⟨hquery, hschema hhash, createProvider_name hprov hprov' hname⟩

theorem DatabaseSchema.shape_names (schema : DatabaseSchema) :
    schema.tables.map SchemaTable.name = schema.shape.map Prod.fst := by
  rw [shape, List.map_map]
  rfl

/-- Pruning looks at the question and at the names of the tables. -/
theorem Ask.SameTask.pruned_names (h : a.SameTask a') :
    a.pruned.tables.map SchemaTable.name = a'.pruned.tables.map SchemaTable.name := by
  have hnames : a.schema.tables.map SchemaTable.name = a'.schema.tables.map SchemaTable.name := by
    rw [DatabaseSchema.shape_names, DatabaseSchema.shape_names, h.schema]
  unfold Ask.pruned SchemaPruner.prune
  rw [h.query]
  split
  · exact hnames
  · rename_i rule _
    have hfilter (l : List SchemaTable) : (l.filter fun t => t.name ∈ rule.tables).map SchemaTable.name =
        (l.map SchemaTable.name).filter (· ∈ rule.tables) := by
      rw [List.filter_map]
      rfl
    dsimp only
    rw [hfilter, hfilter, hnames]

end Keys

/-! ## The uncached call -/

section Uncached

variable {env : LlmEnv} {a a' : Ask} {out : LlmOutside} {t : Nat} {w : LlmWorld} {call : Nl2sqlCall}
  {content : String → String}

/-- What is accepted from an object depends on the schema in its warnings only. -/
theorem parseObject_pruned {query name : String} {pruned : PrunedSchema} (pruned' : PrunedSchema) {data : Dict}
    {warnings : List String} {r : NL2SQLResult}
    (h : LLMNL2SQLGenerator.parseObject env query pruned name data warnings = .accepted r) :
    r.prunedSchema = pruned ∧ ∃ warnings',
      LLMNL2SQLGenerator.parseObject env query pruned' name data warnings =
        .accepted { r with prunedSchema := pruned', warnings := warnings' } := by
  unfold LLMNL2SQLGenerator.parseObject at h ⊢
  cases hsql : LLMNL2SQLGenerator.readSql env.unicode data with
  | error e =>
    rw [hsql] at h
    cases h
  | ok sql =>
    rw [hsql] at h
    dsimp only at h ⊢
    generalize LLMNL2SQLGenerator.readConfidence env data = confidence at h ⊢
    generalize LLMNL2SQLGenerator.readReasoning env data = reasoning at h ⊢
    generalize SQLGuard.check env.unicode sql = guardResult at h ⊢
    split at h
    · cases h
    · rename_i hsafe
      rw [if_neg hsafe]
      split at h
      · cases h
      · rename_i hallowed
        rw [if_neg hallowed]
        cases h
        exact ⟨rfl, _, rfl⟩

/-- The same text is accepted for the same task, with the same record. -/
theorem Ask.SameTask.accepted {m m' : LLMGenerateMetadata} {r' : NL2SQLResult} (h : a.SameTask a')
    (hcontent : m.content = m'.content) (haccepted : a'.accepted? env m' = some r') :
    ∃ r, a.accepted? env m = some r ∧ ∀ budget budget', (NL2SQLPipeline.outputOf r (some m) budget).Same
      (NL2SQLPipeline.outputOf r' (some m') budget') := by
  unfold Ask.accepted? LLMNL2SQLGenerator.parseResponse at haccepted
  cases hload : LLMNL2SQLGenerator.loadsTolerant env m'.content with
  | error e =>
    rw [hload] at haccepted
    dsimp only at haccepted
    split at haccepted
    · rename_i heq
      split at heq <;> cases heq
    · cases haccepted
  | ok x =>
    obtain ⟨v, hint⟩ := x
    rw [hload] at haccepted
    cases v with
    | dict data =>
      dsimp only at haccepted
      split at haccepted
      · rename_i result hparse
        cases haccepted
        obtain ⟨hpruned, warnings', hparse'⟩ := parseObject_pruned a.pruned (Except.ok.inj hparse)
        refine ⟨{ r' with prunedSchema := a.pruned, warnings := warnings' }, ?_, fun budget budget' => ?_⟩
        · unfold Ask.accepted? LLMNL2SQLGenerator.parseResponse
          rw [hcontent, hload, h.query, h.prov]
          dsimp only
          rw [hparse']
        · refine ⟨?_, rfl, rfl, rfl, rfl, rfl, rfl, rfl, rfl⟩
          show a.pruned.tables.map SchemaTable.name = r'.prunedSchema.tables.map SchemaTable.name
          rw [hpruned, h.pruned_names]
      · cases haccepted
    | _ => cases haccepted

/-- One request whose answer the adapter can read. -/
theorem run_read {o : LlmOp} {read : LlmAns o → Except Raised LLMGenerateMetadata} {m : LLMGenerateMetadata}
    (h : ((llmStep out t o w).1 >>= read) = .ok m) :
    (Llm.perform o >>= fun a => Prog.ofExcept (read a)).run (llmStep out t) w =
      (.ok m, (llmStep out t o w).2) := by
  rw [Prog.run_bind, Llm.perform, Prog.run_call]
  generalize llmStep out t o w = x at h ⊢
  obtain ⟨r, w'⟩ := x
  cases r with
  | error e => cases h
  | ok answer =>
    have h : read answer = .ok m := h
    dsimp only
    rw [h]
    rfl

/-- A healthy provider replies at once. -/
theorem run_generateWithMetadata (prompt : String) {p : Provider} (h : Healthy env content out p) :
    ∃ m w', (p.generateWithMetadata env prompt).run (llmStep out t) w = (.ok m, w') ∧
      m.content = content prompt ∧ w'.db = w.db := by
  revert h
  unfold Provider.generateWithMetadata Healthy
  cases p.kind with
  | fake =>
    intro h
    exact ⟨_, w, rfl, h prompt, rfl⟩
  | litellm =>
    rintro ⟨hinstalled, hreply⟩
    obtain ⟨m, hm, hcontent⟩ := hreply w.log.length prompt
    refine ⟨m, (llmStep out t (.litellmCompletion p prompt) w).2, ?_, hcontent, rfl⟩
    rw [if_pos hinstalled]
    have hattempt (retry : Raised → Llm LLMGenerateMetadata) :
        (p.litellmAttempt env prompt retry).run (llmStep out t) w =
          (.ok m, (llmStep out t (.litellmCompletion p prompt) w).2) := by
      unfold Provider.litellmAttempt
      rw [Prog.run_tryCatch, run_read hm]
    cases p.maxRetries with
    | zero => exact hattempt _
    | succ n => exact hattempt _
  | openaiCompatible =>
    intro h
    obtain ⟨m, hm, hcontent⟩ := h w.log.length prompt
    refine ⟨m, (llmStep out t (.httpPost p prompt) w).2, ?_, hcontent, rfl⟩
    have honce : (p.requestOnce env prompt).run (llmStep out t) w =
        (.ok m, (llmStep out t (.httpPost p prompt) w).2) := run_read hm
    cases p.maxRetries with
    | zero => exact honce
    | succ n =>
      unfold Provider.openaiLoop
      rw [Prog.run_tryCatch, honce]

theorem run_checkBudget (prompt : String) :
    ∃ budget w', (LLMBudgetManager.checkBudget env prompt).run (llmStep out t) w = (.ok budget, w') ∧
      w'.db = w.db := by
  unfold LLMBudgetManager.checkBudget LLMBudgetManager.scopeKey
  dsimp only
  repeat' split
  all_goals exact ⟨_, _, rfl, rfl⟩

theorem run_charge (metadata : Option LLMGenerateMetadata) :
    ∃ w', (NL2SQLPipeline.charge env metadata).run (llmStep out t) w = (.ok (), w') ∧
      w'.db.nl2sqlCache = w.db.nl2sqlCache := by
  cases metadata with
  | none => exact ⟨w, rfl, rfl⟩
  | some m =>
    unfold NL2SQLPipeline.charge LLMBudgetManager.recordUsage LLMBudgetManager.scopeKey
    repeat' split
    all_goals exact ⟨_, rfl, rfl⟩

theorem run_getNl2sql_empty (key : String) (h : ∀ key, w.db.nl2sqlCache key = none) :
    ∃ w', (LLMResultCache.getNl2sql env key).run (llmStep out t) w = (.ok none, w') := by
  unfold LLMResultCache.getNl2sql
  split
  · exact ⟨w, rfl⟩
  · refine ⟨(llmStep out t (.getNl2sql key (out.clock w.log.length)) (llmStep out t .now w).2).2, ?_⟩
    have hmiss : (llmStep out t (.getNl2sql key (out.clock w.log.length)) (llmStep out t .now w).2).1 = .ok none := by
      show (llmExec out _ _ w.db).1 = _
      simp only [llmExec, h]
    rw [Prog.run_bind, Llm.now, Llm.perform, Prog.run_call]
    show (Llm.perform (.getNl2sql key (out.clock w.log.length))).run (llmStep out t) (llmStep out t .now w).2 = _
    rw [Llm.perform, Prog.run_call]
    exact Prod.ext hmiss rfl

theorem run_setNl2sql (key : String) (o : GenOutput) :
    ∃ id w', (LLMResultCache.setNl2sql env key o).run (llmStep out t) w = (.ok id, w') := by
  unfold LLMResultCache.setNl2sql LLMResultCache.expireAt
  dsimp only
  repeat' split
  all_goals exact ⟨_, _, rfl⟩

theorem run_mockGenerate (query : String) (schema : DatabaseSchema) :
    ∃ r w', (MockNL2SQLGenerator.generate env.unicode query schema).run (llmStep out t) w = (.ok r, w') := by
  unfold MockNL2SQLGenerator.generate
  dsimp only
  split
  · exact ⟨_, w, rfl⟩
  · exact ⟨_, _, rfl⟩

/-- The generator with a healthy provider whose text is accepted. -/
theorem run_llmGenerate (ftm : Bool) (h : Healthy env content out a.prov)
    (haccepts : ∀ m, m.content = content (a.prompt env) → ∃ r, a.accepted? env m = some r) :
    ∃ r m w', (LLMNL2SQLGenerator.generate env a.prov ftm a.query a.schema).run (llmStep out t) w =
        (.ok (r, some m), w') ∧ m.content = content (a.prompt env) ∧ a.accepted? env m = some r ∧
      w'.db = w.db := by
  obtain ⟨m, w', hrun, hcontent, hdb⟩ := run_generateWithMetadata (a.prompt env) h
  obtain ⟨r, hr⟩ := haccepts m hcontent
  refine ⟨r, m, w', ?_, hcontent, hr, hdb⟩
  have hparse : LLMNL2SQLGenerator.parseResponse env a.query a.pruned m a.prov.name = .ok (.accepted r) := by
    unfold Ask.accepted? at hr
    split at hr
    · rename_i result hresult
      cases hr
      exact hresult
    · cases hr
  have huse : (LLMNL2SQLGenerator.useReply env ftm a.query a.schema a.pruned a.prov.name m).run (llmStep out t) w' =
      (.ok r, w') := by
    unfold LLMNL2SQLGenerator.useReply
    rw [hparse]
    rfl
  unfold LLMNL2SQLGenerator.generate Llm.attempt
  rw [Prog.run_bind, Prog.run_tryCatch, Prog.run_bind]
  have hrun : (a.prov.generateWithMetadata env
      (LLMNL2SQLGenerator.renderPrompt env a.query (SchemaPruner.prune a.query a.schema))).run (llmStep out t) w =
      (.ok m, w') := hrun
  rw [hrun]
  show (Prog.run (llmStep out t) (tryCatch (LLMNL2SQLGenerator.useReply env ftm a.query a.schema a.pruned
    a.prov.name m) _ >>= fun result => pure (result, some m)) w') = _
  rw [Prog.run_bind, Prog.run_tryCatch, huse]
  rfl

/-- A generation with an empty cache: refused by the budget, or the record of an accepted reply. -/
theorem run_generateWith (hquery : a.query = call.query) (h : Healthy env content out a.prov)
    (haccepts : ∀ m, m.content = content (a.prompt env) → ∃ r, a.accepted? env m = some r)
    (hempty : ∀ key, w.db.nl2sqlCache key = none) :
    ∃ o id w', (NL2SQLPipeline.generateWith env call a.schema a.prov).run (llmStep out t) w = (.ok (o, id), w') ∧
      ((∀ b ∈ o.budgetStatus, b.allowed = true) → ∃ m r budget, m.content = content (a.prompt env) ∧
        a.accepted? env m = some r ∧ o = NL2SQLPipeline.outputOf r (some m) budget) := by
  obtain ⟨budget, w₁, hbudget, hdb₁⟩ := @run_checkBudget env out t w call.query
  unfold NL2SQLPipeline.generateWith
  rw [Prog.run_bind, hbudget]
  dsimp only
  by_cases hallowed : budget.allowed = true
  · rw [hallowed, Bool.not_true, if_neg (by decide)]
    rw [← hdb₁] at hempty
    obtain ⟨w₂, hget⟩ := @run_getNl2sql_empty env out t w₁
      (NL2SQLPipeline.cacheKey env call.query a.schema a.prov.name (NL2SQLPipeline.providerModel env a.prov)) hempty
    rw [Prog.run_bind, hget]
    dsimp only
    obtain ⟨r, m, w₃, hgen, hcontent, hr, -⟩ := @run_llmGenerate env a out t w₂ content call.fallbackToMock h haccepts
    unfold NL2SQLPipeline.generateFresh
    rw [← hquery, Prog.run_bind, hgen]
    dsimp only
    obtain ⟨w₄, hcharge, -⟩ := @run_charge env out t w₃ (some m)
    rw [Prog.run_bind, hcharge]
    dsimp only
    split
    · obtain ⟨id, w₅, hset⟩ := @run_setNl2sql env out t w₄
        (NL2SQLPipeline.cacheKey env a.query a.schema a.prov.name (NL2SQLPipeline.providerModel env a.prov))
        (NL2SQLPipeline.outputOf r (some m) (some budget))
      rw [Prog.run_bind, Prog.run_tryCatch, hset]
      exact ⟨_, id, w₅, rfl, fun _ => ⟨m, r, some budget, hcontent, hr, rfl⟩⟩
    · exact ⟨_, none, w₄, rfl, fun _ => ⟨m, r, some budget, hcontent, hr, rfl⟩⟩
  · have hno : budget.allowed = false := by simpa using hallowed
    rw [hno, Bool.not_false, if_pos rfl]
    split
    · unfold NL2SQLPipeline.mockFallback
      obtain ⟨r, w₂, hmock⟩ := @run_mockGenerate env out t w₁ call.query a.schema
      rw [Prog.run_bind, Prog.run_bind, hmock]
      exact ⟨_, none, w₂, rfl, fun hb => absurd (hb budget rfl) hallowed⟩
    · exact ⟨_, none, w₁, rfl, fun hb => absurd (hb budget rfl) hallowed⟩

/-- **The uncached call** of a task whose text is accepted. -/
theorem run_preview_uncached {req : LlmRequest} {log : List LlmEvent} (hcall : req.nl2sqlCall = some call)
    (hask : req.ask env log = some a) (h : Healthy env content out a.prov)
    (haccepts : ∀ m, m.content = content (a.prompt env) → ∃ r, a.accepted? env m = some r)
    (hschema : out.schema w.log.length = .ok a.schema) (hempty : ∀ key, w.db.nl2sqlCache key = none) :
    ∃ p, ((NL2SQLPipeline.preview env call).run (llmStep out t) w).1 = .ok p ∧
      ((∀ b ∈ p.output.budgetStatus, b.allowed = true) → ∃ m r budget, m.content = content (a.prompt env) ∧
        a.accepted? env m = some r ∧ (NL2SQLPipeline.outputOf r (some m) budget).Same p.output ∧
        p.success = p.output.guardAllowed ∧ p.fallback = !p.output.guardAllowed) := by
  obtain ⟨call', hcall', hllm, hquery, hprov⟩ := LlmRequest.ask_eq hask
  obtain rfl : call = call' := Option.some.inj (hcall.symm.trans hcall')
  have hextract : (Llm.perform .extractSchema : Llm DatabaseSchema).run (llmStep out t) w =
      (.ok a.schema, (llmStep out t .extractSchema w).2) := by
    rw [Llm.perform, Prog.run_call]
    exact Prod.ext hschema rfl
  have hempty : ∀ key, (llmStep out t .extractSchema w).2.db.nl2sqlCache key = none := hempty
  obtain ⟨o, id, w₂, hgen, hallowed⟩ := run_generateWith (t := t) hquery h haccepts hempty
  unfold NL2SQLPipeline.preview NL2SQLPipeline.generate
  rw [Prog.run_bind, hextract]
  dsimp only
  rw [if_pos hllm, hprov]
  dsimp only
  rw [Prog.run_bind, hgen]
  dsimp only
  generalize GuardrailsEngine.sanitizeResponse env.unicode o.reasoning = guard
  cases id with
  | none =>
    refine ⟨_, rfl, fun hb => ?_⟩
    obtain ⟨m, r, budget, hcontent, hr, rfl⟩ := hallowed hb
    exact ⟨m, r, budget, hcontent, hr, sanitized_same _ _, rfl, rfl⟩
  | some id =>
    refine ⟨_, rfl, fun hb => ?_⟩
    obtain ⟨m, r, budget, hcontent, hr, rfl⟩ := hallowed hb
    exact ⟨m, r, budget, hcontent, hr, sanitized_same _ _, rfl, rfl⟩

end Uncached

/-! ## Runs -/

section Runs

variable {env : LlmEnv} {out : LlmOutside} {reqs : Nat → LlmRequest} {a a' : Ask} {content : String → String}

/-- A reply of a deterministic provider is its text for the prompt. -/
theorem replies_content {w : LlmWorld} {log : List LlmEvent} {t : Nat} {m : LLMGenerateMetadata}
    (h : CacheInv env reqs out w) (hsub : log ⊆ w.log) (hdet : Deterministic env content out a.prov)
    (hfake : a.prov.kind = .fake → env.fakeContent (a.prompt env) = content (a.prompt env))
    (hm : m ∈ a.replies env (own t log)) : m.content = content (a.prompt env) := by
  unfold Ask.replies at hm
  by_cases hkind : a.prov.kind = .fake
  · rw [if_pos hkind, List.mem_singleton] at hm
    rw [hm]
    exact hfake hkind
  · rw [if_neg hkind] at hm
    obtain ⟨e, he, hread⟩ := List.mem_filterMap.mp hm
    have hout := h.outside e (hsub (mem_own he))
    unfold Ask.reply? at hread
    split at hread
    · rename_i p text response
      obtain ⟨n, hn⟩ := hout
      split at hread
      · rename_i hsame
        obtain ⟨rfl, rfl⟩ := hsame
        refine hdet.litellm n _ m ?_
        rw [← hn]
        cases hr : Provider.normalizeResponse a.prov response with
        | error e =>
          rw [hr] at hread
          cases hread
        | ok m' =>
          rw [hr] at hread
          cases hread
          exact hr
      · cases hread
    · rename_i p text response
      obtain ⟨n, hn⟩ := hout
      split at hread
      · rename_i hsame
        obtain ⟨rfl, rfl⟩ := hsame
        refine hdet.http n _ m ?_
        rw [← hn]
        cases hr : Provider.readHttpResponse env a.prov response with
        | error e =>
          rw [hr] at hread
          cases hread
        | ok m' =>
          rw [hr] at hread
          cases hread
          exact hr
      · cases hread
    · cases hread

theorem Ask.accepted_allowed {m : LLMGenerateMetadata} {r : NL2SQLResult} (h : a.accepted? env m = some r) :
    r.guardResult.allowed = true := by
  unfold accepted? LLMNL2SQLGenerator.parseResponse at h
  split at h
  · rename_i result hresult
    cases h
    split at hresult
    · split at hresult <;> cases hresult
    · obtain ⟨-, -, -, -, hallowed, -⟩ := parseObject_accepted (Except.ok.inj hresult)
      exact hallowed
    · cases hresult
  · cases h

/-- An uncached call that accepts the text of the stored generation returns the stored record. -/
theorem asUncached_of_stored {w : LlmWorld} {pre log : List LlmEvent} {t t' : Nat} {call : Nl2sqlCall}
    {p : PreviewResult} {o : GenOutput} (h : CacheInv env reqs out w) (hsub : pre ⊆ w.log)
    (hcall : (reqs t).nl2sqlCall = some call) (hask : askOf env reqs t log = some a) (htask : a.SameTask a')
    (hprompt : a'.prompt env = a.prompt env) (hgen : a'.Generated env (own t' pre) o) (hsame : o.Same p.output)
    (hsuccess : p.success = p.output.guardAllowed) (hfallback : p.fallback = !p.output.guardAllowed) :
    AsUncached env out call a p := by
  intro content hdet out' u w' hhealthy hschema hempty
  obtain ⟨m', hm', r', hr', budget', rfl⟩ := hgen
  have hcontent : m'.content = content (a.prompt env) := by
    rw [← hprompt]
    refine replies_content h hsub (htask.prov ▸ hdet) (fun hkind => ?_) hm'
    unfold Healthy at hhealthy
    rw [htask.prov, hkind] at hhealthy
    exact hhealthy _
  have haccepts (m : LLMGenerateMetadata) (hm : m.content = content (a.prompt env)) :
      ∃ r, a.accepted? env m = some r := by
    obtain ⟨r, hr, -⟩ := htask.accepted (hm.trans hcontent.symm) hr'
    exact ⟨r, hr⟩
  obtain ⟨p', hrun, hallowed⟩ := run_preview_uncached (t := u) hcall hask hhealthy haccepts hschema hempty
  refine ⟨p', hrun, fun hb => ?_⟩
  obtain ⟨m, r, budget, hm, hr, hsame', hsuccess', hfallback'⟩ := hallowed hb
  obtain ⟨r₁, hr₁, hrecord⟩ := htask.accepted (hm.trans hcontent.symm) hr'
  obtain rfl : r = r₁ := Option.some.inj (hr.symm.trans hr₁)
  have hfinal : p'.output.Same p.output := (hsame'.symm.trans (hrecord budget budget')).trans hsame
  refine ⟨?_, ?_, hfinal⟩
  · rw [hsuccess, hsuccess', hfinal.guardAllowed]
  · rw [hfallback, hfallback', hfinal.guardAllowed]

/-- **Cache transparency.**  Without collisions of the hashes, in every run whose calls without a fallback
store accepted replies only, and whose lookups find entries of the same prompt, every hit is a success of an
earlier call for the same task, and what an uncached call would return. -/
theorem cache_transparent (env : LlmEnv) (out : LlmOutside) (reqs : Nat → LlmRequest) (sched : List Nat)
    (hstable : Function.Injective env.stableHash) (hschema : Function.Injective env.schemaHash)
    (hstores : Conf.Meets (llmStep out) (StoresSuccess env reqs) (LlmConf.start env reqs) sched)
    (hfinds : Conf.Meets (llmStep out) (FindsSamePrompt env reqs) (LlmConf.start env reqs) sched) :
    HitsTransparent env out reqs sched := by
  have hinit : CacheInv env reqs out (LlmConf.start env reqs).world :=
    ⟨fun t key expireAt o id h => absurd h List.not_mem_nil, fun key entry h => (by cases h),
      fun pre post t key now c h => absurd h.symm (List.append_ne_nil_of_right_ne_nil _ (List.cons_ne_nil _ _)),
      fun e h => absurd h List.not_mem_nil⟩
  have hrun : CacheInv env reqs out (LlmConf.after env out reqs sched).world ∧
      ∀ t r, (LlmConf.after env out reqs sched).outcome t = some r → ∀ o p, r = .ok o → o.preview? = some p →
        ReturnsPreview t (.ok p) (own t (LlmConf.after env out reqs sched).world.log) := by
    refine Conf.run_own ?_ hinit (fun t => wp_code_filed (reqs t)) (Conf.Meets.and hstores hfinds)
    rintro c t o hI hmay ⟨hs, hf⟩
    exact cacheInv_step hI hmay hs hf
  obtain ⟨hinv, hout⟩ := hrun
  intro t o p houtcome hp hhit
  obtain ⟨hsuccess, hfallback, hlookup⟩ := hout t _ houtcome o p rfl hp p rfl
  obtain ⟨key, now, c, hmem, hcp⟩ := hlookup hhit
  obtain ⟨pre, post, hlog⟩ := List.append_of_mem (mem_own hmem)
  obtain ⟨a, ha, hkey, t', expireAt, o', id, a', hset, ha', hkey', hgen, hoc, hprompt⟩ :=
    hinv.found pre post t key now c hlog
  have htask : a.SameTask a' := Ask.sameTask_of_key hstable hschema ha ha' (hkey.symm.trans hkey')
  have hsame : o'.Same p.output := hoc.trans hcp
  have hpre : pre <+: (LlmConf.after env out reqs sched).world.log := hlog ▸ List.prefix_append _ _
  obtain ⟨call, hcall, -⟩ := LlmRequest.ask_eq ha
  refine ⟨?_, call, a, hcall, askOf_mono ha hpre, ?_, ?_⟩
  · obtain ⟨m', -, r', hr', budget', rfl⟩ := hgen
    rw [hsuccess, ← hsame.guardAllowed]
    exact Ask.accepted_allowed hr'
  · exact ⟨pre, key, now, c, post, hlog, t', expireAt, o', id, a', hset, ha',
      ⟨htask.query.symm, htask.schema.symm, htask.prov.symm⟩, hgen, hsame⟩
  · exact asUncached_of_stored hinv hpre.subset hcall ha htask hprompt hgen hsame hsuccess hfallback

end Runs

/-! ## Two calls with the same question -/

instance (env : LlmEnv) (reqs : Nat → LlmRequest) (c : LlmConf) (t : Nat) (o : LlmOp) :
    Decidable (StoresSuccess env reqs c t o) :=
  match o with
  | .setNl2sql _ _ _ => by unfold StoresSuccess; infer_instance
  | .now | .today | .readCost _ | .addUsage _ | .getNl2sql _ _ | .updateObject _ _ | .getJudge _ _
  | .setJudge _ _ _ | .litellmCompletion _ _ | .httpPost _ _ | .extractSchema | .query _ => instDecidableTrue

instance (env : LlmEnv) (reqs : Nat → LlmRequest) (c : LlmConf) (t : Nat) (o : LlmOp) :
    Decidable (FindsSamePrompt env reqs c t o) :=
  match o with
  | .getNl2sql _ _ => by unfold FindsSamePrompt; infer_instance
  | .now | .today | .readCost _ | .addUsage _ | .setNl2sql _ _ _ | .updateObject _ _ | .getJudge _ _
  | .setJudge _ _ _ | .litellmCompletion _ _ | .httpPost _ _ | .extractSchema | .query _ => instDecidableTrue

/-- A code that can be read back, whatever follows it. -/
def Readable {α : Type} (code : α → List Char) : Prop :=
  ∀ a a' rest rest', code a ++ rest = code a' ++ rest' → a = a' ∧ rest = rest'

/-- A text with a mark before every character, and one at the end. -/
def codeText (text : String) : List Char := text.toList.flatMap (fun c => ['+', c]) ++ ['.']

def codePair {α β : Type} (code : α → List Char) (code' : β → List Char) (x : α × β) : List Char :=
  code x.1 ++ code' x.2

def codeList {α : Type} (code : α → List Char) (l : List α) : List Char :=
  l.flatMap (fun a => '+' :: code a) ++ ['.']

theorem readable_list {α : Type} {code : α → List Char} (h : Readable code) : Readable (codeList code) := by
  unfold codeList
  intro l
  induction l with
  | nil =>
    rintro (_ | ⟨a', l'⟩) rest rest' heq
    · exact ⟨rfl, (List.cons.inj heq).2⟩
    · exact absurd (List.cons.inj heq).1 (by decide)
  | cons a l ih =>
    rintro (_ | ⟨a', l'⟩) rest rest' heq
    · exact absurd (List.cons.inj heq).1 (by decide)
    · simp only [List.flatMap_cons, List.cons_append, List.append_assoc, List.cons.injEq, true_and] at heq
      obtain ⟨rfl, htail⟩ := h _ _ _ _ heq
      obtain ⟨rfl, hrest⟩ := ih l' rest rest' (by simpa using htail)
      exact ⟨rfl, hrest⟩

theorem readable_pair {α β : Type} {code : α → List Char} {code' : β → List Char} (h : Readable code)
    (h' : Readable code') : Readable (codePair code code') := by
  rintro ⟨a, b⟩ ⟨a', b'⟩ rest rest' heq
  simp only [codePair, List.append_assoc] at heq
  obtain ⟨rfl, htail⟩ := h _ _ _ _ heq
  obtain ⟨rfl, hrest⟩ := h' _ _ _ _ htail
  exact ⟨rfl, hrest⟩

theorem readable_text : Readable codeText := by
  have hchar : Readable fun c : Char => [c] := by
    rintro c c' rest rest' heq
    exact ⟨(List.cons.inj heq).1, (List.cons.inj heq).2⟩
  intro text text' rest rest' heq
  obtain ⟨hchars, hrest⟩ := readable_list hchar text.toList text'.toList rest rest' heq
  exact ⟨String.toList_inj.mp hchars, hrest⟩

theorem injective_of_readable {α : Type} {code : α → List Char} (h : Readable code) :
    Function.Injective fun a => String.ofList (code a) := by
  intro a a' heq
  have hcode : code a = code a' := String.ofList_injective heq
  exact (h a a' [] [] (by rw [hcode])).1

/-- The process of the sample without budgets, with hashes that do not collide. -/
def LlmEnv.hashed : LlmEnv :=
  { LlmEnv.sample { LlmSettings.sample with budgetEnabled := false } with
    stableHash := fun parts => String.ofList (codeList codeText parts)
    schemaHash := fun tables =>
      String.ofList (codeList (codePair codeText (codeList (codePair codeText codeText))) tables) }

/-- An empty database, and an endpoint. -/
def LlmOutside.schemaless (http : Nat → Except Raised HttpResponse) : LlmOutside :=
  { LlmOutside.sample http with schema := fun _ => .ok ⟨[], "demo.db"⟩ }

/-- Two threads ask the same question, the second after the first has been answered. -/
def askedTwice (http : Nat → Except Raised HttpResponse) : LlmConf :=
  LlmConf.after .hashed (.schemaless http) (fun _ => .preview ⟨"q", "llm", none, false⟩)
    (List.replicate 9 0 ++ List.replicate 9 1)

/-- The second thread is answered from the cache, with this success. -/
def answersHit (c : LlmConf) (success : Bool) : Bool :=
  match c.outcome 1 with
  | some (.ok (.previewed p)) => p.output.cacheHit && p.success == success
  | _ => false

theorem exists_of_answersHit {c : LlmConf} {success : Bool} (h : answersHit c success = true) :
    ∃ p, c.outcome 1 = some (.ok (.previewed p)) ∧ p.output.cacheHit = true ∧ p.success = success := by
  unfold answersHit at h
  split at h
  · rename_i p hp
    obtain ⟨hhit, hsuccess⟩ := Bool.and_eq_true _ _ |>.mp h
    exact ⟨p, hp, hhit, beq_iff_eq.mp hsuccess⟩
  · cases h

/-- The provider answers; the second thread is answered from the cache. -/
theorem cache_transparent_demo :
    (∃ p, (askedTwice fun _ => .ok (.sample "generation" 1 1)).outcome 1 = some (.ok (.previewed p)) ∧
      p.output.cacheHit = true ∧ p.success = true) ∧
    HitsTransparent .hashed (.schemaless fun _ => .ok (.sample "generation" 1 1))
      (fun _ => .preview ⟨"q", "llm", none, false⟩) (List.replicate 9 0 ++ List.replicate 9 1) :=
  ⟨exists_of_answersHit (by decide +kernel),
    cache_transparent .hashed _ _ _ (injective_of_readable (readable_list readable_text))
      (injective_of_readable (readable_list (readable_pair readable_text
        (readable_list (readable_pair readable_text readable_text)))))
      (by decide +kernel) (by decide +kernel)⟩

/-- The provider times out in the first call, and the failure is served to the second. -/
theorem failed_generation_served :
    ¬ HitsTransparent .hashed (.schemaless fun _ => .error ⟨"ProviderTimeoutError", "timed out"⟩)
      (fun _ => .preview ⟨"q", "llm", none, false⟩) (List.replicate 9 0 ++ List.replicate 9 1) := by
  intro h
  have hhit : ∃ p, (askedTwice fun _ => .error ⟨"ProviderTimeoutError", "timed out"⟩).outcome 1 =
      some (.ok (.previewed p)) ∧ p.output.cacheHit = true ∧ p.success = false :=
    exists_of_answersHit (by decide +kernel)
  obtain ⟨p, hp, hcache, hfailed⟩ := hhit
  have hsuccess := (h 1 _ p hp rfl hcache).1
  exact Bool.noConfusion (hfailed.symm.trans hsuccess)

end AgentHarness
