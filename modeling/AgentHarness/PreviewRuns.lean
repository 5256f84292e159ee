import AgentHarness.GuardFixpoint
import AgentHarness.GuardedSql

/-!
# PreviewRuns — the SQL that is previewed is the SQL that runs

The pipeline checks SQL when it is generated, the executor checks it again before it runs.  By `check_fixed`
the second check changes nothing, so that the database is asked for what the preview shows.
-/

namespace AgentHarness

open Lib

/-- Everything but the query of the executor. -/
def IsUnasked (o : LlmOp) : Prop := ∀ sql, o ≠ .query sql

section Unasked

variable {env : LlmEnv}

theorem isUnasked_of_isAsk {o : LlmOp} (h : isAsk o) : IsUnasked o := by
  rintro sql rfl
  exact h

theorem isUnasked_of_isCheck {o : LlmOp} (h : isCheck o) : IsUnasked o := by
  rintro sql rfl
  exact h

theorem isUnasked_of_isCharge {o : LlmOp} (h : isCharge o) : IsUnasked o := by
  rintro sql rfl
  exact h

theorem generateFresh_unasked (call : Nl2sqlCall) (schema : DatabaseSchema) (prov : Provider)
    (budget : BudgetDecision) : (NL2SQLPipeline.generateFresh env call schema prov budget).Uses IsUnasked := by
  unfold NL2SQLPipeline.generateFresh
  refine Prog.Uses.bind (llmGenerate_uses (fun _ => isUnasked_of_isAsk) nofun _ _ _ _) fun result => ?_
  refine Prog.Uses.bind ?_ fun _ => ?_
  · unfold NL2SQLPipeline.charge
    split
    · trivial
    · refine Prog.Uses.tryCatch ?_ fun _ => trivial
      exact (recordUsage_uses _ _ _ _ _ _).mono fun _ => isUnasked_of_isCharge
  · dsimp only
    split
    · refine Prog.Uses.bind (Prog.Uses.tryCatch ?_ fun _ => trivial) fun _ => trivial
      exact setNl2sql_uses nofun (fun _ _ _ _ => nofun) _ _
    · trivial

theorem generate_unasked (call : Nl2sqlCall) (schema : DatabaseSchema) :
    (NL2SQLPipeline.generate env call schema).Uses IsUnasked := by
  have hwith : ∀ prov, (NL2SQLPipeline.generateWith env call schema prov).Uses IsUnasked := by
    intro prov
    unfold NL2SQLPipeline.generateWith
    refine Prog.Uses.bind ((checkBudget_uses _).mono fun _ => isUnasked_of_isCheck) fun budget => ?_
    split
    · split
      · exact Prog.Uses.bind (mockFallback_uses nofun _ _ _ _ _ _) fun _ => trivial
      · trivial
    · refine Prog.Uses.bind (getNl2sql_uses nofun (fun _ _ _ => nofun) _) fun cached => ?_
      cases cached with
      | some cached => trivial
      | none => exact generateFresh_unasked _ _ _ _
  unfold NL2SQLPipeline.generate
  split
  · split
    · trivial
    · split
      · exact Prog.Uses.bind (mockFallback_uses nofun _ _ _ _ _ _) fun _ => trivial
      · trivial
    · exact hwith _
  · exact Prog.Uses.bind (mockGenerate_uses nofun _ _) fun _ => trivial

theorem preview_unasked (call : Nl2sqlCall) : (NL2SQLPipeline.preview env call).Uses IsUnasked := by
  unfold NL2SQLPipeline.preview
  refine Prog.Uses.bind (Prog.uses_call.mpr nofun) fun schema => ?_
  refine Prog.Uses.bind (generate_unasked call schema) fun result => ?_
  dsimp only
  split
  · exact Prog.Uses.bind (Prog.uses_call.mpr nofun) fun _ => trivial
  · trivial

end Unasked

/-! ## A run asks for what the executor's check makes of the preview -/

/-- The database was asked, and the execution reports, what the executor's check made of the previewed SQL; if the
SQL was not allowed, the execution reports the preview. -/
structure AsksChecked (env : LlmEnv) (r : RunResult) (events : List LlmEvent) : Prop where
  asked : ∀ e ∈ events, ∀ sql, e.op = .query sql → r.preview.output.guardAllowed = true ∧
    sql = (SQLGuard.check env.unicode r.preview.output.sql).sql
  executed : r.execution.sql = r.preview.output.sql ∨ r.preview.output.guardAllowed = true ∧
    r.execution.sql = (SQLGuard.check env.unicode r.preview.output.sql).sql

section Run

variable {env : LlmEnv} {t : Nat}

/-- A thread that may do anything. -/
def ownAny (t : Nat) : Machine LlmOp LlmAns Raised (List LlmEvent) := Machine.own (fun _ _ => True) t

def NoQuery (events : List LlmEvent) : Prop := ∀ e ∈ events, ∀ sql, e.op ≠ .query sql

theorem wp_unasked {α : Type} {p : Llm α} (hu : p.Uses IsUnasked) {events : List LlmEvent} (h : NoQuery events) :
    wp (ownAny t) p (fun _ events' => NoQuery events') events := by
  refine wp_of_keeps (P := IsUnasked) ?_ hu h
  intro o ho events h
  refine ⟨trivial, fun r events' hstep => ?_⟩
  have hstep : events' = events ++ [⟨t, o, r⟩] := hstep
  rw [hstep]
  intro e he
  rcases List.mem_append.mp he with he | he
  · exact h e he
  · rw [List.mem_singleton.mp he]
    exact ho

/-- The queries are for `sql`. -/
def QueriesOnly (sql : String) (events : List LlmEvent) : Prop :=
  ∀ e ∈ events, ∀ sql', e.op = .query sql' → sql' = sql

theorem wp_executed (dbPath sql : String) {events : List LlmEvent} (h : NoQuery events) :
    wp (ownAny t) (SQLiteReadOnlyExecutor.execute env.unicode dbPath sql) (fun r events' =>
      ∀ x, r = .ok x → QueriesOnly (SQLGuard.check env.unicode sql).sql events' ∧
        (x.sql = sql ∨ x.sql = (SQLGuard.check env.unicode sql).sql)) events := by
  have hnone : QueriesOnly (SQLGuard.check env.unicode sql).sql events := fun e he sql' hop => absurd hop (h e he sql')
  unfold SQLiteReadOnlyExecutor.execute
  dsimp only
  split
  · rintro x ⟨⟩
    exact ⟨hnone, .inl rfl⟩
  · refine wp_seq
      (wp_attempt (Q := fun _ events' => QueriesOnly (SQLGuard.check env.unicode sql).sql events')
        (wp_call.mpr ⟨trivial, ?_⟩)) ?_ ?_
    · intro r events' hstep
      have hstep : events' = events ++ [⟨t, .query (SQLGuard.check env.unicode sql).sql, r⟩] := hstep
      rw [hstep]
      intro e he sql' hop
      rcases List.mem_append.mp he with he | he
      · exact hnone e he sql' hop
      · rw [List.mem_singleton.mp he] at hop
        exact (LlmOp.query.inj hop).symm
    · rintro (exc | _ | ⟨columns, rows⟩) events' ⟨r', -, hqueries⟩ x ⟨⟩ <;> exact ⟨hqueries, .inr rfl⟩
    · exact fun e events' _ x hx => nomatch hx

theorem wp_finish (dbPath : String) (call : Nl2sqlCall) (p : PreviewResult) {events : List LlmEvent}
    (h : NoQuery events) : wp (ownAny t) (NL2SQLPipeline.finish env dbPath call p)
      (fun r events' => ∀ result, r = .ok result → AsksChecked env result events') events := by
  unfold NL2SQLPipeline.finish
  split
  · rename_i hcond
    have hallowed : p.output.guardAllowed = true := (Bool.and_eq_true _ _ |>.mp hcond).1
    refine wp_seq (wp_executed dbPath p.output.sql h) ?_ fun e events' _ x hx => nomatch hx
    rintro execution events' hexec result ⟨⟩
    obtain ⟨hqueries, hsql⟩ := hexec execution rfl
    exact ⟨fun e he sql hop => ⟨hallowed, hqueries e he sql hop⟩, hsql.imp_right fun hsql => ⟨hallowed, hsql⟩⟩
  · rintro result ⟨⟩
    exact ⟨fun e he sql hop => absurd hop (h e he sql), .inl rfl⟩

/-- Only a run of the pipeline ends in a result of a run. -/
theorem wp_ran (req : LlmRequest) : wp (ownAny t) (req.code env)
    (fun r events' => ∀ result, r = .ok (.ran result) → AsksChecked env result events') [] := by
  have hstart : NoQuery [] := fun e he => absurd he List.not_mem_nil
  have hany : ∀ {α : Type} (p : Llm α) {events : List LlmEvent}, wp (ownAny t) p (fun _ _ => True) events :=
    fun p _ => wp_of_keeps (fun _ _ _ _ => ⟨trivial, fun _ _ _ => trivial⟩) (Prog.uses_true p) trivial
  have hfails : ∀ {events : List LlmEvent} (e : Raised) (result : RunResult),
      (.error e : Except Raised LlmOutcome) = .ok (.ran result) → AsksChecked env result events :=
    fun _ _ hx => nomatch hx
  cases req with
  | generate prov fallbackToMock query schema =>
    refine wp_seq (hany _) ?_ fun e _ _ => hfails e
    rintro ⟨result, metadata⟩ _ - _ ⟨⟩
  | preview call =>
    refine wp_seq (hany _) ?_ fun e _ _ => hfails e
    rintro p _ - _ ⟨⟩
  | judge j input =>
    refine wp_seq (hany _) ?_ fun e _ _ => hfails e
    rintro r _ - _ ⟨⟩
  | run dbPath call =>
    refine wp_seq (wp_seq (wp_unasked (preview_unasked call) hstart) (fun p events h => wp_finish dbPath call p h) ?_)
      ?_ ?_
    · exact fun e events' _ result hx => nomatch hx
    · rintro r events' h result ⟨⟩
      exact h r rfl
    · exact fun e _ _ => hfails e

end Run

/-! ## Runs -/

/-- **The SQL that is previewed is the SQL that runs.**  The guard returns a fixed point of itself.  For any
requests on one process, any answers from outside and every interleaving, a run of the pipeline reports the
execution of the SQL that its preview shows, and asks the database for nothing else. -/
theorem previewed_sql_runs (env : LlmEnv) (hu : SpaceLaws env.unicode) :
    (∀ sql, (SQLGuard.check env.unicode sql).allowed = true →
      SQLGuard.check env.unicode (SQLGuard.check env.unicode sql).sql =
        ⟨true, (SQLGuard.check env.unicode sql).sql, ""⟩) ∧
    ∀ (out : LlmOutside) (reqs : Nat → LlmRequest) (sched : List Nat) (t : Nat) (r : RunResult),
      (LlmConf.after env out reqs sched).outcome t = some (.ok (.ran r)) →
      r.execution.sql = r.preview.output.sql ∧
      ∀ e ∈ (LlmConf.after env out reqs sched).world.log, e.tid = t → ∀ sql, e.op = .query sql →
        sql = r.preview.output.sql := by
  refine ⟨fun sql => SQLGuard.check_fixed hu, fun out reqs sched t r hr => ?_⟩
  have hchecked : AsksChecked env r (own t (LlmConf.after env out reqs sched).world.log) := by
    have hmeets : Conf.Meets (Logged.exec fun log _ o db => llmExec out log o db) (fun _ _ _ => True)
        (LlmConf.start env reqs) sched := Conf.meets_of_forall (fun _ _ _ => trivial) _ sched
    have hthreads : ∀ t, wp (Machine.own (fun _ _ => True) t) ((LlmConf.start env reqs).threads t)
        (fun res events => ∀ result, res = .ok (.ran result) → AsksChecked env result events)
        (own t (LlmConf.start env reqs).world.log) := fun t => wp_ran (reqs t)
    exact (Conf.run_own (I := fun _ => True) (fun _ _ _ _ _ _ => trivial) trivial hthreads hmeets).2 t _ hr r rfl
  have hsame : r.preview.output.guardAllowed = true →
      (SQLGuard.check env.unicode r.preview.output.sql).sql = r.preview.output.sql := by
    intro hallowed
    have hsound := (sqlInv_after env out reqs sched).2 t _ hr
    obtain ⟨s, hs, heq⟩ : Guarded env r.preview.output.sql := by
      cases hreq : reqs t with
      | run dbPath call =>
        rw [hreq] at hsound
        exact hsound.guarded hallowed
      | generate | preview | judge =>
        rw [hreq] at hsound
        exact hsound.elim
    rw [heq, SQLGuard.check_fixed hu hs]
  refine ⟨?_, fun e he ht sql hop => ?_⟩
  · rcases hchecked.executed with h | ⟨hallowed, h⟩
    · exact h
    · rw [h, hsame hallowed]
  · have hown : e ∈ own t (LlmConf.after env out reqs sched).world.log :=
      List.mem_filter.mpr ⟨he, by rw [ht]; exact beq_self_eq_true t⟩
    obtain ⟨hallowed, hsql⟩ := hchecked.asked e hown sql hop
    rw [hsql, hsame hallowed]

/-- The limit is appended once. -/
theorem previewed_sql_runs_plain :
    SQLGuard.check .plain (SQLGuard.check .plain " select id from t ; ").sql =
      ⟨true, "select id from t LIMIT 100;", ""⟩ := by
  have hfirst : SQLGuard.check .plain " select id from t ; " = ⟨true, "select id from t LIMIT 100;", ""⟩ := by
    decide +kernel
  have hagain : SQLGuard.check .plain (SQLGuard.check .plain " select id from t ; ").sql =
      ⟨true, (SQLGuard.check .plain " select id from t ; ").sql, ""⟩ :=
    (previewed_sql_runs (LlmEnv.sample LlmSettings.sample) spaceLaws_plain).1 " select id from t ; "
      (congrArg SQLGuardResult.allowed hfirst)
  rw [hagain, hfirst]

end AgentHarness
