import AgentHarness.KernelRecords
import AgentHarness.KernelOutcomes

/-!
# RecordKeeping — what a call of `run_with_options` records

Each mode records at its own exit, and the keyword run records for itself.  `Writes` says what a part
of a run added to the ledger; the spec of every mode gives the metrics and the messages it adds.  The
keyword run adds the user's message that `run_with_options` has already added, `auto` runs the keyword
path without its session, and a task that waits for an approval is counted as failed or not at all.
-/

namespace AgentHarness

open Lib Py

/-- From `l` to `l'` these metrics were recorded, and these messages added to the session. -/
structure Writes (l l' : Ledger) (ms : List TaskMetric) (sid : String) (msgs : List MemoryMessage) :
    Prop where
  metrics : l'.taskMetrics = l.taskMetrics ++ ms
  own : l'.sessions sid = l.sessions sid ++ msgs
  others : ∀ s, s ≠ sid → l'.sessions s = l.sessions s

namespace Writes

variable {l l₁ l' : Ledger} {ms ms' : List TaskMetric} {sid : String} {msgs msgs' : List MemoryMessage}

theorem refl (l : Ledger) (sid : String) : Writes l l [] sid [] where
  metrics := (List.append_nil _).symm
  own := (List.append_nil _).symm
  others _ _ := rfl

theorem trans (h : Writes l l₁ ms sid msgs) (h' : Writes l₁ l' ms' sid msgs') :
    Writes l l' (ms ++ ms') sid (msgs ++ msgs') where
  metrics := by rw [h'.metrics, h.metrics, List.append_assoc]
  own := by rw [h'.own, h.own, List.append_assoc]
  others s hs := (h'.others s hs).trans (h.others s hs)

/-- Nothing was written in the second part. -/
theorem quiet (h : Writes l l₁ ms sid msgs) (h' : Writes l₁ l' [] sid []) : Writes l l' ms sid msgs := by
  have ht := h.trans h'
  rwa [List.append_nil, List.append_nil] at ht

/-- Without messages the session does not matter. -/
theorem session (h : Writes l l' ms sid []) (s : String) : Writes l l' ms s [] := by
  have hall : ∀ s, l'.sessions s = l.sessions s := by
    intro s
    by_cases hs : s = sid
    · subst hs
      rw [h.own, List.append_nil]
    · exact h.others s hs
  exact ⟨h.metrics, by rw [hall, List.append_nil], fun s' _ => hall s'⟩

end Writes

/-- At most one message, of the assistant. -/
structure IsReply (msgs : List MemoryMessage) : Prop where
  one : msgs.length ≤ 1
  role : ∀ m ∈ msgs, m.role = "assistant"

theorem IsReply.nil : IsReply [] := ⟨Nat.zero_le 1, List.forall_mem_nil _⟩

namespace RecordingKernel

variable {k : RecordingKernel} {task : TaskRun} {w : World} {l l' : Ledger} {α β : Type}

/-- The message that `_memory_add` adds. -/
def said (k : RecordingKernel) (role content : String) : List MemoryMessage :=
  if k.memory then [⟨role, content⟩] else []

/-- The metric that `_record_task_metrics` records. -/
def counted (k : RecordingKernel) (taskId mode : String) (status : TaskStatus) : List TaskMetric :=
  if k.metricsRecorder then [⟨taskId, mode, metricStatus status⟩] else []

theorem isReply_said {content : String} : IsReply (k.said "assistant" content) := by
  unfold said
  split
  · exact ⟨Nat.le_refl 1, fun m hm => by rw [List.mem_singleton.mp hm]⟩
  · exact .nil

/-! ## The parts -/

/-- A part that does no work of the mode: it returns something with `V`, and writes this. -/
def Notes (env : Env) (p : Rec α) (V : α → Prop) (ms : List TaskMetric) (sid : String)
    (msgs : List MemoryMessage) : Prop :=
  ∀ w l, wp (recording env) p (fun r s => ∃ a l', r = .ok a ∧ V a ∧ s = (w, l') ∧ Writes l l' ms sid msgs)
    (w, l)

section Parts

variable {env : Env} {Q : Except PyExc β → World × Ledger → Prop}

/-- A part that notes is passed over. -/
theorem wp_notes_seq {p : Rec α} {f : α → Rec β} {V : α → Prop} {ms : List TaskMetric} {sid : String}
    {msgs : List MemoryMessage} (hp : Notes env p V ms sid msgs)
    (hf : ∀ a l', V a → Writes l l' ms sid msgs → wp (recording env) (f a) Q (w, l')) :
    wp (recording env) (p >>= f) Q (w, l) := by
  refine wp_seq (hp w l) ?_ ?_
  · rintro a s ⟨_, l', ⟨⟩, ha, rfl, hw⟩
    exact hf a l' ha hw
  · rintro e s ⟨_, _, h, -⟩
    cases h

/-- The work of the mode writes nothing. -/
theorem wp_work_seq {p : Py α} {f : α → Rec β} {R : Except PyExc α → World → Prop}
    (hp : wp (sequential env) p R w)
    (hok : ∀ a w', R (.ok a) w' → wp (recording env) (f a) Q (w', l))
    (herr : ∀ e w', R (.error e) w' → Q (.error e) (w', l)) :
    wp (recording env) (work p >>= f) Q (w, l) := by
  refine wp_seq (R := fun r s => ∃ w', s = (w', l) ∧ R r w') (wp_extend.mpr ?_) ?_ ?_
  · exact wp_mono hp fun r w' h => ⟨w', rfl, h⟩
  · rintro a s ⟨w', rfl, h⟩
    exact hok a w' h
  · rintro e s ⟨w', rfl, h⟩
    exact herr e w' h

/-- Work that raises nothing. -/
theorem wp_silent_work {p : Py α} {f : α → Rec β} (hp : Silent env p)
    (hf : ∀ a w', wp (recording env) (f a) Q (w', l)) : wp (recording env) (work p >>= f) Q (w, l) :=
  wp_work_seq (hp w) (fun a w' _ => hf a w') fun _ _ h => nomatch h.1.choose_spec

theorem wp_guarded {R : Except PyExc α → World × Ledger → Prop}
    {Q : Except PyExc TaskRun → World × Ledger → Prop}
    {handler : TaskRun → PyExc → Rec TaskRun} {p : Rec α} {next : α → Rec TaskRun} {s : World × Ledger}
    (hp : wp (recording env) p R s) (hok : ∀ a s', R (.ok a) s' → wp (recording env) (next a) Q s')
    (herr : ∀ e s', R (.error e) s' → wp (recording env) (handler task e) Q s') :
    wp (recording env) (guarded task handler p next) Q s := by
  unfold guarded
  refine wp_seq (wp_attempt hp) ?_ ?_
  · rintro r s' ⟨_, ⟨⟩, h⟩
    cases r with
    | ok a => exact hok a s' h
    | error e => exact herr e s' h
  · rintro e s' ⟨_, h, -⟩
    cases h

theorem notes_memoryAdd {sid role content : String} :
    Notes env (k.memoryAdd sid role content) (fun _ => True) [] sid (k.said role content) := by
  intro w l
  unfold memoryAdd said
  split
  · refine wp_try (R := fun r s => r = .ok () ∧ s = (w, l.addMessage sid ⟨role, content⟩)) ?_ ?_ ?_
    · refine wp_seq (wp_note.mpr ?_) (R := fun r s => r = .ok () ∧ s = (w, l.addMessage sid ⟨role, content⟩))
        ?_ ?_
      · exact ⟨rfl, rfl⟩
      · rintro _ s ⟨-, rfl⟩
        exact wp_note.mpr ⟨rfl, rfl⟩
      · rintro e s ⟨h, -⟩
        cases h
    · rintro _ s ⟨-, rfl⟩
      refine ⟨(), _, rfl, trivial, rfl, (List.append_nil _).symm, ?_, fun s' hs' => ?_⟩
      · exact Function.update_self ..
      · exact Function.update_of_ne hs' ..
    · rintro e s ⟨h, -⟩
      cases h
  · exact ⟨(), l, rfl, trivial, rfl, .refl l sid⟩

theorem notes_recordTaskMetrics {mode : String} (sid : String) :
    Notes env (k.recordTaskMetrics task mode) (fun _ => True) (k.counted task.taskId mode task.status)
      sid [] := by
  intro w l
  unfold recordTaskMetrics counted
  split
  · refine wp_try (wp_note.mpr ?_) (R := fun r s => r = .ok () ∧
      s = (w, l.recordTask ⟨task.taskId, mode, metricStatus task.status⟩)) ?_ ?_
    · exact ⟨rfl, rfl⟩
    · rintro _ s ⟨-, rfl⟩
      exact ⟨(), _, rfl, trivial, rfl, rfl, (List.append_nil _).symm, fun _ _ => rfl⟩
    · rintro e s ⟨h, -⟩
      cases h
  · exact ⟨(), l, rfl, trivial, rfl, .refl l sid⟩

/-- The task, up to its result. -/
structure SameTask (task t : TaskRun) : Prop where
  taskId : t.taskId = task.taskId
  status : t.status = task.status

theorem notes_runSelfCheck (sid : String) :
    Notes env (k.runSelfCheck task) (SameTask task) [] sid [] := by
  intro w l
  unfold runSelfCheck
  cases k.selfCheckEngine with
  | none => exact ⟨task, l, rfl, ⟨rfl, rfl⟩, rfl, .refl l sid⟩
  | some check =>
    dsimp only
    cases check (task.result.getD []) with
    | error e => exact ⟨task, l, rfl, ⟨rfl, rfl⟩, rfl, .refl l sid⟩
    | ok reflection =>
      refine wp_seq (R := fun r s => r = .ok () ∧ ∃ l', s = (w, l') ∧ Writes l l' [] sid []) ?_ ?_ ?_
      · refine wp_try (R := fun r s => r = .ok () ∧ ∃ l', s = (w, l') ∧ Writes l l' [] sid []) ?_
          (fun _ _ h => h) ?_
        · refine wp_seq (R := fun r s => r = .ok () ∧ s = (w, l)) (wp_note.mpr ⟨rfl, rfl⟩) ?_ ?_
          · rintro _ s ⟨-, rfl⟩
            split
            · refine wp_note.mpr ⟨rfl, _, rfl, ?_⟩
              exact ⟨(List.append_nil _).symm, (List.append_nil _).symm, fun _ _ => rfl⟩
            · exact ⟨rfl, l, rfl, .refl l sid⟩
          · rintro e s ⟨h, -⟩
            cases h
        · rintro e s ⟨h, -⟩
          cases h
      · rintro _ s ⟨-, l', rfl, hw⟩
        exact ⟨_, l', rfl, ⟨rfl, rfl⟩, rfl, hw⟩
      · rintro e s ⟨h, -⟩
        cases h

theorem notes_finishRun (sid : String) :
    Notes env (k.finishRun task) (SameTask task) (k.counted task.taskId "keyword" task.status) sid [] := by
  intro w l
  unfold finishRun
  refine wp_notes_seq (notes_recordTaskMetrics sid) fun _ l₁ _ h₁ => ?_
  refine wp_mono (notes_runSelfCheck sid w l₁) ?_
  rintro r s ⟨t, l₂, rfl, ht, rfl, h₂⟩
  exact ⟨t, l₂, rfl, ht, rfl, h₁.quiet h₂⟩

theorem notes_finishMode {mode sid : String} :
    Notes env (k.finishMode mode sid task) (SameTask task) (k.counted task.taskId mode task.status) sid
      (k.said "assistant" (k.resultAnswer task)) := by
  intro w l
  unfold finishMode
  refine wp_notes_seq (notes_recordTaskMetrics sid) fun _ l₁ _ h₁ => ?_
  refine wp_notes_seq notes_memoryAdd fun _ l₂ _ h₂ => ?_
  refine wp_mono (notes_runSelfCheck sid w l₂) ?_
  rintro r s ⟨t, l₃, rfl, ht, rfl, h₃⟩
  have hw := (h₁.trans h₂).quiet h₃
  rw [List.append_nil, List.nil_append] at hw
  exact ⟨t, l₃, rfl, ht, rfl, hw⟩

end Parts

/-! ## The keyword run -/

/-- A keyword run of the task in the session: a task that waits has no metric and no reply. -/
structure RunLeaves (k : RecordingKernel) (task : TaskRun) (sid : String) (l : Ledger) (t : TaskRun)
    (l' : Ledger) (replies : List MemoryMessage) : Prop where
  taskId : t.taskId = task.taskId
  reply : IsReply replies
  status : if k.asks task.query then t.status = .waiting_approval
    else t.status = .completed ∨ t.status = .failed
  writes : Writes l l' (if k.asks task.query then [] else k.counted task.taskId "keyword" t.status) sid
    (k.said "user" task.query ++ replies)

/-- The end of a run that does not wait. -/
theorem finishRun_leaves {sid : String} {t : TaskRun} {l₀ : Ledger} {replies : List MemoryMessage}
    (hasks : k.asks task.query = false) (htask : t.taskId = task.taskId) (hreply : IsReply replies)
    (hstatus : t.status = .completed ∨ t.status = .failed)
    (h : Writes l₀ l [] sid (k.said "user" task.query ++ replies)) :
    wp (recording k.env) (k.finishRun t)
      (fun r s => ∃ t' replies, r = .ok t' ∧ RunLeaves k task sid l₀ t' s.2 replies) (w, l) := by
  refine wp_mono (notes_finishRun sid w l) ?_
  rintro r s ⟨t', l', rfl, ht', rfl, hw⟩
  refine ⟨t', replies, rfl, ht'.taskId.trans htask, hreply, ?_, ?_⟩
  · rw [hasks, if_neg Bool.false_ne_true, ht'.status]
    exact hstatus
  · have hall := h.trans hw
    rw [List.append_nil, List.nil_append] at hall
    rw [hasks, if_neg Bool.false_ne_true, ht'.status, ← htask]
    exact hall

/-- **The keyword run** writes the user's message to its session, and then at most one reply. -/
theorem run_leaves {sessionId : Option String} :
    wp (recording k.env) (k.run task sessionId) (fun r s => ∃ t replies, r = .ok t ∧
      RunLeaves k task (sessionKey sessionId task.taskId) l t s.2 replies) (w, l) := by
  obtain ⟨sid, hsid⟩ : ∃ sid, sessionKey sessionId task.taskId = sid := ⟨_, rfl⟩
  unfold run
  refine wp_work_seq (R := fun r _ => r = .ok ()) (wp_perform.mpr rfl) (fun _ w₁ _ => ?_)
    fun _ _ h => nomatch h
  dsimp only
  rw [hsid]
  refine wp_notes_seq notes_memoryAdd fun _ l₁ _ huser => ?_
  -- the handler fails the task, which is then counted
  have hfail : ∀ (t : TaskRun) (e : PyExc) (s : World × Ledger), t.taskId = task.taskId →
      k.asks task.query = false → s.2 = l₁ → wp (recording k.env) (k.failRun t e)
        (fun r s => ∃ t replies, r = .ok t ∧ RunLeaves k task sid l t s.2 replies) s := by
    rintro t e ⟨w₂, l₂⟩ ht hasks rfl
    unfold failRun AgentKernel.failRun
    refine wp_work_seq (R := fun r _ => ∃ t', r = .ok t' ∧ t'.taskId = task.taskId ∧ t'.status = .failed)
      ?_ ?_ fun _ _ h => ?_
    · exact wp_silent_seq AgentKernel.silent_hook fun _ w₃ _ =>
        wp_silent_seq silent_trace fun _ w₄ _ => ⟨_, rfl, ht, rfl⟩
    · rintro t' w₃ ⟨_, ⟨⟩, ht', hst⟩
      refine finishRun_leaves hasks ht' .nil (.inr hst) ?_
      rwa [List.append_nil]
    · obtain ⟨_, h, -⟩ := h
      cases h
  refine wp_guarded (R := fun r s => s.2 = l₁ ∧
    AgentKernel.WaitsIf (k.asks task.query) { task with status := .running } r) (wp_extend.mpr ?_) ?_ ?_
  · refine wp_silent_seq silent_trace fun _ w₂ _ =>
      wp_silent_seq AgentKernel.silent_runHooks fun _ w₃ _ => ?_
    exact wp_mono AgentKernel.runNodes_waits fun r w' h => ⟨rfl, h⟩
  · rintro ⟨result, task₁⟩ ⟨w₂, l₂⟩ ⟨rfl, hwaits⟩
    dsimp only
    cases hasks : k.asks task.query with
    | true =>
      rw [hasks] at hwaits
      obtain ⟨_, ⟨⟩, htask₁⟩ := hwaits
      obtain rfl : task₁ = _ := htask₁
      rw [if_pos rfl]
      refine ⟨_, [], rfl, rfl, .nil, ?_, ?_⟩
      · rw [hasks, if_pos rfl]
      · rw [hasks, if_pos rfl, List.append_nil]
        exact huser
    | false =>
      rw [hasks] at hwaits
      obtain rfl : task₁ = _ := hwaits _ rfl
      have hrunning : ¬ TaskStatus.running = TaskStatus.waiting_approval := by decide
      rw [if_neg hrunning]
      refine wp_guarded (R := fun r s => ∃ t replies, r = .ok t ∧ t.taskId = task.taskId ∧
        t.status = .completed ∧ IsReply replies ∧ Writes l s.2 [] sid (k.said "user" task.query ++ replies))
        ?_ ?_ ?_
      · unfold AgentKernel.completeRun
        refine wp_work_seq (R := fun r _ => ∃ t, r = .ok t ∧ t.taskId = task.taskId ∧ t.status = .completed)
          ?_ ?_ fun _ _ h => ?_
        · exact wp_silent_seq AgentKernel.silent_runHooks fun _ w₃ _ =>
            wp_silent_seq silent_trace fun _ w₄ _ => ⟨_, rfl, rfl, rfl⟩
        · rintro t w₃ ⟨_, ⟨⟩, ht, hst⟩
          refine wp_notes_seq notes_memoryAdd fun _ l₃ _ hreply => ?_
          exact ⟨t, _, rfl, ht, hst, isReply_said, huser.trans hreply⟩
        · obtain ⟨_, h, -⟩ := h
          cases h
      · rintro t ⟨w₃, l₃⟩ ⟨_, replies, ⟨⟩, ht, hst, hreply, hw⟩
        exact finishRun_leaves hasks ht hreply (.inl hst) hw
      · rintro e s ⟨_, _, h, -⟩
        cases h
  · rintro e ⟨w₂, l₂⟩ ⟨rfl, hwaits⟩
    cases hasks : k.asks task.query with
    | true =>
      rw [hasks] at hwaits
      obtain ⟨_, h, -⟩ := hwaits
      cases h
    | false => exact hfail _ e _ rfl hasks rfl

/-! ## `auto` -/

/-- What `auto` leaves: without the keyword path a completed task and no record, and with it the
records of a run in the session of the task's own id. -/
def AutoLeaves (k : RecordingKernel) (task : TaskRun) (answers : Bool) (l : Ledger) (r : Except PyExc TaskRun)
    (s : World × Ledger) : Prop :=
  if answers then ∃ t, r = .ok t ∧ t.taskId = task.taskId ∧ t.status = .completed ∧ s.2 = l
  else ∃ t replies, r = .ok t ∧ RunLeaves k task task.taskId l t s.2 replies

theorem autoKeyword_leaves {t : TaskRun} {chain : List String} {reason : String}
    (ht : t.taskId = task.taskId) (hquery : t.query = task.query) :
    wp (recording k.env) (k.autoKeyword t chain reason) (AutoLeaves k task false l) (w, l) := by
  unfold autoKeyword
  refine wp_seq run_leaves ?_ ?_
  · rintro t₁ s ⟨_, replies, ⟨⟩, h⟩
    refine ⟨_, replies, rfl, h.taskId.trans ht, h.reply, ?_, ?_⟩
    · rw [← hquery]
      exact h.status
    · rw [← hquery, ← ht]
      exact h.writes
  · rintro e s ⟨_, _, h, -⟩
    cases h

theorem autoFailed_leaves {t : TaskRun} {chain : List String} {e : PyExc}
    (ht : t.taskId = task.taskId) (hquery : t.query = task.query) :
    wp (recording k.env) (k.autoFailed chain t e) (AutoLeaves k task false l) (w, l) := by
  unfold autoFailed
  refine wp_silent_work silent_trace fun _ w₁ => wp_silent_work silent_trace fun _ w₂ => ?_
  exact autoKeyword_leaves ht hquery

/-- Silent work inside the `try` of `auto` does not raise. -/
theorem wp_guarded_silent {env : Env} {p : Py α} {handler : TaskRun → PyExc → Rec TaskRun} {next : α → Rec TaskRun}
    {t : TaskRun} {Q : Except PyExc TaskRun → World × Ledger → Prop} (hp : Silent env p)
    (hok : ∀ a w', Moves w w' [] w.db.approvals → wp (recording env) (next a) Q (w', l)) :
    wp (recording env) (guarded t handler (work p) next) Q (w, l) := by
  refine wp_guarded (R := fun r s => (∃ a, r = .ok a) ∧ Moves w s.1 [] w.db.approvals ∧ s.2 = l)
    (wp_extend.mpr ?_) ?_ ?_
  · exact wp_mono (hp w) fun r w' h => ⟨h.1, h.2, rfl⟩
  · rintro a ⟨w', l'⟩ ⟨-, hm, rfl⟩
    exact hok a w' hm
  · rintro e s ⟨⟨_, h⟩, -⟩
    cases h

theorem autoMultitool_leaves {t : TaskRun} (ht : t.taskId = task.taskId) (hquery : t.query = task.query) :
    wp (recording k.env) (k.autoMultitool t)
      (AutoLeaves k task (pipelineSucceeds k.env k.multitoolPlanner task.query (callsOf w.log)) l) (w, l) := by
  unfold autoMultitool
  dsimp only
  refine wp_guarded (R := fun r s => s.2 = l ∧
    if pipelineSucceeds k.env k.multitoolPlanner task.query (callsOf w.log) then
      ∃ d, r = .ok (d, .bool true) else ∀ x, r = .ok x → x.2 = .bool false) (wp_extend.mpr ?_) ?_ ?_
  · refine wp_perform_bind rfl ?_
    refine wp_silent_seq silent_trace fun _ w₁ h₁ => wp_silent_seq silent_trace fun _ w₂ h₂ => ?_
    have hcalls : callsOf w₂.log = callsOf w.log :=
      h₂.callsOf_quiet.trans (h₁.callsOf_quiet.trans AgentKernel.callsOf_enterMode)
    have hspec := @pipeline_reports k.env k.multitoolPlanner t.query t.taskId w₂
    rw [hcalls, hquery] at hspec
    rw [hquery]
    refine wp_seq hspec (fun d w₃ h => ?_) fun e w₃ h => ?_
    · split at h
      · rename_i hsucc
        obtain ⟨_, ⟨⟩, hd⟩ := h
        rw [hd.index, Prog.ofExcept_ok, Prog.pure_bind']
        refine ⟨rfl, ?_⟩
        rw [if_pos hsucc]
        exact ⟨d, rfl⟩
      · rename_i hsucc
        rw [(h d rfl).index, Prog.ofExcept_ok, Prog.pure_bind']
        refine ⟨rfl, ?_⟩
        rw [if_neg hsucc]
        rintro x ⟨⟩
        rfl
    · refine ⟨rfl, ?_⟩
      split at h
      · obtain ⟨_, h, -⟩ := h
        cases h
      · rename_i hsucc
        rw [if_neg hsucc]
        rintro x ⟨⟩
  · rintro ⟨d, v⟩ ⟨w₁, l₁⟩ ⟨rfl, hv⟩
    dsimp only
    split at hv
    · rename_i hsucc
      obtain ⟨_, ⟨⟩⟩ := hv
      rw [hsucc, if_pos (show (PyVal.bool true).truthy = true from rfl)]
      refine wp_guarded_silent (silent_trace.bind fun _ => silent_trace) fun _ w₂ _ => ?_
      exact ⟨_, rfl, ht, rfl, rfl⟩
    · rename_i hsucc
      obtain rfl : v = .bool false := hv _ rfl
      rw [Bool.eq_false_iff.mpr hsucc, if_neg (show ¬ (PyVal.bool false).truthy = true from Bool.false_ne_true)]
      refine wp_guarded_silent silent_trace fun _ w₂ _ => ?_
      -- the keyword run is inside the `try`, but does not raise
      refine wp_guarded (R := AutoLeaves k task false l₁) ?_ ?_ ?_
      · refine wp_silent_work silent_trace fun _ w₃ => ?_
        exact autoKeyword_leaves ht hquery
      · exact fun t' s h => h
      · rintro e s ⟨_, _, h, -⟩
        cases h
  · rintro e ⟨w₁, l₁⟩ ⟨rfl, hv⟩
    split at hv
    · obtain ⟨_, h⟩ := hv
      cases h
    · rename_i hsucc
      rw [Bool.eq_false_iff.mpr hsucc]
      exact autoFailed_leaves ht hquery

/-- **`auto`** runs the keyword path exactly where neither NL2SQL nor the pipeline answers. -/
theorem runAuto_leaves {opts : RunOptions} :
    wp (recording k.env) (k.runAuto task opts) (AutoLeaves k task (k.autoAnswers task opts w) l) (w, l) := by
  unfold runAuto
  dsimp only
  refine wp_guarded (R := fun r s => s.2 = l ∧ callsOf s.1.log = callsOf w.log ∧
    r = k.nl2sqlAnswer task opts w) (wp_extend.mpr ?_) ?_ ?_
  · refine wp_perform_bind rfl ?_
    refine wp_silent_seq silent_trace fun _ w₁ h₁ => wp_silent_seq silent_trace fun _ w₂ h₂ => ?_
    have hm := (@moves_act k.env w (.enterMode "nl2sql") rfl).quiet (h₁.quiet h₂)
    have hcalls : callsOf w₂.log = callsOf w.log := hm.callsOf.trans (List.append_nil _)
    have hruns : nl2sqlRuns w₂.log = nl2sqlRuns w.log := by
      rw [← nl2sqlRuns_acts, hm.acts]
      unfold nl2sqlRuns
      rw [List.countP_append]
      exact (Nat.add_zero _).trans (nl2sqlRuns_acts w.log)
    refine wp_seq (R := fun r w' => r = k.env.nl2sql (nl2sqlRuns w.log) (task.request opts).nl2sql ∧
      callsOf w'.log = callsOf w.log) (wp_perform.mpr ⟨?_, ?_⟩) ?_ ?_
    · rw [exec_ans, ← hruns]
      rfl
    · have hnl := @moves_act k.env w₂ (.nl2sql (task.request opts).nl2sql) rfl
      refine hnl.callsOf.trans ?_
      rw [hcalls]
      exact List.append_nil _
    · rintro d w₃ ⟨hd, hcalls₃⟩
      have hanswer : k.nl2sqlAnswer task opts w = (d, ·) <$> Dict.index d "success" := by
        unfold AgentKernel.nl2sqlAnswer
        rw [← hd]
        rfl
      rw [hanswer]
      cases Dict.index d "success" with
      | error e => exact ⟨rfl, hcalls₃, rfl⟩
      | ok v => exact ⟨rfl, hcalls₃, rfl⟩
    · rintro e w₃ ⟨he, hcalls₃⟩
      unfold AgentKernel.nl2sqlAnswer
      rw [← he]
      exact ⟨rfl, hcalls₃, rfl⟩
  · rintro ⟨d, v⟩ ⟨w₁, l₁⟩ ⟨rfl, hcalls, hanswer⟩
    dsimp only at hcalls ⊢
    unfold AgentKernel.autoAnswers
    rw [← hanswer]
    dsimp only
    by_cases hv : v.truthy = true
    · rw [if_pos hv, hv, Bool.true_or]
      refine wp_guarded_silent (silent_trace.bind fun _ => silent_trace) fun _ w₂ _ => ?_
      exact ⟨_, rfl, rfl, rfl, rfl⟩
    · rw [if_neg hv, Bool.eq_false_iff.mpr hv, Bool.false_or]
      refine wp_guarded_silent silent_trace fun _ w₂ h₂ => ?_
      rw [← hcalls, ← h₂.callsOf_quiet]
      exact autoMultitool_leaves rfl rfl
  · rintro e ⟨w₁, l₁⟩ ⟨rfl, -, hanswer⟩
    unfold AgentKernel.autoAnswers
    rw [← hanswer]
    exact autoFailed_leaves rfl rfl

end RecordingKernel

end AgentHarness
