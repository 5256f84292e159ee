import AgentHarness.RecordKeeping
import AgentHarness.Requests

/-!
# RecordDiscipline — one metric and one exchange a call

A call of `run_with_options` should record one task metric, and add to its own session one message of
the user and at most one of the assistant.  `settles` is where it does the first: no task of it waits
for an approval and no fallback to the keyword path is taken.  `staysOut` is where it does the second:
`run`, which adds the message again, is not reached.  Both are read off the arguments and the state
before the call.
-/

namespace AgentHarness

open Lib Py

/-- The arguments of a call of `run_with_options`. -/
structure Invocation where
  mode : String
  task : TaskRun
  opts : RunOptions
  sessionId : Option String

/-- The session of the call. -/
def Invocation.sid (c : Invocation) : String := sessionKey c.sessionId c.task.taskId

/-- The state a call starts in and leaves: the stores, and the records. -/
abbrev RecordState := World × Ledger

/-- Exactly one metric is recorded, for this task, and a `failed` one only for a task that failed. -/
def CountsOnce (task : TaskRun) (l : Ledger) (r : Except PyExc TaskRun × RecordState) : Prop :=
  ∃ m, r.2.2.taskMetrics = l.taskMetrics ++ [m] ∧ m.taskId = task.taskId ∧
    (m.status = "failed" → ∃ t, r.1 = .ok t ∧ t.status = .failed)

/-- The session has one message of the user more, then at most one of the assistant, and no other
session has changed. -/
def OneExchange (sid query : String) (l l' : Ledger) : Prop :=
  ∃ reply, IsReply reply ∧ l'.sessions sid = l.sessions sid ++ ⟨"user", query⟩ :: reply ∧
    ∀ s, s ≠ sid → l'.sessions s = l.sessions s

namespace RecordingKernel

/-- One call, served alone. -/
def serveCall (k : RecordingKernel) (c : Invocation) (s : RecordState) :
    Except PyExc TaskRun × RecordState :=
  (k.runWithOptions c.mode c.task c.opts c.sessionId).run (recordExec k.env) s

/-- What the graph adapter answers to a task. -/
def graphAnswer (k : RecordingKernel) (adapter : Planner) (task : TaskRun) (w : World) : Except PyExc Dict :=
  (serve k.env (GraphRuntimeAdapter.runKeyword k.env adapter task.taskId task.query)
    (exec k.env 0 (.enterMode "keyword") w).2).1

/-- The answer reports an approval to wait for. -/
def reportsApproval (payload : Dict) : Bool :=
  (Dict.get payload "requires_approval").truthy && (Dict.get payload "approval_id").truthy

/-- No approval is waited for, the graph adapter does not raise, and `auto` does not fall back to the
keyword path. -/
def settles (k : RecordingKernel) (c : Invocation) (w : World) : Bool :=
  if c.mode = "keyword" then
    match k.graphAdapter with
    | some adapter =>
      match k.graphAnswer adapter c.task w with
      | .ok payload => !reportsApproval payload
      | .error _ => false
    | none => !k.asks c.task.query
  else if c.mode = "nl2sql" then true
  else if c.mode = "multitool" then
    !pipelineAsks k.env k.multitoolPlanner c.task.query (callsOf w.log)
  else if c.mode = "multi_agent" then true
  else if c.mode = "auto" then k.autoAnswers c.task c.opts w
  else !k.asks c.task.query

/-- The keyword run is not reached. -/
def staysOut (k : RecordingKernel) (c : Invocation) (w : World) : Bool :=
  if c.mode = "keyword" then k.graphAdapter.isSome
  else if c.mode = "nl2sql" ∨ c.mode = "multitool" ∨ c.mode = "multi_agent" then true
  else if c.mode = "auto" then k.autoAnswers c.task c.opts w
  else false

variable {k : RecordingKernel} {c : Invocation} {task : TaskRun} {w : World} {l l₁ l₂ l' : Ledger}
  {sid : String} {reply : List MemoryMessage} {ms : List TaskMetric}

/-! ## Ledgers -/

theorem said_set (hmem : k.memory = true) (role content : String) : k.said role content = [⟨role, content⟩] := by
  rw [said, if_pos hmem]

theorem said_unset (hmem : ¬ k.memory = true) (role content : String) : k.said role content = [] := by
  rw [said, if_neg hmem]

theorem not_user_mem (hreply : IsReply reply) {query : String} : (⟨"user", query⟩ : MemoryMessage) ∉ reply := by
  intro hmem
  have hrole := hreply.role _ hmem
  simp at hrole

/-- A call that adds one message of the user and a reply does so if there is a memory. -/
theorem oneExchange_iff (h : Writes l l' ms sid (k.said "user" task.query ++ reply)) (hreply : IsReply reply) :
    OneExchange sid task.query l l' ↔ k.memory = true := by
  refine ⟨fun hex => ?_, fun hmem => ⟨reply, hreply, ?_, h.others⟩⟩
  · by_contra hmem
    obtain ⟨reply', -, hown, -⟩ := hex
    rw [said_unset hmem, List.nil_append] at h
    have heq := List.append_cancel_left (h.own.symm.trans hown)
    exact not_user_mem hreply (heq ▸ List.mem_cons_self)
  · rw [h.own, said_set hmem]
    rfl

/-- A second message of the user is too much, in this session or another. -/
theorem not_oneExchange {sid' : String} {reply' : List MemoryMessage} {ms' : List TaskMetric}
    (h : Writes l l₁ [] sid (k.said "user" task.query))
    (h' : Writes l₁ l₂ ms sid' (k.said "user" task.query ++ reply)) (hreply : IsReply reply)
    (h'' : Writes l₂ l' ms' sid reply') (hreply' : IsReply reply') :
    ¬ OneExchange sid task.query l l' := by
  rintro ⟨rest, hrest, hown, hothers⟩
  by_cases hsid : sid' = sid
  · subst hsid
    have hall := ((h.trans h').trans h'').own
    have heq := List.append_cancel_left (hall.symm.trans hown)
    by_cases hmem : k.memory = true
    · simp only [said_set hmem, List.cons_append, List.nil_append, List.cons.injEq, true_and] at heq
      exact not_user_mem hrest (heq ▸ List.mem_cons_self)
    · simp only [said_unset hmem, List.nil_append] at heq
      have hmem' : (⟨"user", task.query⟩ : MemoryMessage) ∈ reply ++ reply' := heq ▸ List.mem_cons_self
      rcases List.mem_append.mp hmem' with hr | hr
      · exact not_user_mem hreply hr
      · exact not_user_mem hreply' hr
  · by_cases hmem : k.memory = true
    · have hlen := congrArg List.length (hothers sid' hsid)
      rw [h''.others sid' hsid, h'.own, h.others sid' hsid, said_set hmem] at hlen
      simp at hlen
    · rw [said_unset hmem] at h
      have hsame : l₂.sessions sid = l.sessions sid := by
        rw [h'.others sid (Ne.symm hsid), h.own, List.append_nil]
      rw [h''.own, hsame] at hown
      have heq := List.append_cancel_left hown
      exact not_user_mem hreply' (heq ▸ List.mem_cons_self)

/-- A metric that the call records for its task, and the status it leaves. -/
theorem countsOnce_iff {r : Except PyExc TaskRun × RecordState} {t : TaskRun} {mode : String}
    (hr : r.1 = .ok t)
    (hw : r.2.2.taskMetrics = l.taskMetrics ++ k.counted task.taskId mode t.status) :
    CountsOnce task l r ↔ k.metricsRecorder = true ∧ (t.status = .completed ∨ t.status = .failed) := by
  unfold CountsOnce
  rw [hw, hr]
  unfold counted
  by_cases hmet : k.metricsRecorder = true
  swap
  · rw [if_neg hmet, List.append_nil]
    refine ⟨fun ⟨m, hm, _⟩ => ?_, fun h => absurd h.1 hmet⟩
    have hlen := congrArg List.length hm
    simp at hlen
  rw [if_pos hmet]
  constructor
  · rintro ⟨m, hm, -, hfailed⟩
    obtain rfl := List.singleton_inj.mp (List.append_cancel_left hm)
    refine ⟨hmet, ?_⟩
    by_cases hst : t.status = .completed
    · exact .inl hst
    · obtain ⟨_, ⟨⟩, ht⟩ := hfailed (if_neg hst)
      exact .inr ht
  · rintro ⟨-, hst⟩
    refine ⟨_, rfl, rfl, fun hfailed => ⟨t, rfl, ?_⟩⟩
    rcases hst with hst | hst
    · simp [metricStatus, hst] at hfailed
    · exact hst

/-- A call that records nothing, or two metrics, does not count its task once. -/
theorem not_countsOnce {r : Except PyExc TaskRun × RecordState} {ms : List TaskMetric}
    (hw : r.2.2.taskMetrics = l.taskMetrics ++ ms) (hlen : ms.length ≠ 1) : ¬ CountsOnce task l r := by
  rintro ⟨m, hm, -⟩
  rw [hw] at hm
  rw [List.append_cancel_left hm] at hlen
  exact hlen rfl

/-! ## What a call leaves -/

/-- A mode that records at the exit of `run_with_options`. -/
def LeavesOutside (k : RecordingKernel) (c : Invocation) (mode : String) (status : TaskStatus) (l : Ledger)
    (r : Except PyExc TaskRun × RecordState) : Prop :=
  ∃ t reply, r.1 = .ok t ∧ t.status = status ∧ IsReply reply ∧
    Writes l r.2.2 (k.counted c.task.taskId mode t.status) c.sid (k.said "user" c.task.query ++ reply)

/-- A mode that is the keyword run, in the session of the call. -/
def LeavesInside (k : RecordingKernel) (c : Invocation) (l : Ledger)
    (r : Except PyExc TaskRun × RecordState) : Prop :=
  ∃ l₁ t reply, Writes l l₁ [] c.sid (k.said "user" c.task.query) ∧ r.1 = .ok t ∧
    RunLeaves k c.task c.sid l₁ t r.2.2 reply

/-- `auto` after the keyword run, in the session of the task's own id. -/
def LeavesFallback (k : RecordingKernel) (c : Invocation) (l : Ledger)
    (r : Except PyExc TaskRun × RecordState) : Prop :=
  ∃ l₁ l₂ t t' reply reply', Writes l l₁ [] c.sid (k.said "user" c.task.query) ∧
    RunLeaves k c.task c.task.taskId l₁ t l₂ reply ∧ r.1 = .ok t' ∧ t'.status = t.status ∧
    Writes l₂ r.2.2 (k.counted c.task.taskId "auto" t.status) c.sid reply' ∧ IsReply reply'

/-- The status of the answer of the graph adapter. -/
def graphStatus (payload : Dict) : TaskStatus :=
  if (Dict.get payload "requires_approval").truthy then
    (if (Dict.get payload "approval_id").truthy then .waiting_approval else .failed)
  else if (Dict.get payload "success").truthy then .completed
  else .failed

/-- What a call leaves, mode by mode. -/
def CallLeaves (k : RecordingKernel) (c : Invocation) (w : World) (l : Ledger)
    (r : Except PyExc TaskRun × RecordState) : Prop :=
  if c.mode = "keyword" then
    match k.graphAdapter with
    | some adapter =>
      match k.graphAnswer adapter c.task w with
      | .ok payload => LeavesOutside k c "keyword" (graphStatus payload) l r
      | .error e => r.1 = .error e ∧ Writes l r.2.2 [] c.sid (k.said "user" c.task.query)
    | none => LeavesInside k c l r
  else if c.mode = "nl2sql" then LeavesOutside k c "nl2sql" .completed l r
  else if c.mode = "multitool" then LeavesOutside k c "multitool"
    (if pipelineAsks k.env k.multitoolPlanner c.task.query (callsOf w.log) then .waiting_approval
      else .completed) l r
  else if c.mode = "multi_agent" then LeavesOutside k c "multi_agent" .completed l r
  else if c.mode = "auto" then
    if k.autoAnswers c.task c.opts w then LeavesOutside k c "auto" .completed l r else LeavesFallback k c l r
  else LeavesInside k c l r

/-- The records at the exit of `run_with_options`. -/
theorem finishMode_outside {t : TaskRun} {mode : String} {status : TaskStatus} {l₀ : Ledger}
    (h : Writes l₀ l [] c.sid (k.said "user" c.task.query)) (ht : t.taskId = c.task.taskId)
    (hstatus : t.status = status) :
    wp (recording k.env) (k.finishMode mode c.sid t)
      (fun r s => LeavesOutside k c mode status l₀ (r, s)) (w, l) := by
  refine wp_mono (notes_finishMode w l) ?_
  rintro r s ⟨t', l', rfl, ht', rfl, hw⟩
  refine ⟨t', k.said "assistant" (k.resultAnswer t), rfl, ht'.status.trans hstatus, isReply_said, ?_⟩
  rw [ht'.status, ← ht]
  exact h.trans hw

theorem mode_outside {p : Py TaskRun} {mode : String} {status : TaskStatus} {l₀ : Ledger}
    (h : Writes l₀ l [] c.sid (k.said "user" c.task.query))
    (hp : wp (sequential k.env) p (fun r _ => AgentKernel.Ends c.task status r) w) :
    wp (recording k.env) (work p >>= fun result => k.finishMode mode c.sid result)
      (fun r s => LeavesOutside k c mode status l₀ (r, s)) (w, l) := by
  refine wp_work_seq hp ?_ ?_
  · rintro t w₁ ⟨_, ⟨⟩, ht, hst⟩
    exact finishMode_outside h ht hst
  · rintro e w₁ ⟨_, h, -⟩
    cases h

theorem run_inside {l₀ : Ledger} (h : Writes l₀ l [] c.sid (k.said "user" c.task.query)) :
    wp (recording k.env) (k.run c.task c.sessionId) (fun r s => LeavesInside k c l₀ (r, s)) (w, l) := by
  refine wp_mono run_leaves ?_
  rintro r s ⟨t, reply, rfl, hleaves⟩
  exact ⟨l, t, reply, h, rfl, hleaves⟩

/-- The graph adapter's answer decides the status; when it raises, nothing is recorded. -/
theorem runGraph_outside {adapter : Planner} {l₀ : Ledger}
    (h : Writes l₀ l [] c.sid (k.said "user" c.task.query)) :
    wp (recording k.env) (k.runGraph adapter c.task c.sid) (fun r s =>
      match k.graphAnswer adapter c.task w with
      | .ok payload => LeavesOutside k c "keyword" (graphStatus payload) l₀ (r, s)
      | .error e => r = .error e ∧ Writes l₀ s.2 [] c.sid (k.said "user" c.task.query)) (w, l) := by
  have hgraph : wp (sequential k.env) (k.toAgentKernel.runGraph adapter c.task) (fun r _ =>
      match k.graphAnswer adapter c.task w with
      | .ok payload => r = .ok { c.task with status := graphStatus payload, result := some payload }
      | .error e => r = .error e) w := by
    unfold AgentKernel.runGraph
    refine wp_perform_bind rfl ?_
    refine wp_seq (R := fun r _ => r = k.graphAnswer adapter c.task w) (wp_sequential.mpr rfl) ?_ ?_
    · intro payload w₁ hpayload
      rw [← hpayload]
      rfl
    · intro e w₁ he
      rw [← he]
  unfold runGraph
  refine wp_work_seq hgraph (fun t w₁ ht => ?_) fun e w₁ he => ?_
  · cases hans : k.graphAnswer adapter c.task w with
    | error e =>
      rw [hans] at ht
      cases ht
    | ok payload =>
      rw [hans] at ht
      obtain ⟨⟩ := ht
      refine wp_notes_seq (notes_recordTaskMetrics c.sid) fun _ l₁ _ h₁ => ?_
      refine wp_notes_seq notes_memoryAdd fun _ l₂ _ h₂ => ?_
      refine wp_mono (notes_runSelfCheck c.sid w₁ l₂) ?_
      rintro r s ⟨t', l₃, rfl, ht', rfl, h₃⟩
      refine ⟨t', k.said "assistant" (k.answerText payload), rfl, ht'.status, isReply_said, ?_⟩
      have hall := (h.trans (h₁.trans h₂)).quiet h₃
      rw [ht'.status]
      rw [List.append_nil] at hall
      exact hall
  · cases hans : k.graphAnswer adapter c.task w with
    | error e' =>
      rw [hans] at he
      cases he
      exact ⟨rfl, h⟩
    | ok payload =>
      rw [hans] at he
      cases he

/-- **What a call leaves.** -/
theorem serveCall_leaves : CallLeaves k c w l (k.serveCall c (w, l)) := by
  suffices h : wp (recording k.env) (k.runWithOptions c.mode c.task c.opts c.sessionId)
      (fun r s => CallLeaves k c w l (r, s)) (w, l) from wp_exact.mp h
  unfold runWithOptions
  dsimp only
  refine wp_notes_seq notes_memoryAdd fun _ l₁ _ h₁ => ?_
  unfold CallLeaves
  split
  · cases k.graphAdapter with
    | some adapter => exact runGraph_outside h₁
    | none => exact run_inside h₁
  split
  · exact mode_outside h₁ AgentKernel.runNl2sql_ends
  split
  · exact mode_outside h₁ AgentKernel.runMultitool_ends
  split
  · exact mode_outside h₁ AgentKernel.runMultiAgent_ends
  split
  · cases hans : k.autoAnswers c.task c.opts w with
    | true =>
      simp only [if_true]
      refine wp_seq runAuto_leaves (fun t s ht => ?_) fun e s he => ?_
      · rw [hans] at ht
        obtain ⟨_, ⟨⟩, htask, hst, hl⟩ := ht
        obtain ⟨w₁, l₂⟩ := s
        obtain rfl : l₂ = l₁ := hl
        exact finishMode_outside h₁ htask hst
      · rw [hans] at he
        obtain ⟨_, h, -⟩ := he
        cases h
    | false =>
      simp only [Bool.false_eq_true, if_false]
      refine wp_seq runAuto_leaves (fun t s ht => ?_) fun e s he => ?_
      · rw [hans] at ht
        obtain ⟨_, reply, ⟨⟩, hleaves⟩ := ht
        obtain ⟨w₁, l₂⟩ := s
        refine wp_mono (notes_finishMode w₁ l₂) ?_
        rintro r s ⟨t', l₃, rfl, ht', rfl, h₃⟩
        refine ⟨l₁, l₂, t, t', reply, k.said "assistant" (k.resultAnswer t), h₁, hleaves, rfl, ht'.status,
          ?_, isReply_said⟩
        rw [← hleaves.taskId]
        exact h₃
      · rw [hans] at he
        obtain ⟨_, _, h, -⟩ := he
        cases h
  · exact run_inside h₁

/-! ## One metric -/

section Metrics

variable {r : Except PyExc TaskRun × RecordState}

theorem outside_countsOnce {mode : String} {status : TaskStatus} (h : LeavesOutside k c mode status l r) :
    CountsOnce c.task l r ↔ k.metricsRecorder = true ∧ (status = .completed ∨ status = .failed) := by
  obtain ⟨t, reply, hr, rfl, -, hw⟩ := h
  exact countsOnce_iff hr hw.metrics

theorem inside_countsOnce (h : LeavesInside k c l r) :
    CountsOnce c.task l r ↔ k.metricsRecorder = true ∧ (!k.asks c.task.query) = true := by
  obtain ⟨l₁, t, reply, h₁, hr, hleaves⟩ := h
  have hmetrics := (h₁.trans hleaves.writes).metrics
  have hstatus := hleaves.status
  cases hasks : k.asks c.task.query with
  | true =>
    rw [hasks, if_pos rfl] at hmetrics
    have hnot : ¬ CountsOnce c.task l r := not_countsOnce hmetrics (by decide)
    simp [hnot]
  | false =>
    rw [hasks, if_neg Bool.false_ne_true] at hmetrics hstatus
    rw [countsOnce_iff hr hmetrics]
    simp [hstatus]

/-- The keyword run has counted the task already, or the task waits. -/
theorem fallback_not_countsOnce (h : LeavesFallback k c l r) : ¬ CountsOnce c.task l r := by
  obtain ⟨l₁, l₂, t, t', reply, reply', h₁, hleaves, hr, hst, hw, -⟩ := h
  have hmetrics : r.2.2.taskMetrics = l.taskMetrics ++
      ((if k.asks c.task.query then [] else k.counted c.task.taskId "keyword" t.status) ++
        k.counted c.task.taskId "auto" t.status) := by
    rw [hw.metrics, hleaves.writes.metrics, h₁.metrics, List.append_nil, List.append_assoc]
  have hstatus := hleaves.status
  cases hasks : k.asks c.task.query with
  | true =>
    rw [hasks, if_pos rfl] at hmetrics hstatus
    rw [List.nil_append, ← hst] at hmetrics
    rw [countsOnce_iff hr hmetrics, hst, hstatus]
    simp
  | false =>
    rw [hasks, if_neg Bool.false_ne_true] at hmetrics
    refine not_countsOnce hmetrics ?_
    unfold counted
    split
    · show (2 : Nat) ≠ 1
      decide
    · decide

theorem graphStatus_settled {payload : Dict} :
    (graphStatus payload = .completed ∨ graphStatus payload = .failed) ↔
      (!reportsApproval payload) = true := by
  unfold graphStatus reportsApproval
  cases (Dict.get payload "requires_approval").truthy with
  | true => cases (Dict.get payload "approval_id").truthy <;> simp
  | false => cases (Dict.get payload "success").truthy <;> simp

/-- **One task metric a call** is recorded exactly where a recorder is set and the call settles. -/
theorem task_metric_once_iff (k : RecordingKernel) (c : Invocation) (w : World) (l : Ledger) :
    CountsOnce c.task l (k.serveCall c (w, l)) ↔ k.metricsRecorder = true ∧ k.settles c w = true := by
  have h := @serveCall_leaves k c w l
  unfold CallLeaves at h
  unfold settles
  split at h
  · rename_i hmode
    rw [if_pos hmode]
    cases hadapter : k.graphAdapter with
    | none =>
      rw [hadapter] at h
      exact inside_countsOnce h
    | some adapter =>
      rw [hadapter] at h
      dsimp only at h ⊢
      cases hans : k.graphAnswer adapter c.task w with
      | ok payload =>
        rw [hans] at h
        rw [outside_countsOnce h, graphStatus_settled]
      | error e =>
        rw [hans] at h
        have hnot : ¬ CountsOnce c.task l _ := not_countsOnce h.2.metrics (by decide)
        simp [hnot]
  rename_i hkeyword
  rw [if_neg hkeyword]
  split at h
  · rename_i hmode
    rw [if_pos hmode, outside_countsOnce h]
    simp
  rename_i hnl2sql
  rw [if_neg hnl2sql]
  split at h
  · rename_i hmode
    rw [if_pos hmode, outside_countsOnce h]
    cases pipelineAsks k.env k.multitoolPlanner c.task.query (callsOf w.log) <;> simp
  rename_i hmultitool
  rw [if_neg hmultitool]
  split at h
  · rename_i hmode
    rw [if_pos hmode, outside_countsOnce h]
    simp
  rename_i hmultiagent
  rw [if_neg hmultiagent]
  split at h
  · rename_i hmode
    rw [if_pos hmode]
    split at h
    · rename_i hans
      rw [outside_countsOnce h, hans]
      simp
    · rename_i hans
      simp [fallback_not_countsOnce h, hans]
  · rename_i hmode
    rw [if_neg hmode]
    exact inside_countsOnce h

end Metrics

/-! ## One exchange -/

section Memory

variable {r : Except PyExc TaskRun × RecordState}

theorem outside_oneExchange {mode : String} {status : TaskStatus} (h : LeavesOutside k c mode status l r) :
    OneExchange c.sid c.task.query l r.2.2 ↔ k.memory = true := by
  obtain ⟨t, reply, -, -, hreply, hw⟩ := h
  exact oneExchange_iff hw hreply

theorem inside_not_oneExchange (h : LeavesInside k c l r) : ¬ OneExchange c.sid c.task.query l r.2.2 := by
  obtain ⟨l₁, t, reply, h₁, -, hleaves⟩ := h
  exact not_oneExchange h₁ hleaves.writes hleaves.reply (.refl r.2.2 c.sid) .nil

theorem fallback_not_oneExchange (h : LeavesFallback k c l r) :
    ¬ OneExchange c.sid c.task.query l r.2.2 := by
  obtain ⟨l₁, l₂, t, t', reply, reply', h₁, hleaves, -, -, hw, hreply'⟩ := h
  exact not_oneExchange h₁ hleaves.writes hleaves.reply hw hreply'

/-- One call makes one exchange exactly where a memory is set and the keyword run is not reached. -/
theorem oneExchange_call : OneExchange c.sid c.task.query l (k.serveCall c (w, l)).2.2 ↔
    k.memory = true ∧ k.staysOut c w = true := by
  have h := @serveCall_leaves k c w l
  unfold CallLeaves at h
  unfold staysOut
  split at h
  · rename_i hmode
    rw [if_pos hmode]
    cases hadapter : k.graphAdapter with
    | none =>
      rw [hadapter] at h
      simp [inside_not_oneExchange h]
    | some adapter =>
      rw [hadapter] at h
      dsimp only at h
      cases hans : k.graphAnswer adapter c.task w with
      | ok payload =>
        rw [hans] at h
        simp [outside_oneExchange h]
      | error e =>
        rw [hans] at h
        have hw := h.2
        rw [← List.append_nil (k.said "user" c.task.query)] at hw
        simp [oneExchange_iff hw .nil]
  rename_i hkeyword
  rw [if_neg hkeyword]
  split at h
  · rename_i hmode
    rw [if_pos (.inl hmode), outside_oneExchange h]
    simp
  rename_i hnl2sql
  split at h
  · rename_i hmode
    rw [if_pos (.inr (.inl hmode)), outside_oneExchange h]
    simp
  rename_i hmultitool
  split at h
  · rename_i hmode
    rw [if_pos (.inr (.inr hmode)), outside_oneExchange h]
    simp
  rename_i hmultiagent
  have hnone : ¬ (c.mode = "nl2sql" ∨ c.mode = "multitool" ∨ c.mode = "multi_agent") := by
    rintro (hm | hm | hm)
    · exact hnl2sql hm
    · exact hmultitool hm
    · exact hmultiagent hm
  rw [if_neg hnone]
  split at h
  · rename_i hmode
    rw [if_pos hmode]
    split at h
    · rename_i hans
      rw [outside_oneExchange h, hans]
      simp
    · rename_i hans
      simp [fallback_not_oneExchange h, hans]
  · rename_i hmode
    rw [if_neg hmode]
    simp [inside_not_oneExchange h]

/-- A call, with the state before and after it. -/
structure Served where
  call : Invocation
  before : RecordState
  after : RecordState

/-- The calls of a sequence, one after the other; a call that raises is followed by the next. -/
def history (k : RecordingKernel) : List Invocation → RecordState → List Served
  | [], _ => []
  | c :: cs, s => ⟨c, s, (k.serveCall c s).2⟩ :: k.history cs (k.serveCall c s).2

theorem history_after {cs : List Invocation} {s : RecordState} {x : Served} (hx : x ∈ k.history cs s) :
    x.after = (k.serveCall x.call x.before).2 := by
  induction cs generalizing s with
  | nil => cases hx
  | cons c cs ih =>
    rcases List.mem_cons.mp hx with rfl | hx
    · rfl
    · exact ih hx

/-- **Session memory.**  In a sequence of calls each call makes one exchange in its own session exactly
where a memory is set and no call reaches the keyword run. -/
theorem session_exchange_iff (k : RecordingKernel) (cs : List Invocation) (s : RecordState) :
    (∀ x ∈ k.history cs s, OneExchange x.call.sid x.call.task.query x.before.2 x.after.2) ↔
      ∀ x ∈ k.history cs s, k.memory = true ∧ k.staysOut x.call x.before.1 = true := by
  refine forall_congr' fun x => forall_congr' fun hx => ?_
  rw [history_after hx]
  exact oneExchange_call

end Memory

/-! ## Calls that miss -/

def demoKernel (tool : String) : RecordingKernel where
  env := demoEnv
  engine := "langgraph"
  planner := demoPlanner tool
  multitoolPlanner := fun _ => MultiToolPlanner.unmatchedPlan
  orchestrator := ⟨⟨fun _ => false, fun _ => .error "disabled"⟩,
    ⟨demoPlanner tool, fun _ => MultiToolPlanner.unmatchedPlan⟩, fun _ => ⟨false, "", []⟩⟩
  graphAdapter := none
  metricsRecorder := true
  memory := true
  selfCheckEngine := none

def demoInvocation (mode : String) : Invocation :=
  ⟨mode, ⟨"t", "退款", .created, none, none⟩, ⟨"mock", none, true⟩, some "s"⟩

def demoRecords : RecordState := (⟨⟨[], fun _ => none, []⟩, []⟩, ⟨[], fun _ => [], []⟩)

/-- A keyword run that waits for an approval is not counted, and `auto` counts the keyword run it falls
back to a second time. -/
theorem task_metric_missed :
    ¬ (∀ (k : RecordingKernel) (c : Invocation) (w : World) (l : Ledger), k.metricsRecorder = true →
      CountsOnce c.task l (k.serveCall c (w, l))) := by
  intro h
  have hone := h (demoKernel "refund") (demoInvocation "keyword") demoRecords.1 demoRecords.2 rfl
  have hnone : ((demoKernel "refund").serveCall (demoInvocation "keyword") demoRecords).2.2.taskMetrics =
      [] := by decide +kernel
  exact not_countsOnce hnone (by decide) hone

example : ((demoKernel "report").serveCall (demoInvocation "auto") demoRecords).2.2.taskMetrics =
    [⟨"t", "keyword", "completed"⟩, ⟨"t", "auto", "completed"⟩] := by decide +kernel

/-- The keyword mode adds the message of the user twice. -/
theorem session_message_doubled :
    ¬ (∀ (k : RecordingKernel) (cs : List Invocation) (s : RecordState), k.memory = true →
      ∀ x ∈ k.history cs s, OneExchange x.call.sid x.call.task.query x.before.2 x.after.2) := by
  intro h
  have hone := h (demoKernel "report") [demoInvocation "keyword"] demoRecords rfl _ List.mem_cons_self
  obtain ⟨-, hout⟩ := oneExchange_call.mp hone
  cases hout

end RecordingKernel

end AgentHarness
