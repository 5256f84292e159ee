import AgentHarness.Nl2sqlStream
import Mathlib.Data.List.Infix
import Mathlib.Tactic.NormNum

/-!
# StreamGrammar — the order of the events of `/nl2sql/stream`

A question that the injection guard blocks is answered by `guard done`, another one by
`stage stage sql_delta* guard execution done`.  Where something raises, also the encoding of an event, the events
before it stand, and one `error` ends the stream.
-/

namespace AgentHarness

open Lib Lib.Json

namespace Nl2sqlStream

variable {F : Type} {fl : Floats F} {server : Server F} {req : ExecuteRequest}

/-! ## The grammar -/

/-- The names of a whole answer, to a question that is blocked or not. -/
inductive Answer (blocked : Prop) : List String → Prop where
  | refused : blocked → Answer blocked ["guard", "done"]
  | answered (n : Nat) : ¬ blocked →
    Answer blocked (["stage", "stage"] ++ List.replicate n "sql_delta" ++ ["guard", "execution", "done"])

/-- A whole answer, or the start of one and an error. -/
def Grammatical (blocked : Prop) (names : List String) : Prop :=
  Answer blocked names ∨
    ∃ answer start, Answer blocked answer ∧ start <+: answer ∧ start ≠ answer ∧ names = start ++ ["error"]

/-- The injection guard blocks the question. -/
def Blocked (server : Server F) (req : ExecuteRequest) : Prop :=
  ∃ finding, server.checkText req.query = .ok finding ∧ finding.action = "block"

/-- The event and its data. -/
def SseEvent.out (e : SseEvent fl) : String × PyDict F := (e.event, e.data)

/-- The text of an `sql_delta` event. -/
def deltaOf (out : String × PyDict F) : Option String :=
  if out.1 = "sql_delta" then
    match out.2.lookup "delta" with
    | some (.str delta) => some delta
    | _ => none
  else none

/-- The texts of the `sql_delta` events. -/
def deltas (events : List (SseEvent fl)) : List String := events.filterMap fun e => deltaOf e.out

/-! ## The chunks -/

theorem flatten_slices (text : List Char) (size n : Nat) :
    ((List.range n).map fun i => slice text (i * size) (i * size + size)).flatten = text.take (n * size) := by
  induction n with
  | zero => simp
  | succ n ih =>
    rw [List.range_succ, List.map_append, List.flatten_append, ih, Nat.succ_mul, List.take_add]
    unfold slice
    rw [List.map_singleton, List.flatten_singleton, List.drop_take, Nat.add_sub_cancel_left]

theorem join_iterSqlChunks (sql : String) : String.join (iterSqlChunks server sql) = sql := by
  have hsize : 0 < (max 1 server.streamChunkChars).toNat := by omega
  unfold iterSqlChunks
  dsimp only
  generalize (max 1 server.streamChunkChars).toNat = size at hsize ⊢
  have hall : sql.toList.length ≤ (sql.toList.length + size - 1) / size * size := by
    have hdiv := Nat.div_add_mod (sql.toList.length + size - 1) size
    have hmod := Nat.mod_lt (sql.toList.length + size - 1) hsize
    rw [Nat.mul_comm] at hdiv
    omega
  have htext := flatten_slices sql.toList size ((sql.toList.length + size - 1) / size)
  rw [List.take_of_length_le hall] at htext
  apply String.toList_injective
  rw [String.toList_join, List.flatMap_map]
  refine Eq.trans ?_ htext
  rw [List.flatMap_def]
  simp only [String.toList_ofList]

theorem iterSqlChunks_size {sql chunk : String} (h : chunk ∈ iterSqlChunks server sql) :
    chunk ≠ "" ∧ (chunk.length : Int) ≤ max 1 server.streamChunkChars := by
  have hsize : 0 < (max 1 server.streamChunkChars).toNat := by omega
  have hmax : ((max 1 server.streamChunkChars).toNat : Int) = max 1 server.streamChunkChars := by omega
  unfold iterSqlChunks at h
  rw [← hmax]
  dsimp only at h
  generalize (max 1 server.streamChunkChars).toNat = size at hsize h ⊢
  obtain ⟨i, hi, rfl⟩ := List.mem_map.mp h
  have hstart : i * size < sql.toList.length := by
    have hle : (i + 1) * size ≤ sql.toList.length + size - 1 :=
      (Nat.le_div_iff_mul_le hsize).mp (List.mem_range.mp hi)
    rw [Nat.succ_mul] at hle
    omega
  have hlen : (slice sql.toList (i * size) (i * size + size)).length =
      min (i * size + size) sql.toList.length - i * size := by
    unfold slice
    rw [List.length_drop, List.length_take]
  constructor
  · intro hempty
    have hnil : slice sql.toList (i * size) (i * size + size) = [] := String.ofList_eq_empty_iff.mp hempty
    rw [hnil, List.length_nil] at hlen
    omega
  · rw [String.length_ofList, hlen]
    omega

/-! ## What is sent of the steps -/

/-- All the steps yield and are sent, or the first ones and an error. -/
theorem yields_sent (fl : Floats F) (steps : List (Step F)) :
    (∃ sent, steps = sent.map .ok ∧ (yields fl steps).map SseEvent.out = sent) ∨
      ∃ sent exc, sent.map .ok <+: steps ∧ sent.map .ok ≠ steps ∧
        (yields fl steps).map SseEvent.out = sent ++ [("error", [("reason", .str exc)])] := by
  induction steps with
  | nil => exact .inl ⟨[], rfl, rfl⟩
  | cons step steps ih =>
    cases step with
    | error exc => exact .inr ⟨[], exc, List.nil_prefix, by simp, rfl⟩
    | ok out =>
      obtain ⟨event, data⟩ := out
      unfold yields
      split
      · rcases ih with ⟨sent, rfl, hsent⟩ | ⟨sent, exc, hbegins, hne, hsent⟩
        · exact .inl ⟨(event, data) :: sent, rfl, by rw [List.map_cons, hsent]; rfl⟩
        · refine .inr ⟨(event, data) :: sent, exc, List.cons_prefix_cons.mpr ⟨rfl, hbegins⟩, ?_, ?_⟩
          · intro heq
            exact hne (List.cons.inj heq).2
          · rw [List.map_cons, hsent]
            rfl
      · exact .inr ⟨[], _, List.nil_prefix, by simp, rfl⟩

/-- The two events that a stream begins with. -/
def stages (req : ExecuteRequest) : List (String × PyDict F) :=
  [("stage", [("stage", .str "schema_loaded")]),
    ("stage", [("stage", .str "generating"), ("generator", .str req.generator),
      ("provider", .str (req.provider.getD ""))])]

/-- The events of a response. -/
def responseEvents (server : Server F) (r : ExecuteResponse F) : List (String × PyDict F) :=
  (iterSqlChunks server r.sql).map (fun chunk => ("sql_delta", [("delta", .str chunk)])) ++
    [("guard", [("allowed", .bool r.guardAllowed), ("reason", .str r.guardReason)]),
      ("execution", executionData r), ("done", r.modelDump)]

theorem resultSteps_eq {r : ExecuteResponse F} : resultSteps server r = (responseEvents server r).map .ok := by
  unfold resultSteps responseEvents
  rw [List.map_append, List.map_map]
  rfl

/-- What the `try` block does. -/
theorem streamSteps_cases (server : Server F) (req : ExecuteRequest) :
    (∃ exc, streamSteps server req = [.error exc]) ∨
    (Blocked server req ∧ ∃ finding inputGuard, streamSteps server req =
      [("guard", [("allowed", .bool false),
          ("reason", .str (buildInjectionBlockedExecuteResponse server finding inputGuard).guardReason)]),
        ("done", (buildInjectionBlockedExecuteResponse server finding inputGuard).modelDump)].map .ok) ∨
    (¬ Blocked server req ∧ ∃ exc, streamSteps server req = (stages req).map .ok ++ [.error exc]) ∨
    (¬ Blocked server req ∧ ∃ r, streamSteps server req = (stages req ++ responseEvents server r).map .ok) := by
  unfold streamSteps
  split
  · exact .inl ⟨_, rfl⟩
  · rename_i inputGuard hinput
    split
    · exact .inl ⟨_, rfl⟩
    · rename_i finding hfinding
      dsimp only
      split_ifs with haction
      · split
        · exact .inl ⟨_, rfl⟩
        · exact .inr (.inl ⟨⟨finding, hfinding, haction⟩, finding, inputGuard, rfl⟩)
      · have hnot : ¬ Blocked server req := by
          rintro ⟨finding', hfinding', haction'⟩
          obtain rfl := Except.ok.inj (hfinding.symm.trans hfinding')
          exact haction haction'
        split
        · exact .inr (.inr (.inl ⟨hnot, _, rfl⟩))
        · rename_i response hresponse
          refine .inr (.inr (.inr ⟨hnot, response, ?_⟩))
          rw [resultSteps_eq, List.map_append]
          rfl

theorem begins_of_map_ok {sent : List (String × PyDict F)} {steps : List (String × PyDict F)} {tail : List (Step F)}
    (htail : ∀ out, .ok out ∉ tail) (h : sent.map .ok <+: steps.map .ok ++ tail) : sent <+: steps := by
  induction steps generalizing sent with
  | nil =>
    cases sent with
    | nil => exact List.nil_prefix
    | cons out sent => exact absurd (h.subset (.head _)) (htail out)
  | cons step steps ih =>
    cases sent with
    | nil => exact List.nil_prefix
    | cons out sent =>
      obtain ⟨hout, hrest⟩ := List.cons_prefix_cons.mp h
      exact List.cons_prefix_cons.mpr ⟨Except.ok.inj hout, ih hrest⟩

/-- The events of a whole answer. -/
inductive Planned (server : Server F) (req : ExecuteRequest) : List (String × PyDict F) → Prop where
  | refused (finding : Finding) (inputGuard : PyDict F) : Blocked server req → Planned server req
    [("guard", [("allowed", .bool false),
        ("reason", .str (buildInjectionBlockedExecuteResponse server finding inputGuard).guardReason)]),
      ("done", (buildInjectionBlockedExecuteResponse server finding inputGuard).modelDump)]
  | answered (r : ExecuteResponse F) : ¬ Blocked server req → Planned server req (stages req ++ responseEvents server r)

/-- What a stream sends: all of the planned events, or a start of them and an error. -/
def Sends (planned sent : List (String × PyDict F)) : Prop :=
  sent = planned ∨
    ∃ start exc, start <+: planned ∧ start ≠ planned ∧ sent = start ++ [("error", [("reason", .str exc)])]

theorem sends_of_eq {planned : List (String × PyDict F)} (h : streamSteps server req = planned.map .ok) :
    Sends planned ((streamNl2sqlEvents fl server req).map SseEvent.out) := by
  unfold streamNl2sqlEvents
  rw [h]
  rcases yields_sent fl (planned.map .ok) with ⟨sent, heq, hsent⟩ | ⟨sent, exc, hbegins, hne, hsent⟩
  · have hinj := List.map_injective_iff.mpr (fun a b hab => Except.ok.inj hab) heq
    exact .inl (hsent.trans hinj.symm)
  · refine .inr ⟨sent, exc, @begins_of_map_ok F sent planned [] (by simp) (by rwa [List.append_nil]), ?_, hsent⟩
    rintro rfl
    exact hne rfl

theorem sends_of_error {planned rest : List (String × PyDict F)} {exc : String} (hrest : rest ≠ [])
    (h : streamSteps server req = planned.map .ok ++ [.error exc]) :
    Sends (planned ++ rest) ((streamNl2sqlEvents fl server req).map SseEvent.out) := by
  unfold streamNl2sqlEvents
  rw [h]
  rcases yields_sent fl (planned.map .ok ++ [.error exc]) with ⟨sent, heq, hsent⟩ | ⟨sent, e, hbegins, hne, hsent⟩
  · have hmem : (.error exc : Step F) ∈ sent.map .ok := heq ▸ List.mem_append_right _ (List.mem_singleton_self _)
    obtain ⟨out, -, hout⟩ := List.mem_map.mp hmem
    cases hout
  · have hstart := begins_of_map_ok (by simp) hbegins
    refine .inr ⟨sent, e, hstart.trans (List.prefix_append _ _), ?_, hsent⟩
    rintro rfl
    have hlen := hstart.length_le
    rw [List.length_append] at hlen
    exact hrest (List.eq_nil_of_length_eq_zero (by omega))

theorem stream_sends (fl : Floats F) (server : Server F) (req : ExecuteRequest) :
    ∃ planned, Planned server req planned ∧ Sends planned ((streamNl2sqlEvents fl server req).map SseEvent.out) := by
  let response : ExecuteResponse F := buildInjectionBlockedExecuteResponse server ⟨"", ""⟩ []
  rcases streamSteps_cases server req with ⟨exc, h⟩ | ⟨hblocked, finding, inputGuard, h⟩ | ⟨hnot, exc, h⟩ | ⟨hnot, r, h⟩
  · have hfirst : streamSteps server req = ([] : List (String × PyDict F)).map .ok ++ [.error exc] := h
    by_cases hblocked : Blocked server req
    · exact ⟨_, .refused ⟨"", ""⟩ [] hblocked, sends_of_error (by simp) hfirst⟩
    · exact ⟨_, .answered response hblocked, @sends_of_error _ _ _ _ [] _ exc (by simp) hfirst⟩
  · exact ⟨_, .refused finding inputGuard hblocked, sends_of_eq h⟩
  · exact ⟨_, .answered response hnot, sends_of_error (by simp [responseEvents]) h⟩
  · exact ⟨_, .answered r hnot, sends_of_eq h⟩

/-! ## What a planned answer is -/

variable {planned sent : List (String × PyDict F)}

theorem Planned.answer (h : Planned server req planned) : Answer (Blocked server req) (planned.map Prod.fst) := by
  cases h with
  | refused finding inputGuard hblocked => exact .refused hblocked
  | answered r hnot =>
    have hnames : (stages req ++ responseEvents server r).map Prod.fst = ["stage", "stage"] ++
        List.replicate (iterSqlChunks server r.sql).length "sql_delta" ++ ["guard", "execution", "done"] := by
      have hdeltas : (iterSqlChunks server r.sql).map (Prod.fst ∘ fun chunk =>
          (("sql_delta", [("delta", .str chunk)]) : String × PyDict F)) =
          List.replicate (iterSqlChunks server r.sql).length "sql_delta" := List.map_const' ..
      unfold stages responseEvents
      rw [List.map_append, List.map_append, List.map_map, hdeltas]
      rfl
    rw [hnames]
    exact .answered _ hnot

theorem Planned.delta (h : Planned server req planned) {data : PyDict F} (hmem : ("sql_delta", data) ∈ planned) :
    ∃ delta, data = [("delta", .str delta)] ∧ delta ≠ "" ∧ (delta.length : Int) ≤ max 1 server.streamChunkChars := by
  cases h with
  | refused finding inputGuard hblocked => simp at hmem
  | answered r hnot =>
    rcases List.mem_append.mp hmem with hstage | hresponse
    · simp [stages] at hstage
    · rcases List.mem_append.mp hresponse with hchunk | hlast
      · obtain ⟨chunk, hchunk, heq⟩ := List.mem_map.mp hchunk
        exact ⟨chunk, (Prod.mk.inj heq).2.symm, iterSqlChunks_size hchunk⟩
      · simp at hlast

/-- The last event is `done`, with the SQL of the deltas, and no other one is. -/
theorem Planned.done (h : Planned server req planned) : ∃ start data, planned = start ++ [("done", data)] ∧
    (∀ data, ("done", data) ∉ start) ∧ data.lookup "sql" = some (.str (String.join (planned.filterMap deltaOf))) := by
  cases h with
  | refused finding inputGuard hblocked => exact ⟨[_], _, rfl, by simp, rfl⟩
  | answered r hnot =>
    refine ⟨stages req ++ ((iterSqlChunks server r.sql).map (fun chunk => ("sql_delta", [("delta", .str chunk)])) ++
      [("guard", [("allowed", .bool r.guardAllowed), ("reason", .str r.guardReason)]), ("execution", executionData r)]),
      r.modelDump, by simp [responseEvents], by simp [stages], ?_⟩
    have hdeltas : (stages req ++ responseEvents server r).filterMap deltaOf = iterSqlChunks server r.sql := by
      have hchunks : ((iterSqlChunks server r.sql).map fun chunk =>
          (("sql_delta", [("delta", .str chunk)]) : String × PyDict F)).filterMap deltaOf =
          iterSqlChunks server r.sql := by
        rw [List.filterMap_map]
        exact List.filterMap_some
      unfold responseEvents
      rw [List.filterMap_append, List.filterMap_append, hchunks]
      show [] ++ (iterSqlChunks server r.sql ++ []) = _
      rw [List.nil_append, List.append_nil]
    rw [hdeltas, join_iterSqlChunks]
    rfl

theorem Sends.grammatical (h : Sends planned sent) {blocked : Prop} (hanswer : Answer blocked (planned.map Prod.fst)) :
    Grammatical blocked (sent.map Prod.fst) := by
  rcases h with rfl | ⟨start, exc, hbegins, hne, rfl⟩
  · exact .inl hanswer
  · refine .inr ⟨_, start.map Prod.fst, hanswer, hbegins.map _, ?_, by simp⟩
    intro heq
    have hlen := congrArg List.length heq
    rw [List.length_map, List.length_map] at hlen
    exact hne (hbegins.eq_of_length hlen)

/-- `done` is sent after all the others only. -/
theorem Sends.eq_of_done (h : Sends planned sent) {start : List (String × PyDict F)} {data data' : PyDict F}
    (hplanned : planned = start ++ [("done", data')]) (hstart : ∀ data, ("done", data) ∉ start)
    (hmem : ("done", data) ∈ sent) : sent = planned := by
  rcases h with rfl | ⟨sent, exc, hbegins, hne, rfl⟩
  · rfl
  · rw [hplanned] at hbegins hne
    rcases List.prefix_concat_iff.mp hbegins with rfl | hbegins
    · exact absurd rfl hne
    · rcases List.mem_append.mp hmem with hsent | herror
      · exact absurd (hbegins.subset hsent) (hstart data)
      · simp at herror

/-- **The grammar of the stream.**  For every request and whatever the guards and the pipeline do, the events are a
whole answer, or the start of one and an error.  The deltas are the SQL of `done`, in parts of the size of a chunk. -/
theorem stream_grammar (fl : Floats F) (server : Server F) (req : ExecuteRequest) :
    Grammatical (Blocked server req) ((streamNl2sqlEvents fl server req).map SseEvent.event) ∧
    (∀ e ∈ streamNl2sqlEvents fl server req, e.event = "done" →
      e.data.lookup "sql" = some (.str (String.join (deltas (streamNl2sqlEvents fl server req))))) ∧
    ∀ e ∈ streamNl2sqlEvents fl server req, e.event = "sql_delta" → ∃ delta,
      e.data = [("delta", .str delta)] ∧ delta ≠ "" ∧ (delta.length : Int) ≤ max 1 server.streamChunkChars := by
  obtain ⟨planned, hplanned, hsends⟩ := stream_sends fl server req
  have hmem : ∀ e ∈ streamNl2sqlEvents fl server req,
      (e.event, e.data) ∈ (streamNl2sqlEvents fl server req).map SseEvent.out :=
    fun e he => List.mem_map_of_mem (f := SseEvent.out) he
  refine ⟨?_, fun e he hname => ?_, fun e he hname => ?_⟩
  · have hgrammar := hsends.grammatical hplanned.answer
    rwa [List.map_map] at hgrammar
  · obtain ⟨start, data, heq, hstart, hsql⟩ := hplanned.done
    have hdone := hmem e he
    rw [hname] at hdone
    have hall := hsends.eq_of_done heq hstart hdone
    have hlast : e.data = data := by
      rw [hall, heq] at hdone
      rcases List.mem_append.mp hdone with hmem | hmem
      · exact absurd hmem (hstart _)
      · exact (Prod.mk.inj (List.mem_singleton.mp hmem)).2
    have hdeltas : deltas (streamNl2sqlEvents fl server req) = planned.filterMap deltaOf := by
      unfold deltas
      rw [← hall, List.filterMap_map]
      rfl
    rw [hlast, hsql, hdeltas]
  · have hdelta := hmem e he
    rw [hname] at hdelta
    refine hplanned.delta ?_
    rcases hsends with heq | ⟨start, exc, hbegins, -, heq⟩
    · rwa [heq] at hdelta
    · rw [heq] at hdelta
      rcases List.mem_append.mp hdelta with hstart | herror
      · exact hbegins.subset hstart
      · simp at herror

end Nl2sqlStream

end AgentHarness
