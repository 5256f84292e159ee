import AgentHarness.Lib.Framing
import AgentHarness.Lib.JsonRoundTrip
import AgentHarness.Lib.Text
import AgentHarness.Lib.Utf8Stream
import Mathlib.Data.List.Forall2

/-!
# Nl2sqlStream — the event stream of `/nl2sql/stream`, from the server to the page

`_stream_nl2sql_events` writes events in the format of server-sent events, with their data in JSON;
`streamNl2sql` of the frontend reads the bytes in chunks, and calls a handler for each event.  A text that is no
JSON it drops.
-/

namespace AgentHarness

open Lib Lib.Json

namespace Nl2sqlStream

/-- A dict of Python, with string keys. -/
abbrev PyDict (F : Type) := List (String × PyValue F)

variable {F : Type}

/-! ## The server -/

structure ExecuteRequest where
  query : String
  generator : String
  provider : Option String
  fallbackToMock : Bool

structure ExecuteResponse (F : Type) where
  selectedTables : List String
  fallback : Bool
  sql : String
  guardAllowed : Bool
  guardReason : String
  reasoning : String
  confidence : F
  generatorUsed : String
  providerUsed : Option String
  fallbackUsed : Bool
  fallbackReason : Option String
  warnings : List String
  execution : Option (PyDict F)
  formattedResult : Option (PyDict F)
  chartSpec : Option (PyDict F)
  guardrails : Option (PyDict F)
  providerMetadata : Option (PyDict F)
  budgetStatus : Option (PyDict F)
  acceptanceSummary : Option (PyDict F)
  evidenceLinks : Option (PyDict F)

def optStr : Option String → PyValue F := fun s => (s.map .str).getD .none

def optDict : Option (PyDict F) → PyValue F := fun d => (d.map .dict).getD .none

/-- `response.model_dump()` -/
def ExecuteResponse.modelDump (r : ExecuteResponse F) : PyDict F :=
  [("selected_tables", .list (r.selectedTables.map .str)), ("fallback", .bool r.fallback), ("sql", .str r.sql),
    ("guard_allowed", .bool r.guardAllowed), ("guard_reason", .str r.guardReason), ("reasoning", .str r.reasoning),
    ("confidence", .float r.confidence), ("generator_used", .str r.generatorUsed),
    ("provider_used", optStr r.providerUsed), ("fallback_used", .bool r.fallbackUsed),
    ("fallback_reason", optStr r.fallbackReason), ("warnings", .list (r.warnings.map .str)),
    ("execution", optDict r.execution), ("formatted_result", optDict r.formattedResult),
    ("chart_spec", optDict r.chartSpec), ("guardrails", optDict r.guardrails),
    ("provider_metadata", optDict r.providerMetadata), ("budget_status", optDict r.budgetStatus),
    ("acceptance_summary", optDict r.acceptanceSummary), ("evidence_links", optDict r.evidenceLinks)]

/-- What `check_text` of the injection guard finds. -/
structure Finding where
  action : String
  reason : String

/-- What the endpoint calls.  Each may raise, with the text of the exception. -/
structure Server (F : Type) where
  /-- `0.0` -/
  zero : F
  /-- `settings.llm_stream_chunk_chars` -/
  streamChunkChars : Int
  checkInput : String → Except String (PyDict F)
  checkText : String → Except String Finding
  /-- the audit event of a request that is blocked -/
  recordBlocked : String → Finding → Except String Unit
  /-- `_execute_nl2sql_result` -/
  execute : ExecuteRequest → String → PyDict F → Except String (ExecuteResponse F)

variable (fl : Floats F) (server : Server F)

/-- `_sse_event` -/
def sseEvent (event : String) (data : PyDict F) : Except String (List Char) := do
  let json ← dumps fl (.dict data)
  .ok ("event: ".toList ++ event.toList ++ "\ndata: ".toList ++ json ++ "\n\n".toList)

/-- `_iter_sql_chunks` -/
def iterSqlChunks (sql : String) : List String :=
  let chunkChars := (max 1 server.streamChunkChars).toNat
  (List.range ((sql.toList.length + chunkChars - 1) / chunkChars)).map fun i =>
    String.ofList (slice sql.toList (i * chunkChars) (i * chunkChars + chunkChars))

/-- `_build_injection_blocked_execute_response` -/
def buildInjectionBlockedExecuteResponse (finding : Finding) (inputGuard : PyDict F) : ExecuteResponse F where
  selectedTables := []
  fallback := false
  sql := ""
  guardAllowed := false
  guardReason := "prompt injection blocked: " ++ finding.reason
  reasoning := finding.reason
  confidence := server.zero
  generatorUsed := "none"
  providerUsed := none
  fallbackUsed := false
  fallbackReason := none
  warnings := ["prompt_injection_blocked: " ++ finding.reason]
  execution := none
  formattedResult := none
  chartSpec := none
  guardrails := some [("input", .dict inputGuard)]
  providerMetadata := none
  budgetStatus := none
  acceptanceSummary := none
  evidenceLinks := none

/-- An event that is sent: its data have a text. -/
structure SseEvent where
  event : String
  data : PyDict F
  text : List Char
  encoded : sseEvent fl event data = .ok text

/-- What the `try` block does, in order: it yields an event, or raises. -/
abbrev Step (F : Type) := Except String (String × PyDict F)

/-- `_sse_event("error", {"reason": str(exc)})` -/
def errorEvent (exc : String) : SseEvent fl where
  event := "error"
  data := [("reason", .str exc)]
  text := _
  encoded := rfl

/-- The `try` block with its handler.  Data that are not serializable raise, too. -/
def yields : List (Step F) → List (SseEvent fl)
  | [] => []
  | .error exc :: _ => [errorEvent fl exc]
  | .ok (event, data) :: steps =>
    match h : sseEvent fl event data with
    | .ok text => ⟨event, data, text, h⟩ :: yields steps
    | .error exc => [errorEvent fl exc]

/-- `input_guard.get("sanitized_text") or req.query` -/
def safeQuery (inputGuard : PyDict F) (query : String) : String :=
  match inputGuard.lookup "sanitized_text" with
  | some (.str text) => if text = "" then query else text
  | _ => query

/-- `payload.get("execution") or {...}` -/
def executionData (r : ExecuteResponse F) : PyDict F :=
  match r.execution with
  | some (kv :: d) => kv :: d
  | _ => [("success", .bool false), ("error", .str r.guardReason)]

/-- The events after the pipeline has run. -/
def resultSteps (r : ExecuteResponse F) : List (Step F) :=
  (iterSqlChunks server r.sql).map (fun chunk => .ok ("sql_delta", [("delta", .str chunk)])) ++
    [.ok ("guard", [("allowed", .bool r.guardAllowed), ("reason", .str r.guardReason)]),
      .ok ("execution", executionData r), .ok ("done", r.modelDump)]

def streamSteps (req : ExecuteRequest) : List (Step F) :=
  match server.checkInput req.query with
  | .error exc => [.error exc]
  | .ok inputGuard =>
    match server.checkText req.query with
    | .error exc => [.error exc]
    | .ok finding =>
      let query := safeQuery inputGuard req.query
      if finding.action = "block" then
        match server.recordBlocked query finding with
        | .error exc => [.error exc]
        | .ok () =>
          let blocked := buildInjectionBlockedExecuteResponse server finding inputGuard
          [.ok ("guard", [("allowed", .bool false), ("reason", .str blocked.guardReason)]),
            .ok ("done", blocked.modelDump)]
      else
        [.ok ("stage", [("stage", .str "schema_loaded")]),
          .ok ("stage", [("stage", .str "generating"), ("generator", .str req.generator),
            ("provider", .str (req.provider.getD ""))])] ++
          match server.execute req query inputGuard with
          | .error exc => [.error exc]
          | .ok response => resultSteps server response

/-- `_stream_nl2sql_events` -/
def streamNl2sqlEvents (req : ExecuteRequest) : List (SseEvent fl) := yields fl (streamSteps server req)

/-- The bytes of the response. -/
def body (req : ExecuteRequest) : List UInt8 := utf8 ((streamNl2sqlEvents fl server req).flatMap SseEvent.text)

/-! ## The page -/

/-- A call of a handler. -/
inductive HandlerCall (F : Type) where
  | onStage (stage : JsString)
  | onSqlDelta (delta : JsString)
  | onGuard (allowed : Bool) (reason : JsString)
  | onExecution (execution : JsValue F)
  | onDone (result : JsValue F)
  | onError (reason : JsString)

/-- What the page has of JavaScript. -/
structure Page (F : Type) where
  /-- `String(value)` of a value that is no string -/
  stringOf : JsValue F → JsString

variable (page : Page F)

/-- The white space and the line ends that `trim` removes. -/
def isJsSpace (c : Char) : Bool :=
  [0x09, 0x0A, 0x0B, 0x0C, 0x0D, 0x20, 0xA0, 0x1680, 0x2028, 0x2029, 0x202F, 0x205F, 0x3000, 0xFEFF].contains c.toNat ||
    (0x2000 ≤ c.toNat && c.toNat ≤ 0x200A)

def trim (text : List Char) : List Char := Unicode.dropEnd isJsSpace (text.dropWhile isJsSpace)

/-- `data[key]`: `undefined` where there is none, and a `TypeError` for `null`. -/
def member (data : JsValue F) (key : String) : Except Unit (Option (JsValue F)) :=
  match data with
  | .null => .error ()
  | .object members => .ok (members.reverse.lookup (jsString key.toList))
  | _ => .ok none

/-- `String(value ?? default)` -/
def stringOr (dflt : String) : Option (JsValue F) → JsString
  | none | some .null => jsString dflt.toList
  | some (.string s) => s
  | some v => page.stringOf v

/-- `Boolean(value)` -/
def boolean : Option (JsValue F) → Bool
  | none | some .null => false
  | some (.bool b) => b
  | some (.number x) =>
    match fl.kind x with
    | .finite value => value ≠ 0
    | .nan => false
    | _ => true
  | some (.string s) => s ≠ []
  | some (.array _) | some (.object _) => true

/-- The name of the event and its lines of data, with one more line. -/
def readLine (acc : List Char × List (List Char)) (line : List Char) : List Char × List (List Char) :=
  if "event:".toList.isPrefixOf line then (trim (line.drop "event:".length), acc.2)
  else if "data:".toList.isPrefixOf line then (acc.1, acc.2 ++ [trim (line.drop "data:".length)])
  else acc

/-- The `switch` over the names.  An exception leaves the reader. -/
def callFor (eventName : List Char) (data : JsValue F) : Except Unit (Option (HandlerCall F)) :=
  if eventName = "stage".toList then do
    let stage ← member data "stage"
    .ok (some (.onStage (stringOr page "" stage)))
  else if eventName = "sql_delta".toList then do
    let delta ← member data "delta"
    .ok (some (.onSqlDelta (stringOr page "" delta)))
  else if eventName = "guard".toList then do
    let allowed ← member data "allowed"
    let reason ← member data "reason"
    .ok (some (.onGuard (boolean fl allowed) (stringOr page "" reason)))
  else if eventName = "execution".toList then .ok (some (.onExecution data))
  else if eventName = "done".toList then .ok (some (.onDone data))
  else if eventName = "error".toList then do
    let reason ← member data "reason"
    .ok (some (.onError (stringOr page "stream error" reason)))
  else .ok none

/-- `dispatchSseEvent` -/
def dispatchSseEvent (rawEvent : List Char) : Except Unit (Option (HandlerCall F)) :=
  let (eventName, dataLines) := (rawEvent.splitOn '\n').foldl readLine ("message".toList, [])
  if dataLines = [] then .ok none
  else
    match parse fl (['\n'].intercalate dataLines) with
    -- the `SyntaxError` is caught
    | none => .ok none
    | some data => callFor fl page eventName data

/-- The events that are cut out of the chunks, one chunk after the other. -/
def readEvents (decoder : TextDecoder) (buffer : List Char) : List (List UInt8) → List (List Char)
  | [] => []
  | value :: chunks =>
    let (text, decoder) := decoder.decode value
    let (rawEvents, buffer) := Framing.frames '\n' ['\n'] (buffer ++ text)
    rawEvents ++ readEvents decoder buffer chunks

/-- The calls for the events, and whether one has raised. -/
def dispatchAll : List (List Char) → List (HandlerCall F) × Bool
  | [] => ([], false)
  | rawEvent :: rawEvents =>
    match dispatchSseEvent fl page rawEvent with
    | .error () => ([], true)
    | .ok none => dispatchAll rawEvents
    | .ok (some call) => (call :: (dispatchAll rawEvents).1, (dispatchAll rawEvents).2)

/-- `streamNl2sql`, on the chunks of a response. -/
def streamNl2sql (chunks : List (List UInt8)) : List (HandlerCall F) × Bool :=
  dispatchAll fl page (readEvents .new [] chunks)

/-! ## What the stream is for -/

variable {fl server page}

/-- The call hands over the event, with the same data. -/
def Announces (e : SseEvent fl) : HandlerCall F → Prop
  | .onStage stage => e.event = "stage" ∧ ∃ s, e.data.lookup "stage" = some (.str s) ∧ stage = jsString s.toList
  | .onSqlDelta delta => e.event = "sql_delta" ∧
      ∃ s, e.data.lookup "delta" = some (.str s) ∧ delta = jsString s.toList
  | .onGuard allowed reason => e.event = "guard" ∧ e.data.lookup "allowed" = some (.bool allowed) ∧
      ∃ s, e.data.lookup "reason" = some (.str s) ∧ reason = jsString s.toList
  | .onExecution execution => e.event = "execution" ∧ Same fl (.dict e.data) execution
  | .onDone result => e.event = "done" ∧ Same fl (.dict e.data) result
  | .onError reason => e.event = "error" ∧ ∃ s, e.data.lookup "reason" = some (.str s) ∧ reason = jsString s.toList

/-- The handlers are called for the events one by one, and none raises. -/
def Dispatched (events : List (SseEvent fl)) (result : List (HandlerCall F) × Bool) : Prop :=
  result.2 = false ∧ List.Forall₂ Announces events result.1

/-! ## The bytes and the events -/

variable {event json text rest buffer : List Char} {data : PyDict F} {e : SseEvent fl} {req : ExecuteRequest}
  {chunks : List (List UInt8)} {decoder : TextDecoder}

/-- The text of an event, without the blank line after it. -/
def rawOf (event json : List Char) : List Char := "event: ".toList ++ event ++ '\n' :: "data: ".toList ++ json

theorem cut_rawOf (hevent : '\n' ∉ event) (hjson : '\n' ∉ json) :
    Framing.cut '\n' ['\n'] (rawOf event json ++ '\n' :: '\n' :: rest) = some (rawOf event json, rest) := by
  have hfirst : '\n' ∉ "event: ".toList ++ event :=
    fun h => (List.mem_append.mp h).elim (by decide) hevent
  have hsecond : '\n' ∉ "data: ".toList ++ json := fun h => (List.mem_append.mp h).elim (by decide) hjson
  have hno : ¬ ['\n', '\n'] <+: '\n' :: ("data: ".toList ++ json ++ '\n' :: '\n' :: rest) := by
    intro hprefix
    have := (List.cons_prefix_cons.mp (List.cons_prefix_cons.mp hprefix).2).1
    exact absurd this (by decide)
  have htext : rawOf event json ++ '\n' :: '\n' :: rest =
      ("event: ".toList ++ event) ++ ('\n' :: ("data: ".toList ++ json ++ '\n' :: '\n' :: rest)) := by
    unfold rawOf
    simp
  have hend : Framing.cut '\n' ['\n'] ('\n' :: '\n' :: rest) = some ([], rest) := Framing.cut_separator
  rw [htext, Framing.cut_append_of_not_mem hfirst, Framing.cut_skip hno, Framing.cut_append_of_not_mem hsecond, hend]
  unfold rawOf
  simp

theorem readEvents_eq (hbuffer : Framing.cut '\n' ['\n'] buffer = none) : readEvents decoder buffer chunks =
    (Framing.frames '\n' ['\n'] (buffer ++ (decoder.decodeAll chunks).1)).1 := by
  induction chunks generalizing decoder buffer with
  | nil =>
    show [] = (Framing.frames '\n' ['\n'] (buffer ++ [])).1
    rw [List.append_nil, Framing.frames_none hbuffer]
  | cons value chunks ih =>
    unfold readEvents TextDecoder.decodeAll
    dsimp only
    rw [ih Framing.cut_frames, ← List.append_assoc,
      Framing.frames_append (l := buffer ++ (decoder.decode value).1)]

/-- The events that are sent are cut out again, however their bytes are split. -/
theorem readEvents_texts {raws : List (List Char)} {text : List Char}
    (hframes : Framing.frames '\n' ['\n'] text = (raws, []))
    (hbom : ∀ rest, text ≠ TextDecoder.byteOrderMark :: rest) (hchunks : chunks.flatten = utf8 text) : readEvents .new [] chunks = raws := by
  rw [readEvents_eq rfl, TextDecoder.decodeAll_eq, hchunks, TextDecoder.decode_utf8 hbom, List.nil_append, hframes]

/-! ## One event -/

theorem newline_not_mem (h : Printable text) : '\n' ∉ text := fun hmem => absurd (h _ hmem) (by decide)

theorem trim_braces {inner : List Char} : trim (' ' :: '\x7b' :: inner ++ ['\x7d']) = '\x7b' :: inner ++ ['\x7d'] := by
  unfold trim Unicode.dropEnd
  have hstart : (' ' :: '\x7b' :: inner ++ ['\x7d']).dropWhile isJsSpace = '\x7b' :: inner ++ ['\x7d'] := rfl
  have hreverse : ('\x7b' :: inner ++ ['\x7d']).reverse = '\x7d' :: ('\x7b' :: inner).reverse := by simp
  have hend : ('\x7d' :: ('\x7b' :: inner).reverse).dropWhile isJsSpace = '\x7d' :: ('\x7b' :: inner).reverse := rfl
  rw [hstart, hreverse, hend, ← hreverse, List.reverse_reverse]

/-- What the page does with an event: it drops it, if its data are no JSON. -/
theorem dispatch_rawOf (hevent : '\n' ∉ event) (htrim : trim (' ' :: event) = event)
    (hjson : dumps fl (.dict data) = .ok json) : dispatchSseEvent fl page (rawOf event json) =
      match readAs fl (.dict data) with
      | none => .ok none
      | some v => callFor fl page event v := by
  have hnewline := newline_not_mem (printable_dumps _ _ hjson)
  have hlines : (rawOf event json).splitOn '\n' = ["event: ".toList ++ event, "data: ".toList ++ json] := by
    have hraw : rawOf event json = ['\n'].intercalate ["event: ".toList ++ event, "data: ".toList ++ json] := by
      unfold rawOf
      simp [List.intercalate]
    rw [hraw]
    refine List.splitOn_intercalate _ ?_ (by simp)
    intro l hl
    simp only [List.mem_cons, List.not_mem_nil, or_false] at hl
    rcases hl with rfl | rfl
    · exact fun h => (List.mem_append.mp h).elim (by decide) hevent
    · exact fun h => (List.mem_append.mp h).elim (by decide) hnewline
  have hfold : ((rawOf event json).splitOn '\n').foldl readLine ("message".toList, []) = (event, [json]) := by
    obtain ⟨inner, rfl⟩ := dumps_dict_braces hjson
    rw [hlines]
    show (trim (' ' :: event), [trim (' ' :: '\x7b' :: inner ++ ['\x7d'])]) = _
    rw [htrim, trim_braces]
  unfold dispatchSseEvent
  rw [hfold]
  dsimp only
  have hone : ['\n'].intercalate [json] = json := by simp [List.intercalate]
  rw [if_neg (by simp), hone, parse_dumps hjson]

/-- The events that there are. -/
inductive Emitted : String → PyDict F → Prop where
  | schemaLoaded : Emitted "stage" [("stage", .str "schema_loaded")]
  | generating (generator provider : String) :
    Emitted "stage" [("stage", .str "generating"), ("generator", .str generator), ("provider", .str provider)]
  | delta (chunk : String) : Emitted "sql_delta" [("delta", .str chunk)]
  | guard (allowed : Bool) (reason : String) : Emitted "guard" [("allowed", .bool allowed), ("reason", .str reason)]
  | execution (data : PyDict F) : Emitted "execution" data
  | done (data : PyDict F) : Emitted "done" data
  | error (reason : String) : Emitted "error" [("reason", .str reason)]

/-- A step that yields does so with one of these events. -/
def Step.Fine (step : Step F) : Prop := ∀ event data, step = .ok (event, data) → Emitted event data

theorem fine_ok {event : String} (h : Emitted event data) : Step.Fine (.ok (event, data)) := by
  intro event' data' heq
  obtain ⟨rfl, rfl⟩ := Prod.mk.inj (Except.ok.inj heq)
  exact h

theorem fine_error {exc : String} : Step.Fine (.error exc : Step F) := fun _ _ heq => nomatch heq

theorem resultSteps_fine {r : ExecuteResponse F} : ∀ step ∈ resultSteps server r, Step.Fine step := by
  intro step hstep
  rcases List.mem_append.mp hstep with hdelta | hlast
  · obtain ⟨chunk, -, rfl⟩ := List.mem_map.mp hdelta
    exact fine_ok (.delta chunk)
  · simp only [List.mem_cons, List.not_mem_nil, or_false] at hlast
    rcases hlast with rfl | rfl | rfl
    · exact fine_ok (.guard _ _)
    · exact fine_ok (.execution _)
    · exact fine_ok (.done _)

theorem streamSteps_fine : ∀ step ∈ streamSteps server req, Step.Fine step := by
  have hraises : ∀ exc : String, ∀ step ∈ [(.error exc : Step F)], Step.Fine step := fun exc =>
    List.forall_mem_singleton.mpr fine_error
  unfold streamSteps
  split
  · exact hraises _
  · split
    · exact hraises _
    · dsimp only
      split_ifs
      · split
        · exact hraises _
        · exact List.forall_mem_cons.mpr ⟨fine_ok (.guard _ _), List.forall_mem_singleton.mpr (fine_ok (.done _))⟩
      · intro step hstep
        rcases List.mem_append.mp hstep with hfirst | hrest
        · simp only [List.mem_cons, List.not_mem_nil, or_false] at hfirst
          rcases hfirst with rfl | rfl
          · exact fine_ok .schemaLoaded
          · exact fine_ok (.generating _ _)
        · split at hrest
          · exact hraises _ step hrest
          · exact resultSteps_fine step hrest

theorem yields_emitted {steps : List (Step F)} (hsteps : ∀ step ∈ steps, Step.Fine step) :
    ∀ e ∈ yields fl steps, Emitted e.event e.data := by
  have herror : ∀ exc, ∀ e ∈ [errorEvent fl exc], Emitted e.event e.data := fun exc =>
    List.forall_mem_singleton.mpr (.error exc)
  induction steps with
  | nil => exact fun e he => absurd he List.not_mem_nil
  | cons step steps ih =>
    obtain ⟨hstep, hrest⟩ := List.forall_mem_cons.mp hsteps
    cases step with
    | error exc => exact herror exc
    | ok out =>
      obtain ⟨event, data⟩ := out
      unfold yields
      split
      · exact List.forall_mem_cons.mpr ⟨hstep event data rfl, ih hrest⟩
      · exact herror _

theorem emitted_name {event : String} (h : Emitted event data) :
    '\n' ∉ event.toList ∧ trim (' ' :: event.toList) = event.toList := by
  cases h <;> decide

/-- The call for an event, if there is one. -/
def callOf (fl : Floats F) (page : Page F) (e : SseEvent fl) : Option (HandlerCall F) :=
  match readAs fl (.dict e.data) with
  | none => none
  | some v => (callFor fl page e.event.toList v).toOption.join

/-- An event is announced exactly if its data are portable. -/
theorem callOf_iff (he : Emitted e.event e.data) :
    (∃ call, callOf fl page e = some call ∧ Announces e call) ↔ Portable fl (.dict e.data) := by
  obtain ⟨event, data, text, hencoded⟩ := e
  dsimp only at he ⊢
  unfold callOf
  dsimp only
  cases he with
  | schemaLoaded => exact iff_of_true ⟨_, rfl, rfl, _, rfl, rfl⟩ ⟨trivial, trivial⟩
  | generating generator provider =>
    exact iff_of_true ⟨_, rfl, rfl, _, rfl, rfl⟩ ⟨trivial, trivial, trivial, trivial⟩
  | delta chunk => exact iff_of_true ⟨_, rfl, rfl, _, rfl, rfl⟩ ⟨trivial, trivial⟩
  | guard allowed reason => exact iff_of_true ⟨_, rfl, rfl, rfl, _, rfl, rfl⟩ ⟨trivial, trivial, trivial⟩
  | error reason => exact iff_of_true ⟨_, rfl, rfl, _, rfl, rfl⟩ ⟨trivial, trivial⟩
  | execution data =>
    rw [← survives_iff]
    unfold Survives
    cases hread : readAs fl (.dict data) with
    | none => exact iff_of_false (by simp) (by simp)
    | some v =>
      constructor
      · rintro ⟨call, hcall, hsame⟩
        obtain rfl := Option.some.inj hcall
        exact ⟨v, rfl, hsame.2⟩
      · rintro ⟨v', hv, hsame⟩
        obtain rfl := Option.some.inj hv
        exact ⟨_, rfl, rfl, hsame⟩
  | done data =>
    rw [← survives_iff]
    unfold Survives
    cases hread : readAs fl (.dict data) with
    | none => exact iff_of_false (by simp) (by simp)
    | some v =>
      constructor
      · rintro ⟨call, hcall, hsame⟩
        obtain rfl := Option.some.inj hcall
        exact ⟨v, rfl, hsame.2⟩
      · rintro ⟨v', hv, hsame⟩
        obtain rfl := Option.some.inj hv
        exact ⟨_, rfl, rfl, hsame⟩

/-- For an event with data there is a call. -/
theorem callFor_ok {event : String} {v : JsValue F} (he : Emitted event data) (hv : readAs fl (.dict data) = some v) :
    ∃ call, callFor fl page event.toList v = .ok (some call) := by
  cases he with
  | execution data => exact ⟨_, rfl⟩
  | done data => exact ⟨_, rfl⟩
  | _ =>
    obtain rfl := Option.some.inj hv
    exact ⟨_, rfl⟩

theorem text_eq (e : SseEvent fl) : ∃ json, dumps fl (.dict e.data) = .ok json ∧
    e.text = rawOf e.event.toList json ++ ['\n', '\n'] := by
  have hencoded := e.encoded
  unfold sseEvent at hencoded
  cases hjson : dumps fl (.dict e.data) with
  | error exc =>
    rw [hjson] at hencoded
    cases hencoded
  | ok json =>
    rw [hjson] at hencoded
    refine ⟨json, rfl, ?_⟩
    rw [← Except.ok.inj hencoded]
    unfold rawOf
    simp

/-- The text of the events is cut into them, and the page makes their calls. -/
theorem dispatchAll_texts {events : List (SseEvent fl)} (he : ∀ e ∈ events, Emitted e.event e.data) : ∃ raws,
    Framing.frames '\n' ['\n'] (events.flatMap SseEvent.text) = (raws, []) ∧
      dispatchAll fl page raws = (events.filterMap (callOf fl page), false) := by
  induction events with
  | nil => exact ⟨[], Framing.frames_none rfl, rfl⟩
  | cons e events ih =>
    obtain ⟨he, hrest⟩ := List.forall_mem_cons.mp he
    obtain ⟨raws, hframes, hcalls⟩ := ih hrest
    obtain ⟨json, hjson, htext⟩ := text_eq e
    obtain ⟨hname, htrim⟩ := emitted_name he
    have hnewline := newline_not_mem (printable_dumps _ _ hjson)
    have hcut : Framing.cut '\n' ['\n'] ((e :: events).flatMap SseEvent.text) =
        some (rawOf e.event.toList json, events.flatMap SseEvent.text) := by
      rw [List.flatMap_cons, htext, List.append_assoc]
      exact cut_rawOf hname hnewline
    refine ⟨rawOf e.event.toList json :: raws, by rw [Framing.frames_some hcut, hframes], ?_⟩
    have hdispatch := @dispatch_rawOf F fl page _ _ _ hname htrim hjson
    unfold dispatchAll
    rw [hdispatch]
    cases hv : readAs fl (.dict e.data) with
    | none =>
      have hcall : callOf fl page e = none := by
        unfold callOf
        rw [hv]
      rw [List.filterMap_cons_none hcall]
      exact hcalls
    | some v =>
      obtain ⟨call, hcall⟩ := @callFor_ok F fl page _ _ v he hv
      have hsome : callOf fl page e = some call := by
        unfold callOf
        rw [hv]
        dsimp only
        rw [hcall]
        rfl
      rw [List.filterMap_cons_some hsome]
      dsimp only
      rw [hcall]
      dsimp only
      rw [hcalls]

/-- What a partial function finds is related one by one exactly if it finds something related for each. -/
theorem forall₂_filterMap {α β : Type} {f : α → Option β} {R : α → β → Prop} {l : List α} :
    List.Forall₂ R l (l.filterMap f) ↔ ∀ a ∈ l, ∃ b, f a = some b ∧ R a b := by
  induction l with
  | nil => simp
  | cons a l ih =>
    rw [List.forall_mem_cons, ← ih]
    cases hf : f a with
    | none =>
      rw [List.filterMap_cons_none hf]
      refine iff_of_false ?_ (by simp)
      intro h
      have hle : (l.filterMap f).length ≤ l.length := List.length_filterMap_le f l
      have hlen := h.length_eq
      rw [List.length_cons] at hlen
      omega
    | some b =>
      rw [List.filterMap_cons_some hf, List.forall₂_cons]
      simp

/-- However the bytes are split, the page makes the calls of the events whose data are JSON. -/
theorem streamNl2sql_body (hchunks : chunks.flatten = body fl server req) :
    streamNl2sql fl page chunks = ((streamNl2sqlEvents fl server req).filterMap (callOf fl page), false) := by
  have he : ∀ e ∈ streamNl2sqlEvents fl server req, Emitted e.event e.data := yields_emitted streamSteps_fine
  obtain ⟨raws, hframes, hcalls⟩ := @dispatchAll_texts F fl page _ he
  have hbom : ∀ rest,
      (streamNl2sqlEvents fl server req).flatMap SseEvent.text ≠ TextDecoder.byteOrderMark :: rest := by
    intro rest heq
    cases hevents : streamNl2sqlEvents fl server req with
    | nil =>
      rw [hevents] at heq
      cases heq
    | cons e events =>
      obtain ⟨json, -, htext⟩ := text_eq e
      rw [hevents, List.flatMap_cons, htext] at heq
      exact absurd (List.cons.inj heq).1 (by decide)
  unfold streamNl2sql
  rw [readEvents_texts hframes hbom hchunks, hcalls]

theorem portable_of_dispatched (hchunks : chunks.flatten = body fl server req)
    (h : Dispatched (streamNl2sqlEvents fl server req) (streamNl2sql fl page chunks)) :
    ∀ e ∈ streamNl2sqlEvents fl server req, Portable fl (.dict e.data) := by
  intro e hmem
  rw [streamNl2sql_body hchunks] at h
  exact (callOf_iff (yields_emitted streamSteps_fine e hmem)).mp (forall₂_filterMap.mp h.2 e hmem)

/-- A row that has one column. -/
def execution (sql : String) (value : PyValue F) : PyDict F :=
  [("sql", .str sql), ("columns", .list [.str "x"]), ("rows", .list [.dict [("x", value)]]), ("row_count", .int 1),
    ("truncated", .bool false), ("success", .bool true), ("error", .none)]

/-- A server whose pipeline answers with a SQL text, and one row for it. -/
def answering (sql : String) (value : PyValue (Option Int)) : Server (Option Int) where
  zero := some 0
  streamChunkChars := 64
  checkInput _ := .ok []
  checkText _ := .ok ⟨"allow", ""⟩
  recordBlocked _ _ := .ok ()
  execute _ _ _ := .ok {
    selectedTables := ["orders"], fallback := false, sql := sql, guardAllowed := true, guardReason := "",
    reasoning := "", confidence := some 1, generatorUsed := "llm", providerUsed := some "litellm", fallbackUsed := false,
    fallbackReason := none, warnings := [], execution := some (execution sql value), formattedResult := none,
    chartSpec := none, guardrails := none, providerMetadata := none, budgetStatus := none, acceptanceSummary := none,
    evidenceLinks := none }

def answeringSeven : Server (Option Int) := answering "SELECT 7 AS x FROM orders" (.int 7)

def answeringInfinity : Server (Option Int) := answering "SELECT 9e999 AS x FROM orders" (.float none)

def request : ExecuteRequest := ⟨"x", "llm", some "litellm", true⟩

def plainPage : Page (Option Int) := ⟨fun _ => []⟩

end Nl2sqlStream

end AgentHarness
