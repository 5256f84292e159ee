import AgentHarness.StreamToolCalls
import AgentHarness.TolerantLoads
import Mathlib.Data.List.ReduceOption

/-!
# StreamedReply — a reply that is streamed, and the same reply in one response

An OpenAI-compatible endpoint answers with one JSON object, or with lines of events that carry the reply in pieces.
`streamed_reply_parsed` compares the metadata of the two: `_stream_openai_compatible_chat` ends with what
`_parse_openai_chat_payload` makes of the whole reply, in whatever pieces it came.  They differ in one place: a total of
0 tokens is replaced by the sum.
-/

namespace AgentHarness

open Lib

namespace Provider

variable (env : LlmEnv) (dumps : PyVal → String)

/-! ## One response -/

def typeError (text : String) : Raised := ⟨"TypeError", text⟩

/-- `type(v).__name__` -/
def typeName : PyVal → String
  | .null => "NoneType"
  | .bool _ => "bool"
  | .int _ => "int"
  | .float _ => "float"
  | .str _ => "str"
  | .list _ => "list"
  | .dict _ => "dict"
  | .object name => name

/-- What `for item in v` goes through. -/
def iterate (v : PyVal) : Except Raised (List PyVal) :=
  match v with
  | .list items => .ok items
  | .dict entries => .ok (entries.map fun entry => .str entry.1)
  | .str s => .ok (s.toList.map fun c => .str (String.singleton c))
  | v => .error (typeError ("'" ++ typeName v ++ "' object is not iterable"))

/-- An entry of `_normalize_tool_calls`.  A JSON value that is no dict has none of the attributes. -/
def normalizeToolCall (item : PyVal) : ToolCallSlot :=
  match item with
  | .dict item =>
    let function := StreamToolCalls.functionDict item
    { id := StreamToolCalls.textOr env.format (Dict.get item "id")
      name := StreamToolCalls.textOr env.format (Dict.get function "name")
      arguments := match Dict.get function "arguments" with
        | .null => ""
        | .str arguments => arguments
        | arguments => dumps arguments }
  | _ => .empty

/-- `_normalize_tool_calls` -/
def normalizeToolCalls (raw : PyVal) : Except Raised (Option (List PyVal)) :=
  if raw.truthy then do
    let items ← iterate raw
    let normalized := items.map fun item => (normalizeToolCall env dumps item).toDict
    pure (if normalized.isEmpty then none else some normalized)
  else pure none

/-- `_parse_openai_chat_payload`, with the tool calls of the metadata. -/
def parseChatPayload (payload : PyVal) (providerName fallbackModel : String) :
    Except Raised (LLMGenerateMetadata × Option (List PyVal)) := do
  let toolCalls ←
    if hasChoices payload then
      normalizeToolCalls env dumps (Dict.get ((chatMessage payload).getD []) "tool_calls")
    else pure none
  let metadata ← parseOpenaiChatPayload env payload providerName fallbackModel
  pure (metadata, toolCalls)

/-! ## A stream -/

/-- A streamed response: the body is that of an error, and `broken` what is raised when the lines are at an end. -/
structure StreamResponse where
  statusCode : Nat
  body : Except Raised PyVal
  lines : List String
  broken : Option Raised

/-- The variables of the loop over the lines. -/
structure StreamState where
  parts : List String := []
  toolCalls : ToolCallAcc := []
  promptTokens : Int := 0
  completionTokens : Int := 0
  totalTokens : Int := 0
  requestId : String := ""
  modelName : String

/-- What a line is taken for. -/
inductive LineRead where
  | skip
  | done
  | event (event : Dict)

def readLine (line : String) : LineRead :=
  if line = "" || !"data:".toList.isPrefixOf line.toList then .skip
  else
    let data := String.ofList (env.unicode.strip (line.toList.drop "data:".length))
    if data = "[DONE]" then .done
    else match env.jsonLoads data with
      | .ok (.dict event) => .event event
      | _ => .skip

/-- The id, the model and the usage of an event. -/
def readHead (event : Dict) (s : StreamState) : Except Raised StreamState := do
  let s := if (Dict.get event "id").truthy then
      { s with requestId := StreamToolCalls.textOf env.format (Dict.get event "id") } else s
  let s := if (Dict.get event "model").truthy then
      { s with modelName := StreamToolCalls.textOf env.format (Dict.get event "model") } else s
  match Dict.get event "usage" with
  | .dict usage => do
    let promptTokens ← intOr0 (Dict.getD usage "prompt_tokens" (.int 0))
    let completionTokens ← intOr0 (Dict.getD usage "completion_tokens" (.int 0))
    let totalTokens ← intOr0 (Dict.getD usage "total_tokens" (.int (promptTokens + completionTokens)))
    pure { s with promptTokens, completionTokens, totalTokens }
  | _ => pure s

/-- `choices[0]["delta"]`, where there is one. -/
def readDelta (event : Dict) : Except Raised (Option Dict) :=
  let choices := Dict.get event "choices"
  if !choices.truthy then .ok none
  else match choices with
    | .list (.dict choice :: _) =>
      let delta := Dict.get choice "delta"
      if !delta.truthy then .ok (some [])
      else match delta with
        | .dict delta => .ok (some delta)
        | _ => .ok none
    | .list _ | .str _ => .ok none
    | .dict _ => .error ⟨"KeyError", "0"⟩
    | v => .error (typeError ("'" ++ typeName v ++ "' object is not subscriptable"))

/-- A fragment of an event.  A text and a list have a method `index`, which is no number. -/
def fragmentOf (item : PyVal) : Except Raised Fragment :=
  match item with
  | .dict fragment => .ok (.dict fragment)
  | .str _ | .list _ =>
    .error (typeError "int() argument must be a string, a bytes-like object or a real number")
  | _ => .ok (.object none none none)

/-- `_merge_stream_tool_call_fragment` on the value of an event. -/
def mergeFragments (acc : ToolCallAcc) (fragments : PyVal) : Except Raised ToolCallAcc :=
  if fragments.truthy then do
    let items ← iterate fragments
    let fragments ← items.mapM fragmentOf
    StreamToolCalls.mergeStreamToolCallFragment env.format acc (some fragments)
  else StreamToolCalls.mergeStreamToolCallFragment env.format acc none

/-- The body of the loop, for a line that is an event.  The text of a delta is yielded before its fragments are read. -/
def readEvent (event : Dict) (s : StreamState) : StreamState × Option Raised :=
  match readHead env event s with
  | .error e => (s, some e)
  | .ok s => match readDelta event with
    | .error e => (s, some e)
    | .ok none => (s, none)
    | .ok (some delta) =>
      let piece := Dict.get delta "content"
      let s := if piece.truthy then { s with parts := s.parts ++ [StreamToolCalls.textOf env.format piece] } else s
      match mergeFragments env s.toolCalls (Dict.get delta "tool_calls") with
      | .error e => (s, some e)
      | .ok toolCalls => ({ s with toolCalls }, none)

def readLines (broken : Option Raised) : List String → StreamState → StreamState × Option Raised
  | [], s => (s, broken)
  | line :: lines, s =>
    match readLine env line with
    | .skip => readLines broken lines s
    | .done => (s, none)
    | .event event =>
      match readEvent env event s with
      | (s, none) => readLines broken lines s
      | (s, some e) => (s, some e)

/-- `_stream_openai_compatible_chat`: the texts it yields, and the metadata it ends with. -/
def streamChat (p : Provider) (response : StreamResponse) :
    List String × Except Raised (LLMGenerateMetadata × Option (List PyVal)) :=
  match raiseForStatus env ⟨response.statusCode, response.body⟩ with
  | .error e => ([], .error e)
  | .ok () =>
    match readLines env response.broken response.lines { modelName := p.model } with
    | (s, some e) => (s.parts, .error e)
    | (s, none) =>
      let totalTokens := if s.totalTokens = 0 then s.promptTokens + s.completionTokens else s.totalTokens
      (s.parts, .ok (⟨String.join s.parts, p.name, s.modelName, s.promptTokens, s.completionTokens, totalTokens, 0,
        s.requestId, none, false⟩, StreamToolCalls.finalizeStreamToolCalls s.toolCalls))

end Provider

/-! ## What a response says -/

structure ChatUsage where
  prompt : Int
  completion : Int
  total : Int

/-- A reply of the model.  Its id and its model are empty where the endpoint leaves them out. -/
structure ChatReply where
  id : String
  model : String
  content : String
  calls : List StreamedCall
  usage : Option ChatUsage

/-- A text, or nothing for the empty one. -/
def TextSays (v : PyVal) (text : String) : Prop := v = .str text ∨ (v = .null ∧ text = "")

/-- A dict with the numbers of tokens, or no dict. -/
def UsageSays (v : PyVal) : Option ChatUsage → Prop
  | some usage => ∃ d, v = .dict d ∧ Dict.getD d "prompt_tokens" (.int 0) = .int usage.prompt ∧
      Dict.getD d "completion_tokens" (.int 0) = .int usage.completion ∧
      Dict.getD d "total_tokens" (.int (usage.prompt + usage.completion)) = .int usage.total
  | none => ∀ d, v ≠ .dict d

/-- An entry of `tool_calls` that is the call. -/
def CallSays (item : PyVal) (call : StreamedCall) : Prop :=
  ∃ d, item = .dict d ∧ TextSays (Dict.get d "id") call.id ∧
    TextSays (Dict.get (StreamToolCalls.functionDict d) "name") call.name ∧
    TextSays (Dict.get (StreamToolCalls.functionDict d) "arguments") call.arguments

/-- A list with an entry for each, or nothing where there is none. -/
def ListSays {α : Type} (R : PyVal → α → Prop) (v : PyVal) (xs : List α) : Prop :=
  (∃ items, v = .list items ∧ List.Forall₂ R items xs) ∨ (v = .null ∧ xs = [])

/-- The payload of one response that is the reply. -/
structure ChatReply.SaidBy (reply : ChatReply) (d choice message : Dict) : Prop where
  choices : ∃ rest, Dict.get d "choices" = .list (.dict choice :: rest)
  chosen : Dict.get choice "message" = .dict message
  content : TextSays (Dict.get message "content") reply.content
  calls : ListSays CallSays (Dict.get message "tool_calls") reply.calls
  given : Dict.get message "content" ≠ .null ∨ reply.calls ≠ []
  id : TextSays (Dict.get d "id") reply.id
  model : TextSays (Dict.get d "model") reply.model
  usage : UsageSays (Dict.get d "usage") reply.usage

/-- What one event brings: an empty text is one that is not there. -/
structure ReplyChunk where
  id : String
  model : String
  usage : Option ChatUsage
  content : String
  pieces : List Piece

/-- The event brings the chunk; without a choice it brings neither text nor tool calls. -/
structure ReplyChunk.CarriedBy (chunk : ReplyChunk) (event : Dict) : Prop where
  id : TextSays (Dict.get event "id") chunk.id
  model : TextSays (Dict.get event "model") chunk.model
  usage : UsageSays (Dict.get event "usage") chunk.usage
  delta : (∃ choice rest delta, Dict.get event "choices" = .list (.dict choice :: rest) ∧
      Dict.get choice "delta" = .dict delta ∧ TextSays (Dict.get delta "content") chunk.content ∧
      ListSays (fun item piece => ∃ d, item = .dict d ∧ (Fragment.dict d).Carries piece)
        (Dict.get delta "tool_calls") chunk.pieces) ∨
    ((Dict.get event "choices").truthy = false ∧ chunk.content = "" ∧ chunk.pieces = [])

/-- The last text that is not empty. -/
def latest (texts : List String) : String := texts.foldl (fun last text => if text = "" then last else text) ""

/-- The chunks are the reply in pieces. -/
structure ChatReply.CutInto (reply : ChatReply) (chunks : List ReplyChunk) : Prop where
  id : latest (chunks.map (·.id)) = reply.id
  model : latest (chunks.map (·.model)) = reply.model
  usage : chunks.foldl (fun last chunk => chunk.usage.or last) none = reply.usage
  content : String.join (chunks.map (·.content)) = reply.content
  known : ∀ piece ∈ chunks.flatMap (·.pieces), piece.index ∈ reply.calls.map (·.index)
  cut : ∀ call ∈ reply.calls,
    CutsInto call ((chunks.flatMap (·.pieces)).filter fun piece => piece.index = call.index)

/-- A line that brings the chunk, or nothing. -/
def LineSays (env : LlmEnv) (line : String) : Option ReplyChunk → Prop
  | some chunk => ∃ event, Provider.readLine env line = .event event ∧ chunk.CarriedBy event
  | none => Provider.readLine env line = .skip

/-- The lines up to `[DONE]`, or all of them where the stream ends without it, are the reply in pieces. -/
structure ChatReply.StreamedBy (reply : ChatReply) (env : LlmEnv) (response : Provider.StreamResponse)
    (chunks : List (Option ReplyChunk)) : Prop where
  status : response.statusCode < 400
  lines : ∃ body tail, response.lines = body ++ tail ∧ List.Forall₂ (LineSays env) body chunks ∧
    ((tail = [] ∧ response.broken = none) ∨ ∃ line rest, tail = line :: rest ∧ Provider.readLine env line = .done)
  cut : reply.CutInto chunks.reduceOption

namespace Provider

variable {env : LlmEnv} {dumps : PyVal → String} {v : PyVal} {text : String}

/-! ## Reading -/

theorem truthy_said (h : TextSays v text) : v.truthy = true ↔ text ≠ "" := by
  rcases h with rfl | ⟨rfl, rfl⟩
  · simp [PyVal.truthy]
  · simp [PyVal.truthy]

theorem textOf_said (h : TextSays v text) (hne : text ≠ "") : StreamToolCalls.textOf env.format v = text := by
  rcases h with rfl | ⟨rfl, rfl⟩
  · rfl
  · exact absurd rfl hne

theorem streamTextOr_said (h : TextSays v text) : StreamToolCalls.textOr env.format v = text := by
  unfold StreamToolCalls.textOr
  by_cases hne : text = ""
  · rw [if_neg fun ht => (truthy_said h).mp ht hne, hne]
  · rw [if_pos ((truthy_said h).mpr hne), textOf_said h hne]

theorem textOr_said {d : Dict} {key dflt : String} (h : TextSays (Dict.get d key) text) :
    textOr env d key dflt = if text = "" then dflt else text := by
  unfold textOr
  rcases h with h | ⟨h, rfl⟩
  · rw [h]
  · rw [h]
    rfl

/-- An entry that is a call is normalized to the call. -/
theorem normalizeToolCall_said {item : PyVal} {call : StreamedCall} (h : CallSays item call) :
    normalizeToolCall env dumps item = call.slot := by
  obtain ⟨d, rfl, hid, hname, harguments⟩ := h
  unfold normalizeToolCall StreamedCall.slot
  dsimp only
  rw [streamTextOr_said hid, streamTextOr_said hname]
  rcases harguments with h | ⟨h, harguments⟩
  · rw [h]
  · rw [h, harguments]

theorem normalizeToolCalls_said {calls : List StreamedCall} (h : ListSays CallSays v calls) :
    normalizeToolCalls env dumps v =
      .ok (if calls = [] then none else some (calls.map fun call => call.slot.toDict)) := by
  rcases h with ⟨items, rfl, hitems⟩ | ⟨rfl, rfl⟩
  · have hmap : items.map (fun item => (normalizeToolCall env dumps item).toDict) =
        calls.map fun call => call.slot.toDict := by
      induction hitems with
      | nil => rfl
      | cons hitem _ ih => rw [List.map_cons, List.map_cons, normalizeToolCall_said hitem, ih]
    unfold normalizeToolCalls
    cases hitems with
    | nil => rfl
    | cons hitem hrest =>
      rw [if_pos (by simp [PyVal.truthy])]
      show Except.ok (if (List.map _ (_ :: _)).isEmpty = true then none else some (List.map _ (_ :: _))) = _
      rw [hmap]
      rfl
  · rfl

/-- The tokens that a usage dict gives, and none without one. -/
def tokens (usage : Option ChatUsage) : ChatUsage := usage.getD ⟨0, 0, 0⟩

/-- What is made of one response that is the reply. -/
def replyMetadata (reply : ChatReply) (providerName fallbackModel : String) : LLMGenerateMetadata :=
  ⟨reply.content, providerName, if reply.model = "" then fallbackModel else reply.model, (tokens reply.usage).prompt,
    (tokens reply.usage).completion, (tokens reply.usage).total, 0, reply.id, none, false⟩

def replyCalls (reply : ChatReply) : Option (List PyVal) :=
  if reply.calls = [] then none else some (reply.calls.map fun call => call.slot.toDict)

theorem chatUsage_said {d : Dict} {usage : Option ChatUsage} (h : UsageSays (Dict.get d "usage") usage) :
    intOr0 (Dict.getD (chatUsage (.dict d)) "prompt_tokens" (.int 0)) = .ok (tokens usage).prompt ∧
      intOr0 (Dict.getD (chatUsage (.dict d)) "completion_tokens" (.int 0)) = .ok (tokens usage).completion ∧
      intOr0 (Dict.getD (chatUsage (.dict d)) "total_tokens"
        (.int ((tokens usage).prompt + (tokens usage).completion))) = .ok (tokens usage).total := by
  cases usage with
  | none =>
    have hnone : chatUsage (.dict d) = [] := by
      unfold chatUsage
      dsimp only
      split
      · rename_i usage husage
        exact absurd husage (h usage)
      · rfl
    rw [hnone]
    exact ⟨rfl, rfl, rfl⟩
  | some usage =>
    obtain ⟨fields, hfields, hprompt, hcompletion, htotal⟩ := h
    have hsome : chatUsage (.dict d) = fields := by
      unfold chatUsage
      dsimp only
      rw [hfields]
    rw [hsome]
    refine ⟨?_, ?_, ?_⟩
    · rw [hprompt]
      rfl
    · rw [hcompletion]
      rfl
    · show intOr0 (Dict.getD fields "total_tokens" (.int (usage.prompt + usage.completion))) = _
      rw [htotal]
      rfl

theorem truthy_of_calls {calls : List StreamedCall} (h : ListSays CallSays v calls) (hne : calls ≠ []) :
    v.truthy = true := by
  rcases h with ⟨items, rfl, hitems⟩ | ⟨-, rfl⟩
  · cases hitems with
    | nil => exact absurd rfl hne
    | cons => rfl
  · exact absurd rfl hne

theorem parseChatPayload_said {reply : ChatReply} {d choice message : Dict} (h : reply.SaidBy d choice message)
    (providerName fallbackModel : String) : parseChatPayload env dumps (.dict d) providerName fallbackModel =
      .ok (replyMetadata reply providerName fallbackModel, replyCalls reply) := by
  obtain ⟨rest, hchoices⟩ := h.choices
  have hhas : hasChoices (.dict d) = true := by
    unfold hasChoices
    dsimp only
    rw [hchoices]
    rfl
  have hmessage : chatMessage (.dict d) = some message := by
    unfold chatMessage
    dsimp only
    rw [hchoices]
    dsimp only
    rw [h.chosen]
  obtain ⟨hprompt, hcompletion, htotal⟩ := chatUsage_said h.usage
  have hid : textOr env d "id" "" = reply.id := by
    rw [textOr_said h.id]
    split
    · rename_i hempty
      exact hempty.symm
    · rfl
  have hparse : parseOpenaiChatPayload env (.dict d) providerName fallbackModel =
      .ok (replyMetadata reply providerName fallbackModel) := by
    unfold parseOpenaiChatPayload replyMetadata
    rcases h.content with hcontent | ⟨hcontent, hempty⟩
    · simp only [hhas, hmessage, Option.getD_some, hcontent, Bool.not_true, Bool.false_eq_true, if_false,
        Bool.false_and, hprompt, hcompletion, htotal, bind, Except.bind, pure, Except.pure, textOr_said h.model, hid]
    · have htools : (Dict.get message "tool_calls").truthy = true :=
        truthy_of_calls h.calls (h.given.resolve_left fun hne => hne hcontent)
      simp only [hhas, hmessage, Option.getD_some, hcontent, htools, hempty, Bool.not_true, Bool.false_eq_true,
        if_false, Bool.and_false, hprompt, hcompletion, htotal, bind, Except.bind, pure, Except.pure,
        textOr_said h.model, hid]
  unfold parseChatPayload
  rw [hhas, hmessage, Option.getD_some, if_pos rfl, normalizeToolCalls_said h.calls, hparse]
  rfl

/-! ## The loop -/

theorem mapM_fragmentOf {items : List PyVal} {pieces : List Piece}
    (h : List.Forall₂ (fun item piece => ∃ d, item = .dict d ∧ (Fragment.dict d).Carries piece) items pieces) :
    ∃ fragments, items.mapM fragmentOf = .ok fragments ∧ List.Forall₂ Fragment.Carries fragments pieces := by
  induction h with
  | nil => exact ⟨[], rfl, .nil⟩
  | @cons item piece items pieces hitem _ ih =>
    obtain ⟨d, rfl, hcarries⟩ := hitem
    obtain ⟨fragments, hmap, hall⟩ := ih
    refine ⟨.dict d :: fragments, ?_, .cons hcarries hall⟩
    rw [List.mapM_cons, hmap]
    rfl

theorem mergeFragments_said {acc : ToolCallAcc} {pieces : List Piece}
    (h : ListSays (fun item piece => ∃ d, item = .dict d ∧ (Fragment.dict d).Carries piece) v pieces) :
    mergeFragments env acc v = .ok (StreamToolCalls.mergePieces acc pieces) := by
  rcases h with ⟨items, rfl, hitems⟩ | ⟨rfl, rfl⟩
  · obtain ⟨fragments, hmap, hcarries⟩ := mapM_fragmentOf hitems
    cases hitems with
    | nil => rfl
    | cons hitem hrest =>
      unfold mergeFragments
      rw [if_pos (by simp [PyVal.truthy])]
      unfold iterate
      show (List.mapM fragmentOf _ >>= fun fragments => _) = _
      rw [hmap]
      exact StreamToolCalls.merge_carries hcarries
  · rfl

/-- What a chunk changes in the variables of the loop. -/
def absorb (s : StreamState) (chunk : ReplyChunk) : StreamState where
  parts := if chunk.content = "" then s.parts else s.parts ++ [chunk.content]
  toolCalls := StreamToolCalls.mergePieces s.toolCalls chunk.pieces
  promptTokens := (chunk.usage.map ChatUsage.prompt).getD s.promptTokens
  completionTokens := (chunk.usage.map ChatUsage.completion).getD s.completionTokens
  totalTokens := (chunk.usage.map ChatUsage.total).getD s.totalTokens
  requestId := if chunk.id = "" then s.requestId else chunk.id
  modelName := if chunk.model = "" then s.modelName else chunk.model

theorem readHead_said {chunk : ReplyChunk} {event : Dict} (h : chunk.CarriedBy event) (s : StreamState) :
    readHead env event s = .ok
      { s with
        promptTokens := (chunk.usage.map ChatUsage.prompt).getD s.promptTokens
        completionTokens := (chunk.usage.map ChatUsage.completion).getD s.completionTokens
        totalTokens := (chunk.usage.map ChatUsage.total).getD s.totalTokens
        requestId := if chunk.id = "" then s.requestId else chunk.id
        modelName := if chunk.model = "" then s.modelName else chunk.model } := by
  have hid : (if (Dict.get event "id").truthy = true then
      { s with requestId := StreamToolCalls.textOf env.format (Dict.get event "id") } else s) =
      { s with requestId := if chunk.id = "" then s.requestId else chunk.id } := by
    by_cases hne : chunk.id = ""
    · rw [if_neg fun ht => (truthy_said h.id).mp ht hne, if_pos hne]
    · rw [if_pos ((truthy_said h.id).mpr hne), if_neg hne, textOf_said h.id hne]
  have hmodel : ∀ t : StreamState, (if (Dict.get event "model").truthy = true then
      { t with modelName := StreamToolCalls.textOf env.format (Dict.get event "model") } else t) =
      { t with modelName := if chunk.model = "" then t.modelName else chunk.model } := by
    intro t
    by_cases hne : chunk.model = ""
    · rw [if_neg fun ht => (truthy_said h.model).mp ht hne, if_pos hne]
    · rw [if_pos ((truthy_said h.model).mpr hne), if_neg hne, textOf_said h.model hne]
  have husage := h.usage
  unfold readHead
  dsimp only
  rw [hid, hmodel]
  cases hchunk : chunk.usage with
  | none =>
    rw [hchunk] at husage
    split
    · rename_i usage hsome
      exact absurd hsome (husage usage)
    · rfl
  | some usage =>
    rw [hchunk] at husage
    obtain ⟨fields, hfields, hprompt, hcompletion, htotal⟩ := husage
    simp only [hfields, hprompt, hcompletion, intOr0, bind, Except.bind, htotal]
    rfl

/-- **One event.**  It changes the variables by its chunk. -/
theorem readEvent_said {chunk : ReplyChunk} {event : Dict} (h : chunk.CarriedBy event) (s : StreamState) :
    readEvent env event s = (absorb s chunk, none) := by
  unfold readEvent
  rw [readHead_said h]
  dsimp only
  rcases h.delta with ⟨choice, rest, delta, hchoices, hdelta, hcontent, hpieces⟩ | ⟨hchoices, hcontent, hpieces⟩
  · have hread : readDelta event = .ok (some delta) := by
      unfold readDelta
      dsimp only
      rw [hchoices]
      dsimp only
      rw [hdelta]
      cases delta with
      | nil => rfl
      | cons entry delta => rfl
    rw [hread]
    by_cases hne : chunk.content = ""
    · have hpiece : (Dict.get delta "content").truthy = false :=
        Bool.eq_false_iff.mpr fun ht => (truthy_said hcontent).mp ht hne
      simp only [hpiece, Bool.false_eq_true, if_false]
      rw [mergeFragments_said hpieces]
      unfold absorb
      rw [if_pos hne]
    · have hpiece : (Dict.get delta "content").truthy = true := (truthy_said hcontent).mpr hne
      simp only [hpiece, if_true, textOf_said hcontent hne]
      rw [mergeFragments_said hpieces]
      unfold absorb
      rw [if_neg hne]
  · have hread : readDelta event = .ok none := by
      unfold readDelta
      dsimp only
      rw [hchoices]
      rfl
    rw [hread]
    unfold absorb
    rw [hcontent, hpieces]
    rfl

/-- The lines of chunks, and of nothing, are read one after the other. -/
theorem readLines_said {broken : Option Raised} {body tail : List String} {chunks : List (Option ReplyChunk)}
    (h : List.Forall₂ (LineSays env) body chunks) (s : StreamState) :
    readLines env broken (body ++ tail) s = readLines env broken tail (chunks.reduceOption.foldl absorb s) := by
  induction h generalizing s with
  | nil => rfl
  | @cons line chunk body chunks hline _ ih =>
    rw [List.cons_append, readLines]
    cases chunk with
    | none =>
      have hskip : readLine env line = .skip := hline
      rw [hskip]
      exact ih s
    | some chunk =>
      obtain ⟨event, hevent, hcarried⟩ := hline
      rw [hevent]
      dsimp only
      rw [readEvent_said hcarried]
      exact ih (absorb s chunk)

/-! ## The variables after the loop -/

theorem join_parts (chunks : List ReplyChunk) (s : StreamState) :
    String.join (chunks.foldl absorb s).parts = String.join s.parts ++ String.join (chunks.map (·.content)) := by
  induction chunks generalizing s with
  | nil => simp
  | cons chunk chunks ih =>
    rw [List.foldl_cons, ih, List.map_cons, String.join_cons, ← String.append_assoc]
    congr 1
    unfold absorb
    dsimp only
    split
    · rename_i hempty
      rw [hempty, String.append_empty]
    · rw [String.join_append, String.join_cons, String.join_nil, String.append_empty]

theorem parts_ne (chunks : List ReplyChunk) (s : StreamState) (h : ∀ part ∈ s.parts, part ≠ "") :
    ∀ part ∈ (chunks.foldl absorb s).parts, part ≠ "" := by
  induction chunks generalizing s with
  | nil => exact h
  | cons chunk chunks ih =>
    refine ih (absorb s chunk) fun part hpart => ?_
    unfold absorb at hpart
    dsimp only at hpart
    split at hpart
    · exact h part hpart
    · rename_i hne
      rcases List.mem_append.mp hpart with hold | hnew
      · exact h part hold
      · rwa [List.mem_singleton.mp hnew]

theorem toolCalls_foldl (chunks : List ReplyChunk) (s : StreamState) :
    (chunks.foldl absorb s).toolCalls = StreamToolCalls.mergePieces s.toolCalls (chunks.flatMap (·.pieces)) := by
  induction chunks generalizing s with
  | nil => rfl
  | cons chunk chunks ih =>
    rw [List.foldl_cons, ih, List.flatMap_cons]
    exact (List.foldl_append ..).symm

/-- A text that is kept until another one comes. -/
theorem latest_cons (text : String) (texts : List String) :
    latest (text :: texts) = if latest texts = "" then text else latest texts := by
  have hfrom : ∀ start : String, texts.foldl (fun last text => if text = "" then last else text) start =
      if latest texts = "" then start else latest texts := by
    unfold latest
    induction texts with
    | nil => intro start; rfl
    | cons t texts ih =>
      intro start
      rw [List.foldl_cons, List.foldl_cons, ih, ih (if t = "" then "" else t)]
      by_cases ht : t = ""
      · rw [if_pos ht, if_pos ht]
        split <;> simp_all
      · rw [if_neg ht, if_neg ht]
        split <;> simp_all
  unfold latest at hfrom ⊢
  rw [List.foldl_cons, hfrom]
  by_cases ht : text = ""
  · rw [if_pos ht, ht]
  · rw [if_neg ht]

theorem requestId_foldl (chunks : List ReplyChunk) (s : StreamState) : (chunks.foldl absorb s).requestId =
    if latest (chunks.map (·.id)) = "" then s.requestId else latest (chunks.map (·.id)) := by
  induction chunks generalizing s with
  | nil => rfl
  | cons chunk chunks ih =>
    rw [List.foldl_cons, ih, List.map_cons, latest_cons]
    show (if _ then (if chunk.id = "" then s.requestId else chunk.id) else _) = _
    by_cases hrest : latest (chunks.map (·.id)) = ""
    · rw [if_pos hrest, if_pos hrest]
    · rw [if_neg hrest, if_neg hrest, if_neg hrest]

theorem modelName_foldl (chunks : List ReplyChunk) (s : StreamState) : (chunks.foldl absorb s).modelName =
    if latest (chunks.map (·.model)) = "" then s.modelName else latest (chunks.map (·.model)) := by
  induction chunks generalizing s with
  | nil => rfl
  | cons chunk chunks ih =>
    rw [List.foldl_cons, ih, List.map_cons, latest_cons]
    show (if _ then (if chunk.model = "" then s.modelName else chunk.model) else _) = _
    by_cases hrest : latest (chunks.map (·.model)) = ""
    · rw [if_pos hrest, if_pos hrest]
    · rw [if_neg hrest, if_neg hrest, if_neg hrest]

/-- The tokens are those of the last usage. -/
theorem tokens_foldl (chunks : List ReplyChunk) (s : StreamState) (usage : Option ChatUsage)
    (h : (⟨s.promptTokens, s.completionTokens, s.totalTokens⟩ : ChatUsage) = tokens usage) :
    let t := chunks.foldl absorb s
    (⟨t.promptTokens, t.completionTokens, t.totalTokens⟩ : ChatUsage) =
      tokens (chunks.foldl (fun last chunk => chunk.usage.or last) usage) := by
  induction chunks generalizing s usage with
  | nil => exact h
  | cons chunk chunks ih =>
    refine ih (absorb s chunk) (chunk.usage.or usage) ?_
    cases hchunk : chunk.usage with
    | none =>
      unfold absorb
      rw [hchunk]
      exact h
    | some usage =>
      unfold absorb
      rw [hchunk]
      rfl

/-! ## The calls -/

/-- Calls in the order of their indexes are what the accumulator of their pieces ends with. -/
theorem finalize_pieces {calls : List StreamedCall} {pieces : List Piece}
    (hsorted : (calls.map StreamedCall.index).Pairwise (· < ·))
    (hknown : ∀ piece ∈ pieces, piece.index ∈ calls.map StreamedCall.index)
    (hcut : ∀ call ∈ calls, CutsInto call (pieces.filter fun piece => piece.index = call.index)) :
    StreamToolCalls.finalizeStreamToolCalls (StreamToolCalls.mergePieces [] pieces) =
      if calls = [] then none else some (calls.map fun call => call.slot.toDict) := by
  have hhave : ∀ call ∈ calls, ∃ piece ∈ pieces, (piece.index : Int) = call.index := by
    intro call hcall
    obtain ⟨piece, rest, hpieces, -⟩ := (hcut call hcall).first
    have hmem : piece ∈ pieces.filter fun piece => piece.index = call.index := by
      rw [hpieces]
      exact List.mem_cons_self
    obtain ⟨hpiece, hindex⟩ := List.mem_filter.mp hmem
    exact ⟨piece, hpiece, by rw [of_decide_eq_true hindex]⟩
  have hkeys : ∀ index, index ∈ (StreamToolCalls.mergePieces [] pieces).map Prod.fst ↔
      index ∈ calls.map fun call => (call.index : Int) := by
    intro index
    unfold StreamToolCalls.mergePieces
    rw [Keyed.mem_keys_collect]
    constructor
    · rintro (h | ⟨piece, hpiece, rfl⟩)
      · exact absurd h List.not_mem_nil
      · obtain ⟨call, hcall, hindex⟩ := List.mem_map.mp (hknown piece hpiece)
        exact List.mem_map.mpr ⟨call, hcall, by rw [hindex]⟩
    · intro h
      obtain ⟨call, hcall, rfl⟩ := List.mem_map.mp h
      exact .inr (hhave call hcall)
  have hslots : ∀ call ∈ calls,
      Keyed.lookup (call.index : Int) (StreamToolCalls.mergePieces [] pieces) = some call.slot := by
    intro call hcall
    unfold StreamToolCalls.mergePieces
    rw [Keyed.lookup_collect (hhave call hcall)]
    simp only [Nat.cast_inj]
    exact congrArg some (StreamToolCalls.absorb_cut (hcut call hcall))
  have hordered : Keyed.inOrder (StreamToolCalls.mergePieces [] pieces) = calls.map StreamedCall.slot := by
    refine Keyed.inOrder_eq (Keyed.nodup_collect List.nodup_nil) ?_ hkeys hslots
    exact List.pairwise_map.mpr ((List.pairwise_map.mp hsorted).imp fun h => Int.ofNat_lt.mpr h)
  have hempty : StreamToolCalls.mergePieces [] pieces = [] ↔ calls = [] := by
    rw [← List.map_eq_nil_iff (f := Prod.fst),
      ← List.map_eq_nil_iff (f := fun call : StreamedCall => (call.index : Int)), List.eq_nil_iff_forall_not_mem,
      List.eq_nil_iff_forall_not_mem]
    exact forall_congr' fun index => not_congr (hkeys index)
  unfold StreamToolCalls.finalizeStreamToolCalls
  by_cases hcalls : calls = []
  · rw [if_pos (hempty.mpr hcalls), if_pos hcalls]
  · rw [if_neg fun h => hcalls (hempty.mp h), if_neg hcalls, hordered, List.map_map]
    rfl

/-- Both ways the lines may end leave the variables as they are. -/
theorem readLines_tail {broken : Option Raised} {tail : List String} (s : StreamState)
    (h : (tail = [] ∧ broken = none) ∨ ∃ line rest, tail = line :: rest ∧ readLine env line = .done) :
    readLines env broken tail s = (s, none) := by
  rcases h with ⟨rfl, rfl⟩ | ⟨line, rest, rfl, hdone⟩
  · rfl
  · rw [readLines, hdone]

theorem raiseForStatus_ok {response : HttpResponse} (h : response.statusCode < 400) :
    raiseForStatus env response = .ok () := by
  unfold raiseForStatus
  rw [if_neg (by omega), if_neg (by omega), if_neg (by omega)]

end Provider

/-- **A streamed reply is parsed as the reply.**  In whatever pieces a reply is streamed, with lines of nothing between
them, the texts that `_stream_openai_compatible_chat` yields are its content, and its metadata are those that
`_parse_openai_chat_payload` has for the reply in one response; a total of 0 tokens becomes the sum. -/
theorem streamed_reply_parsed (env : LlmEnv) (dumps : PyVal → String) (p : Provider) (reply : ChatReply)
    (d choice message : Dict) (response : Provider.StreamResponse) (chunks : List (Option ReplyChunk))
    (hsaid : reply.SaidBy d choice message) (hstreamed : reply.StreamedBy env response chunks)
    (hsorted : (reply.calls.map StreamedCall.index).Pairwise (· < ·)) :
    ∃ metadata toolCalls pieces,
      Provider.parseChatPayload env dumps (.dict d) p.name p.model = .ok (metadata, toolCalls) ∧
      Provider.streamChat env p response = (pieces, .ok ({ metadata with
        totalTokens := if metadata.totalTokens = 0 then metadata.promptTokens + metadata.completionTokens
          else metadata.totalTokens }, toolCalls)) ∧
      String.join pieces = metadata.content ∧ ∀ piece ∈ pieces, piece ≠ "" := by
  obtain ⟨body, tail, hlines, hbody, htail⟩ := hstreamed.lines
  obtain ⟨hid, hmodel, husage, hcontent, hknown, hcut⟩ := hstreamed.cut
  let final := chunks.reduceOption.foldl Provider.absorb { modelName := p.model }
  have hread : Provider.readLines env response.broken response.lines { modelName := p.model } = (final, none) := by
    rw [hlines, Provider.readLines_said hbody]
    exact Provider.readLines_tail final htail
  have htext : String.join final.parts = reply.content := by
    rw [Provider.join_parts, hcontent, String.join_nil, String.empty_append]
  have htokens : (⟨final.promptTokens, final.completionTokens, final.totalTokens⟩ : ChatUsage) =
      Provider.tokens reply.usage := by
    rw [← husage]
    exact Provider.tokens_foldl chunks.reduceOption { modelName := p.model } none rfl
  have hcalls : StreamToolCalls.finalizeStreamToolCalls final.toolCalls = Provider.replyCalls reply := by
    rw [Provider.toolCalls_foldl]
    exact Provider.finalize_pieces hsorted hknown hcut
  have hrequest : final.requestId = reply.id := by
    rw [Provider.requestId_foldl, hid]
    split
    · rename_i hempty
      exact hempty.symm
    · rfl
  have hname : final.modelName = if reply.model = "" then p.model else reply.model := by
    rw [Provider.modelName_foldl, hmodel]
  obtain ⟨hprompt, hcompletion, htotal⟩ := ChatUsage.mk.inj htokens
  refine ⟨_, _, final.parts, Provider.parseChatPayload_said hsaid p.name p.model, ?_, htext, ?_⟩
  · unfold Provider.streamChat
    rw [Provider.raiseForStatus_ok hstreamed.status]
    dsimp only
    rw [hread]
    dsimp only
    rw [htext, hname, hrequest, hcalls, hprompt, hcompletion, htotal]
    rfl
  · exact Provider.parts_ne chunks.reduceOption { modelName := p.model } fun part hpart =>
      absurd hpart List.not_mem_nil

/-- A comment, a text and a fragment of a call, an empty line, the rest of both, and the usage. -/
def demoStream : Provider.StreamResponse where
  statusCode := 200
  body := .ok .null
  broken := none
  lines :=
    [": connected",
      "data: \x7b\"id\": \"r1\", \"choices\": [\x7b\"delta\": \x7b\"content\": \"Sel\"\x7d\x7d]\x7d",
      "",
      "data: \x7b\"choices\": [\x7b\"delta\": \x7b\"content\": \"ect\", \"tool_calls\": " ++
        "[\x7b\"id\": \"c1\", \"function\": \x7b\"name\": \"run_sql\"\x7d\x7d]\x7d\x7d]\x7d",
      "data: \x7b\"usage\": \x7b\"prompt_tokens\": 3, \"completion_tokens\": 2\x7d, \"choices\": []\x7d",
      "data: [DONE]"]

def demoChunks : List (Option ReplyChunk) :=
  [none, some ⟨"r1", "", none, "Sel", []⟩, none, some ⟨"", "", none, "ect", [⟨0, some "c1", some "run_sql", none⟩]⟩,
    some ⟨"", "", some ⟨3, 2, 5⟩, "", []⟩]

def demoReply : ChatReply := ⟨"r1", "", "Select", [⟨0, "c1", "run_sql", ""⟩], some ⟨3, 2, 5⟩⟩

def demoMessage : Dict :=
  [("content", .str "Select"), ("tool_calls", .list [.dict [("id", .str "c1"),
    ("function", .dict [("name", .str "run_sql"), ("arguments", .str "")])]])]

/-- The same reply in one response. -/
def demoPayload : Dict :=
  [("id", .str "r1"), ("choices", .list [.dict [("message", .dict demoMessage)]]),
    ("usage", .dict [("prompt_tokens", .int 3), ("completion_tokens", .int 2)])]

theorem demoReply_said : demoReply.SaidBy demoPayload [("message", .dict demoMessage)] demoMessage where
  choices := ⟨[], rfl⟩
  chosen := rfl
  content := .inl rfl
  calls := .inl ⟨_, rfl, .cons ⟨_, rfl, .inl rfl, .inl rfl, .inl rfl⟩ .nil⟩
  given := .inr (by decide)
  id := .inl rfl
  model := .inr ⟨rfl, rfl⟩
  usage := ⟨_, rfl, rfl, rfl, rfl⟩

set_option maxRecDepth 4000 in
theorem demoReply_streamed : demoReply.StreamedBy LLMNL2SQLGenerator.decoding demoStream demoChunks where
  status := by decide
  lines := by
    refine ⟨demoStream.lines.take 5, demoStream.lines.drop 5, rfl, ?_, .inr ⟨_, _, rfl, rfl⟩⟩
    have hnone : ∀ event : Dict, (∀ usage, Dict.get event "usage" ≠ .dict usage) →
        UsageSays (Dict.get event "usage") none := fun _ h => h
    refine .cons rfl (.cons ⟨_, rfl, ?_⟩ (.cons rfl (.cons ⟨_, rfl, ?_⟩ (.cons ⟨_, rfl, ?_⟩ .nil))))
    · exact ⟨.inl rfl, .inr ⟨rfl, rfl⟩, hnone _ (by rintro usage ⟨⟩),
        .inl ⟨_, [], _, rfl, rfl, .inl rfl, .inr ⟨rfl, rfl⟩⟩⟩
    · exact ⟨.inr ⟨rfl, rfl⟩, .inr ⟨rfl, rfl⟩, hnone _ (by rintro usage ⟨⟩), .inl ⟨_, [], _, rfl, rfl, .inl rfl,
        .inl ⟨_, rfl, .cons ⟨_, rfl, rfl, rfl, rfl, rfl⟩ .nil⟩⟩⟩
    · exact ⟨.inr ⟨rfl, rfl⟩, .inr ⟨rfl, rfl⟩, ⟨_, rfl, rfl, rfl, rfl⟩, .inr ⟨rfl, rfl, rfl⟩⟩
  cut :=
    { id := rfl
      model := rfl
      usage := rfl
      content := by decide
      known := by decide
      cut := by
        intro call hcall
        obtain rfl := List.mem_singleton.mp hcall
        exact ⟨⟨_, _, rfl, rfl, rfl⟩, by decide, by decide, rfl⟩ }

theorem streamed_reply_parsed_demo : ∃ metadata toolCalls pieces,
    Provider.parseChatPayload LLMNL2SQLGenerator.decoding (fun _ => "") (.dict demoPayload) "openai_compatible" "m" =
      .ok (metadata, toolCalls) ∧
    Provider.streamChat LLMNL2SQLGenerator.decoding ⟨.openaiCompatible, "m", "http://localhost", 0⟩ demoStream =
      (pieces, .ok ({ metadata with
        totalTokens := if metadata.totalTokens = 0 then metadata.promptTokens + metadata.completionTokens
          else metadata.totalTokens }, toolCalls)) ∧
    String.join pieces = metadata.content ∧ ∀ piece ∈ pieces, piece ≠ "" :=
  streamed_reply_parsed LLMNL2SQLGenerator.decoding (fun _ => "") ⟨.openaiCompatible, "m", "http://localhost", 0⟩
    demoReply demoPayload _ _ demoStream demoChunks demoReply_said demoReply_streamed (by decide)

end AgentHarness
