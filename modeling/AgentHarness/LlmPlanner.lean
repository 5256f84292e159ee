import AgentHarness.Lib.Text
import AgentHarness.Planner
import AgentHarness.ToolArguments

/-!
# LlmPlanner — `LLMToolPlanner.plan`

A model chooses the tool and gives the arguments.  Where it does not answer, or answers with a tool or with
arguments that are of no use, the keyword planner takes over and the reason is noted.  Only the call of the
provider and the check of the arguments are guarded, the latter against `ValueError`.
-/

namespace AgentHarness

open Lib ToolArguments

/-- What the planner reads of a registered tool. -/
structure ToolEntry where
  toolName : String
  description : String
  riskLevel : RiskLevel
  inputSchema : Dict

/-- What the planner reads of `LLMGenerateMetadata`. -/
structure ToolReply where
  toolCalls : Option (List PyVal)
  provider : String
  model : String

/-- The tools of the gateway, the provider and the keyword planner, and what Python computes. -/
structure LLMToolPlanner where
  tools : List ToolEntry
  /-- `_get_provider` and `generate_with_metadata` -/
  provider : String → List PyVal → Except Raised ToolReply
  fallback : Planner
  unicode : Unicode
  jsonLoads : String → Except Raised PyVal
  pyStr : PyVal → String

/-- The classes of `ValueError` that `json.loads` raises. -/
def Raised.isValueError (e : Raised) : Bool := e.cls ∈ ["ValueError", "JSONDecodeError"]

/-- `type(value).__name__` -/
def typeName : PyVal → String
  | .null => "NoneType"
  | .bool _ => "bool"
  | .int _ => "int"
  | .float _ => "float"
  | .str _ => "str"
  | .list _ => "list"
  | .dict _ => "dict"
  | .object name => name

namespace LLMToolPlanner

variable (p : LLMToolPlanner)

/-- The entry of one tool in the list for the model. -/
def buildTool (spec : ToolEntry) : PyVal :=
  let parameters := if spec.inputSchema ≠ [] then spec.inputSchema
    else [("type", .str "object"), ("properties", .dict [])]
  let description := if spec.description = "" then spec.toolName else spec.description
  .dict [("type", .str "function"), ("function", .dict [("name", .str spec.toolName),
    ("description", .str s!"{description}（risk_level={spec.riskLevel.value}）"), ("parameters", .dict parameters)])]

def buildToolsFromGateway : List PyVal := p.tools.map buildTool

def getTool (name : String) : Option ToolEntry := p.tools.find? fun spec => spec.toolName = name

def buildPrompt (query : String) : String :=
  "你是工具规划器。请根据可用工具的描述与 JSON Schema，" ++
    "为下面的查询选择最合适的工具并给出调用参数；" ++
    "没有合适工具时不要调用任何工具。\n" ++
    "查询: " ++ query

def fallbackPlan (query reason : String) : PlanResult :=
  let result := p.fallback.plan query
  { result with extra := Dict.set (Dict.set result.extra "planner" (.str "keyword")) "fallback_reason" (.str reason) }

/-- `tool_calls[0].get("function")` of a dict -/
def functionOf (call : PyVal) : PyVal :=
  match call with
  | .dict call => Dict.get call "function"
  | _ => .null

/-- `(function or {}).get(key)` -/
def functionGet (function : PyVal) (key : String) : Except Raised PyVal :=
  if function.truthy then
    match function with
    | .dict function => .ok (Dict.get function key)
    | _ => .error ⟨"AttributeError", s!"'{typeName function}' object has no attribute 'get'"⟩
  else .ok .null

/-- `str(name or "")` -/
def nameText (name : PyVal) : String := if name.truthy then p.pyStr name else ""

def parseArguments (raw : PyVal) : Except Raised Dict :=
  match raw with
  | .null => .ok []
  | .dict raw => .ok raw
  | .str raw =>
    if p.unicode.strip raw.toList = [] then .ok []
    else match p.jsonLoads raw with
      | .error e => if e.isValueError then .error (valueError ("arguments 不是合法 JSON: " ++ e.text)) else .error e
      | .ok (.dict parsed) => .ok parsed
      | .ok _ => .error (valueError "arguments 必须是 JSON object")
  | raw => .error (valueError ("arguments 类型不受支持: " ++ typeName raw))

/-- The result for a tool whose arguments are valid. -/
def llmPlan (reply : ToolReply) (toolName : String) (cleaned : Dict) (ignored : List String) : PlanResult where
  toolName := some toolName
  matched := true
  label := some (p.fallback.getLabel (some toolName))
  arguments := some cleaned
  extra := [("planner", .str "llm"), ("provider", .str reply.provider), ("model", .str reply.model)] ++
    if ignored = [] then [] else [("ignored_arguments", .list (ignored.map .str))]

/-- The `try` block around the arguments. -/
def checkedArguments (spec : ToolEntry) (raw : PyVal) : Except Raised (Dict × List String) := do
  let arguments ← p.parseArguments raw
  validateToolArguments (.dict spec.inputSchema) arguments

/-- What is made of the first tool call. -/
def planCall (query : String) (reply : ToolReply) (call : PyVal) : Except Raised PlanResult := do
  let function := functionOf call
  let name ← functionGet function "name"
  let toolName := p.nameText name
  match p.getTool toolName with
  | none => pure (p.fallbackPlan query s!"unknown_tool: 工具 '{toolName}' 未注册")
  | some spec =>
    let raw ← functionGet function "arguments"
    match p.checkedArguments spec raw with
    | .ok (cleaned, ignored) => pure (p.llmPlan reply toolName cleaned ignored)
    | .error e =>
      if e.isValueError then pure (p.fallbackPlan query ("invalid_arguments: " ++ e.text)) else .error e

def plan (query : String) : Except Raised PlanResult :=
  let tools := p.buildToolsFromGateway
  if tools.isEmpty then .ok (p.fallbackPlan query "no_tools_available: ToolGateway 未注册任何工具")
  else match p.provider (buildPrompt query) tools with
    | .error e => .ok (p.fallbackPlan query ("provider_error: " ++ e.text))
    | .ok reply => match reply.toolCalls with
      | none | some [] => .ok (p.fallbackPlan query "no_tool_call: provider 未返回工具调用")
      | some (call :: _) => p.planCall query reply call

/-! ## What plan promises -/

/-- A registered tool with valid arguments, or the keyword plan with a reason. -/
def ValidPlan (query : String) : Except Raised PlanResult → Prop
  | .error _ => False
  | .ok result =>
    (∃ spec arguments, p.getTool spec.toolName = some spec ∧ result.toolName = some spec.toolName ∧
      result.arguments = some arguments ∧ Valid (.dict spec.inputSchema) arguments) ∨
    ∃ reason, reason ≠ "" ∧ result = p.fallbackPlan query reason

/-- The function entry of the call is truthy, and no object. -/
def BadFunction (call : PyVal) : Prop := (functionOf call).truthy = true ∧ ∀ d, functionOf call ≠ .dict d

/-- The value of an entry of the function. -/
def entryOf (call : PyVal) (key : String) : PyVal :=
  match functionOf call with
  | .dict function => Dict.get function key
  | _ => .null

/-- The text of the arguments makes `json.loads` raise something other than a `ValueError`. -/
def BadText (raw : PyVal) : Prop :=
  ∃ text e, raw = .str text ∧ p.unicode.strip text.toList ≠ [] ∧ p.jsonLoads text = .error e ∧ e.isValueError = false

/-- The arguments have the declared types, and the schema requires something that is no name. -/
def BadSchema (spec : ToolEntry) (raw : PyVal) : Prop :=
  ∃ arguments, p.parseArguments raw = .ok arguments ∧
    (∀ argument ∈ arguments, Conforms (properties (.dict spec.inputSchema)) argument) ∧
    ¬ Named (required (.dict spec.inputSchema))

/-- The first tool call of the reply to a query raises. -/
def Escapes (query : String) : Prop :=
  ∃ reply call rest, p.tools ≠ [] ∧ p.provider (buildPrompt query) p.buildToolsFromGateway = .ok reply ∧
    reply.toolCalls = some (call :: rest) ∧
    (BadFunction call ∨ ∃ spec, p.getTool (p.nameText (entryOf call "name")) = some spec ∧
      (p.BadText (entryOf call "arguments") ∨ p.BadSchema spec (entryOf call "arguments")))

variable {p} {query : String} {reply : ToolReply} {call raw : PyVal} {spec : ToolEntry}

theorem validPlan_fallback {reason : String} (h : reason ≠ "") :
    p.ValidPlan query (.ok (p.fallbackPlan query reason)) :=
  .inr ⟨reason, h, rfl⟩

theorem append_ne_empty {first rest : String} (h : first ≠ "") : first ++ rest ≠ "" := by
  intro hempty
  have hlength := congrArg String.length hempty
  rw [String.length_append] at hlength
  have hzero : first.length = 0 := by
    have : "".length = 0 := rfl
    omega
  exact h (String.length_eq_zero_iff.mp hzero)

theorem functionGet_bad (h : BadFunction call) (key : String) : ∃ e, functionGet (functionOf call) key = .error e := by
  obtain ⟨htruthy, hdict⟩ := h
  unfold functionGet
  rw [if_pos htruthy]
  split
  · rename_i d hd
    exact absurd hd (hdict d)
  · exact ⟨_, rfl⟩

theorem functionGet_good (h : ¬ BadFunction call) (key : String) :
    functionGet (functionOf call) key = .ok (entryOf call key) := by
  unfold functionGet entryOf
  by_cases htruthy : (functionOf call).truthy = true
  · have hdict : ∃ d, functionOf call = .dict d := by
      by_contra hnone
      push Not at hnone
      exact h ⟨htruthy, hnone⟩
    obtain ⟨d, hd⟩ := hdict
    rw [if_pos htruthy, hd]
  · rw [if_neg htruthy]
    split
    · rename_i d hd
      rw [hd] at htruthy
      have hempty : d = [] := by simpa [PyVal.truthy] using htruthy
      rw [hempty]
      rfl
    · rfl

/-- Only a text can make the parsing raise something else. -/
theorem parseArguments_error_iff :
    (∃ e, p.parseArguments raw = .error e ∧ e.isValueError = false) ↔ p.BadText raw := by
  have hvalue : ∀ text, (valueError text).isValueError = true := by
    intro text
    unfold Raised.isValueError valueError
    exact decide_eq_true List.mem_cons_self
  constructor
  · rintro ⟨e, he, hother⟩
    unfold parseArguments at he
    split at he
    · cases he
    · cases he
    · rename_i text
      split at he
      · cases he
      · rename_i hblank
        split at he
        · rename_i e' hloads
          split at he
          · obtain rfl := Except.error.inj he
            rw [hvalue] at hother
            cases hother
          · obtain rfl := Except.error.inj he
            exact ⟨text, e', rfl, hblank, hloads, hother⟩
        · cases he
        · obtain rfl := Except.error.inj he
          rw [hvalue] at hother
          cases hother
    · obtain rfl := Except.error.inj he
      rw [hvalue] at hother
      cases hother
  · rintro ⟨text, e, rfl, hblank, hloads, hother⟩
    refine ⟨e, ?_, hother⟩
    unfold parseArguments
    simp only [if_neg hblank, hloads, hother]
    rfl

/-- The check of the arguments lets an exception out exactly on such texts and schemas. -/
theorem checkedArguments_error_iff :
    (∃ e, p.checkedArguments spec raw = .error e ∧ e.isValueError = false) ↔
      p.BadText raw ∨ p.BadSchema spec raw := by
  have hchecked : p.checkedArguments spec raw =
      (p.parseArguments raw >>= validateToolArguments (.dict spec.inputSchema)) := rfl
  rw [hchecked]
  obtain ⟨parsed, hparsed⟩ : ∃ parsed, p.parseArguments raw = parsed := ⟨_, rfl⟩
  rw [← parseArguments_error_iff]
  unfold BadSchema
  rw [hparsed]
  cases parsed with
  | error e =>
    show (∃ e', (Except.error e : Except Raised (Dict × List String)) = .error e' ∧ _) ↔ _
    simp only [Except.error.injEq]
    refine ⟨fun h => .inl h, ?_⟩
    rintro (h | ⟨arguments, h, -⟩)
    · exact h
    · cases h
  | ok arguments =>
    show (∃ e, validateToolArguments (.dict spec.inputSchema) arguments = .error e ∧ _) ↔ _
    have hclass : ∀ e, validateToolArguments (.dict spec.inputSchema) arguments = .error e →
        (e.isValueError = false ↔ e.cls ≠ "ValueError") := by
      intro e he
      have hcls := validate_error_class he
      unfold Raised.isValueError
      rcases hcls with hcls | hcls <;> simp [hcls]
    constructor
    · rintro ⟨e, he, hother⟩
      exact .inr ⟨arguments, rfl, validate_error_iff.mp ⟨e, he, (hclass e he).mp hother⟩⟩
    · rintro (⟨e, he, -⟩ | ⟨arguments', h, hbad⟩)
      · cases he
      · obtain rfl := Except.ok.inj h
        obtain ⟨e, he, hother⟩ := validate_error_iff.mpr hbad
        exact ⟨e, he, (hclass e he).mpr hother⟩

/-- Where it lets arguments through, they were validated. -/
theorem checkedArguments_ok {out : Dict × List String} (h : p.checkedArguments spec raw = .ok out) :
    ∃ arguments, p.parseArguments raw = .ok arguments ∧
      validateToolArguments (.dict spec.inputSchema) arguments = .ok out := by
  obtain ⟨parsed, hparsed⟩ : ∃ parsed, p.parseArguments raw = parsed := ⟨_, rfl⟩
  unfold checkedArguments at h
  rw [hparsed] at h
  cases parsed with
  | error e => cases h
  | ok arguments => exact ⟨arguments, hparsed, h⟩

/-! ## The first tool call -/

/-- A call with a usable function ends in a valid plan, unless the check of the arguments raises. -/
theorem planCall_valid_iff (h : ¬ BadFunction call) : p.ValidPlan query (p.planCall query reply call) ↔
    ¬ ∃ spec, p.getTool (p.nameText (entryOf call "name")) = some spec ∧
      (p.BadText (entryOf call "arguments") ∨ p.BadSchema spec (entryOf call "arguments")) := by
  obtain ⟨toolName, htoolName⟩ : ∃ toolName, p.nameText (entryOf call "name") = toolName := ⟨_, rfl⟩
  rw [htoolName]
  have hplan : p.planCall query reply call =
      match p.getTool toolName with
      | none => .ok (p.fallbackPlan query s!"unknown_tool: 工具 '{toolName}' 未注册")
      | some spec => match p.checkedArguments spec (entryOf call "arguments") with
        | .ok (cleaned, ignored) => .ok (p.llmPlan reply toolName cleaned ignored)
        | .error e =>
          if e.isValueError then .ok (p.fallbackPlan query ("invalid_arguments: " ++ e.text)) else .error e := by
    unfold planCall
    simp only [functionGet_good h, ← htoolName]
    rfl
  rw [hplan]
  obtain ⟨registered, hregistered⟩ : ∃ registered, p.getTool (toolName) = registered :=
    ⟨_, rfl⟩
  rw [hregistered]
  cases registered with
  | none =>
    refine iff_of_true (validPlan_fallback ?_) fun ⟨_, hspec, _⟩ => by cases hspec
    rw [String.append_assoc]
    exact append_ne_empty (by decide)
  | some spec =>
    have hname : spec.toolName = toolName := by
      have := List.find?_some hregistered
      exact of_decide_eq_true this
    have hescape : (∃ spec', some spec = some spec' ∧ (p.BadText (entryOf call "arguments") ∨
        p.BadSchema spec' (entryOf call "arguments"))) ↔
        ∃ e, p.checkedArguments spec (entryOf call "arguments") = .error e ∧ e.isValueError = false := by
      rw [checkedArguments_error_iff]
      constructor
      · rintro ⟨spec', hspec, hbad⟩
        obtain rfl := Option.some.inj hspec
        exact hbad
      · exact fun hbad => ⟨spec, rfl, hbad⟩
    rw [hescape]
    obtain ⟨checked, hchecked⟩ : ∃ checked, p.checkedArguments spec (entryOf call "arguments") = checked := ⟨_, rfl⟩
    simp only [hchecked]
    cases checked with
    | ok out =>
      obtain ⟨cleaned, ignored⟩ := out
      refine iff_of_true (.inl ⟨spec, cleaned, ?_, ?_, rfl, ?_⟩) fun ⟨_, he, _⟩ => by cases he
      · rw [hname]
        exact hregistered
      · rw [hname]
        rfl
      · obtain ⟨arguments, -, hvalid⟩ := checkedArguments_ok hchecked
        obtain ⟨again, hagain⟩ := validate_again hvalid
        exact validate_iff.mp ⟨_, hagain⟩
    | error e =>
      by_cases hvalue : e.isValueError = true
      · simp only [hvalue, if_true]
        refine iff_of_true (validPlan_fallback (append_ne_empty (by decide))) ?_
        rintro ⟨e', he, hother⟩
        obtain rfl := Except.error.inj he
        rw [hvalue] at hother
        cases hother
      · simp only [if_neg hvalue]
        refine iff_of_false (fun hvalid => hvalid) fun hnone => hnone ⟨e, rfl, Bool.eq_false_iff.mpr hvalue⟩

/-- What escapes from a reply with a tool call. -/
theorem escapes_iff {rest : List PyVal} (htools : p.tools ≠ [])
    (hreply : p.provider (buildPrompt query) p.buildToolsFromGateway = .ok reply)
    (hcalls : reply.toolCalls = some (call :: rest)) : p.Escapes query ↔
      BadFunction call ∨ ∃ spec, p.getTool (p.nameText (entryOf call "name")) = some spec ∧
        (p.BadText (entryOf call "arguments") ∨ p.BadSchema spec (entryOf call "arguments")) := by
  constructor
  · rintro ⟨reply', call', rest', -, hreply', hcalls', hbad⟩
    obtain rfl := Except.ok.inj (hreply.symm.trans hreply')
    obtain ⟨rfl, rfl⟩ := List.cons.inj (Option.some.inj (hcalls.symm.trans hcalls'))
    exact hbad
  · exact fun hbad => ⟨reply, call, rest, htools, hreply, hcalls, hbad⟩

/-- **The planner.**  `plan` ends in a registered tool with valid arguments, or in the keyword plan with a reason,
exactly when the first tool call of the reply does not make it raise. -/
theorem plan_valid_iff (p : LLMToolPlanner) (query : String) :
    p.ValidPlan query (p.plan query) ↔ ¬ p.Escapes query := by
  unfold plan
  by_cases htools : p.tools = []
  · have hempty : p.buildToolsFromGateway.isEmpty = true := by
      unfold buildToolsFromGateway
      rw [htools]
      rfl
    rw [if_pos hempty]
    exact iff_of_true (validPlan_fallback (by decide)) fun ⟨_, _, _, h, _⟩ => h htools
  · have hsome : ¬ p.buildToolsFromGateway.isEmpty = true := by
      unfold buildToolsFromGateway
      simpa using htools
    rw [if_neg hsome]
    obtain ⟨answer, hanswer⟩ : ∃ answer, p.provider (buildPrompt query) p.buildToolsFromGateway = answer := ⟨_, rfl⟩
    simp only [hanswer]
    cases answer with
    | error e =>
      refine iff_of_true (validPlan_fallback (append_ne_empty (by decide))) ?_
      rintro ⟨reply, call, rest, -, hreply, -⟩
      rw [hanswer] at hreply
      cases hreply
    | ok reply =>
      have hno : ∀ calls, reply.toolCalls = calls → (∀ call rest, calls ≠ some (call :: rest)) → ¬ p.Escapes query := by
        rintro calls hcalls hnone ⟨reply', call, rest, -, hreply, hcall, -⟩
        obtain rfl := Except.ok.inj (hanswer.symm.trans hreply)
        exact hnone call rest (hcalls.symm.trans hcall)
      obtain ⟨calls, hcalls⟩ : ∃ calls, reply.toolCalls = calls := ⟨_, rfl⟩
      simp only [hcalls]
      rcases calls with - | - | ⟨call, rest⟩
      · exact iff_of_true (validPlan_fallback (by decide)) (hno _ hcalls (by simp))
      · exact iff_of_true (validPlan_fallback (by decide)) (hno _ hcalls (by simp))
      · rw [escapes_iff htools hanswer hcalls]
        show p.ValidPlan query (p.planCall query reply call) ↔ _
        by_cases hbad : BadFunction call
        · obtain ⟨e, he⟩ := functionGet_bad hbad "name"
          refine iff_of_false (fun hvalid => ?_) fun hnone => hnone (.inl hbad)
          have hplan : p.planCall query reply call = .error e := by
            unfold planCall
            simp only [he]
            rfl
          rw [hplan] at hvalid
          exact hvalid
        · rw [planCall_valid_iff hbad, or_iff_right hbad]

/-- A tool server asks for the number 1; the model calls the tool without arguments. -/
def oddSchema : LLMToolPlanner where
  tools := [⟨"search", "", .low, [("properties", .dict []), ("required", .list [.int 1])]⟩]
  provider _ _ := .ok ⟨some [.dict [("function", .dict [("name", .str "search"), ("arguments", .dict [])])]], "", ""⟩
  fallback := keywordPlanner fun _ => false
  unicode := .plain
  jsonLoads _ := .error ⟨"JSONDecodeError", ""⟩
  pyStr
    | .str s => s
    | _ => ""

/-- `', '.join(missing)` raises a `TypeError`, which is not caught. -/
theorem plan_raises : ¬ ∀ (p : LLMToolPlanner) (query : String), p.ValidPlan query (p.plan query) := by
  intro h
  have hraises : ∃ e, oddSchema.plan "q" = .error e := ⟨_, rfl⟩
  obtain ⟨e, he⟩ := hraises
  have hvalid := h oddSchema "q"
  rw [he] at hvalid
  exact hvalid

end LLMToolPlanner

end AgentHarness
