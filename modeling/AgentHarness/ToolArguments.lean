import AgentHarness.LlmOps
import Mathlib.Data.List.Nodup

/-!
# ToolArguments — `validate_tool_arguments`

The arguments that a model gives are checked against the input schema of the tool.  An argument that the
schema does not declare is dropped, one of another type than declared is an error, and so is a required one
that is not among those that are kept.  A schema comes from a tool server, and may be any JSON value.
-/

namespace AgentHarness

namespace ToolArguments

/-- `_JSON_TYPE_CHECKS.get(expected)` -/
def jsonTypeCheck (expected : String) : Option (PyVal → Bool) :=
  match expected with
  | "string" => some fun value => match value with
    | .str _ => true
    | _ => false
  | "integer" => some fun value => match value with
    | .int _ => true
    | _ => false
  | "number" => some fun value => match value with
    | .int _ | .float _ => true
    | _ => false
  | "boolean" => some fun value => match value with
    | .bool _ => true
    | _ => false
  | "array" => some fun value => match value with
    | .list _ => true
    | _ => false
  | "object" => some fun value => match value with
    | .dict _ => true
    | _ => false
  | "null" => some fun value => match value with
    | .null => true
    | _ => false
  | _ => none

/-- `schema.get("properties")`, where both are dicts. -/
def properties (inputSchema : PyVal) : Dict :=
  match inputSchema with
  | .dict schema => match Dict.get schema "properties" with
    | .dict properties => properties
    | _ => []
  | _ => []

/-- `schema.get("required")`, where it is a list. -/
def required (inputSchema : PyVal) : List PyVal :=
  match inputSchema with
  | .dict schema => match Dict.get schema "required" with
    | .list required => required
    | _ => []
  | _ => []

/-- `prop_schema.get("type")`, where it is a string. -/
def expectedType (propSchema : PyVal) : Option String :=
  match propSchema with
  | .dict propSchema => match Dict.get propSchema "type" with
    | .str expected => some expected
    | _ => none
  | _ => none

/-- The type that an argument violates. -/
def violated (propSchema value : PyVal) : Option String :=
  match expectedType propSchema with
  | none => none
  | some expected => match jsonTypeCheck expected with
    | none => none
    | some check => if check value then none else some expected

def valueError (text : String) : Raised := ⟨"ValueError", text⟩

/-- The loop over `arguments.items()`. -/
def checkArguments (properties : Dict) : Dict → Dict → List String → Except Raised (Dict × List String)
  | [], cleaned, ignored => .ok (cleaned, ignored)
  | (key, value) :: arguments, cleaned, ignored =>
    match Dict.get? properties key with
    | none => checkArguments properties arguments cleaned (ignored ++ [key])
    | some propSchema => match violated propSchema value with
      | some expected => .error (valueError s!"参数 '{key}' 类型不符，期望 {expected}")
      | none => checkArguments properties arguments (Dict.set cleaned key value) ignored

/-- `key in cleaned`, for a key that may be anything. -/
def inDict (cleaned : Dict) (key : PyVal) : Except Raised Bool :=
  match key with
  | .str name => .ok (Dict.get? cleaned name).isSome
  | key => if key.hashable then .ok false else .error ⟨"TypeError", "unhashable type"⟩

/-- `[key for key in required if key not in cleaned]` -/
def missingKeys (cleaned : Dict) : List PyVal → Except Raised (List PyVal)
  | [] => .ok []
  | key :: required => do
    let known ← inDict cleaned key
    let missing ← missingKeys cleaned required
    pure (if known then missing else key :: missing)

/-- `', '.join(missing)` -/
def join : List PyVal → Except Raised String
  | [] => .ok ""
  | [.str name] => .ok name
  | .str name :: missing => do
    let rest ← join missing
    pure (name ++ ", " ++ rest)
  | _ => .error ⟨"TypeError", "sequence item: expected str instance"⟩

def validateToolArguments (inputSchema : PyVal) (arguments : Dict) : Except Raised (Dict × List String) := do
  let (cleaned, ignored) ← checkArguments (properties inputSchema) arguments [] []
  let missing ← missingKeys cleaned (required inputSchema)
  if missing ≠ [] then
    let names ← join missing
    throw (valueError s!"缺少必填参数: {names}")
  pure (cleaned, ignored)

/-! ## What a schema asks for -/

/-- The seven basic types. -/
def basicTypes : List String := ["string", "integer", "number", "boolean", "array", "object", "null"]

/-- A value has a basic type.  A boolean is neither an integer nor a number. -/
def HasType (expected : String) : PyVal → Prop
  | .str _ => expected = "string"
  | .int _ => expected = "integer" ∨ expected = "number"
  | .float _ => expected = "number"
  | .bool _ => expected = "boolean"
  | .list _ => expected = "array"
  | .dict _ => expected = "object"
  | .null => expected = "null"
  | .object _ => False

/-- The properties declare a key. -/
def Declares (properties : Dict) (key : String) : Prop := (Dict.get? properties key).isSome = true

instance (properties : Dict) (key : String) : Decidable (Declares properties key) := by
  unfold Declares
  infer_instance

/-- The basic type that the properties declare for a key. -/
def DeclaresType (properties : Dict) (key expected : String) : Prop :=
  ∃ propSchema, Dict.get? properties key = some (.dict propSchema) ∧
    Dict.get propSchema "type" = .str expected ∧ expected ∈ basicTypes

/-- An argument has the type that is declared for it, if there is one. -/
def Conforms (properties : Dict) (argument : String × PyVal) : Prop :=
  ∀ expected, DeclaresType properties argument.1 expected → HasType expected argument.2

def keys (d : Dict) : List String := d.map Prod.fst

variable {props cleaned cleaned' arguments : Dict} {ignored ignored' : List String} {key name : String}
  {value inputSchema : PyVal} {e : Raised}

theorem jsonTypeCheck_basic (value : PyVal) {expected : String} {check : PyVal → Bool}
    (h : jsonTypeCheck expected = some check) :
    expected ∈ basicTypes ∧ (check value = true ↔ HasType expected value) := by
  unfold jsonTypeCheck at h
  split at h
  case h_8 => cases h
  all_goals
    obtain rfl := Option.some.inj h
    refine ⟨by decide, ?_⟩
    cases value <;> simp [HasType]

theorem jsonTypeCheck_none {expected : String} (h : jsonTypeCheck expected = none) : expected ∉ basicTypes := by
  intro hmem
  simp only [basicTypes, List.mem_cons, List.not_mem_nil, or_false] at hmem
  rcases hmem with rfl | rfl | rfl | rfl | rfl | rfl | rfl <;> cases h

/-- The check of one argument. -/
theorem violated_none {propSchema : PyVal} (h : Dict.get? props key = some propSchema) :
    violated propSchema value = none ↔ Conforms props (key, value) := by
  have hdeclared : ∀ expected, DeclaresType props key expected ↔
      expectedType propSchema = some expected ∧ expected ∈ basicTypes := by
    intro expected
    unfold DeclaresType expectedType
    rw [h]
    constructor
    · rintro ⟨p, hp, htype, hbasic⟩
      obtain rfl := Option.some.inj hp
      simp only [htype]
      exact ⟨trivial, hbasic⟩
    · rintro ⟨htype, hbasic⟩
      cases propSchema with
      | dict p =>
        refine ⟨p, rfl, ?_, hbasic⟩
        simp only at htype
        split at htype
        · rename_i hget
          rw [hget, Option.some.inj htype]
        · cases htype
      | _ => cases htype
  unfold violated Conforms
  obtain ⟨type?, htype⟩ : ∃ type?, expectedType propSchema = type? := ⟨_, rfl⟩
  rw [htype]
  cases type? with
  | none =>
    refine ⟨fun _ expected hexpected => ?_, fun _ => rfl⟩
    rw [hdeclared, htype] at hexpected
    cases hexpected.1
  | some expected =>
    obtain ⟨check?, hcheck⟩ : ∃ check?, jsonTypeCheck expected = check? := ⟨_, rfl⟩
    simp only [hcheck]
    cases check? with
    | none =>
      refine ⟨fun _ other hother => ?_, fun _ => rfl⟩
      rw [hdeclared, htype] at hother
      obtain rfl := Option.some.inj hother.1
      exact absurd hother.2 (jsonTypeCheck_none hcheck)
    | some check =>
      obtain ⟨hbasic, hhas⟩ := jsonTypeCheck_basic value hcheck
      simp only [ite_eq_left_iff, reduceCtorEq, imp_false, not_not]
      constructor
      · intro hpass other hother
        rw [hdeclared, htype] at hother
        obtain rfl := Option.some.inj hother.1
        exact hhas.mp hpass
      · intro hall
        exact hhas.mpr (hall expected ((hdeclared expected).mpr ⟨htype, hbasic⟩))

/-! ## The loop -/

theorem checkArguments_cons (argument : String × PyVal) :
    checkArguments props (argument :: arguments) cleaned ignored = match Dict.get? props argument.1 with
    | none => checkArguments props arguments cleaned (ignored ++ [argument.1])
    | some propSchema => match violated propSchema argument.2 with
      | some expected => .error (valueError s!"参数 '{argument.1}' 类型不符，期望 {expected}")
      | none => checkArguments props arguments (Dict.set cleaned argument.1 argument.2) ignored := rfl

/-- Undeclared arguments conform. -/
theorem conforms_undeclared {argument : String × PyVal} (h : Dict.get? props argument.1 = none) :
    Conforms props argument := by
  rintro expected ⟨p, hp, -⟩
  rw [h] at hp
  cases hp

/-- One argument that conforms takes the loop on, one that does not is the error. -/
theorem checkArguments_step (argument : String × PyVal) :
    (Conforms props argument →
      checkArguments props (argument :: arguments) cleaned ignored =
        if Declares props argument.1 then
          checkArguments props arguments (Dict.set cleaned argument.1 argument.2) ignored
        else checkArguments props arguments cleaned (ignored ++ [argument.1])) ∧
    (¬ Conforms props argument →
      ∃ text, checkArguments props (argument :: arguments) cleaned ignored = .error (valueError text)) := by
  rw [checkArguments_cons]
  obtain ⟨prop?, hprop⟩ : ∃ prop?, Dict.get? props argument.1 = prop? := ⟨_, rfl⟩
  rw [hprop]
  cases prop? with
  | none =>
    have hundeclared : ¬ Declares props argument.1 := by
      unfold Declares
      rw [hprop]
      exact Bool.false_ne_true
    rw [if_neg hundeclared]
    exact ⟨fun _ => rfl, fun h => absurd (conforms_undeclared hprop) h⟩
  | some propSchema =>
    have hdeclared : Declares props argument.1 := by
      unfold Declares
      rw [hprop]
      rfl
    rw [if_pos hdeclared]
    have hchecked : violated propSchema argument.2 = none ↔ Conforms props argument := violated_none hprop
    rw [← hchecked]
    obtain ⟨expected?, hexpected⟩ : ∃ expected?, violated propSchema argument.2 = expected? := ⟨_, rfl⟩
    cases expected? with
    | none =>
      refine ⟨fun _ => ?_, fun h => absurd hexpected h⟩
      simp only [hexpected]
    | some expected =>
      refine ⟨fun h => ?_, fun _ => ?_⟩
      · rw [hexpected] at h
        cases h
      · simp only [hexpected]
        exact ⟨_, rfl⟩

/-- The loop fails at the first argument that does not conform. -/
theorem checkArguments_error (cleaned : Dict) (ignored : List String)
    (h : ∃ argument ∈ arguments, ¬ Conforms props argument) :
    ∃ text, checkArguments props arguments cleaned ignored = .error (valueError text) := by
  induction arguments generalizing cleaned ignored with
  | nil =>
    obtain ⟨argument, hmem, -⟩ := h
    exact absurd hmem List.not_mem_nil
  | cons argument arguments ih =>
    by_cases hfirst : Conforms props argument
    · obtain ⟨other, hmem, hother⟩ := h
      have hmem : other ∈ arguments := by
        rcases List.mem_cons.mp hmem with rfl | hmem
        · exact absurd hfirst hother
        · exact hmem
      rw [(checkArguments_step argument).1 hfirst]
      split
      · exact ih _ _ ⟨other, hmem, hother⟩
      · exact ih _ _ ⟨other, hmem, hother⟩
    · exact (checkArguments_step argument).2 hfirst

theorem keys_set {name : String} {d : Dict} : name ∈ keys (Dict.set d key value) ↔ name ∈ keys d ∨ name = key := by
  induction d with
  | nil => simp [Dict.set, keys]
  | cons entry d ih =>
    obtain ⟨key', value'⟩ := entry
    unfold Dict.set
    split
    · rename_i hkey
      simp only [keys, List.map_cons, List.mem_cons, hkey]
      tauto
    · simp only [keys, List.map_cons, List.mem_cons] at ih ⊢
      rw [ih]
      tauto

theorem mem_set {d : Dict} {entry : String × PyVal} (h : entry ∈ Dict.set d key value) :
    entry ∈ d ∨ entry = (key, value) := by
  induction d with
  | nil => exact .inr (List.mem_singleton.mp h)
  | cons first d ih =>
    obtain ⟨key', value'⟩ := first
    unfold Dict.set at h
    split at h
    · rename_i hkey
      rcases List.mem_cons.mp h with rfl | h
      · exact .inr (by rw [hkey])
      · exact .inl (List.mem_cons_of_mem _ h)
    · rcases List.mem_cons.mp h with rfl | h
      · exact .inl List.mem_cons_self
      · exact (ih h).imp_left (List.mem_cons_of_mem _)

/-- What the loop keeps: arguments that are declared, and all of their keys. -/
theorem checkArguments_ok (cleaned : Dict) (ignored : List String)
    (h : ∀ argument ∈ arguments, Conforms props argument) :
    ∃ cleaned' ignored', checkArguments props arguments cleaned ignored = .ok (cleaned', ignored') ∧
      (∀ entry ∈ cleaned', entry ∈ cleaned ∨ entry ∈ arguments ∧ Declares props entry.1) ∧
      (∀ name, name ∈ keys cleaned' ↔ name ∈ keys cleaned ∨ name ∈ keys arguments ∧ Declares props name) ∧
      (∀ name ∈ ignored', name ∈ ignored ∨ name ∈ keys arguments ∧ ¬ Declares props name) := by
  induction arguments generalizing cleaned ignored with
  | nil =>
    refine ⟨cleaned, ignored, rfl, fun entry hentry => .inl hentry, fun name => ?_, fun name hname => .inl hname⟩
    simp [keys]
  | cons argument arguments ih =>
    have hrest := fun other hother => h other (List.mem_cons_of_mem argument hother)
    rw [(checkArguments_step argument).1 (h argument List.mem_cons_self)]
    by_cases hdeclared : Declares props argument.1
    · rw [if_pos hdeclared]
      obtain ⟨cleaned', ignored', hrun, hentries, hkeys, hignored⟩ :=
        ih (Dict.set cleaned argument.1 argument.2) ignored hrest
      refine ⟨cleaned', ignored', hrun, fun entry hentry => ?_, fun name => ?_, fun name hname =>
        (hignored name hname).imp_right fun hlater => ⟨List.mem_cons_of_mem _ hlater.1, hlater.2⟩⟩
      · rcases hentries entry hentry with hset | hlater
        · rcases mem_set hset with hold | rfl
          · exact .inl hold
          · exact .inr ⟨List.mem_cons_self, hdeclared⟩
        · exact .inr ⟨List.mem_cons_of_mem _ hlater.1, hlater.2⟩
      · rw [hkeys, keys_set]
        show _ ↔ name ∈ keys cleaned ∨ name ∈ argument.1 :: keys arguments ∧ Declares props name
        rw [List.mem_cons]
        constructor
        · rintro ((hold | rfl) | hlater)
          · exact .inl hold
          · exact .inr ⟨.inl rfl, hdeclared⟩
          · exact .inr ⟨.inr hlater.1, hlater.2⟩
        · rintro (hold | ⟨rfl | hlater, hname⟩)
          · exact .inl (.inl hold)
          · exact .inl (.inr rfl)
          · exact .inr ⟨hlater, hname⟩
    · rw [if_neg hdeclared]
      obtain ⟨cleaned', ignored', hrun, hentries, hkeys, hignored⟩ :=
        ih cleaned (ignored ++ [argument.1]) hrest
      refine ⟨cleaned', ignored', hrun, fun entry hentry => ?_, fun name => ?_, fun name hname => ?_⟩
      · exact (hentries entry hentry).imp_right fun hlater => ⟨List.mem_cons_of_mem _ hlater.1, hlater.2⟩
      · rw [hkeys]
        show _ ↔ name ∈ keys cleaned ∨ name ∈ argument.1 :: keys arguments ∧ Declares props name
        rw [List.mem_cons]
        constructor
        · rintro (hold | hlater)
          · exact .inl hold
          · exact .inr ⟨.inr hlater.1, hlater.2⟩
        · rintro (hold | ⟨rfl | hlater, hname⟩)
          · exact .inl hold
          · exact absurd hname hdeclared
          · exact .inr ⟨hlater, hname⟩
      · rcases hignored name hname with hold | hname
        · rcases List.mem_append.mp hold with hold | hself
          · exact .inl hold
          · rw [List.mem_singleton.mp hself]
            exact .inr ⟨List.mem_cons_self, hdeclared⟩
        · exact .inr ⟨List.mem_cons_of_mem _ hname.1, hname.2⟩

theorem set_new {d : Dict} (h : key ∉ keys d) : Dict.set d key value = d ++ [(key, value)] := by
  induction d with
  | nil => rfl
  | cons entry d ih =>
    obtain ⟨key', value'⟩ := entry
    simp only [keys, List.map_cons, List.mem_cons, not_or] at h
    unfold Dict.set
    rw [if_neg (Ne.symm h.1), ih h.2]
    rfl

/-- With distinct keys, the loop splits the arguments in their order. -/
theorem checkArguments_split (cleaned : Dict) (ignored : List String)
    (h : ∀ argument ∈ arguments, Conforms props argument)
    (hdistinct : (keys cleaned ++ keys arguments).Nodup) : checkArguments props arguments cleaned ignored =
      .ok (cleaned ++ arguments.filter (fun argument => Declares props argument.1),
        ignored ++ (keys arguments).filter fun name => ¬ Declares props name) := by
  induction arguments generalizing cleaned ignored with
  | nil => simp [checkArguments, keys]
  | cons argument arguments ih =>
    have hrest := fun other hother => h other (List.mem_cons_of_mem argument hother)
    have hkeys : keys (argument :: arguments) = argument.1 :: keys arguments := rfl
    rw [hkeys] at hdistinct ⊢
    rw [(checkArguments_step argument).1 (h argument List.mem_cons_self)]
    by_cases hdeclared : Declares props argument.1
    · have hnew : argument.1 ∉ keys cleaned := by
        intro hold
        exact (List.nodup_append.mp hdistinct).2.2 _ hold _ List.mem_cons_self rfl
      rw [if_pos hdeclared, set_new hnew, ih _ _ hrest]
      · rw [List.filter_cons_of_pos (by simpa using hdeclared), List.filter_cons_of_neg (by simpa using hdeclared),
          List.append_assoc]
        rfl
      · simpa [keys] using hdistinct
    · rw [if_neg hdeclared, ih _ _ hrest]
      · rw [List.filter_cons_of_neg (by simpa using hdeclared), List.filter_cons_of_pos (by simpa using hdeclared),
          List.append_assoc]
        rfl
      · exact hdistinct.sublist ((List.sublist_cons_self _ _).append_left _)

/-! ## The required keys -/

/-- The names among the required keys. -/
def Named (required : List PyVal) : Prop := ∀ key ∈ required, ∃ name, key = .str name

theorem named_cons {required : List PyVal} : Named (.str name :: required) ↔ Named required := by
  refine ⟨fun h key hkey => h key (List.mem_cons_of_mem _ hkey), fun h key hkey => ?_⟩
  rcases List.mem_cons.mp hkey with rfl | hkey
  · exact ⟨name, rfl⟩
  · exact h key hkey

theorem inDict_str : inDict cleaned (.str name) = .ok (decide (name ∈ keys cleaned)) := by
  have hmem : (Dict.get? cleaned name).isSome = decide (name ∈ keys cleaned) := by
    induction cleaned with
    | nil => rfl
    | cons entry cleaned ih =>
      obtain ⟨key, value⟩ := entry
      rw [Dict.get?_cons]
      by_cases h : name = key
      · simp [h, keys]
      · have hkeys : keys ((key, value) :: cleaned) = key :: keys cleaned := rfl
        rw [if_neg h, ih, hkeys]
        simp [h]
  show Except.ok (Dict.get? cleaned name).isSome = _
  rw [hmem]

theorem missingKeys_cons {key : PyVal} {required : List PyVal} :
    missingKeys cleaned (key :: required) = (inDict cleaned key >>= fun known =>
      missingKeys cleaned required >>= fun missing => pure (if known then missing else key :: missing)) := rfl

/-- Where all required keys are names, the missing ones are found. -/
theorem missingKeys_named (cleaned : Dict) {required : List PyVal} (h : Named required) :
    ∃ names : List String, missingKeys cleaned required = .ok (names.map PyVal.str) ∧
      ∀ name, name ∈ names ↔ .str name ∈ required ∧ name ∉ keys cleaned := by
  induction required with
  | nil => exact ⟨[], rfl, fun name => by simp⟩
  | cons key required ih =>
    obtain ⟨first, rfl⟩ := h key List.mem_cons_self
    obtain ⟨names, hnames, hmem⟩ := ih (named_cons.mp h)
    rw [missingKeys_cons, inDict_str, hnames]
    by_cases hknown : first ∈ keys cleaned
    · refine ⟨names, ?_, fun name => ?_⟩
      · rw [decide_eq_true hknown]
        rfl
      · rw [hmem, List.mem_cons, PyVal.str.injEq]
        constructor
        · exact fun hname => ⟨.inr hname.1, hname.2⟩
        · rintro ⟨rfl | hname, hnew⟩
          · exact absurd hknown hnew
          · exact ⟨hname, hnew⟩
    · refine ⟨first :: names, ?_, fun name => ?_⟩
      · rw [decide_eq_false hknown]
        rfl
      · rw [List.mem_cons, hmem, List.mem_cons, PyVal.str.injEq]
        constructor
        · rintro (rfl | hname)
          · exact ⟨.inl rfl, hknown⟩
          · exact ⟨.inr hname.1, hname.2⟩
        · rintro ⟨rfl | hname, hnew⟩
          · exact .inl rfl
          · exact .inr ⟨hname, hnew⟩

theorem join_named (names : List String) : ∃ text, join (names.map PyVal.str) = .ok text := by
  induction names with
  | nil => exact ⟨"", rfl⟩
  | cons name names ih =>
    obtain ⟨text, htext⟩ := ih
    cases names with
    | nil => exact ⟨name, rfl⟩
    | cons second names =>
      refine ⟨name ++ ", " ++ text, ?_⟩
      show (join ((second :: names).map PyVal.str) >>= _) = _
      rw [htext]
      rfl

/-- A required key that is no name is always missing, and cannot be reported. -/
theorem missingKeys_unnamed (cleaned : Dict) {required : List PyVal} (h : ¬ Named required) :
    (∃ text, missingKeys cleaned required = .error ⟨"TypeError", text⟩) ∨
    ∃ missing, missingKeys cleaned required = .ok missing ∧ ¬ Named missing := by
  induction required with
  | nil => exact absurd (fun key hkey => absurd hkey List.not_mem_nil) h
  | cons key required ih =>
    rw [missingKeys_cons]
    by_cases hnamed : ∃ name, key = .str name
    · obtain ⟨name, rfl⟩ := hnamed
      have hrest : ¬ Named required := fun hrest => h (named_cons.mpr hrest)
      rw [inDict_str]
      rcases ih hrest with ⟨text, htext⟩ | ⟨missing, hmissing, hbad⟩
      · rw [htext]
        exact .inl ⟨text, rfl⟩
      · rw [hmissing]
        refine .inr ⟨_, rfl, ?_⟩
        split
        · exact hbad
        · exact fun hall => hbad fun key hkey => hall key (List.mem_cons_of_mem _ hkey)
    · have hfirst : inDict cleaned key = .ok false ∨ ∃ text, inDict cleaned key = .error ⟨"TypeError", text⟩ := by
        unfold inDict
        split
        · exact absurd ⟨_, rfl⟩ hnamed
        · split
          · exact .inl rfl
          · exact .inr ⟨_, rfl⟩
      rcases hfirst with hfirst | ⟨text, hfirst⟩
      · rw [hfirst]
        have hbad : ∀ missing : List PyVal, ¬ Named (key :: missing) :=
          fun missing hall => hnamed (hall key List.mem_cons_self)
        by_cases hrest : Named required
        · obtain ⟨names, hnames, -⟩ := missingKeys_named cleaned hrest
          rw [hnames]
          exact .inr ⟨_, rfl, hbad _⟩
        · rcases ih hrest with ⟨text, htext⟩ | ⟨missing, hmissing, -⟩
          · rw [htext]
            exact .inl ⟨text, rfl⟩
          · rw [hmissing]
            exact .inr ⟨_, rfl, hbad _⟩
      · rw [hfirst]
        exact .inl ⟨text, rfl⟩

theorem join_unnamed {missing : List PyVal} (h : ¬ Named missing) :
    ∃ text, join missing = .error ⟨"TypeError", text⟩ := by
  induction missing with
  | nil => exact absurd (fun key hkey => absurd hkey List.not_mem_nil) h
  | cons key missing ih =>
    by_cases hnamed : ∃ name, key = .str name
    · obtain ⟨name, rfl⟩ := hnamed
      have hrest : ¬ Named missing := fun hrest => h (named_cons.mpr hrest)
      obtain ⟨text, htext⟩ := ih hrest
      cases missing with
      | nil => exact absurd (fun key hkey => absurd hkey List.not_mem_nil) hrest
      | cons second missing =>
        refine ⟨text, ?_⟩
        show (join (second :: missing) >>= _) = _
        rw [htext]
        rfl
    · cases key with
      | str name => exact absurd ⟨name, rfl⟩ hnamed
      | _ => exact ⟨_, rfl⟩

/-! ## The validation -/

theorem validate_bad (h : ∃ argument ∈ arguments, ¬ Conforms (properties inputSchema) argument) :
    ∃ text, validateToolArguments inputSchema arguments = .error (valueError text) := by
  obtain ⟨text, htext⟩ := checkArguments_error [] [] h
  refine ⟨text, ?_⟩
  show (checkArguments _ _ _ _ >>= _) = _
  rw [htext]
  rfl

theorem validate_unnamed (h : ∀ argument ∈ arguments, Conforms (properties inputSchema) argument)
    (hrequired : ¬ Named (required inputSchema)) :
    ∃ text, validateToolArguments inputSchema arguments = .error ⟨"TypeError", text⟩ := by
  obtain ⟨cleaned, ignored, hrun, -⟩ := checkArguments_ok [] [] h
  show ∃ text, (checkArguments _ _ _ _ >>= _) = _
  rw [hrun]
  rcases missingKeys_unnamed cleaned hrequired with ⟨text, htext⟩ | ⟨missing, hmissing, hbad⟩
  · refine ⟨text, ?_⟩
    show (missingKeys cleaned (required inputSchema) >>= _) = _
    rw [htext]
    rfl
  · obtain ⟨text, htext⟩ := join_unnamed hbad
    have hsome : missing ≠ [] := fun hnil => hbad (by rw [hnil]; exact fun key hkey => absurd hkey List.not_mem_nil)
    refine ⟨text, ?_⟩
    show (missingKeys cleaned (required inputSchema) >>= _) = _
    rw [hmissing]
    show (if missing ≠ [] then _ else _) = _
    rw [if_pos hsome]
    show (join missing >>= _) = _
    rw [htext]
    rfl

/-- With names for required keys, the validation succeeds exactly when none is missing from what was kept. -/
theorem validate_named (hrun : checkArguments (properties inputSchema) arguments [] [] = .ok (cleaned, ignored))
    (hrequired : Named (required inputSchema)) :
    ((∀ name, .str name ∈ required inputSchema → name ∈ keys cleaned) →
      validateToolArguments inputSchema arguments = .ok (cleaned, ignored)) ∧
    ((∃ name, .str name ∈ required inputSchema ∧ name ∉ keys cleaned) →
      ∃ text, validateToolArguments inputSchema arguments = .error (valueError text)) := by
  obtain ⟨names, hnames, hmem⟩ := missingKeys_named cleaned hrequired
  have hvalidate : validateToolArguments inputSchema arguments =
      if names.map PyVal.str ≠ [] then
        (join (names.map PyVal.str) >>= fun text => .error (valueError s!"缺少必填参数: {text}"))
      else .ok (cleaned, ignored) := by
    show (checkArguments _ _ _ _ >>= _) = _
    rw [hrun]
    show (missingKeys cleaned (required inputSchema) >>= _) = _
    rw [hnames]
    show (if names.map PyVal.str ≠ [] then _ else _) = _
    split
    · show (join (names.map PyVal.str) >>= _) = _
      obtain ⟨text, htext⟩ := join_named names
      rw [htext]
      rfl
    · rfl
  rw [hvalidate]
  constructor
  · intro hall
    have hnone : names = [] := by
      refine List.eq_nil_iff_forall_not_mem.mpr fun name hname => ?_
      obtain ⟨hin, hout⟩ := (hmem name).mp hname
      exact hout (hall name hin)
    rw [hnone, if_neg (by simp)]
  · rintro ⟨name, hin, hout⟩
    have hsome : names ≠ [] := List.ne_nil_of_mem ((hmem name).mpr ⟨hin, hout⟩)
    obtain ⟨text, htext⟩ := join_named names
    rw [if_pos (by simpa using hsome), htext]
    exact ⟨_, rfl⟩

/-- What a schema accepts. -/
structure Valid (inputSchema : PyVal) (arguments : Dict) : Prop where
  conforms : ∀ argument ∈ arguments, Conforms (properties inputSchema) argument
  named : Named (required inputSchema)
  given : ∀ name, .str name ∈ required inputSchema → Declares (properties inputSchema) name ∧ name ∈ keys arguments

/-- The validation succeeds on what the schema accepts, and on nothing else. -/
theorem validate_iff :
    (∃ out, validateToolArguments inputSchema arguments = .ok out) ↔ Valid inputSchema arguments := by
  by_cases hconforms : ∀ argument ∈ arguments, Conforms (properties inputSchema) argument
  · obtain ⟨cleaned, ignored, hrun, -, hkeys, -⟩ := checkArguments_ok [] [] hconforms
    have hkeys : ∀ name, name ∈ keys cleaned ↔ Declares (properties inputSchema) name ∧ name ∈ keys arguments := by
      intro name
      rw [hkeys]
      simp [keys, and_comm]
    by_cases hnamed : Named (required inputSchema)
    · obtain ⟨hok, herror⟩ := validate_named hrun hnamed
      constructor
      · rintro ⟨out, hout⟩
        refine ⟨hconforms, hnamed, fun name hname => ?_⟩
        by_contra hmissing
        obtain ⟨text, htext⟩ := herror ⟨name, hname, fun hin => hmissing ((hkeys name).mp hin)⟩
        rw [htext] at hout
        cases hout
      · rintro ⟨-, -, hgiven⟩
        exact ⟨_, hok fun name hname => (hkeys name).mpr (hgiven name hname)⟩
    · refine ⟨fun ⟨out, hout⟩ => ?_, fun h => absurd h.named hnamed⟩
      obtain ⟨text, htext⟩ := validate_unnamed hconforms hnamed
      rw [htext] at hout
      cases hout
  · refine ⟨fun ⟨out, hout⟩ => ?_, fun h => absurd h.conforms hconforms⟩
    push Not at hconforms
    obtain ⟨text, htext⟩ := validate_bad hconforms
    rw [htext] at hout
    cases hout

/-- An error is a `ValueError`, unless the arguments conform and a required key is no name. -/
theorem validate_error_iff : (∃ e, validateToolArguments inputSchema arguments = .error e ∧ e.cls ≠ "ValueError") ↔
    (∀ argument ∈ arguments, Conforms (properties inputSchema) argument) ∧ ¬ Named (required inputSchema) := by
  constructor
  · rintro ⟨e, he, hcls⟩
    have hconforms : ∀ argument ∈ arguments, Conforms (properties inputSchema) argument := by
      by_contra hbad
      push Not at hbad
      obtain ⟨text, htext⟩ := validate_bad hbad
      rw [htext] at he
      obtain rfl := Except.error.inj he
      exact hcls rfl
    refine ⟨hconforms, fun hnamed => ?_⟩
    obtain ⟨cleaned, ignored, hrun, -⟩ := checkArguments_ok [] [] hconforms
    obtain ⟨hok, herror⟩ := validate_named hrun hnamed
    by_cases hall : ∀ name, .str name ∈ required inputSchema → name ∈ keys cleaned
    · rw [hok hall] at he
      cases he
    · push Not at hall
      obtain ⟨text, htext⟩ := herror hall
      rw [htext] at he
      obtain rfl := Except.error.inj he
      exact hcls rfl
  · rintro ⟨hconforms, hnamed⟩
    obtain ⟨text, htext⟩ := validate_unnamed hconforms hnamed
    exact ⟨_, htext, show "TypeError" ≠ "ValueError" by decide⟩

theorem validate_error_class (h : validateToolArguments inputSchema arguments = .error e) :
    e.cls = "ValueError" ∨ e.cls = "TypeError" := by
  by_cases hcls : e.cls = "ValueError"
  · exact .inl hcls
  · obtain ⟨hconforms, hnamed⟩ := validate_error_iff.mp ⟨e, h, hcls⟩
    obtain ⟨text, htext⟩ := validate_unnamed hconforms hnamed
    rw [htext] at h
    obtain rfl := Except.error.inj h
    exact .inr rfl

/-- What was kept is accepted again, and nothing of it is ignored. -/
theorem validate_again (h : validateToolArguments inputSchema arguments = .ok (cleaned, ignored)) :
    ∃ cleaned', validateToolArguments inputSchema cleaned = .ok (cleaned', []) := by
  obtain ⟨hconforms, hnamed, hgiven⟩ := validate_iff.mp ⟨_, h⟩
  obtain ⟨kept, dropped, hrun, hentries, hkeys, -⟩ := checkArguments_ok [] [] hconforms
  obtain ⟨hok, herror⟩ := validate_named hrun hnamed
  have hkept : ∀ name, .str name ∈ required inputSchema → name ∈ keys kept := by
    intro name hname
    rw [hkeys]
    exact .inr (hgiven name hname).symm
  obtain ⟨rfl, -⟩ := Prod.mk.inj (Except.ok.inj (h.symm.trans (hok hkept)))
  have hold : ∀ entry ∈ cleaned, entry ∈ arguments ∧ Declares (properties inputSchema) entry.1 :=
    fun entry hentry => (hentries entry hentry).resolve_left List.not_mem_nil
  have hagain : ∀ entry ∈ cleaned, Conforms (properties inputSchema) entry :=
    fun entry hentry => hconforms entry (hold entry hentry).1
  obtain ⟨cleaned', ignored', hrun', -, hkeys', hignored⟩ :=
    checkArguments_ok [] [] hagain
  have hnone : ignored' = [] := by
    refine List.eq_nil_iff_forall_not_mem.mpr fun name hname => ?_
    obtain ⟨hin, hundeclared⟩ := (hignored name hname).resolve_left List.not_mem_nil
    obtain ⟨entry, hentry, rfl⟩ := List.mem_map.mp hin
    exact hundeclared (hold entry hentry).2
  subst hnone
  refine ⟨cleaned', (validate_named hrun' hnamed).1 fun name hname => ?_⟩
  rw [hkeys']
  exact .inr ⟨hkept name hname, (hgiven name hname).1⟩

/-- The basic types of a schema, in the words of its arguments. -/
theorem conforms_iff : (∀ argument ∈ arguments, Conforms props argument) ↔
    ∀ key value, (key, value) ∈ arguments → ∀ expected, DeclaresType props key expected → HasType expected value :=
  ⟨fun h key value hmem => h (key, value) hmem, fun h argument hmem => h argument.1 argument.2 hmem⟩

/-- **Argument validation.**  For a schema whose required keys are names, and arguments with distinct keys: the
validation succeeds exactly when each argument has the basic type that is declared for it, and each required name
is declared and given.  Then the kept and the ignored arguments are the declared ones and the keys of the others,
in their order, and the kept ones are kept again with nothing ignored. -/
theorem validation_exact (inputSchema : PyVal) (arguments : Dict) (hdistinct : (keys arguments).Nodup)
    (hnamed : Named (required inputSchema)) :
    ((∃ out, validateToolArguments inputSchema arguments = .ok out) ↔
      (∀ key value, (key, value) ∈ arguments → ∀ expected, DeclaresType (properties inputSchema) key expected →
        HasType expected value) ∧
      ∀ name, .str name ∈ required inputSchema → Declares (properties inputSchema) name ∧ name ∈ keys arguments) ∧
    ∀ cleaned ignored, validateToolArguments inputSchema arguments = .ok (cleaned, ignored) →
      cleaned = arguments.filter (fun argument => Declares (properties inputSchema) argument.1) ∧
      ignored = ((keys arguments).filter fun name => ¬ Declares (properties inputSchema) name) ∧
      validateToolArguments inputSchema cleaned = .ok (cleaned, []) := by
  refine ⟨?_, fun cleaned ignored h => ?_⟩
  · rw [validate_iff, ← conforms_iff]
    exact ⟨fun h => ⟨h.conforms, h.given⟩, fun h => ⟨h.1, hnamed, h.2⟩⟩
  · obtain ⟨hconforms, -, hgiven⟩ := validate_iff.mp ⟨_, h⟩
    have hsplit := checkArguments_split [] [] hconforms hdistinct
    simp only [List.nil_append] at hsplit
    have hkeys : ∀ name, .str name ∈ required inputSchema →
        name ∈ keys (arguments.filter fun argument => Declares (properties inputSchema) argument.1) := by
      intro name hname
      obtain ⟨hdeclared, hin⟩ := hgiven name hname
      obtain ⟨argument, hargument, rfl⟩ := List.mem_map.mp hin
      exact List.mem_map_of_mem (List.mem_filter.mpr ⟨hargument, decide_eq_true hdeclared⟩)
    obtain ⟨rfl, rfl⟩ := Prod.mk.inj (Except.ok.inj (h.symm.trans ((validate_named hsplit hnamed).1 hkeys)))
    refine ⟨rfl, rfl, ?_⟩
    have hkept : ∀ argument ∈ arguments.filter (fun argument => Declares (properties inputSchema) argument.1),
        Conforms (properties inputSchema) argument :=
      fun argument hargument => hconforms argument (List.mem_filter.mp hargument).1
    have hkeptKeys : (keys (arguments.filter fun argument => Declares (properties inputSchema) argument.1)).Nodup :=
      hdistinct.sublist (List.filter_sublist.map _)
    have hagain := checkArguments_split [] [] hkept hkeptKeys
    have hnone : (keys (arguments.filter fun argument => Declares (properties inputSchema) argument.1)).filter
        (fun name => ¬ Declares (properties inputSchema) name) = [] := by
      refine List.filter_eq_nil_iff.mpr fun name hname => ?_
      obtain ⟨argument, hargument, rfl⟩ := List.mem_map.mp hname
      have hdeclared := of_decide_eq_true (List.mem_filter.mp hargument).2
      simpa using hdeclared
    rw [List.nil_append, List.nil_append, List.filter_filter, hnone] at hagain
    simp only [Bool.and_self] at hagain
    exact (validate_named hagain hnamed).1 hkeys

/-- The schema of the tool for the top products, with an argument that it does not declare. -/
theorem validation_exact_limit :
    ((∃ out, validateToolArguments (.dict [("properties", .dict [("limit", .dict [("type", .str "integer")])]),
          ("required", .list [.str "limit"])])
        [("limit", .int 3), ("sql", .str "SELECT 1")] = .ok out) ↔
      (∀ key value, (key, value) ∈ ([("limit", .int 3), ("sql", .str "SELECT 1")] : Dict) → ∀ expected,
        DeclaresType [("limit", .dict [("type", .str "integer")])] key expected → HasType expected value) ∧
      ∀ name, .str name ∈ [PyVal.str "limit"] →
        Declares [("limit", .dict [("type", .str "integer")])] name ∧ name ∈ ["limit", "sql"]) :=
  (validation_exact (.dict [("properties", .dict [("limit", .dict [("type", .str "integer")])]),
      ("required", .list [.str "limit"])])
    [("limit", .int 3), ("sql", .str "SELECT 1")] (by decide)
    (fun key hkey => ⟨"limit", List.mem_singleton.mp hkey⟩)).1

end ToolArguments

end AgentHarness
