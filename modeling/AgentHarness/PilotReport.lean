import AgentHarness.Redaction

/-!
# PilotReport — `sanitize_pilot_report_payload`

A payload is walked from the top: what stands under a prompt-like key is replaced, what stands under a
sensitive key is left to `redact_sensitive_value`, and a text elsewhere loses the password of a DSN.  A
dataclass is taken as the dict of its fields where this walk meets it; `asdict` converts what is nested in
them as well, so that `deep` says whether a dataclass further down is one still.
-/

namespace AgentHarness

open Lib

/-- What a report is made of. -/
inductive Payload where
  | null
  | bool (b : Bool)
  | int (i : Int)
  | float (q : Rat)
  | str (s : String)
  | list (l : List Payload)
  | dict (d : List (String × Payload))
  | dataclass (name : String) (fields : List (String × Payload))
  | object (name : String)

/-- The tables of the standard library, and `str` of a dataclass. -/
structure PilotEnv where
  unicode : Unicode
  badNetloc : List Char → Bool
  pyStr : String → List (String × Payload) → String

namespace PilotReport

def redactedPromptPlaceholder : String := "[REDACTED_PROMPT]"

def sensitiveKeysExact : List String :=
  ["token", "api_key", "apikey", "secret", "password", "authorization", "cookie", "jwt", "database_url",
    "redis_url", "key"]

def sensitiveKeyPatterns : List String :=
  ["token", "api_key", "apikey", "secret", "password", "authorization", "cookie", "jwt", "database_url",
    "redis_url", "key"]

def promptFieldPatterns : List String :=
  ["prompt", "query", "user_query", "raw_prompt", "sql_prompt", "input", "messages"]

def pilotEvidenceSafeKeys : List String :=
  ["prompt_tokens", "completion_tokens", "total_tokens", "prompt_tokens_total", "completion_tokens_total",
    "total_tokens_total", "api_key_present", "cache_hit", "budget_action", "latency_ms", "cost", "request_id",
    "provider", "model", "base_url_summary", "fallback_reason", "error_type", "outcome", "audit_event_id",
    "audit_event_type", "runtime_metric_keys", "log_request_id", "trace_id", "report_artifacts",
    "evidence_notes", "score", "passed", "confidence", "judge_provider"]

variable (env : PilotEnv)

/-- `key_lower in keys` -/
def isOneOf (keys : List String) (keyLower : List Char) : Bool := keys.any fun k => k.toList = keyLower

/-- `any(pattern in key_lower for pattern in patterns)` -/
def containsAny (patterns : List String) (keyLower : List Char) : Bool :=
  patterns.any fun pattern => pattern.toList <:+: keyLower

def isSensitiveKey (key : String) : Bool :=
  let keyLower := env.unicode.lower key.toList
  if isOneOf pilotEvidenceSafeKeys keyLower then false
  else isOneOf sensitiveKeysExact keyLower || containsAny sensitiveKeyPatterns keyLower

def isPromptLikeKey (key : String) : Bool :=
  let keyLower := env.unicode.lower key.toList
  if isOneOf pilotEvidenceSafeKeys keyLower then false else containsAny promptFieldPatterns keyLower

/-- `_redact_dsn_if_needed` of a text. -/
def redactDsnIfNeeded (value : String) : Except PyExc PyVal :=
  let text := env.unicode.strip value.toList
  if text = [] ∨ ¬ "://".toList <:+: text then .ok (.str value)
  else match urlsplit env.badNetloc text with
    | .error _ => .ok (.str value)
    | .ok parsed =>
      if !isDsnScheme parsed.scheme then .ok (.str value)
      else if parsed.password = none then .ok (.str value)
      else do
        let netloc ← safeNetloc env.unicode parsed
        return .str (String.ofList (urlunsplit { parsed with netloc := netloc }))

mutual
/-- A payload as `redact_sensitive_value` takes it: a dataclass is the dict of its fields after `asdict`, and
an object that has a text before. -/
def seen (deep : Bool) : Payload → PyVal
  | .null => .null
  | .bool b => .bool b
  | .int i => .int i
  | .float q => .float q
  | .str s => .str s
  | .list l => .list (seenItems deep l)
  | .dict d => .dict (seenEntries deep d)
  | .dataclass name fields =>
    if deep then .dict (seenEntries deep fields) else .object (env.pyStr name fields)
  | .object name => .object name

def seenItems (deep : Bool) : List Payload → List PyVal
  | [] => []
  | v :: l => seen deep v :: seenItems deep l

def seenEntries (deep : Bool) : List (String × Payload) → Dict
  | [] => []
  | (key, value) :: d => (key, seen deep value) :: seenEntries deep d
end

mutual
def sanitize (deep : Bool) : Payload → Except PyExc PyVal
  | .null => .ok .null
  | .dataclass _ fields => do return .dict (← sanitizeEntries true fields)
  | .dict d => do return .dict (← sanitizeEntries deep d)
  | .list l => do return .list (← sanitizeItems deep l)
  | .str s => redactDsnIfNeeded env s
  | .bool b => .ok (.bool b)
  | .int i => .ok (.int i)
  | .float q => .ok (.float q)
  | .object name => .ok (.object name)

def sanitizeEntries (deep : Bool) : List (String × Payload) → Except PyExc Dict
  | [] => .ok []
  | (key, value) :: d => do
    let value' ← if isPromptLikeKey env key then .ok (.str redactedPromptPlaceholder)
      else if isSensitiveKey env key then redactSensitiveValue env.unicode env.badNetloc (seen env deep value)
      else sanitize deep value
    return (key, value') :: (← sanitizeEntries deep d)

def sanitizeItems (deep : Bool) : List Payload → Except PyExc (List PyVal)
  | [] => .ok []
  | v :: l => do return (← sanitize deep v) :: (← sanitizeItems deep l)
end

/-- `sanitize_pilot_report_payload` -/
def sanitizePilotReportPayload (payload : Payload) : Except PyExc PyVal := sanitize env false payload

/-- What becomes of the value of an entry. -/
def sanitizeEntry (deep : Bool) (key : String) (value : Payload) : Except PyExc PyVal :=
  if isPromptLikeKey env key then .ok (.str redactedPromptPlaceholder)
  else if isSensitiveKey env key then redactSensitiveValue env.unicode env.badNetloc (seen env deep value)
  else sanitize env deep value

variable {env} {deep : Bool}

theorem sanitizeEntries_cons {k : String} {v : Payload} {d : List (String × Payload)} :
    sanitizeEntries env deep ((k, v) :: d) = (sanitizeEntry env deep k v).bind fun v' =>
      (sanitizeEntries env deep d).bind fun d' => .ok ((k, v') :: d') := by
  conv_lhs => unfold sanitizeEntries
  unfold sanitizeEntry
  split_ifs <;> rfl

/-- The entries are sanitized one by one. -/
theorem sanitizeEntries_iff {d : List (String × Payload)} {d' : Dict} :
    sanitizeEntries env deep d = .ok d' ↔
      List.Forall₂ (fun kv kv' => kv'.1 = kv.1 ∧ sanitizeEntry env deep kv.1 kv.2 = .ok kv'.2) d d' := by
  induction d generalizing d' with
  | nil =>
    unfold sanitizeEntries
    rw [List.forall₂_nil_left_iff]
    exact ⟨fun h => (Except.ok.inj h).symm, fun h => congrArg _ h.symm⟩
  | cons kv d ih =>
    obtain ⟨k, v⟩ := kv
    rw [sanitizeEntries_cons, List.forall₂_cons_left_iff]
    constructor
    · intro h
      obtain ⟨v', hv, h⟩ := bind_ok h
      obtain ⟨d₁, hd, h⟩ := bind_ok h
      exact ⟨(k, v'), d₁, ⟨rfl, hv⟩, ih.mp hd, (Except.ok.inj h).symm⟩
    · rintro ⟨⟨k', v'⟩, d₁, ⟨hk, hv⟩, hrest, rfl⟩
      simp only at hk hv
      rw [hv, Except.bind, ih.mpr hrest, hk]
      rfl

theorem sanitizeItems_iff {l : List Payload} {l' : List PyVal} :
    sanitizeItems env deep l = .ok l' ↔ List.Forall₂ (fun v v' => sanitize env deep v = .ok v') l l' := by
  induction l generalizing l' with
  | nil =>
    unfold sanitizeItems
    rw [List.forall₂_nil_left_iff]
    exact ⟨fun h => (Except.ok.inj h).symm, fun h => congrArg _ h.symm⟩
  | cons v l ih =>
    have hstep : sanitizeItems env deep (v :: l) = (sanitize env deep v).bind fun v' =>
        (sanitizeItems env deep l).bind fun l' => .ok (v' :: l') := by
      conv_lhs => unfold sanitizeItems
      rfl
    rw [hstep, List.forall₂_cons_left_iff]
    constructor
    · intro h
      obtain ⟨v', hv, h⟩ := bind_ok h
      obtain ⟨l₁, hl, h⟩ := bind_ok h
      exact ⟨v', l₁, hv, ih.mp hl, (Except.ok.inj h).symm⟩
    · rintro ⟨v', l₁, hv, hrest, rfl⟩
      rw [hv, Except.bind, ih.mpr hrest]
      rfl

theorem sanitize_dict {d : List (String × Payload)} {w : PyVal} :
    sanitize env deep (.dict d) = .ok w ↔
      ∃ d', List.Forall₂ (fun kv kv' => kv'.1 = kv.1 ∧ sanitizeEntry env deep kv.1 kv.2 = .ok kv'.2) d d' ∧
        w = .dict d' := by
  have hstep : sanitize env deep (.dict d) = (sanitizeEntries env deep d).bind fun d' => .ok (.dict d') := by
    conv_lhs => unfold sanitize
    rfl
  rw [hstep]
  simp only [← sanitizeEntries_iff]
  constructor
  · intro h
    obtain ⟨d', hd, h⟩ := bind_ok h
    exact ⟨d', hd, (Except.ok.inj h).symm⟩
  · rintro ⟨d', hd, rfl⟩
    rw [hd]
    rfl

theorem sanitize_dataclass {name : String} {fields : List (String × Payload)} :
    sanitize env deep (.dataclass name fields) = sanitize env true (.dict fields) := by
  unfold sanitize
  rfl

theorem sanitize_list {l : List Payload} {w : PyVal} :
    sanitize env deep (.list l) = .ok w ↔
      ∃ l', List.Forall₂ (fun v v' => sanitize env deep v = .ok v') l l' ∧ w = .list l' := by
  have hstep : sanitize env deep (.list l) = (sanitizeItems env deep l).bind fun l' => .ok (.list l') := by
    conv_lhs => unfold sanitize
    rfl
  rw [hstep]
  simp only [← sanitizeItems_iff]
  constructor
  · intro h
    obtain ⟨l', hl, h⟩ := bind_ok h
    exact ⟨l', hl, (Except.ok.inj h).symm⟩
  · rintro ⟨l', hl, rfl⟩
    rw [hl]
    rfl

/-! ## `asdict` -/

mutual
/-- `asdict`, of a dataclass and of what is nested in it. -/
def asdict : Payload → Payload
  | .list l => .list (asdictItems l)
  | .dict d => .dict (asdictEntries d)
  | .dataclass _ fields => .dict (asdictEntries fields)
  | v => v

def asdictItems : List Payload → List Payload
  | [] => []
  | v :: l => asdict v :: asdictItems l

def asdictEntries : List (String × Payload) → List (String × Payload)
  | [] => []
  | (key, value) :: d => (key, asdict value) :: asdictEntries d
end

mutual
theorem seen_asdict : ∀ v : Payload, seen env deep (asdict v) = seen env true v
  | .list l => by simp only [asdict, seen, seenItems_asdict l]
  | .dict d => by simp only [asdict, seen, seenEntries_asdict d]
  | .dataclass name fields => by simp only [asdict, seen, seenEntries_asdict fields, if_true]
  | .null | .bool _ | .int _ | .float _ | .str _ | .object _ => by simp only [asdict, seen]

theorem seenItems_asdict : ∀ l : List Payload, seenItems env deep (asdictItems l) = seenItems env true l
  | [] => rfl
  | v :: l => by simp only [asdictItems, seenItems, seen_asdict v, seenItems_asdict l]

theorem seenEntries_asdict : ∀ d : List (String × Payload),
    seenEntries env deep (asdictEntries d) = seenEntries env true d
  | [] => rfl
  | (k, v) :: d => by simp only [asdictEntries, seenEntries, seen_asdict v, seenEntries_asdict d]
end

mutual
/-- The walk over what `asdict` returns. -/
theorem sanitize_asdict : ∀ v : Payload, sanitize env deep (asdict v) = sanitize env true v
  | .list l => by simp only [asdict, sanitize, sanitizeItems_asdict l]
  | .dict d => by simp only [asdict, sanitize, sanitizeEntries_asdict d]
  | .dataclass name fields => by simp only [asdict, sanitize, sanitizeEntries_asdict fields]
  | .null | .bool _ | .int _ | .float _ | .str _ | .object _ => by simp only [asdict, sanitize]

theorem sanitizeItems_asdict : ∀ l : List Payload,
    sanitizeItems env deep (asdictItems l) = sanitizeItems env true l
  | [] => rfl
  | v :: l => by simp only [asdictItems, sanitizeItems, sanitize_asdict v, sanitizeItems_asdict l]

theorem sanitizeEntries_asdict : ∀ d : List (String × Payload),
    sanitizeEntries env deep (asdictEntries d) = sanitizeEntries env true d
  | [] => rfl
  | (k, v) :: d => by
    simp only [asdictEntries, sanitizeEntries, seen_asdict v, sanitize_asdict v, sanitizeEntries_asdict d]
end

end PilotReport

end AgentHarness
