import AgentHarness.PIIGuard
import AgentHarness.PyVal
import Mathlib.Data.List.Infix

/-!
# Guardrails — `GuardrailsEngine` on the output of a model

`check_llm_output` looks for dangerous suggestions and personal data in a text, `sanitize_response`
for personal data only.
-/

namespace AgentHarness

open Lib

structure GuardrailsResult where
  allowed : Bool
  action : String
  reason : String
  findings : List PyVal
  sanitizedText : Option String
  riskLevel : String

def PIIFinding.toDict (f : PIIFinding) : PyVal :=
  .dict [("type", .str f.type), ("masked_value", .str f.maskedValue), ("risk_level", .str f.riskLevel),
    ("span", .list [.int f.start, .int f.stop])]

def GuardrailsResult.toDict (r : GuardrailsResult) : PyVal :=
  .dict [("allowed", .bool r.allowed), ("action", .str r.action), ("reason", .str r.reason),
    ("findings", .list r.findings),
    ("sanitized_text", match r.sanitizedText with
      | some t => .str t
      | none => .null),
    ("risk_level", .str r.riskLevel)]

namespace GuardrailsEngine

def dangerousOutputRules : List (String × String) :=
  [("直接删除", "dangerous_delete_suggestion"), ("绕过审批", "bypass_approval_suggestion"),
    ("导出全部用户手机号", "bulk_pii_export_suggestion"),
    ("disable policy", "disable_policy_suggestion"),
    ("bypass approval", "bypass_approval_suggestion_en"),
    ("delete from", "dangerous_sql_suggestion_en"), ("drop table", "dangerous_ddl_suggestion_en")]

/-- The markers of the rules that occur in a text, in any case. -/
def dangerousRulesHit (u : Unicode) (text : String) : List String :=
  dangerousOutputRules.filterMap fun (rule, marker) =>
    if u.lower rule.toList <:+: u.lower text.toList then some marker else none

def checkLlmOutput (u : Unicode) (text : String) : GuardrailsResult :=
  let (redactedText, piiFindings) := PIIGuard.redact u text
  let hits := dangerousRulesHit u text
  let dangerous := !hits.isEmpty
  let pii := !piiFindings.isEmpty
  { allowed := true
    action := if dangerous then "warn" else if pii then "redact" else "allow"
    reason := if dangerous then "dangerous operation suggestion detected"
      else if pii then "PII detected in LLM output" else ""
    findings := piiFindings.map PIIFinding.toDict ++
      (if dangerous then [.dict [("type", .str "dangerous_output_suggestion"),
        ("matched_rules", .list (hits.map .str))]] else [])
    sanitizedText := if pii then some redactedText else none
    riskLevel := if dangerous then "high" else if pii then "medium" else "low" }

def sanitizeResponse (u : Unicode) (text : String) : GuardrailsResult :=
  let (redacted, findings) := PIIGuard.redact u text
  if findings.isEmpty then ⟨true, "allow", "", [], some text, "low"⟩
  else ⟨true, "redact", "response contains PII", findings.map PIIFinding.toDict, some redacted, "medium"⟩

end GuardrailsEngine

end AgentHarness
