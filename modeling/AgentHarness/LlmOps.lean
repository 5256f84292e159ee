import AgentHarness.Lib.Interleave
import AgentHarness.PyVal
import Mathlib.Algebra.Order.Ring.Rat

/-!
# LlmOps — the atomic operations of the NL2SQL and judge calls

A call of the NL2SQL pipeline or of the judge is a program over these operations: one critical
section of the budget manager or of the cache, one request to a provider, one query of the database,
one reading of the clock.  Two calls interleave between any two of them.  What is outside (the clock,
providers, the database) answers by the number of operations performed before.

The cache keeps references: the record that a call stored is still filled in by that call afterwards
(`updateObject`).
-/

namespace AgentHarness

open Lib

/-- An exception, as far as the handlers look at it: `type(exc).__name__` and `str(exc)`. -/
structure Raised where
  cls : String
  text : String
  deriving DecidableEq, Repr

structure LLMGenerateMetadata where
  content : String
  provider : String
  model : String
  promptTokens : Int
  completionTokens : Int
  totalTokens : Int
  cost : Rat
  requestId : String
  errorType : Option String
  /-- set in the copy that a cache hit returns -/
  cacheHit : Bool

/-- An entry of `_usage_events`. -/
structure Usage where
  scopeKey : String
  mode : String
  provider : String
  model : String
  promptTokens : Int
  completionTokens : Int
  cost : Rat

structure BudgetDecision where
  allowed : Bool
  action : String
  reason : String
  budgetScope : String
  currentCost : Rat
  softLimit : Rat
  hardLimit : Rat
  estimatedCost : Rat

/-- The result record of `NL2SQLPipeline._generate`. -/
structure GenOutput where
  selectedTables : List String
  sql : String
  guardAllowed : Bool
  guardReason : String
  reasoning : String
  confidence : Rat
  generatorUsed : String
  providerUsed : Option String
  fallbackUsed : Bool
  fallbackReason : Option String
  warnings : List String
  providerMetadata : Option LLMGenerateMetadata
  budgetStatus : Option BudgetDecision

structure JudgeResult where
  score : Rat
  passed : Bool
  reasoning : String
  judgeProvider : String
  fallbackUsed : Bool
  fallbackReason : String
  providerMetadata : Option LLMGenerateMetadata
  promptTokens : Int
  completionTokens : Int
  cost : Rat
  confidence : Rat

inductive ProviderKind where
  | fake | litellm | openaiCompatible
  deriving DecidableEq, Repr

/-- A constructed provider. -/
structure Provider where
  kind : ProviderKind
  /-- `_model`; the fake provider has none -/
  model : String
  baseUrl : String
  maxRetries : Nat

/-- `name`. -/
def Provider.name (p : Provider) : String :=
  match p.kind with
  | .fake => "fake"
  | .litellm => "litellm"
  | .openaiCompatible => "openai_compatible"

structure SchemaField where
  name : String
  type : String
  isPrimaryKey : Bool
  sampleValues : List PyVal

structure SchemaTable where
  name : String
  fields : List SchemaField
  rowCount : Nat

structure DatabaseSchema where
  tables : List SchemaTable
  dbPath : String

/-- The attributes of a LiteLLM response that are read. -/
structure LiteLLMResponse where
  promptTokens : Int
  completionTokens : Int
  totalTokens : Option Int
  responseCost : Rat
  id : String
  /-- `choices[0].message`: its content, and whether it carries tool calls; none without choices -/
  message : Option (Option String × Bool)

/-- A response of `/chat/completions`; the body is what `response.json()` returns. -/
structure HttpResponse where
  statusCode : Nat
  body : Except Raised PyVal

inductive LlmOp where
  | now
  /-- `date.today()`: the ISO date and the month prefix -/
  | today
  | readCost (scope : String)
  | addUsage (usage : Usage)
  | getNl2sql (key : String) (now : Nat)
  | setNl2sql (key : String) (expireAt : Nat) (output : GenOutput)
  | updateObject (id : Nat) (output : GenOutput)
  | getJudge (key : String) (now : Nat)
  | setJudge (key : String) (expireAt : Nat) (result : JudgeResult)
  | litellmCompletion (p : Provider) (prompt : String)
  | httpPost (p : Provider) (prompt : String)
  | extractSchema
  /-- the database file exists, and one query on a read-only connection -/
  | query (sql : String)

/-- What a query returns: columns and rows; nothing where the database file is missing. -/
abbrev QueryAnswer := Option (List String × List Dict)

@[reducible] def LlmAns : LlmOp → Type
  | .now => Nat
  | .today => String × String
  | .readCost _ => Rat
  | .addUsage _ => Unit
  | .getNl2sql _ _ => Option GenOutput
  | .setNl2sql _ _ _ => Nat
  | .updateObject _ _ => Unit
  | .getJudge _ _ => Option JudgeResult
  | .setJudge _ _ _ => Unit
  | .litellmCompletion _ _ => LiteLLMResponse
  | .httpPost _ _ => HttpResponse
  | .extractSchema => DatabaseSchema
  | .query _ => QueryAnswer

/-- The code of a call. -/
abbrev Llm := Prog LlmOp LlmAns Raised

abbrev LlmEvent := Ev LlmOp LlmAns Raised

/-- The shared state of one process: the budget manager, the cache and its records. -/
structure LlmDb where
  costByScope : String → Rat
  usageEvents : List Usage
  nl2sqlCache : String → Option (Nat × Nat)
  objects : List GenOutput
  judgeCache : String → Option (Nat × JudgeResult)

/-- A fresh process. -/
def LlmDb.initial : LlmDb := ⟨fun _ => 0, [], fun _ => none, [], fun _ => none⟩

abbrev LlmWorld := Logged LlmOp LlmAns Raised LlmDb

/-- What answers from outside, by the number of operations performed before. -/
structure LlmOutside where
  clock : Nat → Nat
  today : Nat → String × String
  litellm : Nat → Provider → String → Except Raised LiteLLMResponse
  http : Nat → Provider → String → Except Raised HttpResponse
  schema : Nat → Except Raised DatabaseSchema
  database : Nat → String → Except Raised QueryAnswer

/-- An entry that has expired is dropped. -/
def expired (expireAt now : Nat) : Bool := 0 < expireAt && expireAt < now

def llmExec (out : LlmOutside) (log : List LlmEvent) : (o : LlmOp) → LlmDb → Except Raised (LlmAns o) × LlmDb
  | .now, db => (.ok (out.clock log.length), db)
  | .today, db => (.ok (out.today log.length), db)
  | .readCost scope, db => (.ok (db.costByScope scope), db)
  | .addUsage usage, db =>
    (.ok (), { db with
      costByScope := Function.update db.costByScope usage.scopeKey
        (db.costByScope usage.scopeKey + usage.cost)
      usageEvents := db.usageEvents ++ [usage] })
  | .getNl2sql key now, db =>
    match db.nl2sqlCache key with
    | none => (.ok none, db)
    | some (expireAt, id) =>
      if expired expireAt now then
        (.ok none, { db with nl2sqlCache := Function.update db.nl2sqlCache key none })
      else (.ok db.objects[id]?, db)
  | .setNl2sql key expireAt output, db =>
    (.ok db.objects.length, { db with
      nl2sqlCache := Function.update db.nl2sqlCache key (some (expireAt, db.objects.length))
      objects := db.objects ++ [output] })
  | .updateObject id output, db => (.ok (), { db with objects := db.objects.set id output })
  | .getJudge key now, db =>
    match db.judgeCache key with
    | none => (.ok none, db)
    | some (expireAt, result) =>
      if expired expireAt now then
        (.ok none, { db with judgeCache := Function.update db.judgeCache key none })
      else (.ok (some result), db)
  | .setJudge key expireAt result, db =>
    (.ok (), { db with judgeCache := Function.update db.judgeCache key (some (expireAt, result)) })
  | .litellmCompletion p prompt, db => (out.litellm log.length p prompt, db)
  | .httpPost p prompt, db => (out.http log.length p prompt, db)
  | .extractSchema, db => (out.schema log.length, db)
  | .query sql, db => (out.database log.length sql, db)

section Exec

variable {out : LlmOutside} {log : List LlmEvent} {db : LlmDb} {key : String} {now : Nat}

/-- A lookup keeps the records, and answers one of them. -/
theorem llmExec_getNl2sql : (llmExec out log (.getNl2sql key now) db).2.objects = db.objects ∧
    ∀ o, (llmExec out log (.getNl2sql key now) db).1 = .ok (some o) → o ∈ db.objects := by
  simp only [llmExec]
  cases db.nl2sqlCache key with
  | none => exact ⟨rfl, fun o ho => by cases ho⟩
  | some entry =>
    dsimp only
    split
    · exact ⟨rfl, fun o ho => by cases ho⟩
    · exact ⟨rfl, fun o ho => List.mem_of_getElem? (Except.ok.inj ho)⟩

theorem llmExec_getJudge : (llmExec out log (.getJudge key now) db).2.objects = db.objects := by
  simp only [llmExec]
  cases db.judgeCache key with
  | none => rfl
  | some entry =>
    dsimp only
    split <;> rfl

end Exec

/-- One operation of a call, in a world that logs it. -/
def llmStep (out : LlmOutside) (t : Nat) (o : LlmOp) (w : LlmWorld) :
    Except Raised (LlmAns o) × LlmWorld :=
  Logged.exec (fun log _ o db => llmExec out log o db) t o w

namespace Llm

def perform (o : LlmOp) : Llm (LlmAns o) := Prog.call o

def now : Llm Nat := perform .now

end Llm

end AgentHarness
