import AgentHarness.Footprint

/-!
# Requests — the system: any number of requests over one database

A `Request` is what a client or the scheduler can ask for.  `start` gives every thread number a
request; a run is a schedule of `Conf.run`, so a thread that is not scheduled again has crashed.
-/

namespace AgentHarness

open Lib Py

/-- The deployed components. -/
structure Service where
  env : Env
  planner : Planner
  backend : Backend

inductive Request where
  | runKeyword (taskId query : String)
  | approve (a : ApprovalId) (req : DecideRequest)
  | reject (a : ApprovalId) (req : DecideRequest)
  | resume (a : ApprovalId)
  | manualResume (a : ApprovalId)
  | expireOld (now : Nat)

namespace Request

variable (sv : Service)

/-- The code that serves the request. -/
def code : Request → Py Dict
  | runKeyword taskId query => GraphRuntimeAdapter.runKeyword sv.env sv.planner taskId query
  | approve a req => AgentHarness.approve sv.env sv.backend a req
  | reject a req => AgentHarness.reject sv.env sv.backend a req
  | resume a => ApprovalResumeService.resume sv.env a
  | manualResume a => manualResumeApproval sv.env a
  | expireOld now => do
    let changed ← AgentHarness.expireOld now
    pure [("changed", .int changed)]

/-- What serving the request may do. -/
def Ops : Request → Op → Prop
  | runKeyword _ _ => RunKeywordOp
  | approve a _ => ApproveOp a
  | reject a _ => RejectOp a
  | resume a | manualResume a => ResumeOp a
  | expireOld now => (· = .expireOld now)

theorem code_uses (r : Request) : (r.code sv).Uses r.Ops := by
  cases r with
  | runKeyword taskId query => exact GraphRuntimeAdapter.runKeyword_uses
  | approve a req => exact approve_uses
  | reject a req => exact reject_uses
  | resume a => exact ApprovalResumeService.resume_uses
  | manualResume a => exact manualResumeApproval_uses
  | expireOld now => exact Prog.uses_call_bind.mpr ⟨rfl, fun _ => trivial⟩

end Request

/-- Every thread at the start of its request, with an empty log. -/
def start (sv : Service) (db : Db) (reqs : Nat → Request) : Conf Op Ans PyExc World Dict :=
  ⟨⟨db, []⟩, fun t => (reqs t).code sv⟩

/-- The configuration after a schedule. -/
def Service.run (sv : Service) (c : Conf Op Ans PyExc World Dict) (sched : List Nat) :
    Conf Op Ans PyExc World Dict :=
  c.run (exec sv.env) sched

variable {sv : Service} {db : Db} {reqs : Nat → Request} {P : Op → Prop}

theorem start_usesAll (h : ∀ t o, (reqs t).Ops o → P o) : (start sv db reqs).UsesAll P :=
  fun t => ((reqs t).code_uses sv).mono (h t)

/-! ## A small deployment

Two tools, `report` of low and `refund` of high risk; every call succeeds.  The concrete runs of
this development use it. -/

def demoSpec (tool : String) (risk : RiskLevel) : ToolSpec := ⟨tool, risk, "write", 0, "local", none, none⟩

def demoEnv : Env where
  gateway :=
    { registry := fun t =>
        if t = "report" then some (demoSpec t .low)
        else if t = "refund" then some (demoSpec t .high) else none
      callables := fun _ => true
      mcpClients := fun _ => false
      mcpToolAllowlists := fun _ => [] }
  tool := fun _ _ _ => (.value (.dict [("done", .bool true)]), ⟨"call", 0, .null⟩)
  policyEngine := some fun t r => PolicyEngine.evaluate ⟨none⟩ t r none
  kernelApprovalStore := true
  pipelineApprovalStore := true
  adapterApprovalStore := true
  checkPayload := fun _ => ⟨false, "", "", [], "allow"⟩
  checkText := fun _ => ⟨false, "", "", [], "allow"⟩
  nl2sql := fun _ _ => .ok [("success", .bool false)]
  hook := fun _ _ payload => payload
  clock := id
  toolNames := ["report", "refund"]
  dumpRecord := fun r => .ok [("success", .bool r.success)]
  attr := fun _ _ => none
  recordAttr := fun _ _ => none
  fmt := fun _ => ""

/-- The planner that plans `tool` for every query. -/
def demoPlanner (tool : String) : Planner :=
  ⟨fun _ => ⟨some tool, true, some tool, none, []⟩, fun _ => tool⟩

def demoService : Service := ⟨demoEnv, demoPlanner "refund", .sqlite⟩

def demoRequest : DecideRequest := ⟨"admin", "", true⟩

end AgentHarness
