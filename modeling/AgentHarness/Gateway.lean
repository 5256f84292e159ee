import AgentHarness.Schemas

/-!
# Gateway — `ToolGateway.call`

A call of an unregistered tool, of a tool without a callable, or of an MCP tool whose server is
missing or does not allow it, is a failed record.  Every other call runs the tool function, again
after a failed attempt while retries are left.  What the tool function does in each attempt is the
`attempt` parameter; a result dict with a truthy `error` entry is a failure.
-/

namespace AgentHarness

/-- What one run of a tool function did: returned a value, or raised with this text. -/
inductive ToolOutcome where
  | value (v : PyVal)
  | exc (msg : String)

/-- The identity and timing fields of a record. -/
structure CallMeta where
  callId : String
  latencyMs : Rat
  calledAt : PyVal

structure ToolGateway where
  /-- `_registry` -/
  registry : String → Option ToolSpec
  /-- names with a callable in `_callables` -/
  callables : String → Bool
  /-- names in `_mcp_clients` -/
  mcpClients : String → Bool
  /-- `_mcp_tool_allowlists`; a server without an entry has none -/
  mcpToolAllowlists : String → List String

namespace ToolGateway

/-- A record for a call that did not reach the tool function. -/
def failedRecord (i : CallMeta) (tool : String) (args : Dict) (error : String) : ToolCallRecord where
  callId := i.callId
  toolName := tool
  arguments := args
  result := .null
  status := .failed
  success := false
  latencyMs := 0
  retryCount := 0
  error := .str error
  calledAt := i.calledAt

/-- The `error` entry of a result dict, when it is truthy. -/
def resultError (v : PyVal) : Option PyVal :=
  match v with
  | .dict d => if (Dict.get d "error").truthy then some (Dict.get d "error") else none
  | _ => none

/-- The record of one finished attempt. -/
def attemptRecord (i : CallMeta) (tool : String) (args : Dict) (o : ToolOutcome) : ToolCallRecord :=
  match o with
  | .exc msg => { failedRecord i tool args msg with latencyMs := i.latencyMs }
  | .value v =>
    match resultError v with
    | some err => { failedRecord i tool args "" with
        result := v, error := err, latencyMs := i.latencyMs }
    | none => ⟨i.callId, tool, args, v, .completed, true, i.latencyMs, 0, .null, i.calledAt⟩

def isMcpToolAllowed (g : ToolGateway) (server tool : String) : Bool :=
  (g.mcpToolAllowlists server).isEmpty || tool ∈ g.mcpToolAllowlists server

variable (attempt : Nat → ToolOutcome × CallMeta)

def callLocal (g : ToolGateway) (tool : String) (args : Dict) (n : Nat) : ToolCallRecord :=
  if g.callables tool then attemptRecord (attempt n).2 tool args (attempt n).1
  else failedRecord (attempt n).2 tool args s!"本地工具 '{tool}' 无可调用对象"

def callMcp (g : ToolGateway) (spec : ToolSpec) (args : Dict) (n : Nat) : ToolCallRecord :=
  let failed := failedRecord (attempt n).2 spec.toolName args
  match spec.serverName with
  | none => failed s!"MCP 工具 '{spec.toolName}' 缺少 server_name"
  | some server =>
    if !g.mcpClients server then failed s!"MCP Server '{server}' 未注册"
    else
      let mcpToolName := match spec.mcpToolName with
        | some t => if t = "" then spec.toolName else t
        | none => spec.toolName
      if !g.isMcpToolAllowed server mcpToolName then
        failed s!"MCP tool '{mcpToolName}' is not allowed by MCP_TOOL_ALLOWLIST"
      else attemptRecord (attempt n).2 spec.toolName args (attempt n).1

/-- The retry loop, entered at attempt `n` with `left` retries to go. -/
def withRetry (one : Nat → ToolCallRecord) : (left n : Nat) → ToolCallRecord
  | 0, n => { one n with retryCount := n }
  | left + 1, n =>
    if (one n).success then { one n with retryCount := n } else withRetry one left (n + 1)

def call (g : ToolGateway) (tool : String) (args : Dict) : ToolCallRecord :=
  match g.registry tool with
  | none => failedRecord (attempt 0).2 tool args s!"工具 '{tool}' 未注册"
  | some spec =>
    if spec.source = "mcp" then withRetry (g.callMcp attempt spec args) spec.maxRetries 0
    else withRetry (g.callLocal attempt tool args) spec.maxRetries 0

end ToolGateway

end AgentHarness
