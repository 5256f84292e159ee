import AgentHarness.Lib.Object
import AgentHarness.Lib.Text
import AgentHarness.Schemas
import Mathlib.Data.List.Basic

/-!
# StdioClient — `StdioMCPClient`

The client runs the server as a process of its own, and exchanges lines of JSON with it.  A line that comes
back is taken as `json.loads` reads it.  Processes are numbered in the order in which they are started, so
that two of them are never mixed up.  A process may exit, fall silent or answer anything at any time.
-/

namespace AgentHarness

open Lib

/-- `value.split(",")`, stripped, without the empty parts. -/
def parseCsv (u : Unicode) (value : String) : List String :=
  (((value.toList.splitOn ',').map u.strip).filter (· ≠ [])).map String.ofList

/-- The exceptions of the client, and any other. -/
inductive StdioExc where
  | configError (msg : String)
  | protocolError (msg : String)
  | timeoutError (msg : String)
  | processCrashed (msg : String)
  | other (msg : String)
deriving DecidableEq

/-- `str(exc)` -/
def StdioExc.text : StdioExc → String
  | configError m | protocolError m | timeoutError m | processCrashed m | other m => m

/-- `type(exc).__name__` -/
def StdioExc.className : StdioExc → String
  | configError _ => "MCPConfigError"
  | protocolError _ => "MCPProtocolError"
  | timeoutError _ => "MCPTimeoutError"
  | processCrashed _ => "MCPProcessCrashedError"
  | other _ => "Exception"

/-- A line that is written to the server. -/
inductive WireMessage where
  | request (id : Nat) (method : String) (params : Dict)
  | notification (method : String) (params : Dict)

/-- A line of the server, stripped, as `json.loads` reads it. -/
inductive ServerLine where
  | blank
  | invalid (line : String)
  | value (v : PyVal)
  /-- `json.loads` raises something other than a decode error -/
  | unloadable (msg : String)

inductive ReadAnswer where
  | line (l : ServerLine)
  | unreadable
  | timeout

/-- What becomes of a write: `OSError`, or an exception of `json.dumps` or of the encoding. -/
inductive WriteAnswer where
  | written
  | osError
  | raised (msg : String)

/-- What the client asks of the operating system. -/
inductive OsOp where
  | poll (p : Nat)
  | spawn (p : Nat) (cmdline : List String)
  | write (p : Nat) (m : WireMessage)
  | readline (p : Nat)
  | readStderr (p : Nat)
  | terminate (p : Nat)
  | closeStreams (p : Nat)

def OsOp.Answer : OsOp → Type
  | poll _ => Option Int
  | spawn _ _ => Option String
  | write _ _ => WriteAnswer
  | readline _ => ReadAnswer
  | readStderr _ => String
  | terminate _ => Unit
  | closeStreams _ => Unit

/-- The attributes of the client. -/
structure StdioMCPClient where
  serverName : String
  command : String
  args : String
  commandAllowlist : String
  clientVersion : String
  /-- the number of the process that `_process` holds -/
  process : Option Nat
  /-- how many processes have been started -/
  processes : Nat
  started : Bool
  initialized : Bool
  requestId : Nat
  lastError : String
  requestCount : Nat
  failureCount : Nat
  restartCount : Nat
  lastRestartReason : String
  stderrBuffer : String

/-- What the client calls of the language and its library. -/
structure StdioEnv where
  unicode : Unicode
  /-- `shlex.split`, which may raise -/
  shlexSplit : String → Except String (List String)
  /-- `str(v)` -/
  pyStr : PyVal → String

/-- A tool as the server describes it. -/
structure MCPToolInfo where
  name : String
  inputSchema : Dict
  outputSchema : Dict
  riskLevel : RiskLevel
  permissionScope : String

abbrev StdioProg (α : Type) := Prog (SelfOp StdioMCPClient OsOp) (SelfOp.Ans OsOp.Answer) StdioExc α

namespace StdioMCPClient

open Object

def mcpProtocolVersion : String := "2024-11-05"

def supportedProtocolVersions : List String := ["2024-11-05", "2025-03-26", "2025-06-18"]

def stderrMaxChars : Nat := 4000

/-- The last characters of a text. -/
def tail (s : String) : String := String.ofList (s.toList.drop (s.toList.length - stderrMaxChars))

/-- `__init__` -/
def new (env : StdioEnv) (serverName command args commandAllowlist clientVersion : String) : StdioMCPClient where
  serverName := serverName
  command := String.ofList (env.unicode.strip command.toList)
  args := args
  commandAllowlist := commandAllowlist
  clientVersion := clientVersion
  process := none
  processes := 0
  started := false
  initialized := false
  requestId := 0
  lastError := ""
  requestCount := 0
  failureCount := 0
  restartCount := 0
  lastRestartReason := ""
  stderrBuffer := ""

variable (env : StdioEnv)

/-! ## The operating system -/

def poll (p : Nat) : StdioProg (Option Int) := ext (OsOp.poll p)

def spawn (p : Nat) (cmdline : List String) : StdioProg (Option String) := ext (OsOp.spawn p cmdline)

def write (p : Nat) (m : WireMessage) : StdioProg WriteAnswer := ext (OsOp.write p m)

def readline (p : Nat) : StdioProg ReadAnswer := ext (OsOp.readline p)

def readStderr (p : Nat) : StdioProg String := ext (OsOp.readStderr p)

def terminateProcess (p : Nat) : StdioProg Unit := ext (OsOp.terminate p)

def closeStreams (p : Nat) : StdioProg Unit := ext (OsOp.closeStreams p)

/-! ## The session -/

def ensureConfigured : StdioProg Unit := do
  let c ← self
  if c.command = "" then
    .raise (.configError s!"MCP server '{c.serverName}' missing command. Set MCP_SERVER_COMMAND.")
  else
    let allow := parseCsv env.unicode c.commandAllowlist
    if allow ≠ [] ∧ c.command ∉ allow then
      .raise (.configError s!"MCP server '{c.serverName}' command '{c.command}' is not in allowlist.")
    else pure ()

def buildCmdline (c : StdioMCPClient) : Except String (List String) :=
  if c.args = "" then .ok [c.command] else (env.shlexSplit c.args).map (c.command :: ·)

/-- The chunk, if there is one, at the end of what is kept of stderr. -/
def appendStderr (chunk : String) : StdioProg Unit :=
  if chunk = "" then pure () else modify fun c => { c with stderrBuffer := tail (c.stderrBuffer ++ chunk) }

/-- Whether the process that the client holds is alive. -/
def alive : StdioProg Bool := do
  let c ← self
  match c.process with
  | none => pure false
  | some p =>
    let exit ← poll p
    pure exit.isNone

def startProcess : StdioProg Unit := do
  if ← alive then pure ()
  else
    let c ← self
    match buildCmdline env c with
    | .error msg => .raise (.other msg)
    | .ok cmdline =>
      let failure ← spawn c.processes cmdline
      match failure with
      | some msg => .raise (.other msg)
      | none => modify fun c =>
        { c with process := some c.processes, processes := c.processes + 1, started := true, initialized := false }

/-- The value of a response to the request `id`. -/
def responseResult (serverName : String) (id : Nat) (resp : PyVal) : Except StdioExc PyVal :=
  match resp with
  | .dict d =>
    if (PyVal.str "2.0").pyEq (Dict.get d "jsonrpc") = false then
      .error (.protocolError s!"MCP server '{serverName}' invalid jsonrpc version.")
    else if (PyVal.int id).pyEq (Dict.get d "id") = false then
      .error (.protocolError ("MCP server '" ++ serverName ++ "' response id mismatch: expect=" ++ toString id ++
        ", got=" ++ env.pyStr (Dict.get d "id") ++ "."))
    else
      match Dict.get d "error" with
      | .null =>
        match Dict.get? d "result" with
        | none => .error (.protocolError s!"MCP server '{serverName}' response missing result.")
        | some result => .ok result
      | .dict err => .error (.protocolError ("MCP server '" ++ serverName ++ "' returned error: " ++
          env.pyStr (Dict.getD err "message" (.str (env.pyStr (.dict err))))))
      | err => .error (.protocolError ("MCP server '" ++ serverName ++ "' returned error: " ++ env.pyStr err))
  | _ => .error (.other "object has no attribute 'get'")

def readResponse (serverName : String) (id : Nat) : ReadAnswer → Except StdioExc PyVal
  | .timeout => .error (.timeoutError s!"MCP server '{serverName}' response timeout.")
  | .unreadable => .error (.protocolError s!"MCP server '{serverName}' cannot read response.")
  | .line .blank => .error (.protocolError s!"MCP server '{serverName}' returned empty response.")
  | .line (.invalid line) => .error (.protocolError s!"MCP server '{serverName}' returned invalid JSON: {line}")
  | .line (.unloadable msg) => .error (.other msg)
  | .line (.value v) => responseResult env serverName id v

/-- `stdin.write` and `flush` -/
def writeLine (p : Nat) (m : WireMessage) : StdioProg Unit := do
  let c ← self
  let answer ← write p m
  match answer with
  | .written => pure ()
  | .osError => .raise (.processCrashed s!"MCP server '{c.serverName}' write failed.")
  | .raised msg => .raise (.other msg)

def request (method : String) (params : Dict) : StdioProg PyVal := do
  let c ← self
  match c.process with
  | none => .raise (.processCrashed s!"MCP server '{c.serverName}' is not started.")
  | some p =>
    let exit ← poll p
    match exit with
    | some _ =>
      let code ← poll p
      .raise (.processCrashed ("MCP server '" ++ c.serverName ++ "' exited (exit=" ++
        (match code with
          | some n => toString n
          | none => "None") ++ ")."))
    | none =>
      modify fun c => { c with requestId := c.requestId + 1, requestCount := c.requestCount + 1 }
      writeLine p (.request (c.requestId + 1) method params)
      let answer ← readline p
      Prog.ofExcept (readResponse env c.serverName (c.requestId + 1) answer)

def notify (method : String) (params : Dict) : StdioProg Unit := do
  let c ← self
  match c.process with
  | none => .raise (.processCrashed s!"MCP server '{c.serverName}' is not started.")
  | some p => writeLine p (.notification method params)

/-- The params of the request `initialize`. -/
def initializeParams (clientVersion : String) : Dict :=
  [("protocolVersion", .str mcpProtocolVersion), ("capabilities", .dict []),
    ("clientInfo", .dict [("name", .str "project-b"), ("version", .str clientVersion)])]

/-- What `_initialize` says of the result of the handshake. -/
def checkVersion (serverName : String) (result : PyVal) : Except StdioExc Unit :=
  match result with
  | .dict d =>
    match Dict.get d "protocolVersion" with
    | .str version =>
      if env.unicode.strip version.toList = [] then
        .error (.protocolError s!"MCP server '{serverName}' initialize result missing protocolVersion.")
      else if version ∈ supportedProtocolVersions then .ok ()
      else .error (.protocolError ("MCP server '" ++ serverName ++ "' negotiated unsupported protocolVersion '" ++
        version ++ "', expected one of ['2024-11-05', '2025-03-26', '2025-06-18']."))
    | _ => .error (.protocolError s!"MCP server '{serverName}' initialize result missing protocolVersion.")
  | _ => .error (.protocolError "Initialize result must be an object.")

def initializeSession : StdioProg Unit := do
  let c ← self
  let result ← request env "initialize" (initializeParams c.clientVersion)
  Prog.ofExcept (checkVersion env c.serverName result)
  notify "notifications/initialized" []
  modify fun c => { c with initialized := true }

def cleanupProcess (reason : String) (terminate : Bool) : StdioProg Unit := do
  let c ← self
  match c.process with
  | none => pure ()
  | some p =>
    if terminate then
      let exit ← poll p
      if exit.isNone then terminateProcess p else pure ()
    closeStreams p
  modify fun c => { c with
    process := none, started := false, initialized := false,
    lastRestartReason := if reason = "" then c.lastRestartReason else reason }

def formatErrorWithStderr (c : StdioMCPClient) (message : String) : String :=
  if c.stderrBuffer = "" then message
  else
    match env.unicode.strip (tail c.stderrBuffer).toList with
    | [] => message
    | stderrTail => message ++ " | stderr_tail=" ++ String.ofList stderrTail

def collectStderrIfAvailable : StdioProg Unit := do
  let c ← self
  match c.process with
  | none => pure ()
  | some p =>
    let exit ← poll p
    match exit with
    | none => pure ()
    | some _ =>
      let chunk ← readStderr p
      appendStderr chunk

def recordFailure (exc : StdioExc) (restartReason : String) : StdioProg String := do
  modify fun c => { c with failureCount := c.failureCount + 1 }
  collectStderrIfAvailable
  let c ← self
  let errorMessage := formatErrorWithStderr env c exc.text
  modify fun c => { c with lastError := errorMessage }
  if restartReason = "" then pure errorMessage
  else
    modify fun c => { c with restartCount := c.restartCount + 1 }
    cleanupProcess restartReason true
    pure errorMessage

def ensureStarted : StdioProg Unit := do
  ensureConfigured env
  if ← alive then pure () else startProcess env
  let c ← self
  if c.initialized then pure () else initializeSession env

/-! ## Tools -/

def extractContentText : PyVal → String
  | .str s => String.ofList (env.unicode.strip s.toList)
  | .list items =>
    let texts := items.filterMap fun item => match item with
      | .dict d => match Dict.get d "text" with
        | .str s => some (String.ofList (env.unicode.strip s.toList))
        | _ => none
      | _ => none
    "\n".intercalate (texts.filter (· ≠ ""))
  | _ => ""

def mapToolErrorResult (result : Dict) : StdioProg Dict := do
  let c ← self
  let text := extractContentText env (Dict.get result "content")
  let message := if text = "" then s!"MCP server '{c.serverName}' tool call failed (isError=true)." else text
  modify fun c => { c with lastError := message }
  pure [("error", .str message), ("content", Dict.get result "content")]

def normalizeRiskLevel : PyVal → RiskLevel
  | .str s =>
    let normalized := env.unicode.lower (env.unicode.strip s.toList)
    if normalized = "low".toList then .low
    else if normalized = "medium".toList then .medium
    else if normalized = "high".toList then .high
    else .medium
  | _ => .medium

def normalizePermissionScope : PyVal → String
  | .str s => match env.unicode.strip s.toList with
    | [] => "read"
    | scope => String.ofList scope
  | _ => "read"

/-- The first of two entries that is not null. -/
def entryOf (d : Dict) (camel snake : String) : PyVal :=
  match Dict.get d camel with
  | .null => Dict.get d snake
  | v => v

/-- A dict, or the empty one. -/
def dictOr : PyVal → Dict
  | .dict d => d
  | _ => []

def mapToolItem (item : PyVal) : Option MCPToolInfo :=
  match item with
  | .dict d =>
    match Dict.get d "name" with
    | .str name => match env.unicode.strip name.toList with
      | [] => none
      | stripped => some {
        name := String.ofList stripped
        inputSchema := dictOr (entryOf d "inputSchema" "input_schema")
        outputSchema := dictOr (entryOf d "outputSchema" "output_schema")
        riskLevel := normalizeRiskLevel env (entryOf d "riskLevel" "risk_level")
        permissionScope := normalizePermissionScope env (entryOf d "permissionScope" "permission_scope") }
    | _ => none
  | _ => none

/-- The attempts of `list_tools` for a result. -/
def listAttempts : Nat → StdioProg (Option PyVal)
  | 0 => pure none
  | left + 1 =>
    MonadExcept.tryCatch (do
      ensureStarted env
      let result ← request env "tools/list" []
      pure (some result)) fun exc => match exc with
      | .other msg => .raise (.other msg)
      | .configError _ => do
        let _ ← recordFailure env exc ""
        pure none
      | _ => do
        let _ ← recordFailure env exc exc.className
        listAttempts left

/-- `type(v).__name__` -/
def typeName : PyVal → String
  | .null => "NoneType"
  | .bool _ => "bool"
  | .int _ => "int"
  | .float _ => "float"
  | .str _ => "str"
  | .list _ => "list"
  | .dict _ => "dict"
  | .object name => name

def listTools : StdioProg (List MCPToolInfo) := do
  match ← listAttempts env 2 with
  | none => pure []
  | some (.dict d) =>
    match Dict.getD d "tools" (.list []) with
    | .list raw => pure (raw.filterMap (mapToolItem env))
    | _ => do
      modify fun c => { c with lastError := "Invalid tools/list payload: tools is not a list." }
      pure []
  | some (.list raw) => pure (raw.filterMap (mapToolItem env))
  | some v => do
    modify fun c => { c with lastError := "Invalid tools/list result type: " ++ typeName v }
    pure []

/-- What `call_tool` makes of the result of a request. -/
def toolResult (result : PyVal) : StdioProg Dict :=
  match result with
  | .dict d => if (Dict.get d "isError").truthy then mapToolErrorResult env d else pure d
  | v => pure [("content", v)]

def callTool (name : String) (arguments : Dict) : StdioProg Dict := do
  let outcome : Except Dict PyVal ← MonadExcept.tryCatch (do
      ensureStarted env
      let result ← request env "tools/call" [("name", .str name), ("arguments", .dict arguments)]
      pure (.ok result)) fun exc => match exc with
      | .other msg => .raise (.other msg)
      | .configError _ => do
        let message ← recordFailure env exc ""
        pure (.error [("error", .str message)])
      | _ => do
        let message ← recordFailure env exc exc.className
        pure (.error [("error", .str message)])
  match outcome with
  | .error failure => pure failure
  | .ok result => toolResult env result

def close : StdioProg Unit := cleanupProcess "manual_close" true

end StdioMCPClient

end AgentHarness
