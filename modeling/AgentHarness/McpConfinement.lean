import AgentHarness.DeploymentGuard
import AgentHarness.Discovery
import AgentHarness.StdioProtocol

/-!
# McpConfinement — what an accepted deployment lets MCP do

The gateway is set up with one client, from the settings.  What it does later reaches the operating system
through that client only, so its log says which commands were started and which tools were called.  The two
allowlists confine both, if they are read as lists that have entries.
-/

namespace AgentHarness

open Lib

/-- A local callable: what it does with its arguments in each attempt of a call. -/
abbrev ToolFunction := Dict → Nat → ToolOutcome

abbrev McpGateway := GatewayState ToolFunction Unit

namespace McpGateway

open StdioMCPClient

variable (env : StdioEnv)

/-- `discover_mcp_tools`, with the client -/
def discover (g : McpGateway) (server : String) : StdioProg (List ToolSpec × McpGateway) :=
  match g.mcpClients server with
  | none => pure ([], g)
  | some _ => do
    let mcpTools ← listTools env
    pure (g.discoverMcpTools server mcpTools)

/-- `spec.mcp_tool_name or spec.tool_name` -/
def calledName (spec : ToolSpec) : String :=
  match spec.mcpToolName with
  | some t => if t = "" then spec.toolName else t
  | none => spec.toolName

/-- One attempt at a tool of the server. -/
def callMcp (g : McpGateway) (spec : ToolSpec) (arguments : Dict) (i : CallMeta) : StdioProg ToolCallRecord :=
  let failed := ToolGateway.failedRecord i spec.toolName arguments
  match spec.serverName with
  | none => pure (failed s!"MCP 工具 '{spec.toolName}' 缺少 server_name")
  | some server =>
    match g.mcpClients server with
    | none => pure (failed s!"MCP Server '{server}' 未注册")
    | some _ =>
      let mcpToolName := calledName spec
      if !g.toGateway.isMcpToolAllowed server mcpToolName then
        pure (failed s!"MCP tool '{mcpToolName}' is not allowed by MCP_TOOL_ALLOWLIST")
      else do
        let outcome ← MonadExcept.tryCatch (do
            let d ← callTool env mcpToolName arguments
            pure (ToolOutcome.value (.dict d))) fun exc => pure (.exc exc.text)
        pure (ToolGateway.attemptRecord i spec.toolName arguments outcome)

/-- The retries, from attempt `n` on. -/
def callMcpWithRetry (one : Nat → StdioProg ToolCallRecord) : (left n : Nat) → StdioProg ToolCallRecord
  | 0, n => do
    let record ← one n
    pure { record with retryCount := n }
  | left + 1, n => do
    let record ← one n
    if record.success then pure { record with retryCount := n } else callMcpWithRetry one left (n + 1)

def call (g : McpGateway) (tool : String) (arguments : Dict) (i : Nat → CallMeta) : StdioProg ToolCallRecord :=
  match g.registry tool with
  | none => pure (ToolGateway.failedRecord (i 0) tool arguments s!"工具 '{tool}' 未注册")
  | some spec =>
    if spec.source = "mcp" then callMcpWithRetry (fun n => callMcp env g spec arguments (i n)) spec.maxRetries 0
    else
      let attempt (n : Nat) : ToolOutcome := match g.callables tool with
        | some f => f arguments n
        | none => .exc ""
      pure (ToolGateway.withRetry (g.toGateway.callLocal (fun n => (attempt n, i n)) tool arguments) spec.maxRetries 0)

end McpGateway

/-- What is done with the gateway once it is set up. -/
inductive GatewayOp where
  | discover (server : String)
  | call (tool : String) (arguments : Dict) (i : Nat → CallMeta)

namespace McpGateway

variable {D : Type} (env : StdioEnv) (os : (o : OsOp) → D → o.Answer × D)

def serve (g : McpGateway) (w : ClientWorld D) : GatewayOp → McpGateway × ClientWorld D
  | .discover server =>
    match (discover env g server).run (Object.exec os) w with
    | (.ok (_, g'), w') => (g', w')
    | (.error _, w') => (g, w')
  | .call tool arguments i => (g, ((call env g tool arguments i).run (Object.exec os) w).2)

def serveAll (g : McpGateway) (w : ClientWorld D) : List GatewayOp → McpGateway × ClientWorld D
  | [] => (g, w)
  | op :: ops =>
    let (g, w) := serve env os g w op
    serveAll g w ops

/-- The gateway with its local tools, and the server of the settings. -/
def setUp (locals : List (ToolSpec × ToolFunction)) (s : Settings) : McpGateway :=
  (locals.foldl (fun g t => g.register t.1 t.2) GatewayState.empty).registerMcpServer env.unicode s.mcpServerName ()
    (.text s.mcpToolAllowlist)

def client (s : Settings) (clientVersion : String) : StdioMCPClient :=
  StdioMCPClient.new env s.mcpServerName s.mcpServerCommand s.mcpServerArgs s.mcpServerCommandAllowlist clientVersion

/-- `_register_mcp_tools` with `MCP_MODE=real`, and what follows. -/
def run (s : Settings) (locals : List (ToolSpec × ToolFunction)) (clientVersion : String) (data : D)
    (ops : List GatewayOp) : McpGateway × ClientWorld D :=
  serveAll env os (setUp env locals s) ⟨client env s clientVersion, [], data⟩ (.discover s.mcpServerName :: ops)

end McpGateway

/-- The process is started with a listed command, and a listed tool is called. -/
def confinedOp (commands tools : List String) : OsOp → Prop
  | .spawn _ cmdline => ∃ command rest, cmdline = command :: rest ∧ command ∈ commands
  | .write _ (.request _ method params) =>
    method = "tools/call" → ∃ name, Dict.get params "name" = .str name ∧ name ∈ tools
  | _ => True

/-- In every run the entries of the two allowlists confine what is started and called. -/
def Confines (env : StdioEnv) (s : Settings) : Prop :=
  ∀ (D : Type) (os : (o : OsOp) → D → o.Answer × D) (data : D) (clientVersion : String)
    (locals : List (ToolSpec × ToolFunction)) (ops : List GatewayOp),
    ∀ e ∈ (McpGateway.run env os s locals clientVersion data ops).2.log,
      confinedOp (parseCsv env.unicode s.mcpServerCommandAllowlist) (parseCsv env.unicode s.mcpToolAllowlist) e.op

/-- The client gets as far as starting its process. -/
def StdioMCPClient.Startable (env : StdioEnv) (c : StdioMCPClient) : Prop :=
  c.command ≠ "" ∧
    (parseCsv env.unicode c.commandAllowlist = [] ∨ c.command ∈ parseCsv env.unicode c.commandAllowlist) ∧
    ∃ cmdline, StdioMCPClient.buildCmdline env c = .ok cmdline

/-! ## Confined runs of the client -/

namespace StdioMCPClient

section Confined

variable {env : StdioEnv} {c₀ : StdioMCPClient} {commands tools : List String}
  {s s' : SessionState} {α β : Type}

/-- What is permitted does not depend on the log. -/
def mayConfine (commands tools : List String) (_ : List OsEvent) (o : OsOp) : Prop := confinedOp commands tools o

/-- The configuration stays, and a process is held only if the client can be started. -/
structure ConfigInv (env : StdioEnv) (c₀ : StdioMCPClient) (s : SessionState) : Prop where
  config : SameConfig s.1 c₀
  started : s.1.process ≠ none → Startable env c₀

theorem ConfigInv.modify {f : StdioMCPClient → StdioMCPClient} (h : ConfigInv env c₀ s)
    (hconfig : SameConfig (f s.1) s.1) (hprocess : (f s.1).process = s.1.process ∨ (f s.1).process = none) :
    ConfigInv env c₀ (f s.1, s.2) := by
  obtain ⟨⟨hcommand, hargs, hallow⟩, hstarted⟩ := h
  obtain ⟨hcommand', hargs', hallow'⟩ := hconfig
  refine ⟨⟨hcommand'.trans hcommand, hargs'.trans hargs, hallow'.trans hallow⟩, fun hp => ?_⟩
  rcases hprocess with hsame | hnone
  · exact hstarted (hsame ▸ hp)
  · exact absurd hnone hp

theorem Startable.congr {c : StdioMCPClient} (h : SameConfig c c₀) (hc : Startable env c) : Startable env c₀ := by
  obtain ⟨hcommand, hargs, hallow⟩ := h
  unfold Startable buildCmdline at hc ⊢
  rwa [hcommand, hargs, hallow] at hc

/-- From where the configuration is that of `c₀`, the program does only what is confined. -/
def Confined (env : StdioEnv) (c₀ : StdioMCPClient) (commands tools : List String) (prog : StdioProg α) : Prop :=
  ∀ s, ConfigInv env c₀ s → wp (Object.machine (mayConfine commands tools)) prog (fun _ s' => ConfigInv env c₀ s') s

theorem Confined.bind {prog : StdioProg α} {f : α → StdioProg β} (h : Confined env c₀ commands tools prog)
    (hf : ∀ a, Confined env c₀ commands tools (f a)) : Confined env c₀ commands tools (prog >>= f) :=
  fun s hs => wp_seq (h s hs) (fun a s' hs' => hf a s' hs') fun _ _ hs' => hs'

theorem Confined.tryCatch {prog : StdioProg α} {handler : StdioExc → StdioProg α}
    (h : Confined env c₀ commands tools prog) (hf : ∀ e, Confined env c₀ commands tools (handler e)) :
    Confined env c₀ commands tools (MonadExcept.tryCatch prog handler : StdioProg α) :=
  fun s hs => wp_try (h s hs) (fun _ _ hs' => hs') fun e s' hs' => hf e s' hs'

theorem Confined.pure (a : α) : Confined env c₀ commands tools (Pure.pure a : StdioProg α) := fun _ hs => hs

theorem Confined.raise (e : StdioExc) : Confined env c₀ commands tools (.raise e : StdioProg α) := fun _ hs => hs

theorem confinedOp_of_housekeeping {o : OsOp} (h : housekeeping o = true) : confinedOp commands tools o := by
  cases o with
  | spawn p cmdline | write p m | readline p => cases h
  | _ => trivial

theorem Confined.calm {prog : StdioProg α} (hu : prog.Uses calmOp) : Confined env c₀ commands tools prog := by
  refine fun s hs => wp_of_keeps (I := ConfigInv env c₀) ?_ hu hs
  intro o ho s hs
  cases o with
  | get =>
    refine ⟨trivial, ?_⟩
    rintro r s' ⟨-, rfl⟩
    exact hs
  | modify f =>
    refine ⟨trivial, ?_⟩
    rintro r s' ⟨-, rfl⟩
    obtain ⟨hconfig, -, hsame | hgone⟩ : _ := (show Tame f from ho) s.1
    · exact hs.modify hconfig (.inl hsame.1)
    · exact hs.modify hconfig (.inr hgone.1)
  | ext o =>
    have hmay : confinedOp commands tools o := confinedOp_of_housekeeping ho
    refine ⟨hmay, ?_⟩
    rintro r s' ⟨a, -, rfl⟩
    exact ⟨hs.config, hs.started⟩

theorem Confined.ext {o : OsOp} (ho : confinedOp commands tools o) :
    Confined env c₀ commands tools (Object.ext o : StdioProg o.Answer) :=
  fun _ hs => Object.wp_ext.mpr ⟨ho, fun _ => ⟨hs.config, hs.started⟩⟩

theorem Confined.self : Confined env c₀ commands tools (Object.self : StdioProg StdioMCPClient) :=
  fun _ hs => Object.wp_self.mpr hs

theorem writeLine_confined {p : Nat} {msg : WireMessage} (ho : confinedOp commands tools (.write p msg)) :
    Confined env c₀ commands tools (writeLine p msg) := by
  refine Confined.self.bind fun c => Confined.bind (.ext ho) fun answer => ?_
  rcases answer with _ | _ | msg
  · exact .pure ()
  · exact .raise _
  · exact .raise _

/-- A request, if its tool is listed wherever the client can be started. -/
theorem request_confined {method : String} {params : Dict} (hmethod : Startable env c₀ → method = "tools/call" →
    ∃ name, Dict.get params "name" = .str name ∧ name ∈ tools) :
    Confined env c₀ commands tools (request env method params) := by
  intro s hs
  refine Object.wp_self_bind.mpr ?_
  rcases hproc : s.1.process with _ | p
  · exact hs
  have hstart : Startable env c₀ := hs.started (by simp [hproc])
  refine Object.wp_ext_bind.mpr ⟨trivial, fun exit => ?_⟩
  have hpoll : ConfigInv env c₀ (s.1, s.2 ++ [⟨.poll p, exit⟩]) := ⟨hs.config, hs.started⟩
  cases exit with
  | some code => exact Object.wp_ext_bind.mpr ⟨trivial, fun _ => ⟨hpoll.config, hpoll.started⟩⟩
  | none =>
    refine Object.wp_modify_bind.mpr ?_
    have hnext := hpoll.modify (f := nextRequest) ⟨rfl, rfl, rfl⟩ (.inl rfl)
    have hrest : Confined env c₀ commands tools (writeLine p (.request (s.1.requestId + 1) method params) >>= fun _ =>
        readline p >>= fun answer =>
          Prog.ofExcept (readResponse env s.1.serverName (s.1.requestId + 1) answer)) := by
      have hwrite : confinedOp commands tools (.write p (.request (s.1.requestId + 1) method params)) :=
        hmethod hstart
      have hread : confinedOp commands tools (.readline p) := trivial
      refine (writeLine_confined hwrite).bind fun _ => (Confined.ext hread).bind fun answer => ?_
      cases readResponse env s.1.serverName (s.1.requestId + 1) answer with
      | error e => exact .raise e
      | ok v => exact .pure v
    exact hrest _ hnext

theorem initializeSession_confined : Confined env c₀ commands tools (initializeSession env) := by
  refine Confined.self.bind fun c => ?_
  refine (request_confined fun _ h => absurd h (by decide)).bind fun result => ?_
  have hcheck : Confined env c₀ commands tools (Prog.ofExcept (checkVersion env c.serverName result)) := by
    cases checkVersion env c.serverName result with
    | error e => exact .raise e
    | ok v => exact .pure v
  refine hcheck.bind fun _ => Confined.bind (Confined.self.bind fun c => ?_) fun _ => ?_
  · cases c.process with
    | none => exact .raise _
    | some p => exact writeLine_confined trivial
  · exact fun s hs => Object.wp_modify.mpr
      (hs.modify (f := fun c => { c with initialized := true }) ⟨rfl, rfl, rfl⟩ (.inl rfl))

/-- A start, if the command is listed wherever the client can be started. -/
theorem startProcess_confined
    (hconfigured : c₀.command ≠ "" ∧ (parseCsv env.unicode c₀.commandAllowlist = [] ∨
      c₀.command ∈ parseCsv env.unicode c₀.commandAllowlist))
    (hcommand : Startable env c₀ → c₀.command ∈ commands) :
    Confined env c₀ commands tools (startProcess env) := by
  refine Confined.bind ?_ fun up => ?_
  · refine Confined.self.bind fun c => ?_
    cases c.process with
    | none => exact .pure false
    | some p => exact Confined.bind (.ext trivial) fun exit => .pure _
  · cases up with
    | true => exact .pure ()
    | false =>
      intro s hs
      refine Object.wp_self_bind.mpr ?_
      rcases hbuild : buildCmdline env s.1 with msg | cmdline
      · exact hs
      have hstart : Startable env c₀ := by
        refine ⟨hconfigured.1, hconfigured.2, cmdline, ?_⟩
        rw [← hbuild]
        unfold buildCmdline
        rw [hs.config.1, hs.config.2.1]
      have hhead : ∃ command rest, cmdline = command :: rest ∧ command ∈ commands := by
        unfold buildCmdline at hbuild
        rw [hs.config.1] at hbuild
        split at hbuild
        · obtain rfl := Except.ok.inj hbuild
          exact ⟨_, _, rfl, hcommand hstart⟩
        · cases hsplit : env.shlexSplit s.1.args with
          | error msg =>
            rw [hsplit] at hbuild
            cases hbuild
          | ok parts =>
            rw [hsplit] at hbuild
            obtain rfl := Except.ok.inj hbuild
            exact ⟨_, _, rfl, hcommand hstart⟩
      refine Object.wp_ext_bind.mpr ⟨hhead, fun failure => ?_⟩
      cases failure with
      | some msg => exact ⟨hs.config, hs.started⟩
      | none => exact Object.wp_modify.mpr ⟨hs.config, fun _ => hstart⟩

theorem ensureStarted_confined (hcommand : Startable env c₀ → c₀.command ∈ commands) :
    Confined env c₀ commands tools (ensureStarted env) := by
  intro s hs
  have hconfigure : wp (Object.machine (mayConfine commands tools)) (ensureConfigured env) (fun r s' => s' = s ∧
      (r = .ok () → c₀.command ≠ "" ∧ (parseCsv env.unicode c₀.commandAllowlist = [] ∨
        c₀.command ∈ parseCsv env.unicode c₀.commandAllowlist))) s := by
    refine Object.wp_self_bind.mpr ?_
    obtain ⟨hc, -, ha⟩ := hs.config
    rw [hc, ha]
    split
    · exact ⟨rfl, fun h => absurd h (by simp)⟩
    · rename_i hne
      dsimp only
      split
      · exact ⟨rfl, fun h => absurd h (by simp)⟩
      · rename_i hallow
        refine ⟨rfl, fun _ => ⟨hne, ?_⟩⟩
        by_cases hnil : parseCsv env.unicode c₀.commandAllowlist = []
        · exact .inl hnil
        · exact .inr (by_contra fun hnot => hallow ⟨hnil, hnot⟩)
  refine wp_bind.mpr (wp_mono hconfigure ?_)
  rintro (e | ⟨⟩) s' ⟨rfl, hconfigured⟩
  · exact hs
  have hopen : Confined env c₀ commands tools (do
      let c ← Object.self
      if c.initialized then Pure.pure () else initializeSession env : StdioProg Unit) := by
    refine Confined.self.bind fun c => ?_
    split
    · exact .pure ()
    · exact initializeSession_confined
  have halive : Confined env c₀ commands tools alive := by
    refine Confined.self.bind fun c => ?_
    cases c.process with
    | none => exact .pure false
    | some p => exact Confined.bind (.ext trivial) fun exit => .pure _
  refine halive.bind (fun up => ?_) s' hs
  cases up with
  | true => exact hopen
  | false => exact (startProcess_confined (hconfigured rfl) hcommand).bind fun _ => hopen

theorem listAttempts_confined (hcommand : Startable env c₀ → c₀.command ∈ commands) (left : Nat) :
    Confined env c₀ commands tools (listAttempts env left) := by
  induction left with
  | zero => exact .pure none
  | succ left ih =>
    refine Confined.tryCatch ?_ fun e => ?_
    · refine (ensureStarted_confined hcommand).bind fun _ => ?_
      exact (request_confined fun _ h => absurd h (by decide)).bind fun result => .pure _
    · cases e with
      | other msg => exact .raise _
      | configError msg => exact (Confined.calm recordFailure_calm).bind fun _ => .pure none
      | protocolError msg | timeoutError msg | processCrashed msg =>
        exact (Confined.calm recordFailure_calm).bind fun _ => ih

theorem listTools_confined (hcommand : Startable env c₀ → c₀.command ∈ commands) :
    Confined env c₀ commands tools (listTools env) := by
  have hnote : ∀ text : String, Confined env c₀ commands tools (do
      Object.modify fun c => { c with lastError := text }
      Pure.pure [] : StdioProg (List MCPToolInfo)) := fun text =>
    Confined.calm (Prog.Uses.bind (uses_modify fun c => ⟨⟨rfl, rfl, rfl⟩, rfl, .inl ⟨rfl, rfl⟩⟩) fun _ => trivial)
  refine (listAttempts_confined hcommand 2).bind fun result => ?_
  split
  · exact .pure _
  · split
    · exact .pure _
    · exact hnote _
  · exact .pure _
  · exact hnote _

theorem callTool_confined {name : String} {arguments : Dict} (hcommand : Startable env c₀ → c₀.command ∈ commands)
    (hname : Startable env c₀ → name ∈ tools) : Confined env c₀ commands tools (callTool env name arguments) := by
  refine Confined.bind (Confined.tryCatch ?_ fun e => ?_) fun outcome => ?_
  · refine (ensureStarted_confined hcommand).bind fun _ => ?_
    exact (request_confined fun hstart _ => ⟨name, rfl, hname hstart⟩).bind fun result => .pure _
  · cases e with
    | other msg => exact .raise _
    | configError msg | protocolError msg | timeoutError msg | processCrashed msg =>
      exact (Confined.calm recordFailure_calm).bind fun _ => .pure _
  · rcases outcome with failure | result
    · exact .pure failure
    · dsimp only
      unfold toolResult
      split
      · split
        · exact .calm mapToolErrorResult_calm
        · exact .pure _
      · exact .pure _

end Confined

end StdioMCPClient

/-! ## Confined runs of the gateway -/

namespace McpGateway

open StdioMCPClient

section Confined

variable {env : StdioEnv} {c₀ : StdioMCPClient} {commands tools : List String} {g : McpGateway} {D : Type}
  {os : (o : OsOp) → D → o.Answer × D} {w : ClientWorld D}

/-- Every server of the gateway has the same allowlist. -/
def OneAllowlist (tools : List String) (g : McpGateway) : Prop :=
  ∀ server, (g.mcpClients server).isSome = true → g.mcpToolAllowlists server = tools

theorem fileTools_allowlist {server : String} {l : List MCPToolInfo} :
    (l.foldl (GatewayState.fileTool server) g).mcpClients = g.mcpClients ∧
      (l.foldl (GatewayState.fileTool server) g).mcpToolAllowlists = g.mcpToolAllowlists := by
  induction l generalizing g with
  | nil => exact ⟨rfl, rfl⟩
  | cons tool l ih =>
    rw [List.foldl_cons]
    exact ih

theorem OneAllowlist.discoverMcpTools {server : String} {mcpTools : List MCPToolInfo} (h : OneAllowlist tools g) :
    OneAllowlist tools (g.discoverMcpTools server mcpTools).2 := by
  unfold GatewayState.discoverMcpTools
  split
  · exact h
  · intro s hs
    obtain ⟨hclients, hallow⟩ := @fileTools_allowlist g server
      (mcpTools.filter fun tool => g.toGateway.isMcpToolAllowed server tool.name)
    dsimp only at hs ⊢
    rw [hclients] at hs
    rw [hallow]
    exact h s hs

theorem discover_confined {server : String} {s : SessionState} (hcommand : Startable env c₀ → c₀.command ∈ commands)
    (hg : OneAllowlist tools g) (hs : ConfigInv env c₀ s) :
    wp (Object.machine (mayConfine commands tools)) (discover env g server)
      (fun r s' => ConfigInv env c₀ s' ∧ ∀ found, r = .ok found → OneAllowlist tools found.2) s := by
  unfold discover
  split
  · refine ⟨hs, ?_⟩
    rintro found ⟨⟩
    exact hg
  · refine wp_seq (listTools_confined hcommand s hs) (fun mcpTools s' hs' => ⟨hs', ?_⟩) fun e s' hs' => ⟨hs', ?_⟩
    · rintro found ⟨⟩
      exact hg.discoverMcpTools
    · rintro found ⟨⟩

theorem callMcp_confined {spec : ToolSpec} {arguments : Dict} {i : CallMeta} (hg : OneAllowlist tools g)
    (hcommand : Startable env c₀ → c₀.command ∈ commands) (htools : Startable env c₀ → tools ≠ []) :
    Confined env c₀ commands tools (callMcp env g spec arguments i) := by
  unfold callMcp
  dsimp only
  split
  · exact .pure _
  · rename_i server hserver
    split
    · exact .pure _
    · rename_i hclient
      split
      · exact .pure _
      · rename_i hallowed
        have hsame : g.mcpToolAllowlists server = tools := hg server (by simp [hclient])
        have hname : Startable env c₀ → calledName spec ∈ tools := by
          intro hstart
          unfold ToolGateway.isMcpToolAllowed GatewayState.toGateway at hallowed
          simp only [hsame] at hallowed
          simpa [htools hstart] using hallowed
        refine Confined.bind (Confined.tryCatch ?_ fun e => .pure _) fun outcome => .pure _
        exact (callTool_confined hcommand hname).bind fun _ => .pure _

theorem callMcpWithRetry_confined {one : Nat → StdioProg ToolCallRecord}
    (h : ∀ n, Confined env c₀ commands tools (one n)) (left n : Nat) :
    Confined env c₀ commands tools (callMcpWithRetry one left n) := by
  induction left generalizing n with
  | zero => exact (h n).bind fun record => .pure _
  | succ left ih =>
    refine (h n).bind fun record => ?_
    split
    · exact .pure _
    · exact ih (n + 1)

theorem call_confined {tool : String} {arguments : Dict} {i : Nat → CallMeta} (hg : OneAllowlist tools g)
    (hcommand : Startable env c₀ → c₀.command ∈ commands) (htools : Startable env c₀ → tools ≠ []) :
    Confined env c₀ commands tools (call env g tool arguments i) := by
  unfold call
  split
  · exact .pure _
  · split
    · exact callMcpWithRetry_confined (fun n => callMcp_confined hg hcommand htools) _ 0
    · exact .pure _

/-- The invariant of a run of the gateway. -/
structure RunInv (env : StdioEnv) (c₀ : StdioMCPClient) (commands tools : List String) (g : McpGateway)
    (w : ClientWorld D) : Prop where
  gateway : OneAllowlist tools g
  client : ConfigInv env c₀ (w.self, w.log)
  log : Object.Legal (mayConfine commands tools) w.log

theorem RunInv.serve {op : GatewayOp} (h : RunInv env c₀ commands tools g w)
    (hcommand : Startable env c₀ → c₀.command ∈ commands) (htools : Startable env c₀ → tools ≠ []) :
    RunInv env c₀ commands tools (serve env os g w op).1 (serve env os g w op).2 := by
  cases op with
  | call tool arguments i =>
    have hcall : Confined env c₀ commands tools (call env g tool arguments i) := call_confined h.gateway hcommand htools
    obtain ⟨hclient, hlog⟩ := Object.run_wp h.log (hcall _ h.client)
    exact ⟨h.gateway, hclient, hlog⟩
  | discover server =>
    have hdiscover : wp (Object.machine (mayConfine commands tools)) (discover env g server)
        (fun r s' => ConfigInv env c₀ s' ∧ ∀ found, r = .ok found → OneAllowlist tools found.2) (w.self, w.log) :=
      discover_confined hcommand h.gateway h.client
    obtain ⟨⟨hclient, hfound⟩, hlog⟩ := @Object.run_wp _ _ _ _ _ _ _ _ os _ _ h.log hdiscover
    unfold McpGateway.serve
    dsimp only
    generalize (discover env g server).run (Object.exec os) w = out at hclient hfound hlog
    obtain ⟨e | ⟨specs, g'⟩, w'⟩ := out
    · exact ⟨h.gateway, hclient, hlog⟩
    · exact ⟨hfound _ rfl, hclient, hlog⟩

theorem RunInv.serveAll {ops : List GatewayOp} (h : RunInv env c₀ commands tools g w)
    (hcommand : Startable env c₀ → c₀.command ∈ commands) (htools : Startable env c₀ → tools ≠ []) :
    RunInv env c₀ commands tools (serveAll env os g w ops).1 (serveAll env os g w ops).2 := by
  induction ops generalizing g w with
  | nil => exact h
  | cons op ops ih => exact ih (h.serve hcommand htools)

end Confined

end McpGateway

namespace McpGateway

open StdioMCPClient

section Confines

variable {env : StdioEnv} {s : Settings}

/-- The entries of the two allowlists. -/
abbrev commandEntries (env : StdioEnv) (s : Settings) : List String := parseCsv env.unicode s.mcpServerCommandAllowlist

abbrev toolEntries (env : StdioEnv) (s : Settings) : List String := parseCsv env.unicode s.mcpToolAllowlist

/-- The client can be started only where both allowlists have entries. -/
def EntriesWhereStartable (env : StdioEnv) (s : Settings) : Prop :=
  Startable env (client env s "") → commandEntries env s ≠ [] ∧ toolEntries env s ≠ []

theorem registers_clients {locals : List (ToolSpec × ToolFunction)} {g : McpGateway} :
    (locals.foldl (fun g t => g.register t.1 t.2) g).mcpClients = g.mcpClients := by
  induction locals generalizing g with
  | nil => rfl
  | cons t locals ih => rw [List.foldl_cons, ih]; rfl

theorem setUp_oneAllowlist {locals : List (ToolSpec × ToolFunction)} :
    OneAllowlist (toolEntries env s) (setUp env locals s) := by
  intro server hclient
  unfold setUp GatewayState.registerMcpServer at hclient ⊢
  dsimp only at hclient ⊢
  by_cases hserver : server = s.mcpServerName
  · subst hserver
    exact Function.update_self ..
  · rw [Function.update_of_ne hserver, registers_clients] at hclient
    cases hclient

theorem confines_of_entries (h : EntriesWhereStartable env s) : Confines env s := by
  intro D os data clientVersion locals ops e he
  have hsame : Startable env (client env s clientVersion) → Startable env (client env s "") :=
    Startable.congr ⟨rfl, rfl, rfl⟩
  have hcommand : Startable env (client env s clientVersion) →
      (client env s clientVersion).command ∈ commandEntries env s := by
    intro hstart
    obtain ⟨-, hnil | hmem, -⟩ := id hstart
    · exact absurd hnil (h (hsame hstart)).1
    · exact hmem
  have htools : Startable env (client env s clientVersion) → toolEntries env s ≠ [] := fun hstart =>
    (h (hsame hstart)).2
  have hstart : RunInv env (client env s clientVersion) (commandEntries env s) (toolEntries env s)
      (setUp env locals s) (⟨client env s clientVersion, [], data⟩ : ClientWorld D) :=
    ⟨setUp_oneAllowlist, ⟨⟨rfl, rfl, rfl⟩, fun hp => absurd rfl hp⟩, Object.Legal.nil⟩
  have hend : RunInv env (client env s clientVersion) (commandEntries env s) (toolEntries env s)
      (serveAll env os (setUp env locals s) ⟨client env s clientVersion, [], data⟩ (.discover s.mcpServerName :: ops)).1
      (serveAll env os (setUp env locals s) ⟨client env s clientVersion, [], data⟩ (.discover s.mcpServerName :: ops)).2 :=
    hstart.serveAll hcommand htools
  have hlog := hend.log
  obtain ⟨pre, post, hsplit⟩ := List.append_of_mem he
  exact hlog pre e post hsplit

/-! ## A server that lists a tool of its own -/

/-- The answers, by how many lines the server has written. -/
def readerAnswer : Nat → ReadAnswer
  | 0 => .line (.value (.dict [("jsonrpc", .str "2.0"), ("id", .int 1),
      ("result", .dict [("protocolVersion", .str mcpProtocolVersion)])]))
  | 1 => .line (.value (.dict [("jsonrpc", .str "2.0"), ("id", .int 2),
      ("result", .dict [("tools", .list [.dict [("name", .str "probe")]])])]))
  | _ => .timeout

/-- A process that stays, reads everything and answers twice. -/
def readerOs : (o : OsOp) → Nat → o.Answer × Nat
  | .poll _, n => (none, n)
  | .spawn _ _, n => (none, n)
  | .write _ _, n => (.written, n)
  | .readline _, n => (readerAnswer n, n + 1)
  | .readStderr _, n => ("", n)
  | .terminate _, n => ((), n)
  | .closeStreams _, n => ((), n)

/-- The client with its process, after `n` requests. -/
def ready (c : StdioMCPClient) (n : Nat) : StdioMCPClient :=
  { c with process := some 0, processes := 1, started := true, initialized := true, requestId := n, requestCount := n }

/-- What the client does to get there. -/
def handshake (cmdline : List String) : List OsEvent :=
  [⟨.spawn 0 cmdline, none⟩, ⟨.poll 0, none⟩, ⟨.write 0 (.request 1 "initialize" (initializeParams "")), .written⟩,
    ⟨.readline 0, readerAnswer 0⟩, ⟨.write 0 (.notification "notifications/initialized" []), .written⟩]

theorem ensureConfigured_startable {c : StdioMCPClient} {D : Type} {os : (o : OsOp) → D → o.Answer × D}
    {w : ClientWorld D} (hstart : Startable env c) (hw : w.self.command = c.command)
    (hallow : w.self.commandAllowlist = c.commandAllowlist) :
    (ensureConfigured env).run (Object.exec os) w = (.ok (), w) := by
  obtain ⟨hcommand, hlisted, -⟩ := hstart
  have hpass : ¬ (parseCsv env.unicode c.commandAllowlist ≠ [] ∧
      c.command ∉ parseCsv env.unicode c.commandAllowlist) := fun h => h.2 (hlisted.resolve_left h.1)
  unfold ensureConfigured
  show (if w.self.command = "" then _ else _ : StdioProg Unit).run _ w = _
  rw [hw, hallow, if_neg hcommand]
  show (if _ then _ else _ : StdioProg Unit).run _ w = _
  rw [if_neg hpass]
  rfl

theorem strip_version (u : Unicode) : u.strip mcpProtocolVersion.toList = mcpProtocolVersion.toList := by
  apply Unicode.strip_of_ends
  · rintro c ⟨⟩
    exact u.isSpace_ascii '2' rfl
  · rintro c ⟨⟩
    exact u.isSpace_ascii '5' rfl

theorem strip_probe (u : Unicode) : u.strip "probe".toList = "probe".toList := by
  apply Unicode.strip_of_ends
  · rintro c ⟨⟩
    exact u.isSpace_ascii 'p' rfl
  · rintro c ⟨⟩
    exact u.isSpace_ascii 'e' rfl

theorem mapToolItem_probe : mapToolItem env (.dict [("name", .str "probe")]) =
    some ⟨"probe", [], [], .medium, "read"⟩ := by
  have hname : Dict.get [("name", .str "probe")] "name" = .str "probe" := rfl
  unfold mapToolItem
  dsimp only
  rw [hname]
  dsimp only
  rw [strip_probe]
  rfl

theorem checkVersion_reader {name : String} :
    checkVersion env name (.dict [("protocolVersion", .str mcpProtocolVersion)]) = .ok () := by
  show (if env.unicode.strip mcpProtocolVersion.toList = [] then _ else _) = _
  rw [strip_version, if_neg (by decide)]
  rfl

theorem alive_run {D : Type} {os : (o : OsOp) → D → o.Answer × D} {w : ClientWorld D} (h : w.self.process = none) :
    alive.run (Object.exec os) w = (.ok false, w) := by
  unfold alive
  rw [Object.run_self_bind, h]
  rfl

theorem alive_reader {w : ClientWorld Nat} {p : Nat} (h : w.self.process = some p) :
    alive.run (Object.exec readerOs) w = (.ok true, { w with log := w.log ++ [⟨.poll p, none⟩] }) := by
  unfold alive
  rw [Object.run_self_bind, h]
  rfl

theorem startProcess_reader {w : ClientWorld Nat} {cmdline : List String} (hprocess : w.self.process = none)
    (hbuild : buildCmdline env w.self = .ok cmdline) :
    (startProcess env).run (Object.exec readerOs) w =
      (.ok (), ⟨{ w.self with
          process := some w.self.processes, processes := w.self.processes + 1, started := true, initialized := false },
        w.log ++ [⟨.spawn w.self.processes cmdline, none⟩], w.data⟩) := by
  unfold startProcess
  rw [Prog.run_bind, alive_run hprocess]
  simp only [Bool.false_eq_true, if_false]
  rw [Object.run_self_bind, hbuild]
  rfl

/-- A request that is answered. -/
theorem request_reader {w : ClientWorld Nat} {p : Nat} {method : String} {params : Dict} {result : PyVal}
    (hprocess : w.self.process = some p)
    (hanswer : readResponse env w.self.serverName (w.self.requestId + 1) (readerAnswer w.data) = .ok result) :
    (request env method params).run (Object.exec readerOs) w =
      (.ok result, ⟨nextRequest w.self, w.log ++ [⟨.poll p, none⟩,
        ⟨.write p (.request (w.self.requestId + 1) method params), .written⟩, ⟨.readline p, readerAnswer w.data⟩],
        w.data + 1⟩) := by
  unfold request
  rw [Object.run_self_bind, hprocess]
  show ((Prog.ofExcept (readResponse env w.self.serverName (w.self.requestId + 1) (readerAnswer w.data)) :
    StdioProg PyVal)).run _ (⟨nextRequest w.self, w.log ++ [_] ++ [_] ++ [_], w.data + 1⟩ : ClientWorld Nat) = _
  rw [hanswer]
  simp only [List.append_assoc, List.cons_append, List.nil_append]
  rfl

theorem notify_reader {w : ClientWorld Nat} {p : Nat} {method : String} {params : Dict}
    (hprocess : w.self.process = some p) : (notify method params).run (Object.exec readerOs) w =
      (.ok (), { w with log := w.log ++ [⟨.write p (.notification method params), .written⟩] }) := by
  unfold notify
  rw [Object.run_self_bind, hprocess]
  rfl

theorem initializeSession_reader {w : ClientWorld Nat} {p : Nat} (hprocess : w.self.process = some p)
    (hid : w.self.requestId = 0) (hdata : w.data = 0) :
    (initializeSession env).run (Object.exec readerOs) w =
      (.ok (), ⟨{ nextRequest w.self with initialized := true }, w.log ++ [⟨.poll p, none⟩,
        ⟨.write p (.request 1 "initialize" (initializeParams w.self.clientVersion)), .written⟩,
        ⟨.readline p, readerAnswer 0⟩, ⟨.write p (.notification "notifications/initialized" []), .written⟩], 1⟩) := by
  have hrequest := @request_reader env w p "initialize" (initializeParams w.self.clientVersion)
    (.dict [("protocolVersion", .str mcpProtocolVersion)]) hprocess (by rw [hid, hdata]; rfl)
  unfold initializeSession
  rw [Object.run_self_bind, Prog.run_bind, hrequest]
  dsimp only
  rw [checkVersion_reader]
  show (notify "notifications/initialized" [] >>= _).run _ _ = _
  have hnotify := fun log n => @notify_reader ⟨nextRequest w.self, log, n⟩ p "notifications/initialized" [] hprocess
  rw [Prog.run_bind, hnotify, hid, hdata]
  simp only [List.append_assoc, List.cons_append, List.nil_append]
  rfl

theorem ensureStarted_reader {cmdline : List String} (hstart : Startable env (client env s ""))
    (hbuild : buildCmdline env (client env s "") = .ok cmdline) :
    (ensureStarted env).run (Object.exec readerOs) ⟨client env s "", [], 0⟩ =
      (.ok (), ⟨ready (client env s "") 1, handshake cmdline, 1⟩) := by
  have hconfigured := @ensureConfigured_startable env (client env s "") Nat readerOs ⟨client env s "", [], 0⟩ hstart
    rfl rfl
  unfold ensureStarted
  rw [Prog.run_bind, hconfigured]
  dsimp only
  rw [Prog.run_bind, alive_run rfl]
  simp only [Bool.false_eq_true, if_false]
  rw [Prog.run_bind, startProcess_reader rfl hbuild]
  dsimp only
  rw [Object.run_self_bind]
  simp only [Bool.false_eq_true, if_false]
  rw [initializeSession_reader rfl rfl rfl]
  rfl

theorem listTools_reader {cmdline : List String} (hstart : Startable env (client env s ""))
    (hbuild : buildCmdline env (client env s "") = .ok cmdline) :
    (listTools env).run (Object.exec readerOs) ⟨client env s "", [], 0⟩ =
      (.ok [⟨"probe", [], [], .medium, "read"⟩], ⟨ready (client env s "") 2, handshake cmdline ++ [⟨.poll 0, none⟩,
        ⟨.write 0 (.request 2 "tools/list" []), .written⟩, ⟨.readline 0, readerAnswer 1⟩], 2⟩) := by
  have hrequest := @request_reader env ⟨ready (client env s "") 1, handshake cmdline, 1⟩ 0 "tools/list" []
    (.dict [("tools", .list [.dict [("name", .str "probe")]])]) rfl rfl
  unfold listTools
  rw [Prog.run_bind]
  unfold listAttempts
  rw [Prog.run_tryCatch, Prog.run_bind, ensureStarted_reader hstart hbuild]
  dsimp only
  rw [Prog.run_bind, hrequest]
  show (Except.ok ([PyVal.dict [("name", .str "probe")]].filterMap (mapToolItem env)),
    (⟨nextRequest (ready (client env s "") 1), _, 2⟩ : ClientWorld Nat)) = _
  rw [List.filterMap_cons_some mapToolItem_probe]
  rfl

/-- A call of that tool is written to the server. -/
theorem callTool_reader {w : ClientWorld Nat} {p : Nat} {name : String} {arguments : Dict}
    (hstart : Startable env w.self) (hprocess : w.self.process = some p) (hinit : w.self.initialized = true) :
    (⟨.write p (.request (w.self.requestId + 1) "tools/call" [("name", .str name), ("arguments", .dict arguments)]),
      .written⟩ : OsEvent) ∈ ((callTool env name arguments).run (Object.exec readerOs) w).2.log := by
  unfold callTool
  apply Object.mem_log_bind
  apply Object.mem_log_tryCatch
  have hstarted : (ensureStarted env).run (Object.exec readerOs) w =
      (.ok (), { w with log := w.log ++ [⟨.poll p, none⟩] }) := by
    unfold ensureStarted
    rw [Prog.run_bind, ensureConfigured_startable hstart rfl rfl]
    dsimp only
    rw [Prog.run_bind, alive_reader hprocess]
    simp only [if_true]
    rw [Object.run_self_bind, hinit]
    rfl
  rw [Prog.run_bind, hstarted]
  apply Object.mem_log_bind
  unfold request
  rw [Object.run_self_bind]
  dsimp only
  rw [hprocess]
  show _ ∈ ((Prog.ofExcept _ : StdioProg PyVal).run _
    (⟨nextRequest w.self, w.log ++ [_] ++ [_] ++ [_] ++ [_], w.data + 1⟩ : ClientWorld Nat)).2.log
  apply Object.log_grows.subset
  exact List.mem_append_left _ (List.mem_append_right _ (List.mem_singleton.mpr rfl))

/-! ## Where one of the lists has no entry -/

/-- The tool that the reader lists. -/
def probe : MCPToolInfo := ⟨"probe", [], [], .medium, "read"⟩

/-- The log of the first discovery. -/
def discovery (cmdline : List String) : List OsEvent :=
  handshake cmdline ++ [⟨.poll 0, none⟩, ⟨.write 0 (.request 2 "tools/list" []), .written⟩,
    ⟨.readline 0, readerAnswer 1⟩]

theorem serve_reader {cmdline : List String} (hstart : Startable env (client env s ""))
    (hbuild : buildCmdline env (client env s "") = .ok cmdline) :
    serve env readerOs (setUp env [] s) ⟨client env s "", [], 0⟩ (.discover s.mcpServerName) =
      (((setUp env [] s).discoverMcpTools s.mcpServerName [probe]).2,
        ⟨ready (client env s "") 2, discovery cmdline, 2⟩) := by
  have hclient : (setUp env [] s).mcpClients s.mcpServerName = some () := Function.update_self ..
  unfold serve discover
  dsimp only
  rw [hclient]
  dsimp only
  rw [Prog.run_bind, listTools_reader hstart hbuild]
  rfl

theorem run_reader {cmdline : List String} {ops : List GatewayOp} (hstart : Startable env (client env s ""))
    (hbuild : buildCmdline env (client env s "") = .ok cmdline) :
    run env readerOs s [] "" 0 ops =
      serveAll env readerOs ((setUp env [] s).discoverMcpTools s.mcpServerName [probe]).2
        ⟨ready (client env s "") 2, discovery cmdline, 2⟩ ops := by
  show serveAll env readerOs (serve env readerOs (setUp env [] s) ⟨client env s "", [], 0⟩ (.discover s.mcpServerName)).1
    (serve env readerOs (setUp env [] s) ⟨client env s "", [], 0⟩ (.discover s.mcpServerName)).2 ops = _
  rw [serve_reader hstart hbuild]

/-- An allowlist without entries lets every tool through. -/
theorem allowed_of_nil {g : McpGateway} {server tool : String} (h : g.mcpToolAllowlists server = []) :
    g.toGateway.isMcpToolAllowed server tool = true := by
  show ((g.mcpToolAllowlists server).isEmpty || _) = true
  rw [h]
  rfl

/-- What a gateway without a tool allowlist makes of the listed tool. -/
theorem discovered_probe (hnone : toolEntries env s = []) {g : McpGateway}
    (hg : g = ((setUp env [] s).discoverMcpTools s.mcpServerName [probe]).2) :
    g.registry "probe" = some (GatewayState.mcpSpec s.mcpServerName probe) ∧
      g.mcpClients s.mcpServerName = some () ∧ g.mcpToolAllowlists s.mcpServerName = [] := by
  have hclient : (setUp env [] s).mcpClients s.mcpServerName = some () := Function.update_self ..
  have hallow : (setUp env [] s).mcpToolAllowlists s.mcpServerName = [] :=
    (Function.update_self ..).trans hnone
  have hfilter : ([probe].filter fun tool =>
      (setUp env [] s).toGateway.isMcpToolAllowed s.mcpServerName tool.name) = [probe] := by
    simp [allowed_of_nil hallow]
  unfold GatewayState.discoverMcpTools at hg
  rw [hclient] at hg
  dsimp only at hg
  rw [hfilter] at hg
  subst hg
  refine ⟨?_, hclient, hallow⟩
  show Function.update (setUp env [] s).registry "probe" _ "probe" = _
  exact Function.update_self ..

/-- A process is started with a command that is not listed, -/
theorem not_confines_of_no_commands (hstart : Startable env (client env s "")) (hnone : commandEntries env s = []) :
    ¬ Confines env s := by
  obtain ⟨cmdline, hbuild⟩ := hstart.2.2
  intro h
  have hconfined := h Nat readerOs 0 "" [] []
  rw [run_reader hstart hbuild] at hconfined
  obtain ⟨command, rest, -, hmem⟩ := hconfined ⟨.spawn 0 cmdline, none⟩ List.mem_cons_self
  rw [show parseCsv env.unicode s.mcpServerCommandAllowlist = [] from hnone] at hmem
  cases hmem

/-- or a tool that is not listed is called. -/
theorem not_confines_of_no_tools (hstart : Startable env (client env s "")) (hnone : toolEntries env s = []) :
    ¬ Confines env s := by
  obtain ⟨cmdline, hbuild⟩ := hstart.2.2
  intro h
  have hconfined := h Nat readerOs 0 "" [] [.call "probe" [] fun _ => ⟨"", 0, .null⟩]
  rw [run_reader hstart hbuild] at hconfined
  obtain ⟨hregistry, hclient, hallow⟩ := discovered_probe hnone rfl
  generalize ((setUp env [] s).discoverMcpTools s.mcpServerName [probe]).2 = g at hconfined hregistry hclient hallow
  have hready : Startable env (ready (client env s "") 2) := hstart
  have hwritten := @callTool_reader env ⟨ready (client env s "") 2, discovery cmdline, 2⟩ 0 "probe" [] hready rfl rfl
  have hcall : (⟨.write 0 (.request 3 "tools/call" [("name", .str "probe"), ("arguments", .dict [])]), .written⟩ :
      OsEvent) ∈ ((call env g "probe" [] fun _ => ⟨"", 0, .null⟩).run (Object.exec readerOs)
        ⟨ready (client env s "") 2, discovery cmdline, 2⟩).2.log := by
    unfold call
    rw [hregistry]
    apply Object.mem_log_bind
    have hname : calledName (GatewayState.mcpSpec s.mcpServerName probe) = "probe" := rfl
    have hserver : (GatewayState.mcpSpec s.mcpServerName probe).serverName = some s.mcpServerName := rfl
    unfold callMcp
    simp only [hname, hserver, hclient, allowed_of_nil hallow, Bool.not_true, Bool.false_eq_true, if_false]
    apply Object.mem_log_bind
    apply Object.mem_log_tryCatch
    apply Object.mem_log_bind
    exact hwritten
  obtain ⟨name, -, hmem⟩ := hconfined _ hcall rfl
  rw [show parseCsv env.unicode s.mcpToolAllowlist = [] from hnone] at hmem
  cases hmem

theorem confines_iff : Confines env s ↔ EntriesWhereStartable env s := by
  refine ⟨fun h hstart => ⟨fun hnone => ?_, fun hnone => ?_⟩, confines_of_entries⟩
  · exact not_confines_of_no_commands hstart hnone h
  · exact not_confines_of_no_tools hstart hnone h

end Confines

/-! ## Accepted settings -/

/-- The deployment checks accept the settings for production, with a real MCP server. -/
structure Accepted (urlsplit : String → Option UrlParts) (getenv : String → String) (env : StdioEnv) (s : Settings) :
    Prop where
  production : DeploymentGuard.environment ⟨env.unicode, urlsplit, getenv⟩ s = "production"
  ok : (DeploymentGuard.runDeploymentChecks ⟨env.unicode, urlsplit, getenv⟩ s).ok = true
  real : DeploymentGuard.lower ⟨env.unicode, urlsplit, getenv⟩
    (DeploymentGuard.strip ⟨env.unicode, urlsplit, getenv⟩ s.mcpMode) = "real"

section Accepted

variable {urlsplit : String → Option UrlParts} {getenv : String → String} {env : StdioEnv} {s : Settings}

theorem Accepted.mcpChecks (h : Accepted urlsplit getenv env s) :
    DeploymentGuard.strip ⟨env.unicode, urlsplit, getenv⟩ s.mcpServerCommandAllowlist ≠ "" ∧
      DeploymentGuard.strip ⟨env.unicode, urlsplit, getenv⟩ s.mcpToolAllowlist ≠ "" := by
  have hpassed := (DeploymentGuard.runDeploymentChecks_ok h.production).mp h.ok
  have hmcp : ∀ check ∈ DeploymentGuard.mcpChecks ⟨env.unicode, urlsplit, getenv⟩ s, check.level = "error" →
      check.passed = true := by
    intro check hcheck
    apply hpassed
    unfold DeploymentGuard.productionChecks
    simp only [List.mem_append]
    tauto
  unfold DeploymentGuard.mcpChecks at hmcp
  rw [if_pos h.real, List.forall_mem_cons, List.forall_mem_singleton] at hmcp
  obtain ⟨hcommands, htools⟩ := hmcp
  exact ⟨by simpa only [DeploymentGuard.required, decide_eq_true_eq, forall_const] using hcommands,
    by simpa only [DeploymentGuard.required, decide_eq_true_eq, forall_const] using htools⟩

/-- **Accepted settings.**  The checks see to it that neither allowlist is blank.  What the gateway does is
confined to their entries exactly when both lists have entries, or the client cannot be started. -/
theorem accepted_confines (h : Accepted urlsplit getenv env s) :
    (DeploymentGuard.strip ⟨env.unicode, urlsplit, getenv⟩ s.mcpServerCommandAllowlist ≠ "" ∧
      DeploymentGuard.strip ⟨env.unicode, urlsplit, getenv⟩ s.mcpToolAllowlist ≠ "") ∧
    (Confines env s ↔ EntriesWhereStartable env s) := ⟨h.mcpChecks, confines_iff⟩

/-- Settings for production with a server of their own. -/
def productionSettings (commandAllowlist toolAllowlist : String) : Settings where
  appEnv := "production"
  jwtSecret := "0123456789abcdef0123456789abcdef"
  authEnabled := true
  rbacEnabled := true
  corsEnabled := false
  corsAllowOrigins := ""
  securityHeadersEnabled := true
  structuredLoggingEnabled := true
  logRedactionEnabled := true
  logLevel := "INFO"
  auditRetentionEnabled := true
  auditRetentionDays := 180
  auditExportEnabled := false
  auditExportMaxRows := 1000
  auditExportFormat := "jsonl"
  auditExportRedactionEnabled := true
  requestSizeLimitEnabled := true
  requestSizeLimitBytes := 1048576
  rateLimitEnabled := true
  rateLimitRequestsPerMinute := 120
  rateLimitBurst := 20
  rateLimitBackend := "memory"
  redisEnabled := false
  redisUrl := ""
  storageBackend := "sqlite"
  databaseUrl := ""
  mcpMode := "real"
  mcpServerName := "external"
  mcpServerCommand := "python"
  mcpServerArgs := ""
  mcpServerCommandAllowlist := commandAllowlist
  mcpToolAllowlist := toolAllowlist
  realLlmAcceptanceEnabled := false
  realLlmModel := ""
  realLlmApiKeyEnv := ""
  oidcEnabled := false
  oidcIssuerUrl := ""
  oidcClientId := ""
  oidcClientSecretEnv := ""
  oidcRedirectUri := ""
  oidcDefaultRole := "viewer"
  oidcAllowedRoles := "admin,operator,viewer,auditor"
  oidcRequireHttps := true

/-- Nothing but ASCII; arguments are split at blanks. -/
def plainStdio : StdioEnv := ⟨Unicode.plain, fun args => .ok (args.splitOn " "), fun _ => ""⟩

theorem productionSettings_accepted : Accepted (fun _ => none) (fun _ => "") plainStdio
    (productionSettings "python" "search, lookup") := by
  constructor <;> decide +kernel

theorem accepted_confines_demo : Confines plainStdio (productionSettings "python" "search, lookup") :=
  (accepted_confines productionSettings_accepted).2.mpr fun _ => ⟨by decide +kernel, by decide +kernel⟩

/-- Two lists of nothing but a comma are accepted, and permit everything. -/
theorem accepted_not_confined :
    ¬ ∀ (urlsplit : String → Option UrlParts) (getenv : String → String) (env : StdioEnv) (s : Settings),
      Accepted urlsplit getenv env s → Confines env s := by
  intro h
  have haccepted : Accepted (fun _ => none) (fun _ => "") plainStdio (productionSettings "," ",") := by
    constructor <;> decide +kernel
  have hentries := confines_iff.mp (h _ _ _ _ haccepted)
  have hstart : Startable plainStdio (client plainStdio (productionSettings "," ",") "") :=
    ⟨by decide +kernel, .inl (by decide +kernel), ["python"], by rfl⟩
  exact (hentries hstart).1 (by decide +kernel)

end Accepted

end McpGateway

end AgentHarness
