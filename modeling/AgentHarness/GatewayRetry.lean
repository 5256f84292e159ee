import AgentHarness.Gateway
import Mathlib.Order.Bounds.Basic

/-!
# GatewayRetry — what one `ToolGateway.call` does

The gateway runs the tool function, catches what it raises, tries again while retries are left, and records
a metric.  `CallTrace` is what the call has done so far: its attempts, the runs of a tool function, and the
metrics.  The record is the one of `ToolGateway.call`, for a function that does in its `n`-th run what
`function n` says.
-/

namespace AgentHarness

/-- The arguments of `record_tool_call`. -/
structure ToolMetric where
  toolName : String
  success : Bool
  latencyMs : Rat
  retryCount : Nat
  taskId : String

structure CallTrace where
  attempts : Nat
  /-- the runs of a callable or of `client.call_tool`, with the name and the arguments -/
  invocations : List (String × Dict)
  metrics : List ToolMetric

def CallTrace.empty : CallTrace := ⟨0, [], []⟩

/-- A step of the gateway may raise, with this text. -/
abbrev GatewayM := EStateM String CallTrace

structure GatewayProcess extends ToolGateway where
  /-- what the tool function does in each of its runs -/
  function : Nat → ToolOutcome
  /-- the call id and the clock of each attempt -/
  stamps : Nat → CallMeta
  /-- `_metrics_recorder` is set -/
  recorder : Bool
  /-- `_current_task_id` -/
  currentTaskId : String

namespace GatewayProcess

variable (g : GatewayProcess)

/-- A new record is stamped. -/
def stamp : GatewayM CallMeta := do
  let s ← get
  set { s with attempts := s.attempts + 1 }
  pure (g.stamps s.attempts)

/-- `callable_fn(**arguments)`, or `client.call_tool(name, arguments)` -/
def runTool (name : String) (arguments : Dict) : GatewayM PyVal := do
  let s ← get
  set { s with invocations := s.invocations ++ [(name, arguments)] }
  match g.function s.invocations.length with
  | .value result => pure result
  | .exc msg => throw msg

/-- The `try` block that both paths share. -/
def tryTool (i : CallMeta) (tool name : String) (arguments : Dict) : GatewayM ToolCallRecord :=
  tryCatch (do
      let result ← g.runTool name arguments
      pure (ToolGateway.attemptRecord i tool arguments (.value result)))
    fun msg => pure (ToolGateway.attemptRecord i tool arguments (.exc msg))

def callLocal (tool : String) (arguments : Dict) : GatewayM ToolCallRecord := do
  let i ← g.stamp
  if g.callables tool then g.tryTool i tool tool arguments
  else pure (ToolGateway.failedRecord i tool arguments s!"本地工具 '{tool}' 无可调用对象")

/-- `spec.mcp_tool_name or spec.tool_name` -/
def mcpToolName (spec : ToolSpec) : String :=
  match spec.mcpToolName with
  | some t => if t = "" then spec.toolName else t
  | none => spec.toolName

def callMcp (spec : ToolSpec) (arguments : Dict) : GatewayM ToolCallRecord := do
  let i ← g.stamp
  match spec.serverName with
  | none => pure (ToolGateway.failedRecord i spec.toolName arguments s!"MCP 工具 '{spec.toolName}' 缺少 server_name")
  | some server =>
    if !g.mcpClients server then
      pure (ToolGateway.failedRecord i spec.toolName arguments s!"MCP Server '{server}' 未注册")
    else if !g.isMcpToolAllowed server (mcpToolName spec) then
      pure (ToolGateway.failedRecord i spec.toolName arguments
        s!"MCP tool '{mcpToolName spec}' is not allowed by MCP_TOOL_ALLOWLIST")
    else g.tryTool i spec.toolName (mcpToolName spec) arguments

/-- `while not record.success and retry_count < max_retries`, with `left` the difference of the two. -/
def retryLoop (one : GatewayM ToolCallRecord) : (left retryCount : Nat) → ToolCallRecord → GatewayM ToolCallRecord
  | 0, retryCount, record => pure { record with retryCount := retryCount }
  | left + 1, retryCount, record =>
    if !record.success then do
      let record ← one
      retryLoop one left (retryCount + 1) record
    else pure { record with retryCount := retryCount }

def callLocalWithRetry (tool : String) (arguments : Dict) (maxRetries : Nat) : GatewayM ToolCallRecord := do
  let record ← g.callLocal tool arguments
  retryLoop (g.callLocal tool arguments) maxRetries 0 record

def callMcpWithRetry (spec : ToolSpec) (arguments : Dict) (maxRetries : Nat) : GatewayM ToolCallRecord := do
  let record ← g.callMcp spec arguments
  retryLoop (g.callMcp spec arguments) maxRetries 0 record

def recordToolMetrics (tool : String) (record : ToolCallRecord) (taskId : String) : GatewayM Unit :=
  if g.recorder then
    modify fun s => { s with metrics := s.metrics ++
      [⟨tool, record.success, record.latencyMs, record.retryCount, taskId⟩] }
  else pure ()

def call (tool : String) (arguments : Dict) (taskId : String) : GatewayM ToolCallRecord := do
  let effectiveTaskId := if taskId = "" then g.currentTaskId else taskId
  match g.registry tool with
  | none =>
    let i ← g.stamp
    let record := ToolGateway.failedRecord i tool arguments s!"工具 '{tool}' 未注册"
    g.recordToolMetrics tool record effectiveTaskId
    pure record
  | some spec =>
    let record ← (if spec.source = "mcp" then g.callMcpWithRetry spec arguments spec.maxRetries
      else g.callLocalWithRetry tool arguments spec.maxRetries : GatewayM ToolCallRecord)
    g.recordToolMetrics tool record effectiveTaskId
    pure record

end GatewayProcess

/-! ## What the law speaks of -/

namespace ToolOutcome

/-- A plain result: no exception, and no dict with a truthy `error`. -/
def Succeeds : ToolOutcome → Prop
  | .value v => ToolGateway.resultError v = none
  | .exc _ => False

def result : ToolOutcome → PyVal
  | .value v => v
  | .exc _ => .null

def error : ToolOutcome → PyVal
  | .value v => (ToolGateway.resultError v).getD .null
  | .exc msg => .str msg

end ToolOutcome

namespace GatewayProcess

variable (g : GatewayProcess)

/-- The name under which the function of a registered tool is run, if the gateway gets that far. -/
def reached (tool : String) (spec : ToolSpec) : Option String :=
  if spec.source = "mcp" then
    match spec.serverName with
    | none => none
    | some server =>
      if g.mcpClients server && g.isMcpToolAllowed server (mcpToolName spec) then some (mcpToolName spec) else none
  else if g.callables tool then some tool else none

/-- The name in the record of a registered tool. -/
def recordName (tool : String) (spec : ToolSpec) : String := if spec.source = "mcp" then spec.toolName else tool

variable {g : GatewayProcess} {tool name : String} {spec : ToolSpec} {arguments : Dict} {s : CallTrace} {i : CallMeta}

/-! ## One attempt -/

theorem bind_ok {α β : Type} {x : GatewayM α} {f : α → GatewayM β} {a : α} {s s' : CallTrace}
    (h : x s = .ok a s') : (x >>= f) s = f a s' := by
  show EStateM.bind x f s = f a s'
  unfold EStateM.bind
  rw [h]

theorem bind_error {α β : Type} {x : GatewayM α} {f : α → GatewayM β} {e : String} {s s' : CallTrace}
    (h : x s = .error e s') : (x >>= f) s = .error e s' := by
  show EStateM.bind x f s = _
  unfold EStateM.bind
  rw [h]

theorem tryCatch_ok {α : Type} {x : GatewayM α} {handle : String → GatewayM α} {a : α} {s s' : CallTrace}
    (h : x s = .ok a s') : (tryCatch x handle) s = .ok a s' := by
  show EStateM.tryCatch x handle s = _
  unfold EStateM.tryCatch
  rw [h]

theorem tryCatch_error {α : Type} {x : GatewayM α} {handle : String → GatewayM α} {e : String} {s s' : CallTrace}
    (h : x s = .error e s') : (tryCatch x handle) s = handle e s' := by
  show EStateM.tryCatch x handle s = _
  unfold EStateM.tryCatch
  rw [h]
  rfl

theorem stamp_run : g.stamp s = .ok (g.stamps s.attempts) { s with attempts := s.attempts + 1 } := rfl

theorem runTool_ok {v : PyVal} (h : g.function s.invocations.length = .value v) :
    g.runTool name arguments s = .ok v { s with invocations := s.invocations ++ [(name, arguments)] } := by
  unfold runTool
  rw [bind_ok (show (get : GatewayM CallTrace) s = .ok s s from rfl), h]
  rfl

theorem runTool_error {msg : String} (h : g.function s.invocations.length = .exc msg) :
    g.runTool name arguments s = .error msg { s with invocations := s.invocations ++ [(name, arguments)] } := by
  unfold runTool
  rw [bind_ok (show (get : GatewayM CallTrace) s = .ok s s from rfl), h]
  rfl

/-- Whatever the function does, the attempt ends in a record. -/
theorem tryTool_run : g.tryTool i tool name arguments s =
    .ok (ToolGateway.attemptRecord i tool arguments (g.function s.invocations.length))
      { s with invocations := s.invocations ++ [(name, arguments)] } := by
  obtain ⟨o, ho⟩ : ∃ o, g.function s.invocations.length = o := ⟨_, rfl⟩
  rw [ho]
  cases o with
  | value v => exact tryCatch_ok (bind_ok (runTool_ok ho))
  | exc msg => exact tryCatch_error (bind_error (runTool_error ho))

/-- What an attempt leaves behind. -/
def attempted (reached : Option String) (arguments : Dict) (s : CallTrace) : CallTrace :=
  match reached with
  | some name => { s with attempts := s.attempts + 1, invocations := s.invocations ++ [(name, arguments)] }
  | none => { s with attempts := s.attempts + 1 }

/-- An attempt on the path of the tool. -/
def attemptOnce (g : GatewayProcess) (tool : String) (spec : ToolSpec) (arguments : Dict) : GatewayM ToolCallRecord :=
  if spec.source = "mcp" then g.callMcp spec arguments else g.callLocal tool arguments

/-- An attempt that reaches the function runs it once. -/
theorem attemptOnce_reached (h : g.reached tool spec = some name) : attemptOnce g tool spec arguments s =
    .ok (ToolGateway.attemptRecord (g.stamps s.attempts) (recordName tool spec) arguments
        (g.function s.invocations.length))
      (attempted (some name) arguments s) := by
  unfold reached at h
  unfold attemptOnce recordName
  by_cases hmcp : spec.source = "mcp"
  · simp only [if_pos hmcp] at h ⊢
    unfold callMcp
    rw [bind_ok stamp_run]
    obtain ⟨server, hserver⟩ : ∃ server, spec.serverName = some server := by
      refine Option.ne_none_iff_exists'.mp fun hnone => ?_
      rw [hnone] at h
      cases h
    simp only [hserver] at h ⊢
    split at h
    · rename_i hopen
      obtain ⟨hclient, hallowed⟩ := (Bool.and_eq_true _ _).mp hopen
      simp only [hclient, hallowed]
      obtain rfl := Option.some.inj h
      exact tryTool_run
    · cases h
  · simp only [if_neg hmcp] at h ⊢
    unfold callLocal
    rw [bind_ok stamp_run]
    split at h
    · rename_i hcallable
      simp only [hcallable]
      obtain rfl := Option.some.inj h
      exact tryTool_run
    · cases h

/-- `ToolGateway.callMcp`, once the server is known. -/
theorem gateway_callMcp {gateway : ToolGateway} {attempt : Nat → ToolOutcome × CallMeta} {server : String} {n : Nat}
    (hserver : spec.serverName = some server) : gateway.callMcp attempt spec arguments n =
      if !gateway.mcpClients server then
        ToolGateway.failedRecord (attempt n).2 spec.toolName arguments s!"MCP Server '{server}' 未注册"
      else if !gateway.isMcpToolAllowed server (mcpToolName spec) then
        ToolGateway.failedRecord (attempt n).2 spec.toolName arguments
          s!"MCP tool '{mcpToolName spec}' is not allowed by MCP_TOOL_ALLOWLIST"
      else ToolGateway.attemptRecord (attempt n).2 spec.toolName arguments (attempt n).1 := by
  cases spec
  cases hserver
  rfl

/-- The record of attempt `n`, in the words of `ToolGateway`. -/
def recordOf (g : GatewayProcess) (tool : String) (spec : ToolSpec) (arguments : Dict) (n : Nat) : ToolCallRecord :=
  if spec.source = "mcp" then g.toToolGateway.callMcp (fun n => (g.function n, g.stamps n)) spec arguments n
  else g.toToolGateway.callLocal (fun n => (g.function n, g.stamps n)) tool arguments n

theorem recordOf_reached (h : g.reached tool spec = some name) (n : Nat) : recordOf g tool spec arguments n =
    ToolGateway.attemptRecord (g.stamps n) (recordName tool spec) arguments (g.function n) := by
  unfold reached at h
  unfold recordOf recordName
  by_cases hmcp : spec.source = "mcp"
  · simp only [if_pos hmcp] at h ⊢
    obtain ⟨server, hserver⟩ : ∃ server, spec.serverName = some server := by
      refine Option.ne_none_iff_exists'.mp fun hnone => ?_
      rw [hnone] at h
      cases h
    rw [gateway_callMcp hserver]
    simp only [hserver] at h
    split at h
    · rename_i hopen
      obtain ⟨hclient, hallowed⟩ := (Bool.and_eq_true _ _).mp hopen
      simp [hclient, hallowed]
    · cases h
  · simp only [if_neg hmcp] at h ⊢
    unfold ToolGateway.callLocal
    split at h
    · rename_i hcallable
      rw [if_pos hcallable]
    · cases h

theorem recordOf_unreached (h : g.reached tool spec = none) (arguments : Dict) (n : Nat) : ∃ error,
    recordOf g tool spec arguments n =
      ToolGateway.failedRecord (g.stamps n) (recordName tool spec) arguments error := by
  unfold reached at h
  unfold recordOf recordName
  by_cases hmcp : spec.source = "mcp"
  · simp only [if_pos hmcp] at h ⊢
    obtain ⟨server, hserver⟩ : ∃ server, spec.serverName = server := ⟨_, rfl⟩
    cases server with
    | none =>
      unfold ToolGateway.callMcp
      rw [hserver]
      exact ⟨_, rfl⟩
    | some server =>
      rw [gateway_callMcp hserver]
      simp only [hserver] at h
      by_cases hclient : g.mcpClients server = true
      · by_cases hallowed : g.isMcpToolAllowed server (mcpToolName spec) = true
        · simp [hclient, hallowed] at h
        · simp [hclient, hallowed]
      · simp [hclient]
  · simp only [if_neg hmcp] at h ⊢
    unfold ToolGateway.callLocal
    by_cases hcallable : g.callables tool = true
    · simp [hcallable] at h
    · simp [hcallable]

/-- An attempt that does not reach the function fails without running it. -/
theorem attemptOnce_unreached (h : g.reached tool spec = none) : attemptOnce g tool spec arguments s =
    .ok (recordOf g tool spec arguments s.attempts) (attempted none arguments s) := by
  unfold reached at h
  unfold attemptOnce recordOf
  by_cases hmcp : spec.source = "mcp"
  · simp only [if_pos hmcp] at h ⊢
    unfold callMcp
    rw [bind_ok stamp_run]
    obtain ⟨server, hserver⟩ : ∃ server, spec.serverName = server := ⟨_, rfl⟩
    cases server with
    | none =>
      unfold ToolGateway.callMcp
      rw [hserver]
      rfl
    | some server =>
      rw [gateway_callMcp hserver]
      simp only [hserver] at h ⊢
      by_cases hclient : g.mcpClients server = true
      · by_cases hallowed : g.isMcpToolAllowed server (mcpToolName spec) = true
        · simp [hclient, hallowed] at h
        · simp only [hclient, Bool.eq_false_iff.mpr hallowed]
          rfl
      · simp only [Bool.eq_false_iff.mpr hclient]
        rfl
  · simp only [if_neg hmcp] at h ⊢
    unfold callLocal ToolGateway.callLocal
    rw [bind_ok stamp_run]
    by_cases hcallable : g.callables tool = true
    · simp [hcallable] at h
    · simp only [Bool.eq_false_iff.mpr hcallable]
      rfl

/-! ## The loop -/

/-- The loop over an attempt that gives `record n` in the state `at n`: it stops at the first success. -/
theorem retryLoop_run {one : GatewayM ToolCallRecord} {record : Nat → ToolCallRecord} {state : Nat → CallTrace}
    (hone : ∀ n, one (state n) = .ok (record n) (state (n + 1))) (left n : Nat) :
    ∃ m, n ≤ m ∧ m ≤ n + left ∧ (∀ k, n ≤ k → k < m → (record k).success = false) ∧
      (m = n + left ∨ (record m).success = true) ∧
      retryLoop one left n (record n) (state (n + 1)) = .ok { record m with retryCount := m } (state (m + 1)) := by
  induction left generalizing n with
  | zero => exact ⟨n, le_rfl, le_rfl, fun k hk hlt => absurd hk (not_le.mpr hlt), .inl rfl, rfl⟩
  | succ left ih =>
    unfold retryLoop
    by_cases hsuccess : (record n).success = true
    · refine ⟨n, le_rfl, Nat.le_add_right .., fun k hk hlt => absurd hk (not_le.mpr hlt), .inr hsuccess, ?_⟩
      rw [if_neg (by simp [hsuccess])]
      rfl
    · obtain ⟨m, hnm, hm, hfailed, hlast, hrun⟩ := ih (n + 1)
      refine ⟨m, by omega, by omega, fun k hk hlt => ?_, ?_, ?_⟩
      · by_cases hkn : k = n
        · rw [hkn]
          exact Bool.eq_false_iff.mpr hsuccess
        · exact hfailed k (by omega) hlt
      · exact hlast.imp_left (by omega)
      · rw [if_pos (by simp [hsuccess]), bind_ok (hone (n + 1))]
        exact hrun

/-- The state in which attempt `n` of a call begins. -/
def attempting (reached : Option String) (arguments : Dict) (n : Nat) : CallTrace :=
  ⟨n, List.replicate (reached.elim 0 fun _ => n) ((reached.getD ""), arguments), []⟩

theorem attempted_attempting (reached : Option String) (arguments : Dict) (n : Nat) :
    attempted reached arguments (attempting reached arguments n) = attempting reached arguments (n + 1) := by
  cases reached with
  | none => rfl
  | some name =>
    show CallTrace.mk _ (List.replicate n (name, arguments) ++ [(name, arguments)]) _ = _
    rw [← List.replicate_succ']
    rfl

/-- An attempt of a registered tool takes the call one step on. -/
theorem attemptOnce_run (tool : String) (spec : ToolSpec) (arguments : Dict) (n : Nat) :
    attemptOnce g tool spec arguments (attempting (g.reached tool spec) arguments n) =
      .ok (recordOf g tool spec arguments n) (attempting (g.reached tool spec) arguments (n + 1)) := by
  rw [← attempted_attempting]
  obtain ⟨reached, hreached⟩ : ∃ reached, g.reached tool spec = reached := ⟨_, rfl⟩
  cases reached with
  | none =>
    rw [hreached, attemptOnce_unreached hreached]
    rfl
  | some name =>
    have hruns : (attempting (some name) arguments n).invocations.length = n := List.length_replicate
    rw [hreached, attemptOnce_reached hreached, recordOf_reached hreached, hruns]
    rfl

/-- The metric that a call records. -/
def metricOf (g : GatewayProcess) (tool taskId : String) (record : ToolCallRecord) : List ToolMetric :=
  if g.recorder then
    [⟨tool, record.success, record.latencyMs, record.retryCount, if taskId = "" then g.currentTaskId else taskId⟩]
  else []

/-- A call of a registered tool: its attempts, and then the metric. -/
theorem call_run (arguments : Dict) (taskId : String) (hspec : g.registry tool = some spec) :
    ∃ m, m ≤ spec.maxRetries ∧ (∀ k, k < m → (recordOf g tool spec arguments k).success = false) ∧
      (m = spec.maxRetries ∨ (recordOf g tool spec arguments m).success = true) ∧
      g.call tool arguments taskId .empty = .ok { recordOf g tool spec arguments m with retryCount := m }
        { attempting (g.reached tool spec) arguments (m + 1) with
          metrics := metricOf g tool taskId { recordOf g tool spec arguments m with retryCount := m } } := by
  obtain ⟨m, -, hm, hfailed, hlast, hrun⟩ :=
    retryLoop_run (attemptOnce_run tool spec arguments) spec.maxRetries 0
  rw [Nat.zero_add] at hm hlast
  refine ⟨m, hm, fun k hk => hfailed k (Nat.zero_le k) hk, hlast, ?_⟩
  have hempty : attempting (g.reached tool spec) arguments 0 = .empty := by
    unfold attempting
    cases g.reached tool spec <;> rfl
  have hattempts : (attemptOnce g tool spec arguments >>= fun record =>
      retryLoop (attemptOnce g tool spec arguments) spec.maxRetries 0 record) .empty =
      .ok { recordOf g tool spec arguments m with retryCount := m }
        (attempting (g.reached tool spec) arguments (m + 1)) := by
    rw [← hempty, bind_ok (attemptOnce_run tool spec arguments 0)]
    exact hrun
  have hpath : (if spec.source = "mcp" then g.callMcpWithRetry spec arguments spec.maxRetries
      else g.callLocalWithRetry tool arguments spec.maxRetries) .empty =
      .ok { recordOf g tool spec arguments m with retryCount := m }
        (attempting (g.reached tool spec) arguments (m + 1)) := by
    rw [← hattempts]
    unfold attemptOnce
    by_cases hmcp : spec.source = "mcp"
    · simp only [if_pos hmcp]
      rfl
    · simp only [if_neg hmcp]
      rfl
  unfold call
  simp only [hspec]
  rw [bind_ok hpath]
  unfold recordToolMetrics metricOf
  by_cases hrecorder : g.recorder = true
  · simp only [if_pos hrecorder]
    rfl
  · simp only [if_neg hrecorder]
    rfl

/-! ## The record is the one of `ToolGateway.call` -/

theorem withRetry_eq {one : Nat → ToolCallRecord} {left n m : Nat} (hn : n ≤ m) (hm : m ≤ n + left)
    (hfailed : ∀ k, n ≤ k → k < m → (one k).success = false) (hlast : m = n + left ∨ (one m).success = true) :
    ToolGateway.withRetry one left n = { one m with retryCount := m } := by
  induction left generalizing n with
  | zero =>
    obtain rfl : m = n := by omega
    rfl
  | succ left ih =>
    unfold ToolGateway.withRetry
    by_cases hnm : m = n
    · rw [hnm] at hlast ⊢
      rw [if_pos (hlast.resolve_left (by omega))]
    · rw [if_neg (by simp [hfailed n le_rfl (by omega)])]
      exact ih (by omega) (by omega) (fun k hk => hfailed k (by omega)) (hlast.imp_left (by omega))

/-- **Refinement**: the process gives the record that `ToolGateway.call` computes from the attempts. -/
theorem call_refines {taskId : String} : ∃ trace, g.call tool arguments taskId .empty =
    .ok (g.toToolGateway.call (fun n => (g.function n, g.stamps n)) tool arguments) trace := by
  obtain ⟨registered, hspec⟩ : ∃ registered, g.registry tool = registered := ⟨_, rfl⟩
  cases registered with
  | none =>
    unfold call ToolGateway.call
    simp only [hspec]
    rw [bind_ok stamp_run]
    unfold recordToolMetrics
    by_cases hrecorder : g.recorder = true
    · simp only [if_pos hrecorder]
      exact ⟨_, rfl⟩
    · simp only [if_neg hrecorder]
      exact ⟨_, rfl⟩
  | some spec =>
    obtain ⟨m, hm, hfailed, hlast, hrun⟩ := call_run arguments taskId hspec
    have hloop : ToolGateway.withRetry (recordOf g tool spec arguments) spec.maxRetries 0 =
        { recordOf g tool spec arguments m with retryCount := m } :=
      withRetry_eq (Nat.zero_le m) (by omega) (fun k _ hk => hfailed k hk) (by rwa [Nat.zero_add])
    have hgateway : g.toToolGateway.call (fun n => (g.function n, g.stamps n)) tool arguments =
        ToolGateway.withRetry (recordOf g tool spec arguments) spec.maxRetries 0 := by
      unfold ToolGateway.call recordOf
      simp only [hspec]
      by_cases hmcp : spec.source = "mcp"
      · simp only [if_pos hmcp]
      · simp only [if_neg hmcp]
    rw [hgateway, hloop]
    exact ⟨_, hrun⟩

/-! ## The law -/

theorem attemptRecord_success {o : ToolOutcome} :
    (ToolGateway.attemptRecord i tool arguments o).success = true ↔ o.Succeeds := by
  cases o with
  | exc msg => simp [ToolGateway.attemptRecord, ToolGateway.failedRecord, ToolOutcome.Succeeds]
  | value v =>
    unfold ToolGateway.attemptRecord ToolOutcome.Succeeds
    obtain ⟨error, herror⟩ : ∃ error, ToolGateway.resultError v = error := ⟨_, rfl⟩
    simp only [herror]
    cases error <;> simp [ToolGateway.failedRecord]

theorem attemptRecord_outcome {o : ToolOutcome} :
    (ToolGateway.attemptRecord i tool arguments o).result = o.result ∧
      (ToolGateway.attemptRecord i tool arguments o).error = o.error := by
  cases o with
  | exc msg => exact ⟨rfl, rfl⟩
  | value v =>
    unfold ToolGateway.attemptRecord ToolOutcome.result ToolOutcome.error
    obtain ⟨error, herror⟩ : ∃ error, ToolGateway.resultError v = error := ⟨_, rfl⟩
    simp only [herror]
    cases error <;> exact ⟨rfl, rfl⟩

/-- **The retry law.**  A call of a registered tool does not raise, and records its metric once if there is a
recorder.  If the gateway reaches the tool function, then it runs it once in each attempt, until the first
success or until the retries are used up, and the record is that of the last run.  Otherwise no attempt runs it,
and the record is a failure. -/
theorem retry_law (g : GatewayProcess) (tool : String) (spec : ToolSpec) (arguments : Dict) (taskId : String)
    (hspec : g.registry tool = some spec) :
    ∃ record trace, g.call tool arguments taskId .empty = .ok record trace ∧
      trace.metrics = metricOf g tool taskId record ∧ trace.attempts = record.retryCount + 1 ∧
      (∀ name, g.reached tool spec = some name →
        trace.invocations = List.replicate trace.attempts (name, arguments) ∧
        IsLeast {k | k = spec.maxRetries + 1 ∨ ∃ m, k = m + 1 ∧ (g.function m).Succeeds} trace.attempts ∧
        (record.success = true ↔ (g.function record.retryCount).Succeeds) ∧
        record.result = (g.function record.retryCount).result ∧
        record.error = (g.function record.retryCount).error) ∧
      (g.reached tool spec = none →
        trace.invocations = [] ∧ record.retryCount = spec.maxRetries ∧ record.success = false ∧
        record.result = .null ∧ ∃ error, record.error = .str error) := by
  obtain ⟨m, hm, hfailed, hlast, hrun⟩ := call_run arguments taskId hspec
  refine ⟨_, _, hrun, rfl, rfl, fun name hname => ?_, fun hnone => ?_⟩
  · have hsuccess : ∀ k, (recordOf g tool spec arguments k).success = true ↔ (g.function k).Succeeds := by
      intro k
      rw [recordOf_reached hname]
      exact attemptRecord_success
    refine ⟨by rw [hname]; rfl, ⟨?_, ?_⟩, hsuccess m, ?_⟩
    · rcases hlast with rfl | hlast
      · exact .inl rfl
      · exact .inr ⟨m, rfl, (hsuccess m).mp hlast⟩
    · rintro k (rfl | ⟨j, rfl, hj⟩)
      · exact Nat.succ_le_succ hm
      · refine Nat.succ_le_succ (not_lt.mp fun hlt => ?_)
        have := hfailed j hlt
        rw [(hsuccess j).mpr hj] at this
        cases this
    · show (recordOf g tool spec arguments m).result = _ ∧ (recordOf g tool spec arguments m).error = _
      rw [recordOf_reached hname]
      exact attemptRecord_outcome
  · have hrecord : ∀ k, (recordOf g tool spec arguments k).success = false := by
      intro k
      obtain ⟨error, herror⟩ := recordOf_unreached hnone arguments k
      rw [herror]
      rfl
    obtain ⟨error, herror⟩ := recordOf_unreached hnone arguments m
    refine ⟨by rw [hnone]; rfl, ?_, hrecord m, ?_, error, ?_⟩
    · refine hlast.resolve_right ?_
      rw [hrecord m]
      exact Bool.false_ne_true
    · rw [herror]
      rfl
    · rw [herror]
      rfl

/-- A local tool that raises, then gives an error dict, then a result, with two retries. -/
def recovering : GatewayProcess where
  registry name := if name = "flaky" then some ⟨"flaky", .low, "", 2, "local", none, none⟩ else none
  callables name := name = "flaky"
  mcpClients _ := false
  mcpToolAllowlists _ := []
  function
    | 0 => .exc "first attempt fails"
    | 1 => .value (.dict [("error", .str "again")])
    | _ => .value (.str "ok")
  stamps n := ⟨toString n, n, .null⟩
  recorder := true
  currentTaskId := "t"

theorem retry_law_recovering : ∃ record trace, recovering.call "flaky" [] "" .empty = .ok record trace ∧
    trace.metrics = metricOf recovering "flaky" "" record ∧ trace.attempts = record.retryCount + 1 ∧
    (∀ name, recovering.reached "flaky" ⟨"flaky", .low, "", 2, "local", none, none⟩ = some name →
      trace.invocations = List.replicate trace.attempts (name, []) ∧
      IsLeast {k | k = 2 + 1 ∨ ∃ m, k = m + 1 ∧ (recovering.function m).Succeeds} trace.attempts ∧
      (record.success = true ↔ (recovering.function record.retryCount).Succeeds) ∧
      record.result = (recovering.function record.retryCount).result ∧
      record.error = (recovering.function record.retryCount).error) ∧
    (recovering.reached "flaky" ⟨"flaky", .low, "", 2, "local", none, none⟩ = none →
      trace.invocations = [] ∧ record.retryCount = 2 ∧ record.success = false ∧
      record.result = .null ∧ ∃ error, record.error = .str error) :=
  retry_law recovering "flaky" ⟨"flaky", .low, "", 2, "local", none, none⟩ [] "" rfl

/-- A registered tool that the allowlist of its server leaves out. -/
def denied : GatewayProcess where
  registry name := if name = "write" then some ⟨"write", .low, "", 1, "mcp", some "files", some "write"⟩ else none
  callables _ := false
  mcpClients name := name = "files"
  mcpToolAllowlists _ := ["read"]
  function _ := .value (.str "ok")
  stamps n := ⟨toString n, 0, .null⟩
  recorder := true
  currentTaskId := ""

/-- Its function would succeed at once, and is never run. -/
theorem retry_law_denied : ¬ ∀ (g : GatewayProcess) (tool : String) (spec : ToolSpec) (arguments : Dict)
    (taskId : String), g.registry tool = some spec → ∃ record trace,
      g.call tool arguments taskId .empty = .ok record trace ∧
      IsLeast {k | k = spec.maxRetries + 1 ∨ ∃ m, k = m + 1 ∧ (g.function m).Succeeds}
        trace.invocations.length := by
  intro h
  obtain ⟨record, trace, hcall, hleast⟩ :=
    h denied "write" ⟨"write", .low, "", 1, "mcp", some "files", some "write"⟩ [] "" rfl
  have hruns : ∃ record, denied.call "write" [] "" .empty = .ok record
      { attempts := 2, invocations := [], metrics := [⟨"write", false, 0, 1, ""⟩] } := ⟨_, rfl⟩
  obtain ⟨record', hruns⟩ := hruns
  rw [hruns] at hcall
  obtain ⟨-, htrace⟩ := EStateM.Result.ok.inj hcall
  have hnone : trace.invocations.length = 0 := by
    rw [← htrace]
    rfl
  rw [hnone] at hleast
  rcases hleast.1 with hzero | ⟨m, hzero, -⟩ <;> omega

end GatewayProcess

end AgentHarness
