import AgentHarness.Lib.Keyed
import AgentHarness.Lib.Mealy
import AgentHarness.Lib.Table
import AgentHarness.TimeRange

/-!
# Metrics — what the recorder counts and what the metrics stores sum up

`RuntimeMetricsRecorder` counts every call as it comes, and writes a row for it to the store.  The stores read the
newest rows of a table back, at most as many as the limit, and count them again: by status, by mode, by tool and by
day.  Floats (latencies and costs) are a parameter: they are added in the order of the rows.
-/

namespace AgentHarness

open Lib

/-- The floats that latencies and costs are; `mean` is `sum(values) / len(values)` of values that are there. -/
structure FloatOps (F : Type) where
  zero : F
  add : F → F → F
  mean : List F → F

structure TaskMetricRow (F : Type) where
  timestamp : DateTime
  taskId : String
  mode : String
  status : String
  latencyMs : Option F

structure ToolMetricRow (F : Type) where
  timestamp : DateTime
  taskId : String
  toolName : String
  success : Bool
  latencyMs : Option F
  retryCount : ℤ

structure TokenUsageRow (F : Type) where
  timestamp : DateTime
  taskId : String
  promptTokens : ℤ
  completionTokens : ℤ
  cost : F

/-- `runtime_task_metrics`, `runtime_tool_metrics` and `runtime_token_usage` -/
structure MetricsDb (F : Type) where
  tasks : List (TaskMetricRow F) := []
  tools : List (ToolMetricRow F) := []
  tokens : List (TokenUsageRow F) := []

/-! ## Counters -/

/-- The tasks by what became of them. -/
@[ext] structure StatusCounts where
  taskCount : ℕ := 0
  successCount : ℕ := 0
  failedCount : ℕ := 0
  waitingApprovalCount : ℕ := 0
  cancelledCount : ℕ := 0
  unknownStatusCount : ℕ := 0

/-- One more task. -/
def StatusCounts.count (status : String) (c : StatusCounts) : StatusCounts :=
  let c := { c with taskCount := c.taskCount + 1 }
  if status ∈ ["completed", "success"] then { c with successCount := c.successCount + 1 }
  else if status ∈ ["failed", "error"] then { c with failedCount := c.failedCount + 1 }
  else if status = "waiting_approval" then { c with waitingApprovalCount := c.waitingApprovalCount + 1 }
  else if status = "cancelled" then { c with cancelledCount := c.cancelledCount + 1 }
  else { c with unknownStatusCount := c.unknownStatusCount + 1 }

/-- The tasks of a mode. -/
@[ext] structure ModeCounts where
  count : ℕ := 0
  successCount : ℕ := 0
  failedCount : ℕ := 0

def ModeCounts.add (status : String) (c : ModeCounts) : ModeCounts :=
  let c := { c with count := c.count + 1 }
  if status ∈ ["completed", "success"] then { c with successCount := c.successCount + 1 }
  else if status ∈ ["failed", "error"] then { c with failedCount := c.failedCount + 1 }
  else c

structure ToolCounts (F : Type) where
  callCount : ℕ := 0
  failureCount : ℕ := 0
  retryCount : ℤ := 0
  latencies : List F := []

structure CostCounts (F : Type) where
  promptTokens : ℤ := 0
  completionTokens : ℤ := 0
  cost : F

/-- `value or "unknown"` -/
def orUnknown (value : String) : String := if value = "" then "unknown" else value

/-! ## The recorder -/

structure RuntimeMetricsRecorder (F : Type) where
  counts : StatusCounts := {}
  toolCallCount : ℕ := 0
  toolFailureCount : ℕ := 0
  totalPromptTokens : ℤ := 0
  totalCompletionTokens : ℤ := 0
  totalCost : F
  skillMatchCount : ℤ := 0
  cacheHitCount : ℕ := 0
  cacheMissCount : ℕ := 0
  taskLatencies : List F := []

/-- The fields that a recorder and a store have in common. -/
structure MetricsSummary (F : Type) where
  counts : StatusCounts
  toolCallCount : ℕ
  toolFailureCount : ℕ
  totalPromptTokens : ℤ
  totalCompletionTokens : ℤ
  totalCost : F
  avgTaskLatencyMs : F

/-- The calls of a recorder with a store.  `written` says whether the row is written: a failure is only logged. -/
inductive MetricsOp (F : Type)
  | recordTask (row : TaskMetricRow F) (written : Bool)
  | recordToolCall (row : ToolMetricRow F) (written : Bool)
  | recordTokenUsage (row : TokenUsageRow F) (written : Bool)
  | recordSkillMatch (count : ℤ)
  | recordCacheHit
  | recordCacheMiss

variable {F : Type} (fl : FloatOps F)

/-- A recorder that has counted nothing. -/
def RuntimeMetricsRecorder.new : RuntimeMetricsRecorder F := { totalCost := fl.zero }

/-- The mean of the latencies, or zero. -/
def FloatOps.average (values : List F) : F := if values.isEmpty then fl.zero else fl.mean values

namespace RuntimeMetricsRecorder

/-- `record_task` and the other methods, with the rows they write. -/
def record (op : MetricsOp F) (s : RuntimeMetricsRecorder F × MetricsDb F) : RuntimeMetricsRecorder F × MetricsDb F :=
  match op with
  | .recordTask row written =>
    ({ s.1 with
        counts := s.1.counts.count row.status
        taskLatencies := s.1.taskLatencies ++ row.latencyMs.toList },
      if written then { s.2 with tasks := s.2.tasks ++ [row] } else s.2)
  | .recordToolCall row written =>
    ({ s.1 with
        toolCallCount := s.1.toolCallCount + 1
        toolFailureCount := if !row.success then s.1.toolFailureCount + 1 else s.1.toolFailureCount },
      if written then { s.2 with tools := s.2.tools ++ [row] } else s.2)
  | .recordTokenUsage row written =>
    ({ s.1 with
        totalPromptTokens := s.1.totalPromptTokens + row.promptTokens
        totalCompletionTokens := s.1.totalCompletionTokens + row.completionTokens
        totalCost := fl.add s.1.totalCost row.cost },
      if written then { s.2 with tokens := s.2.tokens ++ [row] } else s.2)
  | .recordSkillMatch count => ({ s.1 with skillMatchCount := s.1.skillMatchCount + count }, s.2)
  | .recordCacheHit => ({ s.1 with cacheHitCount := s.1.cacheHitCount + 1 }, s.2)
  | .recordCacheMiss => ({ s.1 with cacheMissCount := s.1.cacheMissCount + 1 }, s.2)

/-- `summary`, the fields that a store has too. -/
def summary (r : RuntimeMetricsRecorder F) : MetricsSummary F :=
  ⟨r.counts, r.toolCallCount, r.toolFailureCount, r.totalPromptTokens, r.totalCompletionTokens, r.totalCost,
    fl.average r.taskLatencies⟩

end RuntimeMetricsRecorder

/-- A new recorder and the tables it was given, after a run of calls; the calls answer nothing. -/
def metricsRun (ops : List (MetricsOp F)) (db : MetricsDb F) : RuntimeMetricsRecorder F × MetricsDb F :=
  Mealy.final (fun op s => (RuntimeMetricsRecorder.record fl op s, ())) ops (.new fl, db)

/-! ## The loops of the stores -/

/-- What the loop of `task_summary` adds up. -/
structure TaskTotals (F : Type) where
  counts : StatusCounts := {}
  byMode : List (String × ModeCounts) := []
  latencies : List F := []

def TaskTotals.add (t : TaskTotals F) (row : TaskMetricRow F) : TaskTotals F where
  counts := t.counts.count row.status
  byMode := Keyed.modifyAt {} (·.add row.status) (orUnknown row.mode) t.byMode
  latencies := t.latencies ++ row.latencyMs.toList

/-- What the loop of `tool_summary` adds up. -/
structure ToolTotals (F : Type) where
  toolCallCount : ℕ := 0
  toolFailureCount : ℕ := 0
  retryCount : ℤ := 0
  latencies : List F := []
  byTool : List (String × ToolCounts F) := []

def ToolCounts.add (c : ToolCounts F) (row : ToolMetricRow F) : ToolCounts F where
  callCount := c.callCount + 1
  failureCount := if !row.success then c.failureCount + 1 else c.failureCount
  retryCount := c.retryCount + row.retryCount
  latencies := c.latencies ++ row.latencyMs.toList

def ToolTotals.add (t : ToolTotals F) (row : ToolMetricRow F) : ToolTotals F where
  toolCallCount := t.toolCallCount + 1
  toolFailureCount := if !row.success then t.toolFailureCount + 1 else t.toolFailureCount
  retryCount := t.retryCount + row.retryCount
  latencies := t.latencies ++ row.latencyMs.toList
  byTool := Keyed.modifyAt {} (·.add row) (orUnknown row.toolName) t.byTool

def CostCounts.add (c : CostCounts F) (row : TokenUsageRow F) : CostCounts F where
  promptTokens := c.promptTokens + row.promptTokens
  completionTokens := c.completionTokens + row.completionTokens
  cost := fl.add c.cost row.cost

/-- What the loop of `cost_summary` adds up. -/
structure CostTotals (F : Type) where
  total : CostCounts F
  byMode : List (String × CostCounts F) := []
  byDay : List (List Char × CostCounts F) := []

/-- The mode of each task: that of its first row. -/
def taskModeMap (rows : List (TaskMetricRow F)) : List (String × String) :=
  rows.foldl (fun modes row =>
    if (Keyed.lookup row.taskId modes).isSome then modes else modes ++ [(row.taskId, orUnknown row.mode)]) []

def CostTotals.add (modes : List (String × String)) (t : CostTotals F) (row : TokenUsageRow F) : CostTotals F where
  total := t.total.add fl row
  byMode := Keyed.modifyAt { cost := fl.zero } (·.add fl row) ((Keyed.lookup row.taskId modes).getD "unknown") t.byMode
  byDay := Keyed.modifyAt { cost := fl.zero } (·.add fl row) row.timestamp.date.text t.byDay

/-! ## What the methods return -/

structure TaskSummary (F : Type) where
  counts : StatusCounts
  avgTaskLatencyMs : F
  byMode : List (String × ModeCounts)

structure ToolSummary (F : Type) where
  toolCallCount : ℕ
  toolFailureCount : ℕ
  retryCount : ℤ
  avgLatencyMs : F
  /-- the counts of a tool, with the mean of its latencies in their place -/
  byTool : List (String × ℕ × ℕ × ℤ × F)

structure CostSummary (F : Type) where
  total : CostCounts F
  byMode : List (String × CostCounts F)
  byDay : List (List Char × CostCounts F)

/-- The answer of `task_summary` for its rows, the newest first. -/
def taskSummaryOf (rows : List (TaskMetricRow F)) : TaskSummary F :=
  let t := rows.foldl TaskTotals.add {}
  ⟨t.counts, fl.average t.latencies, t.byMode⟩

def toolSummaryOf (rows : List (ToolMetricRow F)) : ToolSummary F :=
  let t := rows.foldl ToolTotals.add {}
  ⟨t.toolCallCount, t.toolFailureCount, t.retryCount, fl.average t.latencies,
    t.byTool.map fun (tool, c) => (tool, c.callCount, c.failureCount, c.retryCount, fl.average c.latencies)⟩

def costSummaryOf (modes : List (String × String)) (rows : List (TokenUsageRow F)) : CostSummary F :=
  let t := rows.foldl (CostTotals.add fl modes) { total := { cost := fl.zero } }
  ⟨t.total, t.byMode, t.byDay⟩

/-- `_normalize_limit` -/
def normalizeLimit (limit : ℤ) : ℕ := if limit ≤ 0 then 100 else if 500 < limit then 500 else limit.toNat

/-- How the time in UTC ends in `isoformat`. -/
def utcOffset : List Char := "+00:00".toList

/-- The range and the limit of a query. -/
structure MetricsQuery where
  startTime : Option (List Char) := none
  endTime : Option (List Char) := none
  limit : ℤ := 100

/-- The orders in which an engine visits the tables. -/
structure MetricsScan (F : Type) where
  tasks : Scan (TaskMetricRow F)
  tools : Scan (ToolMetricRow F)
  tokens : Scan (TokenUsageRow F)

namespace SQLiteMetricsStore

variable {ρ : Type}

/-- The rows of a query: times are compared as texts. -/
def rows (timestamp : ρ → DateTime) (scan : Scan ρ) (q : MetricsQuery) (t : List ρ) : List ρ :=
  (Table.orderDesc compare (fun r => (timestamp r).isoformat utcOffset) scan
    (sqliteSelect timestamp (fun _ => true) utcOffset q.startTime q.endTime t)).take (normalizeLimit q.limit)

/-- `summary`: one loop for each table. -/
def summary (scan : MetricsScan F) (q : MetricsQuery) (db : MetricsDb F) : MetricsSummary F :=
  let (counts, latencies) := (rows (·.timestamp) scan.tasks q db.tasks).foldl
    (fun (acc : StatusCounts × List F) row => (acc.1.count row.status, acc.2 ++ row.latencyMs.toList)) ({}, [])
  let (calls, failures) := (rows (·.timestamp) scan.tools q db.tools).foldl
    (fun (acc : ℕ × ℕ) row => (acc.1 + 1, if !row.success then acc.2 + 1 else acc.2)) (0, 0)
  let total := (rows (·.timestamp) scan.tokens q db.tokens).foldl (CostCounts.add fl) { cost := fl.zero }
  ⟨counts, calls, failures, total.promptTokens, total.completionTokens, total.cost, fl.average latencies⟩

def taskSummary (scan : MetricsScan F) (q : MetricsQuery) (db : MetricsDb F) : TaskSummary F :=
  taskSummaryOf fl (rows (·.timestamp) scan.tasks q db.tasks)

def toolSummary (scan : MetricsScan F) (q : MetricsQuery) (db : MetricsDb F) : ToolSummary F :=
  toolSummaryOf fl (rows (·.timestamp) scan.tools q db.tools)

def costSummary (scan : MetricsScan F) (q : MetricsQuery) (db : MetricsDb F) : CostSummary F :=
  costSummaryOf fl
    (taskModeMap (Table.orderAsc compare (fun r => r.timestamp.isoformat utcOffset) scan.tasks db.tasks))
    (rows (·.timestamp) scan.tokens q db.tokens)

end SQLiteMetricsStore

namespace PostgresMetricsStore

variable {ρ : Type}

/-- The rows of a query: times are compared as instants. -/
def rows (timestamp : ρ → DateTime) (scan : Scan ρ) (q : MetricsQuery) (t : List ρ) : List ρ :=
  (Table.orderDesc DateTime.compare timestamp scan
    (postgresSelect timestamp (fun _ => true) utcOffset q.startTime q.endTime t)).take (normalizeLimit q.limit)

def taskSummary (scan : MetricsScan F) (q : MetricsQuery) (db : MetricsDb F) : TaskSummary F :=
  taskSummaryOf fl (rows (·.timestamp) scan.tasks q db.tasks)

def toolSummary (scan : MetricsScan F) (q : MetricsQuery) (db : MetricsDb F) : ToolSummary F :=
  toolSummaryOf fl (rows (·.timestamp) scan.tools q db.tools)

def costSummary (scan : MetricsScan F) (q : MetricsQuery) (db : MetricsDb F) : CostSummary F :=
  costSummaryOf fl (taskModeMap (Table.orderAsc DateTime.compare (·.timestamp) scan.tasks db.tasks))
    (rows (·.timestamp) scan.tokens q db.tokens)

/-- `summary`: put together from the other three. -/
def summary (scan : MetricsScan F) (q : MetricsQuery) (db : MetricsDb F) : MetricsSummary F :=
  let task := taskSummary fl scan q db
  let tool := toolSummary fl scan q db
  let cost := costSummary fl scan q db
  ⟨task.counts, tool.toolCallCount, tool.toolFailureCount, cost.total.promptTokens, cost.total.completionTokens,
    cost.total.cost, task.avgTaskLatencyMs⟩

end PostgresMetricsStore

/-! ## What the loops add up -/

section
variable {fl}

/-- The order in which tasks are counted does not matter. -/
theorem StatusCounts.count_comm (a b : String) (c : StatusCounts) : (c.count a).count b = (c.count b).count a := by
  unfold StatusCounts.count
  dsimp only
  split_ifs <;> rfl

/-- Every task is counted under one status. -/
def StatusCounts.Partitioned (c : StatusCounts) : Prop :=
  c.successCount + c.failedCount + c.waitingApprovalCount + c.cancelledCount + c.unknownStatusCount = c.taskCount

theorem StatusCounts.Partitioned.count {c : StatusCounts} (h : c.Partitioned) (status : String) :
    (c.count status).Partitioned := by
  unfold StatusCounts.Partitioned at h
  unfold StatusCounts.count StatusCounts.Partitioned
  dsimp only
  split_ifs <;> dsimp only <;> omega

instance : Add StatusCounts where
  add a b := ⟨a.taskCount + b.taskCount, a.successCount + b.successCount, a.failedCount + b.failedCount,
    a.waitingApprovalCount + b.waitingApprovalCount, a.cancelledCount + b.cancelledCount,
    a.unknownStatusCount + b.unknownStatusCount⟩

theorem StatusCounts.count_add (status : String) (a b : StatusCounts) : (a + b).count status = a + b.count status := by
  unfold StatusCounts.count
  show (if _ then _ else _) = a + (if _ then _ else _)
  split_ifs <;> rfl

/-- The counts of some rows. -/
def countRows (rows : List (TaskMetricRow F)) : StatusCounts := rows.foldl (fun c row => c.count row.status) {}

theorem countRows_append (rows : List (TaskMetricRow F)) (row : TaskMetricRow F) :
    countRows (rows ++ [row]) = (countRows rows).count row.status := List.foldl_concat ..

theorem countRows_perm {rows rows' : List (TaskMetricRow F)} (h : rows.Perm rows') : countRows rows = countRows rows' :=
  h.foldl_eq' (fun a _ b _ c => StatusCounts.count_comm a.status b.status c) _

theorem countRows_partitioned (rows : List (TaskMetricRow F)) {c : StatusCounts} (h : c.Partitioned) :
    (rows.foldl (fun c row => c.count row.status) c).Partitioned := by
  induction rows generalizing c with
  | nil => exact h
  | cons row rows ih => exact ih (h.count row.status)

theorem taskTotals_eq (rows : List (TaskMetricRow F)) (t : TaskTotals F) :
    rows.foldl TaskTotals.add t =
      ⟨rows.foldl (fun c row => c.count row.status) t.counts,
        Keyed.collect {} (fun row => orUnknown row.mode) (fun c row => c.add row.status) t.byMode rows,
        t.latencies ++ rows.flatMap fun row => row.latencyMs.toList⟩ := by
  induction rows generalizing t with
  | nil => simp [Keyed.collect]
  | cons row rows ih =>
    rw [List.foldl_cons, ih]
    simp [TaskTotals.add, Keyed.collect]

/-- The counts of the tools are collected beside the totals. -/
theorem toolTotals_byTool (rows : List (ToolMetricRow F)) (t : ToolTotals F) :
    (rows.foldl ToolTotals.add t).byTool =
      Keyed.collect {} (fun row => orUnknown row.toolName) ToolCounts.add t.byTool rows := by
  induction rows generalizing t with
  | nil => rfl
  | cons row rows ih => exact ih _

theorem costCounts_eq (rows : List (TokenUsageRow F)) (c : CostCounts F) :
    rows.foldl (CostCounts.add fl) c =
      ⟨c.promptTokens + (rows.map (·.promptTokens)).sum, c.completionTokens + (rows.map (·.completionTokens)).sum,
        rows.foldl (fun cost row => fl.add cost row.cost) c.cost⟩ := by
  induction rows generalizing c with
  | nil => simp
  | cons row rows ih =>
    rw [List.foldl_cons, ih]
    simp [CostCounts.add, add_assoc]

theorem costTotals_eq (modes : List (String × String)) (rows : List (TokenUsageRow F)) (t : CostTotals F) :
    rows.foldl (CostTotals.add fl modes) t =
      ⟨rows.foldl (CostCounts.add fl) t.total,
        Keyed.collect { cost := fl.zero } (fun row => (Keyed.lookup row.taskId modes).getD "unknown")
          (CostCounts.add fl) t.byMode rows,
        Keyed.collect { cost := fl.zero } (fun row => row.timestamp.date.text) (CostCounts.add fl) t.byDay rows⟩ := by
  induction rows generalizing t with
  | nil => rfl
  | cons row rows ih =>
    rw [List.foldl_cons, ih]
    rfl

/-! ## The groups of a summary -/

/-- Every task has one status and one mode. -/
structure TaskSummary.Consistent (s : TaskSummary F) : Prop where
  status : s.counts.Partitioned
  modes : (s.byMode.map Prod.fst).Nodup
  count : (s.byMode.map fun entry => entry.2.count).sum = s.counts.taskCount
  success : (s.byMode.map fun entry => entry.2.successCount).sum = s.counts.successCount
  failed : (s.byMode.map fun entry => entry.2.failedCount).sum = s.counts.failedCount

/-- Every call is one of one tool. -/
structure ToolSummary.Consistent (s : ToolSummary F) : Prop where
  tools : (s.byTool.map Prod.fst).Nodup
  calls : (s.byTool.map fun entry => entry.2.1).sum = s.toolCallCount
  failures : (s.byTool.map fun entry => entry.2.2.1).sum = s.toolFailureCount
  retries : (s.byTool.map fun entry => entry.2.2.2.1).sum = s.retryCount

/-- Every use is one of one mode, and one of one day. -/
structure CostSummary.Consistent (s : CostSummary F) : Prop where
  modes : (s.byMode.map Prod.fst).Nodup
  days : (s.byDay.map Prod.fst).Nodup
  modePrompt : (s.byMode.map fun entry => entry.2.promptTokens).sum = s.total.promptTokens
  modeCompletion : (s.byMode.map fun entry => entry.2.completionTokens).sum = s.total.completionTokens
  dayPrompt : (s.byDay.map fun entry => entry.2.promptTokens).sum = s.total.promptTokens
  dayCompletion : (s.byDay.map fun entry => entry.2.completionTokens).sum = s.total.completionTokens

theorem taskSummaryOf_consistent (rows : List (TaskMetricRow F)) : (taskSummaryOf fl rows).Consistent := by
  unfold taskSummaryOf
  rw [taskTotals_eq]
  refine ⟨countRows_partitioned rows rfl, Keyed.nodup_collect List.nodup_nil, ?_, ?_, ?_⟩
  · refine Keyed.sum_collect_eq_foldl (w := fun _ => 1) rfl (fun c row => ?_) rfl (fun c row => ?_)
    · unfold ModeCounts.add
      dsimp only
      split_ifs <;> rfl
    · unfold StatusCounts.count
      dsimp only
      split_ifs <;> rfl
  · refine Keyed.sum_collect_eq_foldl (w := fun row => if row.status ∈ ["completed", "success"] then 1 else 0) rfl
      (fun c row => ?_) rfl (fun c row => ?_)
    · unfold ModeCounts.add
      dsimp only
      split_ifs <;> rfl
    · unfold StatusCounts.count
      dsimp only
      split_ifs <;> rfl
  · refine Keyed.sum_collect_eq_foldl (w := fun row => if row.status ∈ ["completed", "success"] then 0 else
        if row.status ∈ ["failed", "error"] then 1 else 0) rfl (fun c row => ?_) rfl (fun c row => ?_)
    · unfold ModeCounts.add
      dsimp only
      split_ifs <;> rfl
    · unfold StatusCounts.count
      dsimp only
      split_ifs <;> rfl

theorem toolSummaryOf_consistent (rows : List (ToolMetricRow F)) : (toolSummaryOf fl rows).Consistent := by
  have hcollect := toolTotals_byTool rows ({} : ToolTotals F)
  unfold toolSummaryOf
  dsimp only
  rw [hcollect]
  refine ⟨?_, ?_, ?_, ?_⟩
  · rw [List.map_map]
    exact Keyed.nodup_collect List.nodup_nil
  · rw [List.map_map]
    exact Keyed.sum_collect_eq_foldl (μ := ToolCounts.callCount) (ν := ToolTotals.toolCallCount) (w := fun _ => 1) rfl
      (fun _ _ => rfl) rfl (fun _ _ => rfl)
  · rw [List.map_map]
    refine Keyed.sum_collect_eq_foldl (μ := ToolCounts.failureCount) (ν := ToolTotals.toolFailureCount)
      (w := fun row => if !row.success then 1 else 0) rfl (fun c row => ?_) rfl (fun t row => ?_)
    · unfold ToolCounts.add
      dsimp only
      split_ifs <;> rfl
    · unfold ToolTotals.add
      dsimp only
      split_ifs <;> rfl
  · rw [List.map_map]
    exact Keyed.sum_collect_eq_foldl (μ := ToolCounts.retryCount) (ν := ToolTotals.retryCount)
      (w := fun row => row.retryCount) rfl (fun _ _ => rfl) rfl (fun _ _ => rfl)

theorem costSummaryOf_consistent (modes : List (String × String)) (rows : List (TokenUsageRow F)) :
    (costSummaryOf fl modes rows).Consistent := by
  unfold costSummaryOf
  rw [costTotals_eq]
  refine ⟨Keyed.nodup_collect List.nodup_nil, Keyed.nodup_collect List.nodup_nil, ?_, ?_, ?_, ?_⟩
  · exact Keyed.sum_collect_eq_foldl (w := fun row => row.promptTokens) rfl (fun _ _ => rfl) rfl (fun _ _ => rfl)
  · exact Keyed.sum_collect_eq_foldl (w := fun row => row.completionTokens) rfl (fun _ _ => rfl) rfl (fun _ _ => rfl)
  · exact Keyed.sum_collect_eq_foldl (w := fun row => row.promptTokens) rfl (fun _ _ => rfl) rfl (fun _ _ => rfl)
  · exact Keyed.sum_collect_eq_foldl (w := fun row => row.completionTokens) rfl (fun _ _ => rfl) rfl (fun _ _ => rfl)

end

/-! ## The recorder and the tables -/

/-- `after` has what `before` has, and what the recorder counted beside it. -/
structure MetricsSummary.Grows (before counted after : MetricsSummary F) : Prop where
  counts : after.counts = before.counts + counted.counts
  calls : after.toolCallCount = before.toolCallCount + counted.toolCallCount
  failures : after.toolFailureCount = before.toolFailureCount + counted.toolFailureCount
  prompt : after.totalPromptTokens = before.totalPromptTokens + counted.totalPromptTokens
  completion : after.totalCompletionTokens = before.totalCompletionTokens + counted.totalCompletionTokens

/-- The row of the call is written, if it has one. -/
def MetricsOp.Written : MetricsOp F → Prop
  | .recordTask _ written => written = true
  | .recordToolCall _ written => written = true
  | .recordTokenUsage _ written => written = true
  | _ => True

/-- What tables have over all their rows. -/
def MetricsDb.counted (db : MetricsDb F) : MetricsSummary F where
  counts := countRows db.tasks
  toolCallCount := db.tools.length
  toolFailureCount := db.tools.countP (!·.success)
  totalPromptTokens := (db.tokens.map (·.promptTokens)).sum
  totalCompletionTokens := (db.tokens.map (·.completionTokens)).sum
  totalCost := fl.zero
  avgTaskLatencyMs := fl.zero

variable {fl}

/-- One call counts what it writes. -/
theorem record_grows {db₀ : MetricsDb F} (op : MetricsOp F) (s : RuntimeMetricsRecorder F × MetricsDb F)
    (h : MetricsSummary.Grows (db₀.counted fl) (s.1.summary fl) (s.2.counted fl)) (hw : op.Written) :
    let s' := RuntimeMetricsRecorder.record fl op s
    MetricsSummary.Grows (db₀.counted fl) (s'.1.summary fl) (s'.2.counted fl) := by
  obtain ⟨r, db⟩ := s
  cases op with
  | recordTask row written =>
    obtain rfl : written = true := hw
    refine ⟨?_, h.calls, h.failures, h.prompt, h.completion⟩
    have hcounts : countRows db.tasks = countRows db₀.tasks + r.counts := h.counts
    show countRows (db.tasks ++ [row]) = countRows db₀.tasks + r.counts.count row.status
    rw [countRows_append, hcounts, StatusCounts.count_add]
  | recordToolCall row written =>
    obtain rfl : written = true := hw
    have hcalls : db.tools.length = db₀.tools.length + r.toolCallCount := h.calls
    have hfailures : db.tools.countP (!·.success) = db₀.tools.countP (!·.success) + r.toolFailureCount := h.failures
    refine ⟨h.counts, ?_, ?_, h.prompt, h.completion⟩
    · show (db.tools ++ [row]).length = db₀.tools.length + (r.toolCallCount + 1)
      rw [List.length_append, hcalls]
      rfl
    · show (db.tools ++ [row]).countP (!·.success) = db₀.tools.countP (!·.success) +
        (if !row.success then r.toolFailureCount + 1 else r.toolFailureCount)
      rw [List.countP_append, hfailures]
      cases hs : row.success <;> simp [hs, Nat.add_assoc]
  | recordTokenUsage row written =>
    obtain rfl : written = true := hw
    have hprompt : (db.tokens.map (·.promptTokens)).sum = (db₀.tokens.map (·.promptTokens)).sum + r.totalPromptTokens :=
      h.prompt
    have hcompletion : (db.tokens.map (·.completionTokens)).sum =
        (db₀.tokens.map (·.completionTokens)).sum + r.totalCompletionTokens := h.completion
    refine ⟨h.counts, h.calls, h.failures, ?_, ?_⟩
    · show ((db.tokens ++ [row]).map (·.promptTokens)).sum =
        (db₀.tokens.map (·.promptTokens)).sum + (r.totalPromptTokens + row.promptTokens)
      rw [List.map_append, List.sum_append, hprompt, List.map_singleton, List.sum_singleton, add_assoc]
    · show ((db.tokens ++ [row]).map (·.completionTokens)).sum =
        (db₀.tokens.map (·.completionTokens)).sum + (r.totalCompletionTokens + row.completionTokens)
      rw [List.map_append, List.sum_append, hcompletion, List.map_singleton, List.sum_singleton, add_assoc]
  | recordSkillMatch count => exact ⟨h.counts, h.calls, h.failures, h.prompt, h.completion⟩
  | recordCacheHit => exact ⟨h.counts, h.calls, h.failures, h.prompt, h.completion⟩
  | recordCacheMiss => exact ⟨h.counts, h.calls, h.failures, h.prompt, h.completion⟩

/-- The tables have their old rows first. -/
structure MetricsDb.Extends (db db₀ : MetricsDb F) : Prop where
  tasks : db₀.tasks <+: db.tasks
  tools : db₀.tools <+: db.tools
  tokens : db₀.tokens <+: db.tokens

theorem record_extends {db₀ : MetricsDb F} (op : MetricsOp F) (s : RuntimeMetricsRecorder F × MetricsDb F)
    (h : s.2.Extends db₀) : (RuntimeMetricsRecorder.record fl op s).2.Extends db₀ := by
  obtain ⟨r, db⟩ := s
  cases op with
  | recordTask row written =>
    cases written with
    | true => exact ⟨h.tasks.trans (List.prefix_append _ _), h.tools, h.tokens⟩
    | false => exact h
  | recordToolCall row written =>
    cases written with
    | true => exact ⟨h.tasks, h.tools.trans (List.prefix_append _ _), h.tokens⟩
    | false => exact h
  | recordTokenUsage row written =>
    cases written with
    | true => exact ⟨h.tasks, h.tools, h.tokens.trans (List.prefix_append _ _)⟩
    | false => exact h
  | recordSkillMatch count => exact h
  | recordCacheHit => exact h
  | recordCacheMiss => exact h

/-- What a run counts is what it adds to the tables. -/
theorem metricsRun_grows {ops : List (MetricsOp F)} (hw : ∀ op ∈ ops, op.Written) (db : MetricsDb F) :
    MetricsSummary.Grows (db.counted fl) ((metricsRun fl ops db).1.summary fl) ((metricsRun fl ops db).2.counted fl) ∧
      (metricsRun fl ops db).2.Extends db := by
  have hmeets : ∀ s : RuntimeMetricsRecorder F × MetricsDb F,
      Mealy.Meets (fun op _ => op.Written) (fun op s => (RuntimeMetricsRecorder.record fl op s, ())) ops s := by
    induction ops with
    | nil => exact fun _ => trivial
    | cons op ops ih => exact fun s => ⟨hw op List.mem_cons_self, ih (fun op' h => hw op' (List.mem_cons_of_mem _ h)) _⟩
  have hstart : MetricsSummary.Grows (db.counted fl) ((RuntimeMetricsRecorder.new fl).summary fl) (db.counted fl) :=
    ⟨rfl, rfl, rfl, (add_zero _).symm, (add_zero _).symm⟩
  have hself : db.Extends db := ⟨List.prefix_rfl, List.prefix_rfl, List.prefix_rfl⟩
  refine Mealy.invariant
    (I := fun s => MetricsSummary.Grows (db.counted fl) (s.1.summary fl) (s.2.counted fl) ∧ s.2.Extends db)
    (fun op s h hop => ⟨record_grows op s h.1 hop, record_extends op s h.2⟩) ?_ (hmeets _)
  exact ⟨hstart, hself⟩

/-! ## What a query without a range counts -/

/-- No table is longer than the limit of a query. -/
structure MetricsDb.Within (limit : ℤ) (db : MetricsDb F) : Prop where
  tasks : db.tasks.length ≤ normalizeLimit limit
  tools : db.tools.length ≤ normalizeLimit limit
  tokens : db.tokens.length ≤ normalizeLimit limit

theorem MetricsDb.Within.of_extends {limit : ℤ} {db db₀ : MetricsDb F} (h : db.Within limit) (hdb : db.Extends db₀) :
    db₀.Within limit :=
  ⟨hdb.tasks.length_le.trans h.tasks, hdb.tools.length_le.trans h.tools, hdb.tokens.length_le.trans h.tokens⟩

/-- The two count the same. -/
structure MetricsSummary.SameCounts (a b : MetricsSummary F) : Prop where
  counts : a.counts = b.counts
  calls : a.toolCallCount = b.toolCallCount
  failures : a.toolFailureCount = b.toolFailureCount
  prompt : a.totalPromptTokens = b.totalPromptTokens
  completion : a.totalCompletionTokens = b.totalCompletionTokens

theorem MetricsSummary.Grows.of_same {before before' counted after after' : MetricsSummary F}
    (h : MetricsSummary.Grows before counted after) (hb : before'.SameCounts before) (ha : after'.SameCounts after) :
    MetricsSummary.Grows before' counted after' where
  counts := by rw [ha.counts, hb.counts, h.counts]
  calls := by rw [ha.calls, hb.calls, h.calls]
  failures := by rw [ha.failures, hb.failures, h.failures]
  prompt := by rw [ha.prompt, hb.prompt, h.prompt]
  completion := by rw [ha.completion, hb.completion, h.completion]

section
variable {ρ : Type} {timestamp : ρ → DateTime} {scan : Scan ρ} {limit : ℤ} {t : List ρ}

theorem SQLiteMetricsStore.rows_perm (h : t.length ≤ normalizeLimit limit) :
    (SQLiteMetricsStore.rows timestamp scan { limit := limit } t).Perm t := by
  have hselect : sqliteSelect timestamp (fun _ => true) utcOffset none none t = t :=
    List.filter_eq_self.mpr fun _ _ => rfl
  unfold SQLiteMetricsStore.rows
  rw [hselect, List.take_of_length_le (Table.perm_orderDesc.length_eq.trans_le h)]
  exact Table.perm_orderDesc

theorem PostgresMetricsStore.rows_perm (h : t.length ≤ normalizeLimit limit) :
    (PostgresMetricsStore.rows timestamp scan { limit := limit } t).Perm t := by
  have hselect : postgresSelect timestamp (fun _ => true) utcOffset none none t = t :=
    List.filter_eq_self.mpr fun _ _ => rfl
  unfold PostgresMetricsStore.rows
  rw [hselect, List.take_of_length_le (Table.perm_orderDesc.length_eq.trans_le h)]
  exact Table.perm_orderDesc

end

theorem taskCounts_eq (rows : List (TaskMetricRow F)) (acc : StatusCounts × List F) :
    rows.foldl (fun (acc : StatusCounts × List F) row => (acc.1.count row.status, acc.2 ++ row.latencyMs.toList)) acc =
      (rows.foldl (fun c row => c.count row.status) acc.1, acc.2 ++ rows.flatMap fun row => row.latencyMs.toList) := by
  induction rows generalizing acc with
  | nil => simp
  | cons row rows ih =>
    rw [List.foldl_cons, ih]
    simp

theorem callCounts_eq (rows : List (ToolMetricRow F)) (acc : ℕ × ℕ) :
    rows.foldl (fun (acc : ℕ × ℕ) row => (acc.1 + 1, if !row.success then acc.2 + 1 else acc.2)) acc =
      (acc.1 + rows.length, acc.2 + rows.countP (!·.success)) := by
  induction rows generalizing acc with
  | nil => rfl
  | cons row rows ih =>
    rw [List.foldl_cons, ih, List.countP_cons, List.length_cons]
    cases hs : row.success <;> simp <;> omega

theorem toolTotals_calls (rows : List (ToolMetricRow F)) (t : ToolTotals F) :
    ((rows.foldl ToolTotals.add t).toolCallCount, (rows.foldl ToolTotals.add t).toolFailureCount) =
      rows.foldl (fun (acc : ℕ × ℕ) row => (acc.1 + 1, if !row.success then acc.2 + 1 else acc.2))
        (t.toolCallCount, t.toolFailureCount) := by
  induction rows generalizing t with
  | nil => rfl
  | cons row rows ih => exact ih _

variable (fl) in
/-- The summary of some rows. -/
def summaryOf (tasks : List (TaskMetricRow F)) (tools : List (ToolMetricRow F)) (tokens : List (TokenUsageRow F)) :
    MetricsSummary F where
  counts := countRows tasks
  toolCallCount := tools.length
  toolFailureCount := tools.countP (!·.success)
  totalPromptTokens := (tokens.map (·.promptTokens)).sum
  totalCompletionTokens := (tokens.map (·.completionTokens)).sum
  totalCost := tokens.foldl (fun cost row => fl.add cost row.cost) fl.zero
  avgTaskLatencyMs := fl.average (tasks.flatMap fun row => row.latencyMs.toList)

theorem SQLiteMetricsStore.summary_eq (scan : MetricsScan F) (q : MetricsQuery) (db : MetricsDb F) :
    SQLiteMetricsStore.summary fl scan q db =
      summaryOf fl (SQLiteMetricsStore.rows (·.timestamp) scan.tasks q db.tasks)
        (SQLiteMetricsStore.rows (·.timestamp) scan.tools q db.tools)
        (SQLiteMetricsStore.rows (·.timestamp) scan.tokens q db.tokens) := by
  unfold SQLiteMetricsStore.summary summaryOf
  rw [taskCounts_eq, callCounts_eq, costCounts_eq]
  simp [countRows]

theorem PostgresMetricsStore.summary_eq (scan : MetricsScan F) (q : MetricsQuery) (db : MetricsDb F) :
    PostgresMetricsStore.summary fl scan q db =
      summaryOf fl (PostgresMetricsStore.rows (·.timestamp) scan.tasks q db.tasks)
        (PostgresMetricsStore.rows (·.timestamp) scan.tools q db.tools)
        (PostgresMetricsStore.rows (·.timestamp) scan.tokens q db.tokens) := by
  have hcalls := toolTotals_calls (PostgresMetricsStore.rows (·.timestamp) scan.tools q db.tools) {}
  rw [callCounts_eq, Prod.mk.injEq] at hcalls
  unfold PostgresMetricsStore.summary PostgresMetricsStore.taskSummary PostgresMetricsStore.toolSummary
    PostgresMetricsStore.costSummary taskSummaryOf toolSummaryOf costSummaryOf summaryOf
  dsimp only
  rw [taskTotals_eq, hcalls.1, hcalls.2, costTotals_eq, costCounts_eq]
  simp [countRows]

theorem summaryOf_counted {db : MetricsDb F} {tasks : List (TaskMetricRow F)} {tools : List (ToolMetricRow F)}
    {tokens : List (TokenUsageRow F)} (htasks : tasks.Perm db.tasks) (htools : tools.Perm db.tools)
    (htokens : tokens.Perm db.tokens) : (summaryOf fl tasks tools tokens).SameCounts (db.counted fl) where
  counts := countRows_perm htasks
  calls := htools.length_eq
  failures := htools.countP_eq _
  prompt := (htokens.map _).sum_eq
  completion := (htokens.map _).sum_eq

theorem SQLiteMetricsStore.summary_counted (scan : MetricsScan F) {limit : ℤ} {db : MetricsDb F} (h : db.Within limit) :
    (SQLiteMetricsStore.summary fl scan { limit := limit } db).SameCounts (db.counted fl) := by
  rw [SQLiteMetricsStore.summary_eq]
  exact summaryOf_counted (rows_perm h.tasks) (rows_perm h.tools) (rows_perm h.tokens)

theorem PostgresMetricsStore.summary_counted (scan : MetricsScan F) {limit : ℤ} {db : MetricsDb F}
    (h : db.Within limit) :
    (PostgresMetricsStore.summary fl scan { limit := limit } db).SameCounts (db.counted fl) := by
  rw [PostgresMetricsStore.summary_eq]
  exact summaryOf_counted (rows_perm h.tasks) (rows_perm h.tools) (rows_perm h.tokens)

variable (fl)

/-- **What is counted is stored.**  Over any run of calls whose rows are all written, the summary of a store without
a range grows by what the recorder counts, on whatever tables it started, as long as no table is longer than the
limit. -/
theorem recorder_counts_stored (ops : List (MetricsOp F)) (db : MetricsDb F) (scan scan' : MetricsScan F) (limit : ℤ)
    (hw : ∀ op ∈ ops, op.Written) (hlimit : (metricsRun fl ops db).2.Within limit) :
    MetricsSummary.Grows (SQLiteMetricsStore.summary fl scan { limit := limit } db)
        ((metricsRun fl ops db).1.summary fl)
        (SQLiteMetricsStore.summary fl scan' { limit := limit } (metricsRun fl ops db).2) ∧
      MetricsSummary.Grows (PostgresMetricsStore.summary fl scan { limit := limit } db)
        ((metricsRun fl ops db).1.summary fl)
        (PostgresMetricsStore.summary fl scan' { limit := limit } (metricsRun fl ops db).2) := by
  obtain ⟨hgrows, hext⟩ := metricsRun_grows hw db
  have hbefore := hlimit.of_extends hext
  exact ⟨hgrows.of_same (SQLiteMetricsStore.summary_counted scan hbefore)
      (SQLiteMetricsStore.summary_counted scan' hlimit),
    hgrows.of_same (PostgresMetricsStore.summary_counted scan hbefore)
      (PostgresMetricsStore.summary_counted scan' hlimit)⟩

/-- Latencies and costs that are added without rounding. -/
def FloatOps.exact : FloatOps ℚ := ⟨0, (· + ·), fun values => values.sum / values.length⟩

def MetricsScan.inserted (F : Type) : MetricsScan F := ⟨.inserted _, .inserted _, .inserted _⟩

/-- A task that waits for its approval, and one that fails after a retried call. -/
def demoCalls : List (MetricsOp ℚ) :=
  [.recordTokenUsage ⟨.ofHour 2026 1 2 9 (by decide), "t1", 120, 30, 1 / 4⟩ true,
    .recordTask ⟨.ofHour 2026 1 2 10 (by decide), "t1", "nl2sql", "waiting_approval", some (1 / 2)⟩ true,
    .recordCacheHit,
    .recordToolCall ⟨.ofHour 2026 1 3 9 (by decide), "t2", "sql_query", false, none, 2⟩ true,
    .recordTask ⟨.ofHour 2026 1 3 10 (by decide), "t2", "", "failed", some 3⟩ true]

theorem recorder_counts_stored_demo :
    MetricsSummary.Grows (SQLiteMetricsStore.summary .exact (.inserted ℚ) { limit := 100 } {})
        ((metricsRun .exact demoCalls {}).1.summary .exact)
        (SQLiteMetricsStore.summary .exact (.inserted ℚ) { limit := 100 } (metricsRun .exact demoCalls {}).2) ∧
      MetricsSummary.Grows (PostgresMetricsStore.summary .exact (.inserted ℚ) { limit := 100 } {})
        ((metricsRun .exact demoCalls {}).1.summary .exact)
        (PostgresMetricsStore.summary .exact (.inserted ℚ) { limit := 100 } (metricsRun .exact demoCalls {}).2) :=
  recorder_counts_stored .exact demoCalls {} (.inserted ℚ) (.inserted ℚ) 100 (by simp [demoCalls, MetricsOp.Written])
    ⟨by decide, by decide, by decide⟩

/-- **The parts of a summary.**  Whatever the stores have and however they are asked, the statuses share the tasks,
and the modes, tools and days share what is counted over all. -/
theorem summaries_consistent (scan : MetricsScan F) (q : MetricsQuery) (db : MetricsDb F) :
    ((SQLiteMetricsStore.taskSummary fl scan q db).Consistent ∧
        (SQLiteMetricsStore.toolSummary fl scan q db).Consistent ∧
        (SQLiteMetricsStore.costSummary fl scan q db).Consistent) ∧
      (PostgresMetricsStore.taskSummary fl scan q db).Consistent ∧
        (PostgresMetricsStore.toolSummary fl scan q db).Consistent ∧
        (PostgresMetricsStore.costSummary fl scan q db).Consistent :=
  ⟨⟨taskSummaryOf_consistent _, toolSummaryOf_consistent _, costSummaryOf_consistent _ _⟩,
    taskSummaryOf_consistent _, toolSummaryOf_consistent _, costSummaryOf_consistent _ _⟩

/-! ## The two stores -/

section
variable {offset : List Char}

theorem micro_pad {n : ℕ} (h : n < 10 ^ 6) : micro (pad 6 n) = n := by
  unfold micro
  rw [List.take_of_length_le (pad_length 6 n).le, pad_length, digitsValue_pad h]
  exact Nat.mul_one n

/-- What `isoformat` writes is read back. -/
theorem fromisoformat_isoformat (ho : IsOffset offset) (e : DateTime) :
    fromisoformat offset (e.isoformat offset) = some e := by
  by_cases hu : e.clock.microsecond = 0
  · have hread := (readBound_iff ho (e.isoformat offset) ⟨e, .time false .second, hu⟩).mpr (by
      unfold DateTime.isoformat Clock.text Bound.text Precision.text fraction
      simp [hu])
    exact fromisoformat_of_read hread
  · have hmicro := e.clock.microsecond_lt
    have hdigits : pad 6 e.clock.microsecond ≠ [] := by
      intro h
      have hlen := pad_length 6 e.clock.microsecond
      rw [h] at hlen
      cases hlen
    have hfits : (Form.time false (.decimals (pad 6 e.clock.microsecond))).Fits e.clock :=
      ⟨hdigits, pad_digits 6 hmicro, (micro_pad hmicro).symm⟩
    have hread := (readBound_iff ho (e.isoformat offset) ⟨e, _, hfits⟩).mpr (by
      unfold DateTime.isoformat Clock.text Bound.text Precision.text fraction
      simp [hu])
    exact fromisoformat_of_read hread

end

/-- The bounds of the range are written as `isoformat` writes them. -/
structure MetricsQuery.Exact (q : MetricsQuery) : Prop where
  startTime : ∀ text ∈ q.startTime, ∃ e : DateTime, text = e.isoformat utcOffset
  endTime : ∀ text ∈ q.endTime, ∃ e : DateTime, text = e.isoformat utcOffset

section
variable {ρ : Type} {timestamp : ρ → DateTime} {t : List ρ}

/-- No two rows have one time. -/
def DistinctTimes (timestamp : ρ → DateTime) (t : List ρ) : Prop :=
  ∀ a ∈ t, ∀ b ∈ t, (timestamp a).compare (timestamp b) = .eq → a = b

theorem metricsSelect_agree {q : MetricsQuery} (hq : q.Exact) :
    sqliteSelect timestamp (fun _ => true) utcOffset q.startTime q.endTime t =
      postgresSelect timestamp (fun _ => true) utcOffset q.startTime q.endTime t := by
  have ho : IsOffset utcOffset := by decide
  unfold sqliteSelect postgresSelect timeConditions
  refine List.filter_congr fun e _ => ?_
  rw [List.all_append, Bool.true_and, Bool.true_and]
  congr 1
  · cases hs : q.startTime with
    | none => rfl
    | some text =>
      obtain ⟨x, rfl⟩ := hq.startTime text hs
      dsimp only
      rw [Option.bind_some, fromisoformat_isoformat ho, Option.all_some, ← compare_isoformat ho]
      exact Bool.and_true _
  · cases hs : q.endTime with
    | none => rfl
    | some text =>
      obtain ⟨y, rfl⟩ := hq.endTime text hs
      dsimp only
      rw [Option.bind_some, fromisoformat_isoformat ho, Option.all_some, ← compare_isoformat ho]
      exact Bool.and_true _

theorem metricsRows_agree {q : MetricsQuery} (hq : q.Exact) (ht : DistinctTimes timestamp t) (scan scan' : Scan ρ) :
    SQLiteMetricsStore.rows timestamp scan q t = PostgresMetricsStore.rows timestamp scan' q t := by
  have ho : IsOffset utcOffset := by decide
  unfold SQLiteMetricsStore.rows PostgresMetricsStore.rows
  rw [metricsSelect_agree hq]
  congr 1
  refine Table.orderDesc_eq (fun a b => compare_isoformat ho _ _) scan scan' fun a ha b hb hab => ?_
  rw [compare_isoformat ho] at hab
  exact ht a (List.mem_of_mem_filter ha) b (List.mem_of_mem_filter hb) hab

theorem orderAsc_agree (ht : DistinctTimes timestamp t) (scan scan' : Scan ρ) :
    Table.orderAsc compare (fun r => (timestamp r).isoformat utcOffset) scan t =
      Table.orderAsc DateTime.compare timestamp scan' t := by
  have ho : IsOffset utcOffset := by decide
  refine Table.orderAsc_congr (fun a b => compare_isoformat ho _ _) scan scan' fun a ha b hb hab => ?_
  rw [compare_isoformat ho] at hab
  exact ht a ha b hb hab

end

/-- From the morning of the second day on. -/
def demoQuery : MetricsQuery where
  startTime := some ((DateTime.ofHour 2026 1 2 10 (by decide)).isoformat utcOffset)

end AgentHarness
