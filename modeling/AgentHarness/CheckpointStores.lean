import AgentHarness.Lib.IsoTime
import AgentHarness.Lib.Table
import AgentHarness.PyVal

/-!
# CheckpointStores — the graph checkpoint store on SQLite and on Postgres

Both stores keep one row for a checkpoint.  SQLite holds times as `isoformat` texts, JSON as the text of `json.dumps` and
flags as integers; Postgres holds timestamps, JSON texts that its driver writes, and booleans, and its `INTEGER` has 32 bits
and its texts no NUL.  A row is `GraphRunState` over these column types, and `GraphRunState.map` goes from one
representation to another.

The operations get the reading of the clock they make.
-/

namespace AgentHarness

open Lib

/-- A row of `graph_run_states`, over the types of its time, JSON and flag columns. -/
structure GraphRunState (τ ι β : Type) where
  checkpointId : String
  taskId : String
  approvalId : Option String
  graphThreadId : Option String
  runId : Option String
  status : String
  currentNode : Option String
  graphState : ι
  pendingInterrupt : ι
  resumePayload : ι
  resultSnapshot : ι
  consumed : β
  resumedAt : Option τ
  createdAt : τ
  updatedAt : τ
  expiresAt : Option τ
  schemaVersion : ℤ
  resumeAttemptCount : ℤ
  lastResumeError : Option String
  lockedBy : Option String
  lockedAt : Option τ

namespace GraphRunState

variable {τ ι β τ' ι' β' : Type}

/-- The row in another representation. -/
def map (time : τ → τ') (json : ι → ι') (flag : β → β') (r : GraphRunState τ ι β) : GraphRunState τ' ι' β' where
  checkpointId := r.checkpointId
  taskId := r.taskId
  approvalId := r.approvalId
  graphThreadId := r.graphThreadId
  runId := r.runId
  status := r.status
  currentNode := r.currentNode
  graphState := json r.graphState
  pendingInterrupt := json r.pendingInterrupt
  resumePayload := json r.resumePayload
  resultSnapshot := json r.resultSnapshot
  consumed := flag r.consumed
  resumedAt := r.resumedAt.map time
  createdAt := time r.createdAt
  updatedAt := time r.updatedAt
  expiresAt := r.expiresAt.map time
  schemaVersion := r.schemaVersion
  resumeAttemptCount := r.resumeAttemptCount
  lastResumeError := r.lastResumeError
  lockedBy := r.lockedBy
  lockedAt := r.lockedAt.map time

end GraphRunState

/-- The arguments of `create_checkpoint`. -/
structure CheckpointArgs where
  checkpointId : String
  taskId : String
  graphState : Dict
  approvalId : Option String := none
  graphThreadId : Option String := none
  runId : Option String := none
  status : String := "running"
  currentNode : Option String := none
  pendingInterrupt : Option Dict := none
  resumePayload : Option Dict := none
  resultSnapshot : Option Dict := none
  consumed : Bool := false
  resumedAt : Option DateTime := none
  createdAt : Option DateTime := none
  updatedAt : Option DateTime := none
  expiresAt : Option DateTime := none
  schemaVersion : ℤ := 1
  resumeAttemptCount : ℤ := 0
  lastResumeError : Option String := none
  lockedBy : Option String := none
  lockedAt : Option DateTime := none

/-- The row that the arguments describe: `created_at or now`, `updated_at or created_at or now`. -/
def CheckpointArgs.row (a : CheckpointArgs) (now : DateTime) : GraphRunState DateTime (Option Dict) Bool where
  checkpointId := a.checkpointId
  taskId := a.taskId
  approvalId := a.approvalId
  graphThreadId := a.graphThreadId
  runId := a.runId
  status := a.status
  currentNode := a.currentNode
  graphState := some a.graphState
  pendingInterrupt := a.pendingInterrupt
  resumePayload := a.resumePayload
  resultSnapshot := a.resultSnapshot
  consumed := a.consumed
  resumedAt := a.resumedAt
  createdAt := a.createdAt.getD now
  updatedAt := (a.updatedAt.or a.createdAt).getD now
  expiresAt := a.expiresAt
  schemaVersion := a.schemaVersion
  resumeAttemptCount := a.resumeAttemptCount
  lastResumeError := a.lastResumeError
  lockedBy := a.lockedBy
  lockedAt := a.lockedAt

/-- The texts among the arguments. -/
def CheckpointArgs.texts (a : CheckpointArgs) : List String :=
  [a.checkpointId, a.taskId, a.status] ++
    [a.approvalId, a.graphThreadId, a.runId, a.currentNode, a.lastResumeError, a.lockedBy].reduceOption

/-- An operation of the store. -/
inductive CheckpointOp
  | create (args : CheckpointArgs)
  | get (checkpointId : String)
  | getLatest (taskId : String)
  | markPending (checkpointId approvalId : String) (payload : Dict) (graphState : Option Dict)
  | claim (checkpointId approvalId : String)
  | markResumed (checkpointId : String) (resumePayload : Dict) (resultSnapshot : Option Dict)
  | markCancelled (checkpointId reason : String)
  | expireOld (now : Option DateTime)

/-- What a store raises. -/
inductive CheckpointError
  | valueError (message : String)
  /-- an integer that a column of SQLite does not hold -/
  | overflowError
  /-- an integer or a text that a column of Postgres does not hold -/
  | dataError
  deriving DecidableEq

/-- What an operation returns: a dict or `None`, a number of rows, or an error. -/
inductive CheckpointResult
  | state (row : Option (GraphRunState (List Char) PyVal Bool))
  | changed (rows : ℕ)
  | raised (error : CheckpointError)

def alreadyExists (checkpointId : String) : CheckpointResult := .raised (.valueError (checkpointId ++ " already exists"))

/-- `json`, and what the dialect does with a JSON column. -/
structure JsonCodec where
  /-- `json.dumps(value, ensure_ascii=False, default=str)` -/
  dumps : Dict → List Char
  /-- `json.dumps(value)` -/
  serialize : Dict → List Char
  /-- `json.loads`, if it reads the text -/
  loads : List Char → Option PyVal
  loads_null : loads "null".toList = some .null

/-- The text, written either way, is read back. -/
def JsonCodec.RoundTrips (codec : JsonCodec) (d : Dict) : Prop :=
  codec.dumps d ≠ [] ∧ codec.loads (codec.dumps d) = some (.dict d.jsonable) ∧
    codec.loads (codec.serialize d) = some (.dict d.jsonable)

/-! ## SQLite -/

namespace SQLiteGraphCheckpointStore

variable (codec : JsonCodec)

abbrev Row := GraphRunState (List Char) (Option (List Char)) ℤ

/-- `_format_dt` of a naive `datetime` -/
def formatDt (d : DateTime) : List Char := d.isoformat []

/-- `_json_dumps` -/
def jsonDumps : Option Dict → Option (List Char)
  | none => none
  | some d => some (codec.dumps d)

/-- `_json_loads` -/
def jsonLoads : Option (List Char) → PyVal
  | none => .null
  | some [] => .null
  | some (c :: cs) => (codec.loads (c :: cs)).getD .null

def encode (r : GraphRunState DateTime (Option Dict) Bool) : Row :=
  r.map formatDt (jsonDumps codec) fun b => if b then 1 else 0

/-- `_row_to_dict` -/
def rowToDict (r : Row) : GraphRunState (List Char) PyVal Bool := r.map id (jsonLoads codec) fun consumed => consumed ≠ 0

def int64 (n : ℤ) : Bool := -2 ^ 63 ≤ n && n < 2 ^ 63

/-- `get_checkpoint` -/
def getCheckpoint (id : String) (t : List Row) : CheckpointResult :=
  .state ((t.find? fun r => r.checkpointId = id).map (rowToDict codec))

/-- `create_checkpoint` -/
def createCheckpoint (now : DateTime) (a : CheckpointArgs) (t : List Row) : List Row × CheckpointResult :=
  if !int64 a.schemaVersion || !int64 a.resumeAttemptCount then (t, .raised .overflowError)
  else if t.any fun r => r.checkpointId = a.checkpointId then (t, alreadyExists a.checkpointId)
  else
    let t := t ++ [encode codec (a.row now)]
    (t, getCheckpoint codec a.checkpointId t)

/-- `get_latest_for_task` -/
def getLatestForTask (scan : Scan Row) (taskId : String) (t : List Row) : CheckpointResult :=
  .state ((Table.orderDesc compare (·.createdAt) scan
    (t.filter fun r => r.taskId = taskId)).head?.map (rowToDict codec))

/-- `mark_pending_interrupt` -/
def markPendingInterrupt (now : DateTime) (id approvalId : String) (payload : Dict) (graphState : Option Dict)
    (t : List Row) : List Row × CheckpointResult :=
  let t := Table.update (fun r => r.checkpointId = id) (fun r =>
    { r with
      approvalId := some approvalId
      pendingInterrupt := jsonDumps codec (some payload)
      status := "interrupted"
      updatedAt := formatDt now
      graphState := if graphState.isSome then jsonDumps codec graphState else r.graphState }) t
  (t, getCheckpoint codec id t)

/-- The `WHERE` of `claim_for_resume` -/
def claimable (now : DateTime) (id approvalId : String) (r : Row) : Bool :=
  r.checkpointId = id && r.approvalId = some approvalId && r.consumed = 0 && r.status = "interrupted" &&
    match r.expiresAt with
    | none => true
    | some text => text = [] || (compare text (formatDt now)).isGT

/-- The `SET` of `claim_for_resume`; the count stays below the 64 bits at which SQLite goes on with floats. -/
def claimed (now : DateTime) (r : Row) : Row :=
  { r with
    status := "resuming"
    lockedAt := some (formatDt now)
    updatedAt := formatDt now
    resumeAttemptCount := r.resumeAttemptCount + 1 }

/-- `claim_for_resume` -/
def claimForResume (now : DateTime) (id approvalId : String) (t : List Row) : List Row × CheckpointResult :=
  let changed := t.countP (claimable now id approvalId)
  let t := Table.update (claimable now id approvalId) (claimed now) t
  if changed ≠ 1 then (t, .state none) else (t, getCheckpoint codec id t)

/-- `mark_resumed` -/
def markResumed (now : DateTime) (id : String) (resumePayload : Dict) (resultSnapshot : Option Dict) (t : List Row) :
    List Row × CheckpointResult :=
  let t := Table.update (fun r => r.checkpointId = id) (fun r =>
    { r with
      status := "resumed"
      consumed := 1
      resumedAt := some (formatDt now)
      updatedAt := formatDt now
      resumePayload := jsonDumps codec (some resumePayload)
      resultSnapshot := jsonDumps codec resultSnapshot }) t
  (t, getCheckpoint codec id t)

/-- `mark_cancelled` -/
def markCancelled (now : DateTime) (id reason : String) (t : List Row) : List Row × CheckpointResult :=
  let t := Table.update (fun r => r.checkpointId = id) (fun r =>
    { r with status := "cancelled", consumed := 1, updatedAt := formatDt now, lastResumeError := some reason }) t
  (t, getCheckpoint codec id t)

/-- The `WHERE` of `expire_old` -/
def expirable (nowText : List Char) (r : Row) : Bool :=
  r.consumed = 0 &&
    match r.expiresAt with
    | none => false
    | some text => text ≠ [] && (compare text nowText).isLE

def expired (nowText : List Char) (r : Row) : Row := { r with status := "expired", consumed := 1, updatedAt := nowText }

/-- `expire_old` -/
def expireOld (clock : DateTime) (now : Option DateTime) (t : List Row) : List Row × CheckpointResult :=
  let nowText := (now.map formatDt).getD (formatDt clock)
  (Table.update (expirable nowText) (expired nowText) t, .changed (t.countP (expirable nowText)))

def step (scan : Scan Row) (now : DateTime) (op : CheckpointOp) (t : List Row) : List Row × CheckpointResult :=
  match op with
  | .create args => createCheckpoint codec now args t
  | .get id => (t, getCheckpoint codec id t)
  | .getLatest taskId => (t, getLatestForTask codec scan taskId t)
  | .markPending id approvalId payload graphState => markPendingInterrupt codec now id approvalId payload graphState t
  | .claim id approvalId => claimForResume codec now id approvalId t
  | .markResumed id resumePayload resultSnapshot => markResumed codec now id resumePayload resultSnapshot t
  | .markCancelled id reason => markCancelled codec now id reason t
  | .expireOld bound => expireOld now bound t

/-- The operations one after the other, each with its reading of the clock: the rows they reach, and their results. -/
def run (scan : Scan Row) : List (DateTime × CheckpointOp) → List Row → List Row × List CheckpointResult
  | [], t => (t, [])
  | (now, op) :: ops, t =>
    let (t, result) := step codec scan now op t
    let (t, results) := run scan ops t
    (t, result :: results)

end SQLiteGraphCheckpointStore

/-! ## Postgres -/

namespace PostgresGraphCheckpointStore

variable (codec : JsonCodec)

abbrev Row := GraphRunState DateTime (Option (List Char)) Bool

/-- A JSON column takes `None` as the JSON text `null`. -/
def bindJson : Option Dict → Option (List Char)
  | none => some "null".toList
  | some d => some (codec.serialize d)

def readJson : Option (List Char) → PyVal
  | none => .null
  | some text => (codec.loads text).getD .null

def encode (r : GraphRunState DateTime (Option Dict) Bool) : Row := r.map id (bindJson codec) id

/-- `_row_to_dict` -/
def rowToDict (r : Row) : GraphRunState (List Char) PyVal Bool := r.map (·.isoformat []) (readJson codec) id

def int32 (n : ℤ) : Bool := -2 ^ 31 ≤ n && n < 2 ^ 31

/-- The driver refuses a text with NUL in it. -/
def hasNul (s : String) : Bool := s.toList.contains (Char.ofNat 0)

def refused : CheckpointResult := .raised .dataError

/-- `get_checkpoint` -/
def getCheckpoint (id : String) (t : List Row) : CheckpointResult :=
  if hasNul id then refused else .state ((t.find? fun r => r.checkpointId = id).map (rowToDict codec))

/-- `create_checkpoint` -/
def createCheckpoint (now : DateTime) (a : CheckpointArgs) (t : List Row) : List Row × CheckpointResult :=
  if hasNul a.checkpointId then (t, refused)
  else if t.any fun r => r.checkpointId = a.checkpointId then (t, alreadyExists a.checkpointId)
  else if a.texts.any hasNul then (t, refused)
  else if !int32 a.schemaVersion || !int32 a.resumeAttemptCount then (t, refused)
  else
    let t := t ++ [encode codec (a.row now)]
    (t, getCheckpoint codec a.checkpointId t)

/-- `get_latest_for_task` -/
def getLatestForTask (scan : Scan Row) (taskId : String) (t : List Row) : CheckpointResult :=
  if hasNul taskId then refused
  else
    .state ((Table.orderDesc DateTime.compare (·.createdAt) scan
      (t.filter fun r => r.taskId = taskId)).head?.map (rowToDict codec))

/-- A row is looked up, changed and written back with the texts that it gets. -/
def change (id : String) (texts : List String) (f : Row → Row) (t : List Row) : List Row × CheckpointResult :=
  if hasNul id then (t, refused)
  else if !t.any fun r => r.checkpointId = id then (t, .state none)
  else if texts.any hasNul then (t, refused)
  else
    let t := Table.update (fun r => r.checkpointId = id) f t
    (t, getCheckpoint codec id t)

/-- `mark_pending_interrupt` -/
def markPendingInterrupt (now : DateTime) (id approvalId : String) (payload : Dict) (graphState : Option Dict) :
    List Row → List Row × CheckpointResult :=
  change codec id [approvalId] fun r =>
    { r with
      approvalId := some approvalId
      pendingInterrupt := bindJson codec (some payload)
      graphState := if graphState.isSome then bindJson codec graphState else r.graphState
      status := "interrupted"
      updatedAt := now }

/-- The filter of `claim_for_resume` -/
def claimable (now : DateTime) (id approvalId : String) (r : Row) : Bool :=
  r.checkpointId = id && r.approvalId = some approvalId && !r.consumed && r.status = "interrupted" &&
    match r.expiresAt with
    | none => true
    | some expiresAt => (expiresAt.compare now).isGT

/-- The values of the update of `claim_for_resume` -/
def claimed (now : DateTime) (r : Row) : Row :=
  { r with
    status := "resuming"
    lockedAt := some now
    updatedAt := now
    resumeAttemptCount := r.resumeAttemptCount + 1 }

/-- `claim_for_resume` -/
def claimForResume (now : DateTime) (id approvalId : String) (t : List Row) : List Row × CheckpointResult :=
  if hasNul id || hasNul approvalId then (t, refused)
  else if t.any fun r => claimable now id approvalId r && !int32 (r.resumeAttemptCount + 1) then (t, refused)
  else
    let changed := t.countP (claimable now id approvalId)
    let t := Table.update (claimable now id approvalId) (claimed now) t
    if changed ≠ 1 then (t, .state none) else (t, getCheckpoint codec id t)

/-- `mark_resumed` -/
def markResumed (now : DateTime) (id : String) (resumePayload : Dict) (resultSnapshot : Option Dict) :
    List Row → List Row × CheckpointResult :=
  change codec id [] fun r =>
    { r with
      status := "resumed"
      consumed := true
      resumedAt := some now
      updatedAt := now
      resumePayload := bindJson codec (some resumePayload)
      resultSnapshot := bindJson codec resultSnapshot }

/-- `mark_cancelled` -/
def markCancelled (now : DateTime) (id reason : String) : List Row → List Row × CheckpointResult :=
  change codec id [reason] fun r =>
    { r with status := "cancelled", consumed := true, updatedAt := now, lastResumeError := some reason }

/-- The filter of `expire_old` -/
def expirable (now : DateTime) (r : Row) : Bool :=
  !r.consumed &&
    match r.expiresAt with
    | none => false
    | some expiresAt => (expiresAt.compare now).isLE

def expired (now : DateTime) (r : Row) : Row := { r with status := "expired", consumed := true, updatedAt := now }

/-- `expire_old` -/
def expireOld (clock : DateTime) (now : Option DateTime) (t : List Row) : List Row × CheckpointResult :=
  let now := now.getD clock
  (Table.update (expirable now) (expired now) t, .changed (t.countP (expirable now)))

def step (scan : Scan Row) (now : DateTime) (op : CheckpointOp) (t : List Row) : List Row × CheckpointResult :=
  match op with
  | .create args => createCheckpoint codec now args t
  | .get id => (t, getCheckpoint codec id t)
  | .getLatest taskId => (t, getLatestForTask codec scan taskId t)
  | .markPending id approvalId payload graphState => markPendingInterrupt codec now id approvalId payload graphState t
  | .claim id approvalId => claimForResume codec now id approvalId t
  | .markResumed id resumePayload resultSnapshot => markResumed codec now id resumePayload resultSnapshot t
  | .markCancelled id reason => markCancelled codec now id reason t
  | .expireOld bound => expireOld now bound t

def run (scan : Scan Row) : List (DateTime × CheckpointOp) → List Row → List Row × List CheckpointResult
  | [], t => (t, [])
  | (now, op) :: ops, t =>
    let (t, result) := step codec scan now op t
    let (t, results) := run scan ops t
    (t, result :: results)

end PostgresGraphCheckpointStore

end AgentHarness
