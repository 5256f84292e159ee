import AgentHarness.Lib.IsoTime
import AgentHarness.Lib.Table
import AgentHarness.Schemas

/-!
# TaskStores — the task store on SQLite and on Postgres

Both stores keep the result of a task as the text of `json.dumps`.  They part in three places: SQLite writes an update
without a result with what it reads of the old one, and an empty dict becomes `NULL`; its `INSERT OR REPLACE` takes the new
`created_at` of a task that is saved again, where Postgres keeps the old; and Postgres takes no NUL.
`task_stores_agree` says that nothing else parts them.
-/

namespace AgentHarness

open Lib

/-- `created_at` and `updated_at` of a task, with the offset as it is written. -/
structure Stamp where
  civil : DateTime
  offset : List Char

/-- `isoformat` -/
def Stamp.text (s : Stamp) : List Char := s.civil.isoformat s.offset

/-- What the stores read of a `TaskRun`. -/
structure TaskArgs where
  taskId : String
  query : String
  status : TaskStatus := .created
  result : PyVal := .null
  error : Option String := none
  createdAt : Stamp
  updatedAt : Stamp

/-- A row of `tasks` or `task_runs`, over the type of its time columns. -/
structure TaskRecord (τ : Type) where
  taskId : String
  query : String
  mode : String
  status : String
  resultJson : Option (List Char)
  error : Option String
  createdAt : τ
  updatedAt : τ

/-- The dict that a row is read as, without its times. -/
structure TaskView where
  taskId : String
  query : String
  mode : String
  status : String
  error : Option String
  result : PyVal

inductive TaskOp
  | save (task : TaskArgs) (mode : Option String)
  | get (taskId : String)
  | list (limit : ℤ)
  | update (taskId status : String) (result : Option Dict)

inductive TaskResult
  | saved
  | task (view : Option TaskView)
  | tasks (views : List TaskView)
  | raised (error : PyExc)

/-- `json`: what `loads` reads can be written, and is read again. -/
structure ResultCodec where
  /-- `json.dumps(value, ensure_ascii=False, default=str)` -/
  dumps : PyVal → Except PyExc (List Char)
  /-- `json.loads`, if it reads the text -/
  loads : List Char → Option PyVal
  stable : ∀ text v, loads text = some v → ∃ text', dumps v = .ok text' ∧ text' ≠ [] ∧ loads text' = some v

/-- `limit` as `list_tasks` takes it. -/
def listLimit (limit : ℤ) : ℕ := if limit ≤ 0 then 20 else if 100 < limit then 100 else limit.toNat

/-- `existing_result = existing.get("result") or {}; existing_result.update(result)` -/
def mergeResult (existing : PyVal) (result : Dict) : Except PyExc PyVal :=
  match existing.or (.dict []) with
  | .dict d => .ok (.dict (Dict.update d result))
  | _ => .error (.attributeError "object has no attribute 'update'")

variable (codec : ResultCodec)

/-- The text of a result: a result that is not true is none. -/
def dumpResult (v : PyVal) : Except PyExc (Option (List Char)) :=
  if v.truthy then (codec.dumps v).map some else .ok none

/-- The result of a text: none, if it is empty or not read. -/
def loadResult : Option (List Char) → PyVal
  | none => .null
  | some [] => .null
  | some (c :: cs) => (codec.loads (c :: cs)).getD .null

/-- `_row_to_dict` -/
def TaskRecord.view {τ : Type} (r : TaskRecord τ) : TaskView :=
  ⟨r.taskId, r.query, r.mode, r.status, r.error, loadResult codec r.resultJson⟩

def findTask {τ : Type} (taskId : String) (t : List (TaskRecord τ)) : Option (TaskRecord τ) :=
  t.find? fun r => r.taskId = taskId

/-! ## SQLite -/

namespace SQLiteTaskStore

abbrev Row := TaskRecord (List Char)

def rowOf (task : TaskArgs) (mode : Option String) (resultJson : Option (List Char)) : Row :=
  ⟨task.taskId, task.query, mode.getD "", task.status.value, resultJson, task.error, task.createdAt.text,
    task.updatedAt.text⟩

/-- `save_task`: `INSERT OR REPLACE` -/
def saveTask (task : TaskArgs) (mode : Option String) (t : List Row) : List Row × TaskResult :=
  match dumpResult codec task.result with
  | .error exc => (t, .raised exc)
  | .ok resultJson =>
    let row := rowOf task mode resultJson
    (if t.any fun r => r.taskId = task.taskId then Table.update (fun r => r.taskId = task.taskId) (fun _ => row) t
      else t ++ [row], .saved)

/-- `get_task` -/
def getTask (taskId : String) (t : List Row) : TaskResult := .task ((findTask taskId t).map (·.view codec))

/-- `list_tasks` -/
def listTasks (scan : Scan Row) (limit : ℤ) (t : List Row) : TaskResult :=
  .tasks (((Table.orderDesc compare (·.createdAt) scan t).take (listLimit limit)).map (·.view codec))

/-- The result that `update_task_status` writes. -/
def updatedResult (existing : Row) : Option Dict → Except PyExc (Option (List Char))
  | some result => do
    let merged ← mergeResult (loadResult codec existing.resultJson) result
    (codec.dumps merged).map some
  | none => dumpResult codec (loadResult codec existing.resultJson)

def updated (now : DateTime) (status : String) (resultJson : Option (List Char)) (r : Row) : Row :=
  { r with status := status, resultJson := resultJson, updatedAt := now.isoformat [] }

/-- `update_task_status` -/
def updateTaskStatus (now : DateTime) (taskId status : String) (result : Option Dict) (t : List Row) :
    List Row × TaskResult :=
  match findTask taskId t with
  | none => (t, .task none)
  | some existing =>
    match updatedResult codec existing result with
    | .error exc => (t, .raised exc)
    | .ok resultJson =>
      let t := Table.update (fun r => r.taskId = taskId) (updated now status resultJson) t
      (t, getTask codec taskId t)

def step (scan : Scan Row) (now : DateTime) (op : TaskOp) (t : List Row) : List Row × TaskResult :=
  match op with
  | .save task mode => saveTask codec task mode t
  | .get taskId => (t, getTask codec taskId t)
  | .list limit => (t, listTasks codec scan limit t)
  | .update taskId status result => updateTaskStatus codec now taskId status result t

end SQLiteTaskStore

/-! ## Postgres -/

/-- A text that the driver of Postgres refuses. -/
def hasNulCharacter (s : String) : Bool := s.toList.contains (Char.ofNat 0)

/-- The texts of an operation; those of JSON have no NUL. -/
def TaskOp.texts : TaskOp → List String
  | .save task mode => [task.taskId, task.query, mode.getD ""] ++ task.error.toList
  | .get taskId => [taskId]
  | .list _ => []
  | .update taskId status _ => [taskId, status]

namespace PostgresTaskStore

abbrev Row := TaskRecord DateTime

def refused : TaskResult := .raised (.storeError "DataError")

/-- What a column of timestamps makes of a time: one with an offset is taken in the time zone of the session. -/
abbrev Session := Stamp → DateTime

def rowOf (column : Session) (task : TaskArgs) (mode : Option String) (resultJson : Option (List Char)) : Row :=
  ⟨task.taskId, task.query, mode.getD "", task.status.value, resultJson, task.error, column task.createdAt,
    column task.updatedAt⟩

/-- What `save_task` writes over the row of a task. -/
def overwrite (now : DateTime) (task : TaskArgs) (mode : Option String) (resultJson : Option (List Char)) (r : Row) :
    Row :=
  { r with
    query := task.query
    mode := mode.getD ""
    status := task.status.value
    resultJson := resultJson
    error := task.error
    updatedAt := now }

/-- `save_task` -/
def saveTask (column : Session) (now : DateTime) (task : TaskArgs) (mode : Option String) (t : List Row) :
    List Row × TaskResult :=
  match dumpResult codec task.result with
  | .error exc => (t, .raised exc)
  | .ok resultJson =>
    if (TaskOp.save task mode).texts.any hasNulCharacter then (t, refused)
    else
      (if t.any fun r => r.taskId = task.taskId then
        Table.update (fun r => r.taskId = task.taskId) (overwrite now task mode resultJson) t
      else t ++ [rowOf column task mode resultJson], .saved)

/-- `get_task` -/
def getTask (taskId : String) (t : List Row) : TaskResult :=
  if hasNulCharacter taskId then refused else .task ((findTask taskId t).map (·.view codec))

/-- `list_tasks` -/
def listTasks (scan : Scan Row) (limit : ℤ) (t : List Row) : TaskResult :=
  .tasks (((Table.orderDesc DateTime.compare (·.createdAt) scan t).take (listLimit limit)).map (·.view codec))

/-- The result that `update_task_status` leaves. -/
def updatedResult (existing : Row) : Option Dict → Except PyExc (Option (List Char))
  | some result => do
    let merged ← mergeResult (loadResult codec existing.resultJson) result
    (codec.dumps merged).map some
  | none => .ok existing.resultJson

def updated (now : DateTime) (status : String) (resultJson : Option (List Char)) (r : Row) : Row :=
  { r with status := status, resultJson := resultJson, updatedAt := now }

/-- `update_task_status` -/
def updateTaskStatus (now : DateTime) (taskId status : String) (result : Option Dict) (t : List Row) :
    List Row × TaskResult :=
  if hasNulCharacter taskId then (t, refused)
  else
    match findTask taskId t with
    | none => (t, .task none)
    | some existing =>
      match updatedResult codec existing result with
      | .error exc => (t, .raised exc)
      | .ok resultJson =>
        if hasNulCharacter status then (t, refused)
        else
          let t := Table.update (fun r => r.taskId = taskId) (updated now status resultJson) t
          (t, getTask codec taskId t)

def step (column : Session) (scan : Scan Row) (now : DateTime) (op : TaskOp) (t : List Row) : List Row × TaskResult :=
  match op with
  | .save task mode => saveTask codec column now task mode t
  | .get taskId => (t, getTask codec taskId t)
  | .list limit => (t, listTasks codec scan limit t)
  | .update taskId status result => updateTaskStatus codec now taskId status result t

end PostgresTaskStore

/-! ## Two tables side by side -/

/-- The rows of both stores, task by task. -/
abbrev TaskPair := SQLiteTaskStore.Row × PostgresTaskStore.Row

/-- The rows of a task are read alike, and there is one pair for a task. -/
structure Paired (t : List TaskPair) : Prop where
  alike : ∀ x ∈ t, x.1.view codec = x.2.view codec
  unique : ∀ x ∈ t, ∀ y ∈ t, x.1.taskId = y.1.taskId → x = y

section
variable {codec} {t : List TaskPair} {now : DateTime} {taskId : String}

theorem Paired.sameId (ht : Paired codec t) {x : TaskPair} (hx : x ∈ t) : x.2.taskId = x.1.taskId :=
  (congrArg TaskView.taskId (ht.alike x hx)).symm

theorem Paired.result (ht : Paired codec t) {x : TaskPair} (hx : x ∈ t) :
    loadResult codec x.2.resultJson = loadResult codec x.1.resultJson :=
  (congrArg TaskView.result (ht.alike x hx)).symm

theorem findTask_fst : findTask taskId (t.map Prod.fst) = (t.find? fun x => x.1.taskId = taskId).map Prod.fst :=
  List.find?_map

theorem findTask_snd (ht : Paired codec t) :
    findTask taskId (t.map Prod.snd) = (t.find? fun x => x.1.taskId = taskId).map Prod.snd := by
  unfold findTask
  rw [List.find?_map]
  refine congrArg _ (Table.find?_congr fun x hx => ?_)
  rw [Function.comp_apply, ht.sameId hx]

theorem any_snd (ht : Paired codec t) :
    ((t.map Prod.snd).any fun r => r.taskId = taskId) = (t.map Prod.fst).any fun r => r.taskId = taskId := by
  rw [List.any_map, List.any_map, Bool.eq_iff_iff, List.any_eq_true, List.any_eq_true]
  refine exists_congr fun x => and_congr_right fun hx => ?_
  rw [Function.comp_apply, Function.comp_apply, ht.sameId hx]

theorem getTask_agree (ht : Paired codec t) (hnul : hasNulCharacter taskId = false) :
    PostgresTaskStore.getTask codec taskId (t.map Prod.snd) = SQLiteTaskStore.getTask codec taskId (t.map Prod.fst) := by
  unfold PostgresTaskStore.getTask SQLiteTaskStore.getTask
  rw [hnul, findTask_fst, findTask_snd ht]
  cases hfind : t.find? fun x => x.1.taskId = taskId with
  | none => rfl
  | some x =>
    show TaskResult.task (some (x.2.view codec)) = TaskResult.task (some (x.1.view codec))
    rw [ht.alike x (List.mem_of_find?_eq_some hfind)]

/-- The rows of a task, changed in both tables. -/
def changePair (taskId : String) (g : SQLiteTaskStore.Row → SQLiteTaskStore.Row)
    (g' : PostgresTaskStore.Row → PostgresTaskStore.Row) : List TaskPair → List TaskPair :=
  Table.update (fun x => x.1.taskId = taskId) fun x => (g x.1, g' x.2)

variable {g : SQLiteTaskStore.Row → SQLiteTaskStore.Row} {g' : PostgresTaskStore.Row → PostgresTaskStore.Row}

theorem changePair_fst : Table.update (fun r => r.taskId = taskId) g (t.map Prod.fst) =
    (changePair taskId g g' t).map Prod.fst :=
  Table.update_map (fun _ _ => rfl) (fun _ _ _ => rfl)

theorem changePair_snd (ht : Paired codec t) : Table.update (fun r => r.taskId = taskId) g' (t.map Prod.snd) =
    (changePair taskId g g' t).map Prod.snd :=
  Table.update_map (fun x hx => by rw [ht.sameId hx]) (fun _ _ _ => rfl)

theorem changePair_paired (ht : Paired codec t) (hid : ∀ x ∈ t, x.1.taskId = taskId → (g x.1).taskId = taskId)
    (hview : ∀ x ∈ t, x.1.taskId = taskId → (g x.1).view codec = (g' x.2).view codec) :
    Paired codec (changePair taskId g g' t) := by
  have hkept : ∀ x ∈ t, (if decide (x.1.taskId = taskId) = true then (g x.1, g' x.2) else x).1.taskId = x.1.taskId := by
    intro x hx
    split_ifs with h
    · exact (hid x hx (of_decide_eq_true h)).trans (of_decide_eq_true h).symm
    · rfl
  constructor
  · intro x hx
    obtain ⟨a, ha, rfl⟩ := Table.mem_update.mp hx
    split_ifs with h
    · exact hview a ha (of_decide_eq_true h)
    · exact ht.alike a ha
  · intro x hx y hy hxy
    obtain ⟨a, ha, rfl⟩ := Table.mem_update.mp hx
    obtain ⟨b, hb, rfl⟩ := Table.mem_update.mp hy
    rw [hkept a ha, hkept b hb] at hxy
    rw [ht.unique a ha b hb hxy]

theorem append_paired (ht : Paired codec t) {x : TaskPair} (hview : x.1.view codec = x.2.view codec)
    (hnew : ∀ y ∈ t, y.1.taskId ≠ x.1.taskId) : Paired codec (t ++ [x]) := by
  constructor
  · intro y hy
    rcases List.mem_append.mp hy with hy | hy
    · exact ht.alike y hy
    · rw [List.mem_singleton.mp hy]
      exact hview
  · intro y hy z hz hyz
    rcases List.mem_append.mp hy with hy | hy <;> rcases List.mem_append.mp hz with hz | hz
    · exact ht.unique y hy z hz hyz
    · rw [List.mem_singleton.mp hz] at hyz
      exact absurd hyz (hnew y hy)
    · rw [List.mem_singleton.mp hy] at hyz
      exact absurd hyz.symm (hnew z hz)
    · rw [List.mem_singleton.mp hy, List.mem_singleton.mp hz]

end

/-! ## The condition of a step -/

/-- The two tables have no two tasks of one `created_at`, and order the tasks alike. -/
def OrderedAlike (t : List SQLiteTaskStore.Row) (t' : List PostgresTaskStore.Row) : Prop :=
  ∀ a ∈ t, ∀ b ∈ t, ∀ a' ∈ t', ∀ b' ∈ t', a.taskId = a'.taskId → b.taskId = b'.taskId →
    compare a.createdAt b.createdAt = a'.createdAt.compare b'.createdAt ∧
      (a.createdAt = b.createdAt → a.taskId = b.taskId)

/-- No NUL; tasks are listed where both tables order them alike; and an update without a result meets a task without a
result, or with one that is true. -/
def TaskOp.Meets (op : TaskOp) (t : List SQLiteTaskStore.Row) (t' : List PostgresTaskStore.Row) : Prop :=
  (∀ s ∈ op.texts, hasNulCharacter s = false) ∧
    match op with
    | .list _ => OrderedAlike t t'
    | .update taskId _ none =>
      ∀ r ∈ t, r.taskId = taskId →
        loadResult codec r.resultJson = .null ∨ (loadResult codec r.resultJson).truthy = true
    | _ => True

/-- The step of both stores, from rows side by side to rows side by side. -/
def StepsAlike (column : PostgresTaskStore.Session) (scan : Scan SQLiteTaskStore.Row)
    (scan' : Scan PostgresTaskStore.Row) (now : DateTime) (op : TaskOp) (t : List TaskPair) : Prop :=
  ∃ t₂ result, Paired codec t₂ ∧
    SQLiteTaskStore.step codec scan now op (t.map Prod.fst) = (t₂.map Prod.fst, result) ∧
    PostgresTaskStore.step codec column scan' now op (t.map Prod.snd) = (t₂.map Prod.snd, result)

section
variable {codec} {t : List TaskPair} {now : DateTime}

/-- The result of a task, read and written again. -/
theorem dumpResult_loadResult {text : Option (List Char)}
    (h : loadResult codec text = .null ∨ (loadResult codec text).truthy = true) :
    ∃ text', dumpResult codec (loadResult codec text) = .ok text' ∧
      loadResult codec text' = loadResult codec text := by
  rcases h with h | h
  · refine ⟨none, ?_, h.symm⟩
    rw [h]
    rfl
  · -- a true result comes from a text that is read
    obtain ⟨c, cs, rfl, v, hv⟩ : ∃ c cs, text = some (c :: cs) ∧ ∃ v, codec.loads (c :: cs) = some v := by
      cases text with
      | none => cases h
      | some text =>
        cases text with
        | nil => cases h
        | cons c cs =>
          cases hv : codec.loads (c :: cs) with
          | none =>
            have hnull : loadResult codec (some (c :: cs)) = .null := by
              show (codec.loads (c :: cs)).getD .null = .null
              rw [hv]
              rfl
            rw [hnull] at h
            cases h
          | some v => exact ⟨c, cs, rfl, v, hv⟩
    have hload : loadResult codec (some (c :: cs)) = v := by
      show (codec.loads (c :: cs)).getD .null = v
      rw [hv]
      rfl
    obtain ⟨text', hdumps, hne, hloads⟩ := codec.stable _ v hv
    rw [hload] at h ⊢
    refine ⟨some text', ?_, ?_⟩
    · unfold dumpResult
      rw [if_pos h, hdumps]
      rfl
    · cases text' with
      | nil => exact absurd rfl hne
      | cons d ds =>
        show (codec.loads (d :: ds)).getD .null = v
        rw [hloads]
        rfl

/-- Both stores raise alike, or write results that are read alike. -/
theorem updatedResult_agree {a : SQLiteTaskStore.Row} {b : PostgresTaskStore.Row} {result : Option Dict}
    (hab : loadResult codec b.resultJson = loadResult codec a.resultJson)
    (h : result = none → loadResult codec a.resultJson = .null ∨ (loadResult codec a.resultJson).truthy = true) :
    (∃ exc, SQLiteTaskStore.updatedResult codec a result = .error exc ∧
        PostgresTaskStore.updatedResult codec b result = .error exc) ∨
      ∃ text text', SQLiteTaskStore.updatedResult codec a result = .ok text ∧
        PostgresTaskStore.updatedResult codec b result = .ok text' ∧
        loadResult codec text = loadResult codec text' := by
  cases result with
  | none =>
    obtain ⟨text, hdump, hload⟩ := dumpResult_loadResult (h rfl)
    exact .inr ⟨text, b.resultJson, hdump, rfl, hload.trans hab.symm⟩
  | some result =>
    have hsame : PostgresTaskStore.updatedResult codec b (some result) =
        SQLiteTaskStore.updatedResult codec a (some result) := by
      unfold PostgresTaskStore.updatedResult SQLiteTaskStore.updatedResult
      rw [hab]
    rw [hsame]
    cases hout : SQLiteTaskStore.updatedResult codec a (some result) with
    | error exc => exact .inl ⟨exc, rfl, rfl⟩
    | ok text => exact .inr ⟨text, text, rfl, rfl, rfl⟩

variable {column : PostgresTaskStore.Session} {scan : Scan SQLiteTaskStore.Row} {scan' : Scan PostgresTaskStore.Row}

theorem save_alike (ht : Paired codec t) (task : TaskArgs) (mode : Option String)
    (hnul : ∀ s ∈ (TaskOp.save task mode).texts, hasNulCharacter s = false) :
    StepsAlike codec column scan scan' now (.save task mode) t := by
  have htexts : (TaskOp.save task mode).texts.any hasNulCharacter = false :=
    List.any_eq_false.mpr fun s hs => by rw [hnul s hs]; decide
  unfold StepsAlike SQLiteTaskStore.step PostgresTaskStore.step SQLiteTaskStore.saveTask PostgresTaskStore.saveTask
  dsimp only
  rw [htexts, any_snd ht]
  cases dumpResult codec task.result with
  | error exc => exact ⟨t, .raised exc, ht, rfl, rfl⟩
  | ok resultJson =>
    show ∃ t₂ out, _
    dsimp only
    rw [if_neg (by decide : ¬ false = true)]
    cases hany : (t.map Prod.fst).any fun r => r.taskId = task.taskId with
    | true =>
      refine ⟨changePair task.taskId (fun _ => SQLiteTaskStore.rowOf task mode resultJson)
        (PostgresTaskStore.overwrite now task mode resultJson) t, .saved,
        changePair_paired ht (fun _ _ _ => rfl) fun x hx hid => ?_, ?_, ?_⟩
      · unfold TaskRecord.view SQLiteTaskStore.rowOf PostgresTaskStore.overwrite
        dsimp only
        rw [ht.sameId hx, hid]
      · rw [← changePair_fst]
        rfl
      · rw [← changePair_snd ht]
        rfl
    | false =>
      refine ⟨t ++ [(SQLiteTaskStore.rowOf task mode resultJson, PostgresTaskStore.rowOf column task mode resultJson)],
        .saved, append_paired ht rfl fun y hy hid => ?_, ?_, ?_⟩
      · exact List.any_eq_false.mp hany y.1 (List.mem_map_of_mem hy) (decide_eq_true hid)
      · rw [List.map_append]
        rfl
      · rw [List.map_append]
        rfl

theorem update_alike (ht : Paired codec t) (taskId status : String) (result : Option Dict)
    (h : (TaskOp.update taskId status result).Meets codec (t.map Prod.fst) (t.map Prod.snd)) :
    StepsAlike codec column scan scan' now (.update taskId status result) t := by
  obtain ⟨hnul, htrue⟩ := h
  have hid : hasNulCharacter taskId = false := hnul _ List.mem_cons_self
  have hstatus : hasNulCharacter status = false := hnul _ (List.mem_cons_of_mem _ List.mem_cons_self)
  unfold StepsAlike SQLiteTaskStore.step PostgresTaskStore.step SQLiteTaskStore.updateTaskStatus
    PostgresTaskStore.updateTaskStatus
  dsimp only
  rw [hid, if_neg (by decide), findTask_fst, findTask_snd ht]
  cases hfind : t.find? fun x => x.1.taskId = taskId with
  | none => exact ⟨t, .task none, ht, rfl, rfl⟩
  | some x =>
    have hx := List.mem_of_find?_eq_some hfind
    have hfound := List.find?_some hfind
    have hxid : x.1.taskId = taskId := of_decide_eq_true hfound
    have hresult : result = none → loadResult codec x.1.resultJson = .null ∨
        (loadResult codec x.1.resultJson).truthy = true := by
      rintro rfl
      exact htrue x.1 (List.mem_map_of_mem hx) hxid
    show ∃ t₂ out, _
    dsimp only [Option.map_some]
    obtain ⟨exc, hlite, hpost⟩ | ⟨text, text', hlite, hpost, hload⟩ := updatedResult_agree (ht.result hx) hresult
    · rw [hlite, hpost]
      exact ⟨t, .raised exc, ht, rfl, rfl⟩
    · rw [hlite, hpost]
      dsimp only
      rw [hstatus, if_neg (by decide)]
      have hpaired : Paired codec (changePair taskId (SQLiteTaskStore.updated now status text)
          (PostgresTaskStore.updated now status text') t) := by
        refine changePair_paired ht (fun _ _ h => h) fun y hy _ => ?_
        have halike := ht.alike y hy
        unfold SQLiteTaskStore.updated PostgresTaskStore.updated
        unfold TaskRecord.view at halike ⊢
        rw [TaskView.mk.injEq] at halike ⊢
        exact ⟨halike.1, halike.2.1, halike.2.2.1, rfl, halike.2.2.2.2.1, hload⟩
      refine ⟨changePair taskId (SQLiteTaskStore.updated now status text) (PostgresTaskStore.updated now status text') t,
        SQLiteTaskStore.getTask codec taskId ((changePair taskId (SQLiteTaskStore.updated now status text)
          (PostgresTaskStore.updated now status text') t).map Prod.fst), hpaired, ?_, ?_⟩
      · rw [← changePair_fst]
      · rw [← getTask_agree hpaired hid, ← changePair_snd ht]

theorem list_alike (ht : Paired codec t) (limit : ℤ) (h : OrderedAlike (t.map Prod.fst) (t.map Prod.snd)) :
    StepsAlike codec column scan scan' now (.list limit) t := by
  have halike : ∀ x ∈ t, ∀ y ∈ t,
      compare x.1.createdAt y.1.createdAt = x.2.createdAt.compare y.2.createdAt ∧
        (x.1.createdAt = y.1.createdAt → x.1.taskId = y.1.taskId) := fun x hx y hy =>
    h x.1 (List.mem_map_of_mem hx) y.1 (List.mem_map_of_mem hy) x.2 (List.mem_map_of_mem hx) y.2
      (List.mem_map_of_mem hy) (ht.sameId hx).symm (ht.sameId hy).symm
  -- the order of both stores
  obtain ⟨l, hl, hsorted⟩ : ∃ l : List TaskPair, l.Perm t ∧
      l.Pairwise fun x y => (compare x.1.createdAt y.1.createdAt).isGE = true :=
    ⟨_, List.mergeSort_perm _ _, Table.pairwise_mergeSort (fun x : TaskPair => x.1.createdAt) t⟩
  have hlite : Table.orderDesc compare (·.createdAt) scan (t.map Prod.fst) = l.map Prod.fst := by
    refine Table.orderDesc_map scan hl hsorted fun x hx y hy heq => ?_
    exact ht.unique x hx y hy ((halike x hx y hy).2 (Std.LawfulEqOrd.eq_of_compare heq))
  have hpost : Table.orderDesc DateTime.compare (·.createdAt) scan' (t.map Prod.snd) = l.map Prod.snd := by
    refine Table.orderDesc_map scan' hl ?_ fun x hx y hy heq => ?_
    · refine hsorted.imp_of_mem fun hx hy hge => ?_
      rw [← (halike _ (hl.mem_iff.mp hx) _ (hl.mem_iff.mp hy)).1]
      exact hge
    · rw [← (halike x hx y hy).1] at heq
      exact ht.unique x hx y hy ((halike x hx y hy).2 (Std.LawfulEqOrd.eq_of_compare heq))
  have hviews : ((l.map Prod.snd).take (listLimit limit)).map (·.view codec) =
      ((l.map Prod.fst).take (listLimit limit)).map (·.view codec) := by
    rw [← List.map_take, ← List.map_take, List.map_map, List.map_map]
    refine List.map_congr_left fun x hx => ?_
    exact (ht.alike x (hl.mem_iff.mp (List.mem_of_mem_take hx))).symm
  refine ⟨t, _, ht, rfl, ?_⟩
  show (_, PostgresTaskStore.listTasks codec scan' limit _) = (_, SQLiteTaskStore.listTasks codec scan limit _)
  unfold PostgresTaskStore.listTasks SQLiteTaskStore.listTasks
  rw [hlite, hpost, hviews]

/-- A step that meets the condition takes both stores from rows that are read alike to such rows, with one result. -/
theorem step_alike (now : DateTime) (ht : Paired codec t) (op : TaskOp) (h : op.Meets codec (t.map Prod.fst) (t.map Prod.snd)) :
    StepsAlike codec column scan scan' now op t := by
  cases op with
  | save task mode => exact save_alike ht task mode h.1
  | get taskId =>
    refine ⟨t, _, ht, rfl, ?_⟩
    show (_, PostgresTaskStore.getTask codec taskId _) = _
    rw [getTask_agree ht (h.1 _ List.mem_cons_self)]
  | list limit => exact list_alike ht limit h.2
  | update taskId status result => exact update_alike ht taskId status result h

end

/-! ## Runs -/

/-- Both stores, run side by side: each operation with its reading of the clock, and the results. -/
def runTasks (column : PostgresTaskStore.Session) (scan : Scan SQLiteTaskStore.Row) (scan' : Scan PostgresTaskStore.Row) :
    List (DateTime × TaskOp) → List SQLiteTaskStore.Row → List PostgresTaskStore.Row →
      List TaskResult × List TaskResult
  | [], _, _ => ([], [])
  | (now, op) :: ops, t, t' =>
    let (t, result) := SQLiteTaskStore.step codec scan now op t
    let (t', result') := PostgresTaskStore.step codec column scan' now op t'
    let (results, results') := runTasks column scan scan' ops t t'
    (result :: results, result' :: results')

/-- Every step of the run meets the condition, in the tables it is made in. -/
def RunMeets (column : PostgresTaskStore.Session) (scan : Scan SQLiteTaskStore.Row) (scan' : Scan PostgresTaskStore.Row) :
    List (DateTime × TaskOp) → List SQLiteTaskStore.Row → List PostgresTaskStore.Row → Prop
  | [], _, _ => True
  | (now, op) :: ops, t, t' =>
    op.Meets codec t t' ∧ RunMeets column scan scan' ops (SQLiteTaskStore.step codec scan now op t).1
      (PostgresTaskStore.step codec column scan' now op t').1

theorem runTasks_alike {column : PostgresTaskStore.Session} {scan : Scan SQLiteTaskStore.Row}
    {scan' : Scan PostgresTaskStore.Row} {ops : List (DateTime × TaskOp)} {t : List TaskPair} (ht : Paired codec t)
    (h : RunMeets codec column scan scan' ops (t.map Prod.fst) (t.map Prod.snd)) :
    (runTasks codec column scan scan' ops (t.map Prod.fst) (t.map Prod.snd)).1 =
      (runTasks codec column scan scan' ops (t.map Prod.fst) (t.map Prod.snd)).2 := by
  induction ops generalizing t with
  | nil => rfl
  | cons op ops ih =>
    obtain ⟨now, op⟩ := op
    obtain ⟨hmeets, hrest⟩ := h
    obtain ⟨t₂, result, hpaired, hlite, hpost⟩ := step_alike now ht op hmeets
    rw [hlite, hpost] at hrest
    unfold runTasks
    rw [hlite, hpost]
    dsimp only
    rw [ih hpaired hrest]

/-- **The task stores agree.**  From empty tables, a run whose steps meet the condition has the same results in both
stores. -/
theorem task_stores_agree (column : PostgresTaskStore.Session) (scan : Scan SQLiteTaskStore.Row)
    (scan' : Scan PostgresTaskStore.Row) (ops : List (DateTime × TaskOp))
    (h : RunMeets codec column scan scan' ops [] []) :
    (runTasks codec column scan scan' ops [] []).1 = (runTasks codec column scan scan' ops [] []).2 := by
  have hempty : Paired codec [] := ⟨fun _ hx => (List.not_mem_nil hx).elim, fun _ hx => (List.not_mem_nil hx).elim⟩
  exact runTasks_alike codec hempty h

/-- A codec that knows the empty dict. -/
def ResultCodec.braces : ResultCodec where
  dumps
    | .dict [] => .ok "\x7b\x7d".toList
    | _ => .error (.typeError "Object is not JSON serializable")
  loads text := if text = "\x7b\x7d".toList then some (.dict []) else none
  stable text v h := by
    split at h
    · obtain rfl := Option.some.inj h
      exact ⟨"\x7b\x7d".toList, rfl, by decide, if_pos rfl⟩
    · cases h

/-- A time of the first of January 2024. -/
def newYear (hour : ℕ) (h : hour < 24) : DateTime := .ofHour 2024 1 1 hour ⟨by decide, h⟩

/-- A task without a result, saved at one. -/
def savedTask : DateTime × TaskOp :=
  (newYear 1 (by decide), .save
    { taskId := "t", query := "q", createdAt := ⟨newYear 1 (by decide), []⟩, updatedAt := ⟨newYear 1 (by decide), []⟩ }
    none)

/-- A task that is saved, runs, and is listed. -/
def listedRun : List (DateTime × TaskOp) :=
  [savedTask, (newYear 2 (by decide), .update "t" "running" none), (newYear 3 (by decide), .list 20)]

theorem task_stores_agree_listed :
    (runTasks .braces Stamp.civil (.inserted _) (.inserted _) listedRun [] []).1 =
      (runTasks .braces Stamp.civil (.inserted _) (.inserted _) listedRun [] []).2 := by
  refine task_stores_agree .braces Stamp.civil (.inserted _) (.inserted _) listedRun ⟨⟨?_, trivial⟩, ⟨?_, ?_⟩, ⟨?_, ?_⟩, trivial⟩
  · decide +kernel
  · decide +kernel
  · intro r hr _
    obtain rfl := List.mem_singleton.mp hr
    exact .inl rfl
  · decide +kernel
  · intro a ha b hb a' ha' b' hb' _ _
    obtain rfl := List.mem_singleton.mp ha
    obtain rfl := List.mem_singleton.mp hb
    obtain rfl := List.mem_singleton.mp ha'
    obtain rfl := List.mem_singleton.mp hb'
    exact ⟨by decide +kernel, fun _ => rfl⟩

/-- The result of an update is a dict. -/
def TaskResult.hasDict : TaskResult → Bool
  | .task (some view) =>
    match view.result with
    | .dict _ => true
    | _ => false
  | _ => false

/-- An empty result, and an update without one: SQLite has none then, and Postgres the empty dict. -/
theorem task_stores_differ : ¬ ∀ (codec : ResultCodec) (column : PostgresTaskStore.Session)
    (scan : Scan SQLiteTaskStore.Row) (scan' : Scan PostgresTaskStore.Row) (ops : List (DateTime × TaskOp)),
    (runTasks codec column scan scan' ops [] []).1 = (runTasks codec column scan scan' ops [] []).2 := by
  intro h
  have hresults := h .braces Stamp.civil (.inserted _) (.inserted _)
    [savedTask, (newYear 2 (by decide), .update "t" "running" (some [])), (newYear 3 (by decide), .update "t" "done" none)]
  exact absurd (congrArg (fun results => results.map TaskResult.hasDict) hresults) (by decide +kernel)

end AgentHarness
