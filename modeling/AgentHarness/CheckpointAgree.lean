import AgentHarness.CheckpointStores
import Mathlib.Data.List.ReduceOption

/-!
# CheckpointAgree — the two checkpoint stores answer alike

`CheckpointTable` is what both stores are for: rows with times, dicts and flags, changed in one step for each operation.
`sqlite_step` and `postgres_step` say that each store does that step on its own rows; the text order of `isoformat` stands
behind every comparison of the first.  `checkpoint_stores_agree` puts the two together over a run.
-/

namespace AgentHarness

open Lib

/-! ## What the stores are for -/

namespace CheckpointTable

abbrev Row := GraphRunState DateTime (Option Dict) Bool

/-- The dict that a row is read as. -/
def view (r : Row) : GraphRunState (List Char) PyVal Bool :=
  r.map (·.isoformat []) (fun json => (json.map fun d => PyVal.dict d.jsonable).getD .null) id

def get (id : String) (t : List Row) : CheckpointResult := .state ((t.find? fun r => r.checkpointId = id).map view)

/-- The rows of a task, the latest first. -/
def latestFirst (taskId : String) (t : List Row) : List Row :=
  (t.filter fun r => r.taskId = taskId).mergeSort fun a b => (a.createdAt.compare b.createdAt).isGE

def claimable (now : DateTime) (id approvalId : String) (r : Row) : Bool :=
  r.checkpointId = id && r.approvalId = some approvalId && !r.consumed && r.status = "interrupted" &&
    r.expiresAt.all fun expiresAt => (expiresAt.compare now).isGT

def expirable (now : DateTime) (r : Row) : Bool :=
  !r.consumed && r.expiresAt.any fun expiresAt => (expiresAt.compare now).isLE

/-- The rows that an operation changes, and what becomes of them. -/
def change (now : DateTime) : CheckpointOp → (Row → Bool) × (Row → Row)
  | .markPending id approvalId payload graphState =>
    (fun r => r.checkpointId = id, fun r =>
      { r with
        approvalId := some approvalId
        pendingInterrupt := some payload
        status := "interrupted"
        updatedAt := now
        graphState := if graphState.isSome then graphState else r.graphState })
  | .claim id approvalId =>
    (claimable now id approvalId, fun r =>
      { r with
        status := "resuming"
        lockedAt := some now
        updatedAt := now
        resumeAttemptCount := r.resumeAttemptCount + 1 })
  | .markResumed id resumePayload resultSnapshot =>
    (fun r => r.checkpointId = id, fun r =>
      { r with
        status := "resumed"
        consumed := true
        resumedAt := some now
        updatedAt := now
        resumePayload := some resumePayload
        resultSnapshot := resultSnapshot })
  | .markCancelled id reason =>
    (fun r => r.checkpointId = id, fun r =>
      { r with status := "cancelled", consumed := true, updatedAt := now, lastResumeError := some reason })
  | .expireOld bound =>
    (expirable (bound.getD now), fun r => { r with status := "expired", consumed := true, updatedAt := bound.getD now })
  | _ => (fun _ => false, id)

/-- The rows after an operation. -/
def next (now : DateTime) (op : CheckpointOp) (t : List Row) : List Row :=
  match op with
  | .create args => if t.any fun r => r.checkpointId = args.checkpointId then t else t ++ [args.row now]
  | .get _ | .getLatest _ => t
  | op => Table.update (change now op).1 (change now op).2 t

/-- What an operation returns. -/
def result (now : DateTime) (op : CheckpointOp) (t : List Row) : CheckpointResult :=
  match op with
  | .create args =>
    if t.any fun r => r.checkpointId = args.checkpointId then alreadyExists args.checkpointId
    else get args.checkpointId (next now op t)
  | .get id => get id t
  | .getLatest taskId => .state ((latestFirst taskId t).head?.map view)
  | .markPending id _ _ _ | .markResumed id _ _ | .markCancelled id _ => get id (next now op t)
  | .claim id _ => if t.countP (change now op).1 ≠ 1 then .state none else get id (next now op t)
  | .expireOld _ => .changed (t.countP (change now op).1)

end CheckpointTable

/-! ## The conditions -/

/-- The JSON values that an operation brings. -/
def CheckpointOp.jsons : CheckpointOp → List Dict
  | .create a => a.graphState :: [a.pendingInterrupt, a.resumePayload, a.resultSnapshot].reduceOption
  | .markPending _ _ payload graphState => payload :: graphState.toList
  | .markResumed _ resumePayload resultSnapshot => resumePayload :: resultSnapshot.toList
  | _ => []

/-- The texts that an operation brings. -/
def CheckpointOp.texts : CheckpointOp → List String
  | .create a => a.texts
  | .get id => [id]
  | .getLatest taskId => [taskId]
  | .markPending id approvalId _ _ => [id, approvalId]
  | .claim id approvalId => [id, approvalId]
  | .markResumed id _ _ => [id]
  | .markCancelled id reason => [id, reason]
  | .expireOld _ => []

/-- The values of an operation are JSON. -/
def CheckpointOp.IsJson (codec : JsonCodec) (op : CheckpointOp) : Prop := ∀ d ∈ op.jsons, codec.RoundTrips d

/-- The texts of an operation have no NUL. -/
def CheckpointOp.NulFree (op : CheckpointOp) : Prop :=
  ∀ s ∈ op.texts, PostgresGraphCheckpointStore.hasNul s = false

/-- A number that stays within 32 bits when `n` is added. -/
def Int32After (n : ℕ) (i : ℤ) : Prop := -2 ^ 31 ≤ i ∧ i + n < 2 ^ 31

/-- The integers of an operation are of 32 bits, the attempt count also after `n` claims. -/
def CheckpointOp.Int32 (n : ℕ) : CheckpointOp → Prop
  | .create a => Int32After 0 a.schemaVersion ∧ Int32After n a.resumeAttemptCount
  | _ => True

def CheckpointOp.isClaim : CheckpointOp → Bool
  | .claim _ _ => true
  | _ => false

/-- The claims among the operations of a run. -/
def claimCount (ops : List (DateTime × CheckpointOp)) : ℕ := ops.countP fun op => op.2.isClaim

/-- Where the latest checkpoint of a task is asked for, no two checkpoints of the task have one `created_at`. -/
def CheckpointOp.Distinct (op : CheckpointOp) (t : List SQLiteGraphCheckpointStore.Row) : Prop :=
  match op with
  | .getLatest taskId =>
    ∀ a ∈ t, ∀ b ∈ t, a.taskId = taskId → b.taskId = taskId → a.createdAt = b.createdAt →
      a.checkpointId = b.checkpointId
  | _ => True

/-- `CheckpointOp.Distinct` at every operation of a run. -/
def DistinctRun (codec : JsonCodec) (scan : Scan SQLiteGraphCheckpointStore.Row) :
    List (DateTime × CheckpointOp) → List SQLiteGraphCheckpointStore.Row → Prop
  | [], _ => True
  | (now, op) :: ops, t =>
    op.Distinct t ∧ DistinctRun codec scan ops (SQLiteGraphCheckpointStore.step codec scan now op t).1

namespace CheckpointTable

/-- The JSON columns of a row hold JSON. -/
def HoldsJson (codec : JsonCodec) (r : Row) : Prop :=
  ∀ json ∈ [r.graphState, r.pendingInterrupt, r.resumePayload, r.resultSnapshot], ∀ d ∈ json, codec.RoundTrips d

/-- What holds of the rows at any time. -/
structure Sound (codec : JsonCodec) (t : List Row) : Prop where
  json : ∀ r ∈ t, HoldsJson codec r
  unique : ∀ a ∈ t, ∀ b ∈ t, a.checkpointId = b.checkpointId → a = b

variable {codec : JsonCodec} {now : DateTime} {op : CheckpointOp} {t : List Row} {r : Row}

theorem change_json (hop : op.IsJson codec) (hr : HoldsJson codec r) : HoldsJson codec ((change now op).2 r) := by
  unfold HoldsJson at hr ⊢
  simp only [List.mem_cons, List.not_mem_nil, or_false, forall_eq_or_imp, forall_eq] at hr ⊢
  obtain ⟨hg, hp, hres, hsnap⟩ := hr
  cases op with
  | markPending id approvalId payload graphState =>
    have hpayload : codec.RoundTrips payload := hop payload List.mem_cons_self
    refine ⟨fun d hd => ?_, fun d hd => ?_, hres, hsnap⟩
    · cases graphState with
      | none => exact hg d hd
      | some g =>
        obtain rfl := Option.some.inj hd
        exact hop _ (List.mem_cons_of_mem _ List.mem_cons_self)
    · obtain rfl := Option.some.inj hd
      exact hpayload
  | markResumed id resumePayload resultSnapshot =>
    refine ⟨hg, hp, fun d hd => ?_, fun d hd => ?_⟩
    · obtain rfl := Option.some.inj hd
      exact hop _ List.mem_cons_self
    · exact hop d (List.mem_cons_of_mem _ (Option.mem_toList.mpr hd))
  | _ => exact ⟨hg, hp, hres, hsnap⟩

theorem row_json {a : CheckpointArgs} (hop : (CheckpointOp.create a).IsJson codec) : HoldsJson codec (a.row now) := by
  intro json hjson d hd
  have hd : d ∈ [some a.graphState, a.pendingInterrupt, a.resumePayload, a.resultSnapshot].reduceOption := by
    rw [List.reduceOption_mem_iff]
    exact hd ▸ hjson
  exact hop d hd

theorem change_id (r : Row) : ((change now op).2 r).checkpointId = r.checkpointId := by
  cases op <;> rfl

theorem next_sound (now : DateTime) (hop : op.IsJson codec) (ht : Sound codec t) : Sound codec (next now op t) := by
  have hupdate : Sound codec (Table.update (change now op).1 (change now op).2 t) := by
    constructor
    · intro r hr
      obtain ⟨a, ha, rfl⟩ := Table.mem_update.mp hr
      split
      · exact change_json hop (ht.json a ha)
      · exact ht.json a ha
    · intro r hr r' hr' hid
      obtain ⟨a, ha, rfl⟩ := Table.mem_update.mp hr
      obtain ⟨b, hb, rfl⟩ := Table.mem_update.mp hr'
      have hab : a.checkpointId = b.checkpointId := by
        split_ifs at hid <;> simpa only [change_id] using hid
      rw [ht.unique a ha b hb hab]
  cases op with
  | create a =>
    show Sound codec (if _ then t else t ++ [a.row now])
    split_ifs with hany
    · exact ht
    · have hnew : ∀ r ∈ t, r.checkpointId ≠ a.checkpointId := by
        intro r hr hid
        exact hany (List.any_eq_true.mpr ⟨r, hr, decide_eq_true hid⟩)
      constructor
      · intro r hr
        rcases List.mem_append.mp hr with hr | hr
        · exact ht.json r hr
        · obtain rfl := List.mem_singleton.mp hr
          exact row_json hop
      · intro r hr r' hr' hid
        rcases List.mem_append.mp hr with hr | hr <;> rcases List.mem_append.mp hr' with hr' | hr'
        · exact ht.unique r hr r' hr' hid
        · obtain rfl := List.mem_singleton.mp hr'
          exact absurd hid (hnew r hr)
        · obtain rfl := List.mem_singleton.mp hr
          exact absurd hid.symm (hnew r' hr')
        · rw [List.mem_singleton.mp hr, List.mem_singleton.mp hr']
  | get _ => exact ht
  | getLatest _ => exact ht
  | _ => exact hupdate

end CheckpointTable

/-! ## Each store does the step -/

section
variable {codec : JsonCodec} {now : DateTime} {op : CheckpointOp} {t : List CheckpointTable.Row} {r : CheckpointTable.Row}

theorem sqlite_json {json : Option Dict} (h : ∀ d ∈ json, codec.RoundTrips d) :
    SQLiteGraphCheckpointStore.jsonLoads codec (SQLiteGraphCheckpointStore.jsonDumps codec json) =
      (json.map fun d => PyVal.dict d.jsonable).getD .null := by
  cases json with
  | none => rfl
  | some d =>
    obtain ⟨hne, hloads, -⟩ := h d rfl
    show SQLiteGraphCheckpointStore.jsonLoads codec (some (codec.dumps d)) = .dict d.jsonable
    cases htext : codec.dumps d with
    | nil => exact absurd htext hne
    | cons c cs =>
      rw [htext] at hloads
      show (codec.loads (c :: cs)).getD .null = _
      rw [hloads]
      rfl

theorem postgres_json {json : Option Dict} (h : ∀ d ∈ json, codec.RoundTrips d) :
    PostgresGraphCheckpointStore.readJson codec (PostgresGraphCheckpointStore.bindJson codec json) =
      (json.map fun d => PyVal.dict d.jsonable).getD .null := by
  cases json with
  | none =>
    show (codec.loads "null".toList).getD .null = .null
    rw [codec.loads_null]
    rfl
  | some d =>
    show (codec.loads (codec.serialize d)).getD .null = .dict d.jsonable
    rw [(h d rfl).2.2]
    rfl

/-- A row of SQLite is read as the row it stands for. -/
theorem sqlite_view (hr : CheckpointTable.HoldsJson codec r) :
    SQLiteGraphCheckpointStore.rowToDict codec (SQLiteGraphCheckpointStore.encode codec r) = CheckpointTable.view r := by
  unfold CheckpointTable.HoldsJson at hr
  simp only [List.mem_cons, List.not_mem_nil, or_false, forall_eq_or_imp, forall_eq] at hr
  obtain ⟨hg, hp, hres, hsnap⟩ := hr
  have hflag : ((if r.consumed then (1 : ℤ) else 0) ≠ 0 : Bool) = r.consumed := by
    cases r.consumed <;> rfl
  unfold SQLiteGraphCheckpointStore.rowToDict SQLiteGraphCheckpointStore.encode CheckpointTable.view GraphRunState.map
  simp only [sqlite_json hg, sqlite_json hp, sqlite_json hres, sqlite_json hsnap, hflag, Option.map_id_fun, id]
  rfl

/-- A row of Postgres is read as the row it stands for. -/
theorem postgres_view (hr : CheckpointTable.HoldsJson codec r) :
    PostgresGraphCheckpointStore.rowToDict codec (PostgresGraphCheckpointStore.encode codec r) =
      CheckpointTable.view r := by
  unfold CheckpointTable.HoldsJson at hr
  simp only [List.mem_cons, List.not_mem_nil, or_false, forall_eq_or_imp, forall_eq] at hr
  obtain ⟨hg, hp, hres, hsnap⟩ := hr
  unfold PostgresGraphCheckpointStore.rowToDict PostgresGraphCheckpointStore.encode CheckpointTable.view GraphRunState.map
  simp only [postgres_json hg, postgres_json hp, postgres_json hres, postgres_json hsnap, Option.map_id_fun, id]

theorem sqlite_get (ht : ∀ r ∈ t, CheckpointTable.HoldsJson codec r) (id : String) :
    SQLiteGraphCheckpointStore.getCheckpoint codec id (t.map (SQLiteGraphCheckpointStore.encode codec)) =
      CheckpointTable.get id t := by
  unfold SQLiteGraphCheckpointStore.getCheckpoint CheckpointTable.get
  rw [List.find?_map, Option.map_map]
  show CheckpointResult.state (Option.map _ (t.find? fun r => r.checkpointId = id)) = _
  cases hfind : t.find? fun r => r.checkpointId = id with
  | none => rfl
  | some r =>
    show CheckpointResult.state (some (SQLiteGraphCheckpointStore.rowToDict codec _)) = _
    rw [sqlite_view (ht r (List.mem_of_find?_eq_some hfind))]
    rfl

theorem postgres_get (ht : ∀ r ∈ t, CheckpointTable.HoldsJson codec r) {id : String}
    (hid : PostgresGraphCheckpointStore.hasNul id = false) :
    PostgresGraphCheckpointStore.getCheckpoint codec id (t.map (PostgresGraphCheckpointStore.encode codec)) =
      CheckpointTable.get id t := by
  unfold PostgresGraphCheckpointStore.getCheckpoint CheckpointTable.get
  rw [hid, List.find?_map, Option.map_map]
  show CheckpointResult.state (Option.map _ (t.find? fun r => r.checkpointId = id)) = _
  cases hfind : t.find? fun r => r.checkpointId = id with
  | none => rfl
  | some r =>
    show CheckpointResult.state (some (PostgresGraphCheckpointStore.rowToDict codec _)) = _
    rw [postgres_view (ht r (List.mem_of_find?_eq_some hfind))]
    rfl

theorem isoformat_ne_nil (e : DateTime) : e.isoformat [] ≠ [] := by
  unfold DateTime.isoformat
  simp

/-- The text condition of the claim is the one on the times. -/
theorem sqlite_claimable (codec : JsonCodec) (now : DateTime) (id approvalId : String) (r : CheckpointTable.Row) :
    SQLiteGraphCheckpointStore.claimable now id approvalId (SQLiteGraphCheckpointStore.encode codec r) =
      CheckpointTable.claimable now id approvalId r := by
  unfold SQLiteGraphCheckpointStore.claimable CheckpointTable.claimable SQLiteGraphCheckpointStore.encode GraphRunState.map
  have hflag : (((if r.consumed then (1 : ℤ) else 0) = 0 : Prop) : Bool) = !r.consumed := by
    cases r.consumed <;> rfl
  dsimp only
  rw [hflag]
  cases r.expiresAt with
  | none => rfl
  | some e =>
    have hempty : decide (SQLiteGraphCheckpointStore.formatDt e = []) = false := decide_eq_false (isoformat_ne_nil e)
    show (_ && (decide (SQLiteGraphCheckpointStore.formatDt e = []) ||
      (compare (SQLiteGraphCheckpointStore.formatDt e) (SQLiteGraphCheckpointStore.formatDt now)).isGT)) = _
    rw [hempty, Bool.false_or]
    unfold SQLiteGraphCheckpointStore.formatDt
    rw [← DateTime.compare_eq]
    rfl

theorem sqlite_expirable (codec : JsonCodec) (bound : DateTime) (r : CheckpointTable.Row) :
    SQLiteGraphCheckpointStore.expirable (SQLiteGraphCheckpointStore.formatDt bound)
        (SQLiteGraphCheckpointStore.encode codec r) = CheckpointTable.expirable bound r := by
  unfold SQLiteGraphCheckpointStore.expirable CheckpointTable.expirable SQLiteGraphCheckpointStore.encode GraphRunState.map
  have hflag : (((if r.consumed then (1 : ℤ) else 0) = 0 : Prop) : Bool) = !r.consumed := by
    cases r.consumed <;> rfl
  dsimp only
  rw [hflag]
  cases r.expiresAt with
  | none => rfl
  | some e =>
    have hempty : decide (SQLiteGraphCheckpointStore.formatDt e ≠ []) = true := decide_eq_true (isoformat_ne_nil e)
    show (_ && (decide (SQLiteGraphCheckpointStore.formatDt e ≠ []) &&
      (compare (SQLiteGraphCheckpointStore.formatDt e) (SQLiteGraphCheckpointStore.formatDt bound)).isLE)) = _
    rw [hempty, Bool.true_and]
    unfold SQLiteGraphCheckpointStore.formatDt
    rw [← DateTime.compare_eq]
    rfl

theorem any_map_id {σ : Type} (enc : CheckpointTable.Row → σ) (key : σ → String)
    (hkey : ∀ r, key (enc r) = r.checkpointId) (id : String) :
    ((t.map enc).any fun r => key r = id) = t.any fun r => r.checkpointId = id := by
  rw [List.any_map]
  refine congrArg (t.any ·) (funext fun r => ?_)
  rw [Function.comp_apply, hkey]

/-- Creation times of different checkpoints of the task differ. -/
theorem distinct_times (ht : CheckpointTable.Sound codec t) {taskId : String}
    (hd : (CheckpointOp.getLatest taskId).Distinct (t.map (SQLiteGraphCheckpointStore.encode codec)))
    {a b : CheckpointTable.Row} (ha : a ∈ t.filter fun r => r.taskId = taskId)
    (hb : b ∈ t.filter fun r => r.taskId = taskId) (heq : a.createdAt.compare b.createdAt = .eq) : a = b := by
  rw [List.mem_filter, decide_eq_true_iff] at ha hb
  have htext : a.createdAt.isoformat [] = b.createdAt.isoformat [] := by
    rw [DateTime.compare_eq] at heq
    exact Std.LawfulEqOrd.eq_of_compare heq
  exact ht.unique a ha.1 b hb.1
    (hd _ (List.mem_map_of_mem ha.1) _ (List.mem_map_of_mem hb.1) ha.2 hb.2 htext)

/-- The rows of a task come the latest first, whichever way they are visited. -/
theorem latestFirst_map (ht : CheckpointTable.Sound codec t) {taskId : String}
    (hd : (CheckpointOp.getLatest taskId).Distinct (t.map (SQLiteGraphCheckpointStore.encode codec)))
    {σ κ : Type} (enc : CheckpointTable.Row → σ) {cmp : κ → κ → Ordering} [Std.TransCmp cmp] {key : σ → κ}
    {task : σ → String} (htask : ∀ r, task (enc r) = r.taskId)
    (hkey : ∀ a b, cmp (key (enc a)) (key (enc b)) = a.createdAt.compare b.createdAt) (scan : Scan σ) :
    Table.orderDesc cmp key scan ((t.map enc).filter fun r => task r = taskId) =
      (CheckpointTable.latestFirst taskId t).map enc := by
  rw [List.filter_map]
  have hfilter : (t.filter ((fun r => decide (task r = taskId)) ∘ enc)) = t.filter fun r => r.taskId = taskId :=
    List.filter_congr fun r _ => by rw [Function.comp_apply, htask]
  rw [hfilter]
  refine Table.orderDesc_map scan (List.mergeSort_perm _ _) ?_ fun a ha b hb heq => ?_
  · simp only [hkey]
    exact Table.pairwise_mergeSort (fun r : CheckpointTable.Row => r.createdAt) _
  · rw [hkey] at heq
    exact distinct_times ht hd ha hb heq

theorem sqlite_change {p : CheckpointTable.Row → Bool} {f : CheckpointTable.Row → CheckpointTable.Row}
    {q : SQLiteGraphCheckpointStore.Row → Bool} {g : SQLiteGraphCheckpointStore.Row → SQLiteGraphCheckpointStore.Row}
    (ht : ∀ r ∈ Table.update p f t, CheckpointTable.HoldsJson codec r) (id : String)
    (hq : ∀ r, q (SQLiteGraphCheckpointStore.encode codec r) = p r)
    (hg : ∀ r, g (SQLiteGraphCheckpointStore.encode codec r) = SQLiteGraphCheckpointStore.encode codec (f r)) :
    (Table.update q g (t.map (SQLiteGraphCheckpointStore.encode codec)),
        SQLiteGraphCheckpointStore.getCheckpoint codec id
          (Table.update q g (t.map (SQLiteGraphCheckpointStore.encode codec)))) =
      ((Table.update p f t).map (SQLiteGraphCheckpointStore.encode codec),
        CheckpointTable.get id (Table.update p f t)) := by
  rw [Table.update_map (fun r _ => hq r) (fun r _ _ => hg r), sqlite_get ht]

/-- **SQLite does the step.** -/
theorem sqlite_step (scan : Scan SQLiteGraphCheckpointStore.Row) (now : DateTime) (ht : CheckpointTable.Sound codec t)
    (hop : op.IsJson codec) (hint : op.Int32 0)
    (hd : op.Distinct (t.map (SQLiteGraphCheckpointStore.encode codec))) :
    SQLiteGraphCheckpointStore.step codec scan now op (t.map (SQLiteGraphCheckpointStore.encode codec)) =
      ((CheckpointTable.next now op t).map (SQLiteGraphCheckpointStore.encode codec),
        CheckpointTable.result now op t) := by
  have hnext := CheckpointTable.next_sound now hop ht
  cases op with
  | create a =>
    obtain ⟨⟨hv, hv'⟩, hc, hc'⟩ := hint
    have hint64 : (!SQLiteGraphCheckpointStore.int64 a.schemaVersion ||
        !SQLiteGraphCheckpointStore.int64 a.resumeAttemptCount) = false := by
      unfold SQLiteGraphCheckpointStore.int64
      simp only [Bool.or_eq_false_iff, Bool.not_eq_false', Bool.and_eq_true, decide_eq_true_eq]
      omega
    have hany := any_map_id (t := t) (SQLiteGraphCheckpointStore.encode codec) (fun r => r.checkpointId)
       (fun _ => rfl) a.checkpointId
    show SQLiteGraphCheckpointStore.createCheckpoint codec now a _ = _
    unfold SQLiteGraphCheckpointStore.createCheckpoint CheckpointTable.result
    unfold CheckpointTable.next at hnext ⊢
    dsimp only at hnext ⊢
    rw [hint64, if_neg (by decide), hany]
    split_ifs at hnext ⊢ with h
    · rfl
    · have happend : t.map (SQLiteGraphCheckpointStore.encode codec) ++
          [SQLiteGraphCheckpointStore.encode codec (a.row now)] =
            (t ++ [a.row now]).map (SQLiteGraphCheckpointStore.encode codec) := by simp
      rw [happend, sqlite_get hnext.json]
  | get id =>
    show (_, SQLiteGraphCheckpointStore.getCheckpoint codec id _) = _
    rw [sqlite_get ht.json]
    rfl
  | getLatest taskId =>
    show (_, SQLiteGraphCheckpointStore.getLatestForTask codec scan taskId _) = _
    unfold SQLiteGraphCheckpointStore.getLatestForTask
    rw [latestFirst_map ht hd (SQLiteGraphCheckpointStore.encode codec) (fun _ => rfl)
      (fun a b => (DateTime.compare_eq a.createdAt b.createdAt).symm) scan, List.head?_map, Option.map_map]
    have hview : (CheckpointTable.latestFirst taskId t).head?.map
        (SQLiteGraphCheckpointStore.rowToDict codec ∘ SQLiteGraphCheckpointStore.encode codec) =
          (CheckpointTable.latestFirst taskId t).head?.map CheckpointTable.view := by
      refine Option.map_congr fun r hr => sqlite_view (ht.json r ?_)
      have hmem := (List.mergeSort_perm _ _).mem_iff.mp (List.mem_of_head? hr)
      exact (List.mem_filter.mp hmem).1
    rw [hview]
    rfl
  | markPending id approvalId payload graphState =>
    exact sqlite_change hnext.json id (fun _ => rfl) (fun r => by cases graphState <;> rfl)
  | claim id approvalId =>
    have hclaim := sqlite_claimable codec now id approvalId
    have hupdate : Table.update (SQLiteGraphCheckpointStore.claimable now id approvalId)
        (SQLiteGraphCheckpointStore.claimed now) (t.map (SQLiteGraphCheckpointStore.encode codec)) =
          (CheckpointTable.next now (.claim id approvalId) t).map (SQLiteGraphCheckpointStore.encode codec) :=
      Table.update_map (fun r _ => hclaim r) (fun _ _ _ => rfl)
    show SQLiteGraphCheckpointStore.claimForResume codec now id approvalId _ =
      (_, if t.countP (CheckpointTable.claimable now id approvalId) ≠ 1 then .state none
        else CheckpointTable.get id (CheckpointTable.next now (.claim id approvalId) t))
    unfold SQLiteGraphCheckpointStore.claimForResume
    dsimp only
    rw [hupdate, Table.countP_map fun r _ => hclaim r, sqlite_get hnext.json]
    split_ifs <;> rfl
  | markResumed id resumePayload resultSnapshot =>
    exact sqlite_change hnext.json id (fun _ => rfl) (fun _ => rfl)
  | markCancelled id reason => exact sqlite_change hnext.json id (fun _ => rfl) (fun _ => rfl)
  | expireOld bound =>
    have hexpire := sqlite_expirable codec (bound.getD now)
    have hupdate : Table.update (SQLiteGraphCheckpointStore.expirable (SQLiteGraphCheckpointStore.formatDt (bound.getD now)))
        (SQLiteGraphCheckpointStore.expired (SQLiteGraphCheckpointStore.formatDt (bound.getD now)))
        (t.map (SQLiteGraphCheckpointStore.encode codec)) =
          (CheckpointTable.next now (.expireOld bound) t).map (SQLiteGraphCheckpointStore.encode codec) :=
      Table.update_map (fun r _ => hexpire r) (fun _ _ _ => rfl)
    have hbound : (bound.map SQLiteGraphCheckpointStore.formatDt).getD (SQLiteGraphCheckpointStore.formatDt now) =
        SQLiteGraphCheckpointStore.formatDt (bound.getD now) := by cases bound <;> rfl
    show SQLiteGraphCheckpointStore.expireOld now bound _ = _
    unfold SQLiteGraphCheckpointStore.expireOld
    dsimp only
    rw [hbound, hupdate, Table.countP_map fun r _ => hexpire r]
    rfl

/-- The filter of the claim on Postgres. -/
theorem postgres_claimable (codec : JsonCodec) (now : DateTime) (id approvalId : String) (r : CheckpointTable.Row) :
    PostgresGraphCheckpointStore.claimable now id approvalId (PostgresGraphCheckpointStore.encode codec r) =
      CheckpointTable.claimable now id approvalId r := by
  unfold PostgresGraphCheckpointStore.claimable CheckpointTable.claimable PostgresGraphCheckpointStore.encode
    GraphRunState.map
  cases r.expiresAt <;> rfl

theorem postgres_expirable (codec : JsonCodec) (bound : DateTime) (r : CheckpointTable.Row) :
    PostgresGraphCheckpointStore.expirable bound (PostgresGraphCheckpointStore.encode codec r) =
      CheckpointTable.expirable bound r := by
  unfold PostgresGraphCheckpointStore.expirable CheckpointTable.expirable PostgresGraphCheckpointStore.encode
    GraphRunState.map
  cases r.expiresAt <;> rfl

theorem get_of_none {id : String} (h : (t.any fun r => r.checkpointId = id) = false) :
    CheckpointTable.get id t = .state none := by
  have hfind : (t.find? fun r => r.checkpointId = id) = none :=
    List.find?_eq_none.mpr fun r hr => List.any_eq_false.mp h r hr
  unfold CheckpointTable.get
  rw [hfind]
  rfl

/-- A row of Postgres that is looked up, changed and written back. -/
theorem postgres_change {id : String} {f : CheckpointTable.Row → CheckpointTable.Row} {texts : List String}
    {g : PostgresGraphCheckpointStore.Row → PostgresGraphCheckpointStore.Row}
    (ht : ∀ r ∈ Table.update (fun r => r.checkpointId = id) f t, CheckpointTable.HoldsJson codec r)
    (hid : PostgresGraphCheckpointStore.hasNul id = false)
    (htexts : texts.any PostgresGraphCheckpointStore.hasNul = false)
    (hg : ∀ r, g (PostgresGraphCheckpointStore.encode codec r) = PostgresGraphCheckpointStore.encode codec (f r)) :
    PostgresGraphCheckpointStore.change codec id texts g (t.map (PostgresGraphCheckpointStore.encode codec)) =
      ((Table.update (fun r => r.checkpointId = id) f t).map (PostgresGraphCheckpointStore.encode codec),
        CheckpointTable.get id (Table.update (fun r => r.checkpointId = id) f t)) := by
  have hany := any_map_id (t := t) (PostgresGraphCheckpointStore.encode codec) (fun r => r.checkpointId)
     (fun _ => rfl) id
  have hupdate : Table.update (fun r => r.checkpointId = id) g (t.map (PostgresGraphCheckpointStore.encode codec)) =
      (Table.update (fun r => r.checkpointId = id) f t).map (PostgresGraphCheckpointStore.encode codec) :=
    Table.update_map (fun _ _ => rfl) (fun r _ _ => hg r)
  unfold PostgresGraphCheckpointStore.change
  dsimp only
  rw [hid, if_neg (by decide), hany, htexts, if_neg (by decide : ¬ false = true)]
  cases hnone : t.any fun r => r.checkpointId = id with
  | true => rw [hupdate, postgres_get ht hid]; rfl
  | false => rw [Table.update_of_none hnone, get_of_none hnone]; rfl

/-- **Postgres does the step**, on integers and texts that its columns hold. -/
theorem postgres_step (scan : Scan PostgresGraphCheckpointStore.Row) (now : DateTime) (ht : CheckpointTable.Sound codec t)
    (hop : op.IsJson codec) (hint : op.Int32 0) (hnul : op.NulFree)
    (hcount : op.isClaim = true → ∀ r ∈ t, Int32After 1 r.resumeAttemptCount)
    (hd : op.Distinct (t.map (SQLiteGraphCheckpointStore.encode codec))) :
    PostgresGraphCheckpointStore.step codec scan now op (t.map (PostgresGraphCheckpointStore.encode codec)) =
      ((CheckpointTable.next now op t).map (PostgresGraphCheckpointStore.encode codec),
        CheckpointTable.result now op t) := by
  have hnext := CheckpointTable.next_sound now hop ht
  cases op with
  | create a =>
    obtain ⟨⟨hv, hv'⟩, hc, hc'⟩ := hint
    have hint32 : (!PostgresGraphCheckpointStore.int32 a.schemaVersion ||
        !PostgresGraphCheckpointStore.int32 a.resumeAttemptCount) = false := by
      unfold PostgresGraphCheckpointStore.int32
      simp only [Bool.or_eq_false_iff, Bool.not_eq_false', Bool.and_eq_true, decide_eq_true_eq]
      omega
    have hany := any_map_id (t := t) (PostgresGraphCheckpointStore.encode codec) (fun r => r.checkpointId)
       (fun _ => rfl) a.checkpointId
    have hid : PostgresGraphCheckpointStore.hasNul a.checkpointId = false := hnul _ List.mem_cons_self
    have htexts : a.texts.any PostgresGraphCheckpointStore.hasNul = false :=
      List.any_eq_false.mpr fun s hs => by rw [hnul s hs]; decide
    show PostgresGraphCheckpointStore.createCheckpoint codec now a _ = _
    unfold PostgresGraphCheckpointStore.createCheckpoint CheckpointTable.result
    unfold CheckpointTable.next at hnext ⊢
    dsimp only at hnext ⊢
    rw [hid, htexts, hint32, if_neg (by decide), if_neg (by decide : ¬ false = true), if_neg (by decide : ¬ false = true), hany]
    split_ifs at hnext ⊢ with h
    · rfl
    · have happend : t.map (PostgresGraphCheckpointStore.encode codec) ++
          [PostgresGraphCheckpointStore.encode codec (a.row now)] =
            (t ++ [a.row now]).map (PostgresGraphCheckpointStore.encode codec) := by simp
      rw [happend, postgres_get hnext.json hid]
  | get id =>
    show (_, PostgresGraphCheckpointStore.getCheckpoint codec id _) = _
    rw [postgres_get ht.json (hnul id List.mem_cons_self)]
    rfl
  | getLatest taskId =>
    show (_, PostgresGraphCheckpointStore.getLatestForTask codec scan taskId _) = _
    unfold PostgresGraphCheckpointStore.getLatestForTask
    rw [hnul taskId List.mem_cons_self, latestFirst_map ht hd (PostgresGraphCheckpointStore.encode codec)
      (fun _ => rfl) (fun _ _ => rfl) scan, List.head?_map, Option.map_map]
    have hview : (CheckpointTable.latestFirst taskId t).head?.map
        (PostgresGraphCheckpointStore.rowToDict codec ∘ PostgresGraphCheckpointStore.encode codec) =
          (CheckpointTable.latestFirst taskId t).head?.map CheckpointTable.view := by
      refine Option.map_congr fun r hr => postgres_view (ht.json r ?_)
      have hmem := (List.mergeSort_perm _ _).mem_iff.mp (List.mem_of_head? hr)
      exact (List.mem_filter.mp hmem).1
    rw [hview]
    rfl
  | markPending id approvalId payload graphState =>
    refine postgres_change hnext.json (hnul id List.mem_cons_self) ?_ (fun r => by cases graphState <;> rfl)
    exact List.any_eq_false.mpr fun s hs => by rw [hnul s (List.mem_cons_of_mem _ hs)]; decide
  | claim id approvalId =>
    have hclaim := postgres_claimable codec now id approvalId
    have hupdate : Table.update (PostgresGraphCheckpointStore.claimable now id approvalId)
        (PostgresGraphCheckpointStore.claimed now) (t.map (PostgresGraphCheckpointStore.encode codec)) =
          (CheckpointTable.next now (.claim id approvalId) t).map (PostgresGraphCheckpointStore.encode codec) :=
      Table.update_map (fun r _ => hclaim r) (fun _ _ _ => rfl)
    have hid := hnul id List.mem_cons_self
    have happroval := hnul approvalId (List.mem_cons_of_mem _ List.mem_cons_self)
    have hover : ((t.map (PostgresGraphCheckpointStore.encode codec)).any fun r =>
        PostgresGraphCheckpointStore.claimable now id approvalId r &&
          !PostgresGraphCheckpointStore.int32 (r.resumeAttemptCount + 1)) = false := by
      refine List.any_eq_false.mpr fun r hr => ?_
      obtain ⟨a, ha, rfl⟩ := List.mem_map.mp hr
      obtain ⟨hlow, hhigh⟩ := hcount rfl a ha
      have hint32 : PostgresGraphCheckpointStore.int32 (a.resumeAttemptCount + 1) = true := by
        unfold PostgresGraphCheckpointStore.int32
        simp only [Bool.and_eq_true, decide_eq_true_eq]
        omega
      show ¬ (_ && !PostgresGraphCheckpointStore.int32 (a.resumeAttemptCount + 1)) = true
      rw [hint32]
      simp
    show PostgresGraphCheckpointStore.claimForResume codec now id approvalId _ =
      (_, if t.countP (CheckpointTable.claimable now id approvalId) ≠ 1 then .state none
        else CheckpointTable.get id (CheckpointTable.next now (.claim id approvalId) t))
    unfold PostgresGraphCheckpointStore.claimForResume
    dsimp only
    rw [hid, happroval, hover, if_neg (by decide), if_neg (by decide : ¬ false = true), hupdate,
      Table.countP_map fun r _ => hclaim r, postgres_get hnext.json hid]
    split_ifs <;> rfl
  | markResumed id resumePayload resultSnapshot =>
    exact postgres_change hnext.json (hnul id List.mem_cons_self) rfl (fun _ => rfl)
  | markCancelled id reason =>
    refine postgres_change hnext.json (hnul id List.mem_cons_self) ?_ (fun _ => rfl)
    exact List.any_eq_false.mpr fun s hs => by rw [hnul s (List.mem_cons_of_mem _ hs)]; decide
  | expireOld bound =>
    have hexpire := postgres_expirable codec (bound.getD now)
    have hupdate : Table.update (PostgresGraphCheckpointStore.expirable (bound.getD now))
        (PostgresGraphCheckpointStore.expired (bound.getD now)) (t.map (PostgresGraphCheckpointStore.encode codec)) =
          (CheckpointTable.next now (.expireOld bound) t).map (PostgresGraphCheckpointStore.encode codec) :=
      Table.update_map (fun r _ => hexpire r) (fun _ _ _ => rfl)
    show PostgresGraphCheckpointStore.expireOld now bound _ = _
    unfold PostgresGraphCheckpointStore.expireOld
    dsimp only
    rw [hupdate, Table.countP_map fun r _ => hexpire r]
    rfl

/-! ## Runs -/

/-- The steps of a run, with the results they have. -/
def CheckpointTable.run : List (DateTime × CheckpointOp) → List CheckpointTable.Row →
    List CheckpointTable.Row × List CheckpointResult
  | [], t => (t, [])
  | (now, op) :: ops, t =>
    let (t', results) := CheckpointTable.run ops (CheckpointTable.next now op t)
    (t', CheckpointTable.result now op t :: results)

theorem Int32After.mono {m n : ℕ} {i : ℤ} (hmn : m ≤ n) (h : Int32After n i) : Int32After m i := by
  obtain ⟨hlow, hhigh⟩ := h
  refine ⟨hlow, ?_⟩
  omega

theorem CheckpointOp.Int32.mono {m n : ℕ} (hmn : m ≤ n) (h : op.Int32 n) : op.Int32 m := by
  cases op with
  | create a => exact ⟨h.1, h.2.mono hmn⟩
  | _ => trivial

/-- A claim adds one to an attempt count, and nothing else does. -/
theorem next_count {n : ℕ} (hint : op.Int32 (n + if op.isClaim then 1 else 0))
    (ht : ∀ r ∈ t, Int32After (n + if op.isClaim then 1 else 0) r.resumeAttemptCount) :
    ∀ r ∈ CheckpointTable.next now op t, Int32After n r.resumeAttemptCount := by
  have hkept : ∀ r ∈ t, Int32After n r.resumeAttemptCount := fun r hr => (ht r hr).mono (by omega)
  have hupdate : ∀ r ∈ Table.update (CheckpointTable.change now op).1 (CheckpointTable.change now op).2 t,
      Int32After n r.resumeAttemptCount := by
    intro r hr
    obtain ⟨a, ha, rfl⟩ := Table.mem_update.mp hr
    split_ifs with hchanged
    · cases op with
      | claim id approvalId =>
        obtain ⟨hlow, hhigh⟩ := ht a ha
        have hclaim : (if (CheckpointOp.claim id approvalId).isClaim then 1 else 0) = 1 := rfl
        rw [hclaim] at hhigh
        show -2 ^ 31 ≤ a.resumeAttemptCount + 1 ∧ a.resumeAttemptCount + 1 + n < 2 ^ 31
        omega
      | _ => exact hkept a ha
    · exact hkept a ha
  cases op with
  | create a =>
    intro r hr
    have hr : r ∈ if t.any fun r => r.checkpointId = a.checkpointId then t else t ++ [a.row now] := hr
    split_ifs at hr with hany
    · exact hkept r hr
    · rcases List.mem_append.mp hr with hr | hr
      · exact hkept r hr
      · obtain rfl := List.mem_singleton.mp hr
        exact hint.2.mono (by omega)
  | get _ => exact hkept
  | getLatest _ => exact hkept
  | _ => exact hupdate

/-- Along a run both stores hold the same rows, and have the same results. -/
theorem run_simulates (scan : Scan SQLiteGraphCheckpointStore.Row) (scan' : Scan PostgresGraphCheckpointStore.Row)
    (ops : List (DateTime × CheckpointOp)) {n : ℕ} (ht : CheckpointTable.Sound codec t)
    (hcount : ∀ r ∈ t, Int32After n r.resumeAttemptCount) (hn : claimCount ops ≤ n)
    (hjson : ∀ op ∈ ops, op.2.IsJson codec) (hnul : ∀ op ∈ ops, op.2.NulFree) (hint : ∀ op ∈ ops, op.2.Int32 n)
    (hd : DistinctRun codec scan ops (t.map (SQLiteGraphCheckpointStore.encode codec))) :
    CheckpointTable.Sound codec (CheckpointTable.run ops t).1 ∧
      SQLiteGraphCheckpointStore.run codec scan ops (t.map (SQLiteGraphCheckpointStore.encode codec)) =
        ((CheckpointTable.run ops t).1.map (SQLiteGraphCheckpointStore.encode codec), (CheckpointTable.run ops t).2) ∧
      PostgresGraphCheckpointStore.run codec scan' ops (t.map (PostgresGraphCheckpointStore.encode codec)) =
        ((CheckpointTable.run ops t).1.map (PostgresGraphCheckpointStore.encode codec),
          (CheckpointTable.run ops t).2) := by
  induction ops generalizing t n with
  | nil => exact ⟨ht, rfl, rfl⟩
  | cons op ops ih =>
    obtain ⟨now, op⟩ := op
    simp only [List.mem_cons, forall_eq_or_imp] at hjson hnul hint
    obtain ⟨hdist, hd⟩ := hd
    have hsplit : claimCount ((now, op) :: ops) = claimCount ops + if op.isClaim then 1 else 0 :=
      List.countP_cons
    rw [hsplit] at hn
    -- what is left of the claims, after this one if it is one
    obtain ⟨m, rfl⟩ : ∃ m, n = m + if op.isClaim then 1 else 0 := Nat.exists_eq_add_of_le' (by omega)
    have hlite := sqlite_step scan now ht hjson.1 (hint.1.mono (Nat.zero_le _)) hdist
    have hpost := postgres_step scan' now ht hjson.1 (hint.1.mono (Nat.zero_le _)) hnul.1
      (fun hclaim r hr => (hcount r hr).mono (by rw [hclaim, if_pos rfl]; omega)) hdist
    rw [hlite] at hd
    obtain ⟨hsound, hl, hp⟩ := ih (CheckpointTable.next_sound now hjson.1 ht) (next_count hint.1 hcount) (by omega) hjson.2
      hnul.2 (fun op hop => (hint.2 op hop).mono (by omega)) hd
    refine ⟨hsound, ?_, ?_⟩
    · unfold SQLiteGraphCheckpointStore.run
      rw [hlite]
      dsimp only
      rw [hl]
      rfl
    · unfold PostgresGraphCheckpointStore.run
      rw [hpost]
      dsimp only
      rw [hp]
      rfl

end

/-- Both stores, run from nothing: the results, and the rows as they are read. -/
def StoresAgree (codec : JsonCodec) (scan : Scan SQLiteGraphCheckpointStore.Row)
    (scan' : Scan PostgresGraphCheckpointStore.Row) (ops : List (DateTime × CheckpointOp)) : Prop :=
  (SQLiteGraphCheckpointStore.run codec scan ops []).2 = (PostgresGraphCheckpointStore.run codec scan' ops []).2 ∧
    (SQLiteGraphCheckpointStore.run codec scan ops []).1.map (SQLiteGraphCheckpointStore.rowToDict codec) =
      (PostgresGraphCheckpointStore.run codec scan' ops []).1.map (PostgresGraphCheckpointStore.rowToDict codec)

/-- **The checkpoint stores agree.**  On JSON values, with texts and integers that Postgres has columns for and distinct
creation times where the latest checkpoint of a task is asked for, any run has the same results and reaches the same rows. -/
theorem checkpoint_stores_agree (codec : JsonCodec) (scan : Scan SQLiteGraphCheckpointStore.Row)
    (scan' : Scan PostgresGraphCheckpointStore.Row) (ops : List (DateTime × CheckpointOp))
    (hjson : ∀ op ∈ ops, op.2.IsJson codec) (hd : DistinctRun codec scan ops []) (hnul : ∀ op ∈ ops, op.2.NulFree)
    (hint : ∀ op ∈ ops, op.2.Int32 (claimCount ops)) : StoresAgree codec scan scan' ops := by
  have hempty : CheckpointTable.Sound codec [] := ⟨fun _ hr => (List.not_mem_nil hr).elim, fun _ hr => (List.not_mem_nil hr).elim⟩
  obtain ⟨hsound, hl, hp⟩ := run_simulates scan scan' ops hempty
    (fun _ hr => (List.not_mem_nil hr).elim) le_rfl hjson hnul hint hd
  unfold StoresAgree
  have hl : SQLiteGraphCheckpointStore.run codec scan ops [] = _ := hl
  have hp : PostgresGraphCheckpointStore.run codec scan' ops [] = _ := hp
  rw [hl, hp]
  refine ⟨rfl, ?_⟩
  rw [List.map_map, List.map_map]
  refine List.map_congr_left fun r hr => ?_
  rw [Function.comp_apply, Function.comp_apply, sqlite_view (hsound.json r hr), postgres_view (hsound.json r hr)]

/-- A codec that knows the empty dict. -/
def JsonCodec.braces : JsonCodec where
  dumps _ := "\x7b\x7d".toList
  serialize _ := "\x7b\x7d".toList
  loads text := if text = "null".toList then some .null else if text = "\x7b\x7d".toList then some (.dict []) else none
  loads_null := rfl

theorem JsonCodec.braces_roundTrips : JsonCodec.braces.RoundTrips [] := ⟨by decide, rfl, rfl⟩

/-- Midnight of the first of January 2024, and the day of the month at that time. -/
def january (day : ℕ) (h : 1 ≤ day ∧ day ≤ 31) : DateTime := ⟨⟨2024, 1, day, by decide, by decide, h⟩, .midnight⟩

/-- A checkpoint that is created, found, interrupted and claimed. -/
def claimedRun : List (DateTime × CheckpointOp) :=
  [(january 1 (by decide), .create { checkpointId := "c", taskId := "t", graphState := [] }),
    (january 2 (by decide), .getLatest "t"),
    (january 3 (by decide), .markPending "c" "a" [] none),
    (january 4 (by decide), .claim "c" "a")]

theorem claimedRun_json : ∀ op ∈ claimedRun, op.2.IsJson .braces := by
  have hempty : ∀ op ∈ claimedRun, ∀ d ∈ op.2.jsons, d.isEmpty = true := by decide
  intro op hop d hd
  rw [List.isEmpty_iff.mp (hempty op hop d hd)]
  exact JsonCodec.braces_roundTrips

theorem checkpoint_stores_agree_claimed : StoresAgree .braces (.inserted _) (.inserted _) claimedRun := by
  refine checkpoint_stores_agree .braces (.inserted _) (.inserted _) claimedRun claimedRun_json ?_ ?_ ?_
  · refine ⟨trivial, ?_, trivial, trivial, trivial⟩
    show ∀ a ∈ _, ∀ b ∈ _, _
    decide +kernel
  · have hnul : ∀ op ∈ claimedRun, ∀ s ∈ op.2.texts, PostgresGraphCheckpointStore.hasNul s = false := by decide +kernel
    exact hnul
  · intro op hop
    simp only [claimedRun, List.mem_cons, List.not_mem_nil, or_false] at hop
    rcases hop with rfl | rfl | rfl | rfl
    · exact ⟨⟨by decide, by decide⟩, by decide, by decide +kernel⟩
    · trivial
    · trivial
    · trivial

def CheckpointResult.isRaised : CheckpointResult → Bool
  | .raised _ => true
  | _ => false

/-- An integer of 33 bits, or a text with NUL: SQLite takes it, and Postgres does not. -/
theorem checkpoint_stores_differ :
    (¬ ∀ (codec : JsonCodec) (scan : Scan SQLiteGraphCheckpointStore.Row)
        (scan' : Scan PostgresGraphCheckpointStore.Row) (ops : List (DateTime × CheckpointOp)),
      (∀ op ∈ ops, op.2.IsJson codec) → DistinctRun codec scan ops [] → (∀ op ∈ ops, op.2.NulFree) →
        StoresAgree codec scan scan' ops) ∧
    (¬ ∀ (codec : JsonCodec) (scan : Scan SQLiteGraphCheckpointStore.Row)
        (scan' : Scan PostgresGraphCheckpointStore.Row) (ops : List (DateTime × CheckpointOp)),
      (∀ op ∈ ops, op.2.IsJson codec) → DistinctRun codec scan ops [] → (∀ op ∈ ops, op.2.Int32 (claimCount ops)) →
        StoresAgree codec scan scan' ops) := by
  constructor
  · intro h
    have hresults := (h .braces (.inserted _) (.inserted _)
      [(january 1 (by decide), .create { checkpointId := "c", taskId := "t", graphState := [], schemaVersion := 2 ^ 31 })]
      (by
        intro op hop d hd
        obtain rfl := List.mem_singleton.mp hop
        obtain rfl := List.mem_singleton.mp hd
        exact JsonCodec.braces_roundTrips)
      ⟨trivial, trivial⟩ (by
        intro op hop
        obtain rfl := List.mem_singleton.mp hop
        show ∀ s ∈ CheckpointOp.texts _, _
        decide +kernel)).1
    exact absurd (congrArg (fun results => results.any CheckpointResult.isRaised) hresults) (by decide +kernel)
  · intro h
    have hresults := (h .braces (.inserted _) (.inserted _)
      [(january 1 (by decide), .get (String.ofList [Char.ofNat 0]))]
      (by
        intro op hop d hd
        obtain rfl := List.mem_singleton.mp hop
        cases hd)
      ⟨trivial, trivial⟩ (by
        intro op hop
        obtain rfl := List.mem_singleton.mp hop
        trivial)).1
    exact absurd (congrArg (fun results => results.any CheckpointResult.isRaised) hresults) (by decide +kernel)

end AgentHarness
