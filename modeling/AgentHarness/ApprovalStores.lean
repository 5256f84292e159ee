import AgentHarness.Lib.Mealy
import AgentHarness.TaskStores

/-!
# ApprovalStores — the approval store on SQLite and on Postgres

Both stores keep an approval with its payload as the text of `json.dumps` and its times as readings of one clock.
SQLite has the times as texts and decides with `WHERE status = 'pending'`; Postgres has timestamps and looks for the
pending row before it writes it.  `approval_stores_agree` says that one client cannot tell them apart: a run whose texts
have no NUL, and which lists no two approvals of one time, has the same answers in both.
-/

namespace AgentHarness

open Lib

/-- What `create_approval` is given. -/
structure ApprovalArgs where
  taskId : String
  toolName : String
  action : String
  riskLevel : RiskLevel := .high
  impactScope : String := ""
  agentReason : String := ""
  payload : Option Dict := none

/-- A row of `approvals` or `approval_requests`, over the type of its time columns. -/
structure ApprovalRecord (τ : Type) where
  approvalId : String
  taskId : String
  toolName : String
  action : String
  riskLevel : String
  impactScope : String
  agentReason : String
  status : String
  requestedAt : τ
  decidedAt : Option τ
  decidedBy : Option String
  decisionReason : Option String
  payloadJson : Option (List Char)

/-- The dict that a row is read as; `decide_approval` adds an error to that of a decided approval. -/
structure ApprovalView where
  approvalId : String
  taskId : String
  toolName : String
  action : String
  riskLevel : String
  impactScope : String
  agentReason : String
  status : String
  requestedAt : List Char
  decidedAt : Option (List Char)
  decidedBy : Option String
  decisionReason : Option String
  payload : PyVal
  alreadyDecided : Bool := false
  decisionError : Option String := none

/-- The methods of an approval store; `hex` is the `uuid4().hex` of a new approval. -/
inductive ApprovalOp
  | create (hex : List Char) (args : ApprovalArgs)
  | get (approvalId : String)
  | list (status : Option String) (limit : ℤ)
  | decide (approvalId : String) (approved : Bool) (decidedBy reason : String)
  | updatePayload (approvalId : String) (payloadUpdate : Dict)

inductive ApprovalAnswer
  /-- the `ApprovalRequest`: its id, what it was made of, and its time -/
  | created (approvalId : String) (args : ApprovalArgs) (requestedAt : DateTime)
  | approval (view : Option ApprovalView)
  | approvals (views : List ApprovalView)
  | raised (error : PyExc)

/-- `f"apr_{uuid.uuid4().hex[:12]}"` -/
def newApprovalId (hex : List Char) : String := "apr_" ++ String.ofList (hex.take 12)

/-- The payload column of a new approval. -/
def dumpPayload (codec : ResultCodec) (payload : Option Dict) : Except PyExc (Option (List Char)) :=
  dumpResult codec ((payload.map PyVal.dict).getD .null)

def newApproval {τ : Type} (now : τ) (approvalId : String) (args : ApprovalArgs) (payloadJson : Option (List Char)) :
    ApprovalRecord τ :=
  ⟨approvalId, args.taskId, args.toolName, args.action, args.riskLevel.value, args.impactScope, args.agentReason,
    "pending", now, none, none, none, payloadJson⟩

/-- A collision of ids. -/
def integrityError : ApprovalAnswer := .raised (.storeError "IntegrityError")

def decisionText (approved : Bool) : String := if approved then "approved" else "rejected"

/-- What `decide_approval` adds to the dict of an approval that is not pending. -/
def ApprovalView.decided (view : ApprovalView) : ApprovalView :=
  { view with alreadyDecided := true, decisionError := some ("审批已决策，当前状态为 " ++ view.status) }

def findApproval {τ : Type} (approvalId : String) (t : List (ApprovalRecord τ)) : Option (ApprovalRecord τ) :=
  t.find? fun r => r.approvalId = approvalId

variable (codec : ResultCodec)

/-- The payload that `update_payload` writes. -/
def updatedPayload (current : ApprovalView) (payloadUpdate : Dict) : Except PyExc (Option (List Char)) := do
  let merged ← mergeResult current.payload payloadUpdate
  (codec.dumps merged).map some

/-! ## SQLite -/

namespace SQLiteApprovalStore

abbrev Row := ApprovalRecord (List Char)

/-- `_row_to_dict` -/
def rowToDict (r : Row) : ApprovalView where
  approvalId := r.approvalId
  taskId := r.taskId
  toolName := r.toolName
  action := r.action
  riskLevel := r.riskLevel
  impactScope := r.impactScope
  agentReason := r.agentReason
  status := r.status
  requestedAt := r.requestedAt
  decidedAt := r.decidedAt
  decidedBy := r.decidedBy
  decisionReason := r.decisionReason
  payload := loadResult codec r.payloadJson

/-- `create_approval` -/
def createApproval (now : DateTime) (hex : List Char) (args : ApprovalArgs) (t : List Row) :
    List Row × ApprovalAnswer :=
  let approvalId := newApprovalId hex
  match dumpPayload codec args.payload with
  | .error exc => (t, .raised exc)
  | .ok payloadJson =>
    if t.any fun r => r.approvalId = approvalId then (t, integrityError)
    else (t ++ [newApproval (now.isoformat []) approvalId args payloadJson], .created approvalId args now)

/-- `get_approval` -/
def getApproval (approvalId : String) (t : List Row) : Option ApprovalView :=
  (findApproval approvalId t).map (rowToDict codec)

/-- The rows of a listing: those of a status, or all. -/
def listed (status : Option String) (r : Row) : Bool := status.all fun status => r.status = status

/-- `list_approvals` -/
def listApprovals (scan : Scan Row) (status : Option String) (limit : ℤ) (t : List Row) : List ApprovalView :=
  ((Table.orderDesc compare (·.requestedAt) scan (t.filter (listed status))).take (listLimit limit)).map
    (rowToDict codec)

/-- The row of a decision. -/
def decideRow (now : DateTime) (approved : Bool) (decidedBy reason : String) (r : Row) : Row :=
  { r with
    status := decisionText approved
    decidedAt := some (now.isoformat [])
    decidedBy := some decidedBy
    decisionReason := some reason }

/-- `decide_approval` -/
def decideApproval (now : DateTime) (approvalId : String) (approved : Bool) (decidedBy reason : String) (t : List Row) :
    List Row × ApprovalAnswer :=
  match getApproval codec approvalId t with
  | none => (t, .approval none)
  | some current =>
    if current.status ≠ "pending" then (t, .approval (some current.decided))
    else
      let t := Table.update (fun r => r.approvalId = approvalId && r.status = "pending")
        (decideRow now approved decidedBy reason) t
      (t, .approval (getApproval codec approvalId t))

/-- `update_payload` -/
def updatePayload (approvalId : String) (payloadUpdate : Dict) (t : List Row) : List Row × ApprovalAnswer :=
  match getApproval codec approvalId t with
  | none => (t, .approval none)
  | some current =>
    match updatedPayload codec current payloadUpdate with
    | .error exc => (t, .raised exc)
    | .ok payloadJson =>
      let t := Table.update (fun r => r.approvalId = approvalId) (fun r => { r with payloadJson := payloadJson }) t
      (t, .approval (getApproval codec approvalId t))

/-- A method with its reading of the clock. -/
def serve (scan : Scan Row) : Mealy (DateTime × ApprovalOp) (List Row) ApprovalAnswer
  | (now, .create hex args), t => createApproval codec now hex args t
  | (_, .get approvalId), t => (t, .approval (getApproval codec approvalId t))
  | (_, .list status limit), t => (t, .approvals (listApprovals codec scan status limit t))
  | (now, .decide approvalId approved decidedBy reason), t =>
    decideApproval codec now approvalId approved decidedBy reason t
  | (_, .updatePayload approvalId payloadUpdate), t => updatePayload codec approvalId payloadUpdate t

end SQLiteApprovalStore

/-! ## Postgres -/

/-- The texts of an operation; those of JSON have no NUL. -/
def ApprovalOp.texts : ApprovalOp → List String
  | .create hex args =>
    [newApprovalId hex, args.taskId, args.toolName, args.action, args.impactScope, args.agentReason]
  | .get approvalId => [approvalId]
  | .list status _ => status.toList
  | .decide approvalId _ decidedBy reason => [approvalId, decidedBy, reason]
  | .updatePayload approvalId _ => [approvalId]

namespace PostgresApprovalStore

abbrev Row := ApprovalRecord DateTime

/-- A text that the driver refuses. -/
def dataError : PyExc := .storeError "DataError"

/-- `_row_to_dict`; `requested_at` is never empty, for every insert gives it. -/
def rowToDict (r : Row) : ApprovalView where
  approvalId := r.approvalId
  taskId := r.taskId
  toolName := r.toolName
  action := r.action
  riskLevel := r.riskLevel
  impactScope := r.impactScope
  agentReason := r.agentReason
  status := r.status
  requestedAt := r.requestedAt.isoformat []
  decidedAt := r.decidedAt.map (·.isoformat [])
  decidedBy := r.decidedBy
  decisionReason := r.decisionReason
  payload := loadResult codec r.payloadJson

/-- `create_approval` -/
def createApproval (now : DateTime) (hex : List Char) (args : ApprovalArgs) (t : List Row) :
    List Row × ApprovalAnswer :=
  let approvalId := newApprovalId hex
  match dumpPayload codec args.payload with
  | .error exc => (t, .raised exc)
  | .ok payloadJson =>
    if (ApprovalOp.create hex args).texts.any hasNulCharacter then (t, .raised dataError)
    else if t.any fun r => r.approvalId = approvalId then (t, integrityError)
    else (t ++ [newApproval now approvalId args payloadJson], .created approvalId args now)

/-- `get_approval` -/
def getApproval (approvalId : String) (t : List Row) : Except PyExc (Option ApprovalView) :=
  if hasNulCharacter approvalId then .error dataError
  else .ok ((findApproval approvalId t).map (rowToDict codec))

/-- The rows of a listing: all, or those of a status. -/
def listed (status : Option String) (r : Row) : Bool := status.all fun status => r.status = status

/-- `list_approvals` -/
def listApprovals (scan : Scan Row) (status : Option String) (limit : ℤ) (t : List Row) :
    Except PyExc (List ApprovalView) :=
  if status.any hasNulCharacter then .error dataError
  else .ok (((Table.orderDesc DateTime.compare (·.requestedAt) scan (t.filter (listed status))).take
    (listLimit limit)).map (rowToDict codec))

/-- The row of a decision. -/
def decideRow (now : DateTime) (approved : Bool) (decidedBy reason : String) (r : Row) : Row :=
  { r with
    status := decisionText approved
    decidedAt := some now
    decidedBy := some decidedBy
    decisionReason := some reason }

def answerOf (t : List Row) : Except PyExc (Option ApprovalView) → List Row × ApprovalAnswer
  | .ok view => (t, .approval view)
  | .error exc => (t, .raised exc)

/-- `decide_approval`: the pending row is looked for, and then written by its key. -/
def decideApproval (now : DateTime) (approvalId : String) (approved : Bool) (decidedBy reason : String) (t : List Row) :
    List Row × ApprovalAnswer :=
  match getApproval codec approvalId t with
  | .error exc => (t, .raised exc)
  | .ok none => (t, .approval none)
  | .ok (some current) =>
    if current.status ≠ "pending" then (t, .approval (some current.decided))
    else
      match t.find? fun r => r.approvalId = approvalId && r.status = "pending" with
      | none => (t, .approval none)
      | some row =>
        if hasNulCharacter decidedBy || hasNulCharacter reason then (t, .raised dataError)
        else
          let t := Table.update (fun r => r.approvalId = row.approvalId) (decideRow now approved decidedBy reason) t
          answerOf t (getApproval codec approvalId t)

/-- `update_payload` -/
def updatePayload (approvalId : String) (payloadUpdate : Dict) (t : List Row) : List Row × ApprovalAnswer :=
  match getApproval codec approvalId t with
  | .error exc => (t, .raised exc)
  | .ok none => (t, .approval none)
  | .ok (some current) =>
    match updatedPayload codec current payloadUpdate with
    | .error exc => (t, .raised exc)
    | .ok payloadJson =>
      match findApproval approvalId t with
      | none => (t, .approval none)
      | some row =>
        let t := Table.update (fun r => r.approvalId = row.approvalId)
          (fun r => { r with payloadJson := payloadJson }) t
        answerOf t (getApproval codec approvalId t)

/-- A method with its reading of the clock. -/
def serve (scan : Scan Row) : Mealy (DateTime × ApprovalOp) (List Row) ApprovalAnswer
  | (now, .create hex args), t => createApproval codec now hex args t
  | (_, .get approvalId), t => answerOf t (getApproval codec approvalId t)
  | (_, .list status limit), t =>
    match listApprovals codec scan status limit t with
    | .ok views => (t, .approvals views)
    | .error exc => (t, .raised exc)
  | (now, .decide approvalId approved decidedBy reason), t =>
    decideApproval codec now approvalId approved decidedBy reason t
  | (_, .updatePayload approvalId payloadUpdate), t => updatePayload codec approvalId payloadUpdate t

end PostgresApprovalStore

/-! ## What the methods do with the row of an id -/

section
variable {τ : Type} {t : List (ApprovalRecord τ)} {approvalId : String}

theorem findApproval_id {r : ApprovalRecord τ} (hfind : findApproval approvalId t = some r) :
    r.approvalId = approvalId := by
  have hfound := List.find?_some hfind
  exact of_decide_eq_true hfound

theorem findApproval_update {f : ApprovalRecord τ → ApprovalRecord τ} (hf : ∀ r, (f r).approvalId = r.approvalId) :
    findApproval approvalId (Table.update (fun r => r.approvalId = approvalId) f t) =
      (findApproval approvalId t).map f := by
  have hid : ∀ r : ApprovalRecord τ,
      (if decide (r.approvalId = approvalId) = true then f r else r).approvalId = r.approvalId := by
    intro r
    split
    · exact hf r
    · rfl
  unfold findApproval Table.update
  rw [List.find?_map]
  cases hfind : t.find? fun r => decide (r.approvalId = approvalId) with
  | none =>
    rw [Table.find?_congr (q := fun r => decide (r.approvalId = approvalId)) fun r _ => by
      rw [Function.comp_apply, hid r], hfind]
    rfl
  | some r =>
    rw [Table.find?_congr (q := fun r => decide (r.approvalId = approvalId)) fun r _ => by
      rw [Function.comp_apply, hid r], hfind]
    exact congrArg some (if_pos (decide_eq_true (findApproval_id hfind)))

/-- The row found by its id is the one that is pending. -/
theorem find_pending {r : ApprovalRecord τ} (hfind : findApproval approvalId t = some r)
    (hpending : r.status = "pending") :
    (t.find? fun r => r.approvalId = approvalId && r.status = "pending") = some r := by
  obtain ⟨hid, before, after, rfl, hbefore⟩ := List.find?_eq_some_iff_append.mp hfind
  refine List.find?_eq_some_iff_append.mpr ⟨?_, before, after, rfl, fun a ha => ?_⟩
  · rw [hid, hpending]
    rfl
  · rw [Bool.not_and, hbefore a ha]
    rfl

/-- The rows of the id that are pending are those of the id. -/
theorem update_pending (hd : (t.map (·.approvalId)).Nodup) {r : ApprovalRecord τ}
    (hfind : findApproval approvalId t = some r) (hpending : r.status = "pending")
    (f : ApprovalRecord τ → ApprovalRecord τ) :
    Table.update (fun r => r.approvalId = approvalId && r.status = "pending") f t =
      Table.update (fun r => r.approvalId = approvalId) f t := by
  refine Table.update_congr fun a ha => ?_
  by_cases h : a.approvalId = approvalId
  · have hsame : a = r :=
      List.inj_on_of_nodup_map hd ha (List.mem_of_find?_eq_some hfind) (h.trans (findApproval_id hfind).symm)
    rw [hsame, hpending, decide_eq_true (rfl : "pending" = "pending"), Bool.and_true]
  · rw [decide_eq_false h, Bool.false_and]

end

/-- The answer of a method that changed the row of an id. -/
def answerRow {τ : Type} (rowToDict : ApprovalRecord τ → ApprovalView) (approvalId : String)
    (f : ApprovalRecord τ → ApprovalRecord τ) (r : ApprovalRecord τ) (t : List (ApprovalRecord τ)) :
    List (ApprovalRecord τ) × ApprovalAnswer :=
  (Table.update (fun r => r.approvalId = approvalId) f t, .approval (some (rowToDict (f r))))

/-- `decide_approval` on the row of its id. -/
def decideFound {τ : Type} (rowToDict : ApprovalRecord τ → ApprovalView)
    (decideRow : ApprovalRecord τ → ApprovalRecord τ) (approvalId : String) (t : List (ApprovalRecord τ)) :
    List (ApprovalRecord τ) × ApprovalAnswer :=
  match findApproval approvalId t with
  | none => (t, .approval none)
  | some r =>
    if r.status = "pending" then answerRow rowToDict approvalId decideRow r t
    else (t, .approval (some (rowToDict r).decided))

/-- `update_payload` on the row of its id. -/
def updateFound {τ : Type} (rowToDict : ApprovalRecord τ → ApprovalView) (approvalId : String) (payloadUpdate : Dict)
    (t : List (ApprovalRecord τ)) : List (ApprovalRecord τ) × ApprovalAnswer :=
  match findApproval approvalId t with
  | none => (t, .approval none)
  | some r =>
    match updatedPayload codec (rowToDict r) payloadUpdate with
    | .error exc => (t, .raised exc)
    | .ok payloadJson => answerRow rowToDict approvalId (fun r => { r with payloadJson := payloadJson }) r t

section
variable {codec} {now : DateTime} {approvalId : String}

theorem SQLiteApprovalStore.decideApproval_eq {t : List SQLiteApprovalStore.Row} (hd : (t.map (·.approvalId)).Nodup)
    {approved : Bool} {decidedBy reason : String} :
    SQLiteApprovalStore.decideApproval codec now approvalId approved decidedBy reason t =
      decideFound (SQLiteApprovalStore.rowToDict codec) (SQLiteApprovalStore.decideRow now approved decidedBy reason)
        approvalId t := by
  unfold SQLiteApprovalStore.decideApproval decideFound SQLiteApprovalStore.getApproval
  cases hfind : findApproval approvalId t with
  | none => rfl
  | some r =>
    have hstatus : (SQLiteApprovalStore.rowToDict codec r).status = r.status := rfl
    dsimp only [Option.map_some]
    rw [hstatus]
    by_cases hpending : r.status = "pending"
    · rw [if_neg (not_not.mpr hpending), if_pos hpending, update_pending hd hfind hpending]
      rw [findApproval_update fun _ => by rfl, hfind]
      rfl
    · rw [if_pos hpending, if_neg hpending]

theorem SQLiteApprovalStore.updatePayload_eq {t : List SQLiteApprovalStore.Row} {payloadUpdate : Dict} :
    SQLiteApprovalStore.updatePayload codec approvalId payloadUpdate t =
      updateFound codec (SQLiteApprovalStore.rowToDict codec) approvalId payloadUpdate t := by
  unfold SQLiteApprovalStore.updatePayload updateFound SQLiteApprovalStore.getApproval
  cases hfind : findApproval approvalId t with
  | none => rfl
  | some r =>
    dsimp only [Option.map_some]
    cases updatedPayload codec (SQLiteApprovalStore.rowToDict codec r) payloadUpdate with
    | error exc => rfl
    | ok payloadJson =>
      dsimp only
      rw [findApproval_update fun _ => by rfl, hfind]
      rfl

theorem PostgresApprovalStore.getApproval_eq {t : List PostgresApprovalStore.Row}
    (hnul : hasNulCharacter approvalId = false) :
    PostgresApprovalStore.getApproval codec approvalId t =
      .ok ((findApproval approvalId t).map (PostgresApprovalStore.rowToDict codec)) := by
  unfold PostgresApprovalStore.getApproval
  rw [hnul]
  rfl

theorem PostgresApprovalStore.decideApproval_eq {t : List PostgresApprovalStore.Row} {approved : Bool}
    {decidedBy reason : String}
    (hnul : ∀ s ∈ (ApprovalOp.decide approvalId approved decidedBy reason).texts, hasNulCharacter s = false) :
    PostgresApprovalStore.decideApproval codec now approvalId approved decidedBy reason t =
      decideFound (PostgresApprovalStore.rowToDict codec)
        (PostgresApprovalStore.decideRow now approved decidedBy reason) approvalId t := by
  have hid : hasNulCharacter approvalId = false := hnul _ List.mem_cons_self
  have hby : hasNulCharacter decidedBy = false := hnul _ (List.mem_cons_of_mem _ List.mem_cons_self)
  have hreason : hasNulCharacter reason = false :=
    hnul _ (List.mem_cons_of_mem _ (List.mem_cons_of_mem _ List.mem_cons_self))
  unfold PostgresApprovalStore.decideApproval decideFound
  rw [PostgresApprovalStore.getApproval_eq hid]
  cases hfind : findApproval approvalId t with
  | none => rfl
  | some r =>
    have hstatus : (PostgresApprovalStore.rowToDict codec r).status = r.status := rfl
    dsimp only [Option.map_some]
    rw [hstatus]
    by_cases hpending : r.status = "pending"
    · rw [if_neg (not_not.mpr hpending), if_pos hpending, find_pending hfind hpending]
      dsimp only
      rw [hby, hreason, findApproval_id hfind, PostgresApprovalStore.getApproval_eq hid,
        findApproval_update fun _ => by rfl, hfind]
      rfl
    · rw [if_pos hpending, if_neg hpending]

theorem PostgresApprovalStore.updatePayload_eq {t : List PostgresApprovalStore.Row}
    (hnul : hasNulCharacter approvalId = false) {payloadUpdate : Dict} :
    PostgresApprovalStore.updatePayload codec approvalId payloadUpdate t =
      updateFound codec (PostgresApprovalStore.rowToDict codec) approvalId payloadUpdate t := by
  unfold PostgresApprovalStore.updatePayload updateFound
  rw [PostgresApprovalStore.getApproval_eq hnul]
  cases hfind : findApproval approvalId t with
  | none => rfl
  | some r =>
    dsimp only [Option.map_some]
    cases updatedPayload codec (PostgresApprovalStore.rowToDict codec r) payloadUpdate with
    | error exc => rfl
    | ok payloadJson =>
      dsimp only
      rw [findApproval_id hfind, PostgresApprovalStore.getApproval_eq hnul, findApproval_update fun _ => by rfl, hfind]
      rfl

end

/-! ## The rows of one store as the other keeps them -/

/-- A row of Postgres as SQLite keeps it. -/
def ApprovalRecord.iso (r : PostgresApprovalStore.Row) : SQLiteApprovalStore.Row :=
  { r with
    requestedAt := r.requestedAt.isoformat []
    decidedAt := r.decidedAt.map (·.isoformat []) }

/-- No NUL; and an engine that lists has no tie to break. -/
def ApprovalOp.Meets (op : ApprovalOp) (t : List SQLiteApprovalStore.Row) : Prop :=
  (∀ s ∈ op.texts, hasNulCharacter s = false) ∧
    match op with
    | .list status _ => ((t.filter (SQLiteApprovalStore.listed status)).map (·.requestedAt)).Nodup
    | _ => True

section
variable {codec} {t : List PostgresApprovalStore.Row} {now : DateTime} {approvalId : String}

theorem findApproval_iso : findApproval approvalId (t.map ApprovalRecord.iso) =
    (findApproval approvalId t).map ApprovalRecord.iso := List.find?_map

theorem any_iso : ((t.map ApprovalRecord.iso).any fun r => r.approvalId = approvalId) =
    t.any fun r => r.approvalId = approvalId := List.any_map

theorem getApproval_iso (hnul : hasNulCharacter approvalId = false) :
    PostgresApprovalStore.getApproval codec approvalId t =
      .ok (SQLiteApprovalStore.getApproval codec approvalId (t.map ApprovalRecord.iso)) := by
  unfold PostgresApprovalStore.getApproval SQLiteApprovalStore.getApproval
  rw [hnul, findApproval_iso, Option.map_map]
  rfl

theorem filter_iso (status : Option String) :
    (t.map ApprovalRecord.iso).filter (SQLiteApprovalStore.listed status) =
      (t.filter (PostgresApprovalStore.listed status)).map ApprovalRecord.iso := List.filter_map

theorem createApproval_iso {hex : List Char} {args : ApprovalArgs}
    (hnul : ∀ s ∈ (ApprovalOp.create hex args).texts, hasNulCharacter s = false) :
    SQLiteApprovalStore.createApproval codec now hex args (t.map ApprovalRecord.iso) =
      ((PostgresApprovalStore.createApproval codec now hex args t).1.map ApprovalRecord.iso,
        (PostgresApprovalStore.createApproval codec now hex args t).2) := by
  have htexts : (ApprovalOp.create hex args).texts.any hasNulCharacter = false :=
    List.any_eq_false.mpr fun s hs => by rw [hnul s hs]; decide
  unfold SQLiteApprovalStore.createApproval PostgresApprovalStore.createApproval
  dsimp only
  rw [any_iso]
  cases dumpPayload codec args.payload with
  | error exc => rfl
  | ok payloadJson =>
    dsimp only
    rw [htexts, if_neg (by decide : ¬ false = true)]
    split
    · rfl
    · rw [List.map_append]
      rfl

/-- Rows of distinct times are listed in one order. -/
theorem listApprovals_iso {scan : Scan SQLiteApprovalStore.Row} {scan' : Scan PostgresApprovalStore.Row}
    {status : Option String} {limit : ℤ} (hnul : status.any hasNulCharacter = false)
    (hties : (((t.map ApprovalRecord.iso).filter (SQLiteApprovalStore.listed status)).map (·.requestedAt)).Nodup) :
    PostgresApprovalStore.listApprovals codec scan' status limit t =
      .ok (SQLiteApprovalStore.listApprovals codec scan status limit (t.map ApprovalRecord.iso)) := by
  rw [filter_iso, List.map_map] at hties
  have hinj := List.inj_on_of_nodup_map hties
  obtain ⟨l, hl, hsorted⟩ : ∃ l : List PostgresApprovalStore.Row,
      l.Perm (t.filter (PostgresApprovalStore.listed status)) ∧
        l.Pairwise fun a b => (a.requestedAt.compare b.requestedAt).isGE = true :=
    ⟨_, List.mergeSort_perm _ _, Table.pairwise_mergeSort (fun r : PostgresApprovalStore.Row => r.requestedAt) _⟩
  have hlite : Table.orderDesc compare (·.requestedAt) scan
      ((t.filter (PostgresApprovalStore.listed status)).map ApprovalRecord.iso) = l.map ApprovalRecord.iso := by
    refine Table.orderDesc_map scan hl (hsorted.imp fun {a b} hge => ?_) fun a ha b hb heq => ?_
    · rw [DateTime.compare_eq] at hge
      exact hge
    · exact hinj ha hb (Std.LawfulEqOrd.eq_of_compare heq)
  have hpost : Table.orderDesc DateTime.compare (·.requestedAt) scan' (t.filter (PostgresApprovalStore.listed status)) =
      l := by
    have h : Table.orderDesc DateTime.compare (·.requestedAt) scan'
        ((t.filter (PostgresApprovalStore.listed status)).map id) = l.map id := by
      refine Table.orderDesc_map scan' hl hsorted fun a ha b hb heq => ?_
      rw [DateTime.compare_eq] at heq
      exact hinj ha hb (Std.LawfulEqOrd.eq_of_compare heq)
    rwa [List.map_id, List.map_id] at h
  unfold PostgresApprovalStore.listApprovals SQLiteApprovalStore.listApprovals
  rw [hnul, if_neg (by decide), filter_iso, hlite, hpost, ← List.map_take, List.map_map]
  rfl

theorem update_iso {f : PostgresApprovalStore.Row → PostgresApprovalStore.Row}
    {g : SQLiteApprovalStore.Row → SQLiteApprovalStore.Row} (hfg : ∀ r, g r.iso = (f r).iso) :
    Table.update (fun r => r.approvalId = approvalId) g (t.map ApprovalRecord.iso) =
      (Table.update (fun r => r.approvalId = approvalId) f t).map ApprovalRecord.iso :=
  Table.update_map (fun _ _ => rfl) fun r _ _ => hfg r

theorem ids_iso : (t.map ApprovalRecord.iso).map (·.approvalId) = t.map (·.approvalId) := List.map_map

theorem decideApproval_iso (hd : (t.map (·.approvalId)).Nodup) {approved : Bool} {decidedBy reason : String}
    (hnul : ∀ s ∈ (ApprovalOp.decide approvalId approved decidedBy reason).texts, hasNulCharacter s = false) :
    SQLiteApprovalStore.decideApproval codec now approvalId approved decidedBy reason (t.map ApprovalRecord.iso) =
      ((PostgresApprovalStore.decideApproval codec now approvalId approved decidedBy reason t).1.map ApprovalRecord.iso,
        (PostgresApprovalStore.decideApproval codec now approvalId approved decidedBy reason t).2) := by
  rw [SQLiteApprovalStore.decideApproval_eq (by rw [ids_iso]; exact hd), PostgresApprovalStore.decideApproval_eq hnul]
  unfold decideFound
  rw [findApproval_iso]
  cases findApproval approvalId t with
  | none => rfl
  | some r =>
    have hstatus : r.iso.status = r.status := rfl
    dsimp only [Option.map_some]
    rw [hstatus]
    split
    · unfold answerRow
      rw [update_iso (f := PostgresApprovalStore.decideRow now approved decidedBy reason) fun _ => by rfl]
      rfl
    · rfl

theorem updatePayload_iso (hnul : hasNulCharacter approvalId = false) {payloadUpdate : Dict} :
    SQLiteApprovalStore.updatePayload codec approvalId payloadUpdate (t.map ApprovalRecord.iso) =
      ((PostgresApprovalStore.updatePayload codec approvalId payloadUpdate t).1.map ApprovalRecord.iso,
        (PostgresApprovalStore.updatePayload codec approvalId payloadUpdate t).2) := by
  rw [SQLiteApprovalStore.updatePayload_eq, PostgresApprovalStore.updatePayload_eq hnul]
  unfold updateFound
  rw [findApproval_iso]
  cases findApproval approvalId t with
  | none => rfl
  | some r =>
    have hview : SQLiteApprovalStore.rowToDict codec r.iso = PostgresApprovalStore.rowToDict codec r := rfl
    dsimp only [Option.map_some]
    rw [hview]
    cases updatedPayload codec (PostgresApprovalStore.rowToDict codec r) payloadUpdate with
    | error exc => rfl
    | ok payloadJson =>
      dsimp only
      unfold answerRow
      rw [update_iso (f := fun r => { r with payloadJson := payloadJson }) fun _ => by rfl]
      rfl

/-- Both stores keep the ids of the rows distinct. -/
theorem ids_kept {scan : Scan PostgresApprovalStore.Row} {request : DateTime × ApprovalOp}
    (hd : (t.map (·.approvalId)).Nodup) :
    (((PostgresApprovalStore.serve codec scan request t).1).map (·.approvalId)).Nodup := by
  obtain ⟨now, op⟩ := request
  have hsame : ∀ {p : PostgresApprovalStore.Row → Bool} {f : PostgresApprovalStore.Row → PostgresApprovalStore.Row},
      (∀ r, (f r).approvalId = r.approvalId) → ((Table.update p f t).map (·.approvalId)).Nodup := by
    intro p f hf
    rw [Table.map_update fun r _ _ => hf r]
    exact hd
  have hanswer : ∀ (t' : List PostgresApprovalStore.Row) view, (PostgresApprovalStore.answerOf t' view).1 = t' := by
    intro t' view
    cases view <;> rfl
  cases op with
  | create hex args =>
    show (((PostgresApprovalStore.createApproval codec now hex args t).1).map (·.approvalId)).Nodup
    unfold PostgresApprovalStore.createApproval
    dsimp only
    split
    · exact hd
    · split_ifs with _ hnew
      · exact hd
      · exact hd
      · rw [List.map_append]
        refine List.nodup_append.mpr ⟨hd, List.nodup_singleton _, fun a ha b hb => ?_⟩
        obtain ⟨r, hr, rfl⟩ := List.mem_map.mp ha
        rw [List.mem_singleton.mp hb]
        intro hid
        exact hnew (List.any_eq_true.mpr ⟨r, hr, decide_eq_true hid⟩)
  | get approvalId =>
    show ((PostgresApprovalStore.answerOf t _).1.map (·.approvalId)).Nodup
    rw [hanswer]
    exact hd
  | list status limit =>
    unfold PostgresApprovalStore.serve
    dsimp only
    cases PostgresApprovalStore.listApprovals codec scan status limit t <;> exact hd
  | decide approvalId approved decidedBy reason =>
    show (((PostgresApprovalStore.decideApproval codec now approvalId approved decidedBy reason t).1).map
      (·.approvalId)).Nodup
    unfold PostgresApprovalStore.decideApproval
    split
    · exact hd
    · exact hd
    · split
      · exact hd
      · split
        · exact hd
        · split
          · exact hd
          · rw [hanswer]
            exact hsame fun _ => rfl
  | updatePayload approvalId payloadUpdate =>
    show (((PostgresApprovalStore.updatePayload codec approvalId payloadUpdate t).1).map (·.approvalId)).Nodup
    unfold PostgresApprovalStore.updatePayload
    split
    · exact hd
    · exact hd
    · split
      · exact hd
      · split
        · exact hd
        · rw [hanswer]
          exact hsame fun _ => rfl

/-- One step of both stores: the rows stay the rows of the other, and the answers are equal. -/
theorem serve_iso {scan : Scan SQLiteApprovalStore.Row} {scan' : Scan PostgresApprovalStore.Row}
    {request : DateTime × ApprovalOp} (hd : (t.map (·.approvalId)).Nodup)
    (h : request.2.Meets (t.map ApprovalRecord.iso)) :
    SQLiteApprovalStore.serve codec scan request (t.map ApprovalRecord.iso) =
      ((PostgresApprovalStore.serve codec scan' request t).1.map ApprovalRecord.iso,
        (PostgresApprovalStore.serve codec scan' request t).2) := by
  obtain ⟨now, op⟩ := request
  obtain ⟨hnul, hties⟩ := h
  cases op with
  | create hex args => exact createApproval_iso hnul
  | get approvalId =>
    unfold SQLiteApprovalStore.serve PostgresApprovalStore.serve
    dsimp only
    rw [getApproval_iso (hnul _ List.mem_cons_self)]
    rfl
  | list status limit =>
    have hstatus : status.any hasNulCharacter = false := by
      cases status with
      | none => rfl
      | some status => exact hnul _ List.mem_cons_self
    unfold SQLiteApprovalStore.serve PostgresApprovalStore.serve
    dsimp only
    rw [listApprovals_iso hstatus hties]
  | decide approvalId approved decidedBy reason => exact decideApproval_iso hd hnul
  | updatePayload approvalId payloadUpdate => exact updatePayload_iso (hnul _ List.mem_cons_self)

end

/-- **The approval stores agree.**  From empty tables, a run whose requests have no NUL, and list no two approvals of
one time, has the same answers in both stores, in whichever order their engines visit the rows. -/
theorem approval_stores_agree (scan : Scan SQLiteApprovalStore.Row) (scan' : Scan PostgresApprovalStore.Row)
    (requests : List (DateTime × ApprovalOp))
    (h : Mealy.Meets (fun request => request.2.Meets) (SQLiteApprovalStore.serve codec scan) requests []) :
    Mealy.answers (SQLiteApprovalStore.serve codec scan) requests [] =
      Mealy.answers (PostgresApprovalStore.serve codec scan') requests [] := by
  refine Mealy.answers_eq
    (R := fun s t => s = t.map ApprovalRecord.iso ∧ (t.map fun r : PostgresApprovalStore.Row => r.approvalId).Nodup)
    (fun request s t hst hok => ?_) ⟨rfl, List.nodup_nil⟩ h
  obtain ⟨rfl, hd⟩ := hst
  have hstep : SQLiteApprovalStore.serve codec scan request (t.map ApprovalRecord.iso) =
      ((PostgresApprovalStore.serve codec scan' request t).1.map ApprovalRecord.iso,
        (PostgresApprovalStore.serve codec scan' request t).2) := serve_iso hd hok
  rw [hstep]
  exact ⟨⟨rfl, ids_kept hd⟩, rfl⟩

theorem one_lt_day : 1 < 24 := by decide

theorem two_lt_day : 2 < 24 := by decide

theorem three_lt_day : 3 < 24 := by decide

theorem four_lt_day : 4 < 24 := by decide

/-- An approval that is asked for, decided, decided again and listed. -/
def decidedTwice : List (DateTime × ApprovalOp) :=
  [(newYear 1 one_lt_day, .create "0123456789abcdef".toList { taskId := "t", toolName := "mail", action := "send" }),
    (newYear 2 two_lt_day, .decide "apr_0123456789ab" true "admin" "ok"),
    (newYear 3 three_lt_day, .decide "apr_0123456789ab" false "bob" "no"),
    (newYear 4 four_lt_day, .list (some "approved") 0)]

theorem approval_stores_agree_decided :
    Mealy.answers (SQLiteApprovalStore.serve .braces (.inserted _)) decidedTwice [] =
      Mealy.answers (PostgresApprovalStore.serve .braces (.inserted _)) decidedTwice [] := by
  refine approval_stores_agree .braces (.inserted _) (.inserted _) decidedTwice
    ⟨⟨?_, trivial⟩, ⟨?_, trivial⟩, ⟨?_, trivial⟩, ⟨?_, ?_⟩, trivial⟩ <;> decide +kernel

end AgentHarness
