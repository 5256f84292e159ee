import AgentHarness.ApprovalStores
import AgentHarness.Requests

/-!
# ApprovalRefinement — the rows of the approval stores stand for the rows of the model

The endpoints are modelled over statements on rows with a decoded payload, and an approval there is a position.  The
stores keep ids, texts of JSON and times.  `approval_stores_refine` runs a store next to the methods of the model: what
the one answers, its times left out, is what the other answers, and its rows go on to stand for the rows of the model.
-/

namespace AgentHarness

open Lib

/-- The state of the model, with the id that each of its approvals was created under. -/
structure Shelf where
  ids : List String
  world : World

inductive ModelAnswer
  /-- the id of the new approval -/
  | created (approvalId : Option String)
  | approval (a : ApprovalId) (dict : Option Dict)
  | listed
  | raised (error : PyExc)

namespace Shelf

/-- Run a method of the model alone. -/
def perform {α : Type} (env : Env) (p : Py α) (answer : α → ModelAnswer) (s : Shelf) : Shelf × ModelAnswer :=
  match p.run (exec env 0) s.world with
  | (.ok v, w) => ({ s with world := w }, answer v)
  | (.error exc, w) => ({ s with world := w }, .raised exc)

/-- The methods of the model, asked by id; `list_approvals` is not one of them. -/
def serve (backend : Backend) (env : Env) : Mealy (DateTime × ApprovalOp) Shelf ModelAnswer
  | (_, .create hex args), s =>
    perform env
      (createApproval args.taskId args.toolName args.action args.riskLevel args.impactScope args.agentReason
        (args.payload.getD []))
      (fun a => .created (s.ids ++ [newApprovalId hex])[a]?) { s with ids := s.ids ++ [newApprovalId hex] }
  | (_, .get approvalId), s =>
    let a := s.ids.idxOf approvalId
    perform env (Py.getApproval .store a) (fun row => .approval a (row.map (·.toDict a))) s
  | (_, .list _ _), s => (s, .listed)
  | (_, .decide approvalId approved decidedBy reason), s =>
    let a := s.ids.idxOf approvalId
    perform env (decideApproval backend a approved decidedBy reason) (.approval a) s
  | (_, .updatePayload approvalId payloadUpdate), s =>
    let a := s.ids.idxOf approvalId
    perform env (updatePayload a payloadUpdate) (fun row => .approval a (row.map (·.toDict a))) s

end Shelf

/-- The time columns of a store. -/
abbrev Backend.Time : Backend → Type
  | .sqlite => List Char
  | .postgres => DateTime

/-- The store of a backend. -/
def Backend.approvalStore (codec : ResultCodec) :
    (backend : Backend) → Scan (ApprovalRecord backend.Time) →
      Mealy (DateTime × ApprovalOp) (List (ApprovalRecord backend.Time)) ApprovalAnswer
  | .sqlite, scan => SQLiteApprovalStore.serve codec scan
  | .postgres, scan => PostgresApprovalStore.serve codec scan

/-- The dict of the model: no times, and the position as the id. -/
def ApprovalView.toDict (a : ApprovalId) (v : ApprovalView) : Dict :=
  [("approval_id", approvalIdVal a), ("task_id", .str v.taskId), ("tool_name", .str v.toolName),
    ("action", .str v.action), ("risk_level", .str v.riskLevel), ("impact_scope", .str v.impactScope),
    ("agent_reason", .str v.agentReason), ("status", .str v.status), ("decided_by", optStr v.decidedBy),
    ("decision_reason", optStr v.decisionReason), ("payload", v.payload)] ++
  if v.alreadyDecided then [("already_decided", .bool true), ("decision_error", optStr v.decisionError)] else []

/-- The answers of a store and of the model. -/
def ApprovalAnswer.Reads : ApprovalAnswer → ModelAnswer → Prop
  | .created approvalId _ _, .created approvalId' => approvalId' = some approvalId
  | .approval view, .approval a dict => dict = view.map (·.toDict a)
  | .approvals _, .listed => True
  | .raised exc, .raised exc' => exc = exc'
  | _, _ => False

variable (codec : ResultCodec)

def payloadVal : Option Dict → PyVal
  | some p => .dict p
  | none => .null

/-- A row of a store stands for a row of the model. -/
structure Stands {τ : Type} (r : ApprovalRecord τ) (row : ApprovalRow) : Prop where
  taskId : r.taskId = row.taskId
  toolName : r.toolName = row.toolName
  action : r.action = row.action
  riskLevel : r.riskLevel = row.riskLevel.value
  impactScope : r.impactScope = row.impactScope
  agentReason : r.agentReason = row.agentReason
  status : r.status = row.status.value
  decidedBy : r.decidedBy = row.decidedBy
  decisionReason : r.decisionReason = row.decisionReason
  payload : loadResult codec r.payloadJson = payloadVal row.payload

/-- The table of a store stands for the approvals of the model. -/
structure Shelved {τ : Type} (t : List (ApprovalRecord τ)) (s : Shelf) : Prop where
  ids : s.ids = t.map (·.approvalId)
  distinct : (t.map (·.approvalId)).Nodup
  rows : List.Forall₂ (Stands codec) t s.world.db.approvals

/-- `json` writes the dict, and reads it again as the values of JSON. -/
def ReadBack (d : Dict) : Prop :=
  ∃ text, codec.dumps (.dict d) = .ok text ∧ loadResult codec (some text) = .dict d.jsonable

/-- No NUL; the id of a new approval is new; and what is written as a payload is read again. -/
def ApprovalOp.Kept {τ : Type} (op : ApprovalOp) (t : List (ApprovalRecord τ)) : Prop :=
  (∀ s ∈ op.texts, hasNulCharacter s = false) ∧
    match op with
    | .create hex args =>
      (∀ r ∈ t, r.approvalId ≠ newApprovalId hex) ∧ ∀ d, args.payload = some d → d ≠ [] → ReadBack codec d
    | .updatePayload approvalId payloadUpdate =>
      ∀ r ∈ t, r.approvalId = approvalId → ∀ d, (loadResult codec r.payloadJson).or (.dict []) = .dict d →
        ReadBack codec (Dict.update d payloadUpdate)
    | _ => True

section
variable {codec} {τ : Type} {t : List (ApprovalRecord τ)} {s : Shelf} {r : ApprovalRecord τ} {row : ApprovalRow}
  {approvalId : String}

theorem toDict_eq (row : ApprovalRow) (a : ApprovalId) :
    row.toDict a = [("approval_id", approvalIdVal a), ("task_id", .str row.taskId), ("tool_name", .str row.toolName),
      ("action", .str row.action), ("risk_level", .str row.riskLevel.value), ("impact_scope", .str row.impactScope),
      ("agent_reason", .str row.agentReason), ("status", .str row.status.value), ("decided_by", optStr row.decidedBy),
      ("decision_reason", optStr row.decisionReason), ("payload", payloadVal row.payload)] := by
  unfold ApprovalRow.toDict
  cases row.payload <;> rfl

/-- The reader of a store gives the dict of the model. -/
structure Reader (codec : ResultCodec) (rowToDict : ApprovalRecord τ → ApprovalView) : Prop where
  status : ∀ r, (rowToDict r).status = r.status
  payload : ∀ r, (rowToDict r).payload = loadResult codec r.payloadJson
  fresh : ∀ r, (rowToDict r).alreadyDecided = false
  toDict : ∀ r row, Stands codec r row → ∀ a, (rowToDict r).toDict a = row.toDict a

theorem reader_sqlite : Reader codec (SQLiteApprovalStore.rowToDict codec) := by
  refine ⟨fun _ => rfl, fun _ => rfl, fun _ => rfl, fun r row h a => ?_⟩
  rw [toDict_eq]
  unfold ApprovalView.toDict SQLiteApprovalStore.rowToDict
  dsimp only
  rw [h.taskId, h.toolName, h.action, h.riskLevel, h.impactScope, h.agentReason, h.status, h.decidedBy,
    h.decisionReason, h.payload]
  rfl

theorem reader_postgres : Reader codec (PostgresApprovalStore.rowToDict codec) := by
  refine ⟨fun _ => rfl, fun _ => rfl, fun _ => rfl, fun r row h a => ?_⟩
  rw [toDict_eq]
  unfold ApprovalView.toDict PostgresApprovalStore.rowToDict
  dsimp only
  rw [h.taskId, h.toolName, h.action, h.riskLevel, h.impactScope, h.agentReason, h.status, h.decidedBy,
    h.decisionReason, h.payload]
  rfl

/-- The dict of an approval that is not pending. -/
theorem Reader.decided {rowToDict : ApprovalRecord τ → ApprovalView} (hread : Reader codec rowToDict)
    (h : Stands codec r row) (a : ApprovalId) : (rowToDict r).decided.toDict a = alreadyDecided a row := by
  have hdict := hread.toDict r row h a
  unfold ApprovalView.toDict at hdict
  rw [hread.fresh r, if_neg (by decide), List.append_nil] at hdict
  unfold alreadyDecided ApprovalView.toDict ApprovalView.decided
  dsimp only
  rw [hdict, if_pos rfl, hread.status r, h.status]
  rfl

/-! ## The methods of the model, run alone -/

variable {env : Env} {w : World} {a : ApprovalId} {approved : Bool} {decidedBy reason : String}

/-- A program that first reads an approval. -/
theorem run_getApproval {α : Type} {f : Option ApprovalRow → Py α} :
    (Py.getApproval .store a >>= f).run (exec env 0) w =
      (f w.db.approvals[a]?).run (exec env 0)
        ⟨w.db, w.log ++ [⟨0, .getApproval .store a, .ok w.db.approvals[a]?⟩]⟩ := rfl

/-- The row of a position, changed. -/
theorem getElem?_updateApproval {f : ApprovalRow → ApprovalRow} (db : Db) :
    (updateApproval a f db).approvals[a]? = db.approvals[a]?.map f := List.getElem?_modify_eq ..

theorem run_decideApproval_none (env : Env) (backend : Backend) (approved : Bool) (decidedBy reason : String)
    (hrow : w.db.approvals[a]? = none) : ∃ log,
    (decideApproval backend a approved decidedBy reason).run (exec env 0) w = (.ok none, ⟨w.db, log⟩) := by
  cases backend with
  | sqlite =>
    unfold decideApproval decideApprovalSqlite
    rw [run_getApproval, hrow]
    exact ⟨_, rfl⟩
  | postgres =>
    unfold decideApproval decideApprovalPostgres
    rw [run_getApproval, hrow]
    exact ⟨_, rfl⟩

theorem run_decideApproval_decided (env : Env) (backend : Backend) (approved : Bool) (decidedBy reason : String)
    (hrow : w.db.approvals[a]? = some row)
    (hstatus : row.status ≠ .pending) : ∃ log,
    (decideApproval backend a approved decidedBy reason).run (exec env 0) w =
      (.ok (some (alreadyDecided a row)), ⟨w.db, log⟩) := by
  cases backend with
  | sqlite =>
    unfold decideApproval decideApprovalSqlite
    rw [run_getApproval, hrow]
    dsimp only
    rw [if_pos hstatus]
    exact ⟨_, rfl⟩
  | postgres =>
    unfold decideApproval decideApprovalPostgres
    rw [run_getApproval, hrow]
    dsimp only
    rw [if_pos hstatus]
    exact ⟨_, rfl⟩

theorem updateApproval_congr {f g : ApprovalRow → ApprovalRow} {db : Db} (hrow : db.approvals[a]? = some row)
    (hfg : f row = g row) : updateApproval a f db = updateApproval a g db := by
  have hrows : db.approvals.modify a f = db.approvals.modify a g := by
    refine List.ext_getElem? fun i => ?_
    by_cases h : a = i
    · rw [← h, List.getElem?_modify_eq, List.getElem?_modify_eq, hrow]
      exact congrArg some hfg
    · rw [List.getElem?_modify_ne _ _ h, List.getElem?_modify_ne _ _ h]
  unfold updateApproval
  rw [hrows]

/-- Both stores decide a pending approval: the rows of the model are changed at its position. -/
theorem run_decideApproval_pending (env : Env) (backend : Backend) (approved : Bool) (decidedBy reason : String)
    (hrow : w.db.approvals[a]? = some row)
    (hstatus : row.status = .pending) : ∃ log,
    (decideApproval backend a approved decidedBy reason).run (exec env 0) w =
      (.ok (some ((decideRow (decidedStatus approved) decidedBy reason row).toDict a)),
        ⟨updateApproval a (decideRow (decidedStatus approved) decidedBy reason) w.db, log⟩) := by
  have hread : (updateApproval a (decideRow (decidedStatus approved) decidedBy reason) w.db).approvals[a]?.map
      (·.toDict a) = some ((decideRow (decidedStatus approved) decidedBy reason row).toDict a) := by
    rw [getElem?_updateApproval, hrow]
    rfl
  cases backend with
  | sqlite =>
    have hsame : updateApproval a (fun row =>
          if row.status = .pending then decideRow (decidedStatus approved) decidedBy reason row else row) w.db =
        updateApproval a (decideRow (decidedStatus approved) decidedBy reason) w.db :=
      updateApproval_congr hrow (if_pos hstatus)
    rw [← hread, ← hsame]
    unfold decideApproval decideApprovalSqlite
    rw [run_getApproval, hrow]
    dsimp only
    rw [if_neg (not_not.mpr hstatus)]
    exact ⟨_, rfl⟩
  | postgres =>
    have hfound : (w.db.approvals[a]?.any fun row => row.status = .pending) = true := by
      rw [hrow]
      exact decide_eq_true hstatus
    rw [← hread]
    unfold decideApproval decideApprovalPostgres
    rw [run_getApproval, hrow]
    dsimp only
    rw [if_neg (not_not.mpr hstatus), Prog.run_bind, Prog.run_call]
    unfold exec Logged.exec dbExec
    dsimp only
    rw [hfound]
    exact ⟨_, rfl⟩

theorem run_updatePayload_none (env : Env) (payloadUpdate : Dict) (hrow : w.db.approvals[a]? = none) : ∃ log,
    (updatePayload a payloadUpdate).run (exec env 0) w = (.ok none, ⟨w.db, log⟩) := by
  unfold updatePayload
  rw [run_getApproval, hrow]
  exact ⟨_, rfl⟩

/-- The payload that `update_payload` leaves. -/
def withPayload (p : Dict) (row : ApprovalRow) : ApprovalRow := { row with payload := some p }

theorem run_updatePayload (env : Env) (payloadUpdate : Dict) (hrow : w.db.approvals[a]? = some row) : ∃ log,
    (updatePayload a payloadUpdate).run (exec env 0) w =
      (.ok (some (withPayload (row.payloadDict.update payloadUpdate).jsonable row)),
        ⟨updateApproval a (withPayload (row.payloadDict.update payloadUpdate).jsonable) w.db, log⟩) := by
  have hread : (updateApproval a (withPayload (row.payloadDict.update payloadUpdate).jsonable) w.db).approvals[a]? =
      some (withPayload (row.payloadDict.update payloadUpdate).jsonable row) := by
    rw [getElem?_updateApproval, hrow]
    rfl
  unfold updatePayload
  rw [run_getApproval, hrow, ← hread]
  exact ⟨_, rfl⟩

/-! ## The rows of a store next to those of the model -/

/-- The row of an id, and the row of its position. -/
theorem Shelved.find (h : Shelved codec t s) (approvalId : String) :
    (findApproval approvalId t = none ∧ s.world.db.approvals[s.ids.idxOf approvalId]? = none) ∨
      ∃ r row, findApproval approvalId t = some r ∧ r ∈ t ∧ s.world.db.approvals[s.ids.idxOf approvalId]? = some row ∧
        Stands codec r row := by
  have hfind : findApproval approvalId t = t[s.ids.idxOf approvalId]? := by
    rw [h.ids]
    exact Table.find?_eq_getElem?
  have hlen := h.rows.length_eq
  rw [hfind]
  by_cases hlt : s.ids.idxOf approvalId < t.length
  · rw [List.getElem?_eq_getElem hlt, List.getElem?_eq_getElem (hlen ▸ hlt)]
    exact .inr ⟨_, _, rfl, List.getElem_mem hlt, rfl, List.Forall₂.get h.rows hlt (hlen ▸ hlt)⟩
  · rw [List.getElem?_eq_none (Nat.le_of_not_lt hlt), List.getElem?_eq_none (hlen ▸ Nat.le_of_not_lt hlt)]
    exact .inl ⟨rfl, rfl⟩

/-- A read leaves the rows of the model. -/
theorem Shelved.logged (h : Shelved codec t s) (log : List Event) :
    Shelved codec t { s with world := ⟨s.world.db, log⟩ } := ⟨h.ids, h.distinct, h.rows⟩

/-- The rows of an id, changed in the store and in the model. -/
theorem Shelved.update (h : Shelved codec t s) {f : ApprovalRecord τ → ApprovalRecord τ} {g : ApprovalRow → ApprovalRow}
    (hid : ∀ r, (f r).approvalId = r.approvalId) (hfg : ∀ r row, Stands codec r row → Stands codec (f r) (g row))
    (log : List Event) :
    Shelved codec (Table.update (fun r => r.approvalId = approvalId) f t)
      { s with world := ⟨updateApproval (s.ids.idxOf approvalId) g s.world.db, log⟩ } := by
  have hids : (Table.update (fun r => r.approvalId = approvalId) f t).map (·.approvalId) = t.map (·.approvalId) :=
    Table.map_update fun r _ _ => hid r
  refine ⟨h.ids.trans hids.symm, by rw [hids]; exact h.distinct, ?_⟩
  rw [Table.update_eq_modify h.distinct, ← h.ids]
  exact Table.forall₂_modify hfg h.rows _

theorem decisionText_eq : decisionText approved = (decidedStatus approved).value := by
  cases approved <;> rfl

theorem status_pending (h : Stands codec r row) : r.status = "pending" ↔ row.status = .pending := by
  rw [h.status]
  cases row.status <;> decide

/-! ## One step -/

theorem Shelf.perform_of_run {α : Type} {p : Py α} {v : α} {answer : α → ModelAnswer}
    (hrun : p.run (exec env 0) s.world = (.ok v, w)) :
    Shelf.perform env p answer s = ({ s with world := w }, answer v) := by
  unfold Shelf.perform
  rw [hrun]

/-- A step of the store and one of the model. -/
def Matches (codec : ResultCodec) (out : List (ApprovalRecord τ) × ApprovalAnswer) (out' : Shelf × ModelAnswer) :
    Prop :=
  Shelved codec out.1 out'.1 ∧ out.2.Reads out'.2

theorem create_matches (h : Shelved codec t s) {now : τ} {time : DateTime} {hex : List Char} {args : ApprovalArgs}
    (hnew : ∀ r ∈ t, r.approvalId ≠ newApprovalId hex) {payloadJson : Option (List Char)}
    (hpayload : loadResult codec payloadJson = payloadVal (storedPayload (args.payload.getD []))) (backend : Backend) :
    Matches codec (t ++ [newApproval now (newApprovalId hex) args payloadJson], .created (newApprovalId hex) args time)
      (Shelf.serve backend env (time, .create hex args) s) := by
  have hlen := h.rows.length_eq
  have hids : (t ++ [newApproval now (newApprovalId hex) args payloadJson]).map (·.approvalId) =
      t.map (·.approvalId) ++ [newApprovalId hex] := List.map_append
  refine ⟨⟨?_, ?_, ?_⟩, ?_⟩
  · show s.ids ++ [newApprovalId hex] = _
    rw [hids, h.ids]
  · rw [hids]
    refine List.nodup_append.mpr ⟨h.distinct, List.nodup_singleton _, fun a ha b hb => ?_⟩
    obtain ⟨r, hr, rfl⟩ := List.mem_map.mp ha
    rw [List.mem_singleton.mp hb]
    exact hnew r hr
  · refine List.rel_append h.rows (.cons ?_ .nil)
    exact ⟨rfl, rfl, rfl, rfl, rfl, rfl, rfl, rfl, rfl, hpayload⟩
  · show (s.ids ++ [newApprovalId hex])[s.world.db.approvals.length]? = some (newApprovalId hex)
    have hplace : s.world.db.approvals.length = s.ids.length := by
      rw [h.ids, List.length_map, hlen]
    rw [hplace, List.getElem?_concat_length]

theorem get_matches {rowToDict : ApprovalRecord τ → ApprovalView} (hread : Reader codec rowToDict)
    (h : Shelved codec t s) (backend : Backend) {time : DateTime} :
    Matches codec (t, .approval ((findApproval approvalId t).map rowToDict))
      (Shelf.serve backend env (time, .get approvalId) s) := by
  refine ⟨h.logged _, ?_⟩
  show (s.world.db.approvals[s.ids.idxOf approvalId]?).map (·.toDict (s.ids.idxOf approvalId)) =
    ((findApproval approvalId t).map rowToDict).map (·.toDict (s.ids.idxOf approvalId))
  obtain ⟨hnone, hrow⟩ | ⟨r, row, hfind, -, hrow, hstands⟩ := h.find approvalId
  · rw [hnone, hrow]
    rfl
  · rw [hfind, hrow]
    exact congrArg some (hread.toDict r row hstands _).symm

theorem decide_matches {rowToDict : ApprovalRecord τ → ApprovalView} (hread : Reader codec rowToDict)
    (h : Shelved codec t s) {f : ApprovalRecord τ → ApprovalRecord τ} (hid : ∀ r, (f r).approvalId = r.approvalId)
    (hf : ∀ r row, Stands codec r row → Stands codec (f r) (decideRow (decidedStatus approved) decidedBy reason row))
    (backend : Backend) {time : DateTime} :
    Matches codec (decideFound rowToDict f approvalId t)
      (Shelf.serve backend env (time, .decide approvalId approved decidedBy reason) s) := by
  show Matches codec _ (Shelf.perform env
    (decideApproval backend (s.ids.idxOf approvalId) approved decidedBy reason) _ s)
  unfold decideFound
  obtain ⟨hnone, hrow⟩ | ⟨r, row, hfind, -, hrow, hstands⟩ := h.find approvalId
  · obtain ⟨log, hrun⟩ := run_decideApproval_none env backend approved decidedBy reason hrow
    rw [hnone, Shelf.perform_of_run hrun]
    exact ⟨h.logged log, rfl⟩
  · rw [hfind]
    dsimp only
    by_cases hpending : row.status = .pending
    · obtain ⟨log, hrun⟩ := run_decideApproval_pending env backend approved decidedBy reason hrow hpending
      rw [if_pos ((status_pending hstands).mpr hpending), Shelf.perform_of_run hrun]
      exact ⟨h.update hid hf log, congrArg some (hread.toDict _ _ (hf r row hstands) _).symm⟩
    · obtain ⟨log, hrun⟩ := run_decideApproval_decided env backend approved decidedBy reason hrow hpending
      rw [if_neg fun hp => hpending ((status_pending hstands).mp hp), Shelf.perform_of_run hrun]
      exact ⟨h.logged log, congrArg some (hread.decided hstands _).symm⟩

theorem payloadVal_or (row : ApprovalRow) : (payloadVal row.payload).or (.dict []) = .dict row.payloadDict := by
  unfold ApprovalRow.payloadDict
  cases row.payload with
  | none => rfl
  | some p => cases p <;> rfl

theorem update_matches {rowToDict : ApprovalRecord τ → ApprovalView} (hread : Reader codec rowToDict)
    (h : Shelved codec t s) {payloadUpdate : Dict}
    (hback : ∀ r ∈ t, r.approvalId = approvalId → ∀ d, (loadResult codec r.payloadJson).or (.dict []) = .dict d →
      ReadBack codec (Dict.update d payloadUpdate)) (backend : Backend) {time : DateTime} :
    Matches codec (updateFound codec rowToDict approvalId payloadUpdate t)
      (Shelf.serve backend env (time, .updatePayload approvalId payloadUpdate) s) := by
  show Matches codec _ (Shelf.perform env (updatePayload (s.ids.idxOf approvalId) payloadUpdate) _ s)
  unfold updateFound
  obtain ⟨hnone, hrow⟩ | ⟨r, row, hfind, hmem, hrow, hstands⟩ := h.find approvalId
  · obtain ⟨log, hrun⟩ := run_updatePayload_none env payloadUpdate hrow
    rw [hnone, Shelf.perform_of_run hrun]
    exact ⟨h.logged log, rfl⟩
  · have hold : (loadResult codec r.payloadJson).or (.dict []) = .dict row.payloadDict := by
      rw [hstands.payload, payloadVal_or]
    obtain ⟨text, hdumps, hload⟩ := hback r hmem (findApproval_id hfind) _ hold
    have hwritten : updatedPayload codec (rowToDict r) payloadUpdate = .ok (some text) := by
      unfold updatedPayload mergeResult
      rw [hread.payload, hold]
      show (codec.dumps (.dict (Dict.update row.payloadDict payloadUpdate))).map some = .ok (some text)
      rw [hdumps]
      rfl
    have hf : ∀ (r : ApprovalRecord τ) (row' : ApprovalRow), Stands codec r row' →
        Stands codec { r with payloadJson := some text }
          (withPayload (row.payloadDict.update payloadUpdate).jsonable row') := by
      intro r row' h
      exact ⟨h.taskId, h.toolName, h.action, h.riskLevel, h.impactScope, h.agentReason, h.status, h.decidedBy,
        h.decisionReason, hload⟩
    obtain ⟨log, hrun⟩ := run_updatePayload env payloadUpdate hrow
    rw [hfind]
    dsimp only
    rw [hwritten, Shelf.perform_of_run hrun]
    exact ⟨h.update (fun _ => by rfl) hf log, congrArg some (hread.toDict _ _ (hf r row hstands) _).symm⟩

/-- The payload column of a new approval. -/
theorem dumpPayload_storedPayload {payload : Option Dict}
    (hback : ∀ d, payload = some d → d ≠ [] → ReadBack codec d) :
    ∃ payloadJson, dumpPayload codec payload = .ok payloadJson ∧
      loadResult codec payloadJson = payloadVal (storedPayload (payload.getD [])) := by
  cases payload with
  | none => exact ⟨none, rfl, rfl⟩
  | some d =>
    cases d with
    | nil => exact ⟨none, rfl, rfl⟩
    | cons kv d =>
      obtain ⟨text, hdumps, hload⟩ := hback (kv :: d) rfl (List.cons_ne_nil _ _)
      refine ⟨some text, ?_, hload⟩
      show (codec.dumps (.dict (kv :: d))).map some = .ok (some text)
      rw [hdumps]
      rfl

theorem decideRow_stands {decidedAt : Option τ} (h : Stands codec r row) :
    Stands codec
      { r with
        status := decisionText approved
        decidedAt := decidedAt
        decidedBy := some decidedBy
        decisionReason := some reason }
      (decideRow (decidedStatus approved) decidedBy reason row) :=
  ⟨h.taskId, h.toolName, h.action, h.riskLevel, h.impactScope, h.agentReason, decisionText_eq, rfl, rfl, h.payload⟩

theorem any_of_new {hex : List Char} (hnew : ∀ r ∈ t, r.approvalId ≠ newApprovalId hex) :
    (t.any fun r => r.approvalId = newApprovalId hex) = false :=
  List.any_eq_false.mpr fun r hr hid => hnew r hr (of_decide_eq_true hid)

theorem sqlite_matches {t : List SQLiteApprovalStore.Row} (h : Shelved codec t s) {scan : Scan SQLiteApprovalStore.Row}
    {request : DateTime × ApprovalOp} (hkept : request.2.Kept codec t) (backend : Backend) :
    Matches codec (SQLiteApprovalStore.serve codec scan request t) (Shelf.serve backend env request s) := by
  obtain ⟨now, op⟩ := request
  obtain ⟨-, hkept⟩ := hkept
  cases op with
  | create hex args =>
    obtain ⟨hnew, hback⟩ := hkept
    obtain ⟨payloadJson, hdump, hload⟩ := dumpPayload_storedPayload hback
    have hstep : SQLiteApprovalStore.serve codec scan (now, .create hex args) t =
        (t ++ [newApproval (now.isoformat []) (newApprovalId hex) args payloadJson],
          .created (newApprovalId hex) args now) := by
      unfold SQLiteApprovalStore.serve SQLiteApprovalStore.createApproval
      dsimp only
      rw [hdump]
      dsimp only
      rw [any_of_new hnew, if_neg (by decide)]
    rw [hstep]
    exact create_matches h hnew hload backend
  | get approvalId => exact get_matches reader_sqlite h backend
  | list status limit => exact ⟨h, trivial⟩
  | decide approvalId approved decidedBy reason =>
    show Matches codec (SQLiteApprovalStore.decideApproval codec now approvalId approved decidedBy reason t) _
    rw [SQLiteApprovalStore.decideApproval_eq h.distinct]
    exact decide_matches reader_sqlite h (fun _ => by rfl) (fun r row hstands => decideRow_stands hstands) backend
  | updatePayload approvalId payloadUpdate =>
    show Matches codec (SQLiteApprovalStore.updatePayload codec approvalId payloadUpdate t) _
    rw [SQLiteApprovalStore.updatePayload_eq]
    exact update_matches reader_sqlite h hkept backend

theorem postgres_matches {t : List PostgresApprovalStore.Row} (h : Shelved codec t s)
    {scan : Scan PostgresApprovalStore.Row} {request : DateTime × ApprovalOp} (hkept : request.2.Kept codec t)
    (backend : Backend) :
    Matches codec (PostgresApprovalStore.serve codec scan request t) (Shelf.serve backend env request s) := by
  obtain ⟨now, op⟩ := request
  obtain ⟨hnul, hkept⟩ := hkept
  cases op with
  | create hex args =>
    obtain ⟨hnew, hback⟩ := hkept
    obtain ⟨payloadJson, hdump, hload⟩ := dumpPayload_storedPayload hback
    have htexts : (ApprovalOp.create hex args).texts.any hasNulCharacter = false :=
      List.any_eq_false.mpr fun s hs => by rw [hnul s hs]; decide
    have hstep : PostgresApprovalStore.serve codec scan (now, .create hex args) t =
        (t ++ [newApproval now (newApprovalId hex) args payloadJson], .created (newApprovalId hex) args now) := by
      unfold PostgresApprovalStore.serve PostgresApprovalStore.createApproval
      dsimp only
      rw [hdump]
      dsimp only
      rw [htexts, if_neg (by decide), any_of_new hnew, if_neg (by decide)]
    rw [hstep]
    exact create_matches h hnew hload backend
  | get approvalId =>
    show Matches codec (PostgresApprovalStore.answerOf t (PostgresApprovalStore.getApproval codec approvalId t)) _
    rw [PostgresApprovalStore.getApproval_eq (hnul _ List.mem_cons_self)]
    exact get_matches reader_postgres h backend
  | list status limit =>
    have hstatus : status.any hasNulCharacter = false := by
      cases status with
      | none => rfl
      | some status => exact hnul _ List.mem_cons_self
    unfold PostgresApprovalStore.serve PostgresApprovalStore.listApprovals
    dsimp only
    rw [hstatus]
    exact ⟨h, trivial⟩
  | decide approvalId approved decidedBy reason =>
    show Matches codec (PostgresApprovalStore.decideApproval codec now approvalId approved decidedBy reason t) _
    rw [PostgresApprovalStore.decideApproval_eq hnul]
    exact decide_matches reader_postgres h (fun _ => by rfl) (fun r row hstands => decideRow_stands hstands) backend
  | updatePayload approvalId payloadUpdate =>
    show Matches codec (PostgresApprovalStore.updatePayload codec approvalId payloadUpdate t) _
    rw [PostgresApprovalStore.updatePayload_eq (hnul _ List.mem_cons_self)]
    exact update_matches reader_postgres h hkept backend

end

/-- **The approval stores refine the model.**  From no approvals, a run of either store whose requests are kept, next to
the methods of the model: the rows of the store stand for those of the model, and the answers, without the times, are
those of the model. -/
theorem approval_stores_refine (backend : Backend) (scan : Scan (ApprovalRecord backend.Time)) (env : Env) (w : World)
    (hempty : w.db.approvals = []) (requests : List (DateTime × ApprovalOp))
    (h : Mealy.Meets (fun request t => request.2.Kept codec t) (backend.approvalStore codec scan) requests []) :
    Shelved codec (Mealy.final (backend.approvalStore codec scan) requests [])
        (Mealy.final (Shelf.serve backend env) requests ⟨[], w⟩) ∧
      List.Forall₂ ApprovalAnswer.Reads (Mealy.answers (backend.approvalStore codec scan) requests [])
        (Mealy.answers (Shelf.serve backend env) requests ⟨[], w⟩) := by
  have hstart : Shelved codec ([] : List (ApprovalRecord backend.Time)) ⟨[], w⟩ :=
    ⟨rfl, List.nodup_nil, by rw [hempty]; exact .nil⟩
  refine Mealy.simulates (fun request t s hts hok => ?_) hstart h
  cases backend with
  | sqlite => exact sqlite_matches hts hok .sqlite
  | postgres => exact postgres_matches hts hok .postgres

/-- An approval that is asked for, decided, and decided again. -/
def decidedRun : List (DateTime × ApprovalOp) :=
  [(newYear 1 one_lt_day, .create "0123456789abcdef".toList { taskId := "t", toolName := "mail", action := "send" }),
    (newYear 2 two_lt_day, .decide "apr_0123456789ab" true "admin" "ok"),
    (newYear 3 three_lt_day, .decide "apr_0123456789ab" false "bob" "no")]

theorem approval_stores_refine_decided :
    List.Forall₂ ApprovalAnswer.Reads
      (Mealy.answers (Backend.approvalStore .braces .postgres (.inserted _)) decidedRun [])
      (Mealy.answers (Shelf.serve .postgres demoEnv) decidedRun ⟨[], ⟨⟨[], fun _ => none, []⟩, []⟩⟩) := by
  refine (approval_stores_refine .braces .postgres (.inserted _) demoEnv ⟨⟨[], fun _ => none, []⟩, []⟩ rfl decidedRun
    ⟨⟨?_, ?_, ?_⟩, ⟨?_, trivial⟩, ⟨?_, trivial⟩, trivial⟩).2
  · decide +kernel
  · exact fun r hr => absurd hr List.not_mem_nil
  · exact fun d hd => by cases hd
  · decide +kernel
  · decide +kernel

end AgentHarness
