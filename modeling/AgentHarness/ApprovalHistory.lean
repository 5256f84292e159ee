import AgentHarness.ApprovedCalls

/-!
# ApprovalHistory — what is kept of an approval and of its decision

What an approval asks for is never changed after its creation, and with `SQLiteApprovalStore` neither is its
decision, once there is one (`approvals_write_once`).  A request that stores a decision and ends with an answer has
written the audit record of that decision before it ends (`decision_audited`).
-/

namespace AgentHarness

open Lib Py

/-- What the creation of an approval writes, but for the payload. -/
def ApprovalRow.asked (row : ApprovalRow) : String × String × String × RiskLevel × String × String :=
  (row.taskId, row.toolName, row.action, row.riskLevel, row.impactScope, row.agentReason)

/-- What a decision writes. -/
def ApprovalRow.decision (row : ApprovalRow) : ApprovalStatus × Option String × Option String :=
  (row.status, row.decidedBy, row.decisionReason)

/-- An update of `PostgresApprovalStore` by key. -/
def Op.commits : Op → Bool
  | .commitDecision _ _ _ _ => true
  | _ => false

def commitsDecision (x : AppOp) : Bool :=
  match x with
  | .inl o => o.commits
  | .inr _ => false

section Rows

variable {a : ApprovalId} {approvals : List ApprovalRow} {row : ApprovalRow} {env : Env} {faults : Nat → Fault}
  {log : List AppEvent} {t : Nat} {x : AppOp} {db : Db}

/-- What `row` became: it asks for the same, and a decision is the same where nothing is updated by key. -/
def KeptRow (keyed : Bool) (row row' : ApprovalRow) : Prop :=
  row'.asked = row.asked ∧ (keyed = false → row.status ≠ .pending → row'.decision = row.decision)

theorem KeptRow.rfl {keyed : Bool} : KeptRow keyed row row := ⟨Eq.refl _, fun _ _ => Eq.refl _⟩

theorem KeptRow.trans {keyed : Bool} {row₁ row₂ row₃ : ApprovalRow} (h : KeptRow keyed row₁ row₂)
    (h' : KeptRow keyed row₂ row₃) : KeptRow keyed row₁ row₃ := by
  refine ⟨h'.1.trans h.1, fun hkeyed hdecided => ?_⟩
  have h₁ := h.2 hkeyed hdecided
  have hst : row₂.status = row₁.status := congrArg Prod.fst h₁
  exact (h'.2 hkeyed (hst ▸ hdecided)).trans h₁

/-- **One operation** on one row. -/
theorem approvalsAfter_kept {o : Op} (hrow : approvals[a]? = some row) :
    ∃ row', (o.approvalsAfter approvals)[a]? = some row' ∧ KeptRow o.commits row row' := by
  have hmodify : ∀ (b : ApprovalId) (f : ApprovalRow → ApprovalRow), KeptRow o.commits row (f row) →
      ∃ row', (approvals.modify b f)[a]? = some row' ∧ KeptRow o.commits row row' := by
    intro b f hf
    by_cases hb : b = a
    · subst hb
      refine ⟨f row, ?_, hf⟩
      rw [List.getElem?_modify_eq, hrow]
      rfl
    · exact ⟨row, (List.getElem?_modify_ne _ _ hb).trans hrow, .rfl⟩
  cases o with
  | insertApproval new =>
    exact ⟨row, (List.getElem?_append_left (List.getElem?_eq_some_iff.mp hrow).1).trans hrow, .rfl⟩
  | decidePending b st d r =>
    refine hmodify b _ ?_
    split
    · rename_i hpending
      exact ⟨Eq.refl _, fun _ hdecided => absurd hpending hdecided⟩
    · exact .rfl
  | commitDecision b st d r => exact hmodify b _ ⟨Eq.refl _, fun h => by cases h⟩
  | setPayload b p => exact hmodify b _ ⟨Eq.refl _, fun _ _ => Eq.refl _⟩
  | _ => exact ⟨row, hrow, .rfl⟩

theorem appDbExec_kept (hrow : db.approvals[a]? = some row) :
    ∃ row', (appDbExec env faults log t x db).2.approvals[a]? = some row' ∧ KeptRow (commitsDecision x) row row' := by
  rcases x with o | s
  · show ∃ row', (opExec env faults log t o db).2.approvals[a]? = some row' ∧ KeptRow o.commits row row'
    rcases @opExec_approvals env faults log t db o with hsame | hafter
    · rw [hsame]
      exact ⟨row, hrow, .rfl⟩
    · rw [hafter]
      exact approvalsAfter_kept hrow
  · show ∃ row', (saveExec faults log s db).2.approvals[a]? = some row' ∧ _
    rw [saveExec_approvals]
    exact ⟨row, hrow, .rfl⟩

end Rows

/-- No run on SQLite updates by key. -/
theorem no_commit {sv : AppService} (hsqlite : sv.backend = .sqlite) {db : Db} {reqs : Nat → AppRequest}
    {faults : Nat → Fault} {sched : List Nat} :
    ∀ e ∈ (sv.run faults (sv.start db reqs) sched).world.log, commitsDecision e.op = false := by
  have hconforms : ∀ t, wp ((approvalContract .sqlite).machine t) ((sv.start db reqs).threads t)
      (fun _ _ => True) [] := by
    intro t
    rw [← hsqlite]
    exact appRequest_informed []
  have hrun := Conf.run_contract (f := appDbExec sv.env faults) (C := fun _ => approvalContract .sqlite)
    (I := fun w : AppWorld => ∀ e ∈ w.log, commitsDecision e.op = false) (Q := fun _ _ _ => True) ?_
    (fun e he => absurd he List.not_mem_nil) hconforms (Conf.meets_of_forall (fun _ _ _ => trivial) _ sched)
  · exact hrun.1
  · intro c t x known hI _ hmay _
    refine ⟨trivial, fun e he => ?_⟩
    rcases List.mem_append.mp he with he | he
    · exact hI e he
    · rw [List.mem_singleton.mp he]
      rcases x with o | s
      · cases o with
        | commitDecision b st d r => cases hmay.decides b st d r rfl
        | _ => rfl
      · rfl

/-- **Approvals are written once.**  Any requests, interleaved in any way, with any faults: between any two points
of a run an approval goes on to ask for the same, and with `SQLiteApprovalStore` its decision, once made, stays. -/
theorem approvals_write_once (sv : AppService) (db : Db) (reqs : Nat → AppRequest) (faults : Nat → Fault)
    (before after : List Nat) (a : ApprovalId) (row : ApprovalRow)
    (hrow : (sv.run faults (sv.start db reqs) before).world.db.approvals[a]? = some row) :
    ∃ row', (sv.run faults (sv.start db reqs) (before ++ after)).world.db.approvals[a]? = some row' ∧
      row'.asked = row.asked ∧ (sv.backend = .sqlite → row.status ≠ .pending → row'.decision = row.decision) := by
  have hsplit : sv.run faults (sv.start db reqs) (before ++ after) =
      sv.run faults (sv.run faults (sv.start db reqs) before) after := Conf.run_append ..
  rw [hsplit]
  have hgoal : ∀ keyed, Conf.Meets (Logged.exec (appDbExec sv.env faults))
        (fun _ _ x => keyed = false → commitsDecision x = false) (sv.run faults (sv.start db reqs) before) after →
      ∃ row', (sv.run faults (sv.run faults (sv.start db reqs) before) after).world.db.approvals[a]? = some row' ∧
        KeptRow keyed row row' := by
    intro keyed hmeets
    refine Conf.run_invariant (I := fun c : Conf AppOp AppAns PyExc AppWorld Dict =>
      ∃ row', c.world.db.approvals[a]? = some row' ∧ KeptRow keyed row row') ?_ ⟨row, hrow, .rfl⟩ hmeets
    rintro c t x k ⟨row₁, hrow₁, hkept₁⟩ ht hok
    rw [Conf.step_of_op ht]
    have hstep : ∃ row', (appDbExec sv.env faults c.world.log t x c.world.db).2.approvals[a]? = some row' ∧
        KeptRow (commitsDecision x) row₁ row' := appDbExec_kept hrow₁
    obtain ⟨row₂, hrow₂, hkept₂⟩ := hstep
    exact ⟨row₂, hrow₂, hkept₁.trans ⟨hkept₂.1, fun hkeyed => hkept₂.2 (hok hkeyed)⟩⟩
  by_cases hsqlite : sv.backend = .sqlite
  · have hmeets : Conf.Meets (Logged.exec (appDbExec sv.env faults)) (fun _ _ x => commitsDecision x = false)
        (sv.start db reqs) (before ++ after) := Conf.meets_of_log (no_commit hsqlite)
    obtain ⟨row', hrow', hkept⟩ := hgoal false ((Conf.Meets.mono (fun _ _ _ h _ => h) hmeets).of_append)
    exact ⟨row', hrow', hkept.1, fun _ => hkept.2 rfl⟩
  · obtain ⟨row', hrow', hkept⟩ := hgoal true (Conf.meets_of_forall (fun _ _ _ h => by cases h) _ _)
    exact ⟨row', hrow', hkept.1, fun h => absurd h hsqlite⟩

theorem approvals_write_once_demo :
    ∃ row row', (demoApp.run (fun _ => .none) (demoApp.start emptyDb createAndApprove)
        (List.replicate 20 0 ++ List.replicate 8 1)).world.db.approvals[0]? = some row ∧ row.status = .approved ∧
      (demoApp.run (fun _ => .none) (demoApp.start emptyDb createAndApprove)
        ((List.replicate 20 0 ++ List.replicate 8 1) ++ List.replicate 30 1)).world.db.approvals[0]? = some row' ∧
      row'.decision = row.decision := by
  have happroved : ((demoApp.run (fun _ => .none) (demoApp.start emptyDb createAndApprove)
      (List.replicate 20 0 ++ List.replicate 8 1)).world.db.approvals[0]?.any
        fun row => row.status == .approved) = true := by
    decide +kernel
  obtain ⟨row, hrow, hst⟩ := Option.any_eq_true _ _ |>.mp happroved
  obtain ⟨row', hrow', -, hdecision⟩ := approvals_write_once demoApp emptyDb createAndApprove (fun _ => .none)
    (List.replicate 20 0 ++ List.replicate 8 1) (List.replicate 30 1) 0 row hrow
  have hst : row.status = .approved := beq_iff_eq.mp hst
  exact ⟨row, row', hrow, hst, hrow', hdecision rfl (by rw [hst]; decide)⟩

/-! ## Every decision is audited -/

/-- The audit record of the decision `st` on `a`. -/
def Op.auditsDecision (a : ApprovalId) (st : ApprovalStatus) : Op → Bool
  | .audit f => auditEvent f == "approval_" ++ st.value &&
      textOf (Dict.get f "approval_id") == textOf (approvalIdVal a)
  | _ => false

/-- Where a thread stands with the decision `st` on `a`. -/
inductive AuditPhase where
  | idle
  /-- it has stored the decision -/
  | stored
  | audited
  deriving DecidableEq

/-- The phase after an operation. -/
def AuditPhase.next (a : ApprovalId) (st : ApprovalStatus) (s : AuditPhase) (o : Op) : AuditPhase :=
  if o.decides a st = true then .stored
  else if o.auditsDecision a st = true ∧ s = .stored then .audited
  else s

def auditMachine (a : ApprovalId) (st : ApprovalStatus) : Machine AppOp AppAns PyExc AuditPhase where
  may _ _ := True
  step s x _ s' :=
    match x with
    | .inl o => s' = s.next a st o
    | .inr _ => s' = s

/-- What an end with an answer asks for. -/
def Recorded {α : Type} (r : Except PyExc α) (s : AuditPhase) : Prop := ∀ v, r = .ok v → s ≠ .stored

section Conformance

variable {a b : ApprovalId} {st : ApprovalStatus} {s : AuditPhase} {env : Env} {o : Op} {backend : Backend}

theorem next_accounted (hs : s ≠ .stored) (ho : o.decides a st = false) : s.next a st o ≠ .stored := by
  unfold AuditPhase.next
  rw [if_neg (by rw [ho]; decide), if_neg fun h => hs h.2]
  exact hs

/-- A program that does not store the decision. -/
theorem wp_accounted {α : Type} {p : App α} (hp : p.Uses fun x => ∀ o, x = .inl o → o.decides a st = false)
    (hs : s ≠ .stored) : wp (auditMachine a st) p (fun _ s' => s' ≠ .stored) s := by
  refine wp_of_keeps (I := (· ≠ AuditPhase.stored)) ?_ hp hs
  intro x hx s hs
  refine ⟨trivial, fun r s' hstep => ?_⟩
  rcases x with o | sv
  · have hstep : s' = s.next a st o := hstep
    rw [hstep]
    exact next_accounted hs (hx o rfl)
  · have hstep : s' = s := hstep
    rwa [hstep]

theorem wp_accounted_left {α : Type} {p : Py α} (hp : p.Uses fun o => o.decides a st = false) (hs : s ≠ .stored) :
    wp (auditMachine a st).left p (fun _ s' => s' ≠ .stored) s := by
  refine wp_extend_left.mp (wp_accounted (Prog.uses_extend.mpr (hp.mono fun o ho o' ho' => ?_)) hs)
  rwa [← Sum.inl.inj ho']

theorem decides_resumeOp (h : ResumeOp b o) : o.decides a st = false := by
  cases o with
  | decidePending c st' d r => exact (h.elim id id : False).elim
  | commitDecision c st' d r => exact (h.elim id id : False).elim
  | _ => rfl

theorem decides_kernelOp (h : KernelOp o) : o.decides a st = false := by
  cases o with
  | decidePending c st' d r => exact h.elim
  | commitDecision c st' d r => exact h.elim
  | _ => rfl

theorem decides_decideOp {st' : ApprovalStatus} (h : DecideOp b st' o) (hother : b ≠ a ∨ st' ≠ st) :
    o.decides a st = false := by
  cases o with
  | decidePending c st₁ d r =>
    obtain ⟨rfl, rfl⟩ := h
    unfold Op.decides
    rwa [Bool.and_eq_false_iff, beq_eq_false_iff_ne, beq_eq_false_iff_ne]
  | commitDecision c st₁ d r =>
    obtain ⟨rfl, rfl⟩ := h
    unfold Op.decides
    rwa [Bool.and_eq_false_iff, beq_eq_false_iff_ne, beq_eq_false_iff_ne]
  | _ => rfl

/-- The request that decides `st` on `a`. -/
def Request.decidesOn (a : ApprovalId) (st : ApprovalStatus) : Request → Prop
  | .approve b _ => b = a ∧ st = .approved
  | .reject b _ => b = a ∧ st = .rejected
  | _ => False

theorem decides_requestOp {r : Request} (hr : ¬ r.decidesOn a st) (h : r.Ops o) : o.decides a st = false := by
  cases r with
  | runKeyword taskId query =>
    cases o with
    | decidePending c st' d r => exact False.elim h
    | commitDecision c st' d r => exact False.elim h
    | _ => rfl
  | approve b req =>
    rcases h with h | h | h
    · exact decides_resumeOp h
    · exact decides_decideOp h (not_and_or.mp fun hb => hr ⟨hb.1, hb.2.symm⟩)
    · cases o with
      | trace _ _ _ | audit _ => rfl
      | _ => exact h.elim
  | reject b req =>
    rcases h with h | h
    · exact decides_decideOp h (not_and_or.mp fun hb => hr ⟨hb.1, hb.2.symm⟩)
    · cases o with
      | decidePending c st' d r => exact h.elim
      | commitDecision c st' d r => exact h.elim
      | _ => rfl
  | resume b | manualResume b => exact decides_resumeOp h
  | expireOld now =>
    obtain rfl : o = .expireOld now := h
    rfl

/-! ### The request that decides -/

theorem next_other (hdecides : o.decides a st = false) (haudits : o.auditsDecision a st = false) :
    s.next a st o = s := by
  unfold AuditPhase.next
  rw [if_neg (by rw [hdecides]; decide), if_neg fun h => by rw [haudits] at h; cases h.1]

theorem next_decidePending {d r : String} : s.next a st (.decidePending a st d r) = .stored := by
  refine if_pos ?_
  rw [Op.decides, beq_self_eq_true, beq_self_eq_true]
  rfl

theorem next_commitDecision {d r : String} : s.next a st (.commitDecision a st d r) = .stored := by
  refine if_pos ?_
  rw [Op.decides, beq_self_eq_true, beq_self_eq_true]
  rfl

/-- After the statement of the decision, the row is read. -/
theorem wp_readBack {site : ReadSite} :
    wp (auditMachine a st).left (getApproval site a >>= fun row => pure (row.map (·.toDict a)))
      (fun r s' => s' = .stored ∧ ∀ d, r = .ok (some d) → ∃ row : ApprovalRow, d = row.toDict a) .stored := by
  refine wp_bind.mpr (wp_call.mpr ⟨trivial, fun r s' hstep => ?_⟩)
  have hstep : s' = AuditPhase.next a st .stored (.getApproval site a) := hstep
  rw [hstep, next_other rfl rfl]
  rcases r with exc | _ | row
  · exact ⟨rfl, fun d hd => by cases hd⟩
  · exact ⟨rfl, fun d hd => by cases hd⟩
  · refine ⟨rfl, fun d hd => ⟨row, ?_⟩⟩
    exact (Option.some.inj (Except.ok.inj hd)).symm

/-- What `decide_approval` leaves: no decision of its own, or its statement and the row after it. -/
theorem decideApproval_stores (approved : Bool) {decidedBy reason : String} (hs : s ≠ .stored) :
    wp (auditMachine a (decidedStatus approved)).left (decideApproval backend a approved decidedBy reason)
      (fun r s' => (s' ≠ .stored ∧ ∀ d, r = .ok (some d) → (Dict.get d "already_decided").truthy = true) ∨
        s' = .stored ∧ ∀ d, r = .ok (some d) → ∃ row : ApprovalRow, d = row.toDict a) s := by
  have hdecided : ∀ {row : ApprovalRow} (d : Dict),
      (.ok (some (alreadyDecided a row)) : Except PyExc (Option Dict)) = .ok (some d) →
        (Dict.get d "already_decided").truthy = true := by
    intro row d hd
    obtain rfl := Option.some.inj (Except.ok.inj hd)
    rfl
  cases backend with
  | sqlite =>
    refine wp_bind.mpr (wp_call.mpr ⟨trivial, fun r s' hstep => ?_⟩)
    have hstep : s' = s.next a (decidedStatus approved) (.getApproval .store a) := hstep
    rw [hstep, next_other rfl rfl]
    rcases r with exc | _ | current
    · exact .inl ⟨hs, fun d hd => by cases hd⟩
    · exact .inl ⟨hs, fun d hd => by cases hd⟩
    dsimp only
    split
    · exact .inl ⟨hs, hdecided⟩
    refine wp_bind.mpr (wp_call.mpr ⟨trivial, fun r s' hstep => ?_⟩)
    have hstep : s' = s.next a (decidedStatus approved) (.decidePending a (decidedStatus approved) decidedBy reason) :=
      hstep
    rw [hstep, next_decidePending]
    rcases r with exc | v
    · exact .inr ⟨rfl, fun d hd => by cases hd⟩
    · exact wp_mono wp_readBack fun r s' h => .inr h
  | postgres =>
    refine wp_bind.mpr (wp_call.mpr ⟨trivial, fun r s' hstep => ?_⟩)
    have hstep : s' = s.next a (decidedStatus approved) (.getApproval .store a) := hstep
    rw [hstep, next_other rfl rfl]
    rcases r with exc | _ | current
    · exact .inl ⟨hs, fun d hd => by cases hd⟩
    · exact .inl ⟨hs, fun d hd => by cases hd⟩
    dsimp only
    split
    · exact .inl ⟨hs, hdecided⟩
    refine wp_bind.mpr (wp_call.mpr ⟨trivial, fun r s' hstep => ?_⟩)
    have hstep : s' = s.next a (decidedStatus approved) (.selectPending a) := hstep
    rw [hstep, next_other rfl rfl]
    rcases r with exc | found
    · exact .inl ⟨hs, fun d hd => by cases hd⟩
    dsimp only
    split
    · exact .inl ⟨hs, fun d hd => by cases hd⟩
    refine wp_bind.mpr (wp_call.mpr ⟨trivial, fun r s' hstep => ?_⟩)
    have hstep : s' = s.next a (decidedStatus approved) (.commitDecision a (decidedStatus approved) decidedBy reason) :=
      hstep
    rw [hstep, next_commitDecision]
    rcases r with exc | v
    · exact .inr ⟨rfl, fun d hd => by cases hd⟩
    · exact wp_mono wp_readBack fun r s' h => .inr h

/-- The trace and the audit record of the decision. -/
theorem recordDecision_audits {previous : ApprovalRow} {taskId action : String} {req : DecideRequest} :
    wp (auditMachine a st).left (recordDecision a previous taskId st.value action req)
      (fun _ s' => s' = .audited) .stored := by
  refine wp_bind.mpr (wp_tryCatch.mpr (wp_call.mpr ⟨trivial, fun r s' hstep => ?_⟩))
  have hstep : s' = AuditPhase.next a st .stored (.trace _ _ _) := hstep
  rw [hstep, next_other rfl rfl]
  have haudit : ∀ rest : Dict, AuditPhase.next a st .stored (.audit (("event_type", .str ("approval_" ++ st.value)) ::
      ("task_id", .str taskId) :: ("approval_id", approvalIdVal a) :: rest)) = .audited := by
    intro rest
    refine (if_neg Bool.false_ne_true).trans (if_pos ⟨?_, rfl⟩)
    show (auditEvent _ == "approval_" ++ st.value && _) = true
    rw [auditEvent_cons, beq_self_eq_true, Bool.true_and, beq_iff_eq]
    rfl
  have hrecord : wp (auditMachine a st).left (recordAudit
      [("event_type", .str ("approval_" ++ st.value)), ("task_id", .str taskId), ("approval_id", approvalIdVal a),
        ("actor", .str req.decidedBy), ("action", .str action), ("outcome", .str st.value), ("reason", .str req.reason),
        ("detail", .dict [("previous_status", .str previous.status.value)])]) (fun _ s' => s' = .audited) .stored := by
    refine wp_tryCatch.mpr (wp_call.mpr ⟨trivial, fun r s' hstep => ?_⟩)
    have hstep : s' = AuditPhase.next a st .stored (.audit _) := hstep
    rw [hstep, haudit]
    cases r <;> rfl
  rcases r with exc | v
  · exact hrecord
  · exact hrecord

theorem Recorded.of_ne {α : Type} {r : Except PyExc α} (h : s ≠ .stored) : Recorded r s := fun _ _ => h

/-- A request that decides, from the answer of `decide_approval` on. -/
theorem decided_accounted {previous : ApprovalRow} {status action attempted : String} {req : DecideRequest}
    {next : Dict → Py Dict} {decided : Option Dict} (hstatus : status = st.value)
    (hnext : ∀ d, (next d).Uses fun o => o.decides a st = false)
    (h : (s ≠ .stored ∧ ∀ d, decided = some d → (Dict.get d "already_decided").truthy = true) ∨
      s = .stored ∧ ∀ d, decided = some d → ∃ row : ApprovalRow, d = row.toDict a) :
    wp (auditMachine a st).left (do
      let result ← Prog.ofExcept (resultOf decided)
      if (Dict.get result "already_decided").truthy then do
        recordIgnored a previous attempted req
        pure result
      else do
        recordDecision a previous (textOf (Dict.getD result "task_id" (.str ""))) status action req
        next result) Recorded s := by
  subst hstatus
  rcases decided with _ | d
  · exact fun v hv => by cases hv
  rcases h with ⟨hs, hdecided⟩ | ⟨rfl, hrow⟩
  · have hyes := hdecided d rfl
    simp only [resultOf, Prog.ofExcept_ok, Prog.pure_bind', hyes, if_true]
    refine wp_mono (wp_accounted_left ?_ hs) fun _ _ h => .of_ne h
    exact Prog.Uses.bind (recordTrace_uses (P := fun o => o.decides a st = false) rfl) fun _ => trivial
  · obtain ⟨row, rfl⟩ := hrow d rfl
    have hno : (Dict.get (row.toDict a) "already_decided").truthy = false := rfl
    simp only [resultOf, Prog.ofExcept_ok, Prog.pure_bind', hno, Bool.false_eq_true, if_false]
    refine wp_bind.mpr (wp_mono recordDecision_audits ?_)
    rintro (exc | v) s' rfl
    · exact fun v hv => by cases hv
    · exact wp_mono (wp_accounted_left (hnext _) (by decide)) fun _ _ h => .of_ne h

theorem approve_accounted {req : DecideRequest} :
    wp (auditMachine a .approved).left (approve env backend a req) Recorded .idle := by
  have hresume : (autoResume env a req).Uses fun o => o.decides a .approved = false :=
    (autoResume_uses req).mono fun _ => decides_resumeOp
  refine wp_bind.mpr (wp_call.mpr ⟨trivial, fun r s' hstep => ?_⟩)
  have hstep : s' = AuditPhase.next a .approved .idle (.getApproval .request a) := hstep
  rw [hstep, next_other rfl rfl]
  rcases r with exc | _ | previous
  · exact fun v hv => by cases hv
  · exact fun v hv => by decide
  refine wp_seq (R := fun _ s' => s' ≠ .stored) (wp_accounted_left
    (checkApproveReason_uses (fun _ _ _ => rfl) fun _ => rfl) (by decide)) ?_ fun e s' hs v hv => by cases hv
  intro _ s' hs
  split
  · exact .of_ne hs
  split
  · exact wp_mono (wp_accounted_left (hresume.bind fun _ => trivial) hs) fun _ _ h => .of_ne h
  · refine wp_bind.mpr (wp_mono (decideApproval_stores true hs) ?_)
    rintro (exc | decided) s' h
    · exact fun v hv => by cases hv
    refine decided_accounted rfl (fun d => ?_) ?_
    · exact hresume.bind fun _ => trivial
    · exact h.imp (fun h => ⟨h.1, fun d hd => h.2 d (congrArg _ hd)⟩) fun h => ⟨h.1, fun d hd => h.2 d (congrArg _ hd)⟩

theorem reject_accounted {req : DecideRequest} :
    wp (auditMachine a .rejected).left (reject env backend a req) Recorded .idle := by
  refine wp_bind.mpr (wp_call.mpr ⟨trivial, fun r s' hstep => ?_⟩)
  have hstep : s' = AuditPhase.next a .rejected .idle (.getApproval .request a) := hstep
  rw [hstep, next_other rfl rfl]
  rcases r with exc | _ | previous
  · exact fun v hv => by cases hv
  · exact fun v hv => by decide
  refine wp_bind.mpr (wp_mono (decideApproval_stores false (by decide)) ?_)
  rintro (exc | decided) s' h
  · exact fun v hv => by cases hv
  refine decided_accounted rfl (fun d => ?_) ?_
  · refine Prog.Uses.bind ?_ fun _ => trivial
    exact cancelEffects_uses (fun _ => rfl) (fun _ _ => rfl) (fun _ _ => rfl) (fun _ => rfl) fun _ _ _ => rfl
  · exact h.imp (fun h => ⟨h.1, fun d hd => h.2 d (congrArg _ hd)⟩) fun h => ⟨h.1, fun d hd => h.2 d (congrArg _ hd)⟩

/-- **Every request** that ends with an answer has recorded its decision. -/
theorem appRequest_accounted {sv : AppService} {r : AppRequest} :
    wp (auditMachine a st) (r.code sv) Recorded .idle := by
  have hextend : ∀ {α : Type} {p : Py α}, p.Uses (fun o => o.decides a st = false) →
      (p.extend SaveAns).Uses (fun x => ∀ o, x = .inl o → o.decides a st = false) := by
    intro α p hp
    refine Prog.uses_extend.mpr (hp.mono fun o ho o' ho' => ?_)
    rwa [← Sum.inl.inj ho']
  have hquiet : ∀ {p : App Dict}, p.Uses (fun x => ∀ o, x = .inl o → o.decides a st = false) →
      wp (auditMachine a st) p Recorded .idle :=
    fun hp => wp_mono (wp_accounted hp (by decide)) fun _ _ h => .of_ne h
  cases r with
  | serve r =>
    by_cases hr : r.decidesOn a st
    · cases r with
      | approve b req =>
        obtain ⟨rfl, rfl⟩ := hr
        exact wp_extend_left.mpr approve_accounted
      | reject b req =>
        obtain ⟨rfl, rfl⟩ := hr
        exact wp_extend_left.mpr reject_accounted
      | _ => exact hr.elim
    · exact hquiet (hextend ((r.code_uses sv.toService).mono fun o => decides_requestOp hr))
  | createTask taskId req =>
    refine hquiet ?_
    show (sv.createTask taskId req).Uses _
    unfold AppService.createTask
    dsimp only
    split
    · refine hextend (Prog.uses_call_bind.mpr ⟨rfl, fun _ => ?_⟩)
      exact (recordAudit_uses (P := fun o => o.decides a st = false) rfl).bind fun _ => trivial
    · refine (hextend (AgentKernel.runWithOptions_kernelOp.mono fun _ => decides_kernelOp)).bind fun task => ?_
      refine Prog.Uses.bind ?_ fun _ => trivial
      refine Prog.Uses.tryCatch (Prog.uses_call_bind.mpr ⟨fun o ho => (by cases ho), fun _ => trivial⟩) fun exc => ?_
      exact (hextend (Prog.uses_call.mpr rfl)).bind fun _ => trivial

end Conformance

/-! ### Every run -/

def eventDecides (a : ApprovalId) (st : ApprovalStatus) (e : AppEvent) : Bool :=
  match e.op with
  | .inl o => o.decides a st
  | .inr _ => false

def eventAudits (a : ApprovalId) (st : ApprovalStatus) (e : AppEvent) : Bool :=
  match e.op with
  | .inl o => o.auditsDecision a st
  | .inr _ => false

/-- What holds of every log of a run, with the phases of its threads: who stored the decision still has to record
it, or has recorded it after that. -/
def Audited (a : ApprovalId) (st : ApprovalStatus) (log : List AppEvent) (ph : Nat → AuditPhase) : Prop :=
  ∀ pre e post, log = pre ++ e :: post → eventDecides a st e = true →
    ph e.tid = .stored ∨ ∃ e' ∈ post, e'.tid = e.tid ∧ eventAudits a st e' = true

/-- **The step lemma.** -/
theorem Audited.step {a : ApprovalId} {st : ApprovalStatus} {log : List AppEvent} {ph : Nat → AuditPhase} {t : Nat}
    {x : AppOp} {r : Except PyExc (AppAns x)} (h : Audited a st log ph) :
    ∃ s', (auditMachine a st).step (ph t) x r s' ∧ Audited a st (log ++ [⟨t, x, r⟩]) (Function.update ph t s') := by
  have hkept : ∀ {s' : AuditPhase} (u : Nat), (u = t → ph t = .stored → s' = .stored ∨ eventAudits a st ⟨t, x, r⟩ = true) →
      ph u = .stored → Function.update ph t s' u = .stored ∨ (u = t ∧ eventAudits a st ⟨t, x, r⟩ = true) := by
    intro s' u ht hu
    by_cases hut : u = t
    · subst hut
      rw [Function.update_self]
      exact (ht rfl hu).imp id fun h => ⟨rfl, h⟩
    · rw [Function.update_of_ne hut]
      exact .inl hu
  -- an event of the old log, after the step
  have hold : ∀ {s' : AuditPhase}, (ph t = .stored → s' = .stored ∨ eventAudits a st ⟨t, x, r⟩ = true) →
      ∀ pre e post, log = pre ++ e :: post → eventDecides a st e = true →
        Function.update ph t s' e.tid = .stored ∨
          ∃ e' ∈ post ++ [(⟨t, x, r⟩ : AppEvent)], e'.tid = e.tid ∧ eventAudits a st e' = true := by
    intro s' hs' pre e post hlog hdecides
    rcases h pre e post hlog hdecides with hu | ⟨e', he', htid, haudits⟩
    · rcases hkept e.tid (fun _ => hs') hu with hu | ⟨htid, haudits⟩
      · exact .inl hu
      · exact .inr ⟨_, List.mem_append_right _ List.mem_cons_self, htid.symm, haudits⟩
    · exact .inr ⟨e', List.mem_append_left _ he', htid, haudits⟩
  rcases x with o | sv
  · refine ⟨(ph t).next a st o, rfl, fun pre e post hsplit hdecides => ?_⟩
    rcases split_concat hsplit with ⟨rfl, rfl⟩ | ⟨post', hlog⟩
    · refine .inl ?_
      rw [Function.update_self]
      exact if_pos hdecides
    · have hpost : post = post' ++ [⟨t, .inl o, r⟩] := by
        rw [hlog, List.append_assoc, List.cons_append] at hsplit
        exact ((List.cons.inj (List.append_cancel_left hsplit)).2).symm
      rw [hpost]
      refine hold (fun hstored => ?_) pre e post' hlog hdecides
      rw [hstored]
      unfold AuditPhase.next
      split
      · exact .inl rfl
      split
      · rename_i haudits
        exact .inr haudits.1
      · exact .inl rfl
  · refine ⟨ph t, rfl, fun pre e post hsplit hdecides => ?_⟩
    rcases split_concat hsplit with ⟨rfl, rfl⟩ | ⟨post', hlog⟩
    · cases hdecides
    · have hpost : post = post' ++ [⟨t, .inr sv, r⟩] := by
        rw [hlog, List.append_assoc, List.cons_append] at hsplit
        exact ((List.cons.inj (List.append_cancel_left hsplit)).2).symm
      rw [hpost]
      exact hold (fun hstored => .inl hstored) pre e post' hlog hdecides

end AgentHarness
