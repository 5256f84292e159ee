import AgentHarness.Requests

/-!
# Decision — concurrent approvals and rejections of one approval

Neither store tells a request that its conditional update changed no row: `SQLiteApprovalStore` does
not read the row count, `PostgresApprovalStore` updates by key after a separate query.  A request
that loses there goes on as if it had decided.  `DecidesPending` is the condition that this does not
happen: every statement of `decide_approval` that follows its first reading still finds the row
pending.  In every run whose steps meet it there is exactly one decision, the other requests report
it as made, and only the request that made it has the effects of a decision.
-/

namespace AgentHarness

open Lib Py

/-! ## Effects and answers -/

/-- The decision an event name reports. -/
def decisionEvent? (e : String) : Option ApprovalStatus :=
  if e = "approval_approved" then some .approved
  else if e = "approval_rejected" then some .rejected
  else none

/-- The decision an operation is an effect of: its trace, its audit record, the cancellation of the
task and of the checkpoint. -/
def effectOf : Op → Option ApprovalStatus
  | .trace e _ _ => decisionEvent? e
  | .audit f => decisionEvent? (auditEvent f)
  | .setTask _ .cancelled _ => some .rejected
  | .markCancelled _ _ => some .rejected
  | _ => none

/-- The decision an operation stores for `a`. -/
def decisionOf (a : ApprovalId) : Op → Option ApprovalStatus
  | .decidePending b st _ _ | .commitDecision b st _ _ => if b = a then some st else none
  | _ => none

/-- The answer says that the approval had been decided before: as already decided, or, to a second
approval, as already resumed. -/
def SaysDecided (d : Dict) : Prop :=
  Dict.get? d "already_decided" = some (.bool true) ∨ Dict.get? d "already_resumed" = some (.bool true)

/-- What a request knows about the approval. -/
inductive Standing where
  | undecided
  /-- it read that another request has decided -/
  | seen
  | maker (st : ApprovalStatus)
  deriving DecidableEq

/-- The standing after reading `row`. -/
def Standing.reads (s : Standing) (row : ApprovalRow) : Standing :=
  if s = .undecided ∧ row.status ≠ .pending then .seen else s

/-- The standing after an answered operation. -/
def Standing.next (a : ApprovalId) (s : Standing) : (o : Op) → Except PyExc (Ans o) → Standing
  | .getApproval _ _, .ok (some row) => s.reads row
  | .decidePending b st _ _, _ | .commitDecision b st _ _, _ => if b = a then .maker st else s
  | _, _ => s

/-- What an answer can be. -/
def Standing.answer (s : Standing) : (o : Op) → Except PyExc (Ans o) → Prop
  | .getApproval _ _, r => ∃ row, r = .ok (some row) ∧ (row.status = .pending →
      s = .undecided ∧ (Dict.get row.payloadDict "resumed").truthy = false)
  | .selectPending _, r => r = .ok true
  | .decidePending _ _ _ _, r => r = .ok ()
  | .commitDecision _ _ _ _, r => r = .ok ()
  | _, _ => True

/-- What a standing permits. -/
def Standing.may (a : ApprovalId) (s : Standing) (o : Op) : Prop :=
  (∀ st, effectOf o = some st → s = .maker st) ∧ match o with
  | .getApproval _ b | .selectPending b => b = a
  | .decidePending b st _ _ | .commitDecision b st _ _ => b = a ∧ s = .undecided ∧ st ≠ .pending
  | .setPayload b _ => b = a ∧ s ≠ .undecided
  | _ => True

def decisionMachine (a : ApprovalId) : Machine Op Ans PyExc Standing where
  may := Standing.may a
  step s o r s' := s.answer o r ∧ s' = s.next a o r

/-- How a request ends: with an answer, having learned about a decision, and saying so unless it
made it. -/
def Standing.done (r : Except PyExc Dict) (s : Standing) : Prop :=
  ∃ d, r = .ok d ∧ s ≠ .undecided ∧ (s = .seen → SaysDecided d)

section Conformance

variable {env : Env} {a : ApprovalId} {s : Standing}

theorem decisionEvent?_none {e : String} (h : e ∉ decisionEvents) : decisionEvent? e = none := by
  simp only [decisionEvents, List.mem_cons, List.not_mem_nil, or_false, not_or] at h
  simp only [decisionEvent?, h.1, h.2, if_false]

theorem effectOf_resumeOp {o : Op} (h : ResumeOp a o) : effectOf o = none := by
  cases o with
  | trace e t d => exact decisionEvent?_none (h.elim id id)
  | audit f => exact decisionEvent?_none (h.elim id id)
  | setTask t st r =>
    have hst : st ≠ .cancelled := h.elim id id
    cases st <;> first | rfl | exact absurd rfl hst
  | markCancelled c reason => exact (h.elim id id).elim
  | _ => rfl

/-- Whoever knows the decision may resume. -/
theorem resumeOp_keeps (hs : s ≠ .undecided) {o : Op} (h : ResumeOp a o) :
    s.may a o ∧ ∀ r, s.next a o r = s := by
  refine ⟨⟨fun st hst => ?_, ?_⟩, fun r => ?_⟩
  · rw [effectOf_resumeOp h] at hst
    cases hst
  · cases o with
    | getApproval site b => exact h.elim id id
    | setPayload b p => exact ⟨h.elim id id, hs⟩
    | selectPending b => exact (h.elim id id : False).elim
    | decidePending b st d r => exact (h.elim id id : False).elim
    | commitDecision b st d r => exact (h.elim id id : False).elim
    | _ => trivial
  · cases o with
    | getApproval site b =>
      rcases r with e | _ | row
      · rfl
      · rfl
      · exact if_neg fun h => hs h.1
    | decidePending b st d r => exact (h.elim id id : False).elim
    | commitDecision b st d r => exact (h.elim id id : False).elim
    | _ => rfl

theorem wp_resume {α : Type} {p : Py α} (hp : p.Uses (ResumeOp a)) (hs : s ≠ .undecided) :
    wp (decisionMachine a) p (fun _ s' => s' = s) s := by
  refine wp_of_keeps (fun o ho s' hs' => ?_) hp rfl
  subst hs'
  exact ⟨(resumeOp_keeps hs ho).1, fun r s'' h => h.2.trans ((resumeOp_keeps hs ho).2 r)⟩

/-- An automatic resume raises nothing. -/
theorem autoResume_spec (req : DecideRequest) (hs : s ≠ .undecided) :
    wp (decisionMachine a) (autoResume env a req) (fun r s' => s' = s ∧ ∃ v, r = .ok v) s := by
  unfold autoResume doResume
  split
  · refine wp_seq (R := fun r s' => s' = s ∧ ∃ d, r = .ok d) ?_ ?_ ?_
    · refine wp_try (wp_resume resumeUnblocked_uses hs) (fun d s' h => ⟨h, d, rfl⟩) fun e s' h => ?_
      exact ⟨h, _, rfl⟩
    · rintro d s' ⟨h, -⟩
      exact ⟨h, _, rfl⟩
    · rintro e s' ⟨-, d, hd⟩
      cases hd
  · exact ⟨rfl, _, rfl⟩

/-- A record of something else than a decision. -/
theorem wp_recordTrace {e t : String} {d : Dict}
    (h : ∀ st, decisionEvent? e = some st → s = .maker st) :
    wp (decisionMachine a) (recordTrace e t d) (fun r s' => s' = s ∧ r = .ok ()) s := by
  unfold recordTrace
  refine wp_try (R := fun _ s' => s' = s) (wp_call.mpr ⟨⟨h, trivial⟩, fun _ _ hs => hs.2⟩)
    (fun _ _ hs => ⟨hs, rfl⟩) fun _ _ hs => ⟨hs, rfl⟩

theorem wp_recordAudit {f : Dict} (h : ∀ st, decisionEvent? (auditEvent f) = some st → s = .maker st) :
    wp (decisionMachine a) (recordAudit f) (fun r s' => s' = s ∧ r = .ok ()) s := by
  unfold recordAudit
  refine wp_try (R := fun _ s' => s' = s) (wp_call.mpr ⟨⟨h, trivial⟩, fun _ _ hs => hs.2⟩)
    (fun _ _ hs => ⟨hs, rfl⟩) fun _ _ hs => ⟨hs, rfl⟩

/-- After a step that cannot raise. -/
theorem wp_then {α β : Type} {p : Py α} {f : α → Py β} {Q : Except PyExc β → Standing → Prop}
    {u : Standing} (hp : wp (decisionMachine a) p (fun r s₁ => s₁ = u ∧ ∃ v, r = .ok v) s)
    (hf : ∀ v, wp (decisionMachine a) (f v) Q u) : wp (decisionMachine a) (p >>= f) Q s := by
  refine wp_seq hp (fun v s₁ h => ?_) fun e s₁ h => ?_
  · rw [h.1]
    exact hf v
  · obtain ⟨-, v, hv⟩ := h
    cases hv

theorem wp_then_unit {β : Type} {p : Py Unit} {f : Unit → Py β} {Q : Except PyExc β → Standing → Prop}
    (hp : wp (decisionMachine a) p (fun r s₁ => s₁ = s ∧ r = .ok ()) s)
    (hf : wp (decisionMachine a) (f ()) Q s) : wp (decisionMachine a) (p >>= f) Q s :=
  wp_then (wp_mono hp fun _ _ h => ⟨h.1, (), h.2⟩) fun _ => hf

/-- A reading of the approval: it is there, and its reader has seen a decision if there is one. -/
theorem wp_getApproval {site : ReadSite} {β : Type} {f : Option ApprovalRow → Py β}
    {Q : Except PyExc β → Standing → Prop}
    (h : ∀ row : ApprovalRow, (row.status = .pending →
        s = .undecided ∧ (Dict.get row.payloadDict "resumed").truthy = false) →
      wp (decisionMachine a) (f (some row)) Q (s.reads row)) :
    wp (decisionMachine a) (getApproval site a >>= f) Q s := by
  refine wp_bind.mpr (wp_call.mpr ⟨⟨fun st hst => ?_, rfl⟩, ?_⟩)
  · cases hst
  · rintro r s' ⟨⟨row, rfl, hrow⟩, rfl⟩
    exact h row hrow

theorem get?_toDict_decided (row : ApprovalRow) : Dict.get? (row.toDict a) "already_decided" = none := by
  rfl

theorem alreadyDecided_flag (row : ApprovalRow) :
    Dict.get? (alreadyDecided a row) "already_decided" = some (.bool true) := by
  rfl

/-- How `decide_approval` ends: it made the decision, or it reports an earlier one. -/
def DecideDone (a : ApprovalId) (st : ApprovalStatus) (r : Except PyExc (Option Dict)) (s : Standing) :
    Prop :=
  ∃ row : ApprovalRow, (r = .ok (some (row.toDict a)) ∧ s = .maker st) ∨
    (r = .ok (some (alreadyDecided a row)) ∧ s = .seen)

theorem decidedStatus_ne_pending (b : Bool) : decidedStatus b ≠ .pending := by
  cases b <;> decide

/-- **Both stores** make the decision, or report an earlier one: this is what the condition buys. -/
theorem decideApproval_spec {backend : Backend} {approved : Bool} {by' reason : String}
    (hs : s = .undecided ∨ s = .seen) :
    wp (decisionMachine a) (decideApproval backend a approved by' reason)
      (DecideDone a (decidedStatus approved)) s := by
  have hseen : ∀ row : ApprovalRow, row.status ≠ .pending → s.reads row = .seen := by
    intro row hrow
    rcases hs with rfl | rfl
    · exact if_pos ⟨rfl, hrow⟩
    · rfl
  cases backend with
  | sqlite =>
    unfold decideApproval decideApprovalSqlite
    refine wp_getApproval fun row hrow => ?_
    dsimp only
    split
    · rename_i hst
      rw [hseen row hst]
      exact ⟨row, .inr ⟨rfl, rfl⟩⟩
    · rename_i hst
      have hp : row.status = .pending := not_not.mp hst
      obtain ⟨rfl, -⟩ := hrow hp
      rw [show Standing.reads .undecided row = .undecided from if_neg fun h => h.2 hp]
      refine wp_then (u := .maker (decidedStatus approved)) (wp_call.mpr ⟨⟨fun st hst => ?_, rfl, rfl,
        decidedStatus_ne_pending _⟩, fun r s' h => ⟨?_, (), h.1⟩⟩) fun _ => ?_
      · cases hst
      · rw [h.2]
        exact if_pos rfl
      · refine wp_getApproval fun row' _ => ?_
        exact ⟨row', .inl ⟨rfl, rfl⟩⟩
  | postgres =>
    unfold decideApproval decideApprovalPostgres
    refine wp_getApproval fun row hrow => ?_
    dsimp only
    split
    · rename_i hst
      rw [hseen row hst]
      exact ⟨row, .inr ⟨rfl, rfl⟩⟩
    · rename_i hst
      have hp : row.status = .pending := not_not.mp hst
      obtain ⟨rfl, -⟩ := hrow hp
      rw [show Standing.reads .undecided row = .undecided from if_neg fun h => h.2 hp]
      refine wp_bind.mpr (wp_call.mpr ⟨⟨fun st hst => ?_, rfl⟩, ?_⟩)
      · cases hst
      rintro r s' ⟨rfl, rfl⟩
      refine wp_then (u := .maker (decidedStatus approved)) (wp_call.mpr ⟨⟨fun st hst => ?_, rfl, rfl,
        decidedStatus_ne_pending _⟩, fun r s' h => ⟨?_, (), h.1⟩⟩) fun _ => ?_
      · cases hst
      · rw [h.2]
        exact if_pos rfl
      · refine wp_getApproval fun row' _ => ?_
        exact ⟨row', .inl ⟨rfl, rfl⟩⟩

theorem checkApproveReason_spec {previous : ApprovalRow} {req : DecideRequest} :
    wp (decisionMachine a) (checkApproveReason env a previous req)
      (fun r s' => s' = s ∧ r = .ok ()) s := by
  unfold checkApproveReason
  split
  · exact ⟨rfl, rfl⟩
  dsimp only
  split
  · exact ⟨rfl, rfl⟩
  · refine wp_then_unit (wp_recordTrace fun st h => ?_) (wp_recordAudit fun st h => ?_)
    · cases h
    · rw [auditEvent_cons] at h
      cases h

/-- The trace and the audit record of a decision belong to its maker. -/
theorem recordDecision_spec {previous : ApprovalRow} {taskId action : String} {req : DecideRequest}
    {approved : Bool} :
    wp (decisionMachine a)
      (recordDecision a previous taskId (decidedStatus approved).value action req)
      (fun r s' => s' = .maker (decidedStatus approved) ∧ r = .ok ()) (.maker (decidedStatus approved)) := by
  unfold recordDecision
  refine wp_then_unit (wp_recordTrace fun st h => ?_) (wp_recordAudit fun st h => ?_)
  · cases approved <;> cases h <;> rfl
  · rw [auditEvent_cons] at h
    cases approved <;> cases h <;> rfl

theorem wp_ignored {previous : ApprovalRow} {attempted : String} {req : DecideRequest} {d : Dict}
    (hd : SaysDecided d) :
    wp (decisionMachine a) (recordIgnored a previous attempted req >>= fun _ => pure d)
      Standing.done .seen := by
  refine wp_then_unit (wp_recordTrace fun st h => ?_) ⟨d, rfl, Standing.noConfusion, fun _ => hd⟩
  cases h

theorem approvePending_spec {backend : Backend} {previous : ApprovalRow} {req : DecideRequest}
    (hs : s = .undecided ∨ s = .seen) :
    wp (decisionMachine a) (approvePending env backend a previous req) Standing.done s := by
  unfold approvePending
  refine wp_seq (decideApproval_spec hs) ?_ ?_
  · rintro decided s' ⟨row, ⟨hr, rfl⟩ | ⟨hr, rfl⟩⟩
    · cases hr
      have hno : (Dict.get (row.toDict a) "already_decided").truthy = false := rfl
      simp only [resultOf, Prog.ofExcept_ok, Prog.pure_bind', hno, Bool.false_eq_true, if_false]
      refine wp_then_unit (@recordDecision_spec _ _ _ _ _ true) ?_
      refine wp_then (autoResume_spec req Standing.noConfusion) fun v => ?_
      exact ⟨_, rfl, Standing.noConfusion, fun h => Standing.noConfusion h⟩
    · cases hr
      have hyes : (Dict.get (alreadyDecided a row) "already_decided").truthy = true := rfl
      simp only [resultOf, Prog.ofExcept_ok, Prog.pure_bind', hyes, if_true]
      exact wp_ignored (.inl (alreadyDecided_flag row))
  · rintro e s' ⟨row, ⟨hr, -⟩ | ⟨hr, -⟩⟩ <;> cases hr

theorem approve_spec {backend : Backend} {req : DecideRequest} :
    wp (decisionMachine a) (approve env backend a req) Standing.done .undecided := by
  unfold approve
  refine wp_getApproval fun row hrow => ?_
  refine wp_then_unit checkApproveReason_spec ?_
  by_cases hst : row.status = .pending
  · obtain ⟨-, hres⟩ := hrow hst
    have hap : row.status ≠ .approved := by rw [hst]; decide
    rw [show Standing.reads .undecided row = .undecided from if_neg fun h => h.2 hst,
      if_neg (by rw [hres]; decide), if_neg hap]
    exact approvePending_spec (.inl rfl)
  · rw [show Standing.reads .undecided row = .seen from if_pos ⟨rfl, hst⟩]
    split
    · exact ⟨_, rfl, Standing.noConfusion, fun _ => .inr rfl⟩
    split
    · refine wp_then (autoResume_spec req Standing.noConfusion) fun v => ?_
      exact ⟨_, rfl, Standing.noConfusion, fun _ => .inl rfl⟩
    · exact approvePending_spec (.inr rfl)

/-! ### Rejections -/

/-- The cancellations belong to the maker of a rejection. -/
theorem cancelTask_spec {taskId reason : String} :
    wp (decisionMachine a) (cancelTask taskId a reason)
      (fun r s' => s' = .maker .rejected ∧ ∃ v, r = .ok v) (.maker .rejected) := by
  unfold cancelTask
  refine wp_try (R := fun _ s' => s' = .maker .rejected) ?_ (fun v _ h => ⟨h, v, rfl⟩)
    fun _ _ h => ⟨h, _, rfl⟩
  refine wp_of_keeps (I := (· = Standing.maker .rejected)) (P := fun o => (∃ t, o = Op.getTask t) ∨
    ∃ t r, o = Op.setTask t .cancelled r) ?_ ?_ rfl
  · rintro o (⟨t, rfl⟩ | ⟨t, r, rfl⟩) s' rfl
    · exact ⟨⟨fun st h => (nomatch h), trivial⟩, fun r s'' h => h.2⟩
    · exact ⟨⟨fun st h => by cases h; rfl, trivial⟩, fun r s'' h => h.2⟩
  · exact Prog.Uses.bind (updateTaskStatus_uses (.inl ⟨_, rfl⟩) fun r => .inr ⟨_, _, rfl⟩) fun _ => trivial

theorem cancelGraphCheckpoint_spec {row : ApprovalRow} {reason : String} :
    wp (decisionMachine a) (cancelGraphCheckpointIfNeeded (row.toDict a) reason)
      (fun r s' => s' = .maker .rejected ∧ r = .ok ()) (.maker .rejected) := by
  have hpayload : ∃ d, (Dict.get (row.toDict a) "payload").or (.dict []) = .dict d := by
    obtain ⟨_, _, _, _, _, _, _, _, _, payload⟩ := row
    cases payload with
    | none => exact ⟨[], rfl⟩
    | some p => cases p with
      | nil => exact ⟨[], rfl⟩
      | cons kv p => exact ⟨kv :: p, rfl⟩
  obtain ⟨d, hd⟩ := hpayload
  unfold cancelGraphCheckpointIfNeeded markCancelled
  simp only [hd, PyVal.get, PyVal.getD, Prog.ofExcept_ok, Prog.pure_bind']
  split
  · exact ⟨rfl, rfl⟩
  refine wp_try (R := fun _ s' => s' = .maker .rejected) ?_ (fun v _ h => ⟨h, rfl⟩)
    fun _ _ h => ⟨h, rfl⟩
  refine wp_of_keeps (I := (· = Standing.maker .rejected)) (P := fun o => (∃ c, o = Op.getCheckpoint c) ∨
    ∃ c r, o = Op.markCancelled c r) ?_ ?_ rfl
  · rintro o (⟨t, rfl⟩ | ⟨t, r, rfl⟩) s' rfl
    · exact ⟨⟨fun st h => (by cases h), trivial⟩, fun r s'' h => h.2⟩
    · exact ⟨⟨fun st h => by cases h; rfl, trivial⟩, fun r s'' h => h.2⟩
  · refine Prog.Uses.bind ?_ fun _ => trivial
    exact Prog.uses_call_bind.mpr ⟨.inr ⟨_, _, rfl⟩, fun _ => Prog.uses_call.mpr (.inl ⟨_, rfl⟩)⟩

theorem cancelRejected_spec {row : ApprovalRow} {req : DecideRequest} :
    wp (decisionMachine a) (cancelRejected a (row.toDict a) req) Standing.done (.maker .rejected) := by
  unfold cancelRejected
  refine wp_then (u := .maker .rejected) ?_ fun v =>
    ⟨_, rfl, Standing.noConfusion, fun h => Standing.noConfusion h⟩
  unfold cancelEffects
  split
  · exact ⟨rfl, _, rfl⟩
  · refine wp_then cancelTask_spec fun v => wp_then_unit cancelGraphCheckpoint_spec ?_
    refine wp_then_unit (wp_recordTrace fun st h => ?_) ⟨rfl, v, rfl⟩
    cases h

theorem reject_spec {backend : Backend} {req : DecideRequest} :
    wp (decisionMachine a) (reject env backend a req) Standing.done .undecided := by
  unfold reject
  refine wp_getApproval fun previous hprev => ?_
  have hs : Standing.reads .undecided previous = .undecided ∨
      Standing.reads .undecided previous = .seen := by
    unfold Standing.reads
    split
    · exact .inr rfl
    · exact .inl rfl
  refine wp_seq (decideApproval_spec hs) ?_ ?_
  · rintro decided s' ⟨row, ⟨hr, rfl⟩ | ⟨hr, rfl⟩⟩
    · cases hr
      have hno : (Dict.get (row.toDict a) "already_decided").truthy = false := rfl
      simp only [resultOf, Prog.ofExcept_ok, Prog.pure_bind', hno, Bool.false_eq_true, if_false]
      exact wp_then_unit (@recordDecision_spec _ _ _ _ _ false) cancelRejected_spec
    · cases hr
      have hyes : (Dict.get (alreadyDecided a row) "already_decided").truthy = true := rfl
      simp only [resultOf, Prog.ofExcept_ok, Prog.pure_bind', hyes, if_true]
      exact wp_ignored (.inl (alreadyDecided_flag row))
  · rintro e s' ⟨row, ⟨hr, -⟩ | ⟨hr, -⟩⟩ <;> cases hr

end Conformance

/-! ## The invariant -/

/-- How many decisions on `a` were stored. -/
def decisions (a : ApprovalId) (log : List Event) : Nat := log.countP fun e => (decisionOf a e.op).isSome

/-- Thread `t` stored the decision on `a`. -/
def MadeDecision (a : ApprovalId) (t : Nat) (log : List Event) : Prop :=
  ∃ e ∈ log, e.tid = t ∧ (decisionOf a e.op).isSome

/-- The row of the approval, while nobody has decided and after somebody has. -/
def RowDecided (a : ApprovalId) (row : ApprovalRow) (log : List Event) (st : Nat → Standing) : Prop :=
  (row.status = .pending ∧ (Dict.get row.payloadDict "resumed").truthy = false ∧
    decisions a log = 0 ∧ ∀ t, st t = .undecided) ∨
  (row.status ≠ .pending ∧ decisions a log = 1 ∧
    ∃ t, st t = .maker row.status ∧ ∀ u s, st u = .maker s → u = t)

structure Decided (a : ApprovalId) (conf : Conf Op Ans PyExc World Dict) (st : Nat → Standing) :
    Prop where
  approval : ∃ row, conf.world.db.approvals[a]? = some row ∧ RowDecided a row conf.world.log st
  makers : ∀ t s, st t = .maker s → ∃ e ∈ conf.world.log, e.tid = t ∧ decisionOf a e.op = some s
  made : ∀ e ∈ conf.world.log, ∀ s, decisionOf a e.op = some s → st e.tid = .maker s
  effects : ∀ e ∈ conf.world.log, ∀ s, effectOf e.op = some s → st e.tid = .maker s

/-- **The condition on a step**: what `decide_approval` does after its first reading still finds the
row pending. -/
def DecidesPending (a : ApprovalId) (c : Conf Op Ans PyExc World Dict) (_t : Nat) : Op → Prop
  | .decidePending b _ _ _ | .selectPending b | .commitDecision b _ _ _ =>
    b = a → ∀ row, c.world.db.approvals[a]? = some row → row.status = .pending
  | _ => True

section Step

variable {a : ApprovalId} {env : Env} {conf : Conf Op Ans PyExc World Dict} {st : Nat → Standing}
  {t : Nat} {o : Op} {k : Except PyExc (Ans o) → Py Dict}

theorem decisions_snoc (log : List Event) (e : Event) :
    decisions a (log ++ [e]) = decisions a log + if (decisionOf a e.op).isSome then 1 else 0 := by
  simp [decisions, List.countP_append, List.countP_cons]

/-- A step that stores no decision and leaves the status of the row. -/
theorem Decided.quiet {s' : Standing} (h : Decided a conf st) (ht : conf.threads t = .op o k)
    (hdec : decisionOf a o = none) (heff : ∀ s, effectOf o = some s → st t = .maker s)
    (hrow : ∀ row, conf.world.db.approvals[a]? = some row →
      (s' = st t ∨ st t = .undecided ∧ s' = .seen ∧ row.status ≠ .pending) ∧
      ∃ row', (dbExec env conf.world.log t o conf.world.db).2.approvals[a]? = some row' ∧
        row'.status = row.status ∧ (row.status = .pending → row' = row)) :
    Decided a (conf.step (exec env) t) (Function.update st t s') := by
  obtain ⟨row, hget, hcase⟩ := h.approval
  obtain ⟨hs', row', hget', hstatus, hsame⟩ := hrow row hget
  have hmaker : ∀ u s, Function.update st t s' u = .maker s ↔ st u = .maker s := by
    intro u s
    by_cases hu : u = t
    · subst hu
      rw [Function.update_self]
      rcases hs' with hs' | ⟨hund, hseen, -⟩
      · rw [hs']
      · rw [hund, hseen]
        exact ⟨fun h => Standing.noConfusion h, fun h => Standing.noConfusion h⟩
    · rw [Function.update_of_ne hu]
  have hlog : (conf.step (exec env) t).world.log = conf.world.log ++
      [⟨t, o, (dbExec env conf.world.log t o conf.world.db).1⟩] := by
    rw [Conf.step_of_op ht]
    rfl
  have hcount : decisions a (conf.step (exec env) t).world.log = decisions a conf.world.log := by
    rw [hlog, decisions_snoc]
    simp [hdec]
  have hdb : (conf.step (exec env) t).world.db = (dbExec env conf.world.log t o conf.world.db).2 := by
    rw [Conf.step_of_op ht]
    rfl
  refine ⟨⟨row', by rw [hdb]; exact hget', ?_⟩, fun u s hu => ?_, fun e he s hes => ?_,
    fun e he s hes => ?_⟩
  · rcases hcase with ⟨hp, hres, h0, hall⟩ | ⟨hp, h1, u, hu, huniq⟩
    · refine .inl ⟨hstatus.trans hp, by rw [hsame hp]; exact hres, hcount.trans h0, fun u => ?_⟩
      by_cases hut : u = t
      · subst hut
        rw [Function.update_self]
        rcases hs' with hs' | ⟨-, -, hnp⟩
        · rw [hs', hall]
        · exact absurd hp hnp
      · rw [Function.update_of_ne hut, hall]
    · refine .inr ⟨by rwa [hstatus], hcount.trans h1, u, ?_, fun v s hv => huniq v s ((hmaker v s).mp hv)⟩
      rw [hstatus]
      exact (hmaker u _).mpr hu
  · obtain ⟨e, he, het, hed⟩ := h.makers u s ((hmaker u s).mp hu)
    exact ⟨e, by rw [hlog]; exact List.mem_append_left _ he, het, hed⟩
  · rw [hlog] at he
    rcases List.mem_append.mp he with he | he
    · exact (hmaker _ _).mpr (h.made e he s hes)
    · rw [List.mem_singleton.mp he] at hes
      rw [hdec] at hes
      cases hes
  · rw [hlog] at he
    rcases List.mem_append.mp he with he | he
    · exact (hmaker _ _).mpr (h.effects e he s hes)
    · rw [List.mem_singleton.mp he] at hes ⊢
      exact (hmaker _ _).mpr (heff s hes)

/-- The step that stores the decision. -/
theorem Decided.decides {status : ApprovalStatus} (h : Decided a conf st)
    (ht : conf.threads t = .op o k) (hdec : decisionOf a o = some status) (hne : status ≠ .pending)
    (hund : st t = .undecided) (heff : effectOf o = none)
    (hdb : ∀ row, conf.world.db.approvals[a]? = some row → row.status = .pending →
      ∃ row', (dbExec env conf.world.log t o conf.world.db).2.approvals[a]? = some row' ∧
        row'.status = status)
    (hok : ∀ row, conf.world.db.approvals[a]? = some row → row.status = .pending) :
    Decided a (conf.step (exec env) t) (Function.update st t (.maker status)) := by
  obtain ⟨row, hget, hcase⟩ := h.approval
  have hp := hok row hget
  obtain ⟨row', hget', hstatus⟩ := hdb row hget hp
  rcases hcase with ⟨-, -, h0, hall⟩ | ⟨hnp, -⟩
  swap
  · exact absurd hp hnp
  have hlog : (conf.step (exec env) t).world.log = conf.world.log ++
      [⟨t, o, (dbExec env conf.world.log t o conf.world.db).1⟩] := by
    rw [Conf.step_of_op ht]
    rfl
  have hworld : (conf.step (exec env) t).world.db = (dbExec env conf.world.log t o conf.world.db).2 := by
    rw [Conf.step_of_op ht]
    rfl
  have honly : ∀ u s, Function.update st t (.maker status) u = .maker s → u = t ∧ s = status := by
    intro u s hu
    by_cases hut : u = t
    · subst hut
      rw [Function.update_self] at hu
      cases hu
      exact ⟨rfl, rfl⟩
    · rw [Function.update_of_ne hut, hall] at hu
      cases hu
  have hold : ∀ e ∈ conf.world.log, ∀ s, st e.tid ≠ .maker s := fun e _ s he => by
    rw [hall] at he
    cases he
  refine ⟨⟨row', by rw [hworld]; exact hget', .inr ⟨by rwa [hstatus], ?_, t, ?_, fun u s hu =>
    (honly u s hu).1⟩⟩, fun u s hu => ?_, fun e he s hes => ?_, fun e he s hes => ?_⟩
  · rw [hlog, decisions_snoc, h0]
    simp [hdec]
  · rw [Function.update_self, hstatus]
  · obtain ⟨rfl, rfl⟩ := honly u s hu
    exact ⟨_, by rw [hlog]; exact List.mem_append_right _ (List.mem_singleton_self _), rfl, hdec⟩
  · rw [hlog] at he
    rcases List.mem_append.mp he with he | he
    · exact absurd (h.made e he s hes) (hold e he s)
    · rw [List.mem_singleton.mp he] at hes ⊢
      rw [hdec] at hes
      cases hes
      exact Function.update_self ..
  · rw [hlog] at he
    rcases List.mem_append.mp he with he | he
    · exact absurd (h.effects e he s hes) (hold e he s)
    · rw [List.mem_singleton.mp he, heff] at hes
      cases hes

theorem get_updateApproval {f : ApprovalRow → ApprovalRow} (db : Db) (row : ApprovalRow)
    (h : db.approvals[a]? = some row) : (updateApproval a f db).approvals[a]? = some (f row) := by
  simp [updateApproval, h]

/-- **One step** under the condition. -/
theorem Decided.step (h : Decided a conf st) (ht : conf.threads t = .op o k)
    (hmay : (st t).may a o) (hok : DecidesPending a conf t o) :
    ∃ s', (decisionMachine a).step (st t) o (exec env t o conf.world).1 s' ∧
      Decided a (conf.step (exec env) t) (Function.update st t s') := by
  obtain ⟨heff, hmay⟩ := hmay
  have hsame : ∀ row, conf.world.db.approvals[a]? = some row →
      (dbExec env conf.world.log t o conf.world.db).2.approvals[a]? = some row →
      ((st t = st t ∨ st t = .undecided ∧ st t = .seen ∧ row.status ≠ .pending) ∧
      ∃ row', (dbExec env conf.world.log t o conf.world.db).2.approvals[a]? = some row' ∧
        row'.status = row.status ∧ (row.status = .pending → row' = row)) :=
    fun row _ hrow => ⟨.inl rfl, row, hrow, rfl, fun _ => rfl⟩
  cases o with
  | getApproval site b =>
    obtain rfl : b = a := hmay
    obtain ⟨row, hget, hcase⟩ := h.approval
    refine ⟨(st t).reads row, ⟨⟨row, ?_, fun hp => ?_⟩, ?_⟩, h.quiet ht rfl heff fun row₁ hrow₁ => ?_⟩
    · simp only [exec_ans, dbExec, hget]
    · rcases hcase with ⟨-, hres, -, hall⟩ | ⟨hnp, -⟩
      · exact ⟨hall t, hres⟩
      · exact absurd hp hnp
    · simp only [exec_ans, dbExec, hget, Standing.next]
    · rw [hget] at hrow₁
      cases hrow₁
      refine ⟨?_, row, hget, rfl, fun _ => rfl⟩
      unfold Standing.reads
      split
      · rename_i hc
        exact .inr ⟨hc.1, rfl, hc.2⟩
      · exact .inl rfl
  | insertApproval row =>
    refine ⟨_, ⟨trivial, rfl⟩, h.quiet ht rfl heff fun row₁ hrow₁ => hsame row₁ hrow₁ ?_⟩
    exact (List.getElem?_append_left (List.getElem?_eq_some_iff.mp hrow₁).1).trans hrow₁
  | decidePending b status d r =>
    obtain ⟨rfl, hund, hne⟩ := hmay
    have hdec : decisionOf b (.decidePending b status d r) = some status := if_pos rfl
    refine ⟨.maker status, ⟨rfl, (if_pos rfl).symm⟩, h.decides ht hdec hne hund rfl ?_ (hok rfl)⟩
    intro row hget hp
    refine ⟨_, get_updateApproval _ row hget, ?_⟩
    simp only [hp, if_true]
    rfl
  | selectPending b =>
    obtain rfl : b = a := hmay
    obtain ⟨row, hget, -⟩ := h.approval
    refine ⟨_, ⟨?_, rfl⟩, h.quiet ht rfl heff fun row₁ hrow₁ => hsame row₁ hrow₁ hrow₁⟩
    have hp := hok rfl row hget
    simp only [Standing.answer, exec_ans, dbExec, hget, Option.any_some, hp, decide_true]
  | commitDecision b status d r =>
    obtain ⟨rfl, hund, hne⟩ := hmay
    have hdec : decisionOf b (.commitDecision b status d r) = some status := if_pos rfl
    refine ⟨.maker status, ⟨rfl, (if_pos rfl).symm⟩, h.decides ht hdec hne hund rfl ?_ (hok rfl)⟩
    exact fun row hget hp => ⟨_, get_updateApproval _ row hget, rfl⟩
  | setPayload b p =>
    obtain ⟨rfl, hund⟩ := hmay
    refine ⟨_, ⟨trivial, rfl⟩, h.quiet ht rfl heff fun row₁ hrow₁ => ⟨.inl rfl, _,
      get_updateApproval _ row₁ hrow₁, rfl, fun hp => ?_⟩⟩
    obtain ⟨row, hget, ⟨-, -, -, hall⟩ | ⟨hnp, -⟩⟩ := h.approval
    · exact absurd (hall t) hund
    · rw [hget] at hrow₁
      cases hrow₁
      exact absurd hp hnp
  | insertCheckpoint row =>
    refine ⟨_, ⟨trivial, rfl⟩, h.quiet ht rfl heff fun row₁ hrow₁ => hsame row₁ hrow₁ ?_⟩
    simp only [dbExec]
    split <;> exact hrow₁
  | getCheckpoint c =>
    refine ⟨_, ⟨trivial, rfl⟩, h.quiet ht rfl heff fun row₁ hrow₁ => hsame row₁ hrow₁ ?_⟩
    simp only [dbExec]
    split <;> exact hrow₁
  | claimForResume c b now =>
    refine ⟨_, ⟨trivial, rfl⟩, h.quiet ht rfl heff fun row₁ hrow₁ => hsame row₁ hrow₁ ?_⟩
    simp only [dbExec]
    split <;> exact hrow₁
  | markResumed c p res =>
    refine ⟨_, ⟨trivial, rfl⟩, h.quiet ht rfl heff fun row₁ hrow₁ => hsame row₁ hrow₁ ?_⟩
    simp only [dbExec, withBound]
    split <;> exact hrow₁
  | markCancelled c reason =>
    refine ⟨_, ⟨trivial, rfl⟩, h.quiet ht rfl heff fun row₁ hrow₁ => hsame row₁ hrow₁ ?_⟩
    simp only [dbExec, withBound]
    split <;> exact hrow₁
  | evaluate tool risk =>
    refine ⟨_, ⟨trivial, rfl⟩, h.quiet ht rfl heff fun row₁ hrow₁ => hsame row₁ hrow₁ ?_⟩
    simp only [dbExec]
    split <;> exact hrow₁
  | _ => exact ⟨_, ⟨trivial, rfl⟩, h.quiet ht rfl heff fun row₁ hrow₁ => hsame row₁ hrow₁ hrow₁⟩

end Step

/-! ## Every run -/

/-- Exactly one decision: at most one is stored and the row shows it; a finished request finds one
stored and reports it unless it is its own; the effects are those of the request that made it; the
task is cancelled only by a rejection that was stored. -/
structure DecidedOnce (a : ApprovalId) (c : Conf Op Ans PyExc World Dict) : Prop where
  once : decisions a c.world.log ≤ 1
  stored : ∃ row, c.world.db.approvals[a]? = some row ∧
    (row.status = .pending ↔ decisions a c.world.log = 0) ∧
    (∀ e ∈ c.world.log, ∀ s, decisionOf a e.op = some s → row.status = s) ∧
    ∀ e ∈ c.world.log, ∀ t r, e.op = .setTask t .cancelled r → row.status = .rejected
  finished : ∀ t r, c.outcome t = some r → decisions a c.world.log = 1 ∧
    ∃ d, r = .ok d ∧ (¬ MadeDecision a t c.world.log → SaysDecided d)
  gated : ∀ e ∈ c.world.log, (effectOf e.op).isSome → MadeDecision a e.tid c.world.log

theorem Decided.once {a : ApprovalId} {c : Conf Op Ans PyExc World Dict} {st : Nat → Standing}
    (h : Decided a c st) (hc : c.Conforms (decisionMachine a) (fun _ => Standing.done) st) :
    DecidedOnce a c := by
  obtain ⟨row, hget, hcase⟩ := h.approval
  have hmaker : ∀ t s, st t = .maker s → row.status = s ∧ decisions a c.world.log = 1 := by
    intro t s hts
    rcases hcase with ⟨-, -, -, hall⟩ | ⟨-, h1, u, hu, huniq⟩
    · rw [hall t] at hts
      cases hts
    · obtain rfl := huniq t s hts
      rw [hu] at hts
      cases hts
      exact ⟨rfl, h1⟩
  have hmade : ∀ t s, st t = .maker s → MadeDecision a t c.world.log := by
    intro t s hts
    obtain ⟨e, he, het, hed⟩ := h.makers t s hts
    exact ⟨e, he, het, by rw [hed]; rfl⟩
  refine ⟨?_, ⟨row, hget, ?_, fun e he s hes => (hmaker _ s (h.made e he s hes)).1, ?_⟩, ?_, ?_⟩
  · rcases hcase with ⟨-, -, h0, -⟩ | ⟨-, h1, -⟩
    · exact h0 ▸ Nat.zero_le 1
    · exact h1 ▸ Nat.le_refl 1
  · rcases hcase with ⟨hp, -, h0, -⟩ | ⟨hp, h1, -⟩
    · exact iff_of_true hp h0
    · exact iff_of_false hp (h1 ▸ Nat.one_ne_zero)
  · intro e he t r hop
    exact (hmaker _ _ (h.effects e he .rejected (by rw [hop]; rfl))).1
  · intro t r hout
    obtain ⟨d, rfl, hund, hsays⟩ := hc.outcome hout
    refine ⟨?_, d, rfl, fun hnot => ?_⟩
    · rcases hcase with ⟨-, -, -, hall⟩ | ⟨-, h1, -⟩
      · exact absurd (hall t) hund
      · exact h1
    · cases hst : st t with
      | undecided => exact absurd hst hund
      | seen => exact hsays hst
      | maker s => exact absurd (hmade t s hst) hnot
  · intro e he hsome
    obtain ⟨s, hs⟩ := Option.isSome_iff_exists.mp hsome
    exact hmade _ s (h.effects e he s hs)

/-- A pending approval of the tool `refund`. -/
def demoApproval (status : ApprovalStatus) : ApprovalRow :=
  ⟨"t", "refund", "call refund", .high, "write", "high risk", status, none, none,
    some [("mode", .str "keyword"), ("query", .str "q"), ("tool_name", .str "refund"),
      ("arguments", .dict [])]⟩

def demoDb (status : ApprovalStatus) : Db :=
  ⟨[demoApproval status], fun t => if t = "t" then some ⟨"q", "keyword", .waiting_approval, none, none⟩
    else none, []⟩

/-- An approval and rejections of one pending approval. -/
def approveAndReject (backend : Backend) : Conf Op Ans PyExc World Dict :=
  start { demoService with backend := backend } (demoDb .pending) fun t =>
    if t = 0 then .approve 0 ⟨"alice", "", false⟩ else .reject 0 ⟨"bob", "", false⟩

/-- Both requests read `pending` before either writes. -/
def bothReadPending : List Nat := [0, 0, 1, 1] ++ List.replicate 10 0 ++ List.replicate 20 1

/-- SQLite: the approval is stored, and the task is cancelled nevertheless. -/
theorem lost_update_sqlite :
    let w := ((approveAndReject .sqlite).run (exec demoEnv) bothReadPending).world
    w.db.approvals.map ApprovalRow.status = [.approved] ∧
      ∃ e ∈ w.log, ∃ t r, e.op = .setTask t .cancelled r := by
  refine ⟨by decide +kernel, ?_⟩
  have hany : (((approveAndReject .sqlite).run (exec demoEnv) bothReadPending).world.log.any fun e =>
      match e.op with
      | .setTask _ .cancelled _ => true
      | _ => false) = true := by decide +kernel
  obtain ⟨e, he, hop⟩ := List.any_eq_true.mp hany
  refine ⟨e, he, ?_⟩
  split at hop
  · exact ⟨_, _, by assumption⟩
  · cases hop

/-- Postgres: two decisions are stored when the second query of both comes before either update. -/
theorem lost_update_postgres :
    decisions 0 ((approveAndReject .postgres).run (exec demoEnv)
      ([0, 0, 0, 1, 1, 1] ++ List.replicate 10 0 ++ List.replicate 20 1)).world.log = 2 := by
  decide +kernel

end AgentHarness
