import AgentHarness.ApprovedCalls

/-!
# TaskDecision — the task of a rejected approval is cancelled

`reject` stores the decision first, and then updates the task: it reads the row and, if there is one, writes the
status.  `create_task` saves the task only after the run that created the approval, and replaces the whole row.  A
rejection that comes between the two finds no task, and the save that follows leaves the task waiting.

`SavedBeforeRead` is the condition that this does not happen.  A thread that stored the rejection of `a` *owes* the
cancellation of the task, until it has *found* it and written it (`CancelPhase`).  With `SQLiteApprovalStore` and
stores that do not fail, in every run that meets the condition the task is cancelled once such a thread has
finished, unless an approval of the task was approved.
-/

namespace AgentHarness

open Lib Py

def Op.readsTask (T : String) : Op → Bool
  | .getTask T' => T' == T
  | _ => false

def readsTask (T : String) (e : AppEvent) : Bool :=
  match e.op with
  | .inl o => o.readsTask T
  | .inr _ => false

/-- The task was read. -/
def ReadTask (T : String) (log : List AppEvent) : Prop := ∃ e ∈ log, readsTask T e = true

/-- **The condition on a step**: task `T` is not read before it is saved, and not saved after it was read. -/
def SavedBeforeRead (T : String) (c : Conf AppOp AppAns PyExc AppWorld Dict) (_t : Nat) : AppOp → Prop
  | .inl o => o.readsTask T = true → (c.world.db.tasks T).isSome
  | .inr s => s.task.taskId = T → ¬ ReadTask T c.world.log

instance {T : String} {c : Conf AppOp AppAns PyExc AppWorld Dict} {t : Nat} {x : AppOp} :
    Decidable (SavedBeforeRead T c t x) :=
  match x with
  | .inl o => inferInstanceAs (Decidable (o.readsTask T = true → (c.world.db.tasks T).isSome))
  | .inr s => inferInstanceAs (Decidable (s.task.taskId = T → ¬ ∃ e ∈ c.world.log, readsTask T e = true))

/-- A statement that stores the rejection of `a`. -/
def Op.rejects (a : ApprovalId) : Op → Bool
  | .decidePending b st _ _ => b == a && st == .rejected
  | _ => false

/-- Where a thread stands with the rejection of `a`. -/
inductive CancelPhase where
  | idle
  /-- it has read the approval -/
  | seen
  /-- it has stored the rejection -/
  | owes
  /-- it has found the task after that -/
  | found
  | settled
  deriving DecidableEq

namespace CancelPhase

/-- The phase after an answered operation. -/
def next (a : ApprovalId) (T : String) (s : CancelPhase) : (o : Op) → Except PyExc (Ans o) → CancelPhase
  | .getApproval _ b, .ok (some _) => if b = a ∧ s = .idle then .seen else s
  | .decidePending b st _ _, _ => if b = a ∧ st = .rejected then .owes else s
  | .getTask T', _ => if T' = T ∧ s = .owes then .found else s
  | .setTask T' _ _, _ => if T' = T ∧ s = .found then .settled else s
  | _, _ => s

/-- What a phase permits. -/
def may (a : ApprovalId) (s : CancelPhase) (o : Op) : Prop := o.rejects a = true → s = .seen

/-- What an answer can be. -/
def answer (a : ApprovalId) (T : String) (s : CancelPhase) : (o : Op) → Except PyExc (Ans o) → Prop
  | .getApproval _ b, r => b = a → s = .owes → ∃ row, r = .ok (some row) ∧ row.taskId = T
  | .decidePending _ _ _ _, r => r = .ok ()
  | .getTask T', r => T' = T → s = .owes → ∃ row, r = .ok (some row)
  | .setTask _ _ _, r => r = .ok ()
  | _, _ => True

/-- Nothing is owed. -/
def Clear (s : CancelPhase) : Prop := s ≠ .owes ∧ s ≠ .found

/-- The rejection was stored. -/
def Late (s : CancelPhase) : Prop := s ≠ .idle ∧ s ≠ .seen

end CancelPhase

def cancelMachine (a : ApprovalId) (T : String) : Machine AppOp AppAns PyExc CancelPhase where
  may s x :=
    match x with
    | .inl o => s.may a o
    | .inr _ => True
  step s x r s' :=
    match x, r with
    | .inl o, r => s.answer a T o r ∧ s' = s.next a T o r
    | .inr _, _ => s' = s

/-! ## Every request keeps to the machine -/

section Conformance

variable {a b : ApprovalId} {T : String} {s : CancelPhase} {env : Env} {o : Op}

theorem may_other (ho : o.rejects a = false) : s.may a o := by
  intro h
  rw [ho] at h
  cases h

/-- Before a rejection is stored, and after it is settled, other operations owe nothing. -/
theorem next_clear (hs : s = .idle ∨ s = .seen) (ho : o.rejects a = false) (r : Except PyExc (Ans o)) :
    s.next a T o r = .idle ∨ s.next a T o r = .seen := by
  have hother : ∀ {p : Prop} [Decidable p] {s' : CancelPhase}, ¬ p →
      (if p then s' else s) = .idle ∨ (if p then s' else s) = .seen := by
    intro p _ s' hp
    rwa [if_neg hp]
  cases o with
  | getApproval site b =>
    rcases r with e | _ | row
    · exact hs
    · exact hs
    · unfold CancelPhase.next
      dsimp only
      split
      · exact .inr rfl
      · exact hs
  | decidePending b st d r' =>
    refine hother fun h => ?_
    rw [Op.rejects, h.1, h.2, beq_self_eq_true, beq_self_eq_true] at ho
    cases ho
  | getTask T' =>
    refine hother fun h => ?_
    rcases hs with rfl | rfl <;> cases h.2
  | setTask T' st r' =>
    refine hother fun h => ?_
    rcases hs with rfl | rfl <;> cases h.2
  | _ => exact hs

theorem next_settled (ho : o.rejects a = false) (r : Except PyExc (Ans o)) :
    CancelPhase.settled.next a T o r = .settled := by
  cases o with
  | getApproval site b =>
    rcases r with e | _ | row
    · rfl
    · rfl
    · exact if_neg fun h => by cases h.2
  | decidePending b st d r' =>
    refine if_neg fun h => ?_
    rw [Op.rejects, h.1, h.2, beq_self_eq_true, beq_self_eq_true] at ho
    cases ho
  | getTask T' => exact if_neg fun h => by cases h.2
  | setTask T' st r' => exact if_neg fun h => by cases h.2
  | _ => rfl

/-- A program that stores no rejection of `a`. -/
theorem wp_clear {α : Type} {p : App α} (hp : p.Uses fun x => ∀ o, x = .inl o → o.rejects a = false)
    (hs : s = .idle ∨ s = .seen) : wp (cancelMachine a T) p (fun _ s' => s'.Clear) s := by
  refine wp_mono (wp_of_keeps (I := fun s => s = .idle ∨ s = .seen) ?_ hp hs) ?_
  · intro x hx s hs
    rcases x with o | sv
    · refine ⟨may_other (hx o rfl), fun r s' hstep => ?_⟩
      rw [hstep.2]
      exact next_clear hs (hx o rfl) r
    · refine ⟨trivial, fun r s' hstep => ?_⟩
      have hstep : s' = s := hstep
      rwa [hstep]
  · rintro _ s' (rfl | rfl)
    · exact ⟨by decide, by decide⟩
    · exact ⟨by decide, by decide⟩

/-! ### The requests that store no rejection of `a` -/

theorem rejects_resumeOp (h : ResumeOp b o) : o.rejects a = false := by
  cases o with
  | decidePending c st d r => exact (h.elim id id : False).elim
  | _ => rfl

theorem rejects_decideOp {st : ApprovalStatus} (h : DecideOp b st o) (hother : b ≠ a ∨ st ≠ .rejected) :
    o.rejects a = false := by
  cases o with
  | decidePending c st' d r =>
    obtain ⟨rfl, rfl⟩ := h
    unfold Op.rejects
    rw [Bool.and_eq_false_iff, beq_eq_false_iff_ne, beq_eq_false_iff_ne]
    exact hother
  | _ => rfl

theorem rejects_requestOp {r : Request} (hr : ∀ req, r ≠ .reject a req) (h : r.Ops o) : o.rejects a = false := by
  cases r with
  | runKeyword taskId query =>
    cases o with
    | decidePending c st d r => exact False.elim h
    | _ => rfl
  | approve b req =>
    rcases h with h | h | h
    · exact rejects_resumeOp h
    · exact rejects_decideOp h (.inr (by decide))
    · cases o with
      | trace _ _ _ | audit _ => rfl
      | _ => exact h.elim
  | reject b req =>
    rcases h with h | h
    · exact rejects_decideOp h (.inl fun hb => hr req (by rw [hb]))
    · cases o with
      | decidePending c st d r => exact h.elim
      | _ => rfl
  | resume b | manualResume b => exact rejects_resumeOp h
  | expireOld now =>
    obtain rfl : o = .expireOld now := h
    rfl

theorem rejects_kernelOp (h : KernelOp o) : o.rejects a = false := by
  cases o with
  | decidePending c st d r => exact h.elim
  | _ => rfl

/-! ### The rejection of `a` -/

section Reject

variable {β : Type} {Q : Except PyExc β → CancelPhase → Prop} {e task : String} {d f : Dict}

theorem cancel_recordTrace {k : Unit → Py β} (h : wp (cancelMachine a T).left (k ()) Q s) :
    wp (cancelMachine a T).left (recordTrace e task d >>= k) Q s := by
  refine wp_bind.mpr (wp_tryCatch.mpr (wp_call.mpr ⟨may_other rfl, ?_⟩))
  rintro (exc | v) s' ⟨-, rfl⟩
  · exact h
  · exact h

theorem cancel_recordAudit {k : Unit → Py β} (h : wp (cancelMachine a T).left (k ()) Q s) :
    wp (cancelMachine a T).left (recordAudit f >>= k) Q s := by
  refine wp_bind.mpr (wp_tryCatch.mpr (wp_call.mpr ⟨may_other rfl, ?_⟩))
  rintro (exc | v) s' ⟨-, rfl⟩
  · exact h
  · exact h

/-- The update of the task finds it and writes it. -/
theorem cancelTask_settles {reason : String} :
    wp (cancelMachine a T).left (cancelTask T a reason) (fun _ s' => s' = .settled) .owes := by
  refine wp_tryCatch.mpr (wp_mono (Q := fun _ s' => s' = .settled) ?_ ?_)
  · refine wp_bind.mpr (wp_bind.mpr (wp_call.mpr ⟨may_other rfl, ?_⟩))
    rintro r s' ⟨hr, rfl⟩
    obtain ⟨row, rfl⟩ := hr rfl rfl
    have hfound : CancelPhase.owes.next a T (.getTask T) (.ok (some row)) = .found := if_pos ⟨rfl, rfl⟩
    rw [hfound]
    refine wp_bind.mpr (wp_call.mpr ⟨may_other rfl, ?_⟩)
    rintro r s' ⟨rfl, rfl⟩
    have hsettled : ∀ st res, CancelPhase.found.next a T (.setTask T st res) (.ok ()) = .settled :=
      fun _ _ => if_pos ⟨rfl, rfl⟩
    rw [hsettled]
    refine wp_call.mpr ⟨may_other rfl, ?_⟩
    rintro (exc | row') s' ⟨-, rfl⟩
    · exact next_settled rfl _
    · exact next_settled rfl _
  · rintro (exc | v) s' rfl
    · rfl
    · rfl

/-- After that nothing is owed. -/
theorem wp_settled {p : Py β} (hp : p.Uses fun o => o.rejects a = false) :
    wp (cancelMachine a T).left p (fun _ s' => s' = .settled) .settled := by
  refine wp_of_keeps (I := (· = CancelPhase.settled)) ?_ hp rfl
  rintro o ho s rfl
  refine ⟨may_other ho, ?_⟩
  rintro r s' ⟨-, rfl⟩
  exact next_settled ho r

theorem cancelRejected_settles {row : ApprovalRow} {req : DecideRequest} (hT : T ≠ "") (htask : row.taskId = T) :
    wp (cancelMachine a T).left (cancelRejected a (row.toDict a) req) (fun _ s' => s' = .settled) .owes := by
  subst htask
  unfold cancelRejected cancelEffects
  have htext : textOf (Dict.getD (row.toDict a) "task_id" (.str "")) = row.taskId := rfl
  rw [htext, if_neg hT]
  refine wp_bind.mpr (wp_bind.mpr (wp_mono cancelTask_settles ?_))
  rintro (exc | v) s' rfl
  · rfl
  refine wp_mono (wp_settled ?_) ?_
  · refine Prog.Uses.bind ?_ fun _ => Prog.Uses.bind (recordTrace_uses rfl) fun _ => trivial
    unfold cancelGraphCheckpointIfNeeded markCancelled
    refine Prog.uses_ofExcept_bind fun checkpointId _ => Prog.uses_ofExcept_bind fun mode _ => ?_
    split
    · trivial
    · refine Prog.Uses.tryCatch (Prog.Uses.bind ?_ fun _ => trivial) fun _ => trivial
      exact Prog.uses_call_bind.mpr ⟨rfl, fun _ => Prog.uses_call.mpr rfl⟩
  · rintro (exc | w) s' rfl
    · rfl
    · rfl

/-- What `decide_approval` leaves to its caller: nothing, an earlier decision, or the row of the rejection. -/
theorem decideApproval_owes {decidedBy reason : String} :
    wp (cancelMachine a T).left (decideApproval .sqlite a false decidedBy reason) (fun r s' =>
      (s' = .seen ∧ ∀ d, r = .ok (some d) → (Dict.get d "already_decided").truthy = true) ∨
      s' = .owes ∧ ∃ row : ApprovalRow, r = .ok (some (row.toDict a)) ∧ row.taskId = T) .seen := by
  refine wp_bind.mpr (wp_call.mpr ⟨may_other rfl, ?_⟩)
  rintro (exc | _ | current) s' ⟨-, rfl⟩
  · exact .inl ⟨rfl, fun d hd => by cases hd⟩
  · exact .inl ⟨rfl, fun d hd => by cases hd⟩
  have hseen : CancelPhase.seen.next a T (.getApproval .store a) (.ok (some current)) = .seen :=
    if_neg fun h => by cases h.2
  rw [hseen]
  dsimp only
  split
  · refine .inl ⟨rfl, fun d hd => ?_⟩
    obtain rfl := Option.some.inj (Except.ok.inj hd)
    rfl
  · refine wp_bind.mpr (wp_call.mpr ⟨fun _ => rfl, ?_⟩)
    rintro r s' ⟨rfl, rfl⟩
    have howes : CancelPhase.seen.next a T (.decidePending a (decidedStatus false) decidedBy reason) (.ok ()) =
        .owes := if_pos ⟨rfl, rfl⟩
    rw [howes]
    refine wp_bind.mpr (wp_call.mpr ⟨may_other rfl, ?_⟩)
    rintro r s' ⟨hr, rfl⟩
    obtain ⟨row, rfl, htask⟩ := hr rfl rfl
    have hkeeps : CancelPhase.owes.next a T (.getApproval .store a) (.ok (some row)) = .owes :=
      if_neg fun h => by cases h.2
    rw [hkeeps]
    exact .inr ⟨rfl, row, rfl, htask⟩

/-- **A rejection** that it stored, it carries to the task. -/
theorem reject_clear {req : DecideRequest} (hT : T ≠ "") :
    wp (cancelMachine a T).left (reject env .sqlite a req) (fun _ s' => s'.Clear) .idle := by
  have hidle : CancelPhase.idle.Clear := ⟨by decide, by decide⟩
  have hseen : CancelPhase.seen.Clear := ⟨by decide, by decide⟩
  refine wp_bind.mpr (wp_call.mpr ⟨may_other rfl, ?_⟩)
  rintro (exc | _ | previous) s' ⟨-, rfl⟩
  · exact hidle
  · exact hidle
  have hreads : CancelPhase.idle.next a T (.getApproval .request a) (.ok (some previous)) = .seen :=
    if_pos ⟨rfl, rfl⟩
  rw [hreads]
  refine wp_bind.mpr (wp_mono decideApproval_owes ?_)
  rintro r s' (⟨rfl, hdecided⟩ | ⟨rfl, row, rfl, htask⟩)
  · rcases r with exc | _ | d
    · exact hseen
    · exact hseen
    have hyes := hdecided d rfl
    simp only [resultOf, Prog.ofExcept_ok, Prog.pure_bind', hyes, if_true]
    exact cancel_recordTrace hseen
  · have hno : (Dict.get (row.toDict a) "already_decided").truthy = false := rfl
    simp only [resultOf, Prog.ofExcept_ok, Prog.pure_bind', hno, Bool.false_eq_true, if_false]
    unfold recordDecision
    rw [bind_assoc]
    refine cancel_recordTrace (cancel_recordAudit (wp_mono (cancelRejected_settles hT htask) ?_))
    rintro r s' rfl
    exact ⟨by decide, by decide⟩

end Reject

/-- **Every request** owes nothing when it is done. -/
theorem appRequest_clear {sv : AppService} {r : AppRequest} (hsqlite : sv.backend = .sqlite) (hT : T ≠ "") :
    wp (cancelMachine a T) (r.code sv) (fun _ s' => s'.Clear) .idle := by
  have hextend : ∀ {α : Type} {p : Py α}, p.Uses (fun o => o.rejects a = false) →
      (p.extend SaveAns).Uses (fun x => ∀ o, x = .inl o → o.rejects a = false) := by
    intro α p hp
    refine Prog.uses_extend.mpr (hp.mono fun o ho o' ho' => ?_)
    rwa [← Sum.inl.inj ho']
  cases r with
  | serve r =>
    by_cases hr : ∃ req, r = .reject a req
    · obtain ⟨req, rfl⟩ := hr
      refine wp_extend_left.mpr ?_
      show wp (cancelMachine a T).left (reject sv.env sv.backend a req) _ _
      rw [hsqlite]
      exact reject_clear hT
    · refine wp_clear (hextend ((r.code_uses sv.toService).mono fun o => rejects_requestOp fun req hreq => ?_)) (.inl rfl)
      exact hr ⟨req, hreq⟩
  | createTask taskId req =>
    refine wp_clear ?_ (.inl rfl)
    show (sv.createTask taskId req).Uses _
    unfold AppService.createTask
    dsimp only
    split
    · refine hextend (Prog.uses_call_bind.mpr ⟨rfl, fun _ => ?_⟩)
      exact (recordAudit_uses (P := fun o => o.rejects a = false) rfl).bind fun _ => trivial
    · refine (hextend (AgentKernel.runWithOptions_kernelOp.mono fun _ => rejects_kernelOp)).bind fun task => ?_
      refine Prog.Uses.bind ?_ fun _ => trivial
      refine Prog.Uses.tryCatch (Prog.uses_call_bind.mpr ⟨fun o ho => (by cases ho), fun _ => trivial⟩) fun exc => ?_
      exact (hextend (Prog.uses_call.mpr rfl)).bind fun _ => trivial

end Conformance

/-! ## One step -/

/-- The table of tasks after an operation. -/
def Op.tasksAfter (o : Op) (tasks : String → Option TaskRow) : String → Option TaskRow :=
  match o with
  | .setTask T st res =>
    Function.update tasks T ((tasks T).map fun row => { row with status := st, result := res })
  | _ => tasks

/-- Stores that do not fail. -/
def noFaults : Nat → Fault := fun _ => .none

def rejectsEvent (a : ApprovalId) (e : AppEvent) : Bool :=
  match e.op with
  | .inl o => o.rejects a
  | .inr _ => false

/-- What holds of every world of a run, with the phases of its threads. -/
structure Cancelling (a : ApprovalId) (T : String) (w : AppWorld) (st : Nat → CancelPhase) : Prop where
  row : ∀ t, st t ≠ .idle → ∃ row, w.db.approvals[a]? = some row
  late : ∀ e ∈ w.log, rejectsEvent a e = true → (st e.tid).Late
  found : ∀ t, st t = .found → ReadTask T w.log ∧ ∃ row, w.db.tasks T = some row
  settled : ∀ t, st t = .settled → ReadTask T w.log ∧ ∃ row, w.db.tasks T = some row ∧ row.status = .cancelled

section Step

variable {a : ApprovalId} {T : String} {env : Env} {t : Nat} {o : Op} {x : AppOp} {w : AppWorld}
  {st : Nat → CancelPhase} {s : CancelPhase} {log : List AppEvent} {db : Db}

theorem opExec_noFaults : opExec env noFaults log t o db = dbExec env (log.filterMap opEvent) t o db := by
  unfold opExec
  dsimp only
  split <;> rfl

theorem dbExec_tasks {events : List Event} : (dbExec env events t o db).2.tasks = o.tasksAfter db.tasks := by
  cases o with
  | claimForResume c b now | insertCheckpoint row | getCheckpoint c | evaluate tool risk =>
    simp only [dbExec]
    split <;> rfl
  | markResumed c p res | markCancelled c reason =>
    simp only [dbExec, withBound]
    split <;> rfl
  | _ => rfl

/-- What a step can do to a phase. -/
theorem next_cases {events : List Event} {r : Except PyExc (Ans o)} (hr : r = (dbExec env events t o db).1) :
    s.next a T o r = s ∨
    (∃ row, db.approvals[a]? = some row ∧ s = .idle ∧ s.next a T o r = .seen) ∨
    (o.rejects a = true ∧ s.next a T o r = .owes) ∨
    (o = .getTask T ∧ s = .owes ∧ s.next a T o r = .found) ∨
    (∃ st res, o = .setTask T st res ∧ s = .found ∧ s.next a T o r = .settled) := by
  cases o with
  | getApproval site b =>
    have hr : r = .ok db.approvals[b]? := hr
    subst hr
    cases hrow : db.approvals[b]? with
    | none => exact .inl rfl
    | some row =>
      by_cases hb : b = a ∧ s = .idle
      · obtain ⟨rfl, rfl⟩ := hb
        exact .inr (.inl ⟨row, hrow, rfl, if_pos ⟨rfl, rfl⟩⟩)
      · exact .inl (if_neg hb)
  | decidePending b st d r' =>
    by_cases hb : b = a ∧ st = .rejected
    · obtain ⟨rfl, rfl⟩ := hb
      refine .inr (.inr (.inl ⟨?_, if_pos ⟨rfl, rfl⟩⟩))
      rw [Op.rejects, beq_self_eq_true, beq_self_eq_true]
      rfl
    · exact .inl (if_neg hb)
  | getTask T' =>
    by_cases hT : T' = T ∧ s = .owes
    · obtain ⟨rfl, rfl⟩ := hT
      exact .inr (.inr (.inr (.inl ⟨rfl, rfl, if_pos ⟨rfl, rfl⟩⟩)))
    · exact .inl (if_neg hT)
  | setTask T' st res =>
    by_cases hT : T' = T ∧ s = .found
    · obtain ⟨rfl, rfl⟩ := hT
      exact .inr (.inr (.inr (.inr ⟨st, res, rfl, rfl, if_pos ⟨rfl, rfl⟩⟩)))
    · exact .inl (if_neg hT)
  | _ => exact .inl rfl

/-- A row that exists goes on to exist. -/
theorem row_exists (h : ∃ row, w.db.approvals[a]? = some row) :
    ∃ row, (appDbExec env noFaults log t x w.db).2.approvals[a]? = some row := by
  obtain ⟨row, hrow⟩ := h
  have hkept : ∃ row', (appDbExec env noFaults log t x w.db).2.approvals[a]? = some row' ∧
      row'.taskId = row.taskId := task_kept hrow
  obtain ⟨row', hrow', -⟩ := hkept
  exact ⟨row', hrow'⟩

/-- A task that was read is not removed, and where it is not settled it is left alone or cancelled. -/
theorem tasks_kept (hread : ReadTask T w.log) (hsaved : ∀ sv, x = .inr sv → sv.task.taskId = T → ¬ ReadTask T w.log)
    (hcancels : ∀ o, x = .inl o → o.settles T = false) {row : TaskRow} (hrow : w.db.tasks T = some row) :
    ∃ row', (appDbExec env noFaults log t x w.db).2.tasks T = some row' ∧
      (row'.status = .cancelled ∨ row' = row ∧ ∀ st res, x ≠ .inl (.setTask T st res)) := by
  rcases x with o | sv
  · show ∃ row', (opExec env noFaults log t o w.db).2.tasks T = some row' ∧ _
    rw [opExec_noFaults, dbExec_tasks]
    cases o with
    | setTask T' st res =>
      by_cases hT : T' = T
      · subst hT
        refine ⟨{ row with status := st, result := res }, ?_, .inl ?_⟩
        · show Function.update w.db.tasks T' _ T' = _
          rw [Function.update_self, hrow]
          rfl
        · have hst := hcancels _ rfl
          rw [Op.settles, beq_self_eq_true, Bool.true_and] at hst
          exact bne_eq_false_iff_eq.mp hst
      · refine ⟨row, ?_, .inr ⟨rfl, fun st' res' h => ?_⟩⟩
        · show Function.update w.db.tasks T' _ T = _
          rw [Function.update_of_ne (Ne.symm hT), hrow]
        · exact hT (Op.setTask.inj (Sum.inl.inj h)).1
    | _ => exact ⟨row, hrow, .inr ⟨rfl, fun st res h => by cases h⟩⟩
  · refine ⟨row, ?_, .inr ⟨rfl, fun st res h => by cases h⟩⟩
    show Function.update w.db.tasks sv.task.taskId _ T = _
    rw [Function.update_of_ne, hrow]
    rintro rfl
    exact hsaved sv rfl rfl hread

/-- The answers of the tables are those that the phases rely on. -/
theorem Cancelling.answers (h : Cancelling a T w st) (hsaved : ∀ T', o = .getTask T' → T' = T → (w.db.tasks T).isSome)
    (htask : ¬ ∃ row, w.db.approvals[a]? = some row ∧ row.taskId ≠ T) {events : List Event}
    {r : Except PyExc (Ans o)} (hr : r = (dbExec env events t o w.db).1) : (st t).answer a T o r := by
  cases o with
  | getApproval site b =>
    rintro rfl howes
    obtain ⟨row, hrow⟩ := h.row t (by rw [howes]; decide)
    refine ⟨row, hr.trans (congrArg Except.ok hrow), ?_⟩
    by_contra hne
    exact htask ⟨row, hrow, hne⟩
  | decidePending b st' d r' => exact hr
  | getTask T' =>
    rintro rfl -
    obtain ⟨row, hrow⟩ := Option.isSome_iff_exists.mp (hsaved T' rfl rfl)
    exact ⟨row, hr.trans (congrArg Except.ok hrow)⟩
  | setTask T' st' res => exact hr
  | _ => trivial

theorem CancelPhase.Late.next {events : List Event} {r : Except PyExc (Ans o)} (hr : r = (dbExec env events t o db).1)
    (h : s.Late) : (s.next a T o r).Late := by
  rcases next_cases (s := s) (a := a) (T := T) hr with hn | ⟨row, -, rfl, hn⟩ | ⟨-, hn⟩ | ⟨-, -, hn⟩ | ⟨st', res, -, -, hn⟩
  · rwa [hn]
  · exact absurd rfl h.1
  all_goals
    rw [hn]
    exact ⟨by decide, by decide⟩

theorem next_of_rejects {r : Except PyExc (Ans o)} (h : o.rejects a = true) : s.next a T o r = .owes := by
  cases o with
  | decidePending b st' d r' =>
    rw [Op.rejects, Bool.and_eq_true, beq_iff_eq, beq_iff_eq] at h
    exact if_pos h
  | _ => cases h

theorem ReadTask.append (h : ReadTask T w.log) (rest : List AppEvent) : ReadTask T (w.log ++ rest) := by
  obtain ⟨e, he, hop⟩ := h
  exact ⟨e, List.mem_append_left _ he, hop⟩

/-- **The step lemma.** -/
theorem Cancelling.step {c : Conf AppOp AppAns PyExc AppWorld Dict} (h : Cancelling a T c.world st)
    (hsaved : SavedBeforeRead T c t x) (hcancels : ∀ o, x = .inl o → o.settles T = false)
    (htask : ¬ ∃ row, c.world.db.approvals[a]? = some row ∧ row.taskId ≠ T)
    (hmay : (cancelMachine a T).may (st t) x) :
    ∃ s', (cancelMachine a T).step (st t) x (Logged.exec (appDbExec env noFaults) t x c.world).1 s' ∧
      Cancelling a T (Logged.exec (appDbExec env noFaults) t x c.world).2 (Function.update st t s') := by
  let w' := (Logged.exec (appDbExec env noFaults) t x c.world).2
  have hkept : ∀ {row : TaskRow}, ReadTask T c.world.log → c.world.db.tasks T = some row →
      ∃ row', w'.db.tasks T = some row' ∧
        (row'.status = .cancelled ∨ row' = row ∧ ∀ st res, x ≠ .inl (.setTask T st res)) := by
    intro row hread hrow
    refine tasks_kept hread ?_ hcancels hrow
    rintro sv rfl
    exact hsaved
  have hfound : ∀ u, st u = .found → ReadTask T w'.log ∧ ∃ row, w'.db.tasks T = some row := by
    intro u hu
    obtain ⟨hr, row, hrow⟩ := h.found u hu
    obtain ⟨row', hrow', -⟩ := hkept hr hrow
    exact ⟨hr.append _, row', hrow'⟩
  have hsettled : ∀ u, st u = .settled →
      ReadTask T w'.log ∧ ∃ row, w'.db.tasks T = some row ∧ row.status = .cancelled := by
    intro u hu
    obtain ⟨hr, row, hrow, hst⟩ := h.settled u hu
    obtain ⟨row', hrow', hst' | ⟨rfl, -⟩⟩ := hkept hr hrow
    · exact ⟨hr.append _, row', hrow', hst'⟩
    · exact ⟨hr.append _, row', hrow', hst⟩
  rcases x with o | sv
  · have hans : (Logged.exec (appDbExec env noFaults) t (.inl o) c.world).1 =
        (dbExec env (c.world.log.filterMap opEvent) t o c.world.db).1 := congrArg Prod.fst opExec_noFaults
    have hdb : w'.db = (dbExec env (c.world.log.filterMap opEvent) t o c.world.db).2 :=
      congrArg Prod.snd opExec_noFaults
    refine ⟨_, ⟨h.answers ?_ htask hans, rfl⟩, ?_⟩
    · rintro T' rfl hT'
      exact hsaved (beq_iff_eq.mpr hT')
    have hcases := next_cases (s := st t) (a := a) (T := T) hans
    have hlate := CancelPhase.Late.next (s := st t) (a := a) (T := T) hans
    have howes := next_of_rejects (T := T) (s := st t) (r := (Logged.exec (appDbExec env noFaults) t (.inl o) c.world).1)
      (o := o) (a := a)
    generalize (st t).next a T o (Logged.exec (appDbExec env noFaults) t (.inl o) c.world).1 = s' at *
    have hnew : (⟨t, .inl o, (Logged.exec (appDbExec env noFaults) t (.inl o) c.world).1⟩ : AppEvent) ∈ w'.log :=
      List.mem_append_right _ List.mem_cons_self
    refine ⟨fun u hu => row_exists ?_, fun e he hrejects => ?_, fun u hu => ?_, fun u hu => ?_⟩
    · by_cases hut : u = t
      · rw [hut, Function.update_self] at hu
        rcases hcases with hn | ⟨row, hrow, -, -⟩ | ⟨hrejects, -⟩ | ⟨-, hs, -⟩ | ⟨st', res, -, hs, -⟩
        · exact h.row t (hn ▸ hu)
        · exact ⟨row, hrow⟩
        · exact h.row t (by rw [hmay hrejects]; decide)
        · exact h.row t (by rw [hs]; decide)
        · exact h.row t (by rw [hs]; decide)
      · rw [Function.update_of_ne hut] at hu
        exact h.row u hu
    · rcases List.mem_append.mp he with he | he
      · by_cases hut : e.tid = t
        · rw [hut, Function.update_self]
          exact hlate (hut ▸ h.late e he hrejects)
        · rw [Function.update_of_ne hut]
          exact h.late e he hrejects
      · rw [List.mem_singleton.mp he] at hrejects ⊢
        rw [Function.update_self, howes hrejects]
        exact ⟨by decide, by decide⟩
    · by_cases hut : u = t
      · rw [hut, Function.update_self] at hu
        rcases hcases with hn | ⟨row, -, -, hn⟩ | ⟨-, hn⟩ | ⟨rfl, -, -⟩ | ⟨st', res, -, -, hn⟩
        · exact hfound t (hn ▸ hu)
        · rw [hn] at hu
          cases hu
        · rw [hn] at hu
          cases hu
        · obtain ⟨row, hrow⟩ := Option.isSome_iff_exists.mp (hsaved (beq_self_eq_true T))
          refine ⟨⟨_, hnew, beq_self_eq_true T⟩, row, ?_⟩
          rw [hdb]
          exact hrow
        · rw [hn] at hu
          cases hu
      · rw [Function.update_of_ne hut] at hu
        exact hfound u hu
    · by_cases hut : u = t
      · rw [hut, Function.update_self] at hu
        rcases hcases with hn | ⟨row, -, -, hn⟩ | ⟨-, hn⟩ | ⟨-, -, hn⟩ | ⟨st', res, rfl, hs, -⟩
        · exact hsettled t (hn ▸ hu)
        · rw [hn] at hu
          cases hu
        · rw [hn] at hu
          cases hu
        · rw [hn] at hu
          cases hu
        · obtain ⟨hr, row, hrow⟩ := h.found t hs
          obtain ⟨row', hrow', hst' | ⟨-, hne⟩⟩ := hkept hr hrow
          · exact ⟨hr.append _, row', hrow', hst'⟩
          · exact absurd rfl (hne _ _)
      · rw [Function.update_of_ne hut] at hu
        exact hsettled u hu
  · refine ⟨st t, rfl, ?_⟩
    rw [Function.update_eq_self]
    refine ⟨fun u hu => row_exists (h.row u hu), fun e he hrejects => ?_, hfound, hsettled⟩
    rcases List.mem_append.mp he with he | he
    · exact h.late e he hrejects
    · rw [List.mem_singleton.mp he] at hrejects
      cases hrejects

end Step

/-! ## Every run -/

/-- **The task of a rejected approval is cancelled.**  Any requests, interleaved in any way, over the SQLite stores:
if at the end approval `a` of task `T` was rejected by a thread that has finished, no approval of `T` is approved,
and `T` was saved before it was read, then the stored task is cancelled. -/
theorem rejected_task_cancelled (sv : AppService) (hsqlite : sv.backend = .sqlite) (db : Db) (reqs : Nat → AppRequest)
    (sched : List Nat) (a : ApprovalId) (T : String) (hT : T ≠ "") (u : Nat)
    (hsaved : Conf.Meets (Logged.exec (appDbExec sv.env noFaults)) (SavedBeforeRead T) (sv.start db reqs) sched)
    (hrow : ∃ row, (sv.run noFaults (sv.start db reqs) sched).world.db.approvals[a]? = some row ∧ row.taskId = T)
    (hnone : ∀ b, ¬ ApprovedFor (sv.run noFaults (sv.start db reqs) sched).world.db b T)
    (hrejects : ∃ e ∈ (sv.run noFaults (sv.start db reqs) sched).world.log, e.tid = u ∧ rejectsEvent a e = true)
    (hdone : ((sv.run noFaults (sv.start db reqs) sched).outcome u).isSome) :
    ∃ row, (sv.run noFaults (sv.start db reqs) sched).world.db.tasks T = some row ∧ row.status = .cancelled := by
  have hcancels : Conf.Meets (Logged.exec (appDbExec sv.env noFaults))
      (fun _ _ x => ∀ o, x = .inl o → o.settles T = false) (sv.start db reqs) sched := by
    refine Conf.meets_of_log fun e he o ho => ?_
    by_contra hsettles
    have hsettled : settlesTask T e = true := by
      unfold settlesTask
      rw [ho]
      exact Bool.not_eq_false _ ▸ hsettles
    obtain ⟨b, hb⟩ := (staysApproved_run hsqlite).settled e he T hsettled
    exact hnone b hb
  have htask : Conf.Meets (Logged.exec (appDbExec sv.env noFaults))
      (fun c _ _ => ¬ ∃ row, c.world.db.approvals[a]? = some row ∧ row.taskId ≠ T) (sv.start db reqs) sched := by
    refine Conf.meets_of_last (B := fun c : Conf AppOp AppAns PyExc AppWorld Dict =>
      ∃ row, c.world.db.approvals[a]? = some row ∧ row.taskId ≠ T) ?_ ?_
    · rintro c t ⟨row, hget, hne⟩
      cases ht : c.threads t with
      | op x k =>
        rw [Conf.step_of_op ht]
        have hkept : ∃ row', (appDbExec sv.env noFaults c.world.log t x c.world.db).2.approvals[a]? = some row' ∧
            row'.taskId = row.taskId := task_kept hget
        obtain ⟨row', hrow', htask'⟩ := hkept
        exact ⟨row', hrow', by rwa [htask']⟩
      | ret v =>
        rw [Conf.step_of_next_none (by simp only [Conf.next, ht])]
        exact ⟨row, hget, hne⟩
      | raise e =>
        rw [Conf.step_of_next_none (by simp only [Conf.next, ht])]
        exact ⟨row, hget, hne⟩
    · rintro ⟨row', hrow', hne⟩
      obtain ⟨row, hget, htask⟩ := hrow
      exact hne (Option.some.inj (hget.symm.trans hrow') ▸ htask)
  have hstart : Cancelling a T (sv.start db reqs).world fun _ => .idle :=
    ⟨fun t h => absurd rfl h, (fun e he => by cases he), (fun t h => by cases h), fun t h => by cases h⟩
  obtain ⟨st, hinv, hconf⟩ := Conf.run_typestate (m := cancelMachine a T) (Q := fun _ _ s => s.Clear)
    (J := fun c st => Cancelling a T c.world st) (fun c st t x k hJ _ ht hok hmay => by
      rw [Conf.step_of_op ht]
      exact hJ.step hok.1.1 hok.1.2 hok.2 hmay)
    hstart (fun t => appRequest_clear hsqlite hT) ((hsaved.and hcancels).and htask)
  obtain ⟨e, he, rfl, hrej⟩ := hrejects
  obtain ⟨r, hr⟩ := Option.isSome_iff_exists.mp hdone
  have hlate := hinv.late e he hrej
  have hclear : (st e.tid).Clear := hconf.outcome hr
  have hsettled : st e.tid = .settled := by
    cases hst : st e.tid with
    | idle => exact absurd hst hlate.1
    | seen => exact absurd hst hlate.2
    | owes => exact absurd hst hclear.1
    | found => exact absurd hst hclear.2
    | settled => rfl
  exact (hinv.settled e.tid hsettled).2

/-- A task that asks for the refund, and the rejection of its approval. -/
def createAndReject : Nat → AppRequest := fun t => if t = 0 then demoTaskRequest else .serve (.reject 0 demoRequest)

/-- One after the other. -/
def oneByOne : List Nat := List.replicate 20 0 ++ List.replicate 20 1

theorem rejected_task_cancelled_demo :
    ∃ row, (demoApp.run noFaults (demoApp.start emptyDb createAndReject) oneByOne).world.db.tasks "t" = some row ∧
      row.status = .cancelled :=
  rejected_task_cancelled demoApp rfl emptyDb createAndReject oneByOne 0 "t" (by decide) 1 (by decide +kernel)
    (by decide +kernel) (fun b => by
      rintro ⟨row, hrow, hst, -⟩
      have hrows : (demoApp.run noFaults (demoApp.start emptyDb createAndReject) oneByOne).world.db.approvals.all
          fun row => row.status == .rejected := by decide +kernel
      have hrow := List.all_eq_true.mp hrows row (List.mem_of_getElem? hrow)
      rw [hst] at hrow
      cases hrow)
    (by decide +kernel) (by decide +kernel)

/-- The rejection comes between the creation of the approval and the save of the task, which stays waiting. -/
example : ((demoApp.run noFaults (demoApp.start emptyDb createAndReject)
    (List.replicate 9 0 ++ List.replicate 20 1 ++ List.replicate 20 0)).world.db.tasks "t").map TaskRow.status =
      some .waiting_approval := by
  decide +kernel

end AgentHarness
