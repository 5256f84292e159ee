import AgentHarness.Footprint

/-!
# Sequential — one program at a time on the real tables

`sequential env` is the machine that answers as the tables and the environment do, so `wp` on it is
what a run ends with.  Most operations of a request neither change the tables nor *act*: an act is a
gateway call, an NL2SQL run, the creation of an approval, or the entry of an execution mode.
`Moves w w' evs db` says which acts a run added and what tables it left.
-/

namespace AgentHarness

open Lib Py

/-- The machine of a single thread: every operation is answered by `exec`. -/
def sequential (env : Env) : Machine Op Ans PyExc World where
  may _ _ := True
  step w o r w' := r = (exec env 0 o w).1 ∧ w' = (exec env 0 o w).2

def Op.isAct : Op → Bool
  | .gatewayCall _ _ _ | .insertApproval _ | .nl2sql _ | .enterMode _ => true
  | _ => false

/-- An operation that neither acts nor changes an approval. -/
def Op.isQuiet : Op → Bool
  | .gatewayCall _ _ _ | .insertApproval _ | .nl2sql _ | .enterMode _ | .decidePending _ _ _ _
  | .commitDecision _ _ _ _ | .setPayload _ _ => false
  | _ => true

/-- The acts of a log, in order. -/
def acts (log : List Event) : List Event := log.filter fun e => e.op.isAct

@[simp] theorem acts_append (l l' : List Event) : acts (l ++ l') = acts l ++ acts l' :=
  List.filter_append ..

/-- Only acts are calls. -/
theorem callsOf_acts (log : List Event) : callsOf (acts log) = callsOf log := by
  unfold callsOf acts
  rw [List.filterMap_filter]
  refine congrArg (List.filterMap · log) (funext fun e => ?_)
  cases h : e.op <;> simp [Op.isAct, callOf, h]

/-- From `w` to `w'` the acts `evs` were added, and the approvals became `rows`. -/
structure Moves (w w' : World) (evs : List Event) (rows : List ApprovalRow) : Prop where
  acts : acts w'.log = acts w.log ++ evs
  rows : w'.db.approvals = rows

namespace Moves

variable {w w₁ w₂ w' : World} {evs evs' : List Event} {rows rows' : List ApprovalRow}

theorem refl (w : World) : Moves w w [] w.db.approvals := ⟨(List.append_nil _).symm, rfl⟩

theorem trans (h : Moves w w₁ evs rows) (h' : Moves w₁ w₂ evs' rows') :
    Moves w w₂ (evs ++ evs') rows' :=
  ⟨by rw [h'.acts, h.acts, List.append_assoc], h'.rows⟩

/-- Nothing acted in the first part. -/
theorem after (h : Moves w w₁ [] rows) (h' : Moves w₁ w₂ evs rows') : Moves w w₂ evs rows' := h.trans h'

/-- Nothing acted in the second part. -/
theorem quiet (h : Moves w w₁ evs rows) (h' : Moves w₁ w₂ [] w₁.db.approvals) :
    Moves w w₂ evs rows := by
  have := h.trans h'
  rwa [List.append_nil, h.rows] at this

theorem callsOf (h : Moves w w' evs rows) :
    callsOf w'.log = callsOf w.log ++ AgentHarness.callsOf evs := by
  rw [← callsOf_acts, h.acts]
  unfold AgentHarness.callsOf
  rw [List.filterMap_append]
  exact congrArg (· ++ _) (callsOf_acts w.log)

/-- Without acts there are no calls. -/
theorem callsOf_quiet (h : Moves w w' [] rows) : AgentHarness.callsOf w'.log = AgentHarness.callsOf w.log := by
  simpa [AgentHarness.callsOf] using h.callsOf

end Moves

section Wp

variable {env : Env} {α : Type} {w : World}

/-- `wp` on the sequential machine is the run itself. -/
theorem wp_sequential {p : Py α} {Q : Except PyExc α → World → Prop} :
    wp (sequential env) p Q w ↔ Q (p.run (exec env 0) w).1 (p.run (exec env 0) w).2 :=
  wp_exact

/-- The result and the state after one request, served alone. -/
def serve (env : Env) {α : Type} (p : Py α) (w : World) : Except PyExc α × World :=
  p.run (exec env 0) w

/-- What `wp` says about a request served alone. -/
theorem serve_of_wp {p : Py α} {Q : Except PyExc α → World → Prop}
    (h : wp (sequential env) p Q w) : Q (serve env p w).1 (serve env p w).2 :=
  wp_sequential.mp h

theorem wp_perform {o : Op} {Q : Except PyExc (Ans o) → World → Prop} :
    wp (sequential env) (perform o) Q w ↔ Q (exec env 0 o w).1 (exec env 0 o w).2 := by
  refine wp_call.trans ⟨fun h => h.2 _ _ ⟨rfl, rfl⟩, fun h => ⟨trivial, ?_⟩⟩
  rintro r w' ⟨rfl, rfl⟩
  exact h

/-- An operation that is answered by `a`. -/
theorem wp_perform_bind {β : Type} {o : Op} {a : Ans o} {f : Ans o → Py β}
    {Q : Except PyExc β → World → Prop} (ha : (dbExec env w.log 0 o w.db).1 = .ok a)
    (h : wp (sequential env) (f a) Q (exec env 0 o w).2) :
    wp (sequential env) (perform o >>= f) Q w := by
  refine wp_seq (R := fun r w' => r = .ok a ∧ w' = (exec env 0 o w).2) ?_ ?_ fun e w' h => nomatch h.1
  · exact wp_perform.mpr ⟨ha, rfl⟩
  · rintro b w' ⟨⟨⟩, rfl⟩
    exact h

/-- An operation that does not act leaves the approvals as `dbExec` does. -/
theorem moves_exec {o : Op} (h : o.isAct = false) :
    Moves w (exec env 0 o w).2 [] (dbExec env w.log 0 o w.db).2.approvals := by
  refine ⟨?_, rfl⟩
  rw [exec_log, acts_append]
  simp [acts, h]

theorem moves_quiet {o : Op} (h : o.isQuiet = true) : Moves w (exec env 0 o w).2 [] w.db.approvals := by
  have hact : o.isAct = false := by cases o <;> first | rfl | cases h
  have hrows : (dbExec env w.log 0 o w.db).2.approvals = w.db.approvals := by
    cases o <;> simp only [dbExec, withBound, updateTask, updateCheckpoints] <;>
      first | rfl | (split <;> rfl) | cases h
  have hm := @moves_exec env w o hact
  rwa [hrows] at hm

/-- An act is logged with its answer. -/
theorem moves_act {o : Op} (h : o.isAct = true) :
    Moves w (exec env 0 o w).2 [⟨0, o, (dbExec env w.log 0 o w.db).1⟩]
      (dbExec env w.log 0 o w.db).2.approvals := by
  refine ⟨?_, rfl⟩
  rw [exec_log, acts_append]
  simp [acts, h]

variable {Q : Except PyExc α → World → Prop}

/-- A program part that raises nothing, changes no approval and does not act. -/
def Silent (env : Env) {α : Type} (p : Py α) : Prop :=
  ∀ w, wp (sequential env) p (fun r w' => (∃ a, r = .ok a) ∧ Moves w w' [] w.db.approvals) w

theorem silent_pure {a : α} : Silent env (pure a : Py α) := fun w => ⟨⟨a, rfl⟩, .refl w⟩

theorem silent_perform {o : Op} (ha : o.isAct = false)
    (h : ∀ log db, (∃ a, (dbExec env log 0 o db).1 = .ok a) ∧
      (dbExec env log 0 o db).2.approvals = db.approvals) : Silent env (perform o) := fun w => by
  refine wp_perform.mpr ⟨(h w.log w.db).1, ?_⟩
  have hm := @moves_exec env w o ha
  rwa [(h w.log w.db).2] at hm

theorem Silent.bind {β : Type} {p : Py α} {f : α → Py β} (hp : Silent env p)
    (hf : ∀ a, Silent env (f a)) : Silent env (p >>= f) := fun w => by
  refine wp_seq (hp w) (fun a w' h => ?_) fun e w' h => ?_
  · exact wp_mono (hf a w') fun r w'' h' => ⟨h'.1, h.2.quiet h'.2⟩
  · obtain ⟨⟨a, ha⟩, -⟩ := h
    cases ha

theorem silent_trace {e t : String} {d : Dict} : Silent env (trace e t d) :=
  silent_perform rfl fun _ _ => ⟨⟨(), rfl⟩, rfl⟩

theorem silent_traceTask {e t : String} {d : Dict} : Silent env (traceTask e t d) := by
  unfold traceTask
  split
  · exact silent_trace
  · exact silent_pure

theorem silent_tryCatch {p : Py α} {h : PyExc → Py α} (hp : Silent env p) :
    Silent env (MonadExcept.tryCatch p h) := fun w => by
  refine wp_try (hp w) (fun a w' h => h) fun e w' h => ?_
  obtain ⟨⟨a, ha⟩, -⟩ := h
  cases ha

theorem silent_recordTrace {e t : String} {d : Dict} : Silent env (recordTrace e t d) :=
  silent_tryCatch silent_trace

theorem silent_recordAudit {f : Dict} : Silent env (recordAudit f) :=
  silent_tryCatch (silent_perform rfl fun _ _ => ⟨⟨(), rfl⟩, rfl⟩)

theorem silent_updateTaskStatus {t : String} {st : TaskStatus} {r : Option Dict} :
    Silent env (updateTaskStatus t st r) := by
  have hget : Silent env (getTask t) := silent_perform rfl fun _ db => ⟨⟨db.tasks t, rfl⟩, rfl⟩
  unfold updateTaskStatus
  refine hget.bind fun row => ?_
  cases row with
  | none => exact silent_pure
  | some row =>
    exact Silent.bind (silent_perform rfl fun _ _ => ⟨⟨(), rfl⟩, rfl⟩) fun _ => hget

/-- A silent part is passed over. -/
theorem wp_silent_seq {β : Type} {p : Py β} {f : β → Py α} (hp : Silent env p)
    (hf : ∀ b w', Moves w w' [] w.db.approvals → wp (sequential env) (f b) Q w') :
    wp (sequential env) (p >>= f) Q w := by
  refine wp_seq (hp w) (fun b w' h => hf b w' h.2) fun e w' h => ?_
  obtain ⟨⟨a, ha⟩, -⟩ := h
  cases ha

/-- From every state with `P`, the part ends in a state with `P`. -/
def Keeps (env : Env) (P : World → Prop) {α : Type} (p : Py α) : Prop :=
  ∀ w, P w → wp (sequential env) p (fun _ w' => P w') w

section Keeps

variable {P : World → Prop} {β : Type}

theorem Keeps.bind {p : Py α} {f : α → Py β} (hp : Keeps env P p) (hf : ∀ a, Keeps env P (f a)) :
    Keeps env P (p >>= f) := fun w hw => wp_seq (hp w hw) (fun a w' h => hf a w' h) fun _ _ h => h

theorem Keeps.tryCatch {p : Py α} {f : PyExc → Py α} (hp : Keeps env P p) (hf : ∀ e, Keeps env P (f e)) :
    Keeps env P (MonadExcept.tryCatch p f) := fun w hw =>
  wp_try (hp w hw) (fun _ _ h => h) fun e w' h => hf e w' h

theorem keeps_pure {a : α} : Keeps env P (pure a : Py α) := fun _ hw => hw

/-- Operations that keep `P` one by one keep it together. -/
theorem keeps_of_uses {O : Op → Prop} (hO : ∀ o, O o → ∀ w, P w → P (exec env 0 o w).2) {p : Py α}
    (hu : p.Uses O) : Keeps env P p := fun w hw => by
  refine wp_of_keeps (fun o ho w hw => ⟨trivial, ?_⟩) hu hw
  rintro r w' ⟨-, rfl⟩
  exact hO o ho w hw

/-- A part that performs quiet operations only, and may raise. -/
theorem wp_quiet {p : Py α} (hu : p.Uses fun o => o.isQuiet = true) :
    wp (sequential env) p (fun _ w' => Moves w w' [] w.db.approvals) w :=
  keeps_of_uses (fun _ ho _ h => h.quiet (moves_quiet ho)) hu w (.refl w)

theorem wp_quiet_seq {Q : Except PyExc β → World → Prop} {p : Py α} {f : α → Py β}
    (hu : p.Uses fun o => o.isQuiet = true)
    (hok : ∀ a w', Moves w w' [] w.db.approvals → wp (sequential env) (f a) Q w')
    (herr : ∀ e w', Moves w w' [] w.db.approvals → Q (.error e) w') :
    wp (sequential env) (p >>= f) Q w := wp_seq (wp_quiet hu) hok herr

end Keeps

/-- What a decision makes of a row: only a pending one is decided. -/
def decideIfPending (status : ApprovalStatus) (decidedBy reason : String) (row : ApprovalRow) :
    ApprovalRow :=
  if row.status = .pending then decideRow status decidedBy reason row else row

theorem modify_congr {l : List ApprovalRow} {a : ApprovalId} {f g : ApprovalRow → ApprovalRow}
    (h : ∀ row, l[a]? = some row → f row = g row) : l.modify a f = l.modify a g := by
  refine List.ext_getElem? fun i => ?_
  rw [List.getElem?_modify, List.getElem?_modify]
  by_cases hi : a = i
  · subst hi
    cases hl : l[a]? with
    | none => rfl
    | some row => simp [h row hl]
  · simp [hi]

/-- Both stores, as long as nothing interferes, decide a pending row and no other. -/
theorem decideApproval_sequential {backend : Backend} {a : ApprovalId} {approved : Bool}
    {decidedBy reason : String} :
    wp (sequential env) (decideApproval backend a approved decidedBy reason) (fun r w' =>
      (∃ d, r = .ok d) ∧ Moves w w' []
        (w.db.approvals.modify a (decideIfPending (decidedStatus approved) decidedBy reason))) w := by
  have hget : Silent env (getApproval .store a) :=
    silent_perform rfl fun _ db => ⟨⟨db.approvals[a]?, rfl⟩, rfl⟩
  have h₁ : Moves w (exec env 0 (.getApproval .store a) w).2 [] w.db.approvals := moves_exec rfl
  -- a row that is missing or not pending is left alone
  have hsame : ∀ w', (∀ row, w.db.approvals[a]? = some row → row.status ≠ .pending) →
      Moves w w' [] w.db.approvals → Moves w w' []
        (w.db.approvals.modify a (decideIfPending (decidedStatus approved) decidedBy reason)) := by
    intro w' hnp hm
    have hid : w.db.approvals.modify a (decideIfPending (decidedStatus approved) decidedBy reason) =
        w.db.approvals.modify a id := modify_congr fun row hrow => if_neg (hnp row hrow)
    rw [hid, List.modify_id]
    exact hm
  cases backend with
  | sqlite =>
    unfold decideApproval decideApprovalSqlite
    refine wp_perform_bind rfl ?_
    cases hrow : w.db.approvals[a]? with
    | none => exact ⟨⟨_, rfl⟩, hsame _ (fun row h => by simp [hrow] at h) h₁⟩
    | some row =>
      dsimp only
      by_cases hst : row.status = .pending
      · rw [if_neg (not_not.mpr hst)]
        refine wp_perform_bind rfl ?_
        refine wp_silent_seq hget fun b w' h => ⟨⟨_, rfl⟩, ?_⟩
        exact (h₁.after (moves_exec rfl)).quiet h
      · rw [if_pos hst]
        refine ⟨⟨_, rfl⟩, hsame _ (fun row' h => ?_) h₁⟩
        rw [hrow] at h
        cases h
        exact hst
  | postgres =>
    unfold decideApproval decideApprovalPostgres
    refine wp_perform_bind rfl ?_
    cases hrow : w.db.approvals[a]? with
    | none => exact ⟨⟨_, rfl⟩, hsame _ (fun row h => by simp [hrow] at h) h₁⟩
    | some row =>
      dsimp only
      by_cases hst : row.status = .pending
      · rw [if_neg (not_not.mpr hst)]
        have hsel : (dbExec env (exec env 0 (.getApproval .store a) w).2.log 0 (.selectPending a)
            (exec env 0 (.getApproval .store a) w).2.db).1 = .ok true := by
          simp [exec_db, dbExec, hrow, hst]
        refine wp_perform_bind hsel ?_
        have h₂ : Moves w (exec env 0 (.selectPending a) (exec env 0 (.getApproval .store a) w).2).2 []
            w.db.approvals := h₁.after (moves_exec rfl)
        refine wp_perform_bind rfl ?_
        refine wp_silent_seq hget fun b w' h => ⟨⟨_, rfl⟩, ?_⟩
        have hcommit : w.db.approvals.modify a
            (decideIfPending (decidedStatus approved) decidedBy reason) =
            w.db.approvals.modify a (decideRow (decidedStatus approved) decidedBy reason) :=
          modify_congr fun row' h => by
            rw [hrow] at h
            cases h
            exact if_pos hst
        rw [hcommit]
        exact (h₂.after (moves_exec rfl)).quiet h
      · rw [if_pos hst]
        refine ⟨⟨_, rfl⟩, hsame _ (fun row' h => ?_) h₁⟩
        rw [hrow] at h
        cases h
        exact hst

end Wp

end AgentHarness
