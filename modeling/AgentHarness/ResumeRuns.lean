import AgentHarness.ResumeOnce

/-!
# ResumeRuns — the runs in which the approved tool is called successfully at most once

`checksAlone` is the condition on a step: the check of the approval is made only while no other thread is midway,
that is between its check and its mark.  `storesHold` is the condition under faults: after a successful call no
store fails before the mark is written.  In every run that keeps both, nothing calls the approved tool again once
it was called successfully.
-/

namespace AgentHarness

open Lib Py

/-- The phase of a thread, read from the log. -/
def phaseOf (a : ApprovalId) (t : Nat) (log : List Event) : ResumePhase :=
  log.foldl (fun s e => if e.tid = t then s.next a e.op e.ans else s) .idle

/-- The thread is past its check and goes on, or it was cut off between a successful call and the mark. -/
def midway (a : ApprovalId) (c : Conf Op Ans PyExc World Dict) (t : Nat) : Bool :=
  phaseOf a t c.world.log == .called true || (phaseOf a t c.world.log != .idle && (c.next t).isSome)

/-- The reading at the top of `resume`. -/
def Op.isCheck (a : ApprovalId) : Op → Bool
  | .getApproval .resumeCheck b => b == a
  | _ => false

def Op.isApprovedCall (a : ApprovalId) : Op → Bool
  | .gatewayCall (.approved b _) _ _ => b == a
  | _ => false

/-- A successful call of the approved tool. -/
def approvedSuccess (a : ApprovalId) (e : Event) : Bool :=
  match e with
  | ⟨_, .gatewayCall (.approved b _) _ _, r⟩ => b == a && callSucceeded r
  | _ => false

/-- **Once the approved tool was called successfully, it is not called again.** -/
def NoneAfterSuccess (a : ApprovalId) (log : List Event) : Prop :=
  ∀ pre e post, log = pre ++ e :: post → e.op.isApprovedCall a = true → ∀ e' ∈ pre, approvedSuccess a e' = false

/-- The check is made while no other thread is midway. -/
def checksAlone (a : ApprovalId) (c : Conf Op Ans PyExc World Dict) (t : Nat) (o : Op) : Prop :=
  o.isCheck a = true → ∀ e ∈ c.world.log, e.tid ≠ t → midway a c e.tid = false

/-- After a successful call no store fails before the mark is written. -/
def storesHold (faults : Nat → Fault) (a : ApprovalId) (c : Conf Op Ans PyExc World Dict) (t : Nat) (o : Op) : Prop :=
  phaseOf a t c.world.log = .called true → o.isStore = true →
    faults c.world.log.length = .none ∨ (o.isSetPayload = true ∧ faults c.world.log.length = .after)

/-- The approval carries the mark. -/
def IsMarked (a : ApprovalId) (db : Db) : Prop := ∃ row, db.approvals[a]? = some row ∧ row.isResumed = true

/-! ## Logs -/

section Logs

variable {a : ApprovalId} {t u : Nat} {log : List Event} {e : Event}

theorem phaseOf_append :
    phaseOf a t (log ++ [e]) = if e.tid = t then (phaseOf a t log).next a e.op e.ans else phaseOf a t log := by
  simp [phaseOf, List.foldl_append]

/-- A thread that has done nothing is idle. -/
theorem phaseOf_idle (h : ∀ e ∈ log, e.tid ≠ t) : phaseOf a t log = .idle := by
  have hkeep : ∀ s : ResumePhase,
      log.foldl (fun s (e : Event) => if e.tid = t then s.next a e.op e.ans else s) s = s := by
    induction log with
    | nil => exact fun s => rfl
    | cons e log ih =>
      intro s
      rw [List.foldl_cons, if_neg (h e List.mem_cons_self)]
      exact ih (fun e' he' => h e' (List.mem_cons_of_mem _ he')) s
  exact hkeep .idle

theorem isApprovedCall_of_success (h : approvedSuccess a e = true) : e.op.isApprovedCall a = true := by
  unfold approvedSuccess at h
  split at h
  · rw [Bool.and_eq_true] at h
    exact h.1
  · cases h

/-- An event that is no call of the approved tool, or the first success, extends the law. -/
theorem NoneAfterSuccess.snoc (h : NoneAfterSuccess a log)
    (hnew : e.op.isApprovedCall a = true → ∀ e' ∈ log, approvedSuccess a e' = false) :
    NoneAfterSuccess a (log ++ [e]) := by
  intro pre e₁ post hsplit hcall e' he'
  rcases List.append_eq_append_iff.mp hsplit with ⟨rest, rfl, hrest⟩ | ⟨rest, rfl, hrest⟩
  · cases rest with
    | nil =>
      obtain ⟨rfl, -⟩ := List.cons.inj hrest
      rw [List.append_nil] at he'
      exact hnew hcall e' he'
    | cons e₂ rest => simp at hrest
  · cases rest with
    | nil =>
      obtain ⟨rfl, -⟩ := List.cons.inj hrest
      exact hnew hcall e' (List.mem_append_left _ he')
    | cons e₂ rest =>
      obtain ⟨rfl, -⟩ := List.cons.inj hrest
      exact h pre e₁ rest rfl hcall e' he'

theorem noneAfterSuccess_nil : NoneAfterSuccess a [] := by
  intro pre e post h
  simp at h

/-- At most one success. -/
theorem NoneAfterSuccess.count (h : NoneAfterSuccess a log) : log.countP (approvedSuccess a) ≤ 1 := by
  induction log with
  | nil => exact Nat.zero_le 1
  | cons e log ih =>
    have htail : NoneAfterSuccess a log := by
      intro pre e₁ post hsplit hcall e' he'
      exact h (e :: pre) e₁ post (by rw [hsplit]; rfl) hcall e' (List.mem_cons_of_mem _ he')
    cases hsucc : approvedSuccess a e with
    | false =>
      rw [List.countP_cons_of_neg (by rw [hsucc]; exact Bool.false_ne_true)]
      exact ih htail
    | true =>
      have hnone : log.countP (approvedSuccess a) = 0 := by
        refine List.countP_eq_zero.mpr fun e₁ he₁ hsucc₁ => ?_
        obtain ⟨pre, post, rfl⟩ := List.append_of_mem he₁
        have := h (e :: pre) e₁ post rfl (isApprovedCall_of_success hsucc₁) e List.mem_cons_self
        rw [hsucc] at this
        cases this
      rw [List.countP_cons_of_pos hsucc, hnone]

end Logs

/-! ## The tables -/

section Tables

variable {env : Env} {faults : Nat → Fault} {a : ApprovalId} {t : Nat} {log : List Event} {db : Db} {o : Op}

/-- The payload of row `a` stays, and no row goes. -/
structure RowKept (a : ApprovalId) (db db' : Db) : Prop where
  length : db.approvals.length ≤ db'.approvals.length
  row : ∀ row, db.approvals[a]? = some row → ∃ row', db'.approvals[a]? = some row' ∧ row'.payload = row.payload

theorem RowKept.refl (db : Db) : RowKept a db db := ⟨Nat.le_refl _, fun row h => ⟨row, h, rfl⟩⟩

theorem RowKept.of_eq {db' : Db} (h : db'.approvals = db.approvals) : RowKept a db db' := by
  refine ⟨Nat.le_of_eq (congrArg List.length h.symm), fun row hrow => ⟨row, ?_, rfl⟩⟩
  rw [h]
  exact hrow

/-- An update of one row that keeps its payload, or is of another row. -/
theorem rowKept_update {b : ApprovalId} {f : ApprovalRow → ApprovalRow} (h : b = a → ∀ row, (f row).payload = row.payload) :
    RowKept a db (updateApproval b f db) := by
  refine ⟨Nat.le_of_eq (List.length_modify ..).symm, fun row hrow => ?_⟩
  unfold updateApproval
  by_cases hb : b = a
  · subst hb
    refine ⟨f row, ?_, h rfl row⟩
    rw [List.getElem?_modify_eq, hrow]
    rfl
  · exact ⟨row, by rw [List.getElem?_modify_ne _ _ hb, hrow], rfl⟩

theorem RowKept.marked {db' : Db} (h : RowKept a db db') (hm : IsMarked a db) : IsMarked a db' := by
  obtain ⟨row, hrow, hmark⟩ := hm
  obtain ⟨row', hrow', hpayload⟩ := h.row row hrow
  refine ⟨row', hrow', ?_⟩
  unfold ApprovalRow.isResumed ApprovalRow.payloadDict at hmark ⊢
  rwa [hpayload]

/-- Writes the payload of `a`. -/
def Op.writesPayload (a : ApprovalId) : Op → Bool
  | .setPayload b _ => b == a
  | _ => false

theorem dbExec_rowKept (h : o.writesPayload a = false) : RowKept a db (dbExec env log t o db).2 := by
  cases o with
  | insertApproval row =>
    refine ⟨?_, fun r hr => ⟨r, ?_, rfl⟩⟩
    · exact Nat.le_of_lt (by simp [dbExec])
    · exact (List.getElem?_append_left (List.getElem?_eq_some_iff.mp hr).1).trans hr
  | decidePending b st d r =>
    refine rowKept_update fun _ row => ?_
    split <;> rfl
  | commitDecision b st d r => exact rowKept_update fun _ row => rfl
  | setPayload b p =>
    refine rowKept_update fun hb => absurd hb ?_
    simpa [Op.writesPayload] using h
  | claimForResume c b now =>
    simp only [dbExec]
    split <;> exact .of_eq rfl
  | insertCheckpoint row =>
    simp only [dbExec]
    split <;> exact .of_eq rfl
  | getCheckpoint c =>
    simp only [dbExec]
    split <;> exact .of_eq rfl
  | markResumed c p res =>
    simp only [dbExec, withBound]
    split <;> exact .of_eq rfl
  | markCancelled c reason =>
    simp only [dbExec, withBound]
    split <;> exact .of_eq rfl
  | evaluate tool risk =>
    simp only [dbExec]
    split <;> exact .of_eq rfl
  | _ => exact .of_eq rfl

/-- With or without its fault, an operation leaves one of two tables. -/
theorem faultyDbExec_db : (faultyDbExec env faults log t o db).2 = db ∨
    (faultyDbExec env faults log t o db).2 = (dbExec env log t o db).2 := by
  unfold faultyDbExec
  split
  · split
    · exact .inr rfl
    · exact .inl rfl
    · exact .inr rfl
  · exact .inr rfl

theorem faulty_rowKept (h : o.writesPayload a = false) : RowKept a db (faultyDbExec env faults log t o db).2 := by
  rcases @faultyDbExec_db env faults t log db o with hdb | hdb
  · rw [hdb]
    exact .refl db
  · rw [hdb]
    exact dbExec_rowKept h

/-- A reading that was answered gives the row. -/
theorem faulty_getApproval {site : ReadSite} {row : ApprovalRow}
    (h : (faultyDbExec env faults log t (.getApproval site a) db).1 = .ok (some row)) : db.approvals[a]? = some row := by
  have hstore : (Op.getApproval site a).isStore = true := rfl
  unfold faultyDbExec at h
  rw [if_pos hstore] at h
  split at h
  · exact Except.ok.inj h
  · cases h
  · cases h

/-- A payload is written unless the store fails before. -/
theorem faulty_setPayload {p : Dict} (h : faults log.length ≠ .before) (ha : a < db.approvals.length)
    (hmark : (Dict.get p "resumed").truthy = true) :
    IsMarked a (faultyDbExec env faults log t (.setPayload a p) db).2 := by
  have hrow : IsMarked a (dbExec env log t (.setPayload a p) db).2 := by
    refine ⟨{ db.approvals[a] with payload := some p }, ?_, hmark⟩
    simp only [dbExec, updateApproval]
    rw [List.getElem?_modify_eq, List.getElem?_eq_getElem ha]
    rfl
  have hstore : (Op.setPayload a p).isStore = true := rfl
  unfold faultyDbExec
  rw [if_pos hstore]
  split
  · exact hrow
  · rename_i hbefore
    exact absurd hbefore h
  · exact hrow

theorem dbExec_report_ok (h : o.isReport = true) : ∃ v, (dbExec env log t o db).1 = .ok v := by
  cases o <;> first | exact ⟨_, rfl⟩ | cases h

theorem dbExec_store_ok (h : o.isStore = true) : ∃ v, (dbExec env log t o db).1 = .ok v := by
  cases o <;> first | exact ⟨_, rfl⟩ | cases h

/-- What the machine counts on. -/
theorem faulty_sure {s : ResumePhase} (hstore : s = .called true → o.isStore = true →
      faults log.length = .none ∨ (o.isSetPayload = true ∧ faults log.length = .after)) (h : s.sure o = true) :
    ∃ v, (faultyDbExec env faults log t o db).1 = .ok v := by
  unfold ResumePhase.sure at h
  rw [Bool.or_eq_true] at h
  unfold faultyDbExec
  rcases h with h | h
  · have hno : o.isStore = false := by cases o <;> first | rfl | cases h
    rw [hno, if_neg Bool.false_ne_true]
    exact dbExec_report_ok h
  · rw [Bool.and_eq_true, Bool.and_eq_true, beq_iff_eq, Bool.not_eq_true'] at h
    obtain ⟨⟨hs, hst⟩, hset⟩ := h
    rw [if_pos hst]
    rcases hstore hs hst with hnone | ⟨hyes, -⟩
    · rw [hnone]
      exact dbExec_store_ok hst
    · rw [hset] at hyes
      cases hyes

end Tables

/-! ## One step -/

/-- **The invariant.**  One thread at most is midway; after a success it is the thread that made it, or the mark is
written and nobody is midway. -/
structure ResumedOnce (a : ApprovalId) (c : Conf Op Ans PyExc World Dict) : Prop where
  alone : ∀ t u, midway a c t = true → midway a c u = true → t = u
  known : ∀ t, phaseOf a t c.world.log ≠ .idle → a < c.world.db.approvals.length
  marked : ∀ e ∈ c.world.log, approvedSuccess a e = true →
    (∃ t, phaseOf a t c.world.log = .called true) ∨ (IsMarked a c.world.db ∧ ∀ t, midway a c t = false)
  law : NoneAfterSuccess a c.world.log

section Step

variable {env : Env} {faults : Nat → Fault} {a : ApprovalId} {c : Conf Op Ans PyExc World Dict} {t u : Nat} {o : Op}
  {k : Except PyExc (Ans o) → Py Dict}

/-- What the operation is answered in `c`. -/
abbrev answerIn (env : Env) (faults : Nat → Fault) (c : Conf Op Ans PyExc World Dict) (t : Nat) (o : Op) :
    Except PyExc (Ans o) := (faultyDbExec env faults c.world.log t o c.world.db).1

theorem step_log (ht : c.threads t = .op o k) : (Conf.step (faultyExec env faults) c t).world.log =
    c.world.log ++ [⟨t, o, answerIn env faults c t o⟩] := by
  rw [Conf.step_of_op ht]
  rfl

theorem step_db (ht : c.threads t = .op o k) : (Conf.step (faultyExec env faults) c t).world.db =
    (faultyDbExec env faults c.world.log t o c.world.db).2 := by
  rw [Conf.step_of_op ht]
  rfl

theorem step_phase (ht : c.threads t = .op o k) : phaseOf a t (Conf.step (faultyExec env faults) c t).world.log =
    (phaseOf a t c.world.log).next a o (answerIn env faults c t o) := by
  rw [step_log ht, phaseOf_append, if_pos rfl]

theorem step_phase_ne (ht : c.threads t = .op o k) (hu : u ≠ t) :
    phaseOf a u (Conf.step (faultyExec env faults) c t).world.log = phaseOf a u c.world.log := by
  rw [step_log ht, phaseOf_append, if_neg fun h => hu h.symm]

theorem step_midway_ne (ht : c.threads t = .op o k) (hu : u ≠ t) :
    midway a (Conf.step (faultyExec env faults) c t) u = midway a c u := by
  have hnext : (Conf.step (faultyExec env faults) c t).next u = c.next u := by
    rw [Conf.step_of_op ht]
    unfold Conf.next
    simp only [Function.update_of_ne hu]
  unfold midway
  rw [step_phase_ne ht hu, hnext]

/-- A thread about to act is midway unless it is idle. -/
theorem midway_of_op (ht : c.threads t = .op o k) (h : phaseOf a t c.world.log ≠ .idle) : midway a c t = true := by
  have hnext : c.next t = some o := by simp only [Conf.next, ht]
  unfold midway
  rw [hnext, Bool.or_eq_true, Bool.and_eq_true, bne_iff_ne]
  exact .inr ⟨h, rfl⟩

theorem not_midway_of_idle (h : phaseOf a t c.world.log = .idle) : midway a c t = false := by
  unfold midway
  rw [h]
  rfl

theorem phase_of_midway (h : midway a c t = true) : phaseOf a t c.world.log ≠ .idle := by
  intro hidle
  rw [not_midway_of_idle hidle] at h
  cases h

theorem midway_of_called (h : phaseOf a t c.world.log = .called true) : midway a c t = true := by
  unfold midway
  rw [h]
  rfl

/-- A step that leaves the phases and the payload. -/
theorem ResumedOnce.quiet (h : ResumedOnce a c) (ht : c.threads t = .op o k)
    (hphase : (phaseOf a t c.world.log).next a o (answerIn env faults c t o) = phaseOf a t c.world.log)
    (hcall : o.isApprovedCall a = false) (hwrite : o.writesPayload a = false) :
    ResumedOnce a (Conf.step (faultyExec env faults) c t) := by
  have hrow : RowKept a c.world.db (Conf.step (faultyExec env faults) c t).world.db := by
    rw [step_db ht]
    exact faulty_rowKept hwrite
  have hsame : ∀ u, phaseOf a u (Conf.step (faultyExec env faults) c t).world.log = phaseOf a u c.world.log := by
    intro u
    by_cases hu : u = t
    · rw [hu, step_phase ht, hphase]
    · exact step_phase_ne ht hu
  have hmid : ∀ u, midway a (Conf.step (faultyExec env faults) c t) u = true → midway a c u = true := by
    intro u hu
    by_cases htu : u = t
    · subst htu
      refine midway_of_op ht ?_
      rw [← hsame u]
      exact phase_of_midway hu
    · rwa [step_midway_ne ht htu] at hu
  refine ⟨fun u v hu hv => h.alone u v (hmid u hu) (hmid v hv), fun u hu => ?_, fun e he hsucc => ?_, ?_⟩
  · rw [hsame u] at hu
    exact Nat.lt_of_lt_of_le (h.known u hu) hrow.length
  · rw [step_log ht] at he
    rcases List.mem_append.mp he with he | he
    · rcases h.marked e he hsucc with ⟨u, hu⟩ | ⟨hmark, hnone⟩
      · exact .inl ⟨u, (hsame u).trans hu⟩
      · refine .inr ⟨hrow.marked hmark, fun u => ?_⟩
        rw [Bool.eq_false_iff]
        intro hu
        have := hmid u hu
        rw [hnone u] at this
        cases this
    · rw [List.mem_singleton.mp he] at hsucc
      have := isApprovedCall_of_success hsucc
      rw [hcall] at this
      cases this
  · rw [step_log ht]
    refine h.law.snoc fun hyes => ?_
    rw [hcall] at hyes
    cases hyes

/-- Before a midway thread nothing was called successfully, unless by itself. -/
theorem ResumedOnce.unsuccessful (h : ResumedOnce a c) (ht : midway a c t = true)
    (hphase : phaseOf a t c.world.log ≠ .called true) : ∀ e ∈ c.world.log, approvedSuccess a e = false := by
  intro e he
  rw [Bool.eq_false_iff]
  intro hsucc
  rcases h.marked e he hsucc with ⟨u, hu⟩ | ⟨-, hnone⟩
  · obtain rfl := h.alone t u ht (midway_of_called hu)
    exact hphase hu
  · rw [hnone t] at ht
    cases ht

/-- **The check** passes: nothing was called successfully, and nobody else is midway. -/
theorem ResumedOnce.check (h : ResumedOnce a c) {k : Except PyExc (Option ApprovalRow) → Py Dict} {row : ApprovalRow}
    (ht : c.threads t = .op (.getApproval .resumeCheck a) k)
    (halone : ∀ e ∈ c.world.log, e.tid ≠ t → midway a c e.tid = false)
    (hidle : phaseOf a t c.world.log = .idle)
    (hanswer : answerIn env faults c t (.getApproval .resumeCheck a) = .ok (some row)) (hpass : row.passesCheck = true) :
    ResumedOnce a (Conf.step (faultyExec env faults) c t) := by
  have hrow : c.world.db.approvals[a]? = some row := faulty_getApproval hanswer
  have hothers : ∀ u, u ≠ t → midway a c u = false := by
    intro u hu
    by_cases hacts : ∃ e ∈ c.world.log, e.tid = u
    · obtain ⟨e, he, rfl⟩ := hacts
      exact halone e he hu
    · refine not_midway_of_idle (phaseOf_idle fun e he heq => hacts ⟨e, he, heq⟩)
  have hnone : ∀ u, midway a c u = false := by
    intro u
    by_cases hu : u = t
    · rw [hu]
      exact not_midway_of_idle hidle
    · exact hothers u hu
  have hfresh : ∀ e ∈ c.world.log, approvedSuccess a e = false := by
    intro e he
    rw [Bool.eq_false_iff]
    intro hsucc
    rcases h.marked e he hsucc with ⟨u, hu⟩ | ⟨⟨row', hrow', hmark⟩, -⟩
    · have := midway_of_called hu
      rw [hnone u] at this
      cases this
    · obtain rfl := Option.some.inj (hrow.symm.trans hrow')
      unfold ApprovalRow.passesCheck at hpass
      rw [hmark, Bool.not_true, Bool.and_false] at hpass
      cases hpass
  have hkept : RowKept a c.world.db (Conf.step (faultyExec env faults) c t).world.db := by
    rw [step_db ht]
    exact faulty_rowKept rfl
  refine ⟨fun u v hu hv => ?_, fun u hu => ?_, fun e he hsucc => ?_, ?_⟩
  · have honly : ∀ u, midway a (Conf.step (faultyExec env faults) c t) u = true → u = t := by
      intro u hu
      by_contra hne
      rw [step_midway_ne ht hne, hothers u hne] at hu
      cases hu
    rw [honly u hu, honly v hv]
  · exact Nat.lt_of_lt_of_le (List.getElem?_eq_some_iff.mp hrow).1 hkept.length
  · rw [step_log ht] at he
    rcases List.mem_append.mp he with he | he
    · rw [hfresh e he] at hsucc
      cases hsucc
    · rw [List.mem_singleton.mp he] at hsucc
      cases hsucc
  · rw [step_log ht]
    exact h.law.snoc nofun

/-- **The call** of a checked thread is the first successful one. -/
theorem ResumedOnce.call (h : ResumedOnce a c) {step tool args : PyVal}
    {k : Except PyExc ToolCallRecord → Py Dict} (ht : c.threads t = .op (.gatewayCall (.approved a step) tool args) k)
    (hchecked : phaseOf a t c.world.log = .checked) : ResumedOnce a (Conf.step (faultyExec env faults) c t) := by
  have hmid : midway a c t = true := midway_of_op ht (by rw [hchecked]; nofun)
  have hfresh := h.unsuccessful hmid (by rw [hchecked]; nofun)
  have hothers : ∀ u, u ≠ t → midway a c u = false := by
    intro u hu
    rw [Bool.eq_false_iff]
    exact fun hmid' => hu (h.alone u t hmid' hmid)
  have hkept : RowKept a c.world.db (Conf.step (faultyExec env faults) c t).world.db := by
    rw [step_db ht]
    exact faulty_rowKept rfl
  have hphase : phaseOf a t (Conf.step (faultyExec env faults) c t).world.log = _ := step_phase ht
  refine ⟨fun u v hu hv => ?_, fun u hu => ?_, fun e he hsucc => ?_, ?_⟩
  · have honly : ∀ u, midway a (Conf.step (faultyExec env faults) c t) u = true → u = t := by
      intro u hu
      by_contra hne
      rw [step_midway_ne ht hne, hothers u hne] at hu
      cases hu
    rw [honly u hu, honly v hv]
  · refine Nat.lt_of_lt_of_le (h.known t ?_) hkept.length
    rw [hchecked]
    nofun
  · rw [step_log ht] at he
    rcases List.mem_append.mp he with he | he
    · rw [hfresh e he] at hsucc
      cases hsucc
    · rw [List.mem_singleton.mp he] at hsucc
      unfold approvedSuccess at hsucc
      rw [Bool.and_eq_true] at hsucc
      refine .inl ⟨t, hphase.trans ?_⟩
      exact (if_pos rfl).trans (congrArg ResumePhase.called hsucc.2)
  · rw [step_log ht]
    exact h.law.snoc fun _ => hfresh

/-- **The writing of the payload**: after a success it writes the mark, and nobody is midway then. -/
theorem ResumedOnce.write (h : ResumedOnce a c) {p : Dict} {k : Except PyExc Unit → Py Dict}
    (ht : c.threads t = .op (.setPayload a p) k) (hphase : phaseOf a t c.world.log ≠ .idle)
    (hmark : phaseOf a t c.world.log = .called true →
      (Dict.get p "resumed").truthy = true ∧ faults c.world.log.length ≠ .before) :
    ResumedOnce a (Conf.step (faultyExec env faults) c t) := by
  have hmid : midway a c t = true := midway_of_op ht hphase
  have hidle : phaseOf a t (Conf.step (faultyExec env faults) c t).world.log = .idle := by
    rw [step_phase ht]
    exact if_pos rfl
  have hnone : ∀ u, midway a (Conf.step (faultyExec env faults) c t) u = false := by
    intro u
    by_cases hu : u = t
    · rw [hu]
      exact not_midway_of_idle hidle
    · rw [step_midway_ne ht hu, Bool.eq_false_iff]
      exact fun hmid' => hu (h.alone u t hmid' hmid)
  have hknown : a < c.world.db.approvals.length := h.known t hphase
  refine ⟨fun u v hu _ => ?_, fun u _ => ?_, fun e he hsucc => ?_, ?_⟩
  · rw [hnone u] at hu
    cases hu
  · rw [step_db ht]
    refine Nat.lt_of_lt_of_le hknown ?_
    rcases @faultyDbExec_db env faults t c.world.log c.world.db (.setPayload a p) with hdb | hdb
    · rw [hdb]
    · rw [hdb]
      exact Nat.le_of_eq (List.length_modify ..).symm
  · rw [step_log ht] at he
    rcases List.mem_append.mp he with he | he
    · refine .inr ⟨?_, hnone⟩
      rcases h.marked e he hsucc with ⟨u, hu⟩ | ⟨-, hquiet⟩
      · obtain rfl := h.alone t u hmid (midway_of_called hu)
        obtain ⟨hresumed, hfault⟩ := hmark hu
        rw [step_db ht]
        exact faulty_setPayload hfault hknown hresumed
      · rw [hquiet t] at hmid
        cases hmid
    · rw [List.mem_singleton.mp he] at hsucc
      cases hsucc
  · rw [step_log ht]
    exact h.law.snoc nofun

/-- **One step** that meets the conditions keeps the invariant. -/
theorem ResumedOnce.step (h : ResumedOnce a c) (ht : c.threads t = .op o k)
    (hmay : (phaseOf a t c.world.log).may a o) (halone : checksAlone a c t o) (hhold : storesHold faults a c t o) :
    ResumedOnce a (Conf.step (faultyExec env faults) c t) := by
  cases o with
  | getApproval site b =>
    cases site with
    | resumeCheck =>
      by_cases hb : b = a
      · subst hb
        have hidle : phaseOf b t c.world.log = .idle := hmay rfl
        rcases hanswer : answerIn env faults c t (.getApproval .resumeCheck b) with e | _ | row
        · refine h.quiet ht ?_ rfl rfl
          rw [hanswer]
          rfl
        · refine h.quiet ht ?_ rfl rfl
          rw [hanswer]
          rfl
        · by_cases hpass : row.passesCheck = true
          · exact h.check ht (halone (beq_self_eq_true b)) hidle hanswer hpass
          · refine h.quiet ht ?_ rfl rfl
            rw [hanswer]
            exact if_neg fun hp => hpass hp.2
      · refine h.quiet ht ?_ rfl rfl
        rcases answerIn env faults c t (.getApproval .resumeCheck b) with e | _ | row
        · rfl
        · rfl
        · exact if_neg fun hp => hb hp.1
    | _ => exact h.quiet ht rfl rfl rfl
  | gatewayCall site tool args =>
    cases site with
    | approved b step =>
      by_cases hb : b = a
      · subst hb
        exact h.call ht (hmay rfl)
      · refine h.quiet ht (if_neg hb) ?_ rfl
        exact beq_eq_false_iff_ne.mpr hb
    | _ => exact h.quiet ht rfl rfl rfl
  | setPayload b p =>
    by_cases hb : b = a
    · subst hb
      refine h.write ht (hmay rfl).1 fun hcalled => ⟨(hmay rfl).2 hcalled, ?_⟩
      rcases hhold hcalled rfl with hfault | ⟨-, hfault⟩ <;> rw [hfault] <;> nofun
    · exact h.quiet ht (if_neg hb) rfl (beq_eq_false_iff_ne.mpr hb)
  | _ => exact h.quiet ht rfl rfl rfl

end Step

/-! ## Every run -/

section Runs

variable {sv : Service} {db : Db} {reqs : Nat → Request} {sched : List Nat} {faults : Nat → Fault} {a : ApprovalId}

theorem resumedOnce_start : ResumedOnce a (start sv db reqs) := by
  have hidle : ∀ t, phaseOf a t (start sv db reqs).world.log = .idle := fun t => rfl
  refine ⟨fun t u ht => ?_, fun t ht => absurd (hidle t) ht, (fun e he => nomatch he), noneAfterSuccess_nil⟩
  rw [not_midway_of_idle (hidle t)] at ht
  cases ht

/-- **Runs that keep the conditions** call the approved tool no more after a success. -/
theorem resumedOnce_run (h : Conf.Meets (faultyExec sv.env faults)
      (fun c t o => checksAlone a c t o ∧ storesHold faults a c t o) (start sv db reqs) sched) :
    ResumedOnce a (Conf.run (faultyExec sv.env faults) (start sv db reqs) sched) := by
  let J : Conf Op Ans PyExc World Dict → (Nat → ResumePhase) → Prop := fun c st =>
    (∀ t, st t = phaseOf a t c.world.log) ∧ ResumedOnce a c
  have hstart : J (start sv db reqs) fun _ => .idle := ⟨fun _ => rfl, resumedOnce_start⟩
  have hconforms : (start sv db reqs).Conforms (resumeMachine a) (fun _ _ _ => True) fun _ => .idle :=
    fun t => request_starts (reqs t)
  refine (Conf.run_typestate (J := J) ?_ hstart hconforms h).elim fun st hst => hst.1.2
  rintro c st t o k ⟨hst, hJ⟩ - ht ⟨halone, hhold⟩ hmay
  rw [hst t] at hmay ⊢
  refine ⟨(phaseOf a t c.world.log).next a o (answerIn sv.env faults c t o), ⟨faulty_sure hhold, rfl⟩, fun u => ?_,
    hJ.step ht hmay halone hhold⟩
  by_cases hu : u = t
  · subst hu
    rw [Function.update_self, step_phase ht]
  · rw [Function.update_of_ne hu, step_phase_ne ht hu]
    exact hst u

end Runs

/-! ## Concurrent requests -/

instance (a : ApprovalId) (c : Conf Op Ans PyExc World Dict) (t : Nat) (o : Op) : Decidable (checksAlone a c t o) :=
  inferInstanceAs (Decidable (o.isCheck a = true → ∀ e ∈ c.world.log, e.tid ≠ t → midway a c e.tid = false))

theorem faultyExec_none {env : Env} : faultyExec env (fun _ => .none) = exec env := by
  have hdb : faultyDbExec env (fun _ => .none) = dbExec env := by
    funext log t o db
    unfold faultyDbExec
    exact ite_self _
  unfold faultyExec exec
  rw [hdb]

/-- **At most once under concurrency.**  Any requests, interleaved in any way: as long as the approval is checked
only while no other request is midway, the approved tool is called successfully at most once. -/
theorem resume_at_most_once (sv : Service) (db : Db) (reqs : Nat → Request) (sched : List Nat) (a : ApprovalId)
    (h : Conf.Meets (exec sv.env) (checksAlone a) (start sv db reqs) sched) :
    (sv.run (start sv db reqs) sched).world.log.countP (approvedSuccess a) ≤ 1 := by
  have hhold : Conf.Meets (exec sv.env) (storesHold (fun _ => .none) a) (start sv db reqs) sched :=
    Conf.meets_of_forall (fun _ _ _ _ _ => .inl rfl) _ _
  have hmeets := h.and hhold
  rw [← faultyExec_none] at hmeets
  have hrun := (resumedOnce_run hmeets).law.count
  rw [faultyExec_none] at hrun
  exact hrun

/-- An approved keyword approval of `refund`. -/
def keywordApproval : ApprovalRow :=
  ⟨"t", "refund", "call refund", .high, "write", "", .approved, some "admin", some "",
    some [("mode", .str "keyword"), ("tool_name", .str "refund"), ("arguments", .dict [])]⟩

def keywordDb : Db := ⟨[keywordApproval], fun _ => none, []⟩

theorem resume_at_most_once_in_turn :
    (demoService.run (start demoService keywordDb fun _ => .resume 0)
      (List.replicate 20 0 ++ List.replicate 20 1)).world.log.countP (approvedSuccess 0) ≤ 1 :=
  resume_at_most_once demoService keywordDb (fun _ => .resume 0) _ 0 (by decide +kernel)

/-- **Two resumes that both check first** both call the tool. -/
theorem resume_interleaved_twice :
    ¬ (demoService.run (start demoService keywordDb fun _ => .resume 0)
      ([0, 1] ++ List.replicate 4 0 ++ List.replicate 4 1)).world.log.countP (approvedSuccess 0) ≤ 1 := by
  decide +kernel

/-! ## Resumes in turn, with failing stores -/

/-- Every other resume that has begun is finished. -/
def inTurn (c : Conf Op Ans PyExc World Dict) (t : Nat) (_ : Op) : Prop :=
  ∀ e ∈ c.world.log, e.tid ≠ t → (c.next e.tid).isNone = true

/-- At a check no earlier resume stands where it ended after its success, without the mark. -/
def leftMarked (a : ApprovalId) (c : Conf Op Ans PyExc World Dict) (t : Nat) (o : Op) : Prop :=
  o.isCheck a = true → ∀ e ∈ c.world.log, e.tid ≠ t → phaseOf a e.tid c.world.log ≠ .called true

instance (c : Conf Op Ans PyExc World Dict) (t : Nat) (o : Op) : Decidable (inTurn c t o) :=
  inferInstanceAs (Decidable (∀ e ∈ c.world.log, e.tid ≠ t → (c.next e.tid).isNone = true))

instance (a : ApprovalId) (c : Conf Op Ans PyExc World Dict) (t : Nat) (o : Op) : Decidable (leftMarked a c t o) :=
  inferInstanceAs (Decidable (o.isCheck a = true →
    ∀ e ∈ c.world.log, e.tid ≠ t → phaseOf a e.tid c.world.log ≠ .called true))

instance (faults : Nat → Fault) (a : ApprovalId) (c : Conf Op Ans PyExc World Dict) (t : Nat) (o : Op) :
    Decidable (storesHold faults a c t o) :=
  inferInstanceAs (Decidable (phaseOf a t c.world.log = .called true → o.isStore = true →
    faults c.world.log.length = .none ∨ (o.isSetPayload = true ∧ faults c.world.log.length = .after)))

/-- **At most once under faults.**  Resumes of one approval, one after the other, with stores that may fail at any
operation: as long as no store fails between a successful call and its mark, and no resume ends there by an
exception of its own, nothing calls the approved tool again once it was called successfully. -/
theorem resume_once_under_faults (sv : Service) (db : Db) (faults : Nat → Fault) (a : ApprovalId) (sched : List Nat)
    (hturn : Conf.Meets (faultyExec sv.env faults) inTurn (start sv db fun _ => .resume a) sched)
    (h : Conf.Meets (faultyExec sv.env faults) (fun c t o => storesHold faults a c t o ∧ leftMarked a c t o)
      (start sv db fun _ => .resume a) sched) :
    NoneAfterSuccess a (Conf.run (faultyExec sv.env faults) (start sv db fun _ => .resume a) sched).world.log := by
  refine (resumedOnce_run ((hturn.and h).mono ?_)).law
  rintro c t o ⟨hturn, hhold, hmarked⟩
  refine ⟨fun hcheck e he hne => ?_, hhold⟩
  have hdone := hturn e he hne
  unfold midway
  rw [Bool.or_eq_false_iff, beq_eq_false_iff_ne, Bool.and_eq_false_iff]
  refine ⟨hmarked hcheck e he hne, .inr ?_⟩
  rw [Option.isNone_iff_eq_none.mp hdone]
  rfl

/-- The store fails at operation `n`. -/
def failsAt (n : Nat) : Nat → Fault := fun i => if i = n then .before else .none

theorem resume_once_under_faults_check :
    NoneAfterSuccess 0 (Conf.run (faultyExec demoService.env (failsAt 0))
      (start demoService keywordDb fun _ => .resume 0)
      (List.replicate 20 0 ++ List.replicate 20 1 ++ List.replicate 20 2)).world.log :=
  resume_once_under_faults demoService keywordDb (failsAt 0) 0 _ (by decide +kernel) (by decide +kernel)

/-- **The task store fails after the call**: the keyword resume reports a failed call, and the next one calls the
tool again. -/
theorem resume_repeats_after_fault :
    Conf.Meets (faultyExec demoService.env (failsAt 5)) inTurn (start demoService keywordDb fun _ => .resume 0)
        (List.replicate 20 0 ++ List.replicate 20 1) ∧
      ¬ NoneAfterSuccess 0 (Conf.run (faultyExec demoService.env (failsAt 5))
        (start demoService keywordDb fun _ => .resume 0) (List.replicate 20 0 ++ List.replicate 20 1)).world.log :=
  ⟨by decide +kernel, fun h => absurd h.count (by decide +kernel)⟩

end AgentHarness
