import AgentHarness.Requests

/-!
# CheckpointOnce — a graph checkpoint is claimed, and its tool called, at most once

Fix a checkpoint id `c`.  A thread is the *owner* of `c` from the insertion of its row to the
`markPendingInterrupt` of the same run, and it has *claimed* `c` from a successful claim to the
gateway call that follows.  `checkpointMachine c` permits the mark only to the owner and the call only
after a claim; every request keeps to it, whatever its payload says.

The invariant `Once` ties these phases to the table: while there is an owner the row has no approval,
so it cannot be claimed; after a claim there is no owner, so nothing writes `interrupted` again.
-/

namespace AgentHarness

open Lib Py

/-- Where a thread stands with respect to one checkpoint. -/
inductive Phase where
  | idle
  | owner
  | claimed
  deriving DecidableEq

/-- The bound parameter `v` names the checkpoint `c`. -/
def names (c : String) (v : PyVal) : Bool :=
  match bindText v with
  | .ok (some s) => s == c
  | _ => false

/-- The answer of a claim that changed a row. -/
def claimed? : Except PyExc Nat → Bool
  | .ok n => n ≠ 0
  | .error _ => false

/-- The phase after an answered operation. -/
def Phase.next (c : String) (s : Phase) : (o : Op) → Except PyExc (Ans o) → Phase
  | .insertCheckpoint row, .ok _ => if row.checkpointId = c then .owner else s
  | .markPendingInterrupt c' _ _ _, _ => if c' = c then .idle else s
  | .claimForResume v _ _, r => if names c v && claimed? r then .claimed else s
  | .gatewayCall (.graphResume _ v) _ _, _ => if names c v then .idle else s
  | _, _ => s

/-- What a phase permits. -/
def Phase.may (c : String) (s : Phase) : Op → Prop
  | .markPendingInterrupt c' _ _ _ => c' = c → s = .owner
  | .gatewayCall (.graphResume _ v) _ _ => names c v = true → s = .claimed
  | .insertCheckpoint row => FreshCheckpoint row
  | _ => True

def checkpointMachine (c : String) : Machine Op Ans PyExc Phase where
  may := Phase.may c
  step s o r s' := s' = s.next c o r

/-! ## Every request keeps to the machine -/

section Conformance

variable {c : String} {env : Env} {a : ApprovalId}

/-- Permitted in every phase. -/
def FreeOp (c : String) (o : Op) : Prop := ∀ s : Phase, s.may c o

/-- Permitted in every phase, and changing none. -/
def SilentOp (c : String) (o : Op) : Prop := ∀ (s : Phase) (r : Except PyExc (Ans o)),
  s.may c o ∧ s.next c o r = s

theorem wp_silent {α : Type} {p : Py α} {s : Phase} (h : p.Uses (SilentOp c)) :
    wp (checkpointMachine c) p (fun _ s' => s' = s) s := by
  refine wp_of_keeps (fun o ho s₁ hs₁ => ⟨?_, fun r s' hs' => ?_⟩) h rfl
  · exact (ho s₁ (.error .assertionError)).1
  · subst hs₁
    have hstep : s' = s₁.next c o r := hs'
    rw [hstep, (ho s₁ r).2]

theorem safe_of_free {α : Type} {p : Py α} (h : p.Uses (FreeOp c)) : (checkpointMachine c).Safe p :=
  .of_uses (fun _ ho => ho) h

theorem claimForResume_spec {v : PyVal} (s : Phase) :
    wp (checkpointMachine c) (claimForResume v a)
      (fun r s' => ∀ row, r = .ok (some row) → names c v = true → s' = .claimed) s := by
  unfold claimForResume
  refine wp_bind.mpr (wp_call.mpr ⟨trivial, ?_⟩)
  rintro (e | t) s₁ h₁
  · intro row h
    cases h
  refine wp_bind.mpr (wp_call.mpr ⟨trivial, ?_⟩)
  rintro (e | n) s₂ h₂
  · intro row h
    cases h
  dsimp only
  split
  · intro row h
    cases h
  · rename_i hn
    refine wp_call.mpr ⟨trivial, fun r s₃ h₃ row _ hc => ?_⟩
    have hs₂ : s₂ = s₁.next c (.claimForResume v a t) (.ok n) := h₂
    have hs₃ : s₃ = s₂ := h₃
    have hn : n ≠ 0 := fun h0 => hn (h0 ▸ Nat.zero_ne_one)
    rw [hs₃, hs₂]
    simp [Phase.next, hc, claimed?, hn]

theorem graphRecord_safe {taskId : String} {v tool : PyVal} {result : Dict} :
    (checkpointMachine c).Safe (GraphResumeAdapter.record a taskId v tool result) := by
  unfold GraphResumeAdapter.record markResumed
  refine .bind (safe_of_free (updateTaskStatus_uses (fun _ => trivial) fun _ _ => trivial)) fun _ => ?_
  refine .bind (safe_of_free ?_) fun _ => ?_
  · exact Prog.uses_call_bind.mpr ⟨fun _ => trivial, fun _ => Prog.uses_call.mpr fun _ => trivial⟩
  refine .bind (safe_of_free (updatePayload_uses (fun _ => trivial) fun _ _ => trivial)) fun _ => ?_
  refine .bind (safe_of_free (recordTrace_uses fun _ => trivial)) fun _ => ?_
  exact .bind (safe_of_free (recordAudit_uses fun _ => trivial)) fun _ => .pure _

/-- After a claim the tool may be called. -/
theorem resumeClaimed_spec {approval : ApprovalRow} {v : PyVal} {row : CheckpointRow} {s : Phase}
    (hs : names c v = true → s = .claimed) :
    wp (checkpointMachine c) (GraphResumeAdapter.resumeClaimed a approval v row)
      (fun _ _ => True) s := by
  unfold GraphResumeAdapter.resumeClaimed
  refine wp_seq (wp_silent (Prog.uses_ofExcept _)) ?_ fun _ _ _ => trivial
  rintro tool _ rfl
  refine wp_seq (wp_silent (Prog.uses_ofExcept _)) ?_ fun _ _ _ => trivial
  rintro args s rfl
  refine wp_seq (wp_silent (recordTrace_uses fun _ _ => ⟨trivial, rfl⟩)) ?_ fun _ _ _ => trivial
  rintro _ s rfl
  refine wp_seq (R := fun _ _ => True) ?_ (fun _ _ _ => graphRecord_safe _) fun _ _ _ => trivial
  unfold GraphResumeAdapter.callTool
  refine wp_try (R := fun _ _ => True) ?_ (fun _ _ _ => trivial) fun _ _ _ => trivial
  exact wp_bind.mpr (wp_call.mpr ⟨hs, fun r _ _ => by cases r <;> trivial⟩)

theorem graphResume_safe {approval : ApprovalRow} :
    (checkpointMachine c).Safe (GraphResumeAdapter.resume a approval) := by
  unfold GraphResumeAdapter.resume
  dsimp only
  split
  · exact .pure _
  split
  · exact .pure _
  split
  · exact .pure _
  intro s
  refine wp_seq (claimForResume_spec s) (fun row s' h => ?_) fun _ _ _ => trivial
  cases row with
  | none => exact safe_of_free (GraphResumeAdapter.handleClaimFailed_uses fun _ => trivial) s'
  | some row => exact resumeClaimed_spec (h row rfl)

/-- A resume outside the graph adapter makes no graph call. -/
theorem resumeChecked_safe {approval : ApprovalRow} {payload : Dict} {mode : PyVal} :
    (checkpointMachine c).Safe
      (ApprovalResumeService.resumeChecked env a approval payload mode) :=
  safe_of_free ((ApprovalResumeService.resumeChecked_uses ..).mono fun o ho s => by
    cases o with
    | gatewayCall site tool args =>
      cases site with
      | graphResume b v => exact ho.elim
      | _ => trivial
    | insertCheckpoint row => exact ho.elim
    | markPendingInterrupt c' b p g => exact ho.elim
    | _ => trivial)

theorem resume_safe : (checkpointMachine c).Safe (ApprovalResumeService.resume env a) := by
  unfold ApprovalResumeService.resume
  refine .bind (safe_of_free (Prog.uses_call.mpr fun _ => trivial)) fun row => ?_
  split
  · exact .pure _
  split
  · exact .pure _
  split
  · exact .pure _
  unfold ApprovalResumeService.resumeApproved
  refine .bind (safe_of_free (traceTask_uses fun _ => trivial)) fun _ => ?_
  refine .bind (safe_of_free (recordAudit_uses fun _ => trivial)) fun _ => ?_
  split
  · split
    · exact .pure _
    · exact graphResume_safe
  · exact resumeChecked_safe

theorem doResume_safe : (checkpointMachine c).Safe (doResume env a) := by
  unfold doResume
  refine .tryCatch ?_ fun _ => .pure _
  unfold resumeUnblocked
  refine .bind (safe_of_free (Prog.uses_call.mpr fun _ => trivial)) fun row => ?_
  split
  · exact .pure _
  dsimp only
  split
  · refine .bind (safe_of_free (recordTrace_uses fun _ => trivial)) fun _ => ?_
    exact .bind (safe_of_free (recordAudit_uses fun _ => trivial)) fun _ => .pure _
  · exact resume_safe

theorem autoResume_safe {req : DecideRequest} :
    (checkpointMachine c).Safe (autoResume env a req) := by
  unfold autoResume
  split
  · exact .bind doResume_safe fun _ => .pure _
  · exact .pure _

theorem decideApproval_safe {backend : Backend} {approved : Bool} {by' reason : String} :
    (checkpointMachine c).Safe (decideApproval backend a approved by' reason) :=
  safe_of_free (decideApproval_uses.mono fun o ho s => by
    cases o with
    | gatewayCall site tool args => exact ho.elim
    | insertCheckpoint row => exact ho.elim
    | markPendingInterrupt c' b p g => exact ho.elim
    | _ => trivial)

theorem approve_safe {backend : Backend} {req : DecideRequest} :
    (checkpointMachine c).Safe (approve env backend a req) := by
  unfold approve
  refine .bind (safe_of_free (Prog.uses_call.mpr fun _ => trivial)) fun row => ?_
  split
  · exact .pure _
  refine .bind (safe_of_free (checkApproveReason_uses (fun _ _ _ _ => trivial) fun _ _ => trivial))
    fun _ => ?_
  split
  · exact .pure _
  split
  · exact .bind autoResume_safe fun _ => .pure _
  unfold approvePending
  refine .bind decideApproval_safe fun decided => .bind (.ofExcept _) fun result => ?_
  split
  · exact .bind (safe_of_free (recordTrace_uses fun _ => trivial)) fun _ => .pure _
  · refine .bind (safe_of_free (recordDecision_uses (fun _ _ _ _ => trivial) fun _ _ => trivial))
      fun _ => ?_
    exact .bind autoResume_safe fun _ => .pure _

theorem reject_safe {backend : Backend} {req : DecideRequest} :
    (checkpointMachine c).Safe (reject env backend a req) :=
  safe_of_free (reject_uses.mono fun o ho s => by
    cases o with
    | gatewayCall site tool args => simp [RejectOp, DecideOp] at ho
    | insertCheckpoint row => simp [RejectOp, DecideOp] at ho
    | markPendingInterrupt c' b p g => simp [RejectOp, DecideOp] at ho
    | _ => trivial)

theorem manualResumeApproval_safe : (checkpointMachine c).Safe (manualResumeApproval env a) := by
  unfold manualResumeApproval
  refine .bind (safe_of_free (Prog.uses_call.mpr fun _ => trivial)) fun row => ?_
  split
  · exact .pure _
  split
  · exact .pure _
  split
  · exact .pure _
  · exact .bind doResume_safe fun _ => .pure _

/-! ### The graph run -/

open GraphRuntimeAdapter

/-- The run that inserts the row of `c` is its owner afterwards. -/
theorem checkpoint_spec {state : GraphRuntimeState} {stage : String} {status : CheckpointStatus}
    (hst : status ∈ [.running, .completed, .failed, .blocked, .interrupted]) (s : Phase) :
    wp (checkpointMachine c) (checkpoint env state stage status)
      (fun r s' => ∀ x, r = .ok x → x.1 = c → s' = .owner) s := by
  unfold checkpoint createCheckpoint
  refine wp_seq (wp_silent (Prog.uses_call.mpr fun _ _ => ⟨trivial, rfl⟩)) ?_ (by simp)
  rintro hex s rfl
  refine wp_seq (wp_silent (Prog.uses_ofExcept _)) ?_ (by simp)
  rintro runId s rfl
  refine wp_seq (R := fun r s' => ∀ row, r = .ok row →
    s!"graph-{state.taskId}-{stage}-{hex}" = c → s' = .owner) ?_ ?_ (by simp)
  · refine wp_bind.mpr (wp_call.mpr ⟨⟨rfl, rfl, hst⟩, ?_⟩)
    rintro (e | ⟨⟩) s₁ h₁
    · simp
    have hs₁ : s₁ = s.next c (.insertCheckpoint _) (.ok ()) := h₁
    refine wp_seq (wp_silent (Prog.uses_call.mpr fun _ _ => ⟨trivial, rfl⟩)) ?_ (by simp)
    rintro loaded s₂ rfl
    cases loaded with
    | none => simp
    | some row =>
      intro row' _ hc
      rw [hs₁]
      simp only [Phase.next]
      exact if_pos hc
  · intro row s₁ h
    refine wp_seq (wp_silent (recordTrace_uses fun _ _ => ⟨trivial, rfl⟩)) ?_ (by simp)
    rintro _ s₂ rfl x hx hc
    cases hx
    exact h row rfl hc

theorem checkpoint_safe {state : GraphRuntimeState} {stage : String} {status : CheckpointStatus}
    (hst : status ∈ [.running, .completed, .failed, .blocked, .interrupted]) :
    (checkpointMachine c).Safe (checkpoint env state stage status) :=
  fun s => wp_mono (checkpoint_spec hst s) fun _ _ _ => trivial

theorem fail_safe {state : GraphRuntimeState} {exc : PyExc} :
    (checkpointMachine c).Safe (fail env state exc) :=
  .bind (checkpoint_safe (by decide)) fun _ => .pure _

/-- A part of the run that ends in a state allowing its continuation. -/
theorem wp_guarded {α : Type} {state : GraphRuntimeState} {p : Py α} {k : α → Py Dict} {s : Phase}
    {R : Except PyExc α → Phase → Prop} (hp : wp (checkpointMachine c) p R s)
    (hk : ∀ a s', R (.ok a) s' → wp (checkpointMachine c) (k a) (fun _ _ => True) s') :
    wp (checkpointMachine c) (guarded env state p k) (fun _ _ => True) s := by
  unfold guarded
  refine wp_seq (R := fun r s' => ∀ o, r = .ok o → match o with
    | .ok a => R (.ok a) s'
    | .error _ => True) ?_ ?_ fun _ _ _ => trivial
  · refine wp_try (wp_seq hp (fun a s' h => ?_) fun e s' _ => ?_)
      (R := fun r s' => ∀ o, r = .ok o → match o with
        | .ok a => R (.ok a) s'
        | .error _ => True) (fun a s' h => h) fun e s' _ => ?_
    · intro o ho
      cases ho
      exact h
    · simp
    · intro o ho
      cases ho
      trivial
  · rintro (e | a) s' h
    · exact fail_safe s'
    · exact hk a s' (h _ rfl)

theorem guarded_safe {α : Type} {state : GraphRuntimeState} {p : Py α} {k : α → Py Dict}
    (hp : (checkpointMachine c).Safe p) (hk : ∀ a, (checkpointMachine c).Safe (k a)) :
    (checkpointMachine c).Safe (guarded env state p k) :=
  fun s => wp_guarded (hp s) fun a s' _ => hk a s'

theorem respond_safe {state : GraphRuntimeState} {response : Dict} {error : Option String}
    {status : CheckpointStatus} (hst : status ∈ [.running, .completed, .failed, .blocked, .interrupted]) :
    (checkpointMachine c).Safe (respond env state response error status) :=
  guarded_safe (checkpoint_safe hst) fun _ => .pure _

/-- Between the creation of the checkpoint and its mark nothing takes the ownership away. -/
theorem interrupt_safe {state : GraphRuntimeState} {toolName : String} {spec : ToolSpec}
    {decision : Decision} : (checkpointMachine c).Safe (interrupt env state toolName spec decision) := by
  intro s
  unfold interrupt
  refine wp_guarded (checkpoint_spec (by split <;> decide) s) fun x s₁ h₁ => ?_
  refine wp_guarded (R := fun _ _ => True) ?_ fun _ _ _ => trivial
  refine wp_seq (wp_silent (Prog.uses_call.mpr fun _ _ => ⟨trivial, rfl⟩)) ?_ fun _ _ _ => trivial
  rintro createdAt s₁ rfl
  dsimp only
  split
  · trivial
  refine wp_seq (wp_silent (Prog.uses_call.mpr fun _ _ => ⟨trivial, rfl⟩)) ?_ fun _ _ _ => trivial
  rintro approval s₂ rfl
  refine wp_seq (R := fun _ _ => True) ?_ (fun _ _ _ => ?_) fun _ _ _ => trivial
  · refine wp_bind.mpr (wp_call.mpr ⟨fun hc => h₁ x rfl hc, ?_⟩)
    rintro (e | ⟨⟩) s₃ _
    · trivial
    · exact wp_call.mpr ⟨trivial, fun _ _ _ => trivial⟩
  · exact wp_seq (R := fun _ _ => True) (safe_of_free (recordAudit_uses fun _ => trivial) _)
      (fun _ _ _ => trivial) fun _ _ _ => trivial

theorem callTool_safe {planner : Planner} {state : GraphRuntimeState} {toolName : String} :
    (checkpointMachine c).Safe (callTool env planner state toolName) := by
  unfold callTool
  refine guarded_safe ?_ fun x => ?_
  · exact .bind (safe_of_free (Prog.uses_call.mpr fun _ => trivial)) fun r =>
      .bind (.ofExcept _) fun _ => .pure _
  dsimp only
  refine guarded_safe (checkpoint_safe (by decide)) fun _ => ?_
  refine guarded_safe (checkpoint_safe (by decide)) fun _ => ?_
  exact respond_safe (by split <;> decide)

theorem runKeyword_safe {planner : Planner} {taskId query : String} :
    (checkpointMachine c).Safe (runKeyword env planner taskId query) := by
  unfold runKeyword
  dsimp only
  refine guarded_safe (checkpoint_safe (by decide)) fun _ => ?_
  refine guarded_safe (checkpoint_safe (by decide)) fun _ => ?_
  unfold execute
  split
  · exact respond_safe (by decide)
  split
  · exact respond_safe (by decide)
  refine guarded_safe (safe_of_free (Prog.uses_call.mpr fun _ => trivial)) fun spec => ?_
  split
  · exact respond_safe (by decide)
  refine guarded_safe (safe_of_free (Prog.uses_call.mpr fun _ => trivial)) fun decision => ?_
  split
  · exact interrupt_safe
  · exact callTool_safe

theorem request_safe {sv : Service} (r : Request) : (checkpointMachine c).Safe (r.code sv) := by
  cases r with
  | runKeyword taskId query => exact runKeyword_safe
  | approve a req => exact approve_safe
  | reject a req => exact reject_safe
  | resume a => exact resume_safe
  | manualResume a => exact manualResumeApproval_safe
  | expireOld now =>
    exact .bind (safe_of_free (Prog.uses_call.mpr fun _ => trivial)) fun _ => .pure _

end Conformance

/-! ## The invariant -/

/-- The rows of the checkpoint `c`. -/
def rowsOf (c : String) (db : Db) : List CheckpointRow := db.checkpoints.filter (hasId c)

def isClaim (c : String) (e : Event) : Bool :=
  match e.op, e.ans with
  | .claimForResume v _ _, r => names c v && claimed? r
  | _, _ => false

def isGraphCall (c : String) (e : Event) : Bool :=
  match e.op with
  | .gatewayCall (.graphResume _ v) _ _ => names c v
  | _ => false

/-- How often `claim_for_resume` succeeded for `c`. -/
def claims (c : String) (log : List Event) : Nat := log.countP (isClaim c)

/-- How often the graph adapter called the gateway for `c`. -/
def graphCalls (c : String) (log : List Event) : Nat := log.countP (isGraphCall c)

/-- The phases of the threads, the table and the log agree. -/
structure Once (c : String) (conf : Conf Op Ans PyExc World Dict) (st : Nat → Phase) : Prop where
  rows : (rowsOf c conf.world.db).length ≤ 1
  owned : ∀ t, st t = .owner →
    (∃ r, rowsOf c conf.world.db = [r] ∧ r.approvalId = none) ∧ ∀ u, st u = .owner → u = t
  claimed : ∀ t, st t = .claimed →
    claims c conf.world.log = 1 ∧ graphCalls c conf.world.log = 0 ∧ ∀ u, st u = .claimed → u = t
  once : claims c conf.world.log = 0 ∨ claims c conf.world.log = 1 ∧ (∀ t, st t ≠ .owner) ∧
    ∃ r, rowsOf c conf.world.db = [r] ∧ r.status ≠ .interrupted
  calls : graphCalls c conf.world.log ≤ claims c conf.world.log

section Rows

variable {c : String} {db : Db} {p : CheckpointRow → Bool} {f : CheckpointRow → CheckpointRow}

theorem rowsOf_update (hf : ∀ r, (f r).checkpointId = r.checkpointId) :
    rowsOf c (updateCheckpoints p f db) = (rowsOf c db).map fun r => if p r then f r else r := by
  unfold rowsOf updateCheckpoints
  rw [List.filter_map]
  congr 2
  funext r
  simp only [Function.comp, hasId]
  split
  · rw [hf]
  · rfl

/-- A write that selects no row of `c` leaves the rows of `c`. -/
theorem rowsOf_update_other (hf : ∀ r, (f r).checkpointId = r.checkpointId)
    (hp : ∀ r, hasId c r = true → p r = false) : rowsOf c (updateCheckpoints p f db) = rowsOf c db := by
  rw [rowsOf_update hf]
  conv_rhs => rw [← List.map_id (rowsOf c db)]
  refine List.map_congr_left fun r hr => ?_
  rw [hp r (List.mem_filter.mp hr).2]
  rfl

/-- How a harmless step changes the rows of `c`: none becomes `interrupted`, none gets an approval. -/
def RowsKept (c : String) (db db' : Db) : Prop :=
  ∃ g : CheckpointRow → CheckpointRow, rowsOf c db' = (rowsOf c db).map g ∧
    ∀ r, (g r).approvalId = r.approvalId ∧ (r.status ≠ .interrupted → (g r).status ≠ .interrupted)

theorem RowsKept.of_eq {db' : Db} (h : rowsOf c db' = rowsOf c db) : RowsKept c db db' :=
  ⟨id, by rw [h, List.map_id], fun _ => ⟨rfl, id⟩⟩

theorem RowsKept.of_update (hf : ∀ r, (f r).checkpointId = r.checkpointId ∧
    (f r).approvalId = r.approvalId ∧ (f r).status ≠ .interrupted) :
    RowsKept c db (updateCheckpoints p f db) := by
  refine ⟨_, rowsOf_update fun r => (hf r).1, fun r => ?_⟩
  split
  · exact ⟨(hf r).2.1, fun _ => (hf r).2.2⟩
  · exact ⟨rfl, id⟩

theorem rowsOf_insert {row : CheckpointRow} (h : row.checkpointId ≠ c) :
    rowsOf c { db with checkpoints := db.checkpoints ++ [row] } = rowsOf c db := by
  simp [rowsOf, hasId, h]

/-- The row of `c` that a claim changes. -/
theorem claim_row {a : ApprovalId} {now : Nat} (hlen : (rowsOf c db).length ≤ 1)
    (h : db.checkpoints.countP (claimable c a now) ≠ 0) :
    ∃ r, rowsOf c db = [r] ∧ claimable c a now r = true := by
  obtain ⟨r, hr, hcl⟩ := List.countP_pos_iff.mp (Nat.pos_of_ne_zero h)
  have hid : hasId c r = true := by
    simp only [claimable, Bool.and_eq_true] at hcl
    exact hcl.1.1.1.1
  have hmem : r ∈ rowsOf c db := List.mem_filter.mpr ⟨hr, hid⟩
  cases hrows : rowsOf c db with
  | nil =>
    rw [hrows] at hmem
    cases hmem
  | cons r' l =>
    rw [hrows] at hlen hmem
    have hl : l = [] := by
      simp only [List.length_cons] at hlen
      exact List.length_eq_zero_iff.mp (by omega)
    subst hl
    rw [List.mem_singleton.mp hmem] at hcl
    exact ⟨r', rfl, hcl⟩

end Rows

section Step

variable {c : String} {env : Env} {conf : Conf Op Ans PyExc World Dict} {st : Nat → Phase} {t : Nat}
  {o : Op} {k : Except PyExc (Ans o) → Py Dict}

/-- The event a step appends. -/
def stepEvent (env : Env) (conf : Conf Op Ans PyExc World Dict) (t : Nat) (o : Op) : Event :=
  ⟨t, o, (dbExec env conf.world.log t o conf.world.db).1⟩

theorem step_world (ht : conf.threads t = .op o k) :
    (conf.step (exec env) t).world =
      ⟨(dbExec env conf.world.log t o conf.world.db).2, conf.world.log ++ [stepEvent env conf t o]⟩ := by
  rw [Conf.step_of_op ht]
  rfl

theorem claims_snoc (log : List Event) (e : Event) :
    claims c (log ++ [e]) = claims c log + if isClaim c e then 1 else 0 := by
  simp [claims, List.countP_append, List.countP_cons]

theorem graphCalls_snoc (log : List Event) (e : Event) :
    graphCalls c (log ++ [e]) = graphCalls c log + if isGraphCall c e then 1 else 0 := by
  simp [graphCalls, List.countP_append, List.countP_cons]

/-- A step that leaves the phase of its thread, makes no claim and no call. -/
theorem Once.quiet (h : Once c conf st) (ht : conf.threads t = .op o k)
    (hphase : (st t).next c o (dbExec env conf.world.log t o conf.world.db).1 = st t)
    (hclaim : isClaim c (stepEvent env conf t o) = false)
    (hcall : isGraphCall c (stepEvent env conf t o) = false)
    (hrows : RowsKept c conf.world.db (dbExec env conf.world.log t o conf.world.db).2) :
    Once c (conf.step (exec env) t)
      (Function.update st t ((st t).next c o (dbExec env conf.world.log t o conf.world.db).1)) := by
  obtain ⟨g, hg, hgr⟩ := hrows
  rw [hphase, Function.update_eq_self]
  refine ⟨?_, fun u hu => ?_, fun u hu => ?_, ?_, ?_⟩
  · rw [step_world ht]
    simpa only [hg, List.length_map] using h.rows
  · obtain ⟨⟨r, hr, happ⟩, huniq⟩ := h.owned u hu
    refine ⟨⟨g r, ?_, (hgr r).1.trans happ⟩, huniq⟩
    rw [step_world ht]
    simp only [hg, hr, List.map_cons, List.map_nil]
  · obtain ⟨h₁, h₂, huniq⟩ := h.claimed u hu
    rw [step_world ht]
    refine ⟨?_, ?_, huniq⟩
    · rw [claims_snoc, hclaim, h₁]
      rfl
    · rw [graphCalls_snoc, hcall, h₂]
      rfl
  · rw [step_world ht]
    rcases h.once with h0 | ⟨h1, hno, r, hr, hst⟩
    · exact .inl (by rw [claims_snoc, hclaim, h0]; rfl)
    · refine .inr ⟨by rw [claims_snoc, hclaim, h1]; rfl, hno, g r, ?_, (hgr r).2 hst⟩
      simp only [hg, hr, List.map_cons, List.map_nil]
  · rw [step_world ht]
    rw [claims_snoc, graphCalls_snoc, hclaim, hcall]
    exact h.calls

/-- The insertion of the row makes its thread the owner. -/
theorem Once.inserted {row : CheckpointRow} {k : Except PyExc Unit → Py Dict} (h : Once c conf st)
    (ht : conf.threads t = .op (.insertCheckpoint row) k) (hrow : FreshCheckpoint row)
    (hid : row.checkpointId = c)
    (hnew : conf.world.db.checkpoints.any (hasId row.checkpointId) = false) :
    Once c (conf.step (exec env) t) (Function.update st t .owner) := by
  have hnone : rowsOf c conf.world.db = [] := by
    refine List.filter_eq_nil_iff.mpr fun r hr hc => ?_
    have hany := List.any_eq_false.mp hnew r hr
    exact hany (by rw [hid]; exact hc)
  have hzero : claims c conf.world.log = 0 := by
    rcases h.once with h0 | ⟨-, -, r, hr, -⟩
    · exact h0
    · rw [hnone] at hr
      cases hr
  have hcalls : graphCalls c conf.world.log = 0 := Nat.le_zero.mp (hzero ▸ h.calls)
  have hnoClaim : ∀ u, st u ≠ .claimed := fun u hu => by
    have := (h.claimed u hu).1
    omega
  have hnoOwner : ∀ u, st u ≠ .owner := fun u hu => by
    obtain ⟨⟨r, hr, -⟩, -⟩ := h.owned u hu
    rw [hnone] at hr
    cases hr
  have hw : (conf.step (exec env) t).world = ⟨{ conf.world.db with
      checkpoints := conf.world.db.checkpoints ++ [row] }, conf.world.log ++
        [stepEvent env conf t (.insertCheckpoint row)]⟩ := by
    rw [step_world ht]
    simp only [dbExec, hnew, Bool.false_eq_true, if_false]
  have hrows : rowsOf c (conf.step (exec env) t).world.db = [row] := by
    rw [hw]
    unfold rowsOf at hnone ⊢
    rw [List.filter_append, hnone]
    simp [hasId, hid]
  have hclaims : claims c (conf.step (exec env) t).world.log = 0 := by
    rw [hw]
    simp only [claims_snoc, hzero]
    rfl
  refine ⟨by rw [hrows]; simp, fun u hu => ?_, fun u hu => ?_, .inl hclaims, ?_⟩
  · refine ⟨⟨row, hrows, hrow.noApproval⟩, fun v hv => ?_⟩
    by_cases hvt : v = t
    · by_cases hut : u = t
      · rw [hvt, hut]
      · rw [Function.update_of_ne hut] at hu
        exact absurd hu (hnoOwner u)
    · rw [Function.update_of_ne hvt] at hv
      exact absurd hv (hnoOwner v)
  · by_cases hut : u = t
    · rw [hut, Function.update_self] at hu
      cases hu
    · rw [Function.update_of_ne hut] at hu
      exact absurd hu (hnoClaim u)
  · rw [hclaims, hw]
    simp only [graphCalls_snoc, hcalls]
    exact Nat.le_refl 0

/-- The mark by the owner. -/
theorem Once.marked {a : ApprovalId} {p g : Dict} {k : Except PyExc Unit → Py Dict}
    (h : Once c conf st) (ht : conf.threads t = .op (.markPendingInterrupt c a p g) k)
    (hown : st t = .owner) :
    Once c (conf.step (exec env) t) (Function.update st t .idle) := by
  obtain ⟨⟨r, hr, -⟩, huniq⟩ := h.owned t hown
  have hzero : claims c conf.world.log = 0 := by
    rcases h.once with h0 | ⟨-, hno, -⟩
    · exact h0
    · exact absurd hown (hno t)
  have hcalls : graphCalls c conf.world.log = 0 := Nat.le_zero.mp (hzero ▸ h.calls)
  have hnoOwner : ∀ u, Function.update st t .idle u ≠ .owner := fun u hu => by
    by_cases hut : u = t
    · rw [hut, Function.update_self] at hu
      cases hu
    · rw [Function.update_of_ne hut] at hu
      exact hut (huniq u hu)
  have hnoClaim : ∀ u, Function.update st t .idle u ≠ .claimed := fun u hu => by
    by_cases hut : u = t
    · rw [hut, Function.update_self] at hu
      cases hu
    · rw [Function.update_of_ne hut] at hu
      have := (h.claimed u hu).1
      omega
  have hrows : (rowsOf c (conf.step (exec env) t).world.db).length ≤ 1 := by
    rw [step_world ht]
    simp only [dbExec]
    rw [rowsOf_update fun r => by rfl, List.length_map]
    exact h.rows
  have hclaims : claims c (conf.step (exec env) t).world.log = 0 := by
    rw [step_world ht]
    simp only [claims_snoc, hzero]
    rfl
  refine ⟨hrows, fun u hu => absurd hu (hnoOwner u), fun u hu => absurd hu (hnoClaim u), .inl hclaims, ?_⟩
  rw [hclaims, step_world ht]
  simp only [graphCalls_snoc, hcalls]
  exact Nat.le_refl 0

/-- A claim that changes the row: from then on it is not `interrupted`. -/
theorem Once.claims {v : PyVal} {a : ApprovalId} {now : Nat} {k : Except PyExc Nat → Py Dict}
    (h : Once c conf st) (ht : conf.threads t = .op (.claimForResume v a now) k)
    (hv : bindText v = .ok (some c))
    (hn : conf.world.db.checkpoints.countP (claimable c a now) ≠ 0) :
    Once c (conf.step (exec env) t) (Function.update st t .claimed) := by
  obtain ⟨r, hr, hcl⟩ := claim_row h.rows hn
  obtain ⟨-, happ, -, hst⟩ : hasId c r = true ∧ r.approvalId = some a ∧ r.consumed = false ∧
      r.status = .interrupted := by
    simp only [claimable, Bool.and_eq_true, beq_iff_eq, Bool.not_eq_eq_eq_not, Bool.not_true] at hcl
    exact ⟨hcl.1.1.1.1, hcl.1.1.1.2, hcl.1.1.2, hcl.1.2⟩
  have hzero : AgentHarness.claims c conf.world.log = 0 := by
    rcases h.once with h0 | ⟨-, -, r', hr', hst'⟩
    · exact h0
    · rw [hr] at hr'
      cases hr'
      exact absurd hst hst'
  have hcalls : graphCalls c conf.world.log = 0 := Nat.le_zero.mp (hzero ▸ h.calls)
  have hnoOwner : ∀ u, st u ≠ .owner := fun u hu => by
    obtain ⟨⟨r', hr', happ'⟩, -⟩ := h.owned u hu
    rw [hr] at hr'
    cases hr'
    rw [happ] at happ'
    cases happ'
  have hnoClaim : ∀ u, st u ≠ .claimed := fun u hu => by
    have := (h.claimed u hu).1
    omega
  have hans : stepEvent env conf t (.claimForResume v a now) = ⟨t, .claimForResume v a now,
      .ok (conf.world.db.checkpoints.countP (claimable c a now))⟩ := by
    simp only [stepEvent, dbExec, hv]
  have hw : (conf.step (exec env) t).world.db =
      updateCheckpoints (claimable c a now) claimRow conf.world.db := by
    rw [step_world ht]
    simp only [dbExec, hv]
  have hrows : rowsOf c (conf.step (exec env) t).world.db = [claimRow r] := by
    rw [hw, rowsOf_update fun r => by rfl, hr]
    simp only [List.map_cons, List.map_nil, hcl, if_true]
  have hisClaim : isClaim c (stepEvent env conf t (.claimForResume v a now)) = true := by
    rw [hans]
    simp [isClaim, names, hv, claimed?, hn]
  have hclaims : AgentHarness.claims c (conf.step (exec env) t).world.log = 1 := by
    rw [step_world ht]
    simp only [claims_snoc, hzero, hisClaim, if_true]
  have hcalls' : graphCalls c (conf.step (exec env) t).world.log = 0 := by
    rw [step_world ht]
    simp only [graphCalls_snoc, hcalls, hans]
    rfl
  have hnoOwner' : ∀ u, Function.update st t .claimed u ≠ .owner := fun u hu => by
    by_cases hut : u = t
    · rw [hut, Function.update_self] at hu
      cases hu
    · rw [Function.update_of_ne hut] at hu
      exact hnoOwner u hu
  have honly : ∀ u, Function.update st t .claimed u = .claimed → u = t := fun u hu => by
    by_contra hut
    rw [Function.update_of_ne hut] at hu
    exact hnoClaim u hu
  refine ⟨by rw [hrows]; simp, fun u hu => absurd hu (hnoOwner' u), fun u hu => ?_, ?_, ?_⟩
  · exact ⟨hclaims, hcalls', fun w hw => (honly w hw).trans (honly u hu).symm⟩
  · exact .inr ⟨hclaims, hnoOwner', _, hrows, fun hst' => CheckpointStatus.noConfusion hst'⟩
  · omega

/-- The call uses up the claim. -/
theorem Once.called {a : ApprovalId} {v tool args : PyVal} {k : Except PyExc ToolCallRecord → Py Dict}
    (h : Once c conf st) (ht : conf.threads t = .op (.gatewayCall (.graphResume a v) tool args) k)
    (hv : names c v = true) (hcl : st t = .claimed) :
    Once c (conf.step (exec env) t) (Function.update st t .idle) := by
  obtain ⟨h1, h0, huniq⟩ := h.claimed t hcl
  have hdb : (conf.step (exec env) t).world.db = conf.world.db := by
    rw [step_world ht]
    rfl
  have hclaims : AgentHarness.claims c (conf.step (exec env) t).world.log = 1 := by
    rw [step_world ht]
    simp only [claims_snoc, h1]
    rfl
  have hcalls : graphCalls c (conf.step (exec env) t).world.log = 1 := by
    rw [step_world ht]
    have his : isGraphCall c (stepEvent env conf t (.gatewayCall (.graphResume a v) tool args)) = true :=
      hv
    simp only [graphCalls_snoc, h0, his, if_true]
  rcases h.once with h' | ⟨-, hno, hrow⟩
  · omega
  refine ⟨by rw [hdb]; exact h.rows, fun u hu => ?_, fun u hu => ?_, .inr ⟨hclaims, fun u hu => ?_, ?_⟩,
    by omega⟩
  · by_cases hut : u = t
    · rw [hut, Function.update_self] at hu
      cases hu
    · rw [Function.update_of_ne hut] at hu
      exact absurd hu (hno u)
  · by_cases hut : u = t
    · rw [hut, Function.update_self] at hu
      cases hu
    · rw [Function.update_of_ne hut] at hu
      exact absurd (huniq u hu) hut
  · by_cases hut : u = t
    · rw [hut, Function.update_self] at hu
      cases hu
    · rw [Function.update_of_ne hut] at hu
      exact hno u hu
  · rw [hdb]
    exact hrow

/-- **One step** of any thread that keeps to the machine keeps the invariant. -/
theorem Once.step (h : Once c conf st) (ht : conf.threads t = .op o k) (hmay : (st t).may c o) :
    Once c (conf.step (exec env) t)
      (Function.update st t ((st t).next c o (dbExec env conf.world.log t o conf.world.db).1)) := by
  cases o with
  | insertCheckpoint row =>
    by_cases hold : conf.world.db.checkpoints.any (hasId row.checkpointId) = true
    · refine h.quiet ht ?_ rfl rfl (.of_eq ?_)
      · simp only [dbExec, hold, if_true, Phase.next]
      · simp only [dbExec, hold, if_true]
    · have hnew : conf.world.db.checkpoints.any (hasId row.checkpointId) = false := by simpa using hold
      by_cases hid : row.checkpointId = c
      · subst hid
        have hnext : (st t).next row.checkpointId (.insertCheckpoint row)
            (dbExec env conf.world.log t (.insertCheckpoint row) conf.world.db).1 = .owner := by
          simp only [dbExec, hnew, Bool.false_eq_true, if_false, Phase.next, if_true]
        rw [hnext]
        exact h.inserted ht hmay rfl hnew
      · refine h.quiet ht ?_ rfl rfl (.of_eq ?_)
        · simp only [dbExec, hnew, Bool.false_eq_true, if_false, Phase.next, hid]
        · simp only [dbExec, hnew, Bool.false_eq_true, if_false]
          exact rowsOf_insert hid
  | markPendingInterrupt c' a p g =>
    by_cases hc : c' = c
    · subst hc
      have hnext : (st t).next c' (.markPendingInterrupt c' a p g)
          (dbExec env conf.world.log t (.markPendingInterrupt c' a p g) conf.world.db).1 = .idle := by
        simp only [Phase.next, if_true]
      rw [hnext]
      exact h.marked ht (hmay rfl)
    · refine h.quiet ht ?_ rfl rfl (.of_eq ?_)
      · simp only [Phase.next, hc, if_false]
      · refine rowsOf_update_other (fun _ => rfl) fun r hr => ?_
        simp only [hasId, beq_iff_eq] at hr
        simpa [hasId, hr] using Ne.symm hc
  | claimForResume v a now =>
    cases hb : bindText v with
    | error e =>
      refine h.quiet ht ?_ ?_ rfl (.of_eq ?_)
      · simp only [Phase.next, names, hb, Bool.false_and, Bool.false_eq_true, if_false]
      · simp only [stepEvent, isClaim, names, hb, Bool.false_and]
      · simp only [dbExec, hb]
    | ok s =>
      cases s with
      | none =>
        refine h.quiet ht ?_ ?_ rfl (.of_eq ?_)
        · simp only [Phase.next, names, hb, Bool.false_and, Bool.false_eq_true, if_false]
        · simp only [stepEvent, isClaim, names, hb, Bool.false_and]
        · simp only [dbExec, hb]
      | some s =>
        have hans : (dbExec env conf.world.log t (.claimForResume v a now) conf.world.db).1 =
            .ok (conf.world.db.checkpoints.countP (claimable s a now)) := by simp only [dbExec, hb]
        have hrows : rowsOf c (dbExec env conf.world.log t (.claimForResume v a now) conf.world.db).2 =
            (rowsOf c conf.world.db).map fun r => if claimable s a now r then claimRow r else r := by
          simp only [dbExec, hb]
          exact rowsOf_update fun r => by rfl
        by_cases hsc : s = c
        · subst hsc
          by_cases hn : conf.world.db.checkpoints.countP (claimable s a now) = 0
          · refine h.quiet ht ?_ ?_ rfl (.of_eq ?_)
            · simp [Phase.next, hans, hn, claimed?]
            · simp [stepEvent, isClaim, hans, hn, claimed?]
            · rw [hrows]
              conv_rhs => rw [← List.map_id (rowsOf s conf.world.db)]
              refine List.map_congr_left fun r hr => ?_
              have hr' := List.countP_eq_zero.mp hn r (List.mem_filter.mp hr).1
              rw [if_neg hr']
              rfl
          · have hnext : (st t).next s (.claimForResume v a now)
                (dbExec env conf.world.log t (.claimForResume v a now) conf.world.db).1 = .claimed := by
              simp [Phase.next, hans, hn, claimed?, names, hb]
            rw [hnext]
            exact h.claims ht hb hn
        · have hnames : names c v = false := by simp [names, hb, hsc]
          refine h.quiet ht ?_ ?_ rfl (.of_eq ?_)
          · simp only [Phase.next, hnames, Bool.false_and, Bool.false_eq_true, if_false]
          · simp only [stepEvent, isClaim, hnames, Bool.false_and]
          · simp only [dbExec, hb]
            refine rowsOf_update_other (fun _ => rfl) fun r hr => ?_
            simp only [hasId, beq_iff_eq] at hr
            simp [claimable, hasId, hr, Ne.symm hsc]
  | gatewayCall site tool args =>
    cases site with
    | graphResume a v =>
      by_cases hv : names c v = true
      · have hnext : (st t).next c (.gatewayCall (.graphResume a v) tool args)
            (dbExec env conf.world.log t (.gatewayCall (.graphResume a v) tool args) conf.world.db).1 =
              .idle := by
          simp only [Phase.next, hv, if_true]
        rw [hnext]
        exact h.called ht hv (hmay hv)
      · refine h.quiet ht ?_ rfl ?_ (.of_eq rfl)
        · simp only [Phase.next, hv, Bool.false_eq_true, if_false]
        · exact Bool.eq_false_iff.mpr hv
    | _ => exact h.quiet ht rfl rfl rfl (.of_eq rfl)
  | markResumed v p res =>
    refine h.quiet ht rfl rfl rfl ?_
    simp only [dbExec, withBound]
    split
    · exact .of_eq rfl
    · exact .of_eq rfl
    · exact .of_update fun r => ⟨rfl, rfl, fun hst => CheckpointStatus.noConfusion hst⟩
  | markCancelled v reason =>
    refine h.quiet ht rfl rfl rfl ?_
    simp only [dbExec, withBound]
    split
    · exact .of_eq rfl
    · exact .of_eq rfl
    · exact .of_update fun r => ⟨rfl, rfl, fun hst => CheckpointStatus.noConfusion hst⟩
  | expireOld now =>
    exact h.quiet ht rfl rfl rfl
      (.of_update fun r => ⟨rfl, rfl, fun hst => CheckpointStatus.noConfusion hst⟩)
  | getCheckpoint v =>
    refine h.quiet ht rfl rfl rfl ?_
    simp only [dbExec]
    split <;> exact .of_eq rfl
  | evaluate tool risk =>
    refine h.quiet ht rfl rfl rfl ?_
    simp only [dbExec]
    split <;> exact .of_eq rfl
  | _ => exact h.quiet ht rfl rfl rfl (.of_eq rfl)

end Step

/-! ## Every run -/

theorem once_start {sv : Service} {db : Db} {reqs : Nat → Request} {c : String}
    (hc : ∀ r ∈ db.checkpoints, r.checkpointId ≠ c) :
    Once c (start sv db reqs) fun _ => .idle := by
  have hrows : rowsOf c db = [] := by
    refine List.filter_eq_nil_iff.mpr fun r hr h => hc r hr ?_
    simpa [hasId] using h
  exact ⟨by simp [start, hrows], fun _ h => Phase.noConfusion h, fun _ h => Phase.noConfusion h,
    .inl rfl, Nat.le_refl 0⟩

/-- **At most once.**  Whatever requests run, in whatever order and wherever they stop: a checkpoint
that a run creates is claimed at most once, the graph adapter calls the gateway for it at most once
and only after the claim, and once it is claimed no state lets it be claimed again. -/
theorem graph_checkpoint_at_most_once (sv : Service) (db : Db) (reqs : Nat → Request)
    (sched : List Nat) (c : String) (hc : ∀ r ∈ db.checkpoints, r.checkpointId ≠ c) :
    claims c (sv.run (start sv db reqs) sched).world.log ≤ 1 ∧
    graphCalls c (sv.run (start sv db reqs) sched).world.log ≤
      claims c (sv.run (start sv db reqs) sched).world.log ∧
    (claims c (sv.run (start sv db reqs) sched).world.log = 1 →
      ∀ r ∈ (sv.run (start sv db reqs) sched).world.db.checkpoints, ∀ a now,
        claimable c a now r = false) := by
  have hsafe : (start sv db reqs).Conforms (checkpointMachine c) (fun _ _ _ => True) fun _ => .idle :=
    fun t => request_safe (reqs t) _
  have hany : Conf.Meets (exec sv.env) (fun _ _ _ => True) (start sv db reqs) sched :=
    Conf.meets_of_forall (fun _ _ _ => trivial) _ _
  obtain ⟨st, hJ, -⟩ := Conf.run_typestate
    (fun conf st t o k (hJ : Once c conf st) _ ht _ hmay => ⟨_, rfl, hJ.step ht hmay⟩) (once_start hc)
    hsafe hany
  refine ⟨?_, hJ.calls, fun h1 r hr a now => ?_⟩
  · rcases hJ.once with h0 | ⟨h1, -⟩
    · exact h0 ▸ Nat.zero_le 1
    · exact h1 ▸ Nat.le_refl 1
  · rcases hJ.once with h0 | ⟨-, -, r', hr', hst⟩
    · exact absurd (h1.symm.trans h0) Nat.one_ne_zero
    · by_contra hcl
      rw [Bool.not_eq_false] at hcl
      simp only [claimable, Bool.and_eq_true, beq_iff_eq] at hcl
      have hmem : r ∈ rowsOf c (sv.run (start sv db reqs) sched).world.db :=
        List.mem_filter.mpr ⟨hr, hcl.1.1.1.1⟩
      rw [show rowsOf c (sv.run (start sv db reqs) sched).world.db = [r'] from hr'] at hmem
      exact hst (List.mem_singleton.mp hmem ▸ hcl.1.2)

theorem graph_checkpoint_at_most_once_demo :
    let w := (demoService.run (start demoService ⟨[], fun _ => none, []⟩ fun t =>
      if t = 0 then .runKeyword "t" "q" else .approve 0 demoRequest)
        (List.replicate 20 0 ++ List.replicate 40 1)).world
    claims "graph-t-execute-10" w.log ≤ 1 ∧
      graphCalls "graph-t-execute-10" w.log ≤ claims "graph-t-execute-10" w.log ∧
      (claims "graph-t-execute-10" w.log = 1 →
        ∀ r ∈ w.db.checkpoints, ∀ a now, claimable "graph-t-execute-10" a now r = false) :=
  graph_checkpoint_at_most_once demoService ⟨[], fun _ => none, []⟩ _ _ "graph-t-execute-10"
    fun _ h => nomatch h

end AgentHarness
