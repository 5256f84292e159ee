import AgentHarness.Requests

/-!
# CheckpointFinal — terminal states of graph checkpoints

Three of the five writers of a checkpoint row (`markPendingInterrupt`, `markResumed`,
`markCancelled`) name the row by its id only.  `WritesUnconsumed` says that such a write meets a row
that is not consumed yet, or that already has the status it writes.  A step keeps `consumed` and the
status together, and the status of every consumed row, exactly if it satisfies `WritesUnconsumed`;
so does a run.
-/

namespace AgentHarness

open Lib Py

def CheckpointStatus.isTerminal : CheckpointStatus → Bool
  | resumed | cancelled | expired => true
  | _ => false

/-- `consumed = 1` exactly in the terminal states. -/
def CheckpointRow.Consistent (r : CheckpointRow) : Prop := r.consumed = r.status.isTerminal

def Db.Consistent (db : Db) : Prop := ∀ r ∈ db.checkpoints, r.Consistent

/-- If `r` is consumed, `r'` is the same row with the same status. -/
def CheckpointRow.Kept (r r' : CheckpointRow) : Prop :=
  r.consumed = true →
    r'.checkpointId = r.checkpointId ∧ r'.consumed = true ∧ r'.status = r.status

/-- Every consumed row of `db` is kept in `db'`. -/
def Db.KeepsConsumed (db db' : Db) : Prop :=
  ∀ (i : Nat) (r : CheckpointRow), db.checkpoints[i]? = some r →
    ∃ r', db'.checkpoints[i]? = some r' ∧ r.Kept r'

/-- The rows a write by id meets are not consumed, or have the status it writes. -/
def MeetsUnconsumed (db : Db) (status : CheckpointStatus) (c : String) : Prop :=
  ∀ r ∈ db.checkpoints, hasId c r = true → r.consumed = false ∨ r.status = status

/-- **The guard the three writers by id lack.** -/
def WritesUnconsumed (db : Db) : Op → Prop
  | .markPendingInterrupt c _ _ _ => ∀ r ∈ db.checkpoints, hasId c r = true → r.consumed = false
  | .markResumed c _ _ => ∀ s, bindText c = .ok (some s) → MeetsUnconsumed db .resumed s
  | .markCancelled c _ => ∀ s, bindText c = .ok (some s) → MeetsUnconsumed db .cancelled s
  | _ => True

/-- New rows are created as `_checkpoint` creates them. -/
def InsertsFresh : Op → Prop
  | .insertCheckpoint row => FreshCheckpoint row
  | _ => True

theorem FreshCheckpoint.consistent {r : CheckpointRow} (h : FreshCheckpoint r) : r.Consistent := by
  have hs := h.status
  simp only [List.mem_cons, List.not_mem_nil, or_false] at hs
  unfold CheckpointRow.Consistent
  rw [h.notConsumed]
  rcases hs with hs | hs | hs | hs | hs <;> rw [hs] <;> rfl

namespace Db.KeepsConsumed

theorem refl (db : Db) : db.KeepsConsumed db := fun _ r hr => ⟨r, hr, fun h => ⟨rfl, h, rfl⟩⟩

theorem trans {db₁ db₂ db₃ : Db} (h : db₁.KeepsConsumed db₂) (h' : db₂.KeepsConsumed db₃) :
    db₁.KeepsConsumed db₃ := by
  intro i r hr
  obtain ⟨r', hr', hk⟩ := h i r hr
  obtain ⟨r'', hr'', hk'⟩ := h' i r' hr'
  refine ⟨r'', hr'', fun hc => ?_⟩
  obtain ⟨hid, hc', hst⟩ := hk hc
  obtain ⟨hid', hc'', hst'⟩ := hk' hc'
  exact ⟨hid'.trans hid, hc'', hst'.trans hst⟩

end Db.KeepsConsumed

section Step

variable {db : Db} {p : CheckpointRow → Bool} {f : CheckpointRow → CheckpointRow}

theorem updateCheckpoints_get (i : Nat) :
    (updateCheckpoints p f db).checkpoints[i]? =
      (db.checkpoints[i]?).map fun r => if p r then f r else r := by
  simp [updateCheckpoints]

/-- What an update of selected rows has to do row by row. -/
theorem update_keeps_iff (hdb : db.Consistent) :
    ((updateCheckpoints p f db).Consistent ∧ db.KeepsConsumed (updateCheckpoints p f db)) ↔
      ∀ r ∈ db.checkpoints, p r = true → (f r).Consistent ∧ r.Kept (f r) := by
  constructor
  · rintro ⟨hc, hk⟩ r hr hp
    obtain ⟨i, hi⟩ := List.mem_iff_getElem?.mp hr
    have hget : (updateCheckpoints p f db).checkpoints[i]? = some (f r) := by
      simp [updateCheckpoints_get, hi, hp]
    obtain ⟨r', hr', hkept⟩ := hk i r hi
    rw [hget, Option.some.injEq] at hr'
    subst hr'
    exact ⟨hc _ (List.mem_of_getElem? hget), hkept⟩
  · intro h
    refine ⟨fun r hr => ?_, fun i r hi => ?_⟩
    · obtain ⟨r₀, hr₀, rfl⟩ := List.mem_map.mp hr
      split
      · rename_i hp
        exact (h r₀ hr₀ hp).1
      · exact hdb r₀ hr₀
    · refine ⟨_, by rw [updateCheckpoints_get, hi]; rfl, ?_⟩
      dsimp only
      split
      · rename_i hp
        exact (h r (List.mem_of_getElem? hi) hp).2
      · exact fun hc => ⟨rfl, hc, rfl⟩

/-- Rows appended to the table leave the others where they are. -/
theorem append_keeps {row : CheckpointRow} (hdb : db.Consistent) (hrow : row.Consistent) :
    ({ db with checkpoints := db.checkpoints ++ [row] } : Db).Consistent ∧
      db.KeepsConsumed { db with checkpoints := db.checkpoints ++ [row] } := by
  refine ⟨fun r hr => ?_, fun i r hi => ⟨r, ?_, fun hc => ⟨rfl, hc, rfl⟩⟩⟩
  · rcases List.mem_append.mp hr with hr | hr
    · exact hdb r hr
    · rwa [List.mem_singleton.mp hr]
  · exact (List.getElem?_append_left (List.getElem?_eq_some_iff.mp hi).1).trans hi

theorem keeps_of_checkpoints_eq {db' : Db} (hdb : db.Consistent)
    (h : db'.checkpoints = db.checkpoints) : db'.Consistent ∧ db.KeepsConsumed db' := by
  refine ⟨fun r hr => hdb r (h ▸ hr), fun i r hi => ⟨r, by rw [h, hi], fun hc => ⟨rfl, hc, rfl⟩⟩⟩

/-- A write that ends the life of a row. -/
theorem finish_keeps_iff {st : CheckpointStatus} {s : String} (hst : st.isTerminal = true)
    (hf : ∀ r, (f r).status = st ∧ (f r).consumed = true ∧ (f r).checkpointId = r.checkpointId)
    (hdb : db.Consistent) :
    ((updateCheckpoints (hasId s) f db).Consistent ∧
      db.KeepsConsumed (updateCheckpoints (hasId s) f db)) ↔ MeetsUnconsumed db st s := by
  rw [update_keeps_iff hdb]
  refine forall_congr' fun r => imp_congr_right fun _ => imp_congr_right fun _ => ?_
  obtain ⟨hs, hc, hid⟩ := hf r
  constructor
  · rintro ⟨-, hk⟩
    by_cases h : r.consumed = true
    · exact .inr ((hk h).2.2.symm.trans hs)
    · exact .inl (by simpa using h)
  · intro h
    refine ⟨by rw [CheckpointRow.Consistent, hc, hs, hst], fun h' => ⟨hid, hc, ?_⟩⟩
    rcases h with h | h
    · rw [h] at h'
      cases h'
    · rw [hs, h]

/-- A guarded write keeps both. -/
theorem guarded_keeps (hp : ∀ r, p r = true → r.consumed = false)
    (hf : ∀ r, p r = true → (f r).Consistent) (hdb : db.Consistent) :
    (updateCheckpoints p f db).Consistent ∧ db.KeepsConsumed (updateCheckpoints p f db) := by
  refine (update_keeps_iff hdb).mpr fun r _ h => ⟨hf r h, fun hc => ?_⟩
  rw [hp r h] at hc
  cases hc

theorem claimable_spec {c : String} {a : ApprovalId} {now : Nat} {r : CheckpointRow}
    (h : claimable c a now r = true) :
    hasId c r = true ∧ r.approvalId = some a ∧ r.consumed = false ∧ r.status = .interrupted := by
  simp only [claimable, Bool.and_eq_true, beq_iff_eq, Bool.not_eq_eq_eq_not, Bool.not_true] at h
  exact ⟨h.1.1.1.1, h.1.1.1.2, h.1.1.2, h.1.2⟩

theorem expirable_spec {now : Nat} {r : CheckpointRow} (h : expirable now r = true) :
    r.consumed = false := by
  simp only [expirable, Bool.and_eq_true, Bool.not_eq_eq_eq_not, Bool.not_true] at h
  exact h.1

variable {env : Env} {log : List Event} {t : Nat}

/-- **One step.**  It keeps the rows consistent and the consumed ones as they are exactly if its
write meets no consumed row. -/
theorem step_keeps_iff {o : Op} (hdb : db.Consistent) (ho : InsertsFresh o) :
    ((dbExec env log t o db).2.Consistent ∧ db.KeepsConsumed (dbExec env log t o db).2) ↔
      WritesUnconsumed db o := by
  cases o with
  | insertCheckpoint row =>
    refine iff_of_true ?_ trivial
    simp only [dbExec]
    split
    · exact keeps_of_checkpoints_eq hdb rfl
    · exact append_keeps hdb ho.consistent
  | markPendingInterrupt c a p g =>
    refine (update_keeps_iff hdb).trans ?_
    refine forall_congr' fun r => imp_congr_right fun _ => imp_congr_right fun _ => ?_
    refine ⟨fun h => h.1, fun h => ⟨h, fun hc => ?_⟩⟩
    rw [h] at hc
    cases hc
  | claimForResume c a now =>
    refine iff_of_true ?_ trivial
    simp only [dbExec]
    split
    · exact keeps_of_checkpoints_eq hdb rfl
    · exact keeps_of_checkpoints_eq hdb rfl
    · exact guarded_keeps (fun r h => (claimable_spec h).2.2.1) (fun r h => (claimable_spec h).2.2.1) hdb
  | markResumed c p res =>
    simp only [dbExec, withBound, WritesUnconsumed]
    split
    · rename_i e he
      exact iff_of_true (keeps_of_checkpoints_eq hdb rfl) fun s hs => by rw [he] at hs; cases hs
    · rename_i he
      exact iff_of_true (keeps_of_checkpoints_eq hdb rfl) fun s hs => by rw [he] at hs; cases hs
    · rename_i s he
      refine (@finish_keeps_iff _ (resumedRow p res) _ s rfl (fun r => ⟨rfl, rfl, rfl⟩) hdb).trans ?_
      exact ⟨fun h s' hs => by rw [he] at hs; cases hs; exact h, fun h => h s he⟩
  | markCancelled c reason =>
    simp only [dbExec, withBound, WritesUnconsumed]
    split
    · rename_i e he
      exact iff_of_true (keeps_of_checkpoints_eq hdb rfl) fun s hs => by rw [he] at hs; cases hs
    · rename_i he
      exact iff_of_true (keeps_of_checkpoints_eq hdb rfl) fun s hs => by rw [he] at hs; cases hs
    · rename_i s he
      refine (@finish_keeps_iff _ (cancelledRow reason) _ s rfl (fun r => ⟨rfl, rfl, rfl⟩) hdb).trans ?_
      exact ⟨fun h s' hs => by rw [he] at hs; cases hs; exact h, fun h => h s he⟩
  | expireOld now =>
    exact iff_of_true (guarded_keeps (fun r h => expirable_spec h) (fun r _ => rfl) hdb) trivial
  | getCheckpoint c =>
    refine iff_of_true (keeps_of_checkpoints_eq hdb ?_) trivial
    simp only [dbExec]
    split <;> rfl
  | evaluate tool risk =>
    refine iff_of_true (keeps_of_checkpoints_eq hdb ?_) trivial
    simp only [dbExec]
    split <;> rfl
  | _ => exact iff_of_true (keeps_of_checkpoints_eq hdb rfl) trivial

end Step

/-! ## Runs -/

variable {sv : Service} {db : Db} {reqs : Nat → Request}

theorem Request.ops_insertsFresh {r : Request} {o : Op} (h : r.Ops o) : InsertsFresh o := by
  cases o with
  | insertCheckpoint row =>
    cases r with
    | runKeyword taskId query => exact h
    | approve a req => simp [Request.Ops, ApproveOp, ResumeOp, ServiceOp, AdapterOp, DecideOp] at h
    | reject a req => simp [Request.Ops, RejectOp, DecideOp] at h
    | resume a => simp [Request.Ops, ResumeOp, ServiceOp, AdapterOp] at h
    | manualResume a => simp [Request.Ops, ResumeOp, ServiceOp, AdapterOp] at h
    | expireOld now => cases h
  | _ => trivial

/-- The condition on a step, read on the state before it. -/
def GuardedWrite (c : Conf Op Ans PyExc World Dict) (_t : Nat) (o : Op) : Prop :=
  WritesUnconsumed c.world.db o

theorem run_consistent {c : Conf Op Ans PyExc World Dict} (hu : c.UsesAll InsertsFresh)
    (hc : c.world.db.Consistent) {sched : List Nat}
    (hm : Conf.Meets (exec sv.env) GuardedWrite c sched) :
    (sv.run c sched).world.db.Consistent ∧ c.world.db.KeepsConsumed (sv.run c sched).world.db := by
  induction sched generalizing c with
  | nil => exact ⟨hc, .refl _⟩
  | cons t ts ih =>
    cases hn : c.next t with
    | none =>
      have hs : c.step (exec sv.env) t = c := Conf.step_of_next_none hn
      have hm' := hm.2
      rw [hs] at hm'
      simpa only [Service.run, Conf.run_cons, hs] using ih hu hc hm'
    | some o =>
      obtain ⟨k, ht⟩ := Conf.op_of_next hn
      have hstep := (@step_keeps_iff _ sv.env c.world.log t o hc (hu.op ht)).mpr (hm.1 o hn)
      have hw : (c.step (exec sv.env) t).world.db = (dbExec sv.env c.world.log t o c.world.db).2 := by
        rw [Conf.step_of_op ht]
        rfl
      rw [← hw] at hstep
      obtain ⟨h₁, h₂⟩ := ih (hu.step t) hstep.1 hm.2
      exact ⟨h₁, hstep.2.trans h₂⟩

/-- Every state of the run is consistent, and later states keep the consumed rows of earlier ones. -/
def TerminalFinal (sv : Service) (c : Conf Op Ans PyExc World Dict) (sched : List Nat) : Prop :=
  (∀ ts, ts <+: sched → (sv.run c ts).world.db.Consistent) ∧
  ∀ ts us, ts <+: us → us <+: sched →
    (sv.run c ts).world.db.KeepsConsumed (sv.run c us).world.db

theorem TerminalFinal.tail {c : Conf Op Ans PyExc World Dict} {t : Nat} {sched : List Nat}
    (h : TerminalFinal sv c (t :: sched)) : TerminalFinal sv (c.step (exec sv.env) t) sched := by
  refine ⟨fun ts hts => h.1 (t :: ts) (List.cons_prefix_cons.mpr ⟨rfl, hts⟩), fun ts us hts hus => ?_⟩
  exact h.2 (t :: ts) (t :: us) (List.cons_prefix_cons.mpr ⟨rfl, hts⟩)
    (List.cons_prefix_cons.mpr ⟨rfl, hus⟩)

/-- **Terminal states are final** in exactly the runs in which no write by id meets a consumed row
of another status. -/
theorem terminalFinal_iff {c : Conf Op Ans PyExc World Dict} (hu : c.UsesAll InsertsFresh)
    (hc : c.world.db.Consistent) {sched : List Nat} :
    TerminalFinal sv c sched ↔ Conf.Meets (exec sv.env) GuardedWrite c sched := by
  constructor
  · intro h
    induction sched generalizing c with
    | nil => trivial
    | cons t ts ih =>
      have hnext := h.1 [t] (List.cons_prefix_cons.mpr ⟨rfl, List.nil_prefix⟩)
      refine ⟨fun o ho => ?_, ih (hu.step t) hnext h.tail⟩
      obtain ⟨k, ht⟩ := Conf.op_of_next ho
      have hkeep := h.2 [] [t] List.nil_prefix (List.cons_prefix_cons.mpr ⟨rfl, List.nil_prefix⟩)
      have hw : (c.step (exec sv.env) t).world.db = (dbExec sv.env c.world.log t o c.world.db).2 := by
        rw [Conf.step_of_op ht]
        rfl
      refine (step_keeps_iff hc (hu.op ht)).mp ⟨hw ▸ hnext, ?_⟩
      exact hw ▸ hkeep
  · intro hm
    refine ⟨fun ts hts => (run_consistent hu hc (hm.initial hts)).1, fun ts us hts hus => ?_⟩
    obtain ⟨vs, rfl⟩ := hts
    have hm' := hm.initial hus
    have hmid := run_consistent hu hc (hm'.initial (List.prefix_append ts vs))
    have hrest := run_consistent (hu.run ts) hmid.1 hm'.of_append
    have hrun : sv.run c (ts ++ vs) = sv.run (sv.run c ts) vs := Conf.run_append ..
    rw [hrun]
    exact hrest.2

/-- A graph run and a rejection of the approval it creates. -/
def rejectDuringRun : Conf Op Ans PyExc World Dict :=
  start demoService ⟨[], fun _ => none, []⟩ fun t =>
    if t = 0 then .runKeyword "t" "q" else .reject 0 demoRequest

/-- The rejection comes between the creation of the approval and `markPendingInterrupt`. -/
def rejectBeforeMark : List Nat :=
  List.replicate 16 0 ++ List.replicate 20 1 ++ List.replicate 10 0

theorem reject_before_mark_reopens :
    ((demoService.run rejectDuringRun rejectBeforeMark).world.db.checkpoints.any fun r =>
      r.consumed && r.status == .interrupted) = true := by
  decide +kernel

end AgentHarness
