import AgentHarness.Requests
import AgentHarness.ResumeFlow
import Mathlib.Data.List.Nodup

/-!
# PlanOrder — the order of the tool calls over a chain of approvals and resumes

A chain is the pipeline run of a plan and any requests on the approvals it leads to, one after the
other.  `Chain` holds between two requests: the calls made so far are in the order of the plan, every
approval of the chain but the last one is consumed, and the last one waits, if it is not consumed as
well, with the step at which the plan stands.
-/

namespace AgentHarness

open Lib Py

/-! ## The calls of a log -/

/-- A gateway call as the log has it: the step it was made for, the tool, and the answer. -/
structure ToolCall where
  stepId : PyVal
  tool : PyVal
  result : Except PyExc ToolCallRecord

/-- The step a call is made for. -/
def CallSite.stepId : CallSite → PyVal
  | .pipelineStep id => .str id
  | .approved _ id | .subsequent _ id => id
  | .keyword | .graphKeyword | .executor | .graphResume _ _ => .null

def toolCallOf (e : Event) : Option ToolCall :=
  match e with
  | ⟨_, .gatewayCall site tool _, r⟩ => some ⟨site.stepId, tool, r⟩
  | _ => none

/-- All gateway calls, in order. -/
def toolCalls (log : List Event) : List ToolCall := log.filterMap toolCallOf

def ToolCall.succeeded (c : ToolCall) : Bool :=
  match c.result with
  | .ok r => r.success
  | .error _ => false

/-- The steps whose call succeeded, in the order of the calls. -/
def succeededIds (calls : List ToolCall) : List PyVal :=
  (calls.filter ToolCall.succeeded).map ToolCall.stepId

/-- **The calls of a log follow the plan.** -/
structure FollowsPlan (steps : List MultiToolPlanStep) (log : List Event) : Prop where
  /-- no step is called successfully twice -/
  once : (succeededIds (toolCalls log)).Nodup
  /-- the successful calls are in plan order -/
  inOrder : succeededIds (toolCalls log) <+: steps.map fun s => .str s.stepId
  /-- a call is one of a step whose dependencies have succeeded before -/
  afterDeps : ∀ pre c post, toolCalls log = pre ++ c :: post →
    ∃ s ∈ steps, c.stepId = .str s.stepId ∧ c.tool = .str s.toolName ∧
      ∀ d ∈ s.dependsOn, .str d ∈ succeededIds pre

/-! ## The invariant -/

/-- A call of the plan as a call of the log. -/
def madeCall (x : StepMade) : ToolCall := ⟨.str x.step.stepId, .str x.call.tool, .ok x.result⟩

/-- A row that waits with the snapshot of the next step. -/
structure Waiting (env : Env) (steps : List MultiToolPlanStep) (l : List StepMade) (row : ApprovalRow)
    (sn : Snapshot) (pre rest : List MultiToolPlanStep) : Prop where
  payload : ∃ p, row.payload = some p ∧ sn.Open p
  toolName : row.toolName = sn.step.toolName
  ofPlan : sn.steps = steps
  placed : sn.Placed pre rest
  next : (planWorkflow env true).At steps (sn.step :: rest) l sn.completed
  ready : (planWorkflow env true).ready sn.step sn.completed = true

/-- A row that was resumed. -/
def Resumed (row : ApprovalRow) : Prop := (Dict.get row.payloadDict "resumed").truthy = true

theorem Waiting.congr {env : Env} {steps : List MultiToolPlanStep} {l : List StepMade}
    {row row' : ApprovalRow} {sn : Snapshot} {pre rest : List MultiToolPlanStep}
    (h : Waiting env steps l row sn pre rest) (ht : row'.toolName = row.toolName)
    (hp : row'.payload = row.payload) : Waiting env steps l row' sn pre rest :=
  { h with payload := hp ▸ h.payload, toolName := ht.trans h.toolName }

theorem Resumed.congr {row row' : ApprovalRow} (h : Resumed row) (hp : row'.payload = row.payload) :
    Resumed row' := by
  unfold Resumed ApprovalRow.payloadDict
  rw [hp]
  exact h

/-- **Between two requests of a chain** whose approvals start at `base`; `l` are the calls so far. -/
structure ChainAt (env : Env) (steps : List MultiToolPlanStep) (base : ApprovalId) (l : List StepMade)
    (w : World) : Prop where
  calls : toolCalls w.log = l.map madeCall
  ordered : (planWorkflow env true).Ordered steps l
  made : ∀ x ∈ l, x.step ∈ steps ∧ x.call.tool = x.step.toolName
  rows : ∀ a row, base ≤ a → w.db.approvals[a]? = some row →
    Resumed row ∨ (a + 1 = w.db.approvals.length ∧ ∃ sn pre rest, Waiting env steps l row sn pre rest)

def Chain (env : Env) (steps : List MultiToolPlanStep) (base : ApprovalId) (w : World) : Prop :=
  ∃ l, ChainAt env steps base l w

variable {env : Env} {steps : List MultiToolPlanStep} {base : ApprovalId} {l : List StepMade} {w w' : World}

theorem toolCalls_acts (log : List Event) : toolCalls (acts log) = toolCalls log := by
  unfold toolCalls acts
  rw [List.filterMap_filter]
  refine congrArg (List.filterMap · log) (funext fun e => ?_)
  obtain ⟨t, o, r⟩ := e
  cases o <;> rfl

theorem Moves.toolCalls {evs : List Event} {rows : List ApprovalRow} (h : Moves w w' evs rows) :
    toolCalls w'.log = toolCalls w.log ++ toolCalls evs := by
  rw [← toolCalls_acts, h.acts]
  unfold AgentHarness.toolCalls
  rw [List.filterMap_append]
  exact congrArg (· ++ _) (toolCalls_acts w.log)

@[simp] theorem toolCalls_append (log log' : List Event) :
    toolCalls (log ++ log') = toolCalls log ++ toolCalls log' := List.filterMap_append ..

theorem toolCalls_map_callEvent {site : String → CallSite} (hsite : ∀ id, (site id).stepId = .str id)
    (l : List StepMade) : toolCalls (l.map (callEvent site)) = l.map madeCall := by
  unfold toolCalls
  rw [List.filterMap_map]
  refine List.filterMap_eq_map_iff_forall_eq_some.mpr fun x _ => ?_
  simp only [Function.comp, toolCallOf, callEvent, madeCall, hsite]

theorem succeededIds_map (l : List StepMade) :
    succeededIds (l.map madeCall) =
      ((planWorkflow env true).succeeded l).map fun s => .str s.stepId := by
  unfold succeededIds Workflow.succeeded
  rw [List.filter_map, List.map_map, List.map_map]
  rfl

/-- **The invariant gives the order.** -/
theorem ChainAt.follows (h : ChainAt env steps base l w)
    (hids : (steps.map MultiToolPlanStep.stepId).Nodup) : FollowsPlan steps w.log := by
  have hprefix : succeededIds (toolCalls w.log) <+: steps.map fun s => .str s.stepId := by
    rw [h.calls, @succeededIds_map env]
    exact h.ordered.inOrder.map _
  refine ⟨?_, hprefix, fun pre c post hc => ?_⟩
  · refine hprefix.sublist.nodup ?_
    have hcomp : (steps.map fun s => PyVal.str s.stepId) =
        (steps.map MultiToolPlanStep.stepId).map PyVal.str := by simp
    rw [hcomp]
    exact List.Nodup.map (fun _ _ h => PyVal.str.inj h) hids
  · rw [h.calls] at hc
    obtain ⟨pre', rest', rfl, rfl, hrest⟩ := List.map_eq_append_iff.mp hc
    obtain ⟨x, post', rfl, rfl, rfl⟩ := List.map_eq_cons_iff.mp hrest
    obtain ⟨hx, htool⟩ := h.made x (List.mem_append_right _ List.mem_cons_self)
    refine ⟨x.step, hx, rfl, congrArg PyVal.str htool, fun d hd => ?_⟩
    rw [@succeededIds_map env]
    obtain ⟨s, hs, rfl⟩ := List.mem_map.mp (h.ordered.afterDeps _ _ _ rfl d hd)
    exact List.mem_map_of_mem hs

/-- What does not act, and leaves the tools and payloads of the approvals alone, keeps the chain. -/
theorem ChainAt.keep (h : ChainAt env steps base l w) {f : ApprovalRow → ApprovalRow} {a : ApprovalId}
    (hf : ∀ row, (f row).toolName = row.toolName ∧ (f row).payload = row.payload)
    (hm : Moves w w' [] (w.db.approvals.modify a f)) : ChainAt env steps base l w' := by
  refine ⟨?_, h.ordered, h.made, fun i row hi hrow => ?_⟩
  · rw [hm.toolCalls, h.calls]
    exact List.append_nil _
  rw [hm.rows, List.getElem?_modify] at hrow
  rw [hm.rows, List.length_modify]
  obtain ⟨row₀, hrow₀, rfl⟩ := Option.map_eq_some_iff.mp hrow
  have hg : (if a = i then f row₀ else row₀).toolName = row₀.toolName ∧
      (if a = i then f row₀ else row₀).payload = row₀.payload := by
    split
    · exact hf row₀
    · exact ⟨rfl, rfl⟩
  rcases h.rows i row₀ hi hrow₀ with hres | ⟨hlast, sn, pre, rest, hwait⟩
  · exact .inl (hres.congr hg.2)
  · exact .inr ⟨hlast, sn, pre, rest, hwait.congr hg.1 hg.2⟩

theorem ChainAt.quiet (h : ChainAt env steps base l w) (hm : Moves w w' [] w.db.approvals) :
    ChainAt env steps base l w' := by
  refine h.keep (f := id) (a := 0) (fun _ => ⟨rfl, rfl⟩) ?_
  rwa [List.modify_id]

/-! ## The steps of a chain -/

theorem stepCallOf_tool {s : MultiToolPlanStep} {r : Except PyExc PyVal} {c : Call}
    (h : stepCallOf s r = some c) : c.tool = s.toolName := by
  unfold stepCallOf at h
  split at h
  · cases h
    rfl
  · cases h

/-- The calls of a segment are calls of the steps left. -/
theorem segment_made {sn : Snapshot} {rest : List MultiToolPlanStep} {calls : List Call} {x : StepMade}
    (h : x ∈ (ApprovalResumeService.segment env sn rest calls).1) :
    x.step ∈ sn.step :: rest ∧ x.call.tool = x.step.toolName := by
  rcases Workflow.perform_made h with ⟨hx, v, hv⟩ | ⟨st, hx⟩
  · rw [hx]
    exact ⟨List.mem_cons_self, stepCallOf_tool hv⟩
  · obtain ⟨hmem, v, hv⟩ := Workflow.run_made hx
    exact ⟨List.mem_cons_of_mem _ hmem, stepCallOf_tool hv⟩

/-- If the waiting step was not completed, nothing was. -/
theorem segment_unconsumed {sn : Snapshot} {rest : List MultiToolPlanStep} {calls : List Call}
    (h : ApprovalResumeService.consumed (ApprovalResumeService.segment env sn rest calls).1 = false) :
    (planWorkflow env true).succeeded (ApprovalResumeService.segment env sn rest calls).1 = [] := by
  unfold ApprovalResumeService.segment Workflow.perform at h ⊢
  cases hc : (ApprovalResumeService.durableMemory env).resolve (.load sn.toolCalls) sn.step with
  | none => rfl
  | some c =>
    simp only [hc] at h ⊢
    split at h
    · rename_i hok
      exact absurd (h.symm.trans hok) Bool.false_ne_true
    · rename_i hok
      rw [if_neg hok, Workflow.succeeded_singleton, if_neg hok]

theorem toolCalls_withCreated {a n : ApprovalId} {extra : List ApprovalRow} (l : List StepMade) :
    toolCalls (ApprovalResumeService.withCreated (ApprovalResumeService.resumeEvents a l) n extra) =
      l.map madeCall := by
  have hextra : (extra.map (approvalEvent n)).filterMap toolCallOf = [] := by
    refine List.filterMap_eq_nil_iff.mpr fun e he => ?_
    obtain ⟨row, -, rfl⟩ := List.mem_map.mp he
    rfl
  unfold toolCalls ApprovalResumeService.withCreated
  rw [List.filterMap_append, hextra, List.append_nil]
  cases l with
  | nil => rfl
  | cons x l =>
    have hl : (l.map (callEvent fun id => .subsequent a (.str id))).filterMap toolCallOf =
        l.map madeCall := toolCalls_map_callEvent (fun _ => rfl) l
    simp only [ApprovalResumeService.resumeEvents, List.filterMap_cons, hl, List.map_cons]
    rfl

/-- A segment from where the plan stands. -/
theorem segment_ordered {row : ApprovalRow} {sn : Snapshot} {pre rest : List MultiToolPlanStep}
    {calls : List Call} (h : (planWorkflow env true).Ordered steps l)
    (hwait : Waiting env steps l row sn pre rest) :
    Workflow.Segment (planWorkflow env true) steps
      (l ++ (ApprovalResumeService.segment env sn rest calls).1)
      (ApprovalResumeService.segment env sn rest calls).2 :=
  Workflow.perform_ordered (m := ApprovalResumeService.durableMemory env) h hwait.next hwait.ready
    fun _ _ h' hat' => Workflow.run_ordered h' hat'

/-- The approval a suspended segment creates waits with the next step. -/
theorem waiting_created {row row' : ApprovalRow} {sn : Snapshot} {pre rest : List MultiToolPlanStep}
    {calls : List Call} {taskId : String} {s : MultiToolPlanStep} {rest' : List MultiToolPlanStep}
    {st : Workflow.State String Call ApprovalResumeService.Resumed}
    (h : (planWorkflow env true).Ordered steps l) (hwait : Waiting env steps l row sn pre rest)
    (hentries : ∀ tc ∈ sn.toolCalls, IsStepCall tc)
    (he : (ApprovalResumeService.segment env sn rest calls).2 = .suspended s rest' st)
    (hasks : row'.AsksFor taskId s.toolName (ApprovalResumeService.nextPayload (.str s.stepId)
      (.str s.toolName) (.dict (Dict.jsonable s.arguments)) (ApprovalResumeService.storedSteps sn.steps)
      (st.done.map .str) st.saved.toolCalls)) :
    ∃ sn' pre', Waiting env steps (l ++ (ApprovalResumeService.segment env sn rest calls).1) row' sn'
      pre' rest' := by
  obtain ⟨hat, hready⟩ := (@segment_ordered env steps l row sn pre rest calls h hwait).2 s rest' st he
  obtain ⟨⟨pre', hplaced⟩, -, hentries', -⟩ :=
    ApprovalResumeService.segment_suspended hwait.placed hentries he
  exact ⟨_, pre', ⟨_, hasks.payload, open_nextPayload hentries'⟩, hasks.toolName, hwait.ofPlan, hplaced,
    hat, hready⟩

/-- The resume of the waiting approval: the chain stands where its segment stops. -/
theorem ChainAt.resumed {a : ApprovalId} {row : ApprovalRow} {sn : Snapshot}
    {pre rest : List MultiToolPlanStep} {taskId : String} {r : Except PyExc Dict}
    (h : ChainAt env steps base l w) (hlast : a + 1 = w.db.approvals.length)
    (hwait : Waiting env steps l row sn pre rest) (hrow : w.db.approvals[a]? = some row) {p : Dict}
    (hopen : sn.Open p)
    (hends : ApprovalResumeService.ResumeEnds sn a taskId w
      (ApprovalResumeService.segment env sn rest (callsOf w.log)) r w') :
    ChainAt env steps base (l ++ (ApprovalResumeService.segment env sn rest (callsOf w.log)).1) w' := by
  obtain ⟨d, p', extra, -, -, hsettled, hcreated, hm⟩ := hends
  have hsus := @ApprovalResumeService.segment_suspended env sn pre rest hwait.placed hopen.entries
    (callsOf w.log)
  have hordered := (@segment_ordered env steps l row sn pre rest (callsOf w.log) h.ordered hwait).1
  have hmade := @segment_made env sn rest (callsOf w.log)
  have hnone := @segment_unconsumed env sn rest (callsOf w.log)
  obtain ⟨seg, hseg⟩ : ∃ seg, ApprovalResumeService.segment env sn rest (callsOf w.log) = seg := ⟨_, rfl⟩
  simp only [hseg] at hsus hordered hmade hnone hsettled hcreated hm ⊢
  refine ⟨?_, hordered, fun x hx => ?_, fun i row' hi hrow' => ?_⟩
  · rw [hm.toolCalls, h.calls, toolCalls_withCreated, List.map_append]
  · rcases List.mem_append.mp hx with hx | hx
    · exact h.made x hx
    · obtain ⟨hmem, htool⟩ := hmade hx
      refine ⟨?_, htool⟩
      rw [← hwait.ofPlan, hwait.placed.steps]
      exact List.mem_append_right _ hmem
  rw [hm.rows] at hrow'
  have halt : a < w.db.approvals.length := hlast ▸ Nat.lt_succ_self a
  by_cases hia : i = a
  · subst hia
    rw [List.getElem?_modify_eq, List.getElem?_append_left halt, hrow] at hrow'
    obtain rfl : { row with payload := some p' } = row' := by simpa using hrow'
    cases hcons : ApprovalResumeService.consumed seg.1 with
    | true =>
      rw [hcons, ApprovalResumeService.Settled, if_pos rfl] at hsettled
      left
      simp [Resumed, ApprovalRow.payloadDict, Dict.get, Dict.getD, hsettled]
    | false =>
      rw [hcons, ApprovalResumeService.Settled, if_neg Bool.false_ne_true] at hsettled
      have hextra : extra = [] := by
        rcases he : seg.2 with st | _ | ⟨s, rest', st⟩
        · rwa [he] at hcreated
        · rwa [he] at hcreated
        · exact absurd ((hsus he).2.2.2.2.symm.trans hcons) (by decide)
      refine .inr ⟨?_, sn, pre, rest, ⟨p', rfl, hsettled⟩, hwait.toolName, hwait.ofPlan, hwait.placed, ?_,
        hwait.ready⟩
      · rw [hm.rows, List.length_modify, hextra, List.append_nil]
        exact hlast
      · refine ⟨?_, ?_⟩
        · rw [Workflow.succeeded_append, hnone hcons, List.append_nil]
          exact hwait.next.left
        · rw [Workflow.succeeded_append, hnone hcons, List.append_nil]
          exact hwait.next.done
  rw [List.getElem?_modify_ne _ _ (Ne.symm hia)] at hrow'
  by_cases hlt : i < w.db.approvals.length
  · rw [List.getElem?_append_left hlt] at hrow'
    rcases h.rows i row' hi hrow' with hres | ⟨hlast', -⟩
    · exact .inl hres
    · exact absurd (Nat.succ_injective (hlast'.trans hlast.symm)) hia
  · -- a new approval: the segment was suspended
    rw [List.getElem?_append_right (Nat.le_of_not_lt hlt)] at hrow'
    rcases he : seg.2 with st | _ | ⟨s, rest', st⟩
    · rw [he] at hcreated
      obtain rfl : extra = [] := hcreated
      simp at hrow'
    · rw [he] at hcreated
      obtain rfl : extra = [] := hcreated
      simp at hrow'
    · rw [he] at hcreated
      obtain ⟨row'', rfl, hasks⟩ := hcreated
      rw [List.getElem?_singleton] at hrow'
      split at hrow'
      swap
      · cases hrow'
      rename_i h0
      cases hrow'
      have hnew : i = w.db.approvals.length :=
        Nat.le_antisymm (Nat.sub_eq_zero_iff_le.mp h0) (Nat.le_of_not_lt hlt)
      obtain ⟨sn', pre', hwait'⟩ := @waiting_created env steps l row row' sn pre rest (callsOf w.log)
        taskId s rest' st h.ordered hwait hopen.entries (hseg ▸ he) hasks
      rw [hseg] at hwait'
      refine .inr ⟨?_, sn', pre', rest', hwait'⟩
      rw [hm.rows, List.length_modify, List.length_append, List.length_singleton, hnew]

/-- **A resume keeps the chain.** -/
theorem keeps_resume {a : ApprovalId} (ha : base ≤ a) :
    Keeps env (Chain env steps base) (ApprovalResumeService.resume env a) := by
  rintro w ⟨l, h⟩
  by_cases hopen : ∃ row, w.db.approvals[a]? = some row ∧ row.status = .approved ∧ ¬ Resumed row
  · obtain ⟨row, hrow, hst, hres⟩ := hopen
    rcases h.rows a row ha hrow with hr | ⟨hlast, sn, pre, rest, hwait⟩
    · exact absurd hr hres
    obtain ⟨p, hp, hopen⟩ := hwait.payload
    have hspec := @ApprovalResumeService.resume_open_spec env _ _ _ _ _ _ _ hrow hst hp hopen hwait.toolName
      hwait.placed
    exact wp_mono hspec fun r w' hr => ⟨_, h.resumed hlast hwait hrow hopen hr⟩
  · have hclosed : ∀ row, w.db.approvals[a]? = some row → row.status = .approved →
        (Dict.get row.payloadDict "resumed").truthy = true := fun row hrow hst => by
      by_contra hres
      exact hopen ⟨row, hrow, hst, hres⟩
    exact wp_mono (ApprovalResumeService.resume_closed_spec hclosed) fun r w' hr => ⟨l, h.quiet hr.2⟩

/-! ## The requests of a chain -/

/-- What a request of a chain does outside of a resume. -/
def ChainOp : Op → Prop
  | .decidePending _ _ _ _ | .commitDecision _ _ _ _ => True
  | o => o.isQuiet = true

theorem ChainAt.op (h : ChainAt env steps base l w) {o : Op} (ho : ChainOp o) :
    ChainAt env steps base l (exec env 0 o w).2 := by
  have hquiet : o.isQuiet = true → ChainAt env steps base l (exec env 0 o w).2 := fun hq =>
    h.quiet (moves_quiet hq)
  cases o with
  | decidePending a st d r =>
    refine h.keep (fun row => ?_) (moves_exec rfl)
    split <;> exact ⟨rfl, rfl⟩
  | commitDecision a st d r =>
    exact h.keep (f := decideRow st d r) (fun row => ⟨rfl, rfl⟩) (moves_exec rfl)
  | _ => exact hquiet ho

theorem keeps_ops {α : Type} {p : Py α} (hu : p.Uses ChainOp) : Keeps env (Chain env steps base) p :=
  keeps_of_uses (fun _ ho _ hw => hw.imp fun _ h => h.op ho) hu

theorem decideOp_chainOp {a : ApprovalId} {st : ApprovalStatus} {o : Op} (h : DecideOp a st o) :
    ChainOp o := by
  cases o <;> trivial

section Endpoints

variable {a : ApprovalId} (ha : base ≤ a) {req : DecideRequest} {backend : Backend}

include ha

theorem keeps_doResume : Keeps env (Chain env steps base) (doResume env a) := by
  refine Keeps.tryCatch (Keeps.bind (keeps_ops (Prog.uses_call.mpr rfl)) fun approval => ?_)
    fun _ => keeps_pure
  cases approval with
  | none => exact keeps_pure
  | some approval =>
    dsimp only
    split
    · exact keeps_ops (Prog.Uses.bind (recordTrace_uses (P := ChainOp) rfl) fun _ =>
        Prog.Uses.bind (recordAudit_uses rfl) fun _ => trivial)
    · exact keeps_resume ha

theorem keeps_autoResume : Keeps env (Chain env steps base) (autoResume env a req) := by
  unfold autoResume
  split
  · exact (keeps_doResume ha).bind fun _ => keeps_pure
  · exact keeps_pure

theorem keeps_approve : Keeps env (Chain env steps base) (approve env backend a req) := by
  refine Keeps.bind (keeps_ops (Prog.uses_call.mpr rfl)) fun previous => ?_
  cases previous with
  | none => exact keeps_pure
  | some previous =>
    refine Keeps.bind (keeps_ops (checkApproveReason_uses (fun _ _ _ => rfl) fun _ => rfl)) fun _ => ?_
    split
    · exact keeps_pure
    split
    · exact (keeps_autoResume ha).bind fun _ => keeps_pure
    unfold approvePending
    refine Keeps.bind (keeps_ops (decideApproval_uses.mono fun _ h => decideOp_chainOp h)) fun decided =>
      Keeps.bind (keeps_ops (Prog.uses_ofExcept _)) fun result => ?_
    split
    · exact keeps_ops (Prog.Uses.bind (recordTrace_uses (P := ChainOp) rfl) fun _ => trivial)
    · exact Keeps.bind (keeps_ops (recordDecision_uses (fun _ _ _ => rfl) fun _ => rfl)) fun _ =>
        (keeps_autoResume ha).bind fun _ => keeps_pure

omit ha in
theorem keeps_reject : Keeps env (Chain env steps base) (reject env backend a req) := by
  refine keeps_ops (reject_uses.mono fun o h => ?_)
  rcases h with h | h
  · exact decideOp_chainOp h
  · cases o <;> first | rfl | exact h.elim

theorem keeps_manualResumeApproval :
    Keeps env (Chain env steps base) (manualResumeApproval env a) := by
  refine Keeps.bind (keeps_ops (Prog.uses_call.mpr rfl)) fun approval => ?_
  cases approval with
  | none => exact keeps_pure
  | some approval =>
    dsimp only
    split
    · exact keeps_pure
    split
    · exact keeps_pure
    · exact (keeps_doResume ha).bind fun _ => keeps_pure

end Endpoints

/-- A request that decides or resumes an approval from `base` on. -/
def Request.OnChain (base : ApprovalId) : Request → Prop
  | .approve a _ | .reject a _ | .resume a | .manualResume a => base ≤ a
  | .runKeyword _ _ | .expireOld _ => False

theorem keeps_request {sv : Service} {r : Request} (h : r.OnChain base) :
    Keeps sv.env (Chain sv.env steps base) (r.code sv) := by
  cases r with
  | approve a req => exact keeps_approve h
  | reject a req => exact keeps_reject
  | resume a => exact keeps_resume h
  | manualResume a => exact keeps_manualResumeApproval h
  | runKeyword t q => exact h.elim
  | expireOld now => exact h.elim

/-! ## The chain -/

/-- The pipeline, and then the requests one after the other; a request that raises ends, and the next
one is served. -/
def chain (sv : Service) (planner : String → MultiToolPlan) (query taskId : String) (db : Db)
    (reqs : List Request) : World :=
  reqs.foldl (fun w r => (serve sv.env (r.code sv) w).2)
    (serve sv.env (MultiToolPipeline.run sv.env planner query taskId) ⟨db, []⟩).2

/-- The end of the pipeline run is the beginning of the chain. -/
theorem chainAt_started {plan : MultiToolPlan} {store : Bool} {query taskId : String} {db : Db}
    {r : Except PyExc Dict} {e : Workflow.End MultiToolPlanStep String Call MultiToolPipeline.State}
    (hids : (plan.steps.map MultiToolPlanStep.stepId).Nodup)
    (hrun : (planWorkflow env store).run (liveMemory env) plan.steps
      (MultiToolPipeline.State.init.flow []) = (l, e))
    (hends : MultiToolPipeline.EndsAs env plan taskId query ⟨db, []⟩
      (l.map (callEvent .pipelineStep)) e r w') :
    ChainAt env plan.steps db.approvals.length l w' := by
  have hsegment : Workflow.Segment (planWorkflow env store) plan.steps l e := by
    have h := @Workflow.run_ordered _ _ _ _ _ _ (planWorkflow env store) (liveMemory env) plan.steps
      plan.steps [] (MultiToolPipeline.State.init.flow []) .nil ⟨rfl, rfl⟩
    rwa [hrun] at h
  -- the order does not depend on the gates
  have hordered : (planWorkflow env true).Ordered plan.steps l :=
    ⟨hsegment.1.inOrder, hsegment.1.afterDeps⟩
  have hmade : ∀ x ∈ l, x.step ∈ plan.steps ∧ x.call.tool = x.step.toolName := fun x hx => by
    have hx' : x ∈ ((planWorkflow env store).run (liveMemory env) plan.steps
      (MultiToolPipeline.State.init.flow [])).1 := hrun ▸ hx
    obtain ⟨hmem, v, hv⟩ := Workflow.run_made hx'
    exact ⟨hmem, stepCallOf_tool hv⟩
  have hnone : ∀ a row, db.approvals.length ≤ a → db.approvals[a]? ≠ some row := fun a row ha hrow =>
    absurd (List.getElem?_eq_some_iff.mp hrow).1 (Nat.not_lt.mpr ha)
  have hcalls : toolCalls (l.map (callEvent .pipelineStep)) = l.map madeCall :=
    toolCalls_map_callEvent (fun _ => rfl) l
  cases e with
  | finished st =>
    obtain ⟨hm, -⟩ := hends
    refine ⟨hm.toolCalls.trans hcalls, hordered, hmade, fun a row ha hrow => ?_⟩
    rw [hm.rows] at hrow
    exact absurd hrow (hnone a row ha)
  | failed =>
    obtain ⟨hm, -⟩ := hends
    refine ⟨hm.toolCalls.trans hcalls, hordered, hmade, fun a row ha hrow => ?_⟩
    rw [hm.rows] at hrow
    exact absurd hrow (hnone a row ha)
  | suspended s rest st =>
    obtain ⟨row, hasks, hm, -⟩ := hends
    obtain ⟨⟨pre, hplaced⟩, hcompleted, hentries, -⟩ :=
      run_suspended_snapshot hids (congrArg Prod.snd hrun)
    obtain ⟨hat, hready⟩ := hsegment.2 s rest st rfl
    have hopen := @open_approvalPayload plan query s st.saved hentries
    rw [hcompleted] at hopen
    refine ⟨?_, hordered, hmade, fun a row' ha hrow => ?_⟩
    · rw [hm.toolCalls, toolCalls_append, hcalls]
      exact List.append_nil _
    rw [hm.rows] at hrow ⊢
    obtain rfl : a = db.approvals.length := by
      have hlt := (List.getElem?_eq_some_iff.mp hrow).1
      rw [List.length_append, List.length_singleton] at hlt
      exact Nat.le_antisymm (Nat.le_of_lt_succ hlt) ha
    rw [List.getElem?_concat_length] at hrow
    cases hrow
    exact .inr ⟨by simp, _, pre, rest, ⟨_, hasks.payload, hopen⟩, hasks.toolName, rfl, hplaced,
      ⟨hat.left, hat.done⟩, hready⟩

theorem chain_start {planner : String → MultiToolPlan} {query taskId : String} {db : Db}
    (hids : ((planner query).steps.map MultiToolPlanStep.stepId).Nodup) :
    wp (sequential env) (MultiToolPipeline.run env planner query taskId)
      (fun _ w' => Chain env (planner query).steps db.approvals.length w') ⟨db, []⟩ := by
  unfold MultiToolPipeline.run
  split
  · exact ⟨[], rfl, .nil, List.forall_mem_nil _, fun a row ha hrow =>
      absurd (List.getElem?_eq_some_iff.mp hrow).1 (Nat.not_lt.mpr ha)⟩
  exact wp_mono MultiToolPipeline.runSteps_spec fun r w' hends => ⟨_, chainAt_started hids rfl hends⟩

/-- **A chain follows its plan**: over the pipeline run and any sequence of decisions and resumes of the
approvals it leads to, every step succeeds at most once, in plan order, and after its dependencies. -/
theorem chain_follows_plan (sv : Service) (planner : String → MultiToolPlan) (query taskId : String)
    (db : Db) (reqs : List Request) (hids : ((planner query).steps.map MultiToolPlanStep.stepId).Nodup)
    (hreqs : ∀ r ∈ reqs, r.OnChain db.approvals.length) :
    FollowsPlan (planner query).steps (chain sv planner query taskId db reqs).log := by
  have hrun : ∀ w, Chain sv.env (planner query).steps db.approvals.length w →
      Chain sv.env (planner query).steps db.approvals.length
        (reqs.foldl (fun w r => (serve sv.env (r.code sv) w).2) w) := by
    induction reqs with
    | nil => exact fun w h => h
    | cons r reqs ih =>
      intro w h
      exact ih (fun r' hr' => hreqs r' (List.mem_cons_of_mem _ hr')) _
        (serve_of_wp (keeps_request (hreqs r List.mem_cons_self) w h))
  obtain ⟨l, h⟩ := hrun _ (serve_of_wp (@chain_start sv.env planner query taskId db hids))
  exact h.follows hids

/-- A report and a refund after it. -/
def demoPlan : MultiToolPlan where
  matched := true
  intent := "demo"
  steps := [⟨"s1", "report", [], [], some "x"⟩, ⟨"s2", "refund", [], ["s1"], none⟩]
  responseTemplate := "done"
  reason := ""

theorem chain_follows_plan_demo :
    FollowsPlan demoPlan.steps (chain demoService (fun _ => demoPlan) "q" "t" ⟨[], fun _ => none, []⟩
      [.approve 0 demoRequest, .resume 0, .manualResume 0]).log :=
  chain_follows_plan demoService (fun _ => demoPlan) "q" "t" ⟨[], fun _ => none, []⟩ _ (by decide)
    fun r hr => by
      simp only [List.mem_cons, List.not_mem_nil, or_false] at hr
      rcases hr with rfl | rfl | rfl <;> exact Nat.zero_le _

end AgentHarness
