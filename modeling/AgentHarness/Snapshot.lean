import AgentHarness.PlanFlow
import AgentHarness.ApprovalResume

/-!
# Snapshot — what a suspended plan leaves in its approval

A `Snapshot` is the step that waits, the plan, the completed steps and the tool calls made so far;
`Snapshot.In sn p` says that the payload `p` carries it.  The payloads of the pipeline and of the
resume service carry the snapshot of the state they were made in, through their JSON column.

`durableMemory` is the memory of a resumed plan: the results of the calls in the payload, and the
records of the steps the resume ran itself.
-/

namespace AgentHarness

open Lib Py

/-! ## JSON -/

namespace PyVal

mutual
/-- Reading a JSON column back a second time changes nothing. -/
theorem jsonable_jsonable : ∀ v : PyVal, v.jsonable.jsonable = v.jsonable
  | .list l => by
    simp only [jsonable]
    exact congrArg list (jsonableList_jsonableList l)
  | .dict d => by
    simp only [jsonable]
    exact congrArg dict (jsonableDict_jsonableDict d)
  | .null | .bool _ | .int _ | .float _ | .str _ | .object _ => by simp only [jsonable]

theorem jsonableList_jsonableList : ∀ l : List PyVal, jsonableList (jsonableList l) = jsonableList l
  | [] => rfl
  | v :: l => by
    simp only [jsonableList]
    rw [jsonable_jsonable v, jsonableList_jsonableList l]

theorem jsonableDict_jsonableDict :
    ∀ d : List (String × PyVal), jsonableDict (jsonableDict d) = jsonableDict d
  | [] => rfl
  | (k, v) :: d => by
    simp only [jsonableDict]
    rw [jsonable_jsonable v, jsonableDict_jsonableDict d]
end

@[simp] theorem jsonable_str (s : String) : (str s).jsonable = str s := by simp only [jsonable]

@[simp] theorem jsonable_list (l : List PyVal) : (list l).jsonable = list (l.map jsonable) := by
  simp only [jsonable, jsonableList_eq_map]

@[simp] theorem jsonable_dict (d : Dict) : (dict d).jsonable = dict (Dict.jsonable d) := by
  simp only [jsonable, Dict.jsonable]

theorem map_jsonable_str (l : List String) : (l.map str).map jsonable = l.map str := by
  simp

@[simp] theorem jsonable_optStr (o : Option String) : (optStr o).jsonable = optStr o := by
  cases o <;> simp [optStr, jsonable]

end PyVal

theorem Dict.jsonable_jsonable (d : Dict) : (Dict.jsonable d).jsonable = Dict.jsonable d :=
  PyVal.jsonableDict_jsonableDict d

/-- The step as the plan in a payload has it. -/
def MultiToolPlanStep.stored (s : MultiToolPlanStep) : MultiToolPlanStep :=
  { s with arguments := Dict.jsonable s.arguments }

@[simp] theorem MultiToolPlanStep.stored_stored (s : MultiToolPlanStep) : s.stored.stored = s.stored := by
  simp only [stored, Dict.jsonable_jsonable]

theorem MultiToolPlanStep.modelDump_jsonable (s : MultiToolPlanStep) :
    s.modelDump.jsonable = s.stored.modelDump := by
  simp [modelDump, stored, Dict.jsonable, PyVal.jsonableDict]

theorem storedSteps_jsonable (steps : List MultiToolPlanStep) :
    (steps.map fun s => s.stored.modelDump).map PyVal.jsonable =
      steps.map fun s => s.stored.modelDump := by
  simp [MultiToolPlanStep.modelDump_jsonable]

/-! ## The calls in a payload -/

/-- An entry of `tool_calls` as both loops write it. -/
def IsStepCall (tc : PyVal) : Prop :=
  ∃ (d : Dict) (stepId : String) (saveAs : Option String), tc = .dict d ∧
    Dict.get? d "step_id" = some (.str stepId) ∧ Dict.get? d "save_as" = some (optStr saveAs)

theorem isStepCall_callData {s : MultiToolPlanStep} {r : ToolCallRecord} :
    IsStepCall (.dict (MultiToolPipeline.callData s r)) :=
  ⟨_, s.stepId, s.saveAs, rfl, by simp [MultiToolPipeline.callData],
    by simp [MultiToolPipeline.callData]⟩

theorem IsStepCall.jsonable {tc : PyVal} (h : IsStepCall tc) : IsStepCall tc.jsonable := by
  obtain ⟨d, stepId, saveAs, rfl, hid, hsave⟩ := h
  exact ⟨Dict.jsonable d, stepId, saveAs, PyVal.jsonable_dict d, by simp [Dict.get?_jsonable, hid],
    by simp [Dict.get?_jsonable, hsave]⟩

namespace ApprovalResumeService

theorem isStepCall_stepCall {stepId : String} {toolName : PyVal} {r : ToolCallRecord}
    {saveAs : Option String} : IsStepCall (.dict (stepCall (.str stepId) toolName r (optStr saveAs))) :=
  ⟨_, stepId, saveAs, rfl, by simp [stepCall], by simp [stepCall]⟩

/-- The results of such entries can be rebuilt. -/
theorem rebuildSaved_ok {l : List PyVal} (h : ∀ tc ∈ l, IsStepCall tc) (saved : List (String × Saved)) :
    ∃ saved', rebuildSaved l saved = .ok saved' := by
  induction l generalizing saved with
  | nil => exact ⟨saved, rfl⟩
  | cons tc l ih =>
    have ih := ih fun x hx => h x (List.mem_cons_of_mem _ hx)
    obtain ⟨d, stepId, saveAs, rfl, hid, hsave⟩ := h tc List.mem_cons_self
    have hget : ∀ k v, Dict.get? d k = some v → (PyVal.dict d).get k = .ok v := fun k v hk => by
      simp only [PyVal.get, PyVal.getD, Dict.getD, hk, Option.getD_some]
    have hkey : ∃ k, (optStr saveAs).or (.str stepId) = .str k := by
      cases saveAs with
      | none => exact ⟨stepId, rfl⟩
      | some s =>
        by_cases hs : s = ""
        · exact ⟨stepId, by simp [optStr, PyVal.or, hs]⟩
        · exact ⟨s, by simp [optStr, PyVal.or, hs]⟩
    obtain ⟨k, hk⟩ := hkey
    unfold rebuildSaved
    rw [hget _ _ hsave, hget _ _ hid]
    simp only [bind, Except.bind, hk, PyVal.get, PyVal.getD]
    split
    · split
      · exact ih _
      · exact ih _
    · split
      · exact ih _
      · exact ih _

/-- `_rebuild_saved` of well-formed entries. -/
def loadSaved (toolCalls : List PyVal) : List (String × Saved) :=
  match rebuildSaved toolCalls [] with
  | .ok saved => saved
  | .error _ => []

theorem rebuildSaved_eq {l : List PyVal} (h : ∀ tc ∈ l, IsStepCall tc) :
    rebuildSaved l [] = .ok (loadSaved l) := by
  obtain ⟨saved, hs⟩ := rebuildSaved_ok h []
  simp only [loadSaved, hs]

/-! ## The memory of a resumed plan -/

/-- What a resume keeps while it runs steps: the results it can read, and the calls to report. -/
structure Resumed where
  saved : List (String × Saved)
  toolCalls : List PyVal

/-- The memory restored from the entries of a payload. -/
def Resumed.load (toolCalls : List PyVal) : Resumed := ⟨loadSaved toolCalls, toolCalls⟩

/-- The memory after the entries went through a payload. -/
def Resumed.reload (m : Resumed) : Resumed := .load (m.toolCalls.map PyVal.jsonable)

/-- `if save_as: saved[save_as] = record`, for the `save_as` of a plan. -/
def saveResult (saveAs : Option String) (r : ToolCallRecord) (saved : List (String × Saved)) :
    List (String × Saved) :=
  match saveAs with
  | none => saved
  | some k => if k = "" then saved else (k, .record r) :: saved

theorem saveRecord_optStr (saveAs : Option String) (r : ToolCallRecord)
    (saved : List (String × Saved)) :
    saveRecord (optStr saveAs) r saved = .ok (saveResult saveAs r saved) := by
  cases saveAs with
  | none => rfl
  | some k => by_cases hk : k = "" <;> simp [saveRecord, optStr, saveResult, hk]

def Resumed.after (m : Resumed) (s : MultiToolPlanStep) (r : ToolCallRecord) : Resumed where
  saved := saveResult s.saveAs r m.saved
  toolCalls := m.toolCalls ++ [.dict (stepCall (.str s.stepId) (.str s.toolName) r (optStr s.saveAs))]

def durableMemory (env : Env) : Memory MultiToolPlanStep Call ToolCallRecord Resumed where
  resolve m s := stepCallOf s (resolveArguments env (.dict (Dict.jsonable s.arguments)) m.saved)
  save m s r := m.after s r

end ApprovalResumeService

/-- The memory with which the pipeline's state is resumed. -/
def MultiToolPipeline.State.handoff (st : State) : ApprovalResumeService.Resumed :=
  .load (st.toolCalls.map PyVal.jsonable)

/-! ## Payloads -/

structure Snapshot where
  step : MultiToolPlanStep
  steps : List MultiToolPlanStep
  completed : List String
  toolCalls : List PyVal

/-- The payload carries the snapshot. -/
structure Snapshot.In (sn : Snapshot) (p : Dict) : Prop where
  mode : p.get? "mode" = some (.str "multitool")
  stepId : p.get? "step_id" = some (.str sn.step.stepId)
  toolName : p.get? "tool_name" = some (.str sn.step.toolName)
  arguments : p.get? "arguments" = some (.dict (Dict.jsonable sn.step.arguments))
  plan : ∃ d, p.get? "plan" = some (.dict d) ∧
    Dict.get? d "steps" = some (.list (sn.steps.map fun s => s.stored.modelDump))
  completed : p.get? "completed_step_ids" = some (.list (sn.completed.map .str))
  toolCalls : p.get? "tool_calls" = some (.list sn.toolCalls)
  entries : ∀ tc ∈ sn.toolCalls, IsStepCall tc
  entriesJson : sn.toolCalls.map PyVal.jsonable = sn.toolCalls

/-- A payload that carries a snapshot and was not resumed yet. -/
structure Snapshot.Open (sn : Snapshot) (p : Dict) : Prop extends sn.In p where
  notResumed : p.get? "resumed" = none
  attempts : p.get? "resume_attempt_count" = none ∨
    ∃ n, p.get? "resume_attempt_count" = some (.int n)

/-- A snapshot whose waiting step has its place in the plan. -/
structure Snapshot.Placed (sn : Snapshot) (pre rest : List MultiToolPlanStep) : Prop where
  steps : sn.steps = pre ++ sn.step :: rest
  ids : (sn.steps.map MultiToolPlanStep.stepId).Nodup
  completed : sn.completed = pre.map MultiToolPlanStep.stepId

theorem map_jsonable_map (l : List PyVal) :
    (l.map PyVal.jsonable).map PyVal.jsonable = l.map PyVal.jsonable := by
  simp [PyVal.jsonable_jsonable]

/-- The payload the pipeline creates. -/
theorem open_approvalPayload {plan : MultiToolPlan} {query : String} {s : MultiToolPlanStep}
    {st : MultiToolPipeline.State} (h : ∀ tc ∈ st.toolCalls, IsStepCall tc) :
    (Snapshot.mk s plan.steps st.completed (st.toolCalls.map PyVal.jsonable)).Open
      (Dict.jsonable (MultiToolPipeline.approvalPayload plan query s st)) := by
  have hplan : (Dict.jsonable (MultiToolPipeline.approvalPayload plan query s st)).get? "plan" =
      some plan.modelDump.jsonable := by
    simp [Dict.get?_jsonable, MultiToolPipeline.approvalPayload]
  refine ⟨⟨?_, ?_, ?_, ?_, ⟨_, hplan.trans (congrArg some (PyVal.jsonable_dict _)), ?_⟩, ?_, ?_, ?_,
    map_jsonable_map _⟩, ?_, .inl ?_⟩
  · simp [Dict.get?_jsonable, MultiToolPipeline.approvalPayload]
  · simp [Dict.get?_jsonable, MultiToolPipeline.approvalPayload]
  · simp [Dict.get?_jsonable, MultiToolPipeline.approvalPayload]
  · simp [Dict.get?_jsonable, MultiToolPipeline.approvalPayload]
  · simp [Dict.get?_jsonable, MultiToolPlanStep.modelDump_jsonable]
  · simp [Dict.get?_jsonable, MultiToolPipeline.approvalPayload]
  · simp [Dict.get?_jsonable, MultiToolPipeline.approvalPayload]
  · intro tc htc
    obtain ⟨tc', htc', rfl⟩ := List.mem_map.mp htc
    exact (h tc' htc').jsonable
  · simp [Dict.get?_jsonable, MultiToolPipeline.approvalPayload]
  · simp [Dict.get?_jsonable, MultiToolPipeline.approvalPayload]

/-- Where a suspended run of the pipeline stands: the payload it creates carries the state. -/
theorem run_suspended_snapshot {plan : MultiToolPlan} {store : Bool} {s : MultiToolPlanStep}
    {rest : List MultiToolPlanStep}
    {st : Workflow.State String Call MultiToolPipeline.State}
    (hids : (plan.steps.map MultiToolPlanStep.stepId).Nodup)
    (h : ((planWorkflow env store).run (liveMemory env) plan.steps
      (MultiToolPipeline.State.init.flow [])).2 = .suspended s rest st) :
    (∃ pre, (⟨s, plan.steps, st.done, st.saved.toolCalls.map PyVal.jsonable⟩ : Snapshot).Placed pre rest) ∧
      st.saved.completed = st.done ∧ (∀ tc ∈ st.saved.toolCalls, IsStepCall tc) ∧
      st.history = ((planWorkflow env store).run (liveMemory env) plan.steps
        (MultiToolPipeline.State.init.flow [])).1.map Workflow.Made.call := by
  obtain ⟨⟨mid, hmid, hdone⟩, hhist⟩ := Workflow.run_suspended h
  obtain ⟨hcompleted, hentries⟩ := @Workflow.run_saved _ _ _ _ _ _ _ _ _ _
    (fun st => st.saved.completed = st.done ∧ ∀ tc ∈ st.saved.toolCalls, IsStepCall tc)
    (fun st x hst => ⟨congrArg (· ++ [x.step.stepId]) hst.1, fun tc htc => by
      rcases List.mem_append.mp htc with htc | htc
      · exact hst.2 tc htc
      · rw [List.mem_singleton.mp htc]
        exact isStepCall_callData⟩)
    ⟨rfl, List.forall_mem_nil _⟩ _ _ _ h
  exact ⟨⟨mid, hmid, hids, hdone⟩, hcompleted, hentries, hhist⟩

/-- The payload a resume creates for a later step. -/
theorem open_nextPayload {s : MultiToolPlanStep} {steps : List MultiToolPlanStep}
    {completed : List String} {toolCalls : List PyVal} (h : ∀ tc ∈ toolCalls, IsStepCall tc) :
    (Snapshot.mk s steps completed (toolCalls.map PyVal.jsonable)).Open
      (Dict.jsonable (ApprovalResumeService.nextPayload (.str s.stepId) (.str s.toolName)
        (.dict (Dict.jsonable s.arguments)) (.list (steps.map fun s => s.stored.modelDump))
        (completed.map .str) toolCalls)) := by
  refine ⟨⟨?_, ?_, ?_, ?_, ⟨[("steps", .list (steps.map fun s => s.stored.modelDump))], ?_, ?_⟩, ?_, ?_,
    ?_, map_jsonable_map _⟩, ?_, .inl ?_⟩
  · simp [Dict.get?_jsonable, ApprovalResumeService.nextPayload]
  · simp [Dict.get?_jsonable, ApprovalResumeService.nextPayload]
  · simp [Dict.get?_jsonable, ApprovalResumeService.nextPayload]
  · simp [Dict.get?_jsonable, ApprovalResumeService.nextPayload, Dict.jsonable_jsonable]
  · simp [ApprovalResumeService.nextPayload, Dict.jsonable, PyVal.jsonableDict,
      MultiToolPlanStep.modelDump_jsonable]
  · simp
  · simp [Dict.get?_jsonable, ApprovalResumeService.nextPayload]
  · simp [Dict.get?_jsonable, ApprovalResumeService.nextPayload]
  · intro tc htc
    obtain ⟨tc', htc', rfl⟩ := List.mem_map.mp htc
    exact (h tc' htc').jsonable
  · simp [Dict.get?_jsonable, ApprovalResumeService.nextPayload]
  · simp [Dict.get?_jsonable, ApprovalResumeService.nextPayload]

/-- The keys a failed attempt writes. -/
def attemptKeys : List String :=
  ["resume_status", "last_resume_result", "last_resume_error", "resume_attempt_count"]

/-- A failed attempt leaves the snapshot in the payload. -/
theorem Snapshot.Open.update {sn : Snapshot} {p u : Dict} (h : sn.Open p)
    (hu : ∀ kv ∈ u, kv.1 ∈ attemptKeys)
    (hn : ∃ n, (p.update u).get? "resume_attempt_count" = some (.int n)) :
    sn.Open (p.update u).jsonable := by
  have hget : ∀ k, k ∉ attemptKeys → ((p.update u).jsonable).get? k = (p.get? k).map PyVal.jsonable :=
    fun k hk => by
      rw [Dict.get?_jsonable, Dict.get?_update_of_not_mem]
      rintro kv hkv rfl
      exact hk (hu kv hkv)
  obtain ⟨d, hd, hsteps⟩ := h.plan
  refine ⟨⟨?_, ?_, ?_, ?_, ⟨Dict.jsonable d, ?_, ?_⟩, ?_, ?_, h.entries, h.entriesJson⟩, ?_, .inr ?_⟩
  · simp [hget _ (show "mode" ∉ attemptKeys by decide), h.mode]
  · simp [hget _ (show "step_id" ∉ attemptKeys by decide), h.stepId]
  · simp [hget _ (show "tool_name" ∉ attemptKeys by decide), h.toolName]
  · simp [hget _ (show "arguments" ∉ attemptKeys by decide), h.arguments, Dict.jsonable_jsonable]
  · simp [hget _ (show "plan" ∉ attemptKeys by decide), hd]
  · rw [Dict.get?_jsonable, hsteps]
    simp [MultiToolPlanStep.modelDump_jsonable]
  · simp [hget _ (show "completed_step_ids" ∉ attemptKeys by decide), h.completed]
  · rw [hget _ (show "tool_calls" ∉ attemptKeys by decide), h.toolCalls]
    simp [h.entriesJson]
  · rw [hget _ (show "resumed" ∉ attemptKeys by decide), h.notResumed]
    rfl
  · obtain ⟨n, hn⟩ := hn
    exact ⟨n, by rw [Dict.get?_jsonable, hn]; simp [PyVal.jsonable]⟩

end AgentHarness
