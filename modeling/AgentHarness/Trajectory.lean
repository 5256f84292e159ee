import AgentHarness.Planner
import AgentHarness.Lib.Rounding
import Mathlib.Algebra.Order.BigOperators.Group.List

/-!
# Trajectory — `TrajectoryEvaluator.evaluate`

The evaluator makes up to six checks, each with a score and its issues, and takes the mean.  A trace that holds all
events of another one is never worse off in a check that only asks for events: `checks_le` says so for all checks at
once, and both the monotonicity of the evaluation and its independence of the order come from it.

Scores are exact; `round` is the one of Python.
-/

namespace AgentHarness

open Lib

structure TrajectoryExpectation where
  expectedMode : Option String
  expectedRoles : List String
  expectedTools : List String
  expectedEvents : List String
  approvalRequired : Option Bool
  maxSteps : Option Int
  allowFallback : Bool

structure TrajectoryEvalResult where
  passed : Bool
  score : ℚ
  issues : List String
  matchedRoles : List String
  matchedTools : List String
  matchedEvents : List String

/-- What a trace holds of an event: its type and its detail, empty where it has none. -/
structure TrajectoryEvent where
  eventType : String
  detail : Dict

mutual
/-- `extract_tool_names` -/
def extractToolNames : PyVal → List String
  | .dict d => extractToolNamesOfDict d
  | .list l => extractToolNamesOfList l
  | .null | .bool _ | .int _ | .float _ | .str _ | .object _ => []

def extractToolNamesOfDict : List (String × PyVal) → List String
  | [] => []
  | (key, .str value) :: d =>
    (if key = "tool_name" ∨ key = "tool_called" then [value] else []) ++ extractToolNamesOfDict d
  | (_, value) :: d => extractToolNames value ++ extractToolNamesOfDict d

def extractToolNamesOfList : List PyVal → List String
  | [] => []
  | item :: l => extractToolNames item ++ extractToolNamesOfList l
end

/-- One check: its part of the score, and its issues. -/
structure Check where
  score : ℚ
  issues : List String

/-- `str` of a value, and of a set of values. -/
structure Texts where
  str : PyVal → String
  ofSet : List PyVal → String

namespace TrajectoryEvaluator

variable (x : Texts)

/-- `d.get(key) == mode` -/
def detailIs (key mode : String) (event : TrajectoryEvent) : Bool :=
  match Dict.get event.detail key with
  | .str s => s = mode
  | _ => false

def modeFound (mode : String) (events : List TrajectoryEvent) : Bool :=
  events.any fun event => detailIs "selected_mode" mode event || detailIs "executed_mode" mode event ||
    occursIn mode event.eventType

/-- A list or a dict is not put into a set. -/
def hashable : PyVal → Bool
  | .list _ | .dict _ => false
  | _ => true

/-- `fallback_modes` -/
def fallbackModes : List TrajectoryEvent → Except PyExc (List PyVal)
  | [] => .ok []
  | event :: events =>
    let mode := Dict.get event.detail "executed_mode"
    if mode.truthy then
      if hashable mode then (fallbackModes events).map (mode :: ·) else .error (.typeError "unhashable type")
    else fallbackModes events

def modeCheck (mode : String) (allowFallback : Bool) (events : List TrajectoryEvent) : Except PyExc Check :=
  if modeFound mode events then .ok ⟨1, []⟩
  else if allowFallback then do
    let modes ← fallbackModes events
    if modes = [] then .ok ⟨0, ["critical: mode 期望 " ++ mode ++ "，未找到"]⟩
    else .ok ⟨1 / 2, ["mode 期望 " ++ mode ++ "，实际 " ++ x.ofSet modes ++ "（fallback）"]⟩
  else .ok ⟨0, ["critical: mode 期望 " ++ mode ++ "，未找到（不允许 fallback）"]⟩

def roleFound (events : List TrajectoryEvent) (role : String) : Bool :=
  events.any fun event => occursIn role event.eventType ||
    ((Dict.get event.detail "action").truthy && occursIn role (x.str (Dict.get event.detail "action")))

def toolFound (events : List TrajectoryEvent) (tool : String) : Bool :=
  events.any fun event => tool ∈ extractToolNames (.dict event.detail)

def eventFound (events : List TrajectoryEvent) (expected : String) : Bool :=
  events.any fun event => occursIn expected event.eventType

/-- The check that all of the expected names are found. -/
def coverageCheck (label : String) (expected : List String) (found : String → Bool) : Check :=
  let matched := expected.filter found
  let missing := expected.filter fun name => !found name
  if missing = [] then ⟨1, []⟩
  else ⟨matched.length / expected.length, ["critical: 缺少" ++ label ++ " " ++ x.str (.list (missing.map .str))]⟩

def approvalCheck (required : Bool) (events : List TrajectoryEvent) : Check :=
  let approvalEvents := events.any fun event => occursIn "approval" event.eventType
  if required then
    if approvalEvents then ⟨1, []⟩ else ⟨0, ["critical: 期望有审批事件，但未找到"]⟩
  else if approvalEvents then ⟨0, ["critical: 不期望审批事件，但发现了审批相关事件"]⟩ else ⟨1, []⟩

def stepsCheck (maxSteps : Int) (events : List TrajectoryEvent) : Check :=
  if (events.length : Int) ≤ maxSteps then ⟨1, []⟩
  else ⟨0, ["critical: 步骤数 " ++ toString events.length ++ " 超过上限 " ++ toString maxSteps]⟩

def modeChecks (e : TrajectoryExpectation) (events : List TrajectoryEvent) : Except PyExc (List Check) :=
  match e.expectedMode with
  | none => .ok []
  | some mode => (modeCheck x mode e.allowFallback events).map ([·])

/-- The checks but that of the mode. -/
def moreChecks (e : TrajectoryExpectation) (events : List TrajectoryEvent) : List Check :=
  (if e.expectedRoles = [] then [] else [coverageCheck x "角色" e.expectedRoles (roleFound x events)]) ++
  (if e.expectedTools = [] then [] else [coverageCheck x "工具" e.expectedTools (toolFound events)]) ++
  (if e.expectedEvents = [] then [] else [coverageCheck x "事件" e.expectedEvents (eventFound events)]) ++
  (e.approvalRequired.map fun required => approvalCheck required events).toList ++
  (e.maxSteps.map fun maxSteps => stepsCheck maxSteps events).toList

/-- The checks that are made: `score_parts` has one entry for each, and `total_checks` counts them. -/
def checks (e : TrajectoryExpectation) (events : List TrajectoryEvent) : Except PyExc (List Check) :=
  (modeChecks x e events).map (· ++ moreChecks x e events)

def scoreOf (parts : List ℚ) : ℚ := if parts = [] then 1 else roundTo (parts.sum / parts.length) 4

/-- `i.startswith("critical:")` -/
def isCritical (issue : String) : Bool := "critical:".toList.isPrefixOf issue.toList

/-- The result, from the checks. -/
def conclude (e : TrajectoryExpectation) (events : List TrajectoryEvent) (made : List Check) : TrajectoryEvalResult :=
  let issues := made.flatMap Check.issues
  let score := scoreOf (made.map Check.score)
  { passed := (issues.filter isCritical).isEmpty && decide (4 / 5 ≤ score)
    score
    issues
    matchedRoles := e.expectedRoles.filter (roleFound x events)
    matchedTools := e.expectedTools.filter (toolFound events)
    matchedEvents := e.expectedEvents.filter (eventFound events) }

def evaluate (events : List TrajectoryEvent) (e : TrajectoryExpectation) : Except PyExc TrajectoryEvalResult :=
  (checks x e events).map (conclude x e events)

end TrajectoryEvaluator

open TrajectoryEvaluator

/-- One of the issues is critical. -/
def Check.critical (c : Check) : Bool := c.issues.any isCritical

/-- The other check is no worse. -/
structure Check.Le (a b : Check) : Prop where
  score : a.score ≤ b.score
  critical : b.critical = true → a.critical = true

/-- What every check comes to: between nothing and all, and all where it has no issue. -/
structure Check.Sound (c : Check) : Prop where
  nonneg : 0 ≤ c.score
  le_one : c.score ≤ 1
  clean : c.issues = [] → c.score = 1

theorem isCritical_append {a b : String} (h : isCritical a = true) : isCritical (a ++ b) = true := by
  unfold isCritical at h ⊢
  rw [List.isPrefixOf_iff_prefix] at h ⊢
  rw [String.toList_append]
  exact h.trans (List.prefix_append _ _)

/-- The issue of a fallback is not critical. -/
theorem isCritical_fallback {mode modes : String} :
    isCritical ("mode 期望 " ++ mode ++ "，实际 " ++ modes ++ "（fallback）") = false := by
  unfold isCritical
  simp only [String.append_assoc, String.toList_append]
  rfl

theorem Check.sound_full : Check.Sound ⟨1, []⟩ := ⟨zero_le_one, le_refl _, fun _ => rfl⟩

theorem Check.sound_failed {issue : String} : Check.Sound ⟨0, [issue]⟩ :=
  ⟨le_refl _, zero_le_one, fun h => absurd h (List.cons_ne_nil _ _)⟩

theorem Check.Le.refl (c : Check) : Check.Le c c := ⟨le_refl _, id⟩

/-- The check in full is no worse than any other. -/
theorem Check.Sound.le_full {c : Check} (h : c.Sound) : Check.Le c ⟨1, []⟩ :=
  ⟨h.le_one, fun hcritical => absurd hcritical Bool.false_ne_true⟩

/-- A check that failed is no better than any other. -/
theorem Check.Sound.failed_le {c : Check} {issue : String} (h : c.Sound) (hissue : isCritical issue = true) :
    Check.Le ⟨0, [issue]⟩ c :=
  ⟨h.nonneg, fun _ => by simp [Check.critical, hissue]⟩

/-! ## The checks -/

namespace TrajectoryEvaluator

variable {x : Texts} {events events' : List TrajectoryEvent} {mode : String} {allowFallback : Bool} {c c' : Check}

/-- The search for an event, in a trace that has all of them. -/
theorem any_of_subset {p : TrajectoryEvent → Bool} (hsub : events ⊆ events') (h : events.any p = true) :
    events'.any p = true := by
  obtain ⟨event, hmem, hp⟩ := List.any_eq_true.mp h
  exact List.any_eq_true.mpr ⟨event, hsub hmem, hp⟩

/-- An event has a mode that is no member of a set. -/
def Unhashable (event : TrajectoryEvent) : Prop :=
  (Dict.get event.detail "executed_mode").truthy = true ∧ hashable (Dict.get event.detail "executed_mode") = false

theorem fallbackModes_error : (∃ exc, fallbackModes events = .error exc) ↔ ∃ event ∈ events, Unhashable event := by
  induction events with
  | nil => simp [fallbackModes]
  | cons event events ih =>
    unfold fallbackModes Unhashable
    dsimp only
    rw [List.exists_mem_cons_iff]
    cases htruthy : (Dict.get event.detail "executed_mode").truthy with
    | false => simpa [Unhashable] using ih
    | true =>
      cases hhash : hashable (Dict.get event.detail "executed_mode") with
      | false => simp
      | true =>
        have hmap : (∃ exc, (fallbackModes events).map (Dict.get event.detail "executed_mode" :: ·) = .error exc) ↔
            ∃ exc, fallbackModes events = .error exc := by
          cases fallbackModes events <;> simp [Except.map]
        simpa [Unhashable] using hmap.trans ih

theorem fallbackModes_nil {modes : List PyVal} (h : fallbackModes events = .ok modes) :
    modes = [] ↔ ∀ event ∈ events, (Dict.get event.detail "executed_mode").truthy = false := by
  induction events generalizing modes with
  | nil =>
    obtain rfl := Except.ok.inj h
    simp
  | cons event events ih =>
    unfold fallbackModes at h
    dsimp only at h
    rw [List.forall_mem_cons]
    cases htruthy : (Dict.get event.detail "executed_mode").truthy with
    | false =>
      rw [htruthy] at h
      simpa using ih h
    | true =>
      rw [htruthy, if_pos rfl] at h
      split at h
      · cases hrest : fallbackModes events with
        | error exc =>
          rw [hrest] at h
          cases h
        | ok rest =>
          rw [hrest] at h
          obtain rfl := Except.ok.inj h
          simp
      · cases h

theorem modeCheck_sound (h : modeCheck x mode allowFallback events = .ok c) : c.Sound := by
  unfold modeCheck at h
  split_ifs at h
  · obtain rfl := Except.ok.inj h
    exact Check.sound_full
  · cases hmodes : fallbackModes events with
    | error exc =>
      rw [hmodes] at h
      cases h
    | ok modes =>
      rw [hmodes] at h
      change (if modes = [] then _ else _) = _ at h
      split_ifs at h
      · obtain rfl := Except.ok.inj h
        exact Check.sound_failed
      · obtain rfl := Except.ok.inj h
        exact ⟨by norm_num, by norm_num, fun hnil => absurd hnil (List.cons_ne_nil _ _)⟩
  · obtain rfl := Except.ok.inj h
    exact Check.sound_failed

theorem modeCheck_le (hsub : events ⊆ events') (h : modeCheck x mode allowFallback events = .ok c)
    (h' : modeCheck x mode allowFallback events' = .ok c') : Check.Le c c' := by
  have hsound := modeCheck_sound h
  have hsound' := modeCheck_sound h'
  unfold modeCheck at h h'
  by_cases hfound' : modeFound mode events' = true
  · rw [if_pos hfound'] at h'
    obtain rfl := Except.ok.inj h'
    exact hsound.le_full
  · have hfound : ¬ modeFound mode events = true := fun hfound => hfound' (any_of_subset hsub hfound)
    rw [if_neg hfound] at h
    rw [if_neg hfound'] at h'
    split_ifs at h h' with hallow
    · cases hmodes : fallbackModes events with
      | error exc =>
        rw [hmodes] at h
        cases h
      | ok modes =>
        cases hmodes' : fallbackModes events' with
        | error exc =>
          rw [hmodes'] at h'
          cases h'
        | ok modes' =>
          rw [hmodes] at h
          rw [hmodes'] at h'
          change (if modes = [] then _ else _) = _ at h
          change (if modes' = [] then _ else _) = _ at h'
          by_cases hnil : modes = []
          · rw [if_pos hnil] at h
            obtain rfl := Except.ok.inj h
            refine hsound'.failed_le ?_
            rw [String.append_assoc]
            exact isCritical_append (by decide)
          · have hnil' : ¬ modes' = [] := by
              intro heq
              refine hnil ((fallbackModes_nil hmodes).mpr fun event hmem => ?_)
              exact (fallbackModes_nil hmodes').mp heq event (hsub hmem)
            rw [if_neg hnil] at h
            rw [if_neg hnil'] at h'
            obtain rfl := Except.ok.inj h
            obtain rfl := Except.ok.inj h'
            refine ⟨le_refl _, fun hcritical => ?_⟩
            rw [Check.critical, List.any_cons, isCritical_fallback] at hcritical
            exact absurd hcritical (by decide)
    · obtain rfl := Except.ok.inj h
      refine hsound'.failed_le ?_
      rw [String.append_assoc]
      exact isCritical_append (by decide)

variable {label : String} {expected : List String} {found found' : String → Bool}

theorem coverageCheck_sound (hne : expected ≠ []) : (coverageCheck x label expected found).Sound := by
  unfold coverageCheck
  dsimp only
  split_ifs
  · exact Check.sound_full
  · have hpos : (0 : ℚ) < expected.length := by exact_mod_cast List.length_pos_of_ne_nil hne
    have hle : ((expected.filter found).length : ℚ) ≤ expected.length := by
      exact_mod_cast List.length_filter_le _ _
    exact ⟨div_nonneg (Nat.cast_nonneg _) hpos.le, (div_le_one hpos).mpr hle,
      fun hnil => absurd hnil (List.cons_ne_nil _ _)⟩

theorem coverageCheck_le (hne : expected ≠ []) (hfound : ∀ name, found name = true → found' name = true) :
    Check.Le (coverageCheck x label expected found) (coverageCheck x label expected found') := by
  have hsound := @coverageCheck_sound x label expected found hne
  by_cases hmissing' : (expected.filter fun name => !found' name) = []
  · have hfull : coverageCheck x label expected found' = ⟨1, []⟩ := if_pos hmissing'
    rw [hfull]
    exact hsound.le_full
  · have hmissing : (expected.filter fun name => !found name) ≠ [] := by
      obtain ⟨name, hname⟩ := List.exists_mem_of_ne_nil _ hmissing'
      rw [List.mem_filter] at hname
      refine List.ne_nil_of_mem (List.mem_filter.mpr ⟨hname.1, ?_⟩) (a := name)
      cases hold : found name with
      | false => rfl
      | true =>
        rw [hfound name hold] at hname
        exact absurd hname.2 Bool.false_ne_true
    have hlen : ((expected.filter found).length : ℚ) ≤ (expected.filter found').length := by
      exact_mod_cast (List.monotone_filter_right expected fun name => hfound name).length_le
    unfold coverageCheck
    dsimp only
    rw [if_neg hmissing, if_neg hmissing']
    refine ⟨div_le_div_of_nonneg_right hlen (Nat.cast_nonneg _), fun _ => ?_⟩
    unfold Check.critical
    rw [List.any_cons, String.append_assoc, String.append_assoc,
      isCritical_append (a := "critical: 缺少") (by decide), Bool.true_or]

theorem approvalCheck_sound {required : Bool} : (approvalCheck required events).Sound := by
  unfold approvalCheck
  dsimp only
  split_ifs
  · exact Check.sound_full
  · exact Check.sound_failed
  · exact Check.sound_failed
  · exact Check.sound_full

/-- More events are no worse, unless none of an approval is wanted. -/
theorem approvalCheck_le {required : Bool} (hsub : events ⊆ events') (hrequired : required = true ∨ events' ⊆ events) :
    Check.Le (approvalCheck required events) (approvalCheck required events') := by
  have hany : (events.any fun event => occursIn "approval" event.eventType) = true →
      (events'.any fun event => occursIn "approval" event.eventType) = true := any_of_subset hsub
  cases required with
  | true =>
    unfold approvalCheck
    dsimp only
    rw [if_pos rfl, if_pos rfl]
    cases hevents' : events'.any fun event => occursIn "approval" event.eventType with
    | true =>
      have hsound := @approvalCheck_sound events true
      exact hsound.le_full
    | false =>
      have hevents : (events.any fun event => occursIn "approval" event.eventType) = false := by
        rw [← Bool.not_eq_true]
        intro h
        rw [hany h] at hevents'
        cases hevents'
      rw [hevents]
      exact Check.Le.refl _
  | false =>
    have hback : events' ⊆ events := hrequired.resolve_left Bool.false_ne_true
    have hsame : (events.any fun event => occursIn "approval" event.eventType) =
        events'.any fun event => occursIn "approval" event.eventType :=
      Bool.eq_iff_iff.mpr ⟨hany, any_of_subset hback⟩
    unfold approvalCheck
    dsimp only
    rw [hsame]
    exact Check.Le.refl _

theorem stepsCheck_sound {maxSteps : Int} : (stepsCheck maxSteps events).Sound := by
  unfold stepsCheck
  split_ifs
  · exact Check.sound_full
  · exact Check.sound_failed

/-! ## All checks -/

variable {e : TrajectoryExpectation} {made made' : List Check}

theorem map_eq_ok {α β : Type} {r : Except PyExc α} {f : α → β} {b : β} :
    r.map f = .ok b ↔ ∃ a, r = .ok a ∧ f a = b := by
  cases r <;> simp [Except.map]

theorem modeChecks_le (hsub : events ⊆ events') (h : modeChecks x e events = .ok made)
    (h' : modeChecks x e events' = .ok made') : List.Forall₂ Check.Le made made' := by
  unfold modeChecks at h h'
  cases hmode : e.expectedMode with
  | none =>
    rw [hmode] at h h'
    obtain rfl := Except.ok.inj h
    obtain rfl := Except.ok.inj h'
    exact .nil
  | some mode =>
    rw [hmode] at h h'
    obtain ⟨c, hc, rfl⟩ := map_eq_ok.mp h
    obtain ⟨c', hc', rfl⟩ := map_eq_ok.mp h'
    exact .cons (modeCheck_le hsub hc hc') .nil

theorem modeChecks_sound (h : modeChecks x e events = .ok made) : ∀ c ∈ made, c.Sound := by
  unfold modeChecks at h
  cases hmode : e.expectedMode with
  | none =>
    rw [hmode] at h
    obtain rfl := Except.ok.inj h
    exact fun c hc => absurd hc List.not_mem_nil
  | some mode =>
    rw [hmode] at h
    obtain ⟨c, hc, rfl⟩ := map_eq_ok.mp h
    intro c' hc'
    rw [List.mem_singleton.mp hc']
    exact modeCheck_sound hc

/-- What more events must not do to an expectation: none of an approval is wanted, or too many are too many. -/
structure Grows (e : TrajectoryExpectation) (events events' : List TrajectoryEvent) : Prop where
  subset : events ⊆ events'
  approval : e.approvalRequired ≠ some false ∨ events' ⊆ events
  steps : e.maxSteps = none ∨ events'.length = events.length

theorem moreChecks_le (h : Grows e events events') :
    List.Forall₂ Check.Le (moreChecks x e events) (moreChecks x e events') := by
  have hcoverage : ∀ {label : String} {expected : List String} {found found' : String → Bool},
      (∀ name, found name = true → found' name = true) → List.Forall₂ Check.Le
        (if expected = [] then [] else [coverageCheck x label expected found])
        (if expected = [] then [] else [coverageCheck x label expected found']) := by
    intro label expected found found' hfound
    split_ifs with hne
    · exact .nil
    · exact .cons (coverageCheck_le hne hfound) .nil
  have hroles := @hcoverage "角色" e.expectedRoles _ _ fun role (hrole : roleFound x events role = true) =>
    (any_of_subset h.subset hrole : roleFound x events' role = true)
  have htools := @hcoverage "工具" e.expectedTools _ _ fun tool (htool : toolFound events tool = true) =>
    (any_of_subset h.subset htool : toolFound events' tool = true)
  have hevents := @hcoverage "事件" e.expectedEvents _ _ fun name (hname : eventFound events name = true) =>
    (any_of_subset h.subset hname : eventFound events' name = true)
  have happroval : List.Forall₂ Check.Le (e.approvalRequired.map fun required => approvalCheck required events).toList
      (e.approvalRequired.map fun required => approvalCheck required events').toList := by
    cases hrequired : e.approvalRequired with
    | none => exact .nil
    | some required =>
      refine .cons (approvalCheck_le h.subset ?_) .nil
      rcases h.approval with hno | hback
      · left
        rw [hrequired] at hno
        cases required with
        | true => rfl
        | false => exact absurd rfl hno
      · exact .inr hback
  have hsteps : List.Forall₂ Check.Le (e.maxSteps.map fun maxSteps => stepsCheck maxSteps events).toList
      (e.maxSteps.map fun maxSteps => stepsCheck maxSteps events').toList := by
    cases hmax : e.maxSteps with
    | none => exact .nil
    | some maxSteps =>
      have hlen := h.steps.resolve_left (by rw [hmax]; exact Option.some_ne_none _)
      have hsame : stepsCheck maxSteps events' = stepsCheck maxSteps events := by
        unfold stepsCheck
        rw [hlen]
      refine .cons ?_ .nil
      show Check.Le (stepsCheck maxSteps events) (stepsCheck maxSteps events')
      rw [hsame]
      exact Check.Le.refl _
  exact List.rel_append (List.rel_append (List.rel_append (List.rel_append hroles htools) hevents) happroval) hsteps

theorem moreChecks_sound : ∀ c ∈ moreChecks x e events, c.Sound := by
  have hcoverage : ∀ {label : String} {expected : List String} {found : String → Bool} {c : Check},
      c ∈ (if expected = [] then [] else [coverageCheck x label expected found]) → c.Sound := by
    intro label expected found c hc
    split_ifs at hc with hne
    · exact absurd hc List.not_mem_nil
    · rw [List.mem_singleton.mp hc]
      exact coverageCheck_sound hne
  intro c hc
  unfold moreChecks at hc
  simp only [List.mem_append, Option.mem_toList, Option.map_eq_some_iff] at hc
  rcases hc with (((hc | hc) | hc) | ⟨required, -, rfl⟩) | ⟨maxSteps, -, rfl⟩
  · exact hcoverage hc
  · exact hcoverage hc
  · exact hcoverage hc
  · exact approvalCheck_sound
  · exact stepsCheck_sound

theorem checks_le (hgrows : Grows e events events') (h : checks x e events = .ok made)
    (h' : checks x e events' = .ok made') : List.Forall₂ Check.Le made made' := by
  obtain ⟨first, hfirst, rfl⟩ := map_eq_ok.mp h
  obtain ⟨first', hfirst', rfl⟩ := map_eq_ok.mp h'
  exact List.rel_append (modeChecks_le hgrows.subset hfirst hfirst') (moreChecks_le hgrows)

theorem checks_sound (h : checks x e events = .ok made) : ∀ c ∈ made, c.Sound := by
  obtain ⟨first, hfirst, rfl⟩ := map_eq_ok.mp h
  intro c hc
  rcases List.mem_append.mp hc with hc | hc
  · exact modeChecks_sound hfirst c hc
  · exact moreChecks_sound c hc

/-- The evaluation raises where a mode is asked for, not found and not made up for: an event then has a mode that is
no member of a set. -/
theorem checks_error : (∃ exc, checks x e events = .error exc) ↔ ∃ mode, e.expectedMode = some mode ∧
    e.allowFallback = true ∧ modeFound mode events = false ∧ ∃ event ∈ events, Unhashable event := by
  have hmap : ∀ {α β : Type} {r : Except PyExc α} {f : α → β},
      (∃ exc, r.map f = .error exc) ↔ ∃ exc, r = .error exc := by
    intro α β r f
    cases r <;> simp [Except.map]
  have hmode : ∀ {mode : String} {allowFallback : Bool},
      (∃ exc, modeCheck x mode allowFallback events = .error exc) ↔
        allowFallback = true ∧ modeFound mode events = false ∧ ∃ event ∈ events, Unhashable event := by
    intro mode allowFallback
    rw [← fallbackModes_error]
    unfold modeCheck
    cases hfound : modeFound mode events with
    | true => simp
    | false =>
      cases allowFallback with
      | false => simp
      | true =>
        cases hmodes : fallbackModes events with
        | error exc => exact iff_of_true ⟨exc, rfl⟩ ⟨rfl, rfl, exc, rfl⟩
        | ok modes =>
          refine iff_of_false ?_ (by simp)
          rintro ⟨exc, hexc⟩
          change (if modes = [] then _ else _) = _ at hexc
          split_ifs at hexc
  unfold checks
  rw [hmap]
  unfold modeChecks
  cases e.expectedMode with
  | none => simp
  | some mode => simpa using hmap.trans hmode

/-! ## The evaluation -/

theorem isEmpty_critical : ((made.flatMap Check.issues).filter isCritical).isEmpty = true ↔
    ∀ c ∈ made, c.critical = false := by
  rw [List.isEmpty_iff, List.filter_eq_nil_iff]
  unfold Check.critical
  simp only [List.any_eq_false, List.mem_flatMap]
  exact ⟨fun h c hc issue hissue => h issue ⟨c, hc, hissue⟩, fun h issue ⟨c, hc, hissue⟩ => h c hc issue hissue⟩

theorem scoreOf_mono {parts parts' : List ℚ} (h : List.Forall₂ (· ≤ ·) parts parts') :
    scoreOf parts ≤ scoreOf parts' := by
  unfold scoreOf
  cases h with
  | nil => exact le_refl _
  | cons hp hrest =>
    rw [if_neg (List.cons_ne_nil _ _), if_neg (List.cons_ne_nil _ _)]
    refine roundTo_mono ?_ 4
    have hall := List.Forall₂.cons hp hrest
    rw [← hall.length_eq]
    exact div_le_div_of_nonneg_right hall.sum_le_sum (Nat.cast_nonneg _)

/-- Full marks for every check. -/
theorem scoreOf_one {parts : List ℚ} (h : ∀ p ∈ parts, p = 1) : scoreOf parts = 1 := by
  unfold scoreOf
  split_ifs with hnil
  · rfl
  · have hpos : ((parts.length : ℕ) : ℚ) ≠ 0 := by
      exact_mod_cast (List.length_pos_of_ne_nil hnil).ne'
    have hsum : parts.sum = parts.length := by
      rw [List.eq_replicate_of_mem h, List.sum_replicate, List.length_replicate, nsmul_eq_mul, mul_one]
    rw [hsum, div_self hpos]
    exact_mod_cast roundTo_intCast 1 4

theorem scoreOf_zero_le {parts : List ℚ} (h : ∀ p ∈ parts, 0 ≤ p) : 0 ≤ scoreOf parts := by
  unfold scoreOf
  split_ifs
  · exact zero_le_one
  · have hmean : 0 ≤ parts.sum / parts.length := div_nonneg (List.sum_nonneg h) (Nat.cast_nonneg _)
    have hzero : roundTo ((0 : ℤ) : ℚ) 4 = 0 := by exact_mod_cast roundTo_intCast 0 4
    rw [← hzero]
    exact roundTo_mono (by exact_mod_cast hmean) 4

theorem scoreOf_le_one {parts : List ℚ} (h : ∀ p ∈ parts, p ≤ 1) : scoreOf parts ≤ 1 := by
  have hones : scoreOf (parts.map fun _ => 1) = 1 := by
    refine scoreOf_one fun p hp => ?_
    obtain ⟨_, -, rfl⟩ := List.mem_map.mp hp
    rfl
  rw [← hones]
  refine scoreOf_mono ?_
  rw [List.forall₂_map_right_iff, List.forall₂_same]
  exact h

variable {r r' : TrajectoryEvalResult}

theorem exists_le_of_mem (h : List.Forall₂ Check.Le made made') (hc : c' ∈ made') : ∃ c ∈ made, Check.Le c c' := by
  induction h with
  | nil => exact absurd hc List.not_mem_nil
  | cons hab _ ih =>
    rcases List.mem_cons.mp hc with rfl | hc
    · exact ⟨_, List.mem_cons_self, hab⟩
    · obtain ⟨c, hmem, hle⟩ := ih hc
      exact ⟨c, List.mem_cons_of_mem _ hmem, hle⟩

theorem conclude_passed : (conclude x e events made).passed = true ↔
    (∀ c ∈ made, c.critical = false) ∧ 4 / 5 ≤ scoreOf (made.map Check.score) := by
  unfold conclude
  simp only [Bool.and_eq_true, decide_eq_true_eq, isEmpty_critical]

/-- A trace that grows is evaluated no worse. -/
theorem evaluate_le (hgrows : Grows e events events') (h : evaluate x events e = .ok r)
    (h' : evaluate x events' e = .ok r') : r.score ≤ r'.score ∧ (r.passed = true → r'.passed = true) := by
  obtain ⟨made, hmade, rfl⟩ := map_eq_ok.mp h
  obtain ⟨made', hmade', rfl⟩ := map_eq_ok.mp h'
  have hle := checks_le hgrows hmade hmade'
  have hscore : scoreOf (made.map Check.score) ≤ scoreOf (made'.map Check.score) := by
    refine scoreOf_mono ?_
    rw [List.forall₂_map_left_iff, List.forall₂_map_right_iff]
    exact hle.imp fun _ _ hc => hc.score
  refine ⟨hscore, ?_⟩
  rw [conclude_passed, conclude_passed]
  rintro ⟨hclean, hhigh⟩
  refine ⟨fun c' hc' => ?_, hhigh.trans hscore⟩
  obtain ⟨c, hc, hcc⟩ := exists_le_of_mem hle hc'
  rw [← Bool.not_eq_true]
  intro hcritical
  have hclean := hclean c hc
  rw [hcc.critical hcritical] at hclean
  cases hclean

theorem score_bounds (h : evaluate x events e = .ok r) : 0 ≤ r.score ∧ r.score ≤ 1 := by
  obtain ⟨made, hmade, rfl⟩ := map_eq_ok.mp h
  have hsound := checks_sound hmade
  constructor
  · refine scoreOf_zero_le fun p hp => ?_
    obtain ⟨c, hc, rfl⟩ := List.mem_map.mp hp
    exact (hsound c hc).nonneg
  · refine scoreOf_le_one fun p hp => ?_
    obtain ⟨c, hc, rfl⟩ := List.mem_map.mp hp
    exact (hsound c hc).le_one

/-- Without an issue all checks have full marks, so that the evaluation does not fail without one. -/
theorem passed_of_no_issues (h : evaluate x events e = .ok r) (hissues : r.issues = []) : r.passed = true := by
  obtain ⟨made, hmade, rfl⟩ := map_eq_ok.mp h
  have hnone : ∀ c ∈ made, c.issues = [] := List.flatMap_eq_nil_iff.mp hissues
  rw [conclude_passed]
  refine ⟨fun c hc => by rw [Check.critical, hnone c hc]; rfl, ?_⟩
  have hfull : scoreOf (made.map Check.score) = 1 := by
    refine scoreOf_one fun p hp => ?_
    obtain ⟨c, hc, rfl⟩ := List.mem_map.mp hp
    exact (checks_sound hmade c hc).clean (hnone c hc)
  rw [hfull]
  norm_num

theorem evaluate_error : (∃ exc, evaluate x events e = .error exc) ↔ ∃ mode, e.expectedMode = some mode ∧
    e.allowFallback = true ∧ modeFound mode events = false ∧ ∃ event ∈ events, Unhashable event := by
  rw [← checks_error (x := x)]
  unfold evaluate
  cases checks x e events <;> simp [Except.map]

/-- What an evaluation says: the score and the verdict, if it returns. -/
def verdict (x : Texts) (e : TrajectoryExpectation) (events : List TrajectoryEvent) : Option (ℚ × Bool) :=
  match evaluate x events e with
  | .ok r => some (r.score, r.passed)
  | .error _ => none

/-- The order of the events does not count. -/
theorem verdict_perm (h : events.Perm events') : verdict x e events = verdict x e events' := by
  have hgrows : ∀ {a b : List TrajectoryEvent}, a.Perm b → Grows e a b := fun hab =>
    ⟨hab.subset, .inr hab.symm.subset, .inr hab.symm.length_eq⟩
  have hraises : ∀ {a b : List TrajectoryEvent}, a.Perm b → (∃ exc, evaluate x a e = .error exc) →
      ∃ exc, evaluate x b e = .error exc := by
    intro a b hab
    rw [evaluate_error, evaluate_error]
    rintro ⟨mode, hmode, hallow, hfound, event, hmem, hun⟩
    refine ⟨mode, hmode, hallow, ?_, event, hab.subset hmem, hun⟩
    rw [← Bool.not_eq_true] at hfound ⊢
    exact fun hfound' => hfound (any_of_subset hab.symm.subset hfound')
  unfold verdict
  cases hr : evaluate x events e with
  | error exc =>
    obtain ⟨exc', hexc'⟩ := hraises h ⟨exc, hr⟩
    rw [hexc']
  | ok r =>
    cases hr' : evaluate x events' e with
    | error exc =>
      obtain ⟨exc', hexc'⟩ := hraises h.symm ⟨exc, hr'⟩
      rw [hr] at hexc'
      cases hexc'
    | ok r' =>
      obtain ⟨hscore, hpassed⟩ := evaluate_le (hgrows h) hr hr'
      obtain ⟨hscore', hpassed'⟩ := evaluate_le (hgrows h.symm) hr' hr
      dsimp only
      rw [le_antisymm hscore hscore', Bool.eq_iff_iff.mpr ⟨hpassed, hpassed'⟩]

/-- **The evaluation is bounded, and independent of the order; and it only gets better** when events are appended, where
the steps are not limited and an approval is not forbidden.  It raises on the longer trace only where an appended event
has a mode that is no member of a set. -/
theorem evaluation_laws (x : Texts) (e : TrajectoryExpectation) :
    (∀ events r, evaluate x events e = .ok r → 0 ≤ r.score ∧ r.score ≤ 1) ∧
    (∀ events events', events.Perm events' → verdict x e events = verdict x e events') ∧
    (e.maxSteps = none → e.approvalRequired ≠ some false → ∀ events more r, evaluate x events e = .ok r →
      (∀ r', evaluate x (events ++ more) e = .ok r' → r.score ≤ r'.score ∧ (r.passed = true → r'.passed = true)) ∧
      ((∃ exc, evaluate x (events ++ more) e = .error exc) → ∃ event ∈ more, Unhashable event)) := by
  refine ⟨fun events r h => score_bounds h, fun events events' h => verdict_perm h, ?_⟩
  intro hsteps happroval events more r hr
  have hgrows : Grows e events (events ++ more) := ⟨List.subset_append_left _ _, .inl happroval, .inl hsteps⟩
  refine ⟨fun r' hr' => evaluate_le hgrows hr hr', fun hraises => ?_⟩
  obtain ⟨mode, hmode, hallow, hfound, event, hmem, hun⟩ := evaluate_error.mp hraises
  rcases List.mem_append.mp hmem with hold | hnew
  · have hfound' : modeFound mode events = false := by
      rw [← Bool.not_eq_true] at hfound ⊢
      exact fun h => hfound (any_of_subset hgrows.subset h)
    obtain ⟨exc, hexc⟩ := evaluate_error.mpr ⟨mode, hmode, hallow, hfound', event, hold, hun⟩
    rw [hr] at hexc
    cases hexc
  · exact ⟨event, hnew, hun⟩

/-- A run of the executor whose approval is still to come. -/
def demoExpectation : TrajectoryExpectation := ⟨none, ["executor"], ["get_order_count"], [], some true, none, true⟩

def demoTrace : List TrajectoryEvent :=
  [⟨"executor_finished", [("calls", .list [.dict [("tool_name", .str "get_order_count")]])]⟩, ⟨"task_started", []⟩]

def demoTexts : Texts := ⟨fun _ => "", fun _ => ""⟩

def demoResult (events : List TrajectoryEvent) : TrajectoryEvalResult :=
  conclude demoTexts demoExpectation events (moreChecks demoTexts demoExpectation events)

theorem evaluate_demo (events : List TrajectoryEvent) :
    evaluate demoTexts events demoExpectation = .ok (demoResult events) := by
  have hmode : modeChecks demoTexts demoExpectation events = .ok [] := rfl
  unfold evaluate checks
  rw [hmode]
  rfl

/-- The approval makes up for what was missing. -/
theorem evaluation_laws_demo : 0 ≤ (demoResult demoTrace).score ∧
    verdict demoTexts demoExpectation demoTrace = verdict demoTexts demoExpectation demoTrace.reverse ∧
    (demoResult demoTrace).score ≤ (demoResult (demoTrace ++ [⟨"approval_created", []⟩])).score := by
  obtain ⟨hbounds, hperm, hgrows⟩ := evaluation_laws demoTexts demoExpectation
  refine ⟨(hbounds demoTrace _ (evaluate_demo _)).1, hperm _ _ (List.reverse_perm _).symm, ?_⟩
  have happroval : demoExpectation.approvalRequired ≠ some false := by decide
  obtain ⟨hscore, -⟩ := hgrows rfl happroval demoTrace [⟨"approval_created", []⟩] _ (evaluate_demo _)
  exact (hscore _ (evaluate_demo _)).1

end TrajectoryEvaluator

end AgentHarness
