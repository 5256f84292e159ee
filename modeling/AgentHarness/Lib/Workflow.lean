import Mathlib.Data.List.Infix

/-!
# Lib.Workflow — sequences of steps that may be suspended and continued

A `Workflow` runs its steps in order: a step needs the steps it depends on, the consent of a gate,
and a call resolved from what was saved so far; the first step that lacks one of these, or whose
call fails, ends the run.  What is saved, and how it is read, is a `Memory`, so that one workflow
can be run over a live memory and over one restored from a snapshot.

Two results are used elsewhere.  `run_ordered`: however often a run is cut and continued from where
it stopped, the successful steps are a prefix of the plan, and no step is called before the steps it
depends on.  `interrupted_iff`: a run that is suspended and continued from snapshots makes the calls
of the uninterrupted run, with the same end, exactly if both memories resolve alike (`Agree`).
-/

namespace AgentHarness.Lib

/-- What is decided about a step before it runs. -/
inductive Gate where
  | run
  | stop
  | suspend
  deriving DecidableEq

structure Workflow (S I C R : Type) where
  id : S → I
  deps : S → List I
  gate : S → Gate
  /-- the answer to a call, after the calls made before it -/
  answer : List C → C → R
  ok : R → Bool

/-- How steps resolve their calls from what is saved, and save their results. -/
structure Memory (S C R V : Type) where
  resolve : V → S → Option C
  save : V → S → R → V

namespace Workflow

variable {S I C R V V' β : Type}

/-- A call that was made for a step, and its result. -/
structure Made (S C R : Type) where
  step : S
  call : C
  result : R

structure State (I C V : Type) where
  done : List I
  saved : V
  history : List C

/-- How a run ended. -/
inductive End (S I C V : Type) where
  | finished (st : State I C V)
  | failed
  | suspended (s : S) (rest : List S) (st : State I C V)

/-! ## Order -/

section Successes

variable (w : Workflow S I C R)

/-- The steps whose call succeeded, in the order of the calls. -/
def succeeded (l : List (Made S C R)) : List S := (l.filter fun x => w.ok x.result).map Made.step

/-- Successes in plan order, and every call after the successes it depends on. -/
structure Ordered (steps : List S) (l : List (Made S C R)) : Prop where
  inOrder : w.succeeded l <+: steps
  afterDeps : ∀ pre x post, l = pre ++ x :: post →
    ∀ d ∈ w.deps x.step, d ∈ (w.succeeded pre).map w.id

/-- Where a run stands: its successes are the beginning of the plan, and `rest` is left. -/
structure At (steps rest : List S) (l : List (Made S C R)) (done : List I) : Prop where
  left : w.succeeded l ++ rest = steps
  done : done = (w.succeeded l).map w.id

variable {w} {steps rest : List S} {l : List (Made S C R)}

@[simp] theorem succeeded_nil : w.succeeded [] = [] := rfl

@[simp] theorem succeeded_append (l l' : List (Made S C R)) :
    w.succeeded (l ++ l') = w.succeeded l ++ w.succeeded l' := by
  simp [succeeded]

theorem succeeded_singleton (x : Made S C R) :
    w.succeeded [x] = if w.ok x.result then [x.step] else [] := by
  unfold succeeded
  by_cases h : w.ok x.result = true <;> simp [h]

theorem Ordered.nil : w.Ordered steps [] :=
  ⟨List.nil_prefix, fun pre x post h => by simp at h⟩

/-- A call of the next step. -/
theorem Ordered.call (h : w.Ordered steps l) {x : Made S C R}
    (hnext : w.succeeded l ++ x.step :: rest = steps)
    (hdeps : ∀ d ∈ w.deps x.step, d ∈ (w.succeeded l).map w.id) : w.Ordered steps (l ++ [x]) := by
  refine ⟨?_, fun pre y post hl => ?_⟩
  · rw [succeeded_append, succeeded_singleton, ← hnext]
    split
    · exact ⟨rest, by simp⟩
    · rw [List.append_nil]
      exact List.prefix_append _ _
  · rcases List.eq_nil_or_concat post with rfl | ⟨post', z, rfl⟩
    · obtain ⟨rfl, hx⟩ := List.append_inj' hl rfl
      obtain rfl : x = y := by simpa using hx
      exact hdeps
    · have hl' : l ++ [x] = (pre ++ y :: post') ++ [z] := by rw [hl]; simp
      obtain ⟨hl'', -⟩ := List.append_inj' hl' rfl
      exact h.afterDeps pre y post' hl''

end Successes

variable [DecidableEq I] (w : Workflow S I C R) (m : Memory S C R V)

def ready (s : S) (done : List I) : Bool := (w.deps s).all (· ∈ done)

/-- The call of step `s`, with its answer. -/
def made (s : S) (st : State I C V) (c : C) : Made S C R := ⟨s, c, w.answer st.history c⟩

/-- The state after a successful call. -/
def after (st : State I C V) (x : Made S C R) : State I C V :=
  ⟨st.done ++ [w.id x.step], m.save st.saved x.step x.result, st.history ++ [x.call]⟩

/-- Step `s` without its gate; `k` is the rest of the run. -/
def perform (fail : β) (s : S) (st : State I C V) (k : State I C V → List (Made S C R) × β) :
    List (Made S C R) × β :=
  match m.resolve st.saved s with
  | none => ([], fail)
  | some c =>
    let x := w.made s st c
    if w.ok x.result then (x :: (k (w.after m st x)).1, (k (w.after m st x)).2) else ([x], fail)

/-- The run up to its end or its first suspension. -/
def run : List S → State I C V → List (Made S C R) × End S I C V
  | [], st => ([], .finished st)
  | s :: rest, st =>
    if !w.ready s st.done then ([], .failed)
    else match w.gate s with
      | .stop => ([], .failed)
      | .suspend => ([], .suspended s rest st)
      | .run => w.perform m .failed s st (run rest)

section Order

variable {w m} {steps rest : List S} {l : List (Made S C R)} {st : State I C V} {s : S}

/-- What a segment leaves: the order, and where it was suspended if it was. -/
def Segment (w : Workflow S I C R) (steps : List S) (l : List (Made S C R)) (e : End S I C V) :
    Prop :=
  w.Ordered steps l ∧ ∀ s rest st, e = .suspended s rest st →
    w.At steps (s :: rest) l st.done ∧ w.ready s st.done = true

theorem ready_iff {done : List I} : w.ready s done = true ↔ ∀ d ∈ w.deps s, d ∈ done := by
  simp [ready]

/-- One step that may run, and the segment that follows it. -/
theorem perform_ordered (h : w.Ordered steps l) (hat : w.At steps (s :: rest) l st.done)
    (hready : w.ready s st.done = true)
    {k : State I C V → List (Made S C R) × End S I C V}
    (hk : ∀ l' st', w.Ordered steps l' → w.At steps rest l' st'.done →
      Segment w steps (l' ++ (k st').1) (k st').2) :
    Segment w steps (l ++ (w.perform m .failed s st k).1) (w.perform m .failed s st k).2 := by
  unfold perform
  cases hc : m.resolve st.saved s with
  | none => exact ⟨by simpa using h, fun _ _ _ he => nomatch he⟩
  | some c =>
    have hdeps : ∀ d ∈ w.deps s, d ∈ (w.succeeded l).map w.id := hat.done ▸ ready_iff.mp hready
    have hcall : w.Ordered steps (l ++ [w.made s st c]) := h.call hat.left hdeps
    dsimp only
    by_cases hok : w.ok (w.made s st c).result = true
    · have hat' : w.At steps rest (l ++ [w.made s st c])
        (w.after m st (w.made s st c)).done := by
        constructor
        · rw [succeeded_append, succeeded_singleton, if_pos hok, ← hat.left]
          simp [made]
        · rw [succeeded_append, succeeded_singleton, if_pos hok]
          simp [after, hat.done]
      rw [if_pos hok, List.append_cons]
      exact hk _ _ hcall hat'
    · rw [if_neg hok]
      exact ⟨hcall, fun _ _ _ he => nomatch he⟩

/-- **Order of a segment**, and where it stops. -/
theorem run_ordered (h : w.Ordered steps l) (hat : w.At steps rest l st.done) :
    Segment w steps (l ++ (w.run m rest st).1) (w.run m rest st).2 := by
  induction rest generalizing l st with
  | nil => exact ⟨by simpa [run] using h, fun _ _ _ he => nomatch he⟩
  | cons s rest ih =>
    unfold run
    by_cases hready : w.ready s st.done = true
    · simp only [hready, Bool.not_true, Bool.false_eq_true, if_false]
      cases hg : w.gate s with
      | stop => exact ⟨by simpa using h, fun _ _ _ he => nomatch he⟩
      | suspend =>
        refine ⟨by simpa using h, fun s' rest' st' he => ?_⟩
        cases he
        exact ⟨by simpa using hat, hready⟩
      | run => exact perform_ordered h hat hready fun l' st' h' hat' => ih h' hat'
    · simp only [hready, Bool.not_false, if_true]
      exact ⟨by simpa using h, fun _ _ _ he => nomatch he⟩

omit [DecidableEq I] in
/-- A segment that was suspended called its first step, and was suspended after it. -/
theorem perform_suspended {k : State I C V → List (Made S C R) × End S I C V} {s' : S}
    {rest' : List S} {st' : State I C V}
    (h : (w.perform m .failed s st k).2 = .suspended s' rest' st') :
    ∃ c, m.resolve st.saved s = some c ∧ w.ok (w.made s st c).result = true ∧
      (w.perform m .failed s st k).1 = w.made s st c :: (k (w.after m st (w.made s st c))).1 ∧
      (k (w.after m st (w.made s st c))).2 = .suspended s' rest' st' := by
  unfold perform at h ⊢
  cases hc : m.resolve st.saved s with
  | none =>
    rw [hc] at h
    cases h
  | some c =>
    rw [hc] at h
    by_cases hok : w.ok (w.made s st c).result = true
    · simp only [hok, if_true] at h ⊢
      exact ⟨c, rfl, hok, rfl, h⟩
    · simp only [hok, Bool.false_eq_true, if_false] at h
      cases h

/-- The segment of a suspended run: the steps before the suspension, and the state it left. -/
theorem run_suspended {s' : S} {rest' : List S} {st' : State I C V}
    (h : (w.run m rest st).2 = .suspended s' rest' st') :
    (∃ mid, rest = mid ++ s' :: rest' ∧ st'.done = st.done ++ mid.map w.id) ∧
      st'.history = st.history ++ (w.run m rest st).1.map Made.call := by
  induction rest generalizing st with
  | nil => cases h
  | cons s rest ih =>
    unfold run at h ⊢
    by_cases hready : w.ready s st.done = true
    · simp only [hready, Bool.not_true, Bool.false_eq_true, if_false] at h ⊢
      cases hg : w.gate s with
      | stop => simp [hg] at h
      | suspend =>
        simp only [hg, End.suspended.injEq] at h
        obtain ⟨rfl, rfl, rfl⟩ := h
        exact ⟨⟨[], rfl, by simp⟩, by simp⟩
      | run =>
        simp only [hg] at h ⊢
        obtain ⟨c, -, -, hl, he⟩ := perform_suspended h
        obtain ⟨⟨mid, hmid, hdone⟩, hhist⟩ := ih he
        refine ⟨⟨s :: mid, by rw [hmid]; rfl, ?_⟩, ?_⟩
        · rw [hdone]
          simp [after, made]
        · rw [hl, hhist]
          simp [after]
    · simp [hready] at h

/-- What every successful call keeps holds of the state a suspended run leaves. -/
theorem run_saved {P : State I C V → Prop} (hafter : ∀ st x, P st → P (w.after m st x)) (hP : P st)
    {s' : S} {rest' : List S} {st' : State I C V}
    (h : (w.run m rest st).2 = .suspended s' rest' st') : P st' := by
  induction rest generalizing st with
  | nil => cases h
  | cons s rest ih =>
    unfold run at h
    by_cases hready : w.ready s st.done = true
    · simp only [hready, Bool.not_true, Bool.false_eq_true, if_false] at h
      cases hg : w.gate s with
      | stop => simp [hg] at h
      | suspend =>
        simp only [hg, End.suspended.injEq] at h
        obtain ⟨rfl, rfl, rfl⟩ := h
        exact hP
      | run =>
        simp only [hg] at h
        obtain ⟨c, -, -, -, he⟩ := perform_suspended h
        exact ih (hafter _ _ hP) he
    · simp [hready] at h

omit [DecidableEq I] in
/-- A call of a performed step is that of the step, or of what follows. -/
theorem perform_made {k : State I C V → List (Made S C R) × β} {fail : β} {x : Made S C R}
    (h : x ∈ (w.perform m fail s st k).1) :
    (x.step = s ∧ ∃ v, m.resolve v s = some x.call) ∨ ∃ st', x ∈ (k st').1 := by
  unfold perform at h
  cases hc : m.resolve st.saved s with
  | none => simp [hc] at h
  | some c =>
    rw [hc] at h
    dsimp only at h
    by_cases hok : w.ok (w.made s st c).result = true
    · rw [if_pos hok] at h
      rcases List.mem_cons.mp h with rfl | h
      · exact .inl ⟨rfl, _, hc⟩
      · exact .inr ⟨_, h⟩
    · rw [if_neg hok] at h
      obtain rfl := List.mem_singleton.mp h
      exact .inl ⟨rfl, _, hc⟩

/-- The calls of a run are calls of its steps. -/
theorem run_made {x : Made S C R} (h : x ∈ (w.run m rest st).1) :
    x.step ∈ rest ∧ ∃ v, m.resolve v x.step = some x.call := by
  induction rest generalizing st with
  | nil => cases h
  | cons s rest ih =>
    unfold run at h
    by_cases hready : w.ready s st.done = true
    · simp only [hready, Bool.not_true, Bool.false_eq_true, if_false] at h
      cases hg : w.gate s with
      | stop => simp [hg] at h
      | suspend => simp [hg] at h
      | run =>
        simp only [hg] at h
        rcases perform_made h with ⟨hx, hv⟩ | ⟨st', h⟩
        · exact ⟨hx ▸ List.mem_cons_self, hx.symm ▸ hv⟩
        · exact ⟨List.mem_cons_of_mem _ (ih h).1, (ih h).2⟩
    · simp [hready] at h

end Order

/-! ## Suspension against the uninterrupted run -/

section Interruption

variable (m' : Memory S C R V') (handoff : V → V') (reload : V' → V') (fin : V → Bool)

/-- The workflow whose gate lets the suspending steps run. -/
def lift : Workflow S I C R :=
  { w with gate := fun s => if w.gate s = .suspend then .run else w.gate s }

/-- The end of a run as a success or a failure; `fin` judges a finished one. -/
def End.success : End S I C V → Bool
  | .finished st => fin st.saved
  | .failed | .suspended _ _ _ => false

/-- The run without suspensions. -/
def uninterrupted (steps : List S) (st : State I C V) : List (Made S C R) × Bool :=
  ((w.lift.run m steps st).1, (w.lift.run m steps st).2.success fin)

def State.map (f : V → V') (st : State I C V) : State I C V' := ⟨st.done, f st.saved, st.history⟩

/-- A run that continues after every suspension, from the reloaded memory. -/
def continued : List S → State I C V' → List (Made S C R) × Bool
  | [], _ => ([], true)
  | s :: rest, st =>
    if !w.ready s st.done then ([], false)
    else match w.gate s with
      | .stop => ([], false)
      | .suspend => w.perform m' false s (st.map reload) (continued rest)
      | .run => w.perform m' false s st (continued rest)

/-- The run that hands its memory over at its first suspension and is continued from there. -/
def interrupted : List S → State I C V → List (Made S C R) × Bool
  | [], st => ([], fin st.saved)
  | s :: rest, st =>
    if !w.ready s st.done then ([], false)
    else match w.gate s with
      | .stop => ([], false)
      | .suspend => w.perform m' false s (st.map handoff) (w.continued m' reload rest)
      | .run => w.perform m false s st (interrupted rest)

/-- What follows a segment: its end judged by `fin`, or the continuation with the loaded memory. -/
def proceed {U : Type} (fin : U → Bool) (load : U → V') (r : List (Made S C R) × End S I C U) :
    List (Made S C R) × Bool :=
  match r.2 with
  | .finished st => (r.1, fin st.saved)
  | .failed => (r.1, false)
  | .suspended s rest st =>
    let next := w.perform m' false s (st.map load) (w.continued m' reload rest)
    (r.1 ++ next.1, next.2)

/-- The two memories resolve step `s` alike, and `k` holds after it if its call succeeds. -/
def agreeAt (s : S) (st : State I C V) (st' : State I C V')
    (k : State I C V → State I C V' → Prop) : Prop :=
  match m.resolve st.saved s, m'.resolve st'.saved s with
  | none, none => True
  | some c, some c' => c = c' ∧ (w.ok (w.answer st.history c) = true →
      k (w.after m st (w.made s st c)) (w.after m' st' (w.made s st' c')))
  | _, _ => False

/-- Agreement after the first suspension. -/
def AgreeAfter : List S → State I C V → State I C V' → Prop
  | [], st, _ => fin st.saved = true
  | s :: rest, st, st' => w.ready s st.done = true → w.gate s ≠ .stop →
      w.agreeAt m m' s st (if w.gate s = .suspend then st'.map reload else st') (AgreeAfter rest)

/-- **Agreement**: from the first suspension on, the live and the restored memory resolve the same
calls for every step that is reached, and a run that completes its steps is a success. -/
def Agree : List S → State I C V → Prop
  | [], _ => True
  | s :: rest, st => w.ready s st.done = true →
    match w.gate s with
    | .stop => True
    | .suspend => w.agreeAt m m' s st (st.map handoff) (w.AgreeAfter m m' reload fin rest)
    | .run => match m.resolve st.saved s with
      | none => True
      | some c => w.ok (w.answer st.history c) = true → Agree rest (w.after m st (w.made s st c))

variable {w m m' handoff reload fin}

/-- What is compared: the calls in order, and the overall success. -/
def outcome (r : List (Made S C R) × Bool) : List C × Bool := (r.1.map Made.call, r.2)

theorem proceed_cons {U : Type} {fin : U → Bool} {load : U → V'} {x : Made S C R}
    {r : List (Made S C R) × End S I C U} :
    w.proceed m' reload fin load (x :: r.1, r.2) =
      (x :: (w.proceed m' reload fin load r).1, (w.proceed m' reload fin load r).2) := by
  unfold proceed
  cases r.2 <;> rfl

theorem uninterrupted_cons {s : S} {rest : List S} {st : State I C V} :
    w.uninterrupted m fin (s :: rest) st =
      if !w.ready s st.done then ([], false)
      else if w.gate s = .stop then ([], false)
      else w.perform m false s st (w.uninterrupted m fin rest) := by
  have hready : w.lift.ready s st.done = w.ready s st.done := rfl
  simp only [uninterrupted, run, hready]
  by_cases h : w.ready s st.done = true
  · simp only [h, Bool.not_true, Bool.false_eq_true, if_false]
    by_cases hstop : w.gate s = .stop
    · have hl : w.lift.gate s = .stop := by simp [lift, hstop]
      simp [hl, hstop, End.success]
    · have hl : w.lift.gate s = .run := by
        cases hg : w.gate s with
        | stop => exact absurd hg hstop
        | run => simp [lift, hg]
        | suspend => simp [lift, hg]
      simp only [hl, hstop, if_false]
      unfold perform
      cases m.resolve st.saved s with
      | none => rfl
      | some c =>
        have hm : w.lift.made s st c = w.made s st c := rfl
        have ha : w.lift.after m st (w.made s st c) = w.after m st (w.made s st c) := rfl
        have hk : w.lift.ok = w.ok := rfl
        simp only [hm, ha, hk, uninterrupted]
        split <;> rfl
  · simp [h, End.success]

omit [DecidableEq I] in
/-- One step of the comparison. -/
theorem perform_outcome_iff {s : S} {st : State I C V} {st' : State I C V'}
    (hh : st'.history = st.history)
    {k : State I C V → List (Made S C R) × Bool} {k' : State I C V' → List (Made S C R) × Bool}
    {P : State I C V → State I C V' → Prop}
    (hk : ∀ c, outcome (k (w.after m st (w.made s st c))) =
        outcome (k' (w.after m' st' (w.made s st' c))) ↔
      P (w.after m st (w.made s st c)) (w.after m' st' (w.made s st' c))) :
    outcome (w.perform m false s st k) = outcome (w.perform m' false s st' k') ↔
      w.agreeAt m m' s st st' P := by
  unfold perform agreeAt
  cases m.resolve st.saved s with
  | none =>
    cases m'.resolve st'.saved s with
    | none => simp
    | some c' =>
      dsimp only
      split <;> simp [outcome]
  | some c =>
    cases m'.resolve st'.saved s with
    | none =>
      dsimp only
      split <;> simp [outcome]
    | some c' =>
      dsimp only
      by_cases hcc : c = c'
      · subst hcc
        have hr : (w.made s st' c).result = (w.made s st c).result := by simp [made, hh]
        have hok : w.ok (w.answer st.history c) = w.ok (w.made s st c).result := rfl
        rw [hr, hok]
        by_cases h : w.ok (w.made s st c).result = true
        · simp only [h, if_true, true_and, forall_const]
          rw [← hk c]
          simp [outcome, made]
        · simp only [h, Bool.false_eq_true, if_false, false_implies, and_true, iff_true]
          simp [outcome, made]
      · have hne : ∀ l l' : List C, c :: l ≠ c' :: l' := fun l l' h => hcc (List.cons.inj h).1
        simp only [hcc, false_and, iff_false]
        split <;> split <;> simp [outcome, made, hcc]

theorem continued_iff {steps : List S} {st : State I C V} {st' : State I C V'}
    (hd : st'.done = st.done) (hh : st'.history = st.history) :
    outcome (w.uninterrupted m fin steps st) = outcome (w.continued m' reload steps st') ↔
      w.AgreeAfter m m' reload fin steps st st' := by
  induction steps generalizing st st' with
  | nil => simp [uninterrupted, run, continued, AgreeAfter, outcome, End.success]
  | cons s rest ih =>
    rw [uninterrupted_cons]
    unfold continued AgreeAfter
    rw [hd]
    by_cases hr : w.ready s st.done = true
    · simp only [hr, Bool.not_true, Bool.false_eq_true, if_false, forall_const]
      cases hg : w.gate s with
      | stop => simp
      | suspend =>
        simp only [reduceCtorEq, if_false, if_true, ne_eq, not_false_eq_true, forall_const]
        have hh' : (st'.map reload).history = st.history := hh
        refine perform_outcome_iff hh' fun c => ih ?_ ?_
        · simp [after, made, State.map, hd]
        · simp [after, made, State.map, hh]
      | run =>
        simp only [reduceCtorEq, if_false, ne_eq, not_false_eq_true, forall_const]
        refine perform_outcome_iff hh fun c => ih ?_ ?_
        · simp [after, made, hd]
        · simp [after, made, hh]
    · simp [hr]

/-- **The interrupted run is the uninterrupted one** exactly if the memories agree. -/
theorem interrupted_iff {steps : List S} {st : State I C V} :
    outcome (w.uninterrupted m fin steps st) =
        outcome (w.interrupted m m' handoff reload fin steps st) ↔
      w.Agree m m' handoff reload fin steps st := by
  induction steps generalizing st with
  | nil => simp [uninterrupted, run, interrupted, Agree, End.success]
  | cons s rest ih =>
    rw [uninterrupted_cons]
    unfold interrupted Agree
    by_cases hr : w.ready s st.done = true
    · simp only [hr, Bool.not_true, Bool.false_eq_true, if_false, forall_const]
      cases hg : w.gate s with
      | stop => simp
      | suspend =>
        simp only [reduceCtorEq, if_false]
        have hh : (st.map handoff).history = st.history := rfl
        refine perform_outcome_iff hh fun c => continued_iff ?_ ?_
        · simp [after, made, State.map]
        · simp [after, made, State.map]
      | run =>
        simp only [reduceCtorEq, if_false]
        unfold perform
        cases m.resolve st.saved s with
        | none => simp
        | some c =>
          dsimp only
          by_cases h : w.ok (w.made s st c).result = true
          · have hok : w.ok (w.answer st.history c) = true := h
            simp only [h, hok, if_true, forall_const]
            rw [← ih]
            simp [outcome, made]
          · have hok : ¬ w.ok (w.answer st.history c) = true := h
            simp [h, hok]
    · simp [hr]

/-- A continued run is its first segment, and the continuation after its suspension. -/
theorem continued_eq {steps : List S} {st : State I C V'} :
    w.continued m' reload steps st =
      w.proceed m' reload (fun _ => true) reload (w.run m' steps st) := by
  induction steps generalizing st with
  | nil => rfl
  | cons s rest ih =>
    unfold continued run
    by_cases hr : w.ready s st.done = true
    · simp only [hr, Bool.not_true, Bool.false_eq_true, if_false]
      cases hg : w.gate s with
      | stop => rfl
      | suspend => rfl
      | run =>
        unfold perform
        cases m'.resolve st.saved s with
        | none => rfl
        | some c =>
          dsimp only
          split
          · rw [ih, proceed_cons]
          · rfl
    · simp [hr, proceed]

/-- The same for a segment that starts at its waiting step. -/
theorem perform_continued_eq {s : S} {rest : List S} {st : State I C V'} :
    w.perform m' false s st (w.continued m' reload rest) =
      w.proceed m' reload (fun _ => true) reload (w.perform m' .failed s st (w.run m' rest)) := by
  unfold perform
  cases m'.resolve st.saved s with
  | none => rfl
  | some c =>
    dsimp only
    split
    · rw [continued_eq, proceed_cons]
    · rfl

/-- The same for the first segment. -/
theorem interrupted_eq {steps : List S} {st : State I C V} :
    w.interrupted m m' handoff reload fin steps st =
      w.proceed m' reload fin handoff (w.run m steps st) := by
  induction steps generalizing st with
  | nil => rfl
  | cons s rest ih =>
    unfold interrupted run
    by_cases hr : w.ready s st.done = true
    · simp only [hr, Bool.not_true, Bool.false_eq_true, if_false]
      cases hg : w.gate s with
      | stop => rfl
      | suspend => rfl
      | run =>
        unfold perform
        cases m.resolve st.saved s with
        | none => rfl
        | some c =>
          dsimp only
          split
          · rw [ih, proceed_cons]
          · rfl
    · simp [hr, proceed]

end Interruption

end Workflow

end AgentHarness.Lib
