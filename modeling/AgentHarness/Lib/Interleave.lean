import AgentHarness.Lib.Prog

/-!
# Lib.Interleave — many programs over one shared state

A `Conf` is a shared state with one program per thread.  `Conf.step t` lets thread `t` perform its
next operation atomically; a schedule is a list of thread numbers, and a thread that is never
scheduled again has crashed.  `Logged` keeps every performed operation with its answer, so that a
property of a run is a property of its log.

`Conf.run_typestate` is the induction that every safety result uses: each thread is in a state of
a machine that its remaining program conforms to, and an invariant ties these states to the
configuration.  One step lemma then covers every schedule.  `Meets` restricts the schedules to
those whose steps all satisfy a condition on the configuration before the step.
-/

namespace AgentHarness.Lib

variable {O : Type} {A : O → Type} {E α σ W D : Type}

/-- A shared state and a program for every thread. -/
structure Conf (O : Type) (A : O → Type) (E W α : Type) where
  world : W
  threads : Nat → Prog O A E α

namespace Conf

variable (exec : Nat → (o : O) → W → Except E (A o) × W)

/-- Thread `t` performs its next operation; a finished thread does nothing. -/
def step (c : Conf O A E W α) (t : Nat) : Conf O A E W α :=
  match c.threads t with
  | .op o k => ⟨(exec t o c.world).2, Function.update c.threads t (k (exec t o c.world).1)⟩
  | _ => c

def run (c : Conf O A E W α) (sched : List Nat) : Conf O A E W α :=
  sched.foldl (step exec) c

@[simp] theorem run_nil (c : Conf O A E W α) : run exec c [] = c := rfl

@[simp] theorem run_cons (c : Conf O A E W α) (t : Nat) (ts : List Nat) :
    run exec c (t :: ts) = run exec (step exec c t) ts := rfl

theorem run_append (c : Conf O A E W α) (ts us : List Nat) :
    run exec c (ts ++ us) = run exec (run exec c ts) us := List.foldl_append ..

variable {exec} in
theorem step_of_op {c : Conf O A E W α} {t : Nat} {o : O} {k : Except E (A o) → Prog O A E α}
    (h : c.threads t = .op o k) :
    step exec c t =
      ⟨(exec t o c.world).2, Function.update c.threads t (k (exec t o c.world).1)⟩ := by
  simp only [step, h]

/-- The operation thread `t` performs next. -/
def next (c : Conf O A E W α) (t : Nat) : Option O :=
  match c.threads t with
  | .op o _ => some o
  | _ => none

/-- The outcome of a finished thread. -/
def outcome (c : Conf O A E W α) (t : Nat) : Option (Except E α) :=
  match c.threads t with
  | .op _ _ => none
  | .ret a => some (.ok a)
  | .raise e => some (.error e)

theorem op_of_next {c : Conf O A E W α} {t : Nat} {o : O} (h : c.next t = some o) :
    ∃ k, c.threads t = .op o k := by
  unfold next at h
  split at h
  · rename_i o' k ht
    cases h
    exact ⟨k, ht⟩
  · cases h

variable {exec} in
theorem step_of_next_none {c : Conf O A E W α} {t : Nat} (h : c.next t = none) :
    step exec c t = c := by
  cases ht : c.threads t with
  | op o k => simp only [next, ht, reduceCtorEq] at h
  | ret a => simp only [step, ht]
  | raise e => simp only [step, ht]

/-- Every step of the run satisfies `ok`, read on the configuration before the step. -/
def Meets (ok : Conf O A E W α → Nat → O → Prop) (c : Conf O A E W α) : List Nat → Prop
  | [] => True
  | t :: ts => (∀ o, c.next t = some o → ok c t o) ∧ Meets ok (step exec c t) ts

/-- Every configuration the run passes through satisfies `P`, the first and the last included. -/
def Always (P : Conf O A E W α → Prop) (c : Conf O A E W α) : List Nat → Prop
  | [] => P c
  | t :: ts => P c ∧ Always P (step exec c t) ts

variable {exec}

theorem Always.last {P : Conf O A E W α → Prop} {c : Conf O A E W α} {sched : List Nat}
    (h : Always exec P c sched) : P (run exec c sched) := by
  induction sched generalizing c with
  | nil => exact h
  | cons t ts ih => exact ih h.2

/-- `Always` holds of a run when its property holds after every prefix. -/
theorem always_of_prefix {P : Conf O A E W α → Prop} {c : Conf O A E W α} {sched : List Nat}
    (h : ∀ ts, ts <+: sched → P (run exec c ts)) : Always exec P c sched := by
  induction sched generalizing c with
  | nil => exact h [] (List.prefix_refl _)
  | cons t ts ih =>
    refine ⟨h [] List.nil_prefix, ih fun us hus => ?_⟩
    exact h (t :: us) (List.cons_prefix_cons.mpr ⟨rfl, hus⟩)

theorem Meets.initial {ok : Conf O A E W α → Nat → O → Prop} {c : Conf O A E W α}
    {sched ts : List Nat} (h : Meets exec ok c sched) (hts : ts <+: sched) :
    Meets exec ok c ts := by
  induction sched generalizing c ts with
  | nil =>
    rw [List.prefix_nil.mp hts]
    trivial
  | cons t sched ih =>
    cases ts with
    | nil => trivial
    | cons u us =>
      obtain ⟨rfl, hus⟩ := List.cons_prefix_cons.mp hts
      exact ⟨h.1, ih h.2 hus⟩

theorem Meets.of_append {ok : Conf O A E W α → Nat → O → Prop} {c : Conf O A E W α}
    {ts us : List Nat} (h : Meets exec ok c (ts ++ us)) : Meets exec ok (run exec c ts) us := by
  induction ts generalizing c with
  | nil => exact h
  | cons t ts ih => exact ih h.2

theorem meets_of_forall {ok : Conf O A E W α → Nat → O → Prop} (h : ∀ c t o, ok c t o)
    (c : Conf O A E W α) (sched : List Nat) : Meets exec ok c sched := by
  induction sched generalizing c with
  | nil => trivial
  | cons t ts ih => exact ⟨fun o _ => h c t o, ih _⟩

theorem Meets.and {ok ok' : Conf O A E W α → Nat → O → Prop} {c : Conf O A E W α} {sched : List Nat}
    (h : Meets exec ok c sched) (h' : Meets exec ok' c sched) :
    Meets exec (fun c t o => ok c t o ∧ ok' c t o) c sched := by
  induction sched generalizing c with
  | nil => trivial
  | cons t ts ih => exact ⟨fun o ho => ⟨h.1 o ho, h'.1 o ho⟩, ih h.2 h'.2⟩

theorem Meets.mono {ok ok' : Conf O A E W α → Nat → O → Prop} (himp : ∀ c t o, ok c t o → ok' c t o)
    {c : Conf O A E W α} {sched : List Nat} (h : Meets exec ok c sched) : Meets exec ok' c sched := by
  induction sched generalizing c with
  | nil => trivial
  | cons t ts ih => exact ⟨fun o ho => himp c t o (h.1 o ho), ih h.2⟩

instance decidableNext {ok : Conf O A E W α → Nat → O → Prop} [∀ c t o, Decidable (ok c t o)]
    (c : Conf O A E W α) (t : Nat) : Decidable (∀ o, c.next t = some o → ok c t o) :=
  match h : c.next t with
  | none => isTrue fun o ho => by cases ho
  | some o => decidable_of_iff (ok c t o) ⟨fun hok o' ho => Option.some.inj ho ▸ hok, fun h => h o rfl⟩

instance decidableMeets {ok : Conf O A E W α → Nat → O → Prop} [∀ c t o, Decidable (ok c t o)] :
    (c : Conf O A E W α) → (sched : List Nat) → Decidable (Meets exec ok c sched)
  | _, [] => isTrue trivial
  | c, t :: ts => @instDecidableAnd _ _ (decidableNext c t) (decidableMeets (step exec c t) ts)

/-- What no step ends and does not hold at the end, never holds. -/
theorem meets_of_last {B : Conf O A E W α → Prop} (hstep : ∀ c t, B c → B (step exec c t)) {c : Conf O A E W α}
    {sched : List Nat} (hlast : ¬ B (run exec c sched)) : Meets exec (fun c _ _ => ¬ B c) c sched := by
  induction sched generalizing c with
  | nil => trivial
  | cons t ts ih =>
    refine ⟨fun o ho hB => hlast ?_, ih hlast⟩
    exact List.foldlRecOn ts (step exec) (motive := B) (hstep c t hB) fun c hB t _ => hstep c t hB

/-- An invariant of single steps is an invariant of runs. -/
theorem run_invariant {ok : Conf O A E W α → Nat → O → Prop} {I : Conf O A E W α → Prop}
    (hstep : ∀ c t o k, I c → c.threads t = .op o k → ok c t o → I (step exec c t))
    {c : Conf O A E W α} (hI : I c) {sched : List Nat} (hm : Meets exec ok c sched) :
    I (run exec c sched) := by
  induction sched generalizing c with
  | nil => exact hI
  | cons t ts ih =>
    refine ih ?_ hm.2
    cases ht : c.threads t with
    | op o k => exact hstep c t o k hI ht (hm.1 o (by simp only [next, ht]))
    | ret a => rwa [step_of_next_none (by simp only [next, ht])]
    | raise e => rwa [step_of_next_none (by simp only [next, ht])]

/-- Every thread only performs operations in `P`. -/
def UsesAll (P : O → Prop) (c : Conf O A E W α) : Prop := ∀ t, (c.threads t).Uses P

theorem UsesAll.step {P : O → Prop} {c : Conf O A E W α} (h : c.UsesAll P) (t : Nat) :
    (step exec c t).UsesAll P := by
  intro u
  cases ht : c.threads t with
  | op o k =>
    rw [step_of_op ht]
    by_cases hu : u = t
    · subst hu
      have hu' := h u
      rw [ht] at hu'
      simpa only [Function.update_self] using hu'.2 _
    · simpa only [Function.update_of_ne hu] using h u
  | ret a => rw [step_of_next_none (by simp only [next, ht])]; exact h u
  | raise e => rw [step_of_next_none (by simp only [next, ht])]; exact h u

theorem UsesAll.op {P : O → Prop} {c : Conf O A E W α} (h : c.UsesAll P) {t : Nat} {o : O}
    {k : Except E (A o) → Prog O A E α} (ht : c.threads t = .op o k) : P o := by
  have hu := h t
  rw [ht] at hu
  exact hu.1

theorem UsesAll.run {P : O → Prop} {c : Conf O A E W α} (h : c.UsesAll P) (sched : List Nat) :
    (run exec c sched).UsesAll P := by
  induction sched generalizing c with
  | nil => exact h
  | cons t ts ih => exact ih (h.step t)

/-- Every thread conforms to the machine from its current state. -/
def Conforms (m : Machine O A E σ) (Q : Nat → Except E α → σ → Prop) (c : Conf O A E W α)
    (st : Nat → σ) : Prop :=
  ∀ t, wp m (c.threads t) (Q t) (st t)

/-- **Typestate induction.**  `J` ties the configuration to the machine states of its threads; a
step of thread `t` moves only the state of `t`. -/
theorem run_typestate {m : Machine O A E σ} {Q : Nat → Except E α → σ → Prop}
    {ok : Conf O A E W α → Nat → O → Prop} {J : Conf O A E W α → (Nat → σ) → Prop}
    (hstep : ∀ c st t o k, J c st → Conforms m Q c st → c.threads t = .op o k → ok c t o →
      m.may (st t) o → ∃ s', m.step (st t) o (exec t o c.world).1 s' ∧
        J (step exec c t) (Function.update st t s'))
    {c : Conf O A E W α} {st : Nat → σ} (hJ : J c st) (hc : Conforms m Q c st)
    {sched : List Nat} (hm : Meets exec ok c sched) :
    ∃ st', J (run exec c sched) st' ∧ Conforms m Q (run exec c sched) st' := by
  refine run_invariant (I := fun c => ∃ st, J c st ∧ Conforms m Q c st) ?_ ⟨st, hJ, hc⟩ hm
  rintro c t o k ⟨st, hJ, hc⟩ ht hok
  have hw := hc t
  rw [ht] at hw
  obtain ⟨s', hs', hJ'⟩ := hstep c st t o k hJ hc ht hok hw.1
  refine ⟨_, hJ', fun u => ?_⟩
  rw [step_of_op ht]
  by_cases hu : u = t
  · subst hu
    simpa only [Function.update_self] using hw.2 _ s' hs'
  · simpa only [Function.update_of_ne hu] using hc u

/-- A finished thread of a conforming configuration ended in a state that `Q` allows. -/
theorem Conforms.outcome {m : Machine O A E σ} {Q : Nat → Except E α → σ → Prop}
    {c : Conf O A E W α} {st : Nat → σ} (h : Conforms m Q c st) {t : Nat} {r : Except E α}
    (ht : c.outcome t = some r) : Q t r (st t) := by
  have hw := h t
  unfold Conf.outcome at ht
  split at ht
  · cases ht
  · rename_i a ha
    cases ht
    rwa [ha] at hw
  · rename_i e he
    cases ht
    rwa [he] at hw

end Conf

/-! ## Logged states -/

/-- An operation performed by a thread, with the answer it got. -/
structure Ev (O : Type) (A : O → Type) (E : Type) where
  tid : Nat
  op : O
  ans : Except E (A op)

/-- A data state with the log of everything done to it, oldest first. -/
structure Logged (O : Type) (A : O → Type) (E D : Type) where
  db : D
  log : List (Ev O A E)

/-- Perform an operation and log it.  What the environment answers may depend on the log. -/
def Logged.exec (f : List (Ev O A E) → Nat → (o : O) → D → Except E (A o) × D) (t : Nat) (o : O)
    (s : Logged O A E D) : Except E (A o) × Logged O A E D :=
  ((f s.log t o s.db).1, ⟨(f s.log t o s.db).2, s.log ++ [⟨t, o, (f s.log t o s.db).1⟩]⟩)

namespace Conf

variable {f : List (Ev O A E) → Nat → (o : O) → D → Except E (A o) × D} {c : Conf O A E (Logged O A E D) α}
  {sched : List Nat}

/-- The log of a performed operation. -/
theorem log_of_op {t : Nat} {o : O} {k : Except E (A o) → Prog O A E α} (h : c.threads t = .op o k) :
    (step (Logged.exec f) c t).world.log = c.world.log ++ [⟨t, o, (f c.world.log t o c.world.db).1⟩] := by
  rw [step_of_op h]
  rfl

/-- Nothing is ever taken out of the log. -/
theorem log_grows : c.world.log <+: (run (Logged.exec f) c sched).world.log := by
  induction sched generalizing c with
  | nil => exact List.prefix_rfl
  | cons t ts ih =>
    refine List.IsPrefix.trans ?_ ih
    cases ht : c.threads t with
    | op o k =>
      rw [log_of_op ht]
      exact List.prefix_append ..
    | ret a =>
      have hstuck : step (Logged.exec f) c t = c := step_of_next_none (by simp only [next, ht])
      exact hstuck.symm ▸ List.prefix_rfl
    | raise e =>
      have hstuck : step (Logged.exec f) c t = c := step_of_next_none (by simp only [next, ht])
      exact hstuck.symm ▸ List.prefix_rfl

/-- Every performed operation is in the log of the end. -/
theorem meets_of_log {P : O → Prop} (h : ∀ e ∈ (run (Logged.exec f) c sched).world.log, P e.op) :
    Meets (Logged.exec f) (fun _ _ o => P o) c sched := by
  induction sched generalizing c with
  | nil => trivial
  | cons t ts ih =>
    refine ⟨fun o ho => ?_, ih h⟩
    obtain ⟨k, ht⟩ := op_of_next ho
    have hgrows : (step (Logged.exec f) c t).world.log <+: (run (Logged.exec f) c (t :: ts)).world.log := log_grows
    refine h ⟨t, o, (f c.world.log t o c.world.db).1⟩ (hgrows.subset ?_)
    rw [log_of_op ht]
    exact List.mem_append_right _ List.mem_cons_self

end Conf

end AgentHarness.Lib
