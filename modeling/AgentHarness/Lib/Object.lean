import AgentHarness.Lib.Prog

/-!
# Lib.Object — programs of an object that talks to the outside

An object has attributes of its own, and performs operations of the outside, answered in any way.
`SelfOp S O` are both: `get` and `modify` for the attributes `S`, and `ext o` for an operation outside.
The log keeps the operations outside with their answers.  `Object.machine may` is the machine on which
`wp` runs such a program: an operation outside has to be permitted by what the log says before it.  What
`wp` proves there holds on every world that answers (`Object.run_wp`), and the log stays `Legal`.
-/

namespace AgentHarness.Lib

inductive SelfOp (S O : Type) where
  | get
  | modify (f : S → S)
  | ext (o : O)

/-- The answers: the attributes, nothing, or what the outside answers. -/
def SelfOp.Ans {S O : Type} (A : O → Type) : SelfOp S O → Type
  | get => S
  | modify _ => Unit
  | ext o => A o

/-- An operation outside with its answer. -/
structure Happened (O : Type) (A : O → Type) where
  op : O
  answer : A op

namespace Object

variable {S O : Type} {A : O → Type} {E α D : Type}

def self : Prog (SelfOp S O) (SelfOp.Ans A) E S :=
  Prog.call (O := SelfOp S O) (A := SelfOp.Ans A) .get

def modify (f : S → S) : Prog (SelfOp S O) (SelfOp.Ans A) E Unit :=
  Prog.call (O := SelfOp S O) (A := SelfOp.Ans A) (.modify f)

def ext (o : O) : Prog (SelfOp S O) (SelfOp.Ans A) E (A o) :=
  Prog.call (O := SelfOp S O) (A := SelfOp.Ans A) (.ext o)

structure World (S O : Type) (A : O → Type) (D : Type) where
  self : S
  log : List (Happened O A)
  data : D

/-- The outside answers by its own state `D`. -/
def exec (env : (o : O) → D → A o × D) :
    (o : SelfOp S O) → World S O A D → Except E (SelfOp.Ans A o) × World S O A D
  | .get, w => (.ok w.self, w)
  | .modify f, w => (.ok (), { w with self := f w.self })
  | .ext o, w => (.ok (env o w.data).1,
      ⟨w.self, w.log ++ [⟨o, (env o w.data).1⟩], (env o w.data).2⟩)

/-- The attributes and the log. -/
abbrev State (S O : Type) (A : O → Type) := S × List (Happened O A)

variable (may : List (Happened O A) → O → Prop)

def machine : Machine (SelfOp S O) (SelfOp.Ans A) E (State S O A) where
  may s
    | .get => True
    | .modify _ => True
    | .ext o => may s.2 o
  step s
    | .get, r, s' => r = .ok s.1 ∧ s' = s
    | .modify f, r, s' => r = .ok () ∧ s' = (f s.1, s.2)
    | .ext o, r, s' => ∃ a, r = .ok a ∧ s' = (s.1, s.2 ++ [⟨o, a⟩])

/-- Every operation of the log was permitted by what came before it. -/
def Legal (log : List (Happened O A)) : Prop :=
  ∀ pre e post, log = pre ++ e :: post → may pre e.op

variable {may}

theorem Legal.nil : Legal may ([] : List (Happened O A)) := by
  intro pre e post h
  cases pre <;> cases h

theorem Legal.concat {log : List (Happened O A)} (h : Legal may log) {o : O} {a : A o} (ho : may log o) :
    Legal may (log ++ [⟨o, a⟩]) := by
  intro pre e post hsplit
  rcases List.eq_nil_or_concat post with rfl | ⟨post, e', rfl⟩
  · obtain ⟨rfl, he⟩ := List.append_inj' hsplit rfl
    obtain rfl := List.singleton_inj.mp he
    exact ho
  · rw [List.concat_eq_append, ← List.cons_append, ← List.append_assoc] at hsplit
    obtain ⟨hlog, -⟩ := List.append_inj' hsplit rfl
    exact h pre e post hlog

variable {Q : Except E α → State S O A → Prop} {s : State S O A}

@[simp] theorem wp_self {Q : Except E S → State S O A → Prop} :
    wp (machine may) (self : Prog (SelfOp S O) (SelfOp.Ans A) E S) Q s ↔ Q (.ok s.1) s := by
  refine Iff.trans (wp_call (O := SelfOp S O) (A := SelfOp.Ans A) (o := .get)) ?_
  refine ⟨fun h => h.2 _ _ ⟨rfl, rfl⟩, fun h => ⟨trivial, ?_⟩⟩
  rintro r s' ⟨rfl, rfl⟩
  exact h

@[simp] theorem wp_modify {f : S → S} {Q : Except E Unit → State S O A → Prop} :
    wp (machine may) (modify f : Prog (SelfOp S O) (SelfOp.Ans A) E Unit) Q s ↔ Q (.ok ()) (f s.1, s.2) := by
  refine Iff.trans (wp_call (O := SelfOp S O) (A := SelfOp.Ans A) (o := .modify f)) ?_
  refine ⟨fun h => h.2 _ _ ⟨rfl, rfl⟩, fun h => ⟨trivial, ?_⟩⟩
  rintro r s' ⟨rfl, rfl⟩
  exact h

theorem wp_ext {o : O} {Q : Except E (A o) → State S O A → Prop} :
    wp (machine may) (ext o : Prog (SelfOp S O) (SelfOp.Ans A) E (A o)) Q s ↔
      may s.2 o ∧ ∀ a, Q (.ok a) (s.1, s.2 ++ [⟨o, a⟩]) := by
  refine Iff.trans (wp_call (O := SelfOp S O) (A := SelfOp.Ans A) (o := .ext o)) ?_
  refine and_congr_right fun _ => ⟨fun h a => h _ _ ⟨a, rfl, rfl⟩, ?_⟩
  rintro h r s' ⟨a, rfl, rfl⟩
  exact h a

theorem wp_self_bind {f : S → Prog (SelfOp S O) (SelfOp.Ans A) E α} :
    wp (machine may) (self >>= f) Q s ↔ wp (machine may) (f s.1) Q s := wp_bind.trans wp_self

theorem wp_modify_bind {g : S → S} {f : Unit → Prog (SelfOp S O) (SelfOp.Ans A) E α} :
    wp (machine may) (modify g >>= f) Q s ↔ wp (machine may) (f ()) Q (g s.1, s.2) := wp_bind.trans wp_modify

theorem wp_ext_bind {o : O} {f : A o → Prog (SelfOp S O) (SelfOp.Ans A) E α} :
    wp (machine may) (ext o >>= f) Q s ↔
      may s.2 o ∧ ∀ a, wp (machine may) (f a) Q (s.1, s.2 ++ [⟨o, a⟩]) := wp_bind.trans wp_ext

/-- **Runs.**  Whatever answers, the program ends as `wp` says, and the log stays legal. -/
theorem run_wp {env : (o : O) → D → A o × D} {p : Prog (SelfOp S O) (SelfOp.Ans A) E α} {w : World S O A D}
    (hlegal : Legal may w.log) (h : wp (machine may) p Q (w.self, w.log)) :
    Q (p.run (exec env) w).1 ((p.run (exec env) w).2.self, (p.run (exec env) w).2.log) ∧
      Legal may (p.run (exec env) w).2.log := by
  have hsim : ∀ (w : World S O A D) (s : State S O A) o, (s = (w.self, w.log) ∧ Legal may w.log) →
      (machine (E := E) may).may s o →
      ∃ s', (machine (E := E) may).step s o (exec env o w).1 s' ∧
        s' = ((exec (E := E) env o w).2.self, (exec (E := E) env o w).2.log) ∧
          Legal may (exec (E := E) env o w).2.log := by
    rintro w s o ⟨rfl, hlegal⟩ ho
    cases o with
    | get => exact ⟨_, ⟨rfl, rfl⟩, rfl, hlegal⟩
    | modify f => exact ⟨_, ⟨rfl, rfl⟩, rfl, hlegal⟩
    | ext o => exact ⟨_, ⟨_, rfl, rfl⟩, rfl, hlegal.concat ho⟩
  obtain ⟨s', ⟨rfl, hlegal'⟩, hQ⟩ := wp_run hsim ⟨rfl, hlegal⟩ h
  exact ⟨hQ, hlegal'⟩

/-! ## Runs -/

section Runs

variable {env : (o : O) → D → A o × D} {w : World S O A D}

theorem run_self_bind {f : S → Prog (SelfOp S O) (SelfOp.Ans A) E α} :
    (self >>= f).run (exec env) w = (f w.self).run (exec env) w := rfl

theorem run_modify {g : S → S} : (modify g : Prog (SelfOp S O) (SelfOp.Ans A) E Unit).run (exec env) w =
    (.ok (), { w with self := g w.self }) := rfl

theorem run_modify_bind {g : S → S} {f : Unit → Prog (SelfOp S O) (SelfOp.Ans A) E α} :
    (modify g >>= f).run (exec env) w = (f ()).run (exec env) { w with self := g w.self } := rfl

theorem run_ext_bind {o : O} {f : A o → Prog (SelfOp S O) (SelfOp.Ans A) E α} :
    (ext o >>= f).run (exec env) w = (f (env o w.data).1).run (exec env)
      ⟨w.self, w.log ++ [⟨o, (env o w.data).1⟩], (env o w.data).2⟩ := rfl

end Runs

/-! ## What is in the log stays there -/

theorem log_grows {env : (o : O) → D → A o × D} {p : Prog (SelfOp S O) (SelfOp.Ans A) E α} {w : World S O A D} :
    w.log <+: (p.run (exec env) w).2.log := by
  induction p generalizing w with
  | ret a => exact List.prefix_rfl
  | raise e => exact List.prefix_rfl
  | op o k ih =>
    have hstep : w.log <+: (exec (E := E) env o w).2.log := by
      cases o with
      | get => exact List.prefix_rfl
      | modify f => exact List.prefix_rfl
      | ext o => exact List.prefix_append _ _
    exact hstep.trans (ih _)

theorem mem_log_bind {env : (o : O) → D → A o × D} {β : Type} {p : Prog (SelfOp S O) (SelfOp.Ans A) E α}
    {f : α → Prog (SelfOp S O) (SelfOp.Ans A) E β} {w : World S O A D} {e : Happened O A}
    (h : e ∈ (p.run (exec env) w).2.log) : e ∈ ((p >>= f).run (exec env) w).2.log := by
  rw [Prog.run_bind]
  generalize p.run (exec env) w = run at h
  obtain ⟨_ | a, w'⟩ := run
  · exact h
  · exact log_grows.subset h

theorem mem_log_tryCatch {env : (o : O) → D → A o × D} {p : Prog (SelfOp S O) (SelfOp.Ans A) E α}
    {handler : E → Prog (SelfOp S O) (SelfOp.Ans A) E α} {w : World S O A D} {e : Happened O A}
    (h : e ∈ (p.run (exec env) w).2.log) :
    e ∈ ((MonadExcept.tryCatch p handler : Prog (SelfOp S O) (SelfOp.Ans A) E α).run (exec env) w).2.log := by
  rw [Prog.run_tryCatch]
  generalize p.run (exec env) w = run at h
  obtain ⟨_ | a, w'⟩ := run
  · exact log_grows.subset h
  · exact h

end Object

end AgentHarness.Lib
