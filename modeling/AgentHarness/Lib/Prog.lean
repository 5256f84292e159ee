import Mathlib.Logic.Function.Basic

/-!
# Lib.Prog — programs over atomic operations

A `Prog O A E α` is a program whose only effects are operations `o : O`, each answered by a value
of `A o` or by an exception of type `E`.  It is a tree: the node of an operation has one subtree
for every possible answer, so a program says what is done after every answer, a failing one
included.  `raise` and `tryCatch` give the exceptions of the source language.

`wp m p Q s` is the weakest precondition of `p` on an abstract machine `m` (a set of states, the
operations each state permits, and how an answered operation moves the state).  The same rules
serve a machine that is the real store and a machine that only follows the phases of one program.
`Uses P p` says that every operation of `p`, on every path, satisfies `P`.
-/

namespace AgentHarness.Lib

/-- Programs over operations `O` answered in `A` or by an exception in `E`. -/
inductive Prog (O : Type) (A : O → Type) (E : Type) (α : Type) : Type where
  | ret (a : α)
  | raise (e : E)
  | op (o : O) (k : Except E (A o) → Prog O A E α)

variable {O : Type} {A : O → Type} {E α β γ σ : Type}

namespace Prog

def bind : Prog O A E α → (α → Prog O A E β) → Prog O A E β
  | ret a, f => f a
  | raise e, _ => raise e
  | op o k, f => op o (fun r => (k r).bind f)

/-- `try p except e: h e`. -/
def tryCatch : Prog O A E α → (E → Prog O A E α) → Prog O A E α
  | ret a, _ => ret a
  | raise e, h => h e
  | op o k, h => op o (fun r => (k r).tryCatch h)

instance : Monad (Prog O A E) where
  pure := ret
  bind := bind

instance : MonadExceptOf E (Prog O A E) where
  throw := raise
  tryCatch := tryCatch

/-- Perform `o`; an exceptional answer is raised. -/
def call (o : O) : Prog O A E (A o) :=
  op o fun
    | .ok a => ret a
    | .error e => raise e

/-- A pure computation that may raise. -/
def ofExcept : Except E α → Prog O A E α
  | .ok a => ret a
  | .error e => raise e

@[simp] theorem ofExcept_ok (a : α) : (ofExcept (.ok a) : Prog O A E α) = pure a := rfl

@[simp] theorem ofExcept_error (e : E) : (ofExcept (.error e) : Prog O A E α) = raise e := rfl

@[simp] theorem pure_bind' (a : α) (f : α → Prog O A E β) : (pure a >>= f) = f a := rfl

@[simp] theorem raise_bind (e : E) (f : α → Prog O A E β) : (raise e >>= f) = raise e := rfl

@[simp] theorem tryCatch_pure (a : α) (h : E → Prog O A E α) :
    MonadExcept.tryCatch (pure a : Prog O A E α) h = pure a := rfl

@[simp] theorem tryCatch_raise (e : E) (h : E → Prog O A E α) :
    MonadExcept.tryCatch (raise e : Prog O A E α) h = h e := rfl

theorem bind_assoc' (p : Prog O A E α) (f : α → Prog O A E β) (g : β → Prog O A E γ) :
    ((p >>= f) >>= g) = p >>= fun a => f a >>= g := by
  induction p with
  | ret a => rfl
  | raise e => rfl
  | op o k ih => exact congrArg (op o) (funext ih)

theorem bind_pure' (p : Prog O A E α) : (p >>= pure) = p := by
  induction p with
  | ret a => rfl
  | raise e => rfl
  | op o k ih => exact congrArg (op o) (funext ih)

instance : LawfulMonad (Prog O A E) :=
  LawfulMonad.mk' _ (fun p => bind_pure' p) (fun a f => pure_bind' a f)
    (fun p f g => bind_assoc' p f g)

/-! ## Deterministic runs -/

/-- The run of `p` from `w` when `exec` answers every operation. -/
def run {W : Type} (exec : (o : O) → W → Except E (A o) × W) : Prog O A E α → W → Except E α × W
  | ret a, w => (.ok a, w)
  | raise e, w => (.error e, w)
  | op o k, w => (k (exec o w).1).run exec (exec o w).2

/-- The continuation runs in the world that is left. -/
theorem run_bind {W : Type} {exec : (o : O) → W → Except E (A o) × W} {p : Prog O A E α}
    {f : α → Prog O A E β} {w : W} :
    (p >>= f).run exec w = match p.run exec w with
      | (.ok a, w') => (f a).run exec w'
      | (.error e, w') => (.error e, w') := by
  induction p generalizing w with
  | ret a => rfl
  | raise e => rfl
  | op o k ih => exact ih _

theorem run_call {W : Type} {exec : (o : O) → W → Except E (A o) × W} {o : O} {w : W} :
    (call o).run exec w = exec o w := by
  show (match (exec o w).1 with
    | .ok a => ret a
    | .error e => raise e : Prog O A E (A o)).run exec (exec o w).2 = exec o w
  rcases exec o w with ⟨_ | _, w'⟩ <;> rfl

/-- The handler runs in the world that the exception leaves. -/
theorem run_tryCatch {W : Type} {exec : (o : O) → W → Except E (A o) × W} {p : Prog O A E α}
    {h : E → Prog O A E α} {w : W} :
    (MonadExcept.tryCatch p h : Prog O A E α).run exec w = match p.run exec w with
      | (.ok a, w') => (.ok a, w')
      | (.error e, w') => (h e).run exec w' := by
  induction p generalizing w with
  | ret a => rfl
  | raise e => rfl
  | op o k ih => exact ih _

/-! ## The operations of a program -/

/-- Every operation on every path of the program satisfies `P`. -/
def Uses (P : O → Prop) : Prog O A E α → Prop
  | ret _ => True
  | raise _ => True
  | op o k => P o ∧ ∀ r, (k r).Uses P

section Uses

variable {P P' : O → Prop}

@[simp] theorem uses_pure (a : α) : Uses P (pure a : Prog O A E α) := trivial

@[simp] theorem uses_raise (e : E) : Uses P (raise e : Prog O A E α) := trivial

@[simp] theorem uses_ofExcept (x : Except E α) : Uses P (ofExcept x : Prog O A E α) := by
  cases x <;> exact trivial

@[simp] theorem uses_call {o : O} : Uses P (call o : Prog O A E (A o)) ↔ P o := by
  refine ⟨fun h => h.1, fun h => ⟨h, fun r => ?_⟩⟩
  cases r <;> exact trivial

theorem Uses.bind {p : Prog O A E α} {f : α → Prog O A E β} (hp : p.Uses P)
    (hf : ∀ a, (f a).Uses P) : (p >>= f).Uses P := by
  induction p with
  | ret a => exact hf a
  | raise e => exact trivial
  | op o k ih => exact ⟨hp.1, fun r => ih r (hp.2 r)⟩

theorem Uses.tryCatch {p : Prog O A E α} {h : E → Prog O A E α} (hp : p.Uses P)
    (hh : ∀ e, (h e).Uses P) : (MonadExcept.tryCatch p h : Prog O A E α).Uses P := by
  induction p with
  | ret a => exact trivial
  | raise e => exact hh e
  | op o k ih => exact ⟨hp.1, fun r => ih r (hp.2 r)⟩

theorem Uses.mono {p : Prog O A E α} (hp : p.Uses P) (h : ∀ o, P o → P' o) : p.Uses P' := by
  induction p with
  | ret a => exact trivial
  | raise e => exact trivial
  | op o k ih => exact ⟨h o hp.1, fun r => ih r (hp.2 r)⟩

theorem Uses.and {p : Prog O A E α} (h : p.Uses P) (h' : p.Uses P') : p.Uses fun o => P o ∧ P' o := by
  induction p with
  | ret a => trivial
  | raise e => trivial
  | op o k ih => exact ⟨⟨h.1, h'.1⟩, fun r => ih r (h.2 r) (h'.2 r)⟩

theorem uses_true (p : Prog O A E α) : p.Uses fun _ => True := by
  induction p with
  | ret a => trivial
  | raise e => trivial
  | op o k ih => exact ⟨trivial, ih⟩

/-- A call is answered by every value of its answer type, so nothing is lost in this direction. -/
@[simp] theorem uses_call_bind {o : O} {f : A o → Prog O A E β} :
    (call o >>= f).Uses P ↔ P o ∧ ∀ a, (f a).Uses P := by
  refine ⟨fun h => ⟨h.1, fun a => h.2 (.ok a)⟩, fun h => ⟨h.1, fun r => ?_⟩⟩
  cases r with
  | ok a => exact h.2 a
  | error e => exact trivial

theorem uses_ofExcept_bind {x : Except E α} {f : α → Prog O A E β}
    (h : ∀ a, x = .ok a → (f a).Uses P) : (ofExcept x >>= f).Uses P := by
  cases x with
  | ok a => exact h a rfl
  | error e => trivial

@[simp] theorem uses_map {p : Prog O A E α} {f : α → β} : (f <$> p).Uses P ↔ p.Uses P := by
  have hmap : f <$> p = p >>= fun a => pure (f a) := (bind_pure_comp f p).symm
  rw [hmap]
  refine ⟨fun h => ?_, fun h => h.bind fun _ => trivial⟩
  induction p with
  | ret a => trivial
  | raise e => trivial
  | op o k ih => exact ⟨h.1, fun r => ih r rfl (h.2 r)⟩

@[simp] theorem uses_ite {c : Prop} [Decidable c] {p q : Prog O A E α} :
    (if c then p else q).Uses P ↔ (c → p.Uses P) ∧ (¬ c → q.Uses P) := by
  by_cases h : c <;> simp [h]

end Uses

end Prog

/-! ## Machines and weakest preconditions -/

/-- An abstract machine for operations `O`: what a state permits, and how an answered operation
moves it. -/
structure Machine (O : Type) (A : O → Type) (E : Type) (σ : Type) where
  may : σ → O → Prop
  step : σ → (o : O) → Except E (A o) → σ → Prop

/-- `p` started in `s` performs only permitted operations, and every end satisfies `Q`. -/
def wp (m : Machine O A E σ) : Prog O A E α → (Except E α → σ → Prop) → σ → Prop
  | .ret a, Q, s => Q (.ok a) s
  | .raise e, Q, s => Q (.error e) s
  | .op o k, Q, s => m.may s o ∧ ∀ r s', m.step s o r s' → wp m (k r) Q s'

section Wp

variable {m : Machine O A E σ} {Q Q' : Except E α → σ → Prop} {s : σ}

@[simp] theorem wp_pure {a : α} : wp m (pure a : Prog O A E α) Q s ↔ Q (.ok a) s := Iff.rfl

@[simp] theorem wp_raise {e : E} : wp m (.raise e : Prog O A E α) Q s ↔ Q (.error e) s := Iff.rfl

@[simp] theorem wp_throw {e : E} : wp m (throw e : Prog O A E α) Q s ↔ Q (.error e) s := Iff.rfl

theorem wp_mono {p : Prog O A E α} (h : wp m p Q s) (hQ : ∀ r s', Q r s' → Q' r s') :
    wp m p Q' s := by
  induction p generalizing s with
  | ret a => exact hQ _ _ h
  | raise e => exact hQ _ _ h
  | op o k ih => exact ⟨h.1, fun r s' hr => ih r (h.2 r s' hr)⟩

theorem wp_and {p : Prog O A E α} (h : wp m p Q s) (h' : wp m p Q' s) : wp m p (fun r s' => Q r s' ∧ Q' r s') s := by
  induction p generalizing s with
  | ret a => exact ⟨h, h'⟩
  | raise e => exact ⟨h, h'⟩
  | op o k ih => exact ⟨h.1, fun r s' hr => ih r (h.2 r s' hr) (h'.2 r s' hr)⟩

/-- **Sequencing.**  The continuation is entered with the value of `p`; an exception skips it. -/
theorem wp_bind {p : Prog O A E α} {f : α → Prog O A E β} {Q : Except E β → σ → Prop} :
    wp m (p >>= f) Q s ↔ wp m p (fun r s' => match r with
      | .ok a => wp m (f a) Q s'
      | .error e => Q (.error e) s') s := by
  induction p generalizing s with
  | ret a => exact Iff.rfl
  | raise e => exact Iff.rfl
  | op o k ih =>
    exact and_congr_right fun _ => forall_congr' fun r => forall_congr' fun s' =>
      imp_congr_right fun _ => ih r

theorem wp_tryCatch {p : Prog O A E α} {h : E → Prog O A E α} :
    wp m (MonadExcept.tryCatch p h : Prog O A E α) Q s ↔ wp m p (fun r s' => match r with
      | .ok a => Q (.ok a) s'
      | .error e => wp m (h e) Q s') s := by
  induction p generalizing s with
  | ret a => exact Iff.rfl
  | raise e => exact Iff.rfl
  | op o k ih =>
    exact and_congr_right fun _ => forall_congr' fun r => forall_congr' fun s' =>
      imp_congr_right fun _ => ih r

theorem wp_call {o : O} {Q : Except E (A o) → σ → Prop} :
    wp m (Prog.call o : Prog O A E (A o)) Q s ↔
      m.may s o ∧ ∀ r s', m.step s o r s' → Q r s' := by
  refine and_congr_right fun _ => forall_congr' fun r => forall_congr' fun s' => ?_
  cases r <;> exact Iff.rfl

theorem wp_seq {p : Prog O A E α} {f : α → Prog O A E β} {Q : Except E β → σ → Prop}
    {R : Except E α → σ → Prop} (hp : wp m p R s) (hok : ∀ a s', R (.ok a) s' → wp m (f a) Q s')
    (herr : ∀ e s', R (.error e) s' → Q (.error e) s') : wp m (p >>= f) Q s := by
  refine wp_bind.mpr (wp_mono hp ?_)
  rintro (e | a) s' h
  · exact herr e s' h
  · exact hok a s' h

theorem wp_try {p : Prog O A E α} {h : E → Prog O A E α} {R : Except E α → σ → Prop}
    (hp : wp m p R s) (hok : ∀ a s', R (.ok a) s' → Q (.ok a) s')
    (herr : ∀ e s', R (.error e) s' → wp m (h e) Q s') :
    wp m (MonadExcept.tryCatch p h : Prog O A E α) Q s := by
  refine wp_tryCatch.mpr (wp_mono hp ?_)
  rintro (e | a) s' hr
  · exact herr e s' hr
  · exact hok a s' hr

/-- The result of a part, caught with its exception. -/
theorem wp_attempt {p : Prog O A E α} (h : wp m p Q s) :
    wp m (MonadExcept.tryCatch (p >>= fun a => pure (Except.ok a)) fun e => pure (Except.error e) :
      Prog O A E (Except E α)) (fun r s' => ∃ r', r = .ok r' ∧ Q r' s') s := by
  refine wp_try (R := fun r s' => (∃ a, r = .ok (.ok a) ∧ Q (.ok a) s') ∨ ∃ e, r = .error e ∧ Q (.error e) s')
    (wp_seq h (fun a s' ha => .inl ⟨a, rfl, ha⟩) fun e s' he => .inr ⟨e, rfl, he⟩) ?_ ?_
  · rintro a s' (⟨a', ⟨⟩, ha⟩ | ⟨e, he, -⟩)
    · exact ⟨_, rfl, ha⟩
    · cases he
  · rintro e s' (⟨a', ha, -⟩ | ⟨e', ⟨⟩, he⟩)
    · cases ha
    · exact ⟨_, rfl, he⟩

/-- The operations in `P` are permitted where `I` holds, and keep `I`. -/
def Machine.Keeps (m : Machine O A E σ) (P : O → Prop) (I : σ → Prop) : Prop :=
  ∀ o, P o → ∀ s, I s → m.may s o ∧ ∀ r s', m.step s o r s' → I s'

/-- **Footprint rule.**  A program that only performs operations keeping `I` keeps `I`. -/
theorem wp_of_keeps {P : O → Prop} {I : σ → Prop} (hm : m.Keeps P I) {p : Prog O A E α}
    (hu : p.Uses P) (hs : I s) : wp m p (fun _ s' => I s') s := by
  induction p generalizing s with
  | ret a => exact hs
  | raise e => exact hs
  | op o k ih =>
    obtain ⟨hmay, hstep⟩ := hm o hu.1 s hs
    exact ⟨hmay, fun r s' hr => ih r (hu.2 r) (hstep r s' hr)⟩

/-- `p` performs only permitted operations, from every state. -/
def Machine.Safe (m : Machine O A E σ) (p : Prog O A E α) : Prop := ∀ s, wp m p (fun _ _ => True) s

namespace Machine.Safe

theorem pure (a : α) : m.Safe (Pure.pure a : Prog O A E α) := fun _ => trivial

theorem raise (e : E) : m.Safe (.raise e : Prog O A E α) := fun _ => trivial

theorem ofExcept (x : Except E α) : m.Safe (Prog.ofExcept x) := by
  cases x <;> exact fun _ => trivial

theorem bind {p : Prog O A E α} {f : α → Prog O A E β} (hp : m.Safe p) (hf : ∀ a, m.Safe (f a)) :
    m.Safe (p >>= f) :=
  fun s => wp_seq (hp s) (fun a s' _ => hf a s') fun _ _ _ => trivial

theorem tryCatch {p : Prog O A E α} {h : E → Prog O A E α} (hp : m.Safe p) (hh : ∀ e, m.Safe (h e)) :
    m.Safe (MonadExcept.tryCatch p h : Prog O A E α) :=
  fun s => wp_try (hp s) (fun _ _ _ => trivial) fun e s' _ => hh e s'

/-- Operations that every state permits are safe. -/
theorem of_uses {P : O → Prop} (hP : ∀ o, P o → ∀ s, m.may s o) {p : Prog O A E α} (hu : p.Uses P) :
    m.Safe p :=
  fun _ => wp_of_keeps (fun o ho s _ => ⟨hP o ho s, fun _ _ _ => trivial⟩) hu trivial

end Machine.Safe

/-- A run on the real state follows a machine that answers the way the state does. -/
theorem wp_run {W : Type} {exec : (o : O) → W → Except E (A o) × W} {Rel : W → σ → Prop}
    (hsim : ∀ w s o, Rel w s → m.may s o →
      ∃ s', m.step s o (exec o w).1 s' ∧ Rel (exec o w).2 s')
    {p : Prog O A E α} {w : W} (hw : Rel w s) (hp : wp m p Q s) :
    ∃ s', Rel (p.run exec w).2 s' ∧ Q (p.run exec w).1 s' := by
  induction p generalizing w s with
  | ret a => exact ⟨s, hw, hp⟩
  | raise e => exact ⟨s, hw, hp⟩
  | op o k ih =>
    obtain ⟨s', hstep, hrel⟩ := hsim w s o hw hp.1
    exact ih _ hrel (hp.2 _ s' hstep)

/-- The machine whose state is the world, answered by `exec`. -/
def Machine.exact {W : Type} (exec : (o : O) → W → Except E (A o) × W) : Machine O A E W where
  may _ _ := True
  step w o r w' := r = (exec o w).1 ∧ w' = (exec o w).2

/-- On the exact machine `wp` is the run itself. -/
theorem wp_exact {W : Type} {exec : (o : O) → W → Except E (A o) × W} {p : Prog O A E α}
    {Q : Except E α → W → Prop} {w : W} :
    wp (Machine.exact exec) p Q w ↔ Q (p.run exec w).1 (p.run exec w).2 := by
  induction p generalizing w with
  | ret a => exact Iff.rfl
  | raise e => exact Iff.rfl
  | op o k ih =>
    refine ⟨fun h => (ih _).mp (h.2 _ _ ⟨rfl, rfl⟩), fun h => ⟨trivial, ?_⟩⟩
    rintro r w' ⟨rfl, rfl⟩
    exact (ih _).mpr h

end Wp

end AgentHarness.Lib
