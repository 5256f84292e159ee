import AgentHarness.Lib.Prog

/-!
# Lib.Extend — programs that perform further operations

A program over `O` is also a program over `O ⊕ R` that performs nothing of `R` (`extend`), and a
program over `O ⊕ R` becomes one over `O` when each operation of `R` is answered by a fixed value
(`erase`).  A run of the extended program carries the state of `R` along untouched, and where the
operations of `R` are answered by these values, a run of the erased program is the run of the whole
one with the state of `R` left out.
-/

namespace AgentHarness.Lib

/-- The answers to the operations of two kinds. -/
@[reducible] def SumAns {O R : Type} (A : O → Type) (B : R → Type) : O ⊕ R → Type
  | .inl o => A o
  | .inr r => B r

variable {O R : Type} {A : O → Type} {B : R → Type} {E α β W V : Type}

namespace Prog

/-- The program, as one that may perform operations of `R` as well. -/
def extend (B : R → Type) : Prog O A E α → Prog (O ⊕ R) (SumAns A B) E α
  | ret a => ret a
  | raise e => raise e
  | op o k => op (.inl o) fun r => (k r).extend B

/-- The program without its operations of `R`: each is taken as answered by `answer`. -/
def erase (answer : (r : R) → B r) : Prog (O ⊕ R) (SumAns A B) E α → Prog O A E α
  | ret a => ret a
  | raise e => raise e
  | op (.inl o) k => op o fun r => (k r).erase answer
  | op (.inr r) k => (k (.ok (answer r))).erase answer

section Erase

variable {answer : (r : R) → B r}

@[simp] theorem erase_pure (a : α) :
    (pure a : Prog (O ⊕ R) (SumAns A B) E α).erase answer = pure a := rfl

@[simp] theorem erase_extend (p : Prog O A E α) : (p.extend B).erase answer = p := by
  induction p with
  | ret a => rfl
  | raise e => rfl
  | op o k ih => exact congrArg (op o) (funext ih)

@[simp] theorem erase_bind (p : Prog (O ⊕ R) (SumAns A B) E α)
    (f : α → Prog (O ⊕ R) (SumAns A B) E β) :
    (p >>= f).erase answer = p.erase answer >>= fun a => (f a).erase answer := by
  induction p with
  | ret a => rfl
  | raise e => rfl
  | op o k ih =>
    cases o with
    | inl o => exact congrArg (op o) (funext ih)
    | inr r => exact ih _

@[simp] theorem erase_tryCatch (p : Prog (O ⊕ R) (SumAns A B) E α)
    (h : E → Prog (O ⊕ R) (SumAns A B) E α) :
    (MonadExcept.tryCatch p h : Prog (O ⊕ R) (SumAns A B) E α).erase answer =
      MonadExcept.tryCatch (p.erase answer) fun e => (h e).erase answer := by
  induction p with
  | ret a => rfl
  | raise e => rfl
  | op o k ih =>
    cases o with
    | inl o => exact congrArg (op o) (funext ih)
    | inr r => exact ih _

@[simp] theorem erase_call (r : R) :
    (call (Sum.inr r) : Prog (O ⊕ R) (SumAns A B) E (B r)).erase answer = pure (answer r) := rfl

end Erase

/-- Each kind of operation is answered on its own state. -/
def execSum (exec : (o : O) → W → Except E (A o) × W) (note : (r : R) → V → Except E (B r) × V) :
    (x : O ⊕ R) → W × V → Except E (SumAns A B x) × W × V
  | .inl o, (w, v) => ((exec o w).1, (exec o w).2, v)
  | .inr r, (w, v) => ((note r v).1, w, (note r v).2)

variable {exec : (o : O) → W → Except E (A o) × W} {note : (r : R) → V → Except E (B r) × V}
  {w : W} {v : V}

/-- Where the operations of `R` are answered by `answer`, they are all that the erased program
lacks. -/
theorem run_erase {answer : (r : R) → B r} (hnote : ∀ r v, (note r v).1 = .ok (answer r))
    (p : Prog (O ⊕ R) (SumAns A B) E α) :
    (p.erase answer).run exec w =
      ((p.run (execSum exec note) (w, v)).1, (p.run (execSum exec note) (w, v)).2.1) := by
  induction p generalizing w v with
  | ret a => rfl
  | raise e => rfl
  | op o k ih =>
    cases o with
    | inl o => exact ih _
    | inr r =>
      have hstep : (op (.inr r) k).run (execSum exec note) (w, v) =
          (k (.ok (answer r))).run (execSum exec note) (w, (note r v).2) := by
        show (k (note r v).1).run _ _ = _
        rw [hnote]
        rfl
      rw [hstep]
      exact ih _

end Prog

section Left

variable {σ : Type} {m : Machine (O ⊕ R) (SumAns A B) E σ} {p : Prog O A E α} {Q : Except E α → σ → Prop} {s : σ}
  {P : O ⊕ R → Prop}

/-- The machine as one for the operations of `O` alone. -/
def Machine.left (m : Machine (O ⊕ R) (SumAns A B) E σ) : Machine O A E σ where
  may s o := m.may s (.inl o)
  step s o r s' := m.step s (.inl o) r s'

/-- A program over `O` conforms to a machine for both kinds as to its part for `O`. -/
theorem wp_extend_left : wp m (p.extend B) Q s ↔ wp m.left p Q s := by
  induction p generalizing s with
  | ret a => exact Iff.rfl
  | raise e => exact Iff.rfl
  | op o k ih =>
    exact and_congr_right fun _ => forall_congr' fun r => forall_congr' fun s' => imp_congr_right fun _ => ih r

theorem Prog.uses_extend : (p.extend B).Uses P ↔ p.Uses fun o => P (.inl o) := by
  induction p with
  | ret a => exact Iff.rfl
  | raise e => exact Iff.rfl
  | op o k ih => exact and_congr_right fun _ => forall_congr' fun r => ih r

end Left

section Wp

variable {exec : (o : O) → W → Except E (A o) × W} {note : (r : R) → V → Except E (B r) × V}
  {w : W} {v : V}

/-- **Frame rule.**  A program over `O` leaves the state of `R` alone. -/
theorem wp_extend {p : Prog O A E α} {Q : Except E α → W × V → Prop} :
    wp (Machine.exact (Prog.execSum exec note)) (p.extend B) Q (w, v) ↔
      wp (Machine.exact exec) p (fun r w' => Q r (w', v)) w := by
  induction p generalizing w with
  | ret a => exact Iff.rfl
  | raise e => exact Iff.rfl
  | op o k ih =>
    refine ⟨fun h => ⟨trivial, ?_⟩, fun h => ⟨trivial, ?_⟩⟩
    · rintro r w' ⟨rfl, rfl⟩
      exact (ih _).mp (h.2 _ _ ⟨rfl, rfl⟩)
    · rintro r ⟨w', v'⟩ ⟨rfl, hs⟩
      obtain ⟨rfl, rfl⟩ := Prod.mk.inj hs
      exact (ih _).mpr (h.2 _ _ ⟨rfl, rfl⟩)

/-- An operation of `R` moves the state of `R` only. -/
theorem wp_note {r : R} {Q : Except E (B r) → W × V → Prop} :
    wp (Machine.exact (Prog.execSum exec note)) (Prog.call (Sum.inr r) : Prog (O ⊕ R) (SumAns A B) E (B r))
      Q (w, v) ↔ Q (note r v).1 (w, (note r v).2) := by
  refine wp_call.trans ⟨fun h => h.2 _ _ ⟨rfl, rfl⟩, fun h => ⟨trivial, ?_⟩⟩
  rintro a s' ⟨rfl, rfl⟩
  exact h

end Wp

end AgentHarness.Lib
