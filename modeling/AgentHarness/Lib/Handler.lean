import AgentHarness.Lib.Prog

/-!
# Lib.Handler — programs whose operations are programs

`Prog.interp h` performs each operation by the program that `h` gives for it; an exception there is the
operation's.  So a part of a system is described over operations of its own, and what it does over the
operations below is read off: `interp` commutes with the constructs of programs, and a run of `interp h p`
is a run of `p` in which each operation is answered by a run of `h`.
-/

namespace AgentHarness.Lib

namespace Prog

variable {O O' : Type} {A : O → Type} {A' : O' → Type} {E α β W W' : Type}

/-- The answer or the exception of a program, as a value. -/
def outcome (p : Prog O A E α) : Prog O A E (Except E α) :=
  MonadExcept.tryCatch (p >>= fun a => Pure.pure (.ok a)) fun e => Pure.pure (.error e)

def interp (h : (o : O) → Prog O' A' E (A o)) : Prog O A E α → Prog O' A' E α
  | ret a => .ret a
  | raise e => .raise e
  | op o k => outcome (h o) >>= fun r => interp h (k r)

section Interp

variable {h : (o : O) → Prog O' A' E (A o)}

theorem interp_bind {p : Prog O A E α} {f : α → Prog O A E β} :
    (p >>= f).interp h = p.interp h >>= fun a => (f a).interp h := by
  induction p with
  | ret a => rfl
  | raise e => rfl
  | op o k ih =>
    show (outcome (h o) >>= fun r => interp h (k r >>= f)) = (outcome (h o) >>= fun r => interp h (k r)) >>= _
    rw [bind_assoc]
    exact congrArg (outcome (h o) >>= ·) (funext ih)

theorem outcome_bind {p : Prog O A E α} {f : Except E α → Prog O A E β} :
    (outcome p >>= f) = match p with
      | ret a => f (.ok a)
      | raise e => f (.error e)
      | op o k => .op o fun r => outcome (k r) >>= f := by
  cases p <;> rfl

/-- An operation is the program that performs it. -/
theorem interp_call {o : O} : (call o : Prog O A E (A o)).interp h = h o := by
  unfold call
  rw [interp]
  generalize h o = p
  induction p with
  | ret a => rfl
  | raise e => rfl
  | op o k ih =>
    rw [outcome_bind]
    exact congrArg (Prog.op o) (funext ih)

theorem interp_ofExcept {x : Except E α} : (ofExcept x : Prog O A E α).interp h = ofExcept x := by
  cases x <;> rfl

theorem run_outcome {exec : (o : O) → W → Except E (A o) × W} {p : Prog O A E α} {w : W} :
    (outcome p).run exec w = (.ok (p.run exec w).1, (p.run exec w).2) := by
  unfold outcome
  rw [run_tryCatch, run_bind]
  rcases p.run exec w with ⟨_ | _, w'⟩ <;> rfl

/-- **Runs.**  An operation is answered by a run of its program. -/
theorem run_interp {exec : (o : O') → W → Except E (A' o) × W} {p : Prog O A E α} {w : W} :
    (p.interp h).run exec w = p.run (fun o w => (h o).run exec w) w := by
  induction p generalizing w with
  | ret a => rfl
  | raise e => rfl
  | op o k ih =>
    show ((outcome (h o) >>= fun r => interp h (k r)).run exec w) = _
    rw [run_bind, run_outcome]
    exact ih _

end Interp

/-- Two worlds that answer alike, and stay related, run a program alike. -/
theorem run_rel {exec : (o : O) → W → Except E (A o) × W} {exec' : (o : O) → W' → Except E (A o) × W'}
    {R : W → W' → Prop} (hexec : ∀ o w w', R w w' → (exec o w).1 = (exec' o w').1 ∧ R (exec o w).2 (exec' o w').2)
    {p : Prog O A E α} {w : W} {w' : W'} (hw : R w w') :
    (p.run exec w).1 = (p.run exec' w').1 ∧ R (p.run exec w).2 (p.run exec' w').2 := by
  induction p generalizing w w' with
  | ret a => exact ⟨rfl, hw⟩
  | raise e => exact ⟨rfl, hw⟩
  | op o k ih =>
    obtain ⟨hanswer, hstep⟩ := hexec o w w' hw
    show ((k (exec o w).1).run exec (exec o w).2).1 = ((k (exec' o w').1).run exec' (exec' o w').2).1 ∧
      R ((k (exec o w).1).run exec (exec o w).2).2 ((k (exec' o w').1).run exec' (exec' o w').2).2
    rw [hanswer]
    exact ih _ hstep

/-! ## What a program returns -/

/-- Every value that the program may return, on any path, satisfies `P`. -/
def Returns (P : α → Prop) : Prog O A E α → Prop
  | ret a => P a
  | raise _ => True
  | op _ k => ∀ r, (k r).Returns P

section Returns

variable {P : α → Prop} {Q : β → Prop} {p : Prog O A E α}

@[simp] theorem returns_pure {a : α} : (Pure.pure a : Prog O A E α).Returns P ↔ P a := Iff.rfl

theorem returns_true : p.Returns fun _ => True := by
  induction p with
  | ret a => trivial
  | raise e => trivial
  | op o k ih => exact ih

theorem Returns.mono {P' : α → Prop} (hp : p.Returns P) (h : ∀ a, P a → P' a) : p.Returns P' := by
  induction p with
  | ret a => exact h a hp
  | raise e => trivial
  | op o k ih => exact fun r => ih r (hp r)

theorem Returns.bind {f : α → Prog O A E β} (hp : p.Returns P) (hf : ∀ a, P a → (f a).Returns Q) :
    (p >>= f).Returns Q := by
  induction p with
  | ret a => exact hf a hp
  | raise e => trivial
  | op o k ih => exact fun r => ih r (hp r)

theorem returns_ofExcept {x : Except E α} (h : ∀ a, x = .ok a → P a) : (ofExcept x : Prog O A E α).Returns P := by
  cases x with
  | error e => trivial
  | ok a => exact h a rfl

/-- Where nothing need be known of the first value. -/
theorem returns_bind {f : α → Prog O A E β} (hf : ∀ a, (f a).Returns Q) : (p >>= f).Returns Q :=
  returns_true.bind fun a _ => hf a

theorem returns_map {f : α → β} (h : p.Returns fun a => Q (f a)) : (f <$> p).Returns Q := by
  have hmap : f <$> p = p >>= fun a => Pure.pure (f a) := (bind_pure_comp f p).symm
  rw [hmap]
  exact h.bind fun a ha => ha

theorem Returns.run {exec : (o : O) → W → Except E (A o) × W} {w : W} {a : α} (hp : p.Returns P)
    (h : (p.run exec w).1 = .ok a) : P a := by
  induction p generalizing w with
  | ret b =>
    obtain rfl := Except.ok.inj h
    exact hp
  | raise e => cases h
  | op o k ih => exact ih _ (hp _) h

end Returns

end Prog

end AgentHarness.Lib
