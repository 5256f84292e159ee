import Mathlib.Data.List.Forall2

/-!
# Lib.Mealy — a machine that answers requests, and its runs

A `Mealy` machine takes a request in a state to the next state and an answer.  `Meets` says that every request of a
run meets a condition in the state it comes in.  A run keeps what each step keeps (`invariant`), and two machines whose
steps stay in a relation answer a run alike (`simulates`).
-/

namespace AgentHarness.Lib

/-- The next state, and the answer. -/
abbrev Mealy (ι σ ρ : Type) := ι → σ → σ × ρ

namespace Mealy

variable {ι σ τ ρ ρ' : Type}

/-- The state after a run. -/
def final (f : Mealy ι σ ρ) : List ι → σ → σ
  | [], s => s
  | i :: is, s => final f is (f i s).1

/-- The answers of a run. -/
def answers (f : Mealy ι σ ρ) : List ι → σ → List ρ
  | [], _ => []
  | i :: is, s => (f i s).2 :: answers f is (f i s).1

/-- Every request of the run meets the condition in the state it comes in. -/
def Meets (ok : ι → σ → Prop) (f : Mealy ι σ ρ) : List ι → σ → Prop
  | [], _ => True
  | i :: is, s => ok i s ∧ Meets ok f is (f i s).1

variable {f : Mealy ι σ ρ} {g : Mealy ι τ ρ'} {ok : ι → σ → Prop}

theorem final_append (is js : List ι) (s : σ) : final f (is ++ js) s = final f js (final f is s) := by
  induction is generalizing s with
  | nil => rfl
  | cons i is ih => exact ih _

theorem meets_of_forall (h : ∀ i s, ok i s) (is : List ι) (s : σ) : Meets ok f is s := by
  induction is generalizing s with
  | nil => trivial
  | cons i is ih => exact ⟨h i s, ih _⟩

/-- **The run rule.**  What every step keeps is kept by a run. -/
theorem invariant {I : σ → Prop} (hstep : ∀ i s, I s → ok i s → I (f i s).1) {is : List ι} {s : σ} (hs : I s)
    (h : Meets ok f is s) : I (final f is s) := by
  induction is generalizing s with
  | nil => exact hs
  | cons i is ih => exact ih (hstep i s hs h.1) h.2

/-- **The simulation rule.**  Steps that stay in a relation and answer alike make runs that do. -/
theorem simulates {R : σ → τ → Prop} {A : ρ → ρ' → Prop}
    (hstep : ∀ i s t, R s t → ok i s → R (f i s).1 (g i t).1 ∧ A (f i s).2 (g i t).2) {is : List ι} {s : σ} {t : τ}
    (hst : R s t) (h : Meets ok f is s) :
    R (final f is s) (final g is t) ∧ List.Forall₂ A (answers f is s) (answers g is t) := by
  induction is generalizing s t with
  | nil => exact ⟨hst, .nil⟩
  | cons i is ih =>
    obtain ⟨hnext, hans⟩ := hstep i s t hst h.1
    obtain ⟨hfinal, hrest⟩ := ih hnext h.2
    exact ⟨hfinal, .cons hans hrest⟩

/-- Machines in lockstep give equal answers. -/
theorem answers_eq {g : Mealy ι τ ρ} {R : σ → τ → Prop}
    (hstep : ∀ i s t, R s t → ok i s → R (f i s).1 (g i t).1 ∧ (f i s).2 = (g i t).2) {is : List ι} {s : σ} {t : τ}
    (hst : R s t) (h : Meets ok f is s) : answers f is s = answers g is t := by
  have hall := (simulates (A := Eq) hstep hst h).2
  rwa [List.forall₂_eq_eq_eq] at hall

end Mealy

end AgentHarness.Lib
