import Mathlib.Order.Basic

/-!
# Lib.Retry — attempts until one of them decides

Attempts `0, 1, …, n` are made one after the other until one decides.  `Settles` says which is the last: it is the only
one (`Settles.unique`), and `at_once`, `last` and `again` follow a loop that makes the attempts.
-/

namespace AgentHarness.Lib

/-- Of the attempts up to `n`, `m` is the last that is made. -/
structure Settles (decides : ℕ → Prop) (n m : ℕ) : Prop where
  le : m ≤ n
  before : ∀ k < m, ¬ decides k
  ended : decides m ∨ m = n

namespace Settles

variable {decides : ℕ → Prop} {n m m' : ℕ}

theorem at_once (h : decides 0) : Settles decides n 0 where
  le := Nat.zero_le n
  before _ hk := absurd hk (Nat.not_lt_zero _)
  ended := .inl h

theorem last : Settles decides 0 0 where
  le := Nat.le_refl 0
  before _ hk := absurd hk (Nat.not_lt_zero _)
  ended := .inr rfl

/-- An attempt that does not decide comes before those that follow. -/
theorem again (h : ¬ decides 0) (hrest : Settles (fun k => decides (k + 1)) n m) :
    Settles decides (n + 1) (m + 1) where
  le := Nat.succ_le_succ hrest.le
  before k hk := by
    cases k with
    | zero => exact h
    | succ k => exact hrest.before k (Nat.lt_of_succ_lt_succ hk)
  ended := hrest.ended.imp_right fun hm => by rw [hm]

theorem unique (h : Settles decides n m) (h' : Settles decides n m') : m = m' := by
  have hle : ∀ {a b : ℕ}, Settles decides n a → Settles decides n b → a ≤ b := by
    intro a b ha hb
    by_contra hlt
    rw [Nat.not_le] at hlt
    rcases hb.ended with hdecides | rfl
    · exact ha.before b hlt hdecides
    · exact absurd ha.le (Nat.not_le.mpr hlt)
  exact Nat.le_antisymm (hle h h') (hle h' h)

end Settles

end AgentHarness.Lib
