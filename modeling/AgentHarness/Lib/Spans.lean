import Mathlib.Data.List.Pairwise
import Mathlib.Order.Defs.LinearOrder
import Mathlib.Tactic.SplitIfs

/-!
# Lib.Spans — keeping spans that do not overlap

A list of spans in the order of their starts is thinned from left to right: a span that begins before
the end of the last one kept is dropped.  What is kept is pairwise disjoint.  `covered_iff` says when
nothing is lost by it: the kept spans cover all of them exactly if, wherever a kept span ends inside
another span, the next kept one begins.
-/

namespace AgentHarness.Lib.Spans

variable {α : Type} (start stop : α → Nat)

/-- The spans kept, when the last one kept before ends at `last`. -/
def keepFrom : Nat → List α → List α
  | _, [] => []
  | last, a :: l => if start a < last then keepFrom last l else a :: keepFrom (stop a) l

def Within (p : Nat) (a : α) : Prop := start a ≤ p ∧ p < stop a

variable {start stop} {last : Nat} {l : List α} {a b k g : α}

theorem mem_keepFrom (h : k ∈ keepFrom start stop last l) (hl : ∀ a ∈ l, start a < stop a) :
    k ∈ l ∧ last ≤ start k := by
  induction l generalizing last with
  | nil => exact absurd h List.not_mem_nil
  | cons a l ih =>
    have hl' : ∀ b ∈ l, start b < stop b := fun b hb => hl b (List.mem_cons_of_mem _ hb)
    unfold keepFrom at h
    split_ifs at h with ha
    · obtain ⟨h₁, h₂⟩ := ih h hl'
      exact ⟨List.mem_cons_of_mem _ h₁, h₂⟩
    · rcases List.mem_cons.mp h with rfl | h
      · exact ⟨List.mem_cons_self, by omega⟩
      · obtain ⟨h₁, h₂⟩ := ih h hl'
        have := hl a List.mem_cons_self
        exact ⟨List.mem_cons_of_mem _ h₁, by omega⟩

/-- The kept spans follow each other. -/
theorem pairwise_keepFrom (hl : ∀ a ∈ l, start a < stop a) :
    (keepFrom start stop last l).Pairwise fun a b => stop a ≤ start b := by
  induction l generalizing last with
  | nil => exact List.Pairwise.nil
  | cons a l ih =>
    have hl' : ∀ b ∈ l, start b < stop b := fun b hb => hl b (List.mem_cons_of_mem _ hb)
    unfold keepFrom
    split_ifs with ha
    · exact ih hl'
    · exact List.Pairwise.cons (fun b hb => (mem_keepFrom hb hl').2) (ih hl')

/-- Two kept spans are one, or one ends before the other begins. -/
theorem disjoint_keepFrom (hl : ∀ a ∈ l, start a < stop a) (ha : a ∈ keepFrom start stop last l)
    (hb : b ∈ keepFrom start stop last l) : a = b ∨ stop a ≤ start b ∨ stop b ≤ start a := by
  have hsymm : Std.Symm fun a b : α => a = b ∨ stop a ≤ start b ∨ stop b ≤ start a := by
    refine ⟨?_⟩
    rintro x y (h | h | h)
    · exact .inl h.symm
    · exact .inr (.inr h)
    · exact .inr (.inl h)
  have hpairs : (keepFrom start stop last l).Pairwise
      fun a b => a = b ∨ stop a ≤ start b ∨ stop b ≤ start a :=
    (pairwise_keepFrom hl).imp fun h => .inr (.inl h)
  have hall := hpairs.forall_of_forall fun x _ => .inl rfl
  exact hall ha hb

/-- A span that is dropped begins inside a kept one, or before `last`. -/
theorem kept_or_inside (hs : l.Pairwise fun a b => start a ≤ start b) (hg : g ∈ l) :
    g ∈ keepFrom start stop last l ∨ start g < last ∨
      ∃ k ∈ keepFrom start stop last l, Within start stop (start g) k := by
  induction l generalizing last with
  | nil => exact absurd hg List.not_mem_nil
  | cons a l ih =>
    obtain ⟨hfirst, hs'⟩ := List.pairwise_cons.mp hs
    unfold keepFrom
    split_ifs with ha
    · rcases List.mem_cons.mp hg with rfl | hg
      · exact .inr (.inl ha)
      · exact ih hs' hg
    · rcases List.mem_cons.mp hg with rfl | hg
      · exact .inl List.mem_cons_self
      · have hrest : g ∈ keepFrom start stop (stop a) l ∨ _ := ih hs' hg
        rcases hrest with h | h | ⟨k, hk, h⟩
        · exact .inl (List.mem_cons_of_mem _ h)
        · exact .inr (.inr ⟨a, List.mem_cons_self, hfirst g hg, h⟩)
        · exact .inr (.inr ⟨k, List.mem_cons_of_mem _ hk, h⟩)

section Cover

variable (start stop)

/-- Every place of every span lies in a kept span. -/
def Covered (l : List α) : Prop :=
  ∀ g ∈ l, ∀ p, Within start stop p g → ∃ k ∈ keepFrom start stop 0 l, Within start stop p k

/-- Where a kept span ends inside another span, a kept span begins. -/
def Continued (l : List α) : Prop :=
  ∀ k ∈ keepFrom start stop 0 l, ∀ g ∈ l, start g < stop k → stop k < stop g →
    ∃ k' ∈ keepFrom start stop 0 l, start k' = stop k

end Cover

/-- From a kept span that `g` begins in, the kept spans go on up to the end of `g`. -/
theorem reach (hl : ∀ a ∈ l, start a < stop a) (hc : Continued start stop l) (hg : g ∈ l)
    {p : Nat} (hp : p < stop g) :
    ∀ n, ∀ k ∈ keepFrom start stop 0 l, stop g - stop k ≤ n → start g < stop k → start k ≤ p →
      ∃ k' ∈ keepFrom start stop 0 l, Within start stop p k' := by
  intro n
  induction n with
  | zero =>
    intro k hk hn _ hkp
    exact ⟨k, hk, hkp, by omega⟩
  | succ n ih =>
    intro k hk hn hgk hkp
    by_cases hin : p < stop k
    · exact ⟨k, hk, hkp, hin⟩
    · obtain ⟨k', hk', hstart⟩ := hc k hk g hg hgk (by omega)
      have hlt := hl k' (mem_keepFrom hk' hl).1
      exact ih k' hk' (by omega) (by omega) (by omega)

theorem covered_iff (hl : ∀ a ∈ l, start a < stop a)
    (hs : l.Pairwise fun a b => start a ≤ start b) :
    Covered start stop l ↔ Continued start stop l := by
  constructor
  · intro h k hk g hg hgk hkg
    obtain ⟨k', hk', hle, hlt⟩ := h g hg (stop k) ⟨by omega, hkg⟩
    have hkk := hl k (mem_keepFrom hk hl).1
    rcases disjoint_keepFrom hl hk hk' with rfl | hd | hd
    · omega
    · exact ⟨k', hk', by omega⟩
    · omega
  · intro hc g hg p hp
    obtain ⟨hgp, hpg⟩ := hp
    have hkept : g ∈ keepFrom start stop 0 l ∨ _ := kept_or_inside hs hg
    rcases hkept with h | h | ⟨k, hk, hkg, hgk⟩
    · exact ⟨g, h, hgp, hpg⟩
    · omega
    · exact reach hl hc hg hpg _ k hk (Nat.le_refl _) hgk (by omega)

end AgentHarness.Lib.Spans
