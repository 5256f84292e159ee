import Mathlib.Data.List.Basic

/-!
# Lib.Framing — pieces of a stream that end with a separator

The buffer of a reader is cut at the first separator as long as there is one, and what is left waits for more.
`frames_append` is that it does not matter how much of the stream is there when the buffer is cut: a separator
that is found stays the first one.
-/

namespace AgentHarness.Lib.Framing

variable {α : Type} [DecidableEq α] (s : α) (sep : List α)

/-- What stands before the first separator `s :: sep`, and after it. -/
def cut : List α → Option (List α × List α)
  | [] => none
  | x :: l =>
    if s :: sep <+: x :: l then some ([], l.drop sep.length)
    else (cut l).map fun (before, after) => (x :: before, after)

variable {s sep} {l m before after : List α} {x : α}

theorem eq_of_cut (h : cut s sep l = some (before, after)) : l = before ++ s :: sep ++ after := by
  induction l generalizing before with
  | nil => cases h
  | cons x l ih =>
    unfold cut at h
    split_ifs at h with hprefix
    · obtain ⟨rfl, rfl⟩ := Prod.mk.inj (Option.some.inj h)
      obtain ⟨rest, hrest⟩ := hprefix
      obtain ⟨rfl, hl⟩ := List.cons.inj hrest
      have hl : l = sep ++ rest := hl.symm
      rw [hl, List.drop_left]
      rfl
    · obtain ⟨⟨before', after'⟩, hcut, heq⟩ := Option.map_eq_some_iff.mp h
      obtain ⟨rfl, rfl⟩ := Prod.mk.inj heq
      rw [ih hcut]
      rfl

theorem length_cut (h : cut s sep l = some (before, after)) : after.length < l.length := by
  have := congrArg List.length (eq_of_cut h)
  simp only [List.length_append, List.length_cons] at this
  omega

variable (s sep) in
/-- The pieces of the buffer, and what is left in it. -/
def frames (l : List α) : List (List α) × List α :=
  match _h : cut s sep l with
  | none => ([], l)
  | some (before, after) => (before :: (frames after).1, (frames after).2)
termination_by l.length
decreasing_by all_goals exact length_cut _h

theorem frames_none (h : cut s sep l = none) : frames s sep l = ([], l) := by
  unfold frames
  split
  · rfl
  · rename_i hcut
    rw [h] at hcut
    cases hcut

theorem frames_some (h : cut s sep l = some (before, after)) :
    frames s sep l = (before :: (frames s sep after).1, (frames s sep after).2) := by
  rw [frames]
  split
  · rename_i hcut
    rw [h] at hcut
    cases hcut
  · rename_i hcut
    rw [h] at hcut
    obtain ⟨rfl, rfl⟩ := Prod.mk.inj (Option.some.inj hcut)
    rfl

/-- A separator that is found stays the first one. -/
theorem cut_append (h : cut s sep l = some (before, after)) : cut s sep (l ++ m) = some (before, after ++ m) := by
  induction l generalizing before with
  | nil => cases h
  | cons x l ih =>
    have hlen := congrArg List.length (eq_of_cut h)
    simp only [List.length_append, List.length_cons] at hlen
    unfold cut at h
    rw [List.cons_append]
    unfold cut
    split_ifs at h with hprefix
    · obtain ⟨rfl, rfl⟩ := Prod.mk.inj (Option.some.inj h)
      have hlonger : s :: sep <+: x :: (l ++ m) := by
        rw [← List.cons_append]
        exact hprefix.trans (List.prefix_append _ _)
      rw [if_pos hlonger, List.drop_append_of_le_length (by omega)]
    · obtain ⟨⟨before', after'⟩, hcut, heq⟩ := Option.map_eq_some_iff.mp h
      obtain ⟨rfl, rfl⟩ := Prod.mk.inj heq
      have hno : ¬ s :: sep <+: x :: (l ++ m) := by
        intro hlonger
        rw [← List.cons_append] at hlonger
        refine hprefix (List.prefix_of_prefix_length_le hlonger (List.prefix_append _ _) ?_)
        rw [List.length_cons, List.length_cons]
        omega
      rw [if_neg hno, ih hcut]
      rfl

/-- **Any chunks.**  What is left of a part of the stream is cut with the rest of it. -/
theorem frames_append : frames s sep (l ++ m) =
    ((frames s sep l).1 ++ (frames s sep ((frames s sep l).2 ++ m)).1, (frames s sep ((frames s sep l).2 ++ m)).2) := by
  induction hn : l.length using Nat.strongRecOn generalizing l with
  | ind n ih =>
    cases hcut : cut s sep l with
    | none =>
      rw [frames_none hcut]
      rfl
    | some parts =>
      obtain ⟨before, after⟩ := parts
      rw [frames_some hcut, frames_some (cut_append hcut), ih after.length (hn ▸ length_cut hcut) rfl]
      rfl

/-- No separator is left. -/
theorem cut_frames : cut s sep (frames s sep l).2 = none := by
  induction hn : l.length using Nat.strongRecOn generalizing l with
  | ind n ih =>
    cases hcut : cut s sep l with
    | none => rwa [frames_none hcut]
    | some parts =>
      obtain ⟨before, after⟩ := parts
      rw [frames_some hcut]
      exact ih after.length (hn ▸ length_cut hcut) rfl

/-! ## Pieces without a separator -/

theorem cut_skip (h : ¬ s :: sep <+: x :: l) :
    cut s sep (x :: l) = (cut s sep l).map fun (before, after) => (x :: before, after) := by
  rw [cut, if_neg h]

/-- Where the first letter of the separator does not stand, no separator begins. -/
theorem cut_append_of_not_mem (h : s ∉ l) :
    cut s sep (l ++ m) = (cut s sep m).map fun (before, after) => (l ++ before, after) := by
  induction l with
  | nil => simp
  | cons x l ih =>
    obtain ⟨hx, hl⟩ := not_or.mp fun hmem => h (List.mem_cons.mpr hmem)
    have hno : ¬ s :: sep <+: x :: (l ++ m) := fun hprefix => hx (List.cons_prefix_cons.mp hprefix).1
    rw [List.cons_append, cut_skip hno, ih hl, Option.map_map]
    rfl

theorem cut_separator : cut s sep (s :: sep ++ m) = some ([], m) := by
  rw [List.cons_append, cut, if_pos (by simp), List.drop_left]

end AgentHarness.Lib.Framing
