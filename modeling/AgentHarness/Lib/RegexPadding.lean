import AgentHarness.Lib.WordSearch

/-!
# Lib.RegexPadding — patterns without anchors in a longer text

A pattern that does not look at what stands around its match matches the same in a longer text: `Padded` relates the
places of both, and `run_padded` goes through the pattern.  So it occurs in every text that has one in which it occurs.
-/

namespace AgentHarness.Lib

namespace Regex

/-- The pattern looks at nothing outside of its match. -/
def free : Regex → Bool
  | one _ | many _ _ _ | few _ => true
  | cat r s | alt r s => r.free && s.free
  | group _ r => r.free
  | edge _ | notAfter _ | notBefore _ => false

/-- The same place, with `x` before the text and `y` behind it. -/
structure Padded (x y : List Char) (c d : Cursor) : Prop where
  behind : d.behind = c.behind ++ x
  ahead : d.ahead = c.ahead ++ y

variable {r : Regex} {x y : List Char} {c d c' : Cursor}

theorem Padded.advance (h : Padded x y c d) {n : Nat} (hn : n ≤ c.ahead.length) :
    Padded x y (c.advance n) (d.advance n) := by
  constructor
  · unfold Cursor.advance
    dsimp only
    rw [h.ahead, h.behind, List.take_append_of_le_length hn, List.append_assoc]
  · unfold Cursor.advance
    dsimp only
    rw [h.ahead, List.drop_append_of_le_length hn]

theorem runLength_padded (h : Padded x y c d) (p : Char → Bool) (most : Option Nat) :
    c.runLength p most ≤ d.runLength p most := by
  have hgrows : ∀ l m : List Char, (l.takeWhile p).length ≤ ((l ++ m).takeWhile p).length := by
    intro l m
    induction l with
    | nil => exact Nat.zero_le _
    | cons a l ih =>
      rw [List.cons_append, List.takeWhile_cons, List.takeWhile_cons]
      split
      · exact Nat.succ_le_succ ih
      · exact Nat.zero_le _
  unfold Cursor.runLength
  rw [h.ahead]
  cases most with
  | none => exact hgrows _ _
  | some m =>
    dsimp only
    rw [List.take_append]
    exact hgrows _ _

theorem holds_padded {p : Char → Bool} (h : Padded x y c d) (hp : Cursor.holds p c.ahead = true) :
    Cursor.holds p d.ahead = true := by
  rw [h.ahead]
  cases hahead : c.ahead with
  | nil =>
    rw [hahead] at hp
    cases hp
  | cons a l =>
    rw [hahead] at hp
    exact hp

/-- A match is a match in the longer text. -/
theorem run_padded (hr : r.free = true) (h : Padded x y c d) (hc : c' ∈ r.run c) :
    ∃ d' ∈ r.run d, Padded x y c' d' := by
  induction r generalizing c d c' with
  | one p =>
    unfold run at hc ⊢
    split at hc
    · rename_i hp
      rw [List.mem_singleton.mp hc, if_pos (holds_padded h hp)]
      refine ⟨_, List.mem_singleton_self _, h.advance ?_⟩
      cases hahead : c.ahead with
      | nil =>
        rw [hahead] at hp
        cases hp
      | cons a l => exact Nat.succ_le_succ (Nat.zero_le _)
    · exact absurd hc List.not_mem_nil
  | many p least most =>
    unfold run at hc ⊢
    obtain ⟨i, hi, rfl⟩ := List.mem_map.mp hc
    have hi := List.mem_range.mp hi
    have hle := c.runLength_le p most
    have hmore := runLength_padded h p most
    refine ⟨d.advance (c.runLength p most - i), List.mem_map.mpr ⟨d.runLength p most - (c.runLength p most - i), ?_,
      congrArg d.advance ?_⟩, h.advance (by omega)⟩
    · rw [List.mem_range]
      omega
    · omega
  | few p =>
    unfold run at hc ⊢
    obtain ⟨i, hi, rfl⟩ := List.mem_map.mp hc
    have hi := List.mem_range.mp hi
    have hle := c.runLength_le p none
    have hmore := runLength_padded h p none
    refine ⟨d.advance i, List.mem_map.mpr ⟨i, ?_, rfl⟩, h.advance (by omega)⟩
    rw [List.mem_range]
    omega
  | cat r s ihr ihs =>
    obtain ⟨hfirst, hsecond⟩ := Bool.and_eq_true_iff.mp hr
    obtain ⟨c₁, h₁, h₂⟩ := List.mem_flatMap.mp hc
    obtain ⟨d₁, hd₁, hpad₁⟩ := ihr hfirst h h₁
    obtain ⟨d₂, hd₂, hpad₂⟩ := ihs hsecond hpad₁ h₂
    exact ⟨d₂, List.mem_flatMap.mpr ⟨d₁, hd₁, hd₂⟩, hpad₂⟩
  | alt r s ihr ihs =>
    obtain ⟨hfirst, hsecond⟩ := Bool.and_eq_true_iff.mp hr
    rcases List.mem_append.mp hc with hc | hc
    · obtain ⟨d', hd', hpad⟩ := ihr hfirst h hc
      exact ⟨d', List.mem_append_left _ hd', hpad⟩
    · obtain ⟨d', hd', hpad⟩ := ihs hsecond h hc
      exact ⟨d', List.mem_append_right _ hd', hpad⟩
  | group n r ih =>
    obtain ⟨c₁, h₁, rfl⟩ := List.mem_map.mp hc
    obtain ⟨d₁, hd₁, hpad⟩ := ih hr h h₁
    exact ⟨d.record d₁ n, List.mem_map.mpr ⟨d₁, hd₁, rfl⟩, ⟨hpad.behind, hpad.ahead⟩⟩
  | edge word => cases hr
  | notAfter p => cases hr
  | notBefore p => cases hr

/-- A pattern that takes a character matches where it has a way to match. -/
theorem matchAt_isSome (hleast : 1 ≤ r.least) : (r.matchAt c).isSome = true ↔ ∃ c', c' ∈ r.run c := by
  unfold matchAt
  cases hrun : r.run c with
  | nil => simp
  | cons c' more =>
    have hmem : c' ∈ r.run c := by
      rw [hrun]
      exact List.mem_cons_self
    obtain ⟨n, hn, -, -, hpos⟩ := run_ahead hmem
    have hlt : c.pos < c'.pos := by omega
    refine iff_of_true ?_ ⟨c', List.mem_cons_self⟩
    rw [List.head?_cons]
    dsimp only
    rw [if_pos hlt]
    rfl

/-- **A pattern without anchors occurs in every longer text.** -/
theorem occurs_padded {text : List Char} (hr : r.free = true) (hleast : 1 ≤ r.least) (h : r.occurs text = true) :
    r.occurs (x ++ (text ++ y)) = true := by
  obtain ⟨a, b, rfl, hb, hmatch⟩ := occurs_iff.mp h
  obtain ⟨c', hc'⟩ := (matchAt_isSome hleast).mp hmatch
  have hpad : Padded x.reverse y ⟨a.reverse, b, a.length, []⟩ ⟨(x ++ a).reverse, b ++ y, (x ++ a).length, []⟩ :=
    ⟨List.reverse_append, rfl⟩
  obtain ⟨d', hd', -⟩ := run_padded hr hpad hc'
  refine occurs_iff.mpr ⟨x ++ a, b ++ y, by simp, by simp [hb], (matchAt_isSome hleast).mpr ⟨d', hd'⟩⟩

end Regex

end AgentHarness.Lib
