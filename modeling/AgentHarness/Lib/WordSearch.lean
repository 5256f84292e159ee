import AgentHarness.Lib.Regex
import Mathlib.Data.List.Infix

/-!
# Lib.WordSearch — where a pattern occurs, and words between word edges

`search` finds a pattern where it matches at some place (`occurs_iff`).  For a text between word edges that is
`Word`, and a text with a separator has a word exactly if one of its two parts has (`word_append_cons`).
-/

namespace AgentHarness.Lib

namespace Regex

variable {r : Regex}

/-- A match that is found is one at some place. -/
theorem findFrom_mem {behind ahead : List Char} {pos skip : Nat} {m : Match}
    (h : m ∈ r.findFrom behind ahead pos skip) :
    ∃ a b, ahead = a ++ b ∧ b ≠ [] ∧ r.matchAt ⟨a.reverse ++ behind, b, pos + a.length, []⟩ = some m := by
  induction ahead generalizing behind pos skip with
  | nil => simp [findFrom] at h
  | cons x ahead ih =>
    have hnext : ∀ {k}, m ∈ r.findFrom (x :: behind) ahead (pos + 1) k →
        ∃ a b, x :: ahead = a ++ b ∧ b ≠ [] ∧ r.matchAt ⟨a.reverse ++ behind, b, pos + a.length, []⟩ = some m := by
      intro k hm
      obtain ⟨a, b, rfl, hb, hmatch⟩ := ih hm
      refine ⟨x :: a, b, rfl, hb, ?_⟩
      rw [List.reverse_cons, List.append_assoc, List.singleton_append, List.length_cons,
        Nat.add_comm a.length 1, ← Nat.add_assoc]
      exact hmatch
    cases skip with
    | succ skip => exact hnext h
    | zero =>
      unfold findFrom at h
      cases hm : r.matchAt ⟨behind, x :: ahead, pos, []⟩ with
      | none =>
        rw [hm] at h
        exact hnext h
      | some m' =>
        rw [hm] at h
        rcases List.mem_cons.mp h with rfl | h
        · exact ⟨[], x :: ahead, rfl, List.cons_ne_nil _ _, hm⟩
        · exact hnext h

theorem findFrom_ne_nil {a b behind : List Char} {pos : Nat} (hb : b ≠ [])
    (h : (r.matchAt ⟨a.reverse ++ behind, b, pos + a.length, []⟩).isSome = true) :
    r.findFrom behind (a ++ b) pos 0 ≠ [] := by
  induction a generalizing behind pos with
  | nil =>
    obtain ⟨x, b, rfl⟩ := List.exists_cons_of_ne_nil hb
    obtain ⟨m, hm⟩ := Option.isSome_iff_exists.mp h
    have hm : r.matchAt ⟨behind, x :: b, pos, []⟩ = some m := hm
    rw [List.nil_append]
    unfold findFrom
    rw [hm]
    exact List.cons_ne_nil _ _
  | cons x a ih =>
    rw [List.cons_append]
    unfold findFrom
    cases r.matchAt ⟨behind, x :: (a ++ b), pos, []⟩ with
    | some m => exact List.cons_ne_nil _ _
    | none =>
      refine ih ?_
      rw [List.reverse_cons, List.append_assoc, List.singleton_append, List.length_cons,
        Nat.add_comm a.length 1, ← Nat.add_assoc] at h
      exact h

/-- **A pattern occurs where it matches.** -/
theorem occurs_iff {text : List Char} : r.occurs text = true ↔
    ∃ a b, text = a ++ b ∧ b ≠ [] ∧ (r.matchAt ⟨a.reverse, b, a.length, []⟩).isSome = true := by
  have hoccurs : r.occurs text = true ↔ r.findAll text ≠ [] := by
    unfold occurs
    cases r.findAll text <;> simp
  rw [hoccurs]
  unfold findAll
  constructor
  · intro h
    obtain ⟨m, hm⟩ := List.exists_mem_of_ne_nil _ h
    obtain ⟨a, b, rfl, hb, hmatch⟩ := findFrom_mem hm
    rw [List.append_nil, Nat.zero_add] at hmatch
    exact ⟨a, b, rfl, hb, by rw [hmatch]; rfl⟩
  · rintro ⟨a, b, rfl, hb, hmatch⟩
    refine findFrom_ne_nil hb ?_
    rwa [List.append_nil, Nat.zero_add]

/-! ### Literals -/

theorem advance_advance (c : Cursor) (n m : Nat) : (c.advance n).advance m = c.advance (n + m) := by
  unfold Cursor.advance
  simp only [List.drop_drop, Nat.add_assoc, Cursor.mk.injEq, and_true]
  rw [← List.append_assoc, ← List.reverse_append, List.take_add]

theorem run_literal {s : List Char} (hs : s ≠ []) (c : Cursor) :
    (literal s).run c = if s <+: c.ahead then [c.advance s.length] else [] := by
  have hone : ∀ (x : Char) (c : Cursor), (one (· = x)).run c = if [x] <+: c.ahead then [c.advance 1] else [] := by
    intro x c
    have hiff : Cursor.holds (fun d => decide (d = x)) c.ahead = true ↔ [x] <+: c.ahead := by
      cases c.ahead with
      | nil => simp [Cursor.holds]
      | cons d ahead => simp [Cursor.holds, List.cons_prefix_cons, eq_comm]
    show (if Cursor.holds (fun d => decide (d = x)) c.ahead = true then _ else _) = _
    simp only [hiff]
  induction s generalizing c with
  | nil => exact absurd rfl hs
  | cons x s ih =>
    cases s with
    | nil => exact hone x c
    | cons y s =>
      show ((one (· = x)).run c).flatMap (literal (y :: s)).run = _
      rw [hone]
      obtain ⟨behind, ahead, pos, groups⟩ := c
      cases ahead with
      | nil => simp
      | cons d ahead =>
        by_cases hd : x = d
        · have hlength : 1 + (y :: s).length = (x :: y :: s).length := by
            rw [List.length_cons (a := x), Nat.add_comm]
          rw [if_pos (List.cons_prefix_cons.mpr ⟨hd, List.nil_prefix⟩), List.flatMap_singleton,
            ih (List.cons_ne_nil y s), advance_advance, hlength]
          have hrest : y :: s <+: (Cursor.advance ⟨behind, d :: ahead, pos, groups⟩ 1).ahead ↔
              x :: y :: s <+: d :: ahead := by
            rw [List.cons_prefix_cons (a := x), and_iff_right hd]
            rfl
          simp only [hrest]
        · rw [if_neg fun h => hd (List.cons_prefix_cons.mp h).1, if_neg fun h => hd (List.cons_prefix_cons.mp h).1]
          rfl

end Regex

/-! ### Words -/

/-- `s` stands in the text, and neither the character before it nor the one behind it is a word character. -/
def Word (word : Char → Bool) (s text : List Char) : Prop :=
  ∃ a b, text = a ++ s ++ b ∧ (∀ c ∈ a.getLast?, word c = false) ∧ ∀ c ∈ b.head?, word c = false

section Word

variable {word : Char → Bool} {s a b : List Char} {c : Char}

theorem Word.occurs (h : Word word s a) : s <:+: a := by
  obtain ⟨x, y, rfl, -, -⟩ := h
  exact List.infix_append x s y

/-- A text that goes on with another character than one of a word keeps its words. -/
theorem Word.append_left (h : Word word s a) (hb : ∀ c ∈ b.head?, word c = false) : Word word s (a ++ b) := by
  obtain ⟨x, y, rfl, hx, hy⟩ := h
  refine ⟨x, y ++ b, by simp, hx, ?_⟩
  cases y with
  | nil => exact hb
  | cons d y => exact hy

theorem Word.append_right (h : Word word s b) (ha : ∀ c ∈ a.getLast?, word c = false) : Word word s (a ++ b) := by
  obtain ⟨x, y, rfl, hx, hy⟩ := h
  refine ⟨a ++ x, y, by simp, fun c hc => ?_, hy⟩
  rw [List.getLast?_append] at hc
  cases hlast : x.getLast? with
  | none =>
    rw [hlast] at hc
    exact ha c hc
  | some d =>
    rw [hlast] at hc
    exact hx c (hlast ▸ hc)

/-- **A separator separates words.** -/
theorem word_append_cons (hc : word c = false) (hs : c ∉ s) :
    Word word s (a ++ c :: b) ↔ Word word s a ∨ Word word s b := by
  constructor
  · rintro ⟨x, y, heq, hx, hy⟩
    rw [List.append_assoc] at heq
    rcases List.append_eq_append_iff.mp heq with ⟨e, rfl, hsplit⟩ | ⟨e, rfl, hsplit⟩
    · -- the word begins at the separator or behind it
      cases e with
      | nil =>
        cases s with
        | nil => exact .inl ⟨a, [], by simp, by simpa using hx, by simp⟩
        | cons d s => exact absurd (List.mem_cons.mpr (.inl (List.cons.inj hsplit).1)) hs
      | cons d e =>
        obtain ⟨rfl, rfl⟩ := List.cons.inj hsplit
        refine .inr ⟨e, y, by simp, fun c' hc' => hx c' ?_, hy⟩
        rw [List.getLast?_append, List.getLast?_cons, Option.mem_def.mp hc']
        rfl
    · rcases List.append_eq_append_iff.mp hsplit with ⟨e', rfl, rfl⟩ | ⟨e', rfl, hrest⟩
      · refine .inl ⟨x, e', by simp, hx, fun d hd => hy d ?_⟩
        exact List.mem_head?_append_of_mem_head? hd
      · cases e' with
        | nil => exact .inl ⟨x, [], by simp, hx, by simp⟩
        | cons d e' =>
          obtain ⟨rfl, -⟩ := List.cons.inj hrest
          exact absurd (List.mem_append_right _ List.mem_cons_self) hs
  · rintro (h | h)
    · exact h.append_left (by simpa using hc)
    · rw [← List.singleton_append, ← List.append_assoc]
      exact h.append_right (by simpa using hc)

/-- Words of a text that is joined with a separator are words of its parts. -/
theorem word_intercalate (hc : word c = false) (hs : c ∉ s) (hne : s ≠ []) {parts : List (List Char)}
    (h : Word word s (List.intercalate [c] parts)) : ∃ p ∈ parts, Word word s p := by
  induction parts with
  | nil =>
    have hnil := List.infix_nil.mp h.occurs
    exact absurd hnil hne
  | cons p parts ih =>
    cases parts with
    | nil =>
      rw [List.intercalate_singleton] at h
      exact ⟨p, List.mem_singleton.mpr rfl, h⟩
    | cons q parts =>
      rw [List.intercalate_cons_cons, List.append_assoc, List.singleton_append] at h
      rcases (word_append_cons hc hs).mp h with h | h
      · exact ⟨p, List.mem_cons_self, h⟩
      · obtain ⟨p', hp', h'⟩ := ih h
        exact ⟨p', List.mem_cons_of_mem _ hp', h'⟩

/-- **The search for a literal between word edges.** -/
theorem occurs_word_iff (hne : s ≠ []) (hs : ∀ c ∈ s, word c = true) :
    (Regex.sequence (.edge word) [Regex.literal s, .edge word]).occurs a = true ↔ Word word s a := by
  have hfirst : ∀ rest, Cursor.holds word (s ++ rest) = true := by
    intro rest
    obtain ⟨c, s, rfl⟩ := List.exists_cons_of_ne_nil hne
    exact hs c List.mem_cons_self
  have hlast : ∀ rest, Cursor.holds word (s.reverse ++ rest) = true := by
    intro rest
    obtain ⟨c, t, ht⟩ := List.exists_cons_of_ne_nil (List.reverse_ne_nil_iff.mpr hne)
    rw [ht]
    exact hs c (List.mem_reverse.mp (ht ▸ List.mem_cons_self))
  have hholds : ∀ l : List Char, Cursor.holds word l = false ↔ ∀ c ∈ l.head?, word c = false := by
    intro l
    cases l with
    | nil => simp [Cursor.holds]
    | cons c l => simp [Cursor.holds]
  have hmatch : ∀ x b : List Char, ((Regex.sequence (.edge word) [Regex.literal s, .edge word]).matchAt
      ⟨x.reverse, b, x.length, []⟩).isSome = true ↔
      ∃ y, b = s ++ y ∧ Cursor.holds word x.reverse = false ∧ Cursor.holds word y = false := by
    intro x b
    have hrun : (Regex.sequence (.edge word) [Regex.literal s, .edge word]).run ⟨x.reverse, b, x.length, []⟩ =
        (Regex.run (.edge word) ⟨x.reverse, b, x.length, []⟩).flatMap fun c =>
          ((Regex.literal s).run c).flatMap (Regex.run (.edge word)) := rfl
    unfold Regex.matchAt
    rw [hrun]
    by_cases hstarts : s <+: b
    · obtain ⟨y, rfl⟩ := hstarts
      have hadvance : Cursor.advance ⟨x.reverse, s ++ y, x.length, []⟩ s.length =
          ⟨s.reverse ++ x.reverse, y, x.length + s.length, []⟩ := by
        unfold Cursor.advance
        simp
      have hpos : 0 < s.length := List.length_pos_of_ne_nil hne
      have hbefore : Cursor.atEdge word ⟨x.reverse, s ++ y, x.length, []⟩ = !Cursor.holds word x.reverse := by
        unfold Cursor.atEdge
        rw [hfirst]
        cases Cursor.holds word x.reverse <;> rfl
      have hbehind : Cursor.atEdge word ⟨s.reverse ++ x.reverse, y, x.length + s.length, []⟩ =
          !Cursor.holds word y := by
        unfold Cursor.atEdge
        rw [hlast]
        cases Cursor.holds word y <;> rfl
      simp only [Regex.run, hbefore, Regex.run_literal hne, List.append_cancel_left_eq]
      cases Cursor.holds word x.reverse with
      | true => simp
      | false =>
        cases hy : Cursor.holds word y with
        | true => simp [hy, hadvance, hbehind]
        | false => simp [hy, hadvance, hbehind, hpos]
    · apply iff_of_false
      · simp only [Regex.run]
        split_ifs
        · simp [Regex.run_literal hne, hstarts]
        · simp
      · rintro ⟨y, hy, -⟩
        exact hstarts ⟨y, hy.symm⟩
  rw [Regex.occurs_iff]
  constructor
  · rintro ⟨x, b, rfl, hb, h⟩
    obtain ⟨y, rfl, hx, hy⟩ := (hmatch x b).mp h
    refine ⟨x, y, by simp, ?_, (hholds y).mp hy⟩
    rw [← List.head?_reverse]
    exact (hholds _).mp hx
  · rintro ⟨x, y, rfl, hx, hy⟩
    refine ⟨x, s ++ y, by simp, by simp [hne], (hmatch x _).mpr ⟨y, rfl, ?_, (hholds y).mpr hy⟩⟩
    rw [hholds, List.head?_reverse]
    exact hx

end Word

end AgentHarness.Lib
