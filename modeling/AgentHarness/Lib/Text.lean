import Mathlib.Data.List.Basic
import Mathlib.Data.List.Infix
import Mathlib.Data.List.TakeWhile

/-!
# Lib.Text — characters as a text library classifies them

A text library knows more characters than a program tests for.  `Unicode` is its database: the
entries for ASCII are fixed, the others are left open, so that what is proved holds for every version
of the database.
-/

namespace AgentHarness.Lib

/-- The characters of a list are finitely many: the test of all of them is run. -/
theorem forall_mem_of_all {α : Type} {p : α → Prop} [DecidablePred p] {l : List α}
    (h : (l.all fun a => decide (p a)) = true) : ∀ a ∈ l, p a := by
  intro a ha
  exact of_decide_eq_true (List.all_eq_true.mp h a ha)

def isAscii (c : Char) : Bool := c.toNat < 128

/-- The letters and digits of ASCII, and `_`. -/
def asciiWord (c : Char) : Bool := c.isAlphanum || c = '_'

/-- The white space of ASCII, the four separators below the blank included. -/
def asciiSpace (c : Char) : Bool :=
  c = ' ' || (9 ≤ c.toNat && c.toNat ≤ 13) || (28 ≤ c.toNat && c.toNat ≤ 31)

structure Unicode where
  isWord : Char → Bool
  isDigit : Char → Bool
  isSpace : Char → Bool
  /-- upper case is taken character by character, and may be longer -/
  upper : Char → List Char
  /-- lower case depends on the neighbours (the final sigma) -/
  lower : List Char → List Char
  isWord_ascii : ∀ c, isAscii c = true → isWord c = asciiWord c
  isDigit_ascii : ∀ c, isAscii c = true → isDigit c = c.isDigit
  isSpace_ascii : ∀ c, isAscii c = true → isSpace c = asciiSpace c
  upper_ascii : ∀ c, isAscii c = true → upper c = [c.toUpper]
  lower_ascii : ∀ s, s.all isAscii = true → lower s = s.map Char.toLower

namespace Unicode

/-- The database that knows nothing beyond ASCII. -/
def plain : Unicode where
  isWord := asciiWord
  isDigit := Char.isDigit
  isSpace := asciiSpace
  upper c := [c.toUpper]
  lower s := s.map Char.toLower
  isWord_ascii _ _ := rfl
  isDigit_ascii _ _ := rfl
  isSpace_ascii _ _ := rfl
  upper_ascii _ _ := rfl
  lower_ascii _ _ := rfl

/-- The text without the characters of a class at its end. -/
def dropEnd (p : Char → Bool) (s : List Char) : List Char := (s.reverse.dropWhile p).reverse

/-- The text without the white space at its ends. -/
def strip (u : Unicode) (s : List Char) : List Char := dropEnd u.isSpace (s.dropWhile u.isSpace)

def upperAll (u : Unicode) (s : List Char) : List Char := s.flatMap u.upper

theorem dropEnd_of_last {p : Char → Bool} {s : List Char} (h : ∀ c ∈ s.getLast?, p c = false) : dropEnd p s = s := by
  unfold dropEnd
  cases hlast : s.reverse with
  | nil => rw [List.reverse_eq_nil_iff.mp hlast]; rfl
  | cons c cs =>
    rw [List.getLast?_eq_head?_reverse, hlast] at h
    rw [List.dropWhile_cons_of_neg (by rw [h c rfl]; simp), ← hlast, List.reverse_reverse]

/-- What ends with a character of another class is kept. -/
theorem dropEnd_append {p : Char → Bool} {text rest : List Char} (h : ∀ c ∈ text.getLast?, p c = false) :
    dropEnd p (text ++ rest) = text ++ dropEnd p rest := by
  have hstop : text.reverse.dropWhile p = text.reverse := by
    cases hlast : text.reverse with
    | nil => rfl
    | cons c cs =>
      rw [List.getLast?_eq_head?_reverse, hlast] at h
      exact List.dropWhile_cons_of_neg (by rw [h c rfl]; simp)
  unfold dropEnd
  rw [List.reverse_append, List.dropWhile_append, hstop]
  split
  · rename_i hempty
    rw [List.isEmpty_iff.mp hempty, List.reverse_reverse]
    simp
  · rw [List.reverse_append, List.reverse_reverse]

theorem dropWhile_of_head {p : Char → Bool} {s : List Char} (h : ∀ c ∈ s.head?, p c = false) : s.dropWhile p = s := by
  cases s with
  | nil => rfl
  | cons c cs => exact List.dropWhile_cons_of_neg (by rw [h c rfl]; simp)

theorem dropWhile_head {p : Char → Bool} {s : List Char} : ∀ c ∈ (s.dropWhile p).head?, p c = false := by
  intro c hc
  have hnot := List.head?_dropWhile_not p s
  rw [Option.mem_def.mp hc] at hnot
  simpa using hnot

theorem dropEnd_last {p : Char → Bool} {s : List Char} : ∀ c ∈ (dropEnd p s).getLast?, p c = false := by
  unfold dropEnd
  rw [List.getLast?_reverse]
  exact dropWhile_head

theorem dropEnd_start {p : Char → Bool} {s : List Char} : dropEnd p s <+: s := by
  have h := List.reverse_prefix.mpr (List.dropWhile_suffix (l := s.reverse) p)
  rwa [List.reverse_reverse] at h

theorem dropEnd_append_head {p : Char → Bool} {a b : List Char} (h : ∀ c ∈ b.head?, p c = false) :
    dropEnd p (a ++ b) = (if b = [] then dropEnd p a else a) ++ dropEnd p b := by
  cases b with
  | nil =>
    rw [if_pos rfl, List.append_nil]
    exact (List.append_nil _).symm
  | cons c b =>
    have hc : p c = false := h c rfl
    have hleft : dropEnd p (a ++ c :: b) = a ++ [c] ++ dropEnd p b := by
      rw [← dropEnd_append (by simpa using hc), List.append_assoc, List.singleton_append]
    have hright : dropEnd p (c :: b) = [c] ++ dropEnd p b := by
      rw [← dropEnd_append (by simpa using hc), List.singleton_append]
    rw [hleft, hright, if_neg (List.cons_ne_nil c b), List.append_assoc]

theorem dropEnd_lt {p : Char → Bool} {s : List Char} (h : ¬ ∀ c ∈ s.getLast?, p c = false) :
    (dropEnd p s).length < s.length := by
  rcases Nat.lt_or_ge (dropEnd p s).length s.length with hlt | hge
  · exact hlt
  · refine absurd ?_ h
    rw [← dropEnd_start.eq_of_length_le hge]
    exact dropEnd_last

theorem dropEnd_dropped (p : Char → Bool) (s : List Char) :
    ∃ j, s = dropEnd p s ++ j ∧ ∀ c ∈ j, p c = true := by
  refine ⟨(s.reverse.takeWhile p).reverse, ?_, fun c hc => List.mem_takeWhile_imp (List.mem_reverse.mp hc)⟩
  unfold dropEnd
  rw [← List.reverse_append, List.takeWhile_append_dropWhile, List.reverse_reverse]

/-- A text without white space at its ends is left as it is. -/
theorem strip_of_ends {u : Unicode} {s : List Char} (hfirst : ∀ c ∈ s.head?, u.isSpace c = false)
    (hlast : ∀ c ∈ s.getLast?, u.isSpace c = false) : u.strip s = s := by
  unfold strip
  rw [dropWhile_of_head hfirst]
  exact dropEnd_of_last hlast

theorem strip_head {u : Unicode} {s : List Char} : ∀ c ∈ (u.strip s).head?, u.isSpace c = false := by
  intro c hc
  obtain ⟨rest, hrest⟩ : u.strip s <+: s.dropWhile u.isSpace := dropEnd_start
  refine dropWhile_head (s := s) c ?_
  rw [← hrest]
  exact List.mem_head?_append_of_mem_head? hc

theorem strip_last {u : Unicode} {s : List Char} : ∀ c ∈ (u.strip s).getLast?, u.isSpace c = false := dropEnd_last

/-- What is left has no white space at its ends. -/
theorem strip_strip (u : Unicode) (s : List Char) : u.strip (u.strip s) = u.strip s :=
  strip_of_ends strip_head strip_last

end Unicode

/-- `text[start:stop]`. -/
def slice (text : List Char) (start stop : Nat) : List Char := (text.take stop).drop start

@[simp] theorem slice_self (text : List Char) (n : Nat) : slice text n n = [] := by
  rw [slice, List.drop_eq_nil_iff, List.length_take]
  omega

/-- A text splits in one way at the first place where `c` stands. -/
theorem append_cons_inj {α : Type} {c : α} {xs ys xs' ys' : List α} (hx : c ∉ xs) (hy : c ∉ ys)
    (h : xs ++ c :: xs' = ys ++ c :: ys') : xs = ys ∧ xs' = ys' := by
  induction xs generalizing ys with
  | nil =>
    cases ys with
    | nil => exact ⟨rfl, (List.cons.inj h).2⟩
    | cons y ys => exact absurd (List.mem_cons.mpr (.inl (List.cons.inj h).1)) hy
  | cons x xs ih =>
    cases ys with
    | nil => exact absurd (List.mem_cons.mpr (.inl (List.cons.inj h).1.symm)) hx
    | cons y ys =>
      obtain ⟨rfl, hrest⟩ := List.cons.inj h
      obtain ⟨rfl, rfl⟩ := ih (List.not_mem_of_not_mem_cons hx) (List.not_mem_of_not_mem_cons hy) hrest
      exact ⟨rfl, rfl⟩

/-- What begins with `c` occurs from the first place where `c` stands, or behind it. -/
theorem infix_append_cons {α : Type} {c : α} {l xs xs' : List α} (hx : c ∉ xs) :
    c :: l <:+: xs ++ c :: xs' ↔ l <+: xs' ∨ c :: l <:+: xs' := by
  have hstart : c :: l <:+: c :: xs' ↔ l <+: xs' ∨ c :: l <:+: xs' := by
    rw [List.infix_cons_iff, List.prefix_cons_inj]
  rw [← hstart]
  constructor
  · intro h
    rcases List.infix_append_iff.mp h with hin | hin | ⟨l₁, l₂, heq, hsuffix, hprefix⟩
    · exact absurd (hin.subset List.mem_cons_self) hx
    · exact hin
    · cases l₁ with
      | nil =>
        rw [List.nil_append] at heq
        rw [heq]
        exact hprefix.isInfix
      | cons d l₁ =>
        obtain ⟨rfl, -⟩ := List.cons.inj heq
        exact absurd (hsuffix.subset List.mem_cons_self) hx
  · exact List.infix_append_of_infix_right

end AgentHarness.Lib
