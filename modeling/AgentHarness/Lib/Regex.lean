import AgentHarness.Lib.Text
import Mathlib.Tactic.SplitIfs

/-!
# Lib.Regex — a backtracking matcher

The part of a regular expression engine that patterns over character classes need: classes, greedy
and lazy repetition of a class, concatenation, alternatives, groups, word edges and the two negative
lookarounds of one character.  `Regex.run` lists the places where a match may end, the preferred one first, as a
backtracking engine tries them; `findAll` walks the text from left to right and goes on behind each
match.
-/

namespace AgentHarness.Lib

inductive Regex where
  | one (p : Char → Bool)
  /-- `[..]{least,most}`, as many as possible first -/
  | many (p : Char → Bool) (least : Nat) (most : Option Nat)
  /-- `[..]*?`, as few as possible first -/
  | few (p : Char → Bool)
  | cat (r s : Regex)
  /-- `r|s` -/
  | alt (r s : Regex)
  | group (n : Nat) (r : Regex)
  /-- `\b`, for the word characters of the database in use -/
  | edge (word : Char → Bool)
  /-- `(?<!..)` -/
  | notAfter (p : Char → Bool)
  /-- `(?!..)` -/
  | notBefore (p : Char → Bool)

/-- A place in a text: what lies behind it (the nearest character first) and ahead of it. -/
structure Cursor where
  behind : List Char
  ahead : List Char
  pos : Nat
  groups : List (Nat × List Char)

namespace Cursor

def advance (c : Cursor) (n : Nat) : Cursor :=
  { c with behind := (c.ahead.take n).reverse ++ c.behind, ahead := c.ahead.drop n, pos := c.pos + n }

/-- Group `n` holds the text between `c` and `c'`. -/
def record (c c' : Cursor) (n : Nat) : Cursor :=
  { c' with groups := (n, c.ahead.take (c'.pos - c.pos)) :: c'.groups }

def holds (p : Char → Bool) : List Char → Bool
  | [] => false
  | a :: _ => p a

def atEdge (word : Char → Bool) (c : Cursor) : Bool := holds word c.behind != holds word c.ahead

/-- How many of the characters ahead are of the class, `most` at the most. -/
def runLength (p : Char → Bool) (most : Option Nat) (c : Cursor) : Nat :=
  match most with
  | some m => ((c.ahead.take m).takeWhile p).length
  | none => (c.ahead.takeWhile p).length

theorem runLength_le (p : Char → Bool) (most : Option Nat) (c : Cursor) :
    c.runLength p most ≤ c.ahead.length := by
  unfold runLength
  cases most with
  | none => exact (List.takeWhile_prefix p).length_le
  | some m =>
    have h₁ := (List.takeWhile_prefix (l := c.ahead.take m) p).length_le
    have h₂ : (c.ahead.take m).length ≤ c.ahead.length := by
      rw [List.length_take]
      omega
    exact Nat.le_trans h₁ h₂

/-- `c'` lies `n` characters further. -/
def Ahead (c c' : Cursor) (n : Nat) : Prop :=
  n ≤ c.ahead.length ∧ c'.ahead = c.ahead.drop n ∧ c'.pos = c.pos + n

theorem Ahead.refl (c : Cursor) : c.Ahead c 0 := ⟨Nat.zero_le _, rfl, rfl⟩

theorem Ahead.trans {c c' c'' : Cursor} {n m : Nat} (h : c.Ahead c' n) (h' : c'.Ahead c'' m) :
    c.Ahead c'' (n + m) := by
  obtain ⟨hn, ha, hp⟩ := h
  obtain ⟨hm, ha', hp'⟩ := h'
  rw [ha, List.length_drop] at hm
  refine ⟨by omega, ?_, by omega⟩
  rw [ha', ha, List.drop_drop]

theorem ahead_advance {c : Cursor} {n : Nat} (h : n ≤ c.ahead.length) : c.Ahead (c.advance n) n :=
  ⟨h, rfl, rfl⟩

end Cursor

namespace Regex

/-- The empty pattern. -/
def empty : Regex := .many (fun _ => false) 0 (some 0)

/-- A text, as written. -/
def literal : List Char → Regex
  | [] => empty
  | [c] => .one (· = c)
  | c :: cs => .cat (.one (· = c)) (literal cs)

/-- A text in any case, for letters that only ASCII letters fold to. -/
def literalAnyCase : List Char → Regex
  | [] => empty
  | [c] => .one fun a => a.toLower = c.toLower
  | c :: cs => .cat (.one fun a => a.toLower = c.toLower) (literalAnyCase cs)

/-- `r?` -/
def opt (r : Regex) : Regex := .alt r empty

def sequence (r : Regex) : List Regex → Regex
  | [] => r
  | s :: rs => .cat r (sequence s rs)

/-- The places where a match that starts at `c` may end, the preferred one first. -/
def run : Regex → Cursor → List Cursor
  | one p, c => if Cursor.holds p c.ahead then [c.advance 1] else []
  | many p least most, c =>
    let n := c.runLength p most
    ((List.range (n + 1 - least)).map fun i => c.advance (n - i))
  | few p, c => (List.range (c.runLength p none + 1)).map fun i => c.advance i
  | cat r s, c => (r.run c).flatMap s.run
  | alt r s, c => r.run c ++ s.run c
  | group n r, c => (r.run c).map fun c' => c.record c' n
  | edge word, c => if c.atEdge word then [c] else []
  | notAfter p, c => if Cursor.holds p c.behind then [] else [c]
  | notBefore p, c => if Cursor.holds p c.ahead then [] else [c]

/-- The characters every match has at least. -/
def least : Regex → Nat
  | one _ => 1
  | many _ least _ => least
  | few _ => 0
  | cat r s => r.least + s.least
  | alt r s => min r.least s.least
  | group _ r => r.least
  | edge _ | notAfter _ | notBefore _ => 0

/-- A match ends ahead of its start, by `least` characters or more. -/
theorem run_ahead {r : Regex} {c c' : Cursor} (h : c' ∈ r.run c) :
    ∃ n, r.least ≤ n ∧ c.Ahead c' n := by
  induction r generalizing c c' with
  | one p =>
    unfold run at h
    split_ifs at h with hp
    · rw [List.mem_singleton.mp h]
      refine ⟨1, Nat.le_refl _, Cursor.ahead_advance ?_⟩
      cases ha : c.ahead with
      | nil =>
        rw [ha] at hp
        exact absurd hp (by simp [Cursor.holds])
      | cons a l => simp
    · exact absurd h List.not_mem_nil
  | many p least most =>
    obtain ⟨i, hi, rfl⟩ := List.mem_map.mp h
    have hi' := List.mem_range.mp hi
    have hle := c.runLength_le p most
    refine ⟨c.runLength p most - i, ?_, Cursor.ahead_advance (by omega)⟩
    unfold Regex.least
    omega
  | few p =>
    obtain ⟨i, hi, rfl⟩ := List.mem_map.mp h
    have hi' := List.mem_range.mp hi
    have hle := c.runLength_le p none
    exact ⟨i, Nat.zero_le _, Cursor.ahead_advance (by omega)⟩
  | cat r s ihr ihs =>
    obtain ⟨c₁, h₁, h₂⟩ := List.mem_flatMap.mp h
    obtain ⟨n, hn, ha⟩ := ihr h₁
    obtain ⟨m, hm, hb⟩ := ihs h₂
    exact ⟨n + m, Nat.add_le_add hn hm, ha.trans hb⟩
  | alt r s ihr ihs =>
    rcases List.mem_append.mp h with h | h
    · obtain ⟨n, hn, ha⟩ := ihr h
      exact ⟨n, (Nat.min_le_left _ _).trans hn, ha⟩
    · obtain ⟨n, hn, ha⟩ := ihs h
      exact ⟨n, (Nat.min_le_right _ _).trans hn, ha⟩
  | group k r ih =>
    obtain ⟨c₁, h₁, rfl⟩ := List.mem_map.mp h
    obtain ⟨n, hn, ha⟩ := ih h₁
    exact ⟨n, hn, ha⟩
  | edge word =>
    unfold run at h
    split_ifs at h
    · rw [List.mem_singleton.mp h]
      exact ⟨0, Nat.le_refl _, Cursor.Ahead.refl c⟩
    · exact absurd h List.not_mem_nil
  | notAfter p =>
    unfold run at h
    split_ifs at h
    · exact absurd h List.not_mem_nil
    · rw [List.mem_singleton.mp h]
      exact ⟨0, Nat.le_refl _, Cursor.Ahead.refl c⟩
  | notBefore p =>
    unfold run at h
    split_ifs at h
    · exact absurd h List.not_mem_nil
    · rw [List.mem_singleton.mp h]
      exact ⟨0, Nat.le_refl _, Cursor.Ahead.refl c⟩

end Regex

/-- A match: the span, and what its groups hold. -/
structure Match where
  start : Nat
  stop : Nat
  groups : List (Nat × List Char)

/-- `m.group(n)`. -/
def Match.group (m : Match) (n : Nat) : List Char := (m.groups.lookup n).getD []

namespace Regex

/-- The preferred match that starts at `c`, of a pattern that consumes something. -/
def matchAt (r : Regex) (c : Cursor) : Option Match :=
  match (r.run c).head? with
  | some c' => if c.pos < c'.pos then some ⟨c.pos, c'.pos, c'.groups⟩ else none
  | none => none

/-- The matches from a place on; the next `skip` characters belong to the match before. -/
def findFrom (r : Regex) : List Char → List Char → Nat → Nat → List Match
  | _, [], _, _ => []
  | behind, a :: ahead, pos, skip + 1 => r.findFrom (a :: behind) ahead (pos + 1) skip
  | behind, a :: ahead, pos, 0 =>
    match r.matchAt ⟨behind, a :: ahead, pos, []⟩ with
    | some m => m :: r.findFrom (a :: behind) ahead (pos + 1) (m.stop - pos - 1)
    | none => r.findFrom (a :: behind) ahead (pos + 1) 0

/-- `finditer`. -/
def findAll (r : Regex) (text : List Char) : List Match := r.findFrom [] text 0 0

/-- `search`, as a truth value. -/
def occurs (r : Regex) (text : List Char) : Bool := !(r.findAll text).isEmpty

theorem matchAt_span {r : Regex} {c : Cursor} {m : Match} (h : r.matchAt c = some m) :
    m.start = c.pos ∧ m.start < m.stop ∧ m.stop ≤ c.pos + c.ahead.length := by
  unfold matchAt at h
  cases hr : (r.run c).head? with
  | none => simp [hr] at h
  | some c' =>
    simp only [hr] at h
    split_ifs at h with hlt
    obtain ⟨n, -, hn, -, hp⟩ := run_ahead (List.mem_of_head? hr)
    cases h
    exact ⟨rfl, hlt, by simp only [hp]; omega⟩

theorem findFrom_span {r : Regex} {behind ahead : List Char} {pos skip : Nat} {m : Match}
    (h : m ∈ r.findFrom behind ahead pos skip) :
    pos ≤ m.start ∧ m.start < m.stop ∧ m.stop ≤ pos + ahead.length := by
  induction ahead generalizing behind pos skip with
  | nil => simp [findFrom] at h
  | cons a ahead ih =>
    have hnext : ∀ {b p k}, m ∈ r.findFrom b ahead p k → p = pos + 1 →
        pos ≤ m.start ∧ m.start < m.stop ∧ m.stop ≤ pos + (a :: ahead).length := by
      intro b p k hm hp
      obtain ⟨h₁, h₂, h₃⟩ := ih hm
      rw [List.length_cons]
      omega
    cases skip with
    | succ skip => exact hnext h rfl
    | zero =>
      unfold findFrom at h
      cases hm : r.matchAt ⟨behind, a :: ahead, pos, []⟩ with
      | none =>
        rw [hm] at h
        exact hnext h rfl
      | some m' =>
        rw [hm] at h
        rcases List.mem_cons.mp h with rfl | h
        · obtain ⟨h₁, h₂, h₃⟩ := matchAt_span hm
          exact ⟨Nat.le_of_eq h₁.symm, h₂, h₃⟩
        · exact hnext h rfl

/-- Every match lies in the text and is not empty. -/
theorem findAll_span {r : Regex} {text : List Char} {m : Match} (h : m ∈ r.findAll text) :
    m.start < m.stop ∧ m.stop ≤ text.length := by
  obtain ⟨-, h₁, h₂⟩ := findFrom_span h
  exact ⟨h₁, by omega⟩

end Regex

end AgentHarness.Lib
