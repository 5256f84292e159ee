import AgentHarness.SQLGuard
import AgentHarness.Lib.SqlTokens

/-!
# RowBound — the `LIMIT` of a guarded statement

`_ensure_limit` looks for the word in the text and appends a clause to the text.  SQLite reads tokens:
there `LIMIT` is a reserved word that only begins a clause, and the clause belongs to the outermost
`SELECT` where the word stands outside of all parentheses.  `outerLimit_append` says what appending
does: the clause counts unless the text ends inside quotes, a comment or parentheses.
-/

namespace AgentHarness

open Lib

namespace SQLGuard

def isLimit : Sql.Token → Bool := Sql.isKeyword "LIMIT"

/-- The outermost statement has a `LIMIT` clause. -/
def hasOuterLimit (sql : List Char) : Bool := Sql.hasTop isLimit 0 (Sql.tokens sql)

/-- The text ends outside of quotes, comments and parentheses. -/
def endsOpen (sql : List Char) : Bool :=
  (Sql.scan .gap sql).2.isCode && Sql.nesting 0 (Sql.tokens sql) == 0

def limitClause : List Char := " LIMIT 100;".toList

/-- The text that the clause is appended to. -/
def limitBody (u : Unicode) (stripped : List Char) : List Char :=
  u.strip (Unicode.dropEnd (· = ';') stripped)

/-- The text has a clause of its own, if it has the word, and ends where one can be appended, if not. -/
def boundsRows (u : Unicode) (s : String) : Bool :=
  let stripped := u.strip s.toList
  if (limitPattern u).occurs stripped then hasOuterLimit stripped
  else hasOuterLimit (limitBody u stripped) || endsOpen (limitBody u stripped)

/-! ## The clause appended -/

/-- Outside of quotes and comments the clause is read as it is meant. -/
theorem scan_limitClause {m : Sql.Mode} (h : m.isCode = true) :
    Sql.scan m limitClause =
      (Sql.finish m ++ [.word "LIMIT".toList, .number, .punct ';'], .gap) := by
  have hclause : Sql.scan .gap "LIMIT 100;".toList =
      ([.word "LIMIT".toList, .number, .punct ';'], .gap) := by decide
  have hsplit : limitClause = ' ' :: "LIMIT 100;".toList := rfl
  rw [hsplit, Sql.scan_cons, Sql.step_space h, hclause]

/-- Inside quotes and comments it is more of the same. -/
theorem scan_limitClause_hidden {m : Sql.Mode} (h : m.isCode = false) :
    (Sql.scan m limitClause).1 = [] ∧ (Sql.scan m limitClause).2.isCode = false := by
  cases m with
  | text q => cases q <;> exact ⟨by decide, by decide⟩
  | bracket | blob | commentOpen | comment | commentStar | lineComment => exact ⟨by decide, by decide⟩
  | gap | word | number | textEnd | mark | param | paramColon | paramArg | minus | slash => cases h

/-- The end of quotes and comments is no word. -/
theorem finish_hidden {m : Sql.Mode} (h : m.isCode = false) : ∀ t ∈ Sql.finish m, isLimit t = false := by
  cases m with
  | text q =>
    intro t ht
    rw [List.mem_singleton.mp ht]
    rfl
  | bracket | blob | commentOpen | comment | commentStar | lineComment => decide
  | gap | word | number | textEnd | mark | param | paramColon | paramArg | minus | slash => cases h

/-- **The clause counts** unless the text ends inside quotes, a comment or parentheses. -/
theorem outerLimit_append (body : List Char) :
    hasOuterLimit (body ++ limitClause) = (hasOuterLimit body || endsOpen body) := by
  unfold hasOuterLimit endsOpen Sql.tokens
  rw [Sql.scan_append]
  obtain ⟨⟨ts, m⟩, hscan⟩ : ∃ x, Sql.scan .gap body = x := ⟨_, rfl⟩
  simp only [hscan]
  cases hm : m.isCode with
  | true =>
    rw [scan_limitClause hm]
    show Sql.hasTop isLimit 0 (ts ++ (Sql.finish m ++ _) ++ []) = _
    rw [List.append_nil, ← List.append_assoc, Sql.hasTop_append]
    have hclause : ∀ d : Int, Sql.hasTop isLimit d [.word "LIMIT".toList, .number, .punct ';'] = (d == 0) := by
      intro d
      have hword : isLimit (.word "LIMIT".toList) = true := by decide
      have hrest : Sql.hasTop isLimit (Sql.shift (.word "LIMIT".toList) d) [.number, .punct ';'] = false :=
        Sql.hasTop_eq_false (by decide)
      rw [Sql.hasTop_cons, hword, hrest, Bool.and_true, Bool.or_false]
    rw [hclause, Bool.true_and]
  | false =>
    obtain ⟨hnone, hhidden⟩ := scan_limitClause_hidden hm
    rw [hnone, List.append_nil, Bool.false_and, Bool.or_false, Sql.hasTop_append, Sql.hasTop_append,
      Sql.hasTop_eq_false (finish_hidden hhidden), Sql.hasTop_eq_false (finish_hidden hm)]

/-! ## The guard -/

/-- The word in a subquery keeps the clause from being appended. -/
example : boundsRows Unicode.plain "SELECT * FROM (SELECT * FROM orders LIMIT 5) a, orders b" = false := by
  decide +kernel

end SQLGuard

end AgentHarness
