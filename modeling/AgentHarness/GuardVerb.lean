import Mathlib
import AgentHarness.RowBound
import AgentHarness.GuardFixpoint
import AgentHarness.Lib.SqlStatement

/-!
# GuardVerb — what SQLite runs of a text that `SQLGuard.check` lets through

The guard searches the text, SQLite reads its tokens.  Every word of SQLite is one of the search too (`placed_word`), so
a text that is let through has none of the blocked verbs, and its semicolons stand at its end.  Two verbs the guard does
not know of, and a text may begin with what SQLite does not read as a verb at all: `select_only_iff`.
-/

namespace AgentHarness

open Lib

/-- The byte order mark is no word character, and has no upper case. -/
structure MarkLaws (u : Unicode) : Prop where
  word : u.isWord (Char.ofNat 0xFEFF) = false
  upper : u.upper (Char.ofNat 0xFEFF) = [Char.ofNat 0xFEFF]

theorem markLaws_plain : MarkLaws .plain := ⟨by decide, by decide⟩

namespace SQLGuard

variable {u : Unicode} {text w a body : List Char} {v : Sql.Verb}

/-- The text that runs, without a clause that the guard appends. -/
def runText (u : Unicode) (s : String) : List Char :=
  let stripped := u.strip s.toList
  if (limitPattern u).occurs stripped then stripped else limitBody u stripped

/-- SQLite reads one statement, and it is a query. -/
def selectsOnly (sql : List Char) : Prop := (Sql.statements sql).map Sql.verb = [some .select]

/-! ### Words of SQLite in the search -/

/-- What no identifier has: punctuation of ASCII. -/
theorem not_idChar {c : Char} (h : Sql.isIdChar c = false) :
    isAscii c = true ∧ c.toUpper = c ∧ asciiWord c = false := by
  have hsmall : ∀ n < 128, Sql.isIdChar (Char.ofNat n) = false → isAscii (Char.ofNat n) = true ∧
      (Char.ofNat n).toUpper = Char.ofNat n ∧ asciiWord (Char.ofNat n) = false := by decide +kernel
  have hlt : c.toNat < 128 := by
    unfold Sql.isIdChar at h
    simp only [Bool.or_eq_false_iff, decide_eq_false_iff_not] at h
    omega
  have hc := hsmall c.toNat hlt
  rw [Char.ofNat_toNat] at hc
  exact hc h

/-- A letter of ASCII is the upper case of letters of ASCII only. -/
theorem isAscii_of_toUpper {c : Char} (h : isAscii c.toUpper = true) : isAscii c = true := by
  by_cases hlower : c.isLower = true
  · unfold Char.isLower at hlower
    simp only [Bool.and_eq_true, decide_eq_true_eq, ge_iff_le] at hlower
    have hle := UInt32.le_iff_toNat_le.mp hlower.2
    unfold isAscii
    simp only [decide_eq_true_eq]
    exact Nat.lt_of_le_of_lt hle (by decide)
  · rwa [Char.toUpper_eq_of_not_isLower hlower] at h

/-- A word of SQLite in upper case. -/
theorem upperAll_keyword {keyword : List Char} (hascii : ∀ c ∈ keyword, isAscii c = true)
    (h : w.map Char.toUpper = keyword) : u.upperAll w = keyword := by
  subst h
  induction w with
  | nil => rfl
  | cons c w ih =>
    rw [List.map_cons, List.forall_mem_cons] at hascii
    rw [upperAll_cons, ih hascii.2, u.upper_ascii c (isAscii_of_toUpper hascii.1), List.map_cons, List.singleton_append]

/-- **A word of SQLite is a word of the search.** -/
theorem placed_word (hm : MarkLaws u) {keyword : List Char} (hascii : ∀ c ∈ keyword, isAscii c = true)
    (hw : w.map Char.toUpper = keyword) (h : Sql.Placed text w) : Word u.isWord keyword (u.upperAll text) := by
  obtain ⟨a, b, rfl, ha, hb⟩ := h
  refine ⟨u.upperAll a, u.upperAll b, ?_, ?_, ?_⟩
  · rw [upperAll_append, upperAll_append, upperAll_keyword hascii hw, List.append_assoc]
  · intro c hc
    rcases List.eq_nil_or_concat' a with rfl | ⟨a, d, rfl⟩
    · cases hc
    · have hd := ha d (by rw [List.getLast?_concat]; rfl)
      have hsame : u.upper d = [d] ∧ u.isWord d = false := by
        rcases hd with hd | hd
        · obtain ⟨hd, hupper, hword⟩ := not_idChar hd
          refine ⟨?_, isWord_false ⟨hd, hword⟩⟩
          rw [u.upper_ascii d hd, hupper]
        · have hmark : d = Char.ofNat 0xFEFF := by
            rw [← hd, Char.ofNat_toNat]
          rw [hmark]
          exact ⟨hm.upper, hm.word⟩
      rw [upperAll_append, upperAll_cons, hsame.1] at hc
      have hlast : c = d := by
        have hnil : u.upperAll [] = [] := rfl
        rw [hnil, List.append_nil, List.getLast?_concat] at hc
        exact (Option.some.inj hc).symm
      rw [hlast]
      exact hsame.2
  · intro c hc
    cases b with
    | nil => cases hc
    | cons d b =>
      obtain ⟨hd, hupper, hword⟩ := not_idChar (hb d rfl)
      rw [upperAll_mark ⟨hd, hupper⟩] at hc
      rw [← Option.some.inj hc]
      exact isWord_false ⟨hd, hword⟩

/-- A text without blocked keywords has no verb of them. -/
theorem verb_of_words (hm : MarkLaws u) (hwords : findBlocked u (u.upperAll text) = none)
    (h : Sql.verb (Sql.tokens text) = some v) : v = .select ∨ v = .values ∨ v = .replace := by
  obtain ⟨w, hkeyword, hplaced⟩ := Sql.verb_placed h
  have hw : w.map Char.toUpper = v.keyword.toList := beq_iff_eq.mp hkeyword
  have hnot := findBlocked_none.mp hwords
  have hword := fun hascii => placed_word hm hascii hw hplaced
  cases v with
  | select => exact .inl rfl
  | values => exact .inr (.inl rfl)
  | replace => exact .inr (.inr rfl)
  | insert => exact absurd (hword (forall_mem_of_all (by decide))) (hnot "INSERT" (by decide))
  | update => exact absurd (hword (forall_mem_of_all (by decide))) (hnot "UPDATE" (by decide))
  | delete => exact absurd (hword (forall_mem_of_all (by decide))) (hnot "DELETE" (by decide))

/-! ### The clause that is appended -/

/-- The end of quotes and comments is no keyword. -/
theorem finish_keyword {m : Sql.Mode} (h : m.isCode = false) (keyword : String) :
    ∀ t ∈ Sql.finish m, Sql.isKeyword keyword t = false := by
  cases m with
  | text | bracket | blob | commentOpen | comment | commentStar | lineComment =>
    simp [Sql.finish, Sql.isKeyword]
  | gap | word | number | textEnd | mark | param | paramColon | paramArg | minus | slash => cases h

/-- The clause brings no verb about. -/
theorem verb_limitClause (body : List Char) :
    Sql.verb (Sql.tokens (body ++ limitClause)) = some v ↔ Sql.verb (Sql.tokens body) = some v := by
  unfold Sql.verb Sql.tokens
  rw [Sql.scan_append, Sql.Head.verb?_eq_some, Sql.Head.verb?_eq_some]
  obtain ⟨⟨ts, m⟩, hscan⟩ : ∃ x, Sql.scan .gap body = x := ⟨_, rfl⟩
  simp only [hscan]
  cases hm : m.isCode with
  | true =>
    rw [scan_limitClause hm]
    show List.foldl Sql.Head.step .start (ts ++ (Sql.finish m ++ _) ++ []) = _ ↔ _
    rw [List.append_nil, ← List.append_assoc, List.foldl_append]
    refine Sql.foldl_without ?_
    cases v <;> decide
  | false =>
    obtain ⟨hnone, hhidden⟩ := scan_limitClause_hidden hm
    rw [hnone, List.append_nil, List.foldl_append, List.foldl_append]
    exact (Sql.foldl_without (finish_keyword hhidden _)).trans (Sql.foldl_without (finish_keyword hm _)).symm

/-! ### The guard -/

/-- A text whose semicolons stand at its end is one statement. -/
theorem selectsOnly_iff (hsingle : ';' ∉ Unicode.dropEnd (· = ';') text) :
    selectsOnly text ↔ Sql.verb (Sql.tokens text) = some .select := by
  obtain ⟨junk, htext, hjunk⟩ := Unicode.dropEnd_dropped (· = ';') text
  have hsemicolons : junk = List.replicate junk.length ';' :=
    List.eq_replicate_of_mem fun c hc => of_decide_eq_true (hjunk c hc)
  rw [hsemicolons] at htext
  rw [htext]
  exact Sql.statements_closed hsingle _ _

/-- What is returned: its semicolons, its words, and its verb. -/
theorem returned_text (hu : SpaceLaws u) {s : String} (h : (check u s).allowed = true) :
    ';' ∉ Unicode.dropEnd (· = ';') (check u s).sql.toList ∧
      findBlocked u (u.upperAll (check u s).sql.toList) = none ∧
      ∀ v, Sql.verb (Sql.tokens (check u s).sql.toList) = some v ↔ Sql.verb (Sql.tokens (runText u s)) = some v := by
  have hallows := allows_of_check h
  have hsingle := hallows.single
  unfold runText
  dsimp only
  rw [hallows.sql, String.toList_ofList]
  by_cases hlimit : (limitPattern u).occurs (u.strip s.toList) = true
  · have hkept : ensureLimit u (u.strip s.toList) = u.strip s.toList := if_pos hlimit
    rw [Unicode.dropEnd_of_last Unicode.strip_last] at hsingle
    rw [hkept, if_pos hlimit]
    exact ⟨hsingle, hallows.words, fun v => Iff.rfl⟩
  · have hadded : ensureLimit u (u.strip s.toList) = limited (limitBody u (u.strip s.toList)) := if_neg hlimit
    obtain ⟨junk, hlimited⟩ := exists_limited (Unicode.strip_strip u s.toList) hsingle
    have hstatement := hlimited.statement
    rw [Unicode.dropEnd_of_last limited_last] at hstatement
    rw [hadded, if_neg hlimit]
    exact ⟨hstatement, hlimited.words hu hallows.words, fun v => verb_limitClause _⟩

/-- **One query, or none of the verbs that the guard knows.**  What is let through is one statement and a query if and
only if SQLite reads a verb in it, and the verb is neither `REPLACE` nor `VALUES`. -/
theorem select_only_iff (hu : SpaceLaws u) (hm : MarkLaws u) {s : String} (h : (check u s).allowed = true) :
    selectsOnly (check u s).sql.toList ↔
      ∃ v, Sql.verb (Sql.tokens (runText u s)) = some v ∧ v ≠ .replace ∧ v ≠ .values := by
  obtain ⟨hsingle, hwords, hverb⟩ := returned_text hu h
  rw [selectsOnly_iff hsingle]
  constructor
  · intro hselect
    exact ⟨.select, (hverb _).mp hselect, Sql.Verb.noConfusion, Sql.Verb.noConfusion⟩
  · rintro ⟨v, hv, hreplace, hvalues⟩
    have hread := (hverb v).mpr hv
    rcases verb_of_words hm hwords hread with rfl | rfl | rfl
    · exact hread
    · exact absurd rfl hvalues
    · exact absurd rfl hreplace

theorem select_only_plain : selectsOnly (check Unicode.plain "SELECT * FROM orders").sql.toList := by
  have hallowed : (check Unicode.plain "SELECT * FROM orders").allowed = true := by decide +kernel
  refine (select_only_iff spaceLaws_plain markLaws_plain hallowed).mpr ⟨.select, ?_, by decide, by decide⟩
  decide +kernel

/-- `REPLACE` behind a common table expression is let through. -/
theorem replace_let_through :
    ¬ ∀ (u : Unicode) (s : String), SpaceLaws u → MarkLaws u → (check u s).allowed = true →
      selectsOnly (check u s).sql.toList := by
  intro h
  have hselects := h .plain "WITH x AS (SELECT 1) REPLACE INTO t SELECT * FROM x" spaceLaws_plain markLaws_plain
    (by decide +kernel)
  have hreplace : (Sql.statements (check .plain "WITH x AS (SELECT 1) REPLACE INTO t SELECT * FROM x").sql.toList).map
      Sql.verb = [some .replace] := by decide +kernel
  unfold selectsOnly at hselects
  rw [hreplace] at hselects
  exact absurd hselects (by decide)

end SQLGuard

end AgentHarness
