import AgentHarness.Lib.Regex
import Mathlib.Data.List.Infix

/-!
# SQLGuard — `SQLGuard.check`

The guard looks at the text only: at semicolons, at the text of comments, at eight words in upper
case, and at the first word.  `check` is the source's sequence of checks, each with its reason.
-/

namespace AgentHarness

open Lib

structure SQLGuardResult where
  allowed : Bool
  sql : String
  reason : String
  deriving DecidableEq, Repr

namespace SQLGuard

def blockedKeywords : List String :=
  ["DELETE", "UPDATE", "INSERT", "DROP", "TRUNCATE", "ALTER", "CREATE", "PRAGMA"]

def defaultLimit : Nat := 100

section

variable (u : Unicode)

/-- `\bKEYWORD\b`. -/
def keywordPattern (keyword : String) : Regex :=
  Regex.sequence (.edge u.isWord) [Regex.literal keyword.toList, .edge u.isWord]

/-- The first of the blocked keywords that occurs in a text. -/
def findBlocked (text : List Char) : Option String :=
  blockedKeywords.find? fun keyword => (keywordPattern u keyword).occurs text

def refused (sql : List Char) (reason : String) : Option SQLGuardResult :=
  some ⟨false, String.ofList sql, reason⟩

/-- `_check_multi_statement`: the semicolons at the end do not count. -/
def checkMultiStatement (sql : List Char) : Option SQLGuardResult :=
  let withoutTrailing := Unicode.dropEnd (· = ';') (Unicode.dropEnd u.isSpace sql)
  if ';' ∈ withoutTrailing then refused sql "SQL 包含多条语句（检测到非末尾分号）" else none

/-- What follows the first `--` of a line. -/
def lineComment : List Char → Option (List Char)
  | '-' :: '-' :: rest => some rest
  | _ :: rest => lineComment rest
  | [] => none

/-- `sql.split("\n")` -/
def lines : List Char → List (List Char)
  | [] => [[]]
  | c :: cs => match lines cs with
    | [] => [[]]
    | l :: ls => if c = '\n' then [] :: l :: ls else (c :: l) :: ls

/-- `/\*(.*?)\*/` with `re.DOTALL`. -/
def blockPattern : Regex :=
  Regex.sequence (Regex.literal "/*".toList) [.group 1 (.few fun _ => true), Regex.literal "*/".toList]

def extractCommentText (sql : List Char) : List Char :=
  List.intercalate [' ']
    ((lines sql).filterMap lineComment ++ (blockPattern.findAll sql).map fun m => m.group 1)

/-- `_check_comments`. -/
def checkComments (sql : List Char) : Option SQLGuardResult :=
  match findBlocked u (u.upperAll (extractCommentText sql)) with
  | some keyword => refused sql ("SQL 注释中包含被禁止的关键字: " ++ keyword)
  | none => none

/-- `normalized.split()[0]`. -/
def firstWord (normalized : List Char) : List Char :=
  (normalized.dropWhile u.isSpace).takeWhile fun c => !u.isSpace c

/-- `_validate_cte`. -/
def validateCte (sql normalized : List Char) : Option SQLGuardResult :=
  if "SELECT".toList <:+: normalized then none
  else refused sql "WITH CTE 必须最终是 SELECT 查询"

/-- `I` with `re.IGNORECASE`: the two Turkish letters match it too. -/
def isLetterI (c : Char) : Bool := c.toLower = 'i' || c.toNat = 0x130 || c.toNat = 0x131

/-- `\bLIMIT\b` with `re.IGNORECASE`. -/
def limitPattern : Regex :=
  Regex.sequence (.edge u.isWord) [.one fun c => c.toLower = 'l', .one isLetterI,
    .one fun c => c.toLower = 'm', .one isLetterI, .one fun c => c.toLower = 't', .edge u.isWord]

def ensureLimit (sql : List Char) : List Char :=
  if (limitPattern u).occurs sql then sql
  else u.strip (Unicode.dropEnd (· = ';') sql) ++ " LIMIT 100;".toList

/-- What the checks after those of statements and comments say of the stripped text. -/
def checkWords (sql : String) (stripped : List Char) : SQLGuardResult :=
  let normalized := u.upperAll stripped
  match findBlocked u normalized with
  | some keyword => ⟨false, sql, "SQL 包含被禁止的关键字: " ++ keyword⟩
  | none =>
    let word := firstWord u normalized
    if word = "SELECT".toList then ⟨true, String.ofList (ensureLimit u stripped), ""⟩
    else if word = "WITH".toList then
      (validateCte stripped normalized).getD ⟨true, String.ofList (ensureLimit u stripped), ""⟩
    else ⟨false, sql, "只允许 SELECT 或 WITH 查询，当前首词: " ++ String.ofList word⟩

def check (sql : String) : SQLGuardResult :=
  let stripped := u.strip sql.toList
  if stripped = [] then ⟨false, sql, "SQL 为空"⟩
  else match checkMultiStatement u stripped with
    | some result => result
    | none => match checkComments u stripped with
      | some result => result
      | none => checkWords u sql stripped

/-- What the checks let through, and what they make of it. -/
structure Allows (sql : String) (r : SQLGuardResult) : Prop where
  nonempty : u.strip sql.toList ≠ []
  single : ';' ∉ Unicode.dropEnd (· = ';') (Unicode.dropEnd u.isSpace (u.strip sql.toList))
  comments : findBlocked u (u.upperAll (extractCommentText (u.strip sql.toList))) = none
  words : findBlocked u (u.upperAll (u.strip sql.toList)) = none
  verb : firstWord u (u.upperAll (u.strip sql.toList)) = "SELECT".toList ∨
    firstWord u (u.upperAll (u.strip sql.toList)) = "WITH".toList ∧
      "SELECT".toList <:+: u.upperAll (u.strip sql.toList)
  sql : r.sql = String.ofList (ensureLimit u (u.strip sql.toList))

variable {u}

theorem checkMultiStatement_some {sql : List Char} {r : SQLGuardResult}
    (h : checkMultiStatement u sql = some r) : r.allowed = false := by
  unfold checkMultiStatement refused at h
  dsimp only at h
  split at h
  · cases h
    rfl
  · cases h

theorem checkComments_some {sql : List Char} {r : SQLGuardResult}
    (h : checkComments u sql = some r) : r.allowed = false := by
  unfold checkComments refused at h
  split at h
  · cases h
    rfl
  · cases h

/-- A text is allowed where every check lets it through. -/
theorem allows_of_check {sql : String} (h : (check u sql).allowed = true) : Allows u sql (check u sql) := by
  unfold check at h ⊢
  dsimp only at h ⊢
  split at h
  · cases h
  rename_i hne
  rw [if_neg hne]
  cases hmulti : checkMultiStatement u (u.strip sql.toList) with
  | some result =>
    rw [hmulti] at h
    exact absurd h (by simp [checkMultiStatement_some hmulti])
  | none =>
    rw [hmulti] at h
    dsimp only at h ⊢
    cases hcomments : checkComments u (u.strip sql.toList) with
    | some result =>
      rw [hcomments] at h
      exact absurd h (by simp [checkComments_some hcomments])
    | none =>
      rw [hcomments] at h
      have hsingle : ';' ∉ Unicode.dropEnd (· = ';') (Unicode.dropEnd u.isSpace (u.strip sql.toList)) := by
        intro hmem
        unfold checkMultiStatement refused at hmulti
        dsimp only at hmulti
        rw [if_pos hmem] at hmulti
        cases hmulti
      have hquiet : findBlocked u (u.upperAll (extractCommentText (u.strip sql.toList))) = none := by
        unfold checkComments refused at hcomments
        split at hcomments
        · cases hcomments
        · assumption
      unfold checkWords at h ⊢
      dsimp only at h ⊢
      cases hwords : findBlocked u (u.upperAll (u.strip sql.toList)) with
      | some keyword =>
        rw [hwords] at h
        cases h
      | none =>
        rw [hwords] at h
        dsimp only at h ⊢
        split at h
        · rename_i hselect
          rw [if_pos hselect]
          exact ⟨hne, hsingle, hquiet, hwords, .inl hselect, rfl⟩
        rename_i hselect
        rw [if_neg hselect]
        split at h
        · rename_i hwith
          rw [if_pos hwith]
          unfold validateCte at h ⊢
          split at h
          · rename_i hcte
            rw [if_pos hcte]
            exact ⟨hne, hsingle, hquiet, hwords, .inr ⟨hwith, hcte⟩, rfl⟩
          · cases h
        · cases h

end

end SQLGuard

end AgentHarness
