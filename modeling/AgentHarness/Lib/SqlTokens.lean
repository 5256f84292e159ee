import Mathlib.Data.List.Basic

/-!
# Lib.SqlTokens — the tokens of a text as SQLite reads it

SQLite's tokenizer as a machine that reads one character at a time: words (keywords and plain
identifiers), numbers, string literals, identifiers in double quotes, backticks or brackets, blobs,
bound parameters, single characters, and the two kinds of comments, which are no tokens.  A quote is
doubled inside quotes; a line comment ends at a newline, and a block comment at `*/` or with the text.
Operators of several characters are read character by character.

`scan_append` reads a text in parts.  `nesting` counts the parentheses that are open, and `hasTop`
finds a token outside of all of them.
-/

namespace AgentHarness.Lib.Sql

inductive Token where
  /-- a keyword or a plain identifier -/
  | word (text : List Char)
  | number
  | string
  /-- an identifier in quotes -/
  | quoted
  | blob
  /-- `?1`, `:name`, `@name`, `$name` -/
  | variable
  | punct (c : Char)
  | illegal
  deriving DecidableEq, Repr

inductive Quote where
  | single
  | double
  | back
  deriving DecidableEq, Repr

def Quote.char : Quote → Char
  | single => '\''
  | double => '"'
  | back => Char.ofNat 0x60

/-- Single quotes hold a string, the others an identifier. -/
def Quote.token : Quote → Token
  | single => .string
  | double | back => .quoted

def quoteOf (c : Char) : Option Quote :=
  if c = Quote.single.char then some .single
  else if c = Quote.double.char then some .double
  else if c = Quote.back.char then some .back else none

/-- Where the reader is in the token at hand. -/
inductive Mode where
  /-- between tokens -/
  | gap
  /-- in a word; its characters so far, the last one first -/
  | word (read : List Char)
  | number
  | text (q : Quote)
  /-- after a quote that ends the text unless it is doubled -/
  | textEnd (q : Quote)
  | bracket
  | blob
  /-- after `?` and digits -/
  | mark
  /-- in a named parameter; whether it has a character yet -/
  | param (named : Bool)
  /-- after a colon that belongs to the parameter if it is doubled -/
  | paramColon (named : Bool)
  /-- in the parentheses of a parameter -/
  | paramArg
  | minus
  | slash
  /-- right after `/*` -/
  | commentOpen
  | comment
  | commentStar
  | lineComment
  deriving DecidableEq, Repr

/-- `IdChar`: letters, digits, `_`, `$` and everything that is not ASCII. -/
def isIdChar (c : Char) : Bool := c.isAlphanum || c == '_' || c == '$' || 0x80 ≤ c.toNat

/-- `sqlite3Isspace`. -/
def isSpace (c : Char) : Bool := c == ' ' || (9 ≤ c.toNat && c.toNat ≤ 13)

/-- The characters that are tokens of their own, or parts of operators. -/
def isPunct (c : Char) : Bool := c ∈ "()*+,.;<=>|&~!%".toList

/-- The first character of a token. -/
def start (c : Char) : List Token × Mode :=
  if isSpace c then ([], .gap)
  else if c == '-' then ([], .minus)
  else if c == '/' then ([], .slash)
  else if c == '[' then ([], .bracket)
  else if c == '?' then ([], .mark)
  else if c == '$' || c == '@' || c == '#' || c == ':' then ([], .param false)
  else if c.isDigit then ([], .number)
  -- the byte order mark
  else if c.toNat == 0xFEFF then ([], .gap)
  else if isIdChar c then ([], .word [c])
  else match quoteOf c with
    | some q => ([], .text q)
    | none => if isPunct c then ([.punct c], .gap) else ([.illegal], .gap)

/-- The token at hand has ended before `c`. -/
def next (ts : List Token) (c : Char) : List Token × Mode := (ts ++ (start c).1, (start c).2)

/-- A parameter without a name is no token. -/
def paramToken (named : Bool) : Token := if named then .variable else .illegal

/-- One more character, in a named parameter. -/
def stepParam (before : List Token) (named : Bool) (c : Char) : List Token × Mode :=
  if isIdChar c then (before, .param true)
  else if c == '(' && named then (before, .paramArg)
  else if c == ':' then (before, .paramColon named)
  else next (before ++ [paramToken named]) c

/-- One more character. -/
def step : Mode → Char → List Token × Mode
  | .gap, c => start c
  | .word read, c =>
    if isIdChar c then ([], .word (c :: read))
    else if c == Quote.single.char && (read == ['x'] || read == ['X']) then ([], .blob)
    else next [.word read.reverse] c
  | .number, c => if isIdChar c || c == '.' then ([], .number) else next [.number] c
  | .text q, c => if c == q.char then ([], .textEnd q) else ([], .text q)
  | .textEnd q, c => if c == q.char then ([], .text q) else next [q.token] c
  | .bracket, c => if c == ']' then ([.quoted], .gap) else ([], .bracket)
  | .blob, c => if c == Quote.single.char then ([.blob], .gap) else ([], .blob)
  | .mark, c => if c.isDigit then ([], .mark) else next [.variable] c
  | .param named, c => stepParam [] named c
  | .paramColon named, c =>
    if c == ':' then ([], .param named) else stepParam [paramToken named] false c
  | .paramArg, c =>
    if c == ')' then ([.variable], .gap) else if isSpace c then next [.illegal] c else ([], .paramArg)
  | .minus, c => if c == '-' then ([], .lineComment) else next [.punct '-'] c
  | .slash, c => if c == '*' then ([], .commentOpen) else next [.punct '/'] c
  | .commentOpen, c | .comment, c => if c == '*' then ([], .commentStar) else ([], .comment)
  | .commentStar, c =>
    if c == '/' then ([], .gap) else if c == '*' then ([], .commentStar) else ([], .comment)
  | .lineComment, c => if c == '\n' then ([], .gap) else ([], .lineComment)

/-- What the end of the text makes of the token at hand. -/
def finish : Mode → List Token
  | .gap | .comment | .commentStar | .lineComment => []
  | .word read => [.word read.reverse]
  | .number => [.number]
  | .text _ | .bracket | .blob | .paramArg => [.illegal]
  | .textEnd q => [q.token]
  | .mark => [.variable]
  | .param named => [paramToken named]
  | .paramColon named => [paramToken named, .illegal]
  | .minus => [.punct '-']
  | .slash => [.punct '/']
  | .commentOpen => [.punct '/', .punct '*']

/-- The tokens that a text completes, and where it leaves the reader. -/
def scan : Mode → List Char → List Token × Mode
  | m, [] => ([], m)
  | m, c :: cs => ((step m c).1 ++ (scan (step m c).2 cs).1, (scan (step m c).2 cs).2)

def tokens (text : List Char) : List Token := (scan .gap text).1 ++ finish (scan .gap text).2

@[simp] theorem scan_nil (m : Mode) : scan m [] = ([], m) := rfl

theorem scan_cons (m : Mode) (c : Char) (cs : List Char) :
    scan m (c :: cs) = ((step m c).1 ++ (scan (step m c).2 cs).1, (scan (step m c).2 cs).2) := rfl

theorem scan_append (m : Mode) (l l' : List Char) :
    scan m (l ++ l') = ((scan m l).1 ++ (scan (scan m l).2 l').1, (scan (scan m l).2 l').2) := by
  induction l generalizing m with
  | nil => rfl
  | cons c l ih => rw [List.cons_append, scan_cons, ih, scan_cons, List.append_assoc]

/-- The reader is not inside quotes or a comment. -/
def Mode.isCode : Mode → Bool
  | .text _ | .bracket | .blob | .commentOpen | .comment | .commentStar | .lineComment => false
  | _ => true

/-- Outside of quotes and comments, a space ends the token at hand. -/
theorem step_space {m : Mode} (h : m.isCode = true) : step m ' ' = (finish m, .gap) := by
  have hchars : ∀ q : Quote, (' ' == q.char) = false := fun q => by cases q <;> decide
  cases m with
  | gap | number | mark | minus | slash | paramArg => rfl
  | word read => rfl
  | textEnd q =>
    show (if ' ' == q.char then _ else _) = _
    rw [hchars, if_neg Bool.false_ne_true]
    rfl
  | param named => cases named <;> rfl
  | paramColon named => cases named <;> rfl
  | text | bracket | blob | commentOpen | comment | commentStar | lineComment => cases h

/-! ## Parentheses -/

/-- The open parentheses after one more token. -/
def shift (t : Token) (d : Int) : Int :=
  if t = .punct '(' then d + 1 else if t = .punct ')' then d - 1 else d

/-- The parentheses that are open after the tokens. -/
def nesting : Int → List Token → Int
  | d, [] => d
  | d, t :: ts => nesting (shift t d) ts

/-- A token with `p` stands outside of all parentheses. -/
def hasTop (p : Token → Bool) : Int → List Token → Bool
  | _, [] => false
  | d, t :: ts => (d == 0 && p t) || hasTop p (shift t d) ts

variable {p : Token → Bool}

theorem hasTop_cons (d : Int) (t : Token) (ts : List Token) :
    hasTop p d (t :: ts) = ((d == 0 && p t) || hasTop p (shift t d) ts) := rfl

theorem nesting_append (d : Int) (ts ts' : List Token) :
    nesting d (ts ++ ts') = nesting (nesting d ts) ts' := by
  induction ts generalizing d with
  | nil => rfl
  | cons t ts ih => exact ih _

theorem hasTop_append (d : Int) (ts ts' : List Token) :
    hasTop p d (ts ++ ts') = (hasTop p d ts || hasTop p (nesting d ts) ts') := by
  induction ts generalizing d with
  | nil => rfl
  | cons t ts ih => rw [List.cons_append, hasTop_cons, ih, hasTop_cons, Bool.or_assoc]; rfl

/-- Without a token with `p` there is none at the top. -/
theorem hasTop_eq_false {d : Int} {ts : List Token} (h : ∀ t ∈ ts, p t = false) : hasTop p d ts = false := by
  induction ts generalizing d with
  | nil => rfl
  | cons t ts ih =>
    obtain ⟨ht, hts⟩ := List.forall_mem_cons.mp h
    rw [hasTop_cons, ht, Bool.and_false, Bool.false_or]
    exact ih hts

/-- The token is this keyword, in any case. -/
def isKeyword (keyword : String) : Token → Bool
  | .word w => w.map Char.toUpper == keyword.toList
  | _ => false

end AgentHarness.Lib.Sql
