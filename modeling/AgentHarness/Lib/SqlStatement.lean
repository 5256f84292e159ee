import AgentHarness.Lib.SqlTokens

/-!
# Lib.SqlStatement — the statements of a text, and their verbs

The statements of a text are what stands between its semicolons.  `verb` reads the head of a statement: its
first word, or, after `WITH`, the word behind the common table expressions.  What stands in parentheses, and what
follows the verb, is not looked at: a syntax error there keeps SQLite from running the statement, and does not make it
another one.

`tokens_closed`: semicolons at the end of a text end its only statement.  `tokens_placed`: where a word stands in the
text, and what stands next to it.
-/

namespace AgentHarness.Lib.Sql

/-! ## Statements -/

def semicolon : Token := .punct ';'

/-- The statements of a text; nothing between two semicolons is none. -/
def statements (text : List Char) : List (List Token) :=
  ((tokens text).splitOnP (· == semicolon)).filter (· ≠ [])

/-! ## The verb of a statement -/

inductive Verb where
  | select
  | values
  | insert
  | replace
  | update
  | delete
  deriving DecidableEq, Repr

def Verb.keyword : Verb → String
  | select => "SELECT"
  | values => "VALUES"
  | insert => "INSERT"
  | replace => "REPLACE"
  | update => "UPDATE"
  | delete => "DELETE"

def verbs : List Verb := [.select, .values, .insert, .replace, .update, .delete]

/-- The verb that the token is the keyword of. -/
def verbOf (t : Token) : Option Verb := verbs.find? fun v => isKeyword v.keyword t

/-- How far the head of a statement has been read. -/
inductive Head where
  | start
  /-- after `WITH` -/
  | cte
  /-- the name of a common table expression must follow -/
  | name
  | named
  /-- in the column list, with this many parentheses open -/
  | columns (depth : Int)
  | columnsEnd
  | as
  | not
  | materialized
  /-- in the query of the expression -/
  | query (depth : Int)
  | queryEnd
  | verb (v : Verb)
  | malformed
  deriving DecidableEq, Repr

def isName : Token → Bool
  | .word _ | .quoted | .string => true
  | _ => false

def Head.ofVerb (t : Token) : Head := (verbOf t).elim .malformed .verb

def Head.ofName (t : Token) : Head := if isName t then .named else .malformed

def Head.step : Head → Token → Head
  | .start, t => if isKeyword "WITH" t then .cte else .ofVerb t
  | .cte, t => if isKeyword "RECURSIVE" t then .name else .ofName t
  | .name, t => .ofName t
  | .named, t => if t = .punct '(' then .columns 1 else if isKeyword "AS" t then .as else .malformed
  | .columns d, t => if t = .punct ')' ∧ d = 1 then .columnsEnd else .columns (shift t d)
  | .columnsEnd, t => if isKeyword "AS" t then .as else .malformed
  | .as, t =>
    if isKeyword "NOT" t then .not else if isKeyword "MATERIALIZED" t then .materialized
    else if t = .punct '(' then .query 1 else .malformed
  | .not, t => if isKeyword "MATERIALIZED" t then .materialized else .malformed
  | .materialized, t => if t = .punct '(' then .query 1 else .malformed
  | .query d, t => if t = .punct ')' ∧ d = 1 then .queryEnd else .query (shift t d)
  | .queryEnd, t => if t = .punct ',' then .name else .ofVerb t
  | .verb v, _ => .verb v
  | .malformed, _ => .malformed

/-- The verb that the head comes to. -/
def Head.verb? : Head → Option Verb
  | .verb v => some v
  | _ => none

def verb (ts : List Token) : Option Verb := (ts.foldl Head.step .start).verb?

theorem Head.verb?_eq_some {s : Head} {v : Verb} : s.verb? = some v ↔ s = .verb v := by
  cases s <;> simp [Head.verb?]

theorem foldl_verb (v : Verb) (ts : List Token) : ts.foldl Head.step (.verb v) = .verb v := by
  induction ts with
  | nil => rfl
  | cons t ts ih => exact ih

theorem Head.ofVerb_eq {t : Token} {v : Verb} (h : Head.ofVerb t = .verb v) : isKeyword v.keyword t = true := by
  unfold Head.ofVerb at h
  cases hverb : verbOf t with
  | none =>
    rw [hverb] at h
    cases h
  | some w =>
    rw [hverb] at h
    cases h
    have hfound := List.find?_some hverb
    exact hfound

/-- A verb is read at the beginning, or behind the query of the last expression. -/
theorem Head.step_verb {s : Head} {t : Token} {v : Verb} (h : s.step t = .verb v) :
    s = .verb v ∨ (s = .start ∨ s = .queryEnd) ∧ isKeyword v.keyword t = true := by
  have hname : Head.ofName t ≠ .verb v := by
    unfold Head.ofName
    split <;> exact Head.noConfusion
  cases s with
  | verb w => exact .inl h
  | start =>
    simp only [Head.step] at h
    split at h
    · cases h
    · exact .inr ⟨.inl rfl, Head.ofVerb_eq h⟩
  | queryEnd =>
    simp only [Head.step] at h
    split at h
    · cases h
    · exact .inr ⟨.inr rfl, Head.ofVerb_eq h⟩
  | name => exact absurd h hname
  | cte =>
    simp only [Head.step] at h
    split at h
    · cases h
    · exact absurd h hname
  | malformed => cases h
  | named | columns | columnsEnd | as | not | materialized | query =>
    simp only [Head.step] at h
    split_ifs at h

/-- The query of an expression ends with its parenthesis. -/
theorem Head.step_queryEnd {s : Head} {t : Token} (h : s.step t = .queryEnd) : t = .punct ')' := by
  have hname : Head.ofName t ≠ .queryEnd := by
    unfold Head.ofName
    split <;> exact Head.noConfusion
  have hverb : Head.ofVerb t ≠ .queryEnd := by
    unfold Head.ofVerb
    cases verbOf t <;> exact Head.noConfusion
  cases s with
  | query d =>
    simp only [Head.step] at h
    split at h
    · rename_i hend
      exact hend.1
    · cases h
  | start | queryEnd | cte =>
    simp only [Head.step] at h
    split at h
    · cases h
    · contradiction
  | name => exact absurd h hname
  | verb | malformed => cases h
  | named | columns | columnsEnd | as | not | materialized =>
    simp only [Head.step] at h
    split_ifs at h

theorem Head.step_start {s : Head} {t : Token} : s.step t ≠ .start := by
  have hname : Head.ofName t ≠ .start := by
    unfold Head.ofName
    split <;> exact Head.noConfusion
  have hverb : Head.ofVerb t ≠ .start := by
    unfold Head.ofVerb
    cases verbOf t <;> exact Head.noConfusion
  cases s with
  | verb | malformed => exact Head.noConfusion
  | name => exact hname
  | start | queryEnd | cte | named | columns | columnsEnd | as | not | materialized | query =>
    simp only [Head.step]
    split_ifs <;> first | assumption | exact Head.noConfusion

/-- Tokens without the keyword of the verb do not bring it about. -/
theorem foldl_without {v : Verb} {ts : List Token} (h : ∀ t ∈ ts, isKeyword v.keyword t = false) {s : Head} :
    ts.foldl Head.step s = .verb v ↔ s = .verb v := by
  induction ts generalizing s with
  | nil => exact Iff.rfl
  | cons t ts ih =>
    obtain ⟨ht, hts⟩ := List.forall_mem_cons.mp h
    rw [List.foldl_cons, ih hts]
    constructor
    · intro hstep
      rcases Head.step_verb hstep with hs | ⟨-, hkeyword⟩
      · exact hs
      · rw [ht] at hkeyword
        cases hkeyword
    · rintro rfl
      rfl

/-! ## Semicolons at the end -/

/-- A semicolon is none here: the reader is inside quotes, a comment, or the parentheses of a parameter. -/
def Mode.encloses : Mode → Bool
  | .paramArg => true
  | m => !m.isCode

theorem start_semicolon : start ';' = ([semicolon], .gap) := by decide

theorem step_semicolon {m : Mode} (h : m.encloses = false) : step m ';' = (finish m ++ [semicolon], .gap) := by
  have hnext : ∀ ts, next ts ';' = (ts ++ [semicolon], .gap) := by
    intro ts
    unfold next
    rw [start_semicolon]
  cases m with
  | gap | number | mark | minus | slash | word => rfl
  | textEnd q => cases q <;> rfl
  | param named => exact hnext _
  | paramColon named => exact hnext _
  | text | bracket | blob | paramArg | commentOpen | comment | commentStar | lineComment => cases h

theorem step_enclosed {m : Mode} (h : m.encloses = true) :
    (step m ';').1 = [] ∧ (step m ';').2.encloses = true := by
  cases m with
  | text q => cases q <;> exact ⟨rfl, rfl⟩
  | bracket | blob | paramArg | commentOpen | comment | commentStar | lineComment => exact ⟨rfl, rfl⟩
  | gap | word | number | textEnd | mark | param | paramColon | minus | slash => cases h

theorem semicolon_not_mem_paramToken {named : Bool} : semicolon ≠ paramToken named := by
  cases named <;> exact Token.noConfusion

theorem semicolon_not_mem_finish (m : Mode) : semicolon ∉ finish m := by
  cases m with
  | textEnd q => cases q <;> simp [finish, semicolon, Quote.token]
  | param named => cases named <;> simp [finish, semicolon, paramToken]
  | paramColon named => cases named <;> simp [finish, semicolon, paramToken]
  | gap | word | number | text | bracket | blob | mark | paramArg | minus | slash | commentOpen | comment
    | commentStar | lineComment => simp [finish, semicolon]

/-- What a character completes by itself. -/
theorem start_fst (c : Char) : (start c).1 = [] ∨ (start c).1 = [.punct c] ∨ (start c).1 = [.illegal] := by
  generalize hstart : start c = x
  unfold start at hstart
  cases hquote : quoteOf c with
  | some q =>
    simp only [hquote] at hstart
    split_ifs at hstart <;> (subst hstart; exact .inl rfl)
  | none =>
    simp only [hquote] at hstart
    split_ifs at hstart <;> subst hstart <;>
      first | exact .inl rfl | exact .inr (.inl rfl) | exact .inr (.inr rfl)

theorem semicolon_not_mem_start {c : Char} (hc : c ≠ ';') : semicolon ∉ (start c).1 := by
  rcases start_fst c with h | h | h <;> rw [h] <;> simp [semicolon, Ne.symm hc]

theorem semicolon_not_mem_next {ts : List Token} {c : Char} (hts : semicolon ∉ ts) (hc : c ≠ ';') :
    semicolon ∉ (next ts c).1 := by
  intro hmem
  rcases List.mem_append.mp hmem with hmem | hmem
  · exact hts hmem
  · exact semicolon_not_mem_start hc hmem

theorem semicolon_not_mem_step {m : Mode} {c : Char} (hc : c ≠ ';') : semicolon ∉ (step m c).1 := by
  have hparam : ∀ {before : List Token} {named : Bool}, semicolon ∉ before →
      semicolon ∉ (stepParam before named c).1 := by
    intro before named hbefore
    unfold stepParam
    split_ifs
    · exact hbefore
    · exact hbefore
    · exact hbefore
    · refine semicolon_not_mem_next (fun hmem => ?_) hc
      rcases List.mem_append.mp hmem with hmem | hmem
      · exact hbefore hmem
      · exact semicolon_not_mem_finish (.param named) hmem
  cases m with
  | gap => exact semicolon_not_mem_start hc
  | param named => exact hparam List.not_mem_nil
  | paramColon named =>
    simp only [step]
    split
    · exact List.not_mem_nil
    · exact hparam (semicolon_not_mem_finish (.param named))
  | textEnd q =>
    simp only [step]
    split
    · exact List.not_mem_nil
    · exact semicolon_not_mem_next (semicolon_not_mem_finish (.textEnd q)) hc
  | word | number | mark | minus | slash | text | bracket | blob | paramArg | commentOpen | comment | commentStar
    | lineComment =>
    simp only [step]
    split_ifs
    all_goals first
      | exact List.not_mem_nil
      | exact semicolon_not_mem_next (by simp [semicolon]) hc
      | simp [semicolon]

theorem semicolon_not_mem_scan {a : List Char} (h : ';' ∉ a) (m : Mode) : semicolon ∉ (scan m a).1 := by
  induction a generalizing m with
  | nil => exact List.not_mem_nil
  | cons c a ih =>
    rw [List.mem_cons, not_or] at h
    rw [scan_cons, List.mem_append, not_or]
    exact ⟨semicolon_not_mem_step (Ne.symm h.1), ih h.2 _⟩

theorem scan_gap_semicolons (k : ℕ) :
    scan .gap (List.replicate k ';') = (List.replicate k semicolon, .gap) := by
  induction k with
  | zero => rfl
  | succ k ih =>
    rw [List.replicate_succ, scan_cons, List.replicate_succ]
    show ((start ';').1 ++ (scan (start ';').2 _).1, (scan (start ';').2 _).2) = _
    rw [start_semicolon, ih]
    rfl

theorem scan_semicolons (m : Mode) (k : ℕ) : ∃ ts n, semicolon ∉ ts ∧
    (scan m (List.replicate k ';')).1 ++ finish (scan m (List.replicate k ';')).2 =
      ts ++ List.replicate n semicolon := by
  induction k generalizing m with
  | zero => exact ⟨finish m, 0, semicolon_not_mem_finish m, (List.append_nil _).symm⟩
  | succ k ih =>
    rw [List.replicate_succ, scan_cons]
    cases hm : m.encloses with
    | true =>
      rw [(step_enclosed hm).1, List.nil_append]
      exact ih _
    | false =>
      refine ⟨finish m, k + 1, semicolon_not_mem_finish m, ?_⟩
      rw [step_semicolon hm, scan_gap_semicolons, List.replicate_succ]
      simp [finish]

/-- **The tokens of a text that ends with its semicolons.** -/
theorem tokens_closed {a : List Char} (h : ';' ∉ a) (k : ℕ) :
    ∃ ts n, semicolon ∉ ts ∧ tokens (a ++ List.replicate k ';') = ts ++ List.replicate n semicolon := by
  obtain ⟨us, n, hus, heq⟩ := scan_semicolons (scan .gap a).2 k
  refine ⟨(scan .gap a).1 ++ us, n, ?_, ?_⟩
  · rw [List.mem_append, not_or]
    exact ⟨semicolon_not_mem_scan h .gap, hus⟩
  · unfold tokens
    rw [scan_append, List.append_assoc, heq, List.append_assoc]

/-- It has no more than one statement. -/
theorem statements_closed {a : List Char} (h : ';' ∉ a) (k : ℕ) (v : Verb) :
    (statements (a ++ List.replicate k ';')).map verb = [some v] ↔
      verb (tokens (a ++ List.replicate k ';')) = some v := by
  obtain ⟨ts, n, hts, heq⟩ := tokens_closed h k
  have hsplit : ∀ n : ℕ, ((ts ++ List.replicate n semicolon).splitOnP (· == semicolon)).filter (· ≠ []) =
      [ts].filter (· ≠ []) := by
    have hnone : ∀ t ∈ ts, (t == semicolon) = false := by
      intro t ht
      exact beq_eq_false_iff_ne.mpr fun heq => hts (heq ▸ ht)
    have hrest : ∀ n : ℕ, ((List.replicate n semicolon).splitOnP (· == semicolon)).filter (· ≠ []) = [] := by
      intro n
      induction n with
      | zero => rfl
      | succ n ih =>
        have hfirst : (semicolon :: List.replicate n semicolon).splitOnP (· == semicolon) =
            [] :: (List.replicate n semicolon).splitOnP (· == semicolon) :=
          List.splitOnP_append_cons_of_forall_mem (p := (· == semicolon)) (fun _ h => absurd h List.not_mem_nil)
            semicolon (beq_self_eq_true _) _
        rw [List.replicate_succ, hfirst, List.filter_cons_of_neg (by simp)]
        exact ih
    intro n
    cases n with
    | zero => rw [List.replicate_zero, List.append_nil, List.splitOnP_eq_singleton hnone]
    | succ n =>
      rw [List.replicate_succ, List.splitOnP_append_cons_of_forall_mem hnone semicolon (beq_self_eq_true _),
        List.filter_cons, List.filter_cons, hrest, List.filter_nil]
  have hverb : ∀ s : Head, (ts ++ List.replicate n semicolon).foldl Head.step s = .verb v ↔
      ts.foldl Head.step s = .verb v := by
    intro s
    rw [List.foldl_append]
    refine foldl_without fun t ht => ?_
    rw [List.eq_of_mem_replicate ht]
    rfl
  unfold statements verb
  rw [heq, hsplit, Head.verb?_eq_some, hverb, ← Head.verb?_eq_some]
  cases ts with
  | nil => simp [Head.verb?]
  | cons t ts => simp

/-! ## Where words stand -/

/-- A text that a word can be written behind: no word goes on there. -/
def Apart (a : List Char) : Prop := ∀ c ∈ a.getLast?, isIdChar c = false ∨ c.toNat = 0xFEFF

/-- The word stands in the text, and is no part of a longer one. -/
def Placed (text w : List Char) : Prop :=
  ∃ a b, text = a ++ (w ++ b) ∧ Apart a ∧ ∀ c ∈ b.head?, isIdChar c = false

/-- Only a numbered parameter is written without a gap before a word. -/
def Follows (text : List Char) (p t : Token) : Prop := ∀ w, t = .word w → p = .variable ∨ Placed text w

/-- What is known of the text read so far, and of the last token of it, where the reader is in this mode. -/
def Ready (x : List Char) (last : Token) : Mode → Prop
  | .word read => ∃ a, x = a ++ read.reverse ∧ (Apart a ∨ last = .variable)
  | .gap | .textEnd _ | .minus | .slash => Apart x
  | _ => True

theorem apart_concat {x : List Char} {c : Char} (hc : isIdChar c = false ∨ c.toNat = 0xFEFF) : Apart (x ++ [c]) := by
  intro d hd
  rw [List.getLast?_concat] at hd
  rw [← Option.some.inj hd]
  exact hc

theorem isChain_cons_append {R : Token → Token → Prop} {last : Token} {ts us : List Token} :
    (last :: (ts ++ us)).IsChain R ↔ (last :: ts).IsChain R ∧ (ts.getLast?.getD last :: us).IsChain R := by
  induction ts generalizing last with
  | nil => simp
  | cons t ts ih => simp [List.isChain_cons_cons, ih, List.getLast?_cons, and_assoc]

theorem isSpace_not_id {c : Char} (h : isSpace c = true) : isIdChar c = false := by
  have hsmall : ∀ n < 33, isSpace (Char.ofNat n) = true → isIdChar (Char.ofNat n) = false := by decide +kernel
  have hlt : c.toNat < 33 := by
    unfold isSpace at h
    simp only [Bool.or_eq_true, beq_iff_eq, Bool.and_eq_true, decide_eq_true_eq] at h
    rcases h with rfl | h
    · decide
    · omega
  have hc := hsmall c.toNat hlt
  rw [Char.ofNat_toNat] at hc
  exact hc h

/-- One character at the beginning of a token. -/
theorem start_ready {x : List Char} {c : Char} {last : Token}
    (h : Apart x ∨ last = .variable ∨ isIdChar c = false) :
    Ready (x ++ [c]) ((start c).1.getLast?.getD last) (start c).2 := by
  generalize hstart : start c = r
  unfold start at hstart
  split_ifs at hstart with hspace hminus hslash hbracket hmark hparam hdigit hbom hid
  · subst hstart
    exact apart_concat (.inl (isSpace_not_id hspace))
  · subst hstart
    rw [beq_iff_eq.mp hminus]
    exact apart_concat (.inl (by decide))
  · subst hstart
    rw [beq_iff_eq.mp hslash]
    exact apart_concat (.inl (by decide))
  · subst hstart
    trivial
  · subst hstart
    trivial
  · subst hstart
    trivial
  · subst hstart
    trivial
  · subst hstart
    exact apart_concat (.inr (beq_iff_eq.mp hbom))
  · subst hstart
    refine ⟨x, rfl, ?_⟩
    rcases h with h | h | h
    · exact .inl h
    · exact .inr h
    · exact absurd hid (by rw [h]; exact Bool.false_ne_true)
  all_goals
    have hc : isIdChar c = false := by simpa using hid
    cases hquote : quoteOf c with
    | some q =>
      simp only [hquote] at hstart
      subst hstart
      trivial
    | none =>
      simp only [hquote] at hstart
      subst hstart
      exact apart_concat (.inl hc)

/-- Tokens that are no words follow everything. -/
theorem isChain_noWord {text : List Char} {last : Token} {ts : List Token} (h : ∀ t ∈ ts, ∀ w, t ≠ .word w) :
    (last :: ts).IsChain (Follows text) := by
  induction ts generalizing last with
  | nil => exact .singleton last
  | cons t ts ih =>
    refine List.isChain_cons_cons.mpr ⟨fun w hw => absurd hw (h t List.mem_cons_self w), ?_⟩
    exact ih fun t ht => h t (List.mem_cons_of_mem _ ht)

theorem start_noWord (c : Char) : ∀ t ∈ (start c).1, ∀ w, t ≠ .word w := by
  intro t ht w
  rcases start_fst c with h | h | h <;> rw [h] at ht
  · cases ht
  · rw [List.mem_singleton.mp ht]
    exact Token.noConfusion
  · rw [List.mem_singleton.mp ht]
    exact Token.noConfusion

/-- What a step into `c` needs, and what it leaves. -/
def Steps (x : List Char) (c : Char) (rest : List Char) (last : Token) (r : List Token × Mode) : Prop :=
  (last :: r.1).IsChain (Follows (x ++ c :: rest)) ∧ Ready (x ++ [c]) (r.1.getLast?.getD last) r.2

section Steps

variable {x rest : List Char} {c : Char} {last t : Token} {ts : List Token}

theorem steps_start (h : Apart x ∨ last = .variable ∨ isIdChar c = false) : Steps x c rest last (start c) :=
  ⟨isChain_noWord (start_noWord c), start_ready h⟩

/-- A token that is no word ends before `c`. -/
theorem steps_next (hts : ∀ t ∈ ts, ∀ w, t ≠ .word w)
    (h : Apart x ∨ ts.getLast?.getD last = .variable ∨ isIdChar c = false) : Steps x c rest last (next ts c) := by
  constructor
  · refine isChain_noWord fun t ht => ?_
    rcases List.mem_append.mp ht with ht | ht
    · exact hts t ht
    · exact start_noWord c t ht
  · have hready := start_ready h
    have hlast : (ts ++ (start c).1).getLast?.getD last = (start c).1.getLast?.getD (ts.getLast?.getD last) := by
      rw [List.getLast?_append]
      cases (start c).1.getLast? <;> rfl
    unfold next
    dsimp only
    rw [hlast]
    exact hready

/-- In a mode that no word begins in. -/
theorem steps_inside {m : Mode} (hm : ∀ x last, Ready x last m) (hts : ∀ t ∈ ts, ∀ w, t ≠ .word w) :
    Steps x c rest last (ts, m) := ⟨isChain_noWord hts, hm _ _⟩

theorem steps_gap (hc : isIdChar c = false) (hts : ∀ t ∈ ts, ∀ w, t ≠ .word w) : Steps x c rest last (ts, .gap) :=
  ⟨isChain_noWord hts, apart_concat (.inl hc)⟩

theorem noWord_nil : ∀ t ∈ ([] : List Token), ∀ w, t ≠ .word w := fun _ ht => absurd ht List.not_mem_nil

theorem noWord_single (h : ∀ w, t ≠ .word w) : ∀ t' ∈ [t], ∀ w, t' ≠ .word w := by
  intro t' ht'
  rw [List.mem_singleton.mp ht']
  exact h

theorem noWord_param (named : Bool) : ∀ w, paramToken named ≠ .word w := by
  cases named <;> exact fun w => Token.noConfusion

theorem steps_param {before : List Token} (named : Bool) (hbefore : ∀ t ∈ before, ∀ w, t ≠ .word w) :
    Steps x c rest last (stepParam before named c) := by
  unfold stepParam
  split
  · exact steps_inside (fun _ _ => trivial) hbefore
  · rename_i hid
    split
    · exact steps_inside (fun _ _ => trivial) hbefore
    · split
      · exact steps_inside (fun _ _ => trivial) hbefore
      · refine steps_next (fun t ht => ?_) (.inr (.inr (by simpa using hid)))
        rcases List.mem_append.mp ht with ht | ht
        · exact hbefore t ht
        · exact noWord_single (noWord_param named) t ht

/-- **One character.**  Only the mode of a word completes a word. -/
theorem steps_step {m : Mode} (h : Ready x last m) : Steps x c rest last (step m c) := by
  cases m with
  | gap => exact steps_start (.inl h)
  | word read =>
    obtain ⟨a, rfl, ha⟩ := h
    simp only [step]
    split
    · refine ⟨.singleton last, a, ?_, ha⟩
      rw [List.reverse_cons, List.append_assoc]
    · rename_i hid
      have hc : isIdChar c = false := by simpa using hid
      split
      · exact steps_inside (fun _ _ => trivial) noWord_nil
      · -- the word ends before `c`
        obtain ⟨hchain, hready⟩ : Steps (a ++ read.reverse) c rest (.word read.reverse) (start c) :=
          steps_start (.inr (.inr hc))
        refine ⟨List.isChain_cons_cons.mpr ⟨?_, hchain⟩, ?_⟩
        · intro w hw
          cases hw
          rcases ha with ha | ha
          · refine .inr ⟨a, c :: rest, by rw [List.append_assoc], ha, ?_⟩
            intro d hd
            rw [← Option.some.inj hd]
            exact hc
          · exact .inl ha
        · rw [show (next [Token.word read.reverse] c).1 = .word read.reverse :: (start c).1 from rfl,
            List.getLast?_cons]
          exact hready
  | number =>
    simp only [step]
    split
    · exact steps_inside (fun _ _ => trivial) noWord_nil
    · rename_i hid
      refine steps_next (noWord_single nofun) (.inr (.inr ?_))
      simp only [Bool.or_eq_true, not_or, Bool.not_eq_true] at hid
      exact hid.1
  | text q =>
    simp only [step]
    split
    · rename_i hquote
      refine ⟨.singleton last, apart_concat (.inl ?_)⟩
      rw [beq_iff_eq.mp hquote]
      cases q <;> decide
    · exact steps_inside (fun _ _ => trivial) noWord_nil
  | textEnd q =>
    simp only [step]
    split
    · exact steps_inside (fun _ _ => trivial) noWord_nil
    · exact steps_next (noWord_single (by cases q <;> exact nofun)) (.inl h)
  | bracket =>
    simp only [step]
    split
    · rename_i hclose
      refine steps_gap ?_ (noWord_single nofun)
      rw [beq_iff_eq.mp hclose]
      decide
    · exact steps_inside (fun _ _ => trivial) noWord_nil
  | blob =>
    simp only [step]
    split
    · rename_i hclose
      refine steps_gap ?_ (noWord_single nofun)
      rw [beq_iff_eq.mp hclose]
      decide
    · exact steps_inside (fun _ _ => trivial) noWord_nil
  | mark =>
    simp only [step]
    split
    · exact steps_inside (fun _ _ => trivial) noWord_nil
    · exact steps_next (noWord_single nofun) (.inr (.inl rfl))
  | param named => exact steps_param named noWord_nil
  | paramColon named =>
    simp only [step]
    split
    · exact steps_inside (fun _ _ => trivial) noWord_nil
    · exact steps_param false (noWord_single (noWord_param named))
  | paramArg =>
    simp only [step]
    split
    · rename_i hclose
      refine steps_gap ?_ (noWord_single nofun)
      rw [beq_iff_eq.mp hclose]
      decide
    · split
      · rename_i hspace
        exact steps_next (noWord_single nofun) (.inr (.inr (isSpace_not_id hspace)))
      · exact steps_inside (fun _ _ => trivial) noWord_nil
  | minus | slash =>
    simp only [step]
    split
    · exact steps_inside (fun _ _ => trivial) noWord_nil
    · exact steps_next (noWord_single nofun) (.inl h)
  | commentOpen | comment =>
    simp only [step]
    split <;> exact steps_inside (fun _ _ => trivial) noWord_nil
  | commentStar =>
    simp only [step]
    split
    · rename_i hclose
      refine steps_gap ?_ noWord_nil
      rw [beq_iff_eq.mp hclose]
      decide
    · split <;> exact steps_inside (fun _ _ => trivial) noWord_nil
  | lineComment =>
    simp only [step]
    split
    · rename_i hclose
      refine steps_gap ?_ noWord_nil
      rw [beq_iff_eq.mp hclose]
      decide
    · exact steps_inside (fun _ _ => trivial) noWord_nil

/-- The end of the text completes a word, too. -/
theorem finish_follows {m : Mode} (h : Ready x last m) : (last :: finish m).IsChain (Follows x) := by
  cases m with
  | word read =>
    obtain ⟨a, rfl, ha⟩ := h
    refine List.isChain_cons_cons.mpr ⟨?_, .singleton _⟩
    intro w hw
    cases hw
    rcases ha with ha | ha
    · exact .inr ⟨a, [], by rw [List.append_nil], ha, fun d hd => nomatch hd⟩
    · exact .inl ha
  | textEnd q => exact isChain_noWord (noWord_single (by cases q <;> exact nofun))
  | param named => exact isChain_noWord (noWord_single (noWord_param named))
  | paramColon named =>
    refine isChain_noWord fun t ht => ?_
    rcases List.mem_cons.mp ht with rfl | ht
    · exact noWord_param named
    · exact noWord_single (t := .illegal) nofun t ht
  | gap | comment | commentStar | lineComment | commentOpen | number | text | bracket | blob | mark | paramArg
    | minus | slash =>
    exact isChain_noWord (by simp [finish])

/-- **The whole text.** -/
theorem scan_follows {m : Mode} {text : List Char} (h : Ready x last m) :
    (last :: ((scan m text).1 ++ finish (scan m text).2)).IsChain (Follows (x ++ text)) := by
  induction text generalizing x last m with
  | nil =>
    rw [List.append_nil]
    exact finish_follows h
  | cons c text ih =>
    have hsteps : Steps x c text last (step m c) := steps_step h
    obtain ⟨hchain, hready⟩ := hsteps
    rw [scan_cons, List.append_assoc, isChain_cons_append]
    refine ⟨hchain, ?_⟩
    have hrest := ih hready
    rwa [List.append_assoc] at hrest

end Steps

/-- The verb stands in the text. -/
theorem foldl_placed {text : List Char} {v : Verb} {ts : List Token} {s : Head} {last : Token}
    (hchain : (last :: ts).IsChain (Follows text)) (hs : s ≠ .verb v)
    (hlast : s = .start ∨ s = .queryEnd → last ≠ .variable) (h : ts.foldl Head.step s = .verb v) :
    ∃ w, isKeyword v.keyword (.word w) = true ∧ Placed text w := by
  induction ts generalizing s last with
  | nil => exact absurd h hs
  | cons t ts ih =>
    obtain ⟨hfollows, hrest⟩ := List.isChain_cons_cons.mp hchain
    by_cases hstep : s.step t = .verb v
    · rcases Head.step_verb hstep with hverb | ⟨hstate, hkeyword⟩
      · exact absurd hverb hs
      · cases t with
        | word w =>
          rcases hfollows w rfl with hvariable | hplaced
          · exact absurd hvariable (hlast hstate)
          · exact ⟨w, hkeyword, hplaced⟩
        | _ => cases hkeyword
    · refine ih hrest hstep ?_ h
      rintro (hstart | hend)
      · exact absurd hstart Head.step_start
      · rw [Head.step_queryEnd hend]
        exact Token.noConfusion

/-- **The verb of a text stands in it as a word.** -/
theorem verb_placed {text : List Char} {v : Verb} (h : verb (tokens text) = some v) :
    ∃ w, isKeyword v.keyword (.word w) = true ∧ Placed text w := by
  have hready : Ready [] semicolon .gap := fun c hc => nomatch hc
  have hchain : (semicolon :: tokens text).IsChain (Follows text) := scan_follows hready
  refine foldl_placed hchain Head.noConfusion ?_ (Head.verb?_eq_some.mp h)
  exact fun _ => Token.noConfusion

end AgentHarness.Lib.Sql
