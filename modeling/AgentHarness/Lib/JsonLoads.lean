import AgentHarness.Lib.Json
import AgentHarness.Lib.Text

/-!
# Lib.JsonLoads — what `json.loads` takes of a text

The grammar of `json.loads` of Python: the one of `JSON.parse`, and `NaN`, `Infinity` and `-Infinity`.  The values come
from `Builders`, so the module is about texts only: what a value takes is balanced (`Level`), it takes the same when
another text follows (`Segmented`), and no text that begins behind the opening brace of an object has a value
(`loads_cut`).

Limits of the interpreter, the length of an integer and the depth of the nesting, are left out.
-/

namespace AgentHarness.Lib.Json

/-- How values are made. -/
structure Builders (V : Type) where
  null : V
  bool : Bool → V
  /-- an integer or a float, as it is written -/
  number : List Char → V
  /-- `parse_constant` -/
  constant : List Char → V
  string : JsString → V
  list : List V → V
  object : List (JsString × V) → V

/-! ## The grammar -/

section

variable {V A : Type} (b : Builders V)

/-- The words that are values. -/
def words : List (List Char × V) := [
  (['n', 'u', 'l', 'l'], b.null),
  (['t', 'r', 'u', 'e'], b.bool true),
  (['f', 'a', 'l', 's', 'e'], b.bool false),
  (['N', 'a', 'N'], b.constant ['N', 'a', 'N']),
  (['I', 'n', 'f', 'i', 'n', 'i', 't', 'y'], b.constant ['I', 'n', 'f', 'i', 'n', 'i', 't', 'y']),
  (['-', 'I', 'n', 'f', 'i', 'n', 'i', 't', 'y'], b.constant ['-', 'I', 'n', 'f', 'i', 'n', 'i', 't', 'y'])]

/-- A value without parts: a word or a number, and the text after it. -/
def scalar (text : List Char) : Option (V × List Char) :=
  match (words b).find? fun word => word.1.isPrefixOf text with
  | some word => some (word.2, text.drop word.1.length)
  | none => (number text).map fun read => (b.number (text.take (text.length - read.2.length)), read.2)

/-- Items with commas between them, up to the bracket that closes them. -/
def items (item : List Char → Option (A × List Char)) (close : Char) : Nat → List Char → Option (List A × List Char)
  | 0, _ => none
  | n + 1, text =>
    match item text with
    | none => none
    | some (first, text) =>
      match skip text with
      | [] => none
      | c :: text =>
        if c = ',' then (items item close n text).map fun more => (first :: more.1, more.2)
        else if c = close then some ([first], text)
        else none

/-- What stands behind an opening bracket. -/
def container (item : List Char → Option (A × List Char)) (close : Char) (n : Nat) (text : List Char) :
    Option (List A × List Char) :=
  match skip text with
  | [] => none
  | c :: rest => if c = close then some ([], rest) else items item close n text

/-- A name, a colon and a value. -/
def member (value : List Char → Option (A × List Char)) (text : List Char) :
    Option ((JsString × A) × List Char) :=
  match parseKey text with
  | none => none
  | some (key, text) => (value text).map fun read => ((key, read.1), read.2)

/-- A value, and the text after it.  The first argument bounds the nesting, and the length of a text is enough. -/
def value : Nat → List Char → Option (V × List Char)
  | 0, _ => none
  | n + 1, text =>
    match skip text with
    | [] => none
    | c :: text =>
      if c = '\x7b' then (container (member (value n)) '\x7d' n text).map fun read => (b.object read.1, read.2)
      else if c = '[' then (container (value n) ']' n text).map fun read => (b.list read.1, read.2)
      else if c = '"' then (parseString text).map fun read => (b.string read.1, read.2)
      else scalar b (c :: text)

/-- `json.loads(text)`, or a `JSONDecodeError` -/
def loads (text : List Char) : Option V :=
  match value b (text.length + 1) text with
  | none => none
  | some (v, rest) => if skip rest = [] then some v else none

end

/-! ## Balance -/

/-- Where a character of a JSON text stands. -/
inductive Place where
  | code
  | string
  /-- behind a backslash -/
  | escape
  deriving DecidableEq, Repr

/-- One character, at a depth: no bracket closes what is not open, and no string holds a control character. -/
def Place.step : Nat × Place → Char → Option (Nat × Place)
  | (d, .code), c =>
    if c = '"' then some (d, .string)
    else if c = '\x7b' ∨ c = '[' then some (d + 1, .code)
    else if c = '\x7d' ∨ c = ']' then
      match d with
      | 0 => none
      | d + 1 => some (d, .code)
    else some (d, .code)
  | (d, .string), c =>
    if c = '"' then some (d, .code)
    else if c = '\\' then some (d, .escape)
    else if c.toNat < 0x20 then none
    else some (d, .string)
  | (d, .escape), c => if c.toNat < 0x20 then none else some (d, .string)

def Place.run : Nat × Place → List Char → Option (Nat × Place)
  | s, [] => some s
  | s, c :: text => (Place.step s c).bind fun s => Place.run s text

/-- The text closes what it opens and nothing else, and ends outside of strings. -/
def Level (text : List Char) : Prop := ∀ d, Place.run (d, .code) text = some (d, .code)

/-- A character that neither opens nor closes. -/
def Plain (c : Char) : Prop := c ≠ '"' ∧ c ≠ '\x7b' ∧ c ≠ '\x7d' ∧ c ≠ '[' ∧ c ≠ ']'

instance : DecidablePred Plain := fun c =>
  inferInstanceAs (Decidable (c ≠ '"' ∧ c ≠ '\x7b' ∧ c ≠ '\x7d' ∧ c ≠ '[' ∧ c ≠ ']'))

section

variable {s s' : Nat × Place} {text text' rest : List Char} {c : Char}

theorem run_append : Place.run s (text ++ text') = (Place.run s text).bind fun s => Place.run s text' := by
  induction text generalizing s with
  | nil => rfl
  | cons c text ih =>
    rw [List.cons_append, Place.run, Place.run, Option.bind_assoc]
    exact congrArg _ (funext fun s => ih)

theorem Level.append (h : Level text) (h' : Level text') : Level (text ++ text') := by
  intro d
  rw [run_append, h d]
  exact h' d

theorem step_plain (h : Plain c) (d : Nat) : Place.step (d, .code) c = some (d, .code) := by
  obtain ⟨hquote, hbrace, hbrace', hbracket, hbracket'⟩ := h
  unfold Place.step
  dsimp only
  rw [if_neg hquote, if_neg (not_or.mpr ⟨hbrace, hbracket⟩), if_neg (not_or.mpr ⟨hbrace', hbracket'⟩)]

theorem level_plain (h : ∀ c ∈ text, Plain c) : Level text := by
  intro d
  induction text with
  | nil => rfl
  | cons c text ih =>
    rw [Place.run, step_plain (h c List.mem_cons_self)]
    exact ih fun c hc => h c (List.mem_cons_of_mem _ hc)

/-- What is open around a text does not matter to it. -/
theorem step_shift {k : Nat} (h : Place.step s c = some s') :
    Place.step (s.1 + k, s.2) c = some (s'.1 + k, s'.2) := by
  obtain ⟨d, place⟩ := s
  cases place with
  | code =>
    unfold Place.step at h ⊢
    dsimp only at h ⊢
    split_ifs at h ⊢
    · obtain rfl := Option.some.inj h
      rfl
    · obtain rfl := Option.some.inj h
      rw [Nat.add_right_comm]
    · cases d with
      | zero => cases h
      | succ d =>
        obtain rfl := Option.some.inj h
        rw [Nat.add_right_comm]
    · obtain rfl := Option.some.inj h
      rfl
  | string =>
    unfold Place.step at h ⊢
    dsimp only at h ⊢
    split_ifs at h ⊢
    all_goals
      obtain rfl := Option.some.inj h
      rfl
  | escape =>
    unfold Place.step at h ⊢
    dsimp only at h ⊢
    split_ifs at h ⊢
    obtain rfl := Option.some.inj h
    rfl

theorem run_shift {k : Nat} (h : Place.run s text = some s') :
    Place.run (s.1 + k, s.2) text = some (s'.1 + k, s'.2) := by
  induction text generalizing s with
  | nil =>
    obtain rfl := Option.some.inj h
    rfl
  | cons c text ih =>
    obtain ⟨s₁, hstep, hrun⟩ := Option.bind_eq_some_iff.mp h
    rw [Place.run, step_shift hstep]
    exact ih hrun

/-- A line break stands outside of strings. -/
theorem step_newline (h : Place.step s '\n' = some s') : s.2 = .code ∧ s' = s := by
  obtain ⟨d, place⟩ := s
  cases place with
  | code => exact ⟨rfl, (Option.some.inj h).symm⟩
  | string => cases h
  | escape => cases h

end

/-! ## What numbers and words take -/

section

variable {V : Type} {b : Builders V} {v : V} {text rest ds : List Char} {c : Char}

theorem plain_digit (h : c.isDigit = true) : Plain c := by
  refine ⟨?_, ?_, ?_, ?_, ?_⟩ <;>
  · rintro rfl
    cases h

theorem digits_takes (h : digits text = some (ds, rest)) :
    text = ds ++ rest ∧ ds ≠ [] ∧ (∀ c ∈ ds, c.isDigit = true) ∧ digits ds = some (ds, []) := by
  unfold digits at h
  have htext := (List.takeWhile_append_dropWhile (p := Char.isDigit) (l := text)).symm
  have hdigits : ∀ c ∈ text.takeWhile Char.isDigit, c.isDigit = true := fun c hc => List.mem_takeWhile_imp hc
  cases htake : text.takeWhile Char.isDigit with
  | nil =>
    rw [htake] at h
    cases h
  | cons d more =>
    rw [htake] at h htext hdigits
    obtain ⟨rfl, rfl⟩ := Prod.mk.inj (Option.some.inj h)
    refine ⟨htext, List.cons_ne_nil _ _, hdigits, ?_⟩
    unfold digits
    rw [List.takeWhile_eq_self_iff.mpr hdigits, List.dropWhile_eq_nil_iff.mpr hdigits]

theorem intPart_takes (h : intPart text = some (ds, rest)) :
    text = ds ++ rest ∧ ds ≠ [] ∧ (∀ c ∈ ds, c.isDigit = true) ∧ intPart ds = some (ds, []) := by
  cases text with
  | nil => cases h
  | cons c text =>
    unfold intPart at h
    dsimp only at h
    split_ifs at h with hzero hdigit
    · obtain ⟨rfl, rfl⟩ := Prod.mk.inj (Option.some.inj h)
      subst hzero
      refine ⟨rfl, List.cons_ne_nil _ _, ?_, rfl⟩
      intro c hc
      rw [List.mem_singleton.mp hc]
      rfl
    · obtain ⟨rfl, rfl⟩ := Prod.mk.inj (Option.some.inj h)
      have hdigits : ∀ x ∈ text.takeWhile Char.isDigit, x.isDigit = true := fun x hx => List.mem_takeWhile_imp hx
      refine ⟨?_, List.cons_ne_nil _ _, List.forall_mem_cons.mpr ⟨hdigit, hdigits⟩, ?_⟩
      · rw [List.cons_append, List.takeWhile_append_dropWhile]
      · unfold intPart
        dsimp only
        rw [if_neg hzero, if_pos hdigit, List.takeWhile_eq_self_iff.mpr hdigits, List.dropWhile_eq_nil_iff.mpr hdigits]

theorem fracPart_takes (h : fracPart text = some (ds, rest)) :
    ∃ taken, text = taken ++ rest ∧ (∀ c ∈ taken, Plain c) ∧ NoDigit taken ∧ fracPart taken = some (ds, []) := by
  cases text with
  | nil =>
    obtain ⟨rfl, rfl⟩ := Prod.mk.inj (Option.some.inj h)
    exact ⟨[], rfl, fun c hc => absurd hc List.not_mem_nil, fun c hc => (by cases hc), rfl⟩
  | cons c text =>
    unfold fracPart at h
    dsimp only at h
    split_ifs at h with hpoint
    · subst hpoint
      obtain ⟨rfl, -, hdigits, hds⟩ := digits_takes h
      refine ⟨'.' :: ds, rfl, ?_, noDigit_cons.mpr rfl, hds⟩
      exact List.forall_mem_cons.mpr ⟨by decide, fun c hc => plain_digit (hdigits c hc)⟩
    · obtain ⟨rfl, rfl⟩ := Prod.mk.inj (Option.some.inj h)
      exact ⟨[], rfl, fun c hc => absurd hc List.not_mem_nil, fun c hc => (by cases hc), rfl⟩

/-- The mark before an exponent, in both cases of it. -/
theorem plain_exponent (hc : c = 'e' ∨ c = 'E') : Plain c ∧ c.isDigit = false ∧ c ≠ '.' := by
  rcases hc with rfl | rfl <;> decide

theorem expPart_takes {e : Int} (h : expPart text = some (e, rest)) :
    ∃ taken, text = taken ++ rest ∧ (∀ c ∈ taken, Plain c) ∧ NoDigit taken ∧ (∀ c ∈ taken.head?, c ≠ '.') ∧
      expPart taken = some (e, []) := by
  cases text with
  | nil =>
    obtain ⟨rfl, rfl⟩ := Prod.mk.inj (Option.some.inj h)
    exact ⟨[], rfl, fun c hc => absurd hc List.not_mem_nil, fun c hc => (by cases hc), fun c hc => (by cases hc), rfl⟩
  | cons c text =>
    unfold expPart at h
    dsimp only at h
    by_cases hc : c = 'e' ∨ c = 'E'
    · rw [if_pos hc] at h
      obtain ⟨hplain, hdigit, hpoint⟩ := plain_exponent hc
      obtain ⟨⟨ds, text'⟩, hds, heq⟩ := Option.map_eq_some_iff.mp h
      obtain ⟨rfl, rfl⟩ := Prod.mk.inj heq
      obtain ⟨hsplit, hne, hdigits, hds'⟩ := digits_takes hds
      -- the sign is one character or none
      have hsign : ∃ signs, text = signs ++ (sign text).2 ∧ (∀ c ∈ signs, Plain c) ∧
          sign (signs ++ ds) = ((sign text).1, ds) := by
        cases text with
        | nil =>
          rw [show (sign []).2 = [] from rfl] at hsplit
          exact absurd (List.append_eq_nil_iff.mp hsplit.symm).1 hne
        | cons x text =>
          by_cases hminus : x = '-'
          · subst hminus
            exact ⟨['-'], rfl, forall_mem_of_all (by decide), rfl⟩
          · by_cases hplus : x = '+'
            · subst hplus
              exact ⟨['+'], rfl, forall_mem_of_all (by decide), rfl⟩
            · have hnone : sign (x :: text) = (false, x :: text) := by
                unfold sign
                dsimp only
                rw [if_neg hminus, if_neg hplus]
              rw [hnone] at hsplit ⊢
              refine ⟨[], rfl, fun c hc => absurd hc List.not_mem_nil, ?_⟩
              cases ds with
              | nil => exact absurd rfl hne
              | cons d more =>
                obtain rfl := (List.cons.inj hsplit).1
                show sign (x :: more) = _
                unfold sign
                dsimp only
                rw [if_neg hminus, if_neg hplus]
      obtain ⟨signs, htext, hsigns, hread⟩ := hsign
      refine ⟨c :: (signs ++ ds), ?_, ?_, noDigit_cons.mpr hdigit, ?_, ?_⟩
      · rw [List.cons_append, List.append_assoc, ← hsplit, ← htext]
      · refine List.forall_mem_cons.mpr ⟨hplain, List.forall_mem_append.mpr ⟨hsigns, ?_⟩⟩
        exact fun x hx => plain_digit (hdigits x hx)
      · intro x hx
        obtain rfl := Option.some.inj hx
        exact hpoint
      · unfold expPart
        dsimp only
        rw [if_pos hc, hread]
        dsimp only
        rw [hds']
        rfl
    · rw [if_neg hc] at h
      obtain ⟨rfl, rfl⟩ := Prod.mk.inj (Option.some.inj h)
      exact ⟨[], rfl, fun c hc => absurd hc List.not_mem_nil, fun c hc => (by cases hc), fun c hc => (by cases hc), rfl⟩

/-- A number begins with a digit, or with a minus and a digit. -/
def NumberHead (text : List Char) : Prop :=
  ∃ c more, (text = c :: more ∨ text = '-' :: c :: more) ∧ c.isDigit = true

theorem number_takes {d : Decimal} (h : number text = some (d, rest)) :
    ∃ taken, text = taken ++ rest ∧ (∀ c ∈ taken, Plain c) ∧ NumberHead taken ∧ number taken = some (d, []) := by
  have hminus : ∃ signs, text = signs ++ (minus text).2 ∧ (∀ c ∈ signs, Plain c) ∧
      (signs = [] ∧ (minus text).1 = false ∨ signs = ['-'] ∧ (minus text).1 = true) := by
    cases text with
    | nil => exact ⟨[], rfl, fun c hc => absurd hc List.not_mem_nil, Or.inl ⟨rfl, rfl⟩⟩
    | cons c text =>
      unfold minus
      dsimp only
      split_ifs with hc
      · subst hc
        exact ⟨['-'], rfl, forall_mem_of_all (by decide), Or.inr ⟨rfl, rfl⟩⟩
      · exact ⟨[], rfl, fun c hc => absurd hc List.not_mem_nil, Or.inl ⟨rfl, rfl⟩⟩
  obtain ⟨signs, htext, hsigns, hcases⟩ := hminus
  unfold number at h
  simp only [Option.bind_eq_bind, Option.bind_eq_some_iff, Prod.exists] at h
  obtain ⟨int, text₂, hint, frac, text₃, hfrac, e, text₄, hexp, heq⟩ := h
  obtain ⟨rfl, rfl⟩ := Prod.mk.inj (Option.some.inj heq)
  obtain ⟨hint₁, hne, hdigits, hint₂⟩ := intPart_takes hint
  obtain ⟨taken₂, rfl, hplain₂, hnodigit₂, hfrac₂⟩ := fracPart_takes hfrac
  obtain ⟨taken₃, rfl, hplain₃, hnodigit₃, hpoint₃, hexp₂⟩ := expPart_takes hexp
  obtain ⟨x, more, rfl⟩ := List.exists_cons_of_ne_nil hne
  have hx := hdigits x List.mem_cons_self
  have hread : number (signs ++ (x :: more ++ (taken₂ ++ taken₃))) =
      some (⟨(minus text).1, Nat.ofDigitChars 10 (x :: more ++ frac) 0, e - frac.length⟩, []) := by
    have hsplit : minus (signs ++ (x :: more ++ (taken₂ ++ taken₃))) =
        ((minus text).1, x :: more ++ (taken₂ ++ taken₃)) := by
      rcases hcases with ⟨rfl, hfalse⟩ | ⟨rfl, htrue⟩
      · rw [hfalse]
        show (if x = '-' then _ else _) = _
        rw [if_neg (by rintro rfl; cases hx)]
        rfl
      · rw [htrue]
        rfl
    have hnodigit : NoDigit (taken₂ ++ taken₃) := by
      cases taken₂ with
      | nil => exact hnodigit₃
      | cons y taken₂ => exact noDigit_cons.mpr (noDigit_cons.mp hnodigit₂)
    have hint' := intPart_append hint₂ hnodigit
    have hfrac' := fracPart_append hfrac₂ hnodigit₃ hpoint₃
    unfold number
    rw [hsplit]
    dsimp only
    simp only [Option.bind_eq_bind, hint', hfrac', hexp₂, Option.bind_some, List.nil_append]
  refine ⟨signs ++ (x :: more ++ (taken₂ ++ taken₃)), ?_, ?_, ?_, hread⟩
  · conv_lhs => rw [htext, hint₁]
    simp only [List.append_assoc]
  · refine List.forall_mem_append.mpr ⟨hsigns, List.forall_mem_append.mpr ⟨?_, ?_⟩⟩
    · exact fun c hc => plain_digit (hdigits c hc)
    · exact List.forall_mem_append.mpr ⟨hplain₂, hplain₃⟩
  · rcases hcases with ⟨rfl, -⟩ | ⟨rfl, -⟩
    · exact ⟨x, _, Or.inl rfl, hx⟩
    · exact ⟨x, _, Or.inr rfl, hx⟩

/-- No word is a number. -/
theorem find_word_of_number (h : NumberHead text) : ((words b).find? fun word => word.1.isPrefixOf text) = none := by
  obtain ⟨c, more, htext, hc⟩ := h
  rw [List.find?_eq_none]
  intro word hword hstarts
  have hletter : ∀ l : Char, l.isDigit = false → l ≠ c := by
    rintro l hl rfl
    rw [hl] at hc
    cases hc
  obtain ⟨w, hw⟩ := List.isPrefixOf_iff_prefix.mp hstarts
  unfold words at hword
  simp only [List.mem_cons, List.not_mem_nil, or_false] at hword
  rcases htext with rfl | rfl <;> rcases hword with rfl | rfl | rfl | rfl | rfl | rfl
  all_goals first
    | exact hletter _ rfl (List.cons.inj hw).1
    | exact absurd (List.cons.inj hw).1 (by decide)
    | exact hletter _ rfl (List.cons.inj (List.cons.inj hw).2).1

theorem words_plain {word : List Char × V} (h : word ∈ words b) : ∀ c ∈ word.1, Plain c := by
  unfold words at h
  simp only [List.mem_cons, List.not_mem_nil, or_false] at h
  rcases h with rfl | rfl | rfl | rfl | rfl | rfl
  all_goals exact forall_mem_of_all rfl

/-- Values without parts. -/
def Builders.Scalar (b : Builders V) (v : V) : Prop :=
  v = b.null ∨ (∃ x, v = b.bool x) ∨ (∃ text, v = b.number text) ∨ ∃ text, v = b.constant text

/-- **A scalar takes characters that open nothing, and the same ones in front of another text.** -/
theorem scalar_takes (h : scalar b text = some (v, rest)) :
    b.Scalar v ∧ ∃ taken, text = taken ++ rest ∧ taken ≠ [] ∧ (∀ c ∈ taken, Plain c) ∧
      ∀ rest', Stops rest' → scalar b (taken ++ rest') = some (v, rest') := by
  unfold scalar at h
  split at h
  · rename_i word hfind
    obtain ⟨rfl, rfl⟩ := Prod.mk.inj (Option.some.inj h)
    have hfound := List.find?_some (p := fun word : List Char × V => word.1.isPrefixOf text) hfind
    have hstarts := List.isPrefixOf_iff_prefix.mp hfound
    obtain ⟨more, rfl⟩ := hstarts
    rw [List.drop_left]
    have hmem := List.mem_of_find?_eq_some hfind
    have hplain := words_plain hmem
    unfold words at hmem
    simp only [List.mem_cons, List.not_mem_nil, or_false] at hmem
    unfold Builders.Scalar
    rcases hmem with rfl | rfl | rfl | rfl | rfl | rfl
    · exact ⟨Or.inl rfl, _, rfl, List.cons_ne_nil _ _, hplain, fun rest' _ => rfl⟩
    · exact ⟨Or.inr (Or.inl ⟨true, rfl⟩), _, rfl, List.cons_ne_nil _ _, hplain, fun rest' _ => rfl⟩
    · exact ⟨Or.inr (Or.inl ⟨false, rfl⟩), _, rfl, List.cons_ne_nil _ _, hplain, fun rest' _ => rfl⟩
    all_goals
      exact ⟨Or.inr (Or.inr (Or.inr ⟨_, rfl⟩)), _, rfl, List.cons_ne_nil _ _, hplain, fun rest' _ => rfl⟩
  · obtain ⟨⟨d, rest₁⟩, hnumber, heq⟩ := Option.map_eq_some_iff.mp h
    obtain ⟨rfl, rfl⟩ := Prod.mk.inj heq
    obtain ⟨taken, rfl, hplain, hhead, hread⟩ := number_takes hnumber
    have htake : ∀ more : List Char, (taken ++ more).take ((taken ++ more).length - more.length) = taken := by
      intro more
      rw [List.length_append, Nat.add_sub_cancel, List.take_left]
    refine ⟨Or.inr (Or.inr (Or.inl ⟨_, rfl⟩)), taken, rfl, ?_, hplain, ?_⟩
    · rintro rfl
      obtain ⟨c, more, hnil | hnil, -⟩ := hhead <;> cases hnil
    · intro rest' hstops
      have hhead' : NumberHead (taken ++ rest') := by
        obtain ⟨c, more, rfl | rfl, hc⟩ := hhead
        · exact ⟨c, more ++ rest', Or.inl rfl, hc⟩
        · exact ⟨c, more ++ rest', Or.inr rfl, hc⟩
      unfold scalar
      rw [find_word_of_number hhead', number_append hread hstops]
      dsimp only
      rw [Option.map_some, List.nil_append, htake, htake]

end

/-! ## What strings and names take -/

section

variable {s key : JsString} {text rest : List Char} {c : Char}

theorem parseString_char (hquote : c ≠ '"') (hback : c ≠ '\\') (hcontrol : ¬ c.toNat < 0x20) :
    parseString (c :: text) = (parseString text).map fun (s, text) => (utf16 c ++ s, text) := by
  rw [parseString.eq_def]
  split
  · cases ‹_ = []›
  · rename_i heq
    exact absurd (List.cons.inj heq).1 hquote
  · rename_i heq
    exact absurd (List.cons.inj heq).1 hback
  · rename_i heq
    exact absurd (List.cons.inj heq).1 hback
  · rename_i heq
    obtain ⟨rfl, rfl⟩ := List.cons.inj heq
    rw [if_neg (not_or.mpr ⟨hback, hcontrol⟩)]

/-- Inside of a string, one character that neither ends it nor escapes. -/
theorem step_string (hquote : c ≠ '"') (hback : c ≠ '\\') (hcontrol : ¬ c.toNat < 0x20) (d : Nat) :
    Place.step (d, .string) c = some (d, .string) := by
  unfold Place.step
  dsimp only
  rw [if_neg hquote, if_neg hback, if_neg hcontrol]

theorem step_hex (h : hexValue c ≠ none) (d : Nat) : Place.step (d, .string) c = some (d, .string) := by
  have hcontrol : ¬ c.toNat < 0x20 := by
    intro hlt
    apply h
    unfold hexValue
    rw [if_neg, if_neg, if_neg]
    all_goals
      rintro ⟨hle, -⟩
      have hle : Char.toNat _ ≤ c.toNat := hle
      exact absurd (Nat.lt_of_le_of_lt hle hlt) (by decide)
  refine step_string ?_ ?_ hcontrol d
  · rintro rfl
    exact h rfl
  · rintro rfl
    exact h rfl

theorem unescape_control {unit : Nat} (h : unescape c = some unit) : ¬ c.toNat < 0x20 := by
  intro hlt
  have hne : ∀ l : Char, 0x20 ≤ l.toNat → c ≠ l := by
    rintro l hl rfl
    omega
  unfold unescape at h
  rw [if_neg (by simp [hne]), if_neg (hne _ (by decide)), if_neg (hne _ (by decide)), if_neg (hne _ (by decide)),
    if_neg (hne _ (by decide)), if_neg (hne _ (by decide))] at h
  cases h

/-- A string takes the text up to its quote, whatever follows. -/
theorem parseString_takes (h : parseString text = some (s, rest)) :
    ∃ taken, text = taken ++ rest ∧ (∀ d, Place.run (d, .string) taken = some (d, .code)) ∧
      ∀ rest', parseString (taken ++ rest') = some (s, rest') := by
  fun_induction parseString text generalizing s with
  | case1 => cases h
  | case2 text =>
    obtain ⟨rfl, rfl⟩ := Prod.mk.inj (Option.some.inj h)
    exact ⟨['"'], rfl, fun d => rfl, fun rest' => by rw [List.singleton_append, parseString]⟩
  | case3 a b c d text na nb nc nd hd hc hb ha ih =>
    -- four digits
    obtain ⟨⟨s', rest₁⟩, hrest, heq⟩ := Option.map_eq_some_iff.mp h
    obtain ⟨rfl, rfl⟩ := Prod.mk.inj heq
    obtain ⟨taken, rfl, hrun, hread⟩ := ih hrest
    refine ⟨'\\' :: 'u' :: a :: b :: c :: d :: taken, rfl, ?_, ?_⟩
    · intro k
      have hne : ∀ {x : Char} {n : Nat}, hexValue x = some n → hexValue x ≠ none := fun hx => by
        rw [hx]
        exact Option.some_ne_none _
      show (Place.run (k, .string) (a :: b :: c :: d :: taken)) = _
      rw [Place.run, step_hex (hne ha), Option.bind_some, Place.run, step_hex (hne hb), Option.bind_some, Place.run,
        step_hex (hne hc), Option.bind_some, Place.run, step_hex (hne hd), Option.bind_some]
      exact hrun k
    · intro rest'
      show parseString ('\\' :: 'u' :: a :: b :: c :: d :: (taken ++ rest')) = _
      rw [parseString, ha, hb, hc, hd]
      dsimp only
      rw [hread rest']
      rfl
  | case4 => cases h
  | case5 c text hno unit hunit ih =>
    -- a letter behind the backslash
    obtain ⟨⟨s', rest₁⟩, hrest, heq⟩ := Option.map_eq_some_iff.mp h
    obtain ⟨rfl, rfl⟩ := Prod.mk.inj heq
    obtain ⟨taken, rfl, hrun, hread⟩ := ih hrest
    refine ⟨'\\' :: c :: taken, rfl, ?_, ?_⟩
    · intro k
      show Place.run (k, .escape) (c :: taken) = _
      rw [Place.run]
      unfold Place.step
      dsimp only
      rw [if_neg (unescape_control hunit)]
      exact hrun k
    · intro rest'
      rw [List.cons_append, List.cons_append, parseString_letter hunit, hread rest']
      rfl
  | case6 => cases h
  | case7 => cases h
  | case8 c text hquote hno hback hgood ih =>
    obtain ⟨⟨s', rest₁⟩, hrest, heq⟩ := Option.map_eq_some_iff.mp h
    obtain ⟨rfl, rfl⟩ := Prod.mk.inj heq
    obtain ⟨taken, rfl, hrun, hread⟩ := ih hrest
    obtain ⟨hslash, hcontrol⟩ := not_or.mp hgood
    refine ⟨c :: taken, rfl, ?_, ?_⟩
    · intro k
      rw [Place.run, step_string hquote hslash hcontrol]
      exact hrun k
    · intro rest'
      rw [List.cons_append, parseString_char hquote hslash hcontrol, hread rest']
      rfl

/-! ### White space -/

theorem plain_blank (h : isBlank c = true) : Plain c := by
  unfold isBlank at h
  simp only [Bool.or_eq_true, decide_eq_true_eq] at h
  rcases h with ((rfl | rfl) | rfl) | rfl <;> decide

theorem skip_blank {blanks : List Char} (hblank : ∀ x ∈ blanks, isBlank x = true) (hc : isBlank c = false) :
    skip (blanks ++ c :: text) = c :: text := by
  unfold skip
  rw [List.dropWhile_append_of_pos hblank, List.dropWhile_cons_of_neg (by rw [hc]; exact Bool.false_ne_true)]

theorem skip_self (hc : isBlank c = false) : skip (c :: text) = c :: text :=
  List.dropWhile_cons_of_neg (by rw [hc]; exact Bool.false_ne_true)

theorem skip_split (h : skip text = c :: rest) :
    ∃ blanks, (∀ x ∈ blanks, isBlank x = true) ∧ isBlank c = false ∧ text = blanks ++ c :: rest := by
  refine ⟨text.takeWhile isBlank, fun x hx => List.mem_takeWhile_imp hx, ?_, ?_⟩
  · have hhead := Unicode.dropWhile_head (p := isBlank) (s := text)
    unfold skip at h
    rw [h] at hhead
    exact hhead c rfl
  · rw [← h]
    exact List.takeWhile_append_dropWhile.symm

theorem level_blank {blanks : List Char} (hblank : ∀ x ∈ blanks, isBlank x = true) : Level blanks :=
  level_plain fun c hc => plain_blank (hblank c hc)

theorem skip_eq_nil_iff : skip text = [] ↔ ∀ c ∈ text, isBlank c = true := List.dropWhile_eq_nil_iff

/-- A name takes what is balanced, whatever follows its colon. -/
theorem parseKey_takes (h : parseKey text = some (key, rest)) :
    ∃ taken, text = taken ++ rest ∧ Level taken ∧ ∀ rest', parseKey (taken ++ rest') = some (key, rest') := by
  unfold parseKey at h
  split at h
  · rename_i text₁ hskip
    obtain ⟨blanks, hblanks, hquote, rfl⟩ := skip_split hskip
    split at h
    · rename_i key' text₂ hstring
      obtain ⟨taken, rfl, hrun, hread⟩ := parseString_takes hstring
      split at h
      · rename_i text₃ hskip₂
        obtain ⟨blanks₂, hblanks₂, hcolon, rfl⟩ := skip_split hskip₂
        obtain ⟨rfl, rfl⟩ := Prod.mk.inj (Option.some.inj h)
        refine ⟨blanks ++ '"' :: (taken ++ (blanks₂ ++ [':'])), by simp, ?_, ?_⟩
        · refine (level_blank hblanks).append fun d => ?_
          show Place.run (d, .string) (taken ++ (blanks₂ ++ [':'])) = _
          rw [run_append, hrun d, Option.bind_some, run_append, level_blank hblanks₂ d]
          rfl
        · intro rest'
          have htext : blanks ++ '"' :: (taken ++ (blanks₂ ++ [':'])) ++ rest' =
              blanks ++ '"' :: (taken ++ (blanks₂ ++ ':' :: rest')) := by simp
          unfold parseKey
          simp only [htext, skip_blank hblanks hquote, hread, skip_blank hblanks₂ hcolon]
      · cases h
    · cases h
  · cases h

end

/-! ## What values take -/

/-- What is read up to `rest` is balanced, and is read the same with more fuel and another text behind it. -/
def Segmented {A : Type} (p : Nat → List Char → Option (A × List Char)) (n : Nat) : Prop :=
  ∀ text v rest, p n text = some (v, rest) → ∃ taken, text = taken ++ rest ∧ Level taken ∧
    ∀ m, n ≤ m → ∀ rest', Stops rest' → p m (taken ++ rest') = some (v, rest')

/-- A bracket that closes. -/
def Closes (close : Char) : Prop := close = '\x7d' ∨ close = ']'

section

variable {V A : Type} {b : Builders V} {v : V} {p : Nat → List Char → Option (A × List Char)} {n k : Nat}
  {close c : Char} {text rest blanks : List Char} {l : List A}

theorem Closes.not_blank (h : Closes close) : isBlank close = false := by
  rcases h with rfl | rfl <;> rfl

theorem Closes.ne_comma (h : Closes close) : close ≠ ',' := by
  rcases h with rfl | rfl <;> decide

/-- A comma or a closing bracket ends a number, also behind white space. -/
theorem stops_blank (hblank : ∀ x ∈ blanks, isBlank x = true) (hc : c = ',' ∨ Closes c) :
    Stops (blanks ++ c :: text) := by
  cases blanks with
  | nil =>
    rw [List.nil_append, stops_cons]
    rcases hc with rfl | rfl | rfl <;> decide
  | cons x blanks =>
    rw [List.cons_append, stops_cons]
    have hx := hblank x List.mem_cons_self
    unfold isBlank at hx
    simp only [Bool.or_eq_true, decide_eq_true_eq] at hx
    rcases hx with ((rfl | rfl) | rfl) | rfl <;> decide

theorem items_takes (hp : Segmented p n) (hclose : Closes close) (h : items (p n) close k text = some (l, rest)) :
    ∃ body, text = body ++ close :: rest ∧ Level body ∧
      ∀ m, n ≤ m → ∀ k', k ≤ k' → ∀ rest', items (p m) close k' (body ++ close :: rest') = some (l, rest') := by
  induction k generalizing text l with
  | zero => cases h
  | succ k ih =>
    unfold items at h
    split at h
    · cases h
    · rename_i first text₁ hfirst
      obtain ⟨taken, rfl, hlevel, hread⟩ := hp _ _ _ hfirst
      split at h
      · cases h
      · rename_i c text₂ hskip
        obtain ⟨blanks, hblanks, hc, rfl⟩ := skip_split hskip
        split at h
        · rename_i hcomma
          subst hcomma
          obtain ⟨⟨more, rest₁⟩, hmore, heq⟩ := Option.map_eq_some_iff.mp h
          obtain ⟨rfl, rfl⟩ := Prod.mk.inj heq
          obtain ⟨body, rfl, hbody, hagain⟩ := ih hmore
          refine ⟨taken ++ (blanks ++ ([','] ++ body)), by simp, ?_, ?_⟩
          · refine hlevel.append ((level_blank hblanks).append (Level.append ?_ hbody))
            exact level_plain (forall_mem_of_all rfl)
          · intro m hm k' hk rest'
            obtain ⟨k', rfl⟩ := Nat.exists_eq_add_of_le' hk
            have htext : taken ++ (blanks ++ ([','] ++ body)) ++ close :: rest' =
                taken ++ (blanks ++ ',' :: (body ++ close :: rest')) := by simp
            show items (p m) close (k' + k + 1) _ = _
            unfold items
            simp only [htext, hread m hm _ (stops_blank hblanks (Or.inl rfl)), skip_blank hblanks hc, if_true,
              hagain m hm (k' + k) (Nat.le_add_left k k') rest', Option.map_some]
        · split at h
          · rename_i hcomma hend
            subst hend
            obtain ⟨rfl, rfl⟩ := Prod.mk.inj (Option.some.inj h)
            refine ⟨taken ++ blanks, by simp, hlevel.append (level_blank hblanks), ?_⟩
            intro m hm k' hk rest'
            obtain ⟨k', rfl⟩ := Nat.exists_eq_add_of_le' hk
            show items (p m) c (k' + k + 1) _ = _
            unfold items
            simp only [List.append_assoc, hread m hm _ (stops_blank hblanks (Or.inr hclose)), skip_blank hblanks hc,
              if_neg hcomma, if_true]
          · cases h

/-- The first character behind white space stands in front of the closing bracket. -/
theorem skip_body {body : List Char} (rest' : List Char) (hclose : Closes close)
    (h : skip (body ++ close :: rest) = c :: text) (hc : c ≠ close) : ∃ text', skip (body ++ close :: rest') = c :: text' := by
  induction body with
  | nil =>
    rw [List.nil_append, skip, List.dropWhile_cons_of_neg (by rw [hclose.not_blank]; exact Bool.false_ne_true)] at h
    exact absurd (List.cons.inj h).1.symm hc
  | cons x body ih =>
    unfold skip at h ih ⊢
    rw [List.cons_append, List.dropWhile_cons] at h ⊢
    split at h
    · rename_i hx
      rw [if_pos hx]
      exact ih h
    · rename_i hx
      rw [if_neg hx]
      exact ⟨body ++ close :: rest', by rw [(List.cons.inj h).1]⟩

theorem container_takes (hp : Segmented p n) (hclose : Closes close)
    (h : container (p n) close k text = some (l, rest)) :
    ∃ body, text = body ++ close :: rest ∧ Level body ∧
      ∀ m, n ≤ m → ∀ k', k ≤ k' → ∀ rest', container (p m) close k' (body ++ close :: rest') = some (l, rest') := by
  unfold container at h
  split at h
  · cases h
  · rename_i c text₁ hskip
    split at h
    · rename_i hend
      subst hend
      obtain ⟨blanks, hblanks, hc, rfl⟩ := skip_split hskip
      obtain ⟨rfl, rfl⟩ := Prod.mk.inj (Option.some.inj h)
      refine ⟨blanks, rfl, level_blank hblanks, fun m _ k' _ rest' => ?_⟩
      unfold container
      simp only [skip_blank hblanks hc, if_true]
    · rename_i hend
      obtain ⟨body, rfl, hbody, hagain⟩ := items_takes hp hclose h
      refine ⟨body, rfl, hbody, fun m hm k' hk rest' => ?_⟩
      obtain ⟨text', hskip'⟩ := skip_body rest' hclose hskip hend
      unfold container
      simp only [hskip', if_neg hend]
      exact hagain m hm k' hk rest'

theorem member_segmented (hp : Segmented p n) : Segmented (fun n => member (p n)) n := by
  intro text v rest h
  replace h : member (p n) text = some (v, rest) := h
  unfold member at h
  split at h
  · cases h
  · rename_i key text₁ hkey
    obtain ⟨taken, rfl, hlevel, hread⟩ := parseKey_takes hkey
    obtain ⟨⟨v', rest₁⟩, hvalue, heq⟩ := Option.map_eq_some_iff.mp h
    obtain ⟨rfl, rfl⟩ := Prod.mk.inj heq
    obtain ⟨taken₂, rfl, hlevel₂, hread₂⟩ := hp _ _ _ hvalue
    refine ⟨taken ++ taken₂, by simp, hlevel.append hlevel₂, fun m hm rest' hstops => ?_⟩
    dsimp only
    unfold member
    simp only [List.append_assoc, hread, hread₂ m hm rest' hstops, Option.map_some]

/-- The braces of an object: what stands between them is balanced, and whatever follows is not looked at. -/
theorem object_takes (hp : Segmented (value b) n) (h : value b (n + 1) ('\x7b' :: text) = some (v, rest)) :
    (∃ members, v = b.object members) ∧ ∃ body, text = body ++ '\x7d' :: rest ∧ Level body ∧
      ∀ m, n + 1 ≤ m → ∀ rest', value b m ('\x7b' :: (body ++ '\x7d' :: rest')) = some (v, rest') := by
  have hstep : ∀ m text', value b (m + 1) ('\x7b' :: text') =
      (container (member (value b m)) '\x7d' m text').map fun read => (b.object read.1, read.2) := fun m text' => rfl
  rw [hstep] at h
  obtain ⟨⟨members, rest₁⟩, hmembers, heq⟩ := Option.map_eq_some_iff.mp h
  obtain ⟨rfl, rfl⟩ := Prod.mk.inj heq
  obtain ⟨body, rfl, hbody, hread⟩ := container_takes (member_segmented hp) (Or.inl rfl) hmembers
  refine ⟨⟨members, rfl⟩, body, rfl, hbody, fun m hm rest' => ?_⟩
  obtain ⟨m, rfl⟩ := Nat.exists_eq_add_of_le' hm
  show value b (m + n + 1) _ = _
  rw [hstep, hread (m + n) (Nat.le_add_left n m) (m + n) (Nat.le_add_left n m) rest']
  rfl

/-- Brackets around a balanced text make one. -/
theorem level_around {opens closes : Char} {body : List Char} (hopens : opens = '\x7b' ∨ opens = '[')
    (hcloses : Closes closes) (hbody : Level body) : Level (opens :: (body ++ [closes])) := by
  intro d
  have hfirst : Place.step (d, .code) opens = some (d + 1, .code) := by
    rcases hopens with rfl | rfl <;> rfl
  have hlast : Place.step (d + 1, .code) closes = some (d, .code) := by
    rcases hcloses with rfl | rfl <;> rfl
  rw [Place.run, hfirst, Option.bind_some, run_append, hbody, Option.bind_some, Place.run, hlast]
  rfl

theorem value_blank (n : Nat) (hblank : ∀ x ∈ blanks, isBlank x = true) (hc : isBlank c = false) :
    value b n (blanks ++ c :: text) = value b n (c :: text) := by
  cases n with
  | zero => rfl
  | succ n => rw [value, value, skip_blank hblank hc, skip_self hc]

/-- **What a value takes.** -/
theorem value_segmented (b : Builders V) (n : Nat) : Segmented (value b) n := by
  induction n with
  | zero =>
    intro text v rest h
    cases h
  | succ n ih =>
    intro text v rest h
    cases hskip : skip text with
    | nil =>
      rw [value, hskip] at h
      cases h
    | cons c text₁ =>
      obtain ⟨blanks, hblanks, hc, rfl⟩ := skip_split hskip
      rw [value_blank _ hblanks hc] at h
      by_cases hbrace : c = '\x7b'
      · subst hbrace
        obtain ⟨-, body, rfl, hbody, hread⟩ := object_takes ih h
        refine ⟨blanks ++ ('\x7b' :: (body ++ ['\x7d'])), by simp, ?_, fun m hm rest' _ => ?_⟩
        · exact (level_blank hblanks).append (level_around (Or.inl rfl) (Or.inl rfl) hbody)
        · obtain ⟨m, rfl⟩ := Nat.exists_eq_add_of_le' hm
          have hobject := hread (m + n + 1) (by omega) rest'
          rw [← value_blank _ hblanks hc] at hobject
          rw [← hobject]
          simp [Nat.add_assoc]
      have hbehind : ∀ m text', value b (m + 1) (c :: text') =
          if c = '[' then (container (value b m) ']' m text').map fun read => (b.list read.1, read.2)
          else if c = '"' then (parseString text').map fun read => (b.string read.1, read.2)
          else scalar b (c :: text') := by
        intro m text'
        rw [value, skip_self hc]
        dsimp only
        rw [if_neg hbrace]
      rw [hbehind] at h
      by_cases hbracket : c = '['
      · rw [if_pos hbracket] at h
        obtain ⟨⟨l, rest₁⟩, hl, heq⟩ := Option.map_eq_some_iff.mp h
        obtain ⟨rfl, rfl⟩ := Prod.mk.inj heq
        obtain ⟨body, rfl, hbody, hread⟩ := container_takes ih (Or.inr rfl) hl
        refine ⟨blanks ++ (c :: (body ++ [']'])), by simp, ?_, fun m hm rest' _ => ?_⟩
        · exact (level_blank hblanks).append (level_around (Or.inr hbracket) (Or.inr rfl) hbody)
        · obtain ⟨m, rfl⟩ := Nat.exists_eq_add_of_le' hm
          show value b (m + n + 1) _ = _
          have hagain := hread (m + n) (Nat.le_add_left n m) (m + n) (Nat.le_add_left n m) rest'
          rw [show blanks ++ c :: (body ++ [']']) ++ rest' = blanks ++ c :: (body ++ ']' :: rest') by simp,
            value_blank _ hblanks hc, hbehind, if_pos hbracket, hagain]
          rfl
      rw [if_neg hbracket] at h
      by_cases hquote : c = '"'
      · rw [if_pos hquote] at h
        obtain ⟨⟨s, rest₁⟩, hs, heq⟩ := Option.map_eq_some_iff.mp h
        obtain ⟨rfl, rfl⟩ := Prod.mk.inj heq
        obtain ⟨taken, rfl, hrun, hread⟩ := parseString_takes hs
        refine ⟨blanks ++ c :: taken, by simp, (level_blank hblanks).append fun d => ?_, fun m hm rest' _ => ?_⟩
        · subst hquote
          exact hrun d
        · obtain ⟨m, rfl⟩ := Nat.exists_eq_add_of_le' hm
          show value b (m + n + 1) _ = _
          rw [List.append_assoc, List.cons_append, value_blank _ hblanks hc, hbehind, if_neg hbracket, if_pos hquote,
            hread]
          rfl
      rw [if_neg hquote] at h
      obtain ⟨-, taken, htaken, hne, hplain, hread⟩ := scalar_takes h
      obtain ⟨x, taken, rfl⟩ := List.exists_cons_of_ne_nil hne
      obtain ⟨rfl, rfl⟩ := List.cons.inj htaken
      refine ⟨blanks ++ c :: taken, by simp, (level_blank hblanks).append (level_plain hplain), ?_⟩
      intro m hm rest' hs
      obtain ⟨m, rfl⟩ := Nat.exists_eq_add_of_le' hm
      show value b (m + n + 1) _ = _
      rw [List.append_assoc, List.cons_append, value_blank _ hblanks hc, hbehind, if_neg hbracket, if_neg hquote]
      exact hread rest' hs

/-! ## Whole texts -/

variable {w : V} {text' before behind : List Char}

theorem loads_eq_some (h : loads b text = some w) :
    ∃ rest, value b (text.length + 1) text = some (w, rest) ∧ ∀ c ∈ rest, isBlank c = true := by
  unfold loads at h
  split at h
  · cases h
  · rename_i v rest hvalue
    split at h
    · rename_i hskip
      obtain rfl := Option.some.inj h
      exact ⟨rest, hvalue, skip_eq_nil_iff.mp hskip⟩
    · cases h

/-- The text of an object, from its opening to its closing brace, with its value. -/
structure ObjectText (b : Builders V) (text : List Char) (v : V) : Prop where
  loads_eq : loads b text = some v
  first : text.head? = some '\x7b'
  last : text.getLast? = some '\x7d'

theorem ObjectText.braces (h : ObjectText b text v) :
    (∃ members, v = b.object members) ∧ ∃ body, text = '\x7b' :: (body ++ ['\x7d']) ∧ Level body ∧
      ∀ m, text.length < m → ∀ rest', value b m (text ++ rest') = some (v, rest') := by
  obtain ⟨rest, hvalue, hblank⟩ := loads_eq_some h.loads_eq
  cases text with
  | nil => cases h.first
  | cons c text =>
    obtain rfl := Option.some.inj h.first
    obtain ⟨hobject, body, rfl, hbody, hread⟩ := object_takes (value_segmented b _) hvalue
    -- nothing follows the closing brace
    have hrest : rest = [] := by
      have hlast := h.last
      rw [← List.cons_append, List.getLast?_append_cons] at hlast
      cases rest with
      | nil => rfl
      | cons x rest =>
        rw [List.getLast?_cons_cons] at hlast
        have hmem := List.mem_of_getLast? hlast
        exact absurd (hblank _ hmem) (by decide)
    subst hrest
    refine ⟨hobject, body, rfl, hbody, fun m hm rest' => ?_⟩
    have hagain := hread m hm rest'
    simpa using hagain

/-- A text that begins with a plain character is a scalar. -/
theorem value_plain (hc : isBlank c = false) (hplain : Plain c) (h : value b n (c :: text) = some (v, rest)) :
    scalar b (c :: text) = some (v, rest) := by
  obtain ⟨hquote, hbrace, -, hbracket, -⟩ := hplain
  cases n with
  | zero => cases h
  | succ n =>
    rw [value, skip_self hc] at h
    dsimp only at h
    rw [if_neg hbrace, if_neg hbracket, if_neg hquote] at h
    exact h

theorem loads_plain (hplain : ∀ c ∈ text, Plain c) (h : loads b text = some w) : b.Scalar w := by
  obtain ⟨rest, hvalue, -⟩ := loads_eq_some h
  cases hskip : skip text with
  | nil =>
    rw [value, hskip] at hvalue
    cases hvalue
  | cons c text₁ =>
    obtain ⟨blanks, hblanks, hc, rfl⟩ := skip_split hskip
    rw [value_blank _ hblanks hc] at hvalue
    have hc' : Plain c := hplain c (List.mem_append_right _ List.mem_cons_self)
    exact (scalar_takes (value_plain hc hc' hvalue)).1

/-- **An object has no other value with a text around it**, and a value only with white space around it. -/
theorem loads_around (hobject : ObjectText b text v) (hbefore : ∀ c ∈ before, Plain c)
    (h : loads b (before ++ (text ++ behind)) = some w) :
    w = v ∧ ∀ c ∈ before, isBlank c = true := by
  obtain ⟨-, body, htext, -, hread⟩ := hobject.braces
  obtain ⟨rest, hvalue, hblank⟩ := loads_eq_some h
  cases hskip : skip before with
  | nil =>
    have hbefore := skip_eq_nil_iff.mp hskip
    rw [htext, List.cons_append, value_blank _ hbefore rfl, ← List.cons_append, ← htext] at hvalue
    have hagain := hread ((before ++ (text ++ behind)).length + 1) (by simp; omega) behind
    rw [hagain] at hvalue
    exact ⟨(Prod.mk.inj (Option.some.inj hvalue)).1.symm, hbefore⟩
  | cons c before' =>
    exfalso
    obtain ⟨blanks, hblanks, hc, rfl⟩ := skip_split hskip
    have hc' : Plain c := hbefore c (List.mem_append_right _ List.mem_cons_self)
    rw [List.append_assoc, List.cons_append, value_blank _ hblanks hc] at hvalue
    obtain ⟨-, taken, htaken, -, hplain, -⟩ := scalar_takes (value_plain hc hc' hvalue)
    -- the opening brace is neither in the scalar nor blank
    have hbrace : '\x7b' ∈ taken ++ rest := by
      rw [← htaken, htext]
      simp
    rcases List.mem_append.mp hbrace with hmem | hmem
    · exact (hplain _ hmem).2.1 rfl
    · exact absurd (hblank _ hmem) (by decide)

/-- **No value begins behind a line break of an object**: the closing brace would close nothing. -/
theorem loads_cut {front body : List Char} (hbody : Level (front ++ '\n' :: body)) :
    loads b (body ++ '\x7d' :: behind) = none := by
  refine Option.eq_none_iff_forall_ne_some.mpr fun w h => ?_
  obtain ⟨rest, hvalue, hblank⟩ := loads_eq_some h
  obtain ⟨taken, htaken, hlevel, -⟩ := value_segmented b _ _ _ _ hvalue
  have hwhole := (hlevel.append (level_blank hblank)) 0
  rw [← htaken, run_append] at hwhole
  obtain ⟨⟨j, place⟩, hrun, hclose⟩ := Option.bind_eq_some_iff.mp hwhole
  have hall := hbody 0
  rw [run_append] at hall
  obtain ⟨⟨k, place'⟩, -, hline⟩ := Option.bind_eq_some_iff.mp hall
  obtain ⟨s, hstep, hrest⟩ := Option.bind_eq_some_iff.mp hline
  obtain ⟨rfl, rfl⟩ : place' = .code ∧ s = (k, place') := step_newline hstep
  have hshift := run_shift (k := k) hrun
  rw [Nat.zero_add, hrest] at hshift
  obtain ⟨hj, rfl⟩ := Prod.mk.inj (Option.some.inj hshift)
  obtain rfl : j = 0 := by omega
  cases hclose

end

end AgentHarness.Lib.Json
