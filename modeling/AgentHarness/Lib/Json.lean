import Mathlib.Data.List.TakeWhile
import Mathlib.Data.Rat.Defs
import Mathlib.Algebra.Order.Field.Rat
import Mathlib.Tactic.IntervalCases
import Mathlib.Tactic.Ring
import Mathlib.Tactic.SplitIfs

/-!
# Lib.Json — JSON as Python writes it and as JavaScript reads it

`dumps` is `json.dumps` with `ensure_ascii=False`, and `parse` is `JSON.parse`.  They do not speak quite the same
language: `dumps` writes `NaN` and `Infinity`, which are no JSON, and an integer of any size, where `parse` reads
the nearest double.

Floats are the numbers of both languages.  What the libraries know of them is the structure `Floats`.
-/

namespace AgentHarness.Lib.Json

/-! ## Numbers -/

/-- A number as it is written: `digits · 10 ^ exponent`, with its sign. -/
structure Decimal where
  negative : Bool
  digits : Nat
  exponent : Int

def Decimal.value (d : Decimal) : Rat := (if d.negative then -1 else 1) * d.digits * (10 : Rat) ^ d.exponent

/-- The part of a number before its point: a zero stands alone. -/
def intPart : List Char → Option (List Char × List Char)
  | [] => none
  | c :: text =>
    if c = '0' then some ([c], text)
    else if c.isDigit then some (c :: text.takeWhile Char.isDigit, text.dropWhile Char.isDigit)
    else none

/-- At least one digit. -/
def digits (text : List Char) : Option (List Char × List Char) :=
  match text.takeWhile Char.isDigit with
  | [] => none
  | d :: ds => some (d :: ds, text.dropWhile Char.isDigit)

def fracPart : List Char → Option (List Char × List Char)
  | [] => some ([], [])
  | c :: text => if c = '.' then digits text else some ([], c :: text)

def sign : List Char → Bool × List Char
  | [] => (false, [])
  | c :: text => if c = '-' then (true, text) else if c = '+' then (false, text) else (false, c :: text)

def expPart : List Char → Option (Int × List Char)
  | [] => some (0, [])
  | c :: text =>
    if c = 'e' ∨ c = 'E' then
      let (negative, text) := sign text
      (digits text).map fun (ds, text) =>
        (if negative then -(Nat.ofDigitChars 10 ds 0 : Int) else Nat.ofDigitChars 10 ds 0, text)
    else some (0, c :: text)

def minus : List Char → Bool × List Char
  | [] => (false, [])
  | c :: text => if c = '-' then (true, text) else (false, c :: text)

/-- A number of the JSON grammar, and the text after it. -/
def number (text : List Char) : Option (Decimal × List Char) := do
  let (negative, text) := minus text
  let (int, text) ← intPart text
  let (frac, text) ← fracPart text
  let (exponent, text) ← expPart text
  some (⟨negative, Nat.ofDigitChars 10 (int ++ frac) 0, exponent - frac.length⟩, text)

inductive FloatKind where
  | finite (value : Rat)
  | infinity
  | minusInfinity
  | nan

/-- Floats, as the two languages know them. -/
structure Floats (F : Type) where
  kind : F → FloatKind
  /-- `float.__repr__` of a finite one -/
  repr : F → List Char
  /-- the float that a number is read as -/
  ofDecimal : Decimal → F
  /-- what is written is a number, and is read as the same float -/
  ofDecimal_repr : ∀ x value, kind x = .finite value → ∃ d, number (repr x) = some (d, []) ∧ ofDecimal d = x
  /-- a number that is a float is not rounded -/
  ofDecimal_exact : ∀ x d, kind x = .finite d.value → kind (ofDecimal d) = .finite d.value

/-- The integer is the value of a float. -/
def Floats.Exact {F : Type} (fl : Floats F) (i : Int) : Prop := ∃ x, fl.kind x = .finite i

/-! ## Values -/

/-- Data of Python.  Bytes are no JSON. -/
inductive PyValue (F : Type) where
  | none
  | bool (b : Bool)
  | int (i : Int)
  | float (x : F)
  | str (s : String)
  | bytes (b : List UInt8)
  | list (l : List (PyValue F))
  | dict (d : List (String × PyValue F))

/-- Induction on a value, with its parts. -/
theorem PyValue.parts {F : Type} {P : PyValue F → Prop} (hnone : P .none) (hbool : ∀ b, P (.bool b))
    (hint : ∀ i, P (.int i)) (hfloat : ∀ x, P (.float x)) (hstr : ∀ s, P (.str s)) (hbytes : ∀ b, P (.bytes b))
    (hlist : ∀ l, (∀ v ∈ l, P v) → P (.list l)) (hdict : ∀ d, (∀ kv ∈ d, P kv.2) → P (.dict d)) (v : PyValue F) :
    P v := by
  refine @PyValue.rec F P (fun l => ∀ v ∈ l, P v) (fun d => ∀ kv ∈ d, P kv.2) (fun kv => P kv.2) hnone hbool hint
    hfloat hstr hbytes hlist hdict ?_ ?_ ?_ ?_ ?_ v
  · exact fun v h => absurd h List.not_mem_nil
  · exact fun _ _ hv hl => List.forall_mem_cons.mpr ⟨hv, hl⟩
  · exact fun v h => absurd h List.not_mem_nil
  · exact fun _ _ hv hd => List.forall_mem_cons.mpr ⟨hv, hd⟩
  · exact fun _ _ hv => hv

/-- The code units of a string of JavaScript. -/
abbrev JsString := List Nat

/-- Data of JavaScript.  The members of an object are in the order of the text; of two of one name the later counts. -/
inductive JsValue (F : Type) where
  | null
  | bool (b : Bool)
  | number (x : F)
  | string (s : JsString)
  | array (l : List (JsValue F))
  | object (members : List (JsString × JsValue F))

def utf16 (c : Char) : List Nat :=
  if c.toNat < 0x10000 then [c.toNat]
  else [0xD800 + (c.toNat - 0x10000) / 0x400, 0xDC00 + (c.toNat - 0x10000) % 0x400]

/-- The same text in JavaScript. -/
def jsString (text : List Char) : JsString := text.flatMap utf16

variable {F : Type} (fl : Floats F)

mutual
/-- The same data in both languages. -/
def Same : PyValue F → JsValue F → Prop
  | .none, v => v = .null
  | .bool b, v => v = .bool b
  | .int i, v => ∃ x, v = .number x ∧ fl.kind x = .finite i
  | .float x, v => v = .number x
  | .str s, v => v = .string (jsString s.toList)
  | .bytes _, _ => False
  | .list l, v => ∃ l', v = .array l' ∧ SameList l l'
  | .dict d, v => ∃ d', v = .object d' ∧ SameDict d d'

def SameList : List (PyValue F) → List (JsValue F) → Prop
  | [], l' => l' = []
  | v :: l, l' => ∃ v' more, l' = v' :: more ∧ Same v v' ∧ SameList l more

def SameDict : List (String × PyValue F) → List (JsString × JsValue F) → Prop
  | [], d' => d' = []
  | (k, v) :: d, d' => ∃ v' more, d' = (jsString k.toList, v') :: more ∧ Same v v' ∧ SameDict d more
end

/-! ## `json.dumps` -/

def hex4 (n : Nat) : List Char :=
  [Nat.digitChar (n / 4096 % 16), Nat.digitChar (n / 256 % 16), Nat.digitChar (n / 16 % 16), Nat.digitChar (n % 16)]

def escape (c : Char) : List Char :=
  if c = '"' then ['\\', '"']
  else if c = '\\' then ['\\', '\\']
  else if c = '\n' then ['\\', 'n']
  else if c = '\r' then ['\\', 'r']
  else if c = '\t' then ['\\', 't']
  else if c = Char.ofNat 12 then ['\\', 'f']
  else if c = Char.ofNat 8 then ['\\', 'b']
  else if c.toNat < 0x20 then '\\' :: 'u' :: hex4 c.toNat
  else [c]

def dumpsString (s : String) : List Char := '"' :: s.toList.flatMap escape ++ ['"']

def dumpsInt (i : Int) : List Char := if i < 0 then '-' :: Nat.toDigits 10 i.natAbs else Nat.toDigits 10 i.natAbs

def dumpsFloat (x : F) : List Char :=
  match fl.kind x with
  | .finite _ => fl.repr x
  | .infinity => "Infinity".toList
  | .minusInfinity => "-Infinity".toList
  | .nan => "NaN".toList

/-- The `TypeError` for bytes. -/
def notSerializable : String := "Object of type bytes is not JSON serializable"

mutual
def dumps : PyValue F → Except String (List Char)
  | .none => .ok "null".toList
  | .bool b => .ok (if b then "true".toList else "false".toList)
  | .int i => .ok (dumpsInt i)
  | .float x => .ok (dumpsFloat fl x)
  | .str s => .ok (dumpsString s)
  | .bytes _ => .error notSerializable
  | .list [] => .ok "[]".toList
  | .list (v :: l) => do
    let first ← dumps v
    let more ← dumpsMore l
    .ok ('[' :: first ++ more ++ [']'])
  | .dict [] => .ok "\x7b\x7d".toList
  | .dict ((k, v) :: d) => do
    let first ← dumps v
    let more ← dumpsMembers d
    .ok ('\x7b' :: dumpsString k ++ ": ".toList ++ first ++ more ++ ['\x7d'])

def dumpsMore : List (PyValue F) → Except String (List Char)
  | [] => .ok []
  | v :: l => do
    let text ← dumps v
    let more ← dumpsMore l
    .ok (", ".toList ++ text ++ more)

def dumpsMembers : List (String × PyValue F) → Except String (List Char)
  | [] => .ok []
  | (k, v) :: d => do
    let text ← dumps v
    let more ← dumpsMembers d
    .ok (", ".toList ++ dumpsString k ++ ": ".toList ++ text ++ more)
end

/-! ## `JSON.parse` -/

def isBlank (c : Char) : Bool := c = ' ' || c = '\t' || c = '\n' || c = '\r'

def skip (text : List Char) : List Char := text.dropWhile isBlank

def hexValue (c : Char) : Option Nat :=
  if '0' ≤ c ∧ c ≤ '9' then some (c.toNat - 48)
  else if 'a' ≤ c ∧ c ≤ 'f' then some (c.toNat - 87)
  else if 'A' ≤ c ∧ c ≤ 'F' then some (c.toNat - 55)
  else none

/-- What stands for itself after a backslash, and what the letters stand for. -/
def unescape (c : Char) : Option Nat :=
  if c = '"' ∨ c = '\\' ∨ c = '/' then some c.toNat
  else if c = 'b' then some 8
  else if c = 'f' then some 12
  else if c = 'n' then some 10
  else if c = 'r' then some 13
  else if c = 't' then some 9
  else none

/-- The rest of a string, and the text after it. -/
def parseString : List Char → Option (JsString × List Char)
  | [] => none
  | '"' :: text => some ([], text)
  | '\\' :: 'u' :: a :: b :: c :: d :: text =>
    match hexValue a, hexValue b, hexValue c, hexValue d with
    | some a, some b, some c, some d =>
      (parseString text).map fun (s, text) => ((a * 4096 + b * 256 + c * 16 + d) :: s, text)
    | _, _, _, _ => none
  | '\\' :: c :: text =>
    match unescape c with
    | some unit => (parseString text).map fun (s, text) => (unit :: s, text)
    | none => none
  | c :: text =>
    if c = '\\' ∨ c.toNat < 0x20 then none else (parseString text).map fun (s, text) => (utf16 c ++ s, text)

/-- The name of a member with its colon, and the text after it. -/
def parseKey (text : List Char) : Option (JsString × List Char) :=
  match skip text with
  | '"' :: text =>
    match parseString text with
    | some (key, text) =>
      match skip text with
      | ':' :: text => some (key, text)
      | _ => none
    | none => none
  | _ => none

mutual
/-- A value, and the text after it.  The first argument bounds the nesting, and the length of a text is enough. -/
def parseValue : Nat → List Char → Option (JsValue F × List Char)
  | 0, _ => none
  | n + 1, text =>
    match skip text with
    | '\x7b' :: text =>
      match skip text with
      | '\x7d' :: text => some (.object [], text)
      | _ => do
        let (members, text) ← parseMembers n text
        some (.object members, text)
    | '[' :: text =>
      match skip text with
      | ']' :: text => some (.array [], text)
      | _ => do
        let (l, text) ← parseElements n text
        some (.array l, text)
    | '"' :: text => do
      let (s, text) ← parseString text
      some (.string s, text)
    | 't' :: 'r' :: 'u' :: 'e' :: text => some (.bool true, text)
    | 'f' :: 'a' :: 'l' :: 's' :: 'e' :: text => some (.bool false, text)
    | 'n' :: 'u' :: 'l' :: 'l' :: text => some (.null, text)
    | text => do
      let (d, text) ← number text
      some (.number (fl.ofDecimal d), text)

def parseElements : Nat → List Char → Option (List (JsValue F) × List Char)
  | 0, _ => none
  | n + 1, text => do
    let (v, text) ← parseValue n text
    match skip text with
    | ',' :: text => do
      let (l, text) ← parseElements n text
      some (v :: l, text)
    | ']' :: text => some ([v], text)
    | _ => none

def parseMembers : Nat → List Char → Option (List (JsString × JsValue F) × List Char)
  | 0, _ => none
  | n + 1, text => do
    let (key, text) ← parseKey text
    let (v, text) ← parseValue n text
    match skip text with
    | ',' :: text => do
      let (members, text) ← parseMembers n text
      some ((key, v) :: members, text)
    | '\x7d' :: text => some ([(key, v)], text)
    | _ => none
end

/-- `JSON.parse(text)`, or a `SyntaxError` -/
def parse (text : List Char) : Option (JsValue F) := do
  let (v, rest) ← parseValue fl (text.length + 1) text
  if skip rest = [] then some v else none

/-! ## Reading numbers -/

/-- The text after a number does not go on with it. -/
def Stops (rest : List Char) : Prop :=
  ∀ c ∈ rest.head?, c.isDigit = false ∧ c ≠ '.' ∧ c ≠ 'e' ∧ c ≠ 'E'

/-- The text does not begin with a digit. -/
def NoDigit (rest : List Char) : Prop := ∀ c ∈ rest.head?, c.isDigit = false

variable {fl} {text rest rest' ds : List Char} {c : Char} {negative : Bool}

theorem stops_nil : Stops [] := by
  intro c hc
  cases hc

theorem stops_cons : Stops (c :: rest) ↔ c.isDigit = false ∧ c ≠ '.' ∧ c ≠ 'e' ∧ c ≠ 'E' := by
  unfold Stops
  simp

theorem noDigit_cons : NoDigit (c :: rest) ↔ c.isDigit = false := by
  unfold NoDigit
  simp

theorem Stops.noDigit (hs : Stops rest) : NoDigit rest := fun c hc => (hs c hc).1

theorem takeWhile_append (hs : NoDigit rest) :
    (text ++ rest).takeWhile Char.isDigit = text.takeWhile Char.isDigit := by
  induction text with
  | nil =>
    cases rest with
    | nil => rfl
    | cons c rest => exact List.takeWhile_cons_of_neg (by simp [noDigit_cons.mp hs])
  | cons c text ih =>
    rw [List.cons_append, List.takeWhile_cons, List.takeWhile_cons, ih]

theorem dropWhile_append (hs : NoDigit rest) :
    (text ++ rest).dropWhile Char.isDigit = text.dropWhile Char.isDigit ++ rest := by
  induction text with
  | nil =>
    cases rest with
    | nil => rfl
    | cons c rest => exact List.dropWhile_cons_of_neg (by simp [noDigit_cons.mp hs])
  | cons c text ih =>
    rw [List.cons_append, List.dropWhile_cons, List.dropWhile_cons, ih]
    split_ifs <;> rfl

theorem digits_append (h : digits text = some (ds, rest')) (hs : NoDigit rest) :
    digits (text ++ rest) = some (ds, rest' ++ rest) := by
  unfold digits at h ⊢
  rw [takeWhile_append hs, dropWhile_append hs]
  cases htake : text.takeWhile Char.isDigit with
  | nil =>
    rw [htake] at h
    cases h
  | cons d ds' =>
    rw [htake] at h
    obtain ⟨rfl, rfl⟩ := Prod.mk.inj (Option.some.inj h)
    rfl

theorem intPart_append (h : intPart text = some (ds, rest')) (hs : NoDigit rest) :
    intPart (text ++ rest) = some (ds, rest' ++ rest) := by
  cases text with
  | nil => cases h
  | cons c text =>
    rw [List.cons_append]
    unfold intPart at h ⊢
    dsimp only at h ⊢
    split_ifs at h ⊢
    · obtain ⟨rfl, rfl⟩ := Prod.mk.inj (Option.some.inj h)
      rfl
    · obtain ⟨rfl, rfl⟩ := Prod.mk.inj (Option.some.inj h)
      rw [takeWhile_append hs, dropWhile_append hs]

theorem fracPart_append (h : fracPart text = some (ds, rest')) (hs : NoDigit rest)
    (hpoint : ∀ c ∈ rest.head?, c ≠ '.') :
    fracPart (text ++ rest) = some (ds, rest' ++ rest) := by
  cases text with
  | nil =>
    obtain ⟨rfl, rfl⟩ := Prod.mk.inj (Option.some.inj h)
    cases rest with
    | nil => rfl
    | cons c rest =>
      show (if c = '.' then _ else _) = _
      rw [if_neg (hpoint c rfl)]
      rfl
  | cons c text =>
    rw [List.cons_append]
    unfold fracPart at h ⊢
    dsimp only at h ⊢
    split_ifs at h ⊢
    · exact digits_append h hs
    · obtain ⟨rfl, rfl⟩ := Prod.mk.inj (Option.some.inj h)
      rfl

theorem sign_append (h : digits (sign text).2 ≠ none) :
    sign (text ++ rest) = ((sign text).1, (sign text).2 ++ rest) := by
  cases text with
  | nil => exact absurd rfl h
  | cons c text =>
    rw [List.cons_append]
    unfold sign
    dsimp only
    split_ifs <;> rfl

theorem expPart_append {e : Int} (h : expPart text = some (e, rest')) (hs : Stops rest) :
    expPart (text ++ rest) = some (e, rest' ++ rest) := by
  cases text with
  | nil =>
    obtain ⟨rfl, rfl⟩ := Prod.mk.inj (Option.some.inj h)
    cases rest with
    | nil => rfl
    | cons c rest =>
      obtain ⟨-, -, he, hE⟩ := stops_cons.mp hs
      show (if c = 'e' ∨ c = 'E' then _ else _) = _
      rw [if_neg (by tauto)]
      rfl
  | cons c text =>
    rw [List.cons_append]
    unfold expPart at h ⊢
    dsimp only at h ⊢
    by_cases hc : c = 'e' ∨ c = 'E'
    · rw [if_pos hc] at h ⊢
      obtain ⟨⟨ds, text'⟩, hds, heq⟩ := Option.map_eq_some_iff.mp h
      obtain ⟨rfl, rfl⟩ := Prod.mk.inj heq
      rw [sign_append (by rw [hds]; exact Option.some_ne_none _), digits_append hds hs.noDigit]
      rfl
    · rw [if_neg hc] at h ⊢
      obtain ⟨rfl, rfl⟩ := Prod.mk.inj (Option.some.inj h)
      rfl

theorem minus_append (h : text ≠ []) : minus (text ++ rest) = ((minus text).1, (minus text).2 ++ rest) := by
  cases text with
  | nil => exact absurd rfl h
  | cons c text =>
    rw [List.cons_append]
    unfold minus
    dsimp only
    split_ifs <;> rfl

/-- A number is read up to where it stops. -/
theorem number_append {d : Decimal} (h : number text = some (d, rest')) (hs : Stops rest) :
    number (text ++ rest) = some (d, rest' ++ rest) := by
  have hne : text ≠ [] := by
    rintro rfl
    cases h
  unfold number at h ⊢
  rw [minus_append hne]
  simp only [Option.bind_eq_bind, Option.bind_eq_some_iff, Prod.exists] at h
  obtain ⟨int, text₂, hint, frac, text₃, hfrac, e, text₄, hexp, heq⟩ := h
  obtain ⟨rfl, rfl⟩ := Prod.mk.inj (Option.some.inj heq)
  simp only [Option.bind_eq_bind, intPart_append hint hs.noDigit, fracPart_append hfrac hs.noDigit fun c hc => (hs c hc).2.1, expPart_append hexp hs,
    Option.bind_some]

/-! ## Numbers that were written -/

theorem toDigits_head {n : Nat} (hn : 0 < n) :
    ∃ c more, Nat.toDigits 10 n = c :: more ∧ c ≠ '0' ∧ c.isDigit = true := by
  induction n using Nat.strongRecOn with
  | ind n ih =>
    rw [Nat.toDigits_eq_if (by decide)]
    split_ifs with hlt
    · refine ⟨n.digitChar, [], rfl, ?_, ?_⟩
      · interval_cases n <;> decide
      · interval_cases n <;> decide
    · obtain ⟨c, more, hmore, hc⟩ := ih (n / 10) (by omega) (by omega)
      exact ⟨c, more ++ [(n % 10).digitChar], by rw [hmore]; rfl, hc⟩

theorem intPart_toDigits {n : Nat} : intPart (Nat.toDigits 10 n) = some (Nat.toDigits 10 n, []) := by
  rcases Nat.eq_zero_or_pos n with rfl | hn
  · rfl
  · obtain ⟨c, more, hmore, hzero, hdigit⟩ := toDigits_head hn
    have hall : ∀ x ∈ more, x.isDigit = true := by
      intro x hx
      refine Nat.isDigit_of_mem_toDigits (b := 10) (n := n) (by decide) (by decide) ?_
      rw [hmore]
      exact List.mem_cons_of_mem _ hx
    rw [hmore]
    unfold intPart
    dsimp only
    rw [if_neg hzero, if_pos hdigit, List.takeWhile_eq_self_iff.mpr hall, List.dropWhile_eq_nil_iff.mpr hall]

/-- An integer as it is written. -/
def decimalOf (i : Int) : Decimal := ⟨decide (i < 0), i.natAbs, 0⟩

theorem value_decimalOf {i : Int} : (decimalOf i).value = i := by
  unfold Decimal.value decimalOf
  dsimp only
  rw [zpow_zero, mul_one]
  by_cases hi : i < 0
  · have habs : (i.natAbs : Rat) = -i := by
      have : (i.natAbs : Int) = -i := by omega
      rw [← Int.cast_natCast, this, Int.cast_neg]
    rw [habs, if_pos (by simpa using hi)]
    ring
  · have habs : (i.natAbs : Rat) = i := by
      have : (i.natAbs : Int) = i := by omega
      rw [← Int.cast_natCast, this]
    rw [habs, if_neg (by simpa using hi), one_mul]

theorem number_digits {n : Nat} (h : minus text = (negative, Nat.toDigits 10 n)) :
    number text = some (⟨negative, n, 0⟩, []) := by
  unfold number
  rw [h]
  simp [intPart_toDigits, fracPart, expPart]

theorem minus_dumpsInt {i : Int} : minus (dumpsInt i) = (decide (i < 0), Nat.toDigits 10 i.natAbs) := by
  unfold dumpsInt
  by_cases hi : i < 0
  · rw [if_pos hi, decide_eq_true hi]
    rfl
  · rw [if_neg hi, decide_eq_false hi]
    have hminus : minus (Nat.toDigits 10 i.natAbs) = (false, Nat.toDigits 10 i.natAbs) := by
      have hall : ∀ x ∈ Nat.toDigits 10 i.natAbs, x.isDigit = true := fun x hx =>
        Nat.isDigit_of_mem_toDigits (by decide) (by decide) hx
      cases hd : Nat.toDigits 10 i.natAbs with
      | nil => exact absurd hd Nat.toDigits_ne_nil
      | cons c more =>
        rw [hd] at hall
        have hc : c ≠ '-' := by
          rintro rfl
          exact absurd (hall _ List.mem_cons_self) (by decide)
        show (if c = '-' then _ else _) = _
        rw [if_neg hc]
    exact hminus

theorem number_dumpsInt {i : Int} : number (dumpsInt i) = some (decimalOf i, []) := number_digits minus_dumpsInt

/-! ## Strings that were written -/

theorem hexValue_digitChar {n : Nat} (hn : n < 16) : hexValue n.digitChar = some n := by
  interval_cases n <;> decide

/-- A letter after a backslash. -/
theorem parseString_letter {letter : Char} {unit : Nat} (h : unescape letter = some unit) :
    parseString ('\\' :: letter :: text) = (parseString text).map fun (s, text) => (unit :: s, text) := by
  have hu : letter ≠ 'u' := by
    rintro rfl
    cases h
  rw [parseString.eq_def]
  split
  · cases ‹_ = []›
  · rename_i heq
    exact absurd (List.cons.inj heq).1 (by decide)
  · rename_i heq
    exact absurd (List.cons.inj (List.cons.inj heq).2).1 hu
  · rename_i heq
    obtain ⟨-, heq⟩ := List.cons.inj heq
    obtain ⟨rfl, rfl⟩ := List.cons.inj heq
    rw [h]
  · rename_i hno heq
    obtain ⟨rfl, rfl⟩ := List.cons.inj heq
    exact (hno _ _ rfl rfl).elim

theorem parseString_escape : parseString (escape c ++ text) =
    (parseString text).map fun (s, text) => (utf16 c ++ s, text) := by
  unfold escape
  split_ifs with h₁ h₂ h₃ h₄ h₅ h₆ h₇ h₈
  · subst h₁
    exact parseString_letter rfl
  · subst h₂
    exact parseString_letter rfl
  · subst h₃
    exact parseString_letter rfl
  · subst h₄
    exact parseString_letter rfl
  · subst h₅
    exact parseString_letter rfl
  · subst h₆
    exact parseString_letter rfl
  · subst h₇
    exact parseString_letter rfl
  · have hunit : utf16 c = [c.toNat] := by
      unfold utf16
      rw [if_pos (by omega)]
    have hsum : c.toNat / 4096 % 16 * 4096 + c.toNat / 256 % 16 * 256 + c.toNat / 16 % 16 * 16 + c.toNat % 16 =
        c.toNat := by omega
    show parseString ('\\' :: 'u' :: _ :: _ :: _ :: _ :: text) = _
    rw [parseString, hexValue_digitChar (by omega), hexValue_digitChar (by omega), hexValue_digitChar (by omega),
      hexValue_digitChar (by omega), hunit]
    dsimp only
    rw [hsum]
    rfl
  · show parseString (c :: text) = _
    rw [parseString.eq_def]
    split
    · cases ‹_ = []›
    · rename_i heq
      exact absurd (List.cons.inj heq).1 h₁
    · rename_i heq
      exact absurd (List.cons.inj heq).1 h₂
    · rename_i heq
      exact absurd (List.cons.inj heq).1 h₂
    · rename_i heq
      obtain ⟨rfl, rfl⟩ := List.cons.inj heq
      rw [if_neg (by tauto)]

theorem parseString_dumps {s : List Char} :
    parseString (s.flatMap escape ++ '"' :: text) = some (jsString s, text) := by
  induction s with
  | nil => rfl
  | cons c s ih =>
    rw [List.flatMap_cons, List.append_assoc, parseString_escape, ih]
    rfl

/-! ## A small system of floats -/

/-- `i.0` -/
theorem number_point {i : Int} :
    number (dumpsInt i ++ ['.', '0']) = some (⟨decide (i < 0), i.natAbs * 10, -1⟩, []) := by
  have hne : dumpsInt i ≠ [] := by
    intro hnil
    have hnumber := @number_dumpsInt i
    rw [hnil] at hnumber
    cases hnumber
  have hpoint : NoDigit ['.', '0'] := noDigit_cons.mpr rfl
  have hdigits : Nat.ofDigitChars 10 (Nat.toDigits 10 i.natAbs ++ ['0']) 0 = i.natAbs * 10 := by
    rw [Nat.ofDigitChars_append, Nat.ofDigitChars_ten_toDigits]
    show 10 * i.natAbs + 0 = i.natAbs * 10
    omega
  unfold number
  rw [minus_append hne, minus_dumpsInt]
  simp only [intPart_append intPart_toDigits hpoint, List.nil_append, Option.bind_eq_bind, Option.bind_some]
  show some ((⟨_, Nat.ofDigitChars 10 (Nat.toDigits 10 i.natAbs ++ ['0']) 0, -1⟩ : Decimal), []) = _
  rw [hdigits]

theorem value_point {i : Int} : (⟨decide (i < 0), i.natAbs * 10, -1⟩ : Decimal).value = i := by
  rw [← value_decimalOf]
  unfold Decimal.value decimalOf
  dsimp only
  rw [zpow_zero, mul_one, Nat.cast_mul, zpow_neg_one]
  ring

/-- The floats that are whole numbers, and the infinity. -/
def Floats.whole : Floats (Option Int) where
  kind
    | some i => .finite i
    | none => .infinity
  repr
    | some i => dumpsInt i ++ ['.', '0']
    | none => "inf".toList
  ofDecimal d := some d.value.floor
  ofDecimal_repr x value h := by
    cases x with
    | none => cases h
    | some i =>
      refine ⟨_, number_point, ?_⟩
      rw [value_point, Rat.floor_intCast]
  ofDecimal_exact x d h := by
    cases x with
    | none => cases h
    | some i =>
      have hvalue : (i : Rat) = d.value := FloatKind.finite.inj h
      show FloatKind.finite (d.value.floor : Rat) = _
      rw [← hvalue, Rat.floor_intCast]

end AgentHarness.Lib.Json
