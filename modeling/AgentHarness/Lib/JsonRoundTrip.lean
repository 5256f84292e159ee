import AgentHarness.Lib.Json

/-!
# Lib.JsonRoundTrip — what comes of a value that Python has written

`reads` is the round trip at the level of the parser, by induction on the value: each text is read up to its end
and as `readAs` says.  From it come `parse_dumps`, and `survives_iff`: what is read as the same data is exactly
what is portable.  `printable_dumps` is that a text has no control characters, so that it stays on one line.
-/

namespace AgentHarness.Lib.Json

variable {F : Type} {fl : Floats F} {text rest rest' ds : List Char} {c : Char}

/-! ## Values that were written -/

variable (fl) in
mutual
/-- What a value is read as, if its text is JSON. -/
def readAs : PyValue F → Option (JsValue F)
  | .none => some .null
  | .bool b => some (.bool b)
  | .int i => some (.number (fl.ofDecimal (decimalOf i)))
  | .float x =>
    match fl.kind x with
    | .finite _ => some (.number x)
    | _ => none
  | .str s => some (.string (jsString s.toList))
  | .bytes _ => none
  | .list l => (readAsList l).map .array
  | .dict d => (readAsDict d).map .object

def readAsList : List (PyValue F) → Option (List (JsValue F))
  | [] => some []
  | v :: l => do
    let v ← readAs v
    let l ← readAsList l
    some (v :: l)

def readAsDict : List (String × PyValue F) → Option (List (JsString × JsValue F))
  | [] => some []
  | (k, v) :: d => do
    let v ← readAs v
    let d ← readAsDict d
    some ((jsString k.toList, v) :: d)
end

mutual
/-- How deep the calls go that read a value. -/
def depth : PyValue F → Nat
  | .list (v :: l) => 2 + max (depth v) (depthList l)
  | .dict ((_, v) :: d) => 2 + max (depth v) (depthDict d)
  | _ => 1

def depthList : List (PyValue F) → Nat
  | [] => 0
  | v :: l => 1 + max (depth v) (depthList l)

def depthDict : List (String × PyValue F) → Nat
  | [] => 0
  | (_, v) :: d => 1 + max (depth v) (depthDict d)
end

/-- The letters at which a value that is no number begins, and the blanks. -/
def otherLetters : List Char := ['\x7b', '[', '"', 't', 'f', 'n', ' ', '\t', '\n', '\r']

/-- What begins otherwise is read as a number. -/
theorem parseValue_number {n : Nat} (h : c ∉ otherLetters) : parseValue fl (n + 1) (c :: text) =
    (number (c :: text)).map fun (d, text) => (.number (fl.ofDecimal d), text) := by
  unfold otherLetters at h
  simp only [List.mem_cons, List.not_mem_nil, or_false, not_or] at h
  obtain ⟨hbrace, hbracket, hquote, ht, hf, hn, hblanks⟩ := h
  have hskip : skip (c :: text) = c :: text := List.dropWhile_cons_of_neg (by simp [isBlank, hblanks])
  rw [parseValue.eq_def]
  dsimp only
  rw [hskip]
  split
  · exact absurd (List.cons.inj ‹_›).1 hbrace
  · exact absurd (List.cons.inj ‹_›).1 hbracket
  · exact absurd (List.cons.inj ‹_›).1 hquote
  · exact absurd (List.cons.inj ‹_›).1 ht
  · exact absurd (List.cons.inj ‹_›).1 hf
  · exact absurd (List.cons.inj ‹_›).1 hn
  · cases number (c :: text) with
    | none => rfl
    | some p => rfl

theorem digit_opens (h : c.isDigit = true) : c ∉ otherLetters ∧ c ≠ ']' := by
  have hno : (otherLetters.all fun c' => !c'.isDigit) = true := by decide
  refine ⟨fun hc => ?_, ?_⟩
  · have hc : (!c.isDigit) = true := List.all_eq_true.mp hno c hc
    rw [h] at hc
    cases hc
  · rintro rfl
    cases h

theorem number_head {p : Decimal × List Char} (h : number text = some p) :
    ∃ c more, text = c :: more ∧ c ∉ otherLetters ∧ c ≠ ']' := by
  cases text with
  | nil => cases h
  | cons c more =>
    refine ⟨c, more, rfl, ?_⟩
    by_cases hminus : c = '-'
    · subst hminus
      decide
    · refine digit_opens ?_
      by_contra hdigit
      have hzero : c ≠ '0' := by
        rintro rfl
        exact hdigit rfl
      unfold number minus intPart at h
      simp [hminus, hzero, hdigit] at h

/-! ## The texts of lists and dicts -/

variable {v : PyValue F} {l : List (PyValue F)} {d : List (String × PyValue F)} {t first more : List Char}
  {k : String} {n : Nat}

theorem dumps_list (h : dumps fl (.list (v :: l)) = .ok t) : ∃ first more, dumps fl v = .ok first ∧
    dumpsMore fl l = .ok more ∧ t = '[' :: first ++ more ++ [']'] := by
  unfold dumps at h
  cases hv : dumps fl v with
  | error e =>
    rw [hv] at h
    cases h
  | ok first =>
    cases hl : dumpsMore fl l with
    | error e =>
      rw [hv, hl] at h
      cases h
    | ok more =>
      rw [hv, hl] at h
      exact ⟨first, more, rfl, rfl, (Except.ok.inj h).symm⟩

theorem dumps_dict (h : dumps fl (.dict ((k, v) :: d)) = .ok t) : ∃ first more, dumps fl v = .ok first ∧
    dumpsMembers fl d = .ok more ∧ t = '\x7b' :: dumpsString k ++ ": ".toList ++ first ++ more ++ ['\x7d'] := by
  unfold dumps at h
  cases hv : dumps fl v with
  | error e =>
    rw [hv] at h
    cases h
  | ok first =>
    cases hd : dumpsMembers fl d with
    | error e =>
      rw [hv, hd] at h
      cases h
    | ok more =>
      rw [hv, hd] at h
      exact ⟨first, more, rfl, rfl, (Except.ok.inj h).symm⟩

theorem dumpsMore_cons (h : dumpsMore fl (v :: l) = .ok t) : ∃ text more, dumps fl v = .ok text ∧
    dumpsMore fl l = .ok more ∧ t = ',' :: ' ' :: text ++ more := by
  unfold dumpsMore at h
  cases hv : dumps fl v with
  | error e =>
    rw [hv] at h
    cases h
  | ok text =>
    cases hl : dumpsMore fl l with
    | error e =>
      rw [hv, hl] at h
      cases h
    | ok more =>
      rw [hv, hl] at h
      exact ⟨text, more, rfl, rfl, (Except.ok.inj h).symm⟩

theorem dumpsMembers_cons (h : dumpsMembers fl ((k, v) :: d) = .ok t) : ∃ text more, dumps fl v = .ok text ∧
    dumpsMembers fl d = .ok more ∧ t = ',' :: ' ' :: dumpsString k ++ ':' :: ' ' :: text ++ more := by
  unfold dumpsMembers at h
  cases hv : dumps fl v with
  | error e =>
    rw [hv] at h
    cases h
  | ok text =>
    cases hd : dumpsMembers fl d with
    | error e =>
      rw [hv, hd] at h
      cases h
    | ok more =>
      rw [hv, hd] at h
      refine ⟨text, more, rfl, rfl, ?_⟩
      rw [← Except.ok.inj h]
      simp

theorem blank_of_not_other (h : c ∉ otherLetters) : isBlank c = false := by
  unfold otherLetters at h
  simp only [List.mem_cons, List.not_mem_nil, or_false, not_or] at h
  simp [isBlank, h]

/-- A number that was written: it is read as what it is, or is no JSON. -/
theorem number_dumpsFloat {x : F} (hs : Stops rest) :
    ∃ c more, dumpsFloat fl x = c :: more ∧ c ∉ otherLetters ∧ c ≠ ']' ∧
    ((number (dumpsFloat fl x ++ rest)).map fun (d, text) => (JsValue.number (fl.ofDecimal d), text)) =
      (readAs fl (.float x)).map fun v => (v, rest) := by
  unfold dumpsFloat readAs
  cases hkind : fl.kind x with
  | finite value =>
    obtain ⟨d, hd, hx⟩ := fl.ofDecimal_repr x value hkind
    obtain ⟨c, more, hc, hother⟩ := number_head hd
    refine ⟨c, more, hc, hother.1, hother.2, ?_⟩
    dsimp only
    rw [number_append hd hs, Option.map_some, hx]
    rfl
  | infinity => exact ⟨_, _, rfl, by decide, by decide, rfl⟩
  | minusInfinity => exact ⟨_, _, rfl, by decide, by decide, rfl⟩
  | nan => exact ⟨_, _, rfl, by decide, by decide, rfl⟩

theorem dumpsInt_head {i : Int} : ∃ c more, dumpsInt i = c :: more ∧ c ∉ otherLetters ∧ c ≠ ']' :=
  number_head number_dumpsInt

/-- A value begins with no blank, and does not close a list. -/
theorem dumps_head (h : dumps fl v = .ok t) : ∃ c more, t = c :: more ∧ isBlank c = false ∧ c ≠ ']' := by
  cases v with
  | none =>
    obtain rfl := Except.ok.inj h
    exact ⟨_, _, rfl, rfl, by decide⟩
  | bool b =>
    obtain rfl := Except.ok.inj h
    cases b with
    | true => exact ⟨_, _, rfl, rfl, by decide⟩
    | false => exact ⟨_, _, rfl, rfl, by decide⟩
  | int i =>
    obtain rfl := Except.ok.inj h
    obtain ⟨c, more, hc, hother, hclose⟩ := @dumpsInt_head i
    exact ⟨c, more, hc, blank_of_not_other hother, hclose⟩
  | float x =>
    obtain rfl := Except.ok.inj h
    obtain ⟨c, more, hc, hother, hclose, -⟩ := @number_dumpsFloat F fl [] x stops_nil
    exact ⟨c, more, hc, blank_of_not_other hother, hclose⟩
  | str s =>
    obtain rfl := Except.ok.inj h
    exact ⟨_, _, rfl, rfl, by decide⟩
  | bytes b => cases h
  | list l =>
    cases l with
    | nil =>
      obtain rfl := Except.ok.inj h
      exact ⟨_, _, rfl, rfl, by decide⟩
    | cons v l =>
      obtain ⟨first, more, -, -, rfl⟩ := dumps_list h
      exact ⟨_, _, rfl, rfl, by decide⟩
  | dict d =>
    cases d with
    | nil =>
      obtain rfl := Except.ok.inj h
      exact ⟨_, _, rfl, rfl, by decide⟩
    | cons kv d =>
      obtain ⟨first, more, -, -, rfl⟩ := dumps_dict h
      exact ⟨_, _, rfl, rfl, by decide⟩

/-! ## Reading back -/

theorem skip_cons (h : isBlank c = false) : skip (c :: text) = c :: text :=
  List.dropWhile_cons_of_neg (by simp [h])

theorem parseValue_blank : parseValue fl n (' ' :: text) = parseValue fl n text := by
  cases n with
  | zero => rfl
  | succ n =>
    have hskip : skip (' ' :: text) = skip text := rfl
    rw [parseValue.eq_def, parseValue.eq_def fl (n + 1) text]
    dsimp only
    rw [hskip]

theorem parseElements_blank : parseElements fl n (' ' :: text) = parseElements fl n text := by
  cases n with
  | zero => rfl
  | succ n => rw [parseElements, parseElements, parseValue_blank]

variable (fl) in
/-- The text of the value is read as the value is. -/
def Reads (v : PyValue F) : Prop := ∀ n t rest, dumps fl v = .ok t → depth v ≤ n → Stops rest →
  parseValue fl n (t ++ rest) = (readAs fl v).map fun v => (v, rest)

theorem parseElements_dumps (hl : ∀ w ∈ v :: l, Reads fl w) (hfirst : dumps fl v = .ok first)
    (hmore : dumpsMore fl l = .ok more) (hn : depthList (v :: l) ≤ n) :
    parseElements fl n (first ++ (more ++ ']' :: rest)) = (readAsList fl (v :: l)).map fun l => (l, rest) := by
  induction l generalizing v n first more with
  | nil =>
    obtain rfl := Except.ok.inj hmore
    unfold depthList at hn
    obtain ⟨n, rfl⟩ : ∃ m, n = m + 1 := ⟨n - 1, by omega⟩
    have hv := hl v List.mem_cons_self n first (']' :: rest) hfirst (by omega) (stops_cons.mpr (by decide))
    rw [parseElements, List.nil_append, hv, readAsList]
    cases readAs fl v with
    | none => rfl
    | some v' => rfl
  | cons w l ih =>
    obtain ⟨text, more', hw, hmore', rfl⟩ := dumpsMore_cons hmore
    rw [depthList] at hn
    obtain ⟨n, rfl⟩ : ∃ m, n = m + 1 := ⟨n - 1, by omega⟩
    have hv := hl v List.mem_cons_self n first (',' :: ' ' :: (text ++ (more' ++ ']' :: rest))) hfirst (by omega)
      (stops_cons.mpr (by decide))
    have hrest := ih (fun w hw => hl w (List.mem_cons_of_mem _ hw)) hw hmore' (n := n) (by omega)
    have htext : first ++ (',' :: ' ' :: text ++ more' ++ ']' :: rest) =
        first ++ (',' :: ' ' :: (text ++ (more' ++ ']' :: rest))) := by simp
    rw [htext, parseElements, hv, readAsList]
    cases readAs fl v with
    | none => rfl
    | some v' =>
      show ((parseElements fl n (' ' :: (text ++ (more' ++ ']' :: rest)))).bind fun p => some (v' :: p.1, p.2)) = _
      rw [parseElements_blank, hrest]
      cases readAsList fl (w :: l) with
      | none => rfl
      | some l' => rfl

theorem dumpsString_append : dumpsString k ++ text = '"' :: (k.toList.flatMap escape ++ '"' :: text) := by
  simp [dumpsString]

theorem parseKey_dumps : parseKey (dumpsString k ++ ':' :: text) = some (jsString k.toList, text) := by
  unfold parseKey
  rw [dumpsString_append, skip_cons rfl]
  simp only [parseString_dumps, skip_cons (show isBlank ':' = false from rfl)]

theorem parseKey_blank : parseKey (' ' :: text) = parseKey text := rfl

theorem parseMembers_blank : parseMembers fl n (' ' :: text) = parseMembers fl n text := by
  cases n with
  | zero => rfl
  | succ n => rw [parseMembers, parseMembers, parseKey_blank]

theorem parseMembers_dumps (hd : ∀ kv ∈ (k, v) :: d, Reads fl kv.2) (hfirst : dumps fl v = .ok first)
    (hmore : dumpsMembers fl d = .ok more) (hn : depthDict ((k, v) :: d) ≤ n) :
    parseMembers fl n (dumpsString k ++ ':' :: ' ' :: (first ++ (more ++ '\x7d' :: rest))) =
      (readAsDict fl ((k, v) :: d)).map fun d => (d, rest) := by
  induction d generalizing k v n first more with
  | nil =>
    obtain rfl := Except.ok.inj hmore
    unfold depthDict at hn
    obtain ⟨n, rfl⟩ : ∃ m, n = m + 1 := ⟨n - 1, by omega⟩
    have hreads : Reads fl v := hd (k, v) List.mem_cons_self
    have hv := hreads n first ('\x7d' :: rest) hfirst (by omega) (stops_cons.mpr (by decide))
    rw [parseMembers, parseKey_dumps, Option.bind_eq_bind, Option.bind_some]
    dsimp only
    rw [parseValue_blank, List.nil_append, hv, readAsDict]
    cases readAs fl v with
    | none => rfl
    | some v' => rfl
  | cons kv d ih =>
    obtain ⟨k', w⟩ := kv
    obtain ⟨text, more', hw, hmore', rfl⟩ := dumpsMembers_cons hmore
    rw [depthDict] at hn
    obtain ⟨n, rfl⟩ : ∃ m, n = m + 1 := ⟨n - 1, by omega⟩
    have hreads : Reads fl v := hd (k, v) List.mem_cons_self
    have hv := hreads n first (',' :: ' ' :: (dumpsString k' ++ ':' :: ' ' :: (text ++ (more' ++ '\x7d' :: rest))))
      hfirst (by omega) (stops_cons.mpr (by decide))
    have hrest := ih (fun kv hkv => hd kv (List.mem_cons_of_mem _ hkv)) hw hmore' (n := n) (by omega)
    have htext : ',' :: ' ' :: dumpsString k' ++ ':' :: ' ' :: text ++ more' ++ '\x7d' :: rest =
        ',' :: ' ' :: (dumpsString k' ++ ':' :: ' ' :: (text ++ (more' ++ '\x7d' :: rest))) := by simp
    rw [htext, parseMembers, parseKey_dumps, Option.bind_eq_bind, Option.bind_some]
    dsimp only
    rw [parseValue_blank, hv, readAsDict]
    cases readAs fl v with
    | none => rfl
    | some v' =>
      show ((parseMembers fl n (' ' :: _)).bind fun p => some ((jsString k.toList, v') :: p.1, p.2)) = _
      rw [parseMembers_blank, hrest]
      cases readAsDict fl ((k', w) :: d) with
      | none => rfl
      | some d' => rfl

theorem parseValue_list (hblank : isBlank c = false) (hclose : c ≠ ']') :
    parseValue fl (n + 1) ('[' :: (c :: text)) =
      (parseElements fl n (c :: text)).map fun (l, text) => (.array l, text) := by
  rw [parseValue.eq_def]
  dsimp only
  rw [skip_cons rfl]
  simp only [skip_cons hblank]
  split
  · exact absurd (List.cons.inj ‹_›).1 hclose
  · cases parseElements fl n (c :: text) with
    | none => rfl
    | some p => rfl

theorem parseValue_dict : parseValue fl (n + 1) ('\x7b' :: (dumpsString k ++ text)) =
    (parseMembers fl n (dumpsString k ++ text)).map fun (members, text) => (.object members, text) := by
  rw [dumpsString_append]
  show (parseMembers fl n _).bind _ = _
  cases parseMembers fl n _ with
  | none => rfl
  | some p => rfl

/-- **Reading back.**  A text of `json.dumps` is read as `readAs` says, or is no JSON. -/
theorem reads : ∀ v : PyValue F, Reads fl v := by
  refine PyValue.parts ?_ ?_ ?_ ?_ ?_ ?_ ?_ ?_
  · intro n t rest ht hn hs
    obtain rfl := Except.ok.inj ht
    obtain ⟨n, rfl⟩ : ∃ m, n = m + 1 := ⟨n - 1, by unfold depth at hn; omega⟩
    rfl
  · intro b n t rest ht hn hs
    obtain rfl := Except.ok.inj ht
    obtain ⟨n, rfl⟩ : ∃ m, n = m + 1 := ⟨n - 1, by unfold depth at hn; omega⟩
    cases b with
    | true => rfl
    | false => rfl
  · intro i n t rest ht hn hs
    obtain rfl := Except.ok.inj ht
    obtain ⟨n, rfl⟩ : ∃ m, n = m + 1 := ⟨n - 1, by unfold depth at hn; omega⟩
    obtain ⟨c, more, hc, hother, -⟩ := @dumpsInt_head i
    have hread := number_append (@number_dumpsInt i) hs
    rw [hc] at hread ⊢
    rw [List.cons_append] at hread ⊢
    rw [parseValue_number hother, hread]
    rfl
  · intro x n t rest ht hn hs
    obtain rfl := Except.ok.inj ht
    obtain ⟨n, rfl⟩ : ∃ m, n = m + 1 := ⟨n - 1, by unfold depth at hn; omega⟩
    obtain ⟨c, more, hc, hother, -, hread⟩ := @number_dumpsFloat F fl rest x hs
    rw [hc] at hread ⊢
    rw [List.cons_append] at hread ⊢
    rw [parseValue_number hother, hread]
  · intro s n t rest ht hn hs
    obtain rfl := Except.ok.inj ht
    obtain ⟨n, rfl⟩ : ∃ m, n = m + 1 := ⟨n - 1, by unfold depth at hn; omega⟩
    rw [dumpsString_append]
    show (parseString _).bind _ = _
    rw [parseString_dumps]
    rfl
  · intro b n t rest ht
    cases ht
  · intro l hl n t rest ht hn hs
    cases l with
    | nil =>
      obtain rfl := Except.ok.inj ht
      obtain ⟨n, rfl⟩ : ∃ m, n = m + 1 := ⟨n - 1, by unfold depth at hn; omega⟩
      rfl
    | cons v l =>
      obtain ⟨first, more, hfirst, hmore, rfl⟩ := dumps_list ht
      obtain ⟨n, rfl⟩ : ∃ m, n = m + 1 := ⟨n - 1, by unfold depth at hn; omega⟩
      have hdepth : depthList (v :: l) ≤ n := by
        unfold depth at hn
        unfold depthList
        omega
      have hread := @parseElements_dumps F fl rest v l first more n hl hfirst hmore hdepth
      obtain ⟨c, text, rfl, hblank, hclose⟩ := dumps_head hfirst
      have htext : '[' :: (c :: text) ++ more ++ [']'] ++ rest = '[' :: c :: (text ++ (more ++ ']' :: rest)) := by simp
      rw [List.cons_append] at hread
      rw [htext, parseValue_list hblank hclose, hread, Option.map_map, readAs, Option.map_map]
      rfl
  · intro d hd n t rest ht hn hs
    cases d with
    | nil =>
      obtain rfl := Except.ok.inj ht
      obtain ⟨n, rfl⟩ : ∃ m, n = m + 1 := ⟨n - 1, by unfold depth at hn; omega⟩
      rfl
    | cons kv d =>
      obtain ⟨k, v⟩ := kv
      obtain ⟨first, more, hfirst, hmore, rfl⟩ := dumps_dict ht
      obtain ⟨n, rfl⟩ : ∃ m, n = m + 1 := ⟨n - 1, by unfold depth at hn; omega⟩
      have hdepth : depthDict ((k, v) :: d) ≤ n := by
        unfold depth at hn
        unfold depthDict
        omega
      have hread := @parseMembers_dumps F fl rest v d first more k n hd hfirst hmore hdepth
      have htext : '\x7b' :: dumpsString k ++ ": ".toList ++ first ++ more ++ ['\x7d'] ++ rest =
          '\x7b' :: (dumpsString k ++ ':' :: ' ' :: (first ++ (more ++ '\x7d' :: rest))) := by simp
      rw [htext, parseValue_dict, hread, Option.map_map, readAs, Option.map_map]
      rfl

/-! ## The length of a text is enough -/

theorem depthList_le (hl : ∀ w ∈ v :: l, ∀ t, dumps fl w = .ok t → depth w ≤ t.length)
    (hfirst : dumps fl v = .ok first) (hmore : dumpsMore fl l = .ok more) : depthList (v :: l) ≤ 1 + first.length + more.length := by
  induction l generalizing v first more with
  | nil =>
    have := hl v List.mem_cons_self first hfirst
    unfold depthList depthList
    omega
  | cons w l ih =>
    obtain ⟨text, more', hw, hmore', rfl⟩ := dumpsMore_cons hmore
    have hv := hl v List.mem_cons_self first hfirst
    have hrest := ih (fun w hw => hl w (List.mem_cons_of_mem _ hw)) hw hmore'
    rw [depthList]
    simp only [List.length_append, List.length_cons]
    omega

theorem depthDict_le (hd : ∀ kv ∈ (k, v) :: d, ∀ t, dumps fl kv.2 = .ok t → depth kv.2 ≤ t.length)
    (hfirst : dumps fl v = .ok first) (hmore : dumpsMembers fl d = .ok more) :
    depthDict ((k, v) :: d) ≤ 1 + first.length + more.length := by
  induction d generalizing k v first more with
  | nil =>
    have hv : depth v ≤ first.length := hd (k, v) List.mem_cons_self first hfirst
    unfold depthDict depthDict
    omega
  | cons kv d ih =>
    obtain ⟨k', w⟩ := kv
    obtain ⟨text, more', hw, hmore', rfl⟩ := dumpsMembers_cons hmore
    have hv : depth v ≤ first.length := hd (k, v) List.mem_cons_self first hfirst
    have hrest := ih (fun kv hkv => hd kv (List.mem_cons_of_mem _ hkv)) hw hmore'
    rw [depthDict]
    simp only [List.length_append, List.length_cons]
    omega

theorem depth_le : ∀ (v : PyValue F) (t : List Char), dumps fl v = .ok t → depth v ≤ t.length := by
  have hscalar : ∀ (v : PyValue F) (t : List Char), depth v = 1 → dumps fl v = .ok t → depth v ≤ t.length := by
    intro v t hdepth ht
    obtain ⟨c, more, rfl, -⟩ := dumps_head ht
    rw [hdepth, List.length_cons]
    omega
  refine PyValue.parts ?_ ?_ ?_ ?_ ?_ ?_ ?_ ?_
  · exact fun t => hscalar _ t rfl
  · exact fun b t => hscalar _ t rfl
  · exact fun i t => hscalar _ t rfl
  · exact fun x t => hscalar _ t rfl
  · exact fun s t => hscalar _ t rfl
  · exact fun b t => hscalar _ t rfl
  · intro l hl t ht
    cases l with
    | nil => exact hscalar _ t rfl ht
    | cons v l =>
      obtain ⟨first, more, hfirst, hmore, rfl⟩ := dumps_list ht
      have := depthList_le hl hfirst hmore
      unfold depthList at this
      unfold depth
      simp only [List.length_append, List.length_cons, List.length_nil]
      omega
  · intro d hd t ht
    cases d with
    | nil => exact hscalar _ t rfl ht
    | cons kv d =>
      obtain ⟨k, v⟩ := kv
      obtain ⟨first, more, hfirst, hmore, rfl⟩ := dumps_dict ht
      have := depthDict_le hd hfirst hmore
      unfold depthDict at this
      unfold depth
      simp only [List.length_append, List.length_cons, List.length_nil]
      omega

/-- `JSON.parse` of a text of `json.dumps`. -/
theorem parse_dumps (ht : dumps fl v = .ok t) : parse fl t = readAs fl v := by
  have hread := reads v (t.length + 1) t [] ht ((depth_le v t ht).trans (Nat.le_succ _)) stops_nil
  rw [List.append_nil] at hread
  unfold parse
  rw [hread]
  cases readAs fl v with
  | none => rfl
  | some v' => rfl

/-! ## No control characters -/

/-- No character of the text is a control character of ASCII. -/
def Printable (text : List Char) : Prop := ∀ c ∈ text, 0x20 ≤ c.toNat

instance : DecidablePred Printable := List.decidableBAll fun c : Char => 0x20 ≤ c.toNat

theorem Printable.append (h : Printable text) (h' : Printable rest) : Printable (text ++ rest) :=
  fun c hc => (List.mem_append.mp hc).elim (h c) (h' c)

theorem Printable.cons (hc : 0x20 ≤ c.toNat) (h : Printable text) : Printable (c :: text) :=
  List.forall_mem_cons.mpr ⟨hc, h⟩

theorem printable_digit (h : c.isDigit = true) : 0x20 ≤ c.toNat := by
  unfold Char.isDigit at h
  simp only [Bool.and_eq_true, decide_eq_true_eq] at h
  have : 48 ≤ c.toNat := h.1
  omega

theorem printable_takeWhile : Printable (text.takeWhile Char.isDigit) :=
  fun _ hc => printable_digit (List.mem_takeWhile_imp hc)

theorem printable_digits (h : digits text = some (ds, rest)) (hrest : Printable rest) : Printable text := by
  unfold digits at h
  split at h
  · cases h
  · obtain ⟨-, rfl⟩ := Prod.mk.inj (Option.some.inj h)
    rw [← List.takeWhile_append_dropWhile (p := Char.isDigit) (l := text)]
    exact printable_takeWhile.append hrest

theorem printable_intPart (h : intPart text = some (ds, rest)) (hrest : Printable rest) : Printable text := by
  cases text with
  | nil => cases h
  | cons c text =>
    unfold intPart at h
    dsimp only at h
    split_ifs at h with hzero hdigit
    · obtain ⟨-, rfl⟩ := Prod.mk.inj (Option.some.inj h)
      exact hrest.cons (by rw [hzero]; decide)
    · obtain ⟨-, rfl⟩ := Prod.mk.inj (Option.some.inj h)
      refine Printable.cons (printable_digit hdigit) ?_
      rw [← List.takeWhile_append_dropWhile (p := Char.isDigit) (l := text)]
      exact printable_takeWhile.append hrest

theorem printable_fracPart (h : fracPart text = some (ds, rest)) (hrest : Printable rest) : Printable text := by
  cases text with
  | nil => exact fun c hc => absurd hc List.not_mem_nil
  | cons c text =>
    unfold fracPart at h
    dsimp only at h
    split_ifs at h with hpoint
    · exact (printable_digits h hrest).cons (by rw [hpoint]; decide)
    · obtain ⟨-, rfl⟩ := Prod.mk.inj (Option.some.inj h)
      exact hrest

theorem printable_sign (h : Printable (sign text).2) : Printable text := by
  cases text with
  | nil => exact h
  | cons c text =>
    unfold sign at h
    dsimp only at h
    split_ifs at h with hminus hplus
    · exact Printable.cons (by rw [hminus]; decide) h
    · exact Printable.cons (by rw [hplus]; decide) h
    · exact h

theorem printable_expPart {e : Int} (h : expPart text = some (e, rest)) (hrest : Printable rest) : Printable text := by
  cases text with
  | nil => exact fun c hc => absurd hc List.not_mem_nil
  | cons c text =>
    unfold expPart at h
    dsimp only at h
    by_cases hc : c = 'e' ∨ c = 'E'
    · rw [if_pos hc] at h
      obtain ⟨⟨ds, text'⟩, hds, heq⟩ := Option.map_eq_some_iff.mp h
      obtain ⟨-, rfl⟩ := Prod.mk.inj heq
      refine Printable.cons ?_ (printable_sign (printable_digits hds hrest))
      rcases hc with rfl | rfl
      · decide
      · decide
    · rw [if_neg hc] at h
      obtain ⟨-, rfl⟩ := Prod.mk.inj (Option.some.inj h)
      exact hrest

theorem printable_minus (h : Printable (minus text).2) : Printable text := by
  cases text with
  | nil => exact h
  | cons c text =>
    unfold minus at h
    dsimp only at h
    split_ifs at h with hminus
    · exact Printable.cons (by rw [hminus]; decide) h
    · exact h

theorem printable_number {d : Decimal} (h : number text = some (d, [])) : Printable text := by
  unfold number at h
  simp only [Option.bind_eq_bind, Option.bind_eq_some_iff, Prod.exists] at h
  obtain ⟨int, text₂, hint, frac, text₃, hfrac, e, text₄, hexp, heq⟩ := h
  obtain ⟨-, rfl⟩ := Prod.mk.inj (Option.some.inj heq)
  have hnil : Printable [] := fun c hc => absurd hc List.not_mem_nil
  exact printable_minus (printable_intPart hint (printable_fracPart hfrac (printable_expPart hexp hnil)))

theorem printable_dumpsFloat {x : F} : Printable (dumpsFloat fl x) := by
  unfold dumpsFloat
  cases hkind : fl.kind x with
  | finite value =>
    obtain ⟨d, hd, -⟩ := fl.ofDecimal_repr x value hkind
    exact printable_number hd
  | infinity => exact (by decide : Printable "Infinity".toList)
  | minusInfinity => exact (by decide : Printable "-Infinity".toList)
  | nan => exact (by decide : Printable "NaN".toList)

theorem printable_digitChar {n : Nat} (hn : n < 16) : 0x20 ≤ n.digitChar.toNat := by
  interval_cases n <;> decide

theorem printable_escape : Printable (escape c) := by
  unfold escape
  split_ifs
  · decide
  · decide
  · decide
  · decide
  · decide
  · decide
  · decide
  · intro x hx
    unfold hex4 at hx
    simp only [List.mem_cons, List.not_mem_nil, or_false] at hx
    rcases hx with rfl | rfl | rfl | rfl | rfl | rfl
    · decide
    · decide
    · exact printable_digitChar (by omega)
    · exact printable_digitChar (by omega)
    · exact printable_digitChar (by omega)
    · exact printable_digitChar (by omega)
  · intro x hx
    obtain rfl := List.mem_singleton.mp hx
    omega

theorem printable_dumpsString : Printable (dumpsString k) := by
  unfold dumpsString
  refine Printable.append (Printable.cons (by decide) ?_) (by decide)
  intro x hx
  obtain ⟨c, -, hc⟩ := List.mem_flatMap.mp hx
  exact printable_escape x hc

theorem printable_dumpsMore (hl : ∀ v ∈ l, ∀ t, dumps fl v = .ok t → Printable t)
    (hmore : dumpsMore fl l = .ok more) : Printable more := by
  induction l generalizing more with
  | nil =>
    obtain rfl := Except.ok.inj hmore
    exact fun c hc => absurd hc List.not_mem_nil
  | cons v l ih =>
    obtain ⟨text, more', hv, hmore', rfl⟩ := dumpsMore_cons hmore
    have htext := hl v List.mem_cons_self text hv
    have hrest := ih (fun w hw => hl w (List.mem_cons_of_mem _ hw)) hmore'
    exact ((htext.cons (by decide)).cons (by decide)).append hrest

theorem printable_dumpsMembers (hd : ∀ kv ∈ d, ∀ t, dumps fl kv.2 = .ok t → Printable t)
    (hmore : dumpsMembers fl d = .ok more) : Printable more := by
  induction d generalizing more with
  | nil =>
    obtain rfl := Except.ok.inj hmore
    exact fun c hc => absurd hc List.not_mem_nil
  | cons kv d ih =>
    obtain ⟨k, v⟩ := kv
    obtain ⟨text, more', hv, hmore', rfl⟩ := dumpsMembers_cons hmore
    have htext := hd (k, v) List.mem_cons_self text hv
    have hrest := ih (fun kv hkv => hd kv (List.mem_cons_of_mem _ hkv)) hmore'
    refine Printable.append (Printable.append (Printable.cons (by decide) (Printable.cons (by decide) ?_)) ?_) hrest
    · exact printable_dumpsString
    · exact (htext.cons (by decide)).cons (by decide)

theorem printable_dumps : ∀ (v : PyValue F) (t : List Char), dumps fl v = .ok t → Printable t := by
  refine PyValue.parts ?_ ?_ ?_ ?_ ?_ ?_ ?_ ?_
  · intro t ht
    obtain rfl := Except.ok.inj ht
    decide
  · intro b t ht
    obtain rfl := Except.ok.inj ht
    cases b with
    | true => decide
    | false => decide
  · intro i t ht
    obtain rfl := Except.ok.inj ht
    exact printable_number number_dumpsInt
  · intro x t ht
    obtain rfl := Except.ok.inj ht
    exact printable_dumpsFloat
  · intro s t ht
    obtain rfl := Except.ok.inj ht
    exact printable_dumpsString
  · intro b t ht
    cases ht
  · intro l hl t ht
    cases l with
    | nil =>
      obtain rfl := Except.ok.inj ht
      decide
    | cons v l =>
      obtain ⟨first, more, hfirst, hmore, rfl⟩ := dumps_list ht
      have hv := hl v List.mem_cons_self first hfirst
      have hrest := printable_dumpsMore (fun w hw => hl w (List.mem_cons_of_mem _ hw)) hmore
      exact ((hv.cons (by decide)).append hrest).append (by decide)
  · intro d hd t ht
    cases d with
    | nil =>
      obtain rfl := Except.ok.inj ht
      decide
    | cons kv d =>
      obtain ⟨k, v⟩ := kv
      obtain ⟨first, more, hfirst, hmore, rfl⟩ := dumps_dict ht
      have hv := hd (k, v) List.mem_cons_self first hfirst
      have hrest := printable_dumpsMembers (fun kv hkv => hd kv (List.mem_cons_of_mem _ hkv)) hmore
      have hkey := (printable_dumpsString (k := k)).cons (c := '\x7b') (by decide)
      have hcolon : Printable ": ".toList := by decide
      exact (((hkey.append hcolon).append hv).append hrest).append (by decide)

theorem dumps_dict_braces (ht : dumps fl (.dict d) = .ok t) : ∃ inner, t = '\x7b' :: inner ++ ['\x7d'] := by
  cases d with
  | nil =>
    obtain rfl := Except.ok.inj ht
    exact ⟨[], rfl⟩
  | cons kv d =>
    obtain ⟨first, more, -, -, rfl⟩ := dumps_dict ht
    exact ⟨_, rfl⟩

/-! ## The same data -/

variable (fl) in
mutual
/-- What JSON takes across: floats that are finite, and integers that are floats. -/
def Portable : PyValue F → Prop
  | .int i => fl.Exact i
  | .float x => ∃ value, fl.kind x = .finite value
  | .bytes _ => False
  | .list l => PortableList l
  | .dict d => PortableDict d
  | .none | .bool _ | .str _ => True

def PortableList : List (PyValue F) → Prop
  | [] => True
  | v :: l => Portable v ∧ PortableList l

def PortableDict : List (String × PyValue F) → Prop
  | [] => True
  | (_, v) :: d => Portable v ∧ PortableDict d
end

variable (fl) in
/-- It is read, and as the same data. -/
def Survives (v : PyValue F) : Prop := ∃ v', readAs fl v = some v' ∧ Same fl v v'

theorem survives_list (hl : ∀ v ∈ l, Survives fl v ↔ Portable fl v) :
    (∃ l', readAsList fl l = some l' ∧ SameList fl l l') ↔ PortableList fl l := by
  induction l with
  | nil => exact ⟨fun _ => trivial, fun _ => ⟨[], rfl, rfl⟩⟩
  | cons v l ih =>
    have hv := hl v List.mem_cons_self
    have hrest := ih fun w hw => hl w (List.mem_cons_of_mem _ hw)
    unfold PortableList
    rw [← hv, ← hrest]
    constructor
    · rintro ⟨l', hread, v', more, rfl, hsame, hsames⟩
      unfold readAsList at hread
      simp only [Option.bind_eq_bind, Option.bind_eq_some_iff] at hread
      obtain ⟨w, hw, more', hmore', heq⟩ := hread
      obtain ⟨rfl, rfl⟩ := List.cons.inj (Option.some.inj heq)
      exact ⟨⟨w, hw, hsame⟩, more', hmore', hsames⟩
    · rintro ⟨⟨v', hread, hsame⟩, more, hmore, hsames⟩
      refine ⟨v' :: more, ?_, v', more, rfl, hsame, hsames⟩
      rw [readAsList, hread, hmore]
      rfl

theorem survives_dict (hd : ∀ kv ∈ d, Survives fl kv.2 ↔ Portable fl kv.2) :
    (∃ d', readAsDict fl d = some d' ∧ SameDict fl d d') ↔ PortableDict fl d := by
  induction d with
  | nil => exact ⟨fun _ => trivial, fun _ => ⟨[], rfl, rfl⟩⟩
  | cons kv d ih =>
    obtain ⟨k, v⟩ := kv
    have hv : Survives fl v ↔ Portable fl v := hd (k, v) List.mem_cons_self
    have hrest := ih fun kv hkv => hd kv (List.mem_cons_of_mem _ hkv)
    unfold PortableDict
    rw [← hv, ← hrest]
    constructor
    · rintro ⟨d', hread, v', more, rfl, hsame, hsames⟩
      unfold readAsDict at hread
      simp only [Option.bind_eq_bind, Option.bind_eq_some_iff] at hread
      obtain ⟨w, hw, more', hmore', heq⟩ := hread
      obtain ⟨hkv, rfl⟩ := List.cons.inj (Option.some.inj heq)
      obtain ⟨-, rfl⟩ := Prod.mk.inj hkv
      exact ⟨⟨w, hw, hsame⟩, more', hmore', hsames⟩
    · rintro ⟨⟨v', hread, hsame⟩, more, hmore, hsames⟩
      refine ⟨(jsString k.toList, v') :: more, ?_, v', more, rfl, hsame, hsames⟩
      rw [readAsDict, hread, hmore]
      rfl

/-- **The same data.**  Exactly what is portable is read as the same data. -/
theorem survives_iff : ∀ v : PyValue F, Survives fl v ↔ Portable fl v := by
  refine PyValue.parts ?_ ?_ ?_ ?_ ?_ ?_ ?_ ?_
  · exact ⟨fun _ => trivial, fun _ => ⟨_, rfl, rfl⟩⟩
  · exact fun b => ⟨fun _ => trivial, fun _ => ⟨_, rfl, rfl⟩⟩
  · intro i
    constructor
    · rintro ⟨v', -, x, -, hx⟩
      exact ⟨x, hx⟩
    · rintro ⟨x, hx⟩
      refine ⟨_, rfl, _, rfl, ?_⟩
      have hexact := fl.ofDecimal_exact x (decimalOf i)
      rw [value_decimalOf] at hexact
      exact hexact hx
  · intro x
    unfold Survives readAs Portable
    cases hkind : fl.kind x with
    | finite value => exact ⟨fun _ => ⟨value, rfl⟩, fun _ => ⟨_, rfl, rfl⟩⟩
    | _ => simp
  · exact fun s => ⟨fun _ => trivial, fun _ => ⟨_, rfl, rfl⟩⟩
  · exact fun b => ⟨fun ⟨_, h, _⟩ => absurd h (by simp [readAs]), fun h => h.elim⟩
  · intro l hl
    unfold Portable
    rw [← survives_list hl]
    constructor
    · rintro ⟨v', hread, l', rfl, hsame⟩
      obtain ⟨l'', hl'', heq⟩ := Option.map_eq_some_iff.mp hread
      obtain rfl := JsValue.array.inj heq
      exact ⟨l'', hl'', hsame⟩
    · rintro ⟨l', hread, hsame⟩
      exact ⟨.array l', by rw [readAs, hread]; rfl, l', rfl, hsame⟩
  · intro d hd
    unfold Portable
    rw [← survives_dict hd]
    constructor
    · rintro ⟨v', hread, d', rfl, hsame⟩
      obtain ⟨d'', hd'', heq⟩ := Option.map_eq_some_iff.mp hread
      obtain rfl := JsValue.object.inj heq
      exact ⟨d'', hd'', hsame⟩
    · rintro ⟨d', hread, hsame⟩
      exact ⟨.object d', by rw [readAs, hread]; rfl, d', rfl, hsame⟩

end AgentHarness.Lib.Json
