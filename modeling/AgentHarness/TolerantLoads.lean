import AgentHarness.LlmRuns
import AgentHarness.Lib.JsonLoads

/-!
# TolerantLoads — what `_loads_tolerant` takes for the object of a reply

A reply is read as it is, then without its markdown fence, then from the first opening to the last closing brace.  The
text without the fence begins behind a line break (`cut`), wherever that is: in front of the object, inside of it,
where nothing can be read (`loads_cut`), or behind it, where another value may stand.  `loadsTolerant_padded_iff` says
that the last is the only way to miss the object.
-/

namespace AgentHarness

open Lib Json

namespace LLMNL2SQLGenerator

/-- How `json.loads` makes numbers, constants and strings of what it reads. -/
structure PyScalars where
  number : List Char → PyVal
  constant : List Char → PyVal
  text : JsString → String
  number_ne_dict : ∀ digits d, number digits ≠ .dict d
  constant_ne_dict : ∀ word d, constant word ≠ .dict d

/-- Values of Python: of two members of one name the later counts. -/
def PyScalars.builders (p : PyScalars) : Builders PyVal where
  null := .null
  bool := .bool
  number := p.number
  constant := p.constant
  string s := .str (p.text s)
  list := .list
  object members := .dict (members.foldl (fun d member => Dict.set d (p.text member.1) member.2) [])

theorem PyScalars.scalar_ne_object {p : PyScalars} {v : PyVal} {members : List (JsString × PyVal)}
    (h : p.builders.Scalar v) : v ≠ p.builders.object members := by
  rintro rfl
  rcases h with h | ⟨b, h⟩ | ⟨digits, h⟩ | ⟨word, h⟩
  · cases h
  · cases h
  · exact p.number_ne_dict _ _ h.symm
  · exact p.constant_ne_dict _ _ h.symm

/-- The decoder of the environment is `json.loads`. -/
structure ReadsJson (env : LlmEnv) (p : PyScalars) : Prop where
  value : ∀ text v, loads p.builders text = some v → env.jsonLoads (String.ofList text) = .ok v
  decodeError : ∀ text, loads p.builders text = none →
    ∃ msg, env.jsonLoads (String.ofList text) = .error ⟨"JSONDecodeError", msg⟩

variable {env : LlmEnv} {p : PyScalars} {u : Unicode} {v w : PyVal}
  {text before behind front body inner line tail : List Char}

/-! ### The text inside a fence -/

/-- The text behind its first line break, or all of it. -/
def cut (text : List Char) : List Char :=
  match text.dropWhile (· ≠ '\n') with
  | _ :: rest => rest
  | [] => text

/-- The text in front of a closing fence, or all of it. -/
def unclose (u : Unicode) (text : List Char) : List Char :=
  let stripped := Unicode.dropEnd u.isSpace text
  if fence <:+ stripped then stripped.take (stripped.length - fence.length) else text

theorem unfence_eq (u : Unicode) (raw : List Char) :
    unfence u raw = if fence.isPrefixOf (u.strip raw) then some (unclose u (cut (u.strip raw))) else none := rfl

theorem cut_line (front text : List Char) (h : '\n' ∉ front) : cut (front ++ '\n' :: text) = text := by
  have hfront : ∀ c ∈ front, decide (c ≠ '\n') = true := fun c hc => decide_eq_true fun heq => h (by rwa [← heq])
  unfold cut
  rw [List.dropWhile_append_of_pos hfront]
  rfl

theorem cut_of_notMem (h : '\n' ∉ text) : cut text = text := by
  have htext : ∀ c ∈ text, decide (c ≠ '\n') = true := fun c hc => decide_eq_true fun heq => h (by rwa [← heq])
  unfold cut
  rw [List.dropWhile_eq_nil_iff.mpr htext]

/-- The closing brace of an object is no white space. -/
theorem brace_not_space (u : Unicode) : u.isSpace '\x7b' = false ∧ u.isSpace '\x7d' = false :=
  ⟨u.isSpace_ascii _ rfl, u.isSpace_ascii _ rfl⟩

/-- White space around a text that begins and ends with braces. -/
theorem strip_braces (u : Unicode) (before body behind : List Char) :
    u.strip (before ++ ('\x7b' :: (body ++ ['\x7d']) ++ behind)) =
      before.dropWhile u.isSpace ++ ('\x7b' :: (body ++ ['\x7d']) ++ Unicode.dropEnd u.isSpace behind) := by
  have hfirst : (before ++ ('\x7b' :: (body ++ ['\x7d']) ++ behind)).dropWhile u.isSpace =
      before.dropWhile u.isSpace ++ ('\x7b' :: (body ++ ['\x7d']) ++ behind) := by
    rw [List.dropWhile_append]
    split
    · rename_i hempty
      rw [List.isEmpty_iff.mp hempty, List.nil_append, List.cons_append,
        List.dropWhile_cons_of_neg (by rw [(brace_not_space u).1]; exact Bool.false_ne_true)]
    · rfl
  unfold Unicode.strip
  rw [hfirst, ← List.append_assoc, ← List.append_assoc]
  refine Unicode.dropEnd_append fun c hc => ?_
  have hlast : (before.dropWhile u.isSpace ++ '\x7b' :: (body ++ ['\x7d'])).getLast? = some '\x7d' := by
    rw [← List.cons_append, ← List.append_assoc, List.getLast?_concat]
  rw [hlast] at hc
  obtain rfl := Option.some.inj hc
  exact (brace_not_space u).2

/-- A fence at the end of the text stands behind the brace. -/
theorem unclose_brace (u : Unicode) (front behind : List Char) :
    ∃ kept, kept <+: behind ∧ unclose u (front ++ '\x7d' :: behind) = front ++ '\x7d' :: kept := by
  have hstripped : Unicode.dropEnd u.isSpace (front ++ '\x7d' :: behind) =
      front ++ '\x7d' :: Unicode.dropEnd u.isSpace behind := by
    have hbrace : ∀ c ∈ (front ++ ['\x7d']).getLast?, u.isSpace c = false := by
      intro c hc
      rw [List.getLast?_concat] at hc
      obtain rfl := Option.some.inj hc
      exact (brace_not_space u).2
    have hkept : Unicode.dropEnd u.isSpace (front ++ ['\x7d'] ++ behind) =
        front ++ ['\x7d'] ++ Unicode.dropEnd u.isSpace behind := Unicode.dropEnd_append hbrace
    simpa using hkept
  unfold unclose
  dsimp only
  rw [hstripped]
  split
  · rename_i hfence
    obtain ⟨kept, hkept⟩ : fence <:+ Unicode.dropEnd u.isSpace behind := by
      rcases List.suffix_or_suffix_of_suffix hfence (List.suffix_append front _) with hin | hin
      · rcases List.suffix_cons_iff.mp hin with heq | hin
        · exact absurd (List.cons.inj heq).1 (by decide)
        · exact hin
      · exact absurd (hin.subset List.mem_cons_self) (by decide)
    refine ⟨kept, ?_, ?_⟩
    · have hstart := Unicode.dropEnd_start (p := u.isSpace) (s := behind)
      rw [← hkept] at hstart
      exact (List.prefix_append kept fence).trans hstart
    · rw [← hkept, show front ++ '\x7d' :: (kept ++ fence) = front ++ '\x7d' :: kept ++ fence by simp,
        List.length_append, Nat.add_sub_cancel, List.take_left]
  · exact ⟨behind, List.prefix_refl _, rfl⟩

/-- A text begins with a fence in front of its first brace. -/
theorem fence_prefix {more : List Char} (h : fence <+: front ++ '\x7b' :: more) : fence <+: front := by
  rcases List.prefix_or_prefix_of_prefix h (List.prefix_append front _) with hin | ⟨rest, hin⟩
  · exact hin
  · rw [← hin] at h
    cases rest with
    | nil =>
      rw [List.append_nil] at hin
      rw [hin]
    | cons c rest =>
      have hc := (List.prefix_append_right_inj front).mp h
      obtain ⟨_, hc⟩ := hc
      have hmem : '\x7b' ∈ fence := by
        rw [← hin, ← (List.cons.inj hc).1]
        simp
      exact absurd hmem (by decide)

/-- The object stands on the line of the fence, and `json.loads` accepts the lines behind it. -/
def Overlooked (env : LlmEnv) (before text behind : List Char) : Prop :=
  fence <+: before.dropWhile env.unicode.isSpace ∧ '\n' ∉ before.dropWhile env.unicode.isSpace ∧ '\n' ∉ text ∧
    ∃ line tail v, Unicode.dropEnd env.unicode.isSpace behind = line ++ '\n' :: tail ∧ '\n' ∉ line ∧
      env.jsonLoads (String.ofList (unclose env.unicode tail)) = .ok v

/-- **Where the text without the fence begins**: in front of the object, inside of it, or behind it. -/
theorem unfence_cases (h : unfence env.unicode (before ++ ('\x7b' :: (body ++ ['\x7d']) ++ behind)) = some inner) :
    (∃ kept kept', kept <:+ before ∧ inner = kept ++ ('\x7b' :: (body ++ ['\x7d']) ++ kept')) ∨
      (∃ front rest kept, body = front ++ '\n' :: rest ∧ inner = rest ++ '\x7d' :: kept) ∨
      (∀ v, env.jsonLoads (String.ofList inner) = .ok v →
        Overlooked env before ('\x7b' :: (body ++ ['\x7d'])) behind) := by
  rw [unfence_eq, strip_braces] at h
  split at h
  · rename_i hfence
    obtain rfl := Option.some.inj h
    have hsub : before.dropWhile env.unicode.isSpace <:+ before := List.dropWhile_suffix _
    have hstart := fence_prefix (List.isPrefixOf_iff_prefix.mp hfence)
    -- a text that begins in front of the closing brace keeps it
    have hkeep : ∀ front, ∃ kept, unclose env.unicode (front ++ '\x7b' :: (body ++ ['\x7d']) ++
        Unicode.dropEnd env.unicode.isSpace behind) = front ++ ('\x7b' :: (body ++ ['\x7d']) ++ kept) := by
      intro front
      obtain ⟨kept, -, hkept⟩ := unclose_brace env.unicode (front ++ '\x7b' :: body)
        (Unicode.dropEnd env.unicode.isSpace behind)
      refine ⟨kept, ?_⟩
      simpa using hkept
    by_cases hbefore : '\n' ∈ before.dropWhile env.unicode.isSpace
    · obtain ⟨front, rest, hsplit, hfront⟩ := List.eq_append_cons_of_mem hbefore
      obtain ⟨kept, hkept⟩ := hkeep rest
      refine Or.inl ⟨rest, kept, ?_, ?_⟩
      · refine List.IsSuffix.trans ?_ hsub
        rw [hsplit]
        exact (List.suffix_cons _ _).trans (List.suffix_append front _)
      · rw [hsplit, List.append_assoc, List.cons_append, cut_line _ _ hfront, ← hkept, List.append_assoc]
    · by_cases htext : '\n' ∈ body
      · obtain ⟨front, rest, rfl, hfront⟩ := List.eq_append_cons_of_mem htext
        obtain ⟨kept, -, hkept⟩ := unclose_brace env.unicode rest (Unicode.dropEnd env.unicode.isSpace behind)
        refine Or.inr (Or.inl ⟨front, rest, kept, rfl, ?_⟩)
        have hline : '\n' ∉ before.dropWhile env.unicode.isSpace ++ '\x7b' :: front := by
          rw [List.mem_append, List.mem_cons]
          rintro (hmem | hmem | hmem)
          · exact hbefore hmem
          · exact absurd hmem (by decide)
          · exact hfront hmem
        have hcut := cut_line _ (rest ++ '\x7d' :: Unicode.dropEnd env.unicode.isSpace behind) hline
        rw [← hkept, ← hcut]
        simp
      · have hobject : '\n' ∉ '\x7b' :: (body ++ ['\x7d']) := by
          rw [List.mem_cons, List.mem_append, List.mem_singleton]
          rintro (hmem | hmem | hmem)
          · exact absurd hmem (by decide)
          · exact htext hmem
          · exact absurd hmem (by decide)
        have hfront : '\n' ∉ before.dropWhile env.unicode.isSpace ++ '\x7b' :: (body ++ ['\x7d']) := by
          rw [List.mem_append]
          exact not_or.mpr ⟨hbefore, hobject⟩
        by_cases hbehind : '\n' ∈ Unicode.dropEnd env.unicode.isSpace behind
        · obtain ⟨line, tail, hsplit, hline⟩ := List.eq_append_cons_of_mem hbehind
          refine Or.inr (Or.inr fun v hv => ⟨hstart, hbefore, hobject, line, tail, v, hsplit, hline, ?_⟩)
          have hcut := cut_line (before.dropWhile env.unicode.isSpace ++ '\x7b' :: (body ++ ['\x7d']) ++ line)
            tail (by
              rw [List.mem_append]
              exact not_or.mpr ⟨hfront, hline⟩)
          rw [hsplit, ← List.append_assoc, ← List.append_assoc, hcut] at hv
          exact hv
        · obtain ⟨kept, hkept⟩ := hkeep (before.dropWhile env.unicode.isSpace)
          refine Or.inl ⟨before.dropWhile env.unicode.isSpace, kept, hsub, ?_⟩
          rw [cut_of_notMem, ← hkept, List.append_assoc]
          rw [← List.append_assoc, List.mem_append]
          exact not_or.mpr ⟨hfront, hbehind⟩
  · cases h

/-- Where the object is overlooked, the text without the fence begins behind it. -/
theorem Overlooked.unfence (h : Overlooked env before ('\x7b' :: (body ++ ['\x7d'])) behind) :
    ∃ line tail v, Unicode.dropEnd env.unicode.isSpace behind = line ++ '\n' :: tail ∧
      env.jsonLoads (String.ofList (unclose env.unicode tail)) = .ok v ∧
      LLMNL2SQLGenerator.unfence env.unicode (before ++ ('\x7b' :: (body ++ ['\x7d']) ++ behind)) =
        some (unclose env.unicode tail) := by
  obtain ⟨hstart, hbefore, htext, line, tail, v, hsplit, hline, hv⟩ := h
  refine ⟨line, tail, v, hsplit, hv, ?_⟩
  have hfence : fence.isPrefixOf (before.dropWhile env.unicode.isSpace ++
      ('\x7b' :: (body ++ ['\x7d']) ++ Unicode.dropEnd env.unicode.isSpace behind)) = true :=
    List.isPrefixOf_iff_prefix.mpr (hstart.trans (List.prefix_append _ _))
  have hcut := cut_line (before.dropWhile env.unicode.isSpace ++ '\x7b' :: (body ++ ['\x7d']) ++ line)
    tail (by
      rw [List.mem_append, List.mem_append]
      exact not_or.mpr ⟨not_or.mpr ⟨hbefore, htext⟩, hline⟩)
  rw [unfence_eq, strip_braces, if_pos hfence, hsplit, ← List.append_assoc, ← List.append_assoc, hcut]

/-! ### The three attempts -/

/-- One attempt on a text that `json.loads` accepts. -/
theorem tryLoads_value (hreads : ReadsJson env p) (h : loads p.builders inner = some v)
    (next : Except Raised (PyVal × Option String)) (hint : Option String) :
    tryLoads env inner next hint = .ok (v, hint) := by
  unfold tryLoads
  rw [hreads.value inner v h]

/-- One attempt on a text that it does not accept. -/
theorem tryLoads_next (hreads : ReadsJson env p) (h : loads p.builders inner = none)
    (next : Except Raised (PyVal × Option String)) (hint : Option String) :
    tryLoads env inner next hint = next := by
  obtain ⟨msg, hmsg⟩ := hreads.decodeError inner h
  unfold tryLoads
  rw [hmsg]
  exact if_pos rfl

/-- The text from the first to the last brace is the object. -/
theorem braced_object (body : List Char) (hbefore : ∀ c ∈ before, Plain c) (hbehind : ∀ c ∈ behind, Plain c) :
    braced (before ++ ('\x7b' :: (body ++ ['\x7d']) ++ behind)) = some ('\x7b' :: (body ++ ['\x7d'])) := by
  have hfirst : (before ++ ('\x7b' :: (body ++ ['\x7d']) ++ behind)).dropWhile (· ≠ '\x7b') =
      '\x7b' :: (body ++ ['\x7d']) ++ behind := by
    rw [List.dropWhile_append_of_pos fun c hc => decide_eq_true (hbefore c hc).2.1]
    rfl
  have hlast : Unicode.dropEnd (· ≠ '\x7d') ('\x7b' :: (body ++ ['\x7d']) ++ behind) =
      '\x7b' :: (body ++ ['\x7d']) := by
    have hnone : Unicode.dropEnd (· ≠ '\x7d') behind = [] := by
      unfold Unicode.dropEnd
      rw [List.dropWhile_eq_nil_iff.mpr fun c hc =>
        decide_eq_true (hbehind c (List.mem_reverse.mp hc)).2.2.1]
      rfl
    rw [Unicode.dropEnd_append, hnone, List.append_nil]
    intro c hc
    rw [← List.cons_append, List.getLast?_concat] at hc
    obtain rfl := Option.some.inj hc
    rfl
  unfold braced
  rw [hfirst, hlast, if_pos]
  exact ⟨rfl, by simp⟩

/-- **An object that is not overlooked is found.** -/
theorem loadsTolerant_object (hreads : ReadsJson env p) (hobject : ObjectText p.builders text v)
    (hbefore : ∀ c ∈ before, Plain c) (hbehind : ∀ c ∈ behind, Plain c) (h : ¬ Overlooked env before text behind) :
    ∃ hint, loadsTolerant env (String.ofList (before ++ (text ++ behind))) = .ok (v, hint) := by
  obtain ⟨-, body, htext, hlevel, -⟩ := hobject.braces
  have hbraced := braced_object body hbefore hbehind
  rw [← htext] at hbraced
  unfold loadsTolerant
  rw [String.toList_ofList, hbraced]
  dsimp only
  -- the last attempt finds it
  have hlast := fun next hint => tryLoads_value hreads hobject.loads_eq next hint
  cases hraw : loads p.builders (before ++ (text ++ behind)) with
  | some w =>
    obtain ⟨rfl, -⟩ := loads_around hobject hbefore hraw
    exact ⟨none, tryLoads_value hreads hraw _ _⟩
  | none =>
    rw [tryLoads_next hreads hraw, hlast]
    cases hunfence : unfence env.unicode (before ++ (text ++ behind)) with
    | none => exact ⟨_, rfl⟩
    | some inner =>
      dsimp only
      cases hinner : loads p.builders inner with
      | none => exact ⟨_, tryLoads_next hreads hinner _ _⟩
      | some w =>
        have hw : w = v := by
          rw [htext] at hunfence
          rcases unfence_cases hunfence with ⟨kept, kept', hsub, rfl⟩ | ⟨front, rest, kept, rfl, rfl⟩ | hline
          · rw [← htext] at hinner
            exact (loads_around hobject (fun c hc => hbefore c (hsub.subset hc)) hinner).1
          · rw [loads_cut hlevel] at hinner
            cases hinner
          · rw [← htext] at hline
            exact absurd (hline w (hreads.value inner w hinner)) h
        rw [hw] at hinner
        exact ⟨_, tryLoads_value hreads hinner _ _⟩

/-- **An object that is overlooked is missed**: the value of the lines behind it is returned. -/
theorem loadsTolerant_overlooked (hreads : ReadsJson env p) (hobject : ObjectText p.builders text v)
    (hbefore : ∀ c ∈ before, Plain c) (hbehind : ∀ c ∈ behind, Plain c) (h : Overlooked env before text behind) :
    ∃ w hint, loadsTolerant env (String.ofList (before ++ (text ++ behind))) = .ok (w, hint) ∧ p.builders.Scalar w := by
  obtain ⟨-, body, htext, -, -⟩ := hobject.braces
  have hfence := h.1
  rw [htext] at h
  obtain ⟨line, tail, w, hsplit, hw, hunfence⟩ := h.unfence
  rw [← htext] at hunfence
  have hraw : loads p.builders (before ++ (text ++ behind)) = none := by
    refine Option.eq_none_iff_forall_ne_some.mpr fun w hw => ?_
    obtain ⟨-, hblank⟩ := loads_around hobject hbefore hw
    have hmem : Char.ofNat 0x60 ∈ before :=
      (List.dropWhile_suffix _).subset (hfence.subset (List.mem_cons_self (l := [Char.ofNat 0x60, Char.ofNat 0x60])))
    exact absurd (hblank _ hmem) (by decide)
  cases hinner : loads p.builders (unclose env.unicode tail) with
  | none =>
    obtain ⟨msg, hmsg⟩ := hreads.decodeError _ hinner
    rw [hmsg] at hw
    cases hw
  | some w' =>
    refine ⟨w', some "已从 markdown 代码围栏中提取 JSON", ?_, loads_plain (fun c hc => ?_) hinner⟩
    · unfold loadsTolerant
      rw [String.toList_ofList]
      dsimp only
      rw [tryLoads_next hreads hraw, hunfence]
      exact tryLoads_value hreads hinner _ _
    · have htail : tail <:+: behind := by
        have hstart : Unicode.dropEnd env.unicode.isSpace behind <+: behind := Unicode.dropEnd_start
        rw [hsplit] at hstart
        exact ((List.suffix_cons '\n' tail).trans (List.suffix_append line _)).isInfix.trans hstart.isInfix
      refine hbehind c (htail.subset ?_)
      unfold unclose at hc
      dsimp only at hc
      split at hc
      · exact Unicode.dropEnd_start.subset (List.mem_of_mem_take hc)
      · exact hc

/-- **The object of a reply is found if and only if it is not overlooked**, whatever it holds and whatever text without
braces, brackets and quotes stands around it.  White space around the object counts to the text around it. -/
theorem loadsTolerant_padded_iff (hreads : ReadsJson env p) (hobject : ObjectText p.builders text v)
    (hbefore : ∀ c ∈ before, Plain c) (hbehind : ∀ c ∈ behind, Plain c) :
    (∃ hint, loadsTolerant env (String.ofList (before ++ (text ++ behind))) = .ok (v, hint)) ↔
      ¬ Overlooked env before text behind := by
  constructor
  · rintro ⟨hint, hfound⟩ hover
    obtain ⟨w, hint', hmissed, hscalar⟩ := loadsTolerant_overlooked hreads hobject hbefore hbehind hover
    obtain ⟨⟨members, hmembers⟩, -⟩ := hobject.braces
    rw [hfound] at hmissed
    have hv : v = w := congrArg Prod.fst (Except.ok.inj hmissed)
    rw [← hv, hmembers] at hscalar
    exact PyScalars.scalar_ne_object hscalar rfl
  · exact loadsTolerant_object hreads hobject hbefore hbehind

/-! ### A reply with an answer behind its object -/

/-- Numbers are unsigned integers. -/
def PyScalars.sample : PyScalars where
  number digits := .int (Nat.ofDigitChars 10 digits 0)
  constant word := .object (String.ofList word)
  text s := String.ofList (s.map Char.ofNat)
  number_ne_dict _ _ h := by cases h
  constant_ne_dict _ _ h := by cases h

/-- The decoder for `PyScalars.sample`. -/
def decoding : LlmEnv :=
  { LlmEnv.sample LlmSettings.sample with
    jsonLoads := fun text => match loads PyScalars.sample.builders text.toList with
      | some v => .ok v
      | none => .error ⟨"JSONDecodeError", ""⟩ }

theorem readsJson_decoding : ReadsJson decoding PyScalars.sample := by
  constructor
  · intro text v h
    unfold decoding
    dsimp only
    rw [String.toList_ofList, h]
  · intro text h
    refine ⟨"", ?_⟩
    unfold decoding
    dsimp only
    rw [String.toList_ofList, h]

/-- An object of one member. -/
def oneMember : List Char := ['\x7b', '"', 'a', '"', ':', ' ', '1', '\x7d']

theorem objectText_oneMember : ObjectText PyScalars.sample.builders oneMember (.dict [("a", .int 1)]) := by
  refine ⟨?_, rfl, rfl⟩
  rfl

/-- A fence and its language. -/
def fenced : List Char := fence ++ ['j', 's', 'o', 'n', ' ']

/-- A number on a line of its own. -/
def answer : List Char := ['\n', '4', '2']

theorem loadsTolerant_answer : loadsTolerant decoding (String.ofList (fenced ++ (oneMember ++ answer))) =
    .ok (.int 42, some "已从 markdown 代码围栏中提取 JSON") := by
  have hraw : loads PyScalars.sample.builders (fenced ++ (oneMember ++ answer)) = none := rfl
  have hunfence : unfence decoding.unicode (fenced ++ (oneMember ++ answer)) = some ['4', '2'] := rfl
  have hinner : loads PyScalars.sample.builders ['4', '2'] = some (.int 42) := rfl
  unfold loadsTolerant
  rw [String.toList_ofList]
  dsimp only
  rw [tryLoads_next readsJson_decoding hraw, hunfence]
  exact tryLoads_value readsJson_decoding hinner _ _

theorem plain_answer : (∀ c ∈ fenced, Plain c) ∧ ∀ c ∈ answer, Plain c :=
  ⟨forall_mem_of_all rfl, forall_mem_of_all rfl⟩

/-- A reply of one line and an answer behind it: the answer is taken for the object. -/
theorem object_overlooked :
    ¬ ∀ (env : LlmEnv) (p : PyScalars) (before text behind : List Char) (v : PyVal), ReadsJson env p →
      ObjectText p.builders text v → (∀ c ∈ before, Plain c) → (∀ c ∈ behind, Plain c) →
      ∃ hint, loadsTolerant env (String.ofList (before ++ (text ++ behind))) = .ok (v, hint) := by
  intro h
  obtain ⟨hint, hfound⟩ := h decoding .sample fenced oneMember answer _ readsJson_decoding objectText_oneMember
    plain_answer.1 plain_answer.2
  rw [loadsTolerant_answer] at hfound
  cases hfound

/-- Without the fence it is found. -/
theorem loadsTolerant_padded_unfenced :
    ∃ hint, loadsTolerant decoding (String.ofList (answer ++ (oneMember ++ answer))) =
      .ok (.dict [("a", .int 1)], hint) := by
  refine (loadsTolerant_padded_iff readsJson_decoding objectText_oneMember plain_answer.2 plain_answer.2).mpr ?_
  rintro ⟨hfence, -⟩
  exact absurd hfence (by decide)

end LLMNL2SQLGenerator

end AgentHarness
