import AgentHarness.Lib.WordSearch
import AgentHarness.SQLGuard
import Mathlib.Data.List.TakeWhile

/-!
# GuardFixpoint — what `SQLGuard.check` lets through, checked again

The text that is returned passes every check, and holds `LIMIT` by then, so that it is returned as it is.  The
search for blocked words in comments finds nothing that the search in the whole text does not find
(`comments_of_words`).
-/

namespace AgentHarness

open Lib

/-- White space is no word character, and has no upper case. -/
structure SpaceLaws (u : Unicode) : Prop where
  word : ∀ c, u.isSpace c = true → u.isWord c = false
  upper : ∀ c, u.isSpace c = true → u.upper c = [c]

/-- The database that knows nothing beyond ASCII follows them. -/
theorem spaceLaws_plain : SpaceLaws .plain := by
  have hsmall : ∀ n < 33, asciiSpace (Char.ofNat n) = true →
      asciiWord (Char.ofNat n) = false ∧ (Char.ofNat n).toUpper = Char.ofNat n := by decide +kernel
  have hspace : ∀ c : Char, asciiSpace c = true → asciiWord c = false ∧ c.toUpper = c := by
    intro c hc
    have hlt : c.toNat < 33 := by
      unfold asciiSpace at hc
      simp only [Bool.or_eq_true, Bool.and_eq_true, decide_eq_true_eq] at hc
      rcases hc with (rfl | h) | h
      · decide
      · omega
      · omega
    have hn := hsmall c.toNat hlt
    rw [Char.ofNat_toNat] at hn
    exact hn hc
  refine ⟨fun c hc => (hspace c hc).1, fun c hc => ?_⟩
  exact congrArg (fun d => [d]) (hspace c hc).2

namespace SQLGuard

variable {u : Unicode}

/-! ## Upper case -/

theorem upperAll_append (a b : List Char) : u.upperAll (a ++ b) = u.upperAll a ++ u.upperAll b := List.flatMap_append

theorem upperAll_cons (c : Char) (b : List Char) : u.upperAll (c :: b) = u.upper c ++ u.upperAll b := rfl

/-- A character of ASCII that is no letter. -/
theorem upperAll_mark {c : Char} (hc : isAscii c = true ∧ c.toUpper = c) (b : List Char) :
    u.upperAll (c :: b) = c :: u.upperAll b := by
  rw [upperAll_cons, u.upper_ascii c hc.1, hc.2, List.singleton_append]

theorem isWord_false {c : Char} (hc : isAscii c = true ∧ asciiWord c = false) : u.isWord c = false := by
  rw [u.isWord_ascii c hc.1]
  exact hc.2

/-! ## Words -/

theorem keyword_word {keyword : String} (h : keyword ∈ blockedKeywords) :
    keyword.toList ≠ [] ∧ ∀ c ∈ keyword.toList, u.isWord c = true := by
  have hascii : ∀ keyword ∈ blockedKeywords, keyword.toList ≠ [] ∧
      (keyword.toList.all fun c => decide (isAscii c = true ∧ asciiWord c = true)) = true := by decide
  obtain ⟨hne, hall⟩ := hascii keyword h
  refine ⟨hne, fun c hc => ?_⟩
  obtain ⟨hc, hword⟩ := forall_mem_of_all hall c hc
  rw [u.isWord_ascii c hc]
  exact hword

theorem findBlocked_none {text : List Char} : findBlocked u text = none ↔
    ∀ keyword ∈ blockedKeywords, ¬ Word u.isWord keyword.toList text := by
  unfold findBlocked
  rw [List.find?_eq_none]
  refine forall₂_congr fun keyword h => not_congr ?_
  obtain ⟨hne, hall⟩ := @keyword_word u keyword h
  exact occurs_word_iff hne hall

/-- No keyword holds a character that is no word character. -/
theorem not_mem_keyword {keyword : String} (h : keyword ∈ blockedKeywords) {c : Char} (hc : u.isWord c = false) :
    c ∉ keyword.toList := by
  intro hmem
  rw [(keyword_word h).2 c hmem] at hc
  exact nomatch hc

/-! ## Comments -/

/-- A slice of a text that ends where the text does, or before a character that is none of a word, behind one that
is none of a word. -/
def Fenced (piece text : List Char) : Prop :=
  ∃ a c b, text = a ++ c :: (piece ++ b) ∧ (isAscii c = true ∧ c.toUpper = c ∧ asciiWord c = false) ∧
    ∀ d ∈ b.head?, isAscii d = true ∧ d.toUpper = d ∧ asciiWord d = false

theorem Fenced.word {piece text s : List Char} (h : Fenced piece text) (hs : Word u.isWord s (u.upperAll piece)) :
    Word u.isWord s (u.upperAll text) := by
  obtain ⟨a, c, b, rfl, ⟨hc, hupper, hword⟩, hb⟩ := h
  have hbehind : Word u.isWord s (u.upperAll (piece ++ b)) := by
    rw [upperAll_append]
    refine hs.append_left fun d hd => ?_
    cases b with
    | nil => simp [Unicode.upperAll] at hd
    | cons e b =>
      obtain ⟨he, heupper, heword⟩ := hb e rfl
      rw [upperAll_mark ⟨he, heupper⟩] at hd
      rw [← Option.some.inj hd]
      exact isWord_false ⟨he, heword⟩
  rw [upperAll_append, upperAll_mark ⟨hc, hupper⟩, ← List.singleton_append, ← List.append_assoc]
  refine hbehind.append_right fun d hd => ?_
  rw [List.getLast?_concat] at hd
  rw [← Option.some.inj hd]
  exact isWord_false ⟨hc, hword⟩

theorem lineComment_some {line piece : List Char} (h : lineComment line = some piece) :
    ∃ a, line = a ++ '-' :: '-' :: piece := by
  induction line with
  | nil => cases h
  | cons c line ih =>
    unfold lineComment at h
    split at h
    · rename_i rest heq
      obtain rfl := Option.some.inj h
      exact ⟨[], heq⟩
    · rename_i rest hnot heq
      obtain ⟨rfl, rfl⟩ := List.cons.inj heq
      obtain ⟨a, ha⟩ := ih h
      exact ⟨c :: a, congrArg _ ha⟩
    · rename_i heq
      cases heq

/-- A line ends where the text does or before a line end; the first one begins where the text does. -/
theorem lines_spec (text : List Char) : ∃ l ls, lines text = l :: ls ∧
    (∃ b, text = l ++ b ∧ ∀ c ∈ b.head?, c = '\n') ∧
    ∀ l' ∈ ls, ∃ a b, text = a ++ (l' ++ b) ∧ ∀ c ∈ b.head?, c = '\n' := by
  induction text with
  | nil => exact ⟨[], [], rfl, ⟨[], rfl, by simp⟩, by simp⟩
  | cons c text ih =>
    obtain ⟨l, ls, heq, ⟨b, htext, hb⟩, hls⟩ := ih
    have hstep : lines (c :: text) = if c = '\n' then [] :: l :: ls else (c :: l) :: ls := by
      conv_lhs => unfold lines
      rw [heq]
    have hmore : ∀ l' ∈ ls, ∃ a b, c :: text = a ++ (l' ++ b) ∧ ∀ c ∈ b.head?, c = '\n' := by
      intro l' hl'
      obtain ⟨a, b, h, hb⟩ := hls l' hl'
      exact ⟨c :: a, b, congrArg _ h, hb⟩
    rw [hstep]
    split_ifs with hc
    · refine ⟨[], l :: ls, rfl, ⟨c :: text, rfl, ?_⟩, ?_⟩
      · intro d hd
        rw [← Option.some.inj hd]
        exact hc
      · intro l' hl'
        rcases List.mem_cons.mp hl' with heq' | hl'
        · rw [heq']
          exact ⟨[c], b, congrArg _ htext, hb⟩
        · exact hmore l' hl'
    · exact ⟨c :: l, ls, rfl, ⟨b, congrArg _ htext, hb⟩, hmore⟩

theorem fenced_line {text line piece : List Char} (hline : line ∈ lines text)
    (h : lineComment line = some piece) : Fenced piece text := by
  obtain ⟨l, ls, heq, hfirst, hls⟩ := lines_spec text
  have hplace : ∃ a b, text = a ++ (line ++ b) ∧ ∀ c ∈ b.head?, c = '\n' := by
    rw [heq] at hline
    rcases List.mem_cons.mp hline with rfl | hline
    · obtain ⟨b, hb⟩ := hfirst
      exact ⟨[], b, hb⟩
    · exact hls line hline
  obtain ⟨a, b, rfl, hb⟩ := hplace
  obtain ⟨a', rfl⟩ := lineComment_some h
  refine ⟨a ++ a' ++ ['-'], '-', b, by simp, by decide, fun d hd => ?_⟩
  rw [hb d hd]
  decide

/-- A block comment: what its group holds, and what stands around it. -/
theorem run_blockPattern {behind ahead : List Char} {pos : Nat} {c' : Cursor}
    (h : c' ∈ blockPattern.run ⟨behind, ahead, pos, []⟩) :
    ∃ piece b, ahead = '/' :: '*' :: (piece ++ b) ∧ "*/".toList <+: b ∧ c'.groups = [(1, piece)] := by
  have hsteps : blockPattern.run ⟨behind, ahead, pos, []⟩ =
      ((Regex.literal "/*".toList).run ⟨behind, ahead, pos, []⟩).flatMap fun c₁ =>
        (((Regex.few fun _ => true).run c₁).map fun c₂ => c₁.record c₂ 1).flatMap
          (Regex.literal "*/".toList).run := rfl
  rw [hsteps, Regex.run_literal (by decide)] at h
  split_ifs at h with hopen
  · obtain ⟨rest, rfl⟩ := hopen
    rw [List.flatMap_singleton] at h
    obtain ⟨c₂, hc₂, h⟩ := List.mem_flatMap.mp h
    obtain ⟨c₁, hc₁, rfl⟩ := List.mem_map.mp hc₂
    obtain ⟨i, -, rfl⟩ := List.mem_map.mp hc₁
    rw [Regex.run_literal (by decide)] at h
    split_ifs at h with hclose
    · obtain rfl := List.mem_singleton.mp h
      refine ⟨rest.take i, rest.drop i, by rw [List.take_append_drop]; rfl, hclose, ?_⟩
      show [(1, rest.take (pos + 2 + i - (pos + 2)))] = _
      rw [Nat.add_sub_cancel_left]
    · simp at h
  · simp at h

theorem fenced_block {text : List Char} {m : Match} (h : m ∈ blockPattern.findAll text) :
    Fenced (m.group 1) text := by
  obtain ⟨a, b, rfl, -, hmatch⟩ := Regex.findFrom_mem h
  unfold Regex.matchAt at hmatch
  split at hmatch
  · rename_i c' hrun
    split_ifs at hmatch
    obtain rfl := Option.some.inj hmatch
    obtain ⟨piece, rest, rfl, ⟨more, rfl⟩, hgroups⟩ := run_blockPattern (List.mem_of_head? hrun)
    have hgroup : Match.group ⟨0 + a.length, c'.pos, c'.groups⟩ 1 = piece := by
      unfold Match.group
      rw [hgroups]
      rfl
    rw [hgroup]
    refine ⟨a ++ ['/'], '*', "*/".toList ++ more, by simp, by decide, fun d hd => ?_⟩
    rw [← Option.some.inj hd]
    decide
  · cases hmatch

/-- The pieces of a comment text. -/
theorem comments_of_words {text : List Char} (h : findBlocked u (u.upperAll text) = none) :
    findBlocked u (u.upperAll (extractCommentText text)) = none := by
  rw [findBlocked_none] at h ⊢
  intro keyword hkeyword hword
  have hjoin : ∀ parts : List (List Char), u.upperAll (List.intercalate [' '] parts) =
      List.intercalate [' '] (parts.map u.upperAll) := by
    intro parts
    induction parts with
    | nil => rfl
    | cons p parts ih =>
      cases parts with
      | nil => simp
      | cons q parts =>
        have hspace : u.upperAll [' '] = [' '] := upperAll_mark (by decide) []
        rw [List.intercalate_cons_cons, upperAll_append, upperAll_append, ih, hspace]
        exact List.intercalate_cons_cons.symm
  have hspace : u.isWord ' ' = false := isWord_false (by decide)
  unfold extractCommentText at hword
  rw [hjoin] at hword
  obtain ⟨p, hp, hin⟩ := word_intercalate hspace (not_mem_keyword hkeyword hspace) (@keyword_word u _ hkeyword).1 hword
  obtain ⟨piece, hpiece, rfl⟩ := List.mem_map.mp hp
  refine h keyword hkeyword (Fenced.word ?_ hin)
  rcases List.mem_append.mp hpiece with hpiece | hpiece
  · obtain ⟨line, hline, hcomment⟩ := List.mem_filterMap.mp hpiece
    exact fenced_line hline hcomment
  · obtain ⟨m, hm, rfl⟩ := List.mem_map.mp hpiece
    exact fenced_block hm

/-! ## The first word -/

theorem firstWord_iff {text w : List Char} (hne : w ≠ []) : firstWord u text = w ↔ ∃ a b, text = a ++ (w ++ b) ∧
    (∀ c ∈ a, u.isSpace c = true) ∧ (∀ c ∈ w, u.isSpace c = false) ∧ ∀ c ∈ b.head?, u.isSpace c = true := by
  unfold firstWord
  constructor
  · rintro rfl
    refine ⟨text.takeWhile u.isSpace, (text.dropWhile u.isSpace).dropWhile fun c => !u.isSpace c, ?_,
      fun c hc => List.mem_takeWhile_imp hc, fun c hc => ?_, fun c hc => ?_⟩
    · rw [List.takeWhile_append_dropWhile, List.takeWhile_append_dropWhile]
    · simpa using List.mem_takeWhile_imp hc
    · simpa using Unicode.dropWhile_head c hc
  · rintro ⟨a, b, rfl, ha, hw, hb⟩
    have hw' : ∀ c ∈ w, (!u.isSpace c) = true := fun c hc => by rw [hw c hc]; rfl
    have hhead : ∀ c ∈ (w ++ b).head?, u.isSpace c = false := by
      obtain ⟨d, w, rfl⟩ := List.exists_cons_of_ne_nil hne
      intro c hc
      rw [← Option.some.inj hc]
      exact hw d List.mem_cons_self
    rw [List.dropWhile_append_of_pos ha, Unicode.dropWhile_of_head hhead, List.takeWhile_append_of_pos hw']
    cases b with
    | nil => simp
    | cons d b =>
      have hd : u.isSpace d = true := hb d rfl
      rw [List.takeWhile_cons_of_neg (by rw [hd]; exact Bool.false_ne_true), List.append_nil]

/-- The first word is the same where the text behind it is another that begins with white space. -/
theorem firstWord_append {text rest rest' w : List Char} (hne : w ≠ []) (h : firstWord u (text ++ rest) = w)
    (hrest : ∀ c ∈ rest, c ∉ w) (hrest' : ∀ c ∈ rest'.head?, u.isSpace c = true) :
    firstWord u (text ++ rest') = w := by
  obtain ⟨a, b, heq, ha, hw, hb⟩ := (firstWord_iff hne).mp h
  rw [firstWord_iff hne]
  rw [← List.append_assoc] at heq
  rcases List.append_eq_append_iff.mp heq with ⟨e, htext, hsplit⟩ | ⟨e, rfl, rfl⟩
  · -- what stands behind the text would end with the end of the word
    have hnil : e = [] := by
      by_contra hne'
      obtain ⟨c, hc⟩ : ∃ c, e.getLast? = some c := ⟨_, List.getLast?_eq_some_getLast hne'⟩
      have hlast : w.getLast? = some c := by
        have hboth := congrArg List.getLast? htext
        rw [List.getLast?_append, List.getLast?_append, hc, List.getLast?_eq_some_getLast hne] at hboth
        rw [List.getLast?_eq_some_getLast hne]
        exact hboth
      have hmem : c ∈ rest := by
        rw [hsplit]
        exact List.mem_append_left _ (List.mem_of_getLast? hc)
      exact hrest c hmem (List.mem_of_getLast? hlast)
    rw [hnil, List.append_nil] at htext
    exact ⟨a, rest', by rw [← htext, List.append_assoc], ha, hw, hrest'⟩
  · refine ⟨a, e ++ rest', by simp, ha, hw, fun c hc => ?_⟩
    cases e with
    | nil => exact hrest' c hc
    | cons d e => exact hb c hc

/-! ## The text that is returned -/

theorem check_of_allows {sql : String} {r : SQLGuardResult} (h : Allows u sql r) :
    check u sql = ⟨true, String.ofList (ensureLimit u (u.strip sql.toList)), ""⟩ := by
  have hmulti : checkMultiStatement u (u.strip sql.toList) = none := if_neg h.single
  have hcomments : checkComments u (u.strip sql.toList) = none := by
    unfold checkComments
    rw [h.comments]
  unfold check
  dsimp only
  rw [if_neg h.nonempty, hmulti]
  dsimp only
  rw [hcomments]
  dsimp only
  unfold checkWords
  dsimp only
  rw [h.words]
  dsimp only
  rcases h.verb with hverb | ⟨hverb, hselect⟩
  · rw [if_pos hverb]
  · rw [if_neg (by rw [hverb]; decide), if_pos hverb]
    unfold validateCte
    rw [if_pos hselect]
    rfl

theorem occurs_limit (body : List Char) : (limitPattern u).occurs (body ++ " LIMIT 100;".toList) = true := by
  have hspace : u.isWord ' ' = false := isWord_false (by decide)
  have hletter : ∀ c, isAscii c = true ∧ asciiWord c = true → u.isWord c = true := by
    intro c hc
    rw [u.isWord_ascii c hc.1]
    exact hc.2
  have hl : u.isWord 'L' = true := hletter _ (by decide)
  have ht : u.isWord 'T' = true := hletter _ (by decide)
  rw [Regex.occurs_iff]
  refine ⟨body ++ [' '], "LIMIT 100;".toList, by simp, by decide, ?_⟩
  rw [List.reverse_append, List.reverse_singleton, List.singleton_append]
  simp [Regex.matchAt, limitPattern, Regex.sequence, Regex.run, Cursor.atEdge, Cursor.holds, Cursor.advance,
    isLetterI, hspace, hl, ht]

/-- The text that the limit is appended to, and what was dropped of the stripped text. -/
theorem limit_body {t : List Char} (hhead : ∀ c ∈ t.head?, u.isSpace c = false) :
    ∃ junk, t = u.strip (Unicode.dropEnd (· = ';') t) ++ junk ∧ ∀ c ∈ junk, c = ';' ∨ u.isSpace c = true := by
  obtain ⟨semis, ht, hsemis⟩ := Unicode.dropEnd_dropped (· = ';') t
  obtain ⟨spaces, hbody, hspaces⟩ := Unicode.dropEnd_dropped u.isSpace (Unicode.dropEnd (· = ';') t)
  have hstrip : u.strip (Unicode.dropEnd (· = ';') t) = Unicode.dropEnd u.isSpace (Unicode.dropEnd (· = ';') t) := by
    unfold Unicode.strip
    rw [Unicode.dropWhile_of_head]
    intro c hc
    refine hhead c ?_
    rw [ht]
    exact List.mem_head?_append_of_mem_head? hc
  refine ⟨spaces ++ semis, ?_, fun c hc => ?_⟩
  · rw [hstrip, ← List.append_assoc, ← hbody]
    exact ht
  · rcases List.mem_append.mp hc with hc | hc
    · exact .inr (hspaces c hc)
    · exact .inl (by simpa using hsemis c hc)

theorem upperAll_of_fixed {l : List Char} (h : ∀ c ∈ l, u.upper c = [c]) : u.upperAll l = l := by
  induction l with
  | nil => rfl
  | cons c l ih =>
    rw [upperAll_cons, h c List.mem_cons_self, ih fun d hd => h d (List.mem_cons_of_mem _ hd)]
    rfl

/-- What was dropped is the same in upper case, and holds nothing of a word. -/
theorem upperAll_junk (hu : SpaceLaws u) {junk : List Char} (h : ∀ c ∈ junk, c = ';' ∨ u.isSpace c = true) :
    u.upperAll junk = junk ∧ ∀ c ∈ junk, u.isWord c = false := by
  refine ⟨upperAll_of_fixed fun c hc => ?_, fun c hc => ?_⟩
  · rcases h c hc with rfl | hspace
    · exact u.upper_ascii ';' (by decide)
    · exact hu.upper c hspace
  · rcases h c hc with rfl | hspace
    · exact isWord_false (by decide)
    · exact hu.word c hspace

theorem verb_word {w : List Char} (h : w = "SELECT".toList ∨ w = "WITH".toList) :
    w ≠ [] ∧ ∀ c ∈ w, u.isWord c = true := by
  have hascii : w ≠ [] ∧ ∀ c ∈ w, isAscii c = true ∧ asciiWord c = true := by
    rcases h with rfl | rfl <;> exact ⟨by decide, forall_mem_of_all (by decide)⟩
  refine ⟨hascii.1, fun c hc => ?_⟩
  rw [u.isWord_ascii c (hascii.2 c hc).1]
  exact (hascii.2 c hc).2

/-- What holds nothing of a word is no part of one. -/
theorem infix_of_append {s a junk : List Char} (h : s <:+: a ++ junk) (hne : s ≠ []) (hs : ∀ c ∈ junk, c ∉ s) :
    s <:+: a := by
  rcases List.infix_append_iff.mp h with hin | hin | ⟨l₁, l₂, rfl, hsuffix, hstarts⟩
  · exact hin
  · obtain ⟨c, s, rfl⟩ := List.exists_cons_of_ne_nil hne
    exact absurd List.mem_cons_self (hs c (hin.subset List.mem_cons_self))
  · cases l₂ with
    | nil =>
      rw [List.append_nil]
      exact hsuffix.isInfix
    | cons c l₂ =>
      exact absurd (List.mem_append_right _ List.mem_cons_self) (hs c (hstarts.subset List.mem_cons_self))

/-- A stripped text is what the limit is appended to, and what is dropped of it. -/
structure Limited (u : Unicode) (t body junk : List Char) : Prop where
  text : t = body ++ junk
  dropped : ∀ c ∈ junk, c = ';' ∨ u.isSpace c = true
  first : ∀ c ∈ body.head?, u.isSpace c = false
  single : ';' ∉ body

def limited (body : List Char) : List Char := body ++ " LIMIT 100;".toList

section Limited

variable {t body junk : List Char}

theorem exists_limited {t : List Char} (hstrip : u.strip t = t)
    (hsingle : ';' ∉ Unicode.dropEnd (· = ';') (Unicode.dropEnd u.isSpace t)) :
    ∃ junk, Limited u t (u.strip (Unicode.dropEnd (· = ';') t)) junk := by
  have hhead : ∀ c ∈ t.head?, u.isSpace c = false := hstrip ▸ Unicode.strip_head
  have hlast : ∀ c ∈ t.getLast?, u.isSpace c = false := hstrip ▸ Unicode.strip_last
  obtain ⟨junk, ht, hjunk⟩ := limit_body hhead
  rw [Unicode.dropEnd_of_last hlast] at hsingle
  refine ⟨junk, ht, hjunk, Unicode.strip_head, fun hmem => hsingle ?_⟩
  exact (List.dropWhile_suffix _).subset (Unicode.dropEnd_start.subset hmem)

theorem upperAll_limited : u.upperAll (limited body) = u.upperAll body ++ " LIMIT 100;".toList := by
  have hclause : u.upperAll " LIMIT 100;".toList = " LIMIT 100;".toList := by
    have hascii : ∀ c ∈ " LIMIT 100;".toList, isAscii c = true ∧ c.toUpper = c := forall_mem_of_all (by decide)
    refine upperAll_of_fixed fun c hc => ?_
    rw [u.upper_ascii c (hascii c hc).1, (hascii c hc).2]
  unfold limited
  rw [upperAll_append, hclause]

theorem Limited.upper (hu : SpaceLaws u) (h : Limited u t body junk) : u.upperAll t = u.upperAll body ++ junk := by
  rw [h.text, upperAll_append, (upperAll_junk hu h.dropped).1]

/-- Nothing of a word was dropped. -/
theorem Limited.apart (hu : SpaceLaws u) (h : Limited u t body junk) {w : List Char}
    (hw : ∀ c ∈ w, u.isWord c = true) : ∀ c ∈ junk, c ∉ w := by
  intro c hc hmem
  have hboth := (hw c hmem).symm.trans ((upperAll_junk hu h.dropped).2 c hc)
  exact nomatch hboth

theorem Limited.firstWord (hu : SpaceLaws u) (h : Limited u t body junk) {w : List Char}
    (hw : w = "SELECT".toList ∨ w = "WITH".toList) (hfirst : firstWord u (u.upperAll t) = w) :
    SQLGuard.firstWord u (u.upperAll (limited body)) = w := by
  obtain ⟨hne, hall⟩ := @verb_word u w hw
  have hspace : ∀ c ∈ " LIMIT 100;".toList.head?, u.isSpace c = true := by
    intro c hc
    have hc : some ' ' = some c := hc
    rw [← Option.some.inj hc, u.isSpace_ascii ' ' (by decide)]
    decide
  rw [h.upper hu] at hfirst
  rw [upperAll_limited]
  exact firstWord_append hne hfirst (h.apart hu hall) hspace

theorem Limited.nonempty (hu : SpaceLaws u) (h : Limited u t body junk) {w : List Char}
    (hw : w = "SELECT".toList ∨ w = "WITH".toList) (hfirst : SQLGuard.firstWord u (u.upperAll t) = w) : body ≠ [] := by
  obtain ⟨hne, hall⟩ := @verb_word u w hw
  rw [h.upper hu] at hfirst
  rintro rfl
  obtain ⟨a, b, heq, -⟩ := (firstWord_iff hne).mp hfirst
  have heq : junk = a ++ (w ++ b) := heq
  obtain ⟨c, w, rfl⟩ := List.exists_cons_of_ne_nil hne
  refine h.apart hu hall c ?_ List.mem_cons_self
  rw [heq]
  simp

theorem Limited.words (hu : SpaceLaws u) (h : Limited u t body junk)
    (hwords : findBlocked u (u.upperAll t) = none) : findBlocked u (u.upperAll (limited body)) = none := by
  rw [h.upper hu] at hwords
  rw [upperAll_limited]
  rw [findBlocked_none] at hwords ⊢
  intro keyword hkeyword hin
  have hspace : u.isWord ' ' = false := isWord_false (by decide)
  have hsplit : u.upperAll body ++ " LIMIT 100;".toList = u.upperAll body ++ ' ' :: "LIMIT 100;".toList := rfl
  rw [hsplit, word_append_cons hspace (not_mem_keyword hkeyword hspace)] at hin
  rcases hin with hin | hin
  · refine hwords keyword hkeyword (hin.append_left fun c hc => ?_)
    exact (upperAll_junk hu h.dropped).2 c (List.mem_of_mem_head? hc)
  · have hnone : ∀ keyword ∈ blockedKeywords, ¬ keyword.toList <:+: "LIMIT 100;".toList := by decide
    exact hnone keyword hkeyword hin.occurs

theorem Limited.select (hu : SpaceLaws u) (h : Limited u t body junk)
    (hselect : "SELECT".toList <:+: u.upperAll t) : "SELECT".toList <:+: u.upperAll (limited body) := by
  obtain ⟨hne, hall⟩ := @verb_word u "SELECT".toList (.inl rfl)
  rw [h.upper hu] at hselect
  rw [upperAll_limited]
  exact List.infix_append_of_infix_left (infix_of_append hselect hne (h.apart hu hall))

theorem limited_last : ∀ c ∈ (limited body).getLast?, u.isSpace c = false := by
  unfold limited
  rw [List.getLast?_append]
  intro c hc
  rw [← Option.some.inj hc, u.isSpace_ascii _ (by decide)]
  decide

theorem Limited.strip (h : Limited u t body junk) (hne : body ≠ []) : u.strip (limited body) = limited body := by
  refine Unicode.strip_of_ends (fun c hc => h.first c ?_) limited_last
  unfold limited at hc
  rwa [List.head?_append_of_ne_nil _ hne] at hc

theorem Limited.statement (h : Limited u t body junk) :
    ';' ∉ Unicode.dropEnd (· = ';') (Unicode.dropEnd u.isSpace (limited body)) := by
  have hsplit : limited body = (body ++ " LIMIT 100".toList) ++ [';'] := by
    rw [List.append_assoc]
    rfl
  have hzero : ∀ c ∈ (body ++ " LIMIT 100".toList).getLast?, (decide (c = ';')) = false := by
    rw [List.getLast?_append]
    intro c hc
    rw [← Option.some.inj hc]
    decide
  rw [Unicode.dropEnd_of_last limited_last, hsplit, Unicode.dropEnd_append hzero]
  intro hmem
  rcases List.mem_append.mp hmem with hmem | hmem
  · rcases List.mem_append.mp hmem with hmem | hmem
    · exact h.single hmem
    · exact absurd hmem (by decide)
  · exact absurd hmem (by decide)

end Limited

/-- **The text with the limit passes the checks as the text did.** -/
theorem check_limited (hu : SpaceLaws u) {sql : String} {r : SQLGuardResult} (h : Allows u sql r) :
    check u (String.ofList (limited (u.strip (Unicode.dropEnd (· = ';') (u.strip sql.toList))))) =
      ⟨true, String.ofList (limited (u.strip (Unicode.dropEnd (· = ';') (u.strip sql.toList)))), ""⟩ := by
  obtain ⟨junk, hlimited⟩ := exists_limited (Unicode.strip_strip u sql.toList) h.single
  generalize u.strip (Unicode.dropEnd (· = ';') (u.strip sql.toList)) = body at *
  obtain ⟨w, hw, hfirst⟩ : ∃ w, (w = "SELECT".toList ∨ w = "WITH".toList) ∧
      firstWord u (u.upperAll (u.strip sql.toList)) = w := by
    rcases h.verb with hverb | ⟨hverb, -⟩
    · exact ⟨_, .inl rfl, hverb⟩
    · exact ⟨_, .inr rfl, hverb⟩
  have hstrip : u.strip (String.ofList (limited body)).toList = limited body := by
    rw [String.toList_ofList]
    exact hlimited.strip (hlimited.nonempty hu hw hfirst)
  have hkept : ensureLimit u (limited body) = limited body := if_pos (occurs_limit body)
  have hverb : firstWord u (u.upperAll (limited body)) = "SELECT".toList ∨
      firstWord u (u.upperAll (limited body)) = "WITH".toList ∧ "SELECT".toList <:+: u.upperAll (limited body) := by
    rcases h.verb with hverb | ⟨hverb, hselect⟩
    · exact .inl (hlimited.firstWord hu (.inl rfl) hverb)
    · exact .inr ⟨hlimited.firstWord hu (.inr rfl) hverb, hlimited.select hu hselect⟩
  have hwords := hlimited.words hu h.words
  have hallows : Allows u (String.ofList (limited body)) ⟨true, String.ofList (limited body), ""⟩ := by
    constructor
    · rw [hstrip]
      simp [limited]
    · rw [hstrip]
      exact hlimited.statement
    · rw [hstrip]
      exact comments_of_words hwords
    · rw [hstrip]
      exact hwords
    · rw [hstrip]
      exact hverb
    · rw [hstrip, hkept]
  rw [check_of_allows hallows, hstrip, hkept]

/-- **What is let through is a fixed point of the check.** -/
theorem check_fixed (hu : SpaceLaws u) {sql : String} (h : (check u sql).allowed = true) :
    check u (check u sql).sql = ⟨true, (check u sql).sql, ""⟩ := by
  have hallows := allows_of_check h
  rw [hallows.sql]
  by_cases hlimit : (limitPattern u).occurs (u.strip sql.toList) = true
  · have hkept : ensureLimit u (u.strip sql.toList) = u.strip sql.toList := if_pos hlimit
    have hstrip : u.strip (String.ofList (u.strip sql.toList)).toList = u.strip sql.toList := by
      rw [String.toList_ofList, Unicode.strip_strip]
    have hagain : Allows u (String.ofList (u.strip sql.toList)) ⟨true, String.ofList (u.strip sql.toList), ""⟩ := by
      obtain ⟨hne, hsingle, hcomments, hwords, hverb, -⟩ := hallows
      rw [← hstrip] at hne hsingle hcomments hwords hverb
      refine ⟨hne, hsingle, hcomments, hwords, hverb, ?_⟩
      rw [hstrip, hkept]
    rw [hkept, check_of_allows hagain, hstrip, hkept]
  · have hadded : ensureLimit u (u.strip sql.toList) =
        limited (u.strip (Unicode.dropEnd (· = ';') (u.strip sql.toList))) := if_neg hlimit
    rw [hadded]
    exact check_limited hu hallows

end SQLGuard

end AgentHarness
