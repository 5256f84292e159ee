import AgentHarness.Redaction
import Mathlib.Data.List.TakeWhile

/-!
# UrlRoundTrip — what `urlsplit` reads of what `urlunsplit` writes

The parts that `urlsplit` finds in the text of a DSN are `WellFormed`: no part holds what ends it.  A text
that is written of such parts is read back as them, if the host part passes the checks (`netlocFails`).
-/

namespace AgentHarness

open Lib

/-! ## Parts of a text -/

section Partition

variable {sep : Char} {a b s : List Char}

theorem partition_append (h : sep ∉ a) : partition sep (a ++ sep :: b) = (a, true, b) := by
  have hpos : ∀ c ∈ a, (decide (c ≠ sep)) = true := fun c hc => decide_eq_true fun heq => h (heq ▸ hc)
  unfold partition
  rw [List.dropWhile_append_of_pos hpos, List.takeWhile_append_of_pos hpos, List.dropWhile_cons_of_neg (by simp),
    List.takeWhile_cons_of_neg (by simp), List.append_nil]

theorem partition_of_not_mem (h : sep ∉ s) : partition sep s = (s, false, []) := by
  have hpos : ∀ c ∈ s, (decide (c ≠ sep)) = true := fun c hc => decide_eq_true fun heq => h (heq ▸ hc)
  unfold partition
  rw [List.dropWhile_eq_nil_iff.mpr hpos]

/-- The two cases of a partition. -/
theorem partition_cases (sep : Char) (s : List Char) :
    (sep ∉ s ∧ partition sep s = (s, false, [])) ∨
      ∃ a b, sep ∉ a ∧ s = a ++ sep :: b ∧ partition sep s = (a, true, b) := by
  by_cases h : sep ∈ s
  · obtain ⟨a, b, rfl, ha⟩ := List.eq_append_cons_of_mem h
    exact .inr ⟨a, b, ha, rfl, partition_append ha⟩
  · exact .inl ⟨h, partition_of_not_mem h⟩

/-- What stands before the separator. -/
theorem not_mem_partition : sep ∉ (partition sep s).1 := by
  rcases partition_cases sep s with ⟨h, heq⟩ | ⟨a, b, h, -, heq⟩
  · rwa [heq]
  · rwa [heq]

theorem partition_subset : (partition sep s).1 ⊆ s ∧ (partition sep s).2.2 ⊆ s := by
  rcases partition_cases sep s with ⟨-, heq⟩ | ⟨a, b, -, rfl, heq⟩
  · rw [heq]
    exact ⟨List.Subset.refl s, List.nil_subset s⟩
  · rw [heq]
    exact ⟨List.subset_append_left _ _, fun c hc => List.mem_append_right _ (List.mem_cons_of_mem _ hc)⟩

theorem partition_start : (partition sep s).1 <+: s := by
  rcases partition_cases sep s with ⟨-, heq⟩ | ⟨a, b, -, rfl, heq⟩
  · rw [heq]
  · rw [heq]
    exact List.prefix_append _ _

theorem rpartition_append (h : sep ∉ b) : rpartition sep (a ++ sep :: b) = (a, true, b) := by
  have hrev : (a ++ sep :: b).reverse = b.reverse ++ sep :: a.reverse := by simp
  unfold rpartition
  rw [hrev, partition_append (by simpa using h)]
  simp

theorem rpartition_of_not_mem (h : sep ∉ s) : rpartition sep s = ([], false, s) := by
  unfold rpartition
  rw [partition_of_not_mem (by simpa using h)]

theorem rpartition_cases (sep : Char) (s : List Char) :
    (sep ∉ s ∧ rpartition sep s = ([], false, s)) ∨
      ∃ a b, sep ∉ b ∧ s = a ++ sep :: b ∧ rpartition sep s = (a, true, b) := by
  rcases partition_cases sep s.reverse with ⟨h, -⟩ | ⟨a, b, h, heq, -⟩
  · have h : sep ∉ s := by simpa using h
    exact .inl ⟨h, rpartition_of_not_mem h⟩
  · have hs : s = b.reverse ++ sep :: a.reverse := by
      rw [← List.reverse_reverse s, heq]
      simp
    have ha : sep ∉ a.reverse := by simpa using h
    exact .inr ⟨b.reverse, a.reverse, ha, hs, hs ▸ rpartition_append ha⟩

end Partition

/-! ## The steps of `urlsplit` -/

/-- `url.lstrip` of control characters and blanks, without tabs and line ends. -/
def cleanUrl (text : List Char) : List Char :=
  (text.dropWhile fun c => c.toNat ≤ 32).filter fun c => c ∉ ['\t', '\r', '\n']

def takeScheme (url : List Char) : List Char × List Char :=
  match partition ':' url with
  | (before, true, rest) =>
    if (before.head?.any Char.isAlpha) && before.all schemeChar then (before.map Char.toLower, rest) else ([], url)
  | (_, false, _) => ([], url)

def takeNetloc : List Char → List Char × List Char
  | '/' :: '/' :: rest =>
    (rest.takeWhile fun c => c ∉ ['/', '?', '#'], rest.dropWhile fun c => c ∉ ['/', '?', '#'])
  | url => ([], url)

/-- The checks of the host part. -/
def netlocFails (badNetloc : List Char → Bool) (netloc : List Char) : Bool :=
  (netloc.contains '[' != netloc.contains ']') || badNetloc netloc

/-- Path, query and fragment, of what follows the host part. -/
def takePath (rest : List Char) : List Char × List Char × List Char :=
  ((partition '?' (partition '#' rest).1).1, (partition '?' (partition '#' rest).1).2.2, (partition '#' rest).2.2)

/-- The parts that `urlsplit` finds, before the host part is checked. -/
def urlParts (text : List Char) : SplitResult where
  scheme := (takeScheme (cleanUrl text)).1
  netloc := (takeNetloc (takeScheme (cleanUrl text)).2).1
  path := (takePath (takeNetloc (takeScheme (cleanUrl text)).2).2).1
  query := (takePath (takeNetloc (takeScheme (cleanUrl text)).2).2).2.1
  fragment := (takePath (takeNetloc (takeScheme (cleanUrl text)).2).2).2.2

theorem urlsplit_eq (badNetloc : List Char → Bool) (text : List Char) :
    urlsplit badNetloc text = if netlocFails badNetloc (urlParts text).netloc then
      .error (.valueError "Invalid IPv6 URL") else .ok (urlParts text) := rfl

/-! ## Well-formed parts -/

/-- A character that `urlsplit` leaves in a URL. -/
def Clean (c : Char) : Prop := c ∉ ['\t', '\r', '\n']

instance : DecidablePred Clean := fun _ => inferInstanceAs (Decidable (_ ∉ _))

/-- A character that does not end the host part. -/
def InNetloc (c : Char) : Prop := c ∉ ['/', '?', '#'] ∧ Clean c

instance : DecidablePred InNetloc := fun _ => inferInstanceAs (Decidable (_ ∧ _))

/-- Nothing stands in a part that would end it. -/
structure WellFormed (r : SplitResult) : Prop where
  scheme : isDsnScheme r.scheme = true
  netloc : ∀ c ∈ r.netloc, InNetloc c
  path : ∀ c ∈ r.path, c ≠ '?' ∧ c ≠ '#' ∧ Clean c
  query : ∀ c ∈ r.query, c ≠ '#' ∧ Clean c
  fragment : ∀ c ∈ r.fragment, Clean c
  rooted : r.netloc ≠ [] → ∀ c ∈ r.path.head?, c = '/'

section Reading

variable {badNetloc : List Char → Bool} {text url rest : List Char} {r : SplitResult}

theorem cleanUrl_clean : ∀ c ∈ cleanUrl text, Clean c := by
  intro c hc
  simpa [Clean] using (List.mem_filter.mp hc).2

theorem takeScheme_subset : (takeScheme url).2 ⊆ url := by
  unfold takeScheme
  rcases partition_cases ':' url with ⟨-, heq⟩ | ⟨a, b, -, rfl, heq⟩
  · rw [heq]
    exact List.Subset.refl _
  · rw [heq]
    dsimp only
    split_ifs
    · exact fun c hc => List.mem_append_right _ (List.mem_cons_of_mem _ hc)
    · exact List.Subset.refl _

/-- The host part, and what follows it. -/
theorem takeNetloc_spec : (takeNetloc url).1 ⊆ url ∧ (takeNetloc url).2 ⊆ url ∧
    (∀ c ∈ (takeNetloc url).1, c ∉ ['/', '?', '#']) ∧
    ((takeNetloc url).1 ≠ [] → ∀ c ∈ (takeNetloc url).2.head?, c ∈ ['/', '?', '#']) := by
  unfold takeNetloc
  split
  · rename_i rest
    refine ⟨fun c hc => ?_, fun c hc => ?_, fun c hc => ?_, fun _ c hc => ?_⟩
    · exact List.mem_cons_of_mem _ (List.mem_cons_of_mem _ ((List.takeWhile_prefix _).subset hc))
    · exact List.mem_cons_of_mem _ (List.mem_cons_of_mem _ ((List.dropWhile_suffix _).subset hc))
    · simpa using List.mem_takeWhile_imp (p := fun c => decide (c ∉ ['/', '?', '#'])) hc
    · have hstop := List.head?_dropWhile_not (fun c => decide (c ∉ ['/', '?', '#'])) rest
      rw [Option.mem_def.mp hc] at hstop
      by_contra hnot
      simp [hnot] at hstop
  · exact ⟨List.nil_subset _, List.Subset.refl _, by simp, fun h => absurd rfl h⟩

/-- What is read of a DSN is well formed. -/
theorem wellFormed_of_urlsplit (h : urlsplit badNetloc text = .ok r) (hscheme : isDsnScheme r.scheme = true) :
    WellFormed r ∧ netlocFails badNetloc r.netloc = false := by
  rw [urlsplit_eq] at h
  split_ifs at h with hfails
  obtain rfl := Except.ok.inj h
  unfold urlParts takePath at *
  obtain ⟨hnet, hrest, hdelim, hhead⟩ := @takeNetloc_spec (takeScheme (cleanUrl text)).2
  have hclean : ∀ c ∈ (takeScheme (cleanUrl text)).2, Clean c := fun c hc => cleanUrl_clean c (takeScheme_subset hc)
  generalize (takeScheme (cleanUrl text)).2 = url at *
  generalize (takeNetloc url).2 = rest at *
  have hsharp := @partition_subset '#' rest
  have hmark := @partition_subset '?' (partition '#' rest).1
  refine ⟨⟨hscheme, fun c hc => ⟨hdelim c hc, hclean c (hnet hc)⟩, fun c hc => ⟨?_, ?_, ?_⟩, fun c hc => ⟨?_, ?_⟩,
    fun c hc => ?_, fun hne c hc => ?_⟩, by simpa using hfails⟩
  · rintro rfl
    exact not_mem_partition hc
  · rintro rfl
    exact not_mem_partition (hmark.1 hc)
  · exact hclean c (hrest (hsharp.1 (hmark.1 hc)))
  · rintro rfl
    exact not_mem_partition (hmark.2 hc)
  · exact hclean c (hrest (hsharp.1 (hmark.2 hc)))
  · exact hclean c (hrest (hsharp.2 hc))
  · -- the path begins where the host part ended
    have hbegins : (partition '?' (partition '#' rest).1).1 <+: rest := partition_start.trans partition_start
    have hc' : c ∈ rest.head? := by
      obtain ⟨more, hmore⟩ := hbegins
      rw [← hmore]
      exact List.mem_head?_append_of_mem_head? hc
    have hmem : c ∈ (partition '?' (partition '#' rest).1).1 := List.mem_of_mem_head? hc
    have hin := hhead hne c hc'
    simp only [List.mem_cons, List.not_mem_nil, or_false] at hin
    rcases hin with rfl | rfl | rfl
    · rfl
    · exact absurd hmem not_mem_partition
    · exact absurd (hmark.1 hmem) not_mem_partition

end Reading

/-! ## The round trip -/

section Writing

variable {badNetloc : List Char → Bool} {r : SplitResult}

/-- Query and fragment, with what announces them. -/
def tailText (r : SplitResult) : List Char :=
  (if r.query = [] then [] else '?' :: r.query) ++ (if r.fragment = [] then [] else '#' :: r.fragment)

/-- The host part, with what announces it. -/
def authorityText (r : SplitResult) : List Char :=
  if r.netloc = [] then (if r.path.take 2 = ['/', '/'] then ['/', '/'] else []) else '/' :: '/' :: r.netloc

theorem urlunsplit_eq (h : WellFormed r) :
    urlunsplit r = r.scheme ++ ':' :: (authorityText r ++ (r.path ++ tailText r)) := by
  have hscheme : r.scheme ≠ [] := by
    intro heq
    have := h.scheme
    rw [heq] at this
    exact absurd this (by decide)
  have hpath : r.netloc ≠ [] → (if r.path = [] ∨ r.path.head? = some '/' then r.path else '/' :: r.path) = r.path := by
    intro hne
    refine if_pos ?_
    cases hp : r.path with
    | nil => exact .inl rfl
    | cons c cs => exact .inr (congrArg some (h.rooted hne c (by rw [hp]; rfl)))
  unfold urlunsplit authorityText tailText
  dsimp only
  rw [if_neg hscheme]
  by_cases hne : r.netloc = []
  · rw [if_pos hne, if_pos hne]
    split_ifs <;> simp
  · rw [if_neg hne, if_neg hne]
    simp only [Bool.or_eq_true, decide_eq_true_eq] at hpath ⊢
    rw [hpath hne]
    split_ifs <;> simp

/-- The schemes of a DSN are in lower case, and nothing in them ends a scheme. -/
structure SchemeText (s : List Char) : Prop where
  colon : ':' ∉ s
  valid : ((s.head?.any Char.isAlpha) && s.all schemeChar) = true
  lower : s.map Char.toLower = s
  visible : ∀ c ∈ s.head?, ¬ c.toNat ≤ 32
  nonempty : s ≠ []
  clean : ∀ c ∈ s, Clean c

theorem schemeText {s : List Char} (h : isDsnScheme s = true) : SchemeText s := by
  unfold isDsnScheme at h
  simp only [List.contains_iff_mem, List.mem_cons, List.not_mem_nil, or_false] at h
  rcases h with rfl | rfl | rfl
  · exact ⟨by decide, by decide, by decide, by rintro c ⟨⟩; decide, by decide, forall_mem_of_all (by decide)⟩
  · exact ⟨by decide, by decide, by decide, by rintro c ⟨⟩; decide, by decide, forall_mem_of_all (by decide)⟩
  · exact ⟨by decide, by decide, by decide, by rintro c ⟨⟩; decide, by decide, forall_mem_of_all (by decide)⟩

theorem cleanUrl_of_clean {s : List Char} (hhead : ∀ c ∈ s.head?, ¬ c.toNat ≤ 32) (hclean : ∀ c ∈ s, Clean c) :
    cleanUrl s = s := by
  unfold cleanUrl
  rw [Unicode.dropWhile_of_head fun c hc => decide_eq_false (hhead c hc)]
  exact List.filter_eq_self.mpr fun c hc => decide_eq_true (hclean c hc)

theorem takeScheme_append {s rest : List Char} (hs : SchemeText s) : takeScheme (s ++ ':' :: rest) = (s, rest) := by
  unfold takeScheme
  rw [partition_append hs.colon]
  dsimp only
  rw [if_pos hs.valid, hs.lower]

theorem tailText_head : ∀ c ∈ (tailText r).head?, c = '?' ∨ c = '#' := by
  unfold tailText
  intro c hc
  split_ifs at hc
  · simp at hc
  · exact .inr (Option.some.inj hc).symm
  · exact .inl (Option.some.inj hc).symm
  · exact .inl (Option.some.inj hc).symm

/-- What follows the host part begins with what ends it. -/
theorem path_head (h : WellFormed r) (hne : r.netloc ≠ []) :
    ∀ c ∈ (r.path ++ tailText r).head?, c ∈ ['/', '?', '#'] := by
  intro c hc
  cases hp : r.path with
  | nil =>
    rw [hp, List.nil_append] at hc
    rcases tailText_head c hc with rfl | rfl
    · decide
    · decide
  | cons d path =>
    rw [hp] at hc
    obtain rfl := Option.some.inj hc
    have hslash := h.rooted hne d (by rw [hp]; rfl)
    rw [hslash]
    decide

/-- Only a path begins with two slashes. -/
theorem two_slashes (h : ['/', '/'] <+: r.path ++ tailText r) : r.path.take 2 = ['/', '/'] := by
  obtain ⟨rest, heq⟩ := h
  have hslash : (tailText r).head? ≠ some '/' := by
    intro hhead
    rcases tailText_head '/' hhead with h | h
    · exact absurd h (by decide)
    · exact absurd h (by decide)
  cases hp : r.path with
  | nil =>
    rw [hp, List.nil_append] at heq
    exact absurd (by rw [← heq]; rfl) hslash
  | cons d path =>
    rw [hp] at heq
    obtain ⟨rfl, hmore⟩ := List.cons.inj heq
    cases path with
    | nil => exact absurd (by rw [show tailText r = '/' :: rest from hmore.symm]; rfl) hslash
    | cons e path =>
      obtain ⟨rfl, -⟩ := List.cons.inj hmore
      rfl

/-- What is announced by slashes is the host part, up to what ends it. -/
theorem takeNetloc_append {net rest : List Char} (hnet : ∀ c ∈ net, c ∉ ['/', '?', '#'])
    (hrest : ∀ c ∈ rest.head?, c ∈ ['/', '?', '#']) : takeNetloc ('/' :: '/' :: (net ++ rest)) = (net, rest) := by
  have hpos : ∀ c ∈ net, (decide (c ∉ ['/', '?', '#'])) = true := fun c hc => decide_eq_true (hnet c hc)
  have hstop : ∀ c ∈ rest.head?, (decide (c ∉ ['/', '?', '#'])) = false := fun c hc =>
    decide_eq_false (not_not.mpr (hrest c hc))
  show ((net ++ rest).takeWhile _, (net ++ rest).dropWhile _) = _
  rw [List.takeWhile_append_of_pos hpos, List.dropWhile_append_of_pos hpos, Unicode.dropWhile_of_head hstop]
  cases rest with
  | nil => simp
  | cons c rest =>
    rw [List.takeWhile_cons_of_neg (by rw [hstop c rfl]; exact Bool.false_ne_true), List.append_nil]

theorem takeNetloc_authorityText (h : WellFormed r) :
    takeNetloc (authorityText r ++ (r.path ++ tailText r)) = (r.netloc, r.path ++ tailText r) := by
  unfold authorityText
  by_cases hne : r.netloc = []
  · rw [if_pos hne, hne]
    split_ifs with htwo
    · -- the slashes that announce an empty host part are followed by one that ends it
      refine @takeNetloc_append [] _ (by simp) fun c hc => ?_
      cases hp : r.path with
      | nil =>
        rw [hp] at htwo
        simp at htwo
      | cons d path =>
        rw [hp] at hc htwo
        obtain rfl := Option.some.inj hc
        simp only [List.take_succ_cons, List.cons.injEq] at htwo
        rw [htwo.1]
        decide
    · rw [List.nil_append]
      unfold takeNetloc
      split
      · rename_i rest heq
        exact absurd (two_slashes ⟨rest, heq.symm⟩) htwo
      · rfl
  · rw [if_neg hne]
    exact takeNetloc_append (fun c hc => (h.netloc c hc).1) (path_head h hne)

theorem takePath_tailText (h : WellFormed r) : takePath (r.path ++ tailText r) = (r.path, r.query, r.fragment) := by
  have hpath : '#' ∉ r.path := fun hmem => (h.path '#' hmem).2.1 rfl
  have hpath' : '?' ∉ r.path := fun hmem => (h.path '?' hmem).1 rfl
  have hquery : '#' ∉ r.query := fun hmem => (h.query '#' hmem).1 rfl
  have hsharp : (partition '#' (r.path ++ tailText r)).1 = r.path ++ (if r.query = [] then [] else '?' :: r.query) ∧
      (partition '#' (r.path ++ tailText r)).2.2 = r.fragment := by
    have hfree : '#' ∉ r.path ++ (if r.query = [] then [] else '?' :: r.query) := by
      split_ifs
      · simpa using hpath
      · simp [hpath, hquery]
    unfold tailText
    rw [← List.append_assoc]
    by_cases hf : r.fragment = []
    · rw [if_pos hf, List.append_nil, partition_of_not_mem hfree, hf]
      exact ⟨rfl, rfl⟩
    · rw [if_neg hf, partition_append hfree]
      exact ⟨rfl, rfl⟩
  unfold takePath
  rw [hsharp.1, hsharp.2]
  by_cases hq : r.query = []
  · rw [if_pos hq, List.append_nil, partition_of_not_mem hpath', hq]
  · rw [if_neg hq, partition_append hpath']

/-- A text is as long as what is written of its parts, or longer. -/
theorem takePath_length (rest : List Char) (h : takePath rest = (r.path, r.query, r.fragment)) :
    (r.path ++ tailText r).length ≤ rest.length := by
  obtain ⟨hpath, hquery, hfragment⟩ : _ = r.path ∧ _ = r.query ∧ _ = r.fragment := by
    simpa [takePath, Prod.ext_iff] using h
  have hquestion : ∀ s, ((partition '?' s).1 ++ (if (partition '?' s).2.2 = [] then [] else
      '?' :: (partition '?' s).2.2)).length ≤ s.length := by
    intro s
    rcases partition_cases '?' s with ⟨-, heq⟩ | ⟨a, b, -, rfl, heq⟩
    · rw [heq]
      simp
    · rw [heq]
      split_ifs <;> simp
  unfold tailText
  rw [← hpath, ← hquery, ← hfragment, ← List.append_assoc, List.length_append]
  have hle := hquestion (partition '#' rest).1
  rcases partition_cases '#' rest with ⟨-, heq⟩ | ⟨a, b, -, rfl, heq⟩
  · rw [heq] at hle ⊢
    simpa using hle
  · rw [heq] at hle ⊢
    simp only [List.length_append, List.length_cons] at hle ⊢
    split_ifs at hle ⊢ <;> simp only [List.length_cons, List.length_nil] at hle ⊢ <;> omega

theorem urlunsplit_clean (h : WellFormed r) : ∀ c ∈ urlunsplit r, Clean c := by
  have hmark : ∀ c ∈ [':', '/', '?', '#'], Clean c := forall_mem_of_all (by decide)
  have htail : ∀ c ∈ tailText r, Clean c := by
    unfold tailText
    intro c hc
    rcases List.mem_append.mp hc with hc | hc
    · split_ifs at hc
      · simp at hc
      · rcases List.mem_cons.mp hc with rfl | hc
        · exact hmark _ (by decide)
        · exact (h.query c hc).2
    · split_ifs at hc
      · simp at hc
      · rcases List.mem_cons.mp hc with rfl | hc
        · exact hmark _ (by decide)
        · exact h.fragment c hc
  have hauthority : ∀ c ∈ authorityText r, Clean c := by
    unfold authorityText
    intro c hc
    split_ifs at hc
    · have hsub : ['/', '/'] ⊆ [':', '/', '?', '#'] := by decide
      exact hmark c (hsub hc)
    · simp at hc
    · rcases List.mem_cons.mp hc with rfl | hc
      · exact hmark _ (by decide)
      · rcases List.mem_cons.mp hc with rfl | hc
        · exact hmark _ (by decide)
        · exact (h.netloc c hc).2
  rw [urlunsplit_eq h]
  intro c hc
  rcases List.mem_append.mp hc with hc | hc
  · exact (schemeText h.scheme).clean c hc
  · rcases List.mem_cons.mp hc with rfl | hc
    · exact hmark _ (by decide)
    · rcases List.mem_append.mp hc with hc | hc
      · exact hauthority c hc
      · rcases List.mem_append.mp hc with hc | hc
        · exact (h.path c hc).2.2
        · exact htail c hc

/-- The parts of a text that begins with a scheme and a host part. -/
theorem urlParts_append {scheme net rest : List Char} (hscheme : SchemeText scheme)
    (hclean : ∀ c ∈ scheme ++ ':' :: '/' :: '/' :: (net ++ rest), Clean c)
    (hnet : ∀ c ∈ net, c ∉ ['/', '?', '#']) (hrest : ∀ c ∈ rest.head?, c ∈ ['/', '?', '#']) :
    urlParts (scheme ++ ':' :: '/' :: '/' :: (net ++ rest)) =
      ⟨scheme, net, (takePath rest).1, (takePath rest).2.1, (takePath rest).2.2⟩ := by
  have hhead : ∀ c ∈ (scheme ++ ':' :: '/' :: '/' :: (net ++ rest)).head?, ¬ c.toNat ≤ 32 := by
    intro c hc
    refine hscheme.visible c ?_
    rwa [List.head?_append_of_ne_nil _ hscheme.nonempty] at hc
  unfold urlParts
  rw [cleanUrl_of_clean hhead hclean, takeScheme_append hscheme]
  dsimp only
  rw [takeNetloc_append hnet hrest]

/-- **The round trip.** -/
theorem urlParts_urlunsplit (h : WellFormed r) : urlParts (urlunsplit r) = r := by
  have hscheme := schemeText h.scheme
  have hhead : ∀ c ∈ (urlunsplit r).head?, ¬ c.toNat ≤ 32 := by
    rw [urlunsplit_eq h]
    intro c hc
    refine hscheme.visible c ?_
    rwa [List.head?_append_of_ne_nil _ hscheme.nonempty] at hc
  unfold urlParts
  rw [cleanUrl_of_clean hhead (urlunsplit_clean h), urlunsplit_eq h, takeScheme_append hscheme]
  dsimp only
  rw [takeNetloc_authorityText h]
  dsimp only
  rw [takePath_tailText h]

theorem urlsplit_urlunsplit (h : WellFormed r) : urlsplit badNetloc (urlunsplit r) =
    if netlocFails badNetloc r.netloc then .error (.valueError "Invalid IPv6 URL") else .ok r := by
  rw [urlsplit_eq, urlParts_urlunsplit h]

theorem urlunsplit_inj {r' : SplitResult} (h : WellFormed r) (h' : WellFormed r')
    (heq : urlunsplit r = urlunsplit r') : r = r' := by
  rw [← urlParts_urlunsplit h, heq, urlParts_urlunsplit h']

end Writing

end AgentHarness
