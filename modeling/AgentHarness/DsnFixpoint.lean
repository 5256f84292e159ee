import AgentHarness.DsnReadBack
import AgentHarness.PilotReport

/-!
# DsnFixpoint — the texts that a second pass leaves as the first one wrote them

Under a sensitive key a text is masked or, if it is a DSN, rewritten (`redactText`); elsewhere only a DSN with
a password is rewritten (`redactDsnIfNeeded`).  `SecretSteady` and `TextSteady` say of which texts the first
pass makes one that the second leaves.
-/

namespace AgentHarness

open Lib SplitResult

/-! ## Masks -/

section Mask

variable {u : Unicode} {s : List Char}

theorem maskPlainText_cases (u : Unicode) (s : List Char) : maskPlainText u s = "***".toList ∨
    ∃ a b c d, u.isSpace a = false ∧ u.isSpace d = false ∧ maskPlainText u s = [a, b, '*', '*', '*', c, d] := by
  have hfirst := Unicode.strip_head (u := u) (s := s)
  have hlast := Unicode.strip_last (u := u) (s := s)
  unfold maskPlainText
  generalize u.strip s = cleaned at *
  dsimp only
  split_ifs with hlen
  · exact .inl rfl
  · right
    have htake : (cleaned.take 2).length = 2 := by rw [List.length_take]; omega
    have hdrop : (cleaned.drop (cleaned.length - 2)).length = 2 := by rw [List.length_drop]; omega
    obtain ⟨a, b, hab⟩ := List.length_eq_two.mp htake
    obtain ⟨c, d, hcd⟩ := List.length_eq_two.mp hdrop
    refine ⟨a, b, c, d, hfirst a ?_, hlast d ?_, ?_⟩
    · rw [← List.take_append_drop 2 cleaned, hab]
      rfl
    · rw [← List.take_append_drop (cleaned.length - 2) cleaned, hcd]
      simp
    · rw [hab, hcd]
      rfl

/-- A mask is its own mask. -/
theorem maskPlainText_mask : maskPlainText u (maskPlainText u s) = maskPlainText u s := by
  have hstar : u.isSpace '*' = false := by
    rw [u.isSpace_ascii _ (by decide)]
    decide
  rcases maskPlainText_cases u s with h | ⟨a, b, c, d, ha, hd, h⟩
  · have hstrip : u.strip "***".toList = "***".toList :=
      Unicode.strip_of_ends (by rintro c ⟨⟩; exact hstar) (by rintro c ⟨⟩; exact hstar)
    rw [h, maskPlainText, hstrip]
    rfl
  · have hstrip : u.strip [a, b, '*', '*', '*', c, d] = [a, b, '*', '*', '*', c, d] :=
      Unicode.strip_of_ends (by rintro c ⟨⟩; exact ha) (by rintro c ⟨⟩; exact hd)
    rw [h, maskPlainText, hstrip]
    rfl

theorem slashes_not_mask : ¬ "://".toList <:+: maskPlainText u s := by
  intro h
  rcases maskPlainText_cases u s with heq | ⟨a, b, c, d, -, -, heq⟩
  · rw [heq] at h
    exact absurd h (by decide)
  · rw [heq] at h
    simp [List.infix_cons_iff, List.cons_prefix_cons] at h

theorem maskPlainText_third : (maskPlainText u s)[2]? = some '*' := by
  rcases maskPlainText_cases u s with heq | ⟨a, b, c, d, -, -, heq⟩
  · rw [heq]
    rfl
  · rw [heq]
    rfl

end Mask

/-! ## The DSN that a text is -/

def dsnOf (badNetloc : List Char → Bool) (text : List Char) : Option SplitResult :=
  if "://".toList <:+: text then match urlsplit badNetloc text with
    | .error _ => none
    | .ok parsed => if isDsnScheme parsed.scheme then some parsed else none
  else none

/-- The DSN with the host part that `safeNetloc` writes. -/
def rewriteDsn (u : Unicode) (parsed : SplitResult) : Except PyExc PyVal :=
  (safeNetloc u parsed).bind fun netloc => .ok (.str (String.ofList (urlunsplit { parsed with netloc := netloc })))

section Dsn

variable {u : Unicode} {badNetloc : List Char → Bool} {text : List Char} {r : SplitResult}

theorem dsnOf_some (h : dsnOf badNetloc text = some r) :
    WellFormed r ∧ netlocFails badNetloc r.netloc = false := by
  unfold dsnOf at h
  split_ifs at h with hslashes
  cases hparsed : urlsplit badNetloc text with
  | error e => simp [hparsed] at h
  | ok parsed =>
    simp only [hparsed, Option.ite_none_right_eq_some, Option.some.injEq] at h
    obtain ⟨hscheme, rfl⟩ := h
    exact wellFormed_of_urlsplit hparsed hscheme

theorem redactText_eq (u : Unicode) (badNetloc : List Char → Bool) (s : String) :
    redactText u badNetloc s = match dsnOf badNetloc s.toList with
      | none => .ok (.str (String.ofList (maskPlainText u s.toList)))
      | some parsed => if parsed.userinfo = none then .ok (.str (String.ofList (urlunsplit parsed)))
        else rewriteDsn u parsed := by
  unfold redactText dsnOf
  by_cases hslashes : "://".toList <:+: s.toList
  · rw [if_pos hslashes, if_pos hslashes]
    unfold redactDsn
    cases urlsplit badNetloc s.toList with
    | error e => rfl
    | ok parsed =>
      dsimp only
      cases isDsnScheme parsed.scheme with
      | false => rfl
      | true =>
        have hnone : (decide (parsed.username = none) && decide (parsed.password = none)) = true ↔
            parsed.userinfo = none := by
          unfold username password
          cases parsed.userinfo <;> simp
        simp only [Bool.not_true, Bool.false_eq_true, if_false, if_true, hnone]
        split_ifs
        · rfl
        · unfold rewriteDsn
          cases safeNetloc u parsed <;> rfl
  · rw [if_neg hslashes, if_neg hslashes]
    rfl

theorem redactDsnIfNeeded_eq (env : PilotEnv) (s : String) :
    PilotReport.redactDsnIfNeeded env s = match dsnOf env.badNetloc (env.unicode.strip s.toList) with
      | none => .ok (.str s)
      | some parsed => if parsed.password = none then .ok (.str s) else rewriteDsn env.unicode parsed := by
  unfold PilotReport.redactDsnIfNeeded dsnOf
  by_cases hslashes : "://".toList <:+: env.unicode.strip s.toList
  · have hne : ¬ (env.unicode.strip s.toList = [] ∨ ¬ "://".toList <:+: env.unicode.strip s.toList) := by
      rintro (hnil | hnot)
      · rw [hnil] at hslashes
        exact absurd hslashes (by decide)
      · exact hnot hslashes
    rw [if_pos hslashes, if_neg hne]
    cases urlsplit env.badNetloc (env.unicode.strip s.toList) with
    | error e => rfl
    | ok parsed =>
      dsimp only
      cases isDsnScheme parsed.scheme with
      | false => rfl
      | true => rfl
  · rw [if_neg hslashes, if_pos (.inr hslashes)]

theorem rewriteDsn_eq : rewriteDsn u r = r.port.bind fun port =>
    .ok (.str (String.ofList (urlunsplit (r.masked u port)))) := by
  unfold rewriteDsn
  rw [safeNetloc_eq]
  cases r.port <;> rfl

/-- What is read of a DSN that is written. -/
theorem dsnOf_urlunsplit (h : WellFormed r) (hslashes : "://".toList <:+: urlunsplit r) :
    dsnOf badNetloc (urlunsplit r) = if netlocFails badNetloc r.netloc then none else some r := by
  unfold dsnOf
  rw [if_pos hslashes, urlsplit_urlunsplit h]
  cases netlocFails badNetloc r.netloc with
  | true => rfl
  | false => exact if_pos h.scheme

/-- The third character of a DSN is a letter. -/
theorem urlunsplit_ne_mask (h : WellFormed r) (s : List Char) : maskPlainText u s ≠ urlunsplit r := by
  intro heq
  have hthird := maskPlainText_third (u := u) (s := s)
  have hscheme := h.scheme
  rw [heq, urlunsplit_eq h] at hthird
  unfold isDsnScheme at hscheme
  simp only [List.contains_iff_mem, List.mem_cons, List.not_mem_nil, or_false] at hscheme
  rcases hscheme with hs | hs | hs <;> rw [hs] at hthird <;> simp at hthird

/-- A colon and two slashes are left when a DSN is written without slashes for an empty host part. -/
def KeepsSlashes (r : SplitResult) : Prop :=
  r.netloc ≠ [] ∨ r.path.take 2 = ['/', '/'] ∨ "://".toList <:+: r.path ++ tailText r

theorem keepsSlashes_iff (h : WellFormed r) : "://".toList <:+: urlunsplit r ↔ KeepsSlashes r := by
  have hslashes : "://".toList <:+: urlunsplit r ↔ ['/', '/'] <+: authorityText r ++ (r.path ++ tailText r) ∨
      "://".toList <:+: authorityText r ++ (r.path ++ tailText r) := by
    rw [urlunsplit_eq h]
    exact infix_append_cons (schemeText h.scheme).colon
  rw [hslashes]
  unfold KeepsSlashes authorityText
  by_cases hnet : r.netloc = []
  · rw [if_pos hnet]
    by_cases hpath : r.path.take 2 = ['/', '/']
    · rw [if_pos hpath]
      exact iff_of_true (.inl (List.prefix_append _ _)) (.inr (.inl hpath))
    · rw [if_neg hpath, List.nil_append]
      have hnot : ¬ ['/', '/'] <+: r.path ++ tailText r := fun hstart => hpath (two_slashes hstart)
      rw [or_iff_right hnot, or_iff_right (not_not.mpr hnet), or_iff_right hpath]
  · rw [if_neg hnet]
    exact iff_of_true (.inl ⟨_, rfl⟩) (.inl hnet)

/-- A DSN that was rewritten is rewritten to itself exactly if host and port are read back. -/
theorem rewriteDsn_masked_iff (hu : LowerLaws u) (h : WellFormed r) (hne : r.netloc ≠ []) {port : Option Nat}
    (hport : r.port = .ok port) :
    rewriteDsn u (r.masked u port) = .ok (.str (String.ofList (urlunsplit (r.masked u port)))) ↔
      HostSteady (r.hostname u) port := by
  have hmasked : WellFormed (r.masked u port) := wellFormed_masked hu h hne
  rw [← safeNetloc_masked_iff hu r hport, rewriteDsn_eq, safeNetloc_eq]
  cases (r.masked u port).port with
  | error e => exact iff_of_false (fun h => nomatch h) (fun h => nomatch h)
  | ok port₂ =>
    show Except.ok _ = Except.ok _ ↔ Except.ok _ = Except.ok _
    rw [Except.ok.injEq, Except.ok.injEq, PyVal.str.injEq]
    constructor
    · intro heq
      have hsame := urlunsplit_inj (wellFormed_masked hu hmasked (maskedNetloc_ne_nil r port)) hmasked
        (String.ofList_injective heq)
      exact congrArg SplitResult.netloc hsame
    · intro heq
      unfold masked at heq ⊢
      rw [heq]

theorem slashes_masked (hu : LowerLaws u) (h : WellFormed r) (hne : r.netloc ≠ []) {port : Option Nat} :
    "://".toList <:+: urlunsplit (r.masked u port) :=
  (keepsSlashes_iff (wellFormed_masked hu h hne)).mpr (.inl (maskedNetloc_ne_nil r port))

theorem netloc_ne_nil (h : r.userinfo ≠ none) : r.netloc ≠ [] := by
  intro hnil
  apply h
  unfold userinfo
  rw [hnil]
  rfl

end Dsn

/-! ## Under a sensitive key -/

/-- A pass writes a text that the next pass leaves. -/
def SettledText (pass : String → Except PyExc PyVal) (s : String) : Prop :=
  ∃ t, pass s = .ok (.str t) ∧ pass t = .ok (.str t)

/-- A DSN without credentials keeps its slashes.  One with credentials has a port that can be read, what is
written for its host part passes the checks, and host and port are read back. -/
def SecretSteady (u : Unicode) (badNetloc : List Char → Bool) (s : String) : Prop :=
  ∀ parsed, dsnOf badNetloc s.toList = some parsed →
    (parsed.userinfo = none → KeepsSlashes parsed) ∧
    (parsed.userinfo ≠ none → ∃ port, parsed.port = .ok port ∧
      netlocFails badNetloc (parsed.maskedNetloc u port) = false ∧ HostSteady (parsed.hostname u) port)

section Secret

variable {u : Unicode} {badNetloc : List Char → Bool} {s : String}

theorem redactText_mask (h : dsnOf badNetloc s.toList = none) :
    redactText u badNetloc s = .ok (.str (String.ofList (maskPlainText u s.toList))) := by
  rw [redactText_eq, h]

theorem redactText_mask_mask (u : Unicode) (badNetloc : List Char → Bool) (s : List Char) :
    redactText u badNetloc (String.ofList (maskPlainText u s)) = .ok (.str (String.ofList (maskPlainText u s))) := by
  have hnone : dsnOf badNetloc (maskPlainText u s) = none := if_neg slashes_not_mask
  rw [redactText_mask (by rw [String.toList_ofList]; exact hnone), String.toList_ofList, maskPlainText_mask]

/-- A DSN is not settled where it is masked. -/
theorem redactText_urlunsplit_ne {r : SplitResult} (h : WellFormed r) (hnone : dsnOf badNetloc (urlunsplit r) = none) :
    redactText u badNetloc (String.ofList (urlunsplit r)) ≠ .ok (.str (String.ofList (urlunsplit r))) := by
  rw [redactText_mask (by rw [String.toList_ofList]; exact hnone), String.toList_ofList]
  intro heq
  exact urlunsplit_ne_mask h (urlunsplit r) (String.ofList_injective (PyVal.str.inj (Except.ok.inj heq)))

theorem redactText_settled_iff (hu : LowerLaws u) :
    SettledText (redactText u badNetloc) s ↔ SecretSteady u badNetloc s := by
  unfold SettledText SecretSteady
  cases hdsn : dsnOf badNetloc s.toList with
  | none =>
    refine iff_of_true ⟨_, redactText_mask hdsn, ?_⟩ (fun _ h => nomatch h)
    exact redactText_mask_mask u badNetloc s.toList
  | some parsed =>
    obtain ⟨hformed, hpasses⟩ := dsnOf_some hdsn
    simp only [Option.some.injEq, forall_eq']
    by_cases hinfo : parsed.userinfo = none
    · have hfirst : redactText u badNetloc s = .ok (.str (String.ofList (urlunsplit parsed))) := by
        rw [redactText_eq, hdsn]
        exact if_pos hinfo
      simp only [hfirst, hinfo, Except.ok.injEq, PyVal.str.injEq, exists_eq_left', ne_eq, not_true_eq_false,
        false_implies, and_true, true_implies]
      by_cases hslashes : "://".toList <:+: urlunsplit parsed
      · refine iff_of_true ?_ ((keepsSlashes_iff hformed).mp hslashes)
        have hagain : dsnOf badNetloc (urlunsplit parsed) = some parsed := by
          rw [dsnOf_urlunsplit hformed hslashes, hpasses]
          rfl
        rw [redactText_eq, String.toList_ofList, hagain]
        exact if_pos hinfo
      · refine iff_of_false ?_ fun h => hslashes ((keepsSlashes_iff hformed).mpr h)
        exact redactText_urlunsplit_ne hformed (if_neg hslashes)
    · have hne := netloc_ne_nil hinfo
      have hfirst : redactText u badNetloc s = rewriteDsn u parsed := by
        rw [redactText_eq, hdsn]
        exact if_neg hinfo
      rw [hfirst, rewriteDsn_eq]
      cases hport : parsed.port with
      | error e =>
        refine iff_of_false ?_ ?_
        · rintro ⟨t, h, -⟩
          exact nomatch h
        · intro h
          obtain ⟨port, h, -⟩ := h.2 hinfo
          exact nomatch h
      | ok port =>
        have hmasked : WellFormed (parsed.masked u port) := wellFormed_masked hu hformed hne
        have hagain := @dsnOf_urlunsplit badNetloc _ hmasked (slashes_masked hu hformed hne)
        simp only [Except.bind, hinfo, Except.ok.injEq, PyVal.str.injEq, exists_eq_left', ne_eq, not_false_eq_true,
          false_implies, true_and, true_implies]
        cases hfails : netlocFails badNetloc (parsed.maskedNetloc u port) with
        | true =>
          refine iff_of_false ?_ fun h => nomatch h.1
          refine redactText_urlunsplit_ne hmasked ?_
          rw [hagain]
          exact if_pos hfails
        | false =>
          have hsome : dsnOf badNetloc (urlunsplit (parsed.masked u port)) = some (parsed.masked u port) := by
            rw [hagain]
            exact if_neg fun h => Bool.false_ne_true (hfails.symm.trans h)
          have hcredentials : (parsed.masked u port).userinfo ≠ none := by
            rw [userinfo_masked hu]
            exact Option.some_ne_none _
          rw [redactText_eq, String.toList_ofList, hsome]
          dsimp only
          rw [if_neg hcredentials, rewriteDsn_masked_iff hu hformed hne hport]
          exact (and_iff_right rfl).symm

end Secret

/-! ## Elsewhere -/

/-- Host and port, as they are written. -/
def hostText (u : Unicode) (r : SplitResult) (port : Option Nat) : List Char := r.hostname u ++ portText port

/-- Host and port, when the text of the DSN has lost the white space at its end. -/
def shownHost (u : Unicode) (r : SplitResult) (port : Option Nat) : List Char :=
  if r.path ++ tailText r = [] then Unicode.dropEnd u.isSpace (hostText u r port) else hostText u r port

def shownNetloc (u : Unicode) (r : SplitResult) (port : Option Nat) : List Char :=
  r.safeUser ++ ":***".toList ++ '@' :: shownHost u r port

/-- A DSN with a password has a port that can be read.  Without the white space at its end, what is written is no
URL that passes the checks; or there is no such white space, and host and port are read back. -/
def TextSteady (u : Unicode) (badNetloc : List Char → Bool) (s : String) : Prop :=
  ∀ parsed, dsnOf badNetloc (u.strip s.toList) = some parsed → parsed.password ≠ none →
    ∃ port, parsed.port = .ok port ∧ (netlocFails badNetloc (shownNetloc u parsed port) = true ∨
      (∀ c ∈ (hostText u parsed port ++ (parsed.path ++ tailText parsed)).getLast?, u.isSpace c = false) ∧
        HostSteady (parsed.hostname u) port)

section Elsewhere

variable {u : Unicode} {badNetloc : List Char → Bool} {r : SplitResult} {port : Option Nat}

/-- The DSN that the second pass reads. -/
def shown (u : Unicode) (r : SplitResult) (port : Option Nat) : SplitResult where
  scheme := r.scheme
  netloc := shownNetloc u r port
  path := (takePath (Unicode.dropEnd u.isSpace (r.path ++ tailText r))).1
  query := (takePath (Unicode.dropEnd u.isSpace (r.path ++ tailText r))).2.1
  fragment := (takePath (Unicode.dropEnd u.isSpace (r.path ++ tailText r))).2.2

theorem not_space_of_mem {c : Char} {marks : List Char} (hmarks : ∀ c ∈ marks, isAscii c = true ∧ asciiSpace c = false)
    (hc : c ∈ marks) : u.isSpace c = false := by
  rw [u.isSpace_ascii c (hmarks c hc).1]
  exact (hmarks c hc).2

theorem masked_text (hu : LowerLaws u) (h : WellFormed r) (hne : r.netloc ≠ []) :
    urlunsplit (r.masked u port) = r.scheme ++ ':' :: '/' :: '/' ::
      (r.safeUser ++ ":***".toList ++ '@' :: (hostText u r port ++ (r.path ++ tailText r))) := by
  have hauthority : authorityText (r.masked u port) = '/' :: '/' :: r.maskedNetloc u port :=
    if_neg (maskedNetloc_ne_nil r port)
  rw [urlunsplit_eq (wellFormed_masked hu h hne), hauthority]
  show r.scheme ++ ':' :: ('/' :: '/' :: r.maskedNetloc u port ++ (r.path ++ tailText r)) = _
  unfold maskedNetloc hostText
  simp

theorem strip_masked (hu : LowerLaws u) (h : WellFormed r) (hne : r.netloc ≠ []) :
    u.strip (urlunsplit (r.masked u port)) =
      r.scheme ++ ':' :: '/' :: '/' :: (shownNetloc u r port ++ Unicode.dropEnd u.isSpace (r.path ++ tailText r)) := by
  have hscheme := schemeText h.scheme
  have hfirst : ∀ c ∈ r.scheme.head?, u.isSpace c = false := by
    have hdsn := h.scheme
    unfold isDsnScheme at hdsn
    simp only [List.contains_iff_mem, List.mem_cons, List.not_mem_nil, or_false] at hdsn
    have hletters : ∀ c ∈ ['p', 'r'], isAscii c = true ∧ asciiSpace c = false := forall_mem_of_all (by decide)
    rcases hdsn with hs | hs | hs <;> rw [hs] <;> rintro c ⟨⟩ <;> exact not_space_of_mem hletters (by decide)
  have hrest : ∀ c ∈ (r.path ++ tailText r).head?, u.isSpace c = false := fun c hc =>
    not_space_of_mem (forall_mem_of_all (by decide)) (path_head h hne c hc)
  have hlast : ∀ c ∈ (r.scheme ++ ':' :: '/' :: '/' :: (r.safeUser ++ ":***".toList) ++ ['@']).getLast?,
      u.isSpace c = false := by
    intro c hc
    rw [List.getLast?_concat] at hc
    exact @not_space_of_mem u c ['@'] (forall_mem_of_all (by decide)) (List.mem_singleton.mpr (Option.some.inj hc).symm)
  have htext : urlunsplit (r.masked u port) =
      (r.scheme ++ ':' :: '/' :: '/' :: (r.safeUser ++ ":***".toList) ++ ['@']) ++
      (hostText u r port ++ (r.path ++ tailText r)) := by
    rw [masked_text hu h hne]
    simp
  have hhead : ∀ c ∈ (urlunsplit (r.masked u port)).head?, u.isSpace c = false := by
    rw [masked_text hu h hne]
    intro c hc
    refine hfirst c ?_
    rwa [List.head?_append_of_ne_nil _ hscheme.nonempty] at hc
  unfold Unicode.strip
  rw [Unicode.dropWhile_of_head hhead, htext, Unicode.dropEnd_append hlast, Unicode.dropEnd_append_head hrest]
  unfold shownNetloc shownHost
  simp

theorem dropEnd_rest_head (h : WellFormed r) (hne : r.netloc ≠ []) :
    ∀ c ∈ (Unicode.dropEnd u.isSpace (r.path ++ tailText r)).head?, c ∈ ['/', '?', '#'] := by
  intro c hc
  obtain ⟨more, hmore⟩ : Unicode.dropEnd u.isSpace (r.path ++ tailText r) <+: r.path ++ tailText r :=
    Unicode.dropEnd_start
  refine path_head h hne c ?_
  rw [← hmore]
  exact List.mem_head?_append_of_mem_head? hc

theorem shownHost_start : shownHost u r port <+: hostText u r port := by
  unfold shownHost
  split_ifs
  · exact Unicode.dropEnd_start
  · exact List.prefix_rfl

/-- **What the second pass reads.** -/
theorem dsnOf_strip_masked (hu : LowerLaws u) (h : WellFormed r) (hne : r.netloc ≠ []) :
    dsnOf badNetloc (u.strip (urlunsplit (r.masked u port))) =
      if netlocFails badNetloc (shownNetloc u r port) then none else some (shown u r port) := by
  have hmasked : WellFormed (r.masked u port) := wellFormed_masked hu h hne
  have hnetloc : ∀ c ∈ shownNetloc u r port, c ∉ ['/', '?', '#'] := by
    intro c hc
    refine (hmasked.netloc c ?_).1
    rcases List.mem_append.mp hc with hc | hc
    · exact List.mem_append_left _ hc
    · refine List.mem_append_right _ ?_
      rcases List.mem_cons.mp hc with rfl | hc
      · exact List.mem_cons_self
      · exact List.mem_cons_of_mem _ (shownHost_start.subset hc)
  have hclean : ∀ c ∈ u.strip (urlunsplit (r.masked u port)), Clean c := by
    intro c hc
    exact urlunsplit_clean hmasked c ((List.dropWhile_suffix _).subset (Unicode.dropEnd_start.subset hc))
  have hslashes : "://".toList <:+: u.strip (urlunsplit (r.masked u port)) := by
    rw [strip_masked hu h hne]
    exact (infix_append_cons (schemeText h.scheme).colon).mpr (.inl ⟨_, rfl⟩)
  unfold dsnOf
  rw [if_pos hslashes, urlsplit_eq]
  rw [strip_masked hu h hne] at hclean ⊢
  have hparts : urlParts (r.scheme ++ ':' :: '/' :: '/' ::
      (shownNetloc u r port ++ Unicode.dropEnd u.isSpace (r.path ++ tailText r))) = shown u r port :=
    urlParts_append (schemeText h.scheme) hclean hnetloc (dropEnd_rest_head h hne)
  rw [hparts]
  show _ = if netlocFails badNetloc (shown u r port).netloc then none else some (shown u r port)
  cases netlocFails badNetloc (shown u r port).netloc with
  | true => rfl
  | false => exact if_pos h.scheme

theorem rpartition_shown (hu : LowerLaws u) (r : SplitResult) (port : Option Nat) :
    rpartition '@' (shown u r port).netloc = (r.safeUser ++ ":***".toList, true, shownHost u r port) :=
  rpartition_append fun hmem => hostText_plain hu r port (shownHost_start.subset hmem)

theorem password_shown (hu : LowerLaws u) : (shown u r port).password ≠ none := by
  have hmask : r.safeUser ++ ":***".toList = r.safeUser ++ ':' :: "***".toList := rfl
  unfold password userinfo
  rw [rpartition_shown hu, hmask]
  dsimp only
  rw [partition_append (safeUser_spec r).2.1]
  exact Option.some_ne_none _

/-- Without white space at the end, the second pass reads what was written. -/
theorem shown_eq (h : WellFormed r)
    (hlast : ∀ c ∈ (hostText u r port ++ (r.path ++ tailText r)).getLast?, u.isSpace c = false) :
    shown u r port = r.masked u port := by
  have hrest : Unicode.dropEnd u.isSpace (r.path ++ tailText r) = r.path ++ tailText r := by
    refine Unicode.dropEnd_of_last fun c hc => hlast c ?_
    rw [List.getLast?_append, Option.mem_def.mp hc]
    rfl
  have hhost : shownHost u r port = hostText u r port := by
    unfold shownHost
    split_ifs with hnil
    · rw [hnil, List.append_nil] at hlast
      exact Unicode.dropEnd_of_last hlast
    · rfl
  unfold shown shownNetloc
  rw [hrest, hhost, takePath_tailText h]
  rfl

theorem portText_space {port : Option Nat} (h : portText port ≠ []) :
    ∃ c ∈ (portText port).getLast?, u.isSpace c = false := by
  obtain ⟨c, hc⟩ : ∃ c, (portText port).getLast? = some c := ⟨_, List.getLast?_eq_some_getLast h⟩
  refine ⟨c, hc, ?_⟩
  have hdigit : ∀ d : Char, d.isDigit = true → isAscii d = true ∧ asciiSpace d = false := by
    intro d hd
    have hzero : '0'.toNat = 48 := rfl
    have hnine : '9'.toNat = 57 := rfl
    rw [Char.isDigit_iff_toNat, hzero, hnine] at hd
    have hspace : d ≠ ' ' := fun h => by
      rw [h] at hd
      exact absurd hd.1 (by decide)
    unfold isAscii asciiSpace
    simp only [hspace, decide_false, Bool.false_or]
    refine ⟨decide_eq_true (by omega), ?_⟩
    simp only [Bool.or_eq_false_iff, Bool.and_eq_false_iff, decide_eq_false_iff_not]
    omega
  have hcolon : ∀ d ∈ [':'], isAscii d = true ∧ asciiSpace d = false := forall_mem_of_all (by decide)
  rcases portText_mem (List.mem_of_mem_getLast? hc) with rfl | hd
  · exact not_space_of_mem hcolon (by decide)
  · rw [u.isSpace_ascii c (hdigit c hd).1]
    exact (hdigit c hd).2

/-- A host with white space at its end is not written of the host without it. -/
theorem shown_host_ne (hu : LowerLaws u) {text : List Char} {port₂ : Option Nat}
    (hlast : ¬ ∀ c ∈ (lowerHost u text ++ portText port).getLast?, u.isSpace c = false) :
    lowerHost u (hostParts (Unicode.dropEnd u.isSpace (lowerHost u text ++ portText port))).1 ++ portText port₂ ≠
      lowerHost u text ++ portText port := by
  intro heq
  have hnil : ∀ {host : List Char} {p : Option Nat},
      (¬ ∀ c ∈ (host ++ portText p).getLast?, u.isSpace c = false) → portText p = [] := by
    intro host p hnot
    by_contra hne
    obtain ⟨d, hd, hspace⟩ := portText_space (u := u) hne
    refine hnot fun c hc => ?_
    rw [List.getLast?_append, Option.mem_def.mp hd] at hc
    rwa [← Option.some.inj hc]
  have hlast₂ := hlast
  rw [← heq] at hlast₂
  rw [hnil hlast] at heq hlast
  rw [hnil hlast₂] at heq
  rw [List.append_nil] at heq hlast
  rw [List.append_nil] at heq
  have hlt : (Unicode.dropEnd u.isSpace (lowerHost u text)).length < (lowerHost u text).length :=
    Unicode.dropEnd_lt hlast
  have hstart : Unicode.dropEnd u.isSpace (lowerHost u text) <+: lowerHost u text := Unicode.dropEnd_start
  generalize Unicode.dropEnd u.isSpace (lowerHost u text) = host at *
  by_cases hopen : '[' ∈ host
  · have hcount := congrArg (List.count '[') heq
    rw [count_lowerHost hu (by decide)] at hcount
    have hless := count_hostParts hopen
    have hle := hstart.sublist.count_le '['
    omega
  · have hname : (hostParts host).1 <+: host := by
      unfold hostParts
      rw [partition_of_not_mem hopen]
      exact partition_start
    rw [lowerHost_start hu (hname.trans hstart)] at heq
    have hle := hname.length_le
    rw [heq] at hle
    omega

/-- With white space at the end, the second pass writes another text. -/
theorem rewriteDsn_shown_ne (hu : LowerLaws u) (h : WellFormed r) (hne : r.netloc ≠ [])
    (hshown : WellFormed (shown u r port))
    (hlast : ¬ ∀ c ∈ (hostText u r port ++ (r.path ++ tailText r)).getLast?, u.isSpace c = false) :
    rewriteDsn u (shown u r port) ≠ .ok (.str (String.ofList (urlunsplit (r.masked u port)))) := by
  have hnetloc : (shown u r port).netloc ≠ [] := by
    show shownNetloc u r port ≠ []
    unfold shownNetloc
    simp
  rw [rewriteDsn_eq]
  intro heq
  obtain ⟨port₂, -, heq⟩ := bind_ok heq
  have hsame : (shown u r port).masked u port₂ = r.masked u port :=
    urlunsplit_inj (wellFormed_masked hu hshown hnetloc) (wellFormed_masked hu h hne)
      (String.ofList_injective (PyVal.str.inj (Except.ok.inj heq)))
  by_cases hrest : r.path ++ tailText r = []
  · have hhost : shownHost u r port = Unicode.dropEnd u.isSpace (hostText u r port) := if_pos hrest
    have hparts := congrArg (fun parsed => (rpartition '@' parsed.netloc).2.2) hsame
    simp only [rpartition_masked hu] at hparts
    rw [hostname_eq, hostinfo_eq, rpartition_shown hu, hhost] at hparts
    rw [hrest, List.append_nil] at hlast
    exact shown_host_ne hu hlast hparts
  · have hlt : (Unicode.dropEnd u.isSpace (r.path ++ tailText r)).length < (r.path ++ tailText r).length := by
      refine Unicode.dropEnd_lt fun hall => hlast fun c hc => hall c ?_
      rw [List.getLast?_append] at hc
      obtain ⟨d, hd⟩ : ∃ d, (r.path ++ tailText r).getLast? = some d := ⟨_, List.getLast?_eq_some_getLast hrest⟩
      rw [hd] at hc
      rw [hd]
      exact hc
    have hpath : (takePath (Unicode.dropEnd u.isSpace (r.path ++ tailText r))).1 = r.path :=
      congrArg SplitResult.path hsame
    have hquery : (takePath (Unicode.dropEnd u.isSpace (r.path ++ tailText r))).2.1 = r.query :=
      congrArg SplitResult.query hsame
    have hfragment : (takePath (Unicode.dropEnd u.isSpace (r.path ++ tailText r))).2.2 = r.fragment :=
      congrArg SplitResult.fragment hsame
    have hle := takePath_length (r := r) _ (Prod.ext hpath (Prod.ext hquery hfragment))
    omega

end Elsewhere

/-- **Which texts are settled outside sensitive keys.** -/
theorem redactDsnIfNeeded_settled_iff {env : PilotEnv} (hu : LowerLaws env.unicode) {s : String} :
    SettledText (PilotReport.redactDsnIfNeeded env) s ↔ TextSteady env.unicode env.badNetloc s := by
  unfold SettledText TextSteady
  cases hdsn : dsnOf env.badNetloc (env.unicode.strip s.toList) with
  | none =>
    have hfirst : PilotReport.redactDsnIfNeeded env s = .ok (.str s) := by rw [redactDsnIfNeeded_eq, hdsn]
    exact iff_of_true ⟨s, hfirst, hfirst⟩ fun _ h => nomatch h
  | some parsed =>
    obtain ⟨hformed, -⟩ := dsnOf_some hdsn
    simp only [Option.some.injEq, forall_eq']
    by_cases hpassword : parsed.password = none
    · have hfirst : PilotReport.redactDsnIfNeeded env s = .ok (.str s) := by
        rw [redactDsnIfNeeded_eq, hdsn]
        exact if_pos hpassword
      exact iff_of_true ⟨s, hfirst, hfirst⟩ fun h => absurd hpassword h
    · have hinfo : parsed.userinfo ≠ none := by
        intro hnone
        apply hpassword
        unfold password
        rw [hnone]
        rfl
      have hne := netloc_ne_nil hinfo
      have hfirst : PilotReport.redactDsnIfNeeded env s = rewriteDsn env.unicode parsed := by
        rw [redactDsnIfNeeded_eq, hdsn]
        exact if_neg hpassword
      rw [hfirst, rewriteDsn_eq]
      cases hport : parsed.port with
      | error e =>
        refine iff_of_false ?_ ?_
        · rintro ⟨t, h, -⟩
          exact nomatch h
        · intro h
          obtain ⟨port, h, -⟩ := h hpassword
          exact nomatch h
      | ok port =>
        simp only [Except.bind, Except.ok.injEq, PyVal.str.injEq, exists_eq_left', ne_eq, hpassword, not_false_eq_true,
          true_implies]
        have hread := @dsnOf_strip_masked _ env.badNetloc parsed port hu hformed hne
        rw [redactDsnIfNeeded_eq, String.toList_ofList, hread]
        cases hfails : netlocFails env.badNetloc (shownNetloc env.unicode parsed port) with
        | true => exact iff_of_true rfl (.inl rfl)
        | false =>
          have hshown : WellFormed (shown env.unicode parsed port) := by
            rw [hfails] at hread
            exact (dsnOf_some hread).1
          show (if (shown env.unicode parsed port).password = none then _ else _) = _ ↔ _
          rw [if_neg (password_shown hu), or_iff_right Bool.false_ne_true]
          by_cases hlast : ∀ c ∈ (hostText env.unicode parsed port ++ (parsed.path ++ tailText parsed)).getLast?,
              env.unicode.isSpace c = false
          · rw [shown_eq hformed hlast, rewriteDsn_masked_iff hu hformed hne hport]
            exact (and_iff_right hlast).symm
          · exact iff_of_false (rewriteDsn_shown_ne hu hformed hne hshown hlast) fun h => hlast h.1

end AgentHarness
