import Mathlib.Data.List.TakeWhile
import Mathlib.Tactic.SplitIfs

/-!
# Lib.Uri — references and their resolution, as RFC 3986 has them

`split` takes a text apart into the five components, `resolve` finds the target of a reference against a base, and
`recompose` writes it down.  `split_recompose` reads scheme and authority back from the text.
-/

namespace AgentHarness.Lib

structure Uri where
  scheme : Option (List Char)
  authority : Option (List Char)
  path : List Char
  query : Option (List Char)
  fragment : Option (List Char)

namespace Uri

/-! ## The components -/

def schemeChar (c : Char) : Bool := c.isAlphanum || c = '+' || c = '-' || c = '.'

def isScheme : List Char → Bool
  | [] => false
  | c :: cs => c.isAlpha && cs.all schemeChar

/-- What ends an authority. -/
def delimiter (c : Char) : Bool := c = '/' || c = '?' || c = '#'

/-- The scheme and what follows its colon. -/
def splitScheme (text : List Char) : Option (List Char) × List Char :=
  let before := text.takeWhile (· ≠ ':')
  match text.dropWhile (· ≠ ':') with
  | [] => (none, text)
  | _ :: rest => if isScheme before then (some before, rest) else (none, text)

def splitAuthority : List Char → Option (List Char) × List Char
  | '/' :: '/' :: rest => (some (rest.takeWhile fun c => !delimiter c), rest.dropWhile fun c => !delimiter c)
  | text => (none, text)

def splitTail (text : List Char) : List Char × Option (List Char) × Option (List Char) :=
  let path := text.takeWhile fun c => c ≠ '?' && c ≠ '#'
  match text.dropWhile fun c => c ≠ '?' && c ≠ '#' with
  | '?' :: rest =>
    match rest.dropWhile (· ≠ '#') with
    | _ :: fragment => (path, some (rest.takeWhile (· ≠ '#')), some fragment)
    | [] => (path, some rest, none)
  | _ :: fragment => (path, none, some fragment)
  | [] => (path, none, none)

def split (text : List Char) : Uri :=
  let (scheme, rest) := splitScheme text
  let (authority, rest) := splitAuthority rest
  let (path, query, fragment) := splitTail rest
  ⟨scheme, authority, path, query, fragment⟩

/-- The text of a reference. -/
def recompose (u : Uri) : List Char :=
  (match u.scheme with | some s => s ++ [':'] | none => []) ++
  (match u.authority with | some a => '/' :: '/' :: a | none => []) ++ u.path ++
  (match u.query with | some q => '?' :: q | none => []) ++
  (match u.fragment with | some f => '#' :: f | none => [])

/-- The authority after its user information. -/
def hostport (authority : List Char) : List Char := (authority.reverse.takeWhile (· ≠ '@')).reverse

/-- The user information, if there is one. -/
def userinfo (authority : List Char) : Option (List Char) :=
  match authority.reverse.dropWhile (· ≠ '@') with
  | [] => none
  | _ :: info => some info.reverse

/-- The host, in lower case: an address in brackets, or what stands before the port. -/
def hostOf (authority : List Char) : List Char :=
  (match hostport authority with
    | '[' :: rest => rest.takeWhile (· ≠ ']')
    | host => host.takeWhile (· ≠ ':')).map Char.toLower

def host (u : Uri) : Option (List Char) := u.authority.map hostOf

/-- The scheme in lower case: schemes are compared without regard to case. -/
def schemeName (u : Uri) : Option (List Char) := u.scheme.map (List.map Char.toLower)

/-! ## Resolution -/

/-- Without its last segment and the slash before it. -/
def dropSegment (output : List Char) : List Char := ((output.reverse.dropWhile (· ≠ '/')).drop 1).reverse

/-- The steps on the input and the output buffer. -/
def removeDots : Nat → List Char → List Char → List Char
  | 0, _, output => output
  | n + 1, input, output =>
    match input with
    | [] => output
    | '.' :: '.' :: '/' :: rest => removeDots n rest output
    | '.' :: '/' :: rest => removeDots n rest output
    | '/' :: '.' :: '/' :: rest => removeDots n ('/' :: rest) output
    | ['/', '.'] => removeDots n ['/'] output
    | '/' :: '.' :: '.' :: '/' :: rest => removeDots n ('/' :: rest) (dropSegment output)
    | ['/', '.', '.'] => removeDots n ['/'] (dropSegment output)
    | ['.'] => output
    | ['.', '.'] => output
    | c :: rest => removeDots n (rest.dropWhile (· ≠ '/')) (output ++ c :: rest.takeWhile (· ≠ '/'))

/-- `remove_dot_segments`; every step takes something from the input. -/
def removeDotSegments (path : List Char) : List Char := removeDots path.length path []

/-- The path of the base up to its last slash, and the reference. -/
def merge (base : Uri) (path : List Char) : List Char :=
  if base.authority.isSome && base.path.isEmpty then '/' :: path
  else (base.path.reverse.dropWhile (· ≠ '/')).reverse ++ path

/-- The target of a reference.  A reference with the scheme of the base is read as if it had none. -/
def resolve (base ref : Uri) : Uri :=
  if ref.scheme.isSome && ref.schemeName != base.schemeName then { ref with path := removeDotSegments ref.path }
  else if ref.authority.isSome then { ref with scheme := base.scheme, path := removeDotSegments ref.path }
  else if ref.path = [] then { base with query := ref.query.or base.query, fragment := ref.fragment }
  else
    let path := if ref.path.head? = some '/' then ref.path else merge base ref.path
    { base with path := removeDotSegments path, query := ref.query, fragment := ref.fragment }

/-! ## Reading a text back -/

variable {u base ref : Uri} {text rest path authority scheme input output : List Char}

/-- A path that an authority can stand before. -/
def Rooted (path : List Char) : Prop := ∀ c ∈ path.head?, c = '/'

/-- Components that can be read back from the text of the reference. -/
structure Sound (u : Uri) : Prop where
  scheme : ∀ s ∈ u.scheme, isScheme s = true
  authority : ∀ a ∈ u.authority, ∀ c ∈ a, delimiter c = false
  rooted : u.authority.isSome = true → Rooted u.path

theorem splitScheme_append (hscheme : isScheme scheme = true) :
    splitScheme (scheme ++ ':' :: rest) = (some scheme, rest) := by
  have hcolon : ∀ c ∈ scheme, (decide (c ≠ ':')) = true := by
    cases scheme with
    | nil => cases hscheme
    | cons c cs =>
      unfold isScheme at hscheme
      obtain ⟨hfirst, hrest⟩ := (Bool.and_eq_true _ _).mp hscheme
      refine List.forall_mem_cons.mpr ⟨?_, fun d hd => ?_⟩
      · refine decide_eq_true ?_
        rintro rfl
        cases hfirst
      · have hd := List.all_eq_true.mp hrest d hd
        refine decide_eq_true ?_
        rintro rfl
        cases hd
  unfold splitScheme
  rw [List.takeWhile_append_of_pos hcolon, List.dropWhile_append_of_pos hcolon, List.dropWhile_cons_of_neg (by simp),
    List.takeWhile_cons_of_neg (by simp), List.append_nil]
  exact if_pos hscheme

theorem splitAuthority_append (hauthority : ∀ c ∈ authority, delimiter c = false)
    (hrest : ∀ c ∈ rest.head?, delimiter c = true) :
    splitAuthority ('/' :: '/' :: (authority ++ rest)) = (some authority, rest) := by
  have hpos : ∀ c ∈ authority, (!delimiter c) = true := fun c hc => by rw [hauthority c hc]; rfl
  show (some ((authority ++ rest).takeWhile fun c => !delimiter c),
    (authority ++ rest).dropWhile fun c => !delimiter c) = _
  rw [List.takeWhile_append_of_pos hpos, List.dropWhile_append_of_pos hpos]
  cases rest with
  | nil => simp
  | cons c rest =>
    have hc : ¬ (!delimiter c) = true := by rw [hrest c rfl]; simp
    rw [List.takeWhile_cons_of_neg (p := fun c => !delimiter c) hc,
      List.dropWhile_cons_of_neg (p := fun c => !delimiter c) hc, List.append_nil]

/-- What stands before the path in the text of a reference. -/
theorem recompose_eq : recompose u = (match u.scheme with | some s => s ++ [':'] | none => []) ++
    ((match u.authority with | some a => '/' :: '/' :: a | none => []) ++ (u.path ++
    ((match u.query with | some q => '?' :: q | none => []) ++
    (match u.fragment with | some f => '#' :: f | none => [])))) := by
  unfold recompose
  simp only [List.append_assoc]

theorem split_recompose_scheme (hu : Sound u) {s : List Char} (hs : u.scheme = some s) :
    (split (recompose u)).scheme = some s := by
  rw [recompose_eq, hs]
  dsimp only
  rw [List.append_assoc]
  unfold split
  rw [show [':'] ++ _ = ':' :: _ from List.singleton_append, splitScheme_append (hu.scheme s hs)]

/-- The text of a reference with a scheme and an authority has that scheme and that authority. -/
theorem split_recompose (hu : Sound u) {s a : List Char} (hs : u.scheme = some s) (ha : u.authority = some a) :
    (split (recompose u)).scheme = some s ∧ (split (recompose u)).authority = some a := by
  refine ⟨split_recompose_scheme hu hs, ?_⟩
  have hrest : ∀ c ∈ (u.path ++ ((match u.query with | some q => '?' :: q | none => []) ++
      (match u.fragment with | some f => '#' :: f | none => []))).head?, delimiter c = true := by
    have hroot := hu.rooted (by rw [ha]; rfl)
    cases hpath : u.path with
    | cons c path =>
      rintro d ⟨⟩
      rw [hroot c (by rw [hpath]; rfl)]
      rfl
    | nil =>
      cases u.query with
      | some q => rintro d ⟨⟩; rfl
      | none =>
        cases u.fragment with
        | some f => rintro d ⟨⟩; rfl
        | none => rintro d ⟨⟩
  rw [recompose_eq, hs, ha]
  dsimp only
  rw [List.append_assoc]
  unfold split
  rw [show [':'] ++ _ = ':' :: _ from List.singleton_append, splitScheme_append (hu.scheme s hs)]
  dsimp only
  rw [List.cons_append, List.cons_append, splitAuthority_append (hu.authority a ha) hrest]

/-! ## What is split is sound -/

theorem splitScheme_isScheme (h : (splitScheme text).1 = some scheme) : isScheme scheme = true := by
  unfold splitScheme at h
  dsimp only at h
  split at h
  · cases h
  · split_ifs at h with hscheme
    · exact Option.some.inj h ▸ hscheme

theorem splitAuthority_sound (h : (splitAuthority text).1 = some authority) :
    (∀ c ∈ authority, delimiter c = false) ∧ ∀ c ∈ (splitAuthority text).2.head?, delimiter c = true := by
  unfold splitAuthority at h ⊢
  split at h
  · rename_i rest
    refine ⟨fun c hc => ?_, fun c hc => ?_⟩
    · rw [← Option.some.inj h] at hc
      simpa using List.mem_takeWhile_imp hc
    · have hstop := List.head?_dropWhile_not (fun c => !delimiter c) rest
      dsimp only at hc
      rw [Option.mem_def.mp hc] at hstop
      simpa using hstop
  · cases h

theorem splitTail_rooted (h : ∀ c ∈ text.head?, delimiter c = true) : Rooted (splitTail text).1 := by
  have hpath : (splitTail text).1 = text.takeWhile fun c => c ≠ '?' && c ≠ '#' := by
    unfold splitTail
    dsimp only
    split
    · split <;> rfl
    · rfl
    · rfl
  intro c hc
  rw [hpath] at hc
  cases text with
  | nil => cases hc
  | cons d text =>
    rw [List.takeWhile_cons] at hc
    split_ifs at hc with hd
    · obtain rfl := Option.some.inj hc
      have hdelimiter := h d rfl
      unfold delimiter at hdelimiter
      simp only [Bool.and_eq_true, decide_eq_true_eq, Bool.or_eq_true] at hd hdelimiter
      rcases hdelimiter with (hslash | hquery) | hfragment
      · exact hslash
      · exact absurd hquery hd.1
      · exact absurd hfragment hd.2
    · cases hc

theorem split_sound (text : List Char) : Sound (split text) := by
  refine ⟨fun s hs => splitScheme_isScheme hs, fun a ha => (splitAuthority_sound ha).1, fun ha => ?_⟩
  obtain ⟨a, ha⟩ := Option.isSome_iff_exists.mp ha
  exact splitTail_rooted (splitAuthority_sound ha).2

/-! ## Resolution keeps a path rooted -/

theorem rooted_append (h : Rooted path) (hroot : path = [] → Rooted rest) : Rooted (path ++ rest) := by
  cases path with
  | nil => exact hroot rfl
  | cons c path => exact h

theorem rooted_dropWhile : Rooted (text.dropWhile (· ≠ '/')) := by
  intro c hc
  have hstop := List.head?_dropWhile_not (· ≠ '/') text
  rw [Option.mem_def.mp hc] at hstop
  simpa using hstop

theorem rooted_of_begins (h : Rooted path) (hbegins : rest <+: path) : Rooted rest := by
  cases rest with
  | nil => exact fun c hc => by cases hc
  | cons c rest =>
    obtain ⟨tail, rfl⟩ := hbegins
    exact h

theorem rooted_dropSegment (h : Rooted output) : Rooted (dropSegment output) := by
  refine rooted_of_begins h ?_
  unfold dropSegment
  have hsuffix : (output.reverse.dropWhile (· ≠ '/')).drop 1 <:+ output.reverse :=
    (List.drop_suffix _ _).trans (List.dropWhile_suffix _)
  have hbegins := List.reverse_prefix.mpr hsuffix
  rwa [List.reverse_reverse] at hbegins

theorem rooted_removeDots {n : Nat} (hinput : Rooted input) (houtput : Rooted output) :
    Rooted (removeDots n input output) := by
  have hslash : ∀ rest, Rooted ('/' :: rest) := fun rest c hc => (Option.some.inj hc).symm
  have hdot : ∀ rest, ¬ Rooted ('.' :: rest) := fun rest h => absurd (h '.' rfl) (by decide)
  induction n generalizing input output with
  | zero => exact houtput
  | succ n ih =>
    unfold removeDots
    split
    · exact houtput
    · exact absurd hinput (hdot _)
    · exact absurd hinput (hdot _)
    · exact ih (hslash _) houtput
    · exact ih (hslash _) houtput
    · exact ih (hslash _) (rooted_dropSegment houtput)
    · exact ih (hslash _) (rooted_dropSegment houtput)
    · exact houtput
    · exact houtput
    · refine ih rooted_dropWhile (rooted_append houtput fun _ d hd => ?_)
      exact hinput d hd

theorem rooted_merge (hbase : base.authority.isSome = true) (h : Rooted base.path) : Rooted (merge base path) := by
  unfold merge
  split_ifs with hempty
  · exact fun c hc => (Option.some.inj hc).symm
  · have hne : base.path ≠ [] := by
      rw [hbase] at hempty
      simpa using hempty
    have hbegins : (base.path.reverse.dropWhile (· ≠ '/')).reverse <+: base.path := by
      have hbegins := List.reverse_prefix.mpr (List.dropWhile_suffix (l := base.path.reverse) (· ≠ '/'))
      rwa [List.reverse_reverse] at hbegins
    refine rooted_append (rooted_of_begins h hbegins) fun hnil => absurd ?_ hne
    have hall := List.dropWhile_eq_nil_iff.mp (List.reverse_eq_nil_iff.mp hnil)
    cases hpath : base.path with
    | nil => rfl
    | cons c path =>
      have hc := hall c (by rw [hpath]; simp)
      rw [h c (by rw [hpath]; rfl)] at hc
      simp at hc

/-- The target of a sound reference against a sound base is sound. -/
theorem resolve_sound (hbase : Sound base) (href : Sound ref) : Sound (resolve base ref) := by
  have hremove : ∀ path, Rooted path → Rooted (removeDotSegments path) := fun path h =>
    rooted_removeDots h fun c hc => by cases hc
  unfold resolve
  split_ifs with hscheme hauthority hpath hroot
  · exact ⟨href.scheme, href.authority, fun ha => hremove _ (href.rooted ha)⟩
  · exact ⟨hbase.scheme, href.authority, fun ha => hremove _ (href.rooted ha)⟩
  · exact ⟨hbase.scheme, hbase.authority, hbase.rooted⟩
  · refine ⟨hbase.scheme, hbase.authority, fun _ => hremove _ fun c hc => ?_⟩
    exact (Option.some.inj (hroot.symm.trans hc)).symm
  · exact ⟨hbase.scheme, hbase.authority, fun ha => hremove _ (rooted_merge ha (hbase.rooted ha))⟩

/-! ## Where a target lies -/

theorem takeWhile_append_dropWhile_cons {c : Char} (h : text.dropWhile (· ≠ c) = rest) (hne : rest ≠ []) :
    text = text.takeWhile (· ≠ c) ++ c :: rest.tail := by
  cases rest with
  | nil => exact absurd rfl hne
  | cons d rest =>
    have hstop := List.head?_dropWhile_not (· ≠ c) text
    rw [h] at hstop
    have hd : d = c := by simpa using hstop
    have happend := List.takeWhile_append_dropWhile (p := (· ≠ c)) (l := text)
    rw [h, hd] at happend
    exact happend.symm

/-- A text with a scheme and an authority begins with them. -/
theorem eq_of_split {s a : List Char} (hs : (split text).scheme = some s) (ha : (split text).authority = some a) :
    isScheme s = true ∧ (∀ c ∈ a, delimiter c = false) ∧ ∃ rest, text = s ++ ':' :: '/' :: '/' :: (a ++ rest) ∧
      ∀ c ∈ rest.head?, delimiter c = true := by
  have hscheme : (splitScheme text).1 = some s := hs
  have hauthority : (splitAuthority (splitScheme text).2).1 = some a := ha
  obtain ⟨hfree, hstop⟩ := splitAuthority_sound hauthority
  refine ⟨splitScheme_isScheme hscheme, hfree, _, ?_, hstop⟩
  have htext : text = s ++ ':' :: (splitScheme text).2 := by
    unfold splitScheme at hscheme ⊢
    dsimp only at hscheme ⊢
    split at hscheme
    · cases hscheme
    · rename_i c rest hdrop
      split_ifs at hscheme with hs'
      · rw [← Option.some.inj hscheme, if_pos hs']
        exact takeWhile_append_dropWhile_cons hdrop (List.cons_ne_nil _ _)
  have hrest : (splitScheme text).2 = '/' :: '/' :: (a ++ (splitAuthority (splitScheme text).2).2) := by
    unfold splitAuthority at hauthority ⊢
    split at hauthority
    · rename_i rest htail
      rw [htail]
      dsimp only
      rw [← Option.some.inj hauthority, List.takeWhile_append_dropWhile]
    · cases hauthority
  rw [← hrest]
  exact htext

/-- What follows scheme and authority does not change them. -/
theorem split_append {s a : List Char} (hs : isScheme s = true) (ha : ∀ c ∈ a, delimiter c = false)
    (hrest : ∀ c ∈ rest.head?, delimiter c = true) :
    (split (s ++ ':' :: '/' :: '/' :: (a ++ rest))).scheme = some s ∧
      (split (s ++ ':' :: '/' :: '/' :: (a ++ rest))).authority = some a := by
  unfold split
  rw [splitScheme_append hs]
  dsimp only
  rw [splitAuthority_append ha hrest]
  exact ⟨rfl, rfl⟩

/-- A reference stays at the base: it has no scheme and no authority, or they are the same. -/
def Stays (base ref : Uri) : Prop :=
  (ref.scheme = none ∨ ref.schemeName = base.schemeName) ∧ (ref.authority = none ∨ ref.host = base.host)

/-- The text of the target has the scheme and the host of the base exactly if the reference stays there. -/
theorem target_iff (hbase : Sound base) (href : Sound ref) {s a : List Char} (hs : base.scheme = some s)
    (ha : base.authority = some a) :
    ((split (recompose (resolve base ref))).schemeName = base.schemeName ∧
      (split (recompose (resolve base ref))).host = base.host) ↔ Stays base ref := by
  have hsound := resolve_sound hbase href
  have hname : base.schemeName = some (s.map Char.toLower) := by unfold schemeName; rw [hs]; rfl
  by_cases hother : (ref.scheme.isSome && ref.schemeName != base.schemeName) = true
  · -- the scheme of the target is the other one
    obtain ⟨r, hr⟩ := Option.isSome_iff_exists.mp ((Bool.and_eq_true _ _).mp hother).1
    have hne : ref.schemeName ≠ base.schemeName := by simpa using ((Bool.and_eq_true _ _).mp hother).2
    have htarget : (resolve base ref).scheme = some r := by
      unfold resolve
      rw [if_pos hother]
      exact hr
    have hread := split_recompose_scheme hsound htarget
    refine iff_of_false (fun h => hne ?_) (fun h => ?_)
    · rw [← h.1]
      unfold schemeName
      rw [hread, hr]
    · rcases h.1 with hnone | hsame
      · rw [hr] at hnone
        cases hnone
      · exact hne hsame
  · have hscheme : ref.scheme = none ∨ ref.schemeName = base.schemeName := by
      cases hr : ref.scheme with
      | none => exact .inl rfl
      | some r =>
        right
        rw [hr] at hother
        simpa using hother
    have hbaseScheme : (resolve base ref).scheme = some s := by
      unfold resolve
      rw [if_neg hother]
      split_ifs <;> exact hs
    have hread : ∀ b, (resolve base ref).authority = some b →
        (split (recompose (resolve base ref))).schemeName = base.schemeName ∧
          (split (recompose (resolve base ref))).host = some (hostOf b) := by
      intro b hb
      obtain ⟨h1, h2⟩ := split_recompose hsound hbaseScheme hb
      unfold schemeName host
      rw [h1, h2, hs]
      exact ⟨rfl, rfl⟩
    unfold Stays
    cases hauthority : ref.authority with
    | some b =>
      have htarget : (resolve base ref).authority = some b := by
        unfold resolve
        rw [if_neg hother, if_pos (by rw [hauthority]; rfl)]
        exact hauthority
      obtain ⟨h1, h2⟩ := hread b htarget
      have hhost : ref.host = some (hostOf b) := by unfold host; rw [hauthority]; rfl
      rw [h2, hhost]
      simp only [h1, hscheme, true_and, reduceCtorEq, false_or]
    | none =>
      have htarget : (resolve base ref).authority = some a := by
        unfold resolve
        rw [if_neg hother, if_neg (by rw [hauthority]; simp)]
        split_ifs <;> exact ha
      obtain ⟨h1, h2⟩ := hread a htarget
      have hhost : base.host = some (hostOf a) := by unfold host; rw [ha]; rfl
      rw [h2, hhost]
      simp only [h1, hscheme, true_and, true_or]

end Uri

end AgentHarness.Lib
