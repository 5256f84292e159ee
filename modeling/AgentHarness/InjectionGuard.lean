import AgentHarness.Lib.RegexPadding
import AgentHarness.Schemas
import Mathlib.Order.Bounds.Basic
import Mathlib.Order.MinMax

/-!
# InjectionGuard — `PromptInjectionGuard`

A text is searched for three tables of patterns, the worst first, and a payload gets the worst finding of its strings.
No pattern has an anchor, so `Regex.occurs_padded` makes the tables blind to what stands around a match, and the
verdict of a text never falls when the text is padded.  Of a payload the walk keeps one finding; `worse_verdict` says
that an update takes the maximum, and `checkPayload_isGreatest` that the walk sees every string at any depth.
-/

namespace AgentHarness

open Lib Regex

/-- What the guard looks through: strings, the three containers it goes into, and everything else. -/
inductive PayloadValue where
  | str (s : String)
  | dict (d : List (PyVal × PayloadValue))
  | list (l : List PayloadValue)
  | tuple (l : List PayloadValue)
  | other (value : PyVal)

/-! ### The patterns -/

/-- The characters outside ASCII that `re.IGNORECASE` takes for a letter. -/
def foldsAlso : Char → List Char
  | 'i' => [Char.ofNat 0x130, Char.ofNat 0x131]
  | 's' => [Char.ofNat 0x17f]
  | 'k' => [Char.ofNat 0x212a]
  | _ => []

/-- `c` matches the letter `l` of a pattern under `re.IGNORECASE`. -/
def foldsTo (l c : Char) : Bool := c.toLower == l || (foldsAlso l).contains c

/-- A text under `re.IGNORECASE`. -/
def folded : List Char → Regex
  | [] => .empty
  | [l] => .one (foldsTo l)
  | l :: ls => .cat (.one (foldsTo l)) (folded ls)

/-- The text of a pattern. -/
def text (s : String) : Regex := folded s.toList

/-- `\s+` -/
def gap (u : Unicode) : Regex := .many u.isSpace 1 none

/-- Words with `\s+` between them. -/
def spaced (u : Unicode) (first : Regex) : List Regex → Regex
  | [] => first
  | next :: more => .cat first (.cat (gap u) (spaced u next more))

/-- A word and its plural, `words?`. -/
def plural (s : String) : Regex := .cat (text s) (.opt (text "s"))

/-- `_HIGH_BLOCK_PATTERNS` -/
def highBlockPatterns (u : Unicode) : List (Regex × String) := [
  (spaced u (text "bypass") [text "approval"], "绕过审批"),
  (spaced u (text "disable") [text "policy"], "关闭策略"),
  (spaced u (text "approve") [text "yourself"], "自动批准"),
  (text "绕过审批", "绕过审批"),
  (text "自动批准", "自动批准"),
  (text "关闭策略", "关闭策略"),
  (text "直接调用工具", "直接调用工具"),
  (spaced u (text "call") [text "tool", text "directly"], "直接调用工具"),
  (spaced u (text "skip") [text "validation"], "跳过校验"),
  (spaced u (text "drop") [text "table"], "删除表"),
  (spaced u (text "delete") [text "from"], "删除数据"),
  (spaced u (text "update") [text "users"], "修改用户数据"),
  (spaced u (text "insert") [text "into"], "插入数据"),
  (text "删除表", "删除表"),
  (text "修改数据库", "修改数据库")]

/-- `_MEDIUM_BLOCK_PATTERNS` -/
def mediumBlockPatterns (u : Unicode) : List (Regex × String) := [
  (spaced u (text "reveal") [text "system", text "prompt"], "泄露系统提示词"),
  (text "泄露系统提示词", "泄露系统提示词"),
  (spaced u (text "show") [text "system", text "prompt"], "泄露系统提示词"),
  (spaced u (text "ignore") [text "previous", plural "instruction"], "忽略之前的指令"),
  (spaced u (text "ignore") [text "above", plural "instruction"], "忽略以上指令"),
  (text "忽略以上指令", "忽略以上指令"),
  (text "忽略之前的规则", "忽略之前的规则")]

/-- `(all\s+)?(previous|prior|above)` -/
def allBefore (u : Unicode) : Regex :=
  .cat (.opt (.group 1 (.cat (text "all") (gap u))))
    (.group 2 (.alt (text "previous") (.alt (text "prior") (text "above"))))

/-- `_MEDIUM_WARN_PATTERNS` -/
def mediumWarnPatterns (u : Unicode) : List (Regex × String) := [
  (spaced u (text "ignore")
    [allBefore u, .group 3 (.alt (plural "rule") (.alt (plural "instruction") (plural "prompt")))], "模糊提示注入"),
  (spaced u (text "forget") [allBefore u], "模糊提示注入"),
  (spaced u (text "disregard") [allBefore u], "模糊提示注入")]

/-! ### The guard -/

namespace PromptInjectionGuard

variable {u : Unicode} {s : String} {p : PayloadValue}

/-- The labels of the patterns that occur in the text. -/
def matched (patterns : List (Regex × String)) (s : String) : List String :=
  patterns.filterMap fun pattern => if pattern.1.occurs s.toList then some pattern.2 else none

/-- The finding without a match. -/
def nothing : InjectionFinding := ⟨false, "low", "", [], "allow"⟩

/-- `PromptInjectionGuard.check_text` -/
def checkText (u : Unicode) (s : String) : InjectionFinding :=
  if s = "" then nothing
  else
    let high := matched (highBlockPatterns u) s
    if high ≠ [] then ⟨true, "high", "检测到高风险注入模式: " ++ ", ".intercalate high, high, "block"⟩
    else
      let medium := matched (mediumBlockPatterns u) s
      if medium ≠ [] then ⟨true, "medium", "检测到提示注入模式: " ++ ", ".intercalate medium, medium, "block"⟩
      else
        let warned := matched (mediumWarnPatterns u) s
        if warned ≠ [] then ⟨true, "medium", "可能存在提示注入: " ++ ", ".intercalate warned, warned, "warn"⟩
        else nothing

mutual
/-- `PromptInjectionGuard._collect_strings`: what it appends to `out`. -/
def collectStrings : PayloadValue → List String
  | .str s => if s = "" then [] else [s]
  | .dict d => collectValues d
  | .list l | .tuple l => collectItems l
  | .other _ => []

def collectValues : List (PyVal × PayloadValue) → List String
  | [] => []
  | (_, value) :: d => collectStrings value ++ collectValues d

def collectItems : List PayloadValue → List String
  | [] => []
  | item :: l => collectStrings item ++ collectItems l
end

/-- One round of the loop in `check_payload`. -/
def worse (u : Unicode) (worst : Option InjectionFinding) (s : String) : Option InjectionFinding :=
  let finding := checkText u s
  if finding.detected then
    match worst with
    | none => some finding
    | some kept =>
      if (finding.action = "block" ∧ kept.action ≠ "block") ∨
          (finding.severity = "high" ∧ kept.severity ≠ "high") then
        some finding
      else some kept
  else worst

/-- `PromptInjectionGuard.check_payload` -/
def checkPayload (u : Unicode) (p : PayloadValue) : InjectionFinding :=
  ((collectStrings p).foldl (worse u) none).getD nothing

end PromptInjectionGuard

/-! ### Verdicts -/

/-- What a finding means, in the order of severity. -/
inductive Verdict where
  | allow
  | warn
  | blockMedium
  | blockHigh
  deriving DecidableEq, Repr

namespace Verdict

def rank : Verdict → Nat
  | allow => 0
  | warn => 1
  | blockMedium => 2
  | blockHigh => 3

theorem rank_injective : Function.Injective rank := by
  intro a b h
  cases a <;> cases b <;> first | rfl | cases h

instance : LinearOrder Verdict := LinearOrder.lift' rank rank_injective

theorem le_iff {a b : Verdict} : a ≤ b ↔ a.rank ≤ b.rank := Iff.rfl

theorem allow_le (v : Verdict) : allow ≤ v := le_iff.mpr (Nat.zero_le _)

end Verdict

/-- A blocked finding counts by its severity. -/
def InjectionFinding.verdict (finding : InjectionFinding) : Verdict :=
  if finding.action = "block" then if finding.severity = "high" then .blockHigh else .blockMedium
  else if finding.action = "warn" then .warn
  else .allow

/-- `s` stands in the payload, at any depth. -/
inductive Inside (s : String) : PayloadValue → Prop
  | here : Inside s (.str s)
  | value {d : List (PyVal × PayloadValue)} {key : PyVal} {value : PayloadValue} :
      (key, value) ∈ d → Inside s value → Inside s (.dict d)
  | item {l : List PayloadValue} {item : PayloadValue} : item ∈ l → Inside s item → Inside s (.list l)
  | entry {l : List PayloadValue} {item : PayloadValue} : item ∈ l → Inside s item → Inside s (.tuple l)

namespace PromptInjectionGuard

variable {u : Unicode} {s : String} {worst : Option InjectionFinding}

/-! ### Padding -/

theorem folded_free (l : List Char) : (folded l).free = true := by
  induction l with
  | nil => rfl
  | cons c l ih =>
    cases l with
    | nil => rfl
    | cons c' l => exact ih

theorem folded_least (c : Char) (l : List Char) : 1 ≤ (folded (c :: l)).least := by
  cases l with
  | nil => exact Nat.le_refl 1
  | cons c' l => exact Nat.le_add_right 1 _

/-- Patterns that take a character and look at nothing else. -/
def Blind (patterns : List (Regex × String)) : Prop :=
  ∀ pattern ∈ patterns, pattern.1.free = true ∧ 1 ≤ pattern.1.least

theorem text_free (word : String) : (text word).free = true := folded_free word.toList

theorem spaced_free {first : Regex} {more : List Regex} (hfirst : first.free = true)
    (hmore : ∀ r ∈ more, r.free = true) : (spaced u first more).free = true := by
  induction more generalizing first with
  | nil => exact hfirst
  | cons next more ih =>
    have hnext := ih (hmore next List.mem_cons_self) fun r hr => hmore r (List.mem_cons_of_mem next hr)
    show (first.free && ((gap u).free && (spaced u next more).free)) = true
    rw [hfirst, hnext]
    rfl

theorem spaced_least (first next : Regex) (more : List Regex) : 1 ≤ (spaced u first (next :: more)).least := by
  show 1 ≤ first.least + (1 + (spaced u next more).least)
  omega

theorem plural_free (word : String) : (plural word).free = true := by
  show ((text word).free && ((text "s").free && true)) = true
  rw [text_free, text_free]
  rfl

theorem allBefore_free : (allBefore u).free = true := by
  show ((((text "all").free && true) && true) &&
    ((text "previous").free && ((text "prior").free && (text "above").free))) = true
  simp only [text_free, Bool.and_self]

theorem text_least {word : String} (h : word ≠ "") : 1 ≤ (text word).least := by
  unfold text
  cases hword : word.toList with
  | nil => exact absurd (String.toList_eq_nil_iff.mp hword) h
  | cons c l => exact folded_least c l

theorem highBlockPatterns_blind : Blind (highBlockPatterns u) := by
  unfold Blind highBlockPatterns
  simp only [List.forall_mem_cons, List.not_mem_nil, false_implies, implies_true, and_true]
  simp [spaced_free, spaced_least, text_free, text_least]

theorem mediumBlockPatterns_blind : Blind (mediumBlockPatterns u) := by
  unfold Blind mediumBlockPatterns
  simp only [List.forall_mem_cons, List.not_mem_nil, false_implies, implies_true, and_true]
  simp [spaced_free, spaced_least, text_free, text_least, plural_free]

theorem mediumWarnPatterns_blind : Blind (mediumWarnPatterns u) := by
  unfold Blind mediumWarnPatterns
  simp only [List.forall_mem_cons, List.not_mem_nil, false_implies, implies_true, and_true]
  simp [spaced_free, spaced_least, text_free, plural_free, allBefore_free, free]

theorem matched_ne_nil_iff {patterns : List (Regex × String)} :
    matched patterns s ≠ [] ↔ ∃ pattern ∈ patterns, pattern.1.occurs s.toList = true := by
  unfold matched
  rw [Ne, List.filterMap_eq_nil_iff]
  constructor
  · intro h
    by_contra hnone
    refine h fun pattern hp => if_neg fun hoccurs => hnone ⟨pattern, hp, hoccurs⟩
  · rintro ⟨pattern, hp, hoccurs⟩ h
    have := h pattern hp
    rw [if_pos hoccurs] at this
    cases this

theorem matched_padded {patterns : List (Regex × String)} (hblind : Blind patterns) (h : matched patterns s ≠ [])
    (pre suf : String) : matched patterns (pre ++ s ++ suf) ≠ [] := by
  obtain ⟨pattern, hp, hoccurs⟩ := matched_ne_nil_iff.mp h
  obtain ⟨hfree, hleast⟩ := hblind pattern hp
  refine matched_ne_nil_iff.mpr ⟨pattern, hp, ?_⟩
  rw [String.toList_append, String.toList_append, List.append_assoc]
  exact occurs_padded hfree hleast hoccurs

/-- The verdict of a text: by the first table that has a match. -/
theorem verdict_checkText : (checkText u s).verdict =
    if s = "" then .allow
    else if matched (highBlockPatterns u) s ≠ [] then .blockHigh
    else if matched (mediumBlockPatterns u) s ≠ [] then .blockMedium
    else if matched (mediumWarnPatterns u) s ≠ [] then .warn
    else .allow := by
  unfold checkText
  dsimp only
  split_ifs <;> rfl

/-- **Padding never lowers a verdict.** -/
theorem verdict_padded (pre s suf : String) :
    (checkText u s).verdict ≤ (checkText u (pre ++ s ++ suf)).verdict := by
  rw [verdict_checkText, verdict_checkText]
  by_cases hempty : s = ""
  · rw [if_pos hempty]
    exact Verdict.allow_le _
  have hpadded : pre ++ s ++ suf ≠ "" := by
    intro h
    have := congrArg String.toList h
    rw [String.toList_append, String.toList_append, String.toList_empty, List.append_eq_nil_iff,
      List.append_eq_nil_iff] at this
    exact hempty (String.toList_eq_nil_iff.mp this.1.2)
  rw [if_neg hempty, if_neg hpadded]
  have hhigh := fun h => matched_padded (s := s) (highBlockPatterns_blind (u := u)) h pre suf
  have hmedium := fun h => matched_padded (s := s) (mediumBlockPatterns_blind (u := u)) h pre suf
  have hwarned := fun h => matched_padded (s := s) (mediumWarnPatterns_blind (u := u)) h pre suf
  by_cases h₁ : matched (highBlockPatterns u) s ≠ []
  · rw [if_pos h₁, if_pos (hhigh h₁)]
  rw [if_neg h₁]
  by_cases h₂ : matched (mediumBlockPatterns u) s ≠ []
  · rw [if_pos h₂, if_pos (hmedium h₂)]
    split_ifs <;> decide
  rw [if_neg h₂]
  by_cases h₃ : matched (mediumWarnPatterns u) s ≠ []
  · rw [if_pos h₃, if_pos (hwarned h₃)]
    split_ifs <;> decide
  rw [if_neg h₃]
  exact Verdict.allow_le _

/-! ### The worst finding so far -/

/-- What `check_text` reports of a match. -/
def Reported (finding : InjectionFinding) : Prop :=
  finding.detected = true ∧
    (finding.action = "block" ∧ (finding.severity = "high" ∨ finding.severity = "medium") ∨
      finding.action = "warn" ∧ finding.severity = "medium")

theorem checkText_cases (u : Unicode) (s : String) : checkText u s = nothing ∨ Reported (checkText u s) := by
  unfold checkText
  dsimp only
  split_ifs
  · exact Or.inl rfl
  · exact Or.inr ⟨rfl, Or.inl ⟨rfl, Or.inl rfl⟩⟩
  · exact Or.inr ⟨rfl, Or.inl ⟨rfl, Or.inr rfl⟩⟩
  · exact Or.inr ⟨rfl, Or.inr ⟨rfl, rfl⟩⟩
  · exact Or.inl rfl

/-- The verdict of the finding kept so far. -/
def kept (worst : Option InjectionFinding) : Verdict := (worst.getD nothing).verdict

/-- **One round takes the maximum**, and keeps a finding of `check_text`. -/
theorem worse_verdict (hworst : ∀ finding, worst = some finding → Reported finding) (s : String) :
    (∀ finding, worse u worst s = some finding → Reported finding) ∧
      kept (worse u worst s) = max (kept worst) (checkText u s).verdict := by
  unfold worse
  dsimp only
  rcases checkText_cases u s with hs | hs
  · rw [hs]
    exact ⟨hworst, (max_eq_left (Verdict.allow_le _)).symm⟩
  · rw [if_pos hs.1]
    cases worst with
    | none =>
      refine ⟨fun finding h => Option.some.inj h ▸ hs, ?_⟩
      exact (max_eq_right (Verdict.allow_le _)).symm
    | some old =>
      have hold := hworst old rfl
      dsimp only
      constructor
      · intro finding h
        split at h
        · exact Option.some.inj h ▸ hs
        · exact Option.some.inj h ▸ hold
      · -- three kinds of findings on each side
        obtain ⟨-, hnew⟩ := hs
        obtain ⟨-, hold⟩ := hold
        unfold kept InjectionFinding.verdict
        rcases hnew with ⟨ha, hb | hb⟩ | ⟨ha, hb⟩ <;> rcases hold with ⟨ha', hb' | hb'⟩ | ⟨ha', hb'⟩ <;>
          simp [ha, hb, ha', hb'] <;> decide

theorem foldl_worse (l : List String) (hworst : ∀ finding, worst = some finding → Reported finding) :
    IsGreatest (insert (kept worst) ((fun s => (checkText u s).verdict) '' {s | s ∈ l}))
      (kept (l.foldl (worse u) worst)) := by
  induction l generalizing worst with
  | nil =>
    refine ⟨Set.mem_insert _ _, ?_⟩
    rintro v (rfl | ⟨s, hs, -⟩)
    · exact le_refl _
    · exact absurd hs List.not_mem_nil
  | cons s l ih =>
    obtain ⟨hreported, hmax⟩ := worse_verdict (u := u) hworst s
    obtain ⟨hmem, hupper⟩ := ih hreported
    rw [List.foldl_cons]
    rw [hmax] at hmem hupper
    constructor
    · rcases hmem with hv | ⟨s', hs', hv⟩
      · rcases max_choice (kept worst) (checkText u s).verdict with h | h
        · exact Or.inl (hv.trans h)
        · exact Or.inr ⟨s, List.mem_cons_self, (hv.trans h).symm⟩
      · exact Or.inr ⟨s', List.mem_cons_of_mem s hs', hv⟩
    · have hfirst := hupper (Set.mem_insert _ _)
      rintro v (rfl | ⟨s', hs', rfl⟩)
      · exact (le_max_left _ _).trans hfirst
      · rcases List.mem_cons.mp hs' with rfl | hs'
        · exact (le_max_right _ _).trans hfirst
        · exact hupper (Set.mem_insert_of_mem _ ⟨s', hs', rfl⟩)

/-! ### The walk through a payload -/

mutual
theorem mem_collectStrings : ∀ p : PayloadValue, s ∈ collectStrings p ↔ Inside s p ∧ s ≠ ""
  | .str s' => by
    rw [collectStrings]
    constructor
    · intro h
      split at h
      · exact absurd h List.not_mem_nil
      · rename_i hne
        rw [List.mem_singleton.mp h]
        exact ⟨.here, hne⟩
    · rintro ⟨⟨⟩, hne⟩
      rw [if_neg hne]
      exact List.mem_singleton_self s
  | .dict d => by
    rw [collectStrings, mem_collectValues d]
    constructor
    · rintro ⟨⟨entry, hmem, hin⟩, hne⟩
      exact ⟨.value hmem hin, hne⟩
    · rintro ⟨hin, hne⟩
      cases hin with
      | value hmem hin => exact ⟨⟨_, hmem, hin⟩, hne⟩
  | .list l => by
    rw [collectStrings, mem_collectItems l]
    constructor
    · rintro ⟨⟨item, hmem, hin⟩, hne⟩
      exact ⟨.item hmem hin, hne⟩
    · rintro ⟨hin, hne⟩
      cases hin with
      | item hmem hin => exact ⟨⟨_, hmem, hin⟩, hne⟩
  | .tuple l => by
    rw [collectStrings, mem_collectItems l]
    constructor
    · rintro ⟨⟨item, hmem, hin⟩, hne⟩
      exact ⟨.entry hmem hin, hne⟩
    · rintro ⟨hin, hne⟩
      cases hin with
      | entry hmem hin => exact ⟨⟨_, hmem, hin⟩, hne⟩
  | .other value => by
    rw [collectStrings]
    constructor
    · intro h
      exact absurd h List.not_mem_nil
    · rintro ⟨⟨⟩, -⟩

theorem mem_collectValues : ∀ d : List (PyVal × PayloadValue),
    s ∈ collectValues d ↔ (∃ entry : PyVal × PayloadValue, entry ∈ d ∧ Inside s entry.2) ∧ s ≠ ""
  | [] => by
    rw [collectValues]
    constructor
    · intro h
      exact absurd h List.not_mem_nil
    · rintro ⟨⟨entry, h, -⟩, -⟩
      exact absurd h List.not_mem_nil
  | (key, value) :: d => by
    rw [collectValues, List.mem_append, mem_collectStrings value, mem_collectValues d]
    constructor
    · rintro (⟨hin, hne⟩ | ⟨⟨entry, hmem, hin⟩, hne⟩)
      · exact ⟨⟨(key, value), List.mem_cons_self, hin⟩, hne⟩
      · exact ⟨⟨entry, List.mem_cons_of_mem _ hmem, hin⟩, hne⟩
    · rintro ⟨⟨entry, hmem, hin⟩, hne⟩
      rcases List.mem_cons.mp hmem with rfl | hmem
      · exact Or.inl ⟨hin, hne⟩
      · exact Or.inr ⟨⟨entry, hmem, hin⟩, hne⟩

theorem mem_collectItems : ∀ l : List PayloadValue,
    s ∈ collectItems l ↔ (∃ item ∈ l, Inside s item) ∧ s ≠ ""
  | [] => by
    rw [collectItems]
    constructor
    · intro h
      exact absurd h List.not_mem_nil
    · rintro ⟨⟨item, h, -⟩, -⟩
      exact absurd h List.not_mem_nil
  | first :: l => by
    rw [collectItems, List.mem_append, mem_collectStrings first, mem_collectItems l]
    constructor
    · rintro (⟨hin, hne⟩ | ⟨⟨item, hmem, hin⟩, hne⟩)
      · exact ⟨⟨first, List.mem_cons_self, hin⟩, hne⟩
      · exact ⟨⟨item, List.mem_cons_of_mem _ hmem, hin⟩, hne⟩
    · rintro ⟨⟨item, hmem, hin⟩, hne⟩
      rcases List.mem_cons.mp hmem with rfl | hmem
      · exact Or.inl ⟨hin, hne⟩
      · exact Or.inr ⟨⟨item, hmem, hin⟩, hne⟩
end

/-- The verdicts of the strings of a payload, and the verdict of a payload without strings. -/
def verdictsInside (u : Unicode) (p : PayloadValue) : Set Verdict :=
  insert .allow ((fun s => (checkText u s).verdict) '' {s | Inside s p})

/-- The empty string, which the walk leaves out, is allowed anyway. -/
theorem verdictsInside_eq (u : Unicode) (p : PayloadValue) :
    verdictsInside u p = insert .allow ((fun s => (checkText u s).verdict) '' {s | s ∈ collectStrings p}) := by
  ext v
  constructor
  · rintro (rfl | ⟨s, hin, rfl⟩)
    · exact Set.mem_insert _ _
    · by_cases hempty : s = ""
      · subst hempty
        exact Set.mem_insert _ _
      · exact Or.inr ⟨s, (mem_collectStrings p).mpr ⟨hin, hempty⟩, rfl⟩
  · rintro (rfl | ⟨s, hs, rfl⟩)
    · exact Set.mem_insert _ _
    · exact Or.inr ⟨s, ((mem_collectStrings p).mp hs).1, rfl⟩

theorem checkPayload_isGreatest (u : Unicode) (p : PayloadValue) :
    IsGreatest (verdictsInside u p) (checkPayload u p).verdict := by
  rw [verdictsInside_eq]
  exact foldl_worse (collectStrings p) fun finding h => by cases h

/-- **Verdicts are monotone**: no padding of a text lowers its verdict, a payload gets the greatest verdict of the
strings at any depth of it, and payloads of the same strings, in whatever order and shape, get the same verdict. -/
theorem verdicts_monotone (u : Unicode) :
    (∀ pre s suf : String, (checkText u s).verdict ≤ (checkText u (pre ++ s ++ suf)).verdict) ∧
      (∀ p : PayloadValue, IsGreatest (verdictsInside u p) (checkPayload u p).verdict) ∧
      ∀ p q : PayloadValue, {s | Inside s p} = {s | Inside s q} →
        (checkPayload u p).verdict = (checkPayload u q).verdict := by
  refine ⟨verdict_padded, checkPayload_isGreatest u, fun p q h => ?_⟩
  have hq := checkPayload_isGreatest u q
  unfold verdictsInside at hq
  rw [← h] at hq
  exact (checkPayload_isGreatest u p).unique hq

theorem verdicts_monotone_reordered :
    (checkPayload .plain (.list [.str "drop table", .str "hello"])).verdict =
      (checkPayload .plain (.dict [(.int 1, .tuple [.str "hello"]), (.int 2, .str "drop table")])).verdict := by
  refine (verdicts_monotone .plain).2.2 _ _ ?_
  ext s
  constructor
  · rintro (_ | _ | ⟨hmem, h⟩)
    rcases List.mem_cons.mp hmem with rfl | hmem
    · exact .value (List.mem_cons_of_mem _ List.mem_cons_self) h
    · rw [List.mem_singleton.mp hmem] at h
      exact .value List.mem_cons_self (.entry List.mem_cons_self h)
  · rintro (_ | ⟨hmem, h⟩)
    rcases List.mem_cons.mp hmem with hpair | hmem
    · rw [(Prod.mk.inj hpair).2] at h
      rcases h with _ | _ | _ | ⟨hmem, h⟩
      rw [List.mem_singleton.mp hmem] at h
      exact .item (List.mem_cons_of_mem _ List.mem_cons_self) h
    · rw [(Prod.mk.inj (List.mem_singleton.mp hmem)).2] at h
      exact .item List.mem_cons_self h

end PromptInjectionGuard

end AgentHarness
