import AgentHarness.Redaction

/-!
# AuditExport — what the audit export lets through

`sanitize_audit_event_for_export` replaces the values under prompt-like keys and redacts the rest.
Both walks leave the items of a list in a list alone.  `export_ignores_prompts_iff`: the exported
event does not depend on what stands under prompt-like keys exactly if no such key lies in a list that
is itself an item of a list (`Leaks`).
-/

namespace AgentHarness

open Lib

def promptKeys : List String :=
  ["prompt", "query", "user_query", "input_text", "raw_prompt", "sql_prompt"]

def promptLike (u : Unicode) (key : String) : Bool :=
  promptKeys.any fun marker => marker.toList <:+: u.lower key.toList

section Sanitize

variable (u : Unicode)

mutual
/-- `_sanitize_prompt_like_fields`. -/
def sanitizeFields : List (String × PyVal) → List (String × PyVal)
  | [] => []
  | (key, value) :: data =>
    (key, if promptLike u key then .str "[REDACTED_PROMPT]" else sanitizeValue value) ::
      sanitizeFields data

def sanitizeValue : PyVal → PyVal
  | .dict d => .dict (sanitizeFields d)
  | .list l => .list (sanitizeItems l)
  | v => v

def sanitizeItems : List PyVal → List PyVal
  | [] => []
  | v :: l => sanitizeItem v :: sanitizeItems l

def sanitizeItem : PyVal → PyVal
  | .dict d => .dict (sanitizeFields d)
  | v => v
end

end Sanitize

/-- `summary`: `fmt` is `str` of a value that is not a text. -/
def exportSummary (u : Unicode) (fmt : PyVal → String) (event : Dict) : String :=
  let source := ((Dict.get event "reason").or (Dict.get event "action")).or
    ((Dict.get event "event_type").or (.str ""))
  let summary := u.strip (match source with
    | .str s => s
    | v => fmt v).toList
  String.ofList (if summary.length > 200 then summary.take 197 ++ "...".toList else summary)

/-- `redactMapping` where it is enabled. -/
def exportDetail (u : Unicode) (badNetloc : List Char → Bool) (redactionEnabled : Bool) (event : Dict) :
    Except PyExc Dict :=
  let detail := match Dict.get event "detail" with
    | .dict d => sanitizeFields u d
    | _ => []
  if redactionEnabled then redactMapping u badNetloc detail else .ok detail

def sanitizeAuditEventForExport (u : Unicode) (badNetloc : List Char → Bool) (fmt : PyVal → String)
    (redactionEnabled : Bool) (event : Dict) : Except PyExc Dict := do
  let detail ← exportDetail u badNetloc redactionEnabled event
  return [("event_id", Dict.get event "event_id"), ("event_type", Dict.get event "event_type"),
    ("task_id", Dict.get event "task_id"), ("actor", (Dict.get event "actor").or (.str "system")),
    ("action", (Dict.get event "action").or (.str "")), ("severity", Dict.get event "severity"),
    ("outcome", Dict.get event "outcome"), ("created_at", Dict.get event "timestamp"),
    ("request_id", Dict.get detail "request_id"),
    ("summary", .str (exportSummary u fmt event)), ("detail_redacted", .dict detail)]

/-! ### Equal but for prompts -/

mutual
/-- Two values that differ at most in what stands under prompt-like keys, at any depth. -/
inductive Same (u : Unicode) : PyVal → PyVal → Prop
  | refl (v : PyVal) : Same u v v
  | dict {d d' : List (String × PyVal)} : SameFields u d d' → Same u (.dict d) (.dict d')
  | list {l l' : List PyVal} : SameItems u l l' → Same u (.list l) (.list l')

inductive SameFields (u : Unicode) : List (String × PyVal) → List (String × PyVal) → Prop
  | nil : SameFields u [] []
  | prompt {k : String} {v v' : PyVal} {d d' : List (String × PyVal)} :
      promptLike u k = true → SameFields u d d' → SameFields u ((k, v) :: d) ((k, v') :: d')
  | field {k : String} {v v' : PyVal} {d d' : List (String × PyVal)} :
      Same u v v' → SameFields u d d' → SameFields u ((k, v) :: d) ((k, v') :: d')

inductive SameItems (u : Unicode) : List PyVal → List PyVal → Prop
  | nil : SameItems u [] []
  | cons {v v' : PyVal} {l l' : List PyVal} :
      Same u v v' → SameItems u l l' → SameItems u (v :: l) (v' :: l')
end

/-- Two events with the same fields, and details that are the same but for prompts. -/
def SameEvent (u : Unicode) (event event' : Dict) : Prop :=
  (∀ k, k ≠ "detail" → Dict.get? event' k = Dict.get? event k) ∧
    Same u (Dict.get event "detail") (Dict.get event' "detail")

/-- A prompt-like key occurs in the value. -/
inductive HidesPrompt (u : Unicode) : PyVal → Prop
  | key {d : List (String × PyVal)} {k : String} {v : PyVal} :
      (k, v) ∈ d → promptLike u k = true → HidesPrompt u (.dict d)
  | entry {d : List (String × PyVal)} {k : String} {v : PyVal} :
      (k, v) ∈ d → HidesPrompt u v → HidesPrompt u (.dict d)
  | item {l : List PyVal} {v : PyVal} : v ∈ l → HidesPrompt u v → HidesPrompt u (.list l)

/-- A prompt-like key lies in a list that is an item of a list, where no key above is prompt-like.
The flag says whether the value is the item of a list. -/
inductive Leaks (u : Unicode) : Bool → PyVal → Prop
  | field {isItem : Bool} {d : List (String × PyVal)} {k : String} {v : PyVal} :
      (k, v) ∈ d → promptLike u k = false → Leaks u false v → Leaks u isItem (.dict d)
  | item {l : List PyVal} {v : PyVal} : v ∈ l → Leaks u true v → Leaks u false (.list l)
  | nested {l : List PyVal} : HidesPrompt u (.list l) → Leaks u true (.list l)

/-- What the first walk makes of a value. -/
def sanitizeIn (u : Unicode) : Bool → PyVal → PyVal
  | false => sanitizeValue u
  | true => sanitizeItem u

section Equal

variable {u : Unicode}

mutual
/-- Without prompt-like keys, the same but for prompts is the same. -/
theorem Same.eq {v v' : PyVal} (h : Same u v v') (hno : ¬ HidesPrompt u v) : v = v' := by
  cases h with
  | refl => rfl
  | dict h =>
    rw [h.eq (fun k x hx hk => hno (.key hx hk)) fun k x hx => hno ∘ .entry hx]
  | list h => rw [h.eq fun x hx => hno ∘ .item hx]

theorem SameFields.eq {d d' : List (String × PyVal)} (h : SameFields u d d')
    (hkey : ∀ k x, (k, x) ∈ d → ¬ promptLike u k = true)
    (hentry : ∀ k x, (k, x) ∈ d → ¬ HidesPrompt u x) : d = d' := by
  cases h with
  | nil => rfl
  | prompt hk h => exact absurd hk (hkey _ _ List.mem_cons_self)
  | field hv h =>
    rw [hv.eq (hentry _ _ List.mem_cons_self), h.eq
      (fun k x hx => hkey k x (List.mem_cons_of_mem _ hx))
      fun k x hx => hentry k x (List.mem_cons_of_mem _ hx)]

theorem SameItems.eq {l l' : List PyVal} (h : SameItems u l l')
    (hitem : ∀ x ∈ l, ¬ HidesPrompt u x) : l = l' := by
  cases h with
  | nil => rfl
  | cons hv h =>
    rw [hv.eq (hitem _ List.mem_cons_self), h.eq fun x hx => hitem x (List.mem_cons_of_mem _ hx)]
end

mutual
/-- Where nothing leaks, the first walk removes every difference. -/
theorem Same.sanitize {v v' : PyVal} (h : Same u v v') {isItem : Bool} (hno : ¬ Leaks u isItem v) :
    sanitizeIn u isItem v = sanitizeIn u isItem v' := by
  cases h with
  | refl => rfl
  | dict h =>
    have hd := h.sanitize fun k x hx hk => hno ∘ .field hx hk
    cases isItem <;> simp only [sanitizeIn, sanitizeValue, sanitizeItem, hd]
  | list h =>
    cases isItem with
    | false =>
      have hl := h.sanitize fun x hx => hno ∘ .item hx
      simp only [sanitizeIn, sanitizeValue, hl]
    | true => rw [(Same.list h).eq fun hp => hno (.nested hp)]

theorem SameFields.sanitize {d d' : List (String × PyVal)} (h : SameFields u d d')
    (hno : ∀ k x, (k, x) ∈ d → promptLike u k = false → ¬ Leaks u false x) :
    sanitizeFields u d = sanitizeFields u d' := by
  cases h with
  | nil => rfl
  | prompt hk h =>
    have hd := h.sanitize fun k x hx => hno k x (List.mem_cons_of_mem _ hx)
    simp only [sanitizeFields, hk, if_true, hd]
  | @field k v v' d d' hv h =>
    have hd := h.sanitize fun k x hx => hno k x (List.mem_cons_of_mem _ hx)
    unfold sanitizeFields
    rw [hd]
    cases hk : promptLike u k with
    | true => rfl
    | false =>
      have hv' : sanitizeValue u v = sanitizeValue u v' :=
        hv.sanitize (hno k v List.mem_cons_self hk)
      rw [if_neg Bool.false_ne_true, if_neg Bool.false_ne_true, hv']

theorem SameItems.sanitize {l l' : List PyVal} (h : SameItems u l l')
    (hno : ∀ x ∈ l, ¬ Leaks u true x) : sanitizeItems u l = sanitizeItems u l' := by
  cases h with
  | nil => rfl
  | @cons v v' l l' hv h =>
    have hl := h.sanitize fun x hx => hno x (List.mem_cons_of_mem _ hx)
    have hv' : sanitizeItem u v = sanitizeItem u v' := hv.sanitize (hno v List.mem_cons_self)
    simp only [sanitizeItems, hl, hv']
end

end Equal

/-! ### What the second walk keeps of a difference -/

/-- The second walk: in a zone as `redact_mapping` does, or not at all. -/
def redactAt (u : Unicode) (badNetloc : List Char → Bool) : Option Zone → PyVal → Except PyExc PyVal
  | some z, v => redactIn u badNetloc z v
  | none, v => .ok v

def entryZone (u : Unicode) (z : Option Zone) (k : String) : Option Zone := z.map fun _ => zoneOf u k

section Different

variable {u : Unicode} {badNetloc : List Char → Bool}

theorem redactIn_dict_iff {z : Zone} {d : Dict} {v : PyVal} :
    redactIn u badNetloc z (.dict d) = .ok v ↔
      ∃ d', redactMapping u badNetloc d = .ok d' ∧ v = .dict d' := by
  constructor
  · exact redactIn_dict
  · rintro ⟨d', hd, rfl⟩
    cases z <;> simp only [redactIn, redactSensitiveValue, redactValue, redactItem, hd] <;> rfl

/-- A value that a walk passes on comes out as itself. -/
theorem kept_iff {α : Type} {f : α → PyVal} {g : PyVal → Except PyExc PyVal} {R : α → Prop} {a : α}
    {w : PyVal} (hg : ∀ v, g v = .ok v) (hR : ∀ b, R b ↔ a = b) :
    g (f a) = .ok w ↔ ∃ b, R b ∧ w = f b := by
  rw [hg]
  constructor
  · intro h
    exact ⟨a, (hR a).mpr rfl, (Except.ok.inj h).symm⟩
  · rintro ⟨b, hb, rfl⟩
    rw [(hR b).mp hb]

theorem redactAt_dict {z : Option Zone} {d : Dict} {w : PyVal} :
    redactAt u badNetloc z (.dict d) = .ok w ↔
      ∃ d', List.Forall₂ (fun kv kv' => kv'.1 = kv.1 ∧
        redactAt u badNetloc (entryZone u z kv.1) kv.2 = .ok kv'.2) d d' ∧ w = .dict d' := by
  cases z with
  | some z =>
    have hentries : ∀ d', redactMapping u badNetloc d = .ok d' ↔ List.Forall₂ (fun kv kv' =>
        kv'.1 = kv.1 ∧ redactAt u badNetloc (entryZone u (some z) kv.1) kv.2 = .ok kv'.2) d d' :=
      fun d' => redactMapping_iff
    simp only [← hentries]
    exact redactIn_dict_iff
  | none =>
    have hentries : ∀ d', List.Forall₂ (fun kv kv' => kv'.1 = kv.1 ∧
        redactAt u badNetloc (entryZone u none kv.1) kv.2 = .ok kv'.2) d d' ↔ d = d' := by
      intro d'
      have heq : ∀ kv kv' : String × PyVal, (kv'.1 = kv.1 ∧
          redactAt u badNetloc (entryZone u none kv.1) kv.2 = .ok kv'.2) ↔ kv = kv' := by
        rintro ⟨k, v⟩ ⟨k', v'⟩
        simp only [redactAt, entryZone, Option.map_none, Except.ok.injEq, Prod.mk.injEq, eq_comm]
      simp only [heq, List.forall₂_eq_eq_eq]
    exact kept_iff (fun _ => rfl) hentries

theorem redactAt_list {z : Option Zone} {l : List PyVal} {w : PyVal} :
    redactAt u badNetloc z (.list l) = .ok w ↔
      ∃ l', List.Forall₂ (fun x x' => redactAt u badNetloc (z.bind Zone.items) x = .ok x') l l' ∧
        w = .list l' := by
  have hkeep : ∀ l', List.Forall₂ (fun x x' => redactAt u badNetloc none x = .ok x') l l' ↔ l = l' := by
    intro l'
    simp only [redactAt, Except.ok.injEq, List.forall₂_eq_eq_eq]
  cases z with
  | none => exact kept_iff (fun _ => rfl) hkeep
  | some z =>
    rw [Option.bind_some]
    cases hz : z.items with
    | some z' => exact redactIn_list hz
    | none =>
      have hitem : z = .item := by cases z <;> first | rfl | cases hz
      subst hitem
      exact kept_iff (g := fun v => .ok v) (fun _ => rfl) hkeep

/-- One element of a list changes, and the image of the list with it. -/
theorem forall₂_replace {α : Type} {R : α → α → Prop} {a b c : List α} {x : α}
    (h : List.Forall₂ R (a ++ x :: b) c) :
    ∃ y, R x y ∧ ∀ x' y', R x' y' → y' ≠ y → ∃ c', List.Forall₂ R (a ++ x' :: b) c' ∧ c' ≠ c := by
  induction a generalizing c with
  | nil =>
    cases h with
    | cons hx hb =>
      rename_i y c
      refine ⟨y, hx, fun x' y' hx' hne => ⟨y' :: c, List.Forall₂.cons hx' hb, fun heq => ?_⟩⟩
      injection heq with heq
      exact hne heq
  | cons a₀ a ih =>
    cases h with
    | cons ha h =>
      rename_i y₀ c
      obtain ⟨y, hy, hrep⟩ := ih h
      refine ⟨y, hy, fun x' y' hx' hne => ?_⟩
      obtain ⟨c', hc', hcne⟩ := hrep x' y' hx' hne
      refine ⟨y₀ :: c', List.Forall₂.cons ha hc', fun heq => ?_⟩
      injection heq with _ heq
      exact hcne heq

theorem SameFields.refl (d : Dict) : SameFields u d d := by
  induction d with
  | nil => exact .nil
  | cons kv d ih => exact .field (.refl _) ih

theorem SameItems.refl (l : List PyVal) : SameItems u l l := by
  induction l with
  | nil => exact .nil
  | cons v l ih => exact .cons (.refl _) ih

theorem SameFields.replace {a b : Dict} {k : String} {v v' : PyVal}
    (h : promptLike u k = true ∨ Same u v v') :
    SameFields u (a ++ (k, v) :: b) (a ++ (k, v') :: b) := by
  induction a with
  | nil =>
    rcases h with h | h
    · exact .prompt h (.refl b)
    · exact .field h (.refl b)
  | cons kv a ih => exact .field (.refl _) ih

theorem SameItems.replace {a b : List PyVal} {v v' : PyVal} (h : Same u v v') :
    SameItems u (a ++ v :: b) (a ++ v' :: b) := by
  induction a with
  | nil => exact .cons h (.refl b)
  | cons x a ih => exact .cons (.refl _) ih

/-- In every zone, `None` and 0 come out different. -/
theorem redactAt_other (z : Option Zone) (w : PyVal) :
    ∃ v' w', redactAt u badNetloc z v' = .ok w' ∧ w' ≠ w := by
  have hnull : redactAt u badNetloc z .null = .ok .null := by
    rcases z with _ | (_ | _ | _) <;> rfl
  by_cases hw : w = .null
  · subst hw
    rcases z with _ | (_ | _ | _)
    · exact ⟨.int 0, .int 0, rfl, fun h => nomatch h⟩
    · exact ⟨.int 0, .str "***", rfl, fun h => nomatch h⟩
    · exact ⟨.int 0, .int 0, rfl, fun h => nomatch h⟩
    · exact ⟨.int 0, .int 0, rfl, fun h => nomatch h⟩
  · exact ⟨.null, .null, hnull, fun h => hw h.symm⟩

/-- A walk shows what stands under a prompt-like key. -/
theorem HidesPrompt.differs {v : PyVal} (h : HidesPrompt u v) {z : Option Zone} {w : PyVal}
    (hw : redactAt u badNetloc z v = .ok w) :
    ∃ v' w', Same u v v' ∧ redactAt u badNetloc z v' = .ok w' ∧ w' ≠ w := by
  induction h generalizing z w with
  | @key d k x hx hk =>
    obtain ⟨a, b, rfl⟩ := List.append_of_mem hx
    obtain ⟨e, he, rfl⟩ := redactAt_dict.mp hw
    obtain ⟨⟨k₁, y⟩, -, hrep⟩ := forall₂_replace he
    obtain ⟨x', y', hy', hne⟩ := @redactAt_other u badNetloc (entryZone u z k) y
    obtain ⟨e', he', hne'⟩ := hrep (k, x') (k, y') ⟨rfl, hy'⟩ (fun h => hne (Prod.mk.inj h).2)
    exact ⟨.dict _, .dict e', .dict (.replace (.inl hk)), redactAt_dict.mpr ⟨e', he', rfl⟩,
      fun h => hne' (PyVal.dict.inj h)⟩
  | @entry d k x hx _ ih =>
    obtain ⟨a, b, rfl⟩ := List.append_of_mem hx
    obtain ⟨e, he, rfl⟩ := redactAt_dict.mp hw
    obtain ⟨⟨k₁, y⟩, ⟨hk, hy⟩, hrep⟩ := forall₂_replace he
    obtain ⟨x', y', hsame, hy', hne⟩ := ih hy
    obtain ⟨e', he', hne'⟩ := hrep (k, x') (k, y') ⟨rfl, hy'⟩ (fun h => hne (Prod.mk.inj h).2)
    exact ⟨.dict _, .dict e', .dict (.replace (.inr hsame)), redactAt_dict.mpr ⟨e', he', rfl⟩,
      fun h => hne' (PyVal.dict.inj h)⟩
  | @item l x hx _ ih =>
    obtain ⟨a, b, rfl⟩ := List.append_of_mem hx
    obtain ⟨e, he, rfl⟩ := redactAt_list.mp hw
    obtain ⟨y, hy, hrep⟩ := forall₂_replace he
    obtain ⟨x', y', hsame, hy', hne⟩ := ih hy
    obtain ⟨e', he', hne'⟩ := hrep x' y' hy' hne
    exact ⟨.list _, .list e', .list (.replace hsame), redactAt_list.mpr ⟨e', he', rfl⟩,
      fun h => hne' (PyVal.list.inj h)⟩

theorem sanitizeFields_append (a : Dict) (k : String) (v : PyVal) (b : Dict) :
    sanitizeFields u (a ++ (k, v) :: b) = sanitizeFields u a ++
      (k, if promptLike u k then .str "[REDACTED_PROMPT]" else sanitizeValue u v) ::
        sanitizeFields u b := by
  induction a with
  | nil => rfl
  | cons kv a ih => simp only [List.cons_append, sanitizeFields, ih]

theorem sanitizeItems_append (a : List PyVal) (v : PyVal) (b : List PyVal) :
    sanitizeItems u (a ++ v :: b) = sanitizeItems u a ++ sanitizeItem u v :: sanitizeItems u b := by
  induction a with
  | nil => rfl
  | cons x a ih => simp only [List.cons_append, sanitizeItems, ih]

theorem sanitizeIn_dict (isItem : Bool) (d : Dict) :
    sanitizeIn u isItem (.dict d) = .dict (sanitizeFields u d) := by
  cases isItem <;> rfl

/-- Both walks show what leaks. -/
theorem Leaks.differs {isItem : Bool} {v : PyVal} (h : Leaks u isItem v) {z : Option Zone} {w : PyVal}
    (hw : redactAt u badNetloc z (sanitizeIn u isItem v) = .ok w) :
    ∃ v' w', Same u v v' ∧ redactAt u badNetloc z (sanitizeIn u isItem v') = .ok w' ∧ w' ≠ w := by
  induction h generalizing z w with
  | @field isItem d k x hx hk _ ih =>
    obtain ⟨a, b, rfl⟩ := List.append_of_mem hx
    rw [sanitizeIn_dict, sanitizeFields_append, hk, if_neg Bool.false_ne_true] at hw
    obtain ⟨e, he, rfl⟩ := redactAt_dict.mp hw
    obtain ⟨⟨k₁, y⟩, ⟨-, hy⟩, hrep⟩ := forall₂_replace he
    obtain ⟨x', y', hsame, hy', hne⟩ := ih hy
    obtain ⟨e', he', hne'⟩ := hrep (k, sanitizeValue u x') (k, y') ⟨rfl, hy'⟩
      (fun h => hne (Prod.mk.inj h).2)
    refine ⟨.dict (a ++ (k, x') :: b), .dict e', .dict (.replace (.inr hsame)), ?_,
      fun h => hne' (PyVal.dict.inj h)⟩
    rw [sanitizeIn_dict, sanitizeFields_append, hk, if_neg Bool.false_ne_true]
    exact redactAt_dict.mpr ⟨e', he', rfl⟩
  | @item l x hx _ ih =>
    obtain ⟨a, b, rfl⟩ := List.append_of_mem hx
    simp only [sanitizeIn, sanitizeValue, sanitizeItems_append] at hw
    obtain ⟨e, he, rfl⟩ := redactAt_list.mp hw
    obtain ⟨y, hy, hrep⟩ := forall₂_replace he
    obtain ⟨x', y', hsame, hy', hne⟩ := ih hy
    obtain ⟨e', he', hne'⟩ := hrep (sanitizeItem u x') y' hy' hne
    refine ⟨.list (a ++ x' :: b), .list e', .list (.replace hsame), ?_,
      fun h => hne' (PyVal.list.inj h)⟩
    simp only [sanitizeIn, sanitizeValue, sanitizeItems_append]
    exact redactAt_list.mpr ⟨e', he', rfl⟩
  | nested hp =>
    obtain ⟨v', w', hsame, hw', hne⟩ := hp.differs hw
    refine ⟨v', w', hsame, ?_, hne⟩
    cases hsame with
    | refl => exact hw'
    | list hl => exact hw'

end Different

/-! ### The exported event -/

section Export

variable {u : Unicode} {badNetloc : List Char → Bool} {fmt : PyVal → String} {redactionEnabled : Bool}
  {event : Dict}

/-- The exported event is the same for every event that is the same but for prompts. -/
def IgnoresPrompts (u : Unicode) (badNetloc : List Char → Bool) (fmt : PyVal → String)
    (redactionEnabled : Bool) (event : Dict) : Prop :=
  ∀ event', SameEvent u event event' →
    sanitizeAuditEventForExport u badNetloc fmt redactionEnabled event' =
      sanitizeAuditEventForExport u badNetloc fmt redactionEnabled event

/-- The detail, where it is a dict. -/
def detailOf (event : Dict) : Dict :=
  match Dict.get event "detail" with
  | .dict d => d
  | _ => []

theorem detailOf_leaks (h : Leaks u false (.dict (detailOf event))) :
    Dict.get event "detail" = .dict (detailOf event) := by
  unfold detailOf at h ⊢
  cases hd : Dict.get event "detail" with
  | dict d => rfl
  | _ =>
    rw [hd] at h
    obtain ⟨hx, -, -⟩ := h
    exact absurd hx List.not_mem_nil

theorem Same.isDict {d : Dict} {v : PyVal} (h : Same u (.dict d) v) : ∃ d', v = .dict d' := by
  cases h with
  | refl => exact ⟨d, rfl⟩
  | dict => exact ⟨_, rfl⟩

theorem exportDetail_redactAt {d : Dict} (hd : Dict.get event "detail" = .dict d) {out : Dict} :
    exportDetail u badNetloc redactionEnabled event = .ok out ↔
      redactAt u badNetloc (if redactionEnabled then some .plain else none)
        (sanitizeIn u false (.dict d)) = .ok (.dict out) := by
  unfold exportDetail
  rw [hd, sanitizeIn_dict]
  cases redactionEnabled with
  | false => simp [redactAt]
  | true =>
    simp only [if_true, redactAt, redactIn_dict_iff, PyVal.dict.injEq]
    exact ⟨fun h => ⟨out, h, rfl⟩, fun ⟨d', h, heq⟩ => heq ▸ h⟩

/-- The other fields of the exported event are read from the other fields of the event. -/
theorem export_congr {event' : Dict}
    (hother : ∀ k, k ≠ "detail" → Dict.get? event' k = Dict.get? event k)
    (hdetail : exportDetail u badNetloc redactionEnabled event' =
      exportDetail u badNetloc redactionEnabled event) :
    sanitizeAuditEventForExport u badNetloc fmt redactionEnabled event' =
      sanitizeAuditEventForExport u badNetloc fmt redactionEnabled event := by
  have hget : ∀ k, k ≠ "detail" → Dict.get event' k = Dict.get event k := by
    intro k hk
    rw [Dict.get, Dict.getD, hother k hk, Dict.get, Dict.getD]
  unfold sanitizeAuditEventForExport exportSummary
  rw [hdetail]
  simp only [hget _ (show "event_id" ≠ "detail" by decide), hget _ (show "event_type" ≠ "detail" by decide),
    hget _ (show "task_id" ≠ "detail" by decide), hget _ (show "actor" ≠ "detail" by decide),
    hget _ (show "action" ≠ "detail" by decide), hget _ (show "severity" ≠ "detail" by decide),
    hget _ (show "outcome" ≠ "detail" by decide), hget _ (show "timestamp" ≠ "detail" by decide),
    hget _ (show "reason" ≠ "detail" by decide)]

theorem export_detail {out : Dict}
    (h : sanitizeAuditEventForExport u badNetloc fmt redactionEnabled event = .ok out) :
    ∃ detail, exportDetail u badNetloc redactionEnabled event = .ok detail ∧
      Dict.get? out "detail_redacted" = some (.dict detail) := by
  obtain ⟨detail, hd, hout⟩ := bind_ok h
  cases hout
  exact ⟨detail, hd, by simp⟩

/-- **The export is independent of prompts exactly if no prompt-like key lies in a list in a list.** -/
theorem export_ignores_prompts_iff
    (h : ∃ out, sanitizeAuditEventForExport u badNetloc fmt redactionEnabled event = .ok out) :
    IgnoresPrompts u badNetloc fmt redactionEnabled event ↔
      ¬ Leaks u false (.dict (detailOf event)) := by
  constructor
  · intro hind hleak
    obtain ⟨out, hout⟩ := h
    obtain ⟨detail, hdetail, hshown⟩ := export_detail hout
    have hd : Dict.get event "detail" = .dict (detailOf event) := detailOf_leaks hleak
    obtain ⟨v', w', hsame, hw', hne⟩ := hleak.differs ((exportDetail_redactAt hd).mp hdetail)
    obtain ⟨d', rfl⟩ := hsame.isDict
    rw [sanitizeIn_dict] at hw'
    obtain ⟨e', -, rfl⟩ := redactAt_dict.mp hw'
    have hd' : Dict.get (Dict.set event "detail" (.dict d')) "detail" = .dict d' := by
      simp [Dict.get, Dict.getD]
    have hother : ∀ k, k ≠ "detail" →
        Dict.get? (Dict.set event "detail" (.dict d')) k = Dict.get? event k :=
      fun k hk => Dict.get?_set_ne hk
    have hout' := hind (Dict.set event "detail" (.dict d')) ⟨hother, by rw [hd, hd']; exact hsame⟩
    rw [hout] at hout'
    obtain ⟨detail', hdetail', hshown'⟩ := export_detail hout'
    rw [hshown] at hshown'
    have hw'' := (exportDetail_redactAt hd').mp hdetail'
    rw [sanitizeIn_dict, hw'] at hw''
    exact hne ((Except.ok.inj hw'').trans (Option.some.inj hshown').symm)
  · intro hno event' hsame
    obtain ⟨hother, hdetail⟩ := hsame
    refine export_congr hother ?_
    unfold exportDetail
    cases hd : Dict.get event "detail" with
    | dict d =>
      rw [hd] at hdetail
      obtain ⟨d', hd'⟩ := hdetail.isDict
      have hclean : detailOf event = d := by rw [detailOf, hd]
      rw [hd'] at hdetail ⊢
      rw [hclean] at hno
      have hsan := hdetail.sanitize hno
      rw [sanitizeIn_dict, sanitizeIn_dict] at hsan
      dsimp only
      rw [PyVal.dict.inj hsan]
    | _ =>
      -- no dict on either side: both details are empty
      rw [hd] at hdetail
      generalize Dict.get event' "detail" = v' at hdetail
      cases hdetail <;> rfl

/-- A prompt in a dict in a list is replaced. -/
theorem export_ignores_prompts_demo :
    IgnoresPrompts .plain (fun _ => false) (fun _ => "") true
      [("event_id", .str "e1"), ("detail", .dict [("steps", .list [.dict [("prompt", .str "p")]])])] := by
  refine (export_ignores_prompts_iff ⟨_, rfl⟩).mpr fun h => ?_
  change Leaks .plain false (.dict [("steps", .list [.dict [("prompt", .str "p")]])]) at h
  obtain ⟨hx, -, h⟩ := h
  cases List.mem_singleton.mp hx
  obtain _ | ⟨hx, h⟩ := h
  cases List.mem_singleton.mp hx
  obtain ⟨hx, hk, -⟩ := h
  cases List.mem_singleton.mp hx
  exact absurd hk (by decide)

/-- A prompt in a list in a list is exported. -/
theorem export_shows_prompt :
    ¬ IgnoresPrompts .plain (fun _ => false) (fun _ => "") true
      [("event_id", .str "e1"),
        ("detail", .dict [("batches", .list [.list [.dict [("prompt", .str "p")]]])])] := by
  intro h
  have hexport : ∀ s, ∃ fields, sanitizeAuditEventForExport .plain (fun _ => false) (fun _ => "") true
      [("event_id", .str "e1"),
        ("detail", .dict [("batches", .list [.list [.dict [("prompt", .str s)]]])])] =
      .ok (fields ++ [("detail_redacted",
        .dict [("batches", .list [.list [.dict [("prompt", .str s)]]])])]) :=
    fun s => ⟨[("event_id", .str "e1"), ("event_type", .null), ("task_id", .null),
      ("actor", .str "system"), ("action", .str ""), ("severity", .null), ("outcome", .null),
      ("created_at", .null), ("request_id", .null), ("summary", .str "")], rfl⟩
  have hsame : Same .plain (.dict [("batches", .list [.list [.dict [("prompt", .str "p")]]])])
      (.dict [("batches", .list [.list [.dict [("prompt", .str "q")]]])]) :=
    .dict (.field (.list (.cons (.list (.cons (.dict (.prompt (by decide) .nil)) .nil)) .nil)) .nil)
  have heq := h [("event_id", .str "e1"),
    ("detail", .dict [("batches", .list [.list [.dict [("prompt", .str "q")]]])])] ⟨?_, hsame⟩
  · obtain ⟨f, hp⟩ := hexport "p"
    obtain ⟨f', hq⟩ := hexport "q"
    rw [hp, hq] at heq
    have hlast := congrArg List.getLast? (Except.ok.inj heq)
    simp at hlast
  · intro k hk
    by_cases he : k = "event_id"
    · subst he
      rfl
    · simp [he, hk]

end Export

end AgentHarness
