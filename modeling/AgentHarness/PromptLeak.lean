import AgentHarness.AuditExport
import AgentHarness.PilotReport

/-!
# PromptLeak — which prompts `sanitize_pilot_report_payload` lets through

The walk of the sanitizer ends at a sensitive key, and `redact_sensitive_value` behind it knows no
prompt-like keys.  So what is shown is what stands under a prompt-like key somewhere below a sensitive one
(`Shown`).  Where the sanitizer returns, its result is independent of all prompts exactly if there is none.
-/

namespace AgentHarness

open Lib

namespace PilotReport

variable (env : PilotEnv)

mutual
/-- Two payloads that differ at most in what stands under prompt-like keys, at any depth. -/
inductive Agree : Payload → Payload → Prop
  | refl (v : Payload) : Agree v v
  | dict {d d' : List (String × Payload)} : AgreeEntries d d' → Agree (.dict d) (.dict d')
  | list {l l' : List Payload} : AgreeItems l l' → Agree (.list l) (.list l')
  | dataclass {name : String} {d d' : List (String × Payload)} :
      AgreeEntries d d' → Agree (.dataclass name d) (.dataclass name d')

inductive AgreeEntries : List (String × Payload) → List (String × Payload) → Prop
  | nil : AgreeEntries [] []
  | prompt {k : String} {v v' : Payload} {d d' : List (String × Payload)} :
      isPromptLikeKey env k = true → AgreeEntries d d' → AgreeEntries ((k, v) :: d) ((k, v') :: d')
  | entry {k : String} {v v' : Payload} {d d' : List (String × Payload)} :
      Agree v v' → AgreeEntries d d' → AgreeEntries ((k, v) :: d) ((k, v') :: d')

inductive AgreeItems : List Payload → List Payload → Prop
  | nil : AgreeItems [] []
  | cons {v v' : Payload} {l l' : List Payload} :
      Agree v v' → AgreeItems l l' → AgreeItems (v :: l) (v' :: l')
end

/-- The redactor, in a zone or where it passes a value on, comes to a prompt.  A dataclass is a text to it
before `asdict`: then the text has to show the difference. -/
inductive Held : Option Zone → Bool → Payload → Prop
  | key {z : Option Zone} {deep : Bool} {d : List (String × Payload)} {k : String} {v : Payload} :
      (k, v) ∈ d → isPromptLikeKey env k = true → Held z deep (.dict d)
  | entry {z : Option Zone} {deep : Bool} {d : List (String × Payload)} {k : String} {v : Payload} :
      (k, v) ∈ d → Held (entryZone env.unicode z k) deep v → Held z deep (.dict d)
  | item {z : Option Zone} {deep : Bool} {l : List Payload} {v : Payload} :
      v ∈ l → Held (z.bind Zone.items) deep v → Held z deep (.list l)
  | fields {z : Option Zone} {name : String} {d : List (String × Payload)} :
      Held z true (.dict d) → Held z true (.dataclass name d)
  | text {z : Option Zone} {name : String} {d d' : List (String × Payload)} :
      AgreeEntries env d d' →
      redactAt env.unicode env.badNetloc z (.object (env.pyStr name d')) ≠
        redactAt env.unicode env.badNetloc z (.object (env.pyStr name d)) →
      Held z false (.dataclass name d)

/-- A prompt-like key lies below a sensitive key that the walk comes to. -/
inductive Shown : Bool → Payload → Prop
  | secret {deep : Bool} {d : List (String × Payload)} {k : String} {v : Payload} :
      (k, v) ∈ d → isPromptLikeKey env k = false → isSensitiveKey env k = true →
      Held env (some .sensitive) deep v → Shown deep (.dict d)
  | entry {deep : Bool} {d : List (String × Payload)} {k : String} {v : Payload} :
      (k, v) ∈ d → isPromptLikeKey env k = false → isSensitiveKey env k = false → Shown deep v →
      Shown deep (.dict d)
  | item {deep : Bool} {l : List Payload} {v : Payload} : v ∈ l → Shown deep v → Shown deep (.list l)
  | fields {deep : Bool} {name : String} {d : List (String × Payload)} :
      Shown true (.dict d) → Shown deep (.dataclass name d)

/-- The result is the same for every payload that differs in prompts only. -/
def HidesPrompts (payload : Payload) : Prop :=
  ∀ payload', Agree env payload payload' → ∀ out,
    sanitizePilotReportPayload env payload' = .ok out ↔ sanitizePilotReportPayload env payload = .ok out

variable {env} {deep : Bool}

/-! ## Payloads that agree -/

theorem AgreeEntries.refl (d : List (String × Payload)) : AgreeEntries env d d := by
  induction d with
  | nil => exact .nil
  | cons kv d ih => exact .entry (.refl _) ih

theorem AgreeItems.refl (l : List Payload) : AgreeItems env l l := by
  induction l with
  | nil => exact .nil
  | cons v l ih => exact .cons (.refl _) ih

theorem AgreeEntries.replace {a b : List (String × Payload)} {k : String} {v v' : Payload}
    (h : isPromptLikeKey env k = true ∨ Agree env v v') :
    AgreeEntries env (a ++ (k, v) :: b) (a ++ (k, v') :: b) := by
  induction a with
  | nil =>
    rcases h with h | h
    · exact .prompt h (.refl b)
    · exact .entry h (.refl b)
  | cons kv a ih => exact .entry (.refl _) ih

theorem AgreeItems.replace {a b : List Payload} {v v' : Payload} (h : Agree env v v') :
    AgreeItems env (a ++ v :: b) (a ++ v' :: b) := by
  induction a with
  | nil => exact .cons h (.refl b)
  | cons x a ih => exact .cons (.refl _) ih

theorem seenEntries_eq (d : List (String × Payload)) :
    seenEntries env deep d = d.map fun kv => (kv.1, seen env deep kv.2) := by
  induction d with
  | nil => rfl
  | cons kv d ih => simp only [seenEntries, ih, List.map_cons]

theorem seenItems_eq (l : List Payload) : seenItems env deep l = l.map (seen env deep) := by
  induction l with
  | nil => rfl
  | cons v l ih => simp only [seenItems, ih, List.map_cons]

/-- What stands at a place of the image is the image of the element at that place. -/
theorem forall₂_place {α β : Type} {R : α → β → Prop} {a b : List α} {x : α} {c : List β}
    (h : List.Forall₂ R (a ++ x :: b) c) : ∃ y, R x y ∧ ∀ x', List.Forall₂ R (a ++ x' :: b) c → R x' y := by
  induction a generalizing c with
  | nil =>
    obtain ⟨y, c, hx, -, rfl⟩ := List.forall₂_cons_left_iff.mp h
    exact ⟨y, hx, fun x' h' => (List.forall₂_cons.mp h').1⟩
  | cons a₀ a ih =>
    obtain ⟨y₀, c, -, hrest, rfl⟩ := List.forall₂_cons_left_iff.mp h
    obtain ⟨y, hx, hall⟩ := ih hrest
    exact ⟨y, hx, fun x' h' => hall x' (List.forall₂_cons.mp h').2⟩

/-! ## What the redactor shows -/

theorem seen_dict {d : List (String × Payload)} : seen env deep (.dict d) = .dict (seenEntries env deep d) := rfl

theorem seen_list {l : List Payload} : seen env deep (.list l) = .list (seenItems env deep l) := rfl

theorem redactAt_seen_dict {z : Option Zone} {d : List (String × Payload)} {w : PyVal} :
    redactAt env.unicode env.badNetloc z (seen env deep (.dict d)) = .ok w ↔
      ∃ d', List.Forall₂ (fun kv kv' => kv'.1 = kv.1 ∧ redactAt env.unicode env.badNetloc
        (entryZone env.unicode z kv.1) (seen env deep kv.2) = .ok kv'.2) d d' ∧ w = .dict d' := by
  rw [seen_dict, redactAt_dict, seenEntries_eq]
  simp only [List.forall₂_map_left_iff]

theorem redactAt_seen_list {z : Option Zone} {l : List Payload} {w : PyVal} :
    redactAt env.unicode env.badNetloc z (seen env deep (.list l)) = .ok w ↔
      ∃ l', List.Forall₂ (fun v v' => redactAt env.unicode env.badNetloc (z.bind Zone.items)
        (seen env deep v) = .ok v') l l' ∧ w = .list l' := by
  rw [seen_list, redactAt_list, seenItems_eq]
  simp only [List.forall₂_map_left_iff]

/-- Some value comes out different, in every zone. -/
theorem redactAt_seen_other (env : PilotEnv) (deep : Bool) (z : Option Zone) (w : PyVal) :
    ∃ v, redactAt env.unicode env.badNetloc z (seen env deep v) ≠ .ok w := by
  have hnull : redactAt env.unicode env.badNetloc z (seen env deep .null) = .ok .null := by
    rcases z with _ | (_ | _ | _) <;> rfl
  by_cases hw : w = .null
  · subst hw
    refine ⟨.int 0, ?_⟩
    rcases z with _ | (_ | _ | _) <;> exact fun h => nomatch h
  · refine ⟨.null, fun h => hw ?_⟩
    rw [hnull] at h
    exact (Except.ok.inj h).symm

/-- What is held by the redactor is shown. -/
theorem Held.differs {z : Option Zone} {v : Payload} {w : PyVal} (h : Held env z deep v)
    (hw : redactAt env.unicode env.badNetloc z (seen env deep v) = .ok w) :
    ∃ v', Agree env v v' ∧ redactAt env.unicode env.badNetloc z (seen env deep v') ≠ .ok w := by
  induction h generalizing w with
  | @key z deep d k v hmem hk =>
    obtain ⟨a, b, rfl⟩ := List.append_of_mem hmem
    obtain ⟨e, he, rfl⟩ := redactAt_seen_dict.mp hw
    obtain ⟨⟨k₁, y⟩, -, hplace⟩ := forall₂_place he
    obtain ⟨v', hne⟩ := redactAt_seen_other env deep (entryZone env.unicode z k) y
    refine ⟨.dict (a ++ (k, v') :: b), .dict (.replace (.inl hk)), fun h => hne ?_⟩
    obtain ⟨e', he', heq⟩ := redactAt_seen_dict.mp h
    obtain rfl := PyVal.dict.inj heq
    exact (hplace _ he').2
  | @entry z deep d k v hmem _ ih =>
    obtain ⟨a, b, rfl⟩ := List.append_of_mem hmem
    obtain ⟨e, he, rfl⟩ := redactAt_seen_dict.mp hw
    obtain ⟨⟨k₁, y⟩, ⟨-, hy⟩, hplace⟩ := forall₂_place he
    obtain ⟨v', hagree, hne⟩ := ih hy
    refine ⟨.dict (a ++ (k, v') :: b), .dict (.replace (.inr hagree)), fun h => hne ?_⟩
    obtain ⟨e', he', heq⟩ := redactAt_seen_dict.mp h
    obtain rfl := PyVal.dict.inj heq
    exact (hplace _ he').2
  | @item z deep l v hmem _ ih =>
    obtain ⟨a, b, rfl⟩ := List.append_of_mem hmem
    obtain ⟨e, he, rfl⟩ := redactAt_seen_list.mp hw
    obtain ⟨y, hy, hplace⟩ := forall₂_place he
    obtain ⟨v', hagree, hne⟩ := ih hy
    refine ⟨.list (a ++ v' :: b), .list (.replace hagree), fun h => hne ?_⟩
    obtain ⟨e', he', heq⟩ := redactAt_seen_list.mp h
    obtain rfl := PyVal.list.inj heq
    exact hplace _ he'
  | @fields z name d _ ih =>
    obtain ⟨v', hagree, hne⟩ := ih hw
    cases hagree with
    | refl => exact absurd hw hne
    | dict hd => exact ⟨.dataclass name _, .dataclass hd, hne⟩
  | @text z name d d' hagree hne => exact ⟨.dataclass name d', .dataclass hagree, fun h => hne (h.trans hw.symm)⟩

/-! ## What the redactor does not show -/

/-- Both computations return the same, or neither returns. -/
def SameOk (x y : Except PyExc PyVal) : Prop := ∀ w, x = .ok w ↔ y = .ok w

mutual
/-- Where no prompt is held, the redactor makes the same of payloads that agree. -/
theorem Agree.redact {v v' : Payload} (h : Agree env v v') {z : Option Zone} {deep : Bool}
    (hno : ¬ Held env z deep v) :
    SameOk (redactAt env.unicode env.badNetloc z (seen env deep v))
      (redactAt env.unicode env.badNetloc z (seen env deep v')) := by
  intro w
  cases h with
  | refl => rfl
  | dict h =>
    rw [redactAt_seen_dict, redactAt_seen_dict]
    refine exists_congr fun e => and_congr_left fun _ => ?_
    exact h.redact (fun k x hx hk => hno (.key hx hk)) (fun k x hx => hno ∘ .entry hx) e
  | list h =>
    rw [redactAt_seen_list, redactAt_seen_list]
    refine exists_congr fun e => and_congr_left fun _ => ?_
    exact h.redact (fun x hx => hno ∘ .item hx) e
  | @dataclass name d d' h =>
    cases deep with
    | true =>
      have hno : ¬ Held env z true (.dict d) := hno ∘ .fields
      show redactAt _ _ z (seen env true (.dict d)) = .ok w ↔ redactAt _ _ z (seen env true (.dict d')) = .ok w
      rw [redactAt_seen_dict, redactAt_seen_dict]
      refine exists_congr fun e => and_congr_left fun _ => ?_
      exact h.redact (fun k x hx hk => hno (.key hx hk)) (fun k x hx => hno ∘ .entry hx) e
    | false =>
      have heq : redactAt env.unicode env.badNetloc z (seen env false (.dataclass name d')) =
          redactAt env.unicode env.badNetloc z (seen env false (.dataclass name d)) := by
        by_contra hne
        exact hno (.text h hne)
      rw [heq]

theorem AgreeEntries.redact {d d' : List (String × Payload)} (h : AgreeEntries env d d') {z : Option Zone}
    {deep : Bool} (hkey : ∀ k x, (k, x) ∈ d → ¬ isPromptLikeKey env k = true)
    (hentry : ∀ k x, (k, x) ∈ d → ¬ Held env (entryZone env.unicode z k) deep x) (e : Dict) :
    List.Forall₂ (fun kv kv' => kv'.1 = kv.1 ∧ redactAt env.unicode env.badNetloc
        (entryZone env.unicode z kv.1) (seen env deep kv.2) = .ok kv'.2) d e ↔
      List.Forall₂ (fun kv kv' => kv'.1 = kv.1 ∧ redactAt env.unicode env.badNetloc
        (entryZone env.unicode z kv.1) (seen env deep kv.2) = .ok kv'.2) d' e := by
  cases h with
  | nil => rfl
  | prompt hk h => exact absurd hk (hkey _ _ List.mem_cons_self)
  | entry hv h =>
    have hhead := hv.redact (hentry _ _ List.mem_cons_self)
    have hrest := h.redact (fun k x hx => hkey k x (List.mem_cons_of_mem _ hx))
      fun k x hx => hentry k x (List.mem_cons_of_mem _ hx)
    rw [List.forall₂_cons_left_iff, List.forall₂_cons_left_iff]
    simp only [hrest, hhead _]

theorem AgreeItems.redact {l l' : List Payload} (h : AgreeItems env l l') {z : Option Zone} {deep : Bool}
    (hitem : ∀ x ∈ l, ¬ Held env z deep x) (e : List PyVal) :
    List.Forall₂ (fun v v' => redactAt env.unicode env.badNetloc z (seen env deep v) = .ok v') l e ↔
      List.Forall₂ (fun v v' => redactAt env.unicode env.badNetloc z (seen env deep v) = .ok v') l' e := by
  cases h with
  | nil => rfl
  | cons hv h =>
    have hhead := hv.redact (hitem _ List.mem_cons_self)
    have hrest := h.redact fun x hx => hitem x (List.mem_cons_of_mem _ hx)
    rw [List.forall₂_cons_left_iff, List.forall₂_cons_left_iff]
    simp only [hrest, hhead _]
end

/-! ## What the sanitizer shows -/

theorem Shown.differs {v : Payload} {w : PyVal} (h : Shown env deep v) (hw : sanitize env deep v = .ok w) :
    ∃ v', Agree env v v' ∧ sanitize env deep v' ≠ .ok w := by
  induction h generalizing w with
  | @secret deep d k v hmem hprompt hsecret hheld =>
    obtain ⟨a, b, rfl⟩ := List.append_of_mem hmem
    obtain ⟨e, he, rfl⟩ := sanitize_dict.mp hw
    obtain ⟨⟨k₁, y⟩, ⟨-, hy⟩, hplace⟩ := forall₂_place he
    have hentry : ∀ x, sanitizeEntry env deep k x = redactAt env.unicode env.badNetloc (some .sensitive)
        (seen env deep x) := by
      intro x
      unfold sanitizeEntry
      rw [if_neg (by rw [hprompt]; exact Bool.false_ne_true), if_pos hsecret]
      rfl
    obtain ⟨v', hagree, hne⟩ := hheld.differs ((hentry v).symm.trans hy)
    refine ⟨.dict (a ++ (k, v') :: b), .dict (.replace (.inr hagree)), fun h => hne ?_⟩
    obtain ⟨e', he', heq⟩ := sanitize_dict.mp h
    obtain rfl := PyVal.dict.inj heq
    exact (hentry v').symm.trans (hplace (k, v') he').2
  | @entry deep d k v hmem hprompt hplain _ ih =>
    obtain ⟨a, b, rfl⟩ := List.append_of_mem hmem
    obtain ⟨e, he, rfl⟩ := sanitize_dict.mp hw
    obtain ⟨⟨k₁, y⟩, ⟨-, hy⟩, hplace⟩ := forall₂_place he
    have hentry : ∀ x, sanitizeEntry env deep k x = sanitize env deep x := by
      intro x
      unfold sanitizeEntry
      rw [if_neg (by rw [hprompt]; exact Bool.false_ne_true), if_neg (by rw [hplain]; exact Bool.false_ne_true)]
    obtain ⟨v', hagree, hne⟩ := ih ((hentry v).symm.trans hy)
    refine ⟨.dict (a ++ (k, v') :: b), .dict (.replace (.inr hagree)), fun h => hne ?_⟩
    obtain ⟨e', he', heq⟩ := sanitize_dict.mp h
    obtain rfl := PyVal.dict.inj heq
    exact (hentry v').symm.trans (hplace (k, v') he').2
  | @item deep l v hmem _ ih =>
    obtain ⟨a, b, rfl⟩ := List.append_of_mem hmem
    obtain ⟨e, he, rfl⟩ := sanitize_list.mp hw
    obtain ⟨y, hy, hplace⟩ := forall₂_place he
    obtain ⟨v', hagree, hne⟩ := ih hy
    refine ⟨.list (a ++ v' :: b), .list (.replace hagree), fun h => hne ?_⟩
    obtain ⟨e', he', heq⟩ := sanitize_list.mp h
    obtain rfl := PyVal.list.inj heq
    exact hplace _ he'
  | @fields deep name d _ ih =>
    rw [sanitize_dataclass] at hw
    obtain ⟨v', hagree, hne⟩ := ih hw
    cases hagree with
    | refl => exact absurd hw hne
    | @dict _ d' hd =>
      refine ⟨.dataclass name d', .dataclass hd, ?_⟩
      rw [sanitize_dataclass]
      exact hne

/-! ## What the sanitizer hides -/

mutual
/-- Where no prompt is shown, the sanitizer makes the same of payloads that agree. -/
theorem Agree.sanitize {v v' : Payload} (h : Agree env v v') {deep : Bool} (hno : ¬ Shown env deep v) :
    SameOk (sanitize env deep v) (sanitize env deep v') := by
  intro w
  cases h with
  | refl => rfl
  | dict h =>
    rw [sanitize_dict, sanitize_dict]
    refine exists_congr fun e => and_congr_left fun _ => ?_
    exact h.sanitize (fun k x hx hprompt hsecret => hno ∘ .secret hx hprompt hsecret)
      (fun k x hx hprompt hplain => hno ∘ .entry hx hprompt hplain) e
  | list h =>
    rw [sanitize_list, sanitize_list]
    refine exists_congr fun e => and_congr_left fun _ => ?_
    exact h.sanitize (fun x hx => hno ∘ .item hx) e
  | @dataclass name d d' h =>
    have hno : ¬ Shown env true (.dict d) := hno ∘ .fields
    rw [sanitize_dataclass, sanitize_dataclass, sanitize_dict, sanitize_dict]
    refine exists_congr fun e => and_congr_left fun _ => ?_
    exact h.sanitize (fun k x hx hprompt hsecret => hno ∘ .secret hx hprompt hsecret)
      (fun k x hx hprompt hplain => hno ∘ .entry hx hprompt hplain) e

theorem AgreeEntries.sanitize {d d' : List (String × Payload)} (h : AgreeEntries env d d') {deep : Bool}
    (hsecret : ∀ k x, (k, x) ∈ d → isPromptLikeKey env k = false → isSensitiveKey env k = true →
      ¬ Held env (some .sensitive) deep x)
    (hplain : ∀ k x, (k, x) ∈ d → isPromptLikeKey env k = false → isSensitiveKey env k = false →
      ¬ Shown env deep x) (e : Dict) :
    List.Forall₂ (fun kv kv' => kv'.1 = kv.1 ∧ sanitizeEntry env deep kv.1 kv.2 = .ok kv'.2) d e ↔
      List.Forall₂ (fun kv kv' => kv'.1 = kv.1 ∧ sanitizeEntry env deep kv.1 kv.2 = .ok kv'.2) d' e := by
  cases h with
  | nil => rfl
  | @prompt k v v' d d' hk h =>
    have hhead : ∀ x, sanitizeEntry env deep k x = .ok (.str redactedPromptPlaceholder) := by
      intro x
      unfold sanitizeEntry
      rw [if_pos hk]
    have hrest := h.sanitize (fun k x hx => hsecret k x (List.mem_cons_of_mem _ hx))
      fun k x hx => hplain k x (List.mem_cons_of_mem _ hx)
    rw [List.forall₂_cons_left_iff, List.forall₂_cons_left_iff]
    simp only [hrest, hhead]
  | @entry k v v' d d' hv h =>
    have hhead : SameOk (sanitizeEntry env deep k v) (sanitizeEntry env deep k v') := by
      intro w
      unfold sanitizeEntry
      cases hprompt : isPromptLikeKey env k with
      | true => rfl
      | false =>
        cases hkey : isSensitiveKey env k with
        | true => exact hv.redact (hsecret _ _ List.mem_cons_self hprompt hkey) w
        | false => exact hv.sanitize (hplain _ _ List.mem_cons_self hprompt hkey) w
    have hrest := h.sanitize (fun k x hx => hsecret k x (List.mem_cons_of_mem _ hx))
      fun k x hx => hplain k x (List.mem_cons_of_mem _ hx)
    rw [List.forall₂_cons_left_iff, List.forall₂_cons_left_iff]
    simp only [hrest, hhead _]

theorem AgreeItems.sanitize {l l' : List Payload} (h : AgreeItems env l l') {deep : Bool}
    (hitem : ∀ x ∈ l, ¬ Shown env deep x) (e : List PyVal) :
    List.Forall₂ (fun v v' => PilotReport.sanitize env deep v = .ok v') l e ↔
      List.Forall₂ (fun v v' => PilotReport.sanitize env deep v = .ok v') l' e := by
  cases h with
  | nil => rfl
  | cons hv h =>
    have hhead := hv.sanitize (hitem _ List.mem_cons_self)
    have hrest := h.sanitize fun x hx => hitem x (List.mem_cons_of_mem _ hx)
    rw [List.forall₂_cons_left_iff, List.forall₂_cons_left_iff]
    simp only [hrest, hhead _]
end

/-- **The report is independent of prompts exactly if no prompt-like key lies below a sensitive one.**  That it
is enough holds of every payload, also where the sanitizer raises. -/
theorem prompts_hidden_exactly (env : PilotEnv) (payload : Payload) :
    (¬ Shown env false payload → HidesPrompts env payload) ∧
      ((∃ out, sanitizePilotReportPayload env payload = .ok out) → HidesPrompts env payload →
        ¬ Shown env false payload) := by
  refine ⟨fun hno payload' hagree out => (hagree.sanitize hno out).symm, ?_⟩
  rintro ⟨out, hout⟩ hhides hshown
  obtain ⟨payload', hagree, hne⟩ := hshown.differs hout
  exact hne ((hhides payload' hagree out).mpr hout)

/-- A library without IPv6, and dataclasses that show their names only. -/
def plainPilot : PilotEnv where
  unicode := .plain
  badNetloc _ := false
  pyStr name _ := name

/-- A prompt in a dataclass in a list is replaced. -/
theorem prompts_hidden_case :
    HidesPrompts plainPilot (.dict [("cases", .list [.dataclass "PilotReportCase" [("prompt", .str "p")]])]) ∧
      ¬ Shown plainPilot false
        (.dict [("cases", .list [.dataclass "PilotReportCase" [("prompt", .str "p")]])]) := by
  have hno : ¬ Shown plainPilot false
      (.dict [("cases", .list [.dataclass "PilotReportCase" [("prompt", .str "p")]])]) := by
    intro h
    obtain ⟨hmem, -, hkey, -⟩ | ⟨hmem, -, -, h⟩ := h
    · obtain rfl := (Prod.mk.inj (List.mem_singleton.mp hmem)).1
      exact absurd hkey (by decide)
    · obtain rfl := (Prod.mk.inj (List.mem_singleton.mp hmem)).2
      obtain - | - | ⟨hmem, h⟩ := h
      obtain rfl := List.mem_singleton.mp hmem
      obtain - | - | - | h := h
      obtain ⟨hmem, hprompt, -⟩ | ⟨hmem, hprompt, -⟩ := h
      · obtain rfl := (Prod.mk.inj (List.mem_singleton.mp hmem)).1
        exact absurd hprompt (by decide)
      · obtain rfl := (Prod.mk.inj (List.mem_singleton.mp hmem)).1
        exact absurd hprompt (by decide)
  have hhides := (prompts_hidden_exactly plainPilot _).1 hno
  exact ⟨hhides, (prompts_hidden_exactly plainPilot _).2 ⟨_, rfl⟩ hhides⟩

/-- A prompt below a sensitive key is shown as it is. -/
theorem prompt_shown : ¬ HidesPrompts plainPilot (.dict [("token_usage", .dict [("prompt", .str "p")])]) := by
  intro h
  have hagree : Agree plainPilot (.dict [("token_usage", .dict [("prompt", .str "p")])])
      (.dict [("token_usage", .dict [("prompt", .str "q")])]) :=
    .dict (.entry (.dict (.prompt (by decide) .nil)) .nil)
  have hout : sanitizePilotReportPayload plainPilot (.dict [("token_usage", .dict [("prompt", .str "p")])]) =
      .ok (.dict [("token_usage", .dict [("prompt", .str "p")])]) := rfl
  have hout' := (h _ hagree _).mpr hout
  have hother : sanitizePilotReportPayload plainPilot (.dict [("token_usage", .dict [("prompt", .str "q")])]) =
      .ok (.dict [("token_usage", .dict [("prompt", .str "q")])]) := rfl
  rw [hother] at hout'
  simp at hout'

end PilotReport

end AgentHarness
