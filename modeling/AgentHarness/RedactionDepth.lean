import AgentHarness.Redaction

/-!
# RedactionDepth — which leaves `redact_mapping` changes

A leaf is reached if the innermost key above it is sensitive and the walk gets there, that is, no list
stands directly in a list under a key that is not sensitive (`reached`).  Every reached text of more
than four characters is changed, unless it is masked already or is a DSN without credentials, which
`_redact_dsn` passes on.
-/

namespace AgentHarness

open Lib

/-- A step from a value to a part of it. -/
inductive Place where
  | key (k : String)
  | item (i : Nat)
  deriving DecidableEq, Repr

/-- The part of a value at the end of a path. -/
def at? : List Place → PyVal → Option PyVal
  | [], v => some v
  | .key k :: p, .dict d => (Dict.get? d k).bind (at? p)
  | .item i :: p, .list l => l[i]?.bind (at? p)
  | _ :: _, _ => none

/-- A path that begins in a zone ends in the sensitive zone, and the walk goes all along it. -/
def reached (u : Unicode) : Zone → List Place → Bool
  | z, [] => z = .sensitive
  | _, .key k :: p => reached u (zoneOf u k) p
  | z, .item _ :: p => match z.items with
    | some z' => reached u z' p
    | none => false

/-- The forms a mask has: two characters, `***`, two characters; or `:***@` in a URL. -/
def Masked (s : List Char) : Prop :=
  (s.length = 7 ∧ slice s 2 5 = "***".toList) ∨ ":***@".toList <:+: s

instance : DecidablePred Masked := fun _ => inferInstanceAs (Decidable (_ ∨ _))

/-- A DSN of a known scheme that names neither a user nor a password. -/
def credentialFree (badNetloc : List Char → Bool) (s : List Char) : Bool :=
  "://".toList <:+: s && match urlsplit badNetloc s with
    | .ok parsed => isDsnScheme parsed.scheme && (parsed.username = none && parsed.password = none)
    | .error _ => false

section Texts

variable {u : Unicode} {badNetloc : List Char → Bool} {s : List Char}

theorem maskPlainText_ne (hlen : 4 < s.length) (hmask : ¬ Masked s) : maskPlainText u s ≠ s := by
  intro h
  unfold maskPlainText at h
  dsimp only at h
  generalize u.strip s = cleaned at h
  split_ifs at h with hshort
  · rw [← h] at hlen
    exact absurd hlen (by decide)
  · refine hmask (.inl ?_)
    obtain ⟨a, b, hab⟩ := List.length_eq_two.mp
      (show (cleaned.take 2).length = 2 by rw [List.length_take]; omega)
    obtain ⟨c, d, hcd⟩ := List.length_eq_two.mp
      (show (cleaned.drop (cleaned.length - 2)).length = 2 by rw [List.length_drop]; omega)
    rw [← h, hab, hcd]
    exact ⟨rfl, rfl⟩

/-- A URL contains its host part. -/
theorem netloc_infix (r : SplitResult) (h : r.netloc ≠ []) : r.netloc <:+: urlunsplit r := by
  have happ : ∀ {l m n : List Char}, l <:+: m → l <:+: m ++ n :=
    fun hl => hl.trans (List.prefix_append _ _).isInfix
  have hpre : ∀ {l m n : List Char}, l <:+: m → l <:+: n ++ m :=
    fun hl => hl.trans (List.suffix_append _ _).isInfix
  unfold urlunsplit
  rw [if_neg h]
  dsimp only
  have hhost : ∀ path : List Char, r.netloc <:+: ['/', '/'] ++ r.netloc ++ path :=
    fun path => happ (hpre (List.infix_refl _))
  have hscheme : ∀ {url : List Char}, r.netloc <:+: url →
      r.netloc <:+: if r.scheme = [] then url else r.scheme ++ ':' :: url := by
    intro url hurl
    split_ifs
    · exact hurl
    · exact hpre (List.infix_cons hurl)
  have hquery : ∀ {url tail : List Char} {c : Prop} [Decidable c], r.netloc <:+: url →
      r.netloc <:+: if c then url else url ++ tail := by
    intro url tail c _ hurl
    split_ifs
    · exact hurl
    · exact happ hurl
  exact hquery (hquery (hscheme (hhost _)))

theorem safeNetloc_masked {parsed : SplitResult} {netloc : List Char}
    (h : safeNetloc u parsed = .ok netloc) : ":***@".toList <:+: netloc := by
  have hmask : ∀ user host port : List Char,
      ":***@".toList <:+: user ++ ":***".toList ++ '@' :: host ++ port :=
    fun user host port => ⟨user, host ++ port, by simp⟩
  obtain ⟨port, -, h⟩ := bind_ok h
  cases h
  exact hmask _ _ _

theorem redactDsn_ne {out : List Char} (h : redactDsn u badNetloc s = .ok out)
    (hlen : 4 < s.length) (hmask : ¬ Masked s) (hurl : "://".toList <:+: s)
    (hfree : credentialFree badNetloc s = false) : out ≠ s := by
  unfold redactDsn at h
  unfold credentialFree at hfree
  cases hsplit : urlsplit badNetloc s with
  | error e =>
    rw [hsplit] at h
    cases h
    exact maskPlainText_ne hlen hmask
  | ok parsed =>
    simp only [hsplit, hurl, decide_true, Bool.true_and, Bool.and_eq_false_iff] at h hfree
    split_ifs at h with hscheme hcred
    · cases h
      exact maskPlainText_ne hlen hmask
    · rcases hfree with hno | hno
      · exact absurd hno (by simpa using hscheme)
      · simp only [Bool.and_eq_true] at hcred
        rcases hno with hno | hno
        · rw [hcred.1] at hno
          cases hno
        · rw [hcred.2] at hno
          cases hno
    · obtain ⟨netloc, hnet, h⟩ := bind_ok h
      cases h
      have hmasked := safeNetloc_masked hnet
      intro heq
      refine hmask (.inr (hmasked.trans ?_))
      rw [← heq]
      refine netloc_infix { parsed with netloc := netloc } ?_
      rintro rfl
      exact absurd (List.infix_nil.mp hmasked) (by decide)

theorem redactText_ne {text : String} {v : PyVal} (h : redactText u badNetloc text = .ok v)
    (hlen : 4 < text.length) (hmask : ¬ Masked text.toList)
    (hfree : credentialFree badNetloc text.toList = false) : v ≠ .str text := by
  have hlen' : 4 < text.toList.length := by rwa [String.length_toList]
  have hne : ∀ {out : List Char}, out ≠ text.toList → PyVal.str (String.ofList out) ≠ .str text := by
    intro out hout heq
    injection heq with heq
    exact hout (by rw [← heq, String.toList_ofList])
  unfold redactText at h
  split_ifs at h with hurl
  · obtain ⟨out, hout, h⟩ := bind_ok h
    cases h
    exact hne (redactDsn_ne hout hlen' hmask hurl hfree)
  · cases h
    exact hne (maskPlainText_ne hlen' hmask)

end Texts

section Leaves

variable {u : Unicode} {badNetloc : List Char → Bool}

theorem redactMapping_get {d d' : Dict} {k : String} {x : PyVal}
    (h : redactMapping u badNetloc d = .ok d') (hx : Dict.get? d k = some x) :
    ∃ x', redactIn u badNetloc (zoneOf u k) x = .ok x' ∧ Dict.get? d' k = some x' := by
  have hall := redactMapping_iff.mp h
  clear h
  induction hall with
  | nil => cases hx
  | cons hkv hrest ih =>
    rename_i kv kv' d d'
    obtain ⟨k₀, v₀⟩ := kv
    obtain ⟨k₁, v₁⟩ := kv'
    obtain ⟨hk, hv⟩ := hkv
    simp only at hk hv
    subst hk
    by_cases hk : k = k₁
    · subst hk
      rw [Dict.get?_cons_self] at hx
      cases hx
      exact ⟨v₁, hv, Dict.get?_cons_self⟩
    · rw [Dict.get?_cons_ne hk] at hx ⊢
      exact ih hx

/-- What stands at the end of a path that is reached is not the text that stood there. -/
theorem reached_changed {p : List Place} {z : Zone} {v v' : PyVal} {s : String}
    (h : redactIn u badNetloc z v = .ok v') (hleaf : at? p v = some (.str s))
    (hreached : reached u z p = true) (hlen : 4 < s.length) (hmask : ¬ Masked s.toList)
    (hfree : credentialFree badNetloc s.toList = false) : at? p v' ≠ some (.str s) := by
  induction p generalizing z v v' with
  | nil =>
    cases hleaf
    have hz : z = .sensitive := by simpa [reached] using hreached
    subst hz
    intro heq
    injection heq with heq
    exact redactText_ne h hlen hmask hfree heq
  | cons a p ih =>
    cases a with
    | key k =>
      cases v with
      | dict d =>
        obtain ⟨x, hx, hleaf⟩ := Option.bind_eq_some_iff.mp hleaf
        obtain ⟨d', hd, rfl⟩ := redactIn_dict h
        obtain ⟨x', hx', hget⟩ := redactMapping_get hd hx
        have hnext := ih hx' hleaf hreached
        simpa [at?, hget] using hnext
      | _ => cases hleaf
    | item i =>
      cases v with
      | list l =>
        unfold reached at hreached
        cases hz : z.items with
        | none =>
          rw [hz] at hreached
          cases hreached
        | some z' =>
          rw [hz] at hreached
          obtain ⟨l', hall, rfl⟩ := (redactIn_list hz).mp h
          obtain ⟨x, hx, hleaf⟩ := Option.bind_eq_some_iff.mp hleaf
          obtain ⟨hi, rfl⟩ := List.getElem?_eq_some_iff.mp hx
          obtain ⟨hlength, hget⟩ := List.forall₂_iff_get.mp hall
          have hi' : i < l'.length := by rw [← hlength]; exact hi
          have hitem := hget i hi hi'
          have hnext := ih hitem hleaf hreached
          simpa [at?, List.getElem?_eq_getElem hi'] using hnext
      | _ => cases hleaf

/-- **Every text that is reached is changed.**  The walk starts at the dict itself, which stands under
no key. -/
theorem redaction_reaches {data out : Dict} (h : redactMapping u badNetloc data = .ok out)
    {p : List Place} {s : String} (hleaf : at? p (.dict data) = some (.str s))
    (hreached : reached u .plain p = true) (hlen : 4 < s.length) (hmask : ¬ Masked s.toList)
    (hfree : credentialFree badNetloc s.toList = false) : at? p (.dict out) ≠ some (.str s) := by
  have hin : redactIn u badNetloc .plain (.dict data) = .ok (.dict out) := by
    simp only [redactIn, redactValue, h]
    rfl
  exact reached_changed hin hleaf hreached hlen hmask hfree

end Leaves

/-- No text of more than four characters under a sensitive key, however deep, is left as it is. -/
def ReachesEveryDepth (u : Unicode) (badNetloc : List Char → Bool) (data : Dict) : Prop :=
  ∀ out, redactMapping u badNetloc data = .ok out →
    ∀ p s, at? p (.dict data) = some (.str s) → (∃ k, Place.key k ∈ p ∧ matchedSensitive u k = true) →
      4 < s.length → ¬ Masked s.toList → at? p (.dict out) ≠ some (.str s)

theorem redaction_reaches_demo :
    ∃ out, redactMapping .plain (fun _ => false)
        [("rows", .list [.dict [("api_keys", .list [.str "sk-123456"])]])] = .ok out ∧
      at? [.key "rows", .item 0, .key "api_keys", .item 0] (.dict out) ≠ some (.str "sk-123456") := by
  have h : redactMapping .plain (fun _ => false)
      [("rows", .list [.dict [("api_keys", .list [.str "sk-123456"])]])] =
      .ok [("rows", .list [.dict [("api_keys", .list [.str "sk***56"])]])] := by rfl
  exact ⟨_, h, redaction_reaches h rfl rfl (by decide) (by decide) (by decide)⟩

/-- A dict under a sensitive key is searched again as any other dict, a list in a list is not searched,
and a DSN without credentials is passed on. -/
theorem redaction_misses :
    ¬ ReachesEveryDepth .plain (fun _ => false) [("secret", .dict [("note", .str "hunter22")])] ∧
    ¬ ReachesEveryDepth .plain (fun _ => false)
        [("rows", .list [.list [.dict [("token", .str "abcdefgh")]]])] ∧
    ¬ ReachesEveryDepth .plain (fun _ => false) [("redis_url", .str "redis://cache:6379/0")] := by
  refine ⟨fun h => ?_, fun h => ?_, fun h => ?_⟩
  · exact h [("secret", .dict [("note", .str "hunter22")])] rfl [.key "secret", .key "note"] "hunter22"
      rfl ⟨"secret", by decide, by decide⟩ (by decide) (by decide) rfl
  · exact h [("rows", .list [.list [.dict [("token", .str "abcdefgh")]]])] rfl
      [.key "rows", .item 0, .item 0, .key "token"] "abcdefgh"
      rfl ⟨"token", by decide, by decide⟩ (by decide) (by decide) rfl
  · exact h [("redis_url", .str "redis://cache:6379/0")] rfl [.key "redis_url"] "redis://cache:6379/0"
      rfl ⟨"redis_url", by decide, by decide⟩ (by decide) (by decide) rfl

end AgentHarness
