import AgentHarness.Lib.Text
import AgentHarness.PyVal
import Mathlib.Data.List.Forall2
import Mathlib.Data.List.Infix

/-!
# Redaction — `redact_mapping` and `redact_sensitive_value`

A dict is redacted entry by entry: what stands under a sensitive key is masked, the rest is searched
for further dicts.  `redactIn` names the three ways a value is treated, by where it stands: under a
sensitive key, under another key, or as an item of a list under another key.

`urlsplit`, `urlunsplit` and the attributes of a split URL follow the standard library; the checks it
makes of bracketed hosts and of the normal form of a host are the parameter `badNetloc`.
-/

namespace AgentHarness

open Lib

/-- `s.partition(sep)`: before, whether `sep` occurs, and behind. -/
def partition (sep : Char) (s : List Char) : List Char × Bool × List Char :=
  match s.dropWhile (· ≠ sep) with
  | [] => (s, false, [])
  | _ :: rest => (s.takeWhile (· ≠ sep), true, rest)

/-- `s.rpartition(sep)`. -/
def rpartition (sep : Char) (s : List Char) : List Char × Bool × List Char :=
  match partition sep s.reverse with
  | (_, false, _) => ([], false, s)
  | (after, true, before) => (before.reverse, true, after.reverse)

/-! ### URLs -/

structure SplitResult where
  scheme : List Char
  netloc : List Char
  path : List Char
  query : List Char
  fragment : List Char

namespace SplitResult

def userinfo (r : SplitResult) : Option (List Char × Option (List Char)) :=
  match rpartition '@' r.netloc with
  | (_, false, _) => none
  | (info, true, _) => match partition ':' info with
    | (username, false, _) => some (username, none)
    | (username, true, password) => some (username, some password)

def username (r : SplitResult) : Option (List Char) := r.userinfo.map Prod.fst

def password (r : SplitResult) : Option (List Char) := r.userinfo.bind Prod.snd

/-- Host and port; a host in brackets may hold colons. -/
def hostinfo (r : SplitResult) : List Char × List Char :=
  let (_, _, hostinfo) := rpartition '@' r.netloc
  match partition '[' hostinfo with
  | (_, true, bracketed) =>
    let (hostname, _, port) := partition ']' bracketed
    (hostname, (partition ':' port).2.2)
  | (_, false, _) =>
    let (hostname, _, port) := partition ':' hostinfo
    (hostname, port)

/-- `hostname or ""`: in lower case up to a scope. -/
def hostname (u : Unicode) (r : SplitResult) : List Char :=
  match partition '%' r.hostinfo.1 with
  | (host, false, _) => u.lower host
  | (host, true, zone) => u.lower host ++ '%' :: zone

def port (r : SplitResult) : Except PyExc (Option Nat) :=
  let port := r.hostinfo.2
  if port = [] then .ok none
  else if port.all Char.isDigit then
    let n := port.foldl (fun n c => 10 * n + (c.toNat - '0'.toNat)) 0
    if n ≤ 65535 then .ok (some n) else .error (.valueError "Port out of range 0-65535")
  else .error (.valueError
    ("Port could not be cast to integer value as '" ++ String.ofList port ++ "'"))

end SplitResult

def schemeChar (c : Char) : Bool := c.isAlphanum || c ∈ ['+', '-', '.']

def urlsplit (badNetloc : List Char → Bool) (text : List Char) : Except PyExc SplitResult :=
  let url := (text.dropWhile fun c => c.toNat ≤ 32).filter fun c => c ∉ ['\t', '\r', '\n']
  let (scheme, url) := match partition ':' url with
    | (before, true, rest) =>
      if (before.head?.any Char.isAlpha) && before.all schemeChar then (before.map Char.toLower, rest)
      else ([], url)
    | (_, false, _) => ([], url)
  let (netloc, url) := match url with
    | '/' :: '/' :: rest =>
      (rest.takeWhile fun c => c ∉ ['/', '?', '#'], rest.dropWhile fun c => c ∉ ['/', '?', '#'])
    | url => ([], url)
  if (netloc.contains '[' != netloc.contains ']') || badNetloc netloc then .error (.valueError "Invalid IPv6 URL")
  else
    let (url, _, fragment) := partition '#' url
    let (url, _, query) := partition '?' url
    .ok ⟨scheme, netloc, url, query, fragment⟩

/-- `urlunsplit`, for the schemes of a DSN (none of them is in `uses_netloc`). -/
def urlunsplit (r : SplitResult) : List Char :=
  let url := if r.netloc = [] then (if r.path.take 2 = ['/', '/'] then ['/', '/'] ++ r.path else r.path)
    else ['/', '/'] ++ r.netloc ++ (if r.path = [] || r.path.head? = some '/' then r.path else '/' :: r.path)
  let url := if r.scheme = [] then url else r.scheme ++ ':' :: url
  let url := if r.query = [] then url else url ++ '?' :: r.query
  if r.fragment = [] then url else url ++ '#' :: r.fragment

/-! ### Masks -/

def maskPlainText (u : Unicode) (value : List Char) : List Char :=
  let cleaned := u.strip value
  if cleaned.length ≤ 4 then "***".toList
  else cleaned.take 2 ++ "***".toList ++ cleaned.drop (cleaned.length - 2)

/-- `_DSN_SCHEME_PATTERN.match`. -/
def isDsnScheme (scheme : List Char) : Bool :=
  ["postgresql".toList, "postgresql+psycopg".toList, "redis".toList].contains scheme

/-- The host part with the credentials replaced. -/
def safeNetloc (u : Unicode) (parsed : SplitResult) : Except PyExc (List Char) := do
  let safeUser := match parsed.username with
    | none | some [] => "user".toList
    | some user => user
  let port ← parsed.port
  let portText := match port with
    | none | some 0 => []
    | some n => ':' :: (Nat.repr n).toList
  return safeUser ++ ":***".toList ++ '@' :: parsed.hostname u ++ portText

def redactDsn (u : Unicode) (badNetloc : List Char → Bool) (value : List Char) :
    Except PyExc (List Char) :=
  match urlsplit badNetloc value with
  | .error _ => .ok (maskPlainText u value)
  | .ok parsed =>
    if !isDsnScheme parsed.scheme then .ok (maskPlainText u value)
    else if parsed.username = none && parsed.password = none then .ok (urlunsplit parsed)
    else do
      let netloc ← safeNetloc u parsed
      return urlunsplit { parsed with netloc := netloc }

def redactText (u : Unicode) (badNetloc : List Char → Bool) (text : String) :
    Except PyExc PyVal := do
  let masked ← if "://".toList <:+: text.toList then redactDsn u badNetloc text.toList
    else .ok (maskPlainText u text.toList)
  return .str (String.ofList masked)

/-! ### Dicts and lists -/

def sensitiveKeys : List String :=
  ["authorization", "cookie", "set-cookie", "token", "access_token", "refresh_token", "api_key", "key",
    "password", "secret", "jwt", "database_url", "redis_url"]

def sensitiveKeyPatterns : List String :=
  ["token", "key", "api_key", "apikey", "secret", "password", "authorization", "cookie", "jwt",
    "database_url", "redis_url"]

def matchedSensitive (u : Unicode) (key : String) : Bool :=
  let keyLower := u.lower key.toList
  (sensitiveKeys.any fun k => k.toList = keyLower) ||
    sensitiveKeyPatterns.any fun pattern => pattern.toList <:+: keyLower

section

variable (u : Unicode) (badNetloc : List Char → Bool)

mutual
def redactSensitiveValue : PyVal → Except PyExc PyVal
  | .null => .ok .null
  | .bool _ | .int _ | .float _ => .ok (.str "***")
  | .dict d => do return .dict (← redactMapping d)
  | .list l => do return .list (← redactSensitiveList l)
  | .str s => redactText u badNetloc s
  | .object n => redactText u badNetloc n

def redactSensitiveList : List PyVal → Except PyExc (List PyVal)
  | [] => .ok []
  | v :: l => do return (← redactSensitiveValue v) :: (← redactSensitiveList l)

def redactMapping : List (String × PyVal) → Except PyExc (List (String × PyVal))
  | [] => .ok []
  | (key, value) :: data => do
    let value' ← if matchedSensitive u key then redactSensitiveValue value else redactValue value
    return (key, value') :: (← redactMapping data)

/-- The branches of `redact_mapping` for a key that is not sensitive. -/
def redactValue : PyVal → Except PyExc PyVal
  | .dict d => do return .dict (← redactMapping d)
  | .list l => do return .list (← redactItems l)
  | v => .ok v

def redactItems : List PyVal → Except PyExc (List PyVal)
  | [] => .ok []
  | v :: l => do return (← redactItem v) :: (← redactItems l)

/-- Only an item that is a dict is searched. -/
def redactItem : PyVal → Except PyExc PyVal
  | .dict d => do return .dict (← redactMapping d)
  | v => .ok v
end

end

/-! ### Where a value stands -/

/-- Under a sensitive key (lists in between do not matter), under another key, or as an item of a list
that stands under another key. -/
inductive Zone where
  | sensitive
  | plain
  | item
  deriving DecidableEq, Repr

section Zones

variable {u : Unicode} {badNetloc : List Char → Bool}

/-- The zone of the value of an entry. -/
def zoneOf (u : Unicode) (key : String) : Zone :=
  if matchedSensitive u key then .sensitive else .plain

/-- What happens to a value, by its zone. -/
def redactIn (u : Unicode) (badNetloc : List Char → Bool) : Zone → PyVal → Except PyExc PyVal
  | .sensitive => redactSensitiveValue u badNetloc
  | .plain => redactValue u badNetloc
  | .item => redactItem u badNetloc

/-- The zone of the items of a list; the items of a list in a list are not searched. -/
def Zone.items : Zone → Option Zone
  | .sensitive => some .sensitive
  | .plain => some .item
  | .item => none

theorem bind_ok {α β : Type} {x : Except PyExc α} {f : α → Except PyExc β} {b : β}
    (h : x.bind f = .ok b) : ∃ a, x = .ok a ∧ f a = .ok b := by
  cases x with
  | error e => cases h
  | ok a => exact ⟨a, rfl, h⟩

theorem redactIn_dict {z : Zone} {d : Dict} {v : PyVal}
    (h : redactIn u badNetloc z (.dict d) = .ok v) :
    ∃ d', redactMapping u badNetloc d = .ok d' ∧ v = .dict d' := by
  have h' : (redactMapping u badNetloc d).bind (fun d' => .ok (.dict d')) = .ok v := by
    cases z <;> exact h
  obtain ⟨d', hd, hv⟩ := bind_ok h'
  cases hv
  exact ⟨d', hd, rfl⟩

/-- The entries are redacted one by one, each in the zone of its key. -/
theorem redactMapping_iff {d d' : Dict} :
    redactMapping u badNetloc d = .ok d' ↔
      List.Forall₂ (fun kv kv' => kv'.1 = kv.1 ∧ redactIn u badNetloc (zoneOf u kv.1) kv.2 = .ok kv'.2)
        d d' := by
  induction d generalizing d' with
  | nil =>
    constructor
    · intro h
      cases h
      exact List.Forall₂.nil
    · intro h
      cases h
      rfl
  | cons kv d ih =>
    obtain ⟨k, v⟩ := kv
    have hstep : redactMapping u badNetloc ((k, v) :: d) =
        (redactIn u badNetloc (zoneOf u k) v).bind fun v' =>
          (redactMapping u badNetloc d).bind fun d' => .ok ((k, v') :: d') := by
      conv_lhs => unfold redactMapping
      unfold zoneOf
      split_ifs <;> rfl
    rw [hstep]
    constructor
    · intro h
      obtain ⟨v', hv, h⟩ := bind_ok h
      obtain ⟨d₁, hd, h⟩ := bind_ok h
      cases h
      exact List.Forall₂.cons ⟨rfl, hv⟩ (ih.mp hd)
    · intro h
      cases h with
      | cons hkv hrest =>
        rename_i kv' d₁
        obtain ⟨k', v'⟩ := kv'
        obtain ⟨hk, hv⟩ := hkv
        simp only at hk hv
        subst hk
        rw [hv, Except.bind, ih.mpr hrest]
        rfl

/-- A list is redacted item by item, in the zone of its items. -/
theorem redactIn_list {z z' : Zone} (hz : z.items = some z') {l : List PyVal} {v : PyVal} :
    redactIn u badNetloc z (.list l) = .ok v ↔
      ∃ l', List.Forall₂ (fun x x' => redactIn u badNetloc z' x = .ok x') l l' ∧ v = .list l' := by
  have hitems : ∀ (f : List PyVal → Except PyExc (List PyVal)),
      f [] = .ok [] →
      (∀ x l, f (x :: l) = (redactIn u badNetloc z' x).bind fun x' =>
        (f l).bind fun l' => .ok (x' :: l')) →
      ∀ l l', f l = .ok l' ↔ List.Forall₂ (fun x x' => redactIn u badNetloc z' x = .ok x') l l' := by
    intro f hnil hcons l
    induction l with
    | nil =>
      intro l'
      rw [hnil]
      constructor
      · intro h
        cases h
        exact List.Forall₂.nil
      · intro h
        cases h
        rfl
    | cons x l ih =>
      intro l'
      rw [hcons]
      constructor
      · intro h
        obtain ⟨x', hx, h⟩ := bind_ok h
        obtain ⟨l₁, hl, h⟩ := bind_ok h
        cases h
        exact List.Forall₂.cons hx ((ih l₁).mp hl)
      · intro h
        cases h with
        | cons hx hrest =>
          rw [hx, Except.bind, (ih _).mpr hrest]
          rfl
  have hall : ∀ (f : List PyVal → Except PyExc (List PyVal)),
      (∀ l l', f l = .ok l' ↔
        List.Forall₂ (fun x x' => redactIn u badNetloc z' x = .ok x') l l') →
      ((f l).bind (fun l' => .ok (.list l')) = .ok v ↔
        ∃ l', List.Forall₂ (fun x x' => redactIn u badNetloc z' x = .ok x') l l' ∧ v = .list l') := by
    intro f hf
    constructor
    · intro h
      obtain ⟨l', hl, h⟩ := bind_ok h
      cases h
      exact ⟨l', (hf l l').mp hl, rfl⟩
    · rintro ⟨l', hl, rfl⟩
      rw [(hf l l').mpr hl]
      rfl
  cases z with
  | sensitive =>
    cases hz
    exact hall _ (hitems (redactSensitiveList u badNetloc) rfl fun _ _ => rfl)
  | plain =>
    cases hz
    exact hall _ (hitems (redactItems u badNetloc) rfl fun _ _ => rfl)
  | item => cases hz

end Zones

end AgentHarness
