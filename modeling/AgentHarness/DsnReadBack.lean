import Mathlib
import AgentHarness.UrlRoundTrip

/-!
# DsnReadBack — the credentials of a DSN, masked twice

`safeNetloc` writes user, mask, host and port.  Read again, user and mask come back; the host does not where
it was written in brackets, since the brackets are gone and its colons announce a port (`HostSteady`).
-/

namespace AgentHarness

open Lib

/-! ## Lower case -/

/-- The characters of ASCII that have no case. -/
def caseless (c : Char) : Bool := isAscii c && !c.isAlpha

/-- Lower case moves no caseless character of ASCII, and what is in lower case stays as it is, every part of
it as well. -/
structure LowerLaws (u : Unicode) : Prop where
  keeps : ∀ s, (u.lower s).filter caseless = s.filter caseless
  settled : ∀ s t, t <:+: u.lower s → u.lower t = t

variable {u : Unicode}

theorem LowerLaws.mem {s : List Char} {c : Char} (hu : LowerLaws u) (hc : caseless c = true) :
    c ∈ u.lower s ↔ c ∈ s := by
  have h := hu.keeps s
  have hl : c ∈ (u.lower s).filter caseless ↔ c ∈ u.lower s := by simp [hc]
  have hs : c ∈ s.filter caseless ↔ c ∈ s := by simp [hc]
  rw [← hl, h, hs]

/-- The database that knows nothing beyond ASCII follows them. -/
theorem lowerLaws_plain : LowerLaws .plain where
  keeps s := by
    show (s.map Char.toLower).filter caseless = s.filter caseless
    induction s with
    | nil => rfl
    | cons c s ih =>
      rw [List.map_cons]
      by_cases hc : c.isAlpha = true
      · have hcased : ∀ {d : Char}, d.isAlpha = true → ¬ caseless d = true := by
          intro d hd
          unfold caseless
          rw [hd]
          simp
        have hlower : c.toLower.isAlpha = true := by rw [Char.isAlpha_toLower_eq_isAlpha, hc]
        rw [List.filter_cons_of_neg (hcased hlower), List.filter_cons_of_neg (hcased hc), ih]
      · have hupper : ¬ c.isUpper = true := fun h => hc (Bool.or_eq_true_iff.mpr (.inl h))
        rw [Char.toLower_eq_of_not_isUpper hupper, List.filter_cons, List.filter_cons, ih]
  settled s t h := by
    show t.map Char.toLower = t
    have hfixed : ∀ c ∈ t, c.toLower = id c := by
      intro c hc
      obtain ⟨d, -, rfl⟩ := List.mem_map.mp (h.subset hc)
      exact Char.toLower_toLower_eq_toLower d
    rw [List.map_congr_left hfixed, List.map_id]

namespace SplitResult

/-- `hostname`, of the host as it is written. -/
def lowerHost (u : Unicode) (host : List Char) : List Char :=
  match partition '%' host with
  | (host, false, _) => u.lower host
  | (host, true, zone) => u.lower host ++ '%' :: zone

/-- `hostinfo`, of what follows the user. -/
def hostParts (hostinfo : List Char) : List Char × List Char :=
  match partition '[' hostinfo with
  | (_, true, bracketed) =>
    let (hostname, _, port) := partition ']' bracketed
    (hostname, (partition ':' port).2.2)
  | (_, false, _) =>
    let (hostname, _, port) := partition ':' hostinfo
    (hostname, port)

/-- `port`, of its text. -/
def readPort (port : List Char) : Except PyExc (Option Nat) :=
  if port = [] then .ok none
  else if port.all Char.isDigit then
    let n := port.foldl (fun n c => 10 * n + (c.toNat - '0'.toNat)) 0
    if n ≤ 65535 then .ok (some n) else .error (.valueError "Port out of range 0-65535")
  else .error (.valueError
    ("Port could not be cast to integer value as '" ++ String.ofList port ++ "'"))

/-- `parsed.username or "user"` -/
def safeUser (r : SplitResult) : List Char :=
  match r.username with
  | none | some [] => "user".toList
  | some user => user

/-- `f":{parsed.port}" if parsed.port else ""` -/
def portText : Option Nat → List Char
  | none | some 0 => []
  | some n => ':' :: (Nat.repr n).toList

variable {r : SplitResult}

theorem hostname_eq : r.hostname u = lowerHost u r.hostinfo.1 := rfl

theorem hostinfo_eq : r.hostinfo = hostParts (rpartition '@' r.netloc).2.2 := rfl

theorem port_eq : r.port = readPort r.hostinfo.2 := rfl

/-- The host part that is written. -/
def maskedNetloc (u : Unicode) (r : SplitResult) (port : Option Nat) : List Char :=
  r.safeUser ++ ":***".toList ++ '@' :: (r.hostname u ++ portText port)

theorem safeNetloc_eq : safeNetloc u r = r.port.bind fun port => .ok (r.maskedNetloc u port) := by
  unfold safeNetloc maskedNetloc safeUser
  cases r.port with
  | error e => rfl
  | ok port =>
    show Except.ok _ = Except.ok _
    rw [List.append_assoc, List.cons_append]
    rcases port with _ | _ | n <;> rfl

/-! ## The host -/

theorem lowerHost_filter (hu : LowerLaws u) (host : List Char) :
    (lowerHost u host).filter caseless = host.filter caseless := by
  unfold lowerHost
  rcases partition_cases '%' host with ⟨-, heq⟩ | ⟨a, b, -, rfl, heq⟩
  · rw [heq]
    exact hu.keeps host
  · rw [heq]
    dsimp only
    rw [List.filter_append, List.filter_append, hu.keeps]

theorem mem_lowerHost (hu : LowerLaws u) {host : List Char} {c : Char} (hc : caseless c = true) :
    c ∈ lowerHost u host ↔ c ∈ host := by
  have hl : c ∈ (lowerHost u host).filter caseless ↔ c ∈ lowerHost u host := by simp [hc]
  have hs : c ∈ host.filter caseless ↔ c ∈ host := by simp [hc]
  rw [← hl, lowerHost_filter hu, hs]

theorem count_lowerHost (hu : LowerLaws u) {host : List Char} {c : Char} (hc : caseless c = true) :
    (lowerHost u host).count c = host.count c := by
  rw [← List.count_filter hc, lowerHost_filter hu, List.count_filter hc]

/-- What a host that was lowered begins with is lowered already. -/
theorem lowerHost_start (hu : LowerLaws u) {host t : List Char} (h : t <+: lowerHost u host) :
    lowerHost u t = t := by
  have hpercent : caseless '%' = true := by decide
  have hplain : ∀ {s}, '%' ∉ s → t <+: u.lower s → lowerHost u t = t := by
    intro s hs ht
    have hnot : '%' ∉ t := fun hmem => hs ((hu.mem hpercent).mp (ht.subset hmem))
    unfold lowerHost
    rw [partition_of_not_mem hnot]
    exact hu.settled s t ht.isInfix
  unfold lowerHost at h
  rcases partition_cases '%' host with ⟨hs, heq⟩ | ⟨a, b, ha, -, heq⟩
  · rw [heq] at h
    exact hplain hs h
  · rw [heq] at h
    dsimp only at h
    have hlower : '%' ∉ u.lower a := fun hmem => ha ((hu.mem hpercent).mp hmem)
    rcases partition_cases '%' t with ⟨ht, -⟩ | ⟨a', b', ha', rfl, heq'⟩
    · refine hplain ha ?_
      rcases List.prefix_or_prefix_of_prefix h (List.prefix_append _ _) with hle | ⟨more, rfl⟩
      · exact hle
      · cases more with
        | nil => rw [List.append_nil]
        | cons c more =>
          obtain ⟨rest, hrest⟩ := h
          rw [List.append_assoc] at hrest
          have hc := (List.cons.inj (List.append_cancel_left hrest)).1
          exact absurd (by rw [hc]; simp) ht
    · obtain ⟨rest, hrest⟩ := h
      rw [List.append_assoc, List.cons_append] at hrest
      obtain ⟨rfl, -⟩ := append_cons_inj ha' hlower hrest
      unfold lowerHost
      rw [heq']
      dsimp only
      rw [hu.settled a _ List.infix_rfl]

/-! ## The port -/

theorem repr_digits {n : Nat} {c : Char} (hc : c ∈ (Nat.repr n).toList) : c.isDigit = true := by
  rw [Nat.toList_repr] at hc
  exact Nat.isDigit_of_mem_toDigits (by decide) (by decide) hc

theorem repr_ne_nil {n : Nat} : (Nat.repr n).toList ≠ [] := by
  rw [Nat.toList_repr]
  exact Nat.toDigits_ne_nil

theorem repr_value (n : Nat) :
    (Nat.repr n).toList.foldl (fun n c => 10 * n + (c.toNat - '0'.toNat)) 0 = n := by
  rw [Nat.toList_repr, ← Nat.ofDigitChars_eq_foldl]
  exact Nat.ofDigitChars_ten_toDigits

theorem readPort_repr {n : Nat} (hn : n ≤ 65535) : readPort (Nat.repr n).toList = .ok (some n) := by
  have hdigits : (Nat.repr n).toList.all Char.isDigit = true := List.all_eq_true.mpr fun c hc => repr_digits hc
  unfold readPort
  rw [if_neg repr_ne_nil, if_pos hdigits]
  simp only [repr_value, if_pos hn]

/-- A port that is read is none, or a small number in decimal digits. -/
theorem readPort_ok {text : List Char} {port : Option Nat} (h : readPort text = .ok port) :
    (text = [] ∧ port = none) ∨ ∃ n, port = some n ∧ n ≤ 65535 ∧ text.all Char.isDigit = true := by
  unfold readPort at h
  split_ifs at h with hnil hdigits
  · exact .inl ⟨hnil, (Except.ok.inj h).symm⟩
  · dsimp only at h
    split_ifs at h with hle
    exact .inr ⟨_, (Except.ok.inj h).symm, hle, hdigits⟩

theorem portText_mem {port : Option Nat} {c : Char} (hc : c ∈ portText port) : c = ':' ∨ c.isDigit = true := by
  unfold portText at hc
  split at hc
  · simp at hc
  · simp at hc
  · rcases List.mem_cons.mp hc with rfl | hc
    · exact .inl rfl
    · exact .inr (repr_digits hc)

/-- A port that is written is read back, unless it is 0, which is not written. -/
theorem portText_cases {port : Option Nat} {text : List Char} (h : readPort text = .ok port) :
    (portText port = [] ∧ ∀ n, port = some n → n = 0) ∨
      ∃ n, 0 < n ∧ n ≤ 65535 ∧ port = some n ∧ portText port = ':' :: (Nat.repr n).toList := by
  rcases readPort_ok h with ⟨-, rfl⟩ | ⟨n, rfl, hle, -⟩
  · exact .inl ⟨rfl, by simp⟩
  · cases n with
    | zero => exact .inl ⟨rfl, by simp⟩
    | succ n => exact .inr ⟨n + 1, by omega, hle, rfl, rfl⟩

/-! ## Reading back -/

/-- The host and the port are read back: the host has no bracket, and a colon only where the text behind it is
what a port is written as. -/
def HostSteady (host : List Char) (port : Option Nat) : Prop :=
  '[' ∉ host ∧ (':' ∉ host ∨ portText port = [] ∧
    ∃ name n, ':' ∉ name ∧ host = name ++ ':' :: (Nat.repr n).toList ∧ 0 < n ∧ n ≤ 65535)

theorem hostParts_of_colon {name port : List Char} (hbracket : '[' ∉ name ++ ':' :: port) (hname : ':' ∉ name) :
    hostParts (name ++ ':' :: port) = (name, port) := by
  unfold hostParts
  rw [partition_of_not_mem hbracket]
  dsimp only
  rw [partition_append hname]

theorem hostParts_of_plain {name : List Char} (hbracket : '[' ∉ name) (hname : ':' ∉ name) :
    hostParts name = (name, []) := by
  unfold hostParts
  rw [partition_of_not_mem hbracket]
  dsimp only
  rw [partition_of_not_mem hname]

/-- Host and port come back as they are written. -/
def ReadsBack (u : Unicode) (text : List Char) : Prop :=
  ∃ port, readPort (hostParts text).2 = .ok port ∧ lowerHost u (hostParts text).1 ++ portText port = text

/-- Behind a bracket that opens, one bracket is gone. -/
theorem count_hostParts {text : List Char} (h : '[' ∈ text) : (hostParts text).1.count '[' < text.count '[' := by
  obtain ⟨a, b, rfl, ha⟩ := List.eq_append_cons_of_mem h
  have hparts : (hostParts (a ++ '[' :: b)).1 <+: b := by
    unfold hostParts
    rw [partition_append ha]
    exact partition_start
  have hle := hparts.sublist.count_le '['
  rw [List.count_append, List.count_cons_self]
  omega

theorem readsBack_bracket (hu : LowerLaws u) {text : List Char} (h : ReadsBack u text) : '[' ∉ text := by
  intro hmem
  obtain ⟨port, -, heq⟩ := h
  have hport : (portText port).count '[' = 0 := List.count_eq_zero.mpr fun hc => by
    rcases portText_mem hc with h | h
    · exact absurd h (by decide)
    · exact absurd h (by decide)
  have hcount := congrArg (List.count '[') heq
  rw [List.count_append, count_lowerHost hu (by decide), hport] at hcount
  have hlt := count_hostParts hmem
  omega

/-- **What is read back.** -/
theorem readsBack_iff (hu : LowerLaws u) {host text port' : List Char} {port : Option Nat}
    (hhost : host = lowerHost u text) (hport : readPort port' = .ok port) :
    ReadsBack u (host ++ portText port) ↔ HostSteady host port := by
  have hbracket : ∀ c ∈ portText port, c ≠ '[' := by
    rintro c hc rfl
    rcases portText_mem hc with h | h
    · exact absurd h (by decide)
    · exact absurd h (by decide)
  have hwritten : ∀ {n}, 0 < n → portText (some n) = ':' :: (Nat.repr n).toList := by
    intro n hn
    obtain ⟨k, rfl⟩ : ∃ k, n = k + 1 := ⟨n - 1, by omega⟩
    rfl
  have hsettled : ∀ {name}, name <+: host → lowerHost u name = name := by
    intro name hname
    rw [hhost] at hname
    exact lowerHost_start hu hname
  constructor
  · intro h
    have hopen : '[' ∉ host := fun hmem => readsBack_bracket hu h (List.mem_append_left _ hmem)
    refine ⟨hopen, or_iff_not_imp_left.mpr fun hcolon => ?_⟩
    obtain ⟨name, rest, rfl, hname⟩ := List.eq_append_cons_of_mem (not_not.mp hcolon)
    obtain ⟨port₂, hread, heq⟩ := h
    rw [List.append_assoc, List.cons_append] at hread heq
    have hfree : '[' ∉ name ++ ':' :: (rest ++ portText port) := by
      rw [← List.cons_append, ← List.append_assoc]
      intro hmem
      rcases List.mem_append.mp hmem with hmem | hmem
      · exact hopen hmem
      · exact hbracket _ hmem rfl
    rw [hostParts_of_colon hfree hname] at hread heq
    dsimp only at hread heq
    rw [hsettled (List.prefix_append _ _)] at heq
    have hport₂ : portText port₂ = ':' :: (rest ++ portText port) := List.append_cancel_left heq
    rcases portText_cases hread with ⟨hnil, -⟩ | ⟨n, hpos, hle, -, hrepr⟩
    · rw [hnil] at hport₂
      simp at hport₂
    · have hdigits : rest ++ portText port = (Nat.repr n).toList := (List.cons.inj (hport₂.symm.trans hrepr)).2
      have hnone : portText port = [] := by
        rcases portText_cases hport with ⟨hnil, -⟩ | ⟨m, -, -, -, hm⟩
        · exact hnil
        · -- a colon is no digit
          have hmem : ':' ∈ (Nat.repr n).toList := by
            rw [← hdigits, hm]
            simp
          exact absurd (repr_digits hmem) (by decide)
      rw [hnone, List.append_nil] at hdigits
      exact ⟨hnone, name, n, hname, by rw [hdigits], hpos, hle⟩
  · rintro ⟨hopen, hcolon | ⟨hnone, name, n, hname, rfl, hpos, hle⟩⟩
    · rcases portText_cases hport with ⟨hnil, -⟩ | ⟨n, hpos, hle, -, hrepr⟩
      · rw [hnil, List.append_nil]
        unfold ReadsBack
        rw [hostParts_of_plain hopen hcolon]
        exact ⟨none, rfl, by rw [hsettled List.prefix_rfl]; exact List.append_nil _⟩
      · have hfree : '[' ∉ host ++ ':' :: (Nat.repr n).toList := by
          rw [← hrepr]
          intro hmem
          rcases List.mem_append.mp hmem with hmem | hmem
          · exact hopen hmem
          · exact hbracket _ hmem rfl
        rw [hrepr]
        unfold ReadsBack
        rw [hostParts_of_colon hfree hcolon]
        exact ⟨some n, readPort_repr hle, by rw [hsettled List.prefix_rfl, hwritten hpos]⟩
    · rw [hnone, List.append_nil]
      unfold ReadsBack
      rw [hostParts_of_colon hopen hname]
      exact ⟨some n, readPort_repr hle, by rw [hsettled (List.prefix_append _ _), hwritten hpos]⟩

/-! ## The parts of the DSN that is written -/

/-- The DSN with the host part that is written. -/
def masked (u : Unicode) (r : SplitResult) (port : Option Nat) : SplitResult :=
  { r with netloc := r.maskedNetloc u port }

theorem safeUser_spec (r : SplitResult) : r.safeUser ≠ [] ∧ ':' ∉ r.safeUser ∧
    ∀ c ∈ r.safeUser, c ∈ r.netloc ∨ c ∈ "user".toList := by
  have hdefault : ("user".toList : List Char) ≠ [] ∧ ':' ∉ "user".toList := by decide
  have husername : ∀ user, r.username = some user → ':' ∉ user ∧ ∀ c ∈ user, c ∈ r.netloc := by
    intro user h
    unfold username userinfo at h
    rcases rpartition_cases '@' r.netloc with ⟨-, heq⟩ | ⟨a, b, -, hnet, heq⟩
    · rw [heq] at h
      simp at h
    · rw [heq] at h
      have ha : ∀ c ∈ a, c ∈ r.netloc := fun c hc => hnet ▸ List.mem_append_left _ hc
      dsimp only at h
      rcases partition_cases ':' a with ⟨hc, heq'⟩ | ⟨a', b', hc, rfl, heq'⟩
      · rw [heq'] at h
        obtain rfl := Option.some.inj h
        exact ⟨hc, ha⟩
      · rw [heq'] at h
        obtain rfl := Option.some.inj h
        exact ⟨hc, fun c hc => ha c (List.mem_append_left _ hc)⟩
  unfold safeUser
  split
  · exact ⟨hdefault.1, hdefault.2, fun c hc => .inr hc⟩
  · exact ⟨hdefault.1, hdefault.2, fun c hc => .inr hc⟩
  · rename_i user hne hsome
    obtain ⟨hcolon, hmem⟩ := husername user hsome
    exact ⟨fun h => hne h, hcolon, fun c hc => .inl (hmem c hc)⟩

/-- The host is part of what follows the user. -/
theorem mem_hostinfo (r : SplitResult) {c : Char} (hc : c ∈ r.hostinfo.1) : c ≠ '@' ∧ c ∈ r.netloc := by
  have hparts : ∀ s : List Char, (hostParts s).1 ⊆ s := by
    intro s
    unfold hostParts
    rcases partition_cases '[' s with ⟨-, heq⟩ | ⟨a, b, -, rfl, heq⟩
    · rw [heq]
      exact partition_subset.1
    · rw [heq]
      exact fun c hc => List.mem_append_right _ (List.mem_cons_of_mem _ (partition_subset.1 hc))
  rw [hostinfo_eq] at hc
  rcases rpartition_cases '@' r.netloc with ⟨hnot, heq⟩ | ⟨a, b, hnot, hnet, heq⟩
  · rw [heq] at hc
    have hc := hparts _ hc
    exact ⟨fun h => hnot (h ▸ hc), hc⟩
  · rw [heq] at hc
    have hc := hparts _ hc
    exact ⟨fun h => hnot (h ▸ hc), hnet ▸ List.mem_append_right _ (List.mem_cons_of_mem _ hc)⟩

theorem mem_hostname (hu : LowerLaws u) (r : SplitResult) {c : Char} (hcase : caseless c = true)
    (hc : c ∈ r.hostname u) : c ≠ '@' ∧ c ∈ r.netloc := by
  rw [hostname_eq, mem_lowerHost hu hcase] at hc
  exact mem_hostinfo r hc

theorem hostText_plain (hu : LowerLaws u) (r : SplitResult) (port : Option Nat) :
    '@' ∉ r.hostname u ++ portText port := by
  intro hmem
  rcases List.mem_append.mp hmem with hmem | hmem
  · exact (mem_hostname hu r (by decide) hmem).1 rfl
  · rcases portText_mem hmem with h | h
    · exact absurd h (by decide)
    · exact absurd h (by decide)

theorem maskedNetloc_ne_nil (r : SplitResult) (port : Option Nat) : r.maskedNetloc u port ≠ [] := by
  unfold maskedNetloc
  simp

theorem wellFormed_masked (hu : LowerLaws u) (h : WellFormed r) (hne : r.netloc ≠ []) {port : Option Nat} :
    WellFormed (r.masked u port) := by
  refine ⟨h.scheme, fun c hc => ?_, h.path, h.query, h.fragment, fun _ => h.rooted hne⟩
  have hfixed : ∀ c ∈ "user:***@".toList, InNetloc c := forall_mem_of_all (by decide)
  have hdigit : ∀ c : Char, c.isDigit = true → InNetloc c := by
    intro c hc
    refine ⟨fun hmem => ?_, fun hmem => ?_⟩
    · simp only [List.mem_cons, List.not_mem_nil, or_false] at hmem
      rcases hmem with rfl | rfl | rfl <;> exact absurd hc (by decide)
    · simp only [List.mem_cons, List.not_mem_nil, or_false] at hmem
      rcases hmem with rfl | rfl | rfl <;> exact absurd hc (by decide)
  have hends : ∀ c ∈ ['/', '?', '#', '\t', '\r', '\n'], caseless c = true := forall_mem_of_all (by decide)
  unfold masked maskedNetloc at hc
  dsimp only at hc
  rcases List.mem_append.mp hc with hc | hc
  · rcases List.mem_append.mp hc with hc | hc
    · rcases (safeUser_spec r).2.2 c hc with hc | hc
      · exact h.netloc c hc
      · exact hfixed c (List.mem_append_left ":***@".toList hc)
    · exact hfixed c (List.mem_append_right "user".toList (List.mem_append_left ['@'] hc))
  · rcases List.mem_cons.mp hc with rfl | hc
    · exact hfixed _ (by decide)
    · rcases List.mem_append.mp hc with hc | hc
      · by_cases hend : c ∈ ['/', '?', '#', '\t', '\r', '\n']
        · exact h.netloc c (mem_hostname hu r (hends c hend) hc).2
        · refine ⟨fun hmem => hend ?_, fun hmem => hend ?_⟩
          · exact List.mem_append_left ['\t', '\r', '\n'] hmem
          · exact List.mem_append_right ['/', '?', '#'] hmem
      · rcases portText_mem hc with rfl | hc
        · exact hfixed _ (by decide)
        · exact hdigit c hc

/-- User, mask and host part are told apart again. -/
theorem rpartition_masked (hu : LowerLaws u) (r : SplitResult) (port : Option Nat) :
    rpartition '@' (r.masked u port).netloc =
      (r.safeUser ++ ":***".toList, true, r.hostname u ++ portText port) :=
  rpartition_append (hostText_plain hu r port)

theorem userinfo_masked (hu : LowerLaws u) (r : SplitResult) (port : Option Nat) :
    (r.masked u port).userinfo = some (r.safeUser, some "***".toList) := by
  have hmask : r.safeUser ++ ":***".toList = r.safeUser ++ ':' :: "***".toList := rfl
  unfold userinfo
  rw [rpartition_masked hu, hmask]
  dsimp only
  rw [partition_append (safeUser_spec r).2.1]

theorem safeUser_masked (hu : LowerLaws u) (r : SplitResult) (port : Option Nat) :
    (r.masked u port).safeUser = r.safeUser := by
  have hname : (r.masked u port).username = some r.safeUser := by
    unfold username
    rw [userinfo_masked hu]
    rfl
  have hne := (safeUser_spec r).1
  show (match (r.masked u port).username with
    | none | some [] => "user".toList
    | some user => user) = r.safeUser
  rw [hname]
  cases huser : r.safeUser with
  | nil => exact absurd huser hne
  | cons c cs => rfl

/-- **The host part, written twice.**  It stays as it is exactly if host and port are read back. -/
theorem safeNetloc_masked_iff (hu : LowerLaws u) (r : SplitResult) {port : Option Nat} (hport : r.port = .ok port) :
    safeNetloc u (r.masked u port) = .ok (r.maskedNetloc u port) ↔ HostSteady (r.hostname u) port := by
  have hinfo : (r.masked u port).hostinfo = hostParts (r.hostname u ++ portText port) := by
    rw [hostinfo_eq, rpartition_masked hu]
  rw [← readsBack_iff hu hostname_eq (port_eq ▸ hport), safeNetloc_eq, port_eq, hinfo]
  have hnet : ∀ port₂, (r.masked u port).maskedNetloc u port₂ = r.maskedNetloc u port ↔
      lowerHost u (hostParts (r.hostname u ++ portText port)).1 ++ portText port₂ =
        r.hostname u ++ portText port := by
    intro port₂
    unfold maskedNetloc
    rw [safeUser_masked hu, hostname_eq (r := r.masked u port), hinfo, List.append_right_inj, List.cons.injEq]
    exact and_iff_right rfl
  unfold ReadsBack
  constructor
  · intro h
    obtain ⟨port₂, hread, h⟩ := bind_ok h
    exact ⟨port₂, hread, (hnet port₂).mp (Except.ok.inj h)⟩
  · rintro ⟨port₂, hread, heq⟩
    rw [hread]
    exact congrArg _ ((hnet port₂).mpr heq)

end SplitResult

end AgentHarness
