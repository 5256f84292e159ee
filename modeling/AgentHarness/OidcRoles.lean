import AgentHarness.StdioClient
import Mathlib.Data.List.Nodup

/-!
# OidcRoles — `map_oidc_roles`

The roles of a claim are taken over if they are known to the system and allowed by the settings.  A user with
none of them gets the default role, or the first allowed one when the default is not allowed.
-/

namespace AgentHarness

open Lib

structure OidcSettings where
  oidcRoleClaim : String
  oidcDefaultRole : String
  oidcAllowedRoles : String

namespace OidcConfig

/-- `_ALLOWED_ROLES` -/
def knownRoles : List String := ["admin", "operator", "viewer", "auditor"]

/-- `if role not in roles: roles.append(role)` -/
def appendNew (roles : List String) (role : String) : List String :=
  if role ∈ roles then roles else roles ++ [role]

variable (u : Unicode) (pyStr : PyVal → String)

def strip (s : String) : String := String.ofList (u.strip s.toList)

def lower (s : String) : String := String.ofList (u.lower s.toList)

def normalizeRoles (raw : String) : List String :=
  (parseCsv u raw).foldl (fun normalized role => appendNew normalized (lower u role)) []

/-- The roles of the settings that the system knows. -/
def allowedRoles (current : OidcSettings) : List String :=
  (normalizeRoles u current.oidcAllowedRoles).filter (· ∈ knownRoles)

/-- The configured default. -/
def configuredDefault (current : OidcSettings) : String :=
  let role := lower u (strip u (if current.oidcDefaultRole = "" then "viewer" else current.oidcDefaultRole))
  if role = "" then "viewer" else role

/-- The default after the check against the allowed roles. -/
def defaultRole (current : OidcSettings) : String :=
  if configuredDefault u current ∈ allowedRoles u current then configuredDefault u current
  else (allowedRoles u current).headD (configuredDefault u current)

/-- What the claim holds, a list item by its `str`. -/
def sourceRoles (claims : Dict) (current : OidcSettings) : List String :=
  let claimName := strip u (if current.oidcRoleClaim = "" then "roles" else current.oidcRoleClaim)
  match Dict.getD claims claimName (.list []) with
  | .str role => [role]
  | .list items => items.map pyStr
  | _ => []

/-- The roles of the claim, as they are compared. -/
def claimedRoles (claims : Dict) (current : OidcSettings) : List String :=
  (sourceRoles u pyStr claims current).map fun role => lower u (strip u role)

def mapOidcRoles (claims : Dict) (current : OidcSettings) : List String :=
  let mapped := (claimedRoles u pyStr claims current).foldl
    (fun mapped lowered => if lowered ∈ allowedRoles u current then appendNew mapped lowered else mapped) []
  if mapped = [] then [defaultRole u current] else mapped

variable {u pyStr} {claims : Dict} {current : OidcSettings} {roles roles' : List String} {role : String}

/-! ## The loop over the claim -/

theorem appendNew_nodup (h : roles.Nodup) : (appendNew roles role).Nodup := by
  unfold appendNew
  split
  · exact h
  · rename_i hnew
    refine List.nodup_append.mpr ⟨h, List.nodup_singleton role, fun a ha b hb heq => ?_⟩
    rw [heq, List.mem_singleton.mp hb] at ha
    exact hnew ha

theorem mem_appendNew {a : String} : a ∈ appendNew roles role ↔ a ∈ roles ∨ a = role := by
  unfold appendNew
  split
  · rename_i hold
    refine ⟨.inl, ?_⟩
    rintro (ha | rfl)
    · exact ha
    · exact hold
  · simp

/-- What the loop adds to `roles`. -/
def collect (allowed roles claimed : List String) : List String :=
  claimed.foldl (fun mapped lowered => if lowered ∈ allowed then appendNew mapped lowered else mapped) roles

theorem collect_nodup {allowed claimed : List String} (h : roles.Nodup) : (collect allowed roles claimed).Nodup := by
  induction claimed generalizing roles with
  | nil => exact h
  | cons lowered claimed ih =>
    refine ih ?_
    show (if lowered ∈ allowed then appendNew roles lowered else roles).Nodup
    split
    · exact appendNew_nodup h
    · exact h

theorem mem_collect {allowed claimed : List String} :
    role ∈ collect allowed roles claimed ↔ role ∈ roles ∨ role ∈ claimed ∧ role ∈ allowed := by
  induction claimed generalizing roles with
  | nil => simp [collect]
  | cons lowered claimed ih =>
    have hstep : collect allowed roles (lowered :: claimed) =
        collect allowed (if lowered ∈ allowed then appendNew roles lowered else roles) claimed := rfl
    rw [hstep, ih]
    by_cases hallowed : lowered ∈ allowed
    · rw [if_pos hallowed, mem_appendNew, List.mem_cons]
      constructor
      · rintro ((h | rfl) | h)
        · exact .inl h
        · exact .inr ⟨.inl rfl, hallowed⟩
        · exact .inr ⟨.inr h.1, h.2⟩
      · rintro (h | ⟨rfl | h, h'⟩)
        · exact .inl (.inl h)
        · exact .inl (.inr rfl)
        · exact .inr ⟨h, h'⟩
    · rw [if_neg hallowed, List.mem_cons]
      constructor
      · rintro (h | h)
        · exact .inl h
        · exact .inr ⟨.inr h.1, h.2⟩
      · rintro (h | ⟨rfl | h, h'⟩)
        · exact .inl h
        · exact absurd h' hallowed
        · exact .inr ⟨h, h'⟩

theorem mapOidcRoles_eq : mapOidcRoles u pyStr claims current =
    if collect (allowedRoles u current) [] (claimedRoles u pyStr claims current) = [] then [defaultRole u current]
    else collect (allowedRoles u current) [] (claimedRoles u pyStr claims current) := rfl

theorem mem_allowedRoles : role ∈ allowedRoles u current ↔
    role ∈ normalizeRoles u current.oidcAllowedRoles ∧ role ∈ knownRoles := by
  unfold allowedRoles
  rw [List.mem_filter, decide_eq_true_iff]

/-- With an allowed role, the default is one. -/
theorem defaultRole_allowed (h : allowedRoles u current ≠ []) : defaultRole u current ∈ allowedRoles u current := by
  unfold defaultRole
  split
  · assumption
  · obtain ⟨first, rest, hrest⟩ := List.exists_cons_of_ne_nil h
    rw [hrest]
    exact List.mem_cons_self

/-- **Role mapping.**  The roles are never none and never repeated.  They are all known and allowed if the settings
allow any known role.  A claim without an allowed role gets one role: the configured default, or the first
allowed role if there is one and the default is not among them. -/
theorem oidc_roles_mapped (u : Unicode) (pyStr : PyVal → String) (claims : Dict) (current : OidcSettings) :
    mapOidcRoles u pyStr claims current ≠ [] ∧ (mapOidcRoles u pyStr claims current).Nodup ∧
    (allowedRoles u current ≠ [] → ∀ role ∈ mapOidcRoles u pyStr claims current,
      role ∈ knownRoles ∧ role ∈ normalizeRoles u current.oidcAllowedRoles) ∧
    ((∀ role ∈ claimedRoles u pyStr claims current, role ∉ allowedRoles u current) →
      mapOidcRoles u pyStr claims current =
        if configuredDefault u current ∈ allowedRoles u current then [configuredDefault u current]
        else [(allowedRoles u current).headD (configuredDefault u current)]) := by
  rw [mapOidcRoles_eq]
  by_cases hmapped : collect (allowedRoles u current) [] (claimedRoles u pyStr claims current) = []
  · rw [if_pos hmapped]
    refine ⟨List.cons_ne_nil _ _, List.nodup_singleton _, fun hallowed role hrole => ?_, fun _ => ?_⟩
    · rw [List.mem_singleton.mp hrole]
      exact (mem_allowedRoles.mp (defaultRole_allowed hallowed)).symm
    · unfold defaultRole
      split <;> rfl
  · rw [if_neg hmapped]
    refine ⟨hmapped, collect_nodup List.nodup_nil, fun _ role hrole => ?_, fun hnone => ?_⟩
    · have hrole := (mem_collect.mp hrole).resolve_left List.not_mem_nil
      exact (mem_allowedRoles.mp hrole.2).symm
    · refine absurd (List.eq_nil_iff_forall_not_mem.mpr fun role hrole => ?_) hmapped
      have hrole := (mem_collect.mp hrole).resolve_left List.not_mem_nil
      exact hnone role hrole.1 hrole.2

/-- A default that is not allowed: a user without roles becomes an administrator. -/
theorem oidc_default_replaced : ¬ ∀ (u : Unicode) (pyStr : PyVal → String) (claims : Dict) (current : OidcSettings),
    mapOidcRoles u pyStr claims current ≠ [] ∧ (mapOidcRoles u pyStr claims current).Nodup ∧
    (∀ role ∈ mapOidcRoles u pyStr claims current,
      role ∈ knownRoles ∧ role ∈ normalizeRoles u current.oidcAllowedRoles) ∧
    ((∀ role ∈ claimedRoles u pyStr claims current, role ∉ allowedRoles u current) →
      ∀ role ∈ mapOidcRoles u pyStr claims current, role = configuredDefault u current) := by
  intro h
  have hclaim := (h .plain (fun _ => "") [] ⟨"roles", "viewer", "admin"⟩).2.2.2
    (fun role hrole => absurd hrole List.not_mem_nil) "admin" (by decide +kernel)
  revert hclaim
  decide +kernel

end OidcConfig

end AgentHarness
