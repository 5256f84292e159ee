import AgentHarness.Lib.Text
import AgentHarness.Lib.Uri

/-!
# BusinessProbe — where `business_read_probe` sends the token

The probe checks its configuration and the path that the planner has chosen, joins the path to the base URL, and
requests the result with the token in a header.  `urlsplit` and `urljoin` are the ones of RFC 3986.
-/

namespace AgentHarness

open Lib

namespace BusinessProbe

/-- What the probe reads of the configuration. -/
structure BusinessSystemConfig where
  enabled : Bool
  readOnly : Bool
  baseUrlEnv : String
  tokenEnv : String
  readProbePath : String
  authHeaderName : String
  authScheme : String

/-- The request that is sent. -/
structure Request where
  url : List Char
  headers : List (String × String)

variable (u : Unicode) (getenv : String → String) (config : BusinessSystemConfig)

/-- `os.getenv(key, "").strip() if key else ""` -/
def fromEnv (key : String) : List Char := if key = "" then [] else u.strip (getenv key).toList

/-- `_base_url_from_env` -/
def baseUrlFromEnv : List Char := fromEnv u getenv config.baseUrlEnv

/-- `_token_from_env` -/
def tokenFromEnv : List Char := fromEnv u getenv config.tokenEnv

/-- `parsed.username or ""` and `parsed.password or ""` -/
def credentials (netloc : List Char) : List Char × List Char :=
  let info := (Uri.userinfo netloc).getD []
  (info.takeWhile (· ≠ ':'), (info.dropWhile (· ≠ ':')).drop 1)

/-- `_is_http_url` -/
def isHttpUrl (url : List Char) : Bool :=
  let parsed := Uri.split url
  let netloc := parsed.authority.getD []
  (parsed.schemeName == some "http".toList || parsed.schemeName == some "https".toList) && !netloc.isEmpty &&
    (credentials netloc).1.isEmpty && (credentials netloc).2.isEmpty && (parsed.fragment.getD []).isEmpty

/-- `_is_safe_header_name` -/
def isSafeHeaderName (value : List Char) : Bool := !value.isEmpty && value.all fun c => c.isAlphanum || c = '-'

/-- `_contains_control_chars` -/
def containsControlChars (value : List Char) : Bool := value.any fun c => c.toNat < 32 || c.toNat = 127

/-- `_is_safe_auth_scheme` -/
def isSafeAuthScheme : List Char → Bool
  | [] => true
  | c :: cs => c.isAlpha && cs.all fun c => c.isAlphanum || c = '.' || c = '_' || c = '~' || c = '-'

/-- `_is_safe_probe_path` -/
def isSafeProbePath (value : List Char) : Bool :=
  ['/'].isPrefixOf value && !(['/', '/'].isPrefixOf value) && !containsControlChars value

/-- `_auth_header` -/
def authHeader : String × String :=
  let token := String.ofList (tokenFromEnv u getenv config)
  let headerName := if config.authHeaderName = "" then "Authorization" else config.authHeaderName
  if config.authScheme = "" then (headerName, token) else (headerName, config.authScheme ++ " " ++ token)

/-- `{"Accept": ..., **_auth_header(config)}` -/
def headersOf : List (String × String) :=
  let auth := authHeader u getenv config
  if auth.1 = "Accept" then [auth] else [("Accept", "application/json"), auth]

/-- `path or config.read_probe_path` -/
def probePath (path : Option String) : List Char :=
  match path with
  | none | some "" => config.readProbePath.toList
  | some path => path.toList

/-- `base_url.rstrip("/") + "/"` -/
def joinBase (baseUrl : List Char) : List Char := Unicode.dropEnd (· = '/') baseUrl ++ ['/']

/-- `urljoin` -/
def urljoin (base url : List Char) : List Char := Uri.recompose (Uri.resolve (Uri.split base) (Uri.split url))

/-- `business_read_probe`, up to its request: the error that it returns, or what it sends. -/
def businessReadProbe (path : Option String) : Except String Request :=
  let baseUrl := baseUrlFromEnv u getenv config
  if !config.enabled then .error "business_integration_disabled"
  else if !config.readOnly then .error "business_integration_read_only_not_enabled"
  else if baseUrl = [] then .error "business_system_base_url_missing"
  else if tokenFromEnv u getenv config = [] then .error "business_system_token_missing"
  else if !isHttpUrl baseUrl then .error "business_system_base_url_invalid"
  else if !isSafeHeaderName config.authHeaderName.toList then .error "business_system_auth_header_name_invalid"
  else if !isSafeAuthScheme config.authScheme.toList then .error "business_system_auth_scheme_invalid"
  else if containsControlChars (tokenFromEnv u getenv config) then .error "business_system_token_invalid"
  else if !isSafeProbePath (probePath config path) then .error "business_probe_path_must_be_absolute"
  else .ok ⟨urljoin (joinBase baseUrl) ((probePath config path).dropWhile (· = '/')), headersOf u getenv config⟩

/-! ## The host that is asked -/

/-- The URL has the scheme and the host of the base URL. -/
def SameHost (baseUrl url : List Char) : Prop :=
  (Uri.split url).schemeName = (Uri.split baseUrl).schemeName ∧ (Uri.split url).host = (Uri.split baseUrl).host

/-- The path, without its slashes, names no other scheme and no other host. -/
def NamesNoOther (baseUrl path : List Char) : Prop :=
  Uri.Stays (Uri.split baseUrl) (Uri.split (path.dropWhile (· = '/')))

variable {u getenv config} {path : Option String} {request : Request} {baseUrl s a : List Char}

theorem joinBase_split (hs : (Uri.split baseUrl).scheme = some s) (ha : (Uri.split baseUrl).authority = some a)
    (hne : a ≠ []) : (Uri.split (joinBase baseUrl)).scheme = some s ∧
      (Uri.split (joinBase baseUrl)).authority = some a := by
  obtain ⟨hscheme, hfree, rest, rfl, hrest⟩ := Uri.eq_of_split hs ha
  -- the slashes that are taken off stand behind the authority
  have hlast : ∀ c ∈ (s ++ ':' :: '/' :: '/' :: a).getLast?, decide (c = '/') = false := by
    intro c hc
    have happend : s ++ ':' :: '/' :: '/' :: a = (s ++ [':', '/', '/']) ++ a := by simp
    rw [happend, List.getLast?_append_of_ne_nil _ hne] at hc
    have hfree := hfree c (List.mem_of_mem_getLast? hc)
    refine decide_eq_false ?_
    rintro rfl
    cases hfree
  have hstrip : joinBase (s ++ ':' :: '/' :: '/' :: (a ++ rest)) =
      s ++ ':' :: '/' :: '/' :: (a ++ (Unicode.dropEnd (· = '/') rest ++ ['/'])) := by
    have hsplit : s ++ ':' :: '/' :: '/' :: (a ++ rest) = (s ++ ':' :: '/' :: '/' :: a) ++ rest := by simp
    unfold joinBase
    rw [hsplit, Unicode.dropEnd_append hlast]
    simp
  rw [hstrip]
  refine Uri.split_append hscheme hfree fun c hc => ?_
  have hbegins : Unicode.dropEnd (· = '/') rest <+: rest := by
    have hbegins := List.reverse_prefix.mpr (List.dropWhile_suffix (l := rest.reverse) (· = '/'))
    rwa [List.reverse_reverse] at hbegins
  cases hkept : Unicode.dropEnd (· = '/') rest with
  | nil =>
    rw [hkept] at hc
    obtain rfl := Option.some.inj hc
    rfl
  | cons d kept =>
    rw [hkept] at hc hbegins
    obtain ⟨tail, rfl⟩ := hbegins
    exact hrest c hc

theorem isHttpUrl_split (h : isHttpUrl baseUrl = true) : ∃ s a, (Uri.split baseUrl).scheme = some s ∧
    (Uri.split baseUrl).authority = some a ∧ a ≠ [] := by
  unfold isHttpUrl at h
  simp only [Bool.and_eq_true, Bool.or_eq_true, beq_iff_eq] at h
  obtain ⟨⟨⟨⟨hscheme, hnetloc⟩, -⟩, -⟩, -⟩ := h
  have hs : ∃ s, (Uri.split baseUrl).scheme = some s := by
    unfold Uri.schemeName at hscheme
    cases hs : (Uri.split baseUrl).scheme with
    | none =>
      rw [hs] at hscheme
      rcases hscheme with h | h <;> cases h
    | some s => exact ⟨s, rfl⟩
  obtain ⟨s, hs⟩ := hs
  cases ha : (Uri.split baseUrl).authority with
  | none =>
    rw [ha] at hnetloc
    cases hnetloc
  | some a =>
    rw [ha] at hnetloc
    refine ⟨s, a, hs, rfl, ?_⟩
    rintro rfl
    cases hnetloc

/-- A request is made of a base URL that passes the check. -/
theorem businessReadProbe_ok (h : businessReadProbe u getenv config path = .ok request) :
    isHttpUrl (baseUrlFromEnv u getenv config) = true ∧
      request.url =
        urljoin (joinBase (baseUrlFromEnv u getenv config)) ((probePath config path).dropWhile (· = '/')) := by
  unfold businessReadProbe at h
  dsimp only at h
  split_ifs at h with h1 h2 h3 h4 h5 h6 h7 h8 h9
  obtain rfl := Except.ok.inj h
  exact ⟨by simpa using h5, rfl⟩

/-- A probe of one host. -/
def erpConfig : BusinessSystemConfig := ⟨true, true, "BASE", "TOKEN", "/health", "Authorization", "Bearer"⟩

def erpEnv (key : String) : String := if key = "BASE" then "https://erp.example" else "secret"

end BusinessProbe

end AgentHarness
