import AgentHarness.StdioClient

/-!
# Middleware — the chain of HTTP middlewares

`RequestLoggingMiddleware` is the outermost, then the security headers, the rate limit, the size limit and the
abuse guard, and the handler.  A middleware answers itself or passes the request on.  What leaves the chain as an
exception, or as no response at all, the server answers with its own 500.  Names of headers are in lower case,
as they stand in the scope.
-/

namespace AgentHarness

open Lib

namespace Middleware

structure Request where
  method : String
  path : String
  client : Option String
  headers : List (String × String)

structure Response where
  status : Nat
  headers : List (String × String)
  body : String
deriving DecidableEq

/-- `headers.get(name)` -/
def headerOf (name : String) (headers : List (String × String)) : Option String := headers.lookup name

/-- `headers[name] = value`: the first one is replaced, others of the name are dropped. -/
def setHeader (name value : String) : List (String × String) → List (String × String)
  | [] => [(name, value)]
  | h :: headers =>
    if h.1 = name then (name, value) :: headers.filter fun h => h.1 ≠ name else h :: setHeader name value headers

def Response.set (r : Response) (name value : String) : Response :=
  { r with headers := setHeader name value r.headers }

/-- `JSONResponse`, with headers of its own -/
def jsonResponse (status : Nat) (content : String) (headers : List (String × String)) : Response :=
  ⟨status, headers ++ [("content-length", toString content.utf8ByteSize), ("content-type", "application/json")], content⟩

/-- The settings that the middlewares read. -/
structure GuardSettings where
  structuredLoggingEnabled : Bool
  logIncludeClientIp : Bool
  logIncludeUserAgent : Bool
  securityHeadersEnabled : Bool
  rateLimitEnabled : Bool
  rateLimitExemptPaths : String
  rateLimitRequestsPerMinute : Int
  rateLimitBurst : Int
  requestSizeLimitEnabled : Bool
  requestSizeLimitBytes : Int
  abuseGuardEnabled : Bool

/-- The event that is logged for a request, without its time and latency. -/
structure HttpLogEvent where
  requestId : String
  method : String
  path : String
  statusCode : Nat
  clientIp : Option String
  userAgent : Option String
  errorType : Option String
  result : Option String

/-- What the middlewares call, over states `S`. -/
structure HttpEnv (S : Type) where
  unicode : Unicode
  /-- `int(text)`, or a `ValueError` -/
  pyInt : String → Option Int
  /-- `allow` of the rate limiter, with the key, the limit and the burst -/
  allow : String → Int → Int → S → (Bool × Int) × S
  /-- `str(uuid.uuid4())` -/
  uuid : S → String
  /-- whether the logging library takes the event -/
  emits : HttpLogEvent → S → Bool

/-- What a part of the chain does with a request: a response, or the class name of an exception. -/
abbrev HttpApp (S : Type) := Request → S → Except String Response × S

variable {S : Type} (env : HttpEnv S) (settings : GuardSettings)

def upperMethod (request : Request) : String := String.ofList (env.unicode.upperAll request.method.toList)

def clientIp (request : Request) : String := request.client.getD "unknown"

/-! ## The guards -/

/-- `RequestSizeLimitMiddleware` -/
def requestSizeLimit (next : HttpApp S) : HttpApp S := fun request s =>
  if settings.requestSizeLimitEnabled = false then next request s
  else if upperMethod env request ∈ ["GET", "HEAD", "OPTIONS"] then next request s
  else
    let limit := max 1 settings.requestSizeLimitBytes
    match headerOf "content-length" request.headers with
    | some contentLength =>
      let size := (env.pyInt contentLength).getD (-1)
      if limit < size then
        (.ok (jsonResponse 413 ("\x7b\"error\":\"request_too_large\",\"limit_bytes\":" ++ toString limit ++ "\x7d") []), s)
      else next request s
    | none => next request s

/-- `RateLimitMiddleware` -/
def rateLimit (next : HttpApp S) : HttpApp S := fun request s =>
  if settings.rateLimitEnabled = false then next request s
  else if upperMethod env request = "OPTIONS" then next request s
  else if request.path ∈ parseCsv env.unicode settings.rateLimitExemptPaths then next request s
  else
    let key := clientIp request ++ ":" ++ request.path
    let ((allowed, retryAfter), s) :=
      env.allow key (max 1 settings.rateLimitRequestsPerMinute) (max 0 settings.rateLimitBurst) s
    if allowed = false then
      (.ok (jsonResponse 429 ("\x7b\"error\":\"rate_limited\",\"retry_after_seconds\":" ++ toString retryAfter ++ "\x7d")
        [("retry-after", toString retryAfter)]), s)
    else next request s

def requestRejected (status : Nat) (reason : String) : Response :=
  jsonResponse status ("\x7b\"error\":\"request_rejected\",\"reason\":\"" ++ reason ++ "\"\x7d") []

/-- `BasicAbuseGuardMiddleware` -/
def basicAbuseGuard (next : HttpApp S) : HttpApp S := fun request s =>
  if settings.abuseGuardEnabled = false then next request s
  else if upperMethod env request = "OPTIONS" then next request s
  else if 2048 < request.path.length then (.ok (requestRejected 414 "path_too_long"), s)
  else if 120 < request.headers.length then (.ok (requestRejected 400 "too_many_headers"), s)
  else if request.headers.any fun h => 8192 < h.2.length then (.ok (requestRejected 400 "header_value_too_large"), s)
  else next request s

/-! ## The headers and the log -/

def securityHeaders : List (String × String) :=
  [("x-content-type-options", "nosniff"), ("x-frame-options", "DENY"), ("referrer-policy", "no-referrer"),
    ("permissions-policy", "camera=(), microphone=(), geolocation=()"), ("x-xss-protection", "0")]

/-- `SecurityHeadersMiddleware` -/
def addSecurityHeaders (next : HttpApp S) : HttpApp S := fun request s =>
  match next request s with
  | (.error exc, s) => (.error exc, s)
  | (.ok response, s) =>
    if settings.securityHeadersEnabled = false then (.ok response, s)
    else (.ok (securityHeaders.foldl (fun r h => r.set h.1 h.2) response), s)

/-- `_detect_result(status_code, None)` -/
def detectResult (statusCode : Nat) : Option String :=
  if statusCode = 429 then some "rate_limited"
  else if statusCode = 413 then some "request_too_large"
  else if statusCode = 400 ∨ statusCode = 414 then some "request_rejected"
  else none

def requestIdOf (request : Request) (s : S) : String :=
  match headerOf "x-request-id" request.headers with
  | some id => if id = "" then env.uuid s else id
  | none => env.uuid s

def logEvent (request : Request) (requestId : String) (statusCode : Nat) (errorType result : Option String) :
    HttpLogEvent where
  requestId := requestId
  method := request.method
  path := request.path
  statusCode := statusCode
  clientIp := if settings.logIncludeClientIp then some (clientIp request) else none
  userAgent := if settings.logIncludeUserAgent then some ((headerOf "user-agent" request.headers).getD "") else none
  errorType := errorType
  result := result

/-- What `dispatch` of the logging middleware ends with: the response that it returns, if any, or an exception. -/
inductive Dispatched where
  | returned (response : Option Response)
  | raised

/-- The response to return, and the event to log, for what the rest of the chain did. -/
def answerTo (request : Request) (requestId : String) : Except String Response → Response × HttpLogEvent
  | .ok response =>
    (response.set "x-request-id" requestId,
      logEvent settings request requestId response.status
        (if 400 ≤ response.status then some ("http_" ++ toString response.status) else none)
        (detectResult response.status))
  | .error exc =>
    (jsonResponse 500 "\x7b\"error\":\"internal_server_error\"\x7d" [("x-request-id", requestId)],
      logEvent settings request requestId 500 (some exc) none)

/-- `RequestLoggingMiddleware`.  The `return` of its `finally` takes the place of the one before. -/
def requestLogging (next : HttpApp S) (request : Request) (s : S) : Dispatched × S :=
  let requestId := requestIdOf env request s
  let (out, s) := next request s
  let (response, event) := answerTo settings request requestId out
  if settings.structuredLoggingEnabled = false then (.returned none, s)
  else if env.emits event s then (.returned (some response), s)
  else (.raised, s)

/-! ## The server -/

/-- The chain of `main`, around the routes. -/
def chain (handler : HttpApp S) : HttpApp S :=
  addSecurityHeaders settings (rateLimit env settings (requestSizeLimit env settings
    (basicAbuseGuard env settings handler)))

/-- The server's answer to an exception, and to an application that does not answer. -/
def serverError : Response :=
  ⟨500, [("content-length", "21"), ("content-type", "text/plain; charset=utf-8")], "Internal Server Error"⟩

/-- What the client receives. -/
def serve (handler : HttpApp S) (request : Request) (s : S) : Response × S :=
  match requestLogging env settings (chain env settings handler) request s with
  | (.returned (some response), s) => (response, s)
  -- `None` is not callable
  | (.returned none, s) => (serverError, s)
  | (.raised, s) => (serverError, s)

/-! ## What the chain is for -/

/-- A guard refuses a request with a response, or lets it pass. -/
abbrev Guard (S : Type) := Request → S → Option Response × S

/-- The first guard that refuses. -/
def firstRefusal : List (Guard S) → Guard S
  | [], _, s => (none, s)
  | g :: guards, request, s =>
    match g request s with
    | (some response, s) => (some response, s)
    | (none, s) => firstRefusal guards request s

/-- What the client is to receive. -/
inductive Outcome where
  | responds (response : Response)
  | raised

/-- The refusal of the first guard that refuses, else what the handler does. -/
def decided (guards : List (Guard S)) (handler : HttpApp S) : HttpApp S := fun request s =>
  match firstRefusal guards request s with
  | (some response, s) => (.ok response, s)
  | (none, s) => handler request s

def outcome (guards : List (Guard S)) (handler : HttpApp S) (request : Request) (s : S) : Outcome :=
  match (decided guards handler request s).1 with
  | .ok response => .responds response
  | .error _ => .raised

/-- The headers that the chain sets. -/
def ownHeaders : List String := "x-request-id" :: securityHeaders.map Prod.fst

/-- The headers that are left to the others. -/
def otherHeaders (headers : List (String × String)) : List (String × String) := headers.filter fun h => h.1 ∉ ownHeaders

/-- The client receives it, with only the chain's own headers set; or a 500, where the handler has raised. -/
def Receives (received : Response) : Outcome → Prop
  | .responds response => received.status = response.status ∧ received.body = response.body ∧
      otherHeaders received.headers = otherHeaders response.headers
  | .raised => received.status = 500

def rateGuard : Guard S := fun request s =>
  if settings.rateLimitEnabled ∧ upperMethod env request ≠ "OPTIONS" ∧
      request.path ∉ parseCsv env.unicode settings.rateLimitExemptPaths then
    match env.allow (clientIp request ++ ":" ++ request.path) (max 1 settings.rateLimitRequestsPerMinute)
        (max 0 settings.rateLimitBurst) s with
    | ((true, _), s) => (none, s)
    | ((false, retryAfter), s) =>
      (some (jsonResponse 429
        ("\x7b\"error\":\"rate_limited\",\"retry_after_seconds\":" ++ toString retryAfter ++ "\x7d")
        [("retry-after", toString retryAfter)]), s)
  else (none, s)

/-- The size that a request states, if it states one. -/
def statedSize (request : Request) : Option Int :=
  (headerOf "content-length" request.headers).map fun text => (env.pyInt text).getD (-1)

def sizeGuard : Guard S := fun request s =>
  let limit := max 1 settings.requestSizeLimitBytes
  if settings.requestSizeLimitEnabled ∧ upperMethod env request ∉ ["GET", "HEAD", "OPTIONS"] ∧
      (statedSize env request).any fun size => limit < size then
    (some (jsonResponse 413
      ("\x7b\"error\":\"request_too_large\",\"limit_bytes\":" ++ toString limit ++ "\x7d") []), s)
  else (none, s)

/-- What is abusive in a request. -/
def abuse (request : Request) : Option Response :=
  if 2048 < request.path.length then some (requestRejected 414 "path_too_long")
  else if 120 < request.headers.length then some (requestRejected 400 "too_many_headers")
  else if request.headers.any fun h => 8192 < h.2.length then some (requestRejected 400 "header_value_too_large")
  else none

def abuseGuard : Guard S := fun request s =>
  if settings.abuseGuardEnabled ∧ upperMethod env request ≠ "OPTIONS" then (abuse request, s) else (none, s)

/-- The guards, from the outermost on. -/
def guards : List (Guard S) := [rateGuard env settings, sizeGuard env settings, abuseGuard env settings]

/-- A guard as a middleware. -/
def guarding (g : Guard S) (next : HttpApp S) : HttpApp S := fun request s =>
  match g request s with
  | (some response, s) => (.ok response, s)
  | (none, s) => next request s

variable {env settings} {next handler : HttpApp S} {request : Request} {s : S}

theorem rateLimit_eq : rateLimit env settings next = guarding (rateGuard env settings) next := by
  funext request s
  unfold rateLimit guarding rateGuard
  by_cases henabled : settings.rateLimitEnabled = false
  · simp [henabled]
  · by_cases hoptions : upperMethod env request = "OPTIONS"
    · simp [hoptions]
    · by_cases hexempt : request.path ∈ parseCsv env.unicode settings.rateLimitExemptPaths
      · simp [hexempt]
      · have hactive : settings.rateLimitEnabled = true ∧ upperMethod env request ≠ "OPTIONS" ∧
            request.path ∉ parseCsv env.unicode settings.rateLimitExemptPaths :=
          ⟨by simpa using henabled, hoptions, hexempt⟩
        rw [if_neg henabled, if_neg hoptions, if_neg hexempt, if_pos hactive]
        rcases hallow : env.allow (clientIp request ++ ":" ++ request.path)
          (max 1 settings.rateLimitRequestsPerMinute) (max 0 settings.rateLimitBurst) s with ⟨⟨_ | _, retryAfter⟩, s'⟩
        · simp only [hallow, if_true]
        · simp only [hallow, Bool.true_eq_false, if_false]

theorem requestSizeLimit_eq : requestSizeLimit env settings next = guarding (sizeGuard env settings) next := by
  funext request s
  unfold requestSizeLimit guarding sizeGuard statedSize
  by_cases henabled : settings.requestSizeLimitEnabled = false
  · simp [henabled]
  · by_cases hmethod : upperMethod env request ∈ ["GET", "HEAD", "OPTIONS"]
    · simp [hmethod]
    · rw [if_neg henabled, if_neg hmethod]
      have henabled' : settings.requestSizeLimitEnabled = true := by simpa using henabled
      rcases headerOf "content-length" request.headers with _ | contentLength
      · simp
      · by_cases hlarge : max 1 settings.requestSizeLimitBytes < (env.pyInt contentLength).getD (-1)
        · simp only [hlarge, henabled', hmethod, if_true, Option.map_some, Option.any_some, decide_true,
            not_false_eq_true, and_self]
        · simp only [hlarge, if_false, Option.map_some, Option.any_some, decide_false, Bool.false_eq_true, and_false]

theorem basicAbuseGuard_eq : basicAbuseGuard env settings next = guarding (abuseGuard env settings) next := by
  funext request s
  unfold basicAbuseGuard guarding abuseGuard
  by_cases henabled : settings.abuseGuardEnabled = false
  · simp [henabled]
  · by_cases hoptions : upperMethod env request = "OPTIONS"
    · simp [hoptions]
    · have hactive : settings.abuseGuardEnabled = true ∧ upperMethod env request ≠ "OPTIONS" :=
        ⟨by simpa using henabled, hoptions⟩
      rw [if_neg henabled, if_neg hoptions, if_pos hactive]
      unfold abuse
      split
      · rfl
      · split
        · rfl
        · split
          · rfl
          · rfl

/-- Guards around a handler do what is decided. -/
theorem foldr_guarding {l : List (Guard S)} : l.foldr guarding handler request s = decided l handler request s := by
  induction l generalizing s with
  | nil => rfl
  | cons g l ih =>
    rw [List.foldr_cons]
    unfold decided firstRefusal guarding
    rcases g request s with ⟨_ | response, s'⟩
    · exact ih
    · rfl

/-! ## Headers -/

theorem otherHeaders_setHeader {name value : String} {headers : List (String × String)} (hname : name ∈ ownHeaders) :
    otherHeaders (setHeader name value headers) = otherHeaders headers := by
  unfold otherHeaders
  induction headers with
  | nil => simp [setHeader, hname]
  | cons h headers ih =>
    unfold setHeader
    split
    · rename_i hsame
      have hdrop : (headers.filter fun h => h.1 ≠ name).filter (fun h => h.1 ∉ ownHeaders) =
          headers.filter fun h => h.1 ∉ ownHeaders := by
        rw [List.filter_filter]
        refine List.filter_congr fun h _ => ?_
        by_cases hother : h.1 ∈ ownHeaders
        · simp [hother]
        · have hne : h.1 ≠ name := fun heq => hother (heq ▸ hname)
          simp [hother, hne]
      rw [List.filter_cons_of_neg (by simpa using hname), List.filter_cons_of_neg (by simpa [hsame] using hname)]
      exact hdrop
    · simp only [List.filter_cons, ih]

/-- The response with headers of the chain is received as the response. -/
def SameBut (response response' : Response) : Prop :=
  response.status = response'.status ∧ response.body = response'.body ∧
    otherHeaders response.headers = otherHeaders response'.headers

theorem set_sameBut {name value : String} {response : Response} (hname : name ∈ ownHeaders) :
    SameBut (response.set name value) response := ⟨rfl, rfl, otherHeaders_setHeader hname⟩

theorem SameBut.trans {r₁ r₂ r₃ : Response} (h : SameBut r₁ r₂) (h' : SameBut r₂ r₃) : SameBut r₁ r₃ :=
  ⟨h.1.trans h'.1, h.2.1.trans h'.2.1, h.2.2.trans h'.2.2⟩

theorem foldl_set_sameBut {l : List (String × String)} {response : Response} (hl : ∀ h ∈ l, h.1 ∈ ownHeaders) :
    SameBut (l.foldl (fun r h => r.set h.1 h.2) response) response := by
  induction l generalizing response with
  | nil => exact ⟨rfl, rfl, rfl⟩
  | cons h l ih =>
    exact (ih fun h' hh' => hl h' (List.mem_cons_of_mem _ hh')).trans (set_sameBut (hl h List.mem_cons_self))

/-- The security headers leave the outcome of what is inside them. -/
theorem addSecurityHeaders_spec :
    (addSecurityHeaders settings next request s).2 = (next request s).2 ∧
      match (next request s).1, (addSecurityHeaders settings next request s).1 with
      | .ok response, .ok response' => SameBut response' response
      | .error exc, .error exc' => exc' = exc
      | _, _ => False := by
  unfold addSecurityHeaders
  rcases next request s with ⟨exc | response, s'⟩
  · exact ⟨rfl, rfl⟩
  · dsimp only
    split
    · exact ⟨rfl, rfl, rfl, rfl⟩
    · refine ⟨rfl, foldl_set_sameBut fun h hh => ?_⟩
      exact List.mem_cons_of_mem _ (List.mem_map_of_mem hh)

/-! ## The chain is transparent -/

/-- The log is on, and takes the event of what is decided. -/
def Logged (env : HttpEnv S) (settings : GuardSettings) (handler : HttpApp S) (request : Request) (s : S) : Prop :=
  settings.structuredLoggingEnabled = true ∧
    env.emits (answerTo settings request (requestIdOf env request s) (decided (guards env settings) handler request s).1).2
      (decided (guards env settings) handler request s).2 = true

theorem chain_eq : chain env settings handler = addSecurityHeaders settings ((guards env settings).foldr guarding handler) := by
  unfold chain
  rw [rateLimit_eq, requestSizeLimit_eq, basicAbuseGuard_eq]
  rfl

/-- What the chain does is what is decided, with headers of its own. -/
theorem chain_decided :
    (chain env settings handler request s).2 = (decided (guards env settings) handler request s).2 ∧
      match (decided (guards env settings) handler request s).1, (chain env settings handler request s).1 with
      | .ok response, .ok response' => SameBut response' response
      | .error exc, .error exc' => exc' = exc
      | _, _ => False := by
  rw [chain_eq, ← foldr_guarding]
  exact addSecurityHeaders_spec

/-- The event tells of what is decided. -/
theorem event_eq {requestId : String} :
    (answerTo settings request requestId (chain env settings handler request s).1).2 =
      (answerTo settings request requestId (decided (guards env settings) handler request s).1).2 := by
  obtain ⟨-, hsame⟩ := @chain_decided S env settings handler request s
  split at hsame
  · rename_i hd hc
    rw [hd, hc]
    unfold answerTo
    dsimp only
    rw [hsame.1]
  · rename_i hd hc
    rw [hd, hc, hsame]
  · cases hsame

theorem serve_of_logged (h : Logged env settings handler request s) : (serve env settings handler request s).1 =
    (answerTo settings request (requestIdOf env request s) (chain env settings handler request s).1).1 := by
  obtain ⟨henabled, hemits⟩ := h
  rw [← event_eq, ← chain_decided.1] at hemits
  unfold serve requestLogging
  simp only [henabled, hemits, Bool.true_eq_false, if_false, if_true]

theorem serve_of_not_logged (h : ¬ Logged env settings handler request s) :
    (serve env settings handler request s).1 = serverError := by
  unfold serve requestLogging
  dsimp only
  by_cases henabled : settings.structuredLoggingEnabled = false
  · rw [if_pos henabled]
  · rw [if_neg henabled]
    have hemits : ¬ env.emits (answerTo settings request (requestIdOf env request s) (chain env settings handler request s).1).2
        (chain env settings handler request s).2 = true := by
      intro hemits
      rw [event_eq, chain_decided.1] at hemits
      exact h ⟨by simpa using henabled, hemits⟩
    rw [if_neg hemits]

theorem receives_answer : Receives (answerTo settings request (requestIdOf env request s)
    (chain env settings handler request s).1).1 (outcome (guards env settings) handler request s) := by
  obtain ⟨-, hsame⟩ := @chain_decided S env settings handler request s
  unfold outcome
  generalize (chain env settings handler request s).1 = out at hsame ⊢
  generalize (decided (guards env settings) handler request s).1 = inner at hsame ⊢
  cases inner with
  | error exc =>
    cases out with
    | error exc' => rfl
    | ok response => cases hsame
  | ok response =>
    cases out with
    | error exc => cases hsame
    | ok response' => exact (set_sameBut List.mem_cons_self).trans hsame

/-- Every guard and the log are off. -/
def nothingEnabled : GuardSettings where
  structuredLoggingEnabled := false
  logIncludeClientIp := true
  logIncludeUserAgent := true
  securityHeadersEnabled := true
  rateLimitEnabled := false
  rateLimitExemptPaths := ""
  rateLimitRequestsPerMinute := 120
  rateLimitBurst := 20
  requestSizeLimitEnabled := false
  requestSizeLimitBytes := 1048576
  abuseGuardEnabled := false

/-- A limiter that permits, and a log that takes, everything. -/
def plainHttp : HttpEnv Unit := ⟨Unicode.plain, String.toInt?, fun _ _ _ s => ((true, 0), s), fun _ => "id", fun _ _ => true⟩

def health : HttpApp Unit := fun _ s => (.ok (jsonResponse 200 "\x7b\"status\":\"ok\"\x7d" []), s)

end Middleware

end AgentHarness
