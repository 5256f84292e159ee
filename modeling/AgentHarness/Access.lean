import AgentHarness.UserStores

/-!
# Access — logins, tokens and the permissions of the endpoints

A login hands out a token that names the user, its roles and a time at which it expires; an endpoint reads the roles
from the token alone and never asks the store.  `admitted_iff_login` is what that comes to over a run: with
authentication and roles switched on, and no token forged, an endpoint lets a request in if and only if its token was
handed out by a login that has not expired, to a user whose roles permit it; and that user is still in the store.
-/

namespace AgentHarness

open Lib

/-! ## Roles and permissions -/

/-- `ROLE_HIERARCHY.get(role, {role})` -/
def roleHierarchy : String → List String
  | "admin" => ["admin", "operator", "viewer", "auditor"]
  | "operator" => ["operator", "viewer"]
  | "auditor" => ["auditor", "viewer"]
  | "viewer" => ["viewer"]
  | role => [role]

/-- `ENDPOINT_PERMISSIONS.get(permission, {"admin"})` -/
def endpointPermissions : String → List String
  | "tasks:create" => ["admin", "operator"]
  | "tasks:read" => ["admin", "operator", "viewer", "auditor"]
  | "approvals:decide" => ["admin", "operator"]
  | "approvals:read" => ["admin", "operator", "viewer", "auditor"]
  | "audit:read" => ["admin", "auditor"]
  | "audit:export" => ["admin", "auditor"]
  | "metrics:read" => ["admin", "operator", "viewer", "auditor"]
  | "tools:call" => ["admin", "operator"]
  | "tools:read" => ["admin", "operator", "viewer", "auditor"]
  | "eval:run" => ["admin", "operator"]
  | "eval:read" => ["admin", "operator", "viewer", "auditor"]
  | "memory:read" => ["admin", "operator", "viewer", "auditor"]
  | "memory:manage" => ["admin", "operator"]
  | "nl2sql:run" => ["admin", "operator"]
  | "reflection:run" => ["admin", "operator"]
  | "skills:read" => ["admin", "operator", "viewer", "auditor"]
  | "snapshot:read" => ["admin", "operator", "viewer", "auditor"]
  | "snapshot:manage" => ["admin"]
  | _ => ["admin"]

/-- `expanded & allowed_roles` is not empty. -/
def permitted (roles : List String) (permission : String) : Bool :=
  (roles.flatMap roleHierarchy).any fun role => role ∈ endpointPermissions permission

/-! ## Tokens -/

structure TokenPayload where
  sub : String
  roles : List String
  /-- in seconds -/
  exp : ℤ

inductive JwtError
  | expired
  | invalid
  /-- the payload is not that of a token -/
  | validation (text : String)

/-- `jwt` under the secret of the settings, and `TokenPayload(**payload)`; times are in microseconds.  What `encode`
makes is decoded until it expires. -/
structure Jwt where
  encode : TokenPayload → String
  decode : ℤ → String → Except JwtError TokenPayload
  decode_encode : ∀ now payload,
    decode now (encode payload) = if payload.exp * 10 ^ 6 ≤ now then .error .expired else .ok payload

structure AccessSettings where
  authEnabled : Bool
  rbacEnabled : Bool
  accessTokenExpireMinutes : ℤ

variable (settings : AccessSettings) (jwt : Jwt)

/-- The seconds at which a token of this moment expires. -/
def expiry (now : ℤ) : ℤ := (now + settings.accessTokenExpireMinutes * 60 * 10 ^ 6).tdiv (10 ^ 6)

def tokenPayload (now : ℤ) (user : User) : TokenPayload :=
  ⟨user.username, user.roles.map UserRole.value, expiry settings now⟩

/-- `create_access_token` -/
def createAccessToken (now : ℤ) (user : User) : String := jwt.encode (tokenPayload settings now user)

/-- `decode_access_token`, with the text of its `ValueError` -/
def decodeAccessToken (now : ℤ) (token : String) : Except String TokenPayload :=
  match jwt.decode now token with
  | .ok payload => .ok payload
  | .error .expired => .error "Token has expired"
  | .error .invalid => .error "Invalid token"
  | .error (.validation text) => .error text

/-! ## The dependencies of the endpoints -/

structure HttpError where
  status : ℕ
  detail : String

/-- `DevUser`, or the payload of a token. -/
inductive Principal
  | dev
  | token (payload : TokenPayload)

/-- `get_current_user` -/
def getCurrentUser (now : ℤ) (credentials : Option String) : Except HttpError Principal :=
  if !settings.authEnabled then .ok .dev
  else
    match credentials with
    | none => .error ⟨401, "Not authenticated"⟩
    | some token =>
      match decodeAccessToken jwt now token with
      | .ok payload => .ok (.token payload)
      | .error text => .error ⟨401, text⟩

/-- `require_permission` -/
def requirePermission (permission : String) (user : Principal) : Except HttpError Principal :=
  if !settings.rbacEnabled then .ok user
  else
    match user with
    | .dev => .ok .dev
    | .token payload =>
      if permitted payload.roles permission then .ok (.token payload)
      else .error ⟨403, "Insufficient permissions for " ++ permission⟩

/-! ## The service -/

/-- The users of the store, and the tokens that were handed out. -/
structure Desk where
  users : List User
  issued : List String

inductive AccessOp
  | create (draw : Draw) (username password : String) (roles : List UserRole) (disabled : Bool)
  | seed (draws : Fin 4 → Draw)
  | login (username password : String)
  /-- a request to an endpoint of a permission -/
  | call (permission : String) (credentials : Option String)
  /-- `GET /auth/me` -/
  | me (credentials : Option String)

inductive AccessAnswer
  | provisioned
  | token (accessToken : String)
  | admitted (user : Principal)
  | info (username : String) (roles : List String) (disabled : Bool)
  | refused (error : HttpError)
  | raised (error : PyExc)

variable (bc : Bcrypt) (devPassword : String)

/-- `login` -/
def login (now : ℤ) (username password : String) (s : Desk) : Desk × AccessAnswer :=
  match authenticated bc password (InMemoryUserStore.getUserByUsername username s.users) with
  | .user (some user) =>
    let accessToken := createAccessToken settings jwt now user
    ({ s with issued := s.issued ++ [accessToken] }, .token accessToken)
  | .raised exc => (s, .raised exc)
  | _ => (s, .refused ⟨401, "Incorrect username or password"⟩)

/-- The endpoint behind its dependencies. -/
def guardedCall (now : ℤ) (permission : String) (credentials : Option String) : AccessAnswer :=
  match getCurrentUser settings jwt now credentials with
  | .error e => .refused e
  | .ok user =>
    match requirePermission settings permission user with
    | .error e => .refused e
    | .ok user => .admitted user

/-- `get_me` -/
def getMe (now : ℤ) (credentials : Option String) (s : Desk) : AccessAnswer :=
  match credentials with
  | none => .refused ⟨401, "Not authenticated"⟩
  | some token =>
    match decodeAccessToken jwt now token with
    | .error text => .refused ⟨401, text⟩
    | .ok payload =>
      match InMemoryUserStore.getUserByUsername payload.sub s.users with
      | none => .refused ⟨401, "User not found"⟩
      | some user => .info user.username (user.roles.map UserRole.value) user.disabled

/-- A request with its reading of the clock. -/
def access : Mealy (ℤ × AccessOp) Desk AccessAnswer
  | (_, .create draw username password roles disabled), s =>
    match InMemoryUserStore.createUser bc draw username password roles disabled s.users with
    | (users, .ok _) => ({ s with users := users }, .provisioned)
    | (users, .error exc) => ({ s with users := users }, .raised exc)
  | (_, .seed draws), s =>
    match InMemoryUserStore.serve bc devPassword (.seed draws) s.users with
    | (users, .raised exc) => ({ s with users := users }, .raised exc)
    | (users, _) => ({ s with users := users }, .provisioned)
  | (now, .login username password), s => login settings jwt bc now username password s
  | (now, .call permission credentials), s => (s, guardedCall settings jwt now permission credentials)
  | (now, .me credentials), s => (s, getMe jwt now credentials s)

/-- No token is forged: one that is presented was handed out, or is not decoded. -/
def NotForged (request : ℤ × AccessOp) (s : Desk) : Prop :=
  match request with
  | (now, .call _ (some token)) | (now, .me (some token)) =>
    token ∈ s.issued ∨ ∀ payload, jwt.decode now token ≠ .ok payload
  | _ => True

/-- The state after a run of the service. -/
def desk (requests : List (ℤ × AccessOp)) : Desk :=
  Mealy.final (access settings jwt bc devPassword) requests ⟨[], []⟩

/-- The token was handed out in the run: by a login at that time, with the password of a user that is not disabled. -/
def HandedOut (requests : List (ℤ × AccessOp)) (time : ℤ) (user : User) (token : String) : Prop :=
  ∃ before username password after, requests = before ++ (time, .login username password) :: after ∧
    InMemoryUserStore.getUserByUsername username (desk settings jwt bc devPassword before).users = some user ∧
    user.disabled = false ∧ bc.checkpw password user.passwordHash = .ok true ∧
    token = createAccessToken settings jwt time user

section
variable {settings jwt bc devPassword} {s : Desk} {now : ℤ} {token : String} {user : User}

/-- The user that is authenticated. -/
theorem authenticated_some {password : String} {found : Option User}
    (h : authenticated bc password found = .user (some user)) :
    found = some user ∧ user.disabled = false ∧ bc.checkpw password user.passwordHash = .ok true := by
  unfold authenticated at h
  cases found with
  | none => cases h
  | some user' =>
    dsimp only at h
    split at h
    · cases h
    · rename_i hdisabled
      split at h
      · cases h
      · cases h
      · rename_i hcheck
        cases h
        exact ⟨rfl, Bool.eq_false_iff.mpr hdisabled, hcheck⟩

theorem createUser_keeps {draw : Draw} {username password : String} {roles : List UserRole} {disabled : Bool}
    {users : List User} (h : user ∈ users) :
    user ∈ (InMemoryUserStore.createUser bc draw username password roles disabled users).1 := by
  unfold InMemoryUserStore.createUser
  split
  · exact h
  · split
    · exact h
    · exact List.mem_append_left _ h

theorem createAccounts_keeps {password : String} {accounts : List (Draw × String × UserRole)} {users : List User}
    (h : user ∈ users) :
    user ∈ (createAccounts (fun draw username roles =>
      InMemoryUserStore.createUser bc draw username password roles false) accounts users).1 := by
  induction accounts generalizing users with
  | nil => exact h
  | cons account accounts ih =>
    obtain ⟨draw, username, role⟩ := account
    have hkept : user ∈ (InMemoryUserStore.createUser bc draw username password [role] false users).1 :=
      createUser_keeps h
    unfold createAccounts
    cases hout : InMemoryUserStore.createUser bc draw username password [role] false users with
    | mk users' out =>
      rw [hout] at hkept
      cases out with
      | error exc => exact hkept
      | ok created => exact ih hkept

variable (settings jwt bc) in
/-- What a login does: it hands out the token of the user it authenticates, or nothing. -/
theorem login_cases (now : ℤ) (username password : String) (s : Desk) :
    (login settings jwt bc now username password s).1 = s ∨
      ∃ user, InMemoryUserStore.getUserByUsername username s.users = some user ∧ user.disabled = false ∧
        bc.checkpw password user.passwordHash = .ok true ∧
        (login settings jwt bc now username password s).1 =
          { s with issued := s.issued ++ [createAccessToken settings jwt now user] } := by
  unfold login
  split
  · rename_i user h
    obtain ⟨hfound, hdisabled, hcheck⟩ := authenticated_some h
    exact .inr ⟨user, hfound, hdisabled, hcheck, rfl⟩
  · exact .inl rfl
  · exact .inl rfl

/-- No request takes a user out of the store. -/
theorem users_kept {request : ℤ × AccessOp} (h : user ∈ s.users) :
    user ∈ (access settings jwt bc devPassword request s).1.users := by
  obtain ⟨now, op⟩ := request
  cases op with
  | create draw username password roles disabled =>
    have hkept : user ∈ (InMemoryUserStore.createUser bc draw username password roles disabled s.users).1 :=
      createUser_keeps h
    unfold access
    dsimp only
    split
    · rename_i hout
      rwa [hout] at hkept
    · rename_i hout
      rwa [hout] at hkept
  | seed draws =>
    have hkept : user ∈ (InMemoryUserStore.serve bc devPassword (.seed draws) s.users).1 := by
      unfold InMemoryUserStore.serve
      dsimp only
      split
      · exact h
      · exact createAccounts_keeps h
    unfold access
    dsimp only
    split
    · rename_i hout
      rwa [hout] at hkept
    · rename_i hout
      rwa [hout] at hkept
  | login username password =>
    show user ∈ (login settings jwt bc now username password s).1.users
    obtain hsame | ⟨user', -, -, -, hnext⟩ := login_cases settings jwt bc now username password s
    · rwa [hsame]
    · rwa [hnext]
  | call permission credentials => exact h
  | me credentials => exact h

variable (settings jwt bc devPassword) in
/-- Only a login hands out a token. -/
theorem issued_cases (request : ℤ × AccessOp) (s : Desk) :
    (access settings jwt bc devPassword request s).1.issued = s.issued ∨
      ∃ time username password user, request = (time, .login username password) ∧
        InMemoryUserStore.getUserByUsername username s.users = some user ∧ user.disabled = false ∧
        bc.checkpw password user.passwordHash = .ok true ∧
        (access settings jwt bc devPassword request s).1.issued =
          s.issued ++ [createAccessToken settings jwt time user] := by
  obtain ⟨now, op⟩ := request
  cases op with
  | create draw username password roles disabled =>
    unfold access
    dsimp only
    split <;> exact .inl rfl
  | seed draws =>
    unfold access
    dsimp only
    split <;> exact .inl rfl
  | login username password =>
    show (login settings jwt bc now username password s).1.issued = _ ∨ _
    obtain hsame | ⟨user, hfound, hdisabled, hcheck, hnext⟩ := login_cases settings jwt bc now username password s
    · exact .inl (by rw [hsame])
    · refine .inr ⟨now, username, password, user, rfl, hfound, hdisabled, hcheck, ?_⟩
      show (login settings jwt bc now username password s).1.issued = _
      rw [hnext]
  | call permission credentials => exact .inl rfl
  | me credentials => exact .inl rfl

/-! ## Runs -/

variable {requests : List (ℤ × AccessOp)} {time : ℤ}

theorem desk_append (request : ℤ × AccessOp) : desk settings jwt bc devPassword (requests ++ [request]) =
    (access settings jwt bc devPassword request (desk settings jwt bc devPassword requests)).1 :=
  Mealy.final_append ..

theorem HandedOut.append (h : HandedOut settings jwt bc devPassword requests time user token) (request : ℤ × AccessOp) :
    HandedOut settings jwt bc devPassword (requests ++ [request]) time user token := by
  obtain ⟨before, username, password, after, rfl, hlogin⟩ := h
  exact ⟨before, username, password, after ++ [request], by rw [List.append_assoc]; rfl, hlogin⟩

/-- Every token that was handed out is one of a login of the run. -/
theorem handedOut_of_issued (h : token ∈ (desk settings jwt bc devPassword requests).issued) :
    ∃ time user, HandedOut settings jwt bc devPassword requests time user token := by
  induction requests using List.reverseRecOn with
  | nil => exact absurd h List.not_mem_nil
  | append_singleton requests request ih =>
    rw [desk_append] at h
    obtain hsame | ⟨time, username, password, user, hrequest, hfound, hdisabled, hcheck, hissued⟩ :=
      issued_cases settings jwt bc devPassword request (desk settings jwt bc devPassword requests)
    · rw [hsame] at h
      obtain ⟨time, user, hout⟩ := ih h
      exact ⟨time, user, hout.append request⟩
    · rw [hissued] at h
      rcases List.mem_append.mp h with h | h
      · obtain ⟨time, user, hout⟩ := ih h
        exact ⟨time, user, hout.append request⟩
      · refine ⟨time, user, requests, username, password, [], by rw [hrequest], hfound, hdisabled, hcheck, ?_⟩
        exact List.mem_singleton.mp h

/-- A user who logged in stays in the store. -/
theorem HandedOut.kept (h : HandedOut settings jwt bc devPassword requests time user token) :
    user ∈ (desk settings jwt bc devPassword requests).users := by
  obtain ⟨before, username, password, after, rfl, hfound, -⟩ := h
  have hthere : user ∈ (desk settings jwt bc devPassword before).users := List.mem_of_find?_eq_some hfound
  unfold desk
  rw [Mealy.final_append]
  have hstep : ∀ request (s : Desk), user ∈ s.users → True →
      user ∈ (access settings jwt bc devPassword request s).1.users := fun _ _ h _ => users_kept h
  exact Mealy.invariant hstep hthere (Mealy.meets_of_forall (fun _ _ => trivial) _ _)

/-- A token of the service is decoded until it expires. -/
theorem decode_created : decodeAccessToken jwt now (createAccessToken settings jwt time user) =
    if expiry settings time * 10 ^ 6 ≤ now then .error "Token has expired"
    else .ok (tokenPayload settings time user) := by
  unfold decodeAccessToken createAccessToken
  rw [jwt.decode_encode]
  by_cases hexpired : expiry settings time * 10 ^ 6 ≤ now
  · have hpayload : (tokenPayload settings time user).exp * 10 ^ 6 ≤ now := hexpired
    rw [if_pos hpayload, if_pos hexpired]
  · have hpayload : ¬ (tokenPayload settings time user).exp * 10 ^ 6 ≤ now := hexpired
    rw [if_neg hpayload, if_neg hexpired]

theorem decodeAccessToken_ok {payload : TokenPayload} (h : decodeAccessToken jwt now token = .ok payload) :
    jwt.decode now token = .ok payload := by
  unfold decodeAccessToken at h
  split at h
  · rename_i hdecode
    rw [hdecode, Except.ok.inj h]
  · cases h
  · cases h
  · cases h

/-- A request that is let in presents a token whose roles permit it. -/
theorem guardedCall_admitted (hauth : settings.authEnabled = true) (hrbac : settings.rbacEnabled = true)
    {permission : String} {credentials : Option String} :
    (∃ principal, guardedCall settings jwt now permission credentials = .admitted principal) ↔
      ∃ token payload, credentials = some token ∧ decodeAccessToken jwt now token = .ok payload ∧
        permitted payload.roles permission = true := by
  unfold guardedCall getCurrentUser requirePermission
  rw [hauth, hrbac]
  cases credentials with
  | none =>
    constructor
    · rintro ⟨principal, h⟩
      cases h
    · rintro ⟨token, payload, h, -, -⟩
      cases h
  | some token =>
    cases hdecode : decodeAccessToken jwt now token with
    | error text =>
      dsimp only [Bool.not_true]
      rw [if_neg (by decide), hdecode]
      constructor
      · rintro ⟨principal, h⟩
        cases h
      · rintro ⟨token', payload, htoken, hpayload, -⟩
        obtain rfl := Option.some.inj htoken
        rw [hdecode] at hpayload
        cases hpayload
    | ok payload =>
      dsimp only [Bool.not_true]
      rw [if_neg (by decide), hdecode]
      dsimp only
      rw [if_neg (by decide)]
      constructor
      · rintro ⟨principal, h⟩
        split at h
        · cases h
        · rename_i hallowed
          split_ifs at hallowed with hpermitted
          exact ⟨token, payload, rfl, hdecode, hpermitted⟩
      · rintro ⟨token', payload', htoken, hpayload, hpermitted⟩
        obtain rfl := Option.some.inj htoken
        rw [hdecode] at hpayload
        obtain rfl := Except.ok.inj hpayload
        rw [if_pos hpermitted]
        exact ⟨.token payload, rfl⟩

/-- **Endpoints let in who logged in.**  With authentication and roles switched on, after any run of the service: a
request whose token is not forged is let in if and only if its token was handed out in the run, by a login that has not
expired, to a user whose roles permit it.  That user is still in the store. -/
theorem admitted_iff_login (hauth : settings.authEnabled = true) (hrbac : settings.rbacEnabled = true)
    (requests : List (ℤ × AccessOp)) (now : ℤ) (permission : String) (credentials : Option String)
    (hforged : NotForged jwt (now, .call permission credentials) (desk settings jwt bc devPassword requests)) :
    (∃ principal, (access settings jwt bc devPassword (now, .call permission credentials)
        (desk settings jwt bc devPassword requests)).2 = .admitted principal) ↔
      ∃ token time user, credentials = some token ∧ HandedOut settings jwt bc devPassword requests time user token ∧
        now < expiry settings time * 10 ^ 6 ∧ permitted (user.roles.map UserRole.value) permission = true ∧
        user ∈ (desk settings jwt bc devPassword requests).users := by
  refine (guardedCall_admitted hauth hrbac).trans ⟨?_, ?_⟩
  · rintro ⟨token, payload, rfl, hdecode, hpermitted⟩
    have hissued : token ∈ (desk settings jwt bc devPassword requests).issued := by
      rcases hforged with hissued | hforged
      · exact hissued
      · exact absurd (decodeAccessToken_ok hdecode) (hforged payload)
    obtain ⟨time, user, hout⟩ := handedOut_of_issued hissued
    have htoken : token = createAccessToken settings jwt time user := by
      obtain ⟨_, _, _, _, _, _, _, _, htoken⟩ := hout
      exact htoken
    rw [htoken, decode_created] at hdecode
    split_ifs at hdecode with hexpired
    obtain rfl := Except.ok.inj hdecode
    exact ⟨token, time, user, rfl, hout, Int.not_le.mp hexpired, hpermitted, hout.kept⟩
  · rintro ⟨token, time, user, rfl, hout, hlive, hpermitted, -⟩
    have htoken : token = createAccessToken settings jwt time user := by
      obtain ⟨_, _, _, _, _, _, _, _, htoken⟩ := hout
      exact htoken
    refine ⟨token, tokenPayload settings time user, rfl, ?_, hpermitted⟩
    rw [htoken, decode_created, if_neg (Int.not_le.mpr hlive)]

end

/-! ## A service to run -/

namespace DemoJwt

/-- A text with its end marked. -/
def mark (text : List Char) : List Char := text.flatMap (fun c => ['.', c]) ++ [';']

def unmark : List Char → Option (List Char × List Char)
  | '.' :: c :: cs => (unmark cs).map fun p => (c :: p.1, p.2)
  | ';' :: rest => some ([], rest)
  | _ => none

theorem unmark_mark (text rest : List Char) : unmark (mark text ++ rest) = some (text, rest) := by
  induction text with
  | nil => rfl
  | cons c cs ih =>
    show (unmark (mark cs ++ rest)).map _ = _
    rw [ih]
    rfl

def marks (texts : List (List Char)) : List Char := texts.flatMap fun text => '+' :: mark text

/-- As many texts as the fuel allows. -/
def unmarks : ℕ → List Char → List (List Char)
  | n + 1, '+' :: cs =>
    match unmark cs with
    | some (text, rest) => text :: unmarks n rest
    | none => []
  | _, _ => []

theorem unmarks_marks (texts : List (List Char)) (n : ℕ) (h : texts.length ≤ n) : unmarks n (marks texts) = texts := by
  induction texts generalizing n with
  | nil => cases n <;> rfl
  | cons text texts ih =>
    obtain ⟨n, rfl⟩ : ∃ m, n = m + 1 := ⟨n - 1, by rw [List.length_cons] at h; omega⟩
    show (match unmark (mark text ++ marks texts) with
      | some (text, rest) => text :: unmarks n rest
      | none => []) = text :: texts
    rw [unmark_mark]
    dsimp only
    rw [ih n (Nat.le_of_succ_le_succ h)]

theorem length_marks (texts : List (List Char)) : texts.length ≤ (marks texts).length := by
  induction texts with
  | nil => exact Nat.le_refl _
  | cons text texts ih =>
    show _ ≤ ('+' :: (mark text ++ marks texts)).length
    rw [List.length_cons, List.length_cons, List.length_append]
    omega

/-- The texts of a payload: its user, its time in strokes, and its roles. -/
def fields (payload : TokenPayload) : List (List Char) :=
  payload.sub.toList :: List.replicate payload.exp.natAbs '|' :: (if payload.exp < 0 then ['-'] else []) ::
    payload.roles.map String.toList

def ofFields : List (List Char) → Option TokenPayload
  | sub :: strokes :: sign :: roles =>
    some ⟨String.ofList sub, roles.map String.ofList, if sign = [] then strokes.length else -strokes.length⟩
  | _ => none

theorem ofFields_fields (payload : TokenPayload) : ofFields (fields payload) = some payload := by
  obtain ⟨sub, roles, exp⟩ := payload
  have hroles : (roles.map String.toList).map String.ofList = roles := by
    rw [List.map_map]
    exact (List.map_congr_left fun role _ => String.ofList_toList).trans (List.map_id _)
  have hexp : (if (if exp < 0 then ['-'] else []) = [] then ((List.replicate exp.natAbs '|').length : ℤ)
      else -(List.replicate exp.natAbs '|').length) = exp := by
    rw [List.length_replicate]
    by_cases h : exp < 0
    · rw [if_pos h, if_neg (List.cons_ne_nil _ _)]
      omega
    · rw [if_neg h, if_pos rfl]
      omega
  unfold fields ofFields
  dsimp only
  rw [hroles, String.ofList_toList, hexp]

end DemoJwt

/-- A `jwt` whose tokens show their payload. -/
def Jwt.demo : Jwt where
  encode payload := String.ofList (DemoJwt.marks (DemoJwt.fields payload))
  decode now token :=
    match DemoJwt.ofFields (DemoJwt.unmarks token.toList.length token.toList) with
    | none => .error .invalid
    | some payload => if payload.exp * 10 ^ 6 ≤ now then .error .expired else .ok payload
  decode_encode now payload := by
    rw [String.toList_ofList, DemoJwt.unmarks_marks _ _ (DemoJwt.length_marks _), DemoJwt.ofFields_fields]

/-- Tokens that live a minute. -/
def demoAccess : AccessSettings := ⟨true, true, 1⟩

/-- An operator is created, and logs in. -/
def operatorRun : List (ℤ × AccessOp) :=
  [(0, .create (demoDraw 'a') "ann" "secret" [.operator] false), (1000000, .login "ann" "secret")]

/-- The token of the login. -/
def operatorToken : String := Jwt.demo.encode ⟨"ann", ["operator"], 61⟩

def AccessAnswer.isAdmitted : AccessAnswer → Bool
  | .admitted _ => true
  | _ => false

/-- The operator decides an approval within the minute, on the strength of the login. -/
theorem admitted_iff_login_demo :
    ∃ time user, HandedOut demoAccess .demo .demo "admin123" operatorRun time user operatorToken ∧
      permitted (user.roles.map UserRole.value) "approvals:decide" = true := by
  have hissued : operatorToken ∈ (desk demoAccess .demo .demo "admin123" operatorRun).issued := by decide +kernel
  have hlet : (access demoAccess .demo .demo "admin123" (60000000, .call "approvals:decide" (some operatorToken))
      (desk demoAccess .demo .demo "admin123" operatorRun)).2.isAdmitted = true := by decide +kernel
  have hadmitted : ∃ principal, (access demoAccess .demo .demo "admin123"
      (60000000, .call "approvals:decide" (some operatorToken))
      (desk demoAccess .demo .demo "admin123" operatorRun)).2 = .admitted principal := by
    revert hlet
    cases (access demoAccess .demo .demo "admin123" (60000000, .call "approvals:decide" (some operatorToken))
      (desk demoAccess .demo .demo "admin123" operatorRun)).2 with
    | admitted principal => exact fun _ => ⟨principal, rfl⟩
    | _ => exact fun h => by cases h
  obtain ⟨token, time, user, htoken, hout, -, hpermitted, -⟩ :=
    (admitted_iff_login rfl rfl operatorRun 60000000 "approvals:decide" (some operatorToken) (.inl hissued)).mp
      hadmitted
  obtain rfl := Option.some.inj htoken
  exact ⟨time, user, hout, hpermitted⟩

end AgentHarness
