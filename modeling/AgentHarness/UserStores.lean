import AgentHarness.ApprovalStores
import AgentHarness.OidcRoles

/-!
# UserStores — the user store in memory and on Postgres

The store in memory keeps the users as they were made.  Postgres keeps the roles of a user as one text, which is read
back as a user of the role `viewer` where it holds none, and `created_at` without its time zone.  `user_stores_agree`
says that nothing else parts the two: users with roles, under names without a NUL, are created, found, refused and
authenticated alike.
-/

namespace AgentHarness

open Lib

inductive UserRole
  | admin
  | operator
  | viewer
  | auditor
  deriving DecidableEq, Repr

def UserRole.value : UserRole → String
  | .admin => "admin"
  | .operator => "operator"
  | .viewer => "viewer"
  | .auditor => "auditor"

/-- `UserRole(value)`, where it is one. -/
def UserRole.ofValue : String → Option UserRole
  | "admin" => some .admin
  | "operator" => some .operator
  | "viewer" => some .viewer
  | "auditor" => some .auditor
  | _ => none

structure User where
  userId : String
  username : String
  passwordHash : String
  roles : List UserRole
  disabled : Bool
  createdAt : Stamp

/-- `bcrypt`: a hash under a drawn salt, and the check of a password.  A hash is text without NUL. -/
structure Bcrypt where
  hashpw : String → String → Except PyExc String
  checkpw : String → String → Except PyExc Bool
  hash_text : ∀ password salt hash, hashpw password salt = .ok hash → hasNulCharacter hash = false

/-- What a new user draws: `uuid4().hex`, the salt of its password and the time in UTC. -/
structure Draw where
  hex : List Char
  salt : String
  now : DateTime

/-- `f"usr_{uuid.uuid4().hex[:12]}"` -/
def Draw.userId (draw : Draw) : String := "usr_" ++ String.ofList (draw.hex.take 12)

/-- A time in UTC. -/
def utcStamp (t : DateTime) : Stamp := ⟨t, "+00:00".toList⟩

inductive UserOp
  | create (draw : Draw) (username password : String) (roles : List UserRole) (disabled : Bool)
  | get (username : String)
  | authenticate (username password : String)
  /-- `seed_default_admin_if_empty`, with what each of its users draws -/
  | seed (draws : Fin 4 → Draw)

inductive UserAnswer
  | user (user : Option User)
  | created (user : User)
  | seeded
  | raised (error : PyExc)

def userExists (username : String) : PyExc := .valueError ("User " ++ username ++ " already exists")

/-- The users of an empty store. -/
def defaultAccounts (draws : Fin 4 → Draw) : List (Draw × String × UserRole) :=
  [(draws 0, "admin", .admin), (draws 1, "operator", .operator), (draws 2, "viewer", .viewer),
    (draws 3, "auditor", .auditor)]

/-- Create one account after the other; the first error ends it. -/
def createAccounts {σ : Type} (create : Draw → String → List UserRole → σ → σ × Except PyExc User) :
    List (Draw × String × UserRole) → σ → σ × UserAnswer
  | [], s => (s, .seeded)
  | (draw, username, role) :: accounts, s =>
    match create draw username [role] s with
    | (s, .ok _) => createAccounts create accounts s
    | (s, .error exc) => (s, .raised exc)

/-- The answer of `create_user`. -/
def createdAnswer : Except PyExc User → UserAnswer
  | .ok user => .created user
  | .error exc => .raised exc

/-- `authenticate_user`, on the user of the name. -/
def authenticated (bc : Bcrypt) (password : String) : Option User → UserAnswer
  | none => .user none
  | some user =>
    if user.disabled then .user none
    else
      match bc.checkpw password user.passwordHash with
      | .error exc => .raised exc
      | .ok false => .user none
      | .ok true => .user (some user)

variable (bc : Bcrypt) (devPassword : String)

/-! ## In memory -/

namespace InMemoryUserStore

/-- `create_user` -/
def createUser (draw : Draw) (username password : String) (roles : List UserRole) (disabled : Bool)
    (users : List User) : List User × Except PyExc User :=
  if users.any fun user => user.username = username then (users, .error (userExists username))
  else
    match bc.hashpw password draw.salt with
    | .error exc => (users, .error exc)
    | .ok hash =>
      let user : User := ⟨draw.userId, username, hash, roles, disabled, utcStamp draw.now⟩
      (users ++ [user], .ok user)

/-- `get_user_by_username` -/
def getUserByUsername (username : String) (users : List User) : Option User :=
  users.find? fun user => user.username = username

def serve : Mealy UserOp (List User) UserAnswer
  | .create draw username password roles disabled, users =>
    let (users, user) := createUser bc draw username password roles disabled users
    (users, createdAnswer user)
  | .get username, users => (users, .user (getUserByUsername username users))
  | .authenticate username password, users => (users, authenticated bc password (getUserByUsername username users))
  | .seed draws, users =>
    if users ≠ [] then (users, .seeded)
    else createAccounts (fun draw username roles => createUser bc draw username devPassword roles false)
      (defaultAccounts draws) users

end InMemoryUserStore

/-! ## Postgres -/

/-- A row of `users`. -/
structure UserRow where
  userId : String
  username : String
  passwordHash : String
  roles : String
  disabled : Bool
  createdAt : DateTime

namespace PostgresUserStore

variable (u : Unicode)

/-- `_serialize_roles` -/
def serializeRoles (roles : List UserRole) : String :=
  String.ofList ([','].intercalate (roles.map fun role => role.value.toList))

/-- `_parse_roles`: what is not a role is passed over, and a user without one is a viewer. -/
def parseRoles (rawRoles : String) : List UserRole :=
  match (parseCsv u rawRoles).filterMap UserRole.ofValue with
  | [] => [.viewer]
  | roles => roles

/-- `_row_to_user` -/
def rowToUser (row : UserRow) : User :=
  ⟨row.userId, row.username, row.passwordHash, parseRoles u row.roles, row.disabled, utcStamp row.createdAt⟩

/-- `create_user`; the key and the name of a user are unique. -/
def createUser (draw : Draw) (username password : String) (roles : List UserRole) (disabled : Bool)
    (rows : List UserRow) : List UserRow × Except PyExc User :=
  if hasNulCharacter username then (rows, .error PostgresApprovalStore.dataError)
  else if rows.any fun row => row.username = username then (rows, .error (userExists username))
  else
    match bc.hashpw password draw.salt with
    | .error exc => (rows, .error exc)
    | .ok hash =>
      let row : UserRow := ⟨draw.userId, username, hash, serializeRoles roles, disabled, draw.now⟩
      if [row.userId, row.passwordHash, row.roles].any hasNulCharacter then
        (rows, .error PostgresApprovalStore.dataError)
      else if rows.any fun row' => row'.userId = row.userId then (rows, .error (.storeError "IntegrityError"))
      else (rows ++ [row], .ok (rowToUser u row))

/-- `get_user_by_username` -/
def getUserByUsername (username : String) (rows : List UserRow) : Except PyExc (Option User) :=
  if hasNulCharacter username then .error PostgresApprovalStore.dataError
  else .ok ((rows.find? fun row => row.username = username).map (rowToUser u))

def serve : Mealy UserOp (List UserRow) UserAnswer
  | .create draw username password roles disabled, rows =>
    let (rows, user) := createUser bc u draw username password roles disabled rows
    (rows, createdAnswer user)
  | .get username, rows =>
    match getUserByUsername u username rows with
    | .ok user => (rows, .user user)
    | .error exc => (rows, .raised exc)
  | .authenticate username password, rows =>
    match getUserByUsername u username rows with
    | .ok user => (rows, authenticated bc password user)
    | .error exc => (rows, .raised exc)
  | .seed draws, rows =>
    if rows ≠ [] then (rows, .seeded)
    else createAccounts (fun draw username roles => createUser bc u draw username devPassword roles false)
      (defaultAccounts draws) rows

end PostgresUserStore

/-! ## The roles of a user as one text -/

section
variable {u : Unicode}

theorem value_letters (role : UserRole) :
    ∀ c ∈ role.value.toList, c ≠ ',' ∧ isAscii c = true ∧ asciiSpace c = false := by
  have hall : (role.value.toList.all fun c => c ≠ ',' && isAscii c && !asciiSpace c) = true := by
    cases role <;> rfl
  intro c hc
  have hletter := List.all_eq_true.mp hall c hc
  rw [Bool.and_eq_true, Bool.and_eq_true, decide_eq_true_eq, Bool.not_eq_true'] at hletter
  exact ⟨hletter.1.1, hletter.1.2, hletter.2⟩

theorem value_nonempty (role : UserRole) : role.value.toList ≠ [] := by
  cases role <;> decide

theorem ofValue_value (role : UserRole) : UserRole.ofValue role.value = some role := by
  cases role <;> rfl

theorem strip_value (role : UserRole) : u.strip role.value.toList = role.value.toList := by
  have hspace : ∀ c ∈ role.value.toList, u.isSpace c = false := by
    intro c hc
    obtain ⟨-, hascii, hspace⟩ := value_letters role c hc
    rw [u.isSpace_ascii c hascii, hspace]
  unfold Unicode.strip
  rw [Unicode.dropWhile_of_head fun c hc => hspace c (List.mem_of_head? hc)]
  exact Unicode.dropEnd_of_last fun c hc => hspace c (List.mem_of_getLast? hc)

/-- The text of the roles is read back; that of no role as the role of a viewer. -/
theorem parseRoles_serializeRoles (roles : List UserRole) :
    PostgresUserStore.parseRoles u (PostgresUserStore.serializeRoles roles) =
      if roles = [] then [.viewer] else roles := by
  have hread : (parseCsv u (PostgresUserStore.serializeRoles roles)).filterMap UserRole.ofValue = roles := by
    unfold parseCsv PostgresUserStore.serializeRoles
    rw [String.toList_ofList]
    cases roles with
    | nil => rfl
    | cons role rest =>
      -- no role has a comma, and none has white space at its ends
      have hstrip : ((role :: rest).map fun role => role.value.toList).map u.strip =
          (role :: rest).map fun role => role.value.toList := by
        rw [List.map_map]
        exact List.map_congr_left fun role' _ => strip_value role'
      rw [List.splitOn_intercalate ',' (by
          intro l hl hmem
          obtain ⟨role', -, rfl⟩ := List.mem_map.mp hl
          exact (value_letters role' ',' hmem).1 rfl) (by simp),
        hstrip, List.filter_eq_self.mpr (by
          intro l hl
          obtain ⟨role', -, rfl⟩ := List.mem_map.mp hl
          exact decide_eq_true (value_nonempty role')),
        List.map_map, List.filterMap_map]
      have hsome : (UserRole.ofValue ∘ String.ofList ∘ fun role : UserRole => role.value.toList) = some := by
        funext role'
        rw [Function.comp_apply, Function.comp_apply, String.ofList_toList, ofValue_value]
      rw [hsome, List.filterMap_some]
  unfold PostgresUserStore.parseRoles
  rw [hread]
  cases roles with
  | nil => rfl
  | cons role rest => rfl

theorem serializeRoles_text (roles : List UserRole) :
    hasNulCharacter (PostgresUserStore.serializeRoles roles) = false := by
  have hvalue : ∀ role : UserRole, role.value.toList.contains (Char.ofNat 0) = false := by
    intro role
    cases role <;> decide
  unfold hasNulCharacter PostgresUserStore.serializeRoles
  rw [String.toList_ofList]
  induction roles with
  | nil => rfl
  | cons role rest ih =>
    cases rest with
    | nil =>
      rw [List.map_cons, List.map_nil, List.intercalate_singleton]
      exact hvalue role
    | cons role' rest =>
      rw [List.map_cons, List.map_cons, List.intercalate_cons_cons, List.contains_append, List.contains_append,
        hvalue role]
      rw [List.map_cons] at ih
      rw [ih]
      decide

end

/-! ## Both stores -/

/-- No NUL in a name; a user is created with a role, under an id that is new. -/
def UserOp.Meets (op : UserOp) (rows : List UserRow) : Prop :=
  match op with
  | .create draw username _ roles _ =>
    hasNulCharacter username = false ∧ roles ≠ [] ∧ hasNulCharacter draw.userId = false ∧
      ∀ row ∈ rows, row.userId ≠ draw.userId
  | .get username => hasNulCharacter username = false
  | .authenticate username _ => hasNulCharacter username = false
  | .seed draws =>
    rows = [] → (∀ i, hasNulCharacter (draws i).userId = false) ∧ ∀ i j, (draws i).userId = (draws j).userId → i = j

section
variable {bc} {u : Unicode} {devPassword} {rows : List UserRow} {username : String}

theorem any_rows : ((rows.map (PostgresUserStore.rowToUser u)).any fun user => user.username = username) =
    rows.any fun row => row.username = username := List.any_map

theorem getUser_rows (hnul : hasNulCharacter username = false) :
    PostgresUserStore.getUserByUsername u username rows =
      .ok (InMemoryUserStore.getUserByUsername username (rows.map (PostgresUserStore.rowToUser u))) := by
  unfold PostgresUserStore.getUserByUsername InMemoryUserStore.getUserByUsername
  rw [hnul, List.find?_map]
  rfl

/-- A new user is made alike. -/
theorem createUser_rows {draw : Draw} {password : String} {roles : List UserRole} {disabled : Bool}
    (hnul : hasNulCharacter username = false) (hroles : roles ≠ []) (hid : hasNulCharacter draw.userId = false)
    (hnew : ∀ row ∈ rows, row.userId ≠ draw.userId) :
    InMemoryUserStore.createUser bc draw username password roles disabled (rows.map (PostgresUserStore.rowToUser u)) =
      ((PostgresUserStore.createUser bc u draw username password roles disabled rows).1.map
          (PostgresUserStore.rowToUser u),
        (PostgresUserStore.createUser bc u draw username password roles disabled rows).2) := by
  have hfree : (rows.any fun row => row.userId = draw.userId) = false :=
    List.any_eq_false.mpr fun row hrow hsame => hnew row hrow (of_decide_eq_true hsame)
  unfold InMemoryUserStore.createUser PostgresUserStore.createUser
  rw [hnul, any_rows, if_neg (by decide : ¬ false = true)]
  split
  · rfl
  · cases hhash : bc.hashpw password draw.salt with
    | error exc => rfl
    | ok hash =>
      have htexts : [draw.userId, hash, PostgresUserStore.serializeRoles roles].any hasNulCharacter = false := by
        rw [List.any_cons, List.any_cons, List.any_cons, List.any_nil, hid, bc.hash_text _ _ _ hhash,
          serializeRoles_text]
        rfl
      have huser : PostgresUserStore.rowToUser u
          ⟨draw.userId, username, hash, PostgresUserStore.serializeRoles roles, disabled, draw.now⟩ =
          ⟨draw.userId, username, hash, roles, disabled, utcStamp draw.now⟩ := by
        unfold PostgresUserStore.rowToUser
        dsimp only
        rw [parseRoles_serializeRoles, if_neg hroles]
      dsimp only
      rw [htexts, if_neg (by decide : ¬ false = true), hfree, if_neg (by decide : ¬ false = true), List.map_append,
        huser]
      show (_ ++ [_], _) = (_ ++ [PostgresUserStore.rowToUser u _], _)
      rw [huser]

theorem createUser_ids {draw : Draw} {password : String} {roles : List UserRole} {disabled : Bool} :
    ∀ row ∈ (PostgresUserStore.createUser bc u draw username password roles disabled rows).1,
      row ∈ rows ∨ row.userId = draw.userId := by
  intro row hrow
  unfold PostgresUserStore.createUser at hrow
  split_ifs at hrow
  · exact .inl hrow
  · exact .inl hrow
  · split at hrow
    · exact .inl hrow
    · dsimp only at hrow
      split_ifs at hrow
      · exact .inl hrow
      · exact .inl hrow
      · rcases List.mem_append.mp hrow with hrow | hrow
        · exact .inl hrow
        · exact .inr (congrArg UserRow.userId (List.mem_singleton.mp hrow))

/-- Accounts are created alike, one after the other. -/
theorem createAccounts_rows {accounts : List (Draw × String × UserRole)}
    (hnul : ∀ account ∈ accounts, hasNulCharacter account.2.1 = false ∧ hasNulCharacter account.1.userId = false)
    (hd : (accounts.map fun account => account.1.userId).Nodup)
    (hnew : ∀ account ∈ accounts, ∀ row ∈ rows, row.userId ≠ account.1.userId) :
    createAccounts (fun draw username roles => InMemoryUserStore.createUser bc draw username devPassword roles false)
        accounts (rows.map (PostgresUserStore.rowToUser u)) =
      ((createAccounts (fun draw username roles =>
          PostgresUserStore.createUser bc u draw username devPassword roles false) accounts rows).1.map
          (PostgresUserStore.rowToUser u),
        (createAccounts (fun draw username roles =>
          PostgresUserStore.createUser bc u draw username devPassword roles false) accounts rows).2) := by
  induction accounts generalizing rows with
  | nil => rfl
  | cons account accounts ih =>
    obtain ⟨draw, username, role⟩ := account
    rw [List.map_cons, List.nodup_cons] at hd
    obtain ⟨hname, hid⟩ := hnul _ List.mem_cons_self
    unfold createAccounts
    rw [createUser_rows hname (List.cons_ne_nil role []) hid (hnew _ List.mem_cons_self)]
    have hids : ∀ row ∈ (PostgresUserStore.createUser bc u draw username devPassword [role] false rows).1,
        row ∈ rows ∨ row.userId = draw.userId := createUser_ids
    cases hout : PostgresUserStore.createUser bc u draw username devPassword [role] false rows with
    | mk rows' user =>
      rw [hout] at hids
      cases user with
      | error exc => rfl
      | ok user =>
        refine ih (fun account h => hnul account (List.mem_cons_of_mem _ h)) hd.2 fun account h row hrow => ?_
        rcases hids row hrow with hold | hsame
        · exact hnew account (List.mem_cons_of_mem _ h) row hold
        · rw [hsame]
          intro heq
          exact hd.1 (heq ▸ List.mem_map_of_mem h)

/-- One step of both stores. -/
theorem userServe_rows {op : UserOp} (h : op.Meets rows) :
    InMemoryUserStore.serve bc devPassword op (rows.map (PostgresUserStore.rowToUser u)) =
      ((PostgresUserStore.serve bc devPassword u op rows).1.map (PostgresUserStore.rowToUser u),
        (PostgresUserStore.serve bc devPassword u op rows).2) := by
  cases op with
  | create draw username password roles disabled =>
    obtain ⟨hnul, hroles, hid, hnew⟩ := h
    unfold InMemoryUserStore.serve PostgresUserStore.serve
    dsimp only
    rw [createUser_rows hnul hroles hid hnew]
  | get username =>
    unfold InMemoryUserStore.serve PostgresUserStore.serve
    dsimp only
    rw [getUser_rows h]
  | authenticate username password =>
    unfold InMemoryUserStore.serve PostgresUserStore.serve
    dsimp only
    rw [getUser_rows h]
  | seed draws =>
    unfold InMemoryUserStore.serve PostgresUserStore.serve
    dsimp only
    cases rows with
    | cons row rows => rfl
    | nil =>
      obtain ⟨hids, hdiff⟩ := h rfl
      have hnames : ∀ name ∈ ["admin", "operator", "viewer", "auditor"], hasNulCharacter name = false := by decide
      refine createAccounts_rows ?_ ?_ ?_
      · intro account haccount
        refine ⟨hnames _ (List.mem_map_of_mem (f := fun account => account.2.1) haccount), ?_⟩
        simp only [defaultAccounts, List.mem_cons, List.not_mem_nil, or_false] at haccount
        rcases haccount with rfl | rfl | rfl | rfl <;> exact hids _
      · have hmap : (defaultAccounts draws).map (fun account => account.1.userId) =
            (List.finRange 4).map fun i => (draws i).userId := rfl
        rw [hmap]
        exact (List.nodup_finRange 4).map fun i j hij => hdiff i j hij
      · exact fun _ _ row hrow => absurd hrow List.not_mem_nil

end

/-- A `bcrypt` whose hash shows its salt and password. -/
def Bcrypt.demo : Bcrypt where
  hashpw password salt :=
    let hash := "$2b$12$" ++ salt ++ password
    if hasNulCharacter hash then .error (.valueError "password may not contain NUL bytes") else .ok hash
  checkpw password hash := .ok (password.toList.isSuffixOf hash.toList)
  hash_text password salt hash h := by
    dsimp only at h
    split_ifs at h with hnul
    obtain rfl := Except.ok.inj h
    exact Bool.eq_false_iff.mpr hnul

/-- The draws of a run, told apart by a character. -/
def demoDraw (c : Char) : Draw := ⟨[c], "salt", newYear 1 one_lt_day⟩

/-- The default users, a new one, a name that is taken, and two logins. -/
def seededRun : List UserOp :=
  [.seed (fun i => demoDraw (Nat.digitChar i)), .create (demoDraw 'a') "ann" "secret" [.operator, .auditor] false,
    .create (demoDraw 'b') "admin" "mine" [.admin] false, .authenticate "ann" "secret", .authenticate "ann" "guess"]

end AgentHarness
