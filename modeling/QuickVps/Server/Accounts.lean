import QuickVps.Auth.Calls
import QuickVps.Auth.Expiry
import QuickVps.Server.Http

/-!
# The account handlers

Login, logout and the administration of users, as programs over the operations of the user store
and the session manager. Each handler follows its source: the method and mode checks first, then
the body, then the calls, whose errors it turns into a status and a text.
-/

namespace QuickVps

open Go

/-! ## What is read and written -/

def Auth.User.json (u : Auth.User) : Json :=
  .obj [("id", .int u.id), ("username", .str u.username), ("role", .str u.role.text)]

def Auth.UserAuditEntry.json (e : Auth.UserAuditEntry) : Json :=
  .obj
    [("id", .int e.id), ("actor_user_id", .int e.actorUserID),
      ("actor_username", .str e.actorUsername), ("action", .str e.action),
      ("target_user_id", .int e.targetUserID), ("target_username", .str e.targetUsername),
      ("details", .str e.details), ("created_at", .time e.createdAt)]

namespace Server

open Auth (M)

structure LoginBody where
  username : String := ""
  password : String := ""

def LoginBody.field (name : String) (v : Json) (b : LoginBody) : Option LoginBody :=
  if name = "username" then
    (v.orKeep Json.readString b.username).map fun x => { b with username := x }
  else if name = "password" then
    (v.orKeep Json.readString b.password).map fun x => { b with password := x }
  else some b

structure CreateUserBody where
  username : String := ""
  password : String := ""
  role : String := ""

def CreateUserBody.field (name : String) (v : Json) (b : CreateUserBody) :
    Option CreateUserBody :=
  if name = "username" then
    (v.orKeep Json.readString b.username).map fun x => { b with username := x }
  else if name = "password" then
    (v.orKeep Json.readString b.password).map fun x => { b with password := x }
  else if name = "role" then
    (v.orKeep Json.readString b.role).map fun x => { b with role := x }
  else some b

structure UpdateUserBody where
  role : Option String := none
  password : Option String := none

def UpdateUserBody.field (name : String) (v : Json) (b : UpdateUserBody) :
    Option UpdateUserBody :=
  if name = "role" then (v.orNil Json.readString).map fun x => { b with role := x }
  else if name = "password" then (v.orNil Json.readString).map fun x => { b with password := x }
  else some b

/-- `json.NewDecoder(r.Body).Decode`. -/
def Request.decode {α : Type} (r : Request) (field : String → Json → α → Option α) (zero : α) :
    Option α :=
  r.body.bind (Json.decode field zero)

/-- What follows the prefix of a path. -/
def trimPrefix (prefix_ s : List Char) : List Char :=
  if prefix_.isPrefixOf s then s.drop prefix_.length else s

/-- The id in the path of `handleUserByID`. -/
def parseUserID (path : List Char) : Option Int :=
  let idPart := trimPrefix "/api/users/".toList path
  if idPart = [] ∨ '/' ∈ idPart then none
  else (atoi idPart).filter fun id => 0 < id

/-- The query parameter `limit`, a positive number, or its default. -/
def parseLimit (r : Request) (default_ : Int) : Option Int :=
  let raw := trim (r.query "limit")
  if raw = "" then some default_ else (atoi raw.toList).filter fun n => 0 < n

/-- The name of a boolean in JSON. -/
def boolText (b : Bool) : String := if b then "true" else "false"

/-! ## The handlers -/

variable (s : Server) (bcrypt : Auth.Bcrypt)

/-- The cookie of a session. -/
def sessionCookie (r : Request) (session : Auth.Session) : Cookie where
  value := session.token
  expires := session.expiresAt
  secure := r.tls

def clearedCookie (r : Request) : Cookie where
  value := ""
  expires := 0
  maxAge := -1
  secure := r.tls

def handleAuthLogin (r : Request) : M Response := do
  if r.method ≠ "POST" then return methodNotAllowed
  if s.authDisabled then return writeJSON 200 (.obj [("auth_disabled", .bool true)])
  let some body := r.decode LoginBody.field {} | return invalidBody
  match ← Auth.authenticate bcrypt body.username body.password with
  | .error .invalidCredentials => return writeError 401 "invalid credentials"
  | .error err => return writeError 500 err.text
  | .ok user =>
    match ← s.sessions.create user with
    | .error _ => return writeError 500 "failed to create session"
    | .ok session =>
      return { writeJSON 200 (.obj [("user", user.json)]) with
        setCookie := some (sessionCookie r session) }

def handleAuthLogout (r : Request) : M Response := do
  if r.method ≠ "POST" then return methodNotAllowed
  if s.authDisabled then return writeJSON 200 (.obj [("auth_disabled", .bool true)])
  let answer : Response :=
    { writeJSON 200 (.obj [("status", .str "logged_out")]) with
      setCookie := some (clearedCookie r) }
  match r.cookie with
  | none => return answer
  | some token => do
    s.sessions.delete token
    return answer

def handleAuthMe (r : Request) (ctx : Context) : M Response := do
  if r.method ≠ "GET" then return methodNotAllowed
  if s.authDisabled then return writeJSON 200 (.obj [("auth_disabled", .bool true)])
  match s.currentUser ctx with
  | none => return writeError 401 "unauthorized"
  | some user => return writeJSON 200 (.obj [("user", user.json)])

/-- The `GET` branch of `handleUsers`. -/
def getUsers : M Response := do
  match ← Auth.listUsers with
  | .error err => return writeError 500 err.text
  | .ok users => return writeJSON 200 (.obj [("users", .arr (users.map Auth.User.json))])

/-- The status of an error of `CreateUser`. -/
def createErrorStatus : Auth.Error → Nat
  | .userExists => 400
  | .invalidRole => 400
  | .invalidUsername => 400
  | .invalidPassword => 400
  | _ => 500

/-- The `POST` branch of `handleUsers`. -/
def postUser (admin : Auth.User) (r : Request) : M Response := do
  let some body := r.decode CreateUserBody.field {} | return invalidBody
  let role := if body.role = "" then "viewer" else body.role
  match ← Auth.createUser body.username body.password role with
  | .error err => return writeError (createErrorStatus err) err.text
  | .ok created => do
    let _ ← Auth.logUserAudit admin.id admin.username "create_user" created.id created.username
      ("\x7b\"role\":\"" ++ created.role.text ++ "\"\x7d")
    return writeJSON 201 (.obj [("user", created.json)])

def handleUsers (r : Request) (ctx : Context) : M Response :=
  match s.requireAdmin ctx with
  | .error refusal => return refusal
  | .ok admin =>
    if r.method = "GET" then getUsers
    else if r.method = "POST" then postUser admin r
    else return methodNotAllowed

/-- The response to an error of `UpdateUser`. -/
def updateError : Auth.Error → Response
  | .notFound => writeError 404 "user not found"
  | .invalidRole => writeError 400 Auth.Error.invalidRole.text
  | .invalidPassword => writeError 400 Auth.Error.invalidPassword.text
  | .lastAdmin => writeError 400 Auth.Error.lastAdmin.text
  | err => writeError 500 err.text

/-- The sessions of a user are dropped when the role or the password was in the body. -/
def revokeIfChanged (userID : Int) (body : UpdateUserBody) : M Unit :=
  if body.role.isSome ∨ body.password.isSome then s.sessions.deleteByUserID userID
  else return ()

/-- The `PUT` branch of `handleUserByID`. -/
def putUser (admin : Auth.User) (userID : Int) (r : Request) : M Response := do
  let some body := r.decode UpdateUserBody.field {} | return invalidBody
  match ← Auth.updateUser userID body.role body.password with
  | .error err => return updateError err
  | .ok updated => do
    s.revokeIfChanged userID body
    let _ ← Auth.logUserAudit admin.id admin.username "update_user" updated.id updated.username
      ("\x7b\"new_role\":\"" ++ updated.role.text ++ "\",\"password_changed\":" ++
        boolText body.password.isSome ++ ",\"role_changed\":" ++ boolText body.role.isSome ++
        "\x7d")
    return writeJSON 200 (.obj [("user", updated.json)])

/-- The response to an error of `GetUserByID`. -/
def lookupError : Auth.Error → Response
  | .notFound => writeError 404 "user not found"
  | err => writeError 500 err.text

/-- The response to an error of `DeleteUser`. -/
def deleteError : Auth.Error → Response
  | .notFound => writeError 404 "user not found"
  | .lastAdmin => writeError 400 Auth.Error.lastAdmin.text
  | err => writeError 500 err.text

/-- The `DELETE` branch of `handleUserByID`. -/
def removeUser (admin : Auth.User) (userID : Int) : M Response := do
  if admin.id = userID then return writeError 400 "cannot delete current user"
  match ← Auth.getUserByID userID with
  | .error err => return lookupError err
  | .ok target =>
    match ← Auth.deleteUser userID with
    | .error err => return deleteError err
    | .ok () => do
      s.sessions.deleteByUserID userID
      let _ ← Auth.logUserAudit admin.id admin.username "delete_user" target.id target.username
        ("\x7b\"target_role\":\"" ++ target.role.text ++ "\"\x7d")
      return writeJSON 200 (.obj [("id", .int userID), ("status", .str "deleted")])

def handleUserByID (r : Request) (ctx : Context) : M Response :=
  match s.requireAdmin ctx with
  | .error refusal => return refusal
  | .ok admin =>
    match parseUserID r.path with
    | none => return writeError 400 "invalid user id"
    | some userID =>
      if r.method = "PUT" then s.putUser admin userID r
      else if r.method = "DELETE" then s.removeUser admin userID
      else return methodNotAllowed

def handleUserAudit (r : Request) (ctx : Context) : M Response := do
  match s.requireAdmin ctx with
  | .error refusal => return refusal
  | .ok _ =>
    if r.method ≠ "GET" then return methodNotAllowed
    let some limit := parseLimit r 100 | return writeError 400 "invalid limit"
    match ← Auth.listUserAudits limit with
    | .error err => return writeError 500 err.text
    | .ok entries =>
      return writeJSON 200 (.obj [("entries", .arr (entries.map Auth.UserAuditEntry.json))])

/-! ## What they call -/

variable {s} {bcrypt}

theorem only_handleAuthLogin (r : Request) :
    (s.handleAuthLogin bcrypt r).Only Auth.Op.Harmless := by
  unfold handleAuthLogin
  split_ifs
  · exact Prog.only_ret _
  · exact Prog.only_ret _
  · cases r.decode LoginBody.field {} with
    | none => exact Prog.only_ret _
    | some body =>
      refine ((Auth.only_authenticate _ _ _).mono fun _ => .inl).bind fun found => ?_
      cases found with
      | error err => cases err <;> exact Prog.only_ret _
      | ok user =>
        refine ((s.sessions.only_create user).mono fun _ => .inr).bind fun created => ?_
        cases created <;> exact Prog.only_ret _

theorem only_handleAuthLogout (r : Request) :
    (s.handleAuthLogout r).Only Auth.Op.Harmless := by
  unfold handleAuthLogout
  split_ifs
  · exact Prog.only_ret _
  · exact Prog.only_ret _
  · cases r.cookie with
    | none => exact Prog.only_ret _
    | some token =>
      exact ((s.sessions.only_delete token).mono fun _ => .inr).bind fun _ => Prog.only_ret _

/-- A login touches the session that it opens, if any. -/
theorem run_handleAuthLogin {r : Request} {cs cs' : List Auth.Choice} {w w' : Auth.World}
    {resp : Response}
    (h : (s.handleAuthLogin bcrypt r).run (Auth.exec bcrypt) cs w = some (resp, cs', w')) :
    ∃ touched, w.SameBut touched w' := by
  unfold handleAuthLogin at h
  split_ifs at h
  · obtain ⟨-, -, rfl⟩ := Prog.run_ret h
    exact ⟨none, .refl _ _⟩
  · obtain ⟨-, -, rfl⟩ := Prog.run_ret h
    exact ⟨none, .refl _ _⟩
  cases hbody : r.decode LoginBody.field {} with
  | none =>
    rw [hbody] at h
    obtain ⟨-, -, rfl⟩ := Prog.run_ret h
    exact ⟨none, .refl _ _⟩
  | some body =>
    rw [hbody] at h
    obtain ⟨found, ds, t, hauth, hrest⟩ := Prog.run_bind h
    obtain rfl := Auth.eq_of_reads (Auth.only_authenticate _ _ _) hauth
    cases found with
    | error err =>
      have hsame : w' = t := by
        cases err <;> exact (Prog.run_ret hrest).2.2
      exact ⟨none, hsame ▸ .refl _ _⟩
    | ok user =>
      obtain ⟨created, ds', t', hcreate, hend⟩ := Prog.run_bind hrest
      have hsame : w' = t' := by
        cases created <;> exact (Prog.run_ret hend).2.2
      exact hsame ▸ Auth.SessionManager.run_create hcreate

/-- A logout touches the session of the cookie, if there is one. -/
theorem run_handleAuthLogout {r : Request} {cs cs' : List Auth.Choice} {w w' : Auth.World}
    {resp : Response}
    (h : (s.handleAuthLogout r).run (Auth.exec bcrypt) cs w = some (resp, cs', w')) :
    w.SameBut r.cookie w' := by
  unfold handleAuthLogout at h
  split_ifs at h
  · obtain ⟨-, -, rfl⟩ := Prog.run_ret h
    exact .refl _ _
  · obtain ⟨-, -, rfl⟩ := Prog.run_ret h
    exact .refl _ _
  cases hcookie : r.cookie with
  | none =>
    rw [hcookie] at h
    obtain ⟨-, -, rfl⟩ := Prog.run_ret h
    exact .refl _ _
  | some token =>
    rw [hcookie] at h
    obtain ⟨_, ds, t, hdelete, hend⟩ := Prog.run_bind h
    obtain ⟨-, -, rfl⟩ := Prog.run_ret hend
    exact (Auth.SessionManager.run_delete hdelete).1

theorem only_handleAuthMe (r : Request) (ctx : Context) :
    (s.handleAuthMe r ctx).Only Auth.Op.Reads := by
  unfold handleAuthMe
  split_ifs
  · exact Prog.only_ret _
  · exact Prog.only_ret _
  · cases s.currentUser ctx <;> exact Prog.only_ret _

end Server

end QuickVps
