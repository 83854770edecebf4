import QuickVps.Go.Strings
import QuickVps.Lib.Prog
import QuickVps.Lib.Table
import Mathlib.Data.List.Sort

/-!
# The user store

The tables of the user database, the SQL statements on them, and the functions of `Store` as
programs that issue these statements one by one. A statement is atomic: it does what it says and
answers, or fails with the error that the environment chose and changes nothing. The other
operations are those of the session manager: its lock regions, the clock and the random tokens.

* `Users` — the table of users, with the constraints of its schema;
* `Op`, `exec` — the operations and what they do;
* `createUser`, `authenticate`, `updateUser`, `deleteUser`, … — the functions of `Store`.
-/

namespace QuickVps.Auth

open Go

/-! ## Data -/

inductive Role where
  | admin
  | viewer
  deriving DecidableEq, Repr

def Role.text : Role → String
  | admin => "admin"
  | viewer => "viewer"

structure User where
  id : Int
  username : String
  role : Role
  deriving DecidableEq

structure Session where
  token : String
  userID : Int
  username : String
  role : Role
  expiresAt : Int
  deriving DecidableEq

structure UserAuditEntry where
  id : Int
  actorUserID : Int
  actorUsername : String
  action : String
  targetUserID : Int
  targetUsername : String
  details : String
  createdAt : Int
  deriving DecidableEq

/-- The errors of `Store`, and any other error by its text. -/
inductive Error where
  | invalidCredentials
  | userExists
  | invalidRole
  | invalidUsername
  | invalidPassword
  | notFound
  | lastAdmin
  | other (text : String)
  deriving DecidableEq

def Error.text : Error → String
  | .invalidCredentials => "invalid credentials"
  | .userExists => "user already exists"
  | .invalidRole => "invalid role"
  | .invalidUsername => "invalid username"
  | .invalidPassword => "invalid password"
  | .notFound => "not found"
  | .lastAdmin => "cannot remove the last admin"
  | .other text => text

def normalizeRole (role : String) : Option Role :=
  let clean := toLower (trim role)
  if clean = "admin" then some .admin
  else if clean = "viewer" then some .viewer
  else none

def normalizeUsername (username : String) : Option String :=
  let username := trim username
  if username.utf8ByteSize < 3 then none else some username

def validatePassword (password : String) : Bool := 6 ≤ password.utf8ByteSize

/-! ## The table of users -/

structure UserRow where
  id : Int
  username : String
  passwordHash : String
  role : Role
  deriving DecidableEq

def UserRow.user (r : UserRow) : User := ⟨r.id, r.username, r.role⟩

/-- The table of users; no username is there twice. -/
structure Users extends Table UserRow UserRow.id where
  unique : (rows.map UserRow.username).Nodup

namespace Users

def empty : Users := ⟨.empty, List.nodup_nil⟩

def find (t : Users) (id : Int) : Option UserRow := t.rows.find? fun r => r.id = id

def findByName (t : Users) (username : String) : Option UserRow :=
  t.rows.find? fun r => r.username = username

def countAdmins (t : Users) : Nat := t.rows.countP fun r => r.role = .admin

/-- A new row, unless the username is taken. -/
def insert (t : Users) (username passwordHash : String) (role : Role) : Option (Int × Users) :=
  if h : username ∈ t.rows.map UserRow.username then none
  else
    some (t.seq + 1,
      { toTable := t.toTable.insert (fun id => ⟨id, username, passwordHash, role⟩) fun _ => rfl
        unique := by
          rw [Table.insert, List.map_append, List.nodup_append]
          refine ⟨t.unique, by simp, fun a ha b hb => ?_⟩
          rintro rfl
          obtain rfl : a = username := by simpa using hb
          exact h ha })

/-- The table after these users were inserted, as far as their names were not taken. -/
def seed (rows : List (String × String × Role)) : Users :=
  rows.foldl (fun t r => ((t.insert r.1 r.2.1 r.2.2).map Prod.snd).getD t) empty

/-- Change the rows with this id, but not their id or username. -/
def modify (t : Users) (id : Int) (f : UserRow → UserRow)
    (hf : ∀ r, (f r).id = r.id ∧ (f r).username = r.username) : Users where
  toTable := t.toTable.modify (fun r => if r.id = id then f r else r) fun r => by
    split_ifs
    · exact (hf r).1
    · rfl
  unique := by
    have hmap : (t.rows.map fun r => if r.id = id then f r else r).map UserRow.username =
        t.rows.map UserRow.username := by
      rw [List.map_map]
      refine List.map_congr_left fun r _ => ?_
      simp only [Function.comp_apply]
      split_ifs <;> simp [hf]
    rw [Table.modify, hmap]
    exact t.unique

def setRole (t : Users) (id : Int) (role : Role) : Users :=
  t.modify id (fun r => { r with role := role }) fun _ => ⟨rfl, rfl⟩

def setPassword (t : Users) (id : Int) (hash : String) : Users :=
  t.modify id (fun r => { r with passwordHash := hash }) fun _ => ⟨rfl, rfl⟩

def delete (t : Users) (id : Int) : Users where
  toTable := t.toTable.filter fun r => r.id ≠ id
  unique := t.unique.sublist (List.filter_sublist.map _)

variable (t : Users) (id : Int)

@[simp]
theorem rows_setRole (role : Role) :
    (t.setRole id role).rows = t.rows.map fun r => if r.id = id then { r with role } else r :=
  rfl

@[simp]
theorem rows_setPassword (hash : String) :
    (t.setPassword id hash).rows =
      t.rows.map fun r => if r.id = id then { r with passwordHash := hash } else r :=
  rfl

@[simp]
theorem rows_delete : (t.delete id).rows = t.rows.filter fun r => r.id ≠ id := rfl

theorem rows_of_insert {t' : Users} {username hash : String} {role : Role}
    (h : t.insert username hash role = some (id, t')) :
    t'.rows = t.rows ++ [⟨id, username, hash, role⟩] := by
  unfold insert at h
  split_ifs at h
  cases h
  rfl

theorem seq_of_insert {t t' : Users} {id : Int} {username hash : String} {role : Role}
    (h : t.insert username hash role = some (id, t')) : id = t.seq + 1 ∧ t'.seq = t.seq + 1 := by
  unfold insert at h
  split_ifs at h
  cases h
  exact ⟨rfl, rfl⟩

end Users

/-! ## Operations -/

/-- The SQL statements of `Store`. -/
inductive Stmt where
  | countUsers
  | insertUser (username passwordHash : String) (role : Role)
  | selectUserByName (username : String)
  | selectUserByID (id : Int)
  | selectUsers
  | countAdmins
  | updateRole (role : Role) (id : Int)
  | updatePassword (passwordHash : String) (id : Int)
  | deleteUser (id : Int)
  | selectSession (token : String)
  | deleteSession (token : String)
  | deleteSessionsByUserID (userID : Int)
  | deleteExpiredSessions (now : Int)
  | insertAudit (actorUserID : Int) (actorUsername action : String) (targetUserID : Int)
      (targetUsername details : String)
  | selectAudits (limit : Nat)
  deriving DecidableEq

/-- What a statement answers when it succeeds: rows, a count of rows, or a new id. -/
abbrev Stmt.Ans : Stmt → Type
  | insertUser .. => Int
  | selectUserByName _ => Option UserRow
  | selectUserByID _ => Option User
  | selectUsers => List User
  | countUsers => Nat
  | countAdmins => Nat
  | deleteUser _ => Nat
  | selectSession _ => Option Session
  | selectAudits _ => List UserAuditEntry
  | _ => Unit

/-- The operations of the authentication code. The last five are the lock regions of the session
manager; `create` saves the session in the store before it releases the lock, if there is one. -/
inductive Op where
  | sql (stmt : Stmt)
  | now
  | randomToken
  | hashPassword (password : String)
  | create (persistent : Bool) (s : Session)
  | lookup (token : String)
  | put (token : String) (s : Session)
  | remove (token : String)
  | removeByUserID (userID : Int)
  deriving DecidableEq

abbrev Op.Ans : Op → Type
  | sql stmt => Except String stmt.Ans
  | now => Int
  | randomToken => Except String String
  | hashPassword _ => Except String String
  | create .. => Except String Unit
  | lookup _ => Option Session
  | _ => Unit

/-- The environment's choices for one call: its error, if it is to fail, the time, the random
token and the random salt. -/
structure Choice where
  fault : Option String := none
  now : Int := 0
  token : String := ""
  salt : Nat := 0

/-- `bcrypt`. -/
structure Bcrypt where
  generate : Nat → String → Except String String
  compare : String → String → Bool

/-- The hash that is the password itself, for runs of the model. -/
def plainBcrypt : Bcrypt := ⟨fun _ password => .ok password, fun hash password => hash = password⟩

/-- The tables, and `sessions` of the session manager. The table of sessions has the token for its
primary key; its foreign key is not enforced, as the connection never asks for that. -/
structure World where
  users : Users
  sessions : String → Option Session
  audits : List UserAuditEntry
  memory : String → Option Session

def World.empty : World := ⟨.empty, fun _ => none, [], fun _ => none⟩

/-- The text with which SQLite refuses a second user of one name. -/
def uniqueViolation : String := "constraint failed: UNIQUE constraint failed: users.username (2067)"

/-- Drop the sessions with `p`. -/
def dropSessions (sessions : String → Option Session) (p : Session → Bool) :
    String → Option Session :=
  fun token => (sessions token).filter fun s => !p s

/-- A statement that does not fail. The clock is the database's, for the time of an audit. -/
def Stmt.exec (now : Int) (w : World) : (stmt : Stmt) → Except String stmt.Ans × World
  | .countUsers => (.ok w.users.rows.length, w)
  | .insertUser username passwordHash role =>
    match w.users.insert username passwordHash role with
    | none => (.error uniqueViolation, w)
    | some (id, users) => (.ok id, { w with users := users })
  | .selectUserByName username => (.ok (w.users.findByName username), w)
  | .selectUserByID id => (.ok ((w.users.find id).map UserRow.user), w)
  | .selectUsers => (.ok (w.users.rows.map UserRow.user), w)
  | .countAdmins => (.ok w.users.countAdmins, w)
  | .updateRole role id => (.ok (), { w with users := w.users.setRole id role })
  | .updatePassword hash id => (.ok (), { w with users := w.users.setPassword id hash })
  | .deleteUser id =>
    (.ok (w.users.rows.countP fun r => r.id = id), { w with users := w.users.delete id })
  | .selectSession token => (.ok (w.sessions token), w)
  | .deleteSession token =>
    (.ok (), { w with sessions := Function.update w.sessions token none })
  | .deleteSessionsByUserID userID =>
    (.ok (), { w with sessions := dropSessions w.sessions fun s => s.userID = userID })
  | .deleteExpiredSessions at_ =>
    (.ok (), { w with sessions := dropSessions w.sessions fun s => s.expiresAt ≤ at_ })
  | .insertAudit actorUserID actorUsername action targetUserID targetUsername details =>
    (.ok (),
      { w with
        audits := w.audits ++ [⟨w.audits.length + 1, actorUserID, actorUsername, action,
          targetUserID, targetUsername, details, now⟩] })
  | .selectAudits limit =>
    (.ok ((w.audits.mergeSort fun a b =>
      b.createdAt < a.createdAt || (a.createdAt = b.createdAt && b.id ≤ a.id)).take limit), w)

def exec (bcrypt : Bcrypt) (c : Choice) (op : Op) (w : World) : Option (op.Ans × World) :=
  match op with
  | .sql stmt =>
    match c.fault with
    | some err => some (.error err, w)
    | none => some (stmt.exec c.now w)
  | .now => some (c.now, w)
  | .randomToken =>
    match c.fault with
    | some err => some (.error err, w)
    | none => some (.ok c.token, w)
  | .hashPassword password => some (bcrypt.generate c.salt password, w)
  | .create persistent s =>
    let w' := { w with memory := Function.update w.memory s.token (some s) }
    if persistent then
      match c.fault with
      | some err => some (.error err, { w with memory := Function.update w.memory s.token none })
      | none => some (.ok (), { w' with sessions := Function.update w.sessions s.token (some s) })
    else some (.ok (), w')
  | .lookup token => some (w.memory token, w)
  | .put token s => some ((), { w with memory := Function.update w.memory token (some s) })
  | .remove token => some ((), { w with memory := Function.update w.memory token none })
  | .removeByUserID userID =>
    some ((), { w with memory := dropSessions w.memory fun s => s.userID = userID })

/-- A statement fails and changes nothing, or does what it says. -/
theorem sql_exec_cases {bcrypt : Bcrypt} {c : Choice} {stmt : Stmt} {w w' : World}
    {r : (Op.sql stmt).Ans} (h : exec bcrypt c (.sql stmt) w = some (r, w')) :
    (∃ err, c.fault = some err ∧ r = .error err ∧ w' = w) ∨
      (c.fault = none ∧ stmt.exec c.now w = (r, w')) := by
  unfold exec at h
  cases hfault : c.fault with
  | some err =>
    simp only [hfault] at h
    cases h
    exact .inl ⟨err, rfl, rfl, rfl⟩
  | none =>
    simp only [hfault, Option.some.injEq] at h
    exact .inr ⟨rfl, h⟩

theorem randomToken_exec {bcrypt : Bcrypt} {c : Choice} {w w' : World} {r : Op.randomToken.Ans}
    (h : exec bcrypt c .randomToken w = some (r, w')) : w' = w := by
  unfold exec at h
  simp only at h
  split at h <;> cases h <;> rfl

/-- The table refuses a session, which is then forgotten; or it is created, in the table too if it
is to last. -/
theorem create_exec_cases {bcrypt : Bcrypt} {c : Choice} {persistent : Bool} {s : Session}
    {w w' : World} {r : (Op.create persistent s).Ans}
    (h : exec bcrypt c (.create persistent s) w = some (r, w')) :
    w' = { w with memory := Function.update w.memory s.token none } ∨
      r = .ok () ∧ ∃ sessions,
        (sessions = w.sessions ∨ sessions = Function.update w.sessions s.token (some s)) ∧
          w' = { w with
            sessions := sessions, memory := Function.update w.memory s.token (some s) } := by
  unfold exec at h
  simp only at h
  split_ifs at h
  · cases hfault : c.fault with
    | some err =>
      rw [hfault] at h
      cases h
      exact .inl rfl
    | none =>
      rw [hfault] at h
      cases h
      exact .inr ⟨rfl, _, .inr rfl, rfl⟩
  · cases h
    exact .inr ⟨rfl, _, .inl rfl, rfl⟩

/-! ## The functions of `Store` -/

abbrev M := Prog Op Op.Ans

def stmt (s : Stmt) : M (Except String s.Ans) := Prog.op (Op.sql s)

/-- A run of one statement: it fails and changes nothing, or does what it says. -/
theorem run_stmt {bcrypt : Bcrypt} {cs cs' : List Choice} {w w' : World} {stmt' : Stmt}
    {a : Except String stmt'.Ans}
    (h : (stmt stmt').run (exec bcrypt) cs w = some (a, cs', w')) :
    (∃ err, a = .error err ∧ w' = w) ∨ ∃ now, stmt'.exec now w = (a, w') := by
  obtain ⟨c, -, hexec⟩ := Prog.run_op h
  rcases sql_exec_cases hexec with ⟨err, -, rfl, rfl⟩ | ⟨-, hstmt⟩
  · exact .inl ⟨err, rfl, rfl⟩
  · exact .inr ⟨c.now, hstmt⟩

def generateFromPassword (password : String) : M (Except String String) :=
  Prog.op (Op.hashPassword password)

def countUsers : M (Except Error Nat) := do
  match ← stmt .countUsers with
  | .error err => return .error (.other ("count users: " ++ err))
  | .ok count => return .ok count

/-- A statement that is refused is taken for a second user of the name if the text of its error
says unique. -/
def createUser (username password role : String) : M (Except Error User) := do
  let some cleanUsername := normalizeUsername username | return .error .invalidUsername
  let some cleanRole := normalizeRole role | return .error .invalidRole
  if !validatePassword password then return .error .invalidPassword
  match ← generateFromPassword password with
  | .error err => return .error (.other ("hash password: " ++ err))
  | .ok hash =>
    match ← stmt (.insertUser cleanUsername hash cleanRole) with
    | .error err =>
      if contains (toLower err) "unique" then return .error .userExists
      else return .error (.other ("insert user: " ++ err))
    | .ok id => return .ok ⟨id, cleanUsername, cleanRole⟩

def seedAdmin (username password : String) : M (Except Error Unit) := do
  match ← countUsers with
  | .error err => return .error err
  | .ok count =>
    if count > 0 then return .ok ()
    else if password = "" then return .ok ()
    else return (← createUser username password "admin").map fun _ => ()

def authenticate (bcrypt : Bcrypt) (username password : String) : M (Except Error User) := do
  let some cleanUsername := normalizeUsername username | return .error .invalidCredentials
  match ← stmt (.selectUserByName cleanUsername) with
  | .error err => return .error (.other ("query user: " ++ err))
  | .ok none => return .error .invalidCredentials
  | .ok (some row) =>
    if bcrypt.compare row.passwordHash password then return .ok row.user
    else return .error .invalidCredentials

def getUserByID (id : Int) : M (Except Error User) := do
  match ← stmt (.selectUserByID id) with
  | .error err => return .error (.other ("get user by id: " ++ err))
  | .ok none => return .error .notFound
  | .ok (some user) => return .ok user

def listUsers : M (Except Error (List User)) := do
  match ← stmt .selectUsers with
  | .error err => return .error (.other ("list users: " ++ err))
  | .ok users => return .ok users

def countAdmins : M (Except Error Nat) := do
  match ← stmt .countAdmins with
  | .error err => return .error (.other ("count admins: " ++ err))
  | .ok count => return .ok count

/-- The check of `UpdateUser` and `DeleteUser`: when an admin is to lose the role, it is not the
last one. -/
def checkLastAdmin (loses : Prop) [Decidable loses] : M (Except Error Unit) := do
  if loses then
    match ← countAdmins with
    | .error err => return .error err
    | .ok adminCount => if adminCount ≤ 1 then return .error .lastAdmin else return .ok ()
  else return .ok ()

/-- The part of `UpdateUser` for a role. -/
def updateRole (current : User) (id : Int) (role : String) : M (Except Error Unit) := do
  let some cleanRole := normalizeRole role | return .error .invalidRole
  match ← checkLastAdmin (current.role = .admin ∧ cleanRole ≠ .admin) with
  | .error err => return .error err
  | .ok () =>
    match ← stmt (.updateRole cleanRole id) with
    | .error err => return .error (.other ("update user role: " ++ err))
    | .ok () => return .ok ()

/-- The part of `UpdateUser` for a password. -/
def updatePassword (id : Int) (password : String) : M (Except Error Unit) := do
  if !validatePassword password then return .error .invalidPassword
  match ← generateFromPassword password with
  | .error err => return .error (.other ("hash password: " ++ err))
  | .ok hash =>
    match ← stmt (.updatePassword hash id) with
    | .error err => return .error (.other ("update user password: " ++ err))
    | .ok () => return .ok ()

def updateUser (id : Int) (role password : Option String) : M (Except Error User) := do
  match ← getUserByID id with
  | .error err => return .error err
  | .ok current =>
    match ← role.elim (pure (.ok ())) (updateRole current id) with
    | .error err => return .error err
    | .ok () =>
      match ← password.elim (pure (.ok ())) (updatePassword id) with
      | .error err => return .error err
      | .ok () => getUserByID id

def deleteUser (id : Int) : M (Except Error Unit) := do
  match ← getUserByID id with
  | .error err => return .error err
  | .ok target =>
    match ← checkLastAdmin (target.role = .admin) with
    | .error err => return .error err
    | .ok () =>
      match ← stmt (.deleteUser id) with
      | .error err => return .error (.other ("delete user: " ++ err))
      | .ok affected => if affected = 0 then return .error .notFound else return .ok ()

def getSession (token : String) : M (Except Error (Option Session)) := do
  match ← stmt (.selectSession token) with
  | .error err => return .error (.other ("get session: " ++ err))
  | .ok session => return .ok session

def deleteSession (token : String) : M (Except Error Unit) := do
  match ← stmt (.deleteSession token) with
  | .error err => return .error (.other ("delete session: " ++ err))
  | .ok () => return .ok ()

def deleteSessionsByUserID (userID : Int) : M (Except Error Unit) := do
  match ← stmt (.deleteSessionsByUserID userID) with
  | .error err => return .error (.other ("delete sessions by user: " ++ err))
  | .ok () => return .ok ()

def deleteExpiredSessions (now : Int) : M (Except Error Unit) := do
  match ← stmt (.deleteExpiredSessions now) with
  | .error err => return .error (.other ("delete expired sessions: " ++ err))
  | .ok () => return .ok ()

def logUserAudit (actorUserID : Int) (actorUsername action : String) (targetUserID : Int)
    (targetUsername details : String) : M (Except Error Unit) := do
  if trim action = "" then return .error (.other "log user audit: empty action")
  match ← stmt (.insertAudit actorUserID actorUsername action targetUserID targetUsername
    details) with
  | .error err => return .error (.other ("log user audit: " ++ err))
  | .ok () => return .ok ()

def listUserAudits (limit : Int) : M (Except Error (List UserAuditEntry)) := do
  let limit := if limit ≤ 0 then 100 else limit
  let limit := if limit > 500 then 500 else limit
  match ← stmt (.selectAudits limit.toNat) with
  | .error err => return .error (.other ("list user audits: " ++ err))
  | .ok entries => return .ok entries

end QuickVps.Auth
