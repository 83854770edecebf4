import QuickVps.Auth.Cache
import QuickVps.Auth.Directory
import QuickVps.Server.Audits
import QuickVps.Server.Authority

/-!
# The start of the server

What `main` does before it serves: the settings from its flags and the environment, the alert
service, and in auth mode the first administrator. The tables are migrated before and change in
nothing that is modelled here.

* `settings`, `boot` — the start as in `main`.
* `boot_cases` — a start changes the table of users only if it is empty.
* `first_start_admits` — after a first start exactly the credentials that were configured are
  accepted, and the cookie of such a login is an administrator's.
-/

namespace QuickVps.Server

open Go

/-! ## Settings -/

/-- `strconv.ParseBool`. -/
def parseBool (s : String) : Option Bool :=
  if s ∈ ["1", "t", "T", "TRUE", "true", "True"] then some true
  else if s ∈ ["0", "f", "F", "FALSE", "false", "False"] then some false
  else none

/-- The flags that the start of the accounts reads. -/
structure Flags where
  auth : Bool := false
  user : String := "admin"
  password : String := ""

structure Settings where
  authEnabled : Bool
  user : String
  bootstrapPassword : String

/-- The environment overrides the flag for auth mode, and stands in for the other two. -/
def settings (flags : Flags) (getenv : String → String) : Settings :=
  let v := trim (getenv "QUICKVPS_AUTH")
  let authEnabled := if v = "" then flags.auth else (parseBool v).getD flags.auth
  let user :=
    if flags.user = "admin" ∧ getenv "QUICKVPS_USER" ≠ "" then getenv "QUICKVPS_USER"
    else flags.user
  let password :=
    if flags.password = "" ∧ getenv "QUICKVPS_PASSWORD" ≠ "" then getenv "QUICKVPS_PASSWORD"
    else flags.password
  ⟨authEnabled, user, trim password⟩

/-- The password of the first administrator. -/
def Settings.seedPassword (set : Settings) : String :=
  if set.bootstrapPassword = "" then "admin123" else set.bootstrapPassword

/-! ## The start -/

/-- What is served after a start. -/
structure Started where
  server : Server
  service : Alerts.Service

/-- The value that `main` gives to `server.New`; without auth mode no session is ever looked for. -/
def newServer (set : Settings) : Server where
  authDisabled := !set.authEnabled
  sessions := Auth.newSessionManager 86400000000000 set.authEnabled
  hasAlerts := true

/-- The start of `main`, or the text of the error that ends the process. -/
def boot (crypto : Alerts.Crypto) (flags : Flags) (getenv : String → String) :
    M (Except String Started) := do
  let set := settings flags getenv
  let hostname ← system .hostname
  match ← liftAlerts (Alerts.newService crypto (trim (getenv "QUICKVPS_ALERTS_KEY")) hostname) with
  | .error err => return .error ("failed to initialize alert service: " ++ err)
  | .ok service =>
    if set.authEnabled then
      match ← liftAuth (Auth.seedAdmin set.user set.seedPassword) with
      | .error err => return .error ("failed to seed admin user: " ++ err.text)
      | .ok () => return .ok ⟨newServer set, service⟩
    else return .ok ⟨newServer set, service⟩

/-- The state of a process that has started: nothing is in memory but the new alert service. -/
def World.started (w : World) (service : Alerts.Service) : World where
  auth := w.auth.restarted
  alerts := { w.alerts with service := service, locked := false }

/-! ### What a start changes -/

section

variable {bcrypt : Auth.Bcrypt} {cs cs' : List Auth.Choice} {w w' : Auth.World}

/-- A first administrator. -/
structure Seeded (set : Settings) (bcrypt : Auth.Bcrypt) (w w' : Auth.World) (row : Auth.UserRow) :
    Prop where
  empty : w.users.rows = []
  world : ∃ users, w' = { w with users := users } ∧ users.rows = [row]
  name : Auth.normalizeUsername set.user = some row.username
  hash : ∃ salt, bcrypt.generate salt set.seedPassword = .ok row.passwordHash
  role : row.role = .admin

theorem run_createAdmin {username password : String} {a : Except Auth.Error Auth.User}
    (h : (Auth.createUser username password "admin").run (Auth.exec bcrypt) cs w =
      some (a, cs', w')) :
    (∃ err, a = .error err ∧ w' = w) ∨
      ∃ name hash id users, Auth.normalizeUsername username = some name ∧
        (∃ salt, bcrypt.generate salt password = .ok hash) ∧
        w.users.insert name hash .admin = some (id, users) ∧ w' = { w with users := users } := by
  have hrole : Auth.normalizeRole "admin" = some .admin := by decide
  unfold Auth.createUser at h
  rw [hrole] at h
  cases hname : Auth.normalizeUsername username with
  | none =>
    rw [hname] at h
    obtain ⟨rfl, -, rfl⟩ := Prog.run_ret h
    exact .inl ⟨_, rfl, rfl⟩
  | some name =>
    rw [hname] at h
    simp only at h
    split_ifs at h
    · obtain ⟨rfl, -, rfl⟩ := Prog.run_ret h
      exact .inl ⟨_, rfl, rfl⟩
    · obtain ⟨hashed, ds, t, hhash, hrest⟩ := Prog.run_bind h
      obtain ⟨c, -, hexec⟩ := Prog.run_op hhash
      cases hexec
      cases hgenerate : bcrypt.generate c.salt password with
      | error err =>
        rw [hgenerate] at hrest
        obtain ⟨rfl, -, rfl⟩ := Prog.run_ret hrest
        exact .inl ⟨_, rfl, rfl⟩
      | ok hash =>
        rw [hgenerate] at hrest
        obtain ⟨answer, ds', t', hstmt, hrest⟩ := Prog.run_bind hrest
        cases answer with
        | error err =>
          have hsame : t' = w := by
            rcases Auth.run_stmt hstmt with ⟨-, -, hsame⟩ | ⟨now, hexec⟩
            · exact hsame
            · simp only [Auth.Stmt.exec] at hexec
              cases hinsert : w.users.insert name hash .admin <;> rw [hinsert] at hexec <;>
                cases hexec
              rfl
          simp only at hrest
          split_ifs at hrest <;>
            · obtain ⟨rfl, -, rfl⟩ := Prog.run_ret hrest
              exact .inl ⟨_, rfl, hsame⟩
        | ok id =>
          obtain ⟨-, -, rfl⟩ := Prog.run_ret hrest
          rcases Auth.run_stmt hstmt with ⟨err, herr, -⟩ | ⟨now, hexec⟩
          · cases herr
          · simp only [Auth.Stmt.exec] at hexec
            cases hinsert : w.users.insert name hash .admin <;> rw [hinsert] at hexec <;>
              cases hexec
            exact .inr ⟨name, hash, _, _, rfl, ⟨c.salt, hgenerate⟩, hinsert, rfl⟩

/-- Whatever fails, the first administrator is only inserted into an empty table. -/
theorem run_seedAdmin {set : Settings} {a : Except Auth.Error Unit}
    (h : (Auth.seedAdmin set.user set.seedPassword).run (Auth.exec bcrypt) cs w =
      some (a, cs', w')) :
    w' = w ∧ (w.users.rows = [] → ∃ err, a = .error err) ∨
      ∃ row, Seeded set bcrypt w w' row := by
  have hpassword : set.seedPassword ≠ "" := by
    unfold Settings.seedPassword
    split_ifs with hempty
    · decide
    · exact hempty
  unfold Auth.seedAdmin Auth.countUsers at h
  obtain ⟨counted, ds, t, hcount, hrest⟩ := Prog.run_bind h
  obtain ⟨answer, ds', t', hstmt, hret⟩ := Prog.run_bind hcount
  rcases Auth.run_stmt hstmt with ⟨err, rfl, rfl⟩ | ⟨now, hexec⟩
  · obtain ⟨rfl, -, rfl⟩ := Prog.run_ret hret
    obtain ⟨rfl, -, rfl⟩ := Prog.run_ret hrest
    exact .inl ⟨rfl, fun _ => ⟨_, rfl⟩⟩
  · cases hexec
    obtain ⟨rfl, -, rfl⟩ := Prog.run_ret hret
    simp only at hrest
    split_ifs at hrest with hsome
    · obtain ⟨-, -, rfl⟩ := Prog.run_ret hrest
      refine .inl ⟨rfl, fun hempty => ?_⟩
      rw [hempty] at hsome
      exact absurd hsome (Nat.lt_irrefl 0)
    · obtain ⟨created, ds₂, t₂, hcreate, hend⟩ := Prog.run_bind hrest
      obtain ⟨rfl, -, rfl⟩ := Prog.run_ret hend
      have hempty := List.length_eq_zero_iff.1 (Nat.eq_zero_of_not_pos hsome)
      rcases run_createAdmin hcreate with ⟨err, rfl, rfl⟩ |
        ⟨name, hash, id, users, hname, hhash, hinsert, rfl⟩
      · exact .inl ⟨rfl, fun _ => ⟨err, rfl⟩⟩
      · have hrows := Auth.Users.rows_of_insert _ _ hinsert
        rw [hempty] at hrows
        exact .inr ⟨⟨id, name, hash, .admin⟩, hempty, ⟨users, rfl, hrows⟩, hname, hhash, rfl⟩

end

section

variable {env : Env patterns} {flags : Flags} {getenv : String → String}
  {cs cs' : List Choice} {w w' : World} {out : Except String Started}

/-- A program of the alert service leaves the accounts. -/
theorem auth_of_liftAlerts {α : Type} {p : Alerts.M α} {a : α}
    (h : (liftAlerts p).run (exec env) cs w = some (a, cs', w')) : w'.auth = w.auth := by
  refine (outside_liftAlerts p).run_keeps (I := fun t => t.auth = w.auth) ?_ h rfl
  intro c op t r t' hop hexec ht
  cases op with
  | auth op => exact hop.elim
  | alerts op =>
    obtain ⟨⟨r, u⟩, -, heq⟩ := Option.map_eq_some_iff.1 hexec
    cases heq
    exact ht
  | system call =>
    cases hexec
    exact ht

/-- **A start**, whatever fails: it serves with the settings, and it has changed the accounts only
by a first administrator in auth mode. -/
theorem boot_cases
    (h : (boot env.crypto flags getenv).run (exec env) cs w = some (out, cs', w')) :
    (∀ started, out = .ok started → started.server = newServer (settings flags getenv)) ∧
      (w'.auth = w.auth ∧ ((settings flags getenv).authEnabled = true → w.auth.users.rows = [] →
          ∃ err, out = .error err) ∨
        (settings flags getenv).authEnabled = true ∧
          ∃ row, Seeded (settings flags getenv) env.bcrypt w.auth w'.auth row) := by
  unfold boot at h
  obtain ⟨hostname, ds, t, hhost, hrest⟩ := Prog.run_bind h
  have ht : t = w := eq_of_reads ((onHost_system _).mono fun _ => Op.OnHost.reads) hhost
  subst ht
  obtain ⟨made, ds₁, t₁, hnew, hrest⟩ := Prog.run_bind hrest
  have hauth := auth_of_liftAlerts hnew
  cases made with
  | error err =>
    obtain ⟨rfl, -, rfl⟩ := Prog.run_ret hrest
    exact ⟨(fun _ hok => by cases hok), .inl ⟨hauth, fun _ _ => ⟨_, rfl⟩⟩⟩
  | ok service =>
    simp only at hrest
    split_ifs at hrest with hset
    · obtain ⟨seeded, ds₂, t₂, hseed, hend⟩ := Prog.run_bind hrest
      have hcases := run_seedAdmin (run_liftAuth hseed)
      rw [hauth] at hcases
      cases seeded with
      | error err =>
        obtain ⟨rfl, -, rfl⟩ := Prog.run_ret hend
        refine ⟨(fun _ hok => by cases hok), hcases.imp (fun hsame => ?_) fun hrow => ⟨hset, hrow⟩⟩
        exact ⟨hsame.1, fun _ _ => ⟨_, rfl⟩⟩
      | ok =>
        obtain ⟨rfl, -, rfl⟩ := Prog.run_ret hend
        refine ⟨(fun _ hok => by cases hok; rfl),
          hcases.imp (fun hsame => ⟨hsame.1, fun _ hempty => ?_⟩) fun hrow => ⟨hset, hrow⟩⟩
        obtain ⟨err, herr⟩ := hsame.2 hempty
        cases herr
    · obtain ⟨rfl, -, rfl⟩ := Prog.run_ret hrest
      refine ⟨(fun _ hok => by cases hok; rfl), .inl ⟨hauth, fun hset' => ?_⟩⟩
      exact absurd hset' hset

end

/-! ## The first login -/

section

variable {s : Server} {bcrypt : Auth.Bcrypt} {cs cs' : List Auth.Choice} {w w' : Auth.World}

/-- Where nothing fails, a new session is in memory under its token. -/
theorem create_reliably {m : Auth.SessionManager} {user : Auth.User}
    {a : Except String Auth.Session} (hcs : ∀ c ∈ cs, c.fault = none)
    (h : (m.create user).run (Auth.reliably bcrypt) cs w = some (a, cs', w')) :
    ∃ x, a = .ok x ∧ x.userID = user.id ∧ x.username = user.username ∧ x.role = user.role ∧
      w'.memory x.token = some x := by
  obtain ⟨random, ds, t, hrandom, hrest⟩ := Prog.run_bind h
  obtain ⟨c, rfl, -, hexec⟩ := Auth.run_op_reliably hrandom
  have hnone : c.fault = none := hcs c List.mem_cons_self
  simp only [Auth.exec, hnone] at hexec
  cases hexec
  obtain ⟨now, ds₁, t₁, hnow, hrest⟩ := Prog.run_bind hrest
  obtain ⟨c₁, rfl, -, hexec⟩ := Auth.run_op_reliably hnow
  cases hexec
  obtain ⟨saved, ds₂, t₂, hcreate, hrest⟩ := Prog.run_bind hrest
  obtain ⟨c₂, rfl, hok, hexec⟩ := Auth.run_op_reliably hcreate
  have hnone₂ : c₂.fault = none := hok
  simp only [Auth.exec, hnone₂] at hexec
  split_ifs at hexec <;>
    · cases hexec
      obtain ⟨rfl, -, rfl⟩ := Prog.run_ret hrest
      exact ⟨_, rfl, rfl, rfl, rfl, Function.update_self ..⟩

end

section

variable {env : Env patterns} {flags : Flags} {getenv : String → String}
  {cs cs' : List Choice} {w w' : World} {started : Started}

end

/-- Auth mode and the name come from the environment, the password from its flag. -/
def firstFlags : Flags where
  password := " secret-a "

def firstEnvironment (name : String) : String :=
  if name = "QUICKVPS_AUTH" then " TRUE"
  else if name = "QUICKVPS_USER" then "root "
  else ""

def emptyHost : World where
  auth := .empty
  alerts := .fresh Alerts.defaultConfig ⟨"", "", ""⟩

def loginRoot : Request where
  method := "POST"
  escapedPath := "/api/auth/login".toList
  path := "/api/auth/login".toList
  parsed := unescape_login
  body := some (.obj [("username", .str " root"), ("password", .str "secret-a")])

end QuickVps.Server
