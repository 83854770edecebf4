import QuickVps.Auth.Session

/-!
# What the authentication code calls

Classes of operations, and the functions of the user store and the session manager that stay within
them, whatever the answers.

* `Op.Reads` — statements that select from the users and the audits;
* `Op.OnAccounts` — any statements on these tables, `Op.Audits` — the new audits among them;
* `Op.OnSession` — the operations on one session, and the removal of the expired ones.
-/

namespace QuickVps.Auth

/-- The calls of a program so far, the newest first. -/
abbrev Past := List (Prog.Call Op Op.Ans)

/-! ## Classes -/

def Stmt.onSessions : Stmt → Bool
  | selectSession _ => true
  | deleteSession _ => true
  | deleteSessionsByUserID _ => true
  | deleteExpiredSessions _ => true
  | _ => false

def Stmt.selects : Stmt → Bool
  | countUsers => true
  | selectUserByName _ => true
  | selectUserByID _ => true
  | selectUsers => true
  | countAdmins => true
  | selectSession _ => true
  | selectAudits _ => true
  | _ => false

def Op.Reads : Op → Prop
  | .sql stmt => stmt.onSessions = false ∧ stmt.selects = true
  | .hashPassword _ => True
  | _ => False

def Op.OnAccounts : Op → Prop
  | .sql stmt => stmt.onSessions = false
  | .hashPassword _ => True
  | _ => False

def Op.Audits : Op → Prop
  | .sql (.insertAudit ..) => True
  | _ => False

def Op.OnSession : Op → Prop
  | .sql (.deleteSessionsByUserID _) => False
  | .sql stmt => stmt.onSessions = true
  | .hashPassword _ => False
  | .removeByUserID _ => False
  | _ => True

/-- The cache write of `Get`. -/
def Op.puts : Op → Bool
  | .put _ _ => true
  | _ => false

/-- A call that changes neither the users nor the audits. -/
def Op.Harmless (op : Op) : Prop := op.Reads ∨ op.OnSession

/-- A call that changes neither the users nor the audits, whatever it does to the sessions. -/
def Op.KeepsAccounts : Op → Prop
  | .sql stmt => stmt.onSessions = true ∨ stmt.selects = true
  | _ => True

theorem Op.Reads.onAccounts {op : Op} (h : op.Reads) : op.OnAccounts := by
  cases op with
  | sql stmt => exact h.1
  | hashPassword _ => trivial
  | _ => exact h.elim

theorem Op.Reads.exec_eq {bcrypt : Bcrypt} {c : Choice} {op : Op} {w w' : World} {r : op.Ans}
    (hop : op.Reads) (h : exec bcrypt c op w = some (r, w')) : w' = w := by
  cases op with
  | sql stmt =>
    rcases sql_exec_cases h with ⟨err, -, -, rfl⟩ | ⟨-, hstmt⟩
    · rfl
    · cases stmt with
      | countUsers | selectUserByName _ | selectUserByID _ | selectUsers | countAdmins
      | selectAudits _ =>
        cases hstmt
        rfl
      | selectSession _ => cases hop.1
      | _ => cases hop.2
  | hashPassword password =>
    cases h
    rfl
  | _ => exact hop.elim

/-- A run of such calls changes nothing. -/
theorem eq_of_reads {α : Type} {bcrypt : Bcrypt} {p : M α} (hp : p.Only Op.Reads)
    {cs cs' : List Choice} {w w' : World} {a : α}
    (h : p.run (exec bcrypt) cs w = some (a, cs', w')) : w' = w :=
  hp.run_keeps (I := fun t => t = w)
    (fun _ _ _ _ _ hop hexec hw => (hop.exec_eq hexec).trans hw) h rfl

/-- The state after a harmless call differs in the sessions at most. -/
theorem Op.Harmless.exec_eq {bcrypt : Bcrypt} {c : Choice} {op : Op} {w w' : World} {r : op.Ans}
    (hop : op.Harmless) (h : exec bcrypt c op w = some (r, w')) :
    ∃ sessions memory, w' = { w with sessions := sessions, memory := memory } := by
  cases op with
  | sql stmt =>
    rcases sql_exec_cases h with ⟨err, -, -, rfl⟩ | ⟨-, hstmt⟩
    · exact ⟨_, _, rfl⟩
    · cases stmt with
      | insertUser _ _ _ | updateRole _ _ | updatePassword _ _ | deleteUser _
      | insertAudit _ _ _ _ _ _ =>
        rcases hop with ⟨-, hselects⟩ | hsession
        · cases hselects
        · cases hsession
      | _ =>
        cases hstmt
        exact ⟨_, _, rfl⟩
  | randomToken =>
    cases randomToken_exec h
    exact ⟨_, _, rfl⟩
  | create persistent s =>
    rcases create_exec_cases h with rfl | ⟨-, sessions, -, rfl⟩
    · exact ⟨_, _, rfl⟩
    · exact ⟨_, _, rfl⟩
  | _ =>
    cases h
    exact ⟨_, _, rfl⟩

theorem Op.Harmless.keepsAccounts {op : Op} (hop : op.Harmless) : op.KeepsAccounts := by
  cases op with
  | sql stmt =>
    rcases hop with ⟨-, hselects⟩ | hsession
    · exact .inr hselects
    · refine .inl ?_
      cases stmt with
      | deleteSessionsByUserID _ => rfl
      | _ => exact hsession
  | _ => trivial

theorem Op.KeepsAccounts.exec_eq {bcrypt : Bcrypt} {c : Choice} {op : Op} {w w' : World}
    {r : op.Ans} (hop : op.KeepsAccounts) (h : exec bcrypt c op w = some (r, w')) :
    w'.users = w.users ∧ w'.audits = w.audits := by
  by_cases hharmless : op.Harmless
  · obtain ⟨sessions, memory, rfl⟩ := hharmless.exec_eq h
    exact ⟨rfl, rfl⟩
  · -- What remains is the removal of the sessions of a user.
    cases op with
    | sql stmt =>
      rcases sql_exec_cases h with ⟨err, -, -, rfl⟩ | ⟨-, hstmt⟩
      · exact ⟨rfl, rfl⟩
      · cases stmt with
        | insertUser _ _ _ | updateRole _ _ | updatePassword _ _ | deleteUser _
        | insertAudit _ _ _ _ _ _ => rcases hop with hop | hop <;> cases hop
        | _ =>
          cases hstmt
          exact ⟨rfl, rfl⟩
    | removeByUserID userID =>
      cases h
      exact ⟨rfl, rfl⟩
    | hashPassword password => exact absurd (.inl trivial) hharmless
    | _ => exact absurd (.inr trivial) hharmless

/-! ## The functions of `Store` -/

theorem reads_stmt {stmt' : Stmt} (h : stmt'.onSessions = false ∧ stmt'.selects = true) :
    (stmt stmt').Only Op.Reads := Prog.only_op h

theorem onAccounts_stmt {stmt' : Stmt} (h : stmt'.onSessions = false) :
    (stmt stmt').Only Op.OnAccounts := Prog.only_op h

theorem onSession_stmt {stmt' : Stmt} (h : Op.OnSession (.sql stmt')) :
    (stmt stmt').Only Op.OnSession := Prog.only_op h

theorem only_authenticate (bcrypt : Bcrypt) (username password : String) :
    (authenticate bcrypt username password).Only Op.Reads := by
  unfold authenticate
  cases normalizeUsername username with
  | none => exact Prog.only_ret _
  | some cleanUsername =>
    refine (reads_stmt ⟨rfl, rfl⟩).bind fun answer => ?_
    match answer with
    | .error err => exact Prog.only_ret _
    | .ok none => exact Prog.only_ret _
    | .ok (some row) =>
      simp only
      split_ifs <;> exact Prog.only_ret _

theorem only_getUserByID (id : Int) : (getUserByID id).Only Op.Reads := by
  refine (reads_stmt ⟨rfl, rfl⟩).bind fun answer => ?_
  match answer with
  | .error err => exact Prog.only_ret _
  | .ok none => exact Prog.only_ret _
  | .ok (some user) => exact Prog.only_ret _

theorem only_countAdmins : countAdmins.Only Op.Reads := by
  refine (reads_stmt ⟨rfl, rfl⟩).bind fun answer => ?_
  cases answer <;> exact Prog.only_ret _

theorem only_checkLastAdmin (loses : Prop) [Decidable loses] :
    (checkLastAdmin loses).Only Op.Reads := by
  unfold checkLastAdmin
  split_ifs
  · refine only_countAdmins.bind fun counted => ?_
    cases counted with
    | error err => exact Prog.only_ret _
    | ok count =>
      simp only
      split_ifs <;> exact Prog.only_ret _
  · exact Prog.only_ret _

theorem only_updateRole (current : User) (id : Int) (role : String) :
    (updateRole current id role).Only Op.OnAccounts := by
  unfold updateRole
  cases normalizeRole role with
  | none => exact Prog.only_ret _
  | some cleanRole =>
    refine ((only_checkLastAdmin _).mono fun _ => Op.Reads.onAccounts).bind fun checked => ?_
    cases checked with
    | error err => exact Prog.only_ret _
    | ok =>
      refine (onAccounts_stmt rfl).bind fun answer => ?_
      cases answer <;> exact Prog.only_ret _

theorem only_updatePassword (id : Int) (password : String) :
    (updatePassword id password).Only Op.OnAccounts := by
  unfold updatePassword
  split_ifs
  · exact Prog.only_ret _
  · refine (Prog.only_op trivial).bind fun hash => ?_
    cases hash with
    | error err => exact Prog.only_ret _
    | ok hash =>
      refine (onAccounts_stmt rfl).bind fun answer => ?_
      cases answer <;> exact Prog.only_ret _

theorem only_updateUser (id : Int) (role password : Option String) :
    (updateUser id role password).Only Op.OnAccounts := by
  have hget : (getUserByID id).Only Op.OnAccounts :=
    (only_getUserByID id).mono fun _ => Op.Reads.onAccounts
  have hrole (current : User) : (role.elim (pure (.ok ())) (updateRole current id)).Only
      Op.OnAccounts := by
    cases role with
    | none => exact Prog.only_ret _
    | some role =>
      rw [Option.elim_some]
      exact only_updateRole current id role
  have hpassword : (password.elim (pure (.ok ())) (updatePassword id)).Only Op.OnAccounts := by
    cases password with
    | none => exact Prog.only_ret _
    | some password =>
      rw [Option.elim_some]
      exact only_updatePassword id password
  unfold updateUser
  refine hget.bind fun found => ?_
  cases found with
  | error err => exact Prog.only_ret _
  | ok current =>
    simp only
    refine (hrole current).bind fun changed => ?_
    cases changed with
    | error err => exact Prog.only_ret _
    | ok =>
      simp only
      refine hpassword.bind fun changed => ?_
      cases changed with
      | error err => exact Prog.only_ret _
      | ok => exact hget

theorem only_deleteUser (id : Int) : (deleteUser id).Only Op.OnAccounts := by
  refine ((only_getUserByID id).mono fun _ => Op.Reads.onAccounts).bind fun found => ?_
  cases found with
  | error err => exact Prog.only_ret _
  | ok target =>
    refine ((only_checkLastAdmin _).mono fun _ => Op.Reads.onAccounts).bind fun checked => ?_
    cases checked with
    | error err => exact Prog.only_ret _
    | ok =>
      refine (onAccounts_stmt rfl).bind fun answer => ?_
      cases answer with
      | error err => exact Prog.only_ret _
      | ok affected =>
        simp only
        split_ifs <;> exact Prog.only_ret _

theorem only_listUsers : listUsers.Only Op.Reads := by
  refine (reads_stmt ⟨rfl, rfl⟩).bind fun answer => ?_
  cases answer <;> exact Prog.only_ret _

theorem only_listUserAudits (limit : Int) : (listUserAudits limit).Only Op.Reads := by
  refine (reads_stmt ⟨rfl, rfl⟩).bind fun answer => ?_
  cases answer <;> exact Prog.only_ret _

theorem only_logUserAudit (actorUserID : Int) (actorUsername action : String)
    (targetUserID : Int) (targetUsername details : String) :
    (logUserAudit actorUserID actorUsername action targetUserID targetUsername details).Only
      Op.Audits := by
  unfold logUserAudit
  split_ifs
  · exact Prog.only_ret _
  · have hstmt : (stmt (.insertAudit actorUserID actorUsername action targetUserID targetUsername
        details)).Only Op.Audits := Prog.only_op trivial
    refine hstmt.bind fun answer => ?_
    cases answer <;> exact Prog.only_ret _

/-! ## The session manager -/

namespace SessionManager

variable (m : SessionManager)

theorem only_create (user : User) : (m.create user).Only Op.OnSession := by
  refine (Prog.only_op trivial).bind fun random => ?_
  cases random with
  | error err => exact Prog.only_ret _
  | ok token =>
    refine (Prog.only_op trivial).bind fun now => ?_
    refine (Prog.only_op trivial).bind fun saved => ?_
    cases saved <;> exact Prog.only_ret _

theorem puts_create (user : User) : (m.create user).Only fun e => e.puts = false := by
  refine Prog.only_call.2 ⟨rfl, fun random => ?_⟩
  cases random with
  | error err => exact Prog.only_ret _
  | ok token =>
    refine Prog.only_call.2 ⟨rfl, fun now => Prog.only_call.2 ⟨rfl, fun saved => ?_⟩⟩
    cases saved <;> exact Prog.only_ret _

theorem only_delete (token : String) : (m.delete token).Only Op.OnSession := by
  refine (Prog.only_op trivial).bind fun _ => ?_
  split_ifs
  · have hdelete : (deleteSession token).Only Op.OnSession := by
      refine Prog.Only.bind (onSession_stmt rfl) fun answer => ?_
      cases answer <;> exact Prog.only_ret _
    exact hdelete.bind fun _ => Prog.only_ret _
  · exact Prog.only_ret _

theorem only_load (token : String) (now : Int) : (m.load token now).Only Op.OnSession := by
  unfold load
  split_ifs
  · exact Prog.only_ret _
  · refine Prog.Only.bind (Prog.Only.bind (onSession_stmt rfl) fun answer => ?_) fun swept => ?_
    · cases answer <;> exact Prog.only_ret _
    · cases swept with
      | error err => exact Prog.only_ret _
      | ok =>
        refine Prog.Only.bind (Prog.Only.bind (onSession_stmt rfl) fun answer => ?_) fun read => ?_
        · cases answer <;> exact Prog.only_ret _
        · match read with
          | .error err => exact Prog.only_ret _
          | .ok none => exact Prog.only_ret _
          | .ok (some persisted) =>
            simp only
            split_ifs
            · exact (m.only_delete token).bind fun _ => Prog.only_ret _
            · exact (Prog.only_op trivial).bind fun _ => Prog.only_ret _

theorem only_deleteByUserID (userID : Int) : (m.deleteByUserID userID).Only Op.KeepsAccounts := by
  refine (Prog.only_op trivial).bind fun _ => ?_
  split_ifs
  · have hstmt : (stmt (.deleteSessionsByUserID userID)).Only Op.KeepsAccounts :=
      Prog.only_op (.inl rfl)
    have hdelete : (deleteSessionsByUserID userID).Only Op.KeepsAccounts := by
      refine hstmt.bind fun answer => ?_
      cases answer <;> exact Prog.only_ret _
    exact hdelete.bind fun _ => Prog.only_ret _
  · exact Prog.only_ret _

theorem only_get (token : String) : (m.get token).Only Op.OnSession := by
  refine (Prog.only_op trivial).bind fun now => ?_
  refine (Prog.only_op trivial).bind fun found => ?_
  cases found with
  | none => exact m.only_load token now
  | some session =>
    simp only
    split_ifs
    · exact (m.only_delete token).bind fun _ => Prog.only_ret _
    · exact Prog.only_ret _

end SessionManager

end QuickVps.Auth
