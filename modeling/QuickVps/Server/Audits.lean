import QuickVps.Auth.Changes
import QuickVps.Lib.Lts
import QuickVps.Server.Access

/-!
# Audits of the changes to users

Requests handled one after another, on a store whose statements succeed. A request that changes the
table of users writes an audit of it, but for one kind: an update whose role is written before its
password is refused.

* `Logged` — what is asked of a call of an administrator: every row that changes has an audit.
* `logged_postUser`, `logged_removeUser`, `logged_putUser_iff` — the three handlers that write
  users.
* `audits_iff` — which requests keep this, over runs of requests.
-/

namespace QuickVps.Server

open Go

/-! ## What is asked -/

/-- Every row of a user that is not the same has a new audit, which names the actor and the user. -/
def Logged (actor : Auth.User) (w w' : Auth.World) : Prop :=
  ∀ id, w'.users.find id ≠ w.users.find id →
    ∃ e ∈ w'.audits.drop w.audits.length,
      e.actorUserID = actor.id ∧ e.actorUsername = actor.username ∧ e.targetUserID = id ∧
        ∃ row, (w.users.find id = some row ∨ w'.users.find id = some row) ∧
          e.targetUsername = row.username

theorem logged_of_same {actor : Auth.User} {w w' : Auth.World}
    (h : ∀ id, w'.users.find id = w.users.find id) : Logged actor w w' :=
  fun id hid => absurd (h id) hid

/-- One audit is enough for a change of one row. -/
theorem logged_of_audit {actor : Auth.User} {w w' : Auth.World} {target : Int}
    (hothers : ∀ id, id ≠ target → w'.users.find id = w.users.find id)
    {e : Auth.UserAuditEntry} (haudits : w'.audits = w.audits ++ [e])
    (hactor : e.actorUserID = actor.id ∧ e.actorUsername = actor.username)
    (htarget : e.targetUserID = target) {row : Auth.UserRow}
    (hrow : w.users.find target = some row ∨ w'.users.find target = some row)
    (hname : e.targetUsername = row.username) : Logged actor w w' := by
  intro id hid
  by_cases hsame : id = target
  · subst hsame
    refine ⟨e, ?_, hactor.1, hactor.2, htarget, row, hrow, hname⟩
    rw [haudits, List.drop_left]
    exact List.mem_singleton_self e
  · exact absurd (hothers id hsame) hid

/-! ## The handlers that write users -/

section

variable {s : Server} {bcrypt : Auth.Bcrypt} {admin : Auth.User} {userID : Int} {r : Request}
  {cs cs' : List Auth.Choice} {w w' : Auth.World} {resp : Response}

/-- The accounts are the same after a run of calls that keep them. -/
theorem same_accounts {α : Type} {p : Auth.M α} {a : α} (hp : p.Only Auth.Op.KeepsAccounts)
    (h : p.run (Auth.reliably bcrypt) cs w = some (a, cs', w')) :
    w'.users = w.users ∧ w'.audits = w.audits := by
  refine hp.run_keeps (I := fun t => t.users = w.users ∧ t.audits = w.audits) ?_
    (Prog.run_within h) ⟨rfl, rfl⟩
  intro c op t answer t' hop hexec ht
  obtain ⟨husers, haudits⟩ := hop.exec_eq hexec
  exact ⟨husers.trans ht.1, haudits.trans ht.2⟩

theorem logged_postUser
    (h : (postUser admin r).run (Auth.reliably bcrypt) cs w = some (resp, cs', w')) :
    Logged admin w w' := by
  unfold postUser at h
  cases hbody : r.decode CreateUserBody.field {} with
  | none =>
    rw [hbody] at h
    obtain ⟨-, -, rfl⟩ := Prog.run_ret h
    exact logged_of_same fun _ => rfl
  | some body =>
    rw [hbody] at h
    obtain ⟨created, ds, t, hcreate, hrest⟩ := Prog.run_bind h
    rcases Auth.createUser_reliably hcreate with ⟨err, rfl, rfl⟩ |
      ⟨user, hash, users, rfl, -, -, hinsert, rfl⟩
    · obtain ⟨-, -, rfl⟩ := Prog.run_ret hrest
      exact logged_of_same fun _ => rfl
    · obtain ⟨_, es, u, hlog, hend⟩ := Prog.run_bind hrest
      obtain ⟨-, -, rfl⟩ := Prog.run_ret hend
      obtain ⟨e, rfl, hactor, htarget, hname⟩ := Auth.logUserAudit_reliably (by decide) hlog
      obtain ⟨hnew, hothers⟩ := Auth.Users.find_of_insert hinsert
      exact logged_of_audit hothers rfl hactor htarget (.inr hnew) hname

theorem logged_removeUser
    (h : (s.removeUser admin userID).run (Auth.reliably bcrypt) cs w = some (resp, cs', w')) :
    Logged admin w w' := by
  unfold removeUser at h
  split_ifs at h
  · obtain ⟨-, -, rfl⟩ := Prog.run_ret h
    exact logged_of_same fun _ => rfl
  · obtain ⟨found, ds, t, hget, hrest⟩ := Prog.run_bind h
    obtain ⟨rfl, rfl⟩ := Auth.getUserByID_reliably hget
    cases hrow : t.users.find userID with
    | none =>
      rw [hrow] at hrest
      obtain ⟨-, -, rfl⟩ := Prog.run_ret hrest
      exact logged_of_same fun _ => rfl
    | some row =>
      rw [hrow] at hrest
      obtain ⟨deleted, es, u, hdelete, hnext⟩ := Prog.run_bind hrest
      rcases Auth.deleteUser_reliably hdelete with ⟨err, rfl, rfl⟩ | ⟨rfl, rfl⟩
      · obtain ⟨-, -, rfl⟩ := Prog.run_ret hnext
        exact logged_of_same fun _ => rfl
      · obtain ⟨_, fs, v, hrevoke, hlast⟩ := Prog.run_bind hnext
        obtain ⟨husers, haudits⟩ := same_accounts (s.sessions.only_deleteByUserID userID) hrevoke
        obtain ⟨_, gs, v', hlog, hend⟩ := Prog.run_bind hlast
        obtain ⟨-, -, rfl⟩ := Prog.run_ret hend
        obtain ⟨e, rfl, hactor, htarget, hname⟩ := Auth.logUserAudit_reliably (by decide) hlog
        have hid : e.targetUserID = userID := htarget.trans (Auth.Users.mem_of_find hrow).2
        refine logged_of_audit (fun other hother => ?_) ?_ hactor hid (.inl hrow) hname
        · simp only [husers]
          exact t.users.find_delete_of_ne hother
        · simp only [haudits]

theorem only_revokeIfChanged (body : UpdateUserBody) :
    (s.revokeIfChanged userID body).Only Auth.Op.KeepsAccounts := by
  unfold revokeIfChanged
  split_ifs
  · exact s.sessions.only_deleteByUserID userID
  · exact Prog.only_ret _

/-- **An update is logged unless it stops halfway.** -/
theorem logged_putUser_iff {salt : Nat} (hsalt : ∀ c ∈ cs, c.salt = salt)
    (h : (s.putUser admin userID r).run (Auth.reliably bcrypt) cs w = some (resp, cs', w')) :
    Logged admin w w' ↔
      ¬ ∃ body, r.decode UpdateUserBody.field {} = some body ∧
        Auth.Halfway bcrypt salt w.users userID body.role body.password := by
  unfold putUser at h
  cases hbody : r.decode UpdateUserBody.field {} with
  | none =>
    rw [hbody] at h
    obtain ⟨-, -, rfl⟩ := Prog.run_ret h
    refine iff_of_true (logged_of_same fun _ => rfl) ?_
    rintro ⟨body, hnone, -⟩
    cases hnone
  | some body =>
    rw [hbody] at h
    have hiff : (∃ body', some body = some body' ∧
        Auth.Halfway bcrypt salt w.users userID body'.role body'.password) ↔
          Auth.Halfway bcrypt salt w.users userID body.role body.password := by
      simp
    rw [hiff]
    obtain ⟨updated, ds, t, hupdate, hrest⟩ := Prog.run_bind h
    obtain ⟨hupdates, ⟨⟨row, rfl, hrow⟩, hnot⟩ | ⟨⟨err, rfl⟩, hhalf⟩⟩ :=
      Auth.updateUser_reliably hsalt hupdate
    · obtain ⟨_, es, u, hrevoke, hrest⟩ := Prog.run_bind hrest
      obtain ⟨husers, haudits⟩ := same_accounts (only_revokeIfChanged body) hrevoke
      obtain ⟨_, fs, v, hlog, hend⟩ := Prog.run_bind hrest
      obtain ⟨-, -, rfl⟩ := Prog.run_ret hend
      obtain ⟨e, rfl, hactor, htarget, hname⟩ := Auth.logUserAudit_reliably (by decide) hlog
      have hid : e.targetUserID = userID := htarget.trans (Auth.Users.mem_of_find hrow).2
      refine iff_of_true ?_ hnot
      refine logged_of_audit (fun other hother => ?_) ?_ hactor hid (.inr ?_) hname
      · simp only [husers]
        exact hupdates.others other hother
      · simp only [haudits, hupdates.audits]
      · simpa only [husers] using hrow
    · obtain ⟨-, -, rfl⟩ := Prog.run_ret hrest
      rw [← hhalf]
      constructor
      · intro hlogged
        by_contra hchanged
        obtain ⟨e, he, -⟩ := hlogged userID hchanged
        rw [hupdates.audits, List.drop_length] at he
        exact List.not_mem_nil he
      · intro hsame id hid
        by_cases hother : id = userID
        · exact absurd (hother ▸ hsame) hid
        · exact absurd (hupdates.others id hother) hid

end

/-! ## The other handlers -/

/-- A call that changes neither the users nor their audits. -/
def Op.KeepsAccounts : Op → Prop
  | .auth op => op.KeepsAccounts
  | _ => True

section

variable {s : Server} {env : Env patterns} {r : Request} {ctx : Context}

theorem keeps_of_harmless {α : Type} {p : Auth.M α} (hp : p.Only Auth.Op.Harmless) :
    (liftAuth p).Only Op.KeepsAccounts :=
  Prog.only_lift (hp.mono fun _ => Auth.Op.Harmless.keepsAccounts)

theorem keeps_of_reads {α : Type} {p : Auth.M α} (hp : p.Only Auth.Op.Reads) :
    (liftAuth p).Only Op.KeepsAccounts :=
  keeps_of_harmless (hp.mono fun _ => .inl)

theorem keeps_liftAlerts {α : Type} (p : Alerts.M α) : (liftAlerts p).Only Op.KeepsAccounts :=
  Prog.only_lift ((Prog.only_true p).mono fun _ _ => trivial)

theorem Op.Reads.keepsAccounts {op : Op} (h : op.Reads) : op.KeepsAccounts := by
  cases op with
  | auth op => exact Auth.Op.Harmless.keepsAccounts (.inl h)
  | _ => trivial

/-- A call of the alert service and then a response. -/
theorem keeps_respond {α : Type} {p : Alerts.M α} {f : α → M Response}
    (hf : ∀ answer, ∃ resp, f answer = pure resp) :
    (liftAlerts p >>= f).Only Op.KeepsAccounts := by
  refine (keeps_liftAlerts p).bind fun answer => ?_
  obtain ⟨resp, hresp⟩ := hf answer
  rw [hresp]
  exact Prog.only_ret _

theorem keeps_handleAlertsConfig :
    (s.handleAlertsConfig env.crypto r ctx).Only Op.KeepsAccounts := by
  unfold handleAlertsConfig
  split_ifs
  · exact Prog.only_ret _
  · exact keeps_respond fun _ => ⟨_, rfl⟩
  · unfold putAlertsConfig
    cases s.requireAlertMutationAccess ctx with
    | error refusal => exact Prog.only_ret _
    | ok =>
      cases r.decode Alerts.UpdateConfigInput.field {} with
      | none => exact Prog.only_ret _
      | some body => exact keeps_respond fun answer => by cases answer <;> exact ⟨_, rfl⟩
  · exact Prog.only_ret _

theorem keeps_handleAlertsTest : (s.handleAlertsTest r ctx).Only Op.KeepsAccounts := by
  unfold handleAlertsTest
  split_ifs
  · exact Prog.only_ret _
  · exact Prog.only_ret _
  · cases s.requireAlertMutationAccess ctx with
    | error refusal => exact Prog.only_ret _
    | ok => exact keeps_respond fun answer => by cases answer <;> exact ⟨_, rfl⟩

theorem keeps_handleAlertsSilence : (s.handleAlertsSilence r ctx).Only Op.KeepsAccounts := by
  unfold handleAlertsSilence
  split_ifs
  · exact Prog.only_ret _
  · unfold postSilence
    cases s.requireAlertMutationAccess ctx with
    | error refusal => exact Prog.only_ret _
    | ok =>
      cases r.decode (intField "minutes") 0 with
      | none => exact Prog.only_ret _
      | some minutes => exact keeps_respond fun answer => by cases answer <;> exact ⟨_, rfl⟩
  · unfold deleteSilence
    cases s.requireAlertMutationAccess ctx with
    | error refusal => exact Prog.only_ret _
    | ok => exact keeps_respond fun answer => by cases answer <;> exact ⟨_, rfl⟩
  · exact Prog.only_ret _

theorem keeps_handleUserAudit : (liftAuth (s.handleUserAudit r ctx)).Only Op.KeepsAccounts := by
  apply keeps_of_reads
  unfold handleUserAudit
  cases s.requireAdmin ctx with
  | error refusal => exact Prog.only_ret _
  | ok admin =>
    simp only
    split_ifs
    · exact Prog.only_ret _
    · cases parseLimit r 100 with
      | none => exact Prog.only_ret _
      | some limit =>
        refine (Auth.only_listUserAudits limit).bind fun answer => ?_
        cases answer <;> exact Prog.only_ret _

/-- The routes whose handlers write users. -/
def Route.onUsers : Route → Bool
  | users => true
  | userByID => true
  | _ => false

theorem keeps_handle {route : Route} (hroute : route.onUsers = false) :
    (s.handle env route r ctx).Only Op.KeepsAccounts := by
  have keeps {p : M Response} (hp : p.Only Op.Reads) : p.Only Op.KeepsAccounts :=
    hp.mono fun _ => Op.Reads.keepsAccounts
  by_cases hhost : route.onHost = true
  · exact keeps ((onHost_handle hhost r ctx).mono fun _ => Op.OnHost.reads)
  · cases route with
    | info => exact keeps reads_handleInfo
    | authLogin => exact keeps_of_harmless (only_handleAuthLogin r)
    | authLogout => exact keeps_of_harmless (only_handleAuthLogout r)
    | authMe => exact keeps_of_reads (only_handleAuthMe r ctx)
    | userAudit => exact keeps_handleUserAudit
    | alertsConfig => exact keeps_handleAlertsConfig
    | alertsStatus => exact keeps reads_handleAlertsStatus
    | alertsHistory => exact keeps reads_handleAlertsHistory
    | alertsTest => exact keeps_handleAlertsTest
    | alertsSilence => exact keeps_handleAlertsSilence
    | users => cases hroute
    | userByID => cases hroute
    | _ => exact absurd rfl hhost

end

/-! ## By route -/

/-- The user of a session. -/
def sessionUser (x : Auth.Session) : Auth.User := ⟨x.userID, x.username, x.role⟩

section

variable {s : Server} {bcrypt : Auth.Bcrypt} {r : Request} {x : Auth.Session}
  {cs cs' : List Auth.Choice} {w w' : Auth.World} {resp : Response}

theorem requireAdmin_of_admin (hauth : s.authDisabled = false) (hrole : x.role = .admin) :
    s.requireAdmin (some x) = .ok (sessionUser x) := by
  simp [requireAdmin, currentUser, currentSession, authRequired, hauth, hrole, sessionUser]

theorem logged_handleUsers (hauth : s.authDisabled = false) (hrole : x.role = .admin)
    (h : (s.handleUsers r (some x)).run (Auth.reliably bcrypt) cs w = some (resp, cs', w')) :
    Logged (sessionUser x) w w' := by
  unfold handleUsers at h
  rw [requireAdmin_of_admin hauth hrole] at h
  simp only at h
  split_ifs at h
  · have hreads : getUsers.Only Auth.Op.Reads := by
      refine Auth.only_listUsers.bind fun answer => ?_
      cases answer <;> exact Prog.only_ret _
    obtain rfl := Auth.eq_of_reads hreads (Prog.run_within h)
    exact logged_of_same fun _ => rfl
  · exact logged_postUser h
  · obtain ⟨-, -, rfl⟩ := Prog.run_ret h
    exact logged_of_same fun _ => rfl

/-- The request asks for half an update. -/
def AsksHalf (bcrypt : Auth.Bcrypt) (salt : Nat) (users : Auth.Users) (r : Request) : Prop :=
  r.method = "PUT" ∧ ∃ userID body, parseUserID r.path = some userID ∧
    r.decode UpdateUserBody.field {} = some body ∧
      Auth.Halfway bcrypt salt users userID body.role body.password

theorem logged_handleUserByID_iff {salt : Nat} (hsalt : ∀ c ∈ cs, c.salt = salt)
    (hauth : s.authDisabled = false) (hrole : x.role = .admin)
    (h : (s.handleUserByID r (some x)).run (Auth.reliably bcrypt) cs w = some (resp, cs', w')) :
    Logged (sessionUser x) w w' ↔ ¬ AsksHalf bcrypt salt w.users r := by
  unfold handleUserByID at h
  rw [requireAdmin_of_admin hauth hrole] at h
  cases hid : parseUserID r.path with
  | none =>
    simp only [hid] at h
    obtain ⟨-, -, rfl⟩ := Prog.run_ret h
    refine iff_of_true (logged_of_same fun _ => rfl) ?_
    rintro ⟨-, userID, body, hsome, -⟩
    rw [hid] at hsome
    cases hsome
  | some userID =>
    simp only [hid] at h
    split_ifs at h with hput
    · rw [logged_putUser_iff hsalt h]
      have hasks : AsksHalf bcrypt salt w.users r ↔
          ∃ body, r.decode UpdateUserBody.field {} = some body ∧
            Auth.Halfway bcrypt salt w.users userID body.role body.password := by
        simp [AsksHalf, hput, hid]
      rw [hasks]
    · exact iff_of_true (logged_removeUser h) fun hasks => hput hasks.1
    · obtain ⟨-, -, rfl⟩ := Prog.run_ret h
      exact iff_of_true (logged_of_same fun _ => rfl) fun hasks => hput hasks.1

end

/-! ## Requests -/

/-- What reaches the user store succeeds. -/
def Choice.Reliable (c : Choice) : Op → Prop
  | .auth op => c.auth.Reliable op
  | _ => True

instance decidableReliable (c : Choice) : ∀ op, Decidable (c.Reliable op)
  | .auth op => inferInstanceAs (Decidable (c.auth.Reliable op))
  | .alerts _ => isTrue trivial
  | .system _ => isTrue trivial

abbrev reliably (env : Env patterns) : Choice → (op : Op) → World → Option (op.Ans × World) :=
  Prog.within Choice.Reliable (exec env)

/-- A change of users by this request has an audit, which names the administrator whose session is
in its context. -/
def Audited (out : Served) (w w' : World) : Prop :=
  (∀ id, w'.auth.users.find id = w.auth.users.find id) ∨
    ∃ route x, out.ran = some (route, some x) ∧ x.role = .admin ∧
      Logged (sessionUser x) w.auth w'.auth

/-- An administrator's request for half an update reaches its handler. -/
def HalfUpdate (s : Server) (env : Env patterns) (salt : Nat) (r : Request) (cs : List Choice)
    (w : World) : Prop :=
  s.AdminRequest env r cs w ∧ r.escapedPath ≠ ['*'] ∧
    env.mux.dispatch r.method r.escapedPath = .handler Route.userByID.path ∧
      AsksHalf env.bcrypt salt w.auth.users r

section

variable {s : Server} {env : Env patterns} {r : Request} {cs cs' : List Choice} {w w' t : World}
  {out : Served} {salt : Nat}

theorem run_liftAuth_reliably {α : Type} {p : Auth.M α} {a : α}
    (h : (liftAuth p).run (reliably env) cs w = some (a, cs', w')) :
    p.run (Auth.reliably env.bcrypt) (cs.map Choice.auth) w.auth =
      some (a, cs'.map Choice.auth, w'.auth) := by
  refine Prog.run_lift (fun c op w answer w' hexec => ?_) h
  obtain ⟨hok, hexec⟩ := Prog.within_some.1 hexec
  exact Prog.within_some.2 ⟨hok, (exec_auth hexec).1⟩

theorem SameButSessions.accounts (h : SameButSessions w w') :
    w'.auth.users = w.auth.users ∧ w'.auth.audits = w.auth.audits := by
  obtain ⟨sessions, memory, rfl⟩ := h
  exact ⟨rfl, rfl⟩

theorem accounts_of_keeps {α : Type} {p : M α} {a : α} (hp : p.Only Op.KeepsAccounts)
    (h : p.run (reliably env) cs w = some (a, cs', w')) : w'.auth.users = w.auth.users := by
  refine hp.run_keeps (I := fun t => t.auth.users = w.auth.users) ?_ (Prog.run_within h) rfl
  intro c op t answer t' hop hexec ht
  cases op with
  | auth op => exact (Auth.Op.KeepsAccounts.exec_eq hop (exec_auth hexec).1).1.trans ht
  | alerts op =>
    obtain ⟨⟨answer, u⟩, hexec, heq⟩ := Option.map_eq_some_iff.1 hexec
    cases heq
    exact ht
  | system call =>
    cases hexec
    exact ht

theorem audited_of_same (h : w'.auth.users = w.auth.users) : Audited out w w' :=
  .inl fun id => by rw [h]

theorem audited_iff_logged {route : Route} {x : Auth.Session}
    (hran : out.ran = some (route, some x)) (hrole : x.role = .admin) :
    Audited out w w' ↔ Logged (sessionUser x) w.auth w'.auth := by
  constructor
  · rintro (hsame | ⟨route', y, hran', -, hlogged⟩)
    · exact logged_of_same hsame
    · rw [hran] at hran'
      cases hran'
      exact hlogged
  · intro hlogged
    exact .inr ⟨route, x, hran, hrole, hlogged⟩

/-- The check of the cookie does not matter. -/
theorem logged_congr {actor : Auth.User} (h : SameButSessions w t) :
    Logged actor w.auth w'.auth ↔ Logged actor t.auth w'.auth := by
  obtain ⟨husers, haudits⟩ := h.accounts
  unfold Logged
  rw [husers, haudits]

/-- What the mux does with the request of an administrator. -/
theorem audited_iff_of_mux {x : Auth.Session} (hsalt : ∀ c ∈ cs, c.auth.salt = salt)
    (hauth : s.authDisabled = false) (hrole : x.role = .admin) (hsame : SameButSessions w t)
    (h : (s.serveMuxHTTP env r (some x)).run (reliably env) cs t = some (out, cs', w')) :
    Audited out w w' ↔
      ¬ (r.escapedPath ≠ ['*'] ∧
        env.mux.dispatch r.method r.escapedPath = .handler Route.userByID.path ∧
          AsksHalf env.bcrypt salt w.auth.users r) := by
  have husers : t.auth.users = w.auth.users := hsame.accounts.1
  rcases serveMuxHTTP_cases h with ⟨-, rfl, hnone⟩ | ⟨route, hran, hstar, hdispatch, hhandle⟩
  · refine iff_of_true (audited_of_same husers) ?_
    rintro ⟨hstar, hdispatch, -⟩
    rcases hnone with hnone | hnone
    · exact hstar hnone
    · exact hnone .userByID hdispatch
  · have hother : route ≠ .userByID →
        ¬ (r.escapedPath ≠ ['*'] ∧
          env.mux.dispatch r.method r.escapedPath = .handler Route.userByID.path ∧
            AsksHalf env.bcrypt salt w.auth.users r) := by
      rintro hne ⟨-, hpath, -⟩
      rw [hdispatch] at hpath
      have hroute : route.path = Route.userByID.path := by simpa using hpath
      revert hroute hne
      cases route <;> decide
    by_cases hroute : route.onUsers = true
    · rw [audited_iff_logged hran hrole, logged_congr hsame]
      cases route with
      | users =>
        have hlogged := logged_handleUsers hauth hrole (run_liftAuth_reliably hhandle)
        exact iff_of_true hlogged (hother (by decide))
      | userByID =>
        have hsalt' : ∀ c ∈ cs.map Choice.auth, c.salt = salt := by simpa using hsalt
        rw [logged_handleUserByID_iff hsalt' hauth hrole (run_liftAuth_reliably hhandle), husers]
        simp [hstar, hdispatch]
      | _ => cases hroute
    · have hkeeps := accounts_of_keeps (keeps_handle (by simpa using hroute)) hhandle
      refine iff_of_true (audited_of_same (hkeeps.trans husers)) (hother ?_)
      rintro rfl
      exact hroute rfl

/-- **A request is audited unless it is half an update.** -/
theorem audited_iff (hsalt : ∀ c ∈ cs, c.auth.salt = salt)
    (h : (s.serve env r).run (reliably env) cs w = some (out, cs', w')) :
    Audited out w w' ↔ ¬ s.HalfUpdate env salt r cs w := by
  by_cases hadmin : s.AdminRequest env r cs w
  · obtain ⟨hauth, token, x, ds, t, hcookie, hget, hrole⟩ := id hadmin
    cases hpath : isPublicPath r.path with
    | true =>
      rw [serve, if_neg (by simp [hauth]), sessionAuthMiddleware, if_pos hpath] at h
      obtain ⟨hsame, -⟩ := effect_serveMuxHTTP not_isAdmin_none (Prog.run_within h)
      refine iff_of_true (audited_of_same hsame.accounts.1) ?_
      rintro ⟨-, -, hdispatch, -⟩
      have hmatches := (env.mux.handles hdispatch r.parsed).2
      rw [not_public_of_matches (by decide) hmatches] at hpath
      cases hpath
    | false =>
      rcases middleware_cases hauth hpath h with ⟨hnone, -⟩ |
        ⟨token', found, ds', t', hcookie', hget', hnext⟩
      · rw [hcookie] at hnone
        cases hnone
      · rw [hcookie] at hcookie'
        cases hcookie'
        cases hget.symm.trans (Prog.run_within hget')
        rcases hnext with ⟨hnone, -⟩ | ⟨y, hy, hrun⟩
        · cases hnone
        · cases hy
          have hds := (Prog.run_suffix hget).subset
          rw [audited_iff_of_mux (fun c hc => hsalt c (hds hc)) hauth hrole (effect_get hget).1
            hrun]
          exact not_congr ⟨fun h => ⟨hadmin, h⟩, And.right⟩
  · obtain ⟨hsame, -⟩ := unchanged_of_not_admin hadmin (Prog.run_within h)
    exact iff_of_true (audited_of_same hsame.accounts.1) fun hhalf => hadmin hhalf.1

end

/-! ## Runs of requests -/

/-- A request handled to completion, with the salt for its hash, if it makes one. -/
structure Handled where
  request : Request
  salt : Nat
  choices : List Choice

section

variable (s : Server) (env : Env patterns)

def step (w : World) (a : Handled) : Option World :=
  if ∀ c ∈ a.choices, c.auth.salt = a.salt then
    ((s.serve env a.request).run (reliably env) a.choices w).map fun r => r.2.2
  else none

/-- Handling the request writes the audits that its changes of users ask for. -/
def Audits (w : World) (a : Handled) : Prop :=
  ∀ out cs' w', (s.serve env a.request).run (reliably env) a.choices w = some (out, cs', w') →
    Audited out w w'

variable {s env}

theorem audits_iff_of_step {w w' : World} {a : Handled} (h : s.step env w a = some w') :
    s.Audits env w a ↔ ¬ s.HalfUpdate env a.salt a.request a.choices w := by
  unfold step at h
  split_ifs at h with hsalt
  obtain ⟨⟨out, cs', u⟩, hrun, -⟩ := Option.map_eq_some_iff.1 h
  rw [← audited_iff hsalt hrun]
  constructor
  · intro haudits
    exact haudits out cs' u hrun
  · intro haudited out' ds u' hrun'
    cases hrun.symm.trans hrun'
    exact haudited

/-- **Every request of a run is audited if and only if none is half an update.** -/
theorem audits_iff {as : List Handled} {w w' : World}
    (h : Lts.run (s.step env) w as = some w') :
    Lts.Along (s.step env) (s.Audits env) w as ↔
      Lts.Along (s.step env)
        (fun w a => ¬ s.HalfUpdate env a.salt a.request a.choices w) w as :=
  Lts.along_congr (fun _ _ _ => audits_iff_of_step) h

end

/-- An admin is logged in, and there is a viewer. -/
def aliceSignedIn : World where
  auth :=
    { users := .seed [("alice", "alice's", .admin), ("bob", "bob's", .viewer)]
      sessions := fun _ => none
      audits := []
      memory := fun token => if token = "a" then some ⟨"a", 1, "alice", .admin, 1000⟩ else none }
  alerts := .fresh Alerts.defaultConfig ⟨"", "", ""⟩

theorem unescape_bob : unescape "/api/users/2".toList = some "/api/users/2".toList := by decide

/-- The viewer is to become an admin with a new password. -/
def promoteBob (password : String) : Request where
  method := "PUT"
  escapedPath := "/api/users/2".toList
  path := "/api/users/2".toList
  parsed := unescape_bob
  cookie := some "a"
  body := some (.obj [("role", .str "admin"), ("password", .str password)])

/-- The password is long enough. -/
def promotion : List Handled := [⟨promoteBob "secret", 0, List.replicate 10 {}⟩]

theorem audits_iff_promotion :
    ∃ w, Lts.run (privateAlerts.step plainEnv) aliceSignedIn promotion = some w ∧
      (Lts.Along (privateAlerts.step plainEnv) (privateAlerts.Audits plainEnv) aliceSignedIn
          promotion ↔
        Lts.Along (privateAlerts.step plainEnv)
          (fun w a => ¬ privateAlerts.HalfUpdate plainEnv a.salt a.request a.choices w)
          aliceSignedIn promotion) := by
  obtain ⟨w, hw⟩ : ∃ w, Lts.run (privateAlerts.step plainEnv) aliceSignedIn promotion = some w :=
    ⟨_, rfl⟩
  exact ⟨w, hw, audits_iff hw⟩

/-- The password is too short: bob is an admin now, the response is an error, and nothing tells. -/
theorem promotion_unaudited :
    ¬ ∀ (s : Server) (env : Env patterns) (as : List Handled) (w w' : World),
      Lts.run (s.step env) w as = some w' → Lts.Along (s.step env) (s.Audits env) w as := by
  intro hall
  obtain ⟨w', hw⟩ : ∃ w', Lts.run (privateAlerts.step plainEnv) aliceSignedIn
      [⟨promoteBob "abc", 0, List.replicate 4 {}⟩] = some w' := ⟨_, rfl⟩
  have haudits := (hall _ _ _ _ _ hw).1 _ _ _ rfl
  rcases haudits with hsame | ⟨route, x, -, -, hlogged⟩
  · exact absurd (hsame 2) (by decide)
  · obtain ⟨e, he, -⟩ := hlogged 2 (by decide)
    exact List.not_mem_nil he

end QuickVps.Server
