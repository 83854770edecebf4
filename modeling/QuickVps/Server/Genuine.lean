import QuickVps.Auth.Answers
import QuickVps.Server.Accounts

/-!
# What the calls of a request say

A session that a request creates, a session that it writes back into memory, and an audit that it
inserts each repeat what earlier calls of the same request were answered.

* `Accepted` — the check of the cookie has found the session, which is alive.
* `CheckedLogin` — the session is of the row whose hash the password was compared with.
* `Truthful` — the audit describes a change that was made.
* `Genuine` — the calls of a request keep to these, handler by handler.
-/

namespace QuickVps.Server

open Auth (Past)

/-! ## Requests -/

/-- The check of the cookie has accepted the session. -/
def Accepted (m : Auth.SessionManager) (r : Request) (h : Past) (x : Auth.Session) : Prop :=
  ∃ token, r.cookie = some token ∧ Auth.FoundAlive m h token x

/-- The session has a token that was drawn, is of a row that was read for the name in the body and
whose hash the password there matches, and lasts from a reading of the clock. -/
def CheckedLogin (m : Auth.SessionManager) (bcrypt : Auth.Bcrypt) (r : Request) (h : Past)
    (x : Auth.Session) : Prop :=
  ∃ body name row now, r.decode LoginBody.field {} = some body ∧
    Auth.normalizeUsername body.username = some name ∧
    ⟨.sql (.selectUserByName name), .ok (some row)⟩ ∈ h ∧
    bcrypt.compare row.passwordHash body.password = true ∧
    ⟨.randomToken, .ok x.token⟩ ∈ h ∧ ⟨.now, now⟩ ∈ h ∧
    x = ⟨x.token, row.id, row.username, row.role, now + m.ttl⟩

def createdDetails (user : Auth.User) : String :=
  "\x7b\"role\":\"" ++ user.role.text ++ "\"\x7d"

def updatedDetails (body : UpdateUserBody) (user : Auth.User) : String :=
  "\x7b\"new_role\":\"" ++ user.role.text ++ "\",\"password_changed\":" ++
    boolText body.password.isSome ++ ",\"role_changed\":" ++ boolText body.role.isSome ++ "\x7d"

def deletedDetails (target : Auth.User) : String :=
  "\x7b\"target_role\":\"" ++ target.role.text ++ "\"\x7d"

/-- The action, the target and the details of an audit are those of a change that the request has
made. -/
inductive Truthful (r : Request) (h : Past) : String → Int → String → String → Prop
  | created (user : Auth.User) (hash : String)
    (hinsert : ⟨.sql (.insertUser user.username hash user.role), .ok user.id⟩ ∈ h) :
    Truthful r h "create_user" user.id user.username (createdDetails user)
  | updated (id : Int) (body : UpdateUserBody) (user : Auth.User)
    (hid : parseUserID r.path = some id) (hbody : r.decode UpdateUserBody.field {} = some body)
    (hupdated : Auth.Updated h id body.role body.password user) :
    Truthful r h "update_user" user.id user.username (updatedDetails body user)
  | deleted (id : Int) (target : Auth.User) (n : Nat) (hid : parseUserID r.path = some id)
    (hread : ⟨.sql (.selectUserByID id), .ok (some target)⟩ ∈ h) (hn : n ≠ 0)
    (hdelete : ⟨.sql (.deleteUser id), .ok n⟩ ∈ h) :
    Truthful r h "delete_user" target.id target.username (deletedDetails target)

/-- What a session and an audit of a request repeat. -/
def Genuine (m : Auth.SessionManager) (bcrypt : Auth.Bcrypt) (r : Request) (h : Past) :
    Auth.Op → Prop
  | .create _ x => CheckedLogin m bcrypt r h x
  | .put token x => ⟨.sql (.selectSession token), .ok (some x)⟩ ∈ h
  | .sql (.insertAudit actorID actorName action targetID targetName details) =>
    (∃ x, Accepted m r h x ∧ x.role = .admin ∧ x.userID = actorID ∧ x.username = actorName) ∧
      Truthful r h action targetID targetName details
  | _ => True

/-- A call of a handler that has the administrator's session. -/
def ByAdmin (admin : Auth.User) (r : Request) (h : Past) : Auth.Op → Prop
  | .create .. => False
  | .put .. => False
  | .sql (.insertAudit actorID actorName action targetID targetName details) =>
    actorID = admin.id ∧ actorName = admin.username ∧
      Truthful r h action targetID targetName details
  | _ => True

variable {s : Server} {m : Auth.SessionManager} {bcrypt : Auth.Bcrypt} {r : Request} {h h' : Past}

theorem Accepted.mono {x : Auth.Session} (hx : Accepted m r h x) (hsub : h ⊆ h') :
    Accepted m r h' x := by
  obtain ⟨token, hcookie, hfound⟩ := hx
  exact ⟨token, hcookie, hfound.mono hsub⟩

theorem CheckedLogin.mono {x : Auth.Session} (hx : CheckedLogin m bcrypt r h x) (hsub : h ⊆ h') :
    CheckedLogin m bcrypt r h' x := by
  obtain ⟨body, name, row, now, hbody, hname, hrow, hcompare, htoken, hnow, heq⟩ := hx
  exact ⟨body, name, row, now, hbody, hname, hsub hrow, hcompare, hsub htoken, hsub hnow, heq⟩

theorem genuine_of_routine {e : Auth.Op} (he : e.Routine) : Genuine m bcrypt r h e := by
  cases e with
  | sql stmt =>
    cases stmt with
    | insertAudit => exact he.elim
    | _ => trivial
  | create | put => exact he.elim
  | _ => trivial

theorem byAdmin_of_routine {admin : Auth.User} {e : Auth.Op} (he : e.Routine) :
    ByAdmin admin r h e := by
  cases e with
  | sql stmt =>
    cases stmt with
    | insertAudit => exact he.elim
    | _ => trivial
  | create | put => exact he.elim
  | _ => trivial

/-- The calls of an accepted administrator are genuine. -/
theorem ByAdmin.genuine {x : Auth.Session} {admin : Auth.User} {e : Auth.Op}
    (hx : Accepted m r h x) (hrole : x.role = .admin) (hid : x.userID = admin.id)
    (hname : x.username = admin.username) (he : ByAdmin admin r h e) : Genuine m bcrypt r h e := by
  cases e with
  | sql stmt =>
    cases stmt with
    | insertAudit =>
      obtain ⟨rfl, rfl, htrue⟩ := he
      exact ⟨⟨x, hx, hrole, hid, hname⟩, htrue⟩
    | _ => trivial
  | create | put => exact he.elim
  | _ => trivial

/-! ### Login and logout -/

theorem follows_authenticate (bcrypt : Auth.Bcrypt) (username password : String) (h : Past) :
    (Auth.authenticate bcrypt username password).Follows (Genuine m bcrypt r)
      (fun h' out => ∀ user, out = .ok user → ∃ name row,
        Auth.normalizeUsername username = some name ∧
          ⟨.sql (.selectUserByName name), .ok (some row)⟩ ∈ h' ∧
            bcrypt.compare row.passwordHash password = true ∧ user = row.user) h := by
  unfold Auth.authenticate
  cases Auth.normalizeUsername username with
  | none => exact Prog.follows_ret.2 fun user huser => by cases huser
  | some name =>
    simp only
    rw [Prog.follows_bind]
    refine (Prog.follows_op (e := Auth.Op.sql (.selectUserByName name))).2 ⟨trivial, fun a => ?_⟩
    match a with
    | .error err => exact Prog.follows_ret.2 fun user huser => by cases huser
    | .ok none => exact Prog.follows_ret.2 fun user huser => by cases huser
    | .ok (some row) =>
      simp only
      split_ifs with hcompare
      · refine Prog.follows_ret.2 fun user huser => ?_
        cases huser
        exact ⟨name, row, rfl, List.mem_cons_self, hcompare, rfl⟩
      · exact Prog.follows_ret.2 fun user huser => by cases huser

theorem genuine_handleAuthLogin (h : Past) :
    (s.handleAuthLogin bcrypt r).Follows (Genuine s.sessions bcrypt r) (fun _ _ => True) h := by
  unfold handleAuthLogin
  split_ifs
  · exact Prog.follows_ret.2 trivial
  · exact Prog.follows_ret.2 trivial
  · cases hbody : r.decode LoginBody.field {} with
    | none => exact Prog.follows_ret.2 trivial
    | some body =>
      simp only
      rw [Prog.follows_bind]
      refine (follows_authenticate bcrypt _ _ h).mono (fun _ _ _ hok => hok)
        fun h₁ found _ hfound => ?_
      cases found with
      | error err => cases err <;> exact Prog.follows_ret.2 trivial
      | ok user =>
        obtain ⟨name, row, hname, hrow, hcompare, rfl⟩ := hfound user rfl
        simp only
        unfold Auth.SessionManager.create
        rw [Prog.follows_bind, Prog.follows_bind]
        refine (Prog.follows_op (e := Auth.Op.randomToken)).2 ⟨trivial, fun random => ?_⟩
        cases random with
        | error err => exact Prog.follows_ret.2 (Prog.follows_ret.2 trivial)
        | ok token =>
          simp only
          rw [Prog.follows_bind]
          refine (Prog.follows_op (e := Auth.Op.now)).2 ⟨trivial, fun now => ?_⟩
          rw [Prog.follows_bind]
          refine Prog.follows_op.2 ⟨?_, fun created => ?_⟩
          · exact ⟨body, name, row, now, hbody, hname, by simp [hrow], hcompare, by simp, by simp,
              rfl⟩
          · cases created <;> exact Prog.follows_ret.2 (Prog.follows_ret.2 trivial)

theorem routine_handleAuthLogout : (s.handleAuthLogout r).Only Auth.Op.Routine := by
  unfold handleAuthLogout
  split_ifs
  · exact Prog.only_ret _
  · exact Prog.only_ret _
  · cases r.cookie with
    | none => exact Prog.only_ret _
    | some token => exact (s.sessions.routine_delete token).bind fun _ => Prog.only_ret _

/-! ### Administration -/

section Admin

variable {admin : Auth.User}

theorem byAdmin_logUserAudit {action : String} {id : Int} {name details : String} {h : Past}
    (htrue : Truthful r h action id name details) :
    (Auth.logUserAudit admin.id admin.username action id name details).Follows (ByAdmin admin r)
      (fun _ _ => True) h := by
  unfold Auth.logUserAudit
  split_ifs
  · exact Prog.follows_ret.2 trivial
  · rw [Prog.follows_bind]
    refine (Prog.follows_op (e := Auth.Op.sql (.insertAudit ..))).2
      ⟨⟨rfl, rfl, htrue⟩, fun a => ?_⟩
    cases a <;> exact Prog.follows_ret.2 trivial

theorem byAdmin_postUser (h : Past) :
    (postUser admin r).Follows (ByAdmin admin r) (fun _ _ => True) h := by
  have hok (h : Past) (e : Auth.Op) : e.Routine → ByAdmin admin r h e := byAdmin_of_routine
  unfold postUser
  cases r.decode CreateUserBody.field {} with
  | none => exact Prog.follows_ret.2 trivial
  | some body =>
    simp only
    rw [Prog.follows_bind]
    refine (Auth.follows_createUser hok _ _ _ h).mono (fun _ _ _ hok => hok)
      fun h₁ created _ hcreated => ?_
    cases created with
    | error err => exact Prog.follows_ret.2 trivial
    | ok user =>
      obtain ⟨hash, hinsert⟩ := hcreated user rfl
      simp only
      rw [Prog.follows_bind]
      refine (byAdmin_logUserAudit (.created user hash hinsert)).mono (fun _ _ _ hok => hok) ?_
      exact fun _ _ _ _ => Prog.follows_ret.2 trivial

theorem byAdmin_putUser {userID : Int} (hid : parseUserID r.path = some userID) (h : Past) :
    (s.putUser admin userID r).Follows (ByAdmin admin r) (fun _ _ => True) h := by
  have hok (h : Past) (e : Auth.Op) : e.Routine → ByAdmin admin r h e := byAdmin_of_routine
  unfold putUser
  cases hbody : r.decode UpdateUserBody.field {} with
  | none => exact Prog.follows_ret.2 trivial
  | some body =>
    simp only
    rw [Prog.follows_bind]
    refine (Auth.follows_updateUser hok _ _ _ h).mono (fun _ _ _ hok => hok)
      fun h₁ updated _ hupdated => ?_
    cases updated with
    | error err => exact Prog.follows_ret.2 trivial
    | ok user =>
      have hrevoke : (s.revokeIfChanged userID body).Only Auth.Op.Routine := by
        unfold revokeIfChanged
        split_ifs
        · exact s.sessions.routine_deleteByUserID userID
        · exact Prog.only_ret _
      simp only
      rw [Prog.follows_bind]
      refine (Auth.follows_routine hok hrevoke h₁).mono (fun _ _ _ hok => hok)
        fun h₂ _ hsuf _ => ?_
      have hmade := (hupdated user rfl).mono hsuf.subset
      rw [Prog.follows_bind]
      refine (byAdmin_logUserAudit (.updated userID body user hid hbody hmade)).mono
        (fun _ _ _ hok => hok) ?_
      exact fun _ _ _ _ => Prog.follows_ret.2 trivial

theorem byAdmin_removeUser {userID : Int} (hid : parseUserID r.path = some userID) (h : Past) :
    (s.removeUser admin userID).Follows (ByAdmin admin r) (fun _ _ => True) h := by
  have hok (h : Past) (e : Auth.Op) : e.Routine → ByAdmin admin r h e := byAdmin_of_routine
  unfold removeUser
  split_ifs
  · exact Prog.follows_ret.2 trivial
  · rw [Prog.follows_bind]
    refine (Auth.follows_getUserByID hok _ h).mono (fun _ _ _ hok => hok)
      fun h₁ found _ hfound => ?_
    cases found with
    | error err => exact Prog.follows_ret.2 trivial
    | ok target =>
      obtain ⟨-, hread⟩ := hfound target rfl
      simp only
      rw [Prog.follows_bind]
      refine (Auth.follows_deleteUser hok _ h₁).mono (fun _ _ _ hok => hok)
        fun h₂ deleted hsuf hdeleted => ?_
      cases deleted with
      | error err => exact Prog.follows_ret.2 trivial
      | ok =>
        obtain ⟨n, hn, hdelete⟩ := hdeleted rfl
        simp only
        rw [Prog.follows_bind]
        refine (Auth.follows_routine hok (s.sessions.routine_deleteByUserID userID) h₂).mono
          (fun _ _ _ hok => hok) fun h₃ _ hsuf' _ => ?_
        have htrue : Truthful r h₃ "delete_user" target.id target.username
            (deletedDetails target) :=
          .deleted userID target n hid ((hsuf.trans hsuf').subset hread) hn (hsuf'.subset hdelete)
        rw [Prog.follows_bind]
        refine (byAdmin_logUserAudit htrue).mono (fun _ _ _ hok => hok) ?_
        exact fun _ _ _ _ => Prog.follows_ret.2 trivial

end Admin

theorem admin_of_requireAdmin {x : Auth.Session} {admin : Auth.User}
    (hadmin : s.requireAdmin (some x) = .ok admin) :
    x.role = .admin ∧ x.userID = admin.id ∧ x.username = admin.username := by
  obtain ⟨hauth, y, hy, hrole⟩ := isAdmin_of_requireAdmin hadmin
  cases hy
  simp only [requireAdmin, currentUser, currentSession, authRequired, hauth, Bool.not_false,
    if_true, Option.map_some, hrole, ne_eq, not_true_eq_false, if_false, Except.ok.injEq] at hadmin
  subst hadmin
  exact ⟨hrole, rfl, rfl⟩

/-- The calls of a handler of an accepted administrator are genuine. -/
theorem genuine_of_byAdmin {x : Auth.Session} {admin : Auth.User} {p : Auth.M Response} {h : Past}
    (hx : Accepted m r h x) (hadmin : s.requireAdmin (some x) = .ok admin)
    (hp : p.Follows (ByAdmin admin r) (fun _ _ => True) h) :
    p.Follows (Genuine m bcrypt r) (fun _ _ => True) h := by
  obtain ⟨hrole, hid, hname⟩ := admin_of_requireAdmin hadmin
  refine hp.mono (fun h' e hsuf he => ?_) fun _ _ _ _ => trivial
  exact he.genuine (hx.mono hsuf.subset) hrole hid hname

theorem genuine_handleUsers {x : Auth.Session} {h : Past} (hx : Accepted m r h x) :
    (s.handleUsers r (some x)).Follows (Genuine m bcrypt r) (fun _ _ => True) h := by
  unfold handleUsers
  cases hadmin : s.requireAdmin (some x) with
  | error refusal => exact Prog.follows_ret.2 trivial
  | ok admin =>
    have hget : getUsers.Only Auth.Op.Routine := by
      refine (Auth.only_listUsers.mono fun _ => Auth.Op.Reads.routine).bind fun listed => ?_
      cases listed <;> exact Prog.only_ret _
    simp only
    split_ifs
    · exact Auth.follows_routine (fun _ _ => genuine_of_routine) hget h
    · exact genuine_of_byAdmin hx hadmin (byAdmin_postUser h)
    · exact Prog.follows_ret.2 trivial

theorem genuine_handleUserByID {x : Auth.Session} {h : Past} (hx : Accepted m r h x) :
    (s.handleUserByID r (some x)).Follows (Genuine m bcrypt r) (fun _ _ => True) h := by
  unfold handleUserByID
  cases hadmin : s.requireAdmin (some x) with
  | error refusal => exact Prog.follows_ret.2 trivial
  | ok admin =>
    cases hid : parseUserID r.path with
    | none => exact Prog.follows_ret.2 trivial
    | some userID =>
      simp only
      split_ifs
      · exact genuine_of_byAdmin hx hadmin (byAdmin_putUser hid h)
      · exact genuine_of_byAdmin hx hadmin (byAdmin_removeUser hid h)
      · exact Prog.follows_ret.2 trivial

theorem routine_handleUserAudit {ctx : Context} :
    (s.handleUserAudit r ctx).Only Auth.Op.Routine := by
  unfold handleUserAudit
  cases s.requireAdmin ctx with
  | error refusal => exact Prog.only_ret _
  | ok admin =>
    simp only
    split_ifs
    · exact Prog.only_ret _
    · cases parseLimit r 100 with
      | none => exact Prog.only_ret _
      | some limit =>
        refine ((Auth.only_listUserAudits limit).mono fun _ => Auth.Op.Reads.routine).bind
          fun answer => ?_
        cases answer <;> exact Prog.only_ret _

end QuickVps.Server
