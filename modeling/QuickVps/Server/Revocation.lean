import QuickVps.Auth.Answers
import QuickVps.Lib.Pool
import QuickVps.Server.Accounts

/-!
# Revocation

An update that carries a role or a password, and a deletion, first write the table of users and then
drop the sessions of the user, from memory and from the table of sessions. A login that was checked
before may put its session into memory after that.

* `FromFreshLogin` — a session comes from a login that was checked after the writes of an operation;
* `RevocationIsFinal` — after the operation has succeeded, only such sessions are accepted;
* `stale_login_accepted` — a run in which another one is accepted;
* `NotOvertaken` — no login and no check that puts a session into memory was overtaken by an
  operation since it read its row;
* `revocationIsFinal_of_notOvertaken` — revocation is final in every run of such steps.
-/

namespace QuickVps.Server

open Go Auth

/-! ## Concurrent requests -/

/-- A login, a check of a cookie, and a request to `handleUserByID` with the session of its
context. -/
inductive AccountOp where
  | login (r : Request)
  | check (token : String)
  | manage (r : Request) (ctx : Context)

inductive Outcome where
  | answered (resp : Response)
  | checked (session : Option Session)

def AccountOp.program (s : Server) (bcrypt : Bcrypt) : AccountOp → M Outcome
  | login r => do return .answered (← s.handleAuthLogin bcrypt r)
  | check token => do return .checked (← s.sessions.get token)
  | manage r ctx => do return .answered (← s.handleUserByID r ctx)

/-- The tables and the session manager with requests in progress, one operation at a time. -/
abbrev Requests := Pool.State World AccountOp Op Op.Ans Outcome

def Requests.next (s : Server) (bcrypt : Bcrypt) :
    Requests → Pool.Act AccountOp Choice → Option Requests :=
  Pool.next (AccountOp.program s bcrypt) (exec bcrypt)

abbrev Log := List (Pool.Event AccountOp Op Op.Ans Outcome)

/-! ## The property -/

/-- The user whose sessions the request revokes when it succeeds. -/
def revokedUser (r : Request) : Option Int :=
  (parseUserID r.path).filter fun _ =>
    r.method = "DELETE" ∨ r.method = "PUT" ∧
      (r.decode UpdateUserBody.field {}).any fun body =>
        body.role.isSome ∨ body.password.isSome

theorem revokedUser_cases {r : Request} {userID : Int} (h : revokedUser r = some userID) :
    parseUserID r.path = some userID ∧ (r.method = "DELETE" ∨ r.method = "PUT" ∧
      ∃ body, r.decode UpdateUserBody.field {} = some body ∧
        (body.role.isSome ∨ body.password.isSome)) := by
  obtain ⟨hid, hmethod⟩ := Option.filter_eq_some_iff.1 h
  refine ⟨hid, (of_decide_eq_true hmethod).imp_right fun hput => ⟨hput.1, ?_⟩⟩
  obtain ⟨body, hbody, hchanged⟩ := (Option.any_eq_true _ _).1 hput.2
  exact ⟨body, hbody, by simpa using hchanged⟩

/-- The statements of an update or a deletion that change a user. -/
def writesUser : Op → Bool
  | .sql (.updateRole _ _) => true
  | .sql (.updatePassword _ _) => true
  | .sql (.deleteUser _) => true
  | _ => false

/-- The statement that reads the row a login is checked against. -/
def authenticates : Op → Bool
  | .sql (.selectUserByName _) => true
  | _ => false

def creates (x : Session) : Op → Bool
  | .create _ y => y = x
  | _ => false

/-- The event is such a call of program `i`. -/
def didBy (i : Nat) (p : Op → Bool) : Pool.Event AccountOp Op Op.Ans Outcome → Bool
  | .did j e _ => j = i && p e
  | _ => false

/-- Program `t` has read the row of its user after the last write of program `i`. -/
def authenticatedAfter (i t : Nat) : Log → Bool
  | [] => false
  | ev :: log =>
    didBy t authenticates ev || !didBy i writesUser ev && authenticatedAfter i t log

/-- The session was created by a login that was checked after the writes of program `i`. -/
def FromFreshLogin (i : Nat) (x : Session) (log : Log) : Prop :=
  ∃ ev ∈ log, didBy ev.thread (creates x) ev = true ∧ authenticatedAfter i ev.thread log = true

instance (i : Nat) (x : Session) (log : Log) : Decidable (FromFreshLogin i x log) :=
  inferInstanceAs (Decidable (∃ ev ∈ log, _ ∧ _))

/-- A check that starts after an update or deletion has returned success accepts a session of the
user only from a login that was checked after the writes of that operation. -/
def RevocationIsFinal (log : Log) : Prop :=
  ∀ later since before i r ctx resp j token x,
    log =
      later ++ .returned j (.checked (some x)) :: (since ++ .invoked j (.check token) :: before) →
    .invoked i (.manage r ctx) ∈ before → .returned i (.answered resp) ∈ before →
    resp.status = 200 → revokedUser r = some x.userID →
    FromFreshLogin i x (since ++ .invoked j (.check token) :: before)

/-! ## Conditions on a run -/

def usesStore : Op → Bool
  | .sql _ => true
  | .create persistent _ => persistent
  | _ => false

/-- The next statement does not fail. -/
def StoreWorks : Requests → Pool.Act AccountOp Choice → Prop :=
  Pool.OnCall fun _ c e => usesStore e = true → c.fault = none

/-- Program `i` has dropped the sessions of the user from memory. -/
def Purged (i : Nat) (userID : Int) (log : Log) : Prop :=
  .did i (.removeByUserID userID) () ∈ log

/-- Program `i` has run the statement that drops the sessions of the user from the table. -/
def Emptied (i : Nat) (userID : Int) (log : Log) : Prop :=
  ∃ a, .did i (.sql (.deleteSessionsByUserID userID)) a ∈ log

/-- Program `i` has returned after it dropped the sessions of the user from memory. -/
def concluded (i : Nat) (userID : Int) : Log → Bool
  | [] => false
  | .returned j (.answered _) :: log =>
    j = i && log.any (didBy i fun e => e = .removeByUserID userID) || concluded i userID log
  | _ :: log => concluded i userID log

/-- When program `t` puts a session into memory, every operation that has dropped the sessions of
its user from memory was ahead of it: a login has read the user after the last write of the
operation, and a check has read the session after the statement that drops it from the table, or
after the operation has returned. -/
def NewerRead (log : Log) (t : Nat) : Op → Prop
  | .create _ x => ∀ i, Purged i x.userID log → authenticatedAfter i t log = true
  | .put _ x => ∀ i, Purged i x.userID log →
    Emptied i x.userID (Pool.beforeLast t log) ∨
      concluded i x.userID (Pool.beforeLast t log) = true
  | _ => True

/-- The next operation puts no session into memory whose read was overtaken. -/
def NotOvertaken (w : Requests) : Pool.Act AccountOp Choice → Prop :=
  Pool.OnCall (fun t _ e => NewerRead w.log t e) w

instance (w : Requests) (a : Pool.Act AccountOp Choice) : Decidable (StoreWorks w a) :=
  inferInstanceAs (Decidable (Pool.OnCall _ w a))

theorem eq_did_of_didBy {i : Nat} {e : Op} {ev : Pool.Event AccountOp Op Op.Ans Outcome}
    (h : didBy i (fun e' => e' = e) ev = true) : ∃ r, ev = .did i e r := by
  cases ev with
  | did j e' r =>
    simp only [didBy, Bool.and_eq_true, decide_eq_true_eq] at h
    obtain ⟨rfl, rfl⟩ := h
    exact ⟨r, rfl⟩
  | _ => cases h

instance (i : Nat) (userID : Int) (log : Log) : Decidable (Emptied i userID log) :=
  decidable_of_iff
    (∃ ev ∈ log, didBy i (fun e => e = .sql (.deleteSessionsByUserID userID)) ev = true) <| by
    constructor
    · rintro ⟨ev, hev, hdid⟩
      obtain ⟨r, rfl⟩ := eq_did_of_didBy hdid
      exact ⟨r, hev⟩
    · rintro ⟨a, ha⟩
      exact ⟨_, ha, by simp [didBy]⟩

/-- Only a program of the log can have dropped the sessions. -/
instance decidableForallPurged (userID : Int) (log : Log) {P : Nat → Prop}
    [∀ i, Decidable (P i)] : Decidable (∀ i, Purged i userID log → P i) :=
  decidable_of_iff (∀ ev ∈ log, didBy ev.thread (fun e => e = .removeByUserID userID) ev = true →
    P ev.thread) <| by
    constructor
    · intro h i hp
      exact h _ hp (by simp [didBy, Pool.Event.thread])
    · intro h ev hev hdid
      refine h ev.thread ?_
      obtain ⟨r, heq⟩ := eq_did_of_didBy hdid
      exact heq ▸ hev

instance (log : Log) (t : Nat) : ∀ e, Decidable (NewerRead log t e)
  | .create _ x => decidableForallPurged x.userID log
  | .put _ x => decidableForallPurged x.userID log
  | .sql _ | .now | .randomToken | .hashPassword _ | .lookup _ | .remove _ | .removeByUserID _ =>
    isTrue trivial

instance (w : Requests) (a : Pool.Act AccountOp Choice) : Decidable (NotOvertaken w a) :=
  inferInstanceAs (Decidable (Pool.OnCall _ w a))

/-! ## A session accepted after its revocation -/

def aliceAndBob : World where
  users := .seed [("alice", "secret-a", .admin), ("bob", "secret-b", .viewer)]
  sessions := fun _ => none
  audits := []
  memory := fun _ => none

def privateServer : Server where
  authDisabled := false
  sessions := ⟨1000, true⟩
  hasAlerts := false

def loginBob : Request where
  method := "POST"
  escapedPath := "/api/auth/login".toList
  path := "/api/auth/login".toList
  body := some (.obj [("username", .str "bob"), ("password", .str "secret-b")])

def changePassword : Request where
  method := "PUT"
  escapedPath := "/api/users/2".toList
  path := "/api/users/2".toList
  body := some (.obj [("password", .str "secret-c")])

def alice : Session := ⟨"a", 1, "alice", .admin, 1000⟩

def bob : Session := ⟨"b", 2, "bob", .viewer, 1000⟩

/-- The login reads the row with the old password, the update runs to its end, and only then the
login creates its session. -/
def overtakenLogin : List (Pool.Act AccountOp Choice) :=
  [.invoke (.login loginBob), .invoke (.manage changePassword (some alice)), .step 0 {},
    .step 1 {}, .step 1 {}, .step 1 {}, .step 1 {}, .step 1 {}, .step 1 {}, .step 1 {},
    .step 0 { token := "b" }, .step 0 {}, .step 0 {}, .invoke (.check "b"), .step 2 {}, .step 2 {}]

/-- The answer to the update. -/
def updatedBob : Response := writeJSON 200 (.obj [("user", User.json ⟨2, "bob", .viewer⟩)])

/-- What happens, the newest first. -/
def overtakenLog : Log :=
  [.returned 2 (.checked (some bob)), .did 2 (.lookup "b") (some bob), .did 2 .now 0,
    .invoked 2 (.check "b"),
    .returned 0 (.answered { updatedBob with setCookie := some (sessionCookie loginBob bob) }),
    .did 0 (.create true bob) (.ok ()), .did 0 .now 0, .did 0 .randomToken (.ok "b"),
    .returned 1 (.answered updatedBob),
    .did 1
      (.sql (.insertAudit 1 "alice" "update_user" 2 "bob"
        "\x7b\"new_role\":\"viewer\",\"password_changed\":true,\"role_changed\":false\x7d"))
      (.ok ()),
    .did 1 (.sql (.deleteSessionsByUserID 2)) (.ok ()), .did 1 (.removeByUserID 2) (),
    .did 1 (.sql (.selectUserByID 2)) (.ok (some ⟨2, "bob", .viewer⟩)),
    .did 1 (.sql (.updatePassword "secret-c" 2)) (.ok ()),
    .did 1 (.hashPassword "secret-c") (.ok "secret-c"),
    .did 1 (.sql (.selectUserByID 2)) (.ok (some ⟨2, "bob", .viewer⟩)),
    .did 0 (.sql (.selectUserByName "bob")) (.ok (some ⟨2, "bob", "secret-b", .viewer⟩)),
    .invoked 1 (.manage changePassword (some alice)), .invoked 0 (.login loginBob)]

/-- **A session survives its revocation**: the cookie of a login with the old password is accepted
after the update that changed the password has returned. -/
theorem stale_login_accepted :
    ¬ ∀ (s : Server) (bcrypt : Bcrypt) (w : World) (acts : List (Pool.Act AccountOp Choice))
        (w' : Requests),
      Lts.Along (Requests.next s bcrypt) StoreWorks (Pool.start w) acts →
      Lts.run (Requests.next s bcrypt) (Pool.start w) acts = some w' →
        RevocationIsFinal w'.log := by
  intro hall
  have hrun : (Lts.run (Requests.next privateServer plainBcrypt) (Pool.start aliceAndBob)
      overtakenLogin).map Pool.State.log = some overtakenLog := rfl
  obtain ⟨w', hw', hlog⟩ := Option.map_eq_some_iff.1 hrun
  have hworks : Lts.Along (Requests.next privateServer plainBcrypt) StoreWorks
      (Pool.start aliceAndBob) overtakenLogin := by
    decide
  have hfinal := hall privateServer plainBcrypt aliceAndBob overtakenLogin w' hworks hw'
  rw [hlog] at hfinal
  have hstale : ¬ FromFreshLogin 1 bob overtakenLog.tail := by decide
  refine hstale (hfinal [] [.did 2 (.lookup "b") (some bob), .did 2 .now 0] _ 1 changePassword
    (some alice) updatedBob 2 "b" bob rfl ?_ ?_ rfl rfl)
  · simp
  · simp

/-! ## What the requests call -/

/-- No sessions of a user were dropped from memory. -/
def NotPurged (h : Past) : Prop :=
  ∀ userID, ⟨.removeByUserID userID, ()⟩ ∉ h

/-- A user is written before the sessions are dropped, these are dropped from memory first, and a
check puts into memory what it has just read from the table, when there is one. -/
structure Ordered (m : SessionManager) (h : Past) (e : Op) : Prop where
  written : writesUser e = true → NotPurged h
  dropped : ∀ userID, e = .sql (.deleteSessionsByUserID userID) → ⟨.removeByUserID userID, ()⟩ ∈ h
  read : ReadFirst h e
  stored : e.puts = true → m.persistent = true

/-- The session was found in memory, or in the table when there is one. -/
def Found (m : SessionManager) (h : Past) (x : Session) : Prop :=
  (∃ token, ⟨.lookup token, some x⟩ ∈ h) ∨
    m.persistent = true ∧ ∃ token, ⟨.sql (.selectSession token), .ok (some x)⟩ ∈ h

theorem found_of_foundAt {m : SessionManager} {h : Past} {token : String}
    {x : Session} (hx : FoundAt m h token x) : Found m h x :=
  hx.imp (fun hlookup => ⟨token, hlookup⟩) fun hread => ⟨hread.1, token, hread.2⟩

/-- The sessions of the user were dropped from memory, and from the table when there is one. -/
def Dropped (m : SessionManager) (h : Past) (userID : Int) : Prop :=
  ⟨.removeByUserID userID, ()⟩ ∈ h ∧
    (m.persistent = true → ∃ a, ⟨.sql (.deleteSessionsByUserID userID), a⟩ ∈ h)

/-- Sessions that were dropped from memory were dropped from the table too. -/
def Complete (m : SessionManager) (h : Past) : Prop :=
  ∀ userID, ⟨.removeByUserID userID, ()⟩ ∈ h → Dropped m h userID

def Ends (m : SessionManager) (op : AccountOp) (h : Past) : Outcome → Prop
  | .checked none => True
  | .checked (some x) => Found m h x
  | .answered resp => Complete m h ∧ ∀ r ctx userID, op = .manage r ctx → resp.status = 200 →
    revokedUser r = some userID → Dropped m h userID

theorem Dropped.mono {m : SessionManager} {h h' : Past} {userID : Int} (hd : Dropped m h userID)
    (hsub : h ⊆ h') : Dropped m h' userID :=
  ⟨hsub hd.1, fun hm => (hd.2 hm).imp fun _ hmem => hsub hmem⟩

theorem NotPurged.complete {h : Past} (hh : NotPurged h) (m : SessionManager) : Complete m h :=
  fun userID hmem => absurd hmem (hh userID)

theorem Complete.cons {m : SessionManager} {h : Past} (hh : Complete m h)
    {call : Prog.Call Op Op.Ans} (hcall : ∀ userID, call ≠ ⟨.removeByUserID userID, ()⟩) :
    Complete m (call :: h) := by
  intro userID hmem
  rcases List.mem_cons.1 hmem with heq | hmem
  · exact absurd heq.symm (hcall userID)
  · exact (hh userID hmem).mono (List.subset_cons_self _ _)

/-- The sessions of one more user were dropped. -/
theorem Complete.append {m : SessionManager} {h new : Past} {userID : Int} (hh : Complete m h)
    (hd : Dropped m (new ++ h) userID)
    (hnew : ∀ userID', ⟨.removeByUserID userID', ()⟩ ∈ new → userID' = userID) :
    Complete m (new ++ h) := by
  intro userID' hmem
  rcases List.mem_append.1 hmem with hmem | hmem
  · exact hnew userID' hmem ▸ hd
  · exact (hh userID' hmem).mono (List.subset_append_right _ _)

/-- A call that changes neither the users nor the audits. -/
theorem ordered_of_harmless {m : SessionManager} {h : Past} {e : Op} (he : e.Harmless)
    (hread : ReadFirst h e) (hstored : e.puts = true → m.persistent = true) : Ordered m h e := by
  refine ⟨fun hwrites => ?_, ?_, hread, hstored⟩
  · cases e with
    | sql stmt =>
      cases stmt with
      | updateRole _ _ | updatePassword _ _ | deleteUser _ =>
        rcases he with ⟨-, hselects⟩ | hsession
        · cases hselects
        · cases hsession
      | _ => cases hwrites
    | _ => cases hwrites
  · rintro userID rfl
    rcases he with ⟨hsessions, -⟩ | hsession
    · cases hsessions
    · exact hsession.elim

theorem ordered_of_audits {m : SessionManager} {h : Past} {e : Op} (he : e.Audits) :
    Ordered m h e := by
  have hputs : e.puts = false := by
    cases e with
    | put => exact he.elim
    | _ => rfl
  refine ⟨fun hwrites => ?_, ?_, readFirst_of_puts hputs h, fun hp => ?_⟩
  · cases e with
    | sql stmt =>
      cases stmt with
      | updateRole _ _ | updatePassword _ _ | deleteUser _ => exact he.elim
      | _ => cases hwrites
    | _ => cases hwrites
  · rintro userID rfl
    exact he.elim
  · rw [hputs] at hp
    cases hp

section Follows

variable {m : SessionManager}

/-- Calls on the accounts drop no sessions. -/
theorem follows_of_onAccounts {α : Type} {p : M α} (hp : p.Only Op.OnAccounts)
    {h : Past} (hh : NotPurged h) :
    p.Follows (Ordered m) (fun h' _ => NotPurged h') h := by
  have hok : ∀ h' e, Op.OnAccounts e → NotPurged h' → Ordered m h' e := by
    intro h' e he hI
    refine ⟨fun _ => hI, ?_, ?_, ?_⟩
    · rintro userID rfl
      cases he
    · rintro token x rfl
      exact he.elim
    · intro hputs
      cases e with
      | put => exact he.elim
      | _ => cases hputs
  have hkeep : ∀ h' e r, Op.OnAccounts e → NotPurged h' → NotPurged (⟨e, r⟩ :: h') := by
    intro h' e r he hI userID hmem
    rcases List.mem_cons.1 hmem with heq | hmem
    · cases heq
      exact he
    · exact hI userID hmem
  exact hp.follows hok hkeep hh

theorem follows_deleteByUserID (userID : Int) {h : Past} (hh : Complete m h) :
    (m.deleteByUserID userID).Follows (Ordered m)
      (fun h' _ => Complete m h' ∧ Dropped m h' userID) h := by
  unfold SessionManager.deleteByUserID
  rw [Prog.follows_bind]
  refine (Prog.follows_op (e := Op.removeByUserID userID)).2 ⟨⟨?_, ?_, ?_, ?_⟩, fun _ => ?_⟩
  · exact fun hwrites => by cases hwrites
  · exact fun _ heq => by cases heq
  · exact readFirst_of_puts rfl h
  · exact fun hputs => by cases hputs
  cases hm : m.persistent with
  | false =>
    have hdropped : Dropped m ([⟨.removeByUserID userID, ()⟩] ++ h) userID :=
      ⟨List.mem_cons_self, fun hm' => by rw [hm] at hm'; cases hm'⟩
    refine Prog.follows_ret.2 ⟨hh.append hdropped fun userID' hmem => ?_, hdropped⟩
    cases List.mem_singleton.1 hmem
    rfl
  | true =>
    rw [if_pos rfl, Prog.follows_bind]
    unfold deleteSessionsByUserID
    rw [Prog.follows_bind]
    refine (Prog.follows_op (e := Op.sql (.deleteSessionsByUserID userID))).2
      ⟨⟨?_, ?_, ?_, ?_⟩, fun a => ?_⟩
    · exact fun hwrites => by cases hwrites
    · rintro _ ⟨⟩
      exact List.mem_cons_self
    · exact readFirst_of_puts rfl _
    · exact fun hputs => by cases hputs
    · have hdropped : Dropped m ([⟨.sql (.deleteSessionsByUserID userID), a⟩,
          ⟨.removeByUserID userID, ()⟩] ++ h) userID :=
        ⟨List.mem_cons_of_mem _ List.mem_cons_self, fun _ => ⟨a, List.mem_cons_self⟩⟩
      have hcomplete := hh.append hdropped fun userID' hmem => by
        rcases List.mem_cons.1 hmem with heq | hmem
        · cases heq
        · cases List.mem_singleton.1 hmem
          rfl
      cases a <;> exact Prog.follows_ret.2 (Prog.follows_ret.2 ⟨hcomplete, hdropped⟩)

end Follows

/-! ### The handlers -/

variable {s : Server} {bcrypt : Bcrypt}

theorem status_of_requireAdmin {ctx : Context} {refusal : Response}
    (h : s.requireAdmin ctx = .error refusal) : refusal.status ≠ 200 := by
  unfold requireAdmin at h
  cases hu : s.currentUser ctx with
  | none =>
    rw [hu] at h
    cases h
    decide
  | some user =>
    rw [hu] at h
    simp only at h
    split_ifs at h
    cases h
    decide

theorem status_of_updateError (err : Error) : (updateError err).status ≠ 200 := by
  cases err <;> simp [updateError, writeError, writeJSON]

theorem follows_revokeIfChanged (userID : Int) (body : UpdateUserBody) {h : Past}
    (hh : Complete s.sessions h) :
    (s.revokeIfChanged userID body).Follows (Ordered s.sessions)
      (fun h' _ => Complete s.sessions h' ∧
        ((body.role.isSome ∨ body.password.isSome) → Dropped s.sessions h' userID)) h := by
  unfold revokeIfChanged
  split_ifs with hchanged
  · refine (follows_deleteByUserID userID hh).mono (fun _ _ _ hok => hok) ?_
    exact fun _ _ _ hd => ⟨hd.1, fun _ => hd.2⟩
  · exact Prog.follows_ret.2 ⟨hh, fun hc => absurd hc hchanged⟩

/-- The audit comes last and leaves what was dropped. -/
theorem follows_logUserAudit {P : Prop} {userID : Int} (actorUserID : Int)
    (actorUsername action : String) (targetUserID : Int) (targetUsername details : String)
    {h : Past} (hh : Complete s.sessions h ∧ (P → Dropped s.sessions h userID)) :
    (logUserAudit actorUserID actorUsername action targetUserID targetUsername details).Follows
      (Ordered s.sessions)
      (fun h' _ => Complete s.sessions h' ∧ (P → Dropped s.sessions h' userID)) h := by
  have hordered : ∀ (h : Past) (e : Op), e.Audits →
      Complete s.sessions h ∧ (P → Dropped s.sessions h userID) → Ordered s.sessions h e :=
    fun _ _ he _ => ordered_of_audits he
  refine (only_logUserAudit _ _ _ _ _ _).follows hordered ?_ hh
  intro h' e r he hd
  refine ⟨hd.1.cons fun userID' heq => ?_, fun hp => (hd.2 hp).mono (List.subset_cons_self _ _)⟩
  cases heq
  exact he.elim

theorem follows_putUser (admin : User) (userID : Int) (r : Request) :
    (s.putUser admin userID r).Follows (Ordered s.sessions)
      (fun h' resp => Complete s.sessions h' ∧ (resp.status = 200 →
        ∀ body, r.decode UpdateUserBody.field {} = some body →
          (body.role.isSome ∨ body.password.isSome) → Dropped s.sessions h' userID)) [] := by
  unfold putUser
  have hnone : NotPurged [] := fun _ hmem => by cases hmem
  cases hbody : r.decode UpdateUserBody.field {} with
  | none => exact Prog.follows_ret.2 ⟨hnone.complete _, fun _ body hb => by cases hb⟩
  | some body =>
    simp only
    rw [Prog.follows_bind]
    refine (follows_of_onAccounts (only_updateUser _ _ _) hnone).mono (fun _ _ _ hok => hok) ?_
    intro h₁ updated _ hh₁
    cases updated with
    | error err =>
      exact Prog.follows_ret.2
        ⟨hh₁.complete _, fun hs => absurd hs (status_of_updateError err)⟩
    | ok updated =>
      simp only
      rw [Prog.follows_bind]
      refine (follows_revokeIfChanged userID body (hh₁.complete _)).mono (fun _ _ _ hok => hok) ?_
      intro h₂ _ _ hdropped
      rw [Prog.follows_bind]
      refine (follows_logUserAudit _ _ _ _ _ _ hdropped).mono (fun _ _ _ hok => hok) ?_
      intro h₃ _ _ hd
      refine Prog.follows_ret.2 ⟨hd.1, fun _ body' hb' => ?_⟩
      cases hb'
      exact hd.2

theorem follows_removeUser (admin : User) (userID : Int) :
    (s.removeUser admin userID).Follows (Ordered s.sessions)
      (fun h' resp => Complete s.sessions h' ∧
        (resp.status = 200 → Dropped s.sessions h' userID)) [] := by
  have hnone : NotPurged [] := fun _ hmem => by cases hmem
  unfold removeUser
  split_ifs
  · exact Prog.follows_ret.2 ⟨hnone.complete _, fun hs => by cases hs⟩
  · rw [Prog.follows_bind]
    refine (follows_of_onAccounts ((only_getUserByID _).mono fun _ => Op.Reads.onAccounts)
      hnone).mono (fun _ _ _ hok => hok) ?_
    intro h₁ found _ hh₁
    cases found with
    | error err =>
      refine Prog.follows_ret.2 ⟨hh₁.complete _, fun hs => ?_⟩
      cases err <;> cases hs
    | ok target =>
      simp only
      rw [Prog.follows_bind]
      refine (follows_of_onAccounts (only_deleteUser _) hh₁).mono (fun _ _ _ hok => hok) ?_
      intro h₂ deleted _ hh₂
      cases deleted with
      | error err =>
        refine Prog.follows_ret.2 ⟨hh₂.complete _, fun hs => ?_⟩
        cases err <;> cases hs
      | ok =>
        simp only
        rw [Prog.follows_bind]
        refine (follows_deleteByUserID userID (hh₂.complete _)).mono (fun _ _ _ hok => hok) ?_
        intro h₃ _ _ hd
        rw [Prog.follows_bind]
        refine (follows_logUserAudit (P := True) _ _ _ _ _ _ ⟨hd.1, fun _ => hd.2⟩).mono
          (fun _ _ _ hok => hok) ?_
        exact fun _ _ _ hd => Prog.follows_ret.2 ⟨hd.1, fun _ => hd.2 trivial⟩

theorem follows_handleUserByID (r : Request) (ctx : Context) :
    (s.handleUserByID r ctx).Follows (Ordered s.sessions)
      (fun h' resp => Complete s.sessions h' ∧ (resp.status = 200 →
        ∀ userID, revokedUser r = some userID → Dropped s.sessions h' userID)) [] := by
  have hnone : Complete s.sessions [] := fun _ hmem => by cases hmem
  unfold handleUserByID
  cases hadmin : s.requireAdmin ctx with
  | error refusal =>
    exact Prog.follows_ret.2 ⟨hnone, fun hs => absurd hs (status_of_requireAdmin hadmin)⟩
  | ok admin =>
    cases hid : parseUserID r.path with
    | none => exact Prog.follows_ret.2 ⟨hnone, fun hs => by cases hs⟩
    | some id =>
      simp only
      split_ifs with hput hdelete
      · refine (follows_putUser admin id r).mono (fun _ _ _ hok => hok) ?_
        refine fun h' resp _ hd => ⟨hd.1, fun hs userID hrev => ?_⟩
        obtain ⟨hid', hmethod⟩ := revokedUser_cases hrev
        rw [hid] at hid'
        cases hid'
        rcases hmethod with hdel | ⟨-, body, hbody, hchanged⟩
        · rw [hput] at hdel
          exact absurd hdel (by decide)
        · exact hd.2 hs body hbody hchanged
      · refine (follows_removeUser admin id).mono (fun _ _ _ hok => hok) ?_
        refine fun h' resp _ hd => ⟨hd.1, fun hs userID hrev => ?_⟩
        obtain ⟨hid', -⟩ := revokedUser_cases hrev
        rw [hid] at hid'
        cases hid'
        exact hd.2 hs
      · exact Prog.follows_ret.2 ⟨hnone, fun hs => by cases hs⟩

theorem puts_handleAuthLogin (r : Request) :
    (s.handleAuthLogin bcrypt r).Only fun e => e.puts = false := by
  have hreads (e : Op) (he : e.Reads) : e.puts = false := by
    cases e with
    | put token x => exact he.elim
    | _ => rfl
  unfold handleAuthLogin
  split_ifs
  · exact Prog.only_ret _
  · exact Prog.only_ret _
  · cases r.decode LoginBody.field {} with
    | none => exact Prog.only_ret _
    | some body =>
      refine ((only_authenticate _ _ _).mono hreads).bind fun found => ?_
      cases found with
      | error err => cases err <;> exact Prog.only_ret _
      | ok user =>
        refine (s.sessions.puts_create user).bind fun created => ?_
        cases created <;> exact Prog.only_ret _

/-- **Every request follows the order of its reads, writes and purges.** -/
theorem follows_program (op : AccountOp) :
    (op.program s bcrypt).Follows (Ordered s.sessions) (Ends s.sessions op) [] := by
  cases op with
  | login r =>
    have hordered : ∀ (h : Past) (e : Op), e.Harmless ∧ e.puts = false → NotPurged h →
        Ordered s.sessions h e := fun h e he _ =>
      ordered_of_harmless he.1 (readFirst_of_puts he.2 h) fun hputs => by
        rw [he.2] at hputs
        cases hputs
    have hkeep : ∀ (h : Past) (e : Op) (a : e.Ans), e.Harmless ∧ e.puts = false → NotPurged h →
        NotPurged (⟨e, a⟩ :: h) := by
      intro h e a he hh userID hmem
      rcases List.mem_cons.1 hmem with heq | hmem
      · cases heq
        exact he.1.elim id id
      · exact hh userID hmem
    have hnone : NotPurged [] := fun _ hmem => by cases hmem
    unfold AccountOp.program
    rw [Prog.follows_bind]
    refine (((only_handleAuthLogin r).and (puts_handleAuthLogin r)).follows hordered hkeep
      hnone).mono (fun _ _ _ hok => hok) fun h' resp _ hh => ?_
    exact Prog.follows_ret.2 ⟨hh.complete _, fun _ _ _ heq => by cases heq⟩
  | check token =>
    have hput : s.sessions.persistent = true → ∀ (h : Past) token (x : Session),
        ReadFirst (⟨.sql (.selectSession token), .ok (some x)⟩ :: h) (.put token x) ∧
          (Op.puts (.put token x) = true → s.sessions.persistent = true) := fun hm h token x =>
      ⟨readFirst_put h token x, fun _ => hm⟩
    have hroutine : ∀ (h : Past) (e : Op), e.Routine →
        ReadFirst h e ∧ (e.puts = true → s.sessions.persistent = true) := by
      intro h e he
      refine ⟨readFirst_of_routine he h, fun hputs => ?_⟩
      cases e with
      | put => exact he.elim
      | _ => cases hputs
    have hget : (s.sessions.get token).Follows
        (fun h e => ReadFirst h e ∧ (e.puts = true → s.sessions.persistent = true))
        (fun h out => ∀ x, out = some x → FoundAlive s.sessions h token x) [] :=
      follows_checked hroutine s.sessions hput token []
    unfold AccountOp.program
    rw [Prog.follows_bind]
    refine (hget.and_only (s.sessions.only_get token)).mono ?_ fun h' found _ hfound => ?_
    · exact fun _ _ _ hok => ordered_of_harmless (.inr hok.2) hok.1.1 hok.1.2
    · cases found with
      | none => exact Prog.follows_ret.2 trivial
      | some x => exact Prog.follows_ret.2 (found_of_foundAt (hfound x rfl).found)
  | manage r ctx =>
    unfold AccountOp.program
    rw [Prog.follows_bind]
    refine (follows_handleUserByID r ctx).mono (fun _ _ _ hok => hok) fun h' resp _ hd => ?_
    refine Prog.follows_ret.2 ⟨hd.1, fun r' ctx' userID heq hs hrev => ?_⟩
    cases heq
    exact hd.2 hs userID hrev

/-! ## Sessions of fresh logins -/

/-- The log is one of requests that follow their conditions. -/
abbrev Orderly (m : SessionManager) (log : Log) : Prop :=
  Pool.Conforms (fun _ => Ordered m) (Ends m) log

theorem FromFreshLogin.cons {i : Nat} {x : Session} {log : Log}
    {ev : Pool.Event AccountOp Op Op.Ans Outcome} (h : FromFreshLogin i x log)
    (hev : didBy i writesUser ev = false) : FromFreshLogin i x (ev :: log) := by
  obtain ⟨ev', hmem, hcreates, hafter⟩ := h
  refine ⟨ev', List.mem_cons_of_mem _ hmem, hcreates, ?_⟩
  simp [authenticatedAfter, hev, hafter]

theorem FromFreshLogin.append {i : Nat} {x : Session} {log : Log} (h : FromFreshLogin i x log)
    {later : Log} (hlater : ∀ ev ∈ later, didBy i writesUser ev = false) :
    FromFreshLogin i x (later ++ log) := by
  induction later with
  | nil => exact h
  | cons ev later ih =>
    exact (ih fun ev' hev' => hlater ev' (List.mem_cons_of_mem _ hev')).cons
      (hlater ev List.mem_cons_self)

/-- A program that has dropped the sessions of a user writes no user any more. -/
theorem no_write_after_purge {m : SessionManager} {i : Nat} {userID : Int} {later log : Log}
    (hlog : Orderly m (later ++ log)) (hpurged : Purged i userID log) :
    ∀ ev ∈ later, didBy i writesUser ev = false := by
  intro ev hev
  obtain ⟨newer, older, rfl⟩ := List.append_of_mem hev
  cases ev with
  | invoked j op => rfl
  | returned j out => rfl
  | did j e r =>
    by_cases hj : j = i
    · subst hj
      rw [List.append_assoc, List.cons_append] at hlog
      obtain ⟨op, -, hok⟩ := hlog.did
      have hmem : (⟨.removeByUserID userID, ()⟩ : Prog.Call Op Op.Ans) ∈
          Pool.hist j (older ++ log) :=
        Pool.mem_hist.2 (List.mem_append_right _ hpurged)
      cases hwrites : writesUser e with
      | true => exact absurd hmem (hok.written hwrites userID)
      | false => simp [didBy, hwrites]
    · simp [didBy, hj]

theorem purged_of_emptied {m : SessionManager} {i : Nat} {userID : Int} {log : Log}
    (hlog : Orderly m log) (h : Emptied i userID log) : Purged i userID log := by
  obtain ⟨a, ha⟩ := h
  obtain ⟨newer, older, rfl⟩ := List.append_of_mem ha
  obtain ⟨op, -, hok⟩ := hlog.did
  have hdropped := hok.dropped userID rfl
  exact List.mem_append_right _ (List.mem_cons_of_mem _ (Pool.mem_hist.1 hdropped))

theorem emptied_did {i t : Nat} {userID : Int} {e : Op} {r : e.Ans} {log : Log}
    (h : Emptied i userID (.did t e r :: log)) :
    e = .sql (.deleteSessionsByUserID userID) ∨ Emptied i userID log := by
  obtain ⟨a, ha⟩ := h
  rcases List.mem_cons.1 ha with heq | ha
  · cases heq
    exact .inl rfl
  · exact .inr ⟨a, ha⟩

/-- What the tables and the log satisfy while no insertion was overtaken. -/
structure Sound (w : World) (log : Log) : Prop where
  memory : ∀ i token x, w.memory token = some x → Purged i x.userID log → FromFreshLogin i x log
  stored : ∀ i token x, w.sessions token = some x → Emptied i x.userID log →
    FromFreshLogin i x log
  lookups : ∀ later before i j token x, log = later ++ .did j (.lookup token) (some x) :: before →
    Purged i x.userID before → FromFreshLogin i x before
  reads : ∀ later before i j token x,
    log = later ++ .did j (.sql (.selectSession token)) (.ok (some x)) :: before →
    Emptied i x.userID before → FromFreshLogin i x before

theorem sound_nil (w : World) : Sound w [] where
  memory _ _ _ _ h := by cases h
  stored _ _ _ _ h := by simp [Emptied] at h
  lookups later _ _ _ _ _ h := by simp at h
  reads later _ _ _ _ _ h := by simp at h

/-- Starting a request and returning from one change nothing. -/
theorem Sound.note {w : World} {log : Log} (h : Sound w log)
    {ev : Pool.Event AccountOp Op Op.Ans Outcome} (hev : ∀ j e r, ev ≠ .did j e r) :
    Sound w (ev :: log) := by
  have hwrite (i : Nat) : didBy i writesUser ev = false := by
    cases ev with
    | did j e r => exact absurd rfl (hev j e r)
    | _ => rfl
  have hmem {j e r} (hd : .did j e r ∈ ev :: log) : .did j e r ∈ log := by
    rcases List.mem_cons.1 hd with heq | hd
    · exact absurd heq.symm (hev j e r)
    · exact hd
  have htail {later before j e r} (hd : ev :: log = later ++ .did j e r :: before) :
      ∃ later', log = later' ++ .did j e r :: before := by
    cases later with
    | nil => exact absurd (List.cons.inj hd).1 (hev j e r)
    | cons _ later => exact ⟨later, (List.cons.inj hd).2⟩
  refine ⟨?_, ?_, ?_, ?_⟩
  · exact fun i token x hx hp => (h.memory i token x hx (hmem hp)).cons (hwrite i)
  · exact fun i token x hx he => (h.stored i token x hx (he.imp fun _ => hmem)).cons (hwrite i)
  · intro later before i j token x hlog hp
    obtain ⟨later', hlog'⟩ := htail hlog
    exact h.lookups later' before i j token x hlog' hp
  · intro later before i j token x hlog he
    obtain ⟨later', hlog'⟩ := htail hlog
    exact h.reads later' before i j token x hlog' he

theorem Sound.settle {w : World} {log : Log} (h : Sound w log) (i : Nat) (p : M Outcome) :
    Sound w (Pool.settle i p log) := by
  cases p with
  | ret out => exact h.note fun _ _ _ heq => by cases heq
  | call e k => exact h

/-! ### One operation -/

/-- The session of a fresh insertion comes from a fresh login. -/
theorem fromFreshLogin_create {i t : Nat} {persistent : Bool} {x : Session} {log : Log}
    {r : (Op.create persistent x).Ans} (h : authenticatedAfter i t log = true) :
    FromFreshLogin i x (.did t (.create persistent x) r :: log) := by
  refine ⟨_, List.mem_cons_self, ?_, ?_⟩
  · simp [didBy, creates, Pool.Event.thread]
  · simp [authenticatedAfter, didBy, writesUser, Pool.Event.thread, h]

/-- An operation that has returned after its purge has emptied the table. -/
theorem emptied_of_concluded {m : SessionManager} (hm : m.persistent = true) {i : Nat}
    {userID : Int} {log : Log} (hlog : Orderly m log) (h : concluded i userID log = true) :
    Emptied i userID log := by
  induction log with
  | nil => cases h
  | cons ev log ih =>
    have hcons : Emptied i userID log → Emptied i userID (ev :: log) := fun he =>
      he.imp fun _ => List.mem_cons_of_mem _
    cases ev with
    | invoked j op => exact hcons (ih hlog.2 h)
    | did j e r => exact hcons (ih hlog.2 h)
    | returned j out =>
      cases out with
      | checked x => exact hcons (ih hlog.2 h)
      | answered resp =>
        rcases Bool.or_eq_true_iff.1 h with hpurge | h
        · obtain ⟨hj, hany⟩ := Bool.and_eq_true_iff.1 hpurge
          obtain rfl := of_decide_eq_true hj
          obtain ⟨ev, hev, hdid⟩ := List.any_eq_true.1 hany
          obtain ⟨r, rfl⟩ := eq_did_of_didBy hdid
          obtain ⟨-, -, hcomplete, -⟩ := hlog.1
          obtain ⟨a, ha⟩ := (hcomplete userID (Pool.mem_hist.2 hev)).2 hm
          exact ⟨a, List.mem_cons_of_mem _ (Pool.mem_hist.1 ha)⟩
        · exact hcons (ih hlog.2 h)

/-- What a check has read after an operation has emptied the table is fresh. -/
theorem Sound.fresh_of_read {m : SessionManager} {w : World} {log : Log} (h : Sound w log)
    (hlog : Orderly m log) {i t : Nat} {token : String} {x : Session}
    (hok : Ordered m (Pool.hist t log) (.put token x))
    (hahead : Emptied i x.userID (Pool.beforeLast t log) ∨
      concluded i x.userID (Pool.beforeLast t log) = true) : FromFreshLogin i x log := by
  obtain ⟨rest, hhist⟩ := List.head?_eq_some_iff.1 (hok.read token x rfl)
  obtain ⟨⟨since, heq⟩, -⟩ := Pool.split_last hhist
  generalize Pool.beforeLast t log = before at hahead heq
  subst heq
  rw [List.append_cons] at hlog ⊢
  have hemptied := hahead.elim id (emptied_of_concluded (hok.stored rfl) (hlog.append _))
  have hfresh := h.reads since before i t token x rfl hemptied
  exact hfresh.append (no_write_after_purge hlog (purged_of_emptied (hlog.append _) hemptied))

/-- **One operation keeps the invariant**, unless it inserts a session whose read was overtaken. -/
theorem Sound.did {m : SessionManager} {w w' : World} {log : Log} (h : Sound w log) {t : Nat}
    {c : Choice} {e : Op} {r : e.Ans} (hlog : Orderly m (.did t e r :: log))
    (hexec : exec bcrypt c e w = some (r, w')) (hworks : usesStore e = true → c.fault = none)
    (hok : Ordered m (Pool.hist t log) e) (hnewer : NewerRead log t e) :
    Sound w' (.did t e r :: log) := by
  have hwrite {i : Nat} {userID : Int} (hp : Purged i userID log) :
      didBy i writesUser (.did t e r) = false :=
    no_write_after_purge (m := m) (show Orderly m ([.did t e r] ++ log) from hlog) hp _
      List.mem_cons_self
  refine ⟨?_, ?_, ?_, ?_⟩
  · intro i token x hx hp
    rcases memory_exec hexec hx with ⟨hold, hne⟩ | hcreates | rfl
    · rcases List.mem_cons.1 hp with heq | hp
      · cases heq
        exact absurd rfl hne
      · exact (h.memory i token x hold hp).cons (hwrite hp)
    · obtain ⟨persistent, rfl⟩ := hcreates.eq
      rcases List.mem_cons.1 hp with heq | hp
      · cases heq
      · exact fromFreshLogin_create (hnewer i hp)
    · rcases List.mem_cons.1 hp with heq | hp
      · cases heq
      · exact (h.fresh_of_read hlog.2 hok (hnewer i hp)).cons (hwrite hp)
  · intro i token x hx he
    rcases stored_exec hexec hx with ⟨hold, hne⟩ | hcreates
    · rcases emptied_did he with rfl | he
      · exact absurd rfl (hne (hworks rfl))
      · exact (h.stored i token x hold he).cons (hwrite (purged_of_emptied hlog.2 he))
    · obtain ⟨persistent, rfl⟩ := hcreates.eq
      rcases emptied_did he with heq | he
      · cases heq
      · exact fromFreshLogin_create (hnewer i (purged_of_emptied hlog.2 he))
  · intro later before i j token x heq hp
    cases later with
    | nil =>
      cases heq
      exact h.memory i token x (memory_of_lookup hexec) hp
    | cons ev later => exact h.lookups later before i j token x (List.cons.inj heq).2 hp
  · intro later before i j token x heq he
    cases later with
    | nil =>
      cases heq
      exact h.stored i token x (stored_of_select hexec) he
    | cons ev later => exact h.reads later before i j token x (List.cons.inj heq).2 he

/-! ## Revocation is final -/

theorem sound_next {w w' : Requests} {a : Pool.Act AccountOp Choice}
    (hgood : Pool.Good (fun _ => Ordered s.sessions) (Ends s.sessions) w) (h : Sound w.shared w.log)
    (hworks : StoreWorks w a) (hnewer : NotOvertaken w a)
    (hnext : Requests.next s bcrypt w a = some w') : Sound w'.shared w'.log := by
  cases a with
  | invoke op =>
    cases hnext
    exact (h.note fun _ _ _ heq => by cases heq).settle _ _
  | step i c =>
    obtain ⟨op, e, k, r, sh, hi, hexec, rfl⟩ := Pool.next_step hnext
    have hok : Ordered s.sessions (Pool.hist i w.log) e :=
      (Prog.follows_call.1 (hgood.follows i _ hi)).1
    have hlog : Orderly s.sessions (.did i e r :: w.log) :=
      ⟨⟨op, hgood.invoked i _ hi, hok⟩, hgood.log⟩
    exact (h.did hlog hexec (hworks.call hi) hok (hnewer.call hi)).settle _ _

/-- A success of an update or a deletion was preceded by both purges. -/
theorem purged_of_success {m : SessionManager} {log : Log} (hlog : Orderly m log)
    {i : Nat} {r : Request} {ctx : Context} {resp : Response} {userID : Int}
    (hop : .invoked i (.manage r ctx) ∈ log) (hret : .returned i (.answered resp) ∈ log)
    (hstatus : resp.status = 200) (hrev : revokedUser r = some userID) :
    Purged i userID log ∧ (m.persistent = true → Emptied i userID log) := by
  obtain ⟨later, before, rfl⟩ := List.append_of_mem hret
  obtain ⟨op, hop', hends⟩ := hlog.returned
  obtain rfl : op = .manage r ctx :=
    hlog.invoked_unique (List.mem_append_right _ (List.mem_cons_of_mem _ hop')) hop
  obtain ⟨hpurged, hemptied⟩ := hends.2 r ctx userID rfl hstatus hrev
  refine ⟨List.mem_append_right _ (List.mem_cons_of_mem _ (Pool.mem_hist.1 hpurged)), ?_⟩
  exact fun hm => (hemptied hm).imp fun a ha =>
    List.mem_append_right _ (List.mem_cons_of_mem _ (Pool.mem_hist.1 ha))

/-- **Revocation is final in every run in which no insertion was overtaken.** -/
theorem revocationIsFinal_of_notOvertaken (s : Server) (bcrypt : Bcrypt) (w : World)
    (acts : List (Pool.Act AccountOp Choice)) (w' : Requests)
    (hrun : Lts.run (Requests.next s bcrypt) (Pool.start w) acts = some w')
    (hworks : Lts.Along (Requests.next s bcrypt) StoreWorks (Pool.start w) acts)
    (hnewer : Lts.Along (Requests.next s bcrypt) NotOvertaken (Pool.start w) acts) :
    RevocationIsFinal w'.log := by
  obtain ⟨-, hsound⟩ := Lts.invariant_along
    (I := fun w =>
      Pool.Good (fun _ => Ordered s.sessions) (Ends s.sessions) w ∧ Sound w.shared w.log)
    (fun _ _ _ hw hG hnext => ⟨Pool.good_next follows_program hw.1 hnext,
      sound_next hw.1 hw.2 hG.1 hG.2 hnext⟩)
    ⟨Pool.good_start w, sound_nil w⟩ (hworks.and hnewer) hrun
  intro later since before i r ctx resp j token x hlog hop hret hstatus hrev
  have horderly : Orderly s.sessions w'.log := Pool.conforms_run follows_program hrun
  rw [hlog] at horderly hsound
  have hacc : Orderly s.sessions (since ++ .invoked j (.check token) :: before) :=
    (horderly.append later).2
  obtain ⟨hpurged, hemptied⟩ := purged_of_success (hacc.append since).2 hop hret hstatus hrev
  obtain ⟨op, hop', hfound⟩ := horderly.returned
  obtain rfl : op = .check token := hacc.invoked_unique hop' (by simp)
  -- The call that found the session comes after the success, so what it found is fresh.
  have hlast {mid recent : Log} (hsince : since = recent ++ mid)
      (hfresh : FromFreshLogin i x (mid ++ .invoked j (.check token) :: before)) :
      FromFreshLogin i x (since ++ .invoked j (.check token) :: before) := by
    rw [hsince, List.append_assoc] at hacc ⊢
    have hpurged' : Purged i x.userID (mid ++ .invoked j (.check token) :: before) :=
      List.mem_append_right _ (List.mem_cons_of_mem _ hpurged)
    exact hfresh.append (no_write_after_purge hacc hpurged')
  rcases hfound with ⟨token', hlookup⟩ | ⟨hm, token', hread⟩
  · obtain ⟨recent, mid, rfl⟩ :=
      List.append_of_mem (hacc.did_since (Pool.mem_hist.1 hlookup))
    refine hlast (List.append_cons _ _ _)
      (hsound.lookups (later ++ .returned j (.checked (some x)) :: recent) _ i j token' x
        (by simp) ?_)
    exact List.mem_append_right _ (List.mem_cons_of_mem _ hpurged)
  · obtain ⟨recent, mid, rfl⟩ :=
      List.append_of_mem (hacc.did_since (Pool.mem_hist.1 hread))
    refine hlast (List.append_cons _ _ _)
      (hsound.reads (later ++ .returned j (.checked (some x)) :: recent) _ i j token' x
        (by simp) ?_)
    exact (hemptied hm).imp fun _ ha => List.mem_append_right _ (List.mem_cons_of_mem _ ha)

/-- Bob has a session in the table, as after a restart. -/
def bobReturns : World :=
  { aliceAndBob with sessions := Function.update (fun _ => none) "b" (some bob) }

/-- A check puts the session into memory, and after the update another one is refused. The login
that follows has the new password. -/
def newPassword : List (Pool.Act AccountOp Choice) :=
  [.invoke (.check "b"), .step 0 {}, .step 0 {}, .step 0 {}, .step 0 {}, .step 0 {},
    .invoke (.manage changePassword (some alice)), .step 1 {}, .step 1 {}, .step 1 {}, .step 1 {},
    .step 1 {}, .step 1 {}, .step 1 {},
    .invoke (.check "b"), .step 2 {}, .step 2 {}, .step 2 {}, .step 2 {},
    .invoke (.login { loginBob with
      body := some (.obj [("username", .str "bob"), ("password", .str "secret-c")]) }),
    .step 3 {}, .step 3 { token := "c" }, .step 3 {}, .step 3 {},
    .invoke (.check "c"), .step 4 {}, .step 4 {}]

theorem revocationIsFinal_of_notOvertaken_newPassword :
    ∃ w', Lts.run (Requests.next privateServer plainBcrypt) (Pool.start bobReturns) newPassword =
      some w' ∧ RevocationIsFinal w'.log := by
  have henabled : (Lts.run (Requests.next privateServer plainBcrypt) (Pool.start bobReturns)
      newPassword).isSome := by
    decide
  have hrun := (Option.some_get henabled).symm
  exact ⟨_, hrun, revocationIsFinal_of_notOvertaken privateServer plainBcrypt bobReturns
    newPassword _ hrun (by decide) (by decide)⟩

end QuickVps.Server
