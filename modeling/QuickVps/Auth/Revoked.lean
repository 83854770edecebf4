import QuickVps.Auth.Answers
import QuickVps.Auth.Cache
import QuickVps.Lib.Pool
import Mathlib.Data.List.Infix

/-!
# Revocation and failing statements

`Delete` and `DeleteByUserID` remove sessions from memory and then from the table, and drop the
error of the statement. Here any number of calls overlap, any statement may fail, and at any time a
new manager over the same store may take the place of the old one.

* `RevocationLasts` — once such a call has returned, no check that starts later accepts a session
  that the call has revoked, unless it was created again.
* `logout_undone` — a run in which one is accepted, after a failed statement.
* `Effective` — the statement does not fail while there is a session to delete, and no check writes
  into memory, after the call has removed a session from there, what it read before the statement.
* `revocationLasts_of_effective` — revocation lasts in every run of such steps.
-/

namespace QuickVps.Auth

/-! ## Managers -/

inductive Answer
  | created (s : Except String Session)
  | found (s : Option Session)
  | done

def SessionManager.serve (m : SessionManager) : Call → M Answer
  | .create user => do return .created (← m.create user)
  | .get token => do return .found (← m.get token)
  | .delete token => do
    m.delete token
    return .done
  | .deleteByUserID userID => do
    m.deleteByUserID userID
    return .done

/-- A manager, with the tables and its calls in progress. -/
structure Managed where
  manager : SessionManager
  calls : Pool.State World Call Op Op.Ans Answer

inductive ManagerAct
  | run (a : Pool.Act Call Choice)
  | restart (ttl : Int)

/-- After a restart the calls of the old manager take no further step. That they could only adds
runs. -/
def Managed.next (bcrypt : Bcrypt) (s : Managed) : ManagerAct → Option Managed
  | .run a =>
    (Pool.next s.manager.serve (exec bcrypt) s.calls a).map fun calls => { s with calls := calls }
  | .restart ttl =>
    some
      { manager := newSessionManager ttl true
        calls := { s.calls with shared := s.calls.shared.restarted } }

/-- A new manager with a store. -/
def Managed.start (ttl : Int) (w : World) : Managed :=
  ⟨newSessionManager ttl true, Pool.start w⟩

abbrev CallEvent := Pool.Event Call Op Op.Ans Answer

/-! ## The property -/

/-- The call is to revoke the session under the token. -/
def Call.Revokes (token : String) (x : Session) : Call → Prop
  | .delete t => t = token
  | .deleteByUserID userID => userID = x.userID
  | _ => False

/-- The session was created under the token after call `i` was started. -/
def CreatedSince (i : Nat) (token : String) (x : Session) : List CallEvent → Prop
  | [] => False
  | .did _ e r :: log =>
    e.Creates token x r ∧ (∃ op, .invoked i op ∈ log) ∨ CreatedSince i token x log
  | _ :: log => CreatedSince i token x log

/-- A check that starts after a revocation has returned accepts only what was created since. -/
def RevocationLasts (log : List CallEvent) : Prop :=
  ∀ later since before i op out j token x,
    log = later ++ .returned j (.found (some x)) :: (since ++ .invoked j (.get token) :: before) →
    .invoked i op ∈ before → .returned i out ∈ before → op.Revokes token x →
    CreatedSince i token x (since ++ .invoked j (.get token) :: before)

/-! ## Conditions on a run -/

/-- Call `i` is to revoke the session. -/
def RevokedBy (i : Nat) (token : String) (x : Session) (log : List CallEvent) : Prop :=
  ∃ op, .invoked i op ∈ log ∧ op.Revokes token x

/-- Call `i` has removed the session from memory. -/
def ForgottenBy (i : Nat) (token : String) (x : Session) (log : List CallEvent) : Prop :=
  ∃ e r, .did i e r ∈ log ∧ e.Forgets token x

/-- Call `i` has run its statement against the session. -/
def DeletedBy (i : Nat) (token : String) (x : Session) (log : List CallEvent) : Prop :=
  ∃ e r, .did i e r ∈ log ∧ e.Deletes token x

/-- The statement of a revocation does not fail while the table has a session to delete, but for one
that was created since. -/
def DeletesRows (w : World) (log : List CallEvent) (t : Nat) (c : Choice) (e : Op) : Prop :=
  ∀ token x, w.sessions token = some x → RevokedBy t token x log → e.Deletes token x →
    c.fault = none ∨ CreatedSince t token x log

/-- After call `i` has removed the session from memory, a check has written it back. -/
def PutBack (i : Nat) (token : String) (x : Session) (log : List CallEvent) : Prop :=
  ∃ since j before, log = since ++ .did j (.put token x) () :: before ∧
    ForgottenBy i token x before

/-- When a revocation runs its statement, no session has been written back that it is to delete, but
for one that was created since. -/
def NotPutBack (log : List CallEvent) (t : Nat) (e : Op) : Prop :=
  ∀ token x, RevokedBy t token x log → e.Deletes token x → PutBack t token x log →
    CreatedSince t token x log

/-- What a check writes into memory it has read after the statements of all revocations that have
run theirs, but for a session that was created since. -/
def ReadSince (log : List CallEvent) (t : Nat) (e : Op) : Prop :=
  ∀ token x, e = .put token x → ∀ i, RevokedBy i token x log → DeletedBy i token x log →
    DeletedBy i token x (Pool.beforeLast t log) ∨ CreatedSince i token x log

structure EffectiveCall (s : Managed) (t : Nat) (c : Choice) (e : Op) : Prop where
  deletes : DeletesRows s.calls.shared s.calls.log t c e
  notPutBack : NotPutBack s.calls.log t e
  readSince : ReadSince s.calls.log t e

/-- The next operation, if any, is such a one. -/
def Effective (s : Managed) : ManagerAct → Prop
  | .run a => Pool.OnCall (EffectiveCall s) s.calls a
  | .restart _ => True

/-! ## A session accepted after its logout -/

def signIn : List ManagerAct :=
  [.run (.invoke (.create ⟨1, "alice", .viewer⟩)), .run (.step 0 { token := "a" }),
    .run (.step 0 {}), .run (.step 0 {})]

/-- A login, a logout whose statement fails, and a check of the cookie. -/
def failedLogout : List ManagerAct :=
  signIn ++
    [.run (.invoke (.delete "a")), .run (.step 1 {}),
      .run (.step 1 { fault := some "database is locked" }), .run (.invoke (.get "a")),
      .run (.step 2 {}), .run (.step 2 {}), .run (.step 2 {}), .run (.step 2 {}),
      .run (.step 2 {})]

def aliceSession : Session := ⟨"a", 1, "alice", .viewer, 86400000000000⟩

def failedLogoutLog : List CallEvent :=
  [.returned 2 (.found (some aliceSession)), .did 2 (.put "a" aliceSession) (),
    .did 2 (.sql (.selectSession "a")) (.ok (some aliceSession)),
    .did 2 (.sql (.deleteExpiredSessions 0)) (.ok ()), .did 2 (.lookup "a") none, .did 2 .now 0,
    .invoked 2 (.get "a"), .returned 1 .done,
    .did 1 (.sql (.deleteSession "a")) (.error "database is locked"), .did 1 (.remove "a") (),
    .invoked 1 (.delete "a"), .returned 0 (.created (.ok aliceSession)),
    .did 0 (.create true aliceSession) (.ok ()), .did 0 .now 0, .did 0 .randomToken (.ok "a"),
    .invoked 0 (.create ⟨1, "alice", .viewer⟩)]

/-- **A failed statement undoes a logout.** -/
theorem logout_undone :
    ¬ ∀ (ttl : Int) (bcrypt : Bcrypt) (w : World) (acts : List ManagerAct) (s : Managed),
      Lts.run (Managed.next bcrypt) (.start ttl w) acts = some s →
        RevocationLasts s.calls.log := by
  intro hall
  have hrun : (Lts.run (Managed.next plainBcrypt) (.start 0 .empty) failedLogout).map
      (fun s => s.calls.log) = some failedLogoutLog := rfl
  obtain ⟨s, hs, hlog⟩ := Option.map_eq_some_iff.1 hrun
  have hlasts := hall 0 plainBcrypt .empty failedLogout s hs
  rw [hlog] at hlasts
  have hsince := hlasts [] [.did 2 (.put "a" aliceSession) (),
    .did 2 (.sql (.selectSession "a")) (.ok (some aliceSession)),
    .did 2 (.sql (.deleteExpiredSessions 0)) (.ok ()), .did 2 (.lookup "a") none, .did 2 .now 0]
    _ 1 (.delete "a") .done 2 "a" aliceSession rfl (by simp) (by simp) rfl
  simp [CreatedSince, Op.Creates] at hsince

/-! ## What the calls do -/

/-- What a call has done when it ends. -/
structure Ends (op : Call) (h : Past) (out : Answer) : Prop where
  found : ∀ token x, op = .get token → out = .found (some x) →
    ⟨.lookup token, some x⟩ ∈ h ∨ ⟨.sql (.selectSession token), .ok (some x)⟩ ∈ h
  revoked : ∀ token x, op.Revokes token x →
    (∃ call ∈ h, call.1.Forgets token x) ∧ ∃ call ∈ h, call.1.Deletes token x

/-- The log is one of calls that follow their conditions. -/
abbrev Orderly (log : List CallEvent) : Prop := Pool.Conforms (fun _ => ReadFirst) Ends log

variable {m : SessionManager} {bcrypt : Bcrypt}

theorem ends_get (m : SessionManager) (token : String) :
    (m.serve (.get token)).Follows ReadFirst (Ends (.get token)) [] := by
  unfold SessionManager.serve
  rw [Prog.follows_bind]
  refine (follows_checked (fun h _ he => readFirst_of_routine he h) m (fun _ => readFirst_put)
    token []).mono (fun _ _ _ hok => hok) fun h found _ hfound => ?_
  refine Prog.follows_ret.2 ⟨?_, fun _ _ hrevokes => hrevokes.elim⟩
  rintro _ x ⟨⟩ ⟨⟩
  exact (hfound x rfl).found.imp_right And.right

theorem ends_delete (hm : m.persistent = true) (token : String) :
    (m.serve (.delete token)).Follows ReadFirst (Ends (.delete token)) [] := by
  unfold SessionManager.serve
  rw [Prog.follows_bind]
  unfold SessionManager.delete
  rw [Prog.follows_bind]
  refine (Prog.follows_op (e := Op.remove token)).2 ⟨readFirst_of_puts rfl _, fun _ => ?_⟩
  rw [if_pos hm, Prog.follows_bind]
  unfold deleteSession
  rw [Prog.follows_bind]
  refine (Prog.follows_op (e := Op.sql (.deleteSession token))).2
    ⟨readFirst_of_puts rfl _, fun a => ?_⟩
  have hends : Ends (.delete token)
      [⟨.sql (.deleteSession token), a⟩, ⟨.remove token, ()⟩] .done := by
    refine ⟨nofun, fun _ _ hrevokes => ⟨?_, ?_⟩⟩
    · exact ⟨_, List.mem_cons_of_mem _ List.mem_cons_self, hrevokes⟩
    · exact ⟨_, List.mem_cons_self, hrevokes⟩
  cases a <;> exact Prog.follows_ret.2 (Prog.follows_ret.2 (Prog.follows_ret.2 hends))

theorem ends_deleteByUserID (hm : m.persistent = true) (userID : Int) :
    (m.serve (.deleteByUserID userID)).Follows ReadFirst (Ends (.deleteByUserID userID)) [] := by
  unfold SessionManager.serve
  rw [Prog.follows_bind]
  unfold SessionManager.deleteByUserID
  rw [Prog.follows_bind]
  refine (Prog.follows_op (e := Op.removeByUserID userID)).2 ⟨readFirst_of_puts rfl _, fun _ => ?_⟩
  rw [if_pos hm, Prog.follows_bind]
  unfold deleteSessionsByUserID
  rw [Prog.follows_bind]
  refine (Prog.follows_op (e := Op.sql (.deleteSessionsByUserID userID))).2
    ⟨readFirst_of_puts rfl _, fun a => ?_⟩
  have hends : Ends (.deleteByUserID userID)
      [⟨.sql (.deleteSessionsByUserID userID), a⟩, ⟨.removeByUserID userID, ()⟩] .done := by
    refine ⟨nofun, fun _ _ hrevokes => ⟨?_, ?_⟩⟩
    · exact ⟨_, List.mem_cons_of_mem _ List.mem_cons_self, hrevokes⟩
    · exact ⟨_, List.mem_cons_self, hrevokes⟩
  cases a <;> exact Prog.follows_ret.2 (Prog.follows_ret.2 (Prog.follows_ret.2 hends))

theorem ends_create (m : SessionManager) (user : User) :
    (m.serve (.create user)).Follows ReadFirst (Ends (.create user)) [] := by
  unfold SessionManager.serve
  rw [Prog.follows_bind]
  have hread : ∀ h e, e.puts = false → True → ReadFirst h e := fun h _ he _ =>
    readFirst_of_puts he h
  refine ((m.puts_create user).follows hread (fun _ _ _ _ _ => trivial) trivial).mono
    (fun _ _ _ hok => hok) fun h created _ _ => ?_
  exact Prog.follows_ret.2 ⟨nofun, fun _ _ hrevokes => hrevokes.elim⟩

theorem ends_serve (hm : m.persistent = true) (op : Call) :
    (m.serve op).Follows ReadFirst (Ends op) [] := by
  cases op with
  | create user => exact ends_create m user
  | get token => exact ends_get m token
  | delete token => exact ends_delete hm token
  | deleteByUserID userID => exact ends_deleteByUserID hm userID

/-! ## Where the sessions come from -/

section Logs

variable {i t : Nat} {token : String} {x : Session} {ev : CallEvent} {log : List CallEvent}

theorem CreatedSince.cons (h : CreatedSince i token x log) (ev : CallEvent) :
    CreatedSince i token x (ev :: log) := by
  cases ev with
  | did j e r => exact .inr h
  | invoked j op => exact h
  | returned j out => exact h

theorem CreatedSince.append (h : CreatedSince i token x log) (since : List CallEvent) :
    CreatedSince i token x (since ++ log) := by
  induction since with
  | nil => exact h
  | cons ev since ih => exact ih.cons ev

theorem PutBack.cons (h : PutBack i token x log) (ev : CallEvent) :
    PutBack i token x (ev :: log) := by
  obtain ⟨since, j, before, rfl, hforgotten⟩ := h
  exact ⟨ev :: since, j, before, rfl, hforgotten⟩

theorem createdSince_did {e : Op} {r : e.Ans} (hcreates : e.Creates token x r)
    (h : RevokedBy i token x log) : CreatedSince i token x (.did t e r :: log) := by
  obtain ⟨op, hop, -⟩ := h
  exact .inl ⟨hcreates, op, hop⟩

theorem revokedBy_did {e : Op} {r : e.Ans} (h : RevokedBy i token x (.did t e r :: log)) :
    RevokedBy i token x log := by
  obtain ⟨op, hop, hrevokes⟩ := h
  exact ⟨op, by simpa using hop, hrevokes⟩

theorem forgottenBy_did {e : Op} {r : e.Ans} (h : ForgottenBy i token x (.did t e r :: log)) :
    e.Forgets token x ∨ ForgottenBy i token x log := by
  obtain ⟨e', r', hdid, hforgets⟩ := h
  rcases List.mem_cons.1 hdid with heq | hdid
  · cases heq
    exact .inl hforgets
  · exact .inr ⟨e', r', hdid, hforgets⟩

theorem deletedBy_did {e : Op} {r : e.Ans} (h : DeletedBy i token x (.did t e r :: log)) :
    i = t ∧ e.Deletes token x ∨ DeletedBy i token x log := by
  obtain ⟨e', r', hdid, hdeletes⟩ := h
  rcases List.mem_cons.1 hdid with heq | hdid
  · cases heq
    exact .inl ⟨rfl, hdeletes⟩
  · exact .inr ⟨e', r', hdid, hdeletes⟩

/-- A call that has done something before was to revoke the session then. -/
theorem RevokedBy.before {since before : List CallEvent}
    (hlog : Orderly (since ++ before)) {e : Op} {r : e.Ans}
    (hdid : .did i e r ∈ before) (h : RevokedBy i token x (since ++ before)) :
    RevokedBy i token x before := by
  obtain ⟨newer, older, rfl⟩ := List.append_of_mem hdid
  obtain ⟨op, hop, hrevokes⟩ := h
  obtain ⟨op', hop', -⟩ := (hlog.append since).did
  have hmem : .invoked i op' ∈ newer ++ .did i e r :: older :=
    List.mem_append_right _ (List.mem_cons_of_mem _ hop')
  obtain rfl := hlog.invoked_unique hop (List.mem_append_right _ hmem)
  exact ⟨op, hmem, hrevokes⟩

end Logs

/-- Where the sessions come from that a revocation has removed, and those that a check has found
after that. -/
structure Tracked (w : World) (log : List CallEvent) : Prop where
  forgotten : ∀ i token x, w.memory token = some x → RevokedBy i token x log →
    ForgottenBy i token x log → CreatedSince i token x log ∨ PutBack i token x log
  memory : ∀ i token x, w.memory token = some x → RevokedBy i token x log →
    ForgottenBy i token x log → DeletedBy i token x log → CreatedSince i token x log
  stored : ∀ i token x, w.sessions token = some x → RevokedBy i token x log →
    DeletedBy i token x log → CreatedSince i token x log
  lookups : ∀ later before i j token x, log = later ++ .did j (.lookup token) (some x) :: before →
    RevokedBy i token x before → ForgottenBy i token x before → DeletedBy i token x before →
      CreatedSince i token x before
  reads : ∀ later before i j token x,
    log = later ++ .did j (.sql (.selectSession token)) (.ok (some x)) :: before →
    RevokedBy i token x before → DeletedBy i token x before → CreatedSince i token x before

theorem tracked_nil (w : World) : Tracked w [] where
  forgotten _ _ _ _ h := by simp [RevokedBy] at h
  memory _ _ _ _ h := by simp [RevokedBy] at h
  stored _ _ _ _ h := by simp [RevokedBy] at h
  lookups later _ _ _ _ _ h := by simp at h
  reads later _ _ _ _ _ h := by simp at h

/-- A new manager has nothing in memory. -/
theorem Tracked.restarted {w : World} {log : List CallEvent} (h : Tracked w log) :
    Tracked w.restarted log :=
  { h with forgotten := fun _ _ _ hx => (by cases hx), memory := fun _ _ _ hx => (by cases hx) }

/-- What a check has read after the statement of a revocation is new. -/
theorem Tracked.created_of_read {w : World} {log : List CallEvent} (h : Tracked w log)
    (hlog : Orderly log) {i t : Nat} {token : String} {x : Session}
    (hread : (Pool.hist t log).head? = some ⟨.sql (.selectSession token), .ok (some x)⟩)
    (hrevoked : RevokedBy i token x log) (hdeleted : DeletedBy i token x (Pool.beforeLast t log)) :
    CreatedSince i token x log := by
  obtain ⟨rest, hhist⟩ := List.head?_eq_some_iff.1 hread
  obtain ⟨⟨since, heq⟩, -⟩ := Pool.split_last hhist
  generalize Pool.beforeLast t log = before at hdeleted heq
  subst heq
  rw [List.append_cons] at hlog hrevoked
  obtain ⟨e, r, hdid, hdeletes⟩ := hdeleted
  have hsince := h.reads since before i t token x rfl (hrevoked.before hlog hdid)
    ⟨e, r, hdid, hdeletes⟩
  exact (hsince.cons _).append since

/-- **One operation keeps track of the sessions.** -/
theorem Tracked.did {s : Managed} {w' : World} (h : Tracked s.calls.shared s.calls.log) {t : Nat}
    {c : Choice} {e : Op} {r : e.Ans} (hexec : exec bcrypt c e s.calls.shared = some (r, w'))
    (hlog : Orderly s.calls.log)
    (hread : ReadFirst (Pool.hist t s.calls.log) e) (heffective : EffectiveCall s t c e) :
    Tracked w' (.did t e r :: s.calls.log) := by
  refine ⟨?_, ?_, ?_, ?_, ?_⟩
  · intro i token x hx hrevoked' hforgotten
    have hrevoked := revokedBy_did hrevoked'
    rcases memory_exec hexec hx with ⟨hold, hkept⟩ | hcreates | rfl
    · have hforgotten := (forgottenBy_did hforgotten).resolve_left hkept
      exact (h.forgotten i token x hold hrevoked hforgotten).imp (fun hs => hs.cons _)
        fun hb => hb.cons _
    · exact .inl (createdSince_did hcreates hrevoked)
    · exact .inr ⟨[], t, _, rfl, (forgottenBy_did hforgotten).resolve_left id⟩
  · intro i token x hx hrevoked' hforgotten' hdeleted
    have hrevoked := revokedBy_did hrevoked'
    rcases memory_exec hexec hx with ⟨hold, hkept⟩ | hcreates | rfl
    · have hforgotten := (forgottenBy_did hforgotten').resolve_left hkept
      rcases deletedBy_did hdeleted with ⟨rfl, hdeletes⟩ | hdeleted
      · rcases h.forgotten i token x hold hrevoked hforgotten with hsince | hback
        · exact hsince.cons _
        · exact (heffective.notPutBack token x hrevoked hdeletes hback).cons _
      · exact (h.memory i token x hold hrevoked hforgotten hdeleted).cons _
    · exact createdSince_did hcreates hrevoked
    · have hdeleted := (deletedBy_did hdeleted).resolve_left fun hd => hd.2
      rcases heffective.readSince token x rfl i hrevoked hdeleted with hbefore | hsince
      · exact (h.created_of_read hlog (hread token x rfl) hrevoked hbefore).cons _
      · exact hsince.cons _
  · intro i token x hx hrevoked' hdeleted
    have hrevoked := revokedBy_did hrevoked'
    rcases stored_exec hexec hx with ⟨hold, hkept⟩ | hcreates
    · rcases deletedBy_did hdeleted with ⟨rfl, hdeletes⟩ | hdeleted
      · rcases heffective.deletes token x hold hrevoked hdeletes with hworks | hsince
        · exact absurd hdeletes (hkept hworks)
        · exact hsince.cons _
      · exact (h.stored i token x hold hrevoked hdeleted).cons _
    · exact createdSince_did hcreates hrevoked
  · intro later before i j token x heq hrevoked hforgotten hdeleted
    cases later with
    | nil =>
      cases heq
      exact h.memory i token x (memory_of_lookup hexec) hrevoked hforgotten hdeleted
    | cons ev later =>
      exact h.lookups later before i j token x (List.cons.inj heq).2 hrevoked hforgotten hdeleted
  · intro later before i j token x heq hrevoked hdeleted
    cases later with
    | nil =>
      cases heq
      exact h.stored i token x (stored_of_select hexec) hrevoked hdeleted
    | cons ev later =>
      exact h.reads later before i j token x (List.cons.inj heq).2 hrevoked hdeleted

/-- An event that is no operation, and after which no call with an operation so far revokes more
than before. -/
theorem Tracked.note {w : World} {log : List CallEvent} (h : Tracked w log) {ev : CallEvent}
    (hev : ∀ j e r, ev ≠ .did j e r)
    (hold : ∀ i token x e r, RevokedBy i token x (ev :: log) → .did i e r ∈ log →
      RevokedBy i token x log) : Tracked w (ev :: log) := by
  have hmem {i e r} (hdid : .did i e r ∈ ev :: log) : .did i e r ∈ log :=
    (List.mem_cons.1 hdid).resolve_left (hev i e r).symm
  have htail {later before : List CallEvent} {j e r}
      (heq : ev :: log = later ++ .did j e r :: before) :
      ∃ later', log = later' ++ .did j e r :: before := by
    cases later with
    | nil => exact absurd (List.cons.inj heq).1 (hev j e r)
    | cons _ later => exact ⟨later, (List.cons.inj heq).2⟩
  refine ⟨?_, ?_, ?_, ?_, ?_⟩
  · rintro i token x hx hrevoked ⟨e, r, hdid, hforgets⟩
    have hrevoked := hold i token x e r hrevoked (hmem hdid)
    exact (h.forgotten i token x hx hrevoked ⟨e, r, hmem hdid, hforgets⟩).imp
      (fun hs => hs.cons ev) fun hb => hb.cons ev
  · rintro i token x hx hrevoked ⟨e, r, hdid, hforgets⟩ ⟨e', r', hdid', hdeletes⟩
    have hrevoked := hold i token x e r hrevoked (hmem hdid)
    exact (h.memory i token x hx hrevoked ⟨e, r, hmem hdid, hforgets⟩
      ⟨e', r', hmem hdid', hdeletes⟩).cons ev
  · rintro i token x hx hrevoked ⟨e, r, hdid, hdeletes⟩
    have hrevoked := hold i token x e r hrevoked (hmem hdid)
    exact (h.stored i token x hx hrevoked ⟨e, r, hmem hdid, hdeletes⟩).cons ev
  · intro later before i j token x heq
    obtain ⟨later', heq⟩ := htail heq
    exact h.lookups later' before i j token x heq
  · intro later before i j token x heq
    obtain ⟨later', heq⟩ := htail heq
    exact h.reads later' before i j token x heq

/-- A call that starts has removed nothing yet. -/
theorem Tracked.invoked {w : World} {log : List CallEvent} (h : Tracked w log) {t : Nat}
    (op : Call) (hnew : ∀ ev ∈ log, ev.thread ≠ t) : Tracked w (.invoked t op :: log) := by
  refine h.note nofun fun i token x e r hrevoked hdid => ?_
  obtain ⟨op', hop', hrevokes⟩ := hrevoked
  rcases List.mem_cons.1 hop' with heq | hop'
  · cases heq
    exact absurd rfl (hnew _ hdid)
  · exact ⟨op', hop', hrevokes⟩

theorem Tracked.settle {w : World} {log : List CallEvent} (h : Tracked w log) (t : Nat)
    (p : M Answer) : Tracked w (Pool.settle t p log) := by
  cases p with
  | call e k => exact h
  | ret out =>
    refine h.note nofun fun i token x e r hrevoked _ => ?_
    obtain ⟨op, hop, hrevokes⟩ := hrevoked
    exact ⟨op, by simpa using hop, hrevokes⟩

/-! ## Runs -/

/-- What every state of a run of effective steps satisfies. -/
structure Managed.Sound (s : Managed) : Prop where
  persistent : s.manager.persistent = true
  good : Pool.Good (fun _ => ReadFirst) Ends s.calls
  tracked : Tracked s.calls.shared s.calls.log

theorem Managed.sound_start (ttl : Int) (w : World) : (Managed.start ttl w).Sound where
  persistent := rfl
  good := Pool.good_start w
  tracked := tracked_nil w

theorem Managed.Sound.step {s s' : Managed} {a : ManagerAct} (h : s.Sound) (ha : Effective s a)
    (hnext : s.next bcrypt a = some s') : s'.Sound := by
  cases a with
  | restart ttl =>
    cases hnext
    exact ⟨rfl, ⟨h.good.log, h.good.invoked, h.good.follows, h.good.fresh⟩, h.tracked.restarted⟩
  | run a =>
    obtain ⟨calls, hcalls, rfl⟩ := Option.map_eq_some_iff.1 hnext
    refine ⟨h.persistent, Pool.good_next (ends_serve h.persistent) h.good hcalls, ?_⟩
    cases a with
    | invoke op =>
      cases hcalls
      have hnew : ∀ ev ∈ s.calls.log, ev.thread ≠ s.calls.threads.length := fun ev hev =>
        Nat.ne_of_lt (h.good.fresh ev hev)
      exact (h.tracked.invoked op hnew).settle _ _
    | step t c =>
      obtain ⟨op, e, k, r, w', ht, hexec, rfl⟩ := Pool.next_step hcalls
      have hread := (Prog.follows_call.1 (h.good.follows t _ ht)).1
      have heffective := Pool.OnCall.call (P := EffectiveCall s) ha ht
      exact (h.tracked.did hexec h.good.log hread heffective).settle _ _

/-- When a revocation has returned, it has removed the session from both copies. -/
theorem removed_of_returned {log : List CallEvent} (hlog : Orderly log)
    {i : Nat} {op : Call} {out : Answer} {token : String} {x : Session}
    (hop : .invoked i op ∈ log) (hret : .returned i out ∈ log) (hrevokes : op.Revokes token x) :
    ForgottenBy i token x log ∧ DeletedBy i token x log := by
  obtain ⟨later, before, rfl⟩ := List.append_of_mem hret
  obtain ⟨op', hop', hends⟩ := hlog.returned
  obtain rfl : op' = op :=
    hlog.invoked_unique (List.mem_append_right _ (List.mem_cons_of_mem _ hop')) hop
  have hmem {e : Op} {r : e.Ans} (hcall : ⟨e, r⟩ ∈ Pool.hist i before) :
      .did i e r ∈ later ++ .returned i out :: before :=
    List.mem_append_right _ (List.mem_cons_of_mem _ (Pool.mem_hist.1 hcall))
  obtain ⟨⟨⟨e, r⟩, hcall, hforgets⟩, ⟨e', r'⟩, hcall', hdeletes⟩ := hends.revoked token x hrevokes
  exact ⟨⟨e, r, hmem hcall, hforgets⟩, e', r', hmem hcall', hdeletes⟩

/-- **Revocation lasts in every run of effective steps**, whatever else fails, overlaps or is
restarted. -/
theorem revocationLasts_of_effective (ttl : Int) (bcrypt : Bcrypt) (w : World)
    (acts : List ManagerAct) (s : Managed)
    (hrun : Lts.run (Managed.next bcrypt) (.start ttl w) acts = some s)
    (hacts : Lts.Along (Managed.next bcrypt) Effective (.start ttl w) acts) :
    RevocationLasts s.calls.log := by
  have hsound : s.Sound :=
    Lts.invariant_along (fun _ _ _ h ha hnext => h.step ha hnext) (Managed.sound_start ttl w)
      hacts hrun
  intro later since before i op out j token x hlog hop hret hrevokes
  have hall := hsound.good.log
  have htracked := hsound.tracked
  rw [hlog] at hall htracked
  have hcheck : Orderly (since ++ .invoked j (.get token) :: before) :=
    (hall.append later).2
  have hbefore : Orderly before := (hcheck.append since).2
  obtain ⟨⟨e, r, hdid, hforgets⟩, e', r', hdid', hdeletes⟩ :=
    removed_of_returned hbefore hop hret hrevokes
  obtain ⟨op', hop', hends⟩ := hall.returned
  obtain rfl : op' = .get token := hcheck.invoked_unique hop' (by simp)
  -- The call that found the session comes after the revocation, so the session is new.
  rcases hends.found token x rfl rfl with hlookup | hread
  · obtain ⟨recent, mid, rfl⟩ :=
      List.append_of_mem (hcheck.did_since (Pool.mem_hist.1 hlookup))
    have hsince := htracked.lookups (later ++ .returned j (.found (some x)) :: recent)
      (mid ++ .invoked j (.get token) :: before) i j token x (by simp)
      ⟨op, by simp [hop], hrevokes⟩ ⟨e, r, by simp [hdid], hforgets⟩
      ⟨e', r', by simp [hdid'], hdeletes⟩
    rw [List.append_assoc]
    exact (hsince.cons _).append recent
  · obtain ⟨recent, mid, rfl⟩ :=
      List.append_of_mem (hcheck.did_since (Pool.mem_hist.1 hread))
    have hsince := htracked.reads (later ++ .returned j (.found (some x)) :: recent)
      (mid ++ .invoked j (.get token) :: before) i j token x (by simp)
      ⟨op, by simp [hop], hrevokes⟩ ⟨e', r', by simp [hdid'], hdeletes⟩
    rw [List.append_assoc]
    exact (hsince.cons _).append recent

/-- The event removes sessions from memory or from the table. -/
def removes : CallEvent → Bool
  | .did _ (.remove _) _ => true
  | .did _ (.removeByUserID _) _ => true
  | .did _ (.sql (.deleteSession _)) _ => true
  | .did _ (.sql (.deleteSessionsByUserID _)) _ => true
  | _ => false

def puts : CallEvent → Bool
  | .did _ e _ => e.puts
  | _ => false

/-- Nothing was removed before a write into memory. -/
def Unhurried (log : List CallEvent) : Prop :=
  ∀ before ∈ log.tails, ∀ ev ∈ before.head?, puts ev = true → ∀ ev' ∈ before, removes ev' = false

/-- The next operation, if any, does not fail, and so far and with it nothing is removed before a
write into memory. -/
def Untroubled (s : Managed) : ManagerAct → Prop
  | .run a =>
    Pool.OnCall (fun _ c e => c.fault = none ∧ Unhurried s.calls.log ∧
      (e.puts = true → ∀ ev ∈ s.calls.log, removes ev = false)) s.calls a
  | .restart _ => True

instance (log : List CallEvent) : Decidable (Unhurried log) :=
  inferInstanceAs (Decidable (∀ before ∈ log.tails, ∀ ev ∈ before.head?, _ → _))

instance (s : Managed) : ∀ a, Decidable (Untroubled s a)
  | .run a => inferInstanceAs (Decidable (Pool.OnCall _ s.calls a))
  | .restart _ => isTrue trivial

theorem removes_of_forgets {i : Nat} {e : Op} {r : e.Ans} {token : String} {x : Session}
    (h : e.Forgets token x) : removes (.did i e r) = true := by
  cases e with
  | remove | removeByUserID => rfl
  | _ => exact h.elim

theorem removes_of_deletes {i : Nat} {e : Op} {r : e.Ans} {token : String} {x : Session}
    (h : e.Deletes token x) : removes (.did i e r) = true := by
  cases e with
  | sql stmt =>
    cases stmt with
    | deleteSession | deleteSessionsByUserID => rfl
    | _ => exact h.elim
  | _ => exact h.elim

theorem effective_of_untroubled {s : Managed} {a : ManagerAct} (h : Untroubled s a) :
    Effective s a := by
  cases a with
  | restart ttl => trivial
  | run a =>
    cases a with
    | invoke op => trivial
    | step t c =>
      intro e he
      obtain ⟨hworks, hunhurried, hputs⟩ := h e he
      refine ⟨fun _ _ _ _ _ => .inl hworks, ?_, ?_⟩
      · rintro token x - - ⟨since, j, before, hlog, e', r', hdid, hforgets⟩
        have hnone := hunhurried (.did j (.put token x) () :: before)
          ((List.mem_tails _ _).2 ⟨since, hlog.symm⟩) _ rfl rfl _ (List.mem_cons_of_mem _ hdid)
        rw [removes_of_forgets hforgets] at hnone
        cases hnone
      · rintro token x rfl i - ⟨e', r', hdid, hdeletes⟩
        have hnone := hputs rfl _ hdid
        rw [removes_of_deletes hdeletes] at hnone
        cases hnone

/-- A login, a check of the cookie by a new manager, a logout, and another check. -/
def signOut : List ManagerAct :=
  signIn ++
    [.restart 0, .run (.invoke (.get "a")), .run (.step 1 {}), .run (.step 1 {}),
      .run (.step 1 {}), .run (.step 1 {}), .run (.step 1 {}),
      .run (.invoke (.delete "a")), .run (.step 2 {}), .run (.step 2 {}),
      .run (.invoke (.get "a")), .run (.step 3 {}), .run (.step 3 {}), .run (.step 3 {}),
      .run (.step 3 {})]

theorem revocationLasts_of_effective_signOut :
    ∃ s, Lts.run (Managed.next plainBcrypt) (.start 0 .empty) signOut = some s ∧
      RevocationLasts s.calls.log := by
  have henabled : (Lts.run (Managed.next plainBcrypt) (.start 0 .empty) signOut).isSome := by
    decide
  have huntroubled : Lts.Along (Managed.next plainBcrypt) Untroubled (.start 0 .empty) signOut := by
    decide
  have hrun := (Option.some_get henabled).symm
  exact ⟨_, hrun, revocationLasts_of_effective 0 plainBcrypt .empty signOut _ hrun
    (huntroubled.mono fun _ _ => effective_of_untroubled)⟩

end QuickVps.Auth
