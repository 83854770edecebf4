import QuickVps.Auth.HalfUpdate
import QuickVps.Lib.Lts
import Mathlib.Data.List.Forall2

/-!
# The directory of users

What the calls of the user store and their answers say about the users: who exists, with which role,
and which password was stored last. The calls run one after another, on a store that does not fail.

* `Account`, `record` — the directory, and what a call with its answer changes in it.
* `InStep` — the table has a row for each account, whose hash is one of the account's password;
  every call keeps this (`step_directory`).
* `LatestPassword` — a login succeeds exactly with the name and the last password of an account, no
  name is taken twice, and no id is issued twice.
* `latestPassword_of_exact` — this holds after every run, when `bcrypt` accepts exactly the password
  that was hashed.
-/

namespace QuickVps.Auth

open Go

/-! ## Calls -/

inductive StoreCall
  | createUser (username password role : String)
  | updateUser (id : Int) (role password : Option String)
  | deleteUser (id : Int)
  | authenticate (username password : String)

/-- A call with its answer. -/
inductive StoreEvent
  | createUser (username password role : String) (answer : Except Error User)
  | updateUser (id : Int) (role password : Option String) (answer : Except Error User)
  | deleteUser (id : Int) (answer : Except Error Unit)
  | authenticate (username password : String) (answer : Except Error User)

def StoreCall.program (bcrypt : Bcrypt) : StoreCall → M StoreEvent
  | .createUser username password role => do
    return .createUser username password role (← Auth.createUser username password role)
  | .updateUser id role password => do
    return .updateUser id role password (← Auth.updateUser id role password)
  | .deleteUser id => do return .deleteUser id (← Auth.deleteUser id)
  | .authenticate username password => do
    return .authenticate username password (← Auth.authenticate bcrypt username password)

/-- The tables, and the calls so far. -/
structure Served where
  world : World
  events : List StoreEvent

/-- One call, with the choices for its operations. -/
def Served.next (bcrypt : Bcrypt) (s : Served) (a : StoreCall × List Choice) : Option Served :=
  ((a.1.program bcrypt).run (reliably bcrypt) a.2 s.world).map fun r =>
    { world := r.2.2, events := s.events ++ [r.1] }

/-! ## The directory -/

/-- `password` is the one that was stored last. -/
structure Account where
  id : Int
  username : String
  role : Role
  password : String

def Account.user (a : Account) : User := ⟨a.id, a.username, a.role⟩

/-- Change the account with this id. -/
def change (id : Int) (f : Account → Account) (accounts : List Account) : List Account :=
  accounts.map fun a => if a.id = id then f a else a

def changeRole (id : Int) (role : Option String) (accounts : List Account) : List Account :=
  match role.bind normalizeRole with
  | none => accounts
  | some clean => change id (fun a => { a with role := clean }) accounts

def changePassword (id : Int) (password : Option String) (accounts : List Account) :
    List Account :=
  match password with
  | none => accounts
  | some password => change id (fun a => { a with password := password }) accounts

/-- The errors with which `updateUser` stops before it has written the role. The others are about
the password. -/
def Error.beforeRole : Error → Bool
  | .notFound => true
  | .invalidRole => true
  | .lastAdmin => true
  | _ => false

def record (accounts : List Account) : StoreEvent → List Account
  | .createUser _ password _ (.ok user) =>
    accounts ++ [⟨user.id, user.username, user.role, password⟩]
  | .updateUser id role password (.ok _) => changePassword id password (changeRole id role accounts)
  | .updateUser id role _ (.error err) =>
    if err.beforeRole then accounts else changeRole id role accounts
  | .deleteUser id (.ok ()) => accounts.filter fun a => a.id ≠ id
  | _ => accounts

/-- The accounts after these calls, from an empty table. -/
def directory (events : List StoreEvent) : List Account := events.foldl record []

/-- The id that the call has issued. -/
def StoreEvent.issued : StoreEvent → Option Int
  | .createUser _ _ _ (.ok user) => some user.id
  | _ => none

/-! ## The property -/

/-- A login, with a password that bcrypt reads to its end, answers with the account that has this
username and this password, and succeeds only if there is one. -/
def AnsweredFrom (accounts : List Account) (username password : String)
    (answer : Except Error User) : Prop :=
  password.utf8ByteSize ≤ 72 → ∀ user, answer = .ok user ↔
    ∃ a ∈ accounts, a.username = trim username ∧ a.password = password ∧ a.user = user

/-- Every login so far was answered from the directory of the calls before it. -/
def Logins (events : List StoreEvent) : Prop :=
  ∀ before after username password answer,
    events = before ++ .authenticate username password answer :: after →
    AnsweredFrom (directory before) username password answer

structure LatestPassword (events : List StoreEvent) : Prop where
  logins : Logins events
  unique : ((directory events).map Account.username).Nodup
  fresh : (events.filterMap StoreEvent.issued).Nodup

/-- `CompareHashAndPassword` accepts exactly the password that was hashed, among those that bcrypt
can tell apart. -/
def Bcrypt.Exact (bcrypt : Bcrypt) : Prop :=
  ∀ salt password hash, bcrypt.generate salt password = .ok hash →
    ∀ other, other.utf8ByteSize ≤ 72 → (bcrypt.compare hash other = true ↔ other = password)

/-! ## The table and the directory -/

variable {bcrypt : Bcrypt}

/-- The row is the account's: it has a hash of its password, and a username that was trimmed and is
long enough. -/
structure Stored (bcrypt : Bcrypt) (r : UserRow) (a : Account) : Prop where
  user : r.user = a.user
  hash : ∃ salt, bcrypt.generate salt a.password = .ok r.passwordHash
  username : normalizeUsername r.username = some r.username

/-- The rows are those of the accounts, and no issued id is above the sequence of the table. -/
structure InStep (bcrypt : Bcrypt) (t : Users) (events : List StoreEvent) : Prop where
  rows : List.Forall₂ (Stored bcrypt) t.rows (directory events)
  issued : ∀ id ∈ events.filterMap StoreEvent.issued, id ≤ t.seq
  fresh : (events.filterMap StoreEvent.issued).Nodup

/-! ### Rows and accounts -/

/-- A username that was trimmed is accepted as it is. -/
theorem normalizeUsername_idem {username clean : String}
    (h : normalizeUsername username = some clean) : normalizeUsername clean = some clean := by
  unfold normalizeUsername at h ⊢
  simp only at h ⊢
  split_ifs at h with hshort
  cases h
  rw [trim_trim, if_neg hshort]

theorem trim_of_normalizeUsername {username clean : String}
    (h : normalizeUsername username = some clean) : clean = trim username := by
  unfold normalizeUsername at h
  simp only at h
  split_ifs at h
  exact (Option.some.inj h).symm

theorem normalizeUsername_trim (username : String) :
    normalizeUsername (trim username) = normalizeUsername username := by
  unfold normalizeUsername
  simp only [trim_trim]

section Rows

variable {t t' : Users} {accounts : List Account} {r : UserRow} {a : Account} {id : Int}

theorem Stored.id_eq (h : Stored bcrypt r a) : r.id = a.id := congrArg User.id h.user

theorem Stored.username_eq (h : Stored bcrypt r a) : r.username = a.username :=
  congrArg User.username h.user

/-- A row and an account that are changed alike. -/
theorem stored_change {f : UserRow → UserRow} {g : Account → Account}
    (hfg : ∀ r a, Stored bcrypt r a → Stored bcrypt (f r) (g a)) {rows : List UserRow}
    (h : List.Forall₂ (Stored bcrypt) rows accounts) (id : Int) :
    List.Forall₂ (Stored bcrypt) (rows.map fun r => if r.id = id then f r else r)
      (change id g accounts) := by
  refine List.rel_map (fun r a hra => ?_) h
  rw [hra.id_eq]
  split_ifs
  · exact hfg r a hra
  · exact hra

theorem stored_roleSet (h : List.Forall₂ (Stored bcrypt) t.rows accounts) (id : Int)
    (role : Option String) :
    List.Forall₂ (Stored bcrypt) (roleSet t id role).rows (changeRole id role accounts) := by
  unfold roleSet changeRole
  cases role.bind normalizeRole with
  | none => exact h
  | some clean =>
    have hset : ∀ r a, Stored bcrypt r a →
        Stored bcrypt { r with role := clean } { a with role := clean } := by
      intro r a hra
      refine ⟨?_, hra.hash, hra.username⟩
      rw [UserRow.user, Account.user, hra.id_eq, hra.username_eq]
    exact stored_change hset h id

theorem stored_setPassword (h : List.Forall₂ (Stored bcrypt) t.rows accounts) (id : Int)
    {salt : Nat} {password hash : String} (hhash : bcrypt.generate salt password = .ok hash) :
    List.Forall₂ (Stored bcrypt) (t.setPassword id hash).rows
      (changePassword id (some password) accounts) := by
  have hset : ∀ r a, Stored bcrypt r a →
      Stored bcrypt { r with passwordHash := hash } { a with password := password } :=
    fun _ _ hra => ⟨hra.user, ⟨salt, hhash⟩, hra.username⟩
  exact stored_change hset h id

theorem stored_delete (h : List.Forall₂ (Stored bcrypt) t.rows accounts) (id : Int) :
    List.Forall₂ (Stored bcrypt) (t.delete id).rows (accounts.filter fun a => a.id ≠ id) :=
  List.rel_filter (fun r a hra => by simp [hra.id_eq]) h

theorem seq_roleSet (t : Users) (id : Int) (role : Option String) :
    (roleSet t id role).seq = t.seq := by
  unfold roleSet
  cases role.bind normalizeRole <;> rfl

theorem exists_roleSet (hrow : t.find id = some r) (role : Option String) :
    ∃ r', (roleSet t id role).find id = some r' := by
  unfold roleSet
  cases role.bind normalizeRole with
  | none => exact ⟨r, hrow⟩
  | some clean =>
    refine ⟨{ r with role := clean }, ?_⟩
    rw [Users.find_setRole, if_pos rfl, hrow]
    rfl

theorem exists_row (h : List.Forall₂ (Stored bcrypt) t.rows accounts) (ha : a ∈ accounts) :
    ∃ r ∈ t.rows, Stored bcrypt r a := by
  obtain ⟨n, hn, rfl⟩ := List.mem_iff_getElem.1 ha
  obtain ⟨hlen, hget⟩ := List.forall₂_iff_get.1 h
  exact ⟨_, List.get_mem _ ⟨n, hlen ▸ hn⟩, hget n (hlen ▸ hn) hn⟩

theorem exists_account (h : List.Forall₂ (Stored bcrypt) t.rows accounts) (hr : r ∈ t.rows) :
    ∃ a ∈ accounts, Stored bcrypt r a := by
  obtain ⟨n, hn, rfl⟩ := List.mem_iff_getElem.1 hr
  obtain ⟨hlen, hget⟩ := List.forall₂_iff_get.1 h
  exact ⟨_, List.get_mem _ ⟨n, hlen ▸ hn⟩, hget n hn (hlen ▸ hn)⟩

theorem usernames_eq (h : List.Forall₂ (Stored bcrypt) t.rows accounts) :
    t.rows.map UserRow.username = accounts.map Account.username :=
  List.forall₂_eq_eq_eq ▸ List.rel_map (fun _ _ hra => hra.username_eq) h

/-- A row is found by its username, as no other row has it. -/
theorem findByName_eq_some {username : String} :
    t.findByName username = some r ↔ r ∈ t.rows ∧ r.username = username := by
  constructor
  · intro h
    exact ⟨List.mem_of_find?_eq_some h, by simpa using List.find?_some h⟩
  · rintro ⟨hr, rfl⟩
    cases hfound : t.findByName r.username with
    | none =>
      have hne := List.find?_eq_none.1 hfound r hr
      simp at hne
    | some r' =>
      have hr' : r'.username = r.username := by simpa using List.find?_some hfound
      rw [List.inj_on_of_nodup_map t.unique (List.mem_of_find?_eq_some hfound) hr hr']

end Rows

/-! ## What the calls answer and write -/

section Runs

variable {cs cs' : List Choice} {w w' : World}

theorem authenticate_reliably {username password : String} {a : Except Error User}
    (h : (authenticate bcrypt username password).run (reliably bcrypt) cs w = some (a, cs', w')) :
    w' = w ∧ ∀ user, a = .ok user ↔
      ∃ r ∈ w.users.rows, normalizeUsername username = some r.username ∧
        bcrypt.compare r.passwordHash password = true ∧ r.user = user := by
  unfold authenticate at h
  cases hname : normalizeUsername username with
  | none =>
    rw [hname] at h
    obtain ⟨rfl, -, rfl⟩ := Prog.run_ret h
    exact ⟨rfl, by simp⟩
  | some clean =>
    rw [hname] at h
    obtain ⟨found, ds, t, hstmt, hrest⟩ := Prog.run_bind h
    obtain ⟨c, -, hexec⟩ := run_stmt_reliably hstmt
    cases hexec
    cases hfound : w.users.findByName clean with
    | none =>
      rw [hfound] at hrest
      obtain ⟨rfl, -, rfl⟩ := Prog.run_ret hrest
      refine ⟨rfl, fun user => iff_of_false (by simp) ?_⟩
      rintro ⟨r, hr, hclean, -⟩
      rw [findByName_eq_some.2 ⟨hr, (Option.some.inj hclean).symm⟩] at hfound
      cases hfound
    | some row =>
      obtain ⟨hrow, hrowname⟩ := findByName_eq_some.1 hfound
      have honly : ∀ r ∈ w.users.rows, r.username = clean → r = row := fun r hr hr' =>
        List.inj_on_of_nodup_map w.users.unique hr hrow (hr'.trans hrowname.symm)
      rw [hfound] at hrest
      simp only at hrest
      split_ifs at hrest with hcompare
      · obtain ⟨rfl, -, rfl⟩ := Prog.run_ret hrest
        refine ⟨rfl, fun user => ⟨?_, ?_⟩⟩
        · rintro ⟨⟩
          exact ⟨row, hrow, by rw [hrowname], hcompare, rfl⟩
        · rintro ⟨r, hr, hclean, -, rfl⟩
          rw [honly r hr (Option.some.inj hclean).symm]
      · obtain ⟨rfl, -, rfl⟩ := Prog.run_ret hrest
        refine ⟨rfl, fun user => iff_of_false (by simp) ?_⟩
        rintro ⟨r, hr, hclean, hr', -⟩
        rw [honly r hr (Option.some.inj hclean).symm] at hr'
        exact hcompare hr'

theorem changeRole_writes {current : User} {id : Int} {role : Option String}
    {a : Except Error Unit}
    (h : (role.elim (pure (.ok ())) (updateRole current id) : M (Except Error Unit)).run
      (reliably bcrypt) cs w = some (a, cs', w')) :
    (∃ err, a = .error err ∧ err.beforeRole = true ∧ w' = w) ∨
      a = .ok () ∧ w'.users = roleSet w.users id role := by
  cases role with
  | none =>
    obtain ⟨rfl, -, rfl⟩ := Prog.run_ret h
    exact .inr ⟨rfl, rfl⟩
  | some role =>
    rw [Option.elim_some] at h
    rcases updateRole_reliably h with ⟨err, rfl, herr, rfl, -⟩ | ⟨clean, rfl, hmay, rfl⟩
    · have hbefore : err.beforeRole = true := by rcases herr with rfl | rfl <;> rfl
      exact .inl ⟨err, rfl, hbefore, rfl⟩
    · exact .inr ⟨rfl, by simp [roleSet, hmay.1]⟩

theorem changePassword_writes {id : Int} {password : Option String} {a : Except Error Unit}
    (h : (password.elim (pure (.ok ())) (updatePassword id) : M (Except Error Unit)).run
      (reliably bcrypt) cs w = some (a, cs', w')) :
    (∃ err, a = .error err ∧ err.beforeRole = false ∧ w' = w) ∨
      a = .ok () ∧ (password = none ∧ w' = w ∨
        ∃ p salt hash, password = some p ∧ bcrypt.generate salt p = .ok hash ∧
          w' = { w with users := w.users.setPassword id hash }) := by
  cases password with
  | none =>
    obtain ⟨rfl, -, rfl⟩ := Prog.run_ret h
    exact .inr ⟨rfl, .inl ⟨rfl, rfl⟩⟩
  | some p =>
    rw [Option.elim_some] at h
    rcases updatePassword_reliably h with
      ⟨err, rfl, herr, rfl, -⟩ | ⟨hash, rfl, ⟨salt, hhash⟩, -, rfl⟩
    · have hafter : err.beforeRole = false := by rcases herr with rfl | ⟨text, rfl⟩ <;> rfl
      exact .inl ⟨err, rfl, hafter, rfl⟩
    · exact .inr ⟨rfl, .inr ⟨p, salt, hash, rfl, hhash, rfl⟩⟩

/-- **What `updateUser` writes**: nothing, the role alone, or all that was asked for. -/
theorem updateUser_writes {id : Int} {role password : Option String} {a : Except Error User}
    (h : (updateUser id role password).run (reliably bcrypt) cs w = some (a, cs', w')) :
    (∃ err, a = .error err ∧ err.beforeRole = true ∧ w' = w) ∨
      (∃ err, a = .error err ∧ err.beforeRole = false ∧ w'.users = roleSet w.users id role) ∨
      (∃ user, a = .ok user) ∧ (password = none ∧ w'.users = roleSet w.users id role ∨
        ∃ p salt hash, password = some p ∧ bcrypt.generate salt p = .ok hash ∧
          w'.users = (roleSet w.users id role).setPassword id hash) := by
  obtain ⟨found, ds, t, hget, hrest⟩ := Prog.run_bind h
  obtain ⟨rfl, rfl⟩ := getUserByID_reliably hget
  cases hrow : t.users.find id with
  | none =>
    rw [hrow] at hrest
    obtain ⟨rfl, -, rfl⟩ := Prog.run_ret hrest
    exact .inl ⟨_, rfl, rfl, rfl⟩
  | some row =>
    rw [hrow] at hrest
    obtain ⟨changed, es, u, hrole, hpass⟩ := Prog.run_bind hrest
    rcases changeRole_writes hrole with ⟨err, rfl, herr, rfl⟩ | ⟨rfl, hset⟩
    · obtain ⟨rfl, -, rfl⟩ := Prog.run_ret hpass
      exact .inl ⟨err, rfl, herr, rfl⟩
    · obtain ⟨changed', fs, v, hpassword, hend⟩ := Prog.run_bind hpass
      rcases changePassword_writes hpassword with ⟨err, rfl, herr, rfl⟩ | ⟨rfl, hwrites⟩
      · obtain ⟨rfl, -, rfl⟩ := Prog.run_ret hend
        exact .inr (.inl ⟨err, rfl, herr, hset⟩)
      · obtain ⟨rfl, ha⟩ := getUserByID_reliably hend
        -- The row is still there when it is read again.
        obtain ⟨row', hrow'⟩ := exists_roleSet hrow role
        rw [← hset] at hrow' ⊢
        rcases hwrites with ⟨rfl, rfl⟩ | ⟨p, salt, hash, rfl, hhash, rfl⟩
        · rw [hrow'] at ha
          exact .inr (.inr ⟨⟨_, ha⟩, .inl ⟨rfl, rfl⟩⟩)
        · rw [Users.find_setPassword, if_pos rfl, hrow'] at ha
          exact .inr (.inr ⟨⟨_, ha⟩, .inr ⟨p, salt, hash, rfl, hhash, rfl⟩⟩)

end Runs

/-! ## Every call keeps them in step -/

section Steps

variable {events : List StoreEvent} {t t' : Users} {s s' : Served}

theorem directory_concat (events : List StoreEvent) (e : StoreEvent) :
    directory (events ++ [e]) = record (directory events) e := by
  rw [directory, List.foldl_append]
  rfl

/-- A call that issues no id. -/
theorem InStep.keep (h : InStep bcrypt t events) {e : StoreEvent} (he : e.issued = none)
    (hseq : t'.seq = t.seq)
    (hrows : List.Forall₂ (Stored bcrypt) t'.rows (record (directory events) e)) :
    InStep bcrypt t' (events ++ [e]) := by
  have hissued : (events ++ [e]).filterMap StoreEvent.issued =
      events.filterMap StoreEvent.issued := by
    rw [List.filterMap_append, List.filterMap_cons_none he, List.filterMap_nil, List.append_nil]
  refine ⟨by rw [directory_concat]; exact hrows, ?_, ?_⟩
  · rw [hissued, hseq]
    exact h.issued
  · rw [hissued]
    exact h.fresh

theorem InStep.createUser (h : InStep bcrypt t events) {username password role : String}
    {a : Except Error User} {cs cs' : List Choice} {w w' : World} (hw : w.users = t)
    (hrun : (Auth.createUser username password role).run (reliably bcrypt) cs w =
      some (a, cs', w')) :
    InStep bcrypt w'.users (events ++ [.createUser username password role a]) := by
  subst hw
  rcases createUser_reliably hrun with
    ⟨err, rfl, rfl⟩ | ⟨user, hash, users, rfl, hname, ⟨salt, hhash⟩, hinsert, rfl⟩
  · exact h.keep rfl rfl h.rows
  · obtain ⟨hid, hseq⟩ := Users.seq_of_insert hinsert
    have hissued : (events ++ [StoreEvent.createUser username password role (.ok user)]).filterMap
        StoreEvent.issued = events.filterMap StoreEvent.issued ++ [user.id] := by
      rw [List.filterMap_append]
      rfl
    have hnew : Stored bcrypt ⟨user.id, user.username, hash, user.role⟩
        ⟨user.id, user.username, user.role, password⟩ :=
      ⟨rfl, ⟨salt, hhash⟩, normalizeUsername_idem hname⟩
    refine ⟨?_, ?_, ?_⟩
    · rw [directory_concat, Users.rows_of_insert _ _ hinsert]
      exact List.rel_append h.rows (.cons hnew .nil)
    · rw [hissued]
      intro id hmem
      rcases List.mem_append.1 hmem with hmem | hmem
      · have hle := h.issued id hmem
        show id ≤ users.seq
        omega
      · rw [List.mem_singleton.1 hmem]
        show user.id ≤ users.seq
        omega
    · rw [hissued, List.nodup_append]
      refine ⟨h.fresh, by simp, ?_⟩
      intro id hmem id' hmem'
      have hle := h.issued id hmem
      rw [List.mem_singleton.1 hmem']
      omega

theorem InStep.updateUser (h : InStep bcrypt t events) {id : Int} {role password : Option String}
    {a : Except Error User} {cs cs' : List Choice} {w w' : World} (hw : w.users = t)
    (hrun : (Auth.updateUser id role password).run (reliably bcrypt) cs w = some (a, cs', w')) :
    InStep bcrypt w'.users (events ++ [.updateUser id role password a]) := by
  subst hw
  have hrole := stored_roleSet h.rows id role
  have hseq := seq_roleSet w.users id role
  rcases updateUser_writes hrun with
    ⟨err, rfl, herr, rfl⟩ | ⟨err, rfl, herr, hset⟩ | ⟨⟨user, rfl⟩, hwrites⟩
  · refine h.keep rfl rfl ?_
    rw [record, if_pos herr]
    exact h.rows
  · rw [← hset] at hrole hseq
    refine h.keep rfl hseq ?_
    rw [record, if_neg (by simp [herr])]
    exact hrole
  · rcases hwrites with ⟨rfl, hset⟩ | ⟨p, salt, hash, rfl, hhash, hset⟩
    · rw [← hset] at hrole hseq
      exact h.keep rfl hseq hrole
    · rw [hset]
      exact h.keep rfl hseq (stored_setPassword hrole id hhash)

theorem InStep.deleteUser (h : InStep bcrypt t events) {id : Int} {a : Except Error Unit}
    {cs cs' : List Choice} {w w' : World} (hw : w.users = t)
    (hrun : (Auth.deleteUser id).run (reliably bcrypt) cs w = some (a, cs', w')) :
    InStep bcrypt w'.users (events ++ [.deleteUser id a]) := by
  subst hw
  rcases deleteUser_reliably hrun with ⟨err, rfl, rfl⟩ | ⟨rfl, rfl⟩
  · exact h.keep rfl rfl h.rows
  · exact h.keep rfl rfl (stored_delete h.rows id)

/-- What a login answers, read off the directory. -/
theorem InStep.login (h : InStep bcrypt t events) (hexact : bcrypt.Exact)
    {username password : String} {a : Except Error User} {cs cs' : List Choice} {w w' : World}
    (hw : w.users = t)
    (hrun : (Auth.authenticate bcrypt username password).run (reliably bcrypt) cs w =
      some (a, cs', w')) : AnsweredFrom (directory events) username password a := by
  subst hw
  intro hlength user
  rw [(authenticate_reliably hrun).2 user]
  constructor
  · rintro ⟨r, hr, hname, hcompare, huser⟩
    obtain ⟨x, hx, hrx⟩ := exists_account h.rows hr
    obtain ⟨salt, hhash⟩ := hrx.hash
    refine ⟨x, hx, ?_, ((hexact salt _ _ hhash password hlength).1 hcompare).symm, ?_⟩
    · rw [← hrx.username_eq, trim_of_normalizeUsername hname]
    · rw [← hrx.user, huser]
  · rintro ⟨x, hx, hname, rfl, huser⟩
    obtain ⟨r, hr, hrx⟩ := exists_row h.rows hx
    obtain ⟨salt, hhash⟩ := hrx.hash
    refine ⟨r, hr, ?_, (hexact salt _ _ hhash _ hlength).2 rfl, by rw [hrx.user, huser]⟩
    rw [← normalizeUsername_trim username, ← hname, ← hrx.username_eq, hrx.username]

/-! ## Runs -/

theorem Logins.concat (h : Logins events) {e : StoreEvent}
    (he : ∀ username password answer, e = .authenticate username password answer →
      AnsweredFrom (directory events) username password answer) :
    Logins (events ++ [e]) := by
  intro before after username password answer hevents
  rcases List.eq_nil_or_concat after with rfl | ⟨after, last, rfl⟩
  · obtain ⟨rfl, hlast⟩ := List.append_inj' hevents rfl
    exact he username password answer (List.cons.inj hlast).1
  · rw [List.concat_eq_append, ← List.cons_append, ← List.append_assoc] at hevents
    obtain ⟨hevents, -⟩ := List.append_inj' hevents rfl
    exact h before after username password answer hevents

/-- **One call keeps the directory in step**, and a login is answered from it. -/
theorem step_directory (hexact : bcrypt.Exact) {a : StoreCall × List Choice}
    (h : InStep bcrypt s.world.users s.events ∧ Logins s.events)
    (hnext : s.next bcrypt a = some s') :
    InStep bcrypt s'.world.users s'.events ∧ Logins s'.events := by
  obtain ⟨hstep, hlogins⟩ := h
  obtain ⟨⟨event, cs', w'⟩, hrun, rfl⟩ := Option.map_eq_some_iff.1 hnext
  obtain ⟨call, cs⟩ := a
  cases call with
  | createUser username password role =>
    obtain ⟨answer, ds, t', hcreate, hend⟩ := Prog.run_bind hrun
    obtain ⟨rfl, -, rfl⟩ := Prog.run_ret hend
    exact ⟨hstep.createUser rfl hcreate, hlogins.concat nofun⟩
  | updateUser id role password =>
    obtain ⟨answer, ds, t', hupdate, hend⟩ := Prog.run_bind hrun
    obtain ⟨rfl, -, rfl⟩ := Prog.run_ret hend
    exact ⟨hstep.updateUser rfl hupdate, hlogins.concat nofun⟩
  | deleteUser id =>
    obtain ⟨answer, ds, t', hdelete, hend⟩ := Prog.run_bind hrun
    obtain ⟨rfl, -, rfl⟩ := Prog.run_ret hend
    exact ⟨hstep.deleteUser rfl hdelete, hlogins.concat nofun⟩
  | authenticate username password =>
    obtain ⟨answer, ds, t', hlogin, hend⟩ := Prog.run_bind hrun
    obtain ⟨rfl, -, rfl⟩ := Prog.run_ret hend
    obtain ⟨rfl, -⟩ := authenticate_reliably hlogin
    refine ⟨hstep.keep rfl rfl hstep.rows, hlogins.concat ?_⟩
    rintro _ _ _ ⟨⟩
    exact hstep.login hexact rfl hlogin

end Steps

/-- A new store, whose table of users is empty. -/
def Served.start (w : World) : Served := ⟨{ w with users := .empty }, []⟩

/-- **Main result.** After any calls on a store that does not fail, every login was answered from
the names and the last passwords of the accounts there were, usernames are unique and no id was
issued twice. -/
theorem latestPassword_of_exact (bcrypt : Bcrypt) (hexact : bcrypt.Exact) (w : World)
    (calls : List (StoreCall × List Choice)) (s : Served)
    (hrun : Lts.run (Served.next bcrypt) (.start w) calls = some s) :
    LatestPassword s.events := by
  have hstart : InStep bcrypt (Served.start w).world.users (Served.start w).events ∧
      Logins (Served.start w).events := by
    refine ⟨⟨.nil, by simp [Served.start], by simp [Served.start]⟩, ?_⟩
    intro before after username password answer hevents
    simp [Served.start] at hevents
  obtain ⟨hstep, hlogins⟩ :=
    Lts.invariant (I := fun s : Served => InStep bcrypt s.world.users s.events ∧ Logins s.events)
      (fun _ _ _ h hnext => step_directory hexact h hnext) hstart hrun
  refine ⟨hlogins, ?_, hstep.fresh⟩
  rw [← usernames_eq hstep.rows]
  exact s.world.users.unique

/-- A role that is changed although the password is refused, a new password, and a user of the same
name after the first one was deleted. -/
def twoLives : List (StoreCall × List Choice) :=
  [(.createUser " ops " "secret-1" "viewer", [{}, {}]),
    (.createUser "root" "secret-0" "admin", [{}, {}]),
    (.updateUser 1 (some "admin") (some "short"), [{}, {}]),
    (.authenticate "ops" "secret-1", [{}]),
    (.updateUser 1 none (some "secret-2"), [{}, {}, {}, {}]),
    (.authenticate " ops" "secret-2", [{}]), (.deleteUser 1, [{}, {}, {}]),
    (.createUser "ops" "secret-3" "viewer", [{}, {}]), (.authenticate "ops" "secret-2", [{}]),
    (.authenticate "ops" "secret-3", [{}])]

theorem plainBcrypt_exact : plainBcrypt.Exact := by
  rintro salt password _ ⟨⟩ other -
  simp [plainBcrypt, eq_comm]

theorem latestPassword_of_exact_twoLives :
    ∃ s, Lts.run (Served.next plainBcrypt) (.start .empty) twoLives = some s ∧
      LatestPassword s.events := by
  have henabled : (Lts.run (Served.next plainBcrypt) (.start .empty) twoLives).isSome := by decide
  have hrun := (Option.some_get henabled).symm
  exact ⟨_, hrun, latestPassword_of_exact plainBcrypt plainBcrypt_exact .empty twoLives _ hrun⟩

end QuickVps.Auth
