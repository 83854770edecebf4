import QuickVps.Server.Boot

/-!
# One process after another

The server is started again and again over one database, with any flags and any environment, and
serves any interleaving until it ends. What is in memory is then gone, the tables stay.

* `Installation.next` — a process that starts, serves and ends.
* `ForAdmin` — a call for a session of an administrator, from a login in this process or in one
  before it.
* `Descends` — every user and every administrator goes back to a first start or to such a call.
* `descends_of_lives` — it holds after any processes over new tables.
-/

namespace QuickVps

namespace Auth

/-! ## Where a row comes from -/

/-- The operation inserts a user. -/
def Op.Inserts (id : Int) (username : String) (role : Role) : (e : Op) → e.Ans → Prop
  | .sql (.insertUser name _ given), a => name = username ∧ given = role ∧ a = .ok id
  | _, _ => False

/-- The operation gives a user a role. -/
def Op.SetsRole (id : Int) (role : Role) : (e : Op) → e.Ans → Prop
  | .sql (.updateRole given target), a => given = role ∧ target = id ∧ a = .ok ()
  | _, _ => False

section

variable {bcrypt : Bcrypt} {c : Choice} {e : Op} {a : e.Ans} {w w' : World} {row : UserRow}

/-- A row after an operation was there before, perhaps with another role or password, or the
operation has inserted it. -/
theorem row_exec (h : exec bcrypt c e w = some (a, w')) (hrow : row ∈ w'.users.rows) :
    (∃ old ∈ w.users.rows, old.id = row.id ∧ old.username = row.username ∧
      (old.role = row.role ∨ e.SetsRole row.id row.role a)) ∨
    e.Inserts row.id row.username row.role a := by
  by_cases hkeeps : e.KeepsAccounts
  · rw [(hkeeps.exec_eq h).1] at hrow
    exact .inl ⟨row, hrow, rfl, rfl, .inl rfl⟩
  cases e with
  | sql stmt' =>
    rcases sql_exec_cases h with ⟨err, -, -, rfl⟩ | ⟨-, hstmt⟩
    · exact .inl ⟨row, hrow, rfl, rfl, .inl rfl⟩
    cases stmt' with
    | insertUser username hash role =>
      simp only [Stmt.exec] at hstmt
      cases hins : w.users.insert username hash role with
      | none =>
        rw [hins] at hstmt
        cases hstmt
        exact .inl ⟨row, hrow, rfl, rfl, .inl rfl⟩
      | some inserted =>
        obtain ⟨id, users⟩ := inserted
        rw [hins] at hstmt
        cases hstmt
        have hrow' : row ∈ users.rows := hrow
        rw [Users.rows_of_insert _ _ hins, List.mem_append, List.mem_singleton] at hrow'
        rcases hrow' with hold | rfl
        · exact .inl ⟨row, hold, rfl, rfl, .inl rfl⟩
        · exact .inr ⟨rfl, rfl, rfl⟩
    | updateRole role id =>
      cases hstmt
      obtain ⟨old, hold, rfl⟩ :=
        List.mem_map.1 (show row ∈ (w.users.setRole id role).rows from hrow)
      refine .inl ⟨old, hold, ?_⟩
      split_ifs with hid
      · exact ⟨rfl, rfl, .inr ⟨rfl, hid.symm, rfl⟩⟩
      · exact ⟨rfl, rfl, .inl rfl⟩
    | updatePassword hash id =>
      cases hstmt
      obtain ⟨old, hold, rfl⟩ :=
        List.mem_map.1 (show row ∈ (w.users.setPassword id hash).rows from hrow)
      refine .inl ⟨old, hold, ?_⟩
      split_ifs <;> exact ⟨rfl, rfl, .inl rfl⟩
    | deleteUser id =>
      cases hstmt
      exact .inl ⟨row, List.mem_of_mem_filter (show row ∈ (w.users.delete id).rows from hrow), rfl,
        rfl, .inl rfl⟩
    | insertAudit =>
      cases hstmt
      exact .inl ⟨row, hrow, rfl, rfl, .inl rfl⟩
    | _ => exact absurd (by simp [Op.KeepsAccounts, Stmt.onSessions, Stmt.selects]) hkeeps
  | _ => exact absurd trivial hkeeps

end

end Auth

namespace Server

open Go

section

variable {s : Server} {env : Env patterns} {w : World} {v : Running} {log log' : ServiceLog}
  {acts : List (Pool.Act ServiceOp Choice)} {start : List Auth.UserRow} {row : Auth.UserRow}

/-- In the log a call has inserted the user. -/
def InsertedIn (log : ServiceLog) (id : Int) (username : String) (role : Auth.Role) : Prop :=
  ∃ i e a, .did i (.auth e) a ∈ log ∧ e.Inserts id username role a

/-- In the log a call has given the user the role. -/
def SetIn (log : ServiceLog) (id : Int) (role : Auth.Role) : Prop :=
  ∃ i e a, .did i (.auth e) a ∈ log ∧ e.SetsRole id role a

/-- Where a row and its role come from. -/
structure Origin (start : List Auth.UserRow) (log : ServiceLog) (row : Auth.UserRow) : Prop where
  user : (∃ old ∈ start, old.id = row.id ∧ old.username = row.username) ∨
    ∃ role, InsertedIn log row.id row.username role
  role : (∃ old ∈ start, old.id = row.id ∧ old.username = row.username ∧ old.role = row.role) ∨
    InsertedIn log row.id row.username row.role ∨ SetIn log row.id row.role

theorem InsertedIn.mono {id : Int} {username : String} {role : Auth.Role}
    (h : InsertedIn log id username role) (hsub : log ⊆ log') : InsertedIn log' id username role :=
  h.imp fun _ => .imp fun _ => .imp fun _ hd => ⟨hsub hd.1, hd.2⟩

theorem SetIn.mono {id : Int} {role : Auth.Role} (h : SetIn log id role) (hsub : log ⊆ log') :
    SetIn log' id role :=
  h.imp fun _ => .imp fun _ => .imp fun _ hd => ⟨hsub hd.1, hd.2⟩

theorem Origin.mono (h : Origin start log row) (hsub : log ⊆ log') : Origin start log' row where
  user := h.user.imp_right (.imp fun _ hins => hins.mono hsub)
  role := h.role.imp_right (.imp (fun hins => hins.mono hsub) fun hset => hset.mono hsub)

/-- **One operation.** -/
theorem Origin.did {sh sh' : World} (h : ∀ row ∈ sh.auth.users.rows, Origin start log row) {i : Nat}
    {c : Choice} {op : Op} {a : op.Ans} (hexec : exec env c op sh = some (a, sh')) :
    ∀ row ∈ sh'.auth.users.rows, Origin start (.did i op a :: log) row := by
  have hsub : log ⊆ .did i op a :: log := List.subset_cons_self _ _
  intro row hrow
  cases op with
  | auth e =>
    rcases Auth.row_exec (exec_auth hexec).1 hrow with ⟨old, hold, hid, hname, hrole⟩ | hins
    · obtain ⟨huser, hprior⟩ := (h old hold).mono hsub
      rw [hid, hname] at huser hprior
      refine ⟨huser, ?_⟩
      rcases hrole with hrole | hset
      · rw [← hrole]
        exact hprior
      · exact .inr (.inr ⟨i, e, a, List.mem_cons_self, hset⟩)
    · have hin : InsertedIn (.did i (.auth e) a :: log) row.id row.username row.role :=
        ⟨i, e, a, List.mem_cons_self, hins⟩
      exact ⟨.inr ⟨_, hin⟩, .inr (.inl hin)⟩
  | alerts e =>
    obtain ⟨⟨r, u⟩, -, heq⟩ := Option.map_eq_some_iff.1 hexec
    cases heq
    exact (h row hrow).mono hsub
  | system call =>
    cases hexec
    exact (h row hrow).mono hsub

/-- **Run.** -/
theorem origin_run (h : Lts.run (Running.next s env) (Pool.start w) acts = some v) :
    ∀ row ∈ v.shared.auth.users.rows, Origin w.auth.users.rows v.log row := by
  have hstart : ∀ row ∈ w.auth.users.rows, Origin w.auth.users.rows [] row := fun row hrow =>
    ⟨.inl ⟨row, hrow, rfl, rfl⟩, .inl ⟨row, hrow, rfl, rfl, rfl⟩⟩
  refine Lts.invariant (I := fun v : Running => ∀ row ∈ v.shared.auth.users.rows,
    Origin w.auth.users.rows v.log row) (fun v a v' hv hnext => ?_) hstart h
  have settle {sh : World} {log : ServiceLog} (i : Nat) (p : M (Option Response))
      (hlog : ∀ row ∈ sh.auth.users.rows, Origin w.auth.users.rows log row) :
      ∀ row ∈ sh.auth.users.rows, Origin w.auth.users.rows (Pool.settle i p log) row :=
    fun row hrow => (hlog row hrow).mono fun _ => Pool.mem_settle
  cases a with
  | invoke op =>
    cases hnext
    exact settle _ _ fun row hrow => (hv row hrow).mono (List.subset_cons_self _ _)
  | step i c =>
    obtain ⟨op, e, k, r, sh, -, hexec, rfl⟩ := Pool.next_step hnext
    exact settle _ _ (Origin.did hv hexec)

end

/-! ## Processes -/

/-- How a process is started, and what it does until it ends. -/
structure Life where
  flags : Flags
  getenv : String → String
  choices : List Choice
  acts : List (Pool.Act ServiceOp Choice)

/-- A process that has ended, with the state it found. -/
structure Ended where
  settings : Settings
  before : World
  log : ServiceLog

def Ended.server (e : Ended) : Server := newServer e.settings

/-- The state of the host, and the processes, the newest first. -/
structure Installation where
  world : World
  past : List Ended

/-- One process. It has served nothing if its start has failed. -/
def Installation.next (env : Env patterns) (inst : Installation) (l : Life) :
    Option Installation :=
  match (boot env.crypto l.flags l.getenv).run (exec env) l.choices inst.world with
  | none => none
  | some (.error _, _, w) =>
    some ⟨w, ⟨settings l.flags l.getenv, inst.world, []⟩ :: inst.past⟩
  | some (.ok started, _, w) =>
    (Lts.run (Running.next started.server env) (Pool.start (w.started started.service)) l.acts).map
      fun v => ⟨v.shared, ⟨settings l.flags l.getenv, inst.world, v.log⟩ :: inst.past⟩

/-! ## The property -/

/-- In the process `e`, after `older` ones, the program makes its call for the session of an
administrator, which a login in one of these has created. -/
def ForAdmin (env : Env patterns) (older : List Ended) (e : Ended) (before : ServiceLog)
    (i : Nat) : Prop :=
  e.settings.authEnabled = true ∧ ∃ r x, .invoked i (.request r) ∈ before ∧
    Accepted e.server.sessions r (authCalls (Pool.hist i before)) x ∧ x.role = .admin ∧
    (LoggedIn e.server env before x ∨ ∃ e' ∈ older, LoggedIn e'.server env e'.log x)

/-- One of the processes has made such a call of the authentication code for an administrator. -/
def Made (env : Env patterns) (past : List Ended) (P : (op : Auth.Op) → op.Ans → Prop) : Prop :=
  ∃ newer e older, past = newer ++ e :: older ∧ ∃ since before i op a,
    e.log = since ++ .did i (.auth op) a :: before ∧ P op a ∧ ForAdmin env older e before i

/-- One of the processes was a first start in auth mode with this name. -/
def FirstStart (past : List Ended) (name : String) : Prop :=
  ∃ e ∈ past, e.settings.authEnabled = true ∧ e.before.auth.users.rows = [] ∧
    Auth.normalizeUsername e.settings.user = some name

/-- Every user, every administrator and every call for one goes back to a first start or a login. -/
structure Descends (env : Env patterns) (inst : Installation) : Prop where
  users : ∀ row ∈ inst.world.auth.users.rows, FirstStart inst.past row.username ∨
    ∃ role, Made env inst.past fun op a => op.Inserts row.id row.username role a
  admins : ∀ row ∈ inst.world.auth.users.rows, row.role = .admin →
    FirstStart inst.past row.username ∨ Made env inst.past fun op a =>
      op.Inserts row.id row.username .admin a ∨ op.SetsRole row.id .admin a
  sessions : ∀ token x, inst.world.auth.sessions token = some x →
    ∃ e ∈ inst.past, LoggedIn e.server env e.log x
  calls : ∀ newer e older, inst.past = newer ++ e :: older →
    ∀ since before i op a r, e.log = since ++ .did i op a :: before →
      .invoked i (.request r) ∈ before → ¬ op.Common → ForAdmin env older e before i

section

variable {env : Env patterns} {inst inst' : Installation} {e : Ended} {past : List Ended}

theorem Made.cons {P : (op : Auth.Op) → op.Ans → Prop} (h : Made env past P) (e : Ended) :
    Made env (e :: past) P := by
  obtain ⟨newer, e', older, rfl, hmade⟩ := h
  exact ⟨e :: newer, e', older, rfl, hmade⟩

theorem Made.imp {P Q : (op : Auth.Op) → op.Ans → Prop} (h : Made env past P)
    (hPQ : ∀ op a, P op a → Q op a) : Made env past Q := by
  obtain ⟨newer, e, older, heq, since, before, i, op, a, hlog, hP, hfor⟩ := h
  exact ⟨newer, e, older, heq, since, before, i, op, a, hlog, hPQ op a hP, hfor⟩

theorem FirstStart.cons {name : String} (h : FirstStart past name) (e : Ended) :
    FirstStart (e :: past) name := by
  obtain ⟨e', he', hstart⟩ := h
  exact ⟨e', List.mem_cons_of_mem _ he', hstart⟩

theorem not_common_of_inserts {id : Int} {username : String} {role : Auth.Role} {op : Auth.Op}
    {a : op.Ans} (h : op.Inserts id username role a) : ¬ Op.Common (.auth op) := by
  cases op with
  | sql stmt' =>
    cases stmt' with
    | insertUser => exact fun hcommon => by cases hcommon
    | _ => exact h.elim
  | _ => exact h.elim

theorem not_common_of_setsRole {id : Int} {role : Auth.Role} {op : Auth.Op} {a : op.Ans}
    (h : op.SetsRole id role a) : ¬ Op.Common (.auth op) := by
  cases op with
  | sql stmt' =>
    cases stmt' with
    | updateRole => exact fun hcommon => by cases hcommon
    | _ => exact h.elim
  | _ => exact h.elim

/-- The row is that of a first administrator. -/
def Ended.Seeds (e : Ended) (row : Auth.UserRow) : Prop :=
  e.settings.authEnabled = true ∧ e.before.auth.users.rows = [] ∧
    Auth.normalizeUsername e.settings.user = some row.username ∧ row.role = .admin

/-- What a process adds to where a row and its role come from. -/
theorem descends_of_origin (hinst : Descends env inst) {start : List Auth.UserRow}
    (hstart : ∀ row ∈ start, row ∈ inst.world.auth.users.rows ∨ e.Seeds row)
    (hmade : ∀ since before i op a, e.log = since ++ .did i (.auth op) a :: before →
      ¬ Op.Common (.auth op) → ForAdmin env inst.past e before i)
    {row : Auth.UserRow} (h : Origin start e.log row) :
    (FirstStart (e :: inst.past) row.username ∨
      ∃ role, Made env (e :: inst.past) fun op a => op.Inserts row.id row.username role a) ∧
    (row.role = .admin → FirstStart (e :: inst.past) row.username ∨
      Made env (e :: inst.past) fun op a =>
        op.Inserts row.id row.username .admin a ∨ op.SetsRole row.id .admin a) := by
  have made {P : (op : Auth.Op) → op.Ans → Prop} (hP : ∀ op a, P op a → ¬ Op.Common (.auth op))
      (hdid : ∃ i op a, .did i (.auth op) a ∈ e.log ∧ P op a) : Made env (e :: inst.past) P := by
    obtain ⟨i, op, a, hmem, hp⟩ := hdid
    obtain ⟨since, before, hlog⟩ := List.append_of_mem hmem
    exact ⟨[], e, inst.past, rfl, since, before, i, op, a, hlog, hp,
      hmade since before i op a hlog (hP op a hp)⟩
  have seeded {old : Auth.UserRow} (hold : e.Seeds old) :
      FirstStart (e :: inst.past) old.username :=
    ⟨e, List.mem_cons_self, hold.1, hold.2.1, hold.2.2.1⟩
  constructor
  · rcases h.user with ⟨old, hold, hid, hname⟩ | ⟨role, hins⟩
    · rw [← hid, ← hname]
      rcases hstart old hold with hold | hold
      · refine (hinst.users old hold).imp (fun hfirst => hfirst.cons e) fun hmade => ?_
        obtain ⟨role, hmade⟩ := hmade
        exact ⟨role, hmade.cons e⟩
      · exact .inl (seeded hold)
    · exact .inr ⟨role, made (fun _ _ => not_common_of_inserts) hins⟩
  · intro hrole
    rcases h.role with ⟨old, hold, hid, hname, holdrole⟩ | hins | hset
    · rw [← hid, ← hname]
      rcases hstart old hold with hold | hold
      · exact (hinst.admins old hold (holdrole.trans hrole)).imp (fun hfirst => hfirst.cons e)
          fun hmade => hmade.cons e
      · exact .inl (seeded hold)
    · rw [hrole] at hins
      exact .inr ((made (fun _ _ => not_common_of_inserts) hins).imp fun _ _ => .inl)
    · rw [hrole] at hset
      exact .inr ((made (fun _ _ => not_common_of_setsRole) hset).imp fun _ _ => .inr)

/-! ### One process -/

/-- A start keeps the sessions of the table, and adds at most a first administrator. -/
theorem boot_tables {l : Life} {cs' : List Choice} {w' : World} {out : Except String Started}
    (h : (boot env.crypto l.flags l.getenv).run (exec env) l.choices inst.world =
      some (out, cs', w')) (log : ServiceLog) :
    w'.auth.sessions = inst.world.auth.sessions ∧ ∀ row ∈ w'.auth.users.rows,
      row ∈ inst.world.auth.users.rows ∨
        (⟨settings l.flags l.getenv, inst.world, log⟩ : Ended).Seeds row := by
  rcases (boot_cases h).2 with ⟨hsame, -⟩ | ⟨hset, row, hseeded⟩
  · rw [hsame]
    exact ⟨rfl, fun row hrow => .inl hrow⟩
  · obtain ⟨users, hw', hrows⟩ := hseeded.world
    rw [hw']
    refine ⟨rfl, fun row' hrow' => .inr ?_⟩
    have hrow : row' = row := by
      rw [← List.mem_singleton, ← hrows]
      exact hrow'
    rw [hrow]
    exact ⟨hset, hseeded.empty, hseeded.name, hseeded.role⟩

/-- A session of a process was created by one of its logins, or by one in a process before it. -/
theorem login_of_issued (hinst : Descends env inst) {w : World} {log : ServiceLog}
    {s : Server} {token : String} {x : Auth.Session} (hmemory : w.auth.memory = fun _ => none)
    (htable : w.auth.sessions = inst.world.auth.sessions) (hx : Issued s env w log token x) :
    LoggedIn s env log x ∨ ∃ e' ∈ inst.past, LoggedIn e'.server env e'.log x := by
  rcases hx with hx | hx | ⟨-, hx⟩
  · rw [hmemory] at hx
    cases hx
  · rw [htable] at hx
    exact .inr (hinst.sessions token x hx)
  · exact .inl hx

/-- Only requests call the authentication code. -/
theorem request_of_auth {s : Server} {w : World} {v : Running}
    {acts : List (Pool.Act ServiceOp Choice)}
    (h : Lts.run (Running.next s env) (Pool.start w) acts = some v) {since before : ServiceLog}
    {i : Nat} {op : Auth.Op} {a : op.Ans} (hlog : v.log = since ++ .did i (.auth op) a :: before) :
    ∃ r, .invoked i (.request r) ∈ before := by
  have hgood := (provenance_run h).1.log
  rw [hlog] at hgood
  obtain ⟨op', hop', hok⟩ := hgood.did
  cases op' with
  | request r => exact ⟨r, hop'⟩
  | evaluate | cleanup =>
    obtain ⟨e, he⟩ := hok
    cases he

/-- **One process.** -/
theorem Descends.next (hinst : Descends env inst) {l : Life}
    (h : inst.next env l = some inst') : Descends env inst' := by
  unfold Installation.next at h
  cases hboot : (boot env.crypto l.flags l.getenv).run (exec env) l.choices inst.world with
  | none =>
    rw [hboot] at h
    cases h
  | some result =>
    obtain ⟨out, cs', w⟩ := result
    rw [hboot] at h
    cases out with
    | error err =>
      cases h
      obtain ⟨hsessions, hrows⟩ := boot_tables hboot []
      have hnothing : ∀ since before i (op : Op) a,
          ([] : ServiceLog) ≠ since ++ .did i op a :: before := fun since before i op a => by simp
      have horigin : ∀ row ∈ w.auth.users.rows, Origin w.auth.users.rows [] row :=
        fun row hrow => ⟨.inl ⟨row, hrow, rfl, rfl⟩, .inl ⟨row, hrow, rfl, rfl, rfl⟩⟩
      have hdescends := fun row hrow => descends_of_origin hinst
        (e := ⟨settings l.flags l.getenv, inst.world, []⟩) hrows
        (fun since before i op a hlog => absurd hlog (hnothing since before i (.auth op) a))
        (horigin row hrow)
      refine ⟨fun row hrow => (hdescends row hrow).1, fun row hrow => (hdescends row hrow).2,
        fun token x hx => ?_, ?_⟩
      · rw [hsessions] at hx
        obtain ⟨e, he, hlogin⟩ := hinst.sessions token x hx
        exact ⟨e, List.mem_cons_of_mem _ he, hlogin⟩
      · intro newer e older hpast since before i op a r hlog
        cases newer with
        | nil =>
          cases hpast
          exact absurd hlog (hnothing since before i op a)
        | cons _ newer =>
          exact hinst.calls newer e older (List.cons.inj hpast).2 since before i op a r hlog
    | ok started =>
      obtain ⟨v, hrun, rfl⟩ := Option.map_eq_some_iff.1 h
      obtain ⟨hsessions, hrows⟩ := boot_tables hboot v.log
      have hserver : started.server = newServer (settings l.flags l.getenv) :=
        (boot_cases hboot).1 started rfl
      rw [hserver] at hrun
      have hissued {log : ServiceLog} {token : String} {x : Auth.Session}
          (hx : Issued (newServer (settings l.flags l.getenv)) env (w.started started.service) log
            token x) :=
        login_of_issued (w := w.started started.service) hinst rfl hsessions hx
      have hfor : ∀ since before i op a r, v.log = since ++ .did i op a :: before →
          .invoked i (.request r) ∈ before → ¬ op.Common →
          ForAdmin env inst.past ⟨settings l.flags l.getenv, inst.world, v.log⟩ before i := by
        intro since before i op a r hlog hreq hcommon
        have hmem : .invoked i (.request r) ∈ v.log := by
          rw [hlog]
          exact List.mem_append_right _ (List.mem_cons_of_mem _ hreq)
        obtain ⟨hauth, x, hacc, hrole⟩ := (allowed_of_did hrun hlog hmem).admin hcommon
        rw [List.append_cons] at hlog
        obtain ⟨token, -, hx⟩ := issued_of_accepted hrun hlog hacc
        refine ⟨by simpa [newServer] using hauth, r, x, hreq, hacc, hrole, hissued hx⟩
      have hdescends := fun row hrow => descends_of_origin hinst
        (e := ⟨settings l.flags l.getenv, inst.world, v.log⟩) hrows
        (fun since before i op a hlog hcommon => by
          obtain ⟨r, hreq⟩ := request_of_auth hrun hlog
          exact hfor since before i (.auth op) a r hlog hreq hcommon)
        (origin_run hrun row hrow)
      refine ⟨fun row hrow => (hdescends row hrow).1, fun row hrow => (hdescends row hrow).2,
        fun token x hx => ?_, ?_⟩
      · rcases hissued ((provenance_run hrun).2.table token x hx) with hlogin | ⟨e, he, hlogin⟩
        · exact ⟨_, List.mem_cons_self, hlogin⟩
        · exact ⟨e, List.mem_cons_of_mem _ he, hlogin⟩
      · intro newer e older hpast since before i op a r hlog
        cases newer with
        | nil =>
          cases hpast
          exact hfor since before i op a r hlog
        | cons _ newer =>
          exact hinst.calls newer e older (List.cons.inj hpast).2 since before i op a r hlog

/-- **Authority descends from the first start.** After any processes over new tables, with any
flags, environments, failures and interleavings, every user was named by the settings of a first
start or created by a call for an administrator, every administrator was so, or was promoted by such
a call, and every such call was made for a session of an administrator that a login has created. -/
theorem descends_of_lives {w : World} (husers : w.auth.users.rows = [])
    (hsessions : w.auth.sessions = fun _ => none) {lives : List Life}
    (h : Lts.run (Installation.next env) ⟨w, []⟩ lives = some inst) : Descends env inst := by
  refine Lts.invariant (I := Descends env) (fun _ _ _ hinst => hinst.next) ?_ h
  refine ⟨?_, ?_, fun token x hx => ?_, fun newer e older hpast => ?_⟩
  · simp [husers]
  · simp [husers]
  · rw [hsessions] at hx
    cases hx
  · cases newer <;> cases hpast

end

def createCarol : Request where
  method := "POST"
  escapedPath := "/api/users".toList
  path := "/api/users".toList
  cookie := some "a"
  body := some (.obj [("username", .str "carol"), ("password", .str "secret-d"),
    ("role", .str "admin")])

/-- A login after the first start, and after the next one a request with its cookie. -/
def twoStarts : List Life :=
  [⟨firstFlags, firstEnvironment, List.replicate 8 {},
      [.invoke (.request loginRoot), .step 0 {}, .step 0 { auth := { token := "a" } }, .step 0 {},
        .step 0 {}]⟩,
    ⟨{}, firstEnvironment, List.replicate 6 {},
      .invoke (.request createCarol) :: List.replicate 8 (.step 0 {})⟩]

theorem descends_of_lives_twoStarts :
    ∃ inst, Lts.run (Installation.next plainEnv) ⟨emptyHost, []⟩ twoStarts = some inst ∧
      inst.world.auth.users.rows.map Auth.UserRow.username = ["root", "carol"] ∧
      Descends plainEnv inst := by
  have henabled : ((Lts.run (Installation.next plainEnv) ⟨emptyHost, []⟩ twoStarts).map
      fun inst => inst.world.auth.users.rows.map Auth.UserRow.username) =
        some ["root", "carol"] := by decide
  obtain ⟨inst, hrun, hnames⟩ := Option.map_eq_some_iff.1 henabled
  exact ⟨inst, hrun, hnames, descends_of_lives rfl rfl hrun⟩

end Server

end QuickVps
