import QuickVps.Auth.Calls
import QuickVps.Lib.Pool

/-!
# The last administrator

`UpdateUser` and `DeleteUser` refuse to take the role from the last admin, but they count the
admins in one statement and write in another. Two calls that take it from two different admins can
both count two.

* `HasAdmin` — some row has the role;
* `no_admin_left` — a run of two calls after which none has;
* `Checks`, `UserOp.checks` — what a call has read by its last statement when it takes the role;
* `Known`, `known_next` — what it has read still holds, unless another call has overtaken it;
* `visits_hasAdmin_of_undisturbed` — there is always an admin where no check was overtaken.
-/

namespace QuickVps.Auth

/-! ## Concurrent calls -/

inductive UserOp where
  | createUser (username password role : String)
  | updateUser (id : Int) (role password : Option String)
  | deleteUser (id : Int)

def UserOp.program : UserOp → M (Except Error Unit)
  | createUser username password role => do
    return (← Auth.createUser username password role).map fun _ => ()
  | updateUser id role password => do
    return (← Auth.updateUser id role password).map fun _ => ()
  | deleteUser id => Auth.deleteUser id

/-- A users table with calls in progress, one statement at a time. -/
abbrev Calls := Pool.State World UserOp Op Op.Ans (Except Error Unit)

def Calls.next (bcrypt : Bcrypt) : Calls → Pool.Act UserOp Choice → Option Calls :=
  Pool.next UserOp.program (exec bcrypt)

def HasAdmin (w : World) : Prop := ∃ r ∈ w.users.rows, r.role = .admin

instance (w : World) : Decidable (HasAdmin w) :=
  inferInstanceAs (Decidable (∃ r ∈ w.users.rows, r.role = .admin))

/-! ## A run without an admin at its end -/

def twoAdmins : World where
  users := .seed [("alice", "", .admin), ("bob", "", .admin)]
  sessions := fun _ => none
  audits := []
  memory := fun _ => none

/-- Both admins are made viewers: each call reads its target, counts, and then writes. -/
def demotions : List (Pool.Act UserOp Choice) :=
  [.invoke (.updateUser 1 (some "viewer") none), .invoke (.updateUser 2 (some "viewer") none),
    .step 0 {}, .step 1 {}, .step 0 {}, .step 1 {}, .step 0 {}, .step 1 {}]

/-- **No admin is left** after two demotions that were both allowed. -/
theorem no_admin_left :
    ¬ ∀ (bcrypt : Bcrypt) (w : World) (acts : List (Pool.Act UserOp Choice)) (s : Calls),
      HasAdmin w → Lts.run (Calls.next bcrypt) (Pool.start w) acts = some s →
        HasAdmin s.shared := by
  intro hall
  have hlost : (Lts.run (Calls.next plainBcrypt) (Pool.start twoAdmins) demotions).map
      (fun s => decide (HasAdmin s.shared)) = some false := by
    decide
  obtain ⟨s, hs, hnone⟩ := Option.map_eq_some_iff.1 hlost
  exact of_decide_eq_false hnone (hall plainBcrypt twoAdmins demotions s (by decide) hs)

/-! ## Counting admins -/

namespace Users

/-- Ids are unique, so the rows with an id are the one row that is found. -/
theorem filter_id_eq (t : Users) (id : Int) :
    (t.rows.filter fun r => r.id = id) = (t.find id).toList := by
  have hnodup : (t.rows.map UserRow.id).Nodup := by
    rw [List.Nodup, List.pairwise_map]
    exact t.ascending.imp fun h => h.ne
  unfold find
  generalize t.rows = rows at hnodup
  induction rows with
  | nil => rfl
  | cons r rows ih =>
    obtain ⟨hr, hrest⟩ := List.nodup_cons.1 hnodup
    by_cases hid : r.id = id
    · have hnone : (rows.filter fun r => r.id = id) = [] := by
        refine List.filter_eq_nil_iff.2 fun r' hr' => ?_
        rw [decide_eq_true_eq, ← hid]
        exact fun heq => hr (heq ▸ List.mem_map_of_mem hr')
      simp [hid, hnone]
    · simpa [hid] using ih hrest

/-- Whether the row with this id is an admin. -/
def adminAt (t : Users) (id : Int) : Nat := (t.find id).toList.countP fun r => r.role = .admin

theorem adminAt_le_one (t : Users) (id : Int) : t.adminAt id ≤ 1 := by
  unfold adminAt
  cases t.find id with
  | none => exact Nat.zero_le 1
  | some r => exact List.countP_le_length

theorem countAdmins_eq_add (t : Users) (id : Int) :
    t.countAdmins = (t.delete id).countAdmins + t.adminAt id := by
  unfold countAdmins adminAt
  rw [rows_delete, List.countP_eq_countP_filter_add _ _ (fun r => decide (r.id ≠ id)),
    ← filter_id_eq]
  congr 2
  refine List.filter_congr fun r _ => ?_
  by_cases hid : r.id = id <;> simp [hid]

theorem countAdmins_setRole_viewer (t : Users) (id : Int) :
    (t.setRole id .viewer).countAdmins = (t.delete id).countAdmins := by
  unfold countAdmins
  rw [rows_setRole, rows_delete, List.countP_map, List.countP_filter]
  refine List.countP_congr fun r _ => ?_
  by_cases hid : r.id = id <;> simp [hid]

theorem countAdmins_le_setRole_admin (t : Users) (id : Int) :
    t.countAdmins ≤ (t.setRole id .admin).countAdmins := by
  unfold countAdmins
  rw [rows_setRole, List.countP_map]
  refine List.countP_mono_left fun r _ hr => ?_
  by_cases hid : r.id = id
  · simp [hid]
  · simpa [hid] using hr

theorem countAdmins_setPassword (t : Users) (id : Int) (hash : String) :
    (t.setPassword id hash).countAdmins = t.countAdmins := by
  unfold countAdmins
  rw [rows_setPassword, List.countP_map]
  refine List.countP_congr fun r _ => ?_
  by_cases hid : r.id = id <;> simp [hid]

theorem countAdmins_le_insert {t t' : Users} {username hash : String} {role : Role} {id : Int}
    (h : t.insert username hash role = some (id, t')) : t.countAdmins ≤ t'.countAdmins := by
  unfold countAdmins
  rw [t.rows_of_insert id h, List.countP_append]
  exact Nat.le_add_right _ _

end Users

theorem hasAdmin_iff (w : World) : HasAdmin w ↔ 0 < w.users.countAdmins := by
  unfold HasAdmin Users.countAdmins
  rw [List.countP_pos_iff]
  simp

/-- No row with this id has the role. -/
def NotAdmin (w : World) (id : Int) : Prop := ∀ r ∈ w.users.rows, r.id = id → r.role ≠ .admin

theorem notAdmin_iff (w : World) (id : Int) : NotAdmin w id ↔ w.users.adminAt id = 0 := by
  rw [Users.adminAt, ← Users.filter_id_eq, List.countP_filter, List.countP_eq_zero]
  refine forall₂_congr fun r _ => ?_
  simp only [Bool.and_eq_true, decide_eq_true_eq, not_and]
  exact ⟨fun h hrole hid => h hid hrole, fun h hid hrole => h hrole hid⟩

/-! ## What a call does to the admins -/

/-- The row that an operation takes the role from. -/
def Op.taken : Op → Option Int
  | .sql (.updateRole .viewer id) => some id
  | .sql (.deleteUser id) => some id
  | _ => none

/-- A statement that was answered. -/
def Done : Prog.Call Op Op.Ans → Prop
  | ⟨.sql _, .ok _⟩ => True
  | _ => False

instance : DecidablePred Done
  | ⟨.sql _, .ok _⟩ => isTrue trivial
  | ⟨.sql _, .error _⟩ => isFalse id
  | ⟨.now, _⟩ => isFalse id
  | ⟨.randomToken, _⟩ => isFalse id
  | ⟨.hashPassword _, _⟩ => isFalse id
  | ⟨.create .., _⟩ => isFalse id
  | ⟨.lookup _, _⟩ => isFalse id
  | ⟨.put .., _⟩ => isFalse id
  | ⟨.remove _, _⟩ => isFalse id
  | ⟨.removeByUserID _, _⟩ => isFalse id

/-- Nothing but a statement touches the table of users. -/
theorem users_exec {bcrypt : Bcrypt} {c : Choice} {op : Op} {w w' : World} {r : op.Ans}
    (hop : ∀ stmt, op ≠ .sql stmt) (h : exec bcrypt c op w = some (r, w')) :
    w'.users = w.users := by
  cases op with
  | sql stmt => exact absurd rfl (hop stmt)
  | now => cases h; rfl
  | randomToken => rw [randomToken_exec h]
  | hashPassword password => cases h; rfl
  | create persistent s =>
    rcases create_exec_cases h with rfl | ⟨-, sessions, -, rfl⟩
    · rfl
    · rfl
  | lookup token => cases h; rfl
  | put token s => cases h; rfl
  | remove token => cases h; rfl
  | removeByUserID userID => cases h; rfl

section Exec

variable {bcrypt : Bcrypt} {c : Choice} {e : Op} {r : e.Ans} {w w' : World}

/-- A call leaves the users alone, or it is a statement that was answered. -/
theorem users_exec_cases (h : exec bcrypt c e w = some (r, w')) :
    w'.users = w.users ∨
      ∃ stmt a, e = .sql stmt ∧ c.fault = none ∧ stmt.exec c.now w = (.ok a, w') ∧
        Done ⟨e, r⟩ := by
  by_cases hsql : ∃ stmt, e = .sql stmt
  · obtain ⟨stmt, rfl⟩ := hsql
    rcases sql_exec_cases h with ⟨err, -, -, rfl⟩ | ⟨hfault, hstmt⟩
    · exact .inl rfl
    · cases r with
      | error err =>
        left
        cases stmt with
        | insertUser username hash role =>
          simp only [Stmt.exec] at hstmt
          split at hstmt
          · cases hstmt
            rfl
          · cases hstmt
        | _ => cases hstmt
      | ok a => exact .inr ⟨stmt, a, rfl, hfault, hstmt, trivial⟩
  · exact .inl (users_exec (fun stmt heq => hsql ⟨stmt, heq⟩) h)

theorem countAdmins_delete (w : World) (id : Int) :
    w.users.countAdmins ≤ (w.users.delete id).countAdmins ∨
      ¬ NotAdmin w id ∧ w.users.countAdmins ≤ (w.users.delete id).countAdmins + 1 := by
  have hsum := w.users.countAdmins_eq_add id
  have hle := w.users.adminAt_le_one id
  rw [notAdmin_iff]
  omega

/-- **What a call does to the number of admins**: it can lose one, when it takes the role from an
admin. -/
theorem countAdmins_exec (h : exec bcrypt c e w = some (r, w')) :
    w.users.countAdmins ≤ w'.users.countAdmins ∨
      ∃ id ∈ e.taken, c.fault = none ∧ Done ⟨e, r⟩ ∧ ¬ NotAdmin w id ∧
        w.users.countAdmins ≤ w'.users.countAdmins + 1 := by
  rcases users_exec_cases h with heq | ⟨stmt, a, rfl, hfault, hstmt, hdone⟩
  · exact .inl (by rw [heq])
  · cases stmt with
    | updateRole role id =>
      cases hstmt
      cases role with
      | admin => exact .inl (w.users.countAdmins_le_setRole_admin id)
      | viewer =>
        rw [w.users.countAdmins_setRole_viewer id]
        exact (countAdmins_delete w id).imp_right fun hlost => ⟨id, rfl, hfault, hdone, hlost⟩
    | deleteUser id =>
      cases hstmt
      exact (countAdmins_delete w id).imp_right fun hlost => ⟨id, rfl, hfault, hdone, hlost⟩
    | updatePassword hash id =>
      cases hstmt
      exact .inl (w.users.countAdmins_setPassword id hash).ge
    | insertUser username hash role =>
      simp only [Stmt.exec] at hstmt
      split at hstmt
      · cases hstmt
      next id users hins =>
        cases hstmt
        exact .inl (Users.countAdmins_le_insert hins)
    | _ =>
      cases hstmt
      exact .inl le_rfl

/-- A row that is there and has not the role gets it from a statement that gives it. -/
theorem notAdmin_exec {id : Int} (h : exec bcrypt c e w = some (r, w'))
    (hid : id ≤ w.users.seq ∧ NotAdmin w id)
    (hgives : ¬ (Done ⟨e, r⟩ ∧ e = .sql (.updateRole .admin id))) :
    id ≤ w'.users.seq ∧ NotAdmin w' id := by
  obtain ⟨hseq, hnot⟩ := hid
  rcases users_exec_cases h with heq | ⟨stmt, a, rfl, hfault, hstmt, hdone⟩
  · unfold NotAdmin
    rw [heq]
    exact ⟨hseq, hnot⟩
  · cases stmt with
    | updateRole role id' =>
      cases hstmt
      refine ⟨hseq, fun r' hr' => ?_⟩
      obtain ⟨r, hr, rfl⟩ := List.mem_map.1 hr'
      by_cases hid' : r.id = id'
      · rw [if_pos hid']
        rintro (rfl : r.id = id) (rfl : role = .admin)
        exact hgives ⟨hdone, by rw [hid']⟩
      · rw [if_neg hid']
        exact hnot r hr
    | updatePassword hash id' =>
      cases hstmt
      refine ⟨hseq, fun r' hr' => ?_⟩
      obtain ⟨r, hr, rfl⟩ := List.mem_map.1 hr'
      have := hnot r hr
      split_ifs <;> exact this
    | deleteUser id' =>
      cases hstmt
      exact ⟨hseq, fun r' hr' => hnot r' (List.mem_filter.1 hr').1⟩
    | insertUser username hash role =>
      simp only [Stmt.exec] at hstmt
      split at hstmt
      · cases hstmt
      next new users hins =>
        cases hstmt
        obtain ⟨hnew, husers⟩ := Users.seq_of_insert hins
        refine ⟨hseq.trans (by rw [husers]; omega), fun r' hr' => ?_⟩
        rw [w.users.rows_of_insert _ hins] at hr'
        rcases List.mem_append.1 hr' with hr | hr
        · exact hnot r' hr
        · obtain rfl := List.mem_singleton.1 hr
          intro (heq : a = id)
          have hnext : id = w.users.seq + 1 := heq.symm.trans hnew
          omega
    | _ =>
      cases hstmt
      exact ⟨hseq, hnot⟩

/-- **An admin is left** when the row that a call takes the role from is no admin's, or another
admin is there. -/
theorem hasAdmin_exec (h : exec bcrypt c e w = some (r, w')) (hw : HasAdmin w)
    (hspared : ∀ id ∈ e.taken, c.fault = none → NotAdmin w id ∨ 1 < w.users.countAdmins) :
    HasAdmin w' := by
  rw [hasAdmin_iff] at hw ⊢
  rcases countAdmins_exec h with hle | ⟨id, hid, hfault, -, hadmin, hle⟩
  · exact hw.trans_le hle
  · have hmore := (hspared id hid hfault).resolve_left hadmin
    omega

end Exec

/-! ## What a call has read before it takes the role -/

/-- The read shows that the row can lose the role: it does not have it, or it is not the only one
that does. -/
def Clears (id : Int) : Prog.Call Op Op.Ans → Prop
  | ⟨.sql (.selectUserByID id'), .ok (some user)⟩ => id' = id ∧ user.role ≠ .admin
  | ⟨.sql .countAdmins, .ok n⟩ => 1 < n
  | _ => False

def Cleared (h : Past) (id : Int) : Prop := ∃ last ∈ h.head?, Clears id last

/-- The last thing a call has done before it takes the role from a row is to read that it can. -/
def Checks (h : Past) (e : Op) : Prop := ∀ id ∈ e.taken, Cleared h id

theorem checks_of_reads (h : Past) {e : Op} (he : e.Reads) :
    Checks h e := by
  cases e with
  | sql stmt =>
    cases stmt with
    | updateRole | deleteUser => cases he.2
    | _ => exact fun id hid => by cases hid
  | hashPassword => exact fun id hid => by cases hid
  | _ => exact he.elim

theorem checks_reading {α : Type} {p : M α} (hp : p.Only Op.Reads)
    (h : Past) : p.Follows Checks (fun _ _ => True) h := by
  have hok : ∀ h e, Op.Reads e → True → Checks h e := fun h _ he _ => checks_of_reads h he
  exact hp.follows hok (fun _ _ _ _ _ => trivial) trivial

theorem checks_getUserByID (id : Int) (h : Past) :
    (getUserByID id).Follows Checks
      (fun h' a => ∀ user, a = .ok user → user.role ≠ .admin → Cleared h' id) h := by
  unfold getUserByID
  rw [Prog.follows_bind]
  refine (Prog.follows_op (e := Op.sql (.selectUserByID id))).2
    ⟨checks_of_reads h ⟨rfl, rfl⟩, fun a => ?_⟩
  match a with
  | .error err => exact Prog.follows_ret.2 fun user huser => by cases huser
  | .ok none => exact Prog.follows_ret.2 fun user huser => by cases huser
  | .ok (some found) =>
    refine Prog.follows_ret.2 fun user huser hrole => ?_
    cases huser
    exact ⟨_, rfl, rfl, hrole⟩

/-- When the check passes, the role can be taken, if it can where nothing had to be checked. -/
theorem checks_checkLastAdmin (loses P : Prop) [Decidable loses] {id : Int} {h : Past}
    (hnot : ¬ loses → P → Cleared h id) :
    (checkLastAdmin loses).Follows Checks (fun h' a => a = .ok () → P → Cleared h' id) h := by
  unfold checkLastAdmin
  split_ifs with hloses
  · rw [Prog.follows_bind]
    unfold countAdmins
    rw [Prog.follows_bind]
    refine (Prog.follows_op (e := Op.sql .countAdmins)).2
      ⟨checks_of_reads h ⟨rfl, rfl⟩, fun counted => ?_⟩
    cases counted with
    | error err => exact Prog.follows_ret.2 (Prog.follows_ret.2 fun hok => by cases hok)
    | ok n =>
      refine Prog.follows_ret.2 ?_
      simp only
      split_ifs with hle
      · exact Prog.follows_ret.2 fun hok => by cases hok
      · exact Prog.follows_ret.2 fun _ _ => ⟨_, rfl, Nat.lt_of_not_le hle⟩
  · exact Prog.follows_ret.2 fun _ => hnot hloses

theorem checks_updateRole {current : User} {id : Int} {h : Past}
    (hcurrent : current.role ≠ .admin → Cleared h id) (role : String) :
    (updateRole current id role).Follows Checks (fun _ _ => True) h := by
  unfold updateRole
  cases normalizeRole role with
  | none => exact Prog.follows_ret.2 trivial
  | some cleanRole =>
    rw [Prog.follows_bind]
    have hcheck := checks_checkLastAdmin (current.role = .admin ∧ cleanRole ≠ .admin)
      (cleanRole ≠ .admin) fun hnot hclean => hcurrent fun hadmin => hnot ⟨hadmin, hclean⟩
    refine hcheck.mono (fun _ _ _ hok => hok) fun h' checked _ hcleared => ?_
    cases checked with
    | error err => exact Prog.follows_ret.2 trivial
    | ok =>
      rw [Prog.follows_bind]
      refine (Prog.follows_op (e := Op.sql (.updateRole cleanRole id))).2 ⟨?_, fun answer => ?_⟩
      · intro id' hid'
        cases cleanRole with
        | admin => cases hid'
        | viewer =>
          cases hid'
          exact hcleared rfl (by decide)
      · cases answer <;> exact Prog.follows_ret.2 trivial

theorem checks_updatePassword (id : Int) (password : String) (h : Past) :
    (updatePassword id password).Follows Checks (fun _ _ => True) h := by
  unfold updatePassword
  split_ifs
  · exact Prog.follows_ret.2 trivial
  · rw [Prog.follows_bind]
    refine (Prog.follows_op (e := Op.hashPassword password)).2
      ⟨checks_of_reads h trivial, fun hashed => ?_⟩
    cases hashed with
    | error err => exact Prog.follows_ret.2 trivial
    | ok hash =>
      simp only
      rw [Prog.follows_bind]
      refine (Prog.follows_op (e := Op.sql (.updatePassword hash id))).2
        ⟨fun id' hid' => (by cases hid'), fun answer => ?_⟩
      cases answer <;> exact Prog.follows_ret.2 trivial

theorem checks_createUser (username password role : String) :
    (createUser username password role).Follows Checks (fun _ _ => True) [] := by
  unfold createUser
  cases normalizeUsername username with
  | none => exact Prog.follows_ret.2 trivial
  | some cleanUsername =>
    cases normalizeRole role with
    | none => exact Prog.follows_ret.2 trivial
    | some cleanRole =>
      simp only
      split_ifs
      · exact Prog.follows_ret.2 trivial
      · rw [Prog.follows_bind]
        refine (Prog.follows_op (e := Op.hashPassword password)).2
          ⟨checks_of_reads _ trivial, fun hashed => ?_⟩
        cases hashed with
        | error err => exact Prog.follows_ret.2 trivial
        | ok hash =>
          simp only
          rw [Prog.follows_bind]
          refine (Prog.follows_op (e := Op.sql (.insertUser cleanUsername hash cleanRole))).2
            ⟨fun id hid => (by cases hid), fun answer => ?_⟩
          cases answer with
          | error err =>
            simp only
            split_ifs <;> exact Prog.follows_ret.2 trivial
          | ok id => exact Prog.follows_ret.2 trivial

/-- A part of an update that is left out checks nothing. -/
theorem checks_part (asked : Option String) {part : String → M (Except Error Unit)}
    {h : Past}
    (hpart : ∀ given, (part given).Follows Checks (fun _ _ => True) h) :
    (asked.elim (pure (.ok ())) part).Follows Checks (fun _ _ => True) h := by
  cases asked with
  | none => exact Prog.follows_ret.2 trivial
  | some given => exact hpart given

theorem checks_updateUser (id : Int) (role password : Option String) :
    (updateUser id role password).Follows Checks (fun _ _ => True) [] := by
  unfold updateUser
  rw [Prog.follows_bind]
  refine (checks_getUserByID id []).mono (fun _ _ _ hok => hok) fun h found _ hfound => ?_
  cases found with
  | error err => exact Prog.follows_ret.2 trivial
  | ok current =>
    simp only
    rw [Prog.follows_bind]
    refine (checks_part role (checks_updateRole (hfound current rfl))).mono
      (fun _ _ _ hok => hok) fun h₁ changed _ _ => ?_
    cases changed with
    | error err => exact Prog.follows_ret.2 trivial
    | ok =>
      simp only
      rw [Prog.follows_bind]
      refine (checks_part password fun given => checks_updatePassword id given h₁).mono
        (fun _ _ _ hok => hok) fun h₂ changed _ _ => ?_
      cases changed with
      | error err => exact Prog.follows_ret.2 trivial
      | ok => exact checks_reading (only_getUserByID id) h₂

theorem checks_deleteUser (id : Int) :
    (deleteUser id).Follows Checks (fun _ _ => True) [] := by
  unfold deleteUser
  rw [Prog.follows_bind]
  refine (checks_getUserByID id []).mono (fun _ _ _ hok => hok) fun h found _ hfound => ?_
  cases found with
  | error err => exact Prog.follows_ret.2 trivial
  | ok target =>
    simp only
    rw [Prog.follows_bind]
    have hcheck := checks_checkLastAdmin (target.role = .admin) True fun hnot _ =>
      hfound target rfl hnot
    refine hcheck.mono (fun _ _ _ hok => hok) fun h' checked _ hcleared => ?_
    cases checked with
    | error err => exact Prog.follows_ret.2 trivial
    | ok =>
      simp only
      rw [Prog.follows_bind]
      refine (Prog.follows_op (e := Op.sql (.deleteUser id))).2 ⟨?_, fun answer => ?_⟩
      · intro id' hid'
        cases hid'
        exact hcleared rfl trivial
      · cases answer with
        | error err => exact Prog.follows_ret.2 trivial
        | ok affected =>
          simp only
          split_ifs <;> exact Prog.follows_ret.2 trivial

/-- **Every call checks** before it takes the role from a row. -/
theorem UserOp.checks (op : UserOp) : op.program.Follows Checks (fun _ _ => True) [] := by
  cases op with
  | createUser username password role =>
    unfold UserOp.program
    rw [Prog.follows_bind]
    exact (checks_createUser username password role).mono (fun _ _ _ hok => hok)
      fun _ _ _ _ => Prog.follows_ret.2 trivial
  | updateUser id role password =>
    unfold UserOp.program
    rw [Prog.follows_bind]
    exact (checks_updateUser id role password).mono (fun _ _ _ hok => hok)
      fun _ _ _ _ => Prog.follows_ret.2 trivial
  | deleteUser id => exact checks_deleteUser id

/-! ## What it has read still holds -/

/-- The row that an operation looks at. -/
def Op.looked : Op → Option Int
  | .sql (.selectUserByID id) => some id
  | _ => none

/-- A count is overtaken when another call that has counted the admins takes the role from its
target, and a look at a row when another call gives the row the role. -/
def Overtakes (last : Prog.Call Op Op.Ans) : Past → Prop
  | [] => False
  | c :: h =>
    Done c ∧
      (last.1 = .sql .countAdmins ∧ c.1.taken.isSome ∧
          h.head?.map Sigma.fst = some (.sql .countAdmins) ∨
        ∃ id ∈ last.1.looked, c.1 = .sql (.updateRole .admin id))

instance decidableOvertakes (last : Prog.Call Op Op.Ans) :
    ∀ h, Decidable (Overtakes last h)
  | [] => isFalse id
  | _ :: _ => inferInstanceAs (Decidable (_ ∧ (_ ∨ _)))

/-- What a read has found holds. -/
def Known (w : World) : Prog.Call Op Op.Ans → Prop
  | ⟨.sql .countAdmins, .ok n⟩ => n ≤ w.users.countAdmins
  | ⟨.sql (.selectUserByID id), .ok (some user)⟩ =>
    user.role ≠ .admin → id ≤ w.users.seq ∧ NotAdmin w id
  | _ => True

/-- The row that is found is the only one with its id. -/
theorem notAdmin_of_find {w : World} {id : Int} {user : User}
    (h : (w.users.find id).map UserRow.user = some user) (hrole : user.role ≠ .admin) :
    id ≤ w.users.seq ∧ NotAdmin w id := by
  obtain ⟨row, hrow, rfl⟩ := Option.map_eq_some_iff.1 h
  have hrows := w.users.filter_id_eq id
  rw [hrow] at hrows
  have hmem : row ∈ w.users.rows.filter fun r => r.id = id := by simp [hrows]
  obtain ⟨hissued, hid⟩ := List.mem_filter.1 hmem
  refine ⟨of_decide_eq_true hid ▸ (w.users.issued row hissued).2, fun r hr hrid => ?_⟩
  have hr' : r ∈ w.users.rows.filter fun r => r.id = id :=
    List.mem_filter.2 ⟨hr, decide_eq_true hrid⟩
  rw [hrows] at hr'
  obtain rfl : r = row := by simpa using hr'
  exact hrole

theorem known_found {bcrypt : Bcrypt} {c : Choice} {e : Op} {r : e.Ans} {w w' : World}
    (h : exec bcrypt c e w = some (r, w')) : Known w' ⟨e, r⟩ := by
  cases e with
  | sql stmt =>
    rcases sql_exec_cases h with ⟨err, -, rfl, rfl⟩ | ⟨-, hstmt⟩
    · cases stmt <;> trivial
    · cases stmt with
      | countAdmins =>
        cases hstmt
        exact le_rfl
      | selectUserByID id =>
        cases hstmt
        cases hfind : (w.users.find id).map UserRow.user with
        | none => trivial
        | some user => exact notAdmin_of_find hfind
      | _ => trivial
  | _ => trivial

/-- What clears a row, if it is known, spares it. -/
theorem spared_of_known {w : World} {id : Int} {last : Prog.Call Op Op.Ans}
    (hclears : Clears id last) (hknown : Known w last) :
    NotAdmin w id ∨ 1 < w.users.countAdmins ∧ last.1 = .sql .countAdmins := by
  unfold Clears at hclears
  split at hclears
  next id' user =>
    obtain ⟨rfl, hrole⟩ := hclears
    exact .inl (hknown hrole).2
  next n => exact .inr ⟨hclears.trans_le hknown, rfl⟩
  next => exact hclears.elim

/-! ## Calls that are not overtaken -/

/-- A call that is about to take the role from a row, by a statement that does not fail, has not
been overtaken since it read that it can. -/
def Undisturbed (s : Calls) : Pool.Act UserOp Choice → Prop :=
  Pool.OnCall (fun i c e => e.taken.isSome → c.fault = none → ¬ Pool.Overtaken Overtakes i s.log) s

instance (s : Calls) : DecidablePred (Undisturbed s) := fun a =>
  inferInstanceAs (Decidable (Pool.OnCall _ s a))

/-- The calls check, what they have read holds unless it was overtaken, and there is an admin. -/
structure Safe (s : Calls) : Prop where
  good : Pool.Good (fun _ => Checks) (fun _ _ _ => True) s
  remembers : Pool.Remembers Overtakes Known s
  admin : HasAdmin s.shared

section Step

variable {bcrypt : Bcrypt} {s s' : Calls} {i : Nat} {c : Choice} {op : UserOp} {e : Op}
  {k : e.Ans → M (Except Error Unit)}

/-- The row is spared, and if it is an admin's, the call has just counted. -/
theorem Safe.spared (hs : Safe s) (hu : Undisturbed s (.step i c))
    (hi : s.threads[i]? = some ⟨op, .call e k⟩) {id : Int} (hid : id ∈ e.taken)
    (hfault : c.fault = none) :
    NotAdmin s.shared id ∨ 1 < s.shared.users.countAdmins ∧
      (Pool.hist i s.log).head?.map Sigma.fst = some (.sql .countAdmins) := by
  obtain ⟨hchecks, -⟩ := Prog.follows_call.1 (hs.good.follows i _ hi)
  obtain ⟨last, hlast, hclears⟩ := hchecks id hid
  have hnot : ¬ Pool.Overtaken Overtakes i s.log :=
    Pool.OnCall.call hu hi (Option.isSome_of_mem hid) hfault
  obtain ⟨rest, hhist⟩ := List.head?_eq_some_iff.1 hlast
  refine (spared_of_known hclears (hs.remembers i last rest hhist hnot)).imp_right ?_
  rintro ⟨hmore, hcount⟩
  exact ⟨hmore, by rw [hhist, List.head?_cons, Option.map_some, hcount]⟩

/-- What a read has found is kept by a step of another call that does not overtake it. -/
theorem Safe.known_kept (hs : Safe s) (hu : Undisturbed s (.step i c))
    (hi : s.threads[i]? = some ⟨op, .call e k⟩) {r : e.Ans} {w' : World}
    {last : Prog.Call Op Op.Ans} (hexec : exec bcrypt c e s.shared = some (r, w'))
    (hnot : ¬ Overtakes last (⟨e, r⟩ :: Pool.hist i s.log)) (hknown : Known s.shared last) :
    Known w' last := by
  unfold Known
  split
  next n =>
    rcases countAdmins_exec hexec with hle | ⟨id, hid, hfault, hdone, hadmin, -⟩
    · exact le_trans (b := s.shared.users.countAdmins) hknown hle
    · obtain ⟨-, hcounted⟩ := (hs.spared hu hi hid hfault).resolve_left hadmin
      exact absurd ⟨hdone, .inl ⟨rfl, Option.isSome_of_mem hid, hcounted⟩⟩ hnot
  next id user =>
    intro hrole
    refine notAdmin_exec hexec (hknown hrole) fun ⟨hdone, hgives⟩ => hnot ?_
    exact ⟨hdone, .inr ⟨id, rfl, hgives⟩⟩
  next => trivial

theorem Safe.next {a : Pool.Act UserOp Choice} (hs : Safe s) (hu : Undisturbed s a)
    (h : s.next bcrypt a = some s') : Safe s' := by
  refine ⟨Pool.good_next UserOp.checks hs.good h, ?_, ?_⟩
  · refine Pool.remembers_next (fun _ _ _ _ _ => known_found) ?_ hs.remembers h
    rintro i c op e k r w' last rfl hi hexec
    exact hs.known_kept hu hi hexec
  · cases a with
    | invoke op =>
      cases h
      exact hs.admin
    | step i c =>
      obtain ⟨op, e, k, r, w', hi, hexec, rfl⟩ := Pool.next_step h
      refine hasAdmin_exec hexec hs.admin fun id hid hfault => ?_
      exact (hs.spared hu hi hid hfault).imp_right And.left

end Step

/-- **There is always an admin where no check was overtaken.** -/
theorem visits_hasAdmin_of_undisturbed (bcrypt : Bcrypt) (w : World)
    (acts : List (Pool.Act UserOp Choice)) (hw : HasAdmin w)
    (hacts : Lts.Along (Calls.next bcrypt) Undisturbed (Pool.start w) acts) :
    Lts.Visits (Calls.next bcrypt) (fun s => HasAdmin s.shared) (Pool.start w) acts := by
  have hstart : Safe (Pool.start w) := ⟨Pool.good_start w, Pool.remembers_start w, hw⟩
  refine (Lts.visits_of_along ?_ hstart hacts).mono fun s hs => hs.admin
  exact fun s a s' hs hu hstep => hs.next hu hstep

/-- The calls of `demotions` one after the other: the second one counts one admin and is refused. -/
def refusals : List (Pool.Act UserOp Choice) :=
  [.invoke (.updateUser 1 (some "viewer") none), .invoke (.updateUser 2 (some "viewer") none),
    .step 0 {}, .step 1 {}, .step 0 {}, .step 0 {}, .step 1 {}]

theorem visits_hasAdmin_of_undisturbed_refusals :
    (Lts.run (Calls.next plainBcrypt) (Pool.start twoAdmins) refusals).isSome ∧
      Lts.Visits (Calls.next plainBcrypt) (fun s => HasAdmin s.shared) (Pool.start twoAdmins)
        refusals :=
  ⟨by decide, visits_hasAdmin_of_undisturbed plainBcrypt twoAdmins refusals (by decide) (by decide)⟩

end QuickVps.Auth
