import QuickVps.Auth.Calls
import QuickVps.Auth.Reliable

/-!
# What the calls change

The functions of `Store` that write users, on a store whose statements succeed: which row each
changes, and what it answers then.

* `Users.find` after each operation on the table;
* `Halfway` — when `updateUser` fails after it has changed the role.
* `createUser_reliably`, `updateUser_reliably`, `deleteUser_reliably`, `logUserAudit_reliably`.
-/

namespace QuickVps.Auth

/-! ## Rows -/

namespace Users

theorem mem_of_find {t : Users} {id : Int} {row : UserRow} (h : t.find id = some row) :
    row ∈ t.rows ∧ row.id = id :=
  ⟨List.mem_of_find?_eq_some h, by simpa using List.find?_some h⟩

theorem find_modify (t : Users) (id : Int) (f : UserRow → UserRow)
    (hf : ∀ r, (f r).id = r.id ∧ (f r).username = r.username) (other : Int) :
    (t.modify id f hf).find other =
      if other = id then (t.find id).map f else t.find other := by
  have hid : ((fun r : UserRow => decide (r.id = other)) ∘
      fun r => if r.id = id then f r else r) = fun r => decide (r.id = other) := by
    funext r
    simp only [Function.comp_apply]
    split_ifs
    · rw [(hf r).1]
    · rfl
  show (t.rows.map _).find? _ = _
  rw [List.find?_map, hid]
  by_cases hother : other = id
  · subst hother
    rw [if_pos rfl]
    show (t.find other).map _ = (t.find other).map _
    cases hrow : t.find other with
    | none => rfl
    | some row => simp [(mem_of_find hrow).2]
  · rw [if_neg hother]
    show (t.find other).map _ = t.find other
    cases hrow : t.find other with
    | none => rfl
    | some row => simp [(mem_of_find hrow).2, hother]

theorem find_setRole (t : Users) (id other : Int) (role : Role) :
    (t.setRole id role).find other =
      if other = id then (t.find id).map fun r => { r with role := role } else t.find other :=
  find_modify ..

theorem find_setPassword (t : Users) (id other : Int) (hash : String) :
    (t.setPassword id hash).find other =
      if other = id then (t.find id).map fun r => { r with passwordHash := hash }
      else t.find other :=
  find_modify ..

theorem find_delete_of_ne (t : Users) {id other : Int} (hother : other ≠ id) :
    (t.delete id).find other = t.find other := by
  show (t.rows.filter _).find? _ = t.rows.find? _
  rw [List.find?_filter]
  congr 1
  funext r
  by_cases hr : r.id = other
  · simp [hr, hother]
  · simp [hr]

theorem find_of_insert {t t' : Users} {username hash : String} {role : Role} {id : Int}
    (h : t.insert username hash role = some (id, t')) :
    t'.find id = some ⟨id, username, hash, role⟩ ∧
      ∀ other, other ≠ id → t'.find other = t.find other := by
  have hid : id = t.seq + 1 := by
    unfold insert at h
    split_ifs at h
    cases h
    rfl
  have hnew : t.find id = none := by
    refine List.find?_eq_none.2 fun r hr => ?_
    have hissued := (t.issued r hr).2
    simp only [decide_eq_true_eq]
    omega
  refine ⟨?_, fun other hother => ?_⟩
  · rw [find, rows_of_insert _ _ h, List.find?_append]
    rw [find] at hnew
    simp [hnew]
  · rw [find, rows_of_insert _ _ h, List.find?_append, find]
    simp [Ne.symm hother]

theorem countP_pos_of_find {t : Users} {id : Int} {row : UserRow} (h : t.find id = some row) :
    0 < t.rows.countP fun r => r.id = id :=
  List.countP_pos_iff.2 ⟨row, (mem_of_find h).1, by simpa using (mem_of_find h).2⟩

end Users

/-! ## Reads -/

variable {bcrypt : Bcrypt} {cs cs' : List Choice} {w w' : World}

theorem getUserByID_reliably {id : Int} {a : Except Error User}
    (h : (getUserByID id).run (reliably bcrypt) cs w = some (a, cs', w')) :
    w' = w ∧
      a = match w.users.find id with
        | some row => .ok row.user
        | none => .error .notFound := by
  obtain ⟨answer, ds, t, hstmt, hrest⟩ := Prog.run_bind h
  obtain ⟨c, rfl, hexec⟩ := run_stmt_reliably hstmt
  cases hexec
  cases hrow : w.users.find id with
  | none =>
    rw [hrow] at hrest
    obtain ⟨rfl, rfl, rfl⟩ := Prog.run_ret hrest
    exact ⟨rfl, rfl⟩
  | some row =>
    rw [hrow] at hrest
    obtain ⟨rfl, rfl, rfl⟩ := Prog.run_ret hrest
    exact ⟨rfl, rfl⟩

theorem checkLastAdmin_reliably {loses : Prop} [Decidable loses] {a : Except Error Unit}
    (h : (checkLastAdmin loses).run (reliably bcrypt) cs w = some (a, cs', w')) :
    w' = w ∧
      a = if loses ∧ w.users.countAdmins ≤ 1 then .error .lastAdmin else .ok () := by
  unfold checkLastAdmin at h
  split_ifs at h with hloses
  · obtain ⟨counted, ds, t, hcount, hrest⟩ := Prog.run_bind h
    obtain ⟨answer, ds', t', hstmt, hret⟩ := Prog.run_bind hcount
    obtain ⟨c, rfl, hexec⟩ := run_stmt_reliably hstmt
    cases hexec
    obtain ⟨rfl, rfl, rfl⟩ := Prog.run_ret hret
    simp only at hrest
    split_ifs at hrest with hlast
    · obtain ⟨rfl, rfl, rfl⟩ := Prog.run_ret hrest
      exact ⟨rfl, by rw [if_pos ⟨hloses, hlast⟩]⟩
    · obtain ⟨rfl, rfl, rfl⟩ := Prog.run_ret hrest
      exact ⟨rfl, by rw [if_neg fun h => hlast h.2]⟩
  · obtain ⟨rfl, rfl, rfl⟩ := Prog.run_ret h
    exact ⟨rfl, by rw [if_neg fun h => hloses h.1]⟩

/-! ## Writes -/

theorem createUser_reliably {username password role : String} {a : Except Error User}
    (h : (createUser username password role).run (reliably bcrypt) cs w = some (a, cs', w')) :
    (∃ err, a = .error err ∧ w' = w) ∨
      ∃ user hash users, a = .ok user ∧ normalizeUsername username = some user.username ∧
        (∃ salt, bcrypt.generate salt password = .ok hash) ∧
        w.users.insert user.username hash user.role = some (user.id, users) ∧
        w' = { w with users := users } := by
  unfold createUser at h
  cases hname : normalizeUsername username with
  | none =>
    rw [hname] at h
    obtain ⟨rfl, -, rfl⟩ := Prog.run_ret h
    exact .inl ⟨_, rfl, rfl⟩
  | some cleanUsername =>
  cases hrole : normalizeRole role with
  | none =>
    rw [hname, hrole] at h
    obtain ⟨rfl, -, rfl⟩ := Prog.run_ret h
    exact .inl ⟨_, rfl, rfl⟩
  | some cleanRole =>
    rw [hname, hrole] at h
    simp only at h
    split_ifs at h
    · obtain ⟨rfl, -, rfl⟩ := Prog.run_ret h
      exact .inl ⟨_, rfl, rfl⟩
    · obtain ⟨hashed, ds, t, hhash, hrest⟩ := Prog.run_bind h
      obtain ⟨c, -, -, hexec⟩ := run_op_reliably hhash
      cases hexec
      cases hgenerate : bcrypt.generate c.salt password with
      | error err =>
        rw [hgenerate] at hrest
        obtain ⟨rfl, -, rfl⟩ := Prog.run_ret hrest
        exact .inl ⟨_, rfl, rfl⟩
      | ok hash =>
        rw [hgenerate] at hrest
        obtain ⟨answer, ds', t', hstmt, hrest⟩ := Prog.run_bind hrest
        obtain ⟨c', -, hexec⟩ := run_stmt_reliably hstmt
        simp only [Stmt.exec] at hexec
        cases hinsert : w.users.insert cleanUsername hash cleanRole with
        | none =>
          rw [hinsert] at hexec
          cases hexec
          simp only at hrest
          split_ifs at hrest
          · obtain ⟨rfl, -, rfl⟩ := Prog.run_ret hrest
            exact .inl ⟨_, rfl, rfl⟩
          · obtain ⟨rfl, -, rfl⟩ := Prog.run_ret hrest
            exact .inl ⟨_, rfl, rfl⟩
        | some inserted =>
          obtain ⟨id, users⟩ := inserted
          rw [hinsert] at hexec
          cases hexec
          obtain ⟨rfl, -, rfl⟩ := Prog.run_ret hrest
          exact .inr ⟨_, hash, users, rfl, rfl, ⟨c.salt, hgenerate⟩, hinsert, rfl⟩

theorem deleteUser_reliably {id : Int} {a : Except Error Unit}
    (h : (deleteUser id).run (reliably bcrypt) cs w = some (a, cs', w')) :
    (∃ err, a = .error err ∧ w' = w) ∨
      a = .ok () ∧ w' = { w with users := w.users.delete id } := by
  obtain ⟨found, ds, t, hget, hrest⟩ := Prog.run_bind h
  obtain ⟨rfl, rfl⟩ := getUserByID_reliably hget
  cases hrow : t.users.find id with
  | none =>
    rw [hrow] at hrest
    obtain ⟨rfl, -, rfl⟩ := Prog.run_ret hrest
    exact .inl ⟨_, rfl, rfl⟩
  | some row =>
    rw [hrow] at hrest
    obtain ⟨checked, ds', t', hcheck, hrest⟩ := Prog.run_bind hrest
    obtain ⟨rfl, rfl⟩ := checkLastAdmin_reliably hcheck
    split_ifs at hrest
    · obtain ⟨rfl, -, rfl⟩ := Prog.run_ret hrest
      exact .inl ⟨_, rfl, rfl⟩
    · obtain ⟨answer, ds'', t'', hstmt, hrest⟩ := Prog.run_bind hrest
      obtain ⟨c, -, hexec⟩ := run_stmt_reliably hstmt
      cases hexec
      have hpos := Users.countP_pos_of_find hrow
      simp only [if_neg (Nat.ne_of_gt hpos)] at hrest
      obtain ⟨rfl, -, rfl⟩ := Prog.run_ret hrest
      exact .inr ⟨rfl, rfl⟩

theorem logUserAudit_reliably {actorUserID targetUserID : Int}
    {actorUsername action targetUsername details : String} {a : Except Error Unit}
    (haction : Go.trim action ≠ "")
    (h : (logUserAudit actorUserID actorUsername action targetUserID targetUsername details).run
      (reliably bcrypt) cs w = some (a, cs', w')) :
    ∃ e : UserAuditEntry, w' = { w with audits := w.audits ++ [e] } ∧
      (e.actorUserID = actorUserID ∧ e.actorUsername = actorUsername) ∧
        e.targetUserID = targetUserID ∧ e.targetUsername = targetUsername := by
  unfold logUserAudit at h
  rw [if_neg haction] at h
  obtain ⟨answer, ds, t, hstmt, hrest⟩ := Prog.run_bind h
  obtain ⟨c, -, hexec⟩ := run_stmt_reliably hstmt
  cases hexec
  obtain ⟨-, -, rfl⟩ := Prog.run_ret hrest
  exact ⟨_, rfl, ⟨rfl, rfl⟩, rfl, rfl⟩

/-! ## Updates -/

/-- The role is known, and does not take the last admin's. -/
def Users.MayBecome (t : Users) (current : Role) (role : String) (clean : Role) : Prop :=
  normalizeRole role = some clean ∧
    ¬ ((current = .admin ∧ clean ≠ .admin) ∧ t.countAdmins ≤ 1)

/-- The password is too short, or cannot be hashed. -/
def Refused (bcrypt : Bcrypt) (salt : Nat) (password : String) : Prop :=
  validatePassword password = false ∨ ∃ err, bcrypt.generate salt password = .error err

theorem updateRole_reliably {current : User} {id : Int} {role : String} {a : Except Error Unit}
    (h : (updateRole current id role).run (reliably bcrypt) cs w = some (a, cs', w')) :
    (∃ err, a = .error err ∧ (err = .invalidRole ∨ err = .lastAdmin) ∧ w' = w ∧
        ∀ clean, ¬ w.users.MayBecome current.role role clean) ∨
      ∃ clean, a = .ok () ∧ w.users.MayBecome current.role role clean ∧
        w' = { w with users := w.users.setRole id clean } := by
  unfold updateRole at h
  cases hrole : normalizeRole role with
  | none =>
    rw [hrole] at h
    obtain ⟨rfl, -, rfl⟩ := Prog.run_ret h
    refine .inl ⟨_, rfl, .inl rfl, rfl, fun clean hclean => ?_⟩
    simp [Users.MayBecome, hrole] at hclean
  | some cleanRole =>
    rw [hrole] at h
    obtain ⟨checked, ds, t, hcheck, hrest⟩ := Prog.run_bind h
    obtain ⟨rfl, rfl⟩ := checkLastAdmin_reliably hcheck
    split_ifs at hrest with hlast
    · obtain ⟨rfl, -, rfl⟩ := Prog.run_ret hrest
      refine .inl ⟨_, rfl, .inr rfl, rfl, fun clean hclean => ?_⟩
      obtain ⟨hnormal, hmay⟩ := hclean
      rw [hrole] at hnormal
      cases hnormal
      exact hmay hlast
    · obtain ⟨answer, ds', t', hstmt, hrest⟩ := Prog.run_bind hrest
      obtain ⟨c, -, hexec⟩ := run_stmt_reliably hstmt
      cases hexec
      obtain ⟨rfl, -, rfl⟩ := Prog.run_ret hrest
      exact .inr ⟨cleanRole, rfl, ⟨hrole, hlast⟩, rfl⟩

theorem updatePassword_reliably {id : Int} {password : String} {a : Except Error Unit}
    (h : (updatePassword id password).run (reliably bcrypt) cs w = some (a, cs', w')) :
    (∃ err, a = .error err ∧ (err = .invalidPassword ∨ ∃ text, err = .other text) ∧ w' = w ∧
        ∀ salt, (∀ c ∈ cs, c.salt = salt) → Refused bcrypt salt password) ∨
      ∃ hash, a = .ok () ∧ (∃ salt, bcrypt.generate salt password = .ok hash) ∧
        (∀ salt, (∀ c ∈ cs, c.salt = salt) → ¬ Refused bcrypt salt password) ∧
        w' = { w with users := w.users.setPassword id hash } := by
  unfold updatePassword at h
  split_ifs at h with hshort
  · obtain ⟨rfl, -, rfl⟩ := Prog.run_ret h
    exact .inl ⟨_, rfl, .inl rfl, rfl, fun _ _ => .inl (by simpa using hshort)⟩
  · obtain ⟨hashed, ds, t, hhash, hrest⟩ := Prog.run_bind h
    obtain ⟨c, rfl, -, hexec⟩ := run_op_reliably hhash
    cases hexec
    cases hgenerate : bcrypt.generate c.salt password with
    | error err =>
      rw [hgenerate] at hrest
      obtain ⟨rfl, -, rfl⟩ := Prog.run_ret hrest
      refine .inl ⟨_, rfl, .inr ⟨_, rfl⟩, rfl, fun salt hsalt => .inr ⟨err, ?_⟩⟩
      rw [← hsalt c List.mem_cons_self, hgenerate]
    | ok hash =>
      rw [hgenerate] at hrest
      obtain ⟨answer, ds', t', hstmt, hrest⟩ := Prog.run_bind hrest
      obtain ⟨c', -, hexec⟩ := run_stmt_reliably hstmt
      cases hexec
      obtain ⟨rfl, -, rfl⟩ := Prog.run_ret hrest
      refine .inr ⟨hash, rfl, ⟨c.salt, hgenerate⟩, ?_, rfl⟩
      rintro salt hsalt (hinvalid | ⟨err, herr⟩)
      · exact hshort (by simpa using hinvalid)
      · rw [← hsalt c List.mem_cons_self, hgenerate] at herr
        cases herr

/-- The table of users differs in the row of `id` at most, and the audits are the same. -/
structure World.Updates (w w' : World) (id : Int) : Prop where
  others : ∀ other, other ≠ id → w'.users.find other = w.users.find other
  audits : w'.audits = w.audits

theorem World.Updates.refl (w : World) (id : Int) : w.Updates w id := ⟨fun _ _ => rfl, rfl⟩

theorem World.Updates.trans {w'' : World} {id : Int} (h : w.Updates w' id)
    (h' : w'.Updates w'' id) : w.Updates w'' id :=
  ⟨fun other hother => (h'.others other hother).trans (h.others other hother),
    h'.audits.trans h.audits⟩

theorem updates_setRole (w : World) (id : Int) (role : Role) :
    w.Updates { w with users := w.users.setRole id role } id :=
  ⟨fun other hother => by rw [Users.find_setRole, if_neg hother], rfl⟩

theorem updates_setPassword (w : World) (id : Int) (hash : String) :
    w.Updates { w with users := w.users.setPassword id hash } id :=
  ⟨fun other hother => by rw [Users.find_setPassword, if_neg hother], rfl⟩

/-- The role in the request is another one, which the user may have. -/
def ChangesRole (t : Users) (row : UserRow) (role : Option String) : Prop :=
  ∃ r clean, role = some r ∧ t.MayBecome row.role r clean ∧ clean ≠ row.role

/-- **Half an update.** The role is changed, and then the password is refused. -/
def Halfway (bcrypt : Bcrypt) (salt : Nat) (t : Users) (id : Int)
    (role password : Option String) : Prop :=
  ∃ row p, t.find id = some row ∧ ChangesRole t row role ∧ password = some p ∧
    Refused bcrypt salt p

/-- The part of `updateUser` for the role changes nothing when it fails, and otherwise leaves a row
that differs exactly when the role does. -/
theorem changeRole_reliably {row : UserRow} {id : Int} {role : Option String}
    {a : Except Error Unit} (hrow : w.users.find id = some row)
    (h : (role.elim (pure (.ok ())) (updateRole row.user id) : M (Except Error Unit)).run
      (reliably bcrypt) cs w = some (a, cs', w')) :
    w.Updates w' id ∧
      ((∃ err, a = .error err) ∧ w' = w ∧ ¬ ChangesRole w.users row role ∨
        a = .ok () ∧ ∃ row', w'.users.find id = some row' ∧
          (row' = row ↔ ¬ ChangesRole w.users row role)) := by
  cases role with
  | none =>
    obtain ⟨rfl, -, rfl⟩ := Prog.run_ret h
    refine ⟨.refl _ _, .inr ⟨rfl, row, hrow, iff_of_true rfl ?_⟩⟩
    rintro ⟨r, clean, hr, -⟩
    cases hr
  | some role =>
    rw [Option.elim_some] at h
    rcases updateRole_reliably h with ⟨err, rfl, -, rfl, hnot⟩ | ⟨clean, rfl, hmay, rfl⟩
    · refine ⟨.refl _ _, .inl ⟨⟨err, rfl⟩, rfl, ?_⟩⟩
      rintro ⟨r, clean, hr, hmay, -⟩
      cases hr
      exact hnot clean hmay
    · refine ⟨updates_setRole w id clean, .inr ⟨rfl, { row with role := clean }, ?_, ?_⟩⟩
      · rw [Users.find_setRole, if_pos rfl, hrow]
        rfl
      · have hclean : ({ row with role := clean } : UserRow) = row ↔ clean = row.role := by
          cases row
          simp
        rw [hclean]
        constructor
        · rintro hsame ⟨r, clean', hr, hmay', hother⟩
          cases hr
          cases hmay.1.symm.trans hmay'.1
          exact hother hsame
        · intro hnot
          by_contra hother
          exact hnot ⟨role, clean, rfl, hmay, hother⟩

/-- The part of `updateUser` for the password. -/
theorem changePassword_reliably {row : UserRow} {id : Int} {password : Option String} {salt : Nat}
    {a : Except Error Unit} (hsalt : ∀ c ∈ cs, c.salt = salt)
    (hrow : w.users.find id = some row)
    (h : (password.elim (pure (.ok ())) (updatePassword id) : M (Except Error Unit)).run
      (reliably bcrypt) cs w = some (a, cs', w')) :
    w.Updates w' id ∧
      ((∃ err, a = .error err) ∧ w' = w ∧ (∃ p, password = some p ∧ Refused bcrypt salt p) ∨
        a = .ok () ∧ (∃ row', w'.users.find id = some row') ∧
          ¬ ∃ p, password = some p ∧ Refused bcrypt salt p) := by
  cases password with
  | none =>
    obtain ⟨rfl, -, rfl⟩ := Prog.run_ret h
    exact ⟨.refl _ _, .inr ⟨rfl, ⟨row, hrow⟩, by simp⟩⟩
  | some password =>
    rw [Option.elim_some] at h
    rcases updatePassword_reliably h with ⟨err, rfl, -, rfl, hrefused⟩ |
      ⟨hash, rfl, -, hnot, rfl⟩
    · exact ⟨.refl _ _, .inl ⟨⟨err, rfl⟩, rfl, password, rfl, hrefused salt hsalt⟩⟩
    · refine ⟨updates_setPassword w id hash, .inr ⟨rfl, ?_, by simpa using hnot salt hsalt⟩⟩
      rw [Users.find_setPassword, if_pos rfl, hrow]
      exact ⟨_, rfl⟩

/-- **What `updateUser` changes.** When it fails, the row of the user is the same if and only if
this is not half an update. -/
theorem updateUser_reliably {id : Int} {role password : Option String} {salt : Nat}
    {a : Except Error User} (hsalt : ∀ c ∈ cs, c.salt = salt)
    (h : (updateUser id role password).run (reliably bcrypt) cs w = some (a, cs', w')) :
    w.Updates w' id ∧
      ((∃ row, a = .ok row.user ∧ w'.users.find id = some row) ∧
          ¬ Halfway bcrypt salt w.users id role password ∨
        (∃ err, a = .error err) ∧
          (w'.users.find id = w.users.find id ↔
            ¬ Halfway bcrypt salt w.users id role password)) := by
  obtain ⟨found, ds, t, hget, hrest⟩ := Prog.run_bind h
  have hds := (Prog.run_suffix hget).subset
  obtain ⟨ht, rfl⟩ := getUserByID_reliably hget
  cases hrow : w.users.find id with
  | none =>
    rw [hrow] at hrest
    obtain ⟨rfl, -, rfl⟩ := Prog.run_ret hrest
    subst ht
    refine ⟨.refl _ _, .inr ⟨⟨_, rfl⟩, iff_of_true hrow ?_⟩⟩
    rintro ⟨row, p, hfind, -⟩
    rw [hrow] at hfind
    cases hfind
  | some row =>
    rw [hrow] at hrest
    subst ht
    obtain ⟨changed, es, u, hrole, hpass⟩ := Prog.run_bind hrest
    have hes := (Prog.run_suffix hrole).subset
    have hhalf : Halfway bcrypt salt t.users id role password ↔
        ChangesRole t.users row role ∧ ∃ p, password = some p ∧ Refused bcrypt salt p := by
      simp [Halfway, hrow]
    obtain ⟨hfirst, ⟨⟨err, rfl⟩, rfl, hnot⟩ | ⟨rfl, row', hrow', hsame⟩⟩ :=
      changeRole_reliably hrow hrole
    · obtain ⟨rfl, -, rfl⟩ := Prog.run_ret hpass
      exact ⟨hfirst, .inr ⟨⟨_, rfl⟩, iff_of_true hrow fun h => hnot (hhalf.1 h).1⟩⟩
    · obtain ⟨changed', fs, v, hpassword, hend⟩ := Prog.run_bind hpass
      obtain ⟨hsecond, ⟨⟨err, rfl⟩, rfl, hrefused⟩ | ⟨rfl, ⟨row'', hrow''⟩, hnot⟩⟩ :=
        changePassword_reliably (fun c hc => hsalt c (hds (hes hc))) hrow' hpassword
      · obtain ⟨rfl, -, rfl⟩ := Prog.run_ret hend
        refine ⟨hfirst, .inr ⟨⟨_, rfl⟩, ?_⟩⟩
        rw [hrow', hhalf, Option.some.injEq, hsame]
        exact not_congr ⟨fun h => ⟨h, hrefused⟩, And.left⟩
      · obtain ⟨rfl, hget'⟩ := getUserByID_reliably hend
        rw [hrow''] at hget'
        exact ⟨hfirst.trans hsecond, .inl ⟨⟨row'', hget', hrow''⟩, fun h => hnot (hhalf.1 h).2⟩⟩

end QuickVps.Auth
