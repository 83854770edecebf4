import QuickVps.Auth.Changes
import Mathlib.Data.List.Nodup

/-!
# An update that ends with an error

`UpdateUser` writes the role, then validates and hashes the password, writes the hash and reads the
row again. An error after the first write leaves that write in the table.

* `CutOff` — the update is cut off after a write that changes the row;
* `users_same_iff` — when the update ends with an error, the table is the same exactly if it was not
  cut off.
-/

namespace QuickVps.Auth

/-! ## The table -/

namespace Users

theorem eq_of_find {t : Users} {id : Int} {row r : UserRow} (hrow : t.find id = some row)
    (hr : r ∈ t.rows) (hid : r.id = id) : r = row := by
  obtain ⟨hmem, hrowid⟩ := mem_of_find hrow
  have hids : (t.rows.map UserRow.id).Nodup := List.pairwise_map.2 (t.ascending.imp ne_of_lt)
  exact List.inj_on_of_nodup_map hids hr hmem (hid.trans hrowid.symm)

/-- A change that gives the row itself leaves the table as it is. -/
theorem modify_same {t : Users} {id : Int} {row : UserRow} {f : UserRow → UserRow}
    {hf : ∀ r, (f r).id = r.id ∧ (f r).username = r.username} (hrow : t.find id = some row)
    (hsame : f row = row) : t.modify id f hf = t := by
  have hrows : (t.rows.map fun r => if r.id = id then f r else r) = t.rows := by
    refine (List.map_congr_left fun r hr => ?_).trans (List.map_id _)
    by_cases hid : r.id = id
    · rw [if_pos hid, eq_of_find hrow hr hid, hsame]
      rfl
    · rw [if_neg hid]
      rfl
  cases t with
  | mk table unique =>
    cases table
    simpa [modify, Table.modify] using hrows

theorem setRole_same {t : Users} {id : Int} {row : UserRow} (hrow : t.find id = some row) :
    t.setRole id row.role = t :=
  modify_same hrow rfl

theorem setPassword_same {t : Users} {id : Int} {row : UserRow} (hrow : t.find id = some row) :
    t.setPassword id row.passwordHash = t :=
  modify_same hrow rfl

end Users

/-! ## The parts of an update -/

variable {bcrypt : Bcrypt} {cs cs' : List Choice} {w w' : World}

/-- The statement that call number `n` issues fails. -/
def Fails (cs : List Choice) (n : Nat) : Prop := Prog.ChoiceAt (fun c => c.fault ≠ none) cs n

/-- How many calls the part for the role makes: the admins are counted when one is to lose it. -/
def roleCalls (row : UserRow) (role : Option String) : Nat :=
  match role.bind normalizeRole with
  | none => 0
  | some clean => if row.role = .admin ∧ clean ≠ .admin then 2 else 1

/-- How many calls the part for the password makes, if it comes to an end. -/
def passwordCalls (password : Option String) : Nat := if password.isSome then 2 else 0

/-- A role that is given is one which the user may have, and its statements do not fail. -/
def RolePasses (t : Users) (row : UserRow) (role : Option String) (cs : List Choice) : Prop :=
  (∀ r, role = some r → ∃ clean, t.MayBecome row.role r clean) ∧
    ∀ n < roleCalls row role, ¬ Fails cs n

/-- A password that is given is too short or cannot be hashed, or the hash cannot be saved. -/
def PasswordFails (bcrypt : Bcrypt) (password : Option String) (cs : List Choice) : Prop :=
  ∃ p, password = some p ∧
    (validatePassword p = false ∨
      Prog.ChoiceAt (fun c => ∃ err, bcrypt.generate c.salt p = .error err) cs 0 ∨ Fails cs 1)

/-- The hash of a password that is given is not the one in the row. -/
def ChangesHash (bcrypt : Bcrypt) (row : UserRow) (password : Option String)
    (cs : List Choice) : Prop :=
  ∃ p, password = some p ∧
    Prog.ChoiceAt (fun c => ∃ hash, bcrypt.generate c.salt p = .ok hash ∧
      hash ≠ row.passwordHash) cs 0

/-- **An update that is cut off.** The row is found and the role passes. Then it has changed and the
password fails, or it or the hash has changed and the last statement, which reads the row, fails. -/
def CutOff (bcrypt : Bcrypt) (t : Users) (id : Int) (role password : Option String)
    (cs : List Choice) : Prop :=
  ∃ row, t.find id = some row ∧ ¬ Fails cs 0 ∧ RolePasses t row role (cs.drop 1) ∧
    (ChangesRole t row role ∧ PasswordFails bcrypt password (cs.drop (1 + roleCalls row role)) ∨
      (ChangesRole t row role ∨
          ChangesHash bcrypt row password (cs.drop (1 + roleCalls row role)) ∧
            ¬ PasswordFails bcrypt password (cs.drop (1 + roleCalls row role))) ∧
        Fails (cs.drop (1 + roleCalls row role)) (passwordCalls password))

/-! ### Runs -/

@[simp]
theorem fails_zero {c : Choice} {cs : List Choice} : Fails (c :: cs) 0 ↔ c.fault ≠ none :=
  Prog.choiceAt_zero

@[simp]
theorem fails_succ {c : Choice} {cs : List Choice} {n : Nat} :
    Fails (c :: cs) (n + 1) ↔ Fails cs n :=
  Prog.choiceAt_succ

theorem fails_drop {m n : Nat} : Fails (cs.drop m) n ↔ Fails cs (m + n) := Prog.choiceAt_drop

/-- A run of one statement fails and changes nothing, or does what it says. -/
theorem stmt_run {s : Stmt} {a : Except String s.Ans}
    (h : (stmt s).run (exec bcrypt) cs w = some (a, cs', w')) :
    ∃ c, cs = c :: cs' ∧
      ((c.fault ≠ none ∧ (∃ err, a = .error err) ∧ w' = w) ∨
        (c.fault = none ∧ s.exec c.now w = (a, w'))) := by
  obtain ⟨c, rfl, hexec⟩ := Prog.run_op h
  refine ⟨c, rfl, ?_⟩
  rcases sql_exec_cases hexec with ⟨err, hfault, rfl, rfl⟩ | ⟨hfault, hstmt⟩
  · exact .inl ⟨by simp [hfault], ⟨err, rfl⟩, rfl⟩
  · exact .inr ⟨hfault, hstmt⟩

theorem getUserByID_run {id : Int} {a : Except Error User}
    (h : (getUserByID id).run (exec bcrypt) cs w = some (a, cs', w')) :
    w' = w ∧ cs' = cs.drop 1 ∧
      ((∃ err, a = .error err) ∧ (w.users.find id = none ∨ Fails cs 0) ∨
        ∃ row, w.users.find id = some row ∧ ¬ Fails cs 0 ∧ a = .ok row.user) := by
  obtain ⟨answer, ds, t, hstmt, hrest⟩ := Prog.run_bind h
  obtain ⟨c, rfl, ⟨hfault, ⟨err, rfl⟩, rfl⟩ | ⟨hfault, hexec⟩⟩ := stmt_run hstmt
  · obtain ⟨rfl, rfl, rfl⟩ := Prog.run_ret hrest
    exact ⟨rfl, rfl, .inl ⟨⟨_, rfl⟩, .inr (fails_zero.2 hfault)⟩⟩
  · cases hexec
    cases hrow : w.users.find id with
    | none =>
      rw [hrow] at hrest
      obtain ⟨rfl, rfl, rfl⟩ := Prog.run_ret hrest
      exact ⟨rfl, rfl, .inl ⟨⟨_, rfl⟩, .inl rfl⟩⟩
    | some row =>
      rw [hrow] at hrest
      obtain ⟨rfl, rfl, rfl⟩ := Prog.run_ret hrest
      exact ⟨rfl, rfl, .inr ⟨row, rfl, by simp [hfault], rfl⟩⟩

/-- The check for the last admin fails, or passes with the calls it makes. -/
theorem checkLastAdmin_run {loses : Prop} [Decidable loses] {a : Except Error Unit}
    (h : (checkLastAdmin loses).run (exec bcrypt) cs w = some (a, cs', w')) :
    w' = w ∧
      ((∃ err, a = .error err) ∧ loses ∧ (Fails cs 0 ∨ w.users.countAdmins ≤ 1) ∨
        a = .ok () ∧
          if loses then ¬ Fails cs 0 ∧ ¬ w.users.countAdmins ≤ 1 ∧ cs' = cs.drop 1
          else cs' = cs) := by
  unfold checkLastAdmin at h
  split_ifs at h with hloses
  · obtain ⟨counted, ds, t, hcount, hrest⟩ := Prog.run_bind h
    obtain ⟨answer, ds', t', hstmt, hret⟩ := Prog.run_bind hcount
    obtain ⟨c, rfl, ⟨hfault, ⟨err, rfl⟩, rfl⟩ | ⟨hfault, hexec⟩⟩ := stmt_run hstmt
    · obtain ⟨rfl, rfl, rfl⟩ := Prog.run_ret hret
      obtain ⟨rfl, rfl, rfl⟩ := Prog.run_ret hrest
      exact ⟨rfl, .inl ⟨⟨_, rfl⟩, hloses, .inl (fails_zero.2 hfault)⟩⟩
    · cases hexec
      obtain ⟨rfl, rfl, rfl⟩ := Prog.run_ret hret
      simp only at hrest
      split_ifs at hrest with hlast
      · obtain ⟨rfl, rfl, rfl⟩ := Prog.run_ret hrest
        exact ⟨rfl, .inl ⟨⟨_, rfl⟩, hloses, .inr hlast⟩⟩
      · obtain ⟨rfl, rfl, rfl⟩ := Prog.run_ret hrest
        refine ⟨rfl, .inr ⟨rfl, ?_⟩⟩
        rw [if_pos hloses]
        exact ⟨by simp [hfault], hlast, rfl⟩
  · obtain ⟨rfl, rfl, rfl⟩ := Prog.run_ret h
    exact ⟨rfl, .inr ⟨rfl, by rw [if_neg hloses]⟩⟩

/-- The conditions on a known role, one for each call that is made for it. -/
theorem rolePasses_iff {t : Users} {row : UserRow} {role : String} {clean : Role}
    (hrole : normalizeRole role = some clean) :
    RolePasses t row (some role) cs ↔
      if row.role = .admin ∧ clean ≠ .admin then
        ¬ t.countAdmins ≤ 1 ∧ ¬ Fails cs 0 ∧ ¬ Fails cs 1
      else ¬ Fails cs 0 := by
  have hmay : (∀ r, some role = some r → ∃ clean, t.MayBecome row.role r clean) ↔
      ¬ ((row.role = .admin ∧ clean ≠ .admin) ∧ t.countAdmins ≤ 1) := by
    constructor
    · intro hmay
      obtain ⟨clean', hnormal, hlast⟩ := hmay role rfl
      cases hrole.symm.trans hnormal
      exact hlast
    · intro hlast r hr
      cases hr
      exact ⟨clean, hrole, hlast⟩
  have hcalls : roleCalls row (some role) =
      if row.role = .admin ∧ clean ≠ .admin then 2 else 1 := by
    simp [roleCalls, hrole]
  rw [RolePasses, hmay, hcalls]
  split_ifs with hloses
  · rw [Nat.forall_lt_succ_right, Nat.forall_lt_succ_right]
    simp [hloses]
  · rw [Nat.forall_lt_succ_right]
    simp [hloses]

/-- The table after the part for the role has passed. -/
def roleSet (t : Users) (id : Int) (role : Option String) : Users :=
  match role.bind normalizeRole with
  | none => t
  | some clean => t.setRole id clean

/-- The part for the role fails and changes nothing, or passes and sets the role. -/
theorem changeRole_run {row : UserRow} {id : Int} {role : Option String} {a : Except Error Unit}
    (h : (role.elim (pure (.ok ())) (updateRole row.user id) : M (Except Error Unit)).run
      (exec bcrypt) cs w = some (a, cs', w')) :
    (∃ err, a = .error err) ∧ w' = w ∧ ¬ RolePasses w.users row role cs ∨
      a = .ok () ∧ cs' = cs.drop (roleCalls row role) ∧ RolePasses w.users row role cs ∧
        w'.users = roleSet w.users id role := by
  cases role with
  | none =>
    obtain ⟨rfl, rfl, rfl⟩ := Prog.run_ret h
    exact .inr
      ⟨rfl, rfl, ⟨fun _ hr => (nomatch hr), fun n hn => absurd hn (Nat.not_lt_zero n)⟩, rfl⟩
  | some role =>
    rw [Option.elim_some] at h
    unfold updateRole at h
    cases hrole : normalizeRole role with
    | none =>
      rw [hrole] at h
      obtain ⟨rfl, -, rfl⟩ := Prog.run_ret h
      refine .inl ⟨⟨_, rfl⟩, rfl, fun hpasses => ?_⟩
      obtain ⟨clean, hmay⟩ := hpasses.1 role rfl
      cases hrole.symm.trans hmay.1
    | some clean =>
      rw [hrole] at h
      simp only [rolePasses_iff hrole, roleCalls, roleSet, Option.bind_some, hrole]
      obtain ⟨checked, ds, t, hcheck, hrest⟩ := Prog.run_bind h
      change (checkLastAdmin (row.role = .admin ∧ clean ≠ .admin)).run _ _ _ = _ at hcheck
      obtain ⟨rfl, ⟨⟨err, rfl⟩, hloses, hwhy⟩ | ⟨rfl, hchecked⟩⟩ := checkLastAdmin_run hcheck
      · obtain ⟨rfl, -, rfl⟩ := Prog.run_ret hrest
        refine .inl ⟨⟨_, rfl⟩, rfl, ?_⟩
        rw [if_pos hloses]
        rintro ⟨hcount, hfirst, -⟩
        exact hwhy.elim hfirst hcount
      · obtain ⟨answer, ds', t', hstmt, hend⟩ := Prog.run_bind hrest
        obtain ⟨c, hds, ⟨hfault, ⟨err, rfl⟩, rfl⟩ | ⟨hfault, hexec⟩⟩ := stmt_run hstmt
        · obtain ⟨rfl, -, rfl⟩ := Prog.run_ret hend
          refine .inl ⟨⟨_, rfl⟩, rfl, ?_⟩
          split_ifs at hchecked ⊢ with hloses
          · have hsecond : Fails cs 1 := by
              rw [← fails_drop (m := 1) (n := 0), ← hchecked.2.2, hds]
              simpa using hfault
            exact fun hpasses => hpasses.2.2 hsecond
          · rw [← hchecked, hds]
            simpa using hfault
        · cases hexec
          obtain ⟨rfl, rfl, rfl⟩ := Prog.run_ret hend
          refine .inr ⟨rfl, ?_⟩
          split_ifs at hchecked ⊢ with hloses
          · obtain ⟨hfirst, hlast, rest⟩ := hchecked
            have hsecond : ¬ Fails cs 1 := by
              rw [← fails_drop (m := 1) (n := 0), ← rest, hds]
              simpa using hfault
            refine ⟨?_, ⟨hlast, hfirst, hsecond⟩, rfl⟩
            rw [← List.drop_drop (i := 1) (j := 1), ← rest, hds]
            rfl
          · rw [← hchecked, hds]
            exact ⟨rfl, by simpa using hfault, rfl⟩

/-- A role that passes leaves the row with its hash, and with another role if it changes. -/
theorem find_roleSet {t : Users} {row : UserRow} {id : Int} {role : Option String}
    (hrow : t.find id = some row) (hpasses : RolePasses t row role cs) :
    ∃ row', (roleSet t id role).find id = some row' ∧ row'.passwordHash = row.passwordHash ∧
      (roleSet t id role = t ↔ ¬ ChangesRole t row role) := by
  cases role with
  | none =>
    refine ⟨row, hrow, rfl, iff_of_true rfl ?_⟩
    rintro ⟨r, clean, hr, -⟩
    cases hr
  | some role =>
    obtain ⟨clean, hmay⟩ := hpasses.1 role rfl
    have hset : roleSet t id (some role) = t.setRole id clean := by
      simp [roleSet, hmay.1]
    have hfind : (roleSet t id (some role)).find id = some { row with role := clean } := by
      rw [hset, Users.find_setRole, if_pos rfl, hrow]
      rfl
    refine ⟨{ row with role := clean }, hfind, rfl, ?_, fun hnot => ?_⟩
    · rintro heq ⟨r, clean', hr, hmay', hother⟩
      cases hr
      cases hmay.1.symm.trans hmay'.1
      rw [heq, hrow] at hfind
      exact hother (congrArg UserRow.role (Option.some.inj hfind)).symm
    · have hsame : clean = row.role := by
        by_contra hother
        exact hnot ⟨role, clean, rfl, hmay, hother⟩
      rw [hset, hsame]
      exact Users.setRole_same hrow

/-- A table with another hash is another table. -/
theorem setPassword_ne {s t : Users} {row row' : UserRow} {id : Int} {hash : String}
    (hrow : t.find id = some row) (hrow' : s.find id = some row')
    (hhash : hash ≠ row.passwordHash) : s.setPassword id hash ≠ t := by
  intro heq
  have hfind : (s.setPassword id hash).find id = some { row' with passwordHash := hash } := by
    rw [Users.find_setPassword, if_pos rfl, hrow']
    rfl
  rw [heq, hrow] at hfind
  exact hhash (congrArg UserRow.passwordHash (Option.some.inj hfind)).symm

/-- The part for the password fails and changes nothing, or sets the hash. -/
theorem changePassword_run {row : UserRow} {id : Int} {password : Option String}
    {a : Except Error Unit} (hrow : w.users.find id = some row)
    (h : (password.elim (pure (.ok ())) (updatePassword id) : M (Except Error Unit)).run
      (exec bcrypt) cs w = some (a, cs', w')) :
    (∃ err, a = .error err) ∧ w' = w ∧ PasswordFails bcrypt password cs ∨
      a = .ok () ∧ cs' = cs.drop (passwordCalls password) ∧
        ¬ PasswordFails bcrypt password cs ∧
        (ChangesHash bcrypt row password cs → ∃ hash, hash ≠ row.passwordHash ∧
          w'.users = w.users.setPassword id hash) ∧
        (¬ ChangesHash bcrypt row password cs → w'.users = w.users) := by
  cases password with
  | none =>
    obtain ⟨rfl, rfl, rfl⟩ := Prog.run_ret h
    refine .inr ⟨rfl, rfl, ?_, ?_, fun _ => rfl⟩
    · rintro ⟨p, hp, -⟩
      cases hp
    · rintro ⟨p, hp, -⟩
      cases hp
  | some password =>
    rw [Option.elim_some] at h
    unfold updatePassword at h
    split_ifs at h with hshort
    · obtain ⟨rfl, -, rfl⟩ := Prog.run_ret h
      exact .inl ⟨⟨_, rfl⟩, rfl, password, rfl, .inl (by simpa using hshort)⟩
    · have hlong : validatePassword password = true := by simpa using hshort
      obtain ⟨hashed, ds, t, hhash, hrest⟩ := Prog.run_bind h
      obtain ⟨c, rfl, hexec⟩ := Prog.run_op hhash
      cases hexec
      cases hgenerate : bcrypt.generate c.salt password with
      | error err =>
        rw [hgenerate] at hrest
        obtain ⟨rfl, -, rfl⟩ := Prog.run_ret hrest
        exact .inl ⟨⟨_, rfl⟩, rfl, password, rfl, .inr (.inl (by simp [hgenerate]))⟩
      | ok hash =>
        rw [hgenerate] at hrest
        have hchanges : ChangesHash bcrypt row (some password) (c :: ds) ↔
            hash ≠ row.passwordHash := by
          simp [ChangesHash, hgenerate]
        have hfails : PasswordFails bcrypt (some password) (c :: ds) ↔ Fails ds 0 := by
          simp [PasswordFails, hlong, hgenerate]
        rw [hchanges, hfails]
        obtain ⟨answer, ds', t', hstmt, hend⟩ := Prog.run_bind hrest
        obtain ⟨c', rfl, ⟨hfault, ⟨err, rfl⟩, rfl⟩ | ⟨hfault, hexec⟩⟩ := stmt_run hstmt
        · obtain ⟨rfl, -, rfl⟩ := Prog.run_ret hend
          exact .inl ⟨⟨_, rfl⟩, rfl, fails_zero.2 hfault⟩
        · cases hexec
          obtain ⟨rfl, rfl, rfl⟩ := Prog.run_ret hend
          refine .inr ⟨rfl, rfl, by simp [hfault], fun hother => ⟨hash, hother, rfl⟩, ?_⟩
          intro hsame
          rw [not_not.1 hsame]
          exact Users.setPassword_same hrow

/-- **When an update that ends with an error leaves the table as it was.** -/
theorem users_same_iff {id : Int} {role password : Option String} {err : Error}
    (h : (updateUser id role password).run (exec bcrypt) cs w = some (.error err, cs', w')) :
    w'.users = w.users ↔ ¬ CutOff bcrypt w.users id role password cs := by
  obtain ⟨found, ds, t, hget, hrest⟩ := Prog.run_bind h
  obtain ⟨ht, hds, ⟨⟨err', rfl⟩, hwhy⟩ | ⟨row, hrow, hfirst, rfl⟩⟩ := getUserByID_run hget
  · obtain ⟨-, -, rfl⟩ := Prog.run_ret hrest
    refine iff_of_true (by rw [ht]) ?_
    rintro ⟨row, hrow, hfirst, -⟩
    rcases hwhy with hnone | hfails
    · cases hnone.symm.trans hrow
    · exact hfirst hfails
  · subst ht hds
    have hcut : CutOff bcrypt t.users id role password cs ↔
        RolePasses t.users row role (cs.drop 1) ∧
          (ChangesRole t.users row role ∧
              PasswordFails bcrypt password ((cs.drop 1).drop (roleCalls row role)) ∨
            (ChangesRole t.users row role ∨
                ChangesHash bcrypt row password ((cs.drop 1).drop (roleCalls row role)) ∧
                  ¬ PasswordFails bcrypt password ((cs.drop 1).drop (roleCalls row role))) ∧
              Fails ((cs.drop 1).drop (roleCalls row role)) (passwordCalls password)) := by
      simp only [CutOff, List.drop_drop, hrow, Option.some.injEq, exists_eq_left', hfirst,
        not_false_eq_true, true_and]
    rw [hcut]
    obtain ⟨changed, es, u, hrole, hpass⟩ := Prog.run_bind hrest
    rcases changeRole_run hrole with ⟨⟨err', rfl⟩, rfl, hnot⟩ | ⟨rfl, hes, hpasses, hset⟩
    · obtain ⟨-, -, rfl⟩ := Prog.run_ret hpass
      exact iff_of_true rfl fun h => hnot h.1
    · obtain ⟨row', hrow', hhash, hset_iff⟩ := find_roleSet hrow hpasses
      rw [← hset] at hrow' hset_iff
      obtain ⟨changed', fs, v, hpassword, hend⟩ := Prog.run_bind hpass
      rw [← hes]
      rcases changePassword_run hrow' hpassword with
        ⟨⟨err', rfl⟩, rfl, hfails⟩ | ⟨rfl, hfs, hpassed, hother, hkept⟩
      · obtain ⟨-, -, rfl⟩ := Prog.run_ret hend
        rw [hset_iff]
        simp only [hpasses, hfails, and_true, not_true_eq_false, and_false, or_false, true_and]
        -- What is left of the last statement needs a role that has changed.
        exact not_congr ⟨.inl, fun h => h.elim (fun hchanges => hchanges) And.left⟩
      · obtain ⟨rfl, -, ⟨-, hwhy⟩ | ⟨_, _, _, herr⟩⟩ := getUserByID_run hend
        · have hsamehash : ChangesHash bcrypt row' password es ↔
              ChangesHash bcrypt row password es := by
            simp only [ChangesHash, hhash]
          rw [hsamehash, hhash] at hother
          rw [hsamehash] at hkept
          have hfound : w'.users.find id ≠ none := by
            by_cases hchash : ChangesHash bcrypt row password es
            · obtain ⟨hash, -, hv⟩ := hother hchash
              simp [hv, Users.find_setPassword, hrow']
            · simp [hkept hchash, hrow']
          have hlast : Fails es (passwordCalls password) := by
            rw [hfs, fails_drop] at hwhy
            exact hwhy.resolve_left hfound
          by_cases hchash : ChangesHash bcrypt row password es
          · obtain ⟨hash, hne, hv⟩ := hother hchash
            rw [hv]
            refine iff_of_false (setPassword_ne hrow hrow' hne) (not_not.2 ?_)
            exact ⟨hpasses, .inr ⟨.inr ⟨hchash, hpassed⟩, hlast⟩⟩
          · rw [hkept hchash, hset_iff]
            refine not_congr ⟨fun hchanges => ⟨hpasses, .inr ⟨.inl hchanges, hlast⟩⟩, ?_⟩
            rintro ⟨-, ⟨-, hfails⟩ | ⟨hchanges, -⟩⟩
            · exact absurd hfails hpassed
            · exact hchanges.resolve_right fun h => hchash h.1
        · cases herr

/-! ### A run -/

/-- One viewer, and a request that makes it an admin and sets a password of five bytes. -/
def viewerOnly : World := { World.empty with users := .seed [("ops", "old-hash", .viewer)] }

def viewerPromoted : World := { World.empty with users := .seed [("ops", "old-hash", .admin)] }

theorem updateUser_viewerOnly :
    (updateUser 1 (some "admin") (some "short")).run (exec plainBcrypt) [{}, {}] viewerOnly =
      some (.error .invalidPassword, [], viewerPromoted) :=
  rfl

theorem users_same_iff_viewerOnly :
    viewerPromoted.users = viewerOnly.users ↔
      ¬ CutOff plainBcrypt viewerOnly.users 1 (some "admin") (some "short") [{}, {}] :=
  users_same_iff updateUser_viewerOnly

/-- **The role is changed although the call fails**, with no failure of a statement. -/
theorem role_changed_by_error :
    ¬ ∀ (bcrypt : Bcrypt) (cs cs' : List Choice) (w w' : World) (id : Int)
      (role password : Option String) (err : Error), (cs.countP fun c => c.fault ≠ none) ≤ 1 →
      (updateUser id role password).run (exec bcrypt) cs w = some (.error err, cs', w') →
      w'.users = w.users := by
  intro hall
  have hsame := hall _ _ _ _ _ _ _ _ _ (by decide) updateUser_viewerOnly
  have hrole := congrArg (fun t : Users => t.rows.map UserRow.role) hsame
  exact absurd hrole (by decide)

end QuickVps.Auth
