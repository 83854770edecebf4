import QuickVps.Auth.Copies

/-!
# What a program has been answered

What the functions of `Store` and of the session manager return repeats the answers to their calls,
and nothing else puts a session into memory or inserts an audit.

* `ReadFirst` — a check writes into memory only what it has just read.
* `FoundAlive` — a session that a check of a token returns.
* `Updated` — what an update has written and read.
* `follows_createUser`, `follows_updateUser`, `follows_deleteUser` — what was written when one of
  them returns without an error.
-/

namespace QuickVps.Auth

/-! ## Sessions -/

/-- A call that puts no session into memory and inserts no audit. -/
def Op.Routine : Op → Prop
  | .create .. => False
  | .put .. => False
  | .sql (.insertAudit ..) => False
  | _ => True

theorem Op.Reads.routine {op : Op} (h : op.Reads) : op.Routine := by
  cases op with
  | sql stmt =>
    cases stmt with
    | insertAudit => cases h.2
    | _ => trivial
  | hashPassword => trivial
  | _ => exact h.elim

section Follows

variable {ok : Past → Op → Prop} (hok : ∀ h e, e.Routine → ok h e)
include hok

/-- A program of routine calls keeps what grows with its calls. -/
theorem follows_of_routine {α : Type} {I : Past → Prop} (hI : ∀ h c, I h → I (c :: h)) {p : M α}
    (hp : p.Only Op.Routine) {h : Past} (hh : I h) : p.Follows ok (fun h' _ => I h') h :=
  hp.follows (fun h e he _ => hok h e he) (fun h _ _ _ => hI h _) hh

theorem follows_routine {α : Type} {p : M α} (hp : p.Only Op.Routine) (h : Past) :
    p.Follows ok (fun _ _ => True) h :=
  follows_of_routine hok (fun _ _ => id) hp trivial

end Follows

namespace SessionManager

variable (m : SessionManager)

theorem routine_delete (token : String) : (m.delete token).Only Op.Routine := by
  refine (Prog.only_op trivial).bind fun _ => ?_
  split_ifs
  · have hdelete : (deleteSession token).Only Op.Routine := by
      have hstmt : (stmt (.deleteSession token)).Only Op.Routine := Prog.only_op trivial
      refine hstmt.bind fun answer => ?_
      cases answer <;> exact Prog.only_ret _
    exact hdelete.bind fun _ => Prog.only_ret _
  · exact Prog.only_ret _

theorem routine_deleteByUserID (userID : Int) : (m.deleteByUserID userID).Only Op.Routine := by
  refine (Prog.only_op trivial).bind fun _ => ?_
  split_ifs
  · have hdelete : (deleteSessionsByUserID userID).Only Op.Routine := by
      have hstmt : (stmt (.deleteSessionsByUserID userID)).Only Op.Routine := Prog.only_op trivial
      refine hstmt.bind fun answer => ?_
      cases answer <;> exact Prog.only_ret _
    exact hdelete.bind fun _ => Prog.only_ret _
  · exact Prog.only_ret _

end SessionManager

/-- What is written into memory was read from the table right before. -/
def ReadFirst (h : Past) (e : Op) : Prop :=
  ∀ token x, e = .put token x → h.head? = some ⟨.sql (.selectSession token), .ok (some x)⟩

theorem readFirst_of_puts {e : Op} (he : e.puts = false) (h : Past) : ReadFirst h e := by
  rintro token x rfl
  cases he

theorem readFirst_of_routine {e : Op} (he : e.Routine) (h : Past) : ReadFirst h e := by
  rintro token x rfl
  exact he.elim

theorem readFirst_put (h : Past) (token : String) (x : Session) :
    ReadFirst (⟨.sql (.selectSession token), .ok (some x)⟩ :: h) (.put token x) := by
  rintro _ _ ⟨⟩
  rfl

/-- A check of the token has found the session, and before it was read the clock was not past its
end. -/
structure FoundAlive (m : SessionManager) (h : Past) (token : String) (x : Session) : Prop where
  found : FoundAt m h token x
  alive : ∃ now, ⟨.now, now⟩ ∈ h ∧ now ≤ x.expiresAt

theorem FoundAlive.mono {m : SessionManager} {h h' : Past} {token : String} {x : Session}
    (hx : FoundAlive m h token x) (hsub : h ⊆ h') : FoundAlive m h' token x := by
  obtain ⟨hfound, now, hnow, hle⟩ := hx
  exact ⟨hfound.imp (fun hl => hsub hl) fun hr => ⟨hr.1, hsub hr.2⟩, now, hsub hnow, hle⟩

section Get

variable {ok : Past → Op → Prop} (hok : ∀ h e, e.Routine → ok h e) (m : SessionManager)
  (hput : m.persistent = true → ∀ h token x,
    ok (⟨.sql (.selectSession token), .ok (some x)⟩ :: h) (.put token x)) (token : String)
include hok

theorem follows_none (h : Past) :
    (m.delete token >>= fun _ => pure none).Follows ok
      (fun h' out => ∀ x, out = some x → FoundAlive m h' token x) h := by
  rw [Prog.follows_bind]
  refine (follows_routine hok (m.routine_delete token) h).mono (fun _ _ _ hok => hok)
    fun h' _ _ _ => ?_
  exact Prog.follows_ret.2 fun x hx => by cases hx

include hput

theorem follows_loaded {now : Int} {h : Past} (hnow : ⟨.now, now⟩ ∈ h) :
    (m.load token now).Follows ok
      (fun h' out => ∀ x, out = some x → FoundAlive m h' token x) h := by
  have hsweep : (deleteExpiredSessions now).Only Op.Routine := by
    have hstmt : (stmt (.deleteExpiredSessions now)).Only Op.Routine := Prog.only_op trivial
    refine hstmt.bind fun answer => ?_
    cases answer <;> exact Prog.only_ret _
  unfold SessionManager.load
  cases hm : m.persistent with
  | false => exact Prog.follows_ret.2 fun x hx => by cases hx
  | true =>
    rw [if_neg (by simp), Prog.follows_bind]
    refine (follows_of_routine hok (I := fun h => (⟨.now, now⟩ : Prog.Call Op Op.Ans) ∈ h)
      (fun _ _ => List.mem_cons_of_mem _) hsweep hnow).mono (fun _ _ _ hok => hok)
      fun h₁ swept _ hnow => ?_
    cases swept with
    | error err => exact Prog.follows_ret.2 fun x hx => by cases hx
    | ok =>
      unfold getSession
      rw [Prog.follows_bind, Prog.follows_bind]
      refine (Prog.follows_op (e := Op.sql (.selectSession token))).2 ⟨hok _ _ trivial, fun a => ?_⟩
      match a with
      | .error err => exact Prog.follows_ret.2 (Prog.follows_ret.2 fun x hx => by cases hx)
      | .ok none => exact Prog.follows_ret.2 (Prog.follows_ret.2 fun x hx => by cases hx)
      | .ok (some persisted) =>
        apply Prog.follows_ret.2
        simp only
        split_ifs with hlate
        · exact follows_none hok m token _
        · rw [Prog.follows_bind]
          refine (Prog.follows_op (e := Op.put token persisted)).2
            ⟨hput hm _ _ _, fun _ => Prog.follows_ret.2 fun x hx => ?_⟩
          cases hx
          exact ⟨.inr ⟨hm, by simp⟩, now, by simp [hnow], not_lt.1 hlate⟩

/-- **What `Get` returns was found and alive.** -/
theorem follows_checked (h : Past) :
    (m.get token).Follows ok (fun h' out => ∀ x, out = some x → FoundAlive m h' token x) h := by
  unfold SessionManager.get
  rw [Prog.follows_bind]
  refine (Prog.follows_op (e := Op.now)).2 ⟨hok _ _ trivial, fun now => ?_⟩
  rw [Prog.follows_bind]
  refine (Prog.follows_op (e := Op.lookup token)).2 ⟨hok _ _ trivial, fun found => ?_⟩
  cases found with
  | none => exact follows_loaded hok m hput token (by simp)
  | some session =>
    simp only
    split_ifs with hlate
    · exact follows_none hok m token _
    · refine Prog.follows_ret.2 fun x hx => ?_
      cases hx
      exact ⟨.inl List.mem_cons_self, now, by simp, not_lt.1 hlate⟩

end Get

/-! ## Accounts -/

section Accounts

variable {ok : Past → Op → Prop} (hok : ∀ h e, e.Routine → ok h e)
include hok

theorem follows_getUserByID (id : Int) (h : Past) :
    (getUserByID id).Follows ok
      (fun h' out => ∀ user, out = .ok user →
        h <:+ h' ∧ ⟨.sql (.selectUserByID id), .ok (some user)⟩ ∈ h') h := by
  unfold getUserByID
  rw [Prog.follows_bind]
  refine (Prog.follows_op (e := Op.sql (.selectUserByID id))).2 ⟨hok _ _ trivial, fun a => ?_⟩
  match a with
  | .error err => exact Prog.follows_ret.2 fun user huser => by cases huser
  | .ok none => exact Prog.follows_ret.2 fun user huser => by cases huser
  | .ok (some found) =>
    refine Prog.follows_ret.2 fun user huser => ?_
    cases huser
    exact ⟨List.suffix_cons _ _, List.mem_cons_self⟩

theorem follows_createUser (username password role : String) (h : Past) :
    (createUser username password role).Follows ok
      (fun h' out => ∀ user, out = .ok user → ∃ hash,
        ⟨.sql (.insertUser user.username hash user.role), .ok user.id⟩ ∈ h') h := by
  unfold createUser
  cases normalizeUsername username with
  | none => exact Prog.follows_ret.2 fun user huser => by cases huser
  | some cleanUsername =>
    cases normalizeRole role with
    | none => exact Prog.follows_ret.2 fun user huser => by cases huser
    | some cleanRole =>
      simp only
      split_ifs
      · exact Prog.follows_ret.2 fun user huser => by cases huser
      · rw [Prog.follows_bind]
        refine (Prog.follows_op (e := Op.hashPassword password)).2
          ⟨hok _ _ trivial, fun hashed => ?_⟩
        cases hashed with
        | error err => exact Prog.follows_ret.2 fun user huser => by cases huser
        | ok hash =>
          simp only
          rw [Prog.follows_bind]
          refine (Prog.follows_op (e := Op.sql (.insertUser cleanUsername hash cleanRole))).2
            ⟨hok _ _ trivial, fun a => ?_⟩
          cases a with
          | error err =>
            simp only
            split_ifs <;> exact Prog.follows_ret.2 fun user huser => by cases huser
          | ok id =>
            refine Prog.follows_ret.2 fun user huser => ?_
            cases huser
            exact ⟨hash, List.mem_cons_self⟩

theorem follows_updateRole (current : User) (id : Int) (role : String) (h : Past) :
    (updateRole current id role).Follows ok
      (fun h' out => out = .ok () → h <:+ h' ∧
        ∃ cleanRole, normalizeRole role = some cleanRole ∧
          ⟨.sql (.updateRole cleanRole id), .ok ()⟩ ∈ h') h := by
  unfold updateRole
  cases normalizeRole role with
  | none => exact Prog.follows_ret.2 fun hout => by cases hout
  | some cleanRole =>
    simp only
    rw [Prog.follows_bind]
    have hcheck : (checkLastAdmin (current.role = .admin ∧ cleanRole ≠ .admin)).Only Op.Routine :=
      (only_checkLastAdmin _).mono fun _ => Op.Reads.routine
    refine (follows_routine hok hcheck h).mono (fun _ _ _ hok => hok) fun h₁ checked hsuf _ => ?_
    cases checked with
    | error err => exact Prog.follows_ret.2 fun hout => by cases hout
    | ok =>
      simp only
      rw [Prog.follows_bind]
      refine (Prog.follows_op (e := Op.sql (.updateRole cleanRole id))).2
        ⟨hok _ _ trivial, fun a => ?_⟩
      cases a with
      | error err => exact Prog.follows_ret.2 fun hout => by cases hout
      | ok =>
        refine Prog.follows_ret.2 fun _ => ?_
        exact ⟨hsuf.trans (List.suffix_cons _ _), cleanRole, rfl, List.mem_cons_self⟩

theorem follows_updatePassword (id : Int) (password : String) (h : Past) :
    (updatePassword id password).Follows ok
      (fun h' out => out = .ok () → h <:+ h' ∧ ∃ hash,
        ⟨.hashPassword password, .ok hash⟩ ∈ h' ∧
          ⟨.sql (.updatePassword hash id), .ok ()⟩ ∈ h') h := by
  unfold updatePassword
  split_ifs
  · exact Prog.follows_ret.2 fun hout => by cases hout
  · rw [Prog.follows_bind]
    refine (Prog.follows_op (e := Op.hashPassword password)).2 ⟨hok _ _ trivial, fun hashed => ?_⟩
    cases hashed with
    | error err => exact Prog.follows_ret.2 fun hout => by cases hout
    | ok hash =>
      simp only
      rw [Prog.follows_bind]
      refine (Prog.follows_op (e := Op.sql (.updatePassword hash id))).2
        ⟨hok _ _ trivial, fun a => ?_⟩
      cases a with
      | error err => exact Prog.follows_ret.2 fun hout => by cases hout
      | ok =>
        refine Prog.follows_ret.2 fun _ => ⟨?_, hash, by simp, by simp⟩
        exact (List.suffix_cons _ _).trans (List.suffix_cons _ _)

end Accounts

/-- What a request to update a user has changed. -/
structure Updated (h : Past) (id : Int) (role password : Option String) (user : User) : Prop where
  role : ∀ given ∈ role, ∃ cleanRole, normalizeRole given = some cleanRole ∧
    ⟨.sql (.updateRole cleanRole id), .ok ()⟩ ∈ h
  password : ∀ given ∈ password, ∃ hash, ⟨.hashPassword given, .ok hash⟩ ∈ h ∧
    ⟨.sql (.updatePassword hash id), .ok ()⟩ ∈ h
  read : ⟨.sql (.selectUserByID id), .ok (some user)⟩ ∈ h

theorem Updated.mono {h h' : Past} {id : Int} {role password : Option String} {user : User}
    (hu : Updated h id role password user) (hsub : h ⊆ h') : Updated h' id role password user where
  role given hgiven := (hu.role given hgiven).imp fun _ hc => ⟨hc.1, hsub hc.2⟩
  password given hgiven := (hu.password given hgiven).imp fun _ hc => ⟨hsub hc.1, hsub hc.2⟩
  read := hsub hu.read

section Accounts

variable {ok : Past → Op → Prop} (hok : ∀ h e, e.Routine → ok h e)
include hok

omit hok in
/-- A part that is left out unless it was asked for. -/
theorem follows_part {P : String → Past → Prop} (asked : Option String)
    {part : String → M (Except Error Unit)} {h : Past}
    (hpart : ∀ given, (part given).Follows ok
      (fun h' out => out = .ok () → h <:+ h' ∧ P given h') h) :
    (asked.elim (pure (.ok ())) part).Follows ok
      (fun h' out => out = .ok () → h <:+ h' ∧ ∀ given ∈ asked, P given h') h := by
  cases asked with
  | none =>
    rw [Option.elim_none]
    exact Prog.follows_ret.2 fun _ => ⟨List.suffix_rfl, by simp⟩
  | some given =>
    rw [Option.elim_some]
    refine (hpart given).mono (fun _ _ _ hok => hok) fun h' out _ hdone hout => ?_
    simpa using hdone hout

theorem follows_updateUser (id : Int) (role password : Option String) (h : Past) :
    (updateUser id role password).Follows ok
      (fun h' out => ∀ user, out = .ok user → Updated h' id role password user) h := by
  unfold updateUser
  rw [Prog.follows_bind]
  refine (follows_getUserByID hok id h).mono (fun _ _ _ hok => hok) fun h₁ found _ _ => ?_
  cases found with
  | error err => exact Prog.follows_ret.2 fun user huser => by cases huser
  | ok current =>
    simp only
    rw [Prog.follows_bind]
    refine (follows_part role fun given => follows_updateRole hok current id given h₁).mono
      (fun _ _ _ hok => hok) fun h₂ changed _ hroles => ?_
    cases changed with
    | error err => exact Prog.follows_ret.2 fun user huser => by cases huser
    | ok =>
      simp only
      rw [Prog.follows_bind]
      refine (follows_part password fun given => follows_updatePassword hok id given h₂).mono
        (fun _ _ _ hok => hok) fun h₃ changed' _ hpasswords => ?_
      cases changed' with
      | error err => exact Prog.follows_ret.2 fun user huser => by cases huser
      | ok =>
        refine (follows_getUserByID hok id h₃).mono (fun _ _ _ hok => hok) ?_
        intro h' out _ hread user huser
        obtain ⟨hsuf₃, hmem⟩ := hread user huser
        obtain ⟨hsuf₂, hpass⟩ := hpasswords rfl
        obtain ⟨-, hrole⟩ := hroles rfl
        refine ⟨fun given hgiven => ?_, fun given hgiven => ?_, hmem⟩
        · obtain ⟨cleanRole, hclean, hwrite⟩ := hrole given hgiven
          exact ⟨cleanRole, hclean, (hsuf₂.trans hsuf₃).subset hwrite⟩
        · obtain ⟨hash, hhashed, hwrite⟩ := hpass given hgiven
          exact ⟨hash, hsuf₃.subset hhashed, hsuf₃.subset hwrite⟩

theorem follows_deleteUser (id : Int) (h : Past) :
    (deleteUser id).Follows ok
      (fun h' out => out = .ok () → ∃ n ≠ 0, ⟨.sql (.deleteUser id), .ok n⟩ ∈ h') h := by
  unfold deleteUser
  rw [Prog.follows_bind]
  refine (follows_getUserByID hok id h).mono (fun _ _ _ hok => hok) fun h₁ found _ _ => ?_
  cases found with
  | error err => exact Prog.follows_ret.2 fun hout => by cases hout
  | ok target =>
    simp only
    rw [Prog.follows_bind]
    have hcheck : (checkLastAdmin (target.role = .admin)).Only Op.Routine :=
      (only_checkLastAdmin _).mono fun _ => Op.Reads.routine
    refine (follows_routine hok hcheck h₁).mono (fun _ _ _ hok => hok) fun h₂ checked _ _ => ?_
    cases checked with
    | error err => exact Prog.follows_ret.2 fun hout => by cases hout
    | ok =>
      simp only
      rw [Prog.follows_bind]
      refine (Prog.follows_op (e := Op.sql (.deleteUser id))).2 ⟨hok _ _ trivial, fun a => ?_⟩
      cases a with
      | error err => exact Prog.follows_ret.2 fun hout => by cases hout
      | ok affected =>
        simp only
        split_ifs with hzero
        · exact Prog.follows_ret.2 fun hout => by cases hout
        · exact Prog.follows_ret.2 fun _ => ⟨affected, hzero, List.mem_cons_self⟩

end Accounts

end QuickVps.Auth
