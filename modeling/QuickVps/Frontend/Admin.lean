import QuickVps.Js.Strings
import QuickVps.Lib.Lts
import Mathlib.Data.List.Nodup
import Mathlib.Logic.Function.Basic

/-!
# The admin page

The page shows the users that were loaded last, each with an editor for a role and a password. A
load empties the passwords and keeps the roles of the editors that were there, so an editor that
was not touched holds the role of an older load, and saving the user sends it back.

* `Page` — the users, the editors, and what the admin has chosen since the last successful save;
* `NoStaleRole` — a save sends no role but one that was chosen since;
* `role_written_back` — a run in which saving a password sends a role that nobody chose;
* `Fresh` — a load brings the role that the editor holds, or that one was chosen since;
* `visits_noStaleRole_iff` — exactly then no role is sent that was not chosen.
-/

namespace QuickVps.Frontend

inductive UserRole where
  | admin
  | viewer
  deriving DecidableEq, Repr

structure AuthUser where
  id : Nat
  username : String
  role : UserRole
  deriving DecidableEq, Repr

structure UserEditor where
  role : UserRole
  password : String
  deriving DecidableEq, Repr

/-- The body of `PUT /api/users/{id}`. -/
structure UserPayload where
  role : Option UserRole
  password : Option String
  deriving DecidableEq, Repr

/-- The state of the page. The page does not read the last two fields: the role that was chosen
last for a user since the click of the last successful save of that user, and the user whose save
is in flight with the role that was chosen since its click. -/
structure Page where
  users : List AuthUser := []
  editors : Nat → Option UserEditor := fun _ => none
  busy : Bool := false
  chosen : Nat → Option UserRole := fun _ => none
  saving : Option (Nat × Option UserRole) := none

namespace Page

def resetEditors (prev : Nat → Option UserEditor) (nextUsers : List AuthUser) :
    Nat → Option UserEditor :=
  nextUsers.foldl
    (fun next user => Function.update next user.id
      (some { role := ((prev user.id).map UserEditor.role).getD user.role, password := "" }))
    fun _ => none

/-- The end of `loadUsers`. The ids are keys of the table of users. -/
def loadUsers (p : Page) (nextUsers : List AuthUser) : Option Page :=
  if (nextUsers.map AuthUser.id).Nodup then
    some { p with users := nextUsers, editors := resetEditors p.editors nextUsers }
  else none

/-- `setEditor`, and the editor that it leaves. -/
def editor (p : Page) (user : AuthUser) : UserEditor :=
  (p.editors user.id).getD { role := user.role, password := "" }

/-- The selector in the row of a user. -/
def onRoleChange (p : Page) (user : AuthUser) (role : UserRole) : Option Page :=
  if user ∈ p.users then
    some { p with
      editors := Function.update p.editors user.id (some { p.editor user with role := role })
      chosen := Function.update p.chosen user.id (some role)
      saving := p.saving.map fun s => if s.1 = user.id then (s.1, some role) else s }
  else none

/-- The password field in the row of a user. -/
def onPasswordChange (p : Page) (user : AuthUser) (password : String) : Option Page :=
  if user ∈ p.users then
    some { p with
      editors := Function.update p.editors user.id
        (some { p.editor user with password := password }) }
  else none

/-- What `handleSaveUser` sends, if it does not return early. -/
def payload (p : Page) (user : AuthUser) : Option UserPayload :=
  match p.editors user.id with
  | none => none
  | some editor =>
    if p.busy then none
    else
      let payload : UserPayload :=
        { role := if editor.role ≠ user.role then some editor.role else none
          password := if Js.trim editor.password ≠ "" then some editor.password else none }
      if payload.role = none ∧ payload.password = none then none else some payload

/-- `handleSaveUser`, up to its request. -/
def handleSaveUser (p : Page) (user : AuthUser) : Option Page :=
  if user ∈ p.users then
    some (if (p.payload user).isSome then { p with busy := true, saving := some (user.id, none) }
      else p)
  else none

/-- The request of a save was answered with success. -/
def saved (p : Page) : Option Page :=
  p.saving.map fun s => { p with chosen := Function.update p.chosen s.1 s.2, saving := none }

/-- The requests of `handleCreateUser` and `handleDeleteUser`. -/
def request (p : Page) : Page := { p with busy := true }

/-- The `finally` of a handler. -/
def finish (p : Page) : Page := { p with busy := false, saving := none }

end Page

inductive PageEvent where
  | loadUsers (nextUsers : List AuthUser)
  | onRoleChange (user : AuthUser) (role : UserRole)
  | onPasswordChange (user : AuthUser) (password : String)
  | handleSaveUser (user : AuthUser)
  | saved
  | request
  | finish

def Page.step (p : Page) : PageEvent → Option Page
  | .loadUsers nextUsers => p.loadUsers nextUsers
  | .onRoleChange user role => p.onRoleChange user role
  | .onPasswordChange user password => p.onPasswordChange user password
  | .handleSaveUser user => p.handleSaveUser user
  | .saved => p.saved
  | .request => some p.request
  | .finish => some p.finish

/-! ## What is asked of the page -/

/-- Saving a user of the list sends no role, or the one that was chosen last since the last
successful save. -/
def NoStaleRole (p : Page) : Prop :=
  ∀ user ∈ p.users, ∀ payload, p.payload user = some payload →
    ∀ role, payload.role = some role → p.chosen user.id = some role

/-! ## A role that is written back -/

/-- Another admin makes the viewer an admin. The page loads that, after the creation of a user, and
this admin sets a password. -/
def promotion : List PageEvent :=
  [.loadUsers [⟨2, "user", .viewer⟩], .request, .loadUsers [⟨2, "user", .admin⟩], .finish,
    .onPasswordChange ⟨2, "user", .admin⟩ "password"]

/-- **A role is written back** that this admin has not chosen. -/
theorem role_written_back :
    (Lts.run Page.step {} promotion).map
        (fun p => (p.users, p.payload ⟨2, "user", .admin⟩, p.chosen 2)) =
      some ([⟨2, "user", .admin⟩], some ⟨some .viewer, some "password"⟩, none) := by
  decide

/-! ## The exact condition -/

/-- The user has no editor, or one with the same role, or one with the role that was chosen. -/
def UpToDate (p : Page) (user : AuthUser) : Prop :=
  ∀ editor, p.editors user.id = some editor →
    editor.role = user.role ∨ p.chosen user.id = some editor.role

/-- Every user of a list is up to date when it is loaded, and when the page is no longer busy. -/
def Fresh (p : Page) : PageEvent → Prop
  | .loadUsers nextUsers => p.busy = false → ∀ user ∈ nextUsers, UpToDate p user
  | .finish => ∀ user ∈ p.users, UpToDate p user
  | _ => True

theorem noStaleRole_iff (p : Page) :
    NoStaleRole p ↔ (p.busy = false → ∀ user ∈ p.users, UpToDate p user) := by
  constructor
  · intro h hbusy user huser editor heditor
    by_cases hrole : editor.role = user.role
    · exact .inl hrole
    · have hpayload : p.payload user = some
          ⟨some editor.role,
            if Js.trim editor.password ≠ "" then some editor.password else none⟩ := by
        simp [Page.payload, heditor, hbusy, hrole]
      exact .inr (h user huser _ hpayload editor.role rfl)
  · intro h user huser payload hpayload role hrole
    unfold Page.payload at hpayload
    split at hpayload
    · cases hpayload
    next editor heditor =>
      by_cases hbusy : p.busy = true
      · simp [hbusy] at hpayload
      · simp only [hbusy, Bool.false_eq_true, if_false, Option.ite_none_left_eq_some,
          Option.some.injEq] at hpayload
        obtain ⟨-, rfl⟩ := hpayload
        obtain ⟨hne, hr⟩ := Option.ite_none_right_eq_some.1 hrole
        cases hr
        exact (h (by simpa using hbusy) user huser editor heditor).resolve_left hne

/-! ### The editors after a load -/

theorem foldl_update_of_notMem {users : List AuthUser} {id : Nat}
    (h : id ∉ users.map AuthUser.id) (f : AuthUser → Option UserEditor)
    (next : Nat → Option UserEditor) :
    users.foldl (fun next user => Function.update next user.id (f user)) next id = next id := by
  induction users generalizing next with
  | nil => rfl
  | cons user users ih =>
    rw [List.map_cons, List.mem_cons, not_or] at h
    rw [List.foldl_cons, ih h.2, Function.update_of_ne h.1]

theorem foldl_update_of_mem {users : List AuthUser} (hnodup : (users.map AuthUser.id).Nodup)
    {user : AuthUser} (h : user ∈ users) (f : AuthUser → Option UserEditor)
    (next : Nat → Option UserEditor) :
    users.foldl (fun next user => Function.update next user.id (f user)) next user.id =
      f user := by
  induction users generalizing next with
  | nil => cases h
  | cons first users ih =>
    rw [List.map_cons, List.nodup_cons] at hnodup
    rw [List.foldl_cons]
    rcases List.mem_cons.1 h with rfl | h
    · rw [foldl_update_of_notMem hnodup.1, Function.update_self]
    · exact ih hnodup.2 h _

/-- A load leaves the user with the role of the editor before, or with the one it brings. -/
theorem resetEditors_of_mem {users : List AuthUser} (hnodup : (users.map AuthUser.id).Nodup)
    {user : AuthUser} (h : user ∈ users) (prev : Nat → Option UserEditor) :
    Page.resetEditors prev users user.id =
      some { role := ((prev user.id).map UserEditor.role).getD user.role, password := "" } :=
  foldl_update_of_mem hnodup h _ _

theorem upToDate_loadUsers {p : Page} {users : List AuthUser}
    (hnodup : (users.map AuthUser.id).Nodup) {user : AuthUser} (h : user ∈ users) :
    UpToDate { p with users := users, editors := Page.resetEditors p.editors users } user ↔
      UpToDate p user := by
  have hreset := resetEditors_of_mem hnodup h p.editors
  simp only [UpToDate, hreset, Option.some.injEq, forall_eq']
  cases p.editors user.id with
  | none => simp
  | some editor => simp

/-! ### One event -/

/-- The ids of the users on the page are distinct, and while a save is in flight the page is
busy. -/
structure Coherent (p : Page) : Prop where
  distinct : (p.users.map AuthUser.id).Nodup
  busy : p.saving.isSome = true → p.busy = true

theorem coherent_empty : Coherent {} := ⟨List.nodup_nil, fun h => by cases h⟩

theorem coherent_step {p p' : Page} {ev : PageEvent} (hp : Coherent p)
    (hstep : p.step ev = some p') : Coherent p' := by
  cases ev with
  | loadUsers users =>
    simp only [Page.step, Page.loadUsers] at hstep
    split_ifs at hstep with hnodup
    cases hstep
    exact ⟨hnodup, hp.busy⟩
  | onRoleChange user role =>
    simp only [Page.step, Page.onRoleChange] at hstep
    split_ifs at hstep
    cases hstep
    exact ⟨hp.distinct, fun h => hp.busy (by simpa using h)⟩
  | onPasswordChange user password =>
    simp only [Page.step, Page.onPasswordChange] at hstep
    split_ifs at hstep
    cases hstep
    exact ⟨hp.distinct, hp.busy⟩
  | handleSaveUser user =>
    simp only [Page.step, Page.handleSaveUser] at hstep
    split_ifs at hstep <;> cases hstep
    · exact ⟨hp.distinct, fun _ => rfl⟩
    · exact hp
  | saved =>
    obtain ⟨s, -, rfl⟩ := Option.map_eq_some_iff.1 hstep
    exact ⟨hp.distinct, fun h => by cases h⟩
  | request =>
    cases hstep
    exact ⟨hp.distinct, fun _ => rfl⟩
  | finish =>
    cases hstep
    exact ⟨hp.distinct, fun h => by cases h⟩

/-- The user in the list with an id is the one that was given. -/
theorem Coherent.eq_of_id {p : Page} (hp : Coherent p) {user user' : AuthUser}
    (h : user ∈ p.users) (h' : user' ∈ p.users) (hid : user.id = user'.id) : user = user' :=
  List.inj_on_of_nodup_map hp.distinct h h' hid

theorem upToDate_onRoleChange {p p' : Page} {user : AuthUser} {role : UserRole}
    (hstep : p.onRoleChange user role = some p') {u : AuthUser} (hu : UpToDate p u) :
    UpToDate p' u := by
  unfold Page.onRoleChange at hstep
  split_ifs at hstep
  cases hstep
  intro editor heditor
  by_cases hid : u.id = user.id
  · simp only [hid, Function.update_self, Option.some.injEq] at heditor ⊢
    subst heditor
    exact .inr rfl
  · simp only [Function.update_of_ne hid] at heditor ⊢
    exact hu editor heditor

theorem upToDate_onPasswordChange {p p' : Page} (hp : Coherent p) {user : AuthUser}
    {password : String} (hstep : p.onPasswordChange user password = some p') {u : AuthUser}
    (hmem : u ∈ p.users) (hu : UpToDate p u) : UpToDate p' u := by
  unfold Page.onPasswordChange at hstep
  split_ifs at hstep with huser
  cases hstep
  intro editor heditor
  by_cases hid : u.id = user.id
  · obtain rfl := hp.eq_of_id hmem huser hid
    simp only [Function.update_self, Option.some.injEq] at heditor ⊢
    subst heditor
    cases hold : p.editors u.id with
    | none => simp [Page.editor, hold]
    | some old => simpa [Page.editor, hold] using hu old hold
  · simp only [Function.update_of_ne hid] at heditor ⊢
    exact hu editor heditor

/-- One event makes a save send a stale role exactly if it is not fresh. -/
theorem noStaleRole_step_iff {p p' : Page} {ev : PageEvent} (hp : Coherent p)
    (hgood : NoStaleRole p) (hstep : p.step ev = some p') : NoStaleRole p' ↔ Fresh p ev := by
  rw [noStaleRole_iff] at hgood ⊢
  cases ev with
  | loadUsers users =>
    simp only [Page.step, Page.loadUsers] at hstep
    split_ifs at hstep with hnodup
    cases hstep
    refine forall_congr' fun _ => forall_congr' fun user => forall_congr' fun hmem => ?_
    exact upToDate_loadUsers hnodup hmem
  | onRoleChange user role =>
    refine iff_of_true (fun hbusy u hu => ?_) trivial
    have hsame := hstep
    simp only [Page.step, Page.onRoleChange] at hsame
    split_ifs at hsame
    cases hsame
    exact upToDate_onRoleChange hstep (hgood hbusy u hu)
  | onPasswordChange user password =>
    refine iff_of_true (fun hbusy u hu => ?_) trivial
    have hsame := hstep
    simp only [Page.step, Page.onPasswordChange] at hsame
    split_ifs at hsame
    cases hsame
    exact upToDate_onPasswordChange hp hstep hu (hgood hbusy u hu)
  | handleSaveUser user =>
    refine iff_of_true (fun hbusy => ?_) trivial
    simp only [Page.step, Page.handleSaveUser] at hstep
    split_ifs at hstep <;> cases hstep
    · cases hbusy
    · exact hgood hbusy
  | saved =>
    obtain ⟨s, hs, rfl⟩ := Option.map_eq_some_iff.1 hstep
    refine iff_of_true (fun hbusy => ?_) trivial
    rw [hp.busy (by rw [hs]; rfl)] at hbusy
    cases hbusy
  | request =>
    cases hstep
    exact iff_of_true (fun hbusy => by cases hbusy) trivial
  | finish =>
    cases hstep
    exact ⟨fun h => h rfl, fun h _ => h⟩

/-! ### Runs -/

/-- **No stale role is sent** at any moment of a run, exactly if every list that is loaded brings
for every user the role that the user's editor holds, or that was chosen since. -/
theorem visits_noStaleRole_iff {events : List PageEvent} {p : Page}
    (h : Lts.run Page.step {} events = some p) :
    Lts.Visits Page.step NoStaleRole {} events ↔ Lts.Along Page.step Fresh {} events :=
  Lts.visits_iff_along (I := Coherent) (fun _ _ _ => coherent_step)
    (fun _ _ _ => noStaleRole_step_iff) coherent_empty (fun _ hu => by cases hu) h

theorem visits_noStaleRole_iff_promotion :
    Lts.Visits Page.step NoStaleRole {} promotion ↔ Lts.Along Page.step Fresh {} promotion :=
  have henabled : (Lts.run Page.step {} promotion).isSome := by decide
  visits_noStaleRole_iff (Option.some_get henabled).symm

end QuickVps.Frontend
