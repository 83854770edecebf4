import QuickVps.Auth.Expiry
import QuickVps.Auth.Reliable
import QuickVps.Lib.Lts

/-!
# The cache of the session manager

What `SessionManager` keeps in memory besides its store. The calls run one after another, and the
store does not fail.

* `World.answer`, `World.afterGet` — what `get` answers and leaves, from both copies.
* `InStep` — memory has what the table has, except for sessions that have expired; every call keeps
  this (`inStep_step`).
* `transparent_iff` — when the memory shows: at the very instant a session in it expires.
-/

namespace QuickVps.Auth

variable {bcrypt : Bcrypt} {cs cs' : List Choice} {w w' : World}

/-! ## What the calls do -/

namespace World

def forget (w : World) (token : String) : World :=
  { w with
    memory := Function.update w.memory token none
    sessions := Function.update w.sessions token none }

def forgetUser (w : World) (userID : Int) : World :=
  { w with
    memory := dropSessions w.memory fun s => s.userID = userID
    sessions := dropSessions w.sessions fun s => s.userID = userID }

def dropExpired (w : World) (now : Int) : World :=
  { w with sessions := dropSessions w.sessions fun s => s.expiresAt ≤ now }

def cache (w : World) (s : Session) (token : String) : World :=
  { w with memory := Function.update w.memory token (some s) }

def save (w : World) (s : Session) : World :=
  { w with
    memory := Function.update w.memory s.token (some s)
    sessions := Function.update w.sessions s.token (some s) }

/-- What `get` answers for the token. -/
def answer (w : World) (now : Int) (token : String) : Option Session :=
  match w.memory token with
  | some s => if now > s.expiresAt then none else some s
  | none => (w.dropExpired now).sessions token

/-- What `load` leaves behind. -/
def afterLoad (w : World) (now : Int) (token : String) : World :=
  match (w.dropExpired now).sessions token with
  | some s => (w.dropExpired now).cache s token
  | none => w.dropExpired now

/-- What `get` leaves behind. -/
def afterGet (w : World) (now : Int) (token : String) : World :=
  match w.memory token with
  | some s => if now > s.expiresAt then w.forget token else w
  | none => w.afterLoad now token

/-- The world of a new manager over the same store. -/
def restarted (w : World) : World := { w with memory := fun _ => none }

end World

theorem dropSessions_eq_some {sessions : String → Option Session} {p : Session → Bool}
    {token : String} {s : Session} :
    dropSessions sessions p token = some s ↔ sessions token = some s ∧ p s = false := by
  simp [dropSessions, Option.filter_eq_some_iff]

theorem expires_of_dropExpired {now : Int} {token : String} {s : Session}
    (h : (w.dropExpired now).sessions token = some s) :
    w.sessions token = some s ∧ now < s.expiresAt := by
  obtain ⟨hs, hlate⟩ := dropSessions_eq_some.1 h
  exact ⟨hs, by simpa using hlate⟩

theorem deleteSession_reliably {token : String} {a : Except Error Unit}
    (h : (deleteSession token).run (reliably bcrypt) cs w = some (a, cs', w')) :
    w' = { w with sessions := Function.update w.sessions token none } := by
  obtain ⟨answer, ds, t, hstmt, hrest⟩ := Prog.run_bind h
  obtain ⟨c, -, hexec⟩ := run_stmt_reliably hstmt
  cases hexec
  exact (Prog.run_ret hrest).2.2

theorem deleteSessionsByUserID_reliably {userID : Int} {a : Except Error Unit}
    (h : (deleteSessionsByUserID userID).run (reliably bcrypt) cs w = some (a, cs', w')) :
    w' = { w with sessions := dropSessions w.sessions fun s => s.userID = userID } := by
  obtain ⟨answer, ds, t, hstmt, hrest⟩ := Prog.run_bind h
  obtain ⟨c, -, hexec⟩ := run_stmt_reliably hstmt
  cases hexec
  exact (Prog.run_ret hrest).2.2

theorem deleteExpiredSessions_reliably {now : Int} {a : Except Error Unit}
    (h : (deleteExpiredSessions now).run (reliably bcrypt) cs w = some (a, cs', w')) :
    a = .ok () ∧ w' = w.dropExpired now := by
  obtain ⟨answer, ds, t, hstmt, hrest⟩ := Prog.run_bind h
  obtain ⟨c, -, hexec⟩ := run_stmt_reliably hstmt
  cases hexec
  obtain ⟨rfl, -, rfl⟩ := Prog.run_ret hrest
  exact ⟨rfl, rfl⟩

theorem getSession_reliably {token : String} {a : Except Error (Option Session)}
    (h : (getSession token).run (reliably bcrypt) cs w = some (a, cs', w')) :
    a = .ok (w.sessions token) ∧ w' = w := by
  obtain ⟨answer, ds, t, hstmt, hrest⟩ := Prog.run_bind h
  obtain ⟨c, -, hexec⟩ := run_stmt_reliably hstmt
  cases hexec
  obtain ⟨rfl, -, rfl⟩ := Prog.run_ret hrest
  exact ⟨rfl, rfl⟩

namespace SessionManager

variable {m : SessionManager}

theorem delete_reliably (hm : m.persistent = true) {token : String}
    (h : (m.delete token).run (reliably bcrypt) cs w = some ((), cs', w')) :
    w' = w.forget token := by
  obtain ⟨_, ds, t, hremove, hrest⟩ := Prog.run_bind h
  obtain ⟨c, -, -, hexec⟩ := run_op_reliably hremove
  cases hexec
  rw [if_pos hm] at hrest
  obtain ⟨_, ds', t', hdelete, hend⟩ := Prog.run_bind hrest
  obtain ⟨-, -, rfl⟩ := Prog.run_ret hend
  exact deleteSession_reliably hdelete

theorem deleteByUserID_reliably (hm : m.persistent = true) {userID : Int}
    (h : (m.deleteByUserID userID).run (reliably bcrypt) cs w = some ((), cs', w')) :
    w' = w.forgetUser userID := by
  obtain ⟨_, ds, t, hremove, hrest⟩ := Prog.run_bind h
  obtain ⟨c, -, -, hexec⟩ := run_op_reliably hremove
  cases hexec
  rw [if_pos hm] at hrest
  obtain ⟨_, ds', t', hdelete, hend⟩ := Prog.run_bind hrest
  obtain ⟨-, -, rfl⟩ := Prog.run_ret hend
  exact deleteSessionsByUserID_reliably hdelete

/-- The store has dropped the expired sessions before it is read, so that the second comparison of
`Get` never fails. -/
theorem load_reliably (hm : m.persistent = true) {token : String} {now : Int}
    {found : Option Session}
    (h : (m.load token now).run (reliably bcrypt) cs w = some (found, cs', w')) :
    found = (w.dropExpired now).sessions token ∧ w' = w.afterLoad now token := by
  unfold load at h
  unfold World.afterLoad
  rw [hm] at h
  obtain ⟨dropped, ds, t, hdrop, hrest⟩ := Prog.run_bind h
  obtain ⟨rfl, rfl⟩ := deleteExpiredSessions_reliably hdrop
  obtain ⟨read, ds', t', hread, hrest⟩ := Prog.run_bind hrest
  obtain ⟨rfl, rfl⟩ := getSession_reliably hread
  cases hstored : (w.dropExpired now).sessions token with
  | none =>
    rw [hstored] at hrest
    obtain ⟨rfl, -, rfl⟩ := Prog.run_ret hrest
    exact ⟨rfl, rfl⟩
  | some persisted =>
    have hlate : ¬ now > persisted.expiresAt := by
      have := (expires_of_dropExpired hstored).2
      omega
    rw [hstored] at hrest
    simp only [if_neg hlate] at hrest
    obtain ⟨_, ds'', t'', hput, hend⟩ := Prog.run_bind hrest
    obtain ⟨rfl, -, rfl⟩ := Prog.run_ret hend
    obtain ⟨c, -, -, hexec⟩ := run_op_reliably hput
    cases hexec
    exact ⟨rfl, rfl⟩

theorem get_reliably (hm : m.persistent = true) {token : String} {found : Option Session}
    (h : (m.get token).run (reliably bcrypt) cs w = some (found, cs', w')) :
    ∃ c ∈ cs, found = w.answer c.now token ∧ w' = w.afterGet c.now token := by
  obtain ⟨now, ds, t, hnow, hrest⟩ := Prog.run_bind h
  obtain ⟨c, rfl, -, hexec⟩ := run_op_reliably hnow
  cases hexec
  refine ⟨c, List.mem_cons_self, ?_⟩
  obtain ⟨stored, ds', t', hlookup, hrest⟩ := Prog.run_bind hrest
  obtain ⟨c', rfl, -, hexec⟩ := run_op_reliably hlookup
  cases hexec
  unfold World.answer World.afterGet
  cases hmemory : w.memory token with
  | none =>
    rw [hmemory] at hrest
    obtain ⟨rfl, rfl⟩ := load_reliably hm hrest
    exact ⟨rfl, rfl⟩
  | some session =>
    rw [hmemory] at hrest
    simp only at hrest ⊢
    split_ifs at hrest ⊢
    · obtain ⟨_, ds'', t'', hdelete, hend⟩ := Prog.run_bind hrest
      obtain ⟨rfl, -, rfl⟩ := Prog.run_ret hend
      exact ⟨rfl, delete_reliably hm hdelete⟩
    · obtain ⟨rfl, -, rfl⟩ := Prog.run_ret hrest
      exact ⟨rfl, rfl⟩

/-- A new session is saved in both places, with its lifetime counted from now. -/
theorem create_reliably (hm : m.persistent = true) {user : User} {a : Except String Session}
    (h : (m.create user).run (reliably bcrypt) cs w = some (a, cs', w')) :
    (∃ err, a = .error err ∧ w' = w) ∨
      ∃ c ∈ cs, ∃ s, a = .ok s ∧ s.expiresAt = c.now + m.ttl ∧ w' = w.save s := by
  obtain ⟨random, ds, t, hrandom, hrest⟩ := Prog.run_bind h
  obtain ⟨c, rfl, -, hexec⟩ := run_op_reliably hrandom
  obtain rfl : t = w := randomToken_exec hexec
  cases random with
  | error err =>
    obtain ⟨rfl, -, rfl⟩ := Prog.run_ret hrest
    exact .inl ⟨err, rfl, rfl⟩
  | ok token =>
    obtain ⟨now, ds₁, t₁, hnow, hrest⟩ := Prog.run_bind hrest
    obtain ⟨c₁, rfl, -, hexec⟩ := run_op_reliably hnow
    cases hexec
    obtain ⟨saved, ds₂, t₂, hcreate, hrest⟩ := Prog.run_bind hrest
    obtain ⟨c₂, rfl, hok, hexec⟩ := run_op_reliably hcreate
    have hfault : c₂.fault = none := hok
    simp only [exec, hm, hfault, if_true] at hexec
    cases hexec
    obtain ⟨rfl, -, rfl⟩ := Prog.run_ret hrest
    exact .inr ⟨c₁, by simp, _, rfl, rfl, rfl⟩

end SessionManager

/-! ## The two copies -/

/-- What is in memory is in the table too, unless it has expired at `t`. -/
def World.InStep (t : Int) (w : World) : Prop :=
  ∀ token s, w.memory token = some s →
    w.sessions token = some s ∨ w.sessions token = none ∧ s.expiresAt ≤ t

/-- Every session of `w'` is one of `w`. -/
def World.NoNew (w w' : World) : Prop :=
  ∀ token s, w'.memory token = some s ∨ w'.sessions token = some s →
    w.memory token = some s ∨ w.sessions token = some s

theorem inStep_forget {t : Int} (hw : w.InStep t) (token : String) :
    (w.forget token).InStep t ∧ w.NoNew (w.forget token) := by
  refine ⟨fun other s hs => ?_, fun other s hs => ?_⟩ <;>
    simp only [World.forget, Function.update_apply] at hs ⊢
  · split_ifs at hs ⊢
    exact hw other s hs
  · split_ifs at hs
    · simp at hs
    · exact hs

theorem inStep_forgetUser {t : Int} (hw : w.InStep t) (userID : Int) :
    (w.forgetUser userID).InStep t ∧ w.NoNew (w.forgetUser userID) := by
  refine ⟨fun token s hs => ?_, fun token s hs => ?_⟩
  · obtain ⟨hmemory, hother⟩ := dropSessions_eq_some.1 hs
    rcases hw token s hmemory with hstored | ⟨hnone, hlate⟩
    · exact .inl (dropSessions_eq_some.2 ⟨hstored, hother⟩)
    · exact .inr ⟨by simp [World.forgetUser, dropSessions, hnone], hlate⟩
  · exact hs.imp (fun h => (dropSessions_eq_some.1 h).1) fun h => (dropSessions_eq_some.1 h).1

/-- The table loses only what has expired. -/
theorem inStep_dropExpired {t now : Int} (hw : w.InStep t) (hnow : now ≤ t) :
    (w.dropExpired now).InStep t ∧ w.NoNew (w.dropExpired now) := by
  refine ⟨fun token s hs => ?_, fun token s hs => ?_⟩
  · rcases hw token s hs with hstored | ⟨hnone, hlate⟩
    · by_cases hlate : s.expiresAt ≤ now
      · exact .inr ⟨by simp [World.dropExpired, dropSessions, hstored, hlate], by omega⟩
      · exact .inl (dropSessions_eq_some.2 ⟨hstored, by simpa using hlate⟩)
    · exact .inr ⟨by simp [World.dropExpired, dropSessions, hnone], hlate⟩
  · exact hs.imp id fun h => (dropSessions_eq_some.1 h).1

theorem inStep_cache {t : Int} (hw : w.InStep t) {token : String} {s : Session}
    (hs : w.sessions token = some s) :
    (w.cache s token).InStep t ∧ w.NoNew (w.cache s token) := by
  refine ⟨fun other x hx => ?_, fun other x hx => ?_⟩ <;>
    by_cases hother : other = token
  · subst hother
    simp only [World.cache, Function.update_self] at hx ⊢
    exact .inl (hx ▸ hs)
  · simp only [World.cache, Function.update_of_ne hother] at hx ⊢
    exact hw other x hx
  · subst hother
    simp only [World.cache, Function.update_self] at hx
    exact .inr (hx.elim (fun h => h ▸ hs) id)
  · simpa only [World.cache, Function.update_of_ne hother] using hx

theorem inStep_save {t : Int} (hw : w.InStep t) (s : Session) : (w.save s).InStep t := by
  intro token x hx
  simp only [World.save, Function.update_apply] at hx ⊢
  split_ifs at hx ⊢
  · exact .inl hx
  · exact hw token x hx

theorem World.NoNew.trans {w'' : World} (h : w.NoNew w') (h' : w'.NoNew w'') : w.NoNew w'' :=
  fun token s hs => h token s (h' token s hs)

theorem inStep_afterGet {t now : Int} (hw : w.InStep t) (hnow : now ≤ t) (token : String) :
    (w.afterGet now token).InStep t ∧ w.NoNew (w.afterGet now token) := by
  unfold World.afterGet World.afterLoad
  cases w.memory token with
  | some s =>
    simp only
    split_ifs
    · exact inStep_forget hw token
    · exact ⟨hw, fun _ _ => id⟩
  | none =>
    obtain ⟨hdrop, hold⟩ := inStep_dropExpired hw hnow
    cases hstored : (w.dropExpired now).sessions token with
    | none => exact ⟨hdrop, hold⟩
    | some s =>
      obtain ⟨hcache, hold'⟩ := inStep_cache hdrop hstored
      exact ⟨hcache, hold.trans hold'⟩

/-! ## Runs -/

inductive Call where
  | create (user : User)
  | get (token : String)
  | delete (token : String)
  | deleteByUserID (userID : Int)

/-- A completed call at the time `now`, with the choices for its operations. -/
structure Completed where
  call : Call
  now : Int
  choices : List Choice

/-- `created` are the sessions that `Create` has returned, with the time of each. -/
structure History where
  world : World
  created : List (Int × Session)

namespace SessionManager

variable (m : SessionManager) (bcrypt : Bcrypt)

/-- The call, with the session that it has created, if any. -/
def perform : Call → M (Option Session)
  | .create user => do
    match ← m.create user with
    | .ok s => return some s
    | .error _ => return none
  | .get token => do
    let _ ← m.get token
    return none
  | .delete token => do
    m.delete token
    return none
  | .deleteByUserID userID => do
    m.deleteByUserID userID
    return none

def step (s : History) (a : Completed) : Option History :=
  if ∀ c ∈ a.choices, c.now = a.now then
    ((m.perform a.call).run (reliably bcrypt) a.choices s.world).map fun r =>
      { world := r.2.2
        created :=
          match r.1 with
          | some x => (a.now, x) :: s.created
          | none => s.created }
  else none

/-- What a completed call does: it creates a session, or keeps or removes those there are. -/
theorem step_cases {m : SessionManager} (hm : m.persistent = true) {bcrypt : Bcrypt}
    {s s' : History} {a : Completed} {t : Int} (hs : s.world.InStep t) (ha : a.now ≤ t)
    (h : m.step bcrypt s a = some s') :
    s'.world.InStep t ∧
      ((∃ x, x.expiresAt = a.now + m.ttl ∧ s'.world = s.world.save x ∧
          s'.created = (a.now, x) :: s.created) ∨
        s.world.NoNew s'.world ∧ s'.created = s.created) := by
  unfold step at h
  split_ifs at h with hnow
  obtain ⟨⟨found, cs', w'⟩, hrun, rfl⟩ := Option.map_eq_some_iff.1 h
  obtain ⟨call, now, cs⟩ := a
  simp only at hnow hrun ha ⊢
  cases call with
  | create user =>
    obtain ⟨answer, ds, t', hcreate, hrest⟩ := Prog.run_bind hrun
    rcases create_reliably hm hcreate with ⟨err, rfl, rfl⟩ | ⟨c, hc, x, rfl, hexpires, rfl⟩
    · obtain ⟨rfl, -, rfl⟩ := Prog.run_ret hrest
      exact ⟨hs, .inr ⟨fun _ _ => id, rfl⟩⟩
    · obtain ⟨rfl, -, rfl⟩ := Prog.run_ret hrest
      exact ⟨inStep_save hs x, .inl ⟨x, by rw [hexpires, hnow c hc], rfl, rfl⟩⟩
  | get token =>
    obtain ⟨answer, ds, t', hget, hrest⟩ := Prog.run_bind hrun
    obtain ⟨rfl, -, rfl⟩ := Prog.run_ret hrest
    obtain ⟨c, hc, -, rfl⟩ := get_reliably hm hget
    obtain ⟨hstep, hold⟩ := inStep_afterGet hs (hnow c hc ▸ ha) token
    exact ⟨hstep, .inr ⟨hold, rfl⟩⟩
  | delete token =>
    obtain ⟨answer, ds, t', hdelete, hrest⟩ := Prog.run_bind hrun
    obtain ⟨rfl, -, rfl⟩ := Prog.run_ret hrest
    obtain rfl := delete_reliably hm hdelete
    obtain ⟨hstep, hold⟩ := inStep_forget hs token
    exact ⟨hstep, .inr ⟨hold, rfl⟩⟩
  | deleteByUserID userID =>
    obtain ⟨answer, ds, t', hdelete, hrest⟩ := Prog.run_bind hrun
    obtain ⟨rfl, -, rfl⟩ := Prog.run_ret hrest
    obtain rfl := deleteByUserID_reliably hm hdelete
    obtain ⟨hstep, hold⟩ := inStep_forgetUser hs userID
    exact ⟨hstep, .inr ⟨hold, rfl⟩⟩

/-- A session there is was there at the start, or was created with the lifetime of the manager. -/
def Known (start : World) (s : History) : Prop :=
  ∀ token x, s.world.memory token = some x ∨ s.world.sessions token = some x →
    start.sessions token = some x ∨
      ∃ created, (created, x) ∈ s.created ∧ x.expiresAt = created + m.ttl

variable {m} {bcrypt} {start : World} {as : List Completed} {s s' : History} {t : Int}

theorem known_step (hm : m.persistent = true) {a : Completed} (hs : s.world.InStep t)
    (hknown : m.Known start s) (ha : a.now ≤ t) (h : m.step bcrypt s a = some s') :
    s'.world.InStep t ∧ m.Known start s' := by
  obtain ⟨hstep, ⟨x, hexpires, hworld, hcreated⟩ | ⟨hold, hcreated⟩⟩ := step_cases hm hs ha h
  · refine ⟨hstep, fun token y hy => ?_⟩
    rw [hworld] at hy
    by_cases htoken : token = x.token
    · obtain rfl : x = y := by simpa [World.save, htoken] using hy
      exact .inr ⟨a.now, by rw [hcreated]; exact List.mem_cons_self, hexpires⟩
    · rcases hknown token y (by simpa [World.save, htoken] using hy) with h₀ | ⟨u, hu, hy⟩
      · exact .inl h₀
      · exact .inr ⟨u, by rw [hcreated]; exact List.mem_cons_of_mem _ hu, hy⟩
  · refine ⟨hstep, fun token y hy => ?_⟩
    rw [hcreated]
    exact hknown token y (hold token y hy)

/-- After calls until `t`, from a new manager. -/
theorem known_run (hm : m.persistent = true) (hstart : start.memory = fun _ => none)
    (has : ∀ a ∈ as, a.now ≤ t) (h : Lts.run (m.step bcrypt) ⟨start, []⟩ as = some s) :
    s.world.InStep t ∧ m.Known start s := by
  have hbefore : Lts.Along (m.step bcrypt) (fun _ a => a.now ≤ t) ⟨start, []⟩ as :=
    Lts.along_of_forall has _
  refine Lts.invariant_along (I := fun s => s.world.InStep t ∧ m.Known start s)
    (fun s a s' hs ha h => known_step hm hs.1 hs.2 ha h) ⟨?_, ?_⟩ hbefore h
  · intro token x hx
    simp [hstart] at hx
  · intro token x hx
    simpa [hstart] using hx

/-! ## Answers -/

variable (m bcrypt)

/-- `Get` at the time `t` may answer `found`. -/
def Answers (t : Int) (w : World) (token : String) (found : Option Session) : Prop :=
  ∃ cs w', (∀ c ∈ cs, c.now = t) ∧
    (m.get token).run (reliably bcrypt) cs w = some (found, [], w')

variable {m bcrypt}

/-- The call ends with the one answer that the two copies give. -/
theorem answers_iff (hm : m.persistent = true) {token : String} {found : Option Session} :
    m.Answers bcrypt t w token found ↔ found = w.answer t token := by
  constructor
  · rintro ⟨cs, w', hcs, hrun⟩
    obtain ⟨c, hc, rfl, -⟩ := get_reliably hm hrun
    rw [hcs c hc]
  · rintro rfl
    have hgoes : ∀ op w, True → ∃ c r w', c.now = t ∧ reliably bcrypt c op w = some (r, w') := by
      intro op w _
      refine ⟨{ now := t }, ?_⟩
      cases op with
      | create persistent s => cases persistent <;> exact ⟨_, _, rfl, rfl⟩
      | _ => exact ⟨_, _, rfl, rfl⟩
    obtain ⟨cs, found, w', hcs, hrun⟩ := Prog.Only.run_total hgoes (Prog.only_true (m.get token)) w
    obtain ⟨c, hc, rfl, -⟩ := get_reliably hm hrun
    exact ⟨cs, w', hcs, by rw [hrun, hcs c hc]⟩

/-- What a new manager would answer: it has only the table. -/
theorem answer_restarted (w : World) (t : Int) (token : String) :
    w.restarted.answer t token = (w.dropExpired t).sessions token := rfl

theorem answer_of_memory {token : String} {x : Session} (hx : w.memory token = some x) :
    w.answer t token = if t > x.expiresAt then none else some x := by
  rw [World.answer, hx]

/-- **The two answers differ only at the instant the session in memory expires.** -/
theorem answer_eq_iff (hw : w.InStep t) (token : String) :
    w.answer t token = w.restarted.answer t token ↔
      ¬ ∃ x, w.memory token = some x ∧ x.expiresAt = t := by
  rw [answer_restarted]
  cases hmemory : w.memory token with
  | none => simp [World.answer, hmemory]
  | some x =>
    rw [answer_of_memory hmemory]
    have hgone : x.expiresAt ≤ t → (w.dropExpired t).sessions token = none := fun hlate => by
      rcases hw token x hmemory with hstored | ⟨hnone, -⟩
      · simp [World.dropExpired, dropSessions, hstored, hlate]
      · simp [World.dropExpired, dropSessions, hnone]
    rcases lt_trichotomy x.expiresAt t with hlt | heq | hgt
    · rw [if_pos hlt, hgone (le_of_lt hlt)]
      simpa using ne_of_lt hlt
    · rw [if_neg (by omega), hgone (le_of_eq heq)]
      simpa using heq
    · have hstored : (w.dropExpired t).sessions token = some x := by
        rcases hw token x hmemory with hstored | ⟨-, hlate⟩
        · exact dropSessions_eq_some.2 ⟨hstored, by simpa using hgt⟩
        · omega
      rw [if_neg (by omega), hstored]
      simpa using ne_of_gt hgt

/-- An accepted session has not expired. -/
theorem expires_of_answer {token : String} {x : Session} (h : w.answer t token = some x) :
    t ≤ x.expiresAt ∧ (w.memory token = some x ∨ w.sessions token = some x) := by
  unfold World.answer at h
  split at h
  · next y hy =>
    split_ifs at h
    cases h
    exact ⟨by omega, .inl hy⟩
  · obtain ⟨hstored, hlate⟩ := expires_of_dropExpired h
    exact ⟨by omega, .inr hstored⟩

/-- What is asked of `Get` for the token at the time `t`, in a state that was reached from
`start`: a new manager over the same store answers the same, and a session is accepted only until
its lifetime is over, counted from its creation if it was created since `start`. -/
structure Transparent (m : SessionManager) (bcrypt : Bcrypt) (start : World) (s : History) (t : Int)
    (token : String) : Prop where
  same : ∀ found, m.Answers bcrypt t s.world token found ↔
    m.Answers bcrypt t s.world.restarted token found
  expires : ∀ x, m.Answers bcrypt t s.world token (some x) →
    start.sessions token = some x ∧ t ≤ x.expiresAt ∨
      ∃ created, (created, x) ∈ s.created ∧ t ≤ created + m.ttl

/-- **The cache is transparent, but for one instant.** After any calls until `t`, a new manager
answers as the running one does if and only if the running one has no session for the token in
memory that expires exactly at `t`. -/
theorem transparent_iff {ttl : Int} (hstart : start.memory = fun _ => none)
    (has : ∀ a ∈ as, a.now ≤ t)
    (h : Lts.run ((newSessionManager ttl true).step bcrypt) ⟨start, []⟩ as = some s)
    (token : String) :
    Transparent (newSessionManager ttl true) bcrypt start s t token ↔
      ¬ ∃ x, s.world.memory token = some x ∧ x.expiresAt = t := by
  obtain ⟨hstep, hknown⟩ := known_run rfl hstart has h
  rw [← answer_eq_iff hstep]
  constructor
  · intro ht
    exact (answers_iff rfl).1 ((ht.same _).1 ((answers_iff rfl).2 rfl))
  · intro heq
    refine ⟨fun found => by rw [answers_iff rfl, answers_iff rfl, heq], fun x hx => ?_⟩
    obtain ⟨hlate, hsome⟩ := expires_of_answer ((answers_iff rfl).1 hx).symm
    rcases hknown token x hsome with h₀ | ⟨u, hu, hexpires⟩
    · exact .inl ⟨h₀, hlate⟩
    · exact .inr ⟨u, hu, by omega⟩

/-- A login at the time 0, with the default lifetime of a day. -/
def loginAtZero : List Completed :=
  [⟨.create ⟨1, "alice", .viewer⟩, 0, List.replicate 3 { token := "a" }⟩]

theorem transparent_iff_loginAtZero :
    ∃ s, Lts.run ((newSessionManager 0 true).step plainBcrypt) ⟨World.empty, []⟩ loginAtZero =
        some s ∧
      (Transparent (newSessionManager 0 true) plainBcrypt World.empty s 5 "a" ↔
        ¬ ∃ x, s.world.memory "a" = some x ∧ x.expiresAt = 5) := by
  have hbefore : ∀ a ∈ loginAtZero, a.now ≤ 5 := by simp [loginAtZero]
  exact ⟨_, rfl, transparent_iff rfl hbefore rfl "a"⟩

/-- A day later to the nanosecond the session is accepted from memory, but a new manager deletes it
before it looks. -/
theorem remembered_at_expiry :
    ∃ s, Lts.run ((newSessionManager 0 true).step plainBcrypt) ⟨World.empty, []⟩ loginAtZero =
        some s ∧
      ¬ Transparent (newSessionManager 0 true) plainBcrypt World.empty s 86400000000000 "a" := by
  refine ⟨_, rfl, fun ht => ?_⟩
  have hsame := (answers_iff rfl).1 ((ht.same _).1 ((answers_iff rfl).2 rfl))
  exact absurd hsame (by decide)

end SessionManager

end QuickVps.Auth
