import QuickVps.Auth.Session

/-!
# What a call does to the sessions

Run alone, `create` and `delete` touch the session of one token. `get` removes sessions only when
they have expired, and otherwise at most copies one from the table into memory.
-/

namespace QuickVps.Auth

/-- The two worlds have the same sessions, but perhaps for the token that was touched. -/
def World.SameBut (touched : Option String) (w w' : World) : Prop :=
  ∀ token, touched ≠ some token →
    w'.memory token = w.memory token ∧ w'.sessions token = w.sessions token

/-- One of the two copies of the session has expired. -/
def World.Expired (w : World) (now : Int) (token : String) : Prop :=
  ∃ x, (w.memory token = some x ∨ w.sessions token = some x) ∧ x.expiresAt ≤ now

/-- Each copy of a session is still the same, or was removed as expired; in memory it may also be
new there and taken from the table. -/
structure World.Ages (now : Int) (w w' : World) : Prop where
  memory : ∀ token, w'.memory token = w.memory token ∨
    (w.memory token = none ∧ w'.memory token = w.sessions token) ∨
      (w'.memory token = none ∧ w.Expired now token)
  table : ∀ token, w'.sessions token = w.sessions token ∨
    (w'.sessions token = none ∧ w.Expired now token)

theorem World.Ages.refl (now : Int) (w : World) : w.Ages now w :=
  ⟨fun _ => .inl rfl, fun _ => .inl rfl⟩

theorem World.SameBut.refl (touched : Option String) (w : World) : w.SameBut touched w :=
  fun _ _ => ⟨rfl, rfl⟩

/-- Then the session of one token, which has expired, is removed too. -/
theorem World.Ages.removed {w t w' : World} {token : String} {now : Int} (h : w.Ages now t)
    (hsame : t.SameBut (some token) w') (hexpired : w.Expired now token)
    (hmemory : w'.memory token = none)
    (htable : w'.sessions token = t.sessions token ∨ w'.sessions token = none) :
    w.Ages now w' := by
  refine ⟨fun other => ?_, fun other => ?_⟩
  · by_cases hother : some token = some other
    · cases hother
      exact .inr (.inr ⟨hmemory, hexpired⟩)
    · rw [(hsame other hother).1]
      exact h.memory other
  · by_cases hother : some token = some other
    · cases hother
      rcases htable with hkept | hgone
      · rw [hkept]
        exact h.table _
      · exact .inr ⟨hgone, hexpired⟩
    · rw [(hsame other hother).2]
      exact h.table other

variable {bcrypt : Bcrypt} {cs cs' : List Choice} {w w' : World}

theorem sameBut_create {c : Choice} {persistent : Bool} {s : Session}
    {r : (Op.create persistent s).Ans}
    (h : exec bcrypt c (.create persistent s) w = some (r, w')) :
    w.SameBut (some s.token) w' := by
  intro token htoken
  have hne : token ≠ s.token := fun heq => htoken (congrArg some heq.symm)
  rcases create_exec_cases h with rfl | ⟨-, sessions, rfl | rfl, rfl⟩
  · exact ⟨Function.update_of_ne hne _ _, rfl⟩
  · exact ⟨Function.update_of_ne hne _ _, rfl⟩
  · exact ⟨Function.update_of_ne hne _ _, Function.update_of_ne hne _ _⟩

theorem run_deleteSession {token : String} {a : Except Error Unit}
    (h : (deleteSession token).run (exec bcrypt) cs w = some (a, cs', w')) :
    w' = w ∨ w' = { w with sessions := Function.update w.sessions token none } := by
  obtain ⟨answer, ds, t, hstmt, hrest⟩ := Prog.run_bind h
  have ht : w' = t := by
    cases answer <;> exact (Prog.run_ret hrest).2.2
  subst ht
  rcases run_stmt hstmt with ⟨-, -, rfl⟩ | ⟨now, hexec⟩
  · exact .inl rfl
  · cases hexec
    exact .inr rfl

theorem ages_dropExpired (now : Int) (w : World) :
    w.Ages now { w with sessions := dropSessions w.sessions fun s => s.expiresAt ≤ now } := by
  refine ⟨fun token => .inl rfl, fun token => ?_⟩
  show dropSessions w.sessions _ token = w.sessions token ∨ _
  unfold dropSessions
  cases hstored : w.sessions token with
  | none => exact .inl rfl
  | some s =>
    by_cases hexpired : s.expiresAt ≤ now
    · exact .inr ⟨by simp [hstored, hexpired], s, .inr hstored, hexpired⟩
    · exact .inl (by simp [hexpired])

theorem run_deleteExpiredSessions {now : Int} {a : Except Error Unit}
    (h : (deleteExpiredSessions now).run (exec bcrypt) cs w = some (a, cs', w')) :
    w'.memory = w.memory ∧ w.Ages now w' := by
  obtain ⟨answer, ds, t, hstmt, hrest⟩ := Prog.run_bind h
  have ht : w' = t := by
    cases answer <;> exact (Prog.run_ret hrest).2.2
  subst ht
  rcases run_stmt hstmt with ⟨-, -, rfl⟩ | ⟨_, hexec⟩
  · exact ⟨rfl, .refl _ _⟩
  · cases hexec
    exact ⟨rfl, ages_dropExpired now w⟩

theorem run_getSession {token : String} {a : Except Error (Option Session)}
    (h : (getSession token).run (exec bcrypt) cs w = some (a, cs', w')) :
    w' = w ∧ ∀ found, a = .ok found → found = w.sessions token := by
  obtain ⟨answer, ds, t, hstmt, hrest⟩ := Prog.run_bind h
  rcases run_stmt hstmt with ⟨err, rfl, rfl⟩ | ⟨now, hexec⟩
  · obtain ⟨rfl, -, rfl⟩ := Prog.run_ret hrest
    exact ⟨rfl, fun found hfound => by cases hfound⟩
  · cases hexec
    obtain ⟨rfl, -, rfl⟩ := Prog.run_ret hrest
    exact ⟨rfl, fun found hfound => by cases hfound; rfl⟩

namespace SessionManager

variable {m : SessionManager}

theorem run_delete {token : String}
    (h : (m.delete token).run (exec bcrypt) cs w = some ((), cs', w')) :
    w.SameBut (some token) w' ∧ w'.memory token = none ∧
      (w'.sessions token = w.sessions token ∨ w'.sessions token = none) := by
  obtain ⟨_, ds, t, hremove, hrest⟩ := Prog.run_bind h
  obtain ⟨c, rfl, hexec⟩ := Prog.run_op hremove
  cases hexec
  have hgone : w'.memory = Function.update w.memory token none ∧
      (w'.sessions = w.sessions ∨ w'.sessions = Function.update w.sessions token none) := by
    split_ifs at hrest
    · obtain ⟨_, ds', t', hdelete, hend⟩ := Prog.run_bind hrest
      obtain ⟨-, -, rfl⟩ := Prog.run_ret hend
      rcases run_deleteSession hdelete with rfl | rfl
      · exact ⟨rfl, .inl rfl⟩
      · exact ⟨rfl, .inr rfl⟩
    · obtain ⟨-, -, rfl⟩ := Prog.run_ret hrest
      exact ⟨rfl, .inl rfl⟩
  obtain ⟨hmemory, htable⟩ := hgone
  refine ⟨fun other hother => ?_, ?_, ?_⟩
  · have hne : other ≠ token := fun heq => hother (congrArg some heq.symm)
    refine ⟨by rw [hmemory, Function.update_of_ne hne], ?_⟩
    rcases htable with htable | htable
    · rw [htable]
    · rw [htable, Function.update_of_ne hne]
  · rw [hmemory, Function.update_self]
  · rcases htable with htable | htable
    · exact .inl (by rw [htable])
    · exact .inr (by rw [htable, Function.update_self])

theorem run_load {token : String} {now : Int} {found : Option Session}
    (h : (m.load token now).run (exec bcrypt) cs w = some (found, cs', w'))
    (hnone : w.memory token = none) : w.Ages now w' := by
  unfold load at h
  split_ifs at h
  · obtain ⟨-, -, rfl⟩ := Prog.run_ret h
    exact .refl _ _
  obtain ⟨dropped, ds, t, hdrop, hrest⟩ := Prog.run_bind h
  obtain ⟨hmemory, ht⟩ := run_deleteExpiredSessions hdrop
  cases dropped with
  | error err =>
    obtain ⟨-, -, rfl⟩ := Prog.run_ret hrest
    exact ht
  | ok =>
    obtain ⟨read, ds', t', hread, hrest⟩ := Prog.run_bind hrest
    obtain ⟨rfl, hread⟩ := run_getSession hread
    match read with
    | .error err =>
      obtain ⟨-, -, rfl⟩ := Prog.run_ret hrest
      exact ht
    | .ok none =>
      obtain ⟨-, -, rfl⟩ := Prog.run_ret hrest
      exact ht
    | .ok (some persisted) =>
      have hstored : w.sessions token = some persisted := by
        rcases ht.table token with hkept | ⟨hgone, -⟩
        · rw [← hkept, hread _ rfl]
        · rw [hgone] at hread
          cases hread _ rfl
      simp only at hrest
      split_ifs at hrest with hlate
      · obtain ⟨_, ds'', t'', hdelete, hend⟩ := Prog.run_bind hrest
        obtain ⟨-, -, rfl⟩ := Prog.run_ret hend
        obtain ⟨hsame, hgone, htable⟩ := run_delete hdelete
        exact ht.removed hsame ⟨persisted, .inr hstored, le_of_lt hlate⟩ hgone htable
      · obtain ⟨_, ds'', t'', hput, hend⟩ := Prog.run_bind hrest
        obtain ⟨-, -, rfl⟩ := Prog.run_ret hend
        obtain ⟨c, -, hexec⟩ := Prog.run_op hput
        cases hexec
        refine ⟨fun other => ?_, ht.table⟩
        by_cases hother : other = token
        · subst hother
          refine .inr (.inl ⟨hnone, ?_⟩)
          rw [hstored]
          exact Function.update_self ..
        · show Function.update t'.memory token _ other = _ ∨ _
          rw [Function.update_of_ne hother, hmemory]
          exact .inl rfl

/-- **A check of a cookie removes expired sessions only.** -/
theorem run_get {token : String} {found : Option Session}
    (h : (m.get token).run (exec bcrypt) cs w = some (found, cs', w')) :
    ∃ c ∈ cs, w.Ages c.now w' := by
  obtain ⟨now, ds, t, hnow, hrest⟩ := Prog.run_bind h
  obtain ⟨c, rfl, hexec⟩ := Prog.run_op hnow
  cases hexec
  refine ⟨c, List.mem_cons_self, ?_⟩
  obtain ⟨stored, ds', t', hlookup, hrest⟩ := Prog.run_bind hrest
  obtain ⟨c', rfl, hexec⟩ := Prog.run_op hlookup
  cases hexec
  cases hmemory : w.memory token with
  | none =>
    rw [hmemory] at hrest
    exact run_load hrest hmemory
  | some session =>
    rw [hmemory] at hrest
    simp only at hrest
    split_ifs at hrest with hlate
    · obtain ⟨_, ds'', t'', hdelete, hend⟩ := Prog.run_bind hrest
      obtain ⟨-, -, rfl⟩ := Prog.run_ret hend
      obtain ⟨hsame, hgone, htable⟩ := run_delete hdelete
      exact (World.Ages.refl _ w).removed hsame ⟨session, .inl hmemory, le_of_lt hlate⟩ hgone htable
    · obtain ⟨-, -, rfl⟩ := Prog.run_ret hrest
      exact .refl _ _

/-- A new session is the only one that is touched. -/
theorem run_create {user : User} {a : Except String Session}
    (h : (m.create user).run (exec bcrypt) cs w = some (a, cs', w')) :
    ∃ touched, w.SameBut touched w' := by
  obtain ⟨random, ds, t, hrandom, hrest⟩ := Prog.run_bind h
  obtain ⟨c, -, hexec⟩ := Prog.run_op hrandom
  obtain rfl : t = w := randomToken_exec hexec
  cases random with
  | error err =>
    obtain ⟨-, -, rfl⟩ := Prog.run_ret hrest
    exact ⟨none, .refl _ _⟩
  | ok token =>
    obtain ⟨now, ds₁, t₁, hnow, hrest⟩ := Prog.run_bind hrest
    obtain ⟨c₁, -, hexec⟩ := Prog.run_op hnow
    cases hexec
    obtain ⟨saved, ds₂, t₂, hcreate, hrest⟩ := Prog.run_bind hrest
    obtain ⟨c₂, -, hexec⟩ := Prog.run_op hcreate
    have ht₂ : w' = t₂ := by
      cases saved <;> exact (Prog.run_ret hrest).2.2
    subst ht₂
    exact ⟨some token, sameBut_create hexec⟩

end SessionManager

end QuickVps.Auth
