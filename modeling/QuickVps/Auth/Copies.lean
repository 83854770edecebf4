import QuickVps.Auth.Calls

/-!
# Where a session comes from

One operation, and a session that is in memory or in the table after it: it was there before, and
the operation is none that removes it, or the operation put it there.

* `memory_exec`, `stored_exec` — the two copies of a session, one operation at a time;
* `FoundAt` — a session that a check of a cookie has found in one of them.
-/

namespace QuickVps.Auth

/-! ## One operation -/

section Exec

variable {f : String → Option Session} {token : String} {x y : Session}

theorem of_update_none {t : String} (h : Function.update f t none token = some x) :
    f token = some x ∧ t ≠ token := by
  by_cases ht : token = t
  · rw [ht, Function.update_self] at h
    cases h
  · exact ⟨by rwa [Function.update_of_ne ht] at h, Ne.symm ht⟩

theorem of_update_some {t : String} (h : Function.update f t (some y) token = some x) :
    f token = some x ∨ t = token ∧ y = x := by
  by_cases ht : token = t
  · rw [ht, Function.update_self] at h
    exact .inr ⟨ht.symm, Option.some.inj h⟩
  · rw [Function.update_of_ne ht] at h
    exact .inl h

theorem of_dropSessions {p : Session → Bool} (h : dropSessions f p token = some x) :
    f token = some x ∧ p x = false := by
  obtain ⟨hx, hp⟩ := Option.filter_eq_some_iff.1 h
  exact ⟨hx, by simpa using hp⟩

theorem memory_stmt (now : Int) (w : World) (stmt' : Stmt) :
    (stmt'.exec now w).2.memory = w.memory := by
  cases stmt' with
  | insertUser username hash role =>
    cases hins : w.users.insert username hash role <;> simp only [Stmt.exec, hins]
  | _ => rfl

variable {bcrypt : Bcrypt} {c : Choice} {e : Op} {r : e.Ans} {w w' : World}

/-- The operation creates the session under the token. -/
def Op.Creates (token : String) (x : Session) : (e : Op) → e.Ans → Prop
  | .create _ s, r => s = x ∧ x.token = token ∧ r = .ok ()
  | _, _ => False

theorem Op.Creates.eq (h : e.Creates token x r) : ∃ persistent, e = .create persistent x := by
  cases e with
  | create persistent s =>
    obtain ⟨rfl, -⟩ := h
    exact ⟨persistent, rfl⟩
  | _ => exact h.elim

/-- The operation removes the session under the token from memory. -/
def Op.Forgets (token : String) (x : Session) : Op → Prop
  | .remove t => t = token
  | .removeByUserID userID => userID = x.userID
  | _ => False

/-- The operation removes the session under the token from the table, unless it fails. -/
def Op.Deletes (token : String) (x : Session) : Op → Prop
  | .sql (.deleteSession t) => t = token
  | .sql (.deleteSessionsByUserID userID) => userID = x.userID
  | _ => False

theorem memory_exec (h : exec bcrypt c e w = some (r, w')) (hx : w'.memory token = some x) :
    w.memory token = some x ∧ ¬ e.Forgets token x ∨ e.Creates token x r ∨ e = .put token x := by
  cases e with
  | sql stmt' =>
    rcases sql_exec_cases h with ⟨err, -, -, rfl⟩ | ⟨-, hstmt⟩
    · exact .inl ⟨hx, id⟩
    · have hmem := memory_stmt c.now w stmt'
      rw [hstmt] at hmem
      exact .inl ⟨hmem ▸ hx, id⟩
  | randomToken =>
    cases randomToken_exec h
    exact .inl ⟨hx, id⟩
  | create persistent s =>
    rcases create_exec_cases h with rfl | ⟨hok, sessions, -, rfl⟩
    · exact .inl ⟨(of_update_none hx).1, id⟩
    · rcases of_update_some hx with hold | ⟨htoken, rfl⟩
      · exact .inl ⟨hold, id⟩
      · exact .inr (.inl ⟨rfl, htoken, hok⟩)
  | put key s =>
    cases h
    rcases of_update_some hx with hold | ⟨rfl, rfl⟩
    · exact .inl ⟨hold, id⟩
    · exact .inr (.inr rfl)
  | remove token' =>
    cases h
    exact .inl (of_update_none hx)
  | removeByUserID userID =>
    cases h
    obtain ⟨hold, hne⟩ := of_dropSessions hx
    exact .inl ⟨hold, fun heq => of_decide_eq_false hne heq.symm⟩
  | now | hashPassword _ | lookup _ =>
    cases h
    exact .inl ⟨hx, id⟩

theorem stored_stmt {stmt' : Stmt} {now : Int} {a : Except String stmt'.Ans}
    (h : stmt'.exec now w = (a, w')) (hx : w'.sessions token = some x) :
    w.sessions token = some x ∧ ¬ Op.Deletes token x (.sql stmt') := by
  cases stmt' with
  | insertUser username hash role =>
    cases hins : w.users.insert username hash role <;> simp only [Stmt.exec, hins] at h <;>
      cases h <;> exact ⟨hx, id⟩
  | deleteSession token' =>
    cases h
    exact of_update_none hx
  | deleteSessionsByUserID userID =>
    cases h
    obtain ⟨hold, hne⟩ := of_dropSessions hx
    exact ⟨hold, fun heq => of_decide_eq_false hne heq.symm⟩
  | deleteExpiredSessions now =>
    cases h
    exact ⟨(of_dropSessions hx).1, id⟩
  | _ =>
    cases h
    exact ⟨hx, id⟩

theorem stored_exec (h : exec bcrypt c e w = some (r, w')) (hx : w'.sessions token = some x) :
    w.sessions token = some x ∧ (c.fault = none → ¬ e.Deletes token x) ∨ e.Creates token x r := by
  cases e with
  | sql stmt' =>
    rcases sql_exec_cases h with ⟨err, hf, -, rfl⟩ | ⟨-, hstmt⟩
    · exact .inl ⟨hx, fun hnone => by rw [hf] at hnone; cases hnone⟩
    · obtain ⟨hold, hne⟩ := stored_stmt hstmt hx
      exact .inl ⟨hold, fun _ => hne⟩
  | randomToken =>
    cases randomToken_exec h
    exact .inl ⟨hx, fun _ => id⟩
  | create persistent s =>
    rcases create_exec_cases h with rfl | ⟨hok, sessions, rfl | rfl, rfl⟩
    · exact .inl ⟨hx, fun _ => id⟩
    · exact .inl ⟨hx, fun _ => id⟩
    · rcases of_update_some hx with hold | ⟨htoken, rfl⟩
      · exact .inl ⟨hold, fun _ => id⟩
      · exact .inr ⟨rfl, htoken, hok⟩
  | now | hashPassword _ | lookup _ | put _ _ | remove _ | removeByUserID _ =>
    cases h
    exact .inl ⟨hx, fun _ => id⟩

/-- What is looked up was in memory. -/
theorem memory_of_lookup (h : exec bcrypt c (.lookup token) w = some (some x, w')) :
    w.memory token = some x := (Prod.mk.inj (Option.some.inj h)).1

/-- What is read was in the table. -/
theorem stored_of_select
    (h : exec bcrypt c (.sql (.selectSession token)) w = some (.ok (some x), w')) :
    w.sessions token = some x := by
  rcases sql_exec_cases h with ⟨err, -, herr, -⟩ | ⟨-, hstmt⟩
  · cases herr
  · simpa using (Prod.mk.inj hstmt).1

end Exec

/-! ## A check of a cookie -/

/-- The session was found under the token in memory, or in the table when there is one. -/
def FoundAt (m : SessionManager) (h : Past) (token : String) (x : Session) : Prop :=
  ⟨.lookup token, some x⟩ ∈ h ∨
    m.persistent = true ∧ ⟨.sql (.selectSession token), .ok (some x)⟩ ∈ h

end QuickVps.Auth
