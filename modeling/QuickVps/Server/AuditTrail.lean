import QuickVps.Server.Authority

/-!
# The audit trail

Whatever requests overlap and whichever statements fail, the table of audits only grows, by the rows
that requests have inserted, in the order of these calls. Each row names the administrator whose
session its request has presented, and a change that this request has made before.

* `audits_exec` — the audits after one operation;
* `Entries` — the rows are those at the start and the inserted ones, and `entries_run`;
* `audit_trail_genuine` — and every inserted one is true.
-/

namespace QuickVps

namespace Auth

/-! ## One operation -/

/-- The statement that inserts the row. -/
def UserAuditEntry.insertion (e : UserAuditEntry) : Stmt :=
  .insertAudit e.actorUserID e.actorUsername e.action e.targetUserID e.targetUsername e.details

/-- The statement of a call that has inserted an audit. -/
def inserted : (op : Op) → op.Ans → Option Stmt
  | .sql (.insertAudit actorID actorName action targetID targetName details), .ok () =>
    some (.insertAudit actorID actorName action targetID targetName details)
  | _, _ => none

theorem audits_stmt {stmt' : Stmt} {now : Int} {w w' : World} {a : Except String stmt'.Ans}
    (h : stmt'.exec now w = (a, w')) :
    ∃ rows : List UserAuditEntry, w'.audits = w.audits ++ rows ∧
      rows.map UserAuditEntry.insertion = (inserted (.sql stmt') a).toList := by
  cases stmt' with
  | insertAudit actorID actorName action targetID targetName details =>
    cases h
    exact ⟨_, rfl, rfl⟩
  | insertUser username hash role =>
    cases hins : w.users.insert username hash role <;> simp only [Stmt.exec, hins] at h <;>
      cases h <;> exact ⟨[], by simp, rfl⟩
  | _ =>
    cases h
    exact ⟨[], by simp, rfl⟩

theorem inserted_error (stmt' : Stmt) (err : String) :
    inserted (.sql stmt') (.error err) = none := by
  cases stmt' <;> rfl

/-- The audits after an operation. -/
theorem audits_exec {bcrypt : Bcrypt} {c : Choice} {op : Op} {a : op.Ans} {w w' : World}
    (h : exec bcrypt c op w = some (a, w')) :
    ∃ rows : List UserAuditEntry, w'.audits = w.audits ++ rows ∧
      rows.map UserAuditEntry.insertion = (inserted op a).toList := by
  have same (hsame : w'.audits = w.audits) (hnone : inserted op a = none) :
      ∃ rows : List UserAuditEntry, w'.audits = w.audits ++ rows ∧
        rows.map UserAuditEntry.insertion = (inserted op a).toList :=
    ⟨[], by simp [hsame], by simp [hnone]⟩
  cases op with
  | sql stmt' =>
    rcases sql_exec_cases h with ⟨err, -, rfl, rfl⟩ | ⟨-, hstmt⟩
    · exact same rfl (inserted_error stmt' err)
    · exact audits_stmt hstmt
  | randomToken => exact same (congrArg World.audits (randomToken_exec h)) rfl
  | create persistent s =>
    rcases create_exec_cases h with rfl | ⟨-, sessions, -, rfl⟩
    · exact same rfl rfl
    · exact same rfl rfl
  | _ =>
    cases h
    exact same rfl rfl

/-- A user that is read has the id that was asked for. -/
theorem id_of_selectUserByID {bcrypt : Bcrypt} {c : Choice} {w w' : World} {id : Int} {user : User}
    (h : exec bcrypt c (.sql (.selectUserByID id)) w = some (.ok (some user), w')) :
    user.id = id := by
  rcases sql_exec_cases h with ⟨err, -, herr, -⟩ | ⟨-, hstmt⟩
  · cases herr
  · have hfound : (w.users.find id).map UserRow.user = some user := by
      simpa using (Prod.mk.inj hstmt).1
    obtain ⟨row, hrow, rfl⟩ := Option.map_eq_some_iff.1 hfound
    have hid := List.find?_some hrow
    exact of_decide_eq_true hid

end Auth

namespace Server

open Go

/-! ## Runs -/

/-- The statement of an event that has inserted an audit. -/
def insertion : Pool.Event ServiceOp Op Op.Ans (Option Response) → Option Auth.Stmt
  | .did _ (.auth op) a => Auth.inserted op a
  | _ => none

/-- The rows of audits are those at the start and then the inserted ones, in order. -/
def Entries (start rows : List Auth.UserAuditEntry) (log : ServiceLog) : Prop :=
  ∃ added, rows = start ++ added ∧
    added.map Auth.UserAuditEntry.insertion = (log.filterMap insertion).reverse

section

variable {s : Server} {env : Env patterns} {w : World} {v : Running}
  {acts : List (Pool.Act ServiceOp Choice)} {start rows : List Auth.UserAuditEntry}
  {log : ServiceLog}

theorem Entries.note (h : Entries start rows log)
    {ev : Pool.Event ServiceOp Op Op.Ans (Option Response)} (hev : insertion ev = none) :
    Entries start rows (ev :: log) := by
  unfold Entries
  rw [List.filterMap_cons_none hev]
  exact h

theorem Entries.settle (h : Entries start rows log) (i : Nat) (p : M (Option Response)) :
    Entries start rows (Pool.settle i p log) := by
  cases p with
  | ret out => exact h.note rfl
  | call e k => exact h

theorem reverse_insertions (ev : Pool.Event ServiceOp Op Op.Ans (Option Response))
    (log : ServiceLog) :
    ((ev :: log).filterMap insertion).reverse =
      (log.filterMap insertion).reverse ++ (insertion ev).toList := by
  cases hev : insertion ev with
  | none => simp [hev]
  | some stmt' => simp [hev]

/-- **One operation.** -/
theorem Entries.did {sh sh' : World} (h : Entries start sh.auth.audits log) {i : Nat} {c : Choice}
    {op : Op} {a : op.Ans} (hexec : exec env c op sh = some (a, sh')) :
    Entries start sh'.auth.audits (.did i op a :: log) := by
  cases op with
  | auth op =>
    obtain ⟨hauth, -⟩ := exec_auth hexec
    obtain ⟨new, hnew, hinserted⟩ := Auth.audits_exec hauth
    obtain ⟨added, hadded, hrows⟩ := h
    refine ⟨added ++ new, ?_, ?_⟩
    · rw [hnew, hadded, List.append_assoc]
    · rw [reverse_insertions, List.map_append, hrows, hinserted]
      rfl
  | alerts op =>
    obtain ⟨⟨r, u⟩, -, heq⟩ := Option.map_eq_some_iff.1 hexec
    cases heq
    exact h.note rfl
  | system call =>
    cases hexec
    exact h.note rfl

theorem entries_run (h : Lts.run (Running.next s env) (Pool.start w) acts = some v) :
    Entries w.auth.audits v.shared.auth.audits v.log := by
  have hstart : Entries w.auth.audits w.auth.audits [] := ⟨[], by simp, rfl⟩
  refine Lts.invariant (I := fun v : Running =>
    Entries w.auth.audits v.shared.auth.audits v.log) (fun v a v' hv hnext => ?_) hstart h
  cases a with
  | invoke op =>
    cases hnext
    exact (hv.note rfl).settle _ _
  | step i c =>
    obtain ⟨op, e, k, r, sh, -, hexec, rfl⟩ := Pool.next_step hnext
    exact (hv.did hexec).settle _ _

/-- What an audit says of an existing user is about the user in the path of the request. -/
theorem target_of_truthful {r : Request} {h : Auth.Past}
    (hids : ∀ id user, ⟨.sql (.selectUserByID id), .ok (some user)⟩ ∈ h → user.id = id)
    {action targetName details : String} {targetID : Int}
    (htrue : Truthful r h action targetID targetName details) :
    action = "create_user" ∨ parseUserID r.path = some targetID := by
  cases htrue with
  | created => exact .inl rfl
  | updated id body user hid hbody hupdated =>
    rw [hids id user hupdated.read]
    exact .inr hid
  | deleted id target n hid hread hn hdelete =>
    rw [hids id target hread]
    exact .inr hid

/-- **The audit trail is genuine.** The rows at the start stay, and after them come those that
requests have inserted, in the order of these calls. Each names the administrator of a session that
its request has presented, and a change that this request has made before, of the user in its path
unless the user is new. -/
theorem audit_trail_genuine (h : Lts.run (Running.next s env) (Pool.start w) acts = some v) :
    (∃ added, v.shared.auth.audits = w.auth.audits ++ added ∧
      added.map Auth.UserAuditEntry.insertion = (v.log.filterMap insertion).reverse) ∧
    ∀ since before i actorID actorName action targetID targetName details,
      v.log = since ++ .did i (.auth (.sql (.insertAudit actorID actorName action targetID
        targetName details))) (.ok ()) :: before →
      ∃ r x, .invoked i (.request r) ∈ before ∧ Presented s env w before i r x ∧
        x.role = .admin ∧ x.userID = actorID ∧ x.username = actorName ∧
        Truthful r (authCalls (Pool.hist i before)) action targetID targetName details ∧
        (action = "create_user" ∨ parseUserID r.path = some targetID) := by
  refine ⟨entries_run h, ?_⟩
  intro since before i actorID actorName action targetID targetName details hlog
  have hgood := (provenance_run h).1.log
  rw [hlog] at hgood
  obtain ⟨op, hop, hok⟩ := hgood.did
  cases op with
  | evaluate | cleanup =>
    obtain ⟨e, he⟩ := hok
    cases he
  | request r =>
    obtain ⟨⟨x, hx, hrole, hid, hname⟩, htrue⟩ := hok.genuine _ rfl
    have hsplit : v.log = (since ++ [.did i (.auth (.sql (.insertAudit actorID actorName action
        targetID targetName details))) (.ok ())]) ++ before := by
      rw [hlog, List.append_cons]
    refine ⟨r, x, hop, ⟨hx, issued_of_accepted h hsplit hx⟩, hrole, hid, hname, htrue, ?_⟩
    refine target_of_truthful (fun id user hread => ?_) htrue
    obtain ⟨later, earlier, rfl⟩ :=
      List.append_of_mem (Pool.mem_hist.1 (mem_authCalls.1 hread))
    obtain ⟨as, u, c, sh, -, -, hexec⟩ := Pool.traced_run h (since ++ [_] ++ later) i _ _ earlier
      (by rw [hsplit, List.append_assoc _ later])
    exact Auth.id_of_selectUserByID (exec_auth hexec).1

end

theorem audit_trail_genuine_adminAtWork :
    (∃ added, atWork.shared.auth.audits = [] ++ added ∧
      added.map Auth.UserAuditEntry.insertion = (atWork.log.filterMap insertion).reverse) ∧
    ∀ since before i actorID actorName action targetID targetName details,
      atWork.log = since ++ .did i (.auth (.sql (.insertAudit actorID actorName action targetID
        targetName details))) (.ok ()) :: before →
      ∃ r x, .invoked i (.request r) ∈ before ∧
        Presented privateAlerts plainEnv twoUsers before i r x ∧
        x.role = .admin ∧ x.userID = actorID ∧ x.username = actorName ∧
        Truthful r (authCalls (Pool.hist i before)) action targetID targetName details ∧
        (action = "create_user" ∨ parseUserID r.path = some targetID) :=
  audit_trail_genuine run_adminAtWork

end Server

end QuickVps
