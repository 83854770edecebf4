import QuickVps.Alerts.MuteWindow

/-!
# What the history holds

Events are saved by evaluations and tests, and dropped by the hourly cleanup, all at the same time.

* `Held` — the events that a log has saved and not dropped since; `rows_iff`, that the table holds
  these.
* `deadline_of_cleanup` — a cleanup counts thirty days back from its own reading of the clock.
* `history_exact` — so the table holds exactly the events that no cleanup has found older than that.
-/

namespace QuickVps.Alerts

open Go

variable {http : Http} {crypto : Crypto} {w : World} {acts : List ServicesAct} {v : Services}
  {log : ServicesLog}

/-! ## The table against the log -/

abbrev ServicesEvent := Pool.Event Method Op Op.Ans Answer

/-- The store has saved the event. -/
def Saves (ev : ServicesEvent) (e : Event) : Prop :=
  ∃ i, ev = .did i
    (.sql (.saveEvent e.level e.message e.cpuPercent e.channels e.createdAt)) (.ok e.id)

/-- The store has dropped the events before a deadline, and the event is one. -/
def Drops (ev : ServicesEvent) (e : Event) : Prop :=
  ∃ i deadline, ev = .did i (.sql (.cleanupEvents deadline)) (.ok ()) ∧ e.createdAt < deadline

/-- The event was there at the start or has been saved, and has not been dropped since. -/
def Held (rows : List Event) (log : ServicesLog) (e : Event) : Prop :=
  ∃ since before, log = since ++ before ∧ (∀ ev ∈ since, ¬ Drops ev e) ∧
    (before = [] ∧ e ∈ rows ∨ ∃ ev earlier, before = ev :: earlier ∧ Saves ev e)

theorem held_nil {rows : List Event} {e : Event} : Held rows [] e ↔ e ∈ rows := by
  constructor
  · rintro ⟨since, before, hlog, -, ⟨-, hmem⟩ | ⟨ev, earlier, rfl, -⟩⟩
    · exact hmem
    · simp at hlog
  · intro hmem
    exact ⟨[], [], rfl, by simp, .inl ⟨rfl, hmem⟩⟩

theorem held_cons {rows : List Event} {ev : ServicesEvent} {e : Event} :
    Held rows (ev :: log) e ↔ Saves ev e ∨ ¬ Drops ev e ∧ Held rows log e := by
  constructor
  · rintro ⟨since, before, hlog, hsince, hbefore⟩
    cases since with
    | nil =>
      obtain ⟨rfl, -⟩ | ⟨ev', earlier, rfl, hsaves⟩ := hbefore
      · cases hlog
      · cases hlog
        exact .inl hsaves
    | cons ev' since =>
      cases hlog
      refine .inr ⟨hsince ev List.mem_cons_self, since, before, rfl, ?_, hbefore⟩
      exact fun ev' hev' => hsince ev' (List.mem_cons_of_mem _ hev')
  · rintro (hsaves | ⟨hdrops, since, before, rfl, hsince, hbefore⟩)
    · exact ⟨[], _, rfl, by simp, .inr ⟨ev, log, rfl, hsaves⟩⟩
    · exact ⟨ev :: since, before, rfl, List.forall_mem_cons.2 ⟨hdrops, hsince⟩, hbefore⟩

/-- What a call does to the table of events. -/
inductive EventsMove (t : Events) : Prog.Call Op Op.Ans → Events → Prop
  | save (level : Level) (message : String) (cpuPercent : Float64)
      (channels : List ChannelResult) (createdAt : Int) :
      EventsMove t ⟨.sql (.saveEvent level message cpuPercent channels createdAt), .ok (t.seq + 1)⟩
        (t.insert level message cpuPercent channels createdAt)
  | drop (deadline : Int) :
      EventsMove t ⟨.sql (.cleanupEvents deadline), .ok ()⟩ (t.cleanup deadline)
  | other {c : Prog.Call Op Op.Ans}
      (hsave : ∀ level message cpuPercent channels createdAt id,
        c ≠ ⟨.sql (.saveEvent level message cpuPercent channels createdAt), .ok id⟩)
      (hdrop : ∀ deadline, c ≠ ⟨.sql (.cleanupEvents deadline), .ok ()⟩) : EventsMove t c t

theorem eventsMove_of_exec {c : Choice} {op : Op} {w w' : World} {r : op.Ans}
    (h : exec http c op w = some (r, w')) : EventsMove w.events ⟨op, r⟩ w'.events := by
  cases op with
  | sql stmt =>
    simp only [exec] at h
    cases hfault : c.fault with
    | some err =>
      simp only [hfault] at h
      cases h
      exact .other (fun _ _ _ _ _ _ heq => by cases heq) fun _ heq => by cases heq
    | none =>
      simp only [hfault, Option.some.injEq] at h
      cases stmt with
      | saveEvent level message cpuPercent channels createdAt =>
        simp only [Stmt.exec] at h
        split_ifs at h with hnan
        · cases h
          exact .other (fun _ _ _ _ _ _ heq => by cases heq) fun _ heq => by cases heq
        · cases h
          exact .save ..
      | cleanupEvents deadline =>
        cases h
        exact .drop deadline
      | _ =>
        cases h
        exact .other (fun _ _ _ _ _ _ heq => by cases heq) fun _ heq => by cases heq
  | read | lock =>
    simp only [exec] at h
    split_ifs at h
    cases h
    exact .other (fun _ _ _ _ _ _ heq => by cases heq) fun _ heq => by cases heq
  | nonce | newRequest | post | sendMail =>
    simp only [exec] at h
    split at h <;> cases h <;>
      exact .other (fun _ _ _ _ _ _ heq => by cases heq) fun _ heq => by cases heq
  | _ =>
    cases h
    exact .other (fun _ _ _ _ _ _ heq => by cases heq) fun _ heq => by cases heq

theorem saves_did {i : Nat} {op : Op} {r : op.Ans} {e : Event} :
    Saves (.did i op r) e ↔ (⟨op, r⟩ : Prog.Call Op Op.Ans) =
      ⟨.sql (.saveEvent e.level e.message e.cpuPercent e.channels e.createdAt), .ok e.id⟩ := by
  constructor
  · rintro ⟨j, heq⟩
    cases heq
    rfl
  · intro heq
    cases heq
    exact ⟨i, rfl⟩

theorem drops_did {i : Nat} {op : Op} {r : op.Ans} {e : Event} :
    Drops (.did i op r) e ↔ ∃ deadline, (⟨op, r⟩ : Prog.Call Op Op.Ans) =
      ⟨.sql (.cleanupEvents deadline), .ok ()⟩ ∧ e.createdAt < deadline := by
  constructor
  · rintro ⟨j, deadline, heq, hlt⟩
    cases heq
    exact ⟨deadline, rfl, hlt⟩
  · rintro ⟨deadline, heq, hlt⟩
    cases heq
    exact ⟨i, deadline, rfl, hlt⟩

theorem held_settle {i : Nat} {p : M Answer} {rows : List Event} {e : Event} :
    Held rows (Pool.settle i p log) e ↔ Held rows log e := by
  cases p with
  | call => rfl
  | ret answer =>
    rw [Pool.settle, held_cons]
    simp [Saves, Drops]

/-- The rows after a call are those that it saves, and those before that it does not drop. -/
theorem EventsMove.mem_iff {t t' : Events} {i : Nat} {op : Op} {r : op.Ans}
    (h : EventsMove t ⟨op, r⟩ t') (e : Event) :
    e ∈ t'.rows ↔ Saves (.did i op r) e ∨ ¬ Drops (.did i op r) e ∧ e ∈ t.rows := by
  rw [saves_did, drops_did]
  generalize hc : (⟨op, r⟩ : Prog.Call Op Op.Ans) = c at h
  cases h with
  | save level message cpuPercent channels createdAt =>
    have hnew : e = ⟨t.seq + 1, level, message, cpuPercent, channels, createdAt⟩ ↔
        (⟨.sql (.saveEvent level message cpuPercent channels createdAt), .ok (t.seq + 1)⟩ :
          Prog.Call Op Op.Ans) =
        ⟨.sql (.saveEvent e.level e.message e.cpuPercent e.channels e.createdAt), .ok e.id⟩ := by
      constructor
      · rintro rfl
        rfl
      · intro heq
        generalize t.seq + 1 = id at heq ⊢
        cases e
        cases heq
        rfl
    have hmem : e ∈ (t.insert level message cpuPercent channels createdAt).rows ↔
        e ∈ t.rows ∨ e = ⟨t.seq + 1, level, message, cpuPercent, channels, createdAt⟩ := by
      simp [Events.insert, Table.insert]
    rw [hmem, hnew, or_comm]
    refine or_congr_right (Iff.symm (and_iff_right ?_))
    rintro ⟨deadline, heq, -⟩
    cases heq
  | drop deadline =>
    have hmem : e ∈ (t.cleanup deadline).rows ↔ e ∈ t.rows ∧ ¬ e.createdAt < deadline := by
      simp [Events.cleanup, Table.filter]
    rw [hmem, and_comm]
    constructor
    · rintro ⟨hkept, hrow⟩
      refine .inr ⟨?_, hrow⟩
      rintro ⟨deadline', heq, hlt⟩
      cases heq
      exact hkept hlt
    · rintro (heq | ⟨hkept, hrow⟩)
      · cases heq
      · exact ⟨fun hlt => hkept ⟨deadline, rfl, hlt⟩, hrow⟩
  | other hsave hdrop =>
    constructor
    · intro hrow
      refine .inr ⟨?_, hrow⟩
      rintro ⟨deadline, heq, -⟩
      exact hdrop deadline heq
    · rintro (heq | ⟨-, hrow⟩)
      · exact (hsave _ _ _ _ _ _ heq).elim
      · exact hrow

/-- **The table holds what was saved and not dropped.** -/
theorem rows_iff (h : Lts.run (Services.next http crypto) (Pool.start w) acts = some v)
    (e : Event) : e ∈ v.shared.events.rows ↔ Held w.events.rows v.log e := by
  refine Lts.invariant
    (I := fun v : Services => ∀ e, e ∈ v.shared.events.rows ↔ Held w.events.rows v.log e)
    (fun v a v' hv hstep e => ?_) (fun e => held_nil.symm) h e
  cases a with
  | invoke m =>
    cases hstep
    rw [held_settle, held_cons, hv e]
    simp [Saves, Drops]
  | step i c =>
    obtain ⟨m, op, k, r, w', -, hexec, rfl⟩ := Pool.next_step hstep
    rw [held_settle, held_cons, ← hv e]
    exact (eventsMove_of_exec hexec).mem_iff e

/-! ## The deadlines -/

/-- Thirty days in nanoseconds. -/
def thirtyDays : Int := 2592000000000000

theorem historyDays_section {m : Method} {s s' : Service} (h : m.section s s') :
    s'.historyDays = s.historyDays := by
  cases m with
  | evaluateSnapshot now cpuPercent =>
    have hs : s' = (s.evaluate now cpuPercent).2 := h
    rw [hs]
    rfl
  | cleanupOldEvents => obtain rfl | ⟨now, later, -, rfl⟩ := h <;> rfl
  | updateConfig input => obtain rfl | ⟨-, secrets, row, rfl⟩ := h <;> rfl
  | setSilence minutes =>
    obtain ⟨now, rfl⟩ := h
    rfl
  | clearSilence =>
    cases h
    rfl
  | _ => exact h.elim

theorem retention_default {s : Service} (h : s.historyDays = defaultHistoryRetentionDays) :
    wrap64 (-s.retention) = -thirtyDays := by
  rw [Service.retention, h]
  decide

/-- A cleanup drops what is thirty days older than a reading of the clock. -/
theorem deadline_of_cleanup (hfree : w.locked = false)
    (hdays : w.service.historyDays = defaultHistoryRetentionDays)
    (h : Lts.run (Services.next http crypto) (Pool.start w) acts = some v) {i : Nat}
    {deadline : Int} {r : Except String Unit}
    (hd : .did i (.sql (.cleanupEvents deadline)) r ∈ v.log) :
    ∃ now, .did i .now now ∈ v.log ∧ deadline = now - thirtyDays := by
  obtain ⟨hgood, hserial⟩ := services_run hfree h
  obtain ⟨since, before, hlog⟩ := List.append_of_mem hd
  have hconforms := hgood.log
  have hsections := hserial.sections
  rw [hlog] at hconforms hsections ⊢
  obtain ⟨m, -, hok⟩ := hconforms.did
  have hexpires : Expires (Pool.hist i before) deadline := by
    cases m with
    | evaluateSnapshot now cpuPercent =>
      obtain ⟨heq, -⟩ | ⟨s, heq, -⟩ | ⟨s, rest, -, done, t, left, -, -, hfor⟩ := hok
      · cases heq
      · cases heq
      · exact (ForTrigger.free hfor).elim
    | _ => exact (hok.2 deadline rfl).2
  obtain ⟨s, first, later, now, hhist, -, rfl⟩ := hexpires
  have hnow : (⟨.now, now⟩ : Prog.Call Op Op.Ans) ∈ Pool.hist i before := by simp [hhist]
  have hlock : (⟨.lock, s⟩ : Prog.Call Op Op.Ans) ∈ Pool.hist i before := by simp [hhist]
  refine ⟨now, ?_, ?_⟩
  · exact List.mem_append_right _ (List.mem_cons_of_mem _ (Pool.mem_hist.1 hnow))
  · obtain ⟨since', earlier, rfl⟩ := List.append_of_mem (Pool.mem_hist.1 hlock)
    have hversions := (hsections.append since).2
    have hs : s.historyDays = defaultHistoryRetentionDays := by
      rw [hversions.shown (x := s) rfl]
      exact (hversions.append since').2.invariant
        (I := fun s => s.historyDays = defaultHistoryRetentionDays)
        (fun m x y hrel hx => (historyDays_section hrel).trans hx) hdays
    rw [retention_default hs]
    rfl

/-- No cleanup drops an event that is younger than thirty days by every clock reading. -/
theorem not_drops_of_young (hfree : w.locked = false)
    (hdays : w.service.historyDays = defaultHistoryRetentionDays)
    (h : Lts.run (Services.next http crypto) (Pool.start w) acts = some v) {e : Event}
    (hyoung : ∀ i now, .did i .now now ∈ v.log → now ≤ e.createdAt + thirtyDays) :
    ∀ ev ∈ v.log, ¬ Drops ev e := by
  rintro ev hev ⟨i, deadline, rfl, hlt⟩
  obtain ⟨now, hnow, rfl⟩ := deadline_of_cleanup hfree hdays h hev
  have hle := hyoung i now hnow
  omega

/-- **The history is exact.** The table holds what was there and what was saved, less what was
dropped since; and an event that was there or was saved stays as long as no clock has shown thirty
days more than its creation. -/
theorem history_exact (hfree : w.locked = false)
    (hdays : w.service.historyDays = defaultHistoryRetentionDays)
    (h : Lts.run (Services.next http crypto) (Pool.start w) acts = some v) (e : Event) :
    (e ∈ v.shared.events.rows ↔ Held w.events.rows v.log e) ∧
      ((e ∈ w.events.rows ∨ ∃ ev ∈ v.log, Saves ev e) →
        (∀ i now, .did i .now now ∈ v.log → now ≤ e.createdAt + thirtyDays) →
        e ∈ v.shared.events.rows) := by
  refine ⟨rows_iff h e, fun hcame hyoung => (rows_iff h e).2 ?_⟩
  have hkept := not_drops_of_young hfree hdays h hyoung
  obtain hrow | ⟨ev, hev, hsaves⟩ := hcame
  · exact ⟨v.log, [], (List.append_nil _).symm, hkept, .inl ⟨rfl, hrow⟩⟩
  · obtain ⟨since, before, hlog⟩ := List.append_of_mem hev
    refine ⟨since, ev :: before, hlog, fun ev' hev' => hkept ev' ?_, .inr ⟨ev, before, rfl, hsaves⟩⟩
    rw [hlog]
    exact List.mem_append_left _ hev'

/-- The event of the alarm in `overlapping`. -/
def savedAlarm : Event :=
  ⟨1, .critical, formatAlertMessage .critical "host" (.num 90) 2000000000, .num 90, [], 2000000000⟩

theorem history_exact_overlapping :
    (savedAlarm ∈ overlapped.shared.events.rows ↔
      Held quickWorld.events.rows overlapped.log savedAlarm) ∧
      ((savedAlarm ∈ quickWorld.events.rows ∨ ∃ ev ∈ overlapped.log, Saves ev savedAlarm) →
        (∀ i now, .did i .now now ∈ overlapped.log → now ≤ savedAlarm.createdAt + thirtyDays) →
        savedAlarm ∈ overlapped.shared.events.rows) :=
  history_exact rfl rfl run_overlapping savedAlarm

end QuickVps.Alerts
