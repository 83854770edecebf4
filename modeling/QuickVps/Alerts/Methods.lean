import QuickVps.Alerts.Calls
import QuickVps.Lib.Guarded

/-!
# The methods of the alert service, called at the same time

Snapshots are evaluated, requests served and old events dropped by goroutines of their own. Each
method works on the service under its lock, or on a copy of it, and talks to the store and to the
network outside.

* `Method` — the methods with their arguments, `Method.section` what each does under the lock.
* `follows_method` — every method keeps the discipline of the lock, and an evaluation sends and
  saves what it was triggered for, and nothing else.
* `Services`, `services_run` — the service under any interleaving of its methods.
-/

namespace QuickVps.Alerts

open Go

/-! ## Methods -/

/-- The methods that are called while the service runs; `evaluateSnapshot` and `cleanupOldEvents`
are those of the goroutine `Run`. -/
inductive Method where
  | evaluateSnapshot (now : Int) (cpuPercent : Float64)
  | cleanupOldEvents
  | triggerTest
  | configView (readOnly : Bool)
  | updateConfig (input : UpdateConfigInput)
  | status (readOnly : Bool)
  | setSilence (minutes : Int)
  | clearSilence
  | listHistory (limit beforeID : Int)
  | isEnabled
  | historyRetentionDays

inductive Answer where
  | done
  | tested (r : Except String Event)
  | view (r : ConfigView)
  | updated (r : Except String ConfigView)
  | status (r : Status)
  | silenced (r : Except String Int)
  | cleared (r : Except String Unit)
  | history (r : Except String (List Event))
  | enabled (r : Bool)
  | days (r : Int)

def Method.program (crypto : Crypto) : Method → M Answer
  | evaluateSnapshot now cpuPercent => do
    Alerts.evaluateSnapshot now cpuPercent
    return .done
  | cleanupOldEvents => do
    Alerts.cleanupOldEvents
    return .done
  | triggerTest => do return .tested (← Alerts.triggerTest)
  | configView readOnly => do return .view (← Alerts.configView readOnly)
  | updateConfig input => do return .updated (← Alerts.updateConfig crypto input)
  | status readOnly => do return .status (← Alerts.status readOnly)
  | setSilence minutes => do return .silenced (← Alerts.setSilence minutes)
  | clearSilence => do return .cleared (← Alerts.clearSilence)
  | listHistory limit beforeID => do return .history (← Alerts.listHistory limit beforeID)
  | isEnabled => do return .enabled (← Alerts.isEnabled)
  | historyRetentionDays => do return .days (← Alerts.historyRetentionDays)

abbrev Services := Pool.State World Method Op Op.Ans Answer

abbrev ServicesLog := List (Pool.Event Method Op Op.Ans Answer)

abbrev ServicesAct := Pool.Act Method Choice

def Services.next (http : Http) (crypto : Crypto) : Services → ServicesAct → Option Services :=
  Pool.next (Method.program crypto) (exec http)

/-! ## The lock -/

def serviceLock : Pool.Brackets Op Op.Ans Service where
  takes op r :=
    match op, r with
    | .lock, s => some s
    | _, _ => none
  gives
    | .unlock s => some s
    | _ => none
  shows op r :=
    match op, r with
    | .lock, s => some s
    | .read, s => some s
    | _, _ => none
  exclusive := by
    intro op y r h
    cases op <;> first | rfl | cases h

theorem serviceLock_guard (http : Http) :
    serviceLock.Guard (exec http) World.locked World.service where
  take := by
    intro c op w r w' s h hs
    cases op with
    | lock =>
      simp only [exec] at h
      split_ifs at h with hlocked
      cases h
      cases hs
      exact ⟨by simpa using hlocked, rfl, rfl, rfl⟩
    | _ => cases hs
  give := by
    intro c op w r w' s h hs
    cases op with
    | unlock s' =>
      cases h
      cases hs
      exact ⟨rfl, rfl⟩
    | _ => cases hs
  other := by
    intro c op w r w' h ht hg
    cases op with
    | lock => cases ht
    | unlock => cases hg
    | sql stmt =>
      unfold exec at h
      cases hfault : c.fault with
      | some err =>
        simp only [hfault] at h
        cases h
        exact ⟨rfl, rfl⟩
      | none =>
        simp only [hfault, Option.some.injEq] at h
        cases stmt with
        | saveEvent level message cpuPercent channels createdAt =>
          simp only [Stmt.exec] at h
          split_ifs at h <;> cases h <;> exact ⟨rfl, rfl⟩
        | _ =>
          cases h
          exact ⟨rfl, rfl⟩
    | read =>
      simp only [exec] at h
      split_ifs at h
      cases h
      exact ⟨rfl, rfl⟩
    | nonce | newRequest | post | sendMail =>
      unfold exec at h
      simp only at h
      split at h <;> cases h <;> exact ⟨rfl, rfl⟩
    | _ =>
      cases h
      exact ⟨rfl, rfl⟩
  shown := by
    intro c op w r w' s h hs
    cases op with
    | lock | read =>
      simp only [exec] at h
      split_ifs at h
      cases h
      cases hs
      rfl
    | _ => cases hs

/-- What a method does to the service under the lock. -/
def Method.section : Method → Service → Service → Prop
  | evaluateSnapshot now cpuPercent, s, s' => s' = (s.evaluate now cpuPercent).2
  | cleanupOldEvents, s, s' =>
    s' = s ∨ ∃ now later, s.cleanupEvery ≤ timeSub now s.lastCleanupRun ∧
      s' = { s with lastCleanupRun := later }
  | updateConfig input, s, s' =>
    s' = s ∨ validateConfig (input.apply s.cfg) = none ∧ ∃ secrets row,
      s' = { s with cfg := input.apply s.cfg, secrets := secrets, secretRec := row }
  | setSilence minutes, s, s' => ∃ now : Int, s' = s.silence (some (now + minutes * 60000000000))
  | clearSilence, s, s' => s' = s.silence none
  | _, _, _ => False

/-! ## What an evaluation sends -/

abbrev Calls := List (Prog.Call Op Op.Ans)

/-- A call of the notifier with these settings, for a message. -/
def Op.Sends (cfg : Config) (secrets : Secrets) (level : Level) (message : String) : Op → Prop
  | .newRequest url => url = telegramURL (trim secrets.telegramBotToken)
  | .post url body =>
    url = telegramURL (trim secrets.telegramBotToken) ∧
      ∃ chatID ∈ cfg.telegramChatIDs.getD [],
        body = .obj [("chat_id", .str (trim chatID)), ("text", .str message)]
  | .sendMail from_ password recipients text =>
    from_ = trim (trim secrets.gmailAddress) ∧ password = trim (trim secrets.gmailAppPassword) ∧
      recipients = ((cfg.recipientEmails.getD []).map trim).filter (fun email => email ≠ "") ∧
      text = mailText from_ recipients ("[QuickVPS] CPU " ++ level.upper) message
  | .ctxErr => True
  | .sleep _ => True
  | _ => False

/-- A row of the events without what the notifier answered. -/
structure Alarm where
  level : Level
  message : String
  cpuPercent : Float64
  createdAt : Int

/-- The row that is saved for a trigger. -/
def Trigger.alarm (s : Service) (now : Int) (t : Trigger) : Alarm :=
  ⟨t.level, formatAlertMessage t.level s.hostname t.cpuPercent now, t.cpuPercent, now⟩

/-- The rows that were to be saved, the newest first. -/
def saves (h : Calls) : List Alarm :=
  h.filterMap fun
    | ⟨.sql (.saveEvent level message cpuPercent _ createdAt), _⟩ =>
      some ⟨level, message, cpuPercent, createdAt⟩
    | _ => none

/-- A call for a trigger of an evaluation that found the service `s`. -/
def Op.ForTrigger (s : Service) (now : Int) (t : Trigger) (op : Op) : Prop :=
  op.Sends s.cfg s.secrets t.level (formatAlertMessage t.level s.hostname t.cpuPercent now) ∨
    ∃ channels, op = .sql (.saveEvent t.level
      (formatAlertMessage t.level s.hostname t.cpuPercent now) t.cpuPercent channels now)

/-- The first two calls of an evaluation. -/
def evaluated (s : Service) (now : Int) (cpuPercent : Float64) : Calls :=
  [⟨.unlock (s.evaluate now cpuPercent).2, ()⟩, ⟨.lock, s⟩]

/-- An evaluation takes the lock, gives it back with the evaluated service, and then only calls what
belongs to the first of its triggers that is not saved yet. -/
def evaluateOk (now : Int) (cpuPercent : Float64) (h : Calls) (op : Op) : Prop :=
  (op = .lock ∧ h = []) ∨
    (∃ s, op = .unlock (s.evaluate now cpuPercent).2 ∧ h = [⟨.lock, s⟩]) ∨
    ∃ s rest, h = rest ++ evaluated s now cpuPercent ∧
      ∃ done t left, (s.evaluate now cpuPercent).1 = done ++ t :: left ∧
        (saves rest).reverse = done.map (Trigger.alarm s now) ∧ op.ForTrigger s now t

/-- The evaluation has given the lock back. Since then it has called only what belongs to one of its
triggers, and saved these rows, in order. -/
def Saved (s : Service) (now : Int) (cpuPercent : Float64) (alarms : List Alarm) (h : Calls) :
    Prop :=
  serviceLock.entered h = none ∧
    ∃ rest, h = rest ++ evaluated s now cpuPercent ∧ (saves rest).reverse = alarms ∧
      ∀ c ∈ rest, ∃ t ∈ (s.evaluate now cpuPercent).1, c.1.ForTrigger s now t

/-- When it returns, it has saved one row for each trigger, in order. -/
def evaluateFin (now : Int) (cpuPercent : Float64) (h : Calls) : Prop :=
  ∃ s, Saved s now cpuPercent ((s.evaluate now cpuPercent).1.map (Trigger.alarm s now)) h

/-! ## The conditions of the methods -/

/-- The age from which on a service drops events, as `CleanupEvents` counts it. -/
def Service.retention (s : Service) : Int :=
  (if s.historyDays ≤ 0 then defaultHistoryRetentionDays else s.historyDays) * 86400000000000

/-- The calls before events are dropped: the lock, the clock for the hour since the last time, for
the next hour, and for the deadline. -/
def Expires (h : Calls) (deadline : Int) : Prop :=
  ∃ s first later now, h = [⟨.now, now⟩, ⟨.now, later⟩, ⟨.now, first⟩, ⟨.lock, s⟩] ∧
    s.cleanupEvery ≤ timeSub first s.lastCleanupRun ∧
    deadline = now + wrap64 (-s.retention)

/-- The discipline of the lock, and only `cleanupOldEvents` drops events. -/
def Method.keeps (m : Method) (h : Calls) (op : Op) : Prop :=
  serviceLock.Ok Method.section m h op ∧
    ∀ deadline, op = .sql (.cleanupEvents deadline) → m = cleanupOldEvents ∧ Expires h deadline

def Method.ok : Method → Calls → Op → Prop
  | evaluateSnapshot now cpuPercent => evaluateOk now cpuPercent
  | m => m.keeps

/-- The status as it is shown at an instant. -/
def Service.statusAt (s : Service) (readOnly : Bool) (now : Int) : Status :=
  { s.status with readOnly := readOnly, silenced := isSilencedAt s.status.mutedUntil now }

/-- What the answer of a method says about its calls: a window or a configuration that it answers
has just been set, and what it shows was read at once. -/
def Method.Answers : Method → Calls → Answer → Prop
  | evaluateSnapshot now cpuPercent, h, _ => evaluateFin now cpuPercent h
  | setSilence _, h, answer => ∀ until_, answer = .silenced (.ok until_) →
      ∃ (s : Service) (rest : Calls), h = ⟨.unlock s, ()⟩ :: rest ∧
        s.status.mutedUntil = some until_
  | updateConfig _, h, answer => ∀ view, answer = .updated (.ok view) →
      ∃ (s : Service) (rest : Calls), h = ⟨.unlock s, ()⟩ :: rest ∧ view = s.updatedView
  | configView readOnly, h, answer =>
    ∃ s : Service, h = [⟨.read, s⟩] ∧ answer = .view (s.configView readOnly)
  | status readOnly, h, answer =>
    ∃ (s : Service) (now : Int), h = [⟨.now, now⟩, ⟨.read, s⟩] ∧
      answer = .status (s.statusAt readOnly now)
  | isEnabled, h, answer => ∃ s : Service, h = [⟨.read, s⟩] ∧ answer = .enabled s.cfg.enabled
  | _, _, _ => True

/-- No method returns with the lock. -/
def Method.fin (m : Method) (h : Calls) (answer : Answer) : Prop :=
  serviceLock.entered h = none ∧ m.Answers h answer

/-- A call that has nothing to do with the lock and drops no events. -/
def Op.Free : Op → Prop
  | .lock => False
  | .unlock _ => False
  | .sql (.cleanupEvents _) => False
  | _ => True

theorem Op.Free.takes {op : Op} (h : op.Free) (r : op.Ans) : serviceLock.takes op r = none := by
  cases op with
  | lock => exact h.elim
  | _ => rfl

theorem Op.Free.gives {op : Op} (h : op.Free) : serviceLock.gives op = none := by
  cases op with
  | unlock => exact h.elim
  | _ => rfl

theorem Op.Free.keeps {op : Op} (h : op.Free) (m : Method) (calls : Calls) : m.keeps calls op := by
  refine ⟨⟨fun r s hs => ?_, fun s hs => ?_⟩, fun deadline heq => ?_⟩
  · rw [h.takes r] at hs
    cases hs
  · rw [h.gives] at hs
    cases hs
  · subst heq
    exact h.elim

theorem Op.Reads.free {op : Op} (h : op.Reads) : op.Free := by
  cases op with
  | sql stmt => cases stmt <;> trivial
  | _ => trivial

theorem Op.Sends.free {cfg : Config} {secrets : Secrets} {level : Level} {message : String}
    {op : Op} (h : op.Sends cfg secrets level message) : op.Free := by
  cases op <;> trivial

theorem entered_free {op : Op} (h : op.Free) (r : op.Ans) (calls : Calls) :
    serviceLock.entered (⟨op, r⟩ :: calls) = serviceLock.entered calls :=
  Pool.Brackets.entered_other (h.takes r) h.gives calls

/-- Programs that leave the lock alone. -/
theorem follows_free {α : Type} {p : M α} (hp : p.Only Op.Free) (m : Method) {h : Calls}
    {x : Option Service} (hx : serviceLock.entered h = x) :
    p.Follows m.keeps (fun h' _ => serviceLock.entered h' = x) h :=
  hp.follows (I := fun h' => serviceLock.entered h' = x) (fun h' _ hop _ => hop.keeps m h')
    (fun h' _ r hop hh' => (entered_free hop r h').trans hh') hx

/-! ## Notifications -/

theorem only_sendToChats {cfg : Config} {secrets : Secrets} {level : Level} {message : String}
    {chatIDs : List String} (h : ∀ chatID ∈ chatIDs, chatID ∈ cfg.telegramChatIDs.getD []) :
    (sendToChats (telegramURL (trim secrets.telegramBotToken)) message chatIDs).Only
      (Op.Sends cfg secrets level message) := by
  induction chatIDs with
  | nil => exact Prog.only_ret _
  | cons chatID rest ih =>
    have hrest := ih fun c hc => h c (List.mem_cons_of_mem _ hc)
    unfold sendToChats
    simp only
    split_ifs
    · exact hrest
    · refine (Prog.only_op (by exact rfl)).bind fun request => ?_
      cases request with
      | error err => exact Prog.only_ret _
      | ok =>
        refine (Prog.only_op ⟨rfl, chatID, h chatID List.mem_cons_self, rfl⟩).bind
          fun status => ?_
        cases status with
        | error err => exact Prog.only_ret _
        | ok status =>
          simp only
          split_ifs
          · exact Prog.only_ret _
          · exact hrest

theorem only_retryLoop {C : Op → Prop} (hctx : C .ctxErr) (hsleep : ∀ d, C (.sleep d))
    {fn : M (Except String Unit)} (hfn : fn.Only C) (delays : List Int) (attempts : Nat) :
    (retryLoop fn delays attempts).Only C := by
  induction delays generalizing attempts with
  | nil => exact Prog.only_ret _
  | cons delay rest ih =>
    refine hfn.bind fun result => ?_
    cases result with
    | ok => exact Prog.only_ret _
    | error err =>
      simp only
      split_ifs
      · exact Prog.only_ret _
      · refine (Prog.only_op hctx).bind fun done => ?_
        cases done with
        | some err => exact Prog.only_ret _
        | none => exact (Prog.only_op (hsleep _)).bind fun _ => ih _

theorem only_notify (cfg : Config) (secrets : Secrets) (level : Level) (message : String) :
    (notify cfg secrets level message).Only (Op.Sends cfg secrets level message) := by
  have htelegram : (sendTelegramDefault (trim secrets.telegramBotToken) cfg.telegramChatIDs
      message).Only (Op.Sends cfg secrets level message) := by
    unfold sendTelegramDefault
    split_ifs
    · exact Prog.only_ret _
    · exact Prog.only_ret _
    · exact only_sendToChats fun _ hc => hc
  have hemail : (sendEmailDefault (trim secrets.gmailAddress) (trim secrets.gmailAppPassword)
      cfg.recipientEmails ("[QuickVPS] CPU " ++ level.upper) message).Only
      (Op.Sends cfg secrets level message) := by
    unfold sendEmailDefault
    simp only
    split_ifs
    · exact Prog.only_ret _
    · exact Prog.only_ret _
    · exact Prog.only_ret _
    · refine (Prog.only_op ⟨rfl, rfl, rfl, rfl⟩).bind fun sent => ?_
      cases sent <;> exact Prog.only_ret _
  refine Prog.Only.bind ?_ fun telegram => Prog.Only.bind ?_ fun email => Prog.only_ret _
  · unfold notifyTelegram
    split_ifs
    · exact (only_retryLoop trivial (fun _ => trivial) htelegram _ _).bind fun _ => Prog.only_ret _
    · exact Prog.only_ret _
  · unfold notifyEmail
    split_ifs
    · exact (only_retryLoop trivial (fun _ => trivial) hemail _ _).bind fun _ => Prog.only_ret _
    · exact Prog.only_ret _

/-! ## The methods follow their conditions -/

theorem ForTrigger.free {s : Service} {now : Int} {t : Trigger} {op : Op}
    (h : op.ForTrigger s now t) : op.Free := by
  rcases h with hsends | ⟨channels, rfl⟩
  · exact hsends.free
  · trivial

theorem evaluateOk.lock {now : Int} {cpuPercent : Float64} {h : Calls} {op : Op}
    (hok : evaluateOk now cpuPercent h op) :
    serviceLock.Ok Method.section (.evaluateSnapshot now cpuPercent) h op := by
  rcases hok with ⟨rfl, rfl⟩ | ⟨s, rfl, rfl⟩ | ⟨s, rest, -, done, t, left, -, -, hfor⟩
  · exact ⟨fun _ _ _ => rfl, fun _ hs => by cases hs⟩
  · refine ⟨fun _ _ hs => (by cases hs), fun s' hs => ?_⟩
    cases hs
    exact ⟨s, rfl, rfl⟩
  · exact (Op.Free.keeps (ForTrigger.free hfor) _ h).1

/-! ### Evaluations -/

section Evaluation

variable {s : Service} {now : Int} {cpuPercent : Float64} {alarms : List Alarm} {h : Calls}

theorem Op.Sends.saves {cfg : Config} {secrets : Secrets} {level : Level} {message : String}
    {op : Op} (hop : op.Sends cfg secrets level message) (r : op.Ans) : saves [⟨op, r⟩] = [] := by
  cases op <;> first | rfl | exact hop.elim

theorem saves_cons (c : Prog.Call Op Op.Ans) (h : Calls) : saves (c :: h) = saves [c] ++ saves h :=
  List.filterMap_append (l := [c])

/-- A row at most is saved by one call. -/
theorem reverse_saves (c : Prog.Call Op Op.Ans) : (saves [c]).reverse = saves [c] := by
  have hle : (saves [c]).length ≤ 1 := List.length_filterMap_le _ _
  match saves [c], hle with
  | [], _ => rfl
  | [_], _ => rfl

theorem Saved.call {t : Trigger} (ht : t ∈ (s.evaluate now cpuPercent).1) {op : Op}
    (hop : op.ForTrigger s now t) (r : op.Ans) (hh : Saved s now cpuPercent alarms h) :
    Saved s now cpuPercent (alarms ++ saves [⟨op, r⟩]) (⟨op, r⟩ :: h) := by
  obtain ⟨hfree, rest, rfl, hrows, hcalls⟩ := hh
  refine ⟨(entered_free (ForTrigger.free hop) r _).trans hfree, ⟨op, r⟩ :: rest, rfl, ?_, ?_⟩
  · rw [saves_cons, List.reverse_append, hrows, reverse_saves]
  · intro c hc
    rcases List.mem_cons.1 hc with rfl | hc
    · exact ⟨t, ht, hop⟩
    · exact hcalls c hc

theorem Saved.ok {done left : List Trigger} {t : Trigger}
    (hh : Saved s now cpuPercent (done.map (Trigger.alarm s now)) h)
    (ht : (s.evaluate now cpuPercent).1 = done ++ t :: left) {op : Op}
    (hop : op.ForTrigger s now t) : evaluateOk now cpuPercent h op := by
  obtain ⟨-, rest, rfl, hrows, -⟩ := hh
  exact .inr (.inr ⟨s, rest, rfl, done, t, left, ht, hrows, hop⟩)

theorem follows_dispatch {done left : List Trigger} {t : Trigger}
    (ht : (s.evaluate now cpuPercent).1 = done ++ t :: left)
    (hh : Saved s now cpuPercent (done.map (Trigger.alarm s now)) h) :
    (dispatch s.hostname s.cfg s.secrets now t).Follows (evaluateOk now cpuPercent)
      (fun h' _ => Saved s now cpuPercent ((done ++ [t]).map (Trigger.alarm s now)) h') h := by
  have hmem : t ∈ (s.evaluate now cpuPercent).1 := by simp [ht]
  unfold dispatch saveEvent stmt
  simp only
  rw [Prog.follows_bind]
  refine ((only_notify _ _ _ _).follows
    (I := Saved s now cpuPercent (done.map (Trigger.alarm s now))) ?_ ?_ hh).mono
    (fun _ _ _ hok => hok) fun h' results _ hh' => ?_
  · exact fun h' op hop hh' => hh'.ok ht (.inl hop)
  · intro h' op r hop hh'
    have hnext := hh'.call hmem (.inl hop) r
    rwa [hop.saves, List.append_nil] at hnext
  · rw [Prog.follows_bind, Prog.follows_bind]
    refine (Prog.follows_op (e := Op.sql _)).2 ⟨hh'.ok ht (.inr ⟨results, rfl⟩), fun r => ?_⟩
    have hnext := hh'.call hmem (.inr ⟨results, rfl⟩) r
    rw [List.map_append]
    cases r <;> exact Prog.follows_ret.2 (Prog.follows_ret.2 hnext)

theorem follows_dispatchAll {done left : List Trigger}
    (hleft : (s.evaluate now cpuPercent).1 = done ++ left)
    (hh : Saved s now cpuPercent (done.map (Trigger.alarm s now)) h) :
    (dispatchAll s.hostname s.cfg s.secrets now left).Follows (evaluateOk now cpuPercent)
      (fun h' _ => Saved s now cpuPercent
        ((s.evaluate now cpuPercent).1.map (Trigger.alarm s now)) h') h := by
  induction left generalizing done h with
  | nil =>
    rw [List.append_nil] at hleft
    rw [hleft]
    exact Prog.follows_ret.2 hh
  | cons t left ih =>
    rw [dispatchAll, Prog.follows_bind]
    exact (follows_dispatch hleft hh).mono (fun _ _ _ hok => hok)
      fun h' _ _ hh' => ih (by simp [hleft]) hh'

theorem follows_evaluateSnapshot (now : Int) (cpuPercent : Float64) :
    (evaluateSnapshot now cpuPercent).Follows (evaluateOk now cpuPercent)
      (fun h _ => serviceLock.entered h = none ∧ evaluateFin now cpuPercent h) [] := by
  unfold evaluateSnapshot
  rw [Prog.follows_bind]
  refine (Prog.follows_op (e := Op.lock)).2 ⟨.inl ⟨rfl, rfl⟩, fun (s : Service) => ?_⟩
  rw [Prog.follows_bind]
  refine (Prog.follows_op (e := Op.unlock _)).2 ⟨.inr (.inl ⟨s, rfl, rfl⟩), fun _ => ?_⟩
  have hstart : Saved s now cpuPercent [] (evaluated s now cpuPercent) :=
    ⟨rfl, [], rfl, rfl, by simp⟩
  have hall : (s.evaluate now cpuPercent).1 = [] ++ (s.evaluate now cpuPercent).1 := rfl
  exact (follows_dispatchAll hall hstart).mono (fun _ _ _ hok => hok)
    fun h _ _ hh => ⟨hh.1, s, hh⟩

end Evaluation

/-! ### The other methods -/

theorem only_encrypt (crypto : Crypto) (key : Option (List UInt8)) (text : String) :
    (encrypt crypto key text).Only Op.Free := by
  unfold encrypt
  cases key with
  | none => exact Prog.only_ret _
  | some key =>
    refine (Prog.only_op (e := Op.nonce) trivial).bind fun nonce => ?_
    cases nonce <;> exact Prog.only_ret _

theorem only_changeSecret (crypto : Crypto) (s : Service) (given : String) (clear : Bool)
    (old : Sealed) : (changeSecret crypto s given clear old).Only Op.Free := by
  unfold changeSecret
  split
  · split
    · exact Prog.only_ret _
    · refine (only_encrypt _ _ _).bind fun cipher => ?_
      cases cipher <;> exact Prog.only_ret _
  · exact Prog.only_ret _

theorem only_stmt (s : Stmt) (h : (Op.sql s).Free) : (stmt s).Only Op.Free := Prog.only_op h

theorem only_saveConfig (cfg : Config) : (saveConfig cfg).Only Op.Free := by
  refine (only_stmt (.saveConfig cfg) trivial).bind fun r => ?_
  cases r <;> exact Prog.only_ret _

theorem only_saveSecretRecord (row : SecretRecord) : (saveSecretRecord row).Only Op.Free := by
  refine (only_stmt (.saveSecretRecord row) trivial).bind fun r => ?_
  cases r <;> exact Prog.only_ret _

/-- After a program that leaves the lock alone the next one goes on. -/
theorem follows_continue {α β : Type} {p : M α} {f : α → M β} {m : Method} {x : Option Service}
    {fin : Calls → β → Prop} {h : Calls} (hp : p.Only Op.Free) (hx : serviceLock.entered h = x)
    (hf : ∀ a h', serviceLock.entered h' = x →
      (f a).Follows m.keeps fin h') :
    (p >>= f).Follows m.keeps fin h :=
  Prog.follows_bind.2 ((follows_free hp m hx).mono (fun _ _ _ hok => hok)
    fun h' a _ hh' => hf a h' hh')

theorem follows_changeConfig (crypto : Crypto) (s : Service) (i : UpdateConfigInput) {h : Calls}
    (hs : serviceLock.entered h = some s) :
    (changeConfig crypto s i).Follows (Method.updateConfig i).keeps
      (fun h' a => serviceLock.entered h' = some s ∧
        ∀ s', a = .ok s' → Method.section (.updateConfig i) s s') h := by
  unfold changeConfig
  simp only
  cases hvalid : validateConfig (i.apply s.cfg) with
  | some err => exact Prog.follows_ret.2 ⟨hs, by simp⟩
  | none =>
    refine follows_continue (only_changeSecret _ _ _ _ _) hs fun token h hs => ?_
    cases token with
    | error err => exact Prog.follows_ret.2 ⟨hs, by simp⟩
    | ok token =>
      refine follows_continue (only_changeSecret _ _ _ _ _) hs fun password h hs => ?_
      cases password with
      | error err => exact Prog.follows_ret.2 ⟨hs, by simp⟩
      | ok password =>
        refine follows_continue (only_saveConfig _) hs fun saved h hs => ?_
        cases saved with
        | error err => exact Prog.follows_ret.2 ⟨hs, by simp⟩
        | ok =>
          refine follows_continue (only_saveSecretRecord _) hs fun saved h hs => ?_
          cases saved with
          | error err => exact Prog.follows_ret.2 ⟨hs, by simp⟩
          | ok =>
            refine Prog.follows_ret.2 ⟨hs, fun s' hs' => ?_⟩
            cases hs'
            exact .inr ⟨hvalid, _, _, rfl⟩

/-- The lock may be taken where nothing is entered, and is given back with what the section makes
of the service. -/
theorem ok_lock (m : Method) {h : Calls} (hfree : serviceLock.entered h = none) :
    m.keeps h .lock :=
  ⟨⟨fun _ _ _ => hfree, fun _ hs => by cases hs⟩, fun _ heq => by cases heq⟩

theorem ok_unlock {m : Method} {h : Calls} {s s' : Service} (hs : serviceLock.entered h = some s)
    (hsec : m.section s s') : m.keeps h (.unlock s') := by
  refine ⟨⟨fun _ _ hr => (by cases hr), fun s'' hs'' => ?_⟩, fun _ heq => by cases heq⟩
  cases hs''
  exact ⟨s, hs, hsec⟩

theorem follows_updateConfig (crypto : Crypto) (i : UpdateConfigInput) :
    (updateConfig crypto i).Follows (Method.updateConfig i).keeps
      (fun h a => serviceLock.entered h = none ∧ ∀ view, a = .ok view →
        ∃ (s : Service) (rest : Calls), h = ⟨.unlock s, ()⟩ :: rest ∧ view = s.updatedView) [] := by
  unfold updateConfig
  rw [Prog.follows_bind]
  refine (Prog.follows_op (e := Op.lock)).2 ⟨ok_lock _ rfl, fun (s : Service) => ?_⟩
  rw [Prog.follows_bind]
  refine (follows_changeConfig crypto s i rfl).mono (fun _ _ _ hok => hok) fun h a _ hh => ?_
  cases a with
  | error err =>
    rw [Prog.follows_bind]
    refine (Prog.follows_op (e := Op.unlock s)).2 ⟨ok_unlock hh.1 (.inl rfl), fun _ => ?_⟩
    exact Prog.follows_ret.2 ⟨rfl, by simp⟩
  | ok s' =>
    rw [Prog.follows_bind]
    refine (Prog.follows_op (e := Op.unlock s')).2 ⟨ok_unlock hh.1 (hh.2 s' rfl), fun _ => ?_⟩
    refine Prog.follows_ret.2 ⟨rfl, fun view heq => ?_⟩
    cases heq
    exact ⟨s', h, rfl, rfl⟩

theorem follows_setWindow {m : Method} {until_ : Option Int}
    (hsec : ∀ s, m.section s (s.silence until_)) {h : Calls}
    (hfree : serviceLock.entered h = none) :
    (Alerts.saveSilence until_).Follows m.keeps
      (fun h' a => serviceLock.entered h' = none ∧ (a = .ok () →
        ∃ (s : Service) (rest : Calls), h' = ⟨.unlock (s.silence until_), ()⟩ :: rest)) h := by
  have only_setMutedUntil : (setMutedUntil until_).Only Op.Free := by
    refine (only_stmt (.setMutedUntil until_) trivial).bind fun r => ?_
    cases r <;> exact Prog.only_ret _
  refine follows_continue only_setMutedUntil hfree fun a h hfree => ?_
  cases a with
  | error err => exact Prog.follows_ret.2 ⟨hfree, by simp⟩
  | ok =>
    simp only
    rw [Prog.follows_bind]
    refine (Prog.follows_op (e := Op.lock)).2 ⟨ok_lock m hfree, fun (s : Service) => ?_⟩
    rw [Prog.follows_bind]
    refine (Prog.follows_op (e := Op.unlock _)).2 ⟨ok_unlock rfl (hsec s), fun _ => ?_⟩
    exact Prog.follows_ret.2 ⟨rfl, fun _ => ⟨s, _, rfl⟩⟩

theorem follows_setSilence (minutes : Int) :
    (setSilence minutes).Follows (Method.setSilence minutes).keeps
      (fun h a => serviceLock.entered h = none ∧ ∀ until_, a = .ok until_ →
        ∃ (s : Service) (rest : Calls), h = ⟨.unlock s, ()⟩ :: rest ∧
          s.status.mutedUntil = some until_) [] := by
  unfold setSilence
  split_ifs
  · exact Prog.follows_ret.2 ⟨rfl, by simp⟩
  · refine follows_continue (Prog.only_op (e := Op.now) trivial) rfl fun (now : Int) h hfree => ?_
    rw [Prog.follows_bind]
    have hsec (s : Service) : (Method.setSilence minutes).section s
        (s.silence (some (now + minutes * 60000000000))) := ⟨now, rfl⟩
    refine (follows_setWindow hsec hfree).mono (fun _ _ _ hok => hok)
      fun h a _ hh => Prog.follows_ret.2 ⟨hh.1, fun until_ heq => ?_⟩
    cases a with
    | error err => cases heq
    | ok =>
      cases heq
      obtain ⟨s, rest, rfl⟩ := hh.2 rfl
      exact ⟨_, rest, rfl, rfl⟩

theorem follows_cleanupOldEvents :
    cleanupOldEvents.Follows Method.cleanupOldEvents.keeps
      (fun h _ => serviceLock.entered h = none) [] := by
  have hnow : Op.now.Free := trivial
  unfold cleanupOldEvents
  rw [Prog.follows_bind]
  refine (Prog.follows_op (e := Op.lock)).2 ⟨ok_lock _ rfl, fun (s : Service) => ?_⟩
  rw [Prog.follows_bind]
  refine (Prog.follows_op (e := Op.now)).2 ⟨hnow.keeps _ _, fun (first : Int) => ?_⟩
  split_ifs with hdue
  · exact (Prog.follows_op (e := Op.unlock s)).2 ⟨ok_unlock rfl (.inl rfl), fun _ => rfl⟩
  · rw [Prog.follows_bind]
    refine (Prog.follows_op (e := Op.now)).2 ⟨hnow.keeps _ _, fun (later : Int) => ?_⟩
    unfold cleanupEvents stmt
    rw [Prog.follows_bind, Prog.follows_bind]
    refine (Prog.follows_op (e := Op.now)).2 ⟨hnow.keeps _ _, fun (now : Int) => ?_⟩
    rw [Prog.follows_bind]
    refine (Prog.follows_op (e := Op.sql _)).2 ⟨⟨⟨fun _ _ hr => (by cases hr),
      fun _ hs => (by cases hs)⟩, fun deadline heq => ?_⟩, fun r => ?_⟩
    · cases heq
      exact ⟨rfl, s, first, later, now, rfl, not_lt.1 hdue, rfl⟩
    · have hunlock : Method.cleanupOldEvents.keeps (⟨.sql (.cleanupEvents _), r⟩ ::
          [⟨.now, now⟩, ⟨.now, later⟩, ⟨.now, first⟩, ⟨.lock, s⟩])
          (.unlock { s with lastCleanupRun := later }) :=
        ok_unlock rfl (.inr ⟨first, later, not_lt.1 hdue, rfl⟩)
      cases r <;> exact Prog.follows_ret.2 ((Prog.follows_op (e := Op.unlock _)).2
        ⟨hunlock, fun _ => rfl⟩)

theorem only_triggerTest : triggerTest.Only Op.Free := by
  refine (Prog.only_op (e := Op.read) trivial).bind fun (s : Service) => ?_
  split_ifs
  · exact Prog.only_ret _
  · refine (Prog.only_op (e := Op.now) trivial).bind fun (now : Int) => ?_
    refine ((only_notify s.cfg s.secrets .test _).mono fun _ hop => hop.free).bind fun results => ?_
    have only_saveEvent : (saveEvent .test (formatTestMessage s.hostname now) (.num 0) results
        now).Only Op.Free := by
      refine (only_stmt (.saveEvent ..) trivial).bind fun r => ?_
      cases r <;> exact Prog.only_ret _
    refine only_saveEvent.bind fun a => ?_
    cases a <;> exact Prog.only_ret _

/-- A method that leaves the lock alone. -/
theorem follows_answer {α : Type} {p : M α} (hp : p.Only Op.Free) (m : Method) (f : α → Answer) :
    (p >>= fun a => return f a).Follows m.keeps
      (fun h _ => serviceLock.entered h = none) [] :=
  follows_continue hp rfl fun _ _ hfree => Prog.follows_ret.2 hfree

theorem follows_method (crypto : Crypto) (m : Method) :
    (m.program crypto).Follows m.ok m.fin [] := by
  have hreads {α : Type} {p : M α} (hp : p.Only Op.Reads) : p.Only Op.Free :=
    hp.mono fun _ hop => hop.free
  have hread : Op.read.Free := trivial
  have hnow : Op.now.Free := trivial
  cases m with
  | evaluateSnapshot now cpuPercent =>
    exact Prog.follows_bind.2 ((follows_evaluateSnapshot now cpuPercent).mono
      (fun _ _ _ hok => hok) fun _ _ _ hfin => Prog.follows_ret.2 hfin)
  | cleanupOldEvents =>
    exact Prog.follows_bind.2 (follows_cleanupOldEvents.mono (fun _ _ _ hok => hok)
      fun _ _ _ hfree => Prog.follows_ret.2 ⟨hfree, trivial⟩)
  | updateConfig input =>
    refine Prog.follows_bind.2 ((follows_updateConfig crypto input).mono (fun _ _ _ hok => hok)
      fun _ a _ hfin => Prog.follows_ret.2 ⟨hfin.1, fun view heq => hfin.2 view ?_⟩)
    cases heq
    rfl
  | setSilence minutes =>
    refine Prog.follows_bind.2 ((follows_setSilence minutes).mono (fun _ _ _ hok => hok)
      fun _ a _ hfin => Prog.follows_ret.2 ⟨hfin.1, fun until_ heq => hfin.2 until_ ?_⟩)
    cases heq
    rfl
  | clearSilence =>
    have hsec (s : Service) : Method.clearSilence.section s (s.silence none) := rfl
    exact Prog.follows_bind.2 ((follows_setWindow hsec rfl).mono (fun _ _ _ hok => hok)
      fun _ _ _ hfin => Prog.follows_ret.2 ⟨hfin.1, trivial⟩)
  | triggerTest =>
    exact (follows_answer only_triggerTest _ _).mono (fun _ _ _ hok => hok)
      fun _ _ _ hfree => ⟨hfree, trivial⟩
  | configView readOnly =>
    exact Prog.follows_call.2 ⟨hread.keeps _ _, fun s =>
      Prog.follows_ret.2 ⟨rfl, s, rfl, rfl⟩⟩
  | status readOnly =>
    exact Prog.follows_call.2 ⟨hread.keeps _ _, fun s =>
      Prog.follows_call.2 ⟨hnow.keeps _ _, fun now =>
        Prog.follows_ret.2 ⟨rfl, s, now, rfl, rfl⟩⟩⟩
  | isEnabled =>
    exact Prog.follows_call.2 ⟨hread.keeps _ _, fun s =>
      Prog.follows_ret.2 ⟨rfl, s, rfl, rfl⟩⟩
  | listHistory limit beforeID =>
    exact (follows_answer (hreads (only_listHistory limit beforeID)) _ _).mono
      (fun _ _ _ hok => hok) fun _ _ _ hfree => ⟨hfree, trivial⟩
  | historyRetentionDays =>
    exact (follows_answer (hreads only_historyRetentionDays) _ _).mono (fun _ _ _ hok => hok)
      fun _ _ _ hfree => ⟨hfree, trivial⟩

/-! ## Runs -/

theorem ok_discipline (m : Method) (h : Calls) (op : Op) (hok : m.ok h op) :
    serviceLock.Ok Method.section m h op := by
  cases m with
  | evaluateSnapshot now cpuPercent => exact evaluateOk.lock hok
  | _ => exact hok.1

/-- **The methods are serial.** -/
theorem services_run {http : Http} {crypto : Crypto} {w : World} (hfree : w.locked = false)
    {acts : List ServicesAct} {v : Services}
    (h : Lts.run (Services.next http crypto) (Pool.start w) acts = some v) :
    Pool.Good Method.ok Method.fin v ∧
      serviceLock.Serial World.locked World.service Method.section w.service v :=
  Pool.Brackets.serial_run (serviceLock_guard http) ok_discipline (follows_method crypto) hfree h

end QuickVps.Alerts
