import QuickVps.Alerts.Notifier

/-!
# The notifier's accounts

The fields `sendTelegram` and `sendEmail` of a `Notifier` are any functions, so here they are calls
that the environment answers, as are the context and the pauses.

* `Notifier.notify` — the notifier over those calls; `subst_notify`: with the senders of
  `NewNotifier` it is `notify`;
* `Outcomes` — what the two functions return, call by call, and when the context is done;
* `Tried` — the calls of one channel, attempt by attempt, with what `retry` returns;
* `Accounted` — what a result says about them.

**Main result.** `notify_exact`: for all outcomes there is one result for each enabled channel,
Telegram first, and it accounts for the calls of its channel; where the context is never done, that
of the mail channel does not depend on Telegram.
-/

namespace QuickVps.Alerts

open Go

namespace Notifier

/-- What the send functions are called with, besides the context. -/
inductive Message where
  | telegram (token : String) (chatIDs : Option (List String)) (text : String)
  | email (from_ appPassword : String) (to_ : Option (List String)) (subject body : String)
  deriving DecidableEq

/-- A call of a send function, the question whether the context is done, and a pause. -/
inductive Op where
  | send (m : Message)
  | ctxErr
  | sleep (duration : Int)
  deriving DecidableEq

abbrev Op.Ans : Op → Type
  | send _ => Except String Unit
  | ctxErr => Option String
  | sleep _ => Unit

abbrev Program := Prog Op Op.Ans

abbrev Call := Prog.Call Op Op.Ans

def send (m : Message) : Program (Except String Unit) := Prog.op (Op.send m)

/-- One attempt a delay, with that pause after each failed one but the last. -/
def retryLoop (fn : Program (Except String Unit)) :
    List Int → Nat → Program (Option String × Nat)
  | [], attempts => return (some "notification failed", attempts)
  | delay :: rest, attempts => do
    match ← fn with
    | .ok () => return (none, attempts + 1)
    | .error err =>
      if rest = [] then return (some err, attempts + 1)
      else
        match ← (Prog.op Op.ctxErr : Program (Option String)) with
        | some done => return (some done, attempts + 1)
        | none => do
          (Prog.op (Op.sleep (seconds delay)) : Program Unit)
          retryLoop fn rest (attempts + 1)

def retry (delays : List Int) (fn : Program (Except String Unit)) :
    Program (Option String × Nat) :=
  retryLoop fn (if delays = [] then [0] else delays) 0

def telegramMessage (cfg : Config) (secrets : Secrets) (message : String) : Message :=
  .telegram (trim secrets.telegramBotToken) cfg.telegramChatIDs message

def emailMessage (cfg : Config) (secrets : Secrets) (level : Level) (message : String) : Message :=
  .email (trim secrets.gmailAddress) (trim secrets.gmailAppPassword) cfg.recipientEmails
    ("[QuickVPS] CPU " ++ level.upper) message

/-- The result of a channel, if it is enabled. -/
def notifyChannel (channel : String) (enabled : Bool) (delays : List Int) (m : Message) :
    Program (List ChannelResult) := do
  if enabled then
    let result ← retry delays (send m)
    return [channelResult channel result]
  else return []

def notify (cfg : Config) (secrets : Secrets) (level : Level) (message : String) :
    Program (List ChannelResult) := do
  let telegram ← notifyChannel "telegram" cfg.telegramEnabled (retryDelays cfg)
    (telegramMessage cfg secrets message)
  let email ← notifyChannel "email" cfg.emailEnabled (retryDelays cfg)
    (emailMessage cfg secrets level message)
  return telegram ++ email

/-! ## The senders of `NewNotifier` -/

def defaultSenders : (op : Op) → Alerts.M op.Ans
  | .send (.telegram token chatIDs text) => sendTelegramDefault token chatIDs text
  | .send (.email from_ appPassword to_ subject body) =>
    sendEmailDefault from_ appPassword to_ subject body
  | .ctxErr => Prog.op Alerts.Op.ctxErr
  | .sleep duration => Prog.op (Alerts.Op.sleep duration)

theorem subst_retryLoop (m : Message) (delays : List Int) (attempts : Nat) :
    (retryLoop (send m) delays attempts).subst defaultSenders =
      Alerts.retryLoop (defaultSenders (.send m)) delays attempts := by
  induction delays generalizing attempts with
  | nil => rfl
  | cons delay rest ih =>
    unfold retryLoop Alerts.retryLoop send
    rw [Prog.subst_bind, Prog.subst_op]
    refine congrArg _ (funext fun outcome => ?_)
    cases outcome with
    | ok _ => rfl
    | error err =>
      dsimp only
      split_ifs
      · rfl
      · rw [Prog.subst_bind, Prog.subst_op]
        refine congrArg _ (funext fun done => ?_)
        cases done with
        | some done => rfl
        | none =>
          dsimp only
          rw [Prog.subst_bind, Prog.subst_op]
          exact congrArg _ (funext fun _ => ih (attempts + 1))

theorem subst_notifyChannel (channel : String) (enabled : Bool) (delays : List Int) (m : Message) :
    (notifyChannel channel enabled delays m).subst defaultSenders = (do
      if enabled then
        let result ← Alerts.retry delays (defaultSenders (.send m))
        return [channelResult channel result]
      else return []) := by
  unfold notifyChannel retry Alerts.retry
  cases enabled with
  | false => rfl
  | true =>
    simp only [if_true]
    rw [Prog.subst_bind, subst_retryLoop]
    rfl

/-- **The faithful notifier is this one with its default senders.** -/
theorem subst_notify (cfg : Config) (secrets : Secrets) (level : Level) (message : String) :
    (notify cfg secrets level message).subst defaultSenders =
      Alerts.notify cfg secrets level message := by
  unfold notify
  simp only [Prog.subst_bind, subst_notifyChannel]
  rfl

/-! ## Outcomes -/

def Op.toTelegram : Op → Bool
  | .send (.telegram ..) => true
  | _ => false

def Op.toEmail : Op → Bool
  | .send (.email ..) => true
  | _ => false

def telegramCalls (calls : List Call) : Nat := calls.countP fun c => c.1.toTelegram

def emailCalls (calls : List Call) : Nat := calls.countP fun c => c.1.toEmail

/-- What the send functions return, call by call, and what the context says after so many calls of
any kind. -/
structure Outcomes where
  telegram : Nat → Except String Unit
  email : Nat → Except String Unit
  done : Nat → Option String

namespace Outcomes

def answer (o : Outcomes) (calls : List Call) : (op : Op) → op.Ans
  | .send (.telegram ..) => o.telegram (telegramCalls calls)
  | .send (.email ..) => o.email (emailCalls calls)
  | .ctxErr => o.done calls.length
  | .sleep _ => ()

/-- The context is never cancelled. -/
def NeverDone (o : Outcomes) : Prop := ∀ n, o.done n = none

/-- The results of `Notify` and the calls that it made. -/
def notify (o : Outcomes) (cfg : Config) (secrets : Secrets) (level : Level) (message : String) :
    List ChannelResult × List Call :=
  (Notifier.notify cfg secrets level message).play o.answer []

end Outcomes

/-! ## The calls of one channel -/

/-- The calls of `retry` on the delays that are left, and what it returns. -/
inductive Tried (m : Message) : List Int → List Call → Option String × Nat → Prop
  | sent (delay : Int) (rest : List Int) : Tried m (delay :: rest) [⟨.send m, .ok ()⟩] (none, 1)
  | last (delay : Int) (err : String) : Tried m [delay] [⟨.send m, .error err⟩] (some err, 1)
  | done (delay next : Int) (rest : List Int) (err done : String) :
    Tried m (delay :: next :: rest) [⟨.send m, .error err⟩, ⟨.ctxErr, some done⟩] (some done, 1)
  | again {delay next : Int} {rest : List Int} (err : String) {calls : List Call}
    {result : Option String × Nat} (h : Tried m (next :: rest) calls result) :
    Tried m (delay :: next :: rest)
      (⟨.send m, .error err⟩ :: ⟨.ctxErr, none⟩ :: ⟨.sleep (seconds delay), ()⟩ :: calls)
      (result.1, result.2 + 1)

theorem retryLoop_tried (o : Outcomes) (m : Message) {delays : List Int} (hne : delays ≠ [])
    (attempts : Nat) (past : List Call) :
    ∃ calls result, Tried m delays calls result ∧
      (retryLoop (send m) delays attempts).play o.answer past =
        ((result.1, attempts + result.2), past ++ calls) := by
  induction delays generalizing attempts past with
  | nil => exact absurd rfl hne
  | cons delay rest ih =>
    unfold retryLoop send
    rw [Prog.play_bind, Prog.play_op]
    cases hsend : o.answer past (.send m) with
    | ok u => exact ⟨_, _, .sent delay rest, rfl⟩
    | error err =>
      dsimp only
      cases rest with
      | nil => exact ⟨_, _, .last delay err, rfl⟩
      | cons next rest =>
        rw [if_neg (List.cons_ne_nil _ _), Prog.play_bind, Prog.play_op]
        cases hdone : o.answer (past ++ [(⟨.send m, .error err⟩ : Call)]) .ctxErr with
        | some done =>
          refine ⟨_, _, .done delay next rest err done, ?_⟩
          simp
        | none =>
          obtain ⟨calls, result, htried, hplay⟩ := ih (List.cons_ne_nil _ _) (attempts + 1)
            (past ++ [(⟨.send m, .error err⟩ : Call)] ++ [(⟨.ctxErr, none⟩ : Call)] ++
              [(⟨.sleep (seconds delay), ()⟩ : Call)])
          refine ⟨_, _, .again err htried, ?_⟩
          dsimp only
          rw [Prog.play_bind]
          refine hplay.trans ?_
          simp [Nat.add_comm, Nat.add_left_comm]

/-! ### What they add up to -/

/-- What a send function returned. -/
def outcome : Call → Option (Except String Unit)
  | ⟨.send _, r⟩ => some r
  | _ => none

/-- How long a pause was. -/
def pause : Call → Option Int
  | ⟨.sleep duration, _⟩ => some duration
  | _ => none

@[simp] theorem outcome_send (m : Message) (r : Except String Unit) :
    outcome ⟨.send m, r⟩ = some r := rfl

@[simp] theorem outcome_ctxErr (r : Option String) : outcome ⟨.ctxErr, r⟩ = none := rfl

@[simp] theorem outcome_sleep (d : Int) (r : Unit) : outcome ⟨.sleep d, r⟩ = none := rfl

@[simp] theorem pause_send (m : Message) (r : Except String Unit) : pause ⟨.send m, r⟩ = none := rfl

@[simp] theorem pause_ctxErr (r : Option String) : pause ⟨.ctxErr, r⟩ = none := rfl

@[simp] theorem pause_sleep (d : Int) (r : Unit) : pause ⟨.sleep d, r⟩ = some d := rfl

/-- A success, or a wait at which the context was seen to be done. -/
def Ends : Call → Prop
  | ⟨.send _, .ok _⟩ => True
  | ⟨.ctxErr, some _⟩ => True
  | _ => False

/-- The result of a channel accounts for its calls. -/
structure Accounted (m : Message) (delays : List Int) (calls : List Call) (r : ChannelResult) :
    Prop where
  sends : ∀ c ∈ calls, ∀ m', c.1 = .send m' → m' = m
  attempts : r.attempts = (calls.filterMap outcome).length
  attempts_pos : 1 ≤ r.attempts
  attempts_le : r.attempts ≤ delays.length
  success : r.success = true ↔ (calls.filterMap outcome).getLast? = some (.ok ())
  ends : ∀ c ∈ calls.dropLast, ¬ Ends c
  waits : calls.filterMap pause <+: delays.dropLast.map seconds

namespace Tried

variable {m : Message} {delays : List Int} {calls : List Call} {result : Option String × Nat}

theorem calls_ne_nil (h : Tried m delays calls result) : calls ≠ [] := by
  cases h <;> simp

theorem sends (h : Tried m delays calls result) :
    ∀ c ∈ calls, ∀ m', c.1 = .send m' → m' = m := by
  induction h with
  | sent => simp
  | last => simp
  | done => simp
  | again err h ih =>
    simp only [List.mem_cons]
    rintro c (rfl | rfl | rfl | hc) m' hm'
    · cases hm'
      rfl
    · cases hm'
    · cases hm'
    · exact ih c hc m' hm'

theorem attempts (h : Tried m delays calls result) :
    result.2 = (calls.filterMap outcome).length := by
  induction h with
  | sent => rfl
  | last => rfl
  | done => rfl
  | again err h ih =>
    rw [List.filterMap_cons_some (outcome_send _ _), List.filterMap_cons_none (outcome_ctxErr _),
      List.filterMap_cons_none (outcome_sleep _ _), List.length_cons, ih]

theorem attempts_pos (h : Tried m delays calls result) : 1 ≤ result.2 := by
  cases h <;> simp

theorem attempts_le (h : Tried m delays calls result) : result.2 ≤ delays.length := by
  induction h with
  | sent => simp
  | last => simp
  | done => simp
  | again err h ih => exact Nat.succ_le_succ ih

/-- The first call is an attempt. -/
theorem outcomes_ne_nil (h : Tried m delays calls result) : calls.filterMap outcome ≠ [] := by
  cases h <;> exact nofun

theorem success (h : Tried m delays calls result) :
    result.1 = none ↔ (calls.filterMap outcome).getLast? = some (.ok ()) := by
  induction h with
  | sent => exact iff_of_true rfl rfl
  | last => exact iff_of_false nofun nofun
  | done => exact iff_of_false nofun nofun
  | again err h ih =>
    rw [List.filterMap_cons_some (outcome_send _ _), List.filterMap_cons_none (outcome_ctxErr _),
      List.filterMap_cons_none (outcome_sleep _ _),
      List.getLast?_cons_of_ne_nil h.outcomes_ne_nil]
    exact ih

theorem ends (h : Tried m delays calls result) : ∀ c ∈ calls.dropLast, ¬ Ends c := by
  induction h with
  | sent => simp
  | last => simp
  | done => simp [Ends]
  | again err h ih =>
    have hne := h.calls_ne_nil
    simp only [List.dropLast_cons_of_ne_nil hne, List.dropLast_cons_cons, List.mem_cons]
    rintro c (rfl | rfl | rfl | hc)
    · exact not_false
    · exact not_false
    · exact not_false
    · exact ih c hc

theorem waits (h : Tried m delays calls result) :
    calls.filterMap pause <+: delays.dropLast.map seconds := by
  induction h with
  | sent => exact List.nil_prefix
  | last => exact List.nil_prefix
  | done => exact List.nil_prefix
  | again err h ih =>
    rw [List.filterMap_cons_none (pause_send _ _), List.filterMap_cons_none (pause_ctxErr _),
      List.filterMap_cons_some (pause_sleep _ _), List.dropLast_cons_cons, List.map_cons]
    exact (List.prefix_cons_inj _).2 ih

/-- Where nothing ends the attempts, all but the last delay are waited for. -/
theorem waits_eq (h : Tried m delays calls result) (hends : ∀ c ∈ calls, ¬ Ends c) :
    calls.filterMap pause = delays.dropLast.map seconds := by
  induction h with
  | sent => exact absurd trivial (hends _ List.mem_cons_self)
  | last => rfl
  | done => exact absurd trivial (hends _ (List.mem_cons_of_mem _ List.mem_cons_self))
  | again err h ih =>
    rw [List.filterMap_cons_none (pause_send _ _), List.filterMap_cons_none (pause_ctxErr _),
      List.filterMap_cons_some (pause_sleep _ _), List.dropLast_cons_cons, List.map_cons,
      ih fun c hc => hends c (by simp [hc])]

theorem accounted (channel : String) (h : Tried m delays calls result) :
    Accounted m delays calls (channelResult channel result) := by
  obtain ⟨err, n⟩ := result
  have hattempts : (channelResult channel (err, n)).attempts = n := by
    cases err <;> rfl
  have hsuccess : (channelResult channel (err, n)).success = true ↔ err = none := by
    cases err <;> simp [channelResult]
  exact {
    sends := h.sends
    attempts := hattempts.trans h.attempts
    attempts_pos := h.attempts_pos.trans_eq hattempts.symm
    attempts_le := hattempts.trans_le h.attempts_le
    success := hsuccess.trans h.success
    ends := h.ends
    waits := h.waits }

end Tried

/-! ## Both channels -/

/-- One result that accounts for the calls, if the channel is enabled; else none of either. -/
structure ChannelExact (channel : String) (enabled : Bool) (m : Message) (delays : List Int)
    (results : List ChannelResult) (calls : List Call) : Prop where
  disabled : enabled = false → results = [] ∧ calls = []
  enabled : enabled = true → ∃ r, results = [r] ∧ r.channel = channel ∧ Accounted m delays calls r

theorem notifyChannel_exact (o : Outcomes) (channel : String) (enabled : Bool) {delays : List Int}
    (hne : delays ≠ []) (m : Message) (past : List Call) :
    ∃ results calls, ChannelExact channel enabled m delays results calls ∧
      (notifyChannel channel enabled delays m).play o.answer past = (results, past ++ calls) := by
  unfold notifyChannel
  cases enabled with
  | false => exact ⟨[], [], ⟨fun _ => ⟨rfl, rfl⟩, nofun⟩, by simp⟩
  | true =>
    obtain ⟨calls, result, htried, hplay⟩ := retryLoop_tried o m hne 0 past
    refine ⟨_, calls, ⟨nofun, fun _ => ⟨_, rfl, ?_, htried.accounted channel⟩⟩, ?_⟩
    · obtain ⟨_ | _, _⟩ := result <;> rfl
    · simp only [if_true, Prog.play_bind, retry, if_neg hne, hplay, Nat.zero_add]
      rfl

theorem ChannelExact.channel_eq {channel : String} {enabled : Bool} {m : Message}
    {delays : List Int} {results : List ChannelResult} {calls : List Call}
    (h : ChannelExact channel enabled m delays results calls) :
    ∀ r ∈ results, r.channel = channel := by
  intro r hr
  cases enabled with
  | false =>
    rw [(h.disabled rfl).1] at hr
    cases hr
  | true =>
    obtain ⟨r', rfl, hchannel, -⟩ := h.enabled rfl
    rw [List.mem_singleton.1 hr, hchannel]

/-- The calls of the Telegram channel are no calls of the mail channel. -/
theorem ChannelExact.emailCalls_eq {cfg : Config} {secrets : Secrets} {message : String}
    {delays : List Int} {results : List ChannelResult} {calls : List Call}
    (h : ChannelExact "telegram" cfg.telegramEnabled (telegramMessage cfg secrets message) delays
      results calls) : emailCalls calls = 0 := by
  refine List.countP_eq_zero.2 fun c hc => ?_
  cases henabled : cfg.telegramEnabled with
  | false =>
    rw [(h.disabled henabled).2] at hc
    cases hc
  | true =>
    obtain ⟨r, -, -, hr⟩ := h.enabled henabled
    obtain ⟨op, answer⟩ := c
    cases op with
    | send m =>
      rw [hr.sends _ hc m rfl]
      exact Bool.false_ne_true
    | ctxErr => exact Bool.false_ne_true
    | sleep duration => exact Bool.false_ne_true

/-! ## The mail channel alone -/

def emailResults (results : List ChannelResult) : List ChannelResult :=
  results.filter fun r => r.channel = "email"

section Email

variable {o o' : Outcomes} (hemail : o.email = o'.email) (ho : o.NeverDone) (ho' : o'.NeverDone)

include hemail ho ho'

/-- **Step.** What `retry` returns on the mail channel depends on the outcomes of its own calls. -/
theorem retryLoop_email_eq {m : Message} (hm : (Op.send m).toEmail = true) (delays : List Int)
    (attempts : Nat) {past past' : List Call} (hpast : emailCalls past = emailCalls past') :
    ((retryLoop (send m) delays attempts).play o.answer past).1 =
      ((retryLoop (send m) delays attempts).play o'.answer past').1 := by
  obtain ⟨from_, appPassword, to_, subject, body, rfl⟩ : ∃ from_ appPassword to_ subject body,
      m = .email from_ appPassword to_ subject body := by
    cases m with
    | telegram => cases hm
    | email from_ appPassword to_ subject body => exact ⟨_, _, _, _, _, rfl⟩
  induction delays generalizing attempts past past' with
  | nil => rfl
  | cons delay rest ih =>
    unfold retryLoop send
    simp only [Prog.play_bind, Prog.play_op, Outcomes.answer, hpast, hemail]
    cases o'.email (emailCalls past') with
    | ok u => rfl
    | error err =>
      dsimp only
      split_ifs
      · rfl
      · simp only [Prog.play_bind, Prog.play_op, Outcomes.answer, ho _, ho' _]
        refine ih (attempts + 1) ?_
        simpa [emailCalls, Op.toEmail] using hpast

theorem notifyChannel_email_eq {m : Message} (hm : (Op.send m).toEmail = true) (channel : String)
    (enabled : Bool) (delays : List Int) {past past' : List Call}
    (hpast : emailCalls past = emailCalls past') :
    ((notifyChannel channel enabled delays m).play o.answer past).1 =
      ((notifyChannel channel enabled delays m).play o'.answer past').1 := by
  unfold notifyChannel retry
  cases enabled with
  | false => rfl
  | true =>
    simp only [if_true, Prog.play_bind]
    rw [retryLoop_email_eq hemail ho ho' hm _ 0 hpast]
    rfl

end Email

/-- **Main result.** For all outcomes of the two send functions and whenever the context is done,
there is one result for each enabled channel, Telegram first. It says how often the send function
was called, from once to once a delay, and whether the last call succeeded; nothing comes after a
success or after the context was seen to be done, and the pauses are the delays in order, without
the last. Where the context is never done, the result of the mail channel depends on its own
outcomes only. -/
theorem notify_exact (o : Outcomes) (cfg : Config) (secrets : Secrets) (level : Level)
    (message : String) :
    (retryDelays cfg).length =
        (if cfg.retryDelaysSec.getD [] = [] then 3 else (cfg.retryDelaysSec.getD []).length) ∧
      ∃ telegram telegramCalls email emailCalls,
        o.notify cfg secrets level message = (telegram ++ email, telegramCalls ++ emailCalls) ∧
        ChannelExact "telegram" cfg.telegramEnabled (telegramMessage cfg secrets message)
          (retryDelays cfg) telegram telegramCalls ∧
        ChannelExact "email" cfg.emailEnabled (emailMessage cfg secrets level message)
          (retryDelays cfg) email emailCalls ∧
        ∀ o' : Outcomes, o.NeverDone → o'.NeverDone → o'.email = o.email →
          emailResults (o'.notify cfg secrets level message).1 = email := by
  have hne := retryDelays_ne_nil cfg
  refine ⟨?_, ?_⟩
  · unfold retryDelays
    split_ifs <;> rfl
  obtain ⟨telegram, tcalls, htelegram, htplay⟩ := notifyChannel_exact o "telegram"
    cfg.telegramEnabled hne (telegramMessage cfg secrets message) []
  obtain ⟨email, ecalls, hemail, heplay⟩ := notifyChannel_exact o "email" cfg.emailEnabled hne
    (emailMessage cfg secrets level message) ([] ++ tcalls)
  refine ⟨telegram, tcalls, email, ecalls, ?_, htelegram, hemail, fun o' ho ho' hsame => ?_⟩
  · simp only [Outcomes.notify, notify, Prog.play_bind, htplay, heplay]
    rfl
  · -- the same two channels with the other outcomes
    obtain ⟨telegram', tcalls', htelegram', htplay'⟩ := notifyChannel_exact o' "telegram"
      cfg.telegramEnabled hne (telegramMessage cfg secrets message) []
    have hcalls : emailCalls ([] ++ tcalls') = emailCalls ([] ++ tcalls) :=
      htelegram'.emailCalls_eq.trans htelegram.emailCalls_eq.symm
    have hresult := notifyChannel_email_eq hsame ho' ho
      (rfl : (Op.send (emailMessage cfg secrets level message)).toEmail = true) "email"
      cfg.emailEnabled (retryDelays cfg) hcalls
    rw [heplay] at hresult
    have hnotify : (o'.notify cfg secrets level message).1 = telegram' ++ email := by
      simp only [Outcomes.notify, notify, Prog.play_bind, htplay']
      exact congrArg (telegram' ++ ·) hresult
    rw [hnotify, emailResults, List.filter_append,
      List.filter_eq_nil_iff.2 fun r hr => by simp [htelegram'.channel_eq r hr],
      List.filter_eq_self.2 fun r hr => by simp [hemail.channel_eq r hr], List.nil_append]

end Notifier

end QuickVps.Alerts
