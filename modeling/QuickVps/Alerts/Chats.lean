import QuickVps.Alerts.Secrecy
import Mathlib.Data.List.Count
import Mathlib.Data.List.TakeWhile

/-!
# What the chats receive

A chat accepts every message or rejects every one, with any status or transport error. The retry
loop runs the loop over the chats again from its start, and that loop ends at the first chat that
rejects: the chats before it receive the message once for each attempt, those after it never.

* `deliver` — the operations, with the messages that the chats have received;
* `sendToChats_run`, `retryLoop_run` — what one attempt and all attempts deliver;
* `receivedOnce_iff` — when every accepting chat has received the message exactly once.
-/

namespace QuickVps.Alerts

open Go

/-! ## Chats -/

/-- The messages received so far, each with its chat. -/
abbrev Inbox := List (String × String)

/-- The response lets the loop over the chats go on. -/
def Choice.accepted (c : Choice) : Bool := c.fault.isNone && decide (c.status < 300)

/-- The chat and the text of a request. -/
def messageOf : Json → Option (String × String)
  | .obj [("chat_id", .str chatID), ("text", .str text)] => some (chatID, text)
  | _ => none

/-- What a call brings to its chat. -/
def received (c : Choice) : Op → Inbox
  | .post _ body => if c.accepted then (messageOf body).toList else []
  | _ => []

def deliver (http : Http) (c : Choice) (op : Op) (s : World × Inbox) :
    Option (op.Ans × World × Inbox) :=
  (exec http c op s.1).map fun r => (r.1, r.2, s.2 ++ received c op)

/-- The response is as the chat behaves. -/
def Choice.Heeds (accepts : String → Bool) (c : Choice) : Op → Prop
  | .post _ body => ∀ m, messageOf body = some m → c.accepted = accepts m.1
  | _ => True

instance decidableHeeds (accepts : String → Bool) (c : Choice) :
    ∀ op, Decidable (c.Heeds accepts op)
  | .post _ body =>
    match h : messageOf body with
    | none => isTrue fun m hm => by rw [h] at hm; cases hm
    | some m =>
      decidable_of_iff (c.accepted = accepts m.1)
        ⟨fun heq m' hm => by rw [h] at hm; cases hm; exact heq, fun hall => hall m h⟩
  | .sql _ | .now | .read | .lock | .unlock _ | .historyDays | .nonce | .ctxErr | .sleep _
  | .newRequest _ | .sendMail .. => isTrue trivial

/-- The runs in which the chats behave so. -/
abbrev heeding (accepts : String → Bool) (http : Http) :
    Choice → (op : Op) → World × Inbox → Option (op.Ans × World × Inbox) :=
  Prog.within (Choice.Heeds accepts) (deliver http)

variable {accepts : String → Bool} {http : Http} {cs cs' : List Choice} {s s' : World × Inbox}

/-! ## One attempt -/

/-- The chats that one attempt reaches: those before the first that rejects. -/
def reached (accepts : String → Bool) (chatIDs : List String) : List String :=
  (chatIDs.map trim).takeWhile accepts

/-- What one attempt delivers. -/
def oneAttempt (accepts : String → Bool) (chatIDs : List String) (text : String) : Inbox :=
  (reached accepts chatIDs).map fun chatID => (chatID, text)

/-- A `POST` to a chat: it is delivered, or it ends the attempt. -/
theorem post_run {url chatID text : String} {a : Except String Nat}
    (h : (Prog.op (Op.post url (.obj [("chat_id", .str chatID), ("text", .str text)])) :
      M (Except String Nat)).run (heeding accepts http) cs s = some (a, cs', s')) :
    cs' = cs.drop 1 ∧
      (accepts chatID = true ∧ (∃ status < 300, a = .ok status) ∧
          s' = (s.1, s.2 ++ [(chatID, text)]) ∨
        accepts chatID = false ∧ ((∃ err, a = .error err) ∨ ∃ status ≥ 300, a = .ok status) ∧
          s' = s) := by
  obtain ⟨c, rfl, hexec⟩ := Prog.run_op h
  obtain ⟨hheeds, hexec⟩ := Prog.within_some.1 hexec
  have haccepts : c.accepted = accepts chatID := hheeds (chatID, text) rfl
  obtain ⟨⟨r, w⟩, hcall, heq⟩ := Option.map_eq_some_iff.1 hexec
  cases heq
  refine ⟨rfl, ?_⟩
  rw [← haccepts]
  cases hfault : c.fault with
  | some cause =>
    simp only [exec, hfault] at hcall
    cases hcall
    exact .inr ⟨by simp [Choice.accepted, hfault], .inl ⟨_, rfl⟩,
      by simp [received, Choice.accepted, hfault]⟩
  | none =>
    simp only [exec, hfault] at hcall
    cases hcall
    by_cases hstatus : c.status < 300
    · exact .inl ⟨by simp [Choice.accepted, hfault, hstatus], ⟨c.status, hstatus, rfl⟩,
        by simp [received, Choice.accepted, hfault, hstatus, messageOf]⟩
    · exact .inr ⟨by simp [Choice.accepted, hfault, hstatus],
        .inr ⟨c.status, Nat.le_of_not_lt hstatus, rfl⟩,
        by simp [received, Choice.accepted, hfault, hstatus]⟩

theorem newRequest_run {url : String} {a : Except String Unit}
    (h : (Prog.op (Op.newRequest url) : M (Except String Unit)).run (heeding accepts http) cs s =
      some (a, cs', s')) :
    cs' = cs.drop 1 ∧ s' = s ∧
      a = match http.parseError url with
        | some err => .error err
        | none => .ok () := by
  obtain ⟨c, rfl, hexec⟩ := Prog.run_op h
  obtain ⟨⟨r, w⟩, hcall, heq⟩ := Option.map_eq_some_iff.1 (Prog.within_some.1 hexec).2
  cases heq
  cases hparse : http.parseError url with
  | some err =>
    simp only [exec, hparse] at hcall
    cases hcall
    exact ⟨rfl, by simp [received], rfl⟩
  | none =>
    simp only [exec, hparse] at hcall
    cases hcall
    exact ⟨rfl, by simp [received], rfl⟩

/-- **One attempt** delivers to the chats before the first that rejects, and fails there. -/
theorem sendToChats_run {url text : String} (hurl : http.parseError url = none)
    {chatIDs : List String} (hblank : ∀ id ∈ chatIDs, trim id ≠ "") {a : Except String Unit}
    (h : (sendToChats url text chatIDs).run (heeding accepts http) cs s = some (a, cs', s')) :
    s' = (s.1, s.2 ++ oneAttempt accepts chatIDs text) ∧
      (a = .ok () ∧ (∀ id ∈ chatIDs, accepts (trim id) = true) ∨
        (∃ err, a = .error err) ∧ (∃ id ∈ chatIDs, accepts (trim id) = false) ∧
          cs' = cs.drop (2 * ((reached accepts chatIDs).length + 1))) := by
  induction chatIDs generalizing cs s with
  | nil =>
    obtain ⟨rfl, -, rfl⟩ := Prog.run_ret h
    exact ⟨by simp [oneAttempt, reached], .inl ⟨rfl, by simp⟩⟩
  | cons id rest ih =>
    have hid := hblank id List.mem_cons_self
    have hrest := fun id' hid' => hblank id' (List.mem_cons_of_mem _ hid')
    simp only [sendToChats, if_neg hid] at h
    obtain ⟨requested, ds, t, hrequest, hnext⟩ := Prog.run_bind h
    obtain ⟨hds, rfl, hrequested⟩ := newRequest_run hrequest
    rw [hurl] at hrequested
    subst hrequested
    obtain ⟨posted, es, u, hpost, hend⟩ := Prog.run_bind hnext
    obtain ⟨hes, ⟨haccepts, ⟨status, hstatus, rfl⟩, rfl⟩ | ⟨hrejects, hposted, rfl⟩⟩ :=
      post_run hpost
    · rw [hds, List.drop_drop] at hes
      simp only [if_neg (Nat.not_le_of_lt hstatus)] at hend
      obtain ⟨hs', hresult⟩ := ih hrest hend
      have hreached : reached accepts (id :: rest) = trim id :: reached accepts rest := by
        rw [reached, List.map_cons, List.takeWhile_cons_of_pos haccepts]
        rfl
      refine ⟨?_, ?_⟩
      · rw [hs', oneAttempt, oneAttempt, hreached, List.map_cons, List.append_assoc]
        rfl
      · rcases hresult with ⟨rfl, hall⟩ | ⟨herr, ⟨id', hid', hrejects⟩, hcs'⟩
        · exact .inl ⟨rfl, List.forall_mem_cons.2 ⟨haccepts, hall⟩⟩
        · refine .inr ⟨herr, ⟨id', List.mem_cons_of_mem _ hid', hrejects⟩, ?_⟩
          rw [hcs', hes, List.drop_drop, hreached, List.length_cons]
          congr 1
          omega
    · have hreached : reached accepts (id :: rest) = [] := by
        rw [reached, List.map_cons, List.takeWhile_cons_of_neg (by simp [hrejects])]
      have hfailed : (∃ err, a = .error err) ∧ cs' = es ∧ s' = u := by
        rcases hposted with ⟨err, rfl⟩ | ⟨status, hstatus, rfl⟩
        · obtain ⟨rfl, rfl, rfl⟩ := Prog.run_ret hend
          exact ⟨⟨err, rfl⟩, rfl, rfl⟩
        · simp only [if_pos hstatus] at hend
          obtain ⟨rfl, rfl, rfl⟩ := Prog.run_ret hend
          exact ⟨⟨_, rfl⟩, rfl, rfl⟩
      obtain ⟨herr, rfl, rfl⟩ := hfailed
      refine ⟨by simp [oneAttempt, hreached], .inr ⟨herr, ⟨id, List.mem_cons_self, hrejects⟩, ?_⟩⟩
      rw [hes, hds, List.drop_drop, hreached]
      rfl

/-! ## All attempts -/

/-- The context is done when call number `n` asks. -/
def ContextDone (cs : List Choice) (n : Nat) : Prop :=
  Prog.ChoiceAt (fun c => c.ctxErr ≠ none) cs n

/-- **Attempts that all fail** deliver the same messages each time. There is one if and only if
there is one delay, or the context is done after the first. -/
theorem retryLoop_run {fn : M (Except String Unit)} {msgs : Inbox} {n : Nat}
    (hfn : ∀ {cs cs' : List Choice} {s s' : World × Inbox} {a : Except String Unit},
      fn.run (heeding accepts http) cs s = some (a, cs', s') →
        (∃ err, a = .error err) ∧ s' = (s.1, s.2 ++ msgs) ∧ cs' = cs.drop n)
    {delays : List Int} (hdelays : delays ≠ []) {attempts : Nat} {r : Option String × Nat}
    (h : (retryLoop fn delays attempts).run (heeding accepts http) cs s = some (r, cs', s')) :
    ∃ k, 0 < k ∧ s'.2 = s.2 ++ (List.replicate k msgs).flatten ∧
      (k = 1 ↔ delays.length = 1 ∨ ContextDone cs n) := by
  induction delays generalizing cs s attempts with
  | nil => exact absurd rfl hdelays
  | cons delay rest ih =>
    obtain ⟨a, ds, t, hattempt, hnext⟩ := Prog.run_bind h
    obtain ⟨⟨err, rfl⟩, rfl, hds⟩ := hfn hattempt
    simp only at hnext
    split_ifs at hnext with hrest
    · obtain ⟨-, -, rfl⟩ := Prog.run_ret hnext
      exact ⟨1, Nat.one_pos, by simp, by simp [hrest]⟩
    · obtain ⟨done, es, u, hasked, hend⟩ := Prog.run_bind hnext
      obtain ⟨c, hc, hexec⟩ := Prog.run_op hasked
      obtain ⟨-, hexec⟩ := Prog.within_some.1 hexec
      simp only [deliver, exec, received, List.append_nil, Option.map_some, Option.some.injEq,
        Prod.mk.injEq] at hexec
      obtain ⟨rfl, rfl⟩ := hexec
      have hdone : ContextDone cs n ↔ c.ctxErr ≠ none := by
        have hdrop : Prog.ChoiceAt (fun c : Choice => c.ctxErr ≠ none) (cs.drop n) 0 ↔
            ContextDone cs (n + 0) := Prog.choiceAt_drop
        rw [← Nat.add_zero n, ← hdrop, ← hds, hc, Prog.choiceAt_zero]
      rw [hdone]
      cases hctx : c.ctxErr with
      | some done =>
        rw [hctx] at hend
        obtain ⟨-, -, rfl⟩ := Prog.run_ret hend
        exact ⟨1, Nat.one_pos, by simp, by simp⟩
      | none =>
        rw [hctx] at hend
        obtain ⟨_, fs, v, hslept, hloop⟩ := Prog.run_bind hend
        obtain ⟨c', -, hexec'⟩ := Prog.run_op hslept
        obtain ⟨-, hexec'⟩ := Prog.within_some.1 hexec'
        simp only [deliver, exec, received, List.append_nil, Option.map_some, Option.some.injEq,
          Prod.mk.injEq, true_and] at hexec'
        subst hexec'
        obtain ⟨k, hk, hinbox, -⟩ := ih hrest hloop
        refine ⟨k + 1, Nat.succ_pos k, ?_, ?_⟩
        · rw [hinbox, List.replicate_succ, List.flatten_cons, List.append_assoc]
        · exact iff_of_false (by omega) (by simp [hrest])

/-! ## Notify -/

/-- The mails that follow bring nothing to the chats. -/
theorem notifyEmail_run {cfg : Config} {secrets : Secrets} {level : Level} {message : String}
    {a : List ChannelResult}
    (h : (notifyEmail cfg secrets level message).run (heeding accepts http) cs s =
      some (a, cs', s')) :
    s'.2 = s.2 := by
  refine (plain_notifyEmail cfg secrets level message).run_keeps (I := fun t => t.2 = s.2)
    (fun c op t r t' hop hexec ht => ?_) h rfl
  obtain ⟨⟨r', w⟩, -, heq⟩ := Option.map_eq_some_iff.1 (Prog.within_some.1 hexec).2
  cases heq
  cases op with
  | post => exact hop.elim
  | _ => simpa [received] using ht

/-- The chat ids that are sent to. -/
def Config.chats (cfg : Config) : List String := cfg.telegramChatIDs.getD []

/-- The requests to Telegram can be made. -/
def CanSend (http : Http) (secrets : Secrets) : Prop :=
  trim secrets.telegramBotToken ≠ "" ∧
    http.parseError (telegramURL (trim secrets.telegramBotToken)) = none

/-- There is one delay, or the context is done after the first attempt, whose calls are two for each
chat up to the first that rejects. -/
def OneAttempt (accepts : String → Bool) (cfg : Config) (cs : List Choice) : Prop :=
  (retryDelays cfg).length = 1 ∨
    ContextDone cs (2 * ((reached accepts cfg.chats).length + 1))

/-- **The exact condition.** No chat accepts; or the requests can be made, and no chat rejects, or
those that do come after all that accept and there is one attempt. -/
def DeliversOnce (accepts : String → Bool) (http : Http) (cfg : Config) (secrets : Secrets)
    (cs : List Choice) : Prop :=
  (∀ id ∈ cfg.chats, accepts (trim id) = false) ∨
    CanSend http secrets ∧
      ((∀ id ∈ cfg.chats, accepts (trim id) = true) ∨
        (∀ id ∈ (cfg.chats.map trim).dropWhile accepts, accepts id = false) ∧
          OneAttempt accepts cfg cs)

/-- Without a token, without chats, or with a token that makes no URL, every attempt fails before
its first request. -/
theorem sendTelegram_cannot (accepts : String → Bool) {cfg : Config} {secrets : Secrets}
    (message : String) (hblank : ∀ id ∈ cfg.chats, trim id ≠ "")
    (hcannot : ¬ CanSend http secrets ∨ cfg.chats = []) :
    ∃ n, ∀ {cs cs' : List Choice} {s s' : World × Inbox} {a : Except String Unit},
      (sendTelegramDefault (trim secrets.telegramBotToken) cfg.telegramChatIDs message).run
        (heeding accepts http) cs s = some (a, cs', s') →
      (∃ err, a = .error err) ∧ s' = (s.1, s.2 ++ []) ∧ cs' = cs.drop n := by
  unfold sendTelegramDefault
  by_cases htoken : trim secrets.telegramBotToken = ""
  · rw [if_pos htoken]
    refine ⟨0, fun h => ?_⟩
    obtain ⟨rfl, rfl, rfl⟩ := Prog.run_ret h
    exact ⟨⟨_, rfl⟩, by simp, rfl⟩
  · rw [if_neg htoken]
    change ∃ n, ∀ {cs cs' : List Choice} {s s' : World × Inbox} {a : Except String Unit},
      (if cfg.chats = [] then _ else _ : M (Except String Unit)).run _ _ _ = _ → _
    by_cases hchats : cfg.chats = []
    · rw [if_pos hchats]
      refine ⟨0, fun h => ?_⟩
      obtain ⟨rfl, rfl, rfl⟩ := Prog.run_ret h
      exact ⟨⟨_, rfl⟩, by simp, rfl⟩
    · rw [if_neg hchats]
      obtain ⟨id, rest, hcons⟩ := List.exists_cons_of_ne_nil hchats
      have hid := hblank id (by simp [hcons])
      have hurl : http.parseError (telegramURL (trim secrets.telegramBotToken)) ≠ none :=
        fun hurl => hcannot.elim (fun hnot => hnot ⟨htoken, hurl⟩) hchats
      obtain ⟨err, herr⟩ := Option.ne_none_iff_exists'.1 hurl
      refine ⟨1, fun {cs cs' s s' a} h => ?_⟩
      change (sendToChats _ message cfg.chats).run _ _ _ = _ at h
      rw [hcons] at h
      simp only [sendToChats, if_neg hid] at h
      obtain ⟨requested, ds, t, hrequest, hend⟩ := Prog.run_bind h
      obtain ⟨rfl, rfl, rfl⟩ := newRequest_run hrequest
      rw [herr] at hend
      obtain ⟨rfl, rfl, rfl⟩ := Prog.run_ret hend
      exact ⟨⟨_, rfl⟩, by simp, rfl⟩

/-- What all attempts bring to the chats. -/
theorem notifyTelegram_run {cfg : Config} {secrets : Secrets} {message : String}
    (henabled : cfg.telegramEnabled = true) (hblank : ∀ id ∈ cfg.chats, trim id ≠ "")
    {a : List ChannelResult}
    (h : (notifyTelegram cfg secrets message).run (heeding accepts http) cs s =
      some (a, cs', s')) :
    (¬ CanSend http secrets ∨ cfg.chats = []) ∧ s'.2 = s.2 ∨
      CanSend http secrets ∧ (∀ id ∈ cfg.chats, accepts (trim id) = true) ∧
          s'.2 = s.2 ++ oneAttempt accepts cfg.chats message ∨
        CanSend http secrets ∧ (∃ id ∈ cfg.chats, accepts (trim id) = false) ∧
          ∃ k, 0 < k ∧
            s'.2 = s.2 ++ (List.replicate k (oneAttempt accepts cfg.chats message)).flatten ∧
              (k = 1 ↔ OneAttempt accepts cfg cs) := by
  unfold notifyTelegram retry at h
  rw [if_pos henabled, if_neg (retryDelays_ne_nil cfg)] at h
  obtain ⟨r, ds, t, hretry, hend⟩ := Prog.run_bind h
  obtain ⟨-, -, rfl⟩ := Prog.run_ret hend
  by_cases hcannot : ¬ CanSend http secrets ∨ cfg.chats = []
  · obtain ⟨n, hfn⟩ := sendTelegram_cannot accepts message hblank hcannot
    obtain ⟨k, -, hinbox, -⟩ := retryLoop_run hfn (retryDelays_ne_nil cfg) hretry
    exact .inl ⟨hcannot, by simpa using hinbox⟩
  · rw [not_or, not_not] at hcannot
    obtain ⟨hcan, hchats⟩ := hcannot
    refine .inr ?_
    have hfn : sendTelegramDefault (trim secrets.telegramBotToken) cfg.telegramChatIDs message =
        sendToChats (telegramURL (trim secrets.telegramBotToken)) message cfg.chats := by
      unfold sendTelegramDefault
      rw [if_neg hcan.1]
      exact if_neg hchats
    rw [hfn] at hretry
    by_cases hall : ∀ id ∈ cfg.chats, accepts (trim id) = true
    · refine .inl ⟨hcan, hall, ?_⟩
      obtain ⟨delay, rest, hdelays⟩ := List.exists_cons_of_ne_nil (retryDelays_ne_nil cfg)
      rw [hdelays] at hretry
      obtain ⟨a, es, u, hattempt, hnext⟩ := Prog.run_bind hretry
      obtain ⟨rfl, ⟨rfl, -⟩ | ⟨-, ⟨id, hid, hrejects⟩, -⟩⟩ :=
        sendToChats_run hcan.2 hblank hattempt
      · obtain ⟨-, -, rfl⟩ := Prog.run_ret hnext
        rfl
      · rw [hall id hid] at hrejects
        cases hrejects
    · have hsome : ∃ id ∈ cfg.chats, accepts (trim id) = false := by simpa using hall
      refine .inr ⟨hcan, hsome, retryLoop_run (fun hattempt => ?_) (retryDelays_ne_nil cfg) hretry⟩
      obtain ⟨rfl, ⟨-, haccepts⟩ | ⟨herr, -, hcs⟩⟩ := sendToChats_run hcan.2 hblank hattempt
      · exact absurd haccepts hall
      · exact ⟨herr, rfl, hcs⟩

/-- A chat is in one attempt once, if it is reached. -/
theorem count_oneAttempt {chatIDs : List String} {text chatID : String}
    (hdistinct : (chatIDs.map trim).Nodup) :
    (oneAttempt accepts chatIDs text).count (chatID, text) =
      if chatID ∈ reached accepts chatIDs then 1 else 0 := by
  have hinjective : Function.Injective fun chatID : String => (chatID, text) :=
    fun _ _ h => congrArg Prod.fst h
  have hnodup : (reached accepts chatIDs).Nodup := hdistinct.sublist (List.takeWhile_sublist _)
  rw [oneAttempt, List.count_map_of_injective _ _ hinjective, hnodup.count]

/-- The chats that accept are all reached exactly if the others come after them. -/
theorem forall_reached_iff {chatIDs : List String} (hdistinct : (chatIDs.map trim).Nodup) :
    (∀ id ∈ chatIDs, accepts (trim id) = true → trim id ∈ reached accepts chatIDs) ↔
      ∀ id ∈ (chatIDs.map trim).dropWhile accepts, accepts id = false := by
  have hsplit := List.takeWhile_append_dropWhile (p := accepts) (l := chatIDs.map trim)
  rw [← hsplit, List.nodup_append] at hdistinct
  constructor
  · intro hreached id hid
    by_contra haccepts
    obtain ⟨raw, hraw, rfl⟩ := List.mem_map.1 ((List.dropWhile_sublist _).subset hid)
    have htaken := hreached raw hraw (by simpa using haccepts)
    exact hdistinct.2.2 _ htaken _ hid rfl
  · intro hdropped id hid haccepts
    have hmem : trim id ∈ chatIDs.map trim := List.mem_map_of_mem hid
    rw [← hsplit] at hmem
    refine (List.mem_append.1 hmem).resolve_right fun hdrop => ?_
    rw [hdropped _ hdrop] at haccepts
    cases haccepts

/-- **When every accepting chat receives the message exactly once.** -/
theorem receivedOnce_iff {cfg : Config} {secrets : Secrets} {level : Level} {message : String}
    {w w' : World} {inbox : Inbox} (henabled : cfg.telegramEnabled = true)
    (hblank : ∀ id ∈ cfg.chats, trim id ≠ "") (hdistinct : (cfg.chats.map trim).Nodup)
    {a : List ChannelResult}
    (h : (notify cfg secrets level message).run (heeding accepts http) cs (w, []) =
      some (a, cs', w', inbox)) :
    (∀ id ∈ cfg.chats, accepts (trim id) = true → inbox.count (trim id, message) = 1) ↔
      DeliversOnce accepts http cfg secrets cs := by
  obtain ⟨telegram, ds, t, htelegram, hrest⟩ := Prog.run_bind h
  obtain ⟨email, es, u, hemail, hend⟩ := Prog.run_bind hrest
  obtain ⟨-, -, rfl⟩ := Prog.run_ret hend
  have hinbox : inbox = t.2 := notifyEmail_run hemail
  rw [hinbox]
  rcases notifyTelegram_run henabled hblank htelegram with
    ⟨hcannot, hnothing⟩ | ⟨hcan, hall, hsent⟩ | ⟨hcan, ⟨bad, hbad, hrejects⟩, k, hk, hsent, hone⟩
  · rw [hnothing]
    constructor
    · intro honce
      refine .inl fun id hid => ?_
      by_contra haccepts
      exact absurd (honce id hid (by simpa using haccepts)) (by simp)
    · rintro (hnobody | ⟨hcan, -⟩) id hid haccepts
      · rw [hnobody id hid] at haccepts
        cases haccepts
      · rcases hcannot with hnot | hnone
        · exact absurd hcan hnot
        · rw [hnone] at hid
          cases hid
  · refine iff_of_true (fun id hid haccepts => ?_) (.inr ⟨hcan, .inl hall⟩)
    have hreached : trim id ∈ reached accepts cfg.chats := by
      rw [reached, List.takeWhile_eq_self_iff.2 (List.forall_mem_map.2 hall)]
      exact List.mem_map_of_mem hid
    rw [hsent, List.nil_append, count_oneAttempt hdistinct, if_pos hreached]
  · have hcount : ∀ id, t.2.count (id, message) =
        if id ∈ reached accepts cfg.chats then k else 0 := by
      intro id
      rw [hsent, List.nil_append, List.count_flatten, List.map_replicate, List.sum_replicate_nat,
        count_oneAttempt hdistinct]
      split_ifs <;> simp
    constructor
    · intro honce
      by_cases hsome : ∃ id ∈ cfg.chats, accepts (trim id) = true
      · have hboth : ∀ id ∈ cfg.chats, accepts (trim id) = true →
            trim id ∈ reached accepts cfg.chats ∧ k = 1 := by
          intro id hid haccepts
          have hid' := honce id hid haccepts
          rw [hcount] at hid'
          split_ifs at hid' with hreached
          exact ⟨hreached, hid'⟩
        obtain ⟨id, hid, haccepts⟩ := hsome
        refine .inr ⟨hcan, .inr ⟨?_, hone.1 (hboth id hid haccepts).2⟩⟩
        exact (forall_reached_iff hdistinct).1 fun id hid h => (hboth id hid h).1
      · exact .inl (by simpa using hsome)
    · rintro (hnobody | ⟨-, hall | ⟨hlast, hattempt⟩⟩) id hid haccepts
      · rw [hnobody id hid] at haccepts
        cases haccepts
      · rw [hall bad hbad] at hrejects
        cases hrejects
      · rw [hcount, if_pos ((forall_reached_iff hdistinct).2 hlast id hid haccepts)]
        exact hone.2 hattempt

/-! ### A run -/

/-- One chat accepts, the one after it is blocked. -/
def twoChats : Config :=
  { defaultConfig with emailEnabled := false, telegramChatIDs := some ["team", "blocked"] }

def onlyTeam (chatID : String) : Bool := chatID = "team"

def botToken : Secrets := ⟨"12:ab", "", ""⟩

/-- The choices of one attempt, and those of the pause after it. -/
def blockedAttempt : List Choice := [{}, {}, {}, { status := 403 }]

def pause : List Choice := [{}, {}]

def blockedChoices : List Choice :=
  blockedAttempt ++ pause ++ blockedAttempt ++ pause ++ blockedAttempt

theorem notify_twoChats :
    ∃ a w', (notify twoChats botToken .test "ping").run (heeding onlyTeam plainHttp)
      blockedChoices (World.fresh twoChats ⟨"", "", ""⟩, []) =
        some (a, [], w', [("team", "ping"), ("team", "ping"), ("team", "ping")]) :=
  ⟨_, _, rfl⟩

theorem receivedOnce_iff_twoChats :
    (∀ id ∈ twoChats.chats, onlyTeam (trim id) = true →
      [("team", "ping"), ("team", "ping"), ("team", "ping")].count (trim id, "ping") = 1) ↔
        DeliversOnce onlyTeam plainHttp twoChats botToken blockedChoices := by
  obtain ⟨a, w', hrun⟩ := notify_twoChats
  exact receivedOnce_iff rfl (by decide) (by decide) hrun

/-- **A chat receives the message three times**, as the one after it rejects it. -/
theorem received_again :
    ¬ ∀ (accepts : String → Bool) (http : Http) (cfg : Config) (secrets : Secrets) (level : Level)
      (message : String) (cs cs' : List Choice) (w w' : World) (inbox : Inbox)
      (a : List ChannelResult), cfg.telegramEnabled = true → CanSend http secrets →
      (∀ id ∈ cfg.chats, trim id ≠ "") → (cfg.chats.map trim).Nodup →
      (notify cfg secrets level message).run (heeding accepts http) cs (w, []) =
        some (a, cs', w', inbox) →
      ∀ id ∈ cfg.chats, accepts (trim id) = true → inbox.count (trim id, message) = 1 := by
  intro hall
  obtain ⟨a, w', hrun⟩ := notify_twoChats
  have honce := hall _ _ _ _ _ _ _ _ _ _ _ _ rfl ⟨by decide, rfl⟩ (by decide) (by decide) hrun
    "team" (by decide) (by decide)
  exact absurd honce (by decide)

end QuickVps.Alerts
