import QuickVps.Alerts.Calls
import QuickVps.Lib.Lockstep

/-!
# Two services with different bot tokens

Two alert services that differ only in the stored bot token make corresponding calls and show the
same. The one way out is the error of `NewRequest` or `Client.Do`, which names the URL with the
token: it is kept when the attempt was the last one.

* `World.Twin` — two states that differ only in the token;
* `Sync` — the calls that correspond, and what their answers have in common;
* `exec_sync` — such calls keep two states twins;
* `inStep_triggerTest`, `inStep_evaluateSnapshot`, `inStep_updateConfig`, … — the methods.
-/

namespace QuickVps.Alerts

open Go

/-! ## Twins -/

/-- The last four bytes, that the mask of a token shows. -/
def lastFour (s : String) : List UInt8 := (bytes s).drop ((bytes s).length - 4)

/-- The same token, or two with more than four bytes, the same last four, and a URL that
`NewRequest` accepts in both cases or in neither. -/
def TwinTokens (http : Http) (token token' : String) : Prop :=
  token = token' ∨
    4 < (bytes (trim token)).length ∧ 4 < (bytes (trim token')).length ∧
      lastFour (trim token) = lastFour (trim token') ∧
      ((http.parseError (telegramURL (trim token))).isSome ↔
        (http.parseError (telegramURL (trim token'))).isSome)

def TwinCiphers (cipher cipher' : String) : Prop :=
  cipher = cipher' ∨ trim cipher ≠ "" ∧ trim cipher' ≠ ""

def SecretRecord.Twin (row row' : SecretRecord) : Prop :=
  ∃ cipher, TwinCiphers row.telegramTokenCipher cipher ∧
    row' = { row with telegramTokenCipher := cipher }

def Secrets.Twin (http : Http) (s s' : Secrets) : Prop :=
  ∃ token, TwinTokens http s.telegramBotToken token ∧ s' = { s with telegramBotToken := token }

def Service.Twin (http : Http) (s s' : Service) : Prop :=
  ∃ secrets row, s.secrets.Twin http secrets ∧ s.secretRec.Twin row ∧
    s' = { s with secrets := secrets, secretRec := row }

/-- Two states that differ only in the stored bot token. -/
def World.Twin (http : Http) (w w' : World) : Prop :=
  ∃ row service, w.secrets.Twin row ∧ w.service.Twin http service ∧
    w' = { w with secrets := row, service := service }

variable {http : Http}

theorem Secrets.Twin.refl (s : Secrets) : s.Twin http s := ⟨_, .inl rfl, rfl⟩

theorem SecretRecord.Twin.refl (row : SecretRecord) : row.Twin row := ⟨_, .inl rfl, rfl⟩

theorem Service.Twin.refl (s : Service) : s.Twin http s := ⟨_, _, .refl _, .refl _, rfl⟩

theorem World.Twin.refl (w : World) : w.Twin http w := ⟨_, _, .refl _, .refl _, rfl⟩

theorem trim_empty : trim "" = "" := by decide

theorem bytes_empty : bytes "" = [] := by decide

/-! ## What is shown of a token -/

theorem maskSecret_twin {token token' : String} (h : TwinTokens http token token')
    (present : Bool) : maskSecret token present = maskSecret token' present := by
  have mask {t : String} (ht : 4 < (bytes (trim t)).length) :
      maskSecret t present = if !present then [] else bytes "****" ++ lastFour (trim t) := by
    have hne : trim t ≠ "" := by
      intro heq
      rw [heq, bytes_empty] at ht
      exact absurd ht (by simp)
    simp only [maskSecret, if_neg hne, if_neg (Nat.not_le.2 ht), lastFour]
  rcases h with rfl | ⟨hlen, hlen', hlast, -⟩
  · rfl
  · rw [mask hlen, mask hlen', hlast]

theorem TwinCiphers.trim_iff {cipher cipher' : String} (h : TwinCiphers cipher cipher') :
    (trim cipher ≠ "") = (trim cipher' ≠ "") := by
  rcases h with rfl | ⟨hne, hne'⟩
  · rfl
  · simp [hne, hne']

theorem TwinCiphers.iff {cipher cipher' : String} (h : TwinCiphers cipher cipher') :
    (cipher ≠ "") = (cipher' ≠ "") := by
  have ne {c : String} (hc : trim c ≠ "") : c ≠ "" := by
    rintro rfl
    exact hc trim_empty
  rcases h with rfl | ⟨hne, hne'⟩
  · rfl
  · simp [ne hne, ne hne']

theorem configView_twin {s s' : Service} (h : s.Twin http s') (readOnly : Bool) :
    s.configView readOnly = s'.configView readOnly := by
  obtain ⟨_, _, ⟨token, htoken, rfl⟩, ⟨cipher, hcipher, rfl⟩, rfl⟩ := h
  simp only [Service.configView, hcipher.trim_iff, maskSecret_twin htoken]

theorem updatedView_twin {s s' : Service} (h : s.Twin http s') :
    s.updatedView = s'.updatedView := by
  obtain ⟨_, _, ⟨token, htoken, rfl⟩, ⟨cipher, hcipher, rfl⟩, rfl⟩ := h
  simp only [Service.updatedView, hcipher.iff, maskSecret_twin htoken]

/-! ## Corresponding calls -/

/-- The calls that neither take nor give a token. -/
def Op.Plain : Op → Prop
  | .sql .loadSecretRecord => False
  | .sql (.saveSecretRecord _) => False
  | .read => False
  | .lock => False
  | .unlock _ => False
  | .newRequest _ => False
  | .post .. => False
  | _ => True

/-- The service that a call takes. -/
def taken : Prog.Call Op Op.Ans → Option Service
  | ⟨.read, s⟩ => some s
  | ⟨.lock, s⟩ => some s
  | _ => none

def isSleep : Prog.Call Op Op.Ans → Bool
  | ⟨.sleep _, _⟩ => true
  | _ => false

/-- The attempts so far, by the pauses after them, and `n` more are those of the configuration that
was taken. -/
def AttemptsLeft (n : Nat) (h : List (Prog.Call Op Op.Ans)) : Prop :=
  ∃ call ∈ h, ∃ s ∈ taken call, (retryDelays s.cfg).length = h.countP isSleep + n

/-- The attempt is the last one. -/
def LastAttempt (h : List (Prog.Call Op Op.Ans)) : Prop := AttemptsLeft 1 h

instance (n : Nat) (h : List (Prog.Call Op Op.Ans)) : Decidable (AttemptsLeft n h) :=
  inferInstanceAs (Decidable (∃ call ∈ h, ∃ s ∈ taken call, _))

instance (h : List (Prog.Call Op Op.Ans)) : Decidable (LastAttempt h) :=
  inferInstanceAs (Decidable (AttemptsLeft 1 h))

/-- The same answer, or two errors, unless the attempt is the last one. -/
def Agree {α : Type} (h : List (Prog.Call Op Op.Ans)) (r r' : Except String α) : Prop :=
  (∃ a, r = .ok a ∧ r' = .ok a) ∨ ¬ LastAttempt h ∧ ∃ err err', r = .error err ∧ r' = .error err'

inductive Sync (http : Http) (h : List (Prog.Call Op Op.Ans)) :
    (op op' : Op) → (op.Ans → op'.Ans → Prop) → Prop
  | plain {op : Op} (hop : op.Plain) : Sync http h op op Eq
  | read : Sync http h .read .read (Service.Twin http)
  | lock : Sync http h .lock .lock (Service.Twin http)
  | unlock {s s' : Service} (hs : s.Twin http s') : Sync http h (.unlock s) (.unlock s') Eq
  | saveSecretRecord {row row' : SecretRecord} (hrow : row.Twin row') :
    Sync http h (.sql (.saveSecretRecord row)) (.sql (.saveSecretRecord row')) Eq
  | newRequest {url url' : String}
    (hurl : (http.parseError url).isSome ↔ (http.parseError url').isSome) :
    Sync http h (.newRequest url) (.newRequest url') (Agree h)
  | post {url url' : String} {body : Json} :
    Sync http h (.post url body) (.post url' body) (Agree h)

/-- The call is an attempt to send to Telegram that fails without a response. -/
def SendFails (http : Http) (c : Choice) : Op → Prop
  | .newRequest url => (http.parseError url).isSome
  | .post .. => c.fault.isSome
  | _ => False

theorem exec_plain {c : Choice} {op : Op} {w w' t : World} {r : op.Ans} (hop : op.Plain)
    (hw : w.Twin http w') (h : exec http c op w = some (r, t)) :
    ∃ t', exec http c op w' = some (r, t') ∧ t.Twin http t' := by
  obtain ⟨row, service, hrow, hs, rfl⟩ := hw
  cases op with
  | sql stmt =>
    unfold exec at h ⊢
    cases hfault : c.fault with
    | some err =>
      simp only [hfault] at h ⊢
      cases h
      exact ⟨_, rfl, row, service, hrow, hs, rfl⟩
    | none =>
      simp only [hfault, Option.some.injEq] at h ⊢
      cases stmt with
      | loadSecretRecord | saveSecretRecord _ => exact hop.elim
      | saveEvent level message cpuPercent channels createdAt =>
        simp only [Stmt.exec] at h ⊢
        split_ifs at h ⊢ <;> cases h <;> exact ⟨_, rfl, row, service, hrow, hs, rfl⟩
      | _ =>
        cases h
        exact ⟨_, rfl, row, service, hrow, hs, rfl⟩
  | read | lock | unlock _ | newRequest _ | post _ _ => exact hop.elim
  | historyDays =>
    obtain ⟨_, _, -, -, rfl⟩ := id hs
    cases h
    exact ⟨_, rfl, row, _, hrow, hs, rfl⟩
  | nonce | sendMail _ _ _ _ =>
    unfold exec at h ⊢
    cases hfault : c.fault <;> simp only [hfault] at h ⊢ <;> cases h <;>
      exact ⟨_, rfl, row, service, hrow, hs, rfl⟩
  | _ =>
    cases h
    exact ⟨_, rfl, row, service, hrow, hs, rfl⟩

/-- **Corresponding calls keep two states twins**, and have corresponding answers, as long as no
last attempt fails. -/
theorem exec_sync {h : List (Prog.Call Op Op.Ans)} {c : Choice} {op op' : Op}
    {Q : op.Ans → op'.Ans → Prop} {w w' t : World} {r : op.Ans} (hsync : Sync http h op op' Q)
    (hw : w.Twin http w') (hok : SendFails http c op → ¬ LastAttempt h)
    (hexec : exec http c op w = some (r, t)) :
    ∃ r' t', exec http c op' w' = some (r', t') ∧ Q r r' ∧ t.Twin http t' := by
  cases hsync with
  | plain hop =>
    obtain ⟨t', ht', htwin⟩ := exec_plain hop hw hexec
    exact ⟨r, t', ht', rfl, htwin⟩
  | read | lock =>
    obtain ⟨row, service, hrow, hs, rfl⟩ := hw
    unfold exec at hexec ⊢
    simp only at hexec ⊢
    split_ifs at hexec ⊢
    cases hexec
    exact ⟨_, _, rfl, hs, row, service, hrow, hs, rfl⟩
  | unlock hs' =>
    obtain ⟨row, service, hrow, hs, rfl⟩ := hw
    cases hexec
    exact ⟨_, _, rfl, rfl, row, _, hrow, hs', rfl⟩
  | saveSecretRecord hrow' =>
    obtain ⟨row, service, hrow, hs, rfl⟩ := hw
    unfold exec at hexec ⊢
    cases hfault : c.fault with
    | some err =>
      simp only [hfault] at hexec ⊢
      cases hexec
      exact ⟨_, _, rfl, rfl, row, service, hrow, hs, rfl⟩
    | none =>
      simp only [hfault] at hexec ⊢
      cases hexec
      exact ⟨_, _, rfl, rfl, _, service, hrow', hs, rfl⟩
  | @newRequest url url' hurl =>
    unfold exec at hexec ⊢
    simp only at hexec ⊢
    split at hexec
    next err herr =>
      obtain ⟨err', herr'⟩ := Option.isSome_iff_exists.1 (hurl.1 (by rw [herr]; rfl))
      cases hexec
      rw [herr']
      have hlast : ¬ LastAttempt h := hok (by rw [SendFails, herr]; rfl)
      exact ⟨_, _, rfl, .inr ⟨hlast, _, _, rfl, rfl⟩, hw⟩
    next hnone =>
      have hnone' : http.parseError url' = none := by
        rw [← Option.not_isSome_iff_eq_none, ← hurl, hnone]
        exact Bool.false_ne_true
      cases hexec
      rw [hnone']
      exact ⟨_, _, rfl, .inl ⟨(), rfl, rfl⟩, hw⟩
  | post =>
    unfold exec at hexec ⊢
    cases hfault : c.fault with
    | some cause =>
      simp only [hfault] at hexec ⊢
      cases hexec
      have hlast : ¬ LastAttempt h := hok (by rw [SendFails, hfault]; rfl)
      exact ⟨_, _, rfl, .inr ⟨hlast, _, _, rfl, rfl⟩, hw⟩
    | none =>
      simp only [hfault] at hexec ⊢
      cases hexec
      exact ⟨_, _, rfl, .inl ⟨_, rfl, rfl⟩, hw⟩

/-! ## Programs that ask for no token -/

abbrev History := List (Prog.Call Op Op.Ans)

/-- The program is in step with itself. -/
theorem inStep_plain {α : Type} {p : M α} (hp : p.Only Op.Plain) (h : History) :
    p.InStep (Sync http) (fun _ => Eq) h p :=
  (Prog.inStep_of_only (I := fun _ => True) (fun _ _ hop _ => .plain hop)
    (fun _ _ _ _ _ => trivial) hp trivial).mono fun _ _ _ hab => hab.1

theorem plain_stmt {stmt' : Stmt} (h : Op.Plain (.sql stmt')) : (stmt stmt').Only Op.Plain :=
  Prog.only_op h

theorem plain_saveConfig (cfg : Config) : (saveConfig cfg).Only Op.Plain := by
  refine (plain_stmt (by trivial)).bind fun answer => ?_
  cases answer <;> exact Prog.only_ret _

theorem plain_saveEvent (level : Level) (message : String) (cpuPercent : Float64)
    (channels : List ChannelResult) (createdAt : Int) :
    (saveEvent level message cpuPercent channels createdAt).Only Op.Plain := by
  refine (plain_stmt (by trivial)).bind fun answer => ?_
  cases answer <;> exact Prog.only_ret _

theorem plain_listEvents (limit beforeID : Int) : (listEvents limit beforeID).Only Op.Plain := by
  refine Prog.Only.bind (plain_stmt (by trivial)) fun answer => ?_
  cases answer <;> exact Prog.only_ret _

theorem plain_cleanupEvents (retentionDays : Int) :
    (cleanupEvents retentionDays).Only Op.Plain := by
  refine (Prog.only_op trivial).bind fun now => (plain_stmt (by trivial)).bind fun answer => ?_
  cases answer <;> exact Prog.only_ret _

theorem plain_setMutedUntil (until_ : Option Int) : (setMutedUntil until_).Only Op.Plain := by
  refine (plain_stmt (by trivial)).bind fun answer => ?_
  cases answer <;> exact Prog.only_ret _

theorem plain_sendEmailDefault (from_ appPassword : String) (to_ : Option (List String))
    (subject body : String) :
    (sendEmailDefault from_ appPassword to_ subject body).Only Op.Plain := by
  unfold sendEmailDefault
  simp only
  split_ifs
  · exact Prog.only_ret _
  · exact Prog.only_ret _
  · exact Prog.only_ret _
  · refine (Prog.only_op trivial).bind fun answer => ?_
    cases answer <;> exact Prog.only_ret _

theorem plain_retryLoop {fn : M (Except String Unit)} (hfn : fn.Only Op.Plain)
    (delays : List Int) (attempts : Nat) : (retryLoop fn delays attempts).Only Op.Plain := by
  induction delays generalizing attempts with
  | nil => exact Prog.only_ret _
  | cons delay rest ih =>
    refine hfn.bind fun answer => ?_
    cases answer with
    | ok => exact Prog.only_ret _
    | error err =>
      simp only
      split_ifs
      · exact Prog.only_ret _
      · refine (Prog.only_op trivial).bind fun done => ?_
        cases done with
        | some done => exact Prog.only_ret _
        | none => exact (Prog.only_op trivial).bind fun _ => ih _

theorem plain_notifyEmail (cfg : Config) (secrets : Secrets) (level : Level) (message : String) :
    (notifyEmail cfg secrets level message).Only Op.Plain := by
  unfold notifyEmail
  split_ifs
  · exact (plain_retryLoop (plain_sendEmailDefault _ _ _ _ _) _ _).bind fun _ => Prog.only_ret _
  · exact Prog.only_ret _

/-! ## Sending to Telegram -/

theorem AttemptsLeft.cons {n : Nat} {h : History} (hn : AttemptsLeft n h)
    {call : Prog.Call Op Op.Ans} (hcall : isSleep call = false) : AttemptsLeft n (call :: h) := by
  obtain ⟨call', hmem, s, hs, hlen⟩ := hn
  refine ⟨call', List.mem_cons_of_mem _ hmem, s, hs, ?_⟩
  rw [List.countP_cons_of_neg (by simp [hcall]), hlen]

theorem AttemptsLeft.sleep {n : Nat} {h : History} (hn : AttemptsLeft (n + 1) h) (duration : Int) :
    AttemptsLeft n (⟨.sleep duration, ()⟩ :: h) := by
  obtain ⟨call', hmem, s, hs, hlen⟩ := hn
  refine ⟨call', List.mem_cons_of_mem _ hmem, s, hs, ?_⟩
  rw [List.countP_cons_of_pos rfl, hlen]
  omega

/-- What two attempts have in common when `n` are left, this one included. -/
def SameAttempt (n : Nat) (h : History) (r r' : Except String Unit) : Prop :=
  AttemptsLeft n h ∧ (r = r' ∨ n ≠ 1 ∧ ∃ err err', r = .error err ∧ r' = .error err')

theorem inStep_sendToChats {url url' : String}
    (hurl : (http.parseError url).isSome ↔ (http.parseError url').isSome) (text : String)
    (chatIDs : List String) {n : Nat} {h : History} (hn : AttemptsLeft n h) :
    (sendToChats url text chatIDs).InStep (Sync http) (SameAttempt n) h
      (sendToChats url' text chatIDs) := by
  -- An error of the client ends the attempt, and the attempt is not the last one.
  have failed {h : History} (hn : AttemptsLeft n h) (call : Prog.Call Op Op.Ans)
      (hcall : isSleep call = false) (hlast : ¬ LastAttempt h) (err err' : String) :
      SameAttempt n (call :: h) (.error err) (.error err') := by
    refine ⟨hn.cons hcall, .inr ⟨?_, err, err', rfl, rfl⟩⟩
    rintro rfl
    exact hlast hn
  induction chatIDs generalizing h with
  | nil => exact Prog.inStep_ret.2 ⟨hn, .inl rfl⟩
  | cons rawChatID rest ih =>
    simp only [sendToChats]
    split_ifs with hblank
    · exact ih hn
    · refine Prog.inStep_op (.newRequest hurl) fun r r' hr => ?_
      rcases hr with ⟨_, rfl, rfl⟩ | ⟨hlast, err, err', rfl, rfl⟩
      · have hn : AttemptsLeft n (⟨.newRequest url, .ok ()⟩ :: h) := hn.cons rfl
        refine Prog.inStep_op .post fun r r' hr => ?_
        rcases hr with ⟨status, rfl, rfl⟩ | ⟨hlast, err, err', rfl, rfl⟩
        · simp only
          split_ifs
          · exact Prog.inStep_ret.2 ⟨hn.cons rfl, .inl rfl⟩
          · exact ih (hn.cons rfl)
        · exact Prog.inStep_ret.2 (failed hn _ rfl hlast err err')
      · exact Prog.inStep_ret.2 (failed hn _ rfl hlast err err')

theorem inStep_sendTelegramDefault {token token' : String} (htoken : TwinTokens http token token')
    (chatIDs : Option (List String)) (text : String) {n : Nat} {h : History}
    (hn : AttemptsLeft n h) :
    (sendTelegramDefault (trim token) chatIDs text).InStep (Sync http) (SameAttempt n) h
      (sendTelegramDefault (trim token') chatIDs text) := by
  have hne {t : String} (ht : 4 < (bytes (trim t)).length) : trim t ≠ "" := by
    intro heq
    rw [heq, bytes_empty] at ht
    exact absurd ht (by simp)
  have hempty : trim token = "" ↔ trim token' = "" := by
    rcases htoken with rfl | ⟨hlen, hlen', -, -⟩
    · rfl
    · exact iff_of_false (hne hlen) (hne hlen')
  have hurl : (http.parseError (telegramURL (trim token))).isSome ↔
      (http.parseError (telegramURL (trim token'))).isSome := by
    rcases htoken with rfl | ⟨-, -, -, hurl⟩
    · rfl
    · exact hurl
  have same (err : String) : SameAttempt n h (.error err) (.error err) := ⟨hn, .inl rfl⟩
  unfold sendTelegramDefault
  simp only [hempty]
  split_ifs
  · exact Prog.inStep_ret.2 (same _)
  · exact Prog.inStep_ret.2 (same _)
  · exact inStep_sendToChats hurl text _ hn

/-- Retries of two attempts that have this in common end with the same error. -/
theorem inStep_retryLoop {fn fn' : M (Except String Unit)}
    (hfn : ∀ n h, AttemptsLeft n h → fn.InStep (Sync http) (SameAttempt n) h fn')
    (delays : List Int) (attempts : Nat) {h : History} (hn : AttemptsLeft delays.length h) :
    (retryLoop fn delays attempts).InStep (Sync http) (fun _ => Eq) h
      (retryLoop fn' delays attempts) := by
  induction delays generalizing attempts h with
  | nil => exact Prog.inStep_ret.2 rfl
  | cons delay rest ih =>
    refine (hfn _ h hn).bind fun h r r' hr => ?_
    obtain ⟨hn, hr⟩ := hr
    have hcases : (∃ a, r = .ok a ∧ r' = .ok a) ∨
        ∃ err err', r = .error err ∧ r' = .error err' ∧ (rest = [] → err = err') := by
      rcases hr with rfl | ⟨hne, err, err', rfl, rfl⟩
      · cases r with
        | ok a => exact .inl ⟨a, rfl, rfl⟩
        | error err => exact .inr ⟨err, err, rfl, rfl, fun _ => rfl⟩
      · refine .inr ⟨err, err', rfl, rfl, ?_⟩
        rintro rfl
        exact absurd rfl hne
    rcases hcases with ⟨_, rfl, rfl⟩ | ⟨err, err', rfl, rfl, hlast⟩
    · exact Prog.inStep_ret.2 rfl
    · simp only
      by_cases hrest : rest = []
      · simp only [if_pos hrest, hlast hrest]
        exact Prog.inStep_ret.2 rfl
      · simp only [if_neg hrest]
        refine Prog.inStep_op_eq (.plain trivial) fun done => ?_
        cases done with
        | some done => exact Prog.inStep_ret.2 rfl
        | none =>
          refine Prog.inStep_op_eq (.plain trivial) fun _ => ?_
          exact ih _ ((hn.cons rfl).sleep _)

theorem inStep_notify (cfg : Config) {secrets secrets' : Secrets}
    (hsecrets : secrets.Twin http secrets') (level : Level) (message : String) {h : History}
    (hn : AttemptsLeft (retryDelays cfg).length h) :
    (notify cfg secrets level message).InStep (Sync http) (fun _ => Eq) h
      (notify cfg secrets' level message) := by
  obtain ⟨token', htoken, rfl⟩ := hsecrets
  have htelegram : (notifyTelegram cfg secrets message).InStep (Sync http) (fun _ => Eq) h
      (notifyTelegram cfg { secrets with telegramBotToken := token' } message) := by
    unfold notifyTelegram
    split_ifs
    · simp only [retry, if_neg (retryDelays_ne_nil cfg)]
      exact (inStep_retryLoop (fun n h => inStep_sendTelegramDefault htoken _ _) _ _ hn).bind_eq
        fun _ _ => Prog.inStep_ret.2 rfl
    · exact Prog.inStep_ret.2 rfl
  refine htelegram.bind_eq fun h telegram => ?_
  exact inStep_plain ((plain_notifyEmail cfg secrets level message).bind fun _ => Prog.only_ret _) h

/-! ## The methods of the service -/

theorem length_evaluate_le (e : Evaluator) (now : Int) (cpu : Float64) (cfg : Config)
    (silenced : Bool) : (e.evaluate now cpu cfg silenced).1.length ≤ 1 := by
  unfold Evaluator.evaluate
  simp only
  split_ifs
  · simp
  · unfold Evaluator.evaluateCritical
    simp only
    split_ifs <;> simp
  · unfold Evaluator.evaluateWarning
    simp only
    split_ifs <;> simp
  · unfold Evaluator.evaluateBelow
    simp only
    split_ifs <;> simp

/-- A snapshot triggers the same in twins, and at most one notification. -/
theorem evaluate_twin {s s' : Service} (hs : s.Twin http s') (now : Int) (cpuPercent : Float64) :
    (s'.evaluate now cpuPercent).1 = (s.evaluate now cpuPercent).1 ∧
      (s.evaluate now cpuPercent).2.Twin http (s'.evaluate now cpuPercent).2 := by
  obtain ⟨secrets, row, hsecrets, hrow, rfl⟩ := hs
  exact ⟨rfl, secrets, row, hsecrets, hrow, rfl⟩

theorem inStep_dispatch (hostname : String) (cfg : Config) {secrets secrets' : Secrets}
    (hsecrets : secrets.Twin http secrets') (now : Int) (trigger : Trigger) {h : History}
    (hn : AttemptsLeft (retryDelays cfg).length h) :
    (dispatch hostname cfg secrets now trigger).InStep (Sync http) (fun _ => Eq) h
      (dispatch hostname cfg secrets' now trigger) := by
  refine (inStep_notify cfg hsecrets _ _ hn).bind_eq fun h results => ?_
  exact inStep_plain ((plain_saveEvent _ _ _ _ _).bind fun _ => Prog.only_ret _) h

/-- After the service was taken all attempts are left. -/
theorem attemptsLeft_taken {s : Service} {call : Prog.Call Op Op.Ans} (htaken : taken call = some s)
    (hsleep : isSleep call = false) : AttemptsLeft (retryDelays s.cfg).length [call] := by
  refine ⟨call, List.mem_singleton_self _, s, htaken, ?_⟩
  rw [List.countP_cons_of_neg (by simp [hsleep])]
  simp

theorem inStep_dispatchAll (hostname : String) (cfg : Config) {secrets secrets' : Secrets}
    (hsecrets : secrets.Twin http secrets') (now : Int) {triggers : List Trigger}
    (hlength : triggers.length ≤ 1) {h : History}
    (hn : AttemptsLeft (retryDelays cfg).length h) :
    (dispatchAll hostname cfg secrets now triggers).InStep (Sync http) (fun _ => Eq) h
      (dispatchAll hostname cfg secrets' now triggers) := by
  match triggers, hlength with
  | [], _ => exact Prog.inStep_ret.2 rfl
  | [trigger], _ =>
    exact (inStep_dispatch hostname cfg hsecrets now trigger hn).bind_eq fun _ _ =>
      Prog.inStep_ret.2 rfl

theorem evaluateSnapshot_eq (now : Int) (cpuPercent : Float64) :
    evaluateSnapshot now cpuPercent = (do
      let s ← (Prog.op Op.lock : M Service)
      (Prog.op (Op.unlock (s.evaluate now cpuPercent).2) : M Unit)
      dispatchAll s.hostname s.cfg s.secrets now (s.evaluate now cpuPercent).1) := rfl

theorem inStep_evaluateSnapshot (now : Int) (cpuPercent : Float64) :
    (evaluateSnapshot now cpuPercent).InStep (Sync http) (fun _ => Eq) []
      (evaluateSnapshot now cpuPercent) := by
  rw [evaluateSnapshot_eq]
  refine Prog.inStep_op .lock fun s s' hs => ?_
  obtain ⟨htriggers, hs'⟩ := evaluate_twin hs now cpuPercent
  rw [htriggers]
  refine Prog.inStep_op (.unlock hs') fun _ _ _ => ?_
  obtain ⟨secrets, row, hsecrets, -, rfl⟩ := hs
  exact inStep_dispatchAll s.hostname s.cfg hsecrets now (length_evaluate_le _ _ _ _ _)
    ((attemptsLeft_taken rfl rfl).cons rfl)

theorem inStep_triggerTest : triggerTest.InStep (Sync http) (fun _ => Eq) [] triggerTest := by
  refine Prog.inStep_op .read fun s s' hs => ?_
  obtain ⟨secrets, row, hsecrets, -, rfl⟩ := hs
  simp only
  split_ifs
  · exact Prog.inStep_ret.2 rfl
  · refine Prog.inStep_op_eq (.plain trivial) fun now => ?_
    refine (inStep_notify s.cfg hsecrets _ _ ((attemptsLeft_taken rfl rfl).cons rfl)).bind_eq ?_
    intro h results
    refine inStep_plain ((plain_saveEvent _ _ _ _ _).bind fun answer => ?_) h
    cases answer <;> exact Prog.only_ret _

/-- A method that copies the service and shows the same of twins. -/
theorem inStep_read {α : Type} {f : Service → α} (hf : ∀ s s', s.Twin http s' → f s = f s')
    (h : History) :
    (do let s ← (Prog.op Op.read : M Service); return f s : M α).InStep (Sync http) (fun _ => Eq) h
      (do let s ← (Prog.op Op.read : M Service); return f s) :=
  Prog.inStep_op .read fun s s' hs => Prog.inStep_ret.2 (hf s s' hs)

theorem inStep_configView (readOnly : Bool) (h : History) :
    (configView readOnly).InStep (Sync http) (fun _ => Eq) h (configView readOnly) :=
  inStep_read (fun _ _ hs => configView_twin hs readOnly) h

theorem inStep_isEnabled (h : History) :
    isEnabled.InStep (Sync http) (fun _ => Eq) h isEnabled := by
  refine inStep_read (fun s s' hs => ?_) h
  obtain ⟨_, _, -, -, rfl⟩ := hs
  rfl

theorem inStep_status (readOnly : Bool) (h : History) :
    (status readOnly).InStep (Sync http) (fun _ => Eq) h (status readOnly) := by
  refine Prog.inStep_op .read fun s s' hs => ?_
  obtain ⟨_, _, -, -, rfl⟩ := hs
  exact inStep_plain ((Prog.only_op trivial).bind fun _ => Prog.only_ret _) _

/-! ### Changes -/

def Sealed.Twin (http : Http) (x x' : Sealed) : Prop :=
  TwinTokens http x.secret x'.secret ∧ TwinCiphers x.cipher x'.cipher

theorem Sealed.Twin.refl (x : Sealed) : x.Twin http x := ⟨.inl rfl, .inl rfl⟩

theorem plain_encrypt (crypto : Crypto) (key : Option (List UInt8)) (plaintext : String) :
    (encrypt crypto key plaintext).Only Op.Plain := by
  unfold encrypt
  cases key with
  | none => exact Prog.only_ret _
  | some key =>
    refine (Prog.only_op trivial).bind fun answer => ?_
    cases answer <;> exact Prog.only_ret _

/-- Both fail with the same error, or end with twins. -/
def SameOr {α : Type} (twin : α → α → Prop) (r r' : Except String α) : Prop :=
  (∃ err, r = .error err ∧ r' = .error err) ∨ ∃ a a', r = .ok a ∧ r' = .ok a' ∧ twin a a'

/-- A secret that is changed is the same in both; `twin` is what the old values have in common. -/
theorem inStep_changeSecret (crypto : Crypto) {s s' : Service}
    (hs : s'.secretsWritable = s.secretsWritable ∧ s'.key = s.key) (given : String) (clear : Bool)
    {twin : Sealed → Sealed → Prop} (hrefl : ∀ x, twin x x) {old old' : Sealed}
    (hold : twin old old') (h : History) :
    (changeSecret crypto s given clear old).InStep (Sync http) (fun _ => SameOr twin) h
      (changeSecret crypto s' given clear old') := by
  have same (x : Sealed) : SameOr twin (.ok x) (.ok x) := .inr ⟨x, x, rfl, rfl, hrefl x⟩
  unfold changeSecret
  rw [hs.1, hs.2]
  by_cases hgiven : trim given ≠ ""
  · simp only [if_pos hgiven]
    by_cases hwritable : (!s.secretsWritable) = true
    · simp only [if_pos hwritable]
      exact Prog.inStep_ret.2 (.inl ⟨_, rfl, rfl⟩)
    · simp only [if_neg hwritable]
      refine (inStep_plain (plain_encrypt crypto s.key (trim given)) h).bind_eq fun h answer => ?_
      cases answer with
      | error err => exact Prog.inStep_ret.2 (.inl ⟨err, rfl, rfl⟩)
      | ok cipher => exact Prog.inStep_ret.2 (same _)
  · simp only [if_neg hgiven]
    refine Prog.inStep_ret.2 (.inr ⟨_, _, rfl, rfl, ?_⟩)
    cases clear with
    | true => exact hrefl _
    | false => exact hold

theorem inStep_saveSecretRecord {row row' : SecretRecord} (hrow : row.Twin row') (h : History) :
    (saveSecretRecord row).InStep (Sync http) (fun _ => Eq) h (saveSecretRecord row') := by
  refine Prog.inStep_op (.saveSecretRecord hrow) fun answer _ heq => ?_
  subst heq
  cases answer <;> exact Prog.inStep_ret.2 rfl

theorem inStep_changeConfig (crypto : Crypto) {s s' : Service} (hs : s.Twin http s')
    (i : UpdateConfigInput) (h : History) :
    (changeConfig crypto s i).InStep (Sync http) (fun _ => SameOr (Service.Twin http)) h
      (changeConfig crypto s' i) := by
  obtain ⟨_, _, ⟨token', htoken, rfl⟩, ⟨cipher', hcipher, rfl⟩, rfl⟩ := hs
  have failed {h : History} (err : String) :
      (Prog.ret (.error err) : M (Except String Service)).InStep (Sync http)
        (fun _ => SameOr (Service.Twin http)) h (Prog.ret (.error err)) :=
    Prog.inStep_ret.2 (.inl ⟨err, rfl, rfl⟩)
  unfold changeConfig
  simp only
  cases validateConfig (i.apply s.cfg) with
  | some err => exact failed err
  | none =>
    refine (inStep_changeSecret crypto ⟨rfl, rfl⟩ _ _ (fun x => Sealed.Twin.refl x)
      ⟨htoken, hcipher⟩ h).bind fun h x x' hx => ?_
    rcases hx with ⟨err, rfl, rfl⟩ | ⟨x, x', rfl, rfl, hsecret, hx⟩
    · exact failed err
    refine (inStep_changeSecret crypto ⟨rfl, rfl⟩ _ _ (fun _ => rfl) rfl h).bind ?_
    intro h y y' hy
    rcases hy with ⟨err, rfl, rfl⟩ | ⟨y, y', rfl, rfl, rfl⟩
    · exact failed err
    refine (inStep_plain (plain_saveConfig _) h).bind_eq fun h saved => ?_
    cases saved with
    | error err => exact failed err
    | ok =>
      refine (inStep_saveSecretRecord ⟨_, hx, rfl⟩ h).bind_eq fun h saved => ?_
      cases saved with
      | error err => exact failed err
      | ok =>
        exact Prog.inStep_ret.2
          (.inr ⟨_, _, rfl, rfl, _, _, ⟨_, hsecret, rfl⟩, ⟨_, hx, rfl⟩, rfl⟩)

theorem inStep_updateConfig (crypto : Crypto) (i : UpdateConfigInput) (h : History) :
    (updateConfig crypto i).InStep (Sync http) (fun _ => Eq) h (updateConfig crypto i) := by
  refine Prog.inStep_op .lock fun s s' hs => ?_
  refine (inStep_changeConfig crypto hs i _).bind fun h r r' hr => ?_
  rcases hr with ⟨err, rfl, rfl⟩ | ⟨t, t', rfl, rfl, ht⟩
  · exact Prog.inStep_op (.unlock hs) fun _ _ _ => Prog.inStep_ret.2 rfl
  · refine Prog.inStep_op (.unlock ht) fun _ _ _ => Prog.inStep_ret.2 ?_
    rw [updatedView_twin ht]

theorem inStep_saveSilence (mutedUntil : Option Int) (h : History) :
    (saveSilence mutedUntil).InStep (Sync http) (fun _ => Eq) h (saveSilence mutedUntil) := by
  refine (inStep_plain (plain_setMutedUntil mutedUntil) h).bind_eq fun h saved => ?_
  cases saved with
  | error err => exact Prog.inStep_ret.2 rfl
  | ok =>
    refine Prog.inStep_op .lock fun s s' hs => ?_
    have hs' : (s.silence mutedUntil).Twin http (s'.silence mutedUntil) := by
      obtain ⟨secrets, row, hsecrets, hrow, rfl⟩ := hs
      exact ⟨secrets, row, hsecrets, hrow, rfl⟩
    exact Prog.inStep_op (.unlock hs') fun _ _ _ => Prog.inStep_ret.2 rfl

theorem inStep_setSilence (minutes : Int) (h : History) :
    (setSilence minutes).InStep (Sync http) (fun _ => Eq) h (setSilence minutes) := by
  unfold setSilence
  split_ifs
  · exact Prog.inStep_ret.2 rfl
  · refine Prog.inStep_op_eq (.plain trivial) fun now => ?_
    exact (inStep_saveSilence _ _).bind_eq fun _ _ => Prog.inStep_ret.2 rfl

theorem inStep_cleanupOldEvents (h : History) :
    cleanupOldEvents.InStep (Sync http) (fun _ => Eq) h cleanupOldEvents := by
  refine Prog.inStep_op .lock fun s s' hs => ?_
  refine Prog.inStep_op_eq (.plain trivial) fun now => ?_
  obtain ⟨secrets, row, hsecrets, hrow, rfl⟩ := hs
  simp only
  split_ifs
  · exact Prog.inStep_op (.unlock ⟨secrets, row, hsecrets, hrow, rfl⟩) fun _ _ _ =>
      Prog.inStep_ret.2 rfl
  · refine Prog.inStep_op_eq (.plain trivial) fun now => ?_
    refine (inStep_plain (plain_cleanupEvents _) _).bind_eq fun _ _ => ?_
    exact Prog.inStep_op (.unlock ⟨secrets, row, hsecrets, hrow, rfl⟩) fun _ _ _ =>
      Prog.inStep_ret.2 rfl

end QuickVps.Alerts
