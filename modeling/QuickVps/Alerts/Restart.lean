import QuickVps.Alerts.Calls
import QuickVps.Alerts.Cipher
import QuickVps.Alerts.Rows
import QuickVps.Lib.Lts

/-!
# A restart of the alert service

The service keeps its configuration, its secrets and the mute window in memory and in its tables.
The calls that change them run one after another on a database that does not fail.

* `*_reliably` — what the functions do there;
* `Stored` — the tables hold what the service has; every call keeps this (`stored_step`);
* `restart_same` — a new service over the tables has what the running one has.
-/

namespace QuickVps.Alerts

open Go

/-- Statements succeed, and the random source gives as many bytes as a nonce has, or fails. -/
def Choice.Reliable (c : Choice) : Op → Prop
  | .sql _ => c.fault = none
  | .nonce => c.nonce.length = nonceSize
  | _ => True

instance decidableReliable (c : Choice) : ∀ op, Decidable (c.Reliable op)
  | .sql _ => inferInstanceAs (Decidable (c.fault = none))
  | .nonce => inferInstanceAs (Decidable (c.nonce.length = nonceSize))
  | .now => isTrue trivial
  | .read => isTrue trivial
  | .lock => isTrue trivial
  | .unlock _ => isTrue trivial
  | .historyDays => isTrue trivial
  | .ctxErr => isTrue trivial
  | .sleep _ => isTrue trivial
  | .newRequest _ => isTrue trivial
  | .post .. => isTrue trivial
  | .sendMail .. => isTrue trivial

abbrev reliably (json : JsonText) (http : Http) :
    Choice → (op : Op) → Disk → Option (op.Ans × Disk) :=
  Prog.within Choice.Reliable (Disk.exec json http)

variable {json : JsonText} {http : Http} {cs cs' : List Choice} {d d' : Disk}

/-! ## Without storage failures -/

theorem run_stmt_reliably {s : Stmt} {a : Except String s.Ans}
    (h : (stmt s).run (reliably json http) cs d = some (a, cs', d')) :
    d.execStmt json s = (a, d') := by
  obtain ⟨c, rfl, hexec⟩ := Prog.run_op h
  obtain ⟨hok, hexec⟩ := Prog.within_some.1 hexec
  have hfault : c.fault = none := hok
  simp only [Disk.exec, hfault, Option.some.injEq] at hexec
  exact hexec

theorem run_op_reliably {op : Op} {r : op.Ans}
    (h : (Prog.op op : M op.Ans).run (reliably json http) cs d = some (r, cs', d')) :
    ∃ c, c.Reliable op ∧ d.exec json http c op = some (r, d') := by
  obtain ⟨c, rfl, hexec⟩ := Prog.run_op h
  exact ⟨c, Prog.within_some.1 hexec⟩

theorem lock_reliably {s : Service}
    (h : (Prog.op Op.lock : M Service).run (reliably json http) cs d = some (s, cs', d')) :
    s = d.service ∧ d' = { d with locked := true } :=
  (lock_run (Prog.run_within h)).2

theorem unlock_reliably {s : Service}
    (h : (Prog.op (Op.unlock s) : M Unit).run (reliably json http) cs d = some ((), cs', d')) :
    d' = { d with service := s, locked := false } :=
  unlock_run (Prog.run_within h)

theorem saveConfig_reliably {cfg : Config} {a : Except String Unit}
    (h : (saveConfig cfg).run (reliably json http) cs d = some (a, cs', d')) :
    a = .ok () ∧ d' = { d with settings := cfg.row json } := by
  obtain ⟨answer, ds, t, hstmt, hrest⟩ := Prog.run_bind h
  cases run_stmt_reliably hstmt
  obtain ⟨rfl, -, rfl⟩ := Prog.run_ret hrest
  exact ⟨rfl, rfl⟩

theorem saveSecretRecord_reliably {row : SecretRecord} {a : Except String Unit}
    (h : (saveSecretRecord row).run (reliably json http) cs d = some (a, cs', d')) :
    a = .ok () ∧ d' = { d with secrets := row } := by
  obtain ⟨answer, ds, t, hstmt, hrest⟩ := Prog.run_bind h
  cases run_stmt_reliably hstmt
  obtain ⟨rfl, -, rfl⟩ := Prog.run_ret hrest
  exact ⟨rfl, rfl⟩

theorem setMutedUntil_reliably {until_ : Option Int} {a : Except String Unit}
    (h : (setMutedUntil until_).run (reliably json http) cs d = some (a, cs', d')) :
    a = .ok () ∧ d' = { d with mutedUntil := until_ } := by
  obtain ⟨answer, ds, t, hstmt, hrest⟩ := Prog.run_bind h
  cases run_stmt_reliably hstmt
  obtain ⟨rfl, -, rfl⟩ := Prog.run_ret hrest
  exact ⟨rfl, rfl⟩

theorem loadConfig_reliably (hdelays : (d.settings.config json).retryDelaysSec.getD [] ≠ [])
    {a : Except String Config}
    (h : loadConfig.run (reliably json http) cs d = some (a, cs', d')) :
    a = .ok (d.settings.config json) ∧ d' = d := by
  obtain ⟨answer, ds, t, hstmt, hrest⟩ := Prog.run_bind h
  cases run_stmt_reliably hstmt
  change (if (d.settings.config json).retryDelaysSec.getD [] = [] then _ else _ : M _).run _ ds d =
    _ at hrest
  rw [if_neg hdelays] at hrest
  obtain ⟨rfl, -, rfl⟩ := Prog.run_ret hrest
  exact ⟨rfl, rfl⟩

theorem loadSecretRecord_reliably {a : Except String SecretRecord}
    (h : loadSecretRecord.run (reliably json http) cs d = some (a, cs', d')) :
    a = .ok d.secrets ∧ d' = d := by
  obtain ⟨answer, ds, t, hstmt, hrest⟩ := Prog.run_bind h
  cases run_stmt_reliably hstmt
  obtain ⟨rfl, -, rfl⟩ := Prog.run_ret hrest
  exact ⟨rfl, rfl⟩

theorem getMutedUntil_reliably {a : Except String (Option Int)}
    (h : getMutedUntil.run (reliably json http) cs d = some (a, cs', d')) :
    a = .ok d.mutedUntil ∧ d' = d := by
  obtain ⟨answer, ds, t, hstmt, hrest⟩ := Prog.run_bind h
  cases run_stmt_reliably hstmt
  obtain ⟨rfl, -, rfl⟩ := Prog.run_ret hrest
  exact ⟨rfl, rfl⟩

/-! ## The calls -/

/-- The service is made of what the tables hold, or the key is refused. -/
theorem newService_reliably {crypto : Crypto} {base64Key hostname : String}
    (hdelays : (d.settings.config json).retryDelaysSec.getD [] ≠ []) {r : Except String Service}
    (h : (newService crypto base64Key hostname).run (reliably json http) cs d =
      some (r, cs', d')) :
    d' = d ∧ ∃ now, r = (serviceKey crypto base64Key).map fun key =>
      Service.init crypto key hostname (d.settings.config json) d.secrets d.mutedUntil now := by
  obtain ⟨loaded, ds, t, hload, hrest⟩ := Prog.run_bind h
  obtain ⟨rfl, rfl⟩ := loadConfig_reliably hdelays hload
  obtain ⟨row, ds₁, t₁, hrow, hrest⟩ := Prog.run_bind hrest
  obtain ⟨rfl, rfl⟩ := loadSecretRecord_reliably hrow
  cases hkey : serviceKey crypto base64Key with
  | error err =>
    rw [hkey] at hrest
    obtain ⟨rfl, -, rfl⟩ := Prog.run_ret hrest
    exact ⟨rfl, 0, rfl⟩
  | ok key =>
    rw [hkey] at hrest
    obtain ⟨mutedUntil, ds₂, t₂, hmuted, hrest⟩ := Prog.run_bind hrest
    obtain ⟨rfl, rfl⟩ := getMutedUntil_reliably hmuted
    obtain ⟨now, ds₃, t₃, hnow, hrest⟩ := Prog.run_bind hrest
    obtain ⟨c, -, hexec⟩ := run_op_reliably hnow
    cases hexec
    obtain ⟨rfl, -, rfl⟩ := Prog.run_ret hrest
    exact ⟨rfl, c.now, rfl⟩

/-- A new service is made, or refused, wherever the database works. -/
theorem newService_completes (crypto : Crypto) (base64Key hostname : String) (d : Disk) :
    ∃ restart r d', (newService crypto base64Key hostname).run (reliably json http) restart d =
      some (r, [], d') := by
  have hgoes : ∀ op d, Op.Queries op →
      ∃ c r d', True ∧ reliably json http c op d = some (r, d') := by
    intro op d hop
    refine ⟨{}, ?_⟩
    cases op with
    | sql stmt => exact ⟨_, _, trivial, rfl⟩
    | now => exact ⟨_, _, trivial, rfl⟩
    | _ => cases hop
  obtain ⟨restart, r, d', -, hrun⟩ :=
    Prog.Only.run_total hgoes (only_newService crypto base64Key hostname) d
  exact ⟨restart, r, d', hrun⟩

/-! ### Secrets -/

/-- The secrets that a service with the key has over the row. -/
def openSecrets (crypto : Crypto) (key : Option (List UInt8)) (row : SecretRecord) : Secrets where
  telegramBotToken := key.elim "" fun key => openSecret crypto key row.telegramTokenCipher
  gmailAddress := row.gmailAddress
  gmailAppPassword := key.elim "" fun key => openSecret crypto key row.gmailPasswordCipher

/-- With the key the ciphertext is opened to the secret; without one there is none. -/
def Sealed.Opens (crypto : Crypto) (key : Option (List UInt8)) (x : Sealed) : Prop :=
  (key.elim "" fun key => openSecret crypto key x.cipher) = x.secret

theorem opens_clear {crypto : Crypto} {key : Option (List UInt8)} {x : Sealed} {clear : Bool}
    (hx : x.Opens crypto key) : (if clear then ⟨"", ""⟩ else x : Sealed).Opens crypto key := by
  cases clear with
  | true => cases key <;> rfl
  | false => exact hx

theorem encrypt_reliably {crypto : Crypto} {key : Option (List UInt8)} {text : String}
    {a : Except String String}
    (h : (encrypt crypto key text).run (reliably json http) cs d = some (a, cs', d')) :
    d' = d ∧ ∀ cipher, a = .ok cipher →
      ∃ k nonce, key = some k ∧ nonce.length = nonceSize ∧
        cipher = crypto.encrypt k nonce text := by
  cases key with
  | none =>
    obtain ⟨rfl, -, rfl⟩ := Prog.run_ret h
    exact ⟨rfl, fun _ ha => by cases ha⟩
  | some k =>
    obtain ⟨answer, ds, t, hnonce, hrest⟩ := Prog.run_bind h
    obtain ⟨c, hc, hexec⟩ := run_op_reliably hnonce
    cases hfault : c.fault with
    | some err =>
      simp only [Disk.exec, exec, hfault] at hexec
      cases hexec
      obtain ⟨rfl, -, rfl⟩ := Prog.run_ret hrest
      exact ⟨rfl, fun _ ha => by cases ha⟩
    | none =>
      simp only [Disk.exec, exec, hfault] at hexec
      cases hexec
      obtain ⟨rfl, -, rfl⟩ := Prog.run_ret hrest
      exact ⟨rfl, fun _ ha => ⟨k, c.nonce, rfl, hc, (Except.ok.inj ha).symm⟩⟩

theorem changeSecret_reliably {s : Service} {given : String} {clear : Bool} {old : Sealed}
    (hold : old.Opens aesCrypto s.key) {a : Except String Sealed}
    (h : (changeSecret aesCrypto s given clear old).run (reliably json http) cs d =
      some (a, cs', d')) :
    d' = d ∧ ∀ x, a = .ok x → x.Opens aesCrypto s.key := by
  unfold changeSecret at h
  by_cases hgiven : trim given ≠ ""
  · rw [if_pos hgiven] at h
    cases hwritable : s.secretsWritable with
    | false =>
      rw [hwritable] at h
      obtain ⟨rfl, -, rfl⟩ := Prog.run_ret h
      exact ⟨rfl, fun _ ha => by cases ha⟩
    | true =>
      rw [hwritable] at h
      obtain ⟨answer, ds, t, hencrypt, hrest⟩ := Prog.run_bind h
      obtain ⟨rfl, hcipher⟩ := encrypt_reliably hencrypt
      cases answer with
      | error err =>
        obtain ⟨rfl, -, rfl⟩ := Prog.run_ret hrest
        exact ⟨rfl, fun _ ha => by cases ha⟩
      | ok cipher =>
        obtain ⟨rfl, -, rfl⟩ := Prog.run_ret hrest
        obtain ⟨k, nonce, hk, hnonce, rfl⟩ := hcipher cipher rfl
        have hopens : Sealed.Opens aesCrypto s.key
            ⟨trim given, aesCrypto.encrypt k nonce (trim given)⟩ := by
          rw [hk]
          exact openSecret_encrypt hnonce (trim given)
        exact ⟨rfl, fun x ha => Except.ok.inj ha ▸ opens_clear hopens⟩
  · rw [if_neg hgiven] at h
    obtain ⟨rfl, -, rfl⟩ := Prog.run_ret h
    exact ⟨rfl, fun x ha => Except.ok.inj ha ▸ opens_clear hold⟩

/-! ### The configuration -/

/-- The secrets are those that the row gives, and there are delays, all of them `int`s. -/
structure Service.Sound (crypto : Crypto) (s : Service) : Prop where
  secrets : s.secrets = openSecrets crypto s.key s.secretRec
  delays : s.cfg.retryDelaysSec.getD [] ≠ []
  fit : DelaysFit s.cfg.retryDelaysSec

theorem fit_sanitizeRetryDelays {items : List Int} (h : DelaysFit (some items)) :
    DelaysFit (some (sanitizeRetryDelays items)) := by
  intro xs hxs x hx
  cases hxs
  unfold sanitizeRetryDelays at hx
  simp only at hx
  split_ifs at hx
  · have hrange : ∀ y ∈ [1, 5, 15], minInt64 ≤ y ∧ y ≤ maxInt64 := by decide
    exact hrange x hx
  · exact h items rfl x (List.mem_of_mem_filter hx)

/-- With the given delays or the old ones, there are some. -/
theorem delays_apply {i : UpdateConfigInput} {cfg : Config}
    (hdelays : cfg.retryDelaysSec.getD [] ≠ []) : (i.apply cfg).retryDelaysSec.getD [] ≠ [] := by
  unfold UpdateConfigInput.apply
  cases i.retryDelaysSec with
  | none => exact hdelays
  | some items => exact sanitizeRetryDelays_ne_nil items

theorem fit_apply {i : UpdateConfigInput} {cfg : Config} (hi : DelaysFit i.retryDelaysSec)
    (hcfg : DelaysFit cfg.retryDelaysSec) : DelaysFit (i.apply cfg).retryDelaysSec := by
  unfold UpdateConfigInput.apply
  cases hgiven : i.retryDelaysSec with
  | none => exact hcfg
  | some items => exact fit_sanitizeRetryDelays (hgiven ▸ hi)

/-- A request is rejected before anything is stored, or all of it is stored. -/
theorem changeConfig_reliably {s : Service} (hs : s.Sound aesCrypto) {i : UpdateConfigInput}
    (hi : DelaysFit i.retryDelaysSec) {a : Except String Service}
    (h : (changeConfig aesCrypto s i).run (reliably json http) cs d = some (a, cs', d')) :
    (∃ err, a = .error err ∧ d' = d) ∨
      ∃ s', a = .ok s' ∧ s'.Sound aesCrypto ∧ s'.key = s.key ∧ s'.status = s.status ∧
        d' = { d with settings := s'.cfg.row json, secrets := s'.secretRec } := by
  unfold changeConfig at h
  cases hvalid : validateConfig (i.apply s.cfg) with
  | some err =>
    simp only [hvalid] at h
    obtain ⟨rfl, -, rfl⟩ := Prog.run_ret h
    exact .inl ⟨err, rfl, rfl⟩
  | none =>
    simp only [hvalid] at h
    obtain ⟨token, ds, t, htoken, hrest⟩ := Prog.run_bind h
    obtain ⟨rfl, hopens⟩ := changeSecret_reliably (by rw [hs.secrets]; rfl) htoken
    cases token with
    | error err =>
      obtain ⟨rfl, -, rfl⟩ := Prog.run_ret hrest
      exact .inl ⟨err, rfl, rfl⟩
    | ok token =>
      obtain ⟨password, ds₁, t₁, hpassword, hrest⟩ := Prog.run_bind hrest
      obtain ⟨rfl, hopens'⟩ := changeSecret_reliably (by rw [hs.secrets]; rfl) hpassword
      cases password with
      | error err =>
        obtain ⟨rfl, -, rfl⟩ := Prog.run_ret hrest
        exact .inl ⟨err, rfl, rfl⟩
      | ok password =>
        obtain ⟨saved, ds₂, t₂, hsave, hrest⟩ := Prog.run_bind hrest
        obtain ⟨rfl, rfl⟩ := saveConfig_reliably hsave
        obtain ⟨saved, ds₃, t₃, hsave, hrest⟩ := Prog.run_bind hrest
        obtain ⟨rfl, rfl⟩ := saveSecretRecord_reliably hsave
        obtain ⟨rfl, -, rfl⟩ := Prog.run_ret hrest
        refine .inr ⟨_, rfl, ⟨?_, delays_apply hs.delays, fit_apply hi hs.fit⟩, rfl, rfl, rfl⟩
        unfold openSecrets
        rw [hopens token rfl, hopens' password rfl, hs.secrets]
        rfl

/-! ## Memory and tables -/

/-- The tables hold what the service has. -/
structure Stored (json : JsonText) (crypto : Crypto) (base64Key : String) (d : Disk) : Prop where
  settings : d.settings = d.service.cfg.row json
  secrets : d.secrets = d.service.secretRec
  mutedUntil : d.mutedUntil = d.service.status.mutedUntil
  key : serviceKey crypto base64Key = .ok d.service.key
  sound : d.service.Sound crypto

section Stored

variable {base64Key hostname : String}

theorem updateConfig_stored (hd : Stored json aesCrypto base64Key d)
    {i : UpdateConfigInput} (hi : DelaysFit i.retryDelaysSec) {a : Except String ConfigView}
    (h : (updateConfig aesCrypto i).run (reliably json http) cs d = some (a, cs', d')) :
    Stored json aesCrypto base64Key d' := by
  obtain ⟨s, ds, t, hlock, hrest⟩ := Prog.run_bind h
  obtain ⟨rfl, rfl⟩ := lock_reliably hlock
  obtain ⟨changed, ds₁, t₁, hchange, hrest⟩ := Prog.run_bind hrest
  rcases changeConfig_reliably hd.sound hi hchange with
    ⟨err, rfl, rfl⟩ | ⟨s', rfl, hsound, hkey, hstatus, rfl⟩
  · obtain ⟨_, ds₂, t₂, hunlock, hrest⟩ := Prog.run_bind hrest
    obtain rfl := unlock_reliably hunlock
    obtain ⟨-, -, rfl⟩ := Prog.run_ret hrest
    exact ⟨hd.settings, hd.secrets, hd.mutedUntil, hd.key, hd.sound⟩
  · obtain ⟨_, ds₂, t₂, hunlock, hrest⟩ := Prog.run_bind hrest
    obtain rfl := unlock_reliably hunlock
    obtain ⟨-, -, rfl⟩ := Prog.run_ret hrest
    exact ⟨rfl, rfl, hd.mutedUntil.trans (congrArg Status.mutedUntil hstatus.symm),
      hd.key.trans (congrArg Except.ok hkey.symm), hsound⟩

theorem saveSilence_stored (hd : Stored json aesCrypto base64Key d) {mutedUntil : Option Int}
    {a : Except String Unit}
    (h : (saveSilence mutedUntil).run (reliably json http) cs d = some (a, cs', d')) :
    Stored json aesCrypto base64Key d' := by
  obtain ⟨saved, ds, t, hset, hrest⟩ := Prog.run_bind h
  obtain ⟨rfl, rfl⟩ := setMutedUntil_reliably hset
  obtain ⟨s, ds₁, t₁, hlock, hrest⟩ := Prog.run_bind hrest
  obtain ⟨rfl, rfl⟩ := lock_reliably hlock
  obtain ⟨_, ds₂, t₂, hunlock, hrest⟩ := Prog.run_bind hrest
  obtain rfl := unlock_reliably hunlock
  obtain ⟨-, -, rfl⟩ := Prog.run_ret hrest
  exact ⟨hd.settings, hd.secrets, rfl, hd.key, ⟨hd.sound.secrets, hd.sound.delays, hd.sound.fit⟩⟩

theorem setSilence_stored (hd : Stored json aesCrypto base64Key d) {minutes : Int}
    {a : Except String Int}
    (h : (setSilence minutes).run (reliably json http) cs d = some (a, cs', d')) :
    Stored json aesCrypto base64Key d' := by
  unfold setSilence at h
  split_ifs at h
  · obtain ⟨-, -, rfl⟩ := Prog.run_ret h
    exact hd
  · obtain ⟨now, ds, t, hnow, hrest⟩ := Prog.run_bind h
    obtain ⟨c, -, hexec⟩ := run_op_reliably hnow
    cases hexec
    obtain ⟨saved, ds₁, t₁, hsave, hrest⟩ := Prog.run_bind hrest
    obtain ⟨-, -, rfl⟩ := Prog.run_ret hrest
    exact saveSilence_stored hd hsave

/-! ### Runs -/

/-- A call that changes the service. The delays of a request are `int`s. -/
inductive Request where
  | updateConfig (i : UpdateConfigInput) (hi : DelaysFit i.retryDelaysSec)
  | setSilence (minutes : Int)
  | clearSilence

/-- A completed call with the choices for its operations. -/
structure Completed where
  request : Request
  choices : List Choice

/-- The call, whatever it answers. -/
def perform (crypto : Crypto) : Request → M Unit
  | .updateConfig i _ => do
    let _ ← updateConfig crypto i
    return ()
  | .setSilence minutes => do
    let _ ← setSilence minutes
    return ()
  | .clearSilence => do
    let _ ← clearSilence
    return ()

def step (json : JsonText) (http : Http) (crypto : Crypto) (d : Disk) (c : Completed) :
    Option Disk :=
  ((perform crypto c.request).run (reliably json http) c.choices d).map fun r => r.2.2

theorem stored_step (d : Disk) (c : Completed) (d' : Disk)
    (hd : Stored json aesCrypto base64Key d)
    (h : step json http aesCrypto d c = some d') : Stored json aesCrypto base64Key d' := by
  obtain ⟨⟨_, cs', d''⟩, hrun, rfl⟩ := Option.map_eq_some_iff.1 h
  cases hrequest : c.request with
  | updateConfig i hi =>
    rw [hrequest] at hrun
    obtain ⟨a, ds, t, hcall, hrest⟩ := Prog.run_bind hrun
    obtain ⟨-, -, rfl⟩ := Prog.run_ret hrest
    exact updateConfig_stored hd hi hcall
  | setSilence minutes =>
    rw [hrequest] at hrun
    obtain ⟨a, ds, t, hcall, hrest⟩ := Prog.run_bind hrun
    obtain ⟨-, -, rfl⟩ := Prog.run_ret hrest
    exact setSilence_stored hd hcall
  | clearSilence =>
    rw [hrequest] at hrun
    obtain ⟨a, ds, t, hcall, hrest⟩ := Prog.run_bind hrun
    obtain ⟨-, -, rfl⟩ := Prog.run_ret hrest
    exact saveSilence_stored hd hcall

/-- A new service over a fresh database has what the tables hold. -/
theorem stored_fresh (hjson : json.RoundTrips) {s : Service}
    (h : (newService aesCrypto base64Key hostname).run (reliably json http) cs
      (Disk.fresh json) = some (.ok s, cs', d')) :
    Stored json aesCrypto base64Key { d' with service := s } := by
  have hfit : DelaysFit defaultConfig.retryDelaysSec := by decide
  have hsome : defaultConfig.retryDelaysSec.getD [] ≠ [] := by decide
  have hconfig : (Disk.fresh json).settings.config json = defaultConfig := config_row hjson hfit
  obtain ⟨rfl, now, hs⟩ := newService_reliably (by rw [hconfig]; exact hsome) h
  rw [hconfig] at hs
  cases hkey : serviceKey aesCrypto base64Key with
  | error err =>
    rw [hkey] at hs
    cases hs
  | ok key =>
    rw [hkey] at hs
    cases hs
    exact ⟨rfl, rfl, rfl, hkey, ⟨rfl, hsome, hfit⟩⟩

/-- **A restart changes nothing.** After any calls, a new service with the same key is made, and it
has the configuration, the secrets, their row and the mute window of the running one. -/
theorem restart_same (hjson : json.RoundTrips) {start : List Choice}
    {s : Service} {d₀ : Disk}
    (hstart : (newService aesCrypto base64Key hostname).run (reliably json http) start
      (Disk.fresh json) = some (.ok s, [], d₀))
    {calls : List Completed} {d : Disk}
    (hrun : Lts.run (step json http aesCrypto) { d₀ with service := s } calls = some d)
    (hostname' : String) :
    (∃ restart r d', (newService aesCrypto base64Key hostname').run (reliably json http) restart
      d = some (r, [], d')) ∧
    ∀ restart r rest d', (newService aesCrypto base64Key hostname').run (reliably json http)
      restart d = some (r, rest, d') →
      ∃ s', r = .ok s' ∧ s'.cfg = d.service.cfg ∧ s'.secrets = d.service.secrets ∧
        s'.secretRec = d.service.secretRec ∧
        s'.status.mutedUntil = d.service.status.mutedUntil := by
  refine ⟨newService_completes aesCrypto base64Key hostname' d, ?_⟩
  intro restart r rest d' hrestart
  have hd : Stored json aesCrypto base64Key d :=
    Lts.invariant stored_step (stored_fresh hjson hstart) hrun
  have hconfig : d.settings.config json = d.service.cfg := by
    rw [hd.settings, config_row hjson hd.sound.fit]
  obtain ⟨-, now, hr⟩ := newService_reliably (by rw [hconfig]; exact hd.sound.delays) hrestart
  rw [hd.key, hconfig, hd.secrets, hd.mutedUntil] at hr
  exact ⟨_, hr, rfl, hd.sound.secrets.symm, rfl, rfl⟩

end Stored

/-! ### A run -/

/-- A token is set and a password set and cleared at once, a request is rejected, and the service is
silenced for an hour. -/
def changes : List Completed :=
  [⟨.updateConfig
      { recipientEmails := some ["ops@example.org", " "], retryDelaysSec := some [-1, 2, 30]
        telegramBotToken := " 12:ab ", gmailAppPassword := "word", clearGmailAppPassword := true }
      (by decide),
    [{}, { nonce := List.replicate 12 7 }, { nonce := List.replicate 12 8 }, {}, {}, {}]⟩,
    ⟨.updateConfig { warningPercent := some 95 } (by decide), [{}, {}]⟩,
    ⟨.setSilence 60, [{ now := 5 }, {}, {}, {}]⟩]

/-- The Base64 text of 32 zero bytes. -/
def zeroKey : String := "AAAAAAAAAAAAAAAAAAAAAAAAAAAAAAAAAAAAAAAAAAA="

def started : Service :=
  Service.init aesCrypto (some (List.replicate 32 0)) "host" defaultConfig ⟨"", "", ""⟩
    none 0

theorem restart_same_changes :
    ∃ d : Disk, d.service.secrets = ⟨"12:ab", "", ""⟩ ∧
      d.service.cfg.recipientEmails = some ["ops@example.org"] ∧
      d.service.cfg.retryDelaysSec = some [2, 30] ∧
      d.service.status.mutedUntil = some 3600000000005 ∧
      ((∃ restart r d', (newService aesCrypto zeroKey "new").run
        (reliably plainJsonText plainHttp) restart d = some (r, [], d')) ∧
      ∀ restart r rest d', (newService aesCrypto zeroKey "new").run
        (reliably plainJsonText plainHttp) restart d = some (r, rest, d') →
        ∃ s', r = .ok s' ∧ s'.cfg = d.service.cfg ∧ s'.secrets = d.service.secrets ∧
          s'.secretRec = d.service.secretRec ∧
          s'.status.mutedUntil = d.service.status.mutedUntil) := by
  have hstart : (newService aesCrypto zeroKey "host").run
      (reliably plainJsonText plainHttp) [{}, {}, {}, {}] (Disk.fresh plainJsonText) =
        some (.ok started, [], Disk.fresh plainJsonText) := rfl
  obtain ⟨d, hrun, hsecrets, hemails, hdelays, hmuted⟩ :
      ∃ d, Lts.run (step plainJsonText plainHttp aesCrypto)
          { Disk.fresh plainJsonText with service := started } changes = some d ∧
        d.service.secrets = ⟨"12:ab", "", ""⟩ ∧
        d.service.cfg.recipientEmails = some ["ops@example.org"] ∧
        d.service.cfg.retryDelaysSec = some [2, 30] ∧
        d.service.status.mutedUntil = some 3600000000005 := ⟨_, rfl, rfl, rfl, rfl, rfl⟩
  exact ⟨d, hsecrets, hemails, hdelays, hmuted,
    restart_same roundTrips_plainJsonText hstart hrun "new"⟩

end QuickVps.Alerts
