import QuickVps.Alerts.Notifier

/-!
# The alert service

The methods of `Service` as programs. A method under the write lock takes the service with `lock`
and gives the new one back with `unlock`; one under the read lock works on a copy.

* `newService` — the service over a database;
* `evaluateSnapshot` — one snapshot of the collector, with the events it triggers;
* `updateConfig` — a change of the configuration and the secrets;
* `triggerTest`, `setSilence`, `clearSilence`, `cleanupOldEvents`, and what is only shown.
-/

namespace QuickVps.Alerts

open Go

def isSilencedAt (mutedUntil : Option Int) (now : Int) : Bool :=
  mutedUntil.any fun until_ => now < until_

/-- The mask of a secret shows its last four bytes, if it has more. -/
def maskSecret (secret : String) (present : Bool) : List UInt8 :=
  if !present then []
  else
    let trimmed := trim secret
    if trimmed = "" then bytes "********"
    else if (bytes trimmed).length ≤ 4 then bytes "****"
    else bytes "****" ++ (bytes trimmed).drop ((bytes trimmed).length - 4)

def sanitizeStringSlice (items : List String) : List String :=
  (items.map trim).filter fun clean => clean ≠ ""

def sanitizeRetryDelays (items : List Int) : List Int :=
  let out := items.filter fun d => 0 ≤ d
  if out = [] then [1, 5, 15] else out

theorem sanitizeRetryDelays_ne_nil (items : List Int) : sanitizeRetryDelays items ≠ [] := by
  unfold sanitizeRetryDelays
  simp only
  split_ifs with hnil
  · simp
  · exact hnil

theorem nonneg_sanitizeRetryDelays {items : List Int} {n : Int}
    (h : n ∈ sanitizeRetryDelays items) : 0 ≤ n := by
  unfold sanitizeRetryDelays at h
  simp only at h
  split_ifs at h
  · have hall : ∀ d ∈ [1, 5, 15], (0 : Int) ≤ d := by decide
    exact hall n h
  · exact of_decide_eq_true (List.mem_filter.1 h).2

def formatAlertMessage (level : Level) (hostname : String) (cpuPercent : Float64) (now : Int) :
    String :=
  "[QuickVPS][" ++ level.upper ++ "] Host=" ++ hostname ++ " CPU=" ++
    String.ofList (formatFixed2 cpuPercent) ++ "% Time=" ++ String.ofList (formatRFC3339 now)

def formatTestMessage (hostname : String) (now : Int) : String :=
  "[QuickVPS][TEST] Host=" ++ hostname ++ " Time=" ++ String.ofList (formatRFC3339 now)

/-! ## Construction -/

def errMissingEncryptionKey : String := "missing QUICKVPS_ALERTS_KEY encryption key"

def newCipherFromBase64Key (crypto : Crypto) (base64Key : String) : Except String (List UInt8) :=
  if base64Key = "" then .error errMissingEncryptionKey
  else
    match crypto.decodeBase64 base64Key with
    | .error err => .error ("decode alert key: " ++ err)
    | .ok key =>
      if key.length ≠ 32 then
        .error ("invalid alert key length: want 32 bytes, got " ++
          String.ofList (itoa (key.length : Int)))
      else .ok key

/-- A secret that cannot be decrypted is empty. -/
def openSecret (crypto : Crypto) (key : List UInt8) (cipher : String) : String :=
  if cipher = "" then ""
  else
    match crypto.decrypt key cipher with
    | .error _ => ""
    | .ok plain => plain

/-- The key, if one is given. -/
def serviceKey (crypto : Crypto) (base64Key : String) : Except String (Option (List UInt8)) :=
  if base64Key = "" then .ok none else (newCipherFromBase64Key crypto base64Key).map some

/-- The service over what the tables hold. -/
def Service.init (crypto : Crypto) (key : Option (List UInt8)) (hostname : String) (cfg : Config)
    (row : SecretRecord) (mutedUntil : Option Int) (now : Int) : Service where
  key := key
  secretsWritable := key.isSome
  hostname := if trim hostname = "" then "unknown-host" else hostname
  cfg := cfg
  secrets :=
    { telegramBotToken := key.elim "" fun key => openSecret crypto key row.telegramTokenCipher
      gmailAddress := row.gmailAddress
      gmailAppPassword := key.elim "" fun key => openSecret crypto key row.gmailPasswordCipher }
  secretRec := row
  status :=
    { currentState := .none
      lastCPUPercent := .num 0
      lastEvaluatedAt := zeroTime
      mutedUntil := mutedUntil
      silenced := isSilencedAt mutedUntil now
      lastWarningAt := none
      lastCriticalAt := none
      lastRecoveryAt := none
      readOnly := false }
  evaluator := newEvaluator
  historyDays := defaultHistoryRetentionDays
  cleanupEvery := 3600000000000
  lastCleanupRun := zeroTime

def newService (crypto : Crypto) (base64Key hostname : String) : M (Except String Service) := do
  match ← loadConfig with
  | .error err => return .error err
  | .ok cfg =>
    match ← loadSecretRecord with
    | .error err => return .error err
    | .ok row =>
      match serviceKey crypto base64Key with
      | .error err => return .error err
      | .ok key =>
        match ← getMutedUntil with
        | .error err => return .error err
        | .ok mutedUntil =>
          let now ← (Prog.op Op.now : M Int)
          return .ok (Service.init crypto key hostname cfg row mutedUntil now)

/-- New tables with these settings and secrets, and a service without a key over them. -/
def World.fresh (cfg : Config) (row : SecretRecord) : World where
  settings := cfg
  secrets := row
  events := .empty
  mutedUntil := none
  service := Service.init plainCrypto none "host" cfg row none 0
  locked := false

/-! ## Snapshots -/

/-- The locked part of `EvaluateSnapshot`. -/
def Service.evaluate (s : Service) (now : Int) (cpuPercent : Float64) : List Trigger × Service :=
  let silenced := isSilencedAt s.status.mutedUntil now
  let (triggers, evaluator) := s.evaluator.evaluate now cpuPercent s.cfg silenced
  (triggers,
    { s with
      evaluator := evaluator
      status :=
        { s.status with
          lastEvaluatedAt := now
          lastCPUPercent := cpuPercent
          silenced := silenced
          currentState := evaluator.state
          lastWarningAt := evaluator.lastWarningAt
          lastCriticalAt := evaluator.lastCriticalAt
          lastRecoveryAt := evaluator.lastRecoveryAt } })

/-- The event of a trigger is saved as far as the store works. -/
def dispatch (hostname : String) (cfg : Config) (secrets : Secrets) (now : Int)
    (trigger : Trigger) : M Unit := do
  let message := formatAlertMessage trigger.level hostname trigger.cpuPercent now
  let results ← notify cfg secrets trigger.level message
  let _ ← saveEvent trigger.level message trigger.cpuPercent results now
  return ()

def dispatchAll (hostname : String) (cfg : Config) (secrets : Secrets) (now : Int) :
    List Trigger → M Unit
  | [] => return ()
  | trigger :: rest => do
    dispatch hostname cfg secrets now trigger
    dispatchAll hostname cfg secrets now rest

def evaluateSnapshot (now : Int) (cpuPercent : Float64) : M Unit := do
  let s ← (Prog.op Op.lock : M Service)
  let (triggers, s') := s.evaluate now cpuPercent
  (Prog.op (Op.unlock s') : M Unit)
  dispatchAll s.hostname s.cfg s.secrets now triggers

def triggerTest : M (Except String Event) := do
  let s ← (Prog.op Op.read : M Service)
  if !s.cfg.telegramEnabled && !s.cfg.emailEnabled then
    return .error "both channels are disabled"
  let now ← (Prog.op Op.now : M Int)
  let msg := formatTestMessage s.hostname now
  let results ← notify s.cfg s.secrets .test msg
  match ← saveEvent .test msg (.num 0) results now with
  | .error err => return .error err
  | .ok id => return .ok ⟨id, .test, msg, .num 0, results, now⟩

/-! ## Configuration -/

def Service.configView (s : Service) (readOnly : Bool) : ConfigView where
  config := s.cfg
  hasTelegramToken := trim s.secretRec.telegramTokenCipher ≠ ""
  telegramTokenMask :=
    maskSecret s.secrets.telegramBotToken (trim s.secretRec.telegramTokenCipher ≠ "")
  hasGmailPassword := trim s.secretRec.gmailPasswordCipher ≠ ""
  gmailPasswordMask :=
    maskSecret s.secrets.gmailAppPassword (trim s.secretRec.gmailPasswordCipher ≠ "")
  gmailAddress := trim s.secretRec.gmailAddress
  secretsWritable := s.secretsWritable
  readOnly := readOnly

def configView (readOnly : Bool) : M ConfigView := do
  let s ← (Prog.op Op.read : M Service)
  return s.configView readOnly

/-- The configuration with the given fields. -/
def UpdateConfigInput.apply (i : UpdateConfigInput) (cfg : Config) : Config where
  enabled := i.enabled.getD cfg.enabled
  warningPercent := i.warningPercent.getD cfg.warningPercent
  warningForSec := i.warningForSec.getD cfg.warningForSec
  criticalPercent := i.criticalPercent.getD cfg.criticalPercent
  criticalForSec := i.criticalForSec.getD cfg.criticalForSec
  recoveryPercent := i.recoveryPercent.getD cfg.recoveryPercent
  recoveryForSec := i.recoveryForSec.getD cfg.recoveryForSec
  cooldownSec := i.cooldownSec.getD cfg.cooldownSec
  telegramEnabled := i.telegramEnabled.getD cfg.telegramEnabled
  emailEnabled := i.emailEnabled.getD cfg.emailEnabled
  recipientEmails := (i.recipientEmails.map sanitizeStringSlice).or cfg.recipientEmails
  telegramChatIDs := (i.telegramChatIDs.map sanitizeStringSlice).or cfg.telegramChatIDs
  retryDelaysSec := (i.retryDelaysSec.map sanitizeRetryDelays).or cfg.retryDelaysSec

def encrypt (crypto : Crypto) (key : Option (List UInt8)) (plaintext : String) :
    M (Except String String) := do
  let some key := key | return .error errMissingEncryptionKey
  match ← (Prog.op Op.nonce : M (Except String (List UInt8))) with
  | .error err => return .error ("read nonce: " ++ err)
  | .ok nonce => return .ok (crypto.encrypt key nonce plaintext)

/-- A secret with its ciphertext. -/
structure Sealed where
  secret : String
  cipher : String

/-- The new value of a secret: the given one, encrypted, if there is one, and nothing if it is to be
cleared. -/
def changeSecret (crypto : Crypto) (s : Service) (given : String) (clear : Bool) (old : Sealed) :
    M (Except String Sealed) := do
  if trim given ≠ "" then
    if !s.secretsWritable then return .error errMissingEncryptionKey
    match ← encrypt crypto s.key (trim given) with
    | .error err => return .error err
    | .ok cipher => return .ok (if clear then ⟨"", ""⟩ else ⟨trim given, cipher⟩)
  else return .ok (if clear then ⟨"", ""⟩ else old)

/-- The locked part of `UpdateConfig`: the service to go on with, or the error that leaves it as it
was. -/
def changeConfig (crypto : Crypto) (s : Service) (i : UpdateConfigInput) :
    M (Except String Service) := do
  let cfg := i.apply s.cfg
  match validateConfig cfg with
  | some err => return .error err
  | none =>
    match ← changeSecret crypto s i.telegramBotToken i.clearTelegramBotToken
        ⟨s.secrets.telegramBotToken, s.secretRec.telegramTokenCipher⟩ with
    | .error err => return .error err
    | .ok token =>
      let given := trim i.gmailAddress
      match ← changeSecret crypto s i.gmailAppPassword i.clearGmailAppPassword
          ⟨s.secrets.gmailAppPassword, s.secretRec.gmailPasswordCipher⟩ with
      | .error err => return .error err
      | .ok password =>
        let row : SecretRecord :=
          { telegramTokenCipher := token.cipher
            gmailAddress := if given ≠ "" then given else s.secretRec.gmailAddress
            gmailPasswordCipher := password.cipher }
        match ← saveConfig cfg with
        | .error err => return .error err
        | .ok () =>
          match ← saveSecretRecord row with
          | .error err => return .error err
          | .ok () =>
            return .ok
              { s with
                cfg := cfg
                secrets :=
                  { telegramBotToken := token.secret
                    gmailAddress := if given ≠ "" then given else s.secrets.gmailAddress
                    gmailAppPassword := password.secret }
                secretRec := row }

/-- The view that `UpdateConfig` answers. -/
def Service.updatedView (s : Service) : ConfigView where
  config := s.cfg
  hasTelegramToken := s.secretRec.telegramTokenCipher ≠ ""
  telegramTokenMask :=
    maskSecret s.secrets.telegramBotToken (s.secretRec.telegramTokenCipher ≠ "")
  hasGmailPassword := s.secretRec.gmailPasswordCipher ≠ ""
  gmailPasswordMask :=
    maskSecret s.secrets.gmailAppPassword (s.secretRec.gmailPasswordCipher ≠ "")
  gmailAddress := s.secretRec.gmailAddress
  secretsWritable := s.secretsWritable
  readOnly := false

def updateConfig (crypto : Crypto) (i : UpdateConfigInput) : M (Except String ConfigView) := do
  let s ← (Prog.op Op.lock : M Service)
  match ← changeConfig crypto s i with
  | .error err => do
    (Prog.op (Op.unlock s) : M Unit)
    return .error err
  | .ok s' => do
    (Prog.op (Op.unlock s') : M Unit)
    return .ok s'.updatedView

/-! ## Status, silence and history -/

def status (readOnly : Bool) : M Status := do
  let s ← (Prog.op Op.read : M Service)
  let now ← (Prog.op Op.now : M Int)
  return { s.status with readOnly := readOnly, silenced := isSilencedAt s.status.mutedUntil now }

/-- Set the mute window in the status. -/
def Service.silence (s : Service) (mutedUntil : Option Int) : Service :=
  { s with status := { s.status with mutedUntil := mutedUntil, silenced := mutedUntil.isSome } }

/-- Save the mute window, then take it over. -/
def saveSilence (mutedUntil : Option Int) : M (Except String Unit) := do
  match ← setMutedUntil mutedUntil with
  | .error err => return .error err
  | .ok () => do
    let s ← (Prog.op Op.lock : M Service)
    (Prog.op (Op.unlock (s.silence mutedUntil)) : M Unit)
    return .ok ()

def setSilence (minutes : Int) : M (Except String Int) := do
  if minutes ≤ 0 ∨ minutes > 1440 then return .error "minutes must be between 1 and 1440"
  let now ← (Prog.op Op.now : M Int)
  let until_ := now + minutes * 60000000000
  return (← saveSilence (some until_)).map fun _ => until_

def clearSilence : M (Except String Unit) := saveSilence none

def listHistory (limit beforeID : Int) : M (Except String (List Event)) := listEvents limit beforeID

def isEnabled : M Bool := do
  let s ← (Prog.op Op.read : M Service)
  return s.cfg.enabled

def historyRetentionDays : M Int := Prog.op Op.historyDays

def cleanupOldEvents : M Unit := do
  let s ← (Prog.op Op.lock : M Service)
  let now ← (Prog.op Op.now : M Int)
  if timeSub now s.lastCleanupRun < s.cleanupEvery then (Prog.op (Op.unlock s) : M Unit)
  else
    let now ← (Prog.op Op.now : M Int)
    let _ ← cleanupEvents s.historyDays
    (Prog.op (Op.unlock { s with lastCleanupRun := now }) : M Unit)

end QuickVps.Alerts
