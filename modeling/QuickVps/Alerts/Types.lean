import QuickVps.Go.Json

/-!
# Alert records

The configuration of the alert service, its default and its check, and the records that the service
keeps and shows: secrets, views, status, events.
-/

namespace QuickVps.Alerts

open Go

inductive Level where
  | none
  | warning
  | critical
  | recovery
  | test
  deriving DecidableEq, Repr

def Level.text : Level → String
  | .none => "none"
  | .warning => "warning"
  | .critical => "critical"
  | .recovery => "recovery"
  | .test => "test"

/-- The percentages are finite numbers: neither a JSON body nor the settings table holds a
`NaN`. -/
structure Config where
  enabled : Bool
  warningPercent : ℚ
  warningForSec : Int
  criticalPercent : ℚ
  criticalForSec : Int
  recoveryPercent : ℚ
  recoveryForSec : Int
  cooldownSec : Int
  telegramEnabled : Bool
  emailEnabled : Bool
  recipientEmails : Option (List String)
  telegramChatIDs : Option (List String)
  retryDelaysSec : Option (List Int)
  deriving DecidableEq

def defaultConfig : Config where
  enabled := true
  warningPercent := 75
  warningForSec := 300
  criticalPercent := 85
  criticalForSec := 600
  recoveryPercent := 70
  recoveryForSec := 300
  cooldownSec := 1800
  telegramEnabled := true
  emailEnabled := true
  recipientEmails := none
  telegramChatIDs := none
  retryDelaysSec := some [1, 5, 15]

/-- The error of a configuration that is refused. -/
def validateConfig (cfg : Config) : Option String :=
  if cfg.warningPercent ≤ 0 ∨ cfg.warningPercent > 100 then
    some "warning_percent must be > 0 and <= 100"
  else if cfg.criticalPercent ≤ 0 ∨ cfg.criticalPercent > 100 then
    some "critical_percent must be > 0 and <= 100"
  else if cfg.recoveryPercent < 0 ∨ cfg.recoveryPercent > 100 then
    some "recovery_percent must be >= 0 and <= 100"
  else if cfg.warningPercent ≥ cfg.criticalPercent then
    some "warning_percent must be lower than critical_percent"
  else if cfg.recoveryPercent ≥ cfg.warningPercent then
    some "recovery_percent must be lower than warning_percent"
  else if cfg.warningForSec ≤ 0 ∨ cfg.criticalForSec ≤ 0 ∨ cfg.recoveryForSec ≤ 0 then
    some "window seconds must be > 0"
  else if cfg.cooldownSec < 0 then
    some "cooldown_sec must be >= 0"
  else none

/-- What an accepted configuration satisfies, as far as the evaluator relies on it. -/
structure Config.Valid (cfg : Config) : Prop where
  warning_lt_critical : cfg.warningPercent < cfg.criticalPercent
  recovery_lt_warning : cfg.recoveryPercent < cfg.warningPercent
  warningForSec_pos : 0 < cfg.warningForSec
  criticalForSec_pos : 0 < cfg.criticalForSec
  recoveryForSec_pos : 0 < cfg.recoveryForSec
  cooldownSec_nonneg : 0 ≤ cfg.cooldownSec

theorem valid_of_validateConfig {cfg : Config} (h : validateConfig cfg = none) : cfg.Valid := by
  unfold validateConfig at h
  split_ifs at h with h₁ h₂ h₃ h₄ h₅ h₆ h₇
  exact ⟨by simpa using h₄, by simpa using h₅, by omega, by omega, by omega, by omega⟩

/-- The window lengths and the cooldown are `int64` durations in nanoseconds. -/
structure Config.Fits (cfg : Config) : Prop where
  warningForSec : cfg.warningForSec * 1000000000 ≤ maxInt64
  criticalForSec : cfg.criticalForSec * 1000000000 ≤ maxInt64
  recoveryForSec : cfg.recoveryForSec * 1000000000 ≤ maxInt64
  cooldownSec : cfg.cooldownSec * 1000000000 ≤ maxInt64

theorem validateConfig_defaultConfig : validateConfig defaultConfig = none := by decide

theorem fits_defaultConfig : defaultConfig.Fits := by constructor <;> decide

/-! ## Secrets -/

structure Secrets where
  telegramBotToken : String
  gmailAddress : String
  gmailAppPassword : String
  deriving DecidableEq

/-- The row of the secrets: the ciphertexts, and the address as it is. -/
structure SecretRecord where
  telegramTokenCipher : String
  gmailAddress : String
  gmailPasswordCipher : String
  deriving DecidableEq

/-! ## What the service shows -/

structure ConfigView where
  config : Config
  hasTelegramToken : Bool
  telegramTokenMask : List UInt8
  hasGmailPassword : Bool
  gmailPasswordMask : List UInt8
  gmailAddress : String
  secretsWritable : Bool
  readOnly : Bool
  deriving DecidableEq

structure Status where
  currentState : Level
  lastCPUPercent : Float64
  lastEvaluatedAt : Int
  mutedUntil : Option Int
  silenced : Bool
  lastWarningAt : Option Int
  lastCriticalAt : Option Int
  lastRecoveryAt : Option Int
  readOnly : Bool
  deriving DecidableEq

structure ChannelResult where
  channel : String
  success : Bool
  attempts : Nat
  errorMessage : String
  deriving DecidableEq

structure Event where
  id : Int
  level : Level
  message : String
  cpuPercent : Float64
  channels : List ChannelResult
  createdAt : Int
  deriving DecidableEq

def defaultHistoryRetentionDays : Int := 30

/-! ### In JSON -/

/-- The members of a configuration, also those of its view. -/
def Config.members (cfg : Config) : List (String × Json) :=
  [("enabled", .bool cfg.enabled), ("warning_percent", .float (.num cfg.warningPercent)),
    ("warning_for_sec", .int cfg.warningForSec),
    ("critical_percent", .float (.num cfg.criticalPercent)),
    ("critical_for_sec", .int cfg.criticalForSec),
    ("recovery_percent", .float (.num cfg.recoveryPercent)),
    ("recovery_for_sec", .int cfg.recoveryForSec), ("cooldown_sec", .int cfg.cooldownSec),
    ("telegram_enabled", .bool cfg.telegramEnabled), ("email_enabled", .bool cfg.emailEnabled),
    ("recipient_emails", .opt (fun xs => .arr (xs.map .str)) cfg.recipientEmails),
    ("telegram_chat_ids", .opt (fun xs => .arr (xs.map .str)) cfg.telegramChatIDs),
    ("retry_delays_sec", .opt (fun xs => .arr (xs.map .int)) cfg.retryDelaysSec)]

def ConfigView.json (v : ConfigView) : Json :=
  .obj (v.config.members ++
    [("has_telegram_token", .bool v.hasTelegramToken),
      ("telegram_token_mask", .bytes v.telegramTokenMask),
      ("has_gmail_password", .bool v.hasGmailPassword),
      ("gmail_password_mask", .bytes v.gmailPasswordMask),
      ("gmail_address", .str v.gmailAddress), ("secrets_writable", .bool v.secretsWritable),
      ("read_only", .bool v.readOnly)])

/-- A member that is left out when it is nil. -/
def timeMember (name : String) (t : Option Int) : List (String × Json) :=
  t.toList.map fun t => (name, .time t)

def Status.json (s : Status) : Json :=
  .obj ([("current_state", .str s.currentState.text), ("last_cpu_percent", .float s.lastCPUPercent),
      ("last_evaluated_at", .time s.lastEvaluatedAt)] ++ timeMember "muted_until" s.mutedUntil ++
    [("silenced", .bool s.silenced)] ++ timeMember "last_warning_at" s.lastWarningAt ++
    timeMember "last_critical_at" s.lastCriticalAt ++
    timeMember "last_recovery_at" s.lastRecoveryAt ++ [("read_only", .bool s.readOnly)])

def ChannelResult.json (c : ChannelResult) : Json :=
  .obj ([("channel", .str c.channel), ("success", .bool c.success),
      ("attempts", .int c.attempts)] ++
    if c.errorMessage = "" then [] else [("error_message", .str c.errorMessage)])

def Event.json (e : Event) : Json :=
  .obj
    [("id", .int e.id), ("level", .str e.level.text), ("message", .str e.message),
      ("cpu_percent", .float e.cpuPercent), ("channels", .arr (e.channels.map ChannelResult.json)),
      ("created_at", .time e.createdAt)]

/-! ## A change of the configuration -/

structure UpdateConfigInput where
  enabled : Option Bool := none
  warningPercent : Option ℚ := none
  warningForSec : Option Int := none
  criticalPercent : Option ℚ := none
  criticalForSec : Option Int := none
  recoveryPercent : Option ℚ := none
  recoveryForSec : Option Int := none
  cooldownSec : Option Int := none
  telegramEnabled : Option Bool := none
  emailEnabled : Option Bool := none
  recipientEmails : Option (List String) := none
  telegramChatIDs : Option (List String) := none
  retryDelaysSec : Option (List Int) := none
  telegramBotToken : String := ""
  clearTelegramBotToken : Bool := false
  gmailAddress : String := ""
  gmailAppPassword : String := ""
  clearGmailAppPassword : Bool := false

/-- Read one member of the body of a change. -/
def UpdateConfigInput.field (name : String) (v : Json) (i : UpdateConfigInput) :
    Option UpdateConfigInput :=
  match name with
  | "enabled" => (v.orNil Json.readBool).map fun x => { i with enabled := x }
  | "warning_percent" => (v.orNil Json.readFloat64).map fun x => { i with warningPercent := x }
  | "warning_for_sec" => (v.orNil Json.readInt64).map fun x => { i with warningForSec := x }
  | "critical_percent" => (v.orNil Json.readFloat64).map fun x => { i with criticalPercent := x }
  | "critical_for_sec" => (v.orNil Json.readInt64).map fun x => { i with criticalForSec := x }
  | "recovery_percent" => (v.orNil Json.readFloat64).map fun x => { i with recoveryPercent := x }
  | "recovery_for_sec" => (v.orNil Json.readInt64).map fun x => { i with recoveryForSec := x }
  | "cooldown_sec" => (v.orNil Json.readInt64).map fun x => { i with cooldownSec := x }
  | "telegram_enabled" => (v.orNil Json.readBool).map fun x => { i with telegramEnabled := x }
  | "email_enabled" => (v.orNil Json.readBool).map fun x => { i with emailEnabled := x }
  | "recipient_emails" =>
    (v.orNil (Json.readSlice Json.readString "")).map fun x => { i with recipientEmails := x }
  | "telegram_chat_ids" =>
    (v.orNil (Json.readSlice Json.readString "")).map fun x => { i with telegramChatIDs := x }
  | "retry_delays_sec" =>
    (v.orNil (Json.readSlice Json.readInt64 0)).map fun x => { i with retryDelaysSec := x }
  | "telegram_bot_token" =>
    (v.orKeep Json.readString i.telegramBotToken).map fun x => { i with telegramBotToken := x }
  | "clear_telegram_bot_token" =>
    (v.orKeep Json.readBool i.clearTelegramBotToken).map fun x =>
      { i with clearTelegramBotToken := x }
  | "gmail_address" =>
    (v.orKeep Json.readString i.gmailAddress).map fun x => { i with gmailAddress := x }
  | "gmail_app_password" =>
    (v.orKeep Json.readString i.gmailAppPassword).map fun x => { i with gmailAppPassword := x }
  | "clear_gmail_app_password" =>
    (v.orKeep Json.readBool i.clearGmailAppPassword).map fun x =>
      { i with clearGmailAppPassword := x }
  | _ => some i

end QuickVps.Alerts
