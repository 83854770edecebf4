import QuickVps.Alerts.Store
import QuickVps.Go.Format

/-!
# The notifier

`notify` sends a message over the enabled channels, each with its retries, and answers with one
result a channel. The two senders are those of `NewNotifier`.
-/

namespace QuickVps.Alerts

open Go

/-! ## The senders -/

def telegramURL (token : String) : String :=
  "https://api.telegram.org/bot" ++ token ++ "/sendMessage"

/-- One message to each chat, the first error ending the loop. -/
def sendToChats (url text : String) : List String → M (Except String Unit)
  | [] => return .ok ()
  | rawChatID :: rest => do
    let chatID := trim rawChatID
    if chatID = "" then sendToChats url text rest
    else
      match ← (Prog.op (Op.newRequest url) : M (Except String Unit)) with
      | .error err => return .error err
      | .ok () =>
        let body := Json.obj [("chat_id", .str chatID), ("text", .str text)]
        match ← (Prog.op (Op.post url body) : M (Except String Nat)) with
        | .error err => return .error err
        | .ok status =>
          if status ≥ 300 then
            return .error
              ("telegram send failed with status " ++ String.ofList (itoa (status : Int)))
          else sendToChats url text rest

def sendTelegramDefault (token : String) (chatIDs : Option (List String)) (text : String) :
    M (Except String Unit) := do
  if token = "" then return .error "telegram token is empty"
  if chatIDs.getD [] = [] then return .error "telegram chat_ids is empty"
  sendToChats (telegramURL token) text (chatIDs.getD [])

/-- The headers and the body of a mail. -/
def mailText (from_ : String) (recipients : List String) (subject body : String) : String :=
  "From: " ++ from_ ++ "\r\nTo: " ++ ",".intercalate recipients ++ "\r\nSubject: " ++ subject ++
    "\r\nMIME-Version: 1.0\r\nContent-Type: text/plain; charset=UTF-8\r\n\r\n" ++ body

def sendEmailDefault (from_ appPassword : String) (to_ : Option (List String))
    (subject body : String) : M (Except String Unit) := do
  let from_ := trim from_
  let appPassword := trim appPassword
  if from_ = "" then return .error "gmail_address is empty"
  if appPassword = "" then return .error "gmail_app_password is empty"
  let recipients := ((to_.getD []).map trim).filter fun email => email ≠ ""
  if recipients = [] then return .error "recipient_emails is empty"
  match ← (Prog.op (Op.sendMail from_ appPassword recipients
      (mailText from_ recipients subject body)) : M (Except String Unit)) with
  | .error err => return .error ("send gmail smtp: " ++ err)
  | .ok () => return .ok ()

/-! ## Retries -/

/-- One attempt a delay, with that pause after each failed one but the last. -/
def retryLoop (fn : M (Except String Unit)) : List Int → Nat → M (Option String × Nat)
  | [], attempts => return (some "notification failed", attempts)
  | delay :: rest, attempts => do
    match ← fn with
    | .ok () => return (none, attempts + 1)
    | .error err =>
      if rest = [] then return (some err, attempts + 1)
      else
        match ← (Prog.op Op.ctxErr : M (Option String)) with
        | some done => return (some done, attempts + 1)
        | none => do
          (Prog.op (Op.sleep (seconds delay)) : M Unit)
          retryLoop fn rest (attempts + 1)

/-- The error, if all attempts failed or the context was done, and the number of attempts. -/
def retry (delays : List Int) (fn : M (Except String Unit)) : M (Option String × Nat) :=
  retryLoop fn (if delays = [] then [0] else delays) 0

/-- The result of a channel. -/
def channelResult (channel : String) : Option String × Nat → ChannelResult
  | (some err, attempts) => ⟨channel, false, attempts, err⟩
  | (none, attempts) => ⟨channel, true, attempts, ""⟩

def retryDelays (cfg : Config) : List Int :=
  if cfg.retryDelaysSec.getD [] = [] then [1, 5, 15] else cfg.retryDelaysSec.getD []

theorem retryDelays_ne_nil (cfg : Config) : retryDelays cfg ≠ [] := by
  unfold retryDelays
  split_ifs with hnil
  · simp
  · exact hnil

/-- `strings.ToUpper` of a level. -/
def Level.upper (level : Level) : String := String.ofList (level.text.toList.map Char.toUpper)

/-- The result of the Telegram channel, if it is enabled. -/
def notifyTelegram (cfg : Config) (secrets : Secrets) (message : String) :
    M (List ChannelResult) := do
  if cfg.telegramEnabled then
    let result ← retry (retryDelays cfg)
      (sendTelegramDefault (trim secrets.telegramBotToken) cfg.telegramChatIDs message)
    return [channelResult "telegram" result]
  else return []

/-- The result of the mail channel, if it is enabled. -/
def notifyEmail (cfg : Config) (secrets : Secrets) (level : Level) (message : String) :
    M (List ChannelResult) := do
  if cfg.emailEnabled then
    let result ← retry (retryDelays cfg)
      (sendEmailDefault (trim secrets.gmailAddress) (trim secrets.gmailAppPassword)
        cfg.recipientEmails ("[QuickVPS] CPU " ++ level.upper) message)
    return [channelResult "email" result]
  else return []

def notify (cfg : Config) (secrets : Secrets) (level : Level) (message : String) :
    M (List ChannelResult) := do
  let telegram ← notifyTelegram cfg secrets message
  let email ← notifyEmail cfg secrets level message
  return telegram ++ email

end QuickVps.Alerts
