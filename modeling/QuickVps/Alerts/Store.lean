import QuickVps.Alerts.Evaluator
import QuickVps.Lib.Prog
import QuickVps.Lib.Table

/-!
# The alert store

The tables of the alert database with the statements of `Store`, the state of `Service` with its
lock, and what the notifier calls outside. The functions of `Store` are programs that issue their
statement. A statement is atomic; it does what it says and answers, or fails with the error that the
environment chose and changes nothing.

* `Events` — the table of events;
* `Service` — the fields of the service, and `World`, those with the tables;
* `Op`, `exec` — the operations and what they do;
* `saveConfig`, `saveEvent`, `listEvents`, … — the functions of `Store`.
-/

namespace QuickVps.Alerts

open Go

/-! ## The table of events -/

/-- The channels of a row are kept as the value that its JSON column holds. -/
abbrev Events := Table Event Event.id

namespace Events

def insert (t : Events) (level : Level) (message : String) (cpuPercent : Float64)
    (channels : List ChannelResult) (createdAt : Int) : Events :=
  Table.insert t (fun id => ⟨id, level, message, cpuPercent, channels, createdAt⟩) fun _ => rfl

/-- Drop the rows created before an instant. -/
def cleanup (t : Events) (deadline : Int) : Events :=
  Table.filter t fun e => ¬ e.createdAt < deadline

/-- The newest rows below an id, or the newest of all. -/
def page (t : Events) (limit : Nat) (beforeID : Int) : List Event :=
  ((t.rows.filter fun e => beforeID ≤ 0 ∨ e.id < beforeID).reverse).take limit

end Events

/-! ## The service -/

/-- The fields of `Service`. `key` is the key of its cipher, if it has one. -/
structure Service where
  key : Option (List UInt8)
  secretsWritable : Bool
  hostname : String
  cfg : Config
  secrets : Secrets
  secretRec : SecretRecord
  status : Status
  evaluator : Evaluator
  historyDays : Int
  cleanupEvery : Int
  lastCleanupRun : Int

/-- The four tables, and the service with its lock. -/
structure World where
  settings : Config
  secrets : SecretRecord
  events : Events
  mutedUntil : Option Int
  service : Service
  locked : Bool

/-! ## Operations -/

inductive Stmt where
  | loadConfig
  | saveConfig (cfg : Config)
  | loadSecretRecord
  | saveSecretRecord (row : SecretRecord)
  | saveEvent (level : Level) (message : String) (cpuPercent : Float64)
      (channels : List ChannelResult) (createdAt : Int)
  | listEvents (limit : Nat) (beforeID : Int)
  | cleanupEvents (deadline : Int)
  | setMutedUntil (until_ : Option Int)
  | getMutedUntil

abbrev Stmt.Ans : Stmt → Type
  | loadConfig => Config
  | loadSecretRecord => SecretRecord
  | saveEvent .. => Int
  | listEvents .. => List Event
  | getMutedUntil => Option Int
  | _ => Unit

/-- `read` is a copy of the service under the read lock. `lock` takes the lock and answers the
service, `unlock` gives the lock back with the new service; `historyDays` is read without the lock.
The last six are outside: the random nonce, whether the context is done, a pause, a new HTTP
request, a `POST` through the HTTP client, a mail. -/
inductive Op where
  | sql (stmt : Stmt)
  | now
  | read
  | lock
  | unlock (s : Service)
  | historyDays
  | nonce
  | ctxErr
  | sleep (duration : Int)
  | newRequest (url : String)
  | post (url : String) (body : Json)
  | sendMail (from_ password : String) (recipients : List String) (message : String)

abbrev Op.Ans : Op → Type
  | sql stmt => Except String stmt.Ans
  | now => Int
  | read => Service
  | lock => Service
  | historyDays => Int
  | nonce => Except String (List UInt8)
  | ctxErr => Option String
  | newRequest _ => Except String Unit
  | post .. => Except String Nat
  | sendMail .. => Except String Unit
  | _ => Unit

/-- The environment's choices for one call: its error, if it is to fail, the time, the nonce,
whether the context is done, and the status of an HTTP response. -/
structure Choice where
  fault : Option String := none
  now : Int := 0
  nonce : List UInt8 := []
  ctxErr : Option String := none
  status : Nat := 200

/-- `net/http`: the error of `NewRequest` for a URL, if it does not accept it, and the error of
`Client.Do` when the transport fails. -/
structure Http where
  parseError : String → Option String
  transportError : String → String → String

/-- Base64 and the cipher: a key, a nonce and a text to a ciphertext, and back. -/
structure Crypto where
  decodeBase64 : String → Except String (List UInt8)
  encrypt : List UInt8 → List UInt8 → String → String
  decrypt : List UInt8 → String → Except String String

/-- The errors of `net/http` for URLs that need no quoting, for runs of the model. -/
def plainHttp : Http := ⟨fun _ => none, fun url cause => "Post \"" ++ url ++ "\": " ++ cause⟩

/-- A cipher that only marks the text, for runs of the model. -/
def plainCrypto : Crypto where
  decodeBase64 _ := .error "illegal base64 data at input byte 0"
  encrypt _ _ text := "sealed " ++ text
  decrypt _ text := .ok (String.ofList (text.toList.drop 7))

/-- The text with which SQLite refuses a NaN, which is a NULL to it. -/
def notNullViolation : String :=
  "constraint failed: NOT NULL constraint failed: alert_events.cpu_percent (1299)"

/-- A statement that does not fail. -/
def Stmt.exec (w : World) : (stmt : Stmt) → Except String stmt.Ans × World
  | .loadConfig => (.ok w.settings, w)
  | .saveConfig cfg => (.ok (), { w with settings := cfg })
  | .loadSecretRecord => (.ok w.secrets, w)
  | .saveSecretRecord row => (.ok (), { w with secrets := row })
  | .saveEvent level message cpuPercent channels createdAt =>
    if cpuPercent = .nan then (.error notNullViolation, w)
    else
      (.ok (w.events.seq + 1),
        { w with events := w.events.insert level message cpuPercent channels createdAt })
  | .listEvents limit beforeID => (.ok (w.events.page limit beforeID), w)
  | .cleanupEvents deadline => (.ok (), { w with events := w.events.cleanup deadline })
  | .setMutedUntil until_ => (.ok (), { w with mutedUntil := until_ })
  | .getMutedUntil => (.ok w.mutedUntil, w)

def exec (http : Http) (c : Choice) (op : Op) (w : World) : Option (op.Ans × World) :=
  match op with
  | .sql stmt =>
    match c.fault with
    | some err => some (.error err, w)
    | none => some (stmt.exec w)
  | .now => some (c.now, w)
  | .read => if w.locked then none else some (w.service, w)
  | .lock => if w.locked then none else some (w.service, { w with locked := true })
  | .unlock s => some ((), { w with service := s, locked := false })
  | .historyDays => some (w.service.historyDays, w)
  | .nonce =>
    match c.fault with
    | some err => some (.error err, w)
    | none => some (.ok c.nonce, w)
  | .ctxErr => some (c.ctxErr, w)
  | .sleep _ => some ((), w)
  | .newRequest url =>
    match http.parseError url with
    | some err => some (.error err, w)
    | none => some (.ok (), w)
  | .post url _ =>
    match c.fault with
    | some cause => some (.error (http.transportError url cause), w)
    | none => some (.ok c.status, w)
  | .sendMail .. =>
    match c.fault with
    | some err => some (.error err, w)
    | none => some (.ok (), w)

/-! ## The functions of `Store` -/

abbrev M := Prog Op Op.Ans

def stmt (s : Stmt) : M (Except String s.Ans) := Prog.op (Op.sql s)

/-- The configuration of the table; without delays it has the usual ones. -/
def loadConfig : M (Except String Config) := do
  match ← stmt .loadConfig with
  | .error err => return .error ("load alert config: " ++ err)
  | .ok cfg =>
    if cfg.retryDelaysSec.getD [] = [] then
      return .ok { cfg with retryDelaysSec := some [1, 5, 15] }
    else return .ok cfg

def saveConfig (cfg : Config) : M (Except String Unit) := do
  match ← stmt (.saveConfig cfg) with
  | .error err => return .error ("save alert config: " ++ err)
  | .ok () => return .ok ()

def loadSecretRecord : M (Except String SecretRecord) := do
  match ← stmt .loadSecretRecord with
  | .error err => return .error ("load alert secrets: " ++ err)
  | .ok row => return .ok row

def saveSecretRecord (row : SecretRecord) : M (Except String Unit) := do
  match ← stmt (.saveSecretRecord row) with
  | .error err => return .error ("save alert secrets: " ++ err)
  | .ok () => return .ok ()

def saveEvent (level : Level) (message : String) (cpuPercent : Float64)
    (channels : List ChannelResult) (createdAt : Int) : M (Except String Int) := do
  match ← stmt (.saveEvent level message cpuPercent channels createdAt) with
  | .error err => return .error ("save alert event: " ++ err)
  | .ok id => return .ok id

def listEvents (limit beforeID : Int) : M (Except String (List Event)) := do
  let limit := if limit ≤ 0 then 50 else limit
  let limit := if limit > 500 then 500 else limit
  match ← stmt (.listEvents limit.toNat beforeID) with
  | .error err => return .error ("list alert events: " ++ err)
  | .ok events => return .ok events

def cleanupEvents (retentionDays : Int) : M (Except String Unit) := do
  let retentionDays := if retentionDays ≤ 0 then defaultHistoryRetentionDays else retentionDays
  let now ← (Prog.op Op.now : M Int)
  match ← stmt (.cleanupEvents (now + wrap64 (-(retentionDays * 86400000000000)))) with
  | .error err => return .error ("cleanup alert events: " ++ err)
  | .ok () => return .ok ()

def setMutedUntil (until_ : Option Int) : M (Except String Unit) := do
  match ← stmt (.setMutedUntil until_) with
  | .error err => return .error ("set muted_until: " ++ err)
  | .ok () => return .ok ()

def getMutedUntil : M (Except String (Option Int)) := do
  match ← stmt .getMutedUntil with
  | .error err => return .error ("get muted_until: " ++ err)
  | .ok until_ => return .ok until_

end QuickVps.Alerts
