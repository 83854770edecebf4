import QuickVps.Go.Format
import QuickVps.Server.Accounts
import QuickVps.Server.World

/-!
# The other handlers

The handlers besides those of the accounts: the state of the host, the disk scan, the ports, the
alerts, the audits of firewall and packages, and the web files. Each follows its source: which
checks come first, what is called, and the response to every error.
-/

namespace QuickVps.Server

open Go

variable (s : Server) (crypto : Alerts.Crypto)

/-- Read a body with one integer. -/
def intField (field name : String) (v : Json) (old : Int) : Option Int :=
  if name = field then v.orKeep Json.readInt64 old else some old

/-! ## Information about the host -/

def IPv4.text (ip : IPv4) : String :=
  ".".intercalate ([ip.a, ip.b, ip.c, ip.d].map fun n => String.ofList (itoa (n.toNat : Int)))

def isPrivateIP (ip : IPv4) : Bool :=
  ip.a = 10 || (ip.a = 172 && 16 ≤ ip.b && ip.b < 32) || (ip.a = 192 && ip.b = 168) ||
    (ip.a = 100 && 64 ≤ ip.b && ip.b < 128) || (ip.a = 169 && ip.b = 254)

/-- The public address, or the local one if there is none. -/
def resolvePublicIP (localIP : String) : M (String × String) := do
  match ← system .publicIPv4 with
  | .error _ => return (localIP, localIP)
  | .ok publicIP => return (localIP, if publicIP ≠ "" then publicIP else localIP)

def getLocalIPs : M (String × String) := do
  match ← system .localIPv4 with
  | none => resolvePublicIP "unknown"
  | some ip => if isPrivateIP ip then resolvePublicIP ip.text else return (ip.text, ip.text)

structure RequiredPackage where
  name : String
  installed : Bool
  requiredFor : String

def RequiredPackage.json (p : RequiredPackage) : Json :=
  .obj
    [("name", .str p.name), ("installed", .bool p.installed),
      ("required_for", .str p.requiredFor)]

def requiredPackagesStatus : M (List RequiredPackage) := do
  let lsof ← system (.lookPath "lsof")
  let ncdu ← system (.lookPath "ncdu")
  return [⟨"lsof", lsof, "ports"⟩, ⟨"ncdu", ncdu, "storage"⟩]

def missingRequiredPackages (entries : List RequiredPackage) : List String :=
  (entries.filter fun entry => !entry.installed).map RequiredPackage.name

def installCommand : Distro → String
  | .apt => "sudo apt-get install -y "
  | .yum => "sudo yum install -y "
  | .pacman => "sudo pacman -S --noconfirm "
  | .unknown => "sudo apt-get install -y "

def requiredPackagesInstallCommand (missing : List String) : M String := do
  if missing = [] then return ""
  let distro ← system .detectDistro
  return installCommand distro ++ " ".intercalate missing

/-- Whether the alerts are enabled, whether they can only be read, and how long their history is
kept. -/
def alertsInfo : M (Bool × Bool × Int) := do
  if s.hasAlerts then
    let enabled ← liftAlerts Alerts.isEnabled
    let historyDays ← liftAlerts Alerts.historyRetentionDays
    return (enabled, s.authDisabled, historyDays)
  else return (false, true, Alerts.defaultHistoryRetentionDays)

def strings (items : List String) : Json := .arr (items.map .str)

def handleInfo : M Response := do
  let hostname ← system .hostname
  let (localIP, publicIP) ← getLocalIPs
  let requiredPackages ← requiredPackagesStatus
  let missingPackages := missingRequiredPackages requiredPackages
  let (alertsEnabled, alertsReadOnly, historyDays) ← s.alertsInfo
  let uptime ← system .uptime
  let interval ← system .interval
  let cacheTTL ← system .cacheTTL
  let dnsServers ← system .dnsServers
  let installCmd ← requiredPackagesInstallCommand missingPackages
  return writeJSON 200
    (.obj
      [("alerts_enabled", .bool alertsEnabled),
        ("alerts_history_retention_days", .int historyDays),
        ("alerts_read_only", .bool alertsReadOnly), ("arch", .str s.arch),
        ("auth_enabled", .bool !s.authDisabled), ("dns_servers", .opt strings dnsServers),
        ("hostname", .str hostname), ("interval_ms", .int (interval.tdiv 1000000)),
        ("local_ip", .str localIP), ("missing_required_packages", strings missingPackages),
        ("ncdu_cache_ttl_sec", .int (wholeSeconds cacheTTL)), ("os", .str s.goos),
        ("public_ip", .str publicIP),
        ("required_packages", .arr (requiredPackages.map RequiredPackage.json)),
        ("required_packages_install_cmd", .str installCmd), ("uptime", .str uptime),
        ("version", .str s.version)])

/-! ## Metrics -/

def handleMetrics : M Response := do
  match ← system .latest with
  | none => return writeError 503 "no data yet"
  | some snap => return writeJSON 200 snap

/-- A refused upgrade has been answered already, and the second answer only adds its text. -/
def handleWS : M Response := do
  match ← system .upgrade with
  | .error (status, text) => return ⟨status, .text (text ++ "WebSocket upgrade failed\n"), none⟩
  | .ok () => return ⟨101, .websocket, none⟩

/-- The response with an interval. -/
def intervalJSON (interval : Int) : Json :=
  .obj [("interval", .str (formatDuration interval)), ("interval_ms", .int (interval.tdiv 1000000))]

def putInterval (r : Request) : M Response := do
  let some intervalMS := r.decode (intField "interval_ms") 0 | return invalidBody
  if intervalMS ≤ 0 then return writeError 400 "interval_ms must be > 0"
  let interval := wrap64 (intervalMS * 1000000)
  match ← system (.setInterval interval) with
  | .error err => return writeError 400 err
  | .ok () => return writeJSON 200 (intervalJSON interval)

def handleInterval (r : Request) : M Response :=
  if r.method = "GET" then do
    let d ← system .interval
    return writeJSON 200 (intervalJSON d)
  else if r.method = "PUT" then putInterval r
  else return methodNotAllowed

/-! ## The disk scan -/

/-- The path to scan. An error in the body is ignored, and with it only the members in error. -/
def scanPath (r : Request) : String :=
  let read := fun (path : String) (m : String × Json) =>
    if Json.foldName m.1 = "path" then (m.2.orKeep Json.readString path).getD path else path
  let path :=
    match r.body with
    | some (.obj members) => members.foldl read "/"
    | _ => "/"
  if path = "" then "/" else path

def postScan (r : Request) : M Response := do
  let path := scanPath r
  match ← system (.startScan path) with
  | .error err => return writeError 500 err
  | .ok .cached => return writeJSON 200 (.obj [("path", .str path), ("status", .str "cached")])
  | .ok .running => return writeJSON 202 (.obj [("path", .str path), ("status", .str "running")])
  | .ok .started => return writeJSON 202 (.obj [("path", .str path), ("status", .str "started")])

def handleNcduScan (r : Request) : M Response :=
  if r.method = "POST" then postScan r
  else if r.method = "DELETE" then do
    let _ ← system .cancelScan
    return writeJSON 200 (.obj [("status", .str "cancelled")])
  else return methodNotAllowed

def handleNcduStatus : M Response := do
  let result ← system .scanResult
  return writeJSON 200 result

/-- The response with a lifetime of the cache. -/
def cacheJSON (ttl : Int) : Json :=
  .obj [("cache_ttl", .str (formatDuration ttl)), ("cache_ttl_sec", .int (wholeSeconds ttl))]

def putCache (r : Request) : M Response := do
  let some cacheTTLSec := r.decode (intField "cache_ttl_sec") 0 | return invalidBody
  if cacheTTLSec ≤ 0 then return writeError 400 "cache_ttl_sec must be > 0"
  let ttl := seconds cacheTTLSec
  match ← system (.setCacheTTL ttl) with
  | .error err => return writeError 400 err
  | .ok () => return writeJSON 200 (cacheJSON ttl)

def handleNcduCache (r : Request) : M Response :=
  if r.method = "GET" then do
    let ttl ← system .cacheTTL
    return writeJSON 200 (cacheJSON ttl)
  else if r.method = "PUT" then putCache r
  else return methodNotAllowed

/-! ## Ports -/

def handlePorts (r : Request) : M Response := do
  if r.method ≠ "GET" then return methodNotAllowed
  match ← system .listListeners with
  | .error err => return writeError 500 err
  | .ok listeners => return writeJSON 200 (.obj [("listeners", listeners)])

/-- The port in the path of `handlePortByID`. -/
def parsePort (path : List Char) : Option Int :=
  let portPart := trimPrefix "/api/ports/".toList path
  if portPart = [] ∨ '/' ∈ portPart then none
  else (atoi portPart).filter fun port => 0 < port ∧ port ≤ 65535

def pids (killed : Option (List Int)) : Json := .opt (fun xs => .arr (xs.map .int)) killed

def handlePortByID (r : Request) : M Response := do
  if r.method ≠ "DELETE" then return methodNotAllowed
  let some port := parsePort r.path | return writeError 400 "invalid port"
  match ← system (.killByPort port) with
  | (_, some .noProcessOnPort) =>
    return writeError 404 (String.ofList Ports.KillError.noProcessOnPort.text)
  | (killed, some err) =>
    return writeJSON 500
      (.obj [("error", .str (String.ofList err.text)), ("killed_pids", pids killed)])
  | (killed, none) =>
    return writeJSON 200
      (.obj [("killed_pids", pids killed), ("port", .int port), ("status", .str "killed")])

/-! ## Alerts -/

def alertsUnavailable : Response := writeError 503 "alerts service unavailable"

def getAlertsConfig : M Response := do
  let view ← liftAlerts (Alerts.configView s.authDisabled)
  return writeJSON 200 view.json

def putAlertsConfig (r : Request) (ctx : Context) : M Response := do
  match s.requireAlertMutationAccess ctx with
  | .error refusal => return refusal
  | .ok () =>
    let some body := r.decode Alerts.UpdateConfigInput.field {} | return invalidBody
    match ← liftAlerts (Alerts.updateConfig crypto body) with
    | .error err => return writeError 400 err
    | .ok view => return writeJSON 200 { view with readOnly := false }.json

def handleAlertsConfig (r : Request) (ctx : Context) : M Response :=
  if !s.hasAlerts then return alertsUnavailable
  else if r.method = "GET" then s.getAlertsConfig
  else if r.method = "PUT" then s.putAlertsConfig crypto r ctx
  else return methodNotAllowed

def handleAlertsStatus (r : Request) : M Response := do
  if !s.hasAlerts then return alertsUnavailable
  if r.method ≠ "GET" then return methodNotAllowed
  let status ← liftAlerts (Alerts.status s.authDisabled)
  return writeJSON 200 status.json

/-- The query parameter `before_id`, a positive number, or zero. -/
def parseBeforeID (r : Request) : Option Int :=
  let raw := trim (r.query "before_id")
  if raw = "" then some 0 else (atoi raw.toList).filter fun n => 0 < n

def handleAlertsHistory (r : Request) : M Response := do
  if !s.hasAlerts then return alertsUnavailable
  if r.method ≠ "GET" then return methodNotAllowed
  let some limit := parseLimit r 50 | return writeError 400 "invalid limit"
  let some beforeID := parseBeforeID r | return writeError 400 "invalid before_id"
  match ← liftAlerts (Alerts.listHistory limit beforeID) with
  | .error err => return writeError 500 err
  | .ok events =>
    return writeJSON 200 (.obj [("events", .arr (events.map Alerts.Event.json))])

def handleAlertsTest (r : Request) (ctx : Context) : M Response := do
  if !s.hasAlerts then return alertsUnavailable
  if r.method ≠ "POST" then return methodNotAllowed
  match s.requireAlertMutationAccess ctx with
  | .error refusal => return refusal
  | .ok () =>
    match ← liftAlerts Alerts.triggerTest with
    | .error err => return writeError 400 err
    | .ok event => return writeJSON 200 (.obj [("event", event.json)])

def postSilence (r : Request) (ctx : Context) : M Response := do
  match s.requireAlertMutationAccess ctx with
  | .error refusal => return refusal
  | .ok () =>
    let some minutes := r.decode (intField "minutes") 0 | return invalidBody
    match ← liftAlerts (Alerts.setSilence minutes) with
    | .error err => return writeError 400 err
    | .ok until_ => return writeJSON 200 (.obj [("muted_until", .time until_)])

def deleteSilence (ctx : Context) : M Response := do
  match s.requireAlertMutationAccess ctx with
  | .error refusal => return refusal
  | .ok () =>
    match ← liftAlerts Alerts.clearSilence with
    | .error err => return writeError 500 err
    | .ok () => return writeJSON 200 (.obj [("status", .str "cleared")])

def handleAlertsSilence (r : Request) (ctx : Context) : M Response :=
  if !s.hasAlerts then return alertsUnavailable
  else if r.method = "POST" then s.postSilence r ctx
  else if r.method = "DELETE" then s.deleteSilence ctx
  else return methodNotAllowed

/-! ## Audits of the host -/

/-- A page that can only be read, and only on Linux. -/
def linuxAudit (r : Request) (unsupported : String) (page : M Response) : M Response :=
  if r.method ≠ "GET" then return methodNotAllowed
  else if s.goos ≠ "linux" then
    return writeJSON 501
      (.obj [("error", .str unsupported), ("goos", .str s.goos), ("supported", .bool false)])
  else page

/-- A page with one member, or an error. -/
def listPage (call : M (Except String Json)) (name : String) : M Response := do
  match ← call with
  | .error err => return writeError 500 err
  | .ok items => return writeJSON 200 (.obj [(name, items)])

def handleFirewallStatus (r : Request) : M Response :=
  s.linuxAudit r "firewall audit is supported on Linux only" do
    let status ← system .firewallStatus
    return writeJSON 200 status

def handleFirewallRules (r : Request) : M Response :=
  s.linuxAudit r "firewall audit is supported on Linux only"
    (listPage (system .firewallRules) "rules")

def handleFirewallExposures (r : Request) : M Response :=
  s.linuxAudit r "firewall audit is supported on Linux only"
    (listPage (system .firewallExposures) "exposures")

/-- `packagesaudit.ParseLimit`. -/
def parsePackageLimit (raw : String) (defaultLimit : Int) : Int :=
  let defaultLimit := if defaultLimit ≤ 0 then 100 else defaultLimit
  match atoi (trim raw).toList with
  | none => defaultLimit
  | some n => if n ≤ 0 then defaultLimit else if n > 1000 then 1000 else n

def handlePackagesInventory (r : Request) : M Response :=
  s.linuxAudit r "package audit is supported on Linux only" do
    let result ← system
      (.packageInventory (parsePackageLimit (r.query "limit") 100) (trim (r.query "q")))
    return writeJSON 200 result

def handlePackagesUpdates (r : Request) : M Response :=
  s.linuxAudit r "package audit is supported on Linux only" do
    let result ← system .packageUpdates
    return writeJSON 200 result

/-! ## Web files -/

def spaHandler (r : Request) : M Response := do
  let path := trimPrefix ['/'] r.path
  let path := if path = [] then "index.html".toList else path
  match ← system (.serveFile path) with
  | some status => return ⟨status, .static r.path, none⟩
  | none => return ⟨200, .static "index.html".toList, none⟩

end QuickVps.Server
