import QuickVps.Alerts.Service
import QuickVps.Auth.Session
import QuickVps.Go.ServeMux
import QuickVps.Ncdu.Runner
import QuickVps.Ports.Scanner

/-!
# The operations of the server

A handler calls the user database with its session manager, the alert service, and the rest of the
host: the collector, the disk scan, the ports, the firewall, the package manager, the network. The
first two have their state here; what the host answers is the environment's choice.

* `SystemCall` — the calls to the host;
* `World`, `Op`, `exec` — the whole state, and the operations on it;
* `Server.Env` — the packages that the server relies on.
-/

namespace QuickVps.Server

open Go

/-! ## The host -/

inductive Distro where
  | apt
  | yum
  | pacman
  | unknown
  deriving DecidableEq

structure IPv4 where
  a : UInt8
  b : UInt8
  c : UInt8
  d : UInt8
  deriving DecidableEq

/-- What the other subsystems show is answered as the value that the encoder is given. `upgrade`
answers the status and the text of the response to a refused upgrade, `serveFile` the status with
which the file server serves a file that can be opened. -/
inductive SystemCall where
  | hostname
  | localIPv4
  | publicIPv4
  | lookPath (name : String)
  | detectDistro
  | dnsServers
  | uptime
  | interval
  | setInterval (interval : Int)
  | latest
  | upgrade
  | startScan (path : String)
  | cancelScan
  | scanResult
  | cacheTTL
  | setCacheTTL (ttl : Int)
  | listListeners
  | killByPort (port : Int)
  | firewallStatus
  | firewallRules
  | firewallExposures
  | packageInventory (limit : Int) (q : String)
  | packageUpdates
  | serveFile (path : List Char)

abbrev SystemCall.Ans : SystemCall → Type
  | hostname => String
  | localIPv4 => Option IPv4
  | publicIPv4 => Except String String
  | lookPath _ => Bool
  | detectDistro => Distro
  | dnsServers => Option (List String)
  | uptime => String
  | interval => Int
  | setInterval _ => Except String Unit
  | latest => Option Json
  | upgrade => Except (Nat × String) Unit
  | startScan _ => Except String Ncdu.StartMode
  | cancelScan => Unit
  | cacheTTL => Int
  | setCacheTTL _ => Except String Unit
  | listListeners => Except String Json
  | killByPort _ => Option (List Int) × Option Ports.KillError
  | firewallRules => Except String Json
  | firewallExposures => Except String Json
  | serveFile _ => Option Nat
  | _ => Json

/-- A host on which nothing is found. -/
def SystemCall.quiet : (call : SystemCall) → call.Ans
  | hostname => "host"
  | localIPv4 => none
  | publicIPv4 => .error "public IPv4 unavailable"
  | lookPath _ => false
  | detectDistro => .unknown
  | dnsServers => none
  | uptime => "unknown"
  | interval => 2000000000
  | setInterval _ => .ok ()
  | latest => none
  | upgrade => .error (400, "Bad Request\n")
  | startScan _ => .ok .started
  | cancelScan => ()
  | scanResult => .null
  | cacheTTL => 21600000000000
  | setCacheTTL _ => .ok ()
  | listListeners => .error "lsof command not found"
  | killByPort _ => (none, some .noProcessOnPort)
  | firewallStatus => .null
  | firewallRules => .error "no firewall"
  | firewallExposures => .error "no firewall"
  | packageInventory .. => .null
  | packageUpdates => .null
  | serveFile _ => none

/-! ## Operations -/

inductive Op where
  | auth (op : Auth.Op)
  | alerts (op : Alerts.Op)
  | system (call : SystemCall)

abbrev Op.Ans : Op → Type
  | auth op => op.Ans
  | alerts op => op.Ans
  | system call => call.Ans

structure World where
  auth : Auth.World
  alerts : Alerts.World

structure Choice where
  auth : Auth.Choice := {}
  alerts : Alerts.Choice := {}
  system : (call : SystemCall) → call.Ans := SystemCall.quiet

/-- The packages that the server relies on; the patterns are those that its mux is given. -/
structure Env (patterns : List (List Char)) where
  bcrypt : Auth.Bcrypt
  http : Alerts.Http
  crypto : Alerts.Crypto
  mux : ServeMux patterns

def exec {patterns : List (List Char)} (env : Env patterns) (c : Choice) (op : Op) (w : World) :
    Option (op.Ans × World) :=
  match op with
  | .auth op =>
    (Auth.exec env.bcrypt c.auth op w.auth).map fun rs => (rs.1, { w with auth := rs.2 })
  | .alerts op =>
    (Alerts.exec env.http c.alerts op w.alerts).map fun rs => (rs.1, { w with alerts := rs.2 })
  | .system call => some (c.system call, w)

/-! ## Programs -/

abbrev M := Prog Op Op.Ans

def liftAuth {α : Type} (p : Auth.M α) : M α := p.lift Op.auth fun _ r => r

def liftAlerts {α : Type} (p : Alerts.M α) : M α := p.lift Op.alerts fun _ r => r

def system (call : SystemCall) : M call.Ans := Prog.op (Op.system call)

end QuickVps.Server
