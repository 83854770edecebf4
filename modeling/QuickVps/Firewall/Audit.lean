import QuickVps.Go.Words
import QuickVps.Ports.Scanner

/-!
# The firewall audit

The rules of the firewall are read off the listing that its program prints, line by line, and a
listener counts as allowed when some rule accepts its protocol and port. The machine is the
structure `Host`: which programs it finds, what they print, and the environment.

* `parseUFWRules`, `parseNFTRules`, `parseIPTablesRules` — the three listings;
* `listRules`, `listExposures` — the functions of the package;
* `loadRiskPolicyFromEnv`, `exposureRisk` — the risk of a listener.
-/

namespace QuickVps.Firewall

open Go

/-! ## Rules -/

inductive Backend where
  | ufw
  | nftables
  | iptables
  deriving DecidableEq

structure Rule where
  backend : Backend
  action : List Char
  direction : List Char
  protocol : List Char
  port : Int
  source : List Char
  raw : List Char
  deriving DecidableEq

def parsePortProto (raw : List Char) : Int × List Char :=
  match (trimSpace raw).splitOn '/' with
  | [port, proto] => (atoiValue port, toLowerText proto)
  | _ => (0, [])

def lastField (parts : List (List Char)) : List Char := parts.getLast?.getD []

def parseUFWLine (line : List Char) : Option Rule :=
  let clean := trimSpace line
  if clean = [] ∨ "Status:".toList.isPrefixOf clean ∨ "To".toList.isPrefixOf clean ∨
      "--".toList.isPrefixOf clean then none
  else
    match fields (clean.filter fun c => c ≠ '[') with
    | first :: target :: action :: direction :: rest =>
      let (port, proto) := parsePortProto target
      some
        { backend := .ufw
          action := toLowerText action
          direction := toLowerText direction
          protocol := proto
          port := port
          source := lastField (first :: target :: action :: direction :: rest)
          raw := clean }
    | _ => none

def parseUFWRules (raw : List Char) : List Rule := (raw.splitOn '\n').filterMap parseUFWLine

/-- `\s` of a regular expression. -/
def isRegexpSpace (c : Char) : Bool :=
  c = ' ' || c = '\t' || c = '\n' || c = '\r' || c = '\x0c'

/-- One of the words, in any case, at the start of the text; the rest is returned with it. -/
def matchWord (words : List (List Char)) (s : List Char) : Option (List Char × List Char) :=
  (words.find? fun word => (s.take word.length).map Char.toLower = word).map fun word =>
    (s.take word.length, s.drop word.length)

/-- At least one character with `p` at the start of the text, and as many as there are. -/
def matchRun (p : Char → Bool) (s : List Char) : Option (List Char × List Char) :=
  if s.takeWhile p = [] then none else some (s.takeWhile p, s.dropWhile p)

/-- `(?i)(tcp|udp)\s+dport\s+(\d+)\s+(accept|drop)` at the start of the text. -/
def matchNFT (s : List Char) : Option (List Char × List Char × List Char) := do
  let (proto, s) ← matchWord ["tcp".toList, "udp".toList] s
  let (_, s) ← matchRun isRegexpSpace s
  let (_, s) ← matchWord ["dport".toList] s
  let (_, s) ← matchRun isRegexpSpace s
  let (port, s) ← matchRun Char.isDigit s
  let (_, s) ← matchRun isRegexpSpace s
  let (action, _) ← matchWord ["accept".toList, "drop".toList] s
  return (proto, port, action)

/-- The leftmost match of the line decides. -/
def parseNFTLine (line : List Char) : Option Rule :=
  (line.tails.findSome? matchNFT).map fun (proto, port, action) =>
    { backend := .nftables
      action := toLowerText action
      direction := "in".toList
      protocol := toLowerText proto
      port := atoiValue port
      source := "any".toList
      raw := trimSpace line }

def parseNFTRules (raw : List Char) : List Rule := (raw.splitOn '\n').filterMap parseNFTLine

/-- The word after the first `flag` that is not the last word. -/
def tokenAfter (flag : List Char) : List (List Char) → List Char
  | part :: next :: rest => if part = flag then next else tokenAfter flag (next :: rest)
  | _ => []

def parseTokenAfter (raw flag : List Char) : List Char := tokenAfter flag (fields raw)

def parseIPTablesLine (line : List Char) : Option Rule :=
  let clean := trimSpace line
  if clean = [] ∨ ¬ "-A INPUT".toList.isPrefixOf clean then none
  else
    let port := atoiValue (parseTokenAfter clean "--dport".toList)
    if port ≤ 0 then none
    else
      some
        { backend := .iptables
          action := toLowerText (parseTokenAfter clean "-j".toList)
          direction := "in".toList
          protocol := toLowerText (parseTokenAfter clean "-p".toList)
          port := port
          source := "any".toList
          raw := clean }

def parseIPTablesRules (raw : List Char) : List Rule :=
  (raw.splitOn '\n').filterMap parseIPTablesLine

/-! ## The machine -/

/-- `lookPath` is whether a program is found, and `runCommand` what it prints or the text of its
error. -/
structure Host where
  os : Ports.Os
  lookPath : String → Bool
  runCommand : String → List String → Except (List Char) (List Char)
  getenv : String → List Char

def detectBackend (host : Host) : Option Backend :=
  if host.lookPath "ufw" then some .ufw
  else if host.lookPath "nft" then some .nftables
  else if host.lookPath "iptables" then some .iptables
  else none

def listRules (host : Host) : Except (List Char) (List Rule) :=
  match detectBackend host with
  | none => .error "no firewall backend found".toList
  | some .ufw => (host.runCommand "ufw" ["status", "numbered"]).map parseUFWRules
  | some .nftables => (host.runCommand "nft" ["list", "ruleset"]).map parseNFTRules
  | some .iptables => (host.runCommand "iptables" ["-S"]).map parseIPTablesRules

/-! ## Risks -/

structure RiskPolicy where
  highRiskPorts : List Int
  mediumRiskPorts : List Int

def defaultRiskPolicy : RiskPolicy := ⟨[3306, 5432, 6379, 27017, 11211], [22, 25]⟩

def parsePort (part : List Char) : Option Int :=
  (atoi (trimSpace part)).filter fun port => 0 < port ∧ port ≤ 65535

def parsePortSet (raw : List Char) : List Int := (raw.splitOn ',').filterMap parsePort

def loadRiskPolicyFromEnv (host : Host) : RiskPolicy :=
  let high := parsePortSet (host.getenv "QUICKVPS_FW_HIGH_RISK_PORTS")
  let medium := parsePortSet (host.getenv "QUICKVPS_FW_MEDIUM_RISK_PORTS")
  { highRiskPorts := if high = [] then defaultRiskPolicy.highRiskPorts else high
    mediumRiskPorts := if medium = [] then defaultRiskPolicy.mediumRiskPorts else medium }

def exposureKey (proto : List Char) (port : Int) : List Char :=
  toUpperText proto ++ ':' :: itoa port

/-- The risk and its reason. -/
def exposureRisk (port : Int) (allowed : Bool) (policy : RiskPolicy) : String × String :=
  if !allowed then ("low", "listener exists but no matching allow rule found")
  else if port ∈ policy.highRiskPorts then ("high", "database/cache port is publicly allowed")
  else if port ∈ policy.mediumRiskPorts then ("medium", "sensitive infrastructure port is exposed")
  else ("low", "allowed service port")

structure Exposure where
  port : Int
  protocol : List Char
  address : List Char
  pid : Int
  process : List Char
  risk : String
  reason : String
  deriving DecidableEq

/-- The exposure of a listener that is allowed or not. -/
def exposure (policy : RiskPolicy) (l : Ports.Listener) (isAllowed : Bool) : Exposure :=
  let (risk, reason) := exposureRisk l.port isAllowed policy
  { port := l.port
    protocol := toUpperText l.protocol
    address := l.address
    pid := l.pid
    process := l.process
    risk := risk
    reason := reason }

def Rule.allows (r : Rule) : Bool :=
  equalFold r.action "allow".toList || equalFold r.action "accept".toList

/-- The keys of the rules that allow. -/
def allowedKeys (rules : List Rule) : List (List Char) :=
  (rules.filter Rule.allows).map fun r => exposureKey (toUpperText r.protocol) r.port

def listExposures (host : Host) : Except (List Char) (List Exposure) := do
  let listeners ← Ports.listListeners toUpperText host.os
  let rules ← listRules host
  let policy := loadRiskPolicyFromEnv host
  return listeners.map fun l =>
    exposure policy l ((allowedKeys rules).contains (exposureKey (toUpperText l.protocol) l.port))

end QuickVps.Firewall
