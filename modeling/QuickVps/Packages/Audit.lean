import QuickVps.Go.Words

/-!
# The package audit

The installed packages and the available updates are read off what the package manager prints, line
by line. The machine is the structure `Host`: which programs it finds, and how a program ends.
Standard output and standard error are merged into one text. `ToLower` of `strings` is a parameter,
as only the filter uses it.

* `detectManager` — the package manager is the first of four programs that is found;
* `parseNameVersionLines`, `parsePacmanInventory` — installed packages;
* `parseAPTUpdates`, `parseDNFUpdates`, `parsePacmanUpdates` — updates;
* `inventory`, `updates` — the functions of the package.
-/

namespace QuickVps.Packages

open Go

inductive Manager where
  | none
  | apt
  | dnf
  | yum
  | pacman
  deriving DecidableEq

structure Package where
  name : List Char
  version : List Char
  deriving DecidableEq

structure Update where
  name : List Char
  currentVersion : List Char
  newVersion : List Char
  deriving DecidableEq

/-- A nil slice is `none`, and no error the empty text. -/
structure InventoryResult where
  manager : Manager
  total : Nat
  packages : Option (List Package)
  scannedAt : Int
  error : List Char
  deriving DecidableEq

structure UpdatesResult where
  manager : Manager
  total : Nat
  updates : Option (List Update)
  scannedAt : Int
  error : List Char
  deriving DecidableEq

/-! ## Commands -/

/-- How a command ended: the error of `CombinedOutput`, and what it wrote to both streams. -/
structure Finished where
  err : Option (List Char)
  output : List Char

/-- A command that exits with a code. Only 0 is no error. -/
def Finished.exited (code : Nat) (output : List Char) : Finished where
  err := if code = 0 then none else some ("exit status ".toList ++ Nat.toDigits 10 code)
  output := output

/-- `now` is the time of the scan. -/
structure Host where
  lookPath : String → Bool
  run : String → List String → Finished
  now : Int

/-- A list of texts as `fmt` prints it. -/
def sprintList (args : List String) : List Char :=
  '[' :: ([' '].intercalate (args.map String.toList) ++ [']'])

def runOutput (host : Host) (name : String) (args : List String) :
    Except (List Char) (List Char) :=
  let finished := host.run name args
  match finished.err with
  | none => .ok finished.output
  | some err =>
    .error (name.toList ++ ' ' :: (sprintList args ++ " failed: ".toList ++ err ++
      " (".toList ++ trimSpace finished.output ++ [')']))

def detectManager (host : Host) : Manager :=
  if host.lookPath "dpkg-query" then .apt
  else if host.lookPath "dnf" then .dnf
  else if host.lookPath "yum" then .yum
  else if host.lookPath "pacman" then .pacman
  else .none

/-! ## Lines -/

def parseNameVersionLine (line : List Char) : Option Package :=
  let clean := trimSpace line
  if clean = [] then none
  else
    match splitN2 '\t' clean with
    | [name, version] => some ⟨trimSpace name, trimSpace version⟩
    | _ => none

def parseNameVersionLines (raw : List Char) : List Package :=
  (raw.splitOn '\n').filterMap parseNameVersionLine

def parsePacmanPackage (line : List Char) : Option Package :=
  let clean := trimSpace line
  if clean = [] then none
  else
    match fields clean with
    | name :: version :: _ => some ⟨name, version⟩
    | _ => none

def parsePacmanInventory (raw : List Char) : List Package :=
  (raw.splitOn '\n').filterMap parsePacmanPackage

def upgradableFrom : List Char := "[upgradable from: ".toList

def parseAPTUpdate (line : List Char) : Option Update :=
  let clean := trimSpace line
  if clean = [] ∨ "Listing".toList.isPrefixOf clean then none
  else
    match fields clean with
    | first :: newVersion :: _ :: _ =>
      let name := (splitN2 '/' first).headD []
      let current := match index upgradableFrom clean with
        | some idx => trimSuffix (clean.drop (idx + upgradableFrom.length)) [']']
        | none => []
      some ⟨name, current, newVersion⟩
    | _ => none

def parseAPTUpdates (raw : List Char) : List Update :=
  (raw.splitOn '\n').filterMap parseAPTUpdate

def parseDNFUpdate (line : List Char) : Option Update :=
  let clean := trimSpace line
  if clean = [] ∨ "Last metadata expiration".toList.isPrefixOf clean ∨
      "Obsoleting".toList.isPrefixOf clean then none
  else
    match fields clean with
    | first :: newVersion :: _ :: _ => some ⟨(splitN2 '.' first).headD [], [], newVersion⟩
    | _ => none

def parseDNFUpdates (raw : List Char) : List Update :=
  (raw.splitOn '\n').filterMap parseDNFUpdate

def parsePacmanUpdate (line : List Char) : Option Update :=
  let clean := trimSpace line
  if clean = [] then none
  else
    match fields clean with
    | name :: current :: arrow :: newVersion :: _ =>
      if arrow = "->".toList then some ⟨name, current, newVersion⟩ else none
    | _ => none

def parsePacmanUpdates (raw : List Char) : List Update :=
  (raw.splitOn '\n').filterMap parsePacmanUpdate

/-! ## The audit -/

section Inventory

variable (toLower : List Char → List Char)

def filterPackages (all : List Package) (q : List Char) : List Package :=
  let q := toLower (trimSpace q)
  if q = [] then all
  else all.filter fun p => containsText (toLower p.name) q || containsText (toLower p.version) q

/-- What the manager has installed, before it is filtered. -/
def installed (host : Host) : Manager → Except (List Char) (List Package)
  | .none => .error "no package manager found".toList
  | .apt =>
    (runOutput host "dpkg-query" ["-W", "-f=$\x7bPackage\x7d\t$\x7bVersion\x7d\n"]).map
      parseNameVersionLines
  | .dnf | .yum =>
    (runOutput host "rpm"
      ["-qa", "--qf", "%\x7bNAME\x7d\t%\x7bVERSION\x7d-%\x7bRELEASE\x7d\n"]).map
      parseNameVersionLines
  | .pacman => (runOutput host "pacman" ["-Q"]).map parsePacmanInventory

def inventory (host : Host) (limit : Int) (q : List Char) : InventoryResult :=
  let mgr := detectManager host
  let result : InventoryResult := ⟨mgr, 0, none, host.now, []⟩
  match installed host mgr with
  | .error err => { result with error := err }
  | .ok all =>
    let packages := filterPackages toLower all q
    { result with
      total := packages.length
      packages := some (if 0 < limit ∧ limit < packages.length then packages.take limit.toNat
        else packages) }

end Inventory

def available (host : Host) : Manager → Except (List Char) (List Update)
  | .none => .error "no package manager found".toList
  | .apt => (runOutput host "apt" ["list", "--upgradable"]).map parseAPTUpdates
  | .dnf => (runOutput host "dnf" ["check-update"]).map parseDNFUpdates
  | .yum => (runOutput host "yum" ["check-update"]).map parseDNFUpdates
  | .pacman => (runOutput host "pacman" ["-Qu"]).map parsePacmanUpdates

def updates (host : Host) : UpdatesResult :=
  let mgr := detectManager host
  let result : UpdatesResult := ⟨mgr, 0, none, host.now, []⟩
  match available host mgr with
  | .error err => { result with error := err }
  | .ok all => { result with total := all.length, updates := some all }

/-- The limit of a request for the inventory. -/
def parseLimit (raw : List Char) (defaultLimit : Int) : Int :=
  let defaultLimit := if defaultLimit ≤ 0 then 100 else defaultLimit
  if trimSpace raw = [] then defaultLimit
  else
    match atoi (trimSpace raw) with
    | none => defaultLimit
    | some n => if n ≤ 0 then defaultLimit else if n > 1000 then 1000 else n

/-- Requests ask for a positive number of packages. -/
theorem parseLimit_pos (raw : List Char) (defaultLimit : Int) :
    0 < parseLimit raw defaultLimit := by
  have hdefault : 0 < if defaultLimit ≤ 0 then 100 else defaultLimit := by split <;> omega
  unfold parseLimit
  by_cases hraw : trimSpace raw = []
  · simpa only [if_pos hraw] using hdefault
  · simp only [if_neg hraw]
    cases atoi (trimSpace raw) with
    | none => exact hdefault
    | some n =>
      simp only
      by_cases hn : n ≤ 0
      · rwa [if_pos hn]
      · rw [if_neg hn]
        split <;> omega

end QuickVps.Packages
