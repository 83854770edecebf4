import QuickVps.Packages.DnfListing

/-!
# Exit codes

`dnf check-update` and `yum check-update` exit with 100 when there are updates, and `pacman -Qu`
exits with 1 when there are none. The audit takes every code but 0 for a failure and drops what
the command has printed.

* `Available`, `Host.Checks` — the updates there are, and a host that follows the conventions,
* `hides_updates` — with `dnf` an update is reported as an error,
* `reports_iff` — the updates are reported for exactly the lists that the manager prints with 0.
-/

namespace QuickVps.Packages

open Go

/-- An update, with a name that has no dot. -/
structure Available where
  name : Word
  name_dotless : '.' ∉ name.1
  arch : Word
  arch_dotless : '.' ∉ arch.1
  current : Word
  new : Word
  repo : Word
  gaps : Nat × Nat

def Available.rpm (a : Available) : Rpm where
  name := a.name
  arch := a.arch
  arch_dotless := a.arch_dotless
  version := a.new
  repo := a.repo
  gaps := a.gaps

def Available.upgrade (a : Available) : Upgrade := ⟨a.name, a.current, a.new, none⟩

/-- What the listing of the manager tells of an update; that of `dnf` has no current version. -/
def Available.update (mgr : Manager) (a : Available) : Update :=
  match mgr with
  | .pacman => a.upgrade.update
  | _ => a.rpm.update

/-- The text of `pacman -Qu`, with every line ended. -/
def pacmanText (list : List Available) : List Char :=
  listing Upgrade.text (list.map (fun a => .item a.upgrade) ++ [Row.ending])

def dnfText (metadata : Option { s : List Char // '\n' ∉ s }) (list : List Available) :
    List Char :=
  CheckUpdate.text ⟨metadata, list.map Available.rpm, none⟩

/-- The manager of the host prints the updates and exits as its manual says. -/
def Host.Checks (host : Host) (metadata : Option { s : List Char // '\n' ∉ s })
    (list : List Available) : Prop :=
  match detectManager host with
  | .dnf =>
    host.run "dnf" ["check-update"] =
      .exited (if list.isEmpty then 0 else 100) (dnfText metadata list)
  | .yum =>
    host.run "yum" ["check-update"] =
      .exited (if list.isEmpty then 0 else 100) (dnfText metadata list)
  | .pacman =>
    host.run "pacman" ["-Qu"] = .exited (if list.isEmpty then 1 else 0) (pacmanText list)
  | _ => False

/-- The list is returned, without an error. -/
def Reports (host : Host) (list : List Available) : Prop :=
  updates host =
    { manager := detectManager host
      total := list.length
      updates := some (list.map (Available.update (detectManager host)))
      scannedAt := host.now
      error := [] }

/-! ## Failures -/

/-- A code other than 0 is an error with a text, whatever has been printed. -/
theorem runOutput_exited_ne_zero {host : Host} {name : String} {args : List String} {code : Nat}
    {output : List Char} (h : host.run name args = .exited code output) (hcode : code ≠ 0) :
    ∃ err, runOutput host name args = .error err := by
  rw [runOutput, h, Finished.exited, if_neg hcode]
  exact ⟨_, rfl⟩

/-- After an error no updates are returned. -/
theorem not_reports_of_error {host : Host} {err : List Char} (list : List Available)
    (h : available host (detectManager host) = .error err) : ¬ Reports host list := by
  intro hreports
  have hupdates := congrArg UpdatesResult.updates hreports
  simp [updates, h] at hupdates

theorem reports_of_ok {host : Host} {list : List Available}
    (h : available host (detectManager host) =
      .ok (list.map (Available.update (detectManager host)))) : Reports host list := by
  simp [Reports, updates, h]

/-! ## The managers -/

theorem parse_dnfText_nil (metadata : Option { s : List Char // '\n' ∉ s }) :
    parseDNFUpdates (dnfText metadata []) = [] := by
  rw [dnfText, parse_checkUpdate]
  rfl

theorem parse_pacmanText (list : List Available) :
    parsePacmanUpdates (pacmanText list) = list.map (Available.update .pacman) := by
  have hitems : items (list.map (fun a => Row.item a.upgrade) ++ [Row.ending]) =
      list.map Available.upgrade := by
    simp [items, Row.item?, Row.ending, List.filterMap_map, List.filterMap_cons,
      Function.comp_def]
  rw [pacmanText, parsePacmanUpdates_listing, hitems, List.map_map]
  rfl

/-- `dnf` and `yum` print updates with a code that counts as a failure. -/
theorem checkUpdate_iff {host : Host} {program : String} {list : List Available}
    {metadata : Option { s : List Char // '\n' ∉ s }}
    (hrun : host.run program ["check-update"] =
      .exited (if list.isEmpty then 0 else 100) (dnfText metadata list))
    (havailable : available host (detectManager host) =
      (runOutput host program ["check-update"]).map parseDNFUpdates) :
    Reports host list ↔ list = [] := by
  constructor
  · intro hreports
    by_contra hne
    have hcode : (if list.isEmpty then 0 else 100) ≠ 0 := by simp [hne]
    obtain ⟨err, herr⟩ := runOutput_exited_ne_zero hrun hcode
    rw [herr] at havailable
    exact not_reports_of_error list havailable hreports
  · rintro rfl
    refine reports_of_ok ?_
    have hok : runOutput host program ["check-update"] = .ok (dnfText metadata []) :=
      runOutput_exited_zero hrun
    rw [havailable, hok]
    exact congrArg Except.ok (parse_dnfText_nil metadata)

/-- `pacman` prints nothing with a code that counts as a failure. -/
theorem pacman_iff {host : Host} {list : List Available}
    (hrun : host.run "pacman" ["-Qu"] =
      .exited (if list.isEmpty then 1 else 0) (pacmanText list))
    (hmgr : detectManager host = .pacman) : Reports host list ↔ list ≠ [] := by
  have havailable : available host (detectManager host) =
      (runOutput host "pacman" ["-Qu"]).map parsePacmanUpdates := by rw [hmgr]; rfl
  constructor
  · rintro hreports rfl
    obtain ⟨err, herr⟩ := runOutput_exited_ne_zero hrun Nat.one_ne_zero
    rw [herr] at havailable
    exact not_reports_of_error [] havailable hreports
  · intro hne
    have hcode : (if list.isEmpty then 1 else 0) = 0 := by simp [hne]
    have hok : runOutput host "pacman" ["-Qu"] = .ok (pacmanText list) :=
      runOutput_exited_zero (hcode ▸ hrun)
    refine reports_of_ok ?_
    rw [havailable, hok, hmgr]
    exact congrArg Except.ok (parse_pacmanText list)

/-! ## The gap -/

def opensslUpdate : Available where
  name := ⟨"openssl".toList, by decide⟩
  name_dotless := by decide
  arch := ⟨"aarch64".toList, by decide⟩
  arch_dotless := by decide
  current := ⟨"3.0.7-1.el9".toList, by decide⟩
  new := ⟨"3.0.8-1.el9".toList, by decide⟩
  repo := ⟨"baseos".toList, by decide⟩
  gaps := (0, 0)

/-- A host with `dnf` and one update. -/
def dnfHost : Host where
  lookPath program := program = "dnf"
  run _ _ := .exited 100 (dnfText none [opensslUpdate])
  now := 0

/-- **An update is reported as an error** by a host with `dnf`. -/
theorem hides_updates :
    ¬ ∀ (host : Host) (metadata : Option { s : List Char // '\n' ∉ s }) (list : List Available),
      host.Checks metadata list → Reports host list := by
  intro hall
  have hreports := hall dnfHost none [opensslUpdate] rfl
  have hrun : dnfHost.run "dnf" ["check-update"] =
      .exited (if [opensslUpdate].isEmpty then 0 else 100) (dnfText none [opensslUpdate]) := rfl
  have hnil := (checkUpdate_iff hrun rfl).1 hreports
  exact absurd hnil (List.cons_ne_nil _ _)

/-! ## The exact condition -/

/-- **Updates are reported exactly for the lists that come with the code 0**: none of `dnf` and
`yum`, some of `pacman`. -/
theorem reports_iff (host : Host) (metadata : Option { s : List Char // '\n' ∉ s })
    (list : List Available) (h : host.Checks metadata list) :
    Reports host list ↔ (detectManager host = .pacman ↔ list ≠ []) := by
  unfold Host.Checks at h
  cases hmgr : detectManager host with
  | none | apt => simp [hmgr] at h
  | dnf | yum =>
    simp only [hmgr] at h
    rw [checkUpdate_iff h (by rw [hmgr]; rfl)]
    simp
  | pacman =>
    simp only [hmgr] at h
    rw [pacman_iff h hmgr]
    simp

theorem reports_iff_dnfHost :
    Reports dnfHost [opensslUpdate] ↔ (detectManager dnfHost = .pacman ↔ [opensslUpdate] ≠ []) :=
  reports_iff dnfHost none [opensslUpdate] rfl

end QuickVps.Packages
