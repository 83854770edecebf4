import QuickVps.Lib.Decode
import QuickVps.Packages.Audit

/-!
# Inventories

What the package managers print for the installed packages is a line for each package, with blank
lines anywhere between them. The audit reads back every package, in order, then filters and cuts
the list.

* `Row`, `listing` — lines with blank lines between them, `filterMap_listing` — how they are read,
* `Entry`, `Upgrade` — installed packages and the updates of pacman, with their lines,
* `Host.Lists` — a host whose manager has these packages installed,
* `decodes_inventories` — nothing is lost.
-/

namespace QuickVps.Packages

open Go

/-! ## Lines and blank lines -/

inductive Row (α : Type) where
  | item (a : α)
  | blank (spaces : { s : List Char // '\n' ∉ s ∧ ∀ c ∈ s, isSpace c = true })

def Row.text {α : Type} (print : α → List Char) : Row α → List Char
  | .item a => print a
  | .blank spaces => spaces.1

def Row.item? {α : Type} : Row α → Option α
  | .item a => some a
  | .blank _ => none

/-- The empty row. At the end it makes the text end with a line break. -/
def Row.ending {α : Type} : Row α :=
  .blank ⟨[], List.not_mem_nil, fun _ hc => absurd hc List.not_mem_nil⟩

def listing {α : Type} (print : α → List Char) (rows : List (Row α)) : List Char :=
  ['\n'].intercalate (rows.map (Row.text print))

def items {α : Type} (rows : List (Row α)) : List α := rows.filterMap Row.item?

/-- A reader that passes over spaces and reads every item reads the items. -/
theorem filterMap_listing {α β : Type} {read : List Char → Option β} {print : α → List Char}
    {value : α → β} (hblank : ∀ s, (∀ c ∈ s, isSpace c = true) → read s = none)
    (hread : ∀ a, read (print a) = some (value a)) (hline : ∀ a, '\n' ∉ print a)
    (rows : List (Row α)) :
    ((listing print rows).splitOn '\n').filterMap read = (items rows).map value := by
  have hrows : ∀ piece ∈ rows.map (Row.text print), '\n' ∉ piece := by
    intro piece hpiece
    obtain ⟨row, -, rfl⟩ := List.mem_map.1 hpiece
    cases row with
    | item a => exact hline a
    | blank spaces => exact spaces.2.1
  have hnil : read [] = none := hblank [] fun c hc => absurd hc List.not_mem_nil
  rw [listing, Decode.filterMap_splitOn hnil hrows, List.filterMap_map, items,
    List.map_filterMap]
  refine List.filterMap_congr fun row _ => ?_
  cases row with
  | item a => exact hread a
  | blank spaces => exact hblank spaces.1 spaces.2.2

/-! ## Packages and updates -/

/-- A text without white space. -/
abbrev Word := { s : List Char // IsWord s }

structure Entry where
  name : Word
  version : Word

def Entry.package (e : Entry) : Package := ⟨e.name.1, e.version.1⟩

/-- The line of `dpkg-query` and `rpm`. -/
def Entry.tabbed (e : Entry) : List Char := e.name.1 ++ '\t' :: e.version.1

/-- The line of `pacman -Q`. -/
def Entry.spaced (e : Entry) : List Char := e.name.1 ++ ' ' :: e.version.1

structure Upgrade where
  name : Word
  current : Word
  new : Word
  note : Option { s : List Char // '\n' ∉ s }

def Upgrade.update (u : Upgrade) : Update := ⟨u.name.1, u.current.1, u.new.1⟩

/-- The note of a line, after a blank. -/
def Upgrade.noteText (u : Upgrade) : List Char :=
  match u.note with
  | none => []
  | some note => ' ' :: note.1

/-- The line of `pacman -Qu`. -/
def Upgrade.text (u : Upgrade) : List Char :=
  u.name.1 ++ ' ' :: (u.current.1 ++ ' ' :: ("->".toList ++ ' ' :: (u.new.1 ++ u.noteText)))

/-! ## Every line is read back -/

theorem parseNameVersionLine_tabbed (e : Entry) :
    parseNameVersionLine e.tabbed = some e.package := by
  have htrim : trimSpace e.tabbed = e.tabbed :=
    trimSpace_of_ends e.name.2 e.version.2 (List.prefix_append _ _)
      ((List.suffix_cons _ _).trans (List.suffix_append _ _))
  have hne : e.tabbed ≠ [] := by simp [Entry.tabbed]
  have htab : '\t' ∉ e.name.1 := fun h => absurd (e.name.2.2 _ h) (by decide)
  have hword : ∀ w : Word, trimSpace w.1 = w.1 := fun w => List.strip_eq_of_forall _ w.2.2
  simp only [parseNameVersionLine, htrim, if_neg hne]
  simp only [Entry.tabbed, splitN2_append_cons htab, hword, Entry.package]

theorem parsePacmanPackage_spaced (e : Entry) :
    parsePacmanPackage e.spaced = some e.package := by
  have hfields : fields (trimSpace e.spaced) = [e.name.1, e.version.1] := by
    rw [fields_trimSpace, Entry.spaced, fields_cons e.name.2, fields_word e.version.2]
  have hne : trimSpace e.spaced ≠ [] := fun h => by simp [h, fields] at hfields
  simp only [parsePacmanPackage, if_neg hne, hfields, Entry.package]

theorem parsePacmanUpdate_text (u : Upgrade) : parsePacmanUpdate u.text = some u.update := by
  obtain ⟨rest, hrest⟩ : ∃ rest, fields (u.new.1 ++ u.noteText) = u.new.1 :: rest := by
    unfold Upgrade.noteText
    cases u.note with
    | none => exact ⟨[], by rw [List.append_nil, fields_word u.new.2]⟩
    | some note => exact ⟨_, fields_cons u.new.2 note.1⟩
  have hfields : fields (trimSpace u.text) =
      u.name.1 :: u.current.1 :: "->".toList :: u.new.1 :: rest := by
    rw [fields_trimSpace, Upgrade.text, fields_cons u.name.2, fields_cons u.current.2,
      fields_cons (by decide), hrest]
  have hne : trimSpace u.text ≠ [] := fun h => by simp [h, fields] at hfields
  simp only [parsePacmanUpdate, if_neg hne, hfields, if_true, Upgrade.update]

theorem parseNameVersionLines_listing (rows : List (Row Entry)) :
    parseNameVersionLines (listing Entry.tabbed rows) = (items rows).map Entry.package := by
  refine filterMap_listing (fun s hs => ?_) parseNameVersionLine_tabbed (fun e => ?_) rows
  · simp [parseNameVersionLine, trimSpace_of_isSpace hs]
  · simp [Entry.tabbed, not_newline_of_isWord e.name.2, not_newline_of_isWord e.version.2]

theorem parsePacmanInventory_listing (rows : List (Row Entry)) :
    parsePacmanInventory (listing Entry.spaced rows) = (items rows).map Entry.package := by
  refine filterMap_listing (fun s hs => ?_) parsePacmanPackage_spaced (fun e => ?_) rows
  · simp [parsePacmanPackage, trimSpace_of_isSpace hs]
  · simp [Entry.spaced, not_newline_of_isWord e.name.2, not_newline_of_isWord e.version.2]

theorem parsePacmanUpdates_listing (rows : List (Row Upgrade)) :
    parsePacmanUpdates (listing Upgrade.text rows) = (items rows).map Upgrade.update := by
  refine filterMap_listing (fun s hs => ?_) parsePacmanUpdate_text (fun u => ?_) rows
  · simp [parsePacmanUpdate, trimSpace_of_isSpace hs]
  · have hnote : '\n' ∉ u.noteText := by
      unfold Upgrade.noteText
      cases u.note with
      | none => exact List.not_mem_nil
      | some note => simpa using note.2
    simp [Upgrade.text, not_newline_of_isWord u.name.2, not_newline_of_isWord u.current.2,
      not_newline_of_isWord u.new.2, hnote]

/-! ## The inventory -/

theorem runOutput_exited_zero {host : Host} {name : String} {args : List String}
    {output : List Char} (h : host.run name args = .exited 0 output) :
    runOutput host name args = .ok output := by
  rw [runOutput, h]
  rfl

/-- The manager of the host is found, and its command succeeds and prints the packages. -/
def Host.Lists (host : Host) (rows : List (Row Entry)) : Prop :=
  match detectManager host with
  | .none => False
  | .apt =>
    host.run "dpkg-query" ["-W", "-f=$\x7bPackage\x7d\t$\x7bVersion\x7d\n"] =
      .exited 0 (listing Entry.tabbed rows)
  | .dnf | .yum =>
    host.run "rpm" ["-qa", "--qf", "%\x7bNAME\x7d\t%\x7bVERSION\x7d-%\x7bRELEASE\x7d\n"] =
      .exited 0 (listing Entry.tabbed rows)
  | .pacman => host.run "pacman" ["-Q"] = .exited 0 (listing Entry.spaced rows)

theorem installed_of_lists {host : Host} {rows : List (Row Entry)} (h : host.Lists rows) :
    installed host (detectManager host) = .ok ((items rows).map Entry.package) := by
  unfold Host.Lists at h
  unfold installed
  cases hmgr : detectManager host with
  | none => simp [hmgr] at h
  | apt | dnf | yum =>
    simp only [hmgr] at h
    rw [runOutput_exited_zero h, ← parseNameVersionLines_listing]
    rfl
  | pacman =>
    simp only [hmgr] at h
    rw [runOutput_exited_zero h, ← parsePacmanInventory_listing]
    rfl

section Filter

variable (toLower : List Char → List Char)

/-- The name or the version contains the trimmed text, in any case. -/
def Package.Contains (p : Package) (q : List Char) : Prop :=
  toLower (trimSpace q) <:+: toLower p.name ∨ toLower (trimSpace q) <:+: toLower p.version

instance (p : Package) (q : List Char) : Decidable (p.Contains toLower q) :=
  inferInstanceAs (Decidable (_ ∨ _))

theorem filterPackages_eq (all : List Package) (q : List Char) :
    filterPackages toLower all q = all.filter fun p => p.Contains toLower q := by
  unfold filterPackages
  by_cases hq : toLower (trimSpace q) = []
  · -- Every text contains the empty text.
    have hall : ∀ p ∈ all, decide (p.Contains toLower q) = true :=
      fun p _ => decide_eq_true (.inl (hq ▸ List.nil_infix))
    simp only [if_pos hq]
    exact (List.filter_eq_self.2 hall).symm
  · simp only [if_neg hq]
    refine List.filter_congr fun p _ => ?_
    rw [Bool.eq_iff_iff, Bool.or_eq_true, containsText_iff, containsText_iff, decide_eq_true_iff,
      Package.Contains]

/-- **Inventories are decoded without loss**, then filtered, counted and cut. -/
theorem decodes_inventories :
    (∀ rows, parseNameVersionLines (listing Entry.tabbed rows) =
      (items rows).map Entry.package) ∧
    (∀ rows, parsePacmanInventory (listing Entry.spaced rows) =
      (items rows).map Entry.package) ∧
    (∀ rows, parsePacmanUpdates (listing Upgrade.text rows) =
      (items rows).map Upgrade.update) ∧
    ∀ (host : Host) (rows : List (Row Entry)) (limit : Int) (q : List Char),
      host.Lists rows → 0 < limit →
      let found := ((items rows).map Entry.package).filter fun p => p.Contains toLower q
      inventory toLower host limit q =
        { manager := detectManager host
          total := found.length
          packages := some (found.take (min limit.toNat found.length))
          scannedAt := host.now
          error := [] } := by
  refine ⟨parseNameVersionLines_listing, parsePacmanInventory_listing, parsePacmanUpdates_listing,
    fun host rows limit q hlists hlimit => ?_⟩
  simp only [inventory, installed_of_lists hlists, filterPackages_eq]
  generalize (((items rows).map Entry.package).filter fun p => p.Contains toLower q) = found
  by_cases hcut : limit < found.length
  · have hmin : min limit.toNat found.length = limit.toNat := by omega
    rw [if_pos ⟨hlimit, hcut⟩, hmin]
  · have hmin : min limit.toNat found.length = found.length := by omega
    rw [if_neg fun h => hcut h.2, hmin, List.take_length]

end Filter

/-- A host with `pacman`, two packages and a blank line. -/
def pacmanRows : List (Row Entry) :=
  [.item ⟨⟨"bash".toList, by decide⟩, ⟨"5.2-1".toList, by decide⟩⟩,
    .blank ⟨[' '], by decide, fun c hc => List.mem_singleton.1 hc ▸ rfl⟩,
    .item ⟨⟨"zlib".toList, by decide⟩, ⟨"1.3-2".toList, by decide⟩⟩]

def pacmanHost : Host where
  lookPath program := program = "pacman"
  run _ _ := .exited 0 (listing Entry.spaced pacmanRows)
  now := 0

/-- A request for one package; the limits of requests are positive. -/
theorem inventory_pacmanHost :
    inventory toLowerText pacmanHost (parseLimit "1".toList 100) "B".toList =
      ⟨.pacman, 2, some [⟨"bash".toList, "5.2-1".toList⟩], 0, []⟩ := by
  rw [(decodes_inventories toLowerText).2.2.2 pacmanHost pacmanRows _ "B".toList rfl
    (parseLimit_pos _ _)]
  decide

end QuickVps.Packages
