import QuickVps.Packages.Inventory

/-!
# The updates of `apt`

`apt list --upgradable` prints a heading and a line for each package, and its warnings and notes
reach the audit among them, as both streams are merged. The audit passes over the heading and over
lines of fewer than three words, and takes every other line for a package.

* `Upgradable`, `Notice`, `Line` — what is printed, `aptText` — the merged text,
* `parseAPTUpdate_package`, `parseAPTUpdate_notice` — how a line is read,
* `reads_warnings` — the usual warning becomes an update of a package `WARNING:`,
* `decodes_apt_iff` — exactly which texts are read back.
-/

namespace QuickVps.Packages

open Go

/-- A package. What stands before the old version has no bracket. -/
structure Upgradable where
  name : Word
  name_slashless : '/' ∉ name.1
  name_plain : '[' ∉ name.1
  suites : Word
  suites_plain : '[' ∉ suites.1
  version : Word
  version_plain : '[' ∉ version.1
  arch : Word
  arch_plain : '[' ∉ arch.1
  old : Word

def Upgradable.update (p : Upgradable) : Update := ⟨p.name.1, p.old.1, p.version.1⟩

def Upgradable.front (p : Upgradable) : List Char :=
  p.name.1 ++ '/' :: (p.suites.1 ++ ' ' :: (p.version.1 ++ ' ' :: (p.arch.1 ++ [' '])))

def Upgradable.line (p : Upgradable) : List Char :=
  p.front ++ (upgradableFrom ++ (p.old.1 ++ [']']))

/-- A warning or a note, without its first word. -/
structure Notice where
  warning : Bool
  rest : { s : List Char // '\n' ∉ s }

def Notice.line (n : Notice) : List Char :=
  (if n.warning then "WARNING:".toList else "N:".toList) ++ n.rest.1

inductive Line where
  | package (p : Upgradable)
  | header (rest : { s : List Char // '\n' ∉ s })
  | blank (spaces : { s : List Char // '\n' ∉ s ∧ ∀ c ∈ s, isSpace c = true })
  | notice (n : Notice)

def Line.text : Line → List Char
  | .package p => p.line
  | .header rest => "Listing...".toList ++ rest.1
  | .blank spaces => spaces.1
  | .notice n => n.line

/-- A last line that is blank ends the line before it. -/
def aptText (lines : List Line) : List Char := ['\n'].intercalate (lines.map Line.text)

def Line.package? : Line → Option Upgradable
  | .package p => some p
  | _ => none

def Line.notice? : Line → Option Notice
  | .notice n => some n
  | _ => none

/-! ## How lines are read -/

def listingWord : List Char := "Listing".toList

theorem Upgradable.fields_line (p : Upgradable) :
    ∃ rest, fields p.line = (p.name.1 ++ '/' :: p.suites.1) :: p.version.1 :: p.arch.1 :: rest := by
  have hfirst : IsWord (p.name.1 ++ '/' :: p.suites.1) := p.name.2.append_cons rfl p.suites.2
  have hline : p.line = (p.name.1 ++ '/' :: p.suites.1) ++ ' ' :: (p.version.1 ++ ' ' ::
      (p.arch.1 ++ ' ' :: (upgradableFrom ++ (p.old.1 ++ [']'])))) := by
    simp [Upgradable.line, Upgradable.front]
  rw [hline, fields_cons hfirst, fields_cons p.version.2, fields_cons p.arch.2]
  exact ⟨_, rfl⟩

theorem Upgradable.trimSpace_line (p : Upgradable) : trimSpace p.line = p.line := by
  have hlast : IsWord [']'] := by decide
  refine trimSpace_of_ends p.name.2 hlast ?_ ?_
  · exact (List.prefix_append _ _).trans (List.prefix_append _ _)
  · rw [Upgradable.line, ← List.append_assoc, ← List.append_assoc]
    exact List.suffix_append _ _

/-- The old version is what is between the brackets. -/
theorem Upgradable.index_line (p : Upgradable) :
    index upgradableFrom p.line = some p.front.length := by
  have hfront : '[' ∉ p.front := by
    simp [Upgradable.front, p.name_plain, p.suites_plain, p.version_plain, p.arch_plain]
  exact index_append hfront "upgradable from: ".toList (p.old.1 ++ [']'])

theorem parseAPTUpdate_package (p : Upgradable) :
    parseAPTUpdate p.line = if listingWord <+: p.name.1 then none else some p.update := by
  obtain ⟨rest, hfields⟩ := p.fields_line
  have hne : p.line ≠ [] := fun hnil => by simp [hnil, fields] at hfields
  have hname : (splitN2 '/' (p.name.1 ++ '/' :: p.suites.1)).headD [] = p.name.1 := by
    rw [splitN2_append_cons p.name_slashless]
    rfl
  have hold : trimSuffix (p.line.drop (p.front.length + upgradableFrom.length)) [']'] =
      p.old.1 := by
    rw [Upgradable.line, ← List.drop_drop, List.drop_left, List.drop_left, trimSuffix_append]
  have hlisting : "Listing".toList <+: p.line ↔ listingWord <+: p.name.1 := by
    have hline : p.line = p.name.1 ++ '/' :: (p.suites.1 ++ ' ' :: (p.version.1 ++ ' ' ::
        (p.arch.1 ++ ' ' :: (upgradableFrom ++ (p.old.1 ++ [']']))))) := by
      simp [Upgradable.line, Upgradable.front]
    rw [hline]
    exact prefix_append_cons_iff (by decide) _ _
  simp only [parseAPTUpdate, p.trimSpace_line, hfields, hname, p.index_line, hold,
    List.isPrefixOf_iff_prefix, hlisting, hne, false_or, Upgradable.update]

/-- Spaces are passed over. -/
theorem parseAPTUpdate_blank {s : List Char} (hs : ∀ c ∈ s, isSpace c = true) :
    parseAPTUpdate s = none := by
  simp [parseAPTUpdate, trimSpace_of_isSpace hs]

theorem parseAPTUpdate_header (rest : List Char) :
    parseAPTUpdate ("Listing...".toList ++ rest) = none := by
  have hstart : "Listing".toList <+: trimSpace ("Listing...".toList ++ rest) :=
    (by decide : "Listing".toList <+: "Listing...".toList).trans
      (prefix_trimSpace (by decide) rfl rfl rest)
  simp only [parseAPTUpdate, List.isPrefixOf_iff_prefix]
  rw [if_pos (.inr hstart)]

/-- A notice is passed over exactly when it has fewer than three words. -/
theorem parseAPTUpdate_notice (n : Notice) :
    parseAPTUpdate n.line = none ↔ (fields n.line).length < 3 := by
  have hstart : ∃ c tail, trimSpace n.line = c :: tail ∧ c ≠ 'L' := by
    unfold Notice.line
    cases n.warning with
    | true =>
      obtain ⟨tail, htail⟩ : "WARNING:".toList <+: trimSpace ("WARNING:".toList ++ n.rest.1) :=
        prefix_trimSpace (by decide) rfl rfl n.rest.1
      exact ⟨'W', "ARNING:".toList ++ tail, htail.symm, by decide⟩
    | false =>
      obtain ⟨tail, htail⟩ : "N:".toList <+: trimSpace ("N:".toList ++ n.rest.1) :=
        prefix_trimSpace (by decide) rfl rfl n.rest.1
      exact ⟨'N', [':'] ++ tail, htail.symm, by decide⟩
  obtain ⟨c, tail, htrim, hc⟩ := hstart
  have hskip : ¬ (trimSpace n.line = [] ∨ "Listing".toList.isPrefixOf (trimSpace n.line)) := by
    simp [htrim, Ne.symm hc]
  rw [← fields_trimSpace, parseAPTUpdate]
  simp only [if_neg hskip]
  match fields (trimSpace n.line) with
  | [] => simp
  | [_] => simp
  | [_, _] => simp
  | _ :: _ :: _ :: _ => simp

/-- No name that is read begins with "Listing". -/
theorem name_of_parseAPTUpdate {line : List Char} {u : Update} (h : parseAPTUpdate line = some u) :
    ¬ listingWord <+: u.name := by
  simp only [parseAPTUpdate, List.isPrefixOf_iff_prefix] at h
  split at h
  next => cases h
  next hskip =>
    split at h
    next first version third rest hfields =>
      cases h
      intro hstart
      have hfirst : first <+: trimSpace line := prefix_of_fields (fields_trimSpace line ▸ hfields)
      rw [headD_splitN2] at hstart
      exact hskip (.inr ((hstart.trans (List.takeWhile_prefix _)).trans hfirst))
    next => cases h

example : parseAPTUpdate "nginx/stable 1.26.0 amd64 [upgradable from: 1.25.4]".toList =
    some ⟨"nginx".toList, "1.25.4".toList, "1.26.0".toList⟩ := by decide

/-! ## The text -/

theorem Upgradable.not_newline (p : Upgradable) : '\n' ∉ p.line := by
  have hfrom : '\n' ∉ upgradableFrom := by decide
  have hword : ∀ w : Word, '\n' ∉ w.1 := fun w => not_newline_of_isWord w.2
  simp only [Upgradable.line, Upgradable.front, List.mem_append, List.mem_cons, hword, hfrom,
    List.not_mem_nil]
  decide

theorem Line.not_newline (line : Line) : '\n' ∉ line.text := by
  cases line with
  | package p => exact p.not_newline
  | header rest => exact List.not_mem_append (by decide) rest.2
  | blank spaces => exact spaces.2.1
  | notice n =>
    refine List.not_mem_append ?_ n.rest.2
    cases n.warning <;> decide

theorem parse_aptText (lines : List Line) :
    parseAPTUpdates (aptText lines) = lines.filterMap fun line => parseAPTUpdate line.text := by
  have hlines : ∀ piece ∈ lines.map Line.text, '\n' ∉ piece := by
    intro piece hpiece
    obtain ⟨line, -, rfl⟩ := List.mem_map.1 hpiece
    exact line.not_newline
  rw [parseAPTUpdates, aptText, Decode.filterMap_splitOn (by decide) hlines, List.filterMap_map]
  rfl

/-! ## The gap -/

def usualWarning : Notice where
  warning := true
  rest := ⟨" apt does not have a stable CLI interface.".toList, by decide⟩

/-- **A warning is read as an update.** -/
theorem reads_warnings :
    ¬ ∀ lines : List Line, parseAPTUpdates (aptText lines) =
      (lines.filterMap Line.package?).map Upgradable.update := by
  intro hall
  have hwarning := hall [.notice usualWarning]
  rw [parse_aptText] at hwarning
  exact absurd hwarning (by decide)

/-! ## The exact condition -/

/-- **The updates are read back exactly when every notice has fewer than three words**, names that
look like the heading apart. -/
theorem decodes_apt_iff (lines : List Line) :
    parseAPTUpdates (aptText lines) = (lines.filterMap Line.package?).map Upgradable.update ↔
      (∀ n ∈ lines.filterMap Line.notice?, (fields n.line).length < 3) ∧
        ∀ p ∈ lines.filterMap Line.package?, ¬ listingWord <+: p.name.1 := by
  have hwant : (lines.filterMap Line.package?).map Upgradable.update =
      lines.filterMap fun line => line.package?.map Upgradable.update := List.map_filterMap
  rw [parse_aptText, hwant,
    Decode.filterMap_eq_iff_of_absent (P := fun u => listingWord <+: u.name)]
  · constructor
    · intro hall
      refine ⟨fun n hn => ?_, fun p hp => ?_⟩
      · obtain ⟨line, hline, hnotice⟩ := List.mem_filterMap.1 hn
        cases line with
        | notice m =>
          cases hnotice
          exact (parseAPTUpdate_notice n).1 (hall _ hline)
        | package | header | blank => cases hnotice
      · obtain ⟨line, hline, hpackage⟩ := List.mem_filterMap.1 hp
        cases line with
        | package q =>
          cases hpackage
          intro hskip
          have hread : parseAPTUpdate p.line = some p.update := hall _ hline
          rw [parseAPTUpdate_package, if_pos hskip] at hread
          cases hread
        | notice | header | blank => cases hpackage
    · rintro ⟨hnotices, hnames⟩ line hline
      cases line with
      | package p =>
        have hp := hnames p (List.mem_filterMap.2 ⟨_, hline, rfl⟩)
        exact (parseAPTUpdate_package p).trans (if_neg hp)
      | header rest => exact parseAPTUpdate_header rest.1
      | blank spaces => exact parseAPTUpdate_blank spaces.2.2
      | notice n =>
        exact (parseAPTUpdate_notice n).2 (hnotices n (List.mem_filterMap.2 ⟨_, hline, rfl⟩))
  · exact fun line _ u hu => name_of_parseAPTUpdate hu
  · intro line _ u hu hname
    cases line with
    | package p =>
      simp only [Line.package?, Option.map_some, Option.some.injEq] at hu
      subst hu
      have hp : ¬ listingWord <+: p.name.1 := hname
      have hread : parseAPTUpdate p.line = some p.update :=
        (parseAPTUpdate_package p).trans (if_neg hp)
      exact Option.isSome_iff_exists.2 ⟨p.update, hread⟩
    | header | blank | notice => cases hu

end QuickVps.Packages
