import QuickVps.Packages.Inventory

/-!
# The updates of `dnf`

`dnf check-update` prints a line for each update, and after the line "Obsoleting Packages" two for
each obsoleted package, all of one shape. The audit cuts a package's name at its first dot, not at
the last, which is the one before the architecture, and it goes on reading after the heading.

* `Rpm`, `CheckUpdate` — what is printed,
* `Rpm.read` — what the audit makes of a line, `parse_checkUpdate` — of the text,
* `loses_dots` — the name `python3.11` is cut,
* `decodes_dnf_iff` — exactly which texts are read back.
-/

namespace QuickVps.Packages

open Go

/-- A package, with the blanks that align the columns of its line. -/
structure Rpm where
  name : Word
  arch : Word
  arch_dotless : '.' ∉ arch.1
  version : Word
  repo : Word
  gaps : Nat × Nat

def Rpm.update (r : Rpm) : Update := ⟨r.name.1, [], r.version.1⟩

def Rpm.nameArch (r : Rpm) : List Char := r.name.1 ++ '.' :: r.arch.1

def Rpm.line (r : Rpm) : List Char :=
  columns r.nameArch [(r.gaps.1, r.version.1), (r.gaps.2, r.repo.1)]

/-- A package and the installed package that it obsoletes, whose line is indented. -/
structure Obsolete where
  new : Rpm
  old : Rpm
  indent : Nat

/-- `metadata` is what follows "Last metadata expiration" on the first line. -/
structure CheckUpdate where
  metadata : Option { s : List Char // '\n' ∉ s }
  updates : List Rpm
  obsoletes : Option (List Obsolete)

def Obsolete.lines (o : Obsolete) : List (List Char) :=
  [o.new.line, List.replicate o.indent ' ' ++ o.old.line]

def CheckUpdate.metadataLines (s : CheckUpdate) : List (List Char) :=
  match s.metadata with
  | none => []
  | some rest => ["Last metadata expiration".toList ++ rest.1]

def CheckUpdate.obsoletesLines (s : CheckUpdate) : List (List Char) :=
  match s.obsoletes with
  | none => []
  | some pairs => "Obsoleting Packages".toList :: pairs.flatMap Obsolete.lines

/-- Every line is ended, so the text splits into the lines and an empty rest. -/
def CheckUpdate.text (s : CheckUpdate) : List Char :=
  ['\n'].intercalate
    (s.metadataLines ++ [[]] ++ s.updates.map Rpm.line ++ s.obsoletesLines ++ [[]])

/-- The packages of the section of obsoletes. -/
def CheckUpdate.obsoletePackages (s : CheckUpdate) : List Rpm :=
  (s.obsoletes.getD []).flatMap fun o => [o.new, o.old]

/-! ## What is read -/

def obsoleting : List Char := "Obsoleting".toList

/-- The update that the audit makes of a line. -/
def Rpm.read (r : Rpm) : Option Update :=
  if obsoleting <+: r.name.1 then none
  else some ⟨r.name.1.takeWhile fun c => c ≠ '.', [], r.version.1⟩

theorem Rpm.isWord_nameArch (r : Rpm) : IsWord r.nameArch := r.name.2.append_cons rfl r.arch.2

theorem Rpm.isWord_rest (r : Rpm) :
    ∀ next ∈ [(r.gaps.1, r.version.1), (r.gaps.2, r.repo.1)], IsWord next.2 := by
  intro next hnext
  rcases List.mem_cons.1 hnext with rfl | hnext
  · exact r.version.2
  · rw [List.mem_singleton.1 hnext]
    exact r.repo.2

/-- A text without a dot begins the line exactly if it begins the name. -/
theorem Rpm.prefix_line_iff (r : Rpm) {start : List Char} (hdot : '.' ∉ start) :
    start <+: r.line ↔ start <+: r.name.1 := by
  have hline : r.line = r.name.1 ++ '.' :: columns r.arch.1
      [(r.gaps.1, r.version.1), (r.gaps.2, r.repo.1)] := by
    simp [Rpm.line, Rpm.nameArch, columns]
  rw [hline]
  exact prefix_append_cons_iff hdot _ _

theorem parseDNFUpdate_line (r : Rpm) {line : List Char} (h : trimSpace line = r.line) :
    parseDNFUpdate line = r.read := by
  have hfields : fields r.line = [r.nameArch, r.version.1, r.repo.1] :=
    fields_columns r.isWord_nameArch r.isWord_rest
  have hne : r.line ≠ [] := fun hnil => by simp [hnil, fields] at hfields
  -- The name has no blank, so it does not begin with the words of the metadata line.
  have hmetadata : ¬ "Last metadata expiration".toList <+: r.line := by
    rw [r.prefix_line_iff (by decide)]
    intro hstart
    exact absurd (r.name.2.2 ' ' (hstart.subset (by decide))) (by decide)
  have hname : (splitN2 '.' r.nameArch).headD [] = r.name.1.takeWhile fun c => c ≠ '.' := by
    rw [headD_splitN2, Rpm.nameArch, takeWhile_append_cons]
  simp only [parseDNFUpdate, h, hfields, hname, Rpm.read, List.isPrefixOf_iff_prefix]
  have hobsoleting : "Obsoleting".toList <+: r.line ↔ obsoleting <+: r.name.1 :=
    r.prefix_line_iff (by decide)
  by_cases hskip : obsoleting <+: r.name.1
  · rw [if_pos (.inr (.inr (hobsoleting.2 hskip))), if_pos hskip]
  · rw [if_neg hskip, if_neg]
    rintro (hnil | hlast | hobs)
    · exact hne hnil
    · exact hmetadata hlast
    · exact hskip (hobsoleting.1 hobs)

theorem Rpm.trimSpace_line (r : Rpm) : trimSpace r.line = r.line :=
  trimSpace_columns r.isWord_nameArch r.isWord_rest

theorem Rpm.trimSpace_indent (r : Rpm) (indent : Nat) :
    trimSpace (List.replicate indent ' ' ++ r.line) = r.line := by
  induction indent with
  | zero => exact r.trimSpace_line
  | succ n ih =>
    rw [List.replicate_succ, List.cons_append, trimSpace, List.dropWhile_cons_of_pos rfl]
    exact ih

theorem Rpm.not_newline (r : Rpm) : '\n' ∉ r.line := by
  refine not_mem_columns (by decide) (not_newline_of_isWord r.isWord_nameArch) ?_
  exact fun next hnext => not_newline_of_isWord (r.isWord_rest next hnext)

theorem filterMap_obsoletes (pairs : List Obsolete) :
    (pairs.flatMap Obsolete.lines).filterMap parseDNFUpdate =
      (pairs.flatMap fun o => [o.new, o.old]).filterMap Rpm.read := by
  induction pairs with
  | nil => rfl
  | cons o pairs ih =>
    have hlines : o.lines.filterMap parseDNFUpdate = [o.new, o.old].filterMap Rpm.read := by
      simp only [Obsolete.lines, List.filterMap_cons, List.filterMap_nil,
        parseDNFUpdate_line o.new o.new.trimSpace_line,
        parseDNFUpdate_line o.old (o.old.trimSpace_indent o.indent)]
    rw [List.flatMap_cons, List.flatMap_cons, List.filterMap_append, List.filterMap_append, ih,
      hlines]

theorem not_newline_checkUpdate (s : CheckUpdate) :
    ∀ line ∈ s.metadataLines ++ [[]] ++ s.updates.map Rpm.line ++ s.obsoletesLines,
      '\n' ∉ line := by
  have hmetadata : ∀ line ∈ s.metadataLines, '\n' ∉ line := by
    unfold CheckUpdate.metadataLines
    cases s.metadata with
    | none => simp
    | some rest => simpa using rest.2
  have hobsoletes : ∀ line ∈ s.obsoletesLines, '\n' ∉ line := by
    unfold CheckUpdate.obsoletesLines
    cases s.obsoletes with
    | none => simp
    | some pairs =>
      intro line hline
      rcases List.mem_cons.1 hline with rfl | hline
      · decide
      · obtain ⟨o, -, ho⟩ := List.mem_flatMap.1 hline
        rcases List.mem_cons.1 ho with rfl | ho
        · exact o.new.not_newline
        · rw [List.mem_singleton.1 ho]
          simp [o.old.not_newline]
  intro line hline
  simp only [List.mem_append, List.mem_singleton, List.mem_map] at hline
  rcases hline with ((hline | rfl) | ⟨r, -, rfl⟩) | hline
  · exact hmetadata line hline
  · exact List.not_mem_nil
  · exact r.not_newline
  · exact hobsoletes line hline

/-- Neither the metadata nor the heading of the obsoletes is read. -/
theorem filterMap_metadata (s : CheckUpdate) :
    s.metadataLines.filterMap parseDNFUpdate = [] := by
  unfold CheckUpdate.metadataLines
  cases s.metadata with
  | none => rfl
  | some rest =>
    rw [List.filterMap_cons_none, List.filterMap_nil]
    have hstart : "Last metadata expiration".toList <+:
        trimSpace ("Last metadata expiration".toList ++ rest.1) :=
      prefix_trimSpace (by decide) rfl rfl rest.1
    simp only [parseDNFUpdate, List.isPrefixOf_iff_prefix]
    rw [if_pos (.inr (.inl hstart))]

/-- The whole text: the updates, then the obsoletes as if they were updates. -/
theorem parse_checkUpdate (s : CheckUpdate) :
    parseDNFUpdates s.text =
      s.updates.filterMap Rpm.read ++ s.obsoletePackages.filterMap Rpm.read := by
  have hnil : parseDNFUpdate [] = none := by decide
  have hupdates : (s.updates.map Rpm.line).filterMap parseDNFUpdate =
      s.updates.filterMap Rpm.read := by
    rw [List.filterMap_map]
    exact List.filterMap_congr fun r _ => parseDNFUpdate_line r r.trimSpace_line
  have hobsoletes : s.obsoletesLines.filterMap parseDNFUpdate =
      s.obsoletePackages.filterMap Rpm.read := by
    unfold CheckUpdate.obsoletesLines CheckUpdate.obsoletePackages
    cases s.obsoletes with
    | none => rfl
    | some pairs =>
      have hheading : parseDNFUpdate "Obsoleting Packages".toList = none := by decide
      rw [List.filterMap_cons_none hheading, filterMap_obsoletes]
      rfl
  rw [parseDNFUpdates, CheckUpdate.text,
    Decode.filterMap_ended hnil (not_newline_checkUpdate s)]
  simp only [List.filterMap_append, filterMap_metadata, hupdates, hobsoletes,
    List.filterMap_cons_none hnil, List.filterMap_nil, List.append_nil, List.nil_append]

example : parseDNFUpdates "nginx.x86_64 1.24.0-2.el9 appstream".toList =
    [⟨"nginx".toList, [], "1.24.0-2.el9".toList⟩] := by decide

/-! ## The gap -/

def dotted : Rpm where
  name := ⟨"python3.11".toList, by decide⟩
  arch := ⟨"x86_64".toList, by decide⟩
  arch_dotless := by decide
  version := ⟨"3.11.7-1.el9".toList, by decide⟩
  repo := ⟨"appstream".toList, by decide⟩
  gaps := (0, 0)

/-- **A name with a dot is cut**, here to that of another package. -/
theorem loses_dots :
    ¬ ∀ s : CheckUpdate, parseDNFUpdates s.text = s.updates.map Rpm.update := by
  intro hall
  have hdotted := hall ⟨none, [dotted], none⟩
  rw [parse_checkUpdate] at hdotted
  exact absurd hdotted (by decide)

/-! ## The exact condition -/

theorem Rpm.read_eq_update_iff (r : Rpm) :
    r.read = some r.update ↔ '.' ∉ r.name.1 ∧ ¬ obsoleting <+: r.name.1 := by
  rw [← takeWhile_eq_self_iff_not_mem]
  unfold Rpm.read Rpm.update
  by_cases hskip : obsoleting <+: r.name.1 <;> simp [hskip]

theorem Rpm.read_eq_none_iff (r : Rpm) : r.read = none ↔ obsoleting <+: r.name.1 := by
  unfold Rpm.read
  by_cases hskip : obsoleting <+: r.name.1 <;> simp [hskip]

/-- No name that is read begins with "Obsoleting". -/
theorem Rpm.name_of_read {r : Rpm} {u : Update} (h : r.read = some u) :
    ¬ obsoleting <+: u.name := by
  unfold Rpm.read at h
  split at h
  next => cases h
  next hskip =>
    cases h
    exact fun hstart => hskip (hstart.trans (List.takeWhile_prefix _))

/-- **The updates are read back exactly when no name has a dot and nothing is obsoleted**, names
that look like the heading of the obsoletes apart. -/
theorem decodes_dnf_iff (s : CheckUpdate) :
    parseDNFUpdates s.text = s.updates.map Rpm.update ↔
      (∀ r ∈ s.updates, '.' ∉ r.name.1 ∧ ¬ obsoleting <+: r.name.1) ∧
        ∀ r ∈ s.obsoletePackages, obsoleting <+: r.name.1 := by
  -- Every line, with whether it is to be read.
  let lines : List (Rpm × Bool) :=
    s.updates.map (fun r => (r, true)) ++ s.obsoletePackages.map fun r => (r, false)
  let want : Rpm × Bool → Option Update := fun i => if i.2 then some i.1.update else none
  have hgot : parseDNFUpdates s.text = lines.filterMap fun i => i.1.read := by
    rw [parse_checkUpdate, List.filterMap_append, List.filterMap_map, List.filterMap_map]
    rfl
  have hwant : s.updates.map Rpm.update = lines.filterMap want := by
    have hnone : s.obsoletePackages.filterMap (want ∘ fun r => (r, false)) = [] :=
      List.filterMap_eq_nil_iff.2 fun r _ => rfl
    rw [List.filterMap_append, List.filterMap_map, List.filterMap_map, hnone, List.append_nil]
    exact (congrFun List.filterMap_eq_map _).symm
  rw [hgot, hwant, Decode.filterMap_eq_iff_of_absent (P := fun u => obsoleting <+: u.name)]
  · simp only [lines, List.mem_append, List.mem_map, or_imp, forall_and, forall_exists_index,
      and_imp, forall_apply_eq_imp_iff₂, want, if_true, Bool.false_eq_true, if_false,
      Rpm.read_eq_update_iff, Rpm.read_eq_none_iff]
  · exact fun i _ u hu => Rpm.name_of_read hu
  · intro i _ u hu hbad
    cases hlisted : i.2 with
    | false => simp [want, hlisted] at hu
    | true =>
      obtain rfl : i.1.update = u := by simpa [want, hlisted] using hu
      have hname : ¬ obsoleting <+: i.1.name.1 := hbad
      unfold Rpm.read
      rw [if_neg hname]
      rfl

end QuickVps.Packages
