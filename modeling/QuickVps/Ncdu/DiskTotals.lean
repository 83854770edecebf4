import QuickVps.Ncdu.Export

/-!
# Adding to a tree

A file or a directory is added somewhere in a tree. The sizes on disk of the directories above it
grow or stay, but where the children of one added up to nothing, its own size is given up for
theirs, which may be smaller.

* `Adds` — the two trees, and the directories above what is added before and after;
* `Replaced` — an own size that is given up for a smaller one;
* `Path` — the entries from the root down to one;
* `diskSize_mono_iff` — no size on disk and no total decreases exactly if none is replaced.
-/

namespace QuickVps.Ncdu

open Go QuickVps.Ncdu.Tree

/-- The tree `x` is added to the children of a directory in the first tree, which makes it the
second. The list has the directories above `x` before and after, from the root on. -/
inductive Adds (x : Tree) : Tree → Tree → List (Tree × Tree) → Prop
  | child (i : Item) (ls rs : List Tree) :
      Adds x (.dir i (ls ++ rs)) (.dir i (ls ++ x :: rs))
        [(.dir i (ls ++ rs), .dir i (ls ++ x :: rs))]
  | deeper {t t' : Tree} {above : List (Tree × Tree)} (i : Item) (ls rs : List Tree)
      (h : Adds x t t' above) :
      Adds x (.dir i (ls ++ t :: rs)) (.dir i (ls ++ t' :: rs))
        ((.dir i (ls ++ t :: rs), .dir i (ls ++ t' :: rs)) :: above)

namespace Tree

def own : Tree → Item
  | file i => i
  | dir i _ => i

def childSizes : Tree → Nat
  | file _ => 0
  | dir _ children => diskSizes children

theorem diskSize_eq (t : Tree) :
    t.diskSize = if 0 < t.childSizes then t.childSizes else t.own.disk := by
  cases t <;> rfl

theorem diskSizes_append (ts us : List Tree) :
    diskSizes (ts ++ us) = diskSizes ts + diskSizes us := by
  induction ts with
  | nil => exact (Nat.zero_add _).symm
  | cons t ts ih => rw [List.cons_append, diskSizes, ih, diskSizes, Nat.add_assoc]

theorem totals_append (f : Item → Nat) (ts us : List Tree) :
    totals f (ts ++ us) = totals f ts + totals f us := by
  induction ts with
  | nil => exact (Nat.zero_add _).symm
  | cons t ts ih => rw [List.cons_append, totals, ih, totals, Nat.add_assoc]

end Tree

/-- The children of the directory add up to nothing, and what is added is smaller than its own
size. -/
def Replaced (x a : Tree) : Prop :=
  a.childSizes = 0 ∧ 0 < x.diskSize ∧ x.diskSize < a.own.disk

/-! ## Sizes -/

theorem Adds.own_eq {x t t' : Tree} {above : List (Tree × Tree)} (h : Adds x t t' above) :
    t'.own = t.own := by
  cases h <;> rfl

theorem Adds.total_le {x t t' : Tree} {above : List (Tree × Tree)} (h : Adds x t t' above)
    (f : Item → Nat) : t.total f ≤ t'.total f := by
  induction h with
  | child i ls rs =>
    simp only [total, totals_append, totals]
    omega
  | deeper i ls rs h ih =>
    simp only [total, totals_append, totals]
    omega

/-- What is added to nothing is all there is. -/
theorem Adds.childSizes_eq {x t t' : Tree} {above : List (Tree × Tree)} (h : Adds x t t' above)
    (hzero : t.childSizes = 0) : t'.childSizes = x.diskSize := by
  induction h with
  | child i ls rs =>
    simp only [childSizes, diskSizes_append, diskSizes] at hzero ⊢
    omega
  | @deeper t t' above i ls rs h ih =>
    simp only [childSizes, diskSizes_append, diskSizes] at hzero ⊢
    have hsize := t.diskSize_eq
    have hsize' := t'.diskSize_eq
    have hchild : t.childSizes = 0 := by
      split_ifs at hsize <;> omega
    have hown : t.own.disk = 0 := by
      rw [if_neg (by omega)] at hsize
      omega
    rw [ih hchild, h.own_eq, hown] at hsize'
    split_ifs at hsize' <;> omega

/-- A directory above what is added has what is added somewhere below it. -/
theorem Adds.of_mem {x t t' : Tree} {above : List (Tree × Tree)} (h : Adds x t t' above)
    {p : Tree × Tree} (hp : p ∈ above) : ∃ rest, Adds x p.1 p.2 rest := by
  induction h with
  | child i ls rs =>
    rw [List.mem_singleton] at hp
    exact hp ▸ ⟨_, .child i ls rs⟩
  | deeper i ls rs h ih =>
    rcases List.mem_cons.1 hp with rfl | hp
    · exact ⟨_, .deeper i ls rs h⟩
    · exact ih hp

theorem Adds.head_mem {x t t' : Tree} {above : List (Tree × Tree)} (h : Adds x t t' above) :
    (t, t') ∈ above := by
  cases h <;> exact List.mem_cons_self

/-- The size of one directory whose children's sizes grow or stay. -/
theorem Adds.diskSize_le_iff {x t t' : Tree} {above : List (Tree × Tree)} (h : Adds x t t' above)
    (hle : t.childSizes ≤ t'.childSizes) : t.diskSize ≤ t'.diskSize ↔ ¬ Replaced x t := by
  have hsize := t.diskSize_eq
  have hsize' := t'.diskSize_eq
  rw [h.own_eq] at hsize'
  by_cases hzero : t.childSizes = 0
  · have hsum := h.childSizes_eq hzero
    rw [Replaced]
    split_ifs at hsize hsize' <;> omega
  · have hnot : ¬ Replaced x t := fun hrep => hzero hrep.1
    rw [iff_true_right hnot]
    split_ifs at hsize hsize' <;> omega

theorem Adds.mono {x t t' : Tree} {above : List (Tree × Tree)} (h : Adds x t t' above)
    (hnone : ∀ p ∈ above, ¬ Replaced x p.1) :
    t.childSizes ≤ t'.childSizes ∧ t.diskSize ≤ t'.diskSize := by
  induction h with
  | child i ls rs =>
    have hle : (Tree.dir i (ls ++ rs)).childSizes ≤ (Tree.dir i (ls ++ x :: rs)).childSizes := by
      simp only [childSizes, diskSizes_append, diskSizes]
      omega
    exact ⟨hle, ((Adds.child i ls rs).diskSize_le_iff hle).2 (hnone _ List.mem_cons_self)⟩
  | @deeper t t' above i ls rs h ih =>
    have hbelow := ih fun p hp => hnone p (List.mem_cons_of_mem _ hp)
    have hle : (Tree.dir i (ls ++ t :: rs)).childSizes ≤
        (Tree.dir i (ls ++ t' :: rs)).childSizes := by
      simp only [childSizes, diskSizes_append, diskSizes]
      omega
    exact ⟨hle, ((Adds.deeper i ls rs h).diskSize_le_iff hle).2 (hnone _ List.mem_cons_self)⟩

theorem Adds.all_le_iff {x t t' : Tree} {above : List (Tree × Tree)} (h : Adds x t t' above) :
    (∀ p ∈ above, p.1.diskSize ≤ p.2.diskSize) ↔ ∀ p ∈ above, ¬ Replaced x p.1 := by
  constructor
  · intro hle p hp hrep
    obtain ⟨rest, hadds⟩ := h.of_mem hp
    have hzero : p.1.childSizes ≤ p.2.childSizes := hrep.1 ▸ Nat.zero_le _
    exact (hadds.diskSize_le_iff hzero).1 (hle p hp) hrep
  · intro hnone
    induction h with
    | child i ls rs =>
      intro p hp
      rw [List.mem_singleton] at hp
      exact hp ▸ ((Adds.child i ls rs).mono hnone).2
    | deeper i ls rs h ih =>
      intro p hp
      rcases List.mem_cons.1 hp with rfl | hp
      · exact ((Adds.deeper i ls rs h).mono hnone).2
      · exact ih (fun q hq => hnone q (List.mem_cons_of_mem _ hq)) p hp

/-! ## Entries -/

/-- Entries from one down to another, each a child of the one before. -/
inductive Path : DirEntry → List DirEntry → Prop
  | last (e : DirEntry) : Path e [e]
  | child {e c : DirEntry} {es : List DirEntry} (hmem : c ∈ e.children) (h : Path c es) :
      Path e (e :: es)

/-- The entry that an export is read as. -/
def ReadAs (errors : JsonErrors) (sort : SortSlice) (t : Tree) (e : DirEntry) : Prop :=
  parseEntry errors sort t.json = .ok e ∧ e.diskSize = t.diskSize ∧ Matches t e

section Parse

variable (errors : JsonErrors) (sort : SortSlice)

theorem mem_parseChildren {t : Tree} {e : DirEntry} (h : parseEntry errors sort t.json = .ok e)
    (ls rs : List Tree) : e ∈ parseChildren errors sort (jsons (ls ++ t :: rs)) := by
  induction ls with
  | nil =>
    rw [List.nil_append, jsons, parseChildren, h]
    exact List.mem_cons_self
  | cons l ls ih =>
    rw [List.cons_append, jsons, parseChildren]
    cases parseEntry errors sort l.json with
    | error err => exact ih
    | ok c => exact List.mem_cons_of_mem c ih

theorem readAs_dir {i : Item} {children : List Tree}
    (halloc : (Tree.dir i children).total Item.alloc < 2 ^ 63)
    (hdisk : (Tree.dir i children).total Item.disk < 2 ^ 63) :
    ∃ e, ReadAs errors sort (.dir i children) e ∧
      e.children.Perm (parseChildren errors sort (jsons children)) := by
  obtain ⟨e, he⟩ := parseEntry_json errors sort _ halloc hdisk
  refine ⟨e, he, ?_⟩
  have hparse := he.1
  rw [total] at halloc hdisk
  rw [Tree.json, parseEntry, parseDir, parseFile_json errors (by omega) (by omega),
    Except.ok.injEq] at hparse
  exact hparse ▸ sort.perm _ _

/-- The entries for the directories above what is added, before and after. -/
theorem Adds.readAs {x t t' : Tree} {above : List (Tree × Tree)} (h : Adds x t t' above)
    (halloc : t'.total Item.alloc < 2 ^ 63) (hdisk : t'.total Item.disk < 2 ^ 63) :
    ∃ e e' rows, ReadAs errors sort t e ∧ ReadAs errors sort t' e' ∧
      Path e (rows.map Prod.fst) ∧ Path e' (rows.map Prod.snd) ∧
      List.Forall₂ (fun p r => ReadAs errors sort p.1 r.1 ∧ ReadAs errors sort p.2 r.2)
        above rows := by
  have halloc₀ := (h.total_le Item.alloc).trans_lt halloc
  have hdisk₀ := (h.total_le Item.disk).trans_lt hdisk
  induction h with
  | child i ls rs =>
    obtain ⟨e, he⟩ := parseEntry_json errors sort _ halloc₀ hdisk₀
    obtain ⟨e', he'⟩ := parseEntry_json errors sort _ halloc hdisk
    exact ⟨e, e', [(e, e')], he, he', .last e, .last e', .cons ⟨he, he'⟩ .nil⟩
  | deeper i ls rs h ih =>
    obtain ⟨e, he, hperm⟩ := readAs_dir errors sort halloc₀ hdisk₀
    obtain ⟨e', he', hperm'⟩ := readAs_dir errors sort halloc hdisk
    simp only [total, totals_append, totals] at halloc hdisk halloc₀ hdisk₀
    obtain ⟨c, c', rows, hc, hc', hpath, hpath', hrows⟩ :=
      ih (by omega) (by omega) (by omega) (by omega)
    have hmem := hperm.symm.subset (mem_parseChildren errors sort hc.1 ls rs)
    have hmem' := hperm'.symm.subset (mem_parseChildren errors sort hc'.1 ls rs)
    exact ⟨e, e', (e, e') :: rows, he, he', .child hmem hpath, .child hmem' hpath',
      .cons ⟨he, he'⟩ hrows⟩

variable {errors sort} in
theorem diskSize_le_iff_of_readAs {above : List (Tree × Tree)} {rows : List (DirEntry × DirEntry)}
    (h : List.Forall₂ (fun p r => ReadAs errors sort p.1 r.1 ∧ ReadAs errors sort p.2 r.2)
      above rows) :
    (∀ r ∈ rows, r.1.diskSize ≤ r.2.diskSize) ↔ ∀ p ∈ above, p.1.diskSize ≤ p.2.diskSize := by
  induction h with
  | nil => simp
  | cons hrow h ih =>
    rw [List.forall_mem_cons, List.forall_mem_cons, ih, hrow.1.2.1, hrow.2.2.1, Int.ofNat_le]

/-- What a scan without errors leaves that reads this text. -/
def scanText (json : JsonText) (data : String) (path : String) (now : Int) (result : ScanResult) :
    ScanResult :=
  (ScanRun.exit { parsed := (parse errors sort json (.ok data)).map some } false).write
    path now result

theorem totalSize_scanText {json : JsonText} {data : String} {major minor header : Json}
    {t : Tree} (hfits : t.Fits)
    (hdata : json.unmarshal data = some (.arr [major, minor, header, t.json]))
    (path : String) (now : Int) (result : ScanResult) :
    (scanText errors sort json data path now result).totalSize = t.diskSize := by
  obtain ⟨e, he, hsize, -⟩ := parseEntry_json errors sort t hfits.alloc hfits.disk
  have hparse : parse errors sort json (.ok data) = .ok e := by
    simp only [parse, hdata, Option.bind_some, rawMessages, he]
  rw [scanText, hparse]
  exact hsize

/-- **Disk totals.** Of the export of a tree to which something was added, the entries for the
directories above what was added have no smaller sizes on disk than before, and the scan has no
smaller total, exactly if no own size is replaced. -/
theorem diskSize_mono_iff (json : JsonText) {data data' : String} {major minor header : Json}
    {x t t' : Tree} {above : List (Tree × Tree)} (hadds : Adds x t t' above) (hfits : t'.Fits)
    (hdata : json.unmarshal data = some (.arr [major, minor, header, t.json]))
    (hdata' : json.unmarshal data' = some (.arr [major, minor, header, t'.json]))
    (path : String) (now : Int) (result : ScanResult) :
    ∃ e e' rows, parse errors sort json (.ok data) = .ok e ∧
      parse errors sort json (.ok data') = .ok e' ∧
      Path e (rows.map Prod.fst) ∧ Path e' (rows.map Prod.snd) ∧
      List.Forall₂ (fun p r => Matches p.1 r.1 ∧ Matches p.2 r.2) above rows ∧
      (((∀ r ∈ rows, r.1.diskSize ≤ r.2.diskSize) ∧
          (scanText errors sort json data path now result).totalSize ≤
            (scanText errors sort json data' path now result).totalSize) ↔
        ∀ p ∈ above, ¬ Replaced x p.1) := by
  obtain ⟨e, e', rows, he, he', hpath, hpath', hrows⟩ :=
    hadds.readAs errors sort hfits.alloc hfits.disk
  have hparse : parse errors sort json (.ok data) = .ok e := by
    simp only [parse, hdata, Option.bind_some, rawMessages, he.1]
  have hparse' : parse errors sort json (.ok data') = .ok e' := by
    simp only [parse, hdata', Option.bind_some, rawMessages, he'.1]
  refine ⟨e, e', rows, hparse, hparse', hpath, hpath',
    hrows.imp fun p r h => ⟨h.1.2.2, h.2.2.2⟩, ?_⟩
  have hfits₀ : t.Fits :=
    ⟨(hadds.total_le _).trans_lt hfits.alloc, (hadds.total_le _).trans_lt hfits.disk⟩
  rw [diskSize_le_iff_of_readAs hrows, hadds.all_le_iff,
    totalSize_scanText errors sort hfits₀ hdata, totalSize_scanText errors sort hfits hdata',
    Int.ofNat_le]
  -- The root is above what is added, so its size is one of those.
  exact and_iff_left_of_imp fun hnone => hadds.all_le_iff.2 hnone _ hadds.head_mem

end Parse

/-- A file is added to a directory that has another. -/
def oneFile : Tree := .dir (testItem "/" 1 4096) [.file (testItem "small.txt" 5 50)]

def twoFiles : Tree :=
  .dir (testItem "/" 1 4096) [.file (testItem "app.log" 1 1), .file (testItem "small.txt" 5 50)]

set_option maxRecDepth 10000 in
theorem unmarshal_files :
    exportJson.unmarshal (exported (testOutput oneFile)) = some (testOutput oneFile) ∧
      exportJson.unmarshal (exported (testOutput twoFiles)) = some (testOutput twoFiles) :=
  ⟨unmarshal_exported rfl, unmarshal_exported rfl⟩

theorem diskSize_mono_iff_twoFiles :
    ∃ e e' rows,
      parse testErrors mergeSortSlice exportJson (.ok (exported (testOutput oneFile))) = .ok e ∧
      parse testErrors mergeSortSlice exportJson (.ok (exported (testOutput twoFiles))) = .ok e' ∧
      Path e (rows.map Prod.fst) ∧ Path e' (rows.map Prod.snd) ∧
      List.Forall₂ (fun p r => Matches p.1 r.1 ∧ Matches p.2 r.2) [(oneFile, twoFiles)] rows ∧
      (((∀ r ∈ rows, r.1.diskSize ≤ r.2.diskSize) ∧
          (scanText testErrors mergeSortSlice exportJson (exported (testOutput oneFile)) "/" 0
              { status := .running }).totalSize ≤
            (scanText testErrors mergeSortSlice exportJson (exported (testOutput twoFiles)) "/" 0
              { status := .running }).totalSize) ↔
        ∀ p ∈ [(oneFile, twoFiles)], ¬ Replaced (.file (testItem "app.log" 1 1)) p.1) :=
  diskSize_mono_iff testErrors _ _ (.child _ [] [_]) ⟨by decide, by decide⟩ unmarshal_files.1
    unmarshal_files.2 _ _ _

def emptyDir : Tree := .dir (testItem "/" 1 4096) []

def smallFile : Tree := .dir (testItem "/" 1 4096) [.file (testItem "app.log" 1 1)]

set_option maxRecDepth 10000 in
theorem unmarshal_dirs :
    exportJson.unmarshal (exported (testOutput emptyDir)) = some (testOutput emptyDir) ∧
      exportJson.unmarshal (exported (testOutput smallFile)) = some (testOutput smallFile) :=
  ⟨unmarshal_exported rfl, unmarshal_exported rfl⟩

/-- An empty directory has its own size on disk, and with a small file only that of the file. -/
theorem total_decreases :
    Adds (.file (testItem "app.log" 1 1)) emptyDir smallFile [(emptyDir, smallFile)] ∧
      (scanText testErrors mergeSortSlice exportJson (exported (testOutput emptyDir)) "/" 0
        { status := .running }).totalSize = 4096 ∧
      (scanText testErrors mergeSortSlice exportJson (exported (testOutput smallFile)) "/" 0
        { status := .running }).totalSize = 1 := by
  have hempty : emptyDir.Fits := ⟨by decide, by decide⟩
  have hsmall : smallFile.Fits := ⟨by decide, by decide⟩
  exact ⟨.child _ [] [], totalSize_scanText _ _ hempty unmarshal_dirs.1 _ _ _,
    totalSize_scanText _ _ hsmall unmarshal_dirs.2 _ _ _⟩

end QuickVps.Ncdu
