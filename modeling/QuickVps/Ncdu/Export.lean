import QuickVps.Ncdu.Parser
import Mathlib.Algebra.BigOperators.Group.List.Basic

/-!
# What ncdu exports

A tree of files and directories, the JSON value that ncdu writes for it, and what `Parse` makes of
that value.

* `Tree`, `Tree.json` — a tree and its export;
* `Tree.diskSize` — the size on disk that a tree is to have;
* `Matches` — an entry is that of a tree, up to the order of siblings;
* `parse_exact` — what `Parse` answers for an export matches the tree.
-/

namespace QuickVps.Ncdu

open Go

/-! ## Trees -/

/-- What the export says of one entry. A size may be left out when it is zero, and there may be
members that `parseFile` does not know. -/
structure Item where
  name : String
  asize : Option Nat
  dsize : Option Nat
  others : List (String × Json)
  unknown : ∀ m ∈ others, Json.foldName m.1 ∉ ["name", "asize", "dsize"]

namespace Item

def alloc (i : Item) : Nat := i.asize.getD 0

def disk (i : Item) : Nat := i.dsize.getD 0

def sizeMember (name : String) (size : Option Nat) : List (String × Json) :=
  size.toList.map fun n => (name, .int n)

def json (i : Item) : Json :=
  .obj (("name", .str i.name) :: sizeMember "asize" i.asize ++ sizeMember "dsize" i.dsize ++
    i.others)

end Item

inductive Tree where
  | file (i : Item)
  | dir (i : Item) (children : List Tree)

namespace Tree

mutual

def json : Tree → Json
  | file i => i.json
  | dir i children => .arr (i.json :: jsons children)

def jsons : List Tree → List Json
  | [] => []
  | t :: ts => t.json :: jsons ts

end

mutual

/-- The sum of one size over the files and directories of a tree. -/
def total (f : Item → Nat) : Tree → Nat
  | file i => f i
  | dir i children => f i + totals f children

def totals (f : Item → Nat) : List Tree → Nat
  | [] => 0
  | t :: ts => t.total f + totals f ts

end

mutual

/-- The size on disk: of a directory the sum of its children's, or its own if that is zero. -/
def diskSize : Tree → Nat
  | file i => i.disk
  | dir i children => if 0 < diskSizes children then diskSizes children else i.disk

def diskSizes : List Tree → Nat
  | [] => 0
  | t :: ts => t.diskSize + diskSizes ts

end

/-- The totals of the sizes are below `2 ^ 63`. -/
structure Fits (t : Tree) : Prop where
  alloc : t.total Item.alloc < 2 ^ 63
  disk : t.total Item.disk < 2 ^ 63

mutual

theorem diskSize_le_total : ∀ t : Tree, t.diskSize ≤ t.total Item.disk
  | file i => le_refl _
  | dir i children => by
    have hchildren := diskSizes_le_totals children
    rw [diskSize, total]
    split_ifs <;> omega

theorem diskSizes_le_totals : ∀ ts : List Tree, diskSizes ts ≤ totals Item.disk ts
  | [] => le_refl _
  | t :: ts => Nat.add_le_add (diskSize_le_total t) (diskSizes_le_totals ts)

end

end Tree

/-! ## Matching entries -/

/-- The sum of the sizes, as an integer. -/
def diskSum (es : List DirEntry) : Int := (es.map DirEntry.diskSize).sum

mutual

/-- The entry is that of the tree: its own data, those of its children in some order, its size, and
the children in the order of theirs. -/
def Matches : Tree → DirEntry → Prop
  | .file i, e => e = ⟨i.name, i.alloc, i.disk, false, []⟩
  | .dir i children, e =>
    e.name = i.name ∧ e.allocSize = i.alloc ∧ e.isDir = true ∧
      (∃ es, MatchesAll children es ∧ e.children.Perm es) ∧
      (e.diskSize = if 0 < diskSum e.children then diskSum e.children else (i.disk : Int)) ∧
      e.children.Pairwise (fun a b => b.diskSize ≤ a.diskSize) ∧
      ∀ c ∈ e.children, c.diskSize ≤ e.diskSize

def MatchesAll : List Tree → List DirEntry → Prop
  | [], [] => True
  | t :: ts, e :: es => Matches t e ∧ MatchesAll ts es
  | _, _ => False

end

/-! ## One entry -/

theorem field_unknown {name : String} (h : name ∉ ["name", "asize", "dsize"]) (v : Json)
    (m : FileMeta) : FileMeta.field name v m = some m := by
  simp only [List.mem_cons, List.not_mem_nil, or_false, not_or] at h
  unfold FileMeta.field
  split
  · exact absurd rfl h.1
  · exact absurd rfl h.2.1
  · exact absurd rfl h.2.2
  · rfl

theorem foldlM_unknown {members : List (String × Json)}
    (h : ∀ m ∈ members, Json.foldName m.1 ∉ ["name", "asize", "dsize"]) (m : FileMeta) :
    members.foldlM (fun a m => FileMeta.field (Json.foldName m.1) m.2 a) m = some m := by
  induction members with
  | nil => rfl
  | cons member members ih =>
    rw [List.foldlM_cons, field_unknown (h member List.mem_cons_self)]
    exact ih fun m hm => h m (List.mem_cons_of_mem _ hm)

theorem readInt64_natCast {n : Nat} (h : n < 2 ^ 63) :
    Json.readInt64 (.int n) = some (n : Int) := by
  have hrange : minInt64 ≤ (n : Int) ∧ (n : Int) ≤ maxInt64 := by
    simp only [minInt64, maxInt64]
    omega
  rw [Json.readInt64, if_pos hrange]

theorem field_asize {n : Nat} (h : n < 2 ^ 63) (m : FileMeta) :
    FileMeta.field "asize" (.int n) m = some { m with asize := n } := by
  simp [FileMeta.field, Json.orKeep, readInt64_natCast h]

theorem field_dsize {n : Nat} (h : n < 2 ^ 63) (m : FileMeta) :
    FileMeta.field "dsize" (.int n) m = some { m with dsize := n } := by
  simp [FileMeta.field, Json.orKeep, readInt64_natCast h]

theorem parseFile_json (errors : JsonErrors) {i : Item} (halloc : i.alloc < 2 ^ 63)
    (hdisk : i.disk < 2 ^ 63) :
    parseFile errors i.json = .ok ⟨i.name, i.alloc, i.disk, false, []⟩ := by
  have hname : Json.foldName "name" = "name" := by decide
  have hasize : Json.foldName "asize" = "asize" := by decide
  have hdsize : Json.foldName "dsize" = "dsize" := by decide
  have hstart : FileMeta.field "name" (.str i.name) {} = some ⟨i.name, 0, 0⟩ := rfl
  have hdecode : i.json.decode FileMeta.field {} = some ⟨i.name, i.alloc, i.disk⟩ := by
    rw [Item.json, Json.decode, List.cons_append, List.cons_append, List.foldlM_cons]
    simp only [hname, hstart, Option.bind_eq_bind, Option.bind_some, List.foldlM_append]
    unfold Item.alloc Item.disk at *
    cases ha : i.asize <;> cases hd : i.dsize <;>
      simp_all [Item.sizeMember, field_asize, field_dsize, foldlM_unknown i.unknown]
  rw [parseFile, hdecode]

/-! ## Directories -/

theorem strictWeak_largerDisk : StrictWeak largerDisk := by
  constructor
  · intro a
    simp [largerDisk]
  · intro a b c hab hbc
    simp only [largerDisk, decide_eq_true_eq] at *
    omega
  · intro a b c hab hbc
    simp only [largerDisk, decide_eq_false_iff_not] at *
    omega

theorem diskSum_nonneg {es : List DirEntry} (h : ∀ e ∈ es, 0 ≤ e.diskSize) : 0 ≤ diskSum es := by
  induction es with
  | nil => exact le_refl _
  | cons e es ih =>
    have hes := ih fun e' he' => h e' (List.mem_cons_of_mem _ he')
    have he := h e List.mem_cons_self
    simp only [diskSum, List.map_cons, List.sum_cons] at *
    omega

theorem le_diskSum {es : List DirEntry} (h : ∀ e ∈ es, 0 ≤ e.diskSize) {e : DirEntry}
    (he : e ∈ es) : e.diskSize ≤ diskSum es := by
  induction es with
  | nil => cases he
  | cons e' es ih =>
    have hes : ∀ e ∈ es, 0 ≤ e.diskSize := fun e he => h e (List.mem_cons_of_mem _ he)
    have hsum := diskSum_nonneg hes
    have he' := h e' List.mem_cons_self
    rcases List.mem_cons.1 he with rfl | he
    · simp only [diskSum, List.map_cons, List.sum_cons] at *
      omega
    · have hle := ih hes he
      simp only [diskSum, List.map_cons, List.sum_cons] at *
      omega

/-- The sum of sizes does not overflow while it fits. -/
theorem sumDisk_eq {es : List DirEntry} (h : ∀ e ∈ es, 0 ≤ e.diskSize)
    (hfit : diskSum es ≤ maxInt64) : sumDisk es = diskSum es := by
  have hfold : ∀ (es : List DirEntry) (acc : Int), (∀ e ∈ es, 0 ≤ e.diskSize) → 0 ≤ acc →
      acc + diskSum es ≤ maxInt64 →
      es.foldl (fun totalDisk child => wrap64 (totalDisk + child.diskSize)) acc =
        acc + diskSum es := by
    intro es
    induction es with
    | nil =>
      intro acc _ _ _
      simp [diskSum]
    | cons e es ih =>
      intro acc hes hacc hle
      have he := hes e List.mem_cons_self
      have hrest : ∀ e ∈ es, 0 ≤ e.diskSize := fun e he => hes e (List.mem_cons_of_mem _ he)
      have hsum := diskSum_nonneg hrest
      have hcons : diskSum (e :: es) = e.diskSize + diskSum es := rfl
      rw [hcons] at hle
      have hwrap : wrap64 (acc + e.diskSize) = acc + e.diskSize :=
        wrap64_eq (by simp only [minInt64]; omega) (by omega)
      rw [List.foldl_cons, hwrap, ih _ hrest (by omega) (by omega), hcons]
      omega
  rw [sumDisk, hfold es 0 h (le_refl _) (by omega), Int.zero_add]

/-- A directory with the children that were found, in any order. -/
theorem matches_withChildren (sort : SortSlice) {i : Item} {children : List Tree}
    {es : List DirEntry} (hmatch : MatchesAll children es) (hnonneg : ∀ e ∈ es, 0 ≤ e.diskSize)
    (hfit : diskSum es ≤ maxInt64) :
    Matches (.dir i children)
      (DirEntry.withChildren sort ⟨i.name, i.alloc, i.disk, false, []⟩ es) := by
  have hperm : (sort.sort largerDisk es).Perm es := sort.perm _ _
  have hsum : diskSum (sort.sort largerDisk es) = diskSum es := (hperm.map _).sum_eq
  have hsorted := sort.sorted strictWeak_largerDisk es
  have hsize : (DirEntry.withChildren sort ⟨i.name, i.alloc, i.disk, false, []⟩ es).diskSize =
      if 0 < diskSum es then diskSum es else (i.disk : Int) := by
    show (if sumDisk es > 0 then sumDisk es else (i.disk : Int)) = _
    rw [sumDisk_eq hnonneg hfit]
  refine ⟨rfl, rfl, rfl, ⟨es, hmatch, hperm⟩, ?_, ?_, ?_⟩
  · rw [hsize]
    show _ = if 0 < diskSum (sort.sort largerDisk es) then diskSum (sort.sort largerDisk es) else _
    rw [hsum]
  · exact hsorted.imp fun h => by simpa [largerDisk] using h
  · intro c hc
    have hle := le_diskSum hnonneg (hperm.subset hc)
    rw [hsize]
    split_ifs <;> omega

mutual

theorem parseEntry_json (errors : JsonErrors) (sort : SortSlice) : ∀ t : Tree,
    t.total Item.alloc < 2 ^ 63 → t.total Item.disk < 2 ^ 63 →
    ∃ e, parseEntry errors sort t.json = .ok e ∧ e.diskSize = t.diskSize ∧ Matches t e
  | .file i, halloc, hdisk => ⟨_, parseFile_json errors halloc hdisk, rfl, rfl⟩
  | .dir i children, halloc, hdisk => by
    rw [Tree.total] at halloc hdisk
    obtain ⟨hsum, hmatch, hnonneg⟩ :=
      parseChildren_jsons errors sort children (by omega) (by omega)
    have hle := Tree.diskSizes_le_totals children
    have hfit : diskSum (parseChildren errors sort (Tree.jsons children)) ≤ maxInt64 := by
      rw [hsum, maxInt64]
      omega
    refine ⟨_, ?_, ?_, matches_withChildren sort hmatch hnonneg hfit⟩
    · show (match parseFile errors i.json with
        | .error err => .error err
        | .ok entry => .ok _ : Except String DirEntry) = _
      rw [parseFile_json errors (by omega) (by omega)]
    · show (if sumDisk _ > 0 then sumDisk _ else (i.disk : Int)) = _
      rw [sumDisk_eq hnonneg hfit, hsum, Tree.diskSize]
      split_ifs <;> omega

theorem parseChildren_jsons (errors : JsonErrors) (sort : SortSlice) : ∀ ts : List Tree,
    Tree.totals Item.alloc ts < 2 ^ 63 → Tree.totals Item.disk ts < 2 ^ 63 →
    diskSum (parseChildren errors sort (Tree.jsons ts)) = Tree.diskSizes ts ∧
      MatchesAll ts (parseChildren errors sort (Tree.jsons ts)) ∧
      ∀ e ∈ parseChildren errors sort (Tree.jsons ts), 0 ≤ e.diskSize
  | [], _, _ => ⟨rfl, trivial, fun e he => by cases he⟩
  | t :: ts, halloc, hdisk => by
    rw [Tree.totals] at halloc hdisk
    obtain ⟨e, he, hsize, hmatch⟩ := parseEntry_json errors sort t (by omega) (by omega)
    obtain ⟨hsum, hmatches, hnonneg⟩ := parseChildren_jsons errors sort ts (by omega) (by omega)
    rw [Tree.jsons, parseChildren, he]
    refine ⟨?_, ⟨hmatch, hmatches⟩, List.forall_mem_cons.2 ⟨by omega, hnonneg⟩⟩
    show e.diskSize + diskSum _ = _
    rw [hsize, hsum, Tree.diskSizes]
    omega

end

/-- **Parsing is exact.** Of a text that reads as the export of a tree, whatever the first three
elements are, `Parse` returns an entry that matches the tree. -/
theorem parse_exact (errors : JsonErrors) (sort : SortSlice) (json : JsonText) {data : String}
    {major minor header : Json} {t : Tree} (hfits : t.Fits)
    (hdata : json.unmarshal data = some (.arr [major, minor, header, t.json])) :
    ∃ e, parse errors sort json (.ok data) = .ok e ∧ Matches t e := by
  obtain ⟨e, he, -, hmatch⟩ := parseEntry_json errors sort t hfits.alloc hfits.disk
  refine ⟨e, ?_, hmatch⟩
  simp only [parse, hdata, Option.bind_some, rawMessages, he]

/-- The tree of the parser's own test, without the entry that cannot be read. -/
def testItem (name : String) (asize dsize : Nat) : Item where
  name := name
  asize := some asize
  dsize := some dsize
  others := []
  unknown := by simp

def testTree : Tree :=
  .dir (testItem "/" 1 1)
    [.file (testItem "small.txt" 5 50),
      .dir (testItem "logs" 2 2) [.file (testItem "app.log" 10 400)]]

def testErrors : JsonErrors := ⟨fun _ => "", fun _ => ""⟩

/-! ### The texts of exports -/

mutual

/-- The text that ncdu prints for a value. -/
def exportText : Json → List Char
  | .int n => itoa n
  | .str s => '"' :: s.toList.flatMap PlainJson.quoteChar ++ ['"']
  | .arr items => '[' :: [','].intercalate (exportTexts items) ++ [']']
  | .obj members => '\x7b' :: [','].intercalate (memberTexts members) ++ ['\x7d']
  | _ => "null".toList

def exportTexts : List Json → List (List Char)
  | [] => []
  | v :: items => exportText v :: exportTexts items

def memberTexts : List (String × Json) → List (List Char)
  | [] => []
  | (name, v) :: members =>
    ('"' :: name.toList.flatMap PlainJson.quoteChar ++ '"' :: ':' :: exportText v) ::
      memberTexts members

end

mutual

/-- The value that a text begins with, and what is after it. -/
def readValue : Nat → List Char → Option (Json × List Char)
  | 0, _ => none
  | _ + 1, '[' :: ']' :: cs => some (.arr [], cs)
  | fuel + 1, '[' :: cs => (readElements fuel cs).map fun r => (.arr r.1, r.2)
  | _ + 1, '\x7b' :: '\x7d' :: cs => some (.obj [], cs)
  | fuel + 1, '\x7b' :: cs => (readMembers fuel cs).map fun r => (.obj r.1, r.2)
  | _ + 1, 'n' :: 'u' :: 'l' :: 'l' :: cs => some (.null, cs)
  | _ + 1, cs => PlainJson.readItem cs

def readElements : Nat → List Char → Option (List Json × List Char)
  | 0, _ => none
  | fuel + 1, cs =>
    match readValue fuel cs with
    | some (v, ',' :: rest) => (readElements fuel rest).map fun r => (v :: r.1, r.2)
    | some (v, ']' :: rest) => some ([v], rest)
    | _ => none

def readMembers : Nat → List Char → Option (List (String × Json) × List Char)
  | 0, _ => none
  | fuel + 1, cs =>
    match PlainJson.readItem cs with
    | some (.str name, ':' :: cs) =>
      match readValue fuel cs with
      | some (v, ',' :: rest) => (readMembers fuel rest).map fun r => ((name, v) :: r.1, r.2)
      | some (v, '\x7d' :: rest) => some ([(name, v)], rest)
      | _ => none
    | _ => none

end

def exported (v : Json) : String := String.ofList (exportText v)

/-- The texts of exports, for runs of the model. -/
def exportJson : JsonText where
  marshal v := some (exported v)
  unmarshal data :=
    match readValue data.length data.toList with
    | some (v, []) => some v
    | _ => none

theorem unmarshal_exported {v : Json}
    (h : readValue (exportText v).length (exportText v) = some (v, [])) :
    exportJson.unmarshal (exported v) = some v := by
  simp only [exportJson, exported, String.length_ofList, String.toList_ofList, h]

/-- The output of ncdu for a tree. -/
def testOutput (t : Tree) : Json :=
  .arr [.int 1, .int 0, .obj [("progname", .str "ncdu")], t.json]

set_option maxRecDepth 10000 in
theorem unmarshal_testTree :
    exportJson.unmarshal (exported (testOutput testTree)) = some (testOutput testTree) :=
  unmarshal_exported rfl

theorem parse_exact_testTree :
    ∃ e, parse testErrors mergeSortSlice exportJson (.ok (exported (testOutput testTree))) = .ok e ∧
      Matches testTree e :=
  parse_exact _ _ _ ⟨by decide, by decide⟩ unmarshal_testTree

end QuickVps.Ncdu
