import QuickVps.Ncdu.Export
import Mathlib.Algebra.Order.BigOperators.Group.List

/-!
# Values that are no entries

`parseDir` leaves out the children that cannot be read. A null can be read: it leaves the structure
as it is, so a null among the children is an entry without a name, and a null where a type does not
fit is no error.

* `IsFile`, `IsDirectory` — what an entry of ncdu is;
* `Accepted` — what is read as an entry;
* `Inserts` — values inserted among the children of directories;
* `parse_same_iff` — the tree is the same exactly if none of the inserted values is accepted.
-/

namespace QuickVps.Ncdu

open Go

/-! ## Entries -/

/-- The value has the type that the member of this name is decoded into. -/
def fits (name : String) (v : Json) : Bool :=
  match name with
  | "name" => (Json.readString v).isSome
  | "asize" => (Json.readInt64 v).isSome
  | "dsize" => (Json.readInt64 v).isSome
  | _ => true

/-- An object whose name and sizes have the right types. -/
def IsFile : Json → Bool
  | .obj members => members.all fun m => fits (Json.foldName m.1) m.2
  | _ => false

/-- An array that starts with such an object. -/
def IsDirectory : Json → Bool
  | .arr (meta_ :: _) => IsFile meta_
  | _ => false

def isNull : Json → Bool
  | .null => true
  | _ => false

/-- A null, or an object whose name and sizes have the right types or are null. -/
def Readable : Json → Bool
  | .null => true
  | .obj members => members.all fun m => isNull m.2 || fits (Json.foldName m.1) m.2
  | _ => false

/-- Readable, or an array that starts with such a value. -/
def Accepted : Json → Bool
  | .arr (meta_ :: _) => Readable meta_
  | v => Readable v

/-! ## Insertions -/

mutual

/-- The second value is the first with the values `xs` inserted among the children of directories
in it. -/
inductive Inserts : List Json → Json → Json → Prop
  | same (v : Json) : Inserts [] v v
  | dir {xs children children' : List Json} {meta_ : Json} (hmeta : Readable meta_ = true)
      (h : InsertsAll xs children children') :
      Inserts xs (.arr (meta_ :: children)) (.arr (meta_ :: children'))

inductive InsertsAll : List Json → List Json → List Json → Prop
  | nil : InsertsAll [] [] []
  | keep {xs ys children children' : List Json} {v v' : Json} (hv : Inserts xs v v')
      (h : InsertsAll ys children children') :
      InsertsAll (xs ++ ys) (v :: children) (v' :: children')
  | insert {xs children children' : List Json} (x : Json) (h : InsertsAll xs children children') :
      InsertsAll (x :: xs) children (x :: children')

end

/-! ## Reading -/

theorem field_isSome (name : String) (v : Json) (a : FileMeta) :
    (FileMeta.field name v a).isSome = (isNull v || fits name v) := by
  unfold FileMeta.field fits
  split <;> cases v <;> simp [isNull, Json.orKeep, Json.readString]

theorem foldlM_isSome (members : List (String × Json)) (a : FileMeta) :
    (members.foldlM (fun a m => FileMeta.field (Json.foldName m.1) m.2 a) a).isSome =
      members.all fun m => isNull m.2 || fits (Json.foldName m.1) m.2 := by
  induction members generalizing a with
  | nil => rfl
  | cons m members ih =>
    rw [List.foldlM_cons, List.all_cons, ← field_isSome _ _ a]
    cases FileMeta.field (Json.foldName m.1) m.2 a with
    | none => rfl
    | some b => simpa using ih b

mutual

/-- The number of entries in a tree. -/
def DirEntry.count : DirEntry → Nat
  | ⟨_, _, _, _, children⟩ => DirEntry.counts children + 1

def DirEntry.counts : List DirEntry → Nat
  | [] => 0
  | e :: es => e.count + DirEntry.counts es

end

theorem DirEntry.count_pos (e : DirEntry) : 0 < e.count := by
  cases e
  exact Nat.succ_pos _

theorem DirEntry.counts_perm {es es' : List DirEntry} (h : es.Perm es') :
    DirEntry.counts es = DirEntry.counts es' := by
  have hsum (es : List DirEntry) : DirEntry.counts es = (es.map DirEntry.count).sum := by
    induction es with
    | nil => rfl
    | cons e es ih => rw [DirEntry.counts, ih, List.map_cons, List.sum_cons]
  rw [hsum, hsum, (h.map _).sum_eq]

theorem DirEntry.count_withChildren (sort : SortSlice) (entry : DirEntry)
    (children : List DirEntry) :
    (entry.withChildren sort children).count = DirEntry.counts children + 1 := by
  show DirEntry.counts (sort.sort largerDisk children) + 1 = _
  rw [DirEntry.counts_perm (sort.perm largerDisk children)]

section Parse

variable (errors : JsonErrors) (sort : SortSlice)

theorem parse_ok_iff (json : JsonText) {data : String} {major minor header root : Json}
    {rest : List Json}
    (hdata : json.unmarshal data = some (.arr (major :: minor :: header :: root :: rest)))
    (e : DirEntry) :
    parse errors sort json (.ok data) = .ok e ↔ parseEntry errors sort root = .ok e := by
  simp only [parse, hdata, Option.bind_some, rawMessages]
  cases parseEntry errors sort root with
  | error err => simp
  | ok e' => simp

theorem parseFile_ok_iff (raw : Json) :
    (∃ e, parseFile errors raw = .ok e) ↔ Readable raw = true := by
  unfold parseFile
  cases raw with
  | obj members =>
    have hsome := foldlM_isSome members {}
    rw [Readable, ← hsome, Json.decode]
    cases members.foldlM (fun a m => FileMeta.field (Json.foldName m.1) m.2 a) {} with
    | none => simp
    | some m => simp
  | null => simp [Json.decode, Readable]
  | _ => simp [Json.decode, Readable]

theorem parseEntry_dir {meta_ : Json} (h : Readable meta_ = true) :
    ∃ entry : DirEntry, ∀ children, parseEntry errors sort (.arr (meta_ :: children)) =
      .ok (entry.withChildren sort (parseChildren errors sort children)) := by
  obtain ⟨entry, hentry⟩ := (parseFile_ok_iff errors meta_).2 h
  refine ⟨entry, fun children => ?_⟩
  rw [parseEntry, parseDir, hentry]

theorem parseEntry_ok_iff (raw : Json) :
    (∃ e, parseEntry errors sort raw = .ok e) ↔ Accepted raw = true := by
  unfold Accepted
  split
  next meta_ children =>
    rw [← parseFile_ok_iff errors, parseEntry, parseDir]
    cases parseFile errors meta_ with
    | error err => simp
    | ok entry => simp
  next hfile =>
    rw [← parseFile_ok_iff errors, parseEntry]
    exact hfile

/-! ## What insertions change -/

mutual

theorem parseEntry_inserts {xs : List Json} {v v' : Json} :
    Inserts xs v v' → (∀ x ∈ xs, Accepted x = false) →
      parseEntry errors sort v' = parseEntry errors sort v
  | .same v, _ => rfl
  | .dir hmeta h, hxs => by
    obtain ⟨entry, hdir⟩ := parseEntry_dir errors sort hmeta
    rw [hdir, hdir, parseChildren_inserts h hxs]

theorem parseChildren_inserts {xs children children' : List Json} :
    InsertsAll xs children children' → (∀ x ∈ xs, Accepted x = false) →
      parseChildren errors sort children' = parseChildren errors sort children
  | .nil, _ => rfl
  | .keep hv h, hxs => by
    have hentry := parseEntry_inserts hv fun x hx => hxs x (List.mem_append_left _ hx)
    have hrest := parseChildren_inserts h fun x hx => hxs x (List.mem_append_right _ hx)
    rw [parseChildren, parseChildren, hentry, hrest]
  | .insert x h, hxs => by
    have hx : Accepted x = false := hxs x List.mem_cons_self
    have hrest := parseChildren_inserts h fun y hy => hxs y (List.mem_cons_of_mem x hy)
    rw [parseChildren, hrest]
    cases hparse : parseEntry errors sort x with
    | error err => rfl
    | ok e =>
      rw [(parseEntry_ok_iff errors sort x).1 ⟨e, hparse⟩] at hx
      cases hx

end

/-- The number of entries that a value is read as. -/
def weight (v : Json) : Nat :=
  match parseEntry errors sort v with
  | .error _ => 0
  | .ok e => e.count

theorem weight_pos_iff (v : Json) : 0 < weight errors sort v ↔ Accepted v = true := by
  rw [← parseEntry_ok_iff errors sort, weight]
  cases parseEntry errors sort v with
  | error err => simp
  | ok e => simp [e.count_pos]

theorem counts_cons (v : Json) (vs : List Json) :
    DirEntry.counts (parseChildren errors sort (v :: vs)) =
      weight errors sort v + DirEntry.counts (parseChildren errors sort vs) := by
  rw [parseChildren, weight]
  cases parseEntry errors sort v with
  | error err => exact (Nat.zero_add _).symm
  | ok e => rfl

mutual

theorem weight_inserts {xs : List Json} {v v' : Json} :
    Inserts xs v v' →
      weight errors sort v' = weight errors sort v + (xs.map (weight errors sort)).sum
  | .same v => rfl
  | .dir hmeta h => by
    obtain ⟨entry, hdir⟩ := parseEntry_dir errors sort hmeta
    have hchildren := counts_inserts h
    simp only [weight, hdir, DirEntry.count_withChildren] at hchildren ⊢
    omega

theorem counts_inserts {xs children children' : List Json} :
    InsertsAll xs children children' →
      DirEntry.counts (parseChildren errors sort children') =
        DirEntry.counts (parseChildren errors sort children) + (xs.map (weight errors sort)).sum
  | .nil => rfl
  | .keep hv h => by
    have hentry := weight_inserts hv
    have hrest := counts_inserts h
    rw [counts_cons, counts_cons, hentry, hrest, List.map_append, List.sum_append]
    omega
  | .insert x h => by
    have hrest := counts_inserts h
    rw [counts_cons, hrest, List.map_cons, List.sum_cons]
    omega

end

/-- An entry is read as it was exactly if none of the inserted values is read as one. -/
theorem parseEntry_same_iff {xs : List Json} {v v' : Json} {e : DirEntry}
    (hinserts : Inserts xs v v') (h : parseEntry errors sort v = .ok e) :
    parseEntry errors sort v' = .ok e ↔ ∀ x ∈ xs, Accepted x = false := by
  constructor
  · intro hsame x hx
    by_contra hacc
    rw [Bool.not_eq_false] at hacc
    have hpos := (weight_pos_iff errors sort x).2 hacc
    have hle : weight errors sort x ≤ (xs.map (weight errors sort)).sum :=
      List.le_sum_of_mem (List.mem_map_of_mem hx)
    have hweight := weight_inserts errors sort hinserts
    simp only [weight, hsame, h] at hweight hpos hle
    omega
  · intro hxs
    rw [parseEntry_inserts errors sort hinserts hxs, h]

end Parse

/-! ## The whole output -/

/-- **Insertions.** The value `root` of an output is replaced by `root'`, which has the values `xs`
inserted among the children of its directories. The answer is the same exactly if none of the
values is accepted. -/
theorem parse_same_iff (errors : JsonErrors) (sort : SortSlice) (json : JsonText)
    {data data' : String} {major minor header root root' : Json} {rest xs : List Json}
    {e : DirEntry}
    (hdata : json.unmarshal data = some (.arr (major :: minor :: header :: root :: rest)))
    (hdata' : json.unmarshal data' = some (.arr (major :: minor :: header :: root' :: rest)))
    (hinserts : Inserts xs root root') (h : parse errors sort json (.ok data) = .ok e) :
    parse errors sort json (.ok data') = .ok e ↔ ∀ x ∈ xs, Accepted x = false := by
  have hroot := parse_ok_iff errors sort json hdata
  have hroot' := parse_ok_iff errors sort json hdata'
  rw [hroot', parseEntry_same_iff errors sort hinserts ((hroot e).1 h)]

/-- The output for a root with the given children. -/
def output (children : List Json) : Json :=
  .arr [.int 1, .int 0, .null, .arr ((testItem "/" 1 1).json :: children)]

theorem parse_output {json : JsonText} {data : String} {children : List Json}
    (h : json.unmarshal data = some (output children)) :
    parse testErrors mergeSortSlice json (.ok data) =
      .ok (DirEntry.withChildren mergeSortSlice ⟨"/", 1, 1, false, []⟩
        (parseChildren testErrors mergeSortSlice children)) := by
  have hmeta := parseFile_json testErrors (i := testItem "/" 1 1)
    (by decide) (by decide)
  refine (parse_ok_iff _ _ _ h _).2 ?_
  rw [parseEntry, parseDir, hmeta]
  rfl

set_option maxRecDepth 10000 in
theorem unmarshal_output (children : List Json)
    (h : children ∈ [[], [.str "malformed-child"], [.null]]) :
    exportJson.unmarshal (exported (output children)) = some (output children) := by
  simp only [List.mem_cons, List.not_mem_nil, or_false] at h
  obtain rfl | rfl | rfl := h <;> exact unmarshal_exported rfl

/-- A text among the children of the root is left out. -/
theorem parse_same_iff_text :
    parse testErrors mergeSortSlice exportJson (.ok (exported (output [.str "malformed-child"]))) =
        .ok (DirEntry.withChildren mergeSortSlice ⟨"/", 1, 1, false, []⟩ []) ↔
      ∀ x ∈ [Json.str "malformed-child"], Accepted x = false := by
  have hbefore := unmarshal_output [] (by simp)
  have hafter := unmarshal_output [.str "malformed-child"] (by simp)
  have hinserts : Inserts [.str "malformed-child"] (.arr [(testItem "/" 1 1).json])
      (.arr [(testItem "/" 1 1).json, .str "malformed-child"]) :=
    .dir (by decide) (.insert _ .nil)
  exact parse_same_iff _ _ _ hbefore hafter hinserts (parse_output hbefore)

/-- A null among the children of the root is an entry. -/
theorem null_is_entry :
    (IsFile .null = false ∧ IsDirectory .null = false) ∧
      Inserts [.null] (.arr [(testItem "/" 1 1).json]) (.arr [(testItem "/" 1 1).json, .null]) ∧
      parse testErrors mergeSortSlice exportJson (.ok (exported (output []))) =
        .ok ⟨"/", 1, 1, true, []⟩ ∧
      parse testErrors mergeSortSlice exportJson (.ok (exported (output [.null]))) =
        .ok ⟨"/", 1, 1, true, [⟨"", 0, 0, false, []⟩]⟩ := by
  refine ⟨⟨rfl, rfl⟩, .dir (by decide) (.insert _ .nil), ?_, ?_⟩
  · rw [parse_output (unmarshal_output [] (by simp))]
    simp [parseChildren, DirEntry.withChildren, sumDisk, mergeSortSlice]
  · rw [parse_output (unmarshal_output [.null] (by simp))]
    simp [parseChildren, parseEntry, parseFile, Json.decode, DirEntry.withChildren, sumDisk,
      mergeSortSlice, wrap64]

end QuickVps.Ncdu
