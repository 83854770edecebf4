import QuickVps.Go.JsonText
import QuickVps.Go.Sort
import QuickVps.Ncdu.Runner

/-!
# The parser of ncdu's output

`Parse` reads `[major, minor, header, root]`. An entry is a directory if it is an array with a first
element, which describes it, and else a file. The entries of a directory that cannot be read are
left out, its size on disk is the sum of theirs unless that is zero, and they are sorted by it.

* `parse`, `parseEntry`, `parseDir`, `parseFile` — the functions of the source;
* `parseChildren`, `DirEntry.withChildren` — the loop of `parseDir`, and what it is for.
-/

namespace QuickVps.Ncdu

open Go

/-- The texts of the errors of `encoding/json`: for a text that is no array, and for a value that is
no description of an entry. -/
structure JsonErrors where
  topLevel : String → String
  fileMeta : Json → String

/-- The fields that `parseFile` decodes. -/
structure FileMeta where
  name : String := ""
  asize : Int := 0
  dsize : Int := 0

def FileMeta.field (name : String) (v : Json) (m : FileMeta) : Option FileMeta :=
  match name with
  | "name" => (v.orKeep Json.readString m.name).map fun x => { m with name := x }
  | "asize" => (v.orKeep Json.readInt64 m.asize).map fun x => { m with asize := x }
  | "dsize" => (v.orKeep Json.readInt64 m.dsize).map fun x => { m with dsize := x }
  | _ => some m

def parseFile (errors : JsonErrors) (raw : Json) : Except String DirEntry :=
  match raw.decode FileMeta.field {} with
  | none => .error ("parse file meta: " ++ errors.fileMeta raw)
  | some m => .ok ⟨m.name, m.asize, m.dsize, false, []⟩

/-- The sum of the sizes in `int64`. -/
def sumDisk (children : List DirEntry) : Int :=
  children.foldl (fun totalDisk child => wrap64 (totalDisk + child.diskSize)) 0

def largerDisk (a b : DirEntry) : Bool := b.diskSize < a.diskSize

/-- The directory with the children found. -/
def DirEntry.withChildren (sort : SortSlice) (entry : DirEntry) (children : List DirEntry) :
    DirEntry :=
  { entry with
    isDir := true
    diskSize := if sumDisk children > 0 then sumDisk children else entry.diskSize
    children := sort.sort largerDisk children }

section Parse

variable (errors : JsonErrors) (sort : SortSlice)

mutual

def parseEntry : Json → Except String DirEntry
  | .arr (meta_ :: children) => parseDir (meta_ :: children)
  | raw => parseFile errors raw

def parseDir : List Json → Except String DirEntry
  | [] => .error "empty directory array"
  | meta_ :: children =>
    match parseFile errors meta_ with
    | .error err => .error err
    | .ok entry => .ok (entry.withChildren sort (parseChildren children))

/-- The loop over the children. -/
def parseChildren : List Json → List DirEntry
  | [] => []
  | raw :: rest =>
    match parseEntry raw with
    | .error _ => parseChildren rest
    | .ok child => child :: parseChildren rest

end

/-- Decode into `[]json.RawMessage`. -/
def rawMessages : Json → Option (List Json)
  | .null => some []
  | .arr items => some items
  | _ => none

/-- `r` is what `io.ReadAll` answers. -/
def parse (json : JsonText) (r : Except String String) : Except String DirEntry :=
  match r with
  | .error err => .error ("read ncdu output: " ++ err)
  | .ok data =>
    match (json.unmarshal data).bind rawMessages with
    | none => .error ("unmarshal top-level: " ++ errors.topLevel data)
    | some (_ :: _ :: _ :: root :: _) =>
      match parseEntry errors sort root with
      | .error err => .error ("parse root: " ++ err)
      | .ok root => .ok root
    | some top =>
      .error ("unexpected ncdu format: expected 4 elements, got " ++
        String.ofList (itoa (top.length : Int)))

end Parse

end QuickVps.Ncdu
