import QuickVps.Go.Float64
import QuickVps.Go.Time

/-!
# JSON values

The values that `encoding/json` writes and reads. A value that is written is kept as the tree the
encoder is given; a body that is read is the tree of its text, and `decode` fills the fields of a
structure from it: members in order, names compared without case, unknown members ignored, and a
value of another type is an error.
-/

namespace Go

/-- A number without fraction and exponent is an `int`. A text that need not be UTF-8 is `bytes`,
and an instant is a `time`. -/
inductive Json where
  | null
  | bool (b : Bool)
  | int (n : Int)
  | float (x : Float64)
  | str (s : String)
  | bytes (s : List UInt8)
  | time (t : Int)
  | arr (items : List Json)
  | obj (members : List (String × Json))

namespace Json

/-- A pointer that may be nil. -/
def opt {α : Type*} (f : α → Json) : Option α → Json
  | none => null
  | some a => f a

/-- The letters that are equal without case to an ASCII letter: besides the two cases, the Kelvin
sign and the long s. -/
def foldChar (c : Char) : Char :=
  if c.toNat = 0x212A then 'k' else if c.toNat = 0x17F then 's' else c.toLower

def foldName (s : String) : String := String.ofList (s.toList.map foldChar)

/-- The value of a member of an object. -/
def member (name : String) : Json → Option Json
  | obj members => members.lookup name
  | _ => none

/-! ## Reading -/

/-- `Decode` into a structure that holds `zero`; `field` reads one member. -/
def decode {α : Type*} (field : String → Json → α → Option α) (zero : α) : Json → Option α
  | null => some zero
  | obj members => members.foldlM (fun a m => field (foldName m.1) m.2 a) zero
  | _ => none

/-- A field that is not a pointer keeps its value when the member is null. -/
def orKeep {α : Type*} (read : Json → Option α) (old : α) : Json → Option α
  | null => some old
  | v => read v

/-- A pointer, or a slice, is nil when the member is null. -/
def orNil {α : Type*} (read : Json → Option α) : Json → Option (Option α)
  | null => some none
  | v => (read v).map some

def readString : Json → Option String
  | str s => some s
  | _ => none

def readBool : Json → Option Bool
  | bool b => some b
  | _ => none

def readInt64 : Json → Option Int
  | int n => if minInt64 ≤ n ∧ n ≤ maxInt64 then some n else none
  | _ => none

/-- A number in the range of `float64`. -/
def readFloat64 : Json → Option ℚ
  | int n => some n
  | float (.num q) => some q
  | _ => none

/-- The elements of a slice; null leaves the zero value. -/
def readSlice {α : Type*} (read : Json → Option α) (zero : α) : Json → Option (List α)
  | arr items => items.mapM (orKeep read zero)
  | _ => none

end Json

end Go
