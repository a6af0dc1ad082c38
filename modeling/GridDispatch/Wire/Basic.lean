import GridDispatch.Json.Basic
import GridDispatch.Named
import GridDispatch.Text.Numeral

/-!
# Wire shapes

`Wire α` writes the values of a type as JSON and reads them back. A record is read from an object or
from an array of its fields: `gather` brings both to one list of fields under their own names. A
field may have a second name, but not be given under both.
-/

namespace GridDispatch

class Wire (α : Type) where
  encode : α → Json
  decode? : Json → Option α

export Wire (encode decode?)

namespace Wire

instance : Wire Json := ⟨id, some⟩

instance : Wire String where
  encode := .str
  decode? := Json.text?

instance : Wire Bool where
  encode := .bool
  decode?
    | .bool b => some b
    | _ => none

/-- Whole numbers are signed, of 64 bits. -/
instance : Wire Int where
  encode := .int
  decode?
    | .int n => if Text.Range.signed.has n then some n else none
    | _ => none

/-- Counts are unsigned, of 64 bits. -/
instance : Wire Nat where
  encode n := .int n
  decode?
    | .int n => if Text.Range.unsigned.has n then some n.toNat else none
    | _ => none

instance {α : Type} [Wire α] : Wire (Option α) where
  encode
    | none => .null
    | some a => encode a
  decode?
    | .null => some none
    | v => (decode? v).map some

instance {α : Type} [Wire α] : Wire (List α) where
  encode as := .arr (as.map encode)
  decode?
    | .arr items => items.mapM decode?
    | _ => none

/-- A value of a finite kind is its name; an object with the name for its only member will do. -/
abbrev ofNamed (α : Type) [Named α] : Wire α where
  encode a := .str (name a)
  decode?
    | .str s => ofName? s
    | .obj [(s, .null)] => ofName? s
    | _ => none

end Wire

/-! ## Records -/

/-- A field of a record. -/
structure Slot where
  name : String
  other : Option String
  /-- Whether the field may be missing from the end of an array. -/
  trailing : Bool
  deriving DecidableEq, Repr

namespace Slot

/-- Fields that an array must have. -/
def fixed (names : List String) : List Slot := names.map fun name => ⟨name, none, false⟩

/-- A field that an array need not have. -/
def open? (name : String) : Slot := ⟨name, none, true⟩

/-- The field in an object; fails if it is there twice. -/
def pick? (slot : Slot) (members : List (String × Json)) : Option (List (String × Json)) :=
  match members.lookup slot.name, slot.other.bind fun name => members.lookup name with
  | some _, some _ => none
  | some v, none => some [(slot.name, v)]
  | none, some v => some [(slot.name, v)]
  | none, none => some []

end Slot

/-- The fields that are there, under their own names. -/
abbrev Record := List (String × Json)

/-- The fields of an object. -/
def pickAll (members : List (String × Json)) : List Slot → Option Record
  | [] => some []
  | slot :: slots => do
    let field ← slot.pick? members
    let rest ← pickAll members slots
    return field ++ rest

/-- The fields of an array. -/
def place : List Slot → List Json → Option Record
  | [], [] => some []
  | [], _ :: _ => none
  | slot :: slots, [] => if slot.trailing then place slots [] else none
  | slot :: slots, v :: vs => (place slots vs).map ((slot.name, v) :: ·)

def gather (slots : List Slot) : Json → Option Record
  | .obj members => pickAll members slots
  | .arr items => place slots items
  | _ => none

/-- Null for the empty object that stands in its place in an object with one member. -/
def Json.relaxed : Json → Json
  | .obj [(s, .obj [])] => .obj [(s, .null)]
  | v => v

namespace Record

/-- The fields of a record whose names may be objects with an empty object for null. -/
def relaxed (r : Record) : Record := r.map fun m => (m.1, m.2.relaxed)

variable {α : Type} [Wire α]

/-- A field that must be there. -/
def required (r : Record) (name : String) : Option α :=
  match r.lookup name with
  | none => none
  | some v => decode? v

/-- A field that has a default. -/
def orElse (r : Record) (name : String) (default : α) : Option α :=
  match r.lookup name with
  | none => some default
  | some v => decode? v

/-- A field that may be null or missing. -/
def optional (r : Record) (name : String) : Option (Option α) :=
  r.orElse name none

end Record

end GridDispatch
