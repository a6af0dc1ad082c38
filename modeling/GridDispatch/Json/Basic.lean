import GridDispatch.Number.Double

/-!
# JSON values

`Json` keeps whole numbers and doubles apart, because a whole number written as `1.0` is not
accepted where a count is asked for. An object is the list of its members; reading a text keeps
the last of several members of one name.
-/

namespace GridDispatch

inductive Json
  | null
  | bool (b : Bool)
  | int (n : Int)
  | real (x : Double)
  | str (s : String)
  | arr (items : List Json)
  | obj (members : List (String × Json))
  deriving Repr, Inhabited

namespace Json

/-- The member of an object with the given name. -/
def member? (key : String) : Json → Option Json
  | obj members => (members.find? fun m => m.1 == key).map fun m => m.2
  | _ => none

/-- The members with `key` set to `value`, the others as they were. -/
def put (key : String) (value : Json) (members : List (String × Json)) : List (String × Json) :=
  members.filter (fun m => m.1 != key) ++ [(key, value)]

/-- A text, or null for none. -/
def ofText? : Option String → Json
  | none => null
  | some s => str s

/-- The text that a value is. -/
def text? : Json → Option String
  | str s => some s
  | _ => none

end Json

end GridDispatch
