import GridDispatch.Ledger.Numeric
import GridDispatch.Number.Decimal

/-!
# Cells

What a stored column can hold when it was written from outside: nothing, a number or a text. Columns
have an affinity, to which a cell is coerced when it is stored.
-/

namespace GridDispatch

inductive Cell
  | null
  | int (n : Int)
  | real (x : Double)
  | text (s : String)
  deriving DecidableEq, Repr

inductive Affinity
  | integer
  | text
  deriving DecidableEq, Repr

namespace Cell

def ofInt? : Option Int → Cell
  | none => null
  | some n => int n

def ofText? : Option String → Cell
  | none => null
  | some s => text s

/-- A flag is stored as 1 or 0. -/
def ofFlag? : Option Bool → Cell
  | none => null
  | some true => int 1
  | some false => int 0

def ofNumeric : Numeric → Cell
  | .whole n => int n
  | .double x => real x

/-- The word for what a cell holds. -/
def kind : Cell → String
  | null => "Null"
  | int _ => "Integer"
  | real _ => "Real"
  | text _ => "Text"

/-- The cell as it is stored in a column: a text that stands for a number becomes that number in a
column of numbers, a number becomes its numeral in a column of texts. -/
def coerce : Affinity → Cell → Cell
  | .integer, text s =>
    match Numeric.ofText? s with
    | some n => ofNumeric n
    | none => text s
  | .integer, real x => ofNumeric (.ofDouble x)
  | .text, int n => text (Text.write n)
  | .text, real x => text x.writeStored
  | _, c => c

/-- Nothing comes before numbers, numbers before texts. -/
def order : Cell → Cell → Ordering
  | null, null => .eq
  | null, _ => .lt
  | _, null => .gt
  | int m, int n => compare m n
  | int m, real y => (y.orderInt m).swap
  | real x, int n => x.orderInt n
  | real x, real y => x.order y
  | text s, text t => compare s t
  | _, text _ => .lt
  | text _, _ => .gt

/-- The negative of a number; a text counts as the number that it begins with. -/
def negate : Cell → Cell
  | null => null
  | int n => int (-n)
  | real x => real x.neg
  | text s =>
    match Numeric.leading s with
    | .whole n => int (-n)
    | .double x => real x.neg

/-- Whether two cells hold the same; nothing is not the same as nothing. -/
def same (a b : Cell) : Bool := decide (a ≠ null) && a.order b == .eq

end Cell

end GridDispatch
