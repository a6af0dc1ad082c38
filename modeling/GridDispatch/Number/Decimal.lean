import GridDispatch.Number.Double
import GridDispatch.Text.Numeral

/-!
# Decimal numerals of doubles

`Binary.shortest` finds the fewest decimal digits that determine a double: for one digit, two digits
and so on, it looks at the two neighbours of the magnitude on that decimal grid, and takes the first
that the double is the nearest double to. `Binary.rounded` gives a set number of digits. A `Layout`
says how digits are written; `Double.write` writes the shortest ones.
-/

namespace GridDispatch

namespace Binary

/-- The greatest exponent of ten whose power is not above a quotient. -/
def orderTen (num den : Nat) : Int :=
  if den ≤ num then (Text.digits (num / den)).length - 1
  else -(Text.digits ((den - 1) / num)).length

/-- Whether the lower neighbour of a double is only half as far away as the upper one. -/
def isStep (x : Binary) : Bool :=
  x.mantissa = Nat.pow 2 52 ∧ x.exponent ≠ Precision.double.least

/-- The nearer to `x` of its two neighbours among the multiples of `10 ^ k`, an even one in a tie, if
`x` is the double that is nearest to it. -/
def neighbour? (x : Binary) (k : Int) : Option Nat :=
  let (a, b) := powRatio 10 k
  let (c, d) := powRatio 2 (2 - x.exponent)
  let unit := a * c
  let scale := b * d
  let low := (4 * x.mantissa - if x.isStep then 1 else 2) * scale
  let mid := 4 * x.mantissa * scale
  let high := (4 * x.mantissa + 2) * scale
  let hit (n : Nat) : Bool :=
    if x.mantissa % 2 = 0 then low ≤ n * unit ∧ n * unit ≤ high
    else low < n * unit ∧ n * unit < high
  let q := mid / unit
  let near := roundDiv mid unit
  let far := if near = q then q + 1 else q
  if hit near then some near else if hit far then some far else none

/-- The fewest digits that determine a double, and the power of ten of the last of them. -/
def shortest (x : Binary) : Nat × Int :=
  let top := orderTen x.ratio.1 x.ratio.2
  let found := (List.range 17).findSome? fun (i : Nat) =>
    (x.neighbour? (top - i)).map fun n => (n, top - i)
  match found with
  | some (10, k) => (1, k + 1)
  | some (n, k) => (n, k)
  | none => (0, 0)

/-- A number and a power of ten, the number without zeros at its end. -/
def withoutZeros : Nat → Nat → Int → Nat × Int
  | 0, n, k => (n, k)
  | fuel + 1, n, k => if n % 10 = 0 then withoutZeros fuel (n / 10) (k + 1) else (n, k)

/-- The first `count` digits of a magnitude, a half rounded up, and the power of ten of the last. -/
def rounded (x : Binary) (count : Nat) : Nat × Int :=
  let (num, den) := x.ratio
  let k := orderTen num den + 1 - count
  let (a, b) := powRatio 10 k
  withoutZeros count ((2 * num * b + den * a) / (2 * den * a)) k

end Binary

/-- How digits are written. They have no exponent if the point is after the first `p` of them with
`-left ≤ p ≤ right`; zeros are filled in where the point lies beside them. -/
structure Layout where
  left : Nat
  right : Nat
  /-- Whether a single digit before an exponent still has a point. -/
  pointed : Bool
  /-- How many digits an exponent has at least. -/
  exponentWidth : Nat

namespace Layout

/-- Printed numbers. -/
def printed : Layout := ⟨4, 16, false, 1⟩

/-- Numbers that are stored as texts. -/
def stored : Layout := ⟨3, 15, true, 2⟩

def zeros (n : Int) : List Char := List.replicate n.toNat '0'

/-- The exponent after its `e`, with a sign in any case. -/
def exponent (l : Layout) (k : Int) : List Char :=
  let digits := Text.digits k.natAbs
  (if k < 0 then '-' else '+') :: zeros (l.exponentWidth - digits.length) ++ digits

/-- Digits with the point after the first `point` of them. -/
def write (l : Layout) (digits : List Char) (point : Int) : List Char :=
  if point < -l.left ∨ (l.right : Int) < point then
    let fraction := match digits.drop 1 with
      | [] => if l.pointed then ['.', '0'] else []
      | ds => '.' :: ds
    digits.take 1 ++ fraction ++ 'e' :: l.exponent (point - 1)
  else if point ≤ 0 then '0' :: '.' :: zeros (-point) ++ digits
  else
    let fraction := match digits.drop point.toNat with
      | [] => ['0']
      | ds => ds
    digits.take point.toNat ++ zeros (point - digits.length) ++ '.' :: fraction

/-- A number of digits that ends at a power of ten. -/
def writeScaled (l : Layout) (scaled : Nat × Int) : List Char :=
  let digits := Text.digits scaled.1
  l.write digits (digits.length + scaled.2)

end Layout

namespace Double

def writeChars (x : Double) : List Char :=
  let digits :=
    if x.isZero then ['0', '.', '0'] else Layout.printed.writeScaled x.magnitude.shortest
  if x.negative then '-' :: digits else digits

/-- The shortest numeral of a double; it has a point or an exponent. -/
def write (x : Double) : String := String.ofList x.writeChars

/-- The numeral of a double in a column of texts. It has fifteen digits at most, and zero has no
sign. -/
def writeStored (x : Double) : String :=
  if x.isZero then "0.0"
  else
    let digits := Layout.stored.writeScaled (x.magnitude.rounded 15)
    String.ofList (if x.negative then '-' :: digits else digits)

end Double

end GridDispatch
