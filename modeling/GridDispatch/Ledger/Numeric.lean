import GridDispatch.Number.Double
import GridDispatch.Text.Numeral

/-!
# Numbers in columns

A column of numbers holds whole numbers of 64 bits and doubles. `Numeric.ofText?` is the number that
a text stands for, and `Numeric.leading` the one that it begins with. Between blanks such a text has
a sign, digits with a point among them, and an exponent; a number that has neither point nor
exponent is exact as long as it fits.
-/

namespace GridDispatch

inductive Numeric
  | whole (n : Int)
  | double (x : Double)
  deriving DecidableEq, Repr

/-- The parts of a number at the front of a text, and whether anything comes after them. -/
structure NumeralParts where
  negative : Bool
  digits : List Char
  fraction : Option (List Char)
  /-- The sign and the digits after an `e`. -/
  exponent : Option (Bool × List Char)
  ended : Bool

namespace NumeralParts

open Text (isDigit)

def isBlank (c : Char) : Bool := c = ' ' ∨ (9 ≤ c.toNat ∧ c.toNat ≤ 13)

/-- A sign, and the characters after it. -/
def sign : List Char → Bool × List Char
  | '-' :: cs => (true, cs)
  | '+' :: cs => (false, cs)
  | cs => (false, cs)

def ofChars (cs : List Char) : NumeralParts :=
  let (negative, cs) := sign (cs.dropWhile isBlank)
  let digits := cs.takeWhile isDigit
  let (fraction, cs) := match cs.dropWhile isDigit with
    | '.' :: cs => (some (cs.takeWhile isDigit), cs.dropWhile isDigit)
    | cs => (none, cs)
  let (exponent, cs) := match cs with
    | c :: cs' =>
      if c = 'e' ∨ c = 'E' then
        let (down, ds) := sign cs'
        (some (down, ds.takeWhile isDigit), ds.dropWhile isDigit)
      else (none, cs)
    | [] => (none, [])
  ⟨negative, digits, fraction, exponent, (cs.dropWhile isBlank).isEmpty⟩

def value (ds : List Char) : Nat :=
  ds.foldl (fun n c => n * 10 + (Text.digit? c).getD 0) 0

/-- Digits are appended to a significand that is below this. -/
def significandBound : Nat := 1844674407370955160

/-- Digits are appended to an exponent that is below this. -/
def exponentBound : Nat := 10000

/-- Appends digits to `n` while it is below the bound; gives also how many were left over. -/
def appendDigits : Nat → List Char → Nat × Nat
  | n, [] => (n, 0)
  | n, c :: cs =>
    if n < significandBound then appendDigits (n * 10 + (Text.digit? c).getD 0) cs
    else (n, cs.length + 1)

/-- The size of an exponent. A digit too many makes it the bound. -/
def exponentSize (ds : List Char) : Nat :=
  ds.foldl (fun n c =>
    if n < exponentBound then n * 10 + (Text.digit? c).getD 0 else exponentBound) 0

/-- Moves tens from the exponent into the significand while there is room, or out of it while it ends
in zeros. No significand has more than twenty digits, so twenty steps are enough. -/
def settle : Nat → Nat → Int → Nat × Int
  | 0, n, k => (n, k)
  | fuel + 1, n, k =>
    if 0 < k ∧ n ≤ significandBound then settle fuel (n * 10) (k - 1)
    else if k < 0 ∧ n % 10 = 0 then settle fuel (n / 10) (k + 1)
    else (n, k)

/-- A number times `10 ^ (step * times)`, rounded after each step. -/
def climb (step : Int) (times : Nat) (x : Binary) : Binary :=
  let p := Precision.extended
  times.repeat (fun x => p.mul x (p.powTen step)) x

/-- A number times a power of ten, by hundreds, tens and ones of the exponent. -/
def scale (x : Binary) (k : Int) : Binary :=
  let unit : Int := if k < 0 then -1 else 1
  let n := k.natAbs
  climb unit (n % 10) (climb (10 * unit) (n % 100 / 10) (climb (100 * unit) (n / 100) x))

/-- The double of a number. It is first computed with a mantissa of 64 bits. -/
def double (p : NumeralParts) : Double :=
  let fraction := p.fraction.getD []
  let (n, more) := appendDigits 0 p.digits
  let (n, less) := appendDigits n fraction
  let size : Int := match p.exponent with
    | some (down, ds) => (if down then -1 else 1) * (exponentSize ds : Nat)
    | none => 0
  if n = 0 then .ofNat p.negative 0
  else
    let (n, k) := settle 20 n (size + more - (fraction.length - less : Nat))
    if k = 0 then .ofNat p.negative n
    else .nearest p.negative (scale (Precision.extended.ofNat n) k)

/-- The digits as a whole number. -/
def whole (p : NumeralParts) : Int := if p.negative then -value p.digits else value p.digits

def hasDigit (p : NumeralParts) : Bool := !(p.digits.isEmpty && (p.fraction.getD []).isEmpty)

/-- Whether there are digits after the `e`, if there is one. -/
def exponentFilled (p : NumeralParts) : Bool := p.exponent.all fun e => !e.2.isEmpty

end NumeralParts

namespace Numeric

/-- A double that is a whole number well within 64 bits becomes one. -/
def ofDouble (x : Double) : Numeric :=
  match x.whole? with
  | some n => if Text.Range.signed.lo < n ∧ n < Text.Range.signed.hi then whole n else double x
  | none => double x

/-- The number that a text stands for. -/
def ofText? (s : String) : Option Numeric :=
  let p := NumeralParts.ofChars s.toList
  if p.ended ∧ p.hasDigit ∧ p.exponentFilled then
    if p.fraction.isNone ∧ p.exponent.isNone ∧ Text.Range.signed.has p.whole then
      some (whole p.whole)
    else some (ofDouble p.double)
  else none

/-- The number that a text begins with, zero if it begins with none. -/
def leading (s : String) : Numeric :=
  let p := NumeralParts.ofChars s.toList
  if !p.hasDigit then whole 0
  else if (p.fraction.isNone ∧ (p.exponent.isNone ∨ !p.exponentFilled)) ∧
      Text.Range.signed.has p.whole then whole p.whole
  else double p.double

end Numeric

end GridDispatch
