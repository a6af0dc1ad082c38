import GridDispatch.Number.Binary

/-!
# Doubles

A `Double` is a signed magnitude in double precision; zero has a sign too. `Double.scaled?` makes one
of a significand and a power of ten, the way numbers are read here: by one multiplication or
division of doubles for each power that is at most `10 ^ 308`. The result is not always the double
nearest to the number that was written.
-/

namespace GridDispatch

structure Double where
  negative : Bool
  magnitude : Binary
  deriving DecidableEq, Repr

namespace Double

/-- The greatest exponent of a double. -/
def topExponent : Int := 971

/-- The greatest power of ten that a number is scaled by at once. -/
def topScale : Nat := 308

def isZero (x : Double) : Bool := x.magnitude.mantissa = 0

def ofNat (negative : Bool) (n : Nat) : Double := ⟨negative, Precision.double.ofNat n⟩

def neg (x : Double) : Double := { x with negative := !x.negative }

/-- The magnitude of the greatest double. -/
def greatest : Binary := ⟨Nat.pow 2 53 - 1, topExponent⟩

/-- All that is out of the reach of doubles is held just beyond it. -/
def beyond : Binary := ⟨Nat.pow 2 52, topExponent + 1⟩

/-- The double nearest to a number. A number above the greatest double is out of reach, however near
it is. -/
def nearest (negative : Bool) (x : Binary) : Double :=
  ⟨negative, if greatest.isBelow x then beyond else Precision.double.round x.ratio.1 x.ratio.2⟩

/-- A magnitude times a power of ten, if doubles reach as far. -/
def scale? (x : Binary) (k : Int) : Option Binary :=
  if x.mantissa = 0 then some x
  else if (topScale : Int) < k then none
  else if 0 ≤ k then
    let y := Precision.double.mul x (Precision.double.powTen k)
    if y.exponent ≤ topExponent then some y else none
  else if -(topScale : Int) ≤ k then
    some (Precision.double.div x (Precision.double.powTen (-k)))
  else
    scale? (Precision.double.div x (Precision.double.powTen topScale)) (k + topScale)
termination_by (-k).toNat
decreasing_by simp only [topScale] at *; omega

/-- The double that is read from a significand and a power of ten. -/
def scaled? (negative : Bool) (significand : Nat) (k : Int) : Option Double :=
  (scale? (Precision.double.ofNat significand) k).map fun x => ⟨negative, x⟩

/-- The double as a quotient. -/
def ratio (x : Double) : Int × Nat :=
  let (num, den) := x.magnitude.ratio
  (if x.negative then -num else num, den)

/-- The whole number that a double is. -/
def whole? (x : Double) : Option Int :=
  let (num, den) := x.ratio
  if num % den = 0 then some (num / den) else none

/-- Compares with a whole number, exactly. -/
def orderInt (x : Double) (n : Int) : Ordering :=
  compare x.ratio.1 (n * x.ratio.2)

/-- Compares by size; the zeros are equal. -/
def order (x y : Double) : Ordering :=
  compare (x.ratio.1 * y.ratio.2) (y.ratio.1 * x.ratio.2)

end Double

end GridDispatch
