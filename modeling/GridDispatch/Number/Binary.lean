/-!
# Binary numbers of limited precision

A `Binary` is a magnitude `mantissa * 2 ^ exponent`. `Precision.round` gives the one nearest to a
quotient, a tie going to the even mantissa; sums of such steps are exact arithmetic on natural
numbers. There is no greatest exponent here: a format that has one says so for itself.
-/

namespace GridDispatch

/-- A quotient to the nearest whole number, a half to the even one. -/
def roundDiv (num den : Nat) : Nat :=
  let q := num / den
  let r := num % den
  if 2 * r < den ∨ (2 * r = den ∧ q % 2 = 0) then q else q + 1

/-- A power with a whole exponent, as a quotient. -/
def powRatio (base : Nat) (k : Int) : Nat × Nat := (Nat.pow base k.toNat, Nat.pow base (-k).toNat)

/-- The greatest exponent of two whose power is not above a quotient. -/
def orderTwo (num den : Nat) : Int :=
  let k : Int := num.log2 - den.log2
  let (a, b) := powRatio 2 k
  if a * den ≤ num * b then k else k - 1

structure Binary where
  mantissa : Nat
  exponent : Int
  deriving DecidableEq, Repr

/-- The bits of a mantissa and the least exponent. -/
structure Precision where
  bits : Nat
  least : Int

/-- The precision of doubles. -/
def Precision.double : Precision := ⟨53, -1074⟩

/-- The precision of numbers of eighty bits, which have a mantissa of sixty-four. -/
def Precision.extended : Precision := ⟨64, -16445⟩

namespace Binary

/-- The magnitude as a quotient. -/
def ratio (x : Binary) : Nat × Nat :=
  let (a, b) := powRatio 2 x.exponent
  (x.mantissa * a, b)

def isBelow (x y : Binary) : Bool := x.ratio.1 * y.ratio.2 < y.ratio.1 * x.ratio.2

end Binary

namespace Precision

/-- The number nearest to a quotient. -/
def round (p : Precision) (num den : Nat) : Binary :=
  if num = 0 then ⟨0, p.least⟩
  else
    let e := max p.least (orderTwo num den + 1 - p.bits)
    let (a, b) := powRatio 2 e
    let m := roundDiv (num * b) (den * a)
    if m = Nat.pow 2 p.bits then ⟨Nat.pow 2 (p.bits - 1), e + 1⟩ else ⟨m, e⟩

def ofNat (p : Precision) (n : Nat) : Binary := p.round n 1

def mul (p : Precision) (x y : Binary) : Binary :=
  p.round (x.ratio.1 * y.ratio.1) (x.ratio.2 * y.ratio.2)

def div (p : Precision) (x y : Binary) : Binary :=
  p.round (x.ratio.1 * y.ratio.2) (x.ratio.2 * y.ratio.1)

/-- The number nearest to a power of ten. -/
def powTen (p : Precision) (k : Int) : Binary :=
  p.round (powRatio 10 k).1 (powRatio 10 k).2

end Precision

end GridDispatch
