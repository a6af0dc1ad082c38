/-!
# Decimal numerals

Whole numbers written in decimal, read into a range. `Range.read` takes an optional sign and
digits and says which character is at fault: at each character it asks first whether it is a
digit, then whether the number still fits. `write` is the shortest numeral of a number.
-/

namespace GridDispatch.Text

/-- A range of whole numbers, both ends in it. -/
structure Range where
  lo : Int
  hi : Int
  deriving DecidableEq, Repr

/-- The signed 64-bit numbers. -/
def Range.signed : Range := ⟨-9223372036854775808, 9223372036854775807⟩

/-- The unsigned 64-bit numbers. -/
def Range.unsigned : Range := ⟨0, 18446744073709551615⟩

def Range.has (r : Range) (n : Int) : Bool := decide (r.lo ≤ n ∧ n ≤ r.hi)

/-- Why a text is no numeral of a range. -/
inductive NumeralFault
  | empty
  | notDigit
  | tooLarge
  | tooSmall
  deriving DecidableEq, Repr

def NumeralFault.message : NumeralFault → String
  | .empty => "cannot parse integer from empty string"
  | .notDigit => "invalid digit found in string"
  | .tooLarge => "number too large to fit in target type"
  | .tooSmall => "number too small to fit in target type"

/-- The value of an ASCII digit. -/
def digit? (c : Char) : Option Nat :=
  if 48 ≤ c.toNat ∧ c.toNat ≤ 57 then some (c.toNat - 48) else none

def isDigit (c : Char) : Bool := (digit? c).isSome

/-- Digits appended to the number `n`, which must not grow above `r.hi`. -/
def Range.up (r : Range) (n : Int) : List Char → Except NumeralFault Int
  | [] => .ok n
  | c :: cs =>
    match digit? c with
    | none => .error .notDigit
    | some d => if n * 10 + d ≤ r.hi then r.up (n * 10 + d) cs else .error .tooLarge

/-- Digits appended below the number `n`, which must not fall below `r.lo`. -/
def Range.down (r : Range) (n : Int) : List Char → Except NumeralFault Int
  | [] => .ok n
  | c :: cs =>
    match digit? c with
    | none => .error .notDigit
    | some d => if r.lo ≤ n * 10 - d then r.down (n * 10 - d) cs else .error .tooSmall

/-- Reads a numeral. A minus sign is one only in a range that holds negative numbers, and a sign
needs a digit after it. -/
def Range.readChars (r : Range) : List Char → Except NumeralFault Int
  | [] => .error .empty
  | ['+'] => .error .notDigit
  | ['-'] => .error .notDigit
  | '+' :: cs => r.up 0 cs
  | '-' :: cs => if r.lo < 0 then r.down 0 cs else .error .notDigit
  | cs => r.up 0 cs

def Range.read (r : Range) (s : String) : Except NumeralFault Int :=
  r.readChars s.toList

/-- The character of a digit. -/
def digitChar (d : Nat) : Char := Char.ofNat (48 + d % 10)

/-- The digits of a natural number, the highest first and no leading zero. -/
def digits (n : Nat) : List Char :=
  if n < 10 then [digitChar n] else digits (n / 10) ++ [digitChar n]
termination_by n

/-- The numeral of a whole number. -/
def writeChars : Int → List Char
  | .ofNat n => digits n
  | .negSucc n => '-' :: digits (n + 1)

def write (n : Int) : String := String.ofList (writeChars n)

theorem digit?_digitChar {d : Nat} (h : d < 10) : digit? (digitChar d) = some d := by
  have hall : ∀ d, d < 10 → digit? (digitChar d) = some d := by decide
  exact hall d h

theorem digitChar_mod (n : Nat) : digitChar (n % 10) = digitChar n := by
  simp [digitChar]

theorem digit?_digitChar_mod (n : Nat) : digit? (digitChar n) = some (n % 10) := by
  rw [← digitChar_mod, digit?_digitChar (Nat.mod_lt _ (by decide))]

end GridDispatch.Text
