import GridDispatch.Json.Basic
import GridDispatch.Number.Decimal

/-!
# Printing JSON

`Json.print` writes a value without blanks, the members of an object by name. Quotes, backslashes and
control characters are escaped, every other character stands for itself.
-/

namespace GridDispatch.Json

def hexDigit (n : Nat) : Char :=
  if n % 16 < 10 then Char.ofNat (48 + n % 16) else Char.ofNat (87 + n % 16)

/-- The letter that stands for a control character after a backslash. -/
def escapeLetter? (c : Char) : Option Char :=
  if c.toNat = 8 then some 'b'
  else if c.toNat = 9 then some 't'
  else if c.toNat = 10 then some 'n'
  else if c.toNat = 12 then some 'f'
  else if c.toNat = 13 then some 'r'
  else none

def escapeChar (c : Char) : List Char :=
  if c = '"' then ['\\', '"']
  else if c = '\\' then ['\\', '\\']
  else if c.toNat < 32 then
    match escapeLetter? c with
    | some letter => ['\\', letter]
    | none => ['\\', 'u', '0', '0', hexDigit (c.toNat / 16), hexDigit c.toNat]
  else [c]

def quote (s : String) : String :=
  "\"" ++ String.ofList (s.toList.flatMap escapeChar) ++ "\""

mutual

def print : Json → String
  | null => "null"
  | bool true => "true"
  | bool false => "false"
  | int n => Text.write n
  | real x => x.write
  | str s => quote s
  | arr items => "[" ++ ",".intercalate (printItems items) ++ "]"
  | obj members =>
    let byName := (printMembers members).mergeSort fun a b => decide (a.1 ≤ b.1)
    "\x7b" ++ ",".intercalate (byName.map fun m => quote m.1 ++ ":" ++ m.2) ++ "\x7d"

def printItems : List Json → List String
  | [] => []
  | v :: vs => print v :: printItems vs

/-- The members with their values written. -/
def printMembers : List (String × Json) → List (String × String)
  | [] => []
  | (k, v) :: ms => (k, print v) :: printMembers ms

end

end GridDispatch.Json
