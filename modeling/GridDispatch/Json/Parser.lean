import GridDispatch.Json.Basic
import GridDispatch.Text.Numeral

/-!
# Reading JSON

`Json.parse` reads a text that is one value. A text that is none is answered with a `ParseFault`:
what was wrong, and the line and column (in bytes) where reading stopped. A number is a whole
number when it has neither fraction nor exponent, is not `-0` and fits 64 bits, signed or unsigned;
any other is a double, read from a significand of 64 bits and a power of ten. Values nest no deeper
than `depthBound`.
-/

namespace GridDispatch.Json

open Text (isDigit)

/-- What can be wrong with a text. -/
inductive Flaw
  | endInValue
  | endInList
  | endInObject
  | endInString
  | noColon
  | noListEnd
  | noObjectEnd
  | noWord
  | noValue
  | badEscape
  | badNumber
  | numberTooLarge
  | controlCharacter
  | keyNotString
  | loneSurrogate
  | endOfEscape
  | trailingComma
  | trailingCharacters
  | tooDeep
  deriving DecidableEq, Repr

def Flaw.message : Flaw → String
  | endInValue => "EOF while parsing a value"
  | endInList => "EOF while parsing a list"
  | endInObject => "EOF while parsing an object"
  | endInString => "EOF while parsing a string"
  | noColon => "expected `:`"
  | noListEnd => "expected `,` or `]`"
  | noObjectEnd => "expected `,` or `\x7d`"
  | noWord => "expected ident"
  | noValue => "expected value"
  | badEscape => "invalid escape"
  | badNumber => "invalid number"
  | numberTooLarge => "number out of range"
  | controlCharacter => "control character (\\u0000-\\u001F) found while parsing a string"
  | keyNotString => "key must be a string"
  | loneSurrogate => "lone leading surrogate in hex escape"
  | endOfEscape => "unexpected end of hex escape"
  | trailingComma => "trailing comma"
  | trailingCharacters => "trailing characters"
  | tooDeep => "recursion limit exceeded"

structure ParseFault where
  flaw : Flaw
  line : Nat
  column : Nat
  deriving DecidableEq, Repr

def ParseFault.message (f : ParseFault) : String :=
  f.flaw.message ++ " at line " ++ Text.write f.line ++ " column " ++ Text.write f.column

/-- Where reading stopped: `bytes` bytes into `rest`. -/
structure Stop where
  flaw : Flaw
  rest : List Char
  bytes : Nat

/-- A value read off the front of the characters, and the characters after it. -/
abbrev Reading (α : Type) := Except Stop (α × List Char)

def stopBefore {α : Type} (flaw : Flaw) (rest : List Char) : Reading α := .error ⟨flaw, rest, 0⟩

/-- Stops at the first character of `rest`. One byte of it was seen, if there is one. -/
def stopAt {α : Type} (flaw : Flaw) (rest : List Char) : Reading α := .error ⟨flaw, rest, 1⟩

def isSpace (c : Char) : Bool := c == ' ' || c == '\n' || c == '\t' || c == '\r'

def skipSpace (cs : List Char) : List Char := cs.dropWhile isSpace

/-- Takes the characters of a word that has begun. -/
def word (value : Json) : List Char → List Char → Reading Json
  | [], cs => .ok (value, cs)
  | _ :: _, [] => stopBefore .endInValue []
  | w :: ws, c :: cs => if c = w then word value ws cs else stopAt .noWord (c :: cs)

def hexValue? (c : Char) : Option Nat :=
  let n := c.toNat
  if 48 ≤ n ∧ n ≤ 57 then some (n - 48)
  else if 65 ≤ n ∧ n ≤ 70 then some (n - 55)
  else if 97 ≤ n ∧ n ≤ 102 then some (n - 87)
  else none

/-- How many bytes a character takes up in a text. -/
def width (cs : List Char) : Nat := cs.foldl (fun n c => n + c.utf8Size) 0

/-- The number of four hexadecimal digits; four bytes are taken for them, whatever they are. -/
def hexQuad (cs : List Char) : Reading Nat :=
  match cs.take 4 |>.mapM hexValue? with
  | some [a, b, c, d] => .ok (((a * 16 + b) * 16 + c) * 16 + d, cs.drop 4)
  | _ => if width cs < 4 then stopBefore .endInString [] else .error ⟨.badEscape, cs, 4⟩

/-- The second half of a surrogate pair whose first half is `high`. -/
def lowSurrogate (high : Nat) : List Char → Reading Char
  | [] => stopBefore .endInString []
  | '\\' :: [] => stopBefore .endInString []
  | '\\' :: 'u' :: rest => (hexQuad rest).bind fun (low, rest) =>
    if 0xDC00 ≤ low ∧ low ≤ 0xDFFF then
      .ok (Char.ofNat (0x10000 + (high - 0xD800) * 0x400 + (low - 0xDC00)), rest)
    else stopBefore .loneSurrogate rest
  | '\\' :: rest => stopAt .endOfEscape rest
  | rest => stopAt .endOfEscape rest

/-- The character of an escape, after its backslash. -/
def unescape : List Char → Reading Char
  | [] => stopBefore .endInString []
  | '"' :: rest => .ok ('"', rest)
  | '\\' :: rest => .ok ('\\', rest)
  | '/' :: rest => .ok ('/', rest)
  | 'b' :: rest => .ok (Char.ofNat 8, rest)
  | 'f' :: rest => .ok (Char.ofNat 12, rest)
  | 'n' :: rest => .ok ('\n', rest)
  | 'r' :: rest => .ok ('\r', rest)
  | 't' :: rest => .ok ('\t', rest)
  | 'u' :: rest => (hexQuad rest).bind fun (n, rest) =>
    if 0xDC00 ≤ n ∧ n ≤ 0xDFFF then stopBefore .loneSurrogate rest
    else if 0xD800 ≤ n ∧ n ≤ 0xDBFF then lowSurrogate n rest
    else .ok (Char.ofNat n, rest)
  | rest => stopAt .badEscape rest

/-- The characters of a string up to its closing quote, collected in `taken`, the last first. -/
def stringBody : Nat → List Char → List Char → Reading String
  | 0, _, _ => stopBefore .endInString []
  | _ + 1, _, [] => stopBefore .endInString []
  | fuel + 1, taken, c :: rest =>
    if c = '"' then .ok (String.ofList taken.reverse, rest)
    else if c = '\\' then (unescape rest).bind fun (c, rest) =>
      stringBody fuel (c :: taken) rest
    else if c.toNat < 32 then stopBefore .controlCharacter rest
    else stringBody fuel (c :: taken) rest

/-- Appends digits to the number `n` as long as it stays below `bound`; gives also how many they
were, and the characters after them. -/
def appendDigits (bound n count : Nat) : List Char → Nat × Nat × List Char
  | [] => (n, count, [])
  | c :: cs =>
    match Text.digit? c with
    | none => (n, count, c :: cs)
    | some d =>
      if n * 10 + d < bound then appendDigits bound (n * 10 + d) (count + 1) cs
      else (n, count, c :: cs)

/-- A significand is below this. -/
def significandBound : Nat := 18446744073709551616

/-- An exponent is below this. -/
def exponentBound : Nat := 2147483648

def realNumber (negative : Bool) (significand : Nat) (exponent : Int) (rest : List Char) :
    Reading Json :=
  match Double.scaled? negative significand exponent with
  | none => stopBefore .numberTooLarge rest
  | some x => .ok (real x, rest)

/-- The exponent of a number, after its `e`. One that grows too large makes the number zero, or is a
flaw at the digit that it outgrows. -/
def exponentPart (negative : Bool) (significand : Nat) (exponent : Int) (cs : List Char) :
    Reading Json :=
  let (down, cs) := match cs with
    | '+' :: cs => (false, cs)
    | '-' :: cs => (true, cs)
    | cs => (false, cs)
  match cs with
  | [] => stopBefore .endInValue []
  | c :: _ =>
    if isDigit c then
      let (size, _, rest) := appendDigits exponentBound 0 0 cs
      match rest with
      | c :: after =>
        if isDigit c then
          if significand ≠ 0 ∧ !down then stopBefore .numberTooLarge after
          else .ok (real (.ofNat negative 0), rest.dropWhile isDigit)
        else realNumber negative significand (if down then exponent - size else exponent + size) rest
      | [] => realNumber negative significand (if down then exponent - size else exponent + size) []
    else stopAt .badNumber cs

/-- A number after the digits of its significand. -/
def scalePart (negative : Bool) (significand : Nat) (exponent : Int) : List Char → Reading Json
  | 'e' :: rest => exponentPart negative significand exponent rest
  | 'E' :: rest => exponentPart negative significand exponent rest
  | rest => realNumber negative significand exponent rest

/-- The fraction of a number, after its point. Digits that the significand has no room for are
passed over. -/
def fractionPart (negative : Bool) (significand : Nat) (exponent : Int) (cs : List Char) :
    Reading Json :=
  match cs with
  | [] => stopBefore .endInValue []
  | c :: _ =>
    if isDigit c then
      let (significand, count, rest) := appendDigits significandBound significand 0 cs
      scalePart negative significand (exponent - count) (rest.dropWhile isDigit)
    else stopAt .badNumber cs

/-- A number without fraction and exponent, whose significand has room for all its digits. -/
def wholeNumber (negative : Bool) (significand : Nat) : Json :=
  if negative then
    if significand ≠ 0 ∧ Text.Range.signed.lo ≤ -(significand : Int) then int (-significand)
    else real (.ofNat true significand)
  else int significand

/-- A number, after its sign. A leading zero stands alone. Each digit of the whole part that the
significand has no room for raises the exponent. -/
def number (negative : Bool) (cs : List Char) : Reading Json :=
  match cs with
  | [] => stopBefore .endInValue []
  | c :: rest =>
    if !isDigit c then stopAt .badNumber cs
    else if c = '0' ∧ rest.head?.any isDigit then stopAt .badNumber rest
    else
      let (significand, _, rest) := appendDigits significandBound 0 0 cs
      let long := rest.takeWhile isDigit
      match rest.dropWhile isDigit with
      | '.' :: rest => fractionPart negative significand long.length rest
      | rest =>
        if long.isEmpty ∧ rest.head?.all (fun c => c ≠ 'e' ∧ c ≠ 'E') then
          .ok (wholeNumber negative significand, rest)
        else scalePart negative significand long.length rest

mutual

/-- A value that may hold containers `depth` deep. -/
def value : Nat → Nat → List Char → Reading Json
  | 0, _, _ => stopBefore .endInValue []
  | fuel + 1, depth, cs =>
    match skipSpace cs with
    | [] => stopAt .endInValue []
    | 'n' :: rest => word null ['u', 'l', 'l'] rest
    | 't' :: rest => word (bool true) ['r', 'u', 'e'] rest
    | 'f' :: rest => word (bool false) ['a', 'l', 's', 'e'] rest
    | '"' :: rest => (stringBody (rest.length + 1) [] rest).map fun (s, rest) => (str s, rest)
    | '-' :: rest => number true rest
    | '[' :: rest =>
      if depth = 0 then stopAt .tooDeep ('[' :: rest)
      else itemsOf fuel (depth - 1) [] rest
    | '\x7b' :: rest =>
      if depth = 0 then stopAt .tooDeep ('\x7b' :: rest)
      else membersOf fuel (depth - 1) [] rest
    | c :: rest => if isDigit c then number false (c :: rest) else stopAt .noValue (c :: rest)

/-- The items of a list up to its bracket, after those in `taken`, the last first. -/
def itemsOf : Nat → Nat → List Json → List Char → Reading Json
  | 0, _, _, _ => stopBefore .endInValue []
  | fuel + 1, depth, taken, cs =>
    match skipSpace cs with
    | [] => stopAt .endInList []
    | ']' :: rest => .ok (arr taken.reverse, rest)
    | c :: rest =>
      if taken.isEmpty then (value fuel depth (c :: rest)).bind fun (v, rest) =>
        itemsOf fuel depth [v] rest
      else if c = ',' then
        match skipSpace rest with
        | [] => stopAt .endInValue []
        | ']' :: rest => stopAt .trailingComma (']' :: rest)
        | rest => (value fuel depth rest).bind fun (v, rest) =>
          itemsOf fuel depth (v :: taken) rest
      else stopAt .noListEnd (c :: rest)

/-- The members of an object up to its brace, after those in `taken`. -/
def membersOf : Nat → Nat → List (String × Json) → List Char → Reading Json
  | 0, _, _, _ => stopBefore .endInValue []
  | fuel + 1, depth, taken, cs =>
    match skipSpace cs with
    | [] => stopAt .endInObject []
    | '\x7d' :: rest => .ok (obj taken, rest)
    | '"' :: rest =>
      if taken.isEmpty then memberOf fuel depth taken rest else stopAt .noObjectEnd ('"' :: rest)
    | c :: rest =>
      if taken.isEmpty then stopAt .keyNotString (c :: rest)
      else if c = ',' then
        match skipSpace rest with
        | [] => stopAt .endInValue []
        | '"' :: rest => memberOf fuel depth taken rest
        | '\x7d' :: rest => stopAt .trailingComma ('\x7d' :: rest)
        | rest => stopAt .keyNotString rest
      else stopAt .noObjectEnd (c :: rest)

/-- A member, after the quote that opens its name, and the members after it. -/
def memberOf : Nat → Nat → List (String × Json) → List Char → Reading Json
  | 0, _, _, _ => stopBefore .endInValue []
  | fuel + 1, depth, taken, cs => (stringBody (cs.length + 1) [] cs).bind fun (key, rest) =>
    match skipSpace rest with
    | [] => stopAt .endInObject []
    | ':' :: rest => (value fuel depth rest).bind fun (v, rest) =>
      membersOf fuel depth (put key v taken) rest
    | rest => stopAt .noColon rest

end

/-- For each byte of a text whether it is a line feed. -/
def lineFeeds (cs : List Char) : List Bool :=
  cs.flatMap fun c => (c == '\n') :: List.replicate (c.utf8Size - 1) false

/-- Line and column of a stop within a text. -/
def Stop.locate (stop : Stop) (cs : List Char) : ParseFault :=
  let taken := (lineFeeds cs).take (width cs - width stop.rest + stop.bytes)
  ⟨stop.flaw, 1 + taken.count true, (taken.reverse.takeWhile (!·)).length⟩

/-- Containers nest no deeper than this in a text that is read. -/
def depthBound : Nat := 127

/-- Reads a text that is one value. -/
def parse (s : String) : Except ParseFault Json :=
  let cs := s.toList
  match value (2 * cs.length + 2) depthBound cs with
  | .error stop => .error (stop.locate cs)
  | .ok (v, rest) =>
    match skipSpace rest with
    | [] => .ok v
    | rest => .error (Stop.locate ⟨.trailingCharacters, rest, 1⟩ cs)

/-! ## Brackets that nest too deep -/

theorem skipSpace_bracket (cs : List Char) : skipSpace ('[' :: cs) = '[' :: cs := rfl

/-- A list that begins with a list is read as far as that one is. -/
theorem value_brackets (fuel depth : Nat) (cs : List Char) :
    value (fuel + 2) (depth + 1) ('[' :: '[' :: cs) =
      (value fuel depth ('[' :: cs)).bind fun (v, rest) => itemsOf fuel depth [v] rest := by
  rw [value, skipSpace_bracket]
  simp only [Nat.add_one_ne_zero, if_false, Nat.add_sub_cancel]
  rw [itemsOf, skipSpace_bracket]
  rfl

/-- One bracket more than there may be is one too many. -/
theorem value_of_brackets (depth : Nat) (rest : List Char) :
    ∀ fuel, 2 * depth < fuel → value fuel depth (List.replicate depth '[' ++ '[' :: rest) =
      stopAt .tooDeep ('[' :: rest) := by
  induction depth with
  | zero =>
    intro fuel hfuel
    obtain ⟨fuel, rfl⟩ := Nat.exists_eq_add_one.2 hfuel
    rw [List.replicate_zero, List.nil_append, value, skipSpace_bracket]
    rfl
  | succ depth ih =>
    intro fuel hfuel
    obtain ⟨fuel, rfl⟩ : ∃ k, fuel = k + 2 := ⟨fuel - 2, by omega⟩
    have hinner := ih fuel (by omega)
    -- what follows the first bracket begins with a bracket, too
    obtain ⟨cs, hcs⟩ : ∃ cs, List.replicate depth '[' ++ '[' :: rest = '[' :: cs := by
      cases depth with
      | zero => exact ⟨rest, rfl⟩
      | succ depth => exact ⟨_, rfl⟩
    rw [hcs] at hinner
    rw [List.replicate_succ, List.cons_append, hcs, value_brackets, hinner]
    rfl

/-- A text that opens more lists within one another than may nest is refused at the first of them that
is too many. -/
theorem parse_of_brackets {s : String} {rest : List Char}
    (h : s.toList = List.replicate depthBound '[' ++ '[' :: rest) :
    parse s = .error (Stop.locate ⟨.tooDeep, '[' :: rest, 1⟩ s.toList) := by
  have hlength : depthBound < s.toList.length := by
    rw [h, List.length_append, List.length_replicate, List.length_cons]
    omega
  have hvalue : value (2 * s.toList.length + 2) depthBound s.toList =
      stopAt .tooDeep ('[' :: rest) := by
    have hbrackets := value_of_brackets depthBound rest (2 * s.toList.length + 2) (by omega)
    rwa [← h] at hbrackets
  rw [parse, hvalue]
  rfl

end GridDispatch.Json
