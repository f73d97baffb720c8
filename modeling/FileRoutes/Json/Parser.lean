import FileRoutes.Json.Basic
import FileRoutes.Text.Split

/-! # Reading JSON

`Json.parse?` reads a text that holds one JSON value and nothing else but spaces, tabs and line
ends. Strings may be escaped in any of the ways that JSON allows; a surrogate that has no partner
is refused, and so is a number with an exponent. -/

namespace FileRoutes.Json

/-- Whether a character may stand between the parts of a JSON text. -/
def isFiller (c : Char) : Bool :=
  c == ' ' || c == '\t' || c == '\n' || c == '\r'

/-- The text without the filler in front. -/
def skipFiller (text : List Char) : List Char :=
  text.dropWhile isFiller

/-- The value of a hexadecimal digit in either case. -/
def hexValue? (c : Char) : Option Nat :=
  if '0' ≤ c ∧ c ≤ '9' then some (c.toNat - 0x30)
  else if 'a' ≤ c ∧ c ≤ 'f' then some (c.toNat - 0x57)
  else if 'A' ≤ c ∧ c ≤ 'F' then some (c.toNat - 0x37)
  else none

/-- The value that four hexadecimal digits write. -/
def hexUnit? (a b c d : Char) : Option Nat := do
  let a ← hexValue? a
  let b ← hexValue? b
  let c ← hexValue? c
  let d ← hexValue? d
  return 0x1000 * a + 0x100 * b + 0x10 * c + d

/-- The code point of a character behind a backslash. -/
def shortEscape? : Char → Option Nat
  | '"' => some 0x22
  | '\\' => some 0x5C
  | '/' => some 0x2F
  | 'b' => some 0x08
  | 'f' => some 0x0C
  | 'n' => some 0x0A
  | 'r' => some 0x0D
  | 't' => some 0x09
  | _ => none

/-- The code points and surrogates of a string up to its closing quote, and the text behind it. -/
def readUnits? : List Char → Option (List Nat × List Char)
  | [] => none
  | '"' :: rest => some ([], rest)
  | '\\' :: 'u' :: a :: b :: c :: d :: rest => do
    let unit ← hexUnit? a b c d
    let (units, rest) ← readUnits? rest
    return (unit :: units, rest)
  | '\\' :: c :: rest => do
    let unit ← shortEscape? c
    let (units, rest) ← readUnits? rest
    return (unit :: units, rest)
  | c :: rest => do
    guard (0x20 ≤ c.toNat)
    let (units, rest) ← readUnits? rest
    return (c.toNat :: units, rest)

/-- The characters that code points write, two surrogates being one character. -/
def joinSurrogates? : List Nat → Option (List Char)
  | [] => some []
  | high :: rest =>
    if 0xD800 ≤ high ∧ high < 0xDC00 then
      match rest with
      | [] => none
      | low :: rest =>
        if 0xDC00 ≤ low ∧ low < 0xE000 then
          let code := 0x10000 + 0x400 * (high - 0xD800) + (low - 0xDC00)
          (joinSurrogates? rest).map (Char.ofNat code :: ·)
        else none
    else if 0xDC00 ≤ high ∧ high < 0xE000 then none
    else (joinSurrogates? rest).map (Char.ofNat high :: ·)

/-- A string behind its opening quote, and the text after it. -/
def readString? (text : List Char) : Option (String × List Char) := do
  let (units, rest) ← readUnits? text
  let chars ← joinSurrogates? units
  return (String.ofList chars, rest)

/-- The digits in front of a text, of which there must be one, and the text after them. -/
def readDigits? (text : List Char) : Option (List Char × List Char) := do
  let digits := text.takeWhile Char.isDigit
  guard !digits.isEmpty
  return (digits, text.dropWhile Char.isDigit)

/-- Whether an exponent begins a text. -/
def beginsExponent : List Char → Bool
  | 'e' :: _ => true
  | 'E' :: _ => true
  | _ => false

/-- A number behind its sign, and the text after it. -/
def readNumber? (sign : Int) (text : List Char) : Option (Json × List Char) := do
  let (whole, rest) ← readDigits? text
  match rest with
  | '.' :: rest =>
    let (fraction, rest) ← readDigits? rest
    guard !beginsExponent rest
    let units := Nat.ofDigitChars 10 (whole ++ fraction) 0
    return (.decimal (sign * units) (fraction.length - 1), rest)
  | rest =>
    guard !beginsExponent rest
    return (.int (sign * Nat.ofDigitChars 10 whole 0), rest)

mutual

/-- One value and the text after it. The depth bounds how far values may be nested. -/
def readValue? : (depth : Nat) → List Char → Option (Json × List Char)
  | 0, _ => none
  | depth + 1, text =>
    match skipFiller text with
    | 'n' :: rest => (Text.after? ['u', 'l', 'l'] rest).map (Json.null, ·)
    | 't' :: rest => (Text.after? ['r', 'u', 'e'] rest).map (Json.bool true, ·)
    | 'f' :: rest => (Text.after? ['a', 'l', 's', 'e'] rest).map (Json.bool false, ·)
    | '"' :: rest => (readString? rest).map fun (text, rest) => (.str text, rest)
    | '-' :: rest => readNumber? (-1) rest
    | '[' :: rest =>
      match skipFiller rest with
      | ']' :: rest => some (.arr [], rest)
      | rest => (readItems? depth rest).map fun (items, rest) => (.arr items, rest)
    | '\x7b' :: rest =>
      match skipFiller rest with
      | '\x7d' :: rest => some (.obj [], rest)
      | rest => (readMembers? depth rest).map fun (members, rest) => (.obj members, rest)
    | rest => readNumber? 1 rest

/-- The items of a list up to its closing bracket. -/
def readItems? : (depth : Nat) → List Char → Option (List Json × List Char)
  | 0, _ => none
  | depth + 1, text => do
    let (item, rest) ← readValue? depth text
    match skipFiller rest with
    | ',' :: rest => do
      let (items, rest) ← readItems? depth rest
      return (item :: items, rest)
    | ']' :: rest => return ([item], rest)
    | _ => none

/-- The members of an object up to its closing brace. -/
def readMembers? : (depth : Nat) → List Char → Option (List (String × Json) × List Char)
  | 0, _ => none
  | depth + 1, text => do
    match skipFiller text with
    | '"' :: rest => do
      let (key, rest) ← readString? rest
      match skipFiller rest with
      | ':' :: rest => do
        let (value, rest) ← readValue? depth rest
        match skipFiller rest with
        | ',' :: rest => do
          let (members, rest) ← readMembers? depth rest
          return ((key, value) :: members, rest)
        | '\x7d' :: rest => return ([(key, value)], rest)
        | _ => none
      | _ => none
    | _ => none

end

/-- The value that a text holds. Every step into a value reads a character, so the length of the
text bounds the depth. -/
def parse? (text : String) : Option Json := do
  let chars := text.toList
  let (value, rest) ← readValue? (2 * chars.length + 1) chars
  guard (skipFiller rest).isEmpty
  return value

end FileRoutes.Json
