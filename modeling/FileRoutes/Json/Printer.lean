import FileRoutes.Json.Basic
import FileRoutes.Text.Digit
import FileRoutes.Text.Quoted

/-! # Printing JSON

The layout of a JSON value in reports, in ASCII only (`Json.pretty`): one item or member a line,
indented by two spaces for each level. Empty lists and objects are written closed up. -/

namespace FileRoutes.Json

/-- A code unit of sixteen bits as a four-digit escape. -/
def unitEscape (unit : Nat) : List Char :=
  '\\' :: 'u' :: Text.hexDigits 4 unit

/-- One character inside a printed string. Characters that are neither visible ASCII nor a space
are escaped, those beyond sixteen bits as two surrogates. -/
def printedChar (c : Char) : List Char :=
  if c = '"' ∨ c = '\\' then ['\\', c]
  else if c = '\n' then ['\\', 'n']
  else if c = '\r' then ['\\', 'r']
  else if c = '\t' then ['\\', 't']
  else if c = '\x08' then ['\\', 'b']
  else if c = '\x0c' then ['\\', 'f']
  else if 0x20 ≤ c.toNat ∧ c.toNat ≤ 0x7E then [c]
  else if c.toNat < 0x10000 then unitEscape c.toNat
  else
    let offset := c.toNat - 0x10000
    unitEscape (0xD800 + offset / 0x400) ++ unitEscape (0xDC00 + offset % 0x400)

/-- A printed string, with its quotes. -/
def printedString (text : String) : List Char :=
  '"' :: text.toList.flatMap printedChar ++ ['"']

/-- An integer in decimal. -/
def printedInt (value : Int) : List Char :=
  match value with
  | .ofNat digits => Nat.toDigits 10 digits
  | .negSucc digits => '-' :: Nat.toDigits 10 (digits + 1)

/-- A number of units in decimal, with a point in front of the places that the units are of. -/
def printedUnits (places units : Nat) : List Char :=
  Nat.toDigits 10 (units / Text.powerOfTen places) ++
    '.' :: Text.decimalDigits places (units % Text.powerOfTen places)

/-- A number with a fraction in decimal. -/
def printedDecimal (units : Int) (places : Nat) : List Char :=
  match units with
  | .ofNat units => printedUnits (places + 1) units
  | .negSucc units => '-' :: printedUnits (places + 1) (units + 1)

/-- The start of a new line at a level of indentation. -/
def newLine (level : Nat) : List Char :=
  '\n' :: List.replicate (2 * level) ' '

mutual

/-- The layout with one item or member a line; the level is that of the line the value begins on. -/
def prettyChars (level : Nat) : Json → List Char
  | .null => ['n', 'u', 'l', 'l']
  | .bool true => ['t', 'r', 'u', 'e']
  | .bool false => ['f', 'a', 'l', 's', 'e']
  | .int value => printedInt value
  | .decimal units places => printedDecimal units places
  | .str text => printedString text
  | .arr [] => ['[', ']']
  | .arr (item :: items) =>
    '[' :: newLine (level + 1) ++ prettyChars (level + 1) item ++ prettyItems (level + 1) items ++
      newLine level ++ [']']
  | .obj [] => ['\x7b', '\x7d']
  | .obj ((key, value) :: members) =>
    '\x7b' :: newLine (level + 1) ++ printedString key ++ [':', ' '] ++
      prettyChars (level + 1) value ++ prettyMembers (level + 1) members ++
      newLine level ++ ['\x7d']

/-- The items of a list after the first one. -/
def prettyItems (level : Nat) : List Json → List Char
  | [] => []
  | item :: items => ',' :: newLine level ++ prettyChars level item ++ prettyItems level items

/-- The members of an object after the first one. -/
def prettyMembers (level : Nat) : List (String × Json) → List Char
  | [] => []
  | (key, value) :: members =>
    ',' :: newLine level ++ printedString key ++ [':', ' '] ++ prettyChars level value ++
      prettyMembers level members

end

/-- A value over several lines, with two spaces of indentation for each level. -/
def pretty (value : Json) : String :=
  String.ofList (prettyChars 0 value)

end FileRoutes.Json
