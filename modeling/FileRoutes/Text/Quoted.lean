import FileRoutes.Text.Printable

/-! # Quoted display of a text

A message shows a text it did not choose, such as a path, **between quotes** (`quoted`): single
ones, or double ones when the text holds a single quote and no double one. Backslashes and the
quote in use are escaped, tab, line feed and carriage return have short escapes, and every other
character that is not printable is written by its code point in two, four or eight hexadecimal
digits. -/

namespace FileRoutes.Text

/-- The lower-case hexadecimal digit of a value below sixteen. -/
def hexDigit (value : Nat) : Char :=
  if value < 10 then Char.ofNat (0x30 + value) else Char.ofNat (0x57 + value)

/-- A number in hexadecimal, cut or filled up to a fixed count of digits. -/
def hexDigits : (count : Nat) → Nat → List Char
  | 0, _ => []
  | count + 1, value => hexDigits count (value / 16) ++ [hexDigit (value % 16)]

/-- One character of a quoted text. -/
def quotedChar (quote : Char) (c : Char) : List Char :=
  if c = '\\' ∨ c = quote then ['\\', c]
  else if c = '\t' then ['\\', 't']
  else if c = '\n' then ['\\', 'n']
  else if c = '\r' then ['\\', 'r']
  else if isPrintable c then [c]
  else if c.toNat < 0x100 then '\\' :: 'x' :: hexDigits 2 c.toNat
  else if c.toNat < 0x10000 then '\\' :: 'u' :: hexDigits 4 c.toNat
  else '\\' :: 'U' :: hexDigits 8 c.toNat

/-- The quote that a text is shown in: double when the text holds a single quote and no double
one, single otherwise. -/
def quoteFor (text : List Char) : Char :=
  if '\'' ∈ text ∧ '"' ∉ text then '"' else '\''

/-- A text as a message shows it. -/
def quoted (text : String) : String :=
  let quote := quoteFor text.toList
  String.ofList (quote :: text.toList.flatMap (quotedChar quote) ++ [quote])

end FileRoutes.Text
