import FileRoutes.Text.Blank
import FileRoutes.Text.Digit

/-! # Integers written in text

The form in which a setting gives a whole number (`parseInteger?`): blanks around it, a sign,
decimal digits of any script, and single underscores between digits. More than `digitLimit` digits
are refused, leading zeros counted. -/

namespace FileRoutes.Text

/-- The most digits that a written integer may have. -/
def digitLimit : Nat := 4300

/-- The values of digits that may have one underscore between neighbours. The flag says that an
underscore may stand here, which is so just behind a digit. -/
def digitValues? : (afterDigit : Bool) → List Char → Option (List Nat)
  | afterDigit, [] => if afterDigit then some [] else none
  | afterDigit, c :: rest =>
    if c = '_' then
      if afterDigit then digitValues? false rest else none
    else do
      let value ← digitValue? c
      let others ← digitValues? true rest
      return value :: others

/-- The number that unsigned digits write; `none` for another text or too many digits. -/
def parseUnsigned? (text : List Char) : Option Nat := do
  let digits ← digitValues? false text
  guard (digits.length ≤ digitLimit)
  return ofDigits digits

/-- The integer that a text writes, blanks at the ends aside. -/
def parseInteger? (text : List Char) : Option Int :=
  match trim text with
  | '-' :: rest => (parseUnsigned? rest).map fun value => -(value : Int)
  | '+' :: rest => (parseUnsigned? rest).map fun value => (value : Int)
  | rest => (parseUnsigned? rest).map fun value => (value : Int)

end FileRoutes.Text
