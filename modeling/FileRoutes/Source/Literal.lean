import FileRoutes.Source.Scanner
import FileRoutes.Text.Blank

/-! # String literals

Where a string literal ends (`literalEnd`), and which string it writes (`stringValue?`). A text is
read as a literal when its first and last characters are the same quote and every such quote in
between has a backslash in front. A backslash stands for the character behind it, and for itself
only in front of a line feed and at the end (`unescape`). -/

namespace FileRoutes.Source

/-- How many characters a literal takes behind its opening quote, the closing one included; `none`
when it is not closed. -/
def literalLength? : Mode → List Char → Option Nat
  | .code, _ => some 0
  | _, [] => none
  | mode, c :: rest => (literalLength? (mode.step c) rest).map (· + 1)

/-- The index behind the literal whose opening quote stands at an index, or the length of the text
when the literal is not closed. -/
def literalEnd (text : List Char) (start : Nat) : Nat :=
  match text.drop start with
  | [] => text.length
  | quote :: rest =>
    match literalLength? (.literal quote) rest with
    | some length => start + 1 + length
    | none => text.length

/-- Whether every quote of a kind has a backslash directly in front. The flag says that one stands
in front of the text. -/
def quotesEscaped (quote : Char) : (behindBackslash : Bool) → List Char → Bool
  | _, [] => true
  | behindBackslash, c :: rest =>
    (c != quote || behindBackslash) && quotesEscaped quote (c == '\\') rest

/-- The text between the quotes of a literal; `none` for a text that is no literal. -/
def literalBody? : List Char → Option (List Char)
  | [] => none
  | quote :: rest =>
    if isQuote quote && rest.getLast? == some quote && quotesEscaped quote false rest.dropLast then
      some rest.dropLast
    else none

/-- A text in which each backslash stands for the character behind it. -/
def unescape : List Char → List Char
  | [] => []
  | ['\\'] => ['\\']
  | '\\' :: '\n' :: rest => '\\' :: '\n' :: unescape rest
  | '\\' :: c :: rest => c :: unescape rest
  | c :: rest => c :: unescape rest

/-- The string that an expression writes; `none` when it is no string literal. -/
def stringValue? (expression : List Char) : Option (List Char) :=
  (literalBody? (Text.trim expression)).map unescape

end FileRoutes.Source
