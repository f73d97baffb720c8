/-! # White space

Which characters are **blank** (`isBlank`), and what is built on that: cutting blanks off the ends
of a text (`trim`) and squeezing every run of them to one space (`collapse`). The list `words` of
maximal runs without blanks is the view under which two layouts of one text are the same. -/

namespace FileRoutes.Text

/-- A **blank** is a character of Unicode white space: the controls from tab to carriage return and
from the file separator to the unit separator, the space, the next-line control, the no-break
spaces, the typographic spaces and the two separators of lines and paragraphs. -/
def isBlank (c : Char) : Bool :=
  let code := c.toNat
  (0x09 ≤ code && code ≤ 0x0D) || (0x1C ≤ code && code ≤ 0x20) || code == 0x85 || code == 0xA0 ||
    code == 0x1680 || (0x2000 ≤ code && code ≤ 0x200A) || code == 0x2028 || code == 0x2029 ||
    code == 0x202F || code == 0x205F || code == 0x3000

/-- The text without the blanks in front. -/
def trimStart (text : List Char) : List Char :=
  text.dropWhile isBlank

/-- The text without the blanks at its end. -/
def trimEnd (text : List Char) : List Char :=
  (text.reverse.dropWhile isBlank).reverse

/-- The text without the blanks at either end. -/
def trim (text : List Char) : List Char :=
  trimEnd (trimStart text)

/-- A string without the blanks at either end. -/
def trimmed (text : String) : String :=
  String.ofList (trim text.toList)

/-- The text after a **non-empty** run of blanks; `none` when it does not begin with one. -/
def afterBlanks? : List Char → Option (List Char)
  | [] => none
  | c :: rest => if isBlank c then some (trimStart rest) else none

/-- Every maximal run of blanks becomes one space. The flag says that a blank was read last. -/
def squeeze : (afterBlank : Bool) → List Char → List Char
  | _, [] => []
  | afterBlank, c :: rest =>
    if isBlank c then
      if afterBlank then squeeze true rest else ' ' :: squeeze true rest
    else c :: squeeze false rest

/-- A text on one line: runs of blanks become single spaces, and none stays at the ends. -/
def collapse (text : List Char) : List Char :=
  trim (squeeze false text)

/-- Puts a character in front of the first word of a list. -/
def extendFirst (c : Char) : List (List Char) → List (List Char)
  | [] => [[c]]
  | word :: words => (c :: word) :: words

/-- The maximal runs without blanks, in order. -/
def words : List Char → List (List Char)
  | [] => []
  | [c] => if isBlank c then [] else [[c]]
  | c :: d :: rest =>
    if isBlank c then words (d :: rest)
    else if isBlank d then [c] :: words (d :: rest)
    else extendFirst c (words (d :: rest))

/-! ## The ends of a text -/

/-- Nothing is left to cut in front of an empty text. -/
@[simp] theorem trimStart_nil : trimStart [] = [] := rfl

/-- A blank in front is cut. -/
theorem trimStart_cons_of_blank {c : Char} (blank : isBlank c = true) (rest : List Char) :
    trimStart (c :: rest) = trimStart rest := by
  simp [trimStart, blank]

/-- A text that begins with another character keeps its beginning. -/
theorem trimStart_cons_of_not_blank {c : Char} (solid : isBlank c = false) (rest : List Char) :
    trimStart (c :: rest) = c :: rest := by
  simp [trimStart, solid]

/-- The empty text trims to itself. -/
@[simp] theorem trim_nil : trim [] = [] := rfl

end FileRoutes.Text
