import FileRoutes.Source.Literal

/-! # Blocks, lists and entries

The parts of an object or list literal in code: what stands between a brace and the bracket that
closes it (`blockBody?`), the parts between the commas at the top (`parts`), the key and the value
of a part (`splitEntry`), and the entries of an object, of which the first with a key counts
(`entries`). -/

namespace FileRoutes.Source

/-- The text between an opening brace, which must begin the text, and the bracket that closes it. -/
def blockBody? : List Char → Option (List Char)
  | '\x7b' :: rest => (cutAt? isCloser .start rest).map (·.1)
  | _ => none

/-- The **parts** of a body: the trimmed texts between commas at the top, blank ones left out. -/
def parts (body : List Char) : List (List Char) :=
  ((pieces (· == ',') .start body).map Text.trim).filter (!·.isEmpty)

/-- Whether a character is one of the quotes that a key may be written in. -/
def isKeyQuote (c : Char) : Bool :=
  c == '"' || c == '\''

/-- A key without the blanks around it and the quotes around that. -/
def bareKey (key : List Char) : List Char :=
  (((Text.trim key).dropWhile isKeyQuote).reverse.dropWhile isKeyQuote).reverse

/-- A part as a key and a value, cut at the first colon at the top. A part without one is a key
whose value is empty. -/
def splitEntry (part : List Char) : List Char × List Char :=
  match cutAt? (· == ':') .start part with
  | some (key, value) => (bareKey key, Text.trim value)
  | none => (bareKey part, [])

/-- What begins a part that spreads another object. -/
def spreadMark : List Char := ['.', '.', '.']

/-- The entry of a part; `none` for a spread and for an empty key. -/
def entry? (part : List Char) : Option (List Char × List Char) :=
  if spreadMark.isPrefixOf part then none
  else
    let entry := splitEntry part
    if entry.1.isEmpty then none else some entry

/-- The entries of a list whose keys do not occur before them. -/
def firstOfEachKey : (seen : List (List Char)) → List (List Char × List Char) →
    List (List Char × List Char)
  | _, [] => []
  | seen, entry :: rest =>
    if entry.1 ∈ seen then firstOfEachKey seen rest
    else entry :: firstOfEachKey (entry.1 :: seen) rest

/-- The **entries** of an object body, in order. -/
def entries (body : List Char) : List (List Char × List Char) :=
  firstOfEachKey [] ((parts body).filterMap entry?)

/-- The strings of a list literal, other items left out; `none` when the expression is not in square
brackets. -/
def stringList? (expression : List Char) : Option (List (List Char)) :=
  match Text.trim expression with
  | '[' :: rest =>
    if rest.getLast? = some ']' then some ((parts rest.dropLast).filterMap stringValue?) else none
  | _ => none

/-- The body of an object literal that an expression begins with. -/
def objectBody? (expression : List Char) : Option (List Char) :=
  blockBody? (Text.trim expression)

end FileRoutes.Source
