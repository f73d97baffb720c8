/-! # Reading code by its brackets and literals

Code is read character by character with a **scanner** (`Scanner`), which knows whether the next
character belongs to a string literal and how many brackets are open. A backslash in a literal
takes the next character along. A character **at the top** (`Scanner.atTop`) is neither in a literal
nor in brackets, and code is cut at such characters: once (`cutAt?`) or everywhere (`pieces`). -/

namespace FileRoutes.Source

/-- Where the next character stands. -/
inductive Mode where
  /-- In code. -/
  | code
  /-- In a string literal with a given quote. -/
  | literal (quote : Char)
  /-- Behind a backslash in a string literal. -/
  | escaped (quote : Char)
  deriving DecidableEq, Repr

/-- The quotes of string literals: double and single quotes and the backquote. -/
def isQuote (c : Char) : Bool :=
  c == '"' || c == '\'' || c == '\x60'

/-- The brackets that open a group. -/
def isOpener (c : Char) : Bool :=
  c == '\x7b' || c == '[' || c == '('

/-- The brackets that close a group. Any of them closes any group. -/
def isCloser (c : Char) : Bool :=
  c == '\x7d' || c == ']' || c == ')'

/-- Where the character after the next one stands. -/
def Mode.step : Mode → Char → Mode
  | .code, c => if isQuote c then .literal c else .code
  | .literal quote, c =>
    if c = '\\' then .escaped quote else if c = quote then .code else .literal quote
  | .escaped quote, _ => .literal quote

/-- The state of reading code. -/
structure Scanner where
  /-- Where the next character stands. -/
  mode : Mode
  /-- How many brackets were opened and not closed; below zero when more were closed. -/
  depth : Int
  deriving DecidableEq, Repr

namespace Scanner

/-- The state in front of the first character. -/
def start : Scanner := ⟨.code, 0⟩

/-- The state after one more character. -/
def step (scanner : Scanner) (c : Char) : Scanner :=
  { mode := scanner.mode.step c
    depth :=
      if scanner.mode ≠ .code then scanner.depth
      else if isOpener c then scanner.depth + 1
      else if isCloser c then scanner.depth - 1
      else scanner.depth }

/-- Whether the next character stands **at the top**, in no literal and in no brackets. -/
def atTop (scanner : Scanner) : Bool :=
  scanner.mode = .code && scanner.depth = 0

/-- The state after a text. -/
def run (scanner : Scanner) (text : List Char) : Scanner :=
  text.foldl step scanner

/-- No text leaves the state as it is. -/
@[simp] theorem run_nil (scanner : Scanner) : scanner.run [] = scanner := rfl

/-- A text is read from its first character on. -/
@[simp] theorem run_cons (scanner : Scanner) (c : Char) (rest : List Char) :
    scanner.run (c :: rest) = (scanner.step c).run rest := rfl

/-- Two texts are read one after the other. -/
theorem run_append (scanner : Scanner) (text rest : List Char) :
    scanner.run (text ++ rest) = (scanner.run text).run rest := by
  simp [run, List.foldl_append]

end Scanner

/-! ## Cutting at the top -/

/-- Cuts a text at the first character at the top that is asked for, which belongs to neither
side. -/
def cutAt? (stop : Char → Bool) : Scanner → List Char → Option (List Char × List Char)
  | _, [] => none
  | scanner, c :: rest =>
    if scanner.atTop && stop c then some ([], rest)
    else (cutAt? stop (scanner.step c) rest).map fun (front, back) => (c :: front, back)

/-- The **pieces** of a text between the characters at the top that are asked for. -/
def pieces (stop : Char → Bool) : Scanner → List Char → List (List Char)
  | _, [] => [[]]
  | scanner, c :: rest =>
    if scanner.atTop && stop c then [] :: pieces stop scanner rest
    else match pieces stop (scanner.step c) rest with
      | [] => [[c]]
      | piece :: others => (c :: piece) :: others

end FileRoutes.Source
