import FileRoutes.Export.Basic
import FileRoutes.Text.Blank
import FileRoutes.Text.Split
import FileRoutes.Text.Word

/-! # Finding exports

Four passes over the text of a route file find its exports (`exportsIn`): constants, functions, the
default export, and lists of re-exported names. The text is searched as it stands, without regard
to comments or strings. A pass goes through the text from left to right, and goes on behind the end
of what it has found. -/

namespace FileRoutes

namespace Keyword

/-- The word in front of every export. -/
def «export» : List Char := ['e', 'x', 'p', 'o', 'r', 't']

/-- The word in front of a constant. -/
def const : List Char := ['c', 'o', 'n', 's', 't']

/-- The word in front of an asynchronous function. -/
def async : List Char := ['a', 's', 'y', 'n', 'c']

/-- The word in front of a function. -/
def function : List Char := ['f', 'u', 'n', 'c', 't', 'i', 'o', 'n']

/-- The word of the default export. -/
def default : List Char := ['d', 'e', 'f', 'a', 'u', 'l', 't']

/-- The phrase between a re-exported name and its alias. -/
def asPhrase : List Char := [' ', 'a', 's', ' ']

/-- The text after a word and the blanks behind it, of which there is at least one. -/
def after? (word text : List Char) : Option (List Char) :=
  (Text.after? word text).bind Text.afterBlanks?

end Keyword

namespace Export

/-- The name that stands in front of one of the given marks, blanks in between aside, and the text
behind the mark. -/
def nameBefore? (marks : List Char) (text : List Char) : Option (String × List Char) :=
  let (name, rest) := Text.wordSpan text
  match name, Text.trimStart rest with
  | [], _ => none
  | _, [] => none
  | name, mark :: behind => if mark ∈ marks then some (String.ofList name, behind) else none

/-- The name of a constant whose export begins the text, and the text behind the export. -/
def valueName? (text : List Char) : Option (String × List Char) := do
  let text ← Keyword.after? Keyword.export text
  let text ← Keyword.after? Keyword.const text
  nameBefore? ['=', ':'] text

/-- The name of a function whose export begins the text, and the text behind the export. -/
def functionName? (text : List Char) : Option (String × List Char) := do
  let text ← Keyword.after? Keyword.export text
  let text := (Keyword.after? Keyword.async text).getD text
  let text ← Keyword.after? Keyword.function text
  nameBefore? ['('] text

/-- Recognises the default export at the beginning of a text. -/
def defaultMark? (text : List Char) : Option Unit := do
  let text ← Keyword.after? Keyword.export text
  let _ ← Keyword.after? Keyword.default text

/-- The inside of a list of re-exports that begins the text: what stands between its braces, the
blanks in front left out. An empty pair of braces is no list. -/
def group? (text : List Char) : Option (List Char) := do
  let text ← Text.after? Keyword.export text
  match Text.trimStart text with
  | '\x7b' :: rest =>
    let body := rest.takeWhile (· != '\x7d')
    guard (!body.isEmpty && body.length < rest.length)
    return Text.trimStart body
  | _ => none

/-- The lists of re-exports in a text. While the flag is set, the end of a list is awaited. -/
def groups : (within : Bool) → List Char → List (List Char)
  | _, [] => []
  | true, c :: rest => groups (c != '\x7d') rest
  | false, c :: rest =>
    match group? (c :: rest) with
    | some group => group :: groups true rest
    | none => groups false rest

/-- The local name of an entry in a list of re-exports, which is what stands in front of the alias;
`none` when it is blank. -/
def localName? (entry : List Char) : Option String :=
  match Text.trim (Text.before Keyword.asPhrase entry) with
  | [] => none
  | name => some (String.ofList name)

/-- The local names in a list of re-exports. -/
def groupNames (group : List Char) : List String :=
  (Text.fields ',' group).filterMap localName?

/-- The exported constants of a text. -/
def valuesIn (source : List Char) : List Export :=
  (Text.search valueName? 0 source).map ofValue

/-- The exported functions of a text. -/
def functionsIn (source : List Char) : List Export :=
  (Text.search functionName? 0 source).map ofFunction

/-- The default export of a text, if it has one. -/
def defaultIn (source : List Char) : List Export :=
  if (Text.scan defaultMark? source).isEmpty then [] else [ofDefault]

/-- The re-exported names of a text. -/
def namedIn (source : List Char) : List Export :=
  ((groups false source).flatMap groupNames).map ofNamed

/-- The **exports** of a text, pass by pass. -/
def allIn (source : List Char) : List Export :=
  valuesIn source ++ functionsIn source ++ defaultIn source ++ namedIn source

end Export

end FileRoutes
