import FileRoutes.Export.Scan
import FileRoutes.Options.Response

/-! # Reading the options of a route file

The options are declared as a constant with that name, with or without a type annotation, whose
value is an object literal. The first declaration counts whose braces are closed
(`declaredBody?`). Tags, summary and description may also stand in an inner object under the key
`detail`, where they are looked for when the outer one does not have them as literals. -/

namespace FileRoutes

namespace Keyword

/-- The name under which the options are declared. -/
def options : List Char := ['o', 'p', 't', 'i', 'o', 'n', 's']

/-- The key of the tags. -/
def tags : List Char := ['t', 'a', 'g', 's']

/-- The key of the summary. -/
def summary : List Char := ['s', 'u', 'm', 'm', 'a', 'r', 'y']

/-- The key of the description. -/
def description : List Char := ['d', 'e', 's', 'c', 'r', 'i', 'p', 't', 'i', 'o', 'n']

/-- The key of the request body. -/
def body : List Char := ['b', 'o', 'd', 'y']

/-- The key of the responses. -/
def response : List Char := ['r', 'e', 's', 'p', 'o', 'n', 's', 'e']

/-- The key of the description of a successful response. -/
def responseDescription : List Char :=
  response ++ ['D', 'e', 's', 'c', 'r', 'i', 'p', 't', 'i', 'o', 'n']

/-- The key of the inner object. -/
def detail : List Char := ['d', 'e', 't', 'a', 'i', 'l']

end Keyword

namespace RouteOptions

/-- The text behind the equals sign that ends a declaration's left side. An annotation, which a
colon begins, goes on up to the first such sign. -/
def afterEquals? (text : List Char) : Option (List Char) :=
  match Text.trimStart text with
  | '=' :: rest => some (Text.trimStart rest)
  | ':' :: rest =>
    match rest.dropWhile (· != '=') with
    | [] => none
    | _ :: rest => some (Text.trimStart rest)
  | _ => none

/-- Whether a word that ends in front of the text is complete there. -/
def atWordEnd : List Char → Bool
  | [] => true
  | c :: _ => !Text.isWordChar c

/-- The text behind the left side of a declaration of the options that begins the text. -/
def declaredValue? (text : List Char) : Option (List Char) := do
  let text ← Keyword.after? Keyword.export text
  let text ← Keyword.after? Keyword.const text
  let text ← Text.after? Keyword.options text
  guard (atWordEnd text)
  afterEquals? text

/-- The left side of a declaration that begins the text. It is found together with the text behind
it, which is also where the search for the next one goes on. -/
def declaration? (text : List Char) : Option (List Char × List Char) :=
  (declaredValue? text).map fun behind => (behind, behind)

/-- The body of the object literal in the first declaration of a text that gives one. -/
def declaredBody? (source : List Char) : Option (List Char) :=
  (Text.search declaration? 0 source).findSome? Source.blockBody?

/-- The value of an entry; `none` when there is no such key or the value is empty. -/
def value? (entries : List (List Char × List Char)) (key : List Char) : Option (List Char) :=
  (entries.lookup key).filter (!·.isEmpty)

/-- Reads the entry of a key in the first of two objects, or else in the second. -/
def pick {α : Type} (entries detail : List (List Char × List Char)) (key : List Char)
    (read : List Char → Option α) : Option α :=
  ((value? entries key).bind read).or ((value? detail key).bind read)

/-- The entries of the inner object, of which there are none when it is no object. -/
def detailEntries (entries : List (List Char × List Char)) : List (List Char × List Char) :=
  match Source.objectBody? ((entries.lookup Keyword.detail).getD []) with
  | some body => Source.entries body
  | none => []

/-- The options that the entries of an object give. -/
def ofEntries (entries : List (List Char × List Char)) : RouteOptions :=
  let detail := detailEntries entries
  let string (text : List Char) : Option String := (Source.stringValue? text).map String.ofList
  let strings (text : List Char) : Option (List String) :=
    (Source.stringList? text).map (·.map String.ofList)
  { tags := pick entries detail Keyword.tags strings
    summary := pick entries detail Keyword.summary string
    description := pick entries detail Keyword.description string
    requestSchema := (value? entries Keyword.body).map fun text =>
      String.ofList (Text.collapse text)
    responses := ResponseSchema.ofExpression ((entries.lookup Keyword.response).getD [])
      (Source.stringValue? ((entries.lookup Keyword.responseDescription).getD [])) }

/-- The **options** that a route file declares; `none` when it declares none. -/
def ofSource? (source : List Char) : Option RouteOptions :=
  (declaredBody? source).map fun body => ofEntries (Source.entries body)

end RouteOptions

end FileRoutes
