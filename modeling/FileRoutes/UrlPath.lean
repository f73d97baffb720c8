import FileRoutes.Path

/-! # From file paths to URL paths

The URL path that a route file serves follows from its path alone. The part below the routes root
loses its route extension; of its segments, `index` is left out, `[name]` becomes the parameter
`:name`, `[...name]` the catch-all `*name`, and every other segment stays (`translateSegment`).
`urlPath` puts the steps together, and `inferRoot` guesses the routes root of a file that is looked
at on its own. Backslashes count as slashes throughout. -/

namespace FileRoutes.UrlPath

/-- A text with slashes in place of backslashes. -/
def slashed (text : List Char) : List Char :=
  text.map fun c => if c = '\\' then '/' else c

/-- The path of a file below the routes root, or its own text when it is not below that. -/
def relativeRoute (file root : String) : List Char :=
  let raw := slashed file.toList
  match (Path.ofString (String.ofList raw)).below?
      (Path.ofString (String.ofList (slashed root.toList))) with
  | some names => Path.joinNames names
  | none => raw

/-- The **route extensions**, in the order in which they are tried. -/
def extensions : List (List Char) := [['.', 't', 's'], ['.', 't', 's', 'x']]

/-- A text without the extension, if it ends in it. -/
def dropExtension? (extension text : List Char) : Option (List Char) :=
  (Text.after? extension.reverse text.reverse).map List.reverse

/-- A text without the first route extension that it ends in. -/
def stripExtension (text : List Char) : List Char :=
  (extensions.findSome? (dropExtension? · text)).getD text

/-- The segment that stands for its directory. -/
def indexSegment : List Char := ['i', 'n', 'd', 'e', 'x']

/-- The mark of a catch-all parameter. -/
def catchAllMark : List Char := ['.', '.', '.']

/-- The parameter that a bracketed segment names: the text between its brackets. -/
def parameter? : List Char → Option (List Char)
  | '[' :: rest => if rest.getLast? = some ']' then some rest.dropLast else none
  | _ => none

/-- One segment of a file path as a segment of the URL path; `none` when it is left out. -/
def translateSegment (segment : List Char) : Option (List Char) :=
  if segment = indexSegment then none
  else match parameter? segment with
    | none => some segment
    | some parameter =>
      match Text.after? catchAllMark parameter with
      | some name => some ('*' :: name)
      | none => some (':' :: parameter)

/-- The segments of the URL path of a relative route without its extension. -/
def segments (route : List Char) : List (List Char) :=
  ((Text.fields '/' route).filter (!·.isEmpty)).filterMap translateSegment

/-- The URL path of segments: each behind a slash, or a slash alone when there is none. -/
def ofSegments (segments : List (List Char)) : List Char :=
  match segments.flatMap ('/' :: ·) with
  | [] => ['/']
  | path => path

/-- The **URL path** that a route file serves. -/
def urlPath (file root : String) : String :=
  String.ofList (ofSegments (segments (stripExtension (relativeRoute file root))))

/-! ## The routes root of a single file -/

/-- The directory names that mark a routes root, in the order in which they are looked for. -/
def rootMarkers : List (List Char) :=
  [ ['/', 'r', 'o', 'u', 't', 'e', 's', '/'],
    ['/', 'r', 'o', 'u', 't', 'e', 's', '-', 'a', 'd', 'm', 'i', 'n', '/'] ]

/-- The **inferred root**: the path up to the first marker, or else the directory of the file, the
working directory being the empty text. -/
def inferRoot (file : String) : String :=
  let text := slashed file.toList
  match rootMarkers.findSome? (Text.through? · text) with
  | some root => String.ofList root
  | none =>
    let parent := (Path.ofString (String.ofList text)).parent
    if parent = ⟨.relative, []⟩ then "" else parent.text

end FileRoutes.UrlPath
