import FileRoutes.Export.Scan
import FileRoutes.FileSystem.Walk
import FileRoutes.Options.Declaration
import FileRoutes.Resolution
import FileRoutes.Route
import FileRoutes.Text.LineEnding
import FileRoutes.Text.Utf8
import FileRoutes.UrlPath

/-! # Analysing a file

The analysis of one route file (`analyzeFile`) always answers with a record. Its URL path follows
from the paths alone; the rest is read from its text. A file that cannot be read, or is no UTF-8,
gives a record without exports and with one problem. The options are read on demand, by a reader
that may refuse them. -/

namespace FileRoutes

/-- Reads the options in the text of a route file, or refuses with a message. -/
abbrev OptionsReader := List Char → Except String (Option RouteOptions)

/-- The reader that finds the declared options. It refuses no text. -/
def declaredOptions : OptionsReader := fun source => .ok (RouteOptions.ofSource? source)

/-- Why the text of a file could not be read. -/
inductive ReadFailure where
  /-- The file cannot be reached. -/
  | unreachable (failure : Failure)
  /-- The bytes of the file are no UTF-8. -/
  | undecodable (fault : Text.Utf8.Fault)
  deriving DecidableEq, Repr

namespace Text.Utf8

/-- The words for a reason. -/
def Reason.message : Reason → String
  | .invalidStart => "invalid start byte"
  | .invalidContinuation => "invalid continuation byte"
  | .unexpectedEnd => "unexpected end of data"

/-- The words for a refusal. It names the byte, or the first and last offset of several bytes. -/
def Fault.message (fault : Fault) : String :=
  let place :=
    match fault.bytes with
    | [byte] =>
      "byte 0x" ++ String.ofList (hexDigits 2 byte.toNat) ++ " in position " ++
        toString fault.position
    | bytes =>
      "bytes in position " ++ toString fault.position ++ "-" ++
        toString (fault.position + bytes.length - 1)
  "'utf-8' codec can't decode " ++ place ++ ": " ++ fault.reason.message

end Text.Utf8

/-- The words for a failure to read a file. -/
def ReadFailure.message : ReadFailure → String
  | .unreachable failure => failure.message
  | .undecodable fault => fault.message

/-- The text of a file: its bytes as UTF-8, with line feeds for all line endings. -/
def readSource (fs : FileSystem) (filePath : String) : Except ReadFailure (List Char) := do
  let bytes ← (fs.bytes (Path.ofString filePath)).mapError .unreachable
  let text ← (Text.Utf8.decode bytes).mapError .undecodable
  return Text.unifyLineEndings text

/-- The options of a text and the problems met with them. Without a reader, or when no export
describes the route, there is nothing to read. -/
def readOptions (reader : Option OptionsReader) (resolution : Resolution) (source : List Char) :
    Option RouteOptions × List Problem :=
  match reader with
  | none => (none, [])
  | some read =>
    if resolution.hasOptions then
      match read source with
      | .ok options => (options, [])
      | .error message => (none, [.ofMessage ("Failed to parse options: " ++ message)])
    else (none, [])

/-- The record of a file with a given text. -/
def analyzeSource (reader : Option OptionsReader) (filePath urlPath : String)
    (source : List Char) : Route :=
  let exports := Export.allIn source
  let resolution := Resolution.ofExports exports
  let (options, errors) := readOptions reader resolution source
  { filePath, urlPath
    method := resolution.method
    hasHandler := resolution.hasHandler
    hasOptions := resolution.hasOptions
    options, exports, errors }

/-- The **analysis of one file** below a routes root. -/
def analyzeFile (fs : FileSystem) (reader : Option OptionsReader) (filePath root : String) :
    Route :=
  let urlPath := UrlPath.urlPath filePath root
  match readSource fs filePath with
  | .ok source => analyzeSource reader filePath urlPath source
  | .error failure =>
    .unreadable filePath urlPath (.ofMessage ("Failed to read file: " ++ failure.message))

end FileRoutes
