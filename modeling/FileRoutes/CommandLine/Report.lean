import FileRoutes.Json.Printer
import FileRoutes.Schema.Record

/-! # The table for readers

A table of routes as text (`RouteTable.lines`): its root and counts, and for each route the method,
the URL path, the file, and in brackets what there is to note about it. The columns are as wide as
their content asks, counted in characters. The problems of a route stand below it. -/

namespace FileRoutes

/-- A text filled up with spaces to a number of characters. -/
def padded (width : Nat) (text : String) : String :=
  String.ofList (text.toList ++ List.replicate (width - text.length) ' ')

/-- Texts with another between neighbours. -/
def joinedBy (separator : String) : List String → String
  | [] => ""
  | [text] => text
  | text :: others => text ++ separator ++ joinedBy separator others

/-- What there is to note about a route. -/
def Route.notes (route : Route) : List String :=
  (if route.hasHandler then [] else ["no-handler"]) ++
    (if route.hasOptions then ["options"] else []) ++
    (if route.errors.isEmpty then [] else ["errors=" ++ toString route.errors.length])

/-- The line of a route, when the column of URL paths has a given width. -/
def Route.line (width : Nat) (route : Route) : String :=
  let method := if route.method = "" then "?" else route.method
  let row := "  " ++ padded 7 method ++ " " ++ padded width route.urlPath ++ "  " ++ route.filePath
  match route.notes with
  | [] => row
  | notes => row ++ "  [" ++ joinedBy "," notes ++ "]"

/-- The lines of a route and its problems. -/
def Route.lines (width : Nat) (route : Route) : List String :=
  route.line width :: route.errors.map fun problem => "      ! " ++ problem.message

namespace RouteTable

/-- The line of counts. -/
def countsLine (summary : Summary) : String :=
  "counts: routes=" ++ toString summary.routes ++ ", handlers=" ++ toString summary.handlers ++
    ", missing_handlers=" ++ toString summary.missingHandlers ++ ", with_errors=" ++
    toString summary.withErrors

/-- The width of the column of URL paths. -/
def urlWidth (routes : List Route) : Nat :=
  routes.foldl (fun width route => max width route.urlPath.length) 0

/-- The lines of a table. -/
def lines (table : RouteTable) : List String :=
  [ "Route Table", "===========", "routes_dir: " ++ table.root, countsLine table.summary ] ++
    match table.routes with
    | [] => ["no routes found"]
    | routes => routes.flatMap (Route.lines (urlWidth routes))

/-- The table as text, every line ended. -/
def text (table : RouteTable) : String :=
  table.lines.foldl (fun text line => text ++ line ++ "\n") ""

/-- The **report**: the table as JSON over several lines, the last one ended too. -/
def report (table : RouteTable) : String :=
  table.toJson.pretty ++ "\n"

end RouteTable

end FileRoutes
