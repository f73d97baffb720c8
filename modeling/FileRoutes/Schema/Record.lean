import FileRoutes.Analysis.Summary
import FileRoutes.Schema.Checked

/-! # The JSON form of the records

How each record is written as JSON (`toJson`) and read back (`reader`). The keys are written in a
fixed order. On reading, keys that a record does not have are ignored and missing ones take their
defaults. The schema of a response is written under `schema` and read under that key or, without
it, under `schema_ref`. -/

namespace FileRoutes

open Schema

/-! ## Exports and problems -/

/-- The JSON form of an export. -/
def Export.toJson (value : Export) : Json :=
  .obj [ ("name", .str value.name), ("kind", .str value.kind.word),
    ("value_type", .ofOption (fun role => .str role.word) value.role) ]

/-- All kinds of exports. -/
def ExportKind.all : List ExportKind := [.variable, .function, .default, .named]

/-- All roles of exports. -/
def ExportRole.all : List ExportRole := [.handler, .options]

/-- Reads an export. -/
def Export.reader : Reader Export :=
  .record .modelType fun members =>
    Export.mk <$> required members "name" .string
      <*> required members "kind" (.oneOf ExportKind.all ExportKind.word)
      <*> optional members "value_type" (.nullable (.oneOf ExportRole.all ExportRole.word)) none

/-- The JSON form of a problem. -/
def Problem.toJson (problem : Problem) : Json :=
  .obj [ ("message", .str problem.message), ("line", .ofOption .nat problem.line),
    ("column", .ofOption .nat problem.column) ]

/-- Reads a problem. Lines and columns count from one. -/
def Problem.reader : Reader Problem :=
  .record .modelType fun members =>
    Problem.mk <$> required members "message" .string
      <*> optional members "line" (.nullable (.natural 1 none)) none
      <*> optional members "column" (.nullable (.natural 1 none)) none

/-! ## Options -/

/-- The JSON form of a response schema. -/
def ResponseSchema.toJson (response : ResponseSchema) : Json :=
  .obj [ ("status_code", .nat response.status), ("schema", .str response.schema),
    ("description", .ofOption .str response.description) ]

/-- The schema of a response, under either of its keys. -/
def ResponseSchema.schemaField (members : List (String × Json)) : Checked String :=
  match members.lookup "schema", members.lookup "schema_ref" with
  | none, some json => (Reader.string json).within (.key "schema")
  | _, _ => required members "schema" .string

/-- Reads a response schema. -/
def ResponseSchema.reader : Reader ResponseSchema :=
  .record .modelType fun members =>
    ResponseSchema.mk
      <$> required members "status_code" (.natural leastStatus (some greatestStatus))
      <*> schemaField members
      <*> optional members "description" (.nullable .string) none

/-- The JSON form of route options. -/
def RouteOptions.toJson (options : RouteOptions) : Json :=
  .obj [ ("tags", .ofOption .strs options.tags), ("summary", .ofOption .str options.summary),
    ("description", .ofOption .str options.description),
    ("request_schema", .ofOption .str options.requestSchema),
    ("response_schemas", .arr (options.responses.map ResponseSchema.toJson)) ]

/-- Reads route options. -/
def RouteOptions.reader : Reader RouteOptions :=
  .record .modelType fun members =>
    RouteOptions.mk <$> optional members "tags" (.nullable (.list .string)) none
      <*> optional members "summary" (.nullable .string) none
      <*> optional members "description" (.nullable .string) none
      <*> optional members "request_schema" (.nullable .string) none
      <*> optional members "response_schemas" (.list ResponseSchema.reader) []

/-! ## Routes and their summary -/

/-- The JSON form of a route. -/
def Route.toJson (route : Route) : Json :=
  .obj [ ("file_path", .str route.filePath), ("url_path", .str route.urlPath),
    ("method", .str route.method), ("has_handler", .bool route.hasHandler),
    ("has_options", .bool route.hasOptions),
    ("options", .ofOption RouteOptions.toJson route.options),
    ("exports", .arr (route.exports.map Export.toJson)),
    ("errors", .arr (route.errors.map Problem.toJson)) ]

/-- Reads a URL path, which begins with a slash. -/
def Route.urlPathReader : Reader String := fun json =>
  (Reader.string json).andThen fun path =>
    match path.toList with
    | [] => .fault .stringTooShort
    | c :: _ => if c = '/' then .valid path else .fault .stringPatternMismatch

/-- Reads a route. -/
def Route.reader : Reader Route :=
  .record .modelType fun members =>
    Route.mk <$> required members "file_path" .string
      <*> required members "url_path" urlPathReader
      <*> optional members "method" .string ""
      <*> optional members "has_handler" .boolean false
      <*> optional members "has_options" .boolean false
      <*> optional members "options" (.nullable RouteOptions.reader) none
      <*> optional members "exports" (.list Export.reader) []
      <*> optional members "errors" (.list Problem.reader) []

/-- The JSON form of a summary. -/
def Summary.toJson (summary : Summary) : Json :=
  .obj [ ("route_count", .nat summary.routes), ("handler_count", .nat summary.handlers),
    ("missing_handler_count", .nat summary.missingHandlers),
    ("error_count", .nat summary.withErrors),
    ("by_method", .obj (summary.byMethod.map fun (method, count) => (method, .int count))),
    ("dynamic_route_count", .nat summary.dynamic),
    ("catch_all_route_count", .nat summary.catchAll) ]

/-- Reads a count, which is not negative and zero when it is missing. -/
def Summary.countField (members : List (String × Json)) (key : String) : Checked Nat :=
  optional members key (.natural 0 none) 0

/-- Reads a summary. -/
def Summary.reader : Reader Summary :=
  .record .modelType fun members =>
    Summary.mk <$> countField members "route_count"
      <*> countField members "handler_count"
      <*> countField members "missing_handler_count"
      <*> countField members "error_count"
      <*> optional members "by_method" (.dictionary .integer) []
      <*> countField members "dynamic_route_count"
      <*> countField members "catch_all_route_count"

/-! ## Tables of routes -/

/-- The routes below a root with their summary. -/
structure RouteTable where
  /-- The routes root. -/
  root : String
  /-- The routes below it. -/
  routes : List Route
  /-- The counts of the routes. -/
  summary : Summary
  deriving DecidableEq, Repr

namespace RouteTable

/-- The table of some routes. -/
def ofRoutes (root : String) (routes : List Route) : RouteTable :=
  ⟨root, routes, .ofRoutes routes⟩

/-- The JSON form of a table of routes. -/
def toJson (table : RouteTable) : Json :=
  .obj [ ("routes_dir", .str table.root), ("routes", .arr (table.routes.map Route.toJson)),
    ("summary", table.summary.toJson) ]

/-- Reads a table of routes. -/
def reader : Reader RouteTable :=
  .record .modelType fun members =>
    RouteTable.mk <$> required members "routes_dir" .string
      <*> optional members "routes" (.list Route.reader) []
      <*> optional members "summary" Summary.reader .empty

end RouteTable

end FileRoutes
