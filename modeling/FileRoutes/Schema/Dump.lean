import FileRoutes.Service.Request

/-! # Dumps of the records

One field has an alias: the schema of a response is written under it in answers and reports, and it
may be written under the name of the field instead (`Naming`). The other keys of a `dump` are those
of `toJson`. A `Shape` is what a JSON value is checked against: one for each kind of record, with
the values that are read, their reader and their dumps. -/

namespace FileRoutes

open Schema

/-- Under which **names** the fields of a record are written. -/
inductive Naming where
  /-- Under the alias of a field, where it has one. -/
  | byAlias
  /-- Under the name of the field itself. -/
  | byField
  deriving DecidableEq, Repr

/-- The key of the schema of a response. -/
def Naming.schemaKey : Naming → String
  | byAlias => "schema"
  | byField => "schema_ref"

/-- The dump of a response schema. -/
def ResponseSchema.dump (naming : Naming) (response : ResponseSchema) : Json :=
  .obj [ ("status_code", .nat response.status), (naming.schemaKey, .str response.schema),
    ("description", .ofOption .str response.description) ]

/-- The dump of route options. -/
def RouteOptions.dump (naming : Naming) (options : RouteOptions) : Json :=
  .obj [ ("tags", .ofOption .strs options.tags), ("summary", .ofOption .str options.summary),
    ("description", .ofOption .str options.description),
    ("request_schema", .ofOption .str options.requestSchema),
    ("response_schemas", .arr (options.responses.map (ResponseSchema.dump naming))) ]

/-- The dump of a route. -/
def Route.dump (naming : Naming) (route : Route) : Json :=
  .obj [ ("file_path", .str route.filePath), ("url_path", .str route.urlPath),
    ("method", .str route.method), ("has_handler", .bool route.hasHandler),
    ("has_options", .bool route.hasOptions),
    ("options", .ofOption (RouteOptions.dump naming) route.options),
    ("exports", .arr (route.exports.map Export.toJson)),
    ("errors", .arr (route.errors.map Problem.toJson)) ]

/-- The dump of a table of routes. -/
def RouteTable.dump (naming : Naming) (table : RouteTable) : Json :=
  .obj [ ("routes_dir", .str table.root), ("routes", .arr (table.routes.map (Route.dump naming))),
    ("summary", table.summary.toJson) ]

/-- Under their aliases the fields of options are written as in the JSON form. -/
theorem RouteOptions.dump_byAlias : RouteOptions.dump .byAlias = RouteOptions.toJson := rfl

/-- So are those of a table. -/
theorem RouteTable.dump_byAlias : RouteTable.dump .byAlias = RouteTable.toJson := rfl

namespace Schema

/-- The **shapes** of records. -/
inductive Shape where
  | exported
  | problem
  | responseSchema
  | routeOptions
  | route
  | summary
  | fileRequest
  | directoryRequest
  | routeTable
  | errorDetail
  deriving DecidableEq, Repr

namespace Shape

/-- The records of a shape. -/
def Record : Shape → Type
  | exported => Export
  | problem => Problem
  | responseSchema => ResponseSchema
  | routeOptions => RouteOptions
  | route => Route
  | summary => Summary
  | fileRequest => Service.FileRequest
  | directoryRequest => Service.DirectoryRequest
  | routeTable => RouteTable
  | errorDetail => Service.ErrorDetail

/-- Reads a record of a shape. -/
def reader : (shape : Shape) → Reader shape.Record
  | exported => Export.reader
  | problem => Problem.reader
  | responseSchema => ResponseSchema.reader
  | routeOptions => RouteOptions.reader
  | route => Route.reader
  | summary => Summary.reader
  | fileRequest => Service.FileRequest.reader
  | directoryRequest => Service.DirectoryRequest.reader
  | routeTable => RouteTable.reader
  | errorDetail => Service.ErrorDetail.reader

/-- The dump of a record of a shape. -/
def dump (naming : Naming) : (shape : Shape) → shape.Record → Json
  | exported, record => record.toJson
  | problem, record => record.toJson
  | responseSchema, record => record.dump naming
  | routeOptions, record => record.dump naming
  | route, record => record.dump naming
  | summary, record => record.toJson
  | fileRequest, record => record.toJson
  | directoryRequest, record => record.toJson
  | routeTable, record => record.dump naming
  | errorDetail, record => record.toJson

end Shape

end Schema

end FileRoutes
