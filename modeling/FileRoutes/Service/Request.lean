import FileRoutes.Schema.Record

/-! # Requests of the service

What the body of a request may ask for: the analysis of a file (`FileRequest`) or of a directory
(`DirectoryRequest`). Where a body leaves the root or the reading of options open, the settings
decide. A refusal is explained by an `ErrorDetail`. -/

namespace FileRoutes.Service

open Schema

/-- Asks for the analysis of a file. -/
structure FileRequest where
  /-- The route file. -/
  path : String
  /-- The routes root, which is inferred when it is left open. -/
  root : Option String
  /-- Whether options are read. -/
  includeOptions : Option Bool
  deriving DecidableEq, Repr

/-- Asks for the analysis of a directory. -/
structure DirectoryRequest where
  /-- The routes root. -/
  root : Option String
  /-- Whether options are read. -/
  includeOptions : Option Bool
  deriving DecidableEq, Repr

/-- Explains a refusal. -/
structure ErrorDetail where
  /-- The explanation. -/
  detail : String
  deriving DecidableEq, Repr

namespace FileRequest

/-- The JSON form of the request. -/
def toJson (request : FileRequest) : Json :=
  .obj [ ("path", .str request.path), ("routes_dir", .ofOption .str request.root),
    ("include_options", .ofOption .bool request.includeOptions) ]

/-- The fields of the request. -/
def fields (members : List (String × Json)) : Checked FileRequest :=
  FileRequest.mk <$> required members "path" .string
    <*> optional members "routes_dir" (.nullable .string) none
    <*> optional members "include_options" (.nullable .boolean) none

/-- Reads a request. -/
def reader : Reader FileRequest := .record .modelType fields

end FileRequest

namespace DirectoryRequest

/-- The JSON form of the request. -/
def toJson (request : DirectoryRequest) : Json :=
  .obj [ ("routes_dir", .ofOption .str request.root),
    ("include_options", .ofOption .bool request.includeOptions) ]

/-- The fields of the request. -/
def fields (members : List (String × Json)) : Checked DirectoryRequest :=
  DirectoryRequest.mk <$> optional members "routes_dir" (.nullable .string) none
    <*> optional members "include_options" (.nullable .boolean) none

/-- Reads a request. -/
def reader : Reader DirectoryRequest := .record .modelType fields

end DirectoryRequest

namespace ErrorDetail

/-- The JSON form of the explanation. -/
def toJson (error : ErrorDetail) : Json := .obj [("detail", .str error.detail)]

/-- Reads an explanation. -/
def reader : Reader ErrorDetail :=
  .record .modelType fun members => ErrorDetail.mk <$> required members "detail" .string

end ErrorDetail

/-- Reads the body of a request. There must be one, and it must be an object. -/
def readBody {α : Type} (fields : List (String × Json) → Checked α) (body : Option Json) :
    Checked α :=
  Checked.within (.key "body")
    (match body with
    | none | some .null => .fault .missing
    | some json => Reader.record .modelAttributesType fields json)

end FileRoutes.Service
