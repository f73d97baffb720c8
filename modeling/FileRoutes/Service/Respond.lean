import FileRoutes.Analysis.Directory
import FileRoutes.Clock
import FileRoutes.FileSystem.RealPath
import FileRoutes.Service.Request

/-! # Responses of the service

What the service answers to a request (`respond`): its version and health, the record of a file, or
the table of a directory. When a routes root is set, only paths that resolve to it or to a location
below it are analysed. -/

namespace FileRoutes.Service

/-- A request to the service. -/
structure Request where
  /-- The verb, in capitals. -/
  method : String
  /-- The path of the endpoint. -/
  path : String
  /-- The body; `none` when the request has none. -/
  body : Option Json

/-- The **answer** to a request. -/
inductive Response where
  /-- A status with a body. -/
  | answer (status : Nat) (body : Json)
  /-- The body of the request has faults. -/
  | rejected (faults : List Schema.Fault)
  /-- The answer is to be found elsewhere. -/
  | redirect (location : String)
  deriving Repr

/-- The times that the service knows. -/
structure Times where
  /-- When the service was started. -/
  started : Instant
  /-- The time of the request. -/
  now : Instant

/-- What the service answers from. -/
structure Context where
  /-- The settings. -/
  environment : Environment
  /-- The file system. -/
  fileSystem : FileSystem
  /-- The times. -/
  times : Times

/-- The endpoints of the service. -/
inductive Endpoint where
  | home
  | version
  | health
  | analyzeFile
  | analyzeDirectory
  deriving DecidableEq, Repr

namespace Endpoint

/-- All endpoints. -/
def all : List Endpoint := [home, version, health, analyzeFile, analyzeDirectory]

/-- The path of an endpoint. -/
def path : Endpoint → String
  | home => "/"
  | version => "/api/version"
  | health => "/api/health"
  | analyzeFile => "/api/routes/analyze-file"
  | analyzeDirectory => "/api/routes/analyze-directory"

/-- The verb that an endpoint answers. -/
def method : Endpoint → String
  | home | version | health => "GET"
  | analyzeFile | analyzeDirectory => "POST"

/-- The endpoint at a path. -/
def ofPath? (path : String) : Option Endpoint :=
  all.find? fun endpoint => endpoint.path == path

end Endpoint

/-- A refusal with its explanation. -/
def refusal (status : Nat) (detail : String) : Response :=
  .answer status (ErrorDetail.mk detail).toJson

/-- The version of the service. -/
def versionText : String := "1.0.0"

/-- Where the documentation of the service is. -/
def documentation : String := "/docs"

/-- The health of the service. -/
def healthJson (context : Context) : Json :=
  .obj [ ("status", .str "ok"), ("version", .str versionText),
    ("timestamp", .str context.times.now.text), ("started_at", .str context.times.started.text),
    ("uptime_seconds", .nat (Instant.secondsIn (context.times.now - context.times.started))),
    ("routes_dir_configured", .bool context.environment.defaultRoot.isSome) ]

/-- The reader for options that a request asks for, or else the settings. -/
def optionsReader (environment : Environment) (asked : Option Bool) : Option OptionsReader :=
  if asked.getD environment.readsOptions then some declaredOptions else none

/-- Whether a path may be analysed: always when no routes root is set, and else when it resolves to
that root or to a location below it. -/
def isAllowed (context : Context) (path : String) : Except Failure Bool :=
  match context.environment.defaultRoot with
  | none => .ok true
  | some root => context.fileSystem.isWithin (.ofString path) (.ofString root)

/-- The refusal of a path outside the routes root that is set. -/
def outside : Response := refusal 403 "path is outside ROUTESCOPE_ROUTES_DIR"

/-- A text without the blanks at its ends; `none` when it is missing or blank. -/
def given? (text : Option String) : Option String :=
  match Text.trimmed (text.getD "") with
  | "" => none
  | text => some text

/-- Answers a request for the analysis of a file. -/
def respondFile (context : Context) (request : FileRequest) : Except Failure Response :=
  match given? (some request.path) with
  | none => .ok (refusal 400 "path is required")
  | some path => do
    if ← isAllowed context path then
      let root := (given? request.root).getD (UrlPath.inferRoot path)
      let reader := optionsReader context.environment request.includeOptions
      return .answer 200 (analyzeFile context.fileSystem reader path root).toJson
    else return outside

/-- Answers a request for the analysis of a directory. -/
def respondDirectory (context : Context) (request : DirectoryRequest) : Except Failure Response :=
  match (given? request.root).or context.environment.defaultRoot with
  | none => .ok (refusal 400 "routes_dir is required (or set ROUTESCOPE_ROUTES_DIR)")
  | some root => do
    if ← isAllowed context root then
      let reader := optionsReader context.environment request.includeOptions
      let routes ← analyzeDirectory context.environment context.fileSystem reader none root
      return .answer 200 (RouteTable.ofRoutes root routes).toJson
    else return outside

/-- Answers a request whose body has been read. -/
def respondChecked {α : Type} (checked : Schema.Checked α)
    (respond : α → Except Failure Response) : Except Failure Response :=
  match checked with
  | .valid request => respond request
  | .invalid faults => .ok (.rejected faults)

/-- Answers a request to an endpoint. -/
def Endpoint.respond (context : Context) (body : Option Json) :
    Endpoint → Except Failure Response
  | home => .ok (.redirect documentation)
  | version => .ok (.answer 200 (.obj [("version", .str versionText)]))
  | health => .ok (.answer 200 (healthJson context))
  | analyzeFile => respondChecked (readBody FileRequest.fields body) (respondFile context)
  | analyzeDirectory =>
    respondChecked (readBody DirectoryRequest.fields body) (respondDirectory context)

/-- The **answer** to a request. -/
def respond (context : Context) (request : Request) : Except Failure Response :=
  match Endpoint.ofPath? request.path with
  | none => .ok (refusal 404 "Not Found")
  | some endpoint =>
    if endpoint.method = request.method then endpoint.respond context request.body
    else .ok (refusal 405 "Method Not Allowed")

end FileRoutes.Service
