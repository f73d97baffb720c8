import FileRoutes.Analysis.Directory
import FileRoutes.CommandLine.Arguments
import FileRoutes.CommandLine.Report
import FileRoutes.FileSystem.Write

/-! # Running the command line

A run (`run`) loads settings into its environment, analyses its target, a single file or a
directory, writes the report to a file if that is asked for, prints the report or the table, and
ends with an exit code, which tells whether what was asked to make it fail was met. A run that
cannot write the report may have made directories for it (`Run`). -/

namespace FileRoutes.CommandLine

/-- What **loading settings** makes of an environment. A run takes this as it is given: from which
files settings are loaded, and how these are read, is not said here. -/
abbrev Loader := FileSystem → Environment → Environment

/-- Loads the settings of a file that has been read. What is set already is kept. -/
def Loader.keeping (settings : Environment) : Loader := fun _ environment =>
  { routesDir := environment.routesDir.or settings.routesDir
    maxWorkers := environment.maxWorkers.or settings.maxWorkers
    includeOptions := environment.includeOptions.or settings.includeOptions
    logLevel := environment.logLevel.or settings.logLevel
    allowedOrigins := environment.allowedOrigins.or settings.allowedOrigins }

/-- A run that came to its end. -/
structure Completion where
  /-- The exit code. -/
  exitCode : Nat
  /-- What was printed. -/
  output : String
  deriving DecidableEq, Repr

/-- The outcome of a run. -/
inductive Outcome where
  /-- It came to its end. -/
  | completed (completion : Completion)
  /-- Help was called for. -/
  | help
  /-- The arguments cannot be used. -/
  | misuse
  deriving DecidableEq, Repr

/-- What a **run** leaves behind. -/
structure Run where
  /-- The file system afterwards. -/
  fileSystem : FileSystem
  /-- The outcome, or what kept the run from coming to its end. -/
  outcome : Except Failure Outcome

/-- The reader for options that the arguments or the settings ask for. -/
def optionsReader (environment : Environment) (arguments : Arguments) : Option OptionsReader :=
  if arguments.includeOptions || environment.readsOptions then some declaredOptions else none

/-- The table of the target. -/
def table (environment : Environment) (fs : FileSystem) (arguments : Arguments) :
    Except Failure RouteTable := do
  let reader := optionsReader environment arguments
  if ← fs.isFile (.ofString arguments.target) then
    let root :=
      if arguments.routesDir = "" then UrlPath.inferRoot arguments.target
      else arguments.routesDir
    return .ofRoutes root [analyzeFile fs reader arguments.target root]
  else
    let routes ← analyzeDirectory environment fs reader arguments.maxWorkers arguments.target
    return .ofRoutes arguments.target routes

/-- Writes the report to a file, whose missing parents are made. No file is asked for by an empty
text. -/
def writeReport (fs : FileSystem) (output : String) (report : String) : Change :=
  if output = "" then .unchanged fs
  else
    let path := Path.ofString output
    (fs.makeDirectories path.parent).andThen fun fs =>
      .ofStep fs (fs.writeFile path (Text.Utf8.encode report.toList))

/-- The exit code of a run: 1 when a route has what makes the run fail. -/
def exitCode (arguments : Arguments) (routes : List Route) : Nat :=
  if arguments.failOnErrors && routes.any (!·.errors.isEmpty) then 1
  else if arguments.failOnMissingHandler && routes.any (!·.hasHandler) then 1
  else 0

/-- The outcome of a run that has a table and has written its report. -/
def outcomeOf (arguments : Arguments) (table : RouteTable) : Outcome :=
  .completed
    { exitCode := exitCode arguments table.routes
      output := if arguments.json then table.report else table.text }

/-- Runs with arguments that can be used. -/
def complete (environment : Environment) (fs : FileSystem) (arguments : Arguments) : Run :=
  match table environment fs arguments with
  | .error failure => ⟨fs, .error failure⟩
  | .ok table =>
    let change := writeReport fs arguments.output table.report
    match change.failure with
    | some failure => ⟨change.fileSystem, .error failure⟩
    | none => ⟨change.fileSystem, .ok (outcomeOf arguments table)⟩

/-- A **run** of the command line. Settings are loaded when the arguments can be used. -/
def run (load : Loader) (environment : Environment) (fs : FileSystem) (arguments : List String) :
    Run :=
  match Arguments.parse arguments with
  | .misuse => ⟨fs, .ok .misuse⟩
  | .help => ⟨fs, .ok .help⟩
  | .run arguments => complete (load fs environment) fs arguments

end FileRoutes.CommandLine
