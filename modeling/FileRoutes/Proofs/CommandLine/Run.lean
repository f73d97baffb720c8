import FileRoutes.CommandLine.Run
import FileRoutes.Proofs.CommandLine.Arguments

/-! # What a run does

The table of a run is that of a single file (`table_of_isFile`) or of a directory
(`table_of_not_isFile`). With a table the run comes to its end, unless its report cannot be
written (`outcome_run_of_written`), which is not decided by what stands in the report
(`failure_writeReport`). -/

namespace FileRoutes.CommandLine

/-! ## The table -/

section Table

variable {environment : Environment} {fs : FileSystem} {arguments : Arguments}

/-- The routes root of a single file: the one that is given, or else one that is inferred. -/
def Arguments.fileRoot (arguments : Arguments) : String :=
  if arguments.routesDir = "" then UrlPath.inferRoot arguments.target else arguments.routesDir

/-- **The table of a single file** has one row. -/
theorem table_of_isFile (isFile : fs.isFile (.ofString arguments.target) = .ok true) :
    table environment fs arguments =
      .ok (.ofRoutes arguments.fileRoot
        [analyzeFile fs (optionsReader environment arguments) arguments.target
          arguments.fileRoot]) := by
  rw [table, isFile]
  rfl

/-- **The table of anything else** is that of a directory. -/
theorem table_of_not_isFile (isFile : fs.isFile (.ofString arguments.target) = .ok false) :
    table environment fs arguments =
      (analyzeDirectory environment fs (optionsReader environment arguments) arguments.maxWorkers
        arguments.target).map (.ofRoutes arguments.target) := by
  rw [table, isFile]
  cases analyzeDirectory environment fs (optionsReader environment arguments) arguments.maxWorkers
    arguments.target <;> rfl

/-- A target about which nothing can be said has no table. -/
theorem table_of_error {failure : Failure}
    (unknown : fs.isFile (.ofString arguments.target) = .error failure) :
    table environment fs arguments = .error failure := by
  rw [table, unknown]
  rfl

/-- The table of a directory is given when its analysis answers. -/
theorem table_of_directory {location : Location} {routes : List Route}
    (reached : fs.status (.ofString arguments.target) = .ok (location, .directory))
    (analyzed : analyzeDirectory environment fs (optionsReader environment arguments)
      arguments.maxWorkers arguments.target = .ok routes) :
    table environment fs arguments = .ok (.ofRoutes arguments.target routes) := by
  have directory : fs.isFile (.ofString arguments.target) = .ok false := by
    rw [FileSystem.isFile, FileSystem.ask, reached]
  rw [table_of_not_isFile directory, analyzed]
  rfl

/-- **A target that is no file** has the table of a directory, if it has one. -/
theorem exists_routes_of_table {shown : RouteTable}
    (known : table environment fs arguments = .ok shown)
    (other : fs.isFile (.ofString arguments.target) ≠ .ok true) :
    ∃ routes, analyzeDirectory environment fs (optionsReader environment arguments)
      arguments.maxWorkers arguments.target = .ok routes ∧
      RouteTable.ofRoutes arguments.target routes = shown := by
  have directory : fs.isFile (.ofString arguments.target) = .ok false := by
    cases isFile : fs.isFile (.ofString arguments.target) with
    | error failure =>
      rw [table_of_error isFile] at known
      cases known
    | ok isFile' =>
      cases isFile' with
      | false => rfl
      | true => exact absurd isFile other
  rw [table_of_not_isFile directory] at known
  cases analyzed : analyzeDirectory environment fs (optionsReader environment arguments)
    arguments.maxWorkers arguments.target with
  | error failure =>
    rw [analyzed] at known
    cases known
  | ok routes =>
    rw [analyzed] at known
    exact ⟨routes, rfl, Except.ok.inj known⟩

end Table

/-! ## Writing the report -/

/-- Whether a file can be written is not decided by what is written. -/
theorem failure_writeFile (fs : FileSystem) (path : Path) (bytes bytes' : List UInt8) :
    (Change.ofStep fs (fs.writeFile path bytes)).failure =
      (Change.ofStep fs (fs.writeFile path bytes')).failure := by
  unfold FileSystem.writeFile
  cases fs.find true path with
  | error failure => rfl
  | ok place =>
    cases place with
    | free location => rfl
    | taken location entry => cases entry <;> rfl

/-- **Whether a report can be written is not decided by what stands in it.** -/
theorem failure_writeReport (fs : FileSystem) (output report report' : String) :
    (writeReport fs output report).failure = (writeReport fs output report').failure := by
  unfold writeReport
  split
  · rfl
  · unfold Change.andThen
    dsimp only
    split
    · exact failure_writeFile _ _ _ _
    · rfl

/-! ## The outcome -/

section Outcome

variable {load : Loader} {environment : Environment} {fs : FileSystem} {arguments : List String}
  {parsed : Arguments} {shown : RouteTable}

/-- Without a table a run fails. -/
theorem outcome_run_of_error (given : Arguments.parse arguments = .run parsed) {failure : Failure}
    (unknown : table (load fs environment) fs parsed = .error failure) :
    (run load environment fs arguments).outcome = .error failure := by
  rw [run, given]
  unfold complete
  simp only [unknown]

/-- With a table a run fails when its report cannot be written. -/
theorem outcome_run_of_unwritten (given : Arguments.parse arguments = .run parsed)
    (known : table (load fs environment) fs parsed = .ok shown) {failure : Failure}
    (unwritten : (writeReport fs parsed.output shown.report).failure = some failure) :
    (run load environment fs arguments).outcome = .error failure := by
  rw [run, given]
  unfold complete
  simp only [known, unwritten]

/-- **With a table a run comes to its end** when its report can be written. -/
theorem outcome_run_of_written (given : Arguments.parse arguments = .run parsed)
    (known : table (load fs environment) fs parsed = .ok shown)
    (written : (writeReport fs parsed.output shown.report).failure = none) :
    (run load environment fs arguments).outcome = .ok (outcomeOf parsed shown) := by
  rw [run, given]
  unfold complete
  simp only [known, written]

/-- **A run that comes to its end has a table**, and its report could be written. -/
theorem exists_table_of_completed (given : Arguments.parse arguments = .run parsed)
    {completion : Completion}
    (completed : (run load environment fs arguments).outcome = .ok (.completed completion)) :
    ∃ shown, table (load fs environment) fs parsed = .ok shown ∧
      outcomeOf parsed shown = .completed completion := by
  cases known : table (load fs environment) fs parsed with
  | error failure =>
    rw [outcome_run_of_error given known] at completed
    cases completed
  | ok shown =>
    cases written : (writeReport fs parsed.output shown.report).failure with
    | some failure =>
      rw [outcome_run_of_unwritten given known written] at completed
      cases completed
    | none =>
      rw [outcome_run_of_written given known written] at completed
      exact ⟨shown, rfl, Except.ok.inj completed⟩

end Outcome

end FileRoutes.CommandLine
