import FileRoutes.Proofs.Analysis.Listing
import FileRoutes.Proofs.Analysis.OptionsPass
import FileRoutes.Proofs.Analysis.Reading
import FileRoutes.Proofs.CommandLine.Run
import FileRoutes.Proofs.Options.Declared

/-! # Runs with and without options

Reading options changes the options in a report and nothing else that a run shows
(`reading_options`). The table for readers does not show them (`RouteTable.text_withoutOptions`), and
the exit code does not depend on them (`exitCode_map_withoutOptions`). -/

namespace FileRoutes

/-! ## Tables without options -/

/-- A table whose records are **without their options**. -/
def RouteTable.withoutOptions (table : RouteTable) : RouteTable :=
  { table with routes := table.routes.map Route.withoutOptions }

/-- The table of records without options is the table without options. -/
theorem RouteTable.ofRoutes_map_withoutOptions (root : String) (routes : List Route) :
    ofRoutes root (routes.map Route.withoutOptions) = (ofRoutes root routes).withoutOptions := by
  rw [ofRoutes, Summary.ofRoutes_map_withoutOptions]
  rfl

/-- The lines of a table do not show options. -/
theorem RouteTable.lines_withoutOptions (table : RouteTable) :
    table.withoutOptions.lines = table.lines := by
  obtain ⟨root, routes, summary⟩ := table
  have width : urlWidth (routes.map Route.withoutOptions) = urlWidth routes := List.foldl_map
  have same : ∀ width, (routes.map Route.withoutOptions).flatMap (Route.lines width) =
      routes.flatMap (Route.lines width) := fun width => List.flatMap_map _ _ _
  unfold RouteTable.lines RouteTable.withoutOptions
  cases routes with
  | nil => rfl
  | cons route routes =>
    rw [List.map_cons] at same width ⊢
    dsimp only
    rw [width, same]

/-- **The table for readers does not show options.** -/
theorem RouteTable.text_withoutOptions (table : RouteTable) :
    table.withoutOptions.text = table.text := by
  rw [text, text, lines_withoutOptions]

namespace CommandLine

/-- **The exit code does not depend on options.** -/
theorem exitCode_map_withoutOptions (arguments : Arguments) (routes : List Route) :
    exitCode arguments (routes.map Route.withoutOptions) = exitCode arguments routes := by
  unfold exitCode
  rw [List.any_map, List.any_map]
  rfl

/-! ## Runs -/

/-- The reader that a run uses refuses nothing. -/
theorem refusesNothing_optionsReader (environment : Environment) (arguments : Arguments) :
    RefusesNothing (optionsReader environment arguments) := by
  unfold optionsReader
  split
  · exact refusesNothing_declaredOptions
  · exact refusesNothing_none

/-- **The table of a run without its options** does not depend on whether options are asked for. -/
theorem map_withoutOptions_table (environment : Environment) (fs : FileSystem)
    (arguments : Arguments) (asked : Bool) :
    (table environment fs { arguments with includeOptions := asked }).map
        RouteTable.withoutOptions =
      (table environment fs arguments).map RouteTable.withoutOptions := by
  -- Whichever way the table is given, its records without options are those that no reader gives.
  have file : ∀ arguments : Arguments, fs.isFile (.ofString arguments.target) = .ok true →
      (table environment fs arguments).map RouteTable.withoutOptions =
        .ok (.ofRoutes arguments.fileRoot
          [analyzeFile fs none arguments.target arguments.fileRoot]) := by
    intro arguments isFile
    have refuses := refusesNothing_optionsReader environment arguments
    rw [table_of_isFile isFile, ← withoutOptions_analyzeFile refuses]
    exact congrArg Except.ok (RouteTable.ofRoutes_map_withoutOptions _ [_]).symm
  have directory : ∀ arguments : Arguments, fs.isFile (.ofString arguments.target) = .ok false →
      (table environment fs arguments).map RouteTable.withoutOptions =
        (analyzeDirectory environment fs none arguments.maxWorkers arguments.target).map
          (.ofRoutes arguments.target) := by
    intro arguments isFile
    have refuses := refusesNothing_optionsReader environment arguments
    rw [table_of_not_isFile isFile, ← map_withoutOptions_analyzeDirectory refuses]
    cases analyzeDirectory environment fs (optionsReader environment arguments)
      arguments.maxWorkers arguments.target with
    | error failure => rfl
    | ok routes => exact congrArg Except.ok (RouteTable.ofRoutes_map_withoutOptions _ _).symm
  cases isFile : fs.isFile (.ofString arguments.target) with
  | error failure =>
    rw [table_of_error isFile, table_of_error]
    exact isFile
  | ok isFile' =>
    cases isFile' with
    | true =>
      rw [file arguments isFile, file]
      · rfl
      · exact isFile
    | false =>
      rw [directory arguments isFile, directory]
      exact isFile

/-- Outcomes **look alike**: both fail in the same way, or both runs end with the same exit code
and, unless they print JSON, with the same output. -/
inductive LookAlike (json : Bool) : Except Failure Outcome → Except Failure Outcome → Prop where
  /-- Both fail. -/
  | failed (failure : Failure) : LookAlike json (.error failure) (.error failure)
  /-- Both come to their end. -/
  | completed {completion completion' : Completion}
    (exitCode : completion.exitCode = completion'.exitCode)
    (output : json = false → completion.output = completion'.output) :
    LookAlike json (.ok (.completed completion)) (.ok (.completed completion'))

/-- What is shown of two tables that agree but for options looks alike. -/
theorem lookAlike_outcomeOf (parsed : Arguments) (asked : Bool) {shown shown' : RouteTable}
    (same : shown'.withoutOptions = shown.withoutOptions) :
    LookAlike parsed.json (.ok (outcomeOf { parsed with includeOptions := asked } shown'))
      (.ok (outcomeOf parsed shown)) := by
  have routes : shown'.routes.map Route.withoutOptions =
      shown.routes.map Route.withoutOptions := congrArg RouteTable.routes same
  refine .completed ?_ fun table => ?_
  · show exitCode parsed shown'.routes = exitCode parsed shown.routes
    rw [← exitCode_map_withoutOptions, routes, exitCode_map_withoutOptions]
  · have text : shown'.text = shown.text := by
      rw [← RouteTable.text_withoutOptions, same, RouteTable.text_withoutOptions]
    simp only [table, text, Bool.false_eq_true, if_false]

/-- **Runs look alike with and without options.** -/
theorem lookAlike_run (load : Loader) (environment : Environment) (fs : FileSystem)
    {arguments arguments' : List String} {parsed : Arguments} {asked : Bool}
    (given : Arguments.parse arguments = .run parsed)
    (given' : Arguments.parse arguments' = .run { parsed with includeOptions := asked }) :
    LookAlike parsed.json (run load environment fs arguments').outcome
      (run load environment fs arguments).outcome := by
  have same := map_withoutOptions_table (load fs environment) fs parsed asked
  cases known : table (load fs environment) fs parsed with
  | error failure =>
    rw [known] at same
    cases known' : table (load fs environment) fs { parsed with includeOptions := asked } with
    | ok shown' =>
      rw [known'] at same
      cases same
    | error failure' =>
      rw [known'] at same
      obtain rfl : failure' = failure := Except.error.inj same
      rw [outcome_run_of_error given known, outcome_run_of_error given' known']
      exact .failed failure'
  | ok shown =>
    rw [known] at same
    cases known' : table (load fs environment) fs { parsed with includeOptions := asked } with
    | error failure' =>
      rw [known'] at same
      cases same
    | ok shown' =>
      rw [known'] at same
      have same : shown'.withoutOptions = shown.withoutOptions := Except.ok.inj same
      -- Both reports go to the same file.
      have output := failure_writeReport fs parsed.output shown'.report shown.report
      cases written : (writeReport fs parsed.output shown.report).failure with
      | some failure =>
        rw [outcome_run_of_unwritten given known written,
          outcome_run_of_unwritten given' known' (output.trans written)]
        exact .failed failure
      | none =>
        rw [outcome_run_of_written given known written,
          outcome_run_of_written given' known' (output.trans written)]
        exact lookAlike_outcomeOf parsed asked same

/-- **Reading options changes nothing but options.** For every directory the analysis answers with
options exactly when it does without them, which is when the system finds neither the root nor any
path that is met too long. The two lists have the same length, agree at every position on everything
else, and have the same counts. Two runs whose arguments differ in the option for reading options
look alike: they fail in the same way, or end with the same exit code and, unless they print JSON,
the same table; and in front of any arguments that option changes nothing else in them. From every
text no options are read, or such as are accepted where records are checked. -/
theorem reading_options (load : Loader) (environment : Environment) (fs : FileSystem) :
    (∀ workers root,
      ((∃ routes, analyzeDirectory environment fs (some declaredOptions) workers root =
          .ok routes) ↔
        ¬ fs.IsTooLong (.ofString root) ∧ MeetsOnlyShort fs (.ofString root)) ∧
      ((∃ routes, analyzeDirectory environment fs none workers root = .ok routes) ↔
        ¬ fs.IsTooLong (.ofString root) ∧ MeetsOnlyShort fs (.ofString root)) ∧
      ∀ routes routes',
        analyzeDirectory environment fs (some declaredOptions) workers root = .ok routes →
        analyzeDirectory environment fs none workers root = .ok routes' →
        routes.length = routes'.length ∧
          List.Forall₂ (fun route route' => route.filePath = route'.filePath ∧
            route.urlPath = route'.urlPath ∧ route.method = route'.method ∧
            route.hasHandler = route'.hasHandler ∧ route.hasOptions = route'.hasOptions ∧
            route.exports = route'.exports ∧ route.errors = route'.errors) routes routes' ∧
          Summary.ofRoutes routes = Summary.ofRoutes routes') ∧
    (∀ arguments arguments' parsed asked, Arguments.parse arguments = .run parsed →
      Arguments.parse arguments' = .run { parsed with includeOptions := asked } →
      LookAlike parsed.json (run load environment fs arguments').outcome
        (run load environment fs arguments).outcome) ∧
    (∀ arguments, Arguments.parse ("--include-options" :: arguments) =
      (Arguments.parse arguments).reading) ∧
    ∀ source, ∃ parsed, declaredOptions source = .ok parsed ∧
      ∀ options ∈ parsed, RouteOptions.reader options.toJson = .valid options := by
  refine ⟨fun workers root => ⟨exists_analyzeDirectory_eq_ok_iff,
    exists_analyzeDirectory_eq_ok_iff, fun routes routes' analyzed analyzed' => ?_⟩,
    fun arguments arguments' parsed asked given given' =>
      lookAlike_run load environment fs given given',
    Arguments.parse_includeOptions, declaredOptions_valid⟩
  have without : (analyzeDirectory environment fs (some declaredOptions) workers root).map
      (List.map Route.withoutOptions) = analyzeDirectory environment fs none workers root :=
    map_withoutOptions_analyzeDirectory refusesNothing_declaredOptions workers root
  rw [analyzed, analyzed'] at without
  obtain rfl : routes.map Route.withoutOptions = routes' := Except.ok.inj without
  refine ⟨(List.length_map _).symm, ?_, (Summary.ofRoutes_map_withoutOptions routes).symm⟩
  rw [List.forall₂_map_right_iff, List.forall₂_same]
  exact fun route _ => Route.withoutOptions_eq_iff.1 rfl

/-- The text of a route file that declares a summary. -/
def describedSource : List Char := "export const options = \x7b summary: 'All' \x7d".toList

/-- A tree with one file, which declares options. -/
def describedFiles : FileSystem :=
  ⟨[(["r"], .directory), (["r", "a.ts"], .file (Text.Utf8.encode describedSource))], []⟩

/-- That file is found. -/
theorem discover_describedFiles :
    describedFiles.status (.ofString "r") = .ok (["r"], .directory) ∧
      discover describedFiles "r" = .ok ["r/a.ts"] := by
  have reached : describedFiles.status (.ofString "r") = .ok (["r"], .directory) :=
    FileSystem.status_name (by decide) (by decide) rfl rfl (fun target => nofun) (by decide)
  have tree : describedFiles.IsTree ["r"] :=
    FileSystem.isTree_of_forall_mem (by decide) (by simp [describedFiles]) ["r"]
  have ascending : [["a.ts"]].Pairwise (· < ·) := by decide
  refine ⟨reached, ?_⟩
  rw [discover_eq_of_entries reached tree ascending (by decide) (by decide) (by decide)]
  decide

/-- The file is read as it was written. -/
theorem readSource_describedFiles : readSource describedFiles "r/a.ts" = .ok describedSource := by
  have path : Path.ofString "r/a.ts" = (Path.ofString "r").child "a.ts" := by decide
  have reached : describedFiles.status (.ofString "r/a.ts") =
      .ok (["r", "a.ts"], .file (Text.Utf8.encode describedSource)) := by
    rw [path]
    exact FileSystem.status_child discover_describedFiles.1 (by decide) rfl (fun target => nofun)
      (by decide)
  have stored : describedFiles.bytes (.ofString "r/a.ts") =
      .ok (Text.Utf8.encode describedSource) := by
    rw [FileSystem.bytes, reached]
    rfl
  exact readSource_of_encode stored

/-- Runs for that tree with the option for reading options and without it. Options are read by the
first one only, and the two look alike. -/
theorem reading_options_describedFiles :
    (∃ routes routes',
      analyzeDirectory Environment.empty describedFiles (some declaredOptions) none "r" =
        .ok routes ∧
      analyzeDirectory Environment.empty describedFiles none none "r" = .ok routes' ∧
      routes ≠ routes' ∧ routes.length = routes'.length ∧
      Summary.ofRoutes routes = Summary.ofRoutes routes') ∧
    ∃ completion completion',
      (run (.keeping .empty) .empty describedFiles ["--include-options", "r"]).outcome =
        .ok (.completed completion) ∧
      (run (.keeping .empty) .empty describedFiles ["r"]).outcome = .ok (.completed completion') ∧
      completion.exitCode = completion'.exitCode ∧ completion.output = completion'.output := by
  obtain ⟨reached, found⟩ := discover_describedFiles
  have analyzed : ∀ environment reader workers,
      analyzeDirectory environment describedFiles reader workers "r" =
        .ok (recordsOf describedFiles reader "r" ["r/a.ts"]) := fun environment reader workers =>
    analyzeDirectory_of_discover reached found
  have differ : recordsOf describedFiles (some declaredOptions) "r" ["r/a.ts"] ≠
      recordsOf describedFiles none "r" ["r/a.ts"] := by
    intro same
    have declared : (RouteOptions.ofSource? describedSource).isSome = true := by decide +kernel
    have record : analyzeFile describedFiles (some declaredOptions) "r/a.ts" "r" =
        analyzeFile describedFiles none "r/a.ts" "r" := by simpa [recordsOf] using same
    rw [analyzeFile_of_readSource readSource_describedFiles,
      analyzeFile_of_readSource readSource_describedFiles] at record
    have options := (options_analyzeSource _ _ _).symm.trans (congrArg Route.options record)
    rw [options] at declared
    cases declared
  have given : Arguments.parse ["r"] = .run (.ofTarget "r") := by decide
  have given' : Arguments.parse ["--include-options", "r"] =
      .run { Arguments.ofTarget "r" with includeOptions := true } := by decide
  have known : ∀ asked, table (Loader.keeping .empty describedFiles .empty) describedFiles
      { Arguments.ofTarget "r" with includeOptions := asked } = .ok _ := fun asked =>
    table_of_directory reached (analyzed _ _ _)
  have completed := outcome_run_of_written given (known false) rfl
  have completed' := outcome_run_of_written given' (known true) rfl
  obtain ⟨directories, runs, -⟩ := reading_options (.keeping .empty) .empty describedFiles
  obtain ⟨-, -, agree⟩ := directories none "r"
  obtain ⟨length, -, counts⟩ := agree _ _ (analyzed _ _ _) (analyzed _ _ _)
  have alike := runs _ _ _ true given given'
  rw [completed, completed'] at alike
  cases alike with
  | completed exitCode output =>
    exact ⟨⟨_, _, analyzed _ _ _, analyzed _ _ _, differ, length, counts⟩, _, _, completed',
      completed, exitCode, output rfl⟩

end CommandLine

end FileRoutes
