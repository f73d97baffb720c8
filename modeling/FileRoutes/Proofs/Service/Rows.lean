import FileRoutes.Proofs.Analysis.Mounting
import FileRoutes.Proofs.Service.Open

/-! # The rows of a table, one by one

Where no routes root is set, the service answers for every row of a table when it is asked for the
file of the row below the routes root of the table (`respond_row_iff`). Both requests come to the
same analysis of the file, but for its path: that of a request is trimmed, and that of a row is put
together from the names that are listed. Since the path of a route file ends in an extension
(`exists_suffix_of_mem_discover`), it loses blanks in front only and never vanishes
(`exists_given?_of_getLast?`). So the answer is the row itself unless the path begins with a blank,
and it can (`respond_row_blank`). -/

namespace FileRoutes

/-! ## The end of a path -/

section Ends

variable {fs : FileSystem}

/-- The text of a path that is found ends in a route extension. -/
theorem Finds.exists_suffix_text {directory : Path} {names : List String}
    (found : Finds fs directory names) :
    ∃ extension ∈ UrlPath.extensions, extension <:+ (directory.descend names).text.toList := by
  induction found with
  | @here directory name _ _ isRouteFile =>
    obtain ⟨extension, member, stem, something, whole⟩ := isRouteFileName_iff.1 isRouteFile
    have named : name ≠ "" := by
      rintro rfl
      exact something (List.append_eq_nil_iff.1 whole.symm).1
    -- The name stands at the end of the text, whatever the directory is.
    obtain ⟨front, text⟩ := directory.exists_text_descend_concat []
    refine ⟨extension, member, front ++ stem, ?_⟩
    rw [List.append_assoc, ← whole, ← text name named, List.nil_append]
  | inside _ _ _ ih =>
    rw [Path.descend_cons]
    exact ih

/-- **Every file that is listed ends in a route extension.** -/
theorem exists_suffix_of_mem_discover {root file : String} {files : List String}
    (found : discover fs root = .ok files) (member : file ∈ files) :
    ∃ extension ∈ UrlPath.extensions, extension <:+ file.toList := by
  obtain ⟨paths, searched, rfl⟩ := exists_discoverBelow_of_discover found
  obtain ⟨lists, rfl, -, members⟩ := areInOrder_discoverBelow searched
  obtain ⟨path, inside, rfl⟩ := List.mem_map.1 member
  obtain ⟨names, listed, rfl⟩ := List.mem_map.1 inside
  exact ((members names).1 listed).exists_suffix_text

/-- A route extension ends in a letter. -/
theorem UrlPath.isBlank_getLast?_of_mem_extensions :
    ∀ extension ∈ extensions, extension ≠ [] ∧
      ∀ c ∈ extension.getLast?, Text.isBlank c = false := by
  simp [extensions, Text.isBlank]

/-- A text with a route extension does not end in a blank. -/
theorem UrlPath.isBlank_getLast?_of_suffix {text : List Char}
    (ends : ∃ extension ∈ extensions, extension <:+ text) :
    text ≠ [] ∧ ∀ c ∈ text.getLast?, Text.isBlank c = false := by
  obtain ⟨extension, member, front, rfl⟩ := ends
  obtain ⟨nonempty, solid⟩ := isBlank_getLast?_of_mem_extensions extension member
  refine ⟨List.append_ne_nil_of_right_ne_nil front nonempty, ?_⟩
  rwa [List.getLast?_append_of_ne_nil front nonempty]

end Ends

namespace Service

/-! ## What a request gives -/

/-- **What was given is given again** when it is asked for. -/
theorem given?_of_given? {text : Option String} {given : String}
    (known : given? text = some given) : given? (some given) = some given := by
  unfold given? at known
  split at known
  next => cases known
  next something =>
    obtain rfl := Option.some.inj known
    have trimmed : Text.trim (Text.trimmed (text.getD "")).toList =
        (Text.trimmed (text.getD "")).toList := by
      rw [Text.trimmed, String.toList_ofList, Text.trim_trim]
    rw [given?_of_trim_eq trimmed, if_neg something]

/-- **A path that does not end in a blank** is given without the blanks in front of it. -/
theorem exists_given?_of_getLast? {text : String} (nonempty : text.toList ≠ [])
    (solid : ∀ c ∈ text.toList.getLast?, Text.isBlank c = false) :
    ∃ path, given? (some text) = some path ∧
      (path = text ↔ ∀ c ∈ text.toList.head?, Text.isBlank c = false) := by
  obtain ⟨cut, stays⟩ := Text.trim_of_getLast? nonempty solid
  have trimmed : Text.trimmed text = String.ofList (Text.trimStart text.toList) := by
    rw [Text.trimmed, cut]
  refine ⟨Text.trimmed text, ?_, ?_⟩
  · rw [given?, Option.getD_some]
    split
    next empty =>
      rw [trimmed, String.ofList_eq] at empty
      exact absurd empty stays
    next => rfl
  · rw [trimmed, String.ofList_eq, Text.trimStart_eq_self_iff]

/-! ## One row -/

/-- A record is written with the path of its file. -/
theorem filePath_toJson (route : Route) :
    route.toJson.member? "file_path" = some (.str route.filePath) := rfl

section Rows

variable {context : Context} (unset : context.environment.routesDir = none)

include unset

/-- The answer for a file that is listed below a root which was given is the record of the file
exactly when its path does not begin with a blank. -/
theorem exists_answer_of_listed {root file : String} {files : List String} {asked : Option Bool}
    (again : given? (some root) = some root)
    (found : discover context.fileSystem root = .ok files) (listed : file ∈ files)
    {body : Option Json} (valid : readBody FileRequest.fields body = .valid ⟨file, some root, asked⟩) :
    ∃ answer, respond context (.to .analyzeFile body) = .ok (.answer 200 answer) ∧
      (answer = (analyzeFile context.fileSystem (optionsReader context.environment asked) file
        root).toJson ↔ ∀ c ∈ file.toList.head?, Text.isBlank c = false) := by
  obtain ⟨nonempty, solid⟩ :=
    UrlPath.isBlank_getLast?_of_suffix (exists_suffix_of_mem_discover found listed)
  obtain ⟨path, given, same⟩ := exists_given?_of_getLast? nonempty solid
  refine ⟨(FileRequest.record ⟨file, some root, asked⟩ context.environment context.fileSystem
    path).toJson, ?_, ?_⟩
  · rw [respond_analyzeFile_eq valid given, isAllowed_of_unset unset]
    rfl
  · rw [FileRequest.record, again, Option.getD_some, ← same]
    constructor
    · -- The records of different files differ in the paths that are written.
      intro written
      have paths := congrArg (·.member? "file_path") written
      simp only [filePath_toJson, paths_analyzeFile] at paths
      exact Json.str.inj (Option.some.inj paths)
    · rintro rfl
      rfl

/-- **Rows are answered one by one.** Let no routes root be set, and let the service answer with a
table. When it is asked for the file of a row, below the routes root of the table and with options if
they were asked for with the table, it answers with a record; and that is the row exactly when the
path of the file does not begin with a blank. -/
theorem respond_row_iff {body : Option Json} {table : Json}
    (answered : respond context (.to .analyzeDirectory body) = .ok (.answer 200 table)) :
    ∃ request root rows, readBody DirectoryRequest.fields body = .valid request ∧
      table.member? "routes_dir" = some (.str root) ∧ table.member? "routes" = some (.arr rows) ∧
      ∀ row ∈ rows, ∃ file, row.member? "file_path" = some (.str file) ∧
        ∀ body', readBody FileRequest.fields body' =
            .valid ⟨file, some root, request.includeOptions⟩ →
          ∃ answer, respond context (.to .analyzeFile body') = .ok (.answer 200 answer) ∧
            (answer = row ↔ ∀ c ∈ file.toList.head?, Text.isBlank c = false) := by
  obtain ⟨request, root, routes, valid, asked, -, analyzed, rfl⟩ := respond_eq_answer_iff.1 answered
  refine ⟨request, root, routes.map Route.toJson, valid, rfl, rfl, fun row member => ?_⟩
  -- The routes root of the table can only have been given.
  rw [DirectoryRequest.root?, defaultRoot_eq_none unset, Option.or_none] at asked
  obtain ⟨route, inside, rfl⟩ := List.mem_map.1 member
  obtain ⟨files, found, file, listed, rfl⟩ := exists_file_of_mem_analyzeDirectory analyzed inside
  refine ⟨file, ?_, fun body' valid' => ?_⟩
  · rw [filePath_toJson, (paths_analyzeFile _ _ file root).1]
  · exact exists_answer_of_listed unset (given?_of_given? asked) found listed valid'

end Rows

/-- A service without a routes root, for the tree of `besideFiles`. -/
def besideContext : Context := ⟨Environment.empty, besideFiles, ⟨0, 0⟩⟩

/-- A row of the table of that tree, and the answer for its file. -/
theorem respond_row_iff_besideFiles :
    ∃ table rows row,
      respond besideContext (.to .analyzeDirectory
        (some (DirectoryRequest.toJson ⟨some "r", some true⟩))) = .ok (.answer 200 table) ∧
      table.member? "routes" = some (.arr rows) ∧ row ∈ rows ∧
      row.member? "file_path" = some (.str "r/x.ts") ∧
      respond besideContext (.to .analyzeFile
        (some (FileRequest.toJson ⟨"r/x.ts", some "r", some true⟩))) = .ok (.answer 200 row) := by
  have unset : besideContext.environment.routesDir = none := rfl
  have answered : respond besideContext (.to .analyzeDirectory
      (some (DirectoryRequest.toJson ⟨some "r", some true⟩))) = .ok (.answer 200
        (RouteTable.ofRoutes "r" (recordsOf besideFiles (optionsReader Environment.empty (some true))
          "r" ["r/x/index.tsx", "r/x.ts"])).toJson) :=
    respond_analyzeDirectory_of_unset unset (by decide) (by decide)
      (analyzeDirectory_of_discover status_besideFiles discover_besideFiles)
  obtain ⟨request, root, rows, valid, directory, listed, each⟩ := respond_row_iff unset answered
  -- The request, the root and the rows that are said to exist are those of this answer.
  obtain rfl : ⟨some "r", some true⟩ = request :=
    Schema.Checked.valid.inj ((DirectoryRequest.readBody_toJson _).symm.trans valid)
  obtain rfl : "r" = root := Json.str.inj (Option.some.inj directory)
  have member : (analyzeFile besideFiles (optionsReader Environment.empty (some true)) "r/x.ts"
      "r").toJson ∈ rows := by
    rw [← Json.arr.inj (Option.some.inj listed)]
    exact List.mem_map_of_mem (List.mem_mergeSort.2 (List.mem_map_of_mem (by simp)))
  obtain ⟨file, named, answers⟩ := each _ member
  rw [filePath_toJson, (paths_analyzeFile _ _ "r/x.ts" "r").1] at named
  obtain rfl : "r/x.ts" = file := Json.str.inj (Option.some.inj named)
  obtain ⟨answer, given, same⟩ := answers _ (FileRequest.readBody_toJson _)
  have row := same.2 (by simp [Text.isBlank])
  refine ⟨_, rows, _, answered, listed, member, ?_, row ▸ given⟩
  rw [filePath_toJson, (paths_analyzeFile _ _ "r/x.ts" "r").1]

/-! ## A file whose name begins with a blank -/

/-- A working directory with one route file, whose name begins with a space. -/
def blankFiles : FileSystem := ⟨[([" x.ts"], .file [])], []⟩

/-- A service without a routes root, for that directory. -/
def blankContext : Context := ⟨Environment.empty, blankFiles, ⟨0, 0⟩⟩

/-- Its files are those of the working directory. -/
theorem status_blankFiles : blankFiles.status (.ofString ".") = .ok ([], .directory) := by
  have path : Path.ofString "." = ⟨.relative, []⟩ := by decide
  rw [path]
  exact FileSystem.status_workingDirectory rfl

/-- The file is listed under its own name. -/
theorem discover_blankFiles : discover blankFiles "." = .ok [" x.ts"] := by
  have tree : blankFiles.IsTree [] :=
    FileSystem.isTree_of_forall_mem (by decide) (by simp [blankFiles]) []
  have ascending : [[" x.ts"]].Pairwise (· < ·) := by decide
  rw [discover_eq_of_entries status_blankFiles tree ascending (by decide) (by decide) (by decide)]
  decide

/-- **A row need not be the answer for its file**: the path in the row begins with a space, and the
file that the service then looks for is another one. -/
theorem respond_row_blank :
    ∃ table row answer,
      respond blankContext (.to .analyzeDirectory
        (some (DirectoryRequest.toJson ⟨some ".", none⟩))) = .ok (.answer 200 table) ∧
      table.member? "routes_dir" = some (.str ".") ∧
      table.member? "routes" = some (.arr [row]) ∧
      row.member? "file_path" = some (.str " x.ts") ∧
      respond blankContext (.to .analyzeFile
        (some (FileRequest.toJson ⟨" x.ts", some ".", none⟩))) = .ok (.answer 200 answer) ∧
      answer.member? "file_path" = some (.str "x.ts") ∧ answer ≠ row := by
  have unset : blankContext.environment.routesDir = none := rfl
  have answered : respond blankContext (.to .analyzeDirectory
      (some (DirectoryRequest.toJson ⟨some ".", none⟩))) = .ok (.answer 200
        (RouteTable.ofRoutes "." (recordsOf blankFiles (optionsReader Environment.empty none) "."
          [" x.ts"])).toJson) :=
    respond_analyzeDirectory_of_unset unset (by decide) (by decide)
      (analyzeDirectory_of_discover status_blankFiles discover_blankFiles)
  have single : recordsOf blankFiles (optionsReader Environment.empty none) "." [" x.ts"] =
      [analyzeFile blankFiles (optionsReader Environment.empty none) " x.ts" "."] := by
    rw [recordsOf, List.map_singleton, List.mergeSort_singleton]
  have valid := FileRequest.readBody_toJson ⟨" x.ts", some ".", none⟩
  have given : given? (some " x.ts") = some "x.ts" := by decide +kernel
  have alone : respond blankContext (.to .analyzeFile
      (some (FileRequest.toJson ⟨" x.ts", some ".", none⟩))) = .ok (.answer 200
        (FileRequest.record ⟨" x.ts", some ".", none⟩ Environment.empty blankFiles "x.ts").toJson) := by
    rw [respond_analyzeFile_eq valid given, isAllowed_of_unset unset]
    rfl
  rw [single] at answered
  have row := filePath_toJson
    (analyzeFile blankFiles (optionsReader Environment.empty none) " x.ts" ".")
  have answer := filePath_toJson
    (FileRequest.record ⟨" x.ts", some ".", none⟩ Environment.empty blankFiles "x.ts")
  rw [(paths_analyzeFile _ _ " x.ts" ".").1] at row
  rw [FileRequest.record, (paths_analyzeFile _ _ "x.ts" _).1] at answer
  refine ⟨_, _, _, answered, rfl, rfl, row, alone, answer, fun same => ?_⟩
  have paths := congrArg (·.member? "file_path") same
  simp only [row] at paths
  have files : "x.ts" = " x.ts" := Json.str.inj (Option.some.inj (answer.symm.trans paths))
  exact absurd files (by decide)

end Service

end FileRoutes
