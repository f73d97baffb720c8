import FileRoutes.Analysis.File
import FileRoutes.Proofs.FileSystem.Tree
import FileRoutes.Proofs.Resolution

/-! # What every record keeps

A file is read and its text analysed, or its record says why it is not (`analyzeFile_cases`). Either
way the record is **consistent** (`Route.IsConsistent`): its method, its flags, its exports, its
options and its problems agree with one another, whatever the file holds and whatever the reader of
options does with it (`isConsistent_analyzeFile`). The three parts that a record is made of are
looked at one by one: the passes that find exports (`Export.inPasses_allIn`), the resolution, and
the reading of options (`readOptions_cases`). -/

namespace FileRoutes

/-! ## Exports in passes -/

namespace Export

/-- Exports stand **in the order of the passes**: constants, functions, at most one default export,
re-exported names. -/
def InPasses (exports : List Export) : Prop :=
  ∃ values functions defaults named, exports = values ++ functions ++ defaults ++ named ∧
    (∀ seen ∈ values, seen.kind = .variable) ∧ (∀ seen ∈ functions, seen.kind = .function) ∧
    (defaults.length ≤ 1 ∧ ∀ seen ∈ defaults, seen.kind = .default) ∧
    ∀ seen ∈ named, seen.kind = .named

/-- A pass finds exports of its own kind. -/
theorem kind_of_mem_map (form : String → Export) {kind : ExportKind}
    (hasKind : ∀ name, (form name).kind = kind) {names : List String} :
    ∀ seen ∈ names.map form, seen.kind = kind := by
  intro seen member
  obtain ⟨name, -, rfl⟩ := List.mem_map.1 member
  exact hasKind name

/-- **The exports of a text stand in the order of the passes.** -/
theorem inPasses_allIn (source : List Char) : InPasses (allIn source) := by
  refine ⟨valuesIn source, functionsIn source, defaultIn source, namedIn source, rfl,
    kind_of_mem_map ofValue fun _ => rfl, kind_of_mem_map ofFunction fun _ => rfl, ?_,
    kind_of_mem_map ofNamed fun _ => rfl⟩
  unfold defaultIn
  split
  · exact ⟨Nat.zero_le 1, fun seen member => by cases member⟩
  · refine ⟨Nat.le_refl 1, fun seen member => ?_⟩
    obtain rfl := List.mem_singleton.1 member
    rfl

end Export

/-! ## Reading options -/

/-- **What reading the options gives**: nothing, or what the reader finds, or one problem when it
refuses. Something is read only when an export describes the route. -/
theorem readOptions_cases (reader : Option OptionsReader) (resolution : Resolution)
    (source : List Char) :
    readOptions reader resolution source = (none, []) ∨
    resolution.hasOptions = true ∧
      ((∃ options, readOptions reader resolution source = (options, [])) ∨
        ∃ message, readOptions reader resolution source = (none, [.ofMessage message])) := by
  unfold readOptions
  cases reader with
  | none => exact .inl rfl
  | some read =>
    dsimp only
    split
    next described =>
      refine .inr ⟨described, ?_⟩
      cases read source with
      | ok options => exact .inl ⟨options, rfl⟩
      | error message => exact .inr ⟨_, rfl⟩
    next => exact .inl rfl

/-! ## Records -/

/-- A record is **consistent** when its parts agree with one another. -/
structure Route.IsConsistent (route : Route) : Prop where
  /-- The method is a verb in capitals, or there is none. -/
  method : route.method = "" ∨
    route.method ∈ ["GET", "POST", "PUT", "PATCH", "DELETE", "HEAD", "OPTIONS"]
  /-- There is a handler exactly when there is a method. -/
  hasHandler_iff : route.hasHandler = true ↔ route.method ≠ ""
  /-- The route is described exactly when an export does so. -/
  hasOptions_iff : route.hasOptions = true ↔ ∃ seen ∈ route.exports, seen.role = some .options
  /-- The exports stand in the order of the passes. -/
  exports : Export.InPasses route.exports
  /-- There is at most one problem, and it is about the file as a whole. -/
  errors : route.errors.length ≤ 1 ∧
    ∀ problem ∈ route.errors, problem.line = none ∧ problem.column = none
  /-- Options are given only for a route that is described, and not beside a problem. -/
  options : route.options ≠ none → route.hasOptions = true ∧ route.errors = []

/-- The word of a verb is one of the words for verbs. -/
theorem Verb.word_mem (verb : Verb) :
    verb.word ∈ ["GET", "POST", "PUT", "PATCH", "DELETE", "HEAD", "OPTIONS"] := by
  cases verb <;> decide

/-- The record of a file that cannot be read is consistent. -/
theorem Route.isConsistent_unreadable (filePath urlPath message : String) :
    (Route.unreadable filePath urlPath (.ofMessage message)).IsConsistent where
  method := .inl rfl
  hasHandler_iff := by simp [Route.unreadable]
  hasOptions_iff := by simp [Route.unreadable]
  exports := ⟨[], [], [], [], by simp [Route.unreadable]⟩
  errors := by simp [Route.unreadable, Problem.ofMessage]
  options := fun given => absurd rfl given

/-- The record of a file with a given text is consistent. -/
theorem isConsistent_analyzeSource (reader : Option OptionsReader) (filePath urlPath : String)
    (source : List Char) : (analyzeSource reader filePath urlPath source).IsConsistent where
  method := by
    show Resolution.method _ = "" ∨ Resolution.method _ ∈ _
    rw [Resolution.method]
    cases (Resolution.ofExports (Export.allIn source)).verb with
    | none => exact .inl rfl
    | some verb => exact .inr verb.word_mem
  hasHandler_iff := Resolution.hasHandler_iff_method (Export.allIn source)
  hasOptions_iff := Resolution.hasOptions_ofExports (Export.allIn source)
  exports := Export.inPasses_allIn source
  errors := by
    rcases readOptions_cases reader (Resolution.ofExports (Export.allIn source)) source with
      silent | ⟨-, ⟨options, found⟩ | ⟨message, refused⟩⟩
    · simp [analyzeSource, silent]
    · simp [analyzeSource, found]
    · simp [analyzeSource, refused, Problem.ofMessage]
  options := by
    rcases readOptions_cases reader (Resolution.ofExports (Export.allIn source)) source with
      silent | ⟨described, ⟨options, found⟩ | ⟨message, refused⟩⟩
    · simp [analyzeSource, silent]
    · simp [analyzeSource, found, described]
    · simp [analyzeSource, refused]

/-! ## Files -/

section File

variable {fs : FileSystem} {file : String}

/-- The analysis of a file that can be read is that of its text. -/
theorem analyzeFile_of_readSource {source : List Char} (read : readSource fs file = .ok source)
    (reader : Option OptionsReader) (root : String) :
    analyzeFile fs reader file root =
      analyzeSource reader file (UrlPath.urlPath file root) source := by
  unfold analyzeFile
  simp only [read]

/-- The record of a file that is not read says why. -/
theorem analyzeFile_of_error {failure : ReadFailure} (unread : readSource fs file = .error failure)
    (reader : Option OptionsReader) (root : String) :
    analyzeFile fs reader file root = .unreadable file (UrlPath.urlPath file root)
      (.ofMessage ("Failed to read file: " ++ failure.message)) := by
  unfold analyzeFile
  simp only [unread]

/-- **The record of a file** is that of its text, or says why the file is not read. -/
theorem analyzeFile_cases (fs : FileSystem) (reader : Option OptionsReader) (file root : String) :
    (∃ source, readSource fs file = .ok source ∧ analyzeFile fs reader file root =
      analyzeSource reader file (UrlPath.urlPath file root) source) ∨
    ∃ failure, readSource fs file = .error failure ∧ analyzeFile fs reader file root =
      .unreadable file (UrlPath.urlPath file root)
        (.ofMessage ("Failed to read file: " ++ failure.message)) := by
  cases read : readSource fs file with
  | ok source => exact .inl ⟨source, rfl, analyzeFile_of_readSource read reader root⟩
  | error failure => exact .inr ⟨failure, rfl, analyzeFile_of_error read reader root⟩

/-- The paths in a record follow from those that are given. -/
theorem paths_analyzeFile (fs : FileSystem) (reader : Option OptionsReader) (file root : String) :
    (analyzeFile fs reader file root).filePath = file ∧
      (analyzeFile fs reader file root).urlPath = UrlPath.urlPath file root := by
  rcases analyzeFile_cases fs reader file root with ⟨source, -, equal⟩ | ⟨failure, -, equal⟩
  all_goals
    rw [equal]
    exact ⟨rfl, rfl⟩

/-- Every record is consistent. -/
theorem isConsistent_record (fs : FileSystem) (reader : Option OptionsReader) (file root : String) :
    (analyzeFile fs reader file root).IsConsistent := by
  rcases analyzeFile_cases fs reader file root with ⟨source, -, equal⟩ | ⟨failure, -, equal⟩
  · exact equal ▸ isConsistent_analyzeSource reader file _ source
  · exact equal ▸ Route.isConsistent_unreadable _ _ _

/-- What is read from a file follows from its bytes. -/
theorem readSource_of_bytes {bytes : List UInt8}
    (holds : fs.bytes (.ofString file) = .ok bytes) :
    readSource fs file =
      ((Text.Utf8.decode bytes).mapError .undecodable).map Text.unifyLineEndings := by
  rw [readSource, holds]
  rfl

/-- A file whose bytes are no UTF-8, or that has none, is not read. -/
theorem exists_readSource_eq_error (unreadable : ∀ bytes text,
    fs.bytes (.ofString file) = .ok bytes → Text.Utf8.decode bytes ≠ .ok text) :
    ∃ failure, readSource fs file = .error failure := by
  cases reached : fs.bytes (.ofString file) with
  | error failure =>
    rw [readSource, reached]
    exact ⟨_, rfl⟩
  | ok bytes =>
    cases decoded : Text.Utf8.decode bytes with
    | error fault =>
      refine ⟨.undecodable fault, ?_⟩
      rw [readSource_of_bytes reached, decoded]
      rfl
    | ok text => exact absurd decoded (unreadable bytes text reached)

end File

/-- **Every record is consistent**, for all file systems, paths and readers of options. The record
of a file that has no bytes, or bytes that are no UTF-8, says nothing but that, in one problem. -/
theorem isConsistent_analyzeFile (fs : FileSystem) (reader : Option OptionsReader)
    (file root : String) :
    (analyzeFile fs reader file root).IsConsistent ∧
      ((∀ bytes text, fs.bytes (.ofString file) = .ok bytes → Text.Utf8.decode bytes ≠ .ok text) →
        (analyzeFile fs reader file root).method = "" ∧
          (analyzeFile fs reader file root).hasHandler = false ∧
          (analyzeFile fs reader file root).hasOptions = false ∧
          (analyzeFile fs reader file root).options = none ∧
          (analyzeFile fs reader file root).exports = [] ∧
          (analyzeFile fs reader file root).errors.length = 1) := by
  refine ⟨isConsistent_record fs reader file root, fun unreadable => ?_⟩
  obtain ⟨failure, unread⟩ := exists_readSource_eq_error unreadable
  rw [analyzeFile_of_error unread]
  exact ⟨rfl, rfl, rfl, rfl, rfl, rfl⟩

/-- A file system with a file that is no UTF-8. -/
def damagedFiles : FileSystem := ⟨[(["a.ts"], .file [0xFF])], []⟩

/-- Its record says so, and nothing else. -/
theorem isConsistent_analyzeFile_damaged :
    (∀ bytes text, damagedFiles.bytes (.ofString "a.ts") = .ok bytes →
      Text.Utf8.decode bytes ≠ .ok text) ∧
    (analyzeFile damagedFiles (some declaredOptions) "a.ts" "").IsConsistent ∧
      (analyzeFile damagedFiles (some declaredOptions) "a.ts" "").exports = [] ∧
      (analyzeFile damagedFiles (some declaredOptions) "a.ts" "").errors.length = 1 := by
  have reached : damagedFiles.status (.ofString "a.ts") = .ok (["a.ts"], .file [0xFF]) :=
    FileSystem.status_name (by decide) (by decide) rfl rfl (fun target => nofun) (by decide)
  have unreadable : ∀ bytes text, damagedFiles.bytes (.ofString "a.ts") = .ok bytes →
      Text.Utf8.decode bytes ≠ .ok text := by
    intro bytes text given
    rw [FileSystem.bytes, reached] at given
    obtain rfl : [0xFF] = bytes := Except.ok.inj given
    exact fun decoded => nomatch decoded
  obtain ⟨consistent, empty⟩ :=
    isConsistent_analyzeFile damagedFiles (some declaredOptions) "a.ts" ""
  obtain ⟨-, -, -, -, exports, errors⟩ := empty unreadable
  exact ⟨unreadable, consistent, exports, errors⟩

/-- A file system with **one file**. -/
def onlyFile (bytes : List UInt8) : FileSystem := ⟨[(["a.ts"], .file bytes)], []⟩

/-- The file is found where it stands. -/
theorem status_onlyFile (bytes : List UInt8) :
    (onlyFile bytes).status (.ofString "a.ts") = .ok (["a.ts"], .file bytes) :=
  FileSystem.status_name (by decide) (by decide) rfl rfl (fun target => nofun) (by decide)

/-- It holds its bytes. -/
theorem bytes_onlyFile (bytes : List UInt8) :
    (onlyFile bytes).bytes (.ofString "a.ts") = .ok bytes := by
  rw [FileSystem.bytes, status_onlyFile]
  rfl

end FileRoutes
