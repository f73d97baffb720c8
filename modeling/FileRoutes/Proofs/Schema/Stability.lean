import FileRoutes.Proofs.Analysis.Directory
import FileRoutes.Proofs.Options.Valid

/-! # Dumps are read back

Reading is **stable under dumping**: a record that is read from any JSON value is read again, the
same, from its dumps (`Schema.Shape.reader_dump`). It is so for all shapes and under either naming,
since the records that are read are the valid ones (`Schema.Shape.exists_read_iff`), and those are
restored. The records of files are valid too (`isValid_analyzeFile`), unless the reader of options
makes up statuses that no response can have. -/

namespace FileRoutes

open Schema

/-! ## The records of files -/

/-- A reader of options **reads valid options** when it reads no others. -/
def ReadsValid (reader : Option OptionsReader) : Prop :=
  ∀ read ∈ reader, ∀ source options, read source = .ok (some options) → options.IsValid

/-- The reader of declared options reads valid options. -/
theorem readsValid_declaredOptions : ReadsValid (some declaredOptions) := by
  intro read member source options found response inside
  obtain rfl := Option.some.inj member
  exact RouteOptions.isStatus_of_ofSource? (Except.ok.inj found) inside

/-- The options of a record are valid when those that are read are. -/
theorem ReadsValid.readOptions {reader : Option OptionsReader} (reads : ReadsValid reader)
    (resolution : Resolution) (source : List Char) :
    ∀ options ∈ (readOptions reader resolution source).1, options.IsValid := by
  intro options member
  unfold FileRoutes.readOptions at member
  cases reader with
  | none => cases member
  | some read =>
    dsimp only at member
    split at member
    · cases found : read source with
      | ok answer =>
        rw [found] at member
        obtain rfl : answer = some options := member
        exact reads read rfl source options found
      | error message =>
        rw [found] at member
        cases member
    · cases member

/-- **The record of a file is valid** when the options that are read are. -/
theorem isValid_analyzeFile {reader : Option OptionsReader} (reads : ReadsValid reader)
    (fs : FileSystem) (file root : String) : (analyzeFile fs reader file root).IsValid where
  urlPath := by
    rw [(paths_analyzeFile fs reader file root).2]
    exact UrlPath.head?_urlPath file root
  options := by
    rcases analyzeFile_cases fs reader file root with ⟨source, -, equal⟩ | ⟨failure, -, equal⟩
    · rw [equal]
      exact reads.readOptions _ source
    · rw [equal]
      exact fun options member => by cases member
  errors problem member := by
    obtain ⟨line, column⟩ := (isConsistent_record fs reader file root).errors.2 problem member
    exact ⟨by simp [line], by simp [column]⟩

/-! ## All records -/

/-- **The records that are read** are the valid ones. -/
theorem Schema.Shape.exists_read_iff (shape : Shape) (record : shape.Record) :
    (∃ json, shape.reader json = .valid record) ↔ shape.IsValid record :=
  (shape.restores .byAlias).exists_read_iff

/-- **Reading is stable under dumping.** Whatever JSON value a record is read from, it is valid, and
it is read again from both of its dumps. All valid records are, however they came about. In
particular the record of a file is, when the reader of options reads valid options, and so is every
summary. -/
theorem Schema.Shape.reader_dump :
    (∀ (shape : Shape) (json : Json) (record : shape.Record),
      shape.reader json = .valid record →
        shape.IsValid record ∧
          ∀ naming, shape.reader (shape.dump naming record) = .valid record) ∧
    (∀ (shape : Shape) (record : shape.Record), shape.IsValid record →
      ∀ naming, shape.reader (shape.dump naming record) = .valid record) ∧
    (∀ fs reader file root, ReadsValid reader → ∀ naming,
      Route.reader ((analyzeFile fs reader file root).dump naming) =
        .valid (analyzeFile fs reader file root)) ∧
    ∀ routes, Summary.reader (Summary.ofRoutes routes).toJson =
      .valid (Summary.ofRoutes routes) := by
  have restored : ∀ (shape : Shape) (record : shape.Record), shape.IsValid record →
      ∀ naming, shape.reader (shape.dump naming record) = .valid record :=
    fun shape record valid naming => (shape.restores naming).read_encode record valid
  refine ⟨fun shape json record read => ?_, restored, fun fs reader file root reads => ?_,
    fun routes => ?_⟩
  · have valid := (shape.exists_read_iff record).1 ⟨json, read⟩
    exact ⟨valid, restored shape record valid⟩
  · exact restored .route _ (isValid_analyzeFile reads fs file root)
  · exact restored .summary _ trivial .byAlias

/-- A route with parts in other words: a truth value and integers as strings, a truth value in place
of an integer, and a schema under the name of its field. -/
def looseRoute : Json :=
  .obj [ ("file_path", .str "a.ts"), ("url_path", .str "/a"), ("has_handler", .str "Yes"),
    ("options", .obj [("response_schemas", .arr
      [.obj [("status_code", .str " 204 "), ("schema_ref", .str "S")]])]),
    ("errors", .arr [.obj [("message", .str "m"), ("line", .bool true)]]) ]

/-- The record that is read from it. -/
def tightRoute : Route :=
  { filePath := "a.ts", urlPath := "/a", method := "", hasHandler := true, hasOptions := false
    options := some ⟨none, none, none, none, [⟨204, "S", none⟩]⟩
    exports := [], errors := [⟨"m", some 1, none⟩] }

/-- Its dumps, and the records of files with their declared options. -/
theorem Schema.Shape.reader_dump_looseRoute :
    Shape.reader .route looseRoute = .valid tightRoute ∧
      Route.reader (tightRoute.dump .byField) = .valid tightRoute ∧
      ReadsValid (some declaredOptions) ∧
      Route.reader ((analyzeFile ⟨[], []⟩ (some declaredOptions) "a.ts" "").dump .byAlias) =
        .valid (analyzeFile ⟨[], []⟩ (some declaredOptions) "a.ts" "") := by
  have read : Shape.reader .route looseRoute = .valid tightRoute := by
    show Route.reader looseRoute = .valid tightRoute
    decide +kernel
  obtain ⟨stable, -, files, -⟩ := Shape.reader_dump
  exact ⟨read, (stable .route looseRoute tightRoute read).2 .byField, readsValid_declaredOptions,
    files ⟨[], []⟩ (some declaredOptions) "a.ts" "" readsValid_declaredOptions .byAlias⟩

end FileRoutes
