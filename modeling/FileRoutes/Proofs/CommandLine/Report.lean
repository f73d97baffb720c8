import FileRoutes.Proofs.Analysis.Directory
import FileRoutes.Proofs.Analysis.Listing
import FileRoutes.Proofs.CommandLine.Run
import FileRoutes.Proofs.FileSystem.Writing
import FileRoutes.Proofs.Json.Plain
import FileRoutes.Proofs.Schema.Records
import FileRoutes.Proofs.Text.Utf8

/-! # The report is faithful

The report of a table is ASCII text, and reading it as JSON gives back the table, whatever texts
stand in its routes (`RouteTable.toNat_lt_of_mem_report`, `RouteTable.parse?_report`). A run prints
it as it is, and a file that it is written to holds it (`decode_writeReport`): the bytes of the file
are UTF-8 for the same text (`report_faithful`). -/

namespace FileRoutes

/-! ## The text of a report -/

namespace RouteTable

/-- **A report is in ASCII.** -/
theorem toNat_lt_of_mem_report {table : RouteTable} {c : Char} (member : c ∈ table.report.toList) :
    c.toNat < 0x80 := by
  have text : table.report.toList = Json.prettyChars 0 table.toJson ++ ['\n'] := by
    simp [report, Json.pretty]
  have plain : Json.ArePlain table.report.toList := by
    rw [text]
    exact Json.arePlain_append.2 ⟨Json.arePlain_prettyChars _ 0, by decide⟩
  exact (plain c member).toNat_lt

/-- **A report is read back** as the table. -/
theorem parse?_report (table : RouteTable) : Json.parse? table.report = some table.toJson :=
  Json.parse?_pretty table.toJson

/-- **A valid table is read back** from its report. -/
theorem reader_report {table : RouteTable} (valid : table.IsValid) :
    ∃ json, Json.parse? table.report = some json ∧ reader json = .valid table := by
  refine ⟨_, table.parse?_report, ?_⟩
  rw [← dump_byAlias]
  exact (restores .byAlias).read_encode table valid

end RouteTable

namespace CommandLine

/-! ## The file of a report -/

section Written

variable {fs : FileSystem} {output report : String}

/-- A report is written to its file when the parents of that have been made. -/
theorem writeReport_of_ne (asked : output ≠ "") :
    writeReport fs output report =
      (fs.makeDirectories (Path.ofString output).parent).andThen fun fs =>
        .ofStep fs (fs.writeFile (.ofString output) (Text.Utf8.encode report.toList)) := by
  rw [writeReport, if_neg asked]

/-- **A report that is written** stands in its file. -/
theorem decode_writeReport (asked : output ≠ "")
    (written : (writeReport fs output report).failure = none) :
    ∃ bytes, (writeReport fs output report).fileSystem.bytes (.ofString output) = .ok bytes ∧
      Text.Utf8.decode bytes = .ok report.toList := by
  rw [writeReport_of_ne asked] at written ⊢
  -- The parents could be made, so that what is left behind is what writing the file leaves.
  have last := Change.andThen_eq written
  rw [last] at written ⊢
  obtain ⟨after, wrote, step⟩ := Change.exists_of_ofStep written
  rw [step]
  exact ⟨_, FileSystem.bytes_writeFile wrote, Text.Utf8.decode_encode report.toList⟩

/-- **A report can be written** where the directory of its file is there and the path of the file
does not lead to a directory. -/
theorem failure_writeReport_of_isDirectory
    (isDirectory : fs.isDirectory (Path.ofString output).parent = .ok true) {landing : Landing}
    (found : fs.find true (.ofString output) = .ok landing)
    (noDirectory : landing.stored? ≠ some .directory) :
    (writeReport fs output report).failure = none := by
  by_cases asked : output = ""
  · rw [asked]
    rfl
  · rw [writeReport_of_ne asked, FileSystem.makeDirectories_of_isDirectory isDirectory]
    show (Change.ofStep fs (fs.writeFile _ (Text.Utf8.encode report.toList))).failure = none
    rw [FileSystem.writeFile_eq_ok_iff.2 ⟨landing, found, noDirectory, rfl⟩]
    rfl

end Written

/-! ## Runs -/

section Runs

variable {load : Loader} {environment : Environment} {fs : FileSystem} {arguments : List String}
  {parsed : Arguments} {shown : RouteTable} (given : Arguments.parse arguments = .run parsed)
  (known : table (load fs environment) fs parsed = .ok shown)

include given known

/-- **A run with a table comes to its end** exactly when its report can be written. -/
theorem exists_completed_iff :
    (∃ completion, (run load environment fs arguments).outcome = .ok (.completed completion)) ↔
      (writeReport fs parsed.output shown.report).failure = none := by
  constructor
  · rintro ⟨completion, completed⟩
    cases written : (writeReport fs parsed.output shown.report).failure with
    | none => rfl
    | some failure =>
      rw [outcome_run_of_unwritten given known written] at completed
      cases completed
  · exact fun written => ⟨_, outcome_run_of_written given known written⟩

/-- What a run with a table leaves behind is what writing its report leaves behind. -/
theorem fileSystem_run :
    (run load environment fs arguments).fileSystem =
      (writeReport fs parsed.output shown.report).fileSystem := by
  rw [run, given]
  unfold complete
  simp only [known]
  split <;> rfl

end Runs

/-- **The report is faithful.** The report of every table is in ASCII and is read as JSON to just
that table. A run that has a table comes to its end unless its report cannot be written; then what
it prints as JSON is the report, and the file that it was asked to write holds the report in
UTF-8. -/
theorem report_faithful :
    (∀ table : RouteTable, (∀ c ∈ table.report.toList, c.toNat < 0x80) ∧
      Json.parse? table.report = some table.toJson) ∧
    ∀ (load : Loader) environment fs arguments parsed shown,
      Arguments.parse arguments = .run parsed →
      table (load fs environment) fs parsed = .ok shown →
      ((∃ completion, (run load environment fs arguments).outcome = .ok (.completed completion)) ↔
        (writeReport fs parsed.output shown.report).failure = none) ∧
      ∀ completion, (run load environment fs arguments).outcome = .ok (.completed completion) →
        (parsed.json = true → completion.output = shown.report) ∧
        (parsed.output ≠ "" → ∃ bytes,
          (run load environment fs arguments).fileSystem.bytes (.ofString parsed.output) =
            .ok bytes ∧
            Text.Utf8.decode bytes = .ok shown.report.toList) := by
  refine ⟨fun table => ⟨fun c => RouteTable.toNat_lt_of_mem_report, table.parse?_report⟩,
    fun load environment fs arguments parsed shown given known => ?_⟩
  refine ⟨exists_completed_iff given known, fun completion completed => ?_⟩
  have written := (exists_completed_iff given known).1 ⟨completion, completed⟩
  rw [outcome_run_of_written given known written] at completed
  obtain rfl := Outcome.completed.inj (Except.ok.inj completed)
  refine ⟨fun json => if_pos json, fun asked => ?_⟩
  rw [fileSystem_run given known]
  exact decode_writeReport asked written

/-- The arguments of a run for the directory `r` that prints its report and writes it to a file in
that directory. -/
def writingArguments : Arguments := ⟨"r", "", true, "r/n.md", false, none, false, false, false⟩

/-- Such a run for the tree of `besideFiles`, where the file is there already. -/
theorem report_faithful_besideFiles :
    Arguments.parse ["r", "--json", "--output", "r/n.md"] = .run writingArguments ∧
      ∃ shown completion bytes,
        table (Loader.keeping .empty besideFiles .empty) besideFiles writingArguments = .ok shown ∧
        (run (.keeping .empty) .empty besideFiles
          ["r", "--json", "--output", "r/n.md"]).outcome = .ok (.completed completion) ∧
        completion.output = shown.report ∧
        (run (.keeping .empty) .empty besideFiles
          ["r", "--json", "--output", "r/n.md"]).fileSystem.bytes (.ofString "r/n.md") =
            .ok bytes ∧
        Text.Utf8.decode bytes = .ok shown.report.toList := by
  have given : Arguments.parse ["r", "--json", "--output", "r/n.md"] = .run writingArguments := by
    decide
  have parent : (Path.ofString "r/n.md").parent = .ofString "r" := by decide
  have child : Path.ofString "r/n.md" = (Path.ofString "r").child "n.md" := by decide
  have known : ∃ shown,
      table (Loader.keeping .empty besideFiles .empty) besideFiles writingArguments = .ok shown :=
    ⟨_, table_of_directory status_besideFiles
      (analyzeDirectory_of_discover status_besideFiles discover_besideFiles)⟩
  obtain ⟨shown, known⟩ := known
  have isDirectory : besideFiles.isDirectory (Path.ofString "r/n.md").parent = .ok true := by
    rw [parent]
    exact FileSystem.isDirectory_eq_true_iff.2 ⟨_, status_besideFiles⟩
  have found : besideFiles.find true (.ofString "r/n.md") =
      .ok (.taken ["r", "n.md"] (.file [])) := by
    rw [child]
    exact FileSystem.status_eq_ok_iff_find.1 (FileSystem.status_child status_besideFiles (by decide)
      rfl (by simp) (by decide))
  obtain ⟨completes, faithful⟩ :=
    report_faithful.2 (.keeping .empty) .empty besideFiles _ _ shown given known
  obtain ⟨completion, completed⟩ := completes.2
    (failure_writeReport_of_isDirectory isDirectory found (by simp [Landing.stored?]))
  obtain ⟨printed, filed⟩ := faithful completion completed
  obtain ⟨bytes, stored, decodes⟩ := filed (by decide)
  exact ⟨given, shown, completion, bytes, known, completed, printed rfl, stored, decodes⟩

end CommandLine

end FileRoutes
