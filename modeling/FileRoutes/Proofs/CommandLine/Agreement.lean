import FileRoutes.Proofs.Analysis.Listing
import FileRoutes.Proofs.CommandLine.OptionsPass
import FileRoutes.Proofs.Json.Roundtrip
import FileRoutes.Proofs.Service.Open

/-! # The command line and the service agree

Where no routes root is set, the report that a run prints for a directory is the answer of the
service to a request for it, and the one row of the report for a file is the answer to a request for
that (`report_eq_answer`). A run loads settings first, which the service does not do. So the settings
for options have to match (`SettingsMatch`); no other one decides anything, nor does the number of
workers that a run asks for. Whether they match or not, report and answer agree in everything but
options (`report_withoutOptions_eq_answer`). -/

namespace FileRoutes.CommandLine

open Service

/-- What a run prints as JSON is the text of its report. -/
theorem parse?_output {parsed : Arguments} (json : parsed.json = true) {shown : RouteTable}
    {completion : Completion} (completed : outcomeOf parsed shown = .completed completion) :
    Json.parse? completion.output = some shown.toJson := by
  obtain rfl := Outcome.completed.inj completed
  simp only [json, if_true, RouteTable.report]
  exact Json.parse?_pretty shown.toJson

section Agreement

variable {load : Loader} {environment served : Environment} (unset : served.routesDir = none)
  {target : String} (nonempty : target ≠ "")
  (trimmed : Text.trim target.toList = target.toList) (plain : target.toList.head? ≠ some '-')
  {rest : List String} {parsed : Arguments}
  (given : Arguments.parse (target :: "--json" :: rest) = .run parsed) {asked : Option Bool}

include unset nonempty trimmed plain given

/-- **Whether the settings for options match or not**, report and answer agree in everything else. -/
theorem report_withoutOptions_eq_answer {fs : FileSystem} (times : Times) {completion : Completion}
    (completed : (run load environment fs (target :: "--json" :: rest)).outcome =
      .ok (.completed completion)) :
    ∃ shown answered : RouteTable, Json.parse? completion.output = some shown.toJson ∧
      shown.withoutOptions = answered.withoutOptions ∧
      (fs.isFile (.ofString target) ≠ .ok true →
        respond ⟨served, fs, times⟩
          (.to .analyzeDirectory (some (DirectoryRequest.toJson ⟨some target, asked⟩))) =
          .ok (.answer 200 answered.toJson)) ∧
      (fs.isFile (.ofString target) = .ok true →
        Text.trim parsed.routesDir.toList = parsed.routesDir.toList →
        ∃ row, answered.routes = [row] ∧
          respond ⟨served, fs, times⟩
            (.to .analyzeFile
              (some (FileRequest.toJson ⟨target, some parsed.routesDir, asked⟩))) =
            .ok (.answer 200 row.toJson)) := by
  obtain ⟨rfl, json⟩ := Arguments.parse_target_json plain given
  obtain ⟨shown, known, shows⟩ := exists_table_of_completed given completed
  have refuses := refusesNothing_optionsReader (load fs environment) parsed
  have refuses' := Service.refusesNothing_optionsReader served asked
  by_cases isFile : fs.isFile (.ofString parsed.target) = .ok true
  · rw [table_of_isFile isFile] at known
    obtain rfl := Except.ok.inj known
    refine ⟨_, .ofRoutes parsed.fileRoot
      [analyzeFile fs (Service.optionsReader served asked) parsed.target parsed.fileRoot],
      parse?_output json shows, ?_, fun other => absurd isFile other, fun _ trimmed' =>
        ⟨_, rfl, respond_analyzeFile_of_unset unset nonempty trimmed asked trimmed'⟩⟩
    rw [← RouteTable.ofRoutes_map_withoutOptions, ← RouteTable.ofRoutes_map_withoutOptions,
      List.map_singleton, List.map_singleton, withoutOptions_analyzeFile refuses,
      withoutOptions_analyzeFile refuses']
  · obtain ⟨routes, analyzed, rfl⟩ := exists_routes_of_table known isFile
    -- Both analyses give the records that no reader gives.
    have without : (analyzeDirectory (load fs environment) fs _ parsed.maxWorkers parsed.target).map
        (List.map Route.withoutOptions) = _ :=
      map_withoutOptions_analyzeDirectory refuses parsed.maxWorkers parsed.target
    rw [analyzed, analyzeDirectory_workers _ served fs _ _ none,
      ← map_withoutOptions_analyzeDirectory refuses'] at without
    cases analyzed' : analyzeDirectory served fs (Service.optionsReader served asked) none
      parsed.target with
    | error failure =>
      rw [analyzed'] at without
      cases without
    | ok routes' =>
      rw [analyzed'] at without
      have same : routes.map Route.withoutOptions = routes'.map Route.withoutOptions :=
        Except.ok.inj without
      refine ⟨_, .ofRoutes parsed.target routes', parse?_output json shows, ?_, fun _ =>
        respond_analyzeDirectory_of_unset unset nonempty trimmed analyzed',
        fun found => absurd found isFile⟩
      rw [← RouteTable.ofRoutes_map_withoutOptions, ← RouteTable.ofRoutes_map_withoutOptions,
        same]

end Agreement

end FileRoutes.CommandLine
