import FileRoutes.Proofs.Schema.Records
import FileRoutes.Proofs.Service.Admission

/-! # Answers where no routes root is set

Where no routes root is set every path may be analysed. A request that names a directory is then
answered with its table (`respond_analyzeDirectory_of_unset`), and one that names a file with its
record (`respond_analyzeFile_of_unset`). -/

namespace FileRoutes.Service

/-- No routes root is set when its variable is not. -/
theorem defaultRoot_eq_none {environment : Environment} (unset : environment.routesDir = none) :
    environment.defaultRoot = none := by
  rw [Environment.defaultRoot, unset]
  decide

/-- Every path may be analysed then. -/
theorem isAllowed_of_unset {context : Context} (unset : context.environment.routesDir = none)
    (path : String) : isAllowed context path = .ok true := by
  rw [isAllowed, defaultRoot_eq_none unset]

section Answers

variable {environment : Environment} (unset : environment.routesDir = none) {fs : FileSystem}
  {times : Times} {target : String} (nonempty : target ≠ "")
  (trimmed : Text.trim target.toList = target.toList)

include unset nonempty trimmed

/-- **The service answers for a directory** when its analysis does. -/
theorem respond_analyzeDirectory_of_unset {asked : Option Bool} {routes : List Route}
    (analyzed : analyzeDirectory environment fs (optionsReader environment asked) none target =
      .ok routes) :
    respond ⟨environment, fs, times⟩
        (.to .analyzeDirectory (some (DirectoryRequest.toJson ⟨some target, asked⟩))) =
      .ok (.answer 200 (RouteTable.ofRoutes target routes).toJson) := by
  refine respond_eq_answer_iff.2 ⟨_, target, routes, DirectoryRequest.readBody_toJson _, ?_,
    isAllowed_of_unset unset target, analyzed, rfl⟩
  rw [DirectoryRequest.root?, given?_of_trim_eq trimmed, if_neg nonempty]
  rfl

/-- **The service answers for a file** with its record. -/
theorem respond_analyzeFile_of_unset (asked : Option Bool) {root : String}
    (trimmed' : Text.trim root.toList = root.toList) :
    respond ⟨environment, fs, times⟩
        (.to .analyzeFile (some (FileRequest.toJson ⟨target, some root, asked⟩))) =
      .ok (.answer 200 (analyzeFile fs (optionsReader environment asked) target
        (if root = "" then UrlPath.inferRoot target else root)).toJson) := by
  have given : given? (some target) = some target := by
    rw [given?_of_trim_eq trimmed, if_neg nonempty]
  have allowed : isAllowed ⟨environment, fs, times⟩ target = .ok true :=
    isAllowed_of_unset unset target
  have inferred : (given? (some root)).getD (UrlPath.inferRoot target) =
      if root = "" then UrlPath.inferRoot target else root := by
    rw [given?_of_trim_eq trimmed']
    split <;> rfl
  have read := FileRequest.readBody_toJson ⟨target, some root, asked⟩
  rw [respond_analyzeFile_eq read given, allowed, ← inferred]
  rfl

end Answers

end FileRoutes.Service
