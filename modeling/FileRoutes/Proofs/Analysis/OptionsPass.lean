import FileRoutes.Proofs.Analysis.Directory
import FileRoutes.Proofs.Options.Valid

/-! # Reading options changes nothing else

A record without its options is the same whether options are read or not (`withoutOptions_analyzeFile`):
the reader only adds them, provided that it refuses no text. It is so for all the records of a
directory, position by position (`withoutOptions_analyzeDirectory`), and the counts of the records
do not look at options (`Summary.ofRoutes_map_withoutOptions`). -/

namespace FileRoutes

/-- A record **without its options**. -/
def Route.withoutOptions (route : Route) : Route := { route with options := none }

/-- Records agree but for their options when they agree on everything else. -/
theorem Route.withoutOptions_eq_iff {route other : Route} :
    route.withoutOptions = other.withoutOptions ↔
      route.filePath = other.filePath ∧ route.urlPath = other.urlPath ∧
        route.method = other.method ∧ route.hasHandler = other.hasHandler ∧
        route.hasOptions = other.hasOptions ∧ route.exports = other.exports ∧
        route.errors = other.errors := by
  simp [Route.withoutOptions]

/-- The reader of declared options refuses nothing. -/
theorem refusesNothing_declaredOptions : RefusesNothing (some declaredOptions) := by
  intro read member source
  obtain rfl := Option.some.inj member
  exact ⟨RouteOptions.ofSource? source, rfl⟩

/-- Without a reader nothing is refused. -/
theorem refusesNothing_none : RefusesNothing none := by
  intro read member
  cases member

section Reading

variable {environment : Environment} {fs : FileSystem} {reader : Option OptionsReader}
  (refuses : RefusesNothing reader)

include refuses

/-- **Reading options changes nothing else** in the record of a file. -/
theorem withoutOptions_analyzeFile (file root : String) :
    (analyzeFile fs reader file root).withoutOptions = analyzeFile fs none file root := by
  cases read : readSource fs file with
  | error failure =>
    rw [analyzeFile_of_error read, analyzeFile_of_error read]
    rfl
  | ok source =>
    rw [analyzeFile_of_readSource read, analyzeFile_of_readSource read]
    -- Only the options and the problems depend on the reader, and there are no problems.
    simp only [analyzeSource, Route.withoutOptions, refuses.readOptions_eq]
    rfl

/-- It changes nothing else in the records of some files, and not their order. -/
theorem map_withoutOptions_recordsOf (root : String) (files : List String) :
    (recordsOf fs reader root files).map Route.withoutOptions = recordsOf fs none root files := by
  rw [recordsOf_eq_map, recordsOf_eq_map, List.map_map]
  exact List.map_congr_left fun file _ => withoutOptions_analyzeFile refuses file root

/-- **It changes nothing else in the records of a directory**, which fail to be given for the same
reasons. -/
theorem map_withoutOptions_analyzeDirectory (workers : Option Int) (root : String) :
    (analyzeDirectory environment fs reader workers root).map (List.map Route.withoutOptions) =
      analyzeDirectory environment fs none workers root := by
  rw [analyzeDirectory_eq, analyzeDirectory_eq]
  cases isRoutesRoot fs (.ofString root) with
  | error failure => rfl
  | ok isRoot =>
    cases isRoot with
    | false => rfl
    | true =>
      cases discover fs root with
      | error failure => rfl
      | ok files => exact congrArg Except.ok (map_withoutOptions_recordsOf refuses root files)

end Reading

/-- **The counts of some records do not look at options.** -/
theorem Summary.ofRoutes_map_withoutOptions (routes : List Route) :
    ofRoutes (routes.map Route.withoutOptions) = ofRoutes routes := by
  simp only [ofRoutes, List.countP_map, List.foldl_map, List.length_map]
  rfl

end FileRoutes
