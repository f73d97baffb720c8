import FileRoutes.Analysis.Discovery
import FileRoutes.Analysis.File
import FileRoutes.Analysis.Schedule
import FileRoutes.Settings

/-! # Analysing a directory

The routes of a whole directory (`analyzeDirectory`): one record for each route file below it, in
the order of their URL paths, and for equal URL paths in the order of discovery. A root that is not
there, or is no directory, has no routes. -/

namespace FileRoutes

/-- Whether one route stands before another, or beside it. -/
def Route.precedes (first second : Route) : Bool :=
  first.urlPath ≤ second.urlPath

/-- Whether a path is the root of routes: something is there, and it is a directory. -/
def isRoutesRoot (fs : FileSystem) (root : Path) : Except Failure Bool := do
  if ← fs.holds root then fs.isDirectory root else return false

/-- The schedule for analysing some files. The number of workers is the one asked for, or else the
one that is set. -/
def scheduleFor (environment : Environment) (workers : Option Int) (files : Nat) : Schedule :=
  Schedule.plan (workers.getD environment.workers) files

/-- The **analysis of a directory**. -/
def analyzeDirectory (environment : Environment) (fs : FileSystem)
    (reader : Option OptionsReader) (workers : Option Int) (root : String) :
    Except Failure (List Route) := do
  if ← isRoutesRoot fs (Path.ofString root) then
    let files ← discover fs root
    let schedule := scheduleFor environment workers files.length
    let routes := schedule.map (fun file => analyzeFile fs reader file root) files
    return routes.mergeSort Route.precedes
  else return []

end FileRoutes
