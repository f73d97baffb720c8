import FileRoutes.FileSystem.Walk
import FileRoutes.UrlPath

/-! # Discovering route files

The route files below a directory (`discover`), found by going through it in the order of names,
into every directory that is met, also through links. Entries whose name begins with a dot or an
underscore are passed over. A directory that cannot be listed has no files, and a path that the
system finds too long ends the search with a failure. -/

namespace FileRoutes

/-- Whether an entry is **passed over** by its name. -/
def isPassedOver (name : String) : Bool :=
  match name.toList with
  | c :: _ => c == '.' || c == '_'
  | [] => false

/-- Whether a name is that of a route file, by its suffix. -/
def isRouteFileName (name : String) : Bool :=
  UrlPath.extensions.contains (Path.suffix name.toList)

/-- The names in a directory; none when the system refuses to list it. -/
def listedNames (fs : FileSystem) (directory : Path) : Except Failure (List String) :=
  match fs.list directory with
  | .error (.system _ _) => .ok []
  | listing => listing

/-- The route files below a directory, as paths. The search ends because the system does not find a
directory under a path that is too long. -/
def discoverBelow (fs : FileSystem) (directory : Path) : Except Failure (List Path) := do
  let names ← listedNames fs directory
  let found ← names.mapM fun name =>
    if isPassedOver name then .ok []
    else
      let path := directory.child name
      match _ : fs.isDirectory path with
      | .error failure => .error failure
      | .ok true => discoverBelow fs path
      | .ok false => .ok (if isRouteFileName name then [path] else [])
  return found.flatten
  termination_by pathLimit + 1 - directory.names.length
  decreasing_by
    have short : path.names.length ≤ pathLimit :=
      FileSystem.names_length_le_of_isDirectory (by assumption)
    simp only [Path.child, List.length_append, List.length_singleton, path] at short ⊢
    omega

/-- The **route files** below a routes root, in the order in which they are found. -/
def discover (fs : FileSystem) (root : String) : Except Failure (List String) := do
  let paths ← discoverBelow fs (Path.ofString root)
  return paths.map Path.text

end FileRoutes
