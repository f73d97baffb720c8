import FileRoutes.CommandLine.Run
import FileRoutes.FileSystem.RealPath

/-! # The command line

The outermost layer: it takes a picture of the part of the file system that the arguments can reach
(`Picture`), runs the command line on it, and carries out what the run has changed. Every decision
is the library's. In the picture a link stands for the real path of what it leads to. The settings
are those of the process: no file is loaded. -/

namespace FileRoutes.Main

/-- A picture of the file system that is being taken. -/
structure Picture where
  /-- What has been seen. -/
  fileSystem : FileSystem
  /-- The directories whose entries have been seen. -/
  listed : List Location

/-- The place of a location on the disk. -/
def diskPath (location : Location) : String :=
  (Path.mk .root location).text

/-- The location that an absolute text writes. -/
def locationOf (text : String) : Location :=
  (Path.ofString text).names

/-- What stands at a location on the disk; `none` when nothing does. -/
def lookAt (location : Location) : IO (Option Entry) := do
  let root ← IO.FS.realPath "/"
  let path := root / diskPath location
  try
    match (← path.symlinkMetadata).type with
    | .dir => return some .directory
    | .symlink =>
      try return some (.link (← IO.FS.realPath path).toString)
      catch _ => return some (.link (diskPath location ++ ".missing"))
    | _ => return some (.file (← IO.FS.readBinFile path).toList)
  catch _ => return none

mutual

/-- Adds the entry at a location, and behind a link what it leads to. -/
partial def see (picture : Picture) (location : Location) : IO Picture := do
  if (picture.fileSystem.entry? location).isSome then return picture
  match ← lookAt location with
  | none => return picture
  | some entry =>
    let picture := { picture with fileSystem := picture.fileSystem.store location entry }
    match entry with
    | .link target => seeAll (← seeAlong picture (locationOf target)) (locationOf target)
    | _ => return picture

/-- Adds the entries along a location, from the root on. -/
partial def seeAlong (picture : Picture) (location : Location) : IO Picture :=
  (List.range location.length).foldlM (fun picture count => see picture (location.take (count + 1)))
    picture

/-- Adds the entries below a location. -/
partial def seeAll (picture : Picture) (location : Location) : IO Picture := do
  if picture.listed.contains location || !picture.fileSystem.isDirectoryAt location then
    return picture
  let picture := { picture with listed := location :: picture.listed }
  let root ← IO.FS.realPath "/"
  let entries ← try (root / diskPath location).readDir catch _ => pure #[]
  entries.foldlM (fun picture entry => do
    let place := location ++ [entry.fileName]
    seeAll (← see picture place) place) picture

end

/-- Adds what a path leads to and all below it. -/
def seePath (picture : Picture) (path : Path) : IO Picture := do
  let start := picture.fileSystem.origin path
  let picture ← seeAlong picture (Location.extend start path.names)
  match picture.fileSystem.status path with
  | .ok (location, _) => seeAll picture location
  | .error _ => return picture

/-- The environment of the process. -/
def environment : IO Environment := do
  return {
    routesDir := ← IO.getEnv "ROUTESCOPE_ROUTES_DIR"
    maxWorkers := ← IO.getEnv "ROUTESCOPE_MAX_WORKERS"
    includeOptions := ← IO.getEnv "ROUTESCOPE_INCLUDE_OPTIONS"
    logLevel := ← IO.getEnv "ROUTESCOPE_LOG_LEVEL"
    allowedOrigins := ← IO.getEnv "ALLOWED_ORIGINS" }

/-- Carries out what differs between a picture and the file system after a run. -/
def carryOut (before after : FileSystem) : IO Unit :=
  after.entries.forM fun (location, entry) => do
    if before.entry? location != some entry then
      match entry with
      | .directory => IO.FS.createDirAll (diskPath location)
      | .file bytes => IO.FS.writeBinFile (diskPath location) (ByteArray.mk bytes.toArray)
      | .link _ => return

/-- How the command line is used. -/
def usage : String :=
  "usage: file-routes [-h] [--routes-dir DIR] [--json] [--output FILE] [--include-options] " ++
    "[--max-workers N] [--fail-on-errors] [--fail-on-missing-handler] [--verbose] target"

/-- The picture that a run with some arguments needs. -/
def pictureFor (arguments : CommandLine.Arguments) : IO FileSystem := do
  let here := locationOf (← IO.currentDir).toString
  let picture ← seeAlong ⟨⟨[], here⟩, []⟩ here
  let picture ← seePath picture (.ofString arguments.target)
  let picture ← seeAlong picture
    (Location.extend (picture.fileSystem.origin (.ofString arguments.output))
      (Path.ofString arguments.output).names)
  return picture.fileSystem

end FileRoutes.Main

/-- Runs the command line and ends with its exit code. -/
def main (arguments : List String) : IO UInt32 := do
  let before ←
    match FileRoutes.CommandLine.Arguments.parse arguments with
    | .run arguments => FileRoutes.Main.pictureFor arguments
    | _ => pure ⟨[], []⟩
  let done := FileRoutes.CommandLine.run (.keeping .empty) (← FileRoutes.Main.environment) before
    arguments
  FileRoutes.Main.carryOut before done.fileSystem
  match done.outcome with
  | .ok .help =>
    IO.println FileRoutes.Main.usage
    return 0
  | .ok .misuse =>
    IO.eprintln FileRoutes.Main.usage
    return 2
  | .ok (.completed completion) =>
    IO.print completion.output
    return completion.exitCode.toUInt32
  | .error failure =>
    IO.eprintln failure.message
    return 1
