import FileRoutes.FileSystem.Basic

/-! # Walking along a path

How the system finds what a path leads to (`FileSystem.walk`): name by name from a directory on,
following links up to `linkLimit` of them, and refusing names and paths that are too long. The walk
ends at an entry, or at a free place in a directory (`Landing`). On it stand the questions about a
path that fail only for a path too long, and the listing of a directory. -/

namespace FileRoutes

/-- Where a walk ends. -/
inductive Landing where
  /-- At an entry. -/
  | taken (location : Location) (entry : Entry)
  /-- At a name that is free in its directory. -/
  | free (location : Location)
  deriving DecidableEq, Repr

/-- The most links that are followed along one path. -/
def linkLimit : Nat := 40

/-- The most bytes of a name. -/
def nameLimit : Nat := 255

/-- A path is refused when it has this many bytes. -/
def pathLimit : Nat := 4096

/-- The names that a path text asks for, one after the other. An empty name asks, as a single dot
does, that the walk stand at a directory. -/
def namesAlong (text : String) : List String :=
  (Text.fields '/' text.toList).map String.ofList

/-- Whether a text begins at the root. -/
def isAbsolute (text : String) : Bool :=
  text.toList.head? == some '/'

namespace FileSystem

/-- Where a path text begins when it is met in a directory. -/
def startOf (directory : Location) (text : String) : Location :=
  if isAbsolute text then [] else directory

/-- The **walk** along names from a directory on. A link at the end is followed on demand; `links`
is how many may still be followed. -/
def walk (fs : FileSystem) (follow : Bool) (links : Nat) (here : Location) :
    List String → Except SystemError Landing
  | [] =>
    match fs.entry? here with
    | some entry => .ok (.taken here entry)
    | none => .error .notFound
  | name :: rest =>
    if !fs.isDirectoryAt here then .error .notDirectory
    else if name = "" ∨ name = "." then fs.walk follow links here rest
    else if name = ".." then fs.walk follow links here.dropLast rest
    else if nameLimit < name.utf8ByteSize then .error .nameTooLong
    else match fs.entry? (here ++ [name]) with
      | none => if rest.isEmpty then .ok (.free (here ++ [name])) else .error .notFound
      | some (.link target) =>
        if rest.isEmpty && !follow then .ok (.taken (here ++ [name]) (.link target))
        else match links with
          | 0 => .error .tooManyLinks
          | links + 1 =>
            fs.walk follow links (startOf here target) (namesAlong target ++ rest)
      | some _ => fs.walk follow links (here ++ [name]) rest
  termination_by names => (links, names.length)

/-- The location at which a path begins. -/
def origin (fs : FileSystem) (path : Path) : Location :=
  match path.anchor with
  | .relative => fs.workingDirectory
  | .root | .doubleRoot => []

/-- Where a path leads. -/
def find (fs : FileSystem) (follow : Bool) (path : Path) : Except Failure Landing :=
  if '\x00' ∈ path.text.toList then .error .nulInPath
  else if pathLimit ≤ path.text.utf8ByteSize then .error (.system .nameTooLong path)
  else (fs.walk follow linkLimit (fs.origin path) path.names).mapError (.system · path)

/-- The entry that a path leads to, all links followed. -/
def status (fs : FileSystem) (path : Path) : Except Failure (Location × Entry) := do
  match ← fs.find true path with
  | .taken location entry => return (location, entry)
  | .free _ => throw (.system .notFound path)

/-- Answers a yes-or-no question about the entry that a path leads to. Where nothing can be found
the answer is no; only a path that is too long is a failure. -/
def ask (fs : FileSystem) (question : Entry → Bool) (path : Path) : Except Failure Bool :=
  match fs.status path with
  | .ok (_, entry) => .ok (question entry)
  | .error (.system cause path) =>
    if cause.isAbsence then .ok false else .error (.system cause path)
  | .error _ => .ok false

/-- Whether a path leads to anything. -/
def holds (fs : FileSystem) (path : Path) : Except Failure Bool :=
  fs.ask (fun _ => true) path

/-- Whether a path leads to a directory. -/
def isDirectory (fs : FileSystem) (path : Path) : Except Failure Bool :=
  fs.ask (· == .directory) path

/-- Whether a path leads to a regular file. -/
def isFile (fs : FileSystem) (path : Path) : Except Failure Bool :=
  fs.ask (fun | .file _ => true | _ => false) path

/-- The bytes of the file that a path leads to. -/
def bytes (fs : FileSystem) (path : Path) : Except Failure (List UInt8) := do
  match ← fs.status path with
  | (_, .file bytes) => return bytes
  | _ => throw (.system .isDirectory path)

/-- The names in the directory that a path leads to, in ascending order. -/
def list (fs : FileSystem) (path : Path) : Except Failure (List String) := do
  match ← fs.status path with
  | (location, .directory) => return (fs.namesIn location).mergeSort
  | _ => throw (.system .notDirectory path)

/-- What is found to be a directory has no more names than a path may have bytes. -/
theorem names_length_le_of_isDirectory {fs : FileSystem} {path : Path}
    (found : fs.isDirectory path = .ok true) : path.names.length ≤ pathLimit := by
  have size := path.names_length_le
  unfold isDirectory ask status find at found
  split at found
  next reached =>
    split at reached
    · simp [bind, Except.bind] at reached
    split at reached
    · simp [bind, Except.bind] at reached
    · omega
  next => split at found <;> simp at found
  next => simp at found

end FileSystem

end FileRoutes
