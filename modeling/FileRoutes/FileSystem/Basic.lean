import FileRoutes.Path
import FileRoutes.Text.Quoted

/-! # The file system

A **file system** (`FileSystem`) is a finite table of entries by location, with a working
directory. A **location** is the list of names from the root to an entry through directories alone.
An operation on it either answers or fails for one of the causes of `SystemError`; `Failure` is
what reaches a caller, with its `message`. There is nothing else to be stored, such as devices, and
nobody is refused what is there: entries have no permissions. -/

namespace FileRoutes

/-- The names from the root to an entry, through directories alone. -/
abbrev Location := List String

/-- An **entry** of a file system. -/
inductive Entry where
  /-- A regular file with its bytes. -/
  | file (bytes : List UInt8)
  /-- A directory. -/
  | directory
  /-- A symbolic link with the path it stands for. -/
  | link (target : String)
  deriving DecidableEq, Repr

/-- A **file system**: what is stored where, and the directory in which relative paths begin. -/
structure FileSystem where
  /-- The entries below the root, by location. The first one at a location counts. -/
  entries : List (Location × Entry)
  /-- Where relative paths begin. -/
  workingDirectory : Location
  deriving Repr

/-- Why the system refuses an operation on a path. -/
inductive SystemError where
  /-- Nothing is stored under the path. -/
  | notFound
  /-- Something is stored under the path already. -/
  | alreadyExists
  /-- The path goes through something that is no directory. -/
  | notDirectory
  /-- The path leads to a directory where a file is wanted. -/
  | isDirectory
  /-- The path, or a name in it, is longer than the system allows. -/
  | nameTooLong
  /-- The path goes through more links than the system follows. -/
  | tooManyLinks
  deriving DecidableEq, Repr

/-- What keeps an operation from answering. -/
inductive Failure where
  /-- The path holds a NUL character. -/
  | nulInPath
  /-- The system refuses the path. -/
  | system (cause : SystemError) (path : Path)
  /-- The path leads into a cycle of links. -/
  | linkLoop
  deriving DecidableEq, Repr

namespace SystemError

/-- The number under which the system knows an error. -/
def number : SystemError → Nat
  | notFound => 2
  | alreadyExists => 17
  | notDirectory => 20
  | isDirectory => 21
  | nameTooLong => 36
  | tooManyLinks => 40

/-- The system's words for an error. -/
def description : SystemError → String
  | notFound => "No such file or directory"
  | alreadyExists => "File exists"
  | notDirectory => "Not a directory"
  | isDirectory => "Is a directory"
  | nameTooLong => "File name too long"
  | tooManyLinks => "Too many levels of symbolic links"

/-- Whether a question about a path ("is it a directory?") counts the error as a plain no. -/
def isAbsence : SystemError → Bool
  | notFound | notDirectory | tooManyLinks => true
  | _ => false

/-- The message about an error on a path. -/
def message (error : SystemError) (path : Path) : String :=
  "[Errno " ++ toString error.number ++ "] " ++ error.description ++ ": " ++ Text.quoted path.text

end SystemError

namespace Failure

/-- The words of a failure. -/
def message : Failure → String
  | nulInPath => "embedded null byte"
  | system cause path => cause.message path
  | linkLoop => "symbolic link loop"

end Failure

namespace FileSystem

/-- What is stored at a location. The root is always a directory. -/
def entry? (fs : FileSystem) : Location → Option Entry
  | [] => some .directory
  | location => fs.entries.lookup location

/-- Whether a directory is stored at a location. -/
def isDirectoryAt (fs : FileSystem) (location : Location) : Bool :=
  fs.entry? location == some .directory

/-- The name of an entry that stands directly in a directory. -/
def nameIn? (directory location : Location) : Option String :=
  if location.dropLast = directory then location.getLast? else none

/-- The names in a directory, each once. -/
def namesIn (fs : FileSystem) (directory : Location) : List String :=
  (fs.entries.filterMap fun (location, _) => nameIn? directory location).eraseDups

/-- The target of the link at a location; `none` when no link is stored there. -/
def linkTarget? (fs : FileSystem) (location : Location) : Option String :=
  match fs.entry? location with
  | some (.link target) => some target
  | _ => none

/-- The root is a directory. -/
@[simp] theorem entry?_root (fs : FileSystem) : fs.entry? [] = some .directory := rfl

/-- Below the root, the table says what is stored. -/
theorem entry?_of_ne_nil (fs : FileSystem) {location : Location} (below : location ≠ []) :
    fs.entry? location = fs.entries.lookup location := by
  cases location with
  | nil => exact absurd rfl below
  | cons name names => rfl

/-- A location where the look-up finds a value stands in the table with it. -/
theorem mem_of_lookup {location : Location} {entry : Entry} :
    ∀ {entries : List (Location × Entry)}, entries.lookup location = some entry →
      (location, entry) ∈ entries
  | [], found => by simp at found
  | (key, value) :: entries, found => by
    rw [List.lookup_cons] at found
    by_cases equal : location == key
    · simp only [equal] at found
      simp_all
    · simp only [equal] at found
      exact List.mem_cons_of_mem _ (mem_of_lookup found)

end FileSystem

end FileRoutes
