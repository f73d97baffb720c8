import FileRoutes.FileSystem.Walk

/-! # Changing the file system

The operations that leave a changed file system behind: storing an entry at a location, making a
directory, making one with all its parents, and writing a file. One that takes several steps leaves
a `Change`, since the steps before a failure stay done. What is found where after storing an entry is
said by `FileSystem.entry?_store`. -/

namespace FileRoutes

/-- What a **change** of several steps leaves behind. -/
structure Change where
  /-- The file system afterwards. -/
  fileSystem : FileSystem
  /-- What kept the change from being completed, if anything did. -/
  failure : Option Failure

namespace Change

/-- No change. -/
def unchanged (fs : FileSystem) : Change := ⟨fs, none⟩

/-- A change of one step, which is done or leaves the file system as it is. -/
def ofStep (fs : FileSystem) : Except Failure FileSystem → Change
  | .ok changed => ⟨changed, none⟩
  | .error failure => ⟨fs, some failure⟩

/-- Goes on with a further change, unless the first one was not completed. -/
def andThen (change : Change) (next : FileSystem → Change) : Change :=
  match change.failure with
  | none => next change.fileSystem
  | some _ => change

end Change

namespace FileSystem

/-- The file system with an entry at a location, in place of what was stored there. -/
def store (fs : FileSystem) (location : Location) (entry : Entry) : FileSystem :=
  { fs with entries := fs.entries.filter (·.1 != location) ++ [(location, entry)] }

/-- Makes the directory of a path. A link at its end counts as something stored there. -/
def makeDirectory (fs : FileSystem) (path : Path) : Except Failure FileSystem := do
  match ← fs.find false path with
  | .free location => return fs.store location .directory
  | .taken _ _ => throw (.system .alreadyExists path)

/-- A failure to make a directory is no failure when the path leads to a directory already. -/
def unlessDirectory (fs : FileSystem) (path : Path) (failure : Failure) :
    Except Failure FileSystem := do
  match failure with
  | .system _ _ => if ← fs.isDirectory path then return fs else throw failure
  | _ => throw failure

/-- Makes the directory of a path. What is a directory already is left as it is. -/
def makeDirectoryOnce (fs : FileSystem) (path : Path) : Except Failure FileSystem :=
  match fs.makeDirectory path with
  | .ok made => .ok made
  | .error failure => fs.unlessDirectory path failure

/-- Makes the directory of a path and the parents that are missing. What is a directory already is
left as it is. -/
def makeDirectories (fs : FileSystem) (path : Path) : Change :=
  match fs.makeDirectoryOnce path with
  | .error (.system .notFound _) =>
    if path.names.isEmpty then .ofStep fs (fs.makeDirectoryOnce path)
    else
      (fs.makeDirectories path.parent).andThen fun fs => .ofStep fs (fs.makeDirectoryOnce path)
  | result => .ofStep fs result
  termination_by path.names.length
  decreasing_by
    rename_i nonempty
    cases names : path.names with
    | nil => simp [names] at nonempty
    | cons name names => simp [Path.parent, names]

/-- Writes a file, all links followed. A file that is there already is replaced. -/
def writeFile (fs : FileSystem) (path : Path) (bytes : List UInt8) :
    Except Failure FileSystem := do
  match ← fs.find true path with
  | .free location => return fs.store location (.file bytes)
  | .taken _ .directory => throw (.system .isDirectory path)
  | .taken location _ => return fs.store location (.file bytes)

/-! ## What is stored afterwards -/

/-- Leaving out a location leaves every other one as it is. -/
theorem lookup_filter_of_ne (entries : List (Location × Entry)) {location other : Location}
    (differ : other ≠ location) :
    (entries.filter (·.1 != location)).lookup other = entries.lookup other := by
  induction entries with
  | nil => rfl
  | cons first rest ih =>
    obtain ⟨key, value⟩ := first
    by_cases same : other = key
    · subst same
      simp [differ]
    · by_cases kept : key = location
      · subst kept
        simpa [List.lookup_cons, beq_false_of_ne differ] using ih
      · simp [List.lookup_cons, kept, ih]

/-- A location that is left out is not found. -/
theorem lookup_filter_self (entries : List (Location × Entry)) (location : Location) :
    (entries.filter (·.1 != location)).lookup location = none := by
  rw [List.lookup_eq_none_iff]
  intro stored member
  simpa [bne_comm] using (List.mem_filter.1 member).2

/-- What is stored at a location is found there, and elsewhere all stays as it was. -/
theorem entry?_store (fs : FileSystem) {location : Location} (below : location ≠ [])
    (entry : Entry) (other : Location) :
    FileSystem.entry? (fs.store location entry) other =
      if other = location then some entry else fs.entry? other := by
  by_cases root : other = []
  · subst root
    simp [Ne.symm below]
  · rw [entry?_of_ne_nil _ root, entry?_of_ne_nil _ root, store, List.lookup_append]
    by_cases same : other = location
    · subst same
      simp [lookup_filter_self]
    · simp [lookup_filter_of_ne _ same, same, List.lookup_cons, beq_false_of_ne same]

end FileSystem

end FileRoutes
