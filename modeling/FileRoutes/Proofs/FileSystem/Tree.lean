import FileRoutes.Proofs.FileSystem.Walk
import FileRoutes.Proofs.Path

/-! # Trees of directories and files

Below a location a file system may be a **tree** (`FileSystem.IsTree`): everything there has a name
that the system can store (`IsStorable`), and nothing is a link. A path that goes down a tree name
by name leads where its names say, unless its text is too long for the system
(`FileSystem.IsTree.status_child`). -/

namespace FileRoutes

/-- A name under which the system can **store** something. -/
structure IsStorable (name : String) : Prop extends IsFileName name where
  /-- It holds no NUL character. -/
  clean : '\x00' ∉ name.toList
  /-- It is not longer than a name may be. -/
  short : name.utf8ByteSize ≤ nameLimit

instance (name : String) : Decidable (IsStorable name) :=
  decidable_of_iff (IsFileName name ∧ '\x00' ∉ name.toList ∧ name.utf8ByteSize ≤ nameLimit)
    ⟨fun ⟨can, clean, short⟩ => ⟨can, clean, short⟩, fun ⟨can, clean, short⟩ => ⟨can, clean, short⟩⟩

namespace FileSystem

variable {fs : FileSystem}

/-- What is stored below a location is a **tree** of directories and files. -/
structure IsTree (fs : FileSystem) (base : Location) : Prop where
  /-- Everything below has a name that can be stored. -/
  storable : ∀ names name, fs.entry? (base ++ names ++ [name]) ≠ none → IsStorable name
  /-- Nothing there is a link. -/
  noLink : ∀ names target, fs.entry? (base ++ names) ≠ some (.link target)

namespace IsTree

variable {base : Location} {name : String}

/-- Below a name in a tree there is a tree again. -/
theorem child (tree : fs.IsTree base) (name : String) : fs.IsTree (base ++ [name]) where
  storable names := by simpa using tree.storable (name :: names)
  noLink names := by simpa using tree.noLink (name :: names)

/-- What is stored in a tree has a name that can be. -/
theorem isStorable (tree : fs.IsTree base) (stored : fs.entry? (base ++ [name]) ≠ none) :
    IsStorable name :=
  tree.storable [] name (by simpa using stored)

end IsTree

/-- What holds of the last name of every entry holds of all names under which something is
stored. -/
theorem forall_of_forall_mem {property : String → Prop}
    (each : ∀ place ∈ fs.entries, ∀ name ∈ place.1.getLast?, property name) (location : Location)
    (name : String) (stored : fs.entry? (location ++ [name]) ≠ none) : property name := by
  obtain ⟨entry, stored⟩ := Option.ne_none_iff_exists'.1 stored
  rw [entry?_of_ne_nil fs (by simp)] at stored
  exact each _ (mem_of_lookup stored) name (by simp)

/-- A file system without links, in which everything is stored under a name that can be, is a tree
below every location. -/
theorem isTree_of_forall_mem
    (storable : ∀ place ∈ fs.entries, ∀ name ∈ place.1.getLast?, IsStorable name)
    (noLink : ∀ place ∈ fs.entries, ∀ target, place.2 ≠ .link target) (base : Location) :
    fs.IsTree base where
  storable names := forall_of_forall_mem storable (base ++ names)
  noLink names target stored := by
    by_cases here : base ++ names = []
    · rw [here] at stored
      cases stored
    · rw [entry?_of_ne_nil fs here] at stored
      exact noLink _ (mem_of_lookup stored) target rfl

/-- The path without names leads to the working directory. -/
theorem status_workingDirectory (stored : fs.entry? fs.workingDirectory = some .directory) :
    fs.status ⟨.relative, []⟩ = .ok (fs.workingDirectory, .directory) := by
  refine status_eq_ok_iff.2 ⟨by decide, by decide, ?_⟩
  rw [walk]
  simp only [origin, stored]

/-- The text of a path that leads to an entry stays without NUL characters when a storable name is
added. -/
theorem clean_child {path : Path} {location : Location} {entry : Entry}
    (reached : fs.status path = .ok (location, entry)) {name : String} (can : IsStorable name) :
    '\x00' ∉ (path.child name).text.toList := by
  have clean := (status_eq_ok_iff.1 reached).1
  rw [Path.mem_text_iff (by decide) (by decide)] at clean ⊢
  rintro ⟨other, member, null⟩
  rcases List.mem_append.1 member with before | last
  · exact clean ⟨other, before, null⟩
  · obtain rfl := List.mem_singleton.1 last
    exact can.clean null

/-- **What is stored in a directory is walked into**, links aside. -/
theorem walk_cons {follow : Bool} {links : Nat} {here : Location} {name : String} {entry : Entry}
    (inside : fs.entry? here = some .directory) (can : IsStorable name)
    (stored : fs.entry? (here ++ [name]) = some entry) (noLink : ∀ target, entry ≠ .link target)
    (rest : List String) :
    fs.walk follow links here (name :: rest) = fs.walk follow links (here ++ [name]) rest := by
  have passes : fs.Passes here name (here ++ [name]) :=
    .down (by simp [isDirectoryAt, inside]) (by simp [can.nonempty, can.moves]) can.deeper can.short
      stored noLink
  exact passes.walk_cons follow links rest

/-- **What is stored in a directory is reached through it**, links aside, under a path that is not
too long. -/
theorem status_child {path : Path} {location : Location}
    (reached : fs.status path = .ok (location, .directory)) {name : String} (can : IsStorable name)
    {entry : Entry} (stored : fs.entry? (location ++ [name]) = some entry)
    (noLink : ∀ target, entry ≠ .link target)
    (short : (path.child name).text.utf8ByteSize < pathLimit) :
    fs.status (path.child name) = .ok (location ++ [name], entry) := by
  have walked := (status_eq_ok_iff.1 reached).2.2
  refine status_eq_ok_iff.2 ⟨clean_child reached can, short, ?_⟩
  obtain ⟨left, onward⟩ := (walk_eq_ok_iff.1 walked).exists_walk_append nofun
  have origin : fs.origin (path.child name) = fs.origin path := rfl
  have place : (Landing.taken location .directory).location = location := rfl
  rw [origin, Path.child, onward, place, walk_cons (entry?_of_status reached) can stored noLink,
    walk, stored]

/-- **A name in the working directory** leads to what is stored there, links aside. -/
theorem status_name {name : String} {entry : Entry}
    (single : Path.ofString name = (Path.mk .relative []).child name) (can : IsStorable name)
    (here : fs.entry? fs.workingDirectory = some .directory)
    (stored : fs.entry? (fs.workingDirectory ++ [name]) = some entry)
    (noLink : ∀ target, entry ≠ .link target)
    (short : (Path.ofString name).text.utf8ByteSize < pathLimit) :
    fs.status (.ofString name) = .ok (fs.workingDirectory ++ [name], entry) := by
  rw [single] at short ⊢
  exact status_child (status_workingDirectory here) can stored noLink short

/-- A path whose text is too long for the system is. -/
theorem isTooLong_of_le {path : Path} (clean : '\x00' ∉ path.text.toList)
    (long : pathLimit ≤ path.text.utf8ByteSize) : fs.IsTooLong path := by
  rw [IsTooLong, status, find, if_neg clean, if_pos long]
  rfl

/-- **A path that goes down a tree** is too long, or leads to what is stored there. -/
theorem IsTree.status_child {base : Location} (tree : fs.IsTree base) {path : Path}
    (reached : fs.status path = .ok (base, .directory)) {name : String} {entry : Entry}
    (stored : fs.entry? (base ++ [name]) = some entry) :
    (pathLimit ≤ (path.child name).text.utf8ByteSize ∧ fs.IsTooLong (path.child name)) ∨
      (path.child name).text.utf8ByteSize < pathLimit ∧
        fs.status (path.child name) = .ok (base ++ [name], entry) := by
  have can : IsStorable name := tree.isStorable (by simp [stored])
  rcases Nat.lt_or_ge (path.child name).text.utf8ByteSize pathLimit with short | long
  · refine .inr ⟨short, FileSystem.status_child reached can stored ?_ short⟩
    rintro target rfl
    exact tree.noLink [name] target stored
  · exact .inl ⟨long, isTooLong_of_le (clean_child reached can) long⟩

end FileSystem

end FileRoutes
