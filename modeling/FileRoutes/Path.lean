import FileRoutes.Text.Split

/-! # Paths

A **path** is an anchor and the names below it. Empty names and single dots are dropped when a path
is read, double dots are kept, and so is a pair of slashes in front, which is an anchor of its own.
`Path.below?` compares paths by anchor and names, never by their text. -/

namespace FileRoutes

/-- Where the names of a path begin. -/
inductive Anchor where
  /-- At the working directory. -/
  | relative
  /-- At the root. -/
  | root
  /-- At the root, written with exactly two slashes. -/
  | doubleRoot
  deriving DecidableEq, Repr

/-- A **path**: an anchor and the names below it. -/
structure Path where
  /-- Where the names begin. -/
  anchor : Anchor
  /-- The names from the anchor on; none of them is empty or a single dot. -/
  names : List String
  deriving DecidableEq, Repr

namespace Anchor

/-- The anchor that a text begins with. Three or more slashes are one. -/
def ofChars : List Char → Anchor
  | '/' :: '/' :: '/' :: _ => .root
  | '/' :: '/' :: _ => .doubleRoot
  | '/' :: _ => .root
  | _ => .relative

/-- The text of an anchor. -/
def chars : Anchor → List Char
  | relative => []
  | root => ['/']
  | doubleRoot => ['/', '/']

end Anchor

namespace Path

/-- Whether a field between slashes is a name of the path. -/
def isName (field : List Char) : Bool :=
  !field.isEmpty && field != ['.']

/-- The path that a text writes. -/
def ofString (text : String) : Path :=
  { anchor := .ofChars text.toList
    names := ((Text.fields '/' text.toList).filter isName).map String.ofList }

/-- Names with a slash between neighbours. -/
def joinNames (names : List String) : List Char :=
  Text.joinFields '/' (names.map String.toList)

/-- The text of a path: its anchor and names, or a single dot when it has neither. -/
def text (path : Path) : String :=
  match path.anchor.chars ++ joinNames path.names with
  | [] => "."
  | chars => String.ofList chars

/-- The path of a name below a path. -/
def child (path : Path) (name : String) : Path :=
  { path with names := path.names ++ [name] }

/-- The path without its last name. -/
def parent (path : Path) : Path :=
  { path with names := path.names.dropLast }

/-- The names of a path **below a root**, which has the same anchor and whose names are the first
ones of the path; `none` for a path that is not below it. -/
def below? (path root : Path) : Option (List String) :=
  if path.anchor = root.anchor ∧ root.names <+: path.names then
    some (path.names.drop root.names.length)
  else none

/-- The suffix of a name: its last dot and what follows, when neither side of the dot is empty. -/
def suffix (name : List Char) : List Char :=
  let tail := name.reverse.takeWhile (· != '.')
  if tail.isEmpty || name.length ≤ tail.length + 1 then [] else '.' :: tail.reverse


/-- What lies between a root and a path below it completes the root's names to the path's. -/
theorem names_of_below? {path root : Path} {names : List String}
    (below : path.below? root = some names) : path.names = root.names ++ names := by
  unfold below? at below
  split at below
  next holds =>
    obtain ⟨rest, equal⟩ := holds.2
    rw [← equal, List.drop_left, Option.some.injEq] at below
    rw [← equal, below]
  next => simp at below

/-- A text has at least as many bytes as characters. -/
theorem length_le_utf8ByteSize (text : List Char) :
    text.length ≤ (String.ofList text).utf8ByteSize := by
  induction text with
  | nil => simp
  | cons c rest ih =>
    have positive := c.utf8Size_pos
    have first : (String.ofList [c]).utf8ByteSize = c.utf8Size := by simp
    rw [← List.singleton_append, String.ofList_append, String.utf8ByteSize_append, first]
    simp only [List.length_append, List.length_singleton]
    omega

/-- A path has at most one name more than its text has bytes. -/
theorem names_length_le (path : Path) : path.names.length ≤ path.text.utf8ByteSize + 1 := by
  have joined := Text.length_le_length_joinFields '/' (path.names.map String.toList)
  rw [List.length_map] at joined
  unfold text
  split
  next empty =>
    simp only [List.append_eq_nil_iff, joinNames] at empty
    rw [empty.2] at joined
    exact Nat.le_trans joined (by decide)
  next =>
    have size := length_le_utf8ByteSize (path.anchor.chars ++ joinNames path.names)
    simp only [joinNames, List.length_append] at size ⊢
    omega

end Path

end FileRoutes
