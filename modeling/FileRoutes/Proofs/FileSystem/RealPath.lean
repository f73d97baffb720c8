import FileRoutes.FileSystem.RealPath
import FileRoutes.Proofs.FileSystem.Walk
import FileRoutes.Proofs.Path

/-! # Steps along paths, and when paths do not resolve

Resolving goes from path to path, one name further or one step up (`Path.up_cases`). A path resolves
unless it holds a NUL character or **ends in a cycle** of links (`EndsInCycle`): the system gives up on the
path that its names lead to. Only a cycle keeps the question whether one path lies within another
from being answered (`exists_isWithin_eq_ok_iff`). -/

namespace FileRoutes

namespace Path

variable {path : Path} {name : String}

/-- **What one step up does**: it adds double dots, stays at the root, or takes the last name
away. -/
theorem up_cases (path : Path) :
    path.up = path.child ".." ∨
    (path.anchor ≠ .relative ∧ path.names = [] ∧ path.up = path) ∨
    ∃ name, name ≠ ".." ∧ path = path.parent.child name ∧ path.up = path.parent := by
  unfold up
  cases last : path.names.getLast? with
  | none =>
    by_cases relative : path.anchor = .relative
    · exact .inl (if_pos relative)
    · exact .inr (.inl ⟨relative, List.getLast?_eq_none_iff.1 last, if_neg relative⟩)
  | some name =>
    by_cases again : name = ".."
    · exact .inl (if_pos again)
    · obtain ⟨front, names⟩ := List.getLast?_eq_some_iff.1 last
      have back : path = path.parent.child name := by
        rw [parent, child, names, List.dropLast_concat, ← names]
      exact .inr (.inr ⟨name, again, back, if_neg again⟩)

/-- One step up keeps where the path begins. -/
@[simp] theorem anchor_up (path : Path) : path.up.anchor = path.anchor := by
  rcases path.up_cases with up | ⟨-, -, up⟩ | ⟨_, -, -, up⟩ <;> rw [up] <;> rfl

/-- A path whose names **all move**: none of them is empty or a single dot. -/
def OnlyMoves (path : Path) : Prop := ∀ name ∈ path.names, ¬(name = "" ∨ name = ".")

/-- A path without names has none that does not move. -/
theorem onlyMoves_base (path : Path) : path.base.OnlyMoves := fun _ member => by cases member

/-- One more name moves on. -/
theorem OnlyMoves.child (moves : path.OnlyMoves) (further : ¬(name = "" ∨ name = ".")) :
    (path.child name).OnlyMoves := by
  intro other member
  rcases List.mem_append.1 member with before | last
  · exact moves other before
  · exact List.mem_singleton.1 last ▸ further

/-- One step up keeps names that move. -/
theorem OnlyMoves.up (moves : path.OnlyMoves) : path.up.OnlyMoves := by
  rcases path.up_cases with up | ⟨-, -, up⟩ | ⟨_, -, -, up⟩ <;> rw [up]
  · exact moves.child (by decide)
  · exact moves
  · exact fun other member => moves other ((List.dropLast_sublist _).subset member)

end Path

/-- **Joined names are found again** along their text, which does not begin at the root. -/
theorem namesAlong_joinNames {names : List String} (something : names ≠ [])
    (can : ∀ name ∈ names, IsPathName name) :
    namesAlong (.ofList (Path.joinNames names)) = names ∧
      isAbsolute (.ofList (Path.joinNames names)) = false := by
  have whole : ∀ part ∈ names.map String.toList, '/' ∉ part := by
    intro part member
    obtain ⟨name, inside, rfl⟩ := List.mem_map.1 member
    exact (can name inside).whole
  constructor
  · rw [namesAlong, String.toList_ofList, Path.joinNames,
      Text.fields_joinFields (by simpa using something) whole, List.map_map]
    exact (List.map_congr_left fun _ _ => String.ofList_toList).trans (List.map_id _)
  · obtain ⟨first, others, rfl⟩ := List.exists_cons_of_ne_nil something
    obtain ⟨c, rest, other, joined⟩ :=
      Path.exists_joinNames_eq_cons (can first List.mem_cons_self) others
    rw [isAbsolute, String.toList_ofList, joined]
    simpa using other

namespace FileSystem

variable {fs : FileSystem} {path root : Path}

/-- A path begins where its names do. -/
theorem origin_base (fs : FileSystem) (path : Path) : fs.origin path.base = fs.origin path := by
  obtain ⟨anchor, names⟩ := path
  cases anchor <;> rfl

/-- A path that is not relative begins at the root. -/
theorem origin_of_anchored (anchored : path.anchor ≠ .relative) : fs.origin path = [] := by
  unfold origin
  split
  next relative => exact absurd relative anchored
  all_goals rfl

/-- A path **ends in a cycle** when the system finds too many links on the way along the path that
its names lead to. -/
def EndsInCycle (fs : FileSystem) (path : Path) : Prop :=
  ∃ reached,
    (fs.follow [] path.base path.names = .settled reached ∨
      fs.follow [] path.base path.names = .stuck reached) ∧
    ∃ place, fs.status (fs.absolute reached) = .error (.system .tooManyLinks place)

/-- A path is given up on when the system finds too many links. -/
theorem checked_eq_linkLoop_iff : fs.checked path = .error .linkLoop ↔
    ∃ place, fs.status path = .error (.system .tooManyLinks place) := by
  unfold checked
  split
  next given => simp [given]
  next place given => simp [given]
  next other =>
    constructor
    · intro impossible
      cases impossible
    · rintro ⟨place, given⟩
      exact absurd given (other place)

/-- A path that is not given up on stays as it is. -/
theorem eq_of_checked {reached : Path} (given : fs.checked path = .ok reached) : reached = path := by
  unfold checked at given
  split at given
  · cases given
  · cases given
  · exact (Except.ok.inj given).symm

/-- A path that leads to an entry is not given up on. -/
theorem checked_of_status {place : Location × Entry} (reached : fs.status path = .ok place) :
    fs.checked path = .ok path := by
  rw [checked, reached]

/-- **A path does not resolve because of a cycle** when it ends in one. -/
theorem resolve_eq_linkLoop_iff : fs.resolve path = .error .linkLoop ↔ fs.EndsInCycle path := by
  unfold resolve EndsInCycle
  cases fs.follow [] path.base path.names with
  | settled reached => simp only [checked_eq_linkLoop_iff, Resolved.settled.injEq, reduceCtorEq,
      or_false, exists_eq_left']
  | stuck reached => simp only [checked_eq_linkLoop_iff, Resolved.stuck.injEq, reduceCtorEq,
      false_or, exists_eq_left']
  | invalid => simp

/-- A path can be **compared** with a root when it does not end in a cycle, and neither does the root
if it is looked at, which it is for a path that resolves. -/
def Comparable (fs : FileSystem) (path root : Path) : Prop :=
  ¬ fs.EndsInCycle path ∧ ∀ reached, fs.resolve path = .ok reached → ¬ fs.EndsInCycle root

/-- **Whether a path lies within a root is answered** when the two can be compared. -/
theorem exists_isWithin_eq_ok_iff :
    (∃ answer, fs.isWithin path root = .ok answer) ↔ fs.Comparable path root := by
  rw [Comparable, ← resolve_eq_linkLoop_iff, ← resolve_eq_linkLoop_iff]
  unfold isWithin
  cases fs.resolve path with
  | error failure => cases failure <;> simp
  | ok reached =>
    cases fs.resolve root with
    | error failure => cases failure <;> simp
    | ok base => simp

/-- A path **resolves within** a root when both resolve, and the path does so to the resolved root or
goes on below it. -/
def ResolvesWithin (fs : FileSystem) (path root : Path) : Prop :=
  ∃ base names, fs.resolve root = .ok base ∧ fs.resolve path = .ok (base.descend names)

/-- **Whether a path lies within a root is a yes** when it resolves within it. -/
theorem isWithin_eq_true_iff : fs.isWithin path root = .ok true ↔ fs.ResolvesWithin path root := by
  unfold isWithin ResolvesWithin
  cases fs.resolve path with
  | error failure => cases failure <;> simp
  | ok reached =>
    cases fs.resolve root with
    | error failure => cases failure <;> simp
    | ok base => simp [Option.isSome_iff_exists, Path.below?_eq_some_iff]

/-- **Whether a path lies within a root is a no** when it does not resolve within it and neither of
them ends in a cycle. -/
theorem isWithin_eq_false (acyclic : ¬ fs.EndsInCycle path) (acyclic' : ¬ fs.EndsInCycle root)
    (outside : ¬ fs.ResolvesWithin path root) : fs.isWithin path root = .ok false := by
  obtain ⟨answer, given⟩ := exists_isWithin_eq_ok_iff.2 ⟨acyclic, fun _ _ => acyclic'⟩
  cases answer with
  | false => exact given
  | true => exact absurd (isWithin_eq_true_iff.1 given) outside

end FileSystem

end FileRoutes
