import FileRoutes.FileSystem.RealPath
import FileRoutes.Proofs.FileSystem.Walk

/-! # What the contents of files do not decide

The **outline** of a file system is what is left when the bytes of its files are forgotten: the
names, the directories and the links. File systems with the same outline (`SameOutline`) walk alike
along every path (`SameOutline.walk`), resolve every path alike (`SameOutline.resolve`), list the
same names, and answer alike every question that does not look into files. -/

namespace FileRoutes

/-- An entry without the bytes of a file. -/
def Entry.outline : Entry → Entry
  | .file _ => .file []
  | entry => entry

/-- A landing without the bytes of a file. -/
def Landing.outline : Landing → Landing
  | .taken location entry => .taken location entry.outline
  | .free location => .free location

/-- Two file systems have the **same outline** when they differ in the bytes of files alone. -/
structure SameOutline (fs other : FileSystem) : Prop where
  /-- Relative paths begin at the same place. -/
  workingDirectory : fs.workingDirectory = other.workingDirectory
  /-- The same kind of entry, and of links the same, is stored everywhere. -/
  entries : ∀ location,
    (fs.entry? location).map Entry.outline = (other.entry? location).map Entry.outline

namespace SameOutline

variable {fs other : FileSystem}

/-- What is stored at a location: nothing in both, the same in both, or a file in both. -/
theorem entry?_cases (same : SameOutline fs other) (location : Location) :
    (fs.entry? location = none ∧ other.entry? location = none) ∨
    (fs.entry? location = some .directory ∧ other.entry? location = some .directory) ∨
    (∃ target, fs.entry? location = some (.link target) ∧
      other.entry? location = some (.link target)) ∨
    ∃ bytes bytes', fs.entry? location = some (.file bytes) ∧
      other.entry? location = some (.file bytes') := by
  have equal := same.entries location
  cases stored : fs.entry? location with
  | none =>
    rw [stored, Option.map_none, eq_comm, Option.map_eq_none_iff] at equal
    exact .inl ⟨rfl, equal⟩
  | some entry =>
    rw [stored, Option.map_some, eq_comm, Option.map_eq_some_iff] at equal
    obtain ⟨entry', stored', equal⟩ := equal
    rw [stored']
    cases entry <;> cases entry' <;> simp_all [Entry.outline]

/-- Where nothing is stored, nothing is stored in the other one. -/
theorem entry?_eq_none (same : SameOutline fs other) {location : Location}
    (stored : fs.entry? location = none) : other.entry? location = none := by
  have equal := same.entries location
  rwa [stored, Option.map_none, eq_comm, Option.map_eq_none_iff] at equal

/-- Where a link is stored, the same link is stored in the other one. -/
theorem entry?_eq_link (same : SameOutline fs other) {location : Location} {target : String}
    (stored : fs.entry? location = some (.link target)) :
    other.entry? location = some (.link target) := by
  rcases same.entry?_cases location with ⟨other, -⟩ | ⟨other, -⟩ | ⟨_, other, equal⟩ |
    ⟨_, _, other, -⟩
  all_goals rw [other] at stored; cases stored
  exact equal

/-- The same locations are directories. -/
theorem isDirectoryAt (same : SameOutline fs other) (location : Location) :
    fs.isDirectoryAt location = other.isDirectoryAt location := by
  rcases same.entry?_cases location with ⟨stored, stored'⟩ | ⟨stored, stored'⟩ |
    ⟨target, stored, stored'⟩ | ⟨bytes, bytes', stored, stored'⟩
  all_goals rw [FileSystem.isDirectoryAt, FileSystem.isDirectoryAt, stored, stored']
  rfl

/-! ## Walking -/

/-- The same names are passed. -/
theorem passes (same : SameOutline fs other) {here next : Location} {name : String}
    (passes : fs.Passes here name next) : other.Passes here name next := by
  cases passes with
  | stay inside stays => exact .stay (same.isDirectoryAt here ▸ inside) stays
  | up inside => exact .up (same.isDirectoryAt here ▸ inside)
  | down inside moves deeper short stored noLink =>
    have inside : other.isDirectoryAt here = true := same.isDirectoryAt here ▸ inside
    rcases same.entry?_cases (here ++ [name]) with ⟨none, -⟩ | ⟨-, stored'⟩ |
      ⟨target, link, -⟩ | ⟨-, _, -, stored'⟩
    · rw [none] at stored
      cases stored
    · exact .down inside moves deeper short stored' nofun
    · exact absurd (Option.some.inj (stored.symm.trans link)) (noLink target)
    · exact .down inside moves deeper short stored' nofun

/-- The same links are met. -/
theorem meetsLink (same : SameOutline fs other) {here : Location} {name target : String}
    (link : fs.MeetsLink here name target) : other.MeetsLink here name target where
  inside := same.isDirectoryAt here ▸ link.inside
  moves := link.moves
  deeper := link.deeper
  short := link.short
  stored := same.entry?_eq_link link.stored

/-- **Walks lead to the same places**, whatever the files on their way hold. -/
theorem walk (same : SameOutline fs other) (follow : Bool) (links : Nat) (here : Location)
    (names : List String) :
    (fs.walk follow links here names).map Landing.outline =
      (other.walk follow links here names).map Landing.outline := by
  -- A step asks whether it stands in a directory and what is stored under the next name there, and
  -- both file systems answer alike, but for the bytes of a file at the end.
  fun_induction FileSystem.walk fs follow links here names with
  | case1 links here entry stored =>
    have equal := same.entries here
    rw [stored, Option.map_some, eq_comm, Option.map_eq_some_iff] at equal
    obtain ⟨entry', stored', equal⟩ := equal
    rw [FileSystem.walk, stored']
    simp [Except.map, Landing.outline, equal]
  | case2 links here stored => rw [FileSystem.walk, same.entry?_eq_none stored]
  | case3 links here name rest outside =>
    rw [same.isDirectoryAt] at outside
    rw [FileSystem.walk, if_pos outside]
  | case4 links here name rest inside stays ih =>
    have passes : fs.Passes here name here := .stay (by simpa using inside) stays
    rw [ih, (same.passes passes).walk_cons]
  | case5 links here rest inside moves ih =>
    have passes : fs.Passes here ".." here.dropLast := .up (by simpa using inside)
    rw [ih, (same.passes passes).walk_cons]
  | case6 links here name rest inside moves deeper long =>
    rw [same.isDirectoryAt] at inside
    rw [FileSystem.walk.eq_2, if_neg inside, if_neg moves, if_neg deeper, if_pos long]
  | case7 links here name rest inside moves deeper short stored last =>
    rw [same.isDirectoryAt] at inside
    rw [FileSystem.walk.eq_2, if_neg inside, if_neg moves, if_neg deeper, if_neg short,
      same.entry?_eq_none stored]
    simp only [last, if_true]
  | case8 links here name rest inside moves deeper short stored more =>
    rw [same.isDirectoryAt] at inside
    rw [FileSystem.walk.eq_2, if_neg inside, if_neg moves, if_neg deeper, if_neg short,
      same.entry?_eq_none stored]
    simp only [more, Bool.false_eq_true, if_false]
  | case9 links here name rest inside moves deeper short target stored ends =>
    have link : fs.MeetsLink here name target :=
      ⟨by simpa using inside, moves, deeper, Nat.le_of_not_lt short, stored⟩
    obtain ⟨last, stops⟩ : rest = [] ∧ follow = false := by simpa using ends
    subst last stops
    rw [(same.meetsLink link).walk_singleton]
  | case10 here name rest inside moves deeper short target stored goesOn =>
    have link : fs.MeetsLink here name target :=
      ⟨by simpa using inside, moves, deeper, Nat.le_of_not_lt short, stored⟩
    rw [(same.meetsLink link).walk_zero_cons (by simpa using goesOn)]
  | case11 here name rest inside moves deeper short target stored goesOn links ih =>
    have link : fs.MeetsLink here name target :=
      ⟨by simpa using inside, moves, deeper, Nat.le_of_not_lt short, stored⟩
    rw [ih, (same.meetsLink link).walk_cons_of_follows links (by simpa using goesOn)]
  | case12 links here name rest inside moves deeper short entry noLink stored ih =>
    have passes : fs.Passes here name (here ++ [name]) :=
      .down (by simpa using inside) moves deeper (Nat.le_of_not_lt short) stored noLink
    rw [ih, (same.passes passes).walk_cons]

/-- A path leads to the same place. -/
theorem find (same : SameOutline fs other) (follow : Bool) (path : Path) :
    (fs.find follow path).map Landing.outline = (other.find follow path).map Landing.outline := by
  have origin : fs.origin path = other.origin path := by
    rw [FileSystem.origin, FileSystem.origin, same.workingDirectory]
  have reached := same.walk follow linkLimit (fs.origin path) path.names
  rw [FileSystem.find, FileSystem.find, ← origin]
  split
  · rfl
  split
  · rfl
  revert reached
  cases fs.walk follow linkLimit (fs.origin path) path.names <;>
    cases other.walk follow linkLimit (fs.origin path) path.names <;>
    simp [Except.map, Except.mapError]

/-- **A path leads to the same entry**, but for the bytes of a file, or fails alike. -/
theorem status_cases (same : SameOutline fs other) (path : Path) :
    (∃ failure, fs.status path = .error failure ∧ other.status path = .error failure) ∨
    ∃ location entry entry', fs.status path = .ok (location, entry) ∧
      other.status path = .ok (location, entry') ∧ entry.outline = entry'.outline := by
  have found := same.find true path
  unfold FileSystem.status
  cases reached : fs.find true path with
  | error failure =>
    cases reached' : other.find true path with
    | error failure' =>
      rw [reached, reached'] at found
      obtain rfl : failure = failure' := Except.error.inj found
      exact .inl ⟨failure, rfl, rfl⟩
    | ok landing' =>
      rw [reached, reached'] at found
      cases found
  | ok landing =>
    cases reached' : other.find true path with
    | error failure' =>
      rw [reached, reached'] at found
      cases found
    | ok landing' =>
      rw [reached, reached'] at found
      have equal : landing.outline = landing'.outline := Except.ok.inj found
      -- Both landings are taken or both are free, at the same location.
      cases landing <;> cases landing' <;>
        simp only [Landing.outline, Landing.taken.injEq, Landing.free.injEq, reduceCtorEq] at equal
      · obtain ⟨rfl, equal⟩ := equal
        exact .inr ⟨_, _, _, rfl, rfl, equal⟩
      · exact .inl ⟨_, rfl, rfl⟩

/-! ## Questions and listings -/

/-- Questions that do not look into files are answered alike. -/
theorem ask (same : SameOutline fs other) {question : Entry → Bool}
    (blind : ∀ entry, question entry.outline = question entry) (path : Path) :
    fs.ask question path = other.ask question path := by
  rw [FileSystem.ask, FileSystem.ask]
  rcases same.status_cases path with ⟨failure, found, found'⟩ |
    ⟨location, entry, entry', found, found', equal⟩
  · rw [found, found']
  · rw [found, found']
    simp only [← blind entry, equal, blind entry']

/-- The same paths lead to something. -/
theorem holds (same : SameOutline fs other) (path : Path) : fs.holds path = other.holds path :=
  same.ask (fun _ => rfl) path

/-- The same paths lead to a directory. -/
theorem isDirectory (same : SameOutline fs other) (path : Path) :
    fs.isDirectory path = other.isDirectory path :=
  same.ask (fun entry => by cases entry <;> rfl) path

end SameOutline

/-! ### Listings -/

/-- Removing repetitions leaves none. -/
theorem nodup_eraseDups {α : Type} [BEq α] [LawfulBEq α] (l : List α) : l.eraseDups.Nodup := by
  cases l with
  | nil => simp
  | cons a l =>
    rw [List.eraseDups_cons, List.nodup_cons]
    constructor
    · rw [List.mem_eraseDups]
      simp
    · exact nodup_eraseDups _
  termination_by l.length
  decreasing_by
    have shorter := List.length_filter_le (fun b => !b == a) l
    simp only [List.length_cons]
    omega

/-- Sorted names ascend. -/
theorem pairwise_le_mergeSort (names : List String) : names.mergeSort.Pairwise (· ≤ ·) := by
  have trans : ∀ a b c : String, decide (a ≤ b) → decide (b ≤ c) → decide (a ≤ c) := by
    intro a b c first second
    simp only [decide_eq_true_eq] at first second ⊢
    exact String.le_trans first second
  have total : ∀ a b : String, decide (a ≤ b) || decide (b ≤ a) := by
    intro a b
    simpa using String.le_total a b
  simpa using List.pairwise_mergeSort trans total names

/-- Sorting does not see in which order names are given. -/
theorem mergeSort_eq_of_perm {names names' : List String} (perm : names.Perm names') :
    names.mergeSort = names'.mergeSort := by
  refine List.Perm.eq_of_pairwise ?_ (pairwise_le_mergeSort names) (pairwise_le_mergeSort names') ?_
  · exact fun a b _ _ first second => String.le_antisymm first second
  · exact (names.mergeSort_perm _).trans (perm.trans (names'.mergeSort_perm _).symm)

/-- Names of which each is given once strictly ascend when they are sorted. -/
theorem pairwise_lt_mergeSort {names : List String} (once : names.Nodup) :
    names.mergeSort.Pairwise (· < ·) := by
  have once' : names.mergeSort.Nodup := (List.mergeSort_perm _ _).nodup_iff.2 once
  refine ((pairwise_le_mergeSort names).and once').imp fun {a b} ordered => ?_
  exact lt_of_le_of_ne ordered.1 ordered.2

/-- A name stands in a directory at the location that completes the directory's by the name. -/
theorem nameIn?_eq_some_iff {directory location : Location} {name : String} :
    FileSystem.nameIn? directory location = some name ↔ location = directory ++ [name] := by
  unfold FileSystem.nameIn?
  constructor
  · intro found
    split at found
    next front =>
      obtain ⟨others, rfl⟩ := List.getLast?_eq_some_iff.1 found
      rw [← front, List.dropLast_concat]
    next => simp at found
  · rintro rfl
    simp

/-- **A name stands in a directory** when something is stored under it there. -/
theorem FileSystem.mem_namesIn_iff {fs : FileSystem} {directory : Location} {name : String} :
    name ∈ fs.namesIn directory ↔ fs.entry? (directory ++ [name]) ≠ none := by
  have listed : name ∈ fs.namesIn directory ↔ ∃ entry, (directory ++ [name], entry) ∈ fs.entries := by
    simp only [FileSystem.namesIn, List.mem_eraseDups, List.mem_filterMap, Prod.exists,
      nameIn?_eq_some_iff]
    constructor
    · rintro ⟨_, entry, member, rfl⟩
      exact ⟨entry, member⟩
    · rintro ⟨entry, member⟩
      exact ⟨_, entry, member, rfl⟩
  rw [listed, FileSystem.entry?_of_ne_nil _ (by simp), Ne, List.lookup_eq_none_iff]
  simp

namespace SameOutline

variable {fs other : FileSystem}

/-- A directory holds the same names, in one order or another. -/
theorem namesIn (same : SameOutline fs other) (directory : Location) :
    (fs.namesIn directory).Perm (other.namesIn directory) := by
  -- The tables may give the names in different orders, but none of them twice.
  have members : ∀ name, name ∈ fs.namesIn directory ↔ name ∈ other.namesIn directory := by
    intro name
    have stored := same.entries (directory ++ [name])
    rw [FileSystem.mem_namesIn_iff, FileSystem.mem_namesIn_iff, Ne, Ne,
      ← Option.map_eq_none_iff (f := Entry.outline), stored, Option.map_eq_none_iff]
  exact (List.perm_ext_iff_of_nodup (nodup_eraseDups _) (nodup_eraseDups _)).2 members

/-- **Listing a directory gives the same names.** -/
theorem list (same : SameOutline fs other) (path : Path) : fs.list path = other.list path := by
  unfold FileSystem.list
  rcases same.status_cases path with ⟨failure, found, found'⟩ |
    ⟨location, entry, entry', found, found', equal⟩
  · rw [found, found']
    rfl
  · rw [found, found']
    cases entry <;> cases entry' <;> simp only [Entry.outline, reduceCtorEq] at equal
    · rfl
    · exact congrArg Except.ok (mergeSort_eq_of_perm (same.namesIn location))
    · rfl

end SameOutline

/-! ## Resolving -/

namespace FileSystem

variable {fs : FileSystem} {pending : List Path} {here : Path} {name : String}

/-- A name under which no link is found is gone through. -/
theorem follow_cons_of_noLink (moves : ¬(name = "" ∨ name = ".")) (down : ¬name = "..")
    (clean : '\x00' ∉ name.toList) (stored : fs.linkAt? (here.child name) = none)
    (rest : List String) :
    fs.follow pending here (name :: rest) = fs.follow pending (here.child name) rest := by
  rw [follow.eq_2, if_neg moves, if_neg down, if_neg clean]
  split
  next => rfl
  next target link =>
    rw [stored] at link
    cases link

/-- A link is resolved, unless it is being resolved already, and the rest is followed from there. -/
theorem follow_cons_of_link (moves : ¬(name = "" ∨ name = ".")) (down : ¬name = "..")
    (clean : '\x00' ∉ name.toList) {target : String}
    (stored : fs.linkAt? (here.child name) = some target) (rest : List String) :
    fs.follow pending here (name :: rest) =
      if here.child name ∈ pending then
        .stuck ((here.child name).join (.ofList (Path.joinNames rest)))
      else
        match fs.follow (here.child name :: pending) (here.start target) (namesAlong target) with
        | .settled path => fs.follow pending path rest
        | .stuck path => .stuck (path.join (.ofList (Path.joinNames rest)))
        | .invalid => .invalid := by
  rw [follow.eq_2, if_neg moves, if_neg down, if_neg clean]
  split
  next noLink =>
    rw [stored] at noLink
    cases noLink
  next target' link =>
    obtain rfl : target = target' := Option.some.inj (stored.symm.trans link)
    split <;> rfl

end FileSystem

namespace SameOutline

variable {fs other : FileSystem}

/-- The same links are found. -/
theorem linkAt? (same : SameOutline fs other) (path : Path) :
    fs.linkAt? path = other.linkAt? path := by
  have found := same.find false path
  unfold FileSystem.linkAt?
  cases reached : fs.find false path with
  | error failure =>
    rw [reached] at found
    cases reached' : other.find false path with
    | error failure' => rfl
    | ok landing' =>
      rw [reached'] at found
      cases found
  | ok landing =>
    rw [reached] at found
    cases reached' : other.find false path with
    | error failure' =>
      rw [reached'] at found
      cases found
    | ok landing' =>
      rw [reached'] at found
      have equal : landing.outline = landing'.outline := Except.ok.inj found
      -- Both landings are taken or both are free, and one is at a link when the other is.
      cases landing <;> cases landing' <;>
        simp only [Landing.outline, Landing.taken.injEq, reduceCtorEq] at equal
      next entry _ entry' =>
        cases entry <;> cases entry' <;>
          simp only [Entry.outline, Entry.link.injEq, reduceCtorEq, and_false] at equal ⊢
        rw [equal.2]
      next => rfl

/-- **Following names leads to the same path.** -/
theorem follow (same : SameOutline fs other) (pending : List Path) (here : Path)
    (names : List String) : fs.follow pending here names = other.follow pending here names := by
  -- Only the links are asked for, and they are the same in both.
  fun_induction FileSystem.follow fs pending here names with
  | case1 pending here => rw [FileSystem.follow]
  | case2 pending here name rest stays ih => rw [ih, FileSystem.follow.eq_2, if_pos stays]
  | case3 pending here rest moves ih =>
    rw [ih, FileSystem.follow.eq_2, if_neg moves, if_pos rfl]
  | case4 pending here name rest moves down null =>
    rw [FileSystem.follow.eq_2, if_neg moves, if_neg down, if_pos null]
  | case5 pending here name rest moves down clean stored ih =>
    rw [same.linkAt?] at stored
    rw [ih, FileSystem.follow_cons_of_noLink moves down clean stored]
  | case6 pending here name rest moves down clean target stored met =>
    rw [same.linkAt?] at stored
    rw [FileSystem.follow_cons_of_link moves down clean stored, if_pos met]
  | case7 pending here name rest moves down clean target stored fresh _ path reached ih ih' =>
    rw [same.linkAt?] at stored
    rw [FileSystem.follow_cons_of_link moves down clean stored, if_neg fresh, ← ih, reached]
    exact ih'
  | case8 pending here name rest moves down clean target stored fresh _ path reached ih =>
    rw [same.linkAt?] at stored
    rw [FileSystem.follow_cons_of_link moves down clean stored, if_neg fresh, ← ih, reached]
  | case9 pending here name rest moves down clean target stored fresh _ reached ih =>
    rw [same.linkAt?] at stored
    rw [FileSystem.follow_cons_of_link moves down clean stored, if_neg fresh, ← ih, reached]

/-- The system gives up on the same paths. -/
theorem checked (same : SameOutline fs other) (path : Path) :
    fs.checked path = other.checked path := by
  rw [FileSystem.checked, FileSystem.checked]
  rcases same.status_cases path with ⟨failure, found, found'⟩ | ⟨_, _, _, found, found', -⟩
  all_goals rw [found, found']

/-- **Every path resolves alike.** -/
theorem resolve (same : SameOutline fs other) (path : Path) :
    fs.resolve path = other.resolve path := by
  have absolute : ∀ reached, fs.absolute reached = other.absolute reached := by
    intro reached
    simp only [FileSystem.absolute, FileSystem.place, FileSystem.origin, same.workingDirectory]
  unfold FileSystem.resolve
  simp only [same.follow, absolute, same.checked]

/-- The same paths lie within one another. -/
theorem isWithin (same : SameOutline fs other) (path root : Path) :
    fs.isWithin path root = other.isWithin path root := by
  rw [FileSystem.isWithin, FileSystem.isWithin, same.resolve, same.resolve]

end SameOutline

end FileRoutes
