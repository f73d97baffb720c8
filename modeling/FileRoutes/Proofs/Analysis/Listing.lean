import FileRoutes.Proofs.Analysis.Discovery
import FileRoutes.Proofs.FileSystem.Tree
import FileRoutes.Proofs.UrlPath

/-! # The listing of a tree

Which route files the search lists, and in what order. Below any directory it lists the paths of the
names that are **found** there (`Finds`), in strictly ascending order of the name lists
(`areInOrder_discoverBelow`). Below the root of a tree these are the names of its **route files**
(`IsRouteFile`, `finds_iff_isRouteFile`), and the search fails only for a path down the tree that is
too long for the system (`discover_tree`), which can be one to a route file
(`discover_ne_ok_windingPath`). -/

namespace FileRoutes

/-! ## In which order files are found -/

variable {fs : FileSystem}

/-- **Names are found** below a directory when they go through directories to a route file, and each
of them is listed and not passed over. -/
inductive Finds (fs : FileSystem) : Path → List String → Prop where
  /-- The name of a route file in the directory. -/
  | here {directory : Path} {name : String} (stands : StandsIn fs directory (directory.child name))
      (plain : fs.isDirectory (directory.child name) = .ok false)
      (isRouteFile : isRouteFileName name = true) : Finds fs directory [name]
  /-- Names that are found below a directory in the directory. -/
  | inside {directory : Path} {name : String} {names : List String}
      (stands : StandsIn fs directory (directory.child name))
      (isDirectory : fs.isDirectory (directory.child name) = .ok true)
      (found : Finds fs (directory.child name) names) : Finds fs directory (name :: names)

/-- A path is listed under its last name. -/
theorem standsIn_child_iff {directory : Path} {name : String} :
    StandsIn fs directory (directory.child name) ↔
      (∃ names, fs.list directory = .ok names ∧ name ∈ names) ∧ isPassedOver name = false := by
  constructor
  · rintro ⟨names, other, listed, member, kept, same⟩
    obtain rfl : name = other := by simpa [Path.child] using same
    exact ⟨⟨names, listed, member⟩, kept⟩
  · rintro ⟨⟨names, listed, member⟩, kept⟩
    exact ⟨names, name, listed, member, kept, rfl⟩

/-- **Files in order**: the paths are those of name lists in strictly ascending order, and these are
the ones with some property. -/
def AreInOrder (directory : Path) (found : List Path) (property : List String → Prop) : Prop :=
  ∃ lists : List (List String), found = lists.map directory.descend ∧
    lists.Pairwise (· < ·) ∧ ∀ names, names ∈ lists ↔ property names

/-- Nothing is found under no names. -/
theorem not_finds_nil {directory : Path} : ¬ Finds fs directory [] := by
  intro found
  cases found

/-- The first of some names stands in the directory, and the others are found below it, if any. -/
theorem finds_cons_iff {directory : Path} {name : String} {names : List String} :
    Finds fs directory (name :: names) ↔ StandsIn fs directory (directory.child name) ∧
      (names = [] ∧ fs.isDirectory (directory.child name) = .ok false ∧
          isRouteFileName name = true ∨
        fs.isDirectory (directory.child name) = .ok true ∧
          Finds fs (directory.child name) names) := by
  constructor
  · intro found
    cases found with
    | here stands plain isRouteFile => exact ⟨stands, .inl ⟨rfl, plain, isRouteFile⟩⟩
    | inside stands isDirectory found => exact ⟨stands, .inr ⟨isDirectory, found⟩⟩
  · rintro ⟨stands, ⟨rfl, plain, isRouteFile⟩ | ⟨isDirectory, found⟩⟩
    · exact .here stands plain isRouteFile
    · exact .inside stands isDirectory found

/-- What is found begins with a name that is listed. -/
theorem Finds.exists_listed {directory : Path} {names : List String}
    (found : Finds fs directory names) :
    ∃ name listed, fs.list directory = .ok listed ∧ name ∈ listed ∧ names.head? = some name := by
  cases names with
  | nil => exact absurd found not_finds_nil
  | cons name rest =>
    obtain ⟨⟨listed, given, member⟩, -⟩ := standsIn_child_iff.1 (finds_cons_iff.1 found).1
    exact ⟨name, listed, given, member, rfl⟩

/-- **What one name gives** is in order: the names that are found and begin with it. -/
theorem areInOrder_discoverAt {directory : Path} {name : String} {found : List Path}
    (searched : discoverAt fs directory name = .ok found)
    (listed : ∃ names, fs.list directory = .ok names ∧ name ∈ names)
    (below : fs.isDirectory (directory.child name) = .ok true → ∀ found,
      discoverBelow fs (directory.child name) = .ok found →
      AreInOrder (directory.child name) found (Finds fs (directory.child name))) :
    AreInOrder directory found fun names => names.head? = some name ∧ Finds fs directory names := by
  have begins : ∀ names : List String, names.head? = some name ∧ Finds fs directory names ↔
      ∃ rest, names = name :: rest ∧ Finds fs directory (name :: rest) := by
    intro names
    rw [List.head?_eq_some_iff]
    constructor
    · rintro ⟨⟨rest, rfl⟩, found⟩
      exact ⟨rest, rfl, found⟩
    · rintro ⟨rest, rfl, found⟩
      exact ⟨⟨rest, rfl⟩, found⟩
  simp only [AreInOrder, begins, finds_cons_iff, standsIn_child_iff, listed, true_and]
  -- A name is passed over, or that of a directory, or of something else, and each case is one side of
  -- what is found.
  unfold discoverAt at searched
  split at searched
  next passed =>
    obtain rfl := Except.ok.inj searched
    exact ⟨[], rfl, .nil, by simp [passed]⟩
  next kept =>
    have kept : isPassedOver name = false := by simpa using kept
    split at searched
    · cases searched
    next isDirectory =>
      obtain ⟨lists, rfl, ascending, members⟩ := below isDirectory found searched
      refine ⟨lists.map (name :: ·), ?_, ?_, fun names => ?_⟩
      · rw [List.map_map]
        exact List.map_congr_left fun names _ => (Path.descend_cons directory name names).symm
      · refine List.pairwise_map.2 (ascending.imp fun less => ?_)
        exact List.cons_lt_cons_iff.2 (.inr ⟨rfl, less⟩)
      · rw [List.mem_map]
        constructor
        · rintro ⟨rest, member, rfl⟩
          exact ⟨rest, rfl, kept, .inr ⟨isDirectory, (members rest).1 member⟩⟩
        · rintro ⟨rest, rfl, -, ⟨-, plain, -⟩ | ⟨-, found⟩⟩
          · rw [isDirectory] at plain
            cases plain
          · exact ⟨rest, (members rest).2 found, rfl⟩
    next plain =>
      obtain rfl := Except.ok.inj searched
      split
      next isRouteFile =>
        exact ⟨[[name]], rfl, List.pairwise_singleton _ _, by simp [kept, plain, isRouteFile]⟩
      next other => exact ⟨[], rfl, .nil, by simp [plain, other]⟩

/-- **What the names in a directory give**, one after the other, is in order when the names are. -/
theorem areInOrder_flatten {directory : Path} {names : List String}
    (sorted : names.Pairwise (· < ·)) {answers : List (List Path)}
    (each : List.Forall₂ (fun name found => discoverAt fs directory name = .ok found) names answers)
    (inOrder : ∀ name ∈ names, ∀ found, discoverAt fs directory name = .ok found →
      AreInOrder directory found fun list => list.head? = some name ∧ Finds fs directory list) :
    AreInOrder directory answers.flatten fun list =>
      (∃ name ∈ names, list.head? = some name) ∧ Finds fs directory list := by
  induction each with
  | nil => exact ⟨[], rfl, .nil, by simp⟩
  | @cons name found names answers first _ ih =>
    rw [List.pairwise_cons] at sorted
    obtain ⟨lists, rfl, ascending, members⟩ := inOrder name List.mem_cons_self found first
    obtain ⟨lists', equal, ascending', members'⟩ := ih sorted.2 fun other member =>
      inOrder other (List.mem_cons_of_mem _ member)
    refine ⟨lists ++ lists', ?_, ?_, fun list => ?_⟩
    · rw [List.flatten_cons, equal, List.map_append]
    · -- The lists of the first name stand before all others by their first element.
      refine List.pairwise_append.2 ⟨ascending, ascending', fun list member list' member' => ?_⟩
      obtain ⟨tail, rfl⟩ := List.head?_eq_some_iff.1 ((members list).1 member).1
      obtain ⟨⟨other, inside, begins⟩, -⟩ := (members' list').1 member'
      obtain ⟨tail', rfl⟩ := List.head?_eq_some_iff.1 begins
      exact List.cons_lt_cons_iff.2 (.inl (sorted.1 other inside))
    · rw [List.mem_append, members, members', ← or_and_right]
      simp

/-- A directory is listed in strictly ascending order. -/
theorem pairwise_lt_of_list {directory : Path} {names : List String}
    (listed : fs.list directory = .ok names) : names.Pairwise (· < ·) := by
  obtain ⟨location, -, rfl⟩ := FileSystem.exists_status_of_list listed
  exact pairwise_lt_mergeSort (nodup_eraseDups _)

/-- **The search finds files in order**: the paths are those of the names that are found, in
strictly ascending order of the name lists. -/
theorem areInOrder_discoverBelow {directory : Path} {found : List Path}
    (searched : discoverBelow fs directory = .ok found) :
    AreInOrder directory found (Finds fs directory) := by
  induction directory using discover_induction fs generalizing found with
  | step directory ih =>
    rcases discoverBelow_cases searched with ⟨names, answers, listed, each, rfl⟩ | ⟨unlisted, rfl⟩
    · obtain ⟨lists, equal, ascending, members⟩ :=
        areInOrder_flatten (pairwise_lt_of_list listed) each fun name member found given =>
          areInOrder_discoverAt given ⟨names, listed, member⟩ fun isDirectory found below =>
            ih name isDirectory below
      refine ⟨lists, equal, ascending, fun list => ?_⟩
      rw [members, and_iff_right_iff_imp]
      -- Whatever is found begins with a name that is listed.
      intro found
      obtain ⟨name, names', listed', member, begins⟩ := found.exists_listed
      obtain rfl : names = names' := Except.ok.inj (listed.symm.trans listed')
      exact ⟨name, member, begins⟩
    · refine ⟨[], rfl, .nil, fun list => iff_of_false List.not_mem_nil fun found => ?_⟩
      obtain ⟨-, names, listed, -, -⟩ := found.exists_listed
      exact unlisted names listed

/-! ## Route files of a tree -/

section Tree

variable {base : Location} {name : String} {names : List String} {directory : Path}

/-- A name is not passed over when it begins neither with a dot nor with an underscore. -/
theorem isPassedOver_eq_false_iff :
    isPassedOver name = false ↔ name.toList.head? ≠ some '.' ∧ name.toList.head? ≠ some '_' := by
  unfold isPassedOver
  cases name.toList <;> simp

/-- Names **lead down** from a location to something: through directories, and under no name that
begins with a dot or an underscore. -/
structure LeadsDown (fs : FileSystem) (base : Location) (names : List String) : Prop where
  /-- All names but the last are those of directories, one in the other. -/
  through : ∀ front, front <+: names → front ≠ names → fs.entry? (base ++ front) = some .directory
  /-- No name begins with a dot or an underscore. -/
  kept : ∀ name ∈ names, name.toList.head? ≠ some '.' ∧ name.toList.head? ≠ some '_'
  /-- Something is stored under the last name. -/
  stored : fs.entry? (base ++ names) ≠ none

/-- Names are those of a **route file** below a location. -/
structure IsRouteFile (fs : FileSystem) (base : Location) (names : List String) : Prop
    extends LeadsDown fs base names where
  /-- What is stored under the last name is no directory. -/
  plain : fs.entry? (base ++ names) ≠ some .directory
  /-- The last name ends in a route extension. -/
  extension : ∃ last ∈ names.getLast?, ∃ extension ∈ UrlPath.extensions, extension <:+ last.toList

/-- What a route file is, besides something that names lead down to. -/
theorem isRouteFile_iff :
    IsRouteFile fs base names ↔ LeadsDown fs base names ∧
      fs.entry? (base ++ names) ≠ some .directory ∧
      ∃ last ∈ names.getLast?, ∃ extension ∈ UrlPath.extensions, extension <:+ last.toList :=
  ⟨fun ⟨down, plain, ends⟩ => ⟨down, plain, ends⟩, fun ⟨down, plain, ends⟩ => ⟨down, plain, ends⟩⟩

instance (fs : FileSystem) (base : Location) (names : List String) :
    Decidable (LeadsDown fs base names) :=
  decidable_of_iff ((∀ front ∈ names.inits, front ≠ names →
      fs.entry? (base ++ front) = some .directory) ∧
    (∀ name ∈ names, name.toList.head? ≠ some '.' ∧ name.toList.head? ≠ some '_') ∧
    fs.entry? (base ++ names) ≠ none)
    ⟨fun ⟨through, kept, stored⟩ =>
      ⟨fun front within => through front ((List.mem_inits _ _).2 within), kept, stored⟩,
    fun ⟨through, kept, stored⟩ =>
      ⟨fun front member => through front ((List.mem_inits _ _).1 member), kept, stored⟩⟩

instance (fs : FileSystem) (base : Location) (names : List String) :
    Decidable (IsRouteFile fs base names) :=
  decidable_of_iff _ isRouteFile_iff.symm

/-- The first of some names leads down into a directory, and the others from there. -/
theorem leadsDown_cons_iff :
    LeadsDown fs base (name :: names) ↔ fs.entry? base = some .directory ∧
      isPassedOver name = false ∧ LeadsDown fs (base ++ [name]) names := by
  rw [isPassedOver_eq_false_iff]
  constructor
  · intro down
    refine ⟨?_, down.kept name List.mem_cons_self, fun front inside other => ?_,
      fun other member => ?_, ?_⟩
    · simpa using down.through [] List.nil_prefix (List.cons_ne_nil _ _).symm
    · have further := down.through (name :: front) (List.cons_prefix_cons.2 ⟨rfl, inside⟩)
      simpa [other] using further
    · exact down.kept other (List.mem_cons_of_mem _ member)
    · simpa using down.stored
  · rintro ⟨inside, kept, down⟩
    refine ⟨fun front within other => ?_, fun other member => ?_, by simpa using down.stored⟩
    · cases front with
      | nil => simpa using inside
      | cons first front =>
        obtain ⟨rfl, further⟩ := List.cons_prefix_cons.1 within
        simpa using down.through front further (by simpa using other)
    · rcases List.mem_cons.1 member with rfl | member
      · exact kept
      · exact down.kept other member

/-- No names lead to what is stored at the location itself. -/
theorem leadsDown_nil_iff : LeadsDown fs base [] ↔ fs.entry? base ≠ none := by
  constructor
  · intro down
    simpa using down.stored
  · intro stored
    refine ⟨fun front within other => ?_, fun name member => ?_, by simpa using stored⟩
    · exact absurd (List.prefix_nil.1 within) other
    · cases member

/-- Where names lead down from, something is stored. -/
theorem LeadsDown.entry?_base_ne_none (down : LeadsDown fs base names) : fs.entry? base ≠ none := by
  cases names with
  | nil => exact leadsDown_nil_iff.1 down
  | cons name names => simp [(leadsDown_cons_iff.1 down).1]

/-- Names that lead down a tree are names of what is stored. -/
theorem LeadsDown.isStorable (down : LeadsDown fs base names) (tree : fs.IsTree base) :
    ∀ name ∈ names, IsStorable name := by
  induction names generalizing base with
  | nil => exact fun name member => by cases member
  | cons name names ih =>
    obtain ⟨-, -, further⟩ := leadsDown_cons_iff.1 down
    exact List.forall_mem_cons.2
      ⟨tree.isStorable further.entry?_base_ne_none, ih further (tree.child name)⟩

/-- A location is no route file below itself. -/
theorem not_isRouteFile_nil : ¬ IsRouteFile fs base [] := by
  intro file
  obtain ⟨last, none, -⟩ := file.extension
  cases none

/-- Names that lead down are those of the location itself, or of an entry below it. -/
theorem LeadsDown.eq_nil_or_exists_mem (down : LeadsDown fs base names) :
    names = [] ∨ ∃ place ∈ fs.entries, place.1.drop base.length = names := by
  rcases names.eq_nil_or_concat with rfl | ⟨front, last, rfl⟩
  · exact .inl rfl
  · obtain ⟨entry, stored⟩ := Option.ne_none_iff_exists'.1 down.stored
    rw [FileSystem.entry?_of_ne_nil fs (by simp)] at stored
    exact .inr ⟨_, FileSystem.mem_of_lookup stored, List.drop_left⟩

/-- The **route files are computed** from the entries of a file system. -/
theorem isRouteFile_iff_mem {lists : List (List String)}
    (only : ∀ place ∈ fs.entries, IsRouteFile fs base (place.1.drop base.length) →
      place.1.drop base.length ∈ lists)
    (all : ∀ names ∈ lists, IsRouteFile fs base names) :
    IsRouteFile fs base names ↔ names ∈ lists := by
  refine ⟨fun file => ?_, all names⟩
  rcases file.toLeadsDown.eq_nil_or_exists_mem with rfl | ⟨place, member, rfl⟩
  · exact absurd file not_isRouteFile_nil
  · exact only place member file

/-- A route file is stored in the directory at a location, under a name with a route extension, or
further down. -/
theorem isRouteFile_cons_iff :
    IsRouteFile fs base (name :: names) ↔ fs.entry? base = some .directory ∧
      isPassedOver name = false ∧
      (names = [] ∧ fs.entry? (base ++ [name]) ≠ none ∧
          fs.entry? (base ++ [name]) ≠ some .directory ∧ isRouteFileName name = true ∨
        IsRouteFile fs (base ++ [name]) names) := by
  cases names with
  | nil =>
    rw [isRouteFile_iff, leadsDown_cons_iff, leadsDown_nil_iff, or_iff_left not_isRouteFile_nil]
    simp only [List.getLast?_singleton, Option.mem_some_iff, exists_eq_left', and_assoc, true_and]
    refine and_congr_right fun _ => and_congr_right fun kept => ?_
    rw [isRouteFileName_iff_isSuffix (isPassedOver_eq_false_iff.1 kept).1]
  | cons next names =>
    rw [isRouteFile_iff, isRouteFile_iff, leadsDown_cons_iff, List.getLast?_cons_cons,
      List.append_assoc, List.singleton_append]
    simp [and_assoc]

/-- **Everything in the directory at a location stands in it**, if it is not passed over. -/
theorem standsIn_child_iff_stored (reached : fs.status directory = .ok (base, .directory)) :
    StandsIn fs directory (directory.child name) ↔
      fs.entry? (base ++ [name]) ≠ none ∧ isPassedOver name = false := by
  have listed : fs.list directory = .ok (fs.namesIn base).mergeSort := by
    rw [FileSystem.list, reached]
    rfl
  rw [standsIn_child_iff, listed]
  simp only [Except.ok.injEq, exists_eq_left', (List.mergeSort_perm _ _).mem_iff,
    FileSystem.mem_namesIn_iff]

/-- A path that stands in a directory of a tree leads to what is stored there, unless it is too
long. -/
theorem exists_status_of_standsIn (reached : fs.status directory = .ok (base, .directory))
    (tree : fs.IsTree base) (stands : StandsIn fs directory (directory.child name))
    (short : ¬ fs.IsTooLong (directory.child name)) :
    ∃ entry, fs.entry? (base ++ [name]) = some entry ∧
      fs.status (directory.child name) = .ok (base ++ [name], entry) := by
  obtain ⟨stored, -⟩ := (standsIn_child_iff_stored reached).1 stands
  obtain ⟨entry, stored⟩ := Option.ne_none_iff_exists'.1 stored
  rcases tree.status_child reached stored with ⟨-, long⟩ | ⟨-, onward⟩
  · exact absurd long short
  · exact ⟨entry, stored, onward⟩

/-- A route file lies in a directory. -/
theorem IsRouteFile.entry?_base (file : IsRouteFile fs base names) :
    fs.entry? base = some .directory := by
  cases names with
  | nil => exact absurd file not_isRouteFile_nil
  | cons name names => exact (isRouteFile_cons_iff.1 file).1

/-- **What is found below the root of a tree** are its route files, when nothing that is met is too
long. -/
theorem finds_iff_isRouteFile (reached : fs.status directory = .ok (base, .directory))
    (tree : fs.IsTree base) (short : MeetsOnlyShort fs directory) :
    Finds fs directory names ↔ IsRouteFile fs base names := by
  -- The first name leads into a directory that is the root of a tree itself.
  induction names generalizing directory base with
  | nil => exact iff_of_false not_finds_nil not_isRouteFile_nil
  | cons name names ih =>
    have inside := FileSystem.entry?_of_status reached
    have deeper : IsRouteFile fs (base ++ [name]) names →
        fs.entry? (base ++ [name]) = some .directory := IsRouteFile.entry?_base
    rw [finds_cons_iff, isRouteFile_cons_iff]
    by_cases stands : StandsIn fs directory (directory.child name)
    · -- The path is short, so that the question about it is answered by what is stored there.
      obtain ⟨entry, stored, onward⟩ :=
        exists_status_of_standsIn reached tree stands (short _ (.here stands))
      have kept := ((standsIn_child_iff_stored reached).1 stands).2
      have asked : fs.isDirectory (directory.child name) = .ok (entry == .directory) := by
        rw [FileSystem.isDirectory, FileSystem.ask, onward]
      cases entry with
      | directory =>
        have below : Finds fs (directory.child name) names ↔
            IsRouteFile fs (base ++ [name]) names :=
          ih onward (tree.child name) fun path met => short path (.inside stands asked met)
        simp [stands, inside, kept, stored, asked, below]
      | file bytes | link target =>
        rw [stored] at deeper
        have nothing : ¬ IsRouteFile fs (base ++ [name]) names := fun file => by cases deeper file
        simp [stands, inside, kept, stored, asked, nothing]
    · -- Nothing is stored under the name, or it is passed over.
      refine iff_of_false (fun found => stands found.1) fun file => stands ?_
      obtain ⟨-, kept, ⟨-, stored, -⟩ | file⟩ := file
      all_goals refine (standsIn_child_iff_stored reached).2 ⟨?_, kept⟩
      · exact stored
      · simp [deeper file]

/-- What stands in a directory is one name down. -/
theorem StandsIn.exists_leadsDown {path : Path} (stands : StandsIn fs directory path)
    (reached : fs.status directory = .ok (base, .directory)) :
    ∃ name, path = directory.child name ∧ ∀ names, LeadsDown fs (base ++ [name]) names →
      LeadsDown fs base (name :: names) := by
  obtain ⟨_, name, _, _, kept, rfl⟩ := stands
  exact ⟨name, rfl, fun names down =>
    leadsDown_cons_iff.2 ⟨FileSystem.entry?_of_status reached, kept, down⟩⟩

/-- **The search meets only short paths** below the root of a tree exactly when all paths that lead
down the tree are short. -/
theorem meetsOnlyShort_iff (reached : fs.status directory = .ok (base, .directory))
    (tree : fs.IsTree base) :
    MeetsOnlyShort fs directory ↔ ∀ names, LeadsDown fs base names →
      (directory.descend names).text.utf8ByteSize < pathLimit := by
  constructor
  · -- Down the tree every path is met, and those that are met lead somewhere.
    intro short names down
    induction names generalizing directory base with
    | nil => simpa using (FileSystem.status_eq_ok_iff.1 reached).2.1
    | cons name names ih =>
      obtain ⟨-, kept, further⟩ := leadsDown_cons_iff.1 down
      have stands : StandsIn fs directory (directory.child name) :=
        (standsIn_child_iff_stored reached).2 ⟨further.entry?_base_ne_none, kept⟩
      obtain ⟨entry, stored, onward⟩ :=
        exists_status_of_standsIn reached tree stands (short _ (.here stands))
      rw [Path.descend_cons]
      cases names with
      | nil => simpa using (FileSystem.status_eq_ok_iff.1 onward).2.1
      | cons next names =>
        obtain rfl : entry = .directory :=
          Option.some.inj (stored.symm.trans (leadsDown_cons_iff.1 further).1)
        refine ih onward (tree.child name) (fun path met => ?_) further
        exact short path (.inside stands (FileSystem.isDirectory_eq_true_iff.2 ⟨_, onward⟩) met)
  · -- Whatever is met is one name further down than its directory.
    intro short path met
    induction met generalizing base with
    | @here directory path stands =>
      obtain ⟨name, rfl, down⟩ := stands.exists_leadsDown reached
      have stored := ((standsIn_child_iff_stored reached).1 stands).1
      have fits : (directory.child name).text.utf8ByteSize < pathLimit := by
        simpa [Path.descend_cons] using short [name] (down [] (leadsDown_nil_iff.2 stored))
      obtain ⟨entry, stored⟩ := Option.ne_none_iff_exists'.1 stored
      rcases tree.status_child reached stored with ⟨long, -⟩ | ⟨-, onward⟩
      · exact absurd fits (Nat.not_lt.2 long)
      · exact FileSystem.not_isTooLong_of_status onward
    | @inside directory inner path stands isDirectory _ ih =>
      obtain ⟨name, rfl, down⟩ := stands.exists_leadsDown reached
      obtain ⟨location, found⟩ := FileSystem.isDirectory_eq_true_iff.1 isDirectory
      obtain ⟨entry, -, onward⟩ := exists_status_of_standsIn reached tree stands
        (FileSystem.not_isTooLong_of_status found)
      obtain ⟨rfl, rfl⟩ : base ++ [name] = location ∧ entry = .directory :=
        Prod.mk.inj (Except.ok.inj (onward.symm.trans found))
      refine ih onward (tree.child name) fun names further => ?_
      rw [← Path.descend_cons]
      exact short (name :: names) (down names further)

/-- **A path down a tree leads to what is stored there**, when all paths down the tree are short. -/
theorem LeadsDown.status_descend (down : LeadsDown fs base names)
    (reached : fs.status directory = .ok (base, .directory)) (tree : fs.IsTree base)
    (short : ∀ names, LeadsDown fs base names →
      (directory.descend names).text.utf8ByteSize < pathLimit) {entry : Entry}
    (stored : fs.entry? (base ++ names) = some entry) :
    fs.status (directory.descend names) = .ok (base ++ names, entry) := by
  induction names generalizing directory base with
  | nil =>
    have here := FileSystem.entry?_of_status reached
    rw [List.append_nil] at stored ⊢
    rw [Path.descend_nil, reached, Option.some.inj (here.symm.trans stored)]
  | cons name names ih =>
    obtain ⟨inside, kept, further⟩ := leadsDown_cons_iff.1 down
    have fits : (directory.child name).text.utf8ByteSize < pathLimit := by
      have alone := leadsDown_nil_iff.2 further.entry?_base_ne_none
      simpa [Path.descend_cons] using short [name] (leadsDown_cons_iff.2 ⟨inside, kept, alone⟩)
    obtain ⟨first, found⟩ := Option.ne_none_iff_exists'.1 further.entry?_base_ne_none
    have onward : fs.status (directory.child name) = .ok (base ++ [name], first) := by
      rcases tree.status_child reached found with ⟨long, -⟩ | ⟨-, onward⟩
      · exact absurd fits (Nat.not_lt.2 long)
      · exact onward
    have whole : base ++ name :: names = base ++ [name] ++ names := by simp
    rw [whole] at stored ⊢
    rw [Path.descend_cons]
    cases names with
    | nil =>
      rw [List.append_nil] at stored ⊢
      rw [Path.descend_nil, onward, Option.some.inj (found.symm.trans stored)]
    | cons next names =>
      -- What the next name is stored in is a directory.
      obtain rfl : first = .directory :=
        Option.some.inj (found.symm.trans (leadsDown_cons_iff.1 further).1)
      refine ih further onward (tree.child name) (fun names down => ?_) stored
      rw [← Path.descend_cons]
      exact short (name :: names) (leadsDown_cons_iff.2 ⟨inside, kept, down⟩)

/-- **The extension of a route file is taken off** the text of its path, as the end of its last
name. -/
theorem IsRouteFile.exists_stripExtension_eq (file : IsRouteFile fs base names) (path : Path) :
    ∃ last ∈ names.getLast?, ∃ extension ∈ UrlPath.extensions, ∃ front stem, stem ≠ [] ∧
      last.toList = stem ++ extension ∧
      (path.descend names).text.toList = front ++ last.toList ∧
      UrlPath.stripExtension (path.descend names).text.toList = front ++ stem := by
  obtain ⟨last, isLast, ends⟩ := file.extension
  obtain ⟨others, rfl⟩ := List.getLast?_eq_some_iff.1 isLast
  have visible := (file.kept last (by simp)).1
  obtain ⟨extension, member, stem, something, whole⟩ :=
    isRouteFileName_iff.1 ((isRouteFileName_iff_isSuffix visible).2 ends)
  obtain ⟨front, text⟩ := path.exists_text_descend_concat others
  have nonempty : last ≠ "" := by
    rintro rfl
    simp [something] at whole
  refine ⟨last, isLast, extension, member, front, stem, something, whole, text last nonempty, ?_⟩
  rw [text last nonempty, whole, ← List.append_assoc, UrlPath.stripExtension_append member]

/-- Name lists that can stand in a path are told apart by the text of the path down them. -/
theorem eq_of_text_descend_eq {path : Path} (normal : path.IsNormal) {others : List String}
    (can : ∀ name ∈ names, IsStorable name) (can' : ∀ name ∈ others, IsStorable name)
    (same : (path.descend names).text = (path.descend others).text) : names = others := by
  have equal : path.descend names = path.descend others :=
    Path.eq_of_text_eq (normal.append fun name member => (can name member).toIsPathName)
      (normal.append fun name member => (can' name member).toIsPathName) same
  exact List.append_cancel_left (congrArg Path.names equal)

end Tree

section Root

variable {root : String} {base : Location}

/-- The search below the root of a tree **answers** exactly when all paths down it are short. -/
theorem exists_discover_eq_ok_iff_of_isTree
    (reached : fs.status (.ofString root) = .ok (base, .directory)) (tree : fs.IsTree base) :
    (∃ files, discover fs root = .ok files) ↔ ∀ names, LeadsDown fs base names →
      ((Path.ofString root).descend names).text.utf8ByteSize < pathLimit := by
  have clean := (FileSystem.status_eq_ok_iff.1 reached).1
  rw [exists_discover_eq_ok_iff, and_iff_right clean, meetsOnlyShort_iff reached tree]

/-- Below the root of a tree the search **lists the route files**, in ascending order of their
names. -/
theorem exists_lists_of_discover (reached : fs.status (.ofString root) = .ok (base, .directory))
    (tree : fs.IsTree base) {files : List String} (found : discover fs root = .ok files) :
    ∃ lists : List (List String),
      files = lists.map (fun names => ((Path.ofString root).descend names).text) ∧
      lists.Pairwise (· < ·) ∧ ∀ names, names ∈ lists ↔ IsRouteFile fs base names := by
  have short := (exists_discover_eq_ok_iff.1 ⟨files, found⟩).2
  obtain ⟨paths, searched, rfl⟩ := exists_discoverBelow_of_discover found
  obtain ⟨lists, rfl, ascending, members⟩ := areInOrder_discoverBelow searched
  refine ⟨lists, List.map_map, ascending, fun names => ?_⟩
  rw [members, finds_iff_isRouteFile reached tree short]

/-- **There is only one such list**, which the search gives when all paths down are short. -/
theorem discover_eq_of_isTree (reached : fs.status (.ofString root) = .ok (base, .directory))
    (tree : fs.IsTree base) (short : ∀ names, LeadsDown fs base names →
      ((Path.ofString root).descend names).text.utf8ByteSize < pathLimit)
    {lists : List (List String)} (ascending : lists.Pairwise (· < ·))
    (members : ∀ names, names ∈ lists ↔ IsRouteFile fs base names) :
    discover fs root =
      .ok (lists.map fun names => ((Path.ofString root).descend names).text) := by
  obtain ⟨files, found⟩ := (exists_discover_eq_ok_iff_of_isTree reached tree).2 short
  obtain ⟨lists', rfl, ascending', members'⟩ := exists_lists_of_discover reached tree found
  have same : lists' = lists := ascending'.eq_of_mem_iff ascending fun names => by
    rw [members', members]
  rw [found, same]

/-- Below the root of a tree the **texts of the route files** are listed. -/
theorem mem_discover_iff (reached : fs.status (.ofString root) = .ok (base, .directory))
    (tree : fs.IsTree base) {files : List String} (found : discover fs root = .ok files)
    (file : String) : file ∈ files ↔ ∃ names, IsRouteFile fs base names ∧
      ((Path.ofString root).descend names).text = file := by
  obtain ⟨lists, rfl, -, members⟩ := exists_lists_of_discover reached tree found
  simp only [List.mem_map, members]

/-- **A route file of a tree has bytes**, which its text leads to, when the search answers. -/
theorem IsRouteFile.exists_bytes {names : List String} (file : IsRouteFile fs base names)
    (reached : fs.status (.ofString root) = .ok (base, .directory)) (tree : fs.IsTree base)
    (answered : ∃ files, discover fs root = .ok files) :
    ∃ bytes, fs.entry? (base ++ names) = some (.file bytes) ∧
      fs.bytes (.ofString ((Path.ofString root).descend names).text) = .ok bytes := by
  obtain ⟨entry, stored⟩ := Option.ne_none_iff_exists'.1 file.stored
  have onward := file.toLeadsDown.status_descend reached tree
    ((exists_discover_eq_ok_iff_of_isTree reached tree).1 answered) stored
  have normal : ((Path.ofString root).descend names).IsNormal :=
    (Path.isNormal_ofString root).append fun name member =>
      (file.toLeadsDown.isStorable tree name member).toIsPathName
  cases entry with
  | directory => exact absurd stored file.plain
  | link target => exact absurd stored (tree.noLink names target)
  | file bytes =>
    refine ⟨bytes, stored, ?_⟩
    rw [Path.ofString_text normal, FileSystem.bytes, onward]
    rfl

/-- The listing of a tree **is computed** from what is stored: it gives the route files, in order,
when no path to anything that is stored is too long. -/
theorem discover_eq_of_entries (reached : fs.status (.ofString root) = .ok (base, .directory))
    (tree : fs.IsTree base) {lists : List (List String)} (ascending : lists.Pairwise (· < ·))
    (short : ∀ place ∈ fs.entries,
      ((Path.ofString root).descend (place.1.drop base.length)).text.utf8ByteSize < pathLimit)
    (only : ∀ place ∈ fs.entries, IsRouteFile fs base (place.1.drop base.length) →
      place.1.drop base.length ∈ lists)
    (all : ∀ names ∈ lists, IsRouteFile fs base names) :
    discover fs root =
      .ok (lists.map fun names => ((Path.ofString root).descend names).text) := by
  refine discover_eq_of_isTree reached tree (fun names down => ?_) ascending fun names =>
    (isRouteFile_iff_mem only all).symm
  rcases down.eq_nil_or_exists_mem with rfl | ⟨place, member, rfl⟩
  · simpa using (FileSystem.status_eq_ok_iff.1 reached).2.1
  · exact short place member

end Root

/-- **The listing of a tree.** Let a routes root lead to a directory below which there are only
directories and files. The search answers exactly when no path down the tree is too long for the
system. What it lists are then the paths of the route files, each once and in strictly ascending
order of their name lists, and from each path the extension of its last name can be taken off. -/
theorem discover_tree {fs : FileSystem} {root : String} {base : Location}
    (reached : fs.status (.ofString root) = .ok (base, .directory)) (tree : fs.IsTree base) :
    ((∃ files, discover fs root = .ok files) ↔ ∀ names, LeadsDown fs base names →
      ((Path.ofString root).descend names).text.utf8ByteSize < pathLimit) ∧
    ∀ files, discover fs root = .ok files → files.Nodup ∧ ∃ lists : List (List String),
      files = lists.map (fun names => ((Path.ofString root).descend names).text) ∧
      lists.Pairwise (· < ·) ∧ (∀ names, names ∈ lists ↔ IsRouteFile fs base names) ∧
      ∀ names ∈ lists, ∃ last ∈ names.getLast?, ∃ extension ∈ UrlPath.extensions,
        ∃ front stem, stem ≠ [] ∧ last.toList = stem ++ extension ∧
          ((Path.ofString root).descend names).text.toList = front ++ last.toList ∧
          UrlPath.stripExtension ((Path.ofString root).descend names).text.toList =
            front ++ stem := by
  refine ⟨exists_discover_eq_ok_iff_of_isTree reached tree, fun files found => ?_⟩
  obtain ⟨lists, rfl, ascending, members⟩ := exists_lists_of_discover reached tree found
  refine ⟨?_, lists, rfl, ascending, members, fun names member =>
    ((members names).1 member).exists_stripExtension_eq _⟩
  -- Different name lists give different texts, since every name can stand in a path.
  have once : lists.Nodup := ascending.imp fun less => ne_of_lt less
  refine once.map_on fun names member others member' same => ?_
  exact eq_of_text_descend_eq (Path.isNormal_ofString root)
    (((members names).1 member).isStorable tree) (((members others).1 member').isStorable tree) same

/-- A tree with a directory beside a route file of almost the same name, a directory that is named
like a route file, and files that are no route files. -/
def besideFiles : FileSystem :=
  ⟨[(["r"], .directory), (["r", "x.ts"], .file []), (["r", "x"], .directory),
    (["r", "x", "index.tsx"], .file []), (["r", "d.ts"], .directory), (["r", "_p.ts"], .file []),
    (["r", ".h.ts"], .file []), (["r", "n.md"], .file [])], []⟩

/-- The root of that tree is a directory. -/
theorem status_besideFiles : besideFiles.status (.ofString "r") = .ok (["r"], .directory) :=
  FileSystem.status_name (by decide) (by decide) rfl rfl (fun target => nofun) (by decide)

/-- It is a tree. -/
theorem isTree_besideFiles : besideFiles.IsTree ["r"] :=
  FileSystem.isTree_of_forall_mem (by decide) (by simp [besideFiles]) ["r"]

/-- Its route files. -/
theorem isRouteFile_besideFiles {names : List String} :
    IsRouteFile besideFiles ["r"] names ↔ names ∈ [["x", "index.tsx"], ["x.ts"]] :=
  isRouteFile_iff_mem (by decide) (by decide)

/-- The directory is gone through before the file beside it. -/
theorem discover_besideFiles : discover besideFiles "r" = .ok ["r/x/index.tsx", "r/x.ts"] := by
  have ascending : [["x", "index.tsx"], ["x.ts"]].Pairwise (· < ·) := by decide
  rw [discover_eq_of_entries status_besideFiles isTree_besideFiles ascending (by decide)
    (by decide) (by decide)]
  decide

/-- What is listed there. -/
theorem discover_tree_besideFiles :
    besideFiles.status (.ofString "r") = .ok (["r"], .directory) ∧ besideFiles.IsTree ["r"] ∧
      discover besideFiles "r" = .ok ["r/x/index.tsx", "r/x.ts"] ∧
      ∃ lists : List (List String),
        ["r/x/index.tsx", "r/x.ts"] =
          lists.map (fun names => ((Path.ofString "r").descend names).text) ∧
        lists.Pairwise (· < ·) ∧ ∀ names, names ∈ lists ↔ IsRouteFile besideFiles ["r"] names := by
  obtain ⟨-, lists, equal, ascending, members, -⟩ :=
    (discover_tree status_besideFiles isTree_besideFiles).2 _ discover_besideFiles
  exact ⟨status_besideFiles, isTree_besideFiles, discover_besideFiles, lists, equal, ascending,
    members⟩

/-! ## A path that is too long -/

/-- A directory `a` with a route file. -/
def windingFiles : FileSystem := ⟨[(["a"], .directory), (["a", "x.ts"], .file [])], []⟩

/-- The names of a path that goes into the directory and out of it some times before it stays
there. -/
def windingNames : Nat → List String
  | 0 => ["a"]
  | turns + 1 => "a" :: ".." :: windingNames turns

/-- The path of the directory with some turns. -/
def windingPath (turns : Nat) : Path := ⟨.relative, windingNames turns⟩

/-- The names of that path. -/
theorem eq_of_mem_windingNames {turns : Nat} {name : String} (member : name ∈ windingNames turns) :
    name = "a" ∨ name = ".." := by
  induction turns with
  | zero => exact .inl (List.mem_singleton.1 member)
  | succ turns ih =>
    rcases List.mem_cons.1 member with rfl | member
    · exact .inl rfl
    rcases List.mem_cons.1 member with rfl | member
    · exact .inr rfl
    · exact ih member

/-- A path with turns is read back from its text. -/
theorem ofString_text_windingPath (turns : Nat) :
    Path.ofString (windingPath turns).text = windingPath turns := by
  refine Path.ofString_text fun name member => ?_
  rcases eq_of_mem_windingNames member with rfl | rfl <;> decide

/-- Every turn takes five bytes. -/
theorem utf8ByteSize_joinNames_windingNames (turns : Nat) (names : List String) :
    (String.ofList (Path.joinNames (windingNames turns ++ names))).utf8ByteSize =
      5 * turns + (String.ofList (Path.joinNames ("a" :: names))).utf8ByteSize := by
  induction turns with
  | zero => rw [windingNames, List.singleton_append, Nat.mul_zero, Nat.zero_add]
  | succ turns ih =>
    have size : (String.ofList ['a', '/', '.', '.', '/']).utf8ByteSize = 5 := by decide
    have turn : Path.joinNames (windingNames (turns + 1) ++ names) =
        ['a', '/', '.', '.', '/'] ++ Path.joinNames (windingNames turns ++ names) := by
      cases turns <;> rfl
    rw [turn, String.ofList_append, String.utf8ByteSize_append, size, ih]
    omega

/-- The size of a path with turns that goes on from there. -/
theorem utf8ByteSize_text_windingPath (turns : Nat) (names : List String) :
    ((windingPath turns).descend names).text.utf8ByteSize =
      5 * turns + (String.ofList (Path.joinNames ("a" :: names))).utf8ByteSize := by
  rw [← utf8ByteSize_joinNames_windingNames, Path.text_eq_ofList]
  · rfl
  · cases turns <;> cases names <;>
      simp [windingPath, windingNames, Path.descend, Path.joinNames, Text.joinFields, Anchor.chars]

/-- The turns lead nowhere else. -/
theorem walk_windingNames (turns : Nat) :
    windingFiles.walk true linkLimit [] (windingNames turns) = .ok (.taken ["a"] .directory) := by
  have enter : ∀ names, windingFiles.walk true linkLimit [] ("a" :: names) =
      windingFiles.walk true linkLimit ["a"] names :=
    FileSystem.walk_cons rfl (by decide) rfl fun target => nofun
  have leave : ∀ names, windingFiles.walk true linkLimit ["a"] (".." :: names) =
      windingFiles.walk true linkLimit [] names := by
    intro names
    have inside : windingFiles.isDirectoryAt ["a"] = true := rfl
    rw [FileSystem.walk.eq_2, if_neg (by simp [inside]), if_neg (by decide), if_pos rfl]
    rfl
  induction turns with
  | zero =>
    rw [windingNames, enter, FileSystem.walk]
    rfl
  | succ turns ih => rw [windingNames, enter, leave, ih]

/-- The path of the directory leads there as long as it is short. -/
theorem status_windingPath {turns : Nat} (short : 5 * turns + 1 < pathLimit) :
    windingFiles.status (windingPath turns) = .ok (["a"], .directory) := by
  refine FileSystem.status_eq_ok_iff.2 ⟨?_, ?_, walk_windingNames turns⟩
  · rw [Path.mem_text_iff (by decide) (by decide)]
    rintro ⟨name, member, null⟩
    rcases eq_of_mem_windingNames member with rfl | rfl <;> exact absurd null (by decide)
  · have size : ((windingPath turns).descend []).text.utf8ByteSize = 5 * turns + 1 := by
      rw [utf8ByteSize_text_windingPath]
      exact congrArg _ (by decide)
    rwa [← size, Path.descend_nil] at short

/-- **A path to a route file can be too long although that of the root is not**: then nothing is
listed. -/
theorem discover_ne_ok_windingPath :
    windingFiles.status (.ofString (windingPath 818).text) = .ok (["a"], .directory) ∧
      windingFiles.IsTree ["a"] ∧ IsRouteFile windingFiles ["a"] ["x.ts"] ∧
      ∀ files, discover windingFiles (windingPath 818).text ≠ .ok files := by
  have reached : windingFiles.status (windingPath 818) = .ok (["a"], .directory) :=
    status_windingPath (by decide)
  have tree : windingFiles.IsTree ["a"] :=
    FileSystem.isTree_of_forall_mem (by decide +kernel) (by simp [windingFiles]) ["a"]
  have file : IsRouteFile windingFiles ["a"] ["x.ts"] := by decide +kernel
  rw [← ofString_text_windingPath] at reached
  refine ⟨reached, tree, file, fun files found => ?_⟩
  have fits := (exists_discover_eq_ok_iff_of_isTree reached tree).1 ⟨files, found⟩ ["x.ts"]
    file.toLeadsDown
  rw [ofString_text_windingPath, utf8ByteSize_text_windingPath] at fits
  have size : (String.ofList (Path.joinNames ["a", "x.ts"])).utf8ByteSize = 6 := by decide +kernel
  rw [size] at fits
  exact absurd fits (by decide)

end FileRoutes
