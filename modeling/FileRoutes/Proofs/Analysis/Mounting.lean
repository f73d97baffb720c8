import FileRoutes.Proofs.Analysis.Table
import FileRoutes.Proofs.UrlPath.Mounting

/-! # The routes of a subdirectory

The routes of a directory are mounted in the directory above it: of the table of a routes root, the
rows of the files below one of its directories are the rows of the table of that directory, in the
same order, with their URL paths mounted (`analyzeDirectory_mounted`). The files that are found below
the directory are among those that are found below the root (`filter_liesBelow_discover`), their
records differ in the URL path alone (`analyzeFile_mount`), and the order of a table is kept by
leaving rows out and by mounting (`IsTableOf.filter`, `isTableOf_map_mount`). -/

namespace FileRoutes

variable {fs : FileSystem}

/-! ## What is found below a directory -/

section Finds

variable {directory path : Path} {name : String} {names : List String}

/-- What stands in a directory has a name that can stand in a path. -/
theorem StandsIn.isPathName (well : fs.IsWellNamed)
    (stands : StandsIn fs directory (directory.child name)) : IsPathName name := by
  obtain ⟨other, can, same⟩ := stands.exists_name well
  obtain rfl : name = other := by simpa [Path.child] using same
  exact can.toIsPathName

/-- The names that are found can stand in a path. -/
theorem Finds.isPathName (well : fs.IsWellNamed) (found : Finds fs directory names) :
    ∀ name ∈ names, IsPathName name := by
  induction found with
  | here stands => simpa using stands.isPathName well
  | inside stands _ _ ih => exact List.forall_mem_cons.2 ⟨stands.isPathName well, ih⟩

/-- The names that are found end in a route extension. -/
theorem Finds.exists_suffix (found : Finds fs directory names) :
    ∃ extension ∈ UrlPath.extensions, extension <:+ Path.joinNames names := by
  induction found with
  | here _ _ isRouteFile =>
    obtain ⟨extension, member, stem, -, whole⟩ := isRouteFileName_iff.1 isRouteFile
    exact ⟨extension, member, stem, whole.symm⟩
  | @inside directory name names _ _ found ih =>
    obtain ⟨extension, member, suffix⟩ := ih
    refine ⟨extension, member, suffix.trans ?_⟩
    cases names with
    | nil => exact absurd found not_finds_nil
    | cons next names => exact ⟨name.toList ++ ['/'], by simp [Path.joinNames, Text.joinFields]⟩

/-- The path of names that are found is met. -/
theorem Finds.meets (found : Finds fs directory names) :
    Meets fs directory (directory.descend names) := by
  induction found with
  | here stands => exact .here stands
  | inside stands isDirectory _ ih =>
    rw [Path.descend_cons]
    exact .inside stands isDirectory ih

/-- Behind the name of a directory, what is found is what is found below the directory. -/
theorem finds_cons_iff_of_isDirectory (stands : StandsIn fs directory (directory.child name))
    (isDirectory : fs.isDirectory (directory.child name) = .ok true) :
    Finds fs directory (name :: names) ↔ Finds fs (directory.child name) names := by
  rw [finds_cons_iff]
  simp [stands, isDirectory]

/-- A character that stands in no name that is stored, and not in the path of a directory, stands in
no path that is met below it. -/
theorem Meets.not_mem_text {c : Char} (noSlash : c ≠ '/') (noDot : c ≠ '.')
    (absent : ∀ location name, fs.entry? (location ++ [name]) ≠ none → c ∉ name.toList)
    (met : Meets fs directory path) (clean : c ∉ directory.text.toList) : c ∉ path.text.toList := by
  have step : ∀ {directory inner : Path}, StandsIn fs directory inner →
      c ∉ directory.text.toList → c ∉ inner.text.toList := by
    rintro directory _ ⟨names, name, listed, member, -, rfl⟩ clean
    obtain ⟨location, -, rfl⟩ := FileSystem.exists_status_of_list listed
    have stored := FileSystem.mem_namesIn_iff.1 ((List.mergeSort_perm _ _).mem_iff.1 member)
    rw [Path.mem_text_iff noSlash noDot] at clean ⊢
    rintro ⟨other, inside, holds⟩
    rcases List.mem_append.1 inside with above | last
    · exact clean ⟨other, above, holds⟩
    · obtain rfl := List.mem_singleton.1 last
      exact absent location other stored holds
  induction met with
  | here stands => exact step stands clean
  | inside stands _ _ ih => exact ih (step stands clean)

end Finds

/-- Whether a file **lies below** a directory: its path goes down from it. -/
def liesBelow (directory : Path) (file : String) : Bool :=
  ((Path.ofString file).below? directory).isSome

/-- A file that goes down from a directory lies below the child that its first name leads to. -/
theorem liesBelow_child_iff {directory : Path} (normal : directory.IsNormal) {name : String}
    {names : List String} (can : ∀ name ∈ names, IsPathName name) :
    liesBelow (directory.child name) (directory.descend names).text = true ↔
      names.head? = some name := by
  have inside : directory.names ++ [name] <+: directory.names ++ names ↔
      names.head? = some name := by
    rw [List.prefix_append_right_inj]
    cases names with
    | nil => simp
    | cons first names => simp [eq_comm]
  rw [liesBelow, Path.ofString_text_descend normal can, Path.below?]
  simp [Path.child, Path.descend, inside]

/-- A record **mounted** in a directory with a name. -/
def Route.mount (directory : String) (route : Route) : Route :=
  { route with urlPath := UrlPath.mount directory route.urlPath }

/-- The record of a file depends on the routes root in its URL path alone. -/
theorem analyzeFile_root (fs : FileSystem) (reader : Option OptionsReader)
    (file root root' : String) :
    analyzeFile fs reader file root =
      { analyzeFile fs reader file root' with urlPath := UrlPath.urlPath file root } := by
  cases read : readSource fs file with
  | ok source =>
    rw [analyzeFile_of_readSource read, analyzeFile_of_readSource read]
    rfl
  | error failure =>
    rw [analyzeFile_of_error read, analyzeFile_of_error read]
    rfl

/-! ## A directory below the root -/

section Child

variable {root name : String} {files inner : List String} (well : fs.IsWellNamed)
  (stands : StandsIn fs (.ofString root) ((Path.ofString root).child name))
  (isDirectory : fs.isDirectory ((Path.ofString root).child name) = .ok true)

include well stands isDirectory

/-- **The search below a directory answers** when the search above it does. -/
theorem exists_discover_child (answered : ∃ files, discover fs root = .ok files) :
    ∃ inner, discover fs ((Path.ofString root).child name).text = .ok inner := by
  obtain ⟨location, reached⟩ := FileSystem.isDirectory_eq_true_iff.1 isDirectory
  rw [exists_discover_eq_ok_iff, Path.ofString_text_child root (stands.isPathName well)]
  refine ⟨(FileSystem.status_eq_ok_iff.1 reached).1, fun other met => ?_⟩
  exact (exists_discover_eq_ok_iff.1 answered).2 other (.inside stands isDirectory met)

/-- What the search below the directory lists are the files of the names that are found there. -/
theorem exists_lists_of_discover_child
    (found : discover fs ((Path.ofString root).child name).text = .ok inner) :
    ∃ lists : List (List String),
      inner = lists.map (fun names => ((Path.ofString root).descend (name :: names)).text) ∧
      lists.Pairwise (· < ·) ∧
      ∀ names, names ∈ lists ↔ Finds fs (.ofString root) (name :: names) := by
  obtain ⟨paths, searched, rfl⟩ := exists_discoverBelow_of_discover found
  rw [Path.ofString_text_child root (stands.isPathName well)] at searched
  obtain ⟨lists, rfl, ascending, members⟩ := areInOrder_discoverBelow searched
  refine ⟨lists, ?_, ascending, fun names => ?_⟩
  · simp [Path.descend_cons]
  · rw [members, finds_cons_iff_of_isDirectory stands isDirectory]

/-- **The files below a directory** are those of the files above it that lie below it. -/
theorem filter_liesBelow_discover (found : discover fs root = .ok files)
    (found' : discover fs ((Path.ofString root).child name).text = .ok inner) :
    files.filter (liesBelow ((Path.ofString root).child name)) = inner := by
  obtain ⟨paths, searched, rfl⟩ := exists_discoverBelow_of_discover found
  obtain ⟨lists, rfl, ascending, members⟩ := areInOrder_discoverBelow searched
  obtain ⟨lists', rfl, ascending', members'⟩ :=
    exists_lists_of_discover_child well stands isDirectory found'
  -- Two ascending lists of name lists are the same when they have the same members.
  have same : lists.filter (·.head? = some name) = lists'.map (name :: ·) := by
    have onward : (lists'.map (name :: ·)).Pairwise (· < ·) :=
      List.pairwise_map.2 (ascending'.imp fun less => List.cons_lt_cons_iff.2 (.inr ⟨rfl, less⟩))
    refine (ascending.filter _).eq_of_mem_iff onward fun names => ?_
    rw [List.mem_filter, decide_eq_true_eq, members, List.mem_map]
    constructor
    · rintro ⟨found, begins⟩
      obtain ⟨rest, rfl⟩ := List.head?_eq_some_iff.1 begins
      exact ⟨rest, (members' rest).2 found, rfl⟩
    · rintro ⟨rest, member, rfl⟩
      exact ⟨(members' rest).1 member, rfl⟩
  have below : ∀ names ∈ lists, (liesBelow ((Path.ofString root).child name) ∘ Path.text ∘
      (Path.ofString root).descend) names = decide (names.head? = some name) := by
    intro names member
    rw [Bool.eq_iff_iff, decide_eq_true_eq]
    exact liesBelow_child_iff (Path.isNormal_ofString root)
      (((members names).1 member).isPathName well)
  rw [List.map_map, List.filter_map, List.filter_congr below, same, List.map_map]
  rfl

variable (forward : '\\' ∉ root.toList)
  (forward' : ∀ path, Meets fs (.ofString root) path → '\\' ∉ path.text.toList)

include forward forward'

/-- **The record of a file below a directory is the mounted one** of the file below the directory
alone. -/
theorem analyzeFile_mount
    (found : discover fs ((Path.ofString root).child name).text = .ok inner) {file : String}
    (member : file ∈ inner) (reader : Option OptionsReader) :
    analyzeFile fs reader file root =
      (analyzeFile fs reader file ((Path.ofString root).child name).text).mount name := by
  obtain ⟨lists, rfl, -, members⟩ := exists_lists_of_discover_child well stands isDirectory found
  obtain ⟨names, inside, rfl⟩ := List.mem_map.1 member
  have found := (members names).1 inside
  have below := (finds_cons_iff_of_isDirectory stands isDirectory).1 found
  have url := UrlPath.urlPath_descend_cons forward (stands.isPathName well)
    (below.isPathName well) (forward' _ found.meets) below.exists_suffix
  rw [analyzeFile_root fs reader _ root ((Path.ofString root).child name).text, url, Route.mount,
    (paths_analyzeFile fs reader _ _).2]

/-- **The records of the files below a directory** are the mounted ones of the directory alone. -/
theorem filter_liesBelow_map_analyzeFile (found : discover fs root = .ok files)
    (found' : discover fs ((Path.ofString root).child name).text = .ok inner)
    (reader : Option OptionsReader) :
    (files.map fun file => analyzeFile fs reader file root).filter
        (liesBelow ((Path.ofString root).child name) ·.filePath) =
      (inner.map fun file =>
        analyzeFile fs reader file ((Path.ofString root).child name).text).map
          (Route.mount name) := by
  have paths : ((liesBelow ((Path.ofString root).child name) ·.filePath) ∘
      fun file => analyzeFile fs reader file root) =
      liesBelow ((Path.ofString root).child name) := by
    funext file
    rw [Function.comp_apply, (paths_analyzeFile fs reader file root).1]
  rw [List.filter_map, paths, filter_liesBelow_discover well stands isDirectory found found',
    List.map_map]
  exact List.map_congr_left fun file member =>
    analyzeFile_mount well stands isDirectory forward forward' found' member reader

end Child

/-! ## Tables -/

/-- **Some rows of a table** are the table of some of its records. -/
theorem IsTableOf.filter {records routes : List Route} (table : IsTableOf records routes)
    (kept : Route → Bool) : IsTableOf (records.filter kept) (routes.filter kept) where
  perm := table.perm.filter kept
  ascending := table.ascending.filter kept
  stable url := by
    rw [List.filter_comm, table.stable, List.filter_comm]

/-- **The mounted rows of a table** are the table of its mounted records. -/
theorem isTableOf_map_mount (directory : String) {records : List Route}
    (begins : ∀ route ∈ records, route.urlPath.toList.head? = some '/') :
    IsTableOf (records.map (Route.mount directory))
      ((records.mergeSort Route.precedes).map (Route.mount directory)) := by
  have order : ∀ first ∈ records, ∀ second ∈ records, Route.precedes first second =
      Route.precedes (first.mount directory) (second.mount directory) := by
    intro first member second member'
    exact decide_eq_decide.2
      (UrlPath.mount_le_mount_iff directory (begins first member) (begins second member')).symm
  rw [List.map_mergeSort order]
  exact isTableOf_mergeSort _

/-- **The routes of a subdirectory are mounted.** Let everything on a file system have the name of a
file, and let the search below a routes root answer. Let a directory stand in the root under a name
that is not passed over, and no backslash in the root or in a path that is met below it. Then the
root and the directory are both analysed, whatever is set and however many workers are asked for. Of
the rows of the root, those of the files below the directory are the rows of the directory, in the
same order, with their URL paths mounted and nothing else changed. -/
theorem analyzeDirectory_mounted {root name : String} (well : fs.IsWellNamed)
    (answered : ∃ files, discover fs root = .ok files)
    (stands : StandsIn fs (.ofString root) ((Path.ofString root).child name))
    (isDirectory : fs.isDirectory ((Path.ofString root).child name) = .ok true)
    (forward : '\\' ∉ root.toList)
    (forward' : ∀ path, Meets fs (.ofString root) path → '\\' ∉ path.text.toList)
    (reader : Option OptionsReader) :
    ∃ rows mounted,
      (∀ environment workers, analyzeDirectory environment fs reader workers root = .ok rows) ∧
      (∀ environment workers, analyzeDirectory environment fs reader workers
        ((Path.ofString root).child name).text = .ok mounted) ∧
      rows.filter (liesBelow ((Path.ofString root).child name) ·.filePath) =
        mounted.map fun row => { row with urlPath := UrlPath.mount name row.urlPath } := by
  obtain ⟨files, found⟩ := answered
  obtain ⟨inner, found'⟩ := exists_discover_child well stands isDirectory ⟨files, found⟩
  obtain ⟨_, _, listed, -⟩ := id stands
  obtain ⟨above, reached, -⟩ := FileSystem.exists_status_of_list listed
  obtain ⟨location, reached'⟩ := FileSystem.isDirectory_eq_true_iff.1 isDirectory
  rw [← Path.ofString_text_child root (stands.isPathName well)] at reached'
  refine ⟨_, _, fun environment workers => analyzeDirectory_of_discover reached found,
    fun environment workers => analyzeDirectory_of_discover reached' found', ?_⟩
  -- Both sides are the table of the same records.
  have table := (isTableOf_mergeSort (files.map fun file => analyzeFile fs reader file root)).filter
    (liesBelow ((Path.ofString root).child name) ·.filePath)
  rw [filter_liesBelow_map_analyzeFile well stands isDirectory forward forward' found found']
    at table
  refine table.unique (isTableOf_map_mount name fun route member => ?_)
  obtain ⟨file, -, rfl⟩ := List.mem_map.1 member
  rw [(paths_analyzeFile fs reader file _).2]
  exact UrlPath.head?_urlPath file _

/-- The directory `x` of the tree of `besideFiles`, whose only row has the URL path of the root. -/
theorem analyzeDirectory_mounted_besideFiles :
    besideFiles.IsWellNamed ∧ (∃ files, discover besideFiles "r" = .ok files) ∧
      StandsIn besideFiles (.ofString "r") ((Path.ofString "r").child "x") ∧
      besideFiles.isDirectory ((Path.ofString "r").child "x") = .ok true ∧
      '\\' ∉ "r".toList ∧
      (∀ path, Meets besideFiles (.ofString "r") path → '\\' ∉ path.text.toList) ∧
      ∃ rows mounted,
        (∀ environment workers,
          analyzeDirectory environment besideFiles none workers "r" = .ok rows) ∧
        (∀ environment workers,
          analyzeDirectory environment besideFiles none workers "r/x" = .ok mounted) ∧
        (rows.filter (liesBelow ((Path.ofString "r").child "x") ·.filePath)).map Route.urlPath =
          ["/x"] ∧
        mounted.map Route.urlPath = ["/"] := by
  have noLinks : ∀ place ∈ besideFiles.entries, ∀ target, place.2 ≠ .link target := by
    simp [besideFiles]
  have well : besideFiles.IsWellNamed := fun location name stored =>
    ((FileSystem.isTree_of_forall_mem (by decide) noLinks location).isStorable stored).toIsFileName
  have stands : StandsIn besideFiles (.ofString "r") ((Path.ofString "r").child "x") :=
    (standsIn_child_iff_stored status_besideFiles).2 (by decide)
  have reached : besideFiles.status ((Path.ofString "r").child "x") =
      .ok (["r", "x"], .directory) :=
    FileSystem.status_child status_besideFiles (by decide) rfl (by simp) (by decide)
  have isDirectory : besideFiles.isDirectory ((Path.ofString "r").child "x") = .ok true :=
    FileSystem.isDirectory_eq_true_iff.2 ⟨_, reached⟩
  have forward : ∀ path, Meets besideFiles (.ofString "r") path → '\\' ∉ path.text.toList :=
    fun path met => met.not_mem_text (by decide) (by decide)
      (FileSystem.forall_of_forall_mem (by decide)) (by decide)
  obtain ⟨rows, mounted, given, given', same⟩ := analyzeDirectory_mounted well
    ⟨_, discover_besideFiles⟩ stands isDirectory (by decide) forward none
  -- One file is found below `x`, and its URL path is that of the root.
  obtain ⟨inner, found⟩ := exists_discover_child well stands isDirectory ⟨_, discover_besideFiles⟩
  have files : ["r/x/index.tsx"] = inner := by
    rw [← filter_liesBelow_discover well stands isDirectory discover_besideFiles found]
    decide +kernel
  have urls : mounted.map Route.urlPath = ["/"] := by
    have text : ((Path.ofString "r").child "x").text = "r/x" := by decide
    rw [text] at given' found
    have reached : besideFiles.status (.ofString "r/x") = .ok (["r", "x"], .directory) := by
      rw [← text, Path.ofString_text_child "r" (stands.isPathName well)]
      exact reached
    have records := (given' .empty none).symm.trans (analyzeDirectory_of_discover reached found)
    rw [Except.ok.inj records, ← files, recordsOf, List.map_singleton, List.mergeSort_singleton,
      List.map_singleton, (paths_analyzeFile _ _ _ _).2]
    decide +kernel
  refine ⟨well, ⟨_, discover_besideFiles⟩, stands, isDirectory, by decide, forward, rows, mounted,
    given, given', ?_, urls⟩
  obtain ⟨row, rfl, root⟩ := List.map_eq_singleton_iff.1 urls
  rw [same]
  simp only [List.map_cons, List.map_nil, root]
  decide +kernel

end FileRoutes
