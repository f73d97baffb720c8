import FileRoutes.Proofs.Analysis.Directory
import FileRoutes.Proofs.Analysis.Listing

/-! # Isolation

What one file holds decides its own record and nothing else. When the same route files are found in
two trees that agree on all of them but one, the two tables have the same paths at every position,
and the same record at every position but one (`analyzeDirectory_isolated`): where a record stands
follows from paths alone (`inTableOrder`), and a record from the bytes of its own file. -/

namespace FileRoutes

section Isolation

variable {fs other : FileSystem} {root : String} {base base' : Location} {files : List String}

/-- **Each file is found once** below the root of a tree. -/
theorem nodup_of_discover (reached : fs.status (.ofString root) = .ok (base, .directory))
    (tree : fs.IsTree base) (found : discover fs root = .ok files) : files.Nodup := by
  obtain ⟨lists, rfl, ascending, members⟩ := exists_lists_of_discover reached tree found
  have once : lists.Nodup := ascending.imp fun less => ne_of_lt less
  refine once.map_on fun names member names' member' same => ?_
  exact eq_of_text_descend_eq (Path.isNormal_ofString root)
    (((members names).1 member).toLeadsDown.isStorable tree)
    (((members names').1 member').toLeadsDown.isStorable tree) same

/-- The **same names** stand for a file that is found in two trees. -/
theorem exists_isRouteFile_both (reached : fs.status (.ofString root) = .ok (base, .directory))
    (tree : fs.IsTree base) (reached' : other.status (.ofString root) = .ok (base', .directory))
    (tree' : other.IsTree base') (found : discover fs root = .ok files)
    (found' : discover other root = .ok files) {file : String} (member : file ∈ files) :
    ∃ names, IsRouteFile fs base names ∧ IsRouteFile other base' names ∧
      ((Path.ofString root).descend names).text = file := by
  obtain ⟨names, stands, rfl⟩ := (mem_discover_iff reached tree found _).1 member
  obtain ⟨names', stands', same⟩ := (mem_discover_iff reached' tree' found' _).1 member
  -- The path of a file tells the names that lead down to it.
  obtain rfl : names = names' :=
    eq_of_text_descend_eq (Path.isNormal_ofString root) (stands.toLeadsDown.isStorable tree)
      (stands'.toLeadsDown.isStorable tree') same.symm
  exact ⟨names, stands, stands', rfl⟩

/-- A file that is found in two trees **has the same bytes** in both when the same is stored there. -/
theorem bytes_eq_of_entry?_eq (reached : fs.status (.ofString root) = .ok (base, .directory))
    (tree : fs.IsTree base) (reached' : other.status (.ofString root) = .ok (base', .directory))
    (tree' : other.IsTree base') (found : discover fs root = .ok files)
    (found' : discover other root = .ok files) {names : List String}
    (stands : IsRouteFile fs base names) (stands' : IsRouteFile other base' names)
    (equal : fs.entry? (base ++ names) = other.entry? (base' ++ names)) :
    fs.bytes (.ofString ((Path.ofString root).descend names).text) =
      other.bytes (.ofString ((Path.ofString root).descend names).text) := by
  obtain ⟨bytes, stored, read⟩ := stands.exists_bytes reached tree ⟨files, found⟩
  obtain ⟨bytes', stored', read'⟩ := stands'.exists_bytes reached' tree' ⟨files, found'⟩
  obtain rfl : bytes = bytes' :=
    Entry.file.inj (Option.some.inj (stored.symm.trans (equal.trans stored')))
  rw [read, read']

end Isolation

/-- **What one file holds changes no other record, and no position.** Let a routes root lead to a
tree in each of two file systems, let the search find the same files in both, and let the trees
agree on all route files but one. Whatever is set and however many workers are asked for, both
analyses answer. At every position the two records have the same path and the same URL path, and
they are equal except at the position of that one file; every file stands at one position. -/
theorem analyzeDirectory_isolated {fs other : FileSystem} {root : String} {base base' : Location}
    (reached : fs.status (.ofString root) = .ok (base, .directory)) (tree : fs.IsTree base)
    (reached' : other.status (.ofString root) = .ok (base', .directory))
    (tree' : other.IsTree base') {files : List String} (found : discover fs root = .ok files)
    (found' : discover other root = .ok files) {changed : List String}
    (alike : ∀ names, IsRouteFile fs base names → names ≠ changed →
      fs.entry? (base ++ names) = other.entry? (base' ++ names))
    (reader : Option OptionsReader) :
    ∃ routes routes',
      (∀ environment workers,
        analyzeDirectory environment fs reader workers root = .ok routes ∧
          analyzeDirectory environment other reader workers root = .ok routes') ∧
      routes.length = routes'.length ∧
      List.Forall₂ (fun route route' => route.filePath = route'.filePath ∧
        route.urlPath = route'.urlPath ∧
        (route.filePath ≠ ((Path.ofString root).descend changed).text → route = route'))
        routes routes' ∧
      (routes.map Route.filePath).Nodup := by
  have equal : ∀ file ∈ files, file ≠ ((Path.ofString root).descend changed).text →
      analyzeFile fs reader file root = analyzeFile other reader file root := by
    intro file member away
    obtain ⟨names, stands, stands', rfl⟩ :=
      exists_isRouteFile_both reached tree reached' tree' found found' member
    have unchanged : names ≠ changed := fun same => away (same ▸ rfl)
    exact analyzeFile_congr (bytes_eq_of_entry?_eq reached tree reached' tree' found found' stands
      stands' (alike names stands unchanged)) reader root
  have ordered : (inTableOrder root files).Perm files := List.mergeSort_perm _ _
  have paths := fun fs file => paths_analyzeFile fs reader file root
  refine ⟨recordsOf fs reader root files, recordsOf other reader root files,
    fun environment workers => ⟨analyzeDirectory_of_discover reached found,
      analyzeDirectory_of_discover reached' found'⟩, ?_, ?_, ?_⟩
  · rw [recordsOf_eq_map, recordsOf_eq_map, List.length_map, List.length_map]
  · -- Both tables list the same files in the same order.
    rw [recordsOf_eq_map, recordsOf_eq_map, List.forall₂_map_left_iff, List.forall₂_map_right_iff,
      List.forall₂_same]
    intro file member
    rw [(paths fs file).1, (paths fs file).2, (paths other file).1, (paths other file).2]
    exact ⟨rfl, rfl, equal file (ordered.mem_iff.1 member)⟩
  · have same : (recordsOf fs reader root files).map Route.filePath = inTableOrder root files := by
      rw [recordsOf_eq_map, List.map_map]
      exact List.map_id'' (fun file => (paths fs file).1) _
    rw [same]
    exact ordered.nodup_iff.2 (nodup_of_discover reached tree found)

/-- The tree of `besideFiles` with bytes in the file `x.ts` that are no UTF-8, and with other things
in place of those that are passed over. -/
def damagedBesideFiles : FileSystem :=
  ⟨[(["r"], .directory), (["r", "x.ts"], .file [0xFF]), (["r", "x"], .directory),
    (["r", "x", "index.tsx"], .file []), (["r", "_q"], .directory),
    (["r", "_q", "y.ts"], .file [0x78]), (["r", "n.txt"], .file [])], []⟩

/-- The tables of the two trees agree but for the record of `r/x.ts`. -/
theorem analyzeDirectory_isolated_damaged :
    discover besideFiles "r" = .ok ["r/x/index.tsx", "r/x.ts"] ∧
      discover damagedBesideFiles "r" = .ok ["r/x/index.tsx", "r/x.ts"] ∧
      ∃ routes routes',
        (∀ environment workers,
          analyzeDirectory environment besideFiles none workers "r" = .ok routes ∧
            analyzeDirectory environment damagedBesideFiles none workers "r" = .ok routes') ∧
        List.Forall₂ (fun route route' => route.filePath = route'.filePath ∧
          route.urlPath = route'.urlPath ∧ (route.filePath ≠ "r/x.ts" → route = route'))
          routes routes' := by
  have reached : damagedBesideFiles.status (.ofString "r") = .ok (["r"], .directory) :=
    FileSystem.status_name (by decide) (by decide) rfl rfl (fun target => nofun) (by decide)
  have tree : damagedBesideFiles.IsTree ["r"] :=
    FileSystem.isTree_of_forall_mem (by decide) (by simp [damagedBesideFiles]) ["r"]
  have ascending : [["x", "index.tsx"], ["x.ts"]].Pairwise (· < ·) := by decide
  have texts : [["x", "index.tsx"], ["x.ts"]].map
      (fun names => ((Path.ofString "r").descend names).text) = ["r/x/index.tsx", "r/x.ts"] := by
    decide
  have found : discover damagedBesideFiles "r" = .ok ["r/x/index.tsx", "r/x.ts"] := by
    rw [discover_eq_of_entries reached tree ascending (by decide) (by decide)
      (by decide), texts]
  have alike : ∀ names, IsRouteFile besideFiles ["r"] names → names ≠ ["x.ts"] →
      besideFiles.entry? (["r"] ++ names) = damagedBesideFiles.entry? (["r"] ++ names) := by
    intro names stands other
    rcases List.mem_cons.1 (isRouteFile_besideFiles.1 stands) with rfl | last
    · decide
    · exact absurd (List.mem_singleton.1 last) other
  have changed : ((Path.ofString "r").descend ["x.ts"]).text = "r/x.ts" := by decide
  obtain ⟨routes, routes', given, -, agree, -⟩ := analyzeDirectory_isolated status_besideFiles
    isTree_besideFiles reached tree discover_besideFiles found alike none
  rw [changed] at agree
  exact ⟨discover_besideFiles, found, routes, routes', given, agree⟩

end FileRoutes
