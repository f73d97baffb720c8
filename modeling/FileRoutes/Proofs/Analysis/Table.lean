import FileRoutes.Proofs.Analysis.Directory
import FileRoutes.Proofs.Analysis.Listing

/-! # Tables

The records of a directory form a **table** (`IsTableOf`): those of its route files, each once, in
the order of their URL paths, and for each URL path in the order in which the files are found. There
is only one such table (`IsTableOf.unique`), so that neither the settings nor the number of workers
that is asked for changes it (`analyzeDirectory_table`). When workers share the files there are at
least two of them, and no more than there are files (`Schedule.bounds_of_plan`). -/

namespace FileRoutes

/-! ## Stable order -/

section Order

variable {α κ : Type} [LinearOrder κ] {key : α → κ} {l l' : List α}

/-- Lists with the same parts for each key have the same elements. -/
theorem mem_iff_of_filter_eq (same : ∀ k, l.filter (key · = k) = l'.filter (key · = k)) (a : α) :
    a ∈ l ↔ a ∈ l' := by
  have here : a ∈ l.filter (key · = key a) ↔ a ∈ l'.filter (key · = key a) := by rw [same]
  simpa using here

/-- **A list in the order of a key is known** from its parts with equal keys. -/
theorem eq_of_filter_eq (ascending : l.Pairwise fun a b => key a ≤ key b)
    (ascending' : l'.Pairwise fun a b => key a ≤ key b)
    (same : ∀ k, l.filter (key · = k) = l'.filter (key · = k)) : l = l' := by
  have members := mem_iff_of_filter_eq same
  induction l generalizing l' with
  | nil =>
    refine (List.eq_nil_iff_forall_not_mem.2 fun a member => ?_).symm
    exact List.not_mem_nil ((members a).2 member)
  | cons a l ih =>
    cases l' with
    | nil => exact absurd ((members a).1 List.mem_cons_self) List.not_mem_nil
    | cons b l' =>
      rw [List.pairwise_cons] at ascending ascending'
      -- Both lists begin with an element of the least key, and the parts with that key agree.
      have least : key a ≤ key b := by
        rcases List.mem_cons.1 ((members b).2 List.mem_cons_self) with rfl | member
        · exact le_rfl
        · exact ascending.1 b member
      have least' : key b ≤ key a := by
        rcases List.mem_cons.1 ((members a).1 List.mem_cons_self) with rfl | member
        · exact le_rfl
        · exact ascending'.1 a member
      have equal : key a = key b := le_antisymm least least'
      have first := same (key a)
      rw [List.filter_cons_of_pos (by simp), List.filter_cons_of_pos (by simp [equal])] at first
      obtain rfl : a = b := List.head_eq_of_cons_eq first
      have rest : ∀ k, l.filter (key · = k) = l'.filter (key · = k) := by
        intro k
        have whole := same k
        rw [List.filter_cons, List.filter_cons] at whole
        split at whole
        · exact List.tail_eq_of_cons_eq whole
        · exact whole
      rw [ih ascending.2 ascending'.2 rest (mem_iff_of_filter_eq rest)]

end Order

/-! ## Tables of records -/

/-- Records are the **table** of some records. -/
structure IsTableOf (records routes : List Route) : Prop where
  /-- They are the same records, each as often. -/
  perm : routes.Perm records
  /-- They stand in the order of their URL paths. -/
  ascending : routes.Pairwise fun first second => first.urlPath ≤ second.urlPath
  /-- Those of any single URL path keep their order. -/
  stable : ∀ url, routes.filter (·.urlPath = url) = records.filter (·.urlPath = url)

/-- **Records have only one table.** -/
theorem IsTableOf.unique {records routes routes' : List Route} (table : IsTableOf records routes)
    (table' : IsTableOf records routes') : routes = routes' :=
  eq_of_filter_eq table.ascending table'.ascending fun url =>
    (table.stable url).trans (table'.stable url).symm

/-- The order of tables is transitive. -/
theorem Route.precedes_trans (a b c : Route) :
    Route.precedes a b → Route.precedes b c → Route.precedes a c := by
  intro first second
  rw [precedes, decide_eq_true_eq] at first second ⊢
  exact first.trans second

/-- The order of tables is total. -/
theorem Route.precedes_total (a b : Route) : Route.precedes a b || Route.precedes b a := by
  simpa [precedes] using le_total a.urlPath b.urlPath

/-- **Sorting records by URL path gives their table.** -/
theorem isTableOf_mergeSort (records : List Route) :
    IsTableOf records (records.mergeSort Route.precedes) where
  perm := List.mergeSort_perm _ _
  ascending := by
    refine (List.pairwise_mergeSort Route.precedes_trans Route.precedes_total records).imp ?_
    intro first second ordered
    simpa [Route.precedes] using ordered
  stable url := by
    -- The records of one URL path are in order already, so that they stay a sublist.
    have equal : ∀ first ∈ records.filter (·.urlPath = url), first.urlPath = url := by simp
    have sorted : (records.filter (·.urlPath = url)).Pairwise (Route.precedes · ·) := by
      refine List.pairwise_of_forall_mem_list fun first member second member' => ?_
      simp [Route.precedes, equal first member, equal second member']
    have kept := (List.sublist_mergeSort Route.precedes_trans Route.precedes_total sorted
      List.filter_sublist).filter (·.urlPath = url)
    simp only [List.filter_filter, Bool.and_self] at kept
    exact (kept.eq_of_length ((List.mergeSort_perm _ _).filter _).length_eq.symm).symm

/-! ## Sharing the files -/

/-- **Workers that share some items** are at least two, and no more than there are items. -/
theorem Schedule.bounds_of_plan {asked : Int} {items pool : Nat}
    (planned : Schedule.plan asked items = .shared pool) : 2 ≤ pool ∧ pool ≤ items := by
  -- One worker, or fewer than two items, are not shared.
  unfold Schedule.plan at planned
  dsimp only at planned
  split at planned
  next => cases planned
  next several =>
    obtain ⟨more, enough⟩ := not_or.1 several
    have size : min (max 1 asked).toNat items = pool := Schedule.shared.inj planned
    omega

/-! ## The table of a directory -/

/-- **The analysis of a directory gives the table of its route files.** Let a routes root be a
directory below which the search answers. Whatever is set and however many workers are asked for,
the answer is the same: the one table of the records of the files that are found. When workers share
the files there are at least two of them, and no more than there are files. -/
theorem analyzeDirectory_table {fs : FileSystem} {root : String} {files : List String}
    (isDirectory : fs.isDirectory (.ofString root) = .ok true)
    (found : discover fs root = .ok files) (reader : Option OptionsReader) :
    ∃ routes, (∀ environment workers,
        analyzeDirectory environment fs reader workers root = .ok routes) ∧
      IsTableOf (files.map fun file => analyzeFile fs reader file root) routes ∧
      (∀ others, IsTableOf (files.map fun file => analyzeFile fs reader file root) others →
        others = routes) ∧
      ∀ environment workers pool, scheduleFor environment workers files.length = .shared pool →
        2 ≤ pool ∧ pool ≤ files.length := by
  -- Where there is a directory there is something, so that the two questions about the root agree.
  have isRoot : isRoutesRoot fs (.ofString root) = .ok true := by
    obtain ⟨location, reached⟩ := FileSystem.isDirectory_eq_true_iff.1 isDirectory
    rw [isRoutesRoot, FileSystem.holds, FileSystem.ask, reached]
    exact isDirectory
  have table := isTableOf_mergeSort (files.map fun file => analyzeFile fs reader file root)
  refine ⟨_, fun environment workers => ?_, table, fun others other => other.unique table,
    fun environment workers pool planned => Schedule.bounds_of_plan planned⟩
  rw [analyzeDirectory_eq, isRoot, found]
  rfl

/-- Two files with the same URL path, and their table. -/
theorem analyzeDirectory_table_besideFiles :
    besideFiles.isDirectory (.ofString "r") = .ok true ∧
      discover besideFiles "r" = .ok ["r/x/index.tsx", "r/x.ts"] ∧
      ∃ routes, (∀ environment workers,
          analyzeDirectory environment besideFiles none workers "r" = .ok routes) ∧
        routes.map Route.filePath = ["r/x/index.tsx", "r/x.ts"] ∧
        routes.map Route.urlPath = ["/x", "/x"] := by
  have isDirectory : besideFiles.isDirectory (.ofString "r") = .ok true :=
    FileSystem.isDirectory_eq_true_iff.2 ⟨_, status_besideFiles⟩
  have urls : UrlPath.urlPath "r/x/index.tsx" "r" = "/x" ∧ UrlPath.urlPath "r/x.ts" "r" = "/x" := by
    decide +kernel
  obtain ⟨routes, given, -, only, -⟩ := analyzeDirectory_table isDirectory discover_besideFiles none
  have paths := fun file => paths_analyzeFile besideFiles none file "r"
  -- With one URL path for all, the records are their own table.
  rw [← only _ ⟨.refl _, by simp [paths, urls], fun url => rfl⟩] at given
  exact ⟨isDirectory, discover_besideFiles, _, given, by simp [paths], by simp [paths, urls]⟩

end FileRoutes
