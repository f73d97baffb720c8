import FileRoutes.Analysis.Directory
import FileRoutes.Analysis.Summary
import FileRoutes.Proofs.Analysis.Discovery
import FileRoutes.Proofs.Analysis.File
import FileRoutes.Proofs.FileSystem.Contents

/-! # Analysing what was found

The analysis of a file always gives a record (`analyzeFile_spec`), and that of a directory answers
unless a path is too long for the system (`exists_analyzeDirectory_eq_ok_iff`). Of a file system it
needs the outline and the bytes of the route files (`analyzeDirectory_congr`). The records of the
files that cannot be read are those with problems, so that their number is the one that the summary
gives (`withErrors_ofRoutes`), and it changes with the bytes of any single file
(`countP_isUnread_store_ne`). -/

namespace FileRoutes

/-! ## One file -/

section File

variable {fs other : FileSystem} {file : String}

/-- Equal bytes give equal texts. -/
theorem readSource_congr (equal : fs.bytes (.ofString file) = other.bytes (.ofString file)) :
    readSource fs file = readSource other file := by
  rw [readSource, readSource, equal]

/-- Equal bytes give equal records. -/
theorem analyzeFile_congr (equal : fs.bytes (.ofString file) = other.bytes (.ofString file))
    (reader : Option OptionsReader) (root : String) :
    analyzeFile fs reader file root = analyzeFile other reader file root := by
  unfold analyzeFile
  rw [readSource_congr equal]

/-- Whether a file **cannot be read**. -/
def isUnread (fs : FileSystem) (file : String) : Bool := !(readSource fs file).isOk

/-- A file whose bytes are known cannot be read when they are no UTF-8. -/
theorem isUnread_eq {bytes : List UInt8} (known : fs.bytes (.ofString file) = .ok bytes) :
    isUnread fs file = !(Text.Utf8.decode bytes).isOk := by
  rw [isUnread, readSource_of_bytes known]
  cases Text.Utf8.decode bytes <;> rfl

/-- A reader **refuses nothing** when it reads options from every text. -/
def RefusesNothing (reader : Option OptionsReader) : Prop :=
  ∀ read ∈ reader, ∀ source, ∃ options, read source = .ok options

/-- A reader that refuses nothing gives rise to no problems. -/
theorem RefusesNothing.readOptions_eq {reader : Option OptionsReader}
    (refuses : RefusesNothing reader) (resolution : Resolution) (source : List Char) :
    (readOptions reader resolution source).2 = [] := by
  unfold readOptions
  cases reader with
  | none => rfl
  | some read =>
    obtain ⟨options, found⟩ := refuses read rfl source
    dsimp only
    rw [found]
    split <;> rfl

/-- **A record has problems** when its file cannot be read. -/
theorem errors_isEmpty_analyzeFile {reader : Option OptionsReader} (refuses : RefusesNothing reader)
    (root : String) : (!(analyzeFile fs reader file root).errors.isEmpty) = isUnread fs file := by
  unfold isUnread
  rcases analyzeFile_cases fs reader file root with ⟨source, read, equal⟩ | ⟨failure, read, equal⟩
  · rw [equal, read, analyzeSource]
    simp only [refuses.readOptions_eq]
    rfl
  · rw [equal, read]
    rfl

/-- A URL path begins with a slash. -/
theorem UrlPath.head?_urlPath (file root : String) :
    (UrlPath.urlPath file root).toList.head? = some '/' := by
  rw [UrlPath.urlPath, String.toList_ofList]
  generalize UrlPath.segments _ = segments
  cases segments with
  | nil => rfl
  | cons segment segments => rfl

/-- **A record is given for every file**: its URL path begins with a slash, as that of a record
must, and it has one problem at most, and one when the file cannot be read. -/
theorem analyzeFile_spec (fs : FileSystem) (reader : Option OptionsReader) (file root : String) :
    (analyzeFile fs reader file root).filePath = file ∧
      (analyzeFile fs reader file root).urlPath.toList.head? = some '/' ∧
      (analyzeFile fs reader file root).errors.length ≤ 1 ∧
      (isUnread fs file = true → (analyzeFile fs reader file root).errors.length = 1) := by
  have paths := paths_analyzeFile fs reader file root
  have consistent := isConsistent_record fs reader file root
  refine ⟨paths.1, paths.2 ▸ UrlPath.head?_urlPath file root, consistent.errors.1, fun unread => ?_⟩
  unfold isUnread at unread
  rcases analyzeFile_cases fs reader file root with ⟨source, read, -⟩ | ⟨failure, -, equal⟩
  · rw [read] at unread
    cases unread
  · rw [equal]
    rfl

end File

/-! ## A whole directory -/

section Directory

variable {environment : Environment} {fs other : FileSystem} {reader : Option OptionsReader}
  {workers : Option Int} {root : String} {routes : List Route}

/-- The records of some files, in the order of a table. -/
def recordsOf (fs : FileSystem) (reader : Option OptionsReader) (root : String)
    (files : List String) : List Route :=
  (files.map fun file => analyzeFile fs reader file root).mergeSort Route.precedes

/-- Some files **in the order of a table**: that of their URL paths, and for each URL path their
own. -/
def inTableOrder (root : String) (files : List String) : List String :=
  files.mergeSort fun file other => UrlPath.urlPath file root ≤ UrlPath.urlPath other root

/-- **What the files hold does not decide the order of their records.** -/
theorem recordsOf_eq_map (fs : FileSystem) (reader : Option OptionsReader) (root : String)
    (files : List String) : recordsOf fs reader root files =
      (inTableOrder root files).map fun file => analyzeFile fs reader file root := by
  refine (List.map_mergeSort fun file _ other _ => ?_).symm
  rw [Route.precedes, (paths_analyzeFile fs reader file root).2,
    (paths_analyzeFile fs reader other root).2]

/-- **The analysis of a directory** gives no records, where there is no routes root, or those of its
route files. -/
theorem analyzeDirectory_eq (environment : Environment) (fs : FileSystem)
    (reader : Option OptionsReader) (workers : Option Int) (root : String) :
    analyzeDirectory environment fs reader workers root = (do
      if ← isRoutesRoot fs (.ofString root) then
        let files ← discover fs root
        return recordsOf fs reader root files
      else return []) := by
  simp only [analyzeDirectory, Schedule.map_eq, recordsOf]

/-- How many workers are asked for does not matter, and nor does what is set. -/
theorem analyzeDirectory_workers (environment environment' : Environment) (fs : FileSystem)
    (reader : Option OptionsReader) (workers workers' : Option Int) (root : String) :
    analyzeDirectory environment fs reader workers root =
      analyzeDirectory environment' fs reader workers' root := by
  rw [analyzeDirectory_eq, analyzeDirectory_eq]

/-- Analysing a directory needs the outline of a file system and the bytes of the route files. -/
theorem analyzeDirectory_congr (same : SameOutline fs other)
    (equal : ∀ files, discover fs root = .ok files → ∀ file ∈ files,
      fs.bytes (.ofString file) = other.bytes (.ofString file)) :
    analyzeDirectory environment fs reader workers root =
      analyzeDirectory environment other reader workers root := by
  have isRoot : isRoutesRoot fs (.ofString root) = isRoutesRoot other (.ofString root) := by
    rw [isRoutesRoot, isRoutesRoot, same.holds, same.isDirectory]
  rw [analyzeDirectory_eq, analyzeDirectory_eq, isRoot, ← same.discover]
  cases found : discover fs root with
  | error failure =>
    show (isRoutesRoot other (.ofString root) >>= fun isRoot =>
        if isRoot then Except.error failure else .ok []) = _
    rfl
  | ok files =>
    have records : recordsOf fs reader root files = recordsOf other reader root files := by
      unfold recordsOf
      rw [List.map_congr_left fun file member =>
        analyzeFile_congr (equal files found file member) reader root]
    show (isRoutesRoot other (.ofString root) >>= fun isRoot =>
        if isRoot then Except.ok (recordsOf fs reader root files) else .ok []) = _
    rw [records]
    rfl

/-- What is known about a path that may be the **root of routes**: nothing when it is too long, that
it leads to a directory, or that it is none and cannot be listed. -/
theorem isRoutesRoot_cases (fs : FileSystem) (path : Path) :
    (fs.IsTooLong path ∧ ∀ answer, isRoutesRoot fs path ≠ .ok answer) ∨
    (¬ fs.IsTooLong path ∧ isRoutesRoot fs path = .ok true ∧
      ∃ location, fs.status path = .ok (location, .directory)) ∨
    (¬ fs.IsTooLong path ∧ isRoutesRoot fs path = .ok false ∧
      ∀ names, fs.list path ≠ .ok names) := by
  unfold isRoutesRoot FileSystem.holds FileSystem.isDirectory FileSystem.ask FileSystem.list
    FileSystem.IsTooLong
  cases reached : fs.status path with
  | ok place =>
    obtain ⟨location, entry⟩ := place
    cases entry with
    | directory => exact .inr (.inl ⟨by simp, rfl, location, rfl⟩)
    | file bytes => exact .inr (.inr ⟨by simp, rfl, fun names listed => by cases listed⟩)
    | link target => exact .inr (.inr ⟨by simp, rfl, fun names listed => by cases listed⟩)
  | error failure =>
    rcases FileSystem.status_eq_error reached with ⟨-, rfl⟩ | ⟨-, cause, rfl, absent | rfl⟩
    · exact .inr (.inr ⟨by simp, rfl, fun names listed => by cases listed⟩)
    · have short : cause ≠ .nameTooLong := by
        rintro rfl
        exact absurd absent (by decide)
      refine .inr (.inr ⟨by simpa using short, ?_, fun names listed => by cases listed⟩)
      simp [absent, bind, Except.bind, pure, Except.pure]
    · exact .inl ⟨rfl, fun answer given => by cases given⟩

/-- A path that leads to a directory is a root of routes. -/
theorem isRoutesRoot_of_status {path : Path} {location : Location}
    (reached : fs.status path = .ok (location, .directory)) : isRoutesRoot fs path = .ok true := by
  rw [isRoutesRoot, FileSystem.holds, FileSystem.isDirectory, FileSystem.ask, FileSystem.ask, reached]
  rfl

/-- The analysis of a directory gives the records of the files that are found there. -/
theorem analyzeDirectory_of_discover {location : Location} {files : List String}
    (reached : fs.status (.ofString root) = .ok (location, .directory))
    (found : discover fs root = .ok files) :
    analyzeDirectory environment fs reader workers root =
      .ok (recordsOf fs reader root files) := by
  rw [analyzeDirectory_eq, isRoutesRoot_of_status reached, found]
  rfl

/-- **Where route files are found there is a routes root.** -/
theorem isRoutesRoot_of_mem_discover {files : List String} (found : discover fs root = .ok files)
    {file : String} (member : file ∈ files) : isRoutesRoot fs (.ofString root) = .ok true := by
  obtain ⟨path, met, -⟩ := exists_meets_of_mem_discover found member
  obtain ⟨names, listed⟩ := exists_list_of_meets met
  obtain ⟨location, reached, -⟩ := FileSystem.exists_status_of_list listed
  rcases isRoutesRoot_cases fs (.ofString root) with ⟨long, -⟩ | ⟨-, isRoot, -⟩ | ⟨-, -, unlisted⟩
  · exact absurd long (FileSystem.not_isTooLong_of_status reached)
  · exact isRoot
  · exact absurd listed (unlisted names)

/-- **The analysis of a directory answers** exactly when the system finds neither its root too long
nor any path that is met below it. -/
theorem exists_analyzeDirectory_eq_ok_iff :
    (∃ routes, analyzeDirectory environment fs reader workers root = .ok routes) ↔
      ¬ fs.IsTooLong (.ofString root) ∧ MeetsOnlyShort fs (.ofString root) := by
  rw [analyzeDirectory_eq, exists_bind_eq_ok_iff]
  rcases isRoutesRoot_cases fs (.ofString root) with ⟨long, unknown⟩ |
    ⟨short, isRoot, location, reached⟩ | ⟨short, isRoot, unlisted⟩
  · simp [long, unknown]
  · have clean := (FileSystem.status_eq_ok_iff.1 reached).1
    have searched : (∃ files, discover fs root = .ok files) ↔ MeetsOnlyShort fs (.ofString root) :=
      exists_discover_eq_ok_iff.trans (and_iff_right clean)
    simp only [isRoot, short, not_false_eq_true, true_and, Except.ok.injEq, exists_eq_left',
      if_true, ← searched]
    rw [exists_bind_eq_ok_iff]
    exact exists_congr fun files => and_iff_left ⟨_, rfl⟩
  · have nothing : ∀ path, ¬ Meets fs (.ofString root) path := by
      intro path met
      obtain ⟨names, listed⟩ := exists_list_of_meets met
      exact unlisted names listed
    simp [isRoot, short, nothing, MeetsOnlyShort, pure, Except.pure]

/-- The records of a directory are those of its route files. -/
theorem eq_recordsOf {files : List String}
    (analyzed : analyzeDirectory environment fs reader workers root = .ok routes)
    (found : discover fs root = .ok files) {file : String} (member : file ∈ files) :
    routes = recordsOf fs reader root files := by
  rw [analyzeDirectory_eq, isRoutesRoot_of_mem_discover found member, found] at analyzed
  exact (Except.ok.inj analyzed).symm

/-- **Every record of a directory** is that of a route file which is found there. -/
theorem exists_file_of_mem_analyzeDirectory
    (analyzed : analyzeDirectory environment fs reader workers root = .ok routes) {route : Route}
    (member : route ∈ routes) :
    ∃ files, discover fs root = .ok files ∧
      ∃ file ∈ files, route = analyzeFile fs reader file root := by
  rw [analyzeDirectory_eq] at analyzed
  obtain ⟨isRoot, -, analyzed⟩ := bind_eq_ok_iff.1 analyzed
  cases isRoot with
  | false => exact absurd member (by simp [← Except.ok.inj analyzed])
  | true =>
    obtain ⟨files, found, analyzed⟩ := bind_eq_ok_iff.1 analyzed
    rw [← Except.ok.inj analyzed] at member
    obtain ⟨file, inside, same⟩ := List.mem_map.1 (List.mem_mergeSort.1 member)
    exact ⟨files, found, file, inside, same.symm⟩

/-- The number of records with problems is that of the files that cannot be read. -/
theorem withErrors_ofRoutes (refuses : RefusesNothing reader) (files : List String) :
    (Summary.ofRoutes (recordsOf fs reader root files)).withErrors =
      files.countP (isUnread fs) := by
  simp only [Summary.ofRoutes, recordsOf]
  rw [(List.mergeSort_perm _ _).countP_eq, List.countP_map]
  exact List.countP_congr fun file _ => by
    rw [Function.comp_apply, errors_isEmpty_analyzeFile refuses]

end Directory

/-! ## Other bytes in one file -/

/-- Something holds of more elements when it holds of a further one. -/
theorem countP_lt_countP {α : Type} {p q : α → Bool} {l : List α}
    (imp : ∀ a ∈ l, p a = true → q a = true) {a : α} (member : a ∈ l) (fails : p a = false)
    (holds : q a = true) : l.countP p < l.countP q := by
  obtain ⟨before, after, rfl⟩ := List.append_of_mem member
  have left : before.countP p ≤ before.countP q :=
    List.countP_mono_left fun b inside => imp b (by simp [inside])
  have right : after.countP p ≤ after.countP q :=
    List.countP_mono_left fun b inside => imp b (by simp [inside])
  rw [List.countP_append, List.countP_append, List.countP_cons_of_neg (by simp [fails]),
    List.countP_cons_of_pos holds]
  omega

/-- There are bytes of the other kind: no UTF-8 in place of UTF-8, and the other way around. -/
theorem exists_changed_bytes (bytes : List UInt8) :
    ∃ bytes', (Text.Utf8.decode bytes').isOk = !(Text.Utf8.decode bytes).isOk := by
  cases (Text.Utf8.decode bytes).isOk with
  | false => exact ⟨[], rfl⟩
  | true => exact ⟨[0xFF], rfl⟩

/-- Whether the file at a location is read depends on its bytes, before and after other bytes are
stored there. -/
theorem isUnread_and_store {fs : FileSystem} {file : String} {location : Location}
    {bytes : List UInt8} (reached : fs.status (.ofString file) = .ok (location, .file bytes))
    (bytes' : List UInt8) :
    isUnread fs file = !(Text.Utf8.decode bytes).isOk ∧
      isUnread (fs.store location (.file bytes')) file = !(Text.Utf8.decode bytes').isOk := by
  have before : fs.bytes (.ofString file) = .ok bytes := by
    rw [FileSystem.bytes, reached]
    rfl
  exact ⟨isUnread_eq before, isUnread_eq (FileSystem.bytes_store reached bytes')⟩

/-- Files that are elsewhere are read as before, and those that are at the location all change in
the same direction. -/
theorem isUnread_store_cases {fs : FileSystem} {location : Location} {bytes : List UInt8}
    (stored : fs.entry? location = some (.file bytes)) (bytes' : List UInt8) (file : String) :
    isUnread (fs.store location (.file bytes')) file = isUnread fs file ∨
    isUnread fs file = !(Text.Utf8.decode bytes).isOk ∧
      isUnread (fs.store location (.file bytes')) file = !(Text.Utf8.decode bytes').isOk := by
  by_cases away : ∀ bytes, fs.status (.ofString file) ≠ .ok (location, .file bytes)
  · left
    have equal := FileSystem.bytes_store_of_ne stored away bytes'
    unfold isUnread
    rw [readSource_congr equal]
  · right
    obtain ⟨held, here⟩ := not_forall.1 away
    have here := not_not.1 here
    obtain rfl : held = bytes := by
      have equal := (FileSystem.entry?_of_status here).symm.trans stored
      exact Entry.file.inj (Option.some.inj equal)
    exact isUnread_and_store here bytes'

/-- **The number of files that cannot be read changes** with the bytes of any one of them, when
bytes that are UTF-8 are changed to bytes that are not, or the other way around. -/
theorem countP_isUnread_store_ne {fs : FileSystem} {files : List String} {file : String}
    (member : file ∈ files) {location : Location} {bytes bytes' : List UInt8}
    (reached : fs.status (.ofString file) = .ok (location, .file bytes))
    (changes : (Text.Utf8.decode bytes').isOk = !(Text.Utf8.decode bytes).isOk) :
    files.countP (isUnread (fs.store location (.file bytes'))) ≠ files.countP (isUnread fs) := by
  have same := isUnread_store_cases (FileSystem.entry?_of_status reached) bytes'
  obtain ⟨old, new⟩ := isUnread_and_store reached bytes'
  rw [changes, Bool.not_not] at new
  cases decodes : (Text.Utf8.decode bytes).isOk with
  | true =>
    rw [decodes] at old new
    refine Nat.ne_of_gt (countP_lt_countP (fun other _ unread => ?_) member old new)
    rcases same other with equal | ⟨-, now⟩
    · rw [equal, unread]
    · rw [now, changes, Bool.not_not, decodes]
  | false =>
    rw [decodes] at old new
    refine Nat.ne_of_lt (countP_lt_countP (fun other _ unread => ?_) member new old)
    rcases same other with equal | ⟨before, -⟩
    · rw [← equal, unread]
    · rw [before, decodes, Bool.not_false]

end FileRoutes
