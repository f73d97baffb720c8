import FileRoutes.Analysis.Discovery
import FileRoutes.Proofs.FileSystem.Outline
import FileRoutes.Proofs.Path

/-! # Going through a directory

What the search for route files below a directory does with each name (`discoverAt`), and how facts
about it are proved: of a directory, when they hold of the directories right below it
(`discover_induction`). File systems with the same outline have the same route files
(`SameOutline.discover`), and the search fails only for a path among those that it **meets**
(`Meets`) which is too long for the system (`exists_discoverBelow_eq_ok_iff`). -/

namespace FileRoutes

/-! ## Asking one after the other -/

section Answers

variable {α β ε : Type}

/-- What two steps answer is the answer of the second one to that of the first. -/
theorem bind_eq_ok_iff {first : Except ε α} {second : α → Except ε β} {answer : β} :
    first >>= second = .ok answer ↔ ∃ a, first = .ok a ∧ second a = .ok answer := by
  cases first with
  | error failure => simp [bind, Except.bind]
  | ok a => simp [bind, Except.bind]

/-- Two steps answer when the first one does and the second one answers to that. -/
theorem exists_bind_eq_ok_iff {first : Except ε α} {second : α → Except ε β} :
    (∃ answer, first >>= second = .ok answer) ↔
      ∃ a, first = .ok a ∧ ∃ answer, second a = .ok answer := by
  simp only [bind_eq_ok_iff]
  exact ⟨fun ⟨answer, a, known, given⟩ => ⟨a, known, answer, given⟩,
    fun ⟨a, known, answer, given⟩ => ⟨answer, a, known, given⟩⟩

/-- Asking for each of a list answers when every single question is answered. -/
theorem exists_mapM_eq_ok_iff {ask : α → Except ε β} {l : List α} :
    (∃ answers, l.mapM ask = .ok answers) ↔ ∀ a ∈ l, ∃ answer, ask a = .ok answer := by
  induction l with
  | nil => simp [pure, Except.pure]
  | cons a l ih =>
    rw [List.mapM_cons, exists_bind_eq_ok_iff, List.forall_mem_cons, ← ih]
    constructor
    · rintro ⟨answer, first, rest⟩
      obtain ⟨answers, found, -⟩ := exists_bind_eq_ok_iff.1 rest
      exact ⟨⟨answer, first⟩, answers, found⟩
    · rintro ⟨⟨answer, first⟩, answers, found⟩
      exact ⟨answer, first, exists_bind_eq_ok_iff.2 ⟨answers, found, _, rfl⟩⟩

/-- Asking for each of a list gives an answer for each, in order. -/
theorem mapM_eq_ok_iff {ask : α → Except ε β} {l : List α} {answers : List β} :
    l.mapM ask = .ok answers ↔ List.Forall₂ (fun a answer => ask a = .ok answer) l answers := by
  induction l generalizing answers with
  | nil => simp [pure, Except.pure, eq_comm]
  | cons a l ih =>
    rw [List.mapM_cons, List.forall₂_cons_left_iff]
    cases first : ask a with
    | error failure => simp [bind, Except.bind]
    | ok answer =>
      cases rest : l.mapM ask with
      | error failure => simp [rest, bind, Except.bind, ← ih]
      | ok others => simp [rest, bind, Except.bind, pure, Except.pure, ← ih, eq_comm]

/-- What is in the joined answers is in the answer for one of the list. -/
theorem exists_of_mem_flatten {answer : α → List β → Prop} {l : List α} {answers : List (List β)}
    (each : List.Forall₂ answer l answers) {b : β} (member : b ∈ answers.flatten) :
    ∃ a ∈ l, ∃ found, answer a found ∧ b ∈ found := by
  induction each with
  | nil => cases member
  | @cons a found _ _ first _ ih =>
    rw [List.flatten_cons, List.mem_append] at member
    rcases member with here | there
    · exact ⟨a, List.mem_cons_self, found, first, here⟩
    · obtain ⟨a', inside, found', given, here⟩ := ih there
      exact ⟨a', List.mem_cons_of_mem _ inside, found', given, here⟩

end Answers

/-! ## One name after the other -/

/-- What a **name** in a directory gives: nothing when it is passed over, the route files below it
when it is a directory, and else itself when it is that of a route file. -/
def discoverAt (fs : FileSystem) (directory : Path) (name : String) : Except Failure (List Path) :=
  if isPassedOver name then .ok []
  else
    match fs.isDirectory (directory.child name) with
    | .error failure => .error failure
    | .ok true => discoverBelow fs (directory.child name)
    | .ok false => .ok (if isRouteFileName name then [directory.child name] else [])

/-- The search below a directory asks for what each of its names gives. -/
theorem discoverBelow_eq (fs : FileSystem) (directory : Path) :
    discoverBelow fs directory = (do
      let names ← listedNames fs directory
      let found ← names.mapM (discoverAt fs directory)
      return found.flatten) := by
  rw [discoverBelow]
  -- The two differ in what they do with a single name, where the search keeps the answer at hand.
  refine congrArg _ (funext fun names => ?_)
  refine congrArg (· >>= _) (congrArg (names.mapM ·) (funext fun name => ?_))
  unfold discoverAt
  split
  next => rfl
  next =>
    dsimp only
    generalize fs.isDirectory (directory.child name) = answer
    rcases answer with failure | (_ | _) <;> rfl

/-- How a directory is listed for the search: with its names, or with none when it cannot be listed,
or not at all when its path holds a NUL character. -/
theorem listedNames_cases (fs : FileSystem) (directory : Path) :
    ('\x00' ∉ directory.text.toList ∧ ∃ names, fs.list directory = .ok names ∧
      listedNames fs directory = .ok names) ∨
    ('\x00' ∉ directory.text.toList ∧ (∀ names, fs.list directory ≠ .ok names) ∧
      listedNames fs directory = .ok []) ∨
    ('\x00' ∈ directory.text.toList ∧ listedNames fs directory = .error .nulInPath) := by
  unfold listedNames FileSystem.list
  cases reached : fs.status directory with
  | error failure =>
    rcases FileSystem.status_eq_error reached with ⟨null, rfl⟩ | ⟨clean, cause, rfl, -⟩
    · exact .inr (.inr ⟨null, rfl⟩)
    · exact .inr (.inl ⟨clean, (fun _ listed => by cases listed), rfl⟩)
  | ok place =>
    obtain ⟨location, entry⟩ := place
    have clean := (FileSystem.status_eq_ok_iff.1 reached).1
    cases entry with
    | directory => exact .inl ⟨clean, _, rfl, rfl⟩
    | file bytes => exact .inr (.inl ⟨clean, (fun _ listed => by cases listed), rfl⟩)
    | link target => exact .inr (.inl ⟨clean, (fun _ listed => by cases listed), rfl⟩)

/-- **What the search below a directory gives**: what the names in it give, joined, or nothing when
it cannot be listed. -/
theorem discoverBelow_cases {fs : FileSystem} {directory : Path} {found : List Path}
    (searched : discoverBelow fs directory = .ok found) :
    (∃ names answers, fs.list directory = .ok names ∧
      List.Forall₂ (fun name given => discoverAt fs directory name = .ok given) names answers ∧
      found = answers.flatten) ∨
    (∀ names, fs.list directory ≠ .ok names) ∧ found = [] := by
  rw [discoverBelow_eq] at searched
  rcases listedNames_cases fs directory with ⟨-, names, listed, given⟩ | ⟨-, unlisted, given⟩ |
    ⟨-, given⟩
  · rw [given] at searched
    cases each : names.mapM (discoverAt fs directory) with
    | error failure => simp [each, bind, Except.bind] at searched
    | ok answers =>
      simp only [each, bind, Except.bind, pure, Except.pure, Except.ok.injEq] at searched
      exact .inl ⟨names, answers, listed, mapM_eq_ok_iff.1 each, searched.symm⟩
  · rw [given] at searched
    exact .inr ⟨unlisted, (Except.ok.inj searched).symm⟩
  · rw [given] at searched
    cases searched

/-- **Induction along the directories**: what holds of a directory whenever it holds of those right
below it holds of all. A path that leads to a directory is not too long, so that it ends. -/
theorem discover_induction (fs : FileSystem) {motive : Path → Prop}
    (step : ∀ directory : Path, (∀ name, fs.isDirectory (directory.child name) = .ok true →
      motive (directory.child name)) → motive directory) (directory : Path) :
    motive directory := by
  refine step directory fun name found => ?_
  have short : (directory.child name).names.length ≤ pathLimit :=
    FileSystem.names_length_le_of_isDirectory found
  exact discover_induction fs step (directory.child name)
  termination_by pathLimit + 1 - directory.names.length
  decreasing_by
    simp only [Path.child, List.length_append, List.length_singleton] at short ⊢
    omega

/-! ## The contents of files do not matter -/

/-- **The same route files are found** in file systems with the same outline. -/
theorem SameOutline.discoverBelow {fs other : FileSystem} (same : SameOutline fs other)
    (directory : Path) :
    FileRoutes.discoverBelow fs directory = FileRoutes.discoverBelow other directory := by
  induction directory using discover_induction fs with
  | step directory ih =>
    have listed : listedNames fs directory = listedNames other directory := by
      rw [listedNames, listedNames, same.list]
    have each : discoverAt fs directory = discoverAt other directory := by
      funext name
      unfold discoverAt
      rw [← same.isDirectory]
      split
      · rfl
      cases found : fs.isDirectory (directory.child name) with
      | error failure => rfl
      | ok isDirectory =>
        cases isDirectory with
        | false => rfl
        | true => exact ih name found
    rw [discoverBelow_eq, discoverBelow_eq, listed, each]

/-- The same route files are found below a routes root. -/
theorem SameOutline.discover {fs other : FileSystem} (same : SameOutline fs other) (root : String) :
    FileRoutes.discover fs root = FileRoutes.discover other root := by
  rw [FileRoutes.discover, FileRoutes.discover, same.discoverBelow]

/-! ## What is met -/

/-- A path **stands in a directory** when it is listed there and its name is not passed over. -/
def StandsIn (fs : FileSystem) (directory path : Path) : Prop :=
  ∃ names name, fs.list directory = .ok names ∧ name ∈ names ∧ isPassedOver name = false ∧
    path = directory.child name

/-- The paths that the search below a directory **meets**: those that stand in it, and those that
are met below the directories among them. -/
inductive Meets (fs : FileSystem) : Path → Path → Prop where
  /-- A path that stands in the directory. -/
  | here {directory path : Path} (stands : StandsIn fs directory path) : Meets fs directory path
  /-- A path that is met below a directory that stands in the directory. -/
  | inside {directory inner path : Path} (stands : StandsIn fs directory inner)
      (isDirectory : fs.isDirectory inner = .ok true) (met : Meets fs inner path) :
      Meets fs directory path

/-- What a name gives is itself, or below it when it is a directory. -/
theorem eq_or_exists_of_mem_discoverAt {fs : FileSystem} {directory : Path} {name : String}
    {found : List Path} (searched : discoverAt fs directory name = .ok found) {path : Path}
    (member : path ∈ found) : isPassedOver name = false ∧ (path = directory.child name ∨
      fs.isDirectory (directory.child name) = .ok true ∧
        discoverBelow fs (directory.child name) = .ok found) := by
  unfold discoverAt at searched
  split at searched
  · obtain rfl : [] = found := Except.ok.inj searched
    cases member
  next kept =>
    refine ⟨by simpa using kept, ?_⟩
    split at searched
    · cases searched
    next isDirectory => exact .inr ⟨isDirectory, searched⟩
    next =>
      obtain rfl := Except.ok.inj searched
      split at member
      · exact .inl (List.mem_singleton.1 member)
      · cases member

/-- **Everything that is found is met.** -/
theorem meets_of_mem_discoverBelow {fs : FileSystem} {directory : Path} {found : List Path}
    (searched : discoverBelow fs directory = .ok found) {path : Path} (member : path ∈ found) :
    Meets fs directory path := by
  induction directory using discover_induction fs generalizing found with
  | step directory ih =>
    rcases discoverBelow_cases searched with ⟨names, answers, listed, each, rfl⟩ | ⟨-, rfl⟩
    · obtain ⟨name, inside, found, given, here⟩ := exists_of_mem_flatten each member
      obtain ⟨kept, rfl | ⟨isDirectory, below⟩⟩ := eq_or_exists_of_mem_discoverAt given here
      · exact .here ⟨names, name, listed, inside, kept, rfl⟩
      · exact .inside ⟨names, name, listed, inside, kept, rfl⟩ isDirectory
          (ih name isDirectory below here)
    · cases member

/-- A file system is **well named** when everything is stored under the name of a file. -/
def FileSystem.IsWellNamed (fs : FileSystem) : Prop :=
  ∀ location name, fs.entry? (location ++ [name]) ≠ none → IsFileName name

/-- What stands in a directory has the name of a file there. -/
theorem StandsIn.exists_name {fs : FileSystem} (well : fs.IsWellNamed) {directory path : Path}
    (stands : StandsIn fs directory path) : ∃ name, IsFileName name ∧ path = directory.child name := by
  obtain ⟨names, name, listed, member, -, rfl⟩ := stands
  obtain ⟨location, -, rfl⟩ := FileSystem.exists_status_of_list listed
  have stored := FileSystem.mem_namesIn_iff.1 ((List.mergeSort_perm _ _).mem_iff.1 member)
  exact ⟨name, well location name stored, rfl⟩

/-- **What is met below a directory has the names of the directory and behind them those of
files.** -/
theorem Meets.exists_names {fs : FileSystem} (well : fs.IsWellNamed) {directory path : Path}
    (met : Meets fs directory path) : ∃ names, (∀ name ∈ names, IsFileName name) ∧
      path = ⟨directory.anchor, directory.names ++ names⟩ := by
  induction met with
  | here stands =>
    obtain ⟨name, can, rfl⟩ := stands.exists_name well
    exact ⟨[name], by simpa using can, rfl⟩
  | inside stands _ _ ih =>
    obtain ⟨name, can, rfl⟩ := stands.exists_name well
    obtain ⟨names, each, rfl⟩ := ih
    refine ⟨name :: names, List.forall_mem_cons.2 ⟨can, each⟩, ?_⟩
    simp [Path.child]

/-- The route files below a routes root are the texts of the paths that are found. -/
theorem exists_discoverBelow_of_discover {fs : FileSystem} {root : String} {files : List String}
    (found : discover fs root = .ok files) :
    ∃ paths, discoverBelow fs (.ofString root) = .ok paths ∧ paths.map Path.text = files := by
  cases searched : discoverBelow fs (.ofString root) with
  | error failure =>
    rw [discover, searched] at found
    cases found
  | ok paths =>
    rw [discover, searched] at found
    exact ⟨paths, rfl, Except.ok.inj found⟩

/-- A route file below a routes root is the text of a path that is met. -/
theorem exists_meets_of_mem_discover {fs : FileSystem} {root : String} {files : List String}
    (found : discover fs root = .ok files) {file : String} (member : file ∈ files) :
    ∃ path, Meets fs (.ofString root) path ∧ path.text = file := by
  obtain ⟨paths, searched, rfl⟩ := exists_discoverBelow_of_discover found
  obtain ⟨path, inside, rfl⟩ := List.mem_map.1 member
  exact ⟨path, meets_of_mem_discoverBelow searched inside, rfl⟩

/-! ## When the search fails -/

/-- The search below a directory **meets only short paths** when the system finds none of those that
it meets too long. -/
def MeetsOnlyShort (fs : FileSystem) (directory : Path) : Prop :=
  ∀ path, Meets fs directory path → ¬ fs.IsTooLong path

section Failure

variable {fs : FileSystem} {directory : Path}

/-- Something is met only in a directory that can be listed. -/
theorem exists_list_of_meets {path : Path} (met : Meets fs directory path) :
    ∃ names, fs.list directory = .ok names := by
  cases met with
  | here stands | inside stands =>
    obtain ⟨names, _, listed, -⟩ := stands
    exact ⟨names, listed⟩

/-- What a name gives is known unless its path is too long or the search below it fails. -/
theorem exists_discoverAt_eq_ok_iff {name : String} :
    (∃ found, discoverAt fs directory name = .ok found) ↔
      (isPassedOver name = false → ¬ fs.IsTooLong (directory.child name) ∧
        (fs.isDirectory (directory.child name) = .ok true →
          ∃ found, discoverBelow fs (directory.child name) = .ok found)) := by
  unfold discoverAt
  cases isPassedOver name with
  | true => simp
  | false =>
    have answered : (∃ answer, fs.isDirectory (directory.child name) = .ok answer) ↔ _ :=
      FileSystem.exists_ask_eq_ok_iff
    rw [← answered]
    cases fs.isDirectory (directory.child name) with
    | error failure => simp
    | ok answer => cases answer <;> simp

/-- **The search answers** exactly when the path of its directory is free of NUL characters and no
path that it meets is too long. -/
theorem exists_discoverBelow_eq_ok_iff (directory : Path) :
    (∃ found, discoverBelow fs directory = .ok found) ↔
      '\x00' ∉ directory.text.toList ∧ MeetsOnlyShort fs directory := by
  unfold MeetsOnlyShort
  induction directory using discover_induction fs with
  | step directory ih =>
    have asked : (∃ found, discoverBelow fs directory = .ok found) ↔
        ∃ names, listedNames fs directory = .ok names ∧
          ∀ name ∈ names, ∃ found, discoverAt fs directory name = .ok found := by
      rw [discoverBelow_eq, exists_bind_eq_ok_iff]
      refine exists_congr fun names => and_congr_right fun _ => ?_
      rw [exists_bind_eq_ok_iff, ← exists_mapM_eq_ok_iff]
      exact exists_congr fun found => and_iff_left ⟨_, rfl⟩
    rw [asked]
    rcases listedNames_cases fs directory with ⟨clean, names, listed, given⟩ |
      ⟨clean, unlisted, given⟩ | ⟨null, given⟩
    · -- Each name is asked for itself, and below it when it is a directory.
      simp only [given, Except.ok.injEq, exists_eq_left', clean, not_false_eq_true, true_and,
        exists_discoverAt_eq_ok_iff]
      constructor
      · intro each path met
        cases met with
        | here stands =>
          obtain ⟨names', name, listed', member, kept, rfl⟩ := stands
          obtain rfl : names = names' := Except.ok.inj (listed.symm.trans listed')
          exact (each name member kept).1
        | inside stands isDirectory met =>
          obtain ⟨names', name, listed', member, kept, rfl⟩ := stands
          obtain rfl : names = names' := Except.ok.inj (listed.symm.trans listed')
          have searched := (each name member kept).2 isDirectory
          exact ((ih name isDirectory).1 searched).2 path met
      · intro short name member kept
        have stands : StandsIn fs directory (directory.child name) :=
          ⟨names, name, listed, member, kept, rfl⟩
        refine ⟨short _ (.here stands), fun isDirectory => (ih name isDirectory).2 ⟨?_, ?_⟩⟩
        · obtain ⟨location, reached⟩ := FileSystem.isDirectory_eq_true_iff.1 isDirectory
          exact (FileSystem.status_eq_ok_iff.1 reached).1
        · exact fun path met => short path (.inside stands isDirectory met)
    · -- Nothing is met in what cannot be listed.
      have nothing : ∀ path, ¬ Meets fs directory path := by
        intro path met
        obtain ⟨names, listed⟩ := exists_list_of_meets met
        exact unlisted names listed
      simp [given, clean, nothing]
    · simp [given, null]

/-- The search below a routes root answers exactly when that of its path does. -/
theorem exists_discover_eq_ok_iff {root : String} :
    (∃ files, discover fs root = .ok files) ↔
      '\x00' ∉ (Path.ofString root).text.toList ∧ MeetsOnlyShort fs (.ofString root) := by
  rw [← exists_discoverBelow_eq_ok_iff, discover, exists_bind_eq_ok_iff]
  exact exists_congr fun paths => and_iff_left ⟨_, rfl⟩

end Failure

end FileRoutes
