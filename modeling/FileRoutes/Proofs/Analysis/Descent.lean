import FileRoutes.Proofs.Analysis.Discovery
import FileRoutes.Proofs.FileSystem.Leading
import FileRoutes.Proofs.FileSystem.Tree
import Mathlib.Data.List.MinMax

/-! # How deep the search goes

The search for route files keeps no record of where it has been, and a directory may hold links that
lead back to it. It ends all the same, as the links along one path are counted: between two of them
there are no more names than locations have (`FileSystem.Leads.length_le`), so that no directory is
met under a path with many more (`MeetsDirectory.length_le`).

To see it end, the search is cut off after so many levels, and the directories that it goes into are
written down (`discoverWithin`). Enough levels are never used up (`IsEnough.settles`): the same
route files are found, and what is written down are the directories that are met, each over no more
links than the system follows (`discoverWithin_eq_discover`). -/

namespace FileRoutes

/-! ## Depth -/

namespace FileSystem

variable {fs : FileSystem}

/-- The **depth** of a file system: the most names of a location at which something is stored. -/
def depth (fs : FileSystem) : Nat := (fs.entries.map (·.1.length)).foldr max 0

/-- Nothing is stored deeper. -/
theorem length_le_depth {location : Location} (stored : fs.entry? location ≠ none) :
    location.length ≤ fs.depth := by
  by_cases root : location = []
  · exact root ▸ Nat.zero_le _
  · obtain ⟨entry, found⟩ := Option.ne_none_iff_exists'.1 stored
    rw [entry?_of_ne_nil fs root] at found
    exact List.le_max_of_le (List.mem_map.2 ⟨_, mem_of_lookup found, rfl⟩) (Nat.le_refl _)

/-- **Names of files lead deeper with each name** unless links are met, and a link leads up by no
more than the depth. -/
theorem Leads.length_le {here location : Location} {names : List String} {count : Nat}
    (leads : Leads fs here names location count) (each : ∀ name ∈ names, IsFileName name) :
    names.length + here.length ≤ location.length + count * fs.depth := by
  induction leads with
  | done here => simp
  | stay stays _ _ =>
    obtain ⟨⟨nonempty, moves, -⟩, -⟩ := each _ List.mem_cons_self
    exact absurd stays (not_or.2 ⟨nonempty, moves⟩)
  | up _ _ => exact absurd rfl (each _ List.mem_cons_self).deeper
  | down _ _ _ _ ih =>
    have further := ih fun name member => each name (List.mem_cons_of_mem _ member)
    simp only [List.length_append, List.length_cons, List.length_nil] at further ⊢
    omega
  | @through here middle location name _ rest inner count _ _ stored _ _ _ ih =>
    have further := ih fun name member => each name (List.mem_cons_of_mem _ member)
    have link : (here ++ [name]).length ≤ fs.depth := length_le_depth fun free => by
      rw [linkTarget?, free] at stored
      cases stored
    have more : (count + 1) * fs.depth ≤ (inner + count + 1) * fs.depth :=
      Nat.mul_le_mul_right _ (by omega)
    rw [Nat.succ_mul] at more
    simp only [List.length_append, List.length_cons, List.length_nil] at link ⊢
    omega

/-- A path that leads to a directory does so **with no more links than the system follows.** -/
theorem exists_leads_of_isDirectory {path : Path} (found : fs.isDirectory path = .ok true) :
    ∃ location count, Leads fs (fs.origin path) path.names location count ∧ count ≤ linkLimit ∧
      fs.entry? location = some .directory := by
  obtain ⟨location, reached⟩ := isDirectory_eq_true_iff.1 found
  obtain ⟨middle, count, count', few, leads, onward⟩ :=
    exists_leads_of_status reached (List.append_nil path.names).symm
  cases onward
  exact ⟨_, count, leads, few, entry?_of_status reached⟩

end FileSystem

/-- A path is a **directory met** below another. -/
structure MeetsDirectory (fs : FileSystem) (directory path : Path) : Prop where
  /-- It is met. -/
  met : Meets fs directory path
  /-- It leads to a directory. -/
  found : fs.isDirectory path = .ok true

/-- Directories are met under paths with **no more names than links allow.** -/
theorem MeetsDirectory.length_le {fs : FileSystem} (well : fs.IsWellNamed) {directory path : Path}
    (below : MeetsDirectory fs directory path) :
    path.names.length ≤ directory.names.length + (linkLimit + 1) * fs.depth := by
  obtain ⟨names, each, rfl⟩ := below.met.exists_names well
  obtain ⟨location, reached⟩ := FileSystem.isDirectory_eq_true_iff.1 below.found
  obtain ⟨middle, count, count', few, -, leads⟩ := FileSystem.exists_leads_of_status reached rfl
  have deep : location.length ≤ fs.depth := FileSystem.length_le_depth (by
    rw [FileSystem.entry?_of_status reached]
    exact Option.some_ne_none _)
  have further := leads.length_le each
  have most : (count' + 1) * fs.depth ≤ (linkLimit + 1) * fs.depth :=
    Nat.mul_le_mul_right _ (by omega)
  rw [Nat.succ_mul] at most
  simp only [List.length_append]
  omega

/-! ## The search, observed -/

/-- A search that is **observed**: it may be cut off before it answers, and keeps a record of the
directories that it goes into. -/
abbrev Search := ExceptT Failure (StateT (List Path) Option)

namespace Search

variable {α β : Type}

/-- The search is cut off. -/
def cutOff : Search α := ExceptT.mk fun _ => none

/-- An answer that is at hand. -/
def answer (given : Except Failure α) : Search α := ExceptT.mk (pure given)

/-- Writes a directory down. -/
def goInto (directory : Path) : Search Unit := modify (· ++ [directory])

/-- A search **settles** for an answer when it is not cut off, gives the answer, and writes down
what is to be written: nothing else, and all of it unless the answer is a failure. -/
def Settles (written : Path → Prop) (search : Search α) (given : Except Failure α) : Prop :=
  ∀ before, ∃ entered, search.run.run before = some (given, before ++ entered) ∧
    (∀ path ∈ entered, written path) ∧ ∀ a, given = .ok a → ∀ path, written path → path ∈ entered

variable {written written' : Path → Prop}

/-- What is to be written may be said in other words. -/
theorem Settles.congr {search : Search α} {given : Except Failure α}
    (settles : Settles written search given) (same : ∀ path, written path ↔ written' path) :
    Settles written' search given := by
  obtain rfl : written = written' := funext fun path => propext (same path)
  exact settles

/-- An answer at hand settles for itself when nothing is to be written. -/
theorem settles_answer (given : Except Failure α) (nothing : ∀ path, ¬ written path) :
    Settles written (answer given) given :=
  fun before => ⟨[], by rw [List.append_nil]; rfl, nofun,
    fun _ _ path is => absurd is (nothing path)⟩

/-- Going into a directory settles, and it is written. -/
theorem settles_goInto (directory : Path) : Settles (· = directory) (goInto directory) (.ok ()) :=
  fun before => ⟨[directory], rfl, by simp, by simp⟩

/-- **Two searches settle** one after the other. -/
theorem Settles.bind {search : Search α} {next : α → Search β} {given : Except Failure α}
    {further : α → Except Failure β} (settles : Settles written search given)
    (onward : ∀ a, given = .ok a → Settles written' (next a) (further a)) :
    Settles (fun path => written path ∨ written' path) (search >>= next) (given >>= further) := by
  intro before
  obtain ⟨entered, ran, only, all⟩ := settles before
  cases given with
  | error failure =>
    refine ⟨entered, ?_, fun path member => .inl (only path member), nofun⟩
    rw [ExceptT.run_bind, StateT.run_bind, ran]
    rfl
  | ok a =>
    obtain ⟨entered', ran', only', all'⟩ := onward a rfl (before ++ entered)
    refine ⟨entered ++ entered', ?_, ?_, fun b answered path => ?_⟩
    · rw [ExceptT.run_bind, StateT.run_bind, ran, ← List.append_assoc]
      exact ran'
    · exact List.forall_mem_append.2 ⟨fun path member => .inl (only path member),
        fun path member => .inr (only' path member)⟩
    · rw [List.mem_append]
      exact Or.imp (all a rfl path) (all' b answered path)

/-- A search settles when something is made of its answer. -/
theorem Settles.map {search : Search α} {given : Except Failure α}
    (settles : Settles written search given) (make : α → β) :
    Settles written (search >>= fun a => answer (.ok (make a)))
      (given >>= fun a => .ok (make a)) := by
  have last : ∀ a, Settles (fun _ => False) (answer (.ok (make a))) (.ok (make a)) :=
    fun a => settles_answer _ fun _ => id
  exact (settles.bind fun a _ => last a).congr fun _ => or_iff_left id

/-- **Searches settle** for each of a list when every one does. -/
theorem settles_mapM {search : α → Search β} {given : α → Except Failure β}
    {each : α → Path → Prop} {l : List α}
    (settles : ∀ a ∈ l, Settles (each a) (search a) (given a)) :
    Settles (fun path => ∃ a ∈ l, each a path) (l.mapM search) (l.mapM given) := by
  induction l with
  | nil => exact settles_answer (.ok []) (by simp)
  | cons a l ih =>
    obtain ⟨first, rest⟩ := List.forall_mem_cons.1 settles
    rw [List.mapM_cons, List.mapM_cons]
    have both := first.bind fun b _ => (ih rest).map (b :: ·)
    exact both.congr (by simp)

end Search

open Search (cutOff answer goInto Settles)

/-- What a name in a directory gives, as `discoverAt`, when directories are searched in a given
way. -/
def searchAt (fs : FileSystem) (below : Path → Search (List Path)) (directory : Path)
    (name : String) : Search (List Path) :=
  if isPassedOver name then answer (.ok [])
  else
    match fs.isDirectory (directory.child name) with
    | .error failure => answer (.error failure)
    | .ok true => do
      goInto (directory.child name)
      below (directory.child name)
    | .ok false => answer (.ok (if isRouteFileName name then [directory.child name] else []))

/-- The search below a directory, **cut off** after so many levels. -/
def searchWithin (fs : FileSystem) : Nat → Path → Search (List Path)
  | 0, _ => cutOff
  | levels + 1, directory => do
    let names ← answer (listedNames fs directory)
    let found ← names.mapM (searchAt fs (searchWithin fs levels) directory)
    answer (.ok found.flatten)

/-- The search for route files below a routes root, cut off after so many levels. -/
def discoverWithin (fs : FileSystem) (levels : Nat) (root : String) : Search (List String) := do
  let paths ← searchWithin fs levels (.ofString root)
  answer (.ok (paths.map Path.text))

/-! ## Enough levels -/

section Levels

variable {fs : FileSystem} {levels : Nat} {directory : Path}

/-- So many levels are **enough** for a directory when those below it are met within them. -/
structure IsEnough (fs : FileSystem) (levels : Nat) (directory : Path) : Prop where
  /-- There is one for the directory itself. -/
  pos : 0 < levels
  /-- There is one for each directory that is met. -/
  within : ∀ path, MeetsDirectory fs directory path →
    path.names.length < directory.names.length + levels

/-- More levels than a path may have bytes are enough for every directory. -/
theorem isEnough_of_pathLimit_lt (many : pathLimit < levels) : IsEnough fs levels directory where
  pos := Nat.zero_lt_of_lt many
  within path below := by
    have short := FileSystem.names_length_le_of_isDirectory below.found
    omega

/-- More levels than links allow are enough for every directory. -/
theorem isEnough_of_isWellNamed (well : fs.IsWellNamed)
    (many : (linkLimit + 1) * fs.depth < levels) : IsEnough fs levels directory where
  pos := Nat.zero_lt_of_lt many
  within path below := by
    have few := below.length_le well
    omega

/-- For a directory right below, one level less is enough. -/
theorem IsEnough.child {name : String} (enough : IsEnough fs (levels + 1) directory)
    (stands : StandsIn fs directory (directory.child name))
    (isDirectory : fs.isDirectory (directory.child name) = .ok true) :
    IsEnough fs levels (directory.child name) := by
  have length : (directory.child name).names.length = directory.names.length + 1 := by
    simp [Path.child]
  constructor
  · have := enough.within _ ⟨.here stands, isDirectory⟩
    omega
  · intro path below
    have := enough.within path ⟨.inside stands isDirectory below.met, below.found⟩
    omega

/-- A name that the search comes to and does not pass over stands in the directory. -/
theorem standsIn_of_mem_listedNames {names : List String} {name : String}
    (listed : listedNames fs directory = .ok names) (member : name ∈ names)
    (kept : ¬ isPassedOver name = true) : StandsIn fs directory (directory.child name) := by
  rcases listedNames_cases fs directory with ⟨-, names', found, given⟩ | ⟨-, -, given⟩ | ⟨-, given⟩
  · obtain rfl := Except.ok.inj (listed.symm.trans given)
    exact ⟨names, name, found, member, by simpa using kept, rfl⟩
  · obtain rfl := Except.ok.inj (listed.symm.trans given)
    cases member
  · rw [given] at listed
    cases listed

/-- What is gone into for a **name** in a directory: the directory of that name and those that are
met below it. -/
structure Enters (fs : FileSystem) (directory : Path) (name : String) (path : Path) : Prop where
  /-- The name is not passed over. -/
  kept : isPassedOver name = false
  /-- It is that of a directory. -/
  isDirectory : fs.isDirectory (directory.child name) = .ok true
  /-- The path is that directory or is met below it. -/
  inside : path = directory.child name ∨ MeetsDirectory fs (directory.child name) path

/-- **The directories that are met** are those gone into for the names. -/
theorem meetsDirectory_iff {names : List String} (listed : listedNames fs directory = .ok names)
    {path : Path} :
    MeetsDirectory fs directory path ↔ ∃ name ∈ names, Enters fs directory name path := by
  constructor
  · rintro ⟨met, found⟩
    have names_of_list : ∀ {names'}, fs.list directory = .ok names' → names' = names := by
      intro names' given
      rw [listedNames, given] at listed
      exact Except.ok.inj listed
    cases met with
    | here stands =>
      obtain ⟨names', name, given, member, kept, rfl⟩ := stands
      exact ⟨name, names_of_list given ▸ member, kept, found, .inl rfl⟩
    | inside stands isDirectory met =>
      obtain ⟨names', name, given, member, kept, rfl⟩ := stands
      exact ⟨name, names_of_list given ▸ member, kept, isDirectory, .inr ⟨met, found⟩⟩
  · rintro ⟨name, member, kept, isDirectory, rfl | ⟨met, found⟩⟩
    all_goals have stands := standsIn_of_mem_listedNames listed member (by simp [kept])
    · exact ⟨.here stands, isDirectory⟩
    · exact ⟨.inside stands isDirectory met, found⟩

/-- A name settles when the directory of that name does. -/
theorem settles_searchAt {below : Path → Search (List Path)} {name : String}
    (settles : isPassedOver name = false → fs.isDirectory (directory.child name) = .ok true →
      Settles (MeetsDirectory fs (directory.child name)) (below (directory.child name))
        (discoverBelow fs (directory.child name))) :
    Settles (Enters fs directory name) (searchAt fs below directory name)
      (discoverAt fs directory name) := by
  unfold searchAt discoverAt
  split
  next passed => exact Search.settles_answer _ fun path enters => by simp [enters.kept] at passed
  next kept =>
    rcases answered : fs.isDirectory (directory.child name) with failure | _ | _
    · exact Search.settles_answer _ fun path enters => by simp [enters.isDirectory] at answered
    · exact Search.settles_answer _ fun path enters => by simp [enters.isDirectory] at answered
    · have kept : isPassedOver name = false := by simpa using kept
      have both := (Search.settles_goInto (directory.child name)).bind
        fun _ _ => settles kept answered
      exact both.congr fun path =>
        ⟨fun inside => ⟨kept, answered, inside⟩, fun enters => enters.inside⟩

/-- **Enough levels are never used up**: the same paths are found, and the directories that are met
are gone into. -/
theorem IsEnough.settles (enough : IsEnough fs levels directory) :
    Settles (MeetsDirectory fs directory) (searchWithin fs levels directory)
      (discoverBelow fs directory) := by
  induction levels generalizing directory with
  | zero => exact absurd enough.pos (Nat.lt_irrefl 0)
  | succ levels ih =>
    rw [searchWithin, discoverBelow_eq]
    have listing : Settles (fun _ => False) (answer (listedNames fs directory))
        (listedNames fs directory) := Search.settles_answer _ fun _ => id
    refine (listing.bind fun names listed => ?_).congr fun path => or_iff_right id
    have each : ∀ name ∈ names, Settles (Enters fs directory name)
        (searchAt fs (searchWithin fs levels) directory name) (discoverAt fs directory name) :=
      fun name member => settles_searchAt fun kept isDirectory =>
        ih (enough.child (standsIn_of_mem_listedNames listed member (by simp [kept])) isDirectory)
    exact ((Search.settles_mapM each).map List.flatten).congr
      fun path => (meetsDirectory_iff listed).symm

end Levels

/-- **The search for route files ends**, whatever links there are: when it is cut off after more
levels than a path may have bytes, or than links allow, it gives what it gives without. It goes into
the directories that it meets, and into no path that takes more links than the system follows. -/
theorem discoverWithin_eq_discover (fs : FileSystem) (root : String) (levels : Nat)
    (many : pathLimit < levels ∨ fs.IsWellNamed ∧ (linkLimit + 1) * fs.depth < levels) :
    ∃ entered, (discoverWithin fs levels root).run.run [] = some (discover fs root, entered) ∧
      (∀ path ∈ entered, ∃ location count,
        fs.Leads (fs.origin path) path.names location count ∧ count ≤ linkLimit ∧
          fs.entry? location = some .directory) ∧
      (∀ path location count, fs.Leads (fs.origin path) path.names location count →
        linkLimit < count → path ∉ entered) ∧
      ∀ files, discover fs root = .ok files →
        ∀ path, path ∈ entered ↔ MeetsDirectory fs (.ofString root) path := by
  have enough : IsEnough fs levels (.ofString root) := by
    rcases many with many | ⟨well, many⟩
    · exact isEnough_of_pathLimit_lt many
    · exact isEnough_of_isWellNamed well many
  obtain ⟨entered, ran, only, all⟩ := enough.settles.map (List.map Path.text) []
  have reached := fun path member =>
    FileSystem.exists_leads_of_isDirectory (only path member).found
  refine ⟨entered, ran, reached, fun path location count leads many member => ?_,
    fun files found path => ⟨only path, all files found path⟩⟩
  obtain ⟨location', count', leads', few, -⟩ := reached path member
  obtain ⟨-, rfl⟩ := leads.unique leads'
  exact absurd few (Nat.not_le.2 many)

/-- A directory in which a link leads back to it. -/
def loopingFiles : FileSystem :=
  ⟨[(["r"], .directory), (["r", "a.ts"], .file []), (["r", "loop"], .link ".")], []⟩

/-- Going along the link again and again leads nowhere else. -/
theorem leads_loop (count : Nat) :
    loopingFiles.Leads ["r"] (List.replicate count "loop") ["r"] count := by
  have target : namesAlong "." = ["."] ∧ FileSystem.startOf ["r"] "." = ["r"] := by decide
  induction count with
  | zero => exact .done ["r"]
  | succ count ih =>
    have resolved : loopingFiles.Leads (FileSystem.startOf ["r"] ".") (namesAlong ".") ["r"] 0 := by
      rw [target.1, target.2]
      exact .stay (.inr rfl) (.done ["r"])
    have further : loopingFiles.Leads ["r"] ("loop" :: List.replicate count "loop") ["r"]
        (0 + count + 1) := .through (by decide) (by decide) rfl resolved ih
    rwa [Nat.zero_add] at further

/-- The search there ends within 83 levels, and does not go along the link once too often. -/
theorem discoverWithin_eq_discover_looping :
    loopingFiles.IsWellNamed ∧ (linkLimit + 1) * loopingFiles.depth < 83 ∧
      loopingFiles.Leads [] ("r" :: List.replicate 41 "loop") ["r"] 41 ∧
      ∃ entered,
        (discoverWithin loopingFiles 83 "r").run.run [] =
          some (discover loopingFiles "r", entered) ∧
        ⟨.relative, "r" :: List.replicate 41 "loop"⟩ ∉ entered := by
  have well : loopingFiles.IsWellNamed := FileSystem.forall_of_forall_mem (by decide)
  have leads : loopingFiles.Leads [] ("r" :: List.replicate 41 "loop") ["r"] 41 :=
    .down (by decide) (by decide) rfl (leads_loop 41)
  obtain ⟨entered, ran, -, few, -⟩ :=
    discoverWithin_eq_discover loopingFiles "r" 83 (.inr ⟨well, by decide⟩)
  exact ⟨well, by decide, leads, entered, ran, few _ ["r"] 41 leads (by decide)⟩

end FileRoutes
