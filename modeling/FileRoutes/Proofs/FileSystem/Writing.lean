import FileRoutes.FileSystem.Write
import FileRoutes.Proofs.FileSystem.Walk

/-! # What is written is read back

A file that was written has the bytes that were written (`bytes_writeFile`). The walk along its path
goes through directories and links, and ends at a free place or at something that is no directory.
Storing a file there changes none of what the walk goes through, so that it takes the same way
afterwards and ends at the file (`ComesTo.store`). -/

namespace FileRoutes

namespace Change

/-- A change of one step is completed when the step is done. -/
theorem exists_of_ofStep {fs : FileSystem} {step : Except Failure FileSystem}
    (completed : (ofStep fs step).failure = none) :
    ∃ changed, step = .ok changed ∧ ofStep fs step = ⟨changed, none⟩ := by
  cases step with
  | ok changed => exact ⟨changed, rfl, rfl⟩
  | error failure => cases completed

/-- **Two changes are completed** when the first is and then the second: what they leave behind is
what the second one leaves. -/
theorem andThen_eq {change : Change} {next : FileSystem → Change}
    (completed : (change.andThen next).failure = none) :
    change.andThen next = next change.fileSystem := by
  unfold andThen at completed ⊢
  cases failed : change.failure with
  | none => rfl
  | some failure => simp [failed] at completed

end Change

namespace FileSystem

variable {fs : FileSystem} {links : Nat} {here : Location} {names : List String} {landing : Landing}

/-! ## Storing a file -/

section Storing

variable {location : Location} (noDirectory : fs.entry? location ≠ some .directory)
  (bytes : List UInt8)

include noDirectory

/-- A location that holds no directory is not the root. -/
theorem ne_nil_of_noDirectory : location ≠ [] := by
  rintro rfl
  exact noDirectory (entry?_root fs)

/-- Where a file is stored, it is found. -/
theorem entry?_store_self :
    FileSystem.entry? (fs.store location (.file bytes)) location = some (.file bytes) :=
  (entry?_store fs (ne_nil_of_noDirectory noDirectory) _ _).trans (if_pos rfl)

/-- Elsewhere all stays as it was. -/
theorem entry?_store_of_ne {other : Location} (away : other ≠ location) :
    FileSystem.entry? (fs.store location (.file bytes)) other = fs.entry? other :=
  (entry?_store fs (ne_nil_of_noDirectory noDirectory) _ _).trans (if_neg away)

/-- The directories stay where they are. -/
theorem isDirectoryAt_store {other : Location} (inside : fs.isDirectoryAt other = true) :
    (fs.store location (.file bytes)).isDirectoryAt other = true := by
  have directory : fs.entry? other = some .directory := by simpa [isDirectoryAt] using inside
  have away : other ≠ location := by
    rintro rfl
    exact noDirectory directory
  rw [isDirectoryAt, entry?_store_of_ne noDirectory bytes away, directory]
  rfl

/-- What was passed is passed, the place of the file included. -/
theorem Passes.store {next : Location} {name : String} (passes : fs.Passes here name next) :
    (fs.store location (.file bytes)).Passes here name next := by
  cases passes with
  | stay inside stays => exact .stay (isDirectoryAt_store noDirectory bytes inside) stays
  | up inside => exact .up (isDirectoryAt_store noDirectory bytes inside)
  | down inside moves deeper short stored noLink =>
    have inside := isDirectoryAt_store noDirectory bytes inside
    by_cases there : here ++ [name] = location
    · subst there
      exact .down inside moves deeper short (entry?_store_self noDirectory bytes) nofun
    · rw [← entry?_store_of_ne noDirectory bytes there] at stored
      exact .down inside moves deeper short stored noLink

/-- A link is met where no file is stored. -/
theorem MeetsLink.store {name target : String} (link : fs.MeetsLink here name target)
    (away : here ++ [name] ≠ location) :
    (fs.store location (.file bytes)).MeetsLink here name target where
  inside := isDirectoryAt_store noDirectory bytes link.inside
  moves := link.moves
  deeper := link.deeper
  short := link.short
  stored := (entry?_store_of_ne noDirectory bytes away).trans link.stored

end Storing

/-! ## Walking to the file -/

/-- A path text begins above the directory where it is met, or there. -/
theorem startOf_isPrefix (directory : Location) (text : String) :
    startOf directory text <+: directory := by
  unfold startOf
  split
  · exact List.nil_prefix
  · exact List.prefix_rfl

namespace ComesTo

/-- **A walk that follows links ends at a link** only above the place where it begins: it does not
stop at links that it meets. -/
theorem prefix_of_link {target : String} (comes : fs.ComesTo true links here names landing)
    (ends : landing.stored? = some (.link target)) : landing.location <+: here := by
  -- Along the walk: behind a link that is followed it begins above `here` again, or there.
  induction comes with
  | done => exact List.prefix_rfl
  | free => cases ends
  | stop _ stops => cases stops
  | pass passes onward ih =>
    cases passes with
    | stay => exact ih ends
    | up => exact (ih ends).trans (List.dropLast_prefix _)
    | down _ _ _ _ stored noLink =>
      rcases List.prefix_concat_iff.1 (ih ends) with same | above
      · -- What is stored at the next name is no link.
        rw [← same, onward.entry?_location, ends] at stored
        exact absurd (Option.some.inj stored).symm (noLink target)
      · exact above
  | through _ _ _ ih => exact (ih ends).trans (startOf_isPrefix _ _)

/-- A walk that goes on behind a link that it follows **does not end at that link**. -/
theorem location_ne_of_link {name target : String}
    (comes : fs.ComesTo true links (startOf here target) names landing)
    (stored : fs.entry? (here ++ [name]) = some (.link target)) :
    here ++ [name] ≠ landing.location := by
  intro same
  have ended := comes.entry?_location
  rw [← same, stored] at ended
  have above := (comes.prefix_of_link ended.symm).trans (startOf_isPrefix here target)
  have length := above.length_le
  simp [← same] at length

/-- **The way to a file that is stored** at the end of a walk is that of the walk, unless the walk
ends at a directory. -/
theorem store (comes : fs.ComesTo true links here names landing) (bytes : List UInt8)
    (noDirectory : fs.entry? landing.location ≠ some .directory) :
    (fs.store landing.location (.file bytes)).ComesTo true links here names
      (.taken landing.location (.file bytes)) := by
  -- Both walks take the same steps: what was stored is read by the last one alone.
  have there := entry?_store_self noDirectory bytes
  induction comes with
  | done => exact .done there
  | free inside moves deeper short =>
    have inside := isDirectoryAt_store noDirectory bytes inside
    exact .pass (.down inside moves deeper short there nofun) (.done there)
  | stop _ stops => cases stops
  | pass passes _ ih => exact .pass (passes.store noDirectory bytes) (ih noDirectory there)
  | through link follows onward ih =>
    have away := onward.location_ne_of_link link.stored
    exact .through (link.store noDirectory bytes away) follows (ih noDirectory there)

end ComesTo

/-- **A file that is written** is stored where its path leads, unless that is a directory. -/
theorem writeFile_eq_ok_iff {path : Path} {bytes : List UInt8} {written : FileSystem} :
    fs.writeFile path bytes = .ok written ↔
      ∃ landing, fs.find true path = .ok landing ∧ landing.stored? ≠ some .directory ∧
        written = fs.store landing.location (.file bytes) := by
  unfold writeFile
  cases found : fs.find true path with
  | error failure => simp [bind, Except.bind]
  | ok landing =>
    cases landing with
    | free location =>
      simp [bind, Except.bind, pure, Except.pure, Landing.stored?, Landing.location, eq_comm]
    | taken location entry =>
      cases entry <;>
        simp [bind, Except.bind, pure, Except.pure, throw, throwThe, MonadExceptOf.throw,
          Landing.stored?, Landing.location, eq_comm]

/-- **What is written is read back**: a file that was written has the bytes that were written. -/
theorem bytes_writeFile {path : Path} {bytes : List UInt8} {written : FileSystem}
    (writes : fs.writeFile path bytes = .ok written) : written.bytes path = .ok bytes := by
  obtain ⟨landing, found, noDirectory, rfl⟩ := writeFile_eq_ok_iff.1 writes
  obtain ⟨clean, short, reached⟩ := find_eq_ok_iff.1 found
  have comes := walk_eq_ok_iff.1 reached
  rw [← comes.entry?_location] at noDirectory
  have again : (fs.store landing.location (.file bytes)).status path =
      .ok (landing.location, .file bytes) :=
    status_eq_ok_iff.2 ⟨clean, short, walk_eq_ok_iff.2 (comes.store bytes noDirectory)⟩
  rw [FileSystem.bytes, again]
  rfl

/-! ## Directories that are there -/

/-- Where a walk that follows links ends at an entry, so does one that does not follow the last. -/
theorem ComesTo.exists_unfollowed (comes : fs.ComesTo true links here names landing)
    (taken : landing.stored? ≠ none) :
    ∃ location entry, fs.ComesTo false links here names (.taken location entry) := by
  induction comes with
  | done stored => exact ⟨_, _, .done stored⟩
  | free => exact absurd rfl taken
  | stop _ stops => cases stops
  | pass passes _ ih =>
    obtain ⟨location, entry, onward⟩ := ih taken
    exact ⟨location, entry, .pass passes onward⟩
  | @through _ _ _ _ rest _ link _ _ ih =>
    cases rest with
    | nil =>
      -- The last name is that of a link, at which the other walk ends already.
      exact ⟨_, _, .stop link rfl⟩
    | cons next rest =>
      obtain ⟨location, entry, onward⟩ := ih taken
      exact ⟨location, entry, .through link rfl onward⟩

/-- **A directory that is there is not made again**, and neither are its parents. -/
theorem makeDirectories_of_isDirectory {path : Path}
    (isDirectory : fs.isDirectory path = .ok true) :
    fs.makeDirectories path = .unchanged fs := by
  obtain ⟨location, reached⟩ := isDirectory_eq_true_iff.1 isDirectory
  obtain ⟨clean, short, walked⟩ := status_eq_ok_iff.1 reached
  obtain ⟨location', entry, comes⟩ := (walk_eq_ok_iff.1 walked).exists_unfollowed nofun
  have found : fs.find false path = .ok (.taken location' entry) :=
    find_eq_ok_iff.2 ⟨clean, short, walk_eq_ok_iff.2 comes⟩
  have once : fs.makeDirectoryOnce path = .ok fs := by
    have taken : fs.makeDirectory path = .error (.system .alreadyExists path) := by
      rw [makeDirectory, found]
      rfl
    rw [makeDirectoryOnce, taken]
    dsimp only
    rw [unlessDirectory, isDirectory]
    rfl
  rw [makeDirectories, once]
  rfl

end FileSystem

end FileRoutes
