import FileRoutes.FileSystem.Write
import FileRoutes.Proofs.FileSystem.Outline

/-! # What the contents of files decide

File systems that **differ only in** the files at some locations (`DifferOnlyIn`) have the same
outline, and a path has the same bytes in both unless it leads to one of these locations
(`SameOutline.bytes`). Storing other bytes in a file that is there gives such a file system
(`differOnlyIn_store`). -/

namespace FileRoutes

/-- Two file systems **differ only in** the bytes of files at locations of some kind. -/
structure DifferOnlyIn (differing : Location → Prop) (fs other : FileSystem) : Prop
    extends SameOutline fs other where
  /-- Elsewhere the same entries are stored. -/
  elsewhere : ∀ location, ¬ differing location → fs.entry? location = other.entry? location

/-- **A path has the same bytes** in file systems with the same outline when the file it leads to is
stored in both. -/
theorem SameOutline.bytes {fs other : FileSystem} (same : SameOutline fs other) {path : Path}
    (stored : ∀ location bytes, fs.status path = .ok (location, .file bytes) →
      fs.entry? location = other.entry? location) : fs.bytes path = other.bytes path := by
  unfold FileSystem.bytes
  rcases same.status_cases path with ⟨failure, found, found'⟩ |
    ⟨location, entry, entry', found, found', equal⟩
  · rw [found, found']
  · have here := FileSystem.entry?_of_status found
    have here' := FileSystem.entry?_of_status found'
    rw [found, found']
    cases entry with
    | file bytes =>
      have equal := stored location bytes found
      rw [here, here', Option.some.injEq] at equal
      rw [equal]
    | directory => cases entry' <;> simp_all [Entry.outline]
    | link target => cases entry' <;> simp_all [Entry.outline]

namespace FileSystem

variable {fs : FileSystem} {location : Location} {bytes : List UInt8}

/-- Something else than the root is stored where a file is. -/
theorem ne_nil_of_file (stored : fs.entry? location = some (.file bytes)) : location ≠ [] := by
  rintro rfl
  rw [entry?_root] at stored
  cases stored

/-- **Other bytes in a file** make a file system that differs only there. -/
theorem differOnlyIn_store (differing : Location → Prop)
    (stored : fs.entry? location = some (.file bytes)) (differs : differing location)
    (bytes' : List UInt8) : DifferOnlyIn differing fs (fs.store location (.file bytes')) where
  workingDirectory := rfl
  entries := by
    intro other
    rw [entry?_store fs (ne_nil_of_file stored)]
    split
    next here =>
      rw [here, stored]
      rfl
    next => rfl
  elsewhere := by
    intro other same
    have away : other ≠ location := by
      rintro rfl
      exact same differs
    rw [entry?_store fs (ne_nil_of_file stored), if_neg away]

/-- A path that leads to the file has its new bytes. -/
theorem bytes_store {path : Path} (reached : fs.status path = .ok (location, .file bytes))
    (bytes' : List UInt8) : (fs.store location (.file bytes')).bytes path = .ok bytes' := by
  have stored := entry?_of_status reached
  -- The outline is the same, so that the path leads to the same location as before.
  have differ := differOnlyIn_store (· = location) stored rfl bytes'
  rcases differ.toSameOutline.status_cases path with ⟨failure, found, -⟩ | ⟨other, entry, entry', found, found', -⟩
  · rw [reached] at found
    cases found
  · rw [reached] at found
    obtain ⟨rfl, -⟩ := Prod.mk.inj (Except.ok.inj found)
    have here := entry?_of_status found'
    rw [entry?_store fs (ne_nil_of_file stored), if_pos rfl] at here
    obtain rfl := Option.some.inj here
    rw [FileSystem.bytes, found']
    rfl

/-- A path that does not lead to the file has the same bytes as before. -/
theorem bytes_store_of_ne {path : Path} (stored : fs.entry? location = some (.file bytes))
    (elsewhere : ∀ bytes, fs.status path ≠ .ok (location, .file bytes)) (bytes' : List UInt8) :
    (fs.store location (.file bytes')).bytes path = fs.bytes path := by
  have differ := differOnlyIn_store (· = location) stored rfl bytes'
  refine (differ.toSameOutline.bytes fun other bytes reached => differ.elsewhere other ?_).symm
  rintro rfl
  exact elsewhere bytes reached

end FileSystem

end FileRoutes
