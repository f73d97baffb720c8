import FileRoutes.Proofs.FileSystem.Outline
import FileRoutes.Proofs.FileSystem.RealPath
import FileRoutes.Proofs.Path

/-! # Paths where nothing is a link

The **lexical location** of a path text (`Location.lexical`) is found without looking at anything
that is stored: empty names and single dots are dropped, double dots take the name in front away,
and a relative text begins at the working directory. In a file system without links every path
resolves to its lexical location (`IsLinkFree.resolve`), whether or not anything is stored there, so
that one path lies within another exactly when its lexical location begins with that of the other
(`isWithin_lexical`). -/

namespace FileRoutes

/-! ## Lexical locations -/

/-- The **lexical location** of a path text. -/
def Location.lexical (workingDirectory : Location) (text : String) : Location :=
  (FileSystem.startOf workingDirectory text).extend (namesAlong text)

namespace Location

/-- Without names one stays. -/
@[simp] theorem extend_nil (location : Location) : location.extend [] = location := rfl

/-- An empty name and a single dot are dropped. -/
theorem extend_cons_of_stays {name : String} (stays : name = "" ∨ name = ".") (location : Location)
    (names : List String) : location.extend (name :: names) = location.extend names := by
  rw [extend, List.foldl_cons, if_pos stays]
  rfl

/-- A double dot takes a name away. -/
theorem extend_cons_up (location : Location) (names : List String) :
    location.extend (".." :: names) = Location.extend location.dropLast names := rfl

/-- Any other name is added. -/
theorem extend_cons_of_moves {name : String} (moves : ¬(name = "" ∨ name = "."))
    (deeper : name ≠ "..") (location : Location) (names : List String) :
    location.extend (name :: names) = Location.extend (location ++ [name]) names := by
  rw [extend, List.foldl_cons, if_neg moves, if_neg deeper]
  rfl

/-- The names of a lexical location stand where it begins or among those that are added. -/
theorem mem_of_mem_extend {location : Location} {names : List String} {name : String}
    (member : name ∈ location.extend names) : name ∈ location ∨ name ∈ names := by
  induction names generalizing location with
  | nil => exact .inl member
  | cons first names ih =>
    by_cases stays : first = "" ∨ first = "."
    · rw [extend_cons_of_stays stays] at member
      exact (ih member).imp_right (List.mem_cons_of_mem _)
    · by_cases up : first = ".."
      · subst up
        rw [extend_cons_up] at member
        exact (ih member).imp (fun before => (List.dropLast_sublist location).subset before)
          (List.mem_cons_of_mem _)
      · rw [extend_cons_of_moves stays up] at member
        rcases ih member with before | later
        · rcases List.mem_append.1 before with before | here
          · exact .inl before
          · exact .inr (List.mem_singleton.1 here ▸ List.mem_cons_self)
        · exact .inr (List.mem_cons_of_mem _ later)

/-- Names are gone along one part after the other. -/
theorem extend_append (location : Location) (names others : List String) :
    location.extend (names ++ others) = (location.extend names).extend others :=
  List.foldl_append

/-- The fields that a path drops are those that add nothing. -/
theorem extend_filter_isName (location : Location) (fields : List (List Char)) :
    location.extend ((fields.filter Path.isName).map String.ofList) =
      location.extend (fields.map String.ofList) := by
  induction fields generalizing location with
  | nil => rfl
  | cons field fields ih =>
    by_cases isName : Path.isName field = true
    · rw [List.filter_cons_of_pos isName, List.map_cons, List.map_cons, extend, extend,
        List.foldl_cons, List.foldl_cons]
      exact ih _
    · have stays : String.ofList field = "" ∨ String.ofList field = "." := by
        have dropped : field = [] ∨ field = ['.'] := by
          simpa [Path.isName, or_iff_not_imp_left] using isName
        rcases dropped with rfl | rfl
        · exact .inl rfl
        · exact .inr rfl
      rw [List.filter_cons_of_neg isName, List.map_cons, extend_cons_of_stays stays, ih]

end Location

namespace FileSystem

variable {fs : FileSystem}

/-- A path begins where its text does. -/
theorem origin_ofString (fs : FileSystem) (text : String) :
    fs.origin (.ofString text) = startOf fs.workingDirectory text := by
  have anchor : (Path.ofString text).anchor = .relative ↔ isAbsolute text = false := by
    rw [isAbsolute, beq_eq_false_iff_ne]
    exact Anchor.ofChars_eq_relative_iff
  unfold origin startOf
  cases begins : (Path.ofString text).anchor with
  | relative => rw [anchor.1 begins]; rfl
  | root | doubleRoot =>
    have absolute : isAbsolute text = true := by simpa [begins] using anchor
    rw [absolute]
    rfl

/-- **A path goes to its lexical location** when only double dots are given a meaning. -/
theorem extend_names_ofString (fs : FileSystem) (text : String) :
    (fs.origin (.ofString text)).extend (Path.ofString text).names =
      Location.lexical fs.workingDirectory text := by
  rw [origin_ofString, Location.lexical]
  exact Location.extend_filter_isName _ _

/-! ## Steps along paths -/

/-- A path without names is placed where it begins. -/
theorem place_base (fs : FileSystem) (path : Path) : fs.place path.base = fs.origin path := by
  rw [place, origin_base]
  rfl

/-- A name leads one further. -/
theorem place_child (fs : FileSystem) {path : Path} {name : String}
    (moves : ¬(name = "" ∨ name = ".")) (deeper : name ≠ "..") :
    fs.place (path.child name) = fs.place path ++ [name] := by
  have origin : fs.origin (path.child name) = fs.origin path := rfl
  rw [place, origin, Path.child, Location.extend_append, Location.extend_cons_of_moves moves deeper]
  rfl

/-- **One step up leads to the parent.** -/
theorem place_up (fs : FileSystem) {path : Path} (moves : path.OnlyMoves) :
    fs.place path.up = (fs.place path).dropLast := by
  rcases path.up_cases with up | ⟨anchored, nothing, up⟩ | ⟨name, other, back, up⟩
  · have origin : fs.origin (path.child "..") = fs.origin path := rfl
    rw [up, place, origin, Path.child, Location.extend_append]
    rfl
  · rw [up, place, origin_of_anchored anchored, nothing]
    rfl
  · have further := moves name (back ▸ List.mem_append_right _ List.mem_cons_self)
    have down : fs.place (path.parent.child name) = fs.place path.parent ++ [name] :=
      place_child fs further other
    rw [← back] at down
    rw [up, down, List.dropLast_concat]

/-! ## Without links -/

/-- **Nothing is a link.** -/
def IsLinkFree (fs : FileSystem) : Prop :=
  ∀ location target, fs.entry? location ≠ some (.link target)

/-- Nothing is a link when no entry is one. -/
theorem isLinkFree_of_forall_mem
    (noLink : ∀ place ∈ fs.entries, ∀ target, place.2 ≠ .link target) : fs.IsLinkFree := by
  intro location target stored
  by_cases root : location = []
  · subst root
    cases stored
  · rw [entry?_of_ne_nil fs root] at stored
    exact noLink _ (mem_of_lookup stored) target rfl

/-- No link is found. -/
theorem IsLinkFree.linkAt? (free : fs.IsLinkFree) (path : Path) : fs.linkAt? path = none := by
  unfold FileSystem.linkAt?
  split
  next location target given =>
    exact absurd (entry?_of_walk (find_eq_ok_iff.1 given).2.2) (free location target)
  next => rfl

/-- **Names are followed lexically.** -/
theorem IsLinkFree.follow (free : fs.IsLinkFree) {names : List String}
    (clean : ∀ name ∈ names, '\x00' ∉ name.toList) (pending : List Path) {here : Path}
    (moves : here.OnlyMoves) :
    ∃ reached, fs.follow pending here names = .settled reached ∧ reached.anchor = here.anchor ∧
      fs.place reached = (fs.place here).extend names := by
  induction names generalizing here with
  | nil => exact ⟨here, by rw [FileSystem.follow], rfl, rfl⟩
  | cons name names ih =>
    obtain ⟨first, others⟩ := List.forall_mem_cons.1 clean
    by_cases stays : name = "" ∨ name = "."
    · rw [FileSystem.follow.eq_2, if_pos stays, Location.extend_cons_of_stays stays]
      exact ih others moves
    · by_cases up : name = ".."
      · subst up
        rw [FileSystem.follow.eq_2, if_neg stays, if_pos rfl, Location.extend_cons_up,
          ← place_up fs moves, ← here.anchor_up]
        exact ih others moves.up
      · rw [follow_cons_of_noLink stays up first (free.linkAt? _),
          Location.extend_cons_of_moves stays up, ← place_child fs stays up]
        exact ih others (moves.child stays)

/-- **No walk meets too many links.** -/
theorem IsLinkFree.walk_ne (free : fs.IsLinkFree) (follow : Bool) (links : Nat) (here : Location)
    (names : List String) : fs.walk follow links here names ≠ .error .tooManyLinks := by
  fun_induction FileSystem.walk fs follow links here names with
  | case4 _ _ _ _ _ _ ih | case5 _ _ _ _ _ ih => exact ih
  | case12 _ _ _ _ _ _ _ _ _ _ _ ih => exact ih
  | case9 _ _ _ _ _ _ _ _ _ stored | case10 _ _ _ _ _ _ _ _ stored
  | case11 _ _ _ _ _ _ _ _ stored =>
    exact absurd stored (free _ _)
  | case1 | case2 | case3 | case6 | case7 | case8 =>
    intro reached
    cases reached

/-- The system gives up on no path without a NUL character. -/
theorem IsLinkFree.checked (free : fs.IsLinkFree) {path : Path}
    (clean : ∀ name ∈ path.names, '\x00' ∉ name.toList) : fs.checked path = .ok path := by
  have text : '\x00' ∉ path.text.toList := by
    rw [Path.mem_text_iff (by decide) (by decide)]
    rintro ⟨name, member, null⟩
    exact clean name member null
  have short := free.walk_ne true linkLimit (fs.origin path) path.names
  unfold FileSystem.checked
  split
  next given =>
    rcases status_eq_error given with ⟨null, -⟩ | ⟨-, _, impossible, -⟩
    · exact absurd null text
    · cases impossible
  next place given =>
    unfold status find at given
    rw [if_neg text] at given
    split at given
    · cases given
    · cases walked : fs.walk true linkLimit (fs.origin path) path.names with
      | error cause =>
        rw [walked] at given short
        obtain ⟨rfl, -⟩ := Failure.system.inj (Except.error.inj given)
        exact absurd rfl short
      | ok landing =>
        rw [walked] at given
        cases landing <;> cases given
  next => rfl

/-- A path whose text holds no NUL character has none in its names. -/
theorem clean_names_ofString {text : String} (clean : '\x00' ∉ text.toList) :
    ∀ name ∈ (Path.ofString text).names, '\x00' ∉ name.toList := by
  intro name member
  obtain ⟨field, kept, rfl⟩ := List.mem_map.1 member
  rw [String.toList_ofList]
  exact fun null => clean (Text.mem_of_mem_fields (List.mem_filter.1 kept).1 null)

/-- A file system whose working directory is one that a system can have: no name of it holds a NUL
character. -/
def HasCleanDirectory (fs : FileSystem) : Prop :=
  ∀ name ∈ fs.workingDirectory, '\x00' ∉ name.toList

/-- **Every path resolves to its lexical location.** -/
theorem IsLinkFree.resolve (free : fs.IsLinkFree) (directory : fs.HasCleanDirectory) {text : String}
    (clean : '\x00' ∉ text.toList) :
    fs.resolve (.ofString text) = .ok ⟨.root, Location.lexical fs.workingDirectory text⟩ := by
  have names := clean_names_ofString clean
  have begins : ∀ name ∈ fs.origin (.ofString text), '\x00' ∉ name.toList := by
    rw [origin_ofString, startOf]
    split
    · exact fun name member => by cases member
    · exact directory
  have lexical : ∀ name ∈ Location.lexical fs.workingDirectory text, '\x00' ∉ name.toList := by
    rw [← extend_names_ofString]
    exact fun name member =>
      (Location.mem_of_mem_extend member).elim (begins name) (names name)
  obtain ⟨reached, followed, anchor, place⟩ :=
    free.follow names [] (Path.ofString text).onlyMoves_base
  rw [place_base, extend_names_ofString] at place
  have absolute : fs.absolute reached = ⟨.root, Location.lexical fs.workingDirectory text⟩ := by
    rw [FileSystem.absolute, place, anchor, Path.base]
    cases (Path.ofString text).anchor <;> rfl
  rw [FileSystem.resolve, followed]
  dsimp only
  rw [absolute]
  exact free.checked lexical

/-- **Where nothing is a link, one path lies within another** when its lexical location begins with
that of the other. -/
theorem IsLinkFree.isWithin (free : fs.IsLinkFree) (directory : fs.HasCleanDirectory)
    {path root : String} (clean : '\x00' ∉ path.toList) (clean' : '\x00' ∉ root.toList) :
    fs.isWithin (.ofString path) (.ofString root) =
      .ok ((Location.lexical fs.workingDirectory root).isPrefixOf
        (Location.lexical fs.workingDirectory path)) := by
  unfold FileSystem.isWithin
  rw [free.resolve directory clean, free.resolve directory clean']
  refine congrArg Except.ok (Bool.eq_iff_iff.2 ?_)
  rw [List.isPrefixOf_iff_prefix, Path.below?]
  simp

/-- What resolves within a root resolves within all that the root does. -/
theorem ResolvesWithin.trans {first second third : Path} (inner : fs.ResolvesWithin first second)
    (outer : fs.ResolvesWithin second third) : fs.ResolvesWithin first third := by
  obtain ⟨middle, names, resolved, resolved'⟩ := inner
  obtain ⟨base, names', resolvedRoot, again⟩ := outer
  obtain rfl : middle = base.descend names' := Except.ok.inj (resolved.symm.trans again)
  refine ⟨base, names' ++ names, resolvedRoot, ?_⟩
  rw [resolved', Path.descend, Path.descend, Path.descend, List.append_assoc]

/-- **Being within a root is lexical where nothing is a link.** Let no text hold a NUL character. It
is answered whether one path lies within another, and the answer is yes exactly when the lexical
location of the path begins with that of the root, whatever is stored. So every path lies within
itself, what lies within a root lies within all that the root does, and nothing lies within its
siblings, even when its name begins with theirs. -/
theorem isWithin_lexical {fs : FileSystem} (free : fs.IsLinkFree)
    (directory : fs.HasCleanDirectory) :
    (∀ path root : String, '\x00' ∉ path.toList → '\x00' ∉ root.toList →
      ∃ answer, fs.isWithin (.ofString path) (.ofString root) = .ok answer ∧
        (answer = true ↔ Location.lexical fs.workingDirectory root <+:
          Location.lexical fs.workingDirectory path)) ∧
    (∀ path : String, '\x00' ∉ path.toList →
      fs.isWithin (.ofString path) (.ofString path) = .ok true) ∧
    (∀ first second third : Path, fs.isWithin first second = .ok true →
      fs.isWithin second third = .ok true → fs.isWithin first third = .ok true) ∧
    ∀ (path root : String) (above : Location) (name other : String),
      '\x00' ∉ path.toList → '\x00' ∉ root.toList → other ≠ name →
      Location.lexical fs.workingDirectory root = above ++ [name] →
      Location.lexical fs.workingDirectory path = above ++ [other] →
      fs.isWithin (.ofString path) (.ofString root) = .ok false := by
  refine ⟨fun path root clean clean' => ⟨_, free.isWithin directory clean clean', ?_⟩,
    fun path clean => ?_, fun first second third inner outer => ?_,
    fun path root above name other clean clean' differ rootAt pathAt => ?_⟩
  · exact List.isPrefixOf_iff_prefix
  · rw [free.isWithin directory clean clean]
    exact congrArg _ (List.isPrefixOf_iff_prefix.2 (List.prefix_refl _))
  · rw [isWithin_eq_true_iff] at inner outer ⊢
    exact inner.trans outer
  · rw [free.isWithin directory clean clean', rootAt, pathAt]
    refine congrArg _ (Bool.eq_false_iff.2 fun within => differ ?_)
    -- Both have as many names, so that a beginning is the whole.
    have same := (List.isPrefixOf_iff_prefix.1 within).eq_of_length (by simp)
    simpa using same.symm

/-- A directory `r` in the working directory. -/
def plainFiles : FileSystem := ⟨[(["w"], .directory), (["w", "r"], .directory)], ["w"]⟩

/-- A path with turns lies within it, and a sibling with a longer name does not. -/
theorem isWithin_lexical_turns :
    plainFiles.IsLinkFree ∧ plainFiles.HasCleanDirectory ∧
      plainFiles.isWithin (.ofString "x/../r//./y/../z") (.ofString "../w/r/") = .ok true ∧
      plainFiles.isWithin (.ofString "/w/rx") (.ofString "./r") = .ok false := by
  have free : plainFiles.IsLinkFree := isLinkFree_of_forall_mem (by simp [plainFiles])
  have directory : plainFiles.HasCleanDirectory := by simp [HasCleanDirectory, plainFiles]
  obtain ⟨lexically, -, -, siblings⟩ := isWithin_lexical free directory
  obtain ⟨answer, given, within⟩ := lexically "x/../r//./y/../z" "../w/r/" (by decide) (by decide)
  rw [within.2 (by decide)] at given
  exact ⟨free, directory, given, siblings "/w/rx" "./r" ["w"] "r" "rx" (by decide) (by decide)
    (by decide) (by decide) (by decide)⟩

end FileSystem

end FileRoutes
