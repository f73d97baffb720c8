import FileRoutes.FileSystem.Walk

/-! # Resolving a path

The **resolved form** of a path (`FileSystem.resolve`): links are replaced by what they stand for and
double dots go up from what was reached, while names under which nothing is stored are kept. It is
worked out on paths, name by name: what was reached is a path itself, and the system is asked whether
that path is a link (`FileSystem.linkAt?`). A path that is too long for the system counts as no link.
Any number of links is followed; a link that is met again while it is being resolved is a cycle.
Whether one path lies within another (`FileSystem.isWithin`) is decided on resolved forms. -/

namespace FileRoutes

/-- The location that names lead to when only double dots are given a meaning. -/
def Location.extend (location : Location) (names : List String) : Location :=
  names.foldl (fun here name =>
    if name = "" ∨ name = "." then here
    else if name = ".." then here.dropLast
    else here ++ [name]) location

namespace Path

/-- The path **one step up**. Where no name is left to take away, a relative path gets double
dots. -/
def up (path : Path) : Path :=
  match path.names.getLast? with
  | none => if path.anchor = .relative then path.child ".." else path
  | some name => if name = ".." then path.child ".." else path.parent

/-- A text **behind a path**. One that begins with a slash is a path of its own. -/
def join (path : Path) (text : String) : Path :=
  if isAbsolute text then .ofString text
  else { path with names := path.names ++ (Path.ofString text).names }

/-- Where a text begins when it is met at a path. -/
def start (path : Path) (text : String) : Path :=
  if isAbsolute text then ⟨.root, []⟩ else path

/-- The path at which a path begins. -/
def base (path : Path) : Path :=
  { anchor := if path.anchor = .relative then .relative else .root
    names := [] }

end Path

/-- The outcome of following names. -/
inductive Resolved where
  /-- Every name was followed. -/
  | settled (path : Path)
  /-- A cycle of links was met, and the names from there on were taken as they stand. -/
  | stuck (path : Path)
  /-- A name holds a NUL character. -/
  | invalid
  deriving DecidableEq, Repr

/-! ## Finitely many paths

What is being resolved are paths that are not too long for the system. There are finitely many of
them, so that links are followed only finitely often. -/

/-- There are **finitely many lists** of a bounded length over finitely many elements. -/
theorem exists_forall_mem_of_length_le {α : Type} (elements : List α) (bound : Nat) :
    ∃ lists : List (List α), ∀ list : List α, list.length ≤ bound →
      (∀ element ∈ list, element ∈ elements) → list ∈ lists := by
  induction bound with
  | zero =>
    refine ⟨[[]], fun list short _ => ?_⟩
    rw [List.length_eq_zero_iff.1 (Nat.le_zero.1 short)]
    exact List.mem_cons_self
  | succ bound ih =>
    obtain ⟨lists, all⟩ := ih
    refine ⟨[] :: elements.flatMap fun element => lists.map (element :: ·), ?_⟩
    intro list short inside
    cases list with
    | nil => exact List.mem_cons_self
    | cons first rest =>
      obtain ⟨inside, others⟩ := List.forall_mem_cons.1 inside
      refine List.mem_cons_of_mem _ (List.mem_flatMap.2 ⟨first, inside, ?_⟩)
      exact List.mem_map.2 ⟨rest, all rest (Nat.le_of_succ_le_succ short) others, rfl⟩

/-- There are **finitely many texts** of a bounded length. -/
theorem exists_forall_mem_texts (bound : Nat) :
    ∃ texts : List String, ∀ text : String, text.toList.length ≤ bound → text ∈ texts := by
  have characters : ∀ c : Char, c ∈ (List.range 0x110000).map Char.ofNat := by
    intro c
    refine List.mem_map.2 ⟨c.toNat, List.mem_range.2 ?_, Char.ofNat_toNat c⟩
    have valid := c.valid
    simp only [UInt32.isValidChar, Nat.isValidChar, Char.toNat] at valid ⊢
    omega
  obtain ⟨lists, all⟩ := exists_forall_mem_of_length_le _ bound
  refine ⟨lists.map String.ofList, fun text short => ?_⟩
  exact List.mem_map.2 ⟨text.toList, all _ short fun c _ => characters c, String.ofList_toList⟩

/-- The characters of a name stand in the text of its path. -/
theorem Path.length_le_of_mem_names {path : Path} {name : String} (member : name ∈ path.names) :
    name.toList.length ≤ path.text.utf8ByteSize := by
  have part : ∀ parts : List (List Char), ∀ field ∈ parts,
      field.length ≤ (Text.joinFields '/' parts).length := by
    intro parts field member
    fun_induction Text.joinFields '/' parts with
    | case1 => cases member
    | case2 =>
      obtain rfl := List.mem_singleton.1 member
      exact Nat.le_refl _
    | case3 first others _ ih =>
      rw [List.length_append, List.length_cons]
      rcases List.mem_cons.1 member with rfl | member
      · omega
      · have := ih member
        omega
  have joined := part _ _ (List.mem_map_of_mem (f := String.toList) member)
  unfold text
  split
  next empty =>
    simp only [List.append_eq_nil_iff, joinNames] at empty
    rw [empty.2] at joined
    exact Nat.le_trans joined (Nat.zero_le _)
  next =>
    have size := length_le_utf8ByteSize (path.anchor.chars ++ joinNames path.names)
    simp only [joinNames, List.length_append] at size ⊢
    omega

/-- There are **finitely many paths** that are not too long for the system. -/
theorem exists_forall_mem_paths :
    ∃ paths : List Path, ∀ path : Path, path.text.utf8ByteSize < pathLimit → path ∈ paths := by
  obtain ⟨texts, allTexts⟩ := exists_forall_mem_texts pathLimit
  obtain ⟨lists, all⟩ := exists_forall_mem_of_length_le texts pathLimit
  refine ⟨[Anchor.relative, .root, .doubleRoot].flatMap fun anchor => lists.map (Path.mk anchor), ?_⟩
  intro path short
  have few := path.names_length_le
  refine List.mem_flatMap.2 ⟨path.anchor, by cases path.anchor <;> simp, ?_⟩
  refine List.mem_map.2 ⟨path.names, all _ (by omega) fun name member => allTexts _ ?_, rfl⟩
  have := Path.length_le_of_mem_names member
  omega

/-- Counting what is not pending, one more pending element counts no more. -/
theorem countP_not_pending_le {α : Type} [DecidableEq α] (elements pending : List α) (element : α) :
    elements.countP (· ∉ element :: pending) ≤ elements.countP (· ∉ pending) :=
  List.countP_mono_left fun _ _ fresh => by
    simp only [List.mem_cons, not_or, decide_eq_true_eq] at fresh ⊢
    exact fresh.2

/-- Counting what is not pending, an element that becomes pending is missing. -/
theorem countP_not_pending_lt {α : Type} [DecidableEq α] {elements pending : List α} {element : α}
    (member : element ∈ elements) (fresh : element ∉ pending) :
    elements.countP (· ∉ element :: pending) < elements.countP (· ∉ pending) := by
  induction elements with
  | nil => simp at member
  | cons first rest ih =>
    have weaker := countP_not_pending_le rest pending element
    by_cases equal : first = element
    · subst equal
      rw [List.countP_cons_of_neg (by simp), List.countP_cons_of_pos (by simpa using fresh)]
      omega
    · have smaller := ih (by simpa [Ne.symm equal] using member)
      by_cases old : first ∈ pending
      · rw [List.countP_cons_of_neg (by simp [old]), List.countP_cons_of_neg (by simpa using old)]
        exact smaller
      · rw [List.countP_cons_of_pos (by simp [old, equal]),
          List.countP_cons_of_pos (by simpa using old)]
        omega

/-- How many of the paths that are not too long are not being resolved yet. -/
noncomputable def freshPaths (pending : List Path) : Nat :=
  exists_forall_mem_paths.choose.countP (· ∉ pending)

/-- Fewer paths are left when one more is being resolved. -/
theorem freshPaths_cons_lt {pending : List Path} {path : Path}
    (short : path.text.utf8ByteSize < pathLimit) (fresh : path ∉ pending) :
    freshPaths (path :: pending) < freshPaths pending :=
  countP_not_pending_lt (exists_forall_mem_paths.choose_spec path short) fresh

namespace FileSystem

/-! ## Following links -/

/-- What the link at a path stands for; `none` when there is no link, or the system does not tell. -/
def linkAt? (fs : FileSystem) (path : Path) : Option String :=
  match fs.find false path with
  | .ok (.taken _ (.link target)) => some target
  | _ => none

/-- A path at which a link is found is not too long. -/
theorem short_of_linkAt? {fs : FileSystem} {path : Path} {target : String}
    (found : fs.linkAt? path = some target) : path.text.utf8ByteSize < pathLimit := by
  unfold linkAt? find at found
  split at found
  next given =>
    split at given
    · cases given
    split at given
    · cases given
    · omega
  next => cases found

/-- **Follows names** from a path on. The pending paths are those of the links being resolved. -/
def follow (fs : FileSystem) (pending : List Path) (here : Path) : List String → Resolved
  | [] => .settled here
  | name :: rest =>
    if name = "" ∨ name = "." then fs.follow pending here rest
    else if name = ".." then fs.follow pending here.up rest
    else if '\x00' ∈ name.toList then .invalid
    else
      match stored : fs.linkAt? (here.child name) with
      | none => fs.follow pending (here.child name) rest
      | some target =>
        if met : here.child name ∈ pending then
          .stuck ((here.child name).join (.ofList (Path.joinNames rest)))
        else
          have := freshPaths_cons_lt (short_of_linkAt? stored) met
          match fs.follow (here.child name :: pending) (here.start target) (namesAlong target) with
          | .settled path => fs.follow pending path rest
          | .stuck path => .stuck (path.join (.ofList (Path.joinNames rest)))
          | .invalid => .invalid
  termination_by names => (freshPaths pending, names.length)

/-- The location that a path names when only double dots are given a meaning. -/
def place (fs : FileSystem) (path : Path) : Location :=
  (fs.origin path).extend path.names

/-- The path from the root on, without double dots. -/
def absolute (fs : FileSystem) (path : Path) : Path :=
  { anchor := if path.anchor = .relative then .root else path.anchor
    names := fs.place path }

/-- A path about which the system is asked: a NUL character in it and a cycle of links, where the
system finds too many of them, are failures, and nothing else is. -/
def checked (fs : FileSystem) (path : Path) : Except Failure Path :=
  match fs.status path with
  | .error .nulInPath => .error .nulInPath
  | .error (.system .tooManyLinks _) => .error .linkLoop
  | _ => .ok path

/-- The **resolved form** of a path. -/
def resolve (fs : FileSystem) (path : Path) : Except Failure Path :=
  match fs.follow [] path.base path.names with
  | .invalid => .error .nulInPath
  | .settled reached | .stuck reached => fs.checked (fs.absolute reached)

/-- Whether a path resolves to the root or to a path below it. A NUL character in either makes the
answer no, and a cycle of links is a failure. -/
def isWithin (fs : FileSystem) (path root : Path) : Except Failure Bool :=
  match fs.resolve path with
  | .error .linkLoop => .error .linkLoop
  | .error _ => .ok false
  | .ok path =>
    match fs.resolve root with
    | .error .linkLoop => .error .linkLoop
    | .error _ => .ok false
    | .ok root => .ok (path.below? root).isSome

end FileSystem

end FileRoutes
