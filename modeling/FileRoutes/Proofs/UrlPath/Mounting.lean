import FileRoutes.Proofs.UrlPath.Below

/-! # URL paths below a directory

What a directory adds to the URL paths of the files in it: `mount` puts the segment that its name is
translated to in front of them, and nothing for the name `index` (`mount_cases`). Conversion goes
segment by segment, so that the URL path of a file below a directory is the mounted one of the file
below the directory alone (`urlPath_descend_cons`), and mounting keeps the order of URL paths
(`mount_le_mount_iff`). -/

namespace FileRoutes

/-- The text of a path that goes down from a normal path along further names reads as that path. -/
theorem Path.ofString_text_descend {path : Path} (normal : path.IsNormal) {names : List String}
    (can : ∀ name ∈ names, IsPathName name) :
    Path.ofString (path.descend names).text = path.descend names :=
  Path.ofString_text (normal.append can)

/-- The text of a child of a path that is read reads as that child. -/
theorem Path.ofString_text_child (root : String) {name : String} (can : IsPathName name) :
    Path.ofString ((Path.ofString root).child name).text = (Path.ofString root).child name :=
  Path.ofString_text_descend (Path.isNormal_ofString root) (by simpa using can)

namespace UrlPath

/-! ## Mounting -/

/-- The only segment that is left out is the one that stands for its directory. -/
theorem translateSegment_eq_none_iff {segment : List Char} :
    translateSegment segment = none ↔ segment = indexSegment := by
  unfold translateSegment
  split
  next same => exact iff_of_true rfl same
  next other =>
    refine iff_of_false ?_ other
    split
    · simp
    · split <;> simp

/-- A URL path behind a segment: nothing is added for the root, which is a slash alone. -/
def tail (url : String) : List Char :=
  if url = "/" then [] else url.toList

/-- **A URL path mounted** in a directory with a name: behind the segment that the name is
translated to, or as it is when that is left out. -/
def mount (directory url : String) : String :=
  match translateSegment directory.toList with
  | none => url
  | some segment => String.ofList ('/' :: segment ++ tail url)

/-- **What a directory adds**: nothing when it is named `index`, and otherwise the segment that its
name is translated to. -/
theorem mount_cases (directory : String) :
    directory = "index" ∧ (∀ url, mount directory url = url) ∨
    directory ≠ "index" ∧ ∃ segment, translateSegment directory.toList = some segment ∧
      ∀ url, mount directory url = String.ofList ('/' :: segment ++ tail url) := by
  have name : directory.toList = indexSegment ↔ directory = "index" := by
    rw [← String.toList_inj]
    rfl
  unfold mount
  cases translated : translateSegment directory.toList with
  | none =>
    have index := name.1 (translateSegment_eq_none_iff.1 translated)
    exact .inl ⟨index, fun url => rfl⟩
  | some segment =>
    refine .inr ⟨fun index => ?_, segment, rfl, fun url => rfl⟩
    rw [translateSegment_eq_none_iff.2 (name.2 index)] at translated
    cases translated

/-- **The URL path of one more segment** in front of canonical ones is mounted. -/
theorem ofSegments_append (directory : String) {parts : List (List Char)}
    (canonical : ∀ part ∈ parts, IsSegment part) :
    String.ofList (ofSegments ((translateSegment directory.toList).toList ++ parts)) =
      mount directory (String.ofList (ofSegments parts)) := by
  unfold mount
  cases translateSegment directory.toList with
  | none => rfl
  | some segment =>
    have root : String.ofList (ofSegments parts) = "/" ↔ parts = [] := by
      rw [← ofSegments_eq_root_iff canonical, String.ofList_eq]
      rfl
    rw [Option.toList_some, List.singleton_append, ofSegments_of_ne_nil (List.cons_ne_nil _ _),
      List.flatMap_cons]
    by_cases empty : parts = []
    · rw [tail, if_pos (root.2 empty), empty, List.flatMap_nil]
    · rw [tail, if_neg (root.not.2 empty), String.toList_ofList, ofSegments_of_ne_nil empty]

/-! ## The order of URL paths -/

/-- A common beginning does not matter for the order. -/
theorem append_lt_append_iff (front : List Char) {text other : List Char} :
    front ++ text < front ++ other ↔ text < other := by
  induction front with
  | nil => rfl
  | cons c front ih =>
    rw [List.cons_append, List.cons_append, List.cons_lt_cons_iff, ih]
    simp

/-- What stands behind a segment is in the order of the URL paths. -/
theorem tail_lt_tail_iff {url other : String} (begins : url.toList.head? = some '/')
    (begins' : other.toList.head? = some '/') : tail url < tail other ↔ url < other := by
  obtain ⟨rest, text⟩ := List.head?_eq_some_iff.1 begins
  obtain ⟨rest', text'⟩ := List.head?_eq_some_iff.1 begins'
  have root : url = "/" ↔ rest = [] := by
    rw [← String.toList_inj, text]
    simp
  have root' : other = "/" ↔ rest' = [] := by
    rw [← String.toList_inj, text']
    simp
  rw [String.lt_iff_toList_lt, text, text', List.cons_lt_cons_iff, tail, tail, text, text']
  -- The root comes first either way.
  by_cases empty : rest = []
  · by_cases empty' : rest' = []
    · simp [root.2 empty, root'.2 empty', empty, empty']
    · obtain ⟨c, others, rfl⟩ := List.exists_cons_of_ne_nil empty'
      simp [root.2 empty, root'.not.2 empty', empty]
  · by_cases empty' : rest' = []
    · simp [root.not.2 empty, root'.2 empty', empty']
    · rw [if_neg (root.not.2 empty), if_neg (root'.not.2 empty'), List.cons_lt_cons_iff]

/-- **Mounting keeps the order** of URL paths. -/
theorem mount_le_mount_iff (directory : String) {url other : String}
    (begins : url.toList.head? = some '/') (begins' : other.toList.head? = some '/') :
    mount directory url ≤ mount directory other ↔ url ≤ other := by
  rw [← not_lt, ← not_lt, not_iff_not]
  rcases mount_cases directory with ⟨-, same⟩ | ⟨-, segment, -, behind⟩
  · rw [same, same]
  · rw [behind, behind, String.lt_iff_toList_lt, String.toList_ofList, String.toList_ofList,
      append_lt_append_iff, tail_lt_tail_iff begins' begins]

/-! ## Conversion below a directory -/

/-- The first name of a route gives the first segment. -/
theorem segments_cons {name : List Char} (nonempty : name ≠ []) (whole : '/' ∉ name)
    (route : List Char) :
    segments (name ++ '/' :: route) = (translateSegment name).toList ++ segments route := by
  rw [segments, segments, Text.fields_append_cons whole,
    List.filter_cons_of_pos (by simpa using nonempty), List.filterMap_cons]
  cases translateSegment name <;> rfl

/-- **The route of a file** that goes down from the root, without backslashes, is made of the names
in between. -/
theorem relativeRoute_descend {root : String} (forward : '\\' ∉ root.toList) {names : List String}
    (can : ∀ name ∈ names, IsPathName name)
    (forward' : '\\' ∉ ((Path.ofString root).descend names).text.toList) :
    relativeRoute ((Path.ofString root).descend names).text root = Path.joinNames names := by
  refine relativeRoute_of_descend ?_
  rw [pathOf_of_forward forward, pathOf_of_forward forward',
    Path.ofString_text_descend (Path.isNormal_ofString root) can]

section Descend

variable {root name : String} {names : List String}

/-- **The URL path of a file below a directory is the mounted one** of the file below the directory
alone, where the file has a route extension and no backslash stands in its path. -/
theorem urlPath_descend_cons (forward : '\\' ∉ root.toList) (can : IsPathName name)
    (can' : ∀ name ∈ names, IsPathName name)
    (forward' : '\\' ∉ ((Path.ofString root).descend (name :: names)).text.toList)
    (ends : ∃ extension ∈ extensions, extension <:+ Path.joinNames names) :
    urlPath ((Path.ofString root).descend (name :: names)).text root =
      mount name (urlPath ((Path.ofString root).descend (name :: names)).text
        ((Path.ofString root).child name).text) := by
  -- The path of the directory has some of the characters of that of the file.
  have forwardChild : '\\' ∉ ((Path.ofString root).child name).text.toList := by
    rw [Path.mem_text_iff (by decide) (by decide)] at forward' ⊢
    rintro ⟨other, member, backslash⟩
    refine forward' ⟨other, ?_, backslash⟩
    rw [Path.descend_cons]
    exact List.mem_append_left names member
  have outer := relativeRoute_descend forward (List.forall_mem_cons.2 ⟨can, can'⟩) forward'
  have inner : relativeRoute ((Path.ofString root).descend (name :: names)).text
      ((Path.ofString root).child name).text = Path.joinNames names := by
    have below := relativeRoute_descend forwardChild can'
    rw [Path.ofString_text_child root can, ← Path.descend_cons] at below
    exact below forward'
  -- There are further names, since an extension is found behind the first one.
  have joined : Path.joinNames (name :: names) = name.toList ++ '/' :: Path.joinNames names := by
    cases names with
    | nil =>
      obtain ⟨extension, member, suffix⟩ := ends
      obtain rfl := List.suffix_nil.1 suffix
      exact absurd member (by decide)
    | cons next names => rfl
  have nonempty : name.toList ≠ [] := fun empty =>
    can.nonempty (String.toList_eq_nil_iff.1 empty)
  rw [urlPath, urlPath, outer, inner, joined, stripExtension_append_slash,
    segments_cons nonempty can.whole]
  refine ofSegments_append name fun part member =>
    isSegment_of_mem_segments (fun backslash => ?_) member
  exact not_mem_relativeRoute _ _ (inner ▸ mem_of_mem_stripExtension backslash)

end Descend

end UrlPath

end FileRoutes
