import FileRoutes.Proofs.Path
import FileRoutes.Proofs.UrlPath
import Mathlib

/-! # The form of URL paths, and converting them again

Whatever the two paths that are given, a URL path is made of **canonical segments** (`IsSegment`,
`exists_urlPath_eq`): they are translated to themselves (`translateSegment_idem`) and found again in
the URL path (`fields_ofSegments`, `segments_ofSegments`), which gives its form
(`urlPath_canonical`). When a URL path is converted as if it were a file, below no root, all that can
change it is that it loses a route extension. It then gets shorter
(`length_ofSegments_segments_le`), so that it stays the same exactly when it does not end in one
(`urlPath_urlPath_iff`), and it can end in one (`urlPath_urlPath_ne`). -/

namespace FileRoutes

namespace Text

/-- The fields of a text are as long as the text, when each counts the separator in front of it and
so does the text. -/
theorem sum_length_fields (separator : Char) (text : List Char) :
    ((fields separator text).map (·.length + 1)).sum = text.length + 1 := by
  induction text with
  | nil => rfl
  | cons c rest ih =>
    have nonempty := fields_ne_nil separator rest
    rw [fields]
    split
    · simp [ih]
      omega
    · generalize fields separator rest = parts at ih nonempty
      cases parts with
      | nil => exact absurd rfl nonempty
      | cons field others =>
        simp only [List.map_cons, List.sum_cons, List.length_cons] at ih ⊢
        omega

end Text

namespace UrlPath

/-! ## One segment -/

/-- A segment is **bracketed** when it has a parameter. -/
theorem parameter?_eq_some_iff {segment parameter : List Char} :
    parameter? segment = some parameter ↔ segment = '[' :: (parameter ++ [']']) := by
  constructor
  · intro found
    unfold parameter? at found
    split at found
    next rest =>
      split at found
      next closed =>
        obtain ⟨inner, rfl⟩ := List.getLast?_eq_some_iff.1 closed
        rw [List.dropLast_concat, Option.some.injEq] at found
        rw [found]
      next => cases found
    next => cases found
  · rintro rfl
    simp [parameter?]

/-- **What a segment is translated to**: nothing, itself, or a mark and a part of it. -/
theorem translateSegment_cases {segment translated : List Char}
    (found : translateSegment segment = some translated) :
    (translated = segment ∧ segment ≠ indexSegment ∧ parameter? segment = none) ∨
      ∃ mark front name, (mark = '*' ∨ mark = ':') ∧ translated = mark :: name ∧
        segment = '[' :: (front ++ name ++ [']']) := by
  unfold translateSegment at found
  split at found
  next => cases found
  next other =>
    split at found
    next plain => exact .inl ⟨(Option.some.inj found).symm, other, plain⟩
    next parameter bracketed =>
      have whole := parameter?_eq_some_iff.1 bracketed
      split at found
      next name rest =>
        have equal := Text.after?_eq_some.1 rest
        exact .inr ⟨'*', catchAllMark, name, .inl rfl, (Option.some.inj found).symm, equal ▸ whole⟩
      next => exact .inr ⟨':', [], parameter, .inr rfl, (Option.some.inj found).symm, whole⟩

/-- A segment that begins with the mark of a parameter is no longer translated. -/
theorem translateSegment_of_mark {mark : Char} (known : mark = '*' ∨ mark = ':')
    (name : List Char) : translateSegment (mark :: name) = some (mark :: name) := by
  obtain rfl | rfl := known
  all_goals rfl

/-- **Translating a segment again** leaves it as it is. -/
theorem translateSegment_idem {segment translated : List Char}
    (found : translateSegment segment = some translated) :
    translateSegment translated = some translated := by
  rcases translateSegment_cases found with ⟨rfl, -, -⟩ | ⟨mark, front, name, known, rfl, -⟩
  · exact found
  · exact translateSegment_of_mark known name

/-- Translating makes no segment longer. -/
theorem length_le_of_translateSegment {segment translated : List Char}
    (found : translateSegment segment = some translated) : translated.length ≤ segment.length := by
  rcases translateSegment_cases found with ⟨rfl, -, -⟩ | ⟨mark, front, name, -, rfl, rfl⟩
  · exact le_rfl
  · simp only [List.length_cons, List.length_append, List.length_nil]
    omega

/-- A **canonical segment** of a URL path. -/
structure IsSegment (segment : List Char) : Prop where
  /-- It is not empty. -/
  nonempty : segment ≠ []
  /-- It holds no slash. -/
  whole : '/' ∉ segment
  /-- It holds no backslash. -/
  forward : '\\' ∉ segment
  /-- It is translated to itself. -/
  settled : translateSegment segment = some segment

/-- **What a segment is translated to is canonical.** -/
theorem isSegment_of_translateSegment {segment translated : List Char} (nonempty : segment ≠ [])
    (whole : '/' ∉ segment) (forward : '\\' ∉ segment)
    (found : translateSegment segment = some translated) : IsSegment translated := by
  have settled := translateSegment_idem found
  rcases translateSegment_cases found with ⟨rfl, -, -⟩ | ⟨mark, front, name, known, rfl, rfl⟩
  · exact ⟨nonempty, whole, forward, settled⟩
  · have slash : '/' ∉ name := fun inside => whole (by simp [inside])
    have backslash : '\\' ∉ name := fun inside => forward (by simp [inside])
    refine ⟨List.cons_ne_nil mark name, ?_, ?_, settled⟩
    all_goals obtain rfl | rfl := known
    all_goals simp [slash, backslash]

/-! ## All segments -/

/-- **The segments of a route are canonical** when it holds no backslash. -/
theorem isSegment_of_mem_segments {route segment : List Char} (forward : '\\' ∉ route)
    (member : segment ∈ segments route) : IsSegment segment := by
  obtain ⟨field, kept, found⟩ := List.mem_filterMap.1 member
  obtain ⟨inside, nonempty⟩ := List.mem_filter.1 kept
  exact isSegment_of_translateSegment (by simpa using nonempty) (Text.not_mem_of_mem_fields inside)
    (fun backslash => forward (Text.mem_of_mem_fields inside backslash)) found

/-- Segments behind a slash each are the joined segments behind one. -/
theorem flatMap_slash {parts : List (List Char)} (nonempty : parts ≠ []) :
    parts.flatMap ('/' :: ·) = '/' :: Text.joinFields '/' parts := by
  induction parts with
  | nil => exact absurd rfl nonempty
  | cons part others ih =>
    cases others with
    | nil => simp [Text.joinFields]
    | cons next others =>
      rw [List.flatMap_cons, ih (List.cons_ne_nil next others)]
      rfl

/-- The URL path of some segments has each of them behind a slash. -/
theorem ofSegments_of_ne_nil {parts : List (List Char)} (nonempty : parts ≠ []) :
    ofSegments parts = parts.flatMap ('/' :: ·) := by
  unfold ofSegments
  cases parts with
  | nil => exact absurd rfl nonempty
  | cons part others => rfl

/-- **The URL path of segments** is a slash and the joined segments. -/
theorem ofSegments_eq (parts : List (List Char)) :
    ofSegments parts = '/' :: Text.joinFields '/' parts := by
  cases parts with
  | nil => rfl
  | cons part others =>
    have nonempty := List.cons_ne_nil part others
    rw [ofSegments_of_ne_nil nonempty, flatMap_slash nonempty]

/-- The URL path of segments begins with a slash. -/
theorem exists_ofSegments_eq_cons (parts : List (List Char)) :
    ∃ rest, ofSegments parts = '/' :: rest :=
  ⟨_, ofSegments_eq parts⟩

/-- **Canonical segments are the fields** of the URL path that is made of them, behind the empty one
in front of the first slash. -/
theorem fields_ofSegments {parts : List (List Char)} (nonempty : parts ≠ [])
    (canonical : ∀ part ∈ parts, IsSegment part) :
    Text.fields '/' (ofSegments parts) = [] :: parts := by
  rw [ofSegments_eq, Text.fields, if_pos rfl,
    Text.fields_joinFields nonempty fun part member => (canonical part member).whole]

/-- **Canonical segments are found again** in the URL path that is made of them. -/
theorem segments_ofSegments {parts : List (List Char)} (canonical : ∀ part ∈ parts, IsSegment part) :
    segments (ofSegments parts) = parts := by
  by_cases empty : parts = []
  · subst empty
    rfl
  have kept : ∀ part ∈ parts, (!part.isEmpty) = true := by
    intro part member
    simpa using (canonical part member).nonempty
  have settled : parts.filterMap translateSegment = parts.filterMap some :=
    List.filterMap_congr fun part member => (canonical part member).settled
  rw [segments, fields_ofSegments empty canonical, List.filter_cons_of_neg (by simp),
    List.filter_eq_self.2 kept, settled, List.filterMap_some]

/-- The root is the URL path of no segments alone. -/
theorem ofSegments_eq_root_iff {parts : List (List Char)}
    (canonical : ∀ part ∈ parts, IsSegment part) : ofSegments parts = ['/'] ↔ parts = [] := by
  constructor
  · intro root
    rw [← segments_ofSegments canonical, root]
    rfl
  · rintro rfl
    rfl

/-- The segments of fields, each behind a slash, are not longer than the fields. -/
theorem length_flatMap_filterMap_le (fields : List (List Char)) :
    (((fields.filter (!·.isEmpty)).filterMap translateSegment).flatMap ('/' :: ·)).length ≤
      (fields.map (·.length + 1)).sum := by
  induction fields with
  | nil => simp
  | cons field fields ih =>
    rw [List.map_cons, List.sum_cons, List.filter_cons]
    split
    next =>
      rw [List.filterMap_cons]
      split
      next => omega
      next translated found =>
        have shorter := length_le_of_translateSegment found
        rw [List.flatMap_cons, List.length_append, List.length_cons]
        omega
    next => omega

/-- **A text that begins with a slash does not get longer** as a URL path. -/
theorem length_ofSegments_segments_le (rest : List Char) :
    (ofSegments (segments ('/' :: rest))).length ≤ ('/' :: rest).length := by
  have fields : segments ('/' :: rest) = segments rest := by
    rw [segments, segments, Text.fields, if_pos rfl, List.filter_cons_of_neg (by simp)]
  rw [fields]
  by_cases empty : segments rest = []
  · rw [empty]
    simp [ofSegments]
  · have bound := length_flatMap_filterMap_le (Text.fields '/' rest)
    rw [Text.sum_length_fields] at bound
    rw [ofSegments_of_ne_nil empty]
    exact bound

/-! ## Backslashes -/

/-- A text with slashes in their place holds no backslashes. -/
theorem not_mem_slashed (text : List Char) : '\\' ∉ slashed text := by
  intro member
  obtain ⟨c, -, same⟩ := List.mem_map.1 member
  by_cases backslash : c = '\\'
  · rw [if_pos backslash] at same
    cases same
  · rw [if_neg backslash] at same
    exact backslash same

/-- A text without backslashes stays as it is. -/
theorem slashed_eq_self {text : List Char} (forward : '\\' ∉ text) : slashed text = text := by
  have each : ∀ c ∈ text, (if c = '\\' then '/' else c) = c := by
    intro c member
    have other : c ≠ '\\' := by
      rintro rfl
      exact forward member
    rw [if_neg other]
  exact (List.map_congr_left each).trans (List.map_id _)

/-! ## Routes -/

/-- The path that a text writes when backslashes count as slashes. -/
def pathOf (text : String) : Path :=
  Path.ofString (String.ofList (slashed text.toList))

/-- Without backslashes, that is the path that is written anyway. -/
theorem pathOf_of_forward {text : String} (forward : '\\' ∉ text.toList) :
    pathOf text = Path.ofString text := by
  rw [pathOf, slashed_eq_self forward, String.ofList_toList]

/-- No name of such a path holds a backslash. -/
theorem not_mem_of_mem_names_pathOf {text name : String} (member : name ∈ (pathOf text).names) :
    '\\' ∉ name.toList := by
  rw [pathOf, Path.ofString, String.toList_ofList] at member
  obtain ⟨field, kept, rfl⟩ := List.mem_map.1 member
  rw [String.toList_ofList]
  exact fun inside => not_mem_slashed _ (Text.mem_of_mem_fields (List.mem_filter.1 kept).1 inside)

section Route

variable {file root : String}

/-- **The route of a file below the root** is made of the names in between. -/
theorem relativeRoute_of_descend {names : List String}
    (below : pathOf file = (pathOf root).descend names) :
    relativeRoute file root = Path.joinNames names := by
  have found := Path.below?_eq_some_iff.2 below
  unfold pathOf at found
  unfold relativeRoute
  simp only [found]

/-- **The route of any other file** is its own text. -/
theorem relativeRoute_of_not_below (outside : ∀ names, pathOf file ≠ (pathOf root).descend names) :
    relativeRoute file root = slashed file.toList := by
  have found : (pathOf file).below? (pathOf root) = none := by
    rw [Option.eq_none_iff_forall_ne_some]
    intro names below
    exact outside names (Path.below?_eq_some_iff.1 below)
  unfold pathOf at found
  unfold relativeRoute
  simp only [found]

/-- **The route of a file holds no backslashes.** -/
theorem not_mem_relativeRoute (file root : String) : '\\' ∉ relativeRoute file root := by
  by_cases below : ∃ names, pathOf file = (pathOf root).descend names
  · obtain ⟨names, descends⟩ := below
    rw [relativeRoute_of_descend descends, Path.joinNames, Text.mem_joinFields_iff (by decide)]
    rintro ⟨_, part, inside⟩
    obtain ⟨name, further, rfl⟩ := List.mem_map.1 part
    -- The names are some of those of the file.
    have member : name ∈ (pathOf file).names := descends ▸ List.mem_append_right _ further
    exact not_mem_of_mem_names_pathOf member inside
  · rw [relativeRoute_of_not_below fun names descends => below ⟨names, descends⟩]
    exact not_mem_slashed _

/-- What begins with a slash does not lie below no root, so that its route is its own text. -/
theorem relativeRoute_of_absolute {rest : List Char} (forward : '\\' ∉ rest) :
    relativeRoute (String.ofList ('/' :: rest)) "" = '/' :: rest := by
  have text : slashed (String.ofList ('/' :: rest)).toList = '/' :: rest := by
    rw [String.toList_ofList]
    exact slashed_eq_self (by simp [forward])
  rw [relativeRoute_of_not_below, text]
  intro names descends
  have relative : Anchor.ofChars ('/' :: rest) = .relative := by
    have anchor := congrArg Path.anchor descends
    rwa [pathOf, text, Path.ofString, String.toList_ofList] at anchor
  exact Anchor.ofChars_eq_relative_iff.1 relative rfl

end Route

/-! ## Extensions -/

/-- **A text keeps its end** exactly when that is no route extension; otherwise it loses one. -/
theorem stripExtension_cases (text : List Char) :
    (stripExtension text = text ∧ ∀ extension ∈ extensions, ¬ extension <:+ text) ∨
      ∃ extension ∈ extensions, text = stripExtension text ++ extension := by
  by_cases ends : ∃ extension ∈ extensions, extension <:+ text
  · obtain ⟨extension, member, stem, rfl⟩ := ends
    exact .inr ⟨extension, member, by rw [stripExtension_append member]⟩
  · have kept : ∀ extension ∈ extensions, ¬ extension <:+ text := fun extension member suffix =>
      ends ⟨extension, member, suffix⟩
    have none : extensions.findSome? (dropExtension? · text) = none := by
      rw [List.findSome?_eq_none_iff]
      intro extension member
      rw [Option.eq_none_iff_forall_ne_some]
      intro stem found
      exact kept extension member ⟨stem, (dropExtension?_eq_some_iff.1 found).symm⟩
    exact .inl ⟨by rw [stripExtension, none, Option.getD_none], kept⟩

/-- A text without its extension holds no other characters. -/
theorem mem_of_mem_stripExtension {text : List Char} {c : Char} (member : c ∈ stripExtension text) :
    c ∈ text := by
  rcases stripExtension_cases text with ⟨same, -⟩ | ⟨extension, -, whole⟩
  · exact same ▸ member
  · rw [whole]
    exact List.mem_append_left extension member

/-! ## URL paths -/

/-- **A URL path is made of canonical segments**, whatever it is the URL path of. -/
theorem exists_urlPath_eq (file root : String) :
    ∃ parts, (∀ part ∈ parts, IsSegment part) ∧
      (urlPath file root).toList = ofSegments parts := by
  refine ⟨segments (stripExtension (relativeRoute file root)), fun part member => ?_, ?_⟩
  · refine isSegment_of_mem_segments (fun backslash => ?_) member
    exact not_mem_relativeRoute file root (mem_of_mem_stripExtension backslash)
  · rw [urlPath, String.toList_ofList]

/-- A URL path of canonical segments holds no backslashes. -/
theorem not_mem_ofSegments {parts : List (List Char)} (canonical : ∀ part ∈ parts, IsSegment part) :
    '\\' ∉ ofSegments parts := by
  by_cases empty : parts = []
  · subst empty
    decide
  rw [ofSegments_of_ne_nil empty]
  intro backslash
  obtain ⟨part, member, inside⟩ := List.mem_flatMap.1 backslash
  rcases List.mem_cons.1 inside with slash | inside
  · cases slash
  · exact (canonical part member).forward inside

/-- **A URL path that is converted again** gives the URL path of its own segments, without a route
extension at its end. -/
theorem urlPath_urlPath (file root : String) :
    urlPath (urlPath file root) "" =
      String.ofList (ofSegments (segments (stripExtension (urlPath file root).toList))) := by
  obtain ⟨parts, canonical, equal⟩ := exists_urlPath_eq file root
  obtain ⟨rest, begins⟩ := exists_ofSegments_eq_cons parts
  have forward : '\\' ∉ rest := fun backslash =>
    not_mem_ofSegments canonical (begins ▸ List.mem_cons_of_mem _ backslash)
  have whole : urlPath file root = String.ofList ('/' :: rest) := by
    rw [← begins, ← equal, String.ofList_toList]
  rw [whole, urlPath, relativeRoute_of_absolute forward, String.toList_ofList]

/-- **Converting a URL path again**, as a file below no root, leaves it unchanged exactly when it
does not end in a route extension. -/
theorem urlPath_urlPath_iff (file root : String) :
    urlPath (urlPath file root) "" = urlPath file root ↔
      ∀ extension ∈ extensions, ¬ extension <:+ (urlPath file root).toList := by
  rw [urlPath_urlPath]
  obtain ⟨parts, canonical, equal⟩ := exists_urlPath_eq file root
  rcases stripExtension_cases (urlPath file root).toList with ⟨same, kept⟩ |
    ⟨extension, member, whole⟩
  · -- Nothing is taken off, and the segments are found again.
    refine iff_of_true ?_ kept
    rw [same, equal, segments_ofSegments canonical, ← equal, String.ofList_toList]
  · -- What is left begins with a slash, so that the URL path of it is shorter than before.
    refine iff_of_false (fun again => ?_) fun kept => kept extension member ⟨_, whole.symm⟩
    have dot : ∃ letters, extension = '.' :: letters := by
      simp only [extensions, List.mem_cons, List.not_mem_nil, or_false] at member
      rcases member with rfl | rfl
      all_goals exact ⟨_, rfl⟩
    obtain ⟨letters, rfl⟩ := dot
    obtain ⟨rest, begins⟩ := exists_ofSegments_eq_cons parts
    have length := congrArg (fun text => text.toList.length) again
    simp only [String.toList_ofList] at length
    generalize stripExtension (urlPath file root).toList = left at length whole
    rw [equal, begins] at whole length
    cases left with
    | nil => cases whole
    | cons c left =>
      obtain ⟨rfl, -⟩ := List.cons.inj whole
      have bound := length_ofSegments_segments_le left
      have sizes := congrArg List.length whole
      simp only [List.length_cons, List.length_append] at bound length sizes
      omega

/-- **A URL path can end in a route extension**, which it loses when it is converted again. -/
theorem urlPath_urlPath_ne :
    urlPath "/routes/types.ts.ts" "/routes" = "/types.ts" ∧ urlPath "/types.ts" "" = "/types" ∧
      urlPath (urlPath "/routes/types.ts.ts" "/routes") "" ≠
        urlPath "/routes/types.ts.ts" "/routes" := by
  decide +kernel

/-! ## The form of URL paths -/

/-- The fields of a URL path are its segments, and empty texts beside them. -/
theorem mem_fields_ofSegments {parts : List (List Char)}
    (canonical : ∀ part ∈ parts, IsSegment part) {field : List Char}
    (member : field ∈ Text.fields '/' (ofSegments parts)) : field = [] ∨ field ∈ parts := by
  by_cases empty : parts = []
  · subst empty
    have root : Text.fields '/' (ofSegments []) = [[], []] := by decide
    exact .inl (by simpa [root] using member)
  · rw [fields_ofSegments empty canonical] at member
    exact List.mem_cons.1 member

/-- **Behind every slash begins a segment**, in the URL path of some segments. -/
theorem exists_eq_cons_of_ofSegments_eq {parts : List (List Char)} (nonempty : parts ≠ [])
    (canonical : ∀ part ∈ parts, IsSegment part) {front rest : List Char}
    (whole : ofSegments parts = front ++ '/' :: rest) :
    ∃ c others, c ≠ '/' ∧ rest = c :: others := by
  have fields := fields_ofSegments nonempty canonical
  rw [whole, Text.fields_append_separator] at fields
  -- The fields behind the slash are some of the segments, none of which is empty.
  have solid : ∀ field ∈ Text.fields '/' rest, field ≠ [] := by
    intro field member
    cases begins : Text.fields '/' front with
    | nil => exact absurd begins (Text.fields_ne_nil '/' front)
    | cons first others =>
      rw [begins, List.cons_append] at fields
      obtain ⟨-, behind⟩ := List.cons.inj fields
      exact (canonical field (behind ▸ List.mem_append_right others member)).nonempty
  cases rest with
  | nil => exact absurd rfl (solid [] (by simp [Text.fields]))
  | cons c others =>
    refine ⟨c, others, ?_, rfl⟩
    rintro rfl
    exact solid [] (by simp [Text.fields]) rfl

/-- **The form of URL paths**, whatever the two paths that are given. A URL path begins with a slash
and ends with one when it is the root only; it holds no two slashes in a row and no backslash. None
of its segments is the one that stands for its directory, and each is translated to itself. So a URL
path that keeps its end when an extension is taken off is left as it is when it is converted again,
as a file below no root. -/
theorem urlPath_canonical (file root : String) :
    (urlPath file root).toList.head? = some '/' ∧
    ((urlPath file root).toList.getLast? = some '/' ↔ urlPath file root = "/") ∧
    ¬ ['/', '/'] <:+: (urlPath file root).toList ∧
    '\\' ∉ (urlPath file root).toList ∧
    (∀ segment ∈ Text.fields '/' (urlPath file root).toList,
      segment ≠ indexSegment ∧ translateSegment segment = some segment) ∧
    (stripExtension (urlPath file root).toList = (urlPath file root).toList →
      urlPath (urlPath file root) "" = urlPath file root) := by
  have again := urlPath_urlPath file root
  obtain ⟨parts, canonical, equal⟩ := exists_urlPath_eq file root
  have isRoot : urlPath file root = "/" ↔ parts = [] := by
    rw [← ofSegments_eq_root_iff canonical, ← equal, ← String.toList_inj]
    rfl
  rw [equal] at again ⊢
  refine ⟨?_, ⟨?_, ?_⟩, ?_, not_mem_ofSegments canonical, ?_, ?_⟩
  · rw [ofSegments_eq]
    rfl
  · intro ends
    by_contra other
    obtain ⟨front, whole⟩ := List.getLast?_eq_some_iff.1 ends
    obtain ⟨c, others, -, nothing⟩ :=
      exists_eq_cons_of_ofSegments_eq (isRoot.not.1 other) canonical whole
    cases nothing
  · intro root
    rw [isRoot.1 root]
    rfl
  · rintro ⟨front, behind, whole⟩
    rw [List.append_assoc] at whole
    by_cases empty : parts = []
    · -- The root is a single slash.
      have length := congrArg List.length whole
      simp [empty, ofSegments] at length
      omega
    · obtain ⟨c, others, other, equal⟩ :=
        exists_eq_cons_of_ofSegments_eq empty canonical whole.symm
      exact other (List.cons.inj equal).1.symm
  · intro segment member
    rcases mem_fields_ofSegments canonical member with rfl | member
    · exact ⟨by decide, rfl⟩
    · have settled := (canonical segment member).settled
      refine ⟨?_, settled⟩
      rintro rfl
      cases settled
  · intro kept
    rw [again, kept, segments_ofSegments canonical, ← equal, String.ofList_toList]

/-- Empty brackets give segments of their marks alone, which stay when they are converted again. -/
theorem urlPath_canonical_brackets :
    stripExtension (urlPath "C:\\app\\[]\\.\\[...]\\index.tsx" "C:\\app\\").toList =
        (urlPath "C:\\app\\[]\\.\\[...]\\index.tsx" "C:\\app\\").toList ∧
      urlPath "C:\\app\\[]\\.\\[...]\\index.tsx" "C:\\app\\" = "/:/*" ∧
      urlPath "/:/*" "" = "/:/*" := by
  have converted : urlPath "C:\\app\\[]\\.\\[...]\\index.tsx" "C:\\app\\" = "/:/*" := by
    decide +kernel
  have kept : stripExtension "/:/*".toList = "/:/*".toList := by decide
  have again := (urlPath_canonical "C:\\app\\[]\\.\\[...]\\index.tsx" "C:\\app\\").2.2.2.2.2
  rw [converted] at again
  exact ⟨by rw [converted, kept], converted, again kept⟩

end UrlPath

end FileRoutes
