import FileRoutes.Proofs.Analysis.Directory
import FileRoutes.Proofs.Text.Search
import FileRoutes.Proofs.UrlPath.Below

/-! # Inferred roots

The routes root of a file that is looked at on its own is guessed from its text: it ends behind the
first place of a marker (`inferRoot_of_standsFirst`), or else is the directory of the file
(`pathOf_inferRoot_of_unmarked`). Conversion compares components, and not texts. The two views
coincide: a marker ends in a slash, so that a text which is cut behind it is cut between components,
and its letters keep that slash apart from those of an anchor (`ofString_marked`). So a file goes
down from its inferred root (`exists_pathOf_eq_descend_inferRoot`), and is served there as in the
analysis of the directory that the marker names (`inferRoot_agrees`). Markers are looked for when
backslashes count as slashes already (`inferRoot_backslashes`). -/

namespace FileRoutes.UrlPath

/-! ## Behind a marker -/

/-- A marker ends in a slash, and has more than slashes in front of that. -/
theorem dropLast_concat_of_mem_rootMarkers :
    ∀ marker ∈ rootMarkers, marker.dropLast ++ ['/'] = marker ∧ 'r' ∈ marker.dropLast := by
  decide

section Marked

variable {file : String} {marker front rest : List Char}

/-- **A text that is cut behind a marker** is cut between components. -/
theorem ofString_marked (member : marker ∈ rootMarkers) (front rest : List Char) :
    Path.ofString (String.ofList (front ++ marker ++ rest)) =
      (Path.ofString (String.ofList (front ++ marker.dropLast))).descend
        (Path.ofString (String.ofList rest)).names := by
  obtain ⟨ends, letter⟩ := dropLast_concat_of_mem_rootMarkers marker member
  -- A letter of the marker stands in front of the cut, so that no anchor is cut.
  have settled : front ++ marker.dropLast ∉ [[], ['/'], ['/', '/']] := by
    intro short
    have letterless : ∀ text ∈ [[], ['/'], ['/', '/']], 'r' ∉ text := by decide
    exact letterless _ short (List.mem_append_right front letter)
  have text : String.ofList (front ++ marker ++ rest) =
      String.ofList (front ++ marker.dropLast) ++ "/" ++ String.ofList rest := by
    rw [← String.toList_inj, ← ends]
    simp
  rw [text, Path.ofString_append_slash (by rwa [String.toList_ofList])]

/-- **A file goes down from the end of a marker** along the components behind it. -/
theorem pathOf_eq_descend_marked (member : marker ∈ rootMarkers)
    (whole : slashed file.toList = front ++ marker ++ rest) :
    pathOf file = (pathOf (String.ofList (front ++ marker))).descend
      (pathOf (String.ofList rest)).names := by
  have forward : '\\' ∉ front ++ marker ++ rest := whole ▸ not_mem_slashed _
  have forwardRoot : '\\' ∉ front ++ marker := fun inside => forward (List.mem_append_left rest inside)
  have forwardRest : '\\' ∉ rest := fun inside => forward (List.mem_append_right _ inside)
  -- The root is the text that is cut behind the marker with nothing following.
  have root : Path.ofString (String.ofList (front ++ marker)) =
      Path.ofString (String.ofList (front ++ marker.dropLast)) := by
    have cut := ofString_marked member front []
    have nothing : (Path.ofString (String.ofList [])).names = [] := by decide
    rwa [List.append_nil, nothing, Path.descend_nil] at cut
  simp only [pathOf, whole, String.toList_ofList, slashed_eq_self forwardRoot,
    slashed_eq_self forwardRest, root, ofString_marked member]

/-- **The inferred root ends with the first marker** that stands in the file, at its first place. -/
theorem inferRoot_of_standsFirst {earlier later : List (List Char)}
    (order : rootMarkers = earlier ++ marker :: later)
    (absent : ∀ other ∈ earlier, ¬ other <:+: slashed file.toList)
    (whole : slashed file.toList = front ++ marker ++ rest)
    (first : Text.StandsFirst front marker rest) :
    inferRoot file = String.ofList (front ++ marker) := by
  have found : rootMarkers.findSome? (Text.through? · (slashed file.toList)) =
      some (front ++ marker) :=
    List.findSome?_eq_some_iff.2 ⟨earlier, marker, later, order,
      whole ▸ Text.through?_eq_some_iff.2 first,
      fun other member => Text.through?_eq_none_iff.2 (absent other member)⟩
  rw [inferRoot]
  simp only [found]

/-- **A file behind a marker** is served below its inferred root as below none. -/
theorem urlPath_inferRoot_of_standsFirst {earlier later : List (List Char)}
    (order : rootMarkers = earlier ++ marker :: later)
    (absent : ∀ other ∈ earlier, ¬ other <:+: slashed file.toList)
    (whole : slashed file.toList = front ++ marker ++ rest)
    (first : Text.StandsFirst front marker rest) (relative : rest.head? ≠ some '/') :
    urlPath file (inferRoot file) = urlPath (String.ofList rest) "" := by
  have member : marker ∈ rootMarkers := by simp [order]
  have forward : '\\' ∉ rest := fun inside =>
    not_mem_slashed file.toList (whole ▸ List.mem_append_right _ inside)
  rw [inferRoot_of_standsFirst order absent whole first]
  refine urlPath_eq_of_descend (pathOf_eq_descend_marked member whole) ?_
  rwa [anchor_pathOf_eq_relative_iff, String.toList_ofList, slashed_eq_self forward]

end Marked

/-! ## The directory of a file -/

section Unmarked

variable {file : String}

/-- Whether a marker decides the inferred root. -/
theorem inferRoot_cases (file : String) :
    (∃ marker ∈ rootMarkers, ∃ front rest, slashed file.toList = front ++ marker ++ rest ∧
      inferRoot file = String.ofList (front ++ marker)) ∨
    ∀ marker ∈ rootMarkers, ¬ marker <:+: slashed file.toList := by
  cases found : rootMarkers.findSome? (Text.through? · (slashed file.toList)) with
  | none =>
    refine .inr fun marker member => Text.through?_eq_none_iff.1 ?_
    exact List.findSome?_eq_none_iff.1 found marker member
  | some root =>
    obtain ⟨marker, member, searched⟩ := List.exists_of_findSome?_eq_some found
    obtain ⟨front, rest, whole, rfl, -⟩ := Text.exists_standsFirst_of_through? searched
    refine .inl ⟨marker, member, front, rest, whole, ?_⟩
    rw [inferRoot]
    simp only [found]

/-- **Without a marker the inferred root is the directory of the file.** -/
theorem pathOf_inferRoot_of_unmarked
    (unmarked : ∀ marker ∈ rootMarkers, ¬ marker <:+: slashed file.toList) :
    pathOf (inferRoot file) = (pathOf file).parent := by
  have none : rootMarkers.findSome? (Text.through? · (slashed file.toList)) = none :=
    List.findSome?_eq_none_iff.2 fun marker member =>
      Text.through?_eq_none_iff.2 (unmarked marker member)
  have inferred : inferRoot file =
      if (pathOf file).parent = ⟨.relative, []⟩ then "" else (pathOf file).parent.text := by
    rw [inferRoot]
    simp only [none]
    rfl
  rw [inferred]
  split
  next here =>
    rw [here]
    decide
  next =>
    -- The names of the directory are some of those of the file.
    refine pathOf_text (fun name member => ?_) fun name member => ?_
    · exact isNormal_pathOf file name (Path.mem_of_mem_parent member)
    · exact not_mem_of_mem_names_pathOf (Path.mem_of_mem_parent member)

/-- **A file goes down from its inferred root.** -/
theorem exists_pathOf_eq_descend_inferRoot (file : String) :
    ∃ names, pathOf file = (pathOf (inferRoot file)).descend names := by
  rcases inferRoot_cases file with ⟨marker, member, front, rest, whole, inferred⟩ | unmarked
  · exact ⟨_, inferred ▸ pathOf_eq_descend_marked member whole⟩
  · refine ⟨(pathOf file).names.getLast?.toList, ?_⟩
    rw [pathOf_inferRoot_of_unmarked unmarked, Path.descend_parent]

/-- The **last component** of a text in which backslashes count as slashes; the empty text when there
is none. -/
def lastComponent (file : String) : String :=
  (pathOf file).names.getLast?.getD ""

/-- The last component is a path of its own. -/
theorem pathOf_lastComponent (file : String) :
    pathOf (lastComponent file) = ⟨.relative, (pathOf file).names.getLast?.toList⟩ := by
  unfold lastComponent
  cases last : (pathOf file).names.getLast? with
  | none => decide
  | some name =>
    have member := List.mem_of_getLast? last
    have can := isNormal_pathOf file name member
    -- A name is the text of the relative path that has no other names.
    have something : Anchor.relative.chars ++ Path.joinNames [name] ≠ [] :=
      fun nothing => can.nonempty (String.toList_eq_nil_iff.1 nothing)
    have text : (Path.mk .relative [name]).text = name := by
      rw [Path.text_eq_ofList something]
      exact String.ofList_toList
    have back : pathOf (Path.mk .relative [name]).text = ⟨.relative, [name]⟩ :=
      pathOf_text (by simpa [Path.IsNormal] using can)
        (by simpa using not_mem_of_mem_names_pathOf member)
    rwa [text] at back

/-- **Without a marker a file is served as its last component alone.** -/
theorem urlPath_inferRoot_of_unmarked
    (unmarked : ∀ marker ∈ rootMarkers, ¬ marker <:+: slashed file.toList) :
    urlPath file (inferRoot file) = urlPath (lastComponent file) "" := by
  have alone := pathOf_lastComponent file
  refine urlPath_eq_of_descend ?_ (by rw [alone])
  rw [pathOf_inferRoot_of_unmarked unmarked, alone, Path.descend_parent]

end Unmarked

/-! ## A file alone and in its directory -/

/-- A file is **served alike** alone and in the analysis of a directory: below its inferred root, in
the directory and in the records of the directory it has the URL path of a part of it. -/
structure IsServedAlike (file directory part : String) : Prop where
  /-- Alone, it is served below its inferred root. -/
  inferred : urlPath file (inferRoot file) = urlPath part ""
  /-- It is served so in the directory. -/
  below : urlPath file directory = urlPath part ""
  /-- Its record in an analysis of the directory says so. -/
  analyzed : ∀ environment fs reader workers routes,
    analyzeDirectory environment fs reader workers directory = .ok routes →
    ∀ route ∈ routes, route.filePath = (Path.ofString file).text → route.urlPath = urlPath part ""

/-- **A file behind a marker is served alike** in the directory that the marker names, when it stands
behind the first place of the marker and no earlier marker stands in it. -/
theorem isServedAlike_of_standsFirst {file directory part : String} {front marker : List Char}
    {earlier later : List (List Char)} (order : rootMarkers = earlier ++ marker :: later)
    (named : directory.toList = front ++ marker.dropLast)
    (whole : file.toList = front ++ marker ++ part.toList) (forward : '\\' ∉ file.toList)
    (relative : part.toList.head? ≠ some '/')
    (absent : ∀ other ∈ earlier, ¬ other <:+: file.toList)
    (first : Text.StandsFirst front marker part.toList) : IsServedAlike file directory part := by
  have member : marker ∈ rootMarkers := by simp [order]
  have same := slashed_eq_self forward
  have forwardPart : '\\' ∉ part.toList := fun inside =>
    forward (whole ▸ List.mem_append_right _ inside)
  have forwardDirectory : '\\' ∉ directory.toList := by
    have shorter : front ++ marker.dropLast <+: front ++ marker :=
      (List.prefix_append_right_inj front).2 (List.dropLast_prefix marker)
    intro inside
    exact forward (whole ▸ List.mem_append_left _ (shorter.subset (named ▸ inside)))
  have inferred := urlPath_inferRoot_of_standsFirst order (by rwa [same]) (same.trans whole) first
    relative
  rw [String.ofList_toList] at inferred
  have anchor : (pathOf part).anchor = .relative := by
    rwa [anchor_pathOf_eq_relative_iff, slashed_eq_self forwardPart]
  have descends : pathOf file = (pathOf directory).descend (pathOf part).names := by
    have cut := ofString_marked member front part.toList
    rw [← whole, ← named] at cut
    rw [pathOf_of_forward forward, pathOf_of_forward forwardDirectory, pathOf_of_forward forwardPart]
    simpa only [String.ofList_toList] using cut
  refine ⟨inferred, urlPath_eq_of_descend descends anchor, ?_⟩
  intro environment fs reader workers routes analyzed route member' path
  obtain ⟨files, -, listed, -, rfl⟩ := exists_file_of_mem_analyzeDirectory analyzed member'
  obtain ⟨filePath, url⟩ := paths_analyzeFile fs reader listed directory
  -- The path of the record is another spelling of the file.
  have spelled : pathOf listed = pathOf file := by
    rw [← filePath, path, ← pathOf_of_forward forward, pathOf_text_pathOf]
  rw [url]
  exact urlPath_eq_of_descend (spelled.trans descends) anchor

/-- **Inferred roots agree with directories.** A file goes down from its inferred root along some
names, which are its route. A file behind the first place of `/routes/`, in which backslashes do not
occur and slashes do not follow the marker, is served alike alone and in that directory; and so is
one behind the first place of `/routes-admin/`, if `/routes/` does not stand in it. A file in which,
when backslashes count as slashes, neither marker stands is served as its last component alone. -/
theorem inferRoot_agrees :
    (∀ file : String, ∃ names, pathOf file = (pathOf (inferRoot file)).descend names ∧
      relativeRoute file (inferRoot file) = Path.joinNames names) ∧
    (∀ front part : String, '\\' ∉ front.toList → '\\' ∉ part.toList →
      part.toList.head? ≠ some '/' →
      Text.StandsFirst front.toList "/routes/".toList part.toList →
      IsServedAlike (front ++ "/routes/" ++ part) (front ++ "/routes") part) ∧
    (∀ front part : String, '\\' ∉ front.toList → '\\' ∉ part.toList →
      part.toList.head? ≠ some '/' →
      Text.StandsFirst front.toList "/routes-admin/".toList part.toList →
      ¬ "/routes/".toList <:+: (front ++ "/routes-admin/" ++ part).toList →
      IsServedAlike (front ++ "/routes-admin/" ++ part) (front ++ "/routes-admin") part) ∧
    ∀ file : String, (∀ marker ∈ rootMarkers, ¬ marker <:+: slashed file.toList) →
      urlPath file (inferRoot file) = urlPath (lastComponent file) "" := by
  refine ⟨fun file => ?_, ?_, ?_, fun file => urlPath_inferRoot_of_unmarked⟩
  · obtain ⟨names, descends⟩ := exists_pathOf_eq_descend_inferRoot file
    exact ⟨names, descends, relativeRoute_of_descend descends⟩
  · intro front part forward forward' relative first
    have order : rootMarkers = [] ++ "/routes/".toList :: ["/routes-admin/".toList] := by decide
    refine isServedAlike_of_standsFirst order ?_ ?_ ?_ relative (by simp) first
    · simp
    · simp
    · simp [forward, forward']
  · intro front part forward forward' relative first absent
    -- This marker is looked for only where the other one is not found.
    have order : rootMarkers = ["/routes/".toList] ++ "/routes-admin/".toList :: [] := by decide
    refine isServedAlike_of_standsFirst order ?_ ?_ ?_ relative (by simpa using absent) first
    · simp
    · simp
    · simp [forward, forward']

/-- A marker behind the first one, a marker below two slashes, and a file without a marker. -/
theorem inferRoot_agrees_markers :
    Text.StandsFirst "/srv".toList "/routes/".toList "routes/[id].ts".toList ∧
      IsServedAlike ("/srv" ++ "/routes/" ++ "routes/[id].ts") ("/srv" ++ "/routes")
        "routes/[id].ts" ∧
      urlPath "routes/[id].ts" "" = "/routes/:id" ∧
      Text.StandsFirst "/".toList "/routes-admin/".toList "users.tsx".toList ∧
      ¬ "/routes/".toList <:+: ("/" ++ "/routes-admin/" ++ "users.tsx").toList ∧
      IsServedAlike ("/" ++ "/routes-admin/" ++ "users.tsx") ("/" ++ "/routes-admin") "users.tsx" ∧
      (∀ marker ∈ rootMarkers, ¬ marker <:+: slashed "..\\pages\\home.ts".toList) ∧
      urlPath "..\\pages\\home.ts" (inferRoot "..\\pages\\home.ts") = "/home" := by
  obtain ⟨-, routes, admin, unmarked⟩ := inferRoot_agrees
  have first : Text.StandsFirst "/srv".toList "/routes/".toList "routes/[id].ts".toList := by decide
  have first' : Text.StandsFirst "/".toList "/routes-admin/".toList "users.tsx".toList := by decide
  have absent : ¬ "/routes/".toList <:+: ("/" ++ "/routes-admin/" ++ "users.tsx").toList := by
    decide
  have none : ∀ marker ∈ rootMarkers, ¬ marker <:+: slashed "..\\pages\\home.ts".toList := by decide
  refine ⟨first, routes "/srv" "routes/[id].ts" (by decide) (by decide) (by decide) first,
    by decide +kernel, first', absent,
    admin "/" "users.tsx" (by decide) (by decide) (by decide) first' absent, none, ?_⟩
  rw [unmarked "..\\pages\\home.ts" none]
  decide +kernel

/-- **A marker that is spelled with backslashes counts**: the file is not served as its last
component alone, though no marker stands in its text as it is given. -/
theorem inferRoot_backslashes :
    (∀ marker ∈ rootMarkers, ¬ marker <:+: "x\\routes\\a\\b.ts".toList) ∧
      inferRoot "x\\routes\\a\\b.ts" = "x/routes/" ∧
      urlPath "x\\routes\\a\\b.ts" (inferRoot "x\\routes\\a\\b.ts") = "/a/b" ∧
      urlPath (lastComponent "x\\routes\\a\\b.ts") "" = "/b" ∧
      ¬ ∀ file : String, (∀ marker ∈ rootMarkers, ¬ marker <:+: file.toList) →
        urlPath file (inferRoot file) = urlPath (lastComponent file) "" := by
  have absent : ∀ marker ∈ rootMarkers, ¬ marker <:+: "x\\routes\\a\\b.ts".toList := by decide
  have alone : urlPath "x\\routes\\a\\b.ts" (inferRoot "x\\routes\\a\\b.ts") = "/a/b" := by
    decide +kernel
  have last : urlPath (lastComponent "x\\routes\\a\\b.ts") "" = "/b" := by decide +kernel
  refine ⟨absent, by decide +kernel, alone, last, fun served => ?_⟩
  have same := served "x\\routes\\a\\b.ts" absent
  rw [alone, last] at same
  exact absurd same (by decide)

end FileRoutes.UrlPath
