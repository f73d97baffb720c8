import FileRoutes.Proofs.UrlPath.Canonical

/-! # The part below the root

A URL path depends on the part of a file that lies below its routes root, and on nothing else
(`urlPath_below_root`). Root and file are compared by anchor and names (`pathOf`,
`Path.below?_eq_some_iff`), so that a file behind a root and a slash goes down from the root along
its own **components** (`pathOf_append_slash`), however the two are spelled. Of the components, only
the last one loses its extension (`stripExtension_joinFields`). A root that is empty, or all of it one
or two slashes, is another matter, since a slash behind it makes another anchor. -/

namespace FileRoutes

/-! ## Paths in two parts -/

/-- **A slash behind a text leaves its anchor alone**, unless the text is itself an anchor that a
further slash changes. -/
theorem Anchor.ofChars_append_slash {text : List Char} (settled : text ∉ [[], ['/'], ['/', '/']])
    (rest : List Char) : ofChars (text ++ '/' :: rest) = ofChars text := by
  -- The anchor is decided by the first three characters.
  rcases text with _ | ⟨c, _ | ⟨d, _ | ⟨e, others⟩⟩⟩
  · simp at settled
  · have other : c ≠ '/' := by simpa using settled
    simp [ofChars, other]
  · by_cases slash : c = '/'
    · have other : d ≠ '/' := by simpa [slash] using settled
      simp [ofChars, slash, other]
    · simp [ofChars, slash]
  · by_cases slash : c = '/'
    · by_cases slash' : d = '/'
      · by_cases slash'' : e = '/' <;> simp [ofChars, slash, slash', slash'']
      · simp [ofChars, slash, slash']
    · simp [ofChars, slash]

namespace Path

/-- **A path behind a root and a slash** goes down from the root. -/
theorem ofString_append_slash {root : String} (settled : root.toList ∉ [[], ['/'], ['/', '/']])
    (rest : String) :
    ofString (root ++ "/" ++ rest) = (ofString root).descend (ofString rest).names := by
  have text : (root ++ "/" ++ rest).toList = root.toList ++ '/' :: rest.toList := by simp
  simp only [ofString, descend, text, Anchor.ofChars_append_slash settled,
    Text.fields_append_separator, List.filter_append, List.map_append]

end Path

namespace UrlPath

/-! ## Components -/

/-- The **components** of a text, in which backslashes count as slashes: what stands between slashes
and is neither empty nor a single dot. -/
def components (text : String) : List (List Char) :=
  (Text.fields '/' (slashed text.toList)).filter Path.isName

/-- The components are the names of the path. -/
theorem map_toList_names_pathOf (text : String) :
    (pathOf text).names.map String.toList = components text := by
  have each : String.toList ∘ String.ofList = id := by
    funext chars
    exact String.toList_ofList
  rw [pathOf, Path.ofString, String.toList_ofList, List.map_map, each, List.map_id, components]

/-- No component holds a slash. -/
theorem not_mem_of_mem_components {text : String} {part : List Char}
    (member : part ∈ components text) : '/' ∉ part :=
  Text.not_mem_of_mem_fields (List.mem_filter.1 member).1

/-- **A text behind a root and a slash** goes down from the root along its components. -/
theorem pathOf_append_slash {root : String} (settled : slashed root.toList ∉ [[], ['/'], ['/', '/']])
    (rest : String) : pathOf (root ++ "/" ++ rest) = (pathOf root).descend (pathOf rest).names := by
  have text : String.ofList (slashed (root ++ "/" ++ rest).toList) =
      String.ofList (slashed root.toList) ++ "/" ++ String.ofList (slashed rest.toList) := by
    rw [← String.toList_inj]
    simp [slashed]
  rw [pathOf, text, Path.ofString_append_slash (by rwa [String.toList_ofList])]
  rfl

/-- The path of a text is normal. -/
theorem isNormal_pathOf (text : String) : (pathOf text).IsNormal :=
  Path.isNormal_ofString _

/-- **The text of a normal path without backslashes reads as that path.** -/
theorem pathOf_text {path : Path} (normal : path.IsNormal)
    (forward : ∀ name ∈ path.names, '\\' ∉ name.toList) : pathOf path.text = path := by
  have none : '\\' ∉ path.text.toList := by
    rw [Path.mem_text_iff (by decide) (by decide)]
    rintro ⟨name, member, inside⟩
    exact forward name member inside
  rw [pathOf_of_forward none, Path.ofString_text normal]

/-- The text of the path of a text is another spelling of it. -/
theorem pathOf_text_pathOf (text : String) : pathOf (pathOf text).text = pathOf text :=
  pathOf_text (isNormal_pathOf text) fun _ => not_mem_of_mem_names_pathOf

/-- The path of a text is relative when the text does not begin with a slash. -/
theorem anchor_pathOf_eq_relative_iff {text : String} :
    (pathOf text).anchor = .relative ↔ (slashed text.toList).head? ≠ some '/' := by
  rw [pathOf, Path.ofString, String.toList_ofList]
  exact Anchor.ofChars_eq_relative_iff

/-- A relative path goes down from the working directory. -/
theorem pathOf_eq_descend_empty {text : String} (relative : (pathOf text).anchor = .relative) :
    pathOf text = (pathOf "").descend (pathOf text).names := by
  have nowhere : pathOf "" = ⟨.relative, []⟩ := by decide
  rw [nowhere, Path.descend, List.nil_append, ← relative]

/-! ## Extensions -/

/-- Behind a slash, the end of a text loses its extension whatever stands in front. -/
theorem stripExtension_append_slash (front last : List Char) :
    stripExtension (front ++ '/' :: last) = front ++ '/' :: stripExtension last := by
  -- The last part may lose nothing; it is then to be shown that the whole text does not either.
  rcases stripExtension_cases last with ⟨same, kept⟩ | ⟨extension, member, whole⟩
  · rw [same]
    rcases stripExtension_cases (front ++ '/' :: last) with ⟨same', -⟩ | ⟨extension, member, whole⟩
    · exact same'
    · -- An extension at the end of the whole text holds no slash, and so ends the last part.
      have slash : '/' ∉ extension := by
        simp only [extensions, List.mem_cons, List.not_mem_nil, or_false] at member
        rcases member with rfl | rfl
        all_goals decide
      have ends : extension <:+ front ++ '/' :: last := ⟨_, whole.symm⟩
      rcases List.suffix_or_suffix_of_suffix ends (List.suffix_append front ('/' :: last)) with
        short | long
      · rcases List.suffix_cons_iff.1 short with rfl | short
        · exact absurd List.mem_cons_self slash
        · exact absurd short (kept extension member)
      · exact absurd (long.subset List.mem_cons_self) slash
  · have ends : front ++ '/' :: last = (front ++ '/' :: stripExtension last) ++ extension := by
      rw [List.append_assoc, List.cons_append, ← whole]
    rw [ends, stripExtension_append member]

/-- **Of joined parts, the last one loses its extension.** -/
theorem stripExtension_joinFields (parts : List (List Char)) :
    stripExtension (Text.joinFields '/' parts) =
      Text.joinFields '/' (parts.modifyLast stripExtension) := by
  fun_induction Text.joinFields '/' parts with
  | case1 => rfl
  | case2 field =>
    rw [← List.nil_append [field], List.modifyLast_concat]
    rfl
  | case3 field others more ih =>
    -- With more than one part, the last one is among those behind the first slash.
    have later : (field :: others).modifyLast stripExtension =
        field :: others.modifyLast stripExtension :=
      List.modifyLast_append_of_right_ne_nil stripExtension [field] others fun nothing => more nothing
    have some : others.modifyLast stripExtension ≠ [] := by
      obtain ⟨front, last, rfl⟩ := (List.eq_nil_or_concat' others).resolve_left more
      simp [List.modifyLast_concat]
    rw [stripExtension_append_slash, ih, later, Text.joinFields]
    exact some

/-- Parts without slashes stay so when the last one loses its extension. -/
theorem not_mem_of_mem_modifyLast {parts : List (List Char)} (whole : ∀ part ∈ parts, '/' ∉ part) :
    ∀ part ∈ parts.modifyLast stripExtension, '/' ∉ part := by
  rcases List.eq_nil_or_concat' parts with rfl | ⟨front, last, rfl⟩
  · exact whole
  · intro part member inside
    rw [List.modifyLast_concat] at member
    rcases List.mem_append.1 member with before | only
    · exact whole part (List.mem_append_left [last] before) inside
    · obtain rfl := List.mem_singleton.1 only
      exact whole last (by simp) (mem_of_mem_stripExtension inside)

/-- The segments of joined parts are what the parts are translated to. -/
theorem segments_joinFields {parts : List (List Char)} (whole : ∀ part ∈ parts, '/' ∉ part) :
    segments (Text.joinFields '/' parts) =
      (parts.filter (!·.isEmpty)).filterMap translateSegment := by
  by_cases empty : parts = []
  · subst empty
    rfl
  · rw [segments, Text.fields_joinFields empty whole]

/-! ## URL paths -/

/-- The **URL path of components**: the last one loses its extension, empty ones are left out, and
the others are translated, each behind a slash. -/
def ofComponents (parts : List (List Char)) : String :=
  String.ofList ('/' :: Text.joinFields '/'
    (((parts.modifyLast stripExtension).filter (!·.isEmpty)).filterMap translateSegment))

/-- **The URL path of a file below the root** is that of the components in between. -/
theorem urlPath_of_descend {file root rest : String}
    (below : pathOf file = (pathOf root).descend (pathOf rest).names) :
    urlPath file root = ofComponents (components rest) := by
  have whole : ∀ part ∈ components rest, '/' ∉ part := fun part => not_mem_of_mem_components
  rw [urlPath, relativeRoute_of_descend below, Path.joinNames, map_toList_names_pathOf,
    stripExtension_joinFields, segments_joinFields (not_mem_of_mem_modifyLast whole), ofSegments_eq,
    ofComponents]

/-- **Below a root a file is served as below none.** -/
theorem urlPath_eq_of_descend {file root rest : String}
    (below : pathOf file = (pathOf root).descend (pathOf rest).names)
    (relative : (pathOf rest).anchor = .relative) : urlPath file root = urlPath rest "" := by
  rw [urlPath_of_descend below, urlPath_of_descend (pathOf_eq_descend_empty relative)]

/-- **A URL path depends on the part below the root only.** Let backslashes count as slashes, and let
a root be neither empty nor one or two slashes alone. A file behind the root and a slash, if it does
not begin with a slash itself, has the URL path that it has below no root: the one of its components.
For any file and root, the route is made of the names of the file behind those of the root, where
these are the first ones behind the same anchor, and otherwise it is the text of the file. -/
theorem urlPath_below_root :
    (∀ root file : String, slashed root.toList ∉ [[], ['/'], ['/', '/']] →
      (slashed file.toList).head? ≠ some '/' →
      urlPath (root ++ "/" ++ file) root = urlPath file "" ∧
      urlPath file "" = ofComponents (components file)) ∧
    ∀ file root : String,
      (∀ names, pathOf file = (pathOf root).descend names →
        relativeRoute file root = Path.joinNames names) ∧
      ((∀ names, pathOf file ≠ (pathOf root).descend names) →
        relativeRoute file root = slashed file.toList) := by
  refine ⟨fun root file settled relative => ?_, fun file root => ⟨?_, ?_⟩⟩
  · have anchor := anchor_pathOf_eq_relative_iff.2 relative
    exact ⟨urlPath_eq_of_descend (pathOf_append_slash settled file) anchor,
      urlPath_of_descend (pathOf_eq_descend_empty anchor)⟩
  · exact fun names => relativeRoute_of_descend
  · exact relativeRoute_of_not_below

/-- A root that ends in a backslash, and a file with a dot, a name that is only an extension and
slashes in a row, which has the route of an `index`. -/
theorem urlPath_below_root_spellings :
    slashed "src\\routes\\".toList ∉ [[], ['/'], ['/', '/']] ∧
      (slashed ".\\users//[id]/.ts".toList).head? ≠ some '/' ∧
      urlPath ("src\\routes\\" ++ "/" ++ ".\\users//[id]/.ts") "src\\routes\\" =
        urlPath ".\\users//[id]/.ts" "" ∧
      urlPath ".\\users//[id]/.ts" "" = "/users/:id" ∧
      relativeRoute "src/routes/./a.ts" ".//src\\routes" = "a.ts".toList ∧
      relativeRoute "//src/a.ts" "/src" = "//src/a.ts".toList := by
  have settled : slashed "src\\routes\\".toList ∉ [[], ['/'], ['/', '/']] := by decide
  have relative : (slashed ".\\users//[id]/.ts".toList).head? ≠ some '/' := by decide
  obtain ⟨behind, route⟩ := urlPath_below_root
  obtain ⟨same, -⟩ := behind "src\\routes\\" ".\\users//[id]/.ts" settled relative
  have below : relativeRoute "src/routes/./a.ts" ".//src\\routes" = Path.joinNames ["a.ts"] :=
    (route "src/routes/./a.ts" ".//src\\routes").1 ["a.ts"] (by decide +kernel)
  have outside : relativeRoute "//src/a.ts" "/src" = slashed "//src/a.ts".toList := by
    refine (route "//src/a.ts" "/src").2 fun names descends => ?_
    have anchor : (pathOf "//src/a.ts").anchor = (pathOf "/src").anchor := by
      rw [descends]
      rfl
    exact absurd anchor (by decide)
  exact ⟨settled, relative, same, by decide +kernel, below, outside⟩

end UrlPath

end FileRoutes
