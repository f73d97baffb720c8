import FileRoutes.Path

/-! # Reading paths back

Fields that are joined are found again (`Text.fields_joinFields`), so that the text of a path reads
as that path (`Path.ofString_text`), provided that its names are such as a path can have
(`Path.IsNormal`). Every path that is read has such names (`Path.isNormal_ofString`). A path that
goes down from another one (`Path.descend`) has its last name at the end of its text
(`Path.exists_text_descend_concat`). -/

namespace FileRoutes

namespace Text

variable {separator : Char} {field text : List Char}

/-- A text without separators is a single field. -/
theorem fields_eq_singleton (whole : separator ∉ text) : fields separator text = [text] := by
  induction text with
  | nil => rfl
  | cons c rest ih =>
    have apart := List.ne_and_not_mem_of_not_mem_cons whole
    rw [fields, if_neg apart.1.symm, ih apart.2]

/-- **A separator parts the fields** in front of it from those behind it. -/
theorem fields_append_separator (separator : Char) (front rest : List Char) :
    fields separator (front ++ separator :: rest) =
      fields separator front ++ fields separator rest := by
  induction front with
  | nil => simp [fields]
  | cons c front ih =>
    rw [List.cons_append, fields, fields, ih]
    split
    · rfl
    · -- The character goes on the first field, which is one of those in front.
      have nonempty := fields_ne_nil separator front
      cases parts : fields separator front with
      | nil => exact absurd parts nonempty
      | cons field others => rfl

/-- A text without separators goes in front of the first field. -/
theorem fields_append_of_not_mem (whole : separator ∉ field) (rest : List Char) :
    fields separator (field ++ rest) = (fields separator rest).modifyHead (field ++ ·) := by
  obtain ⟨first, others, parts⟩ := List.exists_cons_of_ne_nil (fields_ne_nil separator rest)
  induction field with
  | nil =>
    rw [List.nil_append, parts]
    rfl
  | cons c field ih =>
    have apart := List.ne_and_not_mem_of_not_mem_cons whole
    rw [List.cons_append, fields, if_neg apart.1.symm, ih apart.2, parts]
    rfl

/-- The first field ends at the first separator. -/
theorem fields_append_cons (whole : separator ∉ field) (rest : List Char) :
    fields separator (field ++ separator :: rest) = field :: fields separator rest := by
  rw [fields_append_separator, fields_eq_singleton whole, List.singleton_append]

/-- **Fields that are joined are found again.** -/
theorem fields_joinFields {parts : List (List Char)} (nonempty : parts ≠ [])
    (whole : ∀ part ∈ parts, separator ∉ part) :
    fields separator (joinFields separator parts) = parts := by
  induction parts with
  | nil => exact absurd rfl nonempty
  | cons part others ih =>
    have first := whole part List.mem_cons_self
    cases others with
    | nil => exact fields_eq_singleton first
    | cons next others =>
      have rest := ih (List.cons_ne_nil next others) fun part member =>
        whole part (List.mem_cons_of_mem _ member)
      rw [joinFields, fields_append_cons first, rest]
      exact List.cons_ne_nil next others

/-- No field holds a separator. -/
theorem not_mem_of_mem_fields (member : field ∈ fields separator text) : separator ∉ field := by
  induction text generalizing field with
  | nil =>
    obtain rfl := List.mem_singleton.1 member
    exact List.not_mem_nil
  | cons c rest ih =>
    rw [fields] at member
    split at member
    next =>
      rcases List.mem_cons.1 member with rfl | member
      · exact List.not_mem_nil
      · exact ih member
    next other =>
      split at member
      next =>
        obtain rfl := List.mem_singleton.1 member
        simpa using Ne.symm other
      next first others found =>
        rcases List.mem_cons.1 member with rfl | member
        · have inner : separator ∉ first := ih (by simp [found])
          simp [Ne.symm other, inner]
        · exact ih (by simp [found, member])

/-- Joined fields hold the characters of the fields, and separators. -/
theorem mem_joinFields_iff {c : Char} (other : c ≠ separator) {parts : List (List Char)} :
    c ∈ joinFields separator parts ↔ ∃ part ∈ parts, c ∈ part := by
  fun_induction joinFields separator parts with
  | case1 => simp
  | case2 field => simp
  | case3 field others _ ih => simp [other, ih]

/-- A field holds characters of the text only. -/
theorem mem_of_mem_fields (member : field ∈ fields separator text) {c : Char} (inside : c ∈ field) :
    c ∈ text := by
  have other : c ≠ separator := by
    rintro rfl
    exact not_mem_of_mem_fields member inside
  rw [← joinFields_fields separator text, mem_joinFields_iff other]
  exact ⟨field, member, inside⟩

/-- The last field stands at the end. -/
theorem exists_joinFields_concat (separator : Char) (parts : List (List Char)) :
    ∃ front, ∀ last, joinFields separator (parts ++ [last]) = front ++ last := by
  induction parts with
  | nil => exact ⟨[], fun last => rfl⟩
  | cons part parts ih =>
    obtain ⟨front, joined⟩ := ih
    refine ⟨part ++ separator :: front, fun last => ?_⟩
    have more : parts ++ [last] ≠ [] := by simp
    rw [List.cons_append, joinFields, joined, List.append_assoc, List.cons_append]
    exact more

end Text

/-- A text that can be **a name in a path**. -/
structure IsPathName (name : String) : Prop where
  /-- It is not empty. -/
  nonempty : name ≠ ""
  /-- It is no single dot. -/
  moves : name ≠ "."
  /-- It holds no slash. -/
  whole : '/' ∉ name.toList

/-- A text that can be **the name of a file**, which no double dot is. -/
structure IsFileName (name : String) : Prop extends IsPathName name where
  /-- It is no double dot. -/
  deeper : name ≠ ".."

instance (name : String) : Decidable (IsPathName name) :=
  decidable_of_iff (name ≠ "" ∧ name ≠ "." ∧ '/' ∉ name.toList)
    ⟨fun ⟨nonempty, moves, whole⟩ => ⟨nonempty, moves, whole⟩,
      fun ⟨nonempty, moves, whole⟩ => ⟨nonempty, moves, whole⟩⟩

instance (name : String) : Decidable (IsFileName name) :=
  decidable_of_iff (IsPathName name ∧ name ≠ "..")
    ⟨fun ⟨can, deeper⟩ => ⟨can, deeper⟩, fun ⟨can, deeper⟩ => ⟨can, deeper⟩⟩

/-- A text is relative when it does not begin with a slash. -/
theorem Anchor.ofChars_eq_relative_iff {text : List Char} :
    ofChars text = .relative ↔ text.head? ≠ some '/' := by
  cases text with
  | nil => simp [ofChars]
  | cons c rest =>
    by_cases slash : c = '/'
    · subst slash
      refine iff_of_false ?_ (by simp)
      unfold ofChars
      split <;> simp_all
    · simp [ofChars, slash]

namespace Path

/-- Names that can stand in a path are kept when it is read. -/
theorem isName_toList {name : String} (can : IsPathName name) : isName name.toList = true := by
  have empty : name.toList ≠ [] := fun nothing => can.nonempty (String.toList_eq_nil_iff.1 nothing)
  have dot : name.toList ≠ ['.'] := by
    intro dot
    have same : name.toList = ".".toList := dot
    exact can.moves (String.toList_injective same)
  simp [isName, empty, dot]

/-- A path is **normal** when its names can stand in a path. -/
def IsNormal (path : Path) : Prop := ∀ name ∈ path.names, IsPathName name

/-- **Every path that is read is normal.** -/
theorem isNormal_ofString (text : String) : (ofString text).IsNormal := by
  intro name member
  obtain ⟨field, kept, rfl⟩ := List.mem_map.1 member
  obtain ⟨found, named⟩ := List.mem_filter.1 kept
  simp only [isName, Bool.and_eq_true, Bool.not_eq_true', bne_iff_ne] at named
  refine ⟨?_, ?_, ?_⟩
  · intro empty
    have nothing := congrArg String.toList empty
    simp_all
  · intro dot
    have chars := congrArg String.toList dot
    rw [String.toList_ofList] at chars
    exact named.2 chars
  · rw [String.toList_ofList]
    exact Text.not_mem_of_mem_fields found

/-- A normal path stays so with further names that can stand in a path. -/
theorem IsNormal.append {path : Path} (normal : path.IsNormal) {names : List String}
    (can : ∀ name ∈ names, IsPathName name) : (mk path.anchor (path.names ++ names)).IsNormal := by
  intro name member
  rcases List.mem_append.1 member with member | member
  · exact normal name member
  · exact can name member

/-- An anchor is read in front of anything but a slash. -/
theorem ofChars_append (anchor : Anchor) {c : Char} (other : c ≠ '/') (rest : List Char) :
    Anchor.ofChars (anchor.chars ++ c :: rest) = anchor := by
  cases anchor with
  | relative =>
    show Anchor.ofChars (c :: rest) = .relative
    unfold Anchor.ofChars
    split <;> simp_all
  | root =>
    show Anchor.ofChars ('/' :: c :: rest) = .root
    unfold Anchor.ofChars
    split <;> simp_all
  | doubleRoot =>
    show Anchor.ofChars ('/' :: '/' :: c :: rest) = .doubleRoot
    unfold Anchor.ofChars
    split <;> grind

/-- The names behind an anchor are the names of the text behind it. -/
theorem filter_fields_append (anchor : Anchor) (text : List Char) :
    (Text.fields '/' (anchor.chars ++ text)).filter isName =
      (Text.fields '/' text).filter isName := by
  cases anchor with
  | relative => rfl
  | root | doubleRoot => simp [Anchor.chars, Text.fields, isName]

/-- Joined names begin with the first character of the first one. -/
theorem exists_joinNames_eq_cons {name : String} (can : IsPathName name) (names : List String) :
    ∃ c rest, c ≠ '/' ∧ joinNames (name :: names) = c :: rest := by
  cases chars : name.toList with
  | nil => exact absurd (String.toList_eq_nil_iff.1 chars) can.nonempty
  | cons c rest =>
    have other : c ≠ '/' := by
      rintro rfl
      exact can.whole (by simp [chars])
    cases names with
    | nil => exact ⟨c, rest, other, by simp [joinNames, Text.joinFields, chars]⟩
    | cons next names => exact ⟨c, _, other, by simp [joinNames, Text.joinFields, chars]; rfl⟩

/-- The fields of joined names are the names. -/
theorem filter_fields_joinNames {names : List String} (can : ∀ name ∈ names, IsPathName name) :
    ((Text.fields '/' (joinNames names)).filter isName).map String.ofList = names := by
  cases names with
  | nil => rfl
  | cons name names =>
    have whole : ∀ part ∈ (name :: names).map String.toList, '/' ∉ part := by
      intro part member
      obtain ⟨other, inside, rfl⟩ := List.mem_map.1 member
      exact (can other inside).whole
    have kept : ∀ part ∈ (name :: names).map String.toList, isName part = true := by
      intro part member
      obtain ⟨other, inside, rfl⟩ := List.mem_map.1 member
      exact isName_toList (can other inside)
    have fields : Text.fields '/' (joinNames (name :: names)) = (name :: names).map String.toList :=
      Text.fields_joinFields (List.cons_ne_nil _ _) whole
    rw [fields, List.filter_eq_self.2 kept, List.map_map]
    exact (List.map_congr_left fun _ _ => String.ofList_toList).trans (List.map_id _)

/-- **The text of a normal path reads as that path.** -/
theorem ofString_text {path : Path} (normal : path.IsNormal) : ofString path.text = path := by
  obtain ⟨anchor, names⟩ := path
  have back := filter_fields_joinNames normal
  cases names with
  | nil => cases anchor <;> decide +kernel
  | cons name names =>
    obtain ⟨c, rest, other, joined⟩ := exists_joinNames_eq_cons (normal name List.mem_cons_self) names
    have text : (Path.mk anchor (name :: names)).text =
        String.ofList (anchor.chars ++ c :: rest) := by
      simp only [Path.text, joined]
      cases anchor <;> rfl
    rw [joined] at back
    rw [text, ofString, String.toList_ofList, ofChars_append anchor other, filter_fields_append, back]

/-! ## Going down -/

/-- The path that **goes down** from a path along some names. -/
def descend (path : Path) (names : List String) : Path :=
  { path with names := path.names ++ names }

/-- Without names one stays. -/
@[simp] theorem descend_nil (path : Path) : path.descend [] = path := by
  simp [descend]

/-- The first name leads to a child, and the others go on from there. -/
theorem descend_cons (path : Path) (name : String) (names : List String) :
    path.descend (name :: names) = (path.child name).descend names := by
  simp [descend, child]

/-- What goes down from a path lies below it. -/
theorem below?_descend (path : Path) (names : List String) :
    (path.descend names).below? path = some names := by
  simp [below?, descend]

/-- **What lies below a root** goes down from it. -/
theorem below?_eq_some_iff {path root : Path} {names : List String} :
    path.below? root = some names ↔ path = root.descend names := by
  constructor
  · intro below
    have whole := names_of_below? below
    unfold below? at below
    split at below
    next holds =>
      obtain ⟨anchor, names'⟩ := path
      obtain rfl : anchor = root.anchor := holds.1
      rw [descend, ← whole]
    next => cases below
  · rintro rfl
    exact below?_descend root names

/-- The names of the path without its last one are names of the path. -/
theorem mem_of_mem_parent {path : Path} {name : String} (member : name ∈ path.parent.names) :
    name ∈ path.names :=
  (List.dropLast_sublist path.names).subset member

/-- From the path without its last name one goes down along that name. -/
theorem descend_parent (path : Path) : path.parent.descend path.names.getLast?.toList = path := by
  obtain ⟨anchor, names⟩ := path
  cases last : names.getLast? with
  | none =>
    obtain rfl := List.getLast?_eq_none_iff.1 last
    rfl
  | some name =>
    obtain ⟨front, rfl⟩ := List.getLast?_eq_some_iff.1 last
    simp [parent, descend]

/-- The text of a path is that of its anchor and its names, unless both are empty. -/
theorem text_eq_ofList {path : Path} (something : path.anchor.chars ++ joinNames path.names ≠ []) :
    path.text = String.ofList (path.anchor.chars ++ joinNames path.names) := by
  rw [text]
  split
  next nothing => exact absurd nothing something
  next => rfl

/-- The text of a path holds the characters of its names, beside slashes and dots. -/
theorem mem_text_iff {c : Char} (noSlash : c ≠ '/') (noDot : c ≠ '.') {path : Path} :
    c ∈ path.text.toList ↔ ∃ name ∈ path.names, c ∈ name.toList := by
  have anchor : c ∉ path.anchor.chars := by
    cases path.anchor <;> simp [Anchor.chars, noSlash]
  have joined : c ∈ path.anchor.chars ++ joinNames path.names ↔
      ∃ name ∈ path.names, c ∈ name.toList := by
    rw [List.mem_append, or_iff_right anchor, joinNames, Text.mem_joinFields_iff noSlash]
    constructor
    · rintro ⟨_, part, inside⟩
      obtain ⟨name, member, rfl⟩ := List.mem_map.1 part
      exact ⟨name, member, inside⟩
    · rintro ⟨name, member, inside⟩
      exact ⟨_, List.mem_map_of_mem member, inside⟩
  rw [← joined, text]
  split
  next empty => simp [empty, noDot]
  next => rw [String.toList_ofList]

/-- **The last name stands at the end of the text.** -/
theorem exists_text_descend_concat (path : Path) (names : List String) :
    ∃ front, ∀ last ≠ "", (path.descend (names ++ [last])).text.toList = front ++ last.toList := by
  obtain ⟨front, joined⟩ :=
    Text.exists_joinFields_concat '/' ((path.names ++ names).map String.toList)
  refine ⟨path.anchor.chars ++ front, fun last nonempty => ?_⟩
  have whole : path.anchor.chars ++ joinNames (path.names ++ (names ++ [last])) =
      path.anchor.chars ++ front ++ last.toList := by
    rw [joinNames, ← List.append_assoc, List.map_append, List.map_singleton, joined,
      List.append_assoc]
  have something : path.anchor.chars ++ front ++ last.toList ≠ [] := by simp [nonempty]
  rw [descend, text_eq_ofList (whole ▸ something), whole, String.toList_ofList]

/-- Normal paths with the same text are the same. -/
theorem eq_of_text_eq {path other : Path} (normal : path.IsNormal) (normal' : other.IsNormal)
    (same : path.text = other.text) : path = other := by
  rw [← ofString_text normal, same, ofString_text normal']

end Path

end FileRoutes
