import FileRoutes.Proofs.Json.Tokens

/-! # Printed JSON is read back

Reading undoes printing over several lines: every value is what its printed text holds
(`parse?_pretty`). The induction is over the value (`Json.induction`), and for the items of a list and
the members of an object over these (`readItems?_pretty`, `readMembers?_pretty`). Reading is bounded
in depth, and twice the length of the text is deep enough. -/

namespace FileRoutes.Json

/-- **Induction over JSON values**: a list and an object may use what holds of the values in them. -/
@[elab_as_elim]
theorem induction {motive : Json → Prop} (null : motive .null)
    (bool : ∀ value, motive (.bool value)) (int : ∀ value, motive (.int value))
    (decimal : ∀ units places, motive (.decimal units places))
    (str : ∀ value, motive (.str value))
    (arr : ∀ items, (∀ item ∈ items, motive item) → motive (.arr items))
    (obj : ∀ members, (∀ member ∈ members, motive member.2) → motive (.obj members))
    (value : Json) : motive value := by
  match value with
  | .null => exact null
  | .bool value => exact bool value
  | .int value => exact int value
  | .decimal units places => exact decimal units places
  | .str value => exact str value
  | .arr items => exact arr items fun item _ => induction null bool int decimal str arr obj item
  | .obj members =>
    exact obj members fun member _ => induction null bool int decimal str arr obj member.2
  termination_by sizeOf value
  decreasing_by
    · have := List.sizeOf_lt_of_mem ‹_ ∈ _›
      simp only [Json.arr.sizeOf_spec]
      omega
    · have := List.sizeOf_lt_of_mem ‹_ ∈ _›
      obtain ⟨key, value⟩ := member
      simp only [Json.obj.sizeOf_spec, Prod.mk.sizeOf_spec] at this ⊢
      omega

/-! ## Filler in front -/

/-- A value may have filler in front. -/
theorem readValue?_filler {filler : List Char} (all : ∀ c ∈ filler, isFiller c = true)
    (depth : Nat) (text : List Char) :
    readValue? depth (filler ++ text) = readValue? depth text := by
  cases depth with
  | zero => rw [readValue?, readValue?]
  | succ depth => rw [readValue?, readValue?, skipFiller_append all]

/-- Items may have filler in front. -/
theorem readItems?_filler {filler : List Char} (all : ∀ c ∈ filler, isFiller c = true)
    (depth : Nat) (text : List Char) :
    readItems? depth (filler ++ text) = readItems? depth text := by
  cases depth with
  | zero => rw [readItems?, readItems?]
  | succ depth => rw [readItems?, readItems?, readValue?_filler all]

/-- Members may have filler in front. -/
theorem readMembers?_filler {filler : List Char} (all : ∀ c ∈ filler, isFiller c = true)
    (depth : Nat) (text : List Char) :
    readMembers? depth (filler ++ text) = readMembers? depth text := by
  cases depth with
  | zero => rw [readMembers?, readMembers?]
  | succ depth => rw [readMembers?, readMembers?, skipFiller_append all]

/-! ## Values -/

/-- A value printed at a level **is read back**, in front of a text that ends a number. -/
def IsReadBack (level : Nat) (value : Json) : Prop :=
  ∀ depth rest, EndsNumber rest → 2 * (prettyChars level value).length ≤ depth →
    readValue? (depth + 1) (prettyChars level value ++ rest) = some (value, rest)

/-- A digit is no filler. -/
theorem isFiller_of_isDigit {c : Char} (digit : c.isDigit = true) : isFiller c = false := by
  simp only [isFiller, Bool.or_eq_false_iff, beq_eq_false_iff_ne]
  refine ⟨⟨⟨?_, ?_⟩, ?_⟩, ?_⟩
  all_goals
    rintro rfl
    exact absurd digit (by decide)

/-- A natural number is printed from a digit on. -/
theorem exists_toDigits_eq_cons (value : Nat) :
    ∃ c text, Nat.toDigits 10 value = c :: text ∧ c.isDigit = true := by
  obtain ⟨c, text, digits⟩ :=
    List.exists_cons_of_ne_nil (Nat.toDigits_ne_nil : Nat.toDigits 10 value ≠ [])
  have member : c ∈ Nat.toDigits 10 value := digits ▸ List.mem_cons_self
  exact ⟨c, text, digits, Nat.isDigit_of_mem_toDigits (by decide) (by decide) member⟩

/-- So is a number with a fraction. -/
theorem exists_printedUnits_eq_cons (places units : Nat) :
    ∃ c text, printedUnits places units = c :: text ∧ c.isDigit = true := by
  obtain ⟨c, text, digits, digit⟩ := exists_toDigits_eq_cons (units / Text.powerOfTen places)
  exact ⟨c, _, by rw [printedUnits, digits, List.cons_append], digit⟩

/-- A digit is no filler, and does not close a list. -/
theorem solid_of_isDigit {c : Char} (digit : c.isDigit = true) : isFiller c = false ∧ c ≠ ']' := by
  refine ⟨isFiller_of_isDigit digit, ?_⟩
  rintro rfl
  exact absurd digit (by decide)

/-- A printed value begins with a character that is no filler, and does not close a list. -/
theorem exists_prettyChars_eq_cons (level : Nat) (value : Json) :
    ∃ c text, prettyChars level value = c :: text ∧ isFiller c = false ∧ c ≠ ']' := by
  cases value with
  | null => exact ⟨_, _, prettyChars.eq_1 level, by decide, by decide⟩
  | bool value =>
    cases value with
    | true => exact ⟨_, _, prettyChars.eq_2 level, by decide, by decide⟩
    | false => exact ⟨_, _, prettyChars.eq_3 level, by decide, by decide⟩
  | int value =>
    rw [prettyChars]
    cases value with
    | ofNat value =>
      obtain ⟨c, text, digits, digit⟩ := exists_toDigits_eq_cons value
      exact ⟨c, text, digits, solid_of_isDigit digit⟩
    | negSucc value => exact ⟨_, _, rfl, by decide, by decide⟩
  | decimal units places =>
    rw [prettyChars]
    cases units with
    | ofNat units =>
      obtain ⟨c, text, begins, digit⟩ := exists_printedUnits_eq_cons (places + 1) units
      exact ⟨c, text, begins, solid_of_isDigit digit⟩
    | negSucc units => exact ⟨_, _, rfl, by decide, by decide⟩
  | str text =>
    rw [prettyChars]
    exact ⟨_, _, rfl, by decide, by decide⟩
  | arr items =>
    cases items with
    | nil => exact ⟨_, _, by rw [prettyChars], by decide, by decide⟩
    | cons item items => exact ⟨_, _, by rw [prettyChars]; rfl, by decide, by decide⟩
  | obj members =>
    cases members with
    | nil => exact ⟨_, _, by rw [prettyChars], by decide, by decide⟩
    | cons member members => exact ⟨_, _, by rw [prettyChars]; rfl, by decide, by decide⟩

/-- A printed value is not skipped. -/
theorem skipFiller_prettyChars (level : Nat) (value : Json) (rest : List Char) :
    skipFiller (prettyChars level value ++ rest) = prettyChars level value ++ rest := by
  obtain ⟨c, text, begins, solid, -⟩ := exists_prettyChars_eq_cons level value
  rw [begins, List.cons_append, skipFiller_cons solid]

/-- A printed value does not begin by closing a list. -/
theorem head?_prettyChars_ne (level : Nat) (value : Json) (rest : List Char) :
    (prettyChars level value ++ rest).head? ≠ some ']' := by
  obtain ⟨c, text, begins, -, other⟩ := exists_prettyChars_eq_cons level value
  simpa [begins] using other

/-- The start of a new line ends a number. -/
theorem endsNumber_newLine (level : Nat) (text : List Char) : EndsNumber (newLine level ++ text) :=
  endsNumber_cons.2 (by decide)

/-- What follows an item ends a number. -/
theorem endsNumber_prettyItems (level outer : Nat) (items : List Json) (rest : List Char) :
    EndsNumber (prettyItems level items ++ (newLine outer ++ rest)) := by
  cases items with
  | nil => exact endsNumber_newLine outer rest
  | cons item items =>
    rw [prettyItems]
    exact endsNumber_cons.2 (by decide)

/-- What follows a member ends a number. -/
theorem endsNumber_prettyMembers (level outer : Nat) (members : List (String × Json))
    (rest : List Char) : EndsNumber (prettyMembers level members ++ (newLine outer ++ rest)) := by
  cases members with
  | nil => exact endsNumber_newLine outer rest
  | cons member members =>
    rw [prettyMembers]
    exact endsNumber_cons.2 (by decide)

section Items

variable {depth : Nat} {text tail further rest : List Char} {item : Json} {items : List Json}
  (first : readValue? depth text = some (item, tail))

include first

/-- The last item is read. -/
theorem readItems?_last (closed : skipFiller tail = ']' :: rest) :
    readItems? (depth + 1) text = some ([item], rest) := by
  simp [readItems?, first, closed]

/-- An item that others follow is read. -/
theorem readItems?_next (goesOn : skipFiller tail = ',' :: further)
    (others : readItems? depth further = some (items, rest)) :
    readItems? (depth + 1) text = some (item :: items, rest) := by
  simp [readItems?, first, goesOn, others]

end Items

/-- **The items of a list are read back** when each of them is. -/
theorem readItems?_pretty {level : Nat} (outer : Nat) {item : Json} {items : List Json}
    (each : ∀ other ∈ item :: items, IsReadBack level other) {depth : Nat}
    (deep : 2 * (prettyChars level item ++ prettyItems level items).length + 2 ≤ depth)
    (rest : List Char) :
    readItems? depth (prettyChars level item ++
        (prettyItems level items ++ (newLine outer ++ ']' :: rest))) =
      some (item :: items, rest) := by
  induction items generalizing item depth with
  | nil =>
    -- One level of depth is spent on the items, and one on the value in front.
    obtain ⟨depth, rfl⟩ : ∃ less, depth = less + 2 := ⟨depth - 2, by omega⟩
    have ends := endsNumber_prettyItems level outer [] (']' :: rest)
    rw [prettyItems, List.append_nil] at deep
    refine readItems?_last (each item List.mem_cons_self depth _ ends (by omega)) ?_
    rw [prettyItems, List.nil_append, skipFiller_append fun _ => isFiller_of_mem_newLine,
      skipFiller_cons (by decide)]
  | cons next items ih =>
    obtain ⟨depth, rfl⟩ : ∃ less, depth = less + 2 := ⟨depth - 2, by omega⟩
    have ends := endsNumber_prettyItems level outer (next :: items) (']' :: rest)
    simp only [prettyItems, List.length_append, List.length_cons] at deep
    -- The comma in front of the others makes the text long enough for one more level.
    have others := ih (fun other member => each other (List.mem_cons_of_mem _ member))
      (by rw [List.length_append]; omega : 2 * (prettyChars level next ++
        prettyItems level items).length + 2 ≤ depth + 1)
    rw [← readItems?_filler (fun _ => isFiller_of_mem_newLine)] at others
    refine readItems?_next (each item List.mem_cons_self depth _ ends (by omega)) ?_ others
    simp only [prettyItems, List.cons_append, List.append_assoc]
    exact skipFiller_cons (by decide) _

section Members

variable {depth : Nat} {text tail further rest : List Char} {key : String} {value : Json}
  {members : List (String × Json)} (first : readValue? depth text = some (value, tail))

/-- A printed string is read behind its opening quote, and what follows it is left. -/
theorem readString?_printedString (key : String) (text : List Char) :
    ∃ inner, printedString key ++ text = '"' :: inner ∧
      readString? inner = some (key, text) :=
  ⟨key.toList.flatMap printedChar ++ '"' :: text, by simp [printedString],
    readString?_printed key text⟩

include first

/-- The last member is read. -/
theorem readMembers?_last (closed : skipFiller tail = '\x7d' :: rest) :
    readMembers? (depth + 1) (printedString key ++ ':' :: text) = some ([(key, value)], rest) := by
  obtain ⟨inner, opened, read⟩ := readString?_printedString key (':' :: text)
  have colon : skipFiller (':' :: text) = ':' :: text := skipFiller_cons (by decide) text
  rw [opened, readMembers?, skipFiller_cons (by decide)]
  simp [read, colon, first, closed]

/-- A member that others follow is read. -/
theorem readMembers?_next (goesOn : skipFiller tail = ',' :: further)
    (others : readMembers? depth further = some (members, rest)) :
    readMembers? (depth + 1) (printedString key ++ ':' :: text) =
      some ((key, value) :: members, rest) := by
  obtain ⟨inner, opened, read⟩ := readString?_printedString key (':' :: text)
  have colon : skipFiller (':' :: text) = ':' :: text := skipFiller_cons (by decide) text
  rw [opened, readMembers?, skipFiller_cons (by decide)]
  simp [read, colon, first, goesOn, others]

end Members

/-- **The members of an object are read back** when the value of each of them is. -/
theorem readMembers?_pretty {level : Nat} (outer : Nat) {key : String} {value : Json}
    {members : List (String × Json)}
    (each : ∀ other ∈ (key, value) :: members, IsReadBack level other.2) {depth : Nat}
    (deep : 2 * (prettyChars level value ++ prettyMembers level members).length + 2 ≤ depth)
    (rest : List Char) :
    readMembers? depth (printedString key ++ ':' :: ' ' :: (prettyChars level value ++
        (prettyMembers level members ++ (newLine outer ++ '\x7d' :: rest)))) =
      some ((key, value) :: members, rest) := by
  have space : ∀ c ∈ [' '], isFiller c = true := List.forall_mem_singleton.2 rfl
  induction members generalizing key value depth with
  | nil =>
    obtain ⟨depth, rfl⟩ : ∃ less, depth = less + 2 := ⟨depth - 2, by omega⟩
    have ends := endsNumber_prettyMembers level outer [] ('\x7d' :: rest)
    rw [prettyMembers, List.append_nil] at deep
    have read : IsReadBack level value := each (key, value) List.mem_cons_self
    have first := read depth _ ends (by omega)
    rw [← readValue?_filler space] at first
    refine readMembers?_last first ?_
    rw [prettyMembers, List.nil_append, skipFiller_append fun _ => isFiller_of_mem_newLine,
      skipFiller_cons (by decide)]
  | cons next members ih =>
    obtain ⟨key', value'⟩ := next
    obtain ⟨depth, rfl⟩ : ∃ less, depth = less + 2 := ⟨depth - 2, by omega⟩
    have ends := endsNumber_prettyMembers level outer ((key', value') :: members) ('\x7d' :: rest)
    simp only [prettyMembers, List.length_append, List.length_cons] at deep
    have read : IsReadBack level value := each (key, value) List.mem_cons_self
    have first := read depth _ ends (by omega)
    rw [← readValue?_filler space] at first
    have others := ih (fun other member => each other (List.mem_cons_of_mem _ member))
      (by rw [List.length_append]; omega : 2 * (prettyChars level value' ++
        prettyMembers level members).length + 2 ≤ depth + 1)
    rw [← readMembers?_filler (fun _ => isFiller_of_mem_newLine)] at others
    refine readMembers?_next first ?_ others
    simp only [prettyMembers, List.cons_append, List.append_assoc, List.nil_append]
    exact skipFiller_cons (by decide) _

/-! ## All values -/

/-- A value that begins with a digit is read as a number. -/
theorem readValue?_of_digit {c : Char} (digit : c.isDigit = true) (depth : Nat)
    (text : List Char) : readValue? (depth + 1) (c :: text) = readNumber? 1 (c :: text) := by
  rw [readValue?, skipFiller_cons (isFiller_of_isDigit digit)]
  -- A digit is none of the characters that other values begin with.
  split
  case h_8 => rfl
  all_goals
    next same =>
      obtain ⟨rfl, -⟩ := List.cons.inj same
      cases digit

/-- A list with items is read from its opening bracket on. -/
theorem readValue?_items {depth : Nat} {text inner rest : List Char} {items : List Json}
    (opened : skipFiller text = inner) (more : inner.head? ≠ some ']')
    (read : readItems? depth inner = some (items, rest)) :
    readValue? (depth + 1) ('[' :: text) = some (.arr items, rest) := by
  rw [readValue?, skipFiller_cons (by decide)]
  simp only [opened]
  split
  next => exact absurd rfl more
  next => rw [read, Option.map_some]

/-- An object with members is read from its opening brace on. -/
theorem readValue?_members {depth : Nat} {text inner rest : List Char}
    {members : List (String × Json)} (opened : skipFiller text = '"' :: inner)
    (read : readMembers? depth ('"' :: inner) = some (members, rest)) :
    readValue? (depth + 1) ('\x7b' :: text) = some (.obj members, rest) := by
  rw [readValue?, skipFiller_cons (by decide)]
  simp [opened, read]

/-- A value that is printed from a digit on is read back when it is the number read there. -/
theorem isReadBack_of_digit {level : Nat} {value : Json} {c : Char} {text : List Char}
    (printed : prettyChars level value = c :: text) (digit : c.isDigit = true)
    (read : ∀ rest, EndsNumber rest → readNumber? 1 (c :: text ++ rest) = some (value, rest)) :
    IsReadBack level value := by
  intro depth rest ends _
  rw [printed, List.cons_append, readValue?_of_digit digit]
  exact read rest ends

/-- A value that is printed from a minus sign on is read back when it is the number read behind. -/
theorem isReadBack_of_minus {level : Nat} {value : Json} {text : List Char}
    (printed : prettyChars level value = '-' :: text)
    (read : ∀ rest, EndsNumber rest → readNumber? (-1) (text ++ rest) = some (value, rest)) :
    IsReadBack level value := by
  intro depth rest ends _
  rw [printed, List.cons_append, readValue?, skipFiller_cons (by decide)]
  exact read rest ends

/-- An integer is read back. -/
theorem isReadBack_int (level : Nat) (value : Int) : IsReadBack level (.int value) := by
  cases value with
  | ofNat value =>
    obtain ⟨c, text, digits, digit⟩ := exists_toDigits_eq_cons value
    refine isReadBack_of_digit (by rw [prettyChars, printedInt, digits]) digit fun rest ends => ?_
    rw [← digits, readNumber?_toDigits 1 value ends, Int.one_mul]
    rfl
  | negSucc value =>
    refine isReadBack_of_minus (by rw [prettyChars, printedInt]) fun rest ends => ?_
    rw [readNumber?_toDigits (-1) (value + 1) ends, Int.neg_one_mul]
    rfl

/-- A number with a fraction is read back. -/
theorem isReadBack_decimal (level : Nat) (units : Int) (places : Nat) :
    IsReadBack level (.decimal units places) := by
  cases units with
  | ofNat units =>
    obtain ⟨c, text, begins, digit⟩ := exists_printedUnits_eq_cons (places + 1) units
    refine isReadBack_of_digit (by rw [prettyChars, printedDecimal, begins]) digit
      fun rest ends => ?_
    rw [← begins, readNumber?_printedUnits 1 places units ends, Int.one_mul]
    rfl
  | negSucc units =>
    refine isReadBack_of_minus (by rw [prettyChars, printedDecimal]) fun rest ends => ?_
    rw [readNumber?_printedUnits (-1) places (units + 1) ends, Int.neg_one_mul]
    rfl

/-- A list is read back when its items are. -/
theorem isReadBack_arr {level : Nat} {items : List Json}
    (each : ∀ item ∈ items, IsReadBack (level + 1) item) : IsReadBack level (.arr items) := by
  intro depth rest _ deep
  cases items with
  | nil =>
    have closed : skipFiller (']' :: rest) = ']' :: rest := skipFiller_cons (by decide) rest
    rw [prettyChars, List.cons_append, readValue?, skipFiller_cons (by decide)]
    simp [closed]
  | cons item items =>
    simp only [prettyChars, List.length_append, List.length_cons] at deep
    have enough : 2 * (prettyChars (level + 1) item ++
        prettyItems (level + 1) items).length + 2 ≤ depth := by
      rw [List.length_append]
      omega
    simp only [prettyChars, List.cons_append, List.append_assoc, List.nil_append]
    refine readValue?_items ?_ (head?_prettyChars_ne (level + 1) item _)
      (readItems?_pretty level each enough rest)
    rw [skipFiller_append fun _ => isFiller_of_mem_newLine, skipFiller_prettyChars]

/-- An object is read back when the values of its members are. -/
theorem isReadBack_obj {level : Nat} {members : List (String × Json)}
    (each : ∀ member ∈ members, IsReadBack (level + 1) member.2) :
    IsReadBack level (.obj members) := by
  intro depth rest _ deep
  cases members with
  | nil =>
    have closed : skipFiller ('\x7d' :: rest) = '\x7d' :: rest := skipFiller_cons (by decide) rest
    rw [prettyChars, List.cons_append, readValue?, skipFiller_cons (by decide)]
    simp [closed]
  | cons member members =>
    obtain ⟨key, value⟩ := member
    simp only [prettyChars, List.length_append, List.length_cons] at deep
    have enough : 2 * (prettyChars (level + 1) value ++
        prettyMembers (level + 1) members).length + 2 ≤ depth := by
      rw [List.length_append]
      omega
    have read := readMembers?_pretty level each enough rest
    obtain ⟨inner, opened, -⟩ := readString?_printedString key (':' :: ' ' ::
      (prettyChars (level + 1) value ++
        (prettyMembers (level + 1) members ++ (newLine level ++ '\x7d' :: rest))))
    simp only [prettyChars, List.cons_append, List.append_assoc, List.nil_append]
    rw [opened] at read ⊢
    refine readValue?_members ?_ read
    rw [skipFiller_append fun _ => isFiller_of_mem_newLine, skipFiller_cons (by decide)]

/-- **Every printed value is read back.** -/
theorem isReadBack (value : Json) : ∀ level, IsReadBack level value := by
  induction value using Json.induction with
  | null =>
    intro level depth rest _ _
    rw [prettyChars, List.cons_append, readValue?, skipFiller_cons (by decide)]
    rfl
  | bool value =>
    intro level depth rest _ _
    cases value <;>
      rw [prettyChars, List.cons_append, readValue?, skipFiller_cons (by decide)] <;> rfl
  | int value => exact fun level => isReadBack_int level value
  | decimal units places => exact fun level => isReadBack_decimal level units places
  | str text =>
    intro level depth rest _ _
    obtain ⟨inner, opened, read⟩ := readString?_printedString text rest
    rw [prettyChars, opened, readValue?, skipFiller_cons (by decide)]
    simp only [read, Option.map_some]
  | arr items each => exact fun level => isReadBack_arr fun item member => each item member _
  | obj members each => exact fun level => isReadBack_obj fun other member => each other member _

/-- **Reading undoes printing**: a printed value, with its last line ended, is what the text holds. -/
theorem parse?_pretty (value : Json) : parse? (value.pretty ++ "\n") = some value := by
  have ends : EndsNumber ['\n'] := endsNumber_cons.2 (by decide)
  have text : (value.pretty ++ "\n").toList = prettyChars 0 value ++ ['\n'] := by
    simp [pretty]
  have read := isReadBack value 0 (2 * (prettyChars 0 value ++ ['\n']).length) ['\n'] ends
    (by simp)
  have filler : skipFiller ['\n'] = [] := by decide
  unfold parse?
  simp only [text, read, Option.bind_eq_bind, Option.bind_some, filler]
  rfl

end FileRoutes.Json
