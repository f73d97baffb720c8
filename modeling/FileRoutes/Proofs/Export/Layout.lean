import FileRoutes.Proofs.Export.Declarations
import FileRoutes.Proofs.Export.Reexports
import FileRoutes.Proofs.Text.Layout

/-! # Exports and layout

Every pattern of exports asks for gaps, whichever blanks these are made of. So the recognisers do not
tell layouts apart, and the passes over constants, functions and the default export give the same
for all layouts of a text (`Export.valuesIn_eq`, `Export.functionsIn_eq`, `Export.defaultIn_eq`). The
lists of re-exports stand in all of them alike, and their entries are layouts of each other, one by
one (`Reflows.listedEntries`). -/

namespace FileRoutes

open Text

/-! ## Recognisers and layouts -/

/-- One step after the other takes related states to related states. -/
theorem optionRel_bind {α β γ δ : Type} {R : α → β → Prop} {S : γ → δ → Prop} {first : Option α}
    {first' : Option β} {next : α → Option γ} {next' : β → Option δ}
    (related : Option.Rel R first first')
    (goesOn : ∀ a b, R a b → Option.Rel S (next a) (next' b)) :
    Option.Rel S (first.bind next) (first'.bind next') := by
  cases related with
  | some pair => exact goesOn _ _ pair
  | none => exact .none

/-- What is given at all is equal to itself. -/
theorem optionRel_self {α : Type} (given : Option α) : Option.Rel Eq given given := by
  cases given with
  | some a => exact .some rfl
  | none => exact .none

namespace Keyword

/-- No keyword has a blank. -/
theorem solid {word : List Char} (isKeyword : word ∈ [«export», const, async, function, default]) :
    ∀ c ∈ word, isBlank c = false := by
  have all : [«export», const, async, function, default].all (·.all (!isBlank ·)) = true := by
    decide
  intro c member
  have here := List.all_eq_true.1 (List.all_eq_true.1 all word isKeyword) c member
  simpa using here

/-- No keyword of exports begins in a gap. -/
theorem silent_gap {gap : List Char} (isGap : IsGap gap) (rest : List Char) :
    Silent (Text.after? «export») gap rest :=
  silent_after?_of_not_mem (not_mem_of_isGap isGap (by decide)) _ rest

end Keyword

namespace Text.Reflows

variable {text other : List Char}

/-- A keyword leaves layouts. -/
theorem keyword {word : List Char} (solid : ∀ c ∈ word, isBlank c = false)
    (layout : Reflows text other) :
    Option.Rel Reflows (Keyword.after? word text) (Keyword.after? word other) :=
  optionRel_bind (layout.after? solid) fun _ _ more => more.afterBlanks?

/-- The name in front of a mark is the same. -/
theorem nameBefore? (marks : List Char) (layout : Reflows text other) :
    Option.Rel (fun find find' => find.1 = find'.1) (Export.nameBefore? marks text)
      (Export.nameBefore? marks other) := by
  obtain ⟨sameWord, rests⟩ := layout.takeWhile_eq fun _ word => isBlank_eq_false_of_isWordChar word
  rw [Export.nameBefore?, Export.nameBefore?, wordSpan, wordSpan, sameWord]
  cases other.takeWhile isWordChar with
  | nil => exact .none
  | cons c word =>
    have solid := isBlank_head?_trimStart (text.dropWhile isWordChar)
    rcases rests.trimStart.inv with ⟨nothing, nothing'⟩ | ⟨mark, behind, behind', _, begins, begins', _⟩ |
      ⟨mark, _, _, _, blank, _, begins, _, _⟩
    · simp only [nothing, nothing']
      exact .none
    · simp only [begins, begins']
      split
      · exact .some rfl
      · exact .none
    · -- Behind the gap there is no blank.
      rw [begins] at solid
      rw [solid mark rfl] at blank
      cases blank

/-- The name of an exported constant is the same. -/
theorem valueName? (layout : Reflows text other) :
    Option.Rel (fun find find' => find.1 = find'.1) (Export.valueName? text)
      (Export.valueName? other) :=
  optionRel_bind (layout.keyword (Keyword.solid (by simp))) fun _ _ more =>
    optionRel_bind (more.keyword (Keyword.solid (by simp))) fun _ _ more => more.nameBefore? _

/-- The name of an exported function is the same. -/
theorem functionName? (layout : Reflows text other) :
    Option.Rel (fun find find' => find.1 = find'.1) (Export.functionName? text)
      (Export.functionName? other) := by
  refine optionRel_bind (layout.keyword (Keyword.solid (by simp))) fun rest rest' more => ?_
  have behindAsync : Reflows ((Keyword.after? Keyword.async rest).getD rest)
      ((Keyword.after? Keyword.async rest').getD rest') := by
    have asynchronous := more.keyword (@Keyword.solid Keyword.async (by simp))
    generalize Keyword.after? Keyword.async rest = found at asynchronous ⊢
    generalize Keyword.after? Keyword.async rest' = found' at asynchronous ⊢
    cases asynchronous with
    | some inner => exact inner
    | none => exact more
  exact optionRel_bind (behindAsync.keyword (Keyword.solid (by simp))) fun _ _ more =>
    more.nameBefore? _

/-- The default export begins alike. -/
theorem defaultMark? (layout : Reflows text other) :
    Option.Rel (fun _ _ => True) (Export.defaultMark? text) (Export.defaultMark? other) :=
  optionRel_bind (layout.keyword (Keyword.solid (by simp))) fun _ _ more =>
    optionRel_bind (more.keyword (Keyword.solid (by simp))) fun _ _ _ => .some trivial

/-- A list of re-exports begins alike, and the insides are layouts of each other. -/
theorem group? (layout : Reflows text other) :
    Option.Rel Reflows (Export.group? text) (Export.group? other) := by
  refine optionRel_bind (layout.after? (Keyword.solid (by simp))) fun rest rest' more => ?_
  have first := isBlank_head?_trimStart rest
  rcases more.trimStart.inv with ⟨nothing, nothing'⟩ | ⟨c, behind, behind', _, begins, begins', more⟩ |
    ⟨c, _, _, _, blank, _, begins, _, _⟩
  · simp only [nothing, nothing']
    exact .none
  · simp only [begins, begins']
    by_cases brace : c = '\x7b'
    · subst brace
      have insides := more.takeWhile_ne (by decide : isBlank '\x7d' = false)
      have sameEmpty := insides.isEmpty
      have sameEnd : ((behind.takeWhile (· != '\x7d')).length < behind.length) =
          ((behind'.takeWhile (· != '\x7d')).length < behind'.length) := by
        rw [length_takeWhile_lt_iff, length_takeWhile_lt_iff, more.mem_iff (by decide)]
      simp only [sameEmpty, sameEnd]
      exact optionRel_bind (optionRel_self _) fun _ _ _ => .some insides.trimStart
    · split
      next equal => exact absurd (List.cons.inj equal).1 brace
      next =>
        split
        next equal => exact absurd (List.cons.inj equal).1 brace
        next => exact .none
  · rw [begins] at first
    rw [first c rfl] at blank
    cases blank

/-! ## Passes and layouts -/

/-- The lists of re-exports are layouts of each other, one by one. -/
theorem groups (layout : Reflows text other) (within : Bool) :
    List.Forall₂ Reflows (Export.groups within text) (Export.groups within other) := by
  induction layout generalizing within with
  | nil => cases within <;> exact .nil
  | gap _ isGap _ isGap' _ ih =>
    cases within with
    | true =>
      have noBrace : isBlank '\x7d' = false := by decide
      rw [Export.groups_append_of_not_mem (not_mem_of_isGap isGap noBrace),
        Export.groups_append_of_not_mem (not_mem_of_isGap isGap' noBrace)]
      exact ih true
    | false =>
      rw [Export.groups_append_of_silent (Export.silent_group? (Keyword.silent_gap isGap _)),
        Export.groups_append_of_silent (Export.silent_group? (Keyword.silent_gap isGap' _))]
      exact ih false
  | @cons c rest rest' solid more ih =>
    cases within with
    | true => exact ih (c != '\x7d')
    | false =>
      have here := (Reflows.cons solid more).group?
      rw [Export.groups, Export.groups]
      generalize Export.group? (c :: rest) = found at here ⊢
      generalize Export.group? (c :: rest') = found' at here ⊢
      cases here with
      | some inside => exact .cons inside (ih true)
      | none => exact ih false

end Text.Reflows

namespace Export

variable {source other : List Char}

/-- Declarations whose names are the same in all layouts are found in two layouts alike. -/
theorem Recognises.search_eq {recognise : List Char → Option (String × List Char)}
    {IsHead : List Char → Prop} {marks : List Char} (recognises : Recognises recognise IsHead marks)
    (wellHeaded : WellHeaded IsHead marks)
    (alike : ∀ text other, Reflows text other →
      Option.Rel (fun find find' => find.1 = find'.1) (recognise text) (recognise other))
    (layout : Reflows source other) : search recognise 0 other = search recognise 0 source := by
  have silent : ∀ gap rest, IsGap gap → Silent recognise gap rest := fun gap rest isGap =>
    recognises.silent (not_mem_of_isGap isGap (by decide)) rest
  have names : (scan recognise source).map Prod.fst = (scan recognise other).map Prod.fst := by
    rw [← List.forall₂_eq_eq_eq, List.forall₂_map_left_iff, List.forall₂_map_right_iff]
    exact layout.scan silent alike
  have apart := recognises.apart wellHeaded
  rw [search_eq_scan apart, search_eq_scan apart, names]

/-- The constants of two layouts are the same. -/
theorem valuesIn_eq (layout : Reflows source other) : valuesIn other = valuesIn source := by
  have finds := recognises_valueName?.search_eq wellHeaded_isValueHead
    (fun _ _ layout => layout.valueName?) layout
  rw [valuesIn, valuesIn, finds]

/-- The functions of two layouts are the same. -/
theorem functionsIn_eq (layout : Reflows source other) : functionsIn other = functionsIn source := by
  have finds := recognises_functionName?.search_eq wellHeaded_isFunctionHead
    (fun _ _ layout => layout.functionName?) layout
  rw [functionsIn, functionsIn, finds]

/-- Two layouts have a default export alike. -/
theorem defaultIn_eq (layout : Reflows source other) : defaultIn other = defaultIn source := by
  have silent : ∀ gap rest, IsGap gap → Silent defaultMark? gap rest := by
    intro gap rest isGap suffix inside nonempty
    simp [defaultMark?, Keyword.after?, Keyword.silent_gap isGap rest suffix inside nonempty]
  have finds := (layout.scan silent fun _ _ layout => layout.defaultMark?).length_eq
  have alike : (scan defaultMark? source).isEmpty = (scan defaultMark? other).isEmpty := by
    rw [Bool.eq_iff_iff, List.isEmpty_iff_length_eq_zero, List.isEmpty_iff_length_eq_zero, finds]
  rw [defaultIn, defaultIn, alike]

/-! ## Entries of re-export lists -/

/-- The **entries** of all lists of re-exports in a text. -/
def listedEntries (source : List Char) : List (List Char) :=
  (groups false source).flatMap (fields ',')

/-- The re-exports are the local names of the entries. -/
theorem namedIn_eq (source : List Char) :
    namedIn source = ((listedEntries source).filterMap localName?).map ofNamed := by
  rw [namedIn, listedEntries, List.filterMap_flatMap]
  rfl

end Export

/-- The entries of the lists in two layouts are layouts of each other, one by one. -/
theorem Text.Reflows.listedEntries {source other : List Char} (layout : Reflows source other) :
    List.Forall₂ Reflows (Export.listedEntries source) (Export.listedEntries other) :=
  List.rel_flatMap (layout.groups false) fun _ _ group => group.fields (by decide)

end FileRoutes
