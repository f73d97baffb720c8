import FileRoutes.Proofs.Export.Form

/-! # Exported constants and functions

An exported constant or function is a **declaration** (`Export.Declares`): the keyword of exports, a
head that tells what is declared, a name and a mark. Declarations of one kind never begin inside
each other (`Export.Recognises.apart`) and never reach across a character that none of their parts
can have (`Export.Recognises.keepsOut`). So the searches for constants and for functions find every
declaration that stands in a text, each at its place, and nothing else
(`Export.declarations_listed`). -/

namespace FileRoutes

open Text

namespace Export

/-! ## Declarations -/

/-- A **declaration** of a name in front of a text: the keyword of exports, a head, the name, perhaps
a gap, and a mark. -/
inductive Declares (IsHead : List Char → Prop) (marks : List Char) (name : String)
    (behind : List Char) : List Char → Prop where
  /-- The parts of a declaration, one after the other. -/
  | declaration {head gap : List Char} {mark : Char} (isHead : IsHead head)
      (nonempty : name.toList ≠ []) (isWord : ∀ c ∈ name.toList, isWordChar c = true)
      (isGap : IsGap gap) (isMark : mark ∈ marks) :
      Declares IsHead marks name behind
        (Keyword.export ++ (head ++ (name.toList ++ (gap ++ mark :: behind))))

/-- The head of a constant: its keyword between two gaps. -/
inductive IsValueHead : List Char → Prop where
  /-- The keyword between gaps that are not empty. -/
  | const {gap gap' : List Char} (nonempty : gap ≠ []) (isGap : IsGap gap) (nonempty' : gap' ≠ [])
      (isGap' : IsGap gap') : IsValueHead (gap ++ (Keyword.const ++ gap'))

/-- The head of a function: its keyword between two gaps, and perhaps the keyword of asynchronous
functions, with a gap of its own, in front. -/
inductive IsFunctionHead : List Char → Prop where
  /-- The keyword between gaps that are not empty. -/
  | function {gap gap' : List Char} (nonempty : gap ≠ []) (isGap : IsGap gap)
      (nonempty' : gap' ≠ []) (isGap' : IsGap gap') :
      IsFunctionHead (gap ++ (Keyword.function ++ gap'))
  /-- Both keywords, with gaps that are not empty. -/
  | async {gap gap' gap'' : List Char} (nonempty : gap ≠ []) (isGap : IsGap gap)
      (nonempty' : gap' ≠ []) (isGap' : IsGap gap') (nonempty'' : gap'' ≠ [])
      (isGap'' : IsGap gap'') :
      IsFunctionHead (gap ++ (Keyword.async ++ (gap' ++ (Keyword.function ++ gap''))))

/-- The marks behind the name of a constant. -/
def valueMarks : List Char := ['=', ':']

/-- The mark behind the name of a function. -/
def functionMarks : List Char := ['(']

/-- A recogniser **recognises** the declarations of one kind. -/
def Recognises (recognise : List Char → Option (String × List Char))
    (IsHead : List Char → Prop) (marks : List Char) : Prop :=
  ∀ text name behind,
    recognise text = some (name, behind) ↔ Declares IsHead marks name behind text

/-- The constants are recognised. -/
theorem recognises_valueName? : Recognises valueName? IsValueHead valueMarks := by
  intro text name behind
  rw [valueName?_eq_some_iff]
  constructor
  · rintro ⟨gap, gap', word, gap'', mark, nonempty, isGap, nonempty', isGap', hasName, isWord,
      isGap'', isMark, rfl, rfl⟩
    have declared : Declares IsValueHead valueMarks (String.ofList word) behind _ :=
      .declaration (.const nonempty isGap nonempty' isGap') (by simpa using hasName)
        (by simpa using isWord) isGap'' isMark
    simpa using declared
  · rintro ⟨isHead, hasName, isWord, isGap'', isMark⟩
    rename_i head gap'' mark
    obtain ⟨nonempty, isGap, nonempty', isGap'⟩ := isHead
    rename_i gap gap'
    exact ⟨gap, gap', name.toList, gap'', mark, nonempty, isGap, nonempty', isGap', hasName, isWord,
      isGap'', isMark, (String.ofList_toList).symm, by simp⟩

/-- The mark behind the name of a function is a mark. -/
theorem isMark_of_mem_functionMarks : ∀ mark ∈ functionMarks, IsMark mark := by
  intro mark member
  obtain rfl := List.mem_singleton.1 member
  exact ⟨by decide +kernel, by decide +kernel⟩

/-- What stands in front of the name of a function is its **head**, behind the keyword of exports. -/
theorem exists_behindHead_iff {text rest : List Char} :
    (∃ opened, Keyword.after? Keyword.export text = some opened ∧
      Keyword.after? Keyword.function ((Keyword.after? Keyword.async opened).getD opened) =
        some rest) ↔
    (∀ c ∈ rest.head?, isBlank c = false) ∧
      ∃ head, IsFunctionHead head ∧ text = Keyword.export ++ (head ++ rest) := by
  -- Neither keyword begins with a blank.
  have solidFunction : ∀ rest, ∀ c ∈ (Keyword.function ++ rest).head?, isBlank c = false := by
    intro rest
    simpa [Keyword.function] using (by decide : isBlank 'f' = false)
  have solidAsync : ∀ rest, ∀ c ∈ (Keyword.async ++ rest).head?, isBlank c = false := by
    intro rest
    simpa [Keyword.async] using (by decide : isBlank 'a' = false)
  constructor
  · rintro ⟨opened, opens, keyword⟩
    obtain ⟨gap, nonempty, isGap, -, rfl⟩ := Keyword.after?_eq_some_iff.1 opens
    obtain ⟨gap', nonempty', isGap', solid, equal⟩ := Keyword.after?_eq_some_iff.1 keyword
    refine ⟨solid, ?_⟩
    cases async : Keyword.after? Keyword.async opened with
    | none =>
      rw [async, Option.getD_none] at equal
      exact ⟨_, .function nonempty isGap nonempty' isGap', by simp [equal]⟩
    | some inner =>
      obtain ⟨between, nonemptyBetween, isBetween, -, rfl⟩ := Keyword.after?_eq_some_iff.1 async
      rw [async, Option.getD_some] at equal
      exact ⟨_, .async nonempty isGap nonemptyBetween isBetween nonempty' isGap', by simp [equal]⟩
  · rintro ⟨solid, head, isHead, rfl⟩
    cases isHead with
    | @function gap gap' nonempty isGap nonempty' isGap' =>
      have noAsync : Keyword.after? Keyword.async (Keyword.function ++ (gap' ++ rest)) = none :=
        Keyword.after?_cons_of_ne (by decide) _ _
      refine ⟨Keyword.function ++ (gap' ++ rest),
        Keyword.after?_eq_some_iff.2 ⟨gap, nonempty, isGap, solidFunction _, by simp⟩, ?_⟩
      rw [noAsync, Option.getD_none]
      exact Keyword.after?_eq_some_iff.2 ⟨gap', nonempty', isGap', solid, rfl⟩
    | @async gap between gap' nonempty isGap nonemptyBetween isBetween nonempty' isGap' =>
      have async : Keyword.after? Keyword.async
          (Keyword.async ++ (between ++ (Keyword.function ++ (gap' ++ rest)))) =
            some (Keyword.function ++ (gap' ++ rest)) :=
        Keyword.after?_eq_some_iff.2 ⟨between, nonemptyBetween, isBetween, solidFunction _, rfl⟩
      refine ⟨Keyword.async ++ (between ++ (Keyword.function ++ (gap' ++ rest))),
        Keyword.after?_eq_some_iff.2 ⟨gap, nonempty, isGap, solidAsync _, by simp⟩, ?_⟩
      rw [async, Option.getD_some]
      exact Keyword.after?_eq_some_iff.2 ⟨gap', nonempty', isGap', solid, rfl⟩

/-- The functions are recognised. -/
theorem recognises_functionName? : Recognises functionName? IsFunctionHead functionMarks := by
  intro text name behind
  have parts : functionName? text = some (name, behind) ↔
      ∃ rest, (∃ opened, Keyword.after? Keyword.export text = some opened ∧
        Keyword.after? Keyword.function ((Keyword.after? Keyword.async opened).getD opened) =
          some rest) ∧ nameBefore? functionMarks rest = some (name, behind) := by
    simp only [functionName?, Option.bind_eq_bind, Option.bind_eq_some_iff]
    constructor
    · rintro ⟨opened, opens, rest, keyword, named⟩
      exact ⟨rest, ⟨opened, opens, keyword⟩, named⟩
    · rintro ⟨rest, ⟨opened, opens, keyword⟩, named⟩
      exact ⟨opened, opens, rest, keyword, named⟩
  rw [parts]
  simp only [exists_behindHead_iff, nameBefore?_eq_some_iff isMark_of_mem_functionMarks]
  constructor
  · rintro ⟨_, ⟨-, head, isHead, rfl⟩, word, gap, mark, hasName, isWord, isGap, isMark, rfl, rfl⟩
    have declared : Declares IsFunctionHead functionMarks (String.ofList word) behind _ :=
      .declaration isHead (by simpa using hasName) (by simpa using isWord) isGap isMark
    simpa using declared
  · rintro ⟨isHead, hasName, isWord, isGap, isMark⟩
    rename_i head gap mark
    refine ⟨_, ⟨fun c first => ?_, head, isHead, rfl⟩, name.toList, gap, mark, hasName, isWord,
      isGap, isMark, String.ofList_toList.symm, rfl⟩
    -- No name begins with a blank.
    rw [List.head?_append_of_ne_nil _ hasName] at first
    exact isBlank_eq_false_of_isWordChar (isWord c (List.mem_of_mem_head? first))

/-! ## Declarations keep apart -/

/-- What the heads and the marks of a kind of declarations have to be, so that no declaration begins
inside another one. -/
structure WellHeaded (IsHead : List Char → Prop) (marks : List Char) : Prop where
  /-- A head begins with a gap and then with a letter, which is not one of the marks. -/
  opens : ∀ head, IsHead head → ∃ gap letter rest, gap ≠ [] ∧ IsGap gap ∧ isBlank letter = false ∧
    letter ∉ marks ∧ head = gap ++ letter :: rest
  /-- A head does not have the first letter of the keyword of exports. -/
  letterless : ∀ head, IsHead head → 'e' ∉ head
  /-- A head is made of words and gaps. -/
  plain : ∀ head, IsHead head → ∀ c ∈ head, isWordChar c = true ∨ isBlank c = true
  /-- The marks are marks. -/
  areMarks : ∀ mark ∈ marks, IsMark mark

/-- Constants are well headed. -/
theorem wellHeaded_isValueHead : WellHeaded IsValueHead valueMarks where
  opens := by
    rintro _ ⟨nonempty, isGap, -, -⟩
    exact ⟨_, 'c', _, nonempty, isGap, by decide, by decide, rfl⟩
  letterless := by
    rintro _ ⟨-, isGap, -, isGap'⟩
    have noLetter : isBlank 'e' = false := by decide
    simp [Keyword.const, not_mem_of_isGap isGap noLetter, not_mem_of_isGap isGap' noLetter]
  plain := by
    rintro _ ⟨-, isGap, -, isGap'⟩ c member
    have keyword : ∀ c ∈ Keyword.const, isWordChar c = true :=
      List.all_eq_true.1 (by decide +kernel)
    rcases List.mem_append.1 member with inGap | member
    · exact .inr (isGap c inGap)
    rcases List.mem_append.1 member with inKeyword | inGap
    · exact .inl (keyword c inKeyword)
    · exact .inr (isGap' c inGap)
  areMarks := isMark_of_mem_valueMarks

/-- Functions are well headed. -/
theorem wellHeaded_isFunctionHead : WellHeaded IsFunctionHead functionMarks where
  opens := by
    intro head isHead
    cases isHead with
    | function nonempty isGap _ _ =>
      exact ⟨_, 'f', _, nonempty, isGap, by decide, by decide, rfl⟩
    | async nonempty isGap _ _ _ _ =>
      exact ⟨_, 'a', _, nonempty, isGap, by decide, by decide, rfl⟩
  letterless := by
    have noLetter : isBlank 'e' = false := by decide
    intro head isHead
    cases isHead with
    | function _ isGap _ isGap' =>
      simp [Keyword.function, not_mem_of_isGap isGap noLetter, not_mem_of_isGap isGap' noLetter]
    | async _ isGap _ isBetween _ isGap' =>
      simp [Keyword.function, Keyword.async, not_mem_of_isGap isGap noLetter,
        not_mem_of_isGap isBetween noLetter, not_mem_of_isGap isGap' noLetter]
  plain := by
    have keyword : ∀ c ∈ Keyword.function, isWordChar c = true :=
      List.all_eq_true.1 (by decide +kernel)
    have asyncKeyword : ∀ c ∈ Keyword.async, isWordChar c = true :=
      List.all_eq_true.1 (by decide +kernel)
    intro head isHead c member
    cases isHead with
    | function _ isGap _ isGap' =>
      simp only [List.mem_append] at member
      rcases member with inGap | inKeyword | inGap
      · exact .inr (isGap c inGap)
      · exact .inl (keyword c inKeyword)
      · exact .inr (isGap' c inGap)
    | async _ isGap _ isBetween _ isGap' =>
      simp only [List.mem_append] at member
      rcases member with inGap | inAsync | inBetween | inKeyword | inGap
      · exact .inr (isGap c inGap)
      · exact .inl (asyncKeyword c inAsync)
      · exact .inr (isBetween c inBetween)
      · exact .inl (keyword c inKeyword)
      · exact .inr (isGap' c inGap)
  areMarks := isMark_of_mem_functionMarks

section Recognises

variable {recognise : List Char → Option (String × List Char)} {IsHead : List Char → Prop}
  {marks : List Char}

/-- No declaration begins in a text without the first letter of the keyword. -/
theorem Recognises.silent (recognises : Recognises recognise IsHead marks) {text : List Char}
    (free : 'e' ∉ text) (rest : List Char) : Silent recognise text rest := by
  intro suffix inside nonempty
  by_contra recognised
  obtain ⟨⟨name, behind⟩, recognised⟩ := Option.ne_none_iff_exists'.1 recognised
  obtain ⟨c, suffix, rfl⟩ := List.exists_cons_of_ne_nil nonempty
  generalize whole : c :: suffix ++ rest = text' at recognised
  obtain ⟨-, -, -, -, -⟩ := (recognises _ _ _).1 recognised
  obtain ⟨rfl, -⟩ := List.cons.inj whole
  exact free (inside.subset List.mem_cons_self)

/-- No declaration begins inside the name of another one: behind a name there is a mark, and no
head begins with it. -/
theorem Recognises.silent_word (recognises : Recognises recognise IsHead marks)
    (wellHeaded : WellHeaded IsHead marks) {word gap behind : List Char} {mark : Char}
    (isWord : ∀ c ∈ word, isWordChar c = true) (isGap : IsGap gap) (isMark : mark ∈ marks) :
    Silent recognise word (gap ++ mark :: behind) := by
  intro suffix inside nonempty
  by_contra recognised
  obtain ⟨⟨name, behind'⟩, recognised⟩ := Option.ne_none_iff_exists'.1 recognised
  obtain ⟨gap', letter, rest, nonemptyGap, isGap', solid, noMark, equal⟩ :
      ∃ gap' letter rest, gap' ≠ [] ∧ IsGap gap' ∧ isBlank letter = false ∧ letter ∉ marks ∧
        suffix ++ (gap ++ mark :: behind) = Keyword.export ++ (gap' ++ letter :: rest) := by
    generalize suffix ++ (gap ++ mark :: behind) = text at recognised
    obtain ⟨isHead, -, -, -, -⟩ := (recognises _ _ _).1 recognised
    rename_i head last mark'
    obtain ⟨gap', letter, rest, nonemptyGap, isGap', solid, noMark, rfl⟩ :=
      wellHeaded.opens _ isHead
    exact ⟨gap', letter, rest ++ (name.toList ++ (last ++ mark' :: behind')), nonemptyGap, isGap',
      solid, noMark, by simp⟩
  -- Both sides begin with a word, so that the rest of the name is the keyword, and behind it a
  -- mark would have to be the letter that the head begins with.
  have spans := congrArg wordSpan equal
  rw [wordSpan_append_of_head? (fun c member => isWord c (inside.subset member))
      (isWordChar_head?_of_isMark isGap (wellHeaded.areMarks mark isMark) behind),
    wordSpan_append_of_head? (List.all_eq_true.1 (by decide +kernel))
      (isWordChar_head?_of_isGap nonemptyGap isGap' (letter :: rest)), Prod.mk.injEq] at spans
  have trimmed := congrArg trimStart spans.2
  rw [trimStart_append_of_isGap isGap, trimStart_append_of_isGap isGap',
    trimStart_cons_of_not_blank (wellHeaded.areMarks mark isMark).2,
    trimStart_cons_of_not_blank solid, List.cons.injEq] at trimmed
  exact noMark (trimmed.1 ▸ isMark)

/-- **Declarations keep apart**: none begins inside another one. -/
theorem Recognises.apart (recognises : Recognises recognise IsHead marks)
    (wellHeaded : WellHeaded IsHead marks) : Apart recognise := by
  intro text name behind recognised
  obtain ⟨isHead, -, isWord, isGap, isMark⟩ := (recognises _ _ _).1 recognised
  rename_i head gap mark
  refine ⟨'e', Keyword.export.tail ++ head ++ (name.toList ++ (gap ++ [mark])),
    by simp [Keyword.export], ?_⟩
  -- Only the name can have the first letter of the keyword behind that of the export itself.
  apply Silent.append
  · apply recognises.silent
    simp [Keyword.export, wellHeaded.letterless head isHead]
  · apply Silent.append
    · simpa using recognises.silent_word wellHeaded isWord isGap isMark
    · apply recognises.silent
      simp only [List.mem_append, List.mem_singleton, not_or]
      refine ⟨not_mem_of_isGap isGap (by decide), ?_⟩
      rintro rfl
      exact absurd (wellHeaded.areMarks _ isMark).1 (by decide)

/-- **No declaration reaches across a character** that is no word character, no blank and no mark. -/
theorem Recognises.keepsOut (recognises : Recognises recognise IsHead marks)
    (wellHeaded : WellHeaded IsHead marks) {separator : Char}
    (noWord : isWordChar separator = false) (solid : isBlank separator = false)
    (noMark : separator ∉ marks) : KeepsOut separator recognise := by
  intro text name behind recognised
  obtain ⟨isHead, hasName, isWord, isGap, isMark⟩ := (recognises _ _ _).1 recognised
  rename_i head gap mark
  refine ⟨Keyword.export ++ (head ++ (name.toList ++ (gap ++ [mark]))), by simp,
    by simp [Keyword.export], ?_, fun other => ?_⟩
  · have keyword : ∀ c ∈ Keyword.export, isWordChar c = true :=
      List.all_eq_true.1 (by decide +kernel)
    intro member
    simp only [List.mem_append, List.mem_singleton] at member
    rcases member with inKeyword | inHead | inName | inGap | rfl
    · simp [keyword _ inKeyword] at noWord
    · rcases wellHeaded.plain _ isHead _ inHead with word | blank
      · simp [word] at noWord
      · simp [blank] at solid
    · simp [isWord _ inName] at noWord
    · exact not_mem_of_isGap isGap solid inGap
    · exact noMark isMark
  · have declared : Declares IsHead marks name other _ :=
      .declaration isHead hasName isWord isGap isMark
    rw [recognises]
    simpa using declared

end Recognises

/-- The search for exported constants finds one at each position where one begins. -/
theorem search_valueName? (source : List Char) :
    search valueName? 0 source = (scan valueName? source).map Prod.fst :=
  search_eq_scan (recognises_valueName?.apart wellHeaded_isValueHead) source

/-! ## All declarations of a text -/

/-- The declarations of a text, each with its position, are what a search for them finds, and a
semicolon parts the search. -/
theorem Recognises.listed {recognise : List Char → Option (String × List Char)}
    {IsHead : List Char → Prop} {marks : List Char} (recognises : Recognises recognise IsHead marks)
    (wellHeaded : WellHeaded IsHead marks) (noMark : ';' ∉ marks) :
    (∀ source, ∃ finds,
      ListsFinds (fun name text => ∃ behind, Declares IsHead marks name behind text) source finds ∧
        search recognise 0 source = finds.map Prod.snd) ∧
      ∀ text rest, search recognise 0 (text ++ ';' :: rest) =
        search recognise 0 text ++ search recognise 0 rest := by
  have apart := recognises.apart wellHeaded
  have keepsOut : KeepsOut ';' recognise :=
    recognises.keepsOut wellHeaded (by decide +kernel) (by decide) noMark
  refine ⟨fun source => ?_, search_append_separator apart keepsOut⟩
  obtain ⟨finds, lists, found⟩ := exists_listsFinds_search apart source
  refine ⟨finds, ⟨lists.ascending, fun position name => ?_⟩, found⟩
  rw [lists.mem_iff]
  exact exists_congr fun behind => recognises _ name behind

end Export

end FileRoutes
