import FileRoutes.Proofs.Source.Written

/-! # The language of literals

Which expressions are read as strings, and as which ones (`stringValue?_language`). A **literal**
(`IsLiteral`) is a text between two equal quotes in which each such quote has a backslash directly
in front. These are the texts that escapes and single characters make up between two quotes
(`MatchesInside`), where a backslash may be read either way. What a literal writes (`Unescapes`) is
read from left to right, where it may not.

* `quotesEscaped_iff`: the test on quotes, for the text from any position on.
* `matchesInside_iff`: acceptance over all ways to read the backslashes is that test.
* `unescapes_iff`: the string of a literal is determined by its inside. -/

namespace FileRoutes.Source

open Text

/-- A row of **escapes and single characters** may stand between two quotes. A backslash begins an
escape or is a single character itself. -/
inductive MatchesInside (quote : Char) : List Char → Prop where
  /-- Nothing stands between the quotes. -/
  | nil : MatchesInside quote []
  /-- A backslash and any character. -/
  | escape {c : Char} {rest : List Char} (later : MatchesInside quote rest) :
      MatchesInside quote ('\\' :: c :: rest)
  /-- Any character but the quote. -/
  | single {c : Char} {rest : List Char} (differs : c ≠ quote) (later : MatchesInside quote rest) :
      MatchesInside quote (c :: rest)

/-- **A literal**: its inside between two equal quotes, with a backslash directly in front of every
such quote in between. -/
structure IsLiteral (quote : Char) (inside text : List Char) : Prop where
  /-- The quote is one. -/
  isQuote : isQuote quote = true
  /-- The text begins and ends with the quote. -/
  whole : text = quote :: (inside ++ [quote])
  /-- In front of a quote in between there is a backslash. -/
  behind : ∀ front back, inside = front ++ quote :: back → front.getLast? = some '\\'

/-- **What the inside of a literal writes**, from left to right: a backslash gives way to the
character behind it, but not to a line break, and all other characters are kept. -/
inductive Unescapes : List Char → List Char → Prop where
  /-- Nothing writes the empty string. -/
  | nil : Unescapes [] []
  /-- A backslash with the character that it stands for. -/
  | escape {c : Char} {rest string : List Char} (noBreak : c ≠ '\n')
      (later : Unescapes rest string) : Unescapes ('\\' :: c :: rest) (c :: string)
  /-- A character that is no backslash, or a backslash in front of a line break or at the end. -/
  | keep {c : Char} {rest string : List Char} (stands : c = '\\' → ∀ d ∈ rest.head?, d = '\n')
      (later : Unescapes rest string) : Unescapes (c :: rest) (c :: string)

/-! ## Quotes behind backslashes -/

section Quotes

variable {quote : Char} {text : List Char}

/-- **The test on quotes** looks at the character in front of each, which for the first character of
the text is the last one of what was read before it. -/
theorem quotesEscaped_iff (read : List Char) :
    quotesEscaped quote (read.getLast? == some '\\') text = true ↔
      ∀ front back, text = front ++ quote :: back → (read ++ front).getLast? = some '\\' := by
  -- What was read grows by each character, and its last one is what the test remembers.
  induction text generalizing read with
  | nil => simp [quotesEscaped]
  | cons c rest ih =>
    have flag : (c == '\\') = ((read ++ [c]).getLast? == some '\\') := by simp
    rw [quotesEscaped, Bool.and_eq_true, flag, ih]
    constructor
    · rintro ⟨here, later⟩ front back whole
      cases front with
      | nil =>
        obtain ⟨rfl, rfl⟩ := List.cons.inj whole
        simpa using here
      | cons d front =>
        obtain ⟨rfl, rfl⟩ := List.cons.inj whole
        simpa using later front back rfl
    · intro behind
      refine ⟨?_, fun front back whole => ?_⟩
      · by_cases isQuote : c = quote
        · subst isQuote
          simpa using behind [] rest rfl
        · simp [isQuote]
      · have later := behind (c :: front) back (by rw [whole]; rfl)
        rwa [List.append_assoc, List.singleton_append]

/-- Each quote has a backslash in front when the text is tested from its beginning. -/
theorem quotesEscaped_false_iff :
    quotesEscaped quote false text = true ↔
      ∀ front back, text = front ++ quote :: back → front.getLast? = some '\\' :=
  quotesEscaped_iff []

/-- A row of escapes and single characters passes the test, whatever stands in front. -/
theorem quotesEscaped_of_matchesInside (noBackslash : quote ≠ '\\')
    (inside : MatchesInside quote text) (behindBackslash : Bool) :
    quotesEscaped quote behindBackslash text = true := by
  -- An escape may end in a backslash, so that the rest is tested with either flag.
  induction inside generalizing behindBackslash with
  | nil => rfl
  | escape _ ih => simp [quotesEscaped, noBackslash.symm, ih]
  | single differs _ ih => simp [quotesEscaped, differs, ih]

/-- A text that passes the test is such a row: a backslash is read as an escape where a quote
follows, and as itself elsewhere. -/
theorem matchesInside_of_quotesEscaped (noBackslash : quote ≠ '\\')
    (escaped : quotesEscaped quote false text = true) : MatchesInside quote text := by
  -- An escape takes two characters along, hence the induction on the length.
  induction size : text.length using Nat.strong_induction_on generalizing text with
  | _ n ih =>
    cases text with
    | nil => exact .nil
    | cons c rest =>
      have first : c ≠ quote ∧ quotesEscaped quote (c == '\\') rest = true := by
        simpa [quotesEscaped] using escaped
      obtain ⟨differs, later⟩ := first
      cases rest with
      | nil => exact .single differs .nil
      | cons d rest =>
        have second : (d ≠ quote ∨ c = '\\') ∧ quotesEscaped quote (d == '\\') rest = true := by
          simpa [quotesEscaped] using later
        by_cases isQuote : d = quote
        · obtain rfl : c = '\\' := second.1.resolve_left fun other => other isQuote
          have noFlag : (d == '\\') = false := by simp [isQuote, noBackslash]
          exact .escape (ih rest.length (by rw [← size, List.length_cons, List.length_cons]; omega)
            (noFlag ▸ second.2) rfl)
        · have again : quotesEscaped quote false (d :: rest) = true := by
            simp [quotesEscaped, isQuote, second.2]
          exact .single differs (ih (d :: rest).length (by rw [← size]; simp) again rfl)

/-- **Acceptance is the test on quotes**: some way to read the backslashes makes a row of escapes
and single characters iff each quote has a backslash directly in front. -/
theorem matchesInside_iff (isQuote : isQuote quote = true) :
    MatchesInside quote text ↔
      ∀ front back, text = front ++ quote :: back → front.getLast? = some '\\' := by
  have noBackslash : quote ≠ '\\' := (of_isQuote isQuote).2.2.2.1
  rw [← quotesEscaped_false_iff]
  exact ⟨fun inside => quotesEscaped_of_matchesInside noBackslash inside false,
    matchesInside_of_quotesEscaped noBackslash⟩

end Quotes

/-! ## Unescaping -/

/-- A backslash that stands for itself is kept. -/
theorem unescape_backslash {rest : List Char} (stands : ∀ d ∈ rest.head?, d = '\n') :
    unescape ('\\' :: rest) = '\\' :: unescape rest := by
  cases rest with
  | nil => rfl
  | cons d rest =>
    obtain rfl : d = '\n' := stands d rfl
    rw [unescape, unescape_cons (by decide)]

/-- **The inside of a literal writes one string.** -/
theorem unescapes_iff {inside string : List Char} :
    Unescapes inside string ↔ unescape inside = string := by
  constructor
  · intro writes
    induction writes with
    | nil => rfl
    | escape noBreak _ ih => rw [unescape_backslash_cons noBreak, ih]
    | @keep c rest string stands _ ih =>
      by_cases backslash : c = '\\'
      · subst backslash
        rw [unescape_backslash (stands rfl), ih]
      · rw [unescape_cons backslash, ih]
  · rintro rfl
    -- The cases are the clauses of the function; in the last one no backslash begins an escape.
    fun_induction unescape inside with
    | case1 => exact .nil
    | case2 => exact .keep (by simp) .nil
    | case3 rest ih => exact .keep (by simp) (.keep (by simp) ih)
    | case4 c rest noBreak ih => exact .escape (by simpa using noBreak) ih
    | case5 c rest _ _ ordinary ih =>
      refine .keep (fun backslash d first => ?_) ih
      exact absurd (List.eq_cons_of_mem_head? first) (ordinary d rest.tail backslash)

/-! ## Literals -/

/-- The inside of a literal is found exactly where one is. -/
theorem literalBody?_eq_some_iff {text inside : List Char} :
    literalBody? text = some inside ↔ ∃ quote, IsLiteral quote inside text := by
  constructor
  · intro found
    cases text with
    | nil => cases found
    | cons quote rest =>
      rw [literalBody?] at found
      split at found
      next holds =>
        simp only [Bool.and_eq_true, beq_iff_eq] at holds
        obtain ⟨⟨isQuote, last⟩, escaped⟩ := holds
        obtain rfl := Option.some.inj found
        have whole : quote :: rest = quote :: (rest.dropLast ++ [quote]) := by
          rw [List.dropLast_append_getLast? quote last]
        exact ⟨quote, isQuote, whole, quotesEscaped_false_iff.1 escaped⟩
      next => cases found
  · rintro ⟨quote, isQuote, rfl, behind⟩
    have escaped := quotesEscaped_false_iff.2 behind
    simp [literalBody?, isQuote, escaped]

/-- An expression is read as a string exactly when it is a literal that writes the string. -/
theorem stringValue?_eq_some_iff {expression string : List Char} :
    stringValue? expression = some string ↔
      ∃ quote inside, IsLiteral quote inside (trim expression) ∧ Unescapes inside string := by
  rw [stringValue?, Option.map_eq_some_iff]
  constructor
  · rintro ⟨inside, found, rfl⟩
    obtain ⟨quote, literal⟩ := literalBody?_eq_some_iff.1 found
    exact ⟨quote, inside, literal, unescapes_iff.2 rfl⟩
  · rintro ⟨quote, inside, literal, writes⟩
    exact ⟨inside, literalBody?_eq_some_iff.2 ⟨quote, literal⟩, unescapes_iff.1 writes⟩

/-- Quotes and insides of a literal are determined by it. -/
theorem IsLiteral.unique {quote quote' : Char} {inside inside' text : List Char}
    (literal : IsLiteral quote inside text) (literal' : IsLiteral quote' inside' text) :
    inside = inside' := by
  have same := literal.whole.symm.trans literal'.whole
  obtain ⟨rfl, same⟩ := List.cons.inj same
  exact List.append_cancel_right same

/-- **The language of literals.** An expression is read as a string exactly when it is, trimmed, a
literal, whose quotes and backslashes are accepted in whatever way they can be read. The string is
what the inside of the literal writes. So a string that is written as a literal is read again, and
so are the strings of a list that is written from such literals. -/
theorem stringValue?_language :
    (∀ expression, (stringValue? expression).isSome ↔
      ∃ quote inside, IsLiteral quote inside (trim expression)) ∧
    (∀ expression quote inside, IsLiteral quote inside (trim expression) →
      ∀ string, stringValue? expression = some string ↔ Unescapes inside string) ∧
    (∀ quote inside, isQuote quote = true → (MatchesInside quote inside ↔
      ∀ front back, inside = front ++ quote :: back → front.getLast? = some '\\')) ∧
    (∀ string literal lead trail, WritesString string literal → IsGap lead → IsGap trail →
      stringValue? (lead ++ literal ++ trail) = some string) ∧
    ∀ strings body lead trail, WritesItems WritesString strings body → IsGap lead → IsGap trail →
      stringList? (lead ++ '[' :: (body ++ [']']) ++ trail) = some strings := by
  refine ⟨fun expression => ?_, fun expression quote inside literal string => ?_,
    fun quote inside isQuote => matchesInside_iff isQuote, ?_, ?_⟩
  · rw [Option.isSome_iff_exists]
    constructor
    · rintro ⟨string, found⟩
      obtain ⟨quote, inside, literal, -⟩ := stringValue?_eq_some_iff.1 found
      exact ⟨quote, inside, literal⟩
    · rintro ⟨quote, inside, literal⟩
      exact ⟨_, stringValue?_eq_some_iff.2 ⟨quote, inside, literal, unescapes_iff.2 rfl⟩⟩
  · rw [stringValue?_eq_some_iff]
    constructor
    · rintro ⟨quote', inside', literal', writes⟩
      rwa [literal.unique literal']
    · exact fun writes => ⟨quote, inside, literal, writes⟩
  · intro string literal lead trail written isLead isTrail
    rw [stringValue?, trim_padded isLead isTrail, ← stringValue?]
    exact stringValue?_of_writesString written
  · intro strings body lead trail written isLead isTrail
    rw [stringList?, trim_padded isLead isTrail, ← stringList?]
    exact stringList?_of_writesItems written

/-- Three backslashes in front of a quote, and two at the end. -/
def backslashRuns : List Char := "\\\\\\\" \\\\".toList

/-- Runs of backslashes are read from left to right, alone and in a list. -/
theorem stringValue?_language_runs :
    IsLiteral '"' backslashRuns (trim (" \"".toList ++ backslashRuns ++ "\"\n".toList)) ∧
    stringValue? (" \"".toList ++ backslashRuns ++ "\"\n".toList) = some "\\\" \\".toList ∧
    MatchesInside '"' backslashRuns ∧
    WritesString "\\'".toList "'\\\\\\''".toList ∧
    stringValue? (" ".toList ++ "'\\\\\\''".toList ++ []) = some "\\'".toList ∧
    stringList? ([] ++ '[' :: (" '\\\\\\'',".toList ++ [']']) ++ " ".toList) =
      some ["\\'".toList] := by
  have isQuote : isQuote '"' = true := by decide
  have test : quotesEscaped '"' false backslashRuns = true := by decide
  have escaped := quotesEscaped_false_iff.1 test
  have literal : IsLiteral '"' backslashRuns
      (trim (" \"".toList ++ backslashRuns ++ "\"\n".toList)) := ⟨isQuote, by decide, escaped⟩
  have writes : Unescapes backslashRuns "\\\" \\".toList := unescapes_iff.2 (by decide)
  have single : Source.isQuote '\'' = true := by decide
  have quoted : WritesString "\\'".toList "'\\\\\\''".toList := .quoted single
  have space : IsGap " ".toList := by decide
  have listed : WritesItems WritesString ["\\'".toList] " '\\\\\\'',".toList :=
    .cons space quoted isGap_nil (.nil isGap_nil)
  obtain ⟨-, reads, accepts, alone, together⟩ := stringValue?_language
  exact ⟨literal, (reads _ _ _ literal _).2 writes, (accepts _ _ isQuote).2 escaped, quoted,
    alone _ _ _ _ quoted space isGap_nil, together _ _ _ _ listed isGap_nil space⟩

end FileRoutes.Source
