import FileRoutes.Proofs.Source.Nesting

/-! # Writing strings as literals

A string is written between two equal quotes, with a backslash in front of each backslash and each
quote of that kind (`escape`). Reading such a literal gives the string back
(`stringValue?_of_writesString`), and the literal is well-nested code whatever the string holds
(`isToken_of_writesString`). -/

namespace FileRoutes.Source

open Text

/-- One character of a string as a literal writes it. -/
def escapeChar (quote c : Char) : List Char :=
  if c = '\\' ∨ c = quote then ['\\', c] else [c]

/-- A string as a literal writes it between its quotes. -/
def escape (quote : Char) (string : List Char) : List Char :=
  string.flatMap (escapeChar quote)

/-- The literals of a string, in each of the kinds of quotes. -/
inductive WritesString (string : List Char) : List Char → Prop where
  /-- The literal in one kind of quotes. -/
  | quoted {quote : Char} (isQuote : isQuote quote = true) :
      WritesString string (quote :: (escape quote string ++ [quote]))

/-! ## Escaped strings -/

section Escape

variable {quote : Char}

/-- An escaped string is its first character, escaped, and the others. -/
theorem escape_cons (c : Char) (string : List Char) :
    escape quote (c :: string) = escapeChar quote c ++ escape quote string := rfl

/-- Backslashes and quotes get a backslash in front. -/
theorem escape_cons_of_special {c : Char} (special : c = '\\' ∨ c = quote) (string : List Char) :
    escape quote (c :: string) = '\\' :: c :: escape quote string := by
  rw [escape_cons, escapeChar, if_pos special]
  rfl

/-- Every other character is written as it is. -/
theorem escape_cons_of_ordinary {c : Char} (ordinary : ¬(c = '\\' ∨ c = quote))
    (string : List Char) : escape quote (c :: string) = c :: escape quote string := by
  rw [escape_cons, escapeChar, if_neg ordinary]
  rfl

/-- An escaped string may stand between the quotes of a literal. -/
theorem literalBody_escape (string : List Char) : LiteralBody quote (escape quote string) := by
  induction string with
  | nil => exact .nil
  | cons c string ih =>
    by_cases special : c = '\\' ∨ c = quote
    · rw [escape_cons_of_special special]
      exact .escaped ih
    · rw [escape_cons_of_ordinary special]
      rw [not_or] at special
      exact .plain special.2 special.1 ih

/-- No quote of an escaped string lacks its backslash. -/
theorem quotesEscaped_escape (noBackslash : quote ≠ '\\') (behindBackslash : Bool)
    (string : List Char) : quotesEscaped quote behindBackslash (escape quote string) = true := by
  -- A special character is met behind its backslash, and leaves no backslash pending.
  induction string generalizing behindBackslash with
  | nil => rfl
  | cons c string ih =>
    by_cases special : c = '\\' ∨ c = quote
    · rw [escape_cons_of_special special]
      simp [quotesEscaped, noBackslash.symm, ih]
    · rw [escape_cons_of_ordinary special]
      rw [not_or] at special
      simp [quotesEscaped, special.2, ih]

/-- A character that is no backslash stands for itself. -/
theorem unescape_cons {c : Char} (ordinary : c ≠ '\\') (text : List Char) :
    unescape (c :: text) = c :: unescape text := by
  rw [unescape]
  all_goals simp_all

/-- A backslash gives way to a backslash or a quote behind it. -/
theorem unescape_backslash_cons {c : Char} (noBreak : c ≠ '\n') (text : List Char) :
    unescape ('\\' :: c :: text) = c :: unescape text := by
  rw [unescape]
  simpa using noBreak

/-- Reading an escaped string gives the string back. -/
theorem unescape_escape (isQuote : isQuote quote = true) (string : List Char) :
    unescape (escape quote string) = string := by
  -- A line break behind a backslash would be dropped, but no quote is one.
  have noBreak : quote ≠ '\n' := by
    rintro rfl
    exact absurd isQuote (by decide)
  induction string with
  | nil => rfl
  | cons c string ih =>
    by_cases special : c = '\\' ∨ c = quote
    · have stays : c ≠ '\n' := by rcases special with rfl | rfl; exacts [by decide, noBreak]
      rw [escape_cons_of_special special, unescape_backslash_cons stays, ih]
    · rw [escape_cons_of_ordinary special, unescape_cons (not_or.1 special).1, ih]

end Escape

/-! ## Literals as tokens -/

/-- A **token** of code can stand between gaps in a list: it is well nested without commas of its
own, begins and ends with other characters than blanks, and is not empty. -/
structure IsToken (text : List Char) : Prop where
  /-- The token is code. -/
  code : WellNested false text
  /-- Nothing is cut off at its ends. -/
  trimmed : trim text = text
  /-- There is something to read. -/
  nonempty : text ≠ []

/-- A literal is a token. -/
theorem isToken_of_writesString {string text : List Char} (written : WritesString string text) :
    IsToken text := by
  obtain ⟨isQuote⟩ := written
  have solid := (of_isQuote isQuote).2.2.2.2
  exact ⟨.literal isQuote (literalBody_escape string) .nil, trim_cons_concat solid solid _, by simp⟩

/-- **Reading a literal gives the string that it writes.** -/
theorem stringValue?_of_writesString {string text : List Char}
    (written : WritesString string text) : stringValue? text = some string := by
  have trimmed := (isToken_of_writesString written).trimmed
  obtain ⟨isQuote⟩ := written
  rename_i quote
  have noBackslash := (of_isQuote isQuote).2.2.2.1
  have body : literalBody? (quote :: (escape quote string ++ [quote])) =
      some (escape quote string) := by
    simp [literalBody?, isQuote, quotesEscaped_escape noBackslash]
  rw [stringValue?, trimmed, body, Option.map_some, unescape_escape isQuote]

end FileRoutes.Source
