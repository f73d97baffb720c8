import FileRoutes.Proofs.Source.Balance
import FileRoutes.Proofs.Source.Literals
import Mathlib.Algebra.Ring.Parity

/-! # Where literals are closed

A quote closes its literal when the backslashes in front of it are even in number: read from left to
right they then take each other along (`literalLength?_eq_some_iff`). A text is **scanned whole**
(`IsScannedWhole`) when it is one literal in that sense. Such a text is read as a string, but not
the other way round, since a string is read off the single characters in front of the quotes. The
two readings agree on exactly the texts in which the backslashes in front of each quote are odd in
number and those in front of the last one even (`readings_agree_iff`).

* `step_modeBehind`, `run_modeBehind`: the number of backslashes is what the scanner remembers.
* `isScannedWhole_iff`: a text that is scanned whole is its inside between two equal quotes. -/

namespace FileRoutes.Source

open Text

/-! ## Runs of backslashes -/

/-- The number of backslashes at the end of a text. -/
def backslashRun (text : List Char) : Nat :=
  (text.reverse.takeWhile (· == '\\')).length

/-- Nothing ends in no backslashes. -/
@[simp] theorem backslashRun_nil : backslashRun [] = 0 := rfl

/-- A backslash makes the run longer. -/
@[simp] theorem backslashRun_concat_backslash (text : List Char) :
    backslashRun (text ++ ['\\']) = backslashRun text + 1 := by
  simp [backslashRun]

/-- Any other character ends the run. -/
theorem backslashRun_concat_of_ne {c : Char} (differs : c ≠ '\\') (text : List Char) :
    backslashRun (text ++ [c]) = 0 := by
  simp [backslashRun, differs]

/-- A backslash stands at the end iff the run is not empty. -/
theorem getLast?_eq_backslash_iff {text : List Char} :
    text.getLast? = some '\\' ↔ backslashRun text ≠ 0 := by
  induction text using List.reverseRecOn with
  | nil => simp
  | append_singleton text c =>
    by_cases backslash : c = '\\'
    · simp [backslash]
    · simp [backslash, backslashRun_concat_of_ne backslash]

/-- All quotes of a kind are **escaped** in a text when, behind what was read in front of it, each
of them has an odd number of backslashes in front. -/
def AllEscaped (quote : Char) (read text : List Char) : Prop :=
  ∀ front back, text = front ++ quote :: back → Odd (backslashRun (read ++ front))

/-- In no text there is a quote. -/
@[simp] theorem allEscaped_nil (quote : Char) (read : List Char) : AllEscaped quote read [] := by
  simp [AllEscaped]

/-- Of a text the first character is tested, and then the others behind it. -/
theorem allEscaped_cons {quote c : Char} {read rest : List Char} :
    AllEscaped quote read (c :: rest) ↔
      (c = quote → Odd (backslashRun read)) ∧ AllEscaped quote (read ++ [c]) rest := by
  constructor
  · intro escaped
    refine ⟨fun isQuote => ?_, fun front back whole => ?_⟩
    · simpa using escaped [] rest (by rw [isQuote]; rfl)
    · simpa using escaped (c :: front) back (by rw [whole]; rfl)
  · rintro ⟨first, later⟩ front back whole
    cases front with
    | nil =>
      rw [List.append_nil]
      exact first (List.cons.inj whole).1
    | cons d front =>
      obtain ⟨rfl, rfl⟩ := List.cons.inj whole
      simpa using later front back rfl

/-! ## What the scanner remembers -/

/-- Where the scanner stands behind a text in a literal, of which no quote has closed it. -/
def modeBehind (quote : Char) (read : List Char) : Mode :=
  if Even (backslashRun read) then .literal quote else .escaped quote

/-- Behind the opening quote the literal begins. -/
@[simp] theorem modeBehind_nil (quote : Char) : modeBehind quote [] = .literal quote := rfl

/-- Reading has not come out of the literal. -/
theorem modeBehind_ne_code (quote : Char) (read : List Char) : modeBehind quote read ≠ .code := by
  unfold modeBehind
  split <;> simp

/-- The scanner stands in the literal itself iff the run of backslashes is even. -/
theorem modeBehind_eq_literal_iff {quote : Char} {read : List Char} :
    modeBehind quote read = .literal quote ↔ Even (backslashRun read) := by
  simp [modeBehind]

section Closing

variable {quote : Char} {read text rest : List Char}

/-- **One more character** leads on in the literal, but for a quote behind an even run. -/
theorem step_modeBehind {c : Char} (goesOn : c = quote → Odd (backslashRun read)) :
    (modeBehind quote read).step c = modeBehind quote (read ++ [c]) := by
  by_cases even : Even (backslashRun read)
  · have differs : c ≠ quote := fun isQuote => Nat.not_even_iff_odd.2 (goesOn isQuote) even
    by_cases backslash : c = '\\'
    · simp [modeBehind, even, backslash, Mode.step, Nat.even_add_one]
    · simp [modeBehind, even, backslash, differs, Mode.step, backslashRun_concat_of_ne backslash]
  · by_cases backslash : c = '\\'
    · simp [modeBehind, even, backslash, Mode.step, Nat.even_add_one]
    · simp [modeBehind, even, Mode.step, backslashRun_concat_of_ne backslash]

/-- **A quote behind an even run** closes the literal. -/
theorem step_modeBehind_quote (noBackslash : quote ≠ '\\') (even : Even (backslashRun read)) :
    (modeBehind quote read).step quote = .code := by
  simp [modeBehind, even, Mode.step, noBackslash]

/-- **Reading goes on** in the literal over a text in which all quotes are escaped. -/
theorem run_modeBehind (escaped : AllEscaped quote read text) (depth : Int) :
    Scanner.run ⟨modeBehind quote read, depth⟩ text = ⟨modeBehind quote (read ++ text), depth⟩ := by
  induction text generalizing read with
  | nil => rw [Scanner.run_nil, List.append_nil]
  | cons c rest ih =>
    obtain ⟨goesOn, later⟩ := allEscaped_cons.1 escaped
    rw [Scanner.run_cons, step_of_ne_code depth (modeBehind_ne_code quote read),
      step_modeBehind goesOn, ih later, List.append_assoc, List.singleton_append]

/-- **A literal is closed** by the first quote behind an even run of backslashes. -/
theorem literalLength?_modeBehind (noBackslash : quote ≠ '\\') {length : Nat} :
    literalLength? (modeBehind quote read) text = some length ↔
      ∃ inside back, text = inside ++ quote :: back ∧ length = inside.length + 1 ∧
        Even (backslashRun (read ++ inside)) ∧ AllEscaped quote read inside := by
  induction text generalizing read length with
  | nil => simp [literalLength?_nil (modeBehind_ne_code quote read)]
  | cons c rest ih =>
    rw [literalLength?_cons (modeBehind_ne_code quote read)]
    by_cases closes : c = quote ∧ Even (backslashRun read)
    · obtain ⟨rfl, even⟩ := closes
      rw [step_modeBehind_quote noBackslash even, literalLength?_code]
      constructor
      · intro one
        obtain rfl : 1 = length := by simpa using one
        exact ⟨[], rest, rfl, rfl, by simpa using even, allEscaped_nil c read⟩
      · rintro ⟨inside, back, whole, rfl, -, escaped⟩
        -- A longer inside would begin with the quote, which is not escaped.
        cases inside with
        | nil => rfl
        | cons d inside =>
          obtain ⟨rfl, -⟩ := List.cons.inj whole
          exact absurd even (Nat.not_even_iff_odd.2 ((allEscaped_cons.1 escaped).1 rfl))
    · have goesOn : c = quote → Odd (backslashRun read) := fun isQuote =>
        Nat.not_even_iff_odd.1 fun even => closes ⟨isQuote, even⟩
      rw [step_modeBehind goesOn, Option.map_eq_some_iff]
      constructor
      · rintro ⟨before, closed, rfl⟩
        obtain ⟨inside, back, rfl, rfl, even, escaped⟩ := ih.1 closed
        exact ⟨c :: inside, back, rfl, rfl, by simpa using even,
          allEscaped_cons.2 ⟨goesOn, escaped⟩⟩
      · rintro ⟨inside, back, whole, rfl, even, escaped⟩
        cases inside with
        | nil =>
          obtain ⟨rfl, -⟩ := List.cons.inj whole
          exact absurd ⟨rfl, by simpa using even⟩ closes
        | cons d inside =>
          obtain ⟨rfl, rfl⟩ := List.cons.inj whole
          exact ⟨inside.length + 1, ih.2 ⟨inside, back, rfl, rfl, by simpa using even,
            (allEscaped_cons.1 escaped).2⟩, rfl⟩

/-- **The length of a literal**: it goes on to the first quote behind an even run of backslashes. -/
theorem literalLength?_eq_some_iff (noBackslash : quote ≠ '\\') {length : Nat} :
    literalLength? (.literal quote) text = some length ↔
      ∃ inside back, text = inside ++ quote :: back ∧ length = inside.length + 1 ∧
        Even (backslashRun inside) ∧ AllEscaped quote [] inside := by
  rw [← modeBehind_nil quote]
  exact literalLength?_modeBehind noBackslash

end Closing

/-! ## Texts that are scanned whole -/

/-- A text is **scanned whole** as one complete literal: a quote begins it, the literal that begins
there ends with the text, and its last character is that quote, where the scanner stands in the
literal and not behind a backslash. -/
structure IsScannedWhole (quote : Char) (text : List Char) : Prop where
  /-- The first character is the quote. -/
  first : text.head? = some quote
  /-- It begins a literal. -/
  isQuote : isQuote quote = true
  /-- The literal goes on to the end of the text. -/
  ends : literalEnd text 0 = text.length
  /-- The last character is the quote. -/
  last : text.getLast? = some quote
  /-- In front of the last character the scanner is in the literal. -/
  unescaped : (Scanner.start.run text.dropLast).mode = .literal quote

section Whole

variable {quote : Char} {inside text : List Char}

/-- The opening quote leads into the literal. -/
theorem run_start_quote (isQuote : isQuote quote = true) (text : List Char) :
    Scanner.start.run (quote :: text) = Scanner.run ⟨modeBehind quote [], 0⟩ text := by
  rw [Scanner.run_cons, Scanner.start, step_of_isQuote 0 isQuote, modeBehind_nil]

/-- A literal that goes on to the end of a text is closed there when the scanner stands in it in
front of the last quote. -/
theorem literalLength?_of_ends (isQuote : isQuote quote = true)
    (ends : literalEnd (quote :: (inside ++ [quote])) 0 = (quote :: (inside ++ [quote])).length)
    (unescaped : (Scanner.start.run (quote :: inside)).mode = .literal quote) :
    literalLength? (.literal quote) (inside ++ [quote]) = some (inside.length + 1) := by
  have noBackslash : quote ≠ '\\' := (of_isQuote isQuote).2.2.2.1
  have out : (Scanner.run ⟨.literal quote, 0⟩ (inside ++ [quote])).mode = .code := by
    rw [run_start_quote isQuote, modeBehind_nil] at unescaped
    rw [Scanner.run_append, Scanner.run_cons, Scanner.run_nil, Scanner.step, unescaped]
    simp [Mode.step, noBackslash]
  -- So the literal is closed somewhere, and its end says where.
  obtain ⟨length, closed⟩ := exists_literalLength?_of_run out
  rw [literalEnd, List.drop_zero] at ends
  simp only [closed, List.length_cons, List.length_append, List.length_nil] at ends
  rw [closed]
  congr
  omega

/-- **A text that is scanned whole** is its inside between two equal quotes, with an even run of
backslashes in front of the last quote and an odd one in front of each quote in between. -/
theorem isScannedWhole_iff :
    IsScannedWhole quote text ↔ isQuote quote = true ∧ ∃ inside,
      text = quote :: (inside ++ [quote]) ∧ Even (backslashRun inside) ∧
        AllEscaped quote [] inside := by
  constructor
  · rintro ⟨first, isQuote, ends, last, unescaped⟩
    have noBackslash : quote ≠ '\\' := (of_isQuote isQuote).2.2.2.1
    obtain ⟨rest, rfl⟩ : ∃ rest, text = quote :: rest := ⟨_, List.eq_cons_of_mem_head? first⟩
    -- A quote alone leaves the scanner in code.
    have nonempty : rest ≠ [] := by
      rintro rfl
      cases unescaped
    obtain ⟨inside, d, rfl⟩ := (List.eq_nil_or_concat' rest).resolve_left nonempty
    obtain rfl : d = quote := by
      rw [← List.cons_append, List.getLast?_concat] at last
      exact Option.some.inj last
    rw [← List.cons_append, List.dropLast_concat] at unescaped
    have closed := literalLength?_of_ends isQuote ends unescaped
    obtain ⟨inside', back, whole, length, even, escaped⟩ :=
      (literalLength?_eq_some_iff noBackslash).1 closed
    -- Both insides have the same length, and stand in front of a quote in the same text.
    obtain ⟨rfl, -⟩ := List.append_inj whole (by omega)
    exact ⟨isQuote, inside, rfl, even, escaped⟩
  · rintro ⟨isQuote, inside, rfl, even, escaped⟩
    have noBackslash : quote ≠ '\\' := (of_isQuote isQuote).2.2.2.1
    have closed : literalLength? (.literal quote) (inside ++ [quote]) = some (inside.length + 1) :=
      (literalLength?_eq_some_iff noBackslash).2 ⟨inside, [], rfl, rfl, even, escaped⟩
    have within : Scanner.start.run (quote :: inside) = ⟨modeBehind quote inside, 0⟩ := by
      rw [run_start_quote isQuote, run_modeBehind escaped, List.nil_append]
    have last : (quote :: (inside ++ [quote])).getLast? = some quote := by
      rw [← List.cons_append, List.getLast?_concat]
    refine ⟨rfl, isQuote, ?_, last, ?_⟩
    · rw [literalEnd, List.drop_zero]
      simp only [closed, List.length_cons, List.length_append, List.length_nil]
      omega
    · rw [← List.cons_append, List.dropLast_concat, within]
      exact modeBehind_eq_literal_iff.2 even

/-- In a literal all runs of backslashes that stand in front of its quotes are **as the scanner
needs them**: odd in front of those in between, and even in front of the last one. -/
structure HasClosingRuns (quote : Char) (inside : List Char) : Prop where
  /-- The quotes in between are escaped. -/
  between : AllEscaped quote [] inside
  /-- The last one is not. -/
  last : Even (backslashRun inside)

/-- A text is scanned whole iff it is a literal with such runs. -/
theorem isScannedWhole_iff_isLiteral :
    IsScannedWhole quote text ↔
      ∃ inside, IsLiteral quote inside text ∧ HasClosingRuns quote inside := by
  rw [isScannedWhole_iff]
  constructor
  · rintro ⟨isQuote, inside, whole, even, escaped⟩
    refine ⟨inside, ⟨isQuote, whole, fun front back equal => ?_⟩, escaped, even⟩
    -- An odd run is not empty.
    exact getLast?_eq_backslash_iff.2 (escaped front back equal).pos.ne'
  · rintro ⟨inside, literal, escaped, even⟩
    exact ⟨literal.isQuote, inside, literal.whole, even, escaped⟩

end Whole

/-- **The two readings of literals**, for an expression without the blanks around it. What is
scanned whole is read as a string. The converse holds exactly when the expression is no literal or
one in which the backslashes in front of the quotes in between are odd in number, and those in front
of the last quote even. -/
theorem readings_agree_iff (expression : List Char) :
    ((∃ quote, IsScannedWhole quote (trim expression)) → (stringValue? expression).isSome) ∧
    (((stringValue? expression).isSome ↔ ∃ quote, IsScannedWhole quote (trim expression)) ↔
      ∀ quote inside, IsLiteral quote inside (trim expression) → HasClosingRuns quote inside) := by
  have language : (stringValue? expression).isSome ↔
      ∃ quote inside, IsLiteral quote inside (trim expression) := by
    simp only [Option.isSome_iff_exists, stringValue?_eq_some_iff]
    constructor
    · rintro ⟨string, quote, inside, literal, -⟩
      exact ⟨quote, inside, literal⟩
    · rintro ⟨quote, inside, literal⟩
      exact ⟨unescape inside, quote, inside, literal, unescapes_iff.2 rfl⟩
  have scanned : (∃ quote, IsScannedWhole quote (trim expression)) →
      (stringValue? expression).isSome := by
    rintro ⟨quote, whole⟩
    obtain ⟨inside, literal, -⟩ := isScannedWhole_iff_isLiteral.1 whole
    exact language.2 ⟨quote, inside, literal⟩
  refine ⟨scanned, ?_, fun runs => ⟨fun read => ?_, scanned⟩⟩
  · intro agrees quote inside literal
    obtain ⟨quote', whole⟩ := agrees.1 (language.2 ⟨quote, inside, literal⟩)
    obtain ⟨inside', literal', runs⟩ := isScannedWhole_iff_isLiteral.1 whole
    obtain rfl : quote = quote' := (List.cons.inj (literal.whole.symm.trans literal'.whole)).1
    rwa [literal.unique literal']
  · obtain ⟨quote, inside, literal⟩ := language.1 read
    exact ⟨quote, isScannedWhole_iff_isLiteral.2 ⟨inside, literal, runs quote inside literal⟩⟩

/-- Two literals with code between them, of which the first ends in two backslashes. -/
def twoLiterals : List Char := "\"a\\\\\"b\\\\\"c\"".toList

/-- Those two literals are read as one string, and are not scanned whole. -/
theorem readings_disagree_twoLiterals :
    ¬ ∀ text : List Char, text ≠ [] → trim text = text →
      ((stringValue? text).isSome ↔ ∃ quote, IsScannedWhole quote text) := by
  intro agrees
  have read : (stringValue? twoLiterals).isSome := by decide
  obtain ⟨quote, whole⟩ := (agrees twoLiterals (by decide) (by decide)).1 read
  have ends : literalEnd twoLiterals 0 ≠ twoLiterals.length := by decide
  exact ends whole.ends

end FileRoutes.Source
