import FileRoutes.Json.Parser
import FileRoutes.Json.Printer
import FileRoutes.Proofs.Text.Decimal

/-! # Strings and numbers in JSON

The parts of a printed value are read back one by one. A character inside a string is printed as one
code unit or two (`codeUnits`), each of them as itself or as an escape (`readUnits?_printedChar`), and
the units of a text are put together to that text (`joinSurrogates?_flatMap`), so that any text is
read back (`readString?_printed`). A number is read back when no character follows that would
belong to it (`readNumber?_toDigits`, `readNumber?_printedUnits`). -/

namespace FileRoutes.Json

/-! ## Filler -/

/-- Filler is skipped. -/
theorem skipFiller_append {filler : List Char} (all : ∀ c ∈ filler, isFiller c = true)
    (text : List Char) : skipFiller (filler ++ text) = skipFiller text :=
  List.dropWhile_append_of_pos all

/-- Nothing else is skipped. -/
theorem skipFiller_cons {c : Char} (solid : isFiller c = false) (rest : List Char) :
    skipFiller (c :: rest) = c :: rest :=
  List.dropWhile_cons_of_neg (by simp [solid])

/-- The start of a new line is filler. -/
theorem isFiller_of_mem_newLine {level : Nat} {c : Char} (member : c ∈ newLine level) :
    isFiller c = true := by
  rcases List.mem_cons.1 member with rfl | member
  · decide
  · obtain rfl := List.eq_of_mem_replicate member
    decide

/-! ## Strings -/

/-- A hexadecimal digit has the value that it is made for. -/
theorem hexValue?_hexDigit {value : Nat} (small : value < 16) :
    hexValue? (Text.hexDigit value) = some value := by
  interval_cases value <;> rfl

/-- Four hexadecimal digits write a number of sixteen bits. -/
theorem hexUnit?_hexDigits {unit : Nat} (small : unit < 0x10000) :
    hexUnit? (Text.hexDigit (unit / 16 / 16 / 16 % 16)) (Text.hexDigit (unit / 16 / 16 % 16))
      (Text.hexDigit (unit / 16 % 16)) (Text.hexDigit (unit % 16)) = some unit := by
  simp only [hexUnit?, hexValue?_hexDigit (Nat.mod_lt _ (by decide : 0 < 16)),
    Option.bind_eq_bind, Option.bind_some, Option.pure_def, Option.some.injEq]
  omega

/-- What is read of a string behind one more code unit. -/
def behindUnit (unit : Nat) (found : Option (List Nat × List Char)) :
    Option (List Nat × List Char) :=
  found.map fun found => (unit :: found.1, found.2)

/-- **A code unit is read back** from its escape. -/
theorem readUnits?_unitEscape {unit : Nat} (small : unit < 0x10000) (rest : List Char) :
    readUnits? (unitEscape unit ++ rest) = behindUnit unit (readUnits? rest) := by
  have digits : Text.hexDigits 4 unit =
      [Text.hexDigit (unit / 16 / 16 / 16 % 16), Text.hexDigit (unit / 16 / 16 % 16),
        Text.hexDigit (unit / 16 % 16), Text.hexDigit (unit % 16)] := rfl
  rw [unitEscape, digits]
  simp only [List.cons_append, List.nil_append, readUnits?, hexUnit?_hexDigits small]
  cases readUnits? rest <;> rfl

/-- A short escape is read as its code point. -/
theorem readUnits?_shortEscape {letter : Char} {unit : Nat}
    (short : shortEscape? letter = some unit) (rest : List Char) :
    readUnits? ('\\' :: letter :: rest) = behindUnit unit (readUnits? rest) := by
  have other : letter ≠ 'u' := by
    rintro rfl
    cases short
  rw [readUnits?]
  · rw [short]
    cases readUnits? rest <;> rfl
  · exact fun _ _ _ _ _ same _ => other same

/-- Any other character is read as itself, unless it is a control character. -/
theorem readUnits?_plain {c : Char} (notQuote : c ≠ '"') (notEscape : c ≠ '\\')
    (visible : 0x20 ≤ c.toNat) (rest : List Char) :
    readUnits? (c :: rest) = behindUnit c.toNat (readUnits? rest) := by
  rw [readUnits?]
  · simp only [visible, guard_true]
    cases readUnits? rest <;> rfl
  · exact notQuote
  · exact fun _ _ _ _ _ same _ => notEscape same
  · exact fun _ _ same _ => notEscape same

/-- The **code units** of a character: itself, or two surrogates beyond sixteen bits. -/
def codeUnits (c : Char) : List Nat :=
  if c.toNat < 0x10000 then [c.toNat]
  else [0xD800 + (c.toNat - 0x10000) / 0x400, 0xDC00 + (c.toNat - 0x10000) % 0x400]

/-- A character has no code point of a surrogate. -/
theorem not_surrogate (c : Char) : c.toNat < 0xD800 ∨ 0xDFFF < c.toNat ∧ c.toNat < 0x110000 :=
  c.valid

/-- The character of a number. -/
theorem ofNat_eq {c : Char} {code : Nat} (same : code = c.toNat) : Char.ofNat code = c := by
  rw [same, Char.ofNat_toNat]

/-- **How a character is printed**: by a short escape, as itself, or by the escapes of its code units,
of which there are one or two. -/
theorem printedChar_cases (c : Char) :
    (∃ letter, printedChar c = ['\\', letter] ∧ shortEscape? letter = some c.toNat ∧
      codeUnits c = [c.toNat]) ∨
    (printedChar c = [c] ∧ c ≠ '"' ∧ c ≠ '\\' ∧ 0x20 ≤ c.toNat ∧ c.toNat ≤ 0x7E ∧
      codeUnits c = [c.toNat]) ∨
    (printedChar c = unitEscape c.toNat ∧ c.toNat < 0x10000 ∧ codeUnits c = [c.toNat]) ∨
    ∃ high low, printedChar c = unitEscape high ++ unitEscape low ∧ high < 0x10000 ∧
      low < 0x10000 ∧ codeUnits c = [high, low] := by
  unfold printedChar
  split
  next marked =>
    obtain rfl | rfl := marked
    all_goals exact .inl ⟨_, rfl, rfl, rfl⟩
  next unmarked =>
    obtain ⟨notQuote, notEscape⟩ := not_or.1 unmarked
    iterate 5
      split
      next same =>
        subst same
        exact .inl ⟨_, rfl, rfl, rfl⟩
    split
    next visible =>
      have units : codeUnits c = [c.toNat] := if_pos (by omega)
      exact .inr (.inl ⟨rfl, notQuote, notEscape, visible.1, visible.2, units⟩)
    split
    next small => exact .inr (.inr (.inl ⟨rfl, small, if_pos small⟩))
    next large =>
      have range := not_surrogate c
      exact .inr (.inr (.inr ⟨_, _, rfl, by omega, by omega, if_neg large⟩))

/-- **A character is read back** as its code units, however it is printed. -/
theorem readUnits?_printedChar (c : Char) (rest : List Char) :
    readUnits? (printedChar c ++ rest) =
      (readUnits? rest).map fun found => (codeUnits c ++ found.1, found.2) := by
  rcases printedChar_cases c with ⟨letter, printed, short, units⟩ |
    ⟨printed, notQuote, notEscape, visible, -, units⟩ | ⟨printed, small, units⟩ |
    ⟨high, low, printed, small, small', units⟩
  · rw [printed, units]
    exact readUnits?_shortEscape short rest
  · rw [printed, units]
    exact readUnits?_plain notQuote notEscape visible rest
  · rw [printed, units]
    exact readUnits?_unitEscape small rest
  · rw [printed, units, List.append_assoc, readUnits?_unitEscape small,
      readUnits?_unitEscape small']
    cases readUnits? rest <;> rfl

/-- **The code units of a character are put together** to it. -/
theorem joinSurrogates?_codeUnits (c : Char) (units : List Nat) :
    joinSurrogates? (codeUnits c ++ units) = (joinSurrogates? units).map (c :: ·) := by
  have range := not_surrogate c
  unfold codeUnits
  split
  next small =>
    rw [List.singleton_append, joinSurrogates?.eq_def]
    dsimp only
    rw [if_neg (by omega), if_neg (by omega), Char.ofNat_toNat]
  next large =>
    rw [List.cons_append, List.singleton_append, joinSurrogates?.eq_def]
    dsimp only
    rw [if_pos (by omega), if_pos (by omega), ofNat_eq]
    omega

/-- **The characters of a text are read back** as their code units, up to the closing quote. -/
theorem readUnits?_flatMap (text rest : List Char) :
    readUnits? (text.flatMap printedChar ++ '"' :: rest) =
      some (text.flatMap codeUnits, rest) := by
  induction text with
  | nil => simp [readUnits?]
  | cons c text ih =>
    rw [List.flatMap_cons, List.append_assoc, readUnits?_printedChar, ih]
    rfl

/-- The code units of a text are put together to it. -/
theorem joinSurrogates?_flatMap (text : List Char) :
    joinSurrogates? (text.flatMap codeUnits) = some text := by
  induction text with
  | nil => rfl
  | cons c text ih =>
    rw [List.flatMap_cons, joinSurrogates?_codeUnits, ih]
    rfl

/-- **A string is read back**, whatever it holds. -/
theorem readString?_printed (text : String) (rest : List Char) :
    readString? (text.toList.flatMap printedChar ++ '"' :: rest) = some (text, rest) := by
  simp only [readString?, readUnits?_flatMap, joinSurrogates?_flatMap, Option.bind_eq_bind,
    Option.bind_some, String.ofList_toList, Option.pure_def]

/-! ## Numbers -/

/-- A text **ends a number** when it begins with no character that would belong to it. -/
def EndsNumber (text : List Char) : Prop :=
  ∀ c ∈ text.head?, c.isDigit = false ∧ c ≠ '.' ∧ c ≠ 'e' ∧ c ≠ 'E'

/-- A text ends a number by its first character. -/
theorem endsNumber_cons {c : Char} {rest : List Char} :
    EndsNumber (c :: rest) ↔ c.isDigit = false ∧ c ≠ '.' ∧ c ≠ 'e' ∧ c ≠ 'E' := by
  simp [EndsNumber]

/-- No exponent begins a text that ends a number. -/
theorem EndsNumber.beginsExponent {rest : List Char} (ends : EndsNumber rest) :
    beginsExponent rest = false := by
  unfold Json.beginsExponent
  split
  · exact absurd rfl (endsNumber_cons.1 ends).2.2.1
  · exact absurd rfl (endsNumber_cons.1 ends).2.2.2
  · rfl

/-- **Digits are read** up to a text that does not go on with one. -/
theorem readDigits?_append {digits rest : List Char} (nonempty : digits ≠ [])
    (all : ∀ c ∈ digits, c.isDigit = true) (ends : ∀ c ∈ rest.head?, c.isDigit = false) :
    readDigits? (digits ++ rest) = some (digits, rest) := by
  have some : (!digits.isEmpty) = true := by simpa using nonempty
  have none : rest.takeWhile Char.isDigit = [] ∧ rest.dropWhile Char.isDigit = rest := by
    cases rest with
    | nil => exact ⟨rfl, rfl⟩
    | cons c rest =>
      have other : ¬ c.isDigit = true := by simp [ends c rfl]
      exact ⟨List.takeWhile_cons_of_neg other, List.dropWhile_cons_of_neg other⟩
  simp only [readDigits?, List.takeWhile_append_of_pos all, List.dropWhile_append_of_pos all,
    none.1, none.2, List.append_nil, some, guard_true, Option.pure_def, Option.bind_eq_bind,
    Option.bind_some]

/-- The digits of a number are read. -/
theorem readDigits?_toDigits (value : Nat) {rest : List Char}
    (ends : ∀ c ∈ rest.head?, c.isDigit = false) :
    readDigits? (Nat.toDigits 10 value ++ rest) = some (Nat.toDigits 10 value, rest) :=
  readDigits?_append Nat.toDigits_ne_nil
    (fun _ member => Nat.isDigit_of_mem_toDigits (by decide) (by decide) member) ends

/-- **A natural number is read back** behind its sign, in front of a text that ends it. -/
theorem readNumber?_toDigits (sign : Int) (value : Nat) {rest : List Char}
    (ends : EndsNumber rest) :
    readNumber? sign (Nat.toDigits 10 value ++ rest) = some (.int (sign * value), rest) := by
  have written : Nat.ofDigitChars 10 (Nat.toDigits 10 value) 0 = value :=
    Nat.ofDigitChars_toDigits (by decide) (by decide)
  rw [readNumber?, readDigits?_toDigits value fun c head => (ends c head).1]
  simp only [Option.bind_eq_bind, Option.bind_some]
  split
  · exact absurd rfl (endsNumber_cons.1 ends).2.1
  · simp [ends.beginsExponent, written]

/-- The digits in front of the point and behind it write the units. -/
theorem ofDigitChars_units (places units : Nat) :
    Nat.ofDigitChars 10 (Nat.toDigits 10 (units / Text.powerOfTen places) ++
      Text.decimalDigits places (units % Text.powerOfTen places)) 0 = units := by
  have fit : units % 10 ^ places < 10 ^ places := Nat.mod_lt _ (Nat.pow_pos (by decide))
  rw [Text.powerOfTen_eq, Nat.ofDigitChars_append,
    Nat.ofDigitChars_toDigits (by decide) (by decide), Nat.ofDigitChars_eq_ofDigitChars_zero,
    Text.length_decimalDigits, Text.ofDigitChars_decimalDigits fit]
  exact Nat.div_add_mod units (10 ^ places)

/-- **A number with a fraction is read back** behind its sign, in front of a text that ends it. -/
theorem readNumber?_printedUnits (sign : Int) (places units : Nat) {rest : List Char}
    (ends : EndsNumber rest) :
    readNumber? sign (printedUnits (places + 1) units ++ rest) =
      some (.decimal (sign * units) places, rest) := by
  have point : ∀ text, ∀ c ∈ ('.' :: text).head?, c.isDigit = false := by simp
  have digits : Text.decimalDigits (places + 1) (units % Text.powerOfTen (places + 1)) ≠ [] :=
    List.length_pos_iff.1 (by simp)
  have fraction := readDigits?_append digits
    (List.all_eq_true.1 (Text.all_isDigit_decimalDigits _ _)) fun c head => (ends c head).1
  rw [printedUnits, List.append_assoc, List.cons_append, readNumber?,
    readDigits?_toDigits _ (point _)]
  simp [fraction, ends.beginsExponent, ofDigitChars_units]

end FileRoutes.Json
