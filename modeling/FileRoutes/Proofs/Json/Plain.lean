import FileRoutes.Proofs.Json.Roundtrip

/-! # Printed JSON is plain text

A value printed over several lines holds visible ASCII characters, spaces and line feeds and nothing
else (`arePlain_prettyChars`), whatever strings and keys it has. The induction is over the value,
as for reading it back. -/

namespace FileRoutes.Json

/-- A character is **plain** when it is a line feed, a space or a visible ASCII character. -/
def IsPlain (c : Char) : Prop :=
  c = '\n' ∨ 0x20 ≤ c.toNat ∧ c.toNat ≤ 0x7E

instance (c : Char) : Decidable (IsPlain c) :=
  inferInstanceAs (Decidable (_ ∨ _))

/-- A plain character is in ASCII. -/
theorem IsPlain.toNat_lt {c : Char} (plain : IsPlain c) : c.toNat < 0x80 := by
  rcases plain with rfl | ⟨-, last⟩
  · decide
  · omega

/-- The characters of a text **are plain** when all of them are. -/
def ArePlain (text : List Char) : Prop := ∀ c ∈ text, IsPlain c

instance (text : List Char) : Decidable (ArePlain text) :=
  List.decidableBAll IsPlain text

@[simp] theorem arePlain_nil : ArePlain [] := List.forall_mem_nil _

@[simp] theorem arePlain_cons {c : Char} {text : List Char} :
    ArePlain (c :: text) ↔ IsPlain c ∧ ArePlain text := List.forall_mem_cons

@[simp] theorem arePlain_append {text rest : List Char} :
    ArePlain (text ++ rest) ↔ ArePlain text ∧ ArePlain rest := List.forall_mem_append

/-! ## Strings and numbers -/

/-- Hexadecimal digits are plain. -/
theorem arePlain_hexDigits (count value : Nat) : ArePlain (Text.hexDigits count value) := by
  induction count generalizing value with
  | zero => exact arePlain_nil
  | succ count ih =>
    have digit : ∀ value < 16, IsPlain (Text.hexDigit value) := by decide
    have last := digit (value % 16) (Nat.mod_lt _ (by decide))
    exact arePlain_append.2 ⟨ih _, arePlain_cons.2 ⟨last, arePlain_nil⟩⟩

/-- The escape of a code unit is plain. -/
theorem arePlain_unitEscape (unit : Nat) : ArePlain (unitEscape unit) :=
  arePlain_cons.2 ⟨by decide, arePlain_cons.2 ⟨by decide, arePlain_hexDigits 4 unit⟩⟩

/-- The letter of a short escape is plain. -/
theorem isPlain_of_shortEscape? {letter : Char} {unit : Nat}
    (short : shortEscape? letter = some unit) : IsPlain letter := by
  unfold shortEscape? at short
  split at short
  case h_9 => cases short
  all_goals decide

/-- **A character is printed as plain text**, whatever it is. -/
theorem arePlain_printedChar (c : Char) : ArePlain (printedChar c) := by
  -- A short escape, the character itself, or the escapes of one code unit or two.
  rcases printedChar_cases c with ⟨letter, printed, short, -⟩ |
    ⟨printed, -, -, first, last, -⟩ | ⟨printed, -⟩ | ⟨high, low, printed, -⟩
  · rw [printed]
    exact arePlain_cons.2 ⟨by decide, arePlain_cons.2 ⟨isPlain_of_shortEscape? short, arePlain_nil⟩⟩
  · rw [printed]
    exact arePlain_cons.2 ⟨.inr ⟨first, last⟩, arePlain_nil⟩
  · rw [printed]
    exact arePlain_unitEscape _
  · rw [printed]
    exact arePlain_append.2 ⟨arePlain_unitEscape high, arePlain_unitEscape low⟩

/-- A string is printed as plain text. -/
theorem arePlain_printedString (text : String) : ArePlain (printedString text) := by
  have inside : ArePlain (text.toList.flatMap printedChar) := by
    intro c member
    obtain ⟨other, -, printed⟩ := List.mem_flatMap.1 member
    exact arePlain_printedChar other c printed
  exact arePlain_append.2 ⟨arePlain_cons.2 ⟨by decide, inside⟩, by decide⟩

/-- A digit is plain. -/
theorem isPlain_of_isDigit {c : Char} (digit : c.isDigit = true) : IsPlain c := by
  obtain ⟨first, last⟩ : 0x30 ≤ c.toNat ∧ c.toNat ≤ 0x39 := by
    simpa [Char.isDigit, UInt32.le_iff_toNat_le] using digit
  exact .inr ⟨by omega, by omega⟩

/-- Decimal digits are plain. -/
theorem arePlain_toDigits (value : Nat) : ArePlain (Nat.toDigits 10 value) := fun _ member =>
  isPlain_of_isDigit (Nat.isDigit_of_mem_toDigits (by decide) (by decide) member)

/-- An integer is printed as plain text. -/
theorem arePlain_printedInt (value : Int) : ArePlain (printedInt value) := by
  cases value with
  | ofNat number => exact arePlain_toDigits number
  | negSucc number => exact arePlain_cons.2 ⟨by decide, arePlain_toDigits (number + 1)⟩

/-- A number with a fraction is printed as plain text. -/
theorem arePlain_printedDecimal (units : Int) (places : Nat) :
    ArePlain (printedDecimal units places) := by
  have unsigned : ∀ units, ArePlain (printedUnits (places + 1) units) := fun units =>
    arePlain_append.2 ⟨arePlain_toDigits _, arePlain_cons.2 ⟨by decide, fun c member =>
      isPlain_of_isDigit (List.all_eq_true.1 (Text.all_isDigit_decimalDigits _ _) c member)⟩⟩
  cases units with
  | ofNat units => exact unsigned units
  | negSucc units => exact arePlain_cons.2 ⟨by decide, unsigned (units + 1)⟩

/-- The start of a new line is plain. -/
theorem arePlain_newLine (level : Nat) : ArePlain (newLine level) := by
  refine arePlain_cons.2 ⟨.inl rfl, fun c member => ?_⟩
  obtain rfl := List.eq_of_mem_replicate member
  decide

/-! ## Values -/

/-- The further items of a list are printed as plain text when each of them is. -/
theorem arePlain_prettyItems {level : Nat} {items : List Json}
    (each : ∀ item ∈ items, ArePlain (prettyChars level item)) :
    ArePlain (prettyItems level items) := by
  induction items with
  | nil =>
    rw [prettyItems]
    exact arePlain_nil
  | cons item items ih =>
    obtain ⟨first, others⟩ := List.forall_mem_cons.1 each
    have comma : IsPlain ',' := by decide
    simp only [prettyItems, arePlain_append, arePlain_cons]
    exact ⟨⟨⟨comma, arePlain_newLine level⟩, first⟩, ih others⟩

/-- The further members of an object are printed as plain text when their values are. -/
theorem arePlain_prettyMembers {level : Nat} {members : List (String × Json)}
    (each : ∀ member ∈ members, ArePlain (prettyChars level member.2)) :
    ArePlain (prettyMembers level members) := by
  induction members with
  | nil =>
    rw [prettyMembers]
    exact arePlain_nil
  | cons member members ih =>
    obtain ⟨first, others⟩ := List.forall_mem_cons.1 each
    have begun : ArePlain (',' :: newLine level ++ printedString member.1) :=
      arePlain_append.2 ⟨arePlain_cons.2 ⟨by decide, arePlain_newLine level⟩,
        arePlain_printedString member.1⟩
    have colon : ArePlain [':', ' '] := by decide
    rw [prettyMembers]
    exact arePlain_append.2 ⟨arePlain_append.2 ⟨arePlain_append.2 ⟨begun, colon⟩, first⟩, ih others⟩

/-- A list is printed as plain text when its items are. -/
theorem arePlain_arr {level : Nat} {items : List Json}
    (each : ∀ item ∈ items, ArePlain (prettyChars (level + 1) item)) :
    ArePlain (prettyChars level (.arr items)) := by
  cases items with
  | nil =>
    rw [prettyChars]
    decide
  | cons item items =>
    obtain ⟨first, others⟩ := List.forall_mem_cons.1 each
    have opened : IsPlain '[' := by decide
    have closed : ArePlain [']'] := by decide
    simp only [prettyChars, arePlain_append, arePlain_cons]
    exact ⟨⟨⟨⟨⟨opened, arePlain_newLine _⟩, first⟩, arePlain_prettyItems others⟩,
      arePlain_newLine level⟩, arePlain_cons.1 closed⟩

/-- An object is printed as plain text when the values of its members are. -/
theorem arePlain_obj {level : Nat} {members : List (String × Json)}
    (each : ∀ member ∈ members, ArePlain (prettyChars (level + 1) member.2)) :
    ArePlain (prettyChars level (.obj members)) := by
  cases members with
  | nil =>
    rw [prettyChars]
    decide
  | cons member members =>
    obtain ⟨first, others⟩ := List.forall_mem_cons.1 each
    have begun : ArePlain ('\x7b' :: newLine (level + 1) ++ printedString member.1 ++ [':', ' ']) :=
      arePlain_append.2 ⟨arePlain_append.2 ⟨arePlain_cons.2 ⟨by decide, arePlain_newLine _⟩,
        arePlain_printedString member.1⟩, by decide⟩
    have ended : ArePlain (newLine level ++ ['\x7d']) :=
      arePlain_append.2 ⟨arePlain_newLine level, by decide⟩
    rw [prettyChars, List.append_assoc _ (newLine level)]
    exact arePlain_append.2 ⟨arePlain_append.2 ⟨arePlain_append.2 ⟨begun, first⟩,
      arePlain_prettyMembers others⟩, ended⟩

/-- **A value is printed as plain text**, whatever it is made of. -/
theorem arePlain_prettyChars (value : Json) : ∀ level, ArePlain (prettyChars level value) := by
  induction value using Json.induction with
  | null =>
    intro level
    rw [prettyChars]
    decide
  | bool value =>
    intro level
    cases value <;> rw [prettyChars] <;> decide
  | int value =>
    intro level
    rw [prettyChars]
    exact arePlain_printedInt value
  | decimal units places =>
    intro level
    rw [prettyChars]
    exact arePlain_printedDecimal units places
  | str text =>
    intro level
    rw [prettyChars]
    exact arePlain_printedString text
  | arr items each => exact fun level => arePlain_arr fun item member => each item member _
  | obj members each => exact fun level => arePlain_obj fun other member => each other member _

end FileRoutes.Json
