import FileRoutes.Text.Blank
import FileRoutes.Text.Word
import Mathlib

/-! # Gaps

A **gap** (`IsGap`) is a text of blanks alone, as it may stand around every token. Cutting the ends
of a text does not see the gaps around it (`trim_padded`), a text that begins and ends with other
characters is cut to itself (`trim_eq_self_iff`), and no blank is a word character. -/

namespace FileRoutes.Text

/-- A **gap**: a text of blanks alone, perhaps of none. -/
def IsGap (text : List Char) : Prop := ∀ c ∈ text, isBlank c = true

instance (text : List Char) : Decidable (IsGap text) :=
  decidable_of_iff (text.all isBlank = true) List.all_eq_true

/-- No characters are a gap. -/
@[simp] theorem isGap_nil : IsGap [] := by simp [IsGap]

/-- A gap is a blank and a gap behind it. -/
@[simp] theorem isGap_cons (c : Char) (text : List Char) :
    IsGap (c :: text) ↔ isBlank c = true ∧ IsGap text := by
  simp [IsGap]

/-- Two gaps, one behind the other, are a gap. -/
@[simp] theorem isGap_append (text rest : List Char) :
    IsGap (text ++ rest) ↔ IsGap text ∧ IsGap rest := by
  simp [IsGap, or_imp, forall_and]

/-- Reading a gap backwards gives a gap. -/
theorem IsGap.reverse {gap : List Char} (blank : IsGap gap) : IsGap gap.reverse := by
  intro c member
  exact blank c (List.mem_reverse.1 member)

/-- No other characters stand in a gap. -/
theorem not_mem_of_isGap {gap : List Char} (isGap : IsGap gap) {c : Char}
    (solid : isBlank c = false) : c ∉ gap := by
  intro member
  rw [isGap c member] at solid
  exact Bool.false_ne_true solid.symm

/-! ## Cutting in front -/

/-- A gap in front is cut. -/
theorem trimStart_append_of_isGap {gap : List Char} (blank : IsGap gap) (text : List Char) :
    trimStart (gap ++ text) = trimStart text :=
  List.dropWhile_append_of_pos blank

/-- A gap in front of another character is the row of blanks in front. -/
theorem takeWhile_isBlank_append {gap rest : List Char} (blank : IsGap gap)
    (solid : ∀ c ∈ rest.head?, isBlank c = false) : (gap ++ rest).takeWhile isBlank = gap := by
  have stops : rest.takeWhile isBlank = [] := by
    cases rest with
    | nil => rfl
    | cons c rest => simp [solid c rfl]
  rw [List.takeWhile_append_of_pos blank, stops, List.append_nil]

/-- A gap is cut altogether. -/
theorem trimStart_of_isGap {gap : List Char} (blank : IsGap gap) : trimStart gap = [] := by
  have cut := trimStart_append_of_isGap blank []
  rwa [List.append_nil] at cut

/-- What is cut in front is a gap. -/
theorem exists_isGap_append_trimStart (text : List Char) :
    ∃ gap, IsGap gap ∧ text = gap ++ trimStart text := by
  refine ⟨text.takeWhile isBlank, ?_, (List.takeWhile_append_dropWhile).symm⟩
  intro c member
  exact List.mem_takeWhile_imp member

/-- Cutting twice cuts no more. -/
@[simp] theorem trimStart_trimStart (text : List Char) :
    trimStart (trimStart text) = trimStart text :=
  List.dropWhile_idempotent _ text

/-- A text is cut to itself iff it does not begin with a blank. -/
theorem trimStart_eq_self_iff {text : List Char} :
    trimStart text = text ↔ ∀ c ∈ text.head?, isBlank c = false := by
  cases text with
  | nil => simp
  | cons c rest =>
    rw [trimStart, List.dropWhile_eq_self_iff]
    simp

/-- A text behind which blanks were skipped does not begin with one. -/
theorem isBlank_head?_trimStart (text : List Char) :
    ∀ c ∈ (trimStart text).head?, isBlank c = false :=
  trimStart_eq_self_iff.1 (trimStart_trimStart text)

/-! ## Cutting at both ends -/

/-- Cutting at the end is cutting in front of the text read backwards. -/
theorem trimEnd_eq (text : List Char) : trimEnd text = (trimStart text.reverse).reverse := rfl

/-- A gap at the end is cut. -/
theorem trimEnd_append_of_isGap {gap : List Char} (blank : IsGap gap) (text : List Char) :
    trimEnd (text ++ gap) = trimEnd text := by
  rw [trimEnd_eq, List.reverse_append, trimStart_append_of_isGap blank.reverse, ← trimEnd_eq]

/-- Of two texts of which the first does not vanish, only the first is cut in front. -/
theorem trimStart_append {text : List Char} (stays : trimStart text ≠ []) (rest : List Char) :
    trimStart (text ++ rest) = trimStart text ++ rest := by
  have nonempty : (text.dropWhile isBlank).isEmpty = false := by
    simpa [trimStart] using stays
  rw [trimStart, List.dropWhile_append, if_neg (by simp [nonempty]), trimStart]

/-- Cutting the ends does not see the gaps around a text. -/
theorem trim_padded {lead trail : List Char} (blankLead : IsGap lead) (blankTrail : IsGap trail)
    (text : List Char) : trim (lead ++ text ++ trail) = trim text := by
  rw [trim, trim, List.append_assoc, trimStart_append_of_isGap blankLead]
  by_cases vanishes : trimStart text = []
  · obtain ⟨gap, blank, equal⟩ := exists_isGap_append_trimStart text
    rw [vanishes, List.append_nil] at equal
    rw [vanishes, equal, trimStart_append_of_isGap blank, trimStart_of_isGap blankTrail]
  · rw [trimStart_append vanishes, trimEnd_append_of_isGap blankTrail]

/-- What is cut at the end is a gap. -/
theorem exists_trimEnd_append_isGap (text : List Char) :
    ∃ gap, IsGap gap ∧ text = trimEnd text ++ gap := by
  obtain ⟨gap, blank, equal⟩ := exists_isGap_append_trimStart text.reverse
  refine ⟨gap.reverse, blank.reverse, ?_⟩
  rw [trimEnd_eq, ← List.reverse_append, ← equal, List.reverse_reverse]

/-- What is cut at both ends are gaps. -/
theorem exists_isGap_trim (text : List Char) :
    ∃ lead trail, IsGap lead ∧ IsGap trail ∧ text = lead ++ trim text ++ trail := by
  obtain ⟨lead, isLead, whole⟩ := exists_isGap_append_trimStart text
  obtain ⟨trail, isTrail, inner⟩ := exists_trimEnd_append_isGap (trimStart text)
  refine ⟨lead, trail, isLead, isTrail, ?_⟩
  rw [trim, List.append_assoc, ← inner, ← whole]

/-- A gap trims to nothing. -/
theorem trim_of_isGap {gap : List Char} (blank : IsGap gap) : trim gap = [] := by
  rw [trim, trimStart_of_isGap blank]
  rfl

/-- A text trims to nothing iff it is a gap. -/
theorem trim_eq_nil_iff {text : List Char} : trim text = [] ↔ IsGap text := by
  constructor
  · intro nothing
    obtain ⟨lead, trail, isLead, isTrail, whole⟩ := exists_isGap_trim text
    rw [whole, nothing]
    simp [isLead, isTrail]
  · exact trim_of_isGap

/-- A text is cut to itself at the end iff it does not end with a blank. -/
theorem trimEnd_eq_self_iff {text : List Char} :
    trimEnd text = text ↔ ∀ c ∈ text.getLast?, isBlank c = false := by
  rw [trimEnd_eq, ← List.head?_reverse, ← trimStart_eq_self_iff]
  constructor
  · intro equal
    rw [← List.reverse_inj, List.reverse_reverse] at equal
    exact equal
  · intro equal
    rw [equal, List.reverse_reverse]

/-- **A text that does not end with a blank** is cut in front only, and does not vanish. -/
theorem trim_of_getLast? {text : List Char} (nonempty : text ≠ [])
    (solid : ∀ c ∈ text.getLast?, isBlank c = false) :
    trim text = trimStart text ∧ trimStart text ≠ [] := by
  obtain ⟨gap, blank, whole⟩ := exists_isGap_append_trimStart text
  constructor
  · rw [trim, trimEnd_eq_self_iff]
    intro c last
    apply solid
    rw [whole, List.getLast?_append, last]
    rfl
  · intro nothing
    -- The last character would be one of the gap.
    rw [nothing, List.append_nil] at whole
    have member := List.getLast_mem nonempty
    have other := solid _ (List.getLast?_eq_some_getLast nonempty)
    rw [blank _ (whole ▸ member)] at other
    cases other

/-- A text trims to itself iff neither end is a blank. -/
theorem trim_eq_self_iff {text : List Char} :
    trim text = text ↔
      (∀ c ∈ text.head?, isBlank c = false) ∧ ∀ c ∈ text.getLast?, isBlank c = false := by
  rw [← trimStart_eq_self_iff, ← trimEnd_eq_self_iff]
  constructor
  · intro equal
    -- Neither cut makes the text longer, so that both leave its length alone.
    have shorter : (trimStart text).length ≤ text.length := (List.dropWhile_suffix _).length_le
    have shortest : (trim text).length ≤ (trimStart text).length := by
      rw [trim, trimEnd_eq, List.length_reverse]
      have cut : (trimStart (trimStart text).reverse).length ≤ (trimStart text).reverse.length :=
        (List.dropWhile_suffix _).length_le
      rwa [List.length_reverse] at cut
    rw [equal] at shortest
    have start : trimStart text = text :=
      (List.dropWhile_suffix _).eq_of_length (Nat.le_antisymm shorter shortest)
    refine ⟨start, ?_⟩
    rw [trim, start] at equal
    exact equal
  · rintro ⟨start, finish⟩
    rw [trim, start, finish]

/-- Trimming twice trims no more. -/
theorem trim_trim (text : List Char) : trim (trim text) = trim text := by
  rw [trim_eq_self_iff]
  have backwards := isBlank_head?_trimStart (trimStart text).reverse
  constructor
  · -- The text in front of the cut at the end begins as the text before that cut.
    intro c first
    obtain ⟨gap, -, whole⟩ := exists_trimEnd_append_isGap (trimStart text)
    apply isBlank_head?_trimStart text
    rw [whole, List.head?_append, ← trim, first]
    rfl
  · intro c last
    rw [trim, trimEnd_eq, List.getLast?_reverse] at last
    exact backwards c last

/-- A text between two characters that are no blanks trims to itself. -/
theorem trim_cons_concat {first last : Char} (solidFirst : isBlank first = false)
    (solidLast : isBlank last = false) (text : List Char) :
    trim (first :: text ++ [last]) = first :: text ++ [last] := by
  rw [trim_eq_self_iff]
  constructor
  · simpa using solidFirst
  · rw [List.getLast?_concat]
    simpa using solidLast

/-! ## One line -/

/-- What is on one line has no blanks at its ends. -/
theorem trim_eq_self_of_collapse {text : List Char} (line : collapse text = text) :
    trim text = text := by
  rw [← line, collapse, trim_trim]

/-! ## Blanks and words -/

/-- The code points of the blanks. -/
def blankCodes : List Nat :=
  List.range' 0x09 5 ++ List.range' 0x1C 5 ++ [0x85, 0xA0, 0x1680] ++ List.range' 0x2000 11 ++
    [0x2028, 0x2029, 0x202F, 0x205F, 0x3000]

/-- A blank has one of the code points of blanks. -/
theorem mem_blankCodes_of_isBlank {c : Char} (blank : isBlank c = true) :
    c.toNat ∈ blankCodes := by
  simp only [isBlank, Bool.or_eq_true, Bool.and_eq_true, decide_eq_true_eq, beq_iff_eq] at blank
  simp only [blankCodes, List.mem_append, List.mem_range'_1, List.mem_cons, List.not_mem_nil]
  omega

/-- A blank is no word character. -/
theorem isWordChar_eq_false_of_isBlank {c : Char} (blank : isBlank c = true) :
    isWordChar c = false := by
  have all : ∀ code ∈ blankCodes, isWordChar (Char.ofNat code) = false := by decide +kernel
  rw [← Char.ofNat_toNat c]
  exact all _ (mem_blankCodes_of_isBlank blank)

/-- A word character is no blank. -/
theorem isBlank_eq_false_of_isWordChar {c : Char} (word : isWordChar c = true) :
    isBlank c = false := by
  by_contra blank
  rw [Bool.not_eq_false] at blank
  rw [isWordChar_eq_false_of_isBlank blank] at word
  exact Bool.false_ne_true word

end FileRoutes.Text
