/-! # Cutting texts apart

Plain searches in a text: its fields between separators (`fields`, undone by `joinFields`), the text
in front of a phrase (`before`) and up to its end (`through?`), and what follows a fixed beginning
(`after?`). A recogniser tells whether something begins with a text: `scan` asks it at every
position, and `search` goes on behind what was found, so that its finds do not overlap. -/

namespace FileRoutes.Text

/-- The parts of a text **between separators**: one more than there are separators. -/
def fields (separator : Char) : List Char → List (List Char)
  | [] => [[]]
  | c :: rest =>
    if c = separator then [] :: fields separator rest
    else match fields separator rest with
      | [] => [[c]]
      | field :: others => (c :: field) :: others

/-- Writes fields one after the other with a separator between neighbours. -/
def joinFields (separator : Char) : List (List Char) → List Char
  | [] => []
  | [field] => field
  | field :: others => field ++ separator :: joinFields separator others

/-- The text after a fixed beginning; `none` when the text begins otherwise. -/
def after? : (beginning : List Char) → List Char → Option (List Char)
  | [], text => some text
  | _ :: _, [] => none
  | b :: beginning, c :: text => if b = c then after? beginning text else none

/-- The text in front of the first place where a phrase begins, or all of it. -/
def before (phrase : List Char) : List Char → List Char
  | [] => []
  | c :: rest => if phrase.isPrefixOf (c :: rest) then [] else c :: before phrase rest

/-- The text up to the end of the first place where a phrase stands; `none` when it does not. -/
def through? (phrase : List Char) : List Char → Option (List Char)
  | [] => if phrase.isEmpty then some [] else none
  | c :: rest =>
    if phrase.isPrefixOf (c :: rest) then some phrase else (through? phrase rest).map (c :: ·)

/-- What a recogniser finds at each position of a text, from left to right. -/
def scan {α : Type} (recognise : List Char → Option α) : List Char → List α
  | [] => []
  | c :: rest =>
    match recognise (c :: rest) with
    | some found => found :: scan recognise rest
    | none => scan recognise rest

/-- What a recogniser finds from left to right **without overlaps**. It names what it has found and
the text behind that, where the search goes on: the characters in front of it are `taken`. -/
def search {α : Type} (recognise : List Char → Option (α × List Char)) :
    (taken : Nat) → List Char → List α
  | _, [] => []
  | taken + 1, _ :: rest => search recognise taken rest
  | 0, c :: rest =>
    match recognise (c :: rest) with
    | some (found, behind) => found :: search recognise (rest.length - behind.length) rest
    | none => search recognise 0 rest

/-! ## Fields -/

/-- A text has at least one field. -/
theorem fields_ne_nil (separator : Char) (text : List Char) : fields separator text ≠ [] := by
  cases text with
  | nil => simp [fields]
  | cons c rest =>
    unfold fields
    split
    · simp
    · split <;> simp

/-- Joining the fields of a text gives the text back. -/
theorem joinFields_fields (separator : Char) (text : List Char) :
    joinFields separator (fields separator text) = text := by
  induction text with
  | nil => rfl
  | cons c rest ih =>
    have nonempty := fields_ne_nil separator rest
    unfold fields
    split
    next equal =>
      subst equal
      generalize split : fields c rest = parts at *
      cases parts with
      | nil => exact absurd rfl nonempty
      | cons field others => simp [joinFields, ih]
    next =>
      generalize split : fields separator rest = parts at *
      cases parts with
      | nil => exact absurd rfl nonempty
      | cons field others =>
        cases others with
        | nil => simpa [joinFields] using ih
        | cons next others => simpa [joinFields] using ih

/-- Joined fields are at least as long as there are separators between them. -/
theorem length_le_length_joinFields (separator : Char) (parts : List (List Char)) :
    parts.length ≤ (joinFields separator parts).length + 1 := by
  fun_induction joinFields separator parts with
  | case1 => simp
  | case2 field => simp
  | case3 field others _ ih =>
    simp only [List.length_cons, List.length_append]
    omega

/-! ## Beginnings -/

/-- What follows a beginning, put behind it, is the text. -/
theorem after?_eq_some {beginning text rest : List Char} :
    after? beginning text = some rest ↔ text = beginning ++ rest := by
  induction beginning generalizing text with
  | nil => simp [after?, eq_comm]
  | cons b beginning ih =>
    cases text with
    | nil => simp [after?]
    | cons c text =>
      by_cases equal : b = c
      · simp [after?, equal, ih]
      · simp [after?, equal, Ne.symm equal]

end FileRoutes.Text
