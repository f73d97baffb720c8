import FileRoutes.Schema.Checked

/-! # Values read back

A reader **restores** the values that fit when it reads no others, and reads each of them back from
the JSON that encodes it (`Reader.Restores`). The readers of parts do so one by one
(`Reader.restores_string`, `Reader.restores_natural`, `Reader.Restores.list`), and a record is put
together from its fields: what its fields read is known to fit
(`Reader.Restores.ensures_required`, `Reader.Restores.ensures_optional`), and what they encode is
read back (`Reader.Restores.required`, `Reader.Restores.optional`). -/

namespace FileRoutes.Schema

variable {α β : Type}

/-! ## What an outcome ensures -/

namespace Checked

/-- An outcome **ensures** a property when its value has it, if there is one. -/
def Ensures (checked : Checked α) (property : α → Prop) : Prop :=
  ∀ value, checked = .valid value → property value

section Ensures

variable {checked : Checked α} {property other : α → Prop}

/-- A value ensures what holds of it. -/
@[simp] theorem ensures_valid {value : α} : (valid value).Ensures property ↔ property value := by
  simp [Ensures]

/-- Faults ensure anything. -/
@[simp] theorem ensures_invalid {faults : List Fault} :
    (invalid faults : Checked α).Ensures property := by
  intro value same
  cases same

/-- A fault ensures anything. -/
@[simp] theorem ensures_fault {kind : FaultKind} :
    (fault kind : Checked α).Ensures property := ensures_invalid

/-- What is ensured may be **weakened**. -/
theorem Ensures.mono (ensured : checked.Ensures property)
    (weaker : ∀ value, property value → other value) : checked.Ensures other :=
  fun value same => weaker value (ensured value same)

/-- A place does not matter for what is ensured. -/
@[simp] theorem ensures_within {step : Step} :
    (checked.within step).Ensures property ↔ checked.Ensures property := by
  cases checked <;> simp [within]

/-- What is ensured behind a function is ensured of its values. -/
@[simp] theorem ensures_map {f : α → β} {property : β → Prop} :
    (f <$> checked).Ensures property ↔ checked.Ensures fun value => property (f value) := by
  cases checked <;> simp [Functor.map, map]

/-- What is ensured behind a checked function is ensured of the values of both sides. -/
@[simp] theorem ensures_seq {f : Checked (α → β)} {property : β → Prop} :
    (f <*> checked).Ensures property ↔
      f.Ensures fun g => checked.Ensures fun value => property (g value) := by
  cases f <;> cases checked <;> simp [Seq.seq, ap]

/-- What is ensured by a second check. -/
@[simp] theorem ensures_andThen {next : α → Checked β} {property : β → Prop} :
    (checked.andThen next).Ensures property ↔
      checked.Ensures fun value => (next value).Ensures property := by
  cases checked <;> simp [andThen]

end Ensures

/-- A value stays the same one step further inside. -/
@[simp] theorem within_valid (step : Step) (value : α) :
    within step (.valid value) = .valid value := rfl

end Checked

namespace Reader

/-- A reader **restores** the values that fit: it reads no others, and each from what encodes it. -/
structure Restores (reader : Reader α) (encode : α → Json) (fits : α → Prop) : Prop where
  /-- Only values that fit are read. -/
  ensures : ∀ json, (reader json).Ensures fits
  /-- A value that fits is read from what encodes it. -/
  read_encode : ∀ value, fits value → reader (encode value) = .valid value

/-! ## Parts -/

/-- Every string is restored. -/
theorem restores_string : Restores string .str fun _ => True where
  ensures _ _ _ := trivial
  read_encode _ _ := rfl

/-- Every truth value is restored. -/
theorem restores_boolean : Restores boolean .bool fun _ => True where
  ensures _ _ _ := trivial
  read_encode _ _ := rfl

/-- The integer of a number with a fraction is **that number**, when there is one. -/
theorem integerOfDecimal_eq_valid_iff {units value : Int} {places : Nat} :
    integerOfDecimal units places = .valid value ↔
      units = value * Text.powerOfTen (places + 1) ∧ value.natAbs < wordLimit := by
  have positive : (Text.powerOfTen (places + 1) : Int) ≠ 0 :=
    Int.natCast_ne_zero.2 (Nat.ne_of_gt (Text.powerOfTen_pos _))
  have whole := Int.ediv_mul_add_emod units (Text.powerOfTen (places + 1))
  simp only [integerOfDecimal]
  split
  next fraction =>
    simp only [Checked.fault, reduceCtorEq, false_iff, not_and]
    rintro rfl
    exact absurd (Int.mul_emod_left value _) fraction
  next none =>
    rw [Decidable.not_not.1 none, Int.add_zero] at whole
    split
    next fits =>
      rw [Checked.valid.injEq]
      constructor
      · rintro rfl
        exact ⟨whole.symm, fits⟩
      · rintro ⟨rfl, -⟩
        exact Int.mul_ediv_cancel _ positive
    next large =>
      simp only [Checked.fault, reduceCtorEq, false_iff, not_and]
      rintro rfl
      rwa [Int.mul_ediv_cancel _ positive] at large

/-- A number is a truth value exactly when it is 0 or 1. -/
theorem truthOfInteger_eq_valid_iff {number : Int} {value : Bool} :
    truthOfInteger number = .valid value ↔ number = if value then 1 else 0 := by
  unfold truthOfInteger
  cases value
  all_goals
    split
    · simp_all
    · split <;> simp_all [Checked.fault]

/-- **A number with a fraction is a truth value** exactly when it is 0 or 1. -/
theorem boolean_decimal_eq_valid_iff {units : Int} {places : Nat} {value : Bool} :
    boolean (.decimal units places) = .valid value ↔
      units = if value then (Text.powerOfTen (places + 1) : Int) else 0 := by
  have known : units = (if value then (Text.powerOfTen (places + 1) : Int) else 0) ↔
      integerOfDecimal units places = .valid (if value then 1 else 0) := by
    rw [integerOfDecimal_eq_valid_iff]
    cases value <;> simp [wordLimit]
  rw [known, boolean]
  cases integerOfDecimal units places with
  | valid number => exact truthOfInteger_eq_valid_iff.trans (by rw [Checked.valid.injEq])
  | invalid faults => simp [Checked.fault]

example : boolean (.decimal 100 1) = .valid true := by decide

/-- Every integer is restored. -/
theorem restores_integer : Restores integer .int fun _ => True where
  ensures _ _ _ := trivial
  read_encode _ _ := rfl

/-- The natural numbers **within the bounds** are restored. -/
theorem restores_natural (least : Nat) (greatest : Option Nat) :
    Restores (natural least greatest) .nat
      fun value => least ≤ value ∧ ∀ bound ∈ greatest, value ≤ bound where
  ensures json := by
    rw [natural, Checked.ensures_andThen]
    intro value _
    split
    · exact Checked.ensures_fault
    next enough =>
      cases greatest with
      | none => exact Checked.ensures_valid.2 ⟨by omega, fun bound none => by cases none⟩
      | some greatest =>
        dsimp only
        split
        · exact Checked.ensures_fault
        next few =>
          refine Checked.ensures_valid.2 ⟨by omega, fun bound same => ?_⟩
          obtain rfl := Option.some.inj same
          omega
  read_encode value bounds := by
    obtain ⟨lower, upper⟩ := bounds
    have enough : ¬ (value : Int) < least := by omega
    simp only [natural, Json.nat, integer, Checked.andThen, if_neg enough]
    cases greatest with
    | none => rfl
    | some bound =>
      have few : ¬ (bound : Int) < value := by
        have := upper bound rfl
        omega
      simp only [if_neg few, Int.toNat_natCast]

/-- The values that are listed are restored from their words, when the word of each tells it from
the others. -/
theorem restores_oneOf {values : List α} {word : α → String}
    (complete : ∀ value, value ∈ values)
    (apart : ∀ value other, word value = word other → value = other) :
    Restores (oneOf values word) (fun value => .str (word value)) fun _ => True where
  ensures _ _ _ := trivial
  read_encode value _ := by
    have found : values.find? (fun other => word other == word value) = some value := by
      -- Some value with this word is listed, and no other has it.
      cases searched : values.find? fun other => word other == word value with
      | none => simpa using List.find?_eq_none.1 searched value (complete value)
      | some other =>
        have same := List.find?_some searched
        rw [apart other value (by simpa using same)]
    simp only [oneOf, found]

section Combined

variable {reader : Reader α} {encode : α → Json} {fits other : α → Prop}

/-- What fits may be said in other words. -/
theorem Restores.congr (restores : Restores reader encode fits)
    (same : ∀ value, fits value ↔ other value) : Restores reader encode other where
  ensures json := (restores.ensures json).mono fun value => (same value).1
  read_encode value fit := restores.read_encode value ((same value).2 fit)

/-- **The values that are read** are those that fit. -/
theorem Restores.exists_read_iff (restores : Restores reader encode fits) {value : α} :
    (∃ json, reader json = .valid value) ↔ fits value := by
  constructor
  · rintro ⟨json, read⟩
    exact restores.ensures json value read
  · intro fit
    exact ⟨_, restores.read_encode value fit⟩

/-- What reads a value that may be null **restores** it, when no value is encoded as null. -/
theorem Restores.nullable (restores : Restores reader encode fits)
    (notNull : ∀ value, encode value ≠ .null) :
    Restores (nullable reader) (.ofOption encode) fun value => ∀ inner ∈ value, fits inner where
  ensures json := by
    have whole : (Checked.map some (reader json)).Ensures
        fun value => ∀ inner ∈ value, fits inner :=
      Checked.ensures_map.2 ((restores.ensures json).mono fun value fit => by simpa using fit)
    -- The reader is asked for every value but null.
    cases json with
    | null => exact Checked.ensures_valid.2 fun inner none => by cases none
    | bool | int | decimal | str | arr | obj => exact whole
  read_encode value fit := by
    cases value with
    | none => rfl
    | some value =>
      have read := restores.read_encode value (fit value rfl)
      rw [Json.ofOption_some, Reader.nullable]
      · rw [read]
        rfl
      · exact notNull value

/-- The items of a list fit, whatever index they begin with. -/
theorem Restores.ensures_items (restores : Restores reader encode fits) (jsons : List Json) :
    ∀ index, (items reader index jsons).Ensures fun values => ∀ value ∈ values, fits value := by
  induction jsons with
  | nil => simp [items]
  | cons json rest ih =>
    intro index
    show (List.cons <$> (reader json).within (.index index) <*>
      items reader (index + 1) rest).Ensures _
    rw [Checked.ensures_seq, Checked.ensures_map, Checked.ensures_within]
    refine (restores.ensures json).mono fun value fit => (ih (index + 1)).mono fun values fits => ?_
    exact List.forall_mem_cons.2 ⟨fit, fits⟩

/-- The items of a list are read back, whatever index they begin with. -/
theorem Restores.items_map (restores : Restores reader encode fits) {values : List α}
    (fit : ∀ value ∈ values, fits value) :
    ∀ index, items reader index (values.map encode) = .valid values := by
  induction values with
  | nil => exact fun _ => rfl
  | cons value values ih =>
    intro index
    obtain ⟨first, others⟩ := List.forall_mem_cons.1 fit
    rw [List.map_cons, items, restores.read_encode value first, ih others]
    rfl

/-- What reads a list **restores** it when it restores its items. -/
theorem Restores.list (restores : Restores reader encode fits) :
    Restores (list reader) (fun values => .arr (values.map encode))
      fun values => ∀ value ∈ values, fits value where
  ensures json := by
    cases json with
    | arr jsons => exact restores.ensures_items jsons 0
    | null | bool | int | decimal | str | obj => exact Checked.ensures_fault
  read_encode values fit := restores.items_map fit 0

/-- What reads an object with any keys **restores** it, when every value is restored. -/
theorem Restores.dictionary (restores : Restores reader encode fun _ => True) :
    Restores (dictionary reader)
      (fun members => .obj (members.map fun (key, value) => (key, encode value)))
      fun _ => True where
  ensures _ _ _ := trivial
  read_encode members _ := by
    show values reader _ = _
    induction members with
    | nil => rfl
    | cons member members ih =>
      rw [List.map_cons, values, restores.read_encode member.2 trivial, ih]
      rfl

/-! ## Fields -/

variable {members : List (String × Json)} {key : String}

/-- What a field that must be there reads fits. -/
theorem Restores.ensures_required (restores : Restores reader encode fits) :
    (required members key reader).Ensures fits := by
  unfold required
  split
  · exact Checked.ensures_within.2 (restores.ensures _)
  · exact Checked.ensures_within.2 Checked.ensures_fault

/-- What a field that may be missing reads fits when the default does. -/
theorem Restores.ensures_optional (restores : Restores reader encode fits) {default : α}
    (fit : fits default) : (optional members key reader default).Ensures fits := by
  unfold optional
  split
  · exact Checked.ensures_within.2 (restores.ensures _)
  · exact Checked.ensures_valid.2 fit

/-- A field that must be there **is read back**. -/
theorem Restores.required (restores : Restores reader encode fits) {value : α} (fit : fits value)
    (stored : members.lookup key = some (encode value)) :
    required members key reader = .valid value := by
  rw [Schema.required, stored]
  simp only [restores.read_encode value fit, Checked.within_valid]

/-- A field that may be missing **is read back** when it is there. -/
theorem Restores.optional (restores : Restores reader encode fits) {value default : α}
    (fit : fits value) (stored : members.lookup key = some (encode value)) :
    optional members key reader default = .valid value := by
  rw [Schema.optional, stored]
  simp only [restores.read_encode value fit, Checked.within_valid]

/-- What reads an object with fixed fields ensures what its fields ensure. -/
theorem ensures_record {otherwise : FaultKind} {fields : List (String × Json) → Checked α}
    (ensured : ∀ members, (fields members).Ensures fits) (json : Json) :
    (record otherwise fields json).Ensures fits := by
  cases json with
  | obj members => exact ensured members
  | null | bool | int | decimal | str | arr => exact Checked.ensures_fault

end Combined

end Reader

end FileRoutes.Schema
