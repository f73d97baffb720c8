import FileRoutes.Proofs.Options.Printing
import FileRoutes.Proofs.Options.Valid
import FileRoutes.Proofs.Source.Entries
import FileRoutes.Proofs.Text.Layout

/-! # The responses of an expression

Which responses an expression describes, with which schemas and which descriptions
(`ofExpression_lists`). An entry of its object describes one when the key reads as a number from 100
to 599 (`ReadsAs`) and the value is not empty, and the responses stand in the order of these
entries. Of a description that is given, only the first response that reports success gets it.

* `threeDigits?_eq_some_iff`: which keys are read as which numbers.
* `ofEntry?_eq_some_iff`: what an entry says of a response.
* `description_describe`: where the description goes. -/

namespace FileRoutes.ResponseSchema

open Source Text

/-! ## Keys that are numbers -/

/-- A **mark** around a key is one of its quotes, or nothing. -/
inductive IsKeyMark : List Char → Prop where
  /-- There is no quote. -/
  | none : IsKeyMark []
  /-- There is one. -/
  | quote {c : Char} (isQuote : isKeyQuote c = true) : IsKeyMark [c]

/-- A key **reads as a number** that it writes in three decimal digits, of any script. There may be
a quote on either side of them, and a line feed at the end. -/
inductive ReadsAs : List Char → Nat → Prop where
  /-- The digits with what may stand around them. -/
  | digits {lead trail final : List Char} {a b c : Char} {hundreds tens ones : Nat}
      (isLead : IsKeyMark lead) (isTrail : IsKeyMark trail)
      (isFinal : final = [] ∨ final = ['\n']) (first : digitValue? a = some hundreds)
      (second : digitValue? b = some tens) (third : digitValue? c = some ones) :
      ReadsAs (lead ++ a :: b :: c :: (trail ++ final)) (100 * hundreds + 10 * tens + ones)

/-- What is dropped in front of a key is a mark. -/
theorem exists_isKeyMark_append (text : List Char) :
    ∃ mark, IsKeyMark mark ∧ text = mark ++ dropKeyQuote text := by
  cases text with
  | nil => exact ⟨[], .none, rfl⟩
  | cons c rest =>
    rw [dropKeyQuote]
    split
    next isQuote => exact ⟨[c], .quote isQuote, rfl⟩
    next => exact ⟨[], .none, rfl⟩

/-- A mark is dropped in front of what begins with no quote. -/
theorem dropKeyQuote_append {mark rest : List Char} (isMark : IsKeyMark mark)
    (unquoted : ∀ c ∈ rest.head?, isKeyQuote c = false) : dropKeyQuote (mark ++ rest) = rest := by
  cases isMark with
  | quote isQuote => simp [dropKeyQuote, isQuote]
  | none =>
    cases rest with
    | nil => rfl
    | cons c rest => simp [dropKeyQuote, unquoted c rfl]

/-- A digit is no quote. -/
theorem isKeyQuote_of_digitValue? {c : Char} {value : Nat} (digit : digitValue? c = some value) :
    isKeyQuote c = false := by
  have noDigits : digitValue? '"' = none ∧ digitValue? '\'' = none := by decide
  by_contra quote
  simp only [isKeyQuote, Bool.not_eq_false, Bool.or_eq_true, beq_iff_eq] at quote
  rcases quote with rfl | rfl
  · rw [noDigits.1] at digit
    cases digit
  · rw [noDigits.2] at digit
    cases digit

/-- **Reading a key** gives the number that it reads as. -/
theorem threeDigits?_eq_some_iff {key : List Char} {number : Nat} :
    threeDigits? key = some number ↔ ReadsAs key number := by
  have value : ∀ hundreds tens ones : Nat,
      ofDigits [hundreds, tens, ones] = 100 * hundreds + 10 * tens + ones := by
    intro hundreds tens ones
    simp only [ofDigits, List.foldl_cons, List.foldl_nil]
    omega
  constructor
  · intro read
    unfold threeDigits? at read
    split at read
    next a b c rest equal =>
      simp only [Option.bind_eq_bind, Option.bind_eq_some_iff, Option.guard_eq_some', value,
        Option.pure_def, Option.some.injEq] at read
      obtain ⟨hundreds, first, tens, second, ones, third, -, isFinal, rfl⟩ := read
      obtain ⟨lead, isLead, whole⟩ := exists_isKeyMark_append key
      obtain ⟨trail, isTrail, whole'⟩ := exists_isKeyMark_append rest
      rw [whole, equal, whole']
      exact .digits isLead isTrail isFinal first second third
    next => cases read
  · rintro ⟨isLead, isTrail, isFinal, first, second, third⟩
    rename_i lead trail final a b c hundreds tens ones
    have inner : dropKeyQuote (lead ++ a :: b :: c :: (trail ++ final)) =
        a :: b :: c :: (trail ++ final) :=
      dropKeyQuote_append isLead (by simpa using isKeyQuote_of_digitValue? first)
    have ends : dropKeyQuote (trail ++ final) = final := by
      refine dropKeyQuote_append isTrail ?_
      rcases isFinal with rfl | rfl
      · simp
      · simpa using (by decide : isKeyQuote '\n' = false)
    simp [threeDigits?, inner, ends, isFinal, first, second, third, value]

/-! ## Entries that describe responses -/

/-- The numbers that are statuses. -/
theorem isStatus_iff {status : Nat} : isStatus status = true ↔ 100 ≤ status ∧ status ≤ 599 := by
  simp only [isStatus, Bool.and_eq_true, decide_eq_true_eq]
  rfl

/-- An entry **describes a response** when its key reads as a number from 100 to 599 and its value
is not empty. -/
def DescribesResponse (entry : List Char × List Char) : Prop :=
  entry.2 ≠ [] ∧ ∃ status, ReadsAs entry.1 status ∧ 100 ≤ status ∧ status ≤ 599

/-- **What an entry says of a response**: the key is the status, and the value, collapsed to one
line, is the schema. -/
structure IsResponseOf (entry : List Char × List Char) (response : ResponseSchema) : Prop where
  /-- The key reads as the status. -/
  status : ReadsAs entry.1 response.status
  /-- The schema is the value on one line. -/
  schema : response.schema = String.ofList (collapse entry.2)
  /-- There is a schema. -/
  nonempty : response.schema ≠ ""

/-- A description does not matter to what entries say of responses. -/
theorem forall₂_isResponseOf_iff {entries : List (List Char × List Char)}
    {responses : List ResponseSchema} : List.Forall₂ IsResponseOf entries responses ↔
      List.Forall₂ IsResponseOf entries (responses.map undescribed) := by
  rw [List.forall₂_map_right_iff]
  constructor
  · exact fun told => told.imp fun _ _ tells => ⟨tells.status, tells.schema, tells.nonempty⟩
  · exact fun told => told.imp fun _ _ tells => ⟨tells.status, tells.schema, tells.nonempty⟩

/-- The response of an entry is what the entry says, still without a description. -/
theorem ofEntry?_eq_some_iff {entry : List Char × List Char} {response : ResponseSchema} :
    ofEntry? entry = some response ↔
      entry.2 ≠ [] ∧ (ReadsAs entry.1 response.status ∧ 100 ≤ response.status ∧
        response.status ≤ 599) ∧
        response = ⟨response.status, String.ofList (collapse entry.2), none⟩ := by
  simp only [statusOfKey?, ofEntry?, Option.bind_eq_bind, Option.bind_eq_some_iff,
    Option.filter_eq_some_iff, threeDigits?_eq_some_iff, isStatus_iff, Option.guard_eq_some',
    Option.pure_def, Option.some.injEq, Bool.not_eq_true', List.isEmpty_eq_false_iff]
  constructor
  · rintro ⟨status, written, -, nonempty, rfl⟩
    exact ⟨nonempty, written, rfl⟩
  · rintro ⟨nonempty, written, equal⟩
    exact ⟨response.status, written, (), nonempty, equal.symm⟩

/-- An entry gives a response iff it describes one. -/
theorem exists_ofEntry?_iff {entry : List Char × List Char} :
    (∃ response, ofEntry? entry = some response) ↔ DescribesResponse entry := by
  constructor
  · rintro ⟨response, read⟩
    obtain ⟨nonempty, written, -⟩ := ofEntry?_eq_some_iff.1 read
    exact ⟨nonempty, response.status, written⟩
  · rintro ⟨nonempty, status, written⟩
    exact ⟨⟨status, _, none⟩, ofEntry?_eq_some_iff.2 ⟨nonempty, written, rfl⟩⟩

instance (entry : List Char × List Char) : Decidable (DescribesResponse entry) :=
  decidable_of_iff _ (Option.isSome_iff_exists.trans exists_ofEntry?_iff)

/-- The response of an entry of a body is what the entry says. -/
theorem isResponseOf_of_mem {body : List Char} {entry : List Char × List Char}
    {response : ResponseSchema} (member : entry ∈ entries body)
    (read : ofEntry? entry = some response) : IsResponseOf entry response := by
  obtain ⟨nonempty, written, equal⟩ := ofEntry?_eq_some_iff.1 read
  have schema : response.schema = String.ofList (collapse entry.2) := by rw [equal]
  refine ⟨written.1, schema, fun empty => nonempty ?_⟩
  -- A value without blanks at its ends collapses to nothing only when it is nothing.
  have collapsed : collapse entry.2 = [] := by
    rw [schema] at empty
    simpa using empty
  rw [← trim_of_mem_entries member, trim_eq_nil_iff]
  exact collapse_eq_nil_iff.1 collapsed

/-- What is read of the members of a list is related to the members that it is read of. -/
theorem forall₂_filter_filterMap {α β : Type} {asked : α → Prop} [DecidablePred asked]
    {read : α → Option β} {R : α → β → Prop} {l : List α}
    (agree : ∀ a ∈ l, (read a).isSome ↔ asked a)
    (related : ∀ a ∈ l, ∀ b, read a = some b → R a b) :
    List.Forall₂ R (l.filter fun a => asked a) (l.filterMap read) := by
  induction l with
  | nil => exact .nil
  | cons a l ih =>
    have later := ih (fun a member => agree a (List.mem_cons_of_mem _ member))
      (fun a member => related a (List.mem_cons_of_mem _ member))
    have here := agree a List.mem_cons_self
    cases given : read a with
    | none =>
      have not : ¬ asked a := fun isAsked => by simp [given] at here; exact here isAsked
      rwa [List.filter_cons_of_neg (by simpa using not), List.filterMap_cons_none given]
    | some b =>
      have isAsked : asked a := here.1 (by rw [given]; rfl)
      rw [List.filter_cons_of_pos (by simpa using isAsked), List.filterMap_cons_some given]
      exact .cons (related a List.mem_cons_self b given) later

/-! ## Descriptions -/

/-- A response reports success when its status has two hundreds. -/
theorem isSuccess_iff {status : Nat} : isSuccess status = true ↔ status / 100 = 2 := by
  simp only [isSuccess, Bool.and_eq_true, decide_eq_true_eq]
  omega

section Describe

variable {responses before after : List ResponseSchema} {response : ResponseSchema}

/-- **The first success is described**, and no other response. -/
theorem description_describeFirstSuccess {text : String}
    (bare : ∀ response ∈ responses, response.description = none)
    (whole : describeFirstSuccess text responses = before ++ response :: after) (given : String) :
    response.description = some given ↔
      text = given ∧ response.status / 100 = 2 ∧ ∀ other ∈ before, other.status / 100 ≠ 2 := by
  induction responses generalizing before with
  | nil => simp [describeFirstSuccess] at whole
  | cons head rest ih =>
    have bareRest : ∀ response ∈ rest, response.description = none :=
      fun response member => bare response (List.mem_cons_of_mem head member)
    rw [describeFirstSuccess] at whole
    split at whole
    next success =>
      rw [isSuccess_iff] at success
      cases before with
      | nil =>
        obtain ⟨rfl, -⟩ := List.cons.inj whole
        simp [success]
      | cons first before =>
        -- What stands behind the first success has no description.
        obtain ⟨rfl, rfl⟩ := List.cons.inj whole
        simp [bareRest response (by simp), success]
    next failure =>
      rw [isSuccess_iff] at failure
      cases before with
      | nil =>
        obtain ⟨rfl, -⟩ := List.cons.inj whole
        simp [bare head List.mem_cons_self, failure]
      | cons first before =>
        rw [List.cons_append, List.cons.injEq] at whole
        obtain ⟨rfl, whole⟩ := whole
        simp [ih bareRest whole, failure]

/-- **Where the description goes**: to the first success, when it is given and not empty. -/
theorem description_describe {description : Option (List Char)}
    (bare : ∀ response ∈ responses, response.description = none)
    (whole : describe description responses = before ++ response :: after) (given : String) :
    response.description = some given ↔ description = some given.toList ∧ given ≠ "" ∧
      response.status / 100 = 2 ∧ ∀ other ∈ before, other.status / 100 ≠ 2 := by
  unfold describe at whole
  split at whole
  next => simp [bare response (by simp [whole])]
  next =>
    have absent : response.description = none := bare response (by simp [whole])
    simp only [absent, reduceCtorEq, false_iff, Option.some.injEq]
    rintro ⟨empty, nonempty, -⟩
    exact nonempty (String.toList_eq_nil_iff.1 empty.symm)
  next text nonempty =>
    rw [description_describeFirstSuccess bare whole]
    constructor
    · rintro ⟨rfl, placed⟩
      refine ⟨by rw [String.toList_ofList], fun empty => ?_, placed⟩
      exact nonempty (by simpa using empty)
    · rintro ⟨same, -, placed⟩
      obtain rfl := Option.some.inj same
      exact ⟨String.ofList_toList, placed⟩

end Describe

/-! ## Expressions -/

/-- The entries of an expression, of which there are none when it is no object. -/
def entriesOf (expression : List Char) : List (List Char × List Char) :=
  ((objectBody? expression).map entries).getD []

/-- The responses of an expression are those that its entries describe, with the description. -/
theorem ofExpression_eq_describe (expression : List Char) (description : Option (List Char)) :
    ofExpression expression description =
      describe description ((entriesOf expression).filterMap ofEntry?) := by
  rw [ofExpression_eq, readObject?, entriesOf]
  cases objectBody? expression <;> rfl

/-- Entries that describe responses are read as such, one by one. -/
theorem forall₂_isResponseOf (expression : List Char) :
    List.Forall₂ IsResponseOf ((entriesOf expression).filter fun entry => DescribesResponse entry)
      ((entriesOf expression).filterMap ofEntry?) := by
  refine forall₂_filter_filterMap
    (fun entry _ => Option.isSome_iff_exists.trans exists_ofEntry?_iff) ?_
  intro entry member response read
  unfold entriesOf at member
  cases object : objectBody? expression with
  | none => simp [object] at member
  | some body =>
    rw [object] at member
    exact isResponseOf_of_mem member read

/-- **The responses of an expression.** There is one response for each entry of the object that
describes one, in their order and with what the entry says, and the schema is not empty. A response
has a description exactly when a description is given that is not empty, the response reports
success, and no response in front of it does; it is then the one that is given. -/
theorem ofExpression_lists (expression : List Char) (description : Option (List Char)) :
    List.Forall₂ IsResponseOf ((entriesOf expression).filter fun entry => DescribesResponse entry)
      (ofExpression expression description) ∧
    ∀ before response after, ofExpression expression description = before ++ response :: after →
      ∀ text : String, response.description = some text ↔
        description = some text.toList ∧ text ≠ "" ∧ response.status / 100 = 2 ∧
          ∀ other ∈ before, other.status / 100 ≠ 2 := by
  rw [ofExpression_eq_describe]
  constructor
  · rw [forall₂_isResponseOf_iff, map_describe fun _ _ => rfl, ← forall₂_isResponseOf_iff]
    exact forall₂_isResponseOf expression
  · intro before response after whole text
    refine description_describe (fun response member => ?_) whole text
    obtain ⟨entry, -, read⟩ := List.mem_filterMap.1 member
    rw [(ofEntry?_eq_some_iff.1 read).2.2]

/-- An object whose keys are statuses in digits of two scripts, a number that is no status, and a
word. -/
def mixedStatuses : List Char :=
  "\x7b 404: t.Null(), '٢٠٠': t.Object(\x7b\n a: b \x7d), 099: A, 201: B, default: C \x7d".toList

/-- Of the successes in that object the first one has the description. -/
theorem ofExpression_lists_mixed :
    ofExpression mixedStatuses (some "Done".toList) =
      [⟨404, "t.Null()", none⟩] ++ ⟨200, "t.Object(\x7b a: b \x7d)", some "Done"⟩ ::
        [⟨201, "B", none⟩] ∧
    ∀ text : String, some "Done" = some text ↔
      some "Done".toList = some text.toList ∧ text ≠ "" ∧ 200 / 100 = 2 ∧
        ∀ other ∈ [(⟨404, "t.Null()", none⟩ : ResponseSchema)], other.status / 100 ≠ 2 := by
  have read : ofExpression mixedStatuses (some "Done".toList) =
      [⟨404, "t.Null()", none⟩] ++ ⟨200, "t.Object(\x7b a: b \x7d)", some "Done"⟩ ::
        [⟨201, "B", none⟩] := by decide +kernel
  exact ⟨read, (ofExpression_lists mixedStatuses (some "Done".toList)).2 _ _ _ read⟩

end FileRoutes.ResponseSchema
