import FileRoutes.Options.Declaration
import FileRoutes.Proofs.Source.Written

/-! # Printing options

Options can be printed as a declaration in many ways (`RouteOptions.Prints`): their entries in any
order, any gaps around the tokens, any kind of quotes for each string, and a comma behind a last
item or none.

* `IsClosed text`: an expression that a schema may be.
* `RouteOptions.Entry`: the entries that a declaration may have, with their keys and values.
* `RouteOptions.IsPrintable`: what is asked of the options themselves.

For the responses, the entries of an object and the description that is given apart from them lead
back to the responses (`readObject?_of_writesItems`, `describe_undescribed`). -/

namespace FileRoutes

open Source Text

/-- A **closed** expression: well-nested code on one line, without commas outside its groups. -/
structure IsClosed (text : List Char) : Prop where
  /-- The expression is code. -/
  code : WellNested false text
  /-- It is on one line, with single spaces. -/
  line : collapse text = text
  /-- There is something to read. -/
  nonempty : text ≠ []

/-- A closed expression is a token. -/
theorem IsClosed.isToken {text : List Char} (closed : IsClosed text) : IsToken text :=
  ⟨closed.code, trim_eq_self_of_collapse closed.line, closed.nonempty⟩

/-! ## Printing -/

namespace ResponseSchema

/-- The status as the key of an entry, in decimal digits. -/
def key (response : ResponseSchema) : List Char := Nat.toDigits 10 response.status

/-- A response is written as its schema. -/
def Writes (response : ResponseSchema) (text : List Char) : Prop := text = response.schema.toList

/-- A response as its entry alone gives it. -/
def undescribed (response : ResponseSchema) : ResponseSchema :=
  { response with description := none }

end ResponseSchema

namespace RouteOptions

/-- An **entry** of printed options. -/
inductive Entry where
  /-- The tags, in a list. -/
  | tags (strings : List String)
  /-- The summary. -/
  | summary (text : String)
  /-- The description. -/
  | description (text : String)
  /-- The schema of the request body. -/
  | body (schema : String)
  /-- The schemas of the responses, in an object. -/
  | response (responses : List ResponseSchema)
  /-- The description of the first response that reports success. -/
  | responseDescription (text : String)
  deriving DecidableEq

namespace Entry

/-- The key of an entry. -/
def key : Entry → List Char
  | tags _ => Keyword.tags
  | summary _ => Keyword.summary
  | description _ => Keyword.description
  | body _ => Keyword.body
  | response _ => Keyword.response
  | responseDescription _ => Keyword.responseDescription

/-- How the value of an entry is written. -/
inductive Writes : Entry → List Char → Prop where
  /-- Tags are a list of literals. -/
  | tags {strings : List String} {body : List Char}
      (written : WritesItems WritesString (strings.map String.toList) body) :
      Writes (tags strings) ('[' :: (body ++ [']']))
  /-- A summary is a literal. -/
  | summary {text : String} {literal : List Char} (written : WritesString text.toList literal) :
      Writes (summary text) literal
  /-- A description is a literal. -/
  | description {text : String} {literal : List Char} (written : WritesString text.toList literal) :
      Writes (description text) literal
  /-- The schema of the body is written as it is. -/
  | body {schema : String} : Writes (body schema) schema.toList
  /-- Responses are an object from statuses to schemas. -/
  | response {responses : List ResponseSchema} {body : List Char}
      (written : WritesItems (WritesEntry ResponseSchema.key ResponseSchema.Writes) responses body) :
      Writes (response responses) ('\x7b' :: (body ++ ['\x7d']))
  /-- The description of a response is a literal. -/
  | responseDescription {text : String} {literal : List Char}
      (written : WritesString text.toList literal) : Writes (responseDescription text) literal

end Entry

/-- The responses to print. An empty list may be printed or left out. -/
def printedResponses (withEmpty : Bool) (options : RouteOptions) : Option (List ResponseSchema) :=
  if options.responses.isEmpty && !withEmpty then none else some options.responses

/-- The description that the responses have. -/
def responseDescription (options : RouteOptions) : Option String :=
  options.responses.findSome? ResponseSchema.description

/-- The **entries** that print the options: one for each value that is there. -/
def printed (withEmpty : Bool) (options : RouteOptions) : List Entry :=
  (options.tags.map Entry.tags).toList ++ (options.summary.map Entry.summary).toList ++
    (options.description.map Entry.description).toList ++
    (options.requestSchema.map Entry.body).toList ++
    ((options.printedResponses withEmpty).map Entry.response).toList ++
    (options.responseDescription.map Entry.responseDescription).toList

/-- The **declarations** that print the options. -/
inductive Prints (options : RouteOptions) : List Char → Prop where
  /-- The two keywords, the name, the equals sign and the entries in braces. -/
  | declaration {withEmpty : Bool} {entries : List Entry} {gap₁ gap₂ gap₃ gap₄ body : List Char}
      (order : entries.Perm (options.printed withEmpty))
      (isGap₁ : IsGap gap₁) (nonempty₁ : gap₁ ≠ []) (isGap₂ : IsGap gap₂) (nonempty₂ : gap₂ ≠ [])
      (isGap₃ : IsGap gap₃) (isGap₄ : IsGap gap₄)
      (written : WritesItems (WritesEntry Entry.key Entry.Writes) entries body) :
      Prints options (Keyword.export ++ (gap₁ ++ (Keyword.const ++ (gap₂ ++ (Keyword.options ++
        (gap₃ ++ '=' :: (gap₄ ++ '\x7b' :: (body ++ ['\x7d']))))))))

/-- **What is asked of options** for their printing: that they are ones that a declaration can
give. -/
structure IsPrintable (options : RouteOptions) : Prop where
  /-- The request schema is closed. -/
  request : ∀ schema ∈ options.requestSchema, IsClosed schema.toList
  /-- The schemas of the responses are closed. -/
  schemas : ∀ response ∈ options.responses, IsClosed response.schema.toList
  /-- The responses have statuses. -/
  statuses : ∀ response ∈ options.responses, ResponseSchema.isStatus response.status = true
  /-- No two responses have the same status. -/
  distinct : (options.responses.map ResponseSchema.status).Nodup
  /-- Only the first response that reports success has a description. -/
  described : ∀ before response after, options.responses = before ++ response :: after →
    response.description.isSome → ResponseSchema.isSuccess response.status = true ∧
      ∀ other ∈ before, ResponseSchema.isSuccess other.status = false
  /-- A description is not empty. -/
  meaningful : ∀ response ∈ options.responses, response.description ≠ some ""

end RouteOptions

/-! ## Responses -/

namespace ResponseSchema

/-- The character of a digit is a word character and no quote, and has the value of the digit. -/
theorem digitValue?_digitChar {digit : Nat} (small : digit < 10) :
    isWordChar digit.digitChar = true ∧ isKeyQuote digit.digitChar = false ∧
      digitValue? digit.digitChar = some digit := by
  have all : ∀ digit < 10, isWordChar (Nat.digitChar digit) = true ∧
      isKeyQuote (Nat.digitChar digit) = false ∧
      digitValue? (Nat.digitChar digit) = some digit := by decide
  exact all digit small

/-- A number of three digits is written by their characters. -/
theorem toDigits_three {a b c : Nat} (positive : 0 < a) (small : a < 10) (small' : b < 10)
    (small'' : c < 10) :
    Nat.toDigits 10 (10 * (10 * a + b) + c) = [a.digitChar, b.digitChar, c.digitChar] := by
  rw [← Nat.toDigits_append_toDigits (by decide) (by omega) small'',
    ← Nat.toDigits_append_toDigits (by decide) positive small', Nat.toDigits_of_lt_base small,
    Nat.toDigits_of_lt_base small', Nat.toDigits_of_lt_base small'']
  rfl

/-- The digits of a status are a word, which writes the status. -/
theorem statusOfKey?_toDigits {status : Nat} (isStatus : isStatus status = true) :
    IsWord (Nat.toDigits 10 status) ∧ statusOfKey? (Nat.toDigits 10 status) = some status := by
  have range := isStatus
  simp only [ResponseSchema.isStatus, Bool.and_eq_true, decide_eq_true_eq] at range
  simp only [leastStatus, greatestStatus] at range
  -- A status has three digits, of which the first is not zero.
  obtain ⟨a, b, c, positive, small, small', small'', rfl⟩ : ∃ a b c, 0 < a ∧ a < 10 ∧ b < 10 ∧
      c < 10 ∧ status = 10 * (10 * a + b) + c :=
    ⟨status / 100, status / 10 % 10, status % 10, by omega, by omega, by omega, by omega, by omega⟩
  obtain ⟨word, unquoted, value⟩ := digitValue?_digitChar small
  obtain ⟨word', -, value'⟩ := digitValue?_digitChar small'
  obtain ⟨word'', -, value''⟩ := digitValue?_digitChar small''
  have number : ofDigits [a, b, c] = 10 * (10 * a + b) + c := by simp [ofDigits]
  rw [toDigits_three positive small small' small'']
  refine ⟨⟨by simp [word, word', word''], List.cons_ne_nil _ _⟩, ?_⟩
  simp [statusOfKey?, threeDigits?, dropKeyQuote, unquoted, value, value', value'', number,
    isStatus]

/-- Different statuses have different keys. -/
theorem nodup_keys {responses : List ResponseSchema}
    (statuses : ∀ response ∈ responses, isStatus response.status = true)
    (distinct : (responses.map status).Nodup) : (responses.map key).Nodup := by
  -- Keys can be read as statuses, and equal keys would be read as equal ones.
  have view : (responses.map key).map statusOfKey? = (responses.map status).map some := by
    rw [List.map_map, List.map_map, List.map_inj_left]
    intro response member
    exact (statusOfKey?_toDigits (statuses response member)).2
  have separated : ((responses.map key).map statusOfKey?).Nodup := by
    rw [view]
    exact distinct.map fun _ _ equal => Option.some.inj equal
  exact separated.of_map _

/-- Without a description nothing is described. -/
theorem describe_none (responses : List ResponseSchema) : describe none responses = responses := rfl

/-- Without responses nothing is described. -/
theorem describe_nil (description : Option (List Char)) : describe description [] = [] := by
  unfold describe
  split <;> rfl

/-- Without descriptions of their own, responses stay as they are. -/
theorem map_undescribed {responses : List ResponseSchema}
    (bare : ∀ response ∈ responses, response.description = none) :
    responses.map undescribed = responses := by
  refine (List.map_congr_left fun response member => ?_).trans (List.map_id responses)
  rw [undescribed, ← bare response member]
  rfl

/-- Describing the first success gives back the description that it has. -/
theorem describeFirstSuccess_undescribed {text : String} {responses : List ResponseSchema}
    (found : responses.findSome? description = some text)
    (described : ∀ before response after, responses = before ++ response :: after →
      response.description.isSome → isSuccess response.status = true ∧
        ∀ other ∈ before, isSuccess other.status = false) :
    describeFirstSuccess text (responses.map undescribed) = responses := by
  induction responses with
  | nil => simp at found
  | cons response rest ih =>
    rw [List.map_cons, describeFirstSuccess]
    split
    next success =>
      -- Behind a success nothing is described, so that the description found is its own.
      have bare : ∀ other ∈ rest, other.description = none := by
        intro other member
        by_contra has
        obtain ⟨before, after, rfl⟩ := List.append_of_mem member
        have first := (described (response :: before) other after rfl
          (Option.isSome_iff_ne_none.2 has)).2 response List.mem_cons_self
        have success : isSuccess response.status = true := success
        rw [first] at success
        exact Bool.false_ne_true success
      have own : response.description = some text := by
        rw [List.findSome?_cons] at found
        cases has : response.description with
        | some own => rwa [has] at found
        | none =>
          rw [has, List.findSome?_eq_none_iff.2 bare] at found
          simp at found
      rw [map_undescribed bare, ← own]
      rfl
    next failure =>
      -- A failure is not described, so that the description found is that of a later response.
      have bare : response.description = none := by
        by_contra has
        exact failure (described [] response rest rfl (Option.isSome_iff_ne_none.2 has)).1
      rw [List.findSome?_cons, bare] at found
      rw [ih found]
      · simp only [undescribed, ← bare]
      · intro before other after equal has
        obtain ⟨success, earlier⟩ :=
          described (response :: before) other after (by rw [equal]; rfl) has
        exact ⟨success, fun other member => earlier other (List.mem_cons_of_mem _ member)⟩

/-- The responses of an object, without descriptions. -/
def readObject? (expression : List Char) : Option (List ResponseSchema) :=
  (objectBody? expression).map fun body => (entries body).filterMap ofEntry?

/-- The responses of an expression are those of the object that it is, described. -/
theorem ofExpression_eq (expression : List Char) (description : Option (List Char)) :
    ofExpression expression description =
      describe description ((readObject? expression).getD []) := by
  unfold ofExpression readObject?
  split
  next none => rw [none, Option.map_none, Option.getD_none, describe_nil]
  next body found => rw [found, Option.map_some, Option.getD_some]

/-- **Reading printed responses** gives them back, but for their descriptions. -/
theorem readObject?_of_writesItems {responses : List ResponseSchema} {body : List Char}
    (written : WritesItems (WritesEntry key Writes) responses body)
    (schemas : ∀ response ∈ responses, IsClosed response.schema.toList)
    (statuses : ∀ response ∈ responses, isStatus response.status = true)
    (distinct : (responses.map status).Nodup) :
    readObject? ('\x7b' :: (body ++ ['\x7d'])) = some (responses.map undescribed) := by
  have words : ∀ response ∈ responses, IsWord response.key := fun response member =>
    (statusOfKey?_toDigits (statuses response member)).1
  have tokens : ∀ response ∈ responses, ∀ text, response.Writes text → IsToken text := by
    rintro response member _ rfl
    exact (schemas response member).isToken
  have read := entries_of_writesItems written words tokens (nodup_keys statuses distinct)
  rw [readObject?, objectBody?_of_writesItems written words tokens, Option.map_some,
    ← List.filterMap_eq_map]
  refine congrArg some (filterMap_of_forall₂ read ?_)
  rintro response member ⟨name, value⟩ ⟨rfl, rfl⟩
  have closed := schemas response member
  have status : statusOfKey? response.key = some response.status :=
    (statusOfKey?_toDigits (statuses response member)).2
  simp [status, ofEntry?, closed.nonempty, closed.line, undescribed]

end ResponseSchema

end FileRoutes
