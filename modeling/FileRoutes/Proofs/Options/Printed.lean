import FileRoutes.Proofs.Options.Declared
import FileRoutes.Proofs.Options.Printing

/-! # Printed options are read back

Reading a declaration that prints options gives the options, whatever text stands behind it and
whatever text without the word `export` stands in front (`ofSource?_of_prints`): the search meets
the declaration, its braces are found to be closed where they are, its entries are those printed,
and each field is read from its own entry (`Lists.ofEntries_eq`). -/

namespace FileRoutes

open Source Text

namespace RouteOptions

/-! ## Entries -/

section Entries

variable {options : RouteOptions} {items : List Entry} {withEmpty : Bool}

/-- The entries of printed options. -/
theorem mem_printed {item : Entry} : item ∈ options.printed withEmpty ↔
    (∃ strings, options.tags = some strings ∧ .tags strings = item) ∨
    (∃ text, options.summary = some text ∧ .summary text = item) ∨
    (∃ text, options.description = some text ∧ .description text = item) ∨
    (∃ schema, options.requestSchema = some schema ∧ .body schema = item) ∨
    (∃ responses, options.printedResponses withEmpty = some responses ∧
      .response responses = item) ∨
    ∃ text, options.responseDescription = some text ∧ .responseDescription text = item := by
  simp [printed]

/-- The keys that entries have. -/
def Entry.keys : List (List Char) :=
  [Keyword.tags, Keyword.summary, Keyword.description, Keyword.body, Keyword.response,
    Keyword.responseDescription]

/-- One entry at most has the key of its field. -/
theorem Entry.keys_sublist {α : Type} (make : α → Entry) {name : List Char}
    (keyed : ∀ a, (make a).key = name) (field : Option α) :
    ((field.map make).toList.map Entry.key).Sublist [name] := by
  cases field with
  | none => exact List.nil_sublist _
  | some a => simp [keyed a]

/-- The entries of printed options have different keys. -/
theorem nodup_keys_printed : ((options.printed withEmpty).map Entry.key).Nodup := by
  have all : Entry.keys.Nodup := by decide
  refine all.sublist ?_
  simp only [printed, List.map_append]
  have tags := Entry.keys_sublist .tags (fun _ => rfl) options.tags
  have summary := Entry.keys_sublist .summary (fun _ => rfl) options.summary
  have description := Entry.keys_sublist .description (fun _ => rfl) options.description
  have body := Entry.keys_sublist .body (fun _ => rfl) options.requestSchema
  have response :=
    Entry.keys_sublist .response (fun _ => rfl) (options.printedResponses withEmpty)
  have responseDescription :=
    Entry.keys_sublist .responseDescription (fun _ => rfl) options.responseDescription
  exact ((((tags.append summary).append description).append body).append response).append
    responseDescription

/-- The responses that are printed are those of the options. -/
theorem eq_responses_of_printedResponses {responses : List ResponseSchema}
    (asked : options.printedResponses withEmpty = some responses) :
    responses = options.responses := by
  rw [printedResponses] at asked
  split at asked
  next => simp at asked
  next => exact (Option.some.inj asked).symm

/-- Every key is a word. -/
theorem Entry.isWord_key (item : Entry) : IsWord item.key := by
  have all : ∀ name ∈ Entry.keys, name.all isWordChar = true ∧ name ≠ [] := by decide
  have member : item.key ∈ Entry.keys := by cases item <;> simp [Entry.key, Entry.keys]
  obtain ⟨word, nonempty⟩ := all _ member
  exact ⟨List.all_eq_true.1 word, nonempty⟩

/-- The value of an entry of printable options is a token. -/
theorem IsPrintable.isToken (printable : options.IsPrintable) {item : Entry}
    (member : item ∈ options.printed withEmpty) {value : List Char} (written : item.Writes value) :
    IsToken value := by
  cases written with
  | tags written => exact written.isToken (fun _ _ _ literal => isToken_of_writesString literal) rfl
  | summary literal | description literal | responseDescription literal =>
    exact isToken_of_writesString literal
  | @body schema =>
    have asked : options.requestSchema = some schema := by simpa [mem_printed] using member
    exact (printable.request schema asked).isToken
  | @response responses body written =>
    have asked : options.printedResponses withEmpty = some responses := by
      simpa [mem_printed] using member
    obtain rfl := eq_responses_of_printedResponses asked
    refine written.isToken (fun response member text entry => ?_) rfl
    exact entry.isToken (ResponseSchema.statusOfKey?_toDigits (printable.statuses _ member)).1
      fun _ schema => schema ▸ (printable.schemas _ member).isToken

/-- An entry with the key of a field is there only when the field has a value. -/
theorem isSome_of_key_eq {item : Entry} (member : item ∈ options.printed withEmpty) :
    (item.key = Keyword.tags → options.tags.isSome) ∧
    (item.key = Keyword.summary → options.summary.isSome) ∧
    (item.key = Keyword.description → options.description.isSome) ∧
    (item.key = Keyword.body → options.requestSchema.isSome) ∧
    (item.key = Keyword.response → (options.printedResponses withEmpty).isSome) ∧
    (item.key = Keyword.responseDescription → options.responseDescription.isSome) ∧
    item.key ≠ Keyword.detail := by
  rw [mem_printed] at member
  rcases member with ⟨_, value, rfl⟩ | ⟨_, value, rfl⟩ | ⟨_, value, rfl⟩ | ⟨_, value, rfl⟩ |
    ⟨_, value, rfl⟩ | ⟨_, value, rfl⟩
  all_goals simp [value, Entry.key, Keyword.tags, Keyword.summary, Keyword.description, Keyword.body,
    Keyword.response, Keyword.responseDescription, Keyword.detail]

/-- Entries **list** options when they were read from what prints them, in some order. -/
structure Lists (options : RouteOptions) (withEmpty : Bool) (items : List Entry)
    (found : List (List Char × List Char)) : Prop where
  /-- All that is printed is there, in some order. -/
  order : items.Perm (options.printed withEmpty)
  /-- Each entry has the key and a value of its item. -/
  read : List.Forall₂ (fun item entry => entry.1 = item.key ∧ item.Writes entry.2) items found

variable {found : List (List Char × List Char)}

/-- **One field.** What the entry of a field is read as is the value of the field. -/
theorem Lists.field {α β : Type} (lists : Lists options withEmpty items found)
    (printable : options.IsPrintable) (make : α → Entry) {field : Option α} {name : List Char}
    (keyed : ∀ a, (make a).key = name)
    (present : ∀ a, field = some a → make a ∈ options.printed withEmpty)
    (absent : ∀ item ∈ options.printed withEmpty, item.key = name → field.isSome)
    {reader : List Char → Option β} {view : α → β}
    (reads : ∀ a value, field = some a → (make a).Writes value → reader value = some (view a)) :
    (value? found name).bind reader = field.map view := by
  cases asked : field with
  | none =>
    -- An entry with that key would be one of a field that has a value.
    have nowhere : found.lookup name = none := by
      refine lookup_eq_none_of_forall₂ lists.read fun item member equal => ?_
      have some := absent item (lists.order.mem_iff.1 member) equal
      rw [asked] at some
      exact Bool.false_ne_true some
    rw [value?, nowhere]
    rfl
  | some a =>
    -- The keys differ, so that the order of the entries does not matter to the look-up.
    have distinct : (items.map Entry.key).Nodup :=
      (lists.order.map Entry.key).nodup_iff.2 nodup_keys_printed
    have member := present a asked
    obtain ⟨value, under, written⟩ :=
      lookup_of_forall₂ lists.read distinct (lists.order.mem_iff.2 member)
    have nonempty := (printable.isToken member written).nonempty
    rw [keyed] at under
    rw [value?, under, Option.filter_some_pos (by simpa using nonempty), Option.bind_some,
      reads a value asked written, Option.map_some]

/-- A field whose value is written as a literal. -/
theorem Lists.stringField (lists : Lists options withEmpty items found)
    (printable : options.IsPrintable) (make : String → Entry) {field : Option String}
    {name : List Char} (keyed : ∀ text, (make text).key = name)
    (present : ∀ text, field = some text → make text ∈ options.printed withEmpty)
    (absent : ∀ item ∈ options.printed withEmpty, item.key = name → field.isSome)
    (literal : ∀ text value, (make text).Writes value → WritesString text.toList value) :
    (value? found name).bind (fun text => (stringValue? text).map String.ofList) = field := by
  have read : (value? found name).bind (fun text => (stringValue? text).map String.ofList) =
      field.map id := by
    refine lists.field printable make keyed present absent fun text value _ written => ?_
    rw [stringValue?_of_writesString (literal text value written), Option.map_some,
      String.ofList_toList, id]
  rwa [Option.map_id] at read

/-- A reader that reads nothing from an empty text reads nothing where there is no entry. -/
theorem getD_lookup_eq {α : Type} {reader : List Char → Option α} (nothing : reader [] = none)
    (found : List (List Char × List Char)) (name : List Char) :
    reader ((found.lookup name).getD []) = (value? found name).bind reader := by
  rw [value?]
  cases found.lookup name with
  | none => exact nothing
  | some value =>
    cases value with
    | nil => exact nothing
    | cons c rest => rfl

/-- Without an inner object only the outer one is looked into. -/
theorem pick_nil {α : Type} (found : List (List Char × List Char)) (name : List Char)
    (reader : List Char → Option α) :
    pick found [] name reader = (value? found name).bind reader := by
  simp [pick, value?]

/-- What is said about the responses of printable options is said again. -/
theorem IsPrintable.describe_undescribed (printable : options.IsPrintable) :
    ResponseSchema.describe (options.responseDescription.map String.toList)
      (options.responses.map ResponseSchema.undescribed) = options.responses := by
  cases found : options.responseDescription with
  | none =>
    have bare := List.findSome?_eq_none_iff.1 found
    rw [Option.map_none, ResponseSchema.describe_none, ResponseSchema.map_undescribed bare]
  | some text =>
    have meaningful : text.toList ≠ [] := by
      intro empty
      obtain ⟨response, member, own⟩ := List.exists_of_findSome?_eq_some found
      rw [String.toList_eq_nil_iff.1 empty] at own
      exact printable.meaningful response member own
    have described :=
      ResponseSchema.describeFirstSuccess_undescribed found printable.described
    rw [Option.map_some, ResponseSchema.describe.eq_def]
    cases characters : text.toList with
    | nil => exact absurd characters meaningful
    | cons c rest =>
      simp only
      rw [← characters, String.ofList_toList, described]

/-- The tags are read back. -/
theorem Lists.tags (lists : Lists options withEmpty items found) (printable : options.IsPrintable) :
    (value? found Keyword.tags).bind (fun text => (stringList? text).map (·.map String.ofList)) =
      options.tags := by
  have read : (value? found Keyword.tags).bind
      (fun text => (stringList? text).map (·.map String.ofList)) = options.tags.map id := by
    refine lists.field printable .tags (fun _ => rfl) ?_
      (fun item member => (isSome_of_key_eq member).1) ?_
    · exact fun strings asked => mem_printed.2 (.inl ⟨strings, asked, rfl⟩)
    · rintro strings _ - ⟨written⟩
      simp [stringList?_of_writesItems written]
  rwa [Option.map_id] at read

/-- The summary is read back. -/
theorem Lists.summary (lists : Lists options withEmpty items found)
    (printable : options.IsPrintable) :
    (value? found Keyword.summary).bind (fun text => (stringValue? text).map String.ofList) =
      options.summary := by
  refine lists.stringField printable .summary (fun _ => rfl) ?_
    (fun item member => (isSome_of_key_eq member).2.1) ?_
  · exact fun text asked => mem_printed.2 (.inr (.inl ⟨text, asked, rfl⟩))
  · rintro text _ ⟨literal⟩
    assumption

/-- The description is read back. -/
theorem Lists.description (lists : Lists options withEmpty items found)
    (printable : options.IsPrintable) :
    (value? found Keyword.description).bind (fun text => (stringValue? text).map String.ofList) =
      options.description := by
  refine lists.stringField printable .description (fun _ => rfl) ?_
    (fun item member => (isSome_of_key_eq member).2.2.1) ?_
  · exact fun text asked => mem_printed.2 (.inr (.inr (.inl ⟨text, asked, rfl⟩)))
  · rintro text _ ⟨literal⟩
    assumption

/-- The schema of the request body is read back. -/
theorem Lists.body (lists : Lists options withEmpty items found) (printable : options.IsPrintable) :
    (value? found Keyword.body).map (fun text => String.ofList (collapse text)) =
      options.requestSchema := by
  have read : (value? found Keyword.body).bind (some ∘ fun text => String.ofList (collapse text)) =
      options.requestSchema.map id := by
    refine lists.field printable .body (fun _ => rfl) ?_
      (fun item member => (isSome_of_key_eq member).2.2.2.1) ?_
    · exact fun schema asked => mem_printed.2 (.inr (.inr (.inr (.inl ⟨schema, asked, rfl⟩))))
    · rintro schema _ asked ⟨⟩
      have closed := printable.request schema asked
      rw [Function.comp_apply, closed.line, String.ofList_toList, id]
  rwa [← Option.map_eq_bind, Option.map_id] at read

/-- The responses are read back, but for their descriptions. -/
theorem Lists.response (lists : Lists options withEmpty items found)
    (printable : options.IsPrintable) :
    (value? found Keyword.response).bind ResponseSchema.readObject? =
      (options.printedResponses withEmpty).map (·.map ResponseSchema.undescribed) := by
  refine lists.field printable .response (fun _ => rfl) ?_
    (fun item member => (isSome_of_key_eq member).2.2.2.2.1) ?_
  · exact fun responses asked =>
      mem_printed.2 (.inr (.inr (.inr (.inr (.inl ⟨responses, asked, rfl⟩)))))
  · intro responses value asked written
    obtain rfl := eq_responses_of_printedResponses asked
    cases written with
    | response written =>
      exact ResponseSchema.readObject?_of_writesItems written printable.schemas printable.statuses
        printable.distinct

/-- The description of the responses is read back. -/
theorem Lists.responseDescription (lists : Lists options withEmpty items found)
    (printable : options.IsPrintable) :
    (value? found Keyword.responseDescription).bind stringValue? =
      options.responseDescription.map String.toList := by
  refine lists.field printable .responseDescription (fun _ => rfl) ?_
    (fun item member => (isSome_of_key_eq member).2.2.2.2.2.1) ?_
  · exact fun text asked => mem_printed.2 (.inr (.inr (.inr (.inr (.inr ⟨text, asked, rfl⟩)))))
  · rintro text _ - ⟨⟩
    exact stringValue?_of_writesString ‹_›

/-- The responses are read back with their descriptions. -/
theorem Lists.responses (lists : Lists options withEmpty items found)
    (printable : options.IsPrintable) :
    ResponseSchema.ofExpression ((found.lookup Keyword.response).getD [])
      (stringValue? ((found.lookup Keyword.responseDescription).getD [])) = options.responses := by
  have given : ((options.printedResponses withEmpty).map
      (·.map ResponseSchema.undescribed)).getD [] =
        options.responses.map ResponseSchema.undescribed := by
    cases asked : options.printedResponses withEmpty with
    | some responses =>
      rw [← eq_responses_of_printedResponses asked]
      rfl
    | none =>
      have empty : options.responses = [] := by
        rw [printedResponses] at asked
        split at asked
        next omitted => simp_all
        next => simp at asked
      rw [empty]
      rfl
  have nothing : ResponseSchema.readObject? [] = none := rfl
  have unsaid : stringValue? [] = none := rfl
  rw [ResponseSchema.ofExpression_eq, getD_lookup_eq unsaid, getD_lookup_eq nothing,
    lists.responseDescription printable, lists.response printable, given,
    printable.describe_undescribed]

/-- **Entries are read back**: the entries of printed options, in whatever order, give them. -/
theorem Lists.ofEntries_eq (lists : Lists options withEmpty items found)
    (printable : options.IsPrintable) : ofEntries found = options := by
  have inner : detailEntries found = [] := by
    have nowhere : found.lookup Keyword.detail = none :=
      lookup_eq_none_of_forall₂ lists.read fun item member =>
        (isSome_of_key_eq (lists.order.mem_iff.1 member)).2.2.2.2.2.2
    rw [detailEntries, nowhere]
    rfl
  simp only [ofEntries, inner, pick_nil]
  rw [lists.tags printable, lists.summary printable, lists.description printable,
    lists.body printable, lists.responses printable]

end Entries

/-! ## Declarations -/

/-- A declaration begins with its first keyword. -/
theorem declaration?_eq_none {text : List Char} (other : ¬ Keyword.export <+: text) :
    declaration? text = none := by
  cases declared : declaredValue? text with
  | none => rw [declaration?, declared, Option.map_none]
  | some behind =>
    obtain ⟨_, _, _, -, -, -, -, -, -, rfl⟩ := declaredValue?_eq_some_iff.1 declared
    exact absurd (List.prefix_append _ _) other

/-- A declaration is found with the text behind it. -/
theorem declaration?_eq_some {text behind : List Char} (declared : declaredValue? text = some behind) :
    declaration? text = some (behind, behind) := by
  rw [declaration?, declared, Option.map_some]

/-- In front of a declaration nothing is declared by a text without its first keyword. -/
theorem silent_declaration? {before : List Char} (clear : ¬ Keyword.export <:+: before)
    (rest : List Char) : Silent declaration? before (Keyword.export ++ rest) := by
  intro suffix inside nonempty
  have none := Keyword.silent_of_clear clear rest suffix inside nonempty
  exact declaration?_eq_none (after?_eq_none_iff.1 none)

/-- The left side of a printed declaration leads to its braces. -/
theorem afterEquals?_append {gap gap' : List Char} (isGap : IsGap gap) (isGap' : IsGap gap')
    (rest : List Char) : atWordEnd (gap ++ '=' :: (gap' ++ '\x7b' :: rest)) = true ∧
      afterEquals? (gap ++ '=' :: (gap' ++ '\x7b' :: rest)) = some ('\x7b' :: rest) := by
  constructor
  · cases gap with
    | nil => rfl
    | cons c gap =>
      have blank := isGap c List.mem_cons_self
      simp [atWordEnd, isWordChar_eq_false_of_isBlank blank]
  · have equals : trimStart (gap ++ '=' :: (gap' ++ '\x7b' :: rest)) =
        '=' :: (gap' ++ '\x7b' :: rest) := by
      rw [trimStart_append_of_isGap isGap, trimStart_cons_of_not_blank (by decide)]
    have brace : trimStart (gap' ++ '\x7b' :: rest) = '\x7b' :: rest := by
      rw [trimStart_append_of_isGap isGap', trimStart_cons_of_not_blank (by decide)]
    rw [afterEquals?, equals]
    simp only [brace]

/-- The braces of the first declaration are found, whatever stands behind them. -/
theorem declaredBody?_append {before gap₁ gap₂ gap₃ gap₄ body : List Char}
    (clear : ¬ Keyword.export <:+: before) (isGap₁ : IsGap gap₁) (nonempty₁ : gap₁ ≠ [])
    (isGap₂ : IsGap gap₂) (nonempty₂ : gap₂ ≠ []) (isGap₃ : IsGap gap₃) (isGap₄ : IsGap gap₄)
    (code : WellNested true body) (behind : List Char) :
    declaredBody? (before ++ (Keyword.export ++ (gap₁ ++ (Keyword.const ++ (gap₂ ++
      (Keyword.options ++ (gap₃ ++ '=' :: (gap₄ ++ '\x7b' :: (body ++ '\x7d' :: behind))))))))) =
        some body := by
  have block := blockBody?_append code behind
  obtain ⟨ends, equals⟩ := afterEquals?_append isGap₃ isGap₄ (body ++ '\x7d' :: behind)
  have declared := declaredValue?_eq_some_iff.2
    ⟨gap₁, gap₂, _, nonempty₁, isGap₁, nonempty₂, isGap₂, ends, equals, rfl⟩
  obtain ⟨more, found⟩ :=
    exists_search_eq_cons (by simp [Keyword.export]) (declaration?_eq_some declared)
  rw [declaredBody?, search_append_of_silent (silent_declaration? clear _), found,
    List.findSome?_cons, block]

/-- **Printed options are read back.** Reading a declaration that prints options gives them,
whatever text stands behind it and whatever text without the word `export` stands in front. -/
theorem ofSource?_of_prints {options : RouteOptions} {text before : List Char}
    (printable : options.IsPrintable) (prints : options.Prints text)
    (clear : ¬ Keyword.export <:+: before) (behind : List Char) :
    ofSource? (before ++ text ++ behind) = some options := by
  obtain ⟨order, isGap₁, nonempty₁, isGap₂, nonempty₂, isGap₃, isGap₄, written⟩ := prints
  rename_i withEmpty items gap₁ gap₂ gap₃ gap₄ body
  have words : ∀ item ∈ items, IsWord item.key := fun item _ => item.isWord_key
  have tokens : ∀ item ∈ items, ∀ value, item.Writes value → IsToken value :=
    fun item member value => printable.isToken (order.mem_iff.1 member)
  have distinct : (items.map Entry.key).Nodup :=
    (order.map Entry.key).nodup_iff.2 nodup_keys_printed
  have code : WellNested true body := written.wellNested fun item member _ entry =>
    entry.isToken (words item member) (tokens item member)
  have declared :=
    declaredBody?_append clear isGap₁ nonempty₁ isGap₂ nonempty₂ isGap₃ isGap₄ code behind
  have lists : options.Lists withEmpty items (entries body) :=
    ⟨order, entries_of_writesItems written words tokens distinct⟩
  simp only [List.append_assoc, List.cons_append, List.nil_append]
  rw [ofSource?, declared, Option.map_some, lists.ofEntries_eq printable]

/-- Options whose strings are full of the marks that the readers look for. -/
def usersOptions : RouteOptions where
  tags := some ["a\x7db", "c, d: '"]
  summary := some "say \"hi\" \\ \x7b"
  description := none
  requestSchema := some "t.Object(\x7b name: 'a, \x7d' \x7d)"
  responses := [⟨404, "t.Null()", none⟩, ⟨200, "User", some "it's `done`, \x7d"⟩]

/-- One of the declarations that print them. -/
def usersText : List Char :=
  ("export const\n options =\x7b response : \x7b404:t.Null(), 200: User ,\x7d," ++
    "summary: \"say \\\"hi\\\" \\\\ \x7b\" ,tags: [ `a\x7db`,'c, d: \\'',]," ++
    "body:t.Object(\x7b name: 'a, \x7d' \x7d), responseDescription: 'it\\'s `done`, \x7d'\x7d").toList

/-- Those options can be printed. -/
theorem isPrintable_usersOptions : usersOptions.IsPrintable where
  request := by
    intro schema asked
    obtain rfl := Option.some.inj asked
    have name : WellNested true " name: ".toList := wellNested_of_all (by decide)
    have string : WellNested true ('\'' :: (escape '\'' "a, \x7d".toList ++ '\'' :: [' '])) :=
      .literal (by decide) (literalBody_escape _) (wellNested_of_all (by decide))
    have object : WellNested true _ :=
      .group (rfl : closerOf? '\x7b' = _) (name.append string) .nil
    have call : WellNested false "t.Object".toList := wellNested_of_all (by decide)
    have whole := call.append (.group (rfl : closerOf? '(' = _) object .nil)
    refine ⟨?_, by decide, by decide⟩
    convert whole using 1
    decide
  schemas := by
    intro response member
    rcases List.mem_pair.1 member with rfl | rfl
    · have call : WellNested false "t.Null".toList := wellNested_of_all (by decide)
      have whole := call.append (.group (rfl : closerOf? '(' = _) .nil .nil)
      refine ⟨?_, by decide, by decide⟩
      convert whole using 1
      decide
    · exact ⟨wellNested_of_all (by decide), by decide, by decide⟩
  statuses := by decide
  distinct := by decide
  described := by
    intro before response after equal has
    rcases before with _ | ⟨first, _ | ⟨second, before⟩⟩
    · obtain ⟨rfl, -⟩ := List.cons.inj equal
      exact absurd has (by decide)
    · obtain ⟨found, equal⟩ := List.cons.inj equal
      obtain ⟨rfl, -⟩ := List.cons.inj equal
      rw [← found]
      decide
    · simp [usersOptions] at equal
  meaningful := by decide

/-- That text prints them. -/
theorem prints_usersText : usersOptions.Prints usersText := by
  have space : IsGap [' '] := by simp [isBlank]
  have spaces : IsGap ['\n', ' '] := by simp [isBlank]
  have ticked : ∀ string, WritesString string ('`' :: (escape '`' string ++ ['`'])) :=
    fun _ => .quoted (by decide)
  have quoted : ∀ string, WritesString string ('\'' :: (escape '\'' string ++ ['\''])) :=
    fun _ => .quoted (by decide)
  have doubled : ∀ string, WritesString string ('"' :: (escape '"' string ++ ['"'])) :=
    fun _ => .quoted (by decide)
  have null : WritesEntry ResponseSchema.key ResponseSchema.Writes ⟨404, "t.Null()", none⟩ _ :=
    .entry isGap_nil isGap_nil rfl
  have user : WritesEntry ResponseSchema.key ResponseSchema.Writes
      ⟨200, "User", some "it's `done`, \x7d"⟩ _ := .entry isGap_nil space rfl
  have response := WritesItems.cons isGap_nil null isGap_nil
    (.cons space user space (.nil isGap_nil))
  have tags : WritesItems WritesString [_, _] _ :=
    .cons space (ticked "a\x7db".toList) isGap_nil
      (.cons isGap_nil (quoted "c, d: '".toList) isGap_nil (.nil isGap_nil))
  have written : WritesItems (WritesEntry Entry.key Entry.Writes)
      [.response usersOptions.responses, .summary "say \"hi\" \\ \x7b", .tags ["a\x7db", "c, d: '"],
        .body "t.Object(\x7b name: 'a, \x7d' \x7d)", .responseDescription "it's `done`, \x7d"] _ :=
    .cons space (.entry space space (.response response)) isGap_nil <|
    .cons isGap_nil (.entry isGap_nil space (.summary (doubled _))) space <|
    .cons isGap_nil (.entry isGap_nil space (.tags tags)) isGap_nil <|
    .cons isGap_nil (.entry isGap_nil isGap_nil .body) isGap_nil <|
    .last space (.entry isGap_nil space (.responseDescription (quoted _))) isGap_nil
  have order : List.Perm
      [.response usersOptions.responses, .summary "say \"hi\" \\ \x7b", .tags ["a\x7db", "c, d: '"],
        .body "t.Object(\x7b name: 'a, \x7d' \x7d)", .responseDescription "it's `done`, \x7d"]
      (usersOptions.printed false) := by decide
  have printed := Prints.declaration order space (by decide) spaces (by decide) space isGap_nil
    written
  convert printed using 1
  -- The characters of the literals are at hand, and those of the joined string are not.
  have parts : ∀ front middle back : List Char,
      (String.ofList front ++ String.ofList middle ++ String.ofList back).toList =
        front ++ middle ++ back := by
    intro front middle back
    rw [← String.ofList_append, ← String.ofList_append, String.toList_ofList]
  refine (parts _ _ _).trans ?_
  decide +kernel

/-- Those options are read back from that text. -/
theorem ofSource?_of_prints_users :
    usersOptions.IsPrintable ∧ usersOptions.Prints usersText ∧
      ¬ Keyword.export <:+: "const options = \x7b\x7d; ".toList ∧
      ofSource? ("const options = \x7b\x7d; ".toList ++ usersText ++ " as const".toList) =
        some usersOptions := by
  have clear : ¬ Keyword.export <:+: "const options = \x7b\x7d; ".toList := by decide +kernel
  exact ⟨isPrintable_usersOptions, prints_usersText, clear,
    ofSource?_of_prints isPrintable_usersOptions prints_usersText clear _⟩

end RouteOptions

end FileRoutes
