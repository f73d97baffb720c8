import FileRoutes.Proofs.Options.Responses

/-! # Statuses that are described twice

The keys of an object differ, but different keys may read as the same number, in digits of different
scripts or with a line feed behind the digits. The statuses of the responses that a text declares
differ exactly when no two of its entries clash in this way, and they do when all statuses are
written in the digits from `0` to `9` alone (`nodup_statuses_iff`).

* `ReadsAs.unique`: a key reads as one number at most.
* `eq_of_readsAs_of_isDigit`: in one script a number has one key. -/

namespace FileRoutes

open Source Text

namespace ResponseSchema

/-! ## Keys and numbers -/

section Keys

variable {key other : List Char} {number number' : Nat}

/-- A key reads as one number at most. -/
theorem ReadsAs.unique (reads : ReadsAs key number) (reads' : ReadsAs key number') :
    number = number' := by
  rw [← threeDigits?_eq_some_iff] at reads reads'
  exact Option.some.inj (reads.symm.trans reads')

/-- A digit from `0` to `9` is the character of its value. -/
theorem eq_digitChar_of_isDigit {c : Char} {value : Nat} (isDigit : c.isDigit = true)
    (digit : digitValue? c = some value) : c = value.digitChar ∧ value < 10 := by
  have all : ∀ code ∈ List.range' 48 10, ∃ value < 10,
      Char.ofNat code = Nat.digitChar value ∧ digitValue? (Char.ofNat code) = some value := by
    decide
  have range : c.toNat ∈ List.range' 48 10 := by
    rw [List.mem_range'_1]
    simp only [Char.isDigit, Bool.and_eq_true, decide_eq_true_eq, ge_iff_le, UInt32.le_iff_toNat_le]
      at isDigit
    exact ⟨isDigit.1, Nat.lt_succ_of_le isDigit.2⟩
  obtain ⟨value', small, char, digit'⟩ := all _ range
  rw [Char.ofNat_toNat] at char digit'
  obtain rfl := Option.some.inj (digit.symm.trans digit')
  exact ⟨char, small⟩

/-- A mark in a row of digits is none. -/
theorem IsKeyMark.eq_nil {mark : List Char} (isMark : IsKeyMark mark)
    (digits : ∀ c ∈ mark, c.isDigit = true) : mark = [] := by
  cases isMark with
  | none => rfl
  | quote isQuote =>
    have isDigit := digits _ List.mem_cons_self
    simp only [isKeyQuote, Bool.or_eq_true, beq_iff_eq] at isQuote
    rcases isQuote with rfl | rfl
    · exact absurd isDigit (by decide)
    · exact absurd isDigit (by decide)

/-- A key of digits from `0` to `9` is determined by its number. -/
theorem ReadsAs.eq_digitChars (reads : ReadsAs key number)
    (digits : ∀ c ∈ key, c.isDigit = true) :
    key = [(number / 100).digitChar, (number / 10 % 10).digitChar, (number % 10).digitChar] := by
  obtain ⟨isLead, isTrail, isFinal, first, second, third⟩ := reads
  simp only [List.mem_append, List.mem_cons, or_imp, forall_and, forall_eq] at digits
  obtain ⟨inLead, isDigit, isDigit', isDigit'', inTrail, inFinal⟩ := digits
  obtain rfl := isLead.eq_nil inLead
  obtain rfl := isTrail.eq_nil inTrail
  rcases isFinal with rfl | rfl
  · obtain ⟨rfl, small⟩ := eq_digitChar_of_isDigit isDigit first
    obtain ⟨rfl, small'⟩ := eq_digitChar_of_isDigit isDigit' second
    obtain ⟨rfl, small''⟩ := eq_digitChar_of_isDigit isDigit'' third
    rename_i hundreds tens ones
    have number : (100 * hundreds + 10 * tens + ones) / 100 = hundreds ∧
        (100 * hundreds + 10 * tens + ones) / 10 % 10 = tens ∧
        (100 * hundreds + 10 * tens + ones) % 10 = ones := by omega
    rw [number.1, number.2.1, number.2.2]
    rfl
  · exact absurd (inFinal '\n' List.mem_cons_self) (by decide)

/-- **In the digits from `0` to `9`** a number has one key at most. -/
theorem eq_of_readsAs_of_isDigit (reads : ReadsAs key number) (reads' : ReadsAs other number)
    (digits : ∀ c ∈ key, c.isDigit = true) (digits' : ∀ c ∈ other, c.isDigit = true) :
    key = other := by
  rw [reads.eq_digitChars digits, reads'.eq_digitChars digits']

end Keys

/-! ## Entries that clash -/

/-- Two entries **clash** when both describe a response and their keys are different, but read as
the same number. -/
structure Clash (entry other : List Char × List Char) : Prop where
  /-- The keys are different. -/
  differ : entry.1 ≠ other.1
  /-- The one describes a response. -/
  describes : DescribesResponse entry
  /-- So does the other one. -/
  describes' : DescribesResponse other
  /-- They describe it for the same status. -/
  same : ∃ status, ReadsAs entry.1 status ∧ ReadsAs other.1 status

/-- Two entries with different keys clash iff they give responses of the same status. -/
theorem clash_iff {entry other : List Char × List Char} (differ : entry.1 ≠ other.1) :
    Clash entry other ↔ ∃ response response', ofEntry? entry = some response ∧
      ofEntry? other = some response' ∧ response.status = response'.status := by
  constructor
  · rintro ⟨-, describes, describes', status, reads, reads'⟩
    obtain ⟨response, read⟩ := exists_ofEntry?_iff.2 describes
    obtain ⟨response', read'⟩ := exists_ofEntry?_iff.2 describes'
    refine ⟨response, response', read, read', ?_⟩
    rw [← reads.unique (ofEntry?_eq_some_iff.1 read).2.1.1,
      ← reads'.unique (ofEntry?_eq_some_iff.1 read').2.1.1]
  · rintro ⟨response, response', read, read', same⟩
    have reads := (ofEntry?_eq_some_iff.1 read).2.1.1
    have reads' := (ofEntry?_eq_some_iff.1 read').2.1.1
    exact ⟨differ, exists_ofEntry?_iff.1 ⟨_, read⟩, exists_ofEntry?_iff.1 ⟨_, read'⟩, _, reads,
      same ▸ reads'⟩

/-- The keys of an expression differ. -/
theorem nodup_keys_entriesOf (expression : List Char) :
    ((entriesOf expression).map Prod.fst).Nodup := by
  unfold entriesOf
  cases objectBody? expression with
  | none => exact List.nodup_nil
  | some body => exact nodup_keys_entries body

/-- **The statuses of an expression differ** iff no two of its entries clash. -/
theorem nodup_status_ofExpression_iff (expression : List Char)
    (description : Option (List Char)) :
    ((ofExpression expression description).map status).Nodup ↔
      ∀ entry ∈ entriesOf expression, ∀ other ∈ entriesOf expression, ¬ Clash entry other := by
  rw [ofExpression_eq_describe, map_status_describe, List.Nodup, List.pairwise_map,
    List.pairwise_filterMap]
  constructor
  · intro differ entry member other member' clash
    obtain ⟨response, response', read, read', same⟩ := (clash_iff clash.differ).1 clash
    have symmetric : Std.Symm fun entry other : List Char × List Char =>
        ∀ response, ofEntry? entry = some response → ∀ response', ofEntry? other = some response' →
          response.status ≠ response'.status :=
      ⟨fun _ _ apart response read response' read' => (apart response' read' response read).symm⟩
    have different : entry ≠ other := fun equal => clash.differ (congrArg Prod.fst equal)
    exact differ.forall member member' different response read response' read' same
  · intro none
    have keys := List.pairwise_map.1 (nodup_keys_entriesOf expression)
    refine keys.imp_of_mem fun {entry other} member member' differ => ?_
    intro response read response' read' same
    exact none entry member other member'
      ((clash_iff differ).2 ⟨response, response', read, read', same⟩)

end ResponseSchema

/-! ## Declared statuses -/

namespace RouteOptions

/-- The expression that a text declares its responses by; there is none when it declares none. -/
def responseExpression (source : List Char) : List Char :=
  ((declaredBody? source).bind fun body => (entries body).lookup Keyword.response).getD []

/-- The entries of that expression. -/
def responseEntries (source : List Char) : List (List Char × List Char) :=
  ResponseSchema.entriesOf (responseExpression source)

/-- Declared responses are those of the expression that a text declares them by. -/
theorem exists_responses_eq {source : List Char} {options : RouteOptions}
    (declared : ofSource? source = some options) :
    ∃ description, options.responses =
      ResponseSchema.ofExpression (responseExpression source) description := by
  obtain ⟨body, found, rfl⟩ := Option.map_eq_some_iff.1 declared
  rw [responseExpression, found]
  exact ⟨_, rfl⟩

/-- **The statuses that a text declares differ** exactly when no two entries of its responses clash.
So they do when the keys of all responses are written in the digits from `0` to `9` alone. -/
theorem nodup_statuses_iff {source : List Char} {options : RouteOptions}
    (declared : ofSource? source = some options) :
    ((options.responses.map ResponseSchema.status).Nodup ↔
      ∀ entry ∈ responseEntries source, ∀ other ∈ responseEntries source,
        ¬ ResponseSchema.Clash entry other) ∧
    ((∀ entry ∈ responseEntries source, ResponseSchema.DescribesResponse entry →
        entry.1.all Char.isDigit = true) →
      (options.responses.map ResponseSchema.status).Nodup) := by
  obtain ⟨description, same⟩ := exists_responses_eq declared
  rw [same, ResponseSchema.nodup_status_ofExpression_iff, ← responseEntries]
  refine ⟨Iff.rfl, fun digits entry member other member' clash => ?_⟩
  obtain ⟨status, reads, reads'⟩ := clash.same
  exact clash.differ (ResponseSchema.eq_of_readsAs_of_isDigit reads reads'
    (List.all_eq_true.1 (digits entry member clash.describes))
    (List.all_eq_true.1 (digits other member' clash.describes')))

/-- A declaration of two responses, and of one for a key that is no status. -/
def twoStatuses : List Char :=
  "export const options = \x7b response: \x7b 200: A, '404': B, other: C \x7d \x7d".toList

/-- The statuses of that declaration differ. -/
theorem nodup_statuses_iff_two :
    ofSource? twoStatuses = some ⟨none, none, none, none, [⟨200, "A", none⟩, ⟨404, "B", none⟩]⟩ ∧
      (∀ entry ∈ responseEntries twoStatuses, ResponseSchema.DescribesResponse entry →
        entry.1.all Char.isDigit = true) ∧ [200, 404].Nodup := by
  have declared : ofSource? twoStatuses =
      some ⟨none, none, none, none, [⟨200, "A", none⟩, ⟨404, "B", none⟩]⟩ := by decide +kernel
  have digits : ∀ entry ∈ responseEntries twoStatuses, ResponseSchema.DescribesResponse entry →
      entry.1.all Char.isDigit = true := by decide +kernel
  exact ⟨declared, digits, (nodup_statuses_iff declared).2 digits⟩

/-- A declaration with a status in digits of two scripts. -/
def repeatedStatus : List Char :=
  "export const options = \x7b response: \x7b 200: A, '２００': B \x7d \x7d".toList

/-- The status of that declaration is described twice. -/
theorem not_nodup_repeatedStatus :
    ¬ ∀ source options, ofSource? source = some options →
      (options.responses.map ResponseSchema.status).Nodup := by
  intro differ
  have declared : ofSource? repeatedStatus =
      some ⟨none, none, none, none, [⟨200, "A", none⟩, ⟨200, "B", none⟩]⟩ := by decide +kernel
  have nodup : [200, 200].Nodup := differ _ _ declared
  exact absurd nodup (by decide)

end RouteOptions

end FileRoutes
