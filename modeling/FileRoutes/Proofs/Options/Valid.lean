import FileRoutes.Analysis.File
import FileRoutes.Proofs.Schema.Records
import Mathlib.Data.Option.Basic

/-! # Valid options

Whatever text the options of a route are read from, the status of each response is one that a
response can have (`isStatus_of_ofSource?`). The options are therefore accepted where records are
checked (`declaredOptions_valid`), so that reading options from a text never fails. -/

namespace FileRoutes

namespace ResponseSchema

/-- A key only writes a status. -/
theorem isStatus_of_statusOfKey? {key : List Char} {status : Nat}
    (written : statusOfKey? key = some status) : isStatus status = true := by
  unfold statusOfKey? at written
  exact (Option.filter_eq_some_iff.1 written).2

/-- The response of an entry has the status that its key writes. -/
theorem ofEntry?_status {entry : List Char × List Char} {response : ResponseSchema}
    (found : ofEntry? entry = some response) : statusOfKey? entry.1 = some response.status := by
  unfold ofEntry? at found
  cases written : statusOfKey? entry.1 with
  | none =>
    rw [written] at found
    cases found
  | some status =>
    simp only [written, Option.bind_eq_bind, Option.bind_some] at found
    obtain ⟨-, -, same⟩ := Option.bind_eq_some_iff.1 found
    obtain rfl := Option.some.inj same
    rfl

section Describe

variable {α : Type} {view : ResponseSchema → α}

/-- A description given to a response **changes nothing else** of the responses. -/
theorem map_describeFirstSuccess
    (blind : ∀ response description, view { response with description } = view response)
    (description : String) (responses : List ResponseSchema) :
    (describeFirstSuccess description responses).map view = responses.map view := by
  induction responses with
  | nil => rfl
  | cons response responses ih =>
    unfold describeFirstSuccess
    split
    · rw [List.map_cons, List.map_cons, blind]
    · rw [List.map_cons, List.map_cons, ih]

/-- Describing responses changes nothing but their descriptions. -/
theorem map_describe
    (blind : ∀ response description, view { response with description } = view response)
    (description : Option (List Char)) (responses : List ResponseSchema) :
    (describe description responses).map view = responses.map view := by
  unfold describe
  split
  · rfl
  · rfl
  · exact map_describeFirstSuccess blind _ _

end Describe

/-- Describing responses changes no status. -/
theorem map_status_describe (description : Option (List Char)) (responses : List ResponseSchema) :
    (describe description responses).map status = responses.map status :=
  map_describe (fun _ _ => rfl) description responses

/-- **An expression describes responses with a status only.** -/
theorem isStatus_of_mem_ofExpression {expression : List Char} {description : Option (List Char)}
    {response : ResponseSchema} (member : response ∈ ofExpression expression description) :
    isStatus response.status = true := by
  unfold ofExpression at member
  split at member
  · cases member
  next body _ =>
    have stands : response.status ∈ (describe description
        ((Source.entries body).filterMap ofEntry?)).map status := List.mem_map_of_mem member
    rw [map_status_describe] at stands
    obtain ⟨found, inside, same⟩ := List.mem_map.1 stands
    obtain ⟨entry, -, read⟩ := List.mem_filterMap.1 inside
    rw [← same]
    exact isStatus_of_statusOfKey? (ofEntry?_status read)

end ResponseSchema

namespace RouteOptions

/-- **Options that a text declares have valid statuses.** -/
theorem isStatus_of_ofSource? {source : List Char} {options : RouteOptions}
    (declared : ofSource? source = some options) {response : ResponseSchema}
    (member : response ∈ options.responses) :
    ResponseSchema.isStatus response.status = true := by
  obtain ⟨body, -, rfl⟩ := Option.map_eq_some_iff.1 declared
  exact ResponseSchema.isStatus_of_mem_ofExpression member

end RouteOptions

/-- **Reading the declared options never fails**: a text declares none, or options that are accepted
where records are checked. -/
theorem declaredOptions_valid (source : List Char) :
    ∃ parsed, declaredOptions source = .ok parsed ∧
      ∀ options ∈ parsed, RouteOptions.reader options.toJson = .valid options :=
  ⟨RouteOptions.ofSource? source, rfl, fun options declared => by
    rw [← RouteOptions.dump_byAlias]
    exact (RouteOptions.restores .byAlias).read_encode options fun _ member =>
      RouteOptions.isStatus_of_ofSource? declared member⟩

end FileRoutes
