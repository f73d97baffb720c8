import FileRoutes.Proofs.Schema.Reading
import FileRoutes.Schema.Dump

/-! # Records read back

A record is **valid** when its parts meet what they are checked for: the status of a response, the
lines and columns of a problem, the slash in front of a URL path. Valid records are what the readers
give, and they are restored from their dumps under either naming, shape by shape
(`ResponseSchema.restores`, `Route.restores`) and for all shapes at once (`Shape.restores`). The body
of a request is read back as well (`Service.FileRequest.readBody_toJson`). -/

namespace FileRoutes

open Schema Schema.Reader

/-! ## Valid records -/

/-- A problem is **valid** when its line and its column count from one. -/
structure Problem.IsValid (problem : Problem) : Prop where
  /-- The line counts from one. -/
  line : ∀ line ∈ problem.line, 1 ≤ line
  /-- The column counts from one. -/
  column : ∀ column ∈ problem.column, 1 ≤ column

/-- A response schema is **valid** when its status is one. -/
def ResponseSchema.IsValid (response : ResponseSchema) : Prop :=
  isStatus response.status = true

/-- Options are **valid** when the schemas of all responses are. -/
def RouteOptions.IsValid (options : RouteOptions) : Prop :=
  ∀ response ∈ options.responses, response.IsValid

/-- A route is **valid** when its URL path begins with a slash and its parts are valid. -/
structure Route.IsValid (route : Route) : Prop where
  /-- The URL path begins with a slash. -/
  urlPath : route.urlPath.toList.head? = some '/'
  /-- The options are valid. -/
  options : ∀ options ∈ route.options, options.IsValid
  /-- The problems are valid. -/
  errors : ∀ problem ∈ route.errors, problem.IsValid

/-- A table is **valid** when all its routes are. -/
def RouteTable.IsValid (table : RouteTable) : Prop :=
  ∀ route ∈ table.routes, route.IsValid

/-- The records of a shape that are **valid**. Those of some shapes all are. -/
def Schema.Shape.IsValid : (shape : Shape) → shape.Record → Prop
  | .problem, record => record.IsValid
  | .responseSchema, record => record.IsValid
  | .routeOptions, record => record.IsValid
  | .route, record => record.IsValid
  | .routeTable, record => record.IsValid
  | .exported, _ | .summary, _ | .fileRequest, _ | .directoryRequest, _ | .errorDetail, _ => True

/-! ## Common parts -/

/-- Every string that may be missing is restored. -/
theorem restores_optionalString :
    Restores (nullable string) (.ofOption .str) fun _ => True :=
  (restores_string.nullable fun _ => nofun).congr (by simp)

/-- Every truth value that may be missing is restored. -/
theorem restores_optionalBoolean :
    Restores (nullable boolean) (.ofOption .bool) fun _ => True :=
  (restores_boolean.nullable fun _ => nofun).congr (by simp)

/-- Every list of strings that may be missing is restored. -/
theorem restores_optionalStrings :
    Restores (nullable (list string)) (.ofOption .strs) fun _ => True :=
  (restores_string.list.nullable fun _ => nofun).congr (by simp)

/-- The natural numbers from a least one on are restored. -/
theorem restores_naturalFrom (least : Nat) :
    Restores (natural least none) .nat fun value => least ≤ value :=
  (restores_natural least none).congr (by simp)

/-! ## Exports and problems -/

/-- Every kind of export is restored. -/
theorem ExportKind.restores :
    Restores (oneOf all word) (fun kind => .str kind.word) fun _ => True :=
  restores_oneOf (fun kind => by cases kind <;> decide)
    fun kind other => by cases kind <;> cases other <;> decide

/-- Every role of an export that may be missing is restored. -/
theorem ExportRole.restores :
    Restores (nullable (oneOf all word)) (.ofOption fun role => .str role.word) fun _ => True := by
  have role : Restores (oneOf all word) (fun role => .str role.word) fun _ => True :=
    restores_oneOf (fun role => by cases role <;> decide)
      fun role other => by cases role <;> cases other <;> decide
  exact (role.nullable fun _ => nofun).congr (by simp)

/-- **Every export is restored.** -/
theorem Export.restores : Restores reader toJson fun _ => True where
  ensures _ _ _ := trivial
  read_encode value _ := by
    rw [reader, toJson, record, restores_string.required trivial rfl,
      ExportKind.restores.required trivial rfl, ExportRole.restores.optional trivial rfl]
    rfl

/-- A line or a column that may be missing is restored when it counts from one. -/
theorem Problem.restores_position : Restores (nullable (natural 1 none)) (.ofOption .nat)
    fun position => ∀ value ∈ position, 1 ≤ value :=
  (restores_naturalFrom 1).nullable fun _ => nofun

/-- **Problems are restored** when they are valid. -/
theorem Problem.restores : Restores reader toJson Problem.IsValid where
  ensures := by
    refine ensures_record fun members => ?_
    simp only [Checked.ensures_seq, Checked.ensures_map]
    intro message _
    refine (restores_position.ensures_optional (by simp)).mono fun line fit => ?_
    exact (restores_position.ensures_optional (by simp)).mono fun column fit' => ⟨fit, fit'⟩
  read_encode problem valid := by
    rw [reader, toJson, record, restores_string.required trivial rfl,
      restores_position.optional valid.line rfl, restores_position.optional valid.column rfl]
    rfl

/-! ## Options -/

/-- The natural numbers that are statuses are restored. -/
theorem ResponseSchema.restores_status :
    Restores (natural leastStatus (some greatestStatus)) .nat
      fun status => isStatus status = true :=
  (restores_natural _ _).congr (by simp [isStatus])

section Dumps

variable (naming : Naming)

/-- **Response schemas are restored** when they are valid. -/
theorem ResponseSchema.restores : Restores reader (dump naming) ResponseSchema.IsValid where
  ensures := by
    refine ensures_record fun members => ?_
    simp only [Checked.ensures_seq, Checked.ensures_map]
    exact restores_status.ensures_required.mono fun status fit schema _ description _ => fit
  read_encode response valid := by
    -- The schema is read under either of its keys, and neither is the key of another field.
    have schema : schemaField [("status_code", .nat response.status),
        (naming.schemaKey, .str response.schema),
        ("description", .ofOption .str response.description)] = .valid response.schema := by
      cases naming <;> rfl
    have description : [("status_code", .nat response.status),
        (naming.schemaKey, .str response.schema),
        ("description", Json.ofOption .str response.description)].lookup "description" =
        some (.ofOption .str response.description) := by
      cases naming <;> rfl
    rw [reader, dump, record, restores_status.required valid rfl, schema,
      restores_optionalString.optional trivial description]
    rfl

/-- **The options of a route are restored** when they are valid. -/
theorem RouteOptions.restores : Restores reader (dump naming) RouteOptions.IsValid where
  ensures := by
    refine ensures_record fun members => ?_
    simp only [Checked.ensures_seq, Checked.ensures_map]
    intro tags _ summary _ description _ requestSchema _
    exact (ResponseSchema.restores naming).list.ensures_optional (List.forall_mem_nil _)
  read_encode options valid := by
    rw [reader, dump, record, restores_optionalStrings.optional trivial rfl,
      restores_optionalString.optional trivial rfl, restores_optionalString.optional trivial rfl,
      restores_optionalString.optional trivial rfl,
      (ResponseSchema.restores naming).list.optional valid rfl]
    rfl

/-! ## Routes and tables -/

/-- The URL paths that begin with a slash are restored. -/
theorem Route.restores_urlPath :
    Restores urlPathReader .str fun path => path.toList.head? = some '/' where
  ensures json := by
    rw [urlPathReader, Checked.ensures_andThen]
    intro path _
    split
    · exact Checked.ensures_fault
    next c _ same =>
      split
      next slash => exact Checked.ensures_valid.2 (by rw [same, slash, List.head?_cons])
      next => exact Checked.ensures_fault
  read_encode path begins := by
    obtain ⟨rest, whole⟩ := List.head?_eq_some_iff.1 begins
    simp [urlPathReader, whole, Reader.string, Checked.andThen]

/-- Options that may be missing are restored when they are valid. -/
theorem RouteOptions.restores_optional : Restores (nullable reader) (.ofOption (dump naming))
    fun value => ∀ options ∈ value, options.IsValid :=
  (RouteOptions.restores naming).nullable fun _ => nofun

/-- **Routes are restored** when they are valid. -/
theorem Route.restores : Restores reader (dump naming) Route.IsValid where
  ensures := by
    refine ensures_record fun members => ?_
    simp only [Checked.ensures_seq, Checked.ensures_map]
    intro filePath _
    refine restores_urlPath.ensures_required.mono fun urlPath begins => ?_
    intro method _ hasHandler _ hasOptions _
    refine ((RouteOptions.restores_optional naming).ensures_optional (by simp)).mono
      fun options fit => ?_
    intro exports _
    exact (Problem.restores.list.ensures_optional (List.forall_mem_nil _)).mono
      fun errors fit' => ⟨begins, fit, fit'⟩
  read_encode route valid := by
    rw [reader, dump, record, restores_string.required trivial rfl,
      restores_urlPath.required valid.urlPath rfl, restores_string.optional trivial rfl,
      restores_boolean.optional trivial rfl, restores_boolean.optional trivial rfl,
      (RouteOptions.restores_optional naming).optional valid.options rfl,
      Export.restores.list.optional (fun _ _ => trivial) rfl,
      Problem.restores.list.optional valid.errors rfl]
    rfl

/-- A count is read back where it is written. -/
theorem Summary.countField_of_lookup {members : List (String × Json)} {key : String} {count : Nat}
    (stored : members.lookup key = some (.nat count)) : countField members key = .valid count :=
  (restores_naturalFrom 0).optional (Nat.zero_le count) stored

/-- **Every summary is restored.** -/
theorem Summary.restores : Restores reader toJson fun _ => True where
  ensures _ _ _ := trivial
  read_encode summary _ := by
    rw [reader, toJson, record, countField_of_lookup rfl, countField_of_lookup rfl,
      countField_of_lookup rfl, countField_of_lookup rfl,
      restores_integer.dictionary.optional trivial rfl, countField_of_lookup rfl,
      countField_of_lookup rfl]
    rfl

/-- **Tables are restored** when they are valid. -/
theorem RouteTable.restores : Restores reader (dump naming) RouteTable.IsValid where
  ensures := by
    refine ensures_record fun members => ?_
    simp only [Checked.ensures_seq, Checked.ensures_map]
    intro root _
    exact ((Route.restores naming).list.ensures_optional (List.forall_mem_nil _)).mono
      fun routes fit summary _ => fit
  read_encode table valid := by
    rw [reader, dump, record, restores_string.required trivial rfl,
      (Route.restores naming).list.optional valid rfl, Summary.restores.optional trivial rfl]
    rfl

end Dumps

/-! ## Requests -/

namespace Service

/-- **Every request for a file is restored.** -/
theorem FileRequest.restores : Restores reader toJson fun _ => True where
  ensures _ _ _ := trivial
  read_encode request _ := by
    rw [reader, toJson, record, fields, restores_string.required trivial rfl,
      restores_optionalString.optional trivial rfl, restores_optionalBoolean.optional trivial rfl]
    rfl

/-- **Every request for a directory is restored.** -/
theorem DirectoryRequest.restores : Restores reader toJson fun _ => True where
  ensures _ _ _ := trivial
  read_encode request _ := by
    rw [reader, toJson, record, fields, restores_optionalString.optional trivial rfl,
      restores_optionalBoolean.optional trivial rfl]
    rfl

/-- **Every explanation of a refusal is restored.** -/
theorem ErrorDetail.restores : Restores reader toJson fun _ => True where
  ensures _ _ _ := trivial
  read_encode error _ := by
    rw [reader, toJson, record, restores_string.required trivial rfl]
    rfl

/-- A request for a file is read back as the body of a request. -/
theorem FileRequest.readBody_toJson (request : FileRequest) :
    readBody fields (some request.toJson) = .valid request := by
  show Checked.within (.key "body") (reader request.toJson) = _
  rw [restores.read_encode request trivial, Checked.within_valid]

/-- A request for a directory is read back as the body of a request. -/
theorem DirectoryRequest.readBody_toJson (request : DirectoryRequest) :
    readBody fields (some request.toJson) = .valid request := by
  show Checked.within (.key "body") (reader request.toJson) = _
  rw [restores.read_encode request trivial, Checked.within_valid]

end Service

/-! ## All shapes -/

/-- **The valid records of every shape are restored**, under either naming. -/
theorem Schema.Shape.restores (naming : Naming) (shape : Shape) :
    Restores shape.reader (shape.dump naming) shape.IsValid :=
  match shape with
  | .exported => Export.restores
  | .problem => Problem.restores
  | .responseSchema => ResponseSchema.restores naming
  | .routeOptions => RouteOptions.restores naming
  | .route => Route.restores naming
  | .summary => Summary.restores
  | .fileRequest => Service.FileRequest.restores
  | .directoryRequest => Service.DirectoryRequest.restores
  | .routeTable => RouteTable.restores naming
  | .errorDetail => Service.ErrorDetail.restores

end FileRoutes
