import FileRoutes.Proofs.Analysis.Directory
import FileRoutes.Proofs.FileSystem.Tracing
import FileRoutes.Service.Respond

/-! # What an answer may depend on

When a routes root is set, the table of a directory is answered only for directories that resolve
to that root or to a location below it. The files in the table are not looked at in this way: links
are followed wherever they lead. So an answer depends on what is stored outside the root exactly
when a file outside is read for it (`respond_eq_iff_reads_within`), which a link in the root can
bring about (`respond_depends_on_outside`). -/

namespace FileRoutes.Service

/-- The request to an endpoint with a body. -/
def Request.to (endpoint : Endpoint) (body : Option Json) : Request :=
  ⟨endpoint.method, endpoint.path, body⟩

/-- A request to an endpoint is answered by it. -/
theorem respond_to (context : Context) (endpoint : Endpoint) (body : Option Json) :
    respond context (.to endpoint body) = endpoint.respond context body := by
  have found : Endpoint.ofPath? endpoint.path = some endpoint := by cases endpoint <;> decide
  rw [respond, Request.to]
  simp only [found, if_true]

/-- The routes root that a request asks for. -/
def DirectoryRequest.root? (request : DirectoryRequest) (environment : Environment) :
    Option String :=
  (given? request.root).or environment.defaultRoot

/-! ## Answers -/

section Answers

variable {context : Context} {body : Option Json} {json : Json}

/-- **A table is answered** for a body that asks for a directory which may be analysed. -/
theorem respond_eq_answer_iff :
    respond context (.to .analyzeDirectory body) = .ok (.answer 200 json) ↔
      ∃ request root routes, readBody DirectoryRequest.fields body = .valid request ∧
        request.root? context.environment = some root ∧ isAllowed context root = .ok true ∧
        analyzeDirectory context.environment context.fileSystem
          (optionsReader context.environment request.includeOptions) none root = .ok routes ∧
        (RouteTable.ofRoutes root routes).toJson = json := by
  rw [respond_to, Endpoint.respond]
  cases read : readBody DirectoryRequest.fields body with
  | invalid faults => simp [respondChecked]
  | valid request =>
    simp only [respondChecked, respondDirectory]
    simp only [Schema.Checked.valid.injEq, exists_and_left, exists_eq_left', DirectoryRequest.root?]
    cases (given? request.root).or context.environment.defaultRoot with
    | none => simp [refusal]
    | some root =>
      simp only [Option.some.injEq, exists_eq_left']
      cases isAllowed context root with
      | error failure => simp [bind, Except.bind]
      | ok allows =>
        cases allows with
        | false => simp [bind, Except.bind, pure, Except.pure, outside, refusal]
        | true =>
          cases analyzeDirectory context.environment context.fileSystem
            (optionsReader context.environment request.includeOptions) none root <;>
            simp [bind, Except.bind, pure, Except.pure]

/-- When a routes root is set, what may be analysed is decided by whether it lies within it. -/
theorem isAllowed_eq {configured : String}
    (set : context.environment.defaultRoot = some configured) (path : String) :
    isAllowed context path =
      context.fileSystem.isWithin (.ofString path) (.ofString configured) := by
  rw [isAllowed, set]

/-- When a routes root is set, a directory that is allowed resolves within it. -/
theorem resolvesWithin_of_isAllowed {configured root : String}
    (set : context.environment.defaultRoot = some configured)
    (allowed : isAllowed context root = .ok true) :
    context.fileSystem.ResolvesWithin (.ofString root) (.ofString configured) := by
  rw [isAllowed_eq set] at allowed
  exact FileSystem.isWithin_eq_true_iff.1 allowed

/-- The same paths may be analysed in a file system with the same outline. -/
theorem isAllowed_congr {other : FileSystem} (same : SameOutline context.fileSystem other)
    (path : String) : isAllowed { context with fileSystem := other } path = isAllowed context path := by
  rw [isAllowed, isAllowed]
  cases context.environment.defaultRoot with
  | none => rfl
  | some configured => exact (same.isWithin _ _).symm

end Answers

/-! ## What is read -/

section Reads

variable {context : Context} {body : Option Json} {json : Json}

/-- A request for the table of a directory **reads the file at a location**: its body asks for a
directory in which a route file is found whose path leads to that location. -/
def Reads (context : Context) (body : Option Json) (location : Location) : Prop :=
  ∃ request root files file bytes,
    readBody DirectoryRequest.fields body = .valid request ∧
    request.root? context.environment = some root ∧
    discover context.fileSystem root = .ok files ∧ file ∈ files ∧
    context.fileSystem.status (.ofString file) = .ok (location, .file bytes)

/-- The settings choose a reader that refuses nothing. -/
theorem refusesNothing_optionsReader (environment : Environment) (asked : Option Bool) :
    RefusesNothing (optionsReader environment asked) := by
  unfold optionsReader
  intro read chosen source
  split at chosen
  next =>
    obtain rfl := Option.some.inj chosen
    exact ⟨_, rfl⟩
  next => cases chosen

/-- The number of routes with problems that the table in an answer gives. -/
def reportedProblems (json : Json) : Option Json :=
  (json.member? "summary").bind (·.member? "error_count")

/-- **An answer tells how many of the files cannot be read.** -/
theorem reportedProblems_of_answer {request : DirectoryRequest} {root : String}
    {files : List String} {file : String}
    (answered : respond context (.to .analyzeDirectory body) = .ok (.answer 200 json))
    (valid : readBody DirectoryRequest.fields body = .valid request)
    (asked : request.root? context.environment = some root)
    (found : discover context.fileSystem root = .ok files) (member : file ∈ files) :
    reportedProblems json = some (.nat (files.countP (isUnread context.fileSystem))) := by
  obtain ⟨request', root', routes, valid', asked', -, analyzed, rfl⟩ :=
    respond_eq_answer_iff.1 answered
  obtain rfl : request = request' := Schema.Checked.valid.inj (valid.symm.trans valid')
  obtain rfl : root = root' := Option.some.inj (asked.symm.trans asked')
  rw [eq_recordsOf analyzed found member, ← withErrors_ofRoutes
    (refusesNothing_optionsReader context.environment request.includeOptions)]
  rfl

/-- **An answer depends on the files that are read for it**: it stays the same when only others
change. -/
theorem respond_eq_of_differOnlyIn
    (answered : respond context (.to .analyzeDirectory body) = .ok (.answer 200 json))
    {differing : Location → Prop} (unread : ∀ location, Reads context body location →
      ¬ differing location) {other : FileSystem}
    (differ : DifferOnlyIn differing context.fileSystem other) :
    respond { context with fileSystem := other } (.to .analyzeDirectory body) =
      .ok (.answer 200 json) := by
  obtain ⟨request, root, routes, valid, asked, allowed, analyzed, written⟩ :=
    respond_eq_answer_iff.1 answered
  have same := differ.toSameOutline
  refine respond_eq_answer_iff.2 ⟨request, root, routes, valid, asked, ?_, ?_, written⟩
  · rw [isAllowed_congr same, allowed]
  · have bytes : ∀ files, discover context.fileSystem root = .ok files → ∀ file ∈ files,
        context.fileSystem.bytes (.ofString file) = other.bytes (.ofString file) := by
      intro files found file member
      refine same.bytes fun location bytes reached => differ.elsewhere location ?_
      exact unread location
        ⟨request, root, files, file, bytes, valid, asked, found, member, reached⟩
    show analyzeDirectory context.environment other _ none root = _
    rw [← analyzeDirectory_congr same bytes, analyzed]

end Reads

/-- A body **asks for a directory** below which route files are sought. -/
def AsksFor (context : Context) (body : Option Json) (root : String) : Prop :=
  ∃ request, readBody DirectoryRequest.fields body = .valid request ∧
    request.root? context.environment = some root

/-- **Reading stays below the routes root** when the links at the root and below it do, all that is
stored has the name of a file, and the system can be asked about all that the directory asked for
resolves through. -/
theorem isPrefix_of_reads {configured : String} {base : Path}
    (set : context.environment.defaultRoot = some configured)
    (resolved : context.fileSystem.resolve (.ofString configured) = .ok base)
    (answered : respond context (.to .analyzeDirectory body) = .ok (.answer 200 json))
    (well : context.fileSystem.IsWellNamed) (stay : context.fileSystem.LinksStayBelow base.names)
    (traced : ∀ root, AsksFor context body root → context.fileSystem.IsTraced (.ofString root))
    {location : Location} (reads : Reads context body location) : base.names <+: location := by
  obtain ⟨request, root, files, file, bytes, valid, asked, found, member, reached⟩ := reads
  obtain ⟨request', root', -, valid', asked', allowed, -, -⟩ := respond_eq_answer_iff.1 answered
  obtain rfl : request = request' := Schema.Checked.valid.inj (valid.symm.trans valid')
  obtain rfl : root = root' := Option.some.inj (asked.symm.trans asked')
  obtain ⟨base', below, resolved', found'⟩ := resolvesWithin_of_isAllowed set allowed
  obtain rfl : base = base' := Except.ok.inj (resolved.symm.trans resolved')
  -- The path of the file begins with the names of the directory that is asked for.
  obtain ⟨path, met, rfl⟩ := exists_meets_of_mem_discover found member
  obtain ⟨names, each, rfl⟩ := met.exists_names well
  rw [Path.ofString_text ((Path.isNormal_ofString root).append fun name member =>
    (each name member).toIsPathName)] at reached
  obtain ⟨count, onward⟩ :=
    FileSystem.exists_leads_of_resolve reached (traced root ⟨request, valid, asked⟩) found'
  exact stay.isPrefix_of_leads (List.prefix_append _ _) (fun up => (each _ up).deeper rfl) onward

/-! ## Confinement -/

/-- **Answers are confined to the routes root exactly when all files that are read lie in it.** Let a
root be set and a directory be answered. The root resolves, and the answer is the same for all
contents of the files outside it if and only if every file that is read for the answer is stored at
the root or below it. This is so when the links at the root and below it stay below it, unless the
directory asked for resolves through a path that is too long for the system. -/
theorem respond_eq_iff_reads_within {context : Context} {configured : String}
    (set : context.environment.defaultRoot = some configured) {body : Option Json} {json : Json}
    (answered : respond context (.to .analyzeDirectory body) = .ok (.answer 200 json)) :
    ∃ base, context.fileSystem.resolve (.ofString configured) = .ok base ∧
      ((∀ other, DifferOnlyIn (fun location => ¬ base.names <+: location) context.fileSystem
            other →
          respond { context with fileSystem := other } (.to .analyzeDirectory body) =
            .ok (.answer 200 json)) ↔
        ∀ location, Reads context body location → base.names <+: location) ∧
      (context.fileSystem.IsWellNamed → context.fileSystem.LinksStayBelow base.names →
        (∀ root, AsksFor context body root → context.fileSystem.IsTraced (.ofString root)) →
        ∀ location, Reads context body location → base.names <+: location) := by
  obtain ⟨_, _, _, -, -, allowed, -, -⟩ := respond_eq_answer_iff.1 answered
  obtain ⟨base, -, resolved, -⟩ := resolvesWithin_of_isAllowed set allowed
  refine ⟨base, resolved, ⟨?_, ?_⟩, fun well stay traced location reads =>
    isPrefix_of_reads set resolved answered well stay traced reads⟩
  · rintro unchanged location ⟨request, root, files, file, bytes, valid, asked, found, member,
      reached⟩
    by_contra outside
    -- The bytes of the file outside are changed so that the number of problems is another one.
    obtain ⟨bytes', changes⟩ := exists_changed_bytes bytes
    have stored := FileSystem.entry?_of_status reached
    have differ :=
      FileSystem.differOnlyIn_store (fun location => ¬ base.names <+: location) stored outside
        bytes'
    have found' := (differ.toSameOutline.discover root).symm.trans found
    have before := reportedProblems_of_answer answered valid asked found member
    have after := reportedProblems_of_answer (unchanged _ differ) valid asked found' member
    have equal := Json.int.inj (Option.some.inj (after.symm.trans before))
    exact countP_isUnread_store_ne member reached changes (Int.ofNat.inj equal)
  · intro within other differ
    refine respond_eq_of_differOnlyIn answered (fun location reads => ?_) differ
    exact not_not.2 (within location reads)

/-- A file system whose routes root `r` holds a link to a file outside. -/
def linkedFiles (bytes : List UInt8) : FileSystem :=
  ⟨[(["r"], .directory), (["r", "a.ts"], .link "../secret.ts"), (["secret.ts"], .file bytes)], []⟩

/-- The settings with that routes root. -/
def linkedEnvironment : Environment := { Environment.empty with routesDir := some "r" }

/-- The service with that routes root. -/
def linkedContext (bytes : List UInt8) : Context :=
  ⟨linkedEnvironment, linkedFiles bytes, ⟨0, 0⟩⟩

/-- An empty body asks for the routes root that is set. -/
theorem root?_linkedEnvironment : linkedEnvironment.defaultRoot = some "r" ∧
    (DirectoryRequest.mk none none).root? linkedEnvironment = some "r" := by decide

/-- The names in that file system are short. -/
theorem short_linkedFiles :
    "r".utf8ByteSize = 1 ∧ "a.ts".utf8ByteSize = 4 ∧ "secret.ts".utf8ByteSize = 9 := by
  decide

/-- The routes root is a directory. -/
theorem status_linkedFiles_root (bytes : List UInt8) {anchor : Anchor} (short : anchor ≠ .doubleRoot) :
    (linkedFiles bytes).status ⟨anchor, ["r"]⟩ = .ok (["r"], .directory) := by
  cases anchor with
  | doubleRoot => exact absurd rfl short
  | relative | root =>
    refine FileSystem.status_eq_ok_iff.2 ⟨by decide, by decide, ?_⟩
    simp [linkedFiles, FileSystem.origin, FileSystem.walk, FileSystem.isDirectoryAt,
      FileSystem.entry?, List.lookup, short_linkedFiles, nameLimit]

/-- The link leads to the file outside. -/
theorem status_linkedFiles (bytes : List UInt8) :
    (linkedFiles bytes).status (.ofString "r/a.ts") = .ok (["secret.ts"], .file bytes) := by
  have path : Path.ofString "r/a.ts" = ⟨.relative, ["r", "a.ts"]⟩ := by decide
  rw [path]
  refine FileSystem.status_eq_ok_iff.2 ⟨by decide, by decide, ?_⟩
  simp [linkedFiles, FileSystem.origin, FileSystem.walk, FileSystem.isDirectoryAt,
    FileSystem.entry?, FileSystem.startOf, isAbsolute, namesAlong, Text.fields, List.lookup,
    short_linkedFiles, nameLimit, linkLimit]

/-- The link is the only route file. -/
theorem discover_linkedFiles (bytes : List UInt8) :
    discover (linkedFiles bytes) "r" = .ok ["r/a.ts"] := by
  have root : Path.ofString "r" = ⟨.relative, ["r"]⟩ := by decide
  have listed : listedNames (linkedFiles bytes) (.ofString "r") = .ok ["a.ts"] := by
    have names : (linkedFiles bytes).namesIn ["r"] = ["a.ts"] := rfl
    rw [listedNames, FileSystem.list, root, status_linkedFiles_root bytes (by decide)]
    simp [bind, Except.bind, pure, Except.pure, names]
  have child : (Path.ofString "r").child "a.ts" = .ofString "r/a.ts" := by decide
  have file : (linkedFiles bytes).isDirectory (.ofString "r/a.ts") = .ok false := by
    rw [FileSystem.isDirectory, FileSystem.ask, status_linkedFiles]
    rfl
  have kept : isPassedOver "a.ts" = false ∧ isRouteFileName "a.ts" = true := by decide
  have each : discoverAt (linkedFiles bytes) (.ofString "r") "a.ts" = .ok [.ofString "r/a.ts"] := by
    rw [discoverAt, child, file, kept.1, kept.2]
    rfl
  have text : (Path.ofString "r/a.ts").text = "r/a.ts" := by decide
  rw [discover, discoverBelow_eq, listed]
  simp [bind, Except.bind, pure, Except.pure, each, text]

/-- The routes root is traced. -/
theorem traces_linkedFiles_root (bytes : List UInt8) :
    (linkedFiles bytes).Traces [] (Path.mk .relative ["r"]).base ["r"] ⟨.relative, ["r"]⟩ := by
  have stands : (linkedFiles bytes).StandsAt ⟨.relative, []⟩ [] :=
    FileSystem.StandsAt.base (linkedFiles bytes) ⟨.relative, []⟩
  have stored : FileSystem.entry? (linkedFiles bytes) ([] ++ ["r"]) = some .directory := rfl
  have passes : (linkedFiles bytes).Passes [] "r" ["r"] :=
    .down rfl (by decide) (by decide) (by decide) stored nofun
  exact .down (by decide) (by decide) ⟨by decide, by decide⟩
    (stands.linkAt?_child_of_passes passes (by decide) (by decide)) (.done _ _)

/-- The routes root itself may be analysed. -/
theorem isAllowed_linkedContext (bytes : List UInt8) :
    (linkedFiles bytes).resolve (.ofString "r") = .ok ⟨.root, ["r"]⟩ ∧
      isAllowed (linkedContext bytes) "r" = .ok true := by
  have root : Path.ofString "r" = ⟨.relative, ["r"]⟩ := by decide
  have resolved : (linkedFiles bytes).resolve (.ofString "r") = .ok ⟨.root, ["r"]⟩ := by
    have reached : (linkedFiles bytes).status ⟨.root, ["r"]⟩ = .ok (["r"], .directory) :=
      status_linkedFiles_root bytes (by decide)
    rw [root, (traces_linkedFiles_root bytes).resolve_eq]
    exact FileSystem.checked_of_status reached
  refine ⟨resolved, ?_⟩
  have set : (linkedContext bytes).environment.defaultRoot = some "r" := root?_linkedEnvironment.1
  rw [isAllowed, set]
  show (linkedFiles bytes).isWithin (.ofString "r") (.ofString "r") = .ok true
  rw [FileSystem.isWithin, resolved]
  rfl

/-- The routes root is answered with a table. -/
theorem respond_linkedContext (bytes : List UInt8) : ∃ json,
    respond (linkedContext bytes) (.to .analyzeDirectory (some (.obj []))) =
      .ok (.answer 200 json) := by
  have root := isRoutesRoot_of_mem_discover (discover_linkedFiles bytes) List.mem_cons_self
  refine ⟨_, respond_eq_answer_iff.2 ⟨⟨none, none⟩, "r", recordsOf (linkedFiles bytes)
    (optionsReader linkedEnvironment none) "r" ["r/a.ts"], rfl, root?_linkedEnvironment.2,
    (isAllowed_linkedContext bytes).2, ?_, rfl⟩⟩
  have context : (linkedContext bytes).fileSystem = linkedFiles bytes := rfl
  rw [context, analyzeDirectory_eq, root, discover_linkedFiles]
  rfl

/-- The file outside is read. -/
theorem reads_linkedContext (bytes : List UInt8) :
    Reads (linkedContext bytes) (some (.obj [])) ["secret.ts"] := by
  exact ⟨⟨none, none⟩, "r", ["r/a.ts"], "r/a.ts", bytes, rfl, root?_linkedEnvironment.2,
    discover_linkedFiles bytes, List.mem_cons_self, status_linkedFiles bytes⟩

/-- **A link in the routes root lets an answer depend on what is outside**: the file that it leads to
is read although it is not below the root, and with other bytes in it the answer is another one. -/
theorem respond_depends_on_outside :
    (linkedFiles []).resolve (.ofString "r") = .ok ⟨.root, ["r"]⟩ ∧
    DifferOnlyIn (fun location => ¬ ["r"] <+: location) (linkedFiles []) (linkedFiles [0xFF]) ∧
    (∃ location, Reads (linkedContext []) (some (.obj [])) location ∧ ¬ ["r"] <+: location) ∧
    ∃ json, respond (linkedContext []) (.to .analyzeDirectory (some (.obj []))) =
        .ok (.answer 200 json) ∧
      respond (linkedContext [0xFF]) (.to .analyzeDirectory (some (.obj []))) ≠
        .ok (.answer 200 json) := by
  have outside : ¬ ["r"] <+: ["secret.ts"] := by decide
  have reached := status_linkedFiles []
  have stored : (linkedFiles []).store ["secret.ts"] (.file [0xFF]) = linkedFiles [0xFF] := rfl
  have differ := FileSystem.differOnlyIn_store (fun location => ¬ ["r"] <+: location)
    (FileSystem.entry?_of_status reached) outside [0xFF]
  obtain ⟨json, answered⟩ := respond_linkedContext []
  refine ⟨(isAllowed_linkedContext []).1, stored ▸ differ, ⟨_, reads_linkedContext [], outside⟩,
    json, answered, fun answered' => ?_⟩
  have asked := root?_linkedEnvironment.2
  have before := reportedProblems_of_answer answered rfl asked (discover_linkedFiles [])
    List.mem_cons_self
  have after := reportedProblems_of_answer answered' rfl asked (discover_linkedFiles [0xFF])
    List.mem_cons_self
  have equal := Int.ofNat.inj (Json.int.inj (Option.some.inj (after.symm.trans before)))
  have changes : (Text.Utf8.decode [0xFF]).isOk = !(Text.Utf8.decode []).isOk := by decide
  exact countP_isUnread_store_ne List.mem_cons_self reached changes equal

/-- What confines the answers for that routes root. -/
theorem respond_eq_iff_reads_within_linked : ∃ json,
    (linkedContext []).environment.defaultRoot = some "r" ∧
    respond (linkedContext []) (.to .analyzeDirectory (some (.obj []))) = .ok (.answer 200 json) ∧
    ∃ base, (linkedContext []).fileSystem.resolve (.ofString "r") = .ok base ∧
      ((∀ other, DifferOnlyIn (fun location => ¬ base.names <+: location)
            (linkedContext []).fileSystem other →
          respond { linkedContext [] with fileSystem := other }
            (.to .analyzeDirectory (some (.obj []))) = .ok (.answer 200 json)) ↔
        ∀ location, Reads (linkedContext []) (some (.obj [])) location →
          base.names <+: location) ∧
      ((linkedContext []).fileSystem.IsWellNamed →
        (linkedContext []).fileSystem.LinksStayBelow base.names →
        (∀ root, AsksFor (linkedContext []) (some (.obj [])) root →
          (linkedContext []).fileSystem.IsTraced (.ofString root)) →
        ∀ location, Reads (linkedContext []) (some (.obj [])) location →
          base.names <+: location) := by
  obtain ⟨json, answered⟩ := respond_linkedContext []
  have set : (linkedContext []).environment.defaultRoot = some "r" := root?_linkedEnvironment.1
  exact ⟨json, set, answered, respond_eq_iff_reads_within set answered⟩

end FileRoutes.Service
