import FileRoutes.Proofs.FileSystem.Lexical
import FileRoutes.Proofs.Service.Answering

/-! # Which files are analysed

When a routes root is set, the record of a single file is answered exactly when its path resolves
within that root, and every other path is refused (`respond_analyzeFile_of_within`,
`respond_analyzeFile_of_not_within`). The path is resolved for the check, and the system follows its
links again when the file is read. Both come to the same location when the system can be asked about
every path that resolving comes to (`not_liesOutside_of_readsFile`), and then no answer depends on
what a file outside the root holds. A link under a path that is too long is overlooked by the check,
so that the file outside the root to which it leads is read (`respond_analyzeFile_depends_on_outside`).
-/

namespace FileRoutes.Service

/-- The record that a request for a file with a given path asks for. -/
def FileRequest.record (request : FileRequest) (environment : Environment) (fs : FileSystem)
    (path : String) : Route :=
  analyzeFile fs (optionsReader environment request.includeOptions) path
    ((given? request.root).getD (UrlPath.inferRoot path))

section Requests

variable {context : Context} {body : Option Json} {request : FileRequest} {path : String}

/-- A request for a file asks first whether its path may be analysed. -/
theorem respond_analyzeFile_eq (valid : readBody FileRequest.fields body = .valid request)
    (given : given? (some request.path) = some path) :
    respond context (.to .analyzeFile body) = (do
      if ← isAllowed context path then
        return .answer 200 (request.record context.environment context.fileSystem path).toJson
      else return outside) := by
  rw [respond_to, Endpoint.respond, valid]
  simp only [respondChecked, respondFile, given, FileRequest.record]

variable {configured : String} (set : context.environment.defaultRoot = some configured)
  (valid : readBody FileRequest.fields body = .valid request)
  (given : given? (some request.path) = some path)

include set valid given

/-- **A path within the root** is answered with the record of its file. -/
theorem respond_analyzeFile_of_within
    (within : context.fileSystem.ResolvesWithin (.ofString path) (.ofString configured)) :
    respond context (.to .analyzeFile body) =
      .ok (.answer 200 (request.record context.environment context.fileSystem path).toJson) := by
  rw [respond_analyzeFile_eq valid given, isAllowed_eq set,
    FileSystem.isWithin_eq_true_iff.2 within]
  rfl

/-- **Any other path** is refused, cycles of links aside. -/
theorem respond_analyzeFile_of_not_within
    (acyclic : ¬ context.fileSystem.EndsInCycle (.ofString path))
    (acyclic' : ¬ context.fileSystem.EndsInCycle (.ofString configured))
    (without : ¬ context.fileSystem.ResolvesWithin (.ofString path) (.ofString configured)) :
    respond context (.to .analyzeFile body) = .ok outside := by
  rw [respond_analyzeFile_eq valid given, isAllowed_eq set,
    FileSystem.isWithin_eq_false acyclic acyclic' without]
  rfl

end Requests

/-! ## What is read -/

/-- A location **lies outside** a root when it is not the one the root resolves to, nor below it. All
locations do when the root does not resolve. -/
def LiesOutside (fs : FileSystem) (root : Path) (location : Location) : Prop :=
  ∀ base, fs.resolve root = .ok base → ¬ base.names <+: location

/-- A body **asks for a file** with a path. -/
def AsksForFile (body : Option Json) (path : String) : Prop :=
  ∃ request, readBody FileRequest.fields body = .valid request ∧
    given? (some request.path) = some path

/-- A request for the record of a file **reads the file at a location**: its body asks for a file
that may be analysed, and whose path leads to that location. -/
def ReadsFile (context : Context) (body : Option Json) (location : Location) : Prop :=
  ∃ path bytes, AsksForFile body path ∧ isAllowed context path = .ok true ∧
    context.fileSystem.status (.ofString path) = .ok (location, .file bytes)

section Reads

variable {context : Context} {body : Option Json} {configured : String}

/-- **No answer depends on files that are not read for it.** -/
theorem respond_analyzeFile_congr {differing : Location → Prop}
    (unread : ∀ location, ReadsFile context body location → ¬ differing location)
    {other : FileSystem} (differ : DifferOnlyIn differing context.fileSystem other) :
    respond { context with fileSystem := other } (.to .analyzeFile body) =
      respond context (.to .analyzeFile body) := by
  cases read : readBody FileRequest.fields body with
  | invalid faults =>
    rw [respond_to, respond_to, Endpoint.respond, Endpoint.respond, read, respondChecked,
      respondChecked]
  | valid request =>
    cases given : given? (some request.path) with
    | none =>
      rw [respond_to, respond_to, Endpoint.respond, Endpoint.respond, read]
      simp only [respondChecked, respondFile, given]
    | some path =>
      rw [respond_analyzeFile_eq read given, respond_analyzeFile_eq read given,
        isAllowed_congr differ.toSameOutline]
      -- Only for a path that may be analysed is a file read.
      cases allowed : isAllowed context path with
      | error failure =>
        show Except.error failure = Except.error failure
        rfl
      | ok allows =>
        cases allows with
        | false =>
          show Except.ok outside = Except.ok outside
          rfl
        | true =>
          have bytes : context.fileSystem.bytes (.ofString path) = other.bytes (.ofString path) :=
            differ.toSameOutline.bytes fun location bytes reached =>
              differ.elsewhere location
                (unread location ⟨path, bytes, ⟨request, read, given⟩, allowed, reached⟩)
          simp only [FileRequest.record, analyzeFile_congr bytes]

/-- The problems of a route that its JSON gives. -/
def reportedErrors (json : Json) : Option Json := json.member? "errors"

/-- Records of a file that can be read and of one that cannot are different. -/
theorem toJson_record_ne {environment : Environment} {request : FileRequest} {fs other : FileSystem}
    {path : String} (changes : isUnread other path = !isUnread fs path) :
    (request.record environment other path).toJson ≠ (request.record environment fs path).toJson := by
  intro same
  have refuses := refusesNothing_optionsReader environment request.includeOptions
  have reported : ∀ route : Route,
      reportedErrors route.toJson = some (.arr (route.errors.map Problem.toJson)) := fun _ => rfl
  have errors := congrArg reportedErrors same
  rw [reported, reported, Option.some.injEq, Json.arr.injEq] at errors
  have problems : (request.record environment other path).errors.isEmpty =
      (request.record environment fs path).errors.isEmpty := by
    simpa using congrArg List.isEmpty errors
  rw [← errors_isEmpty_analyzeFile refuses ((given? request.root).getD (UrlPath.inferRoot path)),
    ← errors_isEmpty_analyzeFile refuses ((given? request.root).getD (UrlPath.inferRoot path))]
    at changes
  rw [FileRequest.record, FileRequest.record] at problems
  rw [problems] at changes
  simp at changes

/-- **An answer depends on the file that is read for it**: with other bytes in it, it is another
one. -/
theorem exists_respond_analyzeFile_ne {location : Location}
    (reads : ReadsFile context body location) {differing : Location → Prop}
    (differs : differing location) :
    ∃ other, DifferOnlyIn differing context.fileSystem other ∧
      respond { context with fileSystem := other } (.to .analyzeFile body) ≠
        respond context (.to .analyzeFile body) := by
  obtain ⟨path, bytes, ⟨request, read, given⟩, allowed, reached⟩ := reads
  obtain ⟨bytes', changes⟩ := exists_changed_bytes bytes
  have differ := FileSystem.differOnlyIn_store differing (FileSystem.entry?_of_status reached)
    differs bytes'
  refine ⟨_, differ, fun same => ?_⟩
  have before : context.fileSystem.bytes (.ofString path) = .ok bytes := by
    rw [FileSystem.bytes, reached]
    rfl
  have after := FileSystem.bytes_store reached bytes'
  rw [respond_analyzeFile_eq read given, respond_analyzeFile_eq read given,
    isAllowed_congr differ.toSameOutline, allowed] at same
  have equal := (Response.answer.inj (Except.ok.inj same)).2
  refine toJson_record_ne ?_ equal
  rw [isUnread_eq before, isUnread_eq after, changes]

/-- **The file that is read is the one that was checked** when the system can be asked about every
path that resolving comes to. -/
theorem not_liesOutside_of_readsFile (set : context.environment.defaultRoot = some configured)
    (traced : ∀ path, AsksForFile body path → context.fileSystem.IsTraced (.ofString path))
    {location : Location} (reads : ReadsFile context body location) :
    ¬ LiesOutside context.fileSystem (.ofString configured) location := by
  obtain ⟨path, bytes, asks, allowed, reached⟩ := reads
  obtain ⟨base, names, found, resolved⟩ := resolvesWithin_of_isAllowed set allowed
  intro outside
  have place := FileSystem.names_of_resolve reached (traced path asks) resolved
  exact outside base found (place ▸ List.prefix_append _ _)

end Reads

/-- **Requests for a file and the routes root.** Let a root be set. A path that resolves within the
root is answered with its record; any other path is refused with the status 403, unless it or the
root ends in a cycle of links. The answer to a body is the same for all contents of the files outside
the root if and only if no file outside is read for it. That is so when the system can be asked about
every path that resolving comes to. -/
theorem respond_analyzeFile_confined {context : Context} {configured : String}
    (set : context.environment.defaultRoot = some configured) :
    (∀ body request path, readBody FileRequest.fields body = .valid request →
      given? (some request.path) = some path →
      ¬ context.fileSystem.EndsInCycle (.ofString path) →
      ¬ context.fileSystem.EndsInCycle (.ofString configured) →
      ((∃ answer, respond context (.to .analyzeFile body) = .ok answer ∧ answer.status = 403) ↔
        ¬ context.fileSystem.ResolvesWithin (.ofString path) (.ofString configured)) ∧
      (context.fileSystem.ResolvesWithin (.ofString path) (.ofString configured) →
        respond context (.to .analyzeFile body) =
          .ok (.answer 200
            (request.record context.environment context.fileSystem path).toJson))) ∧
    (∀ body,
      (∀ other,
        DifferOnlyIn (LiesOutside context.fileSystem (.ofString configured)) context.fileSystem
          other →
        respond { context with fileSystem := other } (.to .analyzeFile body) =
          respond context (.to .analyzeFile body)) ↔
      ∀ location, ReadsFile context body location →
        ¬ LiesOutside context.fileSystem (.ofString configured) location) ∧
    ∀ body, (∀ path, AsksForFile body path → context.fileSystem.IsTraced (.ofString path)) →
      ∀ location, ReadsFile context body location →
        ¬ LiesOutside context.fileSystem (.ofString configured) location := by
  refine ⟨fun body request path valid given acyclic acyclic' => ⟨⟨?_, ?_⟩, ?_⟩,
    fun body => ⟨fun unchanged location reads outside => ?_, fun unread other differ => ?_⟩,
    fun body traced location reads => not_liesOutside_of_readsFile set traced reads⟩
  · rintro ⟨answer, answered, refused⟩ within
    rw [respond_analyzeFile_of_within set valid given within] at answered
    obtain rfl := Except.ok.inj answered
    cases refused
  · intro without
    exact ⟨outside, respond_analyzeFile_of_not_within set valid given acyclic acyclic' without, rfl⟩
  · exact respond_analyzeFile_of_within set valid given
  · obtain ⟨other, differ, changed⟩ := exists_respond_analyzeFile_ne reads outside
    exact changed (unchanged other differ)
  · exact respond_analyzeFile_congr unread differ

/-- The path of the link to a file outside resolves to that file. -/
theorem resolve_linkedFiles (bytes : List UInt8) :
    (linkedFiles bytes).resolve (.ofString "r/a.ts") = .ok ⟨.root, ["secret.ts"]⟩ := by
  have path : Path.ofString "r/a.ts" = ⟨.relative, ["r", "a.ts"]⟩ := by decide
  have target : Path.start ⟨.relative, ["r"]⟩ "../secret.ts" = ⟨.relative, ["r"]⟩ ∧
      namesAlong "../secret.ts" = ["..", "secret.ts"] := by decide
  have start := FileSystem.StandsAt.base (linkedFiles bytes) ⟨.relative, []⟩
  have root : (linkedFiles bytes).Passes [] "r" ([] ++ ["r"]) :=
    .down rfl (by decide) (by decide) (by decide)
      (show FileSystem.entry? (linkedFiles bytes) ["r"] = some .directory from rfl) nofun
  have secret : (linkedFiles bytes).Passes [] "secret.ts" ([] ++ ["secret.ts"]) :=
    .down rfl (by decide) (by decide) (by decide)
      (show FileSystem.entry? (linkedFiles bytes) ["secret.ts"] = some (.file bytes) from rfl) nofun
  have link : (linkedFiles bytes).MeetsLink ["r"] "a.ts" "../secret.ts" :=
    ⟨rfl, by decide, by decide, by decide, rfl⟩
  have found := (start.child root (by decide)).linkAt?_child ⟨by decide, by decide⟩ link
  have traces : (linkedFiles bytes).Traces [] (Path.mk .relative ["r", "a.ts"]).base ["r", "a.ts"]
      ⟨.relative, ["secret.ts"]⟩ := by
    refine .down (by decide) (by decide) ⟨by decide, by decide⟩
      (start.linkAt?_child_of_passes root (by decide) (by decide))
      (.through (by decide) (by decide) found (by decide) ?_ (.done _ _))
    rw [target.2]
    refine .up (.down (by decide) (by decide) ⟨by decide, by decide⟩ ?_ (.done _ _))
    exact start.linkAt?_child_of_passes secret (by decide) (by decide)
  have reached : (linkedFiles bytes).status ⟨.root, ["secret.ts"]⟩ =
      .ok (["secret.ts"], .file bytes) := by
    refine FileSystem.status_eq_ok_iff.2 ⟨by decide, by decide, ?_⟩
    exact (secret.walk_cons true linkLimit []).trans (by rw [FileSystem.walk]; rfl)
  rw [path, traces.resolve_eq]
  exact FileSystem.checked_of_status reached

/-- The body of a request for a file. -/
def fileBody (path : String) : Option Json := some (.obj [("path", .str path)])

/-- The link to a file outside is refused, whatever that file holds, and the routes root is not. -/
theorem respond_analyzeFile_confined_linked :
    (linkedContext []).environment.defaultRoot = some "r" ∧
    (∃ answer, respond (linkedContext []) (.to .analyzeFile (fileBody "r/a.ts")) = .ok answer ∧
      answer.status = 403) ∧
    (∃ json, respond (linkedContext []) (.to .analyzeFile (fileBody "r")) =
      .ok (.answer 200 json)) ∧
    ∀ bytes, respond (linkedContext bytes) (.to .analyzeFile (fileBody "r/a.ts")) =
      respond (linkedContext []) (.to .analyzeFile (fileBody "r/a.ts")) := by
  have set : (linkedContext []).environment.defaultRoot = some "r" := root?_linkedEnvironment.1
  have root := (isAllowed_linkedContext []).1
  have link := resolve_linkedFiles []
  have acyclic : ¬ (linkedFiles []).EndsInCycle (.ofString "r") := by
    rw [← FileSystem.resolve_eq_linkLoop_iff, root]
    exact nofun
  have acyclic' : ¬ (linkedFiles []).EndsInCycle (.ofString "r/a.ts") := by
    rw [← FileSystem.resolve_eq_linkLoop_iff, link]
    exact nofun
  have within : (linkedFiles []).ResolvesWithin (.ofString "r") (.ofString "r") :=
    ⟨⟨.root, ["r"]⟩, [], root, root⟩
  have without : ¬ (linkedFiles []).ResolvesWithin (.ofString "r/a.ts") (.ofString "r") := by
    rintro ⟨base, names, found, resolved⟩
    obtain rfl : ⟨.root, ["r"]⟩ = base := Except.ok.inj (root.symm.trans found)
    have equal : Path.mk .root ["secret.ts"] = Path.descend ⟨.root, ["r"]⟩ names :=
      Except.ok.inj (link.symm.trans resolved)
    simp [Path.descend] at equal
  have given : given? (some "r") = some "r" ∧ given? (some "r/a.ts") = some "r/a.ts" := by
    decide
  obtain ⟨decided, same, -⟩ := respond_analyzeFile_confined set
  refine ⟨set, ?_, ?_, fun bytes => (same (fileBody "r/a.ts")).2 ?_ (linkedFiles bytes) ?_⟩
  · exact (decided (fileBody "r/a.ts") ⟨"r/a.ts", none, none⟩ _ rfl given.2 acyclic' acyclic).1.2
      without
  · exact ⟨_, (decided (fileBody "r") ⟨"r", none, none⟩ _ rfl given.1 acyclic acyclic).2 within⟩
  · -- Nothing is read for a path that is refused.
    rintro location ⟨path, bytes, ⟨request, valid, asked⟩, allowed, -⟩
    obtain rfl : ⟨"r/a.ts", none, none⟩ = request := Schema.Checked.valid.inj valid
    obtain rfl : "r/a.ts" = path := Option.some.inj (given.2.symm.trans asked)
    exact absurd (resolvesWithin_of_isAllowed set allowed) without
  · -- The file outside is stored with other bytes.
    have outside : LiesOutside (linkedFiles []) (.ofString "r") ["secret.ts"] := by
      intro base found
      obtain rfl : ⟨.root, ["r"]⟩ = base := Except.ok.inj (root.symm.trans found)
      decide
    have stored := FileSystem.entry?_of_status (status_linkedFiles [])
    exact FileSystem.differOnlyIn_store _ stored outside bytes

/-! ## A link that is overlooked -/

/-- Some double dots, which lead nowhere from the root. -/
def upward (count : Nat) : List String := List.replicate count ".."

/-- A file system with a routes root `r` in the root directory. In it are a link to a file outside
and a link that goes up as often as its target says. -/
def overlookedFiles : FileSystem :=
  ⟨[(["r"], .directory), (["r", "k.ts"], .link "/secret.ts"),
    (["r", "up"], .link (.ofList (Path.joinNames (upward 700)))), (["secret.ts"], .file [])], []⟩

/-- The service with that routes root. -/
def overlookedContext : Context := ⟨linkedEnvironment, overlookedFiles, ⟨0, 0⟩⟩

/-- The directory of the routes root, after many double dots. -/
def windingRoot : Path := ⟨.relative, "r" :: "up" :: (upward 665 ++ ["r"])⟩

/-- The names in these paths can stand in a path and hold neither NUL characters nor blanks. -/
theorem clean_of_mem {name : String} {count : Nat}
    (member : name ∈ "r" :: "up" :: (upward count ++ ["r", "k.ts"])) :
    IsPathName name ∧ ∀ c ∈ name.toList, c ≠ '\x00' ∧ Text.isBlank c = false := by
  have each : ∀ name ∈ ["r", "up", "..", "k.ts"], IsPathName name ∧
      (name.toList.all fun c => c != '\x00' && !Text.isBlank c) = true := by decide
  have few : name ∈ ["r", "up", "..", "k.ts"] := by
    simp only [upward, List.mem_append, List.mem_cons, List.mem_replicate] at member ⊢
    tauto
  obtain ⟨can, clean⟩ := each name few
  refine ⟨can, fun c inside => ?_⟩
  simpa using List.all_eq_true.1 clean c inside

/-- Some of these names make a path that is clean, and whose bytes are counted name by name. -/
theorem text_of_sublist (count : Nat) {names : List String} (something : names ≠ [])
    (some : names.Sublist ("r" :: "up" :: (upward count ++ ["r", "k.ts"]))) :
    '\x00' ∉ (Path.mk .relative names).text.toList ∧
      (Path.mk .relative names).text.utf8ByteSize + 1 =
        (names.map fun name => name.utf8ByteSize + 1).sum := by
  refine ⟨?_, Path.utf8ByteSize_text_of_relative something fun name member =>
    (clean_of_mem (some.subset member)).1⟩
  rw [Path.mem_text_iff (by decide) (by decide)]
  rintro ⟨name, member, null⟩
  exact ((clean_of_mem (some.subset member)).2 _ null).1 rfl

/-- Every double dot takes three bytes. -/
theorem sum_upward (count : Nat) (names : List String) :
    ((upward count ++ names).map fun name => name.utf8ByteSize + 1).sum =
      3 * count + (names.map fun name => name.utf8ByteSize + 1).sum := by
  have two : "..".utf8ByteSize = 2 := by decide
  rw [List.map_append, List.sum_append, upward, List.map_replicate, List.sum_replicate, two,
    smul_eq_mul, Nat.mul_comm]

/-- The routes root is passed to. -/
theorem passes_overlookedFiles : overlookedFiles.Passes [] "r" ["r"] :=
  .down rfl (by decide) (by decide) (by decide)
    (show overlookedFiles.entry? ["r"] = some .directory from rfl) nofun

/-- The links in the routes root are met. -/
theorem meetsLink_overlookedFiles :
    overlookedFiles.MeetsLink ["r"] "k.ts" "/secret.ts" ∧
      overlookedFiles.MeetsLink ["r"] "up" (.ofList (Path.joinNames (upward 700))) :=
  ⟨⟨rfl, by decide, by decide, by decide, rfl⟩, ⟨rfl, by decide, by decide, by decide, rfl⟩⟩

/-- Double dots lead nowhere from the root. -/
theorem reaches_upward (fs : FileSystem) (count : Nat) : fs.Reaches [] (upward count) [] := by
  induction count with
  | zero => exact .done []
  | succ count ih => exact .step (.up rfl) ih

/-- A path of double dots stands at the root when the working directory is the root. -/
theorem standsAt_upward (count : Nat) :
    overlookedFiles.StandsAt ⟨.relative, upward count⟩ [] where
  reaches := reaches_upward overlookedFiles count
  moves name member := by
    rw [List.eq_of_mem_replicate member]
    decide

/-- Double dots are traced to double dots. -/
theorem traces_upward {fs : FileSystem} {pending : List Path} {before count : Nat}
    {rest : List String} {reached : Path}
    (onward : fs.Traces pending ⟨.relative, upward (before + count)⟩ rest reached) :
    fs.Traces pending ⟨.relative, upward before⟩ (upward count ++ rest) reached := by
  induction count generalizing before with
  | zero => exact onward
  | succ count ih =>
    have up : Path.up ⟨.relative, upward before⟩ = ⟨.relative, upward (before + 1)⟩ := by
      have last : (upward (before + 1)) = upward before ++ [".."] := List.replicate_succ'
      rw [last]
      cases before with
      | zero => rfl
      | succ before =>
        have last : (upward (before + 1)) = upward before ++ [".."] := List.replicate_succ'
        rw [Path.up, last]
        simp [Path.child]
    refine .up (up ▸ ih ?_)
    rwa [Nat.add_right_comm]

/-- The double dots that the link stands for are found again along its target. -/
theorem along_upward : namesAlong (.ofList (Path.joinNames (upward 700))) = upward 700 ∧
    isAbsolute (.ofList (Path.joinNames (upward 700))) = false :=
  namesAlong_joinNames (List.cons_ne_nil _ _) fun name member => by
    rw [List.eq_of_mem_replicate member]
    decide

/-- The directory of the routes root is traced to a path that is nearly too long. -/
theorem traces_windingRoot : overlookedFiles.Traces [] windingRoot.base windingRoot.names
    ⟨.relative, upward 1364 ++ ["r"]⟩ := by
  have start := standsAt_upward 0
  have root := start.child passes_overlookedFiles (by decide)
  have found := root.linkAt?_child ⟨by decide, by decide⟩ meetsLink_overlookedFiles.2
  obtain ⟨along, relative⟩ := along_upward
  -- The target goes up from the routes root once, and then on and on.
  have inner : overlookedFiles.Traces [⟨.relative, ["r", "up"]⟩]
      (Path.start ⟨.relative, ["r"]⟩ (.ofList (Path.joinNames (upward 700))))
      (namesAlong (.ofList (Path.joinNames (upward 700)))) ⟨.relative, upward (0 + 699)⟩ := by
    have start : Path.start ⟨.relative, ["r"]⟩ (.ofList (Path.joinNames (upward 700))) =
        ⟨.relative, ["r"]⟩ := by
      rw [Path.start, relative]
      rfl
    have split : upward 700 = ".." :: (upward 699 ++ []) := by
      rw [List.append_nil]
      rfl
    have back : Path.up ⟨.relative, ["r"]⟩ = ⟨.relative, upward 0⟩ := rfl
    rw [start, along, split]
    refine .up ?_
    rw [back]
    exact traces_upward (.done _ _)
  have asked : (Path.child ⟨.relative, upward 1364⟩ "r").IsAskable := by
    obtain ⟨clean, size⟩ := text_of_sublist 1364 (by simp)
      (((List.Sublist.append_left (by decide : ["r"].Sublist ["r", "k.ts"]) _).cons "up").cons "r")
    have last : (["r"].map fun name : String => name.utf8ByteSize + 1).sum = 2 := by decide
    rw [sum_upward, last] at size
    refine ⟨clean, ?_⟩
    simp only [Path.child, pathLimit]
    omega
  have outer : overlookedFiles.Traces [] ⟨.relative, upward (0 + 699)⟩ (upward 665 ++ ["r"])
      ⟨.relative, upward 1364 ++ ["r"]⟩ :=
    traces_upward (.down (by decide) (by decide) asked
      ((standsAt_upward 1364).linkAt?_child_of_passes passes_overlookedFiles (by decide)
        (by decide)) (.done _ _))
  exact .down (by decide) (by decide) ⟨by decide, by decide⟩
    (start.linkAt?_child_of_passes passes_overlookedFiles (by decide) (by decide))
    (.through (by decide) (by decide) found (by decide) inner outer)

/-- A path into the routes root leads to the file outside. -/
theorem walk_overlookedFiles (links : Nat) :
    overlookedFiles.walk true (links + 1) ["r"] ["k.ts"] =
      .ok (.taken ["secret.ts"] (.file [])) := by
  have target : FileSystem.startOf ["r"] "/secret.ts" = [] ∧
      namesAlong "/secret.ts" = ["", "secret.ts"] := by decide
  have root : overlookedFiles.Passes [] "" [] := .stay rfl (.inl rfl)
  have secret : overlookedFiles.Passes [] "secret.ts" ["secret.ts"] :=
    .down rfl (by decide) (by decide) (by decide)
      (show overlookedFiles.entry? ["secret.ts"] = some (.file []) from rfl) nofun
  rw [meetsLink_overlookedFiles.1.walk_cons, target.1, target.2, List.append_nil, root.walk_cons,
    secret.walk_cons, FileSystem.walk]
  rfl

/-- The link in the directory of the routes root leads to the file outside. -/
theorem status_windingRoot :
    overlookedFiles.status (windingRoot.child "k.ts") = .ok (["secret.ts"], .file []) := by
  have names : windingRoot.child "k.ts" =
      ⟨.relative, "r" :: "up" :: (upward 665 ++ ["r", "k.ts"])⟩ := by
    simp [windingRoot, Path.child]
  obtain ⟨clean, size⟩ := text_of_sublist 665 (List.cons_ne_nil _ _) (List.Sublist.refl _)
  rw [names]
  refine FileSystem.status_eq_ok_iff.2 ⟨clean, ?_, ?_⟩
  · have last : (["r", "k.ts"].map fun name : String => name.utf8ByteSize + 1).sum = 7 := by decide
    have first : "r".utf8ByteSize = 1 ∧ "up".utf8ByteSize = 2 := by decide
    rw [List.map_cons, List.map_cons, List.sum_cons, List.sum_cons, sum_upward, last, first.1,
      first.2] at size
    simp only [pathLimit]
    omega
  · obtain ⟨along, relative⟩ := along_upward
    have start : FileSystem.startOf ["r"] (.ofList (Path.joinNames (upward 700))) = ["r"] := by
      rw [FileSystem.startOf, relative]
      rfl
    -- The link goes up from the routes root once, and then on and on.
    have turn : upward 700 ++ (upward 665 ++ ["r", "k.ts"]) =
        ".." :: (upward 699 ++ (upward 665 ++ ["r", "k.ts"])) := rfl
    have back : overlookedFiles.Passes ["r"] ".." [] := .up rfl
    have origin : ∀ names, overlookedFiles.origin ⟨.relative, names⟩ = [] := fun _ => rfl
    have limit : linkLimit = 39 + 1 := rfl
    rw [origin, limit, passes_overlookedFiles.walk_cons, meetsLink_overlookedFiles.2.walk_cons,
      start, along, turn, back.walk_cons, (reaches_upward overlookedFiles 699).walk_append,
      (reaches_upward overlookedFiles 665).walk_append, passes_overlookedFiles.walk_cons]
    exact walk_overlookedFiles 38

/-- **The directory of the routes root makes the link in it overlooked**, which then resolves to
itself and so within the routes root. -/
theorem resolve_windingRoot :
    overlookedFiles.resolve (windingRoot.child "k.ts") = .ok ⟨.root, ["r", "k.ts"]⟩ := by
  obtain ⟨-, size⟩ := text_of_sublist 1364 (by simp)
    (((List.Sublist.refl (upward 1364 ++ ["r", "k.ts"])).cons "up").cons "r")
  have last : (["r", "k.ts"].map fun name : String => name.utf8ByteSize + 1).sum = 7 := by decide
  rw [sum_upward, last] at size
  have child : Path.child ⟨.relative, upward 1364 ++ ["r"]⟩ "k.ts" =
      ⟨.relative, upward 1364 ++ ["r", "k.ts"]⟩ := by
    simp [Path.child]
  have long : pathLimit ≤ (Path.child ⟨.relative, upward 1364 ++ ["r"]⟩ "k.ts").text.utf8ByteSize := by
    rw [child]
    simp only [pathLimit]
    omega
  have place : overlookedFiles.absolute ⟨.relative, upward 1364 ++ ["r", "k.ts"]⟩ =
      ⟨.root, ["r", "k.ts"]⟩ := by
    have names : Location.extend [] (upward 1364 ++ ["r", "k.ts"]) = ["r", "k.ts"] := by
      rw [Location.extend_append, (reaches_upward overlookedFiles 1364).extend_eq]
      rfl
    exact congrArg (Path.mk .root) names
  have reached : overlookedFiles.status ⟨.root, ["r", "k.ts"]⟩ = .ok (["secret.ts"], .file []) := by
    refine FileSystem.status_eq_ok_iff.2 ⟨by decide, by decide, ?_⟩
    exact (passes_overlookedFiles.walk_cons true linkLimit ["k.ts"]).trans (walk_overlookedFiles 39)
  rw [traces_windingRoot.resolve_child_of_long (by decide) (by decide) (by decide) long, child, place]
  exact FileSystem.checked_of_status reached

/-- The text of the path of that link. -/
def overlookedPath : String := (windingRoot.child "k.ts").text

/-- The path is read back from its text, and taken as it is given. -/
theorem ofString_overlookedPath : Path.ofString overlookedPath = windingRoot.child "k.ts" ∧
    given? (some overlookedPath) = some overlookedPath := by
  have listed : ∀ name ∈ (windingRoot.child "k.ts").names,
      name ∈ "r" :: "up" :: (upward 665 ++ ["r", "k.ts"]) := by
    simp [windingRoot, Path.child]
  have solid : ∀ c ∈ overlookedPath.toList, Text.isBlank c = false := by
    intro c member
    by_cases slash : c = '/'
    · exact slash ▸ by decide
    by_cases dot : c = '.'
    · exact dot ▸ by decide
    obtain ⟨name, inside, here⟩ := (Path.mem_text_iff slash dot).1 member
    exact ((clean_of_mem (listed name inside)).2 c here).2
  have trimmed : Text.trim overlookedPath.toList = overlookedPath.toList :=
    Text.trim_eq_self_iff.2 ⟨fun c first => solid c (List.mem_of_mem_head? first),
      fun c last => solid c (List.mem_of_mem_getLast? last)⟩
  have nonempty : overlookedPath ≠ "" := by
    intro empty
    have letter : 'r' ∈ overlookedPath.toList :=
      (Path.mem_text_iff (by decide) (by decide)).2 ⟨"r", List.mem_cons_self, by decide⟩
    rw [empty] at letter
    cases letter
  refine ⟨Path.ofString_text fun name inside => (clean_of_mem (listed name inside)).1, ?_⟩
  rw [given?_of_trim_eq trimmed, if_neg nonempty]

/-- **A link that is overlooked lets an answer depend on what is outside**: the routes root and the
path resolve, the path to a place below the root, and yet it leads to a file outside. It is answered
with a record, and with other bytes in that file the answer is another one. -/
theorem respond_analyzeFile_depends_on_outside :
    overlookedContext.environment.defaultRoot = some "r" ∧
    overlookedFiles.resolve (.ofString "r") = .ok ⟨.root, ["r"]⟩ ∧
    overlookedFiles.resolve (.ofString overlookedPath) = .ok ⟨.root, ["r", "k.ts"]⟩ ∧
    overlookedFiles.status (.ofString overlookedPath) = .ok (["secret.ts"], .file []) ∧
    (∃ json, respond overlookedContext (.to .analyzeFile (fileBody overlookedPath)) =
      .ok (.answer 200 json)) ∧
    ∃ other, DifferOnlyIn (fun location => ¬ ["r"] <+: location) overlookedFiles other ∧
      respond { overlookedContext with fileSystem := other }
          (.to .analyzeFile (fileBody overlookedPath)) ≠
        respond overlookedContext (.to .analyzeFile (fileBody overlookedPath)) := by
  have set : overlookedContext.environment.defaultRoot = some "r" := root?_linkedEnvironment.1
  obtain ⟨path, given⟩ := ofString_overlookedPath
  have root : overlookedFiles.resolve (.ofString "r") = .ok ⟨.root, ["r"]⟩ := by
    have text : Path.ofString "r" = ⟨.relative, ["r"]⟩ := by decide
    have found := (standsAt_upward 0).linkAt?_child_of_passes passes_overlookedFiles (by decide)
      (by decide)
    have traces : overlookedFiles.Traces [] (Path.mk .relative ["r"]).base ["r"]
        ⟨.relative, ["r"]⟩ :=
      .down (by decide) (by decide) ⟨by decide, by decide⟩ found (.done _ _)
    have reached : overlookedFiles.status ⟨.root, ["r"]⟩ = .ok (["r"], .directory) := by
      refine FileSystem.status_eq_ok_iff.2 ⟨by decide, by decide, ?_⟩
      exact (passes_overlookedFiles.walk_cons true linkLimit []).trans (by
        rw [FileSystem.walk]
        rfl)
    rw [text, traces.resolve_eq]
    exact FileSystem.checked_of_status reached
  have resolved : overlookedFiles.resolve (.ofString overlookedPath) = .ok ⟨.root, ["r", "k.ts"]⟩ :=
    path ▸ resolve_windingRoot
  have reached : overlookedFiles.status (.ofString overlookedPath) =
      .ok (["secret.ts"], .file []) := path ▸ status_windingRoot
  have within : overlookedFiles.ResolvesWithin (.ofString overlookedPath) (.ofString "r") :=
    ⟨⟨.root, ["r"]⟩, ["k.ts"], root, resolved⟩
  have allowed : isAllowed overlookedContext overlookedPath = .ok true := by
    rw [isAllowed_eq set]
    exact FileSystem.isWithin_eq_true_iff.2 within
  have reads : ReadsFile overlookedContext (fileBody overlookedPath) ["secret.ts"] :=
    ⟨overlookedPath, [], ⟨⟨overlookedPath, none, none⟩, rfl, given⟩, allowed, reached⟩
  have outside : ¬ ["r"] <+: ["secret.ts"] := by decide
  have valid : readBody FileRequest.fields (fileBody overlookedPath) =
      .valid ⟨overlookedPath, none, none⟩ := rfl
  exact ⟨set, root, resolved, reached,
    ⟨_, respond_analyzeFile_of_within set valid given within⟩,
    exists_respond_analyzeFile_ne reads outside⟩

end FileRoutes.Service
