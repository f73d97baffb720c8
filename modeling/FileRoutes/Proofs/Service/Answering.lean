import FileRoutes.Proofs.FileSystem.RealPath
import FileRoutes.Proofs.Path
import FileRoutes.Proofs.Service.Confinement
import FileRoutes.Proofs.Text.Gap

/-! # When a request is answered

The analysis of a file always answers. A cycle of links keeps a path from being compared with the
routes root, and a path that is too long for the system ends the search below a directory; these are
the only ways in which a request can be left without an answer (`answers_iff`), and each of them
occurs (`unanswered`). -/

namespace FileRoutes.Service

/-- The status of a response. -/
def Response.status : Response → Nat
  | .answer status _ => status
  | .rejected _ => 422
  | .redirect _ => 307

/-- The statuses of the endpoints that analyse. -/
def analysisStatuses : List Nat := [200, 400, 403, 422]

/-- A request **is answered** when there is a response with one of these statuses. -/
def IsAnswered (response : Except Failure Response) : Prop :=
  ∃ answer, response = .ok answer ∧ answer.status ∈ analysisStatuses

section Allowing

variable {context : Context} {path : String}

/-- Whether a path may be analysed is answered when it can be compared with the root that is set. -/
theorem exists_isAllowed_eq_ok_iff : (∃ answer, isAllowed context path = .ok answer) ↔
    ∀ configured, context.environment.defaultRoot = some configured →
      context.fileSystem.Comparable (.ofString path) (.ofString configured) := by
  unfold isAllowed
  cases context.environment.defaultRoot with
  | none => simp
  | some configured =>
    simp only [Option.some.injEq, forall_eq']
    exact FileSystem.exists_isWithin_eq_ok_iff

/-- **Asking first whether a path may be analysed** is answered when that question is, and what
follows for a path that may be. -/
theorem isAnswered_allowed_iff {respond : Except Failure Response} :
    IsAnswered (do if ← isAllowed context path then respond else return outside) ↔
      (∃ answer, isAllowed context path = .ok answer) ∧
        (isAllowed context path = .ok true → IsAnswered respond) := by
  cases isAllowed context path with
  | error failure => simp [IsAnswered, bind, Except.bind]
  | ok allows =>
    cases allows with
    | true => simp [bind, Except.bind]
    | false =>
      simp [IsAnswered, bind, Except.bind, pure, Except.pure, outside, refusal, Response.status,
        analysisStatuses]

/-- A body with faults is rejected; any other is answered when its request is. -/
theorem isAnswered_respondChecked_iff {α : Type} {checked : Schema.Checked α}
    {respond : α → Except Failure Response} :
    IsAnswered (respondChecked checked respond) ↔
      ∀ request, checked = .valid request → IsAnswered (respond request) := by
  cases checked with
  | valid request => simp [respondChecked]
  | invalid faults => simp [respondChecked, IsAnswered, Response.status, analysisStatuses]

end Allowing

section Endpoints

variable {context : Context} {body : Option Json}

/-- **A request for a file is answered** when its path can be compared with the root that is set. -/
theorem isAnswered_analyzeFile_iff : IsAnswered (respond context (.to .analyzeFile body)) ↔
    ∀ request path, readBody FileRequest.fields body = .valid request →
      given? (some request.path) = some path →
      ∀ configured, context.environment.defaultRoot = some configured →
        context.fileSystem.Comparable (.ofString path) (.ofString configured) := by
  have each : ∀ request, IsAnswered (respondFile context request) ↔
      ∀ path, given? (some request.path) = some path →
        ∃ answer, isAllowed context path = .ok answer := by
    intro request
    unfold respondFile
    cases given? (some request.path) with
    | none => simp [IsAnswered, refusal, Response.status, analysisStatuses]
    | some path =>
      simp only [isAnswered_allowed_iff, Option.some.injEq, forall_eq']
      refine and_iff_left fun _ => ⟨_, rfl, ?_⟩
      simp [Response.status, analysisStatuses]
  rw [respond_to, Endpoint.respond, isAnswered_respondChecked_iff]
  simp only [each, exists_isAllowed_eq_ok_iff]
  exact forall_congr' fun request => forall_comm

/-- **A request for a directory is answered** when the directory can be compared with the root that
is set and, where it may be analysed, its analysis answers. -/
theorem isAnswered_analyzeDirectory_iff :
    IsAnswered (respond context (.to .analyzeDirectory body)) ↔
      ∀ request root, readBody DirectoryRequest.fields body = .valid request →
        request.root? context.environment = some root →
        (∀ configured, context.environment.defaultRoot = some configured →
          context.fileSystem.Comparable (.ofString root) (.ofString configured)) ∧
        (isAllowed context root = .ok true → ¬ context.fileSystem.IsTooLong (.ofString root) ∧
          MeetsOnlyShort context.fileSystem (.ofString root)) := by
  have each : ∀ request, IsAnswered (respondDirectory context request) ↔
      ∀ root, request.root? context.environment = some root →
        (∃ answer, isAllowed context root = .ok answer) ∧
        (isAllowed context root = .ok true → ∃ routes,
          analyzeDirectory context.environment context.fileSystem
            (optionsReader context.environment request.includeOptions) none root = .ok routes) := by
    intro request
    unfold respondDirectory DirectoryRequest.root?
    cases (given? request.root).or context.environment.defaultRoot with
    | none => simp [IsAnswered, refusal, Response.status, analysisStatuses]
    | some root =>
      simp only [isAnswered_allowed_iff, Option.some.injEq, forall_eq']
      cases analyzeDirectory context.environment context.fileSystem
        (optionsReader context.environment request.includeOptions) none root with
      | error failure => simp [IsAnswered, bind, Except.bind]
      | ok routes =>
        simp [IsAnswered, bind, Except.bind, pure, Except.pure, Response.status, analysisStatuses]
  rw [respond_to, Endpoint.respond, isAnswered_respondChecked_iff]
  simp only [each, exists_isAllowed_eq_ok_iff, exists_analyzeDirectory_eq_ok_iff]
  exact forall_congr' fun request => forall_comm

end Endpoints

/-! ## All questions -/

/-- **When the analysis answers.** A record is given for every file. Whether a path lies within a
root is answered when the two can be compared, the search for route files when the path of its root
holds no NUL character and it meets only short paths, and the analysis of a directory when its root
is not too long either. A request for an analysis is answered when the paths in it can be compared
with the root that is set and the analysis it asks for answers. -/
theorem answers_iff (context : Context) (reader : Option OptionsReader) (workers : Option Int)
    (path root : String) (body : Option Json) :
    ((analyzeFile context.fileSystem reader path root).filePath = path ∧
      (analyzeFile context.fileSystem reader path root).urlPath.toList.head? = some '/' ∧
      (analyzeFile context.fileSystem reader path root).errors.length ≤ 1 ∧
      (isUnread context.fileSystem path = true →
        (analyzeFile context.fileSystem reader path root).errors.length = 1)) ∧
    ((∃ answer, context.fileSystem.isWithin (.ofString path) (.ofString root) = .ok answer) ↔
      context.fileSystem.Comparable (.ofString path) (.ofString root)) ∧
    ((∃ files, discover context.fileSystem root = .ok files) ↔
      '\x00' ∉ (Path.ofString root).text.toList ∧
        MeetsOnlyShort context.fileSystem (.ofString root)) ∧
    ((∃ routes, analyzeDirectory context.environment context.fileSystem reader workers root =
        .ok routes) ↔
      ¬ context.fileSystem.IsTooLong (.ofString root) ∧
        MeetsOnlyShort context.fileSystem (.ofString root)) ∧
    (IsAnswered (respond context (.to .analyzeFile body)) ↔
      ∀ request path, readBody FileRequest.fields body = .valid request →
        given? (some request.path) = some path →
        ∀ configured, context.environment.defaultRoot = some configured →
          context.fileSystem.Comparable (.ofString path) (.ofString configured)) ∧
    (IsAnswered (respond context (.to .analyzeDirectory body)) ↔
      ∀ request root, readBody DirectoryRequest.fields body = .valid request →
        request.root? context.environment = some root →
        (∀ configured, context.environment.defaultRoot = some configured →
          context.fileSystem.Comparable (.ofString root) (.ofString configured)) ∧
        (isAllowed context root = .ok true → ¬ context.fileSystem.IsTooLong (.ofString root) ∧
          MeetsOnlyShort context.fileSystem (.ofString root))) :=
  ⟨analyzeFile_spec context.fileSystem reader path root, FileSystem.exists_isWithin_eq_ok_iff,
    exists_discover_eq_ok_iff, exists_analyzeDirectory_eq_ok_iff, isAnswered_analyzeFile_iff,
    isAnswered_analyzeDirectory_iff⟩

/-! ## Without an answer -/

/-- A file system with a routes root `r` and a link to itself. -/
def loopFiles : FileSystem := ⟨[(["r"], .directory), (["loop"], .link "loop")], []⟩

/-- The service with that routes root. -/
def loopContext : Context := ⟨linkedEnvironment, loopFiles, ⟨0, 0⟩⟩

/-- The service without a routes root. -/
def openContext : Context := ⟨Environment.empty, loopFiles, ⟨0, 0⟩⟩

/-- A name of some letters. -/
def lettersName (count : Nat) : String := String.ofList (List.replicate count 'a')

/-- The system gives up on the link, however many links it follows. -/
theorem walk_loopFiles (links : Nat) :
    loopFiles.walk true links [] ["loop"] = .error .tooManyLinks := by
  have short : "loop".utf8ByteSize = 4 := by decide
  have again : FileSystem.startOf [] "loop" = [] ∧ namesAlong "loop" = ["loop"] := by decide
  induction links with
  | zero =>
    simp [loopFiles, FileSystem.walk, FileSystem.isDirectoryAt, FileSystem.entry?, List.lookup,
      short, nameLimit]
  | succ links ih =>
    rw [FileSystem.walk]
    simpa [loopFiles, FileSystem.isDirectoryAt, FileSystem.entry?, List.lookup, short, nameLimit,
      again] using ih

/-- The link ends in a cycle. -/
theorem endsInCycle_loopFiles : loopFiles.EndsInCycle (.ofString "loop") := by
  have path : Path.ofString "loop" = ⟨.relative, ["loop"]⟩ := by decide
  have again : namesAlong "loop" = ["loop"] := by decide
  have clean : '\x00' ∉ "loop".toList := by decide
  have text : (Path.mk .root ["loop"]).text = "/loop" := by decide
  have stands := FileSystem.StandsAt.base loopFiles ⟨.relative, ["loop"]⟩
  have link : loopFiles.MeetsLink [] "loop" "loop" :=
    ⟨rfl, by decide, by decide, by decide, rfl⟩
  have found : loopFiles.linkAt? (Path.child ⟨.relative, []⟩ "loop") = some "loop" :=
    stands.linkAt?_child ⟨by decide, by decide⟩ link
  -- The link is met again while it is being resolved.
  have followed : loopFiles.follow [] ⟨.relative, []⟩ ["loop"] =
      .stuck ⟨.relative, ["loop"]⟩ := by
    have start : Path.start ⟨.relative, []⟩ "loop" = ⟨.relative, []⟩ := by decide
    rw [FileSystem.follow_cons_of_link (by decide) (by decide) clean found, if_neg (by decide),
      start, again, FileSystem.follow_cons_of_link (by decide) (by decide) clean found,
      if_pos (by decide)]
    decide
  refine ⟨⟨.relative, ["loop"]⟩, .inr (path ▸ followed), ⟨.root, ["loop"]⟩, ?_⟩
  have absolute : loopFiles.absolute ⟨.relative, ["loop"]⟩ = ⟨.root, ["loop"]⟩ := by decide
  have origin : loopFiles.origin ⟨.root, ["loop"]⟩ = [] := rfl
  rw [absolute, FileSystem.status, FileSystem.find, text, origin, walk_loopFiles,
    if_neg (by decide), if_neg (by decide)]
  rfl

/-- A name has as many bytes as letters. -/
theorem utf8ByteSize_lettersName (count : Nat) : (lettersName count).utf8ByteSize = count := by
  induction count with
  | zero => rfl
  | succ count ih =>
    have first : (String.ofList ['a']).utf8ByteSize = 1 := by decide
    rw [lettersName] at ih
    rw [lettersName, List.replicate_succ, ← List.singleton_append, String.ofList_append,
      String.utf8ByteSize_append, first, ih, Nat.add_comm]

/-- A name of more letters than a name may have bytes is too long, also as a path of its own. -/
theorem isTooLong_lettersName {count : Nat} (long : nameLimit < count) (short : count < pathLimit) :
    loopFiles.IsTooLong (.ofString (lettersName count)) := by
  have size := utf8ByteSize_lettersName count
  have chars : (lettersName count).toList = List.replicate count 'a' := String.toList_ofList
  -- The name is none of the short ones with a meaning of their own.
  have other : ∀ name : String, name.utf8ByteSize < 3 → lettersName count ≠ name := by
    rintro name small rfl
    rw [size] at small
    simp only [nameLimit] at long
    omega
  have empty := other "" (by decide)
  have dot := other "." (by decide)
  have dots := other ".." (by decide)
  have text : (Path.mk .relative [lettersName count]).text = lettersName count := by
    have joined : Path.joinNames [lettersName count] = (lettersName count).toList := rfl
    rw [Path.text, joined]
    split
    next nothing => exact absurd (String.toList_eq_nil_iff.1 nothing) empty
    next => exact String.ofList_toList
  have can : IsPathName (lettersName count) := ⟨empty, dot, by simp [chars]⟩
  have normal : (Path.mk .relative [lettersName count]).IsNormal := by
    simpa [Path.IsNormal] using can
  have path : Path.ofString (lettersName count) = ⟨.relative, [lettersName count]⟩ := by
    rw [← Path.ofString_text normal, text]
  have walked : loopFiles.walk true linkLimit [] [lettersName count] = .error .nameTooLong := by
    rw [FileSystem.walk]
    simp [loopFiles, FileSystem.isDirectoryAt, empty, dot, dots, size, long]
  have origin : loopFiles.origin ⟨.relative, [lettersName count]⟩ = [] := rfl
  have clean : '\x00' ∉ (lettersName count).toList := by simp [chars]
  rw [FileSystem.IsTooLong, path, FileSystem.status, FileSystem.find, text, origin, walked,
    if_neg clean, if_neg (by omega)]
  rfl

/-- A text without blanks at its ends is taken as it is, unless it is empty. -/
theorem given?_of_trim_eq {text : String} (trimmed : Text.trim text.toList = text.toList) :
    given? (some text) = if text = "" then none else some text := by
  have same : Text.trimmed text = text := by
    rw [Text.trimmed, trimmed, String.ofList_toList]
  rw [given?, Option.getD_some, same]
  split
  next => rfl
  next other => rw [if_neg other]

/-- A name of letters is taken as it is given. -/
theorem given?_lettersName {count : Nat} (positive : 0 < count) :
    given? (some (lettersName count)) = some (lettersName count) := by
  have letters : ∀ c ∈ List.replicate count 'a', Text.isBlank c = false := by
    intro c member
    obtain rfl := List.eq_of_mem_replicate member
    decide
  have trimmed : Text.trim (lettersName count).toList = (lettersName count).toList := by
    rw [lettersName, String.toList_ofList]
    refine Text.trim_eq_self_iff.2 ⟨?_, ?_⟩
    · exact fun c first => letters c (List.mem_of_mem_head? first)
    · exact fun c last => letters c (List.mem_of_mem_getLast? last)
  have nonempty : lettersName count ≠ "" := by
    intro empty
    have size := utf8ByteSize_lettersName count
    rw [empty] at size
    exact absurd size (Nat.ne_of_lt positive)
  rw [given?_of_trim_eq trimmed, if_neg nonempty]

/-- **Questions without an answer**: whether a link to itself lies within a root, which route files
are below a root with a NUL character, and which routes are in a root that is too long. A request
for the link and one for the long root are not answered either. -/
theorem unanswered :
    (∀ answer, loopFiles.isWithin (.ofString "loop") (.ofString "r") ≠ .ok answer) ∧
    (∀ files, discover loopFiles "\x00" ≠ .ok files) ∧
    (∀ routes, analyzeDirectory Environment.empty loopFiles none none (lettersName 256) ≠
      .ok routes) ∧
    ¬ IsAnswered (respond loopContext (.to .analyzeFile (some (.obj [("path", .str "loop")])))) ∧
    ¬ IsAnswered (respond openContext
      (.to .analyzeDirectory (some (.obj [("routes_dir", .str (lettersName 256))])))) := by
  have cycle := endsInCycle_loopFiles
  have long : loopFiles.IsTooLong (.ofString (lettersName 256)) :=
    isTooLong_lettersName (by decide) (by decide)
  refine ⟨?_, ?_, ?_, ?_, ?_⟩
  · intro answer given
    exact (FileSystem.exists_isWithin_eq_ok_iff.1 ⟨answer, given⟩).1 cycle
  · intro files found
    have null : '\x00' ∈ (Path.ofString "\x00").text.toList := by decide +kernel
    exact (exists_discover_eq_ok_iff.1 ⟨files, found⟩).1 null
  · intro routes analyzed
    exact (exists_analyzeDirectory_eq_ok_iff.1 ⟨routes, analyzed⟩).1 long
  · rw [isAnswered_analyzeFile_iff]
    intro comparable
    have given : given? (some "loop") = some "loop" := by decide +kernel
    exact (comparable ⟨"loop", none, none⟩ "loop" rfl given "r" root?_linkedEnvironment.1).1 cycle
  · rw [isAnswered_analyzeDirectory_iff]
    intro analyzed
    have given : (DirectoryRequest.mk (some (lettersName 256)) none).root? Environment.empty =
        some (lettersName 256) := by
      rw [DirectoryRequest.root?, given?_lettersName (by decide)]
      rfl
    exact ((analyzed ⟨some (lettersName 256), none⟩ (lettersName 256) rfl given).2 rfl).1 long

end FileRoutes.Service
