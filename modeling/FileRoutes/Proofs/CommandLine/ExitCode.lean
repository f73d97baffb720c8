import FileRoutes.Proofs.Analysis.Summary
import FileRoutes.Proofs.Analysis.File
import FileRoutes.Proofs.CommandLine.Run

/-! # The exit code

An option without a value is on exactly when the arguments in front of `--` **give** it
(`Arguments.isOn_parse_iff`): parsing goes on in steps that switch on what they read and nothing
else. The exit code of a run follows from the options that make it fail and from the counts of its
table (`exitCode_eq`), so that it can be told from the arguments and the summary
(`counts_and_exitCode`). -/

namespace FileRoutes.CommandLine

/-! ## Options that are given -/

/-- An option that **switches** something on: it has no value, and it does not call for help. -/
def Name.isSwitch (name : Name) : Bool := !name.takesValue && name != .help

/-- Whether an option is on. -/
def Arguments.isOn (arguments : Arguments) : Name → Bool
  | .json => arguments.json
  | .includeOptions => arguments.includeOptions
  | .failOnErrors => arguments.failOnErrors
  | .failOnMissingHandler => arguments.failOnMissingHandler
  | .verbose => arguments.verbose
  | .help | .routesDir | .output | .maxWorkers => false

/-- Arguments **give** an option when one of them, in front of the end of the options, means it. -/
def Gives (arguments : List String) (name : Name) : Prop :=
  ∃ argument ∈ arguments.takeWhile (· != "--"), Meaning.ofArgument argument = .option name none

section Gives

variable {name : Name} {argument : String} {rest : List String}

/-- No arguments give nothing. -/
theorem not_gives_nil : ¬ Gives [] name := by
  simp [Gives]

/-- Behind the end of the options none is given. -/
theorem not_gives_end : ¬ Gives ("--" :: rest) name := by
  simp [Gives]

/-- An option is given by the first argument or by the others. -/
theorem gives_cons_iff (other : argument ≠ "--") :
    Gives (argument :: rest) name ↔
      Meaning.ofArgument argument = .option name none ∨ Gives rest name := by
  simp [Gives, other]

end Gives

namespace Progress

variable {progress : Progress} {name : Name}

/-- An operand switches nothing on. -/
theorem isOn_operand (progress : Progress) (argument : String) (name : Name) :
    (progress.operand argument).arguments.isOn name = progress.arguments.isOn name := by
  unfold operand
  split
  · rfl
  · cases name <;> rfl

/-- Operands switch nothing on. -/
theorem isOn_operands (progress : Progress) (arguments : List String) (name : Name) :
    (progress.operands arguments).arguments.isOn name = progress.arguments.isOn name := by
  induction arguments generalizing progress with
  | nil => rfl
  | cons argument arguments ih => exact (ih _).trans (isOn_operand progress argument name)

/-- **An option without a value** switches itself on and no other. -/
theorem isOn_switch (progress : Progress) (isSwitch : name.isSwitch = true) (switched : Name) :
    (progress.switch switched).arguments.isOn name =
      (progress.arguments.isOn name || switched == name) := by
  cases name with
  | help | routesDir | output | maxWorkers => cases isSwitch
  | json | includeOptions | failOnErrors | failOnMissingHandler | verbose =>
    cases switched <;> simp [switch, Arguments.isOn]

/-- A value switches nothing on. -/
theorem isOn_assign {assigned : Name} {value : String} {next : Progress}
    (given : progress.assign assigned value = some next) (name : Name) :
    next.arguments.isOn name = progress.arguments.isOn name := by
  cases assigned with
  | routesDir | output =>
    obtain rfl := Option.some.inj given
    cases name <;> rfl
  | maxWorkers =>
    obtain ⟨count, -, rfl⟩ := Option.map_eq_some_iff.1 given
    cases name <;> rfl
  | help | json | includeOptions | failOnErrors | failOnMissingHandler | verbose => cases given

/-- **Parsing switches on what is given**, and nothing else. -/
theorem isOn_parse_iff {arguments : List String} {parsed : Arguments}
    (given : progress.parse arguments = .run parsed) (isSwitch : name.isSwitch = true) :
    parsed.isOn name = true ↔ progress.arguments.isOn name = true ∨ Gives arguments name := by
  fun_induction Progress.parse progress arguments with
  | case1 progress =>
    rw [← arguments_of_finish given, or_iff_left not_gives_nil]
  | case3 progress rest =>
    rw [← arguments_of_finish given, isOn_operands, or_iff_left not_gives_end]
  | case5 progress argument other isOperand _ rest =>
    rw [← arguments_of_finish given, isOn_operands, isOn_operand, gives_cons_iff other, isOperand]
    simp [not_gives_end]
  | case4 progress argument rest other isOperand _ ih =>
    rw [ih given, isOn_operand, gives_cons_iff other, isOperand]
    simp
  | case6 progress argument other isOperand _ rest _ ih =>
    rw [ih given, isOn_operand, gives_cons_iff other, isOperand]
    simp
  | case7 progress argument rest other unknown ih =>
    rw [ih given, gives_cons_iff other, unknown]
    simp
  | case10 progress argument rest other assigned value joined takes next given' ih =>
    rw [ih given, isOn_assign given', gives_cons_iff other, joined]
    simp
  | case15 progress argument other assigned _ meant takes value rest alone next given' ih =>
    -- The value of an option is an operand, and the option is none that switches.
    have differ : assigned ≠ name := by
      rintro rfl
      simp [Name.isSwitch, takes] at isSwitch
    obtain ⟨notEnd, isOperand⟩ := not_or.1 alone
    rw [ih given, isOn_assign given', gives_cons_iff other, gives_cons_iff notEnd, meant,
      not_not.1 isOperand]
    simp [differ]
  | case17 progress argument rest other switched _ meant _ ih =>
    rw [ih given, isOn_switch progress isSwitch, gives_cons_iff other, meant, Bool.or_eq_true,
      beq_iff_eq, or_assoc]
    simp
  | case2 | case8 | case9 | case11 | case12 | case13 | case14 | case16 => cases given

end Progress

/-- **An option is on when it is given.** -/
theorem Arguments.isOn_parse_iff {arguments : List String} {parsed : Arguments}
    (given : parse arguments = .run parsed) {name : Name} (isSwitch : name.isSwitch = true) :
    parsed.isOn name = true ↔ Gives arguments name := by
  have off : Progress.start.arguments.isOn name ≠ true := by
    cases name <;> decide
  unfold parse at given
  dsimp only at given
  split at given
  · cases given
  · rw [Progress.isOn_parse_iff given isSwitch, or_iff_right off]

/-! ## The exit code of a run -/

/-- The summary of a table is that of its routes. -/
theorem summary_of_table {environment : Environment} {fs : FileSystem} {parsed : Arguments}
    {shown : RouteTable} (known : table environment fs parsed = .ok shown) :
    shown.summary = Summary.ofRoutes shown.routes := by
  by_cases isFile : fs.isFile (.ofString parsed.target) = .ok true
  · rw [table_of_isFile isFile] at known
    obtain rfl := Except.ok.inj known
    rfl
  · obtain ⟨routes, -, rfl⟩ := exists_routes_of_table known isFile
    rfl

/-- **The exit code follows from the counts**: it is 1 when there are problems, or routes without a
handler, and the run is to fail because of them. -/
theorem exitCode_eq (arguments : Arguments) (routes : List Route) :
    exitCode arguments routes =
      if arguments.failOnErrors = true ∧ 0 < (Summary.ofRoutes routes).withErrors ∨
        arguments.failOnMissingHandler = true ∧ 0 < (Summary.ofRoutes routes).missingHandlers
      then 1 else 0 := by
  have errors : routes.any (!·.errors.isEmpty) = true ↔
      0 < (Summary.ofRoutes routes).withErrors := by
    rw [List.any_eq_true]
    exact List.countP_pos_iff.symm
  have missing : routes.any (!·.hasHandler) = true ↔
      0 < (Summary.ofRoutes routes).missingHandlers := by
    rw [Summary.missingHandlers_ofRoutes, List.any_eq_true]
    exact List.countP_pos_iff.symm
  unfold exitCode
  simp only [Bool.and_eq_true, errors, missing, ite_or]

/-- **Counting routes, and what follows from it.** The summary of routes is the same in any order of
them, the summary of two lists is the sum of the two, and each summary is balanced: routes with and
without a handler together, and the numbers for all methods, which are at least 1 and stand in
strictly ascending order of the methods, make up the number of routes. A run that comes to its end
has the exit code 1 exactly when its arguments give the option to fail on problems and its summary
counts some, or they give the option to fail on missing handlers and it counts some of those, and
else 0. -/
theorem counts_and_exitCode :
    (∀ xs ys : List Route, (xs.Perm ys → Summary.ofRoutes xs = Summary.ofRoutes ys) ∧
      (Summary.ofRoutes (xs ++ ys)).IsSum (Summary.ofRoutes xs) (Summary.ofRoutes ys) ∧
      (Summary.ofRoutes xs).IsBalanced xs.length) ∧
    ∀ (load : Loader) environment fs arguments completion,
      (run load environment fs arguments).outcome = .ok (.completed completion) →
      ∃ parsed shown, Arguments.parse arguments = .run parsed ∧
        table (load fs environment) fs parsed = .ok shown ∧
        shown.summary = Summary.ofRoutes shown.routes ∧
        (completion.exitCode = 1 ↔
          Gives arguments .failOnErrors ∧ 0 < shown.summary.withErrors ∨
            Gives arguments .failOnMissingHandler ∧ 0 < shown.summary.missingHandlers) ∧
        (completion.exitCode = 0 ↔
          ¬ (Gives arguments .failOnErrors ∧ 0 < shown.summary.withErrors ∨
            Gives arguments .failOnMissingHandler ∧ 0 < shown.summary.missingHandlers)) := by
  refine ⟨fun xs ys => ⟨Summary.ofRoutes_eq_of_perm, Summary.isSum_ofRoutes xs ys,
    Summary.isBalanced_ofRoutes xs⟩, fun load environment fs arguments completion completed => ?_⟩
  cases given : Arguments.parse arguments with
  | help | misuse =>
    rw [run, given] at completed
    cases completed
  | run parsed =>
    obtain ⟨shown, known, shows⟩ := exists_table_of_completed given completed
    have summary := summary_of_table known
    obtain rfl := Outcome.completed.inj shows
    refine ⟨parsed, shown, rfl, known, summary, ?_⟩
    have onErrors : Name.failOnErrors.isSwitch = true := rfl
    have onMissing : Name.failOnMissingHandler.isSwitch = true := rfl
    rw [← Arguments.isOn_parse_iff given onErrors, ← Arguments.isOn_parse_iff given onMissing,
      summary]
    show (exitCode parsed shown.routes = 1 ↔ _) ∧ (exitCode parsed shown.routes = 0 ↔ _)
    rw [exitCode_eq]
    dsimp only [Arguments.isOn]
    split
    next fails => exact ⟨iff_of_true rfl fails, iff_of_false (by decide) (not_not.2 fails)⟩
    next passes => exact ⟨iff_of_false (by decide) passes, iff_of_true rfl passes⟩

/-- The arguments of a run for a single file that fails on problems. -/
def failingArguments : Arguments := ⟨"a.ts", "", false, "", false, none, true, false, false⟩

/-- The record of a file that could not be read, and that of one with a handler. -/
def mixedRoutes : List Route :=
  [.unreadable "a.ts" "/a" (.ofMessage "Is a directory"),
    { Route.unreadable "b.ts" "/b/:id" (.ofMessage "") with
      method := "GET", hasHandler := true, errors := [] }]

/-- The summary of two records in the other order, and a run that fails because of a file that
cannot be read. It gives the option by a shorter word. -/
theorem counts_and_exitCode_damaged :
    mixedRoutes.Perm mixedRoutes.reverse ∧
      Summary.ofRoutes mixedRoutes = Summary.ofRoutes mixedRoutes.reverse ∧
      Gives ["a.ts", "--fail-on-err"] .failOnErrors ∧
      ∃ completion, (run (.keeping .empty) .empty (onlyFile [0xFF])
        ["a.ts", "--fail-on-err"]).outcome = .ok (.completed completion) ∧
          completion.exitCode = 1 := by
  have given : Arguments.parse ["a.ts", "--fail-on-err"] = .run failingArguments := by
    decide +kernel
  have gives : Gives ["a.ts", "--fail-on-err"] .failOnErrors :=
    ⟨"--fail-on-err", by decide, by decide +kernel⟩
  have isFile : (onlyFile [0xFF]).isFile (.ofString failingArguments.target) = .ok true := by
    show (onlyFile [0xFF]).ask _ (.ofString "a.ts") = _
    rw [FileSystem.ask, status_onlyFile]
  have unread : readSource (onlyFile [0xFF]) "a.ts" =
      .error (.undecodable ⟨0, [0xFF], .invalidStart⟩) := by
    rw [readSource_of_bytes (bytes_onlyFile [0xFF])]
    rfl
  have known : table (Loader.keeping .empty (onlyFile [0xFF]) .empty) (onlyFile [0xFF])
      failingArguments = .ok _ := table_of_isFile isFile
  have completed := outcome_run_of_written given known rfl
  obtain ⟨parsed, shown, given', known', -, fails, -⟩ :=
    counts_and_exitCode.2 _ _ _ _ _ completed
  obtain rfl := Parsed.run.inj (given.symm.trans given')
  obtain rfl := Except.ok.inj (known.symm.trans known')
  have counted : 0 < (Summary.ofRoutes [analyzeFile (onlyFile [0xFF])
      (optionsReader (Loader.keeping .empty (onlyFile [0xFF]) .empty) failingArguments) "a.ts"
      failingArguments.fileRoot]).withErrors := by
    rw [analyzeFile_of_error unread]
    exact Nat.zero_lt_one
  have swap : mixedRoutes.Perm mixedRoutes.reverse := mixedRoutes.reverse_perm.symm
  exact ⟨swap, (counts_and_exitCode.1 _ _).1 swap, gives, _, completed,
    fails.2 (.inl ⟨gives, counted⟩)⟩

end FileRoutes.CommandLine
