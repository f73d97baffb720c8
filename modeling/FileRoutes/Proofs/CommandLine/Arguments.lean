import FileRoutes.CommandLine.Arguments
import Mathlib.Logic.Relation

/-! # Parsing the arguments

Parsing goes from progress to progress in steps (`Progress.Next`), of which there are four: an operand
is read, or something without a place, or an option without or with a value. The arguments of a run
are those at the last step (`Progress.exists_reaches_of_parse`), so that whatever every step keeps is
kept by parsing: the target, once it is read, and an option that is switched on. Behind a target and
the option for JSON, they are therefore the target and that option of the run, whatever follows
(`Arguments.parse_target_json`). The option for reading options commutes with all steps, so that in
front of other arguments it sets its flag and changes nothing else
(`Arguments.parse_includeOptions`). -/

namespace FileRoutes.CommandLine

open Relation

namespace Progress

/-! ## Steps -/

/-- **One step** of parsing. -/
inductive Next (progress : Progress) : Progress → Prop where
  /-- An operand is read. -/
  | operand (argument : String) : Next progress (progress.operand argument)
  /-- Something that has no place is read. -/
  | extra : Next progress { progress with hasExtra := true }
  /-- An option without a value is read. -/
  | switch (name : Name) : Next progress (progress.switch name)
  /-- An option with a value is read. -/
  | assign {name : Name} {value : String} {next : Progress}
    (given : progress.assign name value = some next) : Next progress next

/-- Reading operands takes a step for each. -/
theorem reaches_operands (progress : Progress) (arguments : List String) :
    ReflTransGen Next progress (progress.operands arguments) := by
  induction arguments generalizing progress with
  | nil => exact .refl
  | cons argument arguments ih => exact .head (.operand argument) (ih _)

/-- **Parsing takes steps**: the arguments of a run are those of a progress that is reached. -/
theorem exists_reaches_of_parse {progress : Progress} {arguments : List String}
    {parsed : Arguments} (given : progress.parse arguments = .run parsed) :
    ∃ last, ReflTransGen Next progress last ∧ last.finish = .run parsed := by
  fun_induction Progress.parse progress arguments with
  | case1 progress => exact ⟨progress, .refl, given⟩
  | case3 progress rest => exact ⟨_, reaches_operands _ _, given⟩
  | case5 progress argument _ _ _ rest =>
    exact ⟨_, .head (.operand argument) (reaches_operands _ _), given⟩
  | case4 progress argument _ _ _ _ ih | case6 progress argument _ _ _ _ _ ih =>
    obtain ⟨last, reached, finished⟩ := ih given
    exact ⟨last, .head (.operand argument) reached, finished⟩
  | case7 progress _ _ _ _ ih =>
    obtain ⟨last, reached, finished⟩ := ih given
    exact ⟨last, .head .extra reached, finished⟩
  | case10 _ _ _ _ _ _ _ _ _ assigned ih | case15 _ _ _ _ _ _ _ _ _ _ _ assigned ih =>
    obtain ⟨last, reached, finished⟩ := ih given
    exact ⟨last, .head (.assign assigned) reached, finished⟩
  | case17 _ _ _ _ name _ _ _ ih =>
    obtain ⟨last, reached, finished⟩ := ih given
    exact ⟨last, .head (.switch name) reached, finished⟩
  | case2 | case8 | case9 | case11 | case12 | case13 | case14 | case16 => cases given

/-- The arguments of a run are those that were parsed last. -/
theorem arguments_of_finish {progress : Progress} {parsed : Arguments}
    (finished : progress.finish = .run parsed) : progress.arguments = parsed := by
  unfold finish at finished
  split at finished
  · exact Parsed.run.inj finished
  · cases finished

/-- Progress **keeps** a target and the option for JSON. -/
structure Keeps (target : String) (progress : Progress) : Prop where
  /-- There is a target. -/
  hasTarget : progress.hasTarget = true
  /-- It is the given one. -/
  target : progress.arguments.target = target
  /-- The report is printed as JSON. -/
  json : progress.arguments.json = true

/-- Every step keeps them. -/
theorem Keeps.next {target : String} {progress next : Progress} (keeps : Keeps target progress)
    (step : Next progress next) : Keeps target next := by
  obtain ⟨hasTarget, same, json⟩ := keeps
  cases step with
  | operand argument =>
    rw [operand, if_pos hasTarget]
    exact ⟨hasTarget, same, json⟩
  | extra => exact ⟨hasTarget, same, json⟩
  | switch name => cases name <;> exact ⟨hasTarget, same, by first | exact json | rfl⟩
  | @assign name value next given =>
    cases name with
    | routesDir | output =>
      obtain rfl := Option.some.inj given
      exact ⟨hasTarget, same, json⟩
    | maxWorkers =>
      obtain ⟨count, -, rfl⟩ := Option.map_eq_some_iff.1 given
      exact ⟨hasTarget, same, json⟩
    | help | json | includeOptions | failOnErrors | failOnMissingHandler | verbose => cases given

/-- **Parsing keeps them**: they are the target and the option of the run. -/
theorem Keeps.parse {target : String} {progress : Progress} (keeps : Keeps target progress)
    {arguments : List String} {parsed : Arguments}
    (given : progress.parse arguments = .run parsed) :
    parsed.target = target ∧ parsed.json = true := by
  obtain ⟨last, reached, finished⟩ := exists_reaches_of_parse given
  have kept : Keeps target last := by
    clear finished
    induction reached with
    | refl => exact keeps
    | tail _ step ih => exact ih.next step
  rw [← arguments_of_finish finished]
  exact ⟨kept.target, kept.json⟩

end Progress

/-! ## A target and the option for JSON -/

/-- What does not begin with a minus sign is an operand. -/
theorem Meaning.ofArgument_eq_operand {argument : String}
    (plain : argument.toList.head? ≠ some '-') : ofArgument argument = .operand := by
  unfold ofArgument
  split
  · simp_all
  · rfl
  · simp_all
  · simp_all
  · rfl

/-- An operand that the end of the options does not follow is read alone. -/
theorem Progress.parse_operand {progress : Progress} {argument next : String} {rest : List String}
    (isOperand : Meaning.ofArgument argument = .operand) (other : argument ≠ "--")
    (goesOn : next ≠ "--") :
    progress.parse (argument :: next :: rest) =
      (progress.operand argument).parse (next :: rest) := by
  rw [parse.eq_def]
  simp only [if_neg other, isOperand]
  -- Without a target yet, parsing looks one argument ahead for the end of the options.
  split
  · rfl
  · split
    next same => exact absurd (List.cons.inj same).1 goesOn
    next => rfl

/-- An option without a value is read alone. -/
theorem Progress.parse_switch {progress : Progress} {argument : String} {rest : List String}
    {name : Name} (isOption : Meaning.ofArgument argument = .option name none)
    (other : argument ≠ "--") (helpless : name ≠ .help) (plain : name.takesValue = false) :
    progress.parse (argument :: rest) = (progress.switch name).parse rest := by
  rw [parse.eq_def]
  simp only [if_neg other, isOption]
  cases name with
  | help => exact absurd rfl helpless
  | routesDir | output | maxWorkers => cases plain
  | json | includeOptions | failOnErrors | failOnMissingHandler | verbose => rfl

/-- **A target in front of the option for JSON** is the target of the run, whatever follows. -/
theorem Arguments.parse_target_json {target : String} (plain : target.toList.head? ≠ some '-')
    {rest : List String} {parsed : Arguments}
    (given : parse (target :: "--json" :: rest) = .run parsed) :
    parsed.target = target ∧ parsed.json = true := by
  have notEnd : target ≠ "--" := by
    rintro rfl
    exact plain (by decide)
  have isOperand := Meaning.ofArgument_eq_operand plain
  have json : Meaning.ofArgument "--json" = .option .json none := by decide
  unfold parse at given
  dsimp only at given
  split at given
  · cases given
  · rw [Progress.parse_operand isOperand notEnd (by decide),
      Progress.parse_switch json (by decide) (by decide) rfl] at given
    -- Both have been read by now.
    exact Progress.Keeps.parse ⟨rfl, rfl, rfl⟩ given

/-! ## The option for reading options -/

namespace Progress

/-- Progress with the option for reading options. -/
def reading (progress : Progress) : Progress := progress.switch .includeOptions

/-- That option does not decide where an operand goes. -/
theorem operand_reading (progress : Progress) (argument : String) :
    progress.reading.operand argument = (progress.operand argument).reading := by
  have same : progress.reading.hasTarget = progress.hasTarget := rfl
  unfold operand
  rw [same]
  split <;> rfl

/-- That option does not decide where operands go. -/
theorem operands_reading (progress : Progress) (arguments : List String) :
    progress.reading.operands arguments = (progress.operands arguments).reading := by
  induction arguments generalizing progress with
  | nil => rfl
  | cons argument arguments ih =>
    show (progress.reading.operand argument).operands arguments = _
    rw [operand_reading, ih]
    rfl

/-- It does not matter in which order it and another one are switched on. -/
theorem switch_reading (progress : Progress) (name : Name) :
    progress.reading.switch name = (progress.switch name).reading := by
  cases name <;> rfl

/-- It does not matter for the values of other options. -/
theorem assign_reading (progress : Progress) (name : Name) (value : String) :
    progress.reading.assign name value = (progress.assign name value).map reading := by
  cases name with
  | maxWorkers => simp [assign, reading, switch, Function.comp_def]
  | routesDir | output => rfl
  | help | json | includeOptions | failOnErrors | failOnMissingHandler | verbose => rfl

end Progress

/-- Parsed arguments with the option for reading options. -/
def Parsed.reading : Parsed → Parsed
  | .run arguments => .run { arguments with includeOptions := true }
  | .help => .help
  | .misuse => .misuse

/-- The end of the arguments is the same with that option. -/
theorem Progress.finish_reading (progress : Progress) :
    progress.reading.finish = progress.finish.reading := by
  have same : progress.reading.hasTarget = progress.hasTarget ∧
      progress.reading.hasExtra = progress.hasExtra := ⟨rfl, rfl⟩
  unfold finish
  rw [same.1, same.2]
  split <;> rfl

/-- **Parsing commutes with the option for reading options.** -/
theorem Progress.parse_reading (progress : Progress) (arguments : List String) :
    progress.reading.parse arguments = (progress.parse arguments).reading := by
  have same : ∀ progress : Progress, progress.reading.hasTarget = progress.hasTarget := fun _ => rfl
  -- That there is a target decides how to go on, and the option does not change that.
  fun_induction Progress.parse progress arguments with
  | case1 progress => rw [parse, finish_reading]
  | case2 | case8 | case9 | case11 | case12 | case13 | case14 | case16 =>
    rw [parse.eq_def]
    simp only [*, assign_reading, Option.map_none, if_true, Bool.false_eq_true, if_false]
    rfl
  | case3 | case5 =>
    rw [parse.eq_def]
    simp only [*, operand_reading, operands_reading, finish_reading, if_true, Bool.false_eq_true,
      if_false]
  | case4 | case6 =>
    rw [parse.eq_def]
    simp only [*, operand_reading, if_true, Bool.false_eq_true, if_false]
  | case7 _ _ _ _ _ ih =>
    rw [parse.eq_def]
    simp only [*, if_false]
    exact ih
  | case10 | case15 | case17 =>
    rw [parse.eq_def]
    simp only [*, assign_reading, switch_reading, Option.map_some, if_true, Bool.false_eq_true,
      if_false]

/-- **In front of other arguments** the option sets its flag, and changes nothing else. -/
theorem Arguments.parse_includeOptions (arguments : List String) :
    parse ("--include-options" :: arguments) = (parse arguments).reading := by
  have isOption : Meaning.ofArgument "--include-options" = .option .includeOptions none := by
    decide
  have inFront : ("--include-options" :: arguments).takeWhile (· != "--") =
      "--include-options" :: arguments.takeWhile (· != "--") := rfl
  have clear : (Meaning.ofArgument "--include-options" == .ambiguous) = false := by
    rw [isOption]
    rfl
  unfold parse
  rw [inFront]
  simp only [List.any_cons, clear, Bool.false_or]
  split
  · rfl
  · rw [Progress.parse_switch isOption (by decide) (by decide) rfl]
    exact Progress.parse_reading .start arguments

example : Arguments.parse ["--include-options", "r"] =
    .run { Arguments.ofTarget "r" with includeOptions := true } := by decide

end FileRoutes.CommandLine
