import FileRoutes.Text.Integer
import FileRoutes.Text.Split

/-! # Arguments of the command line

The arguments name one target and set options (`Arguments`). An option may be shortened as long as
no other one begins so, and its value may follow it or be joined to it by an equals sign. Behind
`--`, which may stand in front of the target or directly behind it, everything is an operand, and so
is a negative number and what contains a space. Parsing (`Arguments.parse`) goes from left to right
and stops at a wrong value and at a call for help; an operand too many, an unknown option and a
missing target are found out at the end. -/

namespace FileRoutes.CommandLine

/-- The options of the command line. -/
inductive Name where
  | help
  | routesDir
  | json
  | output
  | includeOptions
  | maxWorkers
  | failOnErrors
  | failOnMissingHandler
  | verbose
  deriving DecidableEq, Repr

namespace Name

/-- All options. -/
def all : List Name :=
  [help, routesDir, json, output, includeOptions, maxWorkers, failOnErrors, failOnMissingHandler,
    verbose]

/-- The long form of an option. -/
def word : Name → String
  | help => "--help"
  | routesDir => "--routes-dir"
  | json => "--json"
  | output => "--output"
  | includeOptions => "--include-options"
  | maxWorkers => "--max-workers"
  | failOnErrors => "--fail-on-errors"
  | failOnMissingHandler => "--fail-on-missing-handler"
  | verbose => "--verbose"

/-- Whether an option has a value. -/
def takesValue : Name → Bool
  | routesDir | output | maxWorkers => true
  | _ => false

end Name

/-- The **arguments** of a run. -/
structure Arguments where
  /-- The routes directory or route file. -/
  target : String
  /-- The routes root for a single file; empty when it is to be inferred. -/
  routesDir : String
  /-- Whether the report is printed as JSON. -/
  json : Bool
  /-- Where the report is written to; empty when it is not. -/
  output : String
  /-- Whether options are read. -/
  includeOptions : Bool
  /-- How many files are analysed at once, if that is said. -/
  maxWorkers : Option Int
  /-- Whether a problem makes the run fail. -/
  failOnErrors : Bool
  /-- Whether a route without a handler makes the run fail. -/
  failOnMissingHandler : Bool
  /-- Whether the analysis of each file is logged. -/
  verbose : Bool
  deriving DecidableEq, Repr

/-- The arguments of a run that has only a target. -/
def Arguments.ofTarget (target : String) : Arguments :=
  ⟨target, "", false, "", false, none, false, false, false⟩

/-- What an argument is. -/
inductive Meaning where
  /-- An operand or the value of an option. -/
  | operand
  /-- An option, with a value that is joined to it. -/
  | option (name : Name) (value : Option String)
  /-- It begins as an option does, and is none. -/
  | unknown
  /-- It shortens several options. -/
  | ambiguous
  deriving DecidableEq, Repr

namespace Meaning

/-- Whether a text is a negative number: digits behind a minus, with a point in front of the last
ones or without. A line feed may follow. -/
def isNegativeNumber (text : List Char) : Bool :=
  match text with
  | '-' :: rest =>
    let isDigit (c : Char) : Bool := (Text.digitValue? c).isSome
    let body := if rest.getLast? = some '\n' then rest.dropLast else rest
    match body.dropWhile isDigit with
    | [] => !body.isEmpty
    | '.' :: fraction => !fraction.isEmpty && fraction.all isDigit
    | _ => false
  | _ => false

/-- An argument in front of and behind its first equals sign. -/
def splitValue (text : List Char) : List Char × Option String :=
  match text.dropWhile (· != '=') with
  | [] => (text, none)
  | _ :: value => (text.takeWhile (· != '='), some (String.ofList value))

/-- The short form of help with letters behind it. More of the same letter change nothing, and
other letters come too late to matter. An equals sign or a minus makes them a value, which help does
not have. -/
def ofShortHelp (letters : List Char) : Meaning :=
  match letters.dropWhile (· == 'h') with
  | '=' :: value => .option .help (some (String.ofList value))
  | '-' :: letters => .option .help (some (String.ofList letters))
  | _ => .option .help none

/-- The meaning of an argument that begins with two minus signs. -/
def ofLong (text : List Char) : Meaning :=
  let (word, value) := splitValue text
  match Name.all.find? fun name => name.word.toList == text with
  | some name => .option name none
  | none =>
    match Name.all.find? fun name => name.word.toList == word with
    | some name => .option name value
    | none =>
      match Name.all.filter fun name => word.isPrefixOf name.word.toList with
      | [name] => .option name value
      | [] => if ' ' ∈ text then .operand else .unknown
      | _ => .ambiguous

/-- The **meaning** of an argument, which is not the one that ends the options. -/
def ofArgument (argument : String) : Meaning :=
  match argument.toList with
  | '-' :: '-' :: rest => ofLong ('-' :: '-' :: rest)
  | ['-'] => .operand
  | '-' :: 'h' :: letters => ofShortHelp letters
  | '-' :: rest =>
    if isNegativeNumber ('-' :: rest) || ' ' ∈ rest then .operand else .unknown
  | _ => .operand

end Meaning

/-- The outcome of parsing. -/
inductive Parsed where
  /-- The arguments can be used. -/
  | run (arguments : Arguments)
  /-- Help is called for. -/
  | help
  /-- The arguments cannot be used. -/
  | misuse
  deriving DecidableEq, Repr

/-- What has been parsed so far. -/
structure Progress where
  /-- The arguments, the target being empty as long as there is none. -/
  arguments : Arguments
  /-- Whether there is a target. -/
  hasTarget : Bool
  /-- Whether something has no place. -/
  hasExtra : Bool

namespace Progress

/-- The beginning of parsing. -/
def start : Progress := ⟨.ofTarget "", false, false⟩

/-- After one more operand: the first one is the target. -/
def operand (progress : Progress) (argument : String) : Progress :=
  if progress.hasTarget then { progress with hasExtra := true }
  else
    { progress with
      arguments := { progress.arguments with target := argument }
      hasTarget := true }

/-- After an option without a value. -/
def switch (progress : Progress) (name : Name) : Progress :=
  let arguments := progress.arguments
  { progress with
    arguments :=
      match name with
      | .json => { arguments with json := true }
      | .includeOptions => { arguments with includeOptions := true }
      | .failOnErrors => { arguments with failOnErrors := true }
      | .failOnMissingHandler => { arguments with failOnMissingHandler := true }
      | .verbose => { arguments with verbose := true }
      | _ => arguments }

/-- After an option with a value; `none` when it cannot have this one. -/
def assign (progress : Progress) (name : Name) (value : String) : Option Progress :=
  let arguments := progress.arguments
  match name with
  | .routesDir => some { progress with arguments := { arguments with routesDir := value } }
  | .output => some { progress with arguments := { arguments with output := value } }
  | .maxWorkers =>
    (Text.parseInteger? value.toList).map fun count =>
      { progress with arguments := { arguments with maxWorkers := some count } }
  | _ => none

/-- The outcome at the end of the arguments. -/
def finish (progress : Progress) : Parsed :=
  if progress.hasTarget && !progress.hasExtra then .run progress.arguments else .misuse

/-- Goes on with operands alone. -/
def operands (progress : Progress) (arguments : List String) : Progress :=
  arguments.foldl operand progress

/-- Goes on with arguments of any meaning. The end of the options belongs to the target when it
stands directly behind it, and has no place later. -/
def parse (progress : Progress) : List String → Parsed
  | [] => progress.finish
  | argument :: rest =>
    if argument = "--" then
      if progress.hasTarget then .misuse else (progress.operands rest).finish
    else
      match Meaning.ofArgument argument with
      | .operand =>
        if progress.hasTarget then (progress.operand argument).parse rest
        else
          match rest with
          | "--" :: rest => ((progress.operand argument).operands rest).finish
          | rest => (progress.operand argument).parse rest
      | .unknown => { progress with hasExtra := true : Progress }.parse rest
      | .ambiguous => .misuse
      | .option .help none => .help
      | .option name (some value) =>
        if name.takesValue then
          match progress.assign name value with
          | some progress => progress.parse rest
          | none => .misuse
        else .misuse
      | .option name none =>
        if name.takesValue then
          match rest with
          | [] => .misuse
          | value :: rest =>
            if value = "--" ∨ Meaning.ofArgument value ≠ .operand then .misuse
            else
              match progress.assign name value with
              | some progress => progress.parse rest
              | none => .misuse
        else (progress.switch name).parse rest

end Progress

/-- **Parses** the arguments. One that shortens several options spoils all, wherever it stands among
the options. -/
def Arguments.parse (arguments : List String) : Parsed :=
  let options := arguments.takeWhile (· != "--")
  if options.any (Meaning.ofArgument · == .ambiguous) then .misuse
  else Progress.start.parse arguments

end FileRoutes.CommandLine
